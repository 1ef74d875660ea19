import BinMatch.AddressMap
import BinMatch.Catalog
import BinMatch.Error
import BinMatch.Path

/-!
# Files

The files and directories that a run can see, under their resolved paths.  The
working directory and the root are always there.
-/

namespace BinMatch

structure UnitFunction where
  name : Option String
  address : Int
  codeSize : Int
  sourceFile : Option String
  deriving DecidableEq, Repr

structure File where
  bytes : List UInt8
  /-- The compilation units of a readable debug file. -/
  units : Option (List (List UnitFunction))
  deriving DecidableEq, Repr

def File.ofText (text : String) : File :=
  ⟨text.toUTF8.toList, none⟩

inductive DiskEntry where
  | file (content : File)
  | directory
  deriving DecidableEq, Repr

structure Disk where
  entries : Catalog Path DiskEntry

namespace Disk

def empty : Disk := ⟨Catalog.empty⟩

def lookup (disk : Disk) (path : Path) : Option DiskEntry :=
  let place := path.resolve
  match disk.entries.get? place with
  | some entry => some entry
  | none =>
    if place.parts.all (· = "..") then some .directory else none

def ancestors (path : Path) : List Path :=
  (List.range path.parts.length).map fun n =>
    { path with parts := path.parts.take n }

def longestName : Nat := 255

def nameObstacle? (part : String) : Option OsFailure :=
  if longestName < part.utf8ByteSize then some .nameTooLong else none

def longestPath : Nat := 4095

/-- Why the path cannot be reached, if so.  Components are looked up one after
the other, each in a directory that has to be there. -/
def obstacle? (disk : Disk) (path : Path) : Option OsFailure :=
  if longestPath < path.toString.utf8ByteSize then some .nameTooLong
  else
    ((ancestors path).zip path.parts).findSome? fun (dir, part) =>
      match disk.lookup dir with
      | some .directory => nameObstacle? part
      | some (.file _) => some .notADirectory
      | none => some .missingFile

def put (disk : Disk) (path : Path) (entry : DiskEntry) : Disk :=
  ⟨disk.entries.put path.resolve entry⟩

/-- Put an entry together with the directories that lead to it. -/
def putDeep (disk : Disk) (path : Path) (entry : DiskEntry) : Disk :=
  ((ancestors path).foldl
    (fun d dir => if (d.lookup dir).isNone then d.put dir .directory else d)
    disk).put path entry

def isFile (disk : Disk) (path : Path) : Bool :=
  match disk.obstacle? path, disk.lookup path with
  | none, some (.file _) => true
  | _, _ => false

def readFile (disk : Disk) (path : Path) : Except OsFailure File :=
  match disk.obstacle? path with
  | some failure => .error failure
  | none =>
    match disk.lookup path with
    | none => .error .missingFile
    | some .directory => .error .isADirectory
    | some (.file content) => .ok content

def writeText (disk : Disk) (path : Path) (text : String) :
    Except OsFailure Disk :=
  match disk.obstacle? path with
  | some failure => .error failure
  | none =>
    match disk.lookup path with
    | some .directory => .error .isADirectory
    | _ => .ok (disk.put path (.file (.ofText text)))

inductive Stop where
  | failed (cause : OsFailure)
  /-- The path holds a null character, so that no file can be called by it. -/
  | unnameable
  deriving DecidableEq, Repr

/-- A file operation at a path, which it must be possible to call a file by. -/
def atNameable {α : Type} (path : Path) (result : Except OsFailure α) :
    Except Stop α :=
  if path.isNameable then result.mapError .failed else .error .unnameable

def read (disk : Disk) (path : Path) : Except Stop File :=
  atNameable path (disk.readFile path)

def write (disk : Disk) (path : Path) (text : String) : Except Stop Disk :=
  atNameable path (disk.writeText path text)

/-- Write files one after the other up to the first that cannot be written; what
was written before it stays. -/
def writeAll (disk : Disk) : List (Path × String) → Disk × Option Stop
  | [] => (disk, none)
  | (path, text) :: files =>
    match disk.write path text with
    | .ok written => writeAll written files
    | .error stop => (disk, some stop)

def isDirectory (disk : Disk) (path : Path) : Bool :=
  match disk.obstacle? path, disk.lookup path with
  | none, some .directory => true
  | _, _ => false

/-- The disk with a new directory, which has to have a name of its own. -/
def createDirectory (disk : Disk) (path : Path) : Except OsFailure Disk :=
  match disk.obstacle? path with
  | some failure => .error failure
  | none =>
    match disk.lookup path with
    | some _ => .error .fileExists
    | none => .ok (disk.put path .directory)

/-- A directory that is there already is as good as a new one. -/
def keepDirectory (disk : Disk) (path : Path) (failure : OsFailure) :
    Except OsFailure Disk :=
  if disk.isDirectory path then .ok disk else .error failure

/-- A directory at the path whose components, last one first, are given; where
the directory around it is missing, that one is made before. -/
def makeDirectoryAt (disk : Disk) (root : String) :
    List String → Except OsFailure Disk
  | [] => .ok disk
  | last :: before =>
    let path : Path := { root, parts := (last :: before).reverse }
    match disk.createDirectory path with
    | .ok made => .ok made
    | .error failure =>
      if failure = .missingFile then
        match makeDirectoryAt disk root before with
        | .error outer => .error outer
        | .ok around =>
          match around.createDirectory path with
          | .ok made => .ok made
          | .error inner => around.keepDirectory path inner
      else disk.keepDirectory path failure

def makeDirectory (disk : Disk) (path : Path) : Except OsFailure Disk :=
  makeDirectoryAt disk path.root path.parts.reverse

def changesSince (before after : Disk) : List (Path × List UInt8) :=
  after.entries.entries.filterMap fun (path, entry) =>
    match entry with
    | .directory => none
    | .file content =>
      let kept :=
        match before.entries.get? path with
        | some (.file old) => decide (old.bytes = content.bytes)
        | _ => false
      if kept then none else some (path, content.bytes)

end Disk

end BinMatch
