import BinMatch.Config
import BinMatch.Failure

/-!
# Debug files

The function records of the debug file that stands next to a rebuilt binary.  A readable
debug file is described by a document with a table for each of its compilation units and,
in that, a table for each function of the unit.
-/

namespace BinMatch

/-- Text that may be absent; empty text counts as absent. -/
def nonempty? (text : Option String) : Option String :=
  text.filter (!·.isEmpty)

/-- The record of a function; code of size zero has no known end. -/
def UnitFunction.record (f : UnitFunction) : DebugRecord :=
  { name := nonempty? f.name
    start := f.address
    stop := if f.codeSize = 0 then none else some (f.address + f.codeSize)
    sourceFile := nonempty? f.sourceFile }

def unitRecords (units : List (List UnitFunction)) : List DebugRecord :=
  units.flatten.map (·.record)

namespace Disk

/-- The records of the debug file at `path`.  A file that is not there is an error,
but so long a path that none can be there is a breakdown. -/
def readDebugFile (disk : Disk) (path : Path) :
    Except Failure (List DebugRecord) :=
  if path.isNameable && disk.obstacle? path = some .nameTooLong then
    .error (.broken (.pathTooLong path))
  else if disk.isFile path then
    match disk.read path with
    | .error stop => .error (stop.failure path)
    | .ok content =>
      match content.units with
      | none =>
        .error (.reported (.debugFormat path.toString "not a readable PDB"))
      | some units => .ok (unitRecords units)
  else .error (.reported (.fileAccess path.toString .missingFile))

def readImageBytes (disk : Disk) (path : Path) : Except Failure (List UInt8) :=
  match disk.read path with
  | .error stop => .error (stop.failure path)
  | .ok content => .ok content.bytes

end Disk

/-- The debug file that belongs to a binary; a path without a last component
has none. -/
def debugFileFor (binary : Path) : Option Path :=
  binary.withSuffix? ".pdb"

def openDebugInfo (disk : Disk) (path : Path) : Attempt (List DebugRecord) := do
  Attempt.tell (.loadingDebugInfo path.toString)
  Attempt.ofExcept (disk.readDebugFile path)

/-! ## Descriptions -/

namespace DebugInfo.Description

open Toml Config

def unitFunction : Value → Validated UnitFunction
  | .table t =>
    match Validated.both (required integer t "rva")
        (Validated.both (optional integer t "code_size")
          (Validated.both (optional text t "name") (optional text t "file")))
      with
    | .ok (address, codeSize, name, sourceFile) =>
      .ok { name, address, codeSize := codeSize.getD 0, sourceFile }
    | .error fs => .error fs
  | _ => .error [.notDefinition]

def tables {α : Type} (read : Value → Validated α) : Value → Validated (List α)
  | .array items => Validated.all (items.map read)
  | _ => .error [.notList]

def compilationUnit : Value → Validated (List UnitFunction)
  | .table t =>
    match optional (tables unitFunction) t "function" with
    | .ok functions => .ok (functions.getD [])
    | .error fs => .error fs
  | _ => .error [.notDefinition]

/-- The compilation units of a description; other bytes are not readable. -/
def units? (bytes : List UInt8) : Option (List (List UnitFunction)) := do
  let document ← String.fromUTF8? ⟨bytes.toArray⟩
  let table ← (Document.parse document).toOption
  (required (tables compilationUnit) table "unit").toOption

end DebugInfo.Description

end BinMatch
