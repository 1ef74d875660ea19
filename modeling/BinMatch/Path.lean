/-!
# File paths

A path is a root and a list of components.  Empty components and single dots
vanish when a path is read; double dots stay.  Exactly two leading slashes are a
root of their own, any other number of them is the plain root.
-/

namespace BinMatch

structure Path where
  /-- Empty for a relative path, otherwise one or two slashes. -/
  root : String
  parts : List String
  deriving DecidableEq, Repr

namespace Path

/-- The text between slashes, empty pieces included. -/
def pieces (read : List Char) : List Char → List String
  | [] => [String.ofList read.reverse]
  | c :: rest =>
    if c = '/' then String.ofList read.reverse :: pieces [] rest
    else pieces (c :: read) rest

def ofString (text : String) : Path :=
  let chars := text.toList
  let slashes := (chars.takeWhile (· = '/')).length
  { root := if slashes = 0 then "" else if slashes = 2 then "//" else "/"
    parts := (pieces [] chars).filter fun p => p ≠ "" && p ≠ "." }

def toString (p : Path) : String :=
  let text := p.root ++ "/".intercalate p.parts
  if text.isEmpty then "." else text

/-- The components, the root being the first one of an absolute path. -/
def components (p : Path) : List String :=
  if p.root.isEmpty then p.parts else p.root :: p.parts

def join (p q : Path) : Path :=
  if q.root.isEmpty then { p with parts := p.parts ++ q.parts } else q

def child (p : Path) (name : String) : Path :=
  p.join ⟨"", [name]⟩

def parent (p : Path) : Path :=
  { p with parts := p.parts.dropLast }

def isNameable (p : Path) : Bool :=
  p.parts.all fun part => part.toList.all (· ≠ '\x00')

/-- Position of the last dot that has characters on both of its sides. -/
def suffixStart? (name : List Char) : Option Nat :=
  let tail := (name.reverse.takeWhile (· ≠ '.')).length
  if tail = 0 || name.length ≤ tail + 1 then none
  else some (name.length - tail - 1)

/-- The path with the suffix of its last component replaced or, where that has
none, with a suffix added; a path without components has no such path. -/
def withSuffix? (p : Path) (suffix : String) : Option Path :=
  match p.parts.getLast? with
  | none => none
  | some name =>
    let chars := name.toList
    let stem := chars.take ((suffixStart? chars).getD chars.length)
    some { p with parts := p.parts.dropLast ++ [String.ofList stem ++ suffix] }

/-- Components with each double dot taken back against the one before it.  Above
the root there is nothing; a relative path keeps the double dots that lead out
of its directory. -/
def collapse (absolute : Bool) (read : List String) : List String → List String
  | [] => read.reverse
  | part :: rest =>
    if part = ".." then
      match read with
      | [] => if absolute then collapse absolute [] rest
        else collapse absolute [part] rest
      | last :: before =>
        if last = ".." then collapse absolute (part :: read) rest
        else collapse absolute before rest
    else collapse absolute (part :: read) rest

/-- The place that a path stands for, when links are left aside. -/
def resolve (p : Path) : Path :=
  { root := if p.root.isEmpty then "" else "/"
    parts := collapse (!p.root.isEmpty) [] p.parts }

end Path

end BinMatch
