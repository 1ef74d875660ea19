import BinMatch.AddressMap
import BinMatch.Log

/-!
# Symbols from debug records

Named debug records become symbols under their base names.  A decorated name carries
its parameters behind an at sign or an opening parenthesis, and its base name is the
first longest run of other characters.  A record inside the reserved region in front
of the code is skipped, and a later record replaces an earlier one of the same base
name.
-/

namespace BinMatch

namespace Symbol

def startsDecoration (c : Char) : Bool :=
  c = '@' || c = '('

/-- The base name; a name of decoration characters alone is kept whole. -/
def baseName (name : String) : String :=
  let run := (name.toList.dropWhile startsDecoration).takeWhile
    (!startsDecoration ·)
  if run.isEmpty then name else String.ofList run

def sectionPreamble : Int := 0xC00

def sourceFileOf (recorded : Option String) : String :=
  let file := recorded.getD ""
  if file.isEmpty then unknownSource else file

/-- The symbol of a record; a record without an end has size zero. -/
def ofRecord (r : DebugRecord) : Symbol :=
  { name := baseName (r.name.getD "")
    sourceFile := sourceFileOf r.sourceFile
    offset := r.start - sectionPreamble
    size := max (r.stop.getD r.start - r.start) 0 }

end Symbol

def addRecord (path : String) (found : Catalog String Symbol)
    (r : DebugRecord) : Logged (Catalog String Symbol) :=
  let name := r.name.getD ""
  if name.isEmpty then pure found
  else if r.start < Symbol.sectionPreamble then do
    Logged.tell (.insidePreamble name r.start)
    pure found
  else do
    let s := Symbol.ofRecord r
    if found.contains s.name then Logged.tell (.duplicateSymbol s.name path)
    pure (found.put s.name s)

def extractSymbols (path : String) (records : List DebugRecord) :
    Logged (Catalog String Symbol) :=
  records.foldlM (addRecord path) Catalog.empty

end BinMatch
