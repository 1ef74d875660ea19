import BinMatch.Catalog

/-!
# Functions and address maps

A function is known in three ways: declared for the reference binary at an absolute
address, recorded in the debug file of the rebuilt binary, and extracted from such a
record as a symbol of the rebuilt binary.  An address map has functions under the
addresses at which they stand in one binary; of several functions at one address the
one put last is kept.
-/

namespace BinMatch

/-- The source file of a function whose debug record names none. -/
def unknownSource : String := "UNKNOWN"

/-- A function declared at an absolute virtual address. -/
structure Definition where
  name : String
  address : Int
  size : Option Int
  deriving DecidableEq, Repr

/-- A function of the rebuilt binary at an offset in its file. -/
structure Symbol where
  name : String
  sourceFile : String
  offset : Int
  size : Int
  deriving DecidableEq, Repr

/-- One function record of a debug file, at addresses relative to the image. -/
structure DebugRecord where
  name : Option String
  start : Int
  stop : Option Int
  sourceFile : Option String
  deriving DecidableEq, Repr

abbrev AddressMap := Catalog Int Definition

namespace AddressMap

def ofDefinitions (definitions : List Definition) : AddressMap :=
  Catalog.ofList (definitions.map fun d => (d.address, d))

end AddressMap

def Symbol.toDefinition (segmentOffset : Int) (s : Symbol) : Definition :=
  { name := s.name, address := s.offset + segmentOffset, size := some s.size }

def sortedByName {ν : Type} (entries : List (String × ν)) : List (String × ν) :=
  entries.mergeSort fun a b => a.1 ≤ b.1

/-- Symbols under their addresses, put in the order of their names. -/
def AddressMap.ofSymbols (segmentOffset : Int) (symbols : Catalog String Symbol) :
    AddressMap :=
  ofDefinitions
    ((sortedByName symbols.entries).map (·.2.toDefinition segmentOffset))

end BinMatch
