import BinMatch.Comparison
import BinMatch.X86.TableDecoder

/-!
# Comparing all functions

Every function that either side knows is compared on its own.  A comparison that
fails is recorded with its error and does not touch the others.
-/

namespace BinMatch

structure FunctionReport where
  name : String
  sourceFile : String
  rebuiltOffset : Option Int
  rebuiltSize : Option Int
  referenceAddress : Option Int
  referenceSize : Option Int
  result : Option Diff.TextDiff
  error : Option String

namespace FunctionReport

/-- The match ratio, zero for a function that could not be compared. -/
def ratio (r : FunctionReport) : Float :=
  match r.result with
  | some d => d.ratio
  | none => 0.0

def isMatch (r : FunctionReport) : Bool :=
  r.result.any (·.isMatch)

end FunctionReport

/-- The declared names in their order, then the other symbol names, sorted. -/
def sweepNames (reference : ReferenceSide) (rebuilt : RebuiltSide) :
    List String :=
  reference.functions.keys ++
    (rebuilt.symbols.keys.filter (!reference.functions.contains ·)).mergeSort
      fun a b => a ≤ b

def reportOn (opts : ComparisonOptions) (reference : ReferenceSide)
    (rebuilt : RebuiltSide) (name : String) : Logged FunctionReport := do
  let declared := reference.functions.get? name
  let symbol := rebuilt.symbols.get? name
  if symbol.isNone then Logged.tell (.notInDebugFile name)
  let outcome ← (compare opts reference rebuilt name).run
  let base : FunctionReport :=
    { name
      sourceFile := (symbol.map (·.sourceFile)).getD ""
      rebuiltOffset := symbol.map (·.offset)
      rebuiltSize := symbol.map (·.size)
      referenceAddress := declared.map (·.address)
      referenceSize := declared.bind (·.size)
      result := none
      error := none }
  match outcome with
  | .ok d => pure { base with result := some d }
  | .error e => do
    Logged.tell (.failed e)
    pure { base with error := some e.message }

def compareAll (opts : ComparisonOptions) (reference : ReferenceSide)
    (rebuilt : RebuiltSide) : Logged (List FunctionReport) :=
  (sweepNames reference rebuilt).mapM (reportOn opts reference rebuilt)

end BinMatch
