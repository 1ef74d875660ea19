import BinMatch.Diff.TextDiff
import BinMatch.Side
import BinMatch.Thunk

/-!
# Comparing one function

The function of one name is carved out of both binaries, disassembled, and the
two listings are compared line by line.  A side that does not know the name has
an empty listing; at least one side has to know it.
-/

namespace BinMatch

structure ComparisonOptions where
  lines : X86.LineOptions := {}
  /-- Take as many bytes of the rebuilt function as the reference declares. -/
  truncateToReference : Bool := false
  resolveThunks : Bool := false
  deriving DecidableEq, Repr

/-- Numbers of bytes to take on each side, none on a side without the name. -/
structure ExtractionPlan where
  referenceSize : Option Int
  rebuiltSize : Option Int
  deriving DecidableEq, Repr

/-- A declared size counts on the reference side, else the size of the symbol;
truncation needs a declared size and takes it on both sides. -/
def planExtraction (truncate : Bool) (name : String)
    (declared : Option Definition) (symbol : Option Symbol) :
    Except Error ExtractionPlan := do
  let declaredSize := declared.bind (·.size)
  if truncate && declaredSize.isNone then throw (.requiredSize name)
  let referenceSize ←
    match declared, declaredSize, symbol with
    | none, _, _ => pure none
    | some _, some size, _ => pure (some size)
    | some _, none, some s => pure (some s.size)
    | some _, none, none => throw (.missingSize name)
  let rebuiltSize :=
    symbol.bind fun s => if truncate then declaredSize else some s.size
  pure { referenceSize, rebuiltSize }

def referenceListingName : String := "orig.asm"
def rebuiltListingName : String := "compare.asm"

/-- The listing of one side, by its own map or by one that knows its thunks. -/
def listingOf [X86.Decoder] (opts : ComparisonOptions) (image : Image)
    (virtualBase : Int) (names : AddressMap) (code : List UInt8) (address : Int) :
    Checked String := do
  let names ←
    if opts.resolveThunks then resolveThunks image virtualBase names code address
    else pure names
  Checked.ofExcept (X86.render opts.lines names code address)

/-- The bytes of a function that a side may not know. -/
def carve (image : Image) (name : String) (offset size : Option Int) :
    Except Error (List UInt8) :=
  match offset, size with
  | some offset, some size => image.slice name offset size
  | _, _ => pure []

def compare [X86.Decoder] (opts : ComparisonOptions) (reference : ReferenceSide)
    (rebuilt : RebuiltSide) (name : String) : Checked Diff.TextDiff := do
  let declared := reference.functions.get? name
  let symbol := rebuilt.symbols.get? name
  if declared.isNone && symbol.isNone then throw (.symbolNotFound name)
  let plan ← Checked.ofExcept
    (planExtraction opts.truncateToReference name declared symbol)
  let referenceCode ← Checked.ofExcept
    (carve reference.image name (declared.map reference.fileOffset)
      plan.referenceSize)
  let rebuiltCode ← Checked.ofExcept
    (carve rebuilt.image name (symbol.map (·.offset)) plan.rebuiltSize)
  let referenceText ←
    match declared with
    | some d =>
      listingOf opts reference.image reference.addressOffset reference.addressMap
        referenceCode d.address
    | none => pure ""
  let rebuiltText ←
    match symbol with
    | some s =>
      listingOf opts rebuilt.image rebuilt.segmentOffset rebuilt.addressMap
        rebuiltCode (rebuilt.virtualAddress s)
    | none => pure ""
  pure (Diff.compareTexts referenceListingName rebuiltListingName
    referenceText rebuiltText)

end BinMatch
