import BinMatch.Side
import BinMatch.Log
import BinMatch.X86.Line
import BinMatch.X86.TableDecoder

/-!
# Full listings

All declared functions of one binary, one block after the other.  A function that
cannot be listed is remarked on and left out.
-/

namespace BinMatch

structure ListingBlock where
  name : String
  /-- The size shown in the head. -/
  size : Int
  body : String
  deriving DecidableEq, Repr

namespace ListingBlock

def head (b : ListingBlock) : String :=
  "\n;\n; " ++ b.name ++ "\n; size: " ++ Text.Hex.address b.size ++ "\n;\n\n"

def text (b : ListingBlock) : String :=
  b.head ++ b.body

end ListingBlock

def listingText (blocks : List ListingBlock) : String :=
  String.join (blocks.map (·.text))

def blockOrRemark (name : String) (shownSize : Int)
    (body : Except Error String) : Logged (List ListingBlock) :=
  match body with
  | .ok body => pure [{ name, size := shownSize, body }]
  | .error e => do
    Logged.tell (.failed e)
    pure []

def referenceBlock (opts : X86.LineOptions) (side : ReferenceSide)
    (d : Definition) : Logged (List ListingBlock) :=
  match d.size with
  | none => do
    Logged.tell (.skippedWithoutSize d.name)
    pure []
  | some size =>
    blockOrRemark d.name size do
      let code ← side.image.slice d.name (side.fileOffset d) size
      X86.render opts side.addressMap code d.address

/-- The blocks of the declared functions that have a size. -/
def referenceListing (opts : X86.LineOptions) (side : ReferenceSide)
    (declared : List Definition) : Logged (List ListingBlock) := do
  let blocks ← declared.mapM (referenceBlock opts side)
  pure blocks.flatten

def rebuiltBlock (opts : X86.LineOptions) (truncate : Bool) (side : RebuiltSide)
    (d : Definition) (s : Symbol) : Logged (List ListingBlock) := do
  if truncate && d.size.isNone then Logged.tell (.debugSizeUsed d.name)
  let size := if truncate then d.size.getD s.size else s.size
  blockOrRemark d.name s.size do
    let code ← side.image.slice d.name s.offset size
    X86.render opts side.addressMap code (side.virtualAddress s)

/-- The blocks of the declared functions among the symbols that `remaining` still
holds, and the symbols that are left over. -/
def rebuiltBlocks (opts : X86.LineOptions) (truncate : Bool) (side : RebuiltSide)
    (remaining : Catalog String Symbol) :
    List Definition → Logged (List ListingBlock × Catalog String Symbol)
  | [] => pure ([], remaining)
  | d :: declared =>
    match remaining.get? d.name with
    | none => do
      Logged.tell (.notInDebugFile d.name)
      rebuiltBlocks opts truncate side remaining declared
    | some s => do
      let first ← rebuiltBlock opts truncate side d s
      let (others, left) ←
        rebuiltBlocks opts truncate side (remaining.erase d.name) declared
      pure (first ++ others, left)

/-- The blocks of the declared functions that have a symbol; a remark names each
symbol that no declaration took. -/
def rebuiltListing (opts : X86.LineOptions) (truncate : Bool)
    (side : RebuiltSide) (declared : List Definition) :
    Logged (List ListingBlock) := do
  let (blocks, left) ← rebuiltBlocks opts truncate side side.symbols declared
  (left.keys.mergeSort fun a b => a ≤ b).forM fun name =>
    Logged.tell (.notInConfig name)
  pure blocks

end BinMatch
