import BinMatch.AddressMap
import BinMatch.Error

/-!
# The two sides

A binary is held as its bytes, and a slice is taken only where it lies inside the
image entirely.  The reference binary with the functions declared for it, and the rebuilt binary
with the symbols of its debug file.  Each side has its own address map, because
an address means something in one binary only.
-/

namespace BinMatch

/-! ## Images -/

structure Image where
  bytes : List UInt8

namespace Image

def size (image : Image) : Nat :=
  image.bytes.length

/-- The range has no negative bound and ends inside the image. -/
def covers (image : Image) (offset size : Int) : Bool :=
  0 ≤ offset && 0 ≤ size && offset + size ≤ image.size

def slice (image : Image) (name : String) (offset size : Int) :
    Except Error (List UInt8) :=
  if image.covers offset size then
    .ok ((image.bytes.drop offset.toNat).take size.toNat)
  else .error (.outOfBounds name offset size image.size)

end Image

/-! ## Sides -/

/-- The distance from offsets in the rebuilt file to its virtual addresses. -/
def defaultSegmentOffset : Int := 0x400C00

structure ReferenceSide where
  image : Image
  functions : Catalog String Definition
  /-- The virtual address of the first byte of the file. -/
  addressOffset : Int

namespace ReferenceSide

def fileOffset (side : ReferenceSide) (d : Definition) : Int :=
  d.address - side.addressOffset

def addressMap (side : ReferenceSide) : AddressMap :=
  AddressMap.ofDefinitions side.functions.values

end ReferenceSide

structure RebuiltSide where
  image : Image
  symbols : Catalog String Symbol
  /-- The virtual address of the first byte of the file. -/
  segmentOffset : Int

namespace RebuiltSide

def virtualAddress (side : RebuiltSide) (s : Symbol) : Int :=
  s.offset + side.segmentOffset

def addressMap (side : RebuiltSide) : AddressMap :=
  AddressMap.ofSymbols side.segmentOffset side.symbols

end RebuiltSide

end BinMatch
