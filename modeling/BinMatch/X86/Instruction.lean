/-!
# Instructions

A raw instruction is one as it is decoded: operands in order, immediates and
displacements as plain numbers, and the target of a relative branch as an absolute
address; an empty register name stands for no register.  An instruction has its
operands brought to one form: numbers are reduced to the width of their operand, and a
relative branch keeps the distance from the end of the instruction in place of the
target.
-/

namespace BinMatch.X86

/-! ## Raw instructions -/

structure RawMemory where
  segment : String
  base : String
  index : String
  scale : Nat
  disp : Int
  deriving DecidableEq, Repr

inductive RawOperand where
  | register (size : Nat) (name : String)
  | immediate (size : Nat) (value : Int)
  | memory (size : Nat) (place : RawMemory)
  | other (size : Nat)
  deriving DecidableEq, Repr

structure RawInstruction where
  address : Int
  size : Nat
  mnemonic : String
  /-- The first opcode byte behind the prefixes. -/
  opcode : UInt8
  /-- The second opcode byte, zero where there is none. -/
  secondOpcode : UInt8
  /-- The byte that selects registers and addressing, zero where there is none. -/
  modrm : UInt8
  /-- The byte that scales the index register, zero where there is none. -/
  sib : UInt8
  operands : List RawOperand
  deriving DecidableEq, Repr

/-! ## Instructions in one form -/

inductive ImmediateRole where
  /-- Distance from the end of the instruction to the target. -/
  | distance
  | signed
  | unsigned
  /-- Half of a far pointer. -/
  | farPointer
  deriving DecidableEq, Repr

structure Memory where
  segment : String
  base : String
  index : String
  scale : Nat
  disp : Int
  /-- The displacement is part of the text, also when it is zero. -/
  hasDisp : Bool
  deriving DecidableEq, Repr

inductive Operand where
  | register (size : Nat) (name : String)
  | immediate (size : Nat) (value : Int) (role : ImmediateRole)
  | memory (size : Nat) (place : Memory)
  | other (size : Nat)
  deriving DecidableEq, Repr

structure Instruction where
  address : Int
  length : Nat
  mnemonic : String
  /-- The first opcode byte behind the prefixes. -/
  opcode : UInt8
  /-- The register field, which extends the opcode of some instructions. -/
  regField : Nat
  operands : List Operand
  deriving DecidableEq, Repr

/-- The number of `size` bytes in two's complement that is congruent to `v`. -/
def signedWithin (size : Nat) (v : Int) : Int :=
  Int.bmod v (Nat.pow 2 (8 * size))

/-- The natural number of `size` bytes that is congruent to `v`. -/
def unsignedWithin (size : Nat) (v : Int) : Int :=
  v % (Nat.pow 2 (8 * size) : Nat)

def callOpcode : UInt8 := 0xE8

def jumpOpcode : UInt8 := 0xE9

namespace RawInstruction

/-- The immediate is the target of a branch encoded as a distance. -/
def isRelativeBranch (raw : RawInstruction) : Bool :=
  raw.opcode = 0xE8 || raw.opcode = 0xE9 || raw.opcode = 0xEB ||
    (0x70 ≤ raw.opcode && raw.opcode ≤ 0x7F) ||
    (0xE0 ≤ raw.opcode && raw.opcode ≤ 0xE3) ||
    (raw.opcode = 0x0F && 0x80 ≤ raw.secondOpcode && raw.secondOpcode ≤ 0x8F)

/-- One immediate byte is extended by its sign to the operand size. -/
def extendsSign (raw : RawInstruction) : Bool :=
  raw.opcode = 0x6A || raw.opcode = 0x6B || raw.opcode = 0x83

/-- The target is a selector and an offset. -/
def isFarBranch (raw : RawInstruction) : Bool :=
  raw.opcode = 0x9A || raw.opcode = 0xEA

/-- A displacement is encoded, whatever its value. -/
def encodesDisp (raw : RawInstruction) : Bool :=
  let mode := raw.modrm >>> 6
  mode = 1 || mode = 2 ||
    (mode = 0 && raw.modrm &&& 7 = 4 && raw.sib &&& 7 = 5)

def immediateOf (raw : RawInstruction) (size : Nat) (value : Int) : Operand :=
  if raw.isRelativeBranch then
    .immediate size (signedWithin 4 (value - (raw.address + raw.size))) .distance
  else if raw.extendsSign then .immediate size (signedWithin size value) .signed
  else
    .immediate size (unsignedWithin size value)
      (if raw.isFarBranch then .farPointer else .unsigned)

def memoryOf (raw : RawInstruction) (place : RawMemory) : Memory :=
  let disp :=
    if place.base.isEmpty && place.index.isEmpty then
      unsignedWithin 4 place.disp
    else signedWithin 4 place.disp
  { segment := place.segment
    base := place.base
    index := place.index
    scale := if place.scale = 0 then 1 else place.scale
    disp
    hasDisp := disp ≠ 0 || raw.encodesDisp }

/-- The size of an operand; one of unknown size takes four bytes. -/
def knownSize (size : Nat) : Nat :=
  if size = 0 then 4 else size

def operandOf (raw : RawInstruction) : RawOperand → Operand
  | .register size name => .register (knownSize size) name
  | .immediate size value => raw.immediateOf (knownSize size) value
  | .memory size place => .memory (knownSize size) (raw.memoryOf place)
  | .other size => .other (knownSize size)

def toInstruction (raw : RawInstruction) : Instruction :=
  { address := raw.address
    length := raw.size
    mnemonic := raw.mnemonic
    opcode := raw.opcode
    regField := (raw.modrm >>> 3 &&& 7).toNat
    operands := raw.operands.map raw.operandOf }

end RawInstruction

namespace Instruction

/-- The address `distance` bytes behind the end of the instruction, as a number
of four bytes. -/
def target (insn : Instruction) (distance : Int) : Int :=
  unsignedWithin 4 (insn.address + distance + insn.length)

end Instruction

end BinMatch.X86
