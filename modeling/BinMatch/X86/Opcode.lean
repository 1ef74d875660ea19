/-!
# Opcode rows

A row of the opcode table says which opcode bytes, choosing prefix and ModRM byte
it stands for, which prefixes it admits, how the instruction is named, and how its
operands are encoded.
-/

namespace BinMatch.X86

inductive Width where
  | bytes (n : Nat)
  /-- The operand size: four, or two under the operand-size prefix. -/
  | native
  /-- Twice the operand size. -/
  | nativePair
  deriving DecidableEq, Repr

def Width.size (native : Nat) : Width → Nat
  | .bytes n => n
  | .native => native
  | .nativePair => 2 * native

inductive OperandForm where
  /-- Register or memory selected by the ModRM byte. -/
  | place (width : Width)
  /-- Memory selected by the ModRM byte. -/
  | memory (width : Width)
  /-- General register in the register field. -/
  | register (width : Width)
  /-- Segment register in the register field. -/
  | segment
  /-- General register in the low bits of the opcode. -/
  | opcodeRegister (width : Width)
  /-- The accumulator at the operand size. -/
  | accumulator
  /-- One fixed register. -/
  | fixed (size : Nat) (name : String)
  /-- Immediate of `encoded` bytes for an operand of the given width. -/
  | immediate (encoded width : Width) (signed : Bool)
  /-- The constant one. -/
  | one (width : Width)
  /-- Distance to a branch target in `encoded` bytes. -/
  | distance (encoded : Nat)
  /-- Memory at an address encoded in four bytes. -/
  | absolute (width : Width)
  /-- Four bytes of offset, then two of selector; the selector comes first. -/
  | farPointer
  /-- Memory under the destination index, always in the extra segment. -/
  | destination (width : Width)
  /-- Memory under the source index. -/
  | source (width : Width)
  /-- Vector register in the register field. -/
  | vector
  /-- Vector register, or memory of `size` bytes, selected by the ModRM byte. -/
  | vectorPlace (size : Nat)
  /-- Top of the floating-point stack. -/
  | stackTop
  /-- Floating-point register selected by the ModRM byte. -/
  | stackRegister
  deriving DecidableEq, Repr

/-- The operand is selected by fields of the ModRM byte. -/
def OperandForm.usesModRM : OperandForm → Bool
  | .place _ | .memory _ | .register _ | .segment | .vector | .vectorPlace _
  | .stackRegister => true
  | _ => false

/-- A prefix that takes part in choosing the instruction of an opcode. -/
inductive ChoosingPrefix where
  | operandSize
  | repeatNotEqual
  | repeatEqual
  deriving DecidableEq, Repr

inductive PrefixDemand where
  /-- It stands for its opcode under any of them. -/
  | any
  /-- It asks for none of them. -/
  | absent
  /-- It asks for one of them. -/
  | present (c : ChoosingPrefix)
  deriving DecidableEq, Repr

inductive ModRMPattern where
  | any
  /-- A register field, in either addressing form. -/
  | field (n : Nat)
  /-- Memory form, of the given register field if there is one. -/
  | memory (n : Option Nat)
  /-- Register form, of the given register field if there is one. -/
  | register (n : Option Nat)
  /-- One exact byte. -/
  | exactly (b : UInt8)
  deriving DecidableEq, Repr

namespace ModRMPattern

def regField (modrm : UInt8) : Nat := (modrm >>> 3 &&& 7).toNat

def isRegisterForm (modrm : UInt8) : Bool := modrm >>> 6 = 3

def accepts (modrm : UInt8) : ModRMPattern → Bool
  | .any => true
  | .field n => regField modrm = n
  | .memory n => !isRegisterForm modrm && n.all (regField modrm = ·)
  | .register n => isRegisterForm modrm && n.all (regField modrm = ·)
  | .exactly b => modrm = b

end ModRMPattern

/-- The instructions that show prefixes in their names, by the words that they
show. -/
inductive NameFamily where
  | plain
  /-- A string instruction that repeats by count. -/
  | string
  /-- A string instruction that repeats while what it compares stays equal, or
  differs. -/
  | stringComparison
  | conditionalJump
  /-- A call or jump, whose target may be exempt from tracking. -/
  | branch
  | nearReturn
  | farReturn
  /-- An exchange, which locks its memory on its own. -/
  | exchange
  deriving DecidableEq, Repr

inductive Locking where
  | never
  /-- Those that select memory by the ModRM byte. -/
  | memory
  /-- Of those the ones at the full operand size. -/
  | wideMemory
  deriving DecidableEq, Repr

structure OpcodeRow where
  demand : PrefixDemand
  /-- The opcode is the byte behind `0F`. -/
  extended : Bool
  opcode : UInt8
  pattern : ModRMPattern
  mnemonic : String
  /-- The name under the operand-size prefix, unless the instruction refuses that
  prefix. -/
  narrowMnemonic : Option String
  family : NameFamily
  locking : Locking
  operands : List OperandForm
  deriving DecidableEq, Repr

namespace OpcodeRow

def usesModRM (row : OpcodeRow) : Bool :=
  row.pattern ≠ .any || row.operands.any (·.usesModRM)

/-- Memory-only operands refuse the register form. -/
def acceptsModRM (row : OpcodeRow) (modrm : UInt8) : Bool :=
  row.pattern.accepts modrm &&
    (!ModRMPattern.isRegisterForm modrm ||
      !row.operands.any fun form => match form with
        | .memory _ => true
        | _ => false)

end OpcodeRow

end BinMatch.X86
