import BinMatch.X86.Instruction

/-!
# Decoders

An encoding is an instruction apart from the place at which it stands, and a decoder
reads one from the front of some code.  All that is asked of a decoder is that an
encoding is decided by its own bytes, that only the distances of relative branches make
targets, and that a call ends in the four bytes of its distance.  What is shown of
decoded code rests on these laws alone, whichever encodings a decoder knows.
-/

namespace BinMatch.X86

/-- An operand that may depend on where its instruction ends. -/
inductive EncodedOperand where
  | plain (op : RawOperand)
  /-- A target so many bytes behind the end of the instruction. -/
  | ahead (distance : Int)

namespace EncodedOperand

/-- The target is an address of four bytes. -/
def raw (stop : Int) : EncodedOperand → RawOperand
  | .plain op => op
  | .ahead distance => .immediate 4 ((stop + distance) % 0x100000000)

def isAhead : EncodedOperand → Bool
  | .plain _ => false
  | .ahead _ => true

end EncodedOperand

/-- An instruction as encoded, apart from its address. -/
structure Encoding where
  mnemonic : String
  opcode : UInt8
  secondOpcode : UInt8
  modrm : UInt8
  sib : UInt8
  operands : List EncodedOperand

namespace Encoding

def atAddress (e : Encoding) (address : Int) (size : Nat) : RawInstruction :=
  { address
    size
    mnemonic := e.mnemonic
    opcode := e.opcode
    secondOpcode := e.secondOpcode
    modrm := e.modrm
    sib := e.sib
    operands := e.operands.map (·.raw (address + size)) }

/-- The opcode bytes are those of a relative branch, wherever it stands. -/
def isRelativeBranch (e : Encoding) : Bool :=
  (e.atAddress 0 0).isRelativeBranch

/-- The operands encoded as distances are those of relative branches. -/
def Settled (e : Encoding) : Prop :=
  ∀ op ∈ e.operands, op.isAhead = e.isRelativeBranch

end Encoding

/-- A decoder of the first instruction of some code. -/
class Decoder where
  /-- The encoding at the front of the code, and how many bytes it takes. -/
  first : List UInt8 → Option (Encoding × Nat)
  bounds : ∀ {code e n}, first code = some (e, n) → 0 < n ∧ n ≤ code.length
  /-- The bytes behind an instruction have no part in it. -/
  own : ∀ {code e n}, first code = some (e, n) →
    ∀ more, first (code.take n ++ more) = some (e, n)
  settled : ∀ {code e n}, first code = some (e, n) → e.Settled
  /-- A call ends in its distance, and with other bytes there it is a call as well.  A
  call with a shorter distance, such as an operand size prefix could ask for, is not
  provided for. -/
  call : ∀ {bytes e}, first bytes = some (e, bytes.length) → e.opcode = callOpcode →
    ∃ front distance, bytes = front ++ distance ∧ distance.length = 4 ∧
      ∀ distance' : List UInt8, distance'.length = 4 → ∃ d,
        first (front ++ distance') = some ({ e with operands := [.ahead d] }, bytes.length)

/-- The bytes are those of one instruction. -/
def Encodes [Decoder] (bytes : List UInt8) (e : Encoding) : Prop :=
  Decoder.first bytes = some (e, bytes.length)

end BinMatch.X86
