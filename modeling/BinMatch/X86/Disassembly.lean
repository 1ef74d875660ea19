import BinMatch.Error
import BinMatch.X86.Decoder

/-!
# Disassembly

Machine code is decoded as one stream, each instruction directly behind the one
before it.  Decoding stops where the decoder finds no instruction; the instructions in
front of that address are kept.  Instructions stand at addresses of 64 bits, which
start again at zero behind the highest one.
-/

namespace BinMatch.X86

def addressCount : Nat := Nat.pow 2 64

section Stream

variable [Decoder]

def decodeFirst (code : List UInt8) (address : Int) : Option RawInstruction :=
  (Decoder.first code).map fun (e, n) => e.atAddress (address % addressCount) n

theorem size_of_decodeFirst {code : List UInt8} {address : Int}
    {raw : RawInstruction} (h : decodeFirst code address = some raw) :
    0 < raw.size ∧ raw.size ≤ code.length := by
  rw [decodeFirst, Option.map_eq_some_iff] at h
  obtain ⟨⟨e, n⟩, hfirst, rfl⟩ := h
  exact Decoder.bounds hfirst

/-- The instructions of `code`, which stands at `address`, as far as it is
decodable. -/
def decodeAll (code : List UInt8) (address : Int) : List Instruction :=
  if code.isEmpty then []
  else
    match _found : decodeFirst code address with
    | none => []
    | some raw =>
      raw.toInstruction :: decodeAll (code.drop raw.size) (address + raw.size)
termination_by code.length
decreasing_by
  have := size_of_decodeFirst _found
  simp only [List.length_drop]
  omega

end Stream

structure Disassembly where
  instructions : List Instruction
  failure : Option Int

namespace Disassembly

/-- The address behind the last instruction, or `address` if there is none. -/
def endOf (address : Int) (instructions : List Instruction) : Int :=
  match instructions.getLast? with
  | none => address
  | some last => last.address + last.length

/-- The disassembly of `code` at `address`.  It stopped short if the address that it
reached lies fewer bytes above `address` than `code` has; with `address` below zero
or a wrap in between this is not the number of bytes decoded. -/
def ofCode [Decoder] (code : List UInt8) (address : Int) : Disassembly :=
  let instructions := decodeAll code address
  let reached := endOf address instructions
  ⟨instructions, if reached - address < code.length then some reached else none⟩

def complete (d : Disassembly) : Except Error (List Instruction) :=
  match d.failure with
  | none => .ok d.instructions
  | some address => .error (.undecodable address)

end Disassembly

end BinMatch.X86
