import BinMatch.Proofs.X86.Disassembly

/-!
# Code that is cut short

No front of an instruction is an instruction, so the first bytes of some code hold the
instructions that lie in them entirely.  They are decoded completely when the cut falls
on a boundary between two instructions; inside an instruction decoding stops at the end of
the one before it.
-/

namespace BinMatch.X86

/-- The instructions that lie in the first `count` bytes. -/
def within : Nat → List Instruction → List Instruction
  | _, [] => []
  | count, insn :: insns =>
    if insn.length ≤ count then insn :: within (count - insn.length) insns else []

/-- Behind `count` bytes ends an instruction, or nothing stands in front. -/
def Boundary (insns : List Instruction) (count : Nat) : Prop :=
  ∃ front back, insns = front ++ back ∧ byteCount front = count

theorem within_isPrefix (count : Nat) (insns : List Instruction) :
    within count insns <+: insns := by
  induction insns generalizing count with
  | nil => exact List.prefix_rfl
  | cons insn insns ih =>
    rw [within]
    split
    · exact List.cons_prefix_cons.mpr ⟨rfl, ih _⟩
    · exact List.nil_prefix

theorem byteCount_within_le (count : Nat) (insns : List Instruction) :
    byteCount (within count insns) ≤ count := by
  induction insns generalizing count with
  | nil => exact Nat.zero_le _
  | cons insn insns ih =>
    rw [within]
    split
    · have := ih (count - insn.length)
      rw [byteCount]
      omega
    · exact Nat.zero_le _

theorem boundary_iff {insns : List Instruction} {count : Nat} :
    Boundary insns count ↔ byteCount (within count insns) = count := by
  constructor
  · rintro ⟨front, back, rfl, rfl⟩
    induction front with
    | nil => exact Nat.le_zero.mp (byteCount_within_le 0 back)
    | cons insn front ih =>
      rw [List.cons_append, within, byteCount, if_pos (Nat.le_add_right _ _),
        Nat.add_sub_cancel_left, byteCount, ih]
  · intro h
    obtain ⟨back, hback⟩ := within_isPrefix count insns
    exact ⟨_, back, hback.symm, h⟩

theorem consecutive_of_isPrefix {front insns : List Instruction} (h : front <+: insns)
    {address : Int} (hinsns : Consecutive address insns) : Consecutive address front := by
  obtain ⟨back, rfl⟩ := h
  induction front generalizing address with
  | nil => trivial
  | cons insn front ih => exact ⟨hinsns.1, ih hinsns.2⟩

/-- Where every instruction is reported behind the bytes in front of it, decoding reaches
the cut exactly at a boundary. -/
theorem endOf_within_lt_iff {insns : List Instruction} {address : Int}
    (h : Consecutive address insns) (count : Nat) :
    Disassembly.endOf address (within count insns) - address < count ↔
      ¬ Boundary insns count := by
  have hend := endOf_eq (consecutive_of_isPrefix (within_isPrefix count insns) h)
  have hle := byteCount_within_le count insns
  rw [boundary_iff, hend]
  omega

/-! ## Decoding the first bytes -/

section Decoding

variable [Decoder]

/-- Code in which nothing is decoded starts with no instruction. -/
theorem stuck_or_encodes (code : List UInt8) :
    (∀ address, decodeAll code address = []) ∨
      ∃ bytes rest e, code = bytes ++ rest ∧ Encodes bytes e := by
  induction code, (0 : Int) using stream_induction with
  | stuck code address hstuck => exact .inl hstuck
  | step bytes rest e address he _ => exact .inr ⟨bytes, rest, e, rfl, he⟩

/-- The first bytes of code that starts with no instruction hold none. -/
theorem decodeAll_take_stuck {code : List UInt8}
    (h : ∀ address, decodeAll code address = []) (count : Nat) (address : Int) :
    decodeAll (code.take count) address = [] := by
  rcases stuck_or_encodes (code.take count) with hnone | ⟨bytes, rest, e, hcode, he⟩
  · exact hnone address
  · have hwhole : code = bytes ++ (rest ++ code.drop count) := by
      rw [← List.append_assoc, ← hcode, List.take_append_drop]
    have hsome := h address
    rw [hwhole, decodeAll_append he] at hsome
    cases hsome

/-- A part of the first instruction is no instruction. -/
theorem decodeAll_take_part {bytes : List UInt8} {e : Encoding} (he : Encodes bytes e)
    {count : Nat} (h : count < bytes.length) (rest : List UInt8) (address : Int) :
    decodeAll ((bytes ++ rest).take count) address = [] := by
  rcases stuck_or_encodes ((bytes ++ rest).take count) with
    hnone | ⟨bytes', rest', e', hcode, he'⟩
  · exact hnone address
  · have hwhole : bytes ++ rest = bytes' ++ (rest' ++ (bytes ++ rest).drop count) := by
      rw [← List.append_assoc, ← hcode, List.take_append_drop]
    have hsame := he.front_unique he' hwhole
    have hlength := congrArg List.length hcode
    rw [List.length_take, List.length_append, List.length_append, ← hsame] at hlength
    omega

theorem decodeAll_take (code : List UInt8) (count : Nat) (address : Int) :
    decodeAll (code.take count) address = within count (decodeAll code address) := by
  induction code, address using stream_induction generalizing count with
  | stuck code address hstuck =>
    rw [hstuck, within, decodeAll_take_stuck hstuck]
  | step bytes rest e address he ih =>
    have hsize : (e.instruction (address % addressCount) bytes.length).length =
        bytes.length := rfl
    rw [decodeAll_append he, within, hsize]
    by_cases hfits : bytes.length ≤ count
    · have htake : (bytes ++ rest).take count = bytes ++ rest.take (count - bytes.length) := by
        rw [List.take_append, List.take_of_length_le hfits]
      rw [if_pos hfits, htake, decodeAll_append he, ih]
    · -- The cut splits the instruction, and no proper part of one decodes.
      rw [if_neg hfits, decodeAll_take_part he (Nat.lt_of_not_le hfits)]

theorem complete_take {code : List UInt8} {count : Nat} (h : count ≤ code.length)
    (address : Int) :
    (Disassembly.ofCode (code.take count) address).complete =
      if Disassembly.endOf address (within count (decodeAll code address)) - address <
          count then
        .error (.undecodable
          (Disassembly.endOf address (within count (decodeAll code address))))
      else .ok (within count (decodeAll code address)) := by
  have hlength : (code.take count).length = count := by
    rw [List.length_take, Nat.min_eq_left h]
  simp only [Disassembly.complete, Disassembly.ofCode, decodeAll_take, hlength]
  by_cases hshort : Disassembly.endOf address (within count (decodeAll code address)) -
      address < count
  · simp only [if_pos hshort]
  · simp only [if_neg hshort]

end Decoding

end BinMatch.X86
