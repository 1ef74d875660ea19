import BinMatch.Proofs.X86.Call
import Mathlib.Data.Int.ModEq

/-!
# Numbers of an operand

An instruction is converted to one form without loss: every number of an operand is
replaced by the one number of the operand's width that is congruent to it.  The distance
of a relative branch leads back to the target that it was computed from, whatever the
address, so that a call is shown by the name at its target.
-/

namespace BinMatch.X86

/-! ## Reduction to a width -/

/-- The numbers of `bits` bits in two's complement. -/
def signedRange (bits : Nat) : Set Int := {x | -2 ^ (bits - 1) ≤ x ∧ x < 2 ^ (bits - 1)}

def unsignedRange (bits : Nat) : Set Int := {x | 0 ≤ x ∧ x < 2 ^ bits}

/-- Of the numbers in `range`, `x` is the one that is congruent to `v`. -/
def IsResidue (range : Set Int) (bits : Nat) (v x : Int) : Prop :=
  ∀ y, y = x ↔ y ∈ range ∧ y ≡ v [ZMOD 2 ^ bits]

theorem width_eq_two_mul {bits : Nat} (h : 0 < bits) :
    (Nat.pow 2 bits : Int) = 2 * 2 ^ (bits - 1) := by
  obtain ⟨n, rfl⟩ := Nat.exists_eq_add_of_lt h
  simp only [Nat.zero_add, Nat.add_sub_cancel, Nat.pow_eq, Nat.cast_pow, Nat.cast_ofNat]
  exact pow_succ' 2 n

theorem isResidue_signedWithin {size : Nat} (h : 0 < size) (v : Int) :
    IsResidue (signedRange (8 * size)) (8 * size) v (signedWithin size v) := by
  have hwidth : (Nat.pow 2 (8 * size) : Int) = 2 * 2 ^ (8 * size - 1) :=
    width_eq_two_mul (by omega)
  have hpow : (2 ^ (8 * size) : Int) = Nat.pow 2 (8 * size) := by simp
  have hpos : 0 < Nat.pow 2 (8 * size) := Nat.pow_pos (by decide)
  intro x
  rw [hpow, signedRange, Set.mem_ofPred_eq, signedWithin]
  constructor
  · rintro rfl
    have hlow := Int.le_bmod (x := v) hpos
    have hhigh := Int.bmod_lt (x := v) hpos
    exact ⟨⟨by omega, by omega⟩, Int.bmod_emod⟩
  · rintro ⟨⟨hlow, hhigh⟩, hcongr⟩
    have hfits : Int.bmod x (Nat.pow 2 (8 * size)) = x :=
      Int.bmod_eq_of_le (by omega) (by omega)
    rw [← hfits, Int.bmod_def, Int.bmod_def, hcongr]

theorem isResidue_unsignedWithin (size : Nat) (v : Int) :
    IsResidue (unsignedRange (8 * size)) (8 * size) v (unsignedWithin size v) := by
  have hpow : (2 ^ (8 * size) : Int) = (Nat.pow 2 (8 * size) : Nat) := by simp
  have hpos : 0 < ((Nat.pow 2 (8 * size) : Nat) : Int) :=
    Int.natCast_pos.mpr (Nat.pow_pos (by decide))
  intro x
  rw [unsignedRange, Set.mem_ofPred_eq, hpow, unsignedWithin]
  constructor
  · rintro rfl
    exact ⟨⟨Int.emod_nonneg v hpos.ne', Int.emod_lt_of_pos v hpos⟩, Int.mod_modEq v _⟩
  · rintro ⟨⟨hlow, hhigh⟩, hcongr⟩
    rw [← Int.emod_eq_of_lt hlow hhigh]
    exact hcongr

namespace RawInstruction

variable {raw : RawInstruction}

theorem knownSize_pos (size : Nat) : 0 < knownSize size := by
  unfold knownSize
  split <;> omega

/-! ## Immediates -/

/-- The distance of a relative branch leads from the end of the instruction to its target. -/
theorem operandOf_relative (h : raw.isRelativeBranch = true) (size : Nat) (target : Int) :
    ∃ delta, raw.operandOf (.immediate size target) =
        .immediate (knownSize size) delta .distance ∧
      ∀ d, d = delta ↔
        d ∈ signedRange 32 ∧ raw.address + raw.size + d ≡ target [ZMOD 2 ^ 32] := by
  refine ⟨signedWithin 4 (target - (raw.address + raw.size)), ?_, fun d => ?_⟩
  · rw [operandOf, immediateOf, if_pos h]
  · have hmove : d ≡ target - (raw.address + raw.size) [ZMOD 2 ^ 32] ↔
        raw.address + raw.size + d ≡ target [ZMOD 2 ^ 32] := by
      simp only [Int.ModEq]
      omega
    rw [← hmove]
    exact isResidue_signedWithin (by decide) _ d

theorem isRelativeBranch_of_extendsSign (h : raw.extendsSign = true) :
    raw.isRelativeBranch = false := by
  simp only [extendsSign, Bool.or_eq_true, decide_eq_true_eq] at h
  rcases h with (h | h) | h <;> rw [isRelativeBranch, h] <;> rfl

theorem operandOf_extended (h : raw.extendsSign = true) (size : Nat) (value : Int) :
    ∃ v, raw.operandOf (.immediate size value) = .immediate (knownSize size) v .signed ∧
      IsResidue (signedRange (8 * knownSize size)) (8 * knownSize size) value v := by
  have hrelative := isRelativeBranch_of_extendsSign h
  refine ⟨signedWithin (knownSize size) value, ?_,
    isResidue_signedWithin (knownSize_pos size) _⟩
  rw [operandOf, immediateOf, hrelative, if_neg Bool.false_ne_true, if_pos h]

theorem operandOf_plain (hrelative : raw.isRelativeBranch = false)
    (hextended : raw.extendsSign = false) (size : Nat) (value : Int) :
    ∃ v, raw.operandOf (.immediate size value) =
        .immediate (knownSize size) v (if raw.isFarBranch then .farPointer else .unsigned) ∧
      IsResidue (unsignedRange (8 * knownSize size)) (8 * knownSize size) value v := by
  refine ⟨unsignedWithin (knownSize size) value, ?_, isResidue_unsignedWithin _ _⟩
  rw [operandOf, immediateOf, hrelative, hextended, if_neg Bool.false_ne_true,
    if_neg Bool.false_ne_true]

/-! ## Displacements -/

/-- An address of its own is a natural number, a displacement from registers has a sign. -/
theorem isResidue_disp (raw : RawInstruction) (place : RawMemory) :
    IsResidue
      (if place.base = "" ∧ place.index = "" then unsignedRange 32 else signedRange 32) 32
      place.disp (raw.memoryOf place).disp := by
  have hempty : (place.base.isEmpty && place.index.isEmpty) = true ↔
      place.base = "" ∧ place.index = "" := by
    simp [String.isEmpty_iff]
  by_cases h : place.base = "" ∧ place.index = ""
  · simp only [memoryOf, if_pos h, if_pos (hempty.mpr h)]
    exact isResidue_unsignedWithin 4 place.disp
  · simp only [memoryOf, if_neg h, if_neg (mt hempty.mp h)]
    exact isResidue_signedWithin (by decide) place.disp

theorem hasDisp_of_disp_ne_zero {place : RawMemory} (h : (raw.memoryOf place).disp ≠ 0) :
    (raw.memoryOf place).hasDisp = true := by
  show (decide ((raw.memoryOf place).disp ≠ 0) || raw.encodesDisp) = true
  rw [decide_eq_true h, Bool.true_or]

/-! ## Calls -/

theorem isRelativeBranch_of_call (h : raw.opcode = callOpcode) :
    raw.isRelativeBranch = true := by
  rw [isRelativeBranch, h]
  rfl

/-- Neither the difference nor the sum that undoes it moves the target. -/
theorem target_distance (raw : RawInstruction) (target : Int) :
    raw.toInstruction.target (signedWithin 4 (target - (raw.address + raw.size))) =
      target % 2 ^ 32 := by
  simp only [Instruction.target_signedWithin, toInstruction]
  omega

theorem operandText_call (h : raw.opcode = callOpcode) (size : Nat) (target : Int)
    (opts : LineOptions) (names : AddressMap) :
    raw.toInstruction.operandText opts names (raw.operandOf (.immediate size target)) =
      Instruction.callLabel names (target % 2 ^ 32) := by
  have hcall : raw.toInstruction.opcode = callOpcode := h
  rw [operandOf, immediateOf, if_pos (isRelativeBranch_of_call h), Instruction.operandText,
    Instruction.immediateText, if_pos hcall, target_distance]

theorem callTarget?_toInstruction (h : raw.opcode = callOpcode) {size : Nat} {target : Int}
    {more : List RawOperand} (hoperands : raw.operands = .immediate size target :: more) :
    callTarget? raw.toInstruction = some (target % 2 ^ 32) := by
  have hcall : raw.toInstruction.opcode = callOpcode := h
  have hfirst : raw.toInstruction.operands =
      .immediate (knownSize size) (signedWithin 4 (target - (raw.address + raw.size)))
        .distance :: more.map raw.operandOf := by
    rw [toInstruction, hoperands, List.map_cons, operandOf, immediateOf,
      if_pos (isRelativeBranch_of_call h)]
  rw [callTarget?, if_pos hcall, hfirst]
  exact congrArg some (target_distance raw target)

end RawInstruction

open RawInstruction (knownSize)

/-- Every number of an operand becomes the one number of its width that is congruent to it:
a relative target the distance to it, an extended byte a number with a sign, any other
immediate a natural number.  A call is shown by what stands at its target. -/
theorem operands_keep_residues (raw : RawInstruction) :
    (∀ size value,
      (raw.isRelativeBranch = true →
        ∃ delta, raw.operandOf (.immediate size value) =
            .immediate (knownSize size) delta .distance ∧
          ∀ d, d = delta ↔ d ∈ signedRange 32 ∧
            raw.address + raw.size + d ≡ value [ZMOD 2 ^ 32]) ∧
      (raw.extendsSign = true →
        ∃ v, raw.operandOf (.immediate size value) =
            .immediate (knownSize size) v .signed ∧
          IsResidue (signedRange (8 * knownSize size)) (8 * knownSize size) value v) ∧
      (raw.isRelativeBranch = false → raw.extendsSign = false →
        ∃ v, raw.operandOf (.immediate size value) =
            .immediate (knownSize size) v
              (if raw.isFarBranch then .farPointer else .unsigned) ∧
          IsResidue (unsignedRange (8 * knownSize size)) (8 * knownSize size) value v)) ∧
    (∀ size place, ∃ m, raw.operandOf (.memory size place) = .memory (knownSize size) m ∧
      IsResidue
        (if place.base = "" ∧ place.index = "" then unsignedRange 32 else signedRange 32) 32
        place.disp m.disp ∧
      (m.disp ≠ 0 → m.hasDisp = true)) ∧
    (raw.opcode = callOpcode → ∀ size target,
      (∀ opts names,
        raw.toInstruction.operandText opts names (raw.operandOf (.immediate size target)) =
          match names.get? (target % 2 ^ 32) with
          | some d => Symbol.baseName d.name
          | none => Text.Hex.address (target % 2 ^ 32)) ∧
      ∀ more, raw.operands = .immediate size target :: more →
        callTarget? raw.toInstruction = some (target % 2 ^ 32)) := by
  refine ⟨fun size value => ⟨fun h => ?_, fun h => ?_, fun hrelative hextended => ?_⟩,
    fun size place => ?_, fun hcall size target => ⟨fun opts names => ?_, fun more h => ?_⟩⟩
  · exact RawInstruction.operandOf_relative h size value
  · exact RawInstruction.operandOf_extended h size value
  · exact RawInstruction.operandOf_plain hrelative hextended size value
  · exact ⟨raw.memoryOf place, rfl, raw.isResidue_disp place,
      RawInstruction.hasDisp_of_disp_ne_zero⟩
  · exact RawInstruction.operandText_call hcall size target opts names
  · exact RawInstruction.callTarget?_toInstruction hcall h

/-- A call at the end of the address space: the distance to its target is more than there
are bytes behind it, and the target itself is one too high for four bytes. -/
theorem call_across_address_space :
    let call : RawInstruction := ⟨0xFFFFFFF0, 5, "call", callOpcode, 0, 0, 0,
      [.immediate 4 0x100000010]⟩
    let names : AddressMap := Catalog.empty.put 0x10 ⟨"start(int)", 0x10, none⟩
    call.toInstruction.operands = [.immediate 4 0x1B .distance] ∧
      callTarget? call.toInstruction = some 0x10 ∧
      call.toInstruction.line {} names = "call start" ∧
      call.toInstruction.line {} Catalog.empty = "call 0x10" := by
  intro call names
  have hcall := (operands_keep_residues call).2.2 rfl 4 0x100000010
  exact ⟨by decide, (hcall.2 [] rfl).trans (by decide), by decide +kernel, by decide +kernel⟩

end BinMatch.X86
