import BinMatch.Proofs.Diff.TextDiff
import BinMatch.X86.Line
import Mathlib.Data.List.Forall2

/-!
# Hidden values

A value that the options hide does not reach a line.  Two streams that differ in
hidden values only are shown by the same lines, so that their difference is a match.
-/

namespace BinMatch.X86

/-- Two operands of an instruction that differ in a value that is not shown. -/
inductive Operand.SameShown (opts : LineOptions) (insn : Instruction) :
    Operand → Operand → Prop
  | same (op : Operand) : SameShown opts insn op op
  /-- The value of an immediate, unless it leads to the target of a branch. -/
  | immediate (size : Nat) (value value' : Int) (role : ImmediateRole)
      (hidden : opts.showImmediates = false) (nocall : insn.opcode ≠ callOpcode)
      (nodistance : role ≠ .distance) :
      SameShown opts insn (.immediate size value role) (.immediate size value' role)
  /-- An absolute address; that of the pointer of an indirect call is never shown. -/
  | address (size : Nat) (m : Memory) (disp : Int) (hasDisp : Bool)
      (hidden : opts.showDisplacements = false ∨ insn.isIndirectCall = true)
      (nobase : m.base = "") (noindex : m.index = "") :
      SameShown opts insn (.memory size m) (.memory size { m with disp, hasDisp })
  /-- A displacement to registers, of which the sign is shown. -/
  | displacement (size : Nat) (m : Memory) (disp : Int)
      (hidden : opts.showDisplacements = false) (sign : m.disp < 0 ↔ disp < 0) :
      SameShown opts insn (.memory size m) (.memory size { m with disp })

/-- Two instructions that differ in values that are not shown. -/
structure Instruction.SameShown (opts : LineOptions) (a b : Instruction) : Prop where
  address : a.address = b.address
  length : a.length = b.length
  mnemonic : a.mnemonic = b.mnemonic
  opcode : a.opcode = b.opcode
  regField : a.regField = b.regField
  operands : List.Forall₂ (Operand.SameShown opts a) a.operands b.operands

variable {opts : LineOptions} {insn a b : Instruction} {op op' : Operand}

theorem Instruction.effectiveAddress_absolute {m : Memory}
    (hidden : opts.showDisplacements = false ∨ insn.isIndirectCall = true)
    (hbase : m.base = "") (hindex : m.index = "") (size : Nat) :
    insn.effectiveAddress opts size m =
      if opts.showDisplacements then "<indir_fn>" else "<indir_addr>" := by
  have habsolute : (m.base.isEmpty && m.index.isEmpty) = true := by
    rw [hbase, hindex]
    rfl
  rw [effectiveAddress, if_pos habsolute]
  rcases hidden with hidden | hcall
  · rw [hidden]
    rfl
  · rw [hcall]
    cases opts.showDisplacements <;> rfl

/-- With displacements hidden the sign of one is all that is read of it. -/
theorem Instruction.effectiveAddress_hidden {size : Nat} {m : Memory} {disp : Int}
    (hidden : opts.showDisplacements = false) (hsign : m.disp < 0 ↔ disp < 0) :
    insn.effectiveAddress opts size m =
      insn.effectiveAddress opts size { m with disp } := by
  simp only [effectiveAddress, dispTerm, registerSum, hidden, hsign, Bool.not_false,
    Bool.false_eq_true, if_true, if_false]

theorem Operand.SameShown.operandText_eq (h : Operand.SameShown opts insn op op')
    (names : AddressMap) :
    insn.operandText opts names op = insn.operandText opts names op' := by
  cases h with
  | same op => rfl
  | immediate size value value' role hidden nocall nodistance =>
    simp only [Instruction.operandText, Instruction.immediateText, if_neg nocall, hidden]
    cases role with
    | distance => exact absurd rfl nodistance
    | _ => rfl
  | address size m disp hasDisp hidden nobase noindex =>
    have hbefore := Instruction.effectiveAddress_absolute hidden nobase noindex size
    have hafter := Instruction.effectiveAddress_absolute
      (m := { m with disp, hasDisp }) hidden nobase noindex size
    rw [Instruction.operandText, Instruction.operandText, Instruction.memoryText,
      Instruction.memoryText, hbefore, hafter]
  | displacement size m disp hidden sign =>
    rw [Instruction.operandText, Instruction.operandText, Instruction.memoryText,
      Instruction.memoryText, Instruction.effectiveAddress_hidden hidden sign]

namespace Instruction.SameShown

/-- An operand's text takes nothing from the other operands. -/
theorem operandText_eq (h : a.SameShown opts b) (names : AddressMap) (op : Operand) :
    a.operandText opts names op = b.operandText opts names op := by
  obtain ⟨address, length, mnemonic, opcode, regField, operands⟩ := a
  obtain ⟨address', length', mnemonic', opcode', regField', operands'⟩ := b
  obtain ⟨rfl, rfl, rfl, rfl, rfl, -⟩ := h
  cases op <;> rfl

theorem operandTexts_eq (h : a.SameShown opts b) (names : AddressMap) :
    a.operands.map (a.operandText opts names) =
      b.operands.map (b.operandText opts names) := by
  rw [← List.forall₂_eq_eq_eq, List.forall₂_map_left_iff, List.forall₂_map_right_iff]
  refine h.operands.imp fun op op' hop => ?_
  rw [hop.operandText_eq names, h.operandText_eq names]

theorem line_eq (h : a.SameShown opts b) (names : AddressMap) :
    a.line opts names = b.line opts names := by
  rw [line, line, h.operandTexts_eq names, h.mnemonic, h.address]

end Instruction.SameShown

/-- Streams that differ in hidden values only have the same lines, and the difference
of their texts is a match. -/
theorem lines_hide_values {insns insns' : List Instruction}
    (h : List.Forall₂ (Instruction.SameShown opts) insns insns') (names : AddressMap)
    (oldName newName : String) :
    insns.map (·.line opts names) = insns'.map (·.line opts names) ∧
      let d := Diff.compareTexts oldName newName
        (Text.Line.terminated (insns.map (·.line opts names)))
        (Text.Line.terminated (insns'.map (·.line opts names)))
      d.isMatch = true ∧ d.unified = "" := by
  have hlines : insns.map (·.line opts names) = insns'.map (·.line opts names) := by
    rw [← List.forall₂_eq_eq_eq, List.forall₂_map_left_iff, List.forall₂_map_right_iff]
    exact h.imp fun _ _ hinsn => hinsn.line_eq names
  refine ⟨hlines, ?_⟩
  rw [hlines]
  exact ⟨(Diff.isMatch_compareTexts_iff _ _ _ _).mpr rfl,
    (Diff.unified_compareTexts_iff _ _ _ _).mpr rfl⟩

/-- A push of another number, a load from another address, a load from another place of
a frame and a call through another pointer. -/
theorem lines_hide_frame_and_pointers :
    let opts : LineOptions := { showDisplacements := false, showImmediates := false }
    let stream (number address place pointer : Int) : List Instruction :=
      [⟨0x1000, 5, "push", 0x68, 0, [.immediate 4 number .unsigned]⟩,
        ⟨0x1005, 5, "mov", 0xA1, 0,
          [.register 4 "eax", .memory 4 ⟨"", "", "", 1, address, address ≠ 0⟩]⟩,
        ⟨0x100A, 3, "mov", 0x8B, 1,
          [.register 4 "ecx", .memory 4 ⟨"", "ebp", "", 1, place, true⟩]⟩,
        ⟨0x100D, 6, "call", 0xFF, 2, [.memory 4 ⟨"", "", "", 1, pointer, true⟩]⟩]
    (stream 1 0 (-4) 0x402000).map (·.line opts Catalog.empty) =
      (stream 0x7FFFFFFF 0x40300C (-0x20) 0x50AB10).map (·.line opts Catalog.empty) := by
  intro opts stream
  have hstream : List.Forall₂ (Instruction.SameShown opts) (stream 1 0 (-4) 0x402000)
      (stream 0x7FFFFFFF 0x40300C (-0x20) 0x50AB10) := by
    refine .cons ⟨rfl, rfl, rfl, rfl, rfl, ?_⟩ (.cons ⟨rfl, rfl, rfl, rfl, rfl, ?_⟩
      (.cons ⟨rfl, rfl, rfl, rfl, rfl, ?_⟩ (.cons ⟨rfl, rfl, rfl, rfl, rfl, ?_⟩ .nil)))
    · exact .cons (.immediate 4 _ _ .unsigned rfl (by decide) (by decide)) .nil
    · exact .cons (.same _) (.cons (.address 4 _ _ _ (.inl rfl) rfl rfl) .nil)
    · exact .cons (.same _) (.cons (.displacement 4 _ _ rfl (by decide)) .nil)
    · exact .cons (.address 4 _ _ _ (.inr rfl) rfl rfl) .nil
  exact (lines_hide_values hstream Catalog.empty "old" "new").1

end BinMatch.X86
