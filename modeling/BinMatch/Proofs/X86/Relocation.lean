import BinMatch.Proofs.Diff.TextDiff
import BinMatch.Proofs.X86.Call

/-!
# Relocated code

Code that was moved, and whose calls lead to the same functions at other addresses,
is shown by the same text.  Two streams of equal length that differ in the distances
of calls only have corresponding instructions, one by one, whatever their addresses,
and the lines of corresponding instructions differ in the label of a call at most.
-/

namespace BinMatch.X86

/-- Byte `i` of the code of the instructions is one of the last four of a call. -/
def InCallDistance : List Instruction → Nat → Prop
  | [], _ => False
  | insn :: insns, i =>
    if i < insn.length then insn.opcode = callOpcode ∧ insn.length ≤ i + 4
    else InCallDistance insns (i - insn.length)

instance decidableInCallDistance :
    ∀ insns i, Decidable (InCallDistance insns i)
  | [], _ => inferInstanceAs (Decidable False)
  | insn :: insns, i =>
    have := decidableInCallDistance insns (i - insn.length)
    inferInstanceAs (Decidable (if i < insn.length then
      insn.opcode = callOpcode ∧ insn.length ≤ i + 4
      else InCallDistance insns (i - insn.length)))

/-- The instructions are the same, apart from where they stand and where they call. -/
structure Corresponds (a b : Instruction) : Prop where
  length : a.length = b.length
  mnemonic : a.mnemonic = b.mnemonic
  opcode : a.opcode = b.opcode
  regField : a.regField = b.regField
  operands : a.opcode ≠ callOpcode → a.operands = b.operands
  call : a.opcode = callOpcode → ∃ d d',
    a.operands = [.immediate 4 d .distance] ∧ b.operands = [.immediate 4 d' .distance]

/-! ## Lines -/

namespace Corresponds

variable {a b : Instruction} {opts : LineOptions} {names names' : AddressMap}

/-- Only the target of a call is taken from the address. -/
theorem operandText_eq (h : Corresponds a b) (hcall : a.opcode ≠ callOpcode)
    (op : Operand) : a.operandText opts names op = b.operandText opts names' op := by
  have hcall' : b.opcode ≠ callOpcode := h.opcode ▸ hcall
  cases op with
  | immediate size value role =>
    simp only [Instruction.operandText, Instruction.immediateText, if_neg hcall,
      if_neg hcall']
  | memory size place =>
    have hindirect : a.isIndirectCall = b.isIndirectCall := by
      rw [Instruction.isIndirectCall, Instruction.isIndirectCall, h.opcode, h.regField]
    rw [Instruction.operandText, Instruction.operandText, Instruction.memoryText,
      Instruction.memoryText, Instruction.effectiveAddress,
      Instruction.effectiveAddress, hindirect, h.mnemonic]
  | _ => rfl

theorem operandTexts_eq (h : Corresponds a b)
    (hlabel : (callTarget? a).map (Instruction.callLabel names) =
      (callTarget? b).map (Instruction.callLabel names')) :
    a.operands.map (a.operandText opts names) =
      b.operands.map (b.operandText opts names') := by
  by_cases hcall : a.opcode = callOpcode
  · have hcall' : b.opcode = callOpcode := h.opcode ▸ hcall
    obtain ⟨d, d', hoperands, hoperands'⟩ := h.call hcall
    simp only [callTarget?, hcall, hcall', hoperands, hoperands', if_true,
      Option.map_some, Option.some.injEq] at hlabel
    simp only [hoperands, hoperands', List.map_cons, List.map_nil,
      Instruction.operandText, Instruction.immediateText, hcall, hcall', if_true,
      hlabel]
  · rw [← h.operands hcall]
    exact List.map_congr_left fun op _ => h.operandText_eq hcall op

theorem line_eq (h : Corresponds a b) (hopts : opts.showAddresses = false)
    (hlabel : (callTarget? a).map (Instruction.callLabel names) =
      (callTarget? b).map (Instruction.callLabel names')) :
    a.line opts names = b.line opts names' := by
  simp only [Instruction.line, hopts, Bool.false_eq_true, if_false, h.mnemonic,
    h.operandTexts_eq hlabel]

end Corresponds

/-! ## Streams -/

/-- The bytes of an instruction in front of the last four of a call are no distance. -/
theorem not_inCallDistance {insn : Instruction} {insns : List Instruction} {i : Nat}
    (hi : i < insn.length) (h : insn.opcode ≠ callOpcode ∨ i + 4 < insn.length) :
    ¬ InCallDistance (insn :: insns) i := by
  rw [InCallDistance, if_pos hi]
  rintro ⟨hcall, hlast⟩
  rcases h with hother | hfront
  · exact hother hcall
  · omega

/-- The second code has the front of the first where that holds no distance. -/
theorem exists_eq_append {front rest code : List UInt8} {insns : List Instruction}
    (h : ∀ i, (front ++ rest)[i]? ≠ code[i]? → InCallDistance insns i)
    (hfront : ∀ i < front.length, ¬ InCallDistance insns i) :
    ∃ rest', code = front ++ rest' := by
  have hprefix : front <+: code := by
    rw [List.prefix_iff_getElem?]
    intro i hi
    have hsame : (front ++ rest)[i]? = code[i]? := by
      by_contra hne
      exact hfront i hi (h i hne)
    rw [← hsame, List.getElem?_append_left hi, List.getElem?_eq_getElem hi]
  obtain ⟨rest', hcode⟩ := hprefix
  exact ⟨rest', hcode.symm⟩

section Step

variable [Decoder] {bytes rest code : List UInt8} {e : Encoding} {insns : List Instruction}
  {address : Int}

/-- A call may have another distance in the other code, but it is a call there too. -/
theorem Encodes.exists_call (he : Encodes bytes e) (hcall : e.opcode = callOpcode)
    (hlength : (bytes ++ rest).length = code.length)
    (h : ∀ i, (bytes ++ rest)[i]? ≠ code[i]? →
      InCallDistance (e.instruction address bytes.length :: insns) i) :
    ∃ bytes' rest' d d', code = bytes' ++ rest' ∧ bytes'.length = bytes.length ∧
      e.operands = [.ahead d] ∧ Encodes bytes' { e with operands := [.ahead d'] } := by
  obtain ⟨d, hoperands⟩ := he.operands_call hcall
  obtain ⟨front, distance, rfl, hdistance, hany⟩ := Decoder.call he hcall
  simp only [List.length_append] at hlength
  obtain ⟨left, rfl⟩ : ∃ left, code = front ++ left := by
    rw [List.append_assoc] at h
    refine exists_eq_append h fun i hi => not_inCallDistance ?_ (.inr ?_) <;>
      simp only [Encoding.instruction, List.length_append] <;> omega
  have htake : (left.take 4).length = 4 := by
    rw [List.length_append] at hlength
    rw [List.length_take]
    omega
  have hsame : (front ++ left.take 4).length = (front ++ distance).length := by
    rw [List.length_append, List.length_append, htake, hdistance]
  obtain ⟨d', hd'⟩ := hany (left.take 4) htake
  rw [← hsame] at hd'
  refine ⟨front ++ left.take 4, left.drop 4, d, d', ?_, hsame, hoperands, hd'⟩
  rw [List.append_assoc, List.take_append_drop]

/-- Whatever the first instruction is, its place is taken by a corresponding one. -/
theorem Encodes.exists_corresponds (he : Encodes bytes e)
    (hlength : (bytes ++ rest).length = code.length)
    (h : ∀ i, (bytes ++ rest)[i]? ≠ code[i]? →
      InCallDistance (e.instruction address bytes.length :: insns) i) :
    ∃ bytes' rest' e', code = bytes' ++ rest' ∧ bytes'.length = bytes.length ∧
      Encodes bytes' e' ∧ ∀ address', Corresponds (e.instruction address bytes.length)
        (e'.instruction address' bytes'.length) := by
  by_cases hcall : e.opcode = callOpcode
  · obtain ⟨bytes', rest', d, d', hcode, hbytes, hoperands, he'⟩ :=
      he.exists_call hcall hlength h
    refine ⟨bytes', rest', _, hcode, hbytes, he', fun address' => ?_⟩
    refine ⟨hbytes.symm, rfl, rfl, rfl, fun hne => absurd hcall hne, fun _ => ?_⟩
    refine ⟨signedWithin 4 d, signedWithin 4 d', ?_, rfl⟩
    rw [Encoding.instruction, hoperands]
    rfl
  · obtain ⟨rest', hcode⟩ :=
      exists_eq_append h fun i hi => not_inCallDistance hi (.inl hcall)
    refine ⟨bytes, rest', e, hcode, rfl, he, fun address' => ?_⟩
    exact ⟨rfl, rfl, rfl, rfl, fun _ => rfl, fun hop => absurd hop hcall⟩

omit [Decoder] in
/-- Behind the first instruction the codes differ in the distances of later calls. -/
theorem inCallDistance_of_rest {insn : Instruction} {bytes' rest' : List UInt8}
    (hinsn : insn.length = bytes.length) (hbytes : bytes'.length = bytes.length)
    (h : ∀ i, (bytes ++ rest)[i]? ≠ (bytes' ++ rest')[i]? →
      InCallDistance (insn :: insns) i)
    (i : Nat) (hi : rest[i]? ≠ rest'[i]?) : InCallDistance insns i := by
  have hin := h (bytes.length + i) (by
    rw [List.getElem?_append_right (by omega), List.getElem?_append_right (by omega),
      hbytes, Nat.add_sub_cancel_left]
    exact hi)
  rwa [InCallDistance, if_neg (by omega), hinsn, Nat.add_sub_cancel_left] at hin

end Step

/-- The instructions of two codes that differ in the distances of calls at most. -/
theorem forall₂_corresponds [Decoder] {code₁ code₂ : List UInt8} {base₁ base₂ : Int}
    (hlength : code₁.length = code₂.length)
    (h : ∀ i, code₁[i]? ≠ code₂[i]? → InCallDistance (decodeAll code₁ base₁) i) :
    List.Forall₂ Corresponds (decodeAll code₁ base₁) (decodeAll code₂ base₂) := by
  induction code₁, base₁ using stream_induction generalizing code₂ base₂ with
  | stuck code₁ base₁ hstuck =>
    -- Without an instruction there is no call to differ in.
    have hcode : code₁ = code₂ := by
      refine List.ext_getElem? fun i => ?_
      by_contra hne
      have hin := h i hne
      rwa [hstuck] at hin
    rw [← hcode, hstuck, hstuck]
    exact .nil
  | step bytes rest e base₁ he ih =>
    rw [decodeAll_append he] at h ⊢
    obtain ⟨bytes', rest', e', rfl, hbytes, he', hcorresponds⟩ :=
      he.exists_corresponds hlength h
    rw [decodeAll_append he']
    refine .cons (hcorresponds _) (ih ?_ (inCallDistance_of_rest rfl hbytes h))
    simp only [List.length_append] at hlength
    omega

/-! ## Texts -/

theorem map_line_eq {opts : LineOptions} (hopts : opts.showAddresses = false)
    {names₁ names₂ : AddressMap} {insns₁ insns₂ : List Instruction}
    (h : List.Forall₂ Corresponds insns₁ insns₂)
    (hlabels : ∀ p ∈ insns₁.zip insns₂,
      (callTarget? p.1).map (Instruction.callLabel names₁) =
        (callTarget? p.2).map (Instruction.callLabel names₂)) :
    insns₁.map (·.line opts names₁) = insns₂.map (·.line opts names₂) := by
  induction h with
  | nil => rfl
  | cons hab _ ih =>
    rw [List.zip_cons_cons, List.forall_mem_cons] at hlabels
    rw [List.map_cons, List.map_cons, hab.line_eq hopts hlabels.1, ih hlabels.2]

/-- Code that calls the same functions after it was moved is shown by the same text. -/
theorem render_relocated [Decoder] {opts : LineOptions} (hopts : opts.showAddresses = false)
    {names₁ names₂ : AddressMap} {code₁ code₂ : List UInt8} {base₁ base₂ : Int}
    {insns₁ insns₂ : List Instruction} (hlength : code₁.length = code₂.length)
    (h₁ : (Disassembly.ofCode code₁ base₁).complete = .ok insns₁)
    (h₂ : (Disassembly.ofCode code₂ base₂).complete = .ok insns₂)
    (hbytes : ∀ i, code₁[i]? ≠ code₂[i]? → InCallDistance insns₁ i)
    (hlabels : ∀ p ∈ insns₁.zip insns₂,
      (callTarget? p.1).map (Instruction.callLabel names₁) =
        (callTarget? p.2).map (Instruction.callLabel names₂))
    (oldName newName : String) :
    insns₁.map (·.length) = insns₂.map (·.length) ∧
      ∃ text, render opts names₁ code₁ base₁ = .ok text ∧
        render opts names₂ code₂ base₂ = .ok text ∧
        (Diff.compareTexts oldName newName text text).isMatch = true ∧
        (Diff.compareTexts oldName newName text text).unified = "" := by
  have hcorresponds : List.Forall₂ Corresponds insns₁ insns₂ := by
    obtain ⟨rfl, -⟩ := complete_eq_ok_iff.mp h₁
    obtain ⟨rfl, -⟩ := complete_eq_ok_iff.mp h₂
    exact forall₂_corresponds hlength hbytes
  constructor
  · rw [← List.forall₂_eq_eq_eq, List.forall₂_map_left_iff, List.forall₂_map_right_iff]
    exact hcorresponds.imp fun _ _ h => h.length
  · refine ⟨_, render_eq_ok_iff.mpr ⟨insns₁, h₁, rfl⟩,
      render_eq_ok_iff.mpr ⟨insns₂, h₂, ?_⟩,
      (Diff.isMatch_compareTexts_iff _ _ _ _).mpr rfl,
      (Diff.unified_compareTexts_iff _ _ _ _).mpr rfl⟩
    rw [map_line_eq hopts hcorresponds hlabels]

/-- A call and a return, moved to another address along with the callee. -/
theorem render_relocated_call :
    let names₁ : AddressMap := .ofDefinitions [⟨"callee", 0x401005, none⟩]
    let names₂ : AddressMap := .ofDefinitions [⟨"callee", 0x0FF6, none⟩]
    let code₁ : List UInt8 := [0xE8, 0x00, 0x00, 0x00, 0x00, 0xC3]
    let code₂ : List UInt8 := [0xE8, 0xF1, 0xFF, 0xFF, 0xFF, 0xC3]
    ∃ text, render {} names₁ code₁ 0x401000 = .ok text ∧
      render {} names₂ code₂ 0x1000 = .ok text := by
  intro names₁ names₂ code₁ code₂
  have hopts : ({} : LineOptions).showAddresses = false := rfl
  have hlength : code₁.length = code₂.length := rfl
  have hchecked :
      code₁.length ≤
          Disassembly.endOf 0x401000 (decodeAll code₁ 0x401000) - 0x401000 ∧
        code₂.length ≤ Disassembly.endOf 0x1000 (decodeAll code₂ 0x1000) - 0x1000 ∧
        (∀ i ∈ [1, 2, 3, 4], InCallDistance (decodeAll code₁ 0x401000) i) ∧
        ∀ p ∈ (decodeAll code₁ 0x401000).zip (decodeAll code₂ 0x1000),
          (callTarget? p.1).map (Instruction.callLabel names₁) =
            (callTarget? p.2).map (Instruction.callLabel names₂) := by
    decide +kernel +zetaReduce
  obtain ⟨hend₁, hend₂, hdistance, hlabels⟩ := hchecked
  have hbytes : ∀ i, code₁[i]? ≠ code₂[i]? →
      InCallDistance (decodeAll code₁ 0x401000) i := by
    intro i hi
    match i with
    | 0 | 5 => exact absurd rfl hi
    | 1 | 2 | 3 | 4 => exact hdistance _ (by simp)
    | i + 6 => exact absurd rfl hi
  have h₁ := complete_eq_ok_iff.mpr ⟨rfl, hend₁⟩
  have h₂ := complete_eq_ok_iff.mpr ⟨rfl, hend₂⟩
  obtain ⟨-, text, hrender₁, hrender₂, -⟩ :=
    render_relocated hopts hlength h₁ h₂ hbytes hlabels "old" "new"
  exact ⟨text, hrender₁, hrender₂⟩

end BinMatch.X86
