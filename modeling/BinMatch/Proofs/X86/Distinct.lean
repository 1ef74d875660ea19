import BinMatch.Proofs.X86.Place
import Mathlib.Data.List.Forall2

/-!
# Operands told apart by their text

Instructions of one mnemonic that are shown by one line with nothing hidden have the same
operands: the same registers, the same numbers, and memory at the same place, however the
registers stand there.
-/

namespace BinMatch.X86

namespace Instruction

/-! ## Operands -/

section Operands

variable {a b : Instruction} {m m' : Memory} {size size' : Nat}

/-- The size of a memory operand, unless only its address is taken, and its segment. -/
def memoryFront (insn : Instruction) (size : Nat) (m : Memory) : String :=
  (if insn.mnemonic = "lea" then "" else pointerWord size ++ " ptr ") ++
    if m.segment.isEmpty then "" else m.segment ++ ":"

theorem memoryText_eq (opts : LineOptions) (size : Nat) (m : Memory) :
    a.memoryText opts size m =
      memoryFront a size m ++ ("[" ++ a.effectiveAddress opts size m ++ "]") := by
  unfold memoryText memoryFront
  dsimp only
  split <;> simp [String.append_assoc]

theorem not_mem_memoryFront (h : m.Legible) {stop : Char} (hstop : stop = ',' ∨ stop = '[') :
    stop ∉ (memoryFront a size m).toList := by
  have hword : isWordChar stop = false := by rcases hstop with rfl | rfl <;> rfl
  have hliteral : stop ∉ " ptr ".toList ∧ stop ∉ ":".toList := by
    rcases hstop with rfl | rfl <;> decide
  have hsize : stop ∉ (pointerWord size).toList := (word_pointerWord size).not_mem hword
  unfold memoryFront
  apply Text.not_mem_append
  · split
    · simp
    · exact Text.not_mem_append hsize hliteral.1
  · split
    · simp
    · rename_i hsome
      have hname := (word_of_name (h.segment.resolve_left hsome)).not_mem hword
      exact Text.not_mem_append hname hliteral.2

theorem segment_inj
    (h : (if m.segment.isEmpty then "" else m.segment ++ ":") =
      if m'.segment.isEmpty then "" else m'.segment ++ ":") : m.segment = m'.segment := by
  split at h <;> split at h
  · rename_i hnone hnone'
    rw [String.isEmpty_iff.mp hnone, String.isEmpty_iff.mp hnone']
  · simp at h
  · simp at h
  · exact String.append_left_inj _ |>.mp h

theorem memoryFront_inj (hmnemonic : a.mnemonic = b.mnemonic)
    (h : memoryFront a size m = memoryFront b size' m') :
    m.segment = m'.segment ∧ (a.mnemonic ≠ "lea" → size = size') := by
  unfold memoryFront at h
  rw [← hmnemonic] at h
  split at h
  · rename_i hlea
    rw [String.append_right_inj] at h
    exact ⟨segment_inj h, fun hnot => absurd hlea hnot⟩
  · -- The word for the size ends at the first blank.
    rw [String.append_assoc, String.append_assoc] at h
    have hblank : ∀ size, ' ' ∉ (pointerWord size).toList :=
      fun size => (word_pointerWord size).not_mem rfl
    obtain ⟨hword, hsegment⟩ := Text.append_inj_of_stop (hblank size) (hblank size') (by simp)
      (by simp) h
    rw [String.append_right_inj] at hsegment
    exact ⟨segment_inj hsegment, fun _ => pointerWord_injective hword⟩

/-- Memory operands of one text have one segment, one size and one place. -/
theorem memory_of_memoryText_eq (hm : m.Legible) (hm' : m'.Legible)
    (hmnemonic : a.mnemonic = b.mnemonic)
    (h : a.memoryText openly size m = b.memoryText openly size' m') :
    m.segment = m'.segment ∧ (a.mnemonic ≠ "lea" → size = size') ∧ SamePlace a b m m' := by
  rw [memoryText_eq, memoryText_eq] at h
  have hbracket : '[' ∉ (memoryFront a size m).toList := not_mem_memoryFront hm (.inr rfl)
  have hbracket' : '[' ∉ (memoryFront b size' m').toList := not_mem_memoryFront hm' (.inr rfl)
  obtain ⟨hfront, hplace⟩ := Text.append_inj_of_stop hbracket hbracket' (by simp) (by simp) h
  obtain ⟨hsegment, hsize⟩ := memoryFront_inj hmnemonic hfront
  rw [String.append_left_inj, String.append_right_inj] at hplace
  exact ⟨hsegment, hsize, samePlace_of_effectiveAddress_eq hm hm' hplace⟩

/-- What an immediate is shown as, when it is not the target of a call. -/
inductive ShowsNumber : ImmediateRole → Int → String → Prop
  | distance (value : Int) : ShowsNumber .distance value ("$" ++ Text.Hex.delta value)
  | plain {role : ImmediateRole} (value : Int) (nodistance : role ≠ .distance) :
      ShowsNumber role value (Text.Hex.address value)
  | negated {role : ImmediateRole} (value : Int) (nodistance : role ≠ .distance) :
      ShowsNumber role value ("-" ++ Text.Hex.address (-value))

theorem showsNumber_immediateText (names : AddressMap) (size : Nat) (value : Int)
    (role : ImmediateRole) (ha : a.opcode ≠ callOpcode) :
    ShowsNumber role value (a.immediateText openly names size value role) := by
  unfold immediateText
  rw [if_neg ha]
  cases role with
  | distance => exact .distance value
  | farPointer => exact .plain value (by decide)
  | signed | unsigned =>
    dsimp only
    rw [if_neg (by decide)]
    split
    · exact .negated value (by decide)
    · exact .plain value (by decide)

theorem head_address (value : Int) : (Text.Hex.address value).toList.head? = some '0' := by
  simp [Text.Hex.address]

/-- Immediates of one text have one value, and both or neither of them are distances. -/
theorem ShowsNumber.inj {role role' : ImmediateRole} {value value' : Int} {text : String}
    (h : ShowsNumber role value text) (h' : ShowsNumber role' value' text) :
    value = value' ∧ (role = .distance ↔ role' = .distance) := by
  -- A dollar sign, a minus and a zero are what the three kinds of text start with.
  generalize hsame : text = text' at h'
  have hhead := congrArg (·.toList.head?) hsame
  cases h with
  | distance =>
    cases h' with
    | distance =>
      exact ⟨Text.Hex.delta_injective (String.append_right_inj _ |>.mp hsame), Iff.rfl⟩
    | plain => simp [head_address] at hhead
    | negated => simp at hhead
  | plain value hrole =>
    cases h' with
    | distance => simp [head_address] at hhead
    | plain value' hrole' => exact ⟨Text.Hex.address_injective hsame, iff_of_false hrole hrole'⟩
    | negated => simp [head_address] at hhead
  | negated value hrole =>
    cases h' with
    | distance => simp at hhead
    | plain => simp [head_address] at hhead
    | negated value' hrole' =>
      have hvalue := Text.Hex.address_injective (String.append_right_inj _ |>.mp hsame)
      exact ⟨by omega, iff_of_false hrole hrole'⟩

end Operands

end Instruction

/-- The operand is a register, a number or memory, with registers named as registers are. -/
def Operand.Legible : Operand → Prop
  | .register _ name => isRegisterName name = true
  | .immediate _ _ _ => True
  | .memory _ m => m.Legible
  | .other _ => False

instance : DecidablePred Operand.Legible
  | .register _ name => inferInstanceAs (Decidable (isRegisterName name = true))
  | .immediate _ _ _ => inferInstanceAs (Decidable True)
  | .memory _ m => inferInstanceAs (Decidable m.Legible)
  | .other _ => inferInstanceAs (Decidable False)

/-- Operands of one kind that stand for the same. -/
inductive Operand.Alike (a b : Instruction) : Operand → Operand → Prop
  | register (size size' : Nat) (name : String) :
      Alike a b (.register size name) (.register size' name)
  | immediate (size size' : Nat) (value : Int) {role role' : ImmediateRole}
      (distance : role = .distance ↔ role' = .distance) :
      Alike a b (.immediate size value role) (.immediate size' value role')
  | memory {size size' : Nat} {m m' : Memory} (segment : m.segment = m'.segment)
      (sizes : a.mnemonic ≠ "lea" → size = size') (place : Instruction.SamePlace a b m m') :
      Alike a b (.memory size m) (.memory size' m')

namespace Instruction

variable {a b : Instruction} {op op' : Operand} {names names' : AddressMap}

/-! ## Separators -/

section Separators

variable {stop : Char}

theorem not_mem_digits (hstop : stop = ',' ∨ stop = '[') (n : Nat) :
    stop ∉ Text.Hex.digits n := by
  rw [← String.toList_ofList (l := Text.Hex.digits n)]
  exact (word_digits n).not_mem (by rcases hstop with rfl | rfl <;> rfl)

theorem not_mem_address (hstop : stop = ',' ∨ stop = '[') (value : Int) :
    stop ∉ (Text.Hex.address value).toList := by
  have hdigits := not_mem_digits hstop value.natAbs
  unfold Text.Hex.address Text.Hex.signed
  dsimp only
  rcases hstop with rfl | rfl <;> split <;> simp [hdigits]

theorem not_mem_number {role : ImmediateRole} {value : Int} {text : String}
    (h : ShowsNumber role value text) (hstop : stop = ',' ∨ stop = '[') :
    stop ∉ text.toList := by
  cases h with
  | distance =>
    have hdigits := not_mem_digits hstop value.natAbs
    unfold Text.Hex.delta
    rcases hstop with rfl | rfl <;> split <;> simp [hdigits]
  | plain => exact not_mem_address hstop value
  | negated =>
    have haddress := not_mem_address hstop (-value)
    rcases hstop with rfl | rfl <;> simp [haddress]

theorem comma_not_mem_effectiveAddress {size : Nat} {m : Memory} (h : m.Legible) :
    ',' ∉ (a.effectiveAddress openly size m).toList := by
  have hterm : ∀ text ∈ m.terms.map termText, ',' ∉ text.toList := by
    refine List.forall_mem_map.mpr fun t ht => ?_
    have hname : ',' ∉ t.1.toList := (word_of_name (h.name_of_mem_terms t ht)).not_mem rfl
    exact Text.not_mem_append hname (not_mem_scaleText rfl (by decide) t.2)
  have hdisp : ',' ∉ (dispTerm openly size m).toList := by
    cases hdisp : m.hasDisp with
    | false => simp [dispTerm_of_not hdisp]
    | true =>
      have hdigits := not_mem_digits (.inl rfl) m.disp.natAbs
      rw [toList_dispTerm hdisp]
      split <;> simp [hdigits]
  rw [effectiveAddress_eq]
  split
  · split
    · decide
    · exact not_mem_address (.inl rfl) _
  · exact Text.not_mem_append (Text.not_mem_intercalate (by decide) hterm) hdisp

end Separators

/-! ## Texts of operands -/

theorem ShowsNumber.head {role : ImmediateRole} {value : Int} {text : String}
    (h : ShowsNumber role value text) :
    ∃ c, text.toList.head? = some c ∧ c.isLower = false := by
  cases h with
  | distance => exact ⟨'$', by simp, rfl⟩
  | plain => exact ⟨'0', head_address value, rfl⟩
  | negated => exact ⟨'-', by simp, rfl⟩

/-- No letter starts a number. -/
theorem ShowsNumber.not_name {role : ImmediateRole} {value : Int} {name : String}
    (h : ShowsNumber role value name) : isRegisterName name = false := by
  obtain ⟨c, hhead, hc⟩ := h.head
  rw [Bool.eq_false_iff]
  intro hname
  obtain ⟨first, rest, hchars, hfirst, -⟩ := exists_first_of_name hname
  obtain rfl : first = c := by simpa [hchars] using hhead
  rw [hfirst] at hc
  cases hc

theorem bracket_mem_memoryText (insn : Instruction) (size : Nat) (m : Memory) :
    '[' ∈ (insn.memoryText openly size m).toList := by
  simp [memoryText_eq]

/-- What an operand is shown as outside a direct call. -/
inductive Shows (insn : Instruction) : Operand → String → Prop
  | register (size : Nat) {name : String} (isName : isRegisterName name = true) :
      Shows insn (.register size name) name
  | immediate (size : Nat) {value : Int} {role : ImmediateRole} {text : String}
      (isNumber : ShowsNumber role value text) : Shows insn (.immediate size value role) text
  | memory (size : Nat) {m : Memory} (legible : m.Legible) :
      Shows insn (.memory size m) (insn.memoryText openly size m)

theorem shows_operandText (ha : a.opcode ≠ callOpcode) (h : op.Legible) :
    Shows a op (a.operandText openly names op) := by
  cases op with
  | register size name => exact .register size h
  | immediate size value role =>
    exact .immediate size (showsNumber_immediateText names size value role ha)
  | memory size m => exact .memory size h
  | other size => cases h

namespace Shows

variable {text : String}

theorem comma_not_mem (h : Shows a op text) : ',' ∉ text.toList := by
  cases h with
  | register size hname => exact (word_of_name hname).not_mem rfl
  | immediate size hnumber => exact not_mem_number hnumber (.inl rfl)
  | @memory size m hm =>
    have hfront : ',' ∉ (a.memoryFront size m).toList := not_mem_memoryFront hm (.inl rfl)
    have hplace : ',' ∉ (a.effectiveAddress openly size m).toList :=
      comma_not_mem_effectiveAddress hm
    rw [memoryText_eq]
    simp [hfront, hplace]

theorem ne_empty (h : Shows a op text) : text ≠ "" := by
  rintro rfl
  generalize hempty : "" = text at h
  cases h with
  | register size hname => exact ne_empty_of_name hname hempty.symm
  | immediate size hnumber =>
    obtain ⟨c, hhead, -⟩ := hnumber.head
    simp [← hempty] at hhead
  | @memory size m _ =>
    have hbracket := a.bracket_mem_memoryText size m
    simp [← hempty] at hbracket

/-- A letter starts a register, no letter starts a number, and only memory has brackets. -/
theorem alike (hmnemonic : a.mnemonic = b.mnemonic) (h : Shows a op text)
    (h' : Shows b op' text) : Operand.Alike a b op op' := by
  generalize hsame : text = text' at h'
  cases h with
  | register size hname =>
    cases h' with
    | register size' hname' => exact hsame ▸ .register size size' _
    | immediate size' hnumber =>
      exact absurd hname (Bool.eq_false_iff.mp (hsame ▸ hnumber.not_name))
    | @memory size' m' _ =>
      exact absurd (hsame ▸ b.bracket_mem_memoryText size' m') ((word_of_name hname).not_mem rfl)
  | immediate size hnumber =>
    cases h' with
    | register size' hname =>
      exact absurd hname (Bool.eq_false_iff.mp (hsame ▸ hnumber.not_name))
    | immediate size' hnumber' =>
      obtain ⟨rfl, hdistance⟩ := hnumber.inj (hsame ▸ hnumber')
      exact .immediate size size' _ hdistance
    | @memory size' m' _ =>
      exact absurd (hsame ▸ b.bracket_mem_memoryText size' m') (not_mem_number hnumber (.inr rfl))
  | @memory size m hm =>
    cases h' with
    | register size' hname =>
      exact absurd (hsame ▸ a.bracket_mem_memoryText size m) ((word_of_name hname).not_mem rfl)
    | immediate size' hnumber =>
      exact absurd (hsame ▸ a.bracket_mem_memoryText size m) (not_mem_number hnumber (.inr rfl))
    | memory size' hm' =>
      obtain ⟨hsegment, hsizes, hplace⟩ := memory_of_memoryText_eq hm hm' hmnemonic hsame
      exact .memory hsegment hsizes hplace

end Shows

/-! ## Lines -/

theorem operandTexts_eq_of_line_eq (hmnemonic : a.mnemonic = b.mnemonic)
    (h : a.line openly names = b.line openly names') :
    ", ".intercalate (a.operands.map (a.operandText openly names)) =
      ", ".intercalate (b.operands.map (b.operandText openly names')) := by
  have hshown : openly.showAddresses = false := rfl
  unfold line at h
  simp only [hmnemonic, hshown, Bool.false_eq_true, if_false] at h
  split at h <;> split at h
  · rename_i hempty hempty'
    rw [String.isEmpty_iff.mp hempty, String.isEmpty_iff.mp hempty']
  · have hchars := congrArg (·.toList.length) h
    simp at hchars
  · have hchars := congrArg (·.toList.length) h
    simp at hchars
  · exact (String.append_right_inj _).mp h

/-- Instructions of one mnemonic and one line have operands that stand for the same. -/
theorem operands_alike_of_line_eq (hmnemonic : a.mnemonic = b.mnemonic)
    (ha : a.opcode ≠ callOpcode) (hb : b.opcode ≠ callOpcode)
    (hops : ∀ op ∈ a.operands, op.Legible) (hops' : ∀ op ∈ b.operands, op.Legible)
    (h : a.line openly names = b.line openly names') :
    List.Forall₂ (Operand.Alike a b) a.operands b.operands := by
  have hshows : ∀ op ∈ a.operands, Shows a op (a.operandText openly names op) :=
    fun op hop => shows_operandText ha (hops op hop)
  have hshows' : ∀ op ∈ b.operands, Shows b op (b.operandText openly names' op) :=
    fun op hop => shows_operandText hb (hops' op hop)
  -- No text is empty and none has a comma, so that the line can be cut into them again.
  have htexts : a.operands.map (a.operandText openly names) =
      b.operands.map (b.operandText openly names') := by
    have hcut : ", ".toList.head? = some ',' := rfl
    refine Text.intercalate_inj hcut (fun _ ht => And.left ht) (fun _ ht => And.right ht)
      ?_ ?_ (operandTexts_eq_of_line_eq hmnemonic h)
    · exact List.forall_mem_map.mpr fun op hop =>
        ⟨(hshows op hop).comma_not_mem, (hshows op hop).ne_empty⟩
    · exact List.forall_mem_map.mpr fun op hop =>
        ⟨(hshows' op hop).comma_not_mem, (hshows' op hop).ne_empty⟩
  rw [← List.forall₂_eq_eq_eq, List.forall₂_map_left_iff,
    List.forall₂_map_right_iff] at htexts
  have hlength := htexts.length_eq
  refine List.forall₂_iff_get.mpr ⟨hlength, fun i hi hi' => ?_⟩
  exact (hshows _ (List.get_mem _ _)).alike hmnemonic
    (htexts.get hi hi' ▸ hshows' _ (List.get_mem _ _))

/-- One register as the base or as an index that counts once, and one number that was extended
by its sign or was not. -/
theorem operands_alike_of_base_or_index :
    let a : Instruction := ⟨0x1000, 8, "mov", 0xC7, 0,
      [.memory 4 ⟨"fs", "ebx", "", 4, -8, true⟩, .immediate 4 5 .unsigned]⟩
    let b : Instruction := ⟨0x2000, 5, "mov", 0xC6, 0,
      [.memory 4 ⟨"fs", "", "ebx", 1, -8, true⟩, .immediate 1 5 .signed]⟩
    a.line openly Catalog.empty = "mov dword ptr fs:[ebx - 0x8], 0x5" ∧
      b.line openly Catalog.empty = "mov dword ptr fs:[ebx - 0x8], 0x5" ∧
        List.Forall₂ (Operand.Alike a b) a.operands b.operands := by
  intro a b
  have ha : a.line openly Catalog.empty = "mov dword ptr fs:[ebx - 0x8], 0x5" := by
    decide +kernel
  have hb : b.line openly Catalog.empty = "mov dword ptr fs:[ebx - 0x8], 0x5" := by
    decide +kernel
  refine ⟨ha, hb, ?_⟩
  exact operands_alike_of_line_eq rfl (by decide) (by decide) (by decide) (by decide)
    (ha.trans hb.symm)

end Instruction

end BinMatch.X86
