import BinMatch.Proofs.Text.Hex
import BinMatch.Proofs.Text.Pieces
import BinMatch.X86.Line
import Mathlib.Algebra.BigOperators.Group.List.Basic
import Mathlib.Algebra.Ring.Int.Defs

/-!
# Memory told apart by its text

The text between the brackets of a memory operand can be read back: which registers are added
and how often, and what is added to them.  Texts that are equal stand for one address, whatever
the registers hold.  Only the pointers of indirect calls are all shown alike.
-/

namespace BinMatch.X86

/-! ## Words -/

section Words

def isNameChar (c : Char) : Bool :=
  c.isLower || c.isDigit || c = '(' || c = ')'

/-- A lowercase letter and then letters, digits and parentheses. -/
def isRegisterName (name : String) : Bool :=
  match name.toList with
  | [] => false
  | first :: rest => first.isLower && rest.all isNameChar

/-- The characters of names and numbers, none of which separates anything. -/
def isWordChar (c : Char) : Bool :=
  c.isAlphanum || c = '(' || c = ')'

def Word (text : String) : Prop :=
  ∀ c ∈ text.toList, isWordChar c = true

instance (text : String) : Decidable (Word text) :=
  List.decidableBAll (fun c => isWordChar c = true) text.toList

variable {text name : String} {stop : Char}

theorem Word.not_mem (h : Word text) (hstop : isWordChar stop = false) :
    stop ∉ text.toList := by
  intro hmem
  rw [h stop hmem] at hstop
  cases hstop

theorem Word.append {a b : String} (ha : Word a) (hb : Word b) : Word (a ++ b) := by
  unfold Word
  rw [String.toList_append]
  exact List.forall_mem_append.mpr ⟨ha, hb⟩

theorem exists_first_of_name (h : isRegisterName name = true) :
    ∃ first rest, name.toList = first :: rest ∧ first.isLower = true ∧
      ∀ c ∈ rest, isNameChar c = true := by
  unfold isRegisterName at h
  cases hchars : name.toList with
  | nil => simp [hchars] at h
  | cons first rest => exact ⟨first, rest, rfl, by simpa [hchars] using h⟩

theorem word_of_name (h : isRegisterName name = true) : Word name := by
  obtain ⟨first, rest, hchars, hfirst, hrest⟩ := exists_first_of_name h
  have hword : ∀ c, isNameChar c = true → isWordChar c = true := by
    intro c hc
    have halphanum : c.isAlphanum = (c.isUpper || c.isLower || c.isDigit) := rfl
    simp only [isNameChar, isWordChar, halphanum, Bool.or_eq_true] at hc ⊢
    tauto
  rw [Word, hchars]
  refine List.forall_mem_cons.mpr ⟨hword first ?_, fun c hc => hword c (hrest c hc)⟩
  simp [isNameChar, hfirst]

theorem ne_empty_of_name (h : isRegisterName name = true) : name ≠ "" := by
  rintro rfl
  cases h

theorem word_digits (n : Nat) : Word (String.ofList (Text.Hex.digits n)) := by
  intro c hc
  rw [String.toList_ofList] at hc
  exact Text.Hex.forall_mem_digits (p := fun c => isWordChar c = true) (by decide) c hc

theorem word_toString (n : Nat) : Word (toString n) := by
  intro c hc
  rw [Nat.toString_eq_repr, Nat.toList_repr] at hc
  have hdigit := Nat.isDigit_of_mem_toDigits (by decide) (by decide) hc
  simp [isWordChar, Char.isAlphanum, hdigit]

theorem word_pointerWord (size : Nat) : Word (pointerWord size) := by
  unfold pointerWord
  split
  case h_9 => exact Word.append (by decide) (word_toString _)
  all_goals decide

end Words

def wordSizes : List Nat := [1, 2, 4, 6, 8, 10, 16, 32]

theorem pointerWord_of_not_mem {size : Nat} (h : size ∉ wordSizes) :
    pointerWord size = "m" ++ toString (8 * size) := by
  unfold pointerWord
  split
  case h_9 => rfl
  all_goals exact absurd (by decide) h

theorem pointerWord_injective : Function.Injective pointerWord := by
  intro size size' h
  have hknown : ∀ n ∈ wordSizes, ∀ n' ∈ wordSizes,
      pointerWord n = pointerWord n' → n = n' := by decide
  have hfirst : ∀ n ∈ wordSizes, (pointerWord n).toList.head? ≠ some 'm' := by decide
  have hnumbered : ∀ n, n ∉ wordSizes → (pointerWord n).toList.head? = some 'm' := by
    intro n hn
    rw [pointerWord_of_not_mem hn, String.toList_append]
    rfl
  by_cases hmem : size ∈ wordSizes
  · by_cases hmem' : size' ∈ wordSizes
    · exact hknown size hmem size' hmem' h
    · exact absurd (h ▸ hnumbered size' hmem') (hfirst size hmem)
  · by_cases hmem' : size' ∈ wordSizes
    · exact absurd (h ▸ hnumbered size hmem) (hfirst size' hmem')
    · rw [pointerWord_of_not_mem hmem, pointerWord_of_not_mem hmem', String.append_right_inj,
        Text.toString_inj] at h
      omega

/-! ## What memory operands stand for -/

namespace Memory

variable {m m' : Memory}

def isAbsolute (m : Memory) : Bool :=
  m.base.isEmpty && m.index.isEmpty

/-- Registers and how often each of them counts. -/
def terms (m : Memory) : List (String × Nat) :=
  (if m.base.isEmpty then [] else [(m.base, 1)]) ++
    if m.index.isEmpty then [] else [(m.index, m.scale)]

/-- A displacement that is not encoded counts only where nothing else is there. -/
def shownDisp (m : Memory) : Int :=
  if m.hasDisp || m.isAbsolute then m.disp else 0

/-- The effective address when the registers have these values. -/
def valueAt (registers : String → Int) (m : Memory) : Int :=
  (if m.base.isEmpty then 0 else registers m.base) +
    (if m.index.isEmpty then 0 else registers m.index * m.scale) + m.shownDisp

theorem valueAt_eq (registers : String → Int) (m : Memory) : m.valueAt registers =
    (m.terms.map fun t => registers t.1 * t.2).sum + m.shownDisp := by
  unfold valueAt terms
  cases m.base.isEmpty <;> cases m.index.isEmpty <;> simp

theorem valueAt_congr (hterms : m.terms = m'.terms) (hdisp : m.shownDisp = m'.shownDisp)
    (registers : String → Int) : m.valueAt registers = m'.valueAt registers := by
  rw [valueAt_eq, valueAt_eq, hterms, hdisp]

theorem terms_eq_nil_iff : m.terms = [] ↔ m.isAbsolute = true := by
  unfold terms isAbsolute
  cases m.base.isEmpty <;> cases m.index.isEmpty <;> simp

theorem terms_ne_nil (h : m.isAbsolute = false) : m.terms ≠ [] := by
  rw [ne_eq, terms_eq_nil_iff, h]
  exact Bool.false_ne_true

/-- Those registers that are there are named as registers are. -/
structure Legible (m : Memory) : Prop where
  segment : m.segment.isEmpty = true ∨ isRegisterName m.segment = true
  base : m.base.isEmpty = true ∨ isRegisterName m.base = true
  index : m.index.isEmpty = true ∨ isRegisterName m.index = true

instance (m : Memory) : Decidable m.Legible :=
  decidable_of_iff
    ((m.segment.isEmpty = true ∨ isRegisterName m.segment = true) ∧
      (m.base.isEmpty = true ∨ isRegisterName m.base = true) ∧
        (m.index.isEmpty = true ∨ isRegisterName m.index = true))
    ⟨fun h => ⟨h.1, h.2.1, h.2.2⟩, fun h => ⟨h.segment, h.base, h.index⟩⟩

theorem Legible.name_of_mem_terms (h : m.Legible) :
    ∀ t ∈ m.terms, isRegisterName t.1 = true := by
  have hbase := h.base
  have hindex := h.index
  unfold terms
  cases hb : m.base.isEmpty <;> cases hi : m.index.isEmpty <;> simp_all

end Memory

/-! ## Effective addresses -/

/-- How often a register counts, when that is not once. -/
def scaleText (scale : Nat) : String :=
  if scale = 1 then "" else "*" ++ toString scale

def termText (t : String × Nat) : String :=
  t.1 ++ scaleText t.2

/-- What a term looks like to one who reads it behind a plus. -/
def IsTerm (text : String) : Prop :=
  ' ' ∉ text.toList ∧ ∃ first rest, text.toList = first :: rest ∧ first.isLower = true

theorem not_mem_scaleText {stop : Char} (hword : isWordChar stop = false) (hstar : stop ≠ '*')
    (scale : Nat) : stop ∉ (scaleText scale).toList := by
  have hdigits := (word_toString scale).not_mem hword
  unfold scaleText
  split
  · simp
  · exact Text.not_mem_append (by simpa using hstar) hdigits

theorem isTerm_termText {t : String × Nat} (h : isRegisterName t.1 = true) :
    IsTerm (termText t) := by
  obtain ⟨first, rest, hchars, hfirst, -⟩ := exists_first_of_name h
  refine ⟨?_, first, rest ++ (scaleText t.2).toList, ?_, hfirst⟩
  · exact Text.not_mem_append ((word_of_name h).not_mem rfl)
      (not_mem_scaleText rfl (by decide) t.2)
  · rw [termText, String.toList_append, hchars, List.cons_append]

theorem termText_inj {t t' : String × Nat} (ht : isRegisterName t.1 = true)
    (ht' : isRegisterName t'.1 = true) (h : termText t = termText t') : t = t' := by
  have hstar : ∀ scale, ∀ c ∈ (scaleText scale).toList.head?, c = '*' := by
    intro scale
    unfold scaleText
    split <;> simp
  obtain ⟨hname, hscale⟩ := Text.append_inj_of_stop ((word_of_name ht).not_mem (by decide))
    ((word_of_name ht').not_mem (by decide)) (hstar t.2) (hstar t'.2) h
  refine Prod.ext hname ?_
  rw [scaleText, scaleText] at hscale
  split at hscale <;> split at hscale
  · omega
  · simp at hscale
  · simp at hscale
  · rwa [String.append_right_inj, Text.toString_inj] at hscale

theorem map_termText_inj {ts ts' : List (String × Nat)}
    (hts : ∀ t ∈ ts, isRegisterName t.1 = true)
    (hts' : ∀ t ∈ ts', isRegisterName t.1 = true)
    (h : ts.map termText = ts'.map termText) : ts = ts' := by
  induction ts generalizing ts' with
  | nil => exact (List.map_eq_nil_iff.mp h.symm).symm
  | cons t ts ih =>
    cases ts' with
    | nil => cases h
    | cons t' ts' =>
      obtain ⟨ht, hts⟩ := List.forall_mem_cons.mp hts
      obtain ⟨ht', hts'⟩ := List.forall_mem_cons.mp hts'
      obtain ⟨hfirst, hrest⟩ := List.cons.inj h
      rw [termText_inj ht ht' hfirst, ih hts hts' hrest]

namespace Instruction

/-- Nothing is hidden, and the lines do not start with addresses. -/
def openly : LineOptions :=
  { showAddresses := false, showDisplacements := true, showImmediates := true }

section EffectiveAddress

variable {a b : Instruction} {m m' : Memory} {size size' : Nat}

theorem registerSum_eq (h : m.isAbsolute = false) :
    registerSum m = " + ".intercalate (m.terms.map termText) := by
  have hscaled : (if m.scale = 1 then m.index else m.index ++ "*" ++ toString m.scale) =
      termText (m.index, m.scale) := by
    unfold termText scaleText
    split
    · exact String.append_empty.symm
    · exact String.append_assoc
  have hplain : termText (m.base, 1) = m.base := String.append_empty
  unfold Memory.isAbsolute at h
  unfold registerSum Memory.terms
  dsimp only
  rw [hscaled]
  cases hbase : m.base.isEmpty <;> cases hindex : m.index.isEmpty
  · simp [hplain, String.intercalate_cons_cons]
  · simp [hplain]
  · simp
  · simp [hbase, hindex] at h

theorem toList_dispTerm (h : m.hasDisp = true) : (dispTerm openly size m).toList =
    ' ' :: (if m.disp < 0 then '-' else '+') :: ' ' :: '0' :: 'x' ::
      Text.Hex.digits m.disp.natAbs := by
  have hnat : ¬ ((m.disp.natAbs : Int) < 0) := by omega
  rw [dispTerm, if_pos h, Text.Hex.address, Text.Hex.signed, if_neg hnat, Int.natAbs_natCast]
  by_cases hsign : m.disp < 0 <;> simp [hsign, openly]

theorem dispTerm_of_not (h : m.hasDisp = false) : dispTerm openly size m = "" := by
  rw [dispTerm, h, if_neg Bool.false_ne_true]

theorem closes_dispTerm (size : Nat) (m : Memory) :
    Text.Closes " + " ' ' IsTerm (dispTerm openly size m) := by
  cases hdisp : m.hasDisp with
  | false =>
    rw [dispTerm_of_not hdisp]
    exact Text.closes_empty (by decide)
  | true =>
    refine ⟨?_, ?_⟩
    · rw [toList_dispTerm hdisp]
      simp
    · -- Behind a plus there is a digit, where a term would have a letter.
      rintro t more ⟨-, first, rest, hchars, hfirst⟩ heq
      have hlists := congrArg String.toList heq
      rw [toList_dispTerm hdisp, String.toList_append, String.toList_append, hchars] at hlists
      simp only [String.reduceToList, List.cons_append, List.nil_append, List.cons.injEq] at hlists
      obtain ⟨-, -, -, rfl, -⟩ := hlists
      cases hfirst

theorem dispTerm_inj (h : dispTerm openly size m = dispTerm openly size' m') :
    (if m.hasDisp then m.disp else 0) = if m'.hasDisp then m'.disp else 0 := by
  have hlists := congrArg String.toList h
  cases hdisp : m.hasDisp with
  | false =>
    cases hdisp' : m'.hasDisp with
    | false => rfl
    | true =>
      rw [dispTerm_of_not hdisp, toList_dispTerm hdisp'] at hlists
      cases hlists
  | true =>
    cases hdisp' : m'.hasDisp with
    | false =>
      rw [dispTerm_of_not hdisp', toList_dispTerm hdisp] at hlists
      cases hlists
    | true =>
      rw [toList_dispTerm hdisp, toList_dispTerm hdisp'] at hlists
      simp only [List.cons.injEq, true_and] at hlists
      have hsize := Text.Hex.digits_injective hlists.2
      have hsign := hlists.1
      split at hsign <;> split at hsign
      · simp only [if_true]
        omega
      · cases hsign
      · cases hsign
      · simp only [if_true]
        omega

theorem effectiveAddress_eq (size : Nat) (m : Memory) : a.effectiveAddress openly size m =
    if m.isAbsolute then
      if a.isIndirectCall then "<indir_fn>" else Text.Hex.address m.disp
    else " + ".intercalate (m.terms.map termText) ++ dispTerm openly size m := by
  unfold effectiveAddress
  split
  · rename_i habsolute
    rw [Memory.isAbsolute, if_pos habsolute]
    rfl
  · rename_i hregisters
    rw [Bool.not_eq_true] at hregisters
    rw [Memory.isAbsolute, hregisters, registerSum_eq hregisters]
    rfl

/-- An absolute address starts with a digit or a bracket, registers with a letter. -/
theorem effectiveAddress_ne_of_absolute (hm : m.isAbsolute = true) (hm' : m'.isAbsolute = false)
    (hlegible : m'.Legible) :
    a.effectiveAddress openly size m ≠ b.effectiveAddress openly size' m' := by
  intro h
  have hletter : ∃ first rest, (b.effectiveAddress openly size' m').toList = first :: rest ∧
      first.isLower = true := by
    obtain ⟨t, ts, hterms⟩ := List.exists_cons_of_ne_nil (Memory.terms_ne_nil hm')
    have hname : isRegisterName t.1 = true :=
      hlegible.name_of_mem_terms t (hterms ▸ List.mem_cons_self)
    obtain ⟨-, first, rest, hchars, hfirst⟩ := isTerm_termText hname
    rw [effectiveAddress_eq, hm', if_neg Bool.false_ne_true, hterms, List.map_cons,
      Text.intercalate_append, String.toList_append, hchars]
    exact ⟨first, _, rfl, hfirst⟩
  obtain ⟨first, rest, hchars, hfirst⟩ := hletter
  rw [← h, effectiveAddress_eq, if_pos hm] at hchars
  split at hchars
  · obtain ⟨rfl, -⟩ := List.cons.inj hchars
    cases hfirst
  · rw [Text.Hex.address, String.toList_append] at hchars
    obtain ⟨rfl, -⟩ := List.cons.inj hchars
    cases hfirst

/-- The same address whatever the registers hold, or two pointers of indirect calls. -/
def SamePlace (a b : Instruction) (m m' : Memory) : Prop :=
  (∀ registers, m.valueAt registers = m'.valueAt registers) ∨
    (m.isAbsolute = true ∧ m'.isAbsolute = true ∧ a.isIndirectCall = true ∧
      b.isIndirectCall = true)

theorem samePlace_of_effectiveAddress_eq (hm : m.Legible) (hm' : m'.Legible)
    (h : a.effectiveAddress openly size m = b.effectiveAddress openly size' m') :
    SamePlace a b m m' := by
  cases habsolute : m.isAbsolute with
  | true =>
    cases habsolute' : m'.isAbsolute with
    | false => exact absurd h (effectiveAddress_ne_of_absolute habsolute habsolute' hm')
    | true =>
      have hmark : ∀ disp, "<indir_fn>" ≠ Text.Hex.address disp := by
        intro disp heq
        have hchars := congrArg String.toList heq
        rw [Text.Hex.address, String.toList_append] at hchars
        cases hchars
      rw [effectiveAddress_eq, effectiveAddress_eq, habsolute, habsolute', if_pos rfl,
        if_pos rfl] at h
      cases hcall : a.isIndirectCall <;> cases hcall' : b.isIndirectCall <;>
        simp only [hcall, hcall', if_true, Bool.false_eq_true, if_false] at h
      · have hdisp : m.shownDisp = m'.shownDisp := by
          simp [Memory.shownDisp, habsolute, habsolute', Text.Hex.address_injective h]
        have hterms : m.terms = m'.terms := by
          rw [Memory.terms_eq_nil_iff.mpr habsolute, Memory.terms_eq_nil_iff.mpr habsolute']
        exact .inl (Memory.valueAt_congr hterms hdisp)
      · exact absurd h.symm (hmark _)
      · exact absurd h (hmark _)
      · exact .inr ⟨habsolute, habsolute', hcall, hcall'⟩
  | false =>
    cases habsolute' : m'.isAbsolute with
    | true => exact absurd h.symm (effectiveAddress_ne_of_absolute habsolute' habsolute hm)
    | false =>
      rw [effectiveAddress_eq, effectiveAddress_eq, habsolute, habsolute',
        if_neg Bool.false_ne_true, if_neg Bool.false_ne_true] at h
      have hterm : ∀ {m : Memory}, m.Legible → ∀ text ∈ m.terms.map termText, IsTerm text :=
        fun hm => List.forall_mem_map.mpr fun t ht => isTerm_termText (hm.name_of_mem_terms t ht)
      have hsome : ∀ {m : Memory}, m.isAbsolute = false → m.terms.map termText ≠ [] :=
        fun hregisters => mt List.map_eq_nil_iff.mp (Memory.terms_ne_nil hregisters)
      obtain ⟨hterms, hdisp⟩ := Text.intercalate_append_inj (by decide) (fun _ ht => ht.1)
        (closes_dispTerm size m) (closes_dispTerm size' m') (hsome habsolute) (hsome habsolute')
        (hterm hm) (hterm hm') h
      refine .inl (Memory.valueAt_congr ?_ ?_)
      · exact map_termText_inj hm.name_of_mem_terms hm'.name_of_mem_terms hterms
      · simpa [Memory.shownDisp, habsolute, habsolute'] using dispTerm_inj hdisp

end EffectiveAddress

end Instruction

end BinMatch.X86
