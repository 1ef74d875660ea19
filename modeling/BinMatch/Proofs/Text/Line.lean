import BinMatch.Text.Notation

/-!
# Lines and texts

A text without lines is the empty text, and a text made of lines is empty only when
there are none.  No line holds a line break, and lines without one are read back from
the text made of them.
-/

namespace BinMatch.Text.Line

theorem splitAfter_eq_nil_iff (read cs : List Char) :
    splitAfter read cs = [] ↔ read = [] ∧ cs = [] := by
  fun_induction splitAfter read cs with
  | case1 => simp_all
  | case2 => simp_all
  | case3 => simp
  | case4 => simp
  | case5 read c rest _ _ ih => simp [ih]

theorem split_eq_nil_iff (text : String) : split text = [] ↔ text = "" := by
  rw [split, List.map_eq_nil_iff, splitAfter_eq_nil_iff, String.toList_eq_nil_iff]
  simp

theorem terminated_cons (line : String) (lines : List String) :
    terminated (line :: lines) = line ++ "\n" ++ terminated lines := by
  simp [terminated, String.join_cons]

theorem terminated_append (lines others : List String) :
    terminated (lines ++ others) = terminated lines ++ terminated others := by
  induction lines with
  | nil => simp [terminated]
  | cons line lines ih =>
    simp only [List.cons_append, terminated_cons, ih, String.append_assoc]

theorem terminated_eq_empty_iff (lines : List String) :
    terminated lines = "" ↔ lines = [] := by
  cases lines with
  | nil => simp [terminated]
  | cons line lines =>
    simp only [terminated_cons, reduceCtorEq, iff_false]
    intro hempty
    have hlength := congrArg String.length hempty
    simp at hlength

theorem isBreak_of_mem_splitAfter {read cs line : List Char}
    (hread : ∀ c ∈ read, isBreak c = false) (hline : line ∈ splitAfter read cs) :
    ∀ c ∈ line, isBreak c = false := by
  fun_induction splitAfter read cs with
  | case1 => simp at hline
  | case2 read _ =>
    rw [List.mem_singleton] at hline
    subst hline
    simpa using hread
  | case3 read rest ih =>
    rcases List.mem_cons.mp hline with rfl | hrest
    · simpa using hread
    · exact ih (by simp) hrest
  | case4 read c rest _ _ ih =>
    rcases List.mem_cons.mp hline with rfl | hrest
    · simpa using hread
    · exact ih (by simp) hrest
  | case5 read c rest _ hbreak ih =>
    exact ih (List.forall_mem_cons.mpr ⟨Bool.eq_false_iff.mpr hbreak, hread⟩) hline

/-- The line has no line break in it. -/
def Unbroken (line : String) : Prop :=
  ∀ c ∈ line.toList, isBreak c = false

instance (line : String) : Decidable (Unbroken line) :=
  List.decidableBAll (fun c => isBreak c = false) line.toList

theorem unbroken_empty : Unbroken "" := by
  decide

theorem unbroken_append {a b : String} (ha : Unbroken a) (hb : Unbroken b) :
    Unbroken (a ++ b) := by
  intro c hc
  rw [String.toList_append, List.mem_append] at hc
  exact hc.elim (ha c) (hb c)

theorem unbroken_append_iff {a b : String} : Unbroken (a ++ b) ↔ Unbroken a ∧ Unbroken b := by
  unfold Unbroken
  rw [String.toList_append, List.forall_mem_append]

theorem isBreak_of_isDigit {c : Char} (h : c.isDigit = true) : isBreak c = false := by
  cases hbreak : isBreak c with
  | false => rfl
  | true =>
    simp only [isBreak, Bool.or_eq_true, decide_eq_true_eq] at hbreak
    rcases hbreak with ((((((((rfl | rfl) | rfl) | rfl) | rfl) | rfl) | rfl) | rfl) | rfl) | rfl <;>
      exact absurd h (by decide)

/-- All bytes of the text are visible ASCII characters or spaces. -/
def isVisible (text : String) : Bool :=
  text.toByteArray.data.toList.all fun b => 32 ≤ b.toNat && b.toNat ≤ 126

theorem bytes_eq_flatMap (text : String) :
    text.toByteArray.data.toList = text.toList.flatMap String.utf8EncodeChar := by
  calc
    _ = (String.ofList text.toList).toByteArray.data.toList := by rw [String.ofList_toList]
    _ = _ := by
      rw [String.toByteArray_ofList]
      simp [List.utf8Encode]

/-- Bytes are looked at in place of characters where many texts have to be checked, since
that takes no decoding. -/
theorem unbroken_of_isVisible {text : String} (h : isVisible text = true) : Unbroken text := by
  intro c hc
  rw [isVisible, bytes_eq_flatMap, List.all_eq_true] at h
  have hbytes : (String.utf8EncodeChar c).all
      (fun b => 32 ≤ b.toNat && b.toNat ≤ 126) = true :=
    List.all_eq_true.mpr fun b hb => h b (List.mem_flatMap.mpr ⟨c, hc, hb⟩)
  cases hbreak : isBreak c with
  | false => rfl
  | true =>
    simp only [isBreak, Bool.or_eq_true, decide_eq_true_eq] at hbreak
    rcases hbreak with ((((((((rfl | rfl) | rfl) | rfl) | rfl) | rfl) | rfl) | rfl) | rfl) | rfl <;>
      exact absurd hbytes (by decide)

theorem unbroken_toString (n : Nat) : Unbroken (toString n) := by
  intro c hc
  rw [Nat.toString_eq_repr, Nat.toList_repr] at hc
  exact isBreak_of_isDigit (Nat.isDigit_of_mem_toDigits (by decide) (by decide) hc)

theorem unbroken_of_mem_split {text line : String} (h : line ∈ split text) :
    Unbroken line := by
  rw [split, List.mem_map] at h
  obtain ⟨cs, hcs, rfl⟩ := h
  rw [Unbroken, String.toList_ofList]
  exact isBreak_of_mem_splitAfter (by simp) hcs

theorem splitAfter_cons {c : Char} (hc : c ≠ '\r') (read rest : List Char) :
    splitAfter read (c :: rest) =
      if isBreak c then read.reverse :: splitAfter [] rest
      else splitAfter (c :: read) rest := by
  rw [splitAfter.eq_def]
  split
  · rename_i h
    simp at h
  · rename_i h
    obtain ⟨rfl, -⟩ := List.cons.inj h
    exact absurd rfl hc
  · rename_i h
    obtain ⟨rfl, rfl⟩ := List.cons.inj h
    rfl

theorem splitAfter_append {line : List Char} (h : ∀ c ∈ line, isBreak c = false)
    (read rest : List Char) :
    splitAfter read (line ++ '\n' :: rest) =
      (line.reverse ++ read).reverse :: splitAfter [] rest := by
  induction line generalizing read with
  | nil => exact splitAfter_cons (by decide) read rest
  | cons c line ih =>
    rw [List.forall_mem_cons] at h
    have hreturn : c ≠ '\r' := by
      rintro rfl
      exact absurd h.1 (by decide)
    rw [List.cons_append, splitAfter_cons hreturn, h.1, if_neg Bool.false_ne_true, ih h.2]
    simp

theorem split_terminated {lines : List String} (h : ∀ line ∈ lines, Unbroken line) :
    split (terminated lines) = lines := by
  have hchars : splitAfter [] (terminated lines).toList = lines.map String.toList := by
    induction lines with
    | nil => rfl
    | cons line lines ih =>
      rw [List.forall_mem_cons] at h
      have htext : (terminated (line :: lines)).toList =
          line.toList ++ '\n' :: (terminated lines).toList := by
        simp [terminated_cons]
      rw [htext, splitAfter_append h.1, ih h.2]
      simp
  rw [split, hchars, List.map_map]
  simp [Function.comp_def]

/-- Lines are read back exactly if none of them is broken. -/
theorem split_terminated_iff {lines : List String} :
    split (terminated lines) = lines ↔ ∀ line ∈ lines, Unbroken line := by
  refine ⟨fun h line hline => ?_, split_terminated⟩
  rw [← h] at hline
  exact unbroken_of_mem_split hline

theorem unbroken_intercalate_iff {separator : String} (hseparator : Unbroken separator)
    {parts : List String} :
    Unbroken (separator.intercalate parts) ↔ ∀ part ∈ parts, Unbroken part := by
  induction parts with
  | nil => simpa using unbroken_empty
  | cons part parts ih =>
    cases parts with
    | nil => simp
    | cons next parts =>
      rw [String.intercalate_cons_cons, unbroken_append_iff, unbroken_append_iff, ih,
        and_iff_left hseparator, List.forall_mem_cons (a := part)]

end BinMatch.Text.Line
