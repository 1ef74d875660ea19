import Mathlib.Data.List.Basic

/-!
# Texts with separators between them

A text without a certain character can be told from what follows it, when that starts with
the character.  So texts with separators between them can be told from each other, and from
what stands behind the last of them.
-/

namespace BinMatch.Text

theorem toString_inj {m n : Nat} : toString m = toString n ↔ m = n := by
  refine ⟨fun h => ?_, congrArg toString⟩
  have hread := congrArg (fun text => Nat.ofDigitChars 10 text.toList 0) h
  simpa [Nat.toString_eq_repr, Nat.toList_repr] using hread

theorem append_inj_of_stop {stop : Char} {a a' b b' : String} (ha : stop ∉ a.toList)
    (ha' : stop ∉ a'.toList) (hb : ∀ c ∈ b.toList.head?, c = stop)
    (hb' : ∀ c ∈ b'.toList.head?, c = stop) (h : a ++ b = a' ++ b') : a = a' ∧ b = b' := by
  have hfront : ∀ {front back : String}, stop ∉ front.toList →
      (∀ c ∈ back.toList.head?, c = stop) →
      (front ++ back).toList.takeWhile (· ≠ stop) = front.toList := by
    intro front back hfront hback
    have hchars : ∀ c ∈ front.toList, decide (c ≠ stop) = true := by
      intro c hc
      exact decide_eq_true fun heq => hfront (heq ▸ hc)
    rw [String.toList_append, List.takeWhile_append_of_pos hchars]
    cases hchars : back.toList with
    | nil => simp
    | cons c rest => simp [hback c (by simp [hchars])]
  obtain rfl : a = a' := by
    rw [← String.toList_inj, ← hfront ha hb, h, hfront ha' hb']
  exact ⟨rfl, (String.append_right_inj a).mp h⟩

theorem not_mem_append {c : Char} {a b : String} (ha : c ∉ a.toList) (hb : c ∉ b.toList) :
    c ∉ (a ++ b).toList := by
  rw [String.toList_append, List.mem_append, not_or]
  exact ⟨ha, hb⟩

/-- Each text with a separator in front of it, and then the rest. -/
def behind (separator rest : String) : List String → String
  | [] => rest
  | text :: texts => separator ++ text ++ behind separator rest texts

theorem intercalate_append (separator rest text : String) (texts : List String) :
    separator.intercalate (text :: texts) ++ rest = text ++ behind separator rest texts := by
  induction texts generalizing text with
  | nil => rw [String.intercalate_singleton, behind]
  | cons next texts ih =>
    rw [String.intercalate_cons_cons, String.append_assoc, ih, behind, String.append_assoc,
      String.append_assoc]

theorem not_mem_intercalate {separator : String} {stop : Char}
    (hseparator : stop ∉ separator.toList) {texts : List String}
    (h : ∀ t ∈ texts, stop ∉ t.toList) : stop ∉ (separator.intercalate texts).toList := by
  induction texts with
  | nil => simp
  | cons t texts ih =>
    obtain ⟨ht, htexts⟩ := List.forall_mem_cons.mp h
    cases texts with
    | nil => rwa [String.intercalate_singleton]
    | cons next texts =>
      rw [String.intercalate_cons_cons]
      exact not_mem_append (not_mem_append ht hseparator) (ih htexts)

/-- What can stand behind texts between separators: it starts with the stop and is no further
text behind a separator. -/
structure Closes (separator : String) (stop : Char) (text : String → Prop) (rest : String) :
    Prop where
  head : ∀ c ∈ rest.toList.head?, c = stop
  apart : ∀ t more, text t → rest ≠ separator ++ t ++ more

section Separated

variable {separator rest rest' : String} {stop : Char} {text : String → Prop}

theorem closes_empty (h : separator ≠ "") : Closes separator stop text "" where
  head := by simp
  apart := by
    intro t more _ heq
    have hparts := congrArg String.toList heq
    simp at hparts
    exact h hparts.1

theorem head_behind (hseparator : separator.toList.head? = some stop)
    (hrest : Closes separator stop text rest) (texts : List String) :
    ∀ c ∈ (behind separator rest texts).toList.head?, c = stop := by
  cases texts with
  | nil => exact hrest.head
  | cons t texts =>
    obtain ⟨tail, htail⟩ := List.head?_eq_some_iff.mp hseparator
    simp [behind, htail, eq_comm]

theorem behind_inj (hseparator : separator.toList.head? = some stop)
    (hstop : ∀ t, text t → stop ∉ t.toList) (hrest : Closes separator stop text rest)
    (hrest' : Closes separator stop text rest') {texts texts' : List String}
    (htexts : ∀ t ∈ texts, text t) (htexts' : ∀ t ∈ texts', text t)
    (h : behind separator rest texts = behind separator rest' texts') :
    texts = texts' ∧ rest = rest' := by
  induction texts generalizing texts' with
  | nil =>
    cases texts' with
    | nil => exact ⟨rfl, h⟩
    | cons t' texts' => exact absurd h (hrest.apart t' _ (htexts' t' List.mem_cons_self))
  | cons t texts ih =>
    cases texts' with
    | nil => exact absurd h.symm (hrest'.apart t _ (htexts t List.mem_cons_self))
    | cons t' texts' =>
      obtain ⟨ht, hmore⟩ := List.forall_mem_cons.mp htexts
      obtain ⟨ht', hmore'⟩ := List.forall_mem_cons.mp htexts'
      rw [behind, behind, String.append_assoc, String.append_assoc, String.append_right_inj] at h
      obtain ⟨rfl, hbehind⟩ := append_inj_of_stop (hstop t ht) (hstop t' ht')
        (head_behind hseparator hrest texts) (head_behind hseparator hrest' texts') h
      obtain ⟨rfl, hrests⟩ := ih hmore hmore' hbehind
      exact ⟨rfl, hrests⟩

theorem intercalate_append_inj (hseparator : separator.toList.head? = some stop)
    (hstop : ∀ t, text t → stop ∉ t.toList) (hrest : Closes separator stop text rest)
    (hrest' : Closes separator stop text rest') {texts texts' : List String}
    (hsome : texts ≠ []) (hsome' : texts' ≠ [])
    (htexts : ∀ t ∈ texts, text t) (htexts' : ∀ t ∈ texts', text t)
    (h : separator.intercalate texts ++ rest = separator.intercalate texts' ++ rest') :
    texts = texts' ∧ rest = rest' := by
  obtain ⟨t, texts, rfl⟩ := List.exists_cons_of_ne_nil hsome
  obtain ⟨t', texts', rfl⟩ := List.exists_cons_of_ne_nil hsome'
  -- A separator in front of both sides makes them alike from the first text on.
  refine behind_inj hseparator hstop hrest hrest' htexts htexts' ?_
  rw [behind, behind, String.append_assoc, String.append_assoc, ← intercalate_append,
    ← intercalate_append, h]

theorem intercalate_inj (hseparator : separator.toList.head? = some stop)
    (hstop : ∀ t, text t → stop ∉ t.toList) (hsome : ∀ t, text t → t ≠ "")
    {texts texts' : List String}
    (htexts : ∀ t ∈ texts, text t) (htexts' : ∀ t ∈ texts', text t)
    (h : separator.intercalate texts = separator.intercalate texts') : texts = texts' := by
  have hnot : separator ≠ "" := by
    rintro rfl
    cases hseparator
  have hempty : ∀ {texts : List String}, (∀ t ∈ texts, text t) →
      separator.intercalate texts = "" → texts = [] := by
    intro texts htexts hjoined
    cases texts with
    | nil => rfl
    | cons t texts =>
      have happend := intercalate_append separator "" t texts
      rw [String.append_empty, hjoined] at happend
      have hchars := congrArg String.toList happend
      simp at hchars
      exact absurd hchars.1 (hsome t (htexts t List.mem_cons_self))
  by_cases hnil : texts = []
  · subst hnil
    exact (hempty htexts' h.symm).symm
  · by_cases hnil' : texts' = []
    · subst hnil'
      exact absurd (hempty htexts h) hnil
    · have hclosed : Closes separator stop text "" := closes_empty hnot
      refine (intercalate_append_inj hseparator hstop hclosed hclosed hnil hnil' htexts htexts'
        ?_).1
      rw [h]

end Separated

end BinMatch.Text
