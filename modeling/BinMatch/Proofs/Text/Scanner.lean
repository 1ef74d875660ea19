import BinMatch.Text.Scanner

/-!
# What scanners read

A scanner is known by what it makes of a text that starts as it expects.
-/

namespace BinMatch.Text.Scanner

variable {α β : Type}

theorem run_bind_of_run {s : Scanner α} {f : α → Scanner β} {text rest : List Char} {a : α}
    (h : s.run text = some (a, rest)) : (s >>= f).run text = (f a).run rest := by
  rw [StateT.run_bind, h]
  rfl

theorem run_takeWhile (p : Char → Bool) (text : List Char) :
    (takeWhile p).run text = some (text.takeWhile p, text.dropWhile p) := rfl

theorem run_takeWhile_append {p : Char → Bool} {front rest : List Char}
    (hfront : ∀ c ∈ front, p c = true) (hrest : ∀ c ∈ rest.head?, p c = false) :
    (takeWhile p).run (front ++ rest) = some (front, rest) := by
  have hstop : rest.takeWhile p = [] ∧ rest.dropWhile p = rest := by
    cases rest with
    | nil => exact ⟨rfl, rfl⟩
    | cons c rest =>
      have hc : p c = false := hrest c rfl
      simp [hc]
  rw [run_takeWhile, List.takeWhile_append_of_pos hfront, List.dropWhile_append_of_pos hfront,
    hstop.1, hstop.2, List.append_nil]

theorem run_skipWhile_append {p : Char → Bool} {front rest : List Char}
    (hfront : ∀ c ∈ front, p c = true) (hrest : ∀ c ∈ rest.head?, p c = false) :
    (skipWhile p).run (front ++ rest) = some ((), rest) := by
  rw [skipWhile, run_bind_of_run (run_takeWhile_append hfront hrest)]
  rfl

theorem run_accept (lexeme : String) (rest : List Char) :
    (accept lexeme).run (lexeme.toList ++ rest) = some (true, rest) := by
  have hstarts : (startsWith lexeme).run (lexeme.toList ++ rest) =
      some (true, lexeme.toList ++ rest) := by
    show some (lexeme.toList.isPrefixOf (lexeme.toList ++ rest), lexeme.toList ++ rest) = _
    rw [List.isPrefixOf_iff_prefix.mpr (List.prefix_append _ _)]
  rw [accept, run_bind_of_run hstarts, if_pos rfl]
  show some (true, (lexeme.toList ++ rest).drop lexeme.toList.length) = _
  rw [List.drop_left]

theorem run_accept_of_not {lexeme : String} {text : List Char}
    (h : lexeme.toList.isPrefixOf text = false) :
    (accept lexeme).run text = some (false, text) := by
  have hstarts : (startsWith lexeme).run text = some (false, text) := by
    show some (lexeme.toList.isPrefixOf text, text) = _
    rw [h]
  rw [accept, run_bind_of_run hstarts]
  rfl

theorem run_expect (lexeme : String) (rest : List Char) :
    (expect lexeme).run (lexeme.toList ++ rest) = some ((), rest) := by
  rw [expect, run_bind_of_run (run_accept lexeme rest)]
  rfl

/-! ## Values up to a closing lexeme -/

/-- The values in front of the closing lexeme and the text behind it. -/
def readUntil (closing : String) (s : Scanner α) (text : List Char) :
    Option (List α × List Char) :=
  if closing.toList.isPrefixOf text then some ([], text.drop closing.toList.length)
  else
    match s.run text with
    | none => none
    | some (value, rest) =>
      if rest.length < text.length then
        (readUntil closing s rest).map fun read => (value :: read.1, read.2)
      else none
termination_by text.length

/-- Read the values in front of the closing lexeme, and the lexeme as well. -/
def valuesUntil (closing : String) (s : Scanner α) : Scanner (List α) :=
  readUntil closing s

theorem readUntil_closing (closing : String) (s : Scanner α) (rest : List Char) :
    readUntil closing s (closing.toList ++ rest) = some ([], rest) := by
  rw [readUntil, if_pos (List.isPrefixOf_iff_prefix.mpr (List.prefix_append _ _)),
    List.drop_left]

theorem readUntil_value {closing : String} {s : Scanner α} {text rest : List Char} {value : α}
    (hopen : closing.toList.isPrefixOf text = false) (hread : s.run text = some (value, rest))
    (hlength : rest.length < text.length) :
    readUntil closing s text =
      (readUntil closing s rest).map fun read => (value :: read.1, read.2) := by
  rw [readUntil, if_neg (by rw [hopen]; exact Bool.false_ne_true), hread]
  exact if_pos hlength

theorem follows_flatMap {closing : String} {written : α → List Char}
    {P : List Char → Prop} (hclosing : ∀ rest, P (closing.toList ++ rest))
    (hwritten : ∀ a rest, P (written a ++ rest)) (values : List α) (rest : List Char) :
    P (values.flatMap written ++ (closing.toList ++ rest)) := by
  cases values with
  | nil => exact hclosing rest
  | cons a values =>
    rw [List.flatMap_cons, List.append_assoc]
    exact hwritten a _

/-- Values are read one after the other if each is read from what is written for it, as
long as a value or the closing lexeme comes next. -/
theorem readUntil_flatMap {closing : String} {s : Scanner α} {written : α → List Char}
    {P : List Char → Prop} (hclosing : ∀ rest, P (closing.toList ++ rest))
    (hopen : ∀ a rest, closing.toList.isPrefixOf (written a ++ rest) = false)
    (hwritten : ∀ a rest, P (written a ++ rest)) {values : List α}
    (hread : ∀ a ∈ values, ∀ rest, P rest → s.run (written a ++ rest) = some (a, rest))
    (rest : List Char) :
    readUntil closing s (values.flatMap written ++ (closing.toList ++ rest)) =
      some (values, rest) := by
  induction values with
  | nil => exact readUntil_closing closing s rest
  | cons a values ih =>
    rw [List.forall_mem_cons] at hread
    have hnext := follows_flatMap hclosing hwritten values rest
    have hnonempty : written a ≠ [] := by
      intro hnil
      have hnot := hopen a closing.toList
      rw [hnil, List.nil_append, List.isPrefixOf_iff_prefix.mpr List.prefix_rfl] at hnot
      exact absurd hnot (by decide)
    have hlength := List.length_pos_iff.mpr hnonempty
    have hshorter : (values.flatMap written ++ (closing.toList ++ rest)).length <
        (written a ++ (values.flatMap written ++ (closing.toList ++ rest))).length := by
      simp only [List.length_append]
      omega
    rw [List.flatMap_cons, List.append_assoc,
      readUntil_value (hopen a _) (hread.1 _ hnext) hshorter, ih hread.2]
    rfl

end BinMatch.Text.Scanner
