import BinMatch.Text.Notation

/-!
# Text behind its entities

Escaped text holds none of the characters that open or close an element or an
attribute, and the text itself can be read back from it.
-/

namespace BinMatch.Text.Entity

/-- The characters that are never written as themselves. -/
def isReserved (c : Char) : Bool :=
  ['&', '<', '>', '"', '\''].contains c

theorem ofChar_of_not_reserved {c : Char} (h : isReserved c = false) : ofChar c = [c] := by
  unfold ofChar
  split <;> first | rfl | exact absurd h (by decide)

/-- The text behind its entities.  A reserved character stands for nothing unless it
starts an entity. -/
def unescape : List Char → Option (List Char)
  | [] => some []
  | '&' :: 'a' :: 'm' :: 'p' :: ';' :: rest => (unescape rest).map ('&' :: ·)
  | '&' :: 'l' :: 't' :: ';' :: rest => (unescape rest).map ('<' :: ·)
  | '&' :: 'g' :: 't' :: ';' :: rest => (unescape rest).map ('>' :: ·)
  | '&' :: 'q' :: 'u' :: 'o' :: 't' :: ';' :: rest => (unescape rest).map ('"' :: ·)
  | '&' :: '#' :: 'x' :: '2' :: '7' :: ';' :: rest => (unescape rest).map ('\'' :: ·)
  | c :: rest => if isReserved c then none else (unescape rest).map (c :: ·)

theorem unescape_cons_of_not_reserved {c : Char} (h : isReserved c = false)
    (rest : List Char) : unescape (c :: rest) = (unescape rest).map (c :: ·) := by
  have hne : c ≠ '&' := by
    rintro rfl
    exact absurd h (by decide)
  rw [unescape.eq_def (c :: rest)]
  split <;> simp_all

theorem eq_of_reserved {c : Char} (h : isReserved c = true) :
    c = '&' ∨ c = '<' ∨ c = '>' ∨ c = '"' ∨ c = '\'' := by
  simpa [isReserved] using h

theorem unescape_ofChar_append (c : Char) (rest : List Char) :
    unescape (ofChar c ++ rest) = (unescape rest).map (c :: ·) := by
  cases h : isReserved c with
  | false =>
    rw [ofChar_of_not_reserved h]
    exact unescape_cons_of_not_reserved h rest
  | true => obtain rfl | rfl | rfl | rfl | rfl := eq_of_reserved h <;> rfl

theorem unescape_flatMap_ofChar (text : List Char) :
    unescape (text.flatMap ofChar) = some text := by
  induction text with
  | nil => rfl
  | cons c text ih =>
    rw [List.flatMap_cons, unescape_ofChar_append, ih]
    rfl

theorem unescape_escape (text : String) : unescape (escape text).toList = some text.toList := by
  rw [escape, String.toList_ofList]
  exact unescape_flatMap_ofChar text.toList

/-- An ampersand is the only reserved character that an entity holds. -/
theorem not_reserved_of_mem_ofChar {c d : Char} (hd : d ∈ ofChar c) (hne : d ≠ '&') :
    isReserved d = false := by
  cases h : isReserved c with
  | false =>
    rw [ofChar_of_not_reserved h, List.mem_singleton] at hd
    rwa [hd]
  | true =>
    have hentity : (ofChar c).all (fun d => d == '&' || !isReserved d) = true := by
      obtain rfl | rfl | rfl | rfl | rfl := eq_of_reserved h <;> decide
    simpa [hne] using List.all_eq_true.mp hentity d hd

theorem not_reserved_of_mem_escape {text : String} {d : Char}
    (hd : d ∈ (escape text).toList) (hne : d ≠ '&') : isReserved d = false := by
  rw [escape, String.toList_ofList] at hd
  obtain ⟨c, -, hc⟩ := List.mem_flatMap.mp hd
  exact not_reserved_of_mem_ofChar hc hne

/-- Entities are written on one line. -/
theorem newline_mem_escape_iff (text : String) :
    '\n' ∈ (escape text).toList ↔ '\n' ∈ text.toList := by
  rw [escape, String.toList_ofList, List.mem_flatMap]
  constructor
  · rintro ⟨c, hc, hnewline⟩
    cases h : isReserved c with
    | false =>
      rw [ofChar_of_not_reserved h, List.mem_singleton] at hnewline
      rwa [hnewline]
    | true =>
      have hentity : '\n' ∉ ofChar c := by
        obtain rfl | rfl | rfl | rfl | rfl := eq_of_reserved h <;> decide
      exact absurd hnewline hentity
  · intro hnewline
    exact ⟨'\n', hnewline, by decide⟩

end BinMatch.Text.Entity
