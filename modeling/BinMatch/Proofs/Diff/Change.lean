import BinMatch.Comparison
import BinMatch.Proofs.Diff.TextDiff

/-!
# Changes

A change is a longest run of rows of which none is kept.  Lists are set apart only where
they have no element in common, and between two such places stands a row that is kept.
So a change deletes first and inserts then, and it inserts nothing that it deletes.
-/

namespace BinMatch.Diff

/-! ## Where nothing is common -/

section Apart

variable {α : Type} [DecidableEq α] {old new : List α}

/-- An element of both lists is a run of its own. -/
theorem exists_commonRun_pos {x : α} (hold : x ∈ old) (hnew : x ∈ new) :
    ∃ i j, 0 < commonRun (fun _ => true) (old.drop i) (new.drop j) := by
  obtain ⟨i, hi, rfl⟩ := List.mem_iff_getElem.mp hold
  obtain ⟨j, hj, hsame⟩ := List.mem_iff_getElem.mp hnew
  refine ⟨i, j, ?_⟩
  rw [List.drop_eq_getElem_cons hi, List.drop_eq_getElem_cons hj, hsame, commonRun]
  simp

theorem size_scan_le (eligible : α → Bool) (old new : List α) :
    (scan eligible old new).2.size ≤ (longestBlock eligible old new).size := by
  simp only [longestBlock, Block.widen]
  omega

/-- The search ends without a block only if there is nothing to find. -/
theorem not_mem_of_longestBlock_size_eq_zero
    (h : (longestBlock (fun _ => true) old new).size = 0) {x : α} (hold : x ∈ old) :
    x ∉ new := by
  intro hnew
  obtain ⟨i, j, hrun⟩ := exists_commonRun_pos hold hnew
  have hlongest := (firstLongest_scan (fun _ => true) old new).longest i j
  have hsize := size_scan_le (fun _ => true) old new
  omega

end Apart

/-! ## Runs of changed rows -/

section Runs

variable {α : Type}

/-- The rows `run` are changed ones, and no row beside them is. -/
structure IsChange (rows front run back : List (Edit α)) : Prop where
  rows_eq : rows = front ++ (run ++ back)
  nonempty : run ≠ []
  changed : ∀ row ∈ run, row.isKeep = false
  keepBefore : ∀ row ∈ front.getLast?, row.isKeep = true
  keepBehind : ∀ row ∈ back.head?, row.isKeep = true

/-- The rows delete some elements and then insert others. -/
def Replaces (run : List (Edit α)) : Prop :=
  ∃ deleted inserted : List α,
    run = deleted.map .delete ++ inserted.map .insert ∧ ∀ x ∈ deleted, x ∉ inserted

namespace IsChange

variable {rows left right front run back : List (Edit α)}

theorem rows_ne_nil (h : IsChange rows front run back) : rows ≠ [] := by
  rw [h.rows_eq]
  simp [h.nonempty]

/-- A run that starts with a kept row is no change. -/
theorem not_cons_keep {x : α} {more : List (Edit α)} (h : IsChange rows front run back) :
    run ≠ .keep x :: more := by
  rintro rfl
  exact Bool.noConfusion (h.changed (.keep x) (by simp))

/-- Of changed rows alone there is one change, all of them. -/
theorem eq_rows (h : IsChange rows front run back) (hrows : ∀ row ∈ rows, row.isKeep = false) :
    run = rows := by
  have hfront : front = [] := by
    rw [← List.getLast?_eq_none_iff, Option.eq_none_iff_forall_not_mem]
    intro row hrow
    have hkeep := h.keepBefore row hrow
    have hchanged := hrows row (by simp [h.rows_eq, List.mem_of_getLast? hrow])
    simp [hkeep] at hchanged
  have hback : back = [] := by
    rw [← List.head?_eq_none_iff, Option.eq_none_iff_forall_not_mem]
    intro row hrow
    have hkeep := h.keepBehind row hrow
    have hchanged := hrows row (by simp [h.rows_eq, List.mem_of_head? hrow])
    simp [hkeep] at hchanged
  rw [h.rows_eq, hfront, hback, List.nil_append, List.append_nil]

/-- A kept row parts the changes: each lies on one side of it. -/
theorem of_append_keep {x : α} (h : IsChange (left ++ .keep x :: right) front run back) :
    (∃ back', IsChange left front run back') ∨ ∃ front', IsChange right front' run back := by
  rcases List.append_eq_append_iff.mp h.rows_eq with
    ⟨gap, hfront, hrest⟩ | ⟨gap, hleft, hrest⟩
  · -- The front reaches over the left part, so it holds the kept row or ends before it.
    cases gap with
    | nil =>
      obtain ⟨row, run', rfl⟩ := List.exists_cons_of_ne_nil h.nonempty
      obtain ⟨rfl, -⟩ := List.cons.inj hrest
      exact absurd rfl h.not_cons_keep
    | cons row front' =>
      obtain ⟨rfl, hright⟩ := List.cons.inj hrest
      refine .inr ⟨front', hright, h.nonempty, h.changed, fun last hlast => ?_, h.keepBehind⟩
      apply h.keepBefore last
      rw [hfront, List.getLast?_append, List.getLast?_cons, Option.mem_def.mp hlast]
      rfl
  · rcases List.append_eq_append_iff.mp hrest with
      ⟨back', hgap, hback⟩ | ⟨run', hrun, hkept⟩
    · refine .inl ⟨back', hgap ▸ hleft, h.nonempty, h.changed, h.keepBefore,
        fun first hfirst => ?_⟩
      apply h.keepBehind first
      rw [hback, List.head?_append, Option.mem_def.mp hfirst]
      rfl
    · cases run' with
      | nil =>
        rw [List.append_nil] at hrun
        subst hrun
        exact .inl ⟨[], by simpa using hleft, h.nonempty, h.changed, h.keepBefore, by simp⟩
      | cons row run' =>
        obtain ⟨rfl, -⟩ := List.cons.inj hkept
        have hchanged := h.changed (.keep x) (by simp [hrun])
        simp [Edit.isKeep] at hchanged

theorem of_append_keeps {x : α} {common : List α}
    (h : IsChange (left ++ ((x :: common).map .keep ++ right)) front run back) :
    (∃ back', IsChange left front run back') ∨ ∃ front', IsChange right front' run back := by
  induction common generalizing left front x with
  | nil => exact h.of_append_keep
  | cons y common ih =>
    rcases h.of_append_keep with hleft | ⟨front', hright⟩
    · exact .inl hleft
    · have hright : IsChange ([] ++ ((y :: common).map .keep ++ right)) front' run back := hright
      rcases ih hright with ⟨back', hnone⟩ | hright
      · exact absurd rfl hnone.rows_ne_nil
      · exact .inr hright

end IsChange

end Runs

/-! ## Changes of an alignment -/

/-- By induction on the alignment: a change lies in one of the parts set apart, and there
it is the whole part. -/
theorem replaces_of_isChange_align {α : Type} [DecidableEq α] (old new : List α)
    {run : List (Edit α)} :
    ∀ front back, IsChange (align (fun _ => true) old new).rows front run back →
      Replaces run := by
  fun_induction align (fun _ => true) old new with
  | case1 old new block hsize =>
    intro front back h
    have hrun : run = old.map .delete ++ new.map .insert := by
      refine h.eq_rows fun row hrow => ?_
      simp only [Alignment.rows, List.mem_append, List.mem_map] at hrow
      rcases hrow with ⟨x, -, rfl⟩ | ⟨x, -, rfl⟩ <;> rfl
    exact ⟨old, new, hrun, fun x hx => not_mem_of_longestBlock_size_eq_zero hsize hx⟩
  | case2 old new block hsize ihb iha =>
    intro front back h
    have hle : block.inOld + block.size ≤ old.length :=
      (longestBlock_le (fun _ => true) old new).1
    have hlength : ((old.drop block.inOld).take block.size).length = block.size := by
      rw [List.length_take, List.length_drop]
      omega
    obtain ⟨x, common, hcommon⟩ : ∃ x common,
        (old.drop block.inOld).take block.size = x :: common := by
      apply List.exists_cons_of_length_pos
      omega
    rw [Alignment.rows, hcommon, List.append_assoc] at h
    rcases h.of_append_keeps with ⟨back', hbefore⟩ | ⟨front', hafter⟩
    · exact ihb front back' hbefore
    · exact iha front' back hafter

/-- Every change between two texts takes out lines and then puts in others, none of which
it has taken out. -/
theorem changes_replace_lines (oldName newName oldText newText : String)
    {front run back : List (Edit String)}
    (h : IsChange (compareTexts oldName newName oldText newText).rows front run back) :
    ∃ deleted inserted : List String,
      run = deleted.map .delete ++ inserted.map .insert ∧
        ∀ line ∈ deleted, line ∉ inserted :=
  replaces_of_isChange_align _ _ front back h

/-- A line that is inserted in front of a kept one may be deleted behind it. -/
theorem change_behind_kept_line :
    let d := compareTexts referenceListingName rebuiltListingName
      (Text.Line.terminated ["push ebp", "nop", "ret"])
      (Text.Line.terminated ["nop", "push ebp", "leave", "ret"])
    let run : List (Edit String) := [.delete "nop", .insert "leave"]
    IsChange d.rows [.insert "nop", .keep "push ebp"] run [.keep "ret"] ∧
      ∃ deleted inserted : List String,
        run = deleted.map .delete ++ inserted.map .insert ∧
          ∀ line ∈ deleted, line ∉ inserted := by
  intro d run
  have hold : Text.Line.split (Text.Line.terminated ["push ebp", "nop", "ret"]) =
      ["push ebp", "nop", "ret"] := Text.Line.split_terminated (by decide)
  have hnew : Text.Line.split (Text.Line.terminated ["nop", "push ebp", "leave", "ret"]) =
      ["nop", "push ebp", "leave", "ret"] := Text.Line.split_terminated (by decide)
  have hrows : d.rows =
      [.insert "nop", .keep "push ebp", .delete "nop", .insert "leave", .keep "ret"] := by
    show (align (fun _ => true) _ _).rows = _
    rw [hold, hnew]
    decide +kernel
  have hchange : IsChange d.rows [.insert "nop", .keep "push ebp"] run [.keep "ret"] := by
    refine ⟨hrows, by decide, by decide, ?_, ?_⟩ <;> simp [Edit.isKeep]
  exact ⟨hchange, changes_replace_lines _ _ _ _ hchange⟩

end BinMatch.Diff
