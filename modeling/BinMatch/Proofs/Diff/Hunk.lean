import BinMatch.Diff.Hunk
import BinMatch.Proofs.Text.Line

/-!
# Hunks and changes

Hunks are there exactly when some row is a change, and a unified diff has text
exactly when it has hunks.  `Covers` says what hunks show of the rows without
reference to how they are found.
-/

namespace BinMatch.Diff

variable {α : Type}

/-- Every change is shown, however many rows were pending before it. -/
theorem shown_of_change (pending : Nat) {rows : List (Edit α)} {row : Edit α}
    (hmem : row ∈ rows) (hchange : row.isKeep = false) :
    ∃ r ∈ marked pending rows, r.1 = true := by
  induction rows generalizing pending with
  | nil => simp at hmem
  | cons head rest ih =>
    by_cases hhead : head.isKeep = true
    · have hrest : row ∈ rest := by
        rcases List.mem_cons.mp hmem with h | h
        · rw [h, hhead] at hchange
          simp at hchange
        · exact h
      obtain ⟨r, hr, hshown⟩ := ih (pending - 1) hrest
      refine ⟨r, ?_, hshown⟩
      rw [marked, if_pos hhead]
      exact List.mem_cons_of_mem _ hr
    · refine ⟨(true, head), ?_, rfl⟩
      rw [marked, if_neg hhead]
      exact List.mem_cons_self

/-- With no change around and none pending, no row is shown. -/
theorem hidden_of_keeps {rows : List (Edit α)}
    (h : ∀ row ∈ rows, row.isKeep = true) : ∀ r ∈ marked 0 rows, r.1 = false := by
  induction rows with
  | nil => simp [marked]
  | cons head rest ih =>
    have hrest : ∀ row ∈ rest, row.isKeep = true := fun row hrow => h row (by simp [hrow])
    have hnear : (rest.take contextSize).any (fun r => !r.isKeep) = false := by
      rw [List.any_eq_false]
      intro r hr
      simp [hrest r (List.mem_of_mem_take hr)]
    intro r hr
    rw [marked, if_pos (h head (by simp)), hnear, List.mem_cons] at hr
    rcases hr with hr | hr
    · rw [hr]
      rfl
    · exact ih hrest r hr

theorem gather_eq_nil_iff (old new : Nat) (rows : List (Bool × Edit α)) :
    gather old new rows = [] ↔ ∀ r ∈ rows, r.1 = false := by
  fun_induction gather old new rows with
  | case1 => simp
  | case2 old new row rest ih => simpa using ih
  | case3 old new row rest body ih => simp

theorem hunks_eq_nil_iff (rows : List (Edit α)) :
    hunks rows = [] ↔ ∀ row ∈ rows, row.isKeep = true := by
  rw [hunks, gather_eq_nil_iff]
  constructor
  · intro h row hrow
    cases hkeep : row.isKeep with
    | true => rfl
    | false =>
      obtain ⟨r, hr, hshown⟩ := shown_of_change 0 hrow hkeep
      rw [h r hr] at hshown
      simp at hshown
  · exact hidden_of_keeps

theorem unifiedText_eq_empty_iff (oldName newName : String)
    (hs : List (Hunk String)) : unifiedText oldName newName hs = "" ↔ hs = [] := by
  cases hs with
  | nil => simp [unifiedText]
  | cons h hs => simp [unifiedText, Text.Line.terminated_eq_empty_iff]

/-! ## What hunks cover -/

theorem oldLength_append (rows rows' : List (Edit α)) :
    oldLength (rows ++ rows') = oldLength rows + oldLength rows' := by
  simp [oldLength]

theorem newLength_append (rows rows' : List (Edit α)) :
    newLength (rows ++ rows') = newLength rows + newLength rows' := by
  simp [newLength]

@[simp] theorem lengths_keep (x : α) :
    oldLength [Edit.keep x] = 1 ∧ newLength [Edit.keep x] = 1 := by
  exact ⟨rfl, rfl⟩

/-- The hunks show every change among the rows, which stand behind `old` and `new`
elements.  Between two hunks lies at least one row that neither shows. -/
inductive Covers : Nat → Nat → List (Edit α) → List (Hunk α) → Prop
  | done (old new : Nat) : Covers old new [] []
  | skip {old new : Nat} {rows : List (Edit α)} {hs : List (Hunk α)} (x : α)
      (rest : Covers (old + 1) (new + 1) rows hs) :
      Covers old new (.keep x :: rows) hs
  | hunk {old new : Nat} {rows : List (Edit α)} {hs : List (Hunk α)}
      (body : List (Edit α))
      (rest : Covers (old + oldLength body) (new + newLength body) rows hs)
      (gap : ∀ h ∈ hs, old + oldLength body < h.oldStart ∧
        new + newLength body < h.newStart) :
      Covers old new (body ++ rows) (⟨old, new, body⟩ :: hs)

namespace Covers

variable {old new : Nat} {rows : List (Edit α)} {hs : List (Hunk α)}

/-- A hunk is a part of the rows, and it starts where that part does. -/
theorem exists_append (hcovers : Covers old new rows hs) {h : Hunk α} (hmem : h ∈ hs) :
    ∃ before after, rows = before ++ (h.rows ++ after) ∧
      h.oldStart = old + oldLength before ∧ h.newStart = new + newLength before := by
  induction hcovers with
  | done => simp at hmem
  | skip x _ ih =>
    obtain ⟨before, after, rfl, hold, hnew⟩ := ih hmem
    refine ⟨.keep x :: before, after, rfl, ?_, ?_⟩
    · rw [hold, ← List.singleton_append, oldLength_append, (lengths_keep x).1]
      omega
    · rw [hnew, ← List.singleton_append, newLength_append, (lengths_keep x).2]
      omega
  | @hunk old new rows hs body _ _ ih =>
    rcases List.mem_cons.mp hmem with rfl | hrest
    · exact ⟨[], rows, rfl, rfl, rfl⟩
    · obtain ⟨before, after, rfl, hold, hnew⟩ := ih hrest
      refine ⟨body ++ before, after, by rw [List.append_assoc], ?_, ?_⟩
      · rw [hold, oldLength_append]
        omega
      · rw [hnew, newLength_append]
        omega

/-- Hunks ascend in both lists, and no two of them touch. -/
theorem ascending (hcovers : Covers old new rows hs) :
    hs.Pairwise fun a b => a.oldStart + oldLength a.rows < b.oldStart ∧
      a.newStart + newLength a.rows < b.newStart := by
  induction hcovers with
  | done => exact .nil
  | skip _ _ ih => exact ih
  | hunk _ _ gap ih => exact .cons gap ih

/-- What is taken from changed rows alone can be taken from the hunks. -/
theorem filterMap_rows {β : Type} {f : Edit α → Option β}
    (hf : ∀ x, f (.keep x) = none) (hcovers : Covers old new rows hs) :
    (hs.flatMap (·.rows)).filterMap f = rows.filterMap f := by
  induction hcovers with
  | done => rfl
  | skip x _ ih => rw [List.filterMap_cons_none (hf x), ih]
  | hunk body _ _ ih => rw [List.flatMap_cons, List.filterMap_append,
      List.filterMap_append, ih]

end Covers

/-! ## Hunks cover the rows -/

theorem map_snd_marked (pending : Nat) (rows : List (Edit α)) :
    (marked pending rows).map (·.2) = rows := by
  fun_induction marked pending rows <;> simp_all

theorem isKeep_of_hidden {pending : Nat} {rows : List (Edit α)} {r : Bool × Edit α}
    (hmem : r ∈ marked pending rows) (hhidden : r.1 = false) : r.2.isKeep = true := by
  fun_induction marked pending rows with
  | case1 => simp at hmem
  | case2 pending row rest hkeep ih =>
    rcases List.mem_cons.mp hmem with rfl | hrest
    · exact hkeep
    · exact ih hrest
  | case3 pending row rest hkeep ih =>
    rcases List.mem_cons.mp hmem with rfl | hrest
    · simp at hhidden
    · exact ih hrest

theorem start_le_of_mem_gather {old new : Nat} {ms : List (Bool × Edit α)} {h : Hunk α}
    (hmem : h ∈ gather old new ms) : old ≤ h.oldStart ∧ new ≤ h.newStart := by
  fun_induction gather old new ms with
  | case1 => simp at hmem
  | case2 old new row rest ih =>
    have hstart := ih hmem
    omega
  | case3 old new row rest body ih =>
    rcases List.mem_cons.mp hmem with rfl | hrest
    · exact ⟨Nat.le_refl _, Nat.le_refl _⟩
    · have hstart := ih hrest
      omega

theorem covers_gather (old new : Nat) {ms : List (Bool × Edit α)}
    (hhidden : ∀ r ∈ ms, r.1 = false → r.2.isKeep = true) :
    Covers old new (ms.map (·.2)) (gather old new ms) := by
  fun_induction gather old new ms with
  | case1 => exact .done _ _
  | case2 old new row rest ih =>
    rw [List.forall_mem_cons] at hhidden
    cases row with
    | keep x => exact .skip x (ih hhidden.2)
    | delete x => simp [Edit.isKeep] at hhidden
    | insert x => simp [Edit.isKeep] at hhidden
  | case3 old new row rest body ih =>
    have hrows : ((true, row) :: rest).map (·.2) =
        body ++ (rest.dropWhile (·.1)).map (·.2) := by
      simp only [body, List.map_cons, List.cons_append, ← List.map_append,
        List.takeWhile_append_dropWhile]
    have hrest : ∀ r ∈ rest.dropWhile (·.1), r.1 = false → r.2.isKeep = true :=
      fun r hr => hhidden r (List.mem_cons_of_mem _ ((List.dropWhile_sublist _).subset hr))
    rw [hrows]
    refine .hunk body (ih hrest) fun h hmem => ?_
    -- The row behind the hunk is not shown, so the next hunk starts behind that row.
    cases hdrop : rest.dropWhile (·.1) with
    | nil => simp [hdrop, gather] at hmem
    | cons r others =>
      have hshown : r.1 = false := by
        have := List.head?_dropWhile_not (·.1) rest
        simpa [hdrop] using this
      obtain ⟨shown, edit⟩ := r
      obtain rfl : shown = false := hshown
      have hkeep := hrest _ (hdrop ▸ List.mem_cons_self) rfl
      rw [hdrop, gather] at hmem
      have hstart := start_le_of_mem_gather hmem
      cases edit with
      | keep x => simpa [Nat.succ_le_iff] using hstart
      | delete x => simp [Edit.isKeep] at hkeep
      | insert x => simp [Edit.isKeep] at hkeep

theorem covers_hunks (rows : List (Edit α)) : Covers 0 0 rows (hunks rows) := by
  have hhidden : ∀ r ∈ marked 0 rows, r.1 = false → r.2.isKeep = true :=
    fun r hmem hr => isKeep_of_hidden hmem hr
  have hcovers := covers_gather 0 0 hhidden
  rwa [map_snd_marked] at hcovers

end BinMatch.Diff
