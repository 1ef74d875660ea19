import BinMatch.Diff.Alignment
import BinMatch.Proofs.Diff.Block

/-!
# Rows of an alignment

The rows of an alignment hold both lists: without the insertions they read the old
list and without the deletions the new one.  A list aligned with itself is kept as
it is, whatever elements are eligible.
-/

namespace BinMatch.Diff

namespace Edit

variable {α : Type}

def isDelete : Edit α → Bool
  | .delete _ => true
  | _ => false

def isInsert : Edit α → Bool
  | .insert _ => true
  | _ => false

theorem filterMap_old_of_keeps {rows : List (Edit α)}
    (h : ∀ row ∈ rows, row.isKeep = true) :
    rows.filterMap old? = rows.filterMap new? := by
  induction rows with
  | nil => rfl
  | cons row rows ih =>
    have hrow := h row (by simp)
    have hrest := ih fun r hr => h r (by simp [hr])
    cases row with
    | keep x => simp [old?, new?, hrest]
    | delete x => simp [isKeep] at hrow
    | insert x => simp [isKeep] at hrow

theorem length_filterMap_old (rows : List (Edit α)) :
    (rows.filterMap old?).length =
      rows.countP isKeep + rows.countP isDelete := by
  induction rows with
  | nil => rfl
  | cons row rows ih =>
    simp only [List.filterMap_cons, List.countP_cons]
    cases row <;> simp [old?, isKeep, isDelete, ih] <;> omega

theorem length_filterMap_new (rows : List (Edit α)) :
    (rows.filterMap new?).length =
      rows.countP isKeep + rows.countP isInsert := by
  induction rows with
  | nil => rfl
  | cons row rows ih =>
    simp only [List.filterMap_cons, List.countP_cons]
    cases row <;> simp [new?, isKeep, isInsert, ih] <;> omega

theorem keeps_iff_no_change (rows : List (Edit α)) :
    (∀ row ∈ rows, row.isKeep = true) ↔
      rows.countP isDelete = 0 ∧ rows.countP isInsert = 0 := by
  simp only [List.countP_eq_zero]
  constructor
  · intro h
    constructor <;> intro row hrow <;> have hk := h row hrow <;>
      cases row <;> simp_all [isKeep, isDelete, isInsert]
  · rintro ⟨hd, hi⟩ row hrow
    have hdelete := hd row hrow
    have hinsert := hi row hrow
    cases row <;> simp_all [isKeep, isDelete, isInsert]

end Edit

section Rows

variable {α : Type}

@[simp] theorem filterMap_old_map_keep (xs : List α) :
    (xs.map Edit.keep).filterMap Edit.old? = xs := by
  induction xs with
  | nil => rfl
  | cons x xs ih => simp [Edit.old?, ih]

@[simp] theorem filterMap_new_map_keep (xs : List α) :
    (xs.map Edit.keep).filterMap Edit.new? = xs := by
  induction xs with
  | nil => rfl
  | cons x xs ih => simp [Edit.new?, ih]

@[simp] theorem filterMap_old_rows_apart (old new : List α) :
    (Alignment.apart old new).rows.filterMap Edit.old? = old := by
  simp only [Alignment.rows, List.filterMap_append, List.filterMap_map]
  simp [Function.comp_def, Edit.old?]

@[simp] theorem filterMap_new_rows_apart (old new : List α) :
    (Alignment.apart old new).rows.filterMap Edit.new? = new := by
  simp only [Alignment.rows, List.filterMap_append, List.filterMap_map]
  simp [Function.comp_def, Edit.new?]

/-- The common runs are the rows that are kept. -/
theorem countP_keep_rows (a : Alignment α) :
    a.rows.countP Edit.isKeep = a.matching := by
  induction a with
  | apart old new =>
    simp [Alignment.rows, Alignment.matching, List.countP_map, Function.comp_def,
      Edit.isKeep]
  | around before common after ihb iha =>
    simp only [Alignment.rows, Alignment.matching, List.countP_append, ihb, iha]
    simp [List.countP_map, Function.comp_def, Edit.isKeep]

/-- What lies before a block, the block and what lies behind it. -/
theorem take_block_drop (xs : List α) (i k : Nat) :
    xs.take i ++ ((xs.drop i).take k ++ xs.drop (i + k)) = xs := by
  rw [← List.drop_drop, List.take_append_drop, List.take_append_drop]

end Rows

section Align

variable {α : Type} [DecidableEq α]

theorem filterMap_old_rows_align (eligible : α → Bool) (old new : List α) :
    (align eligible old new).rows.filterMap Edit.old? = old := by
  fun_induction align eligible old new with
  | case1 old new => exact filterMap_old_rows_apart old new
  | case2 old new block _ ihb iha =>
    simp only [Alignment.rows, List.filterMap_append, filterMap_old_map_keep, ihb,
      iha, List.append_assoc]
    exact take_block_drop old block.inOld block.size

/-- The common run of a block is read off the old list; it is the new list's too. -/
theorem filterMap_new_rows_align (eligible : α → Bool) (old new : List α) :
    (align eligible old new).rows.filterMap Edit.new? = new := by
  fun_induction align eligible old new with
  | case1 old new => exact filterMap_new_rows_apart old new
  | case2 old new block _ ihb iha =>
    have hcommon : (old.drop block.inOld).take block.size =
        (new.drop block.inNew).take block.size := common_longestBlock eligible old new
    simp only [Alignment.rows, List.filterMap_append, filterMap_new_map_keep, ihb,
      iha, List.append_assoc, hcommon]
    exact take_block_drop new block.inNew block.size

/-- Both lists together: each kept element stands in both, each other in one. -/
theorem length_add_length_align (eligible : α → Bool) (old new : List α) :
    old.length + new.length =
      2 * (align eligible old new).matching +
        (align eligible old new).rows.countP Edit.isDelete +
        (align eligible old new).rows.countP Edit.isInsert := by
  have hold := Edit.length_filterMap_old (align eligible old new).rows
  have hnew := Edit.length_filterMap_new (align eligible old new).rows
  rw [filterMap_old_rows_align] at hold
  rw [filterMap_new_rows_align] at hnew
  rw [countP_keep_rows] at hold hnew
  omega

theorem rows_align_self (eligible : α → Bool) (xs : List α) :
    (align eligible xs xs).rows = xs.map Edit.keep := by
  have hnil : (align eligible [] ([] : List α)).rows = [] := by
    rw [align, longestBlock_self]
    rfl
  rw [align, longestBlock_self]
  cases xs with
  | nil => rfl
  | cons x xs => simp [Alignment.rows, hnil]

/-- Nothing is changed between two lists only if they are equal. -/
theorem keeps_align_iff (eligible : α → Bool) (old new : List α) :
    (∀ row ∈ (align eligible old new).rows, row.isKeep = true) ↔ old = new := by
  constructor
  · intro h
    have hsame := Edit.filterMap_old_of_keeps h
    rwa [filterMap_old_rows_align, filterMap_new_rows_align] at hsame
  · rintro rfl row hrow
    rw [rows_align_self, List.mem_map] at hrow
    obtain ⟨x, -, rfl⟩ := hrow
    rfl

/-- The common runs cover both lists only if the lists are equal. -/
theorem matching_align_iff (eligible : α → Bool) (old new : List α) :
    2 * (align eligible old new).matching = old.length + new.length ↔
      old = new := by
  rw [← keeps_align_iff eligible, Edit.keeps_iff_no_change,
    length_add_length_align eligible old new]
  omega

end Align

end BinMatch.Diff
