import BinMatch.Proofs.Catalog
import Mathlib.Data.List.Sort

/-!
# Order of texts

Texts are ordered by their characters.  Sorting different texts leaves each of them in
front of all greater ones, and texts that start alike are ordered by what follows.
-/

namespace BinMatch.Text

theorem nodup_eraseDups (texts : List String) : texts.eraseDups.Nodup := by
  have hkeys : (Catalog.ofList (texts.map fun text => (text, ()))).keys =
      texts.eraseDups := by
    rw [Catalog.keys_ofList, List.map_map]
    exact congrArg List.eraseDups (List.map_id texts)
  rw [← hkeys]
  exact (Catalog.ofList _).nodup

section Sorting

variable {α : Type} {key : α → String} {l l' : List α}

/-- What has a text of its own is put in front of everything with a greater one. -/
theorem pairwise_lt_mergeSort_key (h : (l.map key).Nodup) :
    (l.mergeSort fun a b => key a ≤ key b).Pairwise fun a b => key a < key b := by
  have hsorted : (l.mergeSort fun a b => key a ≤ key b).Pairwise
      fun a b => decide (key a ≤ key b) = true := by
    refine List.pairwise_mergeSort (fun a b c hab hbc => ?_) (fun a b => ?_) l
    · rw [decide_eq_true_eq] at hab hbc ⊢
      exact String.le_trans hab hbc
    · simpa using String.le_total (key a) (key b)
  have hnodup : ((l.mergeSort fun a b => key a ≤ key b).map key).Nodup :=
    ((List.mergeSort_perm l _).map key).nodup_iff.mpr h
  refine (hsorted.and (List.pairwise_map.mp hnodup)).imp fun {a b} hab => ?_
  exact Std.lt_of_le_of_ne (of_decide_eq_true hab.1) hab.2

/-- There is one order by different texts, whatever the order before. -/
theorem mergeSort_key_eq_of_perm (h : (l.map key).Nodup) (hperm : l.Perm l') :
    (l.mergeSort fun a b => key a ≤ key b) = l'.mergeSort fun a b => key a ≤ key b := by
  have h' : (l'.map key).Nodup := (hperm.map key).nodup_iff.mp h
  refine List.Perm.eq_of_pairwise (fun a b _ _ hab hba => ?_) (pairwise_lt_mergeSort_key h)
    (pairwise_lt_mergeSort_key h') ?_
  · exact absurd (String.lt_trans hab hba) (String.lt_irrefl (key a))
  · exact (List.mergeSort_perm l _).trans (hperm.trans (List.mergeSort_perm l' _).symm)

end Sorting

theorem pairwise_lt_mergeSort {texts : List String} (h : texts.Nodup) :
    (texts.mergeSort fun a b => a ≤ b).Pairwise (· < ·) := by
  rw [← List.map_id texts] at h
  exact pairwise_lt_mergeSort_key h

theorem mergeSort_eq_of_perm {texts texts' : List String} (h : texts.Nodup)
    (hperm : texts.Perm texts') :
    (texts.mergeSort fun a b => a ≤ b) = texts'.mergeSort fun a b => a ≤ b := by
  rw [← List.map_id texts] at h
  exact mergeSort_key_eq_of_perm h hperm

theorem nodup_of_pairwise_lt {texts : List String} (h : texts.Pairwise (· < ·)) :
    texts.Nodup := by
  refine h.imp ?_
  rintro text _ hlt rfl
  exact String.lt_irrefl text hlt

theorem append_lt_append {a b : String} (front : String) (h : a < b) :
    front ++ a < front ++ b := by
  rw [String.lt_iff, String.toList_append, String.toList_append]
  exact List.append_left_lt (String.lt_iff.mp h)

theorem append_le_append_iff {a b : String} (front : String) :
    front ++ a ≤ front ++ b ↔ a ≤ b := by
  constructor
  · intro h
    by_contra hnot
    exact String.not_lt.mpr h (append_lt_append front (String.not_le.mp hnot))
  · intro h
    by_cases heq : a = b
    · subst heq
      exact String.le_refl _
    · exact Std.le_of_lt (append_lt_append front (Std.lt_of_le_of_ne h heq))

end BinMatch.Text
