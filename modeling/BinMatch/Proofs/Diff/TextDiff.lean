import BinMatch.Diff.TextDiff
import BinMatch.Proofs.Diff.Alignment
import BinMatch.Proofs.Diff.Hunk
import Mathlib.Algebra.Order.Field.Basic
import Mathlib.Algebra.Order.Field.Rat
import Mathlib.Tactic.NormNum
import Mathlib.Tactic.Positivity
import Mathlib.Tactic.TFAE

/-!
# What a text difference says

The rows, the ratio and the unified diff, although the last has an alignment of its own,
agree on whether the texts have the same lines.
-/

namespace BinMatch.Diff

namespace TextDiff

def exactRatio (d : TextDiff) : ℚ :=
  if d.totalLines = 0 then 1
  else 2 * (d.matchingLines : ℚ) / d.totalLines

theorem exactRatio_eq_one_iff (d : TextDiff) :
    d.exactRatio = 1 ↔ d.isMatch = true ∨ d.totalLines = 0 := by
  by_cases hzero : d.totalLines = 0
  · simp [exactRatio, hzero]
  · have htotal : (d.totalLines : ℚ) ≠ 0 := by exact_mod_cast hzero
    rw [exactRatio, if_neg hzero, div_eq_one_iff_eq htotal]
    simp only [isMatch, decide_eq_true_eq, hzero, or_false]
    norm_cast

/-- A share of the lines is no less than none of them and no more than all. -/
theorem exactRatio_mem_Icc (d : TextDiff)
    (h : 2 * d.matchingLines ≤ d.totalLines) :
    0 ≤ d.exactRatio ∧ d.exactRatio ≤ 1 := by
  by_cases hzero : d.totalLines = 0
  · simp [exactRatio, hzero]
  · have htotal : (0 : ℚ) < d.totalLines := by
      exact_mod_cast Nat.pos_of_ne_zero hzero
    have hle : 2 * (d.matchingLines : ℚ) ≤ d.totalLines := by exact_mod_cast h
    rw [exactRatio, if_neg hzero]
    constructor
    · positivity
    · rwa [div_le_one htotal]

end TextDiff

variable (oldName newName oldText newText : String)

theorem totalLines_compareTexts :
    (compareTexts oldName newName oldText newText).totalLines =
      (Text.Line.split oldText).length + (Text.Line.split newText).length := rfl

theorem isMatch_compareTexts_iff :
    (compareTexts oldName newName oldText newText).isMatch = true ↔
      Text.Line.split oldText = Text.Line.split newText := by
  rw [← matching_align_iff (fun _ => true), TextDiff.isMatch, decide_eq_true_eq]
  rfl

/-- Two empty texts have the exact ratio one, and they match as well. -/
theorem exactRatio_compareTexts_iff :
    (compareTexts oldName newName oldText newText).exactRatio = 1 ↔
      (compareTexts oldName newName oldText newText).isMatch = true := by
  rw [TextDiff.exactRatio_eq_one_iff, or_iff_left_iff_imp,
    totalLines_compareTexts, isMatch_compareTexts_iff]
  intro hzero
  have hold : Text.Line.split oldText = [] := List.eq_nil_of_length_eq_zero (by omega)
  have hnew : Text.Line.split newText = [] := List.eq_nil_of_length_eq_zero (by omega)
  rw [hold, hnew]

/-- The alignment behind the unified diff looks among the infrequent lines only,
but it keeps two equal texts whole and nothing else. -/
theorem unified_compareTexts_iff :
    (compareTexts oldName newName oldText newText).unified = "" ↔
      Text.Line.split oldText = Text.Line.split newText := by
  simp only [compareTexts, unifiedDiff]
  rw [unifiedText_eq_empty_iff, hunks_eq_nil_iff, keeps_align_iff]

theorem same_lines_tfae :
    [Text.Line.split oldText = Text.Line.split newText,
      (compareTexts oldName newName oldText newText).isMatch = true,
      (compareTexts oldName newName oldText newText).exactRatio = 1,
      (compareTexts oldName newName oldText newText).unified = "",
      ∀ row ∈ (compareTexts oldName newName oldText newText).rows,
        row.isKeep = true].TFAE := by
  tfae_have 2 ↔ 1 := isMatch_compareTexts_iff oldName newName oldText newText
  tfae_have 3 ↔ 2 := exactRatio_compareTexts_iff oldName newName oldText newText
  tfae_have 4 ↔ 1 := unified_compareTexts_iff oldName newName oldText newText
  tfae_have 5 ↔ 1 := keeps_align_iff (fun _ => true) _ _
  tfae_finish

theorem two_mul_matchingLines_le :
    2 * (compareTexts oldName newName oldText newText).matchingLines ≤
      (compareTexts oldName newName oldText newText).totalLines := by
  have htotal := length_add_length_align (fun _ => true) (Text.Line.split oldText)
    (Text.Line.split newText)
  rw [totalLines_compareTexts, htotal]
  exact Nat.le_trans (Nat.le_add_right _ _) (Nat.le_add_right _ _)

end BinMatch.Diff
