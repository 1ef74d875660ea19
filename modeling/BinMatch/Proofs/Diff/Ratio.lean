import BinMatch.Proofs.Diff.TextDiff
import BinMatch.Proofs.Text.Percent

/-!
# Ratios and percentages

The rows of a difference hold every line of both texts, so that the match ratio, which is a
quotient of binary64 numbers, lies between zero and one.  It is shown as a full percentage
exactly if at most one in two thousand lines of both texts is unmatched.
-/

namespace BinMatch

namespace Numeric

variable {p t : ℕ} {v : ℚ}

theorem quotient_reaches_iff_of_half (hround : RoundsTo ((p : ℚ) / t) v) (hhalf : t ≤ 2 * p)
    (hlt : p < t) (hupper : t < 2 ^ 50) : 1999 / 2000 ≤ v ↔ 2000 * (t - p) ≤ t := by
  have ht : (0 : ℚ) < t := by exact_mod_cast Nat.zero_lt_of_lt hlt
  have hlower : 1 / 2 ≤ (p : ℚ) / t := by
    rw [div_le_div_iff₀ two_pos ht]
    exact_mod_cast (by omega : 1 * t ≤ p * 2)
  have hone : (p : ℚ) / t < 1 := (div_lt_one ht).mpr (by exact_mod_cast hlt)
  obtain ⟨r, hr, herror⟩ := hround.exists_of_unit (t := -53)
    (by norm_num; linarith) (by norm_num; linarith)
  have hunit : (2 : ℚ) ^ (-53 : ℤ) = 1 / 2 ^ 53 := by norm_num
  rw [hunit] at herror
  obtain ⟨hbelow, habove⟩ := abs_le.mp herror
  rw [hr, Text.Percent.units_reach_iff]
  constructor
  · intro hreach
    have hle : (9002695655113621 : ℚ) + 1 ≤ r := by exact_mod_cast hreach
    have hquotient : (18005391310227243 : ℚ) / 2 ^ 54 ≤ p / t := by linarith
    have hcross : 18005391310227243 * t ≤ p * 2 ^ 54 := by
      rw [div_le_div_iff₀ (by positivity) ht] at hquotient
      exact_mod_cast hquotient
    -- The tie lies below 0.9995, but no quotient of numbers this small lies between the two.
    omega
  · intro hreach
    have hquotient : (1999 : ℚ) / 2000 ≤ p / t := by
      rw [div_le_div_iff₀ (by norm_num) ht]
      exact_mod_cast (by omega : 1999 * t ≤ p * 2000)
    have hnext : (9002695655113621 : ℚ) < r := by linarith
    exact_mod_cast hnext

/-- A quotient of naturals below `2 ^ 50` reaches 0.9995 exactly if it does so rounded. -/
theorem quotient_reaches_iff (hround : RoundsTo ((p : ℚ) / t) v) (hp : p ≤ t) (ht : 0 < t)
    (hupper : t < 2 ^ 50) : 1999 / 2000 ≤ v ↔ 2000 * (t - p) ≤ t := by
  have ht' : (0 : ℚ) < t := by exact_mod_cast ht
  rcases Nat.eq_or_lt_of_le hp with rfl | hlt
  · rw [div_self ht'.ne'] at hround
    have hone : RoundsTo ((1 : ℕ) : ℚ) v := by exact_mod_cast hround
    rw [hone.eq_natCast (by decide), Nat.sub_self]
    norm_num
  rcases lt_or_ge (2 * p) t with hsmall | hlarge
  · have hhalf : (p : ℚ) / t ≤ 1 / 2 := by
      rw [div_le_div_iff₀ ht' two_pos]
      exact_mod_cast (by omega : p * 2 ≤ 1 * t)
    have herror := (abs_le.mp hround.abs_sub_le).2
    constructor
    · intro hreach
      linarith
    · intro hreach
      omega
  · exact quotient_reaches_iff_of_half hround hlarge hlt hupper

end Numeric

namespace Diff.TextDiff

open Numeric

variable {d : TextDiff}

theorem exactRatio_eq_div (hzero : d.totalLines ≠ 0) :
    d.exactRatio = ((2 * d.matchingLines : ℕ) : ℚ) / d.totalLines := by
  rw [exactRatio, if_neg hzero]
  push_cast
  rfl

/-- The ratio of binary64 numbers is the exact one, rounded once. -/
theorem exists_represents_ratio (hle : 2 * d.matchingLines ≤ d.totalLines)
    (hupper : d.totalLines < 2 ^ 53) :
    ∃ v, Represents d.ratio v ∧ RoundsTo d.exactRatio v ∧ ZeroOrFrom (-53) v ∧ v ≤ 1 := by
  by_cases hzero : d.totalLines = 0
  · have hone : RoundsTo 1 1 := represents_one.roundsTo_self
    rw [ratio, if_pos hzero, exactRatio, if_pos hzero]
    exact ⟨1, represents_one, hone, Or.inr (by norm_num), le_rfl⟩
  · have hpos := Nat.pos_of_ne_zero hzero
    have hexact := exactRatio_eq_div hzero
    have hone : d.exactRatio ≤ 1 := (exactRatio_mem_Icc d hle).2
    have hfrom : ZeroOrFrom (-53) d.exactRatio := by
      rw [hexact]
      exact (ZeroOrFrom.natCast _).div_natCast hpos hupper
    have hrange : Moderate d.exactRatio :=
      hfrom.moderate (by decide) (hone.trans (by norm_num))
    have hcounted := represents_ofNat (Nat.lt_of_le_of_lt hle hupper)
    have htotal : (d.totalLines : ℚ) ≠ 0 := by exact_mod_cast hzero
    rw [hexact] at hrange
    obtain ⟨v, hv, hround⟩ := hcounted.div (represents_ofNat hupper) htotal hrange
    rw [← hexact] at hround
    refine ⟨v, ?_, hround, hround.zeroOrFrom hfrom, ?_⟩
    · rwa [ratio, if_neg hzero]
    · have hle' := hround.le_natCast (n := 1) (by decide) (by exact_mod_cast hone)
      exact_mod_cast hle'

theorem ofRatio_ratio_eq_full_iff (hle : 2 * d.matchingLines ≤ d.totalLines)
    (hupper : d.totalLines < 2 ^ 50) :
    Text.Percent.ofRatio d.ratio = "100.0%" ↔
      2000 * (d.totalLines - 2 * d.matchingLines) ≤ d.totalLines := by
  obtain ⟨v, hv, hround, hfrom, hone⟩ :=
    exists_represents_ratio hle (Nat.lt_trans hupper (by decide))
  rw [Text.Percent.ofRatio_eq_full_iff hv (by decide) hfrom hone]
  by_cases hzero : d.totalLines = 0
  · rw [exactRatio, if_pos hzero] at hround
    have hv' : RoundsTo ((1 : ℕ) : ℚ) v := by exact_mod_cast hround
    rw [hv'.eq_natCast (by decide), hzero]
    norm_num
  · rw [exactRatio_eq_div hzero] at hround
    exact quotient_reaches_iff hround hle (Nat.pos_of_ne_zero hzero) hupper

end Diff.TextDiff

namespace Diff

open Numeric

/-- Nothing of either text is lost in the rows, and no line stands there twice.  The ratio
of two texts that have fewer than `2 ^ 53` lines is the exact one, rounded once. -/
theorem rows_hold_both_texts (oldName newName oldText newText : String) :
    (compareTexts oldName newName oldText newText).rows.filterMap Edit.old? =
        Text.Line.split oldText ∧
      (compareTexts oldName newName oldText newText).rows.filterMap Edit.new? =
        Text.Line.split newText ∧
      (compareTexts oldName newName oldText newText).rows.countP Edit.isKeep =
        (compareTexts oldName newName oldText newText).matchingLines ∧
      (compareTexts oldName newName oldText newText).totalLines =
        2 * (compareTexts oldName newName oldText newText).matchingLines +
          (compareTexts oldName newName oldText newText).rows.countP Edit.isDelete +
          (compareTexts oldName newName oldText newText).rows.countP Edit.isInsert ∧
      0 ≤ (compareTexts oldName newName oldText newText).exactRatio ∧
      (compareTexts oldName newName oldText newText).exactRatio ≤ 1 ∧
      ((compareTexts oldName newName oldText newText).totalLines < 2 ^ 53 →
        ∃ v, Represents (compareTexts oldName newName oldText newText).ratio v ∧
          RoundsTo (compareTexts oldName newName oldText newText).exactRatio v ∧
          0 ≤ v ∧ v ≤ 1) := by
  have hle := two_mul_matchingLines_le oldName newName oldText newText
  obtain ⟨hnonneg, hone⟩ := TextDiff.exactRatio_mem_Icc _ hle
  refine ⟨filterMap_old_rows_align _ _ _, filterMap_new_rows_align _ _ _,
    countP_keep_rows _, length_add_length_align _ _ _, hnonneg, hone, fun hupper => ?_⟩
  obtain ⟨v, hv, hround, hfrom, hone⟩ := TextDiff.exists_represents_ratio hle hupper
  exact ⟨v, hv, hround, hfrom.nonneg, hone⟩

end Diff

end BinMatch
