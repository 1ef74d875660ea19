import BinMatch.Proofs.Numeric.Arithmetic

/-!
# Errors of rounding

How far a number can come from the exact one in a number of roundings.
-/

namespace BinMatch.Numeric

/-- The largest part of a number that one rounding changes. -/
def unitRoundoff : ℚ :=
  1 / 2 ^ 53

/-- The two numbers differ by no more than `k` roundings. -/
structure Close (k : ℕ) (x y : ℚ) : Prop where
  lower : x * (1 - k * unitRoundoff) ≤ y
  upper : y * (1 - k * unitRoundoff) ≤ x

section Close

variable {k l : ℕ} {x y z : ℚ}

theorem unitRoundoff_pos : 0 < unitRoundoff := by
  unfold unitRoundoff
  positivity

theorem kept_nonneg (hk : k ≤ 2 ^ 53) : 0 ≤ 1 - k * unitRoundoff := by
  have hcast : (k : ℚ) ≤ 2 ^ 53 := by exact_mod_cast hk
  unfold unitRoundoff
  linarith

theorem close_zero_iff : Close 0 x y ↔ x = y := by
  constructor
  · rintro ⟨hlower, hupper⟩
    norm_num at hlower hupper
    exact le_antisymm hlower hupper
  · rintro rfl
    constructor <;> norm_num

theorem RoundsTo.close (h : RoundsTo x y) (hx : 0 ≤ x) : Close 1 x y := by
  have herror := abs_le.mp h.abs_sub_le
  have hsquare : 0 ≤ x * (unitRoundoff * unitRoundoff) := by
    have hpos := unitRoundoff_pos
    positivity
  have hunit : x / 2 ^ 53 = x * unitRoundoff := by
    rw [unitRoundoff, mul_one_div]
  rw [hunit] at herror
  constructor
  · push_cast
    linarith
  · have hle : y ≤ x * (1 + unitRoundoff) := by linarith
    have hkept := kept_nonneg (k := 1) (by decide)
    push_cast at hkept ⊢
    calc
      y * (1 - 1 * unitRoundoff) ≤ x * (1 + unitRoundoff) * (1 - 1 * unitRoundoff) :=
        mul_le_mul_of_nonneg_right hle hkept
      _ = x - x * (unitRoundoff * unitRoundoff) := by ring
      _ ≤ x := by linarith

namespace Close

theorem mono (h : Close k x y) (hkl : k ≤ l) (hx : 0 ≤ x) (hy : 0 ≤ y) : Close l x y := by
  have hcast : (k : ℚ) * unitRoundoff ≤ l * unitRoundoff :=
    mul_le_mul_of_nonneg_right (by exact_mod_cast hkl) unitRoundoff_pos.le
  constructor
  · exact le_trans (mul_le_mul_of_nonneg_left (by linarith) hx) h.lower
  · exact le_trans (mul_le_mul_of_nonneg_left (by linarith) hy) h.upper

theorem add {x' y' : ℚ} (h : Close k x y) (h' : Close k x' y') : Close k (x + x') (y + y') := by
  constructor
  · rw [add_mul]
    exact add_le_add h.lower h'.lower
  · rw [add_mul]
    exact add_le_add h.upper h'.upper

theorem div (h : Close k x y) (hz : 0 ≤ z) : Close k (x / z) (y / z) := by
  constructor
  · rw [div_mul_eq_mul_div]
    exact div_le_div_of_nonneg_right h.lower hz
  · rw [div_mul_eq_mul_div]
    exact div_le_div_of_nonneg_right h.upper hz

theorem lower_trans (hxy : x * (1 - k * unitRoundoff) ≤ y)
    (hyz : y * (1 - l * unitRoundoff) ≤ z) (hl : l ≤ 2 ^ 53) (hx : 0 ≤ x) :
    x * (1 - (k + l : ℕ) * unitRoundoff) ≤ z := by
  have hproduct : 0 ≤ x * (k * unitRoundoff * (l * unitRoundoff)) := by
    have hpos := unitRoundoff_pos
    positivity
  calc
    x * (1 - (k + l : ℕ) * unitRoundoff) ≤
        x * (1 - k * unitRoundoff) * (1 - l * unitRoundoff) := by
      push_cast
      linarith
    _ ≤ y * (1 - l * unitRoundoff) := mul_le_mul_of_nonneg_right hxy (kept_nonneg hl)
    _ ≤ z := hyz

theorem trans (hxy : Close k x y) (hyz : Close l y z) (hk : k ≤ 2 ^ 53) (hl : l ≤ 2 ^ 53)
    (hx : 0 ≤ x) (hz : 0 ≤ z) : Close (k + l) x z := by
  constructor
  · exact lower_trans hxy.lower hyz.lower hl hx
  · rw [Nat.add_comm k l]
    exact lower_trans hyz.upper hxy.upper hk hz

end Close

end Close

end BinMatch.Numeric
