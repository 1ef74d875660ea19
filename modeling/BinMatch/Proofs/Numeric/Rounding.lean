import Mathlib

/-!
# Rounding to binary64

The arithmetic of binary64 numbers is exact arithmetic followed by one rounding.  A
rounded number has fifty-three binary digits and lies within half a unit of its last
digit from the exact one.
-/

namespace BinMatch.Numeric

open Float.Model Float.Model.UnpackedFloat

/-! ## Digits behind the mantissa -/

/-- The mantissa and its two residual bits stand for `y`: the round bit is the digit
behind the mantissa, and the sticky bit tells whether anything follows it. -/
def Extends (em : ExtendedMantissa) (y : ℚ) : Prop :=
  ∃ rest : ℚ, y = em.mantissa + (if em.roundBit then 1 / 2 else 0) + rest ∧
    0 ≤ rest ∧ rest < 1 / 2 ∧ (em.stickyBit = true ↔ 0 < rest)

theorem Extends.shiftRightOne {em : ExtendedMantissa} {y : ℚ} (h : Extends em y) :
    Extends em.shiftRightOne (y / 2) := by
  obtain ⟨rest, hy, hrest, hhalf, hsticky⟩ := h
  have hdigits : (em.mantissa : ℚ) = 2 * (em.mantissa / 2 : ℕ) + (em.mantissa % 2 : ℕ) := by
    exact_mod_cast (Nat.div_add_mod em.mantissa 2).symm
  refine ⟨(if em.roundBit then 1 / 4 else 0) + rest / 2, ?_, ?_, ?_, ?_⟩
  · rcases Nat.mod_two_eq_zero_or_one em.mantissa with hm | hm <;>
      rw [hm] at hdigits <;> rw [hy, hdigits] <;>
      simp only [ExtendedMantissa.shiftRightOne, hm] <;> split <;> norm_num <;> ring
  · split <;> linarith
  · split <;> linarith
  · simp only [ExtendedMantissa.shiftRightOne, Bool.or_eq_true, hsticky]
    split <;> rename_i hround
    · simp only [hround, true_or, true_iff]
      linarith
    · simp only [hround, Bool.false_eq_true, false_or]
      constructor <;> intro hpos <;> linarith

theorem Extends.shiftRight {em : ExtendedMantissa} {y : ℚ} (h : Extends em y) (k : ℕ) :
    Extends (em >>> k) (y / 2 ^ k) := by
  induction k with
  | zero =>
    rw [pow_zero, div_one]
    exact h
  | succ k ih =>
    have hshift := ih.shiftRightOne
    rw [div_div, ← pow_succ] at hshift
    exact hshift

theorem extends_exact (m : ℕ) :
    Extends (ExtendedMantissa.ofMantissaAndAccuracy m .exact) m :=
  ⟨0, by simp [ExtendedMantissa.ofMantissaAndAccuracy], le_rfl, by norm_num,
    by simp [ExtendedMantissa.ofMantissaAndAccuracy]⟩

theorem extends_accuracyOfFraction (m : ℕ) {num den : ℕ} (h : num < den) :
    Extends (ExtendedMantissa.ofMantissaAndAccuracy m (accuracyOfFraction num den))
      (m + num / den) := by
  have hden : (0 : ℚ) < den := by exact_mod_cast Nat.zero_lt_of_lt h
  have hlt : (num : ℚ) / den < 1 := (div_lt_one hden).mpr (by exact_mod_cast h)
  by_cases hzero : num = 0
  · simpa [accuracyOfFraction, hzero] using extends_exact m
  · have hpos : (0 : ℚ) < num / den :=
      div_pos (by exact_mod_cast Nat.pos_of_ne_zero hzero) hden
    rw [accuracyOfFraction, if_neg hzero]
    rcases Nat.lt_trichotomy (2 * num) den with hless | hequal | hmore
    · have hhalf : (num : ℚ) / den < 1 / 2 := by
        rw [div_lt_div_iff₀ hden two_pos]
        exact_mod_cast (by omega : num * 2 < 1 * den)
      rw [Nat.compare_eq_lt.mpr hless]
      refine ⟨num / den, ?_, hpos.le, hhalf, ?_⟩
      · simp [ExtendedMantissa.ofMantissaAndAccuracy]
      · simpa [ExtendedMantissa.ofMantissaAndAccuracy] using hpos
    · have hhalf : (num : ℚ) / den = 1 / 2 := by
        rw [div_eq_div_iff hden.ne' two_ne_zero]
        exact_mod_cast (by omega : num * 2 = 1 * den)
      rw [Nat.compare_eq_eq.mpr hequal, hhalf]
      refine ⟨0, ?_, le_rfl, by norm_num, ?_⟩
      · simp [ExtendedMantissa.ofMantissaAndAccuracy]
      · simp [ExtendedMantissa.ofMantissaAndAccuracy]
    · have hhalf : 1 / 2 < (num : ℚ) / den := by
        rw [div_lt_div_iff₀ two_pos hden]
        exact_mod_cast (by omega : 1 * den < num * 2)
      rw [Nat.compare_eq_gt.mpr hmore]
      refine ⟨num / den - 1 / 2, ?_, by linarith, by linarith, ?_⟩
      · simp [ExtendedMantissa.ofMantissaAndAccuracy]
      · simpa [ExtendedMantissa.ofMantissaAndAccuracy] using hhalf

theorem Extends.mantissa_le_lt {em : ExtendedMantissa} {y : ℚ} (h : Extends em y) :
    em.mantissa ≤ y ∧ y < em.mantissa + 1 := by
  obtain ⟨rest, rfl, hrest, hhalf, -⟩ := h
  constructor <;> split <;> linarith

theorem mantissa_shiftRight (em : ExtendedMantissa) (k : ℕ) :
    (em >>> k).mantissa = em.mantissa / 2 ^ k := by
  induction k with
  | zero => exact (Nat.div_one _).symm
  | succ k ih =>
    calc
      (em >>> (k + 1)).mantissa = (em >>> k).mantissa / 2 := rfl
      _ = em.mantissa / 2 ^ (k + 1) := by rw [ih, Nat.div_div_eq_div_mul, Nat.pow_succ]

theorem Extends.abs_roundedMantissa_sub {em : ExtendedMantissa} {y : ℚ} (h : Extends em y) :
    |(em.roundedMantissa : ℚ) - y| ≤ 1 / 2 := by
  obtain ⟨rest, rfl, hrest, hhalf, hsticky⟩ := h
  obtain ⟨m, round, sticky⟩ := em
  have hparity : ((m % 2 : ℕ) : ℚ) ≤ 1 := by
    exact_mod_cast Nat.le_of_lt_succ (Nat.mod_lt m (by decide))
  have hnonneg : (0 : ℚ) ≤ (m % 2 : ℕ) := Nat.cast_nonneg _
  rw [abs_le]
  cases round <;> cases sticky <;>
    simp only [ExtendedMantissa.roundedMantissa, ExtendedMantissa.accuracy,
      Accuracy.roundToNearestEven, Bool.false_eq_true, if_false, if_true, false_iff, true_iff,
      Nat.cast_add, Nat.cast_one] at hsticky ⊢ <;>
    constructor <;> linarith

/-! ## Rounding once -/

/-- Mantissa and exponent of a number with fifty-three digits. -/
structure Canonical (m : ℕ) (e : ℤ) : Prop where
  lower : 2 ^ 52 ≤ m
  upper : m < 2 ^ 53
  least : -1074 ≤ e
  greatest : e ≤ 971

theorem Canonical.pos {m : ℕ} {e : ℤ} (h : Canonical m e) : 0 < m :=
  Nat.lt_of_lt_of_le (by decide) h.lower

theorem log2_eq_of_mem {m k : ℕ} (hlower : 2 ^ k ≤ m) (hupper : m < 2 ^ (k + 1)) :
    m.log2 = k :=
  (Nat.log2_eq_iff (Nat.lt_of_lt_of_le (Nat.two_pow_pos k) hlower).ne').mpr ⟨hlower, hupper⟩

/-- A positive number with fifty-three digits. -/
def IsFinite (u : UnpackedFloat) (v : ℚ) : Prop :=
  ∃ (m : ℕ) (e : ℤ) (h : Canonical m e), u = .finite .positive m e h.pos ∧ v = m * 2 ^ e

/-- Digits are dropped until fifty-three are left. -/
theorem shiftToTargetExponent_eq {m k : ℕ} {e : ℤ} (hm : m.log2 = 52 + k)
    (hleast : -1074 ≤ e + k) (accuracy : Accuracy) :
    shiftToTargetExponent Format.binary64 m e accuracy =
      (ExtendedMantissa.ofMantissaAndAccuracy m accuracy >>> k, e + k) := by
  have htarget : Format.binary64.targetExponent (totalExponent m e) = e + k := by
    simp only [Format.targetExponent, totalExponent, Format.mantissaBits, Format.minExponent, hm]
    omega
  have hshift : (e + k - e).toNat = k := by omega
  simp only [shiftToTargetExponent, shiftToExponent, htarget, hshift]

theorem mantissa_ofMantissaAndAccuracy (m : ℕ) (accuracy : Accuracy) :
    (ExtendedMantissa.ofMantissaAndAccuracy m accuracy).mantissa = m := by
  cases accuracy with
  | exact => rfl
  | inexact order => cases order <;> rfl

/-- Rounding up may give a number of fifty-four digits, whose last one is zero. -/
theorem isFinite_roundWithAccuracy {m k r : ℕ} {e : ℤ} {accuracy : Accuracy}
    (hm : m.log2 = 52 + k) (hleast : -1074 ≤ e + k) (hgreatest : e + k ≤ 970)
    (hr : (ExtendedMantissa.ofMantissaAndAccuracy m accuracy >>> k).roundedMantissa = r)
    (hlower : 2 ^ 52 ≤ r) (hupper : r ≤ 2 ^ 53) :
    IsFinite (roundWithAccuracy Format.binary64 .positive m e accuracy) (r * 2 ^ (e + k)) := by
  rcases Nat.lt_or_eq_of_le hupper with hlt | heq
  · have hcanonical : Canonical r (e + k) := ⟨hlower, hlt, hleast, by omega⟩
    have hsecond : shiftToTargetExponent Format.binary64 r (e + k) .exact =
        (⟨r, false, false⟩, e + k) := by
      rw [shiftToTargetExponent_eq (k := 0) (log2_eq_of_mem hlower hlt) (by simpa using hleast)]
      simp
      rfl
    refine ⟨r, e + k, hcanonical, ?_, rfl⟩
    simp only [roundWithAccuracy, shiftToTargetExponent_eq hm hleast, hr, hsecond]
    rw [dif_neg hcanonical.pos.ne']
  · have hcanonical : Canonical (2 ^ 52) (e + k + 1) :=
      ⟨le_refl _, by decide, by omega, by omega⟩
    have hsecond : shiftToTargetExponent Format.binary64 r (e + k) .exact =
        (⟨2 ^ 52, false, false⟩, e + k + 1) := by
      rw [heq, shiftToTargetExponent_eq (k := 1) (by rw [Nat.log2_two_pow]) (by omega)]
      rfl
    refine ⟨2 ^ 52, e + k + 1, hcanonical, ?_, ?_⟩
    · simp only [roundWithAccuracy, shiftToTargetExponent_eq hm hleast, hr, hsecond]
      rw [dif_neg hcanonical.pos.ne']
    · rw [heq, zpow_add_one₀ (by norm_num)]
      push_cast
      ring

/-! ## The rounded number -/

/-- The exact number `x` is rounded to `v`, a multiple of the unit that fifty-three
digits of `x` leave. -/
def Rounds (x v : ℚ) : Prop :=
  ∃ (r : ℕ) (t : ℤ), 2 ^ 52 * 2 ^ t ≤ x ∧ x < 2 ^ 53 * 2 ^ t ∧ v = r * 2 ^ t ∧
    |r * 2 ^ t - x| ≤ 2 ^ t / 2

theorem exponent_lt_of_lt {a b : ℕ} {s t : ℤ} (h : (2 : ℚ) ^ a * 2 ^ s < 2 ^ b * 2 ^ t) :
    a + s < b + t := by
  have hsum : ∀ (n : ℕ) (u : ℤ), (2 : ℚ) ^ n * 2 ^ u = 2 ^ (n + u) := by
    intro n u
    rw [zpow_add₀ two_ne_zero, zpow_natCast]
  rw [hsum, hsum] at h
  exact (zpow_lt_zpow_iff_right₀ one_lt_two).mp h

/-- The unit of a number that is far from overflow and from the subnormal numbers. -/
theorem unit_mem {x : ℚ} {t : ℤ}
    (hlower : 2 ^ (-200 : ℤ) ≤ x) (hupper : x ≤ 2 ^ (200 : ℤ))
    (hfirst : 2 ^ 52 * 2 ^ t ≤ x) (hlast : x < 2 ^ 53 * 2 ^ t) :
    -1074 ≤ t ∧ t ≤ 970 := by
  have hleast : (2 : ℚ) ^ 0 * 2 ^ (-200 : ℤ) < 2 ^ 53 * 2 ^ t := by
    rw [pow_zero, one_mul]
    exact hlower.trans_lt hlast
  have htwice : (2 : ℚ) ^ (200 : ℤ) < 2 ^ 1 * 2 ^ (200 : ℤ) := by norm_num
  have hsmall := exponent_lt_of_lt hleast
  have hlarge := exponent_lt_of_lt ((hfirst.trans hupper).trans_lt htwice)
  constructor <;> omega

/-- The first fifty-three digits of a number that has more. -/
theorem div_two_pow_mem {m k : ℕ} (hm : m ≠ 0) (hk : m.log2 = 52 + k) :
    2 ^ 52 ≤ m / 2 ^ k ∧ m / 2 ^ k < 2 ^ 53 := by
  constructor
  · rw [Nat.le_div_iff_mul_le (Nat.two_pow_pos k), ← Nat.pow_add, ← hk]
    exact Nat.log2_self_le hm
  · rw [Nat.div_lt_iff_lt_mul (Nat.two_pow_pos k), ← Nat.pow_add]
    have hlog := Nat.lt_log2_self (n := m)
    rwa [hk, show 52 + k + 1 = 53 + k by omega] at hlog

section Extended

variable {em : ExtendedMantissa} {y : ℚ}

theorem Extends.roundedMantissa_mem (h : Extends em y) (hfirst : 2 ^ 52 ≤ em.mantissa)
    (hlast : em.mantissa < 2 ^ 53) :
    2 ^ 52 ≤ em.roundedMantissa ∧ em.roundedMantissa ≤ 2 ^ 53 := by
  obtain ⟨hfloor, hceil⟩ := h.mantissa_le_lt
  obtain ⟨hbelow, habove⟩ := abs_le.mp h.abs_roundedMantissa_sub
  have hfirst' : (2 : ℚ) ^ 52 ≤ em.mantissa := by exact_mod_cast hfirst
  have hlast' : (em.mantissa : ℚ) + 1 ≤ 2 ^ 53 := by exact_mod_cast hlast
  constructor
  · have hlt : (2 : ℚ) ^ 52 < em.roundedMantissa + 1 := by linarith
    exact Nat.le_of_lt_succ (by exact_mod_cast hlt)
  · have hlt : (em.roundedMantissa : ℚ) < 2 ^ 53 + 1 := by linarith
    exact Nat.le_of_lt_succ (by exact_mod_cast hlt)

theorem Extends.scaled_mem (h : Extends em y) (hfirst : 2 ^ 52 ≤ em.mantissa)
    (hlast : em.mantissa < 2 ^ 53) (t : ℤ) :
    2 ^ 52 * 2 ^ t ≤ y * 2 ^ t ∧ y * 2 ^ t < 2 ^ 53 * 2 ^ t := by
  obtain ⟨hfloor, hceil⟩ := h.mantissa_le_lt
  have hunit : (0 : ℚ) < 2 ^ t := by positivity
  have hfirst' : (2 : ℚ) ^ 52 ≤ em.mantissa := by exact_mod_cast hfirst
  have hlast' : (em.mantissa : ℚ) + 1 ≤ 2 ^ 53 := by exact_mod_cast hlast
  constructor
  · exact mul_le_mul_of_nonneg_right (hfirst'.trans hfloor) hunit.le
  · exact mul_lt_mul_of_pos_right (hceil.trans_le hlast') hunit

theorem Extends.rounds (h : Extends em y) (hfirst : 2 ^ 52 ≤ em.mantissa)
    (hlast : em.mantissa < 2 ^ 53) (t : ℤ) :
    Rounds (y * 2 ^ t) (em.roundedMantissa * 2 ^ t) := by
  obtain ⟨hlower, hupper⟩ := h.scaled_mem hfirst hlast t
  have hunit : (0 : ℚ) < 2 ^ t := by positivity
  refine ⟨em.roundedMantissa, t, hlower, hupper, rfl, ?_⟩
  rw [← sub_mul, abs_mul, abs_of_pos hunit]
  calc
    |(em.roundedMantissa : ℚ) - y| * 2 ^ t ≤ 1 / 2 * 2 ^ t :=
      mul_le_mul_of_nonneg_right h.abs_roundedMantissa_sub hunit.le
    _ = 2 ^ t / 2 := by ring

end Extended

theorem exists_rounds_roundWithAccuracy {m : ℕ} {e : ℤ} {accuracy : Accuracy} {x y : ℚ}
    (hm : 2 ^ 52 ≤ m) (hy : Extends (ExtendedMantissa.ofMantissaAndAccuracy m accuracy) y)
    (hx : x = y * 2 ^ e) (hlower : 2 ^ (-200 : ℤ) ≤ x) (hupper : x ≤ 2 ^ (200 : ℤ)) :
    ∃ v, Rounds x v ∧
      IsFinite (roundWithAccuracy Format.binary64 .positive m e accuracy) v := by
  have hpos : m ≠ 0 := (Nat.lt_of_lt_of_le (by decide) hm).ne'
  obtain ⟨k, hk⟩ : ∃ k, m.log2 = 52 + k :=
    Nat.exists_eq_add_of_le ((Nat.le_log2 hpos).mpr hm)
  -- The digits in front of the point once `k` of them are dropped.
  have hdigits := hy.shiftRight k
  obtain ⟨hfirst, hlast⟩ := div_two_pow_mem hpos hk
  have hmantissa : (ExtendedMantissa.ofMantissaAndAccuracy m accuracy >>> k).mantissa =
      m / 2 ^ k := by
    rw [mantissa_shiftRight, mantissa_ofMantissaAndAccuracy]
  rw [← hmantissa] at hfirst hlast
  have hshifted : x = y / 2 ^ k * 2 ^ (e + k) := by
    rw [hx, zpow_add₀ two_ne_zero, zpow_natCast]
    field_simp
  obtain ⟨hxlower, hxupper⟩ := hdigits.scaled_mem hfirst hlast (e + k)
  rw [← hshifted] at hxlower hxupper
  obtain ⟨hleast, hgreatest⟩ := unit_mem hlower hupper hxlower hxupper
  obtain ⟨hrlower, hrupper⟩ := hdigits.roundedMantissa_mem hfirst hlast
  have hrounds := hdigits.rounds hfirst hlast (e + k)
  rw [← hshifted] at hrounds
  exact ⟨_, hrounds, isFinite_roundWithAccuracy hk hleast hgreatest rfl hrlower hrupper⟩

/-- Where digits are missing, zeros are put behind the mantissa first. -/
theorem exists_rounds_round {m : ℕ} {e : ℤ} (hm : 0 < m)
    (hlower : 2 ^ (-200 : ℤ) ≤ (m : ℚ) * 2 ^ e)
    (hupper : (m : ℚ) * 2 ^ e ≤ 2 ^ (200 : ℤ)) :
    ∃ v, Rounds (m * 2 ^ e) v ∧
      IsFinite (UnpackedFloat.round Format.binary64 .positive m e) v := by
  have hself : (2 : ℚ) ^ m.log2 ≤ m := by exact_mod_cast Nat.log2_self_le hm.ne'
  have hnext : (m : ℚ) < 2 ^ (m.log2 + 1) := by exact_mod_cast Nat.lt_log2_self
  have hunit : (0 : ℚ) < 2 ^ e := by positivity
  have hleast : -201 < m.log2 + e := by
    have hlt : (2 : ℚ) ^ 0 * 2 ^ (-200 : ℤ) < 2 ^ (m.log2 + 1) * 2 ^ e := by
      calc
        (2 : ℚ) ^ 0 * 2 ^ (-200 : ℤ) = 2 ^ (-200 : ℤ) := by rw [pow_zero, one_mul]
        _ ≤ m * 2 ^ e := hlower
        _ < 2 ^ (m.log2 + 1) * 2 ^ e := mul_lt_mul_of_pos_right hnext hunit
    have hexponent := exponent_lt_of_lt hlt
    omega
  let zeros := 52 - m.log2
  have htarget : Format.binary64.targetExponent (totalExponent m e) = m.log2 + e - 52 := by
    simp only [Format.targetExponent, totalExponent, Format.mantissaBits, Format.minExponent]
    omega
  have hshift : (e - (m.log2 + e - 52)).toNat = zeros := by omega
  have hvalue : (m : ℚ) * 2 ^ e = ((m <<< zeros : ℕ) : ℚ) * 2 ^ (e - zeros) := by
    rw [Nat.shiftLeft_eq, zpow_sub₀ two_ne_zero, zpow_natCast]
    push_cast
    field_simp
  have hlong : 2 ^ 52 ≤ m <<< zeros := by
    rw [Nat.shiftLeft_eq]
    calc
      2 ^ 52 ≤ 2 ^ (m.log2 + zeros) := Nat.pow_le_pow_right (by decide) (by omega)
      _ = 2 ^ m.log2 * 2 ^ zeros := Nat.pow_add _ _ _
      _ ≤ m * 2 ^ zeros := Nat.mul_le_mul_right _ (Nat.log2_self_le hm.ne')
  have hround : UnpackedFloat.round Format.binary64 .positive m e =
      roundWithAccuracy Format.binary64 .positive (m <<< zeros) (e - zeros) .exact := by
    simp only [UnpackedFloat.round, decreaseExponent, htarget, hshift]
  rw [hround]
  exact exists_rounds_roundWithAccuracy hlong (extends_exact _) hvalue hlower hupper

/-- Half a unit of the last digit is a small part of the number. -/
theorem Rounds.abs_sub_le {x v : ℚ} (h : Rounds x v) : |v - x| ≤ x / 2 ^ 53 := by
  obtain ⟨r, t, hlower, -, rfl, hround⟩ := h
  calc
    |r * 2 ^ t - x| ≤ 2 ^ t / 2 := hround
    _ = 2 ^ 52 * 2 ^ t / 2 ^ 53 := by ring
    _ ≤ x / 2 ^ 53 := by gcongr

/-- The unit is known from the size of the exact number. -/
theorem Rounds.exists_of_unit {x v : ℚ} (h : Rounds x v) {t : ℤ}
    (hlower : 2 ^ 52 * 2 ^ t ≤ x) (hupper : x < 2 ^ 53 * 2 ^ t) :
    ∃ r : ℕ, v = r * 2 ^ t ∧ |r * 2 ^ t - x| ≤ 2 ^ t / 2 := by
  obtain ⟨r, t', hlower', hupper', hv, hround⟩ := h
  have hunit : ∀ a b : ℤ, 2 ^ 52 * (2 : ℚ) ^ a ≤ x → x < 2 ^ 53 * 2 ^ b → a ≤ b := by
    intro a b ha hb
    have hexponent := exponent_lt_of_lt (ha.trans_lt hb)
    omega
  obtain rfl : t = t' := le_antisymm (hunit t t' hlower hupper') (hunit t' t hlower' hupper)
  exact ⟨r, hv, hround⟩

section Representable

variable {x v : ℚ} {m : ℕ} {e : ℤ}

/-- Numbers with fifty-three digits are multiples of the unit of any smaller one. -/
theorem exists_mul_unit (hm : m < 2 ^ 53) {t : ℤ} (h : 2 ^ 52 * (2 : ℚ) ^ t ≤ m * 2 ^ e) :
    ∃ n : ℕ, (m : ℚ) * 2 ^ e = n * 2 ^ t := by
  have hlt : (m : ℚ) * 2 ^ e < 2 ^ 53 * 2 ^ e :=
    mul_lt_mul_of_pos_right (by exact_mod_cast hm) (by positivity)
  have hexponent := exponent_lt_of_lt (h.trans_lt hlt)
  obtain ⟨k, hk⟩ : ∃ k : ℕ, e = k + t := ⟨(e - t).toNat, by omega⟩
  refine ⟨m * 2 ^ k, ?_⟩
  rw [hk, zpow_add₀ two_ne_zero, zpow_natCast]
  push_cast
  ring

/-- Rounding does not pass a number that needs none. -/
theorem Rounds.le_of_le (h : Rounds x v) (hm : m < 2 ^ 53) (hx : x ≤ m * 2 ^ e) :
    v ≤ m * 2 ^ e := by
  obtain ⟨r, t, hlower, -, rfl, hround⟩ := h
  obtain ⟨n, hn⟩ := exists_mul_unit hm (hlower.trans hx)
  have hunit : (0 : ℚ) < 2 ^ t := by positivity
  have hlt : (r : ℚ) < n + 1 := by
    have hle := (abs_le.mp hround).2
    rw [hn] at hx
    nlinarith
  have hle : r ≤ n := Nat.le_of_lt_succ (by exact_mod_cast hlt)
  rw [hn]
  exact mul_le_mul_of_nonneg_right (by exact_mod_cast hle) hunit.le

theorem Rounds.ge_of_ge (h : Rounds x v) (hm : m < 2 ^ 53) (hx : m * 2 ^ e ≤ x) :
    m * 2 ^ e ≤ v := by
  obtain ⟨r, t, hlower, -, rfl, hround⟩ := h
  have hunit : (0 : ℚ) < 2 ^ t := by positivity
  have hge := (abs_le.mp hround).1
  rcases le_or_gt (2 ^ 52 * (2 : ℚ) ^ t) ((m : ℚ) * 2 ^ e) with hlong | hshort
  · obtain ⟨n, hn⟩ := exists_mul_unit hm hlong
    have hlt : (n : ℚ) < r + 1 := by
      rw [hn] at hx
      nlinarith
    have hle : n ≤ r := Nat.le_of_lt_succ (by exact_mod_cast hlt)
    rw [hn]
    exact mul_le_mul_of_nonneg_right (by exact_mod_cast hle) hunit.le
  · have hlt : (2 : ℚ) ^ 52 < r + 1 := by nlinarith
    have hle : 2 ^ 52 ≤ r := Nat.le_of_lt_succ (by exact_mod_cast hlt)
    refine hshort.le.trans (mul_le_mul_of_nonneg_right ?_ hunit.le)
    exact_mod_cast hle

theorem Rounds.eq_of_representable (h : Rounds ((m : ℚ) * 2 ^ e) v) (hm : m < 2 ^ 53) :
    v = m * 2 ^ e :=
  le_antisymm (h.le_of_le hm le_rfl) (h.ge_of_ge hm le_rfl)

end Representable

end BinMatch.Numeric
