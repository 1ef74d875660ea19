import BinMatch.Proofs.Numeric.Arithmetic
import BinMatch.Proofs.Text.Pieces
import BinMatch.Text.Notation

/-!
# Which ratios are shown as a full percentage

A ratio is shown as one hundred per cent exactly from 0.9995 on, although it is rounded
twice on the way, to a binary64 number and to a tenth of a per cent.
-/

namespace BinMatch

namespace Numeric.FiniteFloat

open Float.Model Float.Model.UnpackedFloat

/-- A number is read back from its bits. -/
theorem ofFloat?_finite {m : ℕ} {e : ℤ} (h : Canonical m e) :
    ofFloat? (.ofModel (.pack (.finite .positive m e h.pos))) =
      some { negative := false, significand := m, exponent := e } := by
  have hlower := h.lower
  have hupper := h.upper
  have hleast := h.least
  have hpos := h.exponentField_pos
  have hlt := h.exponentField_lt
  have hbits : (Float.ofModel (.pack (.finite .positive m e h.pos))).toBits.toNat =
      exponentField e * exponentUnit + (m - exponentUnit) := toNat_pack_finite h
  have hfield : (exponentField e * exponentUnit + (m - exponentUnit)) / exponentUnit % 2048 =
      exponentField e := by
    simp only [exponentUnit]
    omega
  have hfraction : (exponentField e * exponentUnit + (m - exponentUnit)) % exponentUnit =
      m - exponentUnit := by
    simp only [exponentUnit]
    omega
  have hsign : ¬ signUnit ≤ exponentField e * exponentUnit + (m - exponentUnit) := by
    simp only [exponentUnit, signUnit]
    omega
  have hsignificand : exponentUnit + (m - exponentUnit) = m := by
    simp only [exponentUnit]
    omega
  have hexponent : ((max (exponentField e) 1 : ℕ) : ℤ) - 1075 = e := by
    simp only [exponentField]
    omega
  simp only [ofFloat?, ofBits?, hbits, hfield, hfraction, if_neg hlt.ne, if_neg hpos.ne',
    hsignificand, hexponent, hsign, decide_false]

theorem ofFloat?_zero :
    ofFloat? (.ofModel (.pack (.zero .positive))) =
      some { negative := false, significand := 0, exponent := -1074 } := by
  decide +kernel

end Numeric.FiniteFloat

namespace Text.Percent

open Numeric

/-- A quotient is rounded to an even number exactly within half a unit of it. -/
theorem roundQuotient_eq_iff {num den n : ℕ} (hden : 0 < den) (hpos : 0 < n) (heven : n % 2 = 0) :
    roundQuotient num den = n ↔
      2 * (den * n) ≤ 2 * num + den ∧ 2 * num ≤ 2 * (den * n) + den := by
  have hdivision := Nat.div_add_mod num den
  have hrest := Nat.mod_lt num hden
  simp only [roundQuotient]
  generalize num / den = q at *
  generalize num % den = r at *
  simp only [Bool.or_eq_true, Bool.and_eq_true, decide_eq_true_eq]
  constructor
  · intro h
    split at h
    · subst h
      omega
    · subst h
      rw [Nat.mul_succ]
      omega
  · rintro ⟨hlower, hupper⟩
    have hle : q ≤ n := by
      apply Nat.le_of_lt_succ
      apply Nat.lt_of_mul_lt_mul_left (a := den)
      rw [Nat.mul_succ]
      omega
    have hge : n ≤ q + 1 := by
      apply Nat.le_of_lt_succ
      apply Nat.lt_of_mul_lt_mul_left (a := den)
      rw [Nat.mul_succ, Nat.mul_succ]
      omega
    rcases Nat.eq_or_lt_of_le hle with rfl | hlt
    · rw [if_pos (by omega)]
    · obtain rfl : n = q + 1 := by omega
      rw [Nat.mul_succ] at hlower hupper
      rw [if_neg (by omega)]

theorem ofTenths_inj {m n : ℕ} : ofTenths m = ofTenths n ↔ m = n := by
  refine ⟨fun h => ?_, congrArg ofTenths⟩
  have hpoint : ∀ k : ℕ, '.' ∉ (toString k).toList := by
    intro k hk
    rw [Nat.toString_eq_repr, Nat.toList_repr] at hk
    exact absurd (Nat.isDigit_of_mem_toDigits (by decide) (by decide) hk) (by decide)
  have hhead : ∀ k : ℕ, ∀ c ∈ ("." ++ toString k).toList.head?, c = '.' := by
    intro k c hc
    rw [String.toList_append] at hc
    exact (Option.some.inj hc).symm
  simp only [ofTenths, String.append_assoc] at h
  obtain ⟨hunits, hdigit⟩ := append_inj_of_stop (hpoint _) (hpoint _) (hhead _) (hhead _) h
  rw [String.append_right_inj] at hdigit
  have hten := toString_inj.mp hunits
  have hone := toString_inj.mp hdigit
  omega

/-- The text of a percentage that a binary64 number stands for. -/
def textOf (percentage : Float) : String :=
  match FiniteFloat.ofFloat? percentage with
  | some d => ofTenths (tenths d) ++ "%"
  | none => "-"

theorem ofRatio_eq_textOf (ratio : Float) : ofRatio ratio = textOf (ratio * 100) := rfl

theorem textOf_eq_full_iff {y : Float} {d : FiniteFloat} (h : FiniteFloat.ofFloat? y = some d) :
    textOf y = "100.0%" ↔ tenths d = 1000 := by
  have hfull : "100.0%" = ofTenths 1000 ++ "%" := by decide
  rw [textOf, h, hfull, String.append_left_inj, ofTenths_inj]

theorem tenths_eq_full_iff {m : ℕ} {e : ℤ} (hm : 2 ^ 52 ≤ m)
    (hw : (m : ℚ) * 2 ^ e ≤ 100) :
    tenths { negative := false, significand := m, exponent := e } = 1000 ↔
      1999 / 20 ≤ (m : ℚ) * 2 ^ e := by
  have hnegative : e < 0 := by
    have hlong : (2 : ℚ) ^ 52 ≤ m := by exact_mod_cast hm
    have hlt : (2 : ℚ) ^ 52 * 2 ^ e < 2 ^ 7 * 2 ^ (0 : ℤ) := by
      calc
        (2 : ℚ) ^ 52 * 2 ^ e ≤ m * 2 ^ e := mul_le_mul_of_nonneg_right hlong (by positivity)
        _ ≤ 100 := hw
        _ < 2 ^ 7 * 2 ^ (0 : ℤ) := by norm_num
    have hexponent := exponent_lt_of_lt hlt
    omega
  obtain ⟨k, rfl⟩ : ∃ k : ℕ, e = -k := ⟨(-e).toNat, by omega⟩
  have hunit : (0 : ℚ) < 2 ^ k := by positivity
  have hvalue : (m : ℚ) * 2 ^ (-(k : ℤ)) = m / 2 ^ k := by
    rw [zpow_neg, zpow_natCast, div_eq_mul_inv]
  have htenths : tenths { negative := false, significand := m, exponent := -(k : ℤ) } =
      roundQuotient (10 * m) (2 ^ k) := by
    rw [tenths, if_neg (by omega : ¬ (0 : ℤ) ≤ -(k : ℤ))]
    simp only [neg_neg, Int.toNat_natCast, Nat.pow_eq]
  rw [hvalue, div_le_iff₀ hunit] at hw
  rw [htenths, roundQuotient_eq_iff (Nat.two_pow_pos k) (by decide) (by decide), hvalue,
    le_div_iff₀ hunit]
  have hnat : (m : ℚ) ≤ 100 * 2 ^ k ↔ m ≤ 100 * 2 ^ k := by norm_cast
  have hbound := hnat.mp hw
  have hcast : 1999 / 20 * (2 : ℚ) ^ k ≤ m ↔ 1999 * 2 ^ k ≤ 20 * m := by
    rw [div_mul_eq_mul_div, div_le_iff₀ (by norm_num)]
    norm_cast
    rw [Nat.mul_comm m 20]
  rw [hcast]
  omega

theorem textOf_eq_iff {y : Float} {w : ℚ} (hy : Represents y w) (hw : w ≤ 100) :
    textOf y = "100.0%" ↔ 1999 / 20 ≤ w := by
  obtain ⟨u, ⟨rfl, rfl⟩ | ⟨m, e, hcanonical, rfl, rfl⟩, rfl⟩ := hy
  · rw [textOf_eq_full_iff FiniteFloat.ofFloat?_zero]
    norm_num
    decide +kernel
  · rw [textOf_eq_full_iff (FiniteFloat.ofFloat?_finite hcanonical)]
    exact tenths_eq_full_iff hcanonical.lower hw

/-! ## The two roundings -/

/-- Binary64 numbers between a half and one are multiples of one unit. -/
theorem exists_units {x : Float} {v : ℚ} (hx : Represents x v) (hhalf : 1 / 2 ≤ v) :
    ∃ n : ℕ, v = n * 2 ^ (-53 : ℤ) := by
  obtain ⟨u, ⟨-, rfl⟩ | ⟨m, e, hcanonical, -, rfl⟩, -⟩ := hx
  · norm_num at hhalf
  · apply exists_mul_unit hcanonical.upper
    calc
      2 ^ 52 * (2 : ℚ) ^ (-53 : ℤ) = 1 / 2 := by norm_num
      _ ≤ m * 2 ^ e := hhalf

/-- A bound between two neighbouring multiples of a unit is reached by those that are greater
than the last one below it. -/
theorem reaches_iff {q : ℚ} (last k n : ℕ) (hbelow : (last : ℚ) < q * 2 ^ k)
    (habove : q * 2 ^ k ≤ last + 1) : q ≤ (n : ℚ) * 2 ^ (-(k : ℤ)) ↔ last < n := by
  have hunit : (0 : ℚ) < 2 ^ k := by positivity
  rw [zpow_neg, zpow_natCast, ← div_eq_mul_inv, le_div_iff₀ hunit]
  constructor
  · intro hreach
    exact_mod_cast hbelow.trans_le hreach
  · intro hlt
    have hle : (last : ℚ) + 1 ≤ n := by exact_mod_cast hlt
    exact habove.trans hle

/-- Ratios that are not below 0.9995, in units. -/
theorem units_reach_iff (n : ℕ) :
    1999 / 2000 ≤ (n : ℚ) * 2 ^ (-53 : ℤ) ↔ 9002695655113621 < n :=
  reaches_iff 9002695655113621 53 n (by norm_num) (by norm_num)

/-- Percentages that are not below 99.95, in units. -/
theorem percentUnits_reach_iff (n : ℕ) :
    1999 / 20 ≤ (n : ℚ) * 2 ^ (-46 : ℤ) ↔ 7033355980557516 < n :=
  reaches_iff 7033355980557516 46 n (by norm_num) (by norm_num)

/-- Rounded to a binary64 number, one hundred times a ratio reaches 99.95 exactly if the
ratio reaches 0.9995. -/
theorem percentage_reaches_iff {x : Float} {v w : ℚ} (hx : Represents x v) (hv : v ≤ 1)
    (hround : RoundsTo (v * 100) w) : 1999 / 20 ≤ w ↔ 1999 / 2000 ≤ v := by
  rcases lt_or_ge v (16 / 25) with hsmall | hlarge
  · have hw : w ≤ (64 : ℕ) := hround.le_natCast (by decide) (by push_cast; linarith)
    push_cast at hw
    constructor <;> intro hreach <;> linarith
  obtain ⟨n, hn⟩ := exists_units hx (by linarith)
  obtain ⟨r, hr, herror⟩ := hround.exists_of_unit (t := -46)
    (by norm_num; linarith) (by norm_num; linarith)
  have hpercentUnit : (2 : ℚ) ^ (-46 : ℤ) = 1 / 2 ^ 46 := by norm_num
  have hunit : (2 : ℚ) ^ (-53 : ℤ) = 1 / 2 ^ 53 := by norm_num
  rw [hr, percentUnits_reach_iff, hn, units_reach_iff]
  rw [hn, hpercentUnit, hunit] at herror
  obtain ⟨hbelow, habove⟩ := abs_le.mp herror
  constructor
  · intro hreach
    have hle : (7033355980557516 : ℚ) + 1 ≤ r := by exact_mod_cast hreach
    have hlt : (9002695655113621 : ℚ) < n := by linarith
    exact_mod_cast hlt
  · intro hreach
    have hle : (9002695655113621 : ℚ) + 1 ≤ n := by exact_mod_cast hreach
    have hlt : (7033355980557516 : ℚ) < r := by linarith
    exact_mod_cast hlt

theorem ofRatio_eq_full_iff {x : Float} {v : ℚ} (hx : Represents x v)
    {e : ℤ} (he : -200 ≤ e) (hfrom : ZeroOrFrom e v) (hv : v ≤ 1) :
    ofRatio x = "100.0%" ↔ 1999 / 2000 ≤ v := by
  have hrange : Moderate (v * (100 : ℕ)) :=
    (hfrom.mul_natCast (by decide)).moderate he (by norm_num; linarith)
  obtain ⟨w, hw, hround⟩ := hx.mul (represents_ofNat (n := 100) (by decide)) hrange
  have hle : w ≤ (100 : ℕ) := hround.le_natCast (by decide) (by push_cast; linarith)
  have htext : textOf (x * 100) = "100.0%" ↔ 1999 / 20 ≤ w :=
    textOf_eq_iff hw (by exact_mod_cast hle)
  rw [ofRatio_eq_textOf, htext, percentage_reaches_iff hx hv hround]

end Text.Percent

end BinMatch
