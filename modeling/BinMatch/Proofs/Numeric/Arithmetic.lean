import BinMatch.Numeric.Binary64
import BinMatch.Proofs.Numeric.Rounding

/-!
# Arithmetic of binary64 numbers

What sums, products and quotients of nonnegative binary64 numbers are as exact
numbers: the exact result, rounded once.
-/

namespace BinMatch.Numeric

open Float.Model Float.Model.UnpackedFloat

/-! ## Bits of a number -/

theorem Canonical.log2_eq {m : ℕ} {e : ℤ} (h : Canonical m e) : m.log2 = 52 :=
  log2_eq_of_mem h.lower h.upper

def exponentField (e : ℤ) : ℕ :=
  (e + 1075).toNat

theorem Canonical.exponentField_pos {m : ℕ} {e : ℤ} (h : Canonical m e) :
    0 < exponentField e := by
  have hleast := h.least
  unfold exponentField
  omega

theorem Canonical.exponentField_lt {m : ℕ} {e : ℤ} (h : Canonical m e) :
    exponentField e < 2047 := by
  have hgreatest := h.greatest
  unfold exponentField
  omega

theorem pack_finite {m : ℕ} {e : ℤ} (h : Canonical m e) :
    UnpackedFloat.pack Format.binary64 (.finite .positive m e h.pos) =
      packComponents Format.binary64 .positive (BitVec.ofNat 11 (exponentField e))
        (BitVec.ofNat 52 m) := by
  have hfield :
      (e + (Format.binary64.exponentBias : ℕ) + (52 : ℕ)).toNat = exponentField e := by
    simp only [Format.exponentBias, exponentField]
    omega
  have hfinite : ¬ 2 ^ 11 ≤ exponentField e + 1 := by
    have hlt := h.exponentField_lt
    omega
  have hnormal : m.log2 + 1 = Format.binary64.mantissaBits := by
    rw [h.log2_eq]
    rfl
  simp only [UnpackedFloat.pack, hfield, hnormal, if_neg hfinite, if_true]

theorem toNat_field {k n : ℕ} (h : n < 2 ^ k) : (BitVec.ofNat k n).toNat = n := by
  rw [BitVec.toNat_ofNat, Nat.mod_eq_of_lt h]

theorem unpack_pack_finite {m : ℕ} {e : ℤ} (h : Canonical m e) :
    UnpackedFloat.unpack Format.binary64
      (UnpackedFloat.pack Format.binary64 (.finite .positive m e h.pos)) =
        .finite .positive m e h.pos := by
  have hfield := toNat_field (k := 11) (n := exponentField e)
    (Nat.lt_succ_of_lt h.exponentField_lt)
  have hnotAllOnes : BitVec.ofNat 11 (exponentField e) ≠ -1#11 := by
    intro heq
    have hones : exponentField e = 2047 := hfield.symm.trans (congrArg BitVec.toNat heq)
    exact h.exponentField_lt.ne hones
  have hnotZero : BitVec.ofNat 11 (exponentField e) ≠ 0#11 := by
    intro heq
    have hzero : exponentField e = 0 := hfield.symm.trans (congrArg BitVec.toNat heq)
    exact h.exponentField_pos.ne' hzero
  have hmantissa : (1#1 ++ BitVec.ofNat 52 m).toNat = m := by
    have hlower := h.lower
    have hupper := h.upper
    rw [BitVec.toNat_append, ← Nat.shiftLeft_add_eq_or_of_lt (BitVec.isLt _),
      BitVec.toNat_ofNat, Nat.shiftLeft_eq]
    norm_num
    omega
  have hexponent : ((exponentField e : ℕ) : ℤ) -
      ((Format.binary64.exponentBias : ℕ) + (52 : ℕ)) = e := by
    have hleast := h.least
    simp only [Format.exponentBias, exponentField]
    omega
  rw [pack_finite h, UnpackedFloat.unpack]
  simp only [unpackMantissa_packComponents, unpackExponent_packComponents,
    unpackSign_packComponents, hnotAllOnes, hnotZero, if_false, hfield, hmantissa, hexponent]
  rfl

/-- The bits of a number read as a natural one. -/
theorem toNat_pack_finite {m : ℕ} {e : ℤ} (h : Canonical m e) :
    (UnpackedFloat.pack Format.binary64 (.finite .positive m e h.pos)).toNat =
      exponentField e * 2 ^ 52 + (m - 2 ^ 52) := by
  have hlower := h.lower
  have hupper := h.upper
  have hfield := toNat_field (k := 11) (n := exponentField e)
    (Nat.lt_succ_of_lt h.exponentField_lt)
  rw [pack_finite h, packComponents, BitVec.toNat_append,
    ← Nat.shiftLeft_add_eq_or_of_lt (BitVec.isLt _), BitVec.toNat_append,
    ← Nat.shiftLeft_add_eq_or_of_lt (BitVec.isLt _), hfield, BitVec.toNat_ofNat,
    Nat.shiftLeft_eq, Nat.shiftLeft_eq]
  simp only [Sign.toBitVec, BitVec.toNat_ofNat]
  omega

/-! ## Numbers and their values -/

/-- The exact value of a number that is neither negative nor subnormal. -/
def HasValue (u : UnpackedFloat) (v : ℚ) : Prop :=
  u = .zero .positive ∧ v = 0 ∨ IsFinite u v

/-- The exact value of a binary64 number that is neither negative nor subnormal. -/
def Represents (x : Float) (v : ℚ) : Prop :=
  ∃ u, HasValue u v ∧ x = .ofModel (.pack u)

/-- An exact result, and the number that it is rounded to; zero stays zero. -/
def RoundsTo (x v : ℚ) : Prop :=
  x = 0 ∧ v = 0 ∨ Rounds x v

/-- Far from overflow, and far from the numbers that have fewer digits. -/
def Moderate (x : ℚ) : Prop :=
  x = 0 ∨ 2 ^ (-200 : ℤ) ≤ x ∧ x ≤ 2 ^ (200 : ℤ)

theorem unpack_pack {u : UnpackedFloat} {v : ℚ} (h : HasValue u v) :
    (Float.Model.pack u).unpack = u := by
  obtain ⟨rfl, -⟩ | ⟨m, e, hcanonical, rfl, -⟩ := h
  · rfl
  · exact unpack_pack_finite hcanonical

theorem IsFinite.pos {u : UnpackedFloat} {v : ℚ} (h : IsFinite u v) : 0 < v := by
  obtain ⟨m, e, hcanonical, -, rfl⟩ := h
  have hm : (0 : ℚ) < m := by exact_mod_cast hcanonical.pos
  positivity

/-- A number that has fifty-three digits is not changed by rounding. -/
theorem IsFinite.rounds_self {u : UnpackedFloat} {v : ℚ} (h : IsFinite u v) : Rounds v v := by
  obtain ⟨m, e, hcanonical, -, rfl⟩ := h
  have hunit : (0 : ℚ) < 2 ^ e := by positivity
  refine ⟨m, e, ?_, ?_, rfl, ?_⟩
  · exact mul_le_mul_of_nonneg_right (by exact_mod_cast hcanonical.lower) hunit.le
  · exact mul_lt_mul_of_pos_right (by exact_mod_cast hcanonical.upper) hunit
  · rw [sub_self, abs_zero]
    positivity

theorem HasValue.of_rounds {u : UnpackedFloat} {x : ℚ}
    (h : ∃ v, Rounds x v ∧ IsFinite u v) : ∃ v, HasValue u v ∧ RoundsTo x v := by
  obtain ⟨v, hround, hfinite⟩ := h
  exact ⟨v, Or.inr hfinite, Or.inr hround⟩

theorem HasValue.roundsTo_self {u : UnpackedFloat} {v : ℚ} (h : HasValue u v) :
    RoundsTo v v := by
  obtain ⟨-, rfl⟩ | hfinite := h
  · exact Or.inl ⟨rfl, rfl⟩
  · exact Or.inr hfinite.rounds_self

section Operations

variable {u w : UnpackedFloat} {a b : ℚ}

theorem shiftLeft_value {m : ℕ} {e t : ℤ} (h : t ≤ e) :
    ((m <<< (e - t).toNat : ℕ) : ℚ) * 2 ^ t = m * 2 ^ e := by
  obtain ⟨k, rfl⟩ : ∃ k : ℕ, e = k + t := ⟨(e - t).toNat, by omega⟩
  have hk : ((k : ℤ) + t - t).toNat = k := by omega
  rw [hk, Nat.shiftLeft_eq, zpow_add₀ two_ne_zero, zpow_natCast]
  push_cast
  ring

theorem Moderate.of_pos {x : ℚ} (h : Moderate x) (hpos : 0 < x) :
    2 ^ (-200 : ℤ) ≤ x ∧ x ≤ 2 ^ (200 : ℤ) :=
  h.resolve_left hpos.ne'

theorem normalize_of_pos {m : ℕ} (hm : 0 < m) (e : ℤ) (s : Sign) :
    UnpackedFloat.normalize Format.binary64 (m : ℤ) e s =
      UnpackedFloat.round Format.binary64 .positive m e := by
  have hcompare : compare (m : ℤ) 0 = .gt := Int.compare_eq_gt.mpr (by omega)
  rw [UnpackedFloat.normalize, hcompare]
  rfl

theorem HasValue.add (hu : HasValue u a) (hw : HasValue w b) (hrange : Moderate (a + b)) :
    ∃ v, HasValue (UnpackedFloat.add Format.binary64 u w) v ∧ RoundsTo (a + b) v := by
  obtain ⟨rfl, rfl⟩ | hu := hu
  · rw [zero_add] at hrange ⊢
    refine ⟨b, ?_, hw.roundsTo_self⟩
    obtain ⟨rfl, rfl⟩ | ⟨m, e, hcanonical, rfl, rfl⟩ := hw
    · exact Or.inl ⟨rfl, rfl⟩
    · exact Or.inr ⟨m, e, hcanonical, rfl, rfl⟩
  obtain ⟨rfl, rfl⟩ | hw := hw
  · rw [add_zero]
    refine ⟨a, ?_, Or.inr hu.rounds_self⟩
    obtain ⟨m, e, hcanonical, rfl, rfl⟩ := hu
    exact Or.inr ⟨m, e, hcanonical, rfl, rfl⟩
  have hpos := hrange.of_pos (add_pos hu.pos hw.pos)
  obtain ⟨m, e, hm, rfl, rfl⟩ := hu
  obtain ⟨n, f, hn, rfl, rfl⟩ := hw
  let t := min e f
  let sum := m <<< (e - t).toNat + n <<< (f - t).toNat
  have hvalue : (m : ℚ) * 2 ^ e + n * 2 ^ f = (sum : ℕ) * 2 ^ t := by
    calc
      (m : ℚ) * 2 ^ e + n * 2 ^ f =
          (m <<< (e - t).toNat : ℕ) * 2 ^ t + (n <<< (f - t).toNat : ℕ) * 2 ^ t := by
        rw [shiftLeft_value (min_le_left e f), shiftLeft_value (min_le_right e f)]
      _ = (sum : ℕ) * 2 ^ t := by rw [← add_mul, ← Nat.cast_add]
  have hsum : 0 < sum := by
    apply Nat.add_pos_left
    rw [Nat.shiftLeft_eq]
    exact Nat.mul_pos hm.pos (Nat.two_pow_pos _)
  have hadd : UnpackedFloat.add Format.binary64 (.finite .positive m e hm.pos)
      (.finite .positive n f hn.pos) =
        UnpackedFloat.normalize Format.binary64 (sum : ℕ) t .positive := by
    simp only [UnpackedFloat.add, decreaseExponent, Sign.apply]
    rfl
  rw [hadd, normalize_of_pos hsum, hvalue]
  rw [hvalue] at hpos
  exact HasValue.of_rounds (exists_rounds_round hsum hpos.1 hpos.2)

theorem HasValue.mul (hu : HasValue u a) (hw : HasValue w b) (hrange : Moderate (a * b)) :
    ∃ v, HasValue (UnpackedFloat.mul Format.binary64 u w) v ∧ RoundsTo (a * b) v := by
  obtain ⟨rfl, rfl⟩ | hu := hu
  · refine ⟨0, Or.inl ⟨?_, rfl⟩, Or.inl ⟨zero_mul b, rfl⟩⟩
    obtain ⟨rfl, -⟩ | ⟨n, f, hn, rfl, -⟩ := hw <;> rfl
  obtain ⟨rfl, rfl⟩ | hw := hw
  · refine ⟨0, Or.inl ⟨?_, rfl⟩, Or.inl ⟨mul_zero a, rfl⟩⟩
    obtain ⟨m, e, hm, rfl, -⟩ := hu
    rfl
  have hpos := hrange.of_pos (mul_pos hu.pos hw.pos)
  obtain ⟨m, e, hm, rfl, rfl⟩ := hu
  obtain ⟨n, f, hn, rfl, rfl⟩ := hw
  have hlong : 2 ^ 52 ≤ m * n := Nat.le_trans hm.lower (Nat.le_mul_of_pos_right m hn.pos)
  have hvalue : (m : ℚ) * 2 ^ e * (n * 2 ^ f) = (m * n : ℕ) * 2 ^ (e + f) := by
    rw [zpow_add₀ two_ne_zero]
    push_cast
    ring
  exact HasValue.of_rounds
    (exists_rounds_roundWithAccuracy hlong (extends_exact _) hvalue hpos.1 hpos.2)

theorem quotient_value {m n digits : ℕ} (hdigits : digits = m * 2 ^ 53) (hn : 0 < n) (e f : ℤ) :
    (m : ℚ) * 2 ^ e / (n * 2 ^ f) =
      ((digits / n : ℕ) + (digits % n : ℕ) / n) * 2 ^ (e - f - 53) := by
  have hn' : (0 : ℚ) < n := by exact_mod_cast hn
  have hdivision : (n : ℚ) * (digits / n : ℕ) + (digits % n : ℕ) = m * 2 ^ 53 := by
    rw [hdigits]
    exact_mod_cast Nat.div_add_mod (m * 2 ^ 53) n
  have hquotient : ((digits / n : ℕ) : ℚ) + (digits % n : ℕ) / n = m * 2 ^ 53 / n := by
    rw [← hdivision]
    field_simp
  rw [hquotient, zpow_sub₀ two_ne_zero, zpow_sub₀ two_ne_zero]
  field_simp

theorem exponent_of_quotient {m n : ℕ} {e f : ℤ} (hm : Canonical m e) (hn : Canonical n f)
    (h : 2 ^ (-200 : ℤ) ≤ (m : ℚ) * 2 ^ e / (n * 2 ^ f)) : -201 < e - f := by
  have hn' : (0 : ℚ) < n := by exact_mod_cast hn.pos
  have hlt : (2 : ℚ) ^ 0 * 2 ^ (-200 : ℤ) < 2 ^ 1 * 2 ^ (e - f) := by
    calc
      (2 : ℚ) ^ 0 * 2 ^ (-200 : ℤ) ≤ m * 2 ^ e / (n * 2 ^ f) := by
        rw [pow_zero, one_mul]
        exact h
      _ = m / n * 2 ^ (e - f) := by
        rw [zpow_sub₀ two_ne_zero]
        field_simp
      _ < 2 ^ 1 * 2 ^ (e - f) := by
        refine mul_lt_mul_of_pos_right ?_ (by positivity)
        rw [div_lt_iff₀ hn']
        have hupper := hm.upper
        have hlower := hn.lower
        exact_mod_cast (by omega : m < 2 ^ 1 * n)
  have hexponent := exponent_lt_of_lt hlt
  omega

theorem HasValue.div (hu : HasValue u a) (hw : IsFinite w b) (hrange : Moderate (a / b)) :
    ∃ v, HasValue (UnpackedFloat.div Format.binary64 u w) v ∧ RoundsTo (a / b) v := by
  obtain ⟨rfl, rfl⟩ | hu := hu
  · refine ⟨0, Or.inl ⟨?_, rfl⟩, Or.inl ⟨zero_div b, rfl⟩⟩
    obtain ⟨n, f, hn, rfl, -⟩ := hw
    rfl
  have hpos := hrange.of_pos (div_pos hu.pos hw.pos)
  obtain ⟨m, e, hm, rfl, rfl⟩ := hu
  obtain ⟨n, f, hn, rfl, rfl⟩ := hw
  have hleast := exponent_of_quotient hm hn hpos.1
  -- Fifty-three more digits in front of the division leave at least as many behind it.
  let digits := m <<< 53
  have hdigits : digits = m * 2 ^ 53 := Nat.shiftLeft_eq m 53
  have hlong : 2 ^ 52 ≤ digits / n := by
    rw [Nat.le_div_iff_mul_le hn.pos, hdigits]
    exact Nat.mul_le_mul hm.lower hn.upper.le
  have htarget : min (e - f) (Format.binary64.targetExponent
      (totalExponent m e - totalExponent n f)) = e - f - 53 := by
    simp only [Format.targetExponent, totalExponent, Format.mantissaBits, Format.minExponent,
      hm.log2_eq, hn.log2_eq]
    omega
  have hshift : (e - f - (e - f - 53)).toNat = 53 := by omega
  have hdiv : UnpackedFloat.div Format.binary64 (.finite .positive m e hm.pos)
      (.finite .positive n f hn.pos) =
        roundWithAccuracy Format.binary64 .positive (digits / n) (e - f - 53)
          (accuracyOfFraction (digits % n) n) := by
    simp only [UnpackedFloat.div, divCore, htarget, hshift]
    rfl
  rw [hdiv]
  exact HasValue.of_rounds (exists_rounds_roundWithAccuracy hlong
    (extends_accuracyOfFraction _ (Nat.mod_lt _ hn.pos)) (quotient_value hdigits hn.pos e f)
    hpos.1 hpos.2)

end Operations

/-! ## Arithmetic -/

section Arithmetic

variable {x y : Float} {a b : ℚ}

theorem Represents.add (hx : Represents x a) (hy : Represents y b) (hrange : Moderate (a + b)) :
    ∃ v, Represents (x + y) v ∧ RoundsTo (a + b) v := by
  obtain ⟨u, hu, rfl⟩ := hx
  obtain ⟨w, hw, rfl⟩ := hy
  obtain ⟨v, hv, hround⟩ := hu.add hw hrange
  refine ⟨v, ⟨_, hv, ?_⟩, hround⟩
  show Float.ofModel (.pack (UnpackedFloat.add _ (Float.Model.pack u).unpack
    (Float.Model.pack w).unpack)) = _
  rw [unpack_pack hu, unpack_pack hw]

theorem Represents.mul (hx : Represents x a) (hy : Represents y b) (hrange : Moderate (a * b)) :
    ∃ v, Represents (x * y) v ∧ RoundsTo (a * b) v := by
  obtain ⟨u, hu, rfl⟩ := hx
  obtain ⟨w, hw, rfl⟩ := hy
  obtain ⟨v, hv, hround⟩ := hu.mul hw hrange
  refine ⟨v, ⟨_, hv, ?_⟩, hround⟩
  show Float.ofModel (.pack (UnpackedFloat.mul _ (Float.Model.pack u).unpack
    (Float.Model.pack w).unpack)) = _
  rw [unpack_pack hu, unpack_pack hw]

theorem Represents.div (hx : Represents x a) (hy : Represents y b) (hb : b ≠ 0)
    (hrange : Moderate (a / b)) : ∃ v, Represents (x / y) v ∧ RoundsTo (a / b) v := by
  obtain ⟨u, hu, rfl⟩ := hx
  obtain ⟨w, hw, rfl⟩ := hy
  have hfinite : IsFinite w b := hw.resolve_left fun hzero => hb hzero.2
  obtain ⟨v, hv, hround⟩ := hu.div hfinite hrange
  refine ⟨v, ⟨_, hv, ?_⟩, hround⟩
  show Float.ofModel (.pack (UnpackedFloat.div _ (Float.Model.pack u).unpack
    (Float.Model.pack w).unpack)) = _
  rw [unpack_pack hu, unpack_pack hw]

end Arithmetic

/-! ## Rounded results -/

/-- Zero, or at least a power of two. -/
def ZeroOrFrom (e : ℤ) (x : ℚ) : Prop :=
  x = 0 ∨ 2 ^ e ≤ x

namespace ZeroOrFrom

variable {e : ℤ} {a b x : ℚ} {n : ℕ}

theorem nonneg (h : ZeroOrFrom e x) : 0 ≤ x := by
  obtain rfl | hx := h
  · exact le_rfl
  · exact le_trans (by positivity) hx

theorem natCast (n : ℕ) : ZeroOrFrom 0 (n : ℚ) := by
  rcases Nat.eq_zero_or_pos n with rfl | hpos
  · exact Or.inl Nat.cast_zero
  · right
    rw [zpow_zero]
    exact_mod_cast hpos

theorem add (ha : ZeroOrFrom e a) (hb : ZeroOrFrom e b) : ZeroOrFrom e (a + b) := by
  have hnonneg := ha.nonneg
  obtain rfl | hb := hb
  · rwa [add_zero]
  · right
    linarith

theorem mul_natCast (h : ZeroOrFrom e x) (hn : 0 < n) : ZeroOrFrom e (x * n) := by
  have hone : (1 : ℚ) ≤ n := by exact_mod_cast hn
  have hnonneg := h.nonneg
  obtain rfl | hx := h
  · exact Or.inl (zero_mul _)
  · right
    exact hx.trans (le_mul_of_one_le_right hnonneg hone)

theorem div_natCast (h : ZeroOrFrom e x) (hn : 0 < n) (hupper : n < 2 ^ 53) :
    ZeroOrFrom (e - 53) (x / n) := by
  have hpos : (0 : ℚ) < n := by exact_mod_cast hn
  have hle : (n : ℚ) ≤ 2 ^ 53 := by exact_mod_cast hupper.le
  obtain rfl | hx := h
  · exact Or.inl (zero_div _)
  · right
    rw [le_div_iff₀ hpos]
    calc
      (2 : ℚ) ^ (e - 53) * n ≤ 2 ^ (e - 53) * 2 ^ 53 :=
        mul_le_mul_of_nonneg_left hle (by positivity)
      _ = 2 ^ e := by
        rw [zpow_sub₀ two_ne_zero]
        field_simp
      _ ≤ x := hx

theorem moderate (h : ZeroOrFrom e x) (he : -200 ≤ e) (hx : x ≤ 2 ^ (200 : ℤ)) :
    Moderate x := by
  obtain rfl | hfrom := h
  · exact Or.inl rfl
  · right
    exact ⟨(zpow_le_zpow_right₀ one_le_two he).trans hfrom, hx⟩

end ZeroOrFrom

theorem natCast_le_two_pow {n : ℕ} (hn : n < 2 ^ 53) : (n : ℚ) ≤ 2 ^ (200 : ℤ) := by
  have hlast : (n : ℚ) < 2 ^ 53 := by exact_mod_cast hn
  refine hlast.le.trans ?_
  norm_num

theorem moderate_natCast {n : ℕ} (hn : n < 2 ^ 53) : Moderate n :=
  (ZeroOrFrom.natCast n).moderate (by decide) (natCast_le_two_pow hn)

/-- A natural number as a multiple of the unit of its last digit. -/
theorem natCast_eq_mul_unit (n : ℕ) : (n : ℚ) = n * 2 ^ (0 : ℤ) := by
  rw [zpow_zero, mul_one]

section RoundsTo

variable {x v : ℚ}

theorem RoundsTo.abs_sub_le (h : RoundsTo x v) : |v - x| ≤ x / 2 ^ 53 := by
  obtain ⟨rfl, rfl⟩ | hround := h
  · simp
  · exact hround.abs_sub_le

theorem RoundsTo.exists_of_unit (h : RoundsTo x v) {t : ℤ} (hlower : 2 ^ 52 * 2 ^ t ≤ x)
    (hupper : x < 2 ^ 53 * 2 ^ t) :
    ∃ r : ℕ, v = r * 2 ^ t ∧ |r * 2 ^ t - x| ≤ 2 ^ t / 2 := by
  obtain ⟨rfl, -⟩ | hround := h
  · have hpos : (0 : ℚ) < 2 ^ 52 * 2 ^ t := by positivity
    exact absurd hlower hpos.not_ge
  · exact hround.exists_of_unit hlower hupper

theorem RoundsTo.le_natCast (h : RoundsTo x v) {n : ℕ} (hn : n < 2 ^ 53) (hx : x ≤ n) :
    v ≤ n := by
  obtain ⟨rfl, rfl⟩ | hround := h
  · exact hx
  · rw [natCast_eq_mul_unit] at hx ⊢
    exact hround.le_of_le hn hx

/-- Natural numbers with fifty-three digits at most need no rounding. -/
theorem RoundsTo.eq_natCast {n : ℕ} (h : RoundsTo (n : ℚ) v) (hn : n < 2 ^ 53) : v = n := by
  obtain ⟨hzero, rfl⟩ | hround := h
  · exact hzero.symm
  · rw [natCast_eq_mul_unit] at hround ⊢
    exact hround.eq_of_representable hn

theorem RoundsTo.zeroOrFrom (h : RoundsTo x v) {e : ℤ} (hx : ZeroOrFrom e x) :
    ZeroOrFrom e v := by
  obtain ⟨-, rfl⟩ | hround := h
  · exact Or.inl rfl
  · obtain rfl | hfrom := hx
    · left
      simpa using hround.abs_sub_le
    · right
      have hself : (2 : ℚ) ^ e = (1 : ℕ) * 2 ^ e := by rw [Nat.cast_one, one_mul]
      rw [hself] at hfrom ⊢
      exact hround.ge_of_ge (by decide) hfrom

/-- Rounding does not change a number that a binary64 number stands for. -/
theorem RoundsTo.eq_of_represents (h : RoundsTo x v) {y : Float} (hy : Represents y x) :
    v = x := by
  obtain ⟨rfl, rfl⟩ | hround := h
  · rfl
  · obtain ⟨u, ⟨-, rfl⟩ | ⟨m, e, hcanonical, -, rfl⟩, -⟩ := hy
    · simpa using hround.abs_sub_le
    · exact hround.eq_of_representable hcanonical.upper

end RoundsTo

theorem Represents.roundsTo_self {y : Float} {v : ℚ} (h : Represents y v) : RoundsTo v v := by
  obtain ⟨u, hu, -⟩ := h
  exact hu.roundsTo_self

/-! ## Natural numbers -/

theorem represents_zero : Represents 0.0 0 :=
  ⟨.zero .positive, Or.inl ⟨rfl, rfl⟩, by decide +kernel⟩

theorem canonical_one : Canonical (2 ^ 52) (-52) := by
  constructor <;> norm_num

theorem represents_one : Represents 1.0 1 :=
  ⟨_, Or.inr ⟨2 ^ 52, -52, canonical_one, rfl, by norm_num⟩, by decide +kernel⟩

theorem represents_ofNat {n : ℕ} (hn : n < 2 ^ 53) : Represents (Float.ofNat n) n := by
  have hword : n.toUInt64.toNat = n := by
    rw [Nat.toUInt64, UInt64.toNat_ofNat']
    exact Nat.mod_eq_of_lt (by omega)
  have hinteger : Represents n.toUInt64.toFloat n := by
    refine ⟨UnpackedFloat.normalize Format.binary64 (n : ℤ) 0 .positive, ?_, ?_⟩
    · rcases Nat.eq_zero_or_pos n with rfl | hpos
      · exact Or.inl ⟨rfl, Nat.cast_zero⟩
      · have hrange := (moderate_natCast hn).of_pos (by exact_mod_cast hpos)
        rw [natCast_eq_mul_unit] at hrange
        obtain ⟨v, hround, hfinite⟩ := exists_rounds_round hpos hrange.1 hrange.2
        rw [normalize_of_pos hpos, natCast_eq_mul_unit, ← hround.eq_of_representable hn]
        exact Or.inr hfinite
    · show Float.ofModel (.pack
        (UnpackedFloat.normalize Format.binary64 (n.toUInt64.toNat : ℤ) 0 .positive)) = _
      rw [hword]
  have hone : Represents (Float.ofBits 0x3FF0000000000000) 1 :=
    ⟨_, Or.inr ⟨2 ^ 52, -52, canonical_one, rfl, by norm_num⟩, by decide +kernel⟩
  have hproduct : Float.ofNat n = n.toUInt64.toFloat * Float.ofBits 0x3FF0000000000000 := by
    show Float.ofScientific n false 0 = _
    rw [Float.ofScientific, dif_pos ⟨hn, by decide⟩]
    rfl
  obtain ⟨v, hv, hround⟩ := hinteger.mul hone (by rw [mul_one]; exact moderate_natCast hn)
  rw [mul_one] at hround
  rwa [hproduct, ← hround.eq_natCast hn]

end BinMatch.Numeric
