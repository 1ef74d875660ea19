import BinMatch.Proofs.Diff.Ratio
import BinMatch.Proofs.Numeric.Error
import BinMatch.Proofs.Report.Aggregate

/-!
# Means of ratios

A mean over a subtree is computed with one rounding for every addition and one for the
division.  It stays close to the exact mean, and it is exactly one where every function
matches.
-/

namespace BinMatch

open Numeric

namespace FunctionReport

variable {r : FunctionReport} {d : Diff.TextDiff}

theorem ratio_of_result (hd : d ∈ r.result) : r.ratio = d.ratio := by
  have hresult : r.result = some d := hd
  rw [FunctionReport.ratio, hresult]

theorem exactRatio_of_result (hd : d ∈ r.result) : r.exactRatio = d.exactRatio := by
  have hresult : r.result = some d := hd
  rw [FunctionReport.exactRatio, hresult]

end FunctionReport

namespace Report.Node

section Related

variable {ρ σ : Type}

/-- Sums over `a` and over `b` functions that are related add up to related ones, as long as
there are no more functions than `bound`. -/
def Additive (bound : ℕ) (P : ℕ → ρ → σ → Prop)
    (add : ρ → ρ → ρ) (add' : σ → σ → σ) : Prop :=
  ∀ {a b s t s' t'}, a + b ≤ bound → P a s s' → P b t t' →
    P (a + b) (add s t) (add' s' t')

variable {bound : ℕ} {P : ℕ → ρ → σ → Prop} {zero : ρ} {add : ρ → ρ → ρ}
  {own : FunctionReport → ρ}
  {zero' : σ} {add' : σ → σ → σ} {own' : FunctionReport → σ}

theorem related_foldl (hadd : Additive bound P add add') {rs : List FunctionReport}
    (hown : ∀ r ∈ rs, P 1 (own r) (own' r)) {a : ℕ} {s : ρ} {s' : σ}
    (hbound : a + rs.length ≤ bound) (hs : P a s s') :
    P (a + rs.length) (rs.foldl (fun s r => add s (own r)) s)
      (rs.foldl (fun s r => add' s (own' r)) s') := by
  induction rs generalizing a s s' with
  | nil => exact hs
  | cons r rs ih =>
    rw [List.forall_mem_cons] at hown
    rw [List.length_cons] at hbound
    have hnext := hadd (by omega) hs hown.1
    have hrest := ih hown.2 (by omega) hnext
    rwa [List.length_cons, Nat.add_comm rs.length 1, ← Nat.add_assoc]

theorem related_sumOnto (hadd : Additive bound P add add') {ns : List Node}
    (hsum : ∀ c ∈ ns, c.total ≤ bound →
      P c.total (c.sum zero add own) (c.sum zero' add' own')) {a : ℕ} {s : ρ} {s' : σ}
    (hbound : a + totalOf ns ≤ bound) (hs : P a s s') :
    P (a + totalOf ns) (sumOnto zero add own s ns) (sumOnto zero' add' own' s' ns) := by
  induction ns generalizing a s s' with
  | nil => exact hs
  | cons c ns ih =>
    rw [List.forall_mem_cons] at hsum
    rw [totalOf] at hbound
    have hnext := hadd (by omega) hs (hsum.1 (by omega))
    have hrest := ih hsum.2 (by omega) hnext
    rw [totalOf, ← Nat.add_assoc]
    exact hrest

/-- Two kinds of sums over a subtree stay related if one function and one addition keep
them so. -/
theorem related_sum (hzero : P 0 zero zero') (hadd : Additive bound P add add') {n : Node}
    (hown : ∀ r ∈ n.allFunctions, P 1 (own r) (own' r)) (hbound : n.total ≤ bound) :
    P n.total (n.sum zero add own) (n.sum zero' add' own') := by
  induction n using Node.induction with
  | h key functions children ih =>
    rw [allFunctions_mk] at hown
    have hchildren : ∀ c ∈ children, c.total ≤ bound →
        P c.total (c.sum zero add own) (c.sum zero' add' own') := by
      intro c hc htotal
      apply ih c hc (fun r hr => hown r ?_) htotal
      exact List.mem_append_right _ (List.mem_flatMap.mpr ⟨c, List.mem_reverse.mpr hc, hr⟩)
    rw [total] at hbound
    have hfunctions := related_foldl (a := 0) hadd
      (fun r hr => hown r (List.mem_append_left _ hr)) (by omega) hzero
    rw [Nat.zero_add] at hfunctions
    exact related_sumOnto hadd hchildren hbound hfunctions

end Related

end Report.Node

/-- The result of the function has few enough lines for them to be counted by binary64
numbers, and no more of them match than there are. -/
def FunctionReport.Countable (r : FunctionReport) : Prop :=
  ∀ d ∈ r.result, 2 * d.matchingLines ≤ d.totalLines ∧ d.totalLines < 2 ^ 50

namespace Report

/-- What a sum of binary64 numbers over `n` functions has to do with the exact sum. -/
def Sums (n : ℕ) (s : ℚ) (x : Float) : Prop :=
  ∃ v, Represents x v ∧ ZeroOrFrom (-53) v ∧ v ≤ n ∧ 0 ≤ s ∧ Close n s v

theorem sums_zero : Sums 0 0 0.0 :=
  ⟨0, represents_zero, Or.inl rfl, by norm_num, le_rfl, close_zero_iff.mpr rfl⟩

theorem eq_zero_of_close {e : ℤ} {s v : ℚ} (hfrom : ZeroOrFrom e v) (hle : v ≤ (0 : ℕ))
    (hclose : Close 0 s v) : v = 0 ∧ s = 0 := by
  have hzero : v = 0 := le_antisymm (by exact_mod_cast hle) hfrom.nonneg
  exact ⟨hzero, (close_zero_iff.mp hclose).trans hzero⟩

theorem additive_sums : Node.Additive (2 ^ 53 - 1) Sums (· + ·) (· + ·) := by
  intro a b s t x y hbound hs ht
  obtain ⟨v, hv, hvfrom, hva, hs0, hvs⟩ := hs
  obtain ⟨w, hw, hwfrom, hwb, ht0, hwt⟩ := ht
  have hlt : a + b < 2 ^ 53 := Nat.lt_of_le_pred (by decide) hbound
  have hfrom := hvfrom.add hwfrom
  have hle : v + w ≤ ((a + b : ℕ) : ℚ) := by
    push_cast
    exact add_le_add hva hwb
  have hrange := hfrom.moderate (by decide) (hle.trans (natCast_le_two_pow hlt))
  obtain ⟨z, hz, hround⟩ := hv.add hw hrange
  show Sums (a + b) (s + t) (x + y)
  refine ⟨z, hz, hround.zeroOrFrom hfrom, hround.le_natCast hlt hle, add_nonneg hs0 ht0, ?_⟩
  have hz0 := (hround.zeroOrFrom hfrom).nonneg
  rcases Nat.eq_zero_or_pos a with rfl | ha
  · obtain ⟨rfl, rfl⟩ := eq_zero_of_close hvfrom hva hvs
    rw [zero_add] at hround
    rwa [hround.eq_of_represents hw, Nat.zero_add, zero_add]
  rcases Nat.eq_zero_or_pos b with rfl | hb
  · obtain ⟨rfl, rfl⟩ := eq_zero_of_close hwfrom hwb hwt
    rw [add_zero] at hround
    rwa [hround.eq_of_represents hv, Nat.add_zero, add_zero]
  -- One more rounding than for the longer of the two sums.
  have hk : max a b + 1 ≤ a + b := by omega
  have hsum := (hvs.mono (le_max_left a b) hs0 hvfrom.nonneg).add
    (hwt.mono (le_max_right a b) ht0 hwfrom.nonneg)
  have hclose := hsum.trans (hround.close hfrom.nonneg) (by omega) (by decide)
    (add_nonneg hs0 ht0) hz0
  exact hclose.mono hk (add_nonneg hs0 ht0) hz0

theorem sums_ratio {r : FunctionReport} (hr : r.Countable) : Sums 1 r.exactRatio r.ratio := by
  cases hresult : r.result with
  | none =>
    rw [FunctionReport.exactRatio, FunctionReport.ratio, hresult]
    exact ⟨0, represents_zero, Or.inl rfl, by norm_num, le_rfl,
      (close_zero_iff.mpr rfl).mono (by decide) le_rfl le_rfl⟩
  | some d =>
    obtain ⟨hle, hupper⟩ := hr d hresult
    obtain ⟨v, hv, hround, hfrom, hone⟩ :=
      Diff.TextDiff.exists_represents_ratio hle (Nat.lt_trans hupper (by decide))
    have hnonneg := (d.exactRatio_mem_Icc hle).1
    rw [FunctionReport.exactRatio_of_result hresult, FunctionReport.ratio_of_result hresult]
    exact ⟨v, hv, hfrom, by exact_mod_cast hone, hnonneg, hround.close hnonneg⟩

/-- A sum of as many ones as there are functions. -/
def SumsOnes (n : ℕ) (_ : Unit) (x : Float) : Prop :=
  Represents x n

theorem additive_sumsOnes :
    Node.Additive (2 ^ 53 - 1) SumsOnes (fun _ _ => ()) (· + ·) := by
  intro a b _ _ x y hbound hs ht
  have hlt : a + b < 2 ^ 53 := Nat.lt_of_le_pred (by decide) hbound
  have hcast : (a : ℚ) + b = (a + b : ℕ) := (Nat.cast_add a b).symm
  have hrange : Moderate ((a : ℚ) + b) := by
    rw [hcast]
    exact moderate_natCast hlt
  obtain ⟨z, hz, hround⟩ := Represents.add hs ht hrange
  rw [hcast] at hround
  rwa [hround.eq_natCast hlt] at hz

theorem represents_ratio_of_match {r : FunctionReport} (hr : r.Countable)
    (hmatch : r.isMatch = true) : Represents r.ratio (1 : ℕ) := by
  obtain ⟨d, hd, hmatch⟩ := (Option.any_eq_true _ _).mp hmatch
  obtain ⟨hle, hupper⟩ := hr d hd
  obtain ⟨v, hv, hround, -⟩ :=
    Diff.TextDiff.exists_represents_ratio hle (Nat.lt_trans hupper (by decide))
  have hexact : d.exactRatio = (1 : ℕ) := by
    rw [Nat.cast_one, Diff.TextDiff.exactRatio_eq_one_iff]
    exact Or.inl hmatch
  rw [hexact] at hround
  rwa [FunctionReport.ratio_of_result hd, ← hround.eq_natCast (by decide)]

namespace Node

variable {n : Node}

theorem ratio_eq (hpos : 0 < n.total) :
    n.ratio = n.sum 0.0 (· + ·) FunctionReport.ratio / Float.ofNat n.total := by
  rw [ratio, mean, if_neg hpos.ne']

theorem exactRatio_eq (hpos : 0 < n.total) :
    n.exactRatio = n.sum 0 (· + ·) FunctionReport.exactRatio / n.total := by
  rw [exactRatio, mean, if_neg hpos.ne']

/-- The mean comes as close to the exact one as one rounding more than there are functions
lets it. -/
theorem exists_represents_ratio (hcountable : ∀ r ∈ n.allFunctions, r.Countable)
    (hpos : 0 < n.total) (hupper : n.total < 2 ^ 53) :
    ∃ v, Represents n.ratio v ∧ ZeroOrFrom (-106) v ∧ v ≤ 1 ∧
      Close (n.total + 1) n.exactRatio v := by
  obtain ⟨s, hs, hfrom, hle, hnonneg, hclose⟩ :=
    related_sum sums_zero additive_sums (fun r hr => sums_ratio (hcountable r hr))
      (Nat.le_pred_of_lt hupper)
  have hcount : (0 : ℚ) < n.total := by exact_mod_cast hpos
  have hquotient : ZeroOrFrom (-106) (s / n.total) := hfrom.div_natCast hpos hupper
  have hone : s / n.total ≤ (1 : ℕ) := by
    rw [div_le_iff₀ hcount, Nat.cast_one, one_mul]
    exact hle
  have hrange : Moderate (s / n.total) :=
    hquotient.moderate (by decide) (hone.trans (natCast_le_two_pow (by decide)))
  obtain ⟨v, hv, hround⟩ := hs.div (represents_ofNat hupper) hcount.ne' hrange
  have hvfrom := hround.zeroOrFrom hquotient
  refine ⟨v, ?_, hvfrom, ?_, ?_⟩
  · rwa [ratio_eq hpos]
  · exact_mod_cast hround.le_natCast (by decide) hone
  · rw [exactRatio_eq hpos]
    exact (hclose.div hcount.le).trans (hround.close hquotient.nonneg) hupper.le (by decide)
      (div_nonneg hnonneg hcount.le) hvfrom.nonneg

theorem represents_ratio_of_matches (hcountable : ∀ r ∈ n.allFunctions, r.Countable)
    (hmatch : ∀ r ∈ n.allFunctions, r.isMatch = true) (hpos : 0 < n.total)
    (hupper : n.total < 2 ^ 53) : Represents n.ratio 1 := by
  have hcount : (n.total : ℚ) ≠ 0 := by exact_mod_cast hpos.ne'
  have hzero : SumsOnes 0 () 0.0 := by
    rw [SumsOnes, Nat.cast_zero]
    exact represents_zero
  have hsum : SumsOnes n.total (n.sum () (fun _ _ => ()) fun _ => ())
      (n.sum 0.0 (· + ·) FunctionReport.ratio) :=
    related_sum hzero additive_sumsOnes
      (fun r hr => represents_ratio_of_match (hcountable r hr) (hmatch r hr))
      (Nat.le_pred_of_lt hupper)
  have hself : (n.total : ℚ) / n.total = (1 : ℕ) := by rw [div_self hcount, Nat.cast_one]
  have hrange : Moderate ((n.total : ℚ) / n.total) := by
    rw [hself]
    exact moderate_natCast (by decide)
  obtain ⟨v, hv, hround⟩ := Represents.div hsum (represents_ofNat hupper) hcount hrange
  rw [hself] at hround
  rw [hround.eq_natCast (by decide), Nat.cast_one] at hv
  rwa [ratio_eq hpos]

end Node

end Report

end BinMatch
