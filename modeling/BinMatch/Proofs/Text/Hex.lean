import BinMatch.Proofs.Text.Line
import BinMatch.Text.Notation
import Mathlib.Data.Nat.Init
import Mathlib.Logic.Function.Basic

/-!
# Reading hexadecimal text

The digits of a number can be read back, so that two numbers with the same text are
the same number.
-/

namespace BinMatch.Text.Hex

def digitValue (c : Char) : Nat :=
  if c.isDigit then c.toNat - '0'.toNat else c.toNat - 'A'.toNat + 10

/-- The number that the digits stand for, most significant digit first. -/
def valueOf (cs : List Char) : Nat :=
  cs.foldl (fun v c => 16 * v + digitValue c) 0

theorem digitValue_digitChar {d : Nat} (h : d < 16) :
    digitValue (Nat.digitChar d).toUpper = d := by
  have hall : ∀ d < 16, digitValue (Nat.digitChar d).toUpper = d := by decide
  exact hall d h

theorem digits_of_lt {n : Nat} (h : n < 16) : digits n = [(Nat.digitChar n).toUpper] := by
  rw [digits, Nat.toDigits_of_lt_base h, List.map_singleton]

theorem digits_of_le {n : Nat} (h : 16 ≤ n) :
    digits n = digits (n / 16) ++ [(Nat.digitChar (n % 16)).toUpper] := by
  rw [digits, Nat.toDigits_of_base_le (by decide) h, List.map_append, digits,
    List.map_singleton]

theorem valueOf_concat (cs : List Char) (c : Char) :
    valueOf (cs ++ [c]) = 16 * valueOf cs + digitValue c := by
  rw [valueOf, List.foldl_append, valueOf, List.foldl_cons, List.foldl_nil]

theorem valueOf_digits (n : Nat) : valueOf (digits n) = n := by
  induction n using Nat.strongRecOn with
  | _ n ih =>
    by_cases h : n < 16
    · rw [digits_of_lt h, ← List.nil_append [_], valueOf_concat, digitValue_digitChar h]
      exact Nat.zero_add n
    · have hsmaller : n / 16 < n := by omega
      have hdigit : n % 16 < 16 := Nat.mod_lt n (by decide)
      rw [digits_of_le (by omega), valueOf_concat, ih _ hsmaller, digitValue_digitChar hdigit]
      exact Nat.div_add_mod n 16

theorem digits_injective : Function.Injective digits :=
  Function.LeftInverse.injective valueOf_digits

/-- What holds of the sixteen digits holds of the digits of a number. -/
theorem forall_mem_digits {p : Char → Prop} (h : ∀ d < 16, p (Nat.digitChar d).toUpper)
    {n : Nat} : ∀ c ∈ digits n, p c := by
  induction n using Nat.strongRecOn with
  | _ n ih =>
    intro c hc
    by_cases hn : n < 16
    · rw [digits_of_lt hn, List.mem_singleton] at hc
      exact hc ▸ h n hn
    · rw [digits_of_le (by omega), List.mem_append, List.mem_singleton] at hc
      rcases hc with hc | rfl
      · exact ih (n / 16) (by omega) c hc
      · exact h _ (Nat.mod_lt n (by decide))

/-- The sign and the digits of a difference tell which difference it is. -/
theorem delta_injective : Function.Injective delta := by
  intro v w h
  have hmark : ∀ u, (delta u).toList =
      (if u < 0 then '-' else '+') :: '0' :: 'x' :: digits u.natAbs := by
    intro u
    rw [delta, String.toList_append, String.toList_ofList]
    split <;> rfl
  have hchars := congrArg String.toList h
  rw [hmark, hmark, List.cons.injEq] at hchars
  obtain ⟨hsign, hdigits⟩ := hchars
  simp only [List.cons.injEq, true_and] at hdigits
  have hsize : v.natAbs = w.natAbs := digits_injective hdigits
  by_cases hv : v < 0
  · by_cases hw : w < 0
    · omega
    · simp [hv, hw] at hsign
  · by_cases hw : w < 0
    · simp [hv, hw] at hsign
    · omega

/-- The sign of an address stands behind the mark, where no digit is a minus. -/
theorem address_injective : Function.Injective address := by
  intro v w h
  rw [address, address, String.append_right_inj] at h
  have hminus : ∀ n, '-' ∉ digits n := fun n hmem =>
    absurd (forall_mem_digits (p := (· ≠ '-')) (by decide) _ hmem) (by decide)
  have hchars : ∀ u, (signed u).toList =
      if u < 0 then '-' :: digits u.natAbs else digits u.natAbs := by
    intro u
    rw [signed]
    split <;> simp
  have hlists := congrArg String.toList h
  rw [hchars, hchars] at hlists
  by_cases hv : v < 0
  · by_cases hw : w < 0
    · simp only [hv, hw, if_true, List.cons.injEq, true_and] at hlists
      have hsize := digits_injective hlists
      omega
    · rw [if_pos hv, if_neg hw] at hlists
      exact absurd (hlists ▸ List.mem_cons_self) (hminus w.natAbs)
  · by_cases hw : w < 0
    · rw [if_neg hv, if_pos hw] at hlists
      exact absurd (hlists ▸ List.mem_cons_self) (hminus v.natAbs)
    · rw [if_neg hv, if_neg hw] at hlists
      have hsize := digits_injective hlists
      omega

/-! ## Hexadecimal text in a line -/

open Line (Unbroken isBreak unbroken_append)

theorem unbroken_digits (n : Nat) : Unbroken (String.ofList (digits n)) := by
  intro c hc
  rw [String.toList_ofList] at hc
  exact forall_mem_digits (p := fun c => isBreak c = false) (by decide) c hc

theorem unbroken_signed (v : Int) : Unbroken (signed v) := by
  unfold signed
  split
  · exact unbroken_append (by decide) (unbroken_digits _)
  · exact unbroken_digits _

theorem unbroken_address (v : Int) : Unbroken (address v) :=
  unbroken_append (by decide) (unbroken_signed v)

theorem unbroken_delta (v : Int) : Unbroken (delta v) := by
  refine unbroken_append ?_ (unbroken_digits _)
  split <;> decide

end BinMatch.Text.Hex
