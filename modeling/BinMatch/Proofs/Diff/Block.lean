import BinMatch.Diff.Block

/-!
# Longest common blocks

The scan finds the longest run of eligible elements, and of equally long ones the
first.  This is stated once, as `FirstLongest`, without reference to the scan.  A
widened block is common to both lists, and between a list and itself it is the
whole list.
-/

namespace BinMatch.Diff

variable {α : Type} [DecidableEq α]

theorem take_commonRun (eligible : α → Bool) (old new : List α) :
    old.take (commonRun eligible old new) =
      new.take (commonRun eligible old new) := by
  fun_induction commonRun eligible old new with
  | case1 x xs y ys h ih =>
    simp only [Bool.and_eq_true, decide_eq_true_eq] at h
    rw [List.take_succ_cons, List.take_succ_cons, ih, h.1]
  | case2 => rfl
  | case3 => rfl

theorem commonRun_comm (eligible : α → Bool) (old new : List α) :
    commonRun eligible old new = commonRun eligible new old := by
  induction old generalizing new with
  | nil => rw [commonRun_nil_right]; rfl
  | cons x xs ih =>
    cases new with
    | nil => rfl
    | cons y ys =>
      by_cases hxy : x = y
      · subst hxy
        simp only [commonRun, ih ys]
      · have hyx : ¬ y = x := fun h => hxy h.symm
        simp [commonRun, hxy, hyx]

/-- No list has a longer run with `old` than `old` itself. -/
theorem commonRun_le_self (eligible : α → Bool) (old new : List α) :
    commonRun eligible old new ≤ commonRun eligible old old := by
  induction old generalizing new with
  | nil => exact Nat.le_refl 0
  | cons x xs ih =>
    cases new with
    | nil => exact Nat.zero_le _
    | cons y ys =>
      have hrest := ih ys
      by_cases hxy : x = y
      · subst hxy
        simp only [commonRun]
        split <;> omega
      · simp [commonRun, hxy]

theorem commonRun_self (xs : List α) :
    commonRun (fun _ => true) xs xs = xs.length := by
  induction xs with
  | nil => rfl
  | cons x xs ih => simp [commonRun, ih]

/-- The block is the longest eligible run of both lists, and of equally long ones
the first, by its place in the old list and then in the new one. -/
structure FirstLongest (eligible : α → Bool) (old new : List α)
    (b : Block) : Prop where
  size_eq : b.size =
    commonRun eligible (old.drop b.inOld) (new.drop b.inNew)
  longest : ∀ i j, commonRun eligible (old.drop i) (new.drop j) ≤ b.size
  first : ∀ i j, commonRun eligible (old.drop i) (new.drop j) = b.size →
    b.inOld < i ∨ b.inOld = i ∧ b.inNew ≤ j

theorem getD_runsAt (eligible : α → Bool) (old new : List α) (j : Nat) :
    (runsAt eligible old new).getD j 0 = commonRun eligible old (new.drop j) := by
  induction new generalizing j with
  | nil => simp [runsAt, commonRun_nil_right]
  | cons y ys ih =>
    cases j with
    | zero => rfl
    | succ j => simpa [runsAt] using ih j

theorem getD_le_firstGreatest (ks : List Nat) (j : Nat) :
    ks.getD j 0 ≤ (firstGreatest ks).2 := by
  induction ks generalizing j with
  | nil => simp [firstGreatest]
  | cons k ks ih =>
    simp only [firstGreatest]
    cases j with
    | zero =>
      split <;> simp_all
      omega
    | succ j =>
      have hj := ih j
      simp only [List.getD_cons_succ]
      split
      · exact hj
      · rename_i hk
        exact Nat.le_trans hj (Nat.le_of_not_lt hk)

theorem firstGreatest_le_of_getD_eq (ks : List Nat) (j : Nat)
    (h : ks.getD j 0 = (firstGreatest ks).2) : (firstGreatest ks).1 ≤ j := by
  induction ks generalizing j with
  | nil => exact Nat.zero_le j
  | cons k ks ih =>
    simp only [firstGreatest] at h ⊢
    split at h
    · rename_i hk
      rw [if_pos hk]
      cases j with
      | zero => simp only [List.getD_cons_zero] at h; omega
      | succ j => exact Nat.succ_le_succ (ih j (by simpa using h))
    · rename_i hk
      rw [if_neg hk]
      exact Nat.zero_le j

/-- What one more element in front of the old list does to the best block: a run
that starts at that element counts unless the best one behind it is longer. -/
theorem FirstLongest.cons {eligible : α → Bool} {x : α} {xs new : List α}
    {best : Block} (hbest : FirstLongest eligible xs new best) :
    let top := firstGreatest (runsAt eligible (x :: xs) new)
    FirstLongest eligible (x :: xs) new
      (if top.2 < best.size then { best with inOld := best.inOld + 1 }
        else ⟨0, top.1, top.2⟩) := by
  intro top
  have hle : ∀ j, commonRun eligible (x :: xs) (new.drop j) ≤ top.2 := by
    intro j
    rw [← getD_runsAt]
    exact getD_le_firstGreatest _ j
  have htop : top.2 = commonRun eligible (x :: xs) (new.drop top.1) :=
    (firstGreatest_runsAt eligible (x :: xs) new).2
  split
  · rename_i hlt
    refine ⟨hbest.size_eq, fun i j => ?_, fun i j h => ?_⟩
    · cases i with
      | zero => exact Nat.le_trans (hle j) (Nat.le_of_lt hlt)
      | succ i => exact hbest.longest i j
    · cases i with
      | zero =>
        have := hle j
        simp only [List.drop_zero] at h
        omega
      | succ i =>
        rcases hbest.first i j h with h | h
        · left
          show best.inOld + 1 < i + 1
          omega
        · right
          exact ⟨congrArg (· + 1) h.1, h.2⟩
  · rename_i hge
    refine ⟨htop, fun i j => ?_, fun i j h => ?_⟩
    · cases i with
      | zero => exact hle j
      | succ i => exact Nat.le_trans (hbest.longest i j) (Nat.le_of_not_lt hge)
    · cases i with
      | zero =>
        right
        refine ⟨rfl, ?_⟩
        apply firstGreatest_le_of_getD_eq (runsAt eligible (x :: xs) new)
        rw [getD_runsAt]
        exact h
      | succ i => exact Or.inl (Nat.zero_lt_succ i)

theorem firstLongest_scan (eligible : α → Bool) (old new : List α) :
    FirstLongest eligible old new (scan eligible old new).2 := by
  induction old with
  | nil =>
    refine ⟨rfl, fun i j => ?_, fun i j _ => ?_⟩
    · simp [commonRun]
    · simp only [scan]
      omega
  | cons x xs ih =>
    simp only [scan, scan_fst, runsOnto_runsAt]
    exact ih.cons

/-- Between a list and itself the first longest run lies on the diagonal. -/
theorem FirstLongest.inOld_eq_inNew {eligible : α → Bool} {xs : List α}
    {b : Block} (h : FirstLongest eligible xs xs b) : b.inOld = b.inNew := by
  have hmirror := h.first b.inNew b.inOld (by rw [commonRun_comm, ← h.size_eq])
  have hself := h.longest b.inOld b.inOld
  have hrun := commonRun_le_self eligible (xs.drop b.inOld) (xs.drop b.inNew)
  have hdiagonal := h.first b.inOld b.inOld (by rw [← h.size_eq] at hrun; omega)
  omega

theorem longestBlock_self (eligible : α → Bool) (xs : List α) :
    longestBlock eligible xs xs = ⟨0, 0, xs.length⟩ := by
  have hdiagonal := (firstLongest_scan eligible xs xs).inOld_eq_inNew
  obtain ⟨hstart, -, hsize⟩ := scan_snd eligible xs xs
  have hrun := commonRun_le_left eligible
    (xs.drop (scan eligible xs xs).2.inOld) (xs.drop (scan eligible xs xs).2.inNew)
  simp only [longestBlock, Block.widen]
  generalize (scan eligible xs xs).2 = b at *
  rw [← hdiagonal, commonRun_self, commonRun_self]
  simp only [List.length_reverse, List.length_take, List.length_drop] at *
  simp only [Block.mk.injEq]
  omega

/-! ## Widening keeps a block common -/

/-- The elements of a block in the old list are those of it in the new list. -/
def Block.Common (b : Block) (old new : List α) : Prop :=
  (old.drop b.inOld).take b.size = (new.drop b.inNew).take b.size

/-- The last elements of a part in front, as far as they are counted from its end. -/
theorem take_drop_sub {β : Type} (xs : List β) (i k : Nat) (hk : k ≤ i) (hi : i ≤ xs.length) :
    (xs.drop (i - k)).take k = ((xs.take i).reverse.take k).reverse := by
  rw [List.take_reverse, List.reverse_reverse, List.length_take,
    Nat.min_eq_left hi, List.drop_take, Nat.sub_sub_self hk]

theorem common_widen {b : Block} {old new : List α} (h : b.Common old new)
    (hold : b.inOld ≤ old.length) (hnew : b.inNew ≤ new.length) :
    (b.widen old new).Common old new := by
  simp only [Block.Common, Block.widen] at h ⊢
  have hback := take_commonRun (fun _ => true)
    (old.take b.inOld).reverse (new.take b.inNew).reverse
  have hahead := take_commonRun (fun _ => true)
    (old.drop (b.inOld + b.size)) (new.drop (b.inNew + b.size))
  have hleft := commonRun_le_left (fun _ => true)
    (old.take b.inOld).reverse (new.take b.inNew).reverse
  have hright := commonRun_le_right (fun _ => true)
    (old.take b.inOld).reverse (new.take b.inNew).reverse
  generalize commonRun (fun _ => true) (old.take b.inOld).reverse
    (new.take b.inNew).reverse = back at *
  generalize commonRun (fun _ => true) (old.drop (b.inOld + b.size))
    (new.drop (b.inNew + b.size)) = ahead at *
  simp only [List.length_reverse, List.length_take] at hleft hright
  have hbackOld : back ≤ b.inOld := by omega
  have hbackNew : back ≤ b.inNew := by omega
  -- Three parts in a row: the elements before the block, the block, those behind it.
  rw [List.take_add, List.take_add, List.take_add, List.take_add]
  simp only [List.drop_drop, ← Nat.add_assoc, Nat.sub_add_cancel hbackOld,
    Nat.sub_add_cancel hbackNew]
  rw [take_drop_sub old _ _ hbackOld hold, take_drop_sub new _ _ hbackNew hnew,
    hback, h, hahead]

theorem common_longestBlock (eligible : α → Bool) (old new : List α) :
    (longestBlock eligible old new).Common old new := by
  obtain ⟨hold, hnew, hsize⟩ := scan_snd eligible old new
  apply common_widen _ hold hnew
  rw [Block.Common, hsize]
  exact take_commonRun eligible _ _

end BinMatch.Diff
