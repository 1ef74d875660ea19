/-!
# Longest common blocks

A block is a run of elements that two lists have in common.  `longestBlock`
takes the longest run of eligible elements, of equally long ones the run that
starts first in the old list and then first in the new list, and widens it over
equal neighbours, eligible or not.
-/

namespace BinMatch.Diff

variable {α : Type} [DecidableEq α]

structure Block where
  inOld : Nat
  inNew : Nat
  size : Nat
  deriving DecidableEq, Repr

/-- Length of the run of equal eligible elements at the heads of two lists. -/
def commonRun (eligible : α → Bool) : List α → List α → Nat
  | x :: xs, y :: ys =>
    if x = y && eligible y then commonRun eligible xs ys + 1 else 0
  | _, _ => 0

/-- Run lengths between one list and every suffix of another. -/
def runsAt (eligible : α → Bool) (old : List α) : List α → List Nat
  | [] => []
  | y :: ys => commonRun eligible old (y :: ys) :: runsAt eligible old ys

def runsOnto (eligible : α → Bool) (x : α) : List α → List Nat → List Nat
  | y :: ys, _ :: behind =>
    (if x = y && eligible y then behind.headD 0 + 1 else 0) ::
      runsOnto eligible x ys behind
  | _, _ => []

def firstGreatest : List Nat → Nat × Nat
  | [] => (0, 0)
  | k :: ks =>
    let (i, m) := firstGreatest ks
    if k < m then (i + 1, m) else (0, k)

/-- Run lengths at every position of `new`, and the longest eligible run. -/
def scan (eligible : α → Bool) : List α → List α → List Nat × Block
  | [], new => (new.map fun _ => 0, ⟨0, 0, 0⟩)
  | x :: xs, new =>
    let (behind, best) := scan eligible xs new
    let runs := runsOnto eligible x new behind
    let (position, size) := firstGreatest runs
    (runs,
      if size < best.size then { best with inOld := best.inOld + 1 }
      else ⟨0, position, size⟩)

def Block.widen (b : Block) (old new : List α) : Block :=
  let back := commonRun (fun _ => true)
    (old.take b.inOld).reverse (new.take b.inNew).reverse
  let ahead := commonRun (fun _ => true)
    (old.drop (b.inOld + b.size)) (new.drop (b.inNew + b.size))
  ⟨b.inOld - back, b.inNew - back, back + b.size + ahead⟩

def longestBlock (eligible : α → Bool) (old new : List α) : Block :=
  (scan eligible old new).2.widen old new

theorem commonRun_le_left (eligible : α → Bool) (old new : List α) :
    commonRun eligible old new ≤ old.length := by
  fun_induction commonRun eligible old new <;> simp_all

theorem commonRun_le_right (eligible : α → Bool) (old new : List α) :
    commonRun eligible old new ≤ new.length := by
  fun_induction commonRun eligible old new <;> simp_all

theorem commonRun_nil_right (eligible : α → Bool) (old : List α) :
    commonRun eligible old [] = 0 := by
  cases old <;> rfl

theorem headD_runsAt (eligible : α → Bool) (old new : List α) :
    (runsAt eligible old new).headD 0 = commonRun eligible old new := by
  cases new with
  | nil => simp [runsAt, commonRun_nil_right]
  | cons y ys => rfl

theorem runsOnto_runsAt (eligible : α → Bool) (x : α) (xs new : List α) :
    runsOnto eligible x new (runsAt eligible xs new) =
      runsAt eligible (x :: xs) new := by
  induction new with
  | nil => rfl
  | cons y ys ih => simp only [runsAt, runsOnto, ih, headD_runsAt, commonRun]

theorem scan_fst (eligible : α → Bool) (old new : List α) :
    (scan eligible old new).1 = runsAt eligible old new := by
  induction old with
  | nil =>
    simp only [scan]
    induction new with
    | nil => rfl
    | cons y ys ih => simp only [List.map_cons, runsAt, commonRun, ih]
  | cons x xs ih => simp only [scan, ih, runsOnto_runsAt]

theorem firstGreatest_runsAt (eligible : α → Bool) (old new : List α) :
    (firstGreatest (runsAt eligible old new)).1 ≤ new.length ∧
      (firstGreatest (runsAt eligible old new)).2 =
        commonRun eligible old
          (new.drop (firstGreatest (runsAt eligible old new)).1) := by
  induction new with
  | nil => simp [runsAt, firstGreatest, commonRun_nil_right]
  | cons y ys ih =>
    simp only [runsAt, firstGreatest]
    split
    · exact ⟨by simpa using ih.1, by simpa using ih.2⟩
    · simp

/-- The scan's block lies inside both lists, and its size is the run there. -/
theorem scan_snd (eligible : α → Bool) (old new : List α) :
    (scan eligible old new).2.inOld ≤ old.length ∧
      (scan eligible old new).2.inNew ≤ new.length ∧
      (scan eligible old new).2.size =
        commonRun eligible (old.drop (scan eligible old new).2.inOld)
          (new.drop (scan eligible old new).2.inNew) := by
  induction old with
  | nil => simp [scan, commonRun]
  | cons x xs ih =>
    have hruns := firstGreatest_runsAt eligible (x :: xs) new
    simp only [scan, scan_fst, runsOnto_runsAt]
    split
    · simpa using ih
    · exact ⟨by simp, hruns.1, by simpa using hruns.2⟩

theorem longestBlock_le (eligible : α → Bool) (old new : List α) :
    (longestBlock eligible old new).inOld +
        (longestBlock eligible old new).size ≤ old.length ∧
      (longestBlock eligible old new).inNew +
        (longestBlock eligible old new).size ≤ new.length := by
  obtain ⟨ho, hn, hs⟩ := scan_snd eligible old new
  simp only [longestBlock, Block.widen]
  generalize (scan eligible old new).2 = b at *
  have hl := commonRun_le_left eligible (old.drop b.inOld) (new.drop b.inNew)
  have hr := commonRun_le_right eligible (old.drop b.inOld) (new.drop b.inNew)
  have hbl := commonRun_le_left (fun _ => true)
    (old.take b.inOld).reverse (new.take b.inNew).reverse
  have hbr := commonRun_le_right (fun _ => true)
    (old.take b.inOld).reverse (new.take b.inNew).reverse
  have hal := commonRun_le_left (fun _ => true)
    (old.drop (b.inOld + b.size)) (new.drop (b.inNew + b.size))
  have har := commonRun_le_right (fun _ => true)
    (old.drop (b.inOld + b.size)) (new.drop (b.inNew + b.size))
  simp only [List.length_reverse, List.length_take, List.length_drop] at *
  omega

end BinMatch.Diff
