import BinMatch.Diff.Block

/-!
# Alignments

An alignment lays two lists side by side: parts that have nothing in common
around runs that are common to both.  `align` puts the longest common block in
place and aligns what lies before and behind it in the same way.
-/

namespace BinMatch.Diff

inductive Alignment (α : Type) where
  /-- Two parts with nothing set against each other. -/
  | apart (old new : List α)
  /-- A common run between two alignments. -/
  | around (before : Alignment α) (common : List α) (after : Alignment α)
  deriving DecidableEq, Repr

/-- One row of two lists shown side by side. -/
inductive Edit (α : Type) where
  | keep (x : α)
  | delete (x : α)
  | insert (x : α)
  deriving DecidableEq, Repr

namespace Edit

variable {α : Type}

def isKeep : Edit α → Bool
  | .keep _ => true
  | _ => false

def old? : Edit α → Option α
  | .keep x | .delete x => some x
  | .insert _ => none

def new? : Edit α → Option α
  | .keep x | .insert x => some x
  | .delete _ => none

end Edit

namespace Alignment

variable {α : Type}

/-- Rows in order; between two common runs deletions come before insertions. -/
def rows : Alignment α → List (Edit α)
  | .apart old new => old.map .delete ++ new.map .insert
  | .around before common after =>
    before.rows ++ common.map .keep ++ after.rows

def matching : Alignment α → Nat
  | .apart _ _ => 0
  | .around before common after =>
    before.matching + common.length + after.matching

end Alignment

variable {α : Type} [DecidableEq α]

/-- Align two lists by their longest common blocks of eligible elements. -/
def align (eligible : α → Bool) (old new : List α) : Alignment α :=
  let block := longestBlock eligible old new
  if block.size = 0 then .apart old new
  else
    .around
      (align eligible (old.take block.inOld) (new.take block.inNew))
      ((old.drop block.inOld).take block.size)
      (align eligible (old.drop (block.inOld + block.size))
        (new.drop (block.inNew + block.size)))
termination_by old.length
decreasing_by
  all_goals
    rename_i hsize
    have hle := (longestBlock_le eligible old new).1
    simp only [block] at hsize
    simp only [List.length_take, List.length_drop]
    omega

end BinMatch.Diff
