import BinMatch.Diff.Alignment
import BinMatch.Text.Notation

/-!
# Unified diffs

A row is shown when a change lies at most three rows away.  A hunk is a longest
run of shown rows, headed by the ranges that it covers in both texts.
-/

namespace BinMatch.Diff

variable {α : Type}

def contextSize : Nat := 3

/-- A run of rows that starts behind `oldStart` and `newStart` elements. -/
structure Hunk (α : Type) where
  oldStart : Nat
  newStart : Nat
  rows : List (Edit α)
  deriving DecidableEq, Repr

def oldLength (rows : List (Edit α)) : Nat :=
  (rows.filterMap Edit.old?).length

def newLength (rows : List (Edit α)) : Nat :=
  (rows.filterMap Edit.new?).length

/-- Rows marked as shown or not, when `pending` more rows after a change show. -/
def marked (pending : Nat) : List (Edit α) → List (Bool × Edit α)
  | [] => []
  | row :: rest =>
    if row.isKeep then
      (0 < pending || (rest.take contextSize).any (fun r => !r.isKeep), row) ::
        marked (pending - 1) rest
    else (true, row) :: marked contextSize rest

def gather (old new : Nat) : List (Bool × Edit α) → List (Hunk α)
  | [] => []
  | (false, row) :: rest =>
    gather (old + oldLength [row]) (new + newLength [row]) rest
  | (true, row) :: rest =>
    let body := row :: (rest.takeWhile (·.1)).map (·.2)
    ⟨old, new, body⟩ ::
      gather (old + oldLength body) (new + newLength body)
        (rest.dropWhile (·.1))
termination_by rows => rows.length
decreasing_by
  · simp
  · have := (List.dropWhile_sublist (·.1) (l := rest)).length_le
    simp only [List.length_cons]
    omega

def hunks (rows : List (Edit α)) : List (Hunk α) :=
  gather 0 0 (marked 0 rows)

namespace Hunk

/-- A range: its first line, counted from one, and its length unless that is
one; an empty range is headed by the line before it. -/
def range (start length : Nat) : String :=
  if length = 1 then toString (start + 1)
  else if length = 0 then toString start ++ ",0"
  else toString (start + 1) ++ "," ++ toString length

def header (h : Hunk α) : String :=
  "@@ -" ++ range h.oldStart (oldLength h.rows) ++
    " +" ++ range h.newStart (newLength h.rows) ++ " @@"

def rowLine : Edit String → String
  | .keep x => " " ++ x
  | .delete x => "-" ++ x
  | .insert x => "+" ++ x

def lines (h : Hunk String) : List String :=
  h.header :: h.rows.map rowLine

end Hunk

def unifiedText (oldName newName : String) (hs : List (Hunk String)) : String :=
  if hs.isEmpty then ""
  else
    Text.Line.terminated
      (("--- " ++ oldName) :: ("+++ " ++ newName) :: hs.flatMap Hunk.lines)

end BinMatch.Diff
