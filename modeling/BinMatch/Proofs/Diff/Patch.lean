import BinMatch.Comparison
import BinMatch.Proofs.Diff.Alignment
import BinMatch.Proofs.Diff.Hunk
import BinMatch.Proofs.Text.Line
import BinMatch.Proofs.Text.Scanner

/-!
# Unified diffs as patches

A unified diff is read hunk by hunk: the ranges in the head of a hunk tell how many
lines belong to it, whatever these lines look like.  Applied to the old lines one
after the other, the hunks of a difference give the new lines.
-/

namespace BinMatch.Diff

structure HeadRange where
  first : Nat
  length : Nat
  deriving DecidableEq, Repr

namespace HeadRange

/-- Number of lines in front of the range.  Lines are counted from one, and an empty
range is headed by the line before it. -/
def start (r : HeadRange) : Nat :=
  if r.length = 0 then r.first else r.first - 1

/-- The range is the one of `shown`, a part of `lines`. -/
def Locates (r : HeadRange) (shown lines : List String) : Prop :=
  ∃ before after, lines = before ++ (shown ++ after) ∧ r.length = shown.length ∧
    r.first = if shown = [] then before.length else before.length + 1

def ofStart (start length : Nat) : HeadRange :=
  { first := if length = 0 then start else start + 1, length }

end HeadRange

structure PatchHunk where
  oldRange : HeadRange
  newRange : HeadRange
  rows : List (Edit String)
  deriving DecidableEq, Repr

def Hunk.toPatch (h : Hunk String) : PatchHunk :=
  { oldRange := .ofStart h.oldStart (oldLength h.rows)
    newRange := .ofStart h.newStart (newLength h.rows)
    rows := h.rows }

/-- The hunk lies in front of the other one on both sides and does not touch it. -/
def PatchHunk.Precedes (a b : PatchHunk) : Prop :=
  a.oldRange.start + a.oldRange.length < b.oldRange.start ∧
    a.newRange.start + a.newRange.length < b.newRange.start

namespace Patch

open Text (Scanner)
open Text.Line (Unbroken unbroken_append unbroken_toString)

/-! ## Reading -/

def number : Scanner Nat := do
  let digits ← Scanner.takeWhile Char.isDigit
  if digits.isEmpty then failure
  pure (Nat.ofDigitChars 10 digits 0)

/-- A range; the length is left out exactly when it is one. -/
def range : Scanner HeadRange := do
  let first ← number
  if ← Scanner.accept "," then
    let length ← number
    if length = 1 then failure
    pure { first, length }
  else pure { first, length := 1 }

def header : Scanner (HeadRange × HeadRange) := do
  Scanner.expect "@@ -"
  let oldRange ← range
  Scanner.expect " +"
  let newRange ← range
  Scanner.expect " @@"
  pure (oldRange, newRange)

/-- A line of a hunk by its first character. -/
def readRow (line : String) : Option (Edit String) :=
  match line.toList with
  | ' ' :: text => some (.keep (String.ofList text))
  | '-' :: text => some (.delete (String.ofList text))
  | '+' :: text => some (.insert (String.ofList text))
  | _ => none

/-- The rows that belong to an open hunk, which lacks `old` and `new` lines, and the
hunks behind it. -/
def readLines (old new : Nat) :
    List String → Option (List (Edit String) × List PatchHunk)
  | [] => if old = 0 ∧ new = 0 then some ([], []) else none
  | line :: lines =>
    if old = 0 ∧ new = 0 then do
      let (oldRange, newRange) ← Scanner.readAll header line.toList
      let (rows, hs) ← readLines oldRange.length newRange.length lines
      some ([], { oldRange, newRange, rows } :: hs)
    else do
      let row ← readRow line
      if oldLength [row] ≤ old ∧ newLength [row] ≤ new then
        let (rows, hs) ←
          readLines (old - oldLength [row]) (new - newLength [row]) lines
        some (row :: rows, hs)
      else none

/-- The hunks of a unified diff; an empty one has none. -/
def read (text : String) : Option (List PatchHunk) :=
  match Text.Line.split text with
  | [] => some []
  | oldName :: newName :: lines =>
    if "--- ".toList.isPrefixOf oldName.toList &&
        "+++ ".toList.isPrefixOf newName.toList then
      (readLines 0 0 lines).map (·.2)
    else none
  | _ => none

/-! ## Applying -/

/-- The lines behind `position` with the hunks put into them.  A hunk has to lie
behind the one before it and to find the lines that it keeps or deletes. -/
def apply (position : Nat) : List PatchHunk → List String → Option (List String)
  | [], lines => some lines
  | h :: hs, lines =>
    let gap := h.oldRange.start - position
    if position ≤ h.oldRange.start ∧
        (lines.drop gap).take h.oldRange.length = h.rows.filterMap Edit.old? then
      (apply (h.oldRange.start + h.oldRange.length) hs
        (lines.drop (gap + h.oldRange.length))).map fun rest =>
          lines.take gap ++ (h.rows.filterMap Edit.new? ++ rest)
    else none

/-! ## What is printed is read back -/

theorem run_number (n : Nat) {rest : List Char}
    (hrest : rest.head?.all (fun c => !c.isDigit) = true) :
    number.run ((toString n).toList ++ rest) = some (n, rest) := by
  have hdigits : ∀ c ∈ Nat.toDigits 10 n, c.isDigit = true :=
    fun c hc => Nat.isDigit_of_mem_toDigits (by decide) (by decide) hc
  have htake : (Nat.toDigits 10 n ++ rest).takeWhile Char.isDigit = Nat.toDigits 10 n := by
    rw [List.takeWhile_append_of_pos hdigits]
    cases rest with
    | nil => simp
    | cons c rest => simp_all
  have hdrop : (Nat.toDigits 10 n ++ rest).dropWhile Char.isDigit = rest := by
    rw [List.dropWhile_append_of_pos hdigits]
    cases rest with
    | nil => simp
    | cons c rest => simp_all
  have hnonempty : (Nat.toDigits 10 n).isEmpty = false := by
    simp [Nat.toDigits_ne_nil]
  rw [Nat.toString_eq_repr, Nat.toList_repr, number,
    Scanner.run_bind_of_run (Scanner.run_takeWhile _ _), htake, hdrop, hnonempty]
  simp

theorem run_range (start length : Nat) {rest : List Char}
    (hrest : rest.head? = some ' ') :
    range.run ((Hunk.range start length).toList ++ rest) =
      some (.ofStart start length, rest) := by
  obtain ⟨rest, rfl⟩ := List.head?_eq_some_iff.mp hrest
  by_cases hone : length = 1
  · subst hone
    have hcomma : ",".toList.isPrefixOf (' ' :: rest) = false := rfl
    rw [Hunk.range, if_pos rfl, range, Scanner.run_bind_of_run (run_number _ rfl),
      Scanner.run_bind_of_run (Scanner.run_accept_of_not hcomma)]
    rfl
  · have hlength : range.run ((toString (HeadRange.ofStart start length).first).toList ++
        (",".toList ++ ((toString length).toList ++ ' ' :: rest))) =
        some (.ofStart start length, ' ' :: rest) := by
      rw [range, Scanner.run_bind_of_run (run_number _ rfl),
        Scanner.run_bind_of_run (Scanner.run_accept _ _)]
      simp only [if_true]
      rw [Scanner.run_bind_of_run (run_number _ rfl), if_neg hone]
      rfl
    rw [← hlength]
    by_cases hzero : length = 0
    · subst hzero
      simp [Hunk.range, HeadRange.ofStart]
    · simp [Hunk.range, HeadRange.ofStart, hone, hzero]

theorem readAll_header (h : Hunk String) :
    Scanner.readAll header h.header.toList =
      some (h.toPatch.oldRange, h.toPatch.newRange) := by
  have htext : h.header.toList = "@@ -".toList ++
      ((Hunk.range h.oldStart (oldLength h.rows)).toList ++ (" +".toList ++
      ((Hunk.range h.newStart (newLength h.rows)).toList ++ (" @@".toList ++ [])))) := by
    simp [Hunk.header]
  have hrun : header.run h.header.toList =
      some ((h.toPatch.oldRange, h.toPatch.newRange), []) := by
    rw [htext, header, Scanner.run_bind_of_run (Scanner.run_expect _ _),
      Scanner.run_bind_of_run (run_range _ _ rfl),
      Scanner.run_bind_of_run (Scanner.run_expect " +" _),
      Scanner.run_bind_of_run (run_range _ _ rfl),
      Scanner.run_bind_of_run (Scanner.run_expect " @@" _)]
    rfl
  rw [Scanner.readAll, hrun]

theorem readRow_rowLine (row : Edit String) : readRow (Hunk.rowLine row) = some row := by
  cases row <;> simp [readRow, Hunk.rowLine]

/-- The rows of a hunk fill its ranges, so what is read behind them is the rest. -/
theorem readLines_rows (rows : List (Edit String)) {lines : List String}
    {hs : List PatchHunk} (h : readLines 0 0 lines = some ([], hs)) :
    readLines (oldLength rows) (newLength rows) (rows.map Hunk.rowLine ++ lines) =
      some (rows, hs) := by
  induction rows with
  | nil => exact h
  | cons row rows ih =>
    have hold : oldLength (row :: rows) = oldLength [row] + oldLength rows :=
      oldLength_append [row] rows
    have hnew : newLength (row :: rows) = newLength [row] + newLength rows :=
      newLength_append [row] rows
    have hopen : ¬ (oldLength (row :: rows) = 0 ∧ newLength (row :: rows) = 0) := by
      cases row <;> simp [oldLength, newLength, Edit.old?, Edit.new?]
    rw [List.map_cons, List.cons_append, readLines, if_neg hopen, readRow_rowLine]
    simp only [Option.bind_eq_bind, Option.bind_some]
    rw [if_pos ⟨by omega, by omega⟩, hold, hnew, Nat.add_sub_cancel_left,
      Nat.add_sub_cancel_left, ih]
    rfl

theorem readLines_hunks (hs : List (Hunk String)) :
    readLines 0 0 (hs.flatMap Hunk.lines) = some ([], hs.map Hunk.toPatch) := by
  induction hs with
  | nil => rfl
  | cons h hs ih =>
    rw [List.flatMap_cons, Hunk.lines, List.cons_append, readLines, if_pos ⟨rfl, rfl⟩,
      readAll_header]
    simp only [Option.bind_eq_bind, Option.bind_some]
    have hrows : readLines h.toPatch.oldRange.length h.toPatch.newRange.length
        (h.rows.map Hunk.rowLine ++ hs.flatMap Hunk.lines) =
          some (h.rows, hs.map Hunk.toPatch) := readLines_rows h.rows ih
    rw [hrows]
    rfl

/-! ### Lines of a diff -/

theorem unbroken_range (start length : Nat) :
    Unbroken (Hunk.range start length) := by
  unfold Hunk.range
  split
  · exact unbroken_toString _
  · split
    · exact unbroken_append (unbroken_toString _) (by decide)
    · exact unbroken_append
        (unbroken_append (unbroken_toString _) (by decide))
        (unbroken_toString _)

theorem unbroken_header (h : Hunk String) : Unbroken h.header := by
  unfold Hunk.header
  refine unbroken_append (unbroken_append (unbroken_append
    (unbroken_append ?_ (unbroken_range _ _)) ?_) (unbroken_range _ _)) ?_ <;>
    decide

theorem unbroken_rowLine {rows : List (Edit String)}
    (hold : ∀ line ∈ rows.filterMap Edit.old?, Unbroken line)
    (hnew : ∀ line ∈ rows.filterMap Edit.new?, Unbroken line)
    {row : Edit String} (hrow : row ∈ rows) : Unbroken (Hunk.rowLine row) := by
  cases row with
  | keep x | delete x =>
    have hx : Unbroken x := hold x (List.mem_filterMap.mpr ⟨_, hrow, rfl⟩)
    exact unbroken_append (by decide) hx
  | insert x =>
    have hx : Unbroken x := hnew x (List.mem_filterMap.mpr ⟨_, hrow, rfl⟩)
    exact unbroken_append (by decide) hx

theorem unbroken_of_mem_lines {rows : List (Edit String)}
    (hold : ∀ line ∈ rows.filterMap Edit.old?, Unbroken line)
    (hnew : ∀ line ∈ rows.filterMap Edit.new?, Unbroken line) :
    ∀ line ∈ (hunks rows).flatMap Hunk.lines, Unbroken line := by
  intro line hline
  obtain ⟨h, hh, hline⟩ := List.mem_flatMap.mp hline
  rcases List.mem_cons.mp hline with rfl | hline
  · exact unbroken_header h
  · obtain ⟨row, hrow, rfl⟩ := List.mem_map.mp hline
    obtain ⟨before, after, hrows, -⟩ := (covers_hunks rows).exists_append hh
    apply unbroken_rowLine hold hnew
    rw [hrows]
    simp [hrow]

theorem read_unifiedText {oldName newName : String} {rows : List (Edit String)}
    (holdName : Unbroken oldName) (hnewName : Unbroken newName)
    (hold : ∀ line ∈ rows.filterMap Edit.old?, Unbroken line)
    (hnew : ∀ line ∈ rows.filterMap Edit.new?, Unbroken line) :
    read (unifiedText oldName newName (hunks rows)) =
      some ((hunks rows).map Hunk.toPatch) := by
  have hlines := unbroken_of_mem_lines hold hnew
  have hread := readLines_hunks (hunks rows)
  generalize hunks rows = hs at *
  cases hs with
  | nil => rfl
  | cons h hs =>
    have hsplit : Text.Line.split (unifiedText oldName newName (h :: hs)) =
        ("--- " ++ oldName) :: ("+++ " ++ newName) :: (h :: hs).flatMap Hunk.lines := by
      apply Text.Line.split_terminated
      simp only [List.forall_mem_cons]
      exact ⟨unbroken_append (by decide) holdName,
        unbroken_append (by decide) hnewName, hlines⟩
    have hnames : ("--- ".toList.isPrefixOf ("--- " ++ oldName).toList &&
        "+++ ".toList.isPrefixOf ("+++ " ++ newName).toList) = true := by
      simp [String.toList_append]
    rw [read, hsplit]
    simp only [hnames, if_true, hread, Option.map_some]

/-! ## The hunks of a difference lead from the old lines to the new ones -/

@[simp] theorem start_ofStart (start length : Nat) :
    (HeadRange.ofStart start length).start = start := by
  by_cases hzero : length = 0 <;> simp [HeadRange.start, HeadRange.ofStart, hzero]

theorem apply_cons {position : Nat} {hs : List PatchHunk}
    (h : ∀ first ∈ hs.head?, position < first.oldRange.start) (x : String)
    (lines : List String) :
    apply position hs (x :: lines) = (apply (position + 1) hs lines).map (x :: ·) := by
  cases hs with
  | nil => rfl
  | cons first hs =>
    have hlt : position < first.oldRange.start := h first rfl
    obtain ⟨gap, hgap⟩ : ∃ gap, first.oldRange.start = position + 1 + gap :=
      ⟨first.oldRange.start - (position + 1), by omega⟩
    have hgap₀ : position + 1 + gap - position = gap + 1 := by omega
    have hgap₁ : position + 1 + gap - (position + 1) = gap := by omega
    have hle₀ : position ≤ position + 1 + gap := by omega
    have hle₁ : position + 1 ≤ position + 1 + gap := by omega
    have hnext : gap + 1 + first.oldRange.length = gap + first.oldRange.length + 1 := by
      omega
    simp only [apply, hgap, hgap₀, hgap₁, hle₀, hle₁, true_and, List.drop_succ_cons,
      List.take_succ_cons, hnext]
    split
    · simp [Function.comp_def]
    · rfl

theorem apply_covers {old new : Nat} {rows : List (Edit String)} {hs : List (Hunk String)}
    (h : Covers old new rows hs) :
    apply old (hs.map Hunk.toPatch) (rows.filterMap Edit.old?) =
      some (rows.filterMap Edit.new?) := by
  induction h with
  | done => rfl
  | @skip old new rows hs x rest ih =>
    have hfirst : ∀ first ∈ (hs.map Hunk.toPatch).head?, old < first.oldRange.start := by
      intro first hfirst
      obtain ⟨h, hh, rfl⟩ := List.mem_map.mp (List.mem_of_mem_head? hfirst)
      obtain ⟨before, -, -, hstart, -⟩ := rest.exists_append hh
      rw [Hunk.toPatch, start_ofStart]
      omega
    rw [List.filterMap_cons_some (rfl : Edit.old? (.keep x) = some x), apply_cons hfirst,
      ih, List.filterMap_cons_some (rfl : Edit.new? (.keep x) = some x)]
    rfl
  | @hunk old new rows hs body _ _ ih =>
    have htake : ((body ++ rows).filterMap Edit.old?).take (oldLength body) =
        body.filterMap Edit.old? := by
      rw [List.filterMap_append, oldLength, List.take_left]
    have hdrop : ((body ++ rows).filterMap Edit.old?).drop (oldLength body) =
        rows.filterMap Edit.old? := by
      rw [List.filterMap_append, oldLength, List.drop_left]
    have hlength : (HeadRange.ofStart old (oldLength body)).length = oldLength body := rfl
    simp only [List.map_cons, apply, Hunk.toPatch, start_ofStart, Nat.sub_self,
      List.drop_zero, List.take_zero, Nat.le_refl, true_and, hlength, htake, if_true,
      Nat.zero_add, hdrop]
    rw [ih]
    simp

theorem locates_of_append {before shown after lines : List String}
    (h : lines = before ++ (shown ++ after)) :
    (HeadRange.ofStart before.length shown.length).Locates shown lines := by
  refine ⟨before, after, h, rfl, ?_⟩
  simp only [HeadRange.ofStart, List.length_eq_zero_iff]

theorem locates_of_covers {rows : List (Edit String)} {hs : List (Hunk String)}
    (hcovers : Covers 0 0 rows hs) {h : Hunk String} (hmem : h ∈ hs) :
    h.toPatch.oldRange.Locates (h.rows.filterMap Edit.old?) (rows.filterMap Edit.old?) ∧
      h.toPatch.newRange.Locates (h.rows.filterMap Edit.new?)
        (rows.filterMap Edit.new?) := by
  obtain ⟨before, after, rfl, hold, hnew⟩ := hcovers.exists_append hmem
  rw [Nat.zero_add] at hold hnew
  rw [Hunk.toPatch, hold, hnew]
  constructor
  · exact locates_of_append (by rw [List.filterMap_append, List.filterMap_append])
  · exact locates_of_append (by rw [List.filterMap_append, List.filterMap_append])

theorem pairwise_precedes {old new : Nat} {rows : List (Edit String)}
    {hs : List (Hunk String)} (hcovers : Covers old new rows hs) :
    (hs.map Hunk.toPatch).Pairwise PatchHunk.Precedes := by
  rw [List.pairwise_map]
  refine hcovers.ascending.imp fun {a b} h => ?_
  simp only [PatchHunk.Precedes, Hunk.toPatch, start_ofStart]
  exact h

end Patch

/-! ## Unified diffs of two texts -/

/-- The rows behind a unified diff, by its own alignment. -/
def unifiedRows (old new : List String) : List (Edit String) :=
  (align (fun line => !(frequent new).contains line) old new).rows

theorem filterMap_old_unifiedRows (old new : List String) :
    (unifiedRows old new).filterMap Edit.old? = old :=
  filterMap_old_rows_align _ old new

theorem filterMap_new_unifiedRows (old new : List String) :
    (unifiedRows old new).filterMap Edit.new? = new :=
  filterMap_new_rows_align _ old new

theorem read_unified_compareTexts (oldText newText : String) :
    Patch.read (compareTexts referenceListingName rebuiltListingName oldText
        newText).unified =
      some ((hunks (unifiedRows (Text.Line.split oldText)
        (Text.Line.split newText))).map Hunk.toPatch) := by
  have hunified : (compareTexts referenceListingName rebuiltListingName oldText
      newText).unified = unifiedText referenceListingName rebuiltListingName
        (hunks (unifiedRows (Text.Line.split oldText) (Text.Line.split newText))) := rfl
  rw [hunified]
  apply Patch.read_unifiedText
  · decide
  · decide
  · rw [filterMap_old_unifiedRows]
    exact fun line hline => Text.Line.unbroken_of_mem_split hline
  · rw [filterMap_new_unifiedRows]
    exact fun line hline => Text.Line.unbroken_of_mem_split hline

/-- A unified diff is a patch that leads from the old lines to the new ones, and the
heads of its hunks say where they stand in both texts. -/
theorem unified_is_patch (oldText newText : String) :
    ∃ hs, Patch.read (compareTexts referenceListingName rebuiltListingName oldText
        newText).unified = some hs ∧
      Patch.apply 0 hs (Text.Line.split oldText) = some (Text.Line.split newText) ∧
      (∀ h ∈ hs,
        h.oldRange.Locates (h.rows.filterMap Edit.old?) (Text.Line.split oldText) ∧
        h.newRange.Locates (h.rows.filterMap Edit.new?) (Text.Line.split newText)) ∧
      hs.Pairwise PatchHunk.Precedes := by
  refine ⟨_, read_unified_compareTexts oldText newText, ?_⟩
  have hold := filterMap_old_unifiedRows (Text.Line.split oldText) (Text.Line.split newText)
  have hnew := filterMap_new_unifiedRows (Text.Line.split oldText) (Text.Line.split newText)
  generalize unifiedRows _ _ = rows at *
  have hcovers := covers_hunks rows
  rw [← hold, ← hnew]
  refine ⟨Patch.apply_covers hcovers, fun h hmem => ?_, Patch.pairwise_precedes hcovers⟩
  obtain ⟨h, hh, rfl⟩ := List.mem_map.mp hmem
  exact Patch.locates_of_covers hcovers hh

end BinMatch.Diff
