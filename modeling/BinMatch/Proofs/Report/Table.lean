import BinMatch.Proofs.Diff.Alignment
import BinMatch.Proofs.Text.Entity
import BinMatch.Proofs.Text.Line
import BinMatch.Proofs.Text.Scanner
import BinMatch.Report.Output

/-!
# Tables read back

The table of a page is read as a browser reads it: element by element, without a look
at the lines that it is written on.  What is read are the rows that were written,
whatever characters stand in their texts.
-/

namespace BinMatch.Report

open Diff (Edit)
open Text (Scanner)

structure Cell where
  mark : Option String
  text : String
  deriving DecidableEq, Repr

namespace Cell

def markText : Option String → String
  | none => ""
  | some name => " class=\"" ++ name ++ "\""

def written (cell : Cell) : String :=
  "<td" ++ markText cell.mark ++ ">" ++ Text.Entity.escape cell.text ++ "</td>"

/-- The class of a cell whose element has been opened. -/
def readMark : Scanner (Option String) := do
  if ← Scanner.accept " class=\"" then
    let name ← Scanner.takeWhile (· != '"')
    Scanner.expect "\""
    pure (some (String.ofList name))
  else pure none

def read : Scanner Cell := do
  Scanner.expect "<td"
  let mark ← readMark
  Scanner.expect ">"
  let escaped ← Scanner.takeWhile (· != '<')
  Scanner.expect "</td>"
  match Text.Entity.unescape escaped with
  | some text => pure { mark, text := String.ofList text }
  | none => failure

theorem run_readMark {mark : Option String} (hmark : ∀ name ∈ mark, '"' ∉ name.toList)
    (rest : List Char) :
    readMark.run ((markText mark).toList ++ (">".toList ++ rest)) =
      some (mark, ">".toList ++ rest) := by
  cases mark with
  | none =>
    have hplain : (Scanner.accept " class=\"").run (">".toList ++ rest) =
        some (false, ">".toList ++ rest) := Scanner.run_accept_of_not rfl
    exact Scanner.run_bind_of_run hplain
  | some name =>
    have htext : (markText (some name)).toList ++ (">".toList ++ rest) =
        " class=\"".toList ++ (name.toList ++ ("\"".toList ++ (">".toList ++ rest))) := by
      simp [markText]
    have hname : (Scanner.takeWhile (· != '"')).run
        (name.toList ++ ("\"".toList ++ (">".toList ++ rest))) =
          some (name.toList, "\"".toList ++ (">".toList ++ rest)) := by
      apply Scanner.run_takeWhile_append
      · intro c hc
        have hne : c ≠ '"' := fun heq => hmark name rfl (heq ▸ hc)
        simpa using hne
      · simp
    rw [htext, readMark, Scanner.run_bind_of_run (Scanner.run_accept _ _), if_pos rfl,
      Scanner.run_bind_of_run hname, Scanner.run_bind_of_run (Scanner.run_expect _ _),
      String.ofList_toList]
    rfl

theorem toList_written_append (cell : Cell) (rest : List Char) :
    cell.written.toList ++ rest = "<td".toList ++ ((markText cell.mark).toList ++
      (">".toList ++ ((Text.Entity.escape cell.text).toList ++ ("</td>".toList ++ rest)))) := by
  simp only [written, String.toList_append, List.append_assoc]

/-- A cell is read back whatever comes after it. -/
theorem run_read {cell : Cell} (hmark : ∀ name ∈ cell.mark, '"' ∉ name.toList)
    (rest : List Char) : read.run (cell.written.toList ++ rest) = some (cell, rest) := by
  have hescaped : (Scanner.takeWhile (· != '<')).run
      ((Text.Entity.escape cell.text).toList ++ ("</td>".toList ++ rest)) =
        some ((Text.Entity.escape cell.text).toList, "</td>".toList ++ rest) := by
    apply Scanner.run_takeWhile_append
    · intro c hc
      have hne : c ≠ '<' := by
        rintro rfl
        exact absurd (Text.Entity.not_reserved_of_mem_escape hc (by decide)) (by decide)
      simpa using hne
    · simp
  rw [toList_written_append, read, Scanner.run_bind_of_run (Scanner.run_expect _ _),
    Scanner.run_bind_of_run (run_readMark hmark _),
    Scanner.run_bind_of_run (Scanner.run_expect _ _), Scanner.run_bind_of_run hescaped,
    Scanner.run_bind_of_run (Scanner.run_expect _ _), Text.Entity.unescape_escape]
  show some (({ mark := cell.mark, text := String.ofList cell.text.toList } : Cell), rest) = _
  rw [String.ofList_toList]

end Cell

def readRow : Scanner (List Cell) := do
  Scanner.expect "<tr>"
  let cells ← Scanner.valuesUntil "</tr>" Cell.read
  Scanner.skipWhile Char.isWhitespace
  pure cells

def tableRows : Scanner (List (List Cell)) := do
  Scanner.expect "<table>"
  Scanner.skipWhile Char.isWhitespace
  let rows ← Scanner.valuesUntil "</table>" readRow
  Scanner.skipWhile Char.isWhitespace
  pure rows

def readTable (page : String) : Option (List (List Cell)) :=
  Scanner.readAll tableRows page.toList

/-- What a row of a comparison shows: the old text on the left and the new text on the
right. -/
def cellsOf : Edit String → List Cell
  | .keep x => [{ mark := none, text := x }, { mark := none, text := x }]
  | .delete x => [{ mark := some "code-delete", text := x }, { mark := none, text := "" }]
  | .insert x => [{ mark := none, text := "" }, { mark := some "code-insert", text := x }]

/-- The row of a comparison by the form of its cells.  A line that both sides have is
the same in either cell. -/
def editOf : List Cell → Option (Edit String)
  | [{ mark := none, text := x }, { mark := none, text := y }] =>
    if x = y then some (.keep x) else none
  | [{ mark := some "code-delete", text := x }, { mark := none, text := "" }] =>
    some (.delete x)
  | [{ mark := none, text := "" }, { mark := some "code-insert", text := x }] =>
    some (.insert x)
  | _ => none

/-- The comparison that a page shows. -/
def rowsOf (page : String) : Option (List (Edit String)) :=
  (readTable page).bind fun table => table.mapM editOf

/-- Texts of the left column; a cell beside an inserted line holds no text. -/
def leftColumn (table : List (List Cell)) : List String :=
  table.filterMap fun
    | [left, right] => if right.mark = some "code-insert" then none else some left.text
    | _ => none

/-- Texts of the right column; a cell beside a deleted line holds no text. -/
def rightColumn (table : List (List Cell)) : List String :=
  table.filterMap fun
    | [left, right] => if left.mark = some "code-delete" then none else some right.text
    | _ => none

/-! ## What is written is read back -/

theorem editOf_cellsOf (e : Edit String) : editOf (cellsOf e) = some e := by
  cases e with
  | keep x => exact if_pos rfl
  | delete x => rfl
  | insert x => rfl

theorem length_cellsOf (e : Edit String) : (cellsOf e).length = 2 := by
  cases e <;> rfl

theorem leftColumn_cellsOf (rows : List (Edit String)) :
    leftColumn (rows.map cellsOf) = rows.filterMap Edit.old? := by
  rw [leftColumn, List.filterMap_map]
  congr 1
  funext e
  cases e <;> rfl

theorem rightColumn_cellsOf (rows : List (Edit String)) :
    rightColumn (rows.map cellsOf) = rows.filterMap Edit.new? := by
  rw [rightColumn, List.filterMap_map]
  congr 1
  funext e
  cases e <;> rfl

theorem mapM_editOf_cellsOf (rows : List (Edit String)) :
    (rows.map cellsOf).mapM editOf = some rows := by
  rw [List.mapM_map]
  have hedit : editOf ∘ cellsOf = pure := funext editOf_cellsOf
  rw [hedit]
  exact (List.mapM_pure (m := Option)).trans (congrArg some (List.map_id rows))

/-- Class names stand in quotes, so none of them holds one. -/
theorem not_mem_mark_cellsOf {e : Edit String} {cell : Cell} (hcell : cell ∈ cellsOf e) :
    ∀ name ∈ cell.mark, '"' ∉ name.toList := by
  cases e <;> simp only [cellsOf, List.mem_cons, List.not_mem_nil, or_false] at hcell <;>
    rcases hcell with rfl | rfl <;> simp

def rowWritten (cells : List Cell) : List Char :=
  "<tr>".toList ++ (cells.flatMap (·.written.toList) ++ ("</tr>".toList ++ "\n".toList))

theorem tableRow_keep (x : String) :
    tableRow (.keep x) =
      "<tr><td>" ++ Text.Entity.escape x ++ "</td><td>" ++ Text.Entity.escape x ++
        "</td></tr>" := rfl

theorem tableRow_delete (x : String) :
    tableRow (.delete x) =
      "<tr><td class=\"code-delete\">" ++ Text.Entity.escape x ++ "</td><td></td></tr>" := rfl

theorem tableRow_insert (x : String) :
    tableRow (.insert x) =
      "<tr><td></td><td class=\"code-insert\">" ++ Text.Entity.escape x ++ "</td></tr>" := rfl

theorem rowWritten_cellsOf (e : Edit String) :
    rowWritten (cellsOf e) = (tableRow e).toList ++ "\n".toList := by
  have hempty : (Text.Entity.escape "").toList = [] := rfl
  cases e with
  | keep x =>
    rw [tableRow_keep]
    simp [rowWritten, cellsOf, Cell.written, Cell.markText]
  | delete x =>
    rw [tableRow_delete]
    simp [rowWritten, cellsOf, Cell.written, Cell.markText, hempty]
  | insert x =>
    rw [tableRow_insert]
    simp [rowWritten, cellsOf, Cell.written, Cell.markText, hempty]

/-- Space ends where the next element is opened or closed. -/
def StartsSolid (text : List Char) : Prop :=
  ∀ c ∈ text.head?, c.isWhitespace = false

theorem startsSolid_closing (rest : List Char) : StartsSolid ("</table>".toList ++ rest) := by
  rintro c ⟨⟩
  decide

theorem startsSolid_rowWritten (cells : List Cell) (rest : List Char) :
    StartsSolid (rowWritten cells ++ rest) := by
  rintro c ⟨⟩
  decide

theorem run_readRow {cells : List Cell}
    (hmark : ∀ cell ∈ cells, ∀ name ∈ cell.mark, '"' ∉ name.toList) {rest : List Char}
    (hrest : StartsSolid rest) :
    readRow.run (rowWritten cells ++ rest) = some (cells, rest) := by
  have hcells : (Scanner.valuesUntil "</tr>" Cell.read).run
      (cells.flatMap (·.written.toList) ++ ("</tr>".toList ++ ("\n".toList ++ rest))) =
        some (cells, "\n".toList ++ rest) := by
    apply Scanner.readUntil_flatMap (P := fun _ => True)
    · exact fun _ => trivial
    · intro cell rest
      rw [Cell.toList_written_append]
      rfl
    · exact fun _ _ => trivial
    · exact fun cell hcell rest _ => Cell.run_read (hmark cell hcell) rest
  have hspace : (Scanner.skipWhile Char.isWhitespace).run ("\n".toList ++ rest) =
      some ((), rest) := Scanner.run_skipWhile_append (List.all_eq_true.mp (by decide)) hrest
  have htext : rowWritten cells ++ rest = "<tr>".toList ++
      (cells.flatMap (·.written.toList) ++ ("</tr>".toList ++ ("\n".toList ++ rest))) := by
    simp only [rowWritten, List.append_assoc]
  rw [htext, readRow, Scanner.run_bind_of_run (Scanner.run_expect _ _),
    Scanner.run_bind_of_run hcells, Scanner.run_bind_of_run hspace]
  rfl

/-! ## Lines of a page -/

/-- Lines between the two tags of a table; one empty line if there are no rows. -/
def bodyLines (rows : List (Edit String)) : List String :=
  if rows = [] then [""] else rows.map tableRow

theorem bodyLines_ne_nil (rows : List (Edit String)) : bodyLines rows ≠ [] := by
  unfold bodyLines
  split
  · exact List.cons_ne_nil _ _
  · rename_i hrows
    rwa [Ne, List.map_eq_nil_iff]

theorem intercalate_bodyLines (rows : List (Edit String)) :
    "\n".intercalate (bodyLines rows) = "\n".intercalate (rows.map tableRow) := by
  by_cases hrows : rows = []
  · rw [hrows]
    rfl
  · rw [bodyLines, if_neg hrows]

theorem htmlText_eq (rows : List (Edit String)) :
    htmlText rows = "\n".intercalate ("<table>" :: (bodyLines rows ++ ["</table>", ""])) := by
  rw [htmlText, String.intercalate_cons_of_ne_nil (by simp),
    String.intercalate_append_of_ne_nil (bodyLines_ne_nil rows) (by simp),
    intercalate_bodyLines]
  simp [String.append_assoc]

/-- The text that a row of a comparison shows. -/
def rowText : Edit String → String
  | .keep x | .delete x | .insert x => x

theorem newline_not_mem_tableRow {e : Edit String} (h : '\n' ∉ (rowText e).toList) :
    '\n' ∉ (tableRow e).toList := by
  have hescaped : '\n' ∉ (Text.Entity.escape (rowText e)).toList := by
    rwa [Text.Entity.newline_mem_escape_iff]
  cases e with
  | keep x =>
    rw [tableRow_keep]
    simpa [rowText] using hescaped
  | delete x =>
    rw [tableRow_delete]
    simpa [rowText] using hescaped
  | insert x =>
    rw [tableRow_insert]
    simpa [rowText] using hescaped

theorem splitOn_htmlText {rows : List (Edit String)}
    (h : ∀ e ∈ rows, '\n' ∉ (rowText e).toList) :
    (htmlText rows).toList.splitOn '\n' =
      ("<table>" :: (bodyLines rows ++ ["</table>", ""])).map String.toList := by
  have hbody : ∀ line ∈ bodyLines rows, '\n' ∉ line.toList := by
    unfold bodyLines
    split
    · decide
    · rw [List.forall_mem_map]
      exact fun e he => newline_not_mem_tableRow (h e he)
  rw [htmlText_eq, String.toList_intercalate]
  apply List.splitOn_intercalate
  · rw [List.forall_mem_map, List.forall_mem_cons, List.forall_mem_append]
    exact ⟨by decide, hbody, by decide⟩
  · simp

/-! ## Pages -/

theorem toList_intercalate_concat {separator : String} {parts : List String} (h : parts ≠ []) :
    (separator.intercalate parts).toList ++ separator.toList =
      parts.flatMap fun part => part.toList ++ separator.toList := by
  induction parts with
  | nil => exact absurd rfl h
  | cons part parts ih =>
    by_cases hparts : parts = []
    · simp [hparts]
    · rw [String.intercalate_cons_of_ne_nil hparts, String.toList_append, List.append_assoc,
        ih hparts, List.flatMap_cons, String.toList_append]

/-- Behind the opening tag stands a line feed, and a second one if there are no rows. -/
theorem toList_htmlText (rows : List (Edit String)) :
    ∃ space, (∀ c ∈ space, Char.isWhitespace c = true) ∧
      (htmlText rows).toList = "<table>".toList ++
        (space ++ ((rows.map cellsOf).flatMap rowWritten ++
          ("</table>".toList ++ "\n".toList))) := by
  by_cases hrows : rows = []
  · refine ⟨"\n\n".toList, List.all_eq_true.mp (by decide), ?_⟩
    rw [hrows]
    rfl
  · refine ⟨"\n".toList, List.all_eq_true.mp (by decide), ?_⟩
    have hwritten : (rows.map cellsOf).flatMap rowWritten =
        ("\n".intercalate (rows.map tableRow)).toList ++ "\n".toList := by
      rw [toList_intercalate_concat (by rwa [Ne, List.map_eq_nil_iff]), List.flatMap_map,
        List.flatMap_map]
      exact congrArg (fun written => rows.flatMap written) (funext rowWritten_cellsOf)
    rw [hwritten, htmlText]
    simp

theorem readTable_htmlText (rows : List (Edit String)) :
    readTable (htmlText rows) = some (rows.map cellsOf) := by
  obtain ⟨space, hspace, htext⟩ := toList_htmlText rows
  have hrows : (Scanner.valuesUntil "</table>" readRow).run
      ((rows.map cellsOf).flatMap rowWritten ++ ("</table>".toList ++ "\n".toList)) =
        some (rows.map cellsOf, "\n".toList) := by
    apply Scanner.readUntil_flatMap startsSolid_closing
    · intro cells rest
      rfl
    · exact startsSolid_rowWritten
    · rw [List.forall_mem_map]
      exact fun e _ rest hrest => run_readRow (fun cell hcell => not_mem_mark_cellsOf hcell) hrest
  have hopen : (Scanner.skipWhile Char.isWhitespace).run
      (space ++ ((rows.map cellsOf).flatMap rowWritten ++ ("</table>".toList ++ "\n".toList))) =
        some ((), (rows.map cellsOf).flatMap rowWritten ++ ("</table>".toList ++ "\n".toList)) := by
    apply Scanner.run_skipWhile_append hspace
    exact Scanner.follows_flatMap startsSolid_closing startsSolid_rowWritten _ _
  have hend : (Scanner.skipWhile Char.isWhitespace).run "\n".toList = some ((), []) := rfl
  have hrun : tableRows.run (htmlText rows).toList = some (rows.map cellsOf, []) := by
    rw [htext, tableRows, Scanner.run_bind_of_run (Scanner.run_expect _ _),
      Scanner.run_bind_of_run hopen, Scanner.run_bind_of_run hrows,
      Scanner.run_bind_of_run hend]
    rfl
  rw [readTable, Scanner.readAll, hrun]

theorem rowsOf_htmlText (rows : List (Edit String)) : rowsOf (htmlText rows) = some rows := by
  rw [rowsOf, readTable_htmlText]
  exact mapM_editOf_cellsOf rows

theorem pages_show_their_rows :
    (∀ rows : List (Edit String),
      readTable (htmlText rows) = some (rows.map cellsOf) ∧
      (∀ cells ∈ rows.map cellsOf, cells.length = 2) ∧
      rowsOf (htmlText rows) = some rows ∧
      leftColumn (rows.map cellsOf) = rows.filterMap Edit.old? ∧
      rightColumn (rows.map cellsOf) = rows.filterMap Edit.new? ∧
      ((∀ e ∈ rows, '\n' ∉ (rowText e).toList) →
        (htmlText rows).toList.splitOn '\n' =
          ("<table>" :: (bodyLines rows ++ ["</table>", ""])).map String.toList)) ∧
    ∀ oldName newName oldText newText : String,
      let rows := (Diff.compareTexts oldName newName oldText newText).rows
      (readTable (htmlText rows)).map leftColumn = some (Text.Line.split oldText) ∧
      (readTable (htmlText rows)).map rightColumn = some (Text.Line.split newText) ∧
      rowsOf (htmlText rows) = some rows := by
  constructor
  · intro rows
    refine ⟨readTable_htmlText rows, ?_, rowsOf_htmlText rows, leftColumn_cellsOf rows,
      rightColumn_cellsOf rows, splitOn_htmlText⟩
    rw [List.forall_mem_map]
    exact fun e _ => length_cellsOf e
  · intro oldName newName oldText newText rows
    have hold : rows.filterMap Edit.old? = Text.Line.split oldText :=
      Diff.filterMap_old_rows_align _ _ _
    have hnew : rows.filterMap Edit.new? = Text.Line.split newText :=
      Diff.filterMap_new_rows_align _ _ _
    rw [readTable_htmlText, Option.map_some, Option.map_some, leftColumn_cellsOf,
      rightColumn_cellsOf, hold, hnew]
    exact ⟨rfl, rfl, rowsOf_htmlText rows⟩

/-- Texts that look like the page around them, or like what is written for them. -/
def markupRows : List (Edit String) :=
  [.keep "call <imm4>", .delete "&lt;</td></tr>", .insert "", .insert "operator<(\"x\", 'y')"]

theorem page_of_markup :
    (∀ e ∈ markupRows, '\n' ∉ (rowText e).toList) ∧
      (htmlText markupRows).toList.splitOn '\n' =
        ["<table>",
          "<tr><td>call &lt;imm4&gt;</td><td>call &lt;imm4&gt;</td></tr>",
          "<tr><td class=\"code-delete\">&amp;lt;&lt;/td&gt;&lt;/tr&gt;</td><td></td></tr>",
          "<tr><td></td><td class=\"code-insert\"></td></tr>",
          "<tr><td></td><td class=\"code-insert\">operator&lt;(&quot;x&quot;, " ++
            "&#x27;y&#x27;)</td></tr>",
          "</table>", ""].map String.toList ∧
      rowsOf (htmlText markupRows) = some markupRows ∧
      leftColumn (markupRows.map cellsOf) = ["call <imm4>", "&lt;</td></tr>"] ∧
      rightColumn (markupRows.map cellsOf) = ["call <imm4>", "", "operator<(\"x\", 'y')"] := by
  have hlines : ∀ e ∈ markupRows, '\n' ∉ (rowText e).toList := by decide
  obtain ⟨-, -, hrows, hleft, hright, hsplit⟩ := pages_show_their_rows.1 markupRows
  exact ⟨hlines, (hsplit hlines).trans rfl, hrows, hleft.trans rfl, hright.trans rfl⟩

end BinMatch.Report
