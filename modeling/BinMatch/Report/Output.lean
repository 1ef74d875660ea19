import BinMatch.Diff.TextDiff
import BinMatch.Disk
import BinMatch.Report.Index
import BinMatch.Text.Notation

/-!
# Writing a report

The report directory holds the index and two pages for every compared function, one
of them a table with the old text in the left column and the new text in the right one.
Where two functions share a page name the page written last is kept.
-/

namespace BinMatch.Report

/-! ## Function pages -/

def isUnsafe (c : Char) : Bool :=
  ['<', '>', ':', '"', '/', '\\', '|', '?', '*'].contains c

/-- The function's name, with an underscore for each unsafe character. -/
def pageName (functionName : String) : String :=
  String.ofList
    (functionName.toList.map fun c => if isUnsafe c then '_' else c)

def tableRow (e : Diff.Edit String) : String :=
  match e with
  | .keep x =>
    let text := Text.Entity.escape x
    "<tr><td>" ++ text ++ "</td><td>" ++ text ++ "</td></tr>"
  | .delete x =>
    "<tr><td class=\"code-delete\">" ++ Text.Entity.escape x ++
      "</td><td></td></tr>"
  | .insert x =>
    "<tr><td></td><td class=\"code-insert\">" ++ Text.Entity.escape x ++
      "</td></tr>"

def htmlText (rows : List (Diff.Edit String)) : String :=
  "<table>\n" ++ "\n".intercalate (rows.map tableRow) ++ "\n</table>\n"

/-! ## Files -/

/-- The ends of the names of the pages of a function, with the text of each. -/
def pageKinds : List (String × (Diff.TextDiff → String)) :=
  [(".diff", (·.unified)), (".html", fun d => htmlText d.rows)]

def pagesOf (r : FunctionReport) : List (String × String) :=
  match r.result with
  | none => []
  | some d => pageKinds.map fun (suffix, text) => (pageName r.name ++ suffix, text d)

def Node.files (root : Node) : List (String × String) :=
  ("index.txt", root.indexText) ::
    root.lastChildFirst.flatMap fun n => n.functions.flatMap pagesOf

/-- The disk after the report was written into `dir`, and why that stopped early
if it did.  What was written before stays. -/
def write (disk : Disk) (dir : Path) (root : Node) :
    Disk × Option Disk.Stop :=
  match Disk.atNameable dir (disk.makeDirectory dir) with
  | .error stop => (disk, some stop)
  | .ok made =>
    made.writeAll (root.files.map fun (name, text) => (dir.child name, text))

end BinMatch.Report
