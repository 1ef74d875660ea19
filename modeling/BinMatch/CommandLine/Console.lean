import BinMatch.Comparison.Sweep
import BinMatch.Report.Index
import BinMatch.Text.Notation

/-!
# Console output

What the commands print: lines of text, and a table of all compared functions.
Words in brackets are colours.
-/

namespace BinMatch.CommandLine

structure Table where
  title : String
  columns : List String
  rows : List (List String)
  deriving DecidableEq, Repr

inductive Printed where
  | line (text : String)
  | table (t : Table)
  deriving DecidableEq, Repr

def colours : List String := ["red", "green", "yellow"]

def plain (text : String) : String :=
  colours.foldl
    (fun t colour =>
      (t.replace ("[" ++ colour ++ "]") "").replace ("[/" ++ colour ++ "]") "")
    text

/-- What is printed as text without colours, a row of a table on each line. -/
def Printed.text : Printed → String
  | .line text => plain text
  | .table t =>
    "\n".intercalate
      (t.title :: (t.columns :: t.rows).map fun row =>
        "  ".intercalate (row.map plain))

/-- A line that opens with a colour is read for marks; any other is printed as it is. -/
def opensWithColour (text : String) : Bool :=
  colours.any fun colour => ("[" ++ colour ++ "]").toList.isPrefixOf text.toList

/-- The texts that are read for marks, which cells of a table are in any case. -/
def Printed.marked : Printed → List String
  | .line text => if opensWithColour text then [text] else []
  | .table t => t.title :: (t.columns ++ t.rows.flatten)

/-- A console reads words in brackets as marks.  The program puts in colours, but a name or a
path may bring in others, and the marks of a text may then not fit together. -/
structure Console where
  accepts : String → Bool

/-- The first text that the console cannot print. -/
def Console.refusal? (console : Console) (p : Printed) : Option String :=
  p.marked.find? fun text => !console.accepts text

def coloured (colour text : String) : String :=
  "[" ++ colour ++ "]" ++ text ++ "[/" ++ colour ++ "]"

def reportRow (r : FunctionReport) : List String :=
  match r.result with
  | none => [r.name, "-", coloured "red" (r.error.getD "None")]
  | some d =>
    if d.isMatch then [r.name, "100.0%", coloured "green" "match"]
    else [r.name, Text.Percent.ofRatio r.ratio, coloured "yellow" "differs"]

def reportTable (reports : List FunctionReport) : Table :=
  { title := "Function comparison"
    columns := ["Function", "Match", "Status"]
    rows := reports.map reportRow }

def reportSummary (root : Report.Node) (directory : Path) : String :=
  coloured "green"
    (root.tally ++ " functions matching (" ++ Text.Percent.ofRatio root.ratio ++
      "); report written to " ++ directory.toString)

def listingSummary (count : Nat) (file : Path) : String :=
  coloured "green"
    ("Wrote " ++ toString count ++ " functions to " ++ file.toString)

end BinMatch.CommandLine
