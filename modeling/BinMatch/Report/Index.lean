import BinMatch.Report.Tree
import BinMatch.Text.Notation

/-!
# The report index

One line for every node and one for every function below it, indented by depth.
-/

namespace BinMatch.Report

def optionalHex : Option Int → String
  | some v => Text.Hex.address v
  | none => "-"

/-- The match ratio of a compared function, the error of any other. -/
def statusOf (r : FunctionReport) : String :=
  match r.result with
  | some d => Text.Percent.ofRatio d.ratio
  | none => "error: " ++ r.error.getD "None"

def functionLine (pad : String) (r : FunctionReport) : String :=
  pad ++ "  " ++ r.name ++
    " orig=" ++ optionalHex r.referenceAddress ++ "/" ++
      optionalHex r.referenceSize ++
    " new=" ++ optionalHex r.rebuiltOffset ++ "/" ++
      optionalHex r.rebuiltSize ++
    " " ++ statusOf r

namespace Node

def tally (n : Node) : String :=
  toString n.matching ++ "/" ++ toString n.total

def nodeLine (pad : String) (n : Node) : String :=
  pad ++ n.path ++ ": " ++ Text.Percent.ofRatio n.ratio ++
    " (" ++ n.tally ++ " functions matching)"

mutual

def indexLines (pad : String) : Node → List String
  | mk key functions children =>
    (mk key functions children).nodeLine pad ::
      functions.map (functionLine pad) ++ indexLinesOf (pad ++ "  ") children

def indexLinesOf (pad : String) : List Node → List String
  | [] => []
  | n :: ns => n.indexLines pad ++ indexLinesOf pad ns

end

def indexText (root : Node) : String :=
  Text.Line.terminated (root.indexLines "")

end Node

end BinMatch.Report
