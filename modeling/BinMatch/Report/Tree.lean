import BinMatch.Comparison.Sweep
import BinMatch.Path

/-!
# Report trees

A function is filed under the components of its source path, without the directories
that all known paths have in common; one without a known source file is filed under a
component that says so.  The reports form a tree with one node for every directory and
source file, and the aggregates of a node count the functions of its whole subtree.
-/

namespace BinMatch.Report

/-! ## Source paths -/

def isKnown (sourceFile : String) : Bool :=
  sourceFile ≠ "" && sourceFile ≠ unknownSource

/-- Path components; backslashes separate them as slashes do. -/
def components (sourceFile : String) : List String :=
  let slashed := sourceFile.toList.map fun c => if c = '\\' then '/' else c
  (Path.ofString (String.ofList slashed)).components

def commonStart : List String → List String → List String
  | x :: xs, y :: ys => if x = y then x :: commonStart xs ys else []
  | _, _ => []

def commonDirectory : List (List String) → List String
  | [] => []
  | path :: paths =>
    paths.foldl (fun dir p => commonStart dir p.dropLast) path.dropLast

def strippedLength (sourceFiles : List String) : Nat :=
  (commonDirectory ((sourceFiles.filter isKnown).map components)).length

def keyOf (stripped : Nat) (sourceFile : String) : List String :=
  if isKnown sourceFile then (components sourceFile).drop stripped
  else [unknownSource]

/-! ## Trees -/

/-- A node holds the functions of its own key and the nodes one component
longer, sorted by that component.  Walks over a tree go as deep as its longest key: it is
taken for granted that a source path has too few components to exhaust the stack. -/
inductive Node where
  | mk (key : List String) (functions : List FunctionReport)
      (children : List Node)

abbrev Entry := List String × FunctionReport

/-- The first components of the keys, sorted, each of them once. -/
def heads (entries : List Entry) : List String :=
  (entries.filterMap (·.1.head?)).eraseDups.mergeSort fun a b => a ≤ b

/-- The entries whose keys start with `head`, without that component. -/
def entriesUnder (head : String) (entries : List Entry) : List Entry :=
  entries.filterMap fun (key, r) =>
    match key with
    | [] => none
    | first :: rest => if first = head then some (rest, r) else none

namespace Node

def key : Node → List String
  | mk key _ _ => key

def functions : Node → List FunctionReport
  | mk _ functions _ => functions

def children : Node → List Node
  | mk _ _ children => children

/-- The tree of entries at `key`, for keys of at most `depth` components. -/
def ofEntries : Nat → List String → List Entry → Node
  | 0, key, entries => mk key (entries.map (·.2)) []
  | depth + 1, key, entries =>
    mk key ((entries.filter (·.1.isEmpty)).map (·.2))
      ((heads entries).map fun head =>
        ofEntries depth (key ++ [head]) (entriesUnder head entries))

def path (n : Node) : String :=
  if n.key.isEmpty then "root" else "/".intercalate n.key

mutual

def total : Node → Nat
  | mk _ functions children => functions.length + totalOf children

def totalOf : List Node → Nat
  | [] => 0
  | n :: ns => n.total + totalOf ns

end

mutual

def matching : Node → Nat
  | mk _ functions children =>
    functions.countP (·.isMatch) + matchingOf children

def matchingOf : List Node → Nat
  | [] => 0
  | n :: ns => n.matching + matchingOf ns

end

section Sum

variable {ρ : Type} (zero : ρ) (add : ρ → ρ → ρ) (own : FunctionReport → ρ)

mutual

/-- The sum over a subtree in any kind of number: the functions of the node in
their order, then the sums of its children in theirs. -/
def sum : Node → ρ
  | mk _ functions children =>
    sumOnto (functions.foldl (fun s r => add s (own r)) zero) children

def sumOnto (s : ρ) : List Node → ρ
  | [] => s
  | n :: ns => sumOnto (add s (sum n)) ns

end

/-- The sum over a subtree divided by the number of its functions, zero when it
is empty. -/
def mean (divide : ρ → Nat → ρ) (n : Node) : ρ :=
  if n.total = 0 then zero else divide (n.sum zero add own) n.total

end Sum

def ratio (n : Node) : Float :=
  n.mean 0.0 (· + ·) FunctionReport.ratio fun sum count => sum / Float.ofNat count

mutual

/-- The nodes of a subtree, each before its children and later children first. -/
def lastChildFirst : Node → List Node
  | mk key functions children =>
    mk key functions children :: lastChildFirstOf children

def lastChildFirstOf : List Node → List Node
  | [] => []
  | n :: ns => lastChildFirstOf ns ++ n.lastChildFirst

end

end Node

def entriesOf (reports : List FunctionReport) : List Entry :=
  let stripped := strippedLength (reports.map (·.sourceFile))
  reports.map fun r => (keyOf stripped r.sourceFile, r)

def depthOf (entries : List Entry) : Nat :=
  entries.foldl (fun d e => max d e.1.length) 0

def treeOf (reports : List FunctionReport) : Node :=
  let entries := entriesOf reports
  Node.ofEntries (depthOf entries) [] entries

end BinMatch.Report
