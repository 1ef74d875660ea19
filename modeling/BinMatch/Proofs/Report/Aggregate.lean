import BinMatch.Proofs.Diff.TextDiff
import BinMatch.Proofs.Report.Tree
import Mathlib.Algebra.BigOperators.Group.List.Lemmas

/-!
# Aggregates of the report tree

Whatever a node adds up out of its own functions and its children is the sum over all
functions below it.  So the aggregates of a node are counts and the plain mean over the
reports filed in its subtree, and those of the root do not depend on the source paths.
-/

namespace BinMatch

/-- The match ratio as an exact number, zero for a function that was not compared. -/
def FunctionReport.exactRatio (r : FunctionReport) : ℚ :=
  match r.result with
  | some d => d.exactRatio
  | none => 0

namespace Report

namespace Node

def allFunctions (n : Node) : List FunctionReport :=
  n.lastChildFirst.flatMap functions

def exactRatio (n : Node) : ℚ :=
  n.mean 0 (· + ·) FunctionReport.exactRatio fun sum count => sum / count

theorem induction {p : Node → Prop}
    (h : ∀ key functions children, (∀ c ∈ children, p c) → p (mk key functions children)) :
    ∀ n, p n := by
  refine @Node.rec p (fun ns => ∀ c ∈ ns, p c) h ?_ ?_
  · exact fun c hc => absurd hc List.not_mem_nil
  · exact fun n ns hn hns => List.forall_mem_cons.mpr ⟨hn, hns⟩

/-! ## Sums over a subtree -/

section Sum

variable {M : Type} [AddCommMonoid M]

theorem allFunctions_mk (key : List String) (functions : List FunctionReport)
    (children : List Node) :
    (mk key functions children).allFunctions =
      functions ++ children.reverse.flatMap allFunctions := by
  rw [allFunctions, lastChildFirst, lastChildFirstOf_eq, List.flatMap_cons, List.flatMap_assoc]
  rfl

/-- What adds up over a node and its children adds up over all functions below. -/
theorem eq_sum_allFunctions {total : Node → M} {own : FunctionReport → M}
    (h : ∀ key functions children, total (mk key functions children) =
      (functions.map own).sum + (children.map total).sum) (n : Node) :
    total n = (n.allFunctions.map own).sum := by
  induction n using Node.induction with
  | h key functions children ih =>
    have hchildren : ∀ ns : List Node, (∀ c ∈ ns, total c = (c.allFunctions.map own).sum) →
        (ns.map total).sum = ((ns.flatMap allFunctions).map own).sum := by
      intro ns hns
      induction ns with
      | nil => rfl
      | cons c ns ihns =>
        obtain ⟨hc, hns⟩ := List.forall_mem_cons.mp hns
        rw [List.map_cons, List.sum_cons, hc, ihns hns, List.flatMap_cons, List.map_append,
          List.sum_append]
    have hperm : (children.flatMap allFunctions).Perm (children.reverse.flatMap allFunctions) :=
      (List.reverse_perm children).symm.flatMap_right allFunctions
    rw [h, hchildren children ih, allFunctions_mk, List.map_append, List.sum_append,
      (hperm.map own).sum_eq]

theorem totalOf_eq (ns : List Node) : totalOf ns = (ns.map total).sum := by
  induction ns with
  | nil => rfl
  | cons n ns ih => rw [totalOf, ih, List.map_cons, List.sum_cons]

theorem matchingOf_eq (ns : List Node) : matchingOf ns = (ns.map matching).sum := by
  induction ns with
  | nil => rfl
  | cons n ns ih => rw [matchingOf, ih, List.map_cons, List.sum_cons]

theorem sumOnto_eq (own : FunctionReport → M) (s : M) (ns : List Node) :
    sumOnto 0 (· + ·) own s ns = s + (ns.map (sum 0 (· + ·) own)).sum := by
  induction ns generalizing s with
  | nil => exact (add_zero s).symm
  | cons n ns ih => rw [sumOnto, ih, List.map_cons, List.sum_cons, add_assoc]

theorem foldl_add_eq (own : FunctionReport → M) (s : M) (rs : List FunctionReport) :
    rs.foldl (fun s r => s + own r) s = s + (rs.map own).sum := by
  induction rs generalizing s with
  | nil => exact (add_zero s).symm
  | cons r rs ih => rw [List.foldl_cons, ih, List.map_cons, List.sum_cons, add_assoc]

theorem sum_eq (own : FunctionReport → M) (n : Node) :
    n.sum 0 (· + ·) own = (n.allFunctions.map own).sum := by
  refine eq_sum_allFunctions (fun key functions children => ?_) n
  rw [sum, sumOnto_eq, foldl_add_eq, zero_add]

end Sum

theorem total_eq (n : Node) : n.total = n.allFunctions.length := by
  have hlength : ∀ rs : List FunctionReport, rs.length = (rs.map fun _ => 1).sum := by
    intro rs
    rw [List.map_const', List.sum_replicate_nat, Nat.mul_one]
  rw [hlength]
  refine eq_sum_allFunctions (fun key functions children => ?_) n
  rw [total, totalOf_eq, hlength]

theorem matching_eq (n : Node) : n.matching = n.allFunctions.countP (·.isMatch) := by
  have hcount : ∀ rs : List FunctionReport,
      rs.countP (·.isMatch) = (rs.map fun r => if r.isMatch then 1 else 0).sum := by
    intro rs
    induction rs with
    | nil => rfl
    | cons r rs ih => rw [List.countP_cons, ih, List.map_cons, List.sum_cons, add_comm]
  rw [hcount]
  refine eq_sum_allFunctions (fun key functions children => ?_) n
  rw [matching, matchingOf_eq, hcount]

end Node

/-- The aggregates of a node are those of a list of reports.  A function matches if it was
compared and its texts match. -/
structure IsAggregate (n : Node) (reports : List FunctionReport) : Prop where
  total : n.total = reports.length
  matching : n.matching = reports.countP fun r => r.result.any (·.isMatch)
  ratio : n.exactRatio =
    if reports = [] then 0 else (reports.map (·.exactRatio)).sum / reports.length

theorem isAggregate_allFunctions (n : Node) : IsAggregate n n.allFunctions where
  total := n.total_eq
  matching := n.matching_eq
  ratio := by
    rw [Node.exactRatio, Node.mean, Node.sum_eq, Node.total_eq]
    simp only [List.length_eq_zero_iff]

theorem IsAggregate.perm {n : Node} {reports reports' : List FunctionReport}
    (h : IsAggregate n reports) (hperm : reports.Perm reports') : IsAggregate n reports' where
  total := h.total.trans hperm.length_eq
  matching := h.matching.trans (hperm.countP_eq _)
  ratio := by
    have hempty : reports = [] ↔ reports' = [] := by
      rw [← List.length_eq_zero_iff, hperm.length_eq, List.length_eq_zero_iff]
    rw [h.ratio, (hperm.map _).sum_eq, hperm.length_eq]
    simp only [hempty]

/-! ## The report tree -/

section Filed

variable {depth : Nat} {key : FunctionReport → List String} {reports : List FunctionReport}

/-- Below a node stand the reports whose keys continue its own. -/
theorem perm_allFunctions_filed (h : Bounded depth (filed key reports)) {n : Node}
    (hn : n ∈ (Node.ofEntries depth [] (filed key reports)).lastChildFirst) :
    n.allFunctions.Perm (reports.filter (n.key <+: key ·)) := by
  obtain ⟨front, -, rfl⟩ := (mem_lastChildFirst_filed h).mp hn
  have hreports : (entriesBelow front (filed key reports)).map (·.2) =
      reports.filter (front <+: key ·) := by
    rw [entriesBelow_eq, filed, List.filter_map, List.map_map, List.map_map]
    exact List.map_id' _
  rw [Node.key_treeBelow, List.nil_append, ← hreports]
  exact Node.perm_functions_ofEntries (h.entriesBelow front)

end Filed

theorem perm_allFunctions_treeOf (reports : List FunctionReport) :
    (treeOf reports).allFunctions.Perm reports :=
  (isPrefixTree_filed (bounded_depthOf _)).once

/-- The aggregates of every node count the reports of its subtree, which are those whose
keys continue the key of the node.  At the root they count all reports, wherever their
source files stand. -/
theorem aggregates_count_subtrees (reports : List FunctionReport) :
    let key (r : FunctionReport) :=
      keyOf (strippedLength (reports.map (·.sourceFile))) r.sourceFile
    (∀ n ∈ (treeOf reports).lastChildFirst,
      n.allFunctions.Perm (reports.filter (n.key <+: key ·)) ∧
      IsAggregate n n.allFunctions) ∧
    IsAggregate (treeOf reports) reports ∧
    ∀ sourceFile : Nat → String,
      (treeOf (reports.mapIdx fun i r => { r with sourceFile := sourceFile i })).exactRatio =
        (treeOf reports).exactRatio := by
  intro key
  have hroot : ∀ reports : List FunctionReport, IsAggregate (treeOf reports) reports :=
    fun reports => (isAggregate_allFunctions _).perm (perm_allFunctions_treeOf reports)
  refine ⟨fun n hn => ⟨?_, isAggregate_allFunctions n⟩, hroot reports, fun sourceFile => ?_⟩
  · exact perm_allFunctions_filed (bounded_depthOf _) hn
  · let moved := reports.mapIdx fun i r => { r with sourceFile := sourceFile i }
    have hratios : moved.map (·.exactRatio) = reports.map (·.exactRatio) := by
      refine List.ext_getElem? fun i => ?_
      rw [List.getElem?_map, List.getElem?_map, List.getElem?_mapIdx, Option.map_map]
      rfl
    have hlength : moved.length = reports.length := List.length_mapIdx
    have hempty : moved = [] ↔ reports = [] := List.mapIdx_eq_nil_iff
    rw [(hroot moved).ratio, (hroot reports).ratio, hratios, hlength]
    simp only [hempty]

end Report

end BinMatch
