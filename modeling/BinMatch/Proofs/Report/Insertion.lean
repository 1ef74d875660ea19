import BinMatch.Proofs.Report.Tree

/-!
# Filing one report after the other

A tree can also be grown report by report: the nodes on the way to a key are looked up, and
those that are missing are made behind the others.  When all reports are filed the children
are sorted, and the tree is the one that is built from its root down.
-/

namespace BinMatch.Report

/-- The first components of the keys in the order in which they are met. -/
def firstHeads (entries : List Entry) : List String :=
  (entries.filterMap (·.1.head?)).eraseDups

section Entries

variable {entries : List Entry} {head : String} {rest : List String} {r : FunctionReport}

theorem mem_firstHeads : head ∈ firstHeads entries ↔ head ∈ heads entries := by
  rw [heads, List.mem_mergeSort, firstHeads]

theorem entriesUnder_of_not_mem (h : head ∉ firstHeads entries) :
    entriesUnder head entries = [] := by
  apply List.eq_nil_iff_forall_not_mem.mpr
  rintro ⟨key, r⟩ hentry
  exact h (mem_firstHeads.mpr (mem_heads.mpr ⟨key, r, mem_entriesUnder.mp hentry⟩))

theorem firstHeads_concat_cons :
    firstHeads (entries ++ [(head :: rest, r)]) =
      if head ∈ firstHeads entries then firstHeads entries
      else firstHeads entries ++ [head] := by
  have hmem : head ∈ entries.filterMap (·.1.head?) ↔ head ∈ firstHeads entries :=
    List.mem_eraseDups.symm
  have hsplit : firstHeads (entries ++ [(head :: rest, r)]) =
      (entries.filterMap (·.1.head?) ++ [head]).eraseDups := by
    rw [firstHeads, List.filterMap_append]
    rfl
  rw [hsplit, List.eraseDups_append, ← firstHeads]
  by_cases h : head ∈ firstHeads entries
  · have hnone : [head].removeAll (entries.filterMap (·.1.head?)) = [] := by
      simp [List.removeAll, hmem.mpr h]
    rw [if_pos h, hnone]
    exact List.append_nil _
  · have hone : [head].removeAll (entries.filterMap (·.1.head?)) = [head] := by
      simp [List.removeAll, mt hmem.mp h]
    rw [if_neg h, hone]
    rfl

theorem firstHeads_concat_nil : firstHeads (entries ++ [([], r)]) = firstHeads entries := by
  rw [firstHeads, List.filterMap_append]
  exact congrArg List.eraseDups (List.append_nil _)

theorem entriesUnder_concat (head' : String) :
    entriesUnder head' (entries ++ [(head :: rest, r)]) =
      entriesUnder head' entries ++ if head = head' then [(rest, r)] else [] := by
  rw [entriesUnder, List.filterMap_append]
  by_cases h : head = head' <;> simp [entriesUnder, h]

theorem entriesUnder_concat_nil :
    entriesUnder head (entries ++ [([], r)]) = entriesUnder head entries := by
  rw [entriesUnder, List.filterMap_append]
  exact List.append_nil _

end Entries

namespace Node

/-! ## The tree as it grows -/

/-- File one more report under the rest of its key. -/
def insert (r : FunctionReport) : List String → Node → Node
  | [], mk key functions children => mk key (functions ++ [r]) children
  | head :: rest, mk key functions children =>
    mk key functions
      (if children.any (·.key = key ++ [head]) then
        children.map fun c => if c.key = key ++ [head] then c.insert r rest else c
      else children ++ [(mk (key ++ [head]) [] []).insert r rest])

mutual

/-- The tree with the children of every node sorted by their paths. -/
def sorted : Node → Node
  | mk key functions children =>
    mk key functions ((sortedAll children).mergeSort fun a b => a.path ≤ b.path)

def sortedAll : List Node → List Node
  | [] => []
  | n :: ns => n.sorted :: sortedAll ns

end

/-- The tree of entries at `key`, its nodes in the order in which they are met. -/
def gathered : Nat → List String → List Entry → Node
  | 0, key, entries => mk key (entries.map (·.2)) []
  | depth + 1, key, entries =>
    mk key ((entries.filter (·.1.isEmpty)).map (·.2))
      ((firstHeads entries).map fun head =>
        gathered depth (key ++ [head]) (entriesUnder head entries))

theorem key_gathered (depth : Nat) (key : List String) (entries : List Entry) :
    (gathered depth key entries).key = key := by
  cases depth <;> rfl

theorem gathered_nil (depth : Nat) (key : List String) : gathered depth key [] = mk key [] [] := by
  cases depth <;> rfl

/-- What one more report does to the tree of the reports before it. -/
theorem gathered_concat {depth : Nat} {rest : List String} (hrest : rest.length ≤ depth)
    (key : List String) (entries : List Entry) (r : FunctionReport) :
    gathered depth key (entries ++ [(rest, r)]) = (gathered depth key entries).insert r rest := by
  -- The report goes down one level with every component of its key.
  induction rest generalizing depth key entries with
  | nil =>
    cases depth with
    | zero =>
      unfold gathered insert
      rw [List.map_append]
      rfl
    | succ depth =>
      unfold gathered insert
      simp only [firstHeads_concat_nil, entriesUnder_concat_nil, List.filter_append,
        List.map_append]
      rfl
  | cons head rest ih =>
    obtain ⟨depth, rfl⟩ : ∃ d, depth = d + 1 := Nat.exists_eq_succ_of_ne_zero (by
      rw [List.length_cons] at hrest
      omega)
    have hrest' : rest.length ≤ depth := Nat.le_of_succ_le_succ hrest
    have hkeys : ((firstHeads entries).map fun head' =>
        gathered depth (key ++ [head']) (entriesUnder head' entries)).any
          (·.key = key ++ [head]) = decide (head ∈ firstHeads entries) := by
      rw [Bool.eq_iff_iff, List.any_map, List.any_eq_true, decide_eq_true_eq]
      simp [key_gathered]
    have hown : (entries ++ [(head :: rest, r)]).filter (·.1.isEmpty) =
        entries.filter (·.1.isEmpty) := by
      rw [List.filter_append]
      exact List.append_nil _
    unfold gathered insert
    rw [hkeys, hown, firstHeads_concat_cons]
    congr 1
    by_cases h : head ∈ firstHeads entries
    · rw [if_pos h, if_pos (decide_eq_true h), List.map_map]
      apply List.map_congr_left
      intro head' _
      rw [Function.comp_apply, key_gathered, entriesUnder_concat]
      by_cases hsame : head = head'
      · subst hsame
        rw [if_pos rfl, if_pos rfl]
        exact ih hrest' _ _
      · rw [if_neg hsame, List.append_nil, if_neg]
        simpa using Ne.symm hsame
    · rw [if_neg h, if_neg (by simpa using h), List.map_append, List.map_singleton]
      congr 1
      · apply List.map_congr_left
        intro head' hhead'
        have hother : head ≠ head' := fun heq => h (heq ▸ hhead')
        rw [entriesUnder_concat, if_neg hother, List.append_nil]
      · rw [entriesUnder_concat, if_pos rfl, ih hrest', entriesUnder_of_not_mem h,
          gathered_nil]

theorem foldl_insert_gathered {depth : Nat} (key : List String) {entries : List Entry}
    (h : Bounded depth entries) (before : List Entry) :
    entries.foldl (fun tree e => tree.insert e.2 e.1) (gathered depth key before) =
      gathered depth key (before ++ entries) := by
  induction entries generalizing before with
  | nil => rw [List.foldl_nil, List.append_nil]
  | cons e entries ih =>
    obtain ⟨he, hentries⟩ := List.forall_mem_cons.mp h
    rw [List.foldl_cons, ← gathered_concat he, ih hentries, List.append_assoc]
    rfl

/-! ## The tree sorted at the end -/

theorem sortedAll_eq (ns : List Node) : sortedAll ns = ns.map sorted := by
  induction ns with
  | nil => rfl
  | cons n ns ih => rw [sortedAll, ih, List.map_cons]

theorem sorted_gathered (depth : Nat) (key : List String) (entries : List Entry) :
    (gathered depth key entries).sorted = ofEntries depth key entries := by
  induction depth generalizing key entries with
  | zero =>
    unfold gathered sorted ofEntries
    rw [sortedAll, List.mergeSort_nil]
  | succ depth ih =>
    obtain ⟨front, hfront⟩ := exists_path_eq_append key
    have hchildren : sortedAll ((firstHeads entries).map fun head =>
        gathered depth (key ++ [head]) (entriesUnder head entries)) =
          (firstHeads entries).map fun head =>
            ofEntries depth (key ++ [head]) (entriesUnder head entries) := by
      rw [sortedAll_eq, List.map_map]
      exact List.map_congr_left fun head _ => ih _ _
    unfold gathered sorted ofEntries
    rw [hchildren, heads, ← firstHeads, List.map_mergeSort]
    intro head _ head' _
    rw [hfront, hfront, decide_eq_decide]
    exact (Text.append_le_append_iff front).symm

end Node

/-- Filing the reports one after the other and sorting at the end gives the report tree. -/
theorem treeOf_eq_sorted_foldl_insert (reports : List FunctionReport) :
    treeOf reports = ((entriesOf reports).foldl (fun (tree : Node) e => tree.insert e.2 e.1)
      (.mk [] [] [])).sorted := by
  have hgrown := Node.foldl_insert_gathered [] (bounded_depthOf (entriesOf reports)) []
  rw [Node.gathered_nil, List.nil_append] at hgrown
  rw [treeOf, hgrown, Node.sorted_gathered]

end BinMatch.Report
