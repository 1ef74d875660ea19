import BinMatch.Proofs.Catalog
import BinMatch.Proofs.Report.SourcePath
import BinMatch.Proofs.Text.Order
import BinMatch.Report.Tree

/-!
# The report tree

The nodes of a tree stand for the prefixes of the keys of its entries: the node at a
prefix is the tree of the entries below it.
-/

namespace BinMatch.Report

/-! ## Entries below a key -/

/-- The entries whose keys start with `front`, without it. -/
def entriesBelow : List String → List Entry → List Entry
  | [], entries => entries
  | head :: front, entries => entriesBelow front (entriesUnder head entries)

section Entries

variable {entries : List Entry}

theorem mem_entriesUnder {head : String} {key : List String} {r : FunctionReport} :
    (key, r) ∈ entriesUnder head entries ↔ (head :: key, r) ∈ entries := by
  rw [entriesUnder, List.mem_filterMap]
  constructor
  · rintro ⟨⟨key', r'⟩, hentry, heq⟩
    cases key' with
    | nil => cases heq
    | cons first rest =>
      simp only [Option.ite_none_right_eq_some, Option.some.injEq, Prod.mk.injEq] at heq
      obtain ⟨rfl, rfl, rfl⟩ := heq
      exact hentry
  · intro hentry
    exact ⟨_, hentry, by simp⟩

theorem mem_entriesBelow {front key : List String} {r : FunctionReport} :
    (key, r) ∈ entriesBelow front entries ↔ (front ++ key, r) ∈ entries := by
  induction front generalizing entries with
  | nil => rfl
  | cons head front ih => rw [entriesBelow, ih, mem_entriesUnder, List.cons_append]

theorem entriesBelow_concat (front : List String) (head : String) :
    entriesBelow (front ++ [head]) entries = entriesUnder head (entriesBelow front entries) := by
  induction front generalizing entries with
  | nil => rfl
  | cons first front ih => exact ih

theorem mem_heads {head : String} :
    head ∈ heads entries ↔ ∃ key r, (head :: key, r) ∈ entries := by
  rw [heads, List.mem_mergeSort, List.mem_eraseDups, List.mem_filterMap]
  constructor
  · rintro ⟨⟨key, r⟩, hentry, heq⟩
    obtain ⟨rest, rfl⟩ := List.head?_eq_some_iff.mp heq
    exact ⟨rest, r, hentry⟩
  · rintro ⟨key, r, hentry⟩
    exact ⟨_, hentry, rfl⟩

theorem pairwise_heads : (heads entries).Pairwise (· < ·) :=
  Text.pairwise_lt_mergeSort (Text.nodup_eraseDups _)

theorem entriesBelow_eq (front : List String) : entriesBelow front entries =
    (entries.filter (front <+: ·.1)).map fun e => (e.1.drop front.length, e.2) := by
  induction front generalizing entries with
  | nil => simp [entriesBelow]
  | cons head front ih =>
    rw [entriesBelow, ih, entriesUnder, List.filter_filterMap, List.map_filterMap,
      ← List.filterMap_eq_map, List.filterMap_filter]
    refine List.filterMap_congr fun e _ => ?_
    obtain ⟨key, r⟩ := e
    cases key with
    | nil => rfl
    | cons first rest =>
      by_cases hfirst : head = first <;> by_cases hrest : front <+: rest <;>
        simp [hfirst, Ne.symm, hrest, Option.filter, List.cons_prefix_cons]

/-- The reports of the entries below a key that end there are those filed under it. -/
theorem own_entriesBelow (front : List String) :
    ((entriesBelow front entries).filter (·.1.isEmpty)).map (·.2) =
      (entries.filter (·.1 = front)).map (·.2) := by
  have hends : ∀ key : List String,
      ((key.drop front.length).isEmpty && decide (front <+: key)) = decide (key = front) := by
    intro key
    rw [Bool.eq_iff_iff, Bool.and_eq_true, decide_eq_true_eq, decide_eq_true_eq,
      List.isEmpty_iff, List.drop_eq_nil_iff]
    constructor
    · exact fun ⟨hlength, hfront⟩ => (hfront.eq_of_length_le hlength).symm
    · rintro rfl
      exact ⟨Nat.le_refl _, List.prefix_refl _⟩
  rw [entriesBelow_eq, List.filter_map, List.filter_filter, List.map_map]
  simp only [Function.comp_apply, hends]
  rfl

end Entries

/-- No key has more than `depth` components. -/
def Bounded (depth : Nat) (entries : List Entry) : Prop :=
  ∀ e ∈ entries, e.1.length ≤ depth

theorem bounded_depthOf (entries : List Entry) : Bounded (depthOf entries) entries := by
  have hfold : ∀ (depth : Nat) (entries : List Entry),
      depth ≤ entries.foldl (fun d e => max d e.1.length) depth ∧
        Bounded (entries.foldl (fun d e => max d e.1.length) depth) entries := by
    intro depth entries
    induction entries generalizing depth with
    | nil => exact ⟨Nat.le_refl _, fun _ he => absurd he List.not_mem_nil⟩
    | cons e entries ih =>
      obtain ⟨hmax, hbounded⟩ := ih (max depth e.1.length)
      obtain ⟨hdepth, hkey⟩ := Nat.max_le.mp hmax
      rw [List.foldl_cons]
      exact ⟨hdepth, List.forall_mem_cons.mpr ⟨hkey, hbounded⟩⟩
  exact (hfold 0 entries).2

theorem Bounded.entriesUnder {depth : Nat} {entries : List Entry}
    (h : Bounded (depth + 1) entries) (head : String) :
    Bounded depth (entriesUnder head entries) := by
  rintro ⟨key, r⟩ hentry
  have hlength := h _ (mem_entriesUnder.mp hentry)
  simpa using hlength

theorem Bounded.entriesBelow {depth : Nat} {entries : List Entry} (h : Bounded depth entries)
    (front : List String) : Bounded (depth - front.length) (entriesBelow front entries) := by
  rintro ⟨key, r⟩ hentry
  have hlength := h _ (mem_entriesBelow.mp hentry)
  rw [List.length_append] at hlength
  exact Nat.le_sub_of_add_le' hlength

theorem heads_of_bounded_zero {entries : List Entry} (h : Bounded 0 entries) :
    heads entries = [] := by
  refine List.eq_nil_iff_forall_not_mem.mpr fun head hhead => ?_
  obtain ⟨key, r, hentry⟩ := mem_heads.mp hhead
  exact absurd (h _ hentry) (by simp)

/-- Sorting into groups by pairwise different keys keeps everything, each thing once. -/
theorem perm_flatMap_filter {α κ : Type} [DecidableEq κ] (f : α → κ) {keys : List κ}
    (hkeys : keys.Nodup) {as : List α} (h : ∀ a ∈ as, f a ∈ keys) :
    (keys.flatMap fun key => as.filter (f · = key)).Perm as := by
  induction keys generalizing as with
  | nil =>
    obtain rfl := List.eq_nil_iff_forall_not_mem.mpr fun a ha => List.not_mem_nil (h a ha)
    exact .nil
  | cons key keys ih =>
    obtain ⟨hkey, hkeys⟩ := List.nodup_cons.mp hkeys
    -- The groups of the other keys are made of what the first group leaves over.
    let others := as.filter fun a => !decide (f a = key)
    have hothers : (keys.flatMap fun key' => as.filter (f · = key')) =
        keys.flatMap fun key' => others.filter (f · = key') := by
      refine List.flatMap_congr fun key' hkey' => ?_
      rw [List.filter_filter]
      refine List.filter_congr fun a _ => ?_
      have hne : key' ≠ key := fun heq => hkey (heq ▸ hkey')
      by_cases ha : f a = key' <;> simp [ha, hne]
    have hgrouped : (keys.flatMap fun key' => others.filter (f · = key')).Perm others := by
      refine ih hkeys fun a ha => ?_
      obtain ⟨ha, hne⟩ := List.mem_filter.mp ha
      exact (List.mem_cons.mp (h a ha)).resolve_left (by simpa using hne)
    rw [List.flatMap_cons, hothers]
    exact (hgrouped.append_left _).trans (List.filter_append_perm _ as)

/-! ## Nodes -/

namespace Node

theorem lastChildFirstOf_eq (ns : List Node) :
    lastChildFirstOf ns = ns.reverse.flatMap lastChildFirst := by
  induction ns with
  | nil => rfl
  | cons n ns ih => rw [lastChildFirstOf, ih, List.reverse_cons, List.flatMap_append,
      List.flatMap_singleton]

section OfEntries

variable {depth : Nat} {key : List String} {entries : List Entry}

theorem key_ofEntries : (ofEntries depth key entries).key = key := by
  cases depth <;> rfl

theorem functions_ofEntries (h : Bounded depth entries) :
    (ofEntries depth key entries).functions =
      (entries.filter (·.1.isEmpty)).map (·.2) := by
  cases depth with
  | succ depth => rfl
  | zero =>
    have hall : entries.filter (·.1.isEmpty) = entries := by
      refine List.filter_eq_self.mpr fun e he => ?_
      rw [List.isEmpty_iff]
      exact List.length_eq_zero_iff.mp (Nat.le_zero.mp (h e he))
    rw [hall]
    rfl

/-- The children stand for the first components of the keys. -/
theorem children_ofEntries (h : Bounded depth entries) :
    (ofEntries depth key entries).children =
      (heads entries).map fun head =>
        ofEntries (depth - 1) (key ++ [head]) (entriesUnder head entries) := by
  cases depth with
  | succ depth => rfl
  | zero =>
    rw [heads_of_bounded_zero h]
    rfl

theorem lastChildFirst_ofEntries_zero :
    (ofEntries 0 key entries).lastChildFirst = [ofEntries 0 key entries] := rfl

theorem lastChildFirst_ofEntries_succ :
    (ofEntries (depth + 1) key entries).lastChildFirst =
      ofEntries (depth + 1) key entries ::
        (heads entries).reverse.flatMap fun head =>
          (ofEntries depth (key ++ [head]) (entriesUnder head entries)).lastChildFirst := by
  rw [ofEntries, lastChildFirst, lastChildFirstOf_eq, ← List.map_reverse, List.flatMap_map]

/-- The tree of the entries below `front`. -/
def treeBelow (depth : Nat) (key : List String) (entries : List Entry) (front : List String) :
    Node :=
  ofEntries (depth - front.length) (key ++ front) (entriesBelow front entries)

theorem treeBelow_nil : treeBelow depth key entries [] = ofEntries depth key entries := by
  simp [treeBelow, entriesBelow]

theorem treeBelow_cons (head : String) (front : List String) :
    treeBelow (depth + 1) key entries (head :: front) =
      treeBelow depth (key ++ [head]) (entriesUnder head entries) front := by
  simp [treeBelow, entriesBelow]

theorem key_treeBelow (front : List String) :
    (treeBelow depth key entries front).key = key ++ front :=
  key_ofEntries

theorem functions_treeBelow (h : Bounded depth entries) (front : List String) :
    (treeBelow depth key entries front).functions =
      (entries.filter (·.1 = front)).map (·.2) :=
  (functions_ofEntries (h.entriesBelow front)).trans (own_entriesBelow front)

theorem mem_children_treeBelow (h : Bounded depth entries) {front : List String} {c : Node} :
    c ∈ (treeBelow depth key entries front).children ↔
      ∃ component, (∃ e ∈ entries, front ++ [component] <+: e.1) ∧
        c = treeBelow depth key entries (front ++ [component]) := by
  rw [treeBelow, children_ofEntries (h.entriesBelow front), List.mem_map]
  have hchild : ∀ component, treeBelow depth key entries (front ++ [component]) =
      ofEntries (depth - front.length - 1) (key ++ front ++ [component])
        (Report.entriesUnder component (Report.entriesBelow front entries)) := by
    intro component
    rw [treeBelow, entriesBelow_concat, List.length_append, List.append_assoc]
    rfl
  constructor
  · rintro ⟨component, hhead, rfl⟩
    obtain ⟨rest, r, he⟩ := mem_heads.mp hhead
    exact ⟨component, ⟨_, mem_entriesBelow.mp he, by simp⟩, (hchild component).symm⟩
  · rintro ⟨component, ⟨⟨_, r⟩, he, rest, rfl⟩, rfl⟩
    refine ⟨component, mem_heads.mpr ⟨rest, r, mem_entriesBelow.mpr ?_⟩,
      (hchild component).symm⟩
    simpa using he

/-- The nodes of a tree are the trees below the prefixes of the keys. -/
theorem mem_lastChildFirst_ofEntries (h : Bounded depth entries) {n : Node} :
    n ∈ (ofEntries depth key entries).lastChildFirst ↔
      ∃ front, (front = [] ∨ ∃ e ∈ entries, front <+: e.1) ∧
        n = treeBelow depth key entries front := by
  -- One level down the keys have lost a component, which keeps them within the bound.
  induction depth generalizing key entries with
  | zero =>
    rw [lastChildFirst_ofEntries_zero, List.mem_singleton, ← treeBelow_nil]
    constructor
    · rintro rfl
      exact ⟨[], .inl rfl, rfl⟩
    · rintro ⟨front, rfl | ⟨e, he, hprefix⟩, rfl⟩
      · rfl
      · have hkey := h e he
        have hfront := hprefix.length_le
        rw [List.length_eq_zero_iff.mp (by omega : front.length = 0)]
  | succ depth ih =>
    rw [lastChildFirst_ofEntries_succ, List.mem_cons, List.mem_flatMap, ← treeBelow_nil]
    simp only [List.mem_reverse]
    constructor
    · rintro (rfl | ⟨head, hhead, hn⟩)
      · exact ⟨[], .inl rfl, rfl⟩
      · obtain ⟨front, hfront, rfl⟩ := (ih (h.entriesUnder head)).mp hn
        refine ⟨head :: front, .inr ?_, (treeBelow_cons head front).symm⟩
        rcases hfront with rfl | ⟨⟨rest, r⟩, he, hprefix⟩
        · obtain ⟨rest, r, he⟩ := mem_heads.mp hhead
          exact ⟨_, he, List.cons_prefix_cons.mpr ⟨rfl, List.nil_prefix⟩⟩
        · exact ⟨_, mem_entriesUnder.mp he, List.cons_prefix_cons.mpr ⟨rfl, hprefix⟩⟩
    · rintro ⟨front, rfl | ⟨⟨_, r⟩, he, hprefix⟩, rfl⟩
      · exact .inl rfl
      · cases front with
        | nil => exact .inl rfl
        | cons head front =>
          obtain ⟨rest, rfl⟩ := hprefix
          refine .inr ⟨head, mem_heads.mpr ⟨front ++ rest, r, he⟩, ?_⟩
          exact (ih (h.entriesUnder head)).mpr ⟨front,
            .inr ⟨_, mem_entriesUnder.mpr he, List.prefix_append _ _⟩,
            treeBelow_cons head front⟩

theorem key_prefix_of_mem (h : Bounded depth entries) {n : Node}
    (hn : n ∈ (ofEntries depth key entries).lastChildFirst) : key <+: n.key := by
  obtain ⟨front, -, rfl⟩ := (mem_lastChildFirst_ofEntries h).mp hn
  rw [key_treeBelow]
  exact List.prefix_append _ _

theorem nodup_keys_ofEntries (h : Bounded depth entries) :
    ((ofEntries depth key entries).lastChildFirst.map Node.key).Nodup := by
  induction depth generalizing key entries with
  | zero => exact List.nodup_singleton _
  | succ depth ih =>
    have hbelow : ∀ head, ∀ k ∈ (ofEntries depth (key ++ [head])
        (entriesUnder head entries)).lastChildFirst.map Node.key, key ++ [head] <+: k := by
      intro head k hk
      obtain ⟨n, hn, rfl⟩ := List.mem_map.mp hk
      exact key_prefix_of_mem (h.entriesUnder head) hn
    rw [lastChildFirst_ofEntries_succ, List.map_cons, List.nodup_cons, List.map_flatMap,
      key_ofEntries]
    constructor
    · intro hkey
      obtain ⟨head, -, hk⟩ := List.mem_flatMap.mp hkey
      have hlength := (hbelow head key hk).length_le
      rw [List.length_append, List.length_singleton] at hlength
      omega
    · refine List.nodup_flatMap.mpr ⟨fun head _ => ih (h.entriesUnder head), ?_⟩
      refine (List.nodup_reverse.mpr (Text.nodup_of_pairwise_lt pairwise_heads)).imp ?_
      -- Different first components keep the keys of two subtrees apart.
      intro head head' hne k hk hk'
      have hsame := List.prefix_of_prefix_length_le (hbelow head k hk) (hbelow head' k hk')
        (by simp)
      rw [List.prefix_append_right_inj] at hsame
      exact hne (by simpa using hsame)

theorem perm_functions_ofEntries (h : Bounded depth entries) :
    ((ofEntries depth key entries).lastChildFirst.flatMap functions).Perm
      (entries.map (·.2)) := by
  let keys := (ofEntries depth key entries).lastChildFirst.map Node.key
  have hown : ∀ n ∈ (ofEntries depth key entries).lastChildFirst,
      n.functions = (entries.filter (key ++ ·.1 = n.key)).map (·.2) := by
    intro n hn
    obtain ⟨front, -, rfl⟩ := (mem_lastChildFirst_ofEntries h).mp hn
    rw [functions_treeBelow h, key_treeBelow]
    simp only [List.append_cancel_left_eq]
  have hkeys : ∀ e ∈ entries, key ++ e.1 ∈ keys := by
    intro e he
    refine List.mem_map.mpr ⟨treeBelow depth key entries e.1, ?_, key_treeBelow e.1⟩
    exact (mem_lastChildFirst_ofEntries h).mpr ⟨e.1, .inr ⟨e, he, List.prefix_refl _⟩, rfl⟩
  have hgrouped := perm_flatMap_filter (fun e : Entry => key ++ e.1) (nodup_keys_ofEntries h) hkeys
  rw [List.flatMap_map] at hgrouped
  rw [List.flatMap_congr hown, ← List.map_flatMap]
  exact hgrouped.map _

/-- The paths of the children of a node start alike and end in their last components. -/
theorem exists_path_eq_append (key : List String) : ∃ front : String,
    ∀ (depth : Nat) (head : String) (entries : List Entry),
      (ofEntries depth (key ++ [head]) entries).path = front ++ head := by
  have hpath : ∀ (depth : Nat) (head : String) (entries : List Entry),
      (ofEntries depth (key ++ [head]) entries).path = "/".intercalate (key ++ [head]) := by
    intro depth head entries
    rw [path, key_ofEntries, if_neg (by simp)]
  by_cases hkey : key = []
  · refine ⟨"", fun depth head entries => ?_⟩
    rw [hpath, hkey, List.nil_append, String.intercalate_singleton, String.empty_append]
  · refine ⟨"/".intercalate key ++ "/", fun depth head entries => ?_⟩
    rw [hpath, String.intercalate_append_of_ne_nil hkey (List.cons_ne_nil _ _),
      String.intercalate_singleton]

/-- Sorting by the last component sorts by the path. -/
theorem pairwise_path_children (h : Bounded depth entries) :
    ((ofEntries depth key entries).children.map Node.path).Pairwise (· < ·) := by
  obtain ⟨front, hfront⟩ := exists_path_eq_append key
  rw [children_ofEntries h, List.map_map, List.pairwise_map]
  refine pairwise_heads.imp fun {head head'} hlt => ?_
  rw [Function.comp_apply, Function.comp_apply, hfront, hfront]
  exact Text.append_lt_append front hlt

end OfEntries

end Node

/-! ## Prefix trees -/

section Filed

variable {depth : Nat} {key : FunctionReport → List String} {reports : List FunctionReport}

/-- Reports under the keys that a function gives them. -/
def filed (key : FunctionReport → List String) (reports : List FunctionReport) : List Entry :=
  reports.map fun r => (key r, r)

theorem mem_lastChildFirst_filed (h : Bounded depth (filed key reports)) {n : Node} :
    n ∈ (Node.ofEntries depth [] (filed key reports)).lastChildFirst ↔
      ∃ front, (front = [] ∨ ∃ r ∈ reports, front <+: key r) ∧
        n = Node.treeBelow depth [] (filed key reports) front := by
  have hfiled : ∀ front, (∃ e ∈ filed key reports, front <+: e.1) ↔
      ∃ r ∈ reports, front <+: key r := by
    intro front
    simp [filed]
  rw [Node.mem_lastChildFirst_ofEntries h]
  simp only [hfiled]

theorem mem_keys_filed (h : Bounded depth (filed key reports)) (front : List String) :
    front ∈ (Node.ofEntries depth [] (filed key reports)).lastChildFirst.map Node.key ↔
      front = [] ∨ ∃ r ∈ reports, front <+: key r := by
  rw [List.mem_map]
  constructor
  · rintro ⟨n, hn, rfl⟩
    obtain ⟨front, hfront, rfl⟩ := (mem_lastChildFirst_filed h).mp hn
    rwa [Node.key_treeBelow]
  · intro hfront
    have hmem := (mem_lastChildFirst_filed h).mpr ⟨front, hfront, rfl⟩
    exact ⟨_, hmem, Node.key_treeBelow front⟩

theorem functions_filed (h : Bounded depth (filed key reports)) {n : Node}
    (hn : n ∈ (Node.ofEntries depth [] (filed key reports)).lastChildFirst) :
    n.functions = reports.filter (key · = n.key) := by
  obtain ⟨front, -, rfl⟩ := (mem_lastChildFirst_filed h).mp hn
  rw [Node.functions_treeBelow h, Node.key_treeBelow, List.nil_append, filed, List.filter_map,
    List.map_map]
  exact List.map_id' _

theorem mem_children_filed (h : Bounded depth (filed key reports)) {n c : Node}
    (hn : n ∈ (Node.ofEntries depth [] (filed key reports)).lastChildFirst) :
    c ∈ n.children ↔
      c ∈ (Node.ofEntries depth [] (filed key reports)).lastChildFirst ∧
        ∃ component, c.key = n.key ++ [component] := by
  obtain ⟨front, -, rfl⟩ := (mem_lastChildFirst_filed h).mp hn
  rw [Node.mem_children_treeBelow h, Node.mem_lastChildFirst_ofEntries h]
  constructor
  · rintro ⟨component, he, rfl⟩
    refine ⟨⟨_, .inr he, rfl⟩, component, ?_⟩
    rw [Node.key_treeBelow, Node.key_treeBelow, List.nil_append, List.nil_append]
  · rintro ⟨⟨front', hfront', rfl⟩, component, hkey⟩
    rw [Node.key_treeBelow, Node.key_treeBelow, List.nil_append, List.nil_append] at hkey
    subst hkey
    exact ⟨component, hfront'.resolve_left (by simp), rfl⟩

/-- The tree of the prefixes of the keys under which reports are filed. -/
structure IsPrefixTree (key : FunctionReport → List String) (reports : List FunctionReport)
    (tree : Node) : Prop where
  root : tree.key = []
  distinct : (tree.lastChildFirst.map Node.key).Nodup
  nodes : ∀ front, front ∈ tree.lastChildFirst.map Node.key ↔
    front = [] ∨ ∃ r ∈ reports, front <+: key r
  children : ∀ n ∈ tree.lastChildFirst, ∀ c,
    c ∈ n.children ↔ c ∈ tree.lastChildFirst ∧ ∃ component, c.key = n.key ++ [component]
  sorted : ∀ n ∈ tree.lastChildFirst, (n.children.map Node.path).Pairwise (· < ·)
  functions : ∀ n ∈ tree.lastChildFirst, n.functions = reports.filter (key · = n.key)
  once : (tree.lastChildFirst.flatMap Node.functions).Perm reports

theorem isPrefixTree_filed (h : Bounded depth (filed key reports)) :
    IsPrefixTree key reports (Node.ofEntries depth [] (filed key reports)) where
  root := Node.key_ofEntries
  distinct := Node.nodup_keys_ofEntries h
  nodes := mem_keys_filed h
  children _ hn _ := mem_children_filed h hn
  sorted n hn := by
    obtain ⟨front, -, rfl⟩ := (mem_lastChildFirst_filed h).mp hn
    exact Node.pairwise_path_children (h.entriesBelow front)
  functions _ hn := functions_filed h hn
  once := by
    have hreports : (filed key reports).map (·.2) = reports := by
      rw [filed, List.map_map]
      exact List.map_id' _
    exact (Node.perm_functions_ofEntries h).trans (.of_eq hreports)

end Filed

/-- The report tree is the tree of the prefixes of the keys.  The key of a report without a
known file says so; any other key is the source path without the longest directory that
all known files share, which never holds the last component of a path.  The components of
a path are the texts between its slashes, empty ones and single dots left out, behind its
root. -/
theorem treeOf_is_prefix_tree (reports : List FunctionReport) :
    let files := reports.map (·.sourceFile)
    let key (file : String) := keyOf (strippedLength files) file
    (∀ file, components file = rootParts (slashed file) ++
      (((slashed file).splitOn '/').map String.ofList).filter fun p => p ≠ "" && p ≠ ".") ∧
    (∀ file, file = "" ∨ file = unknownSource → key file = [unknownSource]) ∧
    (∃ directory, ∀ file ∈ files, file ≠ "" → file ≠ unknownSource →
      components file = directory ++ key file ∧
      (key file).getLast? = (components file).getLast? ∧
      ∀ front, front <+: directory ↔
        ∀ other ∈ files, other ≠ "" → other ≠ unknownSource →
          front <+: (components other).dropLast) ∧
    IsPrefixTree (fun r => key r.sourceFile) reports (treeOf reports) := by
  intro files key
  refine ⟨components_eq, fun file hunknown => keyOf_unknown _ hunknown,
    ⟨sharedDirectory files, ?_⟩, ?_⟩
  · intro file hfile hnonempty hnamed
    have hknown : isKnown file = true := by simp [isKnown, hnonempty, hnamed]
    refine ⟨components_eq_append_keyOf hfile hknown, getLast?_keyOf hfile hknown,
      fun front => (prefix_sharedDirectory_iff hfile hknown).trans ?_⟩
    simp [isKnown]
  · have hentries : entriesOf reports = filed (fun r => key r.sourceFile) reports := rfl
    rw [treeOf, hentries]
    exact isPrefixTree_filed (bounded_depthOf _)

end BinMatch.Report
