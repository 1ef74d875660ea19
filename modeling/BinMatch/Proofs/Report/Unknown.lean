import BinMatch.Proofs.Report.Aggregate

/-!
# Functions without a known source file

They share one node.  Its key takes its place among the keys of source files, from which the
shared directory has been left out, so that a file of that name in the shared directory is
filed under the same node, and one in a directory of that name below it.
-/

namespace BinMatch.Report

namespace Node

/-- Some node of the tree holds both reports. -/
def Together (tree : Node) (r r' : FunctionReport) : Prop :=
  ∃ n ∈ tree.lastChildFirst, r ∈ n.functions ∧ r' ∈ n.functions

/-- The first report stands on, or below, a node that holds the second one. -/
def Below (tree : Node) (r r' : FunctionReport) : Prop :=
  ∃ n ∈ tree.lastChildFirst, r ∈ n.allFunctions ∧ r' ∈ n.functions

end Node

section Filed

variable {depth : Nat} {key : FunctionReport → List String} {reports : List FunctionReport}
  {r r' : FunctionReport}

theorem mem_functions_filed (h : Bounded depth (filed key reports)) {n : Node}
    (hn : n ∈ (Node.ofEntries depth [] (filed key reports)).lastChildFirst) :
    r ∈ n.functions ↔ r ∈ reports ∧ key r = n.key := by
  rw [functions_filed h hn, List.mem_filter, decide_eq_true_eq]

theorem exists_node_filed (h : Bounded depth (filed key reports)) (hr : r ∈ reports) :
    ∃ n ∈ (Node.ofEntries depth [] (filed key reports)).lastChildFirst, n.key = key r :=
  List.mem_map.mp ((mem_keys_filed h (key r)).mpr (.inr ⟨r, hr, List.prefix_refl _⟩))

theorem together_filed_iff (h : Bounded depth (filed key reports)) (hr : r ∈ reports)
    (hr' : r' ∈ reports) :
    (Node.ofEntries depth [] (filed key reports)).Together r r' ↔ key r = key r' := by
  constructor
  · rintro ⟨n, hn, hfirst, hsecond⟩
    rw [mem_functions_filed h hn] at hfirst hsecond
    exact hfirst.2.trans hsecond.2.symm
  · intro hkeys
    obtain ⟨n, hn, hkey⟩ := exists_node_filed h hr
    refine ⟨n, hn, ?_, ?_⟩
    · exact (mem_functions_filed h hn).mpr ⟨hr, hkey.symm⟩
    · exact (mem_functions_filed h hn).mpr ⟨hr', hkeys.symm.trans hkey.symm⟩

theorem below_filed_iff (h : Bounded depth (filed key reports)) (hr : r ∈ reports)
    (hr' : r' ∈ reports) :
    (Node.ofEntries depth [] (filed key reports)).Below r r' ↔ key r' <+: key r := by
  have hbelow : ∀ n ∈ (Node.ofEntries depth [] (filed key reports)).lastChildFirst,
      (r ∈ n.allFunctions ↔ n.key <+: key r) := by
    intro n hn
    rw [(perm_allFunctions_filed h hn).mem_iff, List.mem_filter, decide_eq_true_eq]
    exact and_iff_right hr
  constructor
  · rintro ⟨n, hn, hfirst, hsecond⟩
    rw [mem_functions_filed h hn] at hsecond
    exact hsecond.2 ▸ (hbelow n hn).mp hfirst
  · intro hprefix
    obtain ⟨n, hn, hkey⟩ := exists_node_filed h hr'
    refine ⟨n, hn, (hbelow n hn).mpr (hkey ▸ hprefix), ?_⟩
    exact (mem_functions_filed h hn).mpr ⟨hr', hkey.symm⟩

end Filed

section Unknown

variable {files : List String} {file file' : String}

theorem keyOf_of_not_known (stripped : Nat) (h : isKnown file = false) :
    keyOf stripped file = [unknownSource] := by
  rw [keyOf, h, if_neg Bool.false_ne_true]

theorem keyOf_eq_iff (hfile : file ∈ files) (hfile' : file' ∈ files)
    (hknown : isKnown file = true) (hknown' : isKnown file' = true) :
    keyOf (strippedLength files) file = keyOf (strippedLength files) file' ↔
      components file = components file' := by
  rw [components_eq_append_keyOf hfile hknown, components_eq_append_keyOf hfile' hknown',
    List.append_right_inj]

theorem keyOf_eq_unknown_iff (hfile : file ∈ files) (hknown : isKnown file = true) :
    keyOf (strippedLength files) file = [unknownSource] ↔
      components file = sharedDirectory files ++ [unknownSource] := by
  rw [components_eq_append_keyOf hfile hknown, List.append_right_inj]

theorem unknown_prefix_keyOf_iff (hfile : file ∈ files) (hknown : isKnown file = true) :
    [unknownSource] <+: keyOf (strippedLength files) file ↔
      sharedDirectory files ++ [unknownSource] <+: components file := by
  rw [components_eq_append_keyOf hfile hknown, List.prefix_append_right_inj]

end Unknown

/-! ## The report tree -/

section TreeOf

variable {reports : List FunctionReport} {r r' : FunctionReport}

theorem together_treeOf_iff (hr : r ∈ reports) (hr' : r' ∈ reports) :
    (treeOf reports).Together r r' ↔
      keyOf (strippedLength (reports.map (·.sourceFile))) r.sourceFile =
        keyOf (strippedLength (reports.map (·.sourceFile))) r'.sourceFile :=
  together_filed_iff (bounded_depthOf _) hr hr'

theorem below_treeOf_iff (hr : r ∈ reports) (hr' : r' ∈ reports) :
    (treeOf reports).Below r r' ↔
      keyOf (strippedLength (reports.map (·.sourceFile))) r'.sourceFile <+:
        keyOf (strippedLength (reports.map (·.sourceFile))) r.sourceFile :=
  below_filed_iff (bounded_depthOf _) hr hr'

theorem together_of_known (hr : r ∈ reports) (hr' : r' ∈ reports)
    (hknown : isKnown r.sourceFile = true) (hknown' : isKnown r'.sourceFile = true) :
    (treeOf reports).Together r r' ↔ components r.sourceFile = components r'.sourceFile := by
  rw [together_treeOf_iff hr hr']
  exact keyOf_eq_iff (List.mem_map_of_mem hr) (List.mem_map_of_mem hr') hknown hknown'

theorem together_of_unknown (hr : r ∈ reports) (hr' : r' ∈ reports)
    (hunknown : isKnown r.sourceFile = false) (hunknown' : isKnown r'.sourceFile = false) :
    (treeOf reports).Together r r' := by
  rw [together_treeOf_iff hr hr', keyOf_of_not_known _ hunknown, keyOf_of_not_known _ hunknown']

theorem together_known_unknown_iff (hr : r ∈ reports) (hr' : r' ∈ reports)
    (hknown : isKnown r.sourceFile = true) (hunknown : isKnown r'.sourceFile = false) :
    (treeOf reports).Together r r' ↔ components r.sourceFile =
      sharedDirectory (reports.map (·.sourceFile)) ++ [unknownSource] := by
  rw [together_treeOf_iff hr hr', keyOf_of_not_known _ hunknown]
  exact keyOf_eq_unknown_iff (List.mem_map_of_mem hr) hknown

theorem below_known_unknown_iff (hr : r ∈ reports) (hr' : r' ∈ reports)
    (hknown : isKnown r.sourceFile = true) (hunknown : isKnown r'.sourceFile = false) :
    (treeOf reports).Below r r' ↔
      sharedDirectory (reports.map (·.sourceFile)) ++ [unknownSource] <+:
        components r.sourceFile := by
  rw [below_treeOf_iff hr hr', keyOf_of_not_known _ hunknown]
  exact unknown_prefix_keyOf_iff (List.mem_map_of_mem hr) hknown

end TreeOf

/-- Reports share a node exactly if they share a known source file or both have none, and no
report with a known one stands on or below the node of those without. -/
structure UnknownApart (reports : List FunctionReport) : Prop where
  together : ∀ r ∈ reports, ∀ r' ∈ reports, (treeOf reports).Together r r' ↔
    (isKnown r.sourceFile = true ∧ isKnown r'.sourceFile = true ∧
      components r.sourceFile = components r'.sourceFile) ∨
    (isKnown r.sourceFile = false ∧ isKnown r'.sourceFile = false)
  notBelow : ∀ r ∈ reports, ∀ r' ∈ reports, isKnown r.sourceFile = true →
    isKnown r'.sourceFile = false → ¬ (treeOf reports).Below r r'

theorem unknownApart_of_notBelow {reports : List FunctionReport}
    (h : ∀ r ∈ reports, ∀ r' ∈ reports, isKnown r.sourceFile = true →
      isKnown r'.sourceFile = false → ¬ (treeOf reports).Below r r') : UnknownApart reports where
  together r hr r' hr' := by
    have hmixed : ∀ r ∈ reports, ∀ r' ∈ reports, isKnown r.sourceFile = true →
        isKnown r'.sourceFile = false → ¬ (treeOf reports).Together r r' := by
      intro r hr r' hr' hknown hunknown htogether
      apply h r hr r' hr' hknown hunknown
      rw [below_treeOf_iff hr hr', (together_treeOf_iff hr hr').mp htogether]
    cases hknown : isKnown r.sourceFile <;> cases hknown' : isKnown r'.sourceFile
    · simp [together_of_unknown hr hr' hknown hknown']
    · have hapart := hmixed r' hr' r hr hknown' hknown
      rw [together_treeOf_iff hr' hr, eq_comm, ← together_treeOf_iff hr hr'] at hapart
      simp [hapart]
    · simp [hmixed r hr r' hr' hknown hknown']
    · simp [together_of_known hr hr' hknown hknown']
  notBelow := h

/-- Reports with known source files share a node exactly if they share the file, and those
without one always do.  A report of the first kind shares the node of the second kind exactly
if its file is the one called so in the shared directory, and stands below that node exactly
if its file is in the directory called so. -/
theorem unknown_source_apart_iff (reports : List FunctionReport) :
    let tree := treeOf reports
    let unknown := sharedDirectory (reports.map (·.sourceFile)) ++ [unknownSource]
    (∀ r ∈ reports, ∀ r' ∈ reports,
      isKnown r.sourceFile = true → isKnown r'.sourceFile = true →
      (tree.Together r r' ↔ components r.sourceFile = components r'.sourceFile)) ∧
    (∀ r ∈ reports, ∀ r' ∈ reports, isKnown r.sourceFile = false →
      isKnown r'.sourceFile = false → tree.Together r r') ∧
    (∀ r ∈ reports, ∀ r' ∈ reports, isKnown r.sourceFile = true →
      isKnown r'.sourceFile = false →
        (tree.Together r r' ↔ components r.sourceFile = unknown) ∧
        (tree.Below r r' ↔ unknown <+: components r.sourceFile)) ∧
    (UnknownApart reports ↔ ∀ r ∈ reports, ∀ r' ∈ reports, isKnown r.sourceFile = true →
      isKnown r'.sourceFile = false → ¬ unknown <+: components r.sourceFile) := by
  intro tree unknown
  refine ⟨fun r hr r' hr' => together_of_known hr hr',
    fun r hr r' hr' => together_of_unknown hr hr', ?_, ?_⟩
  · intro r hr r' hr' hknown hunknown
    exact ⟨together_known_unknown_iff hr hr' hknown hunknown,
      below_known_unknown_iff hr hr' hknown hunknown⟩
  · constructor
    · intro hapart r hr r' hr' hknown hunknown hprefix
      apply hapart.notBelow r hr r' hr' hknown hunknown
      exact (below_known_unknown_iff hr hr' hknown hunknown).mpr hprefix
    · intro hprefix
      apply unknownApart_of_notBelow
      intro r hr r' hr' hknown hunknown hbelow
      apply hprefix r hr r' hr' hknown hunknown
      exact (below_known_unknown_iff hr hr' hknown hunknown).mp hbelow

/-- A file in the shared directory has the name that stands for no file. -/
theorem unknown_source_shares_node :
    let report (name file : String) : FunctionReport :=
      ⟨name, file, none, none, none, none, none, some "File error"⟩
    let reports := [report "a" "", report "b" "src/UNKNOWN"]
    (treeOf reports).Together (report "b" "src/UNKNOWN") (report "a" "") ∧
      ¬ UnknownApart reports := by
  intro report reports
  have hnofile : report "a" "" ∈ reports := by simp [reports]
  have hfile : report "b" "src/UNKNOWN" ∈ reports := by simp [reports]
  have hshared : (treeOf reports).Together (report "b" "src/UNKNOWN") (report "a" "") := by
    rw [together_known_unknown_iff hfile hnofile (by decide) (by decide)]
    decide +kernel
  refine ⟨hshared, fun hapart => ?_⟩
  rcases (hapart.together _ hfile _ hnofile).mp hshared with ⟨-, hknown, -⟩ | ⟨hunknown, -⟩
  · exact absurd hknown (by decide)
  · exact absurd hunknown (by decide)

end BinMatch.Report
