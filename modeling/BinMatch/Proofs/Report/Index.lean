import BinMatch.Proofs.Diff.Change
import BinMatch.Proofs.Report.Mean
import BinMatch.Proofs.Text.Line
import BinMatch.Report.Index

/-!
# What a full percentage in the index says

A percentage has one decimal, so a difference can be shown as a full one.  How large it
can be is known exactly for a function, and up to the rounding of the sum for a node.
-/

namespace BinMatch.Report

open Numeric

/-! ## Functions -/

theorem statusOf_eq_full_iff {r : FunctionReport} (hr : r.Countable) :
    statusOf r = "100.0%" ↔
      ∃ d ∈ r.result, 2000 * (d.totalLines - 2 * d.matchingLines) ≤ d.totalLines := by
  cases hresult : r.result with
  | none =>
    have herror : statusOf r ≠ "100.0%" := by
      intro hfull
      rw [statusOf, hresult] at hfull
      have hhead := congrArg (fun text => text.toList.head?) hfull
      rw [String.toList_append] at hhead
      exact absurd (Option.some.inj hhead) (by decide)
    simp [herror]
  | some d =>
    obtain ⟨hle, hupper⟩ := hr d hresult
    have hratio := Diff.TextDiff.ofRatio_ratio_eq_full_iff hle hupper
    simpa [statusOf, hresult] using hratio

theorem not_two_mul_of_differs {r : FunctionReport} {d : Diff.TextDiff} (hd : d ∈ r.result)
    (hdiffers : r.isMatch = false) : ¬ 2 * d.matchingLines = d.totalLines := by
  have hresult : r.result = some d := hd
  simpa [FunctionReport.isMatch, hresult, Diff.TextDiff.isMatch] using hdiffers

/-- Lines in the comparison of a function; a function without a comparison counts as one
line that does not match. -/
def comparedLines (r : FunctionReport) : ℕ :=
  match r.result with
  | some d => d.totalLines
  | none => 1

theorem comparedLines_of_result {r : FunctionReport} {d : Diff.TextDiff} (hd : d ∈ r.result) :
    comparedLines r = d.totalLines := by
  have hresult : r.result = some d := hd
  rw [comparedLines, hresult]

theorem comparedLines_pos {r : FunctionReport} (hr : r.Countable) (hdiffers : r.isMatch = false) :
    0 < comparedLines r := by
  cases hresult : r.result with
  | none => simp [comparedLines, hresult]
  | some d =>
    obtain ⟨hle, -⟩ := hr d hresult
    have hnot := not_two_mul_of_differs hresult hdiffers
    rw [comparedLines_of_result hresult]
    omega

theorem exactRatio_le_one {r : FunctionReport} (hr : r.Countable) : r.exactRatio ≤ 1 := by
  cases hresult : r.result with
  | none => simp [FunctionReport.exactRatio, hresult]
  | some d =>
    rw [FunctionReport.exactRatio_of_result hresult]
    exact (d.exactRatio_mem_Icc (hr d hresult).1).2

/-- Where a function differs, at least one line of it is unmatched. -/
theorem exactRatio_le_of_differs {r : FunctionReport} (hr : r.Countable)
    (hdiffers : r.isMatch = false) : r.exactRatio ≤ 1 - 1 / comparedLines r := by
  have hpos := comparedLines_pos hr hdiffers
  cases hresult : r.result with
  | none => simp [FunctionReport.exactRatio, comparedLines, hresult]
  | some d =>
    obtain ⟨hle, -⟩ := hr d hresult
    have hnot := not_two_mul_of_differs hresult hdiffers
    rw [comparedLines_of_result hresult] at hpos ⊢
    have htotal : (0 : ℚ) < d.totalLines := by exact_mod_cast hpos
    have hunmatched : 2 * (d.matchingLines : ℚ) + 1 ≤ d.totalLines := by
      exact_mod_cast Nat.lt_of_le_of_ne hle hnot
    rw [FunctionReport.exactRatio_of_result hresult, Diff.TextDiff.exactRatio, if_neg hpos.ne',
      le_sub_iff_add_le, ← add_div, div_le_one htotal]
    exact hunmatched

theorem statusOf_of_match {r : FunctionReport} (hr : r.Countable) (hmatch : r.isMatch = true) :
    statusOf r = "100.0%" := by
  obtain ⟨d, hd, hmatch⟩ := (Option.any_eq_true _ _).mp hmatch
  have hsame : 2 * d.matchingLines = d.totalLines := of_decide_eq_true hmatch
  rw [statusOf_eq_full_iff hr]
  refine ⟨d, hd, ?_⟩
  omega

theorem two_thousand_le_of_differs {r : FunctionReport} (hr : r.Countable)
    (hfull : statusOf r = "100.0%") (hdiffers : r.isMatch = false) :
    2000 ≤ comparedLines r := by
  obtain ⟨d, hd, hshare⟩ := (statusOf_eq_full_iff hr).mp hfull
  obtain ⟨hle, -⟩ := hr d hd
  have hnot := not_two_mul_of_differs hd hdiffers
  rw [comparedLines_of_result hd]
  omega

theorem sum_le_of_mem {xs : List ℚ} (hxs : ∀ x ∈ xs, x ≤ 1) {x gap : ℚ} (hx : x ∈ xs)
    (hgap : x ≤ 1 - gap) : xs.sum ≤ xs.length - gap := by
  obtain ⟨front, back, rfl⟩ := List.append_of_mem hx
  rw [List.forall_mem_append, List.forall_mem_cons] at hxs
  have hfront := List.sum_le_card_nsmul front 1 hxs.1
  have hback := List.sum_le_card_nsmul back 1 hxs.2.2
  rw [nsmul_one] at hfront hback
  rw [List.sum_append, List.sum_cons, List.length_append, List.length_cons]
  push_cast
  linarith

theorem countable_of_compareTexts {r : FunctionReport}
    (hcompared : ∀ d ∈ r.result, ∃ oldName newName oldText newText,
      d = Diff.compareTexts oldName newName oldText newText)
    (hlines : ∀ d ∈ r.result, d.totalLines < 2 ^ 50) : r.Countable := by
  intro d hd
  obtain ⟨oldName, newName, oldText, newText, rfl⟩ := hcompared d hd
  refine ⟨?_, hlines _ hd⟩
  have htotal := Diff.length_add_length_align (fun _ => true) (Text.Line.split oldText)
    (Text.Line.split newText)
  rw [Diff.totalLines_compareTexts, htotal]
  exact Nat.le_trans (Nat.le_add_right _ _) (Nat.le_add_right _ _)

/-! ## Nodes -/

namespace Node

variable {n : Node}

/-- The line of a node with a full percentage. -/
def fullLine (pad : String) (n : Node) : String :=
  pad ++ n.path ++ ": 100.0% (" ++ n.tally ++ " functions matching)"

/-- Whatever it is indented by, the line of the node shows a full percentage. -/
def ShowsFull (n : Node) : Prop :=
  ∀ pad, n.nodeLine pad = n.fullLine pad

/-- The part of a mean over the subtree that the roundings on the way leave in any case. -/
def kept (n : Node) : ℚ :=
  1 - (n.total + 1 : ℕ) * unitRoundoff

theorem showsFull_iff : n.ShowsFull ↔ Text.Percent.ofRatio n.ratio = "100.0%" := by
  have hline : ∀ pad, n.nodeLine pad = n.fullLine pad ↔
      Text.Percent.ofRatio n.ratio = "100.0%" := by
    intro pad
    have hparts : ": 100.0% (" = ": " ++ ("100.0%" ++ " (") := by decide
    rw [nodeLine, fullLine, hparts]
    simp only [String.append_assoc, String.append_right_inj]
    exact String.append_left_inj _
  constructor
  · exact fun h => (hline "").mp (h "")
  · exact fun h pad => (hline pad).mpr h

theorem showsFull_iff_of_represents {v : ℚ} (hv : Represents n.ratio v)
    (hfrom : ZeroOrFrom (-106) v) (hone : v ≤ 1) : n.ShowsFull ↔ 1999 / 2000 ≤ v := by
  rw [showsFull_iff]
  exact Text.Percent.ofRatio_eq_full_iff hv (by decide) hfrom hone

theorem total_pos_of_showsFull (h : n.ShowsFull) : 0 < n.total := by
  rcases Nat.eq_zero_or_pos n.total with hzero | hpos
  · have hratio : n.ratio = 0.0 := by rw [ratio, mean, if_pos hzero]
    have hv : Represents n.ratio 0 := by
      rw [hratio]
      exact represents_zero
    rw [showsFull_iff_of_represents hv (Or.inl rfl) zero_le_one] at h
    norm_num at h
  · exact hpos

section Countable

variable (hcountable : ∀ r ∈ n.allFunctions, r.Countable) (hupper : n.total < 2 ^ 53)

include hcountable hupper

theorem kept_le_exactRatio (h : n.ShowsFull) : 1999 / 2000 * n.kept ≤ n.exactRatio := by
  obtain ⟨v, hv, hfrom, hone, hclose⟩ :=
    exists_represents_ratio hcountable (total_pos_of_showsFull h) hupper
  rw [showsFull_iff_of_represents hv hfrom hone] at h
  exact le_trans (mul_le_mul_of_nonneg_right h (kept_nonneg hupper)) hclose.upper

theorem showsFull_of_kept (hpos : 0 < n.total) (h : 1999 / 2000 ≤ n.exactRatio * n.kept) :
    n.ShowsFull := by
  obtain ⟨v, hv, hfrom, hone, hclose⟩ := exists_represents_ratio hcountable hpos hupper
  rw [showsFull_iff_of_represents hv hfrom hone]
  exact h.trans hclose.lower

theorem showsFull_of_matches (hpos : 0 < n.total)
    (hmatch : ∀ r ∈ n.allFunctions, r.isMatch = true) : n.ShowsFull := by
  have hv := represents_ratio_of_matches hcountable hmatch hpos hupper
  rw [showsFull_iff_of_represents hv (Or.inr (by norm_num)) le_rfl]
  norm_num

omit hupper in
theorem exactRatio_le_of_differs {r : FunctionReport} (hr : r ∈ n.allFunctions)
    (hdiffers : r.isMatch = false) :
    n.exactRatio ≤ 1 - 1 / (n.total * comparedLines r : ℕ) := by
  have hne : n.allFunctions ≠ [] := List.ne_nil_of_mem hr
  have htotal : (0 : ℚ) < n.total := by
    rw [total_eq]
    exact_mod_cast List.length_pos_iff.mpr hne
  have hlines : (0 : ℚ) < comparedLines r := by
    exact_mod_cast comparedLines_pos (hcountable r hr) hdiffers
  have hsum : (n.allFunctions.map (·.exactRatio)).sum ≤ n.total - 1 / comparedLines r := by
    rw [total_eq, ← List.length_map (f := (·.exactRatio))]
    apply sum_le_of_mem
    · rw [List.forall_mem_map]
      exact fun r hr => exactRatio_le_one (hcountable r hr)
    · exact List.mem_map_of_mem hr
    · exact Report.exactRatio_le_of_differs (hcountable r hr) hdiffers
  rw [(isAggregate_allFunctions n).ratio, if_neg hne, ← total_eq]
  calc
    (n.allFunctions.map (·.exactRatio)).sum / n.total ≤
        (n.total - 1 / comparedLines r) / n.total := div_le_div_of_nonneg_right hsum htotal.le
    _ = 1 - 1 / (n.total * comparedLines r : ℕ) := by
      push_cast
      field_simp

/-- A node that shows a full percentage above a difference has many functions, or many lines
in the function that differs. -/
theorem two_thousand_le_of_differs (h : n.ShowsFull) {r : FunctionReport}
    (hr : r ∈ n.allFunctions) (hdiffers : r.isMatch = false) :
    2000 ≤ n.total * comparedLines r := by
  have hlines := comparedLines_pos (hcountable r hr) hdiffers
  rcases Nat.lt_or_ge n.total 2000 with hfew | hmany
  · have hproduct : 0 < n.total * comparedLines r :=
      Nat.mul_pos (total_pos_of_showsFull h) hlines
    have hpos : (0 : ℚ) < (n.total * comparedLines r : ℕ) := by exact_mod_cast hproduct
    have hmean := (kept_le_exactRatio hcountable hupper h).trans
      (exactRatio_le_of_differs hcountable hr hdiffers)
    have hkept : 1 - 2000 * unitRoundoff ≤ n.kept := by
      have hcount : ((n.total + 1 : ℕ) : ℚ) ≤ 2000 := by exact_mod_cast hfew
      have hmul := mul_le_mul_of_nonneg_right hcount unitRoundoff_pos.le
      rw [kept]
      linarith
    have hgap : 1 / ((n.total * comparedLines r : ℕ) : ℚ) < 1 / 1999 := by
      rw [unitRoundoff] at hkept
      linarith
    have hlt : (1999 : ℚ) < (n.total * comparedLines r : ℕ) := by
      rwa [one_div_lt_one_div hpos (by norm_num)] at hgap
    exact_mod_cast hlt
  · exact Nat.le_trans hmany (Nat.le_mul_of_pos_right _ hlines)

end Countable

/-! ## Lines of the index -/

theorem indexLinesOf_eq (pad : String) (ns : List Node) :
    indexLinesOf pad ns = ns.flatMap (indexLines pad) := by
  induction ns with
  | nil => rfl
  | cons n ns ih => rw [indexLinesOf, ih, List.flatMap_cons]

theorem mem_lastChildFirst_mk {key : List String} {functions : List FunctionReport}
    {children : List Node} :
    n ∈ (mk key functions children).lastChildFirst ↔
      n = mk key functions children ∨ ∃ c ∈ children, n ∈ c.lastChildFirst := by
  rw [lastChildFirst, lastChildFirstOf_eq, List.mem_cons, List.mem_flatMap]
  simp only [List.mem_reverse]

/-- The lines of a node and of its functions, all of one depth. -/
def ownLines (pad : String) (n : Node) : List String :=
  n.nodeLine pad :: n.functions.map (functionLine pad)

theorem mem_indexLines_mk {pad line : String} {key : List String}
    {functions : List FunctionReport} {children : List Node} :
    line ∈ (mk key functions children).indexLines pad ↔
      line ∈ (mk key functions children).ownLines pad ∨
        ∃ c ∈ children, line ∈ c.indexLines (pad ++ "  ") := by
  rw [indexLines, indexLinesOf_eq, List.mem_append, List.mem_flatMap]
  rfl

/-- Every line of the index is about a node or a function of the tree. -/
theorem exists_ownLines_of_mem_indexLines {root : Node} {pad line : String}
    (hline : line ∈ root.indexLines pad) :
    ∃ n ∈ root.lastChildFirst, ∃ p, line ∈ n.ownLines p := by
  induction root using Node.induction generalizing pad with
  | h key functions children ih =>
    rcases mem_indexLines_mk.mp hline with hown | ⟨c, hc, hbelow⟩
    · exact ⟨_, mem_lastChildFirst_mk.mpr (Or.inl rfl), pad, hown⟩
    · obtain ⟨n, hn, hown⟩ := ih c hc hbelow
      exact ⟨n, mem_lastChildFirst_mk.mpr (Or.inr ⟨c, hc, hn⟩), hown⟩

/-- Every node of the tree has its lines in the index. -/
theorem exists_ownLines_subset_indexLines {root : Node} (hn : n ∈ root.lastChildFirst)
    (pad : String) : ∃ p, n.ownLines p ⊆ root.indexLines pad := by
  induction root using Node.induction generalizing pad with
  | h key functions children ih =>
    rcases mem_lastChildFirst_mk.mp hn with rfl | ⟨c, hc, hbelow⟩
    · exact ⟨pad, fun line hline => mem_indexLines_mk.mpr (Or.inl hline)⟩
    · obtain ⟨p, hsubset⟩ := ih c hc hbelow (pad ++ "  ")
      exact ⟨p, fun line hline => mem_indexLines_mk.mpr (Or.inr ⟨c, hc, hsubset hline⟩)⟩

end Node

/-! ## Almost matching texts -/

theorem commonRun_append (xs ys : List String) :
    Diff.commonRun (fun _ => true) xs (xs ++ ys) = xs.length := by
  induction xs with
  | nil => rfl
  | cons x xs ih => simp [Diff.commonRun, ih]

/-- What both texts start with is found to match, or something longer is. -/
theorem commonRun_le_matching (old new : List String) :
    Diff.commonRun (fun _ => true) old new ≤
      (Diff.align (fun _ => true) old new).matching := by
  have hlongest := (Diff.firstLongest_scan (fun _ => true) old new).longest 0 0
  have hsize := Diff.size_scan_le (fun _ => true) old new
  have hblock := (Diff.longestBlock_le (fun _ => true) old new).1
  rw [List.drop_zero, List.drop_zero] at hlongest
  rw [Diff.align]
  split
  · omega
  · simp only [Diff.Alignment.matching, List.length_take, List.length_drop]
    omega

theorem matching_append (xs ys : List String) :
    (Diff.align (fun _ => true) xs (xs ++ ys)).matching = xs.length := by
  have hlower := commonRun_le_matching xs (xs ++ ys)
  have hrows := Diff.Edit.length_filterMap_old (Diff.align (fun _ => true) xs (xs ++ ys)).rows
  rw [Diff.filterMap_old_rows_align, Diff.countP_keep_rows] at hrows
  rw [commonRun_append] at hlower
  omega

/-- A thousand lines, and the same lines with one behind them. -/
def almostMatching : FunctionReport :=
  { name := "f"
    sourceFile := "src/a.cpp"
    rebuiltOffset := some 0
    rebuiltSize := some 1000
    referenceAddress := some 0
    referenceSize := some 1000
    result := some (Diff.compareTexts "old" "new"
      (Text.Line.terminated (List.replicate 1000 "nop"))
      (Text.Line.terminated (List.replicate 1000 "nop" ++ ["nop"])))
    error := none }

theorem lines_almostMatching : ∃ d ∈ almostMatching.result,
    d.totalLines = 2001 ∧ d.matchingLines = 1000 := by
  have hunbroken : ∀ line ∈ List.replicate 1000 "nop" ++ ["nop"], Text.Line.Unbroken line := by
    intro line hline
    rw [List.mem_append, List.mem_replicate, List.mem_singleton] at hline
    obtain ⟨-, rfl⟩ | rfl := hline <;> decide
  have hold := Text.Line.split_terminated fun line hline =>
    hunbroken line (List.mem_append_left _ hline)
  have hnew := Text.Line.split_terminated hunbroken
  refine ⟨_, rfl, ?_, ?_⟩
  · rw [Diff.totalLines_compareTexts, hold, hnew, List.length_append, List.length_replicate]
    rfl
  · have hmatching := matching_append (List.replicate 1000 "nop") ["nop"]
    rw [List.length_replicate] at hmatching
    show (Diff.align _ (Text.Line.split _) (Text.Line.split _)).matching = 1000
    rwa [hold, hnew]

theorem countable_almostMatching : almostMatching.Countable := by
  obtain ⟨d, hd, htotal, hmatching⟩ := lines_almostMatching
  intro d' hd'
  obtain rfl : d = d' := Option.mem_unique hd hd'
  omega

theorem exactRatio_almostMatching : almostMatching.exactRatio = 2000 / 2001 := by
  obtain ⟨d, hd, htotal, hmatching⟩ := lines_almostMatching
  rw [FunctionReport.exactRatio_of_result hd, Diff.TextDiff.exactRatio, htotal, hmatching]
  norm_num

theorem index_shows_difference_as_full :
    almostMatching.isMatch = false ∧ statusOf almostMatching = "100.0%" ∧
      almostMatching ∈ (treeOf [almostMatching]).allFunctions ∧
      (treeOf [almostMatching]).ShowsFull := by
  obtain ⟨d, hd, htotal, hmatching⟩ := lines_almostMatching
  have hresult : almostMatching.result = some d := hd
  have hperm := perm_allFunctions_treeOf [almostMatching]
  have haggregate := (isAggregate_allFunctions _).perm hperm
  refine ⟨?_, ?_, ?_, ?_⟩
  · simp [FunctionReport.isMatch, hresult, Diff.TextDiff.isMatch, htotal, hmatching]
  · rw [statusOf_eq_full_iff countable_almostMatching]
    refine ⟨d, hd, ?_⟩
    omega
  · exact hperm.mem_iff.mpr (List.mem_singleton_self _)
  · have htotalOne : (treeOf [almostMatching]).total = 1 := haggregate.total
    apply Node.showsFull_of_kept
    · intro r hr
      obtain rfl := List.mem_singleton.mp (hperm.mem_iff.mp hr)
      exact countable_almostMatching
    · rw [htotalOne]
      decide
    · rw [htotalOne]
      decide
    · rw [Node.kept, htotalOne, haggregate.ratio, unitRoundoff]
      simp only [List.map_cons, List.map_nil, List.sum_singleton, exactRatio_almostMatching]
      norm_num

theorem full_percentages_of_index {reports : List FunctionReport}
    (hcompared : ∀ r ∈ reports, ∀ d ∈ r.result, ∃ oldName newName oldText newText,
      d = Diff.compareTexts oldName newName oldText newText)
    (hlines : ∀ r ∈ reports, ∀ d ∈ r.result, d.totalLines < 2 ^ 50)
    (hcount : reports.length < 2 ^ 53) :
    (∀ line ∈ (treeOf reports).indexLines "",
      ∃ n ∈ (treeOf reports).lastChildFirst, ∃ pad, line ∈ n.ownLines pad) ∧
    (∀ r ∈ reports,
      (statusOf r = "100.0%" ↔
        ∃ d ∈ r.result, 2000 * (d.totalLines - 2 * d.matchingLines) ≤ d.totalLines) ∧
      (r.isMatch = true → statusOf r = "100.0%") ∧
      (statusOf r = "100.0%" → r.isMatch = false → 2000 ≤ comparedLines r)) ∧
    ∀ n ∈ (treeOf reports).lastChildFirst,
      (∃ pad, n.ownLines pad ⊆ (treeOf reports).indexLines "") ∧
      (∀ r ∈ n.allFunctions, r ∈ reports) ∧
      (0 < n.total → (∀ r ∈ n.allFunctions, r.isMatch = true) → n.ShowsFull) ∧
      (n.ShowsFull → 0 < n.total ∧ 1999 / 2000 * n.kept ≤ n.exactRatio ∧
        ∀ r ∈ n.allFunctions, r.isMatch = false → 2000 ≤ n.total * comparedLines r) ∧
      (0 < n.total → 1999 / 2000 ≤ n.exactRatio * n.kept → n.ShowsFull) := by
  have hcountable : ∀ r ∈ reports, r.Countable := fun r hr =>
    countable_of_compareTexts (hcompared r hr) (hlines r hr)
  refine ⟨fun line hline => Node.exists_ownLines_of_mem_indexLines hline, ?_, ?_⟩
  · intro r hr
    have hstatus := statusOf_eq_full_iff (hcountable r hr)
    refine ⟨hstatus, fun hmatch => ?_, fun hfull hdiffers => ?_⟩
    · exact statusOf_of_match (hcountable r hr) hmatch
    · exact two_thousand_le_of_differs (hcountable r hr) hfull hdiffers
  · intro n hn
    have hperm := perm_allFunctions_filed (bounded_depthOf _) hn
    have hmem : ∀ r ∈ n.allFunctions, r ∈ reports := fun r hr =>
      (List.mem_filter.mp (hperm.mem_iff.mp hr)).1
    have htotal : n.total < 2 ^ 53 := by
      rw [Node.total_eq, hperm.length_eq]
      exact Nat.lt_of_le_of_lt (List.length_filter_le _ _) hcount
    have hbelow : ∀ r ∈ n.allFunctions, r.Countable := fun r hr => hcountable r (hmem r hr)
    refine ⟨Node.exists_ownLines_subset_indexLines hn "", hmem, ?_, ?_, ?_⟩
    · exact Node.showsFull_of_matches hbelow htotal
    · intro hfull
      exact ⟨Node.total_pos_of_showsFull hfull, Node.kept_le_exactRatio hbelow htotal hfull,
        fun r hr => Node.two_thousand_le_of_differs hbelow htotal hfull hr⟩
    · exact Node.showsFull_of_kept hbelow htotal

theorem full_percentages_of_almostMatching :
    (∀ r ∈ [almostMatching], ∀ d ∈ r.result, ∃ oldName newName oldText newText,
        d = Diff.compareTexts oldName newName oldText newText) ∧
      (∀ r ∈ [almostMatching], ∀ d ∈ r.result, d.totalLines < 2 ^ 50) ∧
      [almostMatching].length < 2 ^ 53 ∧
      statusOf almostMatching = "100.0%" ∧ almostMatching.isMatch = false ∧
      2000 ≤ comparedLines almostMatching := by
  obtain ⟨d, hd, htotal, hmatching⟩ := lines_almostMatching
  have hresult : almostMatching.result = some d := hd
  have hcompared : ∀ r ∈ [almostMatching], ∀ d ∈ r.result,
      ∃ oldName newName oldText newText,
        d = Diff.compareTexts oldName newName oldText newText := by
    intro r hr d hd
    obtain rfl := List.mem_singleton.mp hr
    exact ⟨_, _, _, _, (Option.some.inj hd).symm⟩
  have hlines : ∀ r ∈ [almostMatching], ∀ d ∈ r.result, d.totalLines < 2 ^ 50 := by
    intro r hr d' hd'
    obtain rfl := List.mem_singleton.mp hr
    obtain rfl : d = d' := Option.mem_unique hd hd'
    omega
  have hcount : [almostMatching].length < 2 ^ 53 := by decide
  obtain ⟨hstatus, -, hdiffers⟩ := (full_percentages_of_index hcompared hlines hcount).2.1
    almostMatching (List.mem_singleton_self _)
  have hfull : statusOf almostMatching = "100.0%" := hstatus.mpr ⟨d, hd, by omega⟩
  have hnot : almostMatching.isMatch = false := by
    simp [FunctionReport.isMatch, hresult, Diff.TextDiff.isMatch, htotal, hmatching]
  exact ⟨hcompared, hlines, hcount, hfull, hnot, hdiffers hfull hnot⟩

end BinMatch.Report
