import BinMatch.Proofs.Diff.Patch

/-!
# Rows and unified diff of one difference

The rows are aligned by all lines, the unified diff by the lines that are not frequent
in the new text.  Which lines are eligible matters only where they stand in the old
text as well, so both show the same edit unless a frequent line does.
-/

namespace BinMatch.Diff

namespace Edit

variable {α : Type}

def deleted? : Edit α → Option α
  | .delete x => some x
  | _ => none

def inserted? : Edit α → Option α
  | .insert x => some x
  | _ => none

theorem length_filterMap_deleted (rows : List (Edit α)) :
    (rows.filterMap deleted?).length = rows.countP isDelete := by
  rw [List.length_filterMap_eq_countP]
  exact List.countP_congr fun row _ => by cases row <;> simp [deleted?, isDelete]

theorem length_filterMap_inserted (rows : List (Edit α)) :
    (rows.filterMap inserted?).length = rows.countP isInsert := by
  rw [List.length_filterMap_eq_countP]
  exact List.countP_congr fun row _ => by cases row <;> simp [inserted?, isInsert]

end Edit

section Eligible

variable {α : Type} [DecidableEq α] {eligible eligible' : α → Bool}

theorem commonRun_congr {old : List α} (h : ∀ x ∈ old, eligible x = eligible' x)
    (new : List α) : commonRun eligible old new = commonRun eligible' old new := by
  induction old generalizing new with
  | nil => rfl
  | cons x xs ih =>
    rw [List.forall_mem_cons] at h
    cases new with
    | nil => rfl
    | cons y ys =>
      by_cases hxy : x = y
      · subst hxy
        simp only [commonRun, h.1, ih h.2 ys]
      · simp [commonRun, hxy]

theorem runsAt_congr {old : List α} (h : ∀ x ∈ old, eligible x = eligible' x)
    (new : List α) : runsAt eligible old new = runsAt eligible' old new := by
  induction new with
  | nil => rfl
  | cons y ys ih => rw [runsAt, runsAt, ih, commonRun_congr h]

theorem scan_congr {old : List α} (h : ∀ x ∈ old, eligible x = eligible' x)
    (new : List α) : scan eligible old new = scan eligible' old new := by
  induction old with
  | nil => rfl
  | cons x xs ih =>
    simp only [scan, scan_fst, runsOnto_runsAt, runsAt_congr h new]
    rw [ih (List.forall_mem_cons.mp h).2]

theorem longestBlock_congr {old : List α} (h : ∀ x ∈ old, eligible x = eligible' x)
    (new : List α) : longestBlock eligible old new = longestBlock eligible' old new := by
  rw [longestBlock, longestBlock, scan_congr h]

theorem align_congr {old : List α} (h : ∀ x ∈ old, eligible x = eligible' x)
    (new : List α) : align eligible old new = align eligible' old new := by
  fun_induction align eligible old new with
  | case1 old new block hsize =>
    have hblock : longestBlock eligible' old new = block := (longestBlock_congr h new).symm
    rw [align, hblock, if_pos hsize]
  | case2 old new block hsize ihb iha =>
    have hblock : longestBlock eligible' old new = block := (longestBlock_congr h new).symm
    rw [ihb fun x hx => h x (List.mem_of_mem_take hx),
      iha fun x hx => h x (List.mem_of_mem_drop hx)]
    conv => rhs; rw [align, hblock, if_neg hsize]

end Eligible

/-! ## Frequent lines -/

/-- The two alignments are one where no line of the old text is frequent in the new
one, and where the texts have the same lines. -/
theorem unifiedRows_eq {old new : List String}
    (h : old = new ∨ ∀ line ∈ old, line ∉ frequent new) :
    unifiedRows old new = (align (fun _ => true) old new).rows := by
  rcases h with rfl | h
  · rw [unifiedRows, rows_align_self, rows_align_self]
  · rw [unifiedRows]
    congr 1
    exact align_congr (fun line hline => by simpa using h line hline) new

/-- The hunks of a unified diff delete and insert what its rows do. -/
theorem changes_of_hunks (rows : List (Edit String)) :
    (((hunks rows).map Hunk.toPatch).flatMap (·.rows)).filterMap Edit.deleted? =
        rows.filterMap Edit.deleted? ∧
      (((hunks rows).map Hunk.toPatch).flatMap (·.rows)).filterMap Edit.inserted? =
        rows.filterMap Edit.inserted? := by
  have hrows : ((hunks rows).map Hunk.toPatch).flatMap (·.rows) =
      (hunks rows).flatMap (·.rows) := List.flatMap_map ..
  rw [hrows]
  exact ⟨(covers_hunks rows).filterMap_rows fun _ => rfl,
    (covers_hunks rows).filterMap_rows fun _ => rfl⟩

/-- Rows and unified diff show the same edit of texts that have the same lines, or of
which the old one has no line that is frequent in the new one. -/
theorem diffs_agree {oldText newText : String}
    (h : Text.Line.split oldText = Text.Line.split newText ∨
      ∀ line ∈ Text.Line.split oldText, line ∉ frequent (Text.Line.split newText)) :
    let d := compareTexts referenceListingName rebuiltListingName oldText newText
    ∃ hs, Patch.read d.unified = some hs ∧
      (hs.flatMap (·.rows)).filterMap Edit.deleted? = d.rows.filterMap Edit.deleted? ∧
      (hs.flatMap (·.rows)).filterMap Edit.inserted? = d.rows.filterMap Edit.inserted? ∧
      d.matchingLines + ((hs.flatMap (·.rows)).filterMap Edit.deleted?).length =
        (Text.Line.split oldText).length ∧
      d.matchingLines + ((hs.flatMap (·.rows)).filterMap Edit.inserted?).length =
        (Text.Line.split newText).length := by
  intro d
  have hread : Patch.read d.unified = some ((hunks d.rows).map Hunk.toPatch) := by
    rw [read_unified_compareTexts oldText newText, unifiedRows_eq h]
    rfl
  obtain ⟨hdeleted, hinserted⟩ := changes_of_hunks d.rows
  have hmatching : d.rows.countP Edit.isKeep = d.matchingLines := countP_keep_rows _
  have hold : d.rows.filterMap Edit.old? = Text.Line.split oldText :=
    filterMap_old_rows_align _ _ _
  have hnew : d.rows.filterMap Edit.new? = Text.Line.split newText :=
    filterMap_new_rows_align _ _ _
  refine ⟨_, hread, hdeleted, hinserted, ?_, ?_⟩
  · rw [hdeleted, Edit.length_filterMap_deleted, ← hmatching,
      ← Edit.length_filterMap_old, hold]
  · rw [hinserted, Edit.length_filterMap_inserted, ← hmatching,
      ← Edit.length_filterMap_new, hnew]

/-- A text of two hundred lines in which all but the first are frequent. -/
def mostlyNops : List String := "ret" :: List.replicate 199 "nop"

theorem frequent_mostlyNops : frequent mostlyNops = ["nop"] := by
  decide +kernel

theorem split_mostlyNops :
    Text.Line.split (Text.Line.terminated mostlyNops) = mostlyNops :=
  Text.Line.split_terminated (by decide +kernel)

theorem diffs_agree_on_infrequent_line :
    let d := compareTexts referenceListingName rebuiltListingName
      (Text.Line.terminated ["ret"]) (Text.Line.terminated mostlyNops)
    ∃ hs, Patch.read d.unified = some hs ∧
      (hs.flatMap (·.rows)).filterMap Edit.deleted? = d.rows.filterMap Edit.deleted? := by
  have hold : Text.Line.split (Text.Line.terminated ["ret"]) = ["ret"] :=
    Text.Line.split_terminated (by decide)
  have hinfrequent : ∀ line ∈ Text.Line.split (Text.Line.terminated ["ret"]),
      line ∉ frequent (Text.Line.split (Text.Line.terminated mostlyNops)) := by
    rw [hold, split_mostlyNops, frequent_mostlyNops]
    decide
  obtain ⟨hs, hread, hdeleted, -⟩ := diffs_agree (.inr hinfrequent)
  exact ⟨hs, hread, hdeleted⟩

/-- The rows keep a frequent line that the unified diff deletes. -/
theorem diffs_disagree_on_frequent_line :
    let d := compareTexts referenceListingName rebuiltListingName
      (Text.Line.terminated ["nop"]) (Text.Line.terminated mostlyNops)
    ∃ hs, Patch.read d.unified = some hs ∧
      (hs.flatMap (·.rows)).filterMap Edit.deleted? = ["nop"] ∧
      d.rows.filterMap Edit.deleted? = [] := by
  intro d
  have hold : Text.Line.split (Text.Line.terminated ["nop"]) = ["nop"] :=
    Text.Line.split_terminated (by decide)
  have hrows : d.rows = (align (fun _ => true) ["nop"] mostlyNops).rows := by
    rw [← hold, ← split_mostlyNops]
    rfl
  refine ⟨_, read_unified_compareTexts _ _, ?_, ?_⟩
  · rw [(changes_of_hunks _).1, hold, split_mostlyNops, unifiedRows, frequent_mostlyNops]
    decide +kernel
  · rw [hrows]
    decide +kernel

end BinMatch.Diff
