import BinMatch.Proofs.Disk
import BinMatch.Proofs.Report.Aggregate
import BinMatch.Report.Output

/-!
# Pages of a written report

A written report consists of the index and the pages of the compared functions.  A page
name that several functions share holds the pages of the one that is written last, so a
function is sure to keep its pages only if no other has its page name.
-/

namespace BinMatch.Report

/-! ## File names -/

theorem length_of_mem_pageKinds {k : String × (Diff.TextDiff → String)} (hk : k ∈ pageKinds) :
    k.1.toList.length = 5 := by
  rcases List.mem_pair.mp hk with rfl | rfl <;> rfl

theorem append_kind_inj {k k' : String × (Diff.TextDiff → String)} (hk : k ∈ pageKinds)
    (hk' : k' ∈ pageKinds) {page page' : String} :
    page ++ k.1 = page' ++ k'.1 ↔ page = page' ∧ k.1 = k'.1 := by
  constructor
  · intro h
    have hlist : page.toList ++ k.1.toList = page'.toList ++ k'.1.toList := by
      rw [← String.toList_append, ← String.toList_append, h]
    have hlength : k.1.toList.length = k'.1.toList.length := by
      rw [length_of_mem_pageKinds hk, length_of_mem_pageKinds hk']
    obtain ⟨hpage, hkind⟩ := List.append_inj' hlist hlength
    exact ⟨String.toList_inj.mp hpage, String.toList_inj.mp hkind⟩
  · rintro ⟨rfl, hkind⟩
    rw [hkind]

theorem append_kind_ne_index {k : String × (Diff.TextDiff → String)} (hk : k ∈ pageKinds)
    (page : String) : page ++ k.1 ≠ "index.txt" := by
  intro h
  have hlist : page.toList ++ k.1.toList = ['i', 'n', 'd', 'e'] ++ ['x', '.', 't', 'x', 't'] := by
    rw [← String.toList_append, h]
    rfl
  have hkind := (List.append_inj' hlist (length_of_mem_pageKinds hk)).2
  rcases List.mem_pair.mp hk with rfl | rfl <;> exact absurd hkind (by decide)

theorem append_kind_ne_parent {k : String × (Diff.TextDiff → String)} (hk : k ∈ pageKinds)
    (page : String) : page ++ k.1 ≠ ".." := by
  intro h
  have hlength : (page ++ k.1).toList.length = 2 := by
    rw [h]
    rfl
  rw [String.toList_append, List.length_append, length_of_mem_pageKinds hk] at hlength
  omega

theorem mem_pagesOf {r : FunctionReport} {file : String × String} :
    file ∈ pagesOf r ↔
      ∃ d, r.result = some d ∧ ∃ k ∈ pageKinds, (pageName r.name ++ k.1, k.2 d) = file := by
  rw [pagesOf]
  cases r.result with
  | none => simp
  | some d => simp only [List.mem_map, Option.some.injEq, exists_eq_left']

/-! ## Files of a report -/

/-- The differences whose pages go by a name. -/
def namedPage (page : String) (functions : List FunctionReport) : List Diff.TextDiff :=
  functions.filterMap fun r => if pageName r.name = page then r.result else none

theorem filter_pagesOf {k : String × (Diff.TextDiff → String)} (hk : k ∈ pageKinds)
    (page : String) (r : FunctionReport) :
    (pagesOf r).filter (·.1 = page ++ k.1) =
      (namedPage page [r]).map fun d => (page ++ k.1, k.2 d) := by
  have hkind : pageKinds.filter (·.1 = k.1) = [k] := by
    rcases List.mem_pair.mp hk with rfl | rfl <;> rfl
  have hname : ∀ k' ∈ pageKinds, decide (pageName r.name ++ k'.1 = page ++ k.1) =
      (decide (pageName r.name = page) && decide (k'.1 = k.1)) := by
    intro k' hk'
    rw [← Bool.decide_and, decide_eq_decide]
    exact append_kind_inj hk' hk
  rw [pagesOf, namedPage, List.filterMap_cons, List.filterMap_nil]
  cases r.result with
  | none => simp
  | some d =>
    simp only [List.filter_map, Function.comp_def]
    rw [List.filter_congr hname]
    by_cases hpage : pageName r.name = page
    · simp [hpage, hkind]
    · simp [hpage]

theorem namedPage_cons (page : String) (r : FunctionReport) (rs : List FunctionReport) :
    namedPage page (r :: rs) = namedPage page [r] ++ namedPage page rs := by
  simp only [namedPage, ← List.filterMap_append, List.singleton_append]

theorem mem_namedPage {page : String} {rs : List FunctionReport} {d : Diff.TextDiff} :
    d ∈ namedPage page rs ↔ ∃ r ∈ rs, pageName r.name = page ∧ r.result = some d := by
  simp only [namedPage, List.mem_filterMap, Option.ite_none_right_eq_some]

namespace Node

variable (root : Node)

theorem files_eq : root.files =
    ("index.txt", root.indexText) :: root.allFunctions.flatMap pagesOf := by
  rw [files, allFunctions, List.flatMap_assoc]

theorem filter_files_kind {k : String × (Diff.TextDiff → String)} (hk : k ∈ pageKinds)
    (page : String) : root.files.filter (·.1 = page ++ k.1) =
      (namedPage page root.allFunctions).map fun d => (page ++ k.1, k.2 d) := by
  have hindex : ¬ "index.txt" = page ++ k.1 := (append_kind_ne_index hk page).symm
  rw [files_eq, List.filter_cons_of_neg (by simpa using hindex)]
  induction root.allFunctions with
  | nil => rfl
  | cons r rs ih =>
    rw [List.flatMap_cons, List.filter_append, filter_pagesOf hk, ih,
      namedPage_cons page r rs, List.map_append]

theorem filter_files_index :
    root.files.filter (·.1 = "index.txt") = [("index.txt", root.indexText)] := by
  have hpages : (root.allFunctions.flatMap pagesOf).filter (·.1 = "index.txt") = [] := by
    refine List.filter_eq_nil_iff.mpr fun file hfile => ?_
    obtain ⟨r, -, hr⟩ := List.mem_flatMap.mp hfile
    obtain ⟨d, -, k, hk, rfl⟩ := mem_pagesOf.mp hr
    simpa using append_kind_ne_index hk (pageName r.name)
  rw [files_eq, List.filter_cons_of_pos (by simp), hpages]

theorem mem_files_treeOf {reports : List FunctionReport} {name : String} :
    name ∈ (treeOf reports).files.map (·.1) ↔ name = "index.txt" ∨
      ∃ r ∈ reports, r.result.isSome ∧
        ∃ k ∈ pageKinds, name = pageName r.name ++ k.1 := by
  rw [files_eq, List.map_cons, List.mem_cons]
  refine or_congr_right ?_
  simp only [List.mem_map, List.mem_flatMap, (perm_allFunctions_treeOf reports).mem_iff,
    mem_pagesOf]
  constructor
  · rintro ⟨_, ⟨r, hr, d, hd, k, hk, rfl⟩, rfl⟩
    exact ⟨r, hr, by simp [hd], k, hk, rfl⟩
  · rintro ⟨r, hr, hd, k, hk, rfl⟩
    obtain ⟨d, hd⟩ := Option.isSome_iff_exists.mp hd
    exact ⟨_, ⟨r, hr, d, hd, k, hk, rfl⟩, rfl⟩

end Node

/-! ## Writing a report -/

section Write

variable {disk written : Disk} {dir : Path} {root : Node}

/-- Names and texts as they are written into a directory. -/
def placed (dir : Path) (files : List (String × String)) : List (Path × String) :=
  files.map fun (name, text) => (dir.child name, text)

theorem write_eq_none_iff : write disk dir root = (written, none) ↔
    ∃ made, Disk.atNameable dir (disk.makeDirectory dir) = .ok made ∧
      made.writeAll (placed dir root.files) = (written, none) := by
  rw [write, placed]
  cases Disk.atNameable dir (disk.makeDirectory dir) with
  | error stop => simp
  | ok made => simp

/-- A report can be written exactly if its directory can be made and each of its files
can be written there. -/
theorem exists_write_treeOf_iff {reports : List FunctionReport} :
    (∃ written, write disk dir (treeOf reports) = (written, none)) ↔
      ∃ made, Disk.atNameable dir (disk.makeDirectory dir) = .ok made ∧
        made.Writable (dir.child "index.txt") ∧
        ∀ r ∈ reports, r.result.isSome → ∀ k ∈ pageKinds,
          made.Writable (dir.child (pageName r.name ++ k.1)) := by
  have hfiles : ∀ made : Disk,
      (∃ written, made.writeAll (placed dir (treeOf reports).files) = (written, none)) ↔
        ∀ name ∈ (treeOf reports).files.map (·.1), made.Writable (dir.child name) := by
    intro made
    rw [Disk.writeAll_eq_none_iff, placed, List.forall_mem_map, List.forall_mem_map]
  simp only [write_eq_none_iff]
  rw [exists_comm]
  simp only [exists_and_left, hfiles, Node.mem_files_treeOf]
  refine exists_congr fun made => and_congr_right fun _ => ⟨fun h => ⟨?_, ?_⟩, ?_⟩
  · exact h _ (.inl rfl)
  · exact fun r hr hsome k hk => h _ (.inr ⟨r, hr, hsome, k, hk, rfl⟩)
  · rintro ⟨hindex, hpages⟩ name (rfl | ⟨r, hr, hsome, k, hk, rfl⟩)
    · exact hindex
    · exact hpages r hr hsome k hk

theorem not_nameable_of_write (h : (write disk dir root).2 = some .unnameable) :
    ∃ path ∈ dir :: (placed dir root.files).map (·.1), path.isNameable = false := by
  unfold write at h
  cases hmade : Disk.atNameable dir (disk.makeDirectory dir) with
  | error stop =>
    rw [hmade] at h
    cases h
    exact ⟨dir, List.mem_cons_self, Disk.not_nameable_of_stop hmade⟩
  | ok made =>
    rw [hmade] at h
    obtain ⟨file, hfile, hnot⟩ := Disk.not_nameable_of_writeAll h
    exact ⟨file.1, List.mem_cons_of_mem _ (List.mem_map_of_mem hfile), hnot⟩

theorem sameFiles_of_made {made : Disk}
    (h : Disk.atNameable dir (disk.makeDirectory dir) = .ok made) : disk.SameFiles made := by
  rw [Disk.atNameable] at h
  split at h
  · cases hmake : disk.makeDirectory dir with
    | error failure =>
      rw [hmake] at h
      cases h
    | ok made' =>
      rw [hmake] at h
      cases h
      exact Disk.sameFiles_makeDirectoryAt hmake
  · cases h

theorem name_ne_parent {name : String} (h : name ∈ root.files.map (·.1)) : name ≠ ".." := by
  rw [Node.files_eq, List.map_cons, List.mem_cons] at h
  rcases h with rfl | h
  · change "index.txt" ≠ ".."
    decide
  · obtain ⟨file, hfile, rfl⟩ := List.mem_map.mp h
    obtain ⟨r, -, hr⟩ := List.mem_flatMap.mp hfile
    obtain ⟨d, -, k, hk, rfl⟩ := mem_pagesOf.mp hr
    exact append_kind_ne_parent hk _

/-- The files that go to the place of a name are those of that name. -/
theorem filter_placed {name : String} (hname : name ≠ "..") :
    (placed dir root.files).filter (·.1.resolve = (dir.child name).resolve) =
      placed dir (root.files.filter (·.1 = name)) := by
  rw [placed, placed, List.filter_map]
  congr 1
  refine List.filter_congr fun file hfile => ?_
  have hfile' : file.1 ≠ ".." := name_ne_parent (List.mem_map_of_mem hfile)
  rw [Function.comp_apply, decide_eq_decide]
  exact Path.resolve_child_inj dir hfile' hname

/-- The file of a name holds the text that is written under it last. -/
theorem readFile_write (h : write disk dir root = (written, none)) {name text : String}
    (hlast : (root.files.filter (·.1 = name)).getLast? = some (name, text)) :
    written.readFile (dir.child name) = .ok (.ofText text) := by
  obtain ⟨made, -, hwritten⟩ := write_eq_none_iff.mp h
  have hfile : (name, text) ∈ root.files :=
    (List.mem_filter.mp (List.mem_of_getLast? hlast)).1
  have hname : name ≠ ".." := name_ne_parent (List.mem_map_of_mem hfile)
  have hplaced : dir.child name ∈ (placed dir root.files).map (·.1) :=
    List.mem_map_of_mem (List.mem_map_of_mem hfile)
  have hlast' : ((placed dir root.files).filter
      (·.1.resolve = (dir.child name).resolve)).getLast? = some (dir.child name, text) := by
    rw [filter_placed hname, placed, List.getLast?_map, hlast]
    rfl
  exact Disk.readFile_writeAll hwritten hplaced hlast'

/-- Files of other names stay as they were, and no others appear. -/
theorem lookup_write (h : write disk dir root = (written, none)) {path : Path}
    (hother : ∀ name ∈ root.files.map (·.1), path.resolve ≠ (dir.child name).resolve)
    (content : File) :
    written.lookup path = some (.file content) ↔ disk.lookup path = some (.file content) := by
  obtain ⟨made, hmade, hwritten⟩ := write_eq_none_iff.mp h
  have hnone : (placed dir root.files).filter (·.1.resolve = path.resolve) = [] := by
    refine List.filter_eq_nil_iff.mpr fun file hfile => ?_
    obtain ⟨named, hnamed, rfl⟩ := List.mem_map.mp hfile
    simpa using (hother named.1 (List.mem_map_of_mem hnamed)).symm
  rw [Disk.lookup_writeAll hwritten, hnone]
  exact sameFiles_of_made hmade path content

end Write

/-- The pages of a difference stand under a page name. -/
structure HoldsPages (disk : Disk) (dir : Path) (page : String) (d : Diff.TextDiff) :
    Prop where
  unified : disk.readFile (dir.child (page ++ ".diff")) = .ok (.ofText d.unified)
  table : disk.readFile (dir.child (page ++ ".html")) = .ok (.ofText (htmlText d.rows))

theorem holdsPages_of_last {disk written : Disk} {dir : Path} {root : Node}
    (h : write disk dir root = (written, none)) {page : String} {d : Diff.TextDiff}
    (hlast : (namedPage page root.allFunctions).getLast? = some d) :
    HoldsPages written dir page d := by
  have hkind : ∀ suffix text, (suffix, text) ∈ pageKinds →
      written.readFile (dir.child (page ++ suffix)) = .ok (.ofText (text d)) := by
    intro suffix text hk
    refine readFile_write h ?_
    rw [Node.filter_files_kind root hk, List.getLast?_map, hlast]
    rfl
  constructor
  · exact hkind ".diff" (·.unified) List.mem_cons_self
  · exact hkind ".html" (fun d => htmlText d.rows) (List.mem_cons_of_mem _ List.mem_cons_self)

/-- Once a report is written, a page name holds the pages of the function that is written
last among those that share it, so a function that shares its page name with no other has
its own.  Apart from the pages and the index no file is written. -/
theorem written_pages_are_last {disk written : Disk} {dir : Path}
    {reports : List FunctionReport} (h : write disk dir (treeOf reports) = (written, none)) :
    (∀ page d, (namedPage page (treeOf reports).allFunctions).getLast? = some d →
      HoldsPages written dir page d) ∧
    (∀ r ∈ reports, ∀ d, r.result = some d →
      (∀ r' ∈ reports, r'.result.isSome → pageName r'.name = pageName r.name → r' = r) →
      HoldsPages written dir (pageName r.name) d) ∧
    written.readFile (dir.child "index.txt") = .ok (.ofText (treeOf reports).indexText) ∧
    ∀ path, path.resolve ≠ (dir.child "index.txt").resolve →
      (∀ r ∈ reports, r.result.isSome → ∀ k ∈ pageKinds,
        path.resolve ≠ (dir.child (pageName r.name ++ k.1)).resolve) →
      ∀ content, written.lookup path = some (.file content) ↔
        disk.lookup path = some (.file content) := by
  refine ⟨fun page d => holdsPages_of_last h, ?_, ?_, ?_⟩
  · intro r hr d hd halone
    have hfunctions : ∀ r', r' ∈ (treeOf reports).allFunctions ↔ r' ∈ reports :=
      fun r' => (perm_allFunctions_treeOf reports).mem_iff
    have hmem : d ∈ namedPage (pageName r.name) (treeOf reports).allFunctions :=
      mem_namedPage.mpr ⟨r, (hfunctions r).mpr hr, rfl, hd⟩
    obtain ⟨last, hlast⟩ := Option.isSome_iff_exists.mp
      (List.getLast?_isSome.mpr (List.ne_nil_of_mem hmem))
    obtain ⟨r', hr', hpage, hresult⟩ := mem_namedPage.mp (List.mem_of_getLast? hlast)
    have hsame : r' = r := halone r' ((hfunctions r').mp hr') (by simp [hresult]) hpage
    have hd' : last = d := by
      rw [hsame, hd] at hresult
      exact (Option.some.inj hresult).symm
    exact hd' ▸ holdsPages_of_last h hlast
  · refine readFile_write h ?_
    rw [Node.filter_files_index]
    rfl
  · intro path hindex hpages content
    refine lookup_write h (fun name hname => ?_) content
    rcases Node.mem_files_treeOf.mp hname with rfl | ⟨r, hr, hsome, k, hk, rfl⟩
    · exact hindex
    · exact hpages r hr hsome k hk

/-- A report on a function that is `ret` in the one binary. -/
def operatorReport (name text : String) : FunctionReport where
  name
  sourceFile := ""
  rebuiltOffset := none
  rebuiltSize := none
  referenceAddress := none
  referenceSize := none
  result := some (Diff.compareTexts referenceListingName rebuiltListingName "ret\n" text)
  error := none

/-- Two of the functions differ only in a character that a page name cannot hold. -/
def operatorReports : List FunctionReport :=
  [operatorReport "operator<" "nop\n", operatorReport "operator>" "ret\n",
    operatorReport "main" "nop\n"]

theorem exists_write_operatorReports : ∃ written,
    write Disk.empty ⟨"", ["report"]⟩ (treeOf operatorReports) = (written, none) := by
  refine exists_write_treeOf_iff.mpr ⟨Disk.empty.put ⟨"", ["report"]⟩ .directory, rfl, ?_⟩
  decide +kernel

theorem written_page_of_main : ∃ written,
    write Disk.empty ⟨"", ["report"]⟩ (treeOf operatorReports) = (written, none) ∧
      HoldsPages written ⟨"", ["report"]⟩ "main"
        (Diff.compareTexts referenceListingName rebuiltListingName "ret\n" "nop\n") := by
  obtain ⟨written, h⟩ := exists_write_operatorReports
  have halone : ∀ r ∈ operatorReports, r.result.isSome → pageName r.name = "main" →
      r = operatorReport "main" "nop\n" := by
    intro r hr _ hpage
    rcases List.mem_cons.mp hr with rfl | hr
    · exact absurd hpage (by decide +kernel)
    · rcases List.mem_cons.mp hr with rfl | hr
      · exact absurd hpage (by decide +kernel)
      · exact List.mem_singleton.mp hr
  exact ⟨written, h, (written_pages_are_last h).2.1 (operatorReport "main" "nop\n")
    (by simp [operatorReports]) _ rfl halone⟩

/-- Pages are not kept whenever all functions have different names. -/
theorem operators_share_pages : ¬ ∀ (disk written : Disk) (dir : Path)
    (reports : List FunctionReport), (reports.map (·.name)).Nodup →
      write disk dir (treeOf reports) = (written, none) →
      ∀ r ∈ reports, ∀ d, r.result = some d →
        HoldsPages written dir (pageName r.name) d := by
  intro keeps
  obtain ⟨written, h⟩ := exists_write_operatorReports
  have hpages := keeps _ written _ operatorReports (by decide) h
  have hname : pageName "operator<" = pageName "operator>" := by decide +kernel
  have hless : HoldsPages written ⟨"", ["report"]⟩ (pageName "operator<") _ :=
    hpages (operatorReport "operator<" "nop\n") (by simp [operatorReports]) _ rfl
  have hgreater : HoldsPages written ⟨"", ["report"]⟩ (pageName "operator>") _ :=
    hpages (operatorReport "operator>" "ret\n") (by simp [operatorReports]) _ rfl
  rw [hname] at hless
  have hfiles := Except.ok.inj (hless.unified.symm.trans hgreater.unified)
  have hbytes := congrArg File.bytes hfiles
  revert hbytes
  decide +kernel

end BinMatch.Report
