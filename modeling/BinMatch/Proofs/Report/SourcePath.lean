import BinMatch.Report.Tree

/-!
# Keys of source files

The components of a source path are the texts between its slashes and backslashes.  What is
left out of every key is the longest directory that all known files share.  The
last component of a path is no directory, so it is never left out.
-/

namespace BinMatch

/-- Pieces are read from left to right, the characters of the first one being behind. -/
theorem Path.pieces_eq_splitOn (read chars : List Char) :
    pieces read chars =
      ((chars.splitOn '/').modifyHead fun front => read.reverse ++ front).map
        String.ofList := by
  induction chars generalizing read with
  | nil =>
    rw [pieces, List.splitOn_nil, List.modifyHead_cons, List.append_nil]
    rfl
  | cons c rest ih =>
    rw [pieces, List.splitOn, List.splitOnP_cons_eq_if_modifyHead]
    by_cases hslash : c = '/'
    · rw [if_pos hslash, if_pos (by simpa using hslash), ih, List.modifyHead_cons,
        List.append_nil]
      exact congrArg (String.ofList read.reverse :: List.map String.ofList ·)
        (congrFun List.modifyHead_id _)
    · rw [if_neg hslash, if_neg (by simpa using hslash), ih, List.modifyHead_modifyHead]
      simp only [List.reverse_cons, List.append_assoc, Function.comp_def]
      rfl

namespace Report

/-! ## Components -/

/-- A path with slashes in place of its backslashes. -/
def slashed (file : String) : List Char :=
  file.toList.map fun c => if c = '\\' then '/' else c

/-- The root of a path, two slashes being another one than one or many. -/
def rootParts : List Char → List String
  | '/' :: '/' :: '/' :: _ => ["/"]
  | '/' :: '/' :: _ => ["//"]
  | '/' :: _ => ["/"]
  | _ => []

theorem slashes_of_not_cons {chars : List Char} (h : ∀ rest, chars = '/' :: rest → False) :
    chars.takeWhile (· = '/') = [] := by
  cases chars with
  | nil => rfl
  | cons c rest =>
    have hc : c ≠ '/' := fun heq => h rest (heq ▸ rfl)
    rw [List.takeWhile_cons_of_neg (by simpa using hc)]

theorem rootParts_eq (chars : List Char) :
    rootParts chars =
      if (chars.takeWhile (· = '/')).length = 0 then []
      else if (chars.takeWhile (· = '/')).length = 2 then ["//"] else ["/"] := by
  unfold rootParts
  split
  · simp
  · rename_i rest hthird
    simp [slashes_of_not_cons hthird]
  · rename_i rest _ hsecond
    simp [slashes_of_not_cons hsecond]
  · rename_i hfirst
    simp [slashes_of_not_cons hfirst]

theorem components_ofString (chars : List Char) :
    (Path.ofString (String.ofList chars)).components =
      rootParts chars ++
        ((chars.splitOn '/').map String.ofList).filter fun p => p ≠ "" && p ≠ "." := by
  have hpieces : Path.pieces [] chars = (chars.splitOn '/').map String.ofList :=
    (Path.pieces_eq_splitOn [] chars).trans
      (congrArg (List.map String.ofList) (congrFun List.modifyHead_id _))
  rw [rootParts_eq, ← hpieces]
  unfold Path.ofString Path.components
  dsimp only
  rw [String.toList_ofList]
  by_cases hnone : (chars.takeWhile (· = '/')).length = 0
  · simp only [hnone, if_true]
    rfl
  · by_cases htwo : (chars.takeWhile (· = '/')).length = 2
    · simp only [htwo, if_true]
      rfl
    · simp only [hnone, htwo, if_false]
      rfl

/-- The components of a source path are the texts between its slashes and backslashes, empty
ones and single dots left out, behind the root. -/
theorem components_eq (file : String) :
    components file = rootParts (slashed file) ++
      (((slashed file).splitOn '/').map String.ofList).filter fun p => p ≠ "" && p ≠ "." :=
  components_ofString (slashed file)

/-! ## Shared directories -/

/-- What both lists start with is what their common start starts with. -/
theorem prefix_commonStart_iff {front xs ys : List String} :
    front <+: commonStart xs ys ↔ front <+: xs ∧ front <+: ys := by
  fun_induction commonStart xs ys generalizing front with
  | case1 x xs ys ih =>
    cases front with
    | nil => simp
    | cons first front =>
      rw [List.cons_prefix_cons, List.cons_prefix_cons, List.cons_prefix_cons, ih,
        and_and_left]
  | case2 x xs y ys hne =>
    rw [List.prefix_nil]
    constructor
    · rintro rfl
      exact ⟨List.nil_prefix, List.nil_prefix⟩
    · rintro ⟨hx, hy⟩
      cases front with
      | nil => rfl
      | cons first front =>
        rw [List.cons_prefix_cons] at hx hy
        exact absurd (hx.1.symm.trans hy.1) hne
  | case3 xs ys hnil =>
    rw [List.prefix_nil]
    constructor
    · rintro rfl
      exact ⟨List.nil_prefix, List.nil_prefix⟩
    · rintro ⟨hx, hy⟩
      cases xs with
      | nil => exact List.prefix_nil.mp hx
      | cons x xs =>
        cases ys with
        | nil => exact List.prefix_nil.mp hy
        | cons y ys => exact absurd rfl (hnil x xs y ys rfl)

theorem prefix_commonDirectory_iff {paths : List (List String)} (h : paths ≠ [])
    {front : List String} :
    front <+: commonDirectory paths ↔ ∀ path ∈ paths, front <+: path.dropLast := by
  have hfold : ∀ (dir : List String) (paths : List (List String)),
      front <+: paths.foldl (fun dir path => commonStart dir path.dropLast) dir ↔
        front <+: dir ∧ ∀ path ∈ paths, front <+: path.dropLast := by
    intro dir paths
    induction paths generalizing dir with
    | nil => simp
    | cons path paths ih =>
      rw [List.foldl_cons, ih, prefix_commonStart_iff, List.forall_mem_cons, and_assoc]
  cases paths with
  | nil => exact absurd rfl h
  | cons path paths => rw [commonDirectory, hfold, List.forall_mem_cons]

section Key

variable {files : List String} {file : String}

/-- The directory that all known files share. -/
def sharedDirectory (files : List String) : List String :=
  commonDirectory ((files.filter isKnown).map components)

theorem prefix_sharedDirectory_iff (hfile : file ∈ files) (hknown : isKnown file = true)
    {front : List String} :
    front <+: sharedDirectory files ↔
      ∀ file ∈ files, isKnown file = true → front <+: (components file).dropLast := by
  have hsome : (files.filter isKnown).map components ≠ [] :=
    List.ne_nil_of_mem (List.mem_map_of_mem (List.mem_filter.mpr ⟨hfile, hknown⟩))
  rw [sharedDirectory, prefix_commonDirectory_iff hsome, List.forall_mem_map]
  simp only [List.mem_filter, and_imp]

theorem sharedDirectory_starts_directory (hfile : file ∈ files) (hknown : isKnown file = true) :
    sharedDirectory files <+: (components file).dropLast :=
  (prefix_sharedDirectory_iff hfile hknown).mp (List.prefix_refl _) file hfile hknown

theorem components_eq_append_keyOf (hfile : file ∈ files) (hknown : isKnown file = true) :
    components file = sharedDirectory files ++ keyOf (strippedLength files) file := by
  have hdir := (sharedDirectory_starts_directory hfile hknown).trans (List.dropLast_prefix _)
  rw [keyOf, if_pos hknown]
  exact (List.prefix_iff_eq_append.mp hdir).symm

example : keyOf (strippedLength ["C:\\src\\a.c", "", "C:/src/./lib/b.c"]) "C:/src/./lib/b.c" =
    ["lib", "b.c"] := by
  decide +kernel

theorem getLast?_keyOf (hfile : file ∈ files) (hknown : isKnown file = true) :
    (keyOf (strippedLength files) file).getLast? = (components file).getLast? := by
  have hlength := (sharedDirectory_starts_directory hfile hknown).length_le
  rw [List.length_dropLast] at hlength
  rw [keyOf, if_pos hknown, List.getLast?_drop, strippedLength, ← sharedDirectory]
  split
  · have hempty : components file = [] := List.length_eq_zero_iff.mp (by omega)
    rw [hempty]
    rfl
  · rfl

theorem keyOf_unknown (stripped : Nat) (hunknown : file = "" ∨ file = unknownSource) :
    keyOf stripped file = [unknownSource] := by
  have : isKnown file = false := by
    rcases hunknown with rfl | rfl <;> rfl
  rw [keyOf, this]
  rfl

end Key

end Report

end BinMatch
