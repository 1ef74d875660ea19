import BinMatch.Disk
import BinMatch.Proofs.Catalog
import BinMatch.Proofs.Log

/-!
# Reading what was written

A file that was written holds its text, and every other place keeps what it held.  Files
written one after the other can all be written exactly if each of them can be, and then
every place holds the text that was written there last.
-/

namespace BinMatch

/-! ## Paths of files in a directory -/

namespace Path

theorem collapse_concat (absolute : Bool) (read parts : List String) {name : String}
    (h : name ≠ "..") :
    collapse absolute read (parts ++ [name]) = collapse absolute read parts ++ [name] := by
  fun_induction collapse absolute read parts with
  | case1 read => simp [collapse, h]
  | case2 rest habsolute ih =>
    subst habsolute
    simpa [collapse] using ih
  | case3 rest habsolute ih =>
    rw [Bool.not_eq_true] at habsolute
    subst habsolute
    simpa [collapse] using ih
  | case4 rest before ih => simpa [collapse] using ih
  | case5 rest last before hlast ih => simpa [collapse, hlast] using ih
  | case6 read part rest hpart ih => simpa [collapse, hpart] using ih

theorem resolve_child (dir : Path) {name : String} (h : name ≠ "..") :
    (dir.child name).resolve =
      { dir.resolve with parts := dir.resolve.parts ++ [name] } := by
  have hchild : dir.child name = { dir with parts := dir.parts ++ [name] } := rfl
  rw [hchild, resolve, resolve, collapse_concat _ _ _ h]

theorem resolve_child_inj (dir : Path) {name name' : String} (h : name ≠ "..")
    (h' : name' ≠ "..") :
    (dir.child name).resolve = (dir.child name').resolve ↔ name = name' := by
  rw [resolve_child dir h, resolve_child dir h', Path.mk.injEq]
  simp

end Path

namespace Disk

variable {disk : Disk} {p q : Path}

/-! ## One file -/

theorem lookup_put (disk : Disk) (p q : Path) (entry : DiskEntry) :
    (disk.put p entry).lookup q =
      if q.resolve = p.resolve then some entry else disk.lookup q := by
  by_cases hplace : q.resolve = p.resolve
  · simp [lookup, put, Catalog.get?_put, hplace]
  · simp [lookup, put, Catalog.get?_put, hplace]

theorem obstacle?_eq_none_iff : disk.obstacle? q = none ↔
    q.toString.utf8ByteSize ≤ longestPath ∧
      ∀ e ∈ (ancestors q).zip q.parts,
        disk.lookup e.1 = some .directory ∧ nameObstacle? e.2 = none := by
  rw [obstacle?]
  split
  · rename_i hlong
    simp only [reduceCtorEq, false_iff, not_and]
    intro hshort
    omega
  · rename_i hshort
    rw [List.findSome?_eq_none_iff]
    refine ⟨fun h => ⟨Nat.le_of_not_lt hshort, fun e he => ?_⟩, fun h e he => ?_⟩
    · have hpart := h e he
      dsimp only at hpart
      split at hpart
      · rename_i hdirectory
        exact ⟨hdirectory, hpart⟩
      · cases hpart
      · cases hpart
    · obtain ⟨hdirectory, hname⟩ := h.2 e he
      simp only [hdirectory, hname]

/-- A file of that name can be written. -/
def Writable (disk : Disk) (p : Path) : Prop :=
  p.isNameable = true ∧ disk.obstacle? p = none ∧ disk.lookup p ≠ some .directory

instance : Decidable (disk.Writable p) :=
  inferInstanceAs (Decidable (_ ∧ _ ∧ _))

theorem readFile_eq_ok_iff {content : File} : disk.readFile p = .ok content ↔
    disk.obstacle? p = none ∧ disk.lookup p = some (.file content) := by
  rw [readFile]
  cases disk.obstacle? p with
  | some failure => simp
  | none =>
    cases disk.lookup p with
    | none => simp
    | some entry => cases entry <;> simp

theorem write_eq_ok_iff {text : String} {written : Disk} : disk.write p text = .ok written ↔
    disk.Writable p ∧ written = disk.put p (.file (.ofText text)) := by
  rw [write, atNameable, Writable]
  cases p.isNameable with
  | false => simp
  | true =>
    rw [if_pos rfl, mapError_eq_ok_iff, writeText]
    cases disk.obstacle? p with
    | some failure => simp
    | none =>
      cases disk.lookup p with
      | none => simp [eq_comm]
      | some entry => cases entry <;> simp [eq_comm]

theorem not_nameable_of_stop {α : Type} {result : Except OsFailure α}
    (h : atNameable p result = .error .unnameable) : p.isNameable = false := by
  unfold atNameable at h
  split at h
  · cases result <;> cases h
  · rename_i hnot
    exact Bool.eq_false_iff.mpr hnot

theorem not_nameable_of_write {text : String} (h : disk.write p text = .error .unnameable) :
    p.isNameable = false :=
  not_nameable_of_stop h

theorem lookup_put_eq_directory_iff (hp : disk.lookup p ≠ some .directory) (content : File) :
    (disk.put p (.file content)).lookup q = some .directory ↔
      disk.lookup q = some .directory := by
  rw [lookup_put]
  split
  · rename_i hplace
    have hlookup : disk.lookup q = disk.lookup p := by rw [lookup, lookup, hplace]
    simp [hlookup, hp]
  · rfl

/-- A new file is in no other file's way. -/
theorem obstacle?_put_eq_none_iff (hp : disk.lookup p ≠ some .directory) (content : File) :
    (disk.put p (.file content)).obstacle? q = none ↔ disk.obstacle? q = none := by
  simp only [obstacle?_eq_none_iff, lookup_put_eq_directory_iff hp]

theorem writable_put_iff (hp : disk.lookup p ≠ some .directory) (content : File) :
    (disk.put p (.file content)).Writable q ↔ disk.Writable q := by
  simp only [Writable, obstacle?_put_eq_none_iff hp, ne_eq, lookup_put_eq_directory_iff hp]

/-! ## Files one after the other -/

section WriteAll

variable {files : List (Path × String)} {written : Disk}

theorem writeAll_cons_eq_none_iff {file : Path × String} :
    disk.writeAll (file :: files) = (written, none) ↔
      disk.Writable file.1 ∧
        (disk.put file.1 (.file (.ofText file.2))).writeAll files = (written, none) := by
  rw [writeAll]
  cases hwrite : disk.write file.1 file.2 with
  | ok after =>
    obtain ⟨hwritable, rfl⟩ := write_eq_ok_iff.mp hwrite
    simp only [hwritable, true_and]
  | error stop =>
    have hnot : ¬ disk.Writable file.1 := by
      intro hwritable
      rw [write_eq_ok_iff.mpr ⟨hwritable, rfl⟩] at hwrite
      cases hwrite
    simp [hnot]

/-- Whether a file can be written does not hang on the files written before it. -/
theorem writeAll_eq_none_iff :
    (∃ written, disk.writeAll files = (written, none)) ↔
      ∀ file ∈ files, disk.Writable file.1 := by
  induction files generalizing disk with
  | nil => simp [writeAll]
  | cons file files ih =>
    simp only [writeAll_cons_eq_none_iff, exists_and_left, ih, List.forall_mem_cons]
    refine and_congr_right fun hwritable => ?_
    simp only [writable_put_iff hwritable.2.2]

theorem writable_writeAll_iff (h : disk.writeAll files = (written, none)) :
    written.Writable q ↔ disk.Writable q := by
  induction files generalizing disk with
  | nil =>
    cases h
    rfl
  | cons file files ih =>
    obtain ⟨hwritable, h⟩ := writeAll_cons_eq_none_iff.mp h
    rw [ih h, writable_put_iff hwritable.2.2]

/-- A place holds what was written there last, or else what it held before. -/
theorem lookup_writeAll (h : disk.writeAll files = (written, none)) (q : Path) :
    written.lookup q =
      (((files.filter (·.1.resolve = q.resolve)).getLast?).map
        fun file => DiskEntry.file (.ofText file.2)).or (disk.lookup q) := by
  induction files generalizing disk with
  | nil =>
    cases h
    rfl
  | cons file files ih =>
    obtain ⟨-, h⟩ := writeAll_cons_eq_none_iff.mp h
    rw [ih h, lookup_put]
    by_cases hplace : file.1.resolve = q.resolve
    · rw [List.filter_cons_of_pos (by simpa using hplace), List.getLast?_cons,
        if_pos hplace.symm]
      cases (files.filter (·.1.resolve = q.resolve)).getLast? <;> rfl
    · rw [List.filter_cons_of_neg (by simpa using hplace), if_neg (Ne.symm hplace)]

theorem readFile_writeAll (h : disk.writeAll files = (written, none)) {path path' : Path}
    {text : String} (hpath : path ∈ files.map (·.1))
    (hlast : (files.filter (·.1.resolve = path.resolve)).getLast? = some (path', text)) :
    written.readFile path = .ok (.ofText text) := by
  obtain ⟨file, hfile, rfl⟩ := List.mem_map.mp hpath
  have hwritable : disk.Writable file.1 := writeAll_eq_none_iff.mp ⟨written, h⟩ file hfile
  rw [readFile_eq_ok_iff, lookup_writeAll h, hlast]
  exact ⟨((writable_writeAll_iff h).mpr hwritable).2.1, rfl⟩

theorem not_nameable_of_writeAll (h : (disk.writeAll files).2 = some .unnameable) :
    ∃ file ∈ files, file.1.isNameable = false := by
  induction files generalizing disk with
  | nil => cases h
  | cons file files ih =>
    rw [writeAll] at h
    cases hwrite : disk.write file.1 file.2 with
    | ok written =>
      rw [hwrite] at h
      obtain ⟨other, hother, hnot⟩ := ih h
      exact ⟨other, List.mem_cons_of_mem _ hother, hnot⟩
    | error stop =>
      rw [hwrite] at h
      cases h
      exact ⟨file, List.mem_cons_self, not_nameable_of_write hwrite⟩

end WriteAll

/-! ## Directories -/

/-- The files on both disks are the same. -/
def SameFiles (before after : Disk) : Prop :=
  ∀ q content, after.lookup q = some (.file content) ↔ before.lookup q = some (.file content)

theorem SameFiles.trans {first second third : Disk} (h : first.SameFiles second)
    (h' : second.SameFiles third) : first.SameFiles third :=
  fun q content => (h' q content).trans (h q content)

theorem sameFiles_createDirectory {made : Disk} (h : disk.createDirectory p = .ok made) :
    disk.SameFiles made := by
  have hnew : disk.lookup p = none ∧ made = disk.put p .directory := by
    revert h
    rw [createDirectory]
    cases disk.obstacle? p with
    | some failure => simp
    | none => cases disk.lookup p <;> simp [eq_comm]
  obtain ⟨hnone, rfl⟩ := hnew
  intro q content
  rw [lookup_put]
  split
  · rename_i hplace
    have hlookup : disk.lookup q = disk.lookup p := by rw [lookup, lookup, hplace]
    simp [hlookup, hnone]
  · rfl

theorem sameFiles_keepDirectory {made : Disk} {failure : OsFailure}
    (h : disk.keepDirectory p failure = .ok made) : disk.SameFiles made := by
  rw [keepDirectory] at h
  split at h
  · cases h
    exact fun _ _ => Iff.rfl
  · cases h

theorem sameFiles_makeDirectoryAt {made : Disk} {root : String} {components : List String}
    (h : disk.makeDirectoryAt root components = .ok made) : disk.SameFiles made := by
  induction components generalizing made with
  | nil =>
    cases h
    exact fun _ _ => Iff.rfl
  | cons last before ih =>
    simp only [makeDirectoryAt] at h
    split at h
    · rename_i hcreate
      cases h
      exact sameFiles_createDirectory hcreate
    · split at h
      · split at h
        · cases h
        · rename_i around haround
          split at h
          · rename_i hcreate
            cases h
            exact (ih haround).trans (sameFiles_createDirectory hcreate)
          · exact (ih haround).trans (sameFiles_keepDirectory h)
      · exact sameFiles_keepDirectory h

end Disk

end BinMatch
