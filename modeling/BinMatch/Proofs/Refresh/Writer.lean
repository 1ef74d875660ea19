import BinMatch.Failure
import BinMatch.Proofs.Disk

/-!
# Writers

Ways to write a text to a path, which may fail.  What a failing write does to its own file is
not known: the file may be emptied or hold a part of the text.
-/

namespace BinMatch

/-- The file at a path, if one can be read there. -/
def Disk.file? (disk : Disk) (path : Path) : Option File :=
  (disk.readFile path).toOption

theorem Disk.file?_eq_some_iff {disk : Disk} {path : Path} {content : File} :
    disk.file? path = some content ↔
      disk.obstacle? path = none ∧ disk.lookup path = some (.file content) := by
  rw [← readFile_eq_ok_iff, file?]
  cases disk.readFile path <;> simp [Except.toOption]

/-- An attempt to write a text to a path: the disk behind it, and why it failed, if so. -/
abbrev Writer := Disk → Path → String → Disk × Option Failure

namespace Writer

/-- A text that was written can be read, and every other file stays.  Of its own file an attempt
that fails may leave anything. -/
structure Sound (w : Writer) : Prop where
  written : ∀ disk path text, (w disk path text).2 = none →
    (w disk path text).1.file? path = some (.ofText text)
  others : ∀ disk path text other, other.resolve ≠ path.resolve →
    (w disk path text).1.file? other = disk.file? other

/-- Attempts that fail leave their own file alone, too. -/
def Clean (w : Writer) : Prop :=
  ∀ disk path text, (w disk path text).2 ≠ none →
    (w disk path text).1.file? path = disk.file? path

def onDisk : Writer := fun disk path text =>
  match disk.write path text with
  | .ok written => (written, none)
  | .error stop => (disk, some (stop.failure path))

theorem sound_onDisk : onDisk.Sound where
  written disk path text h := by
    unfold onDisk at h ⊢
    cases hwrite : disk.write path text with
    | error stop => simp [hwrite] at h
    | ok written =>
      obtain ⟨hwritable, rfl⟩ := Disk.write_eq_ok_iff.mp hwrite
      refine Disk.file?_eq_some_iff.mpr ⟨?_, ?_⟩
      · exact (Disk.obstacle?_put_eq_none_iff hwritable.2.2 _).mpr hwritable.2.1
      · rw [Disk.lookup_put, if_pos rfl]
  others disk path text other h := by
    unfold onDisk
    cases hwrite : disk.write path text with
    | error stop => rfl
    | ok written =>
      obtain ⟨hwritable, rfl⟩ := Disk.write_eq_ok_iff.mp hwrite
      refine Option.ext fun content => ?_
      rw [Disk.file?_eq_some_iff, Disk.file?_eq_some_iff,
        Disk.obstacle?_put_eq_none_iff hwritable.2.2, Disk.lookup_put, if_neg h]

theorem clean_onDisk : onDisk.Clean := by
  intro disk path text h
  unfold onDisk at h ⊢
  cases hwrite : disk.write path text with
  | error stop => rfl
  | ok written => simp [hwrite] at h

def noSpaceLeft : OsFailure := .numbered 28 "No space left on device" none

/-- A disk that is full: a text of more than `room` bytes finds no place in the file that was
opened, and emptied, for it. -/
def limited (room : Nat) : Writer := fun disk path text =>
  if text.utf8ByteSize ≤ room then onDisk disk path text
  else
    let opened := onDisk disk path ""
    (opened.1, some (opened.2.getD (.reported (.fileAccess path.toString noSpaceLeft))))

theorem sound_limited (room : Nat) : (limited room).Sound where
  written disk path text h := by
    unfold limited at h ⊢
    split at h
    · rename_i hroom
      rw [if_pos hroom]
      exact sound_onDisk.written disk path text h
    · cases h
  others disk path text other h := by
    unfold limited
    split
    · exact sound_onDisk.others disk path text other h
    · exact sound_onDisk.others disk path "" other h

end Writer

end BinMatch
