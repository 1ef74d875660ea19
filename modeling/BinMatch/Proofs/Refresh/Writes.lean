import BinMatch.Proofs.Refresh

/-!
# Listings and writes that fail

A run writes its two listings one after the other.  They are the texts of one comparison
whenever the last run that touched them has returned, whatever failing writes did to their own
files before.  A run that fails between the two writes leaves its first listing beside an older
second one.
-/

namespace BinMatch

def Diff.TextDiff.files (d : Diff.TextDiff) : Option File × Option File :=
  (some (.ofText d.oldText), some (.ofText d.newText))

structure WritingCall where
  inputs : RefreshInputs
  writer : Writer
  outcome : Except Failure Diff.TextDiff

namespace RefreshRequest

variable (r : RefreshRequest) {i : RefreshInputs} {s s₀ : RefreshState} {w : Writer}
  {calls : List WritingCall}

/-! ## Runs that write through a writer -/

/-- What a run around these inputs ends in when it writes through `w`, and the state behind it. -/
def runThrough (w : Writer) (i : RefreshInputs) (s : RefreshState) :
    Except Failure Diff.TextDiff × RefreshState :=
  (r.runOnceBy (r.commitThrough w) fun _ => i.debugFile).outcome { s with disk := i.disk }

theorem runThrough_onDisk : r.runThrough .onDisk = r.runOn := by
  funext i s
  rw [runThrough, commitThrough_onDisk]
  rfl

/-! ## What a run makes of the listings -/

/-- Both listings, as far as they can be read. -/
def listings (disk : Disk) : Option File × Option File :=
  (disk.file? r.referenceListing, disk.file? r.rebuiltListing)

/-- What a call that ends in this way makes of the listings, by how far it came. -/
inductive Leaves (w : Writer) (i : RefreshInputs) (before after : Option File × Option File) :
    Except Failure Diff.TextDiff → Prop
  | untouched {failure : Failure} (failed : r.finding i = .error failure)
      (kept : after = before) : Leaves w i before after (.error failure)
  | first {f : Finding} {failure : Failure} (found : r.FoundIn i f)
      (failed : (w i.disk r.referenceListing f.diff.oldText).2 = some failure)
      (first : after.1 =
        (w i.disk r.referenceListing f.diff.oldText).1.file? r.referenceListing)
      (second : after.2 = before.2) : Leaves w i before after (.error failure)
  | second {f : Finding} {failure : Failure} (found : r.FoundIn i f)
      (written : (w i.disk r.referenceListing f.diff.oldText).2 = none)
      (failed : (w (w i.disk r.referenceListing f.diff.oldText).1 r.rebuiltListing
        f.diff.newText).2 = some failure)
      (first : after.1 = some (.ofText f.diff.oldText))
      (second : w.Clean → after.2 = before.2) : Leaves w i before after (.error failure)
  | both {f : Finding} (found : r.FoundIn i f)
      (written : (w i.disk r.referenceListing f.diff.oldText).2 = none)
      (texts : after = f.diff.files) : Leaves w i before after (.ok f.diff)

/-- How far a call comes is decided by what it finds and by which of its writes fails. -/
theorem leaves_runThrough (hw : w.Sound) (s : RefreshState) :
    r.Leaves w i (r.listings i.disk) (r.listings (r.runThrough w i s).2.disk)
      (r.runThrough w i s).1 := by
  obtain ⟨reads, hrun⟩ := r.outcome_runOnceBy (r.commitThrough w) i s
  rw [← runThrough] at hrun
  cases hfinding : r.finding i with
  | error failure =>
    rw [hrun, hfinding]
    exact .untouched hfinding rfl
  | ok f =>
    have hfound := r.finding_eq_ok_iff.mp hfinding
    have hcommit := r.outcome_commitThrough w f { s with disk := i.disk, reads }
    have hdiffer := r.listings_differ
    rw [hfinding] at hrun
    dsimp only at hrun hcommit
    -- The second write leaves the first listing alone, and the first one the second listing.
    cases hfirst : (w i.disk r.referenceListing f.diff.oldText).2 with
    | some failure =>
      rw [hfirst] at hcommit
      rw [hrun, Refresh.outcome_bind_of_error hcommit]
      exact .first hfound hfirst rfl (hw.others _ _ _ _ hdiffer.symm)
    | none =>
      have hown := (hw.others _ _ f.diff.newText _ hdiffer).trans (hw.written _ _ _ hfirst)
      cases hsecond : (w (w i.disk r.referenceListing f.diff.oldText).1 r.rebuiltListing
        f.diff.newText).2 with
      | some failure =>
        rw [hfirst, hsecond] at hcommit
        rw [hrun, Refresh.outcome_bind_of_error hcommit]
        refine .second hfound hfirst hsecond hown fun hclean => ?_
        refine (hclean _ _ _ (by simp [hsecond])).trans ?_
        exact hw.others _ _ _ _ hdiffer.symm
      | none =>
        rw [hfirst, hsecond] at hcommit
        rw [hrun, Refresh.outcome_bind_of_ok hcommit]
        exact .both hfound hfirst (Prod.ext hown (hw.written _ _ _ hsecond))

/-! ## Any number of calls -/

/-- The calls made since `s₀`, each with writes that may fail, and the state behind them.
Between two calls anything may happen but to the listings. -/
inductive WritingSession (s₀ : RefreshState) : List WritingCall → RefreshState → Prop
  | start : WritingSession s₀ [] s₀
  | call {calls : List WritingCall} {s : RefreshState} {i : RefreshInputs} {w : Writer} :
      WritingSession s₀ calls s → r.listings i.disk = r.listings s.disk → w.Sound →
      WritingSession s₀ (calls ++ [⟨i, w, (r.runThrough w i s).1⟩]) (r.runThrough w i s).2

/-- The call came to write, and wrote or changed the first listing. -/
def Touches (c : WritingCall) : Prop :=
  ∃ f, r.finding c.inputs = .ok f ∧
    ((c.writer c.inputs.disk r.referenceListing f.diff.oldText).2 = none ∨
      (c.writer c.inputs.disk r.referenceListing f.diff.oldText).1.file? r.referenceListing ≠
        c.inputs.disk.file? r.referenceListing)

/-- The listings are those of the last call that touched them, if it returned, and those of the
start if there is none. -/
def BelongTogether (start now : Option File × Option File) (calls : List WritingCall) : Prop :=
  ((∀ c ∈ calls, ¬ r.Touches c) ∧ now = start) ∨
    ∃ before c after, calls = before ++ c :: after ∧ r.Touches c ∧
      (∀ c' ∈ after, ¬ r.Touches c') ∧ ∀ d, c.outcome = .ok d → now = d.files

variable {r} {before after : Option File × Option File} {outcome : Except Failure Diff.TextDiff}

theorem Leaves.eq_of_not_touches (h : r.Leaves w i (r.listings i.disk) after outcome)
    (hnot : ¬ r.Touches ⟨i, w, outcome⟩) : after = r.listings i.disk := by
  cases h with
  | untouched _ hkept => exact hkept
  | @first f _ hfound _ hfirst hsecond =>
    refine Prod.ext (hfirst.trans ?_) hsecond
    by_contra hchanged
    exact hnot ⟨f, r.finding_eq_ok_iff.mpr hfound, .inr hchanged⟩
  | @second f _ hfound hwritten =>
    exact absurd ⟨f, r.finding_eq_ok_iff.mpr hfound, .inl hwritten⟩ hnot
  | @both f hfound hwritten =>
    exact absurd ⟨f, r.finding_eq_ok_iff.mpr hfound, .inl hwritten⟩ hnot

theorem Leaves.eq_of_returned {d : Diff.TextDiff} (h : r.Leaves w i before after (.ok d)) :
    after = d.files := by
  cases h with
  | both _ _ htexts => exact htexts

/-- A failing call whose failing write leaves its own file alone changes the first listing at
most, and then to its own text. -/
theorem Leaves.of_clean {failure : Failure} (hclean : w.Clean)
    (h : r.Leaves w i (r.listings i.disk) after (.error failure)) :
    after.2 = (r.listings i.disk).2 ∧ (after.1 = (r.listings i.disk).1 ∨
      ∃ f, r.FoundIn i f ∧ after.1 = some (.ofText f.diff.oldText)) := by
  cases h with
  | untouched _ hkept => exact ⟨by rw [hkept], .inl (by rw [hkept])⟩
  | first _ hfailed hfirst hsecond =>
    exact ⟨hsecond, .inl (hfirst.trans (hclean _ _ _ (by simp [hfailed])))⟩
  | @second f _ hfound _ _ hfirst hsecond =>
    exact ⟨hsecond hclean, .inr ⟨f, hfound, hfirst⟩⟩

theorem BelongTogether.call {start : Option File × Option File}
    (h : r.BelongTogether start (r.listings i.disk) calls)
    (hleaves : r.Leaves w i (r.listings i.disk) after outcome) :
    r.BelongTogether start after (calls ++ [⟨i, w, outcome⟩]) := by
  by_cases htouches : r.Touches ⟨i, w, outcome⟩
  · refine .inr ⟨calls, _, [], rfl, htouches, by simp, ?_⟩
    rintro d rfl
    exact hleaves.eq_of_returned
  · rw [hleaves.eq_of_not_touches htouches]
    rcases h with ⟨hnone, hstart⟩ | ⟨before, c, later, rfl, hc, hlater, hnow⟩
    · exact .inl ⟨by simpa [or_imp, forall_and] using ⟨hnone, htouches⟩, hstart⟩
    · refine .inr ⟨before, c, later ++ [⟨i, w, outcome⟩], by simp, hc, ?_, hnow⟩
      simpa [or_imp, forall_and] using ⟨hlater, htouches⟩

theorem WritingSession.belongTogether (h : r.WritingSession s₀ calls s) :
    r.BelongTogether (r.listings s₀.disk) (r.listings s.disk) calls := by
  induction h with
  | start => exact .inl ⟨by simp, rfl⟩
  | @call calls s i w _ hkeep hw ih =>
    rw [← hkeep] at ih
    exact ih.call (r.leaves_runThrough hw s)

/-- Whatever writes fail, the listings are those of the last call that touched them, if it
returned.  A call that fails before it writes leaves both as they were; one that fails at the
first listing leaves the second; one that fails at the second listing leaves its own text in the
first.  On the disk a failing write leaves its own file alone. -/
theorem listings_of_last_touching_call (h : r.WritingSession s₀ calls s) :
    r.BelongTogether (r.listings s₀.disk) (r.listings s.disk) calls ∧
    (∀ w i, w.Sound → r.listings i.disk = r.listings s.disk →
      r.Leaves w i (r.listings s.disk) (r.listings (r.runThrough w i s).2.disk)
        (r.runThrough w i s).1) ∧
    (∀ w i failure, w.Sound → w.Clean → r.listings i.disk = r.listings s.disk →
      (r.runThrough w i s).1 = .error failure →
      (r.listings (r.runThrough w i s).2.disk).2 = (r.listings s.disk).2 ∧
        ((r.listings (r.runThrough w i s).2.disk).1 = (r.listings s.disk).1 ∨
          ∃ f, r.FoundIn i f ∧
            (r.listings (r.runThrough w i s).2.disk).1 = some (.ofText f.diff.oldText))) ∧
    Writer.onDisk.Sound ∧ Writer.onDisk.Clean ∧ r.runThrough .onDisk = r.runOn := by
  have hleaves : ∀ w i, w.Sound → r.listings i.disk = r.listings s.disk →
      r.Leaves w i (r.listings s.disk) (r.listings (r.runThrough w i s).2.disk)
        (r.runThrough w i s).1 := by
    intro w i hw hkeep
    rw [← hkeep]
    exact r.leaves_runThrough hw s
  refine ⟨h.belongTogether, hleaves, ?_, Writer.sound_onDisk, Writer.clean_onDisk,
    r.runThrough_onDisk⟩
  intro w i failure hw hclean hkeep hfailed
  have hcall := hleaves w i hw hkeep
  rw [hfailed, ← hkeep] at hcall
  rw [← hkeep]
  exact hcall.of_clean hclean

def fullFirst : RefreshInputs :=
  movingInputs movingStart.disk [⟨some "f", 0xC01, some 0xC02, none⟩]

/-- The reference has changed, and there is no room for the second listing. -/
def fullSecond : RefreshInputs :=
  movingInputs ((movingRequest.runThrough .onDisk fullFirst movingStart).2.disk.put
    movingRequest.referencePath (.file ⟨[0x90], none⟩))
    [⟨some "f", 0xC00, some 0xC02, none⟩]

def fullState : RefreshState :=
  (movingRequest.runThrough (.limited 4) fullSecond
    (movingRequest.runThrough .onDisk fullFirst movingStart).2).2

def fullThird : RefreshInputs :=
  movingInputs fullState.disk [⟨some "f", 0xC00, some 0xC02, none⟩]

/-- After a full disk the listings are parted until the next call that returns. -/
theorem full_disk_session : ∃ calls s, movingRequest.WritingSession movingStart calls s ∧
    calls.map (·.outcome.isOk) = [true, false, true] ∧
    movingRequest.listings fullState.disk = (some (.ofText "nop\n"), some (.ofText "")) ∧
    ∃ f, movingRequest.FoundIn fullThird f ∧ movingRequest.listings s.disk = f.diff.files := by
  have hstart : movingRequest.WritingSession movingStart [] movingStart := .start
  have hfirst := hstart.call (i := fullFirst) rfl Writer.sound_onDisk
  have hsecond := hfirst.call (i := fullSecond) (by decide +kernel) (Writer.sound_limited 4)
  have hthird := hsecond.call (i := fullThird) rfl Writer.sound_onDisk
  refine ⟨_, _, hthird, by decide +kernel, by decide +kernel, ?_⟩
  have hreturned : (movingRequest.runThrough .onDisk fullThird fullState).1.isOk = true := by
    decide +kernel
  obtain ⟨-, hleaves, -⟩ := listings_of_last_touching_call hsecond
  have hlast := hleaves .onDisk fullThird Writer.sound_onDisk rfl
  rw [← fullState] at hlast
  generalize (movingRequest.runThrough .onDisk fullThird fullState).1 = outcome at *
  cases hlast with
  | untouched | first | second => cases hreturned
  | @both f hfound _ htexts => exact ⟨f, hfound, htexts⟩

/-- A directory stands where the second listing is to be written. -/
theorem failed_write_parts_listings :
    let i := movingInputs (movingStart.disk.put movingRequest.rebuiltListing .directory)
      [⟨some "f", 0xC00, some 0xC02, none⟩]
    let after := movingRequest.runOn i movingStart
    after.1.isOk = false ∧ movingRequest.listings i.disk = (none, none) ∧
      movingRequest.listings after.2.disk = (some (.ofText "ret\n"), none) ∧
      ∀ d : Diff.TextDiff, movingRequest.listings after.2.disk ≠ d.files := by
  intro i after
  have hafter : movingRequest.listings after.2.disk = (some (.ofText "ret\n"), none) := by
    decide +kernel
  refine ⟨by decide +kernel, by decide +kernel, hafter, fun d hd => ?_⟩
  rw [hafter] at hd
  cases congrArg (·.2) hd

end RefreshRequest

end BinMatch
