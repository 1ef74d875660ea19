import BinMatch.Proofs.Log
import BinMatch.Proofs.Refresh.Writer
import BinMatch.Refresh

/-!
# What a run writes

The two listings are written one after the other, and only when both are there the line is
printed and the location remembered.
-/

namespace BinMatch

/-! ## What a run ends in -/

namespace Refresh

variable {α β : Type} {s s' : RefreshState}

/-- What a run started in `s` ends in and the state behind it, its remarks left out. -/
def outcome (x : Refresh α) (s : RefreshState) : Except Failure α × RefreshState :=
  (x.run.run s).value

theorem outcome_ofAttempt (x : Attempt α) (s : RefreshState) :
    (ofAttempt x).outcome s = (x.result, s) := rfl

theorem outcome_bind_of_ok {x : Refresh α} {a : α} (h : x.outcome s = (.ok a, s'))
    (f : α → Refresh β) : (x >>= f).outcome s = (f a).outcome s' :=
  Logged.value_run_run_bind_of_ok h f

theorem outcome_bind_of_error {x : Refresh α} {e : Failure} (h : x.outcome s = (.error e, s'))
    (f : α → Refresh β) : (x >>= f).outcome s = (.error e, s') :=
  Logged.value_run_run_bind_of_error h f

/-- What both parts of a run preserve is preserved by the whole. -/
theorem preserves_bind (P : RefreshState → Prop) {x : Refresh α} {f : α → Refresh β}
    (hx : P (x.outcome s).2) (hf : ∀ a t, P t → P ((f a).outcome t).2) :
    P ((x >>= f).outcome s).2 := by
  rcases h : x.outcome s with ⟨e | a, t⟩ <;> rw [h] at hx
  · rwa [outcome_bind_of_error h]
  · rw [outcome_bind_of_ok h]
    exact hf a t hx

theorem outcome_get_bind (f : RefreshState → Refresh β) (s : RefreshState) :
    (get >>= f : Refresh β).outcome s = (f s).outcome s := rfl

theorem outcome_set_bind (f : PUnit → Refresh β) (s s' : RefreshState) :
    (set s' >>= f : Refresh β).outcome s = (f ⟨⟩).outcome s' := rfl

theorem outcome_ofAttempt_bind (x : Attempt α) (f : α → Refresh β) (s : RefreshState) :
    (ofAttempt x >>= f).outcome s =
      match x.result with
      | .error e => (.error e, s)
      | .ok a => (f a).outcome s := by
  have hattempt := outcome_ofAttempt x s
  cases hx : x.result with
  | error e => exact outcome_bind_of_error (hx ▸ hattempt) f
  | ok a => exact outcome_bind_of_ok (hx ▸ hattempt) f

/-- After looking at the state, it is enough to go on alike in that state. -/
theorem get_bind_congr {f g : RefreshState → Refresh α}
    (h : ∀ s, f s s = g s s) : (get >>= f : Refresh α) = get >>= g :=
  @funext RefreshState _ _ _ h

end Refresh

def RefreshRequest.Finding.location (f : RefreshRequest.Finding) : Location :=
  ⟨f.symbol.offset, f.symbol.size⟩

namespace RefreshRequest

variable (r : RefreshRequest)

/-! ## Listings -/

def referenceListing : Path := r.outputDir.child referenceListingName

def rebuiltListing : Path := r.outputDir.child rebuiltListingName

theorem listings_differ : r.referenceListing.resolve ≠ r.rebuiltListing.resolve := by
  unfold referenceListing rebuiltListing
  rw [ne_eq, Path.resolve_child_inj _ (by decide) (by decide)]
  decide

def writeThrough (w : Writer) (fileName text : String) : Refresh Unit := do
  let s ← get
  let (disk, failure?) := w s.disk (r.outputDir.child fileName) text
  set { s with disk }
  match failure? with
  | none => pure ()
  | some failure => throw failure

def commitThrough (w : Writer) (f : Finding) : Refresh Unit := do
  r.writeThrough w referenceListingName f.diff.oldText
  r.writeThrough w rebuiltListingName f.diff.newText
  let s ← get
  Refresh.print (r.describe s.last f.symbol f.declared)
  modify fun s => { s with last := some ⟨f.symbol.offset, f.symbol.size⟩ }

theorem writeThrough_onDisk (fileName text : String) :
    r.writeThrough .onDisk fileName text = r.writeListing fileName text := by
  refine Refresh.get_bind_congr fun s => ?_
  unfold Writer.onDisk
  cases s.disk.write (r.outputDir.child fileName) text <;> rfl

theorem commitThrough_onDisk : r.commitThrough .onDisk = r.commit := by
  funext f
  rw [commitThrough, commit, writeThrough_onDisk, writeThrough_onDisk]

theorem outcome_writeThrough (w : Writer) (fileName text : String) (s : RefreshState) :
    (r.writeThrough w fileName text).outcome s =
      (match (w s.disk (r.outputDir.child fileName) text).2 with
        | none => .ok ()
        | some failure => .error failure,
      { s with disk := (w s.disk (r.outputDir.child fileName) text).1 }) := by
  unfold writeThrough
  rw [Refresh.outcome_get_bind]
  dsimp only
  rw [Refresh.outcome_set_bind]
  cases (w s.disk (r.outputDir.child fileName) text).2 <;> rfl

theorem outcome_commitThrough (w : Writer) (f : Finding) (s : RefreshState) :
    (r.commitThrough w f).outcome s =
      let first := w s.disk r.referenceListing f.diff.oldText
      let second := w first.1 r.rebuiltListing f.diff.newText
      match first.2, second.2 with
      | some failure, _ => (.error failure, { s with disk := first.1 })
      | none, some failure => (.error failure, { s with disk := second.1 })
      | none, none =>
        (.ok (), { s with
          disk := second.1
          last := some f.location
          printed := s.printed ++ [r.describe s.last f.symbol f.declared] }) := by
  have hreference := r.outcome_writeThrough w referenceListingName f.diff.oldText s
  unfold commitThrough referenceListing rebuiltListing
  cases hfirst : (w s.disk (r.outputDir.child referenceListingName) f.diff.oldText).2 with
  | some failure =>
    rw [hfirst] at hreference
    rw [Refresh.outcome_bind_of_error hreference]
    simp only [hfirst]
  | none =>
    rw [hfirst] at hreference
    rw [Refresh.outcome_bind_of_ok hreference]
    have hrebuilt := r.outcome_writeThrough w rebuiltListingName f.diff.newText
      { s with disk := (w s.disk (r.outputDir.child referenceListingName) f.diff.oldText).1 }
    dsimp only at hrebuilt ⊢
    cases hsecond : (w (w s.disk (r.outputDir.child referenceListingName) f.diff.oldText).1
      (r.outputDir.child rebuiltListingName) f.diff.newText).2 with
    | some failure =>
      rw [hsecond] at hrebuilt
      rw [Refresh.outcome_bind_of_error hrebuilt]
      simp only [hfirst]
    | none =>
      rw [hsecond] at hrebuilt
      rw [Refresh.outcome_bind_of_ok hrebuilt]
      simp only [hfirst]
      rfl

theorem outcome_commit_eq (f : Finding) (s : RefreshState) :
    (r.commit f).outcome s =
      match s.disk.write r.referenceListing f.diff.oldText with
      | .error stop => (.error (stop.failure r.referenceListing), s)
      | .ok disk =>
        match disk.write r.rebuiltListing f.diff.newText with
        | .error stop => (.error (stop.failure r.rebuiltListing), { s with disk })
        | .ok disk =>
          (.ok (), { s with
            disk
            last := some f.location
            printed := s.printed ++ [r.describe s.last f.symbol f.declared] }) := by
  rw [← commitThrough_onDisk, outcome_commitThrough]
  unfold Writer.onDisk
  cases s.disk.write r.referenceListing f.diff.oldText with
  | error stop => rfl
  | ok disk =>
    dsimp only
    cases disk.write r.rebuiltListing f.diff.newText <;> rfl

end RefreshRequest

end BinMatch
