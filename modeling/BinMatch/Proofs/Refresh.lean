import BinMatch.Proofs.Refresh.Commit
import BinMatch.Proofs.Text.Hex
import Mathlib.Algebra.BigOperators.Group.List.Basic
import Mathlib.Algebra.Ring.Int.Defs

/-!
# Runs one after the other

A run looks at everything first, and a run that found something then writes both
listings, prints one line and remembers the location.  Over any session the remembered
location, the listings and the printed differences belong to the runs that returned, and
the others leave no trace.
-/

namespace BinMatch

/-- What a run finds around it: the disk as it is then, and the debug file. -/
structure RefreshInputs where
  disk : Disk
  debugFile : Attempt (String × List DebugRecord)

namespace RefreshRequest

variable (r : RefreshRequest) {i : RefreshInputs} {s : RefreshState} {f : Finding}

/-- What a run around these inputs ends in, and the state behind it. -/
def runOn (i : RefreshInputs) (s : RefreshState) :
    Except Failure Diff.TextDiff × RefreshState :=
  (r.runOnce fun _ => i.debugFile).outcome { s with disk := i.disk }

/-- Everything that a run does before it writes. -/
def look (i : RefreshInputs) : Attempt Finding := do
  let declared ← Attempt.ofChecked r.checkReference
  let (path, records) ← i.debugFile
  r.evaluate i.disk declared path records

def finding (i : RefreshInputs) : Except Failure Finding :=
  (r.look i).result

/-! ## The inputs of a run decide what it finds -/

/-- The finding is the definition, the symbol and the difference of these inputs. -/
structure FoundIn (i : RefreshInputs) (f : Finding) : Prop where
  declared : r.config.find r.name = .ok f.declared
  sized : f.declared.size = none → r.options.truncateToReference = false
  compared : ∃ path records reference rebuilt,
    i.debugFile.result = .ok (path, records) ∧
    (extractSymbols path records).value.get? r.name = some f.symbol ∧
    i.disk.readImageBytes r.referencePath = .ok reference ∧
    i.disk.readImageBytes r.rebuiltPath = .ok rebuilt ∧
    (compare r.options ⟨⟨reference⟩, r.config.byName, r.config.addressOffset⟩
      ⟨⟨rebuilt⟩, (extractSymbols path records).value, defaultSegmentOffset⟩
      r.name).result = .ok f.diff

theorem checkReference_eq_ok_iff {d : Definition} : r.checkReference.result = .ok d ↔
    r.config.find r.name = .ok d ∧ (d.size = none → r.options.truncateToReference = false) := by
  have hchecked : r.checkReference.result = r.config.find r.name >>= fun d =>
      if d.size = none ∧ r.options.truncateToReference = true then
        .error (.requiredSize d.name)
      else .ok d := by
    unfold checkReference
    rw [Checked.result_bind, Checked.result_ofExcept]
    refine bind_congr fun d => ?_
    cases d.size <;> cases r.options.truncateToReference <;> rfl
  rw [hchecked, except_bind_eq_ok_iff]
  constructor
  · rintro ⟨found, hfind, hfound⟩
    split at hfound
    · cases hfound
    · rename_i hpolicy
      cases hfound
      exact ⟨hfind, fun hsize => by simpa [hsize] using hpolicy⟩
  · rintro ⟨hfind, hsized⟩
    refine ⟨d, hfind, if_neg ?_⟩
    rintro ⟨hsize, htruncate⟩
    rw [hsized hsize] at htruncate
    cases htruncate

theorem evaluate_eq_ok_iff {disk : Disk} {declared : Definition} {path : String}
    {records : List DebugRecord} :
    (r.evaluate disk declared path records).result = .ok f ↔
      f.declared = declared ∧
      (extractSymbols path records).value.get? r.name = some f.symbol ∧
      ∃ reference rebuilt,
        disk.readImageBytes r.referencePath = .ok reference ∧
        disk.readImageBytes r.rebuiltPath = .ok rebuilt ∧
        (compare r.options ⟨⟨reference⟩, r.config.byName, r.config.addressOffset⟩
          ⟨⟨rebuilt⟩, (extractSymbols path records).value, defaultSegmentOffset⟩
          r.name).result = .ok f.diff := by
  unfold evaluate
  cases hsymbol : (extractSymbols path records).value.get? r.name with
  | none =>
    simp only [Attempt.result_bind, Attempt.result_lift, except_bind_eq_ok_iff, Except.ok.injEq,
      exists_eq_left', hsymbol, Attempt.result_throw, reduceCtorEq, false_and, exists_false,
      and_false]
  | some symbol =>
    simp only [Attempt.result_bind, Attempt.result_lift, except_bind_eq_ok_iff, Except.ok.injEq,
      exists_eq_left', hsymbol, Attempt.result_pure, Attempt.result_ofExcept,
      Attempt.result_ofChecked, mapError_eq_ok_iff, Option.some.injEq]
    constructor
    · rintro ⟨reference, hreference, rebuilt, hrebuilt, diff, hdiff, rfl⟩
      exact ⟨rfl, rfl, reference, rebuilt, hreference, hrebuilt, hdiff⟩
    · rintro ⟨rfl, rfl, reference, rebuilt, hreference, hrebuilt, hdiff⟩
      exact ⟨reference, hreference, rebuilt, hrebuilt, f.diff, hdiff, rfl⟩

theorem finding_eq_ok_iff : r.finding i = .ok f ↔ r.FoundIn i f := by
  unfold finding look
  simp only [Attempt.result_bind, except_bind_eq_ok_iff, Attempt.result_ofChecked,
    mapError_eq_ok_iff, checkReference_eq_ok_iff, evaluate_eq_ok_iff]
  constructor
  · rintro ⟨declared, ⟨hfind, hsized⟩, ⟨path, records⟩, hdebug, rfl, hsymbol, reference,
      rebuilt, hreference, hrebuilt, hdiff⟩
    exact ⟨hfind, hsized, path, records, reference, rebuilt, hdebug, hsymbol, hreference,
      hrebuilt, hdiff⟩
  · rintro ⟨hfind, hsized, path, records, reference, rebuilt, hdebug, hsymbol, hreference,
      hrebuilt, hdiff⟩
    exact ⟨f.declared, ⟨hfind, hsized⟩, (path, records), hdebug, rfl, hsymbol, reference,
      rebuilt, hreference, hrebuilt, hdiff⟩

/-! ## One run -/

def HoldsListings (disk : Disk) (d : Diff.TextDiff) : Prop :=
  disk.readFile r.referenceListing = .ok (.ofText d.oldText) ∧
    disk.readFile r.rebuiltListing = .ok (.ofText d.newText)

def KeepsListings (before after : Disk) : Prop :=
  after.readFile r.referenceListing = before.readFile r.referenceListing ∧
    after.readFile r.rebuiltListing = before.readFile r.rebuiltListing

def CanWriteListings (disk : Disk) : Prop :=
  disk.Writable r.referenceListing ∧ disk.Writable r.rebuiltListing

def putListings (disk : Disk) (d : Diff.TextDiff) : Disk :=
  (disk.put r.referenceListing (.file (.ofText d.oldText))).put
    r.rebuiltListing (.file (.ofText d.newText))

theorem holdsListings_putListings {disk : Disk} (h : r.CanWriteListings disk)
    (d : Diff.TextDiff) : r.HoldsListings (r.putListings disk d) d := by
  obtain ⟨hreference, hrebuilt⟩ := h
  have hreach : ∀ {p}, disk.Writable p → (r.putListings disk d).obstacle? p = none := by
    intro p hp
    have hkeep {q} := Disk.writable_put_iff (q := q) hreference.2.2 (.ofText d.oldText)
    have hsecond := (hkeep.mpr hrebuilt).2.2
    exact ((Disk.writable_put_iff hsecond (.ofText d.newText)).mpr (hkeep.mpr hp)).2.1
  unfold HoldsListings
  rw [Disk.readFile_eq_ok_iff, Disk.readFile_eq_ok_iff]
  refine ⟨⟨hreach hreference, ?_⟩, hreach hrebuilt, ?_⟩
  · rw [putListings, Disk.lookup_put, if_neg r.listings_differ, Disk.lookup_put, if_pos rfl]
  · rw [putListings, Disk.lookup_put, if_pos rfl]

theorem outcome_commit (h : r.CanWriteListings s.disk) (f : Finding) :
    (r.commit f).outcome s =
      (.ok (), { s with
        disk := r.putListings s.disk f.diff
        last := some f.location
        printed := s.printed ++ [r.describe s.last f.symbol f.declared] }) := by
  have hsecond := (Disk.writable_put_iff h.1.2.2 (.ofText f.diff.oldText)).mpr h.2
  rw [outcome_commit_eq, Disk.write_eq_ok_iff.mpr ⟨h.1, rfl⟩]
  dsimp only
  rw [Disk.write_eq_ok_iff.mpr ⟨hsecond, rfl⟩]
  rfl

/-- A run that goes on in some way with what it found. -/
def runOnceBy (commit : Finding → Refresh Unit) (debugFile : DebugFile) :
    Refresh Diff.TextDiff := do
  let declared ← Refresh.ofChecked r.checkReference
  let s ← get
  set { s with reads := s.reads + 1 }
  let (path, records) ← Refresh.ofAttempt (debugFile s.reads)
  let finding ← Refresh.ofAttempt (r.evaluate s.disk declared path records)
  commit finding
  pure finding.diff

/-- A run looks first, and only a run that found something goes on. -/
theorem outcome_runOnceBy (commit : Finding → Refresh Unit) (i : RefreshInputs)
    (s : RefreshState) : ∃ reads,
    (r.runOnceBy commit fun _ => i.debugFile).outcome { s with disk := i.disk } =
      match r.finding i with
      | .error e => (.error e, { s with disk := i.disk, reads })
      | .ok f => (do commit f; pure f.diff : Refresh _).outcome
          { s with disk := i.disk, reads } := by
  cases hcheck : (Attempt.ofChecked r.checkReference).result with
  | error e =>
    have hfinding : r.finding i = .error e := by
      unfold finding look
      rw [Attempt.result_bind, hcheck]
      rfl
    have hchecked : (Refresh.ofChecked r.checkReference).outcome { s with disk := i.disk } =
        (.error e, { s with disk := i.disk }) := by
      rw [Refresh.ofChecked, Refresh.outcome_ofAttempt, hcheck]
    refine ⟨s.reads, ?_⟩
    unfold runOnceBy
    rw [Refresh.outcome_bind_of_error hchecked, hfinding]
  | ok declared =>
    have hfinding : r.finding i = i.debugFile.result >>= fun file =>
        (r.evaluate i.disk declared file.1 file.2).result := by
      unfold finding look
      rw [Attempt.result_bind, hcheck]
      exact Attempt.result_bind i.debugFile _
    have hchecked : (Refresh.ofChecked r.checkReference).outcome { s with disk := i.disk } =
        (.ok declared, { s with disk := i.disk }) := by
      rw [Refresh.ofChecked, Refresh.outcome_ofAttempt, hcheck]
    refine ⟨s.reads + 1, ?_⟩
    unfold runOnceBy
    rw [Refresh.outcome_bind_of_ok hchecked, Refresh.outcome_get_bind, Refresh.outcome_set_bind,
      Refresh.outcome_ofAttempt_bind, hfinding]
    cases i.debugFile.result with
    | error e => rfl
    | ok file =>
      show _ = match (r.evaluate i.disk declared file.1 file.2).result with
        | .error e => _
        | .ok f => _
      dsimp only
      rw [Refresh.outcome_ofAttempt_bind]
      cases (r.evaluate i.disk declared file.1 file.2).result <;> rfl

theorem runOn_eq (i : RefreshInputs) (s : RefreshState) : ∃ reads, r.runOn i s =
    match r.finding i with
    | .error e => (.error e, { s with disk := i.disk, reads })
    | .ok f => (do r.commit f; pure f.diff : Refresh _).outcome
        { s with disk := i.disk, reads } :=
  r.outcome_runOnceBy r.commit i s

/-- A run reads the debug file no more than once. -/
theorem outcome_runOnce (debugFile : DebugFile) (s : RefreshState) :
    (r.runOnce debugFile).outcome s = r.runOn ⟨s.disk, debugFile s.reads⟩ s := by
  have hchecked : (Refresh.ofChecked r.checkReference).outcome s =
      ((Attempt.ofChecked r.checkReference).result, s) := rfl
  unfold runOn runOnce
  cases hcheck : (Attempt.ofChecked r.checkReference).result with
  | error e =>
    rw [hcheck] at hchecked
    rw [Refresh.outcome_bind_of_error hchecked, Refresh.outcome_bind_of_error hchecked]
  | ok declared =>
    rw [hcheck] at hchecked
    rw [Refresh.outcome_bind_of_ok hchecked, Refresh.outcome_bind_of_ok hchecked,
      Refresh.outcome_get_bind, Refresh.outcome_get_bind]

theorem reads_commit (f : Finding) (s : RefreshState) :
    ((r.commit f).outcome s).2.reads = s.reads := by
  rw [outcome_commit_eq]
  cases s.disk.write r.referenceListing f.diff.oldText with
  | error stop => rfl
  | ok disk =>
    dsimp only
    cases disk.write r.rebuiltListing f.diff.newText <;> rfl

/-- Once its function is known to the configuration, every run reads the debug file. -/
theorem reads_runOn {d : Definition} (h : r.checkReference.result = .ok d) (i : RefreshInputs)
    (s : RefreshState) : (r.runOn i s).2.reads = s.reads + 1 := by
  have hchecked : (Refresh.ofChecked r.checkReference).outcome { s with disk := i.disk } =
      (.ok d, { s with disk := i.disk }) := by
    rw [Refresh.ofChecked, Refresh.outcome_ofAttempt, Attempt.result_ofChecked, h]
    rfl
  unfold runOn runOnce
  rw [Refresh.outcome_bind_of_ok hchecked, Refresh.outcome_get_bind, Refresh.outcome_set_bind]
  apply Refresh.preserves_bind (fun t => t.reads = s.reads + 1) rfl
  rintro ⟨path, records⟩ t ht
  rw [Refresh.outcome_ofAttempt_bind]
  cases (r.evaluate i.disk d path records).result with
  | error e => exact ht
  | ok f =>
    apply Refresh.preserves_bind (fun t => t.reads = s.reads + 1) ((r.reads_commit f t).trans ht)
    exact fun _ u hu => hu

theorem runOn_of_error {e : Failure} (h : r.finding i = .error e) (s : RefreshState) :
    ∃ reads, r.runOn i s = (.error e, { s with disk := i.disk, reads }) := by
  have hrun := r.runOn_eq i s
  rwa [h] at hrun

theorem runOn_of_ok (h : r.finding i = .ok f) (hwrite : r.CanWriteListings i.disk)
    (s : RefreshState) : ∃ reads, r.runOn i s =
      (.ok f.diff,
        { disk := r.putListings i.disk f.diff
          last := some f.location
          printed := s.printed ++ [r.describe s.last f.symbol f.declared]
          reads }) := by
  obtain ⟨reads, hrun⟩ := r.runOn_eq i s
  have hcommit := r.outcome_commit (s := { s with disk := i.disk, reads }) hwrite f
  refine ⟨reads, ?_⟩
  rw [hrun, h]
  exact Refresh.outcome_bind_of_ok hcommit _

end RefreshRequest

/-! ## Differences between locations -/

namespace Location

/-- How far the address and the size went from one location to the next. -/
def movedFrom (now before : Location) : Int × Int :=
  (now.address - before.address, now.size - before.size)

def movements : List Location → List (Int × Int)
  | before :: now :: rest => now.movedFrom before :: movements (now :: rest)
  | _ => []

theorem movements_concat {ls : List Location} {before : Location}
    (h : ls.getLast? = some before) (now : Location) :
    movements (ls ++ [now]) = movements ls ++ [now.movedFrom before] := by
  fun_induction movements ls with
  | case1 a b rest ih =>
    rw [List.getLast?_cons_cons] at h
    exact congrArg (b.movedFrom a :: ·) (ih h)
  | case2 ls hshort =>
    match ls, h with
    | [_], rfl => rfl
    | a :: b :: rest, _ => exact absurd rfl (hshort a b rest)

theorem length_movements (ls : List Location) : (movements ls).length = ls.length - 1 := by
  fun_induction movements ls with
  | case1 a b rest ih => simp [ih]
  | case2 ls hshort =>
    match ls with
    | [] | [_] => rfl
    | a :: b :: rest => exact absurd rfl (hshort a b rest)

theorem sum_movements {ls : List Location} {first last : Location}
    (hfirst : ls.head? = some first) (hlast : ls.getLast? = some last) :
    ((movements ls).map (·.1)).sum = last.address - first.address ∧
      ((movements ls).map (·.2)).sum = last.size - first.size := by
  fun_induction movements ls generalizing first with
  | case1 a b rest ih =>
    rw [List.getLast?_cons_cons] at hlast
    obtain ⟨haddress, hsize⟩ := ih rfl hlast
    cases hfirst
    simp only [List.map_cons, List.sum_cons, haddress, hsize, movedFrom]
    omega
  | case2 ls hshort =>
    match ls, hfirst, hlast with
    | [_], rfl, rfl => simp
    | a :: b :: rest, _, _ => exact absurd rfl (hshort a b rest)

end Location

/-! ## A session -/

structure RefreshCall where
  inputs : RefreshInputs
  outcome : Except Failure Diff.TextDiff

namespace RefreshRequest

variable (r : RefreshRequest)

/-- The calls made since `s₀`, and the state behind them.  Whatever happens between two
calls, the listings are left alone and can be written. -/
inductive Session (s₀ : RefreshState) : List RefreshCall → RefreshState → Prop
  | start : s₀.last = none → Session s₀ [] s₀
  | call {calls : List RefreshCall} {s : RefreshState} {i : RefreshInputs} :
      Session s₀ calls s → r.KeepsListings s.disk i.disk → r.CanWriteListings i.disk →
      Session s₀ (calls ++ [⟨i, (r.runOn i s).1⟩]) (r.runOn i s).2

def findings (calls : List RefreshCall) : List Finding :=
  calls.filterMap fun c => (r.finding c.inputs).toOption

def locations (calls : List RefreshCall) : List Location :=
  (r.findings calls).map (·.location)

def numberLine (now : Int) (difference : Option Int) : String :=
  match difference with
  | some d => Text.Hex.address now ++ " (" ++ Text.Hex.delta d ++ ")"
  | none => Text.Hex.address now

def foundLine (f : Finding) (moved : Option (Int × Int)) : String :=
  "Found " ++ r.name ++ " in " ++ f.symbol.sourceFile ++
    " at " ++ numberLine f.location.address (moved.map (·.1)) ++
    ", size: " ++ numberLine f.location.size (moved.map (·.2)) ++
    match f.declared.size with
    | some size => "; orig size: " ++ Text.Hex.address size
    | none => ""

def foundLines (fs : List Finding) : List String :=
  List.zipWith r.foundLine fs (none :: (Location.movements (fs.map (·.location))).map some)

theorem describe_eq (last : Option Location) (f : Finding) :
    r.describe last f.symbol f.declared = r.foundLine f (last.map f.location.movedFrom) := by
  cases last <;> rfl

theorem foundLines_concat (fs : List Finding) (f : Finding) :
    r.foundLines (fs ++ [f]) = r.foundLines fs ++
      [r.foundLine f ((fs.getLast?.map (·.location)).map f.location.movedFrom)] := by
  cases hlast : fs.getLast? with
  | none =>
    rw [List.getLast?_eq_none_iff] at hlast
    subst hlast
    rfl
  | some before =>
    have hbefore : (fs.map (·.location)).getLast? = some before.location := by
      rw [List.getLast?_map, hlast, Option.map_some]
    have hlength : fs.length =
        (none :: (Location.movements (fs.map (·.location))).map some).length := by
      have hne : fs ≠ [] := fun h => by simp [h] at hlast
      have hpos : 0 < fs.length := List.length_pos_iff.mpr hne
      rw [List.length_cons, List.length_map, Location.length_movements, List.length_map]
      omega
    unfold foundLines
    rw [List.map_append, List.map_singleton, Location.movements_concat hbefore, List.map_append,
      ← List.cons_append, List.zipWith_append hlength]
    rfl

variable {r} {s₀ s : RefreshState} {calls : List RefreshCall} {i : RefreshInputs}

theorem KeepsListings.trans {first second third : Disk} (h : r.KeepsListings first second)
    (h' : r.KeepsListings second third) : r.KeepsListings first third :=
  ⟨h'.1.trans h.1, h'.2.trans h.2⟩

theorem HoldsListings.keep {before after : Disk} {d : Diff.TextDiff}
    (h : r.HoldsListings before d) (hkeep : r.KeepsListings before after) :
    r.HoldsListings after d :=
  ⟨hkeep.1.trans h.1, hkeep.2.trans h.2⟩

/-- The listings are those of the last finding, or still those of the start. -/
def LastListings (r : RefreshRequest) (start now : Disk) (fs : List Finding) : Prop :=
  match fs.getLast? with
  | some f => r.HoldsListings now f.diff
  | none => r.KeepsListings start now

theorem LastListings.keep {start before after : Disk} {fs : List Finding}
    (h : r.LastListings start before fs) (hkeep : r.KeepsListings before after) :
    r.LastListings start after fs := by
  revert h
  unfold LastListings
  cases fs.getLast? with
  | some f => exact fun h => HoldsListings.keep h hkeep
  | none => exact fun h => KeepsListings.trans h hkeep

/-- The state behind a session belongs to the calls that returned. -/
structure Session.Settled (r : RefreshRequest) (s₀ : RefreshState) (calls : List RefreshCall)
    (s : RefreshState) : Prop where
  outcome : ∀ c ∈ calls, c.outcome = (r.finding c.inputs).map (·.diff)
  last : s.last = (r.locations calls).getLast?
  listings : r.LastListings s₀.disk s.disk (r.findings calls)
  printed : s.printed = s₀.printed ++ r.foundLines (r.findings calls)

theorem findings_concat (c : RefreshCall) : r.findings (calls ++ [c]) =
    r.findings calls ++ (r.finding c.inputs).toOption.toList := by
  unfold findings
  rw [List.filterMap_append]
  cases h : (r.finding c.inputs).toOption <;> simp [h]

theorem Session.Settled.call (h : Session.Settled r s₀ calls s)
    (hkeep : r.KeepsListings s.disk i.disk) (hwrite : r.CanWriteListings i.disk) :
    Session.Settled r s₀ (calls ++ [⟨i, (r.runOn i s).1⟩]) (r.runOn i s).2 := by
  -- Whether one more call returns is settled by what it finds, before it writes anything.
  cases hfinding : r.finding i with
  | error e =>
    obtain ⟨reads, hrun⟩ := r.runOn_of_error hfinding s
    have hnone : r.findings (calls ++ [⟨i, (r.runOn i s).1⟩]) = r.findings calls := by
      rw [findings_concat, hfinding]
      exact List.append_nil _
    refine ⟨?_, ?_, ?_, ?_⟩
    · rw [hrun]
      refine List.forall_mem_append.mpr ⟨h.outcome, ?_⟩
      rintro c (_ | ⟨_, ⟨⟩⟩)
      rw [hfinding]
      rfl
    · rw [locations, hnone, hrun]
      exact h.last
    · rw [hnone, hrun]
      exact h.listings.keep hkeep
    · rw [hnone, hrun]
      exact h.printed
  | ok f =>
    obtain ⟨reads, hrun⟩ := r.runOn_of_ok hfinding hwrite s
    have hsome : r.findings (calls ++ [⟨i, (r.runOn i s).1⟩]) = r.findings calls ++ [f] := by
      rw [findings_concat, hfinding]
      rfl
    refine ⟨?_, ?_, ?_, ?_⟩
    · rw [hrun]
      refine List.forall_mem_append.mpr ⟨h.outcome, ?_⟩
      rintro c (_ | ⟨_, ⟨⟩⟩)
      rw [hfinding]
      rfl
    · rw [locations, hsome, hrun, List.map_append, List.getLast?_append]
      rfl
    · rw [hsome, hrun, LastListings, List.getLast?_concat]
      exact r.holdsListings_putListings hwrite f.diff
    · rw [hsome, hrun, foundLines_concat, ← List.append_assoc, ← h.printed, describe_eq,
        h.last, locations, List.getLast?_map]

theorem Session.settled (h : r.Session s₀ calls s) : Session.Settled r s₀ calls s := by
  induction h with
  | start hnone =>
    refine ⟨fun c hc => absurd hc List.not_mem_nil, hnone, ⟨rfl, rfl⟩, ?_⟩
    exact (List.append_nil _).symm
  | call _ hkeep hwrite ih => exact ih.call hkeep hwrite

/-- A call that returned leaves what it found, and a call that failed leaves everything as
the last one that returned left it.  The printed differences lead from the first location
to the last one. -/
theorem session_follows_returned_calls (h : r.Session s₀ calls s) :
    (∀ c ∈ calls, c.outcome = (r.finding c.inputs).map (·.diff)) ∧
    (∀ i f, r.finding i = .ok f ↔ r.FoundIn i f) ∧
    s.last = (r.locations calls).getLast? ∧
    r.LastListings s₀.disk s.disk (r.findings calls) ∧
    s.printed = s₀.printed ++ r.foundLines (r.findings calls) ∧
    (∀ first last, (r.locations calls).head? = some first →
      (r.locations calls).getLast? = some last →
      ((Location.movements (r.locations calls)).map (·.1)).sum = last.address - first.address ∧
      ((Location.movements (r.locations calls)).map (·.2)).sum = last.size - first.size) ∧
    Function.Injective Text.Hex.delta ∧
    (∀ i e, r.KeepsListings s.disk i.disk → r.CanWriteListings i.disk →
      (r.runOn i s).1 = .error e →
        (r.runOn i s).2.last = s.last ∧ (r.runOn i s).2.printed = s.printed ∧
        r.KeepsListings s.disk (r.runOn i s).2.disk) := by
  have hsettled := h.settled
  -- What a failing call leaves does not follow from the state behind the whole session: it
  -- is read off that call alone.
  refine ⟨hsettled.outcome, fun i f => r.finding_eq_ok_iff, hsettled.last, hsettled.listings,
    hsettled.printed, fun first last => Location.sum_movements, Text.Hex.delta_injective, ?_⟩
  intro i e hkeep hwrite herror
  cases hfinding : r.finding i with
  | error e' =>
    obtain ⟨reads, hrun⟩ := r.runOn_of_error hfinding s
    rw [hrun]
    exact ⟨rfl, rfl, hkeep⟩
  | ok f =>
    obtain ⟨reads, hrun⟩ := r.runOn_of_ok hfinding hwrite s
    rw [hrun] at herror
    cases herror

instance (disk : Disk) : Decidable (r.CanWriteListings disk) :=
  inferInstanceAs (Decidable (_ ∧ _))

/-- A function of one instruction, found at two places by a first and a third build. -/
def movingRequest : RefreshRequest where
  config := ⟨0, [⟨"f", 0, some 1⟩]⟩
  referencePath := ⟨"", ["a.exe"]⟩
  rebuiltPath := ⟨"", ["b.exe"]⟩
  debugPath := ⟨"", ["b.pdb"]⟩
  name := "f"
  options := {}
  outputDir := ⟨"", []⟩

def movingStart : RefreshState where
  disk := (Disk.empty.put ⟨"", ["a.exe"]⟩ (.file ⟨[0xC3], none⟩)).put ⟨"", ["b.exe"]⟩
    (.file ⟨[0x90, 0xC3, 0xC3], none⟩)
  last := none
  printed := []
  reads := 0

def movingInputs (disk : Disk) (records : List DebugRecord) : RefreshInputs where
  disk
  debugFile := pure ("b.pdb", records)

def movingFirst : RefreshInputs :=
  movingInputs movingStart.disk [⟨some "f", 0xC00, some 0xC02, none⟩]

def movingSecond : RefreshInputs :=
  movingInputs (movingRequest.runOn movingFirst movingStart).2.disk []

def movingThird : RefreshInputs :=
  movingInputs movingSecond.disk [⟨some "f", 0xC01, some 0xC02, none⟩]

theorem moving_session : ∃ calls s, movingRequest.Session movingStart calls s ∧
    calls.map (·.outcome.isOk) = [true, false, true] ∧ s.last = some ⟨1, 1⟩ ∧
    s.printed = ["Found f in UNKNOWN at 0x0, size: 0x2; orig size: 0x1",
      "Found f in UNKNOWN at 0x1 (+0x1), size: 0x1 (-0x1); orig size: 0x1"] := by
  have hstart : movingRequest.Session movingStart [] movingStart := .start rfl
  have hfirst := hstart.call (i := movingFirst) ⟨rfl, rfl⟩ (by decide +kernel)
  have hsecond := hfirst.call (i := movingSecond) ⟨rfl, rfl⟩ (by decide +kernel)
  have hthird := hsecond.call (i := movingThird) ⟨rfl, rfl⟩ (by decide +kernel)
  obtain ⟨-, -, hlast, -, hprinted, -⟩ := session_follows_returned_calls hthird
  refine ⟨_, _, hthird, ?_, ?_, ?_⟩
  · decide +kernel
  · rw [hlast]
    decide +kernel
  · rw [hprinted]
    decide +kernel

end RefreshRequest

end BinMatch
