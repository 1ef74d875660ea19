import BinMatch.Proofs.Watch.Session

/-!
# The start of a watch

The first run has read the debug file before the observer is started.  A change that falls
between the two is seen by neither, and it stays unseen until the file changes once more.
This is the only way in which an idle watch can be behind.
-/

namespace BinMatch.Watch

/-! ## Changes beside the controller -/

/-- How far a watched comparison has come. -/
inductive Stage where
  | beginning (session : RefreshState)
  /-- The first run has begun to read the debug file. -/
  | comparing (session : RefreshState)
  | compared (session : RefreshState)
  | looping (loop : LoopState)
  | failed (f : Failure)

structure History where
  stage : Stage
  /-- How often the debug file has changed. -/
  changes : Nat
  /-- For each reading of the debug file, the changes made before it began. -/
  readings : List Nat
  /-- The changes made before the observer was started. -/
  unobserved : Nat

namespace History

def start (session : RefreshState) : History where
  stage := .beginning session
  changes := 0
  readings := []
  unobserved := 0

/-- An observer is there to see the next change. -/
def Observed (h : History) : Prop :=
  ∃ l, h.stage = .looping l ∧ l.alive = true

/-- Some reading began when all changes had been made. -/
def Fresh (h : History) : Prop :=
  ∃ n ∈ h.readings, h.changes ≤ n

/-- The file last changed between the only reading and the start of the observer. -/
def Missed (h : History) : Prop :=
  h.changes = h.unobserved ∧ ∃ n < h.unobserved, h.readings = [n]

end History

/-- Steps of the controller and changes of the debug file, in any order.  An observer that
is alive queues an event for every change. -/
inductive Passes (r : RefreshRequest) : History → History → Prop
  | change (h : History) : ¬ h.Observed →
      Passes r h { h with changes := h.changes + 1 }
  | reported (h : History) (l : LoopState) (e : FileEvent) : h.stage = .looping l →
      e.concerns r.debugPath = true →
      Passes r h { h with
        stage := .looping { l with queue := l.queue ++ [e.kind] }
        changes := h.changes + 1 }
  | unknown (h : History) (s : RefreshState) (e : Error) : h.stage = .beginning s →
      r.checkReference.result = .error e →
      Passes r h { h with stage := .failed (.reported e) }
  | firstRead (h : History) (s : RefreshState) (d : Definition) : h.stage = .beginning s →
      r.checkReference.result = .ok d →
      Passes r h { h with stage := .comparing s, readings := h.readings ++ [h.changes] }
  | firstReturn (h : History) (s : RefreshState) (i : RefreshInputs) (diff : Diff.TextDiff) :
      h.stage = .comparing s → (r.runOn i s).1 = .ok diff →
      Passes r h { h with stage := .compared (r.runOn i s).2 }
  | firstFail (h : History) (s : RefreshState) (i : RefreshInputs) (f : Failure) :
      h.stage = .comparing s → (r.runOn i s).1 = .error f →
      Passes r h { h with stage := .failed f }
  /-- The observer is started, and the watch is announced next. -/
  | observe (h : History) (s : RefreshState) : h.stage = .compared s →
      Passes r h { h with stage := .looping (.start s), unobserved := h.changes }
  | refuse (h : History) (s : RefreshState) (reason : String) : h.stage = .compared s →
      Passes r h { h with stage := .failed (.reported (.watcher reason)) }
  /-- A later run begins to read the debug file. -/
  | read (h : History) (l : LoopState) : h.stage = .looping l → l.point = .running →
      h.readings.length = l.starts.length →
      Passes r h { h with readings := h.readings ++ [h.changes] }
  /-- The loop goes on; a run does not end before it has begun to read. -/
  | loop (h : History) (l l' : LoopState) : h.stage = .looping l → Step r l l' →
      (l.point = .running → l'.point = .waiting → l.starts.length < h.readings.length) →
      Passes r h { h with stage := .looping l' }

abbrev Passing (r : RefreshRequest) : History → History → Prop :=
  Relation.ReflTransGen (Passes r)

/-- Runs that have not yet returned. -/
def Point.underway : Point → Nat
  | .running => 1
  | _ => 0

/-! ## What has been read -/

namespace History

/-- The readings of the loop come behind the start of the observer, each in a run of its
own. -/
structure Counted (before : Nat) (h : History) (l : LoopState) : Prop where
  unobserved : h.unobserved ≤ h.changes
  readings : ∃ n rest, h.readings = n :: rest ∧ n ≤ h.unobserved ∧
    ∀ m ∈ rest, h.unobserved ≤ m ∧ m ≤ h.changes
  begun : l.point.ending? = none → l.starts.length ≤ h.readings.length ∧
    h.readings.length ≤ l.starts.length + 1 ∧
    l.starts.length + 1 ≤ h.readings.length + l.point.underway
  reads : l.point.ending? = none →
    l.session.reads + l.point.underway = before + l.starts.length + 1

/-- Nothing is left for the loop to do about the events that came. -/
structure Idle (h : History) (l : LoopState) : Prop where
  alive : l.alive = true
  loop : l.point.ending? = none
  queue : l.queue = []
  owed : l.point.owed = 0
  read : l.point = .running → l.starts.length < h.readings.length

/-- An idle loop has read the last change, unless nothing changed under its observer. -/
def CaughtUp (h : History) (l : LoopState) : Prop :=
  h.Idle l → h.Fresh ∨ h.changes = h.unobserved

variable {r : RefreshRequest} {before : Nat} {session : RefreshState} {h h' : History}
  {l l' : LoopState}

theorem Counted.change (hl : h.Counted before l) (stage : Stage) :
    Counted before { h with stage, changes := h.changes + 1 } l := by
  obtain ⟨n, rest, hreadings, hn, hrest⟩ := hl.readings
  refine ⟨Nat.le_succ_of_le hl.unobserved, ⟨n, rest, hreadings, hn, ?_⟩, hl.begun, hl.reads⟩
  exact fun m hm => ⟨(hrest m hm).1, Nat.le_succ_of_le (hrest m hm).2⟩

theorem Counted.read (hl : h.Counted before l) (hpoint : l.point = .running)
    (hunread : h.readings.length = l.starts.length) (stage : Stage) :
    Counted before { h with stage, readings := h.readings ++ [h.changes] } l := by
  obtain ⟨n, rest, hreadings, hn, hrest⟩ := hl.readings
  have hlength : (h.readings ++ [h.changes]).length = h.readings.length + 1 :=
    List.length_append
  refine ⟨hl.unobserved, ⟨n, rest ++ [h.changes], ?_, hn, ?_⟩, fun _ => ?_, hl.reads⟩
  · rw [hreadings]
    rfl
  · refine List.forall_mem_append.mpr ⟨hrest, List.forall_mem_singleton.mpr ?_⟩
    exact ⟨hl.unobserved, Nat.le_refl _⟩
  · rw [hlength, hpoint]
    exact ⟨by omega, by omega, by omega⟩

theorem reads_rerunOn {d : Definition} (hcheck : r.checkReference.result = .ok d)
    (i : RefreshInputs) (s : RefreshState) : (rerunOn r i s).2.reads = s.reads + 1 := by
  have hreads := r.reads_runOn hcheck i s
  rw [rerunOn_eq]
  rcases hrun : r.runOn i s with ⟨(_ | _) | _, s'⟩ <;> rwa [hrun] at hreads

theorem Counted.step {d : Definition} (hcheck : r.checkReference.result = .ok d)
    (hl : h.Counted before l) (hstep : Step r l l')
    (hread : l.point = .running → l'.point = .waiting →
      l.starts.length < h.readings.length) {stage : Stage} :
    Counted before { h with stage } l' := by
  obtain ⟨hunobserved, hreadings, hbegun, hreads⟩ := hl
  -- A run has to be started to come under way, and to have read to return.
  cases hstep with
  | report | die | drop => exact ⟨hunobserved, hreadings, hbegun, hreads⟩
  | announce hpoint | take k rest hpoint _ | timeOut hpoint _ | carryOn hpoint _
  | drained hpoint _ =>
    rw [hpoint] at hbegun hreads
    exact ⟨hunobserved, hreadings, hbegun, hreads⟩
  | start hpoint =>
    rw [hpoint] at hbegun hreads
    obtain ⟨-, hle, hread⟩ := hbegun rfl
    have hread' : l.starts.length + 1 ≤ h.readings.length := hread
    have hcount : l.session.reads = before + l.starts.length + 1 := hreads rfl
    have hlength : (l.starts ++ [l.queued]).length = l.starts.length + 1 := List.length_append
    refine ⟨hunobserved, hreadings, fun _ => ?_, fun _ => ?_⟩
    · rw [hlength]
      exact ⟨hread', Nat.le_succ_of_le hle, Nat.succ_le_succ hread'⟩
    · show l.session.reads + 1 = before + (l.starts ++ [l.queued]).length + 1
      rw [hlength, hcount]
      omega
  | finish i hpoint _ =>
    rw [hpoint] at hbegun hreads
    obtain ⟨hle, hle', -⟩ := hbegun rfl
    refine ⟨hunobserved, hreadings, fun _ => ⟨hle, hle', hread hpoint rfl⟩, fun _ => ?_⟩
    exact (reads_rerunOn hcheck i l.session).trans (hreads rfl)
  | abandon | giveUp | breakOff | interrupt | escape | stop | leave | join =>
    exact ⟨hunobserved, hreadings, by rintro ⟨⟩, by rintro ⟨⟩⟩

theorem counted_start {s : RefreshState} {n : Nat} (hreadings : h.readings = [n])
    (hn : n ≤ h.changes) {stage : Stage} (hreads : s.reads = before + 1) :
    Counted before { h with stage, unobserved := h.changes } (.start s) where
  unobserved := Nat.le_refl _
  readings := ⟨n, [], hreadings, hn, fun m hm => absurd hm List.not_mem_nil⟩
  begun _ := by
    have hlength : h.readings.length = 1 := by rw [hreadings, List.length_singleton]
    exact ⟨Nat.zero_le _, Nat.le_of_eq hlength, Nat.le_of_eq hlength.symm⟩
  reads _ := hreads

theorem Idle.of_step (hl : h.Counted before l) (hstep : Step r l l')
    (hread : l.point = .running → l'.point = .waiting →
      l.starts.length < h.readings.length) {stage : Stage}
    (hidle : Idle { h with stage } l') : h.Idle l := by
  obtain ⟨halive, hloop, hqueue, howed, hunread⟩ := hidle
  cases hstep with
  | report => exact absurd hqueue (List.concat_ne_nil _ _)
  | die => cases halive
  | take | drained => cases howed
  | drop k rest hpoint _ =>
    rw [hpoint] at howed
    cases howed
  | announce hpoint | timeOut hpoint _ | carryOn hpoint _ =>
    refine ⟨halive, hpoint ▸ rfl, hqueue, hpoint ▸ rfl, fun hrunning => ?_⟩
    rw [hpoint] at hrunning
    cases hrunning
  | start hpoint =>
    -- The run that has just been started has not read yet.
    have hlt : (l.starts ++ [l.queued]).length < h.readings.length := hunread rfl
    have hle := (hl.begun (hpoint ▸ rfl)).2.1
    rw [List.length_append, List.length_singleton] at hlt
    omega
  | finish i hpoint _ =>
    exact ⟨halive, hpoint ▸ rfl, hqueue, hpoint ▸ rfl, fun hrunning => hread hrunning rfl⟩
  | abandon | giveUp | breakOff | interrupt | escape | stop | leave | join => cases hloop

/-! ## What every history keeps -/

/-- What is known about the readings at each stage. -/
def Sound (r : RefreshRequest) (session : RefreshState) (h : History) : Prop :=
  match h.stage with
  | .beginning s => s = session ∧ h.readings = []
  | .comparing s => s = session ∧ (∃ d, r.checkReference.result = .ok d) ∧
      ∃ n ≤ h.changes, h.readings = [n]
  | .compared s => s.reads = session.reads + 1 ∧ (∃ d, r.checkReference.result = .ok d) ∧
      ∃ n ≤ h.changes, h.readings = [n]
  | .looping l => (∃ d, r.checkReference.result = .ok d) ∧ h.Counted session.reads l ∧
      h.CaughtUp l
  | .failed _ => True

theorem sound_start : (start session).Sound r session :=
  ⟨rfl, rfl⟩

theorem Sound.step (hs : h.Sound r session) (hstep : Passes r h h') : h'.Sound r session := by
  unfold Sound at hs
  cases hstep with
  | change hunobserved =>
    cases hstage : h.stage with
    | beginning s =>
      rw [hstage] at hs
      simpa only [Sound, hstage] using hs
    | comparing s | compared s =>
      rw [hstage] at hs
      obtain ⟨hsession, hcheck, n, hn, hreadings⟩ := hs
      simpa only [Sound, hstage] using
        And.intro hsession ⟨hcheck, n, Nat.le_succ_of_le hn, hreadings⟩
    | looping l =>
      rw [hstage] at hs
      obtain ⟨hcheck, hcounted, -⟩ := hs
      simp only [Sound]
      refine ⟨hcheck, hcounted.change _, fun hidle => ?_⟩
      exact absurd ⟨l, hstage, hidle.alive⟩ hunobserved
    | failed f => trivial
  | reported l e hstage hconcerns =>
    rw [hstage] at hs
    obtain ⟨hcheck, hcounted, -⟩ := hs
    obtain ⟨hunobserved, hreadings, hbegun, hreads⟩ := hcounted.change h.stage
    refine ⟨hcheck, ⟨hunobserved, hreadings, hbegun, hreads⟩, fun hidle => ?_⟩
    exact absurd hidle.queue (List.concat_ne_nil _ _)
  | unknown | firstFail | refuse => trivial
  | firstRead s d hstage hcheck =>
    rw [hstage] at hs
    obtain ⟨rfl, hreadings⟩ := hs
    refine ⟨rfl, ⟨d, hcheck⟩, h.changes, Nat.le_refl _, ?_⟩
    rw [hreadings]
    rfl
  | firstReturn s i diff hstage _ =>
    rw [hstage] at hs
    obtain ⟨rfl, ⟨d, hcheck⟩, hreadings⟩ := hs
    exact ⟨r.reads_runOn hcheck i s, ⟨d, hcheck⟩, hreadings⟩
  | observe s hstage =>
    rw [hstage] at hs
    obtain ⟨hreads, hcheck, n, hn, hreadings⟩ := hs
    exact ⟨hcheck, counted_start hreadings hn hreads, fun _ => .inr rfl⟩
  | read l hstage hpoint hunread =>
    rw [hstage] at hs
    obtain ⟨hcheck, hcounted, -⟩ := hs
    unfold Sound
    dsimp only
    rw [hstage]
    refine ⟨hcheck, hcounted.read hpoint hunread _, fun _ => .inl ?_⟩
    exact ⟨h.changes, List.mem_append_right _ (List.mem_singleton_self _), Nat.le_refl _⟩
  | loop l l' hstage hloop hread =>
    rw [hstage] at hs
    obtain ⟨⟨d, hcheck⟩, hcounted, hcaught⟩ := hs
    refine ⟨⟨d, hcheck⟩, hcounted.step hcheck hloop hread, fun hidle => ?_⟩
    exact hcaught (hidle.of_step hcounted hloop hread)

theorem sound_of_passing (hp : Passing r (.start session) h) : h.Sound r session := by
  induction hp with
  | refl => exact sound_start
  | tail _ hstep ih => exact ih.step hstep

theorem not_missed_of_fresh (hfresh : h.Fresh) : ¬ h.Missed := by
  rintro ⟨hchanges, n, hn, hreadings⟩
  obtain ⟨m, hm, hle⟩ := hfresh
  rw [hreadings, List.mem_singleton] at hm
  omega

/-- If nothing changed under the observer, any reading but a first one made too early is of
the last change. -/
theorem Counted.fresh (hl : h.Counted before l) (hchanges : h.changes = h.unobserved)
    (hmissed : ¬ h.Missed) : h.Fresh := by
  obtain ⟨n, rest, hreadings, hn, hrest⟩ := hl.readings
  cases rest with
  | nil =>
    refine ⟨n, hreadings ▸ List.mem_singleton_self n, Nat.le_of_not_lt fun hlt => hmissed ?_⟩
    exact ⟨hchanges, n, hchanges ▸ hlt, hreadings⟩
  | cons m rest =>
    refine ⟨m, hreadings ▸ List.mem_cons_of_mem _ List.mem_cons_self, ?_⟩
    rw [hchanges]
    exact (hrest m List.mem_cons_self).1

/-! ## A program run among changes -/

/-- The steps of the loop alone, with a reading in every run. -/
theorem passing_of_steps {d : Definition} (hcheck : r.checkReference.result = .ok d)
    (hsteps : Steps r l l') (hstage : h.stage = .looping l) (hl : h.Counted before l) :
    ∃ h', Passing r h h' ∧ h'.stage = .looping l' ∧ h'.Counted before l' := by
  induction hsteps with
  | refl => exact ⟨h, .refl, hstage, hl⟩
  | @tail s t _ hstep ih =>
    obtain ⟨h₁, hpassing, hstage₁, hcounted⟩ := ih
    by_cases hunread : s.point = .running ∧ h₁.readings.length = s.starts.length
    · obtain ⟨hrunning, hlength⟩ := hunread
      have hread := hpassing.tail (.read h₁ s hstage₁ hrunning hlength)
      have hlt : s.starts.length < (h₁.readings ++ [h₁.changes]).length := by
        rw [List.length_append, List.length_singleton]
        omega
      have hcounted' := hcounted.read hrunning hlength h₁.stage
      exact ⟨_, hread.tail (.loop _ s t hstage₁ hstep fun _ _ => hlt), rfl,
        hcounted'.step hcheck hstep fun _ _ => hlt⟩
    · have hlt : s.point = .running → t.point = .waiting →
          s.starts.length < h₁.readings.length := by
        intro hrunning _
        have hle := (hcounted.begun (hrunning ▸ rfl)).1
        exact Nat.lt_of_le_of_ne hle fun heq => hunread ⟨hrunning, heq.symm⟩
      exact ⟨_, hpassing.tail (.loop h₁ s t hstage₁ hstep hlt), rfl,
        hcounted.step hcheck hstep hlt⟩

theorem passing_unknown {e : Error} (hcheck : r.checkReference.result = .error e)
    (i : RefreshInputs) (s : RefreshState) :
    (r.runOn i s).1 = .error (.reported e) ∧
      ∃ h, Passing r (.start s) h ∧ h.stage = .failed (.reported e) := by
  have hfinding : r.finding i = .error (.reported e) := by
    unfold RefreshRequest.finding RefreshRequest.look
    rw [Attempt.result_bind, Attempt.result_ofChecked, hcheck]
    rfl
  obtain ⟨reads, hrun⟩ := r.runOn_of_error hfinding s
  exact ⟨congrArg Prod.fst hrun, _, .single (.unknown _ s e rfl hcheck), rfl⟩

/-- What a watched comparison ends in with an observer that can be started is the end of a
history in which the file may as well have changed. -/
theorem run_is_history {o : Observer} (hschedule : o.scheduleFailure = none)
    (hstart : o.startFailure = none) (debugFile : DebugFile) (interval : Float)
    (s : RefreshState) : ∃ h failure calls s', Passing r (.start s) h ∧
      (run r debugFile interval (some o)).outcome [] s = ((.error failure, calls), s') ∧
      (h.stage = .failed failure ∨ ∃ l, h.stage = .looping l ∧
        l.point = .left (.failure failure) ∧ l.session = s' ∧
        calls = callsOfStart r interval ++ l.calls) := by
  have hfirst := Watching.outcome_ofRefresh (r.runOnce debugFile) [] s
  rw [r.outcome_runOnce] at hfirst
  unfold run
  rw [Watching.outcome_bind_of_ok hfirst]
  cases hcheck : r.checkReference.result with
  | error e =>
    obtain ⟨hrun, h, hpassing, hstage⟩ :=
      passing_unknown hcheck ⟨s.disk, debugFile s.reads⟩ s
    rw [hrun]
    exact ⟨h, _, _, _, hpassing, rfl, .inl hstage⟩
  | ok d =>
    have hread := Relation.ReflTransGen.single (Passes.firstRead (.start s) s d rfl hcheck)
    cases hrun : (r.runOn ⟨s.disk, debugFile s.reads⟩ s).1 with
    | error f => exact ⟨_, f, _, _, hread.tail (.firstFail _ s _ f rfl hrun), rfl, .inl rfl⟩
    | ok diff =>
      have hobserved := (hread.tail (.firstReturn _ s _ diff rfl hrun)).tail (.observe _ _ rfl)
      have hsound := sound_of_passing hobserved
      obtain ⟨l, failure, hsteps, hpoint, houtcome⟩ := watch_is_run (r := r) hschedule hstart
        debugFile interval [] (r.runOn ⟨s.disk, debugFile s.reads⟩ s).2
      obtain ⟨h, hpassing, hstage, -⟩ := passing_of_steps hcheck hsteps rfl hsound.2.1
      exact ⟨h, failure, _, _, hobserved.trans hpassing, houtcome,
        .inr ⟨l, hstage, hpoint, rfl, rfl⟩⟩

end History

/-! ## An idle watch -/

open History

/-- Whatever order changes and steps come in, an idle watch has read the debug file behind
its last change, unless that change fell between the first reading and the start of the
observer and nothing has led to a run since. -/
theorem idle_watch_fresh_iff {r : RefreshRequest} {session : RefreshState} {h : History}
    {l : LoopState} (hp : Passing r (.start session) h) (hstage : h.stage = .looping l)
    (hpoint : l.point = .waiting) (hqueue : l.queue = []) (halive : l.alive = true) :
    l.session.reads = session.reads + h.readings.length ∧
    (∀ n ∈ h.readings, n ≤ h.changes) ∧
    (h.Fresh ↔ ¬ h.Missed) := by
  have hsound := sound_of_passing hp
  rw [Sound, hstage] at hsound
  obtain ⟨-, hcounted, hcaught⟩ := hsound
  have hreads := hcounted.reads (hpoint ▸ rfl)
  have hbegun := hcounted.begun (hpoint ▸ rfl)
  rw [hpoint] at hreads hbegun
  have hidle : h.Idle l := by
    refine ⟨halive, hpoint ▸ rfl, hqueue, hpoint ▸ rfl, fun hrunning => ?_⟩
    rw [hpoint] at hrunning
    cases hrunning
  refine ⟨?_, ?_, not_missed_of_fresh, fun hmissed => ?_⟩
  · have hlength : h.readings.length = l.starts.length + 1 :=
      Nat.le_antisymm hbegun.2.1 hbegun.2.2
    have hcount : l.session.reads = session.reads + l.starts.length + 1 := hreads
    rw [hlength, hcount]
    rfl
  · obtain ⟨n, rest, hreadings, hn, hrest⟩ := hcounted.readings
    rw [hreadings]
    refine List.forall_mem_cons.mpr ⟨Nat.le_trans hn hcounted.unobserved, fun m hm => ?_⟩
    exact (hrest m hm).2
  · obtain hfresh | hchanges := hcaught hidle
    · exact hfresh
    · exact hcounted.fresh hchanges hmissed

open RefreshRequest

/-- A first run that returns while the debug file changes behind its back, and the watch
that begins then. -/
theorem passing_missed : Passing movingRequest (.start movingStart)
    { stage := .looping { LoopState.start (movingRequest.runOn movingFirst movingStart).2 with
        point := .waiting
        session := announced movingRequest (movingRequest.runOn movingFirst movingStart).2 }
      changes := 1
      readings := [0]
      unobserved := 1 } := by
  have hcheck : movingRequest.checkReference.result = .ok ⟨"f", 0, some 1⟩ := by
    decide +kernel
  have hrun : (movingRequest.runOn movingFirst movingStart).1.toOption.isSome = true := by
    decide +kernel
  obtain ⟨diff, hdiff⟩ :
      ∃ diff, (movingRequest.runOn movingFirst movingStart).1 = .ok diff := by
    cases hresult : (movingRequest.runOn movingFirst movingStart).1 with
    | error e =>
      rw [hresult] at hrun
      cases hrun
    | ok diff => exact ⟨diff, rfl⟩
  have hread := Relation.ReflTransGen.single
    (Passes.firstRead (.start movingStart) movingStart _ rfl hcheck)
  have hchange := hread.tail (.change _ (by rintro ⟨l, ⟨⟩, -⟩))
  have hreturn := hchange.tail (.firstReturn _ movingStart movingFirst diff rfl hdiff)
  have hobserved := hreturn.tail (.observe _ _ rfl)
  exact hobserved.tail (.loop _ _ _ rfl (.announce _ rfl) (by rintro ⟨⟩))

theorem idle_watch_not_always_fresh : ¬ ∀ (r : RefreshRequest) (session : RefreshState)
    (h : History) (l : LoopState), Passing r (.start session) h → h.stage = .looping l →
    l.point = .waiting → l.queue = [] → l.alive = true → h.Fresh := by
  intro hall
  obtain ⟨n, hn, hle⟩ := hall _ _ _ _ passing_missed rfl rfl rfl rfl
  rw [List.mem_singleton] at hn
  subst hn
  exact Nat.not_succ_le_zero 0 hle

/-- With the next change the watch is up to date again. -/
theorem idle_watch_fresh_after_change : ∃ h l, Passing movingRequest (.start movingStart) h ∧
    h.stage = .looping l ∧ l.point = .waiting ∧ l.queue = [] ∧ l.alive = true ∧
    h.readings = [0, 2] ∧ h.Fresh := by
  have hevent : FileEvent.concerns movingRequest.debugPath
      ⟨.modified, movingRequest.debugPath, ⟨"", []⟩, false⟩ = true := by decide +kernel
  have hrun : (rerunOn movingRequest movingFirst (announced movingRequest
      (movingRequest.runOn movingFirst movingStart).2)).1 = .ok () := by decide +kernel
  have hreported := passing_missed.tail (.reported _ _ _ rfl hevent)
  have htaken := hreported.tail (.loop _ _ _ rfl (.take _ _ _ rfl rfl) (by rintro ⟨⟩))
  have hready := htaken.tail (.loop _ _ _ rfl (.drained _ rfl rfl) (by rintro ⟨⟩))
  have hstarted := hready.tail (.loop _ _ _ rfl (.start _ rfl) (by rintro ⟨⟩))
  have hread := hstarted.tail (.read _ _ rfl rfl rfl)
  have hfinished := hread.tail (.loop _ _ _ rfl (.finish _ movingFirst rfl hrun)
    fun _ _ => by decide)
  obtain ⟨-, -, hfresh⟩ := idle_watch_fresh_iff hfinished rfl rfl rfl rfl
  refine ⟨_, _, hfinished, rfl, rfl, rfl, rfl, rfl, hfresh.mpr ?_⟩
  rintro ⟨⟨⟩, -⟩

end BinMatch.Watch
