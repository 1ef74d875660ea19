import BinMatch.Proofs.Watch.Loop

/-!
# A watch is a run of the loop

With an observer whose bursts are known beforehand a watch goes through the steps of the
loop.  It makes the calls, prints the lines and ends in the failure of such a run.
-/

namespace BinMatch.Watch

variable {r : RefreshRequest}

namespace Watching

theorem outcome_call (c : ObserverCall) (calls : List ObserverCall) (s : RefreshState) :
    (call c).outcome calls s = ((.ok (), calls ++ [c]), s) := rfl

theorem outcome_tryCall (c : ObserverCall) (calls : List ObserverCall) (s : RefreshState) :
    (tryCall c none).outcome calls s = ((.ok (), calls ++ [c]), s) := rfl

theorem outcome_ending (x : Watching Unit) (calls : List ObserverCall) (s : RefreshState) :
    (ending x).outcome calls s =
      ((.ok (x.outcome calls s).1.1, (x.outcome calls s).1.2), (x.outcome calls s).2) := rfl

end Watching

theorem outcome_rerun_eq (debugFile : DebugFile) (calls : List ObserverCall)
    (s : RefreshState) :
    (rerun r debugFile).outcome calls s =
      (((rerunOn r ⟨s.disk, debugFile s.reads⟩ s).1, calls),
        (rerunOn r ⟨s.disk, debugFile s.reads⟩ s).2) := by
  rw [outcome_rerun, RefreshRequest.outcome_runOnce, rerunOn_eq]
  rcases r.runOn _ s with ⟨(_ | _) | _, s'⟩ <;> rfl

theorem steps_report (events : List FileEvent) (s : LoopState) :
    Steps r s { s with
      queue := s.queue ++ (events.filter (·.concerns r.debugPath)).map (·.kind) } := by
  induction events generalizing s with
  | nil =>
    rw [List.filter_nil, List.map_nil, List.append_nil]
  | cons e events ih =>
    by_cases h : e.concerns r.debugPath = true
    · rw [List.filter_cons_of_pos h, List.map_cons, List.append_cons]
      exact .head (.report s e h) (ih { s with queue := s.queue ++ [e.kind] })
    · rw [List.filter_cons_of_neg h]
      exact ih s

theorem steps_drain (s : LoopState) (hpoint : s.point = .draining) :
    Steps r s { s with point := .ready, queue := [], taken := s.queued } := by
  obtain ⟨point, queue, alive, calls, session, taken, starts, looked⟩ := s
  induction queue generalizing taken with
  | nil => exact .single (.drained _ hpoint rfl)
  | cons k rest ih =>
    have hdrop := Step.drop (r := r)
      ⟨point, k :: rest, alive, calls, session, taken, starts, looked⟩ k rest hpoint rfl
    have hrest := ih (taken + 1) hpoint
    have hqueued : taken + 1 + rest.length = taken + (k :: rest).length := by
      rw [List.length_cons]
      omega
    unfold LoopState.queued at hrest ⊢
    rw [← hqueued]
    exact .head hdrop hrest

/-- A burst with events of the debug file is taken, dropped and answered by a run. -/
theorem steps_burst {burst : List FileEvent}
    (hburst : burst.any (·.concerns r.debugPath) = true) {s : LoopState}
    (hpoint : s.point = .waiting) (hqueue : s.queue = []) :
    ∃ t, Steps r s t ∧ t.point = .running ∧ t.queue = [] ∧ t.calls = s.calls ∧
      t.session = s.session := by
  have hreport := steps_report (r := r) burst s
  obtain ⟨k, rest, hevents⟩ : ∃ k rest,
      (burst.filter (·.concerns r.debugPath)).map (·.kind) = k :: rest := by
    obtain ⟨e, he, hconcerns⟩ := List.any_eq_true.mp hburst
    have hmem : e ∈ burst.filter (·.concerns r.debugPath) :=
      List.mem_filter.mpr ⟨he, hconcerns⟩
    apply List.exists_cons_of_ne_nil
    rw [ne_eq, List.map_eq_nil_iff]
    exact List.ne_nil_of_mem hmem
  rw [hqueue, hevents, List.nil_append] at hreport
  have htake := hreport.tail (.take _ k rest hpoint rfl)
  have hready := (htake.trans (steps_drain _ rfl)).tail (.start _ rfl)
  exact ⟨_, hready, rfl, rfl, rfl, rfl⟩

theorem steps_serve (debugFile : DebugFile) (calls : List ObserverCall)
    (bursts : List (List FileEvent)) (s : LoopState) (hpoint : s.point = .waiting)
    (hqueue : s.queue = []) :
    ∃ t result, Steps r s t ∧ t.calls = s.calls ∧
      (serve r debugFile bursts).outcome calls s.session = ((result, calls), t.session) ∧
      match result with
      | .ok _ => t.point = .waiting ∧ t.queue = []
      | .error f => t.point = .leaving (.failure f) := by
  induction bursts generalizing s with
  | nil => exact ⟨s, .ok (), .refl, rfl, rfl, hpoint, hqueue⟩
  | cons burst bursts ih =>
    by_cases hburst : burst.any (·.concerns r.debugPath) = true
    · obtain ⟨t, hsteps, hrunning, hnone, hcalls, hsession⟩ := steps_burst hburst hpoint hqueue
      have hrerun := outcome_rerun_eq (r := r) debugFile calls s.session
      have hserve : serve r debugFile (burst :: bursts) =
          rerun r debugFile >>= fun _ => serve r debugFile bursts := by
        rw [serve, if_pos hburst]
      rw [hserve]
      rw [← hsession] at hrerun
      cases hresult : (rerunOn r ⟨t.session.disk, debugFile t.session.reads⟩ t.session).1 with
      | ok =>
        rw [hresult] at hrerun
        rw [← hsession, Watching.outcome_bind_of_ok hrerun]
        have hfinish := hsteps.tail (.finish t _ hrunning hresult)
        obtain ⟨u, result, hu, hcalls', houtcome, hend⟩ := ih
          { t with
            point := .waiting
            session := (rerunOn r ⟨t.session.disk, debugFile t.session.reads⟩ t.session).2 }
          rfl hnone
        exact ⟨u, result, hfinish.trans hu, hcalls'.trans hcalls, houtcome, hend⟩
      | error f =>
        rw [hresult] at hrerun
        rw [← hsession, Watching.outcome_bind_of_error hrerun]
        exact ⟨_, .error f, hsteps.tail (.breakOff t _ f hrunning hresult), hcalls, rfl, rfl⟩
    · have hserve : (serve r debugFile (burst :: bursts)).outcome calls s.session =
          (serve r debugFile bursts).outcome calls s.session := by
        rw [serve, if_neg hburst]
      rw [hserve]
      exact ih s hpoint hqueue

/-- The loop is left for good once the observer was stopped, and joined if it is still
alive. -/
theorem steps_leave {s : LoopState} {e : Ending} (hpoint : s.point = .leaving e)
    (joined : Bool) : Steps r s { s with
      point := .left e
      calls := s.calls ++ .stop :: if joined then [.join] else [] } := by
  have hstop := Relation.ReflTransGen.single (Step.stop (r := r) s e hpoint)
  cases joined with
  | true =>
    have hjoin := hstop.tail (.join _ e rfl)
    rwa [List.append_assoc] at hjoin
  | false => exact hstop.tail (.leave _ e e rfl (.inl rfl))

/-- What a watch fails with when its bursts came to this end. -/
def failureOf : Except Failure Unit → Failure
  | .ok _ => .reported observerDied
  | .error failure => failure

/-- Behind its last burst a dead observer makes the loop give up. -/
theorem steps_end {s : LoopState} {result : Except Failure Unit}
    (hend : match result with
      | .ok _ => s.point = .waiting ∧ s.queue = []
      | .error f => s.point = .leaving (.failure f)) :
    ∃ t, Steps r s t ∧ t.point = .leaving (.failure (failureOf result)) ∧
      t.calls = s.calls ∧ t.session = s.session := by
  cases result with
  | ok =>
    obtain ⟨hpoint, hqueue⟩ := hend
    have hasked := (Relation.ReflTransGen.single (Step.timeOut (r := r) s hpoint hqueue)).tail
      (.die _)
    exact ⟨_, hasked.tail (.giveUp _ rfl rfl), rfl, rfl, rfl⟩
  | error f => exact ⟨s, .refl, hend, rfl, rfl⟩

def callsOfStart (r : RefreshRequest) (interval : Float) : List ObserverCall :=
  [.create interval, .schedule r.debugPath.parent, .start]

theorem outcome_watch {o : Observer} {debugFile : DebugFile}
    (hschedule : o.scheduleFailure = none) (hstart : o.startFailure = none)
    {interval : Float} {calls calls' : List ObserverCall} {s s' : RefreshState}
    {result : Except Failure Unit}
    (hserve : (serve r debugFile o.bursts).outcome (calls ++ callsOfStart r interval)
      (announced r s) = ((result, calls'), s')) :
    (watch r debugFile interval o).outcome calls s =
      ((.error (failureOf result),
        calls' ++ .stop :: if o.outlivesStop then [.join] else []), s') := by
  have hending := Watching.outcome_ending (serve r debugFile o.bursts)
    (calls ++ callsOfStart r interval) (announced r s)
  have hcalls : calls ++ [.create interval] ++ [.schedule r.debugPath.parent] ++ [.start] =
      calls ++ callsOfStart r interval := by
    unfold callsOfStart
    simp only [List.append_assoc, List.cons_append, List.nil_append]
  have hprint : (Watching.ofRefresh (Refresh.print (startedLine r.debugPath))).outcome
      (calls ++ callsOfStart r interval) s =
      ((.ok (.ok ()), calls ++ callsOfStart r interval), announced r s) := rfl
  rw [hserve] at hending
  unfold watch
  rw [hschedule, hstart, Watching.outcome_bind_of_ok (Watching.outcome_call _ _ _),
    Watching.outcome_bind_of_ok (Watching.outcome_tryCall _ _ _),
    Watching.outcome_bind_of_ok (Watching.outcome_tryCall _ _ _), hcalls,
    Watching.outcome_bind_of_ok hprint, Watching.outcome_bind_of_ok hending,
    Watching.outcome_bind_of_ok (Watching.outcome_call _ _ _)]
  cases o.outlivesStop with
  | false => cases result <;> rfl
  | true =>
    have happend : calls' ++ [.stop] ++ [.join] = calls' ++ [.stop, .join] :=
      List.append_assoc calls' _ _
    cases result <;> exact congrArg (fun c => ((Except.error _, c), s')) happend

/-- A watch whose observer can be started is a run of the loop: it makes the same calls,
leaves the same state and fails with what the loop ended in. -/
theorem watch_is_run {o : Observer} (hschedule : o.scheduleFailure = none)
    (hstart : o.startFailure = none) (debugFile : DebugFile) (interval : Float)
    (calls : List ObserverCall) (s : RefreshState) : ∃ t failure, Steps r (.start s) t ∧
      t.point = .left (.failure failure) ∧
      (watch r debugFile interval o).outcome calls s =
        ((.error failure, calls ++ callsOfStart r interval ++ t.calls), t.session) := by
  obtain ⟨t, result, hserve, hcalls, houtcome, hend⟩ := steps_serve (r := r) debugFile
    (calls ++ callsOfStart r interval) o.bursts
    { LoopState.start s with point := .waiting, session := announced r s } rfl rfl
  obtain ⟨u, hgiveUp, hpoint, hcalls', hsession⟩ := steps_end (r := r) hend
  have hannounce := Relation.ReflTransGen.single (Step.announce (r := r) (.start s) rfl)
  have hleave := steps_leave (r := r) hpoint o.outlivesStop
  refine ⟨_, failureOf result, ((hannounce.trans hserve).trans hgiveUp).trans hleave, rfl, ?_⟩
  have hnone : u.calls = [] := hcalls'.trans hcalls
  rw [outcome_watch hschedule hstart houtcome, hnone, hsession]
  rfl

end BinMatch.Watch
