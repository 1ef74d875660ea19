import BinMatch.Watch.Session
import BinMatch.Proofs.Refresh
import Mathlib.Logic.Relation

/-!
# The watch loop

Once the observer has been started, the watch is announced, and then its loop goes on step
by step while the observer queues events beside it, whatever the loop is doing.  Every event
that was taken from the queue was there before some later run started; the loop gives up
only behind a look at an empty queue; and it stops the observer once on its way out.  Only
the announcement stands outside the part that stops the observer at its end.
-/

namespace BinMatch.Watch

/-! ## What a part of a watch ends in -/

namespace Watching

variable {α β : Type} {calls calls' : List ObserverCall} {s s' : RefreshState}

/-- The outcome, the calls made by then and the state behind it, remarks left out. -/
def outcome (x : Watching α) (calls : List ObserverCall) (s : RefreshState) :
    (Except Failure α × List ObserverCall) × RefreshState :=
  ((x.run.run calls).run s).value

theorem outcome_ofRefresh (x : Refresh α) (calls : List ObserverCall) (s : RefreshState) :
    (ofRefresh x).outcome calls s = ((.ok (x.outcome s).1, calls), (x.outcome s).2) := rfl

theorem outcome_bind_of_ok {x : Watching α} {a : α}
    (h : x.outcome calls s = ((.ok a, calls'), s')) (f : α → Watching β) :
    (x >>= f).outcome calls s = (f a).outcome calls' s' := by
  have hbind : (x >>= f).outcome calls s =
      (((ExceptT.bindCont f (x.outcome calls s).1.1).run (x.outcome calls s).1.2).run
        (x.outcome calls s).2).value := rfl
  rw [hbind, h]
  rfl

theorem outcome_bind_of_error {x : Watching α} {e : Failure}
    (h : x.outcome calls s = ((.error e, calls'), s')) (f : α → Watching β) :
    (x >>= f).outcome calls s = ((.error e, calls'), s') := by
  have hbind : (x >>= f).outcome calls s =
      (((ExceptT.bindCont f (x.outcome calls s).1.1).run (x.outcome calls s).1.2).run
        (x.outcome calls s).2).value := rfl
  rw [hbind, h]
  rfl

end Watching

theorem outcome_rerun (r : RefreshRequest) (debugFile : DebugFile) (calls : List ObserverCall)
    (s : RefreshState) : (rerun r debugFile).outcome calls s =
      match (r.runOnce debugFile).outcome s with
      | (.ok _, s') => ((.ok (), calls), s')
      | (.error (.reported e), s') =>
        ((.ok (), calls), { s' with printed := s'.printed ++ [errorLine e] })
      | (.error (.broken cause), s') => ((.error (.broken cause), calls), s') := by
  have hrun := Watching.outcome_ofRefresh (r.runOnce debugFile) calls s
  unfold rerun
  rw [Watching.outcome_bind_of_ok hrun]
  rcases (r.runOnce debugFile).outcome s with ⟨(_ | _) | _, s'⟩ <;> rfl

/-- What running again comes to with these inputs. -/
def rerunOn (r : RefreshRequest) (i : RefreshInputs) (s : RefreshState) :
    Except Failure Unit × RefreshState :=
  let ended := (rerun r fun _ => i.debugFile).outcome [] { s with disk := i.disk }
  (ended.1.1, ended.2)

theorem rerunOn_eq (r : RefreshRequest) (i : RefreshInputs) (s : RefreshState) :
    rerunOn r i s =
      match r.runOn i s with
      | (.ok _, s') => (.ok (), s')
      | (.error (.reported e), s') =>
        (.ok (), { s' with printed := s'.printed ++ [errorLine e] })
      | (.error (.broken cause), s') => (.error (.broken cause), s') := by
  unfold rerunOn RefreshRequest.runOn
  rw [outcome_rerun]
  rcases (r.runOnce _).outcome _ with ⟨(_ | _) | _, s'⟩ <;> rfl

/-- Only a breakdown of a run gets out of running again. -/
theorem rerunOn_error {r : RefreshRequest} {i : RefreshInputs} {s : RefreshState}
    {failure : Failure} (h : (rerunOn r i s).1 = .error failure) :
    ∃ cause, failure = .broken cause := by
  rw [rerunOn_eq] at h
  rcases hrun : r.runOn i s with ⟨(_ | cause) | _, s'⟩ <;> rw [hrun] at h
  · cases h
  · exact ⟨cause, (Except.error.inj h).symm⟩
  · cases h

/-! ## The steps of the loop -/

inductive Ending where
  | failure (f : Failure)
  /-- The user wants no more, or a line cannot be printed. -/
  | interrupt

inductive Point where
  /-- The observer has been started, and the user is to be told. -/
  | announcing
  /-- For an event, or for the poll interval to be over. -/
  | waiting
  /-- No event has come; whether the observer is alive is the next question. -/
  | asking
  /-- An event was taken, and the others of its burst are dropped. -/
  | draining
  | ready
  | running
  | leaving (e : Ending)
  | stopped (e : Ending)
  | left (e : Ending)
  /-- Left while the observer runs on. -/
  | abandoned

namespace Point

def ending? : Point → Option Ending
  | .leaving e | .stopped e | .left e => some e
  | .abandoned => some .interrupt
  | _ => none

/-- Runs that are still to come for the events taken. -/
def owed : Point → Nat
  | .draining | .ready => 1
  | _ => 0

/-- How often the observer has been stopped. -/
def stops : Point → Nat
  | .stopped _ | .left _ => 1
  | _ => 0

theorem stops_of_loop {p : Point} (h : p.ending? = none) : p.stops = 0 := by
  cases p <;> first | rfl | cases h

end Point

def ObserverCall.isStop : ObserverCall → Bool
  | .stop => true
  | _ => false

/-- A watch at one moment, with the counts that tell which events it has served. -/
structure LoopState where
  point : Point
  queue : List EventKind
  alive : Bool
  /-- Calls of the observer since it was started. -/
  calls : List ObserverCall
  session : RefreshState
  /-- How many events were taken from the queue. -/
  taken : Nat
  /-- For each run, how many events had been queued when it started. -/
  starts : List Nat
  /-- How many events had been queued when the queue was last found empty. -/
  looked : Nat

namespace LoopState

def queued (s : LoopState) : Nat :=
  s.taken + s.queue.length

/-- Some run started when the event of that number was already queued. -/
def Served (s : LoopState) (i : Nat) : Prop :=
  ∃ n ∈ s.starts, i < n

/-- The observer has just been started. -/
def start (session : RefreshState) : LoopState where
  point := .announcing
  queue := []
  alive := true
  calls := []
  session
  taken := 0
  starts := []
  looked := 0

end LoopState

def observerDied : Error :=
  .watcher "file observer stopped unexpectedly"

/-- The user has been told that the watch begins. -/
def announced (r : RefreshRequest) (s : RefreshState) : RefreshState :=
  { s with printed := s.printed ++ [startedLine r.debugPath] }

/-- Steps of the observer and steps of the loop, in any order. -/
inductive Step (r : RefreshRequest) : LoopState → LoopState → Prop
  | report (s : LoopState) (e : FileEvent) : e.concerns r.debugPath = true →
      Step r s { s with queue := s.queue ++ [e.kind] }
  | die (s : LoopState) : Step r s { s with alive := false }
  | announce (s : LoopState) : s.point = .announcing →
      Step r s { s with point := .waiting, session := announced r s.session }
  /-- An interrupt of the announcement: nothing stops the observer yet. -/
  | abandon (s : LoopState) : s.point = .announcing →
      Step r s { s with point := .abandoned }
  | take (s : LoopState) (k : EventKind) (rest : List EventKind) :
      s.point = .waiting → s.queue = k :: rest →
      Step r s { s with point := .draining, queue := rest, taken := s.taken + 1 }
  | timeOut (s : LoopState) : s.point = .waiting → s.queue = [] →
      Step r s { s with point := .asking, looked := s.queued }
  | carryOn (s : LoopState) : s.point = .asking → s.alive = true →
      Step r s { s with point := .waiting }
  | giveUp (s : LoopState) : s.point = .asking → s.alive = false →
      Step r s { s with point := .leaving (.failure (.reported observerDied)) }
  | drop (s : LoopState) (k : EventKind) (rest : List EventKind) :
      s.point = .draining → s.queue = k :: rest →
      Step r s { s with queue := rest, taken := s.taken + 1 }
  | drained (s : LoopState) : s.point = .draining → s.queue = [] →
      Step r s { s with point := .ready }
  | start (s : LoopState) : s.point = .ready →
      Step r s { s with point := .running, starts := s.starts ++ [s.queued] }
  /-- A run comes to its end, whatever it found around it. -/
  | finish (s : LoopState) (i : RefreshInputs) : s.point = .running →
      (rerunOn r i s.session).1 = .ok () →
      Step r s { s with point := .waiting, session := (rerunOn r i s.session).2 }
  | breakOff (s : LoopState) (i : RefreshInputs) (f : Failure) : s.point = .running →
      (rerunOn r i s.session).1 = .error f →
      Step r s { s with
        point := .leaving (.failure f), session := (rerunOn r i s.session).2 }
  /-- An interrupt may leave a run half done. -/
  | interrupt (s : LoopState) (session : RefreshState) : s.point.ending? = none →
      s.point ≠ .announcing → Step r s { s with point := .leaving .interrupt, session }
  /-- One more interrupt, before the observer is stopped. -/
  | escape (s : LoopState) (e : Ending) : s.point = .leaving e →
      Step r s { s with point := .abandoned }
  | stop (s : LoopState) (e : Ending) : s.point = .leaving e →
      Step r s { s with point := .stopped e, calls := s.calls ++ [.stop] }
  /-- An interrupt may come instead of the end of the join. -/
  | leave (s : LoopState) (e e' : Ending) : s.point = .stopped e → e' = e ∨ e' = .interrupt →
      Step r s { s with point := .left e' }
  /-- The observer was still alive when it had been stopped. -/
  | join (s : LoopState) (e : Ending) : s.point = .stopped e →
      Step r s { s with point := .left e, calls := s.calls ++ [.join] }

abbrev Steps (r : RefreshRequest) : LoopState → LoopState → Prop :=
  Relation.ReflTransGen (Step r)

/-! ## What every step preserves -/

/-- Which events have been served, and how often the observer was stopped, at each point of
the loop. -/
structure LoopState.Consistent (s : LoopState) : Prop where
  served : s.point.owed = 0 → s.point.ending? = none → ∀ i < s.taken, s.Served i
  runs : s.starts.length + s.point.owed ≤ s.taken
  looked : s.point = .asking → s.looked = s.taken
  died : ∀ e, s.point.ending? = some (.failure (.reported e)) →
    e = observerDied ∧ s.alive = false ∧ ∀ i < s.looked, s.Served i
  stops : s.calls.countP ObserverCall.isStop = s.point.stops

namespace LoopState

variable {r : RefreshRequest} {s t : LoopState}

theorem served_of_start (hstarts : t.starts = s.starts ++ [s.queued]) {i : Nat}
    (hi : i < s.queued) : t.Served i :=
  ⟨s.queued, by simp [hstarts], hi⟩

theorem Consistent.step (hs : s.Consistent) (h : Step r s t) : t.Consistent := by
  obtain ⟨hserved, hruns, hlooked, hdied, hstops⟩ := hs
  -- Only the start of a run serves events, and only a look that found nothing counts.
  cases h with
  | report e _ => exact ⟨hserved, hruns, hlooked, hdied, hstops⟩
  | die =>
    refine ⟨hserved, hruns, hlooked, fun e he => ?_, hstops⟩
    obtain ⟨rfl, -, hlook⟩ := hdied e he
    exact ⟨rfl, rfl, hlook⟩
  | announce hpoint =>
    rw [hpoint] at hserved hruns hstops
    exact ⟨hserved, hruns, by rintro ⟨⟩, by rintro e ⟨⟩, hstops⟩
  | abandon hpoint | escape _ hpoint =>
    rw [hpoint] at hruns hstops
    exact ⟨by rintro _ ⟨⟩, hruns, by rintro ⟨⟩, by rintro e ⟨⟩, hstops⟩
  | take k rest hpoint _ =>
    rw [hpoint] at hruns hstops
    exact ⟨by rintro ⟨⟩, Nat.succ_le_succ hruns, by rintro ⟨⟩, by rintro e ⟨⟩,
      hstops⟩
  | timeOut hpoint hqueue =>
    rw [hpoint] at hserved hruns hstops
    refine ⟨hserved, hruns, fun _ => ?_, by rintro e ⟨⟩, hstops⟩
    simp [queued, hqueue]
  | carryOn hpoint _ =>
    rw [hpoint] at hserved hruns hstops
    exact ⟨hserved, hruns, by rintro ⟨⟩, by rintro e ⟨⟩, hstops⟩
  | giveUp hpoint hdead =>
    rw [hpoint] at hserved hruns hstops
    refine ⟨by rintro _ ⟨⟩, hruns, by rintro ⟨⟩, ?_, hstops⟩
    rintro e ⟨⟩
    refine ⟨rfl, hdead, fun i hi => hserved rfl rfl i ?_⟩
    exact hlooked hpoint ▸ hi
  | drop k rest hpoint _ =>
    rw [hpoint] at hruns
    refine ⟨?_, ?_, ?_, ?_, hstops⟩
    · intro howed
      rw [hpoint] at howed
      cases howed
    · rw [hpoint]
      exact Nat.le_succ_of_le hruns
    · intro hasking
      rw [hpoint] at hasking
      cases hasking
    · intro e he
      rw [hpoint] at he
      cases he
  | drained hpoint _ =>
    rw [hpoint] at hruns hstops
    exact ⟨by rintro ⟨⟩, hruns, by rintro ⟨⟩, by rintro e ⟨⟩, hstops⟩
  | start hpoint =>
    rw [hpoint] at hruns hstops
    refine ⟨fun _ _ i hi => served_of_start rfl ?_, ?_, by rintro ⟨⟩,
      by rintro e ⟨⟩, hstops⟩
    · exact Nat.lt_of_lt_of_le hi (Nat.le_add_right _ _)
    · rw [List.length_append]
      exact hruns
  | finish i hpoint _ =>
    rw [hpoint] at hserved hruns hstops
    exact ⟨hserved, hruns, by rintro ⟨⟩, by rintro e ⟨⟩, hstops⟩
  | breakOff i f hpoint hbroken =>
    rw [hpoint] at hruns hstops
    obtain ⟨cause, rfl⟩ := rerunOn_error hbroken
    exact ⟨by rintro _ ⟨⟩, hruns, by rintro ⟨⟩, by rintro e ⟨⟩, hstops⟩
  | interrupt session hloop _ =>
    rw [Point.stops_of_loop hloop] at hstops
    exact ⟨by rintro _ ⟨⟩, Nat.le_of_add_right_le hruns, by rintro ⟨⟩,
      by rintro e ⟨⟩, hstops⟩
  | stop e hpoint =>
    rw [hpoint] at hdied hruns hstops
    refine ⟨by rintro _ ⟨⟩, hruns, by rintro ⟨⟩, hdied, ?_⟩
    rw [List.countP_append, hstops]
    rfl
  | leave e e' hpoint hend =>
    rw [hpoint] at hdied hruns hstops
    refine ⟨by rintro _ ⟨⟩, hruns, by rintro ⟨⟩, fun e hended => ?_, hstops⟩
    rcases hend with rfl | rfl
    · exact hdied e hended
    · cases hended
  | join e hpoint =>
    rw [hpoint] at hdied hruns hstops
    refine ⟨by rintro _ ⟨⟩, hruns, by rintro ⟨⟩, hdied, ?_⟩
    rw [List.countP_append, hstops]
    rfl

theorem queued_le_of_step (h : Step r s t) : s.queued ≤ t.queued := by
  unfold queued
  cases h with
  | report e _ =>
    have hlength : (s.queue ++ [e.kind]).length = s.queue.length + 1 := List.length_append
    simp only [hlength]
    omega
  | take k rest _ hqueue | drop k rest _ hqueue =>
    have hlength : s.queue.length = rest.length + 1 := by rw [hqueue, List.length_cons]
    simp only [hlength]
    omega
  | _ => exact Nat.le_refl _

/-- Wherever a look at the queue counts, it came behind the first `k` events. -/
structure LooksBeyond (k : Nat) (s : LoopState) : Prop where
  queued : k ≤ s.queued
  asked : s.point = .asking → k ≤ s.looked
  ended : ∀ e, s.point.ending? = some (.failure (.reported e)) → k ≤ s.looked

theorem LooksBeyond.step {k : Nat} (hs : s.LooksBeyond k) (h : Step r s t) :
    t.LooksBeyond k := by
  have hqueued : k ≤ t.queued := Nat.le_trans hs.queued (queued_le_of_step h)
  cases h with
  | report | die | drop => exact ⟨hqueued, hs.asked, hs.ended⟩
  | timeOut => exact ⟨hqueued, fun _ => hs.queued, by rintro e ⟨⟩⟩
  | giveUp hpoint _ => exact ⟨hqueued, by rintro ⟨⟩, fun _ _ => hs.asked hpoint⟩
  | breakOff i f _ hbroken =>
    obtain ⟨cause, rfl⟩ := rerunOn_error hbroken
    exact ⟨hqueued, by rintro ⟨⟩, by rintro e ⟨⟩⟩
  | announce | abandon | take | carryOn | drained | start | finish | interrupt | escape =>
    exact ⟨hqueued, by rintro ⟨⟩, by rintro e ⟨⟩⟩
  | stop e hpoint | join e hpoint =>
    refine ⟨hqueued, by rintro ⟨⟩, fun e' he => hs.ended e' ?_⟩
    rw [hpoint]
    exact he
  | leave e e' hpoint hend =>
    refine ⟨hqueued, by rintro ⟨⟩, fun f he => hs.ended f ?_⟩
    rw [hpoint]
    rcases hend with rfl | rfl
    · exact he
    · cases he

theorem LooksBeyond.steps {k : Nat} (hs : s.LooksBeyond k) (h : Steps r s t) :
    t.LooksBeyond k := by
  induction h with
  | refl => exact hs
  | tail _ hstep ih => exact ih.step hstep

end LoopState

open RefreshRequest

end BinMatch.Watch
