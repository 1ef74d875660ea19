import BinMatch.Failure
import BinMatch.Refresh

/-!
# Watching the debug file

A file observer reports events of files; one concerns the watcher when it leaves the
watched file created, modified or moved into its place, and links are not followed.
While such events are reported, every burst of them leads to one more run.  An error of
a run is printed and does not end the watch; the watch ends when no event is left and
the observer is no longer alive.
-/

namespace BinMatch.Watch

/-! ## File events -/

inductive EventKind where
  | created
  | modified
  | moved
  | deleted
  deriving DecidableEq, Repr

structure FileEvent where
  kind : EventKind
  source : Path
  /-- Where a moved file goes. -/
  destination : Path
  isDirectory : Bool
  deriving DecidableEq, Repr

def samePlace (p q : Path) : Bool :=
  p.resolve = q.resolve

namespace FileEvent

/-- Where the event leaves a file that is new or changed. -/
def place? (e : FileEvent) : Option Path :=
  if e.isDirectory then none
  else
    match e.kind with
    | .created | .modified => some e.source
    | .moved => some e.destination
    | .deleted => none

/-- The event brings the watched file to its place or changes it there. -/
def concerns (watched : Path) (e : FileEvent) : Bool :=
  e.place?.any (samePlace · watched)

/-- Which of the events concern the watched file, if all the places that this asks
for can be looked up. -/
def concerning (watched : Path) (events : List FileEvent) :
    Except Breakdown (List Bool) :=
  if (watched :: events.filterMap place?).all (·.isNameable) then
    .ok (events.map (concerns watched))
  else .error .unnameable

end FileEvent

/-! ## Observers -/

inductive ObserverCall where
  | create (interval : Float)
  | schedule (directory : Path)
  | start
  | stop
  | join

structure Observer where
  /-- Events in bursts; the next burst comes when all events are served, and
  the observer dies behind the last one. -/
  bursts : List (List FileEvent) := []
  scheduleFailure : Option String := none
  startFailure : Option String := none
  /-- The observer is still alive after it was stopped. -/
  outlivesStop : Bool := false

/-- The calls made so far go along with the state of the runs. -/
abbrev Watching :=
  ExceptT Failure (StateT (List ObserverCall) (StateT RefreshState Logged))

namespace Watching

def call (c : ObserverCall) : Watching Unit :=
  modify (· ++ [c])

def ofRefresh {α : Type} (x : Refresh α) : Watching (Except Failure α) :=
  liftM x.run

def ending (x : Watching Unit) : Watching (Except Failure Unit) :=
  ExceptT.lift x.run

def tryCall (c : ObserverCall) (failure : Option String) : Watching Unit := do
  call c
  match failure with
  | some reason => throw (.reported (.watcher reason))
  | none => pure ()

end Watching

/-- Run again, and print the error of a run that fails; a breakdown ends the watch. -/
def rerun (r : RefreshRequest) (debugFile : DebugFile) : Watching Unit := do
  match ← Watching.ofRefresh (r.runOnce debugFile) with
  | .ok _ => pure ()
  | .error (.reported e) => do
    let _ ← Watching.ofRefresh (Refresh.print (errorLine e))
  | .error (.broken cause) => throw (.broken cause)

/-- One run for each burst with an event of the debug file. -/
def serve (r : RefreshRequest) (debugFile : DebugFile) :
    List (List FileEvent) → Watching Unit
  | [] => pure ()
  | burst :: bursts => do
    if burst.any (·.concerns r.debugPath) then rerun r debugFile
    serve r debugFile bursts

def startedLine (debugPath : Path) : String :=
  "Started watching " ++ debugPath.toString ++
    " for changes. CTRL+C to quit."

def watch (r : RefreshRequest) (debugFile : DebugFile) (interval : Float)
    (observer : Observer) : Watching Unit := do
  Watching.call (.create interval)
  Watching.tryCall (.schedule r.debugPath.parent) observer.scheduleFailure
  Watching.tryCall .start observer.startFailure
  let _ ← Watching.ofRefresh (Refresh.print (startedLine r.debugPath))
  let ending ← Watching.ending (serve r debugFile observer.bursts)
  Watching.call .stop
  if observer.outlivesStop then Watching.call .join
  match ending with
  | .ok () => throw (.reported (.watcher "file observer stopped unexpectedly"))
  | .error failure => throw failure

def run (r : RefreshRequest) (debugFile : DebugFile) (interval : Float)
    (observer : Option Observer) : Watching Unit := do
  match ← Watching.ofRefresh (r.runOnce debugFile) with
  | .error e => throw e
  | .ok _ =>
    match observer with
    | some o => watch r debugFile interval o
    | none => pure ()

end BinMatch.Watch
