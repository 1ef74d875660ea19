import BinMatch.CommandLine.Run
import BinMatch.DebugInfo

/-!
# The command line program

Reads the files that a command line asks for, runs it, and then prints and writes
what came out.  A watched comparison polls its debug file.
-/

namespace BinMatch.CommandLine

/-- What stands at a path; a directory can be opened but not read. -/
def readEntry (path : Path) : IO (Option DiskEntry) := do
  try
    let bytes ← IO.FS.readBinFile path.toString
    let bytes := bytes.toList
    pure (some (.file { bytes, units := DebugInfo.Description.units? bytes }))
  catch _ =>
    try
      let _ ← IO.FS.Handle.mk path.toString .read
      pure (some .directory)
    catch _ => pure none

def readInto (disk : Disk) (paths : List Path) : IO Disk :=
  paths.foldlM
    (fun disk path => do
      match ← readEntry path with
      | some entry => pure (disk.putDeep path entry)
      | none => pure disk)
    disk

def readAssignments : IO (List (String × String)) := do
  let found ← Settings.variableNames.mapM fun name => do
    let value ← IO.getEnv name
    pure (value.map fun v => (name, v))
  pure (found.filterMap id)

def display (log : List LogRecord) (printed : List Printed) : IO Unit := do
  log.forM fun r => IO.eprintln r.message
  printed.forM fun p => IO.println p.text
  let output ← IO.getStdout
  output.flush

/-- Write the files that changed, and tell whether that worked. -/
def writeChanges (before after : Disk) : IO Bool := do
  try
    (Disk.changesSince before after).forM fun (path, bytes) => do
      IO.FS.createDirAll path.parent.toString
      IO.FS.writeBinFile path.toString ⟨bytes.toArray⟩
    pure true
  catch failure => do
    IO.eprintln (toString failure)
    pure false

def finish (before : Disk) (outcome : Outcome) : IO UInt32 := do
  let written ← writeChanges before outcome.disk
  display outcome.log outcome.printed
  match outcome.crash with
  | some cause => IO.eprintln cause.message
  | none => pure ()
  if outcome.showsUsage then IO.eprintln usage
  pure (if written then UInt32.ofNat outcome.exitCode else 1)

/-- One run of a watched comparison on the files as they are now. -/
def rerun (p : Prepared) (request : RefreshRequest) (last : Option Location) :
    IO (Except Failure Unit × Option Location) := do
  let disk ← readInto Disk.empty (p.command.places p.context)
  let pass := (request.runOnce (debugFileOn disk request.debugPath)).run.run
    { disk, last, printed := [], reads := 0 }
  let (outcome, after) := pass.value
  let _ ← finish disk
    { exitCode := 0, printed := after.printed.map .line
      log := pass.log.filter fun r => p.threshold ≤ r.level.severity
      disk := after.disk, crash := none }
  pure (outcome.map fun _ => (), after.last)

/-- Poll the debug file, and run again whenever its content changes. -/
partial def watchFile (p : Prepared) (request : RefreshRequest)
    (last : Option Location) (seen : Option DiskEntry) : IO Unit := do
  IO.sleep (p.context.settings.watchPollInterval.toFloat * 1000).toUInt32
  let now ← readEntry request.debugPath
  if now = seen || now.isNone then watchFile p request last now
  else do
    let (outcome, last) ← rerun p request last
    match outcome with
    | .ok () => watchFile p request last now
    | .error (.reported e) => do
      display [] [.line (errorLine e)]
      watchFile p request last now
    | .error (.broken cause) => throw (IO.userError cause.message)

/-- A first run, and the watch behind it. -/
def watchComparison (p : Prepared) (request : RefreshRequest) : IO UInt32 := do
  let seen ← readEntry request.debugPath
  let (outcome, last) ← rerun p request none
  match outcome with
  | .error (.reported e) => do
    display [] [.line (errorLine e)]
    pure 1
  | .error (.broken cause) => do
    IO.eprintln cause.message
    pure 1
  | .ok () => do
    display [] [.line (Watch.startedLine request.debugPath)]
    watchFile p request last seen
    pure 0

def runWords (words : List String) : IO UInt32 := do
  let assignments ← readAssignments
  let start ← readInto Disk.empty [environmentFile]
  match prepare { assignments, disk := start, observer := {} } words with
  | .error outcome => finish start outcome
  | .ok p => do
    let disk ← readInto start (p.command.places p.context)
    match p.command.watched? p.context disk with
    | some request => watchComparison p request
    | none => finish disk (p.outcome disk)

end BinMatch.CommandLine

def main (words : List String) : IO UInt32 :=
  BinMatch.CommandLine.runWords words
