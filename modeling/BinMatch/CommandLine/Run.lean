import BinMatch.CommandLine.Execution

/-!
# Running a command line

A run reads the options, then the settings, then the command, and carries it out.
Remarks below the log level are dropped.
-/

namespace BinMatch.CommandLine

/-- What ends a run without a message to the user. -/
inductive Crash where
  | unfitSettings (fields : List Settings.Field)
  | unknownLogLevel (name : String)
  /-- The environment file is not encoded as text. -/
  | unreadableEnvironment
  | broken (cause : Breakdown)
  deriving DecidableEq, Repr

def Crash.message : Crash → String
  | .unfitSettings fields =>
    "Unfit settings: " ++ ", ".intercalate (fields.map (·.name))
  | .unknownLogLevel name => "Unknown log level " ++ name
  | .unreadableEnvironment => "The environment file is not encoded as text"
  | .broken cause => cause.message

structure Environment where
  assignments : List (String × String)
  disk : Disk
  observer : Watch.Observer

def usage : String :=
  "usage: [OPTIONS] compare ORIG REBUILT SYMBOL [--watch]\n" ++
  "       [OPTIONS] generate-full FILE [--orig-file]\n" ++
  "       [OPTIONS] report ORIG REBUILT [--out DIR]\n" ++
  "options: --show-ip --no-mem-disp --no-imms --truncate-to-original\n" ++
  "         --resolve-thunks --no-resolve-thunks --config FILE --verbose"

structure Outcome where
  exitCode : Nat
  /-- The user is told how to call the program. -/
  showsUsage : Bool := false
  printed : List Printed
  log : List LogRecord
  disk : Disk
  crash : Option Crash

namespace Outcome

/-- The words were not carried out, and nothing was touched. -/
def stopped (disk : Disk) (stop : Stop) : Outcome :=
  let exitCode :=
    match stop with
    | .help => 0
    | .misuse _ => 2
  { exitCode, showsUsage := true, printed := [], log := [], disk, crash := none }

def crashed (disk : Disk) (cause : Crash) : Outcome :=
  { exitCode := 1, printed := [], log := [], disk, crash := some cause }

/-- The outcome of an execution from this disk on; an error is printed in red. -/
def ofExecution (disk : Disk) (threshold : Nat) (x : Execution Unit) : Outcome :=
  let logged := x.run.run { disk, printed := [] }
  let (result, after) := logged.value
  let log := logged.log.filter fun r => threshold ≤ r.level.severity
  match result with
  | .ok () =>
    { exitCode := 0, printed := after.printed, log, disk := after.disk
      crash := none }
  | .error (.reported e) =>
    { exitCode := 1, printed := after.printed ++ [.line (errorLine e)], log
      disk := after.disk, crash := none }
  | .error (.broken cause) =>
    { exitCode := 1, printed := after.printed, log, disk := after.disk
      crash := some (.broken cause) }

structure Shown where
  exitCode : Nat
  printed : List Printed
  /-- The text that broke the run off. -/
  refused : Option String
  crash : Option Crash

/-- What a console shows of a run that watches nothing.  Such a run prints last of all, so
that a text which the console refuses takes back nothing that was done. -/
def shownOn (console : Console) (o : Outcome) : Shown :=
  match o.printed.findSome? console.refusal? with
  | none =>
    { exitCode := o.exitCode, printed := o.printed, refused := none, crash := o.crash }
  | some text =>
    { exitCode := 1
      printed := o.printed.takeWhile fun p => (console.refusal? p).isNone
      refused := some text
      crash := none }

end Outcome

def environmentFile : Path := Path.ofString ".env"

def environmentText (disk : Disk) : Except Crash (Option String) :=
  if disk.isFile environmentFile then
    match disk.read environmentFile with
    | .ok content =>
      match String.fromUTF8? ⟨content.bytes.toArray⟩ with
      | some text => .ok (some text)
      | none => .error .unreadableEnvironment
    | .error _ => .ok none
  else .ok none

def Environment.settings (env : Environment) : Except Crash Settings := do
  let text ← environmentText env.disk
  (Settings.load env.assignments text).mapError .unfitSettings

/-- The least severity of a remark that is kept. -/
def thresholdOf (options : GlobalOptions) (settings : Settings) : Option Nat :=
  if options.verbose then some LogLevel.debug.severity
  else LogLevel.threshold? settings.logLevel

def contextOf (env : Environment) (options : GlobalOptions)
    (settings : Settings) : Context :=
  { settings
    configPath := options.configPath.getD settings.configPath
    options :=
      { lines := options.lines
        truncateToReference := options.truncateToReference
        resolveThunks := options.resolveThunks.getD settings.resolveThunks }
    observer := env.observer }

structure Prepared where
  context : Context
  command : Command
  threshold : Nat

/-- Read the options, the settings and the command, or end here. -/
def prepare (env : Environment) (words : List String) : Except Outcome Prepared :=
  match splitWords words with
  | .error stop => .error (.stopped env.disk stop)
  | .ok (options, verb, arguments) =>
    match env.settings with
    | .error cause => .error (.crashed env.disk cause)
    | .ok settings =>
      match thresholdOf options settings with
      | none => .error (.crashed env.disk (.unknownLogLevel settings.logLevel))
      | some threshold =>
        match Command.read verb arguments with
        | .error stop => .error (.stopped env.disk stop)
        | .ok command =>
          .ok { context := contextOf env options settings, command, threshold }

def Prepared.outcome (p : Prepared) (disk : Disk) : Outcome :=
  .ofExecution disk p.threshold (p.command.execution p.context)

def run (env : Environment) (words : List String) : Outcome :=
  match prepare env words with
  | .error outcome => outcome
  | .ok p => p.outcome env.disk

end BinMatch.CommandLine
