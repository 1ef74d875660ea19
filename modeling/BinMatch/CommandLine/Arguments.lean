import BinMatch.CommandLine.Switch
import BinMatch.Path
import BinMatch.X86.Line

/-!
# Commands

The options that stand in front of a command hold for all commands.  The words
behind the command are the command's own, and its options mix with its operands.
-/

namespace BinMatch.CommandLine

inductive Stop where
  | misuse (cause : Misuse)
  | help
  deriving DecidableEq, Repr

structure GlobalOptions where
  lines : X86.LineOptions := {}
  truncateToReference : Bool := false
  /-- Nothing leaves the choice to the settings. -/
  resolveThunks : Option Bool := none
  configPath : Option Path := none
  verbose : Bool := false
  help : Bool := false

namespace GlobalOptions

def showAddresses (o : GlobalOptions) : GlobalOptions :=
  { o with lines := { o.lines with showAddresses := true } }

def hideDisplacements (o : GlobalOptions) : GlobalOptions :=
  { o with lines := { o.lines with showDisplacements := false } }

def hideImmediates (o : GlobalOptions) : GlobalOptions :=
  { o with lines := { o.lines with showImmediates := false } }

def switches : List (Switch GlobalOptions) :=
  [⟨["--show-ip", "-i"], .flag showAddresses⟩,
    ⟨["--no-mem-disp"], .flag hideDisplacements⟩,
    ⟨["--no-imms"], .flag hideImmediates⟩,
    ⟨["--truncate-to-original"],
      .flag fun o => { o with truncateToReference := true }⟩,
    ⟨["--resolve-thunks"], .flag fun o => { o with resolveThunks := some true }⟩,
    ⟨["--no-resolve-thunks"],
      .flag fun o => { o with resolveThunks := some false }⟩,
    ⟨["--config", "-c"],
      .value fun text o => { o with configPath := some (Path.ofString text) }⟩,
    ⟨["--verbose", "-v"], .flag fun o => { o with verbose := true }⟩,
    ⟨["--help"], .flag fun o => { o with help := true }⟩]

def read (words : List String) : Except Stop (GlobalOptions × List String) :=
  match readWords switches false {} words with
  | .error cause => .error (.misuse cause)
  | .ok (options, rest) =>
    if options.help then .error .help
    else if options.configPath.all (·.isNameable) then .ok (options, rest)
    else .error (.misuse .unnameableFile)

end GlobalOptions

inductive Verb where
  | compare
  | list
  | report
  deriving DecidableEq, Repr

def Verb.ofWord? : String → Option Verb
  | "compare" => some .compare
  | "generate-full" => some .list
  | "report" => some .report
  | _ => none

inductive Command where
  | compare (reference rebuilt : Path) (name : String) (watch : Bool)
  | list (binary : Path) (isReference : Bool)
  | report (reference rebuilt : Path) (directory : Option Path)
  deriving DecidableEq, Repr

namespace Command

structure Options where
  watch : Bool := false
  isReference : Bool := false
  directory : Option Path := none
  help : Bool := false

def helpSwitch : Switch Options :=
  ⟨["--help"], .flag fun o => { o with help := true }⟩

def switches : Verb → List (Switch Options)
  | .compare =>
    [⟨["--watch", "-w"], .flag fun o => { o with watch := true }⟩, helpSwitch]
  | .list =>
    [⟨["--orig-file"], .flag fun o => { o with isReference := true }⟩, helpSwitch]
  | .report =>
    [⟨["--out", "-o"],
      .value fun text o => { o with directory := some (Path.ofString text) }⟩,
      helpSwitch]

/-- A command with exactly the operands that it takes. -/
def ofOperands? : Verb → Options → List String → Option Command
  | .compare, o, [reference, rebuilt, name] =>
    some (.compare (Path.ofString reference) (Path.ofString rebuilt) name o.watch)
  | .list, o, [binary] => some (.list (Path.ofString binary) o.isReference)
  | .report, o, [reference, rebuilt] =>
    some (.report (Path.ofString reference) (Path.ofString rebuilt) o.directory)
  | _, _, _ => none

def namedFiles : Command → List Path
  | .compare reference rebuilt _ _ => [reference, rebuilt]
  | .list binary _ => [binary]
  | .report reference rebuilt directory =>
    [reference, rebuilt] ++ directory.toList

def read (verb : Verb) (words : List String) : Except Stop Command :=
  match readWords (switches verb) true {} words with
  | .error cause => .error (.misuse cause)
  | .ok (options, operands) =>
    if options.help then .error .help
    else
      match ofOperands? verb options operands with
      | some command =>
        if command.namedFiles.all (·.isNameable) then .ok command
        else .error (.misuse .unnameableFile)
      | none => .error (.misuse .wrongOperandCount)

end Command

/-- The options, the verb and the words behind it.  Where no verb stands, the
words are read as options once more, so that help can still be asked for. -/
def splitWords (words : List String) :
    Except Stop (GlobalOptions × Verb × List String) := do
  let (options, rest) ← GlobalOptions.read words
  match rest with
  | [] => throw (.misuse .missingCommand)
  | word :: arguments =>
    match Verb.ofWord? word with
    | some verb => pure (options, verb, arguments)
    | none => do
      let _ ← GlobalOptions.read rest
      throw (.misuse .unknownCommand)

end BinMatch.CommandLine
