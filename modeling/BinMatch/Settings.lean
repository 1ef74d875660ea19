import BinMatch.Numeric.Decimal
import BinMatch.Path
import BinMatch.Settings.Dotenv

/-!
# Settings

Settings have defaults that variables override, those of the environment before
those of the environment file.  Names of variables are read in any case.
-/

namespace BinMatch

structure Settings where
  configPath : Path
  outputDir : Path
  reportDir : Path
  watchPollInterval : Numeric.Binary64
  resolveThunks : Bool
  logLevel : String

namespace Settings

inductive Field where
  | watchPollInterval
  | resolveThunks
  deriving DecidableEq, Repr

def Field.name : Field → String
  | .watchPollInterval => "watch_poll_interval"
  | .resolveThunks => "resolve_thunks"

/-- What stands in front of the names of all settings. -/
def variableStart : String := "comparer_"

def variableNames : List String :=
  ["COMPARER_CONFIG_PATH", "COMPARER_OUTPUT_DIR", "COMPARER_REPORT_DIR",
    "COMPARER_WATCH_POLL_INTERVAL", "COMPARER_RESOLVE_THUNKS",
    "COMPARER_LOG_LEVEL"]

/-- Lower case as far as the names of settings go; one letter outside ASCII has a
small letter in it. -/
def small (c : Char) : Char :=
  if c = '\u212a' then 'k' else c.toLower

def lower (name : String) : String :=
  String.ofList (name.toList.map small)

/-- The last value given to a name, in any case. -/
def lookup {α : Type} (assignments : List (String × α)) (name : String) :
    Option α :=
  (assignments.reverse.find? fun v => lower v.1 = variableStart ++ name).map (·.2)

/-- A truth value by one of its words, in any case. -/
def boolean? (text : String) : Option Bool :=
  let word := lower text
  if ["1", "true", "t", "yes", "y", "on"].contains word then some true
  else if ["0", "false", "f", "no", "n", "off"].contains word then some false
  else none

/-- The settings of an environment and an environment file, or the settings
whose values are unfit. -/
def load (environment : List (String × String)) (file : Option String) :
    Except (List Field) Settings :=
  let inFile := (file.map fun f => (Dotenv.values environment f).entries).getD []
  let value (name : String) : Option String :=
    (lookup environment name).or (lookup inFile name).join
  let path (name default : String) : Path :=
    Path.ofString ((value name).getD default)
  let interval :=
    match value "watch_poll_interval" with
    | none => some (.number 2.0)
    | some text => Numeric.Decimal.binary64? text.toList
  let thunks :=
    match value "resolve_thunks" with
    | none => some false
    | some text => boolean? text
  match interval, thunks with
  | some watchPollInterval, some resolveThunks =>
    .ok
      { configPath := path "config_path" "comparer-config.toml"
        outputDir := path "output_dir" "."
        reportDir := path "report_dir" "report"
        watchPollInterval
        resolveThunks
        logLevel := (value "log_level").getD "WARNING" }
  | none, some _ => .error [.watchPollInterval]
  | some _, none => .error [.resolveThunks]
  | none, none => .error [.watchPollInterval, .resolveThunks]

end Settings

end BinMatch
