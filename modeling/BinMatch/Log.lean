import BinMatch.Error

/-!
# Log records

Remarks made on the way to a result.  `Logged` pairs a value with the remarks in
the order in which they were made, and `Checked` adds failure on top, so that
remarks made before a failure are kept.
-/

namespace BinMatch

inductive LogLevel where
  | debug
  | warning
  deriving DecidableEq, Repr

namespace LogLevel

def name : LogLevel → String
  | .debug => "DEBUG"
  | .warning => "WARNING"

/-- Position on the scale on which a threshold is chosen. -/
def severity : LogLevel → Nat
  | .debug => 10
  | .warning => 30

/-- Upper case as far as the names of thresholds go; two letters outside ASCII
have a capital in it. -/
def capital (c : Char) : Char :=
  if c = 'ı' then 'I' else if c = 'ſ' then 'S' else c.toUpper

/-- The severity from which on remarks are kept, by its name in any case. -/
def threshold? (name : String) : Option Nat :=
  match String.ofList (name.toList.map capital) with
  | "CRITICAL" | "FATAL" => some 50
  | "ERROR" => some 40
  | "WARNING" | "WARN" => some 30
  | "INFO" => some 20
  | "DEBUG" => some 10
  | "NOTSET" => some 0
  | _ => none

end LogLevel

inductive LogRecord where
  | loadingDebugInfo (path : String)
  | duplicateSymbol (name path : String)
  | insidePreamble (name : String) (start : Int)
  | thunkResolved (target : Int) (name : String)
  | notInDebugFile (name : String)
  | notInConfig (name : String)
  | failed (error : Error)
  | skippedWithoutSize (name : String)
  | debugSizeUsed (name : String)
  | referenceSizeUnknown
  deriving DecidableEq, Repr

namespace LogRecord

def level : LogRecord → LogLevel
  | .loadingDebugInfo _ | .duplicateSymbol _ _ | .thunkResolved _ _ => .debug
  | _ => .warning

def message : LogRecord → String
  | .loadingDebugInfo path => "Loading debug info from " ++ path
  | .duplicateSymbol name path =>
    "Duplicate function name " ++ name ++ " in " ++ path ++
      "; keeping the later symbol"
  | .insidePreamble name start =>
    "Skipping " ++ name ++ ": RVA " ++ Text.Hex.address start ++
      " lies inside the section preamble"
  | .thunkResolved target name =>
    "Resolved thunk " ++ Text.Hex.address target ++ " -> " ++ name
  | .notInDebugFile name =>
    "Function '" ++ name ++ "' was not found in the debug file."
  | .notInConfig name => "Function '" ++ name ++ "' was not found in the config."
  | .failed error => error.message
  | .skippedWithoutSize name =>
    "Skipping '" ++ name ++ "' because no size was defined."
  | .debugSizeUsed name =>
    "No size defined for the original function '" ++ name ++
      "', using the debug file size instead."
  | .referenceSizeUnknown =>
    "No size defined for the original function, using the debug file size instead."

def line (r : LogRecord) : String :=
  r.level.name ++ " " ++ r.message

end LogRecord

/-- A value and the remarks made while it was computed. -/
structure Logged (α : Type) where
  value : α
  log : List LogRecord

namespace Logged

instance : Monad Logged where
  pure a := ⟨a, []⟩
  bind x f := ⟨(f x.value).value, x.log ++ (f x.value).log⟩

def tell (record : LogRecord) : Logged Unit :=
  ⟨(), [record]⟩

end Logged

/-- A computation that makes remarks and may fail. -/
abbrev Checked := ExceptT Error Logged

namespace Checked

def tell (record : LogRecord) : Checked Unit :=
  ExceptT.lift (Logged.tell record)

def ofExcept {α : Type} (r : Except Error α) : Checked α :=
  ExceptT.mk (pure r)

def outcome {α : Type} (x : Checked α) : Except Error α × List LogRecord :=
  (x.run.value, x.run.log)

end Checked

end BinMatch
