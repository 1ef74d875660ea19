import BinMatch.Disk
import BinMatch.Log

/-!
# Failures

Most failures are errors that are reported to the user and that a comparison of many
functions survives.  The others break off whatever is being done.
-/

namespace BinMatch

/-- A failure that nothing survives. -/
inductive Breakdown where
  /-- A path holds a null character, so that no file can be called by it. -/
  | unnameable
  /-- A path is too long to look for a file there. -/
  | pathTooLong (path : Path)
  /-- A document holds an integer of too many digits. -/
  | numberTooLong
  /-- The values of a document are nested too deep. -/
  | nestedTooDeep
  /-- A binary without a file name has no debug file. -/
  | noDebugFile (binary : Path)
  deriving DecidableEq, Repr

def Breakdown.message : Breakdown → String
  | .unnameable => "A file name holds a null character"
  | .pathTooLong path => path.toString ++ " is too long"
  | .numberTooLong => "A number has too many digits"
  | .nestedTooDeep => "Values are nested too deep"
  | .noDebugFile binary => binary.toString ++ " has no file name"

inductive Failure where
  | reported (error : Error)
  | broken (cause : Breakdown)
  deriving DecidableEq, Repr

def Disk.Stop.failure (path : Path) : Disk.Stop → Failure
  | .failed cause => .reported (.fileAccess path.toString cause)
  | .unnameable => .broken .unnameable

/-- A computation that makes remarks and may fail in either way. -/
abbrev Attempt := ExceptT Failure Logged

namespace Attempt

variable {α : Type}

def tell (record : LogRecord) : Attempt Unit :=
  ExceptT.lift (Logged.tell record)

def ofExcept (r : Except Failure α) : Attempt α :=
  ExceptT.mk (pure r)

def ofChecked (x : Checked α) : Attempt α :=
  ExceptT.mk (do
    let outcome ← x.run
    pure (outcome.mapError .reported))

def outcome (x : Attempt α) : Except Failure α × List LogRecord :=
  (x.run.value, x.run.log)

end Attempt

end BinMatch
