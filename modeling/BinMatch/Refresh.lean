import BinMatch.Comparison
import BinMatch.Config
import BinMatch.DebugInfo
import BinMatch.Symbol.Extraction
import BinMatch.X86.TableDecoder

/-!
# Refreshing a comparison

A comparison of one function that can be run again and again.  A run reads all
its inputs anew, writes both listings and prints where the function was found,
with the differences to the run before.  A run that fails before it writes leaves
everything as it was.
-/

namespace BinMatch

structure RefreshRequest where
  config : Config
  referencePath : Path
  rebuiltPath : Path
  debugPath : Path
  name : String
  options : ComparisonOptions
  outputDir : Path

structure Location where
  address : Int
  size : Int
  deriving DecidableEq, Repr

structure RefreshState where
  disk : Disk
  /-- The location that the last successful run printed. -/
  last : Option Location
  printed : List String
  /-- Number of times that the debug file was read. -/
  reads : Nat

/-- Runs change the state, make remarks and may fail. -/
abbrev Refresh := ExceptT Failure (StateT RefreshState Logged)

/-- The outcome of reading the debug file for the first time, the second time,
and so on: the path that it goes by, and its records. -/
abbrev DebugFile := Nat → Attempt (String × List DebugRecord)

/-- The debug file on a disk, the same at every reading. -/
def debugFileOn (disk : Disk) (path : Path) : DebugFile := fun _ => do
  let records ← openDebugInfo disk path
  pure (path.toString, records)

namespace Refresh

def ofAttempt {α : Type} (x : Attempt α) : Refresh α :=
  ExceptT.mk (StateT.lift x.run)

def ofChecked {α : Type} (x : Checked α) : Refresh α :=
  ofAttempt (.ofChecked x)

/-- Printing never fails here.  Of these lines only those of errors are read for marks; a
console that refuses one of them ends a watch as an interrupt does. -/
def print (line : String) : Refresh Unit :=
  modify fun s => { s with printed := s.printed ++ [line] }

end Refresh

namespace RefreshRequest

variable (r : RefreshRequest)

/-- The declaration of the compared function; truncation needs its size. -/
def checkReference : Checked Definition := do
  let d ← Checked.ofExcept (r.config.find r.name)
  if d.size.isNone then
    if r.options.truncateToReference then throw (.requiredSize d.name)
    Checked.tell .referenceSizeUnknown
  pure d

def withDelta (now : Int) (before : Option Int) : String :=
  match before with
  | some v => Text.Hex.address now ++ " (" ++ Text.Hex.delta (now - v) ++ ")"
  | none => Text.Hex.address now

def describe (last : Option Location) (s : Symbol) (d : Definition) : String :=
  "Found " ++ r.name ++ " in " ++ s.sourceFile ++
    " at " ++ withDelta s.offset (last.map (·.address)) ++
    ", size: " ++ withDelta s.size (last.map (·.size)) ++
    match d.size with
    | some size => "; orig size: " ++ Text.Hex.address size
    | none => ""

structure Finding where
  declared : Definition
  symbol : Symbol
  diff : Diff.TextDiff

def evaluate (disk : Disk) (declared : Definition) (path : String)
    (records : List DebugRecord) : Attempt Finding := do
  let symbols ← ExceptT.lift (extractSymbols path records)
  let symbol ←
    match symbols.get? r.name with
    | some s => pure s
    | none => throw (.reported (.symbolNotFound r.name))
  let referenceBytes ← Attempt.ofExcept (disk.readImageBytes r.referencePath)
  let rebuiltBytes ← Attempt.ofExcept (disk.readImageBytes r.rebuiltPath)
  let diff ← Attempt.ofChecked (compare r.options
    { image := ⟨referenceBytes⟩
      functions := r.config.byName
      addressOffset := r.config.addressOffset }
    { image := ⟨rebuiltBytes⟩, symbols, segmentOffset := defaultSegmentOffset }
    r.name)
  pure { declared, symbol, diff }

def writeListing (fileName text : String) : Refresh Unit := do
  let path := r.outputDir.child fileName
  let s ← get
  match s.disk.write path text with
  | .ok disk => set { s with disk }
  | .error stop => throw (stop.failure path)

def commit (f : Finding) : Refresh Unit := do
  r.writeListing referenceListingName f.diff.oldText
  r.writeListing rebuiltListingName f.diff.newText
  let s ← get
  Refresh.print (r.describe s.last f.symbol f.declared)
  modify fun s => { s with last := some ⟨f.symbol.offset, f.symbol.size⟩ }

/-- One run: read everything, compare, then write. -/
def runOnce (debugFile : DebugFile) : Refresh Diff.TextDiff := do
  let declared ← Refresh.ofChecked r.checkReference
  let s ← get
  set { s with reads := s.reads + 1 }
  let (path, records) ← Refresh.ofAttempt (debugFile s.reads)
  let finding ← Refresh.ofAttempt (r.evaluate s.disk declared path records)
  r.commit finding
  pure finding.diff

end RefreshRequest

def errorLine (e : Error) : String :=
  "[red]" ++ e.message ++ "[/red]"

end BinMatch
