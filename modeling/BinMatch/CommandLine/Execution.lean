import BinMatch.CommandLine.Console
import BinMatch.CommandLine.Arguments
import BinMatch.Listing
import BinMatch.Report.Output
import BinMatch.Settings
import BinMatch.Watch.Session

/-!
# Carrying out a command

An execution prints, changes the disk, makes remarks, and may fail.  What it printed
and wrote before a failure stays.
-/

namespace BinMatch.CommandLine

structure Session where
  disk : Disk
  printed : List Printed

abbrev Execution := ExceptT Failure (StateT Session Logged)

structure Context where
  settings : Settings
  configPath : Path
  options : ComparisonOptions
  observer : Watch.Observer

namespace Execution

/-- Printing never fails here: what a console refuses is seen when all is over. -/
def print (p : Printed) : Execution Unit :=
  modify fun s => { s with printed := s.printed ++ [p] }

def ofLogged {α : Type} (x : Logged α) : Execution α :=
  ExceptT.lift (StateT.lift x)

def ofExcept {α : Type} (x : Except Failure α) : Execution α :=
  ExceptT.mk (pure x)

def ofAttempt {α : Type} (x : Attempt α) : Execution α := do
  let outcome ← ofLogged x.run
  ofExcept outcome

def disk : Execution Disk := do
  let s ← get
  pure s.disk

def setDisk (disk : Disk) : Execution Unit :=
  modify fun s => { s with disk }

def writeText (path : Path) (text : String) : Execution Unit := do
  let before ← disk
  match before.write path text with
  | .ok after => setDisk after
  | .error stop => throw (stop.failure path)

def debugPath (binary : Path) : Execution Path :=
  match debugFileFor binary with
  | some path => pure path
  | none => throw (.broken (.noDebugFile binary))

def symbols (binary : Path) : Execution (Catalog String Symbol) := do
  let path ← debugPath binary
  let d ← disk
  let records ← ofAttempt (openDebugInfo d path)
  ofLogged (extractSymbols path.toString records)

def config (c : Context) : Execution Config := do
  let d ← disk
  ofExcept (d.readConfig c.configPath)

def image (path : Path) : Execution Image := do
  let d ← disk
  let bytes ← ofExcept (d.readImageBytes path)
  pure ⟨bytes⟩

end Execution

open Execution

def referenceSide (c : Config) (image : Image) : ReferenceSide :=
  { image, functions := c.byName, addressOffset := c.addressOffset }

def rebuiltSide (image : Image) (symbols : Catalog String Symbol) : RebuiltSide :=
  { image, symbols, segmentOffset := defaultSegmentOffset }

def refreshRequest (c : Context) (config : Config)
    (reference rebuilt debugPath : Path) (name : String) : RefreshRequest :=
  { config, referencePath := reference, rebuiltPath := rebuilt, debugPath, name
    options := c.options, outputDir := c.settings.outputDir }

/-- Compare one function, again and again if it is watched. -/
def compareFunction (c : Context) (reference rebuilt : Path) (name : String)
    (watched : Bool) : Execution Unit := do
  let config ← config c
  let debugPath ← debugPath rebuilt
  let s ← get
  let watching :=
    Watch.run (refreshRequest c config reference rebuilt debugPath name)
      (debugFileOn s.disk debugPath)
      c.settings.watchPollInterval.toFloat
      (if watched then some c.observer else none)
  let ((outcome, _), after) ← ofLogged
    ((watching.run.run []).run
      { disk := s.disk, last := none, printed := [], reads := 0 })
  setDisk after.disk
  after.printed.forM fun text => print (.line text)
  Execution.ofExcept outcome

def referenceFullName : String := "orig_full.asm"
def rebuiltFullName : String := "compare_full.asm"

/-- Write a listing of which nothing is known before its file is open. -/
def writeListing (c : Context) (fileName : String)
    (blocks : Logged (List ListingBlock)) : Execution Unit := do
  let path := c.settings.outputDir.child fileName
  writeText path ""
  let blocks ← ofLogged blocks
  writeText path (listingText blocks)
  print (.line (listingSummary blocks.length path))

def listFunctions (c : Context) (binary : Path) (isReference : Bool) :
    Execution Unit := do
  let config ← config c
  let image ← image binary
  if isReference then
    writeListing c referenceFullName
      (referenceListing c.options.lines (referenceSide config image)
        config.functions)
  else do
    let symbols ← symbols binary
    writeListing c rebuiltFullName
      (rebuiltListing c.options.lines c.options.truncateToReference
        (rebuiltSide image symbols) config.functions)

def writeReport (directory : Path) (root : Report.Node) : Execution Unit := do
  let before ← disk
  let (after, stop) := Report.write before directory root
  setDisk after
  match stop with
  | none => pure ()
  | some stop => throw (stop.failure directory)

def reportFunctions (c : Context) (reference rebuilt : Path)
    (directory : Option Path) : Execution Unit := do
  let config ← config c
  let symbols ← symbols rebuilt
  let referenceImage ← image reference
  let rebuiltImage ← image rebuilt
  let reports ← ofLogged
    (compareAll c.options (referenceSide config referenceImage)
      (rebuiltSide rebuiltImage symbols))
  let root := Report.treeOf reports
  let directory := directory.getD c.settings.reportDir
  writeReport directory root
  print (.table (reportTable reports))
  print (.line (reportSummary root directory))

def Command.execution (c : Context) : Command → Execution Unit
  | .compare reference rebuilt name watch =>
    compareFunction c reference rebuilt name watch
  | .list binary isReference => listFunctions c binary isReference
  | .report reference rebuilt directory =>
    reportFunctions c reference rebuilt directory

/-- The paths at which the state of the files decides what a command does. -/
def Command.places (c : Context) : Command → List Path
  | .compare reference rebuilt _ _ =>
    [c.configPath, reference, rebuilt] ++ (debugFileFor rebuilt).toList ++
      outputs [referenceListingName, rebuiltListingName]
  | .list binary _ =>
    [c.configPath, binary] ++ (debugFileFor binary).toList ++
      outputs [referenceFullName, rebuiltFullName]
  | .report reference rebuilt directory =>
    [c.configPath, reference, rebuilt] ++ (debugFileFor rebuilt).toList ++
      [directory.getD c.settings.reportDir]
where
  /-- The output directory and files in it. -/
  outputs (names : List String) : List Path :=
    c.settings.outputDir ::
      names.map fun name => c.settings.outputDir.child name

/-- The comparison that a command watches, where that can begin. -/
def Command.watched? (c : Context) (disk : Disk) :
    Command → Option RefreshRequest
  | .compare reference rebuilt name true =>
    match disk.readConfig c.configPath, debugFileFor rebuilt with
    | .ok config, some debugPath =>
      some (refreshRequest c config reference rebuilt debugPath name)
    | _, _ => none
  | _ => none

end BinMatch.CommandLine
