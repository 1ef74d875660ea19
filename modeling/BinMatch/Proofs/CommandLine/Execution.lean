import BinMatch.CommandLine.Run
import BinMatch.Proofs.Report.Output
import BinMatch.Proofs.Watch.Loop

/-!
# A command looks before it writes

A command that is carried out once reads its inputs and works out everything that it has to
say before it writes the first file.  What stands in the way of a listing or a comparison
of one function among many is part of what it has to say.
-/

namespace BinMatch

namespace CommandLine

/-! ## What an execution ends in -/

namespace Execution

variable {α β : Type} {s s' : Session}

/-- What an execution started in `s` ends in and the state behind it, its remarks left
out. -/
def outcome (x : Execution α) (s : Session) : Except Failure α × Session :=
  (x.run.run s).value

theorem outcome_bind_of_ok {x : Execution α} {a : α} (h : x.outcome s = (.ok a, s'))
    (f : α → Execution β) : (x >>= f).outcome s = (f a).outcome s' :=
  Logged.value_run_run_bind_of_ok h f

theorem outcome_bind_of_error {x : Execution α} {e : Failure} (h : x.outcome s = (.error e, s'))
    (f : α → Execution β) : (x >>= f).outcome s = (.error e, s') :=
  Logged.value_run_run_bind_of_error h f

theorem outcome_print (p : Printed) (s : Session) :
    (print p).outcome s = (.ok (), { s with printed := s.printed ++ [p] }) := rfl

theorem outcome_writeText (path : Path) (text : String) (s : Session) :
    (writeText path text).outcome s =
      match s.disk.write path text with
      | .ok disk => (.ok (), { s with disk })
      | .error stop => (.error (stop.failure path), s) := by
  have hdisk : disk.outcome s = (.ok s.disk, s) := rfl
  unfold writeText
  rw [outcome_bind_of_ok hdisk]
  cases s.disk.write path text <;> rfl

/-- The execution leaves everything as it is, and what it ends in is read off the disk. -/
def Looks (x : Execution α) (r : Disk → Except Failure α) : Prop :=
  ∀ s, x.outcome s = (r s.disk, s)

theorem Looks.outcome_bind {x : Execution α} {r : Disk → Except Failure α} (hx : x.Looks r)
    (f : α → Execution β) (s : Session) : (x >>= f).outcome s =
      match r s.disk with
      | .ok a => (f a).outcome s
      | .error e => (.error e, s) := by
  have h := hx s
  cases hr : r s.disk with
  | ok a => exact outcome_bind_of_ok (hr ▸ h) f
  | error e => exact outcome_bind_of_error (hr ▸ h) f

theorem Looks.bind {x : Execution α} {r : Disk → Except Failure α} (hx : x.Looks r)
    {f : α → Execution β} {q : α → Disk → Except Failure β}
    (hf : ∀ a, (f a).Looks (q a)) :
    (x >>= f).Looks fun d => r d >>= fun a => q a d := by
  intro s
  rw [hx.outcome_bind]
  dsimp only
  cases r s.disk with
  | ok a => exact hf a s
  | error e => rfl

theorem looks_disk : disk.Looks .ok := fun _ => rfl

theorem looks_pure (a : α) : (pure a : Execution α).Looks fun _ => .ok a := fun _ => rfl

theorem looks_ofLogged (x : Logged α) : (ofLogged x).Looks fun _ => .ok x.value := fun _ => rfl

theorem looks_ofExcept (x : Except Failure α) : (ofExcept x).Looks fun _ => x := by
  intro s
  cases x <;> rfl

theorem looks_ofAttempt (x : Attempt α) : (ofAttempt x).Looks fun _ => x.result :=
  (looks_ofLogged x.run).bind looks_ofExcept

end Execution

end CommandLine

/-! ## What a command finds -/

def debugFileOf (binary : Path) : Except Failure Path :=
  match debugFileFor binary with
  | some path => .ok path
  | none => .error (.broken (.noDebugFile binary))

def Disk.readSymbols (disk : Disk) (binary : Path) : Except Failure (Catalog String Symbol) := do
  let path ← debugFileOf binary
  let records ← disk.readDebugFile path
  pure (extractSymbols path.toString records).value

def Disk.readImage (disk : Disk) (path : Path) : Except Failure Image := do
  let bytes ← disk.readImageBytes path
  pure ⟨bytes⟩

theorem result_openDebugInfo (disk : Disk) (path : Path) :
    (openDebugInfo disk path).result = disk.readDebugFile path := by
  unfold openDebugInfo Attempt.tell
  rw [Attempt.result_bind, Attempt.result_lift, Attempt.result_ofExcept]
  rfl

theorem result_debugFileOn (disk : Disk) (path : Path) (n : Nat) :
    (debugFileOn disk path n).result =
      disk.readDebugFile path >>= fun records => .ok (path.toString, records) := by
  unfold debugFileOn
  rw [Attempt.result_bind, result_openDebugInfo]
  rfl

namespace CommandLine

namespace Execution

theorem looks_config (c : Context) : (config c).Looks fun d => d.readConfig c.configPath :=
  looks_disk.bind fun _ => looks_ofExcept _

theorem looks_image (path : Path) : (image path).Looks (·.readImage path) :=
  looks_disk.bind fun d => (looks_ofExcept (d.readImageBytes path)).bind fun bytes =>
    looks_pure (Image.mk bytes)

theorem looks_debugPath (binary : Path) : (debugPath binary).Looks fun _ => debugFileOf binary := by
  intro s
  unfold debugPath debugFileOf
  cases debugFileFor binary <;> rfl

theorem looks_symbols (binary : Path) : (symbols binary).Looks (·.readSymbols binary) := by
  have hlook := (looks_debugPath binary).bind fun path => looks_disk.bind fun d =>
    (looks_ofAttempt (openDebugInfo d path)).bind fun records =>
      looks_ofLogged (extractSymbols path.toString records)
  simp only [result_openDebugInfo] at hlook
  exact hlook

end Execution

/-- What a command has found and goes on to write. -/
inductive Work where
  | comparison (r : RefreshRequest) (f : RefreshRequest.Finding)
  | listing (file : Path) (blocks : List ListingBlock)
  | report (directory : Path) (reports : List FunctionReport)

namespace Work

open Execution in
def write : Work → Execution Unit
  | comparison r f => do
    writeText r.referenceListing f.diff.oldText
    writeText r.rebuiltListing f.diff.newText
    print (.line (r.describe none f.symbol f.declared))
  | listing file blocks => do
    writeText file ""
    writeText file (listingText blocks)
    print (.line (listingSummary blocks.length file))
  | report directory reports => do
    writeReport directory (Report.treeOf reports)
    print (.table (reportTable reports))
    print (.line (reportSummary (Report.treeOf reports) directory))

/-- The paths that an error in writing is reported for. -/
def outputs : Work → List Path
  | comparison r _ => [r.referenceListing, r.rebuiltListing]
  | listing file _ => [file]
  | report directory _ => [directory]

end Work

namespace Command

/-- What a command that is carried out once finds on a disk. -/
def look (c : Context) (disk : Disk) : Command → Except Failure Work
  | .compare reference rebuilt name _ => do
    let config ← disk.readConfig c.configPath
    let debugPath ← debugFileOf rebuilt
    let r := refreshRequest c config reference rebuilt debugPath name
    let f ← r.finding ⟨disk, debugFileOn disk debugPath 0⟩
    pure (.comparison r f)
  | .list binary isReference => do
    let config ← disk.readConfig c.configPath
    let image ← disk.readImage binary
    if isReference then
      let blocks := referenceListing c.options.lines (referenceSide config image) config.functions
      pure (.listing (c.settings.outputDir.child referenceFullName) blocks.value)
    else
      let symbols ← disk.readSymbols binary
      let blocks := rebuiltListing c.options.lines c.options.truncateToReference
        (rebuiltSide image symbols) config.functions
      pure (.listing (c.settings.outputDir.child rebuiltFullName) blocks.value)
  | .report reference rebuilt directory => do
    let config ← disk.readConfig c.configPath
    let symbols ← disk.readSymbols rebuilt
    let referenceImage ← disk.readImage reference
    let rebuiltImage ← disk.readImage rebuilt
    let reports := compareAll c.options (referenceSide config referenceImage)
      (rebuiltSide rebuiltImage symbols)
    pure (.report (directory.getD c.settings.reportDir) reports.value)

def watches : Command → Bool
  | .compare _ _ _ watch => watch
  | _ => false

end Command

namespace Execution

/-- The execution looks, and then it writes what it found. -/
def Does (x : Execution Unit) (look : Disk → Except Failure Work) : Prop :=
  ∀ s, x.outcome s =
    match look s.disk with
    | .ok work => work.write.outcome s
    | .error e => (.error e, s)

theorem does_write (work : Work) : work.write.Does fun _ => .ok work := fun _ => rfl

theorem Looks.does {α : Type} {x : Execution α} {r : Disk → Except Failure α} (hx : x.Looks r)
    {f : α → Execution Unit} {look : α → Disk → Except Failure Work}
    (hf : ∀ a, (f a).Does (look a)) : (x >>= f).Does fun d => r d >>= fun a => look a d := by
  intro s
  rw [hx.outcome_bind]
  dsimp only
  cases r s.disk with
  | ok a => exact hf a s
  | error e => rfl

theorem does_writeListing (c : Context) (name : String) (blocks : Logged (List ListingBlock)) :
    (writeListing c name blocks).Does
      fun _ => .ok (.listing (c.settings.outputDir.child name) blocks.value) := by
  intro s
  unfold writeListing
  dsimp only [Work.write]
  rcases hopen : (writeText (c.settings.outputDir.child name) "").outcome s with ⟨e | _, t⟩
  · rw [outcome_bind_of_error hopen, outcome_bind_of_error hopen]
  · rw [outcome_bind_of_ok hopen, outcome_bind_of_ok hopen, (looks_ofLogged blocks).outcome_bind]

theorem does_list (c : Context) (binary : Path) (isReference : Bool) :
    (listFunctions c binary isReference).Does
      fun d => (Command.list binary isReference).look c d := by
  refine (looks_config c).does fun config => (looks_image binary).does fun image => ?_
  cases isReference with
  | true => exact does_writeListing c referenceFullName _
  | false => exact (looks_symbols binary).does fun symbols => does_writeListing c rebuiltFullName _

theorem outcome_run_once (r : RefreshRequest) (debugFile : DebugFile) (interval : Float)
    (t : RefreshState) :
    (Watch.run r debugFile interval none).outcome [] t =
      (((r.runOn ⟨t.disk, debugFile t.reads⟩ t).1.map fun _ => (), []),
        (r.runOn ⟨t.disk, debugFile t.reads⟩ t).2) := by
  have hrun := Watch.Watching.outcome_ofRefresh (r.runOnce debugFile) [] t
  rw [r.outcome_runOnce] at hrun
  unfold Watch.run
  rw [Watch.Watching.outcome_bind_of_ok hrun]
  cases (r.runOn ⟨t.disk, debugFile t.reads⟩ t).1 <;> rfl

theorem outcome_printAll (lines : List String) (s : Session) :
    (lines.forM fun text => print (.line text) : Execution PUnit).outcome s =
      (.ok ⟨⟩, { s with printed := s.printed ++ lines.map .line }) := by
  induction lines generalizing s with
  | nil =>
    rw [List.map_nil, List.append_nil]
    rfl
  | cons line lines ih =>
    rw [List.map_cons, List.append_cons]
    exact (outcome_bind_of_ok (outcome_print (.line line) s) _).trans (ih _)

theorem outcome_get_bind {α : Type} (f : Session → Execution α) (s : Session) :
    (get >>= f : Execution α).outcome s = (f s).outcome s := rfl

theorem outcome_setDisk_bind {α : Type} (f : Unit → Execution α) (disk : Disk) (s : Session) :
    (setDisk disk >>= f).outcome s = (f ()).outcome { s with disk } := rfl

/-- A first run writes what it found as a command does. -/
theorem outcome_write_comparison (r : RefreshRequest) (f : RefreshRequest.Finding) (reads : Nat)
    (s : Session) :
    (Work.comparison r f).write.outcome s =
      (((r.commit f).outcome ⟨s.disk, none, [], reads⟩).1,
        ⟨((r.commit f).outcome ⟨s.disk, none, [], reads⟩).2.disk,
          s.printed ++
            ((r.commit f).outcome ⟨s.disk, none, [], reads⟩).2.printed.map .line⟩) := by
  have hreference := outcome_writeText r.referenceListing f.diff.oldText s
  rw [r.outcome_commit_eq]
  dsimp only [Work.write]
  cases hfirst : s.disk.write r.referenceListing f.diff.oldText with
  | error stop =>
    rw [hfirst] at hreference
    rw [outcome_bind_of_error hreference, List.map_nil, List.append_nil]
  | ok disk =>
    rw [hfirst] at hreference
    rw [outcome_bind_of_ok hreference]
    have hrebuilt := outcome_writeText r.rebuiltListing f.diff.newText { s with disk }
    dsimp only at hrebuilt ⊢
    cases hsecond : disk.write r.rebuiltListing f.diff.newText with
    | error stop =>
      rw [hsecond] at hrebuilt
      rw [outcome_bind_of_error hrebuilt, List.map_nil, List.append_nil]
    | ok disk' =>
      rw [hsecond] at hrebuilt
      rw [outcome_bind_of_ok hrebuilt]
      rfl

theorem does_compare (c : Context) (reference rebuilt : Path) (name : String) :
    (compareFunction c reference rebuilt name false).Does
      fun d => (Command.compare reference rebuilt name false).look c d := by
  refine (looks_config c).does fun config => (looks_debugPath rebuilt).does fun debugPath => ?_
  intro s
  have hrun := outcome_run_once (refreshRequest c config reference rebuilt debugPath name)
    (debugFileOn s.disk debugPath) c.settings.watchPollInterval.toFloat ⟨s.disk, none, [], 0⟩
  unfold Watch.Watching.outcome at hrun
  rw [outcome_get_bind, (looks_ofLogged _).outcome_bind]
  dsimp only
  rw [if_neg Bool.false_ne_true, hrun]
  dsimp only
  rw [outcome_setDisk_bind, outcome_bind_of_ok (outcome_printAll _ _), looks_ofExcept]
  generalize refreshRequest c config reference rebuilt debugPath name = r
  obtain ⟨reads, heq⟩ := r.runOn_eq ⟨s.disk, debugFileOn s.disk debugPath 0⟩
    ⟨s.disk, none, [], 0⟩
  rw [heq]
  cases r.finding ⟨s.disk, debugFileOn s.disk debugPath 0⟩ with
  | error e => simp [Except.map]
  | ok f =>
    have hwrite := outcome_write_comparison r f reads s
    dsimp only
    rcases hcommit : (r.commit f).outcome ⟨s.disk, none, [], reads⟩ with ⟨e | _, t⟩
    · rw [hcommit] at hwrite
      rw [Refresh.outcome_bind_of_error hcommit]
      exact hwrite.symm
    · rw [hcommit] at hwrite
      rw [Refresh.outcome_bind_of_ok hcommit]
      exact hwrite.symm

theorem does_report (c : Context) (reference rebuilt : Path) (directory : Option Path) :
    (reportFunctions c reference rebuilt directory).Does
      fun d => (Command.report reference rebuilt directory).look c d := by
  refine (looks_config c).does fun config => (looks_symbols rebuilt).does fun symbols => ?_
  refine (looks_image reference).does fun referenceImage => ?_
  refine (looks_image rebuilt).does fun rebuiltImage => ?_
  exact (looks_ofLogged _).does fun reports =>
    does_write (.report (directory.getD c.settings.reportDir) reports)

/-- A command that does not watch looks first and then writes what it found. -/
theorem does_execution (c : Context) {command : Command} (h : command.watches = false) :
    (command.execution c).Does fun d => command.look c d := by
  cases command with
  | compare reference rebuilt name watch =>
    cases h
    exact does_compare c reference rebuilt name
  | list binary isReference => exact does_list c binary isReference
  | report reference rebuilt directory => exact does_report c reference rebuilt directory

end Execution

/-! ## What a command writes -/

namespace Execution

/-- What an execution prints when it is done, and what can stop it: a path that cannot be
written, reported for one of its outputs. -/
structure Writes (outputs paths : List Path) (x : Execution Unit) (lines : List Printed) :
    Prop where
  done : ∀ {s s' : Session}, x.outcome s = (.ok (), s') → s'.printed = s.printed ++ lines
  failed : ∀ {s s' : Session} {f : Failure}, x.outcome s = (.error f, s') →
    s'.printed = s.printed ∧ ∃ out ∈ outputs, ∃ stop : Disk.Stop, f = stop.failure out ∧
      (stop = .unnameable → ∃ path ∈ paths, path.isNameable = false)

section Writes

variable {outputs paths : List Path}

theorem Writes.bind {x y : Execution Unit} {lines : List Printed} (hx : Writes outputs paths x [])
    (hy : Writes outputs paths y lines) : Writes outputs paths (x >>= fun _ => y) lines := by
  refine ⟨fun {s s'} h => ?_, fun {s s' f} h => ?_⟩
  · rcases hfirst : x.outcome s with ⟨f | _, t⟩
    · rw [outcome_bind_of_error hfirst] at h
      cases h
    · rw [outcome_bind_of_ok hfirst] at h
      rw [hy.done h, hx.done hfirst, List.append_nil]
  · rcases hfirst : x.outcome s with ⟨g | _, t⟩
    · rw [outcome_bind_of_error hfirst] at h
      cases h
      exact hx.failed hfirst
    · rw [outcome_bind_of_ok hfirst] at h
      obtain ⟨hprinted, hstop⟩ := hy.failed h
      refine ⟨?_, hstop⟩
      rw [hprinted, hx.done hfirst, List.append_nil]

theorem writes_print (p : Printed) : Writes outputs paths (print p) [p] where
  done h := by
    cases h
    rfl
  failed h := by cases h

theorem writes_printTwo (p q : Printed) :
    Writes outputs paths (do print p; print q) [p, q] where
  done {s s'} h := by
    rw [outcome_bind_of_ok (outcome_print p s)] at h
    cases h
    exact List.append_assoc _ _ _
  failed {s s' f} h := by
    rw [outcome_bind_of_ok (outcome_print p s)] at h
    cases h

theorem writes_writeText {path : Path} (hout : path ∈ outputs) (hpath : path ∈ paths)
    (text : String) : Writes outputs paths (writeText path text) [] where
  done {s s'} h := by
    rw [outcome_writeText] at h
    split at h
    · cases h
      exact (List.append_nil _).symm
    · cases h
  failed {s s' f} h := by
    rw [outcome_writeText] at h
    split at h
    · cases h
    · rename_i stop hwrite
      cases h
      refine ⟨rfl, path, hout, stop, rfl, fun hnull => ?_⟩
      rw [hnull] at hwrite
      exact ⟨path, hpath, Disk.not_nameable_of_write hwrite⟩

theorem outcome_writeReport (directory : Path) (root : Report.Node) (s : Session) :
    (writeReport directory root).outcome s =
      (match (Report.write s.disk directory root).2 with
        | none => .ok ()
        | some stop => .error (stop.failure directory),
        { s with disk := (Report.write s.disk directory root).1 }) := by
  unfold writeReport
  rw [looks_disk.outcome_bind]
  dsimp only
  rcases Report.write s.disk directory root with ⟨after, _ | stop⟩ <;> rfl

theorem writes_writeReport {directory : Path} {root : Report.Node} (hout : directory ∈ outputs)
    (hpaths : directory :: (Report.placed directory root.files).map (·.1) ⊆ paths) :
    Writes outputs paths (writeReport directory root) [] where
  done {s s'} h := by
    rw [outcome_writeReport] at h
    rw [← (Prod.mk.inj h).2]
    exact (List.append_nil _).symm
  failed {s s' f} h := by
    rw [outcome_writeReport] at h
    obtain ⟨hf, rfl⟩ := Prod.mk.inj h
    split at hf
    · cases hf
    · rename_i stop hwrite
      cases hf
      refine ⟨rfl, directory, hout, stop, rfl, fun hnull => ?_⟩
      rw [hnull] at hwrite
      obtain ⟨path, hpath, hnot⟩ := Report.not_nameable_of_write hwrite
      exact ⟨path, hpaths hpath, hnot⟩

end Writes

end Execution

namespace Work

def paths : Work → List Path
  | comparison r _ => [r.referenceListing, r.rebuiltListing]
  | listing file _ => [file]
  | report directory reports =>
    directory :: (Report.placed directory (Report.treeOf reports).files).map (·.1)

def summary : Work → List Printed
  | comparison r f => [.line (r.describe none f.symbol f.declared)]
  | listing file blocks => [.line (listingSummary blocks.length file)]
  | report directory reports =>
    [.table (reportTable reports), .line (reportSummary (Report.treeOf reports) directory)]

open Execution

theorem writes_write (work : Work) : Writes work.outputs work.paths work.write work.summary := by
  cases work with
  | comparison r f =>
    have hfirst : r.referenceListing ∈ [r.referenceListing, r.rebuiltListing] :=
      List.mem_cons_self
    have hsecond : r.rebuiltListing ∈ [r.referenceListing, r.rebuiltListing] :=
      List.mem_cons_of_mem _ List.mem_cons_self
    exact (writes_writeText hfirst hfirst _).bind
      ((writes_writeText hsecond hsecond _).bind (writes_print _))
  | listing file blocks =>
    have hfile : file ∈ [file] := List.mem_singleton_self file
    exact (writes_writeText hfile hfile _).bind
      ((writes_writeText hfile hfile _).bind (writes_print _))
  | report directory reports =>
    exact (writes_writeReport (List.mem_singleton_self directory) (List.Subset.refl _)).bind
      (writes_printTwo _ _)

end Work

namespace Command

variable {c : Context} {disk : Disk} {command : Command} {work : Work}

/-- The paths that errors in writing are reported for. -/
def outputs (c : Context) : Command → List Path
  | .compare .. =>
    [c.settings.outputDir.child referenceListingName,
      c.settings.outputDir.child rebuiltListingName]
  | .list _ isReference =>
    [c.settings.outputDir.child (if isReference then referenceFullName else rebuiltFullName)]
  | .report _ _ directory => [directory.getD c.settings.reportDir]

theorem outputs_of_look (h : command.look c disk = .ok work) :
    work.outputs = command.outputs c := by
  cases command with
  | compare reference rebuilt name watch =>
    simp only [look, except_bind_eq_ok_iff] at h
    obtain ⟨config, -, debugPath, -, f, -, ⟨⟩⟩ := h
    rfl
  | list binary isReference =>
    simp only [look, except_bind_eq_ok_iff] at h
    obtain ⟨config, -, image, -, hwork⟩ := h
    cases isReference with
    | true =>
      cases hwork
      rfl
    | false =>
      obtain ⟨symbols, -, ⟨⟩⟩ := except_bind_eq_ok_iff.mp hwork
      rfl
  | report reference rebuilt directory =>
    simp only [look, except_bind_eq_ok_iff] at h
    obtain ⟨config, -, symbols, -, referenceImage, -, rebuiltImage, -, ⟨⟩⟩ := h
    rfl

/-! ## What a command needs -/

def images : Command → List Path
  | .compare reference rebuilt _ _ | .report reference rebuilt _ => [reference, rebuilt]
  | .list binary _ => [binary]

/-- The binaries whose debug files are read. -/
def debugged : Command → List Path
  | .compare _ rebuilt _ _ | .report _ rebuilt _ => [rebuilt]
  | .list binary isReference => if isReference then [] else [binary]

/-- The command is about all declared functions. -/
def sweeps : Command → Bool
  | .compare .. => false
  | .list .. | .report .. => true

/-- The configuration, the images and the debug file can be read. -/
structure Readable (c : Context) (disk : Disk) (command : Command) : Prop where
  config : ∃ config, disk.readConfig c.configPath = .ok config
  images : ∀ path ∈ command.images, ∃ image, disk.readImage path = .ok image
  symbols : ∀ binary ∈ command.debugged, ∃ symbols, disk.readSymbols binary = .ok symbols

theorem readable_of_look (h : command.look c disk = .ok work) : command.Readable c disk := by
  cases command with
  | compare reference rebuilt name watch =>
    simp only [look, except_bind_eq_ok_iff] at h
    obtain ⟨config, hconfig, debugPath, hpath, f, hfinding, -⟩ := h
    obtain ⟨path, records, reference', rebuilt', hdebug, -, href, hreb, -⟩ :=
      (((refreshRequest c config reference rebuilt debugPath name).finding_eq_ok_iff).mp
        hfinding).compared
    rw [result_debugFileOn] at hdebug
    obtain ⟨read, hread, -⟩ := except_bind_eq_ok_iff.mp hdebug
    have himage : ∀ {path bytes}, disk.readImageBytes path = .ok bytes →
        ∃ image, disk.readImage path = .ok image :=
      fun hbytes => ⟨_, except_bind_eq_ok_iff.mpr ⟨_, hbytes, rfl⟩⟩
    have hsymbols : disk.readSymbols rebuilt =
        .ok (extractSymbols debugPath.toString read).value :=
      except_bind_eq_ok_iff.mpr
        ⟨debugPath, hpath, except_bind_eq_ok_iff.mpr ⟨read, hread, rfl⟩⟩
    refine ⟨⟨config, hconfig⟩, ?_, List.forall_mem_singleton.mpr ⟨_, hsymbols⟩⟩
    exact List.forall_mem_cons.mpr
      ⟨himage href, List.forall_mem_singleton.mpr (himage hreb)⟩
  | list binary isReference =>
    simp only [look, except_bind_eq_ok_iff] at h
    obtain ⟨config, hconfig, image, himage, hwork⟩ := h
    refine ⟨⟨config, hconfig⟩, List.forall_mem_singleton.mpr ⟨image, himage⟩, ?_⟩
    cases isReference with
    | true => exact fun _ hmem => absurd hmem List.not_mem_nil
    | false =>
      obtain ⟨symbols, hsymbols, -⟩ := except_bind_eq_ok_iff.mp hwork
      exact List.forall_mem_singleton.mpr ⟨symbols, hsymbols⟩
  | report reference rebuilt directory =>
    simp only [look, except_bind_eq_ok_iff] at h
    obtain ⟨config, hconfig, symbols, hsymbols, reference', href, rebuilt', hreb, -⟩ := h
    refine ⟨⟨config, hconfig⟩, ?_, List.forall_mem_singleton.mpr ⟨symbols, hsymbols⟩⟩
    exact List.forall_mem_cons.mpr ⟨⟨_, href⟩, List.forall_mem_singleton.mpr ⟨_, hreb⟩⟩

/-- Nothing but its inputs keeps a sweep from finding what it is to write. -/
theorem look_of_readable (hsweep : command.sweeps = true) (h : command.Readable c disk) :
    ∃ work, command.look c disk = .ok work := by
  obtain ⟨⟨config, hconfig⟩, himages, hsymbols⟩ := h
  cases command with
  | compare => cases hsweep
  | list binary isReference =>
    obtain ⟨image, himage⟩ := himages binary (List.mem_singleton_self binary)
    simp only [look, hconfig, himage]
    cases isReference with
    | true => exact ⟨_, rfl⟩
    | false =>
      obtain ⟨symbols, hread⟩ := hsymbols binary (List.mem_singleton_self binary)
      rw [hread]
      exact ⟨_, rfl⟩
  | report reference rebuilt directory =>
    obtain ⟨image, href⟩ := himages reference List.mem_cons_self
    obtain ⟨image', hreb⟩ := himages rebuilt (List.mem_cons_of_mem _ List.mem_cons_self)
    obtain ⟨symbols, hread⟩ := hsymbols rebuilt (List.mem_singleton_self rebuilt)
    simp only [look, hconfig, href, hreb, hread]
    exact ⟨_, rfl⟩

end Command

end CommandLine

end BinMatch
