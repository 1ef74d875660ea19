import BinMatch.Proofs.CommandLine.Run
import BinMatch.Proofs.Comparison.Sweep

/-!
# What breaks a run off

A run reports the errors of everything that it reads, compares and writes.  It is broken off
by settings that are unfit, by an odd document, by a binary that cannot have a debug file,
and by null characters in names.
-/

namespace BinMatch

/-! ## Failures that are reported -/

/-- Whatever goes wrong is an error for the user. -/
def Handled {α : Type} (r : Except Failure α) : Prop :=
  ∀ cause, r ≠ .error (.broken cause)

section Handled

variable {α β : Type}

theorem handled_ok (a : α) : Handled (.ok a) := by
  rintro cause ⟨⟩

theorem handled_reported (e : Error) : Handled (.error (.reported e) : Except Failure α) := by
  rintro cause ⟨⟩

theorem handled_mapError (r : Except Error α) : Handled (r.mapError .reported) := by
  cases r with
  | error e => exact handled_reported e
  | ok a => exact handled_ok a

theorem Handled.bind {r : Except Failure α} {f : α → Except Failure β} (hr : Handled r)
    (hf : ∀ a, r = .ok a → Handled (f a)) : Handled (r >>= f) := by
  cases r with
  | error e => exact fun cause h => hr cause (congrArg _ (Except.error.inj h))
  | ok a => exact hf a rfl

theorem handled_failure {stop : Disk.Stop} (h : stop ≠ .unnameable) (path : Path) :
    Handled (.error (stop.failure path) : Except Failure α) := by
  cases stop with
  | failed cause => exact handled_reported _
  | unnameable => exact absurd rfl h

end Handled

/-! ## Paths without null characters -/

/-- No null character is part of the name. -/
def NameableName (name : String) : Prop :=
  '\x00' ∉ name.toList

instance (name : String) : Decidable (NameableName name) :=
  inferInstanceAs (Decidable (_ ∉ _))

theorem nameableName_append {name suffix : String} (hname : NameableName name)
    (hsuffix : NameableName suffix) : NameableName (name ++ suffix) := by
  unfold NameableName at *
  rw [String.toList_append, List.mem_append]
  exact not_or.mpr ⟨hname, hsuffix⟩

theorem nameableName_pageName {name : String} (h : NameableName name) :
    NameableName (Report.pageName name) := by
  intro hnull
  rw [Report.pageName, String.toList_ofList] at hnull
  obtain ⟨c, hc, hmapped⟩ := List.mem_map.mp hnull
  split at hmapped
  · cases hmapped
  · exact h (hmapped ▸ hc)

namespace Path

variable {p q : Path}

theorem isNameable_iff : p.isNameable = true ↔ ∀ part ∈ p.parts, NameableName part := by
  unfold isNameable NameableName
  simp only [List.all_eq_true, decide_eq_true_eq, List.forall_mem_ne']

theorem isNameable_child {name : String} (hp : p.isNameable = true) (hname : NameableName name) :
    (p.child name).isNameable = true := by
  rw [isNameable_iff] at hp ⊢
  exact List.forall_mem_append.mpr ⟨hp, List.forall_mem_singleton.mpr hname⟩

theorem isNameable_withSuffix {suffix : String} (hp : p.isNameable = true)
    (hsuffix : NameableName suffix) (h : p.withSuffix? suffix = some q) : q.isNameable = true := by
  rw [isNameable_iff] at hp ⊢
  unfold withSuffix? at h
  cases hlast : p.parts.getLast? with
  | none =>
    rw [hlast] at h
    cases h
  | some name =>
    rw [hlast] at h
    cases h
    refine List.forall_mem_append.mpr ⟨fun part hpart => ?_, List.forall_mem_singleton.mpr ?_⟩
    · exact hp part (List.dropLast_subset _ hpart)
    · refine nameableName_append (fun hnull => ?_) hsuffix
      rw [String.toList_ofList] at hnull
      exact hp name (List.mem_of_getLast? hlast) (List.take_subset _ _ hnull)

end Path

namespace Disk

variable {disk : Disk} {p : Path}

theorem handled_of_read {α : Type} {stop : Stop} (hp : p.isNameable = true)
    (h : disk.read p = .error stop) : Handled (.error (stop.failure p) : Except Failure α) := by
  refine handled_failure (fun hnull => ?_) p
  rw [hnull] at h
  exact absurd hp (Bool.eq_false_iff.mp (not_nameable_of_stop h))

theorem handled_readImageBytes (hp : p.isNameable = true) : Handled (disk.readImageBytes p) := by
  unfold readImageBytes
  cases hread : disk.read p with
  | ok content => exact handled_ok _
  | error stop => exact handled_of_read hp hread

theorem handled_readImage (hp : p.isNameable = true) : Handled (disk.readImage p) :=
  (handled_readImageBytes hp).bind fun _ _ => handled_ok _

/-- The path and its components are short enough to look for a file there. -/
def ShortEnough (p : Path) : Prop :=
  p.toString.utf8ByteSize ≤ longestPath ∧
    ∀ part ∈ p.parts, part.utf8ByteSize ≤ longestName

instance (p : Path) : Decidable (ShortEnough p) :=
  inferInstanceAs (Decidable (_ ∧ _))

theorem obstacle?_ne_nameTooLong (h : ShortEnough p) :
    disk.obstacle? p ≠ some .nameTooLong := by
  unfold obstacle?
  rw [if_neg (Nat.not_lt.mpr h.1)]
  intro hlong
  obtain ⟨⟨dir, part⟩, hmem, hpart⟩ := List.exists_of_findSome?_eq_some hlong
  have hshort := h.2 part (List.of_mem_zip hmem).2
  dsimp only at hpart
  split at hpart
  · rw [nameObstacle?, if_neg (Nat.not_lt.mpr hshort)] at hpart
    cases hpart
  · cases hpart
  · cases hpart

theorem handled_readDebugFile (hp : p.isNameable = true) (hshort : ShortEnough p) :
    Handled (disk.readDebugFile p) := by
  have hobstacle : disk.obstacle? p ≠ some .nameTooLong := obstacle?_ne_nameTooLong hshort
  have hreach : ¬ (p.isNameable && decide (disk.obstacle? p = some .nameTooLong)) = true := by
    rw [hp, Bool.true_and, decide_eq_true_eq]
    exact hobstacle
  unfold readDebugFile
  rw [if_neg hreach]
  split
  · split
    · rename_i stop hread
      exact handled_of_read hp hread
    · split
      · exact handled_reported _
      · exact handled_ok _
  · exact handled_reported _

theorem handled_readSymbols {binary path : Path} (hpath : debugFileFor binary = some path)
    (hbinary : binary.isNameable = true) (hshort : ShortEnough path) :
    Handled (disk.readSymbols binary) := by
  have hp := Path.isNameable_withSuffix hbinary (by decide) hpath
  have hfile : debugFileOf binary = .ok path := by rw [debugFileOf, hpath]
  unfold readSymbols
  rw [hfile]
  exact (handled_readDebugFile hp hshort).bind fun _ _ => handled_ok _

/-- The text at the path has no number and no nesting beyond what a document may hold. -/
def PlainDocument (disk : Disk) (p : Path) : Prop :=
  ∀ content text, disk.read p = .ok content →
    String.fromUTF8? ⟨content.bytes.toArray⟩ = some text →
    Toml.Document.parse text ≠ .error .numberTooLong ∧
      Toml.Document.parse text ≠ .error .nestedTooDeep

theorem handled_readConfig (hp : p.isNameable = true) (hplain : disk.PlainDocument p) :
    Handled (disk.readConfig p) := by
  unfold readConfig
  cases hread : disk.read p with
  | error stop => exact handled_of_read hp hread
  | ok content =>
    dsimp only [Config.ofBytes]
    split
    · exact handled_reported _
    · rename_i document hdocument
      obtain ⟨hnumber, hnested⟩ := hplain content document hread hdocument
      split
      · exact handled_reported _
      · rename_i hparse
        exact absurd hparse hnumber
      · rename_i hparse
        exact absurd hparse hnested
      · split
        · exact handled_ok _
        · exact handled_reported _

end Disk

namespace RefreshRequest

variable (r : RefreshRequest) {disk : Disk}

theorem handled_evaluate (href : r.referencePath.isNameable = true)
    (hreb : r.rebuiltPath.isNameable = true) (declared : Definition) (path : String)
    (records : List DebugRecord) :
    Handled (r.evaluate disk declared path records).result := by
  unfold evaluate
  rw [Attempt.result_bind, Attempt.result_lift]
  refine (handled_ok _).bind fun symbols _ => ?_
  cases symbols.get? r.name with
  | none => exact handled_reported _
  | some symbol =>
    simp only [Attempt.result_bind]
    refine (handled_ok _).bind fun symbol _ => ?_
    refine (Disk.handled_readImageBytes href).bind fun reference _ => ?_
    refine (Disk.handled_readImageBytes hreb).bind fun rebuilt _ => ?_
    exact (handled_mapError _).bind fun _ _ => handled_ok _

theorem handled_finding {debugPath : Path} (href : r.referencePath.isNameable = true)
    (hreb : r.rebuiltPath.isNameable = true) (hdebug : debugPath.isNameable = true)
    (hshort : Disk.ShortEnough debugPath) (n : Nat) :
    Handled (r.finding ⟨disk, debugFileOn disk debugPath n⟩) := by
  unfold finding look
  rw [Attempt.result_bind]
  refine (handled_mapError _).bind fun declared _ => ?_
  rw [Attempt.result_bind, result_debugFileOn]
  refine Handled.bind ?_ fun read _ => r.handled_evaluate href hreb _ _ _
  exact (Disk.handled_readDebugFile hdebug hshort).bind fun _ _ => handled_ok _

end RefreshRequest

namespace CommandLine

/-! ## Words of a command line -/

theorem GlobalOptions.nameable_of_read {words rest : List String} {options : GlobalOptions}
    (h : GlobalOptions.read words = .ok (options, rest)) :
    options.configPath.all (·.isNameable) = true := by
  unfold GlobalOptions.read at h
  split at h
  · cases h
  · split at h
    · cases h
    · split at h
      · rename_i hname
        cases h
        exact hname
      · cases h

theorem nameable_of_splitWords {words arguments : List String} {options : GlobalOptions}
    {verb : Verb} (h : splitWords words = .ok (options, verb, arguments)) :
    options.configPath.all (·.isNameable) = true := by
  obtain ⟨⟨options', rest⟩, hread, hrest⟩ := except_bind_eq_ok_iff.mp h
  have hname := GlobalOptions.nameable_of_read hread
  dsimp only at hrest
  split at hrest
  · cases hrest
  · split at hrest
    · cases hrest
      exact hname
    · obtain ⟨-, -, hthrow⟩ := except_bind_eq_ok_iff.mp hrest
      cases hthrow

theorem Command.nameable_of_read {verb : Verb} {arguments : List String} {command : Command}
    (h : Command.read verb arguments = .ok command) :
    ∀ path ∈ command.namedFiles, path.isNameable = true := by
  unfold Command.read at h
  split at h
  · cases h
  · split at h
    · cases h
    · split at h
      · split at h
        · rename_i hname
          cases h
          exact List.all_eq_true.mp hname
        · cases h
      · cases h

namespace Command

variable {c : Context} {disk : Disk} {command : Command} {work : Work}

/-- The documents, names and paths that a command meets are none of those that break it
off. -/
structure Orderly (c : Context) (disk : Disk) (command : Command) : Prop where
  document : disk.PlainDocument c.configPath
  debugFile : ∀ binary ∈ command.debugged, ∃ path,
    debugFileFor binary = some path ∧ Disk.ShortEnough path
  functions : ∀ reference rebuilt directory, command = .report reference rebuilt directory →
    ∀ config symbols, disk.readConfig c.configPath = .ok config →
      disk.readSymbols rebuilt = .ok symbols →
      ∀ name, name ∈ config.byName.keys ∨ name ∈ symbols.keys → NameableName name

theorem handled_look (hconfig : c.configPath.isNameable = true)
    (hfiles : ∀ path ∈ command.namedFiles, path.isNameable = true)
    (h : command.Orderly c disk) : Handled (command.look c disk) := by
  have hread := Disk.handled_readConfig hconfig h.document
  cases command with
  | compare reference rebuilt name watch =>
    obtain ⟨path, hpath, hshort⟩ := h.debugFile rebuilt (List.mem_singleton_self rebuilt)
    have href := hfiles reference List.mem_cons_self
    have hreb := hfiles rebuilt (List.mem_cons_of_mem _ List.mem_cons_self)
    have hdebug := Path.isNameable_withSuffix hreb (by decide) hpath
    have hfile : debugFileOf rebuilt = .ok path := by rw [debugFileOf, hpath]
    refine hread.bind fun config _ => ?_
    rw [hfile]
    exact (RefreshRequest.handled_finding _ href hreb hdebug hshort 0).bind
      fun _ _ => handled_ok _
  | list binary isReference =>
    have hbinary := hfiles binary (List.mem_singleton_self binary)
    refine hread.bind fun config _ => (Disk.handled_readImage hbinary).bind fun image _ => ?_
    cases isReference with
    | true => exact handled_ok _
    | false =>
      obtain ⟨path, hpath, hshort⟩ := h.debugFile binary (List.mem_singleton_self binary)
      exact (Disk.handled_readSymbols hpath hbinary hshort).bind fun _ _ => handled_ok _
  | report reference rebuilt directory =>
    obtain ⟨path, hpath, hshort⟩ := h.debugFile rebuilt (List.mem_singleton_self rebuilt)
    have href := hfiles reference List.mem_cons_self
    have hreb := hfiles rebuilt (List.mem_cons_of_mem _ List.mem_cons_self)
    refine hread.bind fun config _ => ?_
    refine (Disk.handled_readSymbols hpath hreb hshort).bind fun symbols _ => ?_
    refine (Disk.handled_readImage href).bind fun referenceImage _ => ?_
    exact (Disk.handled_readImage hreb).bind fun rebuiltImage _ => handled_ok _

theorem nameable_outputs (houtput : c.settings.outputDir.isNameable = true)
    (hreport : c.settings.reportDir.isNameable = true)
    (hfiles : ∀ path ∈ command.namedFiles, path.isNameable = true) :
    ∀ out ∈ command.outputs c, out.isNameable = true := by
  cases command with
  | compare reference rebuilt name watch =>
    refine List.forall_mem_cons.mpr ⟨?_, List.forall_mem_singleton.mpr ?_⟩
    · exact Path.isNameable_child houtput (by decide)
    · exact Path.isNameable_child houtput (by decide)
  | list binary isReference =>
    refine List.forall_mem_singleton.mpr (Path.isNameable_child houtput ?_)
    cases isReference <;> decide
  | report reference rebuilt directory =>
    refine List.forall_mem_singleton.mpr ?_
    cases directory with
    | none => exact hreport
    | some directory =>
      exact hfiles directory (List.mem_append_right _ (List.mem_singleton_self directory))

/-- Only a report on all functions writes pages. -/
theorem eq_report_of_look {directory : Path} {reports : List FunctionReport}
    (h : command.look c disk = .ok (.report directory reports)) :
    ∃ reference rebuilt chosen config symbols referenceImage rebuiltImage,
      command = .report reference rebuilt chosen ∧
      disk.readConfig c.configPath = .ok config ∧ disk.readSymbols rebuilt = .ok symbols ∧
      reports = (compareAll c.options (referenceSide config referenceImage)
        (rebuiltSide rebuiltImage symbols)).value := by
  cases command with
  | compare reference rebuilt name watch =>
    simp only [look, except_bind_eq_ok_iff] at h
    obtain ⟨config, -, debugPath, -, f, -, ⟨⟩⟩ := h
  | list binary isReference =>
    simp only [look, except_bind_eq_ok_iff] at h
    obtain ⟨config, -, image, -, hwork⟩ := h
    cases isReference with
    | true => cases hwork
    | false =>
      obtain ⟨symbols, -, ⟨⟩⟩ := except_bind_eq_ok_iff.mp hwork
  | report reference rebuilt chosen =>
    simp only [look, except_bind_eq_ok_iff] at h
    obtain ⟨config, hconfig, symbols, hsymbols, referenceImage, -, rebuiltImage, -, hwork⟩ := h
    cases hwork
    exact ⟨reference, rebuilt, chosen, config, symbols, referenceImage, rebuiltImage, rfl,
      hconfig, hsymbols, rfl⟩

theorem nameable_paths (houtputs : ∀ out ∈ command.outputs c, out.isNameable = true)
    (h : command.Orderly c disk) (hlook : command.look c disk = .ok work) :
    ∀ path ∈ work.paths, path.isNameable = true := by
  rw [← outputs_of_look hlook] at houtputs
  cases work with
  | comparison r f => exact houtputs
  | listing file blocks => exact houtputs
  | report directory reports =>
    have hdirectory := houtputs directory (List.mem_singleton_self directory)
    refine List.forall_mem_cons.mpr ⟨hdirectory, fun path hpath => ?_⟩
    obtain ⟨reference, rebuilt, chosen, config, symbols, image, image', rfl, hconfig, hsymbols,
      rfl⟩ := eq_report_of_look hlook
    rw [Report.placed, List.map_map] at hpath
    obtain ⟨file, hfile, rfl⟩ := List.mem_map.mp hpath
    refine Path.isNameable_child hdirectory ?_
    rcases Report.Node.mem_files_treeOf.mp (List.mem_map_of_mem hfile) with hindex |
      ⟨r, hr, -, k, hk, hname⟩
    · rw [hindex]
      decide
    · have hswept := mem_sweepNames.mp (map_name_compareAll ▸ List.mem_map_of_mem hr)
      have hnull := h.functions reference rebuilt chosen rfl config symbols hconfig hsymbols
        r.name hswept
      rw [hname]
      refine nameableName_append (nameableName_pageName hnull) ?_
      rcases List.mem_pair.mp hk with rfl | rfl <;> decide

end Command

/-! ## Runs that end properly -/

theorem toList_errorLine (e : Error) : (errorLine e).toList.take 2 = ['[', 'r'] := by
  simp [errorLine, String.toList_append]

theorem errorLine_ne_green (e : Error) (text : String) : errorLine e ≠ coloured "green" text := by
  intro h
  have hgreen : (coloured "green" text).toList.take 2 = ['[', 'g'] := by
    simp [coloured, String.toList_append]
  rw [← h, toList_errorLine] at hgreen
  exact absurd hgreen (by decide)

/-- What is printed about work that is done is no error. -/
theorem errorLine_not_mem_summary (work : Work) (e : Error) :
    .line (errorLine e) ∉ work.summary := by
  intro h
  cases work with
  | comparison r f =>
    have hline := Printed.line.inj (List.mem_singleton.mp h)
    have hfound : (r.describe none f.symbol f.declared).toList.take 2 = ['F', 'o'] := by
      unfold RefreshRequest.describe
      simp only [String.append_assoc]
      rw [String.toList_append]
      rfl
    rw [← hline, toList_errorLine] at hfound
    exact absurd hfound (by decide)
  | listing file blocks =>
    exact errorLine_ne_green e _ (Printed.line.inj (List.mem_singleton.mp h))
  | report directory reports =>
    rcases List.mem_pair.mp h with htable | hline
    · cases htable
    · exact errorLine_ne_green e _ (Printed.line.inj hline)

/-- A run that does not watch, with settings that are fit and nothing odd about its inputs,
ends without a message of its own: it succeeds, or it prints the one error that stopped it.
A console shows all of it if the marks in what is printed fit together. -/
theorem runs_end_properly {env : Environment} {words arguments : List String}
    {options : GlobalOptions} {verb : Verb} {command : Command} {settings : Settings}
    {threshold : Nat} (hwords : splitWords words = .ok (options, verb, arguments))
    (hcommand : Command.read verb arguments = .ok command) (hwatch : command.watches = false)
    (hsettings : env.settings = .ok settings)
    (hlevel : thresholdOf options settings = some threshold)
    (hconfig : settings.configPath.isNameable = true)
    (houtput : settings.outputDir.isNameable = true)
    (hreport : settings.reportDir.isNameable = true)
    (horderly : command.Orderly (contextOf env options settings) env.disk) :
    (run env words).crash = none ∧
      ((run env words).exitCode = 0 ∧ (∀ e, .line (errorLine e) ∉ (run env words).printed) ∨
        (run env words).exitCode = 1 ∧ ∃ e, (run env words).printed = [.line (errorLine e)]) ∧
      ∀ console : Console,
        (∀ p ∈ (run env words).printed, ∀ text ∈ p.marked, console.accepts text = true) →
          (run env words).shownOn console =
            ⟨(run env words).exitCode, (run env words).printed, none, none⟩ := by
  have hp : prepare env words = .ok ⟨contextOf env options settings, command, threshold⟩ := by
    simp only [prepare, hwords, hsettings, hlevel, hcommand]
  have hpath : (contextOf env options settings).configPath.isNameable = true := by
    have hchosen := nameable_of_splitWords hwords
    show (options.configPath.getD settings.configPath).isNameable = true
    cases hoption : options.configPath with
    | none => exact hconfig
    | some path => rwa [hoption] at hchosen
  have hfiles := Command.nameable_of_read hcommand
  have houtputs := Command.nameable_outputs (c := contextOf env options settings) houtput hreport
    hfiles
  suffices hend : (run env words).crash = none ∧
      ((run env words).exitCode = 0 ∧ (∀ e, .line (errorLine e) ∉ (run env words).printed) ∨
        (run env words).exitCode = 1 ∧
          ∃ e, (run env words).printed = [.line (errorLine e)]) by
    refine ⟨hend.1, hend.2, fun console haccepts => ?_⟩
    have hrefused := (Outcome.refused_shownOn_eq_none_iff console _).mpr haccepts
    rw [Outcome.shownOn_of_accepted hrefused, hend.1]
  cases hended : (Prepared.ended ⟨contextOf env options settings, command, threshold⟩
    env.disk).1 with
  | ok =>
    obtain ⟨hcrash, hexit, work, hprinted⟩ := run_of_done hp hwatch hended
    rw [hprinted]
    exact ⟨hcrash, .inl ⟨hexit, errorLine_not_mem_summary work⟩⟩
  | error f =>
    cases f with
    | reported e =>
      obtain ⟨hcrash, hexit, hprinted⟩ := run_of_reported hp hwatch hended
      exact ⟨hcrash, .inr ⟨hexit, e, hprinted⟩⟩
    | broken cause =>
      rcases Prepared.fails_cases hwatch hended with
        ⟨hlook, -⟩ | ⟨work, hlook, out, -, stop, hstop, hnull⟩
      · exact absurd hlook (Command.handled_look hpath hfiles horderly cause)
      · cases stop with
        | failed => cases hstop
        | unnameable =>
          obtain ⟨path, hmem, hnot⟩ := hnull rfl
          rw [Command.nameable_paths houtputs horderly hlook path hmem] at hnot
          cases hnot

def plainSettings : Settings where
  configPath := ⟨"", ["comparer-config.toml"]⟩
  outputDir := ⟨"", []⟩
  reportDir := ⟨"", ["report"]⟩
  watchPollInterval := .number 2.0
  resolveThunks := false
  logLevel := "WARNING"

theorem plainDocument_staleListing :
    staleListing.disk.PlainDocument plainSettings.configPath := by
  have hread : staleListing.disk.read plainSettings.configPath = .ok (.ofText "") := by
    decide +kernel
  have htext : String.fromUTF8? ⟨(File.ofText "").bytes.toArray⟩ = some "" := by decide +kernel
  have hparse : (Toml.Document.parse "").isOk = true := by decide +kernel
  intro content text hcontent hdocument
  cases hread.symm.trans hcontent
  cases htext.symm.trans hdocument
  refine ⟨fun herror => ?_, fun herror => ?_⟩ <;> rw [herror] at hparse <;> cases hparse

theorem listing_without_debug_file_ends_properly :
    (run staleListing ["generate-full", "a.exe"]).crash = none ∧
      ((run staleListing ["generate-full", "a.exe"]).exitCode = 0 ∨
        (run staleListing ["generate-full", "a.exe"]).exitCode = 1) ∧
      ((run staleListing ["generate-full", "a.exe"]).shownOn ⟨fun _ => true⟩).refused =
        none := by
  have hwords : splitWords ["generate-full", "a.exe"] = .ok ({}, .list, ["a.exe"]) := rfl
  have hcommand : Command.read .list ["a.exe"] = .ok (.list ⟨"", ["a.exe"]⟩ false) := by
    decide +kernel
  have hsettings : staleListing.settings = .ok plainSettings := rfl
  have hlevel : thresholdOf {} plainSettings = some LogLevel.warning.severity := by
    decide +kernel
  have horderly : (Command.list ⟨"", ["a.exe"]⟩ false).Orderly
      (contextOf staleListing {} plainSettings) staleListing.disk := by
    refine ⟨plainDocument_staleListing, ?_, by rintro reference rebuilt directory ⟨⟩⟩
    exact List.forall_mem_singleton.mpr
      ⟨⟨"", ["a.pdb"]⟩, by decide +kernel, by decide +kernel⟩
  obtain ⟨hcrash, hend, hshown⟩ := runs_end_properly hwords hcommand rfl hsettings hlevel
    (by decide) (by decide) (by decide) horderly
  refine ⟨hcrash, hend.imp And.left And.left, ?_⟩
  exact congrArg Outcome.Shown.refused (hshown ⟨fun _ => true⟩ fun _ _ _ _ => rfl)

theorem report_on_directory_breaks_off :
    ¬ ∀ (env : Environment) (words arguments : List String) (options : GlobalOptions)
      (verb : Verb) (command : Command), splitWords words = .ok (options, verb, arguments) →
      Command.read verb arguments = .ok command → command.watches = false →
      (run env words).crash = none := by
  intro hall
  have hnone := hall staleListing ["report", "a.exe", "."] ["a.exe", "."] {} .report
    (.report ⟨"", ["a.exe"]⟩ ⟨"", []⟩ none) rfl (by decide +kernel) rfl
  have hcrash : (run staleListing ["report", "a.exe", "."]).crash =
      some (.broken (.noDebugFile ⟨"", []⟩)) := by
    decide +kernel
  rw [hcrash] at hnone
  cases hnone

end CommandLine

end BinMatch
