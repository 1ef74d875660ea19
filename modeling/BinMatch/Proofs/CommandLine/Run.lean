import BinMatch.Proofs.CommandLine.Execution

/-!
# What a run of the command line leaves

A command that fails before it writes leaves every file as it was, and what cannot be
compared or listed fails no command that is about all functions.
-/

namespace BinMatch.CommandLine

open Execution

/-! ## The end of a run -/

namespace Outcome

variable {disk : Disk} {x : Execution Unit}

theorem disk_ofExecution (disk : Disk) (threshold : Nat) (x : Execution Unit) :
    (ofExecution disk threshold x).disk = (x.outcome ⟨disk, []⟩).2.disk := by
  have hvalue : (x.run.run { disk, printed := [] }).value = x.outcome ⟨disk, []⟩ := rfl
  simp only [ofExecution, hvalue]
  rcases x.outcome ⟨disk, []⟩ with ⟨(_ | _) | _, s⟩ <;> rfl

theorem ofExecution_ok (threshold : Nat) (h : (x.outcome ⟨disk, []⟩).1 = .ok ()) :
    (ofExecution disk threshold x).crash = none ∧
      (ofExecution disk threshold x).exitCode = 0 ∧
      (ofExecution disk threshold x).printed = (x.outcome ⟨disk, []⟩).2.printed := by
  have hvalue : (x.run.run { disk, printed := [] }).value =
      (.ok (), (x.outcome ⟨disk, []⟩).2) := Prod.ext h rfl
  simp only [ofExecution, hvalue, and_self]

theorem ofExecution_reported {e : Error} (threshold : Nat)
    (h : (x.outcome ⟨disk, []⟩).1 = .error (.reported e)) :
    (ofExecution disk threshold x).crash = none ∧
      (ofExecution disk threshold x).exitCode = 1 ∧
      (ofExecution disk threshold x).printed =
        (x.outcome ⟨disk, []⟩).2.printed ++ [.line (errorLine e)] := by
  have hvalue : (x.run.run { disk, printed := [] }).value =
      (.error (.reported e), (x.outcome ⟨disk, []⟩).2) := Prod.ext h rfl
  simp only [ofExecution, hvalue, and_self]

/-- A console shows all of a run if it can make something of every mark in what is printed. -/
theorem refused_shownOn_eq_none_iff (console : Console) (o : Outcome) :
    (o.shownOn console).refused = none ↔
      ∀ p ∈ o.printed, ∀ text ∈ p.marked, console.accepts text = true := by
  have hrefusal : ∀ p : Printed, console.refusal? p = none ↔
      ∀ text ∈ p.marked, console.accepts text = true := by
    intro p
    rw [Console.refusal?, List.find?_eq_none]
    simp only [Bool.not_eq_true', Bool.not_eq_false]
  simp only [← hrefusal, ← List.findSome?_eq_none_iff]
  unfold shownOn
  cases o.printed.findSome? console.refusal? with
  | none => exact iff_of_true rfl rfl
  | some text => exact iff_of_false (Option.some_ne_none text) (Option.some_ne_none text)

theorem shownOn_of_accepted {console : Console} {o : Outcome}
    (h : (o.shownOn console).refused = none) :
    o.shownOn console = ⟨o.exitCode, o.printed, none, o.crash⟩ := by
  unfold shownOn at h ⊢
  cases hrefused : o.printed.findSome? console.refusal? with
  | none => rfl
  | some text =>
    rw [hrefused] at h
    cases h

end Outcome

namespace Prepared

variable {p : Prepared} {disk : Disk}

/-- What the command ends in and the state behind it. -/
def ended (p : Prepared) (disk : Disk) : Except Failure Unit × Session :=
  (p.command.execution p.context).outcome ⟨disk, []⟩

def Fails (p : Prepared) (disk : Disk) (f : Failure) : Prop :=
  (p.ended disk).1 = .error f

def look (p : Prepared) (disk : Disk) : Except Failure Work :=
  p.command.look p.context disk

def outputs (p : Prepared) : List Path :=
  p.command.outputs p.context

def Readable (p : Prepared) (disk : Disk) : Prop :=
  p.command.Readable p.context disk

theorem ended_eq (hwatch : p.command.watches = false) (disk : Disk) : p.ended disk =
    match p.look disk with
    | .ok work => work.write.outcome ⟨disk, []⟩
    | .error f => (.error f, ⟨disk, []⟩) :=
  does_execution p.context hwatch ⟨disk, []⟩

theorem printed_of_fails (hwatch : p.command.watches = false) {f : Failure}
    (h : p.Fails disk f) : (p.ended disk).2.printed = [] := by
  have hended := ended_eq hwatch disk
  unfold Fails at h
  cases hlook : p.look disk with
  | error g => rw [hended, hlook]
  | ok work =>
    rw [hlook] at hended
    rw [hended] at h ⊢
    dsimp only at h ⊢
    exact (work.writes_write.failed (Prod.ext h rfl)).1

theorem printed_of_done (hwatch : p.command.watches = false) (h : (p.ended disk).1 = .ok ()) :
    ∃ work, p.look disk = .ok work ∧ (p.ended disk).2.printed = work.summary := by
  have hended := ended_eq hwatch disk
  cases hlook : p.look disk with
  | error f =>
    rw [hended, hlook] at h
    cases h
  | ok work =>
    rw [hlook] at hended
    rw [hended] at h ⊢
    exact ⟨work, rfl, work.writes_write.done (Prod.ext h rfl)⟩

/-- A command that was stopped while it wrote had found what it was to write. -/
theorem fails_cases (hwatch : p.command.watches = false) {f : Failure} (h : p.Fails disk f) :
    p.look disk = .error f ∧ (p.ended disk).2.disk = disk ∨
      ∃ work, p.look disk = .ok work ∧ ∃ out ∈ p.outputs, ∃ stop : Disk.Stop,
        f = stop.failure out ∧
          (stop = .unnameable → ∃ path ∈ work.paths, path.isNameable = false) := by
  have hended := ended_eq hwatch disk
  unfold Fails at h
  cases hlook : p.look disk with
  | error g =>
    rw [hlook] at hended
    rw [hended] at h ⊢
    cases h
    exact .inl ⟨rfl, rfl⟩
  | ok work =>
    rw [hlook] at hended
    rw [hended] at h
    obtain ⟨-, out, hout, hstop⟩ := work.writes_write.failed (Prod.ext h rfl)
    rw [Command.outputs_of_look hlook] at hout
    exact .inr ⟨work, rfl, out, hout, hstop⟩

theorem fails_of_not_readable (hwatch : p.command.watches = false) (h : ¬ p.Readable disk) :
    (∃ f, p.Fails disk f) ∧ (p.ended disk).2.disk = disk := by
  have hended := ended_eq hwatch disk
  cases hlook : p.look disk with
  | ok work => exact absurd (Command.readable_of_look hlook) h
  | error f =>
    rw [hlook] at hended
    exact ⟨⟨f, congrArg Prod.fst hended⟩, by rw [hended]⟩

end Prepared

/-! ## Failures before the first file is written -/

variable {env : Environment} {words : List String} {p : Prepared}

theorem run_of_prepare (hp : prepare env words = .ok p) : run env words = p.outcome env.disk := by
  rw [run, hp]

theorem disk_run (hp : prepare env words = .ok p) :
    (run env words).disk = (p.ended env.disk).2.disk := by
  rw [run_of_prepare hp]
  exact Outcome.disk_ofExecution _ _ _

theorem run_of_reported (hp : prepare env words = .ok p) (hwatch : p.command.watches = false)
    {e : Error} (h : p.Fails env.disk (.reported e)) :
    (run env words).crash = none ∧ (run env words).exitCode = 1 ∧
      (run env words).printed = [.line (errorLine e)] := by
  have hprinted : (p.ended env.disk).2.printed = [] := Prepared.printed_of_fails hwatch h
  obtain ⟨hcrash, hexit, hprint⟩ := Outcome.ofExecution_reported p.threshold h
  rw [run_of_prepare hp]
  refine ⟨hcrash, hexit, hprint.trans ?_⟩
  show (p.ended env.disk).2.printed ++ [.line (errorLine e)] = [.line (errorLine e)]
  rw [hprinted, List.nil_append]

theorem run_of_done (hp : prepare env words = .ok p) (hwatch : p.command.watches = false)
    (h : (p.ended env.disk).1 = .ok ()) :
    (run env words).crash = none ∧ (run env words).exitCode = 0 ∧
      ∃ work : Work, (run env words).printed = work.summary := by
  obtain ⟨work, -, hsummary⟩ := Prepared.printed_of_done hwatch h
  obtain ⟨hcrash, hexit, hprint⟩ := Outcome.ofExecution_ok p.threshold h
  rw [run_of_prepare hp]
  exact ⟨hcrash, hexit, work, hprint.trans hsummary⟩

/-- A command that is carried out once ends in an error before it writes any file, or else
in one about a path that it writes.  It comes to write only if the configuration, the images
and the debug file can be read, and then a command about all functions has no other way to
fail. -/
theorem commands_fail_before_writing (hp : prepare env words = .ok p)
    (hwatch : p.command.watches = false) :
    (∀ e, p.Fails env.disk (.reported e) →
      (run env words).exitCode = 1 ∧ (run env words).printed = [.line (errorLine e)] ∧
      ((∀ out ∈ p.outputs, ∀ cause, e ≠ .fileAccess out.toString cause) →
        (run env words).disk = env.disk)) ∧
    (¬ p.Readable env.disk →
      (∃ f, p.Fails env.disk f) ∧ (run env words).disk = env.disk) ∧
    (p.command.sweeps = true → p.Readable env.disk → ∀ f, p.Fails env.disk f →
      ∃ out ∈ p.outputs, ∃ stop : Disk.Stop, f = stop.failure out) := by
  rw [disk_run hp]
  refine ⟨fun e he => ?_, Prepared.fails_of_not_readable hwatch, fun hsweep hread f hf => ?_⟩
  · obtain ⟨-, hexit, hprinted⟩ := run_of_reported hp hwatch he
    refine ⟨hexit, hprinted, fun hother => ?_⟩
    rcases Prepared.fails_cases hwatch he with
      ⟨-, hdisk⟩ | ⟨work, -, out, hout, stop, hstop, -⟩
    · exact hdisk
    · cases stop with
      | failed cause =>
        cases hstop
        exact absurd rfl (hother out hout cause)
      | unnameable => cases hstop
  · obtain ⟨work, hlook⟩ := Command.look_of_readable hsweep hread
    rcases Prepared.fails_cases hwatch hf with
      ⟨herror, -⟩ | ⟨-, -, out, hout, stop, hstop, -⟩
    · rw [Prepared.look, hlook] at herror
      cases herror
    · exact ⟨out, hout, stop, hstop⟩

/-- A binary without a debug file, next to the listing of an earlier build. -/
def staleListing : Environment where
  assignments := []
  disk := ((Disk.empty.put ⟨"", ["comparer-config.toml"]⟩ (.file (.ofText ""))).put
    ⟨"", ["a.exe"]⟩ (.file ⟨[0xC3], none⟩)).put
    ⟨"", ["compare_full.asm"]⟩ (.file (.ofText "ret\n"))
  observer := {}

theorem stale_listing_is_kept :
    (run staleListing ["generate-full", "a.exe"]).exitCode = 1 ∧
    (run staleListing ["generate-full", "a.exe"]).printed =
      [.line "[red]I/O error on a.pdb: No such file or directory[/red]"] ∧
    (run staleListing ["generate-full", "a.exe"]).disk = staleListing.disk := by
  have hfails : (prepare staleListing ["generate-full", "a.exe"]).toOption.map (fun p =>
      (p.command.watches, (p.ended staleListing.disk).1, p.outputs)) =
      some (false, .error (.reported (.fileAccess "a.pdb" .missingFile)),
        [⟨"", ["compare_full.asm"]⟩]) := by
    decide +kernel
  cases hp : prepare staleListing ["generate-full", "a.exe"] with
  | error stopped =>
    rw [hp] at hfails
    cases hfails
  | ok p =>
    rw [hp] at hfails
    obtain ⟨hwatch, hend⟩ := Prod.mk.inj (Option.some.inj hfails)
    obtain ⟨hended, houtputs⟩ := Prod.mk.inj hend
    obtain ⟨hexit, hprinted, hdisk⟩ := (commands_fail_before_writing hp hwatch).1 _ hended
    refine ⟨hexit, hprinted, hdisk ?_⟩
    rw [houtputs]
    intro out hout cause heq
    cases List.mem_singleton.mp hout
    exact absurd (Error.fileAccess.inj heq).1 (by decide +kernel)

end BinMatch.CommandLine
