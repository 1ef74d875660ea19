import BinMatch.Failure
import BinMatch.Log

/-!
# Results and remarks

Remarks never decide what a computation ends in.  `Checked.result` leaves them out,
and a result is worked out step by step as it is without them: it is the last value
unless a step failed, and then the failure of the first such step.  The remarks of
steps one after the other stand one after the other.
-/

namespace BinMatch

theorem except_bind_eq_ok_iff {ε α β : Type} {x : Except ε α} {f : α → Except ε β}
    {b : β} :
    (x >>= f) = .ok b ↔ ∃ a, x = .ok a ∧ f a = .ok b := by
  cases x <;> simp [bind, Except.bind]

theorem except_bind_eq_error_iff {α β : Type} {x : Except Error α}
    {f : α → Except Error β} {e : Error} :
    (x >>= f) = .error e ↔ x = .error e ∨ ∃ a, x = .ok a ∧ f a = .error e := by
  cases x <;> simp [bind, Except.bind]

theorem mapError_eq_ok_iff {ε ε' α : Type} {x : Except ε α} {f : ε → ε'} {a : α} :
    x.mapError f = .ok a ↔ x = .ok a := by
  cases x with
  | ok b =>
    have hok : (.ok b : Except ε α).mapError f = .ok b := rfl
    rw [hok, Except.ok.injEq, Except.ok.injEq]
  | error e =>
    have herror : (.error e : Except ε α).mapError f = .error (f e) := rfl
    rw [herror]
    simp only [reduceCtorEq]

theorem isOk_iff {α : Type} {x : Except Error α} :
    x.isOk = true ↔ ∃ a, x = .ok a := by
  cases x <;> simp [Except.isOk, Except.toBool]

/-- The value, unless there is a failure. -/
def unlessFailed {α : Type} (failure : Option Error) (a : α) : Except Error α :=
  match failure with
  | some e => .error e
  | none => .ok a

theorem unlessFailed_eq_error_iff {α : Type} {failure : Option Error} {a : α} {e : Error} :
    unlessFailed failure a = .error e ↔ failure = some e := by
  cases failure <;> simp [unlessFailed]

theorem unlessFailed_eq_ok_iff {α : Type} {failure : Option Error} {a b : α} :
    unlessFailed failure a = .ok b ↔ failure = none ∧ a = b := by
  cases failure <;> simp [unlessFailed]

/-- Of two steps one after the other, the failure of the first one comes first. -/
theorem unlessFailed_bind {α β : Type} {failure next : Option Error} {a : α} {b : β}
    {f : α → Except Error β} (h : f a = unlessFailed next b) :
    (unlessFailed failure a >>= f) = unlessFailed (failure.or next) b := by
  cases failure with
  | some e => rfl
  | none => exact h

theorem unlessFailed_bind_ok {α β : Type} {failure : Option Error} {a : α} {f : α → β} :
    (unlessFailed failure a >>= fun a => .ok (f a)) = unlessFailed failure (f a) := by
  cases failure <;> rfl

namespace Logged

variable {α β σ : Type}

instance : LawfulMonad Logged := LawfulMonad.mk' Logged
  (fun x => by cases x; simp [Functor.map])
  (fun a f => by simp [bind, pure])
  (fun x f g => by simp [bind])

@[simp] theorem value_pure (a : α) : (pure a : Logged α).value = a := rfl

@[simp] theorem log_pure (a : α) : (pure a : Logged α).log = [] := rfl

@[simp] theorem value_bind (x : Logged α) (f : α → Logged β) :
    (x >>= f).value = (f x.value).value := rfl

@[simp] theorem log_bind (x : Logged α) (f : α → Logged β) :
    (x >>= f).log = x.log ++ (f x.value).log := rfl

@[simp] theorem value_map (f : α → β) (x : Logged α) : (f <$> x).value = f x.value := rfl

@[simp] theorem log_map (f : α → β) (x : Logged α) : (f <$> x).log = x.log := by
  rw [map_eq_pure_bind, log_bind, log_pure, List.append_nil]

@[simp] theorem log_tell (record : LogRecord) : (tell record).log = [record] := rfl

/-- Remarks aside, a run over a list is a fold. -/
theorem value_foldlM (step : σ → α → Logged σ) (s : σ) (as : List α) :
    (as.foldlM step s).value = as.foldl (fun s a => (step s a).value) s := by
  induction as generalizing s with
  | nil => rfl
  | cons a as ih => exact ih (step s a).value

theorem forall_mem_log_foldlM {p : LogRecord → Prop} {step : σ → α → Logged σ}
    (h : ∀ s a, ∀ r ∈ (step s a).log, p r) (s : σ) (as : List α) :
    ∀ r ∈ (as.foldlM step s).log, p r := by
  induction as generalizing s with
  | nil => exact fun _ hr => absurd hr List.not_mem_nil
  | cons a as ih =>
    rw [List.foldlM_cons, log_bind]
    exact List.forall_mem_append.mpr ⟨h s a, ih _⟩

theorem value_mapM (f : α → Logged β) (as : List α) :
    (as.mapM f).value = as.map fun a => (f a).value := by
  induction as with
  | nil => rfl
  | cons a as ih => simp only [List.mapM_cons, value_bind, value_pure, ih, List.map_cons]

theorem log_mapM (f : α → Logged β) (as : List α) :
    (as.mapM f).log = as.flatMap fun a => (f a).log := by
  induction as with
  | nil => rfl
  | cons a as ih =>
    simp only [List.mapM_cons, log_bind, log_pure, List.append_nil, ih, List.flatMap_cons]

theorem log_forM (f : α → Logged PUnit) (as : List α) :
    (as.forM f).log = as.flatMap fun a => (f a).log := by
  induction as with
  | nil => rfl
  | cons a as ih =>
    have hcons : ((a :: as).forM f).log = (f a).log ++ (as.forM f).log := rfl
    rw [hcons, ih, List.flatMap_cons]

/-- A step that fails ends the computation. -/
theorem value_run_bind {ε : Type} (x : ExceptT ε Logged α) (f : α → ExceptT ε Logged β) :
    (x >>= f).run.value = x.run.value >>= fun a => (f a).run.value := by
  show Logged.value (ExceptT.bindCont f x.run.value) = _
  cases x.run.value <;> rfl

section State

variable {ε : Type} {s s' : σ} {x : ExceptT ε (StateT σ Logged) α}

/-- What follows a step goes on from the state that the step leaves. -/
theorem value_run_run_bind_of_ok {a : α} (h : (x.run.run s).value = (.ok a, s'))
    (f : α → ExceptT ε (StateT σ Logged) β) :
    ((x >>= f).run.run s).value = ((f a).run.run s').value := by
  have hbind : ((x >>= f).run.run s).value =
      ((ExceptT.bindCont f (x.run.run s).value.1).run (x.run.run s).value.2).value := rfl
  rw [hbind, h]
  rfl

/-- A failure is the end and leaves the state that it came in. -/
theorem value_run_run_bind_of_error {e : ε} (h : (x.run.run s).value = (.error e, s'))
    (f : α → ExceptT ε (StateT σ Logged) β) :
    ((x >>= f).run.run s).value = (.error e, s') := by
  have hbind : ((x >>= f).run.run s).value =
      ((ExceptT.bindCont f (x.run.run s).value.1).run (x.run.run s).value.2).value := rfl
  rw [hbind, h]
  rfl

end State

end Logged

namespace Checked

variable {α β : Type}

/-- What a computation ends in, its remarks left out. -/
def result (x : Checked α) : Except Error α :=
  x.run.value

@[simp] theorem result_pure (a : α) : (pure a : Checked α).result = .ok a := rfl

@[simp] theorem result_throw (e : Error) :
    (throw e : Checked α).result = .error e := rfl

@[simp] theorem result_ofExcept (r : Except Error α) :
    (ofExcept r).result = r := rfl

@[simp] theorem result_lift (x : Logged α) :
    result (ExceptT.lift x) = .ok x.value := rfl

@[simp] theorem result_bind (x : Checked α) (f : α → Checked β) :
    (x >>= f).result = x.result >>= fun a => (f a).result :=
  Logged.value_run_bind x f

/-- No remark is a warning. -/
def Quiet (x : Checked α) : Prop :=
  ∀ r ∈ x.run.log, r.level = .debug

theorem quiet_of_log_eq_nil {x : Checked α} (h : x.run.log = []) : x.Quiet := by
  intro r hr
  rw [h] at hr
  exact absurd hr List.not_mem_nil

theorem quiet_pure (a : α) : (pure a : Checked α).Quiet :=
  quiet_of_log_eq_nil rfl

theorem quiet_throw (e : Error) : (throw e : Checked α).Quiet :=
  quiet_of_log_eq_nil rfl

theorem quiet_ofExcept (r : Except Error α) : (ofExcept r).Quiet :=
  quiet_of_log_eq_nil rfl

theorem quiet_lift {x : Logged α} (h : ∀ r ∈ x.log, r.level = .debug) :
    Quiet (ExceptT.lift x) := by
  intro r hr
  have hlog : (ExceptT.lift x : Checked α).run.log = x.log ++ [] := rfl
  rw [hlog, List.append_nil] at hr
  exact h r hr

theorem Quiet.bind {x : Checked α} {f : α → Checked β} (hx : x.Quiet)
    (hf : ∀ a, (f a).Quiet) : (x >>= f).Quiet := by
  have hlog : (x >>= f).run.log = x.run.log ++ (ExceptT.bindCont f x.run.value).log := rfl
  rw [Quiet, hlog, List.forall_mem_append]
  refine ⟨hx, ?_⟩
  cases x.run.value with
  | ok a => exact hf a
  | error e => exact quiet_throw e

end Checked

namespace Attempt

variable {α β : Type}

/-- What an attempt ends in, its remarks left out. -/
def result (x : Attempt α) : Except Failure α :=
  x.run.value

@[simp] theorem result_pure (a : α) : (pure a : Attempt α).result = .ok a := rfl

@[simp] theorem result_throw (e : Failure) : (throw e : Attempt α).result = .error e := rfl

@[simp] theorem result_lift (x : Logged α) : result (ExceptT.lift x) = .ok x.value := rfl

@[simp] theorem result_ofExcept (x : Except Failure α) : (ofExcept x).result = x := rfl

@[simp] theorem result_ofChecked (x : Checked α) :
    (ofChecked x).result = x.result.mapError .reported := rfl

@[simp] theorem result_bind (x : Attempt α) (f : α → Attempt β) :
    (x >>= f).result = x.result >>= fun a => (f a).result :=
  Logged.value_run_bind x f

end Attempt

end BinMatch
