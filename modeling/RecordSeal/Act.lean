import RecordSeal.Failure
import RecordSeal.Log

set_option autoImplicit false

/-! # Operations that log and may fail

An operation changes a state, writes log entries and ends with a result or a failure; what it did
before failing stays (`Act`). An operation on a part of a state is one on the whole (`Act.on`).
`Act.exec` runs an operation, and the lemmas here say what each way of building one runs to. -/

namespace RecordSeal

/-- An operation on a state that may log and may fail. -/
abbrev Act (σ α : Type) := ExceptT Failure (StateT σ (StateM Log)) α

namespace Act

variable {σ τ α : Type}

/-- Runs an operation: its result, the state after it and the log after it. -/
def exec (act : Act σ α) (s : σ) (log : Log) : Except Failure α × σ × Log :=
  let ((result, s'), log') := (ExceptT.run act).run s |>.run log
  (result, s', log')

/-- The operation with given results. -/
def ofExec (f : σ → Log → Except Failure α × σ × Log) : Act σ α :=
  ExceptT.mk fun s log =>
    let (result, s', log') := f s log
    ((result, s'), log')

/-- Does an operation on a part of the state. -/
def on (part : τ → σ) (put : σ → τ → τ) (act : Act σ α) : Act τ α :=
  ofExec fun t log =>
    let (result, s, log') := act.exec (part t) log
    (result, put s t, log')

/-- Writes a log entry. -/
def note (level : Level) (source message : String) : Act σ Unit :=
  ofExec fun s log => (.ok (), s, log.add ⟨level, source, message⟩)

/-- Changes how the log is kept. -/
def adjustLog (f : Log → Log) : Act σ Unit := ofExec fun s log => (.ok (), s, f log)

/-- The log so far. -/
def currentLog : Act σ Log := ofExec fun s log => (.ok log, s, log)

/-- An operation that needs neither state nor log. -/
def ofExcept (result : Except Failure α) : Act σ α := ofExec fun s log => (result, s, log)

/-- Fails. -/
def fail (why : Failure) : Act σ α := ofExcept (.error why)

/-- Does an operation and changes the failure it may end with. -/
def mapFailure (f : Failure → Failure) (act : Act σ α) : Act σ α :=
  ofExec fun s log =>
    let (result, s', log') := act.exec s log
    (result.mapError f, s', log')

/-! ## What operations run to -/

@[simp] theorem exec_pure (a : α) (s : σ) (log : Log) :
    (pure a : Act σ α).exec s log = (.ok a, s, log) := rfl

/-- The second operation runs from where the first one ended, unless that failed. -/
theorem exec_bind {β : Type} (x : Act σ α) (f : α → Act σ β) (s : σ) (log : Log) :
    (x >>= f).exec s log =
      match x.exec s log with
      | (.ok a, s', log') => (f a).exec s' log'
      | (.error why, s', log') => (.error why, s', log') := by
  simp only [exec, bind, ExceptT.bind, ExceptT.mk, ExceptT.run, StateT.bind, StateT.run]
  rcases x s log with ⟨⟨r, s'⟩, log'⟩
  cases r <;> rfl

/-- What two operations in turn end well with, the second one ends well with after the first one. -/
theorem exec_bind_eq_ok {β : Type} {x : Act σ α} {f : α → Act σ β} {s s' : σ} {log log' : Log}
    {b : β} (h : (x >>= f).exec s log = (.ok b, s', log')) :
    ∃ a s₁ log₁, x.exec s log = (.ok a, s₁, log₁) ∧ (f a).exec s₁ log₁ = (.ok b, s', log') := by
  rw [exec_bind] at h
  split at h
  · next a s₁ log₁ ran => exact ⟨a, s₁, log₁, ran, h⟩
  · cases h

@[simp] theorem exec_get (s : σ) (log : Log) :
    (get : Act σ σ).exec s log = (.ok s, s, log) := rfl

@[simp] theorem exec_set (t s : σ) (log : Log) :
    (set t : Act σ PUnit).exec s log = (.ok ⟨⟩, t, log) := rfl

@[simp] theorem exec_modify (f : σ → σ) (s : σ) (log : Log) :
    (modify f : Act σ PUnit).exec s log = (.ok ⟨⟩, f s, log) := rfl

@[simp] theorem exec_ofExec (f : σ → Log → Except Failure α × σ × Log) (s : σ) (log : Log) :
    (ofExec f).exec s log = f s log := rfl

@[simp] theorem exec_on (part : τ → σ) (put : σ → τ → τ) (act : Act σ α) (t : τ) (log : Log) :
    (act.on part put).exec t log =
      ((act.exec (part t) log).1, put (act.exec (part t) log).2.1 t,
        (act.exec (part t) log).2.2) := rfl

@[simp] theorem exec_note (level : Level) (source message : String) (s : σ) (log : Log) :
    (note level source message : Act σ Unit).exec s log =
      (.ok (), s, log.add ⟨level, source, message⟩) := rfl

@[simp] theorem exec_ofExcept (result : Except Failure α) (s : σ) (log : Log) :
    (ofExcept result : Act σ α).exec s log = (result, s, log) := rfl

@[simp] theorem exec_fail (why : Failure) (s : σ) (log : Log) :
    (fail why : Act σ α).exec s log = (.error why, s, log) := rfl

@[simp] theorem exec_mapFailure (f : Failure → Failure) (act : Act σ α) (s : σ) (log : Log) :
    (act.mapFailure f).exec s log =
      ((act.exec s log).1.mapError f, (act.exec s log).2.1, (act.exec s log).2.2) := rfl

end Act

end RecordSeal
