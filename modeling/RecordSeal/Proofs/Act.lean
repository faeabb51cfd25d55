import Mathlib.Order.Defs.Unbundled
import RecordSeal.Act

set_option autoImplicit false

/-! # What operations keep

A relation between the state before an operation and the state after it, whether it ended well or
failed (`Act.Keeps`). If the relation is reflexive and transitive, operations in turn keep it as
soon as each of them does. -/

namespace RecordSeal.Act

variable {σ α β : Type} {R : σ → σ → Prop}

/-- Whether an operation relates every state that it starts from to the one it leaves. -/
def Keeps (R : σ → σ → Prop) (act : Act σ α) : Prop := ∀ s log, R s (act.exec s log).2.1

theorem Keeps.bind [IsTrans σ R] {x : Act σ α} {f : α → Act σ β} (first : x.Keeps R)
    (next : ∀ a, (f a).Keeps R) : (x >>= f).Keeps R := by
  intro s log
  have before := first s log
  rw [exec_bind]
  split
  · next a s₁ log₁ ran =>
    rw [ran] at before
    exact trans_of R before (next a s₁ log₁)
  · next why s₁ log₁ ran =>
    rw [ran] at before
    exact before

theorem exec_silent (act : Act σ α) (s : σ) (log : Log) :
    ((do let _ ← act : Act σ Unit).exec s log).2 = (act.exec s log).2 := by
  rw [exec_bind]
  rcases act.exec s log with ⟨answer, s', log'⟩
  cases answer <;> rfl

theorem Keeps.mapFailure {act : Act σ α} (h : act.Keeps R) (f : Failure → Failure) :
    (act.mapFailure f).Keeps R := h

section Still

variable [Std.Refl R]

theorem keeps_pure (a : α) : (pure a : Act σ α).Keeps R := fun s _ => refl_of R s

theorem keeps_get : (get : Act σ σ).Keeps R := fun s _ => refl_of R s

theorem keeps_ofExcept (result : Except Failure α) : (ofExcept result : Act σ α).Keeps R :=
  fun s _ => refl_of R s

theorem keeps_fail (why : Failure) : (fail why : Act σ α).Keeps R := keeps_ofExcept _

theorem keeps_note (level : Level) (source message : String) :
    (note level source message : Act σ Unit).Keeps R :=
  fun s _ => refl_of R s

theorem keeps_currentLog : (currentLog : Act σ Log).Keeps R := fun s _ => refl_of R s

end Still

end RecordSeal.Act
