import Mathlib

/-! Threads that share one mutex: those whose phase is critical are those that hold it. -/

namespace EveAgent.Mutex

variable {T P : Type*} {critical : P → Prop} {mutex : Option T} {phase : T → P} {t u : T} {p : P}

/-- The critical phases are those of the holder. -/
def Held (critical : P → Prop) (mutex : Option T) (phase : T → P) : Prop :=
  ∀ t, critical (phase t) ↔ mutex = some t

theorem Held.unique (held : Held critical mutex phase) (first : critical (phase t))
    (second : critical (phase u)) : t = u := by
  have same := ((held t).mp first).symm.trans ((held u).mp second)
  exact Option.some.inj same

theorem Held.free (held : Held critical none phase) (t : T) : ¬ critical (phase t) := by
  intro inside
  cases (held t).mp inside

variable [DecidableEq T]

theorem Held.lock (held : Held critical none phase) (enters : critical p) :
    Held critical (some t) (Function.update phase t p) := by
  intro u
  by_cases same : u = t
  · subst same
    simp [enters]
  · rw [Function.update_of_ne same]
    constructor
    · intro inside
      exact absurd inside (held.free u)
    · intro other
      exact absurd (Option.some.inj other).symm same

theorem Held.unlock (held : Held critical mutex phase) (inside : critical (phase t))
    (leaves : ¬ critical p) : Held critical none (Function.update phase t p) := by
  intro u
  by_cases same : u = t
  · subst same
    simp [leaves]
  · rw [Function.update_of_ne same]
    constructor
    · intro other
      exact absurd (held.unique other inside) same
    · intro none
      cases none

theorem Held.stay (held : Held critical mutex phase) (same : critical p ↔ critical (phase t)) :
    Held critical mutex (Function.update phase t p) := by
  intro u
  by_cases here : u = t
  · subst here
    rw [Function.update_self, same]
    exact held u
  · rw [Function.update_of_ne here]
    exact held u

end EveAgent.Mutex
