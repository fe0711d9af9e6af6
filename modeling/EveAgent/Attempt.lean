import Mathlib

/-! Computations that reach a result, refuse with a result of their own, or follow a pointer to
nothing. -/

namespace EveAgent

inductive Stop (ε : Type) where
  | fault
  | refused (result : ε)
  deriving DecidableEq, Repr

abbrev Attempt (ε α : Type) := Except (Stop ε) α

section Steps

variable {ε α β : Type}

/-- The object behind a pointer; there is none behind NULL. -/
def need : Option α → Attempt ε α
  | some value => .ok value
  | none => .error .fault

def refuse (result : ε) : Attempt ε α := .error (.refused result)

/-- Nothing missing is read; a result satisfies `post` and a refusal `refusal`. -/
def Meets (post : α → Prop) (refusal : ε → Prop) : Attempt ε α → Prop
  | .ok value => post value
  | .error (.refused result) => refusal result
  | .error .fault => False

@[simp] theorem need_some (value : α) : (need (some value) : Attempt ε α) = .ok value := rfl

@[simp] theorem need_none : (need (none : Option α) : Attempt ε α) = .error .fault := rfl

@[simp] theorem ok_bind (value : α) (next : α → Attempt ε β) :
    ((.ok value : Attempt ε α) >>= next) = next value := rfl

@[simp] theorem fault_bind (next : α → Attempt ε β) :
    ((.error .fault : Attempt ε α) >>= next) = .error .fault := rfl

variable {post : α → Prop} {refusal : ε → Prop}

@[simp] theorem meets_ok (value : α) : Meets post refusal (.ok value : Attempt ε α) ↔ post value :=
  Iff.rfl

@[simp] theorem meets_pure (value : α) :
    Meets post refusal (pure value : Attempt ε α) ↔ post value := Iff.rfl

@[simp] theorem meets_refuse (result : ε) :
    Meets post refusal (refuse result : Attempt ε α) ↔ refusal result := Iff.rfl

@[simp] theorem meets_fault : ¬ Meets post refusal (.error .fault : Attempt ε α) := id

@[simp] theorem meets_bind {post : β → Prop} (first : Attempt ε α) (next : α → Attempt ε β) :
    Meets post refusal (first >>= next) ↔
      Meets (fun value => Meets post refusal (next value)) refusal first := by
  cases first with
  | ok value => rfl
  | error stop => cases stop <;> rfl

@[simp] theorem meets_need (object : Option α) :
    Meets post refusal (need object : Attempt ε α) ↔ ∃ value, object = some value ∧ post value := by
  cases object with
  | none => simp [need]
  | some value => simp [need]

@[simp] theorem meets_map {post : β → Prop} (function : α → β) (attempt : Attempt ε α) :
    Meets post refusal (function <$> attempt) ↔ Meets (post ∘ function) refusal attempt := by
  cases attempt with
  | ok value => rfl
  | error stop => cases stop <;> rfl

theorem bind_ok_iff {first : Attempt ε α} {next : α → Attempt ε β} {last : β} :
    first >>= next = .ok last ↔ ∃ value, first = .ok value ∧ next value = .ok last := by
  cases first with
  | ok value => simp
  | error stop =>
    constructor
    · intro same
      cases same
    · rintro ⟨_, same, _⟩
      cases same

end Steps

end EveAgent
