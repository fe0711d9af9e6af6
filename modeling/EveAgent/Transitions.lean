import Mathlib

/-! The values of a list that differ from the ones before them. -/

namespace EveAgent

variable {α : Type*} [DecidableEq α]

def changes : List α → List α
  | [] => []
  | [_] => []
  | a :: b :: values => if a = b then changes (b :: values) else b :: changes (b :: values)

theorem changes_snoc (values : List α) (last : α) :
    changes (values ++ [last]) = changes values ++
      match values.getLast? with
      | none => []
      | some before => if before = last then [] else [last] := by
  induction values with
  | nil => rfl
  | cons a values ih =>
    match values with
    | [] =>
      by_cases same : a = last
      · simp [changes, same]
      · simp [changes, same]
    | b :: values =>
      have later : (a :: b :: values).getLast? = (b :: values).getLast? :=
        List.getLast?_cons_cons
      rw [later, List.cons_append, List.cons_append, changes, ← List.cons_append, ih, changes]
      split
      · rfl
      · rfl

end EveAgent
