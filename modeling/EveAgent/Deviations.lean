import Mathlib

/-! Sums of squares and of squared deviations of a list of numbers. -/

namespace EveAgent

section Deviations

variable {R : Type*} [CommRing R]

def squares (xs : List R) : R := (xs.map fun x => x ^ 2).sum

/-- The squared deviations of the numbers from `a`. -/
def deviations (a : R) (xs : List R) : R := (xs.map fun x => (x - a) ^ 2).sum

@[simp] theorem squares_nil : squares ([] : List R) = 0 := rfl

@[simp] theorem squares_cons (x : R) (xs : List R) : squares (x :: xs) = x ^ 2 + squares xs :=
  List.sum_cons

theorem squares_append (xs ys : List R) : squares (xs ++ ys) = squares xs + squares ys := by
  rw [squares, List.map_append, List.sum_append]
  rfl

theorem deviations_eq (a : R) (xs : List R) :
    deviations a xs = squares xs - 2 * a * xs.sum + xs.length * a ^ 2 := by
  induction xs with
  | nil => simp [deviations]
  | cons x xs ih =>
    have first : deviations a (x :: xs) = (x - a) ^ 2 + deviations a xs := List.sum_cons
    rw [first, ih, squares_cons, List.sum_cons, List.length_cons]
    push_cast
    ring

end Deviations

section Order

variable {R : Type*} [CommRing R] [LinearOrder R] [IsStrictOrderedRing R]

theorem deviations_nonneg (a : R) (xs : List R) : 0 ≤ deviations a xs := by
  apply List.sum_nonneg
  intro square member
  obtain ⟨x, -, rfl⟩ := List.mem_map.mp member
  exact sq_nonneg (x - a)

end Order

end EveAgent
