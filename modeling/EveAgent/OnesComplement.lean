import Mathlib

/-! One's-complement numbers up to `m`: both 0 and `m` stand for zero. -/

namespace EveAgent.OnesComplement

section Sums

variable {m : Nat}

/-- The carry out of the sum is added at its low end. -/
def add (m a b : Nat) : Nat := if a + b ≤ m then a + b else a + b - m

def total (m : Nat) (words : List Nat) : Nat := words.foldl (add m) 0

/-- The number that stands for a sum; only a sum of zeros is 0. -/
def fold (m n : Nat) : Nat := if n = 0 then 0 else (n - 1) % m + 1

@[simp] theorem fold_zero : fold m 0 = 0 := rfl

theorem fold_pos {n : Nat} (positive : 0 < n) : fold m n = (n - 1) % m + 1 :=
  if_neg (Nat.ne_of_gt positive)

theorem fold_small {n : Nat} (small : n ≤ m) : fold m n = n := by
  rcases Nat.eq_zero_or_pos n with zero | positive
  · rw [zero, fold_zero]
  · rw [fold_pos positive, Nat.mod_eq_of_lt (by omega)]
    omega

theorem fold_add_modulus {n : Nat} (positive : 0 < n) : fold m (n + m) = fold m n := by
  have shifted : n + m - 1 = n - 1 + m := by omega
  rw [fold_pos positive, fold_pos (by omega), shifted, Nat.add_mod_right]

theorem fold_le (positive : 0 < m) (n : Nat) : fold m n ≤ m := by
  rcases Nat.eq_zero_or_pos n with zero | other
  · rw [zero, fold_zero]
    exact Nat.zero_le _
  · rw [fold_pos other]
    exact Nat.mod_lt _ positive

theorem fold_cases (m n : Nat) : ∃ k, n = fold m n + k * m ∧ (n = 0 ↔ fold m n = 0) := by
  rcases Nat.eq_zero_or_pos n with zero | other
  · exact ⟨0, by rw [zero, fold_zero]; simp⟩
  · rw [fold_pos other]
    refine ⟨(n - 1) / m, ?_, by omega⟩
    have division := Nat.mod_add_div' (n - 1) m
    omega

theorem fold_add_mul {n : Nat} (positive : 0 < n) (k : Nat) : fold m (n + k * m) = fold m n := by
  induction k with
  | zero => rw [Nat.zero_mul, Nat.add_zero]
  | succ k ih => rw [Nat.succ_mul, ← Nat.add_assoc, fold_add_modulus (by omega), ih]

theorem add_fold (positive : 0 < m) {n b : Nat} (within : b ≤ m) :
    add m (fold m n) b = fold m (n + b) := by
  obtain ⟨k, whole, zero⟩ := fold_cases m n
  rcases Nat.eq_zero_or_pos n with empty | other
  · rw [empty, fold_zero, Nat.zero_add, fold_small within, add, Nat.zero_add, if_pos within]
  · have nonzero : 0 < fold m n := Nat.pos_of_ne_zero fun none => Nat.ne_of_gt other (zero.mpr none)
    have small := fold_le positive n
    have moved : n + b = fold m n + b + k * m := by omega
    rw [moved, fold_add_mul (by omega), add]
    split
    · rename_i fits
      rw [fold_small fits]
    · rename_i carries
      have carry : fold m n + b = fold m n + b - m + m := by omega
      calc
        fold m n + b - m = fold m (fold m n + b - m) := (fold_small (by omega)).symm
        _ = fold m (fold m n + b - m + m) := (fold_add_modulus (by omega)).symm
        _ = fold m (fold m n + b) := by rw [← carry]

/-- A sum of words is folded at its end as well as at each addition. -/
theorem total_eq (positive : 0 < m) {words : List Nat} (within : ∀ word ∈ words, word ≤ m) :
    total m words = fold m words.sum := by
  have general : ∀ (words : List Nat) (n : Nat), (∀ word ∈ words, word ≤ m) →
      words.foldl (add m) (fold m n) = fold m (n + words.sum) := by
    intro words
    induction words with
    | nil => intro n _; simp
    | cons word words ih =>
      intro n within
      rw [List.foldl_cons, add_fold positive (within word List.mem_cons_self),
        ih _ fun other member => within other (List.mem_cons_of_mem _ member), List.sum_cons,
        Nat.add_assoc]
  have whole := general words 0 within
  rwa [fold_zero, Nat.zero_add] at whole

theorem fold_complement (positive : 0 < m) (n : Nat) : fold m (n + (m - fold m n)) = m := by
  have small := fold_le positive n
  have sum : fold m n + (m - fold m n) = m := by omega
  rw [← add_fold positive (Nat.sub_le _ _), add, sum, if_pos (Nat.le_refl m)]

theorem fold_add_inj {n a b : Nat} (first : a < m) (second : b < m) :
    fold m (n + a) = fold m (n + b) ↔ a = b := by
  constructor
  · intro same
    obtain ⟨k, whole, -⟩ := fold_cases m (n + a)
    obtain ⟨l, whole', -⟩ := fold_cases m (n + b)
    rw [same] at whole
    have apart : a + l * m = b + k * m := by omega
    have remainders := congrArg (· % m) apart
    simpa only [Nat.add_mul_mod_self_right, Nat.mod_eq_of_lt first, Nat.mod_eq_of_lt second]
      using remainders
  · intro same
    rw [same]

end Sums

end EveAgent.OnesComplement
