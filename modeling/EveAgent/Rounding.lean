import Mathlib

/-! Rounding to a number of significant bits: to the nearest number, and to the even one of two.
Exponents have no bounds. -/

namespace EveAgent.Rounding

section Definitions

/-- The nearest integer, the even one of two. -/
def nearest (x : ℚ) : Int :=
  if x - ⌊x⌋ < 1 / 2 then ⌊x⌋
  else if 1 / 2 < x - ⌊x⌋ then ⌊x⌋ + 1
  else if ⌊x⌋ % 2 = 0 then ⌊x⌋
  else ⌊x⌋ + 1

/-- The exponent of the last significant bit. -/
def lastExponent (bits : Nat) (x : ℚ) : Int := Int.log 2 |x| + 1 - bits

def roundTo (bits : Nat) (x : ℚ) : ℚ :=
  nearest (x / 2 ^ lastExponent bits x) * 2 ^ lastExponent bits x

/-- The number has no more significant bits. -/
def Fits (bits : Nat) (x : ℚ) : Prop := ∃ m e : Int, |m| < 2 ^ bits ∧ x = m * 2 ^ e

end Definitions

section Exact

variable {bits : Nat} {x : ℚ}

theorem nearest_intCast (n : Int) : nearest n = n := by
  rw [nearest, Int.floor_intCast, sub_self, if_pos (by norm_num)]

theorem fits_intCast {n : Int} (small : |n| < 2 ^ bits) : Fits bits n :=
  ⟨n, 0, small, by rw [zpow_zero, mul_one]⟩

theorem Fits.mono {more : Nat} (fits : Fits bits x) (le : bits ≤ more) : Fits more x := by
  obtain ⟨m, e, small, same⟩ := fits
  exact ⟨m, e, small.trans_le (pow_le_pow_right₀ one_le_two le), same⟩

theorem Fits.lastExponent_le {m e : Int} (small : |m| < 2 ^ bits) (nonzero : m ≠ 0) :
    lastExponent bits (m * 2 ^ e) ≤ e := by
  have two : (0 : ℚ) < 2 ^ e := zpow_pos two_pos e
  have size : |(m * 2 ^ e : ℚ)| = (|m| : Int) * 2 ^ e := by
    rw [abs_mul, abs_of_pos two, Int.cast_abs]
  have positive : (0 : ℚ) < (|m| : Int) * 2 ^ e :=
    mul_pos (Int.cast_pos.mpr (abs_pos.mpr nonzero)) two
  have below : ((|m| : Int) * 2 ^ e : ℚ) < ((2 : Nat) : ℚ) ^ (bits + e : Int) := by
    rw [zpow_add₀ (by norm_num), zpow_natCast, Nat.cast_two]
    apply mul_lt_mul_of_pos_right _ two
    exact_mod_cast small
  have bound := (Int.lt_zpow_iff_log_lt one_lt_two positive).mp below
  rw [lastExponent, size]
  omega

/-- What fits is not rounded. -/
theorem Fits.roundTo_eq (fits : Fits bits x) : roundTo bits x = x := by
  obtain ⟨m, e, small, rfl⟩ := fits
  by_cases zero : m = 0
  · have none : nearest 0 = 0 := nearest_intCast 0
    rw [zero, roundTo, Int.cast_zero, zero_mul, zero_div, none, Int.cast_zero, zero_mul]
  · have last := Fits.lastExponent_le (e := e) small zero
    rw [roundTo]
    generalize lastExponent bits (m * 2 ^ e) = k at last
    obtain ⟨extra, rfl⟩ := Int.exists_add_of_le last
    have two : (2 : ℚ) ^ k ≠ 0 := zpow_ne_zero k two_ne_zero
    have whole : (m * 2 ^ (k + extra) : ℚ) / 2 ^ k = (m * 2 ^ extra : Int) := by
      rw [zpow_add₀ two_ne_zero, zpow_natCast]
      push_cast
      field_simp
    rw [whole, nearest_intCast, ← whole, div_mul_cancel₀ _ two]

end Exact

end EveAgent.Rounding
