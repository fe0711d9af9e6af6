import Mathlib

/-! The Gregorian calendar over the days since 1970-01-01. Years are counted from
March, so that the leap day is the last one. -/

namespace EveAgent.Calendar

/-- The date of a day counted from 1970-01-01: year, month from 1 and day. -/
def civilFromDays (days : Nat) : Nat × Nat × Nat :=
  let shifted := days + 719468
  let era := shifted / 146097
  let dayOfEra := shifted % 146097
  let yearOfEra := (dayOfEra - dayOfEra / 1460 + dayOfEra / 36524 - dayOfEra / 146096) / 365
  let dayOfYear := dayOfEra - (365 * yearOfEra + yearOfEra / 4 - yearOfEra / 100)
  let monthFromMarch := (5 * dayOfYear + 2) / 153
  let day := dayOfYear - (153 * monthFromMarch + 2) / 5 + 1
  let month := if monthFromMarch < 10 then monthFromMarch + 3 else monthFromMarch - 9
  let year := yearOfEra + era * 400 + (if month ≤ 2 then 1 else 0)
  (year, month, day)

/-- The inverse of `civilFromDays`. -/
def daysFromCivil (date : Nat × Nat × Nat) : Nat :=
  let (year, month, day) := date
  let fromMarch := if month ≤ 2 then year - 1 else year
  let monthFromMarch := if month ≤ 2 then month + 9 else month - 3
  let yearOfEra := fromMarch % 400
  let dayOfYear := (153 * monthFromMarch + 2) / 5 + day - 1
  fromMarch / 400 * 146097 + (365 * yearOfEra + yearOfEra / 4 - yearOfEra / 100) + dayOfYear -
    719468

theorem yearOfEra_bounds (dayOfEra yearOfEra : Nat) (inEra : dayOfEra < 146097)
    (year : yearOfEra =
      (dayOfEra - dayOfEra / 1460 + dayOfEra / 36524 - dayOfEra / 146096) / 365) :
    yearOfEra < 400 ∧ 365 * yearOfEra + yearOfEra / 4 - yearOfEra / 100 ≤ dayOfEra ∧
      dayOfEra < 365 * yearOfEra + yearOfEra / 4 - yearOfEra / 100 + 366 := by
  have inRange : yearOfEra < 400 := by omega
  have century : yearOfEra / 100 ≤ dayOfEra / 36524 ∧
      dayOfEra / 36524 ≤ yearOfEra / 100 + 1 := by omega
  have leap : yearOfEra / 4 = dayOfEra / 1460 ∨ yearOfEra + 1 = 4 * (dayOfEra / 1460) := by omega
  rcases leap with same | before
  · omega
  · omega

theorem monthFromMarch_bounds (dayOfYear monthFromMarch : Nat) (inYear : dayOfYear < 366)
    (month : monthFromMarch = (5 * dayOfYear + 2) / 153) :
    monthFromMarch < 12 ∧ (153 * monthFromMarch + 2) / 5 ≤ dayOfYear := by
  omega

theorem daysFromCivil_civilFromDays (days : Nat) : daysFromCivil (civilFromDays days) = days := by
  unfold civilFromDays
  extract_lets shifted era dayOfEra yearOfEra dayOfYear monthFromMarch day month year
  have split : era * 146097 + dayOfEra = shifted := Nat.div_add_mod' _ _
  have shifted_eq : shifted = days + 719468 := rfl
  have inEra : dayOfEra < 146097 := Nat.mod_lt _ (by decide)
  obtain ⟨inRange, above, below⟩ := yearOfEra_bounds dayOfEra yearOfEra inEra rfl
  have dayOfYear_eq : dayOfYear =
      dayOfEra - (365 * yearOfEra + yearOfEra / 4 - yearOfEra / 100) := rfl
  have inYear : dayOfYear < 366 := by
    clear_value dayOfYear yearOfEra dayOfEra era
    omega
  obtain ⟨months, first⟩ := monthFromMarch_bounds dayOfYear monthFromMarch inYear rfl
  have decodeMonth : (if month ≤ 2 then month + 9 else month - 3) = monthFromMarch := by
    simp only [month]
    split_ifs <;> omega
  have decodeYear : (if month ≤ 2 then year - 1 else year) = era * 400 + yearOfEra := by
    simp only [year]
    split_ifs <;> omega
  have decodeDay : (153 * monthFromMarch + 2) / 5 + day - 1 = dayOfYear := by
    simp only [day]
    omega
  have yearPart : (era * 400 + yearOfEra) % 400 = yearOfEra := by omega
  have eraPart : (era * 400 + yearOfEra) / 400 = era := by omega
  clear_value day month year monthFromMarch dayOfYear yearOfEra dayOfEra era shifted
  unfold daysFromCivil
  dsimp only
  rw [decodeMonth, decodeYear, decodeDay, yearPart, eraPart]
  omega

theorem civilFromDays_injective : Function.Injective civilFromDays := by
  intro first second same
  rw [← daysFromCivil_civilFromDays first, same, daysFromCivil_civilFromDays]

theorem civilFromDays_bounds (days : Nat) :
    1900 ≤ (civilFromDays days).1 ∧ 1 ≤ (civilFromDays days).2.1 := by
  unfold civilFromDays
  extract_lets shifted era dayOfEra yearOfEra dayOfYear monthFromMarch day month year
  have split : era * 146097 + dayOfEra = shifted := Nat.div_add_mod' _ _
  have inEra : dayOfEra < 146097 := Nat.mod_lt _ (by decide)
  obtain ⟨inRange, above, below⟩ := yearOfEra_bounds dayOfEra yearOfEra inEra rfl
  clear_value yearOfEra
  constructor
  · simp only [year]
    omega
  · simp only [month]
    split_ifs <;> omega

end EveAgent.Calendar
