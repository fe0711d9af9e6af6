import EveAgent.Calendar

/-! Dates of the Gregorian calendar, extended to all years, and clocks that show them. -/

namespace EveAgent.CivilTime

open Calendar

section Dates

def Leap (year : Int) : Prop := year % 4 = 0 ∧ (year % 100 ≠ 0 ∨ year % 400 = 0)

instance (year : Int) : Decidable (Leap year) := inferInstanceAs (Decidable (_ ∧ _))

def monthLength (year month : Int) : Int :=
  if month = 2 then if Leap year then 29 else 28
  else if month = 4 ∨ month = 6 ∨ month = 9 ∨ month = 11 then 30
  else 31

structure IsDate (year month day : Int) : Prop where
  month_ge : 1 ≤ month
  month_le : month ≤ 12
  day_ge : 1 ≤ day
  day_le : day ≤ monthLength year month

instance (year month day : Int) : Decidable (IsDate year month day) :=
  decidable_of_iff (1 ≤ month ∧ month ≤ 12 ∧ 1 ≤ day ∧ day ≤ monthLength year month)
    ⟨fun ⟨a, b, c, d⟩ => ⟨a, b, c, d⟩, fun ⟨a, b, c, d⟩ => ⟨a, b, c, d⟩⟩

/-- The days from 1970-01-01 to a date; a day after the end of the month is one of the next
month, as day 0 is one of the month before. -/
def dayNumber (year month day : Int) : Int :=
  let fromMarch := if month ≤ 2 then year - 1 else year
  let monthFromMarch := if month ≤ 2 then month + 9 else month - 3
  365 * fromMarch + fromMarch / 4 - fromMarch / 100 + fromMarch / 400 +
    (153 * monthFromMarch + 2) / 5 + day - 719469

/-- The date of a day; the calendar repeats itself every 400 years. -/
def dateOf (days : Int) : Int × Int × Int :=
  let (year, month, day) := civilFromDays (days % 146097).toNat
  (year + 400 * (days / 146097), month, day)

theorem dayNumber_cycle (year month day cycles : Int) :
    dayNumber (year + 400 * cycles) month day = dayNumber year month day + 146097 * cycles := by
  simp only [dayNumber]
  split_ifs <;> omega

theorem leap_cycle (year cycles : Int) : Leap (year + 400 * cycles) ↔ Leap year := by
  unfold Leap
  omega

theorem IsDate.cycle {year month day : Int} (date : IsDate year month day) (cycles : Int) :
    IsDate (year + 400 * cycles) month day := by
  obtain ⟨month_ge, month_le, day_ge, day_le⟩ := date
  constructor
  · exact month_ge
  · exact month_le
  · exact day_ge
  · simpa only [monthLength, leap_cycle] using day_le

theorem lastDayOfEra (yearOfEra dayOfEra : Nat) (inRange : yearOfEra < 400)
    (last : dayOfEra = 365 * yearOfEra + yearOfEra / 4 - yearOfEra / 100 + 365)
    (year : yearOfEra =
      (dayOfEra - dayOfEra / 1460 + dayOfEra / 36524 - dayOfEra / 146096) / 365) :
    (yearOfEra + 1) % 4 = 0 ∧ ((yearOfEra + 1) % 100 ≠ 0 ∨ (yearOfEra + 1) % 400 = 0) := by
  have century : yearOfEra / 100 ≤ dayOfEra / 36524 ∧
      dayOfEra / 36524 ≤ yearOfEra / 100 + 1 := by omega
  have leap : yearOfEra / 4 = dayOfEra / 1460 ∨ yearOfEra + 1 = 4 * (dayOfEra / 1460) := by omega
  rcases leap with same | before
  · omega
  · omega

theorem isDate_fromMarch (year dayOfYear monthFromMarch month day : Nat)
    (inYear : dayOfYear < 366)
    (lastDay : dayOfYear = 365 → (year + 1) % 4 = 0 ∧
      ((year + 1) % 100 ≠ 0 ∨ (year + 1) % 400 = 0))
    (fromMarch : monthFromMarch = (5 * dayOfYear + 2) / 153)
    (month_eq : month = if monthFromMarch < 10 then monthFromMarch + 3 else monthFromMarch - 9)
    (day_eq : day = dayOfYear - (153 * monthFromMarch + 2) / 5 + 1) :
    IsDate (year + (if month ≤ 2 then 1 else 0) : Nat) month day := by
  obtain ⟨months, first⟩ := monthFromMarch_bounds dayOfYear monthFromMarch inYear fromMarch
  have next : dayOfYear < (153 * monthFromMarch + 155) / 5 := by omega
  clear fromMarch
  constructor
  · split_ifs at month_eq <;> omega
  · split_ifs at month_eq <;> omega
  · omega
  · unfold monthLength Leap
    interval_cases monthFromMarch <;>
      simp only [Nat.reduceLT, if_true, if_false, Nat.reduceAdd, Nat.reduceSub] at month_eq <;>
      subst month_eq <;> norm_num at day_eq next ⊢ <;> omega

theorem civilFromDays_isDate (days : Nat) :
    IsDate (civilFromDays days).1 (civilFromDays days).2.1 (civilFromDays days).2.2 := by
  unfold civilFromDays
  extract_lets shifted era dayOfEra yearOfEra dayOfYear monthFromMarch day month year
  have inEra : dayOfEra < 146097 := Nat.mod_lt _ (by decide)
  obtain ⟨inRange, above, below⟩ := yearOfEra_bounds dayOfEra yearOfEra inEra rfl
  have dayOfYear_eq : dayOfYear =
      dayOfEra - (365 * yearOfEra + yearOfEra / 4 - yearOfEra / 100) := rfl
  have year_eq : year = yearOfEra + era * 400 + (if month ≤ 2 then 1 else 0) := rfl
  have lastDay : dayOfYear = 365 → (yearOfEra + era * 400 + 1) % 4 = 0 ∧
      ((yearOfEra + era * 400 + 1) % 100 ≠ 0 ∨ (yearOfEra + era * 400 + 1) % 400 = 0) := by
    intro last
    have leap := lastDayOfEra yearOfEra dayOfEra inRange (by omega) rfl
    omega
  have inYear : dayOfYear < 366 := by
    clear_value dayOfYear yearOfEra dayOfEra era
    omega
  rw [year_eq]
  exact isDate_fromMarch _ dayOfYear monthFromMarch month day inYear lastDay rfl rfl rfl

theorem dayNumber_daysFromCivil (year month day : Nat) (years : 1900 ≤ year) (day_ge : 1 ≤ day)
    (later : daysFromCivil (year, month, day) ≠ 0) :
    dayNumber year month day = daysFromCivil (year, month, day) := by
  unfold daysFromCivil at later ⊢
  unfold dayNumber
  dsimp only at later ⊢
  by_cases early : month ≤ 2
  · have early' : (month : Int) ≤ 2 := by omega
    rw [if_pos early, if_pos early] at later ⊢
    rw [if_pos early', if_pos early']
    omega
  · have late : ¬ (month : Int) ≤ 2 := by omega
    rw [if_neg early, if_neg early] at later ⊢
    rw [if_neg late, if_neg late]
    omega

theorem dayNumber_civilFromDays (days : Nat) :
    dayNumber (civilFromDays days).1 (civilFromDays days).2.1 (civilFromDays days).2.2 = days := by
  have count := daysFromCivil_civilFromDays days
  by_cases first : days = 0
  · have epoch : civilFromDays 0 = (1970, 1, 1) := by decide
    rw [first, epoch]
    decide
  · have day_ge : 1 ≤ (civilFromDays days).2.2 := by
      have date := civilFromDays_isDate days
      exact_mod_cast date.day_ge
    have later : daysFromCivil (civilFromDays days) ≠ 0 := by
      rw [count]
      exact first
    calc dayNumber (civilFromDays days).1 (civilFromDays days).2.1 (civilFromDays days).2.2
        = daysFromCivil (civilFromDays days) :=
          dayNumber_daysFromCivil _ _ _ (civilFromDays_bounds days).1 day_ge later
      _ = days := by rw [count]

theorem dateOf_isDate (days : Int) :
    IsDate (dateOf days).1 (dateOf days).2.1 (dateOf days).2.2 :=
  (civilFromDays_isDate (days % 146097).toNat).cycle (days / 146097)

theorem dayNumber_dateOf (days : Int) :
    dayNumber (dateOf days).1 (dateOf days).2.1 (dateOf days).2.2 = days := by
  have count := dayNumber_civilFromDays (days % 146097).toNat
  simp only [dateOf, dayNumber_cycle, count]
  omega

theorem newYear_lt {year later : Int} (before : year < later) :
    dayNumber year 1 1 < dayNumber later 1 1 := by
  simp only [dayNumber]
  omega

theorem IsDate.inYear {year month day : Int} (date : IsDate year month day) :
    dayNumber year 1 1 ≤ dayNumber year month day ∧
      dayNumber year month day < dayNumber (year + 1) 1 1 := by
  obtain ⟨month_ge, month_le, day_ge, day_le⟩ := date
  unfold monthLength Leap at day_le
  interval_cases month <;> norm_num [dayNumber] at day_le ⊢ <;> omega

theorem IsDate.before {year month day month' day' : Int} (date : IsDate year month day)
    (date' : IsDate year month' day') (earlier : month < month') :
    dayNumber year month day < dayNumber year month' day' := by
  obtain ⟨month_ge, month_le, day_ge, day_le⟩ := date
  obtain ⟨_, month_le', day_ge', _⟩ := date'
  unfold monthLength Leap at day_le
  interval_cases month <;> norm_num [dayNumber] at day_le ⊢ <;> split_ifs <;> omega

theorem IsDate.unique {year month day year' month' day' : Int} (date : IsDate year month day)
    (date' : IsDate year' month' day')
    (same : dayNumber year month day = dayNumber year' month' day') :
    year = year' ∧ month = month' ∧ day = day' := by
  have years : year = year' := by
    have bounds := date.inYear
    have bounds' := date'.inYear
    rcases lt_trichotomy year year' with before | equal | after
    · have order : dayNumber (year + 1) 1 1 ≤ dayNumber year' 1 1 := by
        rcases eq_or_lt_of_le (Int.add_one_le_of_lt before) with next | later
        · rw [next]
        · exact (newYear_lt later).le
      omega
    · exact equal
    · have order : dayNumber (year' + 1) 1 1 ≤ dayNumber year 1 1 := by
        rcases eq_or_lt_of_le (Int.add_one_le_of_lt after) with next | later
        · rw [next]
        · exact (newYear_lt later).le
      omega
  subst years
  have months : month = month' := by
    rcases lt_trichotomy month month' with before | equal | after
    · exact absurd same (date.before date' before).ne
    · exact equal
    · exact absurd same (date'.before date after).ne'
  subst months
  simp only [dayNumber] at same
  omega

theorem dateOf_dayNumber {year month day : Int} (date : IsDate year month day) :
    dateOf (dayNumber year month day) = (year, month, day) := by
  have shown := dayNumber_dateOf (dayNumber year month day)
  obtain ⟨years, months, days⟩ := (dateOf_isDate _).unique date shown
  exact Prod.ext years (Prod.ext months days)

end Dates

section Clocks

/-- A time zone: the seconds by which its standard time is ahead of universal time, and by
which the clocks are ahead of standard time at an instant. -/
structure Zone where
  standard : Int
  summer : Int → Int
  summer_gt : ∀ instant, -86400 < summer instant
  summer_lt : ∀ instant, summer instant < 86400

def universal : Zone :=
  { standard := 0
    summer := fun _ => 0
    summer_gt := fun _ => by decide
    summer_lt := fun _ => by decide }

/-- What a clock shows, in seconds from 1970-01-01 00:00:00. -/
def clockSeconds (year month day hour minute second : Int) : Int :=
  dayNumber year month day * 86400 + hour * 3600 + minute * 60 + second

def hourOf (seconds : Int) : Int := seconds % 86400 / 3600

def minuteOf (seconds : Int) : Int := seconds % 3600 / 60

def secondOf (seconds : Int) : Int := seconds % 60

structure IsTime (hour minute second : Int) : Prop where
  hour_ge : 0 ≤ hour
  hour_lt : hour < 24
  minute_ge : 0 ≤ minute
  minute_lt : minute < 60
  second_ge : 0 ≤ second
  second_lt : second < 60

variable {year month day hour minute second shift : Int}

theorem dayNumber_year_lt {later : Int} (before : year < later) :
    dayNumber year month day < dayNumber later month day := by
  simp only [dayNumber]
  split_ifs <;> omega

theorem clockSeconds_day (time : IsTime hour minute second) :
    clockSeconds year month day hour minute second / 86400 = dayNumber year month day := by
  obtain ⟨_, _, _, _, _, _⟩ := time
  unfold clockSeconds
  omega

theorem clockSeconds_time (time : IsTime hour minute second) :
    hourOf (clockSeconds year month day hour minute second) = hour ∧
      minuteOf (clockSeconds year month day hour minute second) = minute ∧
      secondOf (clockSeconds year month day hour minute second) = second := by
  obtain ⟨_, _, _, _, _, _⟩ := time
  unfold clockSeconds hourOf minuteOf secondOf
  omega

theorem shift_zero (gt : -86400 < shift) (lt : shift < 86400) {seconds : Int}
    (hours : hourOf (seconds + shift) = hourOf seconds)
    (minutes : minuteOf (seconds + shift) = minuteOf seconds)
    (same : secondOf (seconds + shift) = secondOf seconds) : shift = 0 := by
  unfold hourOf at hours
  unfold minuteOf at minutes
  unfold secondOf at same
  omega

/-- The clock shows this month, day and time, in some year. -/
def Shows (seconds month day hour minute second : Int) : Prop :=
  (dateOf (seconds / 86400)).2 = (month, day) ∧ hourOf seconds = hour ∧
    minuteOf seconds = minute ∧ secondOf seconds = second

theorem shows_iff (time : IsTime hour minute second) (gt : -86400 < shift)
    (lt : shift < 86400) :
    Shows (clockSeconds year month day hour minute second + shift) month day hour minute second ↔
      IsDate year month day ∧ shift = 0 := by
  obtain ⟨hours, minutes, same⟩ := @clockSeconds_time year month day hour minute second time
  constructor
  · intro shown
    obtain ⟨date, hours', minutes', same'⟩ := shown
    have still : shift = 0 :=
      shift_zero gt lt (hours'.trans hours.symm) (minutes'.trans minutes.symm)
        (same'.trans same.symm)
    rw [still, Int.add_zero, clockSeconds_day time] at date
    have isDate := dateOf_isDate (dayNumber year month day)
    have count := dayNumber_dateOf (dayNumber year month day)
    rw [date] at isDate count
    -- the year is the one that was given: other years count other days
    have years : (dateOf (dayNumber year month day)).1 = year := by
      rcases lt_trichotomy (dateOf (dayNumber year month day)).1 year with before | equal | after
      · exact absurd count (dayNumber_year_lt before).ne
      · exact equal
      · exact absurd count (dayNumber_year_lt after).ne'
    rw [years] at isDate
    exact ⟨isDate, still⟩
  · intro right
    obtain ⟨isDate, still⟩ := right
    simp only [Shows, still, Int.add_zero, clockSeconds_day time, dateOf_dayNumber isDate]
    exact ⟨trivial, hours, minutes, same⟩

end Clocks

end EveAgent.CivilTime
