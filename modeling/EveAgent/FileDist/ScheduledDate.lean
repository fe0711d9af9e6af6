import EveAgent.CivilTime
import EveAgent.Scheduler.Task

namespace EveAgent.FileDist.ScheduledDate

open Calendar CivilTime Scheduler

/-- The fields of `stFDDate` that a schedule sets; the months are counted from 1. -/
structure StFDDate where
  date : Nat
  month : Nat
  year : Nat
  hr : Nat
  min : Nat
  sec : Nat

/-- What the fields tell, in seconds from 1970-01-01 00:00:00. -/
def StFDDate.seconds (schedule : StFDDate) : Int :=
  clockSeconds schedule.year schedule.month schedule.date schedule.hr schedule.min schedule.sec

/-- `mktime`; `tm_isdst` is 0, so the fields are taken for standard time. -/
def StFDDate.mktime (zone : Zone) (schedule : StFDDate) : Int := schedule.seconds - zone.standard

/-- What the clocks show at an instant, in summer time where it is in force. -/
def shownAt (zone : Zone) (instant : Int) : Int :=
  instant + zone.standard + zone.summer instant

/-- `FD_CheckCurrenttime` on the schedule of the distribution. -/
def fdCheckCurrenttime (zone : Zone) (ulCurrTime : Int) (schedule : StFDDate) : StFDDate :=
  let ulStartTime := schedule.mktime zone
  if ulCurrTime > ulStartTime then
    let shown := shownAt zone (ulStartTime + 86400)
    let newtime := dateOf (shown / 86400)
    { date := newtime.2.2.toNat
      month := newtime.2.1.toNat
      year := newtime.1.toNat
      hr := (hourOf shown).toNat
      min := (minuteOf shown).toNat
      sec := (secondOf shown).toNat }
  else schedule

/-- The start date of the task that `FD_AddJobToSched` submits. -/
def StFDDate.startDate (schedule : StFDDate) : StDate :=
  ⟨.ofNat schedule.date, .ofNat schedule.month, .ofNat schedule.year⟩

/-- What the clock shows when the distribution is to begin. A date that is past is moved on by 24
hours, and by the summer time that is in force then. -/
def StFDDate.due (zone : Zone) (ulCurrTime : Int) (schedule : StFDDate) : Int :=
  if ulCurrTime > schedule.mktime zone then
    schedule.seconds + 86400 + zone.summer (schedule.mktime zone + 86400)
  else schedule.seconds

/-- The fields show a time since 1970, and the year of the distribution fits an `I16`. -/
structure StFDDate.Valid (zone : Zone) (ulCurrTime : Int) (schedule : StFDDate) : Prop where
  date : IsDate schedule.year schedule.month schedule.date
  time : IsTime schedule.hr schedule.min schedule.sec
  year : 1970 ≤ schedule.year
  fits : (dateOf (schedule.due zone ulCurrTime / 86400)).1 < 2 ^ 15

variable {zone : Zone} {schedule : StFDDate} {date : StDate} {now : Nat} {ulCurrTime : Int}

theorem dateOf_natCast (days : Nat) : dateOf days =
    (((civilFromDays days).1 : Int), ((civilFromDays days).2.1 : Int),
      ((civilFromDays days).2.2 : Int)) := by
  rw [← dateOf_dayNumber (civilFromDays_isDate days), dayNumber_civilFromDays]

theorem onDate_iff : OnDate date now ↔ dateOf (now / 86400 : Nat) =
    ((date.ui16Year.toNat : Int), (date.ui16Month.toNat + 1 : Int),
      (date.ui16Day.toNat : Int)) := by
  have bounds := civilFromDays_bounds (now / 86400)
  rw [OnDate, localtime_year, localtime_month, localtime_day, dateOf_natCast, noSecsInDay]
  simp only [Prod.mk.injEq]
  omega

theorem checked_past (past : ulCurrTime > schedule.mktime zone) :
    fdCheckCurrenttime zone ulCurrTime schedule =
      let shown := shownAt zone (schedule.mktime zone + 86400)
      let newtime := dateOf (shown / 86400)
      ⟨newtime.2.2.toNat, newtime.2.1.toNat, newtime.1.toNat, (hourOf shown).toNat,
        (minuteOf shown).toNat, (secondOf shown).toNat⟩ := if_pos past

theorem due_past (past : ulCurrTime > schedule.mktime zone) :
    schedule.due zone ulCurrTime = shownAt zone (schedule.mktime zone + 86400) := by
  rw [StFDDate.due, if_pos past, shownAt, StFDDate.mktime]
  omega

/-- A day since 1970 has a date of natural numbers. -/
theorem dateOf_toNat {days : Int} (since : 0 ≤ days) :
    dateOf days = (((dateOf days).1.toNat : Int), ((dateOf days).2.1.toNat : Int),
      ((dateOf days).2.2.toNat : Int)) := by
  have whole : ∀ n : Nat, (n : Int) = ((n : Int).toNat : Int) :=
    fun n => (Int.toNat_of_nonneg (Int.natCast_nonneg n)).symm
  obtain ⟨days, rfl⟩ := Int.eq_ofNat_of_zero_le since
  rw [dateOf_natCast]
  exact Prod.ext (whole _) (Prod.ext (whole _) (whole _))

theorem checked_date (valid : schedule.Valid zone ulCurrTime) :
    dateOf (schedule.due zone ulCurrTime / 86400) =
      (((fdCheckCurrenttime zone ulCurrTime schedule).year : Int),
        ((fdCheckCurrenttime zone ulCurrTime schedule).month : Int),
        ((fdCheckCurrenttime zone ulCurrTime schedule).date : Int)) := by
  have day : schedule.seconds / 86400 = dayNumber schedule.year schedule.month schedule.date :=
    clockSeconds_day valid.time
  by_cases past : ulCurrTime > schedule.mktime zone
  · have since : 0 ≤ dayNumber schedule.year schedule.month schedule.date := by
      obtain ⟨month_ge, month_le, day_ge, -⟩ := valid.date
      have year := valid.year
      simp only [dayNumber]
      split_ifs <;> omega
    have later : 0 ≤ shownAt zone (schedule.mktime zone + 86400) := by
      have summer := zone.summer_gt (schedule.mktime zone + 86400)
      rw [shownAt, StFDDate.mktime] at *
      omega
    rw [due_past past, checked_past past]
    exact dateOf_toNat (Int.ediv_nonneg later (by decide))
  · rw [fdCheckCurrenttime, StFDDate.due, if_neg past, if_neg past, day,
      dateOf_dayNumber valid.date]

/-- The task of a distribution is due on the day that is a calendar month behind the one on which
it is to begin, and the thirteenth month of a year never comes; `now` is what the clock shows. -/
theorem distribution_due_iff (zone : Zone) (ulCurrTime : Int) (schedule : StFDDate)
    (valid : schedule.Valid zone ulCurrTime) (now : Nat) :
    OnDate (fdCheckCurrenttime zone ulCurrTime schedule).startDate now ↔
      dateOf (now / 86400 : Nat) = ((dateOf (schedule.due zone ulCurrTime / 86400)).1,
        (dateOf (schedule.due zone ulCurrTime / 86400)).2.1 + 1,
        (dateOf (schedule.due zone ulCurrTime / 86400)).2.2) := by
  have shown := checked_date valid
  have real := dateOf_isDate (schedule.due zone ulCurrTime / 86400)
  have fits := valid.fits
  rw [shown] at real fits ⊢
  simp only at real fits
  obtain ⟨-, month_le, -, day_le⟩ := real
  have day_le : ((fdCheckCurrenttime zone ulCurrTime schedule).date : Int) ≤ 31 := by
    refine day_le.trans ?_
    simp only [monthLength]
    split_ifs <;> decide
  rw [onDate_iff, StFDDate.startDate, UInt16.toNat_ofNat', UInt16.toNat_ofNat',
    UInt16.toNat_ofNat', Nat.mod_eq_of_lt (by omega), Nat.mod_eq_of_lt (by omega),
    Nat.mod_eq_of_lt (by omega)]

/-- `EST5EDT` as it is in 2004. -/
def eastern : Zone where
  standard := -18000
  summer instant := if 1081062000 ≤ instant ∧ instant < 1099202400 then 3600 else 0
  summer_gt instant := by split_ifs <;> decide
  summer_lt instant := by split_ifs <;> decide

/-- Asked for 2004-07-15 23:30, which has just passed in standard time, the distribution is to
begin on 2004-07-17, at 00:30 in summer time; the task is due on 2004-08-17. -/
theorem distribution_due_iff_july :
    OnDate (fdCheckCurrenttime eastern 1089952201 ⟨15, 7, 2004, 23, 30, 0⟩).startDate
      1092700800 := by
  refine (distribution_due_iff _ _ _ ⟨by decide, ?_, by decide, by decide +kernel⟩ _).mpr
    (by decide +kernel)
  constructor
  all_goals decide

end EveAgent.FileDist.ScheduledDate
