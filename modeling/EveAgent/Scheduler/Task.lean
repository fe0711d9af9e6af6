import EveAgent.Calendar
import EveAgent.CTypes

/-! Tasks of the scheduler, the broken-down time they are compared with, and the
validation that `SCH_AddTask` and the clean-up pass rely on. -/

namespace EveAgent.Scheduler

open Calendar

def masterArrSize : Nat := 25
def everyHourTask : Nat := 24
def noSecsInHour : Nat := 3600
def noSecsInMin : Nat := 60
def noSecsInDay : Nat := 86400
def noHourInDay : Nat := 24
def noMinsInHour : Nat := 60
def checkStatusTime : Nat := 6

/-! An enumeration of the source is an `int`; `outOfRange` stands for every value
that none of its names has. -/

inductive EType where
  | schOneShot
  | schPeriodic
  | outOfRange
  deriving DecidableEq, Repr, Inhabited

inductive EPeriodicity where
  | schSecMinHour
  | schDay
  | schWeek
  | schMonth
  | outOfRange
  deriving DecidableEq, Repr, Inhabited

inductive EWeekDay where
  | schSun
  | schMon
  | schTue
  | schWed
  | schThu
  | schFri
  | schSat
  | schAllDays
  | outOfRange
  deriving DecidableEq, Repr, Inhabited

/-- The value of the enumerator; the names of days match `tm_wday`. -/
def EWeekDay.value : EWeekDay → Nat
  | .schSun => 0
  | .schMon => 1
  | .schTue => 2
  | .schWed => 3
  | .schThu => 4
  | .schFri => 5
  | .schSat => 6
  | .schAllDays => 7
  | .outOfRange => 8

/-- `ui16Month` counts the months since January. -/
structure StDate where
  ui16Day : UInt16
  ui16Month : UInt16
  ui16Year : UInt16
  deriving DecidableEq, Repr, Inhabited

structure StTime where
  ui16Hour : UInt16
  ui16Minute : UInt16
  ui16Second : UInt16
  deriving DecidableEq, Repr, Inhabited

/-- `fp` and `vpArg` are addresses: of the callback and of its argument. -/
structure StTask where
  startDate : StDate
  endDate : StDate
  startTime : StTime
  endTime : StTime
  eType : EType
  ePCity : EPeriodicity
  ui32Interval : UInt32
  eWeekDay : EWeekDay
  fp : Nat
  vpArg : Nat
  deriving DecidableEq, Repr, Inhabited

section Clock

/-- `struct tm`, as far as the scheduler reads it. -/
structure Tm where
  tmSec : Nat
  tmMin : Nat
  tmHour : Nat
  tmMday : Nat
  tmMon : Nat
  tmYear : Nat
  tmWday : Nat
  deriving DecidableEq, Repr

/-- `localtime`; the clock counts the seconds of local time since 1970-01-01. -/
def localtime (now : Nat) : Tm :=
  let days := now / noSecsInDay
  let (year, month, day) := civilFromDays days
  { tmSec := now % 60
    tmMin := now / 60 % 60
    tmHour := now / 3600 % 24
    tmMday := day
    tmMon := month - 1
    tmYear := year - 1900
    tmWday := (days + 4) % 7 }

example : localtime (12480 * 86400 + 6 * 3600 + 13 * 60 + 42) =
    ⟨42, 13, 6, 3, 2, 104, 3⟩ := by decide

/-- The seconds since the start of the hour, as the scheduler computes them. -/
def Tm.seconds (pTime : Tm) : Nat := pTime.tmMin * noSecsInMin + pTime.tmSec

@[simp] theorem localtime_seconds (now : Nat) : (localtime now).seconds = now % 3600 := by
  simp only [Tm.seconds, localtime, noSecsInMin]
  omega

@[simp] theorem localtime_hour (now : Nat) : (localtime now).tmHour = now / 3600 % 24 := rfl

/-- The date of a point of time in the convention of `stDate`. -/
def OnDate (date : StDate) (now : Nat) : Prop :=
  date.ui16Year.toNat = (localtime now).tmYear + 1900 ∧
    date.ui16Month.toNat = (localtime now).tmMon ∧ date.ui16Day.toNat = (localtime now).tmMday

instance (date : StDate) (now : Nat) : Decidable (OnDate date now) :=
  inferInstanceAs (Decidable (_ ∧ _))

theorem onDate_of_sameDay {date : StDate} {now later : Nat}
    (sameDay : now / noSecsInDay = later / noSecsInDay) (today : OnDate date now) :
    OnDate date later := by
  simp only [OnDate, localtime, sameDay] at *
  exact today

theorem localtime_year (now : Nat) :
    (localtime now).tmYear = (civilFromDays (now / noSecsInDay)).1 - 1900 := rfl

theorem localtime_month (now : Nat) :
    (localtime now).tmMon = (civilFromDays (now / noSecsInDay)).2.1 - 1 := rfl

theorem localtime_day (now : Nat) :
    (localtime now).tmMday = (civilFromDays (now / noSecsInDay)).2.2 := rfl

theorem onDate_day {date : StDate} {now later : Nat} (first : OnDate date now)
    (second : OnDate date later) : now / noSecsInDay = later / noSecsInDay := by
  obtain ⟨year, month, day⟩ := first
  obtain ⟨year', month', day'⟩ := second
  have bounds := civilFromDays_bounds (now / noSecsInDay)
  have bounds' := civilFromDays_bounds (later / noSecsInDay)
  rw [localtime_year] at year year'
  rw [localtime_month] at month month'
  rw [localtime_day] at day day'
  apply civilFromDays_injective
  apply Prod.ext
  · omega
  · apply Prod.ext
    · omega
    · exact day.symm.trans day'

end Clock

section Validation

/-- The date test that `ValidateTask` and `ValidateDateTime` share. -/
def DateExpired (date : StDate) (pTime : Tm) : Prop :=
  date.ui16Year.toNat < pTime.tmYear + 1900 ∨
    (date.ui16Year.toNat = pTime.tmYear + 1900 ∧ date.ui16Month.toNat < pTime.tmMon) ∨
    (date.ui16Year.toNat = pTime.tmYear + 1900 ∧ date.ui16Month.toNat = pTime.tmMon ∧
      date.ui16Day.toNat < pTime.tmMday)

instance (date : StDate) (pTime : Tm) : Decidable (DateExpired date pTime) :=
  inferInstanceAs (Decidable (_ ∨ _))

def validateTask (pTime : Tm) (task : StTask) : ENASCenterError :=
  if DateExpired task.startDate pTime ∧ task.eType ≠ .schPeriodic then .nascFailure
  else if (task.startTime.ui16Hour.toNat > noHourInDay - 1 ∨
      task.startTime.ui16Minute.toNat > noMinsInHour - 1 ∨
      task.startTime.ui16Second.toNat > noSecsInMin - 1) ∧ task.eType ≠ .schPeriodic then
    .nascFailure
  else if task.eType ≠ .schOneShot ∧ task.eType ≠ .schPeriodic then .nascFailure
  else if task.ePCity = .schSecMinHour ∧
      (task.ui32Interval = 0 ∨ task.ui32Interval.toNat > noSecsInDay) then .nascFailure
  else if task.ePCity = .schSecMinHour ∧ task.eWeekDay.value > EWeekDay.schAllDays.value then
    .nascFailure
  else if task.ePCity = .schSecMinHour ∧ task.eType ≠ .schPeriodic then .nascFailure
  else if task.ePCity = .schDay ∧ task.eWeekDay.value > EWeekDay.schAllDays.value then
    .nascFailure
  else if (task.ePCity = .schWeek ∨ task.ePCity = .schMonth) ∧
      task.eWeekDay.value > EWeekDay.schSat.value then .nascFailure
  else .nascSuccess

inductive EValidateDateTime where
  | schDateOnly
  | schTimeOnly
  | schBoth
  deriving DecidableEq, Repr

def validateDateTime (pTime : Tm) (inDate : StDate) (inTime : StTime)
    (eVDTFlag : EValidateDateTime) : ENASCenterError :=
  let bValidDate := ¬ ((eVDTFlag = .schDateOnly ∨ eVDTFlag = .schBoth) ∧ DateExpired inDate pTime)
  let i32TimeInSec := inTime.ui16Hour.toNat * noSecsInHour +
    inTime.ui16Minute.toNat * noSecsInMin + inTime.ui16Second.toNat
  let i32CurrTimeInSec := pTime.tmHour * noSecsInHour + pTime.tmMin * noSecsInMin + pTime.tmSec
  let bValidTime :=
    ¬ ((eVDTFlag = .schTimeOnly ∨ eVDTFlag = .schBoth) ∧ i32TimeInSec < i32CurrTimeInSec)
  match eVDTFlag with
  | .schDateOnly => if bValidDate then .nascSuccess else .nascFailure
  | .schTimeOnly => if bValidTime then .nascSuccess else .nascFailure
  | .schBoth => if ¬ bValidDate ∧ ¬ bValidTime then .nascFailure else .nascSuccess

/-- Some clock reading lets `ValidateTask` accept the task. -/
def Accepted (task : StTask) : Prop := ∃ now, validateTask (localtime now) task = .nascSuccess

variable {pTime : Tm} {task : StTask}

theorem validateTask_cases (valid : validateTask pTime task = .nascSuccess) :
    (task.eType = .schOneShot ∨ task.eType = .schPeriodic) ∧
    (task.eType = .schOneShot → ¬ DateExpired task.startDate pTime ∧
      task.startTime.ui16Hour.toNat < 24 ∧ task.startTime.ui16Minute.toNat < 60 ∧
      task.startTime.ui16Second.toNat < 60 ∧ task.ePCity ≠ .schSecMinHour) ∧
    (task.ePCity = .schSecMinHour →
      0 < task.ui32Interval.toNat ∧ task.ui32Interval.toNat ≤ noSecsInDay) := by
  unfold validateTask at valid
  split at valid
  · cases valid
  rename_i date
  split at valid
  · cases valid
  rename_i time
  split at valid
  · cases valid
  rename_i kind
  split at valid
  · cases valid
  rename_i interval
  split at valid
  · cases valid
  split at valid
  · cases valid
  rename_i periodic
  have type : task.eType = .schOneShot ∨ task.eType = .schPeriodic := by
    by_contra neither
    exact kind (not_or.mp neither)
  refine ⟨type, ?_, ?_⟩
  · intro oneShot
    have notPeriodic : task.eType ≠ .schPeriodic := by simp [oneShot]
    have inDay : ¬ _ := fun late => time ⟨late, notPeriodic⟩
    simp only [noHourInDay, noMinsInHour, noSecsInMin] at inDay
    refine ⟨fun expired => date ⟨expired, notPeriodic⟩, by omega, by omega, by omega, ?_⟩
    intro hourly
    exact periodic ⟨hourly, notPeriodic⟩
  · intro hourly
    have range : ¬ _ := fun out => interval ⟨hourly, out⟩
    rw [not_or] at range
    refine ⟨?_, by omega⟩
    by_contra zero
    apply range.1
    apply UInt32.toNat_inj.mp
    simp only [UInt32.toNat_zero]
    omega

def dailyTask (hour minute second : Nat) : StTask :=
  { startDate := ⟨3, 2, 2004⟩
    endDate := ⟨3, 2, 2004⟩
    startTime := ⟨UInt16.ofNat hour, UInt16.ofNat minute, UInt16.ofNat second⟩
    endTime := ⟨0, 0, 0⟩
    eType := .schPeriodic
    ePCity := .schDay
    ui32Interval := 0
    eWeekDay := .schAllDays
    fp := 1
    vpArg := 1 }

def oneShotTask (date : StDate) (hour minute second : Nat) : StTask :=
  { dailyTask hour minute second with startDate := date, eType := .schOneShot }

end Validation

end EveAgent.Scheduler
