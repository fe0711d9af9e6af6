import EveAgent.Scheduler.ExecutionList

namespace EveAgent.Scheduler

section Multiples

/-- The list of an hour is built at some second of it. -/
def builtTime (day : Nat) (second : Nat → Nat) (hour : Nat) : Nat :=
  day * noSecsInDay + hour * noSecsInHour + second hour

/-- The seconds of the day that the entries of one hour stand for. -/
def hourTimes (day : Nat) (second : Nat → Nat) (task : StTask) (hour : Nat) : List Nat :=
  (everyHourEntries (builtTime day second hour) [task]).map fun entry =>
    noSecsInHour * hour + entry.2.toNat

def dayTimes (day : Nat) (second : Nat → Nat) (task : StTask) : List Nat :=
  (List.range noHourInDay).flatMap (hourTimes day second task)

/-- A time of the day that the interval, counted from midnight, ends at. -/
def IsMultiple (ui32Interval : UInt32) (time : Nat) : Prop :=
  ∃ k, 1 ≤ k ∧ time = k * ui32Interval.toNat ∧ time ≤ noSecsInDay

structure OnMultiples (day : Nat) (second : Nat → Nat) (task : StTask) : Prop where
  once : (dayTimes day second task).Nodup
  times : ∀ time, time ∈ dayTimes day second task ↔ IsMultiple task.ui32Interval time
  offsets : ∀ hour < noHourInDay,
    ∀ entry ∈ everyHourEntries (builtTime day second hour) [task],
      0 < entry.2.toNat ∧ entry.2.toNat ≤ noSecsInHour

variable {day hour : Nat} {second : Nat → Nat} {task : StTask}

theorem builtTime_hour (within : second hour < noSecsInHour) (early : hour < noHourInDay) :
    (localtime (builtTime day second hour)).tmHour = hour := by
  rw [localtime_hour, builtTime]
  simp only [noSecsInDay, noSecsInHour, noHourInDay] at *
  omega

theorem builtTime_today (within : second hour < noSecsInHour) (early : hour < noHourInDay) :
    Today (localtime (builtTime day second hour)) task ↔
      Today (localtime (day * noSecsInDay)) task := by
  have same : (localtime (builtTime day second hour)).tmWday =
      (localtime (day * noSecsInDay)).tmWday := by
    simp only [localtime, builtTime, noSecsInDay, noSecsInHour, noHourInDay] at *
    omega
  rw [Today, Today, same]

theorem ui16EndHrInSec_toNat (pTime : Tm) :
    (ui16EndHrInSec pTime).toNat = (pTime.tmHour + 1) * 3600 % 65536 := by
  simp only [ui16EndHrInSec, noSecsInHour, UInt16.toNat_add, UInt16.toNat_ofNat']
  omega

/-- The offset for the hour that begins here, if the task is found due in it. -/
def longOffset (interval hour : Nat) : Option Nat :=
  if (hour + 1) * 3600 % 65536 % interval < 3600 then
    if (hour + 1) * 3600 % 65536 % interval = 0 then some 3600
    else some ((hour + 1) * 3600 % 65536 % interval)
  else none

theorem executions_one (ui32Interval : UInt32) : executions ui32Interval 1 = [ui32Interval] := by
  simp [executions]

theorem everyHourEntries_long (within : second hour < noSecsInHour) (early : hour < noHourInDay)
    (hourly : task.ePCity = .schSecMinHour) (today : Today (localtime (day * noSecsInDay)) task)
    (long : 3600 < task.ui32Interval) (inDay : task.ui32Interval ≤ 86400) :
    (everyHourEntries (builtTime day second hour) [task]).map (fun entry => entry.2.toNat) =
      (longOffset task.ui32Interval.toNat hour).toList := by
  have selected : task.ePCity = .schSecMinHour ∧
      Today (localtime (builtTime day second hour)) task :=
    ⟨hourly, (builtTime_today within early).mpr today⟩
  have notShort : ¬(task.ui32Interval > 0 ∧ task.ui32Interval ≤ 3600) := by
    intro both
    have short := UInt32.le_iff_toNat_le.mp both.2
    have above := UInt32.lt_iff_toNat_lt.mp long
    omega
  have mod : ((ui16EndHrInSec (localtime (builtTime day second hour))).toUInt32 %
      task.ui32Interval).toNat = (hour + 1) * 3600 % 65536 % task.ui32Interval.toNat := by
    rw [UInt32.toNat_mod, UInt16.toNat_toUInt32, ui16EndHrInSec_toNat, builtTime_hour within early]
  rw [everyHourEntries, everyHourLoop, longOffset, ← mod]
  simp only [everyHourVisit, if_pos selected, if_neg notShort, if_pos (And.intro long inDay)]
  by_cases due : (ui16EndHrInSec (localtime (builtTime day second hour))).toUInt32 %
      task.ui32Interval < 3600
  · have short : ((ui16EndHrInSec (localtime (builtTime day second hour))).toUInt32 %
        task.ui32Interval).toNat < 3600 := UInt32.lt_iff_toNat_lt.mp due
    rw [if_pos due, if_pos short]
    simp only [executions_one, everyHourLoop]
    by_cases whole : (ui16EndHrInSec (localtime (builtTime day second hour))).toUInt32 %
        task.ui32Interval = 0
    · rw [if_pos whole, whole]
      rfl
    · have some : ((ui16EndHrInSec (localtime (builtTime day second hour))).toUInt32 %
          task.ui32Interval).toNat ≠ 0 := fun zero => whole (UInt32.toNat_inj.mp zero)
      rw [if_neg whole, if_neg some]
      rfl
  · have late : ¬((ui16EndHrInSec (localtime (builtTime day second hour))).toUInt32 %
        task.ui32Interval).toNat < 3600 := fun early => due (UInt32.lt_iff_toNat_lt.mpr early)
    rw [if_neg due, if_neg late]
    rfl

theorem longOffset_bounds {interval offset : Nat} (found : longOffset interval hour = some offset) :
    0 < offset ∧ offset ≤ 3600 := by
  unfold longOffset at found
  split at found
  · split at found
    · cases found
      omega
    · cases found
      omega
  · cases found

end Multiples

section Days

variable {day : Nat} {second : Nat → Nat} {task : StTask}

def longTimes (interval : Nat) : List Nat :=
  (List.range noHourInDay).flatMap fun hour =>
    (longOffset interval hour).toList.map (noSecsInHour * hour + ·)

theorem dayTimes_long (within : ∀ hour < noHourInDay, second hour < noSecsInHour)
    (hourly : task.ePCity = .schSecMinHour) (today : Today (localtime (day * noSecsInDay)) task)
    (long : 3600 < task.ui32Interval) (inDay : task.ui32Interval ≤ 86400) :
    dayTimes day second task = longTimes task.ui32Interval.toNat := by
  rw [dayTimes, longTimes]
  apply List.flatMap_congr
  intro hour member
  have early := List.mem_range.mp member
  rw [← everyHourEntries_long (within hour early) early hourly today long inDay, List.map_map]
  rfl

theorem mem_hour {interval hour offset : Nat} (early : hour < noHourInDay)
    (found : longOffset interval hour = some offset) :
    noSecsInHour * hour + offset ∈ longTimes interval := by
  rw [longTimes, List.mem_flatMap]
  apply Exists.intro hour
  constructor
  · exact List.mem_range.mpr early
  · rw [found]
    exact List.mem_singleton_self _

theorem mem_longTimes {interval : Nat} (long : 3600 < interval) : 67664 ∈ longTimes interval := by
  have found : longOffset interval 18 = some 2864 := by
    rw [longOffset, Nat.mod_eq_of_lt (by omega : (18 + 1) * 3600 % 65536 < interval)]
    rfl
  exact mem_hour (by decide) found

theorem divisors_fail {interval : Nat} (long : 3600 < interval) (divides : interval ∣ 67664)
    (other : interval ≠ 67664) : ∃ time ∈ longTimes interval, ¬interval ∣ time := by
  obtain ⟨k, product⟩ := divides
  have few : k ≤ 18 := by
    by_contra more
    have least : 3601 * 19 ≤ interval * k := Nat.mul_le_mul long (by omega)
    omega
  have cases : interval = 33832 ∨ interval = 16916 ∨ interval = 8458 ∨ interval = 4229 := by
    interval_cases k <;> omega
  rcases cases with second | fourth | eighth | sixteenth
  · rw [second]
    exact ⟨_, mem_hour (by decide : 9 < noHourInDay) (by decide : _ = some 2168), by decide⟩
  · rw [fourth]
    exact ⟨_, mem_hour (by decide : 4 < noHourInDay) (by decide : _ = some 1084), by decide⟩
  · rw [eighth]
    exact ⟨_, mem_hour (by decide : 2 < noHourInDay) (by decide : _ = some 2342), by decide⟩
  · rw [sixteenth]
    exact ⟨_, mem_hour (by decide : 1 < noHourInDay) (by decide : _ = some 2971), by decide⟩

/-- Over a day the entries stand for the multiples of a long interval exactly for one interval. -/
theorem long_intervals_iff (within : ∀ hour < noHourInDay, second hour < noSecsInHour)
    (hourly : task.ePCity = .schSecMinHour) (today : Today (localtime (day * noSecsInDay)) task)
    (long : 3600 < task.ui32Interval) (inDay : task.ui32Interval ≤ 86400) :
    OnMultiples day second task ↔ task.ui32Interval = 67664 := by
  have above := UInt32.lt_iff_toNat_lt.mp long
  have same := dayTimes_long within hourly today long inDay
  constructor
  · intro right
    by_contra other
    have different : task.ui32Interval.toNat ≠ 67664 := fun number =>
      other (UInt32.toNat_inj.mp number)
    have due : IsMultiple task.ui32Interval 67664 := by
      rw [← right.times, same]
      exact mem_longTimes above
    obtain ⟨k, _, product, _⟩ := due
    have divides : task.ui32Interval.toNat ∣ 67664 := ⟨k, by rw [product, Nat.mul_comm]⟩
    obtain ⟨time, member, fails⟩ := divisors_fail above divides different
    rw [← same, right.times] at member
    obtain ⟨k, _, product, _⟩ := member
    exact fails ⟨k, by rw [product, Nat.mul_comm]⟩
  · intro number
    have times : dayTimes day second task = [67664] := by
      rw [same, number]
      decide
    constructor
    · rw [times]
      exact List.nodup_singleton _
    · intro time
      rw [times, List.mem_singleton, number]
      constructor
      · intro found
        rw [found]
        exact ⟨1, by decide, by decide, by decide⟩
      · intro multiple
        obtain ⟨k, positive, product, early⟩ := multiple
        have interval : (67664 : UInt32).toNat = 67664 := rfl
        rw [interval] at product
        simp only [noSecsInDay] at early
        omega
    · intro hour early entry member
      have offset : entry.2.toNat ∈ (longOffset task.ui32Interval.toNat hour).toList := by
        rw [← everyHourEntries_long (within hour early) early hourly today long inDay]
        exact List.mem_map_of_mem member
      exact longOffset_bounds (Option.mem_toList.mp offset)

/-- On a Thursday. -/
theorem long_intervals_thursday :
    OnMultiples 0 (fun _ => 0) (intervalTask 67664 .schThu) ↔
      (intervalTask 67664 .schThu).ui32Interval = 67664 :=
  long_intervals_iff (fun _ _ => by decide) rfl (by decide) (by decide) (by decide)

/-- A task of every two hours is run at 18:47:44 and not at 20:00:00. -/
theorem two_hours_wrapped :
    67664 ∈ dayTimes 0 (fun _ => 0) (intervalTask 7200 .schThu) ∧
      72000 ∉ dayTimes 0 (fun _ => 0) (intervalTask 7200 .schThu) ∧
      IsMultiple (intervalTask 7200 .schThu).ui32Interval 72000 ∧
      ¬OnMultiples 0 (fun _ => 0) (intervalTask 7200 .schThu) := by
  have missed : 72000 ∉ dayTimes 0 (fun _ => 0) (intervalTask 7200 .schThu) := by
    decide +kernel
  have due : IsMultiple (intervalTask 7200 .schThu).ui32Interval 72000 := ⟨10, by decide⟩
  constructor
  · decide +kernel
  · constructor
    · exact missed
    · constructor
      · exact due
      · exact fun right => missed ((right.times 72000).mpr due)

end Days

end EveAgent.Scheduler
