import EveAgent.Scheduler.ExecutionList
import EveAgent.Scheduler.Representation

namespace EveAgent.Scheduler

section Slots

/-- The tasks that are stored in the slot of their start hour. -/
def ByStartHour (task : StTask) : Prop :=
  task.ePCity = .schDay ∨ task.ePCity = .schWeek ∨ task.ePCity = .schMonth

instance (task : StTask) : Decidable (ByStartHour task) := inferInstanceAs (Decidable (_ ∨ _))

/-- `SCH_AddTask` rejects the task or stores it in the table, in the slot of its start hour where
it has one, and its second of that hour lies in the hour. -/
structure SlotSafe (mem : Memory) (table : Table) (pTime : Tm) (task : StTask) (node : Nat) :
    Prop where
  stored : ∃ mem' id, schAddTask mem pTime task (some node) = some (mem', id) ∧
    (id = none ∧ Represents mem' table ∨
      id = some node ∧ ∃ index, slotIndex task = some index ∧ index < masterArrSize ∧
        Represents mem' (table ++ [⟨node, index, task⟩]))
  startHour : ByStartHour task → ∀ index, slotIndex task = some index → index < everyHourTask
  offset : ByStartHour task → (startOffset task).toNat < noSecsInHour

/-- The start time lies in a day, and its seconds in an hour. -/
def StartsInDay (task : StTask) : Prop :=
  task.startTime.ui16Hour.toNat < noHourInDay ∧
    task.startTime.ui16Minute.toNat * noSecsInMin + task.startTime.ui16Second.toNat < noSecsInHour

variable {mem : Memory} {table : Table} {pTime : Tm} {task : StTask} {node : Nat}

theorem slotIndex_startHour (calendar : ByStartHour task) :
    slotIndex task = some task.startTime.ui16Hour.toNat := by
  unfold slotIndex
  rcases calendar with day | week | month
  · rw [day]
  · rw [week]
  · rw [month]

theorem slotIndex_other (other : ¬ByStartHour task) :
    slotIndex task = none ∨ slotIndex task = some everyHourTask := by
  unfold slotIndex
  cases city : task.ePCity with
  | schSecMinHour => exact Or.inr rfl
  | schDay => exact absurd (Or.inl city) other
  | schWeek => exact absurd (Or.inr (Or.inl city)) other
  | schMonth => exact absurd (Or.inr (Or.inr city)) other
  | outOfRange => exact Or.inl rfl

theorem stored_inside (rep : Represents mem table) (free : mem.heap node = none)
    (valid : validateTask pTime task = .nascSuccess)
    (inside : ∀ index, slotIndex task = some index → index < masterArrSize) :
    ∃ mem' id, schAddTask mem pTime task (some node) = some (mem', id) ∧
      (id = none ∧ Represents mem' table ∨
        id = some node ∧ ∃ index, slotIndex task = some index ∧ index < masterArrSize ∧
          Represents mem' (table ++ [⟨node, index, task⟩])) := by
  have unused : ∀ other, some node = some other → mem.heap other = none := by
    intro other same
    rw [← Option.some.inj same]
    exact free
  obtain ⟨mem', added, after⟩ := schAddTask_inside rep pTime task (some node) inside unused
  refine ⟨mem', _, added, ?_⟩
  unfold Table.add at after ⊢
  cases found : slotIndex task with
  | none =>
    rw [found] at after
    exact Or.inl ⟨by simp, after⟩
  | some index =>
    rw [found] at after
    simp only [if_pos valid] at after ⊢
    exact Or.inr ⟨trivial, index, rfl, inside index found, after⟩

/-- A task that `ValidateTask` accepts is stored safely, unless it is a periodic one whose start
time does not lie in a day. -/
theorem task_slots_iff (rep : Represents mem table) (free : mem.heap node = none)
    (valid : validateTask pTime task = .nascSuccess) :
    SlotSafe mem table pTime task node ↔
      (task.eType = .schPeriodic → ByStartHour task → StartsInDay task) := by
  obtain ⟨types, oneShot, _⟩ := validateTask_cases valid
  constructor
  · intro safe _ calendar
    have hour := safe.startHour calendar _ (slotIndex_startHour calendar)
    have offset := safe.offset calendar
    rw [startOffset_toNat] at offset
    exact ⟨hour, offset⟩
  · intro periodic
    have inDay : ByStartHour task → StartsInDay task := by
      intro calendar
      rcases types with once | often
      · obtain ⟨_, hour, minute, second, _⟩ := oneShot once
        constructor
        · exact hour
        · simp only [noSecsInMin, noSecsInHour]
          omega
      · exact periodic often calendar
    have startHour : ByStartHour task → ∀ index, slotIndex task = some index →
        index < everyHourTask := by
      intro calendar index found
      rw [slotIndex_startHour calendar] at found
      rw [← Option.some.inj found]
      exact (inDay calendar).1
    constructor
    · apply stored_inside rep free valid
      intro index found
      by_cases calendar : ByStartHour task
      · exact Nat.lt_trans (startHour calendar index found) (by decide)
      · rcases slotIndex_other calendar with none | hourly
        · rw [none] at found
          cases found
        · rw [hourly] at found
          rw [← Option.some.inj found]
          decide
    · exact startHour
    · intro calendar
      rw [startOffset_toNat]
      exact (inDay calendar).2

/-- The last second of a day. -/
theorem task_slots_lastSecond :
    SlotSafe initMasterTable [] (localtime 0) (dailyTask 23 59 59) 10 ↔
      ((dailyTask 23 59 59).eType = .schPeriodic → ByStartHour (dailyTask 23 59 59) →
        StartsInDay (dailyTask 23 59 59)) :=
  task_slots_iff represents_init rfl (by decide)

/-- A daily task at hour 24 is stored in the slot of the tasks of every hour, and one at hour 25
behind the table. -/
theorem task_behind_table :
    validateTask (localtime 0) (dailyTask 24 0 0) = .nascSuccess ∧
      ¬SlotSafe initMasterTable [] (localtime 0) (dailyTask 24 0 0) 10 ∧
      validateTask (localtime 0) (dailyTask 25 0 0) = .nascSuccess ∧
      schAddTask initMasterTable (localtime 0) (dailyTask 25 0 0) (some 10) = none := by
  constructor
  · decide
  · constructor
    · intro safe
      have early := safe.startHour (Or.inl rfl) 24 rfl
      exact absurd early (by decide)
    · constructor
      · decide
      · rw [schAddTask, if_neg (by decide)]
        rfl

end Slots

end EveAgent.Scheduler
