import EveAgent.JobSched.Agreement
import EveAgent.JobSched.DateTimes

namespace EveAgent.JobSched

open Scheduler

section Spawn

/-- The check of `JS_SpawnJobSched`, after which the thread ends. -/
def jsSpawnRefused (pstJobMaster : StJobMaster) (uiCurrentTime : UInt32) : Bool :=
  decide (pstJobMaster.uiEndTimeinNum < uiCurrentTime)

/-- The event over other memory: what is not initialised in the record and on the stack. -/
def Event.overMemory (event : Event) (uiEndTimeinNum : UInt32) (task : StTask) : Event :=
  { event with
    job := { event.job with uiEndTimeinNum := uiEndTimeinNum }
    task := task }

/-- The members that `SCH_AddTask` and the scheduler read. -/
structure SameSchedule (task other : StTask) : Prop where
  eType : task.eType = other.eType
  ePCity : task.ePCity = other.ePCity
  eWeekDay : task.eWeekDay = other.eWeekDay
  startDate : task.startDate = other.startDate
  startTime : task.startTime = other.startTime

def Periodic (job : StJobMaster) : Prop :=
  job.iJobMasInterval = 1 ∨ job.iJobMasInterval = 2 ∨ job.iJobMasInterval = 3

/-- A call of `SCH_AddTask` is for a well-formed job, with a task that the record determines, and
the job will be refused only when it is over. -/
structure WellFormed (zone : TimeZone) (event : Event) (job : StJobMaster) (task : StTask) :
    Prop where
  interval : job.iJobMasInterval = 0 ∨ Periodic job
  startTime : job.pcJobMasStartTime ≠ none
  finishTime : Periodic job → job.pcJobMasFinishTime ≠ none
  determined : ∀ uiEndTimeinNum memory job' task',
    jsAddTask zone (event.overMemory uiEndTimeinNum memory) = some (some (job', task')) →
      SameSchedule task' task
  refused : ∀ uiCurrentTime, jsSpawnRefused job uiCurrentTime = true →
    Periodic job ∧ ∃ octets tm iTime, job.pcJobMasFinishTime = some octets ∧
      jsFillTimeStruct zone octets = some (tm, iTime) ∧ iTime < uiCurrentTime

def AddsWellFormed (zone : TimeZone) (event : Event) : Prop :=
  ∀ uiEndTimeinNum memory job task,
    jsAddTask zone (event.overMemory uiEndTimeinNum memory) = some (some (job, task)) →
      WellFormed zone event job task

def Given (zone : TimeZone) (time : Option Octets) : Prop :=
  ∃ octets tm iTime, time = some octets ∧ jsFillTimeStruct zone octets = some (tm, iTime) ∧
    iTime ≠ 0

/-- The record is not turned down on the way to `SCH_AddTask`. -/
def Passes (zone : TimeZone) (job : StJobMaster) : Prop :=
  Given zone job.pcJobMasStartTime ∧ (job.iJobMasInterval = 0 ∨
    job.iJobMasInterval ≠ -1 ∧ Given zone job.pcJobMasFinishTime)

end Spawn

section Added

variable {zone : TimeZone} {event : Event} {job : StJobMaster} {task : StTask}

theorem addTask_iff :
    jsAddTask zone event = some (some (job, task)) ↔
      ∃ octets tm iTime, event.job.pcJobMasStartTime = some octets ∧
        jsFillTimeStruct zone octets = some (tm, iTime) ∧ iTime ≠ 0 ∧
        ((event.job.iJobMasInterval = 0 ∧ job = event.job ∧
            task = { updateInterval event.job.iJobMasInterval (weekDay (jsGetDay zone iTime))
                { event.task with startTime := tm.time, startDate := tm.date } with
              vpArg := event.pstJSStruct
              fp := jsPerformJobSchedAction }) ∨
          (event.job.iJobMasInterval ≠ 0 ∧ event.job.iJobMasInterval ≠ -1 ∧
            ∃ octets' tm' iTime', event.job.pcJobMasFinishTime = some octets' ∧
              jsFillTimeStruct zone octets' = some (tm', iTime') ∧ iTime' ≠ 0 ∧
              job = { event.job with uiEndTimeinNum := iTime' } ∧
              task = { updateInterval event.job.iJobMasInterval (weekDay (jsGetDay zone iTime))
                  { event.task with
                    startTime := tm.time
                    startDate := tm.date
                    endTime := tm'.time
                    endDate := tm'.date } with
                vpArg := event.pstJSStruct
                fp := jsPerformJobSchedAction })) := by
  constructor
  · intro added
    unfold jsAddTask at added
    dsimp only at added
    split at added
    · cases added
    rename_i octets start
    split at added
    · cases added
    rename_i tm iTime decoded
    split at added
    · cases added
    rename_i nonzero
    refine ⟨octets, tm, iTime, start, decoded, nonzero, ?_⟩
    split at added
    · rename_i once
      cases added
      exact .inl ⟨once, rfl, rfl⟩
    rename_i periodic
    split at added
    · cases added
    rename_i octets' finish
    split at added
    · cases added
    rename_i tm' iTime' decoded'
    split at added
    · cases added
    rename_i nonzero'
    split at added
    · cases added
    rename_i specified
    cases added
    exact .inr ⟨periodic, specified, octets', tm', iTime', finish, decoded', nonzero', rfl, rfl⟩
  · intro passes
    obtain ⟨octets, tm, iTime, start, decoded, nonzero, rest⟩ := passes
    unfold jsAddTask
    simp only [start, decoded, nonzero, if_false]
    rcases rest with ⟨once, rfl, rfl⟩ | ⟨periodic, specified, rest⟩
    · simp only [once, if_true]
    · obtain ⟨octets', tm', iTime', finish, decoded', nonzero', rfl, rfl⟩ := rest
      simp only [periodic, finish, decoded', nonzero', specified, if_false]
      rw [← start, ← finish]

theorem updateInterval_schedule {iJobMasInterval : Int16} {day : EWeekDay} {first second : StTask}
    (known : iJobMasInterval = 0 ∨ iJobMasInterval = 1 ∨ iJobMasInterval = 2 ∨
      iJobMasInterval = 3)
    (date : first.startDate = second.startDate) (time : first.startTime = second.startTime)
    (vpArg fp : Nat) :
    SameSchedule { updateInterval iJobMasInterval day first with vpArg := vpArg, fp := fp }
      { updateInterval iJobMasInterval day second with vpArg := vpArg, fp := fp } := by
  rcases known with rfl | rfl | rfl | rfl
  · exact ⟨rfl, rfl, rfl, date, time⟩
  · exact ⟨rfl, rfl, rfl, date, time⟩
  · exact ⟨rfl, rfl, rfl, date, time⟩
  · exact ⟨rfl, rfl, rfl, date, time⟩

theorem passes_of_added (added : jsAddTask zone event = some (some (job, task))) :
    Passes zone event.job := by
  obtain ⟨octets, tm, iTime, start, decoded, nonzero, rest⟩ := addTask_iff.mp added
  constructor
  · exact ⟨octets, tm, iTime, start, decoded, nonzero⟩
  · rcases rest with ⟨once, _⟩ | ⟨_, specified, octets', tm', iTime', finish, decoded', nonzero', _⟩
    · exact .inl once
    · exact .inr ⟨specified, octets', tm', iTime', finish, decoded', nonzero'⟩

theorem added_of_passes (passes : Passes zone event.job) :
    ∃ job task, jsAddTask zone event = some (some (job, task)) ∧
      job.iJobMasInterval = event.job.iJobMasInterval ∧
      (event.job.iJobMasInterval = 0 → job = event.job) := by
  obtain ⟨⟨octets, tm, iTime, start, decoded, nonzero⟩, rest⟩ := passes
  by_cases once : event.job.iJobMasInterval = 0
  · exact ⟨_, _, addTask_iff.mpr ⟨octets, tm, iTime, start, decoded, nonzero,
      .inl ⟨once, rfl, rfl⟩⟩, rfl, fun _ => rfl⟩
  · rcases rest with zero | ⟨specified, octets', tm', iTime', finish, decoded', nonzero'⟩
    · exact absurd zero once
    · exact ⟨_, _, addTask_iff.mpr ⟨octets, tm, iTime, start, decoded, nonzero,
        .inr ⟨once, specified, octets', tm', iTime', finish, decoded', nonzero', rfl, rfl⟩⟩, rfl,
        fun zero => absurd zero once⟩

theorem wellFormed_of_periodic (periodic : Periodic event.job) : AddsWellFormed zone event := by
  intro uiEndTimeinNum memory job task added
  have known : event.job.iJobMasInterval = 0 ∨ event.job.iJobMasInterval = 1 ∨
    event.job.iJobMasInterval = 2 ∨ event.job.iJobMasInterval = 3 := .inr periodic
  have notOnce : event.job.iJobMasInterval ≠ 0 := by
    intro once
    rcases periodic with one | two | three
    · rw [once] at one
      exact absurd one (by decide)
    · rw [once] at two
      exact absurd two (by decide)
    · rw [once] at three
      exact absurd three (by decide)
  obtain ⟨octets, tm, iTime, start, decoded, nonzero, rest⟩ := addTask_iff.mp added
  rcases rest with ⟨once, _⟩ | ⟨_, specified, rest⟩
  · exact absurd once notOnce
  obtain ⟨octets', tm', iTime', finish, decoded', nonzero', sameJob, sameTask⟩ := rest
  have interval : job.iJobMasInterval = event.job.iJobMasInterval := by
    rw [sameJob]
    rfl
  have starts : job.pcJobMasStartTime = some octets := by
    rw [sameJob]
    exact start
  have finishes : job.pcJobMasFinishTime = some octets' := by
    rw [sameJob]
    exact finish
  have periodic' : Periodic job := by
    rw [Periodic, interval]
    exact periodic
  constructor
  · exact .inr periodic'
  · rw [starts]
    exact Option.some_ne_none octets
  · intro _
    rw [finishes]
    exact Option.some_ne_none octets'
  · intro other memory' job' task' added'
    obtain ⟨octets₂, tm₂, iTime₂, start₂, decoded₂, _, rest₂⟩ := addTask_iff.mp added'
    have sameStart : some octets₂ = some octets := start₂.symm.trans start
    cases sameStart
    rw [decoded] at decoded₂
    cases decoded₂
    rcases rest₂ with ⟨once, _⟩ | ⟨_, _, _, _, _, _, _, _, _, sameTask₂⟩
    · exact absurd once notOnce
    rw [sameTask, sameTask₂]
    apply updateInterval_schedule known
    · rfl
    · rfl
  · intro uiCurrentTime refused
    have later : iTime' < uiCurrentTime := by
      have before := of_decide_eq_true refused
      rw [sameJob] at before
      exact before
    exact ⟨periodic', octets', tm', iTime', finishes, decoded', later⟩

/-- A job is well-formed for the scheduler, and refused only when it is over, exactly when it is
periodic or turned down. -/
theorem addsWellFormed_iff (zone : TimeZone) (event : Event) :
    AddsWellFormed zone event ↔ Periodic event.job ∨ ¬ Passes zone event.job := by
  constructor
  · intro adds
    by_contra neither
    obtain ⟨notPeriodic, passes⟩ := not_or.mp neither
    rw [not_not] at passes
    have passes' : Passes zone (event.overMemory 0 event.task).job := passes
    obtain ⟨job, task, added, interval, once⟩ := added_of_passes passes'
    have wellFormed := adds 0 event.task job task added
    have same : job.iJobMasInterval = event.job.iJobMasInterval := interval
    rcases wellFormed.interval with zero | periodic
    · -- over a zero in memory a one-shot job is refused at any time but 0
      have record := once (same.symm.trans zero)
      have refused : jsSpawnRefused job 1 = true := by
        rw [record]
        rfl
      have periodic := (wellFormed.refused 1 refused).1
      rw [Periodic, same] at periodic
      exact notPeriodic periodic
    · rw [Periodic, same] at periodic
      exact notPeriodic periodic
  · intro right
    rcases right with periodic | turnedDown
    · exact wellFormed_of_periodic periodic
    · intro uiEndTimeinNum memory job task added
      exact absurd (passes_of_added added) turnedDown

/-- A one-shot job, over memory that holds zeros. -/
def onceJob : StJobMaster :=
  { dailyJob 1 [7, 212, 1, 1, 9, 30, 1] with
    iJobMasInterval := 0
    pcJobMasFinishTime := none }

/-- It reaches `SCH_AddTask`, and when it is to run it is refused at any time but 0. -/
theorem onceJob_refused :
    (∃ job task, jsAddTask plainZone (jobEvent .jsAdd 1 onceJob (some 10)) =
        some (some (job, task)) ∧ jsSpawnRefused job 1 = true) ∧
      ¬ AddsWellFormed plainZone (jobEvent .jsAdd 1 onceJob (some 10)) := by
  have passes : Passes plainZone onceJob := by
    constructor
    · exact ⟨_, _, _, rfl, rfl, by decide⟩
    · exact .inl rfl
  obtain ⟨job, task, added, interval, once⟩ :=
    @added_of_passes plainZone (jobEvent .jsAdd 1 onceJob (some 10)) passes
  have refused : jsSpawnRefused job 1 = true := by
    rw [once rfl]
    rfl
  constructor
  · exact ⟨job, task, added, refused⟩
  · intro adds
    have periodic := ((adds 0 (dailyTask 0 0 0) job task added).refused 1 refused).1
    rw [Periodic, interval] at periodic
    exact absurd periodic (by decide)

end Added

end EveAgent.JobSched
