import EveAgent.JobSched.Agreement
import EveAgent.JobSched.DateTimes

namespace EveAgent.JobSched

open Scheduler Machine Chain

section Returns

/-- The event in other memory: what is not initialised for it is these. -/
def Event.inMemory (event : Event) (uiEndTimeinNum : UInt32) (iDayCount : EWeekDay) : Event :=
  { event with
    job := { event.job with uiEndTimeinNum := uiEndTimeinNum }
    iDayCount := iDayCount }

/-- The state with which `JS_ModifyJobToSched` is called. -/
def State.received (s : State) (event : Event) : State :=
  { s with jobs := Function.update s.jobs event.pstJSStruct (some event.job) }

end Returns

section Attributes

def JobOf (s : State) (iIndex : Int16) (job : StJobMaster) (task : StTask) : Prop :=
  ∃ lTaskId, jsGetTaskID s.stListPtr iIndex = some lTaskId ∧
    schGetTask s.mem lTaskId = some (some task) ∧ s.jobs task.vpArg = some job

theorem JobOf.unique {s : State} {iIndex : Int16} {job job' : StJobMaster} {task task' : StTask}
    (first : JobOf s iIndex job task) (second : JobOf s iIndex job' task') :
    job = job' ∧ task = task' := by
  obtain ⟨lTaskId, listed, got, found⟩ := first
  obtain ⟨lTaskId', listed', got', found'⟩ := second
  rw [listed] at listed'
  cases listed'
  rw [got] at got'
  cases got'
  rw [found] at found'
  exact ⟨Option.some.inj found', rfl⟩

def StartsOn (zone : TimeZone) (job : StJobMaster) (day : EWeekDay) : Prop :=
  ∃ octets tm iTime, job.pcJobMasStartTime = some octets ∧
    jsFillTimeStruct zone octets = some (tm, iTime) ∧ day = weekDay (jsGetDay zone iTime)

/-- The task of the job has this interval; others than these four there are not. -/
def HasInterval (zone : TimeZone) (iJobMasInterval : Int16) (job : StJobMaster) (task : StTask) :
    Prop :=
  iJobMasInterval = 0 ∧ task.eType = .schOneShot ∧ task.ePCity = .schDay ∧
      task.eWeekDay = .schAllDays ∨
    iJobMasInterval = 1 ∧ task.eType = .schPeriodic ∧ task.ePCity = .schDay ∧
      task.eWeekDay = .schAllDays ∨
    iJobMasInterval = 2 ∧ task.eType = .schPeriodic ∧ task.ePCity = .schWeek ∧
      StartsOn zone job task.eWeekDay ∨
    iJobMasInterval = 3 ∧ task.eType = .schPeriodic ∧ task.ePCity = .schMonth ∧
      StartsOn zone job task.eWeekDay

/-- Attributes of the columns that are not carried are as before, and the carried ones have the
new value. -/
structure CarriedOnly (zone : TimeZone) (columns : Columns) (job : StJobMaster) (task : StTask)
    (job' : StJobMaster) (task' : StTask) : Prop where
  id : job'.pcJobMasId = (columns.id.map cString).or job.pcJobMasId
  name : job'.pcJobMasName = (columns.name.map cString).or job.pcJobMasName
  startTime : job'.pcJobMasStartTime = (columns.startTime.map cString).or job.pcJobMasStartTime
  finishTime :
    job'.pcJobMasFinishTime = (columns.finishTime.map cString).or job.pcJobMasFinishTime
  started : match columns.startTime with
    | none => task'.startDate = task.startDate ∧ task'.startTime = task.startTime
    | some octets => ∃ tm iTime, jsFillTimeStruct zone octets = some (tm, iTime) ∧
        task'.startDate = tm.date ∧ task'.startTime = tm.time
  ended : match columns.finishTime with
    | none => job'.uiEndTimeinNum = job.uiEndTimeinNum ∧ task'.endDate = task.endDate ∧
        task'.endTime = task.endTime
    | some octets => ∃ tm iTime, jsFillTimeStruct zone octets = some (tm, iTime) ∧
        job'.uiEndTimeinNum = iTime ∧ task'.endDate = tm.date ∧ task'.endTime = tm.time
  interval : match columns.interval with
    | none => task'.eType = task.eType ∧ task'.ePCity = task.ePCity ∧
        task'.eWeekDay = task.eWeekDay
    | some iJobMasInterval => HasInterval zone iJobMasInterval job' task'

/-- Whatever was in the memory, a modification that succeeds changes what the event carries and
nothing else. -/
def ModifiesCarried (zone : TimeZone) (s : State) (columns : Columns) (event : Event) : Prop :=
  ∀ uiEndTimeinNum iDayCount t job task,
    JobOf s event.job.iIndex job task →
    jsModifyJob zone (s.received (event.inMemory uiEndTimeinNum iDayCount))
      (event.inMemory uiEndTimeinNum iDayCount) = some (t, .nascSuccess) →
    ∃ job' task', JobOf t event.job.iIndex job' task' ∧
      CarriedOnly zone columns job task job' task'

/-- The finish time is among the columns, and so is the start time where the weekday of a new
interval depends on it. -/
structure Columns.Complete (columns : Columns) : Prop where
  finishTime : columns.finishTime ≠ none
  interval : ∀ iJobMasInterval ∈ columns.interval, iJobMasInterval = 0 ∨ iJobMasInterval = 1 ∨
    ((iJobMasInterval = 2 ∨ iJobMasInterval = 3) ∧ columns.startTime ≠ none)

end Attributes

section Times

variable {zone : TimeZone} {event : Event} {task task' : StTask} {uiEndTimeinNum : UInt32}

/-- What the start time of an event makes of a task, with the weekday for a new interval. -/
def StartTimes (zone : TimeZone) (event : Event) (task started : StTask) (iDayCount : EWeekDay) :
    Prop :=
  match event.job.pcJobMasStartTime with
  | none => started = task ∧ iDayCount = event.iDayCount
  | some octets => ∃ tm iTime, jsFillTimeStruct zone octets = some (tm, iTime) ∧ iTime ≠ 0 ∧
      started = { task with startTime := tm.time, startDate := tm.date } ∧
      iDayCount = weekDay (jsGetDay zone iTime)

def FinishTimes (zone : TimeZone) (event : Event) (started : StTask) (iDayCount : EWeekDay)
    (task : StTask) (uiEndTimeinNum : UInt32) : Prop :=
  match event.job.pcJobMasFinishTime with
  | none => task = started ∧ uiEndTimeinNum = event.job.uiEndTimeinNum
  | some octets => ∃ tm iTime, jsFillTimeStruct zone octets = some (tm, iTime) ∧ iTime ≠ 0 ∧
      uiEndTimeinNum = iTime ∧
      task = (if event.job.iJobMasInterval = -1 then
          { started with endTime := tm.time, endDate := tm.date }
        else updateInterval event.job.iJobMasInterval iDayCount
          { started with endTime := tm.time, endDate := tm.date })

theorem modifyTimes_iff :
    jsModifyTimes zone event task = some (some (task', uiEndTimeinNum)) ↔
      ∃ started iDayCount, StartTimes zone event task started iDayCount ∧
        FinishTimes zone event started iDayCount task' uiEndTimeinNum := by
  constructor
  · intro computed
    unfold jsModifyTimes at computed
    dsimp only at computed
    split at computed
    · cases computed
    · cases computed
    rename_i started iDayCount first
    refine ⟨started, iDayCount, ?_, ?_⟩
    · split at first
      · rename_i absent
        cases first
        unfold StartTimes
        rw [absent]
        exact ⟨rfl, rfl⟩
      rename_i octets carried
      split at first
      · cases first
      rename_i tm iTime decoded
      split at first
      · cases first
      rename_i nonzero
      cases first
      unfold StartTimes
      rw [carried]
      exact ⟨tm, iTime, decoded, nonzero, rfl, rfl⟩
    · split at computed
      · rename_i absent
        cases computed
        unfold FinishTimes
        rw [absent]
        exact ⟨rfl, rfl⟩
      rename_i octets carried
      split at computed
      · cases computed
      rename_i tm iTime decoded
      split at computed
      · cases computed
      rename_i nonzero
      unfold FinishTimes
      rw [carried]
      refine ⟨tm, iTime, decoded, nonzero, ?_⟩
      split at computed
      · rename_i unspecified
        cases computed
        exact ⟨rfl, by rw [if_pos unspecified]⟩
      · rename_i specified
        cases computed
        exact ⟨rfl, by rw [if_neg specified]⟩
  · intro times
    obtain ⟨started, iDayCount, first, last⟩ := times
    unfold StartTimes at first
    unfold FinishTimes at last
    unfold jsModifyTimes
    dsimp only
    cases start : event.job.pcJobMasStartTime with
    | none =>
      simp only [start] at first
      obtain ⟨rfl, rfl⟩ := first
      cases finish : event.job.pcJobMasFinishTime with
      | none =>
        simp only [finish] at last
        obtain ⟨rfl, rfl⟩ := last
        rfl
      | some octets =>
        simp only [finish] at last
        obtain ⟨tm, iTime, decoded, nonzero, rfl, rfl⟩ := last
        simp only [decoded, nonzero, if_false]
        split_ifs <;> rfl
    | some octets =>
      simp only [start] at first
      obtain ⟨tm, iTime, decoded, nonzero, rfl, rfl⟩ := first
      simp only [decoded, nonzero, if_false]
      cases finish : event.job.pcJobMasFinishTime with
      | none =>
        simp only [finish] at last
        obtain ⟨rfl, rfl⟩ := last
        rfl
      | some octets =>
        simp only [finish] at last
        obtain ⟨tm, iTime, decoded, nonzero, rfl, rfl⟩ := last
        simp only [decoded, nonzero, if_false]
        split_ifs <;> rfl

end Times

section Outcomes

structure Targets (s : State) (table : Table) (event : Event) (lTaskId : Nat)
    (job : StJobMaster) (task : StTask) : Prop where
  rep : Represents s.mem table
  listed : jsGetTaskID s.stListPtr event.job.iIndex = some lTaskId
  got : schGetTask s.mem lTaskId = some (some task)
  found : s.jobs task.vpArg = some job
  apart : task.vpArg ≠ event.pstJSStruct
  free : ∀ node, event.newNode = some node → s.mem.heap node = none ∨ node = lTaskId

/-- Its modification gets to `SCH_ModifyTask`. -/
structure Applies (zone : TimeZone) (s : State) (table : Table) (event : Event) (lTaskId : Nat)
    (job : StJobMaster) (task task' : StTask) (uiEndTimeinNum : UInt32) : Prop
    extends Targets s table event lTaskId job task where
  copy : event.pstModTask ≠ false
  times : jsModifyTimes zone event task = some (some (task', uiEndTimeinNum))
  copied : (jsModifyRecord event job).2 = true

/-- The task and the record that it gets there with. -/
def StTask.modified (task : StTask) : StTask := { task with fp := jsPerformJobSchedAction }

def modifiedJob (event : Event) (job : StJobMaster) (uiEndTimeinNum : UInt32) : StJobMaster :=
  { (jsModifyRecord event job).1 with uiEndTimeinNum := uiEndTimeinNum }

variable {zone : TimeZone} {s t : State} {table : Table} {event : Event} {lTaskId : Nat}
  {job : StJobMaster} {task task' : StTask} {uiEndTimeinNum : UInt32}

namespace Applies

theorem present (applies : Applies zone s table event lTaskId job task task' uiEndTimeinNum) :
    lTaskId ∈ table.ids := by
  have got := applies.got
  rw [schGetTask_represents applies.rep] at got
  by_contra absent
  rw [Table.get, find_none absent] at got
  cases got

theorem inList (applies : Applies zone s table event lTaskId job task task' uiEndTimeinNum) :
    jsDeleteNodeFromList s.stListPtr event.job.iIndex lTaskId =
      (s.stListPtr.erase ⟨event.job.iIndex, lTaskId⟩, true) := by
  rw [jsDeleteNodeFromList, decide_eq_true (getTaskID_some applies.listed)]

theorem vpArg (applies : Applies zone s table event lTaskId job task task' uiEndTimeinNum) :
    task'.vpArg = task.vpArg :=
  modifyTimes_vpArg applies.times

theorem accepted (applies : Applies zone s table event lTaskId job task task' uiEndTimeinNum)
    (accepts : Accepts event.pTime (StTask.modified task') event.newNode)
    {result : Memory × Option Nat}
    (replaced : schModifyTask s.mem lTaskId event.pTime (StTask.modified task') event.newNode =
      some result) (listNode : event.listNode = true) :
    ∃ t, jsModifyJob zone s event = some (t, .nascSuccess) ∧
      JobOf t event.job.iIndex (modifiedJob event job uiEndTimeinNum) (StTask.modified task') := by
  obtain ⟨mem, id⟩ := result
  obtain ⟨same, rep⟩ := schModifyTask_some applies.rep applies.present applies.free replaced
  rcases add_cases (table.without lTaskId) event.pTime (StTask.modified task') event.newNode with
    ⟨refused, _⟩ | ⟨index, node, _, _, added⟩
  · exact absurd accepts refused
  rw [added] at same rep
  rw [same] at replaced
  refine ⟨{ mem := mem
            jobs := jsFreeJobMaster (Function.update s.jobs task'.vpArg
              (some (modifiedJob event job uiEndTimeinNum))) event.pstJSStruct
            stListPtr := jsAddNodeInJobList (s.stListPtr.erase ⟨event.job.iIndex, lTaskId⟩) node
              event.job.iIndex }, ?_, node, ?_, ?_, ?_⟩
  · unfold jsModifyJob
    simp only [applies.listed, applies.got, applies.copy, if_false, applies.times,
      applies.vpArg, applies.found, applies.copied, Bool.true_eq_false]
    have replaced' := replaced
    simp only [StTask.modified, applies.vpArg] at replaced'
    simp only [replaced', applies.inList, listNode, if_true]
    rfl
  · simp only [jsGetTaskID, jsAddNodeInJobList, List.find?_cons, beq_self_eq_true, Option.map_some]
  · rw [schGetTask_represents rep]
    have last : (⟨node, index, StTask.modified task'⟩ : Entry) ∈
        table.without lTaskId ++ [⟨node, index, StTask.modified task'⟩] :=
      List.mem_append_right _ (List.mem_singleton_self _)
    obtain ⟨entry, member, hit, first⟩ := find_some (mem_ids.mpr ⟨_, last, rfl⟩)
    have unique := Scheduler.entry_unique rep.nodup member last hit
    rw [Table.get, first, unique]
    rfl
  · have apart := applies.apart
    rw [← applies.vpArg] at apart
    change Function.update _ _ _ task'.vpArg = _
    rw [Function.update_of_ne apart, Function.update_self]

theorem rejected (applies : Applies zone s table event lTaskId job task task' uiEndTimeinNum)
    (refused : ¬ Accepts event.pTime (StTask.modified task') event.newNode)
    {result : Memory × Option Nat}
    (replaced : schModifyTask s.mem lTaskId event.pTime (StTask.modified task') event.newNode =
      some result) :
    ∃ t, jsModifyJob zone s event = some (t, .nascSuccess) ∧
      ∀ job task, ¬ JobOf t event.job.iIndex job task := by
  obtain ⟨mem, id⟩ := result
  obtain ⟨same, rep⟩ := schModifyTask_some applies.rep applies.present applies.free replaced
  rcases add_cases (table.without lTaskId) event.pTime (StTask.modified task') event.newNode with
    ⟨_, unchanged⟩ | ⟨_, _, accepts, _⟩
  swap
  · exact absurd accepts refused
  rw [unchanged] at same rep
  rw [same] at replaced
  refine ⟨{ s with
            mem := mem
            jobs := jsFreeJobMaster (Function.update s.jobs task'.vpArg
              (some (modifiedJob event job uiEndTimeinNum))) event.pstJSStruct }, ?_, ?_⟩
  · unfold jsModifyJob
    simp only [applies.listed, applies.got, applies.copy, if_false, applies.times,
      applies.vpArg, applies.found, applies.copied, Bool.true_eq_false]
    have replaced' := replaced
    simp only [StTask.modified, applies.vpArg] at replaced'
    simp only [replaced']
    rfl
  · intro job task again
    obtain ⟨lTaskId', listed, got, _⟩ := again
    have listed' := applies.listed
    change jsGetTaskID s.stListPtr _ = _ at listed
    rw [listed] at listed'
    cases listed'
    rw [schGetTask_represents rep] at got
    have absent : lTaskId ∉ Table.ids (table.without lTaskId) := by
      intro inside
      obtain ⟨entry, member, same⟩ := mem_ids.mp inside
      have different := (List.mem_filter.mp member).2
      rw [bne_iff_ne] at different
      exact different same
    rw [Table.get, find_none absent] at got
    cases got

theorem of_success (targets : Targets s table event lTaskId job task)
    (succeeded : jsModifyJob zone s event = some (t, .nascSuccess)) :
    ∃ task' uiEndTimeinNum result,
      Applies zone s table event lTaskId job task task' uiEndTimeinNum ∧
      schModifyTask s.mem lTaskId event.pTime (StTask.modified task') event.newNode =
        some result ∧
      (Accepts event.pTime (StTask.modified task') event.newNode → event.listNode = true) := by
  have returned := succeeded
  unfold jsModifyJob at returned
  simp only [targets.listed, targets.got] at returned
  split at returned
  · cases returned
  rename_i copy
  split at returned
  · cases returned
  · cases returned
  rename_i task' uiEndTimeinNum times
  have argument := modifyTimes_vpArg times
  simp only [argument, targets.found] at returned
  split at returned
  · cases returned
  rename_i copied
  rw [Bool.not_eq_false] at copied
  have applies : Applies zone s table event lTaskId job task task' uiEndTimeinNum :=
    ⟨targets, copy, times, copied⟩
  have same : schModifyTask s.mem lTaskId event.pTime (StTask.modified task') event.newNode =
      schModifyTask s.mem lTaskId event.pTime
        { task' with fp := jsPerformJobSchedAction, vpArg := task.vpArg } event.newNode := by
    simp only [StTask.modified, argument]
  split at returned
  · cases returned
  · rename_i mem replaced
    refine ⟨task', uiEndTimeinNum, _, applies, same.trans replaced, ?_⟩
    intro accepts
    obtain ⟨rejected, _⟩ :=
      schModifyTask_some targets.rep applies.present targets.free (same.trans replaced)
    rcases add_cases (table.without lTaskId) event.pTime (StTask.modified task') event.newNode with
      ⟨refused, _⟩ | ⟨_, _, _, _, added⟩
    · exact absurd accepts refused
    · rw [added] at rejected
      cases rejected
  · rename_i mem newTaskID replaced
    refine ⟨task', uiEndTimeinNum, _, applies, same.trans replaced, ?_⟩
    intro accepts
    rw [applies.inList] at returned
    dsimp only at returned
    split at returned
    · assumption
    · cases returned

theorem of_job (targets : Targets s table event lTaskId job task)
    (succeeded : jsModifyJob zone s event = some (t, .nascSuccess))
    (kept : ∃ job' task', JobOf t event.job.iIndex job' task') :
    ∃ task' uiEndTimeinNum,
      Applies zone s table event lTaskId job task task' uiEndTimeinNum ∧
      Accepts event.pTime (StTask.modified task') event.newNode ∧
      (∀ index, slotIndex task' = some index → index < masterArrSize) ∧
      event.listNode = true ∧
      JobOf t event.job.iIndex (modifiedJob event job uiEndTimeinNum) (StTask.modified task') := by
  obtain ⟨task', uiEndTimeinNum, result, applies, replaced, listNode⟩ :=
    of_success targets succeeded
  by_cases accepts : Accepts event.pTime (StTask.modified task') event.newNode
  · obtain ⟨t', succeeded', jobOf⟩ := applies.accepted accepts replaced (listNode accepts)
    rw [succeeded] at succeeded'
    cases succeeded'
    refine ⟨task', uiEndTimeinNum, applies, accepts, ?_, listNode accepts, jobOf⟩
    intro slot found
    obtain ⟨valid, _, new⟩ := accepts
    obtain ⟨node, new⟩ := Option.ne_none_iff_exists'.mp new
    have found' : slotIndex (StTask.modified task') = some slot := found
    obtain ⟨_, rep⟩ := schModifyTask_some targets.rep applies.present targets.free replaced
    simp only [Table.add, found', new, valid, if_true] at rep
    exact rep.range ⟨node, slot, StTask.modified task'⟩ (by simp)
  · obtain ⟨t', succeeded', lost⟩ := applies.rejected accepts replaced
    rw [succeeded] at succeeded'
    cases succeeded'
    obtain ⟨job', task'', jobOf⟩ := kept
    exact absurd jobOf (lost job' task'')

end Applies

end Outcomes

section Reached

variable {zone : TimeZone} {s t : State} {event : Event}

theorem step_represents (before : ∃ table, Represents s.mem table)
    (stepped : jsUpdateJobToScheduler zone s event = some t) :
    ∃ table, Represents t.mem table := by
  obtain ⟨table, rep⟩ := before
  unfold jsUpdateJobToScheduler at stepped
  split at stepped
  swap
  · cases stepped
  rename_i malloc
  obtain ⟨_, _, free⟩ := malloc
  cases flag : event.iDecisionFlag with
  | jsAdd =>
    simp only [flag] at stepped
    unfold jsAddJobToSched at stepped
    split at stepped
    · cases stepped
    · cases stepped
      exact ⟨table, rep⟩
    have unused : ∀ node, event.newNode = some node → s.mem.heap node = none := by
      intro node new
      rcases free node new with unused | again
      · exact unused
      · rw [flag] at again
        cases again.1
    dsimp only at stepped
    split at stepped
    · cases stepped
    · rename_i mem added
      cases stepped
      exact ⟨_, (schAddTask_some rep unused added).2⟩
    · rename_i mem lTaskId added
      split at stepped
      · cases stepped
        exact ⟨_, (schAddTask_some rep unused added).2⟩
      · cases stepped
  | jsModify =>
    simp only [flag] at stepped
    rw [jsModifyJobToSched, Option.map_eq_some_iff] at stepped
    obtain ⟨⟨t, status⟩, stepped, rfl⟩ := stepped
    unfold jsModifyJob at stepped
    split at stepped
    · cases stepped
      exact ⟨table, rep⟩
    rename_i lTaskId listed
    dsimp only at stepped listed
    split at stepped
    · cases stepped
    · cases stepped
      exact ⟨table, rep⟩
    rename_i task got
    have present : lTaskId ∈ table.ids := by
      rw [schGetTask_represents rep] at got
      by_contra absent
      rw [Table.get, find_none absent] at got
      cases got
    have malloc : ∀ node, event.newNode = some node →
        s.mem.heap node = none ∨ node = lTaskId := by
      intro node new
      rcases free node new with unused | again
      · exact .inl unused
      · have same := again.2
        rw [listed] at same
        exact .inr (Option.some.inj same).symm
    split at stepped
    · cases stepped
    split at stepped
    · cases stepped
    · cases stepped
      exact ⟨table, rep⟩
    split at stepped
    · cases stepped
    split at stepped
    · cases stepped
      exact ⟨table, rep⟩
    split at stepped
    · cases stepped
    · rename_i mem replaced
      cases stepped
      exact ⟨_, (schModifyTask_some rep present malloc replaced).2⟩
    · rename_i mem newTaskID replaced
      have after := (schModifyTask_some rep present malloc replaced).2
      split at stepped
      · cases stepped
        exact ⟨_, after⟩
      · split at stepped
        · cases stepped
          exact ⟨_, after⟩
        · cases stepped
  | jsDelete =>
    simp only [flag] at stepped
    unfold jsDeleteFromSched at stepped
    split at stepped
    · cases stepped
      exact ⟨table, rep⟩
    rename_i lDelTaskId listed
    dsimp only at stepped
    split at stepped
    · cases stepped
    · cases stepped
      exact ⟨table, rep⟩
    split at stepped
    · cases stepped
    obtain ⟨mem, deleted, after, _⟩ := schDeleteTask_represents rep lDelTaskId
    split at stepped
    · cases stepped
    · rename_i mem' returned
      rw [deleted] at returned
      cases stepped
      cases congrArg (Option.map Prod.fst) returned
      exact ⟨_, after⟩
    · rename_i mem' result _ returned
      rw [deleted] at returned
      cases congrArg (Option.map Prod.fst) returned
      split at stepped
      · cases stepped
      split at stepped
      · cases stepped
        exact ⟨_, after⟩
      · cases stepped
        exact ⟨_, after⟩

theorem reached_represents (events : List Event)
    (executed : run (jsUpdateJobToScheduler zone) start events = some s) :
    ∃ table, Represents s.mem table :=
  run_invariant' (fun _ _ _ => step_represents) ⟨[], represents_init⟩ executed

end Reached

section Carried

variable {zone : TimeZone} {event : Event} {columns : Columns} {job : StJobMaster}
  {task task' : StTask} {iJobMasIndex : UInt16} {uiEndTimeinNum memory : UInt32}

theorem updateInterval_has {iJobMasInterval : Int16} {day : EWeekDay}
    (known : iJobMasInterval = 0 ∨ iJobMasInterval = 1 ∨
      ((iJobMasInterval = 2 ∨ iJobMasInterval = 3) ∧ StartsOn zone job day)) :
    HasInterval zone iJobMasInterval job (updateInterval iJobMasInterval day task) := by
  rcases known with zero | one | ⟨two | three, starts⟩
  · subst zero
    exact .inl ⟨rfl, rfl, rfl, rfl⟩
  · subst one
    exact .inr (.inl ⟨rfl, rfl, rfl, rfl⟩)
  · subst two
    exact .inr (.inr (.inl ⟨rfl, rfl, rfl, starts⟩))
  · subst three
    exact .inr (.inr (.inr ⟨rfl, rfl, rfl, starts⟩))

theorem updateInterval_times (iJobMasInterval : Int16) (day : EWeekDay) (task : StTask) :
    (updateInterval iJobMasInterval day task).startDate = task.startDate ∧
      (updateInterval iJobMasInterval day task).startTime = task.startTime ∧
      (updateInterval iJobMasInterval day task).endDate = task.endDate ∧
      (updateInterval iJobMasInterval day task).endTime = task.endTime := by
  unfold updateInterval
  split_ifs <;> exact ⟨rfl, rfl, rfl, rfl⟩

theorem carriedOnly (record : event.job = columns.job iJobMasIndex memory)
    (complete : columns.Complete)
    (times : jsModifyTimes zone event task = some (some (task', uiEndTimeinNum)))
    (copied : (jsModifyRecord event job).2 = true) :
    CarriedOnly zone columns job task (modifiedJob event job uiEndTimeinNum)
      (StTask.modified task') := by
  obtain ⟨started, iDayCount, first, last⟩ := modifyTimes_iff.mp times
  obtain ⟨finishTime, finish⟩ := Option.ne_none_iff_exists'.mp complete.finishTime
  have modified : modifiedJob event job uiEndTimeinNum = _ :=
    congrArg (fun job => { job with uiEndTimeinNum := uiEndTimeinNum }) (modifyRecord_copies copied)
  simp only [record, Columns.job] at modified
  simp only [StartTimes, FinishTimes, record, Columns.job, finish] at first last
  obtain ⟨tm, iTime, decoded, nonzero, same, result⟩ := last
  -- the end times are set before the interval, which leaves the times alone
  have kept : task'.startDate = started.startDate ∧ task'.startTime = started.startTime ∧
      task'.endDate = tm.date ∧ task'.endTime = tm.time := by
    rw [result]
    split_ifs
    · exact ⟨rfl, rfl, rfl, rfl⟩
    · exact updateInterval_times _ _ _
  constructor
  · rw [modified]
  · rw [modified]
  · rw [modified]
  · rw [modified]
  · cases start : columns.startTime with
    | none =>
      simp only [start] at first
      rw [first.1] at kept
      exact ⟨kept.1, kept.2.1⟩
    | some octets =>
      simp only [start] at first
      obtain ⟨tm, iTime, decoded, _, changed, _⟩ := first
      rw [changed] at kept
      exact ⟨tm, iTime, decoded, kept.1, kept.2.1⟩
  · rw [finish]
    exact ⟨tm, iTime, decoded, same, kept.2.2⟩
  · cases interval : columns.interval with
    | none =>
      simp only [interval, Option.getD_none, if_true] at result
      rw [result]
      cases start : columns.startTime with
      | none =>
        simp only [start] at first
        rw [first.1]
        exact ⟨rfl, rfl, rfl⟩
      | some octets =>
        simp only [start] at first
        obtain ⟨_, _, _, _, changed, _⟩ := first
        rw [changed]
        exact ⟨rfl, rfl, rfl⟩
    | some iJobMasInterval =>
      have known := complete.interval iJobMasInterval interval
      have specified : iJobMasInterval ≠ -1 := by
        intro unspecified
        rw [unspecified] at known
        exact absurd known (by simp)
      simp only [interval, Option.getD_some, specified, if_false] at result
      rw [result]
      apply updateInterval_has
      refine known.imp id (Or.imp id (And.imp id ?_))
      intro carries
      obtain ⟨octets, start⟩ := Option.ne_none_iff_exists'.mp carries
      simp only [start] at first
      obtain ⟨tm, iTime, decoded, _, _, day⟩ := first
      refine ⟨cString octets, tm, iTime, ?_, ?_, day⟩
      · rw [modified, start]
        rfl
      · rw [fillTimeStruct_cString]
        exact decoded

theorem updateInterval_day {iJobMasInterval : Int16}
    (known : iJobMasInterval = 0 ∨ iJobMasInterval = 1) (day other : EWeekDay) :
    updateInterval iJobMasInterval day task = updateInterval iJobMasInterval other task := by
  rcases known with zero | one
  · rw [zero]
    rfl
  · rw [one]
    rfl

theorem modifyTimes_inMemory (record : event.job = columns.job iJobMasIndex memory)
    (complete : columns.Complete) (iDayCount : EWeekDay) :
    jsModifyTimes zone (event.inMemory uiEndTimeinNum iDayCount) task =
      jsModifyTimes zone event task := by
  obtain ⟨finishTime, finish⟩ := Option.ne_none_iff_exists'.mp complete.finishTime
  cases start : columns.startTime with
  | some octets => simp only [jsModifyTimes, Event.inMemory, record, Columns.job, start, finish]
  | none =>
    simp only [jsModifyTimes, Event.inMemory, record, Columns.job, start, finish]
    cases interval : columns.interval with
    | none => simp only [Option.getD_none, if_true]
    | some iJobMasInterval =>
      have known : iJobMasInterval = 0 ∨ iJobMasInterval = 1 := by
        rcases complete.interval iJobMasInterval interval with zero | one | ⟨_, carries⟩
        · exact .inl zero
        · exact .inr one
        · exact absurd start carries
      simp only [Option.getD_some, updateInterval_day known iDayCount event.iDayCount]

end Carried

section Directions

variable {zone : TimeZone} {s t : State} {table : Table} {event : Event} {lTaskId : Nat}
  {job : StJobMaster} {task : StTask} {columns : Columns} {iJobMasIndex : UInt16}
  {memory : UInt32}

theorem Targets.inMemory (targets : Targets s table event lTaskId job task)
    (uiEndTimeinNum : UInt32) (iDayCount : EWeekDay) :
    Targets (s.received (event.inMemory uiEndTimeinNum iDayCount)) table
      (event.inMemory uiEndTimeinNum iDayCount) lTaskId job task := by
  obtain ⟨rep, listed, got, found, apart, free⟩ := targets
  constructor
  · exact rep
  · exact listed
  · exact got
  · change Function.update _ _ _ _ = _
    rw [Event.inMemory, Function.update_of_ne apart, found]
  · exact apart
  · exact free

theorem kept_iff (targets : Targets s table event lTaskId job task)
    (modify : event.iDecisionFlag = .jsModify) {task' : StTask} {uiEndTimeinNum : UInt32}
    (times : jsModifyTimes zone event task = some (some (task', uiEndTimeinNum)))
    (copied : (jsModifyRecord event job).2 = true) :
    Kept zone s event ↔ Accepts event.pTime (StTask.modified task') event.newNode := by
  have modified : modifiedTask zone s event = some (StTask.modified task') := by
    unfold modifiedTask
    simp only [targets.listed, targets.got, times]
    rw [modifyRecord_copied event.job job, if_pos copied]
    rfl
  simp only [Kept, modify, modified, Option.mem_some_iff, forall_eq']

theorem modifiesCarried_of_complete (targets : Targets s table event lTaskId job task)
    (record : event.job = columns.job iJobMasIndex memory)
    (modify : event.iDecisionFlag = .jsModify) (complete : columns.Complete)
    (kept : Kept zone s event) : ModifiesCarried zone s columns event := by
  intro uiEndTimeinNum iDayCount t job' task' registered succeeded
  obtain ⟨rfl, rfl⟩ := registered.unique ⟨lTaskId, targets.listed, targets.got, targets.found⟩
  obtain ⟨task', endTime, result, applies, replaced, listNode⟩ :=
    Applies.of_success (targets.inMemory uiEndTimeinNum iDayCount) succeeded
  have times := applies.times
  rw [modifyTimes_inMemory record complete] at times
  have accepts := (kept_iff targets modify times applies.copied).mp kept
  obtain ⟨t', succeeded', jobOf⟩ := applies.accepted accepts replaced (listNode accepts)
  rw [succeeded] at succeeded'
  cases succeeded'
  have record' : (event.inMemory uiEndTimeinNum iDayCount).job =
      columns.job iJobMasIndex uiEndTimeinNum := by
    simp only [Event.inMemory, record, Columns.job]
  exact ⟨_, _, jobOf, carriedOnly record' complete applies.times applies.copied⟩

theorem StartsOn.unique {day other : EWeekDay} (first : StartsOn zone job day)
    (second : StartsOn zone job other) : day = other := by
  obtain ⟨octets, tm, iTime, starts, decoded, rfl⟩ := first
  obtain ⟨octets', tm', iTime', starts', decoded', rfl⟩ := second
  rw [starts] at starts'
  cases starts'
  rw [decoded] at decoded'
  cases decoded'
  rfl

theorem HasInterval.weekday {iJobMasInterval : Int16} {task : StTask}
    (has : HasInterval zone iJobMasInterval job task)
    (weekly : iJobMasInterval = 2 ∨ iJobMasInterval = 3) : StartsOn zone job task.eWeekDay := by
  rcases has with zero | one | two | three
  · rw [zero.1] at weekly
    exact absurd weekly (by decide)
  · rw [one.1] at weekly
    exact absurd weekly (by decide)
  · exact two.2.2.2
  · exact three.2.2.2

theorem carriedOnly_inMemory (targets : Targets s table event lTaskId job task)
    (modifies : ModifiesCarried zone s columns event) (copy : event.pstModTask ≠ false)
    (copied : (jsModifyRecord event job).2 = true) (listNode : event.listNode = true)
    {uiEndTimeinNum endTime : UInt32} {iDayCount : EWeekDay} {task' : StTask}
    (times : jsModifyTimes zone (event.inMemory uiEndTimeinNum iDayCount) task =
      some (some (task', endTime)))
    (slots : ∀ index, slotIndex task' = some index → index < masterArrSize) :
    CarriedOnly zone columns job task (modifiedJob event job endTime) (StTask.modified task') := by
  have applies : Applies zone (s.received (event.inMemory uiEndTimeinNum iDayCount)) table
      (event.inMemory uiEndTimeinNum iDayCount) lTaskId job task task' endTime :=
    ⟨targets.inMemory uiEndTimeinNum iDayCount, copy, times, copied⟩
  obtain ⟨mem, replaced, _⟩ := schModifyTask_inside targets.rep lTaskId event.pTime
    (StTask.modified task') event.newNode slots targets.free
  have registered : JobOf s event.job.iIndex job task :=
    ⟨lTaskId, targets.listed, targets.got, targets.found⟩
  by_cases accepts : Accepts event.pTime (StTask.modified task') event.newNode
  · obtain ⟨t, succeeded, jobOf⟩ := applies.accepted accepts replaced listNode
    obtain ⟨job', task'', jobOf', only⟩ := modifies _ _ t job task registered succeeded
    obtain ⟨rfl, rfl⟩ := jobOf'.unique jobOf
    exact only
  · obtain ⟨t, succeeded, lost⟩ := applies.rejected accepts replaced
    obtain ⟨job', task'', jobOf', _⟩ := modifies _ _ t job task registered succeeded
    exact absurd jobOf' (lost job' task'')

theorem complete_of_modifiesCarried (targets : Targets s table event lTaskId job task)
    (record : event.job = columns.job iJobMasIndex memory)
    (modify : event.iDecisionFlag = .jsModify)
    (succeeded : jsModifyJob zone (s.received event) event = some (t, .nascSuccess))
    (modifies : ModifiesCarried zone s columns event) :
    columns.Complete ∧ Kept zone s event := by
  have registered : JobOf s event.job.iIndex job task :=
    ⟨lTaskId, targets.listed, targets.got, targets.found⟩
  obtain ⟨job', task'', jobOf', only⟩ :=
    modifies event.job.uiEndTimeinNum event.iDayCount t job task registered succeeded
  obtain ⟨task', endTime, applies, accepts, slots, listNode, jobOf⟩ :=
    Applies.of_job (targets.inMemory event.job.uiEndTimeinNum event.iDayCount) succeeded
      ⟨_, _, jobOf'⟩
  obtain ⟨rfl, rfl⟩ := jobOf'.unique jobOf
  have times : jsModifyTimes zone event task = some (some (task', endTime)) := applies.times
  obtain ⟨started, iDayCount, first, last⟩ := modifyTimes_iff.mp times
  have finishTime : columns.finishTime ≠ none := by
    intro absent
    -- the end time as a number is then what was in the memory
    have absent' : event.job.pcJobMasFinishTime = none := by rw [record, Columns.job, absent]
    simp only [FinishTimes, absent'] at last
    have times' : jsModifyTimes zone
        (event.inMemory (job.uiEndTimeinNum + 1) event.iDayCount) task =
          some (some (task', job.uiEndTimeinNum + 1)) := by
      apply modifyTimes_iff.mpr
      refine ⟨started, iDayCount, first, ?_⟩
      simp only [FinishTimes, Event.inMemory, absent']
      exact ⟨last.1, trivial⟩
    have ended := (carriedOnly_inMemory targets modifies applies.copy applies.copied listNode times'
      slots).ended
    simp only [absent] at ended
    have unchanged : job.uiEndTimeinNum + 1 = job.uiEndTimeinNum := ended.1
    simp at unchanged
  constructor
  · constructor
    · exact finishTime
    · intro iJobMasInterval carried
      have interval : columns.interval = some iJobMasInterval := carried
      have has := only.interval
      simp only [interval] at has
      -- the weekday of a week or a month is then what was in the memory
      have starts : iJobMasInterval = 2 ∨ iJobMasInterval = 3 → columns.startTime ≠ none := by
        intro weekly absent
        have absent' : event.job.pcJobMasStartTime = none := by rw [record, Columns.job, absent]
        obtain ⟨octets, finish⟩ := Option.ne_none_iff_exists'.mp finishTime
        have finish' : event.job.pcJobMasFinishTime = some octets := by
          rw [record, Columns.job, finish]
        have specified : event.job.iJobMasInterval = iJobMasInterval := by
          rw [record, Columns.job, interval, Option.getD_some]
        have notAbsent : iJobMasInterval ≠ -1 := by
          rcases weekly with two | three
          · rw [two]
            decide
          · rw [three]
            decide
        simp only [StartTimes, absent'] at first
        simp only [FinishTimes, finish', specified, notAbsent, if_false] at last
        obtain ⟨tm, iTime, decoded, nonzero, _, result⟩ := last
        rw [first.1] at result
        have anyDay : ∀ day, StartsOn zone job day := by
          intro day
          have times' : jsModifyTimes zone (event.inMemory event.job.uiEndTimeinNum day) task =
              some (some (updateInterval iJobMasInterval day
                { task with endTime := tm.time, endDate := tm.date }, iTime)) := by
            apply modifyTimes_iff.mpr
            refine ⟨task, day, ?_, ?_⟩
            · simp only [StartTimes, Event.inMemory, absent', and_self]
            · simp only [FinishTimes, Event.inMemory, finish', specified, notAbsent, if_false]
              exact ⟨tm, iTime, decoded, nonzero, rfl, rfl⟩
          have slots' : ∀ index, slotIndex (updateInterval iJobMasInterval day
              { task with endTime := tm.time, endDate := tm.date }) = some index →
              index < masterArrSize := by
            intro index found
            apply slots index
            rw [result]
            rcases weekly with two | three
            · rw [two] at found ⊢
              exact found
            · rw [three] at found ⊢
              exact found
          have weekday := (carriedOnly_inMemory targets modifies applies.copy applies.copied
            listNode times' slots').interval
          simp only [interval] at weekday
          have starts := weekday.weekday weekly
          have same : (modifiedJob event job iTime).pcJobMasStartTime = job.pcJobMasStartTime := by
            change (jsModifyRecord event job).1.pcJobMasStartTime = _
            have copied : (jsModifyRecord event job).2 = true := applies.copied
            rw [modifyRecord_copies copied]
            simp only [absent', Option.map_none, Option.none_or]
          rw [StartsOn, same] at starts
          have set : (StTask.modified (updateInterval iJobMasInterval day
              { task with endTime := tm.time, endDate := tm.date })).eWeekDay = day := by
            rcases weekly with two | three
            · rw [two]
              rfl
            · rw [three]
              rfl
          rw [set] at starts
          exact starts
        have sunday := (anyDay .schSun).unique (anyDay .schMon)
        cases sunday
      rcases has with zero | one | two | three
      · exact .inl zero.1
      · exact .inr (.inl one.1)
      · exact .inr (.inr ⟨.inl two.1, starts (.inl two.1)⟩)
      · exact .inr (.inr ⟨.inr three.1, starts (.inr three.1)⟩)
  · exact (kept_iff targets modify times applies.copied).mpr accepts

end Directions

section Law

variable {zone : TimeZone} {s t : State} {event : Event} {vars : List VarBind}
  {allocated : Bool} {iJobMasIndex : UInt16} {pstJSMaster : StJobMaster}

theorem reached_targets (events : List Event)
    (executed : run (jsUpdateJobToScheduler zone) start events = some s)
    (registered : ∃ job task, JobOf s event.job.iIndex job task) (malloc : MallocOk s event) :
    ∃ table lTaskId job task, Targets s table event lTaskId job task := by
  obtain ⟨table, rep⟩ := reached_represents events executed
  obtain ⟨job, task, lTaskId, listed, got, found⟩ := registered
  obtain ⟨_, fresh, free⟩ := malloc
  refine ⟨table, lTaskId, job, task, rep, listed, got, found, ?_, ?_⟩
  · intro same
    rw [same, fresh] at found
    cases found
  · intro node new
    rcases free node new with unused | again
    · exact .inl unused
    · have same := again.2
      rw [listed] at same
      exact .inr (Option.some.inj same).symm

/-- A modification that succeeds leaves what it does not carry alone, and sets what it carries,
exactly when the finish time is carried, a new interval is one of the four and comes with the start
time that its weekday needs, and the scheduler accepts the task. -/
theorem modify_event_iff (zone : TimeZone) (events : List Event)
    (executed : run (jsUpdateJobToScheduler zone) start events = some s)
    (parsed : jsParseTrap allocated iJobMasIndex pstJSMaster vars =
      some (event.job, event.iDecisionFlag))
    (modify : event.iDecisionFlag = .jsModify)
    (registered : ∃ job task, JobOf s event.job.iIndex job task)
    (malloc : MallocOk s event)
    (succeeded : jsModifyJob zone (s.received event) event = some (t, .nascSuccess)) :
    ModifiesCarried zone s (carried vars) event ↔
      (carried vars).Complete ∧ Kept zone s event := by
  have record := parseTrap_job parsed
  obtain ⟨table, lTaskId, job, task, targets⟩ := reached_targets events executed registered malloc
  constructor
  · intro modifies
    exact complete_of_modifiesCarried targets record modify succeeded modifies
  · intro complete
    exact modifiesCarried_of_complete targets record modify complete.1 complete.2

/-- One daily job, and what a modification of its row needs. -/
def oneDaily : List Event := [jobEvent .jsAdd 1 (dailyJob 1 [7, 212, 1, 1, 9, 30, 1]) (some 10)]

/-- The trap with these columns, over memory that holds zeros, as the next event. -/
def modifyEvent (columns : Columns) : Event :=
  jobEvent .jsModify 2 (columns.job 1 0) (some 10)

def finishTrap : List VarBind := [.jsMasterName [78], .jsFinishTime [7, 212, 1, 2, 9, 30, 1]]

def nameTrap : List VarBind := [.jsMasterName [78]]

def ReadyFor (event : Event) (s : State) : Prop :=
  (∃ lTaskId ∈ jsGetTaskID s.stListPtr event.job.iIndex, ∃ copy ∈ schGetTask s.mem lTaskId,
    ∃ task ∈ copy, (s.jobs task.vpArg).isSome = true) ∧ MallocOk s event ∧
      (jsModifyJob plainZone (s.received event) event).map Prod.snd = some .nascSuccess

instance (event : Event) : DecidablePred (ReadyFor event) :=
  fun _ => inferInstanceAs (Decidable (_ ∧ _ ∧ _))

theorem ReadyFor.registered (ready : ReadyFor event s) :
    ∃ job task, JobOf s event.job.iIndex job task := by
  obtain ⟨⟨lTaskId, listed, copy, got, task, same, found⟩, _⟩ := ready
  obtain ⟨job, found⟩ := Option.isSome_iff_exists.mp found
  cases same
  exact ⟨job, task, lTaskId, listed, got, found⟩

theorem ReadyFor.succeeds (ready : ReadyFor event s) :
    ∃ t, jsModifyJob plainZone (s.received event) event = some (t, .nascSuccess) := by
  obtain ⟨⟨t, result⟩, returned, same⟩ := Option.map_eq_some_iff.mp ready.2.2
  cases same
  exact ⟨t, returned⟩

theorem modify_event_finish :
    ∃ s, run (jsUpdateJobToScheduler plainZone) start oneDaily = some s ∧
      ModifiesCarried plainZone s (carried finishTrap) (modifyEvent (carried finishTrap)) := by
  obtain ⟨s, executed, ready, kept⟩ := run_of_any
    (P := fun s => ReadyFor (modifyEvent (carried finishTrap)) s ∧
      Kept plainZone s (modifyEvent (carried finishTrap)))
    (show (run (jsUpdateJobToScheduler plainZone) start oneDaily).any _ = true by decide +kernel)
  obtain ⟨t, succeeded⟩ := ready.succeeds
  have parsed : jsParseTrap true 1 (dailyJob 0 []) finishTrap =
    some ((modifyEvent (carried finishTrap)).job, .jsModify) := by decide +kernel
  have complete : (carried finishTrap).Complete := by
    constructor
    · decide
    · intro iJobMasInterval member
      cases member
  exact ⟨s, executed, (modify_event_iff plainZone oneDaily executed parsed rfl ready.registered
    ready.2.1 succeeded).mpr ⟨complete, kept⟩⟩

/-- A new name costs the job its finish time. -/
theorem modify_name_only :
    ∃ s, run (jsUpdateJobToScheduler plainZone) start oneDaily = some s ∧
      ¬ ModifiesCarried plainZone s (carried nameTrap) (modifyEvent (carried nameTrap)) := by
  obtain ⟨s, executed, ready⟩ := run_of_any
    (P := fun s => ReadyFor (modifyEvent (carried nameTrap)) s)
    (show (run (jsUpdateJobToScheduler plainZone) start oneDaily).any _ = true by decide +kernel)
  obtain ⟨t, succeeded⟩ := ready.succeeds
  obtain ⟨table, lTaskId, job, task, targets⟩ :=
    reached_targets oneDaily executed ready.registered ready.2.1
  refine ⟨s, executed, ?_⟩
  intro modifies
  have complete := complete_of_modifiesCarried targets
    (show (modifyEvent (carried nameTrap)).job = _ from rfl) rfl succeeded modifies
  exact complete.1.finishTime rfl

end Law

end EveAgent.JobSched
