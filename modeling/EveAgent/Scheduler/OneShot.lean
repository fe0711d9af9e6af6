import EveAgent.Scheduler.SingleCopy

namespace EveAgent.Scheduler

open Machine

section Reading

variable {s t : State} {mallocs : List Bool}

/-- The reading the dispatch loop goes by, or the one it would take now. -/
def State.reading (s : State) : Nat :=
  match s.pc with
  | .dispatch .stopTest => s.t1
  | .dispatch .compare => s.t1
  | _ => s.clock

structure Readings (s : State) : Prop where
  afterBuild : s.builtAt ≤ s.reading
  inPast : s.reading ≤ s.clock

theorem reading_of_clock (first : s.pc ≠ .dispatch .stopTest) (second : s.pc ≠ .dispatch .compare) :
    s.reading = s.clock := by
  unfold State.reading
  split
  · contradiction
  · contradiction
  · rfl

theorem pollStep_reading {pc : PollPc} (stepped : pollStep s pc = some t) :
    t.reading = t.clock := by
  revert stepped
  fun_cases pollStep s pc
  all_goals rintro ⟨⟩
  all_goals rfl

theorem autoCleanStep_reading {pCurrent : List TaskNode}
    (atPc : s.pc = .rebuild (.autoClean pCurrent)) :
    (autoCleanStep s pCurrent).reading = (autoCleanStep s pCurrent).clock := by
  fun_cases autoCleanStep s pCurrent
  case case3 =>
    apply reading_of_clock
    · simp [atPc]
    · simp [atPc]
  all_goals rfl

theorem rebuildStep_reading {pc : RebuildPc} (atPc : s.pc = .rebuild pc)
    (stepped : rebuildStep mallocs s pc = some t) : t.reading = t.clock := by
  revert stepped
  fun_cases rebuildStep mallocs s pc
  all_goals rintro ⟨⟩
  case case3 => exact autoCleanStep_reading atPc
  all_goals rfl

theorem dispatchStep_reading {pc : DispatchPc} (atPc : s.pc = .dispatch pc)
    (stepped : dispatchStep s pc = some t) : t.reading = t.clock ∨ t.reading = s.reading := by
  revert stepped
  fun_cases dispatchStep s pc
  all_goals rintro ⟨⟩
  -- the comparison uses the clock read at the head of the loop
  case case4 => exact .inr (by simp only [State.reading, atPc])
  case case12 =>
    left
    apply reading_of_clock
    · dsimp only
      split_ifs <;> simp
    · dsimp only
      split_ifs <;> simp
  all_goals exact .inl rfl

theorem schedulerStep_reading (stepped : schedulerStep mallocs s = some t) :
    t.reading = t.clock ∨ t.reading = s.reading := by
  unfold schedulerStep at stepped
  cases atPc : s.pc with
  | poll pc =>
    rw [atPc] at stepped
    exact .inl (pollStep_reading stepped)
  | rebuild pc =>
    rw [atPc] at stepped
    exact .inl (rebuildStep_reading atPc stepped)
  | dispatch pc =>
    rw [atPc] at stepped
    exact dispatchStep_reading atPc stepped

theorem reading_caller (frame : CallerFrame s t) :
    t.reading = s.reading ∨ (s.reading = s.clock ∧ t.reading = t.clock) := by
  by_cases inUse : s.pc = .dispatch .stopTest ∨ s.pc = .dispatch .compare
  · left
    rcases inUse with atPc | atPc
    · simp only [State.reading, frame.pc, atPc, frame.t1]
    · simp only [State.reading, frame.pc, atPc, frame.t1]
  · rw [not_or] at inUse
    right
    constructor
    · exact reading_of_clock inUse.1 inUse.2
    · apply reading_of_clock
      · rw [frame.pc]
        exact inUse.1
      · rw [frame.pc]
        exact inUse.2

theorem step_later {label : Label} (stepped : step s label = some t) : s.clock ≤ t.clock := by
  rcases step_clock stepped with ⟨seconds, rfl, rfl⟩ | same
  · exact Nat.le_add_right _ _
  · exact Nat.le_of_eq same.symm

theorem Readings.later (readings : Readings s) {label : Label}
    (stepped : step s label = some t) : s.reading ≤ t.reading := by
  have later := step_later stepped
  have inPast := readings.inPast
  rcases step_cases stepped with ⟨mallocs, rfl, moved⟩ | frame
  · rcases schedulerStep_reading moved with now | same
    · omega
    · omega
  · rcases reading_caller frame with same | ⟨_, now⟩
    · omega
    · omega

theorem Readings.step (readings : Readings s) {label : Label}
    (stepped : step s label = some t) : Readings t := by
  have later := step_later stepped
  have advanced := readings.later stepped
  obtain ⟨afterBuild, inPast⟩ := readings
  rcases step_cases stepped with ⟨mallocs, rfl, moved⟩ | frame
  · have kept := schedulerStep_frame moved
    have reading := schedulerStep_reading moved
    constructor
    · rcases kept.builtAt with same | ⟨building, same⟩
      · omega
      · have now : s.reading = s.clock := by simp only [State.reading, building]
        omega
    · rcases reading with now | same
      · omega
      · omega
  · have reading := reading_caller frame
    constructor
    · rw [frame.builtAt]
      omega
    · omega

theorem added_reading {node : StExecNode} (new : node ∈ s.added mallocs) :
    s.reading = s.clock := by
  unfold State.added at new
  split at new
  · rename_i atPc
    apply reading_of_clock
    · simp [atPc]
    · simp [atPc]
  · rename_i atPc
    apply reading_of_clock
    · simp [atPc]
    · simp [atPc]
  · cases new

end Reading

section Once

variable {s t : State}

def StTime.inSec (time : StTime) : Nat :=
  time.ui16Hour.toNat * noSecsInHour + time.ui16Minute.toNat * noSecsInMin +
    time.ui16Second.toNat

/-- How often the callback of this node was started. -/
def runs (node : TaskNode) (history : List Event) : Nat :=
  (history.filterMap Event.start).countP fun start => start.node.source = node

/-- The call is made on the start date, and by a reading of the clock that has this date
and the start time. -/
structure OnTime (start : Start) : Prop where
  called : OnDate start.node.source.entry.mTask.startDate start.calledAt
  date : OnDate start.node.source.entry.mTask.startDate start.t1
  time : start.t1 % noSecsInDay = start.node.source.entry.mTask.startTime.inSec

/-- The callback of a one-shot task is started at most once, and on time. -/
def OneShotOnce (history : List Event) : Prop :=
  ∀ start, .started start ∈ history → OneShot start.node.source →
    runs start.node.source history ≤ 1 ∧ OnTime start

/-- The clock stays in the hour of the list while entries of one-shot tasks may be started.
The traversal adds such an entry in the hour of the list only, if its second is not past
on the start date only, and not in the second in which the callback has been started. -/
def OneShotKept (s : State) : Label → Prop
  | .tick seconds => ∀ node ∈ s.startable, OneShot node.source →
      (s.clock + seconds) / 3600 = s.builtAt / 3600
  | .sched mallocs => s.gbStopScheduler = false →
      ∀ node ∈ s.added mallocs, OneShot node.source →
        s.clock / 3600 = s.builtAt / 3600 ∧
        (s.clock % 3600 ≤ node.ui32Interval.toNat →
          OnDate node.source.entry.mTask.startDate s.clock) ∧
        (s.clock % 3600 = node.ui32Interval.toNat → runs node.source s.history = 0)
  | _ => True

instance (s : State) : ∀ label, Decidable (OneShotKept s label)
  | .tick _ => inferInstanceAs (Decidable (∀ _ ∈ _, _))
  | .sched _ => inferInstanceAs (Decidable (_ → ∀ _ ∈ _, _))
  | .validateTask _ => isTrue trivial
  | .insertTask _ _ => isTrue trivial
  | .deleteTask _ => isTrue trivial
  | .stopScheduler => isTrue trivial

/-- An entry that may be started is of this hour, and too late or on its date and new. -/
structure Awaited (s : State) (node : StExecNode) : Prop where
  hour : s.clock / 3600 = s.builtAt / 3600
  pending : node.ui32Interval.toNat < s.reading % 3600 ∨
    (OnDate node.source.entry.mTask.startDate s.clock ∧ runs node.source s.history = 0)

structure OneShotInv (s : State) : Prop where
  sound : Sound s
  single : SingleCopy s
  readings : Readings s
  awaited : ∀ node ∈ s.startable, OneShot node.source → Awaited s node
  inPast : ∀ start, .started start ∈ s.history → start.t1 ≤ s.clock
  once : OneShotOnce s.history

theorem Awaited.later {node : StExecNode} (awaited : Awaited s node) (readings : Readings s)
    (readings' : Readings t) (advanced : s.reading ≤ t.reading)
    (current : t.clock / 3600 = t.builtAt / 3600) (sameHour : t.clock / 3600 = s.clock / 3600)
    (runs' : runs node.source t.history = runs node.source s.history) : Awaited t node := by
  obtain ⟨hour, pending⟩ := awaited
  obtain ⟨afterBuild, inPast⟩ := readings
  obtain ⟨afterBuild', inPast'⟩ := readings'
  constructor
  · exact current
  · rcases pending with late | ⟨today, new⟩
    · left
      omega
    · right
      constructor
      · apply onDate_of_sameDay _ today
        simp only [noSecsInDay]
        omega
      · rw [runs', new]

theorem OneShotInv.notRun (inv : OneShotInv s) {node : TaskNode} (stored : Stored node)
    (oneShot : OneShot node) (slot : node.entry.slot = s.clock / 3600 % 24)
    (today : OnDate node.entry.mTask.startDate s.clock)
    (early : s.clock % 3600 < (startOffset node.entry.mTask).toNat) :
    runs node s.history = 0 := by
  by_contra ran
  obtain ⟨start, member, same⟩ := List.countP_pos_iff.mp (Nat.pos_of_ne_zero ran)
  obtain rfl := of_decide_eq_true same
  have started := mem_starts.mp member
  obtain ⟨_, date, time⟩ := (inv.once start started oneShot).2
  have inPast := inv.inPast start started
  have sameDay := onDate_day date today
  obtain ⟨hour, _, _⟩ := oneShot_stored stored oneShot
  rw [startOffset_toNat] at early
  simp only [StTime.inSec, noSecsInDay, noSecsInHour, noSecsInMin] at *
  omega

theorem runs_of_startable (single : SingleCopy s) {label : Label}
    (stepped : step s label = some t) {node : StExecNode} (member : node ∈ t.startable)
    (oneShot : OneShot node.source) :
    runs node.source t.history = runs node.source s.history := by
  rcases step_starts stepped with same | ⟨_, head, rest, _, _, nodes, _, after, list, logged⟩
  · rw [runs, same, runs]
  · have live : t.pc.live = .tail := by
      rcases after with atPc | atPc
      · rw [atPc]
        rfl
      · rw [atPc]
        rfl
    have behind := ((mem_startable_tail live).mp member).2
    rw [list, nodes, List.tail_cons] at behind
    have other : head.source ≠ node.source := by
      intro same
      have once := single.single node.source oneShot
      have again : 0 < copies node.source rest :=
        List.countP_pos_iff.mpr ⟨node, behind, decide_eq_true rfl⟩
      have counted : copies node.source (head :: rest) = copies node.source rest + 1 :=
        List.countP_cons_of_pos (decide_eq_true same)
      rw [nodes, counted] at once
      omega
    rw [logged]
    exact List.countP_cons_of_neg (by simpa using other)

theorem OneShotInv.awaited_old (inv : OneShotInv s) {label : Label} (kept : OneShotKept s label)
    (stepped : step s label = some t) {node : StExecNode} (before : node ∈ s.startable)
    (member : node ∈ t.startable) (oneShot : OneShot node.source) : Awaited t node := by
  have awaited := inv.awaited node before oneShot
  have same := awaited.hour
  have hours : t.clock / 3600 = t.builtAt / 3600 ∧ t.clock / 3600 = s.clock / 3600 := by
    rcases step_clock stepped with ⟨seconds, rfl, rfl⟩ | clock
    · have within := kept node before oneShot
      exact ⟨within, within.trans same.symm⟩
    · rcases step_cases stepped with ⟨mallocs, rfl, moved⟩ | frame
      · rcases (schedulerStep_frame moved).builtAt with builtAt | ⟨_, builtAt⟩
        · rw [clock, builtAt]
          exact ⟨same, rfl⟩
        · rw [clock, builtAt]
          exact ⟨rfl, rfl⟩
      · rw [clock, frame.builtAt]
        exact ⟨same, rfl⟩
  exact awaited.later inv.readings (inv.readings.step stepped) (inv.readings.later stepped)
    hours.1 hours.2 (runs_of_startable inv.single stepped member oneShot)

theorem OneShotInv.awaited_new (inv : OneShotInv s) {mallocs : List Bool}
    (kept : OneShotKept s (.sched mallocs)) (running : s.gbStopScheduler = false)
    (stepped : step s (.sched mallocs) = some t) {node : StExecNode}
    (new : node ∈ s.added mallocs) (member : node ∈ t.startable)
    (oneShot : OneShot node.source) : Awaited t node := by
  have frame := schedulerStep_frame stepped
  have stored := inv.sound.stored node.source (added_source stepped new)
  obtain ⟨slot, interval⟩ :=
    (inv.single.step inv.sound stepped).slotted node (startable_mem member) oneShot
  obtain ⟨hour, today, fresh⟩ := kept running node new oneShot
  have hour' : t.clock / 3600 = t.builtAt / 3600 := by
    rcases frame.builtAt with builtAt | ⟨_, builtAt⟩
    · rw [frame.clock, builtAt, hour]
    · rw [frame.clock, builtAt]
  have reading : t.reading = s.clock := by
    have now : s.reading = s.clock := added_reading new
    rcases schedulerStep_reading stepped with same | same
    · rw [same, frame.clock]
    · rw [same, now]
  rw [hourSlot, localtime_hour, ← hour', frame.clock] at slot
  constructor
  · exact hour'
  · rw [reading, frame.clock, runs_of_startable inv.single stepped member oneShot]
    rcases Nat.lt_trichotomy node.ui32Interval.toNat (s.clock % 3600) with late | now | early
    · exact .inl late
    · exact .inr ⟨today (Nat.le_of_eq now.symm), fresh now.symm⟩
    · have onDate := today (Nat.le_of_lt early)
      rw [interval] at early
      exact .inr ⟨onDate, inv.notRun stored oneShot slot onDate early⟩

theorem OneShotInv.due (inv : OneShotInv s) {head : StExecNode} {rest : List StExecNode}
    (atPc : s.pc = .dispatch .compare) (nodes : s.gExecList.nodes = head :: rest)
    (due : s.Due head) (oneShot : OneShot head.source) :
    OnDate head.source.entry.mTask.startDate s.clock ∧
      OnDate head.source.entry.mTask.startDate s.t1 ∧
      s.t1 % noSecsInDay = head.source.entry.mTask.startTime.inSec ∧
      runs head.source s.history = 0 := by
  have member : head ∈ s.gExecList.nodes := by
    rw [nodes]
    exact List.mem_cons_self
  obtain ⟨hour, pending⟩ := inv.awaited head (started_startable atPc nodes due) oneShot
  obtain ⟨afterBuild, inPast⟩ := inv.readings
  obtain ⟨slot, interval⟩ := inv.single.slotted head member oneShot
  obtain ⟨inSlot, _, short⟩ := oneShot_stored (inv.sound.source head member).1 oneShot
  have reading : s.reading = s.t1 := by simp only [State.reading, atPc]
  rw [reading] at pending afterBuild inPast
  have exact : s.t1 % 3600 = (startOffset head.source.entry.mTask).toNat := by
    simp only [State.Due, State.ui32Seconds, localtime_seconds, noSecsInHour, interval] at due
    omega
  rcases pending with late | ⟨today, new⟩
  · rw [interval] at late
    omega
  · refine ⟨today, ?_, ?_, new⟩
    · apply onDate_of_sameDay _ today
      simp only [noSecsInDay]
      omega
    · rw [hourSlot, localtime_hour] at slot
      rw [startOffset_toNat] at exact
      simp only [StTime.inSec, noSecsInDay, noSecsInHour, noSecsInMin] at *
      omega

theorem OneShotInv.once_step (inv : OneShotInv s) {label : Label}
    (stepped : step s label = some t) : OneShotOnce t.history := by
  intro start member oneShot
  rcases step_starts stepped with same | ⟨_, head, rest, _, atPc, nodes, due, _, _, logged⟩
  · rw [← mem_starts, same, mem_starts] at member
    rw [runs, same]
    exact inv.once start member oneShot
  · rw [logged] at member
    rcases List.mem_cons.mp member with now | earlier
    · obtain rfl := Event.started.inj now
      obtain ⟨called, date, time, new⟩ := inv.due atPc nodes due oneShot
      have counted : runs head.source t.history = runs head.source s.history + 1 := by
        rw [logged]
        exact List.countP_cons_of_pos (decide_eq_true rfl)
      refine ⟨?_, ⟨called, date, time⟩⟩
      dsimp only
      omega
    · obtain ⟨once, onTime⟩ := inv.once start earlier oneShot
      have other : head.source ≠ start.node.source := by
        intro same
        have new := (inv.due atPc nodes due (same ▸ oneShot)).2.2.2
        have ran : 0 < runs head.source s.history :=
          List.countP_pos_iff.mpr ⟨start, mem_starts.mpr earlier, decide_eq_true same.symm⟩
        omega
      have counted : runs start.node.source t.history = runs start.node.source s.history := by
        rw [logged]
        exact List.countP_cons_of_neg (by simpa using other)
      rw [counted]
      exact ⟨once, onTime⟩

theorem OneShotInv.inPast_step (inv : OneShotInv s) {label : Label}
    (stepped : step s label = some t) (start : Start) (member : .started start ∈ t.history) :
    start.t1 ≤ t.clock := by
  have later := step_later stepped
  rcases step_starts stepped with same | ⟨_, head, rest, _, atPc, _, _, _, _, logged⟩
  · rw [← mem_starts, same, mem_starts] at member
    exact Nat.le_trans (inv.inPast start member) later
  · rw [logged] at member
    rcases List.mem_cons.mp member with now | earlier
    · obtain rfl := Event.started.inj now
      have reading : s.reading = s.t1 := by simp only [State.reading, atPc]
      have inPast := inv.readings.inPast
      dsimp only
      omega
    · exact Nat.le_trans (inv.inPast start earlier) later

theorem OneShotInv.step (inv : OneShotInv s) {label : Label} (kept : OneShotKept s label)
    (stepped : step s label = some t) : OneShotInv t := by
  constructor
  · exact inv.sound.step stepped
  · exact inv.single.step inv.sound stepped
  · exact inv.readings.step stepped
  · intro node member oneShot
    rcases step_startable stepped member with old | ⟨mallocs, rfl, new, running⟩
    · exact inv.awaited_old kept stepped old member oneShot
    · exact inv.awaited_new kept running stepped new member oneShot
  · exact inv.inPast_step stepped
  · exact inv.once_step stepped

/-- Half past ten on the day the scheduler starts. -/
def newYearJob : StTask := oneShotTask ⟨1, 0, 1970⟩ 10 30 0

/-- The list of 10:00 at 10:01:40; the job is started at 10:30:00. -/
def firstDay : List Label :=
  addCall newYearJob 10 ++ schedSteps 16 ++ .tick 1700 :: schedSteps 5

end Once

end EveAgent.Scheduler
