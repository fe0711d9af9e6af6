import EveAgent.Scheduler.ThreadFacts

namespace EveAgent.Scheduler

open Machine

section Crossing

/-- The thread slept from `t1` to the next hour, which is hour 0, and built its list
there. `between` are the events since the sleep, the newest first. -/
structure MidnightCrossing (history between : List Event) (t1 now : Nat)
    (nodes : List TaskNode) : Prop where
  position : ∃ newer older, history = newer ++ .built now nodes :: (between ++ .slept t1 :: older)
  direct : ∀ other present, .built other present ∉ between
  midnight : now / 3600 = t1 / 3600 + 1 ∧ now / 3600 % 24 = 0

/-- At every midnight crossed in this way `SCH_AutoCleanTask` is called before the list
of the new day is built, and its table has no one-shot task of an earlier day. -/
def CleanedAtMidnight (history : List Event) : Prop :=
  ∀ between t1 now nodes, MidnightCrossing history between t1 now nodes →
    (∃ cleaned, .autoCleaned cleaned ∈ between) ∧
      ∀ node ∈ nodes, node.entry.mTask.eType = .schOneShot →
        ¬ DateExpired node.entry.mTask.startDate (localtime now)

variable {s t : State}

/-- The thread is on its way from the sleep to the rebuild. -/
def OnHourlyPath (s : State) : Prop :=
  noSecsInHour - s.ui32Seconds ≤ checkStatusTime ∧
    (s.pc = .poll .sleepToHour ∨
      (s.bHourlySchedule = true ∧ s.pc = .poll .rebuildTest) ∨ s.pc = .rebuild .cleanTest ∨
      s.pc = .rebuild .clearList ∨ s.pc = .rebuild .buildStart)

/-- Since the newest sleep to an hour nothing has been built or cleaned. -/
structure HourlyInv (s : State) : Prop where
  pending : ∀ between t1 older, s.history = between ++ .slept t1 :: older →
    (∀ now nodes, .built now nodes ∉ between) →
      (∀ cleaned, .autoCleaned cleaned ∉ between) ∧ OnHourlyPath s
  past : ∀ newer now nodes between t1 older,
    s.history = newer ++ .built now nodes :: (between ++ .slept t1 :: older) →
    (∀ other present, .built other present ∉ between) →
      ∀ cleaned, .autoCleaned cleaned ∉ between

theorem OnHourlyPath.sched {mallocs : List Bool} (path : OnHourlyPath s)
    (stepped : schedulerStep mallocs s = some t) :
    OnHourlyPath t ∨ s.pc = .rebuild .buildStart := by
  obtain ⟨late, atPc | ⟨hourly, atPc⟩ | atPc | atPc | atPc⟩ := path
  · simp only [schedulerStep, atPc, pollStep] at stepped
    obtain rfl := Option.some.inj stepped
    exact .inl ⟨late, .inr (.inl ⟨rfl, rfl⟩)⟩
  · simp only [schedulerStep, atPc, pollStep, hourly] at stepped
    simp only [Bool.true_eq_false, and_false, if_false] at stepped
    obtain rfl := Option.some.inj stepped
    exact .inl ⟨late, .inr (.inr (.inl rfl))⟩
  · have notEarly : ¬ s.ui32Seconds ≤ checkStatusTime := by
      simp only [noSecsInHour, checkStatusTime] at late ⊢
      omega
    simp only [schedulerStep, atPc, rebuildStep] at stepped
    rw [if_neg fun midnight => notEarly midnight.2] at stepped
    obtain rfl := Option.some.inj stepped
    exact .inl ⟨late, .inr (.inr (.inr (.inl rfl)))⟩
  · simp only [schedulerStep, atPc, rebuildStep] at stepped
    obtain rfl := Option.some.inj stepped
    exact .inl ⟨late, .inr (.inr (.inr (.inr rfl)))⟩
  · exact .inr atPc

theorem OnHourlyPath.caller (path : OnHourlyPath s) (frame : CallerFrame s t) :
    OnHourlyPath t := by
  unfold OnHourlyPath State.ui32Seconds at *
  rw [frame.pc, frame.t1, frame.bHourlySchedule]
  exact path

theorem OnHourlyPath.step {label : Label} (path : OnHourlyPath s)
    (stepped : step s label = some t)
    (elsewhere : ∀ mallocs, label = .sched mallocs → s.pc ≠ .rebuild .buildStart) :
    OnHourlyPath t := by
  rcases step_cases stepped with ⟨mallocs, same, moved⟩ | frame
  · rcases path.sched moved with kept | building
    · exact kept
    · exact absurd building (elsewhere mallocs same)
  · exact path.caller frame

theorem step_building {mallocs : List Bool} (building : s.pc = .rebuild .buildStart)
    (stepped : step s (.sched mallocs) = some t) :
    t.history = .built s.clock s.nodes :: s.history := by
  simp only [step, schedulerStep, building, rebuildStep] at stepped
  obtain rfl := Option.some.inj stepped
  rfl

theorem HourlyInv.pending_cons (inv : HourlyInv s) {event : Event}
    (notSlept : ∀ t1, event ≠ .slept t1) {between older : List Event} {t1 : Nat}
    (split : event :: s.history = between ++ .slept t1 :: older)
    (direct : ∀ now nodes, .built now nodes ∉ between) :
    ∃ rest, between = event :: rest ∧ (∀ cleaned, .autoCleaned cleaned ∉ rest) ∧
      OnHourlyPath s := by
  cases between with
  | nil =>
    rw [List.nil_append, List.cons.injEq] at split
    exact absurd split.1 (notSlept t1)
  | cons first rest =>
    rw [List.cons_append, List.cons.injEq] at split
    obtain ⟨rfl, split⟩ := split
    have kept := inv.pending rest t1 older split
      fun now nodes member => direct now nodes (List.mem_cons_of_mem _ member)
    exact ⟨rest, rfl, kept⟩

theorem HourlyInv.pending_step (inv : HourlyInv s) {label : Label}
    (stepped : step s label = some t) {between older : List Event} {t1 : Nat}
    (split : t.history = between ++ .slept t1 :: older)
    (direct : ∀ now nodes, .built now nodes ∉ between) :
    (∀ cleaned, .autoCleaned cleaned ∉ between) ∧ OnHourlyPath t := by
  cases step_logs stepped with
  | none _ same =>
    rw [same] at split
    obtain ⟨clean, path⟩ := inv.pending between t1 older split direct
    refine ⟨clean, path.step stepped ?_⟩
    rintro mallocs rfl building
    have logged := step_building building stepped
    rw [same] at logged
    exact List.cons_ne_self _ _ logged.symm
  | slept mallocs before after nearEnd reading logged =>
    cases between with
    | nil =>
      refine ⟨by simp, ?_, .inl after⟩
      rw [State.ui32Seconds, reading]
      exact nearEnd
    | cons first rest =>
      rw [logged, List.cons_append, List.cons.injEq] at split
      have path := (inv.pending rest t1 older split.2
        fun now nodes member => direct now nodes (List.mem_cons_of_mem _ member)).2
      simp [OnHourlyPath, before] at path
  | autoCleaned mallocs before early logged =>
    rw [logged] at split
    obtain ⟨_, _, _, late, _⟩ := inv.pending_cons (by simp) split direct
    simp only [noSecsInHour, checkStatusTime] at late early
    omega
  | built mallocs before logged =>
    rw [logged] at split
    obtain ⟨rest, rfl, _⟩ := inv.pending_cons (by simp) split direct
    exact absurd List.mem_cons_self (direct s.clock s.nodes)
  | started mallocs head rest before nodes due after list logged =>
    rw [logged] at split
    obtain ⟨_, _, _, path⟩ := inv.pending_cons (by simp [State.start]) split direct
    simp [OnHourlyPath, before] at path
  | deleted lTaskId found member search frame =>
    have logged : t.history = .deleted found.serial :: s.history := by rw [frame]
    rw [logged] at split
    obtain ⟨rest, rfl, clean, path⟩ := inv.pending_cons (by simp) split direct
    refine ⟨by simpa using clean, path.step stepped ?_⟩
    rintro mallocs labelled
    cases labelled

theorem HourlyInv.past_step (inv : HourlyInv s) {label : Label}
    (stepped : step s label = some t) {newer between older : List Event} {now t1 : Nat}
    {nodes : List TaskNode}
    (split : t.history = newer ++ .built now nodes :: (between ++ .slept t1 :: older))
    (direct : ∀ other present, .built other present ∉ between) (cleaned : Nat) :
    .autoCleaned cleaned ∉ between := by
  have old : ∀ event, t.history = event :: s.history →
      (newer = [] → event ≠ .built now nodes) → .autoCleaned cleaned ∉ between := by
    intro event logged first
    rw [logged] at split
    cases newer with
    | nil =>
      rw [List.nil_append, List.cons.injEq] at split
      exact absurd split.1 (first rfl)
    | cons head rest =>
      rw [List.cons_append, List.cons.injEq] at split
      exact inv.past rest now nodes between t1 older split.2 direct cleaned
  cases step_logs stepped with
  | none _ same =>
    rw [same] at split
    exact inv.past newer now nodes between t1 older split direct cleaned
  | slept mallocs before after nearEnd reading logged => exact old _ logged (by simp)
  | autoCleaned mallocs before early logged => exact old _ logged (by simp)
  | built mallocs before logged =>
    cases newer with
    | nil =>
      rw [logged, List.nil_append, List.cons.injEq] at split
      exact (inv.pending between t1 older split.2 direct).1 cleaned
    | cons head rest => exact old _ logged (by simp)
  | started mallocs head rest before nodes due after list logged =>
    exact old _ logged (by simp [State.start])
  | deleted lTaskId found member search frame =>
    exact old (.deleted found.serial) (by rw [frame]) (by simp)

theorem HourlyInv.step {label : Label} (inv : HourlyInv s) (stepped : step s label = some t) :
    HourlyInv t := by
  constructor
  · intro between t1 older split direct
    exact inv.pending_step stepped split direct
  · intro newer now nodes between t1 older split direct cleaned
    exact inv.past_step stepped split direct cleaned

/-- No run cleans the table at a midnight that it crosses in this way. -/
theorem midnight_neverCleaned (start : Nat) (labels : List Label)
    (executed : run step (schStartScheduler start) labels = some s)
    (crosses : ∃ between t1 now nodes, MidnightCrossing s.history between t1 now nodes) :
    ¬ CleanedAtMidnight s.history := by
  have init : HourlyInv (schStartScheduler start) := by
    constructor
    · intro between t1 older split
      simp [schStartScheduler] at split
    · intro newer now nodes between t1 older split
      simp [schStartScheduler] at split
  have inv := run_invariant' (fun _ _ _ inv stepped => HourlyInv.step inv stepped) init executed
  intro cleanedAlways
  obtain ⟨between, t1, now, nodes, crossing⟩ := crosses
  obtain ⟨⟨cleaned, member⟩, _⟩ := cleanedAlways between t1 now nodes crossing
  obtain ⟨newer, older, split⟩ := crossing.position
  exact inv.past newer now nodes between t1 older split crossing.direct cleaned member

def expiredNode : TaskNode := ⟨0, ⟨10, 23, oneShotTask ⟨3, 2, 2004⟩ 23 0 0⟩⟩

/-- Its table is built at 23:59:50, polled at 23:59:55 and built again at midnight. -/
def midnightRun : List Label :=
  addCall (oneShotTask ⟨3, 2, 2004⟩ 23 0 0) 10 ++ schedSteps 23 ++ .tick 5 :: schedSteps 4 ++
    .tick 5 :: schedSteps 5

theorem midnightRun_crosses :
    ∃ s, run step (schStartScheduler 1078358390) midnightRun = some s ∧
      MidnightCrossing s.history [] 1078358395 1078358400 [expiredNode] := by
  obtain ⟨s, executed, history⟩ : ∃ s,
      run step (schStartScheduler 1078358390) midnightRun = some s ∧
      s.history = [.built 1078358400 [expiredNode], .slept 1078358395,
        .built 1078358390 [expiredNode]] := run_of_any (by decide +kernel)
  refine ⟨s, executed, ⟨[], [.built 1078358390 [expiredNode]], history⟩, ?_, by decide⟩
  intro other present member
  cases member

theorem midnight_neverCleaned_expired :
    ∃ s, run step (schStartScheduler 1078358390) midnightRun = some s ∧
      ¬ CleanedAtMidnight s.history := by
  obtain ⟨s, executed, crossing⟩ := midnightRun_crosses
  exact ⟨s, executed, midnight_neverCleaned 1078358390 midnightRun executed ⟨_, _, _, _, crossing⟩⟩

/-- The list of March 4 is built with the job of March 3 in the table. -/
theorem midnight_expiredJob :
    ∃ s, run step (schStartScheduler 1078358390) midnightRun = some s ∧
      MidnightCrossing s.history [] 1078358395 1078358400 [expiredNode] ∧
      expiredNode.entry.mTask.eType = .schOneShot ∧
      DateExpired expiredNode.entry.mTask.startDate (localtime 1078358400) ∧
      ¬ CleanedAtMidnight s.history := by
  obtain ⟨s, executed, crossing⟩ := midnightRun_crosses
  refine ⟨s, executed, crossing, rfl, by decide +kernel, ?_⟩
  intro cleaned
  obtain ⟨⟨_, member⟩, _⟩ := cleaned _ _ _ _ crossing
  cases member

end Crossing

end EveAgent.Scheduler
