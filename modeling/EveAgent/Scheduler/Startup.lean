import EveAgent.Scheduler.LockDiscipline
import EveAgent.Scheduler.ThreadFacts

namespace EveAgent.Scheduler.Startup

open Machine

section Ledger

variable {s t : State} {mallocs : List Bool} {built : List StExecNode}

/-- The entries that have been started, the newest first. -/
def dispatched (s : State) : List StExecNode := (s.history.filterMap Event.start).map Start.node

/-- The entries that may still be started: while a callback runs its entry is the head. -/
def pending (s : State) : List StExecNode :=
  match s.pc with
  | .dispatch .running | .dispatch .runningLast => s.gExecList.nodes.tail
  | _ => s.gExecList.nodes

/-- Each start, past or possible, has an entry of its own among those that were appended. -/
def Booked (built : List StExecNode) (s : State) : Prop :=
  (dispatched s ++ pending s).Subperm built

theorem pending_subperm (s : State) : (pending s).Subperm s.gExecList.nodes := by
  unfold pending
  split
  · exact (List.tail_sublist _).subperm
  · exact (List.tail_sublist _).subperm
  · exact List.Subperm.refl _

theorem pending_running (atPc : s.pc = .dispatch .running ∨ s.pc = .dispatch .runningLast) :
    pending s = s.gExecList.nodes.tail := by
  rcases atPc with atPc | atPc
  · rw [pending, atPc]
  · rw [pending, atPc]

theorem running_removes (atPc : s.pc = .dispatch .running ∨ s.pc = .dispatch .runningLast)
    (stepped : schedulerStep mallocs s = some t) : t.gExecList.nodes = s.gExecList.nodes.tail := by
  unfold schedulerStep at stepped
  rcases atPc with atPc | atPc
  · rw [atPc] at stepped
    obtain rfl := Option.some.inj stepped
    rfl
  · rw [atPc] at stepped
    obtain rfl := Option.some.inj stepped
    rfl

theorem pending_step (stepped : schedulerStep mallocs s = some t) :
    (pending t).Subperm (pending s ++ s.added mallocs) := by
  by_cases atPc : s.pc = .dispatch .running ∨ s.pc = .dispatch .runningLast
  · have removed := pending_subperm t
    rw [running_removes atPc stepped, ← pending_running atPc] at removed
    exact removed.trans (List.sublist_append_left _ _).subperm
  · have whole : pending s = s.gExecList.nodes := by
      unfold pending
      split
      · rename_i running
        exact absurd (.inl running) atPc
      · rename_i running
        exact absurd (.inr running) atPc
      · rfl
    rw [whole]
    exact (pending_subperm t).trans (schedulerStep_frame stepped).list

theorem booked_step (booked : Booked built s) (stepped : schedulerStep mallocs s = some t) :
    Booked (built ++ s.added mallocs) t := by
  have labelled : step s (.sched mallocs) = some t := stepped
  rcases step_starts labelled with
    same | ⟨_, head, rest, _, atPc, nodes, _, running, list, logged⟩
  · have unchanged : dispatched t = dispatched s := by rw [dispatched, same, dispatched]
    have extended := (List.subperm_append_left (dispatched s)).mpr (pending_step stepped)
    rw [← List.append_assoc] at extended
    rw [Booked, unchanged]
    exact extended.trans ((List.subperm_append_right _).mpr booked)
  · have before : pending s = head :: rest := by rw [pending, atPc, nodes]
    have after : pending t = rest := by rw [pending_running running, list, nodes, List.tail_cons]
    have started : dispatched t = head :: dispatched s := by
      rw [dispatched, logged]
      rfl
    have moved : (dispatched t ++ pending t).Perm (dispatched s ++ pending s) := by
      rw [started, after, before]
      exact List.perm_middle.symm
    exact (moved.subperm.trans booked).trans (List.sublist_append_left _ _).subperm

end Ledger

section World

/-- A call of `SCH_StartScheduler` before each of its statements. -/
inductive StartPc where
  | initMasterTable
  | initExecutionList
  | stopFlag
  | changedFlag
  | mutexCopy
  | threadCreate
  deriving DecidableEq, Repr

/-- What `Scheduler` keeps on its stack. -/
structure Thread where
  pc : Pc
  t1 : Nat
  bHourlySchedule : Bool
  builtAt : Nat
  seen : List Nat
  deriving DecidableEq, Repr

/-- The globals as the thread sees them beside its own variables. -/
def Thread.view (thread : Thread) (globals : State) : State :=
  { globals with
    pc := thread.pc
    t1 := thread.t1
    bHourlySchedule := thread.bHourlySchedule
    builtAt := thread.builtAt
    seen := thread.seen }

def Thread.of (s : State) : Thread := ⟨s.pc, s.t1, s.bHourlySchedule, s.builtAt, s.seen⟩

/-- In `globals` the fields of a thread mean nothing. `threads` are those that execute
`Scheduler`, `built` is every entry that one of them has appended to `gExecList`. -/
structure World where
  globals : State
  starting : List StartPc
  threads : List Thread
  built : List StExecNode
  deriving DecidableEq, Repr

/-- The static initial values, before the first call. -/
def loaded (now : Nat) : World :=
  { globals := { schStartScheduler now with pc := .poll .dead }
    starting := []
    threads := []
    built := [] }

/-- `stopScheduler` is `SCH_StopScheduler` up to its wait, which changes nothing; a wait
or a lock is the time before the next step of its thread. -/
inductive Label where
  | start
  | starting (call : Nat) (created : Bool)
  | sched (thread : Nat) (mallocs : List Bool)
  | caller (label : Scheduler.Label)
  deriving DecidableEq, Repr

/-- `gExecList_mutex` is never locked, so its copy is not either. -/
def startStep (w : World) (call : Nat) (created : Bool) : StartPc → World
  | .initMasterTable =>
    { w with
      globals := { w.globals with nodes := [] }
      starting := w.starting.set call .initExecutionList }
  | .initExecutionList =>
    { w with
      globals := { w.globals with gExecList := initExecutionList }
      starting := w.starting.set call .stopFlag }
  | .stopFlag =>
    { w with
      globals := { w.globals with gbStopScheduler := false }
      starting := w.starting.set call .changedFlag }
  | .changedFlag =>
    { w with
      globals := { w.globals with gbTaskChanged := false }
      starting := w.starting.set call .mutexCopy }
  | .mutexCopy =>
    { w with
      globals := { w.globals with ops := .unlock :: w.globals.ops }
      starting := w.starting.set call .threadCreate }
  | .threadCreate =>
    { w with
      starting := w.starting.eraseIdx call
      threads :=
        if created then
          w.threads ++ [Thread.of (schStartScheduler w.globals.clock)]
        else w.threads }

/-- Some thread is in `SCH_AutoCleanTask`. -/
def World.masterLocked (w : World) : Bool :=
  w.threads.any fun thread => (thread.view w.globals).masterLocked

/-- What the step from `s` to `t` does first with the mutex of the list. -/
def firstOp (s t : State) : Option MutexOp := (t.ops.take (t.ops.length - s.ops.length)).getLast?

/-- The step would lock a mutex that is locked. -/
def World.blocks (w : World) (s t : State) : Bool :=
  (firstOp s t = some .lock && heldAfter s.ops) ||
    (((t.masterLocked && !s.masterLocked) || s.pc = .poll .stopClearMaster) && w.masterLocked)

/-- After a callback the head is read again, and it may be null then. -/
def nullHead (s : State) : Bool :=
  s.gExecList.nodes = [] && (s.pc = .dispatch .running || s.pc = .dispatch .runningLast)

/-- A traversal whose node another thread has taken out of the table ends the run, also
where the node is only lost and not freed. -/
def threadStep (w : World) (thread : Nat) (mallocs : List Bool) : Option World :=
  match w.threads[thread]? with
  | none => none
  | some current =>
    let s := current.view w.globals
    match schedulerStep mallocs s with
    | none => none
    | some t =>
      if w.blocks s t || nullHead s then none
      else
        some {
          globals := { t with pc := .poll .dead }
          starting := w.starting
          threads :=
            if t.pc = .poll .dead then w.threads.eraseIdx thread
            else w.threads.set thread (Thread.of t)
          built := w.built ++ s.added mallocs }

def callerStep (w : World) : Scheduler.Label → Option State
  | .sched _ => none
  | .insertTask call newNode =>
    if w.masterLocked then none else Scheduler.step w.globals (.insertTask call newNode)
  | .deleteTask lTaskId =>
    if w.masterLocked then none else Scheduler.step w.globals (.deleteTask lTaskId)
  | label => Scheduler.step w.globals label

def step (w : World) : Label → Option World
  | .start => some { w with starting := w.starting ++ [.initMasterTable] }
  | .starting call created => (w.starting[call]?).map fun pc => startStep w call created pc
  | .sched thread mallocs => threadStep w thread mallocs
  | .caller label => (callerStep w label).map fun globals => { w with globals := globals }

/-- One call from its begin to its return, beside so many others. -/
def startCall (others : Nat) : List Label := .start :: List.replicate 6 (.starting others true)

/-- A call of `SCH_AddTask` that nothing comes between. -/
def addCall (task : StTask) (newNode : Nat) : List Label :=
  (Scheduler.addCall task newNode).map .caller

end World

section Idempotence

variable {w u : World}

/-- At most one thread executes `Scheduler`, and no entry of the list is dispatched
more often than it was appended. -/
structure OneDispatcher (w : World) : Prop where
  threads : w.threads.length ≤ 1
  once : ∀ entry, (dispatched w.globals).count entry ≤ w.built.count entry

/-- A step of `SCH_StartScheduler` loses no task and creates no thread while there is one. -/
def StartHarmless (w : World) : Label → Prop
  | .starting call created =>
    w.threads ≠ [] → ∀ u, step w (.starting call created) = some u →
      u.globals.nodes = w.globals.nodes ∧ u.threads.length = w.threads.length
  | _ => True

/-- `SCH_StartScheduler` is called only when no thread executes `Scheduler` and no other
call of it is under way. -/
def OnlyWhenStopped (w : World) : Label → Prop
  | .start => w.threads = [] ∧ w.starting = []
  | _ => True

instance (w : World) : ∀ label, Decidable (OnlyWhenStopped w label)
  | .start => inferInstanceAs (Decidable (_ ∧ _))
  | .starting _ _ => isTrue trivial
  | .sched _ _ => isTrue trivial
  | .caller _ => isTrue trivial

/-- What the thread, if there is one, may still start. -/
def World.pending (w : World) : List StExecNode :=
  match w.threads with
  | [] => w.globals.gExecList.nodes
  | thread :: _ => Startup.pending (thread.view w.globals)

structure Inv (w : World) : Prop where
  single : w.threads.length + w.starting.length ≤ 1
  booked : (dispatched w.globals ++ w.pending).Subperm w.built

theorem loaded_inv (now : Nat) : Inv (loaded now) :=
  ⟨Nat.zero_le _, List.nil_subperm⟩

theorem Inv.oneDispatcher (inv : Inv w) : OneDispatcher w := by
  constructor
  · have single := inv.single
    omega
  · intro entry
    have booked := (List.sublist_append_left _ _).subperm.trans inv.booked
    exact booked.count_le entry

theorem Inv.call_alone (inv : Inv w) {call : Nat} {pc : StartPc}
    (underWay : w.starting[call]? = some pc) : w.starting = [pc] ∧ call = 0 ∧ w.threads = [] := by
  have single := inv.single
  have inside := (List.getElem?_eq_some_iff.mp underWay).1
  have first : call = 0 := by omega
  subst first
  have one : w.starting.length = 1 := by omega
  obtain ⟨only, same⟩ := List.length_eq_one_iff.mp one
  rw [same, List.getElem?_cons_zero] at underWay
  obtain rfl := Option.some.inj underWay
  exact ⟨same, rfl, List.length_eq_zero_iff.mp (by omega)⟩

theorem Inv.thread_alone (inv : Inv w) {thread : Nat} {current : Thread}
    (runs : w.threads[thread]? = some current) :
    w.threads = [current] ∧ thread = 0 ∧ w.starting = [] := by
  have single := inv.single
  have inside := (List.getElem?_eq_some_iff.mp runs).1
  have first : thread = 0 := by omega
  subst first
  have one : w.threads.length = 1 := by omega
  obtain ⟨only, same⟩ := List.length_eq_one_iff.mp one
  rw [same, List.getElem?_cons_zero] at runs
  obtain rfl := Option.some.inj runs
  exact ⟨same, rfl, List.length_eq_zero_iff.mp (by omega)⟩

theorem startStep_inv {call : Nat} {pc : StartPc} (created : Bool) (inv : Inv w)
    (underWay : w.starting[call]? = some pc) : Inv (startStep w call created pc) := by
  obtain ⟨starting, rfl, threads⟩ := inv.call_alone underWay
  have booked := inv.booked
  rw [World.pending, threads] at booked
  have fewer := (List.sublist_append_left _ _).subperm.trans booked
  cases pc with
  | initMasterTable | stopFlag | changedFlag | mutexCopy =>
    constructor
    · simp [startStep, starting, threads]
    · simpa [startStep, World.pending, threads, dispatched] using booked
  | initExecutionList =>
    constructor
    · simp [startStep, starting, threads]
    · simpa [startStep, World.pending, threads, dispatched, initExecutionList] using fewer
  | threadCreate =>
    cases created with
    | false =>
      constructor
      · simp [startStep, starting, threads]
      · simpa [startStep, World.pending, threads, dispatched] using booked
    | true =>
      constructor
      · simp [startStep, starting, threads]
      · simpa [startStep, World.pending, threads, dispatched, Startup.pending, Thread.view,
          Thread.of, schStartScheduler] using booked

theorem threadStep_cases {thread : Nat} {mallocs : List Bool}
    (stepped : threadStep w thread mallocs = some u) :
    ∃ current t, w.threads[thread]? = some current ∧
      schedulerStep mallocs (current.view w.globals) = some t ∧
      u.globals = { t with pc := .poll .dead } ∧ u.starting = w.starting ∧
      u.threads = (if t.pc = .poll .dead then w.threads.eraseIdx thread
        else w.threads.set thread (Thread.of t)) ∧
      u.built = w.built ++ (current.view w.globals).added mallocs := by
  unfold threadStep at stepped
  split at stepped
  · cases stepped
  rename_i current runs
  simp only at stepped
  split at stepped
  · cases stepped
  rename_i t moved
  split at stepped
  · cases stepped
  obtain rfl := Option.some.inj stepped
  exact ⟨current, t, runs, moved, rfl, rfl, rfl, rfl⟩

theorem threadStep_inv {thread : Nat} {mallocs : List Bool} (inv : Inv w)
    (stepped : threadStep w thread mallocs = some u) : Inv u := by
  obtain ⟨current, t, runs, moved, globals, starting, threads, built⟩ := threadStep_cases stepped
  obtain ⟨alone, rfl, idle⟩ := inv.thread_alone runs
  have before : Booked w.built (current.view w.globals) := by
    have booked := inv.booked
    rw [World.pending, alone] at booked
    exact booked
  have after := booked_step before moved
  rw [← built] at after
  have logged : dispatched u.globals = dispatched t := by
    rw [globals]
    rfl
  constructor
  · rw [starting, idle, threads, alone]
    split
    · exact Nat.zero_le _
    · exact Nat.le_refl _
  · have possible : u.pending = Startup.pending t := by
      rw [World.pending, threads, alone]
      split
      · rename_i dead none
        split at none
        · rename_i ended
          rw [globals, Startup.pending, ended]
        · cases none
      · rename_i other rest some
        split at some
        · cases some
        · obtain ⟨rfl, -⟩ := List.cons.inj some
          rw [globals]
          rfl
    rw [logged, possible]
    exact after

theorem callerStep_frame {label : Scheduler.Label} {globals : State}
    (called : callerStep w label = some globals) :
    globals.gExecList = w.globals.gExecList ∧ dispatched globals = dispatched w.globals := by
  have stepped : Scheduler.step w.globals label = some globals := by
    unfold callerStep at called
    split at called
    · cases called
    · split at called
      · cases called
      · exact called
    · split at called
      · cases called
      · exact called
    · exact called
  have other : ∀ mallocs, label ≠ .sched mallocs := by
    intro mallocs same
    subst same
    cases called
  constructor
  · rcases step_cases stepped with ⟨mallocs, same, _⟩ | frame
    · exact absurd same (other mallocs)
    · exact frame.gExecList
  · rcases step_starts stepped with same | ⟨mallocs, _, _, sched, _⟩
    · rw [dispatched, same, dispatched]
    · exact absurd sched (other mallocs)

theorem callerStep_inv {label : Scheduler.Label} {globals : State} (inv : Inv w)
    (called : callerStep w label = some globals) : Inv { w with globals := globals } := by
  obtain ⟨list, starts⟩ := callerStep_frame called
  constructor
  · exact inv.single
  · have possible : World.pending { w with globals := globals } = w.pending := by
      unfold World.pending
      cases threads : w.threads with
      | nil => simp only [list]
      | cons first rest => simp only [Startup.pending, Thread.view, list]
    rw [possible, starts]
    exact inv.booked

theorem step_inv (w : World) (label : Label) (u : World) (inv : Inv w)
    (stopped : OnlyWhenStopped w label) (stepped : step w label = some u) : Inv u := by
  cases label with
  | start =>
    obtain rfl := Option.some.inj stepped
    obtain ⟨threads, starting⟩ := stopped
    constructor
    · simp [threads, starting]
    · exact inv.booked
  | starting call created =>
    obtain ⟨pc, underWay, rfl⟩ := Option.map_eq_some_iff.mp stepped
    exact startStep_inv created inv underWay
  | sched thread mallocs => exact threadStep_inv inv stepped
  | caller label =>
    obtain ⟨globals, called, rfl⟩ := Option.map_eq_some_iff.mp stepped
    exact callerStep_inv inv called

theorem Inv.startHarmless (inv : Inv w) (label : Label) : StartHarmless w label := by
  cases label with
  | starting call created =>
    intro running u stepped
    obtain ⟨pc, underWay, rfl⟩ := Option.map_eq_some_iff.mp stepped
    exact absurd (inv.call_alone underWay).2.2 running
  | start | sched thread mallocs | caller label => trivial

/-- Where the scheduler is started only when it is stopped, one thread at most executes
`Scheduler`, every start is harmless and no entry is dispatched twice. -/
theorem start_idempotent (now : Nat) (labels : List Label)
    (stopped : Along step OnlyWhenStopped (loaded now) labels)
    (executed : run step (loaded now) labels = some w) :
    OneDispatcher w ∧ Along step StartHarmless (loaded now) labels := by
  constructor
  · exact (run_invariant step_inv (loaded_inv now) stopped executed).oneDispatcher
  · apply Along.of_invariant step_inv _ (loaded_inv now) stopped
    intro w label inv _
    exact inv.startHarmless label

/-- A job is run at 10:30, the scheduler is stopped, and it is started again. -/
theorem start_idempotent_restarted :
    ∃ w, run step (loaded 36100) (startCall 0 ++ addCall (dailyTask 10 30 0) 10 ++
        List.replicate 17 (.sched 0 []) ++ .caller (.tick 1700) ::
        List.replicate 7 (.sched 0 []) ++ .caller .stopScheduler ::
        List.replicate 3 (.sched 0 []) ++ startCall 0) = some w ∧
      w.threads.length = 1 ∧ (dispatched w.globals).length = 1 ∧ OneDispatcher w := by
  obtain ⟨w, executed, counts⟩ : ∃ w, run step (loaded 36100) (startCall 0 ++
      addCall (dailyTask 10 30 0) 10 ++ List.replicate 17 (.sched 0 []) ++ .caller (.tick 1700) ::
      List.replicate 7 (.sched 0 []) ++ .caller .stopScheduler ::
      List.replicate 3 (.sched 0 []) ++ startCall 0) = some w ∧
      w.threads.length = 1 ∧ (dispatched w.globals).length = 1 := run_of_any (by decide +kernel)
  exact ⟨w, executed, counts.1, counts.2, (start_idempotent 36100 _ (by decide +kernel) executed).1⟩

theorem start_always (w : World) :
    ∃ u, run step w (startCall w.starting.length) = some u ∧ u.globals.nodes = [] ∧
      u.globals.gExecList = initExecutionList ∧ u.threads.length = w.threads.length + 1 := by
  constructor
  · constructor
    · simp [startCall, run, step, startStep, List.replicate]
      rfl
    · simp

/-- The second of two calls, after a task has been added between them. -/
theorem started_twice :
    ∃ labels w, run step (loaded 36100) labels = some w ∧ w.threads.length = 2 ∧
      w.globals.nodes = [] ∧
      ¬ (OneDispatcher w ∧ Along step StartHarmless (loaded 36100) labels) := by
  obtain ⟨w, executed, threads, nodes⟩ : ∃ w, run step (loaded 36100) (startCall 0 ++
      addCall (dailyTask 10 30 0) 10 ++ startCall 0) = some w ∧ w.threads.length = 2 ∧
      w.globals.nodes = [] := run_of_any (by decide +kernel)
  refine ⟨_, w, executed, threads, nodes, ?_⟩
  intro idempotent
  have one := idempotent.1.threads
  omega

end Idempotence

end EveAgent.Scheduler.Startup
