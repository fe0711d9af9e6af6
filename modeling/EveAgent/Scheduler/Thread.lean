import EveAgent.BubbleSort
import EveAgent.Scheduler.ExecutionList
import EveAgent.Scheduler.MasterTable

namespace EveAgent.Scheduler

section ExecutionList

/-- A node of the master table. Two nodes that had one address one after the other
have different serial numbers. -/
structure TaskNode where
  serial : Nat
  entry : Entry
  deriving DecidableEq, Repr, Inhabited

/-- `source` is the node of the master table the entry was copied from. -/
structure StExecNode where
  fp : Nat
  vpArg : Nat
  ui32Interval : UInt32
  source : TaskNode
  deriving DecidableEq, Repr, Inhabited

structure StExecutionList where
  nodes : List StExecNode
  nSize : Int
  deriving DecidableEq, Repr

/-- `newExecNode` tells whether `malloc` returns a node. -/
def addToExecutionList (newExecNode : Bool) (source : TaskNode) (ui32Interval : UInt32)
    (list : StExecutionList) : StExecutionList :=
  if newExecNode then
    { nodes := list.nodes ++
        [⟨source.entry.mTask.fp, source.entry.mTask.vpArg, ui32Interval, source⟩]
      nSize := list.nSize + 1 }
  else list

/-- The calls of `AddToExecutionList` for one task. -/
def addExecutions (source : TaskNode) :
    List Bool → List UInt32 → StExecutionList → StExecutionList
  | _, [], list => list
  | mallocs, ui32Interval :: rest, list =>
    addExecutions source mallocs.tail rest
      (addToExecutionList (mallocs.headD true) source ui32Interval list)

def sortKey (node : StExecNode) : Nat := node.ui32Interval.toNat

/-- The temporary first node has interval zero and is taken off again. -/
def sortExecutionList (list : StExecutionList) : StExecutionList :=
  if list.nodes = [] then list
  else { list with nodes := (BubbleSort.bubbleSort sortKey (default :: list.nodes)).tail }

def clearExecutionList (list : StExecutionList) : StExecutionList :=
  { nodes := [], nSize := list.nSize - list.nodes.length }

def initExecutionList : StExecutionList := { nodes := [], nSize := 0 }

def removeHead (list : StExecutionList) : StExecutionList :=
  { nodes := list.nodes.tail, nSize := list.nSize - 1 }

theorem sortExecutionList_perm (list : StExecutionList) :
    (sortExecutionList list).nodes.Perm list.nodes := by
  unfold sortExecutionList
  split
  · exact List.Perm.refl _
  · have zero : sortKey default = 0 := rfl
    simp only [BubbleSort.bubbleSort_minimal sortKey zero, List.tail_cons]
    exact BubbleSort.bubbleSort_perm _ _

/-- The entries that the calls of `AddToExecutionList` for one task append. -/
def addedNodes (source : TaskNode) : List Bool → List UInt32 → List StExecNode
  | _, [] => []
  | mallocs, ui32Interval :: rest =>
    (if mallocs.headD true then
      [⟨source.entry.mTask.fp, source.entry.mTask.vpArg, ui32Interval, source⟩] else []) ++
    addedNodes source mallocs.tail rest

theorem addExecutions_nodes (source : TaskNode) (mallocs : List Bool) (intervals : List UInt32)
    (list : StExecutionList) :
    (addExecutions source mallocs intervals list).nodes =
      list.nodes ++ addedNodes source mallocs intervals := by
  induction intervals generalizing mallocs list with
  | nil => exact (List.append_nil _).symm
  | cons interval rest ih =>
    rw [addExecutions, ih, addedNodes, ← List.append_assoc]
    congr 1
    unfold addToExecutionList
    split
    · rfl
    · rw [List.append_nil]

theorem mem_addedNodes {source : TaskNode} {mallocs : List Bool} {intervals : List UInt32}
    {node : StExecNode} (member : node ∈ addedNodes source mallocs intervals) :
    node.source = source ∧ node.ui32Interval ∈ intervals ∧
      node.fp = source.entry.mTask.fp ∧ node.vpArg = source.entry.mTask.vpArg := by
  induction intervals generalizing mallocs with
  | nil => cases member
  | cons interval rest ih =>
    rw [addedNodes] at member
    rcases List.mem_append.mp member with first | later
    · split at first
      · rw [List.mem_singleton] at first
        subst first
        exact ⟨rfl, List.mem_cons_self, rfl, rfl⟩
      · cases first
    · obtain ⟨same, inside, pair⟩ := ih later
      exact ⟨same, List.mem_cons_of_mem _ inside, pair⟩

theorem addedNodes_length (source : TaskNode) (mallocs : List Bool) (intervals : List UInt32) :
    (addedNodes source mallocs intervals).length ≤ intervals.length := by
  induction intervals generalizing mallocs with
  | nil => exact Nat.le_refl _
  | cons interval rest ih =>
    have shorter := ih mallocs.tail
    rw [addedNodes, List.length_append, List.length_cons]
    split
    · rw [List.length_singleton]
      omega
    · rw [List.length_nil]
      omega

end ExecutionList

section MasterList

/-- The slots of the master table, in the order of insertion. -/
def slotNodes (nodes : List TaskNode) (index : Nat) : List TaskNode :=
  nodes.filter fun node => node.entry.slot == index

def nextIn (node : TaskNode) : List TaskNode → Option TaskNode
  | [] => none
  | first :: rest => if first = node then rest.head? else nextIn node rest

/-- `pTemp->pNext`. -/
def pNext (nodes : List TaskNode) (pTemp : TaskNode) : Option TaskNode :=
  nextIn pTemp (slotNodes nodes pTemp.entry.slot)

end MasterList

section State

/-- Operations on `ExecList_mutex` and accesses to the nodes, head and size of the list. -/
inductive MutexOp where
  | lock
  | unlock
  | access
  deriving DecidableEq, Repr

/-- A started callback: the entry, when its list was built, the clock reading the
dispatch loop went by, and the clock at the call. -/
structure Start where
  node : StExecNode
  builtAt : Nat
  t1 : Nat
  calledAt : Nat
  deriving DecidableEq, Repr

/-- What the thread and its callers have done: the sleep to the next hour, the call of
`SCH_AutoCleanTask`, the start of `BuildExecutionList` and the table it found, a call of
a callback, a successful `SCH_DeleteTask`. -/
inductive Event where
  | slept (t1 : Nat)
  | autoCleaned (now : Nat)
  | built (now : Nat) (nodes : List TaskNode)
  | started (start : Start)
  | deleted (serial : Nat)
  deriving DecidableEq, Repr

/-- The outer loop up to the decision to rebuild. -/
inductive PollPc where
  | loopHead
  | stopClearExec
  | stopClearMaster
  | dead
  | readClock
  | pollTest
  | sleepToHour
  | rebuildTest
  | sleepPoll
  deriving DecidableEq, Repr

/-- From the clean-up to the start of the dispatch loop. -/
inductive RebuildPc where
  | cleanTest
  | autoClean (pCurrent : List TaskNode)
  | clearList
  | buildStart
  | buildEvery (pTemp : Option TaskNode) (ui32NoOfExec : UInt32)
  | buildHour (pTemp : Option TaskNode)
  | resetFlag
  | sortList
  | dispatchStart
  | sleepEmpty
  deriving DecidableEq, Repr

/-- The dispatch loop; a callback runs in `running` and `runningLast`. -/
inductive DispatchPc where
  | head
  | stopTest
  | compare
  | running
  | runningLast
  | sleepLast
  | sleepNext
  | changedTest
  | safetyUnlock
  deriving DecidableEq, Repr

inductive Pc where
  | poll (pc : PollPc)
  | rebuild (pc : RebuildPc)
  | dispatch (pc : DispatchPc)
  deriving DecidableEq, Repr

/-- `timeBuffer` is the static buffer of `localtime`, `t1` the last reading of
`Scheduler`, `adding` the tasks that calls of `SCH_AddTask` have validated and not
yet inserted. The last four fields record the past: the reading the list was built
with, the nodes that were there, the operations on the list and the events, the
newest first. -/
structure State where
  clock : Nat
  timeBuffer : Tm
  nodes : List TaskNode
  serials : Nat
  adding : List StTask
  gbTaskChanged : Bool
  gbStopScheduler : Bool
  gExecList : StExecutionList
  pc : Pc
  t1 : Nat
  bHourlySchedule : Bool
  builtAt : Nat
  seen : List Nat
  ops : List MutexOp
  history : List Event
  deriving DecidableEq, Repr

/-- `SCH_StartScheduler`. -/
def schStartScheduler (now : Nat) : State :=
  { clock := now
    timeBuffer := localtime now
    nodes := []
    serials := 0
    adding := []
    gbTaskChanged := false
    gbStopScheduler := false
    gExecList := initExecutionList
    pc := .poll .loopHead
    t1 := now
    bHourlySchedule := false
    builtAt := now
    seen := []
    ops := []
    history := [] }

def State.ui32Seconds (s : State) : Nat := (localtime s.t1).seconds

end State

section Scheduler

def pollStep (s : State) : PollPc → Option State
  | .loopHead =>
    if s.gbStopScheduler then
      some { s with gbStopScheduler := false, pc := .poll .stopClearExec }
    else some { s with pc := .poll .readClock }
  | .stopClearExec =>
    some { s with
      gExecList := clearExecutionList s.gExecList
      pc := .poll .stopClearMaster
      ops := .unlock :: .access :: .lock :: s.ops }
  | .stopClearMaster => some { s with nodes := [], pc := .poll .dead }
  | .dead => none
  | .readClock =>
    some { s with t1 := s.clock, timeBuffer := localtime s.clock, pc := .poll .pollTest }
  | .pollTest =>
    if s.bHourlySchedule = false ∧ s.gbTaskChanged = false ∧
        noSecsInHour - s.ui32Seconds ≤ checkStatusTime then
      some { s with pc := .poll .sleepToHour, history := .slept s.t1 :: s.history }
    else some { s with pc := .poll .rebuildTest }
  | .sleepToHour => some { s with bHourlySchedule := true, pc := .poll .rebuildTest }
  | .rebuildTest =>
    if s.gbTaskChanged = false ∧ s.bHourlySchedule = false then
      some { s with pc := .poll .sleepPoll }
    else some { s with pc := .rebuild .cleanTest }
  | .sleepPoll => some { s with pc := .poll .loopHead }

/-- One visit of `SCH_AutoCleanTask`: a one-shot task that is not expired is visited
again and again. -/
def autoCleanStep (s : State) : List TaskNode → State
  | [] => { s with pc := .rebuild .clearList }
  | pCurrent :: rest =>
    if pCurrent.entry.mTask.eType = .schOneShot then
      if validateDateTime (localtime s.clock) pCurrent.entry.mTask.startDate
          pCurrent.entry.mTask.startTime .schDateOnly = .nascFailure then
        { s with
          timeBuffer := localtime s.clock
          nodes := s.nodes.filter fun node => node != pCurrent
          pc := .rebuild (.autoClean rest) }
      else { s with timeBuffer := localtime s.clock }
    else { s with pc := .rebuild (.autoClean rest) }

/-- The nodes of the slots that the list of this hour is not built from. -/
def State.otherSlots (s : State) : List TaskNode :=
  s.nodes.filter fun node =>
    node.entry.slot != everyHourTask && node.entry.slot != (localtime s.builtAt).tmHour

/-- The return of `BuildExecutionList`. -/
def buildReturn (s : State) : State :=
  { s with
    pc := .rebuild .resetFlag
    seen := s.otherSlots.map TaskNode.serial ++ s.seen
    ops := .unlock :: s.ops }

/-- `none` is the use of a node that has been freed, or a null pointer in the sort. -/
def rebuildStep (mallocs : List Bool) (s : State) : RebuildPc → Option State
  | .cleanTest =>
    if s.timeBuffer.tmHour = 0 ∧ s.ui32Seconds ≤ checkStatusTime then
      some { s with
        pc := .rebuild (.autoClean ((List.range masterArrSize).flatMap (slotNodes s.nodes)))
        history := .autoCleaned s.clock :: s.history }
    else some { s with pc := .rebuild .clearList }
  | .autoClean pCurrent => some (autoCleanStep s pCurrent)
  | .clearList =>
    some { s with
      gExecList := initExecutionList
      pc := .rebuild .buildStart
      ops := .unlock :: .access :: .lock :: s.ops }
  | .buildStart =>
    some { s with
      timeBuffer := localtime s.clock
      pc := .rebuild (.buildEvery (slotNodes s.nodes everyHourTask).head? 0)
      builtAt := s.clock
      seen := []
      ops := .lock :: s.ops
      history := .built s.clock s.nodes :: s.history }
  | .buildEvery none _ =>
    some { s with
      pc := .rebuild (.buildHour (slotNodes s.nodes (localtime s.builtAt).tmHour).head?) }
  | .buildEvery (some pTemp) ui32NoOfExec =>
    if pTemp ∈ s.nodes then
      match everyHourVisit s.timeBuffer (ui16EndHrInSec (localtime s.builtAt)) ui32NoOfExec
          pTemp.entry.mTask with
      | none => some (buildReturn s)
      | some (ui32Interval, ui32NoOfExec) =>
        some { s with
          gExecList := addExecutions pTemp mallocs (executions ui32Interval ui32NoOfExec)
            s.gExecList
          pc := .rebuild (.buildEvery (pNext s.nodes pTemp) ui32NoOfExec)
          seen := pTemp.serial :: s.seen
          ops := .access :: s.ops }
    else none
  | .buildHour none => some (buildReturn s)
  | .buildHour (some pTemp) =>
    if pTemp ∈ s.nodes then
      some { s with
        gExecList := addExecutions pTemp mallocs (hourVisit s.timeBuffer pTemp.entry.mTask)
          s.gExecList
        pc := .rebuild (.buildHour (pNext s.nodes pTemp))
        seen := pTemp.serial :: s.seen
        ops := .access :: s.ops }
    else none
  | .resetFlag =>
    some { s with gbTaskChanged := false, bHourlySchedule := false, pc := .rebuild .sortList }
  | .sortList =>
    if s.gExecList.nodes ≠ [] ∧ mallocs.headD true = false then none
    else
      some { s with
        gExecList := sortExecutionList s.gExecList
        pc := .rebuild .dispatchStart
        ops := .unlock :: .access :: .lock :: s.ops }
  | .dispatchStart =>
    if s.gExecList.nodes = [] then
      some { s with pc := .rebuild .sleepEmpty, ops := .unlock :: .access :: .lock :: s.ops }
    else some { s with pc := .dispatch .head, ops := .access :: .lock :: s.ops }
  | .sleepEmpty => some { s with pc := .poll .loopHead }

inductive SleepChoice where
  | sleepToCheck
  | sleepBeforeEnd
  | executeNow
  | sleepAtMostCheck
  deriving DecidableEq, Repr

/-- The tests before the sleep of the dispatch loop, in the order of the source. -/
def sleepChoice (ui32SleepTime : UInt32) (ui32Seconds : Nat) : SleepChoice :=
  if ui32SleepTime = 6 ∧ ui32Seconds = noSecsInHour - checkStatusTime then .sleepToCheck
  else if ui32SleepTime < 6 ∧ ui32Seconds > noSecsInHour - checkStatusTime then .sleepBeforeEnd
  else if ui32SleepTime = 1 ∧ ui32Seconds > noSecsInHour - checkStatusTime then .executeNow
  else .sleepAtMostCheck

def State.start (s : State) (node : StExecNode) : Event :=
  .started { node := node, builtAt := s.builtAt, t1 := s.t1, calledAt := s.clock }

def dispatchStep (s : State) : DispatchPc → Option State
  | .head =>
    if s.gExecList.nodes = [] then
      some { s with pc := .dispatch .safetyUnlock, ops := .access :: s.ops }
    else
      some { s with
        t1 := s.clock
        timeBuffer := localtime s.clock
        pc := .dispatch .stopTest
        ops := .access :: s.ops }
  | .stopTest =>
    if s.gbStopScheduler then
      some { s with pc := .dispatch .safetyUnlock, ops := .unlock :: s.ops }
    else some { s with pc := .dispatch .compare }
  | .compare =>
    match s.gExecList.nodes with
    | [] => none
    | execHead :: _ =>
      if s.ui32Seconds > execHead.ui32Interval.toNat then
        some { s with
          gExecList := removeHead s.gExecList
          pc := .dispatch .head
          ops := .access :: s.ops }
      else if s.ui32Seconds = execHead.ui32Interval.toNat then
        some { s with
          pc := .dispatch .running
          ops := .access :: s.ops
          history := s.start execHead :: s.history }
      else if s.ui32Seconds = noSecsInHour - 1 ∧
          execHead.ui32Interval.toNat = noSecsInHour then
        some { s with
          bHourlySchedule := true
          pc := .dispatch .runningLast
          ops := .access :: s.ops
          history := s.start execHead :: s.history }
      else
        let ui32Seconds := (localtime s.clock).seconds
        match sleepChoice (execHead.ui32Interval - UInt32.ofNat ui32Seconds) ui32Seconds with
        | .executeNow => none
        | _ =>
          some { s with
            t1 := s.clock
            timeBuffer := localtime s.clock
            pc := .dispatch .sleepNext
            ops := .unlock :: .access :: s.ops }
  | .running =>
    some { s with
      gExecList := removeHead s.gExecList
      pc := .dispatch .head
      ops := .access :: s.ops }
  | .runningLast =>
    some { s with
      gExecList := removeHead s.gExecList
      pc := .dispatch (if (removeHead s.gExecList).nSize = 0 then .sleepLast else .head)
      ops := .access :: s.ops }
  | .sleepLast => some { s with pc := .dispatch .safetyUnlock }
  | .sleepNext => some { s with pc := .dispatch .changedTest }
  | .changedTest =>
    if s.gbTaskChanged then some { s with pc := .dispatch .safetyUnlock }
    else some { s with pc := .dispatch .head, ops := .lock :: s.ops }
  | .safetyUnlock => some { s with pc := .poll .loopHead, ops := .unlock :: s.ops }

/-- One step of `Scheduler`. -/
def schedulerStep (mallocs : List Bool) (s : State) : Option State :=
  match s.pc with
  | .poll pc => pollStep s pc
  | .rebuild pc => rebuildStep mallocs s pc
  | .dispatch pc => dispatchStep s pc

end Scheduler

section Callers

/-- `SCH_AutoCleanTask` holds `gMasterTable_mutex` all the time. -/
def State.masterLocked (s : State) : Bool :=
  match s.pc with
  | .rebuild (.autoClean _) => true
  | _ => false

/-- `SCH_AddTask` up to the lock. -/
def validateCall (s : State) (task : StTask) : State :=
  { s with
    timeBuffer := localtime s.clock
    adding := if validateTask (localtime s.clock) task = .nascSuccess then s.adding ++ [task]
      else s.adding }

/-- `SCH_AddTask` under the lock; `newNode` is what `malloc` returns, never a node in
use, and `none` an index outside of the table. -/
def insertTask (s : State) (call : Nat) (newNode : Option Nat) : Option State :=
  match s.adding[call]? with
  | none => none
  | some task =>
    let adding := s.adding.eraseIdx call
    match slotIndex task, newNode with
    | none, _ => some { s with adding := adding }
    | some index, none => if index < masterArrSize then some { s with adding := adding } else none
    | some index, some node =>
      if index < masterArrSize ∧ ∀ other ∈ s.nodes, other.entry.id ≠ node then
        some { s with
          nodes := s.nodes ++ [⟨s.serials, ⟨node, index, task⟩⟩]
          serials := s.serials + 1
          adding := adding
          gbTaskChanged := true }
      else none

def deleteTask (s : State) (lTaskId : Nat) : State :=
  match s.nodes.find? fun node => node.entry.id == lTaskId with
  | none => s
  | some found =>
    { s with
      nodes := s.nodes.filter fun node => node.entry.id != lTaskId
      history := .deleted found.serial :: s.history }

/-- `SCH_ModifyTask` is a call of `SCH_DeleteTask` and, if that succeeds, one of
`SCH_AddTask`; other steps may come between them. -/
inductive Label where
  | tick (seconds : Nat)
  | sched (mallocs : List Bool)
  | validateTask (task : StTask)
  | insertTask (call : Nat) (newNode : Option Nat)
  | deleteTask (lTaskId : Nat)
  | stopScheduler
  deriving DecidableEq, Repr

def step (s : State) : Label → Option State
  | .tick seconds => some { s with clock := s.clock + seconds }
  | .sched mallocs => schedulerStep mallocs s
  | .validateTask task => some (validateCall s task)
  | .insertTask call newNode => if s.masterLocked then none else insertTask s call newNode
  | .deleteTask lTaskId => if s.masterLocked then none else some (deleteTask s lTaskId)
  | .stopScheduler => some { s with gbStopScheduler := true }

/-- A call of `SCH_AddTask` that nothing comes between. -/
def addCall (task : StTask) (newNode : Nat) : List Label :=
  [.validateTask task, .insertTask 0 (some newNode)]

/-- So many steps of the scheduler thread on its own. -/
def schedSteps (count : Nat) : List Label := List.replicate count (.sched [])

/-- A call of `SCH_AddTask` under the lock fails, or appends its task to its slot. -/
theorem insertTask_cases {s t : State} {call : Nat} {newNode : Option Nat}
    (inserted : insertTask s call newNode = some t) :
    t = { s with adding := s.adding.eraseIdx call } ∨
      ∃ task index node, s.adding[call]? = some task ∧ newNode = some node ∧
        slotIndex task = some index ∧ index < masterArrSize ∧
        (∀ other ∈ s.nodes, other.entry.id ≠ node) ∧
        t = { s with
          nodes := s.nodes ++ [⟨s.serials, ⟨node, index, task⟩⟩]
          serials := s.serials + 1
          adding := s.adding.eraseIdx call
          gbTaskChanged := true } := by
  unfold insertTask at inserted
  split at inserted
  · cases inserted
  rename_i task called
  simp only at inserted
  split at inserted
  · exact .inl (Option.some.inj inserted).symm
  · split at inserted
    · exact .inl (Option.some.inj inserted).symm
    · cases inserted
  · rename_i index node slot
    split at inserted
    · rename_i allowed
      exact .inr ⟨task, index, node, called, rfl, slot, allowed.1, allowed.2,
        (Option.some.inj inserted).symm⟩
    · cases inserted

/-- `SCH_DeleteTask` finds no node of this id, or takes the node out. -/
theorem deleteTask_cases (s : State) (lTaskId : Nat) :
    deleteTask s lTaskId = s ∨
      ∃ found ∈ s.nodes, found.entry.id = lTaskId ∧
        s.nodes.find? (fun node => node.entry.id == lTaskId) = some found ∧
        deleteTask s lTaskId = { s with
          nodes := s.nodes.filter fun node => node.entry.id != lTaskId
          history := .deleted found.serial :: s.history } := by
  unfold deleteTask
  split
  · exact .inl rfl
  · rename_i found search
    have same := List.find?_some search
    rw [beq_iff_eq] at same
    exact .inr ⟨found, List.mem_of_find?_eq_some search, same, search, rfl⟩

/-- What belongs to the scheduler thread alone. -/
structure CallerFrame (s t : State) : Prop where
  pc : t.pc = s.pc
  t1 : t.t1 = s.t1
  bHourlySchedule : t.bHourlySchedule = s.bHourlySchedule
  gExecList : t.gExecList = s.gExecList
  builtAt : t.builtAt = s.builtAt
  seen : t.seen = s.seen
  ops : t.ops = s.ops
  changes : s.gbTaskChanged = true → t.gbTaskChanged = true
  stops : s.gbStopScheduler = true → t.gbStopScheduler = true

theorem step_cases {s t : State} {label : Label} (stepped : step s label = some t) :
    (∃ mallocs, label = .sched mallocs ∧ schedulerStep mallocs s = some t) ∨ CallerFrame s t := by
  cases label with
  | sched mallocs => exact .inl ⟨mallocs, rfl, stepped⟩
  | tick seconds | stopScheduler | validateTask task =>
    obtain rfl := Option.some.inj stepped
    exact .inr ⟨rfl, rfl, rfl, rfl, rfl, rfl, rfl, by simp [validateCall], by simp [validateCall]⟩
  | insertTask call newNode =>
    simp only [step] at stepped
    split at stepped
    · cases stepped
    · rcases insertTask_cases stepped with rfl | ⟨_, _, _, _, _, _, _, _, rfl⟩
      · exact .inr ⟨rfl, rfl, rfl, rfl, rfl, rfl, rfl, by simp, by simp⟩
      · exact .inr ⟨rfl, rfl, rfl, rfl, rfl, rfl, rfl, by simp, by simp⟩
  | deleteTask lTaskId =>
    simp only [step] at stepped
    split at stepped
    · cases stepped
    · obtain rfl := Option.some.inj stepped
      rcases deleteTask_cases s lTaskId with same | ⟨_, _, _, _, deleted⟩
      · rw [same]
        exact .inr ⟨rfl, rfl, rfl, rfl, rfl, rfl, rfl, by simp, by simp⟩
      · rw [deleted]
        exact .inr ⟨rfl, rfl, rfl, rfl, rfl, rfl, rfl, by simp, by simp⟩

end Callers

end EveAgent.Scheduler
