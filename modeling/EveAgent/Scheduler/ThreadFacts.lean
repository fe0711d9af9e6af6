import EveAgent.Scheduler.Thread

namespace EveAgent.Scheduler

open Machine

section History

variable {s t : State}

def Event.start : Event → Option Start
  | .started start => some start
  | _ => none

theorem mem_starts {history : List Event} {start : Start} :
    start ∈ history.filterMap Event.start ↔ .started start ∈ history := by
  rw [List.mem_filterMap]
  constructor
  · rintro ⟨event, member, same⟩
    cases event with
    | started other =>
      obtain rfl := Option.some.inj same
      exact member
    | _ => cases same
  · intro member
    exact ⟨_, member, rfl⟩

/-- The tests of the dispatch loop under which an entry is started. -/
def State.Due (s : State) (node : StExecNode) : Prop :=
  s.ui32Seconds = node.ui32Interval.toNat ∨
    (s.ui32Seconds = noSecsInHour - 1 ∧ node.ui32Interval.toNat = noSecsInHour)

instance (s : State) (node : StExecNode) : Decidable (s.Due node) :=
  inferInstanceAs (Decidable (_ ∨ _))

/-- The events of one step, with the state the step is taken in. -/
inductive Logs (s t : State) : Label → Prop
  | none (label : Label) (same : t.history = s.history) : Logs s t label
  | slept (mallocs : List Bool) (before : s.pc = .poll .pollTest)
      (after : t.pc = .poll .sleepToHour)
      (nearEnd : noSecsInHour - s.ui32Seconds ≤ checkStatusTime) (reading : t.t1 = s.t1)
      (logged : t.history = .slept s.t1 :: s.history) : Logs s t (.sched mallocs)
  | autoCleaned (mallocs : List Bool) (before : s.pc = .rebuild .cleanTest)
      (early : s.ui32Seconds ≤ checkStatusTime)
      (logged : t.history = .autoCleaned s.clock :: s.history) : Logs s t (.sched mallocs)
  | built (mallocs : List Bool) (before : s.pc = .rebuild .buildStart)
      (logged : t.history = .built s.clock s.nodes :: s.history) : Logs s t (.sched mallocs)
  | started (mallocs : List Bool) (head : StExecNode) (rest : List StExecNode)
      (before : s.pc = .dispatch .compare) (nodes : s.gExecList.nodes = head :: rest)
      (due : s.Due head)
      (after : t.pc = .dispatch .running ∨ t.pc = .dispatch .runningLast)
      (list : t.gExecList = s.gExecList)
      (logged : t.history = s.start head :: s.history) : Logs s t (.sched mallocs)
  | deleted (lTaskId : Nat) (found : TaskNode) (member : found ∈ s.nodes)
      (search : s.nodes.find? (fun node => node.entry.id == lTaskId) = some found)
      (frame : t = { s with
        nodes := s.nodes.filter fun node => node.entry.id != lTaskId
        history := .deleted found.serial :: s.history }) : Logs s t (.deleteTask lTaskId)

theorem pollStep_logs {pc : PollPc} (mallocs : List Bool) (atPc : s.pc = .poll pc)
    (stepped : pollStep s pc = some t) : Logs s t (.sched mallocs) := by
  revert stepped
  fun_cases pollStep s pc
  all_goals rintro ⟨⟩
  -- the sleep to the hour
  case case7 late => exact .slept mallocs atPc rfl late.2.2 rfl rfl
  all_goals exact .none _ rfl

theorem autoCleanStep_history (s : State) (pCurrent : List TaskNode) :
    (autoCleanStep s pCurrent).history = s.history := by
  fun_cases autoCleanStep s pCurrent
  all_goals rfl

theorem rebuildStep_logs {pc : RebuildPc} {mallocs : List Bool} (atPc : s.pc = .rebuild pc)
    (stepped : rebuildStep mallocs s pc = some t) : Logs s t (.sched mallocs) := by
  revert stepped
  fun_cases rebuildStep mallocs s pc
  all_goals rintro ⟨⟩
  case case1 midnight => exact .autoCleaned mallocs atPc midnight.2 rfl
  case case3 pCurrent => exact .none _ (autoCleanStep_history s pCurrent)
  case case5 => exact .built mallocs atPc rfl
  all_goals exact .none _ rfl

theorem dispatchStep_logs {pc : DispatchPc} (mallocs : List Bool) (atPc : s.pc = .dispatch pc)
    (stepped : dispatchStep s pc = some t) : Logs s t (.sched mallocs) := by
  revert stepped
  fun_cases dispatchStep s pc
  all_goals rintro ⟨⟩
  case case7 head rest nodes _ now =>
    exact .started mallocs head rest atPc nodes (.inl now) (.inl rfl) rfl rfl
  case case8 head rest nodes _ _ last =>
    exact .started mallocs head rest atPc nodes (.inr last) (.inr rfl) rfl rfl
  all_goals exact .none _ rfl

theorem step_logs {label : Label} (stepped : step s label = some t) : Logs s t label := by
  cases label with
  | tick seconds | stopScheduler | validateTask task =>
    obtain rfl := Option.some.inj stepped
    exact .none _ rfl
  | sched mallocs =>
    simp only [step, schedulerStep] at stepped
    cases atPc : s.pc with
    | poll pc =>
      rw [atPc] at stepped
      exact pollStep_logs mallocs atPc stepped
    | rebuild pc =>
      rw [atPc] at stepped
      exact rebuildStep_logs atPc stepped
    | dispatch pc =>
      rw [atPc] at stepped
      exact dispatchStep_logs mallocs atPc stepped
  | insertTask call newNode =>
    simp only [step] at stepped
    split at stepped
    · cases stepped
    · rcases insertTask_cases stepped with rfl | ⟨_, _, _, _, _, _, _, _, rfl⟩
      · exact .none _ rfl
      · exact .none _ rfl
  | deleteTask lTaskId =>
    simp only [step] at stepped
    split at stepped
    · cases stepped
    · obtain rfl := Option.some.inj stepped
      rcases deleteTask_cases s lTaskId with same | ⟨found, member, _, search, deleted⟩
      · exact .none _ (by rw [same])
      · exact .deleted lTaskId found member search deleted

/-- A step starts nothing, or the head that the dispatch loop has found due. -/
theorem step_starts {label : Label} (stepped : step s label = some t) :
    t.history.filterMap Event.start = s.history.filterMap Event.start ∨
      ∃ mallocs head rest, label = .sched mallocs ∧ s.pc = .dispatch .compare ∧
        s.gExecList.nodes = head :: rest ∧ s.Due head ∧
        (t.pc = .dispatch .running ∨ t.pc = .dispatch .runningLast) ∧
        t.gExecList = s.gExecList ∧ t.history = s.start head :: s.history := by
  cases step_logs stepped with
  | none _ same => exact .inl (by rw [same])
  | slept mallocs before after nearEnd reading logged => exact .inl (by rw [logged]; rfl)
  | autoCleaned mallocs before early logged => exact .inl (by rw [logged]; rfl)
  | built mallocs before logged => exact .inl (by rw [logged]; rfl)
  | started mallocs head rest before nodes due after list logged =>
    exact .inr ⟨mallocs, head, rest, rfl, before, nodes, due, after, list, logged⟩
  | deleted lTaskId found member search frame => exact .inl (by rw [frame]; rfl)

end History

section Data

variable {s t : State} {mallocs : List Bool}

/-- `ui16StartHr`, the slot of the hour the list is built for. -/
def hourSlot (s : State) : Nat := (localtime s.builtAt).tmHour

/-- The entries a step of the traversal appends to the list. -/
def State.added (s : State) (mallocs : List Bool) : List StExecNode :=
  match s.pc with
  | .rebuild (.buildEvery (some pTemp) ui32NoOfExec) =>
    match everyHourVisit s.timeBuffer (ui16EndHrInSec (localtime s.builtAt)) ui32NoOfExec
        pTemp.entry.mTask with
    | none => []
    | some (ui32Interval, ui32NoOfExec) =>
      addedNodes pTemp mallocs (executions ui32Interval ui32NoOfExec)
  | .rebuild (.buildHour (some pTemp)) =>
    addedNodes pTemp mallocs (hourVisit s.timeBuffer pTemp.entry.mTask)
  | _ => []

/-- What a step of the scheduler thread leaves alone, and what it adds to the list. -/
structure SchedulerFrame (mallocs : List Bool) (s t : State) : Prop where
  clock : t.clock = s.clock
  serials : t.serials = s.serials
  adding : t.adding = s.adding
  nodes : t.nodes.Sublist s.nodes
  builtAt : t.builtAt = s.builtAt ∨ (s.pc = .rebuild .buildStart ∧ t.builtAt = s.clock)
  list : t.gExecList.nodes.Subperm (s.gExecList.nodes ++ s.added mallocs)

theorem SchedulerFrame.of_same (clock : t.clock = s.clock) (serials : t.serials = s.serials)
    (adding : t.adding = s.adding) (nodes : t.nodes = s.nodes) (builtAt : t.builtAt = s.builtAt)
    (list : t.gExecList.nodes.Subperm s.gExecList.nodes) : SchedulerFrame mallocs s t :=
  ⟨clock, serials, adding, by rw [nodes], .inl builtAt,
    list.trans (List.sublist_append_left _ _).subperm⟩

theorem removeHead_subperm (list : StExecutionList) :
    (removeHead list).nodes.Subperm list.nodes := (List.tail_sublist _).subperm

theorem pollStep_frame {pc : PollPc} (stepped : pollStep s pc = some t) :
    SchedulerFrame mallocs s t := by
  revert stepped
  fun_cases pollStep s pc
  all_goals rintro ⟨⟩
  -- the lists are cleared when the scheduler stops
  case case3 => exact .of_same rfl rfl rfl rfl rfl List.nil_subperm
  case case4 =>
    exact ⟨rfl, rfl, rfl, List.nil_sublist _, .inl rfl, (List.sublist_append_left _ _).subperm⟩
  all_goals exact .of_same rfl rfl rfl rfl rfl (List.Subperm.refl _)

theorem autoCleanStep_frame (s : State) (pCurrent : List TaskNode) :
    SchedulerFrame mallocs s (autoCleanStep s pCurrent) := by
  fun_cases autoCleanStep s pCurrent
  case case2 =>
    exact ⟨rfl, rfl, rfl, List.filter_sublist, .inl rfl, (List.sublist_append_left _ _).subperm⟩
  all_goals exact .of_same rfl rfl rfl rfl rfl (List.Subperm.refl _)

theorem rebuildStep_frame {pc : RebuildPc} (atPc : s.pc = .rebuild pc)
    (stepped : rebuildStep mallocs s pc = some t) : SchedulerFrame mallocs s t := by
  revert stepped
  fun_cases rebuildStep mallocs s pc
  all_goals rintro ⟨⟩
  case case3 pCurrent => exact autoCleanStep_frame s pCurrent
  case case4 => exact .of_same rfl rfl rfl rfl rfl List.nil_subperm
  case case5 =>
    exact ⟨rfl, rfl, rfl, List.Sublist.refl _, .inr ⟨atPc, rfl⟩,
      (List.sublist_append_left _ _).subperm⟩
  -- the two visits that add to the list
  case case8 visited =>
    refine ⟨rfl, rfl, rfl, List.Sublist.refl _, .inl rfl, ?_⟩
    simp only [addExecutions_nodes, State.added, atPc, visited]
    exact List.Subperm.refl _
  case case11 =>
    refine ⟨rfl, rfl, rfl, List.Sublist.refl _, .inl rfl, ?_⟩
    simp only [addExecutions_nodes, State.added, atPc]
    exact List.Subperm.refl _
  case case15 => exact .of_same rfl rfl rfl rfl rfl (sortExecutionList_perm _).subperm
  all_goals exact .of_same rfl rfl rfl rfl rfl (List.Subperm.refl _)

theorem dispatchStep_frame {pc : DispatchPc} (stepped : dispatchStep s pc = some t) :
    SchedulerFrame mallocs s t := by
  revert stepped
  fun_cases dispatchStep s pc
  all_goals rintro ⟨⟩
  -- the head is passed over or has run
  case case6 | case11 | case12 => exact .of_same rfl rfl rfl rfl rfl (removeHead_subperm _)
  all_goals exact .of_same rfl rfl rfl rfl rfl (List.Subperm.refl _)

theorem schedulerStep_frame (stepped : schedulerStep mallocs s = some t) :
    SchedulerFrame mallocs s t := by
  unfold schedulerStep at stepped
  cases atPc : s.pc with
  | poll pc =>
    rw [atPc] at stepped
    exact pollStep_frame stepped
  | rebuild pc =>
    rw [atPc] at stepped
    exact rebuildStep_frame atPc stepped
  | dispatch pc =>
    rw [atPc] at stepped
    exact dispatchStep_frame stepped

theorem step_clock {label : Label} (stepped : step s label = some t) :
    (∃ seconds, label = .tick seconds ∧ t = { s with clock := s.clock + seconds }) ∨
      t.clock = s.clock := by
  cases label with
  | tick seconds => exact .inl ⟨seconds, rfl, (Option.some.inj stepped).symm⟩
  | sched mallocs => exact .inr (schedulerStep_frame stepped).clock
  | stopScheduler | validateTask task =>
    obtain rfl := Option.some.inj stepped
    exact .inr rfl
  | insertTask call newNode =>
    simp only [step] at stepped
    split at stepped
    · cases stepped
    · rcases insertTask_cases stepped with rfl | ⟨_, _, _, _, _, _, _, _, rfl⟩
      · exact .inr rfl
      · exact .inr rfl
  | deleteTask lTaskId =>
    simp only [step] at stepped
    split at stepped
    · cases stepped
    · obtain rfl := Option.some.inj stepped
      rcases deleteTask_cases s lTaskId with same | ⟨_, _, _, _, deleted⟩
      · exact .inr (by rw [same])
      · exact .inr (by rw [deleted])

theorem added_source {node : StExecNode} (stepped : schedulerStep mallocs s = some t)
    (member : node ∈ s.added mallocs) : node.source ∈ s.nodes := by
  unfold State.added at member
  split at member
  · rename_i pTemp ui32NoOfExec atPc
    split at member
    · cases member
    · simp only [schedulerStep, atPc, rebuildStep] at stepped
      split at stepped
      · rename_i inTable
        rw [(mem_addedNodes member).1]
        exact inTable
      · cases stepped
  · rename_i pTemp atPc
    simp only [schedulerStep, atPc, rebuildStep] at stepped
    split at stepped
    · rename_i inTable
      rw [(mem_addedNodes member).1]
      exact inTable
    · cases stepped
  · cases member

theorem step_nodes {label : Label} (stepped : step s label = some t) :
    (t.nodes.Sublist s.nodes ∧ t.serials = s.serials) ∨
      ∃ call task index node, label = .insertTask call (some node) ∧
        s.adding[call]? = some task ∧ slotIndex task = some index ∧
        t.nodes = s.nodes ++ [⟨s.serials, ⟨node, index, task⟩⟩] ∧
        t.serials = s.serials + 1 ∧ t.gbTaskChanged = true := by
  cases label with
  | sched mallocs =>
    have frame := schedulerStep_frame stepped
    exact .inl ⟨frame.nodes, frame.serials⟩
  | tick seconds | stopScheduler | validateTask task =>
    obtain rfl := Option.some.inj stepped
    exact .inl ⟨List.Sublist.refl _, rfl⟩
  | insertTask call newNode =>
    simp only [step] at stepped
    split at stepped
    · cases stepped
    · rcases insertTask_cases stepped with
        rfl | ⟨task, index, node, waiting, rfl, slot, _, _, rfl⟩
      · exact .inl ⟨List.Sublist.refl _, rfl⟩
      · exact .inr ⟨call, task, index, node, rfl, waiting, slot, rfl, rfl, rfl⟩
  | deleteTask lTaskId =>
    simp only [step] at stepped
    split at stepped
    · cases stepped
    · obtain rfl := Option.some.inj stepped
      rcases deleteTask_cases s lTaskId with same | ⟨_, _, _, _, deleted⟩
      · rw [same]
        exact .inl ⟨List.Sublist.refl _, rfl⟩
      · rw [deleted]
        exact .inl ⟨List.filter_sublist, rfl⟩

theorem step_adding {label : Label} (stepped : step s label = some t) {task : StTask}
    (waiting : task ∈ t.adding) : task ∈ s.adding ∨ Accepted task := by
  cases label with
  | sched mallocs =>
    rw [(schedulerStep_frame stepped).adding] at waiting
    exact .inl waiting
  | tick seconds | stopScheduler =>
    obtain rfl := Option.some.inj stepped
    exact .inl waiting
  | validateTask called =>
    obtain rfl := Option.some.inj stepped
    simp only [validateCall] at waiting
    split at waiting
    · rename_i valid
      rcases List.mem_append.mp waiting with old | new
      · exact .inl old
      · obtain rfl := List.mem_singleton.mp new
        exact .inr ⟨s.clock, valid⟩
    · exact .inl waiting
  | insertTask call newNode =>
    simp only [step] at stepped
    split at stepped
    · cases stepped
    · rcases insertTask_cases stepped with rfl | ⟨_, _, _, _, _, _, _, _, rfl⟩
      · exact .inl (List.mem_of_mem_eraseIdx waiting)
      · exact .inl (List.mem_of_mem_eraseIdx waiting)
  | deleteTask lTaskId =>
    simp only [step] at stepped
    split at stepped
    · cases stepped
    · obtain rfl := Option.some.inj stepped
      rcases deleteTask_cases s lTaskId with same | ⟨_, _, _, _, deleted⟩
      · rw [same] at waiting
        exact .inl waiting
      · rw [deleted] at waiting
        exact .inl waiting

theorem step_list {label : Label} (stepped : step s label = some t) {node : StExecNode}
    (member : node ∈ t.gExecList.nodes) :
    node ∈ s.gExecList.nodes ∨
      ∃ mallocs, label = .sched mallocs ∧ node ∈ s.added mallocs ∧ node.source ∈ s.nodes := by
  rcases step_cases stepped with ⟨mallocs, rfl, moved⟩ | frame
  · rcases List.mem_append.mp ((schedulerStep_frame moved).list.subset member) with old | new
    · exact .inl old
    · exact .inr ⟨mallocs, rfl, new, added_source moved new⟩
  · rw [frame.gExecList] at member
    exact .inl member

def Ordered (nodes : List TaskNode) : Prop :=
  nodes.Pairwise fun first second => first.serial < second.serial

theorem Ordered.slot {nodes : List TaskNode} (ordered : Ordered nodes) (index : Nat) :
    Ordered (slotNodes nodes index) := ordered.sublist List.filter_sublist

theorem mem_slotNodes {nodes : List TaskNode} {node : TaskNode} {index : Nat} :
    node ∈ slotNodes nodes index ↔ node ∈ nodes ∧ node.entry.slot = index := by
  rw [slotNodes, List.mem_filter, beq_iff_eq]

theorem Ordered.head {nodes : List TaskNode} (ordered : Ordered nodes) {first : TaskNode}
    (head : nodes.head? = some first) {node : TaskNode} (member : node ∈ nodes) :
    first.serial ≤ node.serial := by
  cases nodes with
  | nil => cases member
  | cons other rest =>
    obtain rfl := Option.some.inj head
    rcases List.mem_cons.mp member with rfl | later
    · exact Nat.le_refl _
    · exact Nat.le_of_lt (List.rel_of_pairwise_cons ordered later)

theorem nextIn_none {nodes : List TaskNode} {last : TaskNode} (ordered : Ordered nodes)
    (inside : last ∈ nodes) (ends : nextIn last nodes = none) {node : TaskNode}
    (member : node ∈ nodes) : node.serial ≤ last.serial := by
  induction nodes with
  | nil => cases member
  | cons first rest ih =>
    rw [nextIn] at ends
    split at ends
    · rename_i here
      rw [List.head?_eq_none_iff] at ends
      rw [ends, List.mem_singleton] at member
      rw [member, here]
    · rename_i further
      have later : last ∈ rest := by
        rcases List.mem_cons.mp inside with same | later
        · exact absurd same.symm further
        · exact later
      rcases List.mem_cons.mp member with rfl | member
      · exact Nat.le_of_lt (List.rel_of_pairwise_cons ordered later)
      · exact ih ordered.of_cons later ends member

theorem nextIn_some {nodes : List TaskNode} {node next : TaskNode} (ordered : Ordered nodes)
    (inside : node ∈ nodes) (follows : nextIn node nodes = some next) :
    next ∈ nodes ∧ node.serial < next.serial ∧
      ∀ other ∈ nodes, other.serial < next.serial → other.serial ≤ node.serial := by
  induction nodes with
  | nil => cases inside
  | cons first rest ih =>
    rw [nextIn] at follows
    split at follows
    · rename_i here
      subst here
      have member := List.mem_of_mem_head? follows
      refine ⟨List.mem_cons_of_mem _ member, List.rel_of_pairwise_cons ordered member, ?_⟩
      intro other isIn younger
      rcases List.mem_cons.mp isIn with rfl | later
      · exact Nat.le_refl _
      · have oldest := Ordered.head ordered.of_cons follows later
        omega
    · rename_i further
      have later : node ∈ rest := by
        rcases List.mem_cons.mp inside with same | later
        · exact absurd same.symm further
        · exact later
      obtain ⟨member, before, between⟩ := ih ordered.of_cons later follows
      refine ⟨List.mem_cons_of_mem _ member, before, ?_⟩
      intro other isIn younger
      rcases List.mem_cons.mp isIn with rfl | isIn
      · exact Nat.le_of_lt (List.rel_of_pairwise_cons ordered later)
      · exact between other isIn younger

theorem pNext_none {nodes : List TaskNode} {pTemp node : TaskNode} (ordered : Ordered nodes)
    (inTable : pTemp ∈ nodes) (ends : pNext nodes pTemp = none) (member : node ∈ nodes)
    (slot : node.entry.slot = pTemp.entry.slot) : node.serial ≤ pTemp.serial :=
  nextIn_none (ordered.slot _) (mem_slotNodes.mpr ⟨inTable, rfl⟩) ends
    (mem_slotNodes.mpr ⟨member, slot⟩)

theorem pNext_some {nodes : List TaskNode} {pTemp next : TaskNode} (ordered : Ordered nodes)
    (inTable : pTemp ∈ nodes) (follows : pNext nodes pTemp = some next) :
    next ∈ nodes ∧ next.entry.slot = pTemp.entry.slot ∧ pTemp.serial < next.serial ∧
      ∀ other ∈ nodes, other.entry.slot = pTemp.entry.slot → other.serial < next.serial →
        other.serial ≤ pTemp.serial := by
  obtain ⟨member, before, between⟩ :=
    nextIn_some (ordered.slot _) (mem_slotNodes.mpr ⟨inTable, rfl⟩) follows
  obtain ⟨inNodes, slot⟩ := mem_slotNodes.mp member
  refine ⟨inNodes, slot, before, ?_⟩
  intro other isIn same younger
  exact between other (mem_slotNodes.mpr ⟨isIn, same⟩) younger

/-- A node holds an accepted task in the slot of that task. -/
structure Stored (node : TaskNode) : Prop where
  accepted : Accepted node.entry.mTask
  slot : slotIndex node.entry.mTask = some node.entry.slot

/-- What holds of the table and of the copies in the list in every run. -/
structure Sound (s : State) : Prop where
  stored : ∀ node ∈ s.nodes, Stored node
  fresh : ∀ node ∈ s.nodes, node.serial < s.serials
  ordered : Ordered s.nodes
  adding : ∀ task ∈ s.adding, Accepted task
  source : ∀ node ∈ s.gExecList.nodes, Stored node.source ∧ node.source.serial < s.serials
  copied : ∀ node ∈ s.gExecList.nodes, node.fp = node.source.entry.mTask.fp ∧
    node.vpArg = node.source.entry.mTask.vpArg

theorem added_copied {node : StExecNode} (member : node ∈ s.added mallocs) :
    node.fp = node.source.entry.mTask.fp ∧ node.vpArg = node.source.entry.mTask.vpArg := by
  unfold State.added at member
  split at member
  · split at member
    · cases member
    · obtain ⟨source, _, fp, vpArg⟩ := mem_addedNodes member
      exact ⟨by rw [fp, source], by rw [vpArg, source]⟩
  · obtain ⟨source, _, fp, vpArg⟩ := mem_addedNodes member
    exact ⟨by rw [fp, source], by rw [vpArg, source]⟩
  · cases member

theorem Sound.step {label : Label} (sound : Sound s) (stepped : step s label = some t) :
    Sound t := by
  have nodes := step_nodes stepped
  have serials : s.serials ≤ t.serials := by
    rcases nodes with ⟨_, same⟩ | ⟨_, _, _, _, _, _, _, _, more, _⟩
    · omega
    · omega
  constructor
  · intro node member
    rcases nodes with ⟨fewer, _⟩ | ⟨_, task, index, id, _, waiting, slot, more, _⟩
    · exact sound.stored node (fewer.subset member)
    · rw [more] at member
      rcases List.mem_append.mp member with old | new
      · exact sound.stored node old
      · obtain rfl := List.mem_singleton.mp new
        exact ⟨sound.adding task (List.mem_of_getElem? waiting), slot⟩
  · intro node member
    rcases nodes with ⟨fewer, same⟩ | ⟨_, task, index, id, _, _, _, more, next, _⟩
    · rw [same]
      exact sound.fresh node (fewer.subset member)
    · rw [more] at member
      rcases List.mem_append.mp member with old | new
      · have before := sound.fresh node old
        omega
      · obtain rfl := List.mem_singleton.mp new
        rw [next]
        exact Nat.lt_succ_self _
  · rcases nodes with ⟨fewer, _⟩ | ⟨_, task, index, id, _, _, _, more, _⟩
    · exact sound.ordered.sublist fewer
    · rw [Ordered, more, List.pairwise_append]
      refine ⟨sound.ordered, List.pairwise_singleton _ _, ?_⟩
      intro node member new isNew
      obtain rfl := List.mem_singleton.mp isNew
      exact sound.fresh node member
  · intro task waiting
    rcases step_adding stepped waiting with old | accepted
    · exact sound.adding task old
    · exact accepted
  · intro node member
    rcases step_list stepped member with old | ⟨_, _, _, inTable⟩
    · have before := sound.source node old
      exact ⟨before.1, Nat.lt_of_lt_of_le before.2 serials⟩
    · exact ⟨sound.stored _ inTable, Nat.lt_of_lt_of_le (sound.fresh _ inTable) serials⟩
  · intro node member
    rcases step_list stepped member with old | ⟨_, _, new, _⟩
    · exact sound.copied node old
    · exact added_copied new

theorem sound_start (now : Nat) : Sound (schStartScheduler now) := by
  constructor
  all_goals simp [schStartScheduler, initExecutionList, Ordered]

theorem Sound.unique (sound : Sound s) {first second : TaskNode} (member : first ∈ s.nodes)
    (member' : second ∈ s.nodes) (same : first.serial = second.serial) : first = second := by
  have nodup : (s.nodes.map TaskNode.serial).Nodup :=
    List.pairwise_map.mpr (sound.ordered.imp Nat.ne_of_lt)
  exact List.inj_on_of_nodup_map nodup member member' same

end Data

section Startable

variable {s t : State} {mallocs : List Bool} {node : StExecNode}

/-- Which part of the list the dispatch loop may still start entries of. -/
inductive Live where
  | nothing
  | whole
  | dueHead
  | tail
  | unlessChanged
  deriving DecidableEq, Repr

/-- Before the list is cleared and after the loop is left there is nothing to start; the
head that runs has been started. -/
def Pc.live : Pc → Live
  | .poll _ => .nothing
  | .rebuild .cleanTest => .nothing
  | .rebuild (.autoClean _) => .nothing
  | .rebuild .clearList => .nothing
  | .rebuild .sleepEmpty => .nothing
  | .rebuild _ => .whole
  | .dispatch .head => .whole
  | .dispatch .stopTest => .whole
  | .dispatch .compare => .dueHead
  | .dispatch .running => .tail
  | .dispatch .runningLast => .tail
  | .dispatch .sleepLast => .nothing
  | .dispatch .sleepNext => .unlessChanged
  | .dispatch .changedTest => .unlessChanged
  | .dispatch .safetyUnlock => .nothing

/-- The entries that the dispatch loop may still start. Once it is told to stop it
starts at most the head it has just compared. -/
def State.startable (s : State) : List StExecNode :=
  match s.pc.live with
  | .nothing => []
  | .whole => if s.gbStopScheduler then [] else s.gExecList.nodes
  | .dueHead =>
    if s.gbStopScheduler then s.gExecList.nodes.head?.toList.filter fun node => s.Due node
    else s.gExecList.nodes
  | .tail => if s.gbStopScheduler then [] else s.gExecList.nodes.tail
  | .unlessChanged => if s.gbStopScheduler ∨ s.gbTaskChanged then [] else s.gExecList.nodes

theorem startable_nothing (live : s.pc.live = .nothing) : s.startable = [] := by
  rw [State.startable, live]

theorem startable_running (live : s.pc.live = .whole ∨ s.pc.live = .dueHead)
    (running : s.gbStopScheduler = false) : s.startable = s.gExecList.nodes := by
  rcases live with live | live
  · simp only [State.startable, live, running, Bool.false_eq_true, if_false]
  · simp only [State.startable, live, running, Bool.false_eq_true, if_false]

theorem mem_startable_whole (live : s.pc.live = .whole) :
    node ∈ s.startable ↔ s.gbStopScheduler = false ∧ node ∈ s.gExecList.nodes := by
  rw [State.startable, live]
  cases s.gbStopScheduler with
  | true => simp
  | false => simp

theorem mem_startable_tail (live : s.pc.live = .tail) :
    node ∈ s.startable ↔ s.gbStopScheduler = false ∧ node ∈ s.gExecList.nodes.tail := by
  rw [State.startable, live]
  cases s.gbStopScheduler with
  | true => simp
  | false => simp

theorem mem_startable_unlessChanged (live : s.pc.live = .unlessChanged) :
    node ∈ s.startable ↔ s.gbStopScheduler = false ∧ s.gbTaskChanged = false ∧
      node ∈ s.gExecList.nodes := by
  rw [State.startable, live]
  cases s.gbStopScheduler with
  | true => simp
  | false => cases s.gbTaskChanged with
    | true => simp
    | false => simp

theorem startable_mem (member : node ∈ s.startable) : node ∈ s.gExecList.nodes := by
  unfold State.startable at member
  split at member
  · cases member
  · split at member
    · cases member
    · exact member
  · split at member
    · rw [List.mem_filter, Option.mem_toList] at member
      exact List.mem_of_mem_head? member.1
    · exact member
  · split at member
    · cases member
    · exact List.mem_of_mem_tail member
  · split at member
    · cases member
    · exact member

theorem mem_startable_stopped (stopped : s.gbStopScheduler = true) :
    node ∈ s.startable ↔
      s.pc.live = .dueHead ∧ s.gExecList.nodes.head? = some node ∧ s.Due node := by
  unfold State.startable
  cases s.pc.live with
  | nothing | whole | tail | unlessChanged => simp [stopped]
  | dueHead => simp [stopped]

theorem startable_caller (frame : CallerFrame s t) (member : node ∈ t.startable) :
    node ∈ s.startable := by
  cases running : s.gbStopScheduler with
  | true =>
    rw [mem_startable_stopped (frame.stops running), frame.pc, frame.gExecList, State.Due,
      State.ui32Seconds, frame.t1] at member
    exact (mem_startable_stopped running).mpr member
  | false =>
    have inList := startable_mem member
    rw [frame.gExecList] at inList
    cases live : s.pc.live with
    | nothing =>
      rw [startable_nothing (by rw [frame.pc, live])] at member
      cases member
    | whole | dueHead =>
      rw [startable_running (by simp [live]) running]
      exact inList
    | tail =>
      rw [mem_startable_tail (by rw [frame.pc, live]), frame.gExecList] at member
      exact (mem_startable_tail live).mpr ⟨running, member.2⟩
    | unlessChanged =>
      rw [mem_startable_unlessChanged (by rw [frame.pc, live])] at member
      refine (mem_startable_unlessChanged live).mpr ⟨running, ?_, inList⟩
      cases changed : s.gbTaskChanged with
      | false => rfl
      | true => rw [frame.changes changed] at member; exact absurd member.2.1 (by simp)

theorem pollStep_startable {pc : PollPc} (stepped : pollStep s pc = some t) :
    t.startable = [] := by
  revert stepped
  fun_cases pollStep s pc
  all_goals rintro ⟨⟩
  all_goals rfl

theorem autoCleanStep_live (s : State) (pCurrent : List TaskNode)
    (atPc : s.pc = .rebuild (.autoClean pCurrent)) :
    (autoCleanStep s pCurrent).pc.live = .nothing := by
  fun_cases autoCleanStep s pCurrent
  case case3 =>
    rw [atPc]
    rfl
  all_goals rfl

theorem rebuildStep_startable {pc : RebuildPc} (atPc : s.pc = .rebuild pc)
    (stepped : rebuildStep mallocs s pc = some t) (member : node ∈ t.startable) :
    node ∈ s.startable ∨ (node ∈ s.added mallocs ∧ s.gbStopScheduler = false) := by
  have frame := rebuildStep_frame atPc stepped
  -- while the list is built and sorted the whole of it may be started
  have kept : s.pc.live = .whole → t.pc.live = .whole →
      t.gbStopScheduler = s.gbStopScheduler →
      node ∈ s.startable ∨ (node ∈ s.added mallocs ∧ s.gbStopScheduler = false) := by
    intro live live' same
    obtain ⟨running, inList⟩ := (mem_startable_whole live').mp member
    rw [same] at running
    rcases List.mem_append.mp (frame.list.subset inList) with old | new
    · exact .inl ((mem_startable_whole live).mpr ⟨running, old⟩)
    · exact .inr ⟨new, running⟩
  clear frame
  revert stepped
  fun_cases rebuildStep mallocs s pc
  all_goals rintro ⟨⟩
  case case1 | case2 | case16 | case18 => cases member
  case case3 pCurrent =>
    rw [startable_nothing (autoCleanStep_live s pCurrent atPc)] at member
    cases member
  case case4 => cases startable_mem member
  all_goals exact kept (by rw [atPc]; rfl) rfl rfl

theorem dispatchStep_startable {pc : DispatchPc} (atPc : s.pc = .dispatch pc)
    (stepped : dispatchStep s pc = some t) (member : node ∈ t.startable) :
    node ∈ s.startable := by
  have started : s.pc.live = .dueHead → s.gbStopScheduler = false →
      node ∈ s.gExecList.nodes → node ∈ s.startable := by
    intro live running inList
    rw [startable_running (.inr live) running]
    exact inList
  revert stepped
  fun_cases dispatchStep s pc
  all_goals rintro ⟨⟩
  case case2 =>
    have inList := (mem_startable_whole rfl).mp member
    exact (mem_startable_whole (by rw [atPc]; rfl)).mpr inList
  case case4 running =>
    rw [Bool.not_eq_true] at running
    have inList := startable_mem member
    exact (mem_startable_whole (by rw [atPc]; rfl)).mpr ⟨running, inList⟩
  case case6 =>
    obtain ⟨running, inTail⟩ := (mem_startable_whole rfl).mp member
    exact started (by rw [atPc]; rfl) running (List.mem_of_mem_tail inTail)
  case case7 | case8 =>
    obtain ⟨running, inTail⟩ := (mem_startable_tail rfl).mp member
    exact started (by rw [atPc]; rfl) running (List.mem_of_mem_tail inTail)
  case case10 =>
    obtain ⟨running, _, inList⟩ := (mem_startable_unlessChanged rfl).mp member
    exact started (by rw [atPc]; rfl) running inList
  case case11 =>
    have inTail := (mem_startable_whole rfl).mp member
    exact (mem_startable_tail (by rw [atPc]; rfl)).mpr inTail
  case case12 =>
    by_cases last : (removeHead s.gExecList).nSize = 0
    · rw [if_pos last] at member
      cases member
    · rw [if_neg last] at member
      have inTail := (mem_startable_whole rfl).mp member
      exact (mem_startable_tail (by rw [atPc]; rfl)).mpr inTail
  case case14 =>
    have inList := (mem_startable_unlessChanged rfl).mp member
    exact (mem_startable_unlessChanged (by rw [atPc]; rfl)).mpr inList
  case case16 same =>
    rw [Bool.not_eq_true] at same
    obtain ⟨running, inList⟩ := (mem_startable_whole rfl).mp member
    exact (mem_startable_unlessChanged (by rw [atPc]; rfl)).mpr ⟨running, same, inList⟩
  all_goals cases member

theorem step_startable {label : Label} (stepped : step s label = some t)
    (member : node ∈ t.startable) :
    node ∈ s.startable ∨
      ∃ mallocs, label = .sched mallocs ∧ node ∈ s.added mallocs ∧ s.gbStopScheduler = false := by
  rcases step_cases stepped with ⟨mallocs, rfl, moved⟩ | frame
  · unfold schedulerStep at moved
    cases atPc : s.pc with
    | poll pc =>
      rw [atPc] at moved
      rw [pollStep_startable moved] at member
      cases member
    | rebuild pc =>
      rw [atPc] at moved
      rcases rebuildStep_startable atPc moved member with old | new
      · exact .inl old
      · exact .inr ⟨mallocs, rfl, new⟩
    | dispatch pc =>
      rw [atPc] at moved
      exact .inl (dispatchStep_startable atPc moved member)
  · exact .inl (startable_caller frame member)

theorem started_startable {head : StExecNode} {rest : List StExecNode}
    (atPc : s.pc = .dispatch .compare) (nodes : s.gExecList.nodes = head :: rest)
    (due : s.Due head) : head ∈ s.startable := by
  simp only [State.startable, atPc, Pc.live, nodes]
  split
  · simpa using due
  · exact List.mem_cons_self

end Startable

end EveAgent.Scheduler
