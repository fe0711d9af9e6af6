import EveAgent.Scheduler.ThreadFacts

/-! The list of an hour holds at most one copy of a one-shot node, and only if the node is in the
slot of that hour. -/

namespace EveAgent.Scheduler

section OneShot

abbrev OneShot (node : TaskNode) : Prop := node.entry.mTask.eType = .schOneShot

theorem oneShot_stored {node : TaskNode} (stored : Stored node) (oneShot : OneShot node) :
    node.entry.slot = node.entry.mTask.startTime.ui16Hour.toNat ∧
      node.entry.mTask.startTime.ui16Hour.toNat < 24 ∧
      (startOffset node.entry.mTask).toNat < 3600 := by
  obtain ⟨now, valid⟩ := stored.accepted
  obtain ⟨_, hour, minute, second, notHourly⟩ := (validateTask_cases valid).2.1 oneShot
  have slot := stored.slot
  refine ⟨?_, hour, ?_⟩
  · unfold slotIndex at slot
    split at slot
    · rename_i hourly
      exact absurd hourly notHourly
    · exact (Option.some.inj slot).symm
    · exact (Option.some.inj slot).symm
    · exact (Option.some.inj slot).symm
    · cases slot
  · rw [startOffset_toNat]
    simp only [noSecsInMin]
    omega

end OneShot

section Traversal

variable {s t : State} {mallocs : List Bool}

def Pc.traversing : Pc → Bool
  | .rebuild .buildStart => true
  | .rebuild (.buildEvery _ _) => true
  | .rebuild (.buildHour _) => true
  | _ => false

/-- The steps that stay in the traversal or begin it. -/
inductive Traverses (mallocs : List Bool) (s t : State) : Prop
  | cleared (after : t.pc = .rebuild .buildStart) (empty : t.gExecList.nodes = [])
  | start (before : s.pc = .rebuild .buildStart)
      (after : t.pc = .rebuild (.buildEvery (slotNodes s.nodes everyHourTask).head? 0))
      (list : t.gExecList = s.gExecList)
  | every (pTemp : TaskNode) (ui32NoOfExec ui32NoOfExec' : UInt32)
      (before : s.pc = .rebuild (.buildEvery (some pTemp) ui32NoOfExec))
      (inTable : pTemp ∈ s.nodes)
      (after : t.pc = .rebuild (.buildEvery (pNext s.nodes pTemp) ui32NoOfExec'))
      (list : t.gExecList.nodes = s.gExecList.nodes ++ s.added mallocs)
      (builtAt : t.builtAt = s.builtAt)
  | turn (ui32NoOfExec : UInt32) (before : s.pc = .rebuild (.buildEvery none ui32NoOfExec))
      (after : t.pc = .rebuild (.buildHour (slotNodes s.nodes (hourSlot s)).head?))
      (list : t.gExecList = s.gExecList) (builtAt : t.builtAt = s.builtAt)
  | hour (pTemp : TaskNode) (before : s.pc = .rebuild (.buildHour (some pTemp)))
      (inTable : pTemp ∈ s.nodes)
      (after : t.pc = .rebuild (.buildHour (pNext s.nodes pTemp)))
      (list : t.gExecList.nodes = s.gExecList.nodes ++ s.added mallocs)
      (builtAt : t.builtAt = s.builtAt)

theorem pollStep_leaves {pc : PollPc} (stepped : pollStep s pc = some t) :
    t.pc.traversing = false := by
  revert stepped
  fun_cases pollStep s pc
  all_goals rintro ⟨⟩
  all_goals rfl

theorem dispatchStep_leaves {pc : DispatchPc} (stepped : dispatchStep s pc = some t) :
    t.pc.traversing = false := by
  revert stepped
  fun_cases dispatchStep s pc
  all_goals rintro ⟨⟩
  all_goals rfl

theorem autoCleanStep_leaves {pCurrent : List TaskNode}
    (atPc : s.pc = .rebuild (.autoClean pCurrent)) :
    (autoCleanStep s pCurrent).pc.traversing = false := by
  fun_cases autoCleanStep s pCurrent
  case case3 =>
    rw [atPc]
    rfl
  all_goals rfl

theorem rebuildStep_traverses {pc : RebuildPc} (atPc : s.pc = .rebuild pc)
    (stepped : rebuildStep mallocs s pc = some t) :
    Traverses mallocs s t ∨ (t.pc.traversing = false ∧ s.added mallocs = []) := by
  revert stepped
  fun_cases rebuildStep mallocs s pc
  all_goals rintro ⟨⟩
  case case3 => exact .inr ⟨autoCleanStep_leaves atPc, by simp only [State.added, atPc]⟩
  case case4 => exact .inl (.cleared rfl rfl)
  case case5 => exact .inl (.start atPc rfl rfl)
  case case6 ui32NoOfExec => exact .inl (.turn ui32NoOfExec atPc rfl rfl rfl)
  -- a refused visit leaves the traversal and adds nothing
  case case7 visited => exact .inr ⟨rfl, by simp only [State.added, atPc, visited]⟩
  case case8 pTemp ui32NoOfExec inTable _ ui32NoOfExec' visited =>
    refine .inl (.every pTemp ui32NoOfExec ui32NoOfExec' atPc inTable rfl ?_ rfl)
    simp only [addExecutions_nodes, State.added, atPc, visited]
  case case11 pTemp inTable =>
    refine .inl (.hour pTemp atPc inTable rfl ?_ rfl)
    simp only [addExecutions_nodes, State.added, atPc]
  all_goals exact .inr ⟨rfl, by simp only [State.added, atPc]⟩

theorem schedulerStep_traverses (stepped : schedulerStep mallocs s = some t) :
    Traverses mallocs s t ∨ (t.pc.traversing = false ∧ s.added mallocs = []) := by
  unfold schedulerStep at stepped
  cases atPc : s.pc with
  | poll pc =>
    rw [atPc] at stepped
    exact .inr ⟨pollStep_leaves stepped, by simp only [State.added, atPc]⟩
  | rebuild pc =>
    rw [atPc] at stepped
    exact rebuildStep_traverses atPc stepped
  | dispatch pc =>
    rw [atPc] at stepped
    exact .inr ⟨dispatchStep_leaves stepped, by simp only [State.added, atPc]⟩

end Traversal

section Copies

variable {s t : State} {mallocs : List Bool}

/-- The number of copies of a node in the list. -/
def copies (node : TaskNode) (list : List StExecNode) : Nat :=
  list.countP fun copy => copy.source = node

/-- What the traversal has copied of the one-shot nodes. -/
structure SingleCopy (s : State) : Prop where
  cleared : s.pc = .rebuild .buildStart → s.gExecList.nodes = []
  every : ∀ pTemp ui32NoOfExec, s.pc = .rebuild (.buildEvery pTemp ui32NoOfExec) →
    (∀ current ∈ pTemp, current.entry.slot = everyHourTask) ∧
      ∀ copy ∈ s.gExecList.nodes, ¬ OneShot copy.source
  hour : ∀ pTemp, s.pc = .rebuild (.buildHour pTemp) →
    ∀ current ∈ pTemp, current.entry.slot = hourSlot s ∧
      ∀ copy ∈ s.gExecList.nodes, OneShot copy.source → copy.source.serial < current.serial
  slotted : ∀ copy ∈ s.gExecList.nodes, OneShot copy.source →
    copy.source.entry.slot = hourSlot s ∧ copy.ui32Interval = startOffset copy.source.entry.mTask
  single : ∀ node, OneShot node → copies node s.gExecList.nodes ≤ 1

theorem SingleCopy.caller (inv : SingleCopy s) (frame : CallerFrame s t) : SingleCopy t := by
  constructor
  · rw [frame.pc, frame.gExecList]
    exact inv.cleared
  · rw [frame.pc, frame.gExecList]
    exact inv.every
  · unfold hourSlot
    rw [frame.pc, frame.gExecList, frame.builtAt]
    exact inv.hour
  · unfold hourSlot
    rw [frame.gExecList, frame.builtAt]
    exact inv.slotted
  · rw [frame.gExecList]
    exact inv.single

theorem SingleCopy.leave (inv : SingleCopy s) (left : t.pc.traversing = false)
    (list : t.gExecList.nodes.Subperm s.gExecList.nodes) (builtAt : t.builtAt = s.builtAt) :
    SingleCopy t := by
  constructor
  · intro atPc
    rw [atPc] at left
    cases left
  · intro pTemp ui32NoOfExec atPc
    rw [atPc] at left
    cases left
  · intro pTemp atPc
    rw [atPc] at left
    cases left
  · intro copy member oneShot
    have before := inv.slotted copy (list.subset member) oneShot
    rwa [hourSlot, builtAt]
  · intro node oneShot
    exact Nat.le_trans (list.countP_le _) (inv.single node oneShot)

theorem added_every {pTemp : TaskNode} {ui32NoOfExec : UInt32}
    (atPc : s.pc = .rebuild (.buildEvery (some pTemp) ui32NoOfExec)) {copy : StExecNode}
    (member : copy ∈ s.added mallocs) : copy.source = pTemp := by
  simp only [State.added, atPc] at member
  split at member
  · cases member
  · exact (mem_addedNodes member).1

theorem added_hour {pTemp : TaskNode} (atPc : s.pc = .rebuild (.buildHour (some pTemp)))
    {copy : StExecNode} (member : copy ∈ s.added mallocs) :
    copy.source = pTemp ∧ copy.ui32Interval = startOffset pTemp.entry.mTask := by
  simp only [State.added, atPc] at member
  obtain ⟨source, inside, _⟩ := mem_addedNodes member
  refine ⟨source, ?_⟩
  rcases hourVisit_cases s.timeBuffer pTemp.entry.mTask with none | one
  · rw [none] at inside
    cases inside
  · rw [one, List.mem_singleton] at inside
    exact inside

theorem added_hour_length {pTemp : TaskNode} (atPc : s.pc = .rebuild (.buildHour (some pTemp))) :
    (s.added mallocs).length ≤ 1 := by
  simp only [State.added, atPc]
  have length := addedNodes_length pTemp mallocs (hourVisit s.timeBuffer pTemp.entry.mTask)
  rcases hourVisit_cases s.timeBuffer pTemp.entry.mTask with none | one
  · rw [none] at length ⊢
    exact Nat.le_trans length (by decide)
  · rw [one] at length ⊢
    exact length

theorem everyHour_periodic {node : TaskNode} (stored : Stored node)
    (slot : node.entry.slot = everyHourTask) : ¬ OneShot node := by
  intro oneShot
  obtain ⟨hour, inDay, _⟩ := oneShot_stored stored oneShot
  simp only [everyHourTask] at slot
  omega

theorem copies_eq_zero {node : TaskNode} {list : List StExecNode}
    (absent : ∀ copy ∈ list, copy.source ≠ node) : copies node list = 0 := by
  rw [copies, List.countP_eq_zero]
  intro copy member
  rw [decide_eq_true_iff]
  exact absent copy member

theorem copies_append (node : TaskNode) (front back : List StExecNode) :
    copies node (front ++ back) = copies node front + copies node back := List.countP_append

theorem SingleCopy.visitEvery (inv : SingleCopy s) (sound : Sound s) {pTemp : TaskNode}
    {ui32NoOfExec ui32NoOfExec' : UInt32}
    (before : s.pc = .rebuild (.buildEvery (some pTemp) ui32NoOfExec)) (inTable : pTemp ∈ s.nodes)
    (after : t.pc = .rebuild (.buildEvery (pNext s.nodes pTemp) ui32NoOfExec'))
    (list : t.gExecList.nodes = s.gExecList.nodes ++ s.added mallocs) : SingleCopy t := by
  obtain ⟨slot, periodic⟩ := inv.every _ _ before
  have inEvery := slot pTemp rfl
  have none : ∀ copy ∈ t.gExecList.nodes, ¬ OneShot copy.source := by
    intro copy member
    rw [list] at member
    rcases List.mem_append.mp member with old | new
    · exact periodic copy old
    · rw [added_every before new]
      exact everyHour_periodic (sound.stored pTemp inTable) inEvery
  constructor
  · intro atPc
    rw [after] at atPc
    cases atPc
  · intro next count atPc
    rw [after] at atPc
    cases atPc
    refine ⟨?_, none⟩
    intro current follows
    exact (pNext_some sound.ordered inTable follows).2.1.trans inEvery
  · intro next atPc
    rw [after] at atPc
    cases atPc
  · intro copy member oneShot
    exact absurd oneShot (none copy member)
  · intro node oneShot
    rw [copies_eq_zero fun copy member same => none copy member (same ▸ oneShot)]
    exact Nat.zero_le _

theorem SingleCopy.visitHour (inv : SingleCopy s) (sound : Sound s) {pTemp : TaskNode}
    (before : s.pc = .rebuild (.buildHour (some pTemp))) (inTable : pTemp ∈ s.nodes)
    (after : t.pc = .rebuild (.buildHour (pNext s.nodes pTemp)))
    (list : t.gExecList.nodes = s.gExecList.nodes ++ s.added mallocs)
    (builtAt : t.builtAt = s.builtAt) : SingleCopy t := by
  obtain ⟨slot, older⟩ := inv.hour _ before pTemp rfl
  have hour : hourSlot t = hourSlot s := by rw [hourSlot, builtAt, hourSlot]
  constructor
  · intro atPc
    rw [after] at atPc
    cases atPc
  · intro next count atPc
    rw [after] at atPc
    cases atPc
  · intro next atPc current isIt
    rw [after] at atPc
    cases atPc
    obtain ⟨_, sameSlot, younger, _⟩ := pNext_some sound.ordered inTable isIt
    refine ⟨by rw [sameSlot, slot, hour], ?_⟩
    intro copy member oneShot
    rw [list] at member
    rcases List.mem_append.mp member with old | new
    · exact Nat.lt_trans (older copy old oneShot) younger
    · rw [(added_hour before new).1]
      exact younger
  · intro copy member oneShot
    rw [list] at member
    rw [hour]
    rcases List.mem_append.mp member with old | new
    · exact inv.slotted copy old oneShot
    · obtain ⟨source, interval⟩ := added_hour before new
      rw [source]
      exact ⟨slot, interval⟩
  · intro node oneShot
    rw [list, copies_append]
    by_cases visited : node = pTemp
    · have fresh : copies node s.gExecList.nodes = 0 := by
        apply copies_eq_zero
        intro copy member same
        have before := older copy member (same ▸ oneShot)
        rw [same, visited] at before
        exact Nat.lt_irrefl _ before
      have length : (s.added mallocs).length ≤ 1 := added_hour_length before
      have counted : copies node (s.added mallocs) ≤ (s.added mallocs).length :=
        List.countP_le_length
      omega
    · have fresh : copies node (s.added mallocs) = 0 := by
        apply copies_eq_zero
        intro copy member same
        exact visited (same.symm.trans (added_hour before member).1)
      have single := inv.single node oneShot
      omega

theorem SingleCopy.traverse (inv : SingleCopy s) (sound : Sound s)
    (traverses : Traverses mallocs s t) : SingleCopy t := by
  cases traverses with
  | cleared after empty =>
    constructor
    · intro _
      exact empty
    · intro pTemp count atPc
      rw [after] at atPc
      cases atPc
    · intro pTemp atPc
      rw [after] at atPc
      cases atPc
    · intro copy member
      rw [empty] at member
      cases member
    · intro node _
      rw [empty]
      exact Nat.zero_le _
  | start before after list =>
    have empty : t.gExecList.nodes = [] := by
      rw [list]
      exact inv.cleared before
    constructor
    · intro _
      exact empty
    · intro pTemp count atPc
      rw [after] at atPc
      cases atPc
      refine ⟨?_, by rw [empty]; simp⟩
      intro current head
      exact (mem_slotNodes.mp (List.mem_of_mem_head? head)).2
    · intro pTemp atPc
      rw [after] at atPc
      cases atPc
    · intro copy member
      rw [empty] at member
      cases member
    · intro node _
      rw [empty]
      exact Nat.zero_le _
  | every pTemp _ _ before inTable after list _ =>
    exact inv.visitEvery sound before inTable after list
  | turn _ before after list builtAt =>
    have periodic := (inv.every _ _ before).2
    have hour : hourSlot t = hourSlot s := by rw [hourSlot, builtAt, hourSlot]
    constructor
    · intro atPc
      rw [after] at atPc
      cases atPc
    · intro pTemp count atPc
      rw [after] at atPc
      cases atPc
    · intro pTemp atPc current head
      rw [after] at atPc
      cases atPc
      rw [hour, list]
      refine ⟨(mem_slotNodes.mp (List.mem_of_mem_head? head)).2, ?_⟩
      intro copy member oneShot
      exact absurd oneShot (periodic copy member)
    · intro copy member oneShot
      rw [list] at member
      exact absurd oneShot (periodic copy member)
    · rw [list]
      exact inv.single
  | hour pTemp before inTable after list builtAt =>
    exact inv.visitHour sound before inTable after list builtAt

theorem SingleCopy.step {label : Label} (inv : SingleCopy s) (sound : Sound s)
    (stepped : step s label = some t) : SingleCopy t := by
  rcases step_cases stepped with ⟨mallocs, rfl, moved⟩ | frame
  · have kept := schedulerStep_frame moved
    rcases schedulerStep_traverses moved with traverses | ⟨left, none⟩
    · exact inv.traverse sound traverses
    · have list := kept.list
      rw [none, List.append_nil] at list
      rcases kept.builtAt with builtAt | ⟨building, _⟩
      · exact inv.leave left list builtAt
      · simp only [schedulerStep, building, rebuildStep] at moved
        obtain rfl := Option.some.inj moved
        cases left
  · exact inv.caller frame

end Copies

end EveAgent.Scheduler
