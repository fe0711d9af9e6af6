import EveAgent.Scheduler.ThreadFacts

/-! While the thread waits or dispatches, a task that was not there when its list was built has
raised `gbTaskChanged`. -/

namespace EveAgent.Scheduler

open Machine

section Flag

variable {s t : State} {mallocs : List Bool}

/-- From the start of the traversal to the reset of the flag. -/
def Pc.rebuilding : Pc → Bool
  | .rebuild (.buildEvery _ _) => true
  | .rebuild (.buildHour _) => true
  | .rebuild .resetFlag => true
  | _ => false

def AllSeen (s : State) : Prop := ∀ node ∈ s.nodes, node.serial ∈ s.seen

instance (s : State) : Decidable (AllSeen s) := inferInstanceAs (Decidable (∀ _ ∈ _, _))

/-- No added task is lost: the flag is up or the list was built with all tasks. -/
def NoTaskLost (s : State) : Prop :=
  s.pc.rebuilding = false → s.gbTaskChanged = true ∨ AllSeen s

instance (s : State) : Decidable (NoTaskLost s) := inferInstanceAs (Decidable (_ → _))

/-- The traversal, or the return of `BuildExecutionList`, is still to come to the end
of this slot. -/
def SlotAhead (s : State) (index : Nat) : Prop :=
  match s.pc with
  | .rebuild (.buildEvery pTemp _) => index = everyHourTask → pTemp ≠ none
  | .rebuild (.buildHour pTemp) => index ≠ everyHourTask ∧ (index = hourSlot s → pTemp ≠ none)
  | .rebuild .resetFlag => False
  | _ => True

instance (s : State) (index : Nat) : Decidable (SlotAhead s index) := by
  unfold SlotAhead
  split <;> infer_instance

/-- No task is inserted between the end of its slot in the traversal and the reset of
the flag. -/
def InsertedInTime (s : State) : Label → Prop
  | .insertTask call newNode =>
    newNode ≠ none → ∀ task ∈ s.adding[call]?, ∀ index ∈ slotIndex task, SlotAhead s index
  | _ => True

instance (s : State) : ∀ label, Decidable (InsertedInTime s label)
  | .insertTask _ _ => inferInstanceAs (Decidable (_ → ∀ _ ∈ _, ∀ _ ∈ _, _))
  | .tick _ => isTrue trivial
  | .sched _ => isTrue trivial
  | .validateTask _ => isTrue trivial
  | .deleteTask _ => isTrue trivial
  | .stopScheduler => isTrue trivial

/-- The nodes of this slot before the node `pTemp` stands on have been seen. -/
def SeenBefore (s : State) (index : Nat) (pTemp : Option TaskNode) : Prop :=
  (∀ current ∈ pTemp, current.entry.slot = index ∧ current.serial < s.serials) ∧
    ∀ node ∈ s.nodes, node.entry.slot = index →
      (∀ current ∈ pTemp, node.serial < current.serial) → node.serial ∈ s.seen

def SlotSeen (s : State) (index : Nat) : Prop :=
  ∀ node ∈ s.nodes, node.entry.slot = index → node.serial ∈ s.seen

def Covered (s : State) : Prop :=
  match s.pc with
  | .rebuild (.buildEvery pTemp _) => SeenBefore s everyHourTask pTemp
  | .rebuild (.buildHour pTemp) => SlotSeen s everyHourTask ∧ SeenBefore s (hourSlot s) pTemp
  | .rebuild .resetFlag => AllSeen s
  | _ => s.gbTaskChanged = true ∨ AllSeen s

theorem covered_idle (idle : s.pc.rebuilding = false) :
    Covered s ↔ s.gbTaskChanged = true ∨ AllSeen s := by
  unfold Covered
  split
  · rename_i atPc
    rw [atPc] at idle
    cases idle
  · rename_i atPc
    rw [atPc] at idle
    cases idle
  · rename_i atPc
    rw [atPc] at idle
    cases idle
  · exact Iff.rfl

theorem rebuilding_cases {pc : Pc} (rebuilding : pc.rebuilding = true) :
    (∃ pTemp ui32NoOfExec, pc = .rebuild (.buildEvery pTemp ui32NoOfExec)) ∨
      (∃ pTemp, pc = .rebuild (.buildHour pTemp)) ∨ pc = .rebuild .resetFlag := by
  unfold Pc.rebuilding at rebuilding
  split at rebuilding
  · exact .inl ⟨_, _, rfl⟩
  · exact .inr (.inl ⟨_, rfl⟩)
  · exact .inr (.inr rfl)
  · cases rebuilding

theorem seenBefore_head (sound : Sound s) (index : Nat) (nodes : t.nodes = s.nodes)
    (serials : t.serials = s.serials) :
    SeenBefore t index (slotNodes s.nodes index).head? := by
  constructor
  · intro current head
    obtain ⟨member, slot⟩ := mem_slotNodes.mp (List.mem_of_mem_head? head)
    rw [serials]
    exact ⟨slot, sound.fresh current member⟩
  · intro node member slot before
    rw [nodes] at member
    have inSlot := mem_slotNodes.mpr ⟨member, slot⟩
    cases head : (slotNodes s.nodes index).head? with
    | none =>
      rw [List.head?_eq_none_iff] at head
      rw [head] at inSlot
      cases inSlot
    | some first =>
      have oldest := (sound.ordered.slot index).head head inSlot
      have younger := before first head
      omega

theorem SeenBefore.visit {index : Nat} {pTemp : TaskNode} (sound : Sound s)
    (seen : SeenBefore s index (some pTemp)) (inTable : pTemp ∈ s.nodes)
    (nodes : t.nodes = s.nodes) (serials : t.serials = s.serials)
    (visited : t.seen = pTemp.serial :: s.seen) :
    SeenBefore t index (pNext s.nodes pTemp) := by
  obtain ⟨slot, _⟩ := seen.1 pTemp rfl
  have upTo : ∀ node ∈ s.nodes, node.entry.slot = index → node.serial ≤ pTemp.serial →
      node.serial ∈ t.seen := by
    intro node member inSlot upTo
    rw [visited, List.mem_cons]
    by_cases same : node.serial = pTemp.serial
    · exact .inl same
    · refine .inr (seen.2 node member inSlot ?_)
      intro current isIt
      obtain rfl := Option.some.inj isIt
      omega
  constructor
  · intro next follows
    obtain ⟨member, inSlot, _⟩ := pNext_some sound.ordered inTable follows
    rw [serials]
    exact ⟨inSlot.trans slot, sound.fresh next member⟩
  · intro node member inSlot before
    rw [nodes] at member
    apply upTo node member inSlot
    cases follows : pNext s.nodes pTemp with
    | none => exact pNext_none sound.ordered inTable follows member (inSlot.trans slot.symm)
    | some next =>
      have between := (pNext_some sound.ordered inTable follows).2.2.2
      exact between node member (inSlot.trans slot.symm) (before next follows)

structure FlagInv (s : State) : Prop where
  sound : Sound s
  covered : Covered s

theorem pollStep_covered {pc : PollPc} (atPc : s.pc = .poll pc) (covered : Covered s)
    (stepped : pollStep s pc = some t) : Covered t := by
  unfold Covered at covered
  rw [atPc] at covered
  revert stepped
  fun_cases pollStep s pc
  all_goals rintro ⟨⟩
  -- the table is emptied, so no task is left to see
  case case4 =>
    refine .inr ?_
    intro node member
    cases member
  all_goals exact covered

theorem autoCleanStep_covered {pCurrent : List TaskNode}
    (atPc : s.pc = .rebuild (.autoClean pCurrent)) (covered : Covered s) :
    Covered (autoCleanStep s pCurrent) := by
  unfold Covered at covered
  rw [atPc] at covered
  fun_cases autoCleanStep s pCurrent
  case case2 =>
    refine covered.imp id ?_
    intro seen node member
    exact seen node (List.mem_of_mem_filter member)
  case case3 =>
    simp only [Covered, atPc]
    exact covered
  all_goals exact covered

theorem buildReturn_covered (every : SlotSeen s everyHourTask)
    (hour : SeenBefore s (hourSlot s) none) : Covered (buildReturn s) := by
  intro node member
  by_cases inEvery : node.entry.slot = everyHourTask
  · exact List.mem_append_right _ (every node member inEvery)
  · by_cases inHour : node.entry.slot = hourSlot s
    · refine List.mem_append_right _ (hour.2 node member inHour ?_)
      intro current none
      cases none
    · refine List.mem_append_left _ (List.mem_map.mpr ⟨node, ?_, rfl⟩)
      rw [State.otherSlots, List.mem_filter]
      refine ⟨member, ?_⟩
      rw [Bool.and_eq_true, bne_iff_ne, bne_iff_ne]
      exact ⟨inEvery, inHour⟩

theorem rebuildStep_covered {pc : RebuildPc} (atPc : s.pc = .rebuild pc) (inv : FlagInv s)
    (stepped : rebuildStep mallocs s pc = some t) : Covered t := by
  have covered := inv.covered
  unfold Covered at covered
  rw [atPc] at covered
  revert stepped
  fun_cases rebuildStep mallocs s pc
  all_goals rintro ⟨⟩
  case case3 => exact autoCleanStep_covered atPc inv.covered
  case case5 => exact seenBefore_head inv.sound everyHourTask rfl rfl
  case case6 =>
    refine ⟨?_, seenBefore_head inv.sound _ rfl rfl⟩
    intro node member slot
    exact covered.2 node member slot (by simp)
  -- an accepted task is never refused by the visit
  case case7 pTemp _ inTable refused =>
    obtain ⟨_, _, _, visited⟩ := everyHourVisit_accepted s.timeBuffer
      (ui16EndHrInSec (localtime s.builtAt)) (inv.sound.stored pTemp inTable).accepted
    rw [visited] at refused
    cases refused
  case case8 inTable _ _ _ => exact covered.visit inv.sound inTable rfl rfl rfl
  case case10 => exact buildReturn_covered covered.1 covered.2
  case case11 inTable =>
    refine ⟨?_, covered.2.visit inv.sound inTable rfl rfl rfl⟩
    intro node member slot
    exact List.mem_cons_of_mem _ (covered.1 node member slot)
  case case13 => exact .inr covered
  all_goals exact covered

theorem dispatchStep_covered {pc : DispatchPc} (atPc : s.pc = .dispatch pc) (covered : Covered s)
    (stepped : dispatchStep s pc = some t) : Covered t := by
  unfold Covered at covered
  rw [atPc] at covered
  revert stepped
  fun_cases dispatchStep s pc
  all_goals rintro ⟨⟩
  -- the head that ran at the end of the hour may have been the last
  case case12 =>
    unfold Covered
    by_cases last : (removeHead s.gExecList).nSize = 0
    · simp only [if_pos last]
      exact covered
    · simp only [if_neg last]
      exact covered
  all_goals exact covered

theorem SeenBefore.fewer {index : Nat} {pTemp : Option TaskNode}
    (seen : SeenBefore s index pTemp) (same : t.seen = s.seen)
    (nodes : ∀ node ∈ t.nodes, node ∈ s.nodes) (serials : s.serials ≤ t.serials) :
    SeenBefore t index pTemp := by
  constructor
  · intro current isIt
    exact ⟨(seen.1 current isIt).1, Nat.lt_of_lt_of_le (seen.1 current isIt).2 serials⟩
  · intro node member slot before
    rw [same]
    exact seen.2 node (nodes node member) slot before

theorem SeenBefore.insert {index : Nat} {pTemp : Option TaskNode} {added : TaskNode}
    (seen : SeenBefore s index pTemp) (same : t.seen = s.seen)
    (nodes : t.nodes = s.nodes ++ [added]) (serial : added.serial = s.serials)
    (serials : s.serials ≤ t.serials) (ahead : added.entry.slot = index → pTemp ≠ none) :
    SeenBefore t index pTemp := by
  constructor
  · intro current isIt
    exact ⟨(seen.1 current isIt).1, Nat.lt_of_lt_of_le (seen.1 current isIt).2 serials⟩
  · intro node member slot before
    rw [same]
    rw [nodes] at member
    rcases List.mem_append.mp member with old | new
    · exact seen.2 node old slot before
    · obtain rfl := List.mem_singleton.mp new
      obtain ⟨current, isIt⟩ := Option.ne_none_iff_exists'.mp (ahead slot)
      have older := (seen.1 current isIt).2
      have younger := before current isIt
      omega

theorem caller_covered {label : Label} (inv : FlagInv s) (inTime : InsertedInTime s label)
    (frame : CallerFrame s t) (stepped : step s label = some t) : Covered t := by
  have covered := inv.covered
  have hour : hourSlot t = hourSlot s := by rw [hourSlot, hourSlot, frame.builtAt]
  rcases step_nodes stepped with ⟨fewer, serials⟩ |
    ⟨call, task, index, id, rfl, waiting, slot, more, serials, changed⟩
  · have all : AllSeen s → AllSeen t := by
      intro seen node member
      rw [frame.seen]
      exact seen node (fewer.subset member)
    have serials : s.serials ≤ t.serials := Nat.le_of_eq serials.symm
    cases rebuilding : s.pc.rebuilding with
    | false =>
      rw [covered_idle rebuilding] at covered
      rw [covered_idle (by rw [frame.pc, rebuilding])]
      exact covered.imp frame.changes all
    | true =>
      unfold Covered at *
      rw [frame.pc, hour]
      rcases rebuilding_cases rebuilding with ⟨pTemp, ui32NoOfExec, atPc⟩ | ⟨pTemp, atPc⟩ | atPc
      · rw [atPc] at covered ⊢
        exact covered.fewer frame.seen fewer.subset serials
      · rw [atPc] at covered ⊢
        refine ⟨?_, covered.2.fewer frame.seen fewer.subset serials⟩
        intro node member slot
        rw [frame.seen]
        exact covered.1 node (fewer.subset member) slot
      · rw [atPc] at covered ⊢
        exact all covered
  · have ahead := inTime (by simp) task waiting index slot
    have grows : s.serials ≤ t.serials := by omega
    cases rebuilding : s.pc.rebuilding with
    | false =>
      rw [covered_idle (by rw [frame.pc, rebuilding])]
      exact .inl changed
    | true =>
      unfold Covered at *
      unfold SlotAhead at ahead
      rw [frame.pc, hour]
      rcases rebuilding_cases rebuilding with ⟨pTemp, ui32NoOfExec, atPc⟩ | ⟨pTemp, atPc⟩ | atPc
      · rw [atPc] at covered ahead ⊢
        exact covered.insert frame.seen more rfl grows ahead
      · rw [atPc] at covered ahead ⊢
        refine ⟨?_, covered.2.insert frame.seen more rfl grows ahead.2⟩
        intro node member inSlot
        rw [more] at member
        rw [frame.seen]
        rcases List.mem_append.mp member with old | new
        · exact covered.1 node old inSlot
        · obtain rfl := List.mem_singleton.mp new
          exact absurd inSlot ahead.1
      · rw [atPc] at ahead
        cases ahead

theorem FlagInv.step {label : Label} (inv : FlagInv s) (inTime : InsertedInTime s label)
    (stepped : step s label = some t) : FlagInv t := by
  refine ⟨inv.sound.step stepped, ?_⟩
  rcases step_cases stepped with ⟨mallocs, rfl, moved⟩ | frame
  · unfold schedulerStep at moved
    cases atPc : s.pc with
    | poll pc =>
      rw [atPc] at moved
      exact pollStep_covered atPc inv.covered moved
    | rebuild pc =>
      rw [atPc] at moved
      exact rebuildStep_covered atPc inv moved
    | dispatch pc =>
      rw [atPc] at moved
      exact dispatchStep_covered atPc inv.covered moved
  · exact caller_covered inv inTime frame stepped

/-- In every run whose insertions are in time no added task is lost to the rebuild. -/
theorem noTaskLost (now : Nat) (labels : List Label)
    (inTime : Along step InsertedInTime (schStartScheduler now) labels)
    (executed : run step (schStartScheduler now) labels = some s) : NoTaskLost s := by
  have start : FlagInv (schStartScheduler now) := by
    refine ⟨sound_start now, .inr ?_⟩
    intro node member
    cases member
  have inv : FlagInv s := by
    apply run_invariant _ start inTime executed
    intro s label t inv inTime stepped
    exact inv.step inTime stepped
  intro idle
  exact (covered_idle idle).mp inv.covered

/-- A job of 10:30 is added while the slot of its hour is still to be traversed. -/
theorem noTaskLost_inTime :
    ∃ s, run step (schStartScheduler 36100)
        (addCall (dailyTask 10 40 0) 10 ++ schedSteps 7 ++ addCall (dailyTask 10 30 0) 11 ++
          schedSteps 11) = some s ∧
      s.pc = .dispatch .changedTest ∧ NoTaskLost s := by
  obtain ⟨s, executed, atPc⟩ : ∃ s, run step (schStartScheduler 36100)
      (addCall (dailyTask 10 40 0) 10 ++ schedSteps 7 ++ addCall (dailyTask 10 30 0) 11 ++
        schedSteps 11) = some s ∧
      s.pc = .dispatch .changedTest := run_of_any (by decide +kernel)
  exact ⟨s, executed, atPc, noTaskLost 36100 _ (by decide +kernel) executed⟩

/-- It is added after the traversal and before the reset of the flag: nobody knows of it. -/
theorem taskLost :
    ∃ s, run step (schStartScheduler 36100)
        (addCall (dailyTask 10 40 0) 10 ++ schedSteps 10 ++ addCall (dailyTask 10 30 0) 11 ++
          schedSteps 7) = some s ∧
      s.pc = .dispatch .changedTest ∧ s.gbTaskChanged = false ∧
      s.nodes.map TaskNode.serial = [0, 1] ∧ s.seen = [0] ∧ ¬ NoTaskLost s :=
  run_of_any (by decide +kernel)

end Flag

end EveAgent.Scheduler
