import EveAgent.JobSched.Registry

namespace EveAgent.JobSched

open Scheduler Machine Chain

variable {zone : TimeZone} {s t : State} {table : Table} {event : Event}

section Agreement

/-- The node is in one of the lists of the master table. -/
def LiveTask (mem : Memory) (node : Nat) (task : StTask) : Prop :=
  ∃ (index : Nat) (slot : StMasterTable) (ids : List Nat) (link : Option Nat),
    mem.gSchMasterTable[index]? = some slot ∧ IsChain mem.next slot.pHeadMasterData ids ∧
      node ∈ ids ∧ mem.heap node = some ⟨task, link⟩

/-- A row has one entry at most, the task of an entry is in the table and belongs to the
row, and every job in the table has an entry. -/
structure Agrees (s : State) : Prop where
  single : (s.stListPtr.map StNode.iIndex).Nodup
  live : ∀ entry ∈ s.stListPtr, ∃ task job, LiveTask s.mem entry.lTaskId task ∧
    s.jobs task.vpArg = some job ∧ job.iIndex = entry.iIndex
  listed : ∀ node task, LiveTask s.mem node task → task.fp = jsPerformJobSchedAction →
    ∃ entry ∈ s.stListPtr, entry.lTaskId = node

/-- What `SCH_AddTask` needs to add the task. -/
def Accepts (pTime : Tm) (task : StTask) (newNode : Option Nat) : Prop :=
  validateTask pTime task = .nascSuccess ∧ slotIndex task ≠ none ∧ newNode ≠ none

instance (pTime : Tm) (task : StTask) (newNode : Option Nat) :
    Decidable (Accepts pTime task newNode) :=
  inferInstanceAs (Decidable (_ ∧ _))

/-- The task with which `JS_AddJobToSched` calls `SCH_AddTask`. -/
def addedTask (zone : TimeZone) (event : Event) : Option StTask :=
  match jsAddTask zone event with
  | some (some (_, task)) => some task
  | some none => none
  | none => none

/-- The task with which `JS_ModifyJobToSched` calls `SCH_ModifyTask`; whether there is memory
for the attributes does not depend on the record they are copied to. -/
def modifiedTask (zone : TimeZone) (s : State) (event : Event) : Option StTask :=
  match jsGetTaskID s.stListPtr event.job.iIndex with
  | none => none
  | some lTaskId =>
    match schGetTask s.mem lTaskId with
    | some (some task) =>
      match jsModifyTimes zone event task with
      | some (some (task, _)) =>
        if (jsModifyRecord event event.job).2 then
          some { task with fp := jsPerformJobSchedAction }
        else none
      | some none => none
      | none => none
    | some none => none
    | none => none

/-- A task is added for a row without an entry only, and a replacement is accepted. -/
def Kept (zone : TimeZone) (s : State) (event : Event) : Prop :=
  match event.iDecisionFlag with
  | .jsAdd => jsGetTaskID s.stListPtr event.job.iIndex = none ∨
      ∀ task ∈ addedTask zone event, ¬ Accepts event.pTime task event.newNode
  | .jsModify => ∀ task ∈ modifiedTask zone s event, Accepts event.pTime task event.newNode
  | .jsDelete => True

instance Kept.decidable (zone : TimeZone) (s : State) (event : Event) :
    Decidable (Kept zone s event) :=
  match flag : event.iDecisionFlag with
  | .jsAdd => decidable_of_iff (jsGetTaskID s.stListPtr event.job.iIndex = none ∨
      ∀ task ∈ addedTask zone event, ¬ Accepts event.pTime task event.newNode)
      (by simp only [Kept, flag])
  | .jsModify => decidable_of_iff
      (∀ task ∈ modifiedTask zone s event, Accepts event.pTime task event.newNode)
      (by simp only [Kept, flag])
  | .jsDelete => isTrue (by simp only [Kept, flag])

theorem add_cases (table : Table) (pTime : Tm) (task : StTask) (newNode : Option Nat) :
    (¬ Accepts pTime task newNode ∧ table.add pTime task newNode = (table, none)) ∨
      ∃ index node, Accepts pTime task newNode ∧ newNode = some node ∧
        table.add pTime task newNode = (table ++ [⟨node, index, task⟩], some node) := by
  unfold Table.add Accepts
  cases found : slotIndex task with
  | none => exact .inl ⟨by simp, by simp⟩
  | some index =>
    cases newNode with
    | none => exact .inl ⟨by simp, by simp⟩
    | some node =>
      by_cases valid : validateTask pTime task = .nascSuccess
      · exact .inr ⟨index, node, by simp [valid], rfl, by simp [valid]⟩
      · exact .inl ⟨by simp [valid], by simp [valid]⟩

end Agreement

section Invariant

structure Inv (s : State) (table : Table) : Prop where
  rep : Represents s.mem table
  single : (s.stListPtr.map StNode.iIndex).Nodup
  entries : ∀ entry ∈ s.stListPtr, ∃ task ∈ table, task.id = entry.lTaskId ∧
    ∃ job, s.jobs task.mTask.vpArg = some job ∧ job.iIndex = entry.iIndex
  listed : ∀ task ∈ table, ∃ entry ∈ s.stListPtr, entry.lTaskId = task.id

theorem liveTask_iff (rep : Represents s.mem table) {node : Nat} {task : StTask} :
    LiveTask s.mem node task ↔ ∃ entry ∈ table, entry.id = node ∧ entry.mTask = task := by
  constructor
  · rintro ⟨index, slot, ids, link, member, chain, inside, held⟩
    obtain rfl := chain.unique (rep.holds index slot member).chain
    obtain ⟨entry, present, same⟩ := mem_ids.mp (inSlot_ids_subset index inside)
    refine ⟨entry, present, same, ?_⟩
    obtain ⟨link', held'⟩ := rep.nodes entry present
    rw [same, held] at held'
    cases held'
    rfl
  · rintro ⟨entry, present, rfl, rfl⟩
    obtain ⟨slot, member⟩ := rep.slot (rep.range entry present)
    obtain ⟨link, held⟩ := rep.nodes entry present
    refine ⟨entry.slot, slot, _, link, member, (rep.holds entry.slot slot member).chain, ?_, held⟩
    exact mem_ids.mpr ⟨entry, mem_inSlot.mpr ⟨present, rfl⟩, rfl⟩

theorem Inv.agrees (inv : Inv s table) : Agrees s := by
  constructor
  · exact inv.single
  · intro entry member
    obtain ⟨task, present, same, job, found, row⟩ := inv.entries entry member
    exact ⟨task.mTask, job, (liveTask_iff inv.rep).mpr ⟨task, present, same, rfl⟩, found, row⟩
  · intro node task live _
    obtain ⟨entry, present, rfl, _⟩ := (liveTask_iff inv.rep).mp live
    exact inv.listed entry present

theorem inv_start : Inv start [] := by
  constructor
  · exact represents_init
  · exact List.nodup_nil
  · simp [start]
  · simp

theorem Inv.entry_unique (inv : Inv s table) {entry other : StNode} (member : entry ∈ s.stListPtr)
    (member' : other ∈ s.stListPtr) (same : entry.iIndex = other.iIndex) : entry = other :=
  List.inj_on_of_nodup_map inv.single member member' same

theorem Inv.owner (inv : Inv s table) {task : Entry} (present : task ∈ table) :
    ∃ entry ∈ s.stListPtr, entry.lTaskId = task.id ∧
      ∃ job, s.jobs task.mTask.vpArg = some job ∧ job.iIndex = entry.iIndex := by
  obtain ⟨entry, member, same⟩ := inv.listed task present
  obtain ⟨task', present', same', job, found, row⟩ := inv.entries entry member
  obtain rfl := Scheduler.entry_unique inv.rep.nodup present' present (same'.trans same)
  exact ⟨entry, member, same, job, found, row⟩

theorem Inv.records (inv : Inv s table) {task other : Entry} (present : task ∈ table)
    (present' : other ∈ table) (same : task.mTask.vpArg = other.mTask.vpArg) : task = other := by
  obtain ⟨entry, member, id, job, found, row⟩ := inv.owner present
  obtain ⟨entry', member', id', job', found', row'⟩ := inv.owner present'
  rw [same, found'] at found
  cases found
  obtain rfl := inv.entry_unique member member' (row.symm.trans row')
  exact Scheduler.entry_unique inv.rep.nodup present present' (id.symm.trans id')

theorem Inv.congr (inv : Inv s table) {jobs' : Nat → Option StJobMaster}
    (kept : ∀ task ∈ table, ∀ job, s.jobs task.mTask.vpArg = some job →
      ∃ job', jobs' task.mTask.vpArg = some job' ∧ job'.iIndex = job.iIndex) :
    Inv { s with jobs := jobs' } table := by
  constructor
  · exact inv.rep
  · exact inv.single
  · intro entry member
    obtain ⟨task, present, same, job, found, row⟩ := inv.entries entry member
    obtain ⟨job', found', row'⟩ := kept task present job found
    exact ⟨task, present, same, job', found', row'.trans row⟩
  · exact inv.listed

theorem Inv.unrelated (inv : Inv s table) {address : Nat}
    (apart : ∀ task ∈ table, task.mTask.vpArg ≠ address) (job : Option StJobMaster) :
    Inv { s with jobs := Function.update s.jobs address job } table := by
  apply inv.congr
  intro task present job' found
  exact ⟨job', by rw [Function.update_of_ne (apart task present), found], rfl⟩

theorem Inv.overwrite (inv : Inv s table) {address : Nat} {old new : StJobMaster}
    (found : s.jobs address = some old) (row : new.iIndex = old.iIndex) :
    Inv { s with jobs := Function.update s.jobs address (some new) } table := by
  apply inv.congr
  intro task present job held
  by_cases here : task.mTask.vpArg = address
  · rw [here, found] at held
    cases held
    exact ⟨new, by rw [here, Function.update_self], row⟩
  · exact ⟨job, by rw [Function.update_of_ne here, held], rfl⟩

theorem Inv.apart (inv : Inv s table) {address : Nat} (free : s.jobs address = none) :
    ∀ task ∈ table, task.mTask.vpArg ≠ address := by
  intro task present same
  obtain ⟨_, _, _, job, found, _⟩ := inv.owner present
  rw [same, free] at found
  cases found

theorem getTaskID_some {stListPtr : List StNode} {iIndex : Int16} {lTaskId : Nat}
    (found : jsGetTaskID stListPtr iIndex = some lTaskId) : ⟨iIndex, lTaskId⟩ ∈ stListPtr := by
  obtain ⟨entry, first, rfl⟩ := Option.map_eq_some_iff.mp found
  have row := List.find?_some (p := fun entry : StNode => entry.iIndex == iIndex) first
  obtain rfl := eq_of_beq row
  exact List.mem_of_find?_eq_some first

theorem getTaskID_none {stListPtr : List StNode} {iIndex : Int16}
    (missing : jsGetTaskID stListPtr iIndex = none) : iIndex ∉ stListPtr.map StNode.iIndex := by
  intro member
  obtain ⟨entry, present, rfl⟩ := List.mem_map.mp member
  rw [jsGetTaskID, Option.map_eq_none_iff, List.find?_eq_none] at missing
  simpa using missing entry present

theorem Inv.insert (inv : Inv s table) {mem : Memory} {node index : Nat} {iIndex : Int16}
    {task : StTask} {job : StJobMaster}
    (rep : Represents mem (table ++ [⟨node, index, task⟩]))
    (missing : iIndex ∉ s.stListPtr.map StNode.iIndex)
    (found : s.jobs task.vpArg = some job) (row : job.iIndex = iIndex) :
    Inv { mem := mem
          jobs := s.jobs
          stListPtr := jsAddNodeInJobList s.stListPtr node iIndex }
      (table ++ [⟨node, index, task⟩]) := by
  constructor
  · exact rep
  · exact List.nodup_cons.mpr ⟨missing, inv.single⟩
  · intro entry member
    rcases List.mem_cons.mp member with rfl | member
    · exact ⟨⟨node, index, task⟩, by simp, rfl, job, found, row⟩
    · obtain ⟨task', present, rest⟩ := inv.entries entry member
      exact ⟨task', List.mem_append_left _ present, rest⟩
  · intro task' present
    rcases List.mem_append.mp present with present | new
    · obtain ⟨entry, member, same⟩ := inv.listed task' present
      exact ⟨entry, List.mem_cons_of_mem _ member, same⟩
    · obtain rfl := List.mem_singleton.mp new
      exact ⟨⟨iIndex, node⟩, List.mem_cons_self, rfl⟩

theorem Inv.remove (inv : Inv s table) {mem : Memory} {lTaskId : Nat} {iIndex : Int16}
    (rep : Represents mem (table.without lTaskId)) (member : ⟨iIndex, lTaskId⟩ ∈ s.stListPtr) :
    Inv { mem := mem
          jobs := s.jobs
          stListPtr := s.stListPtr.erase ⟨iIndex, lTaskId⟩ } (table.without lTaskId) ∧
      iIndex ∉ (s.stListPtr.erase ⟨iIndex, lTaskId⟩).map StNode.iIndex := by
  have nodup := inv.single.of_map
  have others : ∀ entry, entry ∈ s.stListPtr.erase ⟨iIndex, lTaskId⟩ ↔
      entry ≠ ⟨iIndex, lTaskId⟩ ∧ entry ∈ s.stListPtr := fun entry => nodup.mem_erase_iff
  constructor
  · constructor
    · exact rep
    · exact (inv.single.sublist ((List.erase_sublist).map StNode.iIndex))
    · intro entry inside
      obtain ⟨different, old⟩ := (others entry).mp inside
      obtain ⟨task, present, same, job, found, row⟩ := inv.entries entry old
      refine ⟨task, ?_, same, job, found, row⟩
      rw [List.mem_filter, bne_iff_ne]
      refine ⟨present, ?_⟩
      rintro rfl
      -- the task of the removed entry has one record, and so one row
      obtain ⟨task', present', same', job', found', row'⟩ := inv.entries _ member
      obtain rfl := Scheduler.entry_unique inv.rep.nodup present' present same'
      rw [found'] at found
      cases found
      exact different (inv.entry_unique old member (row.symm.trans row'))
    · intro task present
      obtain ⟨present, different⟩ := List.mem_filter.mp present
      obtain ⟨entry, inside, same⟩ := inv.listed task present
      refine ⟨entry, (others entry).mpr ⟨?_, inside⟩, same⟩
      rintro rfl
      rw [bne_iff_ne] at different
      exact different same.symm
  · intro again
    obtain ⟨entry, inside, row⟩ := List.mem_map.mp again
    obtain ⟨different, old⟩ := (others entry).mp inside
    exact different (inv.entry_unique old member row)

end Invariant

section Steps

theorem addTask_record {job : StJobMaster} {task : StTask}
    (computed : jsAddTask zone event = some (some (job, task))) :
    job.iIndex = event.job.iIndex ∧ task.vpArg = event.pstJSStruct := by
  unfold jsAddTask at computed
  dsimp only at computed
  split at computed
  · cases computed
  split at computed
  · cases computed
  split at computed
  · cases computed
  split at computed
  · cases computed
    exact ⟨rfl, rfl⟩
  split at computed
  · cases computed
  split at computed
  · cases computed
  split at computed
  · cases computed
  split at computed
  · cases computed
  · cases computed
    exact ⟨rfl, rfl⟩

theorem modifyTimes_vpArg {task task' : StTask} {uiEndTimeinNum : UInt32}
    (computed : jsModifyTimes zone event task = some (some (task', uiEndTimeinNum))) :
    task'.vpArg = task.vpArg := by
  have interval : ∀ day (task : StTask),
      (updateInterval event.job.iJobMasInterval day task).vpArg = task.vpArg := by
    intro day task
    unfold updateInterval
    split_ifs <;> rfl
  unfold jsModifyTimes at computed
  dsimp only at computed
  split at computed
  · cases computed
  · cases computed
  rename_i started day first
  have kept : started.vpArg = task.vpArg := by
    split at first
    · cases first
      rfl
    · split at first
      · cases first
      · split at first
        · cases first
        · cases first
          rfl
  split at computed
  · cases computed
    exact kept
  split at computed
  · cases computed
  split at computed
  · cases computed
  split at computed
  · cases computed
    exact kept
  · cases computed
    rw [interval]
    exact kept

theorem modifyRecord_row (pstJSMod : StJobMaster) :
    (jsModifyRecord event pstJSMod).1.iIndex = pstJSMod.iIndex := by
  unfold jsModifyRecord
  dsimp only
  split_ifs <;> rfl

theorem modifyRecord_copied (first second : StJobMaster) :
    (jsModifyRecord event first).2 = (jsModifyRecord event second).2 := by
  have flags : ∀ allocated given (old other : Option Octets),
      (copyAttribute allocated given old).2 = (copyAttribute allocated given other).2 := by
    intro allocated given old other
    cases given with
    | none => rfl
    | some octets => simp only [copyAttribute]
  unfold jsModifyRecord
  dsimp only
  rw [flags _ _ first.pcJobMasId second.pcJobMasId,
    flags _ _ first.pcJobMasName second.pcJobMasName,
    flags _ _ first.pcJobMasStartTime second.pcJobMasStartTime,
    flags _ _ first.pcJobMasFinishTime second.pcJobMasFinishTime]
  split_ifs <;> rfl

theorem Inv.add (inv : Inv s table)
    (unused : ∀ task ∈ table, task.mTask.vpArg ≠ event.pstJSStruct)
    (missing : jsGetTaskID s.stListPtr event.job.iIndex = none ∨
      ∀ task ∈ addedTask zone event, ¬ Accepts event.pTime task event.newNode)
    (free : ∀ node, event.newNode = some node → s.mem.heap node = none)
    (stepped : jsAddJobToSched zone s event = some t) : ∃ table', Inv t table' := by
  unfold jsAddJobToSched at stepped
  split at stepped
  · cases stepped
  · cases stepped
    exact ⟨table, inv⟩
  rename_i job task computed
  obtain ⟨row, argument⟩ := addTask_record computed
  have written := inv.unrelated unused (some job)
  dsimp only at stepped
  split at stepped
  · cases stepped
  · rename_i mem added
    obtain ⟨rejected, rep⟩ := schAddTask_some inv.rep free added
    cases stepped
    rcases add_cases table event.pTime task event.newNode with ⟨_, same⟩ |
      ⟨index, node, _, _, same⟩
    · rw [same] at rep
      exact ⟨table, rep, written.single, written.entries, written.listed⟩
    · rw [same] at rejected
      cases rejected
  · rename_i mem lTaskId added
    obtain ⟨accepted, rep⟩ := schAddTask_some inv.rep free added
    split at stepped
    · cases stepped
      rcases add_cases table event.pTime task event.newNode with ⟨_, same⟩ |
        ⟨index, node, accepts, _, same⟩
      · rw [same] at accepted
        cases accepted
      · rw [same] at accepted rep
        cases accepted
        have absent : jsGetTaskID s.stListPtr event.job.iIndex = none := by
          rcases missing with absent | rejected
          · exact absent
          · exact absurd accepts (rejected task (by simp [addedTask, computed]))
        refine ⟨_, written.insert rep ?_ (?_ : _ = some job) rfl⟩
        · rw [row]
          exact getTaskID_none absent
        · simp only [argument, Function.update_self]
    · cases stepped

theorem Inv.get (inv : Inv s table) {lTaskId : Nat} {iIndex : Int16}
    (member : ⟨iIndex, lTaskId⟩ ∈ s.stListPtr) :
    ∃ entry ∈ table, entry.id = lTaskId ∧
      schGetTask s.mem lTaskId = some (some entry.mTask) ∧
      ∃ job, s.jobs entry.mTask.vpArg = some job ∧ job.iIndex = iIndex := by
  obtain ⟨entry, present, same, job, found, row⟩ := inv.entries _ member
  obtain ⟨first, present', same', hit⟩ := find_some (mem_ids.mpr ⟨entry, present, same⟩)
  obtain rfl := Scheduler.entry_unique inv.rep.nodup present' present (same'.trans same.symm)
  refine ⟨first, present, same', ?_, job, found, row⟩
  rw [schGetTask_represents inv.rep, Table.get, hit, Option.map_some]

theorem Inv.modify (inv : Inv s table)
    (unused : ∀ task ∈ table, task.mTask.vpArg ≠ event.pstJSStruct)
    (accepts : ∀ task ∈ modifiedTask zone s event, Accepts event.pTime task event.newNode)
    (free : ∀ node, event.newNode = some node → s.mem.heap node = none ∨
      jsGetTaskID s.stListPtr event.job.iIndex = some node)
    (stepped : jsModifyJobToSched zone s event = some t) : ∃ table', Inv t table' := by
  rw [jsModifyJobToSched, Option.map_eq_some_iff] at stepped
  obtain ⟨⟨t, status⟩, stepped, rfl⟩ := stepped
  unfold jsModifyJob at stepped
  unfold modifiedTask at accepts
  split at stepped
  · cases stepped
    exact ⟨table, inv.unrelated unused none⟩
  rename_i lTaskId listed
  have member := getTaskID_some listed
  obtain ⟨entry, present, same, got, old, found, row⟩ := inv.get member
  simp only [listed, got] at stepped accepts
  split at stepped
  · cases stepped
  split at stepped
  · cases stepped
  · cases stepped
    exact ⟨table, inv⟩
  rename_i task uiEndTimeinNum times
  have argument := modifyTimes_vpArg times
  have modified : (jsModifyRecord event old).1.iIndex = old.iIndex := modifyRecord_row old
  simp only [times, argument, found] at stepped accepts
  split at stepped
  · cases stepped
    exact ⟨table, inv.overwrite found modified⟩
  rename_i copied
  rw [Bool.not_eq_false] at copied
  rw [modifyRecord_copied event.job old, if_pos copied] at accepts
  have accepted := accepts _ rfl
  set record := { (jsModifyRecord event old).1 with uiEndTimeinNum := uiEndTimeinNum }
  have written :
      Inv { s with jobs := Function.update s.jobs entry.mTask.vpArg (some record) } table :=
    inv.overwrite found modified
  have inTable : lTaskId ∈ table.ids := mem_ids.mpr ⟨entry, present, same⟩
  have malloc : ∀ node, event.newNode = some node → s.mem.heap node = none ∨ node = lTaskId := by
    intro node new
    rcases free node new with unused | again
    · exact .inl unused
    · rw [listed] at again
      cases again
      exact .inr rfl
  split at stepped
  · cases stepped
  · rename_i mem replaced
    obtain ⟨rejected, _⟩ := schModifyTask_some inv.rep inTable malloc replaced
    rcases add_cases (table.without lTaskId) event.pTime _ event.newNode with ⟨refused, _⟩ |
      ⟨_, _, _, _, same⟩
    · exact absurd accepted refused
    · rw [same] at rejected
      cases rejected
  · rename_i mem newTaskID replaced
    obtain ⟨result, rep⟩ := schModifyTask_some inv.rep inTable malloc replaced
    rcases add_cases (table.without lTaskId) event.pTime _ event.newNode with ⟨refused, _⟩ |
      ⟨index, node, _, _, same⟩
    · exact absurd accepted refused
    rw [same] at result rep
    cases result
    obtain ⟨middle, _, rep', _⟩ := schDeleteTask_represents inv.rep lTaskId
    obtain ⟨_, _, _, hit⟩ := find_some inTable
    simp only [Table.delete, hit] at rep'
    obtain ⟨removed, absent⟩ := written.remove rep' member
    have replacing := removed.insert rep absent
      (show _ = some record by simp only [Function.update_self]) (modified.trans row)
    rw [jsDeleteNodeFromList, decide_eq_true member] at stepped
    split at stepped
    · rename_i unlisted
      cases unlisted
    rename_i stListPtr unlisted
    cases unlisted
    split at stepped
    · cases stepped
      refine ⟨_, replacing.unrelated ?_ none⟩
      intro task' present'
      rcases List.mem_append.mp present' with old' | new'
      · exact unused task' (List.mem_filter.mp old').1
      · obtain rfl := List.mem_singleton.mp new'
        exact unused entry present
    · cases stepped

theorem Inv.delete (inv : Inv s table)
    (unused : ∀ task ∈ table, task.mTask.vpArg ≠ event.pstJSStruct)
    (stepped : jsDeleteFromSched s event = some t) : ∃ table', Inv t table' := by
  unfold jsDeleteFromSched at stepped
  split at stepped
  · cases stepped
    exact ⟨table, inv.unrelated unused none⟩
  rename_i lDelTaskId listed
  have member := getTaskID_some listed
  obtain ⟨entry, present, same, got, old, found, row⟩ := inv.get member
  simp only [got] at stepped
  split at stepped
  · cases stepped
  obtain ⟨mem, deleted, rep, _⟩ := schDeleteTask_represents inv.rep lDelTaskId
  obtain ⟨_, _, _, hit⟩ := find_some (mem_ids.mpr ⟨entry, present, same⟩)
  simp only [Table.delete, hit] at deleted rep
  simp only [deleted] at stepped
  obtain ⟨removed, _⟩ := inv.remove rep member
  have others : ∀ task ∈ table.without lDelTaskId, task.mTask.vpArg ≠ entry.mTask.vpArg := by
    intro task present' shared
    obtain ⟨old', different⟩ := List.mem_filter.mp present'
    obtain rfl := inv.records old' present shared
    rw [bne_iff_ne] at different
    exact different same
  have apart : ∀ task ∈ table.without lDelTaskId, task.mTask.vpArg ≠ event.pstJSStruct :=
    fun task present' => unused task (List.mem_filter.mp present').1
  rw [jsDeleteNodeFromList, decide_eq_true member] at stepped
  split at stepped
  · cases stepped
  rename_i jobs freed
  have kept : Inv { mem := mem
                    jobs := jobs
                    stListPtr := s.stListPtr.erase ⟨event.job.iIndex, lDelTaskId⟩ }
      (table.without lDelTaskId) := by
    unfold freeArgument at freed
    split at freed
    · cases freed
      exact removed
    split at freed
    · cases freed
    · cases freed
      exact removed.unrelated others none
  split at stepped
  · rename_i unlisted
    cases unlisted
  rename_i stListPtr unlisted
  cases unlisted
  cases stepped
  exact ⟨_, kept.unrelated apart none⟩

theorem Inv.step (inv : Inv s table) (kept : Kept zone s event)
    (stepped : jsUpdateJobToScheduler zone s event = some t) : ∃ table', Inv t table' := by
  unfold jsUpdateJobToScheduler at stepped
  split at stepped
  · rename_i malloc
    obtain ⟨_, fresh, free⟩ := malloc
    have unused := inv.apart fresh
    have allocated := inv.unrelated unused (some event.job)
    have others : event.iDecisionFlag ≠ .jsModify → ∀ node, event.newNode = some node →
        s.mem.heap node = none := by
      intro flag node new
      rcases free node new with unused | again
      · exact unused
      · exact absurd again.1 flag
    cases flag : event.iDecisionFlag with
    | jsAdd =>
      simp only [Kept, flag] at kept
      simp only [flag] at stepped
      exact allocated.add unused kept (others (by simp [flag])) stepped
    | jsModify =>
      simp only [Kept, flag] at kept
      simp only [flag] at stepped
      refine allocated.modify unused kept ?_ stepped
      intro node new
      rcases free node new with unused | again
      · exact .inl unused
      · exact .inr again.2
    | jsDelete =>
      simp only [flag] at stepped
      exact allocated.delete unused stepped
  · cases stepped

end Steps

section Runs

/-- In every such run the registry and the scheduler agree. -/
theorem registry_agrees (zone : TimeZone) (events : List Event)
    (kept : Along (jsUpdateJobToScheduler zone) (Kept zone) start events)
    (executed : run (jsUpdateJobToScheduler zone) start events = some s) : Agrees s := by
  have inv : ∃ table, Inv s table := by
    apply run_invariant _ ⟨[], inv_start⟩ kept executed
    rintro s event t ⟨table, inv⟩ kept stepped
    exact inv.step kept stepped
  obtain ⟨table, inv⟩ := inv
  exact inv.agrees

/-- A time zone without a calendar: the fields are taken as they are. -/
def plainZone : TimeZone :=
  { mktime := fun tm => (tm, 1)
    ctimeDay := fun _ => "Sun" }

/-- A job of every day, with the start and the finish time in one. -/
def dailyJob (iJobMasIndex : UInt16) (time : Octets) : StJobMaster :=
  { iJobMasIndex := iJobMasIndex
    pcJobMasId := some [77]
    pcJobMasName := none
    iJobMasInterval := 1
    pcJobMasStartTime := some time
    pcJobMasFinishTime := some time
    uiEndTimeinNum := 0 }

def jobEvent (iDecisionFlag : Decision) (pstJSStruct : Nat) (job : StJobMaster)
    (newNode : Option Nat) : Event :=
  { iDecisionFlag := iDecisionFlag
    pstJSStruct := pstJSStruct
    job := job
    task := dailyTask 0 0 0
    iDayCount := .schAllDays
    pTime := localtime 0
    pstModTask := true
    attributes := fun _ => true
    newNode := newNode
    listNode := true }

/-- Two rows; the first one is replaced, at the same address, and the second one deleted. -/
def replacing : List Event :=
  [jobEvent .jsAdd 1 (dailyJob 1 [7, 212, 1, 1, 9, 30, 1]) (some 10),
    jobEvent .jsAdd 2 (dailyJob 2 [7, 212, 1, 1, 9, 45, 1]) (some 11),
    jobEvent .jsModify 3 (dailyJob 1 [7, 212, 1, 1, 10, 30, 1]) (some 10),
    jobEvent .jsDelete 4 (dailyJob 2 []) none]

theorem registry_agrees_replacing :
    ∃ s, run (jsUpdateJobToScheduler plainZone) start replacing = some s ∧ Agrees s ∧
      s.stListPtr = [⟨1, 10⟩] := by
  obtain ⟨s, executed, listed⟩ := run_of_any
    (P := fun s : State => s.stListPtr = [⟨1, 10⟩])
    (show (run (jsUpdateJobToScheduler plainZone) start replacing).any _ = true by
      decide +kernel)
  exact ⟨s, executed, registry_agrees plainZone replacing (by decide +kernel) executed, listed⟩

def adding : List Event :=
  [jobEvent .jsAdd 1 (dailyJob 1 [7, 212, 1, 1, 9, 30, 1]) (some 10),
    jobEvent .jsAdd 2 (dailyJob 1 [7, 212, 1, 1, 9, 45, 1]) (some 11)]

theorem registry_addedTwice :
    ∃ s, run (jsUpdateJobToScheduler plainZone) start adding = some s ∧ ¬ Agrees s := by
  obtain ⟨s, executed, twice⟩ := run_of_any
    (P := fun s : State => ¬ (s.stListPtr.map StNode.iIndex).Nodup)
    (show (run (jsUpdateJobToScheduler plainZone) start adding).any _ = true by decide +kernel)
  refine ⟨s, executed, ?_⟩
  intro agrees
  exact twice agrees.single

end Runs

end EveAgent.JobSched
