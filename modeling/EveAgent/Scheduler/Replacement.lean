import EveAgent.Scheduler.Representation

namespace EveAgent.Scheduler

open Chain Machine

section Reached

/-- `malloc` hands out a node that is not in use, also the one that was just freed. -/
def MallocOk : Memory × List TableReturn → TableCall → Prop
  | (mem, _), .schAddTask _ _ newNode => ∀ node, newNode = some node → mem.heap node = none
  | (mem, _), .schModifyTask lTaskId _ _ newNode =>
    ∀ node, newNode = some node → mem.heap node = none ∨
      node = lTaskId ∧ schGetTask mem lTaskId ≠ some none
  | _, _ => True

instance MallocOk.decidable : ∀ s call, Decidable (MallocOk s call)
  | (mem, _), .schAddTask _ _ newNode =>
    inferInstanceAs (Decidable (∀ node ∈ newNode, mem.heap node = none))
  | (mem, _), .schModifyTask lTaskId _ _ newNode =>
    inferInstanceAs (Decidable (∀ node ∈ newNode, mem.heap node = none ∨
      node = lTaskId ∧ schGetTask mem lTaskId ≠ some none))
  | _, .schDeleteTask _ => isTrue trivial
  | _, .schGetTask _ => isTrue trivial
  | _, .clearMasterTable => isTrue trivial

variable {mem mem' : Memory} {table other : Table} {returns returns' : List TableReturn}
  {lTaskId : Nat}

theorem get_none_iff : table.get lTaskId = none ↔ lTaskId ∉ table.ids := by
  constructor
  · intro missing present
    obtain ⟨entry, _, _, found⟩ := find_some present
    rw [Table.get, found] at missing
    cases missing
  · intro absent
    rw [Table.get, find_none absent]
    rfl

theorem Represents.same_slot (first : Represents mem table) (second : Represents mem other)
    (index : Nat) (inside : index < masterArrSize) :
    (table.inSlot index).ids = (other.inSlot index).ids := by
  obtain ⟨slot, member⟩ := first.slot inside
  exact (first.holds index slot member).chain.unique (second.holds index slot member).chain

theorem Represents.same_ids (first : Represents mem table) (second : Represents mem other) :
    lTaskId ∈ table.ids → lTaskId ∈ other.ids := by
  intro present
  obtain ⟨entry, inside, same⟩ := mem_ids.mp present
  have here : lTaskId ∈ (table.inSlot entry.slot).ids :=
    mem_ids.mpr ⟨entry, mem_inSlot.mpr ⟨inside, rfl⟩, same⟩
  rw [first.same_slot second entry.slot (first.range entry inside)] at here
  exact inSlot_ids_subset entry.slot here

theorem memoryStep_table (rep : Represents mem table) (call : TableCall)
    (ok : MallocOk (mem, returns) call)
    (stepped : memoryStep (mem, returns) call = some (mem', returns')) :
    ∃ after, Represents mem' after := by
  cases call with
  | schAddTask pTime task newNode =>
    simp only [memoryStep, Option.map_eq_some_iff, Prod.mk.injEq] at stepped
    obtain ⟨result, added, same, _⟩ := stepped
    rw [← same]
    exact ⟨_, (schAddTask_some rep ok added).2⟩
  | schDeleteTask lTaskId =>
    obtain ⟨mem'', deleted, rep', _⟩ := schDeleteTask_represents rep lTaskId
    simp only [memoryStep, deleted, Option.map_some, Option.some.injEq, Prod.mk.injEq] at stepped
    rw [← stepped.1]
    exact ⟨_, rep'⟩
  | schModifyTask lTaskId pTime task newNode =>
    simp only [memoryStep, Option.map_eq_some_iff, Prod.mk.injEq] at stepped
    obtain ⟨result, modified, same, _⟩ := stepped
    rw [← same]
    by_cases present : lTaskId ∈ table.ids
    · have free : ∀ node, newNode = some node → mem.heap node = none ∨ node = lTaskId := by
        intro node new
        exact (ok node new).imp id And.left
      exact ⟨_, (schModifyTask_some rep present free modified).2⟩
    · obtain ⟨mem'', deleted, rep', _⟩ := schDeleteTask_represents rep lTaskId
      simp only [schModifyTask, deleted, Table.delete, find_none present,
        Option.some.injEq] at modified rep'
      rw [← modified]
      exact ⟨_, rep'⟩
  | schGetTask lTaskId =>
    simp only [memoryStep, Option.map_eq_some_iff, Prod.mk.injEq] at stepped
    obtain ⟨copy, _, same, _⟩ := stepped
    rw [← same]
    exact ⟨table, rep⟩
  | clearMasterTable =>
    obtain ⟨mem'', cleared, rep'⟩ := clearMasterTable_represents rep
    simp only [memoryStep, cleared, Option.map_some, Option.some.injEq, Prod.mk.injEq] at stepped
    rw [← stepped.1]
    exact ⟨[], rep'⟩

theorem reached_table (calls : List TableCall)
    (ok : Along memoryStep MallocOk (initMasterTable, []) calls)
    (reached : run memoryStep (initMasterTable, []) calls = some (mem, returns)) :
    ∃ table, Represents mem table := by
  have kept : ∀ s call t, (∃ table, Represents (Prod.fst s) table) → MallocOk s call →
      memoryStep s call = some t → ∃ table, Represents (Prod.fst t) table := by
    intro s call t before allowed stepped
    obtain ⟨table, rep⟩ := before
    exact memoryStep_table rep call allowed stepped
  exact run_invariant kept ⟨[], represents_init⟩ ok reached

end Reached

section Atomic

/-- A call that returns -1 leaves the table as it was, and one that returns an id replaces the old
task by the new one. -/
def ModifyAtomic (mem : Memory) (lTaskId : Nat) (pTime : Tm) (task : StTask)
    (newNode : Option Nat) : Prop :=
  ∃ table mem' id, Represents mem table ∧
    schModifyTask mem lTaskId pTime task newNode = some (mem', id) ∧
    match id with
    | none => Represents mem' table
    | some new => lTaskId ∈ table.ids ∧ ∃ index, slotIndex task = some index ∧
        Represents mem' (table.without lTaskId ++ [⟨new, index, task⟩])

variable {mem : Memory} {table : Table} {lTaskId : Nat} {pTime : Tm} {task : StTask}
  {newNode : Option Nat}

/-- `SCH_AddTask` will find nothing wrong with the task. -/
def Addable (pTime : Tm) (task : StTask) (newNode : Option Nat) : Prop :=
  validateTask pTime task = .nascSuccess ∧
    (∃ index, slotIndex task = some index ∧ index < masterArrSize) ∧ newNode ≠ none

theorem modify_absent (rep : Represents mem table) (absent : lTaskId ∉ table.ids) :
    ModifyAtomic mem lTaskId pTime task newNode := by
  obtain ⟨mem', deleted, rep', _⟩ := schDeleteTask_represents rep lTaskId
  simp only [Table.delete, find_none absent] at deleted rep'
  refine ⟨table, mem', none, rep, ?_, rep'⟩
  rw [schModifyTask, deleted]

theorem modify_present (rep : Represents mem table) (present : lTaskId ∈ table.ids)
    (free : ∀ node, newNode = some node → mem.heap node = none ∨ node = lTaskId)
    (addable : Addable pTime task newNode) : ModifyAtomic mem lTaskId pTime task newNode := by
  obtain ⟨valid, ⟨index, found, inside⟩, allocated⟩ := addable
  obtain ⟨new, same⟩ := Option.ne_none_iff_exists'.mp allocated
  obtain ⟨middle, deleted, rep', freed⟩ := schDeleteTask_represents rep lTaskId
  obtain ⟨entry, _, _, known⟩ := find_some present
  simp only [Table.delete, known] at deleted rep'
  have slots : ∀ other, slotIndex task = some other → other < masterArrSize := by
    intro other also
    rw [found] at also
    rw [← Option.some.inj also]
    exact inside
  have unused : ∀ node, newNode = some node → middle.heap node = none := by
    intro node allocated
    rcases free node allocated with never | old
    · exact freed node (Or.inl never)
    · exact freed node (Or.inr ⟨present, old⟩)
  obtain ⟨mem', added, after⟩ := schAddTask_inside rep' pTime task newNode slots unused
  simp only [Table.add, found, same, if_pos valid] at added after
  refine ⟨table, mem', some new, rep, ?_, present, index, found, after⟩
  rw [schModifyTask, deleted, same]
  exact added

theorem addable_of_atomic (rep : Represents mem table) (present : lTaskId ∈ table.ids)
    (free : ∀ node, newNode = some node → mem.heap node = none ∨ node = lTaskId)
    (atomic : ModifyAtomic mem lTaskId pTime task newNode) : Addable pTime task newNode := by
  obtain ⟨before, mem', id, same, modified, kept⟩ := atomic
  obtain ⟨result, after⟩ := schModifyTask_some rep present free modified
  have gone : lTaskId ∉ (table.without lTaskId).ids := by
    intro still
    obtain ⟨entry, inside, equal⟩ := mem_ids.mp still
    rw [List.mem_filter, bne_iff_ne] at inside
    exact inside.2 equal
  have lost : id = none → ¬Represents mem' (table.without lTaskId) := by
    intro failed without
    rw [failed] at kept
    exact gone (kept.same_ids without (rep.same_ids same present))
  unfold Table.add at result after
  cases found : slotIndex task with
  | none =>
    rw [found] at result after
    exact absurd after (lost result)
  | some index =>
    cases newNode with
    | none =>
      rw [found] at result after
      exact absurd after (lost result)
    | some node =>
      rw [found] at result after
      simp only at result after
      by_cases valid : validateTask pTime task = .nascSuccess
      · rw [if_pos valid] at after
        have inside := after.range ⟨node, index, task⟩
          (List.mem_append_right _ (List.mem_singleton_self _))
        exact ⟨valid, ⟨index, found, inside⟩, Option.some_ne_none node⟩
      · rw [if_neg valid] at result after
        exact absurd after (lost result)

/-- In every table that calls reach, `SCH_ModifyTask` is atomic exactly if there is no task of the
id or the new task can be added. -/
theorem modify_atomic_iff (calls : List TableCall) {returns : List TableReturn}
    (ok : Along memoryStep MallocOk (initMasterTable, []) calls)
    (reached : run memoryStep (initMasterTable, []) calls = some (mem, returns))
    (free : MallocOk (mem, returns) (.schModifyTask lTaskId pTime task newNode)) :
    ModifyAtomic mem lTaskId pTime task newNode ↔
      schGetTask mem lTaskId = some none ∨ Addable pTime task newNode := by
  obtain ⟨table, rep⟩ := reached_table calls ok reached
  have unused : ∀ node, newNode = some node → mem.heap node = none ∨ node = lTaskId := by
    intro node new
    exact (free node new).imp id And.left
  have got : schGetTask mem lTaskId = some none ↔ lTaskId ∉ table.ids := by
    rw [schGetTask_represents rep, Option.some.injEq, get_none_iff]
  rw [got]
  by_cases present : lTaskId ∈ table.ids
  · constructor
    · exact fun atomic => Or.inr (addable_of_atomic rep present unused atomic)
    · intro condition
      rcases condition with absent | addable
      · exact absurd present absent
      · exact modify_present rep present unused addable
  · exact iff_of_true (modify_absent rep present) (Or.inl present)

def twoDailyCalls : List TableCall :=
  [.schAddTask (localtime 0) (dailyTask 9 0 0) (some 10),
    .schAddTask (localtime 0) (dailyTask 9 1 0) (some 11)]

/-- The last job of two is replaced in the node it had. -/
theorem modify_atomic_replaced :
    ∃ mem returns, run memoryStep (initMasterTable, []) twoDailyCalls = some (mem, returns) ∧
      (ModifyAtomic mem 11 (localtime 0) (dailyTask 9 2 0) (some 11) ↔
        schGetTask mem 11 = some none ∨ Addable (localtime 0) (dailyTask 9 2 0) (some 11)) := by
  have allowed : Along memoryStep CallOk (initMasterTable, []) twoDailyCalls := by decide
  obtain ⟨mem, executed, rep⟩ := memoryRun_represents represents_init twoDailyCalls allowed
  have free : MallocOk (mem, (twoDailyCalls.foldl tableStep ([], [])).2)
      (.schModifyTask 11 (localtime 0) (dailyTask 9 2 0) (some 11)) := by
    intro node new
    apply Or.inr
    constructor
    · exact (Option.some.inj new).symm
    · rw [schGetTask_represents rep]
      decide
  exact ⟨mem, _, executed, modify_atomic_iff twoDailyCalls (by decide) executed free⟩

/-- A job is replaced by one for a day that is over, and it is gone. -/
theorem modify_loses :
    ∃ s, run memoryStep (initMasterTable, [])
        [.schAddTask (localtime 86400) (dailyTask 9 0 0) (some 10)] = some s ∧
      schGetTask s.1 10 = some (some (dailyTask 9 0 0)) ∧
      ((schModifyTask s.1 10 (localtime 86400) (oneShotTask ⟨1, 0, 1970⟩ 9 0 0) (some 10)).map
        fun after => (schGetTask after.1 10, after.2)) = some (some none, none) ∧
      ¬ModifyAtomic s.1 10 (localtime 86400) (oneShotTask ⟨1, 0, 1970⟩ 9 0 0) (some 10) := by
  have executed : ∃ s, run memoryStep (initMasterTable, [])
      [.schAddTask (localtime 86400) (dailyTask 9 0 0) (some 10)] = some s ∧
      schGetTask s.1 10 = some (some (dailyTask 9 0 0)) ∧
      ((schModifyTask s.1 10 (localtime 86400) (oneShotTask ⟨1, 0, 1970⟩ 9 0 0) (some 10)).map
        fun after => (schGetTask after.1 10, after.2)) = some (some none, none) :=
    run_of_any (by decide +kernel)
  obtain ⟨s, reached, before, after⟩ := executed
  refine ⟨s, reached, before, after, ?_⟩
  intro atomic
  obtain ⟨table, rep⟩ := reached_table _ (by decide) reached
  have present : 10 ∈ table.ids := by
    by_contra absent
    rw [schGetTask_represents rep, get_none_iff.mpr absent] at before
    cases before
  have addable := addable_of_atomic rep present
    (fun node new => Or.inr (Option.some.inj new).symm) atomic
  exact absurd addable.1 (by decide)

end Atomic

end EveAgent.Scheduler
