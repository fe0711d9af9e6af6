import EveAgent.Scheduler.MasterTable

namespace EveAgent.Scheduler

open Chain Machine

/-- The head, tail and size of a slot that holds these nodes. -/
structure SlotHolds (next : Nat → Option (Option Nat)) (slot : StMasterTable) (ids : List Nat) :
    Prop where
  chain : IsChain next slot.pHeadMasterData ids
  tail : slot.pTailMasterData = ids.getLast?
  size : slot.nSize = ids.length

/-- The lists in memory are those of the table. -/
structure Represents (mem : Memory) (table : Table) : Prop where
  slots : mem.gSchMasterTable.length = masterArrSize
  holds : ∀ (index : Nat) (slot : StMasterTable), mem.gSchMasterTable[index]? = some slot →
    SlotHolds mem.next slot (table.inSlot index).ids
  nodes : ∀ entry ∈ table, ∃ link, mem.heap entry.id = some ⟨entry.mTask, link⟩
  range : ∀ entry ∈ table, entry.slot < masterArrSize
  nodup : table.ids.Nodup
  bound : table.length ≤ mem.allocated

section TableFacts

variable {table : Table} {index node : Nat}

theorem mem_inSlot {entry : Entry} :
    entry ∈ table.inSlot index ↔ entry ∈ table ∧ entry.slot = index := by
  rw [Table.inSlot, List.mem_filter, beq_iff_eq]

theorem mem_ids : node ∈ table.ids ↔ ∃ entry ∈ table, entry.id = node := List.mem_map

theorem inSlot_ids_subset (index : Nat) (member : node ∈ (table.inSlot index).ids) :
    node ∈ table.ids := by
  obtain ⟨entry, inside, rfl⟩ := mem_ids.mp member
  exact mem_ids.mpr ⟨entry, (mem_inSlot.mp inside).1, rfl⟩

theorem entry_unique (nodup : table.ids.Nodup) {entry other : Entry} (member : entry ∈ table)
    (member' : other ∈ table) (same : entry.id = other.id) : entry = other :=
  List.inj_on_of_nodup_map nodup member member' same

theorem inSlot_append (entry : Entry) :
    Table.inSlot (table ++ [entry]) index =
      if entry.slot = index then table.inSlot index ++ [entry] else table.inSlot index := by
  simp only [Table.inSlot, List.filter_append]
  by_cases here : entry.slot = index
  · simp [here]
  · simp [here]

theorem inSlot_remove :
    Table.ids (Table.inSlot (List.filter (fun entry => entry.id != node) table) index) =
      (table.inSlot index).ids.filter (fun id => id != node) := by
  simp only [Table.ids, Table.inSlot, List.filter_map, List.filter_filter]
  congr 1
  apply List.filter_congr
  intro entry _
  rw [Bool.and_comm]
  rfl

end TableFacts

section Memory

variable {mem : Memory} {table : Table}

theorem Represents.live (rep : Represents mem table) {node : Nat} (member : node ∈ table.ids) :
    mem.heap node ≠ none := by
  obtain ⟨entry, inside, rfl⟩ := mem_ids.mp member
  obtain ⟨link, held⟩ := rep.nodes entry inside
  rw [held]
  exact Option.some_ne_none _

theorem Represents.fresh (rep : Represents mem table) {node : Nat} (free : mem.heap node = none) :
    node ∉ table.ids := fun member => rep.live member free

theorem Represents.slot (rep : Represents mem table) {index : Nat}
    (inside : index < masterArrSize) :
    ∃ slot, mem.gSchMasterTable[index]? = some slot :=
  ⟨_, List.getElem?_eq_getElem (by rw [rep.slots]; exact inside)⟩

theorem Represents.short (rep : Represents mem table) (index : Nat) :
    (table.inSlot index).ids.length < mem.allocated + 1 := by
  have bound := rep.bound
  have fewer : (table.inSlot index).length ≤ table.length := List.length_filter_le _ _
  rw [Table.ids, List.length_map]
  omega

theorem Represents.disjoint (rep : Represents mem table) {first second node : Nat}
    (inFirst : node ∈ (table.inSlot first).ids) (inSecond : node ∈ (table.inSlot second).ids) :
    first = second := by
  obtain ⟨entry, member, rfl⟩ := mem_ids.mp inFirst
  obtain ⟨other, member', same⟩ := mem_ids.mp inSecond
  have equal := entry_unique rep.nodup (mem_inSlot.mp member).1 (mem_inSlot.mp member').1 same.symm
  rw [← (mem_inSlot.mp member).2, ← (mem_inSlot.mp member').2, equal]

theorem SlotHolds.congr {next next' : Nat → Option (Option Nat)} {slot : StMasterTable}
    {ids : List Nat} (holds : SlotHolds next slot ids)
    (same : ∀ node ∈ ids, next' node = next node) :
    SlotHolds next' slot ids :=
  { holds with chain := holds.chain.congr same }

theorem Represents.set_holds (rep : Represents mem table) {mem' : Memory} {table' : Table}
    {index : Nat} {slot : StMasterTable}
    (slots : mem'.gSchMasterTable = mem.gSchMasterTable.set index slot)
    (here : SlotHolds mem'.next slot (table'.inSlot index).ids)
    (others : ∀ other ≠ index, table'.inSlot other = table.inSlot other)
    (same : ∀ other ≠ index, ∀ node ∈ (table.inSlot other).ids, mem'.next node = mem.next node)
    (other : Nat) (found : StMasterTable) (member : mem'.gSchMasterTable[other]? = some found) :
    SlotHolds mem'.next found (table'.inSlot other).ids := by
  rw [slots, List.getElem?_set] at member
  split at member
  · rename_i equal
    subst equal
    split at member
    · obtain rfl := Option.some.inj member
      exact here
    · cases member
  · rename_i differs
    have away : other ≠ index := fun equal => differs equal.symm
    rw [others other away]
    exact (rep.holds other found member).congr (same other away)

theorem represents_init : Represents initMasterTable [] where
  slots := by simp [initMasterTable]
  holds := by
    intro index slot member
    rw [initMasterTable, List.getElem?_replicate] at member
    split at member
    · obtain rfl := Option.some.inj member
      exact ⟨rfl, rfl, rfl⟩
    · cases member
  nodes := by simp
  range := by simp
  nodup := List.nodup_nil
  bound := by simp [initMasterTable]

end Memory

section AddTask

variable {mem : Memory} {table : Table}

theorem Represents.append (rep : Represents mem table) {index node : Nat} {task : StTask}
    (link : Nat → Option Nat → Option Nat) (inside : index < masterArrSize)
    (free : mem.heap node = none) {mem' : Memory} {slot : StMasterTable}
    (slots : mem'.gSchMasterTable = mem.gSchMasterTable.set index slot)
    (allocated : mem'.allocated = mem.allocated + 1)
    (new : mem'.heap node = some ⟨task, none⟩)
    (old : ∀ other ≠ node, mem'.heap other =
      (mem.heap other).map fun cell => { cell with pNext := link other cell.pNext })
    (elsewhere : ∀ other ∉ (table.inSlot index).ids, ∀ next, link other next = next)
    (here : SlotHolds mem'.next slot ((table.inSlot index).ids ++ [node])) :
    Represents mem' (table ++ [⟨node, index, task⟩]) := by
  have fresh := rep.fresh free
  refine ⟨?_, ?_, ?_, ?_, ?_, ?_⟩
  · rw [slots, List.length_set]
    exact rep.slots
  · refine rep.set_holds slots ?_ ?_ ?_
    · rw [inSlot_append, if_pos rfl, Table.ids, List.map_append]
      exact here
    · intro other away
      rw [inSlot_append, if_neg (fun equal => away equal.symm)]
    · intro other away known member
      have differs : known ≠ node := by
        rintro rfl
        exact fresh (inSlot_ids_subset other member)
      have outside : known ∉ (table.inSlot index).ids :=
        fun inIndex => away (rep.disjoint member inIndex)
      rw [Memory.next, Memory.next, old known differs, Option.map_map]
      congr 1
      funext cell
      exact elsewhere known outside cell.pNext
  · intro entry member
    rcases List.mem_append.mp member with before | last
    · have differs : entry.id ≠ node := fun equal => fresh (mem_ids.mpr ⟨entry, before, equal⟩)
      obtain ⟨next, held⟩ := rep.nodes entry before
      rw [old entry.id differs, held]
      exact ⟨_, rfl⟩
    · rw [List.mem_singleton.mp last]
      exact ⟨none, new⟩
  · intro entry member
    rcases List.mem_append.mp member with before | last
    · exact rep.range entry before
    · rw [List.mem_singleton.mp last]
      exact inside
  · rw [Table.ids, List.map_append]
    refine List.nodup_append.mpr ⟨rep.nodup, by simp, ?_⟩
    intro known member other last equal
    rw [List.map_singleton, List.mem_singleton] at last
    rw [equal, last] at member
    exact fresh member
  · have bound := rep.bound
    rw [allocated, List.length_append, List.length_singleton]
    omega

theorem schAddTask_inside (rep : Represents mem table) (pTime : Tm) (task : StTask)
    (newNode : Option Nat) (slots : ∀ index, slotIndex task = some index → index < masterArrSize)
    (free : ∀ node, newNode = some node → mem.heap node = none) :
    ∃ mem', schAddTask mem pTime task newNode =
        some (mem', (table.add pTime task newNode).2) ∧
      Represents mem' (table.add pTime task newNode).1 := by
  unfold schAddTask Table.add
  by_cases valid : validateTask pTime task = .nascSuccess
  swap
  · rw [if_pos valid]
    refine ⟨mem, ?_, ?_⟩
    · split <;> simp [valid]
    · split <;> simpa [valid] using rep
  rw [if_neg (by simp [valid])]
  cases found : slotIndex task with
  | none => exact ⟨mem, rfl, rep⟩
  | some index =>
    have inside : index < masterArrSize := slots index found
    obtain ⟨slot, member⟩ := rep.slot inside
    simp only [member]
    have holds := rep.holds index slot member
    cases newNode with
    | none => exact ⟨mem, rfl, rep⟩
    | some node =>
      have unused := free node rfl
      have fresh := rep.fresh unused
      simp only [valid, if_true]
      cases heads : slot.pHeadMasterData with
      | none =>
        have empty : (table.inSlot index).ids = [] := by
          have chain := holds.chain
          rw [heads] at chain
          exact isChain_none chain
        refine ⟨_, rfl, ?_⟩
        refine rep.append (fun _ next => next) inside unused rfl rfl
          (Function.update_self _ _ _) ?_ (fun _ _ _ => rfl) ?_
        · intro other differs
          simp only [Function.update_of_ne differs]
          exact Option.map_id'.symm
        · have size := holds.size
          rw [empty] at size ⊢
          refine ⟨⟨rfl, none, ?_, rfl⟩, rfl, ?_⟩
          · simp [Memory.next]
          · simp only [List.length_nil, Nat.cast_zero] at size
            simp [size]
      | some head =>
        obtain ⟨front, last, split⟩ : ∃ front last,
            (table.inSlot index).ids = front ++ [last] := by
          rcases List.eq_nil_or_concat (table.inSlot index).ids with
            empty | ⟨front, last, split⟩
          · have chain := holds.chain
            rw [empty, heads] at chain
            cases chain
          · exact ⟨front, last, by rw [split, List.concat_eq_append]⟩
        have chain := holds.chain
        have tail := holds.tail
        have size := holds.size
        rw [split] at chain tail size
        rw [List.getLast?_append, List.getLast?_singleton, Option.some_or] at tail
        have distinct : last ≠ node := by
          rintro rfl
          exact fresh (inSlot_ids_subset index (by rw [split]; simp))
        have notInFront : ∀ other ∈ front, other ≠ last ∧ other ≠ node := by
          intro other memberFront
          refine ⟨?_, ?_⟩
          · rintro rfl
            have nodup := chain.nodup
            rw [List.nodup_append] at nodup
            exact nodup.2.2 other memberFront other (by simp) rfl
          · rintro rfl
            exact fresh (inSlot_ids_subset index (by rw [split]; simp [memberFront]))
        obtain ⟨link, held⟩ := chain.allocated (a := last) (by simp)
        rw [Memory.next, Option.map_eq_some_iff] at held
        obtain ⟨cell, held, _⟩ := held
        simp only [tail, Function.update_of_ne distinct, held]
        refine ⟨_, rfl, ?_⟩
        refine rep.append (fun other next => if other = last then some node else next)
          inside unused rfl rfl ?_ ?_ ?_ ?_
        · simp only
          rw [Function.update_of_ne (fun equal => distinct equal.symm), Function.update_self]
        · intro other differs
          by_cases same : other = last
          · subst same
            simp only [Function.update_self, held, Option.map_some, if_true]
          · simp only [Function.update_of_ne same, Function.update_of_ne differs, same, if_false]
            exact Option.map_id'.symm
        · intro other outside next
          rw [if_neg]
          rintro rfl
          exact outside (by rw [split]; simp)
        · rw [split, List.append_assoc]
          refine ⟨?_, ?_, ?_⟩
          · simp only [heads] at chain
            refine chain.snoc ?_ ?_ ?_
            · intro other memberFront
              simp only [Memory.next]
              rw [Function.update_of_ne (notInFront other memberFront).1,
                Function.update_of_ne (notInFront other memberFront).2]
            · simp [Memory.next]
            · simp only [Memory.next]
              rw [Function.update_of_ne (fun equal => distinct equal.symm),
                Function.update_self]
              rfl
          · simp
          · simp only [size, List.length_append, List.length_cons, List.length_nil]
            push_cast
            omega

theorem hour_slot {task : StTask} (hour : task.startTime.ui16Hour.toNat ≤ 23) (index : Nat)
    (found : slotIndex task = some index) : index < masterArrSize := by
  simp only [slotIndex, everyHourTask] at found
  simp only [masterArrSize]
  split at found <;> simp only [Option.some.injEq, reduceCtorEq] at found <;> omega

theorem schAddTask_represents (rep : Represents mem table) (pTime : Tm) (task : StTask)
    (newNode : Option Nat) (hour : task.startTime.ui16Hour.toNat ≤ 23)
    (free : ∀ node, newNode = some node → mem.heap node = none) :
    ∃ mem', schAddTask mem pTime task newNode =
        some (mem', (table.add pTime task newNode).2) ∧
      Represents mem' (table.add pTime task newNode).1 :=
  schAddTask_inside rep pTime task newNode (hour_slot hour) free

theorem schAddTask_some (rep : Represents mem table) {pTime : Tm} {task : StTask}
    {newNode : Option Nat} {mem' : Memory} {id : Option Nat}
    (free : ∀ node, newNode = some node → mem.heap node = none)
    (added : schAddTask mem pTime task newNode = some (mem', id)) :
    id = (table.add pTime task newNode).2 ∧ Represents mem' (table.add pTime task newNode).1 := by
  by_cases slots : ∀ index, slotIndex task = some index → index < masterArrSize
  · obtain ⟨mem'', executed, rep'⟩ := schAddTask_inside rep pTime task newNode slots free
    rw [executed] at added
    cases added
    exact ⟨rfl, rep'⟩
  · push Not at slots
    obtain ⟨index, found, outside⟩ := slots
    have missing : mem.gSchMasterTable[index]? = none :=
      List.getElem?_eq_none (by rw [rep.slots]; exact outside)
    unfold schAddTask at added
    unfold Table.add
    by_cases valid : validateTask pTime task = .nascSuccess
    · rw [if_neg (by simp [valid])] at added
      simp only [found, missing] at added
      cases added
    · rw [if_pos valid] at added
      cases added
      cases newNode with
      | none => exact ⟨by simp [found], by simpa [found] using rep⟩
      | some node => exact ⟨by simp [found, valid], by simpa [found, valid] using rep⟩

end AddTask

section DeleteTask

variable {mem : Memory} {table : Table} {index lTaskId : Nat}

abbrev Table.without (table : Table) (lTaskId : Nat) : Table :=
  List.filter (fun entry => entry.id != lTaskId) table

theorem Represents.remove (rep : Represents mem table)
    (link : Nat → Option Nat → Option Nat) (member : lTaskId ∈ (table.inSlot index).ids)
    {mem' : Memory} {slot : StMasterTable}
    (slots : mem'.gSchMasterTable = mem.gSchMasterTable.set index slot)
    (allocated : mem'.allocated = mem.allocated)
    (old : ∀ other ≠ lTaskId, mem'.heap other =
      (mem.heap other).map fun cell => { cell with pNext := link other cell.pNext })
    (elsewhere : ∀ other ∉ (table.inSlot index).ids, ∀ next, link other next = next)
    (here : SlotHolds mem'.next slot
      ((table.inSlot index).ids.filter fun id => id != lTaskId)) :
    Represents mem' (table.without lTaskId) := by
  have subset : ∀ entry ∈ table.without lTaskId, entry ∈ table ∧ entry.id ≠ lTaskId := by
    intro entry inside
    rw [List.mem_filter, bne_iff_ne] at inside
    exact inside
  refine ⟨?_, ?_, ?_, ?_, ?_, ?_⟩
  · rw [slots, List.length_set]
    exact rep.slots
  · refine rep.set_holds slots (by rw [inSlot_remove]; exact here) ?_ ?_
    · intro other away
      rw [Table.inSlot, Table.inSlot, List.filter_filter]
      apply List.filter_congr
      intro entry inside
      by_cases same : entry.slot = other
      · have differs : entry.id ≠ lTaskId := by
          intro equal
          have inOther : lTaskId ∈ (table.inSlot other).ids :=
            mem_ids.mpr ⟨entry, mem_inSlot.mpr ⟨inside, same⟩, equal⟩
          exact away (rep.disjoint inOther member)
        simp [same, differs]
      · simp [same]
    · intro other away known inside
      have differs : known ≠ lTaskId := by
        rintro rfl
        exact away (rep.disjoint inside member)
      have outside : known ∉ (table.inSlot index).ids :=
        fun inIndex => away (rep.disjoint inside inIndex)
      rw [Memory.next, Memory.next, old known differs, Option.map_map]
      congr 1
      funext cell
      exact elsewhere known outside cell.pNext
  · intro entry inside
    obtain ⟨next, held⟩ := rep.nodes entry (subset entry inside).1
    rw [old entry.id (subset entry inside).2, held]
    exact ⟨_, rfl⟩
  · intro entry inside
    exact rep.range entry (subset entry inside).1
  · exact rep.nodup.sublist (List.filter_sublist.map _)
  · have bound := rep.bound
    have fewer : (table.without lTaskId).length ≤ table.length := List.length_filter_le _ _
    rw [allocated]
    omega

theorem filter_between {front back : List Nat} (nodup : (front ++ lTaskId :: back).Nodup) :
    (front ++ lTaskId :: back).filter (fun id => id != lTaskId) = front ++ back := by
  rw [List.nodup_append, List.nodup_cons] at nodup
  obtain ⟨_, ⟨notInBack, _⟩, apart⟩ := nodup
  rw [List.filter_append, List.filter_cons]
  simp only [bne_self_eq_false, Bool.false_eq_true, if_false]
  congr 1
  · apply List.filter_eq_self.mpr
    intro id inside
    rw [bne_iff_ne]
    exact apart id inside lTaskId List.mem_cons_self
  · apply List.filter_eq_self.mpr
    intro id inside
    rw [bne_iff_ne]
    rintro rfl
    exact notInBack inside

theorem unlinkNode_represents (rep : Represents mem table) {slot : StMasterTable}
    (member : mem.gSchMasterTable[index]? = some slot) {front back : List Nat}
    (split : (table.inSlot index).ids = front ++ lTaskId :: back) :
    ∃ mem', unlinkNode mem index slot (front.getLast?.or none) lTaskId = some mem' ∧
      Represents mem' (table.without lTaskId) ∧
      ∀ node, mem.heap node = none ∨ node = lTaskId → mem'.heap node = none := by
  have holds := rep.holds index slot member
  have chain := holds.chain
  have tail := holds.tail
  have size := holds.size
  rw [split] at chain tail size
  have rest := filter_between chain.nodup
  have inside : lTaskId ∈ (table.inSlot index).ids := by
    rw [split]
    simp
  obtain ⟨_, q, link, after⟩ := chain.from
  obtain ⟨cell, held, next⟩ := Option.map_eq_some_iff.mp link
  have nodup := chain.nodup
  rw [List.nodup_append, List.nodup_cons] at nodup
  obtain ⟨frontNodup, ⟨notInBack, _⟩, apart⟩ := nodup
  have ends : q = none → back = [] := by
    rintro rfl
    exact isChain_none after
  have continues : q ≠ none → back ≠ [] := by
    rintro some rfl
    exact some after
  unfold unlinkNode
  rw [held]
  rcases List.eq_nil_or_concat front with rfl | ⟨init, before, rfl⟩
  · refine ⟨_, rfl, ?_, ?_⟩
    · refine rep.remove (fun _ next => next) inside rfl rfl ?_ (fun _ _ _ => rfl) ?_
      · intro other differs
        simp only [Function.update_of_ne differs]
        exact Option.map_id'.symm
      · rw [split, rest, List.nil_append]
        have kept : ∀ node ∈ back, (Function.update mem.heap lTaskId none node).map
            StMasterNode.pNext = mem.next node := by
          intro node inBack
          have differs : node ≠ lTaskId := fun equal => notInBack (equal ▸ inBack)
          rw [Function.update_of_ne differs]
          rfl
        by_cases last : q = none
        · rw [ends last] at size ⊢
          simp only [next, last, if_true]
          refine ⟨rfl, rfl, ?_⟩
          simp only [List.nil_append, List.length_singleton, Nat.cast_one] at size
          simp [size]
        · simp only [next, last, if_false]
          refine ⟨after.congr kept, ?_, ?_⟩
          · rw [tail, List.nil_append]
            cases back with
            | nil => exact absurd rfl (continues last)
            | cons first others => rw [List.getLast?_cons_cons]
          · simp only [List.nil_append, List.length_cons] at size
            simp only [size]
            push_cast
            omega
    · intro node free
      by_cases same : node = lTaskId
      · subst same
        simp
      · rcases free with free | equal
        · simp only [Function.update_of_ne same, free]
        · exact absurd equal same
  · rw [List.concat_eq_append] at *
    have differs : before ≠ lTaskId := apart before (by simp) lTaskId List.mem_cons_self
    obtain ⟨r, linkBefore⟩ := chain.allocated (a := before) (by simp)
    obtain ⟨cellBefore, heldBefore, _⟩ := Option.map_eq_some_iff.mp linkBefore
    have lookup : (init ++ [before]).getLast?.or none = some before := by simp
    rw [lookup]
    simp only [heldBefore]
    have notInInit : ∀ node ∈ init, node ≠ before ∧ node ≠ lTaskId := by
      intro node inInit
      refine ⟨?_, apart node (by simp [inInit]) lTaskId List.mem_cons_self⟩
      rintro rfl
      rw [List.nodup_append] at frontNodup
      exact frontNodup.2.2 node inInit node (by simp) rfl
    have notBack : ∀ node ∈ back, node ≠ before ∧ node ≠ lTaskId := by
      intro node inBack
      refine ⟨?_, fun equal => notInBack (equal ▸ inBack)⟩
      rintro rfl
      exact apart node (by simp) node (List.mem_cons_of_mem _ inBack) rfl
    refine ⟨_, rfl, ?_, ?_⟩
    · refine rep.remove (fun other next => if other = before then cell.pNext else next)
        inside rfl rfl ?_ ?_ ?_
      · intro other away
        simp only [Function.update_of_ne away]
        by_cases same : other = before
        · subst same
          simp only [Function.update_self, heldBefore, Option.map_some, if_true]
        · simp only [Function.update_of_ne same, same, if_false]
          exact Option.map_id'.symm
      · intro other outside following
        rw [if_neg]
        rintro rfl
        exact outside (by rw [split]; simp)
      · rw [split, rest, List.append_assoc]
        have heads : slot.pHeadMasterData =
            (if cell.pNext = none then { slot with pTailMasterData := some before }
              else slot).pHeadMasterData := by split <;> rfl
        have sizes : slot.nSize =
            (if cell.pNext = none then { slot with pTailMasterData := some before }
              else slot).nSize := by split <;> rfl
        refine ⟨?_, ?_, ?_⟩
        · simp only [← heads]
          rw [List.append_assoc] at chain
          refine chain.unlink link ?_ ?_ ?_
          · intro node inInit
            simp only [Memory.next]
            rw [Function.update_of_ne (notInInit node inInit).2,
              Function.update_of_ne (notInInit node inInit).1]
          · simp only [Memory.next]
            rw [Function.update_of_ne differs, Function.update_self, Option.map_some, next]
          · intro node inBack
            simp only [Memory.next]
            rw [Function.update_of_ne (notBack node inBack).2,
              Function.update_of_ne (notBack node inBack).1]
        · by_cases last : q = none
          · rw [ends last]
            simp [next, last]
          · simp only [next, last, if_false]
            rw [tail]
            cases back with
            | nil => exact absurd rfl (continues last)
            | cons first others => simp [List.getLast?_append, List.getLast?_cons_cons]
        · simp only [← sizes]
          rw [size]
          simp only [List.length_append, List.length_cons, List.length_nil]
          push_cast
          omega
    · intro node free
      by_cases same : node = lTaskId
      · subst same
        simp
      · rcases free with free | equal
        · have other : node ≠ before := by
            rintro rfl
            rw [heldBefore] at free
            cases free
          simp only [Function.update_of_ne same, Function.update_of_ne other, free]
        · exact absurd equal same

theorem Represents.search_slot (rep : Represents mem table) (lTaskId : Nat)
    {slot : StMasterTable}
    (member : mem.gSchMasterTable[index]? = some slot) :
    (lTaskId ∉ (table.inSlot index).ids ∧
      search mem.next lTaskId (mem.allocated + 1) none slot.pHeadMasterData = some none) ∨
    ∃ front back, (table.inSlot index).ids = front ++ lTaskId :: back ∧
      search mem.next lTaskId (mem.allocated + 1) none slot.pHeadMasterData =
        some (some (front.getLast?.or none)) :=
  search_chain none (rep.holds index slot member).chain (rep.short index)

theorem find_none (absent : lTaskId ∉ table.ids) : table.find lTaskId = none := by
  rw [Table.find, List.find?_eq_none]
  intro entry member equal
  exact absent (mem_ids.mpr ⟨entry, member, eq_of_beq equal⟩)

theorem find_some (present : lTaskId ∈ table.ids) :
    ∃ entry ∈ table, entry.id = lTaskId ∧ table.find lTaskId = some entry := by
  obtain ⟨entry, member, same⟩ := mem_ids.mp present
  cases found : table.find lTaskId with
  | none =>
    rw [Table.find, List.find?_eq_none] at found
    exact absurd (beq_iff_eq.mpr same) (found entry member)
  | some first =>
    have hit := List.find?_some (p := fun entry : Entry => entry.id == lTaskId) found
    exact ⟨first, List.mem_of_find?_eq_some found, eq_of_beq hit, rfl⟩

theorem deleteLoop_represents (rep : Represents mem table) (indices : List Nat)
    (inRange : ∀ index ∈ indices, index < masterArrSize)
    (covered : ∀ entry ∈ table, entry.id = lTaskId → entry.slot ∈ indices) :
    ∃ mem', deleteLoop mem lTaskId indices = some (mem', (table.delete lTaskId).2) ∧
      Represents mem' (table.delete lTaskId).1 ∧
      ∀ node, mem.heap node = none ∨ (lTaskId ∈ table.ids ∧ node = lTaskId) →
        mem'.heap node = none := by
  induction indices with
  | nil =>
    have absent : lTaskId ∉ table.ids := by
      intro present
      obtain ⟨entry, member, same⟩ := mem_ids.mp present
      cases covered entry member same
    rw [Table.delete, find_none absent]
    refine ⟨mem, rfl, rep, ?_⟩
    rintro node (free | ⟨present, _⟩)
    · exact free
    · exact absurd present absent
  | cons index rest ih =>
    obtain ⟨slot, member⟩ := rep.slot (inRange index List.mem_cons_self)
    simp only [deleteLoop, member]
    rcases rep.search_slot lTaskId member with ⟨absent, searched⟩ |
      ⟨front, back, split, searched⟩
    · rw [searched]
      refine ih (fun other inRest => inRange other (List.mem_cons_of_mem _ inRest)) ?_
      intro entry inside same
      rcases List.mem_cons.mp (covered entry inside same) with here | later
      · exact absurd (mem_ids.mpr ⟨entry, mem_inSlot.mpr ⟨inside, here⟩, same⟩) absent
      · exact later
    · have present : lTaskId ∈ table.ids :=
        inSlot_ids_subset index (by rw [split]; simp)
      obtain ⟨entry, _, _, found⟩ := find_some present
      obtain ⟨mem', unlinked, rep', freed⟩ := unlinkNode_represents rep member split
      rw [searched, Table.delete, found]
      simp only [unlinked, Option.map_some]
      refine ⟨mem', rfl, rep', ?_⟩
      rintro node (free | ⟨_, same⟩)
      · exact freed node (.inl free)
      · exact freed node (.inr same)

theorem schDeleteTask_represents (rep : Represents mem table) (lTaskId : Nat) :
    ∃ mem', schDeleteTask mem lTaskId = some (mem', (table.delete lTaskId).2) ∧
      Represents mem' (table.delete lTaskId).1 ∧
      ∀ node, mem.heap node = none ∨ (lTaskId ∈ table.ids ∧ node = lTaskId) →
        mem'.heap node = none :=
  deleteLoop_represents rep (List.range masterArrSize)
    (fun _ member => List.mem_range.mp member)
    (fun entry member _ => List.mem_range.mpr (rep.range entry member))

theorem schModifyTask_inside (rep : Represents mem table) (lTaskId : Nat) (pTime : Tm)
    (task : StTask) (newNode : Option Nat)
    (slots : ∀ index, slotIndex task = some index → index < masterArrSize)
    (free : ∀ node, newNode = some node → mem.heap node = none ∨ node = lTaskId) :
    ∃ mem', schModifyTask mem lTaskId pTime task newNode =
        some (mem', (table.modify lTaskId pTime task newNode).2) ∧
      Represents mem' (table.modify lTaskId pTime task newNode).1 := by
  obtain ⟨mem', deleted, rep', freed⟩ := schDeleteTask_represents rep lTaskId
  by_cases present : lTaskId ∈ table.ids
  · obtain ⟨entry, _, _, found⟩ := find_some present
    simp only [schModifyTask, Table.modify, deleted]
    simp only [Table.delete, found] at rep' ⊢
    apply schAddTask_inside rep' pTime task newNode slots
    intro node new
    rcases free node new with unused | same
    · exact freed node (.inl unused)
    · exact freed node (.inr ⟨present, same⟩)
  · simp only [schModifyTask, Table.modify, deleted]
    simp only [Table.delete, find_none present] at rep' ⊢
    exact ⟨mem', rfl, rep'⟩

theorem schModifyTask_represents (rep : Represents mem table) (lTaskId : Nat) (pTime : Tm)
    (task : StTask) (newNode : Option Nat) (hour : task.startTime.ui16Hour.toNat ≤ 23)
    (free : ∀ node, newNode = some node → mem.heap node = none ∨ node = lTaskId) :
    ∃ mem', schModifyTask mem lTaskId pTime task newNode =
        some (mem', (table.modify lTaskId pTime task newNode).2) ∧
      Represents mem' (table.modify lTaskId pTime task newNode).1 :=
  schModifyTask_inside rep lTaskId pTime task newNode (hour_slot hour) free

theorem getLoop_represents (rep : Represents mem table) (indices : List Nat)
    (inRange : ∀ index ∈ indices, index < masterArrSize)
    (covered : ∀ entry ∈ table, entry.id = lTaskId → entry.slot ∈ indices) :
    getLoop mem lTaskId indices = some (table.get lTaskId) := by
  induction indices with
  | nil =>
    have absent : lTaskId ∉ table.ids := by
      intro present
      obtain ⟨entry, member, same⟩ := mem_ids.mp present
      cases covered entry member same
    rw [Table.get, find_none absent]
    rfl
  | cons index rest ih =>
    obtain ⟨slot, member⟩ := rep.slot (inRange index List.mem_cons_self)
    simp only [getLoop, member]
    rcases rep.search_slot lTaskId member with ⟨absent, searched⟩ |
      ⟨front, back, split, searched⟩
    · rw [searched]
      refine ih (fun other inRest => inRange other (List.mem_cons_of_mem _ inRest)) ?_
      intro entry inside same
      rcases List.mem_cons.mp (covered entry inside same) with here | later
      · exact absurd (mem_ids.mpr ⟨entry, mem_inSlot.mpr ⟨inside, here⟩, same⟩) absent
      · exact later
    · have present : lTaskId ∈ table.ids :=
        inSlot_ids_subset index (by rw [split]; simp)
      obtain ⟨entry, inside, same, found⟩ := find_some present
      obtain ⟨link, held⟩ := rep.nodes entry inside
      rw [same] at held
      rw [searched, Table.get, found]
      simp only [held, Option.map_some]

theorem schModifyTask_some (rep : Represents mem table) {lTaskId : Nat} {pTime : Tm}
    {task : StTask} {newNode : Option Nat} {mem' : Memory} {id : Option Nat}
    (present : lTaskId ∈ table.ids)
    (free : ∀ node, newNode = some node → mem.heap node = none ∨ node = lTaskId)
    (modified : schModifyTask mem lTaskId pTime task newNode = some (mem', id)) :
    id = (Table.add (table.without lTaskId) pTime task newNode).2 ∧
      Represents mem' (Table.add (table.without lTaskId) pTime task newNode).1 := by
  obtain ⟨middle, deleted, rep', freed⟩ := schDeleteTask_represents rep lTaskId
  obtain ⟨entry, _, _, found⟩ := find_some present
  simp only [schModifyTask, deleted] at modified
  simp only [Table.delete, found] at rep' modified
  apply schAddTask_some rep' _ modified
  intro node new
  rcases free node new with unused | same
  · exact freed node (.inl unused)
  · exact freed node (.inr ⟨present, same⟩)

theorem schGetTask_represents (rep : Represents mem table) (lTaskId : Nat) :
    schGetTask mem lTaskId = some (table.get lTaskId) :=
  getLoop_represents rep (List.range masterArrSize)
    (fun _ member => List.mem_range.mp member)
    (fun entry member _ => List.mem_range.mpr (rep.range entry member))

end DeleteTask

section Clear

variable {mem : Memory} {table : Table}

theorem clearSlot_chain {index : Nat} {ids : List Nat} {slot : StMasterTable} {fuel : Nat}
    (member : mem.gSchMasterTable[index]? = some slot)
    (chain : IsChain mem.next slot.pHeadMasterData ids) (enough : ids.length < fuel) :
    ∃ mem', clearSlot index fuel mem = some mem' ∧
      mem'.gSchMasterTable =
        mem.gSchMasterTable.set index ⟨none, none, slot.nSize - ids.length⟩ ∧
      (∀ node ∉ ids, mem'.heap node = mem.heap node) ∧ mem'.allocated = mem.allocated := by
  induction ids generalizing mem slot fuel with
  | nil =>
    cases fuel with
    | zero => simp at enough
    | succ fuel =>
      rw [isChain_nil] at chain
      simp only [clearSlot, member, chain]
      refine ⟨_, rfl, by simp, fun _ _ => rfl, rfl⟩
  | cons head tail ih =>
    cases fuel with
    | zero => simp at enough
    | succ fuel =>
      have bound := (List.getElem?_eq_some_iff.mp member).1
      have nodup := chain.nodup
      obtain ⟨start, q, link, rest⟩ := chain
      obtain ⟨cell, held, next⟩ := Option.map_eq_some_iff.mp link
      simp only [clearSlot, member, start, held]
      rw [List.nodup_cons] at nodup
      let freed : Memory := { mem with
        gSchMasterTable := mem.gSchMasterTable.set index
          ⟨cell.pNext, slot.pTailMasterData, slot.nSize - 1⟩
        heap := Function.update mem.heap head none }
      have kept : ∀ node ∈ tail, freed.next node = mem.next node := by
        intro node inside
        have differs : node ≠ head := fun equal => nodup.1 (equal ▸ inside)
        simp only [freed, Memory.next, Function.update_of_ne differs]
      have here : freed.gSchMasterTable[index]? =
          some ⟨cell.pNext, slot.pTailMasterData, slot.nSize - 1⟩ := by
        simp only [freed]
        rw [List.getElem?_set_self bound]
      have shorter : tail.length < fuel := by
        rw [List.length_cons] at enough
        omega
      obtain ⟨mem', cleared, slots, same, allocated⟩ :=
        ih here (by rw [next]; exact rest.congr kept) shorter
      refine ⟨mem', cleared, ?_, ?_, by rw [allocated]⟩
      · rw [slots]
        simp only [freed, List.set_set, List.length_cons]
        congr 2
        push_cast
        omega
      · intro node outside
        rw [List.mem_cons, not_or] at outside
        rw [same node outside.2]
        simp only [freed, Function.update_of_ne outside.1]

theorem Represents.clear (rep : Represents mem table) {mem' : Memory} {index : Nat}
    {slot : StMasterTable} (size : slot.nSize = (table.inSlot index).ids.length)
    (slots : mem'.gSchMasterTable = mem.gSchMasterTable.set index
      ⟨none, none, slot.nSize - (table.inSlot index).ids.length⟩)
    (heap : ∀ node ∉ (table.inSlot index).ids, mem'.heap node = mem.heap node)
    (allocated : mem'.allocated = mem.allocated) :
    Represents mem' (List.filter (fun entry => entry.slot != index) table) := by
  have subset : ∀ entry ∈ List.filter (fun entry => entry.slot != index) table,
      entry ∈ table ∧ entry.slot ≠ index := by
    intro entry inside
    rw [List.mem_filter, bne_iff_ne] at inside
    exact inside
  have outside : ∀ other ≠ index, ∀ node ∈ (table.inSlot other).ids,
      node ∉ (table.inSlot index).ids :=
    fun other away node inside inIndex => away (rep.disjoint inside inIndex)
  refine ⟨?_, ?_, ?_, ?_, ?_, ?_⟩
  · rw [slots, List.length_set]
    exact rep.slots
  · refine rep.set_holds slots ?_ ?_ ?_
    · have empty : Table.inSlot (List.filter (fun entry => entry.slot != index) table) index =
          [] := by
        rw [Table.inSlot, List.filter_filter, List.filter_eq_nil_iff]
        intro entry _ both
        simp at both
      rw [empty]
      exact ⟨rfl, rfl, by rw [size]; simp [Table.ids]⟩
    · intro other away
      rw [Table.inSlot, Table.inSlot, List.filter_filter]
      apply List.filter_congr
      intro entry _
      by_cases same : entry.slot = other
      · simp [same, away]
      · simp [same]
    · intro other away node inside
      rw [Memory.next, Memory.next, heap node (outside other away node inside)]
  · intro entry inside
    obtain ⟨member, away⟩ := subset entry inside
    obtain ⟨link, held⟩ := rep.nodes entry member
    have inOther : entry.id ∈ (table.inSlot entry.slot).ids :=
      mem_ids.mpr ⟨entry, mem_inSlot.mpr ⟨member, rfl⟩, rfl⟩
    exact ⟨link, by rw [heap entry.id (outside entry.slot away entry.id inOther), held]⟩
  · intro entry inside
    exact rep.range entry (subset entry inside).1
  · exact rep.nodup.sublist (List.filter_sublist.map _)
  · have bound := rep.bound
    have fewer := List.length_filter_le (fun entry : Entry => entry.slot != index) table
    rw [allocated]
    omega

theorem clearLoop_represents (rep : Represents mem table) (indices : List Nat)
    (inRange : ∀ index ∈ indices, index < masterArrSize) :
    ∃ mem', clearLoop indices mem = some mem' ∧
      Represents mem' (List.filter (fun entry => !indices.contains entry.slot) table) := by
  induction indices generalizing mem table with
  | nil => exact ⟨mem, rfl, by simpa using rep⟩
  | cons index rest ih =>
    obtain ⟨slot, member⟩ := rep.slot (inRange index List.mem_cons_self)
    have holds := rep.holds index slot member
    have later : ∀ other ∈ rest, other < masterArrSize :=
      fun other inRest => inRange other (List.mem_cons_of_mem _ inRest)
    have split : List.filter (fun entry : Entry => !(index :: rest).contains entry.slot) table =
        List.filter (fun entry => !rest.contains entry.slot)
          (List.filter (fun entry => entry.slot != index) table) := by
      rw [List.filter_filter]
      apply List.filter_congr
      intro entry _
      simp only [List.contains_cons, Bool.not_or, bne, Bool.and_comm]
    simp only [clearLoop, member]
    rw [split]
    by_cases empty : slot.pHeadMasterData = none
    · rw [if_pos empty]
      have chain := holds.chain
      rw [empty] at chain
      have none := isChain_none chain
      have unchanged : List.filter (fun entry : Entry => entry.slot != index) table = table := by
        apply List.filter_eq_self.mpr
        intro entry inside
        rw [bne_iff_ne]
        intro here
        have present : entry.id ∈ (table.inSlot index).ids :=
          mem_ids.mpr ⟨entry, mem_inSlot.mpr ⟨inside, here⟩, rfl⟩
        rw [none] at present
        cases present
      rw [unchanged]
      exact ih rep later
    · rw [if_neg empty]
      obtain ⟨mem', cleared, slots, heap, allocated⟩ :=
        clearSlot_chain member holds.chain (rep.short index)
      simp only [cleared]
      exact ih (rep.clear holds.size slots heap allocated) later

theorem clearMasterTable_represents (rep : Represents mem table) :
    ∃ mem', clearMasterTable mem = some mem' ∧ Represents mem' [] := by
  obtain ⟨mem', cleared, rep'⟩ := clearLoop_represents rep (List.range masterArrSize)
    (fun _ member => List.mem_range.mp member)
  refine ⟨mem', cleared, ?_⟩
  have none : List.filter (fun entry : Entry =>
      !(List.range masterArrSize).contains entry.slot) table = [] := by
    rw [List.filter_eq_nil_iff]
    intro entry member
    have inside := List.mem_range.mpr (rep.range entry member)
    simp [inside]
  rwa [none] at rep'

end Clear

section Calls

/-- `malloc` hands out a node that is not in use, and start hours lie in a day. -/
def CallOk : Memory × List TableReturn → TableCall → Prop
  | (mem, _), .schAddTask _ task newNode =>
    task.startTime.ui16Hour.toNat ≤ 23 ∧ ∀ node, newNode = some node → mem.heap node = none
  | (mem, _), .schModifyTask lTaskId _ task newNode =>
    task.startTime.ui16Hour.toNat ≤ 23 ∧
      ∀ node, newNode = some node → mem.heap node = none ∨ node = lTaskId
  | _, _ => True

theorem memoryStep_represents {mem : Memory} {table : Table} {returns : List TableReturn}
    (rep : Represents mem table) (call : TableCall) (ok : CallOk (mem, returns) call) :
    ∃ mem', memoryStep (mem, returns) call =
        some (mem', (tableStep (table, returns) call).2) ∧
      Represents mem' (tableStep (table, returns) call).1 := by
  cases call with
  | schAddTask pTime task newNode =>
    obtain ⟨mem', added, rep'⟩ := schAddTask_represents rep pTime task newNode ok.1 ok.2
    exact ⟨mem', by simp only [memoryStep, added, Option.map_some, tableStep], rep'⟩
  | schDeleteTask lTaskId =>
    obtain ⟨mem', deleted, rep', _⟩ := schDeleteTask_represents rep lTaskId
    exact ⟨mem', by simp only [memoryStep, deleted, Option.map_some, tableStep], rep'⟩
  | schModifyTask lTaskId pTime task newNode =>
    obtain ⟨mem', modified, rep'⟩ :=
      schModifyTask_represents rep lTaskId pTime task newNode ok.1 ok.2
    exact ⟨mem', by simp only [memoryStep, modified, Option.map_some, tableStep], rep'⟩
  | schGetTask lTaskId =>
    have copied := schGetTask_represents rep lTaskId
    exact ⟨mem, by simp only [memoryStep, copied, Option.map_some, tableStep], rep⟩
  | clearMasterTable =>
    obtain ⟨mem', cleared, rep'⟩ := clearMasterTable_represents rep
    exact ⟨mem', by simp only [memoryStep, cleared, Option.map_some, tableStep], rep'⟩

theorem memoryRun_represents {mem : Memory} {table : Table} {returns : List TableReturn}
    (rep : Represents mem table) (calls : List TableCall)
    (ok : Along memoryStep CallOk (mem, returns) calls) :
    ∃ mem', run memoryStep (mem, returns) calls =
        some (mem', (calls.foldl tableStep (table, returns)).2) ∧
      Represents mem' (calls.foldl tableStep (table, returns)).1 := by
  induction calls generalizing mem table returns with
  | nil => exact ⟨mem, rfl, rep⟩
  | cons call calls ih =>
    obtain ⟨middle, first, rep'⟩ := memoryStep_represents rep call ok.1
    obtain ⟨mem', rest, final⟩ := ih rep' (along_cons ok first).2
    exact ⟨mem', run_cons first rest, final⟩

instance CallOk.decidable : ∀ s call, Decidable (CallOk s call)
  | (mem, _), .schAddTask _ _ newNode =>
    inferInstanceAs (Decidable (_ ∧ ∀ node ∈ newNode, mem.heap node = none))
  | (mem, _), .schModifyTask lTaskId _ _ newNode =>
    inferInstanceAs (Decidable (_ ∧ ∀ node ∈ newNode, mem.heap node = none ∨ node = lTaskId))
  | _, .schDeleteTask _ => isTrue trivial
  | _, .schGetTask _ => isTrue trivial
  | _, .clearMasterTable => isTrue trivial

/-- What the users of the 25 lists rely on, in terms of the table. -/
structure WellLinked (mem : Memory) (table : Table) : Prop where
  slots : mem.gSchMasterTable.length = masterArrSize
  acyclic : ∀ (index : Nat) (slot : StMasterTable), mem.gSchMasterTable[index]? = some slot →
    IsChain mem.next slot.pHeadMasterData (table.inSlot index).ids ∧
      (table.inSlot index).ids.Nodup
  size : ∀ (index : Nat) (slot : StMasterTable), mem.gSchMasterTable[index]? = some slot →
    slot.nSize = ((table.inSlot index).length : Int)
  tail : ∀ (index : Nat) (slot : StMasterTable), mem.gSchMasterTable[index]? = some slot →
    slot.pTailMasterData = (table.inSlot index).ids.getLast? ∧
      (slot.pHeadMasterData = none ↔ table.inSlot index = []) ∧
      (slot.pTailMasterData = none ↔ table.inSlot index = [])
  apart : ∀ (first second node : Nat), node ∈ (table.inSlot first).ids →
    node ∈ (table.inSlot second).ids → first = second
  tasks : ∀ entry ∈ table, entry.slot < masterArrSize ∧
    ∃ pNext, mem.heap entry.id = some ⟨entry.mTask, pNext⟩

theorem Represents.wellLinked {mem : Memory} {table : Table} (rep : Represents mem table) :
    WellLinked mem table := by
  constructor
  · exact rep.slots
  · intro index slot member
    have chain := (rep.holds index slot member).chain
    exact ⟨chain, chain.nodup⟩
  · intro index slot member
    rw [(rep.holds index slot member).size, Table.ids, List.length_map]
  · intro index slot member
    have holds := rep.holds index slot member
    refine ⟨holds.tail, ?_, ?_⟩
    · constructor
      · intro empty
        have chain := holds.chain
        rw [empty] at chain
        exact List.map_eq_nil_iff.mp (isChain_none chain)
      · intro empty
        have chain := holds.chain
        rw [empty] at chain
        exact chain
    · rw [holds.tail, List.getLast?_eq_none_iff, Table.ids, List.map_eq_nil_iff]
  · intro first second node inFirst inSecond
    exact rep.disjoint inFirst inSecond
  · intro entry member
    exact ⟨rep.range entry member, rep.nodes entry member⟩

/-- After any calls the lists hold the added and not yet deleted tasks in the
order of their insertion, and every call has returned what the table says. -/
theorem masterTable_wellLinked (calls : List TableCall)
    (ok : Along memoryStep CallOk (initMasterTable, []) calls) :
    ∃ mem, run memoryStep (initMasterTable, []) calls =
        some (mem, (calls.foldl tableStep ([], [])).2) ∧
      WellLinked mem (calls.foldl tableStep ([], [])).1 := by
  obtain ⟨mem, executed, rep⟩ := memoryRun_represents represents_init calls ok
  exact ⟨mem, executed, rep.wellLinked⟩

/-- Two jobs of one hour, the last one deleted, the first one replaced. -/
theorem masterTable_wellLinked_replaced :
    ∃ mem, run memoryStep (initMasterTable, [])
        [.schAddTask (localtime 0) (dailyTask 9 0 0) (some 10),
          .schAddTask (localtime 0) (dailyTask 9 1 0) (some 11), .schDeleteTask 11,
          .schModifyTask 10 (localtime 0) (dailyTask 9 2 0) (some 11), .schDeleteTask 10] =
        some (mem, [.taskId (some 10), .taskId (some 11), .status .nascSuccess,
          .taskId (some 11), .status .nascFailure]) ∧
      WellLinked mem [⟨11, 9, dailyTask 9 2 0⟩] :=
  masterTable_wellLinked _ (by decide)

end Calls

end EveAgent.Scheduler
