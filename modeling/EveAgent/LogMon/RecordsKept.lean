import EveAgent.LogMon.DataFile

namespace EveAgent.LogMon

open RecordFile

variable {layout : Layout}

section Invariant

/-- The file consists of records of different rows, each with what was written last for it. -/
structure Right (state : State layout) (records : List layout.Record) : Prop where
  file : state.file = bytesOf records
  distinct : (records.map layout.idx).Nodup
  latest : ∀ index, SortedTable.findRow layout.idx index records = state.written index

/-- The first `k` records are of other rows. -/
def Scanned (indices : List Nat) (index k : Nat) : Prop :=
  k ≤ indices.length ∧ index ∉ indices.take k

/-- What the call has found in the file so far. -/
def Placed (indices : List Nat) (call : Call layout) : Prop :=
  ∃ k, Scanned indices call.index k ∧
    match call.pc with
    | .read => call.offset = k * layout.size ∧ call.ulPos = k * layout.size
    | .lseekCur => call.offset = k * layout.size
    | .lseekSet => call.ulPos = k * layout.size
    | .write => call.offset = k * layout.size
    | .closed => True

structure Kept (state : State layout) (records : List layout.Record) : Prop where
  right : Right state records
  placed : ∀ call ∈ state.calls, Placed (records.map layout.idx) call

/-- A call that is about to write finds at its place the end of the file, or a record of its
row. -/
def Proper (state : State layout) : Event layout → Prop
  | .begin _ _ => True
  | .proceed k _ => ∀ call, state.calls[k]? = some call → call.pc = .write →
      call.offset = state.file.length ∨
        ∃ record : layout.Record, readAt state.file call.offset layout.size = record.val ∧
          layout.idx record = call.index

instance (state : State layout) (event : Event layout) : Decidable (Proper state event) :=
  match event with
  | .begin _ _ => .isTrue trivial
  | .proceed k _ => by
      have own : ∀ call : Call layout, Decidable (∃ record : layout.Record,
          readAt state.file call.offset layout.size = record.val ∧
            layout.idx record = call.index) := fun call =>
        decidable_of_iff (∃ whole : (readAt state.file call.offset layout.size).length =
            layout.size, layout.idx ⟨_, whole⟩ = call.index)
          ⟨fun ⟨whole, same⟩ => ⟨⟨_, whole⟩, rfl, same⟩,
            fun ⟨record, read, same⟩ => ⟨read ▸ record.property, by simpa only [read] using same⟩⟩
      exact inferInstanceAs (Decidable (∀ call ∈ state.calls[k]?, _ → _ ∨ _))

end Invariant

section Steps

variable {state : State layout} {records : List layout.Record} {call : Call layout}
  {row new : layout.Record} {indices longer : List Nat} {index k : Nat}

theorem Scanned.grown (scanned : Scanned indices index k) (grown : indices <+: longer) :
    Scanned longer index k := by
  obtain ⟨rest, rfl⟩ := grown
  constructor
  · rw [List.length_append]
    exact scanned.1.trans (Nat.le_add_right _ _)
  · rw [List.take_append_of_le_length scanned.1]
    exact scanned.2

theorem Placed.grown (placed : Placed indices call) (grown : indices <+: longer) :
    Placed longer call := by
  obtain ⟨k, scanned, here⟩ := placed
  exact ⟨k, scanned.grown grown, here⟩

theorem placed_callFor (index : Fin layout.oids) (memory : layout.Record) :
    Placed indices (callFor index memory) := by
  refine ⟨0, ⟨Nat.zero_le _, ?_⟩, ?_⟩
  · simp
  · exact ⟨(Nat.zero_mul _).symm, (Nat.zero_mul _).symm⟩

theorem readAt_records (file : state.file = bytesOf records) (within : k ≤ records.length) :
    readAt state.file (k * layout.size) layout.size =
      (records[k]?).elim [] Subtype.val := by
  rw [file]
  rcases Nat.lt_or_eq_of_le within with inside | ended
  · rw [readAt_inside inside, List.getElem?_eq_getElem inside]
    rfl
  · rw [ended, readAt_end, List.getElem?_eq_none (Nat.le_refl _)]
    rfl

theorem record_not_empty (record : layout.Record) : record.val ≠ [] := by
  intro empty
  have length := record.property
  rw [empty] at length
  exact absurd length (Nat.ne_of_lt layout.positive)

theorem placed_proceed (file : state.file = bytesOf records)
    (placed : Placed (records.map layout.idx) call) (row : layout.Record) :
    Placed (records.map layout.idx) (call.proceed state.file row).1 := by
  obtain ⟨k, scanned, here⟩ := placed
  have within : k ≤ records.length := by
    have bound := scanned.1
    rwa [List.length_map] at bound
  cases pc : call.pc with
  | read =>
    simp only [pc] at here
    obtain ⟨offset, ulPos⟩ := here
    have chunk := readAt_records file within
    rw [← offset] at chunk
    cases found : records[k]? with
    | none =>
      rw [found] at chunk
      refine ⟨k, ?_, ?_⟩
      · simpa only [Call.proceed, pc, chunk, Option.elim_none, if_true] using scanned
      · simpa only [Call.proceed, pc, chunk, Option.elim_none, if_true] using offset
    | some record =>
      rw [found] at chunk
      have notEnded : readAt state.file call.offset layout.size ≠ [] := by
        rw [chunk]
        exact record_not_empty record
      have inFile : fill call.stLogRowInFile (readAt state.file call.offset layout.size) =
          record := by
        have whole := fill_record call.stLogRowInFile record []
        rw [List.append_nil] at whole
        rw [chunk]
        exact whole
      have length : (readAt state.file call.offset layout.size).length = layout.size := by
        rw [chunk]
        exact record.property
      by_cases own : layout.idx record = call.index
      · refine ⟨k, ?_, ?_⟩
        · simpa only [Call.proceed, pc, if_neg notEnded, inFile, if_pos own] using scanned
        · simpa only [Call.proceed, pc, if_neg notEnded, inFile, if_pos own] using ulPos
      · have inside : k < (records.map layout.idx).length := by
          rw [List.length_map]
          exact (List.getElem?_eq_some_iff.mp found).1
        have further : Scanned (records.map layout.idx) call.index (k + 1) := by
          refine ⟨inside, ?_⟩
          have here : (records.map layout.idx)[k] = layout.idx record := by
            rw [List.getElem_map, (List.getElem?_eq_some_iff.mp found).2]
          rw [List.take_succ_eq_append_getElem inside, List.mem_append, List.mem_singleton,
            here, not_or]
          exact ⟨scanned.2, Ne.symm own⟩
        refine ⟨k + 1, ?_, ?_⟩
        · simpa only [Call.proceed, pc, if_neg notEnded, inFile, if_neg own] using further
        · simp only [Call.proceed, pc, if_neg notEnded, inFile, if_neg own, length]
          rw [offset, Nat.succ_mul]
  | lseekCur =>
    simp only [pc] at here
    refine ⟨k, ?_, ?_⟩
    · simpa only [Call.proceed, pc] using scanned
    · simpa only [Call.proceed, pc] using And.intro here here
  | lseekSet =>
    simp only [pc] at here
    refine ⟨k, ?_, ?_⟩
    · simpa only [Call.proceed, pc] using scanned
    · simpa only [Call.proceed, pc] using here
  | write =>
    refine ⟨k, ?_, ?_⟩
    · simpa only [Call.proceed, pc] using scanned
    · simp only [Call.proceed, pc]
  | closed =>
    refine ⟨k, ?_, ?_⟩
    · simpa only [Call.proceed, pc] using scanned
    · simp only [Call.proceed, pc]

theorem file_proceed (row : layout.Record) (notWriting : call.pc ≠ .write) (file : List UInt8) :
    (call.proceed file row).2 = file := by
  unfold Call.proceed
  split
  · simp only
    split
    · rfl
    · split <;> rfl
  · rfl
  · rfl
  · rename_i writing
    exact absurd writing notWriting
  · rfl

theorem replaced_indices
    (own : ∀ record, records[k]? = some record → layout.idx record = index)
    (same : layout.idx new = index) :
    records.map layout.idx <+:
      (records.take k ++ new :: records.drop (k + 1)).map layout.idx := by
  cases found : records[k]? with
  | none =>
    have ended := List.getElem?_eq_none_iff.mp found
    rw [List.take_of_length_le ended, List.map_append]
    exact List.prefix_append _ _
  | some record =>
    obtain ⟨inside, here⟩ := List.getElem?_eq_some_iff.mp found
    have split : records = records.take k ++ record :: records.drop (k + 1) := by
      rw [← here, ← List.drop_eq_getElem_cons inside, List.take_append_drop]
    have equal : records.map layout.idx =
        (records.take k ++ new :: records.drop (k + 1)).map layout.idx := by
      rw [List.map_append, List.map_cons, same, ← own record found, ← List.map_cons,
        ← List.map_append, ← split]
    rw [← equal]

theorem replaced_distinct (distinct : (records.map layout.idx).Nodup)
    (scanned : Scanned (records.map layout.idx) index k)
    (own : ∀ record, records[k]? = some record → layout.idx record = index)
    (same : layout.idx new = index) :
    ((records.take k ++ new :: records.drop (k + 1)).map layout.idx).Nodup := by
  have before : index ∉ (records.take k).map layout.idx := by
    rw [List.map_take]
    exact scanned.2
  cases found : records[k]? with
  | none =>
    have ended := List.getElem?_eq_none_iff.mp found
    rw [List.take_of_length_le ended] at before ⊢
    rw [List.drop_eq_nil_of_le (by omega), List.map_append, List.map_singleton, same]
    rw [List.nodup_append]
    refine ⟨distinct, List.nodup_singleton _, ?_⟩
    intro a member b only equal
    rw [List.mem_singleton.mp only] at equal
    exact before (equal ▸ member)
  | some record =>
    obtain ⟨inside, here⟩ := List.getElem?_eq_some_iff.mp found
    have split : records = records.take k ++ record :: records.drop (k + 1) := by
      rw [← here, ← List.drop_eq_getElem_cons inside, List.take_append_drop]
    rwa [List.map_append, List.map_cons, same, ← own record found, ← List.map_cons,
      ← List.map_append, ← split]

theorem find_take (scanned : Scanned (records.map layout.idx) index k) :
    SortedTable.findRow layout.idx index (records.take k) = none := by
  rw [SortedTable.findRow_eq_none_iff, List.map_take]
  exact scanned.2

theorem find_replaced (scanned : Scanned (records.map layout.idx) index k)
    (own : ∀ record, records[k]? = some record → layout.idx record = index)
    (same : layout.idx new = index) (other : Nat) :
    SortedTable.findRow layout.idx other (records.take k ++ new :: records.drop (k + 1)) =
      if other = index then some new else SortedTable.findRow layout.idx other records := by
  by_cases here : other = index
  · subst here
    have first : SortedTable.findRow layout.idx other (new :: records.drop (k + 1)) = some new := by
      rw [← same]
      exact SortedTable.findRow_cons_self new _
    rw [if_pos rfl, SortedTable.findRow_append, find_take scanned, Option.none_or, first]
  · have notNew : layout.idx new ≠ other := by
      rw [same]
      exact Ne.symm here
    rw [if_neg here, SortedTable.findRow_append, SortedTable.findRow_cons_other notNew]
    cases found : records[k]? with
    | none =>
      have ended := List.getElem?_eq_none_iff.mp found
      rw [List.take_of_length_le ended, List.drop_eq_nil_of_le (by omega)]
      exact Option.or_none
    | some record =>
      obtain ⟨inside, there⟩ := List.getElem?_eq_some_iff.mp found
      have split : records = records.take k ++ record :: records.drop (k + 1) := by
        rw [← there, ← List.drop_eq_getElem_cons inside, List.take_append_drop]
      have notOld : layout.idx record ≠ other := by
        rw [own record found]
        exact Ne.symm here
      conv_rhs => rw [split, SortedTable.findRow_append, SortedTable.findRow_cons_other notOld]

theorem own_of_proper (file : state.file = bytesOf records) (within : k ≤ records.length)
    (place : k * layout.size = state.file.length ∨
      ∃ record : layout.Record, readAt state.file (k * layout.size) layout.size = record.val ∧
        layout.idx record = index) :
    ∀ record, records[k]? = some record → layout.idx record = index := by
  intro record found
  obtain ⟨inside, _⟩ := List.getElem?_eq_some_iff.mp found
  rcases place with ended | ⟨there, chunk, own⟩
  · rw [file, bytesOf_length] at ended
    have equal := Nat.eq_of_mul_eq_mul_right layout.positive ended
    omega
  · rw [readAt_records file within, found] at chunk
    have equal : record = there := Subtype.ext chunk
    rw [equal]
    exact own

theorem write_kept (kept : Kept state records) {k : Nat} (member : state.calls[k]? = some call)
    (writing : call.pc = .write) (proper : Proper state (.proceed k row)) :
    ∃ records', Kept (state.step (.proceed k row)) records' := by
  obtain ⟨position, scanned, offset⟩ := kept.placed call (List.mem_of_getElem? member)
  simp only [writing] at offset
  have within : position ≤ records.length := by
    have bound := scanned.1
    rwa [List.length_map] at bound
  have place := proper call member writing
  rw [offset] at place
  have own := own_of_proper kept.right.file within place
  have same := layout.idx_setIdx call.index row
  have grown := replaced_indices own same
  have after : call.proceed state.file row =
      ({ call with pc := .closed, offset := call.offset + layout.size },
        bytesOf (records.take position ++ layout.setIdx call.index row ::
          records.drop (position + 1))) := by
    rw [← writeAt_record within, ← offset, ← kept.right.file]
    simp only [Call.proceed, writing]
  have stepped : state.step (.proceed k row) =
      ⟨(call.proceed state.file row).2, state.calls.set k (call.proceed state.file row).1,
        Function.update state.written call.index (some (layout.setIdx call.index row))⟩ := by
    simp only [State.step, member, writing, if_true]
  refine ⟨records.take position ++ layout.setIdx call.index row :: records.drop (position + 1), ?_⟩
  rw [stepped, after]
  constructor
  · constructor
    · rfl
    · exact replaced_distinct kept.right.distinct scanned own same
    · intro index
      rw [find_replaced scanned own same, kept.right.latest]
      exact (Function.update_apply _ _ _ _).symm
  · intro other inside
    rcases List.mem_or_eq_of_mem_set inside with old | closed
    · exact (kept.placed other old).grown grown
    · rw [closed]
      exact ⟨position, scanned.grown grown, trivial⟩

theorem step_kept (kept : Kept state records) (event : Event layout) (proper : Proper state event) :
    ∃ records', Kept (state.step event) records' := by
  cases event with
  | begin index memory =>
    refine ⟨records, ⟨kept.right.file, kept.right.distinct, kept.right.latest⟩, ?_⟩
    intro call inside
    rcases List.mem_append.mp inside with old | fresh
    · exact kept.placed call old
    · rw [List.mem_singleton.mp fresh]
      exact placed_callFor index memory
  | proceed k row =>
    cases found : state.calls[k]? with
    | none =>
      have stepped : state.step (.proceed k row) = state := by
        simp only [State.step, found]
      rw [stepped]
      exact ⟨records, kept⟩
    | some call =>
      by_cases writing : call.pc = .write
      · exact write_kept kept found writing proper
      · have stepped : state.step (.proceed k row) =
            ⟨state.file, state.calls.set k (call.proceed state.file row).1, state.written⟩ := by
          simp only [State.step, found, if_neg writing, file_proceed row writing]
        rw [stepped]
        refine ⟨records, ⟨kept.right.file, kept.right.distinct, kept.right.latest⟩, ?_⟩
        intro other inside
        rcases List.mem_or_eq_of_mem_set inside with old | moved
        · exact kept.placed other old
        · rw [moved]
          exact placed_proceed kept.right.file
            (kept.placed call (List.mem_of_getElem? found)) row

end Steps

section Load

variable {records rows : List layout.Record} {container : Container layout} {index : Nat}

theorem find_containerInsert (container : Container layout) (row : layout.Record) (index : Nat) :
    (containerInsert container row).find index =
      (container.find index).or (SortedTable.findRow layout.idx index [row]) := by
  unfold containerInsert
  by_cases here : layout.idx row = index
  · subst here
    rw [SortedTable.findRow_cons_self]
    cases there : container.find (layout.idx row) with
    | none =>
      rw [Option.isSome_none, if_neg Bool.false_ne_true, SortedTable.find_put_self]
      rfl
    | some old =>
      rw [Option.isSome_some, if_pos rfl, there]
      rfl
  · have other : SortedTable.findRow layout.idx index [row] = none := by
      rw [SortedTable.findRow_cons_other here]
      rfl
    rw [other, Option.or_none]
    split
    · rfl
    · exact SortedTable.find_put_other here

theorem find_inserted (rows : List layout.Record) (container : Container layout) (index : Nat) :
    (rows.foldl containerInsert container).find index =
      (container.find index).or (SortedTable.findRow layout.idx index rows) := by
  induction rows generalizing container with
  | nil => exact Option.or_none.symm
  | cons row rows ih =>
    calc
      ((row :: rows).foldl containerInsert container).find index =
          ((containerInsert container row).find index).or
            (SortedTable.findRow layout.idx index rows) := ih _
      _ = (container.find index).or (SortedTable.findRow layout.idx index (row :: rows)) := by
          rw [find_containerInsert, Option.or_assoc, ← SortedTable.findRow_append]
          rfl

theorem findRow_filter (test : layout.Record → Bool) (distinct : (records.map layout.idx).Nodup)
    (index : Nat) :
    SortedTable.findRow layout.idx index (records.filter test) =
      (SortedTable.findRow layout.idx index records).filter test := by
  induction records with
  | nil => rfl
  | cons record records ih =>
    obtain ⟨fresh, laterDistinct⟩ := List.nodup_cons.mp distinct
    have later := ih laterDistinct
    by_cases here : layout.idx record = index
    · subst here
      have absent : SortedTable.findRow layout.idx (layout.idx record) (records.filter test) =
          none := by
        rw [later, SortedTable.findRow_eq_none_iff.mpr fresh]
        rfl
      rw [SortedTable.findRow_cons_self]
      by_cases passes : test record = true
      · rw [List.filter_cons_of_pos passes, SortedTable.findRow_cons_self,
          Option.filter_some_pos passes]
      · have fails : test record = false := by simpa using passes
        rw [List.filter_cons_of_neg passes, absent, Option.filter_some_neg fails]
    · rw [SortedTable.findRow_cons_other here, ← later]
      by_cases passes : test record = true
      · rw [List.filter_cons_of_pos passes, SortedTable.findRow_cons_other here]
      · rw [List.filter_cons_of_neg passes]

def notDestroyed (row : layout.Record) : Bool := layout.logMonRowStatus row != 6

def active (row : layout.Record) : Bool := layout.logMonRowStatus row == 1

theorem readRecords_file (buffer : layout.Record) (records : List layout.Record) :
    readRecords buffer (bytesOf records).length (bytesOf records) = records := by
  apply readRecords_bytesOf layout.positive
  rw [bytesOf_length]
  exact Nat.le_mul_of_pos_right _ layout.positive

theorem find_loaded (distinct : (records.map layout.idx).Nodup) (tmp : List UInt8) (index : Nat) :
    (loadContainerFromFile layout (bytesOf records) tmp).1.find index =
      (SortedTable.findRow layout.idx index records).filter notDestroyed := by
  rw [← findRow_filter notDestroyed distinct]
  simp only [loadContainerFromFile, readRecords_file]
  rw [find_inserted, SortedTable.find_empty, Option.none_or]
  rfl

theorem file_not_rewritten (none : ∀ row ∈ records, layout.logMonRowStatus row ≠ 6)
    (tmp : List UInt8) :
    (loadContainerFromFile layout (bytesOf records) tmp).2 = bytesOf records := by
  have noneDestroyed : records.any (fun row => layout.logMonRowStatus row == 6) = false := by
    rw [List.any_eq_false]
    intro row member
    simpa using none row member
  simp only [loadContainerFromFile, readRecords_file, noneDestroyed, Bool.false_eq_true, if_false]

theorem file_rewritten {row : layout.Record} (member : row ∈ records)
    (destroyed : layout.logMonRowStatus row = 6) (tmp : List UInt8) :
    (loadContainerFromFile layout (bytesOf records) tmp).2 =
      overlay tmp (bytesOf (records.filter active)) := by
  have some : records.any (fun row => layout.logMonRowStatus row == 6) = true := by
    rw [List.any_eq_true]
    exact ⟨row, member, by simpa using destroyed⟩
  simp only [loadContainerFromFile, readRecords_file, some, if_true]
  rfl

theorem find_own {row : layout.Record} (distinct : (records.map layout.idx).Nodup)
    (member : row ∈ records) :
    SortedTable.findRow layout.idx (layout.idx row) records = some row := by
  induction records with
  | nil => exact absurd member List.not_mem_nil
  | cons first records ih =>
    obtain ⟨fresh, laterDistinct⟩ := List.nodup_cons.mp distinct
    rcases List.mem_cons.mp member with here | later
    · rw [here]
      exact SortedTable.findRow_cons_self first records
    · have other : layout.idx first ≠ layout.idx row := by
        intro same
        apply fresh
        rw [same]
        exact List.mem_map_of_mem later
      rw [SortedTable.findRow_cons_other other, ih laterDistinct later]

theorem reload_iff (distinct : (records.map layout.idx).Nodup) {tmp : List UInt8}
    (short : tmp.length ≤ (bytesOf (records.filter active)).length) (later : List UInt8) :
    (∀ index, (loadContainerFromFile layout
        (loadContainerFromFile layout (bytesOf records) tmp).2 later).1.find index =
      (loadContainerFromFile layout (bytesOf records) tmp).1.find index) ↔
      (∀ row ∈ records, layout.logMonRowStatus row ≠ 6) ∨
        ∀ row ∈ records, layout.logMonRowStatus row = 1 ∨ layout.logMonRowStatus row = 6 := by
  by_cases none : ∀ row ∈ records, layout.logMonRowStatus row ≠ 6
  · rw [file_not_rewritten none]
    constructor
    · intro _
      exact Or.inl none
    · intro _ index
      rw [find_loaded distinct, find_loaded distinct]
  · obtain ⟨gone, there, destroyed⟩ : ∃ row ∈ records, layout.logMonRowStatus row = 6 := by
      simpa using none
    have cut : overlay tmp (bytesOf (records.filter active)) = bytesOf (records.filter active) := by
      rw [overlay, List.drop_eq_nil_of_le short, List.append_nil]
    have keptDistinct : ((records.filter active).map layout.idx).Nodup :=
      distinct.sublist (List.filter_sublist.map layout.idx)
    have again : ∀ index, (loadContainerFromFile layout
        (bytesOf (records.filter active)) later).1.find index =
        ((SortedTable.findRow layout.idx index records).filter active).filter notDestroyed := by
      intro index
      rw [find_loaded keptDistinct, findRow_filter active distinct]
    rw [file_rewritten there destroyed, cut]
    constructor
    · intro same
      right
      intro row member
      by_cases alive : layout.logMonRowStatus row = 6
      · exact Or.inr alive
      · have found := same (layout.idx row)
        have passes : notDestroyed row = true := by simpa [notDestroyed] using alive
        rw [again, find_loaded distinct, find_own distinct member,
          Option.filter_some_pos passes] at found
        left
        by_contra notActive
        have fails : active row = false := by simpa [active] using notActive
        rw [Option.filter_some_neg fails] at found
        cases found
    · rintro (all | others) index
      · exact absurd destroyed (all gone there)
      · rw [again, find_loaded distinct]
        cases found : SortedTable.findRow layout.idx index records with
        | none => rfl
        | some row =>
          rcases others row (List.mem_of_find?_eq_some found) with one | six
          · have passes : active row = true := by simpa [active] using one
            rw [Option.filter_some_pos passes]
          · have fails : active row = false := by simp [active, six]
            have failsToo : notDestroyed row = false := by simp [notDestroyed, six]
            rw [Option.filter_some_neg fails, Option.filter_some_neg failsToo]
            rfl

end Load

section Runs

variable {start : State layout} {records : List layout.Record} {events : List (Event layout)}

theorem run_kept (kept : Kept start records)
    (proper : ∀ past event, past ++ [event] <+: events → Proper (start.run past) event) :
    ∀ past, past <+: events → ∃ current, Kept (start.run past) current := by
  intro past
  induction past using List.reverseRecOn with
  | nil => exact fun _ => ⟨records, kept⟩
  | append_singleton past event ih =>
    intro within
    obtain ⟨current, before⟩ := ih ((List.prefix_append past _).trans within)
    have stepped : start.run (past ++ [event]) = (start.run past).step event :=
      List.foldl_append
    rw [stepped]
    exact step_kept before event (proper past event within)

/-- No call is in progress, and the file has these records. -/
def fileOf (records : List layout.Record) : State layout :=
  ⟨bytesOf records, [], fun index => SortedTable.findRow layout.idx index records⟩

/-- In every interleaving in which each write finds its place free or its own, the file consists
of records of different rows, each with what was written last for it. A load yields the rows that
are not destroyed, and, when no longer temporary file is there, a second load yields the same
rows exactly when no row is destroyed or all others are active. -/
theorem data_file_kept (distinct : (records.map layout.idx).Nodup)
    (proper : ∀ past event, past ++ [event] <+: events → Proper ((fileOf records).run past) event) :
    ∀ past, past <+: events → ∃ current, Right ((fileOf records).run past) current ∧
      (∀ tmp index,
        (loadContainerFromFile layout ((fileOf records).run past).file tmp).1.find index =
          (((fileOf records).run past).written index).filter notDestroyed) ∧
      ∀ tmp later, tmp.length ≤ (bytesOf (current.filter active)).length →
        ((∀ index, (loadContainerFromFile layout (loadContainerFromFile layout
              ((fileOf records).run past).file tmp).2 later).1.find index =
            (loadContainerFromFile layout ((fileOf records).run past).file tmp).1.find index) ↔
          (∀ row ∈ current, layout.logMonRowStatus row ≠ 6) ∨
            ∀ row ∈ current, layout.logMonRowStatus row = 1 ∨ layout.logMonRowStatus row = 6) := by
  intro past within
  have kept : Kept (fileOf records) records := by
    constructor
    · exact ⟨rfl, distinct, fun _ => rfl⟩
    · intro call member
      exact absurd member List.not_mem_nil
  obtain ⟨current, now⟩ := run_kept kept proper past within
  refine ⟨current, now.right, ?_, ?_⟩
  · intro tmp index
    rw [now.right.file, find_loaded now.right.distinct, now.right.latest]
  · intro tmp later short
    rw [now.right.file]
    exact reload_iff now.right.distinct short later

/-- Rows of two bytes, the index and the status. -/
def twoBytes : Layout where
  size := 2
  positive := by decide
  oids := 256
  idx row := (row.val.headD 0).toNat
  logMonRowStatus row := ((row.val.getD 1 0).toNat : Int)
  setIdx index row := ⟨[UInt8.ofNat index, row.val.getD 1 0], rfl⟩
  idx_setIdx := by
    intro index row
    show (UInt8.ofNat index).toNat = index
    rw [UInt8.toNat_ofNat', Nat.mod_eq_of_lt index.isLt]

def withStatus (status : UInt8) : twoBytes.Record := ⟨[0, status], rfl⟩

/-- Row 1 is written as destroyed, then row 2 as not in service. -/
def destroyedAndWaiting : List (Event twoBytes) :=
  [.begin ⟨1, by decide⟩ (withStatus 0), .proceed 0 (withStatus 6), .proceed 0 (withStatus 6),
    .begin ⟨2, by decide⟩ (withStatus 0), .proceed 1 (withStatus 2), .proceed 1 (withStatus 2),
    .proceed 1 (withStatus 2), .proceed 1 (withStatus 2)]

/-- The second load misses the row that is not in service. -/
theorem waiting_row_lost :
    ¬∀ (layout : Layout) (events : List (Event layout)) tmp later index,
      (loadContainerFromFile layout (loadContainerFromFile layout
          ((fileOf []).run events).file tmp).2 later).1.find index =
        (loadContainerFromFile layout ((fileOf []).run events).file tmp).1.find index := by
  intro same
  have rows := same twoBytes destroyedAndWaiting [] [] 2
  exact absurd rows (by decide +kernel)

/-- Row 1 is written; then it is written again as destroyed while row 2 is written. -/
def threeWrites : List (Event twoBytes) :=
  [.begin ⟨1, by decide⟩ (withStatus 0), .proceed 0 (withStatus 1), .proceed 0 (withStatus 1),
    .begin ⟨2, by decide⟩ (withStatus 0), .begin ⟨1, by decide⟩ (withStatus 1),
    .proceed 1 (withStatus 1), .proceed 2 (withStatus 6), .proceed 1 (withStatus 1),
    .proceed 2 (withStatus 6), .proceed 1 (withStatus 1), .proceed 2 (withStatus 6),
    .proceed 1 (withStatus 1)]

theorem proper_of_each
    (each : ∀ k, ∀ within : k < events.length, Proper (start.run (events.take k)) events[k]) :
    ∀ past event, past ++ [event] <+: events → Proper (start.run past) event := by
  rintro past event ⟨rest, rfl⟩
  have here := each past.length (by simp)
  simpa using here

theorem data_file_kept_threeWrites :
    ((fileOf []).run threeWrites).file = [1, 6, 2, 1] ∧
      (∃ current, Right ((fileOf []).run threeWrites) current) ∧
      ∀ index, (loadContainerFromFile twoBytes ((fileOf []).run threeWrites).file []).1.find index =
        (((fileOf []).run threeWrites).written index).filter notDestroyed := by
  have proper : ∀ past event, past ++ [event] <+: threeWrites →
      Proper ((fileOf []).run past) event := proper_of_each (by decide +kernel)
  have distinct : (([] : List twoBytes.Record).map twoBytes.idx).Nodup := List.nodup_nil
  obtain ⟨current, right, loaded, _⟩ := data_file_kept distinct proper _ (List.prefix_refl _)
  exact ⟨by decide +kernel, ⟨current, right⟩, loaded []⟩

end Runs

end EveAgent.LogMon
