import EveAgent.RecordFile
import EveAgent.SortedTable

namespace EveAgent.ProcMon

open RecordFile SortedTable

section Source

/-- What the calls use of `psMonitorTable_context` as it lies in memory. -/
structure PsLayout where
  size : Nat
  positive : 0 < size
  idx : Block size → Nat
  psMonitorStatus : Block size → Int

variable {layout : PsLayout}

abbrev PsLayout.Row (layout : PsLayout) := Block layout.size

abbrev PsLayout.Container (layout : PsLayout) := SortedTable layout.Row layout.idx

def rowDestroy : Int := 6

def PsLayout.destroyed (layout : PsLayout) (row : layout.Row) : Bool :=
  layout.psMonitorStatus row == rowDestroy

/-- Where the row of this index is read, or where the file ends. -/
def placeOf (index : Nat) (stProcInFile : layout.Row) : Nat → List UInt8 → Nat → Nat
  | 0, _, ulPos => ulPos
  | fuel + 1, file, ulPos =>
    let chunk := readAt file ulPos layout.size
    let stProcInFile := fill stProcInFile chunk
    if chunk = [] then ulPos
    else if layout.idx stProcInFile = index then ulPos
    else placeOf index stProcInFile fuel file (ulPos + chunk.length)

/-- `ProcMon_UpdateDataFile` for a row that holds its index; `memory` is in the buffer before. -/
def updateDataFile (memory : layout.Row) (file : List UInt8) (row : layout.Row) : List UInt8 :=
  writeAt file (placeOf (layout.idx row) memory (file.length + 1) file 0) row.val

/-- The data file that these calls have written, one after the other. -/
def dataFile (memory : layout.Row) (rows : List layout.Row) : List UInt8 :=
  rows.foldl (updateDataFile memory) []

def zeroRow : layout.Row := ⟨List.replicate layout.size 0, List.length_replicate⟩

/-- Which calls of a load succeed, and the number of bytes that each `write` writes. -/
structure Outcome where
  dataOpens : Bool
  tmpOpens : Bool
  written : Nat → Nat
  renames : Bool

structure Disk where
  data : Option (List UInt8)
  tmp : Option (List UInt8)
  deriving DecidableEq, Repr

/-- What the writes of these rows put into a file, one behind the other. -/
def writtenBytes (written : Nat → Nat) : Nat → List layout.Row → List UInt8
  | _, [] => []
  | i, row :: rows => row.val.take (written i) ++ writtenBytes written (i + 1) rows

/-- The temporary file behind the attempt to write these rows: it is not cut when it is opened. -/
def tmpBehind (outcome : Outcome) (tmp : Option (List UInt8)) (kept : List layout.Row) :
    Option (List UInt8) :=
  if outcome.tmpOpens then some (overlay (tmp.getD []) (writtenBytes outcome.written 0 kept))
  else tmp

/-- `unlink` and `rename`. -/
def replaceData (outcome : Outcome) (tmp : Option (List UInt8)) : Disk :=
  match tmp with
  | some content => if outcome.renames then ⟨some content, none⟩ else ⟨none, some content⟩
  | none => ⟨none, none⟩

/-- `ProcMon_LoadContainerFromFile` -/
def loadContainerFromFile (layout : PsLayout) (outcome : Outcome) (disk : Disk) :
    layout.Container × Disk :=
  match disk.data, outcome.dataOpens with
  | some file, true =>
    let stReadCtx : List layout.Row := readRecords zeroRow file.length file
    let container := (stReadCtx.filter fun row => !layout.destroyed row).foldl insertNew
      SortedTable.empty
    if stReadCtx.any layout.destroyed then
      let again := readRecords (stReadCtx.getLastD zeroRow) file.length file
      let kept := again.filter fun row => !layout.destroyed row
      (container, replaceData outcome (tmpBehind outcome disk.tmp kept))
    else (container, disk)
  | _, _ => (SortedTable.empty, disk)

end Source

section Property

variable (layout : PsLayout)

def smooth : Outcome := ⟨true, true, fun _ => layout.size, true⟩

/-- The row that was written last for an index. -/
def lastWritten (rows : List layout.Row) (index : Nat) : Option layout.Row :=
  findRow layout.idx index rows.reverse

/-- The rows of the data file, each where its first one was. -/
def placedRows (rows : List layout.Row) : List layout.Row :=
  rows.foldl (fun placed row => placeRow layout.idx row placed) []

def keptRows (rows : List layout.Row) : List layout.Row :=
  (placedRows layout rows).filter fun row => !layout.destroyed row

/-- The temporary file is opened, and the rows are written as a whole. -/
def Complete (outcome : Outcome) (kept : List layout.Row) : Prop :=
  outcome.tmpOpens = true ∧ ∀ i < kept.length, layout.size ≤ outcome.written i

/-- The container has the rows that are not destroyed, the next start loads the same ones, and
without a complete temporary file the data file is still there. -/
structure Compacted (rows : List layout.Row) (file : List UInt8) (outcome : Outcome)
    (loaded : layout.Container × Disk) : Prop where
  container : ∀ index, loaded.1.find index =
    (lastWritten layout rows index).filter fun row => !layout.destroyed row
  reload : ∀ index, (loadContainerFromFile layout (smooth layout) loaded.2).1.find index =
    loaded.1.find index
  original : ¬ Complete layout outcome (keptRows layout rows) → loaded.2.data = some file

/-- The earlier temporary file ends with the rows that are written, or adds no row to them. -/
def AddsNone (tmp : List UInt8) (kept : List layout.Row) : Prop :=
  let rest := tmp.drop (bytesOf kept).length
  ∀ row ∈ readRecords (kept.getLastD zeroRow) rest.length rest,
    layout.destroyed row = true ∨ layout.idx row ∈ kept.map layout.idx

/-- Nothing is lost: the data file opens or has nothing to load; and nothing is destroyed, or the
temporary file is written and renamed and adds nothing, or what is renamed is the data file. -/
def Harmless (rows : List layout.Row) (file : List UInt8) (tmp : Option (List UInt8))
    (outcome : Outcome) : Prop :=
  let kept := keptRows layout rows
  (outcome.dataOpens = false ∧ kept = []) ∨
    (outcome.dataOpens = true ∧ ∀ row ∈ placedRows layout rows, layout.destroyed row = false) ∨
    (outcome.dataOpens = true ∧ Complete layout outcome kept ∧
      if outcome.renames then AddsNone layout (tmp.getD []) kept else kept = []) ∨
    (outcome.dataOpens = true ∧ ¬ Complete layout outcome kept ∧ outcome.renames = true ∧
      tmpBehind outcome tmp kept = some file)

end Property

section Writing

variable {layout : PsLayout} {rows : List layout.Row}

theorem row_not_empty (row : layout.Row) : row.val ≠ [] := by
  apply List.ne_nil_of_length_pos
  rw [row.property]
  exact layout.positive

theorem writeAt_placeOf (row : layout.Row) (front back : List layout.Row) (memory : layout.Row)
    {fuel : Nat} (enough : back.length < fuel) :
    writeAt (bytesOf (front ++ back)) (placeOf (layout.idx row) memory fuel
        (bytesOf (front ++ back)) (front.length * layout.size)) row.val =
      bytesOf (front ++ placeRow layout.idx row back) := by
  obtain ⟨fuel, rfl⟩ : ∃ more, fuel = more + 1 := Nat.exists_eq_succ_of_ne_zero (by omega)
  induction back generalizing front memory fuel with
  | nil =>
    have ended :
        readAt (bytesOf (front ++ [])) (front.length * layout.size) layout.size = [] := by
      rw [List.append_nil]
      exact readAt_end
    have place : placeOf (layout.idx row) memory (fuel + 1) (bytesOf (front ++ []))
        (front.length * layout.size) = front.length * layout.size := by
      rw [placeOf]
      exact if_pos ended
    rw [place, List.append_nil, writeAt_record le_rfl, List.take_length,
      List.drop_eq_nil_of_le (Nat.le_succ _)]
    rfl
  | cons first back ih =>
    rw [List.length_cons] at enough
    obtain ⟨fuel, rfl⟩ : ∃ more, fuel = more + 1 := Nat.exists_eq_succ_of_ne_zero (by omega)
    have inside : front.length < (front ++ first :: back).length := by
      rw [List.length_append, List.length_cons]
      omega
    have read : readAt (bytesOf (front ++ first :: back)) (front.length * layout.size)
        layout.size = first.val := by
      rw [readAt_inside inside, List.getElem_append_right le_rfl]
      simp
    have filled : fill memory first.val = first := by
      have whole := fill_record memory first []
      rwa [List.append_nil] at whole
    rw [placeOf, read]
    simp only [if_neg (row_not_empty first), filled]
    rw [placeRow]
    split
    · rename_i same
      have behind : (front ++ first :: back).drop (front.length + 1) = back := by
        rw [← List.drop_drop, List.drop_left' rfl]
        rfl
      rw [writeAt_record inside.le, List.take_left' rfl, behind]
    · have moved : front.length * layout.size + first.val.length =
          (front ++ [first]).length * layout.size := by
        rw [first.property, List.length_append, List.length_singleton, Nat.succ_mul]
      have later := ih (front ++ [first]) first fuel (by omega)
      rw [List.append_assoc, List.singleton_append, List.append_assoc] at later
      rw [moved]
      exact later

theorem placedRows_concat (rows : List layout.Row) (row : layout.Row) :
    placedRows layout (rows ++ [row]) = placeRow layout.idx row (placedRows layout rows) := by
  rw [placedRows, List.foldl_append]
  rfl

theorem dataFile_placed (memory : layout.Row) (rows : List layout.Row) :
    dataFile memory rows = bytesOf (placedRows layout rows) := by
  induction rows using List.reverseRecOn with
  | nil => rfl
  | append_singleton rows row ih =>
    have called : dataFile memory (rows ++ [row]) =
        updateDataFile memory (dataFile memory rows) row := by
      rw [dataFile, List.foldl_append]
      rfl
    have size := bytesOf_length (placedRows layout rows)
    have room := Nat.le_mul_of_pos_right (placedRows layout rows).length layout.positive
    have enough : (placedRows layout rows).length <
        (bytesOf (placedRows layout rows)).length + 1 := by omega
    have written := writeAt_placeOf row [] (placedRows layout rows) memory enough
    rw [called, ih, placedRows_concat, updateDataFile]
    simpa using written

theorem placedRows_distinct (rows : List layout.Row) :
    ((placedRows layout rows).map layout.idx).Nodup := by
  induction rows using List.reverseRecOn with
  | nil => exact List.nodup_nil
  | append_singleton rows row ih =>
    rw [placedRows_concat]
    exact placeRow_distinct ih row

theorem find_placedRows (rows : List layout.Row) (index : Nat) :
    findRow layout.idx index (placedRows layout rows) = lastWritten layout rows index := by
  induction rows using List.reverseRecOn with
  | nil => rfl
  | append_singleton rows row ih =>
    rw [placedRows_concat, findRow_placeRow, ih, lastWritten, lastWritten, List.reverse_append,
      List.reverse_singleton, findRow_append]

end Writing

section Loading

variable {layout : PsLayout} {rows records kept : List layout.Row} {outcome : Outcome} {disk : Disk}

def loadedRows (records : List layout.Row) : layout.Container :=
  (records.filter fun row => !layout.destroyed row).foldl insertNew SortedTable.empty

theorem find_loadedRows (records : List layout.Row) (index : Nat) :
    (loadedRows records).find index =
      findRow layout.idx index (records.filter fun row => !layout.destroyed row) := by
  rw [loadedRows, find_foldl_insertNew, SortedTable.find_empty, Option.none_or]

theorem readRecords_all (buffer : layout.Row) (records : List layout.Row) :
    readRecords buffer (bytesOf records).length (bytesOf records) = records := by
  apply readRecords_bytesOf layout.positive
  rw [bytesOf_length]
  exact Nat.le_mul_of_pos_right _ layout.positive

theorem load_absent (absent : disk.data = none) :
    loadContainerFromFile layout outcome disk = (SortedTable.empty, disk) := by
  rw [loadContainerFromFile, absent]

theorem load_unopened (unopened : outcome.dataOpens = false) :
    loadContainerFromFile layout outcome disk = (SortedTable.empty, disk) := by
  rw [loadContainerFromFile, unopened]
  split
  · rename_i opens
    cases opens
  · rfl

theorem load_container {file : List UInt8} (data : disk.data = some file)
    (opens : outcome.dataOpens = true) :
    (loadContainerFromFile layout outcome disk).1 =
      loadedRows (readRecords zeroRow file.length file) := by
  rw [loadContainerFromFile, data, opens]
  simp only
  split
  · rfl
  · rfl

theorem load_untouched (data : disk.data = some (bytesOf records))
    (opens : outcome.dataOpens = true) (none : ∀ row ∈ records, layout.destroyed row = false) :
    (loadContainerFromFile layout outcome disk).2 = disk := by
  have noneDestroyed : records.any layout.destroyed = false := by
    rw [List.any_eq_false]
    intro row member
    simpa using none row member
  rw [loadContainerFromFile, data, opens]
  simp only [readRecords_all, noneDestroyed, Bool.false_eq_true, if_false]

theorem load_rewritten (data : disk.data = some (bytesOf records))
    (opens : outcome.dataOpens = true) (some : ¬ ∀ row ∈ records, layout.destroyed row = false) :
    (loadContainerFromFile layout outcome disk).2 = replaceData outcome (tmpBehind outcome disk.tmp
      (records.filter fun row => !layout.destroyed row)) := by
  have someDestroyed : records.any layout.destroyed = true := by
    by_contra none
    apply some
    intro row member
    have each := List.any_eq_false.mp (Bool.not_eq_true _ ▸ none) row member
    simpa using each
  rw [loadContainerFromFile, data, opens]
  simp only [readRecords_all, someDestroyed, if_true]

theorem writtenBytes_complete {written : Nat → Nat} (i : Nat)
    (complete : ∀ j < kept.length, layout.size ≤ written (i + j)) :
    writtenBytes written i kept = bytesOf kept := by
  induction kept generalizing i with
  | nil => rfl
  | cons row kept ih =>
    have first := complete 0 (Nat.succ_pos _)
    rw [writtenBytes, bytesOf_cons, List.take_of_length_le (by rw [row.property]; exact first),
      ih]
    intro j inside
    have later := complete (j + 1) (Nat.succ_lt_succ inside)
    rwa [← Nat.add_assoc, Nat.add_right_comm] at later

theorem reload_iff (alive : ∀ row ∈ kept, layout.destroyed row = false)
    (tmp : List UInt8) :
    (∀ index, (loadedRows (readRecords (zeroRow : layout.Row)
        (overlay tmp (bytesOf kept)).length (overlay tmp (bytesOf kept)))).find index =
      findRow layout.idx index kept) ↔ AddsNone layout tmp kept := by
  simp only [AddsNone]
  generalize rest : tmp.drop (bytesOf kept).length = behind
  generalize read : readRecords (kept.getLastD zeroRow) behind.length behind = extra
  have records : readRecords (zeroRow : layout.Row) (overlay tmp (bytesOf kept)).length
      (overlay tmp (bytesOf kept)) = kept ++ extra := by
    rw [overlay, rest, readRecords_append layout.positive, read]
  have aliveKept : (kept.filter fun row => !layout.destroyed row) = kept := by
    rw [List.filter_eq_self]
    intro row member
    rw [alive row member]
    rfl
  have found : ∀ index, (loadedRows (kept ++ extra)).find index =
      (findRow layout.idx index kept).or
        (findRow layout.idx index (extra.filter fun row => !layout.destroyed row)) := by
    intro index
    rw [find_loadedRows, List.filter_append, aliveKept, findRow_append]
  rw [records]
  constructor
  · intro same row member
    cases destroyed : layout.destroyed row with
    | true => exact Or.inl rfl
    | false =>
      right
      by_contra absent
      have here := same (layout.idx row)
      rw [found, findRow_eq_none_iff.mpr absent, Option.none_or, findRow_eq_none_iff] at here
      apply here
      apply List.mem_map_of_mem
      rw [List.mem_filter, destroyed]
      exact ⟨member, rfl⟩
  · intro harmless index
    rw [found]
    cases there : findRow layout.idx index kept with
    | some row => rfl
    | none =>
      rw [Option.none_or, findRow_eq_none_iff, List.mem_map]
      rintro ⟨row, member, same⟩
      obtain ⟨inside, live⟩ := List.mem_filter.mp member
      rcases harmless row inside with destroyed | known
      · rw [destroyed] at live
        cases live
      · rw [same] at known
        exact findRow_eq_none_iff.mp there known

theorem absent_iff : (∀ index, (SortedTable.empty : layout.Container).find index =
    findRow layout.idx index kept) ↔ kept = [] := by
  constructor
  · intro same
    cases kept with
    | nil => rfl
    | cons row kept =>
      have here := same (layout.idx row)
      rw [findRow_cons_self, SortedTable.find_empty] at here
      cases here
  · intro none index
    rw [none]
    rfl

end Loading

section Results

variable {layout : PsLayout} {rows : List layout.Row} {outcome : Outcome}
  {tmp : Option (List UInt8)}

theorem keptRows_alive : ∀ row ∈ keptRows layout rows, layout.destroyed row = false := by
  intro row member
  have live := (List.mem_filter.mp member).2
  simpa using live

theorem find_keptRows (rows : List layout.Row) (index : Nat) :
    findRow layout.idx index (keptRows layout rows) =
      (lastWritten layout rows index).filter fun row => !layout.destroyed row := by
  rw [keptRows, findRow_filter _ (placedRows_distinct rows), find_placedRows]

theorem find_loaded (rows : List layout.Row) (opens : outcome.dataOpens = true) (index : Nat) :
    (loadContainerFromFile layout outcome ⟨some (bytesOf (placedRows layout rows)), tmp⟩).1.find
      index = findRow layout.idx index (keptRows layout rows) := by
  rw [load_container rfl opens, readRecords_all, find_loadedRows]
  rfl

theorem compacted_unopened (unopened : outcome.dataOpens = false) (memory : layout.Row) :
    Compacted layout rows (dataFile memory rows) outcome
      (loadContainerFromFile layout outcome ⟨some (dataFile memory rows), tmp⟩) ↔
        keptRows layout rows = [] := by
  rw [dataFile_placed, load_unopened unopened, ← absent_iff]
  constructor
  · intro compacted index
    rw [find_keptRows]
    exact compacted.container index
  · intro none
    refine ⟨?_, ?_, fun _ => rfl⟩
    · intro index
      rw [← find_keptRows]
      exact none index
    · intro index
      rw [find_loaded rows rfl]
      exact (none index).symm

theorem compacted_opened (opens : outcome.dataOpens = true) (memory : layout.Row) :
    Compacted layout rows (dataFile memory rows) outcome
      (loadContainerFromFile layout outcome ⟨some (dataFile memory rows), tmp⟩) ↔
        let left := (loadContainerFromFile layout outcome ⟨some (dataFile memory rows), tmp⟩).2
        (∀ index, (loadContainerFromFile layout (smooth layout) left).1.find index =
          findRow layout.idx index (keptRows layout rows)) ∧
        (¬ Complete layout outcome (keptRows layout rows) →
          left.data = some (dataFile memory rows)) := by
  rw [dataFile_placed]
  have found := @find_loaded layout outcome tmp rows opens
  constructor
  · intro compacted
    refine ⟨?_, compacted.original⟩
    intro index
    rw [compacted.reload, found]
  · rintro ⟨reload, original⟩
    refine ⟨?_, ?_, original⟩
    · intro index
      rw [found, find_keptRows]
    · intro index
      rw [reload, found]

theorem reload_complete_iff (complete : Complete layout outcome (keptRows layout rows)) :
    (∀ index, (loadContainerFromFile layout (smooth layout) (replaceData outcome
        (tmpBehind outcome tmp (keptRows layout rows)))).1.find index =
      findRow layout.idx index (keptRows layout rows)) ↔
        if outcome.renames = true then AddsNone layout (tmp.getD []) (keptRows layout rows)
        else keptRows layout rows = [] := by
  have written : tmpBehind outcome tmp (keptRows layout rows) =
      some (overlay (tmp.getD []) (bytesOf (keptRows layout rows))) := by
    rw [tmpBehind, if_pos complete.1, writtenBytes_complete]
    intro j inside
    rw [Nat.zero_add]
    exact complete.2 j inside
  rw [written, replaceData]
  split
  · rw [← reload_iff keptRows_alive, load_container rfl rfl]
  · rw [load_absent rfl]
    exact absent_iff

theorem reload_incomplete_iff :
    (∀ index, (loadContainerFromFile layout (smooth layout) (replaceData outcome
        (tmpBehind outcome tmp (keptRows layout rows)))).1.find index =
      findRow layout.idx index (keptRows layout rows)) ∧
      (replaceData outcome (tmpBehind outcome tmp (keptRows layout rows))).data =
        some (bytesOf (placedRows layout rows)) ↔
      outcome.renames = true ∧
        tmpBehind outcome tmp (keptRows layout rows) =
          some (bytesOf (placedRows layout rows)) := by
  constructor
  · rintro ⟨-, original⟩
    unfold replaceData at original
    split at original
    · rename_i content behind
      split at original
      · rename_i renames
        rw [behind]
        exact ⟨renames, original⟩
      · cases original
    · cases original
  · rintro ⟨renames, behind⟩
    rw [behind, replaceData]
    simp only [renames, if_true, and_true]
    exact find_loaded rows rfl

/-- A load loses no row, now or at the next start, exactly when the data file opens or has nothing
to load, and either nothing is destroyed, or the temporary file is complete, becomes the data file
and has no other rows, or the file that becomes the data file is the same one. -/
theorem compaction_safe_iff (layout : PsLayout) (memory : layout.Row) (rows : List layout.Row)
    (tmp : Option (List UInt8)) (outcome : Outcome) :
    Compacted layout rows (dataFile memory rows) outcome
        (loadContainerFromFile layout outcome ⟨some (dataFile memory rows), tmp⟩) ↔
      Harmless layout rows (dataFile memory rows) tmp outcome := by
  unfold Harmless
  cases opens : outcome.dataOpens with
  | false =>
    rw [compacted_unopened opens]
    simp
  | true =>
    rw [compacted_opened opens, dataFile_placed]
    simp only [Bool.true_eq_false, false_and, false_or, true_and]
    by_cases untouched : ∀ row ∈ placedRows layout rows, layout.destroyed row = false
    · rw [load_untouched rfl opens untouched]
      constructor
      · exact fun _ => Or.inl untouched
      · intro _
        exact ⟨find_loaded rows rfl, fun _ => rfl⟩
    · rw [load_rewritten rfl opens untouched]
      show _ ∧ (¬ Complete layout outcome (keptRows layout rows) → (replaceData outcome
        (tmpBehind outcome tmp (keptRows layout rows))).data = _) ↔ _
      simp only [untouched, false_or]
      by_cases complete : Complete layout outcome (keptRows layout rows)
      · simp only [complete, not_true_eq_false, false_implies, and_true, true_and, false_and,
          or_false]
        exact reload_complete_iff complete
      · simp only [complete, not_false_eq_true, true_implies, false_and, true_and, false_or]
        exact reload_incomplete_iff

def pairLayout : PsLayout where
  size := 2
  positive := Nat.two_pos
  idx row := (row.val.headD 0).toNat
  psMonitorStatus row := (row.val.getLastD 0).toNat

def pairRows : List pairLayout.Row := [⟨[1, 6], rfl⟩, ⟨[2, 1], rfl⟩]

def tmpRefused : Outcome := { smooth pairLayout with tmpOpens := false }

/-- The data file is removed although nothing takes its place. -/
theorem unlinked_without_tmp :
    ¬ Compacted pairLayout pairRows (dataFile zeroRow pairRows) tmpRefused
      (loadContainerFromFile pairLayout tmpRefused ⟨some (dataFile zeroRow pairRows), none⟩) := by
  intro compacted
  have gone : (loadContainerFromFile pairLayout tmpRefused
      ⟨some (dataFile zeroRow pairRows), none⟩).2.data = none := by decide
  have refused : ¬ Complete pairLayout tmpRefused (keptRows pairLayout pairRows) := by
    rintro ⟨opened, -⟩
    cases opened
  have original := compacted.original refused
  rw [gone] at original
  cases original

end Results

end EveAgent.ProcMon
