import EveAgent.Nuri.FreedOnce
import EveAgent.Nuri.RunningTable

/-! The table of network interfaces: a line of `/proc/net/dev` is taken for each interface in the
order of the indices. -/

namespace EveAgent.Nuri

open ArrayHeap IndexWalk

section Interfaces

/-- An interface with its line in `/proc/net/dev`. -/
structure Device where
  index : Nat
  paddr : List Nat
  ulRBytes : Nat
  ulRPkts : Nat
  ulRErrs : Nat
  ulTBytes : Nat
  ulTPkts : Nat
  ulTErrs : Nat
  ulColls : Nat
  deriving DecidableEq, Repr

inductive NetColumn where
  | networkIndex
  | networkNicId
  | networkProtocol
  | networkInPackets
  | networkOutPackets
  | networkErrorCount
  | networkInBytes
  | networkOutBytes
  | networkCollisionsRate
  deriving DecidableEq, Repr

inductive NetValue where
  | number (value : Nat)
  | address (paddr : List Nat)
  deriving DecidableEq, Repr

def NetColumn.figure (column : NetColumn) (device : Device) : Option Nat :=
  match column with
  | .networkIndex => none
  | .networkNicId => none
  | .networkProtocol => none
  | .networkInPackets => some device.ulRPkts
  | .networkOutPackets => some device.ulTPkts
  | .networkErrorCount => some ((device.ulRErrs + device.ulTErrs) % 2 ^ 64)
  | .networkInBytes => some device.ulRBytes
  | .networkOutBytes => some device.ulTBytes
  | .networkCollisionsRate => some device.ulColls

/-- The answer with the index found and the line looked at. -/
def NetColumn.answer (column : NetColumn) (iNetIdx : Nat) (line : Device) : Answer NetValue :=
  match column with
  | .networkIndex => .row iNetIdx (.number iNetIdx)
  -- The address stands in an array that is gone when the function has returned.
  | .networkNicId => .fault
  | column =>
    match column.figure line with
    | none => .null
    | some value => .row iNetIdx (.number value)

/-- The rows of the interface table, in ascending order. -/
def ifTable (devices : List Device) : List Nat :=
  (devices.map Device.index).insertionSort (· ≤ ·)

/-- The answer of `var_networkTable`, while the file and the interface table agree. -/
def networkAnswer (column : NetColumn) (request : Request) (devices : List Device)
    (table : Table) : Table × Answer NetValue :=
  (var_networkTable table request (ifTable devices) (some devices.length),
    match (networkTable_Init table (some devices.length)).search request
        (Interface_Scan_Next (ifTable devices)) with
    | (_, none) => .null
    | (found, some iNetIdx) =>
      match found.stat with
      | none => .fault
      | some (_, i) =>
        match devices[i]? with
        | none => .fault
        | some line => column.answer iNetIdx line)

def NetColumn.own (column : NetColumn) (device : Device) : Option NetValue :=
  match column with
  | .networkIndex => some (.number device.index)
  | .networkNicId => some (.address device.paddr)
  | column => (column.figure device).map .number

structure Interfaces where
  devices : List Device
  distinct : (devices.map Device.index).Nodup
  positive : ∀ device ∈ devices, 0 < device.index

def Interfaces.own (interfaces : Interfaces) (column : NetColumn) (index : Nat) :
    Option NetValue :=
  (interfaces.devices.find? (·.index = index)).bind column.own

def Interfaces.getNext (interfaces : Interfaces) (column : NetColumn) (oid : List Nat)
    (table : Table) (last : Option Nat) : Table × Answer NetValue :=
  networkAnswer column (Request.after oid last) interfaces.devices table

/-- The indices as the scan hands them out, one for each line of the file. -/
def Interfaces.scanned (interfaces : Interfaces) : List Nat :=
  (List.range interfaces.devices.length).map fun i =>
    Interface_Scan_Next (ifTable interfaces.devices) (i + 1)

/-- There is a value, every index comes through the scan as it is, and the lines of the file stand
in the order of the indices as far as the column shows it. -/
structure Interfaces.Walkable (interfaces : Interfaces) (column : NetColumn) : Prop where
  address : column ≠ .networkNicId
  protocol : column ≠ .networkProtocol
  scanned : interfaces.scanned = ifTable interfaces.devices
  ordered : column ≠ .networkIndex →
    interfaces.devices.map column.own = (ifTable interfaces.devices).map (interfaces.own column)

end Interfaces

section Search

variable {table : Table} {request : Request} {indexOf : Nat → Nat}

/-- The row that a search ends with is the first that answers. -/
structure First (request : Request) (indexOf : Nat → Nat) (table : Table)
    (result : Table × Option Nat) : Prop where
  missing : result.2 = none →
    ∀ i, table.idx ≤ i + 1 → i < table.cnt → request.finds (indexOf (i + 1)) = false
  found : ∀ index, result.2 = some index → ∃ i < table.cnt,
    result.1.stat = some (table.first, i) ∧ index = indexOf (i + 1) ∧
      request.finds index = true ∧
      ∀ j, table.idx ≤ j + 1 → j < i → request.finds (indexOf (j + 1)) = false

theorem Table.header_first (request : Request) (indexOf : Nat → Nat) (fuel : Nat) (table : Table)
    (started : 1 ≤ table.idx) (enough : table.cnt + 1 ≤ table.idx + fuel) :
    First request indexOf table (table.header request indexOf fuel) := by
  induction fuel generalizing table with
  | zero =>
    constructor
    · intro _ i since below
      omega
    · intro index found
      cases found
  | succ fuel ih =>
    rw [Table.header, Table.getNext]
    by_cases more : table.idx ≤ table.cnt
    · rw [if_pos more]
      have place : table.idx - 1 + 1 = table.idx := Nat.sub_add_cancel started
      simp only
      split
      · next finds =>
          constructor
          · intro missing
            cases missing
          · intro index found
            refine ⟨table.idx - 1, by omega, rfl, ?_, ?_, ?_⟩
            · rw [place]
              exact (Option.some.inj found).symm
            · rw [← Option.some.inj found]
              exact finds
            · intro j since before
              omega
      · next other =>
          have next := ih { table with
            stat := some (table.first, table.idx - 1), idx := table.idx + 1 }
            (Nat.le_add_left 1 table.idx) (by simp only; omega)
          have skipped : ∀ j, j + 1 = table.idx → request.finds (indexOf (j + 1)) = false := by
            intro j same
            rw [same]
            exact Bool.eq_false_iff.mpr other
          constructor
          · intro missing i since below
            rcases Nat.eq_or_lt_of_le since with same | later
            · exact skipped i same.symm
            · exact next.missing missing i later below
          · intro index found
            obtain ⟨i, below, stat, same, finds, earlier⟩ := next.found index found
            refine ⟨i, below, stat, same, finds, ?_⟩
            intro j since before
            rcases Nat.eq_or_lt_of_le since with here | later
            · exact skipped j here.symm
            · exact earlier j later before
    · rw [if_neg more]
      constructor
      · intro _ i since below
        omega
      · intro index found
        cases found

theorem Table.search_first (request : Request) (indexOf : Nat → Nat) (table : Table)
    (started : table.idx = 1) : First request indexOf table (table.search request indexOf) :=
  Table.header_first request indexOf (table.cnt + 1) table (Nat.le_of_eq started.symm)
    (by omega)

end Search

section Indices

variable {interfaces : Interfaces} {column : NetColumn} {oid : List Nat} {index : Nat}

theorem ifTable_length (devices : List Device) : (ifTable devices).length = devices.length := by
  rw [ifTable, List.length_insertionSort, List.length_map]

theorem Interfaces.scanned_length (interfaces : Interfaces) :
    interfaces.scanned.length = interfaces.devices.length := by
  rw [Interfaces.scanned, List.length_map, List.length_range]

theorem mem_ifTable {devices : List Device} :
    index ∈ ifTable devices ↔ ∃ device ∈ devices, device.index = index := by
  rw [ifTable, (List.perm_insertionSort _ _).mem_iff, List.mem_map]

theorem Interfaces.nodup (interfaces : Interfaces) : (ifTable interfaces.devices).Nodup :=
  (List.perm_insertionSort _ _).nodup_iff.mpr interfaces.distinct

theorem Interfaces.ascending (interfaces : Interfaces) :
    (ifTable interfaces.devices).Pairwise (· < ·) := by
  have sorted : (ifTable interfaces.devices).Pairwise (· ≤ ·) :=
    List.pairwise_insertionSort _ _
  have apart := interfaces.nodup
  apply (sorted.and apart).imp
  rintro first second ⟨le, different⟩
  exact Nat.lt_of_le_of_ne le different

theorem place_le {indices : List Nat} (ascending : indices.Pairwise (· < ·))
    (positive : ∀ index ∈ indices, 0 < index) (i : Nat) (below : i < indices.length) :
    i + 1 ≤ indices[i] := by
  induction i with
  | zero => exact positive _ (List.getElem_mem below)
  | succ i ih =>
    have before := ih (Nat.lt_of_succ_lt below)
    have next := List.pairwise_iff_getElem.mp ascending i (i + 1) (Nat.lt_of_succ_lt below) below
      (Nat.lt_succ_self i)
    omega

theorem mask_le (index : Nat) : index &&& 0x8fff ≤ index % 65536 := by
  have bits : 0x8fff = (2 ^ 16 - 1) &&& 0x8fff := by decide
  calc
    index &&& 0x8fff = index &&& ((2 ^ 16 - 1) &&& 0x8fff) := congrArg (index &&& ·) bits
    _ = (index &&& (2 ^ 16 - 1)) &&& 0x8fff := (Nat.and_assoc _ _ _).symm
    _ ≤ index &&& (2 ^ 16 - 1) := Nat.and_le_left
    _ = index % 65536 := Nat.and_two_pow_sub_one_eq_mod index 16

theorem Interfaces.scan_le (interfaces : Interfaces) (i : Nat)
    (below : i < (ifTable interfaces.devices).length) :
    Interface_Scan_Next (ifTable interfaces.devices) (i + 1) ≤
      (ifTable interfaces.devices)[i] := by
  have positive : ∀ index ∈ ifTable interfaces.devices, 0 < index := by
    intro index member
    obtain ⟨device, listed, same⟩ := mem_ifTable.mp member
    rw [← same]
    exact interfaces.positive device listed
  have place := place_le interfaces.ascending positive i below
  have masked := mask_le (ifTable interfaces.devices)[i]
  have there : (ifTable interfaces.devices)[i + 1 - 1]? = some (ifTable interfaces.devices)[i] := by
    rw [Nat.add_sub_cancel, List.getElem?_eq_getElem below]
  rw [Interface_Scan_Next, there, Option.getD_some]
  have high : (i + 1) / 65536 ≤ (ifTable interfaces.devices)[i] / 65536 :=
    Nat.div_le_div_right place
  have whole := Nat.div_add_mod' (ifTable interfaces.devices)[i] 65536
  calc
    (i + 1) / 65536 * 65536 + ((ifTable interfaces.devices)[i] &&& 0x8fff) ≤
        (ifTable interfaces.devices)[i] / 65536 * 65536 +
          (ifTable interfaces.devices)[i] % 65536 :=
      Nat.add_le_add (Nat.mul_le_mul_right 65536 high) masked
    _ = (ifTable interfaces.devices)[i] := whole

theorem eq_of_le_of_sum {first second : List Nat} (le : List.Forall₂ (· ≤ ·) first second)
    (sum : first.sum = second.sum) : first = second := by
  induction le with
  | nil => rfl
  | cons head tail ih =>
    have rest := tail.sum_le_sum
    rw [List.sum_cons, List.sum_cons] at sum
    rw [ih (by omega)]
    congr 1
    omega

theorem Interfaces.scanned_eq (interfaces : Interfaces)
    (all : ∀ index ∈ ifTable interfaces.devices, index ∈ interfaces.scanned) :
    interfaces.scanned = ifTable interfaces.devices := by
  have long : interfaces.scanned.length = (ifTable interfaces.devices).length := by
    rw [interfaces.scanned_length, ifTable_length]
  have perm : (ifTable interfaces.devices).Perm interfaces.scanned :=
    (interfaces.nodup.subperm all).perm_of_length_le (Nat.le_of_eq long)
  apply eq_of_le_of_sum
  · rw [List.forall₂_iff_get]
    constructor
    · exact long
    · intro i first second
      rw [List.get_eq_getElem, List.get_eq_getElem]
      simp only [Interfaces.scanned, List.getElem_map, List.getElem_range]
      exact interfaces.scan_le i second
  · exact perm.sum_eq.symm

theorem Interfaces.own_device (interfaces : Interfaces) {device : Device}
    (member : device ∈ interfaces.devices) (column : NetColumn) :
    interfaces.own column device.index = column.own device := by
  have found : interfaces.devices.find? (·.index = device.index) = some device := by
    cases result : interfaces.devices.find? (·.index = device.index) with
    | none =>
      have missed := List.find?_eq_none.mp result device member
      simp at missed
    | some other =>
      have same : other.index = device.index := by
        simpa using List.find?_some result
      rw [List.inj_on_of_nodup_map interfaces.distinct (List.mem_of_find?_eq_some result) member
        same]
  rw [Interfaces.own, found]
  rfl

end Indices

section Walks

variable {interfaces : Interfaces} {column : NetColumn} {oid : List Nat}

theorem networkTable_Init_cnt (table : Table) (n : Nat) :
    (networkTable_Init table (some n)).cnt = n ∧ (networkTable_Init table (some n)).idx = 1 := by
  rw [networkTable_Init, networkTable_GetNet, Table.load, Table.fill]
  by_cases empty : n = 0
  · rw [if_pos empty, empty]
    exact ⟨rfl, rfl⟩
  · rw [if_neg empty]
    exact ⟨rfl, rfl⟩

/-- The index that the scan hands out for a line. -/
def Interfaces.scan (interfaces : Interfaces) (i : Nat) : Nat :=
  Interface_Scan_Next (ifTable interfaces.devices) (i + 1)

theorem Interfaces.getNext_cases (interfaces : Interfaces) (column : NetColumn) (oid : List Nat)
    (table : Table) (last : Option Nat) :
    ((interfaces.getNext column oid table last).2 = .null ∧
        ∀ i < interfaces.devices.length, ¬Behind last (interfaces.scan i)) ∨
      ∃ i, ∃ below : i < interfaces.devices.length, Behind last (interfaces.scan i) ∧
        (∀ j < i, ¬Behind last (interfaces.scan j)) ∧
        (interfaces.getNext column oid table last).2 =
          column.answer (interfaces.scan i) interfaces.devices[i] := by
  obtain ⟨count, started⟩ := networkTable_Init_cnt table interfaces.devices.length
  have first := Table.search_first (Request.after oid last)
    (Interface_Scan_Next (ifTable interfaces.devices)) _ started
  rw [Interfaces.getNext, networkAnswer]
  cases result : (networkTable_Init table (some interfaces.devices.length)).search
      (Request.after oid last) (Interface_Scan_Next (ifTable interfaces.devices)) with
  | mk next found =>
    rw [result] at first
    cases found with
    | none =>
      apply Or.inl
      constructor
      · rfl
      · intro i below behind
        rw [Interfaces.scan] at behind
        have missed := first.missing rfl i (by omega) (by rw [count]; exact below)
        rw [(finds_after oid last _).mpr behind] at missed
        cases missed
    | some index =>
      obtain ⟨i, below, stat, same, finds, earlier⟩ := first.found index rfl
      rw [count] at below
      apply Or.inr
      refine ⟨i, below, ?_, ?_, ?_⟩
      · rw [Interfaces.scan, ← same]
        exact (finds_after oid last index).mp finds
      · intro j before behind
        rw [Interfaces.scan] at behind
        have missed := earlier j (by omega) before
        rw [(finds_after oid last _).mpr behind] at missed
        cases missed
      · simp only at stat
        simp only [stat, List.getElem?_eq_getElem below, same, Interfaces.scan]

theorem answer_own (address : column ≠ .networkNicId) (protocol : column ≠ .networkProtocol)
    (other : column ≠ .networkIndex) (index : Nat) (line : Device) :
    ∃ value, column.own line = some value ∧ column.answer index line = .row index value := by
  cases column with
  | networkIndex => exact absurd rfl other
  | networkNicId => exact absurd rfl address
  | networkProtocol => exact absurd rfl protocol
  | _ => exact ⟨_, rfl, rfl⟩

theorem answer_row {index given : Nat} {line : Device} {value : NetValue}
    (answer : column.answer index line = .row given value) :
    given = index ∧ column ≠ .networkNicId ∧ column ≠ .networkProtocol ∧
      (column ≠ .networkIndex → column.own line = some value) := by
  cases column with
  | networkNicId => cases answer
  | networkProtocol => cases answer
  | networkIndex =>
    cases answer
    simp
  | _ =>
    cases answer
    simp [NetColumn.own, NetColumn.figure]

theorem Interfaces.scan_eq (scanned : interfaces.scanned = ifTable interfaces.devices) (i : Nat)
    (below : i < interfaces.devices.length) :
    (ifTable interfaces.devices)[i]? = some (interfaces.scan i) := by
  rw [← scanned, Interfaces.scanned, List.getElem?_map, List.getElem?_range below]
  rfl

theorem Interfaces.Walkable.value (walkable : interfaces.Walkable column) (i : Nat)
    (below : i < interfaces.devices.length) :
    ∃ value, interfaces.own column (interfaces.scan i) = some value ∧
      column.answer (interfaces.scan i) interfaces.devices[i] =
        .row (interfaces.scan i) value := by
  have there := Interfaces.scan_eq walkable.scanned i below
  by_cases index : column = .networkIndex
  · obtain ⟨device, member, same⟩ := mem_ifTable.mp (List.mem_of_getElem? there)
    apply Exists.intro (.number (interfaces.scan i))
    constructor
    · rw [← same, interfaces.own_device member, index]
      rfl
    · rw [index]
      rfl
  · obtain ⟨value, own, answer⟩ := answer_own walkable.address walkable.protocol index
      (interfaces.scan i) interfaces.devices[i]
    apply Exists.intro value
    constructor
    · have equal := congrArg (·[i]?) (walkable.ordered index)
      simp only [List.getElem?_map, there, List.getElem?_eq_getElem below, Option.map_some,
        Option.some.injEq] at equal
      rw [← equal]
      exact own
    · exact answer

theorem Interfaces.Walkable.steps (walkable : interfaces.Walkable column) (oid : List Nat) :
    Steps (interfaces.getNext column oid) (fun _ => True) (ifTable interfaces.devices)
      (interfaces.own column) := by
  constructor
  · intro table last _ passed
    rcases interfaces.getNext_cases column oid table last with ⟨null, _⟩ | ⟨i, below, behind, _⟩
    · exact null
    · exact absurd behind
        (passed _ (List.mem_of_getElem? (Interfaces.scan_eq walkable.scanned i below)))
  · intro table last index _ next
    obtain ⟨k, inside, place⟩ := List.getElem_of_mem next.present
    have within : k < interfaces.devices.length := by
      rw [← ifTable_length]
      exact inside
    have found : interfaces.scan k = index := by
      have there := Interfaces.scan_eq walkable.scanned k within
      rw [List.getElem?_eq_getElem inside, place] at there
      exact (Option.some.inj there).symm
    rcases interfaces.getNext_cases column oid table last with
      ⟨_, passed⟩ | ⟨i, below, behind, earlier, answer⟩
    · have behind := next.behind
      rw [← found] at behind
      exact absurd behind (passed k within)
    · have order : k = i := by
        rcases Nat.lt_trichotomy k i with before | same | after
        · have behind := next.behind
          rw [← found] at behind
          exact absurd behind (earlier k before)
        · exact same
        · have listed := Interfaces.scan_eq walkable.scanned i below
          have least := next.least _ (List.mem_of_getElem? listed) behind
          have inner : i < (ifTable interfaces.devices).length := Nat.lt_trans after inside
          have above := List.pairwise_iff_getElem.mp interfaces.ascending i k inner inside after
          rw [List.getElem?_eq_getElem inner] at listed
          rw [Option.some.inj listed, place] at above
          exact absurd least (Nat.not_le.mpr above)
      rw [order] at found
      obtain ⟨value, own, row⟩ := walkable.value i below
      rw [found] at own row answer
      rw [row] at answer
      exact ⟨value, answer, own, trivial⟩

/-- A walk visits every interface once, in ascending order and with its own values, exactly where
the table is walkable for the column, or has no rows. -/
theorem Interfaces.walks_iff (interfaces : Interfaces) (column : NetColumn) (oid : List Nat)
    (table : Table) :
    Walks (interfaces.getNext column oid) table (ifTable interfaces.devices)
        (interfaces.own column) ↔
      interfaces.devices = [] ∨ interfaces.Walkable column := by
  constructor
  · rintro ⟨fuel, rows, ended, visits⟩
    -- Every index of the table was answered from some line of the file.
    have answered : ∀ index ∈ ifTable interfaces.devices, ∃ i,
        ∃ below : i < interfaces.devices.length, interfaces.scan i = index ∧ ∃ value,
          interfaces.own column index = some value ∧ column ≠ .networkNicId ∧
          column ≠ .networkProtocol ∧
          (column ≠ .networkIndex → column.own interfaces.devices[i] = some value) := by
      intro index member
      obtain ⟨row, listed, same⟩ := List.mem_map.mp ((visits.visited index).mpr member)
      obtain ⟨state, last, _, answer⟩ :=
        mem_walk (fun _ => True) (fun _ _ _ _ _ _ => trivial) trivial ended listed
      rcases interfaces.getNext_cases column oid state last with
        ⟨null, _⟩ | ⟨i, below, _, _, found⟩
      · rw [null] at answer
        cases answer
      · rw [found] at answer
        obtain ⟨given, address, protocol, own⟩ := answer_row answer
        have value := visits.values row listed
        rw [same] at value given
        exact ⟨i, below, given.symm, row.2, value, address, protocol, own⟩
    cases listing : interfaces.devices with
    | nil => exact Or.inl rfl
    | cons first rest =>
      apply Or.inr
      have member : first ∈ interfaces.devices := by
        rw [listing]
        exact List.mem_cons_self
      obtain ⟨_, _, _, _, _, address, protocol, _⟩ :=
        answered first.index (mem_ifTable.mpr ⟨first, member, rfl⟩)
      have scanned : interfaces.scanned = ifTable interfaces.devices := by
        apply interfaces.scanned_eq
        intro index present
        obtain ⟨i, below, same, _⟩ := answered index present
        rw [← same]
        exact List.mem_map.mpr ⟨i, List.mem_range.mpr below, rfl⟩
      constructor
      · exact address
      · exact protocol
      · exact scanned
      · intro other
        have long := ifTable_length interfaces.devices
        apply List.ext_getElem
        · rw [List.length_map, List.length_map, long]
        · intro k first second
          rw [List.length_map] at first second
          rw [List.getElem_map, List.getElem_map]
          obtain ⟨i, below, same, value, own, _, _, line⟩ :=
            answered _ (List.getElem_mem second)
          have there := Interfaces.scan_eq scanned i below
          rw [same, ← List.getElem?_eq_getElem second] at there
          have inside : i < (ifTable interfaces.devices).length := by
            rw [long]
            exact below
          have order : i = k := (List.getElem?_inj inside interfaces.nodup).mp there
          rw [own]
          simp only [order] at line
          exact line other
  · rintro (nobody | walkable)
    · apply Steps.walks (fun _ => True) _ trivial
      constructor
      · intro table last _ _
        rcases interfaces.getNext_cases column oid table last with ⟨null, _⟩ | ⟨i, below, _⟩
        · exact null
        · rw [nobody] at below
          cases below
      · intro table last index _ next
        have present := next.present
        rw [nobody] at present
        cases present
    · exact (walkable.steps oid).walks _ trivial

end Walks

section Rows

/-- Each row walked to is the row of its index, exactly under these conditions; and a process that
is gone when its file is read has no value exactly where the request is a safe one. -/
theorem rows_of_their_index (oid : List Nat) :
    (∀ (population : Population) (column : PsColumn) (system : PsSystem)
        (statics : PsStatics),
      Walks (population.getNext column oid system) statics (live population.proc)
          (population.own column system statics) ↔
        live population.proc = [] ∨ population.Walkable column system statics) ∧
      (∀ (column : PsColumn) (request : Request) (proc : Option (List Nat))
          (entries : Nat → ProcEntry) (system : PsSystem) (statics : PsStatics),
        RaceRight column request proc entries system statics ↔
          RaceSafe column request proc entries) ∧
      ∀ (interfaces : Interfaces) (column : NetColumn) (table : Table),
        Walks (interfaces.getNext column oid) table (ifTable interfaces.devices)
            (interfaces.own column) ↔
          interfaces.devices = [] ∨ interfaces.Walkable column := by
  constructor
  · intro population column system statics
    exact population.walks_iff column oid system statics
  · constructor
    · exact race_iff
    · intro interfaces column table
      exact interfaces.walks_iff column oid table

def quietSystem : PsSystem := ⟨none, none, 0, fun _ => [], fun _ => none, fun _ => []⟩

/-- The record of a process whose parent has the number 1. -/
def childOfInit : PsStatics := { PsStatics.start with stPsStat := ⟨[], 'S', 0, fun _ => 1⟩ }

/-- A second line that belongs to the interface with the lesser index. -/
def swappedLines : Interfaces where
  devices := [⟨3, [], 500, 0, 0, 0, 0, 0, 0⟩, ⟨1, [], 7, 0, 0, 0, 0, 0, 0⟩]
  distinct := by decide
  positive := by decide

/-- The parent of a process that is gone is that of the process before; and the octets of one
interface are those of another. -/
theorem row_of_another :
    ((var_psRunningTable .psRunningPPid (Request.after [1] none) (some [7])
        (fun _ => ⟨none, 0, none, none, []⟩) quietSystem childOfInit).2 = .row 7 (.number 1) ∧
      ¬RaceRight .psRunningPPid (Request.after [1] none) (some [7])
        (fun _ => ⟨none, 0, none, none, []⟩) quietSystem childOfInit) ∧
      (swappedLines.getNext .networkInBytes [1] Table.empty none).2 = .row 1 (.number 500) ∧
      ¬Walks (swappedLines.getNext .networkInBytes [1]) Table.empty
        (ifTable swappedLines.devices) (swappedLines.own .networkInBytes) := by
  have parent : (var_psRunningTable .psRunningPPid (Request.after [1] none) (some [7])
      (fun _ => ⟨none, 0, none, none, []⟩) quietSystem childOfInit).2 =
        .row 7 (.number 1) := by
    decide +kernel
  constructor
  · constructor
    · exact parent
    · intro right
      have null := right.gone [7] 7 rfl (by decide +kernel) (by rintro ⟨file, ⟨⟩, _⟩)
      rw [parent] at null
      cases null
  · constructor
    · decide +kernel
    · intro walks
      rcases (swappedLines.walks_iff .networkInBytes [1] Table.empty).mp walks with none | walkable
      · cases none
      · have equal := walkable.ordered (by decide)
        revert equal
        decide +kernel

end Rows

end EveAgent.Nuri
