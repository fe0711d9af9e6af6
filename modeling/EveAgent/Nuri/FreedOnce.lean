import EveAgent.Nuri.Snapshots

namespace EveAgent.Nuri

open ArrayHeap

section Search

variable {table : Table} {request : Request} {indexOf : Nat → Nat}

/-- What a search leaves: the entry of the row found, and all else as it was. -/
structure Searched (table : Table) (result : Table × Option Nat) : Prop where
  heap : result.1.heap = table.heap
  first : result.1.first = table.first
  cnt : result.1.cnt = table.cnt
  found : ∀ index, result.2 = some index →
    ∃ i < table.cnt, result.1.stat = some (table.first, i)

theorem Table.header_searched (request : Request) (indexOf : Nat → Nat) (fuel : Nat)
    (table : Table) (started : 1 ≤ table.idx) :
    Searched table (table.header request indexOf fuel) := by
  induction fuel generalizing table with
  | zero =>
    constructor
    · rfl
    · rfl
    · rfl
    · rintro _ ⟨⟩
  | succ fuel ih =>
    rw [Table.header, Table.getNext]
    by_cases more : table.idx ≤ table.cnt
    · rw [if_pos more]
      simp only
      split
      · constructor
        · rfl
        · rfl
        · rfl
        · intro index _
          exact ⟨table.idx - 1, by omega, rfl⟩
      · have next := ih { table with
          stat := some (table.first, table.idx - 1), idx := table.idx + 1 }
          (Nat.le_add_left 1 table.idx)
        constructor
        · exact next.heap
        · exact next.first
        · exact next.cnt
        · exact next.found
    · rw [if_neg more]
      constructor
      · rfl
      · rfl
      · rfl
      · rintro _ ⟨⟩

theorem Searched.pointed {result : Table × Option Nat} (searched : Searched table result)
    {index : Nat} (found : result.2 = some index) : result.1.stat ≠ none := by
  obtain ⟨i, _, stat⟩ := searched.found index found
  rw [stat]
  exact Option.some_ne_none _

theorem Table.search_empty (table : Table) (request : Request) (indexOf : Nat → Nat)
    (started : 1 ≤ table.idx) (empty : table.cnt = 0) :
    (table.search request indexOf).2 = none := by
  have none : ¬table.idx ≤ table.cnt := by omega
  rw [Table.search, Table.header, Table.getNext, if_neg none]

end Search

section Rounds

variable {table : Table}

/-- The array of a table whose requests free it. -/
structure Settled (table : Table) : Prop where
  heap : table.heap.Settled
  made : ∀ a, table.first = some a → a < table.heap.made

theorem settled_empty : Settled Table.empty := by
  constructor
  · exact Heap.settled_empty
  · rintro _ ⟨⟩

/-- What a refresh leaves, before the array is freed. -/
structure Loaded (table : Table) : Prop where
  freed : (table.heap.free table.first).Settled
  made : ∀ a, table.first = some a → a < table.heap.made
  holds : ∀ i < table.cnt, table.heap.holds table.first i = true
  idx : 1 ≤ table.idx

theorem Settled.fill (settled : Settled table) (n : Nat) (started : 1 ≤ table.idx) :
    Loaded (table.fill n) := by
  by_cases empty : n = 0
  · rw [Table.fill, if_pos empty]
    constructor
    · exact settled.heap
    · rintro _ ⟨⟩
    · intro i below
      cases below
    · exact started
  · rw [Table.fill, if_neg empty]
    constructor
    · exact settled.heap.alloc_free n
    · rintro _ ⟨⟩
      exact Nat.lt_succ_self _
    · intro i below
      exact Heap.holds_alloc (settled.heap.new _ (Nat.le_refl _)) below
    · exact started

theorem Settled.load (settled : Settled table) {file : Option Nat}
    (null : file = none → table.first = none) :
    Loaded ({ table with idx := 1 }.load file) := by
  cases file with
  | none =>
    constructor
    · show (table.heap.free table.first).Settled
      rw [null rfl]
      exact settled.heap
    · exact settled.made
    · intro i below
      cases below
    · exact Nat.le_refl 1
  | some n =>
    have same : Settled { table with idx := 1 } := ⟨settled.heap, settled.made⟩
    exact same.fill n (Nat.le_refl 1)

theorem Table.copyStat_holds {array : Option Nat} {i : Nat} (stat : table.stat = some (array, i))
    (holds : table.heap.holds array i = true) : table.copyStat = table := by
  cases table with
  | mk heap first pointer idx cnt =>
    simp only at stat holds
    rw [stat]
    simp only [Table.copyStat, Heap.touch_holds holds]

theorem Loaded.copied (loaded : Loaded table) {result : Table × Option Nat}
    (searched : Searched table result) {index : Nat} (found : result.2 = some index) :
    result.1.copyStat = result.1 := by
  obtain ⟨i, below, stat⟩ := searched.found index found
  apply Table.copyStat_holds stat
  rw [searched.heap]
  exact loaded.holds i below

theorem Loaded.freed_settled (loaded : Loaded table) {result : Table × Option Nat}
    (searched : Searched table result) : Settled result.1.freeFirst.clearFirst := by
  constructor
  · show (result.1.heap.free result.1.first).Settled
    rw [searched.heap, searched.first]
    exact loaded.freed
  · rintro _ ⟨⟩

theorem msgQ_settled (settled : Settled table) (request : Request) {file : Option Nat}
    (null : file = none → table.first = none) : Settled (var_msgQTable table request file) := by
  have loaded := settled.load null
  have searched := Table.header_searched request id
    (({ table with idx := 1 }.load file).cnt + 1) ({ table with idx := 1 }.load file) loaded.idx
  rw [var_msgQTable, msgQTable_Init, msgQTable_GetMsgQ, Table.search]
  cases result : ({ table with idx := 1 }.load file).header request id
      (({ table with idx := 1 }.load file).cnt + 1) with
  | mk next found =>
    rw [result] at searched
    cases found with
    | none => exact loaded.freed_settled searched
    | some index =>
      have copied := loaded.copied searched rfl
      simp only at copied ⊢
      rw [copied]
      rw [if_neg (searched.pointed rfl)]
      constructor
      · show (next.heap.free next.first).Settled
        rw [searched.heap, searched.first]
        exact loaded.freed
      · intro a first
        rw [show next.freeFirst.first = next.first from rfl, searched.first] at first
        rw [show next.freeFirst.heap = next.heap.free next.first from rfl, Heap.free_made,
          searched.heap]
        exact loaded.made a first

/-- The pointer is taken back when the array is freed. -/
structure Cleared (table : Table) : Prop where
  settled : Settled table
  null : table.first = none

theorem cleared_empty : Cleared Table.empty := ⟨settled_empty, rfl⟩

theorem Loaded.cleared (loaded : Loaded table) {result : Table × Option Nat}
    (searched : Searched table result) : Cleared result.1.freeFirst.clearFirst :=
  ⟨loaded.freed_settled searched, rfl⟩

theorem Cleared.load (cleared : Cleared table) (file : Option Nat) :
    Loaded ({ table with idx := 1 }.load file) :=
  cleared.settled.load fun _ => cleared.null

theorem Cleared.getShm (cleared : Cleared table) (file : Option Nat) :
    shmTable_GetShm { table with idx := 1 } file = { table with idx := 1 }.load file := by
  cases file with
  | none => rfl
  | some n =>
    have loaded := cleared.load (some n)
    rw [shmTable_GetShm, Heap.touchAll_holds loaded.holds]

theorem shm_cleared (cleared : Cleared table) (request : Request) (file : Option Nat) :
    Cleared (var_sharedMemTable table request file) := by
  have loaded := cleared.load file
  have searched := Table.header_searched request id
    (({ table with idx := 1 }.load file).cnt + 1) ({ table with idx := 1 }.load file) loaded.idx
  rw [var_sharedMemTable, sharedMemTable_Init, cleared.getShm, Table.search]
  cases result : ({ table with idx := 1 }.load file).header request id
      (({ table with idx := 1 }.load file).cnt + 1) with
  | mk next found =>
    rw [result] at searched
    cases found with
    | none => exact loaded.cleared searched
    | some index =>
      have copied := loaded.copied searched rfl
      simp only at copied ⊢
      rw [copied, if_neg (searched.pointed rfl)]
      exact loaded.cleared searched

theorem net_cleared (cleared : Cleared table) (request : Request) (interfaces : List Nat)
    (file : Option Nat) : Cleared (var_networkTable table request interfaces file) := by
  have loaded := cleared.load file
  have searched := Table.header_searched request (Interface_Scan_Next interfaces)
    (({ table with idx := 1 }.load file).cnt + 1) ({ table with idx := 1 }.load file) loaded.idx
  rw [var_networkTable, networkTable_Init, networkTable_GetNet, Table.search]
  cases result : ({ table with idx := 1 }.load file).header request
      (Interface_Scan_Next interfaces) (({ table with idx := 1 }.load file).cnt + 1) with
  | mk next found =>
    rw [result] at searched
    cases found with
    | none => exact loaded.cleared searched
    | some index =>
      have copied := loaded.copied searched rfl
      simp only at copied ⊢
      rw [copied]
      exact loaded.cleared searched

theorem msgQ_again (settled : Settled table) (request : Request) {a : Nat}
    (left : table.first = some a) : ¬(var_msgQTable table request none).heap.Sound := by
  have started : 1 ≤ ({ table with idx := 1 }.load none).idx := Nat.le_refl 1
  have searched := Table.header_searched request id (({ table with idx := 1 }.load none).cnt + 1)
    ({ table with idx := 1 }.load none) started
  have missed := Table.search_empty ({ table with idx := 1 }.load none) request id started rfl
  rw [var_msgQTable, msgQTable_Init, msgQTable_GetMsgQ]
  rw [Table.search] at missed ⊢
  cases result : ({ table with idx := 1 }.load none).header request id
      (({ table with idx := 1 }.load none).cnt + 1) with
  | mk next found =>
    rw [result] at missed searched
    simp only at missed
    rw [missed]
    show ¬(next.heap.free next.first).Sound
    rw [searched.heap, searched.first]
    show ¬(table.heap.free table.first).Sound
    rw [left]
    exact Heap.free_again (settled.heap.old a (settled.made a left))

end Rounds

section Processors

variable {table : Table} {cpu : CpuTable} {request : Request} {time : Int}
  {file again : Option Nat}

/-- The entries that the second reading of the file finds. -/
def Table.entries (table : Table) : Option Nat → Nat
  | some n => n
  | none =>
    match table.first with
    | none => 0
    | some a => table.heap.size a

theorem Table.load_cnt (table : Table) (file : Option Nat) :
    (table.load file).cnt ≤ table.entries file := by
  cases file with
  | none => exact Nat.zero_le _
  | some n =>
    rw [Table.load, Table.fill, Table.entries]
    by_cases empty : n = 0
    · rw [if_pos empty]
      exact Nat.zero_le n
    · rw [if_neg empty]

theorem Table.load_idx (table : Table) (file : Option Nat) :
    (table.load file).idx = table.idx := by
  cases file with
  | none => rfl
  | some n =>
    rw [Table.load, Table.fill]
    by_cases empty : n = 0
    · rw [if_pos empty]
    · rw [if_neg empty]

theorem Table.load_holds (unfreed : table.heap.Unfreed) (file : Option Nat) (i : Nat) :
    (table.load file).heap.holds (table.load file).first i = true ↔ i < table.entries file := by
  cases file with
  | none =>
    show table.heap.holds table.first i = true ↔ i < table.entries none
    rw [Table.entries]
    cases first : table.first with
    | none => simp [Heap.holds]
    | some a => exact unfreed.holds_iff a i
  | some n =>
    rw [Table.load, Table.fill, Table.entries]
    by_cases empty : n = 0
    · rw [if_pos empty, empty]
      simp [Heap.holds]
    · rw [if_neg empty, Heap.Unfreed.holds_iff (unfreed.alloc n)]
      simp [Heap.alloc]

theorem Table.load_unfreed (unfreed : table.heap.Unfreed) (file : Option Nat) :
    (table.load file).heap.Unfreed := by
  cases file with
  | none => exact unfreed
  | some n =>
    rw [Table.load, Table.fill]
    by_cases empty : n = 0
    · rw [if_pos empty]
      exact unfreed
    · rw [if_neg empty]
      exact unfreed.alloc n

theorem Table.load_made (table : Table) (file : Option Nat) :
    (table.load file).heap.made = table.heap.made ∧ (∀ n, file = some n → n = 0) ∨
      (table.load file).heap.made = table.heap.made + 1 ∧ ∃ n, file = some n ∧ 0 < n := by
  cases file with
  | none =>
    apply Or.inl
    constructor
    · rfl
    · intro n opened
      cases opened
  | some n =>
    rw [Table.load, Table.fill]
    by_cases empty : n = 0
    · rw [if_pos empty]
      apply Or.inl
      constructor
      · rfl
      · intro m opened
        cases opened
        exact empty
    · rw [if_neg empty]
      apply Or.inr
      constructor
      · rfl
      · exact ⟨n, rfl, Nat.pos_of_ne_zero empty⟩

/-- The array of processors, which is never freed. -/
structure CpuKept (cpu : CpuTable) : Prop where
  heap : cpu.table.heap.Unfreed
  one : cpu.table.heap.made ≤ 1
  holds : ∀ i < cpu.table.cnt, cpu.table.heap.holds cpu.table.first i = true
  flag : cpu.oldTime ≠ 0 → cpu.giCacheFlag = true

theorem cpuKept_empty : CpuKept ⟨Table.empty, 0, false⟩ := by
  constructor
  · exact Heap.unfreed_empty
  · exact Nat.zero_le 1
  · intro i below
    cases below
  · intro used
    exact absurd rfl used

/-- The array is not made again, and the second reading finds the entries of the first. -/
def CpuTable.Refreshes (cpu : CpuTable) (time : Int) (file again : Option Nat) : Prop :=
  cpu.expired time = true →
    (∀ n, file = some n → 0 < n → cpu.table.heap.live = 0) ∧
      ∀ m, again = some m → m ≤ cpu.table.entries file

def CpuTable.restarted (cpu : CpuTable) : Table := { cpu.table with idx := 1 }

theorem init_expired (old : cpu.expired time = true) :
    cpuTable_Init cpu time file again =
      { table := match again with
          | none => cpu.restarted.load file
          | some m =>
            { cpu.restarted.load file with
              heap := (cpu.restarted.load file).heap.touchAll
                (cpu.restarted.load file).first m }
        oldTime := time
        giCacheFlag := true } := by
  have still : ({ cpu with table := cpu.restarted } : CpuTable).expired time = true := old
  rw [cpuTable_Init, cpuTable_GetCpuStat]
  rw [show ({ cpu with table := { cpu.table with idx := 1 } } : CpuTable) =
    { cpu with table := cpu.restarted } from rfl, if_pos still]
  rfl

theorem init_fresh (fresh : ¬cpu.expired time = true) :
    cpuTable_Init cpu time file again = { cpu with table := cpu.restarted } := by
  have still : ¬({ cpu with table := cpu.restarted } : CpuTable).expired time = true := fresh
  rw [cpuTable_Init, cpuTable_GetCpuStat]
  rw [show ({ cpu with table := { cpu.table with idx := 1 } } : CpuTable) =
    { cpu with table := cpu.restarted } from rfl, if_neg still]

theorem CpuKept.flagged (kept : CpuKept cpu) (time : Int) (file again : Option Nat) :
    (cpuTable_Init cpu time file again).giCacheFlag = true := by
  by_cases old : cpu.expired time = true
  · rw [init_expired old]
  · rw [init_fresh old]
    apply kept.flag
    intro unused
    apply old
    simp [CpuTable.expired, unused]

theorem init_idx (cpu : CpuTable) (time : Int) (file again : Option Nat) :
    1 ≤ (cpuTable_Init cpu time file again).table.idx := by
  have loaded : 1 ≤ (cpu.restarted.load file).idx := by
    rw [Table.load_idx]
    exact Nat.le_refl 1
  by_cases old : cpu.expired time = true
  · rw [init_expired old]
    cases again with
    | none => exact loaded
    | some m => exact loaded
  · rw [init_fresh old]
    exact Nat.le_refl 1

theorem CpuKept.init (kept : CpuKept cpu) (refreshes : cpu.Refreshes time file again) :
    CpuKept (cpuTable_Init cpu time file again) := by
  by_cases old : cpu.expired time = true
  · obtain ⟨once, within⟩ := refreshes old
    have unfreed : cpu.restarted.heap.Unfreed := kept.heap
    have same : (cpuTable_Init cpu time file again).table = cpu.restarted.load file := by
      rw [init_expired old]
      cases again with
      | none => rfl
      | some m =>
        have held : ∀ i < m,
            (cpu.restarted.load file).heap.holds (cpu.restarted.load file).first i = true := by
          intro i below
          rw [Table.load_holds unfreed]
          exact Nat.lt_of_lt_of_le below (within m rfl)
        simp only
        rw [Heap.touchAll_holds held]
    constructor
    · rw [same]
      exact Table.load_unfreed unfreed file
    · rw [same]
      rcases Table.load_made cpu.restarted file with ⟨made, _⟩ | ⟨made, n, opened, lines⟩
      · rw [made]
        exact kept.one
      · have live := once n opened lines
        rw [kept.heap.live_eq] at live
        rw [made]
        exact Nat.le_of_eq (congrArg (· + 1) live)
    · rw [same]
      intro i below
      rw [Table.load_holds unfreed]
      exact Nat.lt_of_lt_of_le below (Table.load_cnt _ file)
    · intro _
      exact kept.flagged time file again
  · rw [init_fresh old]
    exact ⟨kept.heap, kept.one, kept.holds, kept.flag⟩

theorem CpuKept.answer (kept : CpuKept cpu) (request : Request) (time : Int)
    (file again : Option Nat) :
    ∃ result, Searched (cpuTable_Init cpu time file again).table result ∧
      (var_cpuTable cpu request time file again =
          { cpuTable_Init cpu time file again with table := result.1 } ∨
        ∃ index, result.2 = some index ∧ var_cpuTable cpu request time file again =
          { cpuTable_Init cpu time file again with table := result.1.copyStat }) := by
  have searched := Table.header_searched request id
    ((cpuTable_Init cpu time file again).table.cnt + 1)
    (cpuTable_Init cpu time file again).table (init_idx cpu time file again)
  have flag := kept.flagged time file again
  rw [var_cpuTable, Table.search]
  cases result : (cpuTable_Init cpu time file again).table.header request id
      ((cpuTable_Init cpu time file again).table.cnt + 1) with
  | mk next found =>
    rw [result] at searched
    apply Exists.intro (next, found)
    constructor
    · exact searched
    · cases found with
      | none =>
        apply Or.inl
        simp [flag]
      | some index =>
        apply Or.inr
        simp [flag]

theorem CpuKept.answered (kept : CpuKept cpu) (request : Request)
    (refreshes : cpu.Refreshes time file again) :
    CpuKept (var_cpuTable cpu request time file again) := by
  have after := kept.init refreshes
  have answered : ∃ table, Searched (cpuTable_Init cpu time file again).table (table, none) ∧
      var_cpuTable cpu request time file again =
        { cpuTable_Init cpu time file again with table := table } := by
    obtain ⟨result, searched, plain | ⟨index, found, copied⟩⟩ :=
      kept.answer request time file again
    · exact ⟨result.1, ⟨searched.heap, searched.first, searched.cnt, nofun⟩, plain⟩
    · obtain ⟨i, below, stat⟩ := searched.found index found
      have held : result.1.heap.holds (cpuTable_Init cpu time file again).table.first i = true := by
        rw [searched.heap]
        exact after.holds i below
      rw [Table.copyStat_holds stat held] at copied
      exact ⟨result.1, ⟨searched.heap, searched.first, searched.cnt, nofun⟩, copied⟩
  obtain ⟨table, searched, answered⟩ := answered
  rw [answered]
  constructor
  · show table.heap.Unfreed
    rw [searched.heap]
    exact after.heap
  · show table.heap.made ≤ 1
    rw [searched.heap]
    exact after.one
  · intro i below
    show table.heap.holds table.first i = true
    rw [searched.heap, searched.first]
    apply after.holds
    rw [← searched.cnt]
    exact below
  · exact after.flag

theorem CpuKept.heap_after (kept : CpuKept cpu) (request : Request) (time : Int)
    (file again : Option Nat) :
    ∃ fault, (var_cpuTable cpu request time file again).table.heap =
        { (cpuTable_Init cpu time file again).table.heap with fault := fault } ∧
      ((cpuTable_Init cpu time file again).table.heap.fault = true → fault = true) := by
  obtain ⟨result, searched, plain | ⟨index, found, copied⟩⟩ := kept.answer request time file again
  · apply Exists.intro (cpuTable_Init cpu time file again).table.heap.fault
    constructor
    · rw [plain]
      exact searched.heap
    · exact id
  · obtain ⟨i, below, stat⟩ := searched.found index found
    apply Exists.intro (result.1.copyStat.heap.fault)
    rw [copied]
    simp only [Table.copyStat, stat, Heap.touch, searched.heap]
    constructor
    · trivial
    · intro faulted
      rw [faulted]
      rfl

theorem CpuKept.refreshes (kept : CpuKept cpu)
    (sound : (var_cpuTable cpu request time file again).table.heap.Sound) :
    cpu.Refreshes time file again := by
  intro old
  obtain ⟨fault, after, faulted⟩ := kept.heap_after request time file again
  have unfreed : cpu.restarted.heap.Unfreed := kept.heap
  have loaded := Table.load_unfreed unfreed file
  have refreshed : ∃ more, (cpuTable_Init cpu time file again).table.heap =
      { (cpu.restarted.load file).heap with fault := more } := by
    rw [init_expired old]
    cases again with
    | none => exact ⟨_, rfl⟩
    | some m => exact Heap.touchAll_same _ _ m
  have single : (cpu.restarted.load file).heap.made ≤ 1 := by
    obtain ⟨more, same⟩ := refreshed
    have live := sound.single
    rw [after, same] at live
    rw [← loaded.live_eq]
    exact live
  constructor
  · intro n opened lines
    rcases Table.load_made cpu.restarted file with ⟨_, empty⟩ | ⟨made, _⟩
    · exact absurd (empty n opened) (Nat.ne_of_gt lines)
    · rw [made] at single
      rw [kept.heap.live_eq]
      exact Nat.le_zero.mp (Nat.le_of_succ_le_succ single)
  · intro m found
    by_contra larger
    have beyond : (cpu.restarted.load file).heap.holds (cpu.restarted.load file).first
        (cpu.table.entries file) = false := by
      rw [Bool.eq_false_iff]
      intro held
      exact Nat.lt_irrefl _ ((Table.load_holds unfreed file _).mp held)
    have missed : (cpuTable_Init cpu time file again).table.heap.fault = true := by
      rw [init_expired old, found]
      exact Heap.touchAll_fault (Nat.lt_of_not_le larger) beyond
    have clean := sound.clean
    rw [after] at clean
    exact absurd (faulted missed) (by simp [show fault = false from clean])

end Processors

section Runs

structure Tables.Sound (tables : Tables) : Prop where
  msgQ : tables.msgQ.heap.Sound
  shm : tables.shm.heap.Sound
  net : tables.net.heap.Sound
  cpu : tables.cpu.table.heap.Sound

/-- The requests that leave the arrays sound: a file of message queues that does not open finds no
pointer to an array freed before, and a refresh of the processors is a safe one. -/
def Tables.Safe (tables : Tables) : TableEvent → Prop
  | .msgQ _ file => file = none → tables.msgQ.first = none
  | .shm _ _ => True
  | .net _ _ _ => True
  | .cpu _ time file again => tables.cpu.Refreshes time file again

structure Kept (tables : Tables) : Prop where
  msgQ : Settled tables.msgQ
  shm : Cleared tables.shm
  net : Cleared tables.net
  cpu : CpuKept tables.cpu

variable {tables : Tables} {event : TableEvent} {events : List TableEvent}

theorem kept_registered : Kept registered :=
  ⟨settled_empty, cleared_empty, cleared_empty, cpuKept_empty⟩

theorem Kept.sound (kept : Kept tables) : tables.Sound := by
  constructor
  · exact kept.msgQ.heap.sound
  · exact kept.shm.settled.heap.sound
  · exact kept.net.settled.heap.sound
  · exact kept.cpu.heap.sound kept.cpu.one

theorem Kept.step (kept : Kept tables) (safe : tables.Safe event) : Kept (tables.step event) := by
  cases event with
  | msgQ request file => exact ⟨msgQ_settled kept.msgQ request safe, kept.shm, kept.net, kept.cpu⟩
  | shm request file => exact ⟨kept.msgQ, shm_cleared kept.shm request file, kept.net, kept.cpu⟩
  | net request interfaces file =>
    exact ⟨kept.msgQ, kept.shm, net_cleared kept.net request interfaces file, kept.cpu⟩
  | cpu request time file again =>
    exact ⟨kept.msgQ, kept.shm, kept.net, kept.cpu.answered request safe⟩

theorem Kept.safe (kept : Kept tables) (sound : (tables.step event).Sound) :
    tables.Safe event := by
  cases event with
  | msgQ request file =>
    intro missing
    by_contra pointed
    obtain ⟨a, left⟩ := Option.ne_none_iff_exists'.mp pointed
    apply msgQ_again kept.msgQ request left
    rw [← missing]
    exact sound.msgQ
  | shm request file => trivial
  | net request interfaces file => trivial
  | cpu request time file again => exact kept.cpu.refreshes sound.cpu

theorem Tables.run_snoc (tables : Tables) (events : List TableEvent) (event : TableEvent) :
    tables.run (events ++ [event]) = (tables.run events).step event := by
  rw [Tables.run, List.foldl_append]
  rfl

def SafeRun (events : List TableEvent) : Prop :=
  ∀ past event, past ++ [event] <+: events → (registered.run past).Safe event

theorem SafeRun.kept (safe : SafeRun events) : Kept (registered.run events) := by
  induction events using List.reverseRecOn with
  | nil => exact kept_registered
  | append_singleton events event ih =>
    have before := ih fun past event within => safe past event
      (within.trans (List.prefix_append events _))
    rw [Tables.run_snoc]
    exact before.step (safe events event (List.prefix_refl _))

theorem safeRun_of_sound (sound : ∀ past, past <+: events → (registered.run past).Sound) :
    SafeRun events := by
  induction events using List.reverseRecOn with
  | nil =>
    intro past event within
    exact absurd (List.prefix_nil.mp within) (by simp)
  | append_singleton events last ih =>
    have before : SafeRun events := ih fun past within =>
      sound past (within.trans (List.prefix_append events _))
    intro past event within
    rcases List.prefix_concat_iff.mp within with whole | earlier
    · obtain ⟨same, final⟩ := List.append_inj' whole rfl
      rw [same, List.singleton_inj.mp final]
      apply before.kept.safe
      rw [← Tables.run_snoc]
      exact sound (events ++ [last]) (List.prefix_refl _)
    · exact before past event earlier

/-- Each array is freed once and used before that only, exactly in the runs of safe requests. -/
theorem snapshots_freed_once (events : List TableEvent) :
    (∀ past, past <+: events → (registered.run past).Sound) ↔
      ∀ past event, past ++ [event] <+: events → (registered.run past).Safe event := by
  constructor
  · exact safeRun_of_sound
  · intro safe past within
    have before : SafeRun past := fun earlier event early => safe earlier event (early.trans within)
    exact before.kept.sound

/-- The first message queue is read, and then the file does not open. -/
theorem msgQ_freed_twice :
    ¬∀ events past, past <+: events → (registered.run past).Sound := by
  intro sound
  have once := (sound [TableEvent.msgQ ⟨[1], false, [1]⟩ (some 1),
    TableEvent.msgQ ⟨[1], false, [1]⟩ none] _ (List.prefix_refl _)).msgQ.once 0
  have twice : (registered.run [TableEvent.msgQ ⟨[1], false, [1]⟩ (some 1),
      TableEvent.msgQ ⟨[1], false, [1]⟩ none]).msgQ.heap.frees 0 = 2 := by
    decide +kernel
  omega

end Runs

end EveAgent.Nuri
