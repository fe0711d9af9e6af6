import EveAgent.ArrayHeap

namespace EveAgent.Nuri

open ArrayHeap

section Requests

def snmp_oid_compare : List Nat → List Nat → Ordering
  | [], [] => .eq
  | [], _ :: _ => .lt
  | _ :: _, [] => .gt
  | a :: first, b :: second =>
    if a < b then .lt else if b < a then .gt else snmp_oid_compare first second

/-- A GET or GETNEXT of one column, whose name is that of the variable. -/
structure Request where
  name : List Nat
  isExact : Bool
  column : List Nat
  deriving DecidableEq, Repr

/-- The row with this index is the one to answer with. -/
def Request.finds (request : Request) (index : Nat) : Bool :=
  snmp_oid_compare request.name (request.column ++ [index]) =
    if request.isExact then Ordering.eq else Ordering.lt

end Requests

section Tables

/-- The globals of a table: the array of the last refresh, the entry looked at, the index of the
next one and the number of entries. -/
structure Table where
  heap : Heap
  first : Option Nat
  stat : Option (Option Nat × Nat)
  idx : Nat
  cnt : Nat

def Table.empty : Table := ⟨Heap.empty, none, none, 0, 0⟩

/-- The array grows with each line of the file, and takes the place of the one before. -/
def Table.fill (table : Table) (n : Nat) : Table :=
  if n = 0 then { table with first := none, cnt := 0 }
  else
    { table with
      heap := table.heap.alloc n
      first := some table.heap.made
      cnt := n }

/-- A refresh from a file with `n` rows, or from one that does not open. -/
def Table.load (table : Table) : Option Nat → Table
  | none => { table with cnt := 0 }
  | some n => table.fill n

def Table.getNext (table : Table) : Table × Option Nat :=
  if table.idx ≤ table.cnt then
    ({ table with stat := some (table.first, table.idx - 1), idx := table.idx + 1 }, some table.idx)
  else ({ table with stat := none }, none)

/-- The loop of the header function: the first row whose index answers the request. -/
def Table.header (request : Request) (indexOf : Nat → Nat) : Nat → Table → Table × Option Nat
  | 0, table => (table, none)
  | fuel + 1, table =>
    match table.getNext with
    | (next, none) => (next, none)
    | (next, some row) =>
      if request.finds (indexOf row) then (next, some (indexOf row))
      else next.header request indexOf fuel

def Table.search (table : Table) (request : Request) (indexOf : Nat → Nat) :
    Table × Option Nat :=
  table.header request indexOf (table.cnt + 1)

def Table.freeFirst (table : Table) : Table := { table with heap := table.heap.free table.first }

def Table.clearFirst (table : Table) : Table := { table with first := none }

/-- The entry that `stat` points to is copied. -/
def Table.copyStat (table : Table) : Table :=
  { table with
    heap :=
      match table.stat with
      | none => { table.heap with fault := true }
      | some (array, i) => table.heap.touch array i }

def msgQTable_GetMsgQ (table : Table) (file : Option Nat) : Table := table.load file

def networkTable_GetNet (table : Table) (file : Option Nat) : Table := table.load file

/-- The loop over the segments of the new array follows. -/
def shmTable_GetShm (table : Table) (file : Option Nat) : Table :=
  match file with
  | none => table.load none
  | some n =>
    let table := table.load (some n)
    { table with heap := table.heap.touchAll table.first table.cnt }

def msgQTable_Init (table : Table) (file : Option Nat) : Table :=
  msgQTable_GetMsgQ { table with idx := 1 } file

def sharedMemTable_Init (table : Table) (file : Option Nat) : Table :=
  shmTable_GetShm { table with idx := 1 } file

def networkTable_Init (table : Table) (file : Option Nat) : Table :=
  networkTable_GetNet { table with idx := 1 } file

def var_msgQTable (table : Table) (request : Request) (file : Option Nat) : Table :=
  let table := msgQTable_Init table file
  match table.search request id with
  | (table, none) => table.freeFirst.clearFirst
  -- The pointer to the array is left as it is.
  | (table, some _) => if table.stat = none then table else table.copyStat.freeFirst

def var_sharedMemTable (table : Table) (request : Request) (file : Option Nat) : Table :=
  let table := sharedMemTable_Init table file
  match table.search request id with
  | (table, none) => table.freeFirst.clearFirst
  | (table, some _) => if table.stat = none then table else table.copyStat.freeFirst.clearFirst

/-- The index of the next interface comes into the low half of the row's number. -/
def Interface_Scan_Next (interfaces : List Nat) (row : Nat) : Nat :=
  let returnIndex := (interfaces[row - 1]?).getD row
  row / 65536 * 65536 + (returnIndex &&& 0x8fff)

def var_networkTable (table : Table) (request : Request) (interfaces : List Nat)
    (file : Option Nat) : Table :=
  let table := networkTable_Init table file
  match table.search request (Interface_Scan_Next interfaces) with
  | (table, none) => table.freeFirst.clearFirst
  | (table, some _) => table.copyStat.freeFirst.clearFirst

/-- The table of processors keeps its array while it is not older than `CACHE_TIMEOUT`. -/
structure CpuTable where
  table : Table
  oldTime : Int
  giCacheFlag : Bool

def CACHE_TIMEOUT : Int := 2

/-- The file is read into a new array, and read again into the entries that are there. -/
def CpuTable.refresh (cpu : CpuTable) (file again : Option Nat) : CpuTable :=
  let table := cpu.table.load file
  { cpu with
    table :=
      match again with
      | none => table
      | some m => { table with heap := table.heap.touchAll table.first m }
    giCacheFlag := true }

def CpuTable.expired (cpu : CpuTable) (time : Int) : Bool :=
  cpu.oldTime = 0 || CACHE_TIMEOUT ≤ time - cpu.oldTime

def cpuTable_GetCpuStat (cpu : CpuTable) (time : Int) (file again : Option Nat) : CpuTable :=
  if cpu.expired time then { cpu with oldTime := time }.refresh file again else cpu

def cpuTable_Init (cpu : CpuTable) (time : Int) (file again : Option Nat) : CpuTable :=
  cpuTable_GetCpuStat { cpu with table := { cpu.table with idx := 1 } } time file again

def var_cpuTable (cpu : CpuTable) (request : Request) (time : Int) (file again : Option Nat) :
    CpuTable :=
  let cpu := cpuTable_Init cpu time file again
  match cpu.table.search request id with
  | (table, none) =>
    if table.first ≠ none ∧ cpu.giCacheFlag = false then
      { cpu with table := table.freeFirst.clearFirst }
    else { cpu with table := table }
  | (table, some _) =>
    let table := table.copyStat
    if table.first ≠ none ∧ cpu.giCacheFlag = false then
      { cpu with table := table.freeFirst.clearFirst }
    else { cpu with table := table }

structure Tables where
  msgQ : Table
  shm : Table
  net : Table
  cpu : CpuTable

/-- A request with what its refresh finds: the rows of the file, when it opens, and the indices of
the interfaces. -/
inductive TableEvent where
  | msgQ (request : Request) (file : Option Nat)
  | shm (request : Request) (file : Option Nat)
  | net (request : Request) (interfaces : List Nat) (file : Option Nat)
  | cpu (request : Request) (time : Int) (file again : Option Nat)
  deriving DecidableEq, Repr

def Tables.step (tables : Tables) : TableEvent → Tables
  | .msgQ request file => { tables with msgQ := var_msgQTable tables.msgQ request file }
  | .shm request file => { tables with shm := var_sharedMemTable tables.shm request file }
  | .net request interfaces file =>
    { tables with net := var_networkTable tables.net request interfaces file }
  | .cpu request time file again =>
    { tables with cpu := var_cpuTable tables.cpu request time file again }

def Tables.run (tables : Tables) (events : List TableEvent) : Tables :=
  events.foldl Tables.step tables

def registered : Tables := ⟨.empty, .empty, .empty, ⟨.empty, 0, false⟩⟩

end Tables

end EveAgent.Nuri
