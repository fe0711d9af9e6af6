import EveAgent.Chain
import EveAgent.Scheduler.Task

/-! The master table: 25 singly linked lists of tasks in memory, with the
operations that splice them, and the table of tasks they stand for. -/

namespace EveAgent.Scheduler

open Chain

/-- `pNext` is `none` for a null pointer. -/
structure StMasterNode where
  mTask : StTask
  pNext : Option Nat
  deriving DecidableEq, Repr

structure StMasterTable where
  pHeadMasterData : Option Nat
  pTailMasterData : Option Nat
  nSize : Int
  deriving DecidableEq, Repr

/-- `allocated` counts the nodes handed out so far; it bounds every traversal. -/
structure Memory where
  gSchMasterTable : List StMasterTable
  heap : Nat → Option StMasterNode
  allocated : Nat

def Memory.next (mem : Memory) (node : Nat) : Option (Option Nat) :=
  (mem.heap node).map StMasterNode.pNext

/-- The index `SCH_AddTask` switches to; `none` is its default branch. -/
def slotIndex (task : StTask) : Option Nat :=
  match task.ePCity with
  | .schSecMinHour => some everyHourTask
  | .schDay => some task.startTime.ui16Hour.toNat
  | .schWeek => some task.startTime.ui16Hour.toNat
  | .schMonth => some task.startTime.ui16Hour.toNat
  | .outOfRange => none

section Operations

/-! Every operation is `none` where the code would use an index outside of the
table or a pointer that leads nowhere, or would not come to an end. -/

variable (mem : Memory)

def initMasterTable : Memory :=
  { gSchMasterTable := List.replicate masterArrSize ⟨none, none, 0⟩
    heap := fun _ => none
    allocated := 0 }

/-- `newNode` is what `malloc` returns; the result is the task id, `none` for -1. -/
def schAddTask (pTime : Tm) (task : StTask) (newNode : Option Nat) :
    Option (Memory × Option Nat) :=
  if validateTask pTime task ≠ .nascSuccess then some (mem, none)
  else
    match slotIndex task with
    | none => some (mem, none)
    | some index =>
      match mem.gSchMasterTable[index]? with
      | none => none
      | some slot =>
        match newNode with
        | none => some (mem, none)
        | some node =>
          let heap := Function.update mem.heap node (some ⟨task, none⟩)
          match slot.pHeadMasterData with
          | none =>
            some ({ gSchMasterTable := mem.gSchMasterTable.set index
                      ⟨some node, some node, slot.nSize + 1⟩
                    heap := heap
                    allocated := mem.allocated + 1 }, some node)
          | some head =>
            match slot.pTailMasterData with
            | none => none
            | some endNode =>
              match heap endNode with
              | none => none
              | some tail =>
                some ({ gSchMasterTable := mem.gSchMasterTable.set index
                          ⟨some head, some node, slot.nSize + 1⟩
                        heap := Function.update heap endNode
                          (some { tail with pNext := some node })
                        allocated := mem.allocated + 1 }, some node)

/-- Unlink and free `current`, which `previous` leads to. -/
def unlinkNode (index : Nat) (slot : StMasterTable) (previous : Option Nat) (current : Nat) :
    Option Memory :=
  match mem.heap current with
  | none => none
  | some node =>
    match previous with
    | some before =>
      match mem.heap before with
      | none => none
      | some link =>
        let heap := Function.update mem.heap before (some { link with pNext := node.pNext })
        let slot := if node.pNext = none then { slot with pTailMasterData := some before }
          else slot
        some { mem with
          gSchMasterTable := mem.gSchMasterTable.set index
            { slot with nSize := slot.nSize - 1 }
          heap := Function.update heap current none }
    | none =>
      let slot := if node.pNext = none then ⟨none, none, slot.nSize⟩
        else { slot with pHeadMasterData := node.pNext }
      some { mem with
        gSchMasterTable := mem.gSchMasterTable.set index { slot with nSize := slot.nSize - 1 }
        heap := Function.update mem.heap current none }

/-- The loop over the slots in `SCH_DeleteTask`. -/
def deleteLoop (lTaskId : Nat) : List Nat → Option (Memory × ENASCenterError)
  | [] => some (mem, .nascFailure)
  | index :: rest =>
    match mem.gSchMasterTable[index]? with
    | none => none
    | some slot =>
      match search mem.next lTaskId (mem.allocated + 1) none slot.pHeadMasterData with
      | none => none
      | some none => deleteLoop lTaskId rest
      | some (some previous) =>
        (unlinkNode mem index slot previous lTaskId).map fun mem => (mem, .nascSuccess)

def schDeleteTask (lTaskId : Nat) : Option (Memory × ENASCenterError) :=
  deleteLoop mem lTaskId (List.range masterArrSize)

def schModifyTask (lTaskId : Nat) (pTime : Tm) (task : StTask) (newNode : Option Nat) :
    Option (Memory × Option Nat) :=
  match schDeleteTask mem lTaskId with
  | none => none
  | some (mem, .nascFailure) => some (mem, none)
  | some (mem, _) => schAddTask mem pTime task newNode

/-- The loop over the slots in `SCH_GetTask`; the result is the task that is copied out. -/
def getLoop (lTaskId : Nat) : List Nat → Option (Option StTask)
  | [] => some none
  | index :: rest =>
    match mem.gSchMasterTable[index]? with
    | none => none
    | some slot =>
      match search mem.next lTaskId (mem.allocated + 1) none slot.pHeadMasterData with
      | none => none
      | some none => getLoop lTaskId rest
      | some (some _) => (mem.heap lTaskId).map fun node => some node.mTask

def schGetTask (lTaskId : Nat) : Option (Option StTask) :=
  getLoop mem lTaskId (List.range masterArrSize)

/-- The inner loop of `ClearMasterTable`. -/
def clearSlot (index : Nat) : Nat → Memory → Option Memory
  | 0, _ => none
  | fuel + 1, mem =>
    match mem.gSchMasterTable[index]? with
    | none => none
    | some slot =>
      match slot.pHeadMasterData with
      | none => some { mem with
          gSchMasterTable := mem.gSchMasterTable.set index ⟨none, none, slot.nSize⟩ }
      | some head =>
        match mem.heap head with
        | none => none
        | some node =>
          clearSlot index fuel { mem with
            gSchMasterTable := mem.gSchMasterTable.set index
              ⟨node.pNext, slot.pTailMasterData, slot.nSize - 1⟩
            heap := Function.update mem.heap head none }

/-- The outer loop passes over the slots that are empty. -/
def clearLoop : List Nat → Memory → Option Memory
  | [], mem => some mem
  | index :: rest, mem =>
    match mem.gSchMasterTable[index]? with
    | none => none
    | some slot =>
      if slot.pHeadMasterData = none then clearLoop rest mem
      else
        match clearSlot index (mem.allocated + 1) mem with
        | none => none
        | some mem => clearLoop rest mem

def clearMasterTable : Option Memory := clearLoop (List.range masterArrSize) mem

end Operations

section Table

/-! The table as its users see it. -/

structure Entry where
  id : Nat
  slot : Nat
  mTask : StTask
  deriving DecidableEq, Repr, Inhabited

abbrev Table := List Entry

variable (table : Table)

def Table.inSlot (index : Nat) : Table := List.filter (fun entry => entry.slot == index) table

def Table.ids : List Nat := List.map Entry.id table

def Table.add (pTime : Tm) (task : StTask) (newNode : Option Nat) : Table × Option Nat :=
  match slotIndex task, newNode with
  | some index, some node =>
    if validateTask pTime task = .nascSuccess then
      (List.append table [⟨node, index, task⟩], some node)
    else (table, none)
  | _, _ => (table, none)

def Table.find (lTaskId : Nat) : Option Entry :=
  List.find? (fun entry => entry.id == lTaskId) table

def Table.delete (lTaskId : Nat) : Table × ENASCenterError :=
  match table.find lTaskId with
  | none => (table, .nascFailure)
  | some _ => (List.filter (fun entry => entry.id != lTaskId) table, .nascSuccess)

def Table.modify (lTaskId : Nat) (pTime : Tm) (task : StTask) (newNode : Option Nat) :
    Table × Option Nat :=
  match table.delete lTaskId with
  | (table, .nascFailure) => (table, none)
  | (table, _) => Table.add table pTime task newNode

def Table.get (lTaskId : Nat) : Option StTask := (table.find lTaskId).map Entry.mTask

end Table

section Calls

inductive TableCall where
  | schAddTask (pTime : Tm) (task : StTask) (newNode : Option Nat)
  | schDeleteTask (lTaskId : Nat)
  | schModifyTask (lTaskId : Nat) (pTime : Tm) (task : StTask) (newNode : Option Nat)
  | schGetTask (lTaskId : Nat)
  | clearMasterTable
  deriving DecidableEq, Repr

inductive TableReturn where
  | taskId (id : Option Nat)
  | status (error : ENASCenterError)
  | task (copy : Option StTask)
  | done
  deriving DecidableEq, Repr

/-- One call on the memory, with the values returned so far. -/
def memoryStep : Memory × List TableReturn → TableCall → Option (Memory × List TableReturn)
  | (mem, returns), .schAddTask pTime task newNode =>
    (schAddTask mem pTime task newNode).map fun (mem, id) => (mem, returns ++ [.taskId id])
  | (mem, returns), .schDeleteTask lTaskId =>
    (schDeleteTask mem lTaskId).map fun (mem, error) => (mem, returns ++ [.status error])
  | (mem, returns), .schModifyTask lTaskId pTime task newNode =>
    (schModifyTask mem lTaskId pTime task newNode).map fun (mem, id) =>
      (mem, returns ++ [.taskId id])
  | (mem, returns), .schGetTask lTaskId =>
    (schGetTask mem lTaskId).map fun copy => (mem, returns ++ [.task copy])
  | (mem, returns), .clearMasterTable =>
    (clearMasterTable mem).map fun mem => (mem, returns ++ [.done])

def tableStep : Table × List TableReturn → TableCall → Table × List TableReturn
  | (table, returns), .schAddTask pTime task newNode =>
    ((table.add pTime task newNode).1, returns ++ [.taskId (table.add pTime task newNode).2])
  | (table, returns), .schDeleteTask lTaskId =>
    ((table.delete lTaskId).1, returns ++ [.status (table.delete lTaskId).2])
  | (table, returns), .schModifyTask lTaskId pTime task newNode =>
    ((table.modify lTaskId pTime task newNode).1,
      returns ++ [.taskId (table.modify lTaskId pTime task newNode).2])
  | (table, returns), .schGetTask lTaskId => (table, returns ++ [.task (table.get lTaskId)])
  | (_, returns), .clearMasterTable => ([], returns ++ [.done])

end Calls

end EveAgent.Scheduler
