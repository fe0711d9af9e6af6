import EveAgent.CText
import EveAgent.Cells

/-! The application metering list in memory, a list of binaries with a list of rows each, and
the operations that a trap calls. -/

namespace EveAgent.AppMetering

open Cells

section Data

/-- `Stappsub` without its link. -/
structure Stappsub where
  uiappMeteringIndex : UInt32
  pcappMeteringID : Text
  ulappMeteringStartTime : UInt32
  ulappMeteringEndTime : UInt32
  iappMeteringReaction : Int16
  pcalertmessage : Text
  istatus : Int16
  deriving DecidableEq, Repr

/-- `Stapp` without its link. -/
structure Stapp where
  pcappMeteringBinaryName : Text
  head : Option Nat
  deriving DecidableEq, Repr

/-- A row event. `alertRoom` is the size of the memory behind `pcalertmessage`;
`pcappMeteringUsername`, which is never set, is told to be null or not. -/
structure StappMeteringStruct where
  uiappMeteringIndex : UInt32
  pcappMeteringID : Option Text
  ulappMeteringStartTime : UInt32
  ulappMeteringEndTime : UInt32
  iappMeteringReaction : Int16
  pcappMeteringUsername : Bool
  pcappMeteringBinaryName : Text
  pcalertmessage : Option Text
  alertRoom : Nat
  istatus : Int16
  deriving DecidableEq, Repr

/-- The list, the global cursors that outlive a call and the number of requests for memory
so far; the answer to each of them is a new address. -/
structure Memory where
  apps : Heap Nat Stapp
  subs : Heap Nat Stappsub
  head : Option Nat
  prev : Option Nat
  gpsub : Option Nat
  prevsubmove : Option Nat
  allocated : Nat

def start : Memory := ⟨fun _ => none, fun _ => none, none, none, none, none, 0⟩

/-- What `memset` leaves. -/
def zeroSub : Stappsub := ⟨0, [], 0, 0, 0, [], 0⟩

/-- The size of the arrays for names and texts. -/
def arraySize : Nat := 255

end Data

section Operations

/-! Every operation is `none` where the code would use a pointer that is null or dangling or write
beyond an array, or would not come to an end. -/

variable (mem : Memory) (pappMet : StappMeteringStruct) (failing : List Nat)

def malloc : Option Nat × Memory :=
  (if mem.allocated ∈ failing then none else some mem.allocated,
    { mem with allocated := mem.allocated + 1 })

/-- The values of an event are written over those of a row. -/
def fill (sub : Stappsub) : Option Stappsub :=
  if (∀ id ∈ pappMet.pcappMeteringID, id.length < arraySize) ∧
      (∀ message ∈ pappMet.pcalertmessage, message.length < arraySize) then
    some { sub with
      pcappMeteringID := pappMet.pcappMeteringID.getD sub.pcappMeteringID
      ulappMeteringStartTime := pappMet.ulappMeteringStartTime
      ulappMeteringEndTime := pappMet.ulappMeteringEndTime
      iappMeteringReaction := pappMet.iappMeteringReaction
      pcalertmessage := pappMet.pcalertmessage.getD sub.pcalertmessage }
  else none

/-- The first statements of `List`; no address is a return. -/
def headNode : Option Nat × Memory :=
  match mem.head with
  | some head => (some head, mem)
  | none =>
    match malloc mem failing with
    | (none, mem) => (none, mem)
    | (some head, mem) =>
      (some head, { mem with
        apps := Function.update mem.apps head (some ⟨⟨[], none⟩, none⟩)
        head := some head })

/-- The loop over the binaries; the results are `prev` and the binary that is found. -/
def findLoop (apps : Heap Nat Stapp) (name : Text) :
    Nat → Option Nat → Option Nat → Option (Option Nat × Option Nat)
  | 0, _, _ => none
  | _ + 1, prev, none => some (prev, none)
  | fuel + 1, prev, some appmov =>
    match apps appmov with
    | none => none
    | some cell =>
      let prev := if cell.next = none then some appmov else prev
      if cell.val.pcappMeteringBinaryName = name then some (prev, some appmov)
      else findLoop apps name fuel prev cell.next

/-- A new binary with a dummy row is linked behind the last one. A binary whose dummy row
finds no memory is freed and stays linked. -/
def newBinary (name : Text) : Option (Option Nat × Memory) :=
  match malloc mem failing with
  | (none, mem) => some (none, mem)
  | (some node, mem) =>
    if arraySize ≤ name.length then none
    else
      match mem.prev with
      | none => none
      | some last =>
        match mem.apps last with
        | none => none
        | some cell =>
          let link := some { cell with next := some node }
          match malloc mem failing with
          | (none, mem) =>
            some (none, { mem with
              apps := Function.update (Function.update mem.apps last link) node none })
          | (some newsub, mem) =>
            some (some node, { mem with
              apps := Function.update
                (Function.update mem.apps node (some ⟨⟨name, some newsub⟩, none⟩)) last link
              subs := Function.update mem.subs newsub (some ⟨zeroSub, none⟩) })

inductive Place where
  | before (submove : Nat)
  | at_ (submove : Nat)
  | atEnd
  deriving DecidableEq, Repr

/-- The results are `gpsub`, `prevsubmove` and the place. A `gpsub` that is null keeps both
comparisons from being made. -/
def subLoop (subs : Heap Nat Stappsub) (uiappMeteringIndex : UInt32) (sfind : Bool) :
    Nat → Option Nat → Option Nat → Option Nat → Option (Option Nat × Option Nat × Place)
  | 0, _, _, _ => none
  | _ + 1, gpsub, prevsubmove, none => some (gpsub, prevsubmove, .atEnd)
  | fuel + 1, gpsub, _, some submove =>
    match subs submove with
    | none => none
    | some cell =>
      if gpsub ≠ none ∧ cell.val.uiappMeteringIndex > uiappMeteringIndex then
        some (gpsub, some submove, .before submove)
      else if gpsub ≠ none ∧ cell.val.uiappMeteringIndex = uiappMeteringIndex ∧
          sfind = false then
        some (gpsub, some submove, .at_ submove)
      else subLoop subs uiappMeteringIndex sfind fuel (some submove) (some submove) cell.next

/-- A new row is linked behind `link`. -/
def linkRow (link : Option Nat) (newsub : Nat) (sub : Option Stappsub) (next : Option Nat) :
    Option Memory :=
  match link, sub with
  | some link, some sub =>
    match mem.subs link with
    | none => none
    | some cell =>
      some { mem with
        subs := Function.update (Function.update mem.subs newsub (some ⟨sub, next⟩)) link
          (some { cell with next := some newsub }) }
  | _, _ => none

def insertRow (appmov : Nat) (sfind : Bool) : Option Memory :=
  match mem.apps appmov with
  | none => none
  | some cell =>
    match subLoop mem.subs pappMet.uiappMeteringIndex sfind (mem.allocated + 2) mem.gpsub
        mem.prevsubmove cell.val.head with
    | none => none
    | some (gpsub, prevsubmove, place) =>
      let mem := { mem with gpsub := gpsub, prevsubmove := prevsubmove }
      let newRow := { zeroSub with uiappMeteringIndex := pappMet.uiappMeteringIndex }
      match place with
      | .before submove =>
        match malloc mem failing with
        | (none, mem) => some mem
        | (some newsub, mem) => linkRow mem gpsub newsub (fill pappMet newRow) (some submove)
      | .at_ submove =>
        match mem.subs submove with
        | none => none
        | some row =>
          (fill pappMet row.val).map fun sub => { mem with
            subs := Function.update mem.subs submove (some { row with val := sub }) }
      | .atEnd =>
        match malloc mem failing with
        | (none, mem) => some mem
        | (some newsub, mem) =>
          linkRow mem prevsubmove newsub
            ((fill pappMet newRow).map fun sub => { sub with istatus := pappMet.istatus })
            none

/-- `List`. -/
def amList (sfind : Bool) : Option Memory :=
  match headNode mem failing with
  | (none, mem) => some mem
  | (some head, mem) =>
    match findLoop mem.apps pappMet.pcappMeteringBinaryName (mem.allocated + 2) mem.prev
        (some head) with
    | none => none
    | some (prev, some appmov) => insertRow { mem with prev := prev } pappMet failing appmov sfind
    | some (prev, none) =>
      match newBinary { mem with prev := prev } failing pappMet.pcappMeteringBinaryName with
      | none => none
      | some (none, mem) => some mem
      | some (some appmov, mem) => insertRow mem pappMet failing appmov sfind

/-- The inner loop of `Delete`; a row with the index is unlinked and freed. -/
def deleteRow (subs : Heap Nat Stappsub) (uiappMeteringIndex : UInt32) :
    Nat → Option Nat → Option (Heap Nat Stappsub)
  | 0, _ => none
  | _ + 1, none => some subs
  | fuel + 1, some prev =>
    match subs prev with
    | none => none
    | some cell =>
      match cell.next with
      | none => some subs
      | some smov =>
        match subs smov with
        | none => none
        | some row =>
          if row.val.uiappMeteringIndex = uiappMeteringIndex then
            some (Function.update
              (Function.update subs prev (some { cell with next := row.next })) smov none)
          else deleteRow subs uiappMeteringIndex fuel (some smov)

/-- A binary without rows is unlinked and freed with its dummy row. -/
def deleteBinary (pre mov : Nat) (cell : Cell Nat Stapp) : Option (Memory × Bool) :=
  match cell.val.head with
  | none => none
  | some dummy =>
    match mem.subs dummy with
    | none => none
    | some first =>
      if first.next = none then
        match mem.apps pre with
        | none => none
        | some before =>
          some ({ mem with
            apps := Function.update
              (Function.update mem.apps pre (some { before with next := cell.next })) mov none
            subs := Function.update mem.subs dummy none }, true)
      else some (mem, false)

/-- The outer loop of `Delete`, which ends behind a binary that is freed. -/
def deleteLoop (name : Text) (uiappMeteringIndex : UInt32) :
    Nat → Nat → Option Nat → Memory → Option Memory
  | 0, _, _, _ => none
  | _ + 1, _, none, mem => some mem
  | fuel + 1, pre, some mov, mem =>
    match mem.apps mov with
    | none => none
    | some cell =>
      if name = cell.val.pcappMeteringBinaryName then
        match deleteRow mem.subs uiappMeteringIndex (mem.allocated + 2) cell.val.head with
        | none => none
        | some subs =>
          match deleteBinary { mem with subs := subs } pre mov cell with
          | none => none
          | some (mem, true) => some mem
          | some (mem, false) => deleteLoop name uiappMeteringIndex fuel mov cell.next mem
      else deleteLoop name uiappMeteringIndex fuel mov cell.next mem

/-- `Delete`. -/
def amDelete (name : Text) (uiappMeteringIndex : UInt32) : Option Memory :=
  match mem.head with
  | none => some mem
  | some head =>
    match mem.apps head with
    | none => none
    | some cell => deleteLoop name uiappMeteringIndex (mem.allocated + 2) head cell.next mem

/-- The inner loop of `Modify`. -/
def modifyRows : Nat → Option Nat → Heap Nat Stappsub → Bool → Option (Heap Nat Stappsub × Bool)
  | 0, _, _, _ => none
  | _ + 1, none, subs, flag => some (subs, flag)
  | fuel + 1, some smov, subs, flag =>
    match subs smov with
    | none => none
    | some cell =>
      match cell.next with
      | none => some (subs, flag)
      | some smov =>
        match subs smov with
        | none => none
        | some row =>
          if row.val.uiappMeteringIndex = pappMet.uiappMeteringIndex then
            match fill pappMet row.val with
            | none => none
            | some sub =>
              modifyRows fuel (some smov) (Function.update subs smov
                (some { row with val := { sub with istatus := pappMet.istatus } })) true
          else modifyRows fuel (some smov) subs flag

/-- The outer loop of `Modify`. -/
def modifyLoop : Nat → Option Nat → Memory → Bool → Option (Memory × Bool)
  | 0, _, _, _ => none
  | _ + 1, none, mem, flag => some (mem, flag)
  | fuel + 1, some mov, mem, flag =>
    match mem.apps mov with
    | none => none
    | some cell =>
      if pappMet.pcappMeteringBinaryName = cell.val.pcappMeteringBinaryName then
        match modifyRows pappMet (mem.allocated + 2) cell.val.head mem.subs flag with
        | none => none
        | some (subs, flag) => modifyLoop fuel cell.next { mem with subs := subs } flag
      else modifyLoop fuel cell.next mem flag

/-- The inner loop of `SearchList`: the first row behind the dummy row with the index. -/
def searchRow (subs : Heap Nat Stappsub) (uiappMeteringIndex : UInt32) :
    Nat → Option Nat → Option (Option Stappsub)
  | 0, _ => none
  | _ + 1, none => some none
  | fuel + 1, some m =>
    match subs m with
    | none => none
    | some cell =>
      match cell.next with
      | none => some none
      | some m =>
        match subs m with
        | none => none
        | some row =>
          if row.val.uiappMeteringIndex = uiappMeteringIndex then some (some row.val)
          else searchRow subs uiappMeteringIndex fuel (some m)

/-- The event takes over the values of the row that is found. Its own alert message is
overwritten in place. -/
def takeOver (sub : Stappsub) : Option StappMeteringStruct :=
  if pappMet.pcalertmessage ≠ none ∧ pappMet.alertRoom ≤ sub.pcalertmessage.length then none
  else some { pappMet with
    istatus := sub.istatus
    iappMeteringReaction := sub.iappMeteringReaction
    pcalertmessage := pappMet.pcalertmessage.map fun _ => sub.pcalertmessage
    pcappMeteringID := pappMet.pcappMeteringID.map fun _ => sub.pcappMeteringID
    ulappMeteringEndTime := sub.ulappMeteringEndTime
    ulappMeteringStartTime := sub.ulappMeteringStartTime }

/-- Memory for a copy of a text, which is not checked before it is written. -/
def mallocText (needed : Bool) : Option Memory :=
  if needed then
    match malloc mem failing with
    | (none, _) => none
    | (some _, mem) => some mem
  else some mem

/-- What `SearchList` does with a row that it finds in the binary `bname`. -/
def moveRow (bname : Text) (sub : Stappsub) : Option (Memory × StappMeteringStruct) :=
  match takeOver pappMet sub with
  | none => none
  | some pappMet =>
    match (mallocText mem failing pappMet.pcappMeteringID.isSome).bind
        (mallocText · failing pappMet.pcappMeteringUsername) with
    | none => none
    | some mem =>
      match amList mem pappMet failing true with
      | none => none
      | some mem =>
        ((mallocText mem failing true).bind
          (amDelete · bname pappMet.uiappMeteringIndex)).map fun mem => (mem, pappMet)

/-- The outer loop of `SearchList`. The binary that it stands on is read once more when the
row has been moved. `freed` tells that the identifier of the event has been freed. -/
def searchLoop : Nat → Option Nat → Memory → StappMeteringStruct → Bool → Option (Memory × Bool)
  | 0, _, _, _, _ => none
  | _ + 1, none, mem, _, freed => some (mem, freed)
  | fuel + 1, some mv, mem, pappMet, freed =>
    match mem.apps mv with
    | none => none
    | some cell =>
      match searchRow mem.subs pappMet.uiappMeteringIndex (mem.allocated + 2)
          cell.val.head with
      | none => none
      | some none => searchLoop fuel cell.next mem pappMet freed
      | some (some sub) =>
        match moveRow mem pappMet failing cell.val.pcappMeteringBinaryName sub with
        | none => none
        | some (mem, pappMet) =>
          match mem.apps mv with
          | none => none
          | some cell =>
            searchLoop fuel cell.next mem pappMet
              (freed || pappMet.pcappMeteringID.isSome)

def searchList : Option (Memory × Bool) :=
  match malloc mem failing with
  | (none, mem) => some (mem, false)
  | (some _, mem) =>
    match mem.head with
    | none => some (mem, false)
    | some head =>
      match mem.apps head with
      | none => none
      | some cell => searchLoop failing (mem.allocated + 2) cell.next mem pappMet false

/-- `Modify`; the result tells too whether the identifier of the event has been freed. -/
def amModify : Option (Memory × Bool) :=
  match mem.head with
  | none => searchList mem pappMet failing
  | some head =>
    match mem.apps head with
    | none => none
    | some cell =>
      match modifyLoop pappMet (mem.allocated + 2) cell.next mem false with
      | none => none
      | some (mem, true) => some (mem, false)
      | some (mem, false) => searchList mem pappMet failing

/-- The dispatch of `AM_ParseTrap`. It frees the identifier of the event in the end. -/
def amParseTrap : Option Memory :=
  if pappMet.istatus = 4 ∨ pappMet.istatus = 1 then amList mem pappMet failing false
  else if pappMet.istatus = 2 ∨ pappMet.istatus = 6 then
    amDelete mem pappMet.pcappMeteringBinaryName pappMet.uiappMeteringIndex
  else
    match amModify mem pappMet failing with
    | none => none
    | some (_, true) => none
    | some (mem, false) => some mem

end Operations

end EveAgent.AppMetering
