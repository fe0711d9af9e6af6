import EveAgent.RecordFile
import EveAgent.SortedTable

namespace EveAgent.LogMon

section Layout

open RecordFile

/-- What the calls use of `logMonRowTable_context` as it lies in memory. -/
structure Layout where
  size : Nat
  positive : 0 < size
  /-- The number of values of an `oid`. -/
  oids : Nat
  idx : Block size → Nat
  logMonRowStatus : Block size → Int
  setIdx : Fin oids → Block size → Block size
  idx_setIdx : ∀ index row, idx (setIdx index row) = index

variable (layout : Layout)

abbrev Layout.Record := Block layout.size

end Layout

section Calls

open RecordFile

/-- Where a call of `LogMonRow_UpdateDataFile` stands. -/
inductive Pc where
  | read
  | lseekCur
  | lseekSet
  | write
  | closed
  deriving DecidableEq, Repr

variable (layout : Layout)

structure Call where
  index : Fin layout.oids
  pc : Pc
  stLogRowInFile : layout.Record
  offset : Nat
  ulPos : Nat
  iFoundFlag : Int

structure State where
  file : List UInt8
  calls : List (Call layout)
  /-- What was written last for each row. No call reads it. -/
  written : Nat → Option layout.Record

variable {layout}

/-- The call for a row when it has opened the file. -/
def callFor (index : Fin layout.oids) (memory : layout.Record) : Call layout :=
  ⟨index, .read, memory, 0, 0, 0⟩

/-- One step of a call whose row holds these bytes. -/
def Call.proceed (call : Call layout) (file : List UInt8) (row : layout.Record) :
    Call layout × List UInt8 :=
  match call.pc with
  | .read =>
    let chunk := readAt file call.offset layout.size
    let inFile := fill call.stLogRowInFile chunk
    if chunk = [] then ({ call with pc := .write }, file)
    else if layout.idx inFile = call.index then
      ({ call with
          pc := .lseekSet
          stLogRowInFile := inFile
          offset := call.offset + chunk.length
          iFoundFlag := if layout.logMonRowStatus inFile = 6 then 0 else 1 }, file)
    else
      ({ call with
          pc := .lseekCur
          stLogRowInFile := inFile
          offset := call.offset + chunk.length }, file)
  | .lseekCur => ({ call with pc := .read, ulPos := call.offset }, file)
  | .lseekSet => ({ call with pc := .write, offset := call.ulPos }, file)
  | .write =>
    ({ call with pc := .closed, offset := call.offset + layout.size },
      writeAt file call.offset (layout.setIdx call.index row).val)
  | .closed => (call, file)

inductive Event (layout : Layout) where
  | begin (index : Fin layout.oids) (memory : layout.Record)
  | proceed (k : Nat) (row : layout.Record)

def State.step (state : State layout) : Event layout → State layout
  | .begin index memory => { state with calls := state.calls ++ [callFor index memory] }
  | .proceed k row =>
    match state.calls[k]? with
    | none => state
    | some call =>
      { file := (call.proceed state.file row).2
        calls := state.calls.set k (call.proceed state.file row).1
        written :=
          if call.pc = .write then
            Function.update state.written call.index (some (layout.setIdx call.index row))
          else state.written }

def State.run (state : State layout) (events : List (Event layout)) : State layout :=
  events.foldl State.step state

end Calls

section Load

open RecordFile

variable {layout : Layout}

abbrev Container (layout : Layout) := SortedTable layout.Record layout.idx

/-- `CONTAINER_INSERT` refuses a row whose index is there. -/
def containerInsert (container : Container layout) (row : layout.Record) : Container layout :=
  if (container.find (layout.idx row)).isSome then container else container.put row

def zeroRecord : layout.Record := ⟨List.replicate layout.size 0, List.length_replicate⟩

/-- The rows that are loaded, and the data file afterwards. An old temporary file is not cut. -/
def loadContainerFromFile (layout : Layout) (file tmp : List UInt8) :
    Container layout × List UInt8 :=
  let stReadCtx := readRecords zeroRecord file.length file
  let container := (stReadCtx.filter fun row => layout.logMonRowStatus row != 6).foldl
    containerInsert SortedTable.empty
  let iRewriteFlag := stReadCtx.any fun row => layout.logMonRowStatus row == 6
  let again := readRecords (stReadCtx.getLastD zeroRecord) file.length file
  let kept := again.filter fun row => layout.logMonRowStatus row == 1
  (container, if iRewriteFlag then overlay tmp (bytesOf kept) else file)

end Load

end EveAgent.LogMon
