import EveAgent.BoundedText
import EveAgent.CTypes
import EveAgent.TransMon.TransactionTable

namespace EveAgent.TransMon.CaptureFilter

section Requests

/-- A column of a SET request, as `reserve1` lets it pass. The filter, the counters and the
checks do not depend on the other columns. -/
inductive Varbind where
  | clientAddress (value : Text)
  | transportPort (value : Int32)
  | sampleInterval (value : Int32)
  | responseTime (value : Int32)
  | inOctets (value : BitVec 32)
  | inPkts (value : BitVec 32)
  | outOctets (value : BitVec 32)
  | outPkts (value : BitVec 32)
  | status (value : Int32)
  | other
  deriving DecidableEq, Repr

/-- The columns of one row, and whether its commit writes `TRANSACTION_CONTAINER_FILE`. -/
structure Group where
  index : Nat
  columns : List Varbind
  saved : Bool
  deriving DecidableEq, Repr

inductive Others where
  | succeed
  | failReserve
  | failAction
  deriving DecidableEq, Repr

structure Request where
  groups : List Group
  distinct : (groups.map Group.index).Nodup
  others : Others
  deriving DecidableEq, Repr

/-- One column of `transactionTable_set_action`. An address that is longer than its column is
written over what follows the column. -/
def setColumn (row : Row) : Varbind → Attempt Unit Row
  | .clientAddress value =>
    if fits : value.length ≤ 15 then
      .ok { row with
        transactionClientAddress := row.transactionClientAddress.memcpy ⟨value, fits⟩ }
    else .error .fault
  | .transportPort value => .ok { row with transactionTransportPort := value.toInt }
  | .sampleInterval value => .ok { row with transactionSampleInterval := value.toInt }
  | .responseTime value => .ok { row with transactionResponseTime := value.toInt }
  | .inOctets value => .ok { row with counters.transactionInOctets := value }
  | .inPkts value => .ok { row with counters.transactionInPkts := value }
  | .outOctets value => .ok { row with counters.transactionOutOctets := value }
  | .outPkts value => .ok { row with counters.transactionOutPkts := value }
  | .status value => .ok { row with transactionStatus := value.toInt }
  | .other => .ok row

def setColumns : Row → List Varbind → Attempt Unit Row
  | row, [] => .ok row
  | row, column :: columns => do
      let row ← setColumn row column
      setColumns row columns

/-- `transactionTable_set_action` up to its last check. -/
def setAction (row : Row) (columns : List Varbind) : Attempt Unit Row := do
  let row ← setColumns row columns
  return { row with transactionStatus := checkRowStatus row.transactionStatus }

/-- `updateFilter` behind the loop of the commit. -/
def updateFilter (columns : List Varbind) : Bool :=
  columns.any fun
    | .clientAddress _ => true
    | .transportPort _ => true
    | .status _ => true
    | _ => false

/-- What a group is in the phases behind its action. -/
structure Acted where
  before : Option Row
  row : Row
  columns : List Varbind
  saved : Bool
  deriving DecidableEq, Repr

/-- The first of the two conditions at the end of the commit. -/
def Acted.refreshes (acted : Acted) : Bool :=
  (updateFilter acted.columns && acted.row.transactionStatus = 4) ||
    acted.row.transactionStatus = 1 || acted.row.transactionStatus = 6

def Acted.resets (acted : Acted) : Bool :=
  (updateFilter acted.columns && acted.row.transactionStatus = 4) ||
    acted.row.transactionStatus = 1

end Requests

section Filter

def tempBuffSize : Nat := 50

def gcFilterSize : Nat := 1536

def orString : Text := " or ".toList

def nullFilterString : Text := "host 0.0.0.0 and port 0".toList

def tcpPort : Text := "(tcp port ".toList

def andHost : Text := " and host ".toList

/-- `FILTER_FORMAT_STRING` -/
def filterFormat (port : Int) (host : Text) : Text :=
  tcpPort ++ printLd port ++ andHost ++ host ++ [')']

/-- The loop of `Tr_UpdateFilter` over the container. -/
def filterLoop : Text → List Row → Attempt Unit Text
  | gcFilter, [] => .ok gcFilter
  | gcFilter, currentContext :: rest => do
      let tempBuff ← sprintf tempBuffSize
        (filterFormat currentContext.transactionTransportPort
          currentContext.transactionClientAddress.text)
      let gcFilter ← sprintf gcFilterSize (gcFilter ++ tempBuff)
      if rest = [] then return gcFilter
      else do
        let gcFilter ← sprintf gcFilterSize (gcFilter ++ orString)
        filterLoop gcFilter rest

def trUpdateFilter (rows : List Row) : Attempt Unit Text := do
  let gcFilter ← filterLoop [] rows
  if gcFilter = [] then sprintf gcFilterSize nullFilterString else return gcFilter

end Filter

section Phases

/-- The container and the filter that is installed; the capture is open. -/
structure State where
  table : TransactionTable
  installed : Text

/-- `init_transactionTable` behind `Load_Container_From_File`. -/
def start (table : TransactionTable) : Attempt Unit State := do
  let installed ← trUpdateFilter table.rows
  return ⟨table, installed⟩

def rowOf (table : TransactionTable) (index : Nat) : Row :=
  (table.find index).getD (createRow index)

/-- `transactionTable_set_reserve2` -/
def reserves (table : TransactionTable) (group : Group) : Bool :=
  group.columns.all fun
    | .status value =>
      checkRowstatusTransition ((table.find group.index).elim 0 Row.transactionStatus) value.toInt
    | _ => true

def actions (table : TransactionTable) : List Group → Attempt Unit (List Acted)
  | [] => .ok []
  | group :: groups => do
      let row ← setAction (rowOf table group.index) group.columns
      let later ← actions table groups
      return ⟨table.find group.index, row, group.columns, group.saved⟩ :: later

/-- The rows of the container that the request is about are written. -/
def rewrite (write : Row → Row → Row) (table : TransactionTable) (acted : List Acted) :
    TransactionTable :=
  (acted.filterMap fun one => one.before.map (write one.row)).foldl SortedTable.put table

/-- An action writes to the rows of the container. -/
def inPlace : TransactionTable → List Acted → TransactionTable := rewrite fun row _ => row

/-- After an action that failed the rows are copied back from their duplicates. -/
def undo : TransactionTable → List Acted → TransactionTable :=
  rewrite fun row before => rowCopy row (duplicateRow before)

/-- What `table_array` does to the container before it calls the commit. -/
def inserted (table : TransactionTable) (acted : Acted) : TransactionTable :=
  match acted.before with
  | some _ =>
    if acted.row.transactionStatus = 6 then table.erase acted.row.transactionIndex else table
  | none => if acted.row.transactionStatus = 6 then table else table.put acted.row

/-- `transactionTable_set_commit` returns early when the file cannot be written. -/
def setCommit (s : State) (acted : Acted) : Attempt Unit State :=
  if !acted.saved then .ok s
  else do
    let installed ← if acted.refreshes then trUpdateFilter s.table.rows else .ok s.installed
    return ⟨if acted.resets then s.table.put (trResetCounters acted.row) else s.table, installed⟩

def commits : State → List Acted → Attempt Unit State
  | s, [] => .ok s
  | s, acted :: later => do
      let s ← setCommit { s with table := inserted s.table acted } acted
      commits s later

/-- Whether the request is refused before its action, or is undone behind it. -/
def refuses (table : TransactionTable) (request : Request) : Bool :=
  request.others == .failReserve || !request.groups.all (reserves table)

def undoes (request : Request) (acted : List Acted) : Bool :=
  request.others == .failAction || acted.any fun acted => rowErr acted.row

def set (s : State) (request : Request) : Attempt Unit State :=
  if refuses s.table request then .ok s
  else do
    let acted ← actions s.table request.groups
    if undoes request acted then return { s with table := undo (inPlace s.table acted) acted }
    else commits { s with table := inPlace s.table acted } acted

inductive Event where
  | set (request : Request)
  | packet (mypacket : Packet) (now : Int)

def step (s : State) : Event → Attempt Unit State
  | .set request => CaptureFilter.set s request
  | .packet mypacket now =>
    let table := s.table.adjust (trProcessPacket mypacket now s.table.rows)
      (trProcessPacket_indices mypacket now s.table.rows)
    .ok { s with table }

end Phases

end EveAgent.TransMon.CaptureFilter
