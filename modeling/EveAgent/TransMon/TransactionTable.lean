import EveAgent.CText
import EveAgent.Overlay
import EveAgent.SortedTable

/-! The transaction table: its rows, the SET requests that edit them and the captured packets that
are counted in them. -/

namespace EveAgent.TransMon

section Rows

/-- What a manager may write into `transactionClientAddress`. -/
abbrev AddressValue := { text : Text // text.length ≤ 15 }

/-- `transactionClientAddress` with its length. The zero byte behind it is never written. -/
structure ClientAddress where
  bytes : Text
  len : Nat
  room : bytes.length = 15
  within : len ≤ 15
  deriving DecidableEq, Repr

def ClientAddress.blank : ClientAddress := ⟨List.replicate 15 '\x00', 0, rfl, by decide⟩

def ClientAddress.memcpy (address : ClientAddress) (value : AddressValue) : ClientAddress where
  bytes := overlay address.bytes value.val
  len := value.val.length
  room := by
    rw [overlay_length, address.room]
    rw [address.room]
    exact value.property
  within := value.property

def ClientAddress.value (address : ClientAddress) : AddressValue :=
  ⟨address.bytes.take address.len, by
    rw [List.length_take]
    exact (Nat.min_le_left _ _).trans address.within⟩

/-- The column as `strcmp` reads it. -/
def ClientAddress.text (address : ClientAddress) : Text :=
  address.bytes.takeWhile (· != '\x00')

structure Counters where
  transactionInOctets : BitVec 32
  transactionInPkts : BitVec 32
  transactionOutOctets : BitVec 32
  transactionOutPkts : BitVec 32
  deriving DecidableEq, Repr

def Counters.zero : Counters := ⟨0, 0, 0, 0⟩

structure Row where
  transactionIndex : Nat
  transactionClientAddress : ClientAddress
  transactionTransportPort : Int
  transactionSampleInterval : Int
  transactionResponseTime : Int
  counters : Counters
  transactionStatus : Int
  lastClientAckNumber : Nat
  lastTrTime : Int
  deriving DecidableEq, Repr

abbrev TransactionTable := SortedTable Row Row.transactionIndex

end Rows

section Requests

/-! The row states 1, 2, 4, 5 and 6 are active, not in service, create and go, create and wait
and destroy. -/

/-- The columns that decide what is counted. The counters are not written by a request. -/
inductive Column where
  | clientAddress (value : AddressValue)
  | transportPort (value : Int)
  | sampleInterval (value : Int)
  | status (value : Int)
  deriving DecidableEq, Repr

/-- The part of a SET request that is about one row. Another part of it may fail. -/
structure SetRequest where
  index : Nat
  columns : List Column
  othersFail : Bool
  deriving DecidableEq, Repr

def createRow (index : Nat) : Row := ⟨index, .blank, 0, 0, 0, .zero, 0, 0, 0⟩

def rowCopy (dst src : Row) : Row :=
  { dst with
    transactionIndex := src.transactionIndex
    transactionClientAddress :=
      dst.transactionClientAddress.memcpy src.transactionClientAddress.value
    transactionTransportPort := src.transactionTransportPort
    transactionSampleInterval := src.transactionSampleInterval
    transactionResponseTime := src.transactionResponseTime
    counters := src.counters
    transactionStatus := src.transactionStatus }

def duplicateRow (row : Row) : Row := rowCopy (createRow 0) row

def checkRowstatusTransition (oldValue newValue : Int) : Bool :=
  if newValue = 1 ∨ newValue = 2 then oldValue = 2 ∨ oldValue = 1
  else if newValue = 4 ∨ newValue = 5 then oldValue = 0
  else newValue = 6

/-- Every row status of the request is a legal one. -/
def setReserve2 (oldStatus : Int) (columns : List Column) : Bool :=
  columns.all fun
    | .status value => checkRowstatusTransition oldStatus value
    | _ => true

def setColumn (row : Row) : Column → Row
  | .clientAddress value =>
    { row with transactionClientAddress := row.transactionClientAddress.memcpy value }
  | .transportPort value => { row with transactionTransportPort := value }
  | .sampleInterval value => { row with transactionSampleInterval := value }
  | .status value => { row with transactionStatus := value }

/-- `netsnmp_table_array_check_row_status`, for rows that may always change their state. -/
def checkRowStatus (rsNew : Int) : Int :=
  if rsNew = 4 ∨ rsNew = 1 then 1 else if rsNew ≠ 6 then 2 else 6

def setAction (row : Row) (columns : List Column) : Row :=
  let written := columns.foldl setColumn row
  { written with transactionStatus := checkRowStatus written.transactionStatus }

def rowErr (row : Row) : Bool :=
  (row.transactionTransportPort = 0 || row.transactionSampleInterval = 0 ||
    row.transactionClientAddress.len = 0) &&
  (row.transactionStatus = 4 || row.transactionStatus = 1)

def updateFilter (columns : List Column) : Bool :=
  columns.any fun
    | .sampleInterval _ => false
    | _ => true

def trResetCounters (row : Row) : Row :=
  { row with counters := .zero, transactionResponseTime := 0 }

/-- Whether the commit resets the counters of the row. -/
def resets (row : Row) (columns : List Column) : Bool :=
  (updateFilter columns && row.transactionStatus = 4) || row.transactionStatus = 1

def setCommit (row : Row) (columns : List Column) : Row :=
  if resets row columns then trResetCounters row else row

/-- What becomes of a row that is there, or not yet, and whether its counters are reset. -/
inductive Outcome where
  | refused
  | undone (restored : Row)
  | deleted
  | committed (row : Row) (reset : Bool)
  deriving DecidableEq, Repr

def processSetGroup (existing : Option Row) (request : SetRequest) : Outcome :=
  let row := existing.getD (createRow request.index)
  let oldStatus := existing.elim 0 Row.transactionStatus
  let written := setAction row request.columns
  if setReserve2 oldStatus request.columns = false then .refused
  else if rowErr written || request.othersFail then .undone (rowCopy written (duplicateRow row))
  else if written.transactionStatus = 6 then .deleted
  else .committed (setCommit written request.columns) (resets written request.columns)

def set (table : TransactionTable) (request : SetRequest) : TransactionTable :=
  match table.find request.index, processSetGroup (table.find request.index) request with
  | _, .refused => table
  | none, .undone _ => table
  | some _, .undone restored => table.put restored
  | _, .deleted => table.erase request.index
  | _, .committed row _ => table.put row

end Requests

section Packets

/-- What `mypacket` points to: the header of the link in 14 bytes, the packet behind it. -/
abbrev Packet := Nat → UInt8

variable (mypacket : Packet)

def byte (i : Nat) : Nat := (mypacket i).toNat

def ntohs (i : Nat) : Nat := byte mypacket i * 256 + byte mypacket (i + 1)

def ntohl (i : Nat) : Nat := ntohs mypacket i * 65536 + ntohs mypacket (i + 2)

def ihl : Nat := byte mypacket 14 % 16

def totLen : Nat := ntohs mypacket 16

def protocol : Nat := byte mypacket 23

/-- Where the TCP header begins, behind the options of the IP header. -/
def tcp : Nat := 14 + ihl mypacket * 4

def source : Nat := ntohs mypacket (tcp mypacket)

def dest : Nat := ntohs mypacket (tcp mypacket + 2)

def seq : Nat := ntohl mypacket (tcp mypacket + 4)

def ackSeq : Nat := ntohl mypacket (tcp mypacket + 8)

def doff : Nat := byte mypacket (tcp mypacket + 12) / 16

def fin : Nat := byte mypacket (tcp mypacket + 13) % 2

def syn : Nat := byte mypacket (tcp mypacket + 13) / 2 % 2

def rst : Nat := byte mypacket (tcp mypacket + 13) / 4 % 2

/-- The four bytes from `i` on in dotted notation. -/
def inetNtoa (i : Nat) : Text :=
  Nat.toDigits 10 (byte mypacket i) ++ '.' :: Nat.toDigits 10 (byte mypacket (i + 1)) ++
    '.' :: Nat.toDigits 10 (byte mypacket (i + 2)) ++ '.' :: Nat.toDigits 10 (byte mypacket (i + 3))

def saddr : Text := inetNtoa mypacket 26

def daddr : Text := inetNtoa mypacket 30

def dataLen : Int := (totLen mypacket : Int) - ihl mypacket * 4 - doff mypacket * 4

/-- The packet goes from the address to the port. -/
def fromClient (address : Text) (port : Int) : Bool :=
  saddr mypacket == address && (dest mypacket : Int) == port

/-- The packet goes from the port to the address. -/
def toClient (address : Text) (port : Int) : Bool :=
  daddr mypacket == address && (source mypacket : Int) == port

def countIn (now : Int) (row : Row) : Row :=
  { row with
    counters.transactionInPkts := row.counters.transactionInPkts + 1
    counters.transactionInOctets :=
      row.counters.transactionInOctets + BitVec.ofInt 32 (dataLen mypacket)
    lastClientAckNumber := if row.lastTrTime = 0 then ackSeq mypacket else row.lastClientAckNumber
    lastTrTime := if row.lastTrTime = 0 then now else row.lastTrTime }

def countOut (now : Int) (row : Row) : Row :=
  let answered := row.lastTrTime ≠ 0 ∧ seq mypacket = row.lastClientAckNumber
  { row with
    counters.transactionOutPkts := row.counters.transactionOutPkts + 1
    counters.transactionOutOctets :=
      row.counters.transactionOutOctets + BitVec.ofInt 32 (dataLen mypacket)
    transactionResponseTime :=
      if answered then now - row.lastTrTime else row.transactionResponseTime
    lastTrTime := if answered then 0 else row.lastTrTime }

/-- The loop over the container ends at the first row that takes the packet. -/
def countRow (now : Int) : List Row → List Row
  | [] => []
  | row :: rows =>
    if fromClient mypacket row.transactionClientAddress.text row.transactionTransportPort then
      countIn mypacket now row :: rows
    else if toClient mypacket row.transactionClientAddress.text row.transactionTransportPort then
      countOut mypacket now row :: rows
    else row :: countRow now rows

def trProcessPacket (now : Int) (rows : List Row) : List Row :=
  if protocol mypacket ≠ 6 then rows
  else if rst mypacket = 1 ∨ syn mypacket = 1 ∨ fin mypacket ≠ 0 then rows
  else if dataLen mypacket = 0 then rows
  else countRow mypacket now rows

theorem countRow_indices (now : Int) (rows : List Row) :
    (countRow mypacket now rows).map Row.transactionIndex = rows.map Row.transactionIndex := by
  induction rows with
  | nil => rfl
  | cons row rows ih =>
    unfold countRow
    split
    · rfl
    · split
      · rfl
      · rw [List.map_cons, List.map_cons, ih]

theorem trProcessPacket_indices (now : Int) (rows : List Row) :
    (trProcessPacket mypacket now rows).map Row.transactionIndex =
      rows.map Row.transactionIndex := by
  unfold trProcessPacket
  split
  · rfl
  · split
    · rfl
    · split
      · rfl
      · exact countRow_indices mypacket now rows

end Packets

section Runs

inductive Event where
  | set (request : SetRequest)
  | packet (mypacket : Packet) (now : Int)

def step (table : TransactionTable) : Event → TransactionTable
  | .set request => TransMon.set table request
  | .packet mypacket now =>
    table.adjust (trProcessPacket mypacket now table.rows)
      (trProcessPacket_indices mypacket now table.rows)

def run (table : TransactionTable) (events : List Event) : TransactionTable :=
  events.foldl step table

end Runs

end EveAgent.TransMon
