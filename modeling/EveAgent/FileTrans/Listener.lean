import EveAgent.Icp.Packet

namespace EveAgent.FileTrans.Listener

open Icp (Bytes ntohl)

structure SockaddrIn where
  sin_port : Nat
  sin_addr : Nat
  deriving DecidableEq, Repr

/-- `stPacketHeader`; the type is any number that a datagram may carry. -/
structure StPacketHeader where
  ePktType : Int
  eModuleId : Int
  iPktNo : Int
  iMmapNo : Int
  iCorrelater : Int
  deriving DecidableEq, Repr

/-- `HND_SHAKE` -/
def hndShake : Int := 0

/-- `sizeof(stPacketHeader)`, `MAX_DATA_SIZE`, `sizeof(StMsg)` and `sizeof(stCntrlData)`. -/
def headerSize : Nat := 20
def maxDataSize : Nat := 1100
def msgSize : Nat := headerSize + 4 + maxDataSize
def cntrlDataSize : Nat := 1028

def filled (bytes : Bytes) (size : Nat) : Bytes :=
  bytes.take size ++ List.replicate (size - bytes.length) 0

def convertPktHdrToHostForm (header : Bytes) : StPacketHeader where
  ePktType := ntohl (header.take 4)
  eModuleId := ntohl ((header.drop 4).take 4)
  iPktNo := ntohl ((header.drop 8).take 4)
  iMmapNo := ntohl ((header.drop 12).take 4)
  iCorrelater := ntohl ((header.drop 16).take 4)

/-- How `select` and `recvfrom` end. -/
inductive RecvResult where
  | timeOut
  | selectFails
  | recvfromFails
  | nothing (sender : SockaddrIn)
  | datagram (sender : SockaddrIn) (bytes : Bytes)
  deriving DecidableEq, Repr

/-- The variables that `FileTrans_RecvPkt` is given. -/
structure Variables where
  stPktHdr : StPacketHeader
  stData : Bytes
  stFromAddr : SockaddrIn
  deriving DecidableEq, Repr

structure StThreadArg where
  stClientAddr : SockaddrIn
  stPktHdr : StPacketHeader
  stCntrlData : Bytes
  deriving DecidableEq, Repr

/-- The message that is received is filled with zero bytes before. -/
def cDataOf (bytes : Bytes) : Bytes := (filled bytes msgSize).drop (headerSize + 4)

/-- `FileTrans_RecvPkt`, whose status is not looked at. The header is copied to a local variable
and the conversion into the caller's is commented out. -/
def Variables.recvPkt (v : Variables) : RecvResult → Variables
  | .timeOut | .selectFails | .recvfromFails => v
  | .nothing sender => { v with stFromAddr := sender }
  | .datagram sender bytes =>
    { v with stFromAddr := sender, stData := (cDataOf bytes).take cntrlDataSize }

/-- The threads that are started for the given results; a thread that cannot be created ends the
process. -/
def processRecvMsg : Variables → List RecvResult → List StThreadArg
  | _, [] => []
  | v, result :: results =>
    let v := v.recvPkt result
    if v.stPktHdr.ePktType ≠ hndShake then processRecvMsg v results
    else ⟨v.stFromAddr, v.stPktHdr, v.stData⟩ :: processRecvMsg v results

def zeroed : Variables := ⟨⟨0, 0, 0, 0, 0⟩, List.replicate cntrlDataSize 0, ⟨0, 0⟩⟩

/-- The sender and the control data of a handshake. -/
def handshakeOf : RecvResult → Option (SockaddrIn × Bytes)
  | .datagram sender bytes =>
    if (convertPktHdrToHostForm (filled bytes msgSize)).ePktType = hndShake then
      some (sender, (cDataOf bytes).take cntrlDataSize)
    else none
  | _ => none

def StThreadArg.request (thread : StThreadArg) : SockaddrIn × Bytes :=
  (thread.stClientAddr, thread.stCntrlData)

/-- The threads are those of the handshakes, each with what came with it. -/
def StartsHandshakes (results : List RecvResult) : Prop :=
  (processRecvMsg zeroed results).map StThreadArg.request = results.filterMap handshakeOf

section Loop

variable {v : Variables}

theorem recvPkt_header (v : Variables) (result : RecvResult) :
    (v.recvPkt result).stPktHdr = v.stPktHdr := by
  cases result <;> rfl

theorem processRecvMsg_cons (shake : v.stPktHdr.ePktType = hndShake) (result : RecvResult)
    (results : List RecvResult) :
    processRecvMsg v (result :: results) =
      ⟨(v.recvPkt result).stFromAddr, v.stPktHdr, (v.recvPkt result).stData⟩ ::
        processRecvMsg (v.recvPkt result) results := by
  rw [processRecvMsg, recvPkt_header, if_neg (not_not.mpr shake)]

theorem processRecvMsg_length (shake : v.stPktHdr.ePktType = hndShake)
    (results : List RecvResult) : (processRecvMsg v results).length = results.length := by
  induction results generalizing v with
  | nil => rfl
  | cons result results ih =>
    have still : (v.recvPkt result).stPktHdr.ePktType = hndShake := by
      rw [recvPkt_header]
      exact shake
    rw [processRecvMsg_cons shake, List.length_cons, List.length_cons, ih still]

theorem recvPkt_handshake {result : RecvResult} {request : SockaddrIn × Bytes}
    (handshake : handshakeOf result = some request) :
    ((v.recvPkt result).stFromAddr, (v.recvPkt result).stData) = request := by
  cases result with
  | datagram sender bytes =>
    simp only [handshakeOf, Option.ite_none_right_eq_some, Option.some.injEq] at handshake
    exact handshake.2
  | timeOut => cases handshake
  | selectFails => cases handshake
  | recvfromFails => cases handshake
  | nothing sender => cases handshake

theorem processRecvMsg_handshakes (shake : v.stPktHdr.ePktType = hndShake)
    (results : List RecvResult) (all : ∀ result ∈ results, (handshakeOf result).isSome = true) :
    (processRecvMsg v results).map StThreadArg.request = results.filterMap handshakeOf := by
  induction results generalizing v with
  | nil => rfl
  | cons result results ih =>
    obtain ⟨request, handshake⟩ :=
      Option.isSome_iff_exists.mp (all result List.mem_cons_self)
    have still : (v.recvPkt result).stPktHdr.ePktType = hndShake := by
      rw [recvPkt_header]
      exact shake
    have rest := ih still fun later member => all later (List.mem_cons_of_mem _ member)
    rw [processRecvMsg_cons shake, List.map_cons, rest, List.filterMap_cons_some handshake]
    congr 1
    exact recvPkt_handshake handshake

end Loop

/-- The threads are those of the handshakes exactly if nothing but handshakes is received. -/
theorem startsHandshakes_iff (results : List RecvResult) :
    StartsHandshakes results ↔ ∀ result ∈ results, (handshakeOf result).isSome = true := by
  constructor
  · intro starts
    have lengths := congrArg List.length starts
    rw [List.length_map, processRecvMsg_length rfl] at lengths
    rw [List.length_filterMap_eq_countP] at lengths
    exact List.countP_eq_length.mp lengths.symm
  · exact processRecvMsg_handshakes rfl results

/-- A datagram of the type `DATA` starts a thread too. -/
theorem data_starts : ¬ ∀ results, StartsHandshakes results := by
  intro always
  have starts := always [.datagram ⟨1, 1⟩ [0, 0, 0, 4]]
  have lengths := congrArg List.length starts
  rw [List.length_map, processRecvMsg_length rfl] at lengths
  exact absurd lengths (by decide)

end EveAgent.FileTrans.Listener
