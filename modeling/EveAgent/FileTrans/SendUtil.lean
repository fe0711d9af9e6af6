import EveAgent.FileTrans.Packet

namespace EveAgent.FileTrans

inductive SendPc where
  | sendWindow
  | recvAck
  | returned (eReturnValue : ENASCenterError)
  deriving DecidableEq, Repr

/-- The locals of `FileTransfer_SendData`. `iPageOffset` is the file offset of
the page that `pvScratchForFile` maps. -/
structure SendState where
  eReturnValue : ENASCenterError
  iNoOfRetries : Int
  iMmapCntr : Int
  iLastPktNo : Int
  iNoPktsPerMMap : Int
  iPageOffset : Int
  piPktStatus : List UInt8
  stSendSequence : StSequence
  pc : SendPc
  deriving DecidableEq, Repr

/-- How a pass over the window ends: every packet goes out, the buffer cannot be
allocated, or `sendto` fails after some packets. -/
inductive SendFault where
  | none
  | noMemory
  | sendtoFails (sent : Nat)
  deriving DecidableEq, Repr

/-- `memset(status, '0', count)` on the packet status. -/
def clearStatus (status : List UInt8) (count : Int) : List UInt8 :=
  List.replicate count.toNat pktMissing ++ status.drop count.toNat

/-- `memcpy(target, source, count)`. -/
def memcpyBytes (target source : List UInt8) (count : Int) : List UInt8 :=
  source.take count.toNat ++ target.drop count.toNat

/-- One page of the file; the mapping is filled up with zero bytes. A negative
offset cannot be mapped. -/
def mmapPage (file : List UInt8) (iPageSize offset : Int) : Option (List UInt8) :=
  if offset < 0 then none
  else
    let bytes := (file.drop offset.toNat).take iPageSize.toNat
    some (bytes ++ List.replicate (iPageSize.toNat - bytes.length) 0)

section SendActualData

variable (pvScratchForFile : List UInt8) (piPktStatus : List UInt8)
  (stSendSequence : StSequence) (iMsgSize iLastPacketSize iTotNoOfPkts : Int)

/-- The loop `while ( iPktNo <= iNoPktsPerMMap )`, entered with `remaining`
packets to go; the messages are those handed to `sendto`. -/
def sendActualDataLoop : Nat → Int → Int → Int → Int → List StMsg
  | 0, _, _, _, _ => []
  | remaining + 1, iPktNo, iLastPktNo, offset, iLenOfDataCopied =>
    let offset := offset + iLenOfDataCopied
    let iLastPktNo := iLastPktNo + 1
    let iLenOfDataCopied :=
      if iLastPktNo = iTotNoOfPkts ∧ iLastPacketSize ≠ 0 then iLastPacketSize else iMsgSize
    let rest := sendActualDataLoop remaining (iPktNo + 1) iLastPktNo offset iLenOfDataCopied
    if piPktStatus[(iPktNo - 1).toNat]? = some pktMissing then
      { stHeader := ⟨.data, iLastPktNo, stSendSequence.iMmapNo, stSendSequence.iCorrelater⟩
        iDataLen := iLenOfDataCopied
        cData := (pvScratchForFile.drop offset.toNat).take iLenOfDataCopied.toNat } :: rest
    else rest

/-- `FileTrans_SendActualData`: the packets of the window still marked '0'. -/
def sendActualData (iNoPktsPerMMap iLastPktNo : Int) (fault : SendFault) :
    List StMsg × ENASCenterError :=
  let packets := sendActualDataLoop pvScratchForFile piPktStatus stSendSequence iMsgSize
    iLastPacketSize iTotNoOfPkts iNoPktsPerMMap.toNat 1 iLastPktNo 0 0
  match fault with
  | .none => (packets, .nascSuccess)
  | .noMemory => ([], .nascInsufficientMemory)
  | .sendtoFails sent =>
    if sent < packets.length then (packets.take sent, .nascFailure)
    else (packets, .nascSuccess)

end SendActualData

/-- The state in which the window loop is entered: the first page is mapped and
the packet status is allocated. -/
def SendState.init (plan : StCntrlData) : SendState :=
  { eReturnValue := .nascSuccess
    iNoOfRetries := 0
    iMmapCntr := 0
    iLastPktNo := 0
    iNoPktsPerMMap := plan.iNoPktsPerMMap
    iPageOffset := 0
    piPktStatus := List.replicate (plan.iNoPktsPerMMap + 1).toNat pktMissing
    stSendSequence := ⟨1, 1⟩
    pc := .sendWindow }

section SendData

variable (file : List UInt8) (iPageSize : Int) (plan : StCntrlData)

/-- The head of the window loop up to the wait for the acknowledgement. -/
def SendState.sendWindow (s : SendState) (fault : SendFault) :
    Option (SendState × List StMsg) :=
  if s.pc ≠ .sendWindow then none
  else if ¬ s.iMmapCntr < plan.iTotNoMaps then
    some ({ s with pc := .returned s.eReturnValue }, [])
  else if s.iNoOfRetries > maxNoOfRetries then
    some ({ s with eReturnValue := .nascFailure, pc := .returned .nascFailure }, [])
  else
    match mmapPage file iPageSize s.iPageOffset with
    | none => none
    | some page =>
      match sendActualData page s.piPktStatus s.stSendSequence plan.iMesgSizePerPkt
          plan.iMesgSizeForLastPkt plan.iTotNoPkts s.iNoPktsPerMMap s.iLastPktNo fault with
      | (packets, .nascSuccess) =>
        some ({ s with eReturnValue := .nascSuccess, pc := .recvAck }, packets)
      | (packets, error) => some ({ s with eReturnValue := error, pc := .returned error }, packets)

/-- The branch `stRecvPktHdr.ePktType == DATA_ACK`; `mapped` is the outcome of
`mmap` on an offset that can be mapped. -/
def SendState.dataAck (s : SendState) (mapped : Bool) : SendState :=
  let s := { s with
    eReturnValue := .nascSuccess
    iLastPktNo := s.iLastPktNo + s.iNoPktsPerMMap
    iMmapCntr := s.iMmapCntr + 1 }
  if s.iMmapCntr ≥ plan.iTotNoMaps then { s with pc := .returned .nascSuccess }
  else
    let s := { s with
      piPktStatus := clearStatus s.piPktStatus (s.iNoPktsPerMMap + 1)
      iNoPktsPerMMap :=
        if s.iMmapCntr + 1 = plan.iTotNoMaps ∧ plan.iNoExtraMapPackets ≠ 0 then
          plan.iNoExtraMapPackets
        else s.iNoPktsPerMMap
      iPageOffset := i32 (s.iMmapCntr * iPageSize) }
    if mmapPage file iPageSize s.iPageOffset = none ∨ mapped = false then
      { s with eReturnValue := .nascFailure, pc := .returned .nascFailure }
    else
      { s with
        stSendSequence := ⟨s.stSendSequence.iMmapNo + 1, 1⟩
        iNoOfRetries := 0
        pc := .sendWindow }

/-- The branch `stRecvPktHdr.ePktType == DATA_NEG_ACK`. -/
def SendState.dataNegAck (s : SendState) : SendState :=
  { s with
    eReturnValue := .nascSuccess
    stSendSequence := ⟨s.stSendSequence.iMmapNo, s.stSendSequence.iCorrelater + 1⟩
    iNoOfRetries := s.iNoOfRetries + 1
    pc := .sendWindow }

/-- A datagram arrives in `FileTrans_RecvAck`. The payload is copied over the
packet status before the sequence is compared. -/
def SendState.recvAck (s : SendState) (message : StMsg) (mapped : Bool) : Option SendState :=
  if s.pc ≠ .recvAck then none
  else
    let s := { s with piPktStatus := memcpyBytes s.piPktStatus message.cData message.iDataLen }
    if message.sequence = s.stSendSequence then
      match message.stHeader.ePktType with
      | .dataAck => some (s.dataAck file iPageSize plan mapped)
      | .dataNegAck => some s.dataNegAck
      | _ => some { s with eReturnValue := .nascSuccess, pc := .sendWindow }
    else some s

/-- `select` in `FileTrans_RecvAck` runs into its timeout. -/
def SendState.ackTimeout (s : SendState) : Option SendState :=
  if s.pc ≠ .recvAck then none
  else some { s with
    eReturnValue := .nascFileTransTimeOut
    iNoOfRetries := s.iNoOfRetries + 1
    pc := .sendWindow }

/-- `select` or `recvfrom` in `FileTrans_RecvAck` fails. -/
def SendState.ackError (s : SendState) (error : ENASCenterError) : Option SendState :=
  if s.pc ≠ .recvAck ∨ (error ≠ .nascFailure ∧ error ≠ .nascFileTransConnClosed) then none
  else some { s with eReturnValue := error, pc := .returned error }

variable {file iPageSize plan} {s t : SendState}

theorem sendActualData_cases {page status : List UInt8} {sequence : StSequence}
    {iMsgSize iLast iTot count lastNo : Int} {fault : SendFault} {packets : List StMsg}
    {result : ENASCenterError}
    (sent : sendActualData page status sequence iMsgSize iLast iTot count lastNo fault =
      (packets, result)) :
    (∀ message ∈ packets, message ∈ sendActualDataLoop page status sequence iMsgSize iLast iTot
      count.toNat 1 lastNo 0 0) ∧
    (fault = .none → result = .nascSuccess ∧ packets = sendActualDataLoop page status sequence
      iMsgSize iLast iTot count.toNat 1 lastNo 0 0) := by
  simp only [sendActualData] at sent
  cases fault with
  | none =>
    simp only [Prod.mk.injEq] at sent
    obtain ⟨rfl, rfl⟩ := sent
    exact ⟨fun _ member => member, fun _ => ⟨rfl, rfl⟩⟩
  | noMemory =>
    simp only [Prod.mk.injEq] at sent
    obtain ⟨rfl, rfl⟩ := sent
    exact ⟨by simp, by simp⟩
  | sendtoFails count =>
    simp only at sent
    split at sent <;> obtain ⟨rfl, rfl⟩ := Prod.mk.inj sent
    · exact ⟨fun _ member => List.mem_of_mem_take member, by simp⟩
    · exact ⟨fun _ member => member, by simp⟩

theorem SendState.sendWindow_cases {fault : SendFault} {packets : List StMsg}
    (executed : s.sendWindow file iPageSize plan fault = some (t, packets)) :
    s.pc = .sendWindow ∧
    ((plan.iTotNoMaps ≤ s.iMmapCntr ∧ t = { s with pc := .returned s.eReturnValue } ∧
        packets = []) ∨
      (s.iMmapCntr < plan.iTotNoMaps ∧ maxNoOfRetries < s.iNoOfRetries ∧
        t = { s with eReturnValue := .nascFailure, pc := .returned .nascFailure } ∧
        packets = []) ∨
      (s.iMmapCntr < plan.iTotNoMaps ∧ s.iNoOfRetries ≤ maxNoOfRetries ∧
        ∃ page result, mmapPage file iPageSize s.iPageOffset = some page ∧
          sendActualData page s.piPktStatus s.stSendSequence plan.iMesgSizePerPkt
            plan.iMesgSizeForLastPkt plan.iTotNoPkts s.iNoPktsPerMMap s.iLastPktNo fault =
              (packets, result) ∧
          ((result = .nascSuccess ∧ t = { s with eReturnValue := .nascSuccess, pc := .recvAck }) ∨
            (result ≠ .nascSuccess ∧
              t = { s with eReturnValue := result, pc := .returned result })))) := by
  unfold SendState.sendWindow at executed
  split at executed
  · cases executed
  rename_i waiting
  refine ⟨by simpa using waiting, ?_⟩
  split at executed
  · simp only [Option.some.injEq, Prod.mk.injEq] at executed
    exact .inl ⟨by omega, executed.1.symm, executed.2.symm⟩
  split at executed
  · simp only [Option.some.injEq, Prod.mk.injEq] at executed
    exact .inr (.inl ⟨by omega, by omega, executed.1.symm, executed.2.symm⟩)
  refine .inr (.inr ⟨by omega, by omega, ?_⟩)
  split at executed
  · cases executed
  rename_i page mapped
  split at executed <;> rename_i sent <;>
    simp only [Option.some.injEq, Prod.mk.injEq] at executed <;> obtain ⟨rfl, rfl⟩ := executed
  · exact ⟨page, _, mapped, sent, .inl ⟨rfl, rfl⟩⟩
  · rename_i failed
    exact ⟨page, _, mapped, sent, .inr ⟨failed, rfl⟩⟩

theorem SendState.recvAck_cases {message : StMsg} {mapped : Bool}
    (executed : s.recvAck file iPageSize plan message mapped = some t) :
    let read : SendState :=
      { s with piPktStatus := memcpyBytes s.piPktStatus message.cData message.iDataLen }
    s.pc = .recvAck ∧
    ((message.sequence ≠ s.stSendSequence ∧ t = read) ∨
      (message.sequence = s.stSendSequence ∧ message.stHeader.ePktType = .dataAck ∧
        t = read.dataAck file iPageSize plan mapped) ∨
      (message.sequence = s.stSendSequence ∧ message.stHeader.ePktType = .dataNegAck ∧
        t = read.dataNegAck) ∨
      (message.sequence = s.stSendSequence ∧ message.stHeader.ePktType ≠ .dataAck ∧
        message.stHeader.ePktType ≠ .dataNegAck ∧
        t = { read with eReturnValue := .nascSuccess, pc := .sendWindow })) := by
  intro read
  unfold SendState.recvAck at executed
  split at executed
  · cases executed
  rename_i waiting
  refine ⟨by simpa using waiting, ?_⟩
  simp only at executed
  split at executed
  · rename_i same
    cases kind : message.stHeader.ePktType <;> simp only [kind, Option.some.injEq] at executed <;>
      subst executed <;> simp [same, read]
  · rename_i differs
    simp only [Option.some.injEq] at executed
    exact .inl ⟨differs, executed.symm⟩

theorem SendState.dataAck_cases (file : List UInt8) (iPageSize : Int) (plan : StCntrlData)
    (s : SendState) (mapped : Bool) :
    let t := s.dataAck file iPageSize plan mapped
    t.iMmapCntr = s.iMmapCntr + 1 ∧
    ((plan.iTotNoMaps ≤ s.iMmapCntr + 1 ∧ t.pc = .returned .nascSuccess ∧
        t.stSendSequence = s.stSendSequence) ∨
      (s.iMmapCntr + 1 < plan.iTotNoMaps ∧
        (i32 ((s.iMmapCntr + 1) * iPageSize) < 0 ∨ mapped = false) ∧
        t.pc = .returned .nascFailure ∧ t.stSendSequence = s.stSendSequence) ∨
      (s.iMmapCntr + 1 < plan.iTotNoMaps ∧
        0 ≤ i32 ((s.iMmapCntr + 1) * iPageSize) ∧
        t = { s with
          eReturnValue := .nascSuccess
          iLastPktNo := s.iLastPktNo + s.iNoPktsPerMMap
          iMmapCntr := s.iMmapCntr + 1
          piPktStatus := clearStatus s.piPktStatus (s.iNoPktsPerMMap + 1)
          iNoPktsPerMMap :=
            if s.iMmapCntr + 1 + 1 = plan.iTotNoMaps ∧ plan.iNoExtraMapPackets ≠ 0 then
              plan.iNoExtraMapPackets
            else s.iNoPktsPerMMap
          iPageOffset := i32 ((s.iMmapCntr + 1) * iPageSize)
          stSendSequence := ⟨s.stSendSequence.iMmapNo + 1, 1⟩
          iNoOfRetries := 0
          pc := .sendWindow })) := by
  simp only [SendState.dataAck]
  split
  · rename_i last
    exact ⟨rfl, .inl ⟨by omega, rfl, rfl⟩⟩
  rename_i more
  split
  · rename_i unmapped
    refine ⟨rfl, .inr (.inl ⟨by omega, ?_, rfl, rfl⟩)⟩
    rcases unmapped with negative | failed
    · left
      by_contra nonneg
      simp only [mmapPage] at negative
      rw [if_neg nonneg] at negative
      cases negative
    · exact .inr failed
  rename_i mappable
  refine ⟨rfl, .inr (.inr ⟨by omega, ?_, rfl⟩)⟩
  by_contra negative
  exact mappable (.inl (by simp only [mmapPage]; rw [if_pos (by omega)]))

theorem SendState.ackTimeout_cases (executed : s.ackTimeout = some t) :
    s.pc = .recvAck ∧ t = { s with
      eReturnValue := .nascFileTransTimeOut
      iNoOfRetries := s.iNoOfRetries + 1
      pc := .sendWindow } := by
  unfold SendState.ackTimeout at executed
  split at executed
  · cases executed
  rename_i waiting
  simp only [Option.some.injEq] at executed
  exact ⟨by simpa using waiting, executed.symm⟩

theorem SendState.ackError_cases {error : ENASCenterError}
    (executed : s.ackError error = some t) :
    s.pc = .recvAck ∧ error ≠ .nascSuccess ∧
      t = { s with eReturnValue := error, pc := .returned error } := by
  unfold SendState.ackError at executed
  split at executed
  · cases executed
  rename_i allowed
  simp only [Option.some.injEq] at executed
  push Not at allowed
  refine ⟨allowed.1, ?_, executed.symm⟩
  rintro rfl
  exact absurd (allowed.2 (by decide)) (by decide)

end SendData

end EveAgent.FileTrans
