import EveAgent.FileTrans.SendUtil

namespace EveAgent.FileTrans

inductive RecvPc where
  | recvDataPkt
  | writeWindow
  | returned (eReturnValue : ENASCenterError)
  deriving DecidableEq, Repr

/-- An entry of `pstICoreAreaForData`: the bytes a slot holds, `none` for a null `pvData`. -/
abbrev StRecvData := Option (List UInt8)

/-- The locals of `FileTrans_HandleDataPkt` with the counter `iLoopCntr` of the
running `FileTrans_RecvDataPkt` call. `written` is what was passed to `write`.
`ackedWindows` and `emitted` are histories that no code reads: the slots of each
window at its DATA_ACK, and the acknowledgements in the order of their sending. -/
structure RecvState where
  iNoOfTimeOuts : Int
  iNoOfPktsExpected : Int
  iNoOfPktsPerMap : Int
  iToNoOfPktsRecvd : Int
  iLoopCntr : Int
  piPktStatus : List UInt8
  pstICoreAreaForData : List StRecvData
  stSequencing : StSequence
  written : List UInt8
  pc : RecvPc
  ackedWindows : List (List StRecvData)
  emitted : List StMsg
  deriving DecidableEq, Repr

/-- The state in which the window loop is entered: the file is open and both
arrays are allocated. -/
def RecvState.init (plan : StCntrlData) : RecvState :=
  { iNoOfTimeOuts := 0
    iNoOfPktsExpected := plan.iNoPktsPerMMap
    iNoOfPktsPerMap := plan.iNoPktsPerMMap
    iToNoOfPktsRecvd := 0
    iLoopCntr := 0
    piPktStatus := List.replicate (plan.iNoPktsPerMMap + 1).toNat pktMissing
    pstICoreAreaForData := List.replicate plan.iNoPktsPerMMap.toNat none
    stSequencing := ⟨1, 1⟩
    written := []
    pc := .recvDataPkt
    ackedWindows := []
    emitted := [] }

/-- An array store; an index outside of the array has no effect here. -/
def storeAt {α : Type*} (cells : List α) (index : Int) (value : α) : List α :=
  if index < 0 then cells else cells.set index.toNat value

/-- The entries '0' among the first `iNoPktsPerMMap`, as `FileTrans_SendDataAck` counts them. -/
def countMissing (piPktStatus : List UInt8) (iNoPktsPerMMap : Int) : Int :=
  ((piPktStatus.take iNoPktsPerMMap.toNat).count pktMissing : Nat)

/-- The message `FileTrans_SendDataAck` builds; DATA_ACK carries no status. -/
def sendDataAck (piPktStatus : List UInt8) (iNoPktsPerMMap : Int) (stSequencing : StSequence)
    (ePktType : EPacketType) : StMsg :=
  { stHeader := ⟨ePktType, 0, stSequencing.iMmapNo, stSequencing.iCorrelater⟩
    iDataLen := iNoPktsPerMMap
    cData := piPktStatus.take iNoPktsPerMMap.toNat }

/-- The bytes one pass of the write loop hands to `write`; an empty slot gives none. -/
def windowBytes (pstICoreAreaForData : List StRecvData) (iNoOfPktsPerMap : Int) : List UInt8 :=
  ((pstICoreAreaForData.take iNoOfPktsPerMap.toNat).map (fun slot => slot.getD [])).flatten

section HandleDataPkt

variable (plan : StCntrlData)

/-- The slot a packet number selects in the current window. -/
def RecvState.iArraySubScript (r : RecvState) (message : StMsg) : Int :=
  message.stHeader.iPktNo - (r.stSequencing.iMmapNo - 1) * plan.iNoPktsPerMMap - 1

/-- The datagram passes both tests of `FileTrans_RecvDataPkt`. -/
def RecvState.Accepts (r : RecvState) (message : StMsg) : Prop :=
  message.stHeader.ePktType = .data ∧ message.sequence = r.stSequencing

instance (r : RecvState) (message : StMsg) : Decidable (r.Accepts message) :=
  inferInstanceAs (Decidable (_ ∧ _))

/-- A datagram arrives in `FileTrans_RecvDataPkt`, which waits for one only
while `iLoopCntr < iNoOfPktsExpected`. -/
def RecvState.recvDataPkt (r : RecvState) (message : StMsg) : Option RecvState :=
  if r.pc ≠ .recvDataPkt ∨ r.iLoopCntr ≥ r.iNoOfPktsExpected then none
  else if r.Accepts message then
    let slot := r.iArraySubScript plan message
    some { r with
      piPktStatus := storeAt r.piPktStatus slot pktReceived
      pstICoreAreaForData := storeAt r.pstICoreAreaForData slot
        (some (message.cData.take message.iDataLen.toNat))
      iLoopCntr := r.iLoopCntr + 1
      iToNoOfPktsRecvd := r.iToNoOfPktsRecvd + 1 }
  else some r

/-- `select` in `FileTrans_RecvDataPkt` runs into its timeout. The result of
sending the DATA_NEG_ACK is not looked at. -/
def RecvState.dataTimeout (r : RecvState) : Option (RecvState × List StMsg) :=
  if r.pc ≠ .recvDataPkt ∨ r.iLoopCntr ≥ r.iNoOfPktsExpected then none
  else
    let r := { r with iNoOfTimeOuts := r.iNoOfTimeOuts + 1 }
    if r.iNoOfTimeOuts > maxNoOfRetries then
      some ({ r with pc := .returned .nascFileTransTimeOut }, [])
    else
      let message := sendDataAck r.piPktStatus r.iNoOfPktsPerMap r.stSequencing .dataNegAck
      some ({ r with
        iNoOfPktsExpected := countMissing r.piPktStatus r.iNoOfPktsPerMap
        stSequencing := ⟨r.stSequencing.iMmapNo, r.stSequencing.iCorrelater + 1⟩
        iLoopCntr := 0
        emitted := r.emitted ++ [message] }, [message])

/-- `FileTrans_RecvDataPkt` has counted `iNoOfPktsExpected` packets and the
window is acknowledged. -/
def RecvState.windowDone (r : RecvState) (sent : Bool) : Option (RecvState × List StMsg) :=
  if r.pc ≠ .recvDataPkt ∨ r.iLoopCntr < r.iNoOfPktsExpected then none
  else if sent then
    let message := sendDataAck [] 0 r.stSequencing .dataAck
    some ({ r with
      pc := .writeWindow
      ackedWindows := r.ackedWindows ++ [r.pstICoreAreaForData.take r.iNoOfPktsPerMap.toNat]
      emitted := r.emitted ++ [message] }, [message])
  else some ({ r with pc := .returned .nascFailure }, [])

/-- The acknowledged window is written and the next one is set up. -/
def RecvState.writeWindow (r : RecvState) : Option RecvState :=
  if r.pc ≠ .writeWindow then none
  else
    let r := { r with
      written := r.written ++ windowBytes r.pstICoreAreaForData r.iNoOfPktsPerMap
      pstICoreAreaForData := List.replicate plan.iNoPktsPerMMap.toNat none
      piPktStatus := clearStatus r.piPktStatus (plan.iNoPktsPerMMap + 1) }
    if r.iToNoOfPktsRecvd = plan.iTotNoPkts then
      some { r with pc := .returned .nascSuccess }
    else
      let iMmapNo := r.stSequencing.iMmapNo + 1
      let r := { r with
        stSequencing := ⟨iMmapNo, 1⟩
        iNoOfPktsExpected := plan.iNoPktsPerMMap
        iLoopCntr := 0
        pc := .recvDataPkt }
      if iMmapNo = plan.iTotNoMaps ∧ plan.iNoExtraMapPackets ≠ 0 then
        some { r with
          iNoOfPktsExpected := plan.iNoExtraMapPackets
          iNoOfPktsPerMap := plan.iNoExtraMapPackets }
      else some r

/-- `select`, `recvfrom` or `malloc` in `FileTrans_RecvDataPkt` fails. -/
def RecvState.dataError (r : RecvState) (error : ENASCenterError) : Option RecvState :=
  if r.pc ≠ .recvDataPkt ∨ r.iLoopCntr ≥ r.iNoOfPktsExpected ∨
      (error ≠ .nascFailure ∧ error ≠ .nascFileTransConnClosed ∧
        error ≠ .nascInsufficientMemory) then none
  else some { r with pc := .returned error }

variable {plan} {r t : RecvState}

theorem RecvState.recvDataPkt_cases {message : StMsg}
    (executed : r.recvDataPkt plan message = some t) :
    r.pc = .recvDataPkt ∧ r.iLoopCntr < r.iNoOfPktsExpected ∧
    ((¬ r.Accepts message ∧ t = r) ∨
      (r.Accepts message ∧ t = { r with
        piPktStatus := storeAt r.piPktStatus (r.iArraySubScript plan message) pktReceived
        pstICoreAreaForData := storeAt r.pstICoreAreaForData (r.iArraySubScript plan message)
          (some (message.cData.take message.iDataLen.toNat))
        iLoopCntr := r.iLoopCntr + 1
        iToNoOfPktsRecvd := r.iToNoOfPktsRecvd + 1 })) := by
  unfold RecvState.recvDataPkt at executed
  split at executed
  · cases executed
  rename_i waiting
  rw [not_or, not_not] at waiting
  refine ⟨waiting.1, by omega, ?_⟩
  split at executed <;> simp only [Option.some.injEq] at executed <;> subst executed
  · rename_i accepted
    exact .inr ⟨accepted, rfl⟩
  · rename_i refused
    exact .inl ⟨refused, rfl⟩

theorem RecvState.dataTimeout_cases {acks : List StMsg}
    (executed : r.dataTimeout = some (t, acks)) :
    r.pc = .recvDataPkt ∧ r.iLoopCntr < r.iNoOfPktsExpected ∧
    ((maxNoOfRetries < r.iNoOfTimeOuts + 1 ∧ acks = [] ∧
        t = { r with
          iNoOfTimeOuts := r.iNoOfTimeOuts + 1
          pc := .returned .nascFileTransTimeOut }) ∨
      (r.iNoOfTimeOuts + 1 ≤ maxNoOfRetries ∧
        acks = [sendDataAck r.piPktStatus r.iNoOfPktsPerMap r.stSequencing .dataNegAck] ∧
        t = { r with
          iNoOfTimeOuts := r.iNoOfTimeOuts + 1
          iNoOfPktsExpected := countMissing r.piPktStatus r.iNoOfPktsPerMap
          stSequencing := ⟨r.stSequencing.iMmapNo, r.stSequencing.iCorrelater + 1⟩
          iLoopCntr := 0
          emitted := r.emitted ++
            [sendDataAck r.piPktStatus r.iNoOfPktsPerMap r.stSequencing .dataNegAck] })) := by
  unfold RecvState.dataTimeout at executed
  split at executed
  · cases executed
  rename_i waiting
  rw [not_or, not_not] at waiting
  refine ⟨waiting.1, by omega, ?_⟩
  simp only at executed
  split at executed <;> simp only [Option.some.injEq, Prod.mk.injEq] at executed <;>
    obtain ⟨rfl, rfl⟩ := executed
  · exact .inl ⟨by omega, rfl, rfl⟩
  · exact .inr ⟨by omega, rfl, rfl⟩

theorem RecvState.windowDone_cases {sent : Bool} {acks : List StMsg}
    (executed : r.windowDone sent = some (t, acks)) :
    r.pc = .recvDataPkt ∧ r.iNoOfPktsExpected ≤ r.iLoopCntr ∧
    ((sent = false ∧ acks = [] ∧ t = { r with pc := .returned .nascFailure }) ∨
      (sent = true ∧ acks = [sendDataAck [] 0 r.stSequencing .dataAck] ∧
        t = { r with
          pc := .writeWindow
          ackedWindows := r.ackedWindows ++ [r.pstICoreAreaForData.take r.iNoOfPktsPerMap.toNat]
          emitted := r.emitted ++ [sendDataAck [] 0 r.stSequencing .dataAck] })) := by
  unfold RecvState.windowDone at executed
  split at executed
  · cases executed
  rename_i waiting
  rw [not_or, not_not] at waiting
  refine ⟨waiting.1, by omega, ?_⟩
  cases sent <;>
    simp only [Bool.false_eq_true, if_true, if_false, Option.some.injEq, Prod.mk.injEq]
      at executed <;> obtain ⟨rfl, rfl⟩ := executed
  · exact .inl ⟨rfl, rfl, rfl⟩
  · exact .inr ⟨rfl, rfl, rfl⟩

theorem RecvState.writeWindow_cases (executed : r.writeWindow plan = some t) :
    r.pc = .writeWindow ∧
    t.written = r.written ++ windowBytes r.pstICoreAreaForData r.iNoOfPktsPerMap ∧
    t.pstICoreAreaForData = List.replicate plan.iNoPktsPerMMap.toNat none ∧
    t.piPktStatus = clearStatus r.piPktStatus (plan.iNoPktsPerMMap + 1) ∧
    t.ackedWindows = r.ackedWindows ∧ t.emitted = r.emitted ∧
    t.iToNoOfPktsRecvd = r.iToNoOfPktsRecvd ∧ t.iNoOfTimeOuts = r.iNoOfTimeOuts ∧
    ((r.iToNoOfPktsRecvd = plan.iTotNoPkts ∧ t.pc = .returned .nascSuccess ∧
        t.stSequencing = r.stSequencing) ∨
      (r.iToNoOfPktsRecvd ≠ plan.iTotNoPkts ∧ t.pc = .recvDataPkt ∧
        t.stSequencing = ⟨r.stSequencing.iMmapNo + 1, 1⟩ ∧ t.iLoopCntr = 0 ∧
        ((r.stSequencing.iMmapNo + 1 = plan.iTotNoMaps ∧ plan.iNoExtraMapPackets ≠ 0 ∧
            t.iNoOfPktsExpected = plan.iNoExtraMapPackets ∧
            t.iNoOfPktsPerMap = plan.iNoExtraMapPackets) ∨
          (¬ (r.stSequencing.iMmapNo + 1 = plan.iTotNoMaps ∧ plan.iNoExtraMapPackets ≠ 0) ∧
            t.iNoOfPktsExpected = plan.iNoPktsPerMMap ∧
            t.iNoOfPktsPerMap = r.iNoOfPktsPerMap)))) := by
  unfold RecvState.writeWindow at executed
  split at executed
  · cases executed
  rename_i writing
  refine ⟨by simpa using writing, ?_⟩
  simp only at executed
  split at executed
  · rename_i complete
    simp only [Option.some.injEq] at executed
    subst executed
    exact ⟨rfl, rfl, rfl, rfl, rfl, rfl, rfl, .inl ⟨complete, rfl, rfl⟩⟩
  rename_i incomplete
  split at executed <;> simp only [Option.some.injEq] at executed <;> subst executed
  · rename_i last
    exact ⟨rfl, rfl, rfl, rfl, rfl, rfl, rfl,
      .inr ⟨incomplete, rfl, rfl, rfl, .inl ⟨last.1, last.2, rfl, rfl⟩⟩⟩
  · rename_i inner
    exact ⟨rfl, rfl, rfl, rfl, rfl, rfl, rfl,
      .inr ⟨incomplete, rfl, rfl, rfl, .inr ⟨inner, rfl, rfl⟩⟩⟩

theorem RecvState.dataError_cases {error : ENASCenterError}
    (executed : r.dataError error = some t) :
    r.pc = .recvDataPkt ∧ error ≠ .nascSuccess ∧ t = { r with pc := .returned error } := by
  unfold RecvState.dataError at executed
  split at executed
  · cases executed
  rename_i waiting
  simp only [Option.some.injEq] at executed
  push Not at waiting
  refine ⟨waiting.1, ?_, executed.symm⟩
  rintro rfl
  exact absurd waiting.2.2 (by decide)

end HandleDataPkt

end EveAgent.FileTrans
