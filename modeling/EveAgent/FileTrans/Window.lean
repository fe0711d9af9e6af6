import EveAgent.FileTrans.Plan

namespace EveAgent.FileTrans

/-- The bytes of packet `iPktNo`, counted from 1. Beyond `maxMappedSize` the
packet number at which the short packet goes out has wrapped around. -/
def PacketOf (file : List UInt8) (iPktNo : Int) (bytes : List UInt8) : Prop :=
  file.length ≤ maxMappedSize → bytes = packet file (iPktNo - 1).toNat

/-- A message of the transfer: a packet of a window, in the place the packet
number gives it. -/
structure DataOk (file : List UInt8) (message : StMsg) : Prop where
  kind : message.stHeader.ePktType = .data
  map : 1 ≤ message.stHeader.iMmapNo
  mappable : (message.stHeader.iMmapNo - 1) * 4096 < 2 ^ 31
  lower : 0 ≤ message.stHeader.iPktNo -
    (message.stHeader.iMmapNo - 1) * (agentPlan file).iNoPktsPerMMap - 1
  upper : message.stHeader.iPktNo -
    (message.stHeader.iMmapNo - 1) * (agentPlan file).iNoPktsPerMMap - 1 <
      slotsOf (agentPlan file) message.stHeader.iMmapNo
  payload : PacketOf file message.stHeader.iPktNo (message.cData.take message.iDataLen.toNat)

/-- The sender's window variables agree with its window counter. -/
structure SendWindowInv (file : List UInt8) (s : SendState) : Prop where
  map : s.stSendSequence.iMmapNo = s.iMmapCntr + 1
  lastNo : s.iLastPktNo = s.iMmapCntr * (agentPlan file).iNoPktsPerMMap
  perMap : s.iNoPktsPerMMap = slotsOf (agentPlan file) (s.iMmapCntr + 1)
  offset : s.iPageOffset = s.iMmapCntr * 4096
  mappable : s.iMmapCntr * 4096 < 2 ^ 31
  more : 0 < (agentPlan file).iTotNoMaps → s.iMmapCntr < (agentPlan file).iTotNoMaps

structure SenderInv (file : List UInt8) (s : SendState) (acked : Nat) : Prop where
  nonneg : 0 ≤ s.iMmapCntr
  acked : s.iMmapCntr ≤ acked
  finished : s.pc = .returned .nascSuccess → (agentPlan file).iTotNoMaps ≤ s.iMmapCntr
  bounded : (s.iMmapCntr - 1) * 4096 < 2 ^ 31
  running : (∀ result, s.pc ≠ .returned result) → SendWindowInv file s
  empty : (agentPlan file).iTotNoMaps ≤ 0 → (∀ result, s.pc ≠ .returned result) →
    s.pc = .sendWindow ∧ s.eReturnValue = .nascSuccess

/-- A slot of the current window is empty and marked '0', or it holds its packet
and is marked '1'. -/
def SlotOk (file : List UInt8) (r : RecvState) (slot : Nat) : Prop :=
  (r.piPktStatus[slot]? = some pktMissing ∧ r.pstICoreAreaForData[slot]? = some none) ∨
    (r.piPktStatus[slot]? = some pktReceived ∧
      ∃ bytes, r.pstICoreAreaForData[slot]? = some (some bytes) ∧
        PacketOf file ((r.stSequencing.iMmapNo - 1) * (agentPlan file).iNoPktsPerMMap + slot + 1)
          bytes)

def missing (r : RecvState) : Int := countMissing r.piPktStatus r.iNoOfPktsPerMap

structure RecvWindowInv (file : List UInt8) (r : RecvState) : Prop where
  map : 1 ≤ r.stSequencing.iMmapNo
  perMap : r.iNoOfPktsPerMap = slotsOf (agentPlan file) r.stSequencing.iMmapNo
  statusLength : r.piPktStatus.length = ((agentPlan file).iNoPktsPerMMap + 1).toNat
  dataLength : r.pstICoreAreaForData.length = (agentPlan file).iNoPktsPerMMap.toNat
  slots : ∀ slot : Nat, (slot : Int) < r.iNoOfPktsPerMap → SlotOk file r slot
  total : r.iToNoOfPktsRecvd =
    (r.stSequencing.iMmapNo - 1) * (agentPlan file).iNoPktsPerMMap + r.iNoOfPktsPerMap - missing r
  inRange : file.length ≤ maxMappedSize →
    r.stSequencing.iMmapNo ≤ max (agentPlan file).iTotNoMaps 1
  mappable : missing r < r.iNoOfPktsPerMap → (r.stSequencing.iMmapNo - 1) * 4096 < 2 ^ 31

/-- Window `index`, counted from 0, was acknowledged with all of its packets. -/
structure AckedWindow (file : List UInt8) (index : Nat) (window : List StRecvData) : Prop where
  length : window.length = (slotsOf (agentPlan file) (index + 1)).toNat
  filled : ∀ (slot : Nat) (cell : StRecvData), window[slot]? = some cell → ∃ bytes,
    cell = some bytes ∧
    PacketOf file (index * (agentPlan file).iNoPktsPerMMap + slot + 1) bytes

def pendingWrite (r : RecvState) : List UInt8 :=
  if r.pc = .writeWindow then windowBytes r.pstICoreAreaForData r.iNoOfPktsPerMap else []

/-- The bytes of a window: every slot once, in order. -/
def windowContent (window : List StRecvData) : List UInt8 :=
  (window.map (fun slot => slot.getD [])).flatten

structure ReceiverInv (file : List UInt8) (r : RecvState) : Prop where
  window : r.pc = .recvDataPkt ∨ r.pc = .writeWindow → RecvWindowInv file r
  receiving : r.pc = .recvDataPkt →
    (r.ackedWindows.length : Int) = r.stSequencing.iMmapNo - 1 ∧
      r.iNoOfPktsExpected - r.iLoopCntr = missing r
  writing : r.pc = .writeWindow →
    (r.ackedWindows.length : Int) = r.stSequencing.iMmapNo ∧ missing r = 0
  acked : ∀ (index : Nat) (window : List StRecvData),
    r.ackedWindows[index]? = some window → AckedWindow file index window
  bounded : file.length ≤ maxMappedSize →
    (r.ackedWindows.length : Int) ≤ max (agentPlan file).iTotNoMaps 1
  bytes : r.written ++ pendingWrite r = (r.ackedWindows.map windowContent).flatten

structure TransferInv (file : List UInt8) (s : Session) : Prop where
  sender : SenderInv file s.sender s.receiver.ackedWindows.length
  receiver : ReceiverInv file s.receiver
  data : ∀ message ∈ s.toReceiver, DataOk file message
  acks : ∀ message ∈ s.toSender, message.stHeader.ePktType = .dataAck →
    message.stHeader.iMmapNo ≤ s.receiver.ackedWindows.length

/-- The receiver never counts a packet into a slot that is already marked '1'. -/
def FillsEmptySlot (file : List UInt8) (s : Session) : SessionEvent → Prop
  | .recvDataPkt message =>
    s.receiver.Accepts message →
      s.receiver.piPktStatus[(s.receiver.iArraySubScript (agentPlan file) message).toNat]? =
        some pktMissing
  | _ => True

instance (file : List UInt8) (s : Session) (event : SessionEvent) :
    Decidable (FillsEmptySlot file s event) := by
  cases event <;> simp only [FillsEmptySlot] <;> infer_instance

section Missing

variable {status : List UInt8} {count : Int}

theorem countMissing_nonneg (status : List UInt8) (count : Int) :
    0 ≤ countMissing status count := by
  simp only [countMissing]
  omega

theorem countMissing_store {slot : Nat} (inside : (slot : Int) < count)
    (empty : status[slot]? = some pktMissing) :
    countMissing (status.set slot pktReceived) count = countMissing status count - 1 := by
  obtain ⟨bound, value⟩ := List.getElem?_eq_some_iff.mp empty
  have taken : slot < (status.take count.toNat).length := by
    rw [List.length_take]
    omega
  have here : (status.take count.toNat)[slot] = pktMissing := by
    rw [List.getElem_take]
    exact value
  have present : 0 < (status.take count.toNat).count pktMissing := by
    rw [List.count_pos_iff, ← here]
    exact List.getElem_mem taken
  have other : (pktReceived == pktMissing) = false := by decide
  simp only [countMissing, List.take_set]
  rw [List.count_set taken, here]
  simp only [beq_self_eq_true, if_true, other, Bool.false_eq_true, if_false, add_zero]
  omega

theorem countMissing_zero {slot : Nat} (none : countMissing status count = 0)
    (inside : (slot : Int) < count) : status[slot]? ≠ some pktMissing := by
  intro empty
  have stored := countMissing_store inside empty
  have nonneg := countMissing_nonneg (status.set slot pktReceived) count
  omega

theorem countMissing_clear (status : List UInt8) {length count : Int} (nonneg : 0 ≤ count)
    (inside : count ≤ length) : countMissing (clearStatus status length) count = count := by
  have short : count.toNat ≤ (List.replicate length.toNat pktMissing).length := by
    rw [List.length_replicate]
    omega
  simp only [countMissing, clearStatus]
  rw [List.take_append_of_le_length short, List.take_replicate, List.count_replicate_self]
  omega

end Missing

section Sender

variable {file : List UInt8} {s t : SendState} {acked : Nat}

theorem senderInv_init (file : List UInt8) (small : file.length ≤ maxPlannedSize) :
    SenderInv file (SendState.init (agentPlan file)) 0 := by
  refine ⟨by simp [SendState.init], by simp [SendState.init], by simp [SendState.init],
    by simp [SendState.init], ?_, by simp [SendState.init]⟩
  intro _
  refine ⟨by simp [SendState.init], by simp [SendState.init], ?_, by simp [SendState.init],
    by simp [SendState.init], by simp [SendState.init]⟩
  simp only [SendState.init, zero_add]
  exact (agentPlan_firstSlots file small).symm

theorem SenderInv.mono {more : Nat} (inv : SenderInv file s acked) (le : acked ≤ more) :
    SenderInv file s more :=
  { inv with acked := by have := inv.acked; omega }

theorem sendWindow_payload (small : file.length ≤ maxPlannedSize) (inv : SendWindowInv file s)
    (nonneg : 0 ≤ s.iMmapCntr) (more : s.iMmapCntr < (agentPlan file).iTotNoMaps)
    {page : List UInt8} (mapped : mmapPage file agentPageSize s.iPageOffset = some page)
    {message : StMsg}
    (member : message ∈ sendActualDataLoop page s.piPktStatus s.stSendSequence 512
      (agentPlan file).iMesgSizeForLastPkt (agentPlan file).iTotNoPkts s.iNoPktsPerMMap.toNat 1
      s.iLastPktNo 0 0) : DataOk file message := by
  obtain ⟨index, bound, header, _, len, bytes⟩ :=
    sendActualDataLoop_mem s.iNoPktsPerMMap.toNat 1 s.iLastPktNo 0 0 (by omega) member
  have slots := agentPlan_slots file (s.iMmapCntr + 1)
  have inside : (index : Int) < slotsOf (agentPlan file) (s.iMmapCntr + 1) := by
    have perMap := inv.perMap
    omega
  have place : s.iLastPktNo + (index : Int) + 1 -
      (s.iMmapCntr + 1 - 1) * (agentPlan file).iNoPktsPerMMap - 1 = index := by
    rw [inv.lastNo, add_sub_cancel_right]
    ring
  have mappable := inv.mappable
  refine ⟨by rw [header], ?_, ?_, ?_, ?_, ?_⟩
  · rw [header, inv.map]
    simp only
    omega
  · rw [header, inv.map]
    simp only
    omega
  · rw [header, inv.map]
    simp only
    omega
  · rw [header, inv.map]
    simp only
    omega
  · intro mappable
    -- the window counter as a natural number, for the places in the file
    obtain ⟨window, counter⟩ : ∃ window : Nat, s.iMmapCntr = window :=
      ⟨s.iMmapCntr.toNat, by omega⟩
    rw [counter] at more inside
    obtain ⟨base, eight, reach⟩ := agentPlan_inside file small more inside
    have number : ∀ next : Nat, s.iLastPktNo + (next : Int) + 1 =
        ((8 * window + next : Nat) : Int) + 1 := by
      intro next
      rw [inv.lastNo, counter, base]
      push_cast
      ring
    have full : ∀ before < index,
        dataLen 512 (agentPlan file).iMesgSizeForLastPkt (agentPlan file).iTotNoPkts
          (s.iLastPktNo + before + 1) = 512 := by
      intro before below
      rw [number before, agentPlan_dataLen file mappable (by omega), if_pos (by omega)]
    have offset : s.iPageOffset = ((4096 * window : Nat) : Int) := by
      rw [inv.offset, counter]
      push_cast
      ring
    rw [offset] at mapped
    rw [number index, agentPlan_dataLen file mappable reach] at len
    have place : (message.stHeader.iPktNo - 1).toNat = 8 * window + index := by
      rw [header]
      simp only
      rw [number index]
      omega
    have start : (0 + 0 + 512 * (index : Int)).toNat = 512 * index := by omega
    rw [bytes full, start, List.take_take, min_self, place]
    refine page_packet eight mapped _ ?_
    rw [len]
    split <;> omega

theorem senderInv_sendWindow (small : file.length ≤ maxPlannedSize) {fault : SendFault}
    {packets : List StMsg} (inv : SenderInv file s acked)
    (executed : s.sendWindow file agentPageSize (agentPlan file) fault = some (t, packets)) :
    SenderInv file t acked ∧ ∀ message ∈ packets, DataOk file message := by
  obtain ⟨waiting, cases⟩ := SendState.sendWindow_cases executed
  have window := inv.running (by simp [waiting])
  rcases cases with ⟨done, rfl, rfl⟩ | ⟨_, _, rfl, rfl⟩ |
    ⟨more, _, page, result, mapped, sent, outcome⟩
  · exact ⟨{ inv with finished := fun _ => done, running := by simp, empty := by simp }, by simp⟩
  · exact ⟨{ inv with finished := by simp, running := by simp, empty := by simp }, by simp⟩
  · have packetsOk : ∀ message ∈ packets, DataOk file message := by
      intro message member
      exact sendWindow_payload small window inv.nonneg more mapped
        ((sendActualData_cases sent).1 message member)
    rcases outcome with ⟨_, rfl⟩ | ⟨failed, rfl⟩
    · refine ⟨{ inv with finished := by simp, running := ?_, empty := ?_ }, packetsOk⟩
      · intro _
        exact { window with }
      · intro none
        have nonneg := inv.nonneg
        omega
    · exact ⟨{ inv with
        finished := by
          intro success
          exact absurd (SendPc.returned.inj success) failed
        running := by simp
        empty := by simp }, packetsOk⟩

theorem senderInv_dataAck {mapped : Bool} (inv : SenderInv file s acked)
    (window : SendWindowInv file s) (next : s.iMmapCntr + 1 ≤ acked) :
    SenderInv file (s.dataAck file agentPageSize (agentPlan file) mapped) acked := by
  obtain ⟨counter, cases⟩ :=
    SendState.dataAck_cases file agentPageSize (agentPlan file) s mapped
  have nonneg := inv.nonneg
  have mappable := window.mappable
  refine ⟨by omega, by omega, ?_, by omega, ?_, ?_⟩
  · intro success
    rcases cases with ⟨last, _⟩ | ⟨_, _, failed, _⟩ | ⟨_, _, started⟩
    · omega
    · rw [failed] at success
      cases success
    · rw [started] at success
      cases success
  · intro running
    rcases cases with ⟨_, ended, _⟩ | ⟨_, _, failed, _⟩ | ⟨more, mappableNext, started⟩
    · exact absurd ended (running _)
    · exact absurd failed (running _)
    · have inner : slotsOf (agentPlan file) (s.iMmapCntr + 1) =
        (agentPlan file).iNoPktsPerMMap := by
        simp only [slotsOf]
        rw [if_neg (by omega)]
      have page : agentPageSize = 4096 := rfl
      rw [page] at mappableNext started
      have offset : i32 ((s.iMmapCntr + 1) * 4096) = (s.iMmapCntr + 1) * 4096 := by
        simp only [i32] at *
        omega
      have below : (s.iMmapCntr + 1) * 4096 < 2 ^ 31 := by
        have range := i32_range ((s.iMmapCntr + 1) * 4096)
        omega
      rw [page, started]
      refine ⟨?_, ?_, ?_, offset, below, fun _ => more⟩
      · simp only [window.map]
      · simp only [window.lastNo, window.perMap, inner]
        ring
      · rw [slotsOf]
        simp only [window.perMap, inner]
  · intro none running
    rcases cases with ⟨_, ended, _⟩ | ⟨_, _, failed, _⟩ | ⟨more, _, _⟩
    · exact absurd ended (running _)
    · exact absurd failed (running _)
    · omega

theorem SenderInv.waits (inv : SenderInv file s acked) (waiting : s.pc = .recvAck) :
    0 < (agentPlan file).iTotNoMaps := by
  by_contra none
  obtain ⟨sending, _⟩ := inv.empty (by omega) (by simp [waiting])
  rw [waiting] at sending
  cases sending

theorem senderInv_recvAck {message : StMsg} {mapped : Bool} (inv : SenderInv file s acked)
    (ackedBefore : message.stHeader.ePktType = .dataAck → message.stHeader.iMmapNo ≤ acked)
    (executed : s.recvAck file agentPageSize (agentPlan file) message mapped = some t) :
    SenderInv file t acked := by
  obtain ⟨waiting, cases⟩ := SendState.recvAck_cases executed
  have window := inv.running (by simp [waiting])
  have positive := inv.waits waiting
  have readInv : SenderInv file { s with
      piPktStatus := memcpyBytes s.piPktStatus message.cData message.iDataLen } acked :=
    { inv with running := fun _ => { window with } }
  rcases cases with ⟨_, rfl⟩ | ⟨same, kind, rfl⟩ | ⟨_, _, rfl⟩ | ⟨_, _, _, rfl⟩
  · exact readInv
  · refine senderInv_dataAck readInv { window with } ?_
    have number : message.stHeader.iMmapNo = s.iMmapCntr + 1 := by
      rw [← window.map, ← same]
      rfl
    have before := ackedBefore kind
    simp only
    omega
  · exact { readInv with
      finished := by simp [SendState.dataNegAck]
      running := fun _ => { window with }
      empty := fun none => by omega }
  · exact { readInv with
      finished := by simp
      running := fun _ => { window with }
      empty := fun none => by omega }

theorem senderInv_ackTimeout (inv : SenderInv file s acked) (executed : s.ackTimeout = some t) :
    SenderInv file t acked := by
  obtain ⟨waiting, rfl⟩ := SendState.ackTimeout_cases executed
  have window := inv.running (by simp [waiting])
  have positive := inv.waits waiting
  exact { inv with
    finished := by simp
    running := fun _ => { window with }
    empty := fun none => by omega }

theorem senderInv_ackError {error : ENASCenterError} (inv : SenderInv file s acked)
    (executed : s.ackError error = some t) : SenderInv file t acked := by
  obtain ⟨_, failed, rfl⟩ := SendState.ackError_cases executed
  refine { inv with finished := ?_, running := by simp, empty := by simp }
  intro success
  exact absurd (SendPc.returned.inj success) failed

end Sender

section Receiver

variable {file : List UInt8} {r t : RecvState}

theorem recvWindowInv_fresh (iMmapNo : Int) (first : 1 ≤ iMmapNo)
    (map : r.stSequencing.iMmapNo = iMmapNo)
    (perMap : r.iNoOfPktsPerMap = slotsOf (agentPlan file) iMmapNo)
    (statusLength : r.piPktStatus.length = ((agentPlan file).iNoPktsPerMMap + 1).toNat)
    (cleared : ∃ status, r.piPktStatus =
      clearStatus status ((agentPlan file).iNoPktsPerMMap + 1))
    (empty : r.pstICoreAreaForData = List.replicate (agentPlan file).iNoPktsPerMMap.toNat none)
    (total : r.iToNoOfPktsRecvd = (iMmapNo - 1) * (agentPlan file).iNoPktsPerMMap)
    (inRange : file.length ≤ maxMappedSize → iMmapNo ≤ max (agentPlan file).iTotNoMaps 1) :
    RecvWindowInv file r ∧ missing r = r.iNoOfPktsPerMap := by
  obtain ⟨status, cleared⟩ := cleared
  have slots := agentPlan_slots file iMmapNo
  have all : missing r = r.iNoOfPktsPerMap := by
    simp only [missing]
    rw [cleared]
    exact countMissing_clear status (by omega) (by omega)
  refine ⟨⟨by omega, by rw [perMap, map], statusLength, ?_, ?_, ?_, ?_, ?_⟩, all⟩
  · rw [empty, List.length_replicate]
  · intro slot inside
    refine .inl ⟨?_, ?_⟩
    · rw [cleared, clearStatus, List.getElem?_append_left, List.getElem?_replicate, if_pos]
      · omega
      · rw [List.length_replicate]
        omega
    · rw [empty, List.getElem?_replicate, if_pos]
      omega
  · rw [total, map, all]
    omega
  · rw [map]
    exact inRange
  · omega

theorem receiverInv_init (file : List UInt8) (small : file.length ≤ maxPlannedSize) :
    ReceiverInv file (RecvState.init (agentPlan file)) := by
  have fresh : RecvWindowInv file (RecvState.init (agentPlan file)) ∧
      missing (RecvState.init (agentPlan file)) = (agentPlan file).iNoPktsPerMMap := by
    refine recvWindowInv_fresh 1 (by omega) rfl
      (agentPlan_firstSlots file small).symm ?_ ⟨[], ?_⟩ rfl ?_ ?_
    · simp [RecvState.init]
    · simp [RecvState.init, clearStatus]
    · simp [RecvState.init]
    · intro _
      omega
  refine ⟨fun _ => fresh.1, ?_, ?_, ?_, ?_, ?_⟩
  · intro _
    refine ⟨rfl, ?_⟩
    rw [fresh.2]
    simp [RecvState.init]
  · intro writing
    cases writing
  · intro index window member
    simp [RecvState.init] at member
  · intro _
    simp only [RecvState.init, List.length_nil, Nat.cast_zero]
    omega
  · rfl

theorem receiverInv_recvDataPkt {message : StMsg} (inv : ReceiverInv file r)
    (data : DataOk file message)
    (fills : r.Accepts message →
      r.piPktStatus[(r.iArraySubScript (agentPlan file) message).toNat]? = some pktMissing)
    (executed : r.recvDataPkt (agentPlan file) message = some t) :
    ReceiverInv file t ∧ t.ackedWindows = r.ackedWindows := by
  obtain ⟨waiting, _, cases⟩ := RecvState.recvDataPkt_cases executed
  rcases cases with ⟨_, rfl⟩ | ⟨accepted, rfl⟩
  · exact ⟨inv, rfl⟩
  have window := inv.window (.inl waiting)
  have counted := inv.receiving waiting
  have sameMap : message.stHeader.iMmapNo = r.stSequencing.iMmapNo := by
    rw [← accepted.2]
    rfl
  obtain ⟨slot, subscript⟩ : ∃ slot : Nat, r.iArraySubScript (agentPlan file) message = slot := by
    refine ⟨(r.iArraySubScript (agentPlan file) message).toNat, ?_⟩
    have lower := data.lower
    rw [sameMap] at lower
    simp only [RecvState.iArraySubScript]
    omega
  have inside : (slot : Int) < r.iNoOfPktsPerMap := by
    have upper := data.upper
    rw [sameMap, ← window.perMap] at upper
    rw [← subscript]
    exact upper
  have empty : r.piPktStatus[slot]? = some pktMissing := by
    have filled := fills accepted
    rwa [subscript, Int.toNat_natCast] at filled
  have slots := agentPlan_slots file r.stSequencing.iMmapNo
  have perMap := window.perMap
  have place : message.stHeader.iPktNo =
      (r.stSequencing.iMmapNo - 1) * (agentPlan file).iNoPktsPerMMap + slot + 1 := by
    simp only [RecvState.iArraySubScript] at subscript
    omega
  have stored : storeAt r.piPktStatus (slot : Int) pktReceived =
      r.piPktStatus.set slot pktReceived := by
    simp [storeAt]
  have kept : storeAt r.pstICoreAreaForData (slot : Int)
      (some (message.cData.take message.iDataLen.toNat)) =
      r.pstICoreAreaForData.set slot (some (message.cData.take message.iDataLen.toNat)) := by
    simp [storeAt]
  have fewer := countMissing_store inside empty
  rw [subscript, stored, kept]
  refine ⟨⟨?_, ?_, ?_, inv.acked, inv.bounded, ?_⟩, rfl⟩
  · intro _
    refine ⟨window.map, perMap, ?_, ?_, ?_, ?_, window.inRange, ?_⟩
    · rw [List.length_set]
      exact window.statusLength
    · rw [List.length_set]
      exact window.dataLength
    · intro other below
      by_cases same : slot = other
      · subst same
        refine .inr ⟨?_, message.cData.take message.iDataLen.toNat, ?_, ?_⟩
        · rw [List.getElem?_set_self]
          rw [window.statusLength]
          omega
        · rw [List.getElem?_set_self]
          rw [window.dataLength]
          omega
        · rw [← place]
          exact data.payload
      · simp only [SlotOk, List.getElem?_set_ne same]
        exact window.slots other below
    · have total := window.total
      simp only [missing] at *
      rw [fewer]
      omega
    · intro _
      simp only
      rw [← sameMap]
      exact data.mappable
  · intro _
    refine ⟨counted.1, ?_⟩
    have balance := counted.2
    simp only [missing] at *
    rw [fewer]
    omega
  · intro writing
    simp only at writing
    rw [waiting] at writing
    cases writing
  · have bytes := inv.bytes
    simp only [pendingWrite, waiting, reduceCtorEq, if_false] at *
    exact bytes

theorem receiverInv_dataTimeout {acks : List StMsg} (inv : ReceiverInv file r)
    (executed : r.dataTimeout = some (t, acks)) :
    ReceiverInv file t ∧ t.ackedWindows = r.ackedWindows ∧
      ∀ message ∈ acks, message.stHeader.ePktType = .dataNegAck := by
  obtain ⟨waiting, _, cases⟩ := RecvState.dataTimeout_cases executed
  have window := inv.window (.inl waiting)
  have bytes := inv.bytes
  rcases cases with ⟨_, rfl, rfl⟩ | ⟨_, rfl, rfl⟩
  · refine ⟨⟨by simp, by simp, by simp, inv.acked, inv.bounded, ?_⟩, rfl, by simp⟩
    simpa [pendingWrite, waiting] using bytes
  · refine ⟨⟨?_, ?_, ?_, inv.acked, inv.bounded, ?_⟩, rfl, by simp [sendDataAck]⟩
    · intro _
      exact { window with }
    · intro _
      refine ⟨(inv.receiving waiting).1, ?_⟩
      simp [missing]
    · intro writing
      simp only at writing
      rw [waiting] at writing
      cases writing
    · simpa [pendingWrite, waiting] using bytes

theorem recvWindowInv_complete (window : RecvWindowInv file r) (none : missing r = 0)
    {index : Nat} (number : (index : Int) = r.stSequencing.iMmapNo - 1) :
    AckedWindow file index (r.pstICoreAreaForData.take r.iNoOfPktsPerMap.toNat) := by
  have slots := agentPlan_slots file r.stSequencing.iMmapNo
  have perMap := window.perMap
  have next : (index : Int) + 1 = r.stSequencing.iMmapNo := by omega
  refine ⟨?_, ?_⟩
  · rw [List.length_take, window.dataLength, next, ← perMap]
    omega
  · intro slot cell member
    rw [List.getElem?_take] at member
    split at member
    · rename_i below
      have inside : (slot : Int) < r.iNoOfPktsPerMap := by omega
      rcases window.slots slot inside with ⟨empty, _⟩ | ⟨_, bytes, held, content⟩
      · exact absurd empty (countMissing_zero none inside)
      · rw [held] at member
        obtain rfl := Option.some.inj member
        rw [number]
        exact ⟨bytes, rfl, content⟩
    · cases member

theorem receiverInv_windowDone {sent : Bool} {acks : List StMsg} (inv : ReceiverInv file r)
    (executed : r.windowDone sent = some (t, acks)) :
    ReceiverInv file t ∧ r.ackedWindows.length ≤ t.ackedWindows.length ∧
      ∀ message ∈ acks, message.stHeader.iMmapNo ≤ t.ackedWindows.length := by
  obtain ⟨waiting, counted, cases⟩ := RecvState.windowDone_cases executed
  have window := inv.window (.inl waiting)
  have receiving := inv.receiving waiting
  have bytes := inv.bytes
  rcases cases with ⟨_, rfl, rfl⟩ | ⟨_, rfl, rfl⟩
  · refine ⟨⟨by simp, by simp, by simp, inv.acked, inv.bounded, ?_⟩, by simp, by simp⟩
    simpa [pendingWrite, waiting] using bytes
  · have none : missing r = 0 := by
      have nonneg := countMissing_nonneg r.piPktStatus r.iNoOfPktsPerMap
      have balance := receiving.2
      simp only [missing] at *
      omega
    have last := recvWindowInv_complete window none receiving.1
    refine ⟨⟨?_, by simp, ?_, ?_, ?_, ?_⟩, by simp, ?_⟩
    · intro _
      exact { window with }
    · intro _
      refine ⟨?_, none⟩
      simp only [List.length_append, List.length_singleton, Nat.cast_add, Nat.cast_one]
      omega
    · intro index acked member
      rcases Nat.lt_or_ge index r.ackedWindows.length with before | after
      · rw [List.getElem?_append_left before] at member
        exact inv.acked index acked member
      · rw [List.getElem?_append_right after] at member
        obtain ⟨bound, value⟩ := List.getElem?_eq_some_iff.mp member
        have here : index = r.ackedWindows.length := by
          simp only [List.length_singleton] at bound
          omega
        subst here
        simp only [Nat.sub_self, List.getElem_cons_zero] at value
        rw [← value]
        exact last
    · intro mappable
      have inRange := window.inRange mappable
      simp only [List.length_append, List.length_singleton, Nat.cast_add, Nat.cast_one]
      omega
    · simp only [pendingWrite, waiting, reduceCtorEq, if_false, List.append_nil, if_true,
        windowBytes, windowContent, List.map_append, List.flatten_append, List.map_singleton,
        List.flatten_singleton] at *
      rw [bytes]
    · intro message member
      obtain rfl := List.mem_singleton.mp member
      simp only [sendDataAck, List.length_append, List.length_singleton, Nat.cast_add, Nat.cast_one]
      omega

theorem recvWindowInv_next (small : file.length ≤ maxPlannedSize) (window : RecvWindowInv file r)
    (none : missing r = 0) (incomplete : r.iToNoOfPktsRecvd ≠ (agentPlan file).iTotNoPkts) :
    slotsOf (agentPlan file) r.stSequencing.iMmapNo = (agentPlan file).iNoPktsPerMMap ∧
      (file.length ≤ maxMappedSize →
        r.stSequencing.iMmapNo + 1 ≤ max (agentPlan file).iTotNoMaps 1) := by
  have notLast : file.length ≤ maxMappedSize →
      r.stSequencing.iMmapNo + 1 ≤ max (agentPlan file).iTotNoMaps 1 := by
    intro mappable
    by_contra beyond
    have inRange := window.inRange mappable
    have exact := agentPlan_exact file mappable r.stSequencing.iMmapNo (by omega)
    have total := window.total
    rw [none, window.perMap, ← exact] at total
    omega
  refine ⟨?_, notLast⟩
  have map := window.map
  rcases Nat.lt_or_ge maxMappedSize file.length with large | mappable
  · -- the page of the window was mapped, and a file of this size has pages beyond it
    have slots := agentPlan_slots file r.stSequencing.iMmapNo
    have maps := agentPlan_maps file small
    have extra := agentPlan_extra file
    have perMap := window.perMap
    have mappedPage := window.mappable
    simp only [maxMappedSize] at large
    simp only [slotsOf] at perMap ⊢
    split
    · rename_i last
      rw [if_pos last] at perMap
      omega
    · rfl
  · have maps := agentPlan_maps file small
    have extra := agentPlan_extra file
    have next := notLast mappable
    simp only [slotsOf]
    split
    · rename_i last
      rw [extra] at last
      omega
    · rfl

theorem receiverInv_writeWindow (small : file.length ≤ maxPlannedSize) (inv : ReceiverInv file r)
    (executed : r.writeWindow (agentPlan file) = some t) :
    ReceiverInv file t ∧ t.ackedWindows = r.ackedWindows := by
  obtain ⟨writing, written, dataCleared, statusCleared, sameAcked, _, sameTotal, _, cases⟩ :=
    RecvState.writeWindow_cases executed
  have window := inv.window (.inr writing)
  have acked := inv.writing writing
  have bytes : t.written = (t.ackedWindows.map windowContent).flatten := by
    rw [written, sameAcked, ← inv.bytes, pendingWrite, if_pos writing]
  refine ⟨?_, sameAcked⟩
  rcases cases with ⟨_, ended, _⟩ | ⟨incomplete, waiting, sequence, counter, bounds⟩
  · refine ⟨by simp [ended], by simp [ended], by simp [ended], ?_, ?_, ?_⟩
    · rw [sameAcked]
      exact inv.acked
    · rw [sameAcked]
      exact inv.bounded
    · simpa [pendingWrite, ended] using bytes
  · obtain ⟨full, inRange⟩ := recvWindowInv_next small window acked.2 incomplete
    have map := window.map
    have perMap : t.iNoOfPktsPerMap = slotsOf (agentPlan file) (r.stSequencing.iMmapNo + 1) ∧
        t.iNoOfPktsExpected = t.iNoOfPktsPerMap := by
      simp only [slotsOf]
      rcases bounds with ⟨last, extra, expected, count⟩ | ⟨inner, expected, count⟩
      · rw [if_pos ⟨last, extra⟩, count, expected]
        exact ⟨rfl, rfl⟩
      · rw [if_neg inner, count, expected, window.perMap, full]
        exact ⟨rfl, rfl⟩
    have fresh : RecvWindowInv file t ∧ missing t = t.iNoOfPktsPerMap :=
      recvWindowInv_fresh (r.stSequencing.iMmapNo + 1) (by omega) (by rw [sequence]) perMap.1
      (by
        have slots := agentPlan_slots file r.stSequencing.iMmapNo
        rw [statusCleared, clearStatus, List.length_append, List.length_replicate,
          List.length_drop, window.statusLength]
        omega)
      ⟨r.piPktStatus, statusCleared⟩ dataCleared
      (by
        rw [sameTotal, window.total, acked.2, window.perMap, full]
        ring)
      inRange
    refine ⟨fun _ => fresh.1, ?_, by simp [waiting], ?_, ?_, ?_⟩
    · intro _
      rw [sameAcked, sequence, acked.1, fresh.2, perMap.2, counter]
      simp
    · rw [sameAcked]
      exact inv.acked
    · rw [sameAcked]
      exact inv.bounded
    · simpa [pendingWrite, waiting] using bytes

theorem receiverInv_dataError {error : ENASCenterError} (inv : ReceiverInv file r)
    (executed : r.dataError error = some t) :
    ReceiverInv file t ∧ t.ackedWindows = r.ackedWindows := by
  obtain ⟨waiting, _, rfl⟩ := RecvState.dataError_cases executed
  have bytes := inv.bytes
  refine ⟨⟨by simp, by simp, by simp, inv.acked, inv.bounded, ?_⟩, rfl⟩
  simpa [pendingWrite, waiting] using bytes

end Receiver

end EveAgent.FileTrans
