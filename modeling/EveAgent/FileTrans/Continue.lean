import EveAgent.FileTrans.LostAck

namespace EveAgent.FileTrans

open Machine

section Window

variable {status : List UInt8} {count : Int}

theorem countMissing_pos (some : 0 < countMissing status count) :
    ∃ slot : Nat, (slot : Int) < count ∧ status[slot]? = .some pktMissing := by
  have present : 0 < (status.take count.toNat).count pktMissing := by
    simp only [countMissing] at some
    omega
  obtain ⟨slot, inside, value⟩ := List.mem_iff_getElem.mp (List.count_pos_iff.mp present)
  rw [List.length_take] at inside
  rw [List.getElem_take] at value
  exact ⟨slot, by omega, List.getElem?_eq_some_iff.mpr ⟨by omega, value⟩⟩

theorem memcpyBytes_slot (target : List UInt8) {slot : Nat} (inside : (slot : Int) < count)
    (missing : status[slot]? = some pktMissing) :
    (memcpyBytes target (status.take count.toNat) count)[slot]? = some pktMissing := by
  obtain ⟨bound, _⟩ := List.getElem?_eq_some_iff.mp missing
  rw [memcpyBytes, List.take_take, min_self, List.getElem?_append_left, List.getElem?_take,
    if_pos (by omega), missing]
  rw [List.length_take]
  omega

theorem clearStatus_slot (target : List UInt8) {slot : Nat} (inside : (slot : Int) < count) :
    (clearStatus target count)[slot]? = some pktMissing := by
  rw [clearStatus, List.getElem?_append_left, List.getElem?_replicate, if_pos (by omega)]
  rw [List.length_replicate]
  omega

end Window

section SenderMoves

variable {file : List UInt8} {s : SendState}

theorem sendWindow_passes (waiting : s.pc = .sendWindow) (window : SendWindowInv file s)
    (nonneg : 0 ≤ s.iMmapCntr) (more : s.iMmapCntr < (agentPlan file).iTotNoMaps)
    (budget : s.iNoOfRetries ≤ maxNoOfRetries) :
    ∃ packets, s.sendWindow file agentPageSize (agentPlan file) .none =
        some ({ s with eReturnValue := .nascSuccess, pc := .recvAck }, packets) ∧
      ∀ slot : Nat, (slot : Int) < s.iNoPktsPerMMap → s.piPktStatus[slot]? = some pktMissing →
        ∃ message ∈ packets, message.stHeader =
          ⟨.data, s.iLastPktNo + slot + 1, s.stSendSequence.iMmapNo,
            s.stSendSequence.iCorrelater⟩ := by
  have offset : ¬ s.iPageOffset < 0 := by
    rw [window.offset]
    omega
  obtain ⟨page, mapped⟩ : ∃ page, mmapPage file agentPageSize s.iPageOffset = some page := by
    simp only [mmapPage]
    rw [if_neg offset]
    exact ⟨_, rfl⟩
  refine ⟨sendActualDataLoop page s.piPktStatus s.stSendSequence 512
    (agentPlan file).iMesgSizeForLastPkt (agentPlan file).iTotNoPkts s.iNoPktsPerMMap.toNat 1
    s.iLastPktNo 0 0, ?_, ?_⟩
  · unfold SendState.sendWindow
    rw [if_neg (by simp [waiting]), if_neg (by omega), if_neg (by omega), mapped]
    rfl
  · intro slot inside missing
    exact sendActualDataLoop_complete _ 1 _ 0 0 (by omega) (by omega) (by simpa using missing)

/-- What the sender knows after it has followed an acknowledgement. -/
def Reflects (file : List UInt8) (s : SendState) (ack : StMsg) : Prop :=
  if isNegAck ack then ∃ status, s.piPktStatus = memcpyBytes status ack.cData ack.iDataLen
  else ∃ status, s.piPktStatus = clearStatus status ((agentPlan file).iNoPktsPerMMap + 1)

theorem recvAck_follows (mappable : file.length ≤ maxMappedSize) (waiting : s.pc = .recvAck)
    (window : SendWindowInv file s) (nonneg : 0 ≤ s.iMmapCntr) {ack : StMsg}
    (same : ack.sequence = s.stSendSequence)
    (kind : ack.stHeader.ePktType = .dataAck ∨ ack.stHeader.ePktType = .dataNegAck) :
    ∃ t, s.recvAck file agentPageSize (agentPlan file) ack true = some t ∧
      ((ack.stHeader.ePktType = .dataAck ∧ (agentPlan file).iTotNoMaps ≤ s.iMmapCntr + 1 ∧
          t.pc = .returned .nascSuccess) ∨
        ((ack.stHeader.ePktType = .dataAck → s.iMmapCntr + 1 < (agentPlan file).iTotNoMaps) ∧
          t.pc = .sendWindow ∧ t.stSendSequence = ackNext ack ∧
          t.iNoOfRetries = (if isNegAck ack then s.iNoOfRetries + 1 else 0) ∧
          Reflects file t ack)) := by
  have awake : ¬ s.pc ≠ .recvAck := by simp [waiting]
  rcases kind with kind | kind
  · have executed : s.recvAck file agentPageSize (agentPlan file) ack true =
        some (SendState.dataAck file agentPageSize (agentPlan file) { s with
          piPktStatus := memcpyBytes s.piPktStatus ack.cData ack.iDataLen } true) := by
      unfold SendState.recvAck
      rw [if_neg awake]
      simp only [same, if_true, kind]
    obtain ⟨_, outcome⟩ := SendState.dataAck_cases file agentPageSize (agentPlan file) { s with
        piPktStatus := memcpyBytes s.piPktStatus ack.cData ack.iDataLen } true
    refine ⟨_, executed, ?_⟩
    rcases outcome with ⟨last, ended, _⟩ | ⟨more, unmapped, _⟩ | ⟨more, _, started⟩
    · exact .inl ⟨kind, last, ended⟩
    · exfalso
      have small : file.length ≤ maxPlannedSize := by
        simp only [maxMappedSize, maxPlannedSize] at *
        omega
      have maps := agentPlan_maps file small
      have page : agentPageSize = 4096 := rfl
      simp only [maxMappedSize] at mappable
      simp only at more unmapped
      rw [page, i32_of_range (by omega) (by omega)] at unmapped
      rcases unmapped with negative | failed
      · omega
      · cases failed
    · have inner : s.iNoPktsPerMMap = (agentPlan file).iNoPktsPerMMap := by
        simp only at more
        rw [window.perMap, slotsOf, if_neg (by omega)]
      have negative : isNegAck ack = false := by simp [isNegAck, kind]
      refine .inr ⟨fun _ => more, ?_⟩
      rw [started, negative]
      simp only [Reflects, negative, Bool.false_eq_true, if_false, ackNext, kind, inner]
      refine ⟨trivial, ?_, trivial, _, rfl⟩
      rw [← same]
      rfl
  · have executed : s.recvAck file agentPageSize (agentPlan file) ack true =
        some (SendState.dataNegAck { s with
          piPktStatus := memcpyBytes s.piPktStatus ack.cData ack.iDataLen }) := by
      unfold SendState.recvAck
      rw [if_neg awake]
      simp only [same, if_true, kind]
    have negative : isNegAck ack = true := by simp [isNegAck, kind]
    refine ⟨_, executed, .inr ⟨by simp [kind], rfl, ?_, ?_, ?_⟩⟩
    · simp only [SendState.dataNegAck, ackNext, kind, ← same, StMsg.sequence]
    · simp only [SendState.dataNegAck, negative, if_true]
    · simp only [Reflects, negative, if_true]
      exact ⟨_, rfl⟩

end SenderMoves

section Drain

variable {file : List UInt8} {s : Session}

/-- What the sender must afford to follow all of these acknowledgements. -/
def withinBudget : Int → List StMsg → Prop
  | retries, [] => retries ≤ maxNoOfRetries
  | retries, ack :: acks =>
    retries ≤ maxNoOfRetries ∧ withinBudget (if isNegAck ack then retries + 1 else 0) acks

theorem withinBudget_of_ahead {retries : Int} {acks : List StMsg}
    (ahead : retries + (acks.takeWhile isNegAck).length ≤ maxNoOfRetries)
    (total : (acks.countP isNegAck : Int) ≤ maxNoOfRetries) : withinBudget retries acks := by
  induction acks generalizing retries with
  | nil =>
    simp only [List.takeWhile_nil, List.length_nil, Nat.cast_zero] at ahead
    simp only [withinBudget]
    omega
  | cons ack acks ih =>
    have fewer : (acks.takeWhile isNegAck).length ≤ acks.countP isNegAck := by
      have all : (acks.takeWhile isNegAck).countP isNegAck =
          (acks.takeWhile isNegAck).length :=
        List.countP_eq_length.mpr fun ack member => List.mem_takeWhile_imp member
      rw [← all]
      exact (List.takeWhile_sublist isNegAck).countP_le
    cases kind : isNegAck ack with
    | true =>
      simp only [List.takeWhile_cons, kind, if_true, List.length_cons, List.countP_cons,
        Nat.cast_add, Nat.cast_one] at ahead total
      simp only [withinBudget, kind, if_true]
      exact ⟨by omega, ih (by omega) (by omega)⟩
    | false =>
      simp only [List.takeWhile_cons, kind, Bool.false_eq_true, if_false, List.length_nil,
        List.countP_cons, Nat.cast_zero, add_zero] at ahead total
      simp only [withinBudget, kind, Bool.false_eq_true, if_false]
      refine ⟨by omega, ih ?_ (by omega)⟩
      simp only [maxNoOfRetries] at *
      omega

theorem reaches_recvAck (small : file.length ≤ maxPlannedSize) (nonempty : file ≠ [])
    (transfer : TransferInv file s) (sync : SyncInv s) (running : SenderRunning s)
    (budget : s.sender.iNoOfRetries ≤ maxNoOfRetries) :
    ∃ t, Reaches (agentStep file) KeepsDatagrams s t ∧ TransferInv file t ∧ SyncInv t ∧
      t.receiver = s.receiver ∧ t.toSender = s.toSender ∧ t.sender.pc = .recvAck ∧
      t.sender.stSendSequence = s.sender.stSendSequence ∧
      t.sender.iNoOfRetries = s.sender.iNoOfRetries := by
  have window := transfer.sender.running running
  cases pc : s.sender.pc with
  | sendWindow =>
    obtain ⟨packets, passed, _⟩ := sendWindow_passes pc window transfer.sender.nonneg
      (window.more (maps_positive small nonempty)) budget
    have executed : agentStep file s (.sendWindow .none) = some { s with
        sender := { s.sender with eReturnValue := .nascSuccess, pc := .recvAck }
        toReceiver := s.toReceiver ++ packets } := by
      simp only [agentStep, Session.step, passed, Option.map_some]
    exact ⟨_, Reaches.head (by trivial) executed (Reaches.refl _),
      transferInv_step small transfer (by trivial) executed, syncInv_step sync executed,
      rfl, rfl, rfl, rfl, rfl⟩
  | recvAck => exact ⟨s, Reaches.refl s, transfer, sync, rfl, rfl, pc, rfl, rfl⟩
  | returned result => exact absurd pc (running result)

theorem follow_one (mappable : file.length ≤ maxMappedSize) (nonempty : file ≠ [])
    (transfer : TransferInv file s) (sync : SyncInv s) (running : SenderRunning s)
    {ack : StMsg} {rest : List StMsg} (queue : outstanding s = ack :: rest)
    (inFlight : ∀ other ∈ ack :: rest, other ∈ s.toSender)
    (budget : s.sender.iNoOfRetries ≤ maxNoOfRetries) :
    ∃ t, Reaches (agentStep file) KeepsDatagrams s t ∧ TransferInv file t ∧ SyncInv t ∧
      t.receiver = s.receiver ∧
      (t.sender.pc = .returned .nascSuccess ∨
        (t.sender.pc = .sendWindow ∧ outstanding t = rest ∧
          (∀ other ∈ rest, other ∈ t.toSender) ∧
          t.sender.iNoOfRetries = (if isNegAck ack then s.sender.iNoOfRetries + 1 else 0) ∧
          Reflects file t.sender ack)) := by
  have small : file.length ≤ maxPlannedSize := by
    simp only [maxMappedSize, maxPlannedSize] at *
    omega
  obtain ⟨_, _, _, path⟩ := sync.outstanding_path
  rw [queue] at path
  obtain ⟨u, first, transferU, syncU, receiverU, toSenderU, waiting, sequenceU, retriesU⟩ :=
    reaches_recvAck small nonempty transfer sync running budget
  have runningU : SenderRunning u := by simp [SenderRunning, waiting]
  have same : ack.sequence = u.sender.stSendSequence := by rw [path.1, sequenceU]
  obtain ⟨sender, followed, outcome⟩ := recvAck_follows mappable waiting
    (transferU.sender.running runningU) transferU.sender.nonneg same path.2.1
  have arriving : ack ∈ u.toSender := by
    rw [toSenderU]
    exact inFlight ack List.mem_cons_self
  have executed : agentStep file u (.recvAck ack true) = some { u with
      sender := sender
      toSender := u.toSender.erase ack } := by
    simp only [agentStep, Session.step, if_pos arriving, followed, Option.map_some]
  refine ⟨_, first.trans (Reaches.head (by trivial) executed (Reaches.refl _)),
    transferInv_step small transferU (by trivial) executed, syncInv_step syncU executed, receiverU,
      ?_⟩
  rcases outcome with ⟨_, _, ended⟩ | ⟨_, started, next, retries, reflects⟩
  · exact .inl ended
  · refine .inr ⟨started, ?_, ?_, ?_, reflects⟩
    · refine outstanding_advance sync queue ?_ next
      simp only [receiverU]
    · intro other member
      have differs : other ≠ ack := fun equal => path.head_not_mem (equal ▸ member)
      simp only [toSenderU]
      exact (List.mem_erase_of_ne differs).mpr (inFlight other (List.mem_cons_of_mem _ member))
    · simp only [retries, retriesU]

theorem follow_all (mappable : file.length ≤ maxMappedSize) (nonempty : file ≠ [])
    {acks : List StMsg} (transfer : TransferInv file s) (sync : SyncInv s)
    (running : SenderRunning s) (queue : outstanding s = acks)
    (inFlight : ∀ ack ∈ acks, ack ∈ s.toSender)
    (budget : withinBudget s.sender.iNoOfRetries acks) :
    ∃ t, Reaches (agentStep file) KeepsDatagrams s t ∧ TransferInv file t ∧ SyncInv t ∧
      t.receiver = s.receiver ∧
      (t.sender.pc = .returned .nascSuccess ∨
        (SenderRunning t ∧ outstanding t = [] ∧ t.sender.iNoOfRetries ≤ maxNoOfRetries ∧
          ∀ last, acks.getLast? = some last →
            t.sender.pc = .sendWindow ∧ Reflects file t.sender last)) := by
  induction acks generalizing s with
  | nil => exact ⟨s, Reaches.refl s, transfer, sync, rfl, .inr ⟨running, queue, budget, by simp⟩⟩
  | cons ack acks ih =>
    obtain ⟨u, first, transferU, syncU, receiverU, outcome⟩ :=
      follow_one mappable nonempty transfer sync running queue inFlight budget.1
    rcases outcome with ended | ⟨started, queueU, inFlightU, retriesU, reflects⟩
    · exact ⟨u, first, transferU, syncU, receiverU, .inl ended⟩
    have runningU : SenderRunning u := by simp [SenderRunning, started]
    cases acks with
    | nil =>
      refine ⟨u, first, transferU, syncU, receiverU,
        .inr ⟨runningU, queueU, by rw [retriesU]; exact budget.2, ?_⟩⟩
      intro last equal
      simp only [List.getLast?_singleton, Option.some.injEq] at equal
      exact ⟨started, equal ▸ reflects⟩
    | cons next later =>
      obtain ⟨t, rest, transferT, syncT, receiverT, outcome⟩ := ih transferU syncU runningU
        queueU inFlightU (by rw [retriesU]; exact budget.2)
      rw [List.getLast?_cons_cons]
      exact ⟨t, first.trans rest, transferT, syncT, receiverT.trans receiverU, outcome⟩

end Drain

section ReceiverMoves

variable {file : List UInt8} {s : Session}

/-- For every missing packet of the window a datagram is under way. -/
def Arriving (file : List UInt8) (s : Session) : Prop :=
  ∀ slot : Nat, (slot : Int) < s.receiver.iNoOfPktsPerMap →
    s.receiver.piPktStatus[slot]? = some pktMissing →
    ∃ message ∈ s.toReceiver, message.stHeader =
      ⟨.data, (s.receiver.stSequencing.iMmapNo - 1) * (agentPlan file).iNoPktsPerMMap + slot + 1,
        s.receiver.stSequencing.iMmapNo, s.receiver.stSequencing.iCorrelater⟩

theorem receive_one (small : file.length ≤ maxPlannedSize) (transfer : TransferInv file s)
    (waiting : s.receiver.pc = .recvDataPkt) (arriving : Arriving file s)
    (some : 0 < missing s.receiver) :
    ∃ t, Reaches (agentStep file) KeepsDatagrams s t ∧ TransferInv file t ∧
      t.sender = s.sender ∧ t.toSender = s.toSender ∧ t.receiver.pc = .recvDataPkt ∧
      t.receiver.stSequencing = s.receiver.stSequencing ∧ Arriving file t ∧
      missing t.receiver = missing s.receiver - 1 := by
  obtain ⟨slot, inside, empty⟩ := countMissing_pos some
  obtain ⟨message, member, header⟩ := arriving slot inside empty
  have counted := (transfer.receiver.receiving waiting).2
  have accepted : s.receiver.Accepts message := by
    simp only [RecvState.Accepts, StMsg.sequence, header, true_and]
  have subscript : s.receiver.iArraySubScript (agentPlan file) message = slot := by
    simp only [RecvState.iArraySubScript, header]
    omega
  have stored : storeAt s.receiver.piPktStatus (slot : Int) pktReceived =
      s.receiver.piPktStatus.set slot pktReceived := by simp [storeAt]
  let receiver : RecvState := { s.receiver with
    piPktStatus := s.receiver.piPktStatus.set slot pktReceived
    pstICoreAreaForData := storeAt s.receiver.pstICoreAreaForData slot
      (.some (message.cData.take message.iDataLen.toNat))
    iLoopCntr := s.receiver.iLoopCntr + 1
    iToNoOfPktsRecvd := s.receiver.iToNoOfPktsRecvd + 1 }
  have received : s.receiver.recvDataPkt (agentPlan file) message = .some receiver := by
    unfold RecvState.recvDataPkt
    rw [if_neg (by simp only [waiting, ne_eq, not_true, false_or]; omega), if_pos accepted]
    simp only [subscript, stored, receiver]
  have executed : agentStep file s (.recvDataPkt message) = .some { s with
      receiver := receiver
      toReceiver := s.toReceiver.erase message } := by
    simp only [agentStep, Session.step, if_pos member, received, Option.map_some]
  have fills : FillsEmptySlot file s (.recvDataPkt message) := by
    intro _
    rw [subscript, Int.toNat_natCast]
    exact empty
  refine ⟨_, Reaches.head (by trivial) executed (Reaches.refl _),
    transferInv_step small transfer fills executed, rfl, rfl, waiting, rfl, ?_,
    countMissing_store inside empty⟩
  intro other below stillEmpty
  have differs : slot ≠ other := by
    rintro rfl
    obtain ⟨bound, _⟩ := List.getElem?_eq_some_iff.mp empty
    simp only [receiver, List.getElem?_set_self bound, Option.some.injEq] at stillEmpty
    exact absurd stillEmpty (by decide)
  simp only [receiver, List.getElem?_set_ne differs] at stillEmpty
  obtain ⟨next, nextMember, nextHeader⟩ := arriving other below stillEmpty
  have distinct : next ≠ message := by
    rintro rfl
    rw [header] at nextHeader
    simp only [StPacketHeader.mk.injEq] at nextHeader
    omega
  exact ⟨next, (List.mem_erase_of_ne distinct).mpr nextMember, nextHeader⟩

theorem receive_all (small : file.length ≤ maxPlannedSize) (count : Nat)
    (transfer : TransferInv file s) (waiting : s.receiver.pc = .recvDataPkt)
    (arriving : Arriving file s) (counted : missing s.receiver = count) :
    ∃ t, Reaches (agentStep file) KeepsDatagrams s t ∧ TransferInv file t ∧
      t.sender = s.sender ∧ t.toSender = s.toSender ∧ t.receiver.pc = .recvDataPkt ∧
      t.receiver.stSequencing = s.receiver.stSequencing ∧ missing t.receiver = 0 := by
  induction count generalizing s with
  | zero => exact ⟨s, Reaches.refl s, transfer, rfl, rfl, waiting, rfl, by simpa using counted⟩
  | succ count ih =>
    obtain ⟨u, first, transferU, senderU, toSenderU, waitingU, sequenceU, arrivingU, fewer⟩ :=
      receive_one small transfer waiting arriving (by omega)
    obtain ⟨t, rest, transferT, senderT, toSenderT, waitingT, sequenceT, none⟩ :=
      ih transferU waitingU arrivingU (by rw [fewer]; push_cast at counted; omega)
    exact ⟨t, first.trans rest, transferT, senderT.trans senderU, toSenderT.trans toSenderU,
      waitingT, sequenceT.trans sequenceU, none⟩

/-- The receiver has sent DATA_ACK for its window. -/
def Session.acknowledged (s : Session) : Session :=
  let ack := sendDataAck [] 0 s.receiver.stSequencing .dataAck
  { s with
    receiver := { s.receiver with
      pc := .writeWindow
      ackedWindows := s.receiver.ackedWindows ++
        [s.receiver.pstICoreAreaForData.take s.receiver.iNoOfPktsPerMap.toNat]
      emitted := s.receiver.emitted ++ [ack] }
    toSender := s.toSender ++ [ack] }

@[simp] theorem acknowledged_sender (s : Session) : s.acknowledged.sender = s.sender := rfl

theorem windowDone_acknowledges (file : List UInt8) (waiting : s.receiver.pc = .recvDataPkt)
    (complete : s.receiver.iNoOfPktsExpected ≤ s.receiver.iLoopCntr) :
    agentStep file s (.windowDone true) = some s.acknowledged := by
  simp only [agentStep, Session.step, RecvState.windowDone]
  rw [if_neg (by simp only [waiting, ne_eq, not_true, false_or]; omega), if_pos trivial]
  rfl

theorem complete_iff_last (mappable : file.length ≤ maxMappedSize) (nonempty : file ≠ [])
    {r : RecvState} (window : RecvWindowInv file r) (none : missing r = 0) :
    r.iToNoOfPktsRecvd = (agentPlan file).iTotNoPkts ↔
      r.stSequencing.iMmapNo = (agentPlan file).iTotNoMaps := by
  have small : file.length ≤ maxPlannedSize := by
    simp only [maxMappedSize, maxPlannedSize] at *
    omega
  have positive := maps_positive small nonempty
  have inRange := window.inRange mappable
  have map := window.map
  have total := window.total
  rw [none, window.perMap] at total
  constructor
  · intro complete
    by_contra before
    have planned := agentPlan_total file mappable
    have maps := agentPlan_maps file small
    have perMap := agentPlan_perMap file
    have slots := agentPlan_slots file r.stSequencing.iMmapNo
    have length := List.length_pos_iff.mpr nonempty
    by_cases onePage : (file.length : Int) ≤ 4096
    · omega
    · rw [if_neg onePage] at perMap
      rw [perMap] at total slots
      omega
  · intro last
    rw [agentPlan_exact file mappable r.stSequencing.iMmapNo (by omega)]
    omega

theorem write_window (mappable : file.length ≤ maxMappedSize) (nonempty : file ≠ [])
    (transfer : TransferInv file s) (writing : s.receiver.pc = .writeWindow) :
    ∃ t, agentStep file s .writeWindow = some t ∧ t.sender = s.sender ∧
      t.toSender = s.toSender ∧ t.receiver.emitted = s.receiver.emitted ∧
      t.receiver.iNoOfTimeOuts = s.receiver.iNoOfTimeOuts ∧
      ((s.receiver.stSequencing.iMmapNo = (agentPlan file).iTotNoMaps ∧
          t.receiver.pc = .returned .nascSuccess ∧
          t.receiver.stSequencing = s.receiver.stSequencing) ∨
        (s.receiver.stSequencing.iMmapNo < (agentPlan file).iTotNoMaps ∧
          t.receiver.pc = .recvDataPkt ∧
          t.receiver.stSequencing = ⟨s.receiver.stSequencing.iMmapNo + 1, 1⟩)) := by
  have window := transfer.receiver.window (.inr writing)
  have acked := transfer.receiver.writing writing
  have small : file.length ≤ maxPlannedSize := by
    simp only [maxMappedSize, maxPlannedSize] at *
    omega
  have positive := maps_positive small nonempty
  have inRange := window.inRange mappable
  have last := complete_iff_last mappable nonempty window acked.2
  obtain ⟨receiver, written⟩ : ∃ receiver, s.receiver.writeWindow (agentPlan file) =
      some receiver := by
    unfold RecvState.writeWindow
    rw [if_neg (by simp [writing])]
    simp only
    split
    · exact ⟨_, rfl⟩
    · split <;> exact ⟨_, rfl⟩
  have executed : agentStep file s .writeWindow = some { s with receiver := receiver } := by
    simp only [agentStep, Session.step, written, Option.map_some]
  obtain ⟨_, _, _, _, _, emitted, _, timeOuts, cases⟩ := RecvState.writeWindow_cases written
  refine ⟨_, executed, rfl, rfl, emitted, timeOuts, ?_⟩
  rcases cases with ⟨complete, ended, sequence⟩ | ⟨incomplete, waiting, sequence, _, _⟩
  · exact .inl ⟨last.mp complete, ended, sequence⟩
  · have notLast : s.receiver.stSequencing.iMmapNo ≠ (agentPlan file).iTotNoMaps :=
      fun equal => incomplete (last.mpr equal)
    exact .inr ⟨by omega, waiting, sequence⟩

end ReceiverMoves

end EveAgent.FileTrans
