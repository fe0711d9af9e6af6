import EveAgent.FileTrans.Continue

namespace EveAgent.FileTrans

open Machine

section Finish

variable {file : List UInt8} {s : Session}

/-- The sender is about to send the window the receiver waits for, with every
packet that the receiver misses marked '0'. -/
structure Aligned (file : List UInt8) (s : Session) : Prop where
  transfer : TransferInv file s
  sync : SyncInv s
  sending : s.sender.pc = .sendWindow
  waiting : s.receiver.pc = .recvDataPkt
  budget : s.sender.iNoOfRetries ≤ maxNoOfRetries
  same : s.sender.stSendSequence = s.receiver.stSequencing
  accurate : ∀ slot : Nat, (slot : Int) < s.receiver.iNoOfPktsPerMap →
    s.receiver.piPktStatus[slot]? = some pktMissing → s.sender.piPktStatus[slot]? = some pktMissing

theorem Aligned.sender_map (aligned : Aligned file s) :
    s.sender.iMmapCntr + 1 = s.receiver.stSequencing.iMmapNo := by
  have map := (aligned.transfer.sender.running (by simp [aligned.sending])).map
  rw [← aligned.same]
  omega

theorem Aligned.fills (mappable : file.length ≤ maxMappedSize) (nonempty : file ≠ [])
    (aligned : Aligned file s) :
    ∃ t, Reaches (agentStep file) KeepsDatagrams s t ∧ TransferInv file t ∧ SyncInv t ∧
      t.sender.pc = .recvAck ∧ t.receiver.pc = .recvDataPkt ∧ missing t.receiver = 0 ∧
      t.sender.stSendSequence = t.receiver.stSequencing ∧
      t.receiver.stSequencing = s.receiver.stSequencing := by
  have small : file.length ≤ maxPlannedSize := by
    simp only [maxMappedSize, maxPlannedSize] at *
    omega
  have running := aligned.transfer.sender.running (by simp [aligned.sending])
  have perMap := (aligned.transfer.receiver.window (.inl aligned.waiting)).perMap
  have map := aligned.sender_map
  obtain ⟨packets, passed, all⟩ := sendWindow_passes aligned.sending running
    aligned.transfer.sender.nonneg (running.more (maps_positive small nonempty)) aligned.budget
  have executed : agentStep file s (.sendWindow .none) = some { s with
      sender := { s.sender with eReturnValue := .nascSuccess, pc := .recvAck }
      toReceiver := s.toReceiver ++ packets } := by
    simp only [agentStep, Session.step, passed, Option.map_some]
  have transferU := transferInv_step small aligned.transfer (by trivial) executed
  have arriving : Arriving file { s with
      sender := { s.sender with eReturnValue := .nascSuccess, pc := .recvAck }
      toReceiver := s.toReceiver ++ packets } := by
    intro slot inside empty
    obtain ⟨message, member, header⟩ := all slot
      (by rw [running.perMap, map, ← perMap]; exact inside) (aligned.accurate slot inside empty)
    refine ⟨message, List.mem_append_right _ member, ?_⟩
    rw [header, running.lastNo, ← map, aligned.same, add_sub_cancel_right, map]
  have nonneg := countMissing_nonneg s.receiver.piPktStatus s.receiver.iNoOfPktsPerMap
  obtain ⟨t, ⟨labels, kept, ran⟩, transferT, senderT, _, waitingT, sequenceT, none⟩ :=
    receive_all small (missing s.receiver).toNat transferU aligned.waiting arriving
      (by simp only [missing]; omega)
  refine ⟨t, Reaches.head (by trivial) executed ⟨labels, kept, ran⟩, transferT, ?_, ?_, waitingT,
    none, ?_, sequenceT⟩
  · exact run_invariant' (fun _ _ _ inv stepped => syncInv_step inv stepped)
      (syncInv_step aligned.sync executed) ran
  · rw [senderT]
  · rw [senderT, sequenceT]
    exact aligned.same

theorem acknowledge_window (mappable : file.length ≤ maxMappedSize) (nonempty : file ≠ [])
    (transfer : TransferInv file s) (sync : SyncInv s) (sending : s.sender.pc = .recvAck)
    (waiting : s.receiver.pc = .recvDataPkt) (none : missing s.receiver = 0)
    (same : s.sender.stSendSequence = s.receiver.stSequencing) :
    ∃ t, Reaches (agentStep file) KeepsDatagrams s t ∧
      (BothSucceeded t ∨
        (s.receiver.stSequencing.iMmapNo < (agentPlan file).iTotNoMaps ∧ Aligned file t ∧
          t.receiver.stSequencing.iMmapNo = s.receiver.stSequencing.iMmapNo + 1)) := by
  have small : file.length ≤ maxPlannedSize := by
    simp only [maxMappedSize, maxPlannedSize] at *
    omega
  have counted := (transfer.receiver.receiving waiting).2
  let ack := sendDataAck [] 0 s.receiver.stSequencing .dataAck
  have first : agentStep file s (.windowDone true) = some s.acknowledged :=
    windowDone_acknowledges file waiting (by omega)
  have transferU := transferInv_step small transfer (by trivial) first
  have syncU := syncInv_step sync first
  obtain ⟨u, second, senderU, toSenderU, _, _, outcome⟩ :=
    write_window mappable nonempty transferU rfl
  rw [acknowledged_sender] at senderU
  have transferW := transferInv_step small transferU (by trivial) second
  have syncW := syncInv_step syncU second
  have running : SenderRunning u := by
    simp only [SenderRunning, senderU, sending]
    simp
  have window := transferW.sender.running running
  have sameU : ack.sequence = u.sender.stSendSequence := by
    rw [senderU, same]
    rfl
  obtain ⟨sender, followed, ending⟩ := recvAck_follows mappable (by rw [senderU]; exact sending)
    window transferW.sender.nonneg sameU (.inl rfl)
  have arriving : ack ∈ u.toSender := by
    rw [toSenderU]
    exact List.mem_append_right _ List.mem_cons_self
  have third : agentStep file u (.recvAck ack true) = some { u with
      sender := sender
      toSender := u.toSender.erase ack } := by
    simp only [agentStep, Session.step, if_pos arriving, followed, Option.map_some]
  have reached : Reaches (agentStep file) KeepsDatagrams s { u with
      sender := sender
      toSender := u.toSender.erase ack } :=
    Reaches.head (by trivial) first (Reaches.head (by trivial) second
      (Reaches.head (by trivial) third (Reaches.refl _)))
  have map : u.sender.iMmapCntr + 1 = s.receiver.stSequencing.iMmapNo := by
    have number := window.map
    rw [← sameU] at number
    simp only [ack, sendDataAck, StMsg.sequence] at number
    omega
  have negative : isNegAck ack = false := by simp [ack, isNegAck, sendDataAck]
  refine ⟨_, reached, ?_⟩
  rcases outcome with ⟨last, ended, _⟩ | ⟨more, receiving, sequence⟩
  · simp only [Session.acknowledged] at last
    rcases ending with ⟨_, _, success⟩ | ⟨inner, _⟩
    · exact .inl ⟨success, ended⟩
    · have below := inner rfl
      omega
  · simp only [Session.acknowledged] at more sequence
    rcases ending with ⟨_, last, _⟩ | ⟨_, started, next, retries, reflects⟩
    · omega
    · refine .inr ⟨more, ?_, by rw [sequence]⟩
      have transferT := transferInv_step small transferW (by trivial) third
      have perMap := (transferT.receiver.window (.inl receiving)).perMap
      have slots := agentPlan_slots file (s.receiver.stSequencing.iMmapNo + 1)
      simp only [sequence] at perMap
      refine ⟨transferT, syncInv_step syncW third, started, receiving, ?_, ?_, ?_⟩
      · simp only [retries, negative, Bool.false_eq_true, if_false, maxNoOfRetries]
        omega
      · simp only [next, sequence]
        rfl
      · intro slot inside _
        simp only [Reflects, negative, Bool.false_eq_true, if_false] at reflects
        obtain ⟨status, cleared⟩ := reflects
        simp only at inside
        simp only [cleared]
        exact clearStatus_slot status (by omega)

theorem Aligned.finishes (mappable : file.length ≤ maxMappedSize) (nonempty : file ≠ [])
    (windows : Nat) (aligned : Aligned file s)
    (remaining : (agentPlan file).iTotNoMaps - s.receiver.stSequencing.iMmapNo ≤ windows) :
    CanFinish file s := by
  induction windows generalizing s with
  | zero =>
    obtain ⟨t, first, transfer, sync, sending, waiting, none, same, sequence⟩ :=
      aligned.fills mappable nonempty
    obtain ⟨u, second, outcome⟩ :=
      acknowledge_window mappable nonempty transfer sync sending waiting none same
    rcases outcome with success | ⟨more, _, _⟩
    · exact ⟨u, first.trans second, success⟩
    · rw [sequence] at more
      simp only [Nat.cast_zero] at remaining
      omega
  | succ windows ih =>
    obtain ⟨t, first, transfer, sync, sending, waiting, none, same, sequence⟩ :=
      aligned.fills mappable nonempty
    obtain ⟨u, second, outcome⟩ :=
      acknowledge_window mappable nonempty transfer sync sending waiting none same
    rcases outcome with success | ⟨_, alignedU, next⟩
    · exact ⟨u, first.trans second, success⟩
    · obtain ⟨v, third, success⟩ := ih alignedU (by
        rw [next, sequence]
        push_cast at remaining
        omega)
      exact ⟨v, (first.trans second).trans third, success⟩

theorem Aligned.canFinish (mappable : file.length ≤ maxMappedSize) (nonempty : file ≠ [])
    (aligned : Aligned file s) : CanFinish file s :=
  aligned.finishes mappable nonempty
    ((agentPlan file).iTotNoMaps - s.receiver.stSequencing.iMmapNo).toNat (by omega)

end Finish

section Sufficient

variable {file : List UInt8} {s : Session}

theorem empty_canFinish (nothing : file = []) (transfer : TransferInv file s)
    (sending : SenderRunning s) (receiving : ReceiverRunning s) : CanFinish file s := by
  have small : file.length ≤ maxPlannedSize := by simp [nothing]
  have mappable : file.length ≤ maxMappedSize := by simp [nothing]
  have none : (agentPlan file).iTotNoMaps = 0 := by
    rw [agentPlan_maps file small, nothing]
    rfl
  obtain ⟨ready, result⟩ := transfer.sender.empty (by omega) sending
  have nonneg := transfer.sender.nonneg
  have ended : s.sender.sendWindow file agentPageSize (agentPlan file) .none =
      some ({ s.sender with pc := .returned .nascSuccess }, []) := by
    unfold SendState.sendWindow
    rw [if_neg (by simp [ready]), if_pos (by omega)]
    simp only [result]
  have first : agentStep file s (.sendWindow .none) = some { s with
      sender := { s.sender with pc := .returned .nascSuccess }
      toReceiver := s.toReceiver ++ [] } := by
    simp only [agentStep, Session.step, ended, Option.map_some]
  have transferU := transferInv_step small transfer (by trivial) first
  -- the window without packets is complete as soon as it is looked at
  have writes : ∀ u : Session, TransferInv file u → u.sender.pc = .returned .nascSuccess →
      u.receiver.pc = .writeWindow → CanFinish file u := by
    intro u inv success writing
    have window := inv.receiver.window (.inr writing)
    have acked := inv.receiver.writing writing
    have inRange := window.inRange mappable
    have total := window.total
    rw [acked.2, window.perMap, ← agentPlan_exact file mappable u.receiver.stSequencing.iMmapNo
        (by have := window.map; omega)]
      at total
    have written : ∃ receiver, u.receiver.writeWindow (agentPlan file) = some receiver ∧
        receiver.pc = .returned .nascSuccess := by
      unfold RecvState.writeWindow
      rw [if_neg (by simp [writing])]
      simp only
      rw [if_pos (by omega)]
      exact ⟨_, rfl, rfl⟩
    obtain ⟨receiver, executed, finished⟩ := written
    have step : agentStep file u .writeWindow = some { u with receiver := receiver } := by
      simp only [agentStep, Session.step, executed, Option.map_some]
    exact ⟨_, Reaches.head (by trivial) step (Reaches.refl _), success, finished⟩
  cases pc : s.receiver.pc with
  | returned value => exact absurd pc (receiving value)
  | writeWindow =>
    obtain ⟨t, rest, success⟩ := writes _ transferU rfl pc
    exact ⟨t, Reaches.head (by trivial) first rest, success⟩
  | recvDataPkt =>
    have window := transfer.receiver.window (.inl pc)
    have counted := (transfer.receiver.receiving pc).2
    have perMap := agentPlan_perMap file
    have slots := agentPlan_slots file s.receiver.stSequencing.iMmapNo
    have missingLe : missing s.receiver ≤ 0 := by
      simp only [nothing, List.length_nil] at perMap
      have bound : (s.receiver.piPktStatus.take s.receiver.iNoOfPktsPerMap.toNat).count
          pktMissing ≤ s.receiver.iNoOfPktsPerMap.toNat :=
        List.count_le_length.trans (List.length_take_le _ _)
      have perWindow := window.perMap
      simp only [missing, countMissing]
      rw [← nothing] at perMap
      simp only [Nat.cast_zero] at perMap
      omega
    have second := windowDone_acknowledges file (s := { s with
      sender := { s.sender with pc := .returned .nascSuccess }
      toReceiver := s.toReceiver ++ [] }) pc (by simp only; omega)
    obtain ⟨t, rest, success⟩ :=
      writes _ (transferInv_step small transferU (by trivial) second) rfl rfl
    exact ⟨t, Reaches.head (by trivial) first (Reaches.head (by trivial) second rest), success⟩

theorem settled_sequence (sync : SyncInv s) (none : outstanding s = []) :
    s.sender.stSendSequence = s.receiver.nextSequence := by
  obtain ⟨_, _, _, path⟩ := sync.outstanding_path
  rw [none] at path
  exact path

theorem sender_behind (mappable : file.length ≤ maxMappedSize) (nonempty : file ≠ [])
    (transfer : TransferInv file s) (sync : SyncInv s) (running : SenderRunning s)
    (finished : s.receiver.pc = .returned .nascSuccess)
    (last : s.receiver.stSequencing.iMmapNo = (agentPlan file).iTotNoMaps) :
    outstanding s ≠ [] := by
  intro none
  have small : file.length ≤ maxPlannedSize := by
    simp only [maxMappedSize, maxPlannedSize] at *
    omega
  have window := transfer.sender.running running
  have more := window.more (maps_positive small nonempty)
  have map := window.map
  rw [settled_sequence sync none, RecvState.nextSequence_finished finished] at map
  simp only at map
  omega

theorem receiver_not_behind (mappable : file.length ≤ maxMappedSize) (nonempty : file ≠ [])
    (transfer : TransferInv file s) (success : s.sender.pc = .returned .nascSuccess) :
    s.receiver.pc ≠ .recvDataPkt := by
  intro waiting
  have small : file.length ≤ maxPlannedSize := by
    simp only [maxMappedSize, maxPlannedSize] at *
    omega
  have finished := transfer.sender.finished success
  have acked := transfer.sender.acked
  have count := (transfer.receiver.receiving waiting).1
  have inRange := (transfer.receiver.window (.inl waiting)).inRange mappable
  have positive := maps_positive small nonempty
  omega

theorem aligned_of_reflects (transfer : TransferInv file s) (sync : SyncInv s)
    (sending : s.sender.pc = .sendWindow) (waiting : s.receiver.pc = .recvDataPkt)
    (budget : s.sender.iNoOfRetries ≤ maxNoOfRetries) (none : outstanding s = [])
    {ack : StMsg} (reflects : Reflects file s.sender ack)
    (status : isNegAck ack → ack.iDataLen = s.receiver.iNoOfPktsPerMap ∧
      ack.cData = s.receiver.piPktStatus.take s.receiver.iNoOfPktsPerMap.toNat) :
    Aligned file s := by
  have same := settled_sequence sync none
  rw [RecvState.nextSequence_receiving waiting] at same
  refine ⟨transfer, sync, sending, waiting, budget, same, ?_⟩
  intro slot inside empty
  cases kind : isNegAck ack with
  | true =>
    obtain ⟨length, content⟩ := status kind
    simp only [Reflects, kind, if_true] at reflects
    obtain ⟨before, copied⟩ := reflects
    rw [copied, length, content]
    exact memcpyBytes_slot before inside empty
  | false =>
    simp only [Reflects, kind, Bool.false_eq_true, if_false] at reflects
    obtain ⟨before, cleared⟩ := reflects
    have slots := agentPlan_slots file s.receiver.stSequencing.iMmapNo
    have perMap := (transfer.receiver.window (.inl waiting)).perMap
    rw [cleared]
    exact clearStatus_slot before (by omega)

theorem canFinish_of_followable (mappable : file.length ≤ maxMappedSize) (nonempty : file ≠ [])
    (transfer : TransferInv file s) (sync : SyncInv s) (running : SenderRunning s)
    (receiver : s.receiver.pc = .recvDataPkt ∨
      (s.receiver.pc = .returned .nascSuccess ∧
        s.receiver.stSequencing.iMmapNo = (agentPlan file).iTotNoMaps))
    (some : outstanding s ≠ []) (inFlight : ∀ ack ∈ outstanding s, ack ∈ s.toSender)
    (budget : withinBudget s.sender.iNoOfRetries (outstanding s)) : CanFinish file s := by
  obtain ⟨t, reached, transferT, syncT, receiverT, outcome⟩ :=
    follow_all mappable nonempty transfer sync running rfl inFlight budget
  rcases outcome with success | ⟨runningT, none, budgetT, settled⟩
  · refine ⟨t, reached, success, ?_⟩
    have notWaiting := receiver_not_behind mappable nonempty transferT success
    rw [receiverT] at notWaiting ⊢
    rcases receiver with waiting | ⟨finished, _⟩
    · exact absurd waiting notWaiting
    · exact finished
  · rcases receiver with waiting | ⟨finished, last⟩
    · obtain ⟨ack, lastAck⟩ : ∃ ack, (outstanding s).getLast? = .some ack :=
        ⟨_, List.getLast?_eq_some_getLast some⟩
      obtain ⟨sending, reflects⟩ := settled ack lastAck
      obtain ⟨consumed, joined, _, path⟩ := sync.outstanding_path
      have differs : s.sender.stSendSequence ≠ s.receiver.stSequencing := by
        intro equal
        have inside := List.mem_of_getLast? lastAck
        have strict := (path.bounds.2 ack inside).1.before (path.before inside)
        rw [RecvState.nextSequence_receiving waiting, equal] at strict
        exact strict.not_atMost (StSequence.atMost_refl _)
      have emittedLast : s.receiver.emitted.getLast? = .some ack := by
        rw [joined, List.getLast?_append, lastAck]
        rfl
      have aligned : Aligned file t := by
        refine aligned_of_reflects transferT syncT sending (by rw [receiverT]; exact waiting)
          budgetT none reflects ?_
        rw [receiverT]
        exact fun negative => sync.status ack emittedLast negative waiting differs
      obtain ⟨u, rest, success⟩ := aligned.canFinish mappable nonempty
      exact ⟨u, reached.trans rest, success⟩
    · exfalso
      exact sender_behind mappable nonempty transferT syncT runningT
        (by rw [receiverT]; exact finished) (by rw [receiverT]; exact last) none

theorem canFinish_of_settled (mappable : file.length ≤ maxMappedSize) (nonempty : file ≠ [])
    (transfer : TransferInv file s) (sync : SyncInv s) (running : SenderRunning s)
    (waiting : s.receiver.pc = .recvDataPkt) (none : outstanding s = [])
    (retries : s.sender.iNoOfRetries < maxNoOfRetries)
    (timeOuts : s.receiver.iNoOfTimeOuts < maxNoOfRetries) : CanFinish file s := by
  have small : file.length ≤ maxPlannedSize := by
    simp only [maxMappedSize, maxPlannedSize] at *
    omega
  have counted := (transfer.receiver.receiving waiting).2
  by_cases complete : s.receiver.iNoOfPktsExpected ≤ s.receiver.iLoopCntr
  · obtain ⟨t, first, transferT, syncT, receiverT, _, sending, sequence, _⟩ :=
      reaches_recvAck small nonempty transfer sync running (by omega)
    have same := settled_sequence sync none
    rw [RecvState.nextSequence_receiving waiting] at same
    have nonneg := countMissing_nonneg s.receiver.piPktStatus s.receiver.iNoOfPktsPerMap
    obtain ⟨u, second, outcome⟩ := acknowledge_window mappable nonempty transferT syncT sending
      (by rw [receiverT]; exact waiting)
      (by
        rw [receiverT]
        simp only [missing] at *
        omega)
      (by rw [sequence, receiverT]; exact same)
    rcases outcome with success | ⟨_, aligned, _⟩
    · exact ⟨u, first.trans second, success⟩
    · obtain ⟨v, third, success⟩ := aligned.canFinish mappable nonempty
      exact ⟨v, (first.trans second).trans third, success⟩
  · let negAck := sendDataAck s.receiver.piPktStatus s.receiver.iNoOfPktsPerMap
      s.receiver.stSequencing .dataNegAck
    let receiver : RecvState := { s.receiver with
      iNoOfTimeOuts := s.receiver.iNoOfTimeOuts + 1
      iNoOfPktsExpected := countMissing s.receiver.piPktStatus s.receiver.iNoOfPktsPerMap
      stSequencing := ⟨s.receiver.stSequencing.iMmapNo, s.receiver.stSequencing.iCorrelater + 1⟩
      iLoopCntr := 0
      emitted := s.receiver.emitted ++ [negAck] }
    let timedOut : Session := { s with
      receiver := receiver
      toSender := s.toSender ++ [negAck] }
    have executed : agentStep file s .dataTimeout = some timedOut := by
      have stepped : s.receiver.dataTimeout = some (receiver, [negAck]) := by
        unfold RecvState.dataTimeout
        rw [if_neg (by simp only [waiting, ne_eq, not_true, false_or]; omega)]
        simp only
        rw [if_neg (by omega)]
      simp only [agentStep, Session.step, stepped, Option.map_some]
      rfl
    have queue : outstanding timedOut = outstanding s ++ [negAck] := by
      refine outstanding_kept sync rfl ?_ rfl
      intro ack member
      rw [List.mem_singleton.mp member, RecvState.nextSequence_receiving waiting]
      rfl
    rw [none, List.nil_append] at queue
    have negative : isNegAck negAck = true := by simp [negAck, isNegAck, sendDataAck]
    obtain ⟨t, reached, success⟩ := canFinish_of_followable mappable nonempty
      (transferInv_step small transfer (by trivial) executed) (syncInv_step sync executed)
      running (.inl waiting) (by rw [queue]; simp)
      (by
        intro ack member
        rw [queue] at member
        exact List.mem_append_right _ member)
      (by
        rw [queue]
        simp only [withinBudget, negative, if_true, timedOut]
        omega)
    exact ⟨t, Reaches.head (by trivial) executed reached, success⟩

theorem canFinish_of_recoverable (small : file.length ≤ maxPlannedSize)
    (transfer : TransferInv file s) (sync : SyncInv s) (sending : SenderRunning s)
    (receiving : ReceiverRunning s) (retries : s.sender.iNoOfRetries < maxNoOfRetries)
    (timeOuts : s.receiver.iNoOfTimeOuts < maxNoOfRetries) (recoverable : Recoverable file s) :
    CanFinish file s := by
  rcases recoverable with nothing | ⟨mappable, inFlight, budget⟩
  · exact empty_canFinish nothing transfer sending receiving
  by_cases nothing : file = []
  · exact empty_canFinish nothing transfer sending receiving
  have follows : ∀ u : Session, TransferInv file u → SyncInv u → SenderRunning u →
      (u.receiver.pc = .recvDataPkt ∨ (u.receiver.pc = .returned .nascSuccess ∧
        u.receiver.stSequencing.iMmapNo = (agentPlan file).iTotNoMaps)) →
      outstanding u = outstanding s → u.toSender = s.toSender → u.sender = s.sender →
      u.receiver.iNoOfTimeOuts = s.receiver.iNoOfTimeOuts → CanFinish file u := by
    intro u transferU syncU runningU receiverU queueU toSenderU senderU timeOutsU
    by_cases none : outstanding u = []
    · rcases receiverU with waiting | ⟨finished, last⟩
      · exact canFinish_of_settled mappable nothing transferU syncU runningU waiting none
          (by rw [senderU]; exact retries) (by rw [timeOutsU]; exact timeOuts)
      · exact absurd none (sender_behind mappable nothing transferU syncU runningU finished last)
    · refine canFinish_of_followable mappable nothing transferU syncU runningU receiverU none ?_ ?_
      · rw [queueU, toSenderU]
        exact inFlight
      · rw [queueU, senderU]
        refine withinBudget_of_ahead budget ?_
        have negAcks := sync.negAcks
        have fewer : (outstanding s).countP isNegAck ≤ s.receiver.emitted.countP isNegAck :=
          List.filter_sublist.countP_le
        omega
  cases pc : s.receiver.pc with
  | returned value => exact absurd pc (receiving value)
  | recvDataPkt => exact follows s transfer sync sending (.inl pc) rfl rfl rfl rfl
  | writeWindow =>
    obtain ⟨u, executed, senderU, toSenderU, emitted, timeOutsU, outcome⟩ :=
      write_window mappable nothing transfer pc
    have queue : outstanding u = outstanding s := by
      simp only [outstanding, emitted, senderU]
    have runningU : SenderRunning u := by
      simp only [SenderRunning, senderU]
      exact sending
    obtain ⟨t, reached, success⟩ := follows u
      (transferInv_step small transfer (by trivial) executed) (syncInv_step sync executed)
      runningU
      (by
        rcases outcome with ⟨last, finished, sequence⟩ | ⟨_, waiting, _⟩
        · exact .inr ⟨finished, by rw [sequence]; exact last⟩
        · exact .inl waiting)
      queue toSenderU senderU timeOutsU
    exact ⟨t, Reaches.head (by trivial) executed reached, success⟩

end Sufficient

/-- After the loss of one acknowledgement in a running transfer that counted no
packet twice, the transfer can finish exactly in the recoverable states. -/
theorem lostAck_recoverable_iff (file : List UInt8) (small : file.length ≤ maxPlannedSize)
    (events : List SessionEvent) (s : Session)
    (allowed : Along (agentStep file) (FillsEmptySlot file) (agentStart file) events)
    (executed : run (agentStep file) (agentStart file) events = some s)
    (sending : SenderRunning s) (receiving : ReceiverRunning s)
    (retries : s.sender.iNoOfRetries < maxNoOfRetries)
    (timeOuts : s.receiver.iNoOfTimeOuts < maxNoOfRetries)
    (ack : StMsg) (t : Session) (lost : agentStep file s (.loseAck ack) = some t) :
    CanFinish file t ↔ Recoverable file t := by
  have transfer := transferInv_step small (transferInv_run small allowed executed)
    (by trivial) lost
  have sync := syncInv_step (syncInv_run executed) lost
  simp only [agentStep, Session.step, Option.ite_none_right_eq_some, Option.some.injEq] at lost
  obtain ⟨_, rfl⟩ := lost
  constructor
  · exact recoverable_of_canFinish small transfer sync sending receiving
  · exact canFinish_of_recoverable small transfer sync sending receiving retries timeOuts

def oneByteAck : StMsg := sendDataAck [] 0 ⟨1, 1⟩ .dataAck

/-- The only packet has arrived, its window is acknowledged, and the
acknowledgement is doubled on its way. -/
def doubledAck : List SessionEvent :=
  [.sendWindow .none, .recvDataPkt ⟨⟨.data, 1, 1, 1⟩, 1, [7]⟩, .windowDone true,
    .duplicateAck oneByteAck]

theorem lostAck_recoverable_doubled :
    ∃ s t, run (agentStep [7]) (agentStart [7]) doubledAck = some s ∧
      agentStep [7] s (.loseAck oneByteAck) = some t ∧ CanFinish [7] t := by
  obtain ⟨s, executed, sender, receiver, retries, timeOuts, inFlight, emitted, sequence⟩ :
      ∃ s, run (agentStep [7]) (agentStart [7]) doubledAck = some s ∧
        s.sender.pc = .recvAck ∧ s.receiver.pc = .writeWindow ∧ s.sender.iNoOfRetries = 0 ∧
        s.receiver.iNoOfTimeOuts = 0 ∧ s.toSender = [oneByteAck, oneByteAck] ∧
        s.receiver.emitted = [oneByteAck] ∧ s.sender.stSendSequence = ⟨1, 1⟩ :=
    run_of_any (by decide)
  have lost : agentStep [7] s (.loseAck oneByteAck) =
      some { s with toSender := [oneByteAck] } := by
    simp [agentStep, Session.step, inFlight]
  refine ⟨s, _, executed, lost, ?_⟩
  refine (lostAck_recoverable_iff [7] (by decide) doubledAck s (by decide) executed
    (by simp [SenderRunning, sender]) (by simp [ReceiverRunning, receiver])
    (by rw [retries]; decide) (by rw [timeOuts]; decide) oneByteAck _ lost).mpr ?_
  refine .inr ⟨by decide, ?_, ?_⟩
  · intro ack member
    simp only [outstanding, emitted] at member
    exact List.mem_of_mem_filter member
  · simp only [negAcksAhead, outstanding, emitted, sequence, retries]
    decide

/-- The acknowledgement of the only window gets lost: the receiver goes on and
sends no other one. -/
theorem lostAck_unrecoverable :
    ¬ ∀ (file : List UInt8) (events : List SessionEvent) (s t : Session) (ack : StMsg),
      run (agentStep file) (agentStart file) events = some s →
      SenderRunning s → ReceiverRunning s → s.sender.iNoOfRetries < maxNoOfRetries →
      s.receiver.iNoOfTimeOuts < maxNoOfRetries →
      agentStep file s (.loseAck ack) = some t → CanFinish file t := by
  intro always
  let events : List SessionEvent :=
    [.sendWindow .none, .recvDataPkt ⟨⟨.data, 1, 1, 1⟩, 1, [7]⟩, .windowDone true]
  obtain ⟨s, executed, sender, receiver, retries, timeOuts, inFlight, emitted, sequence⟩ :
      ∃ s, run (agentStep [7]) (agentStart [7]) events = some s ∧
        s.sender.pc = .recvAck ∧ s.receiver.pc = .writeWindow ∧ s.sender.iNoOfRetries = 0 ∧
        s.receiver.iNoOfTimeOuts = 0 ∧ s.toSender = [oneByteAck] ∧
        s.receiver.emitted = [oneByteAck] ∧ s.sender.stSendSequence = ⟨1, 1⟩ :=
    run_of_any (by decide)
  have lost : agentStep [7] s (.loseAck oneByteAck) = some { s with toSender := [] } := by
    simp [agentStep, Session.step, inFlight]
  have sending : SenderRunning s := by simp [SenderRunning, sender]
  have receiving : ReceiverRunning s := by simp [ReceiverRunning, receiver]
  have finish := always [7] events s _ oneByteAck executed sending receiving
    (by rw [retries]; decide) (by rw [timeOuts]; decide) lost
  have small : [7].length ≤ maxPlannedSize := by decide
  have transfer := transferInv_step small (transferInv_run small (by decide) executed)
    (by trivial) lost
  have recoverable := recoverable_of_canFinish (by decide) transfer
    (syncInv_step (syncInv_run executed) lost) sending receiving finish
  rcases recoverable with nothing | ⟨_, waiting, _⟩
  · cases nothing
  · have gone := waiting oneByteAck (by
      simp only [outstanding, emitted, sequence]
      decide)
    cases gone

end EveAgent.FileTrans
