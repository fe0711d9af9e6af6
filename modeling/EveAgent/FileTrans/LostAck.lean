import EveAgent.FileTrans.AckPath

namespace EveAgent.FileTrans

open Machine

def KeepsDatagrams : SessionEvent → Prop
  | .loseData _ => False
  | .loseAck _ => False
  | _ => True

def BothSucceeded (s : Session) : Prop :=
  s.sender.pc = .returned .nascSuccess ∧ s.receiver.pc = .returned .nascSuccess

/-- Some continuation without a further loss ends with success on both sides. -/
def CanFinish (file : List UInt8) (s : Session) : Prop :=
  ∃ t, Reaches (agentStep file) KeepsDatagrams s t ∧ BothSucceeded t

/-- The outstanding DATA_NEG_ACKs of the window the sender is in. -/
def negAcksAhead (s : Session) : Int := ((outstanding s).takeWhile isNegAck).length

/-- A file without bytes needs no acknowledgement. -/
def Recoverable (file : List UInt8) (s : Session) : Prop :=
  file = [] ∨
    (file.length ≤ maxMappedSize ∧ (∀ ack ∈ outstanding s, ack ∈ s.toSender) ∧
      s.sender.iNoOfRetries + negAcksAhead s ≤ maxNoOfRetries)

section Inversion

variable {file : List UInt8} {s t : Session} {event : SessionEvent}

theorem step_emits (executed : agentStep file s event = some t) :
    ∃ new, t.receiver.emitted = s.receiver.emitted ++ new ∧
      (∀ ack ∈ new, ack.sequence = s.receiver.nextSequence) ∧
      ∀ ack ∈ t.toSender, ack ∈ s.toSender ∨ ack ∈ new := by
  cases agentStep_moves executed with
  | sendWindow | ackTimeout | ackError | loseData | duplicateData => exact ⟨[], by simp⟩
  | recvAck | loseAck =>
    exact ⟨[], by simp, by simp, fun ack inside => .inl (List.mem_of_mem_erase inside)⟩
  | recvDataPkt message receiver _ stepped =>
    obtain ⟨_, _, cases⟩ := RecvState.recvDataPkt_cases stepped
    rcases cases with ⟨_, rfl⟩ | ⟨_, rfl⟩ <;> exact ⟨[], by simp⟩
  | dataTimeout receiver acks stepped =>
    obtain ⟨waiting, _, cases⟩ := RecvState.dataTimeout_cases stepped
    rw [RecvState.nextSequence_receiving waiting]
    rcases cases with ⟨_, rfl, rfl⟩ | ⟨_, rfl, rfl⟩
    · exact ⟨[], by simp⟩
    · refine ⟨_, rfl, ?_, fun ack inside => List.mem_append.mp inside⟩
      intro ack member
      rw [List.mem_singleton.mp member]
      rfl
  | windowDone sent receiver acks stepped =>
    obtain ⟨waiting, _, cases⟩ := RecvState.windowDone_cases stepped
    rw [RecvState.nextSequence_receiving waiting]
    rcases cases with ⟨_, rfl, rfl⟩ | ⟨_, rfl, rfl⟩
    · exact ⟨[], by simp⟩
    · refine ⟨_, rfl, ?_, fun ack inside => List.mem_append.mp inside⟩
      intro ack member
      rw [List.mem_singleton.mp member]
      rfl
  | writeWindow receiver stepped =>
    obtain ⟨_, _, _, _, _, emitted, _⟩ := RecvState.writeWindow_cases stepped
    exact ⟨[], by simp [emitted]⟩
  | dataError error receiver stepped =>
    obtain ⟨_, _, rfl⟩ := RecvState.dataError_cases stepped
    exact ⟨[], by simp⟩
  | duplicateAck message member =>
    refine ⟨[], by simp, by simp, ?_⟩
    intro ack inside
    rcases List.mem_cons.mp inside with rfl | old
    · exact .inl member
    · exact .inl old

theorem step_sender (executed : agentStep file s event = some t) :
    t.sender = s.sender ∨
      (∃ fault packets, s.sender.sendWindow file agentPageSize (agentPlan file) fault =
        some (t.sender, packets)) ∨
      (∃ message mapped, message ∈ s.toSender ∧ t.receiver = s.receiver ∧
        s.sender.recvAck file agentPageSize (agentPlan file) message mapped = some t.sender) ∨
      s.sender.ackTimeout = some t.sender ∨ (∃ error, s.sender.ackError error = some t.sender) := by
  cases agentStep_moves executed with
  | sendWindow fault sender packets stepped => exact .inr (.inl ⟨fault, packets, stepped⟩)
  | recvAck message mapped sender member stepped =>
    exact .inr (.inr (.inl ⟨message, mapped, member, rfl, stepped⟩))
  | ackTimeout sender stepped => exact .inr (.inr (.inr (.inl stepped)))
  | ackError error sender stepped => exact .inr (.inr (.inr (.inr ⟨error, stepped⟩)))
  | _ => exact .inl rfl

theorem senderInv_step (small : file.length ≤ maxPlannedSize)
    (inv : ∃ acked, SenderInv file s.sender acked) (executed : agentStep file s event = some t) :
    ∃ acked, SenderInv file t.sender acked := by
  obtain ⟨acked, inv⟩ := inv
  rcases step_sender executed with same | ⟨fault, packets, stepped⟩ |
    ⟨message, mapped, _, _, stepped⟩ | stepped | ⟨error, stepped⟩
  · rw [same]
    exact ⟨acked, inv⟩
  · exact ⟨acked, (senderInv_sendWindow small inv stepped).1⟩
  · refine ⟨max acked message.stHeader.iMmapNo.toNat, senderInv_recvAck ?_ ?_ stepped⟩
    · exact inv.mono (by omega)
    · intro _
      omega
  · exact ⟨acked, senderInv_ackTimeout inv stepped⟩
  · exact ⟨acked, senderInv_ackError inv stepped⟩

theorem outstanding_advance (inv : SyncInv s) {ack : StMsg} {rest : List StMsg}
    (queue : outstanding s = ack :: rest) (emitted : t.receiver.emitted = s.receiver.emitted)
    (next : t.sender.stSendSequence = ackNext ack) : outstanding t = rest := by
  obtain ⟨consumed, joined, first, second⟩ := inv.outstanding_path
  rw [queue] at joined second
  have split : t.receiver.emitted = (consumed ++ [ack]) ++ rest := by
    rw [emitted, joined, List.append_assoc]
    rfl
  rw [outstanding, split, next]
  have followed : AckPath ⟨1, 1⟩ (consumed ++ [ack]) (ackNext ack) :=
    first.append ⟨second.1, second.2.1, rfl⟩
  exact followed.filter_split second.2.2

theorem outstanding_kept (inv : SyncInv s) {new : List StMsg}
    (emitted : t.receiver.emitted = s.receiver.emitted ++ new)
    (numbered : ∀ ack ∈ new, ack.sequence = s.receiver.nextSequence)
    (same : t.sender.stSendSequence = s.sender.stSendSequence) :
    outstanding t = outstanding s ++ new := by
  obtain ⟨_, _, _, _, second⟩ := inv.path
  rw [outstanding, emitted, same, List.filter_append, outstanding]
  congr 1
  apply List.filter_eq_self.mpr
  intro ack member
  rw [numbered ack member]
  exact decide_eq_true second.bounds.1

end Inversion

section Necessary

variable {file : List UInt8} {s t : Session} {event : SessionEvent}

def SenderRunning (s : Session) : Prop := ∀ result, s.sender.pc ≠ .returned result

def ReceiverRunning (s : Session) : Prop := ∀ result, s.receiver.pc ≠ .returned result

/-- The sender waits for an acknowledgement that is gone for good. -/
structure Blocked (file : List UInt8) (ack : StMsg) (s : Session) : Prop where
  sync : SyncInv s
  window : ∃ acked, SenderInv file s.sender acked
  emitted : ack ∈ s.receiver.emitted
  gone : ack ∉ s.toSender
  inRange : ack.stHeader.iMmapNo ≤ (agentPlan file).iTotNoMaps
  behind : s.sender.stSendSequence.AtMost ack.sequence
  unfinished : s.sender.pc ≠ .returned .nascSuccess

theorem Blocked.counter {ack : StMsg} (inv : Blocked file ack s) (running : SenderRunning s) :
    s.sender.iMmapCntr < (agentPlan file).iTotNoMaps := by
  obtain ⟨_, window⟩ := inv.window
  have map := (window.running running).map
  have behind := inv.behind
  have inRange := inv.inRange
  simp only [StSequence.AtMost, StMsg.sequence] at behind
  omega

theorem blocked_step (small : file.length ≤ maxPlannedSize) {ack : StMsg}
    (inv : Blocked file ack s) (executed : agentStep file s event = some t) :
    Blocked file ack t := by
  obtain ⟨new, emitted, numbered, origin⟩ := step_emits executed
  have sync := syncInv_step inv.sync executed
  have window := senderInv_step small inv.window executed
  have kept : ack ∈ t.receiver.emitted := by
    rw [emitted]
    exact List.mem_append_left _ inv.emitted
  have gone : ack ∉ t.toSender := by
    intro inside
    rcases origin ack inside with before | after
    · exact inv.gone before
    · obtain ⟨consumed, joined, first, second⟩ := inv.sync.outstanding_path
      have strict := (first.append second).before (joined ▸ inv.emitted)
      rw [numbered ack after] at strict
      exact strict.not_atMost (StSequence.atMost_refl _)
  suffices moved : t.sender.stSendSequence.AtMost ack.sequence ∧
      t.sender.pc ≠ .returned .nascSuccess from
    ⟨sync, window, kept, gone, inv.inRange, moved.1, moved.2⟩
  rcases step_sender executed with same | ⟨fault, packets, stepped⟩ |
    ⟨message, mapped, member, _, stepped⟩ | stepped | ⟨error, stepped⟩
  · rw [same]
    exact ⟨inv.behind, inv.unfinished⟩
  · obtain ⟨waiting, cases⟩ := SendState.sendWindow_cases stepped
    have counter := inv.counter (by simp [SenderRunning, waiting])
    rcases cases with ⟨done, _⟩ | ⟨_, _, same, _⟩ | ⟨_, _, _, result, _, _, outcome⟩
    · omega
    · rw [same]
      exact ⟨inv.behind, by simp⟩
    · rcases outcome with ⟨_, same⟩ | ⟨failed, same⟩
      · rw [same]
        exact ⟨inv.behind, by simp⟩
      · rw [same]
        exact ⟨inv.behind, by simpa using failed⟩
  · obtain ⟨waiting, cases⟩ := SendState.recvAck_cases stepped
    have running : SenderRunning s := by simp [SenderRunning, waiting]
    have counter := inv.counter running
    have other : message ≠ ack := fun equal => inv.gone (equal ▸ member)
    -- what the sender follows here lies before the missing acknowledgement
    have ahead : message.sequence = s.sender.stSendSequence →
        (ackNext message).AtMost ack.sequence := by
      intro same
      obtain ⟨rest, queue⟩ := inv.sync.outstanding_head (inv.sync.acks message member) same
      obtain ⟨_, _, _, path⟩ := inv.sync.outstanding_path
      have inside : ack ∈ outstanding s := by
        rw [outstanding, List.mem_filter]
        exact ⟨inv.emitted, decide_eq_true inv.behind⟩
      rw [queue] at path inside
      rcases List.mem_cons.mp inside with equal | later
      · exact absurd equal.symm other
      · exact (path.2.2.bounds.2 ack later).1
    rcases cases with ⟨_, same⟩ | ⟨same, kind, acked⟩ | ⟨same, kind, negAcked⟩ |
      ⟨same, notAck, notNeg, _⟩
    · rw [same]
      exact ⟨inv.behind, by simp [waiting]⟩
    · have next := ahead same
      have inRange := inv.inRange
      obtain ⟨_, window⟩ := inv.window
      have map := (window.running running).map
      have number : message.stHeader.iMmapNo = s.sender.iMmapCntr + 1 := by
        rw [← map, ← same]
        rfl
      obtain ⟨_, outcome⟩ := SendState.dataAck_cases file agentPageSize (agentPlan file)
        { s.sender with
          piPktStatus := memcpyBytes s.sender.piPktStatus message.cData message.iDataLen } mapped
      rw [← acked] at outcome
      simp only [ackNext, kind, StSequence.AtMost, StMsg.sequence] at next
      rcases outcome with ⟨last, _⟩ | ⟨_, _, failed, still⟩ | ⟨_, _, started⟩
      · simp only at last
        omega
      · rw [failed, still]
        exact ⟨inv.behind, by simp⟩
      · have sequence := inv.sync
        rw [started]
        refine ⟨?_, by simp⟩
        simp only [StSequence.AtMost, StMsg.sequence]
        omega
    · have next := ahead same
      simp only [ackNext, kind] at next
      rw [negAcked]
      refine ⟨?_, by simp [SendState.dataNegAck]⟩
      simp only [SendState.dataNegAck, ← same]
      exact next
    · rcases inv.sync.kind member with kind | kind
      · exact absurd kind notAck
      · exact absurd kind notNeg
  · obtain ⟨_, same⟩ := SendState.ackTimeout_cases stepped
    rw [same]
    exact ⟨inv.behind, by simp⟩
  · obtain ⟨_, failed, same⟩ := SendState.ackError_cases stepped
    rw [same]
    exact ⟨inv.behind, by simpa using failed⟩

/-- The outstanding DATA_NEG_ACKs alone use up the sender's retries. -/
structure Overdrawn (file : List UInt8) (s : Session) : Prop where
  sync : SyncInv s
  window : ∃ acked, SenderInv file s.sender acked
  counter : SenderRunning s → s.sender.iMmapCntr < (agentPlan file).iTotNoMaps
  spent : SenderRunning s → maxNoOfRetries < s.sender.iNoOfRetries + negAcksAhead s
  unfinished : s.sender.pc ≠ .returned .nascSuccess

theorem overdrawn_step (small : file.length ≤ maxPlannedSize) (inv : Overdrawn file s)
    (executed : agentStep file s event = some t) : Overdrawn file t := by
  obtain ⟨new, emitted, numbered, _⟩ := step_emits executed
  have sync := syncInv_step inv.sync executed
  have window := senderInv_step small inv.window executed
  -- as long as the sender keeps its pair, acknowledgements only join the queue
  have queued : t.sender.stSendSequence = s.sender.stSendSequence →
      negAcksAhead s ≤ negAcksAhead t := by
    intro same
    simp only [negAcksAhead]
    rw [outstanding_kept inv.sync emitted numbered same, List.takeWhile_append]
    split
    · rename_i all
      rw [List.length_append, all]
      omega
    · omega
  have kept : t.sender.stSendSequence = s.sender.stSendSequence →
      t.sender.iMmapCntr = s.sender.iMmapCntr → s.sender.iNoOfRetries ≤ t.sender.iNoOfRetries →
      SenderRunning s → t.sender.pc ≠ .returned .nascSuccess → Overdrawn file t := by
    intro same counter retries running unfinished
    have spent := inv.spent running
    have more := queued same
    refine ⟨sync, window, fun _ => ?_, fun _ => by omega, unfinished⟩
    rw [counter]
    exact inv.counter running
  rcases step_sender executed with same | ⟨fault, packets, stepped⟩ |
    ⟨message, mapped, member, receiver, stepped⟩ | stepped | ⟨error, stepped⟩
  · have more := queued (by rw [same])
    refine ⟨sync, window, ?_, ?_, by rw [same]; exact inv.unfinished⟩
    · intro running
      rw [same]
      exact inv.counter (by simpa only [SenderRunning, same] using running)
    · intro running
      have spent := inv.spent (by simpa only [SenderRunning, same] using running)
      rw [same]
      omega
  · obtain ⟨waiting, cases⟩ := SendState.sendWindow_cases stepped
    have running : SenderRunning s := by simp [SenderRunning, waiting]
    have counter := inv.counter running
    rcases cases with ⟨done, _⟩ | ⟨_, _, same, _⟩ | ⟨_, _, _, result, _, _, outcome⟩
    · omega
    · exact kept (by rw [same]) (by rw [same]) (by rw [same]) running (by simp [same])
    · rcases outcome with ⟨_, same⟩ | ⟨failed, same⟩
      · exact kept (by rw [same]) (by rw [same]) (by rw [same]) running (by simp [same])
      · exact kept (by rw [same]) (by rw [same]) (by rw [same]) running
          (by simpa [same] using failed)
  · obtain ⟨waiting, cases⟩ := SendState.recvAck_cases stepped
    have running : SenderRunning s := by simp [SenderRunning, waiting]
    rcases cases with ⟨_, same⟩ | ⟨same, kind, _⟩ | ⟨same, kind, negAcked⟩ |
      ⟨same, notAck, notNeg, _⟩
    · exact kept (by rw [same]) (by rw [same]) (by rw [same]) running (by simp [same, waiting])
    · -- with DATA_ACK first in the queue the retries themselves are overdrawn
      obtain ⟨rest, queue⟩ := inv.sync.outstanding_head (inv.sync.acks message member) same
      have spent := inv.spent running
      have budget := inv.sync.budget waiting
      simp only [negAcksAhead, queue, isNegAck, kind, reduceCtorEq, decide_false,
        List.takeWhile_cons, Bool.false_eq_true, if_false, List.length_nil] at spent
      simp only [Nat.cast_zero] at spent
      omega
    · obtain ⟨rest, queue⟩ := inv.sync.outstanding_head (inv.sync.acks message member) same
      have shorter : outstanding t = rest := by
        refine outstanding_advance inv.sync queue (by rw [receiver]) ?_
        rw [negAcked]
        simp only [SendState.dataNegAck, ackNext, kind, ← same, StMsg.sequence]
      have spent := inv.spent running
      simp only [negAcksAhead, queue, isNegAck, kind, List.takeWhile_cons, decide_true, if_true,
        List.length_cons] at spent
      refine ⟨sync, window, ?_, ?_, by simp [negAcked, SendState.dataNegAck]⟩
      · intro _
        rw [negAcked]
        exact inv.counter running
      · intro _
        simp only [negAcksAhead, shorter]
        rw [negAcked]
        simp only [SendState.dataNegAck]
        push_cast at spent
        omega
    · rcases inv.sync.kind member with kind | kind
      · exact absurd kind notAck
      · exact absurd kind notNeg
  · obtain ⟨waiting, same⟩ := SendState.ackTimeout_cases stepped
    exact kept (by rw [same]) (by rw [same]) (by rw [same]; simp) (by simp [SenderRunning, waiting])
      (by simp [same])
  · obtain ⟨waiting, failed, same⟩ := SendState.ackError_cases stepped
    exact kept (by rw [same]) (by rw [same]) (by rw [same]) (by simp [SenderRunning, waiting])
      (by simpa [same] using failed)

theorem mappable_of_success (small : file.length ≤ maxPlannedSize) {acked : Nat}
    (inv : SenderInv file s.sender acked) (success : s.sender.pc = .returned .nascSuccess) :
    file.length ≤ maxMappedSize := by
  have maps := agentPlan_maps file small
  have finished := inv.finished success
  have bounded := inv.bounded
  simp only [maxMappedSize]
  omega

theorem maps_positive (small : file.length ≤ maxPlannedSize) (nonempty : file ≠ []) :
    0 < (agentPlan file).iTotNoMaps := by
  have maps := agentPlan_maps file small
  have length := List.length_pos_iff.mpr nonempty
  omega

theorem emitted_inRange (mappable : file.length ≤ maxMappedSize) (nonempty : file ≠ [])
    (small : file.length ≤ maxPlannedSize) (transfer : TransferInv file s) (sync : SyncInv s)
    (running : ReceiverRunning s) {ack : StMsg} (member : ack ∈ s.receiver.emitted) :
    ack.stHeader.iMmapNo ≤ (agentPlan file).iTotNoMaps := by
  have positive := maps_positive small nonempty
  obtain ⟨consumed, joined, first, second⟩ := sync.outstanding_path
  have path := first.append second
  rw [← joined] at path
  have before := path.before member
  have counted := path.positive (by simp) member
  simp only [StSequence.Before, StMsg.sequence] at before
  cases pc : s.receiver.pc with
  | recvDataPkt =>
    have inRange := (transfer.receiver.window (.inl pc)).inRange mappable
    rw [RecvState.nextSequence_receiving pc] at before
    omega
  | writeWindow =>
    have inRange := (transfer.receiver.window (.inr pc)).inRange mappable
    rw [RecvState.nextSequence_writing pc] at before
    simp only at before
    omega
  | returned result => exact absurd pc (running result)

theorem recoverable_of_canFinish (small : file.length ≤ maxPlannedSize)
    (transfer : TransferInv file s) (sync : SyncInv s) (sending : SenderRunning s)
    (receiving : ReceiverRunning s) (finish : CanFinish file s) : Recoverable file s := by
  by_cases nonempty : file = []
  · exact .inl nonempty
  obtain ⟨t, reached, success, _⟩ := finish
  have positive := maps_positive small nonempty
  have counter := (transfer.sender.running sending).more positive
  have unfinished := sending .nascSuccess
  have mappable : file.length ≤ maxMappedSize := by
    obtain ⟨_, last⟩ := reached.invariant
      (fun _ _ _ inv stepped => senderInv_step small inv stepped) ⟨_, transfer.sender⟩
    exact mappable_of_success small last success
  refine .inr ⟨mappable, ?_, ?_⟩
  · intro ack member
    by_contra gone
    rw [outstanding, List.mem_filter] at member
    have blocked : Blocked file ack s :=
      { sync := sync
        window := ⟨_, transfer.sender⟩
        emitted := member.1
        gone := gone
        inRange := emitted_inRange mappable nonempty small transfer sync receiving member.1
        behind := of_decide_eq_true member.2
        unfinished := unfinished }
    exact (reached.invariant (fun _ _ _ inv stepped => blocked_step small inv stepped)
      blocked).unfinished success
  · by_contra spent
    have overdrawn : Overdrawn file s :=
      { sync := sync
        window := ⟨_, transfer.sender⟩
        counter := fun _ => counter
        spent := fun _ => by omega
        unfinished := unfinished }
    exact (reached.invariant (fun _ _ _ inv stepped => overdrawn_step small inv stepped)
      overdrawn).unfinished success

end Necessary

end EveAgent.FileTrans
