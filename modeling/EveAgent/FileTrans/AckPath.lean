import EveAgent.FileTrans.Delivery

namespace EveAgent.FileTrans

open Machine

section Order

/-- The order of the pairs (iMmapNo, iCorrelater). -/
def StSequence.Before (p q : StSequence) : Prop :=
  p.iMmapNo < q.iMmapNo ∨ (p.iMmapNo = q.iMmapNo ∧ p.iCorrelater < q.iCorrelater)

def StSequence.AtMost (p q : StSequence) : Prop :=
  p.iMmapNo < q.iMmapNo ∨ (p.iMmapNo = q.iMmapNo ∧ p.iCorrelater ≤ q.iCorrelater)

instance (p q : StSequence) : Decidable (p.Before q) := inferInstanceAs (Decidable (_ ∨ _))

instance (p q : StSequence) : Decidable (p.AtMost q) := inferInstanceAs (Decidable (_ ∨ _))

variable {p q r : StSequence}

theorem StSequence.atMost_refl (p : StSequence) : p.AtMost p := .inr ⟨rfl, le_refl _⟩

theorem StSequence.AtMost.trans (first : p.AtMost q) (second : q.AtMost r) : p.AtMost r := by
  simp only [StSequence.AtMost] at *
  omega

theorem StSequence.AtMost.before (first : p.AtMost q) (second : q.Before r) : p.Before r := by
  simp only [StSequence.AtMost, StSequence.Before] at *
  omega

theorem StSequence.Before.atMost (first : p.Before q) (second : q.AtMost r) : p.Before r := by
  simp only [StSequence.AtMost, StSequence.Before] at *
  omega

theorem StSequence.Before.le (before : p.Before q) : p.AtMost q := by
  simp only [StSequence.AtMost, StSequence.Before] at *
  omega

theorem StSequence.Before.not_atMost (before : p.Before q) : ¬ q.AtMost p := by
  simp only [StSequence.AtMost, StSequence.Before] at *
  omega

theorem StSequence.AtMost.antisymm (first : p.AtMost q) (second : q.AtMost p) : p = q := by
  obtain ⟨pMap, pCorr⟩ := p
  obtain ⟨qMap, qCorr⟩ := q
  simp only [StSequence.AtMost, StSequence.mk.injEq] at *
  omega

end Order

section Path

/-- The pair both sides move to with an acknowledgement. -/
def ackNext (ack : StMsg) : StSequence :=
  match ack.stHeader.ePktType with
  | .dataAck => ⟨ack.stHeader.iMmapNo + 1, 1⟩
  | _ => ⟨ack.stHeader.iMmapNo, ack.stHeader.iCorrelater + 1⟩

/-- Each acknowledgement carries the pair the one before it led to. -/
def AckPath : StSequence → List StMsg → StSequence → Prop
  | p, [], q => p = q
  | p, ack :: acks, q =>
    ack.sequence = p ∧
      (ack.stHeader.ePktType = .dataAck ∨ ack.stHeader.ePktType = .dataNegAck) ∧
      AckPath (ackNext ack) acks q

variable {p q r : StSequence} {ack : StMsg} {acks front back : List StMsg}

theorem ackNext_before (ack : StMsg) : ack.sequence.Before (ackNext ack) := by
  simp only [StSequence.Before, StMsg.sequence, ackNext]
  split <;> simp

theorem AckPath.append (first : AckPath p front q) (second : AckPath q back r) :
    AckPath p (front ++ back) r := by
  induction front generalizing p with
  | nil =>
    simp only [AckPath] at first
    subst first
    exact second
  | cons head tail ih => exact ⟨first.1, first.2.1, ih first.2.2⟩

theorem AckPath.bounds (path : AckPath p acks q) :
    p.AtMost q ∧ ∀ ack ∈ acks, p.AtMost ack.sequence ∧ (ackNext ack).AtMost q := by
  induction acks generalizing p with
  | nil =>
    simp only [AckPath] at path
    subst path
    exact ⟨p.atMost_refl, by simp⟩
  | cons head tail ih =>
    obtain ⟨sequence, _, rest⟩ := path
    obtain ⟨reach, inner⟩ := ih rest
    have forward := (ackNext_before head).le
    rw [sequence] at forward
    refine ⟨forward.trans reach, ?_⟩
    intro ack member
    rcases List.mem_cons.mp member with rfl | later
    · exact ⟨by rw [sequence]; exact p.atMost_refl, reach⟩
    · exact ⟨forward.trans (inner ack later).1, (inner ack later).2⟩

theorem AckPath.ascending (path : AckPath p acks q) :
    acks.Pairwise fun earlier later => earlier.sequence.Before later.sequence := by
  induction acks generalizing p with
  | nil => exact List.Pairwise.nil
  | cons head tail ih =>
    refine List.Pairwise.cons ?_ (ih path.2.2)
    intro later member
    exact (ackNext_before head).atMost (path.2.2.bounds.2 later member).1

theorem AckPath.before (path : AckPath p acks q) (member : ack ∈ acks) :
    ack.sequence.Before q :=
  (ackNext_before ack).atMost (path.bounds.2 ack member).2

theorem AckPath.head_unique {head : StMsg} {tail : List StMsg}
    (path : AckPath p (head :: tail) q) (member : ack ∈ head :: tail)
    (same : ack.sequence = p) : ack = head := by
  rcases List.mem_cons.mp member with rfl | later
  · rfl
  · have after := (path.2.2.bounds.2 ack later).1
    have next := ackNext_before head
    rw [path.1, ← same] at next
    exact absurd after next.not_atMost

theorem AckPath.head_not_mem {head : StMsg} {tail : List StMsg}
    (path : AckPath p (head :: tail) q) : head ∉ tail := by
  intro later
  exact (ackNext_before head).not_atMost (path.2.2.bounds.2 head later).1

theorem AckPath.kind (path : AckPath p acks q) (member : ack ∈ acks) :
    ack.stHeader.ePktType = .dataAck ∨ ack.stHeader.ePktType = .dataNegAck := by
  induction acks generalizing p with
  | nil => cases member
  | cons head tail ih =>
    rcases List.mem_cons.mp member with rfl | later
    · exact path.2.1
    · exact ih path.2.2 later

theorem AckPath.positive (path : AckPath p acks q) (first : 1 ≤ p.iCorrelater)
    (member : ack ∈ acks) : 1 ≤ ack.stHeader.iCorrelater := by
  induction acks generalizing p with
  | nil => cases member
  | cons head tail ih =>
    obtain ⟨rfl, kind, rest⟩ := path
    rcases List.mem_cons.mp member with rfl | later
    · exact first
    · refine ih rest ?_ later
      simp only [StMsg.sequence] at first
      rcases kind with kind | kind <;> simp only [ackNext, kind]
      · omega
      · omega

theorem AckPath.filter_split (first : AckPath p front q) (second : AckPath q back r) :
    (front ++ back).filter (fun ack => decide (q.AtMost ack.sequence)) = back := by
  rw [List.filter_append, List.filter_eq_nil_iff.mpr, List.filter_eq_self.mpr, List.nil_append]
  · intro ack member
    exact decide_eq_true (second.bounds.2 ack member).1
  · intro ack member
    rw [decide_eq_true_eq]
    exact (first.before member).not_atMost

end Path

/-- The pair of the next acknowledgement the receiver can send. -/
def RecvState.nextSequence (r : RecvState) : StSequence :=
  match r.pc with
  | .recvDataPkt => r.stSequencing
  | .writeWindow => ⟨r.stSequencing.iMmapNo + 1, 1⟩
  | .returned .nascSuccess => ⟨r.stSequencing.iMmapNo + 1, 1⟩
  | .returned _ => r.stSequencing

theorem RecvState.nextSequence_receiving {r : RecvState} (waiting : r.pc = .recvDataPkt) :
    r.nextSequence = r.stSequencing := by
  simp only [RecvState.nextSequence, waiting]

theorem RecvState.nextSequence_writing {r : RecvState} (writing : r.pc = .writeWindow) :
    r.nextSequence = ⟨r.stSequencing.iMmapNo + 1, 1⟩ := by
  simp only [RecvState.nextSequence, writing]

theorem RecvState.nextSequence_finished {r : RecvState}
    (finished : r.pc = .returned .nascSuccess) :
    r.nextSequence = ⟨r.stSequencing.iMmapNo + 1, 1⟩ := by
  simp only [RecvState.nextSequence, finished]

theorem RecvState.nextSequence_failed {r : RecvState} {error : ENASCenterError}
    (failed : r.pc = .returned error) (kind : error ≠ .nascSuccess) :
    r.nextSequence = r.stSequencing := by
  cases error <;> simp_all [RecvState.nextSequence]

/-- The acknowledgements sent so far that the sender has not followed yet. -/
def outstanding (s : Session) : List StMsg :=
  s.receiver.emitted.filter fun ack => decide (s.sender.stSendSequence.AtMost ack.sequence)

def isNegAck (ack : StMsg) : Bool := decide (ack.stHeader.ePktType = .dataNegAck)

/-- The sender's pair splits the path of the receiver. -/
def Split (sender receiver : StSequence) (emitted : List StMsg) : Prop :=
  ∃ consumed rest, emitted = consumed ++ rest ∧ AckPath ⟨1, 1⟩ consumed sender ∧
    AckPath sender rest receiver

/-- How the two pairs hang together in any run, whatever the network does. -/
structure SyncInv (s : Session) : Prop where
  path : Split s.sender.stSendSequence s.receiver.nextSequence s.receiver.emitted
  acks : ∀ ack ∈ s.toSender, ack ∈ s.receiver.emitted
  data : ∀ message ∈ s.toReceiver, message.sequence.AtMost s.sender.stSendSequence
  budget : s.sender.pc = .recvAck → s.sender.iNoOfRetries ≤ maxNoOfRetries
  negAcks : (s.receiver.emitted.countP isNegAck : Int) ≤ s.receiver.iNoOfTimeOuts
  /-- No packet is accepted while the last DATA_NEG_ACK is under way. -/
  status : ∀ ack, s.receiver.emitted.getLast? = some ack → isNegAck ack →
    s.receiver.pc = .recvDataPkt → s.sender.stSendSequence ≠ s.receiver.stSequencing →
    ack.iDataLen = s.receiver.iNoOfPktsPerMap ∧
      ack.cData = s.receiver.piPktStatus.take s.receiver.iNoOfPktsPerMap.toNat
  writing : s.receiver.pc = .writeWindow →
    ∀ ack, s.receiver.emitted.getLast? = some ack → ¬ isNegAck ack

section Outstanding

variable {s : Session}

theorem SyncInv.outstanding_path (inv : SyncInv s) :
    ∃ consumed, s.receiver.emitted = consumed ++ outstanding s ∧
      AckPath ⟨1, 1⟩ consumed s.sender.stSendSequence ∧
      AckPath s.sender.stSendSequence (outstanding s) s.receiver.nextSequence := by
  obtain ⟨consumed, rest, emitted, first, second⟩ := inv.path
  have same : outstanding s = rest := by
    rw [outstanding, emitted]
    exact first.filter_split second
  rw [same]
  exact ⟨consumed, emitted, first, second⟩

/-- An acknowledgement with the sender's pair is the first outstanding one. -/
theorem SyncInv.outstanding_head (inv : SyncInv s) {ack : StMsg}
    (member : ack ∈ s.receiver.emitted) (same : ack.sequence = s.sender.stSendSequence) :
    ∃ rest, outstanding s = ack :: rest := by
  obtain ⟨consumed, _, _, path⟩ := inv.outstanding_path
  have inside : ack ∈ outstanding s := by
    rw [outstanding, List.mem_filter, same]
    exact ⟨member, decide_eq_true (StSequence.atMost_refl _)⟩
  cases waiting : outstanding s with
  | nil =>
    rw [waiting] at inside
    cases inside
  | cons head tail =>
    rw [waiting] at path inside
    rw [path.head_unique inside same]
    exact ⟨tail, rfl⟩

theorem SyncInv.kind (inv : SyncInv s) {ack : StMsg} (member : ack ∈ s.toSender) :
    ack.stHeader.ePktType = .dataAck ∨ ack.stHeader.ePktType = .dataNegAck := by
  obtain ⟨_, _, joined, first, second⟩ := inv.path
  exact (first.append second).kind (joined ▸ inv.acks ack member)

theorem split_advance {p q : StSequence} {emitted : List StMsg} {ack : StMsg}
    (path : Split p q emitted) (member : ack ∈ emitted) (same : ack.sequence = p) :
    Split (ackNext ack) q emitted := by
  obtain ⟨consumed, rest, joined, first, second⟩ := path
  have inside : ack ∈ rest := by
    rw [joined] at member
    rcases List.mem_append.mp member with before | after
    · have strict := first.before before
      rw [same] at strict
      exact absurd (StSequence.atMost_refl p) strict.not_atMost
    · exact after
  cases rest with
  | nil => cases inside
  | cons head tail =>
    obtain rfl := second.head_unique inside same
    refine ⟨consumed ++ [ack], tail, by rw [joined, List.append_assoc]; rfl, ?_, second.2.2⟩
    exact first.append ⟨same, second.2.1, rfl⟩

theorem split_emit {p q : StSequence} {emitted : List StMsg} (ack : StMsg)
    (path : Split p q emitted) (same : ack.sequence = q)
    (kind : ack.stHeader.ePktType = .dataAck ∨ ack.stHeader.ePktType = .dataNegAck) :
    Split p (ackNext ack) (emitted ++ [ack]) := by
  obtain ⟨consumed, rest, joined, first, second⟩ := path
  refine ⟨consumed, rest ++ [ack], by rw [joined, List.append_assoc], first, ?_⟩
  exact second.append ⟨same, kind, rfl⟩

end Outstanding

section Steps

variable {file : List UInt8} {s t : Session} {sender : SendState}

theorem recvAck_sequence {plan : StCntrlData} {iPageSize : Int} {message : StMsg} {mapped : Bool}
    {before after : SendState}
    (kind : message.stHeader.ePktType = .dataAck ∨ message.stHeader.ePktType = .dataNegAck)
    (executed : before.recvAck file iPageSize plan message mapped = some after) :
    after.stSendSequence = before.stSendSequence ∨
      (message.sequence = before.stSendSequence ∧ after.stSendSequence = ackNext message) := by
  obtain ⟨_, cases⟩ := SendState.recvAck_cases executed
  rcases cases with ⟨_, rfl⟩ | ⟨same, type, rfl⟩ | ⟨same, type, rfl⟩ | ⟨_, notAck, notNeg, _⟩
  · exact .inl rfl
  · obtain ⟨_, outcome⟩ := SendState.dataAck_cases file iPageSize plan { before with
        piPktStatus := memcpyBytes before.piPktStatus message.cData message.iDataLen } mapped
    rcases outcome with ⟨_, _, kept⟩ | ⟨_, _, _, kept⟩ | ⟨_, _, started⟩
    · exact .inl kept
    · exact .inl kept
    · refine .inr ⟨same, ?_⟩
      rw [started]
      simp only [ackNext, type, ← same, StMsg.sequence]
  · refine .inr ⟨same, ?_⟩
    simp only [SendState.dataNegAck, ackNext, type, ← same, StMsg.sequence]
  · rcases kind with kind | kind
    · exact absurd kind notAck
    · exact absurd kind notNeg

theorem SyncInv.sender_kept (inv : SyncInv s) (sender : SendState) (packets : List StMsg)
    {acks : List StMsg}
    (same : sender.stSendSequence = s.sender.stSendSequence)
    (budget : sender.pc = .recvAck → sender.iNoOfRetries ≤ maxNoOfRetries)
    (sent : ∀ message ∈ packets, message.sequence = s.sender.stSendSequence)
    (kept : ∀ ack ∈ acks, ack ∈ s.toSender) :
    SyncInv { s with
      sender := sender
      toReceiver := s.toReceiver ++ packets
      toSender := acks } := by
  refine ⟨?_, fun ack member => inv.acks ack (kept ack member), ?_, budget, inv.negAcks, ?_,
    inv.writing⟩
  · simp only [same]
    exact inv.path
  · intro message member
    simp only [same]
    rcases List.mem_append.mp member with old | new
    · exact inv.data message old
    · rw [sent message new]
      exact StSequence.atMost_refl _
  · simp only [same]
    exact inv.status

theorem SyncInv.sender_advance (inv : SyncInv s) {ack : StMsg} {acks : List StMsg}
    (member : ack ∈ s.receiver.emitted) (same : ack.sequence = s.sender.stSendSequence)
    (next : sender.stSendSequence = ackNext ack)
    (budget : sender.pc = .recvAck → sender.iNoOfRetries ≤ maxNoOfRetries)
    (kept : ∀ ack ∈ acks, ack ∈ s.toSender) :
    SyncInv { s with sender := sender, toSender := acks } := by
  have forward := ackNext_before ack
  rw [same] at forward
  refine ⟨?_, fun ack member => inv.acks ack (kept ack member), ?_, budget, inv.negAcks, ?_,
    inv.writing⟩
  · simp only [next]
    exact split_advance inv.path member same
  · intro message inside
    simp only [next]
    exact (inv.data message inside).trans forward.le
  · intro last lastOf negative waiting differs
    refine inv.status last lastOf negative waiting ?_
    intro equal
    -- nothing is outstanding at the receiver's own pair
    obtain ⟨rest, queue⟩ := inv.outstanding_head member same
    obtain ⟨_, _, _, path⟩ := inv.outstanding_path
    rw [queue] at path
    have strict := path.before List.mem_cons_self
    rw [RecvState.nextSequence_receiving waiting, same, equal] at strict
    exact absurd (StSequence.atMost_refl _) strict.not_atMost

theorem syncInv_init (file : List UInt8) : SyncInv (agentStart file) where
  path := ⟨[], [], rfl, rfl, rfl⟩
  acks := by simp [agentStart, Session.init]
  data := by simp [agentStart, Session.init]
  budget := by simp [agentStart, Session.init, SendState.init]
  negAcks := by simp [agentStart, Session.init, RecvState.init]
  status := by simp [agentStart, Session.init, RecvState.init]
  writing := by simp [agentStart, Session.init, RecvState.init]

theorem SyncInv.receiver_kept (inv : SyncInv s) {receiver : RecvState} {packets : List StMsg}
    (emitted : receiver.emitted = s.receiver.emitted)
    (next : receiver.nextSequence = s.receiver.nextSequence)
    (timeOuts : s.receiver.iNoOfTimeOuts ≤ receiver.iNoOfTimeOuts)
    (kept : ∀ message ∈ packets, message ∈ s.toReceiver)
    (status : ∀ ack, s.receiver.emitted.getLast? = some ack → isNegAck ack →
      receiver.pc = .recvDataPkt → s.sender.stSendSequence ≠ receiver.stSequencing →
      ack.iDataLen = receiver.iNoOfPktsPerMap ∧
        ack.cData = receiver.piPktStatus.take receiver.iNoOfPktsPerMap.toNat)
    (writing : receiver.pc ≠ .writeWindow) :
    SyncInv { s with receiver := receiver, toReceiver := packets } := by
  refine ⟨?_, ?_, fun message member => inv.data message (kept message member), inv.budget, ?_,
    ?_, fun contra => absurd contra writing⟩
  · simp only [emitted, next]
    exact inv.path
  · simp only [emitted]
    exact inv.acks
  · have negAcks := inv.negAcks
    simp only [emitted]
    omega
  · simp only [emitted]
    exact status

theorem SyncInv.accepts (inv : SyncInv s) (waiting : s.receiver.pc = .recvDataPkt)
    {message : StMsg} (member : message ∈ s.toReceiver) (accepted : s.receiver.Accepts message) :
    s.sender.stSendSequence = s.receiver.stSequencing := by
  obtain ⟨_, _, _, _, reach⟩ := inv.path
  have sender := reach.bounds.1
  rw [RecvState.nextSequence_receiving waiting] at sender
  have data := inv.data message member
  rw [accepted.2] at data
  exact sender.antisymm data

theorem SyncInv.dataTimeout (inv : SyncInv s) {receiver : RecvState} {acks : List StMsg}
    (executed : s.receiver.dataTimeout = some (receiver, acks)) :
    SyncInv { s with receiver := receiver, toSender := s.toSender ++ acks } := by
  obtain ⟨waiting, _, cases⟩ := RecvState.dataTimeout_cases executed
  rcases cases with ⟨_, rfl, rfl⟩ | ⟨_, rfl, rfl⟩
  · rw [List.append_nil]
    refine inv.receiver_kept rfl ?_ (by simp) (fun _ member => member) (by simp) (by simp)
    rw [RecvState.nextSequence_receiving waiting, RecvState.nextSequence_failed rfl (by simp)]
  · have path := inv.path
    rw [RecvState.nextSequence_receiving waiting] at path
    refine ⟨?_, ?_, inv.data, inv.budget, ?_, ?_, by simp [waiting]⟩
    · rw [RecvState.nextSequence_receiving (by exact waiting)]
      exact split_emit _ path rfl (.inr rfl)
    · intro ack member
      rcases List.mem_append.mp member with old | new
      · exact List.mem_append_left _ (inv.acks ack old)
      · exact List.mem_append_right _ new
    · have negAcks := inv.negAcks
      simp only [List.countP_append]
      have one : List.countP isNegAck [sendDataAck s.receiver.piPktStatus
          s.receiver.iNoOfPktsPerMap s.receiver.stSequencing .dataNegAck] = 1 := by
        simp [isNegAck, sendDataAck]
      rw [one]
      push_cast
      omega
    · intro ack last _ _ _
      simp only [List.getLast?_append, List.getLast?_singleton, Option.some_or,
        Option.some.injEq] at last
      rw [← last]
      exact ⟨rfl, rfl⟩

theorem SyncInv.windowDone (inv : SyncInv s) {receiver : RecvState} {acks : List StMsg}
    {sent : Bool} (executed : s.receiver.windowDone sent = some (receiver, acks)) :
    SyncInv { s with receiver := receiver, toSender := s.toSender ++ acks } := by
  obtain ⟨waiting, _, cases⟩ := RecvState.windowDone_cases executed
  rcases cases with ⟨_, rfl, rfl⟩ | ⟨_, rfl, rfl⟩
  · rw [List.append_nil]
    refine inv.receiver_kept rfl ?_ (by simp) (fun _ member => member) (by simp) (by simp)
    rw [RecvState.nextSequence_receiving waiting, RecvState.nextSequence_failed rfl (by simp)]
  · have path := inv.path
    rw [RecvState.nextSequence_receiving waiting] at path
    have advanced := split_emit (sendDataAck [] 0 s.receiver.stSequencing .dataAck) path rfl
      (.inl rfl)
    refine ⟨advanced, ?_, inv.data, inv.budget, ?_, ?_, ?_⟩
    · intro ack member
      rcases List.mem_append.mp member with old | new
      · exact List.mem_append_left _ (inv.acks ack old)
      · exact List.mem_append_right _ new
    · have negAcks := inv.negAcks
      have zero : List.countP isNegAck [sendDataAck [] 0 s.receiver.stSequencing .dataAck] = 0 := by
        simp [isNegAck, sendDataAck]
      simp only [List.countP_append, zero]
      exact negAcks
    · intro _ _ _ receiving
      cases receiving
    · intro _ ack last
      simp only [List.getLast?_append, List.getLast?_singleton, Option.some_or,
        Option.some.injEq] at last
      rw [← last]
      simp [isNegAck, sendDataAck]

theorem SyncInv.writeWindow (inv : SyncInv s) {plan : StCntrlData} {receiver : RecvState}
    (executed : s.receiver.writeWindow plan = some receiver) :
    SyncInv { s with receiver := receiver } := by
  obtain ⟨writing, _, _, _, _, emitted, _, timeOuts, cases⟩ :=
    RecvState.writeWindow_cases executed
  have positive := inv.writing writing
  have still : ∀ ack, s.receiver.emitted.getLast? = some ack → isNegAck ack →
      receiver.pc = .recvDataPkt → s.sender.stSendSequence ≠ receiver.stSequencing →
      ack.iDataLen = receiver.iNoOfPktsPerMap ∧
        ack.cData = receiver.piPktStatus.take receiver.iNoOfPktsPerMap.toNat :=
    fun ack last negative => absurd negative (positive ack last)
  rcases cases with ⟨_, ended, sequence⟩ | ⟨_, waiting, sequence, _, _⟩
  · refine inv.receiver_kept emitted ?_ (by omega) (fun _ member => member) still (by simp [ended])
    rw [RecvState.nextSequence_writing writing, RecvState.nextSequence_finished ended, sequence]
  · refine inv.receiver_kept emitted ?_ (by omega) (fun _ member => member) still
      (by simp [waiting])
    rw [RecvState.nextSequence_writing writing, RecvState.nextSequence_receiving waiting, sequence]

/-- Every step of every run keeps the two pairs on one path. -/
theorem syncInv_step (inv : SyncInv s) {event : SessionEvent}
    (executed : agentStep file s event = some t) : SyncInv t := by
  cases agentStep_moves executed with
  | sendWindow fault sender packets stepped =>
    obtain ⟨waiting, cases⟩ := SendState.sendWindow_cases stepped
    rcases cases with ⟨_, rfl, rfl⟩ | ⟨_, _, rfl, rfl⟩ |
      ⟨_, budget, page, result, _, sent, outcome⟩
    · exact inv.sender_kept _ [] rfl (by simp) (by simp) (fun _ member => member)
    · exact inv.sender_kept _ [] rfl (by simp) (by simp) (fun _ member => member)
    · have sameSequence : ∀ message ∈ packets, message.sequence = s.sender.stSendSequence := by
        intro message member
        obtain ⟨_, _, header, _⟩ := sendActualDataLoop_mem _ 1 _ 0 0 (by omega)
          ((sendActualData_cases sent).1 message member)
        rw [StMsg.sequence, header]
      rcases outcome with ⟨_, rfl⟩ | ⟨_, rfl⟩
      · exact inv.sender_kept _ packets rfl (fun _ => budget) sameSequence
          (fun _ member => member)
      · exact inv.sender_kept _ packets rfl (by simp) sameSequence (fun _ member => member)
  | recvAck message mapped sender member stepped =>
    have emitted := inv.acks message member
    have kind := inv.kind member
    have budget : sender.pc = .recvAck → sender.iNoOfRetries ≤ maxNoOfRetries := by
      intro waiting
      obtain ⟨before, cases⟩ := SendState.recvAck_cases stepped
      rcases cases with ⟨_, rfl⟩ | ⟨_, _, rfl⟩ | ⟨_, _, rfl⟩ | ⟨_, _, _, rfl⟩
      · exact inv.budget before
      · obtain ⟨_, outcome⟩ := SendState.dataAck_cases file agentPageSize (agentPlan file)
          { s.sender with
            piPktStatus := memcpyBytes s.sender.piPktStatus message.cData message.iDataLen }
          mapped
        rcases outcome with ⟨_, ended, _⟩ | ⟨_, _, ended, _⟩ | ⟨_, _, started⟩
        · rw [ended] at waiting
          cases waiting
        · rw [ended] at waiting
          cases waiting
        · rw [started] at waiting
          cases waiting
      · cases waiting
      · cases waiting
    rcases recvAck_sequence kind stepped with same | ⟨same, next⟩
    · simpa using inv.sender_kept sender [] same budget (by simp)
        (fun _ inside => List.mem_of_mem_erase inside)
    · exact inv.sender_advance emitted same next budget
        (fun _ inside => List.mem_of_mem_erase inside)
  | ackTimeout sender stepped =>
    obtain ⟨_, rfl⟩ := SendState.ackTimeout_cases stepped
    simpa using inv.sender_kept { s.sender with
      eReturnValue := .nascFileTransTimeOut
      iNoOfRetries := s.sender.iNoOfRetries + 1
      pc := .sendWindow } [] rfl (by simp) (by simp) (fun _ member => member)
  | ackError error sender stepped =>
    obtain ⟨_, _, rfl⟩ := SendState.ackError_cases stepped
    simpa using inv.sender_kept { s.sender with
      eReturnValue := error
      pc := .returned error } [] rfl (by simp) (by simp) (fun _ member => member)
  | recvDataPkt message receiver member stepped =>
    obtain ⟨waiting, _, cases⟩ := RecvState.recvDataPkt_cases stepped
    have kept : ∀ other ∈ s.toReceiver.erase message, other ∈ s.toReceiver :=
      fun _ inside => List.mem_of_mem_erase inside
    rcases cases with ⟨_, rfl⟩ | ⟨accepted, rfl⟩
    · exact inv.receiver_kept rfl rfl (le_refl _) kept inv.status (by simp [waiting])
    · have same := inv.accepts waiting member accepted
      exact inv.receiver_kept rfl rfl (le_refl _) kept
        (fun _ _ _ _ differs => absurd same differs) (by simp [waiting])
  | dataTimeout receiver acks stepped => exact inv.dataTimeout stepped
  | windowDone sent receiver acks stepped => exact inv.windowDone stepped
  | writeWindow receiver stepped => exact inv.writeWindow stepped
  | dataError error receiver stepped =>
    obtain ⟨waiting, failed, rfl⟩ := RecvState.dataError_cases stepped
    refine inv.receiver_kept rfl ?_ (le_refl _) (fun _ member => member) (by simp) (by simp)
    rw [RecvState.nextSequence_receiving waiting, RecvState.nextSequence_failed rfl failed]
  | loseData message _ =>
    exact { inv with data := fun other inside => inv.data other (List.mem_of_mem_erase inside) }
  | loseAck message _ =>
    exact { inv with acks := fun other inside => inv.acks other (List.mem_of_mem_erase inside) }
  | duplicateData message member =>
    refine { inv with data := ?_ }
    intro other inside
    rcases List.mem_cons.mp inside with rfl | old
    · exact inv.data other member
    · exact inv.data other old
  | duplicateAck message member =>
    refine { inv with acks := ?_ }
    intro other inside
    rcases List.mem_cons.mp inside with rfl | old
    · exact inv.acks other member
    · exact inv.acks other old

theorem syncInv_run {events : List SessionEvent}
    (executed : run (agentStep file) (agentStart file) events = some s) : SyncInv s :=
  run_invariant' (fun _ _ _ inv stepped => syncInv_step inv stepped) (syncInv_init file) executed

/-- Whatever is lost, delayed, doubled or reordered: no pair is acknowledged twice, the sender is
never ahead of the receiver, and a packet is only accepted while both are at its pair. -/
theorem pairs_in_step (file : List UInt8) (events : List SessionEvent) (s : Session)
    (executed : run (agentStep file) (agentStart file) events = some s) :
    (s.receiver.emitted.Pairwise fun earlier later => earlier.sequence.Before later.sequence) ∧
      s.sender.stSendSequence.AtMost s.receiver.nextSequence ∧
      ∀ message ∈ s.toReceiver, s.receiver.pc = .recvDataPkt → s.receiver.Accepts message →
        s.sender.stSendSequence = s.receiver.stSequencing := by
  have inv := syncInv_run executed
  obtain ⟨consumed, rest, emitted, first, second⟩ := inv.path
  refine ⟨?_, second.bounds.1, fun message member waiting => inv.accepts waiting member⟩
  rw [emitted]
  exact (first.append second).ascending

end Steps

/-- The only packet is doubled, and so is its acknowledgement. -/
def doubledTransfer : List SessionEvent :=
  [.sendWindow .none, .duplicateData ⟨⟨.data, 1, 1, 1⟩, 1, [7]⟩,
    .recvDataPkt ⟨⟨.data, 1, 1, 1⟩, 1, [7]⟩, .windowDone true,
    .duplicateAck (sendDataAck [] 0 ⟨1, 1⟩ .dataAck)]

theorem pairs_in_step_doubled :
    ∃ s, run (agentStep [7]) (agentStart [7]) doubledTransfer = some s ∧
      s.receiver.emitted ≠ [] ∧
      (s.receiver.emitted.Pairwise fun earlier later => earlier.sequence.Before later.sequence) ∧
      s.sender.stSendSequence.AtMost s.receiver.nextSequence := by
  obtain ⟨s, executed, emitted⟩ : ∃ s, run (agentStep [7]) (agentStart [7]) doubledTransfer =
      some s ∧ s.receiver.emitted ≠ [] := run_of_any (by decide)
  have kept := pairs_in_step [7] doubledTransfer s executed
  exact ⟨s, executed, emitted, kept.1, kept.2.1⟩

end EveAgent.FileTrans
