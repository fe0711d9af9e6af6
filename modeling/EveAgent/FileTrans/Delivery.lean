import EveAgent.FileTrans.Window

/-! Safety of a transfer: what the receiver has written, or is about to write,
when the sender reports success. -/

namespace EveAgent.FileTrans

open Machine

section Content

variable {file : List UInt8}

theorem ackedWindow_content (mappable : file.length ≤ maxMappedSize) {index : Nat}
    {window : List StRecvData} (acked : AckedWindow file index window) :
    windowContent window =
      ((List.range (slotsOf (agentPlan file) (index + 1)).toNat).map fun slot =>
        packet file (index * (agentPlan file).iNoPktsPerMMap.toNat + slot)).flatten := by
  have slots := agentPlan_slots file (index + 1)
  simp only [windowContent]
  congr 1
  apply List.ext_getElem
  · simp only [List.length_map, List.length_range, acked.length]
  · intro slot inside _
    rw [List.length_map] at inside
    obtain ⟨bytes, cell, content⟩ := acked.filled slot window[slot]
      (List.getElem?_eq_getElem inside)
    have place : ((index : Int) * (agentPlan file).iNoPktsPerMMap + slot + 1 - 1).toNat =
        index * (agentPlan file).iNoPktsPerMMap.toNat + slot := by
      obtain ⟨perMap, natural⟩ := Int.eq_ofNat_of_zero_le
        (show 0 ≤ (agentPlan file).iNoPktsPerMMap by omega)
      rw [natural, Int.toNat_natCast]
      have cast : ((index : Int) * (perMap : Int)) = ((index * perMap : Nat) : Int) := by
        push_cast; rfl
      rw [cast]
      omega
    rw [List.getElem_map, List.getElem_map, List.getElem_range, cell, content mappable, place]
    rfl

theorem fullWindows_content (mappable : file.length ≤ maxMappedSize)
    (windows : List (List StRecvData))
    (acked : ∀ index window, windows[index]? = some window → AckedWindow file index window)
    (full : ∀ index < windows.length,
      slotsOf (agentPlan file) (index + 1) = (agentPlan file).iNoPktsPerMMap) :
    (windows.map windowContent).flatten =
      ((List.range (windows.length * (agentPlan file).iNoPktsPerMMap.toNat)).map
        (packet file)).flatten := by
  induction windows using List.reverseRecOn with
  | nil => simp
  | append_singleton front last ih =>
    have before := ih
      (fun index window member => acked index window (by
        obtain ⟨bound, _⟩ := List.getElem?_eq_some_iff.mp member
        rw [List.getElem?_append_left bound]
        exact member))
      (fun index bound => full index (by simp; omega))
    have here := ackedWindow_content mappable (acked front.length last (by simp))
    rw [full front.length (by simp)] at here
    rw [List.map_append, List.flatten_append, before, List.map_singleton,
      List.flatten_singleton, here, List.length_append, List.length_singleton, Nat.add_mul,
      Nat.one_mul, List.range_add, List.map_append, List.flatten_append, List.map_map]
    rfl

theorem allWindows_content (mappable : file.length ≤ maxMappedSize)
    {windows : List (List StRecvData)}
    (acked : ∀ index window, windows[index]? = some window → AckedWindow file index window)
    (reached : (agentPlan file).iTotNoMaps ≤ windows.length)
    (bounded : (windows.length : Int) ≤ max (agentPlan file).iTotNoMaps 1) :
    (windows.map windowContent).flatten = file := by
  have small : file.length ≤ maxPlannedSize := by
    simp only [maxMappedSize, maxPlannedSize] at *
    omega
  have maps := agentPlan_maps file small
  rcases List.eq_nil_or_concat windows with rfl | ⟨front, last, rfl⟩
  · have empty : file = [] := by
      rw [← List.length_eq_zero_iff]
      simp only [List.length_nil] at reached
      omega
    simp [empty]
  · rw [List.concat_eq_append] at *
    simp only [List.length_append, List.length_singleton, Nat.cast_add, Nat.cast_one]
      at reached bounded
    have extra := agentPlan_extra file
    have full : ∀ index < front.length,
        slotsOf (agentPlan file) (index + 1) = (agentPlan file).iNoPktsPerMMap := by
      intro index below
      simp only [slotsOf]
      rw [if_neg]
      rintro ⟨final, _⟩
      omega
    have before := fullWindows_content mappable front
      (fun index window member => acked index window (by
        obtain ⟨bound, _⟩ := List.getElem?_eq_some_iff.mp member
        rw [List.getElem?_append_left bound]
        exact member)) full
    have here := ackedWindow_content mappable (acked front.length last (by simp))
    have slots := agentPlan_slots file ((front.length : Int) + 1)
    have total := agentPlan_exact file mappable ((front.length : Int) + 1) (by omega)
    have planned := agentPlan_total file mappable
    rw [List.map_append, List.flatten_append, before, List.map_singleton,
      List.flatten_singleton, here]
    have joined : ∀ base count : Nat,
        ((List.range base).map (packet file)).flatten ++
          ((List.range count).map fun slot => packet file (base + slot)).flatten =
        ((List.range (base + count)).map (packet file)).flatten := by
      intro base count
      rw [List.range_add, List.map_append, List.flatten_append, List.map_map]
      rfl
    rw [joined]
    apply packets_file
    obtain ⟨perMap, natural⟩ := Int.eq_ofNat_of_zero_le
      (show 0 ≤ (agentPlan file).iNoPktsPerMMap by omega)
    rw [natural] at total ⊢
    rw [Int.toNat_natCast]
    have cast :
        ((front.length : Int) * (perMap : Int)) = ((front.length * perMap : Nat) : Int) := by
      push_cast; rfl
    rw [add_sub_cancel_right, cast] at total
    omega

end Content

section Invariant

variable {file : List UInt8} {s t : Session}

theorem transferInv_init (file : List UInt8) (small : file.length ≤ maxPlannedSize) :
    TransferInv file (agentStart file) := by
  refine ⟨senderInv_init file small, receiverInv_init file small, ?_, ?_⟩
  · intro message member
    simp [agentStart, Session.init] at member
  · intro message member
    simp [agentStart, Session.init] at member

/-- Every step that fills an empty slot, or no slot, keeps the invariant. -/
theorem transferInv_step (small : file.length ≤ maxPlannedSize) {event : SessionEvent}
    (inv : TransferInv file s) (fills : FillsEmptySlot file s event)
    (executed : agentStep file s event = some t) : TransferInv file t := by
  cases agentStep_moves executed with
  | sendWindow fault sender packets stepped =>
    obtain ⟨senderOk, packetsOk⟩ := senderInv_sendWindow small inv.sender stepped
    refine ⟨senderOk, inv.receiver, ?_, inv.acks⟩
    intro message member
    rcases List.mem_append.mp member with old | new
    · exact inv.data message old
    · exact packetsOk message new
  | recvAck message mapped sender member stepped =>
    exact ⟨senderInv_recvAck inv.sender (inv.acks message member) stepped, inv.receiver,
      inv.data, fun other inside => inv.acks other (List.mem_of_mem_erase inside)⟩
  | ackTimeout sender stepped =>
    exact { inv with sender := senderInv_ackTimeout inv.sender stepped }
  | ackError error sender stepped =>
    exact { inv with sender := senderInv_ackError inv.sender stepped }
  | recvDataPkt message receiver member stepped =>
    obtain ⟨receiverOk, same⟩ :=
      receiverInv_recvDataPkt inv.receiver (inv.data message member) fills stepped
    refine ⟨?_, receiverOk, fun other inside => inv.data other (List.mem_of_mem_erase inside), ?_⟩
    · simp only [same]
      exact inv.sender
    · simp only [same]
      exact inv.acks
  | dataTimeout receiver acks stepped =>
    obtain ⟨receiverOk, same, negative⟩ := receiverInv_dataTimeout inv.receiver stepped
    refine ⟨?_, receiverOk, inv.data, ?_⟩
    · simp only [same]
      exact inv.sender
    · intro message member kind
      simp only [same]
      rcases List.mem_append.mp member with old | new
      · exact inv.acks message old kind
      · rw [negative message new] at kind
        cases kind
  | windowDone sent receiver acks stepped =>
    obtain ⟨receiverOk, grown, numbered⟩ := receiverInv_windowDone inv.receiver stepped
    refine ⟨inv.sender.mono grown, receiverOk, inv.data, ?_⟩
    intro message member kind
    rcases List.mem_append.mp member with old | new
    · have before := inv.acks message old kind
      simp only
      omega
    · exact numbered message new
  | writeWindow receiver stepped =>
    obtain ⟨receiverOk, same⟩ := receiverInv_writeWindow small inv.receiver stepped
    refine ⟨?_, receiverOk, inv.data, ?_⟩
    · simp only [same]
      exact inv.sender
    · simp only [same]
      exact inv.acks
  | dataError error receiver stepped =>
    obtain ⟨receiverOk, same⟩ := receiverInv_dataError inv.receiver stepped
    refine ⟨?_, receiverOk, inv.data, ?_⟩
    · simp only [same]
      exact inv.sender
    · simp only [same]
      exact inv.acks
  | loseData message _ =>
    exact { inv with data := fun other inside => inv.data other (List.mem_of_mem_erase inside) }
  | loseAck message _ =>
    exact { inv with acks := fun other inside => inv.acks other (List.mem_of_mem_erase inside) }
  | duplicateData message member =>
    refine { inv with data := ?_ }
    intro other inside
    rcases List.mem_cons.mp inside with rfl | old
    · exact inv.data other member
    · exact inv.data other old
  | duplicateAck message member =>
    refine { inv with acks := ?_ }
    intro other inside
    rcases List.mem_cons.mp inside with rfl | old
    · exact inv.acks other member
    · exact inv.acks other old

theorem transferInv_run (small : file.length ≤ maxPlannedSize) {events : List SessionEvent}
    (allowed : Along (agentStep file) (FillsEmptySlot file) (agentStart file) events)
    (executed : run (agentStep file) (agentStart file) events = some s) : TransferInv file s :=
  run_invariant (fun _ _ _ inv fills stepped => transferInv_step small inv fills stepped)
    (transferInv_init file small) allowed executed

end Invariant

/-- What a transfer owes its file in the given state. The windows are those
acknowledged with DATA_ACK so far, with their slots at that moment. -/
structure SafeDelivery (file : List UInt8) (s : Session) : Prop where
  complete : s.sender.pc = .returned .nascSuccess →
    s.receiver.written ++ pendingWrite s.receiver = file
  noEmptySlot : ∀ window ∈ s.receiver.ackedWindows, none ∉ window
  allSlots : ∀ (index : Nat) (window : List StRecvData),
    s.receiver.ackedWindows[index]? = some window →
      (window.length : Int) = slotsOf (agentPlan file) (index + 1)
  onceInOrder : s.receiver.written ++ pendingWrite s.receiver =
    (s.receiver.ackedWindows.map windowContent).flatten

theorem TransferInv.safeDelivery {file : List UInt8} {s : Session}
    (small : file.length ≤ maxPlannedSize) (inv : TransferInv file s) : SafeDelivery file s := by
  refine ⟨?_, ?_, ?_, inv.receiver.bytes⟩
  · intro success
    have maps := agentPlan_maps file small
    have finished := inv.sender.finished success
    have bounded := inv.sender.bounded
    have acked := inv.sender.acked
    have mappable : file.length ≤ maxMappedSize := by
      simp only [maxMappedSize]
      omega
    rw [inv.receiver.bytes]
    exact allWindows_content mappable inv.receiver.acked (by omega)
      (inv.receiver.bounded mappable)
  · intro window member empty
    obtain ⟨index, bound, value⟩ := List.mem_iff_getElem.mp member
    have acked := inv.receiver.acked index window (List.getElem?_eq_some_iff.mpr ⟨bound, value⟩)
    obtain ⟨slot, inside, cell⟩ := List.mem_iff_getElem.mp empty
    obtain ⟨bytes, held, _⟩ :=
      acked.filled slot none (List.getElem?_eq_some_iff.mpr ⟨inside, cell⟩)
    cases held
  · intro index window member
    have slots := agentPlan_slots file (index + 1)
    rw [(inv.receiver.acked index window member).length]
    omega

/-- A transfer in which the receiver counts no packet twice delivers the file. -/
theorem transfer_delivers (file : List UInt8) (small : file.length ≤ maxPlannedSize)
    (events : List SessionEvent) (s : Session)
    (allowed : Along (agentStep file) (FillsEmptySlot file) (agentStart file) events)
    (executed : run (agentStep file) (agentStart file) events = some s) : SafeDelivery file s :=
  (transferInv_run small allowed executed).safeDelivery small

def zeros (count : Nat) : List UInt8 := List.replicate count 0

def firstPacket : StMsg := ⟨⟨.data, 1, 1, 1⟩, 512, zeros 512⟩

def secondPacket : StMsg := ⟨⟨.data, 2, 1, 1⟩, 1, zeros 1⟩

/-- The first of two packets is lost, and the window is sent again; its packets arrive in the
other order. -/
def lossyTransfer : List SessionEvent :=
  [.sendWindow .none, .loseData firstPacket, .ackTimeout, .sendWindow .none,
    .recvDataPkt secondPacket, .recvDataPkt firstPacket, .windowDone true,
    .recvAck (sendDataAck [] 0 ⟨1, 1⟩ .dataAck) true, .writeWindow]

theorem transfer_delivers_lossy :
    ∃ s, run (agentStep (zeros 513)) (agentStart (zeros 513)) lossyTransfer = some s ∧
      s.sender.pc = .returned .nascSuccess ∧ SafeDelivery (zeros 513) s := by
  obtain ⟨s, executed, success⟩ :
      ∃ s, run (agentStep (zeros 513)) (agentStart (zeros 513)) lossyTransfer = some s ∧
        s.sender.pc = .returned .nascSuccess := run_of_any (by decide +kernel)
  exact ⟨s, executed, success, transfer_delivers (zeros 513) (by decide +kernel) lossyTransfer s
    (by decide +kernel) executed⟩

/-- The sender runs into its timeout and sends the window of two packets again;
the first packet arrives twice, the second one not at all. -/
def retransmittedTransfer : List SessionEvent :=
  [.sendWindow .none, .ackTimeout, .sendWindow .none, .recvDataPkt firstPacket,
    .recvDataPkt firstPacket, .windowDone true,
    .recvAck (sendDataAck [] 0 ⟨1, 1⟩ .dataAck) true, .writeWindow]

/-- Both sides report success and the second packet of the file is not written. -/
theorem transfer_countsTwice :
    ¬ ∀ (file : List UInt8) (events : List SessionEvent) (s : Session),
      run (agentStep file) (agentStart file) events = some s → SafeDelivery file s := by
  intro always
  obtain ⟨s, executed, success, idle, short⟩ :
      ∃ s, run (agentStep (zeros 513)) (agentStart (zeros 513)) retransmittedTransfer = some s ∧
        s.sender.pc = .returned .nascSuccess ∧ pendingWrite s.receiver = [] ∧
        s.receiver.written.length = 512 := run_of_any (by decide +kernel)
  have whole := (always (zeros 513) retransmittedTransfer s executed).complete success
  rw [idle, List.append_nil] at whole
  rw [whole, zeros, List.length_replicate] at short
  omega

end EveAgent.FileTrans
