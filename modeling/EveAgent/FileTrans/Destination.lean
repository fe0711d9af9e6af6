import EveAgent.FileTrans.LossFree
import EveAgent.OpenFile

namespace EveAgent.FileTrans

open Machine

/-- The receiver with its destination. `delivered` is a history of the bytes of the data packets
that were accepted; no code reads it. -/
structure HandleState where
  recv : RecvState
  file : OpenFile
  delivered : List UInt8
  deriving DecidableEq, Repr

inductive HandleEvent where
  | recvDataPkt (message : StMsg)
  | dataTimeout
  | windowDone (sent : Bool)
  | writeWindow
  | dataError (error : ENASCenterError)
  deriving DecidableEq, Repr

/-- The loop `while ( iLoopCntr < iNoOfPktsPerMap )` around `write`. -/
def writeSlots (file : OpenFile) (pstICoreAreaForData : List StRecvData) (iNoOfPktsPerMap : Int) :
    OpenFile :=
  ((pstICoreAreaForData.take iNoOfPktsPerMap.toNat).map fun slot => slot.getD []).foldl
    OpenFile.write file

section HandleDataPkt

variable (plan : StCntrlData)

/-- The file has been opened with `O_RDWR | O_CREAT`. -/
def HandleState.init (old : List UInt8) : HandleState :=
  ⟨.init plan, openKept old, []⟩

def HandleState.step (h : HandleState) : HandleEvent → Option HandleState
  | .recvDataPkt message =>
    (h.recv.recvDataPkt plan message).map fun recv =>
      { h with
        recv := recv
        delivered := if h.recv.Accepts message
          then h.delivered ++ message.cData.take message.iDataLen.toNat
          else h.delivered }
  | .dataTimeout => h.recv.dataTimeout.map fun (recv, _) => { h with recv := recv }
  | .windowDone sent => (h.recv.windowDone sent).map fun (recv, _) => { h with recv := recv }
  | .writeWindow =>
    (h.recv.writeWindow plan).map fun recv =>
      { h with
        recv := recv
        file := writeSlots h.file h.recv.pstICoreAreaForData h.recv.iNoOfPktsPerMap }
  | .dataError error => (h.recv.dataError error).map fun recv => { h with recv := recv }

/-- Packets come in order and none is lost: a data packet that is accepted is the next one, of a
window that the sender has, and nothing times out. -/
def InOrder (h : HandleState) : HandleEvent → Prop
  | .recvDataPkt message => h.recv.Accepts message →
      message.stHeader.iPktNo = h.recv.iToNoOfPktsRecvd + 1 ∧
        message.stHeader.iMmapNo ≤ plan.iTotNoMaps
  | .dataTimeout => False
  | _ => True

instance (h : HandleState) (event : HandleEvent) : Decidable (InOrder plan h event) :=
  match event with
  | .recvDataPkt _ => inferInstanceAs (Decidable (_ → _))
  | .dataTimeout => isFalse id
  | .windowDone _ | .writeWindow | .dataError _ => isTrue trivial

end HandleDataPkt

section Slots

variable {cells : List StRecvData} {slot : Int} {bytes : List UInt8}

theorem windowBytes_zero (cells : List StRecvData) : windowBytes cells 0 = [] := rfl

theorem windowBytes_storeAt (first : 0 ≤ slot) (inside : slot < cells.length) :
    windowBytes (storeAt cells slot (some bytes)) (slot + 1) =
      windowBytes cells slot ++ bytes := by
  obtain ⟨index, rfl⟩ := Int.eq_ofNat_of_zero_le first
  have below : index < (cells.set index (some bytes)).length := by
    rw [List.length_set]
    omega
  have next : ((index : Int) + 1).toNat = index + 1 := by omega
  have stored : (cells.set index (some bytes))[index] = some bytes :=
    List.getElem_set_self below
  rw [windowBytes, windowBytes, storeAt, if_neg (by omega), next, Int.toNat_natCast,
    List.take_succ_eq_append_getElem below, stored, List.take_set_of_le (le_refl _),
    List.map_append, List.flatten_append]
  simp

theorem storeAt_length {α : Type*} (cells : List α) (index : Int) (value : α) :
    (storeAt cells index value).length = cells.length := by
  rw [storeAt]
  split
  · rfl
  · rw [List.length_set]

theorem writeSlots_eq (file : OpenFile) (cells : List StRecvData) (count : Int) :
    writeSlots file cells count = file.write (windowBytes cells count) := by
  rw [writeSlots, write_all, windowBytes]

end Slots

section Invariant

variable {plan : StCntrlData} {old : List UInt8} {h t : HandleState}

/-- What the plan of a file says about the windows. -/
structure PlanBounds (plan : StCntrlData) : Prop where
  perMap : 0 ≤ plan.iNoPktsPerMMap
  extra : 0 ≤ plan.iNoExtraMapPackets
  extra_le : plan.iNoExtraMapPackets ≤ plan.iNoPktsPerMMap

theorem planBounds_of_sizes {stSize iPageSize iMsgSize : Int} (nonneg : 0 ≤ stSize)
    (page_pos : 0 < iPageSize) (small : iPageSize < 2 ^ 31) (message : 1 ≤ iMsgSize) :
    PlanBounds (sendFilePlan stSize iPageSize iMsgSize) := by
  obtain ⟨size, rfl⟩ := Int.eq_ofNat_of_zero_le nonneg
  obtain ⟨page, rfl⟩ := Int.eq_ofNat_of_zero_le page_pos.le
  obtain ⟨part, rfl⟩ := Int.eq_ofNat_of_zero_le (show 0 ≤ iMsgSize by omega)
  have positive : 0 < part := by omega
  have page_pos : 0 < page := by omega
  have small : page < 2 ^ 31 := by omega
  have perMap := @plan_perMap size page part positive small
  have extra := @plan_extra size page part positive page_pos small
  have rest := Nat.mod_lt size page_pos
  constructor
  · rw [perMap]
    omega
  · rw [extra]
    split
    · exact le_refl _
    · omega
  · rw [extra, perMap]
    split
    · omega
    · rename_i several
      have bound : parts (size % page) part ≤ parts (min size page) part := by
        rw [parts_le_iff positive, Nat.min_eq_right (by omega)]
        exact rest.le.trans (parts_covers positive page)
      omega

/-- The packets of a run in order fill the slots one after the other. Behind the windows of the
plan the receiver waits for packets that do not come. -/
structure Delivering (plan : StCntrlData) (old : List UInt8) (h : HandleState) : Prop where
  file : h.file = (openKept old).write h.recv.written
  cells : h.recv.pstICoreAreaForData.length = plan.iNoPktsPerMMap.toNat
  slots : 0 ≤ h.recv.iNoOfPktsPerMap ∧ h.recv.iNoOfPktsPerMap ≤ plan.iNoPktsPerMMap
  lastMap : h.recv.iNoOfPktsPerMap = plan.iNoPktsPerMMap ∨
    plan.iTotNoMaps ≤ h.recv.stSequencing.iMmapNo
  receiving : h.recv.pc = .recvDataPkt → 0 ≤ h.recv.iLoopCntr ∧
    h.delivered = h.recv.written ++ windowBytes h.recv.pstICoreAreaForData h.recv.iLoopCntr ∧
    ((plan.iTotNoMaps < h.recv.stSequencing.iMmapNo ∧ h.recv.iLoopCntr = 0 ∧
        0 < h.recv.iNoOfPktsExpected) ∨
      (h.recv.iNoOfPktsExpected = h.recv.iNoOfPktsPerMap ∧
        h.recv.iLoopCntr ≤ h.recv.iNoOfPktsExpected ∧
        h.recv.iToNoOfPktsRecvd =
          (h.recv.stSequencing.iMmapNo - 1) * plan.iNoPktsPerMMap + h.recv.iLoopCntr))
  writing : h.recv.pc = .writeWindow →
    h.delivered =
      h.recv.written ++ windowBytes h.recv.pstICoreAreaForData h.recv.iNoOfPktsPerMap ∧
    h.recv.iToNoOfPktsRecvd =
      (h.recv.stSequencing.iMmapNo - 1) * plan.iNoPktsPerMMap + h.recv.iNoOfPktsPerMap
  finished : h.recv.pc = .returned .nascSuccess → h.delivered = h.recv.written

theorem delivering_init (bounds : PlanBounds plan) (old : List UInt8) :
    Delivering plan old (.init plan old) := by
  have perMap := bounds.perMap
  constructor
  · exact (write_nil _).symm
  · simp [HandleState.init, RecvState.init]
  · exact ⟨perMap, le_refl _⟩
  · exact .inl rfl
  · intro _
    refine ⟨le_refl _, rfl, .inr ⟨rfl, perMap, ?_⟩⟩
    simp [HandleState.init, RecvState.init]
  · intro writing
    cases writing
  · intro finished
    cases finished

theorem Delivering.failed (inv : Delivering plan old h) {recv : RecvState}
    {error : ENASCenterError} (failure : error ≠ .nascSuccess)
    (result : recv = { h.recv with pc := .returned error }) :
    Delivering plan old { h with recv := recv } := by
  subst result
  constructor
  · exact inv.file
  · exact inv.cells
  · exact inv.slots
  · exact inv.lastMap
  · intro receiving
    cases receiving
  · intro writing
    cases writing
  · intro finished
    simp only [RecvPc.returned.injEq] at finished
    exact absurd finished failure

theorem Delivering.recvDataPkt (inv : Delivering plan old h) {message : StMsg}
    (inOrder : InOrder plan h (.recvDataPkt message))
    (executed : h.step plan (.recvDataPkt message) = some t) : Delivering plan old t := by
  simp only [HandleState.step, Option.map_eq_some_iff] at executed
  obtain ⟨recv, received, rfl⟩ := executed
  obtain ⟨receiving, waiting, result⟩ := RecvState.recvDataPkt_cases received
  rcases result with ⟨refused, rfl⟩ | ⟨accepted, rfl⟩
  · rw [if_neg refused]
    exact inv
  · obtain ⟨number, inPlan⟩ := inOrder accepted
    have sequence : message.stHeader.iMmapNo = h.recv.stSequencing.iMmapNo := by
      have same := congrArg StSequence.iMmapNo accepted.2
      exact same
    obtain ⟨started, bytes, window⟩ := inv.receiving receiving
    have normal : h.recv.iNoOfPktsExpected = h.recv.iNoOfPktsPerMap ∧
        h.recv.iLoopCntr ≤ h.recv.iNoOfPktsExpected ∧ h.recv.iToNoOfPktsRecvd =
          (h.recv.stSequencing.iMmapNo - 1) * plan.iNoPktsPerMMap + h.recv.iLoopCntr := by
      rcases window with ⟨beyond, _⟩ | normal
      · omega
      · exact normal
    obtain ⟨expected, _, total⟩ := normal
    have slot : h.recv.iArraySubScript plan message = h.recv.iLoopCntr := by
      rw [RecvState.iArraySubScript, number]
      omega
    have cells := inv.cells
    have slots := inv.slots
    rw [if_pos accepted, slot]
    constructor
    · exact inv.file
    · rw [storeAt_length]
      exact cells
    · exact slots
    · exact inv.lastMap
    · intro _
      dsimp only
      refine ⟨by omega, ?_, .inr ⟨expected, by omega, by omega⟩⟩
      rw [windowBytes_storeAt started (by omega), bytes, List.append_assoc]
    · intro writing
      rw [receiving] at writing
      cases writing
    · intro finished
      rw [receiving] at finished
      cases finished

theorem Delivering.windowDone (inv : Delivering plan old h) {sent : Bool}
    (executed : h.step plan (.windowDone sent) = some t) : Delivering plan old t := by
  simp only [HandleState.step, Option.map_eq_some_iff] at executed
  obtain ⟨⟨recv, acks⟩, done, rfl⟩ := executed
  obtain ⟨receiving, full, result⟩ := RecvState.windowDone_cases done
  rcases result with ⟨_, _, failed⟩ | ⟨_, _, rfl⟩
  · exact inv.failed (by decide) failed
  · obtain ⟨_, bytes, window⟩ := inv.receiving receiving
    have complete : h.recv.iLoopCntr = h.recv.iNoOfPktsPerMap ∧ h.recv.iToNoOfPktsRecvd =
        (h.recv.stSequencing.iMmapNo - 1) * plan.iNoPktsPerMMap + h.recv.iLoopCntr := by
      rcases window with ⟨_, none, some⟩ | ⟨expected, bound, total⟩
      · omega
      · exact ⟨by omega, total⟩
    obtain ⟨count, total⟩ := complete
    rw [count] at bytes total
    constructor
    · exact inv.file
    · exact inv.cells
    · exact inv.slots
    · exact inv.lastMap
    · intro again
      cases again
    · intro _
      exact ⟨bytes, total⟩
    · intro finished
      cases finished

theorem writeWindow_last {r recv : RecvState} (executed : r.writeWindow plan = some recv)
    (complete : r.iToNoOfPktsRecvd = plan.iTotNoPkts) :
    recv.iNoOfPktsPerMap = r.iNoOfPktsPerMap := by
  rw [RecvState.writeWindow] at executed
  split at executed
  · cases executed
  · dsimp only at executed
    rw [if_pos complete, Option.some.injEq] at executed
    rw [← executed]

theorem Delivering.writeWindow (bounds : PlanBounds plan) (inv : Delivering plan old h)
    (executed : h.step plan .writeWindow = some t) : Delivering plan old t := by
  simp only [HandleState.step, Option.map_eq_some_iff] at executed
  obtain ⟨recv, wrote, rfl⟩ := executed
  obtain ⟨writing, written, cleared, _, _, _, received, _, result⟩ :=
    RecvState.writeWindow_cases wrote
  obtain ⟨bytes, total⟩ := inv.writing writing
  have perMap := bounds.perMap
  have slots := inv.slots
  have file : writeSlots h.file h.recv.pstICoreAreaForData h.recv.iNoOfPktsPerMap =
      (openKept old).write recv.written := by
    rw [writeSlots_eq, inv.file, write_write, written]
  have cells : recv.pstICoreAreaForData.length = plan.iNoPktsPerMMap.toNat := by
    rw [cleared, List.length_replicate]
  have delivered : h.delivered = recv.written := by
    rw [bytes, written]
  rcases result with ⟨complete, ended, sequence⟩ | ⟨_, again, sequence, none, window⟩
  · have perMap_same := writeWindow_last wrote complete
    constructor
    · exact file
    · exact cells
    · dsimp only
      rw [perMap_same]
      exact slots
    · dsimp only
      rw [perMap_same, sequence]
      exact inv.lastMap
    · intro receiving
      rw [ended] at receiving
      cases receiving
    · intro writing
      rw [ended] at writing
      cases writing
    · intro _
      exact delivered
  · have nothing : h.delivered = recv.written ++ windowBytes recv.pstICoreAreaForData 0 := by
      rw [windowBytes_zero, List.append_nil, delivered]
    have next : recv.stSequencing.iMmapNo = h.recv.stSequencing.iMmapNo + 1 := by
      rw [sequence]
    have lastMap := inv.lastMap
    have product : (h.recv.stSequencing.iMmapNo + 1 - 1) * plan.iNoPktsPerMMap =
        (h.recv.stSequencing.iMmapNo - 1) * plan.iNoPktsPerMMap + plan.iNoPktsPerMMap := by
      ring
    have started : recv.pc = .recvDataPkt → 0 ≤ recv.iLoopCntr ∧
        h.delivered = recv.written ++ windowBytes recv.pstICoreAreaForData recv.iLoopCntr := by
      intro _
      rw [none]
      exact ⟨le_refl _, nothing⟩
    have extra := bounds.extra
    have extra_le := bounds.extra_le
    rcases window with ⟨last, _, expected, size⟩ | ⟨_, expected, size⟩
    · have full : h.recv.iNoOfPktsPerMap = plan.iNoPktsPerMMap := by
        rcases lastMap with full | reached
        · exact full
        · omega
      constructor
      · exact file
      · exact cells
      · dsimp only
        omega
      · dsimp only
        omega
      · intro receiving
        obtain ⟨nonneg, content⟩ := started receiving
        dsimp only
        refine ⟨nonneg, content, .inr ⟨by omega, by omega, ?_⟩⟩
        rw [next, product, none, received, total, full]
        omega
      · intro writing
        rw [again] at writing
        cases writing
      · intro finished
        rw [again] at finished
        cases finished
    · constructor
      · exact file
      · exact cells
      · dsimp only
        omega
      · dsimp only
        omega
      · intro receiving
        obtain ⟨nonneg, content⟩ := started receiving
        refine ⟨nonneg, content, ?_⟩
        dsimp only
        by_cases full : h.recv.iNoOfPktsPerMap = plan.iNoPktsPerMMap
        · refine .inr ⟨by omega, by omega, ?_⟩
          rw [next, product, none, received, total, full]
          omega
        · exact .inl ⟨by omega, none, by omega⟩
      · intro writing
        rw [again] at writing
        cases writing
      · intro finished
        rw [again] at finished
        cases finished

theorem delivering_step (bounds : PlanBounds plan) {event : HandleEvent}
    (inv : Delivering plan old h) (inOrder : InOrder plan h event)
    (executed : h.step plan event = some t) : Delivering plan old t := by
  cases event with
  | recvDataPkt message => exact inv.recvDataPkt inOrder executed
  | dataTimeout => exact inOrder.elim
  | windowDone sent => exact inv.windowDone executed
  | writeWindow => exact inv.writeWindow bounds executed
  | dataError error =>
    simp only [HandleState.step, Option.map_eq_some_iff] at executed
    obtain ⟨recv, failed, rfl⟩ := executed
    obtain ⟨_, failure, result⟩ := RecvState.dataError_cases failed
    exact inv.failed failure result

theorem delivering_run (bounds : PlanBounds plan) {events : List HandleEvent}
    (inOrder : Along (HandleState.step plan) (InOrder plan) (.init plan old) events)
    (executed : run (HandleState.step plan) (.init plan old) events = some h) :
    Delivering plan old h :=
  run_invariant (fun _ _ _ inv next stepped => delivering_step bounds inv next stepped)
    (delivering_init bounds old) inOrder executed

end Invariant

/-- A transfer in order that ends with success leaves the transmitted bytes in the destination
exactly if the file was not longer before. -/
theorem destination_replaced_iff (old : List UInt8) (stSize iPageSize iMsgSize : Int)
    (size : 0 ≤ stSize) (page_pos : 0 < iPageSize) (page_fits : iPageSize < 2 ^ 31)
    (accepted : 1 ≤ clampMsgSize iMsgSize) (events : List HandleEvent) (h : HandleState)
    (inOrder : Along (HandleState.step (sendFilePlan stSize iPageSize (clampMsgSize iMsgSize)))
      (InOrder (sendFilePlan stSize iPageSize (clampMsgSize iMsgSize)))
      (.init (sendFilePlan stSize iPageSize (clampMsgSize iMsgSize)) old) events)
    (executed : run (HandleState.step (sendFilePlan stSize iPageSize (clampMsgSize iMsgSize)))
      (.init (sendFilePlan stSize iPageSize (clampMsgSize iMsgSize)) old) events = some h)
    (success : h.recv.pc = .returned .nascSuccess) :
    h.file.content = h.delivered ↔ old.length ≤ h.delivered.length := by
  have bounds := planBounds_of_sizes size page_pos page_fits accepted
  have inv := delivering_run bounds inOrder executed
  rw [inv.finished success, inv.file, openKept_write]
  exact overlay_eq_iff

/-- One packet of one byte over a file of one byte. -/
def onePacket : List HandleEvent :=
  [.recvDataPkt ⟨⟨.data, 1, 1, 1⟩, 1, [7]⟩, .windowDone true, .writeWindow]

theorem destination_replaced_one :
    ∃ h, run (HandleState.step (sendFilePlan 1 4096 (clampMsgSize 512)))
        (.init (sendFilePlan 1 4096 (clampMsgSize 512)) [9]) onePacket = some h ∧
      (h.file.content = h.delivered ↔ [9].length ≤ h.delivered.length) := by
  obtain ⟨h, executed, success⟩ :
      ∃ h, run (HandleState.step (sendFilePlan 1 4096 (clampMsgSize 512)))
          (.init (sendFilePlan 1 4096 (clampMsgSize 512)) [9]) onePacket = some h ∧
        h.recv.pc = .returned .nascSuccess := run_of_any (by decide)
  exact ⟨h, executed, destination_replaced_iff [9] 1 4096 512 (by decide) (by decide) (by norm_num)
    (by decide) onePacket h (by decide) executed success⟩

/-- The second byte of the file before stays behind the one byte that is sent. -/
theorem destination_keeps_rest :
    ¬ ∀ (old : List UInt8) (events : List HandleEvent) (h : HandleState),
      Along (HandleState.step (sendFilePlan 1 4096 512)) (InOrder (sendFilePlan 1 4096 512))
        (.init (sendFilePlan 1 4096 512) old) events →
      run (HandleState.step (sendFilePlan 1 4096 512)) (.init (sendFilePlan 1 4096 512) old)
        events = some h →
      h.recv.pc = .returned .nascSuccess → h.file.content = h.delivered := by
  intro replaced
  obtain ⟨h, executed, success, differs⟩ :
      ∃ h, run (HandleState.step (sendFilePlan 1 4096 512))
          (.init (sendFilePlan 1 4096 512) [9, 9]) onePacket = some h ∧
        h.recv.pc = .returned .nascSuccess ∧ h.file.content ≠ h.delivered :=
    run_of_any (by decide)
  exact differs (replaced [9, 9] onePacket h (by decide) executed success)

end EveAgent.FileTrans
