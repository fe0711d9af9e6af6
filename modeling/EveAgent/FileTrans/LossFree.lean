import EveAgent.FileTrans.Plan

namespace EveAgent.FileTrans

section Windows

def maxDataSize : Int := 1100

/-- The message size that `FileTrans_SendFile` works with. -/
def clampMsgSize (iMsgSize : Int) : Int :=
  let iMsgSize := if iMsgSize = 0 then defMsgSize else iMsgSize
  if iMsgSize > maxDataSize then maxDataSize else iMsgSize

/-- Where and how much a pass over a whole window reads of the page: the pointer moves on by the
length of the packet before. -/
def pageReads (iMsgSize iLast iTot : Int) : Nat → Int → Int → Int → List (Int × Int)
  | 0, _, _, _ => []
  | remaining + 1, iLastPktNo, offset, iLenOfDataCopied =>
    let length := dataLen iMsgSize iLast iTot (iLastPktNo + 1)
    (offset + iLenOfDataCopied, length) ::
      pageReads iMsgSize iLast iTot remaining (iLastPktNo + 1) (offset + iLenOfDataCopied) length

structure SentWindow where
  iPageOffset : Int
  reads : List (Int × Int)
  packets : List StMsg
  deriving DecidableEq, Repr

variable (file : List UInt8) (iPageSize : Int) (plan : StCntrlData)

/-- The windows that are sent when every window arrives whole and is acknowledged. -/
def sentWindows : Nat → SendState → List SentWindow
  | 0, _ => []
  | fuel + 1, s =>
    match s.sendWindow file iPageSize plan .none with
    | none => []
    | some (waiting, packets) =>
      match waiting.recvAck file iPageSize plan
          (sendDataAck [] 0 waiting.stSendSequence .dataAck) true with
      | none => []
      | some next =>
        ⟨s.iPageOffset, pageReads plan.iMesgSizePerPkt plan.iMesgSizeForLastPkt plan.iTotNoPkts
            s.iNoPktsPerMMap.toNat s.iLastPktNo 0 0,
          packets⟩ :: sentWindows fuel next

/-- The plan of a file, and its windows: `iTotNoMaps` passes are the most there can be. -/
def filePlan (iMsgSize : Int) : StCntrlData := sendFilePlan file.length iPageSize iMsgSize

def fileWindows (iMsgSize : Int) : List SentWindow :=
  sentWindows file iPageSize (filePlan file iPageSize iMsgSize)
    (filePlan file iPageSize iMsgSize).iTotNoMaps.toNat
    (SendState.init (filePlan file iPageSize iMsgSize))

def filePackets (iMsgSize : Int) : List StMsg :=
  (fileWindows file iPageSize iMsgSize).flatMap SentWindow.packets

end Windows

section Plan

/-- How many parts of the size `part` it takes to cover `size`. -/
def parts (size part : Nat) : Nat := (size + part - 1) / part

theorem parts_covers {part : Nat} (positive : 0 < part) (size : Nat) :
    size ≤ part * parts size part := by
  have division := Nat.div_add_mod (size + part - 1) part
  have rest := Nat.mod_lt (size + part - 1) positive
  rw [parts]
  omega

theorem parts_short {part : Nat} (positive : 0 < part) (size : Nat) :
    part * parts size part < size + part := by
  have division := Nat.div_add_mod (size + part - 1) part
  rw [parts]
  omega

theorem parts_le_iff {size part count : Nat} (positive : 0 < part) :
    parts size part ≤ count ↔ size ≤ part * count := by
  constructor
  · intro bound
    exact (parts_covers positive size).trans (Nat.mul_le_mul_left part bound)
  · intro covers
    by_contra more
    have next : count + 1 ≤ parts size part := by omega
    have large : part * (count + 1) ≤ part * parts size part := Nat.mul_le_mul_left part next
    have short := parts_short positive size
    rw [Nat.mul_succ] at large
    omega

theorem parts_add {part : Nat} (positive : 0 < part) (whole rest : Nat) :
    parts (part * whole + rest) part = whole + parts rest part := by
  rw [parts, parts, show part * whole + rest + part - 1 = part * whole + (rest + part - 1) by omega,
    Nat.mul_add_div positive]

theorem parts_eq {part : Nat} (positive : 0 < part) (size : Nat) :
    (parts size part : Int) =
      if (size : Int) % part ≠ 0 then (size : Int) / part + 1 else (size : Int) / part := by
  have nat : parts size part = if size % part ≠ 0 then size / part + 1 else size / part := by
    have division := Nat.div_add_mod size part
    have rest := Nat.mod_lt size positive
    apply le_antisymm
    · rw [parts_le_iff positive]
      split
      · rw [Nat.mul_succ]
        omega
      · omega
    · have covers := parts_covers positive size
      split
      · rename_i partial'
        by_contra fewer
        have bound : parts size part ≤ size / part := by omega
        have small : part * parts size part ≤ part * (size / part) := Nat.mul_le_mul_left part bound
        omega
      · by_contra fewer
        have bound : parts size part + 1 ≤ size / part := by omega
        have small : part * (parts size part + 1) ≤ part * (size / part) :=
          Nat.mul_le_mul_left part bound
        rw [Nat.mul_succ] at small
        omega
  rw [nat]
  split <;> rename_i remainder
  · rw [if_pos (by omega)]
    push_cast
    rfl
  · rw [if_neg (by omega)]
    push_cast
    rfl

variable {size page part : Nat}

theorem i32_step (value : Int) : i32 (i32 value + 1) = i32 (value + 1) := by
  simp only [i32]
  omega

theorem plan_total (size page : Nat) (positive : 0 < part) :
    (sendFilePlan size page part).iTotNoPkts = i32 (parts size part) := by
  rw [parts_eq positive]
  simp only [sendFilePlan]
  split
  · rw [i32_step]
  · rfl

theorem plan_maps (positive : 0 < page) :
    (sendFilePlan size page part).iTotNoMaps = i32 (parts size page) := by
  rw [parts_eq positive]
  simp only [sendFilePlan]
  split
  · rw [i32_step]
  · rfl

theorem plan_perMap (positive : 0 < part) (small : page < 2 ^ 31) :
    (sendFilePlan size page part).iNoPktsPerMMap = parts (min size page) part := by
  have total := plan_total size page positive
  simp only [sendFilePlan] at total ⊢
  by_cases onePage : size ≤ page
  · have bound : parts size part ≤ size := by
      rw [parts_le_iff positive]
      exact Nat.le_mul_of_pos_left size positive
    rw [if_pos (by omega), total, Nat.min_eq_left onePage]
    apply i32_of_range <;> omega
  · rw [if_neg (by omega), Nat.min_eq_right (by omega), parts_eq positive]

theorem plan_extra (positive : 0 < part) (page_pos : 0 < page) (small : page < 2 ^ 31) :
    (sendFilePlan size page part).iNoExtraMapPackets =
      if size ≤ page then 0 else parts (size % page) part := by
  have rest := Nat.mod_lt size page_pos
  have same : i32 ((size : Int) % page) = (size % page : Nat) := by
    rw [i32_of_range] <;> omega
  simp only [sendFilePlan]
  by_cases onePage : size ≤ page
  · rw [if_pos (by omega), if_pos onePage]
    rfl
  · rw [if_neg (by omega), if_neg onePage, same, parts_eq positive]

theorem plan_last (page_pos : 0 < page) (small : page < 2 ^ 31) :
    (sendFilePlan size page part).iMesgSizeForLastPkt = (size % page % part : Nat) := by
  have rest := Nat.mod_lt size page_pos
  have same : i32 ((size : Int) % page) = (size % page : Nat) := by
    rw [i32_of_range] <;> omega
  simp only [sendFilePlan, same]
  push_cast
  rfl

end Plan

section Passes

variable {page status : List UInt8} {sequence : StSequence} {iMsgSize iLast iTot : Int}

theorem sendActualDataLoop_whole (remaining : Nat) (iPktNo lastNo offset copied : Int)
    (positive : 1 ≤ iPktNo)
    (missing : ∀ index < remaining, status[(iPktNo - 1 + index).toNat]? = some pktMissing) :
    (sendActualDataLoop page status sequence iMsgSize iLast iTot remaining iPktNo lastNo offset
        copied).map (fun packet => packet.stHeader.iPktNo) =
      (List.range remaining).map (fun index : Nat => lastNo + index + 1) ∧
    (sendActualDataLoop page status sequence iMsgSize iLast iTot remaining iPktNo lastNo offset
        copied).map StMsg.cData =
      (pageReads iMsgSize iLast iTot remaining lastNo offset copied).map fun read =>
        (page.drop read.1.toNat).take read.2.toNat := by
  induction remaining generalizing iPktNo lastNo offset copied with
  | zero => exact ⟨rfl, rfl⟩
  | succ remaining ih =>
    have here : status[(iPktNo - 1).toNat]? = some pktMissing := by
      have first := missing 0 (by omega)
      simpa using first
    have later : ∀ index < remaining,
        status[(iPktNo + 1 - 1 + index).toNat]? = some pktMissing := by
      intro index below
      have next := missing (index + 1) (by omega)
      rw [show iPktNo - 1 + ((index + 1 : Nat) : Int) = iPktNo + 1 - 1 + index by
        push_cast
        ring] at next
      exact next
    obtain ⟨numbers, bytes⟩ := ih (iPktNo + 1) (lastNo + 1) (offset + copied)
      (dataLen iMsgSize iLast iTot (lastNo + 1)) (by omega) later
    simp only [dataLen] at numbers bytes
    constructor
    · rw [sendActualDataLoop, if_pos here, List.map_cons, numbers, List.range_succ_eq_map,
        List.map_cons, List.map_map]
      congr 1
      · simp
      · apply List.map_congr_left
        intro index _
        simp only [Function.comp_apply, Nat.succ_eq_add_one]
        push_cast
        ring
    · rw [sendActualDataLoop, if_pos here, List.map_cons, bytes, pageReads, List.map_cons]
      rfl

theorem pageReads_even (iMsgSize iLast iTot : Int) (remaining : Nat) (lastNo offset copied : Int)
    (full : ∀ index, index + 1 < remaining →
      dataLen iMsgSize iLast iTot (lastNo + index + 1) = iMsgSize) :
    pageReads iMsgSize iLast iTot remaining lastNo offset copied =
      (List.range remaining).map fun index : Nat =>
        (offset + copied + iMsgSize * index, dataLen iMsgSize iLast iTot (lastNo + index + 1)) := by
  induction remaining generalizing lastNo offset copied with
  | zero => rfl
  | succ remaining ih =>
    cases remaining with
    | zero => simp [pageReads]
    | succ remaining =>
      have first : dataLen iMsgSize iLast iTot (lastNo + 1) = iMsgSize := by
        have here := full 0 (by omega)
        simpa using here
      have rest := ih (lastNo + 1) (offset + copied) iMsgSize (by
        intro index below
        have next := full (index + 1) (by omega)
        rw [show lastNo + ((index + 1 : Nat) : Int) + 1 = lastNo + 1 + index + 1 by
          push_cast
          ring] at next
        exact next)
      rw [pageReads, first, rest, List.range_succ_eq_map (n := remaining + 1), List.map_cons,
        List.map_map]
      congr 1
      · simp [first]
      · apply List.map_congr_left
        intro index _
        simp only [Function.comp_apply, Nat.succ_eq_add_one]
        congr 1
        · push_cast
          ring
        · congr 1
          push_cast
          ring

end Passes

section Runs

variable (file : List UInt8) (iPageSize : Int) (plan : StCntrlData)

/-- The packets of window `window`, counted from 0. -/
def windowSlots (window : Nat) : Int :=
  if window ≠ 0 ∧ (window : Int) + 1 = plan.iTotNoMaps ∧ plan.iNoExtraMapPackets ≠ 0 then
    plan.iNoExtraMapPackets
  else plan.iNoPktsPerMMap

/-- The state in which window `window` is sent, and the one in which it has been. -/
def atWindow (pc : SendPc) (window : Nat) : SendState where
  eReturnValue := .nascSuccess
  iNoOfRetries := 0
  iMmapCntr := window
  iLastPktNo := window * plan.iNoPktsPerMMap
  iNoPktsPerMMap := windowSlots plan window
  iPageOffset := i32 (window * iPageSize)
  piPktStatus := List.replicate (plan.iNoPktsPerMMap + 1).toNat pktMissing
  stSendSequence := ⟨window + 1, 1⟩
  pc := pc

def wholeWindow (window : Nat) : SentWindow :=
  let page := (mmapPage file iPageSize (i32 (window * iPageSize))).getD []
  let first := (window : Int) * plan.iNoPktsPerMMap
  ⟨i32 (window * iPageSize), pageReads plan.iMesgSizePerPkt plan.iMesgSizeForLastPkt plan.iTotNoPkts
      (windowSlots plan window).toNat first 0 0,
    sendActualDataLoop page (List.replicate (plan.iNoPktsPerMMap + 1).toNat pktMissing)
      ⟨window + 1, 1⟩ plan.iMesgSizePerPkt plan.iMesgSizeForLastPkt plan.iTotNoPkts
      (windowSlots plan window).toNat 1 first 0 0⟩

theorem wholeWindow_offset (window : Nat) :
    (wholeWindow file iPageSize plan window).iPageOffset = i32 (window * iPageSize) := rfl

theorem atWindow_zero : SendState.init plan = atWindow iPageSize plan .sendWindow 0 := by
  simp [SendState.init, atWindow, windowSlots, i32]

variable {file iPageSize plan}

theorem atWindow_sends {window : Nat} (more : (window : Int) < plan.iTotNoMaps)
    (mapped : 0 ≤ i32 (window * iPageSize)) :
    (atWindow iPageSize plan .sendWindow window).sendWindow file iPageSize plan .none =
      some (atWindow iPageSize plan .recvAck window,
        (wholeWindow file iPageSize plan window).packets) := by
  have some_page : ∃ page, mmapPage file iPageSize (i32 (window * iPageSize)) = some page := by
    rw [mmapPage, if_neg (by omega)]
    exact ⟨_, rfl⟩
  obtain ⟨page, mapsTo⟩ := some_page
  have entered : ¬¬(atWindow iPageSize plan .sendWindow window).iMmapCntr < plan.iTotNoMaps :=
    not_not.mpr more
  have retries : ¬(atWindow iPageSize plan .sendWindow window).iNoOfRetries > maxNoOfRetries := by
    change ¬(0 : Int) > 5
    omega
  have here : mmapPage file iPageSize (atWindow iPageSize plan .sendWindow window).iPageOffset =
      some page := mapsTo
  rw [SendState.sendWindow, if_neg (by simp [atWindow]), if_neg entered, if_neg retries, here]
  simp only [sendActualData, wholeWindow, mapsTo, Option.getD_some]
  rfl

theorem clearStatus_replicate {count size : Int} (within : count ≤ size) :
    clearStatus (List.replicate size.toNat pktMissing) count =
      List.replicate size.toNat pktMissing := by
  rw [clearStatus, List.drop_replicate, ← List.replicate_add]
  congr 1
  omega

theorem windowSlots_inner {window : Nat} (more : (window : Int) + 1 < plan.iTotNoMaps) :
    windowSlots plan window = plan.iNoPktsPerMMap := by
  rw [windowSlots, if_neg]
  rintro ⟨_, last, _⟩
  omega

theorem atWindow_recvAck (window : Nat) :
    (atWindow iPageSize plan .recvAck window).recvAck file iPageSize plan
        (sendDataAck [] 0 (atWindow iPageSize plan .recvAck window).stSendSequence .dataAck) true =
      some ((atWindow iPageSize plan .recvAck window).dataAck file iPageSize plan true) := by
  rw [SendState.recvAck, if_neg (by simp [atWindow])]
  simp [sendDataAck, StMsg.sequence, atWindow, memcpyBytes]

theorem atWindow_dataAck (file : List UInt8) (iPageSize : Int) (plan : StCntrlData)
    (window : Nat) :
    ((window : Int) + 1 < plan.iTotNoMaps → 0 ≤ i32 ((window + 1 : Nat) * iPageSize) →
      (atWindow iPageSize plan .recvAck window).dataAck file iPageSize plan true =
        atWindow iPageSize plan .sendWindow (window + 1)) ∧
    (i32 ((window + 1 : Nat) * iPageSize) < 0 →
      ((atWindow iPageSize plan .recvAck window).dataAck file iPageSize plan true).pc ≠
        .sendWindow) := by
  have next : ((window + 1 : Nat) : Int) * iPageSize =
      ((atWindow iPageSize plan .recvAck window).iMmapCntr + 1) * iPageSize := by
    simp [atWindow]
  have counter : (atWindow iPageSize plan .recvAck window).iMmapCntr = window := rfl
  obtain ⟨_, cases⟩ := SendState.dataAck_cases file iPageSize plan
    (atWindow iPageSize plan .recvAck window) true
  rw [next]
  rcases cases with ⟨last, ended, _⟩ | ⟨_, unmapped, failed, _⟩ | ⟨_, mapped, result⟩
  · constructor
    · intro more
      rw [counter] at last
      omega
    · intro _
      rw [ended]
      simp
  · rcases unmapped with negative | failure
    · constructor
      · intro _ nonneg
        omega
      · intro _
        rw [failed]
        simp
    · cases failure
  · constructor
    · intro more _
      rw [result]
      have inner := windowSlots_inner more
      have status : clearStatus (atWindow iPageSize plan .recvAck window).piPktStatus
          ((atWindow iPageSize plan .recvAck window).iNoPktsPerMMap + 1) =
          List.replicate (plan.iNoPktsPerMMap + 1).toNat pktMissing := by
        change clearStatus _ (windowSlots plan window + 1) = _
        rw [inner]
        exact clearStatus_replicate (le_refl _)
      have after : windowSlots plan (window + 1) =
          if (window : Int) + 1 + 1 = plan.iTotNoMaps ∧ plan.iNoExtraMapPackets ≠ 0 then
            plan.iNoExtraMapPackets
          else plan.iNoPktsPerMMap := by
        simp [windowSlots]
      rw [status]
      simp only [atWindow, inner, after, SendState.mk.injEq, true_and, and_true]
      push_cast
      refine ⟨rfl, ?_, rfl, rfl⟩
      ring
    · intro negative
      omega

theorem sentWindows_ended {s : SendState} (ended : s.pc ≠ .sendWindow) (fuel : Nat) :
    sentWindows file iPageSize plan fuel s = [] := by
  cases fuel with
  | zero => rfl
  | succ fuel => rw [sentWindows, SendState.sendWindow, if_pos ended]

theorem sentWindows_from (file : List UInt8) (fuel : Nat) (window : Nat)
    (rest : (window : Int) + fuel = plan.iTotNoMaps) (mapped : 0 ≤ i32 (window * iPageSize)) :
    ∃ count ≤ fuel,
      sentWindows file iPageSize plan fuel (atWindow iPageSize plan .sendWindow window) =
        (List.range count).map (fun index => wholeWindow file iPageSize plan (window + index)) ∧
      (∀ index < count, 0 ≤ i32 ((window + index : Nat) * iPageSize)) ∧
      (count = fuel ∨ i32 ((window + count : Nat) * iPageSize) < 0) := by
  induction fuel generalizing window with
  | zero => exact ⟨0, le_refl _, rfl, by simp, .inl rfl⟩
  | succ fuel ih =>
    have more : (window : Int) < plan.iTotNoMaps := by omega
    have first : sentWindows file iPageSize plan (fuel + 1)
        (atWindow iPageSize plan .sendWindow window) =
        wholeWindow file iPageSize plan window ::
          sentWindows file iPageSize plan fuel
            ((atWindow iPageSize plan .recvAck window).dataAck file iPageSize plan true) := by
      rw [sentWindows, atWindow_sends more mapped]
      dsimp only
      rw [atWindow_recvAck]
      rfl
    rw [first]
    obtain ⟨goesOn, ends⟩ := atWindow_dataAck file iPageSize plan window
    by_cases next : 0 ≤ i32 ((window + 1 : Nat) * iPageSize)
    · cases fuel with
      | zero =>
        refine ⟨1, le_refl _, rfl, ?_, .inl rfl⟩
        intro index below
        rw [show index = 0 by omega]
        exact mapped
      | succ fuel =>
        obtain ⟨count, within, windows, pages, stops⟩ :=
          ih (window + 1) (by push_cast; omega) next
        refine ⟨count + 1, by omega, ?_, ?_, ?_⟩
        · rw [goesOn (by omega) next, windows, List.range_succ_eq_map, List.map_cons,
            List.map_map]
          congr 1
          apply List.map_congr_left
          intro index _
          simp only [Function.comp_apply]
          congr 1
          omega
        · intro index below
          cases index with
          | zero => exact mapped
          | succ index =>
            have page := pages index (by omega)
            rw [show window + 1 + index = window + (index + 1) by omega] at page
            exact page
        · rcases stops with all | negative
          · exact .inl (by omega)
          · right
            rw [show window + 1 + count = window + (count + 1) by omega] at negative
            exact negative
    · refine ⟨1, by omega, ?_, ?_, .inr ?_⟩
      · rw [sentWindows_ended (ends (by omega))]
        rfl
      · intro index below
        rw [show index = 0 by omega]
        exact mapped
      · omega

end Runs

section Numbers

variable {file : List UInt8} {iPageSize : Int} {plan : StCntrlData}

/-- The packets of the first windows, of which only the last one may be short. -/
def packetsUpTo (plan : StCntrlData) : Nat → Nat
  | 0 => 0
  | window + 1 => window * plan.iNoPktsPerMMap.toNat + (windowSlots plan window).toNat

theorem wholeWindow_passes {file : List UInt8} {iPageSize : Int} {plan : StCntrlData}
    {window : Nat}
    (slots : windowSlots plan window ≤ plan.iNoPktsPerMMap) :
    (wholeWindow file iPageSize plan window).packets.map (fun packet => packet.stHeader.iPktNo) =
      (List.range (windowSlots plan window).toNat).map
        (fun index : Nat => (window : Int) * plan.iNoPktsPerMMap + index + 1) ∧
    (wholeWindow file iPageSize plan window).packets.map StMsg.cData =
      (wholeWindow file iPageSize plan window).reads.map fun read =>
        (((mmapPage file iPageSize (i32 (window * iPageSize))).getD []).drop read.1.toNat).take
          read.2.toNat := by
  apply sendActualDataLoop_whole _ _ _ _ _ (le_refl _)
  intro index below
  rw [List.getElem?_replicate, if_pos (by omega)]

theorem packets_upTo {β : Type} (observe : StMsg → β) (expected : Nat → β) (count : Nat)
    (windowSends : ∀ window < count, (wholeWindow file iPageSize plan window).packets.map observe =
        (List.range (windowSlots plan window).toNat).map
          fun index => expected (window * plan.iNoPktsPerMMap.toNat + index))
    (within : (count : Int) ≤ plan.iTotNoMaps) :
    (((List.range count).map (wholeWindow file iPageSize plan)).flatMap SentWindow.packets).map
        observe = (List.range (packetsUpTo plan count)).map expected := by
  induction count with
  | zero => rfl
  | succ count ih =>
    have before : packetsUpTo plan count = count * plan.iNoPktsPerMMap.toNat := by
      cases count with
      | zero => simp [packetsUpTo]
      | succ count =>
        rw [packetsUpTo, windowSlots_inner (by push_cast at within; omega)]
        ring
    rw [List.range_succ, List.map_append, List.flatMap_append, List.map_append,
      ih (fun window below => windowSends window (by omega)) (by push_cast at within; omega),
      before, packetsUpTo, List.range_add, List.map_append, List.map_singleton,
      List.flatMap_singleton, windowSends count (by omega), List.map_map]
    rfl

theorem numbers_upTo (perMap : 0 ≤ plan.iNoPktsPerMMap)
    (slots : ∀ window, windowSlots plan window ≤ plan.iNoPktsPerMMap) (count : Nat)
    (within : (count : Int) ≤ plan.iTotNoMaps) :
    (((List.range count).map (wholeWindow file iPageSize plan)).flatMap SentWindow.packets).map
        (fun packet => packet.stHeader.iPktNo) =
      (List.range (packetsUpTo plan count)).map fun n : Nat => (n : Int) + 1 := by
  apply packets_upTo _ _ count _ within
  intro window _
  rw [(wholeWindow_passes (slots window)).1]
  apply List.map_congr_left
  intro index _
  push_cast
  rw [Int.toNat_of_nonneg perMap]

end Numbers

end EveAgent.FileTrans
