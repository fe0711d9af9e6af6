import EveAgent.FileTrans.Session

namespace EveAgent.FileTrans

/-- The packets of the window with the given map number. -/
def slotsOf (plan : StCntrlData) (iMmapNo : Int) : Int :=
  if iMmapNo = plan.iTotNoMaps ∧ plan.iNoExtraMapPackets ≠ 0 then plan.iNoExtraMapPackets
  else plan.iNoPktsPerMMap

/-- The length the sending loop gives packet `iPktNo`. -/
def dataLen (iMsgSize iLast iTot iPktNo : Int) : Int :=
  if iPktNo = iTot ∧ iLast ≠ 0 then iLast else iMsgSize

/-- The content of packet `index`, counted from 0. -/
def packet (file : List UInt8) (index : Nat) : List UInt8 :=
  (file.drop (512 * index)).take 512

/-- From this size on, the number of mappings no longer fits the type `I32`. -/
def maxPlannedSize : Nat := (2 ^ 31 - 1) * 4096

/-- Up to this size every page offset fits the type `I32`. -/
def maxMappedSize : Nat := 2 ^ 31

section AgentPlan

variable (file : List UInt8)

@[simp] theorem agentPlan_mesgSize : (agentPlan file).iMesgSizePerPkt = 512 := rfl

theorem agentPlan_maps (small : file.length ≤ maxPlannedSize) :
    (agentPlan file).iTotNoMaps = ((file.length : Int) + 4095) / 4096 := by
  simp only [maxPlannedSize] at small
  simp only [agentPlan, sendFilePlan, agentPageSize, i32]
  split_ifs <;> omega

theorem agentPlan_perMap :
    (agentPlan file).iNoPktsPerMMap =
      if (file.length : Int) ≤ 4096 then ((file.length : Int) + 511) / 512 else 8 := by
  simp only [agentPlan, sendFilePlan, agentPageSize, defMsgSize, i32]
  split_ifs <;> omega

theorem agentPlan_extra :
    (agentPlan file).iNoExtraMapPackets =
      if (file.length : Int) ≤ 4096 then 0 else ((file.length : Int) % 4096 + 511) / 512 := by
  simp only [agentPlan, sendFilePlan, agentPageSize, defMsgSize, i32]
  split_ifs <;> omega

theorem agentPlan_lastSize :
    (agentPlan file).iMesgSizeForLastPkt = (file.length : Int) % 512 := by
  simp only [agentPlan, sendFilePlan, agentPageSize, defMsgSize, i32]
  omega

theorem agentPlan_total (mappable : file.length ≤ maxMappedSize) :
    (agentPlan file).iTotNoPkts = ((file.length : Int) + 511) / 512 := by
  simp only [maxMappedSize] at mappable
  simp only [agentPlan, sendFilePlan, defMsgSize, i32]
  split_ifs <;> omega

theorem agentPlan_slots (iMmapNo : Int) :
    0 ≤ slotsOf (agentPlan file) iMmapNo ∧
      slotsOf (agentPlan file) iMmapNo ≤ (agentPlan file).iNoPktsPerMMap ∧
      (agentPlan file).iNoPktsPerMMap ≤ 8 := by
  simp only [slotsOf, agentPlan_perMap, agentPlan_extra]
  split_ifs <;> omega

theorem agentPlan_firstSlots (small : file.length ≤ maxPlannedSize) :
    slotsOf (agentPlan file) 1 = (agentPlan file).iNoPktsPerMMap := by
  have maps := agentPlan_maps file small
  have extra := agentPlan_extra file
  simp only [slotsOf]
  split
  · rename_i single
    rw [extra] at single
    split at single <;> omega
  · rfl

theorem agentPlan_exact (mappable : file.length ≤ maxMappedSize) (iMmapNo : Int)
    (last : iMmapNo = max (agentPlan file).iTotNoMaps 1) :
    (agentPlan file).iTotNoPkts =
      (iMmapNo - 1) * (agentPlan file).iNoPktsPerMMap + slotsOf (agentPlan file) iMmapNo := by
  have small : file.length ≤ maxPlannedSize := by
    simp only [maxMappedSize, maxPlannedSize] at *
    omega
  have maps := agentPlan_maps file small
  simp only [slotsOf, agentPlan_total file mappable, agentPlan_extra, agentPlan_perMap]
  by_cases onePage : (file.length : Int) ≤ 4096
  · have first : iMmapNo = 1 := by omega
    simp only [onePage, if_true, ne_eq, not_true, and_false, if_false, first]
    omega
  · have final : iMmapNo = (agentPlan file).iTotNoMaps := by omega
    simp only [onePage, if_false, final, true_and, maps]
    split <;> omega

theorem agentPlan_inside (small : file.length ≤ maxPlannedSize) {window index : Nat}
    (more : (window : Int) < (agentPlan file).iTotNoMaps)
    (inside : (index : Int) < slotsOf (agentPlan file) (window + 1)) :
    (window : Int) * (agentPlan file).iNoPktsPerMMap = 8 * (window : Int) ∧ index < 8 ∧
      512 * (8 * window + index) < file.length := by
  rw [agentPlan_maps file small] at more
  have extra := agentPlan_extra file
  have perMap := agentPlan_perMap file
  by_cases onePage : (file.length : Int) ≤ 4096
  · rw [if_pos onePage] at extra perMap
    have first : window = 0 := by omega
    simp only [slotsOf, extra, ne_eq, not_true, and_false, if_false, perMap] at inside
    subst first
    exact ⟨by simp, by omega, by omega⟩
  · rw [if_neg onePage] at extra perMap
    simp only [slotsOf, extra, perMap, agentPlan_maps file small] at inside
    rw [perMap]
    by_cases final : (window : Int) + 1 = ((file.length : Int) + 4095) / 4096 ∧
        ((file.length : Int) % 4096 + 511) / 512 ≠ 0
    · rw [if_pos final] at inside
      exact ⟨by omega, by omega, by omega⟩
    · rw [if_neg final] at inside
      exact ⟨by omega, by omega, by omega⟩

theorem agentPlan_dataLen (mappable : file.length ≤ maxMappedSize) {number : Nat}
    (inside : 512 * number < file.length) :
    dataLen 512 (agentPlan file).iMesgSizeForLastPkt (agentPlan file).iTotNoPkts
        ((number : Int) + 1) =
      if 512 * number + 512 ≤ file.length then 512 else (file.length : Int) - 512 * number := by
  have total := agentPlan_total file mappable
  have last := agentPlan_lastSize file
  simp only [dataLen]
  by_cases full : 512 * number + 512 ≤ file.length
  · rw [if_pos full, if_neg]
    rintro ⟨final, short⟩
    omega
  · rw [if_neg full, if_pos ⟨by omega, by omega⟩]
    omega

end AgentPlan

section Packets

variable {file : List UInt8}

theorem pieces_concat (file : List UInt8) (size count : Nat) :
    ((List.range count).map fun index => (file.drop (size * index)).take size).flatten =
      file.take (size * count) := by
  induction count with
  | zero => simp
  | succ count ih =>
    rw [List.range_succ, List.map_append, List.flatten_append, ih, List.map_singleton,
      List.flatten_singleton, Nat.mul_succ, ← List.take_add]

theorem packets_concat (file : List UInt8) (count : Nat) :
    ((List.range count).map (packet file)).flatten = file.take (512 * count) :=
  pieces_concat file 512 count

theorem packets_file {count : Nat} (covered : file.length ≤ 512 * count) :
    ((List.range count).map (packet file)).flatten = file := by
  rw [packets_concat, List.take_of_length_le covered]

theorem page_packet {window index : Nat} {page : List UInt8} (inside : index < 8)
    (mapped : mmapPage file agentPageSize (4096 * window : Nat) = some page) (length : Nat)
    (short : length = 512 ∧ 512 * (8 * window + index) + 512 ≤ file.length ∨
      512 * (8 * window + index) + length = file.length ∧ length ≤ 512) :
    (page.drop (512 * index)).take length = packet file (8 * window + index) := by
  have nonneg : ¬ ((4096 * window : Nat) : Int) < 0 := by omega
  simp only [mmapPage, nonneg, if_false, Option.some.injEq] at mapped
  have size : agentPageSize.toNat = 4096 := rfl
  rw [size, Int.toNat_natCast] at mapped
  have start : 4096 * window + 512 * index = 512 * (8 * window + index) := by omega
  have bytes : ((file.drop (4096 * window)).take 4096).drop (512 * index) =
      (file.drop (512 * (8 * window + index))).take (4096 - 512 * index) := by
    rw [List.drop_take, List.drop_drop, start]
  have fits : length ≤ (((file.drop (4096 * window)).take 4096).drop (512 * index)).length := by
    rw [bytes, List.length_take, List.length_drop]
    omega
  have within : 512 * index ≤ ((file.drop (4096 * window)).take 4096).length := by
    rw [List.length_take, List.length_drop]
    omega
  subst mapped
  rw [List.drop_append_of_le_length within, List.take_append_of_le_length fits, bytes,
    List.take_take, packet]
  rcases short with ⟨rfl, _⟩ | ⟨ends, bound⟩
  · congr 1
    omega
  · have remaining : (file.drop (512 * (8 * window + index))).length = length := by
      rw [List.length_drop]
      omega
    rw [List.take_of_length_le (by omega), List.take_of_length_le (by omega)]

end Packets

section SendLoop

variable {page status : List UInt8} {sequence : StSequence} {iMsgSize iLast iTot : Int}

theorem sendActualDataLoop_mem (remaining : Nat) (iPktNo lastNo offset copied : Int)
    (positive : 1 ≤ iPktNo) {message : StMsg}
    (member : message ∈ sendActualDataLoop page status sequence iMsgSize iLast iTot
      remaining iPktNo lastNo offset copied) :
    ∃ index : Nat, index < remaining ∧
      message.stHeader =
        ⟨.data, lastNo + index + 1, sequence.iMmapNo, sequence.iCorrelater⟩ ∧
      status[(iPktNo - 1 + index).toNat]? = some pktMissing ∧
      message.iDataLen = dataLen iMsgSize iLast iTot (lastNo + index + 1) ∧
      ((∀ before < index, dataLen iMsgSize iLast iTot (lastNo + before + 1) = iMsgSize) →
        message.cData = (page.drop (offset + copied + iMsgSize * index).toNat).take
          message.iDataLen.toNat) := by
  induction remaining generalizing iPktNo lastNo offset copied with
  | zero => simp [sendActualDataLoop] at member
  | succ remaining ih =>
    have later : ∀ sent, message ∈ sendActualDataLoop page status sequence iMsgSize iLast iTot
          remaining (iPktNo + 1) (lastNo + 1) (offset + copied) sent →
        sent = dataLen iMsgSize iLast iTot (lastNo + 1) →
        ∃ index : Nat, index < remaining + 1 ∧
          message.stHeader =
            ⟨.data, lastNo + index + 1, sequence.iMmapNo, sequence.iCorrelater⟩ ∧
          status[(iPktNo - 1 + index).toNat]? = some pktMissing ∧
          message.iDataLen = dataLen iMsgSize iLast iTot (lastNo + index + 1) ∧
          ((∀ before < index, dataLen iMsgSize iLast iTot (lastNo + before + 1) = iMsgSize) →
            message.cData = (page.drop (offset + copied + iMsgSize * index).toNat).take
              message.iDataLen.toNat) := by
      intro sent inside length
      obtain ⟨index, bound, header, missing, len, bytes⟩ :=
        ih (iPktNo + 1) (lastNo + 1) (offset + copied) sent (by omega) inside
      have shifted : lastNo + 1 + (index : Int) = lastNo + ((index + 1 : Nat) : Int) := by
        push_cast
        omega
      have place : iPktNo + 1 - 1 + (index : Int) = iPktNo - 1 + ((index + 1 : Nat) : Int) := by
        push_cast
        omega
      rw [shifted] at header len
      rw [place] at missing
      refine ⟨index + 1, by omega, header, missing, len, ?_⟩
      intro full
      have first := full 0 (by omega)
      simp only [Nat.cast_zero, add_zero] at first
      rw [bytes, length, first]
      · congr 3
        push_cast
        ring
      · intro before below
        have next := full (before + 1) (by omega)
        push_cast at next
        rw [show lastNo + 1 + (before : Int) + 1 = lastNo + ((before : Int) + 1) + 1 by ring]
        exact next
    simp only [sendActualDataLoop] at member
    split at member
    · rename_i missing
      rcases List.mem_cons.mp member with rfl | inside
      · refine ⟨0, by omega, by simp, by simpa using missing, ?_, ?_⟩
        · simp only [dataLen, Nat.cast_zero, add_zero]
        · intro _
          simp
      · exact later _ inside rfl
    · exact later _ member rfl

theorem sendActualDataLoop_complete (remaining : Nat) (iPktNo lastNo offset copied : Int)
    (positive : 1 ≤ iPktNo) {index : Nat} (bound : index < remaining)
    (missing : status[(iPktNo - 1 + index).toNat]? = some pktMissing) :
    ∃ message ∈ sendActualDataLoop page status sequence iMsgSize iLast iTot
        remaining iPktNo lastNo offset copied,
      message.stHeader =
        ⟨.data, lastNo + index + 1, sequence.iMmapNo, sequence.iCorrelater⟩ := by
  induction remaining generalizing iPktNo lastNo offset copied index with
  | zero => omega
  | succ remaining ih =>
    simp only [sendActualDataLoop]
    cases index with
    | zero =>
      have here : status[(iPktNo - 1).toNat]? = some pktMissing := by simpa using missing
      rw [if_pos here]
      exact ⟨_, List.mem_cons_self, by simp⟩
    | succ index =>
      have place : iPktNo - 1 + ((index + 1 : Nat) : Int) = iPktNo + 1 - 1 + (index : Int) := by
        push_cast
        omega
      rw [place] at missing
      obtain ⟨message, member, header⟩ :=
        ih (iPktNo + 1) (lastNo + 1) (offset + copied) _ (by omega) (by omega) missing
      have shifted :
          lastNo + 1 + (index : Int) + 1 = lastNo + ((index + 1 : Nat) : Int) + 1 := by
        push_cast
        omega
      rw [shifted] at header
      refine ⟨message, ?_, header⟩
      split
      · exact List.mem_cons_of_mem _ member
      · exact member

end SendLoop

end EveAgent.FileTrans
