import EveAgent.FileTrans.LossFree

namespace EveAgent.FileTrans

section Packetised

variable (file : List UInt8) (iPageSize : Int)

/-- The packets read inside the page and the file, they make up the file, and they are numbered
from one to `iTotNoPkts`. -/
structure Packetised (iMsgSize : Int) : Prop where
  inside : ∀ window ∈ fileWindows file iPageSize iMsgSize, ∀ read ∈ window.reads,
    0 ≤ read.1 ∧ 0 ≤ read.2 ∧ read.1 + read.2 ≤ iPageSize ∧
      window.iPageOffset + read.1 + read.2 ≤ file.length
  whole : (filePackets file iPageSize iMsgSize).flatMap StMsg.cData = file
  numbered : (filePackets file iPageSize iMsgSize).map (fun packet => packet.stHeader.iPktNo) =
    (List.range (filePlan file iPageSize iMsgSize).iTotNoPkts.toNat).map
      fun n : Nat => (n : Int) + 1

/-- The message size divides the page size, unless the file is smaller than a page; the last page
can be mapped and the packets can be counted. -/
def Divides (iMsgSize : Int) : Prop :=
  (iPageSize % iMsgSize = 0 ∨ (file.length : Int) < iPageSize) ∧
    ((file.length : Int) - 1) / iPageSize * iPageSize < 2 ^ 31 ∧
    ((file.length : Int) + iMsgSize - 1) / iMsgSize < 2 ^ 31

end Packetised

section Files

variable {file : List UInt8} {page part : Nat}

theorem fileWindows_eq (file : List UInt8) (iPageSize iMsgSize : Int) :
    ∃ count ≤ (filePlan file iPageSize iMsgSize).iTotNoMaps.toNat,
      fileWindows file iPageSize iMsgSize =
        (List.range count).map
          (wholeWindow file iPageSize (filePlan file iPageSize iMsgSize)) ∧
      (∀ window < count, 0 ≤ i32 ((window : Int) * iPageSize)) ∧
      (count = (filePlan file iPageSize iMsgSize).iTotNoMaps.toNat ∨
        i32 ((count : Int) * iPageSize) < 0) := by
  by_cases none : (filePlan file iPageSize iMsgSize).iTotNoMaps ≤ 0
  · have zero : (filePlan file iPageSize iMsgSize).iTotNoMaps.toNat = 0 := by omega
    refine ⟨0, by omega, ?_, by simp, .inl zero.symm⟩
    rw [fileWindows, zero]
    rfl
  · obtain ⟨count, within, windows, pages, stops⟩ :=
      @sentWindows_from iPageSize (filePlan file iPageSize iMsgSize) file
        (filePlan file iPageSize iMsgSize).iTotNoMaps.toNat 0 (by omega) (by simp [i32])
    simp only [Nat.zero_add] at windows pages stops
    refine ⟨count, within, ?_, pages, stops⟩
    rw [fileWindows, atWindow_zero iPageSize, windows]

theorem filePlan_total (file : List UInt8) (positive : 0 < part) :
    (filePlan file page part).iTotNoPkts = i32 (parts file.length part) :=
  plan_total _ _ positive

theorem filePlan_maps (file : List UInt8) (part : Nat) (page_pos : 0 < page) :
    (filePlan file page part).iTotNoMaps = i32 (parts file.length page) := plan_maps page_pos

theorem filePlan_last (file : List UInt8) (part : Nat) (page_pos : 0 < page)
    (small : page < 2 ^ 31) :
    (filePlan file page part).iMesgSizeForLastPkt = (file.length % page % part : Nat) :=
  plan_last page_pos small

theorem filePlan_extra (file : List UInt8) (positive : 0 < part) (page_pos : 0 < page)
    (small : page < 2 ^ 31) :
    (filePlan file page part).iNoExtraMapPackets =
      if file.length ≤ page then 0 else parts (file.length % page) part :=
  plan_extra positive page_pos small

theorem filePlan_perMap (file : List UInt8) (positive : 0 < part) (small : page < 2 ^ 31) :
    (filePlan file page part).iNoPktsPerMMap = parts (min file.length page) part :=
  plan_perMap positive small

theorem filePlan_slots (file : List UInt8) (positive : 0 < part) (page_pos : 0 < page)
    (small : page < 2 ^ 31) (window : Nat) :
    0 ≤ windowSlots (filePlan file page part) window ∧
      windowSlots (filePlan file page part) window ≤
        (filePlan file page part).iNoPktsPerMMap := by
  have perMap := filePlan_perMap file positive small
  have extra := filePlan_extra file positive page_pos small
  have rest := Nat.mod_lt file.length page_pos
  rw [windowSlots, perMap]
  split
  · rw [extra]
    split
    · simp
    · rename_i more
      have bound : parts (file.length % page) part ≤ parts (min file.length page) part := by
        rw [parts_le_iff positive, Nat.min_eq_right (by omega)]
        exact rest.le.trans (parts_covers positive page)
      omega
  · omega

variable {count window : Nat}

theorem packetsUpTo_window {plan : StCntrlData}
    (slots : ∀ window, windowSlots plan window ≤ plan.iNoPktsPerMMap)
    (within : (count : Int) ≤ plan.iTotNoMaps) (below : window < count) :
    window * plan.iNoPktsPerMMap.toNat + (windowSlots plan window).toNat ≤
      packetsUpTo plan count := by
  obtain ⟨last, rfl⟩ : ∃ last, count = last + 1 := ⟨count - 1, by omega⟩
  rw [packetsUpTo]
  by_cases final : window = last
  · rw [final]
  · have bound := slots window
    have next : (window + 1) * plan.iNoPktsPerMMap.toNat ≤ last * plan.iNoPktsPerMMap.toNat :=
      Nat.mul_le_mul_right _ (by omega)
    rw [Nat.succ_mul] at next
    omega

theorem reads_of_total {plan : StCntrlData} {iPageSize : Int} (perMap : 0 ≤ plan.iNoPktsPerMMap)
    (slots : ∀ window, windowSlots plan window ≤ plan.iNoPktsPerMMap)
    (within : (count : Int) ≤ plan.iTotNoMaps)
    (total : packetsUpTo plan count = plan.iTotNoPkts.toNat) (below : window < count) :
    (wholeWindow file iPageSize plan window).reads =
      (List.range (windowSlots plan window).toNat).map fun index : Nat =>
        (plan.iMesgSizePerPkt * index,
          dataLen plan.iMesgSizePerPkt plan.iMesgSizeForLastPkt plan.iTotNoPkts
            ((window : Int) * plan.iNoPktsPerMMap + index + 1)) := by
  have ends := packetsUpTo_window slots within below
  have even := pageReads_even plan.iMesgSizePerPkt plan.iMesgSizeForLastPkt
    plan.iTotNoPkts (windowSlots plan window).toNat ((window : Int) * plan.iNoPktsPerMMap) 0 0 (by
      intro index more
      rw [dataLen, if_neg]
      rintro ⟨last, _⟩
      have position : (window : Int) * plan.iNoPktsPerMMap =
          (window * plan.iNoPktsPerMMap.toNat : Nat) := by
        push_cast
        rw [Int.toNat_of_nonneg perMap]
      rw [position] at last
      omega)
  simp only [zero_add] at even
  exact even

theorem dataLen_bounds (file : List UInt8) (positive : 0 < part) (page_pos : 0 < page)
    (small : page < 2 ^ 31) (number : Int) :
    0 ≤ dataLen part (filePlan file page part).iMesgSizeForLastPkt
        (filePlan file page part).iTotNoPkts number ∧
      dataLen part (filePlan file page part).iMesgSizeForLastPkt
        (filePlan file page part).iTotNoPkts number ≤ part := by
  have last := filePlan_last file part page_pos small
  have rest := Nat.mod_lt (file.length % page) positive
  rw [dataLen, last]
  split <;> omega

theorem flatMap_length_le {α β : Type*} (f : α → List β) (bound : Nat) (items : List α)
    (each : ∀ item ∈ items, (f item).length ≤ bound) :
    (items.flatMap f).length ≤ bound * items.length := by
  induction items with
  | nil => simp
  | cons item items ih =>
    have first := each item List.mem_cons_self
    have rest := ih fun later member => each later (List.mem_cons_of_mem _ member)
    rw [List.flatMap_cons, List.length_append, List.length_cons, Nat.mul_succ]
    omega

theorem window_bytes {plan : StCntrlData} {iPageSize : Int}
    (passes : (wholeWindow file iPageSize plan window).packets.map StMsg.cData =
      (wholeWindow file iPageSize plan window).reads.map fun read =>
        (((mmapPage file iPageSize (i32 (window * iPageSize))).getD []).drop read.1.toNat).take
          read.2.toNat)
    (reads : (wholeWindow file iPageSize plan window).reads =
      (List.range count).map fun index : Nat =>
        ((part : Int) * index, dataLen part plan.iMesgSizeForLastPkt plan.iTotNoPkts
            ((window : Int) * plan.iNoPktsPerMMap + index + 1)))
    (short : ∀ number, 0 ≤ dataLen part plan.iMesgSizeForLastPkt plan.iTotNoPkts number ∧
      dataLen part plan.iMesgSizeForLastPkt plan.iTotNoPkts number ≤ part)
    (inside : ∀ read ∈ (wholeWindow file iPageSize plan window).reads,
      read.1 + read.2 ≤ iPageSize) (page_pos : 0 ≤ iPageSize) :
    (((wholeWindow file iPageSize plan window).packets.flatMap StMsg.cData).length : Int) ≤
      iPageSize := by
  have bytes : (wholeWindow file iPageSize plan window).packets.flatMap StMsg.cData =
      ((List.range count).map fun index : Nat =>
        (((mmapPage file iPageSize (i32 (window * iPageSize))).getD []).drop
          ((part : Int) * index).toNat).take
            (dataLen part plan.iMesgSizeForLastPkt plan.iTotNoPkts
              ((window : Int) * plan.iNoPktsPerMMap + index + 1)).toNat).flatten := by
    rw [List.flatMap_def, passes, reads, List.map_map]
    rfl
  rw [bytes]
  cases count with
  | zero => simpa using page_pos
  | succ last =>
    have end' := inside ((part : Int) * last, dataLen part plan.iMesgSizeForLastPkt plan.iTotNoPkts
          ((window : Int) * plan.iNoPktsPerMMap + last + 1)) (by
      rw [reads]
      exact List.mem_map.mpr ⟨last, List.mem_range.mpr (Nat.lt_succ_self last), rfl⟩)
    have before := flatMap_length_le
      (fun index : Nat =>
        (((mmapPage file iPageSize (i32 (window * iPageSize))).getD []).drop
          ((part : Int) * index).toNat).take
            (dataLen part plan.iMesgSizeForLastPkt plan.iTotNoPkts
              ((window : Int) * plan.iNoPktsPerMMap + index + 1)).toNat) part
                (List.range last) (by
      intro index _
      have bound := (short ((window : Int) * plan.iNoPktsPerMMap + index + 1)).2
      rw [List.length_take]
      omega)
    have nonneg := (short ((window : Int) * plan.iNoPktsPerMMap + last + 1)).1
    rw [List.length_range] at before
    rw [List.range_succ, List.map_append, List.flatten_append, List.length_append,
      ← List.flatMap_def, List.map_singleton, List.flatten_singleton, List.length_take]
    push_cast
    dsimp only at end'
    have product : ((part * last : Nat) : Int) = (part : Int) * last := by push_cast; rfl
    omega

theorem i32_le {value : Int} (nonneg : 0 ≤ value) : i32 value ≤ value := by
  simp only [i32]
  omega

theorem pages_below {count : Nat} (small : page < 2 ^ 31)
    (pages : ∀ window < count, 0 ≤ i32 ((window : Int) * page)) :
    ∀ window < count, window * page < 2 ^ 31 := by
  intro window below
  induction window with
  | zero => omega
  | succ window ih =>
    have before := ih (by omega)
    have mapped := pages (window + 1) below
    rw [Nat.succ_mul]
    have product : ((window + 1 : Nat) : Int) * page = ((window * page + page : Nat) : Int) := by
      push_cast
      ring
    rw [product] at mapped
    simp only [i32] at mapped
    omega

theorem divides_of_last {messages : Nat} (covers : page ≤ part * messages)
    (inside : (part : Int) * messages ≤ page) :
    (page : Int) % part = 0 := by
  have product : ((part * messages : Nat) : Int) = (part : Int) * messages := by push_cast; rfl
  have same : part * messages = page := by omega
  rw [← same]
  push_cast
  exact Int.mul_emod_right _ _

theorem pageReads_length {iMsgSize iLast iTot : Int} {read : Int × Int} (remaining : Nat)
    (lastNo offset copied : Int)
    (member : read ∈ pageReads iMsgSize iLast iTot remaining lastNo offset copied) :
    ∃ number, read.2 = dataLen iMsgSize iLast iTot number := by
  induction remaining generalizing lastNo offset copied with
  | zero => cases member
  | succ remaining ih =>
    rw [pageReads] at member
    rcases List.mem_cons.mp member with rfl | later
    · exact ⟨_, rfl⟩
    · exact ih _ _ _ later

theorem packet_bytes (positive : 0 < part) (page_pos : 0 < page) (small : page < 2 ^ 31)
    (packet : StMsg) (member : packet ∈
      (wholeWindow file page (filePlan file page part) window).packets) :
    packet.cData.length ≤ part := by
  have slots := (filePlan_slots file positive page_pos small window).2
  have passes := (@wholeWindow_passes file page _ _ slots).2
  have carried := List.mem_map_of_mem (f := StMsg.cData) member
  rw [passes] at carried
  obtain ⟨read, reads, bytes⟩ := List.mem_map.mp carried
  have length : read.2 ≤ part := by
    obtain ⟨number, same⟩ := pageReads_length _ _ _ _ reads
    rw [same]
    exact (dataLen_bounds file positive page_pos small number).2
  rw [← bytes, List.length_take]
  omega

/-- What is known of the windows once the packets make up the file: all of them are sent, each reads
inside its page, and there are enough packets for the file. -/
structure AllWindows (file : List UInt8) (page part count : Nat) : Prop where
  all : parts file.length page = count
  some_windows : 0 < count
  windows : fileWindows file page part =
    (List.range count).map (wholeWindow file page (filePlan file page part))
  maps : (count : Int) = (filePlan file page part).iTotNoMaps
  pages : ∀ window < count, 0 ≤ i32 ((window : Int) * page)
  total : packetsUpTo (filePlan file page part) count =
    (filePlan file page part).iTotNoPkts.toNat
  reads : ∀ window < count, (wholeWindow file page (filePlan file page part) window).reads =
    (List.range (windowSlots (filePlan file page part) window).toNat).map fun index : Nat =>
      ((part : Int) * index, dataLen part (filePlan file page part).iMesgSizeForLastPkt
          (filePlan file page part).iTotNoPkts
          ((window : Int) * (filePlan file page part).iNoPktsPerMMap + index + 1))
  inside : ∀ window < count,
    ∀ read ∈ (wholeWindow file page (filePlan file page part) window).reads,
      read.1 + read.2 ≤ page
  counted : file.length ≤ part * packetsUpTo (filePlan file page part) count

theorem allWindows_of_packetised (positive : 0 < part) (page_pos : 0 < page)
    (small : page < 2 ^ 31) (something : file.length ≠ 0)
    (packetised : Packetised file page part) : ∃ count, AllWindows file page part count := by
  obtain ⟨count, within, windows, pages, _⟩ := fileWindows_eq file page part
  have perMap := filePlan_perMap file positive small
  have perMap_nonneg : 0 ≤ (filePlan file page part).iNoPktsPerMMap := by omega
  have slots := filePlan_slots file positive page_pos small
  have some_windows : 0 < count := by
    by_contra none
    have zero : count = 0 := by omega
    have whole := packetised.whole
    rw [filePackets, windows, zero] at whole
    simp only [List.range_zero, List.map_nil, List.flatMap_nil] at whole
    rw [← whole] at something
    exact something rfl
  have maps : (count : Int) ≤ (filePlan file page part).iTotNoMaps := by omega
  have numbers := packetised.numbered
  rw [filePackets, windows] at numbers
  have lengths := congrArg List.length numbers
  rw [List.length_map, List.length_map, List.length_range] at lengths
  rw [numbers_upTo perMap_nonneg (fun window => (slots window).2) count maps] at numbers
  have total : packetsUpTo (filePlan file page part) count =
      (filePlan file page part).iTotNoPkts.toNat := by
    have same := congrArg List.length numbers
    simpa using same
  have reads := fun window (below : window < count) => @reads_of_total file
    count window _ page perMap_nonneg (fun window => (slots window).2) maps total below
  have inside : ∀ window < count,
      ∀ read ∈ (wholeWindow file page (filePlan file page part) window).reads,
        read.1 + read.2 ≤ page := by
    intro window below read member
    have sent : wholeWindow file page (filePlan file page part) window ∈
        fileWindows file page part := by
      rw [windows]
      exact List.mem_map_of_mem (List.mem_range.mpr below)
    exact (packetised.inside _ sent read member).2.2.1
  have whole := packetised.whole
  rw [filePackets, windows] at whole
  -- The bytes of the file are those of the packets, at most a message each.
  have counted : file.length ≤ part * packetsUpTo (filePlan file page part) count := by
    have bytes := flatMap_length_le StMsg.cData part
      (((List.range count).map
        (wholeWindow file page (filePlan file page part))).flatMap SentWindow.packets) (by
      intro packet member
      obtain ⟨sent, listed, packetOf⟩ := List.mem_flatMap.mp member
      obtain ⟨window, _, rfl⟩ := List.mem_map.mp listed
      exact packet_bytes positive page_pos small packet packetOf)
    rw [whole, lengths, ← total] at bytes
    exact bytes
  -- They are those of the windows, at most a page each.
  have paged : file.length ≤ page * count := by
    have bytes := flatMap_length_le
      (fun window =>
        (wholeWindow file page (filePlan file page part) window).packets.flatMap StMsg.cData)
      page (List.range count) (by
      intro window member
      have below := List.mem_range.mp member
      have short := dataLen_bounds file positive page_pos small
      have bytes := window_bytes (wholeWindow_passes (slots window).2).2 (reads window below)
        short (inside window below) (by omega)
      omega)
    rw [List.length_range] at bytes
    have same := whole
    rw [List.flatMap_assoc, List.flatMap_map] at same
    rw [same] at bytes
    exact bytes
  have number : parts file.length page ≤ count := (parts_le_iff page_pos).mpr paged
  have maps_eq := filePlan_maps file part page_pos
  have bound := i32_le (Int.natCast_nonneg (parts file.length page))
  have all : parts file.length page = count := by
    rw [maps_eq] at maps
    omega
  have maps_all : (count : Int) = (filePlan file page part).iTotNoMaps := by
    rw [maps_eq] at maps ⊢
    omega
  exact ⟨count, all, some_windows, windows, maps_all, pages, total, reads, inside, counted⟩

theorem first_full (positive : 0 < part) (page_pos : 0 < page) (small : page < 2 ^ 31)
    (fills : page ≤ file.length) {count : Nat} (windows : AllWindows file page part count) :
    (windowSlots (filePlan file page part) 0).toNat = parts page part ∧
      dataLen part (filePlan file page part).iMesgSizeForLastPkt
        (filePlan file page part).iTotNoPkts (parts page part) = part := by
  have perMap := filePlan_perMap file positive small
  rw [Nat.min_eq_right fills] at perMap
  have first : windowSlots (filePlan file page part) 0 = parts page part := by
    rw [windowSlots, if_neg (by simp), perMap]
  have some_parts : 0 < parts page part := by
    by_contra none
    have covers := parts_covers positive page
    rw [show parts page part = 0 by omega] at covers
    omega
  constructor
  · rw [first, Int.toNat_natCast]
  · rw [dataLen, if_neg]
    rintro ⟨isLast, partial'⟩
    have last := filePlan_last file part page_pos small
    by_cases exact_page : file.length = page
    · rw [last, exact_page, Nat.mod_self] at partial'
      simp at partial'
    · have covers := parts_covers page_pos file.length
      have several : 2 ≤ count := by
        by_contra one
        have single : count = 1 := by
          have some := windows.some_windows
          omega
        rw [windows.all, single] at covers
        omega
      obtain ⟨before, rfl⟩ : ∃ before, count = before + 2 := ⟨count - 2, by omega⟩
      have extra := filePlan_extra file positive page_pos small
      have slots : 0 < windowSlots (filePlan file page part) (before + 1) := by
        rw [windowSlots]
        split
        · rename_i short
          rw [extra] at short ⊢
          omega
        · omega
      have total := windows.total
      rw [packetsUpTo, perMap, Int.toNat_natCast, Nat.succ_mul] at total
      omega

theorem divides_of_windows (positive : 0 < part) (page_pos : 0 < page) (small : page < 2 ^ 31)
    (fills : page ≤ file.length) {count : Nat} (windows : AllWindows file page part count) :
    (page : Int) % part = 0 := by
  obtain ⟨slots, full⟩ := first_full positive page_pos small fills windows
  have covers := parts_covers positive page
  obtain ⟨before, some_parts⟩ : ∃ before, parts page part = before + 1 := by
    cases number : parts page part with
    | zero =>
      rw [number] at covers
      omega
    | succ before => exact ⟨before, rfl⟩
  have number : (before : Int) + 1 = (parts page part : Nat) := by
    rw [some_parts]
    rfl
  have last : ((part : Int) * before, (part : Int)) ∈
      (wholeWindow file page (filePlan file page part) 0).reads := by
    rw [windows.reads 0 windows.some_windows, slots]
    apply List.mem_map.mpr
    use before
    constructor
    · rw [List.mem_range, some_parts]
      exact Nat.lt_succ_self before
    · simp only [Nat.cast_zero, zero_mul, zero_add]
      rw [number, full]
  have bound := windows.inside 0 windows.some_windows _ last
  apply divides_of_last covers
  rw [some_parts]
  push_cast
  rw [mul_add, mul_one]
  exact bound

theorem total_below (positive : 0 < part) {count : Nat}
    (windows : AllWindows file page part count) : parts file.length part < 2 ^ 31 := by
  have enough := (parts_le_iff positive).mpr windows.counted
  rw [windows.total, filePlan_total _ positive] at enough
  simp only [i32] at enough
  omega

theorem last_offset (page_pos : 0 < page) (something : 0 < file.length) :
    ((file.length : Int) - 1) / page * page = ((parts file.length page - 1) * page : Nat) := by
  have rounded : (file.length - 1) / page = parts file.length page - 1 := by
    have shifted : file.length + page - 1 = file.length - 1 + page := by omega
    rw [parts, shifted, Nat.add_div_right _ page_pos, Nat.add_sub_cancel]
  rw [← rounded]
  push_cast
  rw [Int.natCast_sub (by omega)]
  rfl

theorem parts_int (positive : 0 < part) :
    ((file.length : Int) + part - 1) / part = (parts file.length part : Nat) := by
  rw [parts]
  push_cast
  rw [Int.natCast_sub (by omega)]
  rfl

theorem divides_of_packetised (positive : 0 < part) (page_pos : 0 < page) (small : page < 2 ^ 31)
    (packetised : Packetised file page part) : Divides file page part := by
  by_cases nothing : file.length = 0
  · have negative : ((file.length : Int) - 1) / page * page < 2 ^ 31 := by
      have floor : ((file.length : Int) - 1) / page < 0 := by
        apply Int.ediv_neg_of_neg_of_pos <;> omega
      have product := mul_neg_of_neg_of_pos floor (by omega : (0 : Int) < page)
      omega
    refine ⟨.inr (by omega), negative, ?_⟩
    have zero : ((file.length : Int) + part - 1) / part = 0 := by
      apply Int.ediv_eq_zero_of_lt <;> omega
    omega
  obtain ⟨count, windows⟩ := allWindows_of_packetised positive page_pos small nothing packetised
  constructor
  · by_cases fills : page ≤ file.length
    · exact .inl (divides_of_windows positive page_pos small fills windows)
    · exact .inr (by omega)
  constructor
  · have last : count - 1 < count := Nat.sub_lt windows.some_windows Nat.one_pos
    have below := pages_below small windows.pages (count - 1) last
    rw [← windows.all] at below
    rw [last_offset page_pos (by omega)]
    exact_mod_cast below
  · have below := total_below positive windows
    rw [parts_int positive]
    exact_mod_cast below

theorem page_read {base offset length : Nat} (within : offset + length ≤ page)
    (inside : base + offset + length ≤ file.length) :
    (((mmapPage file page (base : Nat)).getD []).drop offset).take length =
      (file.drop (base + offset)).take length := by
  have nonneg : ¬ (base : Int) < 0 := by omega
  rw [mmapPage, if_neg nonneg, Option.getD_some, Int.toNat_natCast, Int.toNat_natCast]
  have fits : offset + length ≤ ((file.drop base).take page).length := by
    rw [List.length_take, List.length_drop]
    omega
  rw [List.drop_append_of_le_length (by omega), List.take_append_of_le_length (by
    rw [List.length_drop]
    omega), List.drop_take, List.take_take, List.drop_drop, Nat.min_eq_left (by omega)]

/-- The message size fits into the pages of the file, and the plan's counts into the type `I32`. -/
structure Fits (file : List UInt8) (page part : Nat) : Prop where
  part_pos : 0 < part
  page_pos : 0 < page
  small : page < 2 ^ 31
  something : 0 < file.length
  divides : part ∣ page ∨ file.length < page
  offsets : (parts file.length page - 1) * page < 2 ^ 31
  countable : parts file.length part < 2 ^ 31

namespace Fits

variable (fits : Fits file page part)
include fits

theorem windows_pos : 0 < parts file.length page := by
  have covers := parts_covers fits.page_pos file.length
  have something := fits.something
  by_contra none
  rw [show parts file.length page = 0 by omega] at covers
  omega

theorem last_page :
    (parts file.length page - 1) * page < file.length ∧
      file.length ≤ (parts file.length page - 1) * page + page := by
  have covers := parts_covers fits.page_pos file.length
  have short := parts_short fits.page_pos file.length
  obtain ⟨before, windows⟩ : ∃ before, parts file.length page = before + 1 :=
    ⟨parts file.length page - 1, by have := fits.windows_pos; omega⟩
  rw [windows, Nat.mul_succ, Nat.mul_comm] at covers short
  rw [windows, Nat.add_sub_cancel]
  omega

theorem page_parts (several : page < file.length) : page = part * parts page part := by
  obtain ⟨quotient, product⟩ : part ∣ page := by
    rcases fits.divides with divides | below
    · exact divides
    · omega
  have count : parts page part = quotient := by
    rw [parts, product, Nat.add_sub_assoc fits.part_pos, Nat.mul_add_div fits.part_pos,
      Nat.div_eq_of_lt (Nat.sub_lt fits.part_pos Nat.one_pos), Nat.add_zero]
  rw [count, ← product]

theorem several_of_window (window : Nat) (below : window + 1 < parts file.length page) :
    page < file.length := by
  have start := fits.last_page.1
  have one : 1 * page ≤ (parts file.length page - 1) * page := Nat.mul_le_mul_right _ (by omega)
  omega

theorem perMap_nat :
    (filePlan file page part).iNoPktsPerMMap.toNat = parts (min file.length page) part := by
  rw [filePlan_perMap _ fits.part_pos fits.small, Int.toNat_natCast]

theorem window_start (window : Nat) (below : window < parts file.length page) :
    window * page = part * (window * (filePlan file page part).iNoPktsPerMMap.toNat) := by
  rw [fits.perMap_nat]
  cases window with
  | zero => simp
  | succ window =>
    have several := fits.several_of_window window below
    rw [Nat.min_eq_right several.le]
    calc (window + 1) * page = (window + 1) * (part * parts page part) := by
          rw [← fits.page_parts several]
      _ = part * ((window + 1) * parts page part) := by ring

theorem maps_eq : (filePlan file page part).iTotNoMaps = parts file.length page := by
  rw [filePlan_maps _ _ fits.page_pos]
  apply i32_of_range
  · omega
  · -- There is a packet for every page.
    have below := fits.countable
    by_cases several : page < file.length
    · have fewer : parts file.length page ≤ parts file.length part := by
        rw [parts_le_iff fits.page_pos]
        have covers := parts_covers fits.part_pos file.length
        have divides : part ≤ page := by
          have product := fits.page_parts several
          rw [product]
          apply Nat.le_mul_of_pos_right
          by_contra none
          have page_pos := fits.page_pos
          rw [show parts page part = 0 by omega] at product
          omega
        exact covers.trans (Nat.mul_le_mul_right _ divides)
      omega
    · have single : parts file.length page ≤ 1 := by
        rw [parts_le_iff fits.page_pos]
        omega
      omega

theorem total_eq : (filePlan file page part).iTotNoPkts = parts file.length part := by
  rw [filePlan_total _ fits.part_pos]
  have below := fits.countable
  apply i32_of_range <;> omega

theorem last_eq :
    (filePlan file page part).iMesgSizeForLastPkt = (file.length % part : Nat) := by
  rw [filePlan_last _ _ fits.page_pos fits.small]
  rcases fits.divides with divides | below
  · rw [Nat.mod_mod_of_dvd _ divides]
  · rw [Nat.mod_eq_of_lt below]

theorem slots_last :
    windowSlots (filePlan file page part) (parts file.length page - 1) =
      parts (file.length - (parts file.length page - 1) * page) part := by
  have perMap := filePlan_perMap file fits.part_pos fits.small
  have windows := fits.windows_pos
  have last := fits.last_page
  by_cases several : page < file.length
  · have more : parts file.length page - 1 ≠ 0 := by
      intro first
      rw [first] at last
      omega
    have extra := filePlan_extra file fits.part_pos fits.page_pos fits.small
    rw [if_neg (by omega)] at extra
    have final : ((parts file.length page - 1 : Nat) : Int) + 1 =
        (filePlan file page part).iTotNoMaps := by
      rw [fits.maps_eq]
      omega
    have split : file.length = file.length - (parts file.length page - 1) * page +
        (parts file.length page - 1) * page := by omega
    have rest : file.length % page =
        (file.length - (parts file.length page - 1) * page) % page := by
      conv_lhs => rw [split]
      exact Nat.add_mul_mod_self_right _ _ _
    rw [windowSlots]
    by_cases exactly : file.length - (parts file.length page - 1) * page = page
    · rw [rest, exactly, Nat.mod_self] at extra
      have none : parts 0 part = 0 := by
        have bound : parts 0 part ≤ 0 := by
          rw [parts_le_iff fits.part_pos]
          omega
        omega
      rw [none] at extra
      rw [if_neg (by rintro ⟨_, _, some⟩; exact some extra), perMap, exactly,
        Nat.min_eq_right several.le]
    · rw [rest, Nat.mod_eq_of_lt (by omega)] at extra
      have some : parts (file.length - (parts file.length page - 1) * page) part ≠ 0 := by
        intro none
        have covers := parts_covers fits.part_pos
          (file.length - (parts file.length page - 1) * page)
        rw [none] at covers
        omega
      rw [if_pos ⟨more, final, by rw [extra]; exact_mod_cast some⟩, extra]
  · have single : parts file.length page ≤ 1 := by
      rw [parts_le_iff fits.page_pos]
      omega
    have first : parts file.length page - 1 = 0 := by omega
    rw [first, windowSlots, if_neg (by simp), perMap, Nat.min_eq_left (by omega), Nat.zero_mul,
      Nat.sub_zero]

theorem all_packets :
    packetsUpTo (filePlan file page part) (parts file.length page) = parts file.length part := by
  have last := fits.last_page
  obtain ⟨before, windows⟩ : ∃ before, parts file.length page = before + 1 :=
    ⟨parts file.length page - 1, by have := fits.windows_pos; omega⟩
  have slots := fits.slots_last
  have start := fits.window_start before (by omega)
  rw [windows, Nat.add_sub_cancel] at slots last
  rw [windows, packetsUpTo, slots, Int.toNat_natCast]
  have size : file.length =
      part * (before * (filePlan file page part).iNoPktsPerMMap.toNat) +
        (file.length - before * page) := by
    rw [← start]
    omega
  conv_rhs => rw [size]
  rw [parts_add fits.part_pos]

theorem length_eq {number : Nat} (inside : part * number < file.length) :
    dataLen part (filePlan file page part).iMesgSizeForLastPkt
        (filePlan file page part).iTotNoPkts ((number : Int) + 1) =
      (min part (file.length - part * number) : Nat) := by
  have covers := parts_covers fits.part_pos file.length
  have short := parts_short fits.part_pos file.length
  have rest := Nat.mod_lt file.length fits.part_pos
  have division := Nat.div_add_mod file.length part
  rw [dataLen, fits.last_eq, fits.total_eq]
  by_cases final : number + 1 = parts file.length part
  · rw [← final, Nat.mul_succ] at covers short
    -- The last packet begins with the last part of the file that may be short.
    by_cases whole : file.length % part = 0
    · have full : file.length = part * (number + 1) := by
        rw [whole, Nat.add_zero] at division
        rw [← division] at covers short inside ⊢
        have more : number < file.length / part := Nat.lt_of_mul_lt_mul_left inside
        have fewer : file.length / part < number + 2 := by
          apply Nat.lt_of_mul_lt_mul_left (a := part)
          rw [Nat.mul_add, Nat.mul_two]
          omega
        rw [show file.length / part = number + 1 by omega]
      rw [if_neg (by rintro ⟨_, some⟩; omega), full, Nat.mul_succ, Nat.add_sub_cancel_left,
        Nat.min_self]
    · have quotient : file.length / part = number := by
        apply Nat.div_eq_of_lt_le
        · rw [Nat.mul_comm]
          exact inside.le
        · by_contra more
          have full : file.length = part * (number + 1) := by
            rw [Nat.mul_succ]
            rw [Nat.succ_mul, Nat.mul_comm number] at more
            omega
          exact whole (by rw [full, Nat.mul_mod_right])
      rw [quotient] at division
      rw [if_pos ⟨by omega, by omega⟩]
      omega
  · have before : number + 2 ≤ parts file.length part := by
      have below : number < parts file.length part := by
        by_contra beyond
        have large : part * parts file.length part ≤ part * number :=
          Nat.mul_le_mul_left _ (by omega)
        omega
      omega
    have large : part * (number + 2) ≤ part * parts file.length part :=
      Nat.mul_le_mul_left _ before
    rw [Nat.mul_add, Nat.mul_two] at large
    rw [if_neg (by rintro ⟨same, _⟩; omega)]
    omega

theorem fileWindows_all : fileWindows file page part =
    (List.range (parts file.length page)).map
      (wholeWindow file page (filePlan file page part)) := by
  obtain ⟨count, within, windows, pages, stops⟩ := fileWindows_eq file page part
  rw [fits.maps_eq, Int.toNat_natCast] at within stops
  rcases stops with all | negative
  · rw [← all, windows]
  · by_cases all : count = parts file.length page
    · rw [← all, windows]
    · have bound : count * page ≤ (parts file.length page - 1) * page :=
        Nat.mul_le_mul_right _ (by omega)
      have offsets := fits.offsets
      rw [← Nat.cast_mul, i32_of_range] at negative <;> omega

variable {window index : Nat}

theorem slot_inside (below : window < parts file.length page)
    (slot : index < (windowSlots (filePlan file page part) window).toNat) :
    part * (window * (filePlan file page part).iNoPktsPerMMap.toNat + index) < file.length ∧
      part * index + min part (file.length -
        part * (window * (filePlan file page part).iNoPktsPerMMap.toNat + index)) ≤ page := by
  have start := fits.window_start window below
  have last := fits.last_page
  rw [Nat.mul_add, ← start]
  by_cases final : window + 1 = parts file.length page
  · have slots := fits.slots_last
    rw [show parts file.length page - 1 = window by omega] at slots last
    rw [slots, Int.toNat_natCast] at slot
    have inside : part * index < file.length - window * page := by
      by_contra beyond
      have covered : parts (file.length - window * page) part ≤ index := by
        rw [parts_le_iff fits.part_pos]
        omega
      omega
    omega
  · have several := fits.several_of_window window (by omega)
    have product := fits.page_parts several
    have slots : (windowSlots (filePlan file page part) window).toNat = parts page part := by
      rw [windowSlots_inner (by rw [fits.maps_eq]; omega), fits.perMap_nat,
        Nat.min_eq_right several.le]
    rw [slots] at slot
    have next : part * (index + 1) ≤ part * parts page part := Nat.mul_le_mul_left _ slot
    have ends : (window + 1) * page ≤ (parts file.length page - 1) * page :=
      Nat.mul_le_mul_right _ (by omega)
    have part_pos := fits.part_pos
    rw [← product, Nat.mul_succ] at next
    rw [Nat.succ_mul] at ends
    omega

theorem offset_eq (below : window < parts file.length page) :
    i32 ((window : Int) * page) = (window * page : Nat) := by
  have offsets := fits.offsets
  have bound : window * page ≤ (parts file.length page - 1) * page :=
    Nat.mul_le_mul_right _ (by omega)
  rw [← Nat.cast_mul, i32_of_range] <;> omega

theorem reads_eq (below : window < parts file.length page) :
    (wholeWindow file page (filePlan file page part) window).reads =
      (List.range (windowSlots (filePlan file page part) window).toNat).map fun index : Nat =>
        (((part * index : Nat) : Int), ((min part (file.length -
          part * (window * (filePlan file page part).iNoPktsPerMMap.toNat + index)) : Nat) :
            Int)) := by
  have slots := filePlan_slots file fits.part_pos fits.page_pos fits.small
  have perMap := filePlan_perMap file fits.part_pos fits.small
  have total := fits.all_packets
  rw [reads_of_total (by omega) (fun window => (slots window).2) fits.maps_eq.ge
    (by rw [fits.total_eq, total, Int.toNat_natCast]) below]
  apply List.map_congr_left
  intro index member
  have inside := (fits.slot_inside below (List.mem_range.mp member)).1
  have length := fits.length_eq inside
  have number : ((window * (filePlan file page part).iNoPktsPerMMap.toNat + index : Nat) : Int) =
      (window : Int) * (filePlan file page part).iNoPktsPerMMap + index := by
    push_cast
    rw [Int.toNat_of_nonneg (by omega)]
  rw [number] at length
  rw [Prod.mk.injEq]
  constructor
  · push_cast
    rfl
  · exact length

theorem window_carries (below : window < parts file.length page) :
    (wholeWindow file page (filePlan file page part) window).packets.map StMsg.cData =
      (List.range (windowSlots (filePlan file page part) window).toNat).map fun index =>
        (file.drop (part *
          (window * (filePlan file page part).iNoPktsPerMMap.toNat + index))).take part := by
  have slots := (filePlan_slots file fits.part_pos fits.page_pos fits.small window).2
  rw [(wholeWindow_passes slots).2, fits.reads_eq below, List.map_map]
  apply List.map_congr_left
  intro index member
  obtain ⟨inside, ends⟩ := fits.slot_inside below (List.mem_range.mp member)
  have start := fits.window_start window below
  rw [Nat.mul_add, ← start] at inside ends ⊢
  simp only [Function.comp_apply, Int.toNat_natCast]
  rw [Nat.mul_add, ← start, fits.offset_eq below, page_read ends (by omega), ← List.length_drop,
    ← List.take_eq_take_min]

end Fits

theorem packetised_of_fits (fits : Fits file page part) : Packetised file page part := by
  have slots := filePlan_slots file fits.part_pos fits.page_pos fits.small
  have perMap := filePlan_perMap file fits.part_pos fits.small
  constructor
  case inside =>
    intro sent member read reads
    rw [fits.fileWindows_all] at member
    obtain ⟨window, listed, rfl⟩ := List.mem_map.mp member
    have below := List.mem_range.mp listed
    rw [fits.reads_eq below] at reads
    obtain ⟨index, slot, rfl⟩ := List.mem_map.mp reads
    obtain ⟨inside, ends⟩ := fits.slot_inside below (List.mem_range.mp slot)
    have start := fits.window_start window below
    rw [Nat.mul_add, ← start] at inside ends
    rw [wholeWindow_offset, fits.offset_eq below, Nat.mul_add, ← start]
    omega
  case whole =>
    have carried := packets_upTo StMsg.cData
      (fun number => (file.drop (part * number)).take part) (parts file.length page)
      (fun window below => fits.window_carries below) fits.maps_eq.ge
    rw [filePackets, fits.fileWindows_all, List.flatMap_def, carried, fits.all_packets,
      pieces_concat, List.take_of_length_le (parts_covers fits.part_pos file.length)]
  case numbered =>
    rw [filePackets, fits.fileWindows_all, numbers_upTo (by omega)
      (fun window => (slots window).2) _ fits.maps_eq.ge, fits.all_packets, fits.total_eq,
      Int.toNat_natCast]

theorem packetised_of_divides (positive : 0 < part) (page_pos : 0 < page) (small : page < 2 ^ 31)
    (divides : Divides file page part) : Packetised file page part := by
  obtain ⟨whole, offsets, countable⟩ := divides
  by_cases nothing : file.length = 0
  · have empty := List.length_eq_zero_iff.mp nothing
    have none : parts 0 part = 0 := Nat.div_eq_of_lt (by omega)
    have windows : fileWindows file page part = [] := by
      obtain ⟨count, within, windows, _⟩ := fileWindows_eq file page part
      have no_pages : parts 0 page = 0 := Nat.div_eq_of_lt (by omega)
      rw [filePlan_maps _ _ page_pos, nothing, no_pages] at within
      have zero : count = 0 := by simpa [i32] using within
      rw [windows, zero]
      rfl
    constructor
    · intro sent member
      rw [windows] at member
      cases member
    · rw [filePackets, windows, empty]
      rfl
    · rw [filePackets, windows, filePlan_total _ positive, nothing, none]
      rfl
  · apply packetised_of_fits
    have something : 0 < file.length := by omega
    constructor
    · exact positive
    · exact page_pos
    · exact small
    · exact something
    · rcases whole with remainder | below
      · exact .inl (Nat.dvd_of_mod_eq_zero (by exact_mod_cast remainder))
      · exact .inr (by exact_mod_cast below)
    · rw [last_offset page_pos something] at offsets
      exact_mod_cast offsets
    · rw [parts_int positive] at countable
      exact_mod_cast countable

end Files

section Claim

variable (file : List UInt8) (iPageSize iMsgSize : Int)

/-- The packets make up the file, without a read past the page or the file, exactly if the message
size divides the page size or the file is smaller than a page, and the counts fit their type. -/
theorem packetised_iff (page_pos : 0 < iPageSize) (page_fits : iPageSize < 2 ^ 31)
    (accepted : 1 ≤ clampMsgSize iMsgSize) :
    Packetised file iPageSize (clampMsgSize iMsgSize) ↔
      Divides file iPageSize (clampMsgSize iMsgSize) := by
  obtain ⟨page, rfl⟩ := Int.eq_ofNat_of_zero_le page_pos.le
  obtain ⟨part, size⟩ := Int.eq_ofNat_of_zero_le (show 0 ≤ clampMsgSize iMsgSize by omega)
  rw [size] at accepted ⊢
  constructor
  · exact divides_of_packetised (by omega) (by omega) (by omega)
  · exact packetised_of_divides (by omega) (by omega) (by omega)

/-- A file of eleven bytes over pages of eight, in messages of four. -/
theorem packetised_eleven :
    Packetised (List.replicate 11 7) 8 4 ↔ Divides (List.replicate 11 7) 8 4 := by
  have size : clampMsgSize 4 = 4 := by decide
  have both := packetised_iff (List.replicate 11 7) 8 4 (by norm_num) (by norm_num)
    (by rw [size]; norm_num)
  rw [size] at both
  exact both

/-- A page of the agents does not hold a whole number of the largest messages. Of 4097 bytes the
fourth packet is taken for the last one and has one byte; the fifth, in the second window, reads
1100 bytes where one is left. -/
theorem past_the_page : ¬ ∀ (file : List UInt8) (iPageSize iMsgSize : Int), 0 < iPageSize →
    iPageSize < 2 ^ 31 → 1 ≤ clampMsgSize iMsgSize →
    Packetised file iPageSize (clampMsgSize iMsgSize) := by
  intro packetised
  have size : clampMsgSize 1100 = 1100 := by decide
  have cut := packetised (List.replicate 4097 7) 4096 1100 (by norm_num) (by norm_num)
    (by rw [size]; norm_num)
  rw [size] at cut
  have divides := @divides_of_packetised _ 4096 1100 (by norm_num) (by norm_num)
    (by norm_num) cut
  obtain ⟨whole, _⟩ := divides
  rw [List.length_replicate] at whole
  norm_num at whole

end Claim

end EveAgent.FileTrans
