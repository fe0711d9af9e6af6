import EveAgent.FileTrans.LossFree

namespace EveAgent.FileTrans

open Machine

/-- The fields of a received `StMsg` in host order; nothing is known of them. -/
structure Datagram where
  ePktType : Int32
  iPktNo : Int32
  iMmapNo : Int32
  iCorrelater : Int32
  iDataLen : Int32
  deriving DecidableEq, Repr

/-- The numbers of a handshake datagram that the receiver works with. -/
structure CntrlBlock where
  iTotNoPkts : Int32
  iTotNoMaps : Int32
  iNoPktsPerMMap : Int32
  iNoExtraMapPackets : Int32
  deriving DecidableEq, Repr

/-- The enumerator `DATA`. -/
def dataType : Int32 := 4

/-- The locals of `FileTrans_HandleDataPkt`, and histories that no code reads: the subscripts used
on `piPktStatus` and `pstICoreAreaForData`, the lengths given to the `memcpy` of the payload, and
those given to the `memcpy` of the packet status. -/
structure WindowLocals where
  iNoOfTimeOuts : Int32
  iNoOfPktsExpected : Int32
  iNoOfPktsPerMap : Int32
  iToNoOfPktsRecvd : Int32
  iLoopCntr : Int32
  iMmapNo : Int32
  iCorrelater : Int32
  piPktStatus : List UInt8
  pc : RecvPc
  subscripts : List Int32
  copied : List Nat
  vectors : List Nat
  deriving DecidableEq, Repr

inductive Arrival where
  | datagram (d : Datagram) (allocated : Bool)
  | timeout (behind : List UInt8)
  | failure (error : ENASCenterError)
  | complete (acked : Bool)
  deriving DecidableEq, Repr

section HandleDataPkt

variable (plan : CntrlBlock)

def clearedStatus : List UInt8 := List.replicate (plan.iNoPktsPerMMap.toInt + 1).toNat pktMissing

/-- Both arrays are allocated. A negative size is more than `malloc` can give. -/
def WindowLocals.start (status area : Bool) : Option WindowLocals :=
  if (plan.iNoPktsPerMMap + 1).toInt < 0 ∨ status = false then none
  else if plan.iNoPktsPerMMap.toInt < 0 ∨ area = false then none
  else some {
    iNoOfTimeOuts := 0
    iNoOfPktsExpected := plan.iNoPktsPerMMap
    iNoOfPktsPerMap := plan.iNoPktsPerMMap
    iToNoOfPktsRecvd := 0
    iLoopCntr := 0
    iMmapNo := 1
    iCorrelater := 1
    piPktStatus := clearedStatus plan
    pc := .recvDataPkt
    subscripts := []
    copied := []
    vectors := [] }

/-- The sequence of the datagram is the one expected. -/
def WindowLocals.Expects (s : WindowLocals) (d : Datagram) : Prop :=
  d.ePktType = dataType ∧ d.iMmapNo = s.iMmapNo ∧ d.iCorrelater = s.iCorrelater

instance (s : WindowLocals) (d : Datagram) : Decidable (s.Expects d) :=
  inferInstanceAs (Decidable (_ ∧ _))

def WindowLocals.iArraySubScript (s : WindowLocals) (d : Datagram) : Int32 :=
  d.iPktNo - (s.iMmapNo - 1) * plan.iNoPktsPerMMap - 1

/-- A datagram has been received: the payload is copied before anything is tested. -/
def WindowLocals.received (s : WindowLocals) (d : Datagram) (allocated : Bool) : WindowLocals :=
  if (d.iDataLen + 1).toInt < 0 ∨ allocated = false then
    { s with pc := .returned .nascInsufficientMemory }
  else
    let s := { s with copied := s.copied ++ [sizeT d.iDataLen.toInt] }
    if s.Expects d then
      { s with
        subscripts := s.subscripts ++ [s.iArraySubScript plan d]
        piPktStatus := storeAt s.piPktStatus (s.iArraySubScript plan d).toInt pktReceived
        iLoopCntr := s.iLoopCntr + 1
        iToNoOfPktsRecvd := s.iToNoOfPktsRecvd + 1 }
    else s

/-- A timeout. `FileTrans_SendDataAck` counts and copies the status of `iNoOfPktsPerMap` packets;
`behind` is what lies in memory behind the array. -/
def WindowLocals.timedOut (s : WindowLocals) (behind : List UInt8) : WindowLocals :=
  let s := { s with iNoOfTimeOuts := s.iNoOfTimeOuts + 1 }
  if s.iNoOfTimeOuts > 5 then { s with pc := .returned .nascFileTransTimeOut }
  else { s with
    iNoOfPktsExpected :=
      Int32.ofInt (countMissing (s.piPktStatus ++ behind) s.iNoOfPktsPerMap.toInt)
    iCorrelater := s.iCorrelater + 1
    iLoopCntr := 0
    vectors := s.vectors ++ [sizeT s.iNoOfPktsPerMap.toInt] }

/-- The window is acknowledged without a status, written, and the next one is set up. -/
def WindowLocals.completed (s : WindowLocals) (acked : Bool) : WindowLocals :=
  let s := { s with vectors := s.vectors ++ [sizeT 0] }
  if acked = false then { s with pc := .returned .nascFailure }
  else
    let s := { s with piPktStatus := clearedStatus plan }
    if s.iToNoOfPktsRecvd = plan.iTotNoPkts then { s with pc := .returned .nascSuccess }
    else
      let s := { s with
        iMmapNo := s.iMmapNo + 1
        iCorrelater := 1
        iNoOfPktsExpected := plan.iNoPktsPerMMap
        iLoopCntr := 0 }
      if s.iMmapNo = plan.iTotNoMaps ∧ plan.iNoExtraMapPackets ≠ 0 then
        { s with
          iNoOfPktsExpected := plan.iNoExtraMapPackets
          iNoOfPktsPerMap := plan.iNoExtraMapPackets }
      else s

/-- The loops of `FileTrans_HandleDataPkt` and `FileTrans_RecvDataPkt`. -/
def WindowLocals.step (s : WindowLocals) (arrival : Arrival) : Option WindowLocals :=
  if s.pc ≠ .recvDataPkt then none
  else if s.iLoopCntr ≥ s.iNoOfPktsExpected then
    match arrival with
    | .complete acked => some (s.completed plan acked)
    | _ => none
  else
    match arrival with
    | .datagram d allocated => some (s.received plan d allocated)
    | .timeout behind => some (s.timedOut behind)
    | .failure error =>
      if error = .nascFailure ∨ error = .nascFileTransConnClosed then
        some { s with pc := .returned error }
      else none
    | .complete _ => none

/-- The accesses so far stayed inside the window, and the copies inside the message. -/
structure Respected (s : WindowLocals) : Prop where
  subscripts : ∀ subscript ∈ s.subscripts,
    0 ≤ subscript.toInt ∧ subscript.toInt < plan.iNoPktsPerMMap.toInt
  copied : ∀ length ∈ s.copied, (length : Int) ≤ maxDataSize
  vectors : ∀ length ∈ s.vectors, (length : Int) ≤ maxDataSize

/-- The packet number is that of a packet of the window. -/
def NumberedInWindow (s : WindowLocals) (d : Datagram) : Prop :=
  ∃ number : Int, (s.iMmapNo.toInt - 1) * plan.iNoPktsPerMMap.toInt < number ∧
    number ≤ s.iMmapNo.toInt * plan.iNoPktsPerMMap.toInt ∧ Int32.ofInt number = d.iPktNo

/-- What the sender has to keep to: lengths that fit a message, packet numbers of the window, and no
timeout in a window of more packets than a message has bytes. -/
def KeepsTo (s : WindowLocals) : Arrival → Prop
  | .datagram d allocated => 0 ≤ (d.iDataLen + 1).toInt → allocated = true →
      (0 ≤ d.iDataLen.toInt ∧ d.iDataLen.toInt ≤ maxDataSize) ∧
        (s.Expects d → NumberedInWindow plan s d)
  | .timeout _ => ¬ s.iNoOfTimeOuts + 1 > 5 →
      0 ≤ s.iNoOfPktsPerMap.toInt ∧ s.iNoOfPktsPerMap.toInt ≤ maxDataSize
  | _ => True

end HandleDataPkt

section Arithmetic

variable {plan : CntrlBlock} {s : WindowLocals} {d : Datagram}

theorem sizeT_le (n : Int32) :
    (sizeT n.toInt : Int) ≤ maxDataSize ↔ 0 ≤ n.toInt ∧ n.toInt ≤ maxDataSize := by
  have low := n.le_toInt
  have high := n.toInt_lt
  rw [sizeT, maxDataSize, Int.toNat_of_nonneg (by omega)]
  omega

theorem subscript_eq (plan : CntrlBlock) (s : WindowLocals) (d : Datagram) :
    s.iArraySubScript plan d = Int32.ofInt
      (d.iPktNo.toInt - (s.iMmapNo.toInt - 1) * plan.iNoPktsPerMMap.toInt - 1) := by
  simp only [WindowLocals.iArraySubScript, Int32.ofInt_sub, Int32.ofInt_mul, Int32.ofInt_toInt]
  rfl

theorem subscript_iff :
    (0 ≤ (s.iArraySubScript plan d).toInt ∧
      (s.iArraySubScript plan d).toInt < plan.iNoPktsPerMMap.toInt) ↔
    NumberedInWindow plan s d := by
  have high := plan.iNoPktsPerMMap.toInt_lt
  have window : s.iMmapNo.toInt * plan.iNoPktsPerMMap.toInt =
      (s.iMmapNo.toInt - 1) * plan.iNoPktsPerMMap.toInt + plan.iNoPktsPerMMap.toInt := by
    ring
  constructor
  · intro inside
    use (s.iMmapNo.toInt - 1) * plan.iNoPktsPerMMap.toInt + 1 + (s.iArraySubScript plan d).toInt
    refine ⟨by omega, by omega, ?_⟩
    rw [subscript_eq, Int32.ofInt_add, Int32.ofInt_toInt, ← Int32.ofInt_add]
    rw [show (s.iMmapNo.toInt - 1) * plan.iNoPktsPerMMap.toInt + 1 +
      (d.iPktNo.toInt - (s.iMmapNo.toInt - 1) * plan.iNoPktsPerMMap.toInt - 1) =
      d.iPktNo.toInt by ring]
    exact Int32.ofInt_toInt _
  · intro numbered
    obtain ⟨number, above, below, same⟩ := numbered
    have place : s.iArraySubScript plan d =
        Int32.ofInt (number - (s.iMmapNo.toInt - 1) * plan.iNoPktsPerMMap.toInt - 1) := by
      rw [subscript_eq, Int32.ofInt_sub, Int32.ofInt_sub, Int32.ofInt_toInt, ← same,
        ← Int32.ofInt_sub, ← Int32.ofInt_sub]
    rw [place, Int32.toInt_ofInt_of_le (by omega) (by omega)]
    omega

end Arithmetic

section Steps

variable {plan : CntrlBlock} {s t : WindowLocals}

theorem respected_start {status area : Bool}
    (started : WindowLocals.start plan status area = some s) :
    Respected plan s := by
  rw [WindowLocals.start] at started
  split at started
  · cases started
  split at started
  · cases started
  rw [Option.some.injEq] at started
  subst started
  constructor <;> intro entry member <;> cases member

theorem received_iff (d : Datagram) (allocated : Bool) :
    Respected plan (s.received plan d allocated) ↔
      Respected plan s ∧ KeepsTo plan s (.datagram d allocated) := by
  rw [WindowLocals.received]
  split
  · rename_i refused
    constructor
    · intro respected
      refine ⟨⟨respected.subscripts, respected.copied, respected.vectors⟩, ?_⟩
      intro size given
      rcases refused with negative | failed
      · omega
      · rw [failed] at given
        cases given
    · rintro ⟨respected, _⟩
      exact ⟨respected.subscripts, respected.copied, respected.vectors⟩
  · rename_i given
    rw [not_or, not_lt, Bool.not_eq_false] at given
    have keeps : KeepsTo plan s (.datagram d allocated) ↔
        (sizeT d.iDataLen.toInt : Int) ≤ maxDataSize ∧
          (s.Expects d → NumberedInWindow plan s d) := by
      rw [sizeT_le]
      constructor
      · intro meets
        exact meets given.1 given.2
      · intro meets _ _
        exact meets
    rw [keeps]
    have copy : (∀ length ∈ s.copied ++ [sizeT d.iDataLen.toInt], (length : Int) ≤ maxDataSize) ↔
        (∀ length ∈ s.copied, (length : Int) ≤ maxDataSize) ∧
          (sizeT d.iDataLen.toInt : Int) ≤ maxDataSize := by
      simp only [List.forall_mem_append, List.forall_mem_singleton]
    dsimp only
    split
    · rename_i expected
      have store : (∀ subscript ∈ s.subscripts ++ [s.iArraySubScript plan d],
          0 ≤ subscript.toInt ∧ subscript.toInt < plan.iNoPktsPerMMap.toInt) ↔
          (∀ subscript ∈ s.subscripts,
            0 ≤ subscript.toInt ∧ subscript.toInt < plan.iNoPktsPerMMap.toInt) ∧
          NumberedInWindow plan s d := by
        rw [← subscript_iff]
        simp only [List.forall_mem_append, List.forall_mem_singleton]
      constructor
      · intro respected
        obtain ⟨before, numbered⟩ := store.mp respected.subscripts
        obtain ⟨copied, length⟩ := copy.mp respected.copied
        exact ⟨⟨before, copied, respected.vectors⟩, length, fun _ => numbered⟩
      · rintro ⟨respected, length, numbered⟩
        have expectsIt : s.Expects d := expected
        exact ⟨store.mpr ⟨respected.subscripts, numbered expectsIt⟩,
          copy.mpr ⟨respected.copied, length⟩, respected.vectors⟩
    · rename_i other
      constructor
      · intro respected
        obtain ⟨copied, length⟩ := copy.mp respected.copied
        exact ⟨⟨respected.subscripts, copied, respected.vectors⟩, length,
          fun expected => absurd expected other⟩
      · rintro ⟨respected, length, _⟩
        exact ⟨respected.subscripts, copy.mpr ⟨respected.copied, length⟩, respected.vectors⟩

theorem timedOut_iff (behind : List UInt8) :
    Respected plan (s.timedOut behind) ↔ Respected plan s ∧ KeepsTo plan s (.timeout behind) := by
  rw [WindowLocals.timedOut]
  dsimp only
  split
  · rename_i last
    constructor
    · intro respected
      exact ⟨⟨respected.subscripts, respected.copied, respected.vectors⟩,
        fun again => absurd last again⟩
    · rintro ⟨respected, _⟩
      exact ⟨respected.subscripts, respected.copied, respected.vectors⟩
  · rename_i again
    have vector : (∀ length ∈ s.vectors ++ [sizeT s.iNoOfPktsPerMap.toInt],
        (length : Int) ≤ maxDataSize) ↔
        (∀ length ∈ s.vectors, (length : Int) ≤ maxDataSize) ∧
          (0 ≤ s.iNoOfPktsPerMap.toInt ∧ s.iNoOfPktsPerMap.toInt ≤ maxDataSize) := by
      rw [← sizeT_le]
      simp only [List.forall_mem_append, List.forall_mem_singleton]
    constructor
    · intro respected
      obtain ⟨before, length⟩ := vector.mp respected.vectors
      exact ⟨⟨respected.subscripts, respected.copied, before⟩, fun _ => length⟩
    · rintro ⟨respected, length⟩
      exact ⟨respected.subscripts, respected.copied, vector.mpr ⟨respected.vectors, length again⟩⟩

theorem completed_iff (acked : Bool) :
    Respected plan (s.completed plan acked) ↔ Respected plan s := by
  have vector : (∀ length ∈ s.vectors ++ [sizeT 0], (length : Int) ≤ maxDataSize) ↔
      ∀ length ∈ s.vectors, (length : Int) ≤ maxDataSize := by
    have none : (sizeT 0 : Int) ≤ maxDataSize := by decide
    simp only [List.forall_mem_append, List.forall_mem_singleton, none, and_true]
  have same : (s.completed plan acked).subscripts = s.subscripts ∧
      (s.completed plan acked).copied = s.copied ∧
      (s.completed plan acked).vectors = s.vectors ++ [sizeT 0] := by
    rw [WindowLocals.completed]
    dsimp only
    split_ifs <;> exact ⟨rfl, rfl, rfl⟩
  obtain ⟨subscripts, copied, vectors⟩ := same
  constructor
  · intro respected
    constructor
    · rw [← subscripts]
      exact respected.subscripts
    · rw [← copied]
      exact respected.copied
    · rw [← vector, ← vectors]
      exact respected.vectors
  · intro respected
    constructor
    · rw [subscripts]
      exact respected.subscripts
    · rw [copied]
      exact respected.copied
    · rw [vectors, vector]
      exact respected.vectors

theorem respected_step (arrival : Arrival) (executed : s.step plan arrival = some t) :
    Respected plan t ↔ Respected plan s ∧ KeepsTo plan s arrival := by
  unfold WindowLocals.step at executed
  split at executed
  · cases executed
  split at executed
  · cases arrival with
    | complete acked =>
      simp only [Option.some.injEq] at executed
      rw [← executed, completed_iff]
      exact (and_iff_left trivial).symm
    | datagram d allocated => cases executed
    | timeout behind => cases executed
    | failure error => cases executed
  · cases arrival with
    | datagram d allocated =>
      simp only [Option.some.injEq] at executed
      rw [← executed]
      exact received_iff d allocated
    | timeout behind =>
      simp only [Option.some.injEq] at executed
      rw [← executed]
      exact timedOut_iff behind
    | failure error =>
      simp only [Option.ite_none_right_eq_some, Option.some.injEq] at executed
      obtain ⟨_, result⟩ := executed
      rw [← result]
      constructor
      · intro respected
        exact ⟨⟨respected.subscripts, respected.copied, respected.vectors⟩, trivial⟩
      · rintro ⟨respected, _⟩
        exact ⟨respected.subscripts, respected.copied, respected.vectors⟩
    | complete acked => cases executed

end Steps

/-- For any handshake and any arrivals, the receiver stays inside its window and its messages
exactly as long as the sender keeps to them. -/
theorem window_respected_iff (plan : CntrlBlock) (status area : Bool) (start last : WindowLocals)
    (started : WindowLocals.start plan status area = some start) (arrivals : List Arrival)
    (executed : run (WindowLocals.step plan) start arrivals = some last) :
    Respected plan last ↔ Along (WindowLocals.step plan) (KeepsTo plan) start arrivals := by
  rw [run_iff_along (fun s arrival t => respected_step arrival) executed]
  exact and_iff_right (respected_start started)

/-- A window of one packet, and a datagram of a byte that is that packet. -/
def onePacketPlan : CntrlBlock := ⟨1, 1, 1, 0⟩

def onePacketArrivals : List Arrival := [.datagram ⟨4, 1, 1, 1, 1⟩ true, .complete true]

theorem window_respected_one : ∃ start last,
    WindowLocals.start onePacketPlan true true = some start ∧
      run (WindowLocals.step onePacketPlan) start onePacketArrivals = some last ∧
      (Respected onePacketPlan last ↔
        Along (WindowLocals.step onePacketPlan) (KeepsTo onePacketPlan) start
          onePacketArrivals) := by
  obtain ⟨start, started, last, executed⟩ : ∃ start,
      WindowLocals.start onePacketPlan true true = some start ∧ ∃ last,
        run (WindowLocals.step onePacketPlan) start onePacketArrivals = some last :=
    ⟨_, rfl, _, rfl⟩
  exact ⟨start, last, started, executed,
    window_respected_iff onePacketPlan true true start last started onePacketArrivals executed⟩

/-- A datagram with the packet number 100 in a window of one packet. -/
theorem window_left : ¬ ∀ (plan : CntrlBlock) (status area : Bool) (start last : WindowLocals),
    WindowLocals.start plan status area = some start →
    ∀ arrivals, run (WindowLocals.step plan) start arrivals = some last → Respected plan last := by
  intro always
  obtain ⟨start, started, last, executed, outside⟩ : ∃ start,
      WindowLocals.start onePacketPlan true true = some start ∧ ∃ last,
        run (WindowLocals.step onePacketPlan) start [.datagram ⟨4, 100, 1, 1, 1⟩ true] =
          some last ∧ (99 : Int32) ∈ last.subscripts :=
    ⟨_, rfl, _, rfl, List.mem_singleton.mpr rfl⟩
  have inside :=
    (always onePacketPlan true true start last started _ executed).subscripts 99 outside
  exact absurd inside.2 (by decide)

end EveAgent.FileTrans
