import EveAgent.Nuri.CpuFigures

namespace EveAgent.ProcMon

section Source

inductive NasCpu where
  | NAS_CPU_USER
  | NAS_CPU_KERNEL
  | NAS_CPU_WAIT
  | NAS_CPU_IDLE
  | NAS_CPU_UTIL
  deriving DecidableEq, Repr

/-- The numbers of a line; the third word counts as waiting. -/
structure CpuTimes where
  user : Nat
  wait : Nat
  kernel : Nat
  idle : Nat
  deriving DecidableEq, Repr

def sums (lines : List CpuTimes) : NasCpu → Int
  | .NAS_CPU_USER => (lines.map CpuTimes.user).sum
  | .NAS_CPU_KERNEL => (lines.map CpuTimes.kernel).sum
  | .NAS_CPU_WAIT => (lines.map CpuTimes.wait).sum
  | .NAS_CPU_IDLE => (lines.map CpuTimes.idle).sum
  | .NAS_CPU_UTIL => (lines.map CpuTimes.user).sum + (lines.map CpuTimes.kernel).sum

def curtotal (state : NasCpu → Int) : Int :=
  state .NAS_CPU_USER + state .NAS_CPU_KERNEL + state .NAS_CPU_WAIT + state .NAS_CPU_IDLE

/-- The conversion to `long`. -/
def toLong (value : ℚ) : Int := if 0 ≤ value then ⌊value⌋ else ⌈value⌉

structure PsMonCpuInfo where
  ncpus : Nat
  sampletime : Int
  total : Int
  state : NasCpu → Int
  stateUsage : NasCpu → Int
  stateUsageFloat : NasCpu → Int

/-- A call at this time; the file may not open. -/
structure CpuCall where
  curTime : Int
  file : Option (List CpuTimes)
  deriving DecidableEq, Repr

def usageFloat (growth total : Int) : Int := toLong ((growth * 10000 : ℚ) / total)

def usage (growth total : Int) : Int := toLong (usageFloat growth total / 100)

def atMost (bound value : Int) : Int := if value > bound then bound else value

/-- The sums of a file that does not open are zero. -/
def setCpuAverage (psMonCpuInfo : PsMonCpuInfo) (call : CpuCall) : PsMonCpuInfo :=
  let lines := call.file.getD []
  let state := sums lines
  let total := curtotal state - psMonCpuInfo.total
  let growth (s : NasCpu) := state s - psMonCpuInfo.state s
  let figures : (NasCpu → Int) × (NasCpu → Int) :=
    if psMonCpuInfo.sampletime < 1 then (fun _ => 0, fun _ => 0)
    else if total > 0 then
      (fun s => atMost 100 (usage (growth s) total),
        fun s => atMost 10000 (usageFloat (growth s) total))
    else (psMonCpuInfo.stateUsage, psMonCpuInfo.stateUsageFloat)
  { ncpus := lines.length
    sampletime := call.curTime
    total := curtotal state
    state := state
    stateUsage := figures.1
    stateUsageFloat := figures.2 }

def cpuInfoStart : PsMonCpuInfo := ⟨0, 0, 0, fun _ => 0, fun _ => 0, fun _ => 0⟩

end Source

section Property

/-- The figures with the reading that succeeded last. -/
structure CpuSample where
  psMonCpuInfo : PsMonCpuInfo
  lastRead : Option (List CpuTimes)

def CpuSample.step (sample : CpuSample) (call : CpuCall) : Option CpuSample :=
  some ⟨setCpuAverage sample.psMonCpuInfo call, call.file.or sample.lastRead⟩

def cpuSampleStart : CpuSample := ⟨cpuInfoStart, none⟩

/-- What a sum has grown by between two readings. -/
def growthOf (before now : List CpuTimes) (s : NasCpu) : Int := sums now s - sums before s

def totalGrowth (before now : List CpuTimes) : Int := curtotal (sums now) - curtotal (sums before)

/-- A successful reading stores the shares since the one before, and a failed one leaves what the
next shares are taken from, and the figures. -/
def StoresShares (sample : CpuSample) (call : CpuCall) : Prop :=
  let psMonCpuInfo := setCpuAverage sample.psMonCpuInfo call
  match call.file with
  | none => psMonCpuInfo.total = sample.psMonCpuInfo.total ∧
      psMonCpuInfo.state = sample.psMonCpuInfo.state ∧
      psMonCpuInfo.stateUsage = sample.psMonCpuInfo.stateUsage ∧
      psMonCpuInfo.stateUsageFloat = sample.psMonCpuInfo.stateUsageFloat
  | some now => ∀ before, sample.lastRead = some before → 0 < totalGrowth before now → ∀ s,
      psMonCpuInfo.stateUsage s =
          toLong ((100 * growthOf before now s : ℚ) / totalGrowth before now) ∧
        psMonCpuInfo.stateUsageFloat s =
          toLong ((10000 * growthOf before now s : ℚ) / totalGrowth before now)

/-- The clock stands behind its first second; no reading fails after one with counters above zero;
and no sum grows so much more than the total that its share is cut. -/
def Continued (sample : CpuSample) (call : CpuCall) : Prop :=
  1 ≤ call.curTime ∧ ∀ before, sample.lastRead = some before →
    match call.file with
    | none => curtotal (sums before) = 0
    | some now => 0 < totalGrowth before now → ∀ s,
        10000 * growthOf before now s < 10001 * totalGrowth before now

end Property

section Figures

variable {value : ℚ}

theorem toLong_neg (value : ℚ) : toLong (-value) = -toLong value := by
  unfold toLong
  rcases lt_trichotomy value 0 with negative | zero | positive
  · rw [if_pos (by linarith), if_neg (by linarith), Int.floor_neg]
  · rw [zero, neg_zero, if_pos le_rfl, Int.floor_zero, neg_zero]
  · rw [if_neg (by linarith), if_pos positive.le, Int.ceil_neg]

theorem toLong_hundredth (value : ℚ) : toLong (toLong value / 100) = toLong (value / 100) := by
  have natural : ∀ positive : ℚ, 0 ≤ positive →
      toLong (toLong positive / 100) = toLong (positive / 100) := by
    intro positive sign
    have cut : toLong positive = ⌊positive⌋ := if_pos sign
    have floor : (0 : ℚ) ≤ ⌊positive⌋ := by exact_mod_cast Int.floor_nonneg.mpr sign
    rw [cut, toLong, toLong, if_pos (by positivity), if_pos (by positivity)]
    have inner := Int.floor_div_natCast (⌊positive⌋ : ℚ) 100
    have whole := Int.floor_div_natCast positive 100
    rw [Int.floor_intCast] at inner
    exact_mod_cast inner.trans whole.symm
  rcases le_total 0 value with positive | negative
  · exact natural value positive
  · have other := natural (-value) (by linarith)
    rw [toLong_neg, Int.cast_neg, neg_div, neg_div, toLong_neg, toLong_neg] at other
    exact neg_injective other

theorem toLong_le {bound : Nat} (small : value < bound + 1) : toLong value ≤ bound := by
  unfold toLong
  split
  · have floor := Int.floor_le value
    have below : (⌊value⌋ : ℚ) < bound + 1 := by linarith
    exact Int.lt_add_one_iff.mp (by exact_mod_cast below)
  · rename_i negative
    have ceil : ⌈value⌉ ≤ 0 := Int.ceil_le.mpr (by push_cast; linarith)
    omega

theorem atMost_eq {bound number : Int} (within : number ≤ bound) : atMost bound number = number :=
  if_neg (by omega)

theorem usage_share {growth total : Int} (positive : 0 < total)
    (small : 10000 * growth < 10001 * total) :
    atMost 100 (usage growth total) = toLong ((100 * growth : ℚ) / total) ∧
      atMost 10000 (usageFloat growth total) = toLong ((10000 * growth : ℚ) / total) := by
  have above : (0 : ℚ) < total := by exact_mod_cast positive
  have below : (growth * 10000 : ℚ) / total < 10000 + 1 := by
    rw [div_lt_iff₀ above]
    have cast : (10000 * growth : ℚ) < 10001 * total := by exact_mod_cast small
    linarith
  have hundredth : usage growth total = toLong ((100 * growth : ℚ) / total) := by
    rw [usage, usageFloat, toLong_hundredth]
    congr 1
    ring
  constructor
  · rw [hundredth]
    apply atMost_eq
    have whole : ((100 : ℕ) : ℚ) + 1 = 101 := by norm_num
    apply @toLong_le _ 100
    rw [whole, div_lt_iff₀ above]
    rw [div_lt_iff₀ above] at below
    linarith
  · rw [usageFloat, mul_comm (10000 : ℚ)]
    exact atMost_eq (@toLong_le _ 10000 (by exact_mod_cast below))

end Figures

section Runs

variable {sample : CpuSample} {call : CpuCall}

/-- The figures of a call go on from the reading that succeeded last. -/
structure Based (sample : CpuSample) : Prop where
  total : sample.psMonCpuInfo.total = curtotal sample.psMonCpuInfo.state
  state : sample.psMonCpuInfo.state = sums (sample.lastRead.getD [])
  first : sample.psMonCpuInfo.sampletime < 1 → sample.lastRead = none ∧
    sample.psMonCpuInfo.stateUsage = (fun _ => 0) ∧
    sample.psMonCpuInfo.stateUsageFloat = fun _ => 0

theorem sums_zero {lines : List CpuTimes} (zero : curtotal (sums lines) = 0) :
    sums lines = sums [] := by
  simp only [curtotal, sums] at zero
  funext s
  cases s <;> simp only [sums, List.map_nil, List.sum_nil] <;> omega

theorem failed_sums (continued : Continued sample call) (failed : call.file = none) :
    sums [] = sums (sample.lastRead.getD []) := by
  cases last : sample.lastRead with
  | none => rfl
  | some before =>
    have zero := continued.2 before last
    rw [failed] at zero
    exact (sums_zero zero).symm

theorem step_based (continued : Continued sample call) :
    ∃ after, sample.step call = some after ∧ Based after := by
  refine ⟨_, rfl, rfl, ?_, ?_⟩
  · cases file : call.file with
    | none =>
      show sums (call.file.getD []) = sums (sample.lastRead.getD [])
      rw [file]
      exact failed_sums continued file
    | some now =>
      show sums (call.file.getD []) = sums now
      rw [file]
      rfl
  · intro early
    exact absurd continued.1 (not_le.mpr early)

theorem based_stores (based : Based sample) (continued : Continued sample call) :
    StoresShares sample call := by
  simp only [StoresShares]
  cases file : call.file with
  | none =>
    have same := failed_sums continued file
    have state : (setCpuAverage sample.psMonCpuInfo call).state =
        sample.psMonCpuInfo.state := by
      rw [setCpuAverage, file, based.state]
      exact same
    have total : curtotal (sums (call.file.getD [])) = sample.psMonCpuInfo.total := by
      rw [file, based.total, based.state]
      exact congrArg curtotal same
    refine ⟨total, state, ?_⟩
    rw [setCpuAverage]
    simp only [total, sub_self, lt_irrefl, if_false]
    split
    · rename_i early
      exact ⟨(based.first early).2.1.symm, (based.first early).2.2.symm⟩
    · exact ⟨rfl, rfl⟩
  | some now =>
    intro before last increased s
    have small := continued.2 before last
    rw [file] at small
    have late : ¬ sample.psMonCpuInfo.sampletime < 1 := by
      intro early
      rw [(based.first early).1] at last
      cases last
    have state : sample.psMonCpuInfo.state = sums before := by
      rw [based.state, last]
      rfl
    have total : curtotal (sums now) - sample.psMonCpuInfo.total = totalGrowth before now := by
      rw [based.total, state]
      rfl
    rw [setCpuAverage, file]
    simp only [Option.getD_some, total, state, if_neg late, gt_iff_lt, if_pos increased]
    exact usage_share increased (small increased s)

theorem setCpuAverage_stores {calls : List CpuCall}
    (continued : Machine.Along CpuSample.step Continued cpuSampleStart calls) :
    Machine.Along CpuSample.step StoresShares cpuSampleStart calls := by
  have start : Based cpuSampleStart := by
    refine ⟨rfl, ?_, fun _ => ⟨rfl, rfl, rfl⟩⟩
    funext s
    cases s <;> rfl
  refine Machine.Along.of_invariant ?_ ?_ start continued
  · intro sample call after _ continued stepped
    obtain ⟨other, executed, still⟩ := step_based continued
    rw [executed] at stepped
    cases stepped
    exact still
  · intro sample call based continued
    exact based_stores based continued

end Runs

section Results

/-- In runs whose refreshes find the processors line by line, and in which no reading fails after
one that succeeded, the figures of both agents are those of one processor, or of all, between two
readings. -/
theorem cpu_usage {polls : List Nuri.CpuRequest} {calls : List CpuCall}
    (paired : Machine.Along Nuri.CpuWatch.step Nuri.CpuWatch.Paired Nuri.cpuWatchStart polls)
    (continued : Machine.Along CpuSample.step Continued cpuSampleStart calls) :
    ((∃ last, Machine.run Nuri.CpuWatch.step Nuri.cpuWatchStart polls = some last) ∧
      Machine.Along Nuri.CpuWatch.step Nuri.Describes Nuri.cpuWatchStart polls) ∧
    Machine.Along CpuSample.step StoresShares cpuSampleStart calls :=
  ⟨Nuri.cpuTable_describes paired, setCpuAverage_stores continued⟩

/-- A GET of the user time of the first row, with these readings. -/
def userPoll (file again : Option (List Nuri.GstCpu)) : Nuri.CpuRequest :=
  ⟨⟨[4, 1], true, [4]⟩, .CPUUSERTIME, 10, file, again⟩

theorem cpu_usage_one :
    ((∃ last, Machine.run Nuri.CpuWatch.step Nuri.cpuWatchStart
          [userPoll (some [⟨0, 10, 0, 10, 80⟩]) (some [⟨0, 20, 0, 20, 160⟩])] = some last) ∧
      Machine.Along Nuri.CpuWatch.step Nuri.Describes Nuri.cpuWatchStart
        [userPoll (some [⟨0, 10, 0, 10, 80⟩]) (some [⟨0, 20, 0, 20, 160⟩])]) ∧
    Machine.Along CpuSample.step StoresShares cpuSampleStart
      [⟨1, some [⟨10, 0, 10, 80⟩]⟩, ⟨2, some [⟨20, 0, 20, 160⟩]⟩] := by
  apply cpu_usage
  · constructor
    · intro _
      refine List.Forall₂.cons ?_ List.Forall₂.nil
      constructor <;> decide
    · split <;> trivial
  · refine ⟨⟨by decide, nofun⟩, ⟨by decide, ?_⟩, trivial⟩
    intro before last
    cases last
    intro _ s
    cases s <;> decide

/-- The second reading fails and the entry stays that of the first one; and a reading that fails
takes the sums of the one before from the figures. -/
theorem readings_missing :
    ¬ Machine.Along Nuri.CpuWatch.step Nuri.Describes Nuri.cpuWatchStart
        [userPoll (some [⟨0, 10, 0, 10, 80⟩]) none] ∧
    ¬ Machine.Along CpuSample.step StoresShares cpuSampleStart
        [⟨1, some [⟨10, 0, 10, 80⟩]⟩, ⟨2, none⟩] := by
  constructor
  · rintro ⟨describes, -⟩
    obtain ⟨first, second, -, -, readings, -⟩ := describes _ _ _ rfl rfl
    cases readings
  · rintro ⟨-, ⟨total, -⟩, -⟩
    exact absurd total (by decide)

end Results

end EveAgent.ProcMon
