import EveAgent.Machine
import EveAgent.Nuri.FreedOnce

namespace EveAgent.Nuri

section Source

/-- A line of one processor, and an entry of the array. -/
structure GstCpu where
  ulIdx : Nat
  ulUser : UInt64
  ulNice : UInt64
  ulSys : UInt64
  ulIdle : UInt64
  deriving DecidableEq, Repr

/-- An entry behind the second reading of its line; the index stays. -/
def GstCpu.difference (first line : GstCpu) : GstCpu where
  ulIdx := first.ulIdx
  ulUser := line.ulUser - first.ulUser
  ulNice := line.ulNice - first.ulNice
  ulSys := line.ulSys - first.ulSys
  ulIdle := line.ulIdle - first.ulIdle

/-- The second reading, line by line. No entry is there for a line behind the array. -/
def readAgain : List GstCpu → List GstCpu → Option (List GstCpu)
  | entries, [] => some entries
  | [], _ :: _ => none
  | first :: entries, line :: lines => (readAgain entries lines).map (first.difference line :: ·)

inductive CpuColumn where
  | CPUID
  | CPUUTILIZATION
  | CPUIDLETIME
  | CPUUSERTIME
  | CPUSYSTEMTIME
  deriving DecidableEq, Repr

/-- The comparison `1 > d > 0` is that of `1 > d`. -/
def zero_round (d : ℚ) : Nat := if d < 1 then ⌈d⌉₊ else ⌊d + 1 / 2⌋₊

def percentOf (ulTime ullTotTime : UInt64) : Nat :=
  let ullTemp := 100 * ulTime
  if ullTotTime ≠ 0 then zero_round ((ullTemp.toNat : ℚ) / ullTotTime.toNat) else 0

def GstCpu.figure (stCpuStat : GstCpu) (magic : CpuColumn) : Nat :=
  let ulUser := stCpuStat.ulUser + stCpuStat.ulNice
  let ullTotTime := stCpuStat.ulSys + stCpuStat.ulIdle + ulUser
  let ullUtilTime := stCpuStat.ulSys + ulUser
  match magic with
  | .CPUID => stCpuStat.ulIdx
  | .CPUUTILIZATION => percentOf ullUtilTime ullTotTime
  | .CPUIDLETIME => percentOf stCpuStat.ulIdle ullTotTime
  | .CPUUSERTIME => percentOf ulUser ullTotTime
  | .CPUSYSTEMTIME => percentOf stCpuStat.ulSys ullTotTime

structure CpuStats where
  cpu : CpuTable
  gpstCpuFirst : List GstCpu

/-- A request with its time, and the two readings that a refresh would make at it. -/
structure CpuRequest where
  request : Request
  magic : CpuColumn
  time : Int
  file : Option (List GstCpu)
  again : Option (List GstCpu)
  deriving DecidableEq, Repr

/-- The table of the request behind `cpuTable_Init`. -/
def CpuStats.table (stats : CpuStats) (asked : CpuRequest) : CpuTable :=
  cpuTable_Init stats.cpu asked.time (asked.file.map List.length) (asked.again.map List.length)

/-- What the array then holds: that of the first reading, if it opens, with the second one. -/
def CpuStats.entries (stats : CpuStats) (asked : CpuRequest) : Option (List GstCpu) :=
  if stats.cpu.expired asked.time then
    readAgain (asked.file.getD stats.gpstCpuFirst) (asked.again.getD [])
  else some stats.gpstCpuFirst

/-- The number of the row that is answered with. -/
def CpuStats.row (stats : CpuStats) (asked : CpuRequest) : Option Nat :=
  ((stats.table asked).table.search asked.request id).2

def CpuStats.var_cpuTable (stats : CpuStats) (asked : CpuRequest) :
    Option (CpuStats × Option Nat) :=
  (stats.entries asked).map fun entries =>
    (⟨Nuri.var_cpuTable stats.cpu asked.request asked.time (asked.file.map List.length)
        (asked.again.map List.length), entries⟩,
      (stats.row asked).bind fun iCpuIdx =>
        (entries[iCpuIdx - 1]?).map fun stCpuStat => stCpuStat.figure asked.magic)

def cpuStart : CpuStats := ⟨⟨.empty, 0, false⟩, []⟩

end Source

section Property

abbrev Readings := Option (List GstCpu) × Option (List GstCpu)

/-- The table with the readings of its last refresh. -/
structure CpuWatch where
  stats : CpuStats
  readings : Readings

/-- The readings of the refresh that a request answers from. -/
def CpuWatch.readingsFor (watch : CpuWatch) (asked : CpuRequest) : Readings :=
  if watch.stats.cpu.expired asked.time then (asked.file, asked.again) else watch.readings

def CpuWatch.step (watch : CpuWatch) (asked : CpuRequest) : Option CpuWatch :=
  (watch.stats.var_cpuTable asked).map fun answer => ⟨answer.1, watch.readingsFor asked⟩

def cpuWatchStart : CpuWatch := ⟨cpuStart, (none, none)⟩

/-- How far a counter has come from one reading to the next. -/
def grown (counter : GstCpu → UInt64) (before now : GstCpu) : Nat :=
  (counter now).toNat - (counter before).toNat

def grownUser (before now : GstCpu) : Nat :=
  grown GstCpu.ulUser before now + grown GstCpu.ulNice before now

def grownTotal (before now : GstCpu) : Nat :=
  grownUser before now + grown GstCpu.ulSys before now + grown GstCpu.ulIdle before now

def CpuColumn.grown (before now : GstCpu) : CpuColumn → Nat
  | .CPUID => 0
  | .CPUUTILIZATION => Nuri.grown GstCpu.ulSys before now + grownUser before now
  | .CPUIDLETIME => Nuri.grown GstCpu.ulIdle before now
  | .CPUUSERTIME => grownUser before now
  | .CPUSYSTEMTIME => Nuri.grown GstCpu.ulSys before now

def Neighbour (figure : Nat) (value : ℚ) : Prop :=
  (figure : ℤ) = ⌊value⌋ ∨ (figure : ℤ) = ⌈value⌉

/-- A figure of a column is that of the growth between two lines of one processor. -/
def ShareOf (magic : CpuColumn) (before now : GstCpu) (figure : Nat) : Prop :=
  match magic with
  | .CPUID => figure = before.ulIdx
  | magic => Neighbour figure (100 * magic.grown before now / grownTotal before now) ∧ figure ≤ 100

/-- The answer with a row describes the processor of this row between the two readings. -/
def Describes (watch : CpuWatch) (asked : CpuRequest) : Prop :=
  ∀ after iCpuIdx figure, watch.stats.var_cpuTable asked = some (after, some figure) →
    watch.stats.row asked = some iCpuIdx →
    ∃ first second before now, watch.readingsFor asked = (some first, some second) ∧
      first[iCpuIdx - 1]? = some before ∧ now ∈ second ∧ now.ulIdx = before.ulIdx ∧
      ShareOf asked.magic before now figure

/-- The counters of one processor, none of which has fallen, and whose growth in percent fits. -/
structure SameCpu (before now : GstCpu) : Prop where
  ulIdx : now.ulIdx = before.ulIdx
  ulUser : before.ulUser ≤ now.ulUser
  ulNice : before.ulNice ≤ now.ulNice
  ulSys : before.ulSys ≤ now.ulSys
  ulIdle : before.ulIdle ≤ now.ulIdle
  fits : 100 * grownTotal before now < 2 ^ 64

/-- A refresh that opens the file finds the same processors, line by line, when it reads it again;
one that does not writes nothing behind the array that is there. -/
def CpuWatch.Paired (watch : CpuWatch) (asked : CpuRequest) : Prop :=
  watch.stats.cpu.expired asked.time = true →
    match asked.file with
    | none => (asked.again.getD []).length ≤ watch.stats.gpstCpuFirst.length
    | some first => List.Forall₂ SameCpu first (asked.again.getD [])

end Property

section Shares

variable {before now : GstCpu}

theorem zero_round_neighbour {value : ℚ} (positive : 0 ≤ value) :
    Neighbour (zero_round value) value := by
  unfold zero_round
  split
  · right
    exact Int.natCast_ceil_eq_ceil positive
  · have half : 0 ≤ value + 1 / 2 := by positivity
    rw [Neighbour, Int.natCast_floor_eq_floor half]
    have below : ⌊value⌋ ≤ ⌊value + 1 / 2⌋ := Int.floor_mono (by linarith)
    have above : ⌊value + 1 / 2⌋ ≤ ⌈value⌉ := by
      have near : value ≤ ⌈value⌉ := Int.le_ceil value
      have bound : (⌊value + 1 / 2⌋ : ℚ) < ⌈value⌉ + 1 := by
        have floor := Int.floor_le (value + 1 / 2)
        linarith
      exact Int.lt_add_one_iff.mp (by exact_mod_cast bound)
    have close := Int.ceil_le_floor_add_one value
    omega

theorem Neighbour.le {figure bound : Nat} {value : ℚ} (neighbour : Neighbour figure value)
    (within : value ≤ bound) : figure ≤ bound := by
  have ceil : ⌈value⌉ ≤ (bound : ℤ) := Int.ceil_le.mpr (by exact_mod_cast within)
  have floor : ⌊value⌋ ≤ ⌈value⌉ := Int.floor_le_ceil value
  rcases neighbour with same | same
  · omega
  · omega

theorem percentOf_share {part total : UInt64} (within : part.toNat ≤ total.toNat)
    (fits : 100 * total.toNat < 2 ^ 64) :
    Neighbour (percentOf part total) (100 * part.toNat / total.toNat) ∧
      percentOf part total ≤ 100 := by
  have exact : (100 * part).toNat = 100 * part.toNat := by
    rw [UInt64.toNat_mul]
    exact Nat.mod_eq_of_lt (by show 100 * part.toNat < 2 ^ 64; omega)
  rw [percentOf]
  simp only [exact]
  by_cases none : total = 0
  · subst none
    simp [Neighbour]
  · have positive : 0 < total.toNat := by
      rw [Nat.pos_iff_ne_zero]
      intro zero
      exact none (UInt64.toNat_inj.mp zero)
    rw [if_pos none]
    push_cast
    have neighbour := @zero_round_neighbour ((100 * part.toNat : ℚ) / total.toNat) (by positivity)
    refine ⟨neighbour, neighbour.le ?_⟩
    rw [div_le_iff₀ (by exact_mod_cast positive)]
    exact_mod_cast Nat.mul_le_mul_left 100 within

theorem toNat_add_fits {a b : UInt64} {m n : Nat} (first : a.toNat = m) (second : b.toNat = n)
    (fits : m + n < 2 ^ 64) : (a + b).toNat = m + n := by
  rw [UInt64.toNat_add, first, second]
  exact Nat.mod_eq_of_lt fits

theorem figure_share (same : SameCpu before now) (magic : CpuColumn) :
    ShareOf magic before now ((before.difference now).figure magic) := by
  have fits := same.fits
  have total : grownTotal before now = grown GstCpu.ulSys before now +
      grown GstCpu.ulIdle before now + grownUser before now := by
    unfold grownTotal
    omega
  have parts : grownUser before now =
      grown GstCpu.ulUser before now + grown GstCpu.ulNice before now := rfl
  have idle : (now.ulIdle - before.ulIdle).toNat = grown GstCpu.ulIdle before now :=
    UInt64.toNat_sub_of_le _ _ same.ulIdle
  have sys : (now.ulSys - before.ulSys).toNat = grown GstCpu.ulSys before now :=
    UInt64.toNat_sub_of_le _ _ same.ulSys
  have user : (now.ulUser - before.ulUser + (now.ulNice - before.ulNice)).toNat =
      grownUser before now :=
    toNat_add_fits (UInt64.toNat_sub_of_le _ _ same.ulUser)
      (UInt64.toNat_sub_of_le _ _ same.ulNice) (by omega)
  have util : (now.ulSys - before.ulSys +
      (now.ulUser - before.ulUser + (now.ulNice - before.ulNice))).toNat =
        grown GstCpu.ulSys before now + grownUser before now :=
    toNat_add_fits sys user (by omega)
  have whole : (now.ulSys - before.ulSys + (now.ulIdle - before.ulIdle) +
      (now.ulUser - before.ulUser + (now.ulNice - before.ulNice))).toNat =
        grownTotal before now := by
    rw [total]
    exact toNat_add_fits (toNat_add_fits sys idle (by omega)) user (by omega)
  -- Each column shows a part of this total.
  have share : ∀ (part : UInt64) (growth : Nat), part.toNat = growth →
      growth ≤ grownTotal before now →
      Neighbour (percentOf part (now.ulSys - before.ulSys + (now.ulIdle - before.ulIdle) +
        (now.ulUser - before.ulUser + (now.ulNice - before.ulNice))))
        (100 * growth / grownTotal before now) ∧
      percentOf part (now.ulSys - before.ulSys + (now.ulIdle - before.ulIdle) +
        (now.ulUser - before.ulUser + (now.ulNice - before.ulNice))) ≤ 100 := by
    intro part growth exact within
    have inside := within
    rw [← exact, ← whole] at inside
    rw [← whole] at fits
    have shown := percentOf_share inside fits
    rwa [exact, whole] at shown
  cases magic with
  | CPUID => rfl
  | CPUUTILIZATION =>
    exact share _ (grown GstCpu.ulSys before now + grownUser before now) util (by omega)
  | CPUIDLETIME => exact share _ (grown GstCpu.ulIdle before now) idle (by omega)
  | CPUUSERTIME => exact share _ (grownUser before now) user (by omega)
  | CPUSYSTEMTIME => exact share _ (grown GstCpu.ulSys before now) sys (by omega)

end Shares

section Entries

variable {first second : List GstCpu}

theorem readAgain_paired (paired : List.Forall₂ SameCpu first second) :
    readAgain first second = some (List.zipWith GstCpu.difference first second) := by
  induction paired with
  | nil => rfl
  | cons same paired ih =>
    rw [readAgain, ih]
    rfl

theorem readAgain_fits (fits : second.length ≤ first.length) :
    ∃ entries, readAgain first second = some entries := by
  induction second generalizing first with
  | nil =>
    refine ⟨first, ?_⟩
    cases first <;> rfl
  | cons line second ih =>
    match first with
    | [] => exact absurd fits (Nat.not_succ_le_zero _)
    | entry :: first =>
      obtain ⟨entries, read⟩ := ih (Nat.le_of_succ_le_succ fits)
      rw [readAgain, read]
      exact ⟨_, rfl⟩

theorem Table.header_row (table : Table) (request : Request) (fuel : Nat) {index : Nat}
    (found : (table.header request id fuel).2 = some index) :
    table.idx ≤ index ∧ index ≤ table.cnt := by
  induction fuel generalizing table with
  | zero => cases found
  | succ fuel ih =>
    rw [Table.header, Table.getNext] at found
    by_cases more : table.idx ≤ table.cnt
    · rw [if_pos more] at found
      simp only at found
      split at found
      · cases found
        exact ⟨le_rfl, more⟩
      · obtain ⟨later, within⟩ := ih _ found
        exact ⟨Nat.le_of_succ_le later, within⟩
    · rw [if_neg more] at found
      cases found

end Entries

section Requests

variable {stats : CpuStats} {watch : CpuWatch} {asked : CpuRequest} {entries : List GstCpu}

theorem row_within {index : Nat} (found : stats.row asked = some index) :
    1 ≤ index ∧ index ≤ (stats.table asked).table.cnt := by
  obtain ⟨low, high⟩ := Table.header_row _ _ _ found
  exact ⟨(init_idx _ _ _ _).trans low, high⟩

theorem table_cnt (stats : CpuStats) (asked : CpuRequest) : (stats.table asked).table.cnt =
    if stats.cpu.expired asked.time then ((asked.file.map List.length).getD 0)
    else stats.cpu.table.cnt := by
  have loaded : ∀ file : Option Nat, (stats.cpu.restarted.load file).cnt = file.getD 0 := by
    rintro (none | n)
    · rfl
    · rw [Table.load, Table.fill]
      split
      · rename_i zero
        exact zero.symm
      · rfl
  rw [CpuStats.table]
  split
  · rename_i old
    rw [init_expired old, ← loaded]
    cases asked.again <;> rfl
  · rename_i fresh
    rw [init_fresh fresh]
    rfl

theorem answered_cnt (stats : CpuStats) (asked : CpuRequest) :
    (var_cpuTable stats.cpu asked.request asked.time (asked.file.map List.length)
      (asked.again.map List.length)).table.cnt = (stats.table asked).table.cnt := by
  have searched := Table.header_searched asked.request id ((stats.table asked).table.cnt + 1)
    (stats.table asked).table (init_idx _ _ _ _)
  rw [CpuStats.table] at searched
  rw [var_cpuTable, Table.search, CpuStats.table]
  cases result : Table.header asked.request id _ _ with
  | mk next found =>
    rw [result] at searched
    cases found with
    | none =>
      simp only
      split
      · exact searched.cnt
      · exact searched.cnt
    | some index =>
      simp only
      split
      · exact searched.cnt
      · exact searched.cnt

/-- The array is that of the readings, in which each line has one of its processor. -/
def Matched (readings : Readings) (entries : List GstCpu) (cnt : Nat) : Prop :=
  cnt = 0 ∨ ∃ first second, readings = (some first, some second) ∧
    List.Forall₂ SameCpu first second ∧ entries = List.zipWith GstCpu.difference first second

def CpuWatch.Consistent (watch : CpuWatch) : Prop :=
  Matched watch.readings watch.stats.gpstCpuFirst watch.stats.cpu.table.cnt

theorem paired_entries (consistent : watch.Consistent) (paired : watch.Paired asked) :
    ∃ entries, watch.stats.entries asked = some entries ∧
      Matched (watch.readingsFor asked) entries (watch.stats.table asked).table.cnt := by
  rw [CpuStats.entries, CpuWatch.readingsFor, table_cnt]
  by_cases old : watch.stats.cpu.expired asked.time = true
  · have readings := paired old
    simp only [if_pos old]
    cases file : asked.file with
    | none =>
      rw [file] at readings
      obtain ⟨entries, read⟩ := readAgain_fits readings
      exact ⟨entries, read, Or.inl rfl⟩
    | some first =>
      rw [file] at readings
      refine ⟨_, readAgain_paired readings, ?_⟩
      cases again : asked.again with
      | none =>
        rw [again] at readings
        cases readings
        exact Or.inl rfl
      | some second =>
        rw [again] at readings
        exact Or.inr ⟨first, second, rfl, readings, rfl⟩
  · simp only [if_neg old]
    exact ⟨_, rfl, consistent⟩

theorem step_consistent (consistent : watch.Consistent) (paired : watch.Paired asked) :
    ∃ after, watch.step asked = some after ∧ after.Consistent := by
  obtain ⟨entries, read, still⟩ := paired_entries consistent paired
  rw [CpuWatch.step, CpuStats.var_cpuTable, read]
  refine ⟨_, rfl, ?_⟩
  show Matched (watch.readingsFor asked) entries _
  rw [answered_cnt]
  exact still

theorem consistent_describes (consistent : watch.Consistent) (paired : watch.Paired asked) :
    Describes watch asked := by
  obtain ⟨entries, read, still⟩ := paired_entries consistent paired
  intro after iCpuIdx figure answered row
  rw [CpuStats.var_cpuTable, read, row] at answered
  simp only [Option.map_some, Option.bind_some, Option.some.injEq, Prod.mk.injEq] at answered
  obtain ⟨-, shown⟩ := answered
  obtain ⟨low, high⟩ := row_within row
  rcases still with none | ⟨first, second, readings, same, rows⟩
  · omega
  · obtain ⟨entry, there, shows⟩ := Option.map_eq_some_iff.mp shown
    rw [rows, List.getElem?_zipWith_eq_some] at there
    obtain ⟨before, now, line, again, rfl⟩ := there
    obtain ⟨inside, rfl⟩ := List.getElem?_eq_some_iff.mp line
    obtain ⟨within, rfl⟩ := List.getElem?_eq_some_iff.mp again
    have cpu := same.get inside within
    refine ⟨first, second, _, _, readings, line, List.getElem_mem within, cpu.ulIdx, ?_⟩
    rw [← shows]
    exact figure_share cpu asked.magic

theorem cpuTable_describes {polls : List CpuRequest}
    (paired : Machine.Along CpuWatch.step CpuWatch.Paired cpuWatchStart polls) :
    (∃ last, Machine.run CpuWatch.step cpuWatchStart polls = some last) ∧
      Machine.Along CpuWatch.step Describes cpuWatchStart polls := by
  have start : cpuWatchStart.Consistent := Or.inl rfl
  constructor
  · obtain ⟨last, executed, -⟩ := Machine.run_progress
      (fun watch asked consistent paired => step_consistent consistent paired) start paired
    exact ⟨last, executed⟩
  · refine Machine.Along.of_invariant ?_ ?_ start paired
    · intro watch asked after consistent paired stepped
      obtain ⟨other, executed, still⟩ := step_consistent consistent paired
      rw [executed] at stepped
      cases stepped
      exact still
    · intro watch asked consistent paired
      exact consistent_describes consistent paired

end Requests

end EveAgent.Nuri
