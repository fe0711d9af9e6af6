import EveAgent.Deviations
import EveAgent.JobSched.ReadOid
import EveAgent.Rounding

/-! The statistics of a row: the accumulators that `updateRow` adds a sample to, and what it
stores when a period is over. -/

namespace EveAgent.SysStats

open JobSched.ReadOid (DataModel)
open Rounding

section Source

def rtmDefaultInterval : Int := 1

def sysstatDefaultPeriod : Int32 := 60

/-- Conversion to `double`. -/
def double (x : ℚ) : ℚ := roundTo 53 x

/-- Conversion to `float`. -/
def float (x : ℚ) : ℚ := roundTo 24 x

structure StatRow where
  sysStatisticsPeriod : Int32
  sysStatisticsMaxValue : Int
  sysStatisticsMinValue : Int
  sysStatisticsAvgValue : Int
  /-- What `getSquareRoot` was handed for `sysStatisticsStd`. -/
  radicand : ℚ
  sysStatTotalValue : Int
  lastMaxValue : Int
  lastMinValue : Int
  lastTime : Int
  sampleCount : Int
  sysStatSquaresTotal : ℚ
  deriving DecidableEq

/-- `sysStatisticsTable_create_row` -/
def createRow : StatRow := ⟨sysstatDefaultPeriod, 0, 0, 0, 0, 0, 0, 0, 0, 0, 0⟩

def accumulate (model : DataModel) (statCtx : StatRow) (val : Int) : StatRow :=
  { statCtx with
    sampleCount := statCtx.sampleCount + 1
    lastTime := statCtx.lastTime + rtmDefaultInterval
    lastMaxValue := if statCtx.lastMaxValue < val then val else statCtx.lastMaxValue
    lastMinValue :=
      if statCtx.lastMinValue > val ∨ statCtx.lastMinValue = 0 then val else statCtx.lastMinValue
    sysStatTotalValue := model.unsignedLong (statCtx.sysStatTotalValue + val)
    sysStatSquaresTotal :=
      double (statCtx.sysStatSquaresTotal + double (val * val : Int)) }

/-- The total is unsigned, and what it is divided by or multiplied with is converted. -/
def average (model : DataModel) (statCtx : StatRow) : Int :=
  model.long (statCtx.sysStatTotalValue / model.unsignedLong statCtx.sampleCount)

/-- The products are integers; the difference and the quotient are formed in `double`, and the
parameter of `getSquareRoot` is a `float`. -/
def squareRootOf (model : DataModel) (statCtx : StatRow) (avg : Int) : ℚ :=
  let products :=
    model.unsignedLong (model.unsignedLong (model.long (2 * avg) * statCtx.sysStatTotalValue) +
      model.long (model.long (statCtx.sampleCount * avg) * avg))
  float (double (double (double products - statCtx.sysStatSquaresTotal) / statCtx.sampleCount))

def finish (model : DataModel) (statCtx : StatRow) : StatRow :=
  { statCtx with
    sysStatisticsMaxValue := statCtx.lastMaxValue
    lastMaxValue := 0
    sysStatisticsMinValue := statCtx.lastMinValue
    lastMinValue := 0
    sysStatisticsAvgValue := average model statCtx
    radicand := squareRootOf model statCtx (average model statCtx)
    sysStatTotalValue := 0
    sampleCount := 0
    lastTime := 0
    sysStatSquaresTotal := 0 }

def StatRow.over (statCtx : StatRow) : Bool :=
  statCtx.lastTime ≥ statCtx.sysStatisticsPeriod.toInt

def updateRow (model : DataModel) (statCtx : StatRow) (val : Int) : StatRow :=
  let statCtx := accumulate model statCtx val
  if statCtx.over then finish model statCtx else statCtx

/-- A sample, or a SET of `sysStatisticsPeriod`. -/
inductive Event where
  | sample (val : Int)
  | period (value : Int32)
  deriving DecidableEq, Repr

/-- The periods that a run completes: their samples, and the row behind each. -/
def completed (model : DataModel) : StatRow → List Int → List Event → List (List Int × StatRow)
  | _, _, [] => []
  | statCtx, seen, .period value :: later =>
    completed model { statCtx with sysStatisticsPeriod := value } seen later
  | statCtx, seen, .sample val :: later =>
    if (accumulate model statCtx val).over then
      (seen ++ [val], updateRow model statCtx val) ::
        completed model (updateRow model statCtx val) [] later
    else completed model (updateRow model statCtx val) (seen ++ [val]) later

end Source

section Property

/-- The sum and the squares are in the range of `long`. -/
def InRange (model : DataModel) (samples : List Int) : Prop :=
  -(model.longMax + 1) ≤ samples.sum ∧ samples.sum ≤ model.longMax ∧
    squares samples ≤ model.longMax

def Fresh (statCtx : StatRow) : Prop :=
  statCtx.sampleCount = 0 ∧ statCtx.lastTime = 0 ∧ statCtx.lastMaxValue = 0 ∧
    statCtx.lastMinValue = 0 ∧ statCtx.sysStatTotalValue = 0 ∧ statCtx.sysStatSquaresTotal = 0

/-- The row describes the samples of its period. -/
structure Describes (samples : List Int) (statCtx : StatRow) : Prop where
  greatest : IsGreatest {x | x ∈ samples} statCtx.sysStatisticsMaxValue
  least : IsLeast {x | x ∈ samples} statCtx.sysStatisticsMinValue
  average : statCtx.sysStatisticsAvgValue = samples.sum.tdiv samples.length
  deviations : samples.length * statCtx.radicand =
    (deviations statCtx.sysStatisticsAvgValue samples : Int)
  fresh : Fresh statCtx

/-- Some sample is not negative, nor is their sum; a zero that is the least of them comes last;
and the two forms of the variance agree. -/
structure Describable (samples : List Int) : Prop where
  some_nonneg : ∃ x ∈ samples, 0 ≤ x
  sum_nonneg : 0 ≤ samples.sum
  zero_last : 0 ∈ samples → (∀ x ∈ samples, 0 ≤ x) → samples.getLast? = some 0
  products : 2 * (samples.sum / samples.length) * samples.sum = squares samples

/-- What the source makes of the sum and the average in place of the squared deviations, up to the
difference from the squares. -/
def formed (model : DataModel) (samples : List Int) : Int :=
  model.unsignedLong (2 * (samples.sum / samples.length) * samples.sum +
    samples.length * (samples.sum / samples.length) ^ 2)

/-- The squares and their sums are `double`s. -/
structure UnroundedSums (samples : List Int) : Prop where
  each : ∀ x ∈ samples, Fits 53 (x * x : Int)
  sums : ∀ k, Fits 53 (squares (samples.take k) : Int)

/-- Nothing is rounded: the numbers formed of the sums are `double`s, and the quotient is a
`float`. -/
structure Unrounded (model : DataModel) (samples : List Int) : Prop
    extends UnroundedSums samples where
  products : Fits 53 (formed model samples)
  difference : Fits 53 (formed model samples - squares samples : Int)
  quotient : Fits 24 ((formed model samples - squares samples : Int) / samples.length)

end Property

section Extremes

variable {samples : List Int}

/-- The greatest value that is recorded, beginning with 0. -/
def recordedMax (samples : List Int) : Int :=
  samples.foldl (fun last val => if last < val then val else last) 0

def recordedMin (samples : List Int) : Int :=
  samples.foldl (fun last val => if last > val ∨ last = 0 then val else last) 0

theorem recordedMax_concat (samples : List Int) (val : Int) :
    recordedMax (samples ++ [val]) =
      if recordedMax samples < val then val else recordedMax samples := by
  rw [recordedMax, List.foldl_append]
  rfl

theorem recordedMin_concat (samples : List Int) (val : Int) :
    recordedMin (samples ++ [val]) =
      if recordedMin samples > val ∨ recordedMin samples = 0 then val else recordedMin samples := by
  rw [recordedMin, List.foldl_append]
  rfl

theorem recordedMax_greatest (samples : List Int) :
    IsGreatest {x | x ∈ 0 :: samples} (recordedMax samples) := by
  induction samples using List.reverseRecOn with
  | nil => exact ⟨List.mem_singleton.mpr rfl, fun x member => (List.mem_singleton.mp member).le⟩
  | append_singleton samples val ih =>
    obtain ⟨among, bound⟩ := ih
    have split : ∀ x, x ∈ 0 :: (samples ++ [val]) ↔ x ∈ 0 :: samples ∨ x = val := by
      intro x
      simp only [List.mem_cons, List.mem_append, List.not_mem_nil, or_false, or_assoc]
    rw [recordedMax_concat]
    by_cases more : recordedMax samples < val
    · rw [if_pos more]
      refine ⟨(split val).mpr (Or.inr rfl), fun x member => ?_⟩
      rcases (split x).mp member with old | same
      · exact (bound old).trans more.le
      · exact same.le
    · rw [if_neg more]
      refine ⟨(split _).mpr (Or.inl among), fun x member => ?_⟩
      rcases (split x).mp member with old | same
      · exact bound old
      · exact same ▸ not_lt.mp more

theorem recordedMax_iff :
    IsGreatest {x | x ∈ samples} (recordedMax samples) ↔ ∃ x ∈ samples, 0 ≤ x := by
  obtain ⟨among, bound⟩ := recordedMax_greatest samples
  constructor
  · intro greatest
    exact ⟨_, greatest.1, bound List.mem_cons_self⟩
  · rintro ⟨x, member, nonneg⟩
    refine ⟨?_, fun y other => bound (List.mem_cons_of_mem _ other)⟩
    rcases List.mem_cons.mp among with zero | inside
    · have same : x = recordedMax samples := by
        have least := bound (List.mem_cons_of_mem 0 member)
        omega
      exact same ▸ member
    · exact inside

theorem recordedMin_mem (filled : samples ≠ []) : recordedMin samples ∈ samples := by
  induction samples using List.reverseRecOn with
  | nil => exact absurd rfl filled
  | append_singleton samples val ih =>
    rw [recordedMin_concat]
    split
    · exact List.mem_append_right _ List.mem_cons_self
    · rename_i kept
      by_cases empty : samples = []
      · rw [empty] at kept
        exact absurd (Or.inr rfl) kept
      · exact List.mem_append_left _ (ih empty)

theorem recordedMin_nonneg (nonneg : ∀ x ∈ samples, 0 ≤ x) : 0 ≤ recordedMin samples := by
  by_cases empty : samples = []
  · rw [empty]
    exact le_rfl
  · exact nonneg _ (recordedMin_mem empty)

theorem recordedMin_le (apart : (∃ x ∈ samples, x < 0) ∨ ∀ x ∈ samples, 0 < x) :
    ∀ x ∈ samples, recordedMin samples ≤ x := by
  induction samples using List.reverseRecOn with
  | nil => simp
  | append_singleton samples val ih =>
    have recorded : ∀ x ∈ samples ++ [val], x ∈ samples ∨ x = val := by
      intro x member
      simpa using member
    intro x member
    rw [recordedMin_concat]
    by_cases before : (∃ x ∈ samples, x < 0) ∨ ∀ x ∈ samples, 0 < x
    · have old := ih before
      by_cases empty : samples = []
      · rw [empty] at member
        obtain rfl : x = val := by simpa using member
        have unset : recordedMin ([] : List Int) = 0 := rfl
        rw [empty, unset, if_pos (Or.inr rfl)]
      · have nonzero : recordedMin samples ≠ 0 := by
          rcases before with ⟨y, there, negative⟩ | positive
          · have below := old y there
            omega
          · exact (positive _ (recordedMin_mem empty)).ne'
        rcases recorded x member with inside | same
        · have below := old x inside
          split
          · rename_i chosen
            have smaller := chosen.resolve_right nonzero
            omega
          · exact below
        · split
          · exact same.ge
          · rename_i kept
            have above := (not_or.mp kept).1
            omega
    · have nonneg : ∀ y ∈ samples, 0 ≤ y := by
        intro y there
        by_contra negative
        exact before (Or.inl ⟨y, there, not_le.mp negative⟩)
      have negative : val < 0 := by
        rcases apart with ⟨y, there, negative⟩ | positive
        · rcases recorded y there with inside | same
          · exact absurd (nonneg y inside) (not_le.mpr negative)
          · exact same ▸ negative
        · exact absurd (Or.inr fun y inside => positive y (List.mem_append_left _ inside)) before
      have least := recordedMin_nonneg nonneg
      rw [if_pos (Or.inl (by omega))]
      rcases recorded x member with inside | same
      · exact negative.le.trans (nonneg x inside)
      · exact same.ge

theorem recordedMin_zero_iff (nonneg : ∀ x ∈ samples, 0 ≤ x) (filled : samples ≠ []) :
    recordedMin samples = 0 ↔ samples.getLast? = some 0 := by
  induction samples using List.reverseRecOn with
  | nil => exact absurd rfl filled
  | append_singleton samples val ih =>
    have least := recordedMin_nonneg fun x inside => nonneg x (List.mem_append_left _ inside)
    have last := nonneg val (List.mem_append_right _ List.mem_cons_self)
    rw [recordedMin_concat, List.getLast?_concat, Option.some.injEq]
    split
    · rfl
    · rename_i kept
      obtain ⟨above, nonzero⟩ := not_or.mp kept
      omega

theorem recordedMin_iff (filled : samples ≠ []) :
    IsLeast {x | x ∈ samples} (recordedMin samples) ↔
      (0 ∈ samples → (∀ x ∈ samples, 0 ≤ x) → samples.getLast? = some 0) := by
  have among := recordedMin_mem filled
  constructor
  · rintro ⟨-, bound⟩ zero nonneg
    apply (recordedMin_zero_iff nonneg filled).mp
    exact le_antisymm (bound zero) (recordedMin_nonneg nonneg)
  · intro last
    refine ⟨among, ?_⟩
    by_cases apart : (∃ x ∈ samples, x < 0) ∨ ∀ x ∈ samples, 0 < x
    · exact recordedMin_le apart
    · obtain ⟨noneNegative, notPositive⟩ := not_or.mp apart
      have nonneg : ∀ x ∈ samples, 0 ≤ x := by
        intro x member
        by_contra negative
        exact noneNegative ⟨x, member, not_le.mp negative⟩
      have zero : 0 ∈ samples := by
        by_contra absent
        apply notPositive
        intro x member
        have other : x ≠ 0 := fun same => absent (same ▸ member)
        have least := nonneg x member
        omega
      intro x member
      rw [(recordedMin_zero_iff nonneg filled).mpr (last zero nonneg)]
      exact nonneg x member

end Extremes

section Numbers

variable {model : DataModel} {value : Int} {samples : List Int} {statCtx : StatRow}

/-- The accumulators of a period that has begun with these samples. -/
structure Accumulated (model : DataModel) (samples : List Int) (statCtx : StatRow) : Prop where
  total : statCtx.sysStatTotalValue = model.unsignedLong samples.sum
  squares : UnroundedSums samples → statCtx.sysStatSquaresTotal = (squares samples : Int)
  count : statCtx.sampleCount = samples.length
  time : statCtx.lastTime = samples.length
  greatest : statCtx.lastMaxValue = recordedMax samples
  least : statCtx.lastMinValue = recordedMin samples

theorem UnroundedSums.front {val : Int} (unrounded : UnroundedSums (samples ++ [val])) :
    UnroundedSums samples := by
  refine ⟨fun x member => unrounded.each x (List.mem_append_left _ member), fun k => ?_⟩
  have front := unrounded.sums (min k samples.length)
  rwa [List.take_append_of_le_length (min_le_right _ _), ← List.take_eq_take_min] at front

theorem UnroundedSums.last {val : Int} (unrounded : UnroundedSums (samples ++ [val])) :
    double ((squares samples : Int) + double (val * val : Int)) =
      (squares (samples ++ [val]) : Int) := by
  have whole := unrounded.sums (samples ++ [val]).length
  rw [List.take_length] at whole
  have sum : ((squares samples : Int) + (val * val : Int) : ℚ) =
      (squares (samples ++ [val]) : Int) := by
    rw [squares_append, squares_cons, squares_nil]
    push_cast
    ring
  have own := unrounded.each val (List.mem_append_right _ List.mem_cons_self)
  rw [double, double, own.roundTo_eq, sum, whole.roundTo_eq]

theorem accumulate_accumulated (accumulated : Accumulated model samples statCtx) (val : Int) :
    Accumulated model (samples ++ [val]) (accumulate model statCtx val) := by
  constructor
  · show model.unsignedLong (statCtx.sysStatTotalValue + val) = _
    rw [accumulated.total, List.sum_append, List.sum_singleton, DataModel.unsignedLong,
      DataModel.unsignedLong, DataModel.unsignedLong, Int.emod_add_emod]
  · intro unrounded
    show double (statCtx.sysStatSquaresTotal + double (val * val : Int)) = _
    rw [accumulated.squares unrounded.front, unrounded.last]
  · show statCtx.sampleCount + 1 = _
    rw [accumulated.count, List.length_append]
    rfl
  · show statCtx.lastTime + 1 = _
    rw [accumulated.time, List.length_append]
    rfl
  · rw [recordedMax_concat, ← accumulated.greatest]
    rfl
  · rw [recordedMin_concat, ← accumulated.least]
    rfl

theorem unsignedLong_negative (lower : -(model.longMax + 1) ≤ value) (upper : value < 0) :
    model.unsignedLong value = value + 2 * (model.longMax + 1) := by
  rw [DataModel.unsignedLong, ← Int.add_emod_right]
  exact Int.emod_eq_of_lt (by omega) (by omega)

theorem average_iff (accumulated : Accumulated model samples statCtx)
    (range : InRange model samples)
    (filled : samples ≠ []) (few : samples.length < 2 ^ 31) :
    average model statCtx = samples.sum.tdiv samples.length ↔
      0 ≤ samples.sum ∨ samples.length = 1 := by
  obtain ⟨lower, upper, -⟩ := range
  have large := model.longMax_large
  have positive := List.length_pos_iff.mpr filled
  have count : model.unsignedLong samples.length = samples.length :=
    DataModel.unsignedLong_small (by omega) (by omega)
  rw [average, accumulated.total, accumulated.count, count]
  by_cases nonneg : 0 ≤ samples.sum
  · have quotient : 0 ≤ samples.sum / samples.length := Int.ediv_nonneg nonneg (by omega)
    have smaller : samples.sum / samples.length ≤ samples.sum := Int.ediv_le_self _ nonneg
    rw [DataModel.unsignedLong_small nonneg (by omega), DataModel.long_small (by omega) (by omega),
      Int.tdiv_eq_ediv_of_nonneg nonneg]
    exact iff_of_true rfl (Or.inl nonneg)
  · have negative : samples.sum < 0 := not_le.mp nonneg
    rw [unsignedLong_negative lower negative]
    by_cases single : samples.length = 1
    · rw [single, Nat.cast_one, Int.ediv_one, Int.tdiv_one]
      refine iff_of_true ?_ (Or.inr rfl)
      have shifted : samples.sum + 2 * (model.longMax + 1) + (model.longMax + 1) =
          samples.sum + (model.longMax + 1) + 2 * (model.longMax + 1) := by
        ring
      rw [DataModel.long, shifted, Int.add_emod_right, Int.emod_eq_of_lt (by omega) (by omega)]
      omega
    · refine iff_of_false ?_ (not_or.mpr ⟨nonneg, single⟩)
      have two : (2 : Int) ≤ samples.length := by omega
      have half : (samples.sum + 2 * (model.longMax + 1)) / samples.length ≤ model.longMax := by
        have less : samples.sum + 2 * (model.longMax + 1) < (model.longMax + 1) * 2 := by omega
        have more : (model.longMax + 1) * 2 ≤ (model.longMax + 1) * samples.length :=
          Int.mul_le_mul_of_nonneg_left two (by omega)
        exact Int.lt_add_one_iff.mp (Int.ediv_lt_of_lt_mul (by omega) (less.trans_le more))
      have one : 1 ≤ (samples.sum + 2 * (model.longMax + 1)) / samples.length :=
        Int.le_ediv_of_mul_le (by omega) (by omega)
      have below : samples.sum.tdiv samples.length ≤ 0 := by
        have opposite := Int.tdiv_nonneg (a := -samples.sum) (b := samples.length) (by omega)
          (by omega)
        rw [Int.neg_tdiv] at opposite
        omega
      rw [DataModel.long_small (by omega) half]
      omega

theorem products_iff {bound products deviation squares : Int} (lower : 0 ≤ products)
    (upper : products ≤ 2 * squares) (nonneg : 0 ≤ deviation) (within : deviation ≤ squares)
    (small : squares ≤ bound) :
    (products + deviation) % (2 * (bound + 1)) - squares = squares - products + deviation ↔
      products = squares := by
  rcases lt_or_ge (products + deviation) (2 * (bound + 1)) with fits | wraps
  · rw [Int.emod_eq_of_lt (by omega) fits]
    omega
  · have once : (products + deviation) % (2 * (bound + 1)) =
        products + deviation - 2 * (bound + 1) := by
      rw [← Int.sub_emod_right]
      exact Int.emod_eq_of_lt (by omega) (by omega)
    rw [once]
    omega

theorem squareRootOf_exact (accumulated : Accumulated model samples statCtx)
    (range : InRange model samples) (unrounded : Unrounded model samples) (filled : samples ≠ [])
    (nonneg : 0 ≤ samples.sum) :
    squareRootOf model statCtx (samples.sum / samples.length) =
      (formed model samples - squares samples : Int) / samples.length := by
  obtain ⟨lower, upper, small⟩ := range
  have positive := List.length_pos_iff.mpr filled
  have large := model.longMax_large
  have deviation := deviations_nonneg (samples.sum / samples.length) samples
  rw [deviations_eq] at deviation
  have remains := Int.ediv_mul_le samples.sum (b := samples.length) (by omega)
  have quotient : 0 ≤ samples.sum / samples.length := Int.ediv_nonneg nonneg (by omega)
  obtain ⟨sums, products, difference, final⟩ := unrounded
  have integers : model.unsignedLong
      (model.unsignedLong (model.long (2 * (samples.sum / samples.length)) * samples.sum) +
        model.long (model.long (samples.length * (samples.sum / samples.length)) *
          (samples.sum / samples.length))) = formed model samples := by
    rw [formed]
    generalize samples.sum / samples.length = avg at *
    have shortfall : avg * (avg * samples.length) ≤ avg * samples.sum :=
      Int.mul_le_mul_of_nonneg_left remains quotient
    have expanded : squares samples - 2 * avg * samples.sum + samples.length * avg ^ 2 =
        squares samples - 2 * (avg * samples.sum) + avg * (avg * samples.length) := by
      ring
    rw [expanded] at deviation
    have average : 0 ≤ avg * (avg * samples.length) :=
      Int.mul_nonneg quotient (Int.mul_nonneg quotient (by omega))
    have twice : 2 * avg ≤ model.longMax := by
      rcases le_or_gt avg 1 with one | more
      · omega
      · have less : avg * 2 ≤ avg * (avg * samples.length) := by
          apply Int.mul_le_mul_of_nonneg_left _ quotient
          exact (show (2 : Int) ≤ avg * 1 by omega).trans
            (Int.mul_le_mul_of_nonneg_left (by omega) quotient)
        omega
    have whole : 0 ≤ (samples.length : Int) * avg := Int.mul_nonneg (by omega) quotient
    have counted : (samples.length : Int) * avg ≤ model.longMax := by
      rw [mul_comm]
      omega
    have doubled : 2 * avg * samples.sum = 2 * (avg * samples.sum) := by ring
    have square : (samples.length : Int) * avg * avg = avg * (avg * samples.length) := by ring
    have squared : (samples.length : Int) * avg ^ 2 = avg * (avg * samples.length) := by ring
    have first : model.unsignedLong (2 * (avg * samples.sum)) = 2 * (avg * samples.sum) :=
      DataModel.unsignedLong_small (by omega) (by omega)
    have second : model.long (avg * (avg * samples.length)) = avg * (avg * samples.length) :=
      DataModel.long_small (by omega) (by omega)
    rw [DataModel.long_small (by omega) twice, DataModel.long_small (by omega) counted, doubled,
      square, squared, first, second]
  have ofSquares : double (double (formed model samples) - (squares samples : Int)) =
      (formed model samples - squares samples : Int) := by
    rw [double, double, products.roundTo_eq, ← Int.cast_sub, difference.roundTo_eq]
  rw [squareRootOf, accumulated.total, accumulated.count, accumulated.squares sums,
    DataModel.unsignedLong_small nonneg (by omega)]
  simp only [integers, ofSquares]
  rw [double, Int.cast_natCast, (final.mono (by decide)).roundTo_eq, float, final.roundTo_eq]

theorem squareRootOf_iff (accumulated : Accumulated model samples statCtx)
    (range : InRange model samples) (unrounded : Unrounded model samples) (filled : samples ≠ [])
    (nonneg : 0 ≤ samples.sum) :
    samples.length * squareRootOf model statCtx (samples.sum / samples.length) =
        (deviations (samples.sum / samples.length) samples : Int) ↔
      2 * (samples.sum / samples.length) * samples.sum = squares samples := by
  rw [squareRootOf_exact accumulated range unrounded filled nonneg]
  obtain ⟨-, -, small⟩ := range
  have positive := List.length_pos_iff.mpr filled
  have deviation := deviations_nonneg (samples.sum / samples.length) samples
  rw [deviations_eq] at deviation ⊢
  have remains := Int.ediv_mul_le samples.sum (b := samples.length) (by omega)
  have quotient : 0 ≤ samples.sum / samples.length := Int.ediv_nonneg nonneg (by omega)
  rw [formed]
  generalize samples.sum / samples.length = avg at *
  have shortfall : avg * (avg * samples.length) ≤ avg * samples.sum :=
    Int.mul_le_mul_of_nonneg_left remains quotient
  have doubled : 2 * avg * samples.sum = 2 * (avg * samples.sum) := by ring
  have squared : (samples.length : Int) * avg ^ 2 = avg * (avg * samples.length) := by ring
  rw [doubled, squared] at deviation ⊢
  have average : 0 ≤ avg * (avg * samples.length) :=
    Int.mul_nonneg quotient (Int.mul_nonneg quotient (by omega))
  have cancelled : (samples.length : ℚ) ≠ 0 := by
    exact_mod_cast positive.ne'
  rw [mul_div_cancel₀ _ cancelled, Int.cast_inj]
  exact products_iff (by omega) (by omega) average (by omega) small

end Numbers

section Periods

variable {model : DataModel} {samples : List Int} {statCtx : StatRow}

theorem finish_describes_iff (accumulated : Accumulated model samples statCtx)
    (range : InRange model samples) (unrounded : Unrounded model samples) (filled : samples ≠ [])
    (few : samples.length < 2 ^ 31) :
    Describes samples (finish model statCtx) ↔ Describable samples := by
  have averages := average_iff accumulated range filled few
  have greatestValue : (finish model statCtx).sysStatisticsMaxValue = recordedMax samples :=
    accumulated.greatest
  have leastValue : (finish model statCtx).sysStatisticsMinValue = recordedMin samples :=
    accumulated.least
  have averageValue : (finish model statCtx).sysStatisticsAvgValue = average model statCtx := rfl
  have rooted : (finish model statCtx).radicand =
      squareRootOf model statCtx (average model statCtx) := rfl
  constructor
  · rintro ⟨greatest, least, averaged, deviated, -⟩
    rw [greatestValue] at greatest
    rw [leastValue] at least
    rw [averageValue] at averaged
    rw [rooted, averageValue, averaged] at deviated
    have some_nonneg := recordedMax_iff.mp greatest
    have sum_nonneg : 0 ≤ samples.sum := by
      rcases averages.mp averaged with nonneg | single
      · exact nonneg
      · obtain ⟨x, same⟩ := List.length_eq_one_iff.mp single
        obtain ⟨y, member, nonneg⟩ := some_nonneg
        rw [same] at member ⊢
        simpa [List.mem_singleton.mp member] using nonneg
    rw [Int.tdiv_eq_ediv_of_nonneg sum_nonneg] at deviated
    exact ⟨some_nonneg, sum_nonneg, (recordedMin_iff filled).mp least,
      (squareRootOf_iff accumulated range unrounded filled sum_nonneg).mp deviated⟩
  · rintro ⟨some_nonneg, sum_nonneg, zero_last, products⟩
    have averaged := averages.mpr (Or.inl sum_nonneg)
    constructor
    · exact greatestValue ▸ recordedMax_iff.mpr some_nonneg
    · exact leastValue ▸ (recordedMin_iff filled).mpr zero_last
    · exact averageValue.trans averaged
    · rw [rooted, averageValue, averaged, Int.tdiv_eq_ediv_of_nonneg sum_nonneg]
      exact (squareRootOf_iff accumulated range unrounded filled sum_nonneg).mpr products
    · exact ⟨rfl, rfl, rfl, rfl, rfl, rfl⟩

theorem completed_finished {events : List Event} {seen : List Int}
    (accumulated : Accumulated model seen statCtx) (few : seen.length < 2 ^ 31 - 1) :
    ∀ period ∈ completed model statCtx seen events, ∃ statCtx',
      Accumulated model period.1 statCtx' ∧ period.1 ≠ [] ∧ period.1.length < 2 ^ 31 ∧
        period.2 = finish model statCtx' := by
  induction events generalizing statCtx seen with
  | nil => simp [completed]
  | cons event events ih =>
    cases event with
    | period value =>
      obtain ⟨total, squares, count, time, greatest, least⟩ := accumulated
      exact ih ⟨total, squares, count, time, greatest, least⟩ few
    | sample val =>
      have added := accumulate_accumulated accumulated val
      rw [completed]
      by_cases isOver : (accumulate model statCtx val).over = true
      · rw [if_pos isOver]
        have finished : updateRow model statCtx val =
            finish model (accumulate model statCtx val) := if_pos isOver
        have fresh : Accumulated model [] (finish model (accumulate model statCtx val)) :=
          ⟨by simp [finish, DataModel.unsignedLong], fun _ => rfl, rfl, rfl, rfl, rfl⟩
        intro period member
        rcases List.mem_cons.mp member with same | later
        · refine ⟨accumulate model statCtx val, ?_, ?_, ?_, ?_⟩
          · exact same ▸ added
          · simp [same]
          · simp [same]
            omega
          · rw [same]
            exact finished
        · exact ih (finished ▸ fresh) (by decide) period later
      · rw [if_neg isOver]
        have kept : updateRow model statCtx val = accumulate model statCtx val := if_neg isOver
        have time := added.time
        have early : (accumulate model statCtx val).lastTime <
            (accumulate model statCtx val).sysStatisticsPeriod.toInt := by
          simpa [StatRow.over] using isOver
        have bound := (accumulate model statCtx val).sysStatisticsPeriod.toInt_lt
        exact ih (kept ▸ added) (by omega)

/-- For every run of samples and SETs of the period from a new row: a completed period in the
range of `long` for which nothing is rounded is described exactly when it is describable. -/
theorem periods_described_iff (model : DataModel) (events : List Event) :
    ∀ period ∈ completed model createRow [] events, InRange model period.1 →
      Unrounded model period.1 → (Describes period.1 period.2 ↔ Describable period.1) := by
  intro period member range unrounded
  obtain ⟨statCtx', accumulated, filled, few, same⟩ :=
    completed_finished ⟨by simp [createRow, DataModel.unsignedLong], fun _ => rfl, rfl, rfl, rfl,
      rfl⟩ (by decide) period member
  rw [same]
  exact finish_describes_iff accumulated range unrounded filled few

/-- The period of the samples 2 and 0 is described. -/
theorem periods_described_twoZero :
    ∃ row, ([2, 0], row) ∈ completed .lp64 createRow [] [.period 2, .sample 2, .sample 0] ∧
      Describes [2, 0] row := by
  have member : ([2, 0], updateRow .lp64
      (updateRow .lp64 { createRow with sysStatisticsPeriod := 2 } 2) 0) ∈
        completed .lp64 createRow [] [.period 2, .sample 2, .sample 0] :=
    List.mem_cons_self
  have range : InRange .lp64 [2, 0] := ⟨by decide, by decide, by decide⟩
  have unrounded : Unrounded .lp64 [2, 0] := by
    refine ⟨⟨?_, ?_⟩, fits_intCast (by decide), fits_intCast (by decide), ?_⟩
    · intro x member
      fin_cases member <;> exact fits_intCast (by decide)
    · rintro (_ | _ | k)
      · exact fits_intCast (by decide)
      · exact fits_intCast (by decide)
      · rw [List.take_of_length_le (by simp)]
        exact fits_intCast (by decide)
    · have one : ((formed .lp64 [2, 0] - squares [2, 0] : Int) : ℚ) / ([2, 0] : List Int).length =
          (1 : Int) := by
        have two : formed .lp64 [2, 0] - squares [2, 0] = 2 := by decide
        rw [two]
        norm_num
      rw [one]
      exact fits_intCast (by decide)
  have describable : Describable [2, 0] :=
    ⟨⟨2, by decide⟩, by decide, fun _ _ => rfl, by decide⟩
  exact ⟨_, member, (periods_described_iff .lp64 _ _ member range unrounded).mpr describable⟩

/-- The deviations of the single sample 5 from itself are 0, but the square root is taken of 50. -/
theorem five_not_described :
    ¬ ∀ period ∈ completed .lp64 createRow [] [.period 1, .sample 5],
      InRange .lp64 period.1 → Describes period.1 period.2 := by
  intro described
  have range : InRange .lp64 [5] := ⟨by decide, by decide, by decide⟩
  have unrounded : Unrounded .lp64 [5] := by
    refine ⟨⟨?_, ?_⟩, fits_intCast (by decide), fits_intCast (by decide), ?_⟩
    · intro x member
      fin_cases member
      exact fits_intCast (by decide)
    · rintro (_ | k)
      · exact fits_intCast (by decide)
      · rw [List.take_of_length_le (by simp)]
        exact fits_intCast (by decide)
    · rw [List.length_singleton, Nat.cast_one, div_one]
      exact fits_intCast (by decide)
  have accumulated : Accumulated .lp64 [5]
      (accumulate .lp64 { createRow with sysStatisticsPeriod := 1 } 5) :=
    @accumulate_accumulated .lp64 [] { createRow with sysStatisticsPeriod := 1 }
      ⟨rfl, fun _ => rfl, rfl, rfl, rfl, rfl⟩ 5
  have row := described ([5], updateRow .lp64 { createRow with sysStatisticsPeriod := 1 } 5)
    List.mem_cons_self range
  have describable :=
    (finish_describes_iff accumulated range unrounded (by decide) (by decide)).mp row
  exact absurd describable.products (by decide)

end Periods

end EveAgent.SysStats
