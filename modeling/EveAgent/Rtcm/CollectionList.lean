import EveAgent.CTypes
import EveAgent.LinkedSort
import EveAgent.Rtcm.Intervals

namespace EveAgent.Rtcm.CollectionList

open Cells

section Table

/-- The columns of one weekday: the times in centiseconds, the frequency in seconds. -/
structure DayColumns where
  startTime : UInt32
  endTime : UInt32
  frequent : Int32
  deriving DecidableEq

/-- A row of `collectDataTable`; the dates as `RTC_Convert_Date_To_Long` reads them. -/
structure Row where
  collectDataIndex : Nat
  active : Bool
  startDate : Int
  endDate : Int
  days : Fin 7 → DayColumns

structure Table where
  rows : List Row
  distinct : (rows.map Row.collectDataIndex).Nodup

/-- What `gettimeofday` and `localtime` tell: the time, its weekday and its second of the day. -/
structure Clock where
  now : Int
  tmWday : Fin 7
  seconds : Nat
  ofDay : seconds ≤ 86400

/-- Conversion to the type `unsigned long`, of 32 bits. -/
def unsignedLong (value : Int) : Int := value % 2 ^ 32

variable (clock : Clock) (row : Row)

/-- `RTC_Get_Time_Frequency` -/
def Row.sTime : Nat := convertToSec (row.days clock.tmWday).startTime.toNat

def Row.eTime : Nat := convertToSec (row.days clock.tmWday).endTime.toNat

def Row.freq : Int := (row.days clock.tmWday).frequent.toInt

/-- `RTC_Within_Period` returns 0. -/
def Row.withinPeriod : Bool :=
  !(decide (row.endDate < row.startDate)) &&
    (decide (clock.now ≥ row.startDate) && decide (clock.now ≤ row.endDate))

/-- The present time is within the start time and the end time. -/
def Row.withinTimes : Bool :=
  decide (clock.seconds > row.sTime clock) && decide (clock.seconds < row.eTime clock)

/-- `iInitDelay` -/
def Row.initDelay : Int :=
  let delay := i32 (row.freq clock -
    unsignedLong (clock.seconds - row.sTime clock) % unsignedLong (row.freq clock))
  if delay = row.freq clock then 1 else delay

/-- `ulASTime` -/
def Row.aSTime : Int := unsignedLong (row.initDelay clock + clock.seconds)

end Table

section Interval

/-- An interval of at least a second and at most `INIT_INTERVAL`. -/
abbrev Span := { interval : Nat // 1 ≤ interval ∧ interval ≤ initInterval }

def Span.half (span : Span) (more : span.1 ≠ 1) : Span :=
  ⟨span.1 / 2, by have bounds := span.2; omega⟩

variable (clock : Clock)

/-- The nodes that a row adds to `iCnt`. -/
def Row.estimate (row : Row) (interval : Nat) : Int :=
  1 + if row.eTime clock > unsignedLong (interval + row.aSTime clock) then
      (interval : Int).tdiv (row.freq clock)
    else i32 (unsignedLong (row.eTime clock - row.aSTime clock) / unsignedLong (row.freq clock))

def Row.counted (row : Row) : Bool :=
  row.active && (row.withinPeriod clock && (decide (row.freq clock ≠ 0) &&
    (row.withinTimes clock && !(decide (row.aSTime clock > row.eTime clock)))))

/-- The walk over the table, which starts again with half the interval when there are too many
nodes. -/
def calcLoop (rows : List Row) : List Row → Int → Span → Span
  | [], _, span => span
  | row :: rest, iCnt, span =>
    if row.counted clock = true then
      if more : iCnt + row.estimate clock span.1 > rtcMaxListNodes ∧ span.1 ≠ 1 then
        calcLoop rows rows 0 (span.half more.2)
      else calcLoop rows rest (iCnt + row.estimate clock span.1) span
    else calcLoop rows rest iCnt span
termination_by rest _ span => (span.1, rest.length)
decreasing_by
  · exact Prod.Lex.left _ _ (Nat.div_lt_self span.2.1 (by decide))
  · exact Prod.Lex.right _ (Nat.lt_succ_self _)
  · exact Prod.Lex.right _ (Nat.lt_succ_self _)

def rtcCalcNumNodesInterval (rows : List Row) : Span :=
  calcLoop clock rows rows 0 ⟨initInterval, by decide⟩

end Interval

section Forming

/-- `RTC_List` without its link. -/
structure ListNode where
  interval : Int
  index : Nat
  deriving DecidableEq, Repr

def lastNode : ListNode := ⟨2147483647, 65537⟩

/-- The list while it is formed: the nodes up to the one that `pstList` points to, that node, and
`*piLength`. -/
structure Forming where
  nodes : List ListNode
  current : ListNode
  length : Nat
  deriving DecidableEq, Repr

/-- A node is allocated behind the present one. -/
def Forming.next (forming : Forming) (node : ListNode) (length : Nat) : Forming :=
  ⟨forming.nodes ++ [forming.current], node, length⟩

variable (clock : Clock)

/-- The loop over `iCnt`. -/
def addFurther (row : Row) : Nat → Int → Forming → Forming
  | 0, _, forming => forming
  | iCnt + 1, iDelay, forming =>
    addFurther row iCnt (iDelay + row.freq clock)
      (forming.next ⟨iDelay, row.collectDataIndex⟩ (forming.length + 1))

/-- `iCnt` before the first node is taken off. -/
def Row.nodeCount (row : Row) (interval : Nat) : Int :=
  if row.eTime clock > unsignedLong (interval + row.aSTime clock) then
    (interval : Int).tdiv (row.freq clock)
  else i32 (unsignedLong (row.eTime clock - clock.seconds) / unsignedLong (row.freq clock))

def rtcAddIntervalsToList (interval : Nat) (forming : Forming) (row : Row) : Forming :=
  if row.freq clock = 0 then forming
  else
    let iCnt := row.nodeCount clock interval
    let iCnt := if iCnt > 0 then iCnt - 1 else iCnt
    let forming := { forming with
      current := ⟨row.initDelay clock, row.collectDataIndex⟩
      length := forming.length + 1 }
    let forming :=
      addFurther clock row iCnt.toNat (row.freq clock + row.initDelay clock) forming
    forming.next lastNode forming.length

/-- `Form_Linked_List`, on the zeroed node that `RTC_callback` allocates. -/
def formLinkedList (rows : List Row) : Forming :=
  rows.foldl (fun forming row =>
      if row.active && (row.withinPeriod clock && row.withinTimes clock) then
        rtcAddIntervalsToList clock (rtcCalcNumNodesInterval clock rows).1 forming row
      else forming)
    ⟨[], ⟨0, 0⟩, 0⟩

end Forming

section Sorting

/-- `pstP->interval > pstQ->interval` -/
def larger (p q : ListNode) : Bool := decide (p.interval > q.interval)

def sortLinkedList (fuel : Nat) (heap : Heap Nat ListNode) (pstStart : Nat) :
    Option (Heap Nat ListNode) :=
  (LinkedSort.sortBehind larger fuel heap pstStart).map Prod.fst

/-- `RTC_callback` puts a node of interval zero in front, sorts, and frees that node. -/
def sortFormed (fuel : Nat) (heap : Heap Nat ListNode) (stHead : Option Nat) (stNewHead : Nat) :
    Option (Heap Nat ListNode × Option Nat) :=
  let heap := Function.update heap stNewHead (some ⟨⟨0, 0⟩, stHead⟩)
  match sortLinkedList fuel heap stNewHead with
  | none => none
  | some heap => (heap stNewHead).map fun cell => (Function.update heap stNewHead none, cell.next)

end Sorting

section Property

variable (clock : Clock)

def Row.takesPart (row : Row) : Bool :=
  row.active && (row.withinPeriod clock && (row.withinTimes clock && decide (row.freq clock ≠ 0)))

/-- The seconds until the row is to be collected, and a second if that is now. -/
def Row.firstDelay (row : Row) : Int :=
  if (clock.seconds - row.sTime clock : Int) % row.freq clock = 0 then 1
  else row.freq clock - (clock.seconds - row.sTime clock) % row.freq clock

/-- A delay after which the row is to be collected, not beyond its end time. -/
def Row.IsDelay (row : Row) (delay : Int) : Prop :=
  (∃ k : Nat, delay = row.firstDelay clock + k * row.freq clock) ∧
    0 < delay ∧ clock.seconds + delay ≤ row.eTime clock

/-- The row has a frequency, and a delay before its end time. -/
def Row.Reaches (row : Row) : Prop :=
  0 < row.freq clock ∧ clock.seconds + row.firstDelay clock ≤ row.eTime clock

instance (row : Row) : Decidable (row.Reaches clock) :=
  inferInstanceAs (Decidable (_ ∧ _))

/-- The sort ends with the same nodes in the order of their intervals and the last node at the
end, wherever the nodes lie. -/
def Sorts (nodes : List ListNode) : Prop :=
  ∀ (heap : Heap Nat ListNode) (stHead : Option Nat) (stNewHead : Nat)
    (laid : List (Nat × ListNode)), Segment heap stHead laid none → laid.map Prod.snd = nodes →
    heap stNewHead = none →
      ∃ fuel heap' first sorted, sortFormed fuel heap stHead stNewHead = some (heap', first) ∧
        Segment heap' first sorted none ∧ sorted.Perm laid ∧
        (sorted.Pairwise fun x y => x.2.interval ≤ y.2.interval) ∧
        sorted.getLast?.map Prod.snd = some lastNode

/-- The list of a table is limited, holds delays only, and is sorted. -/
structure ListInOrder (table : Table) : Prop where
  span : 1 ≤ (rtcCalcNumNodesInterval clock table.rows).1 ∧
    (rtcCalcNumNodesInterval clock table.rows).1 ≤ initInterval
  limit : 1 < (rtcCalcNumNodesInterval clock table.rows).1 →
    (formLinkedList clock table.rows).nodes.length ≤ rtcMaxListNodes
  length : (formLinkedList clock table.rows).length = (formLinkedList clock table.rows).nodes.length
  rows : ∀ node ∈ (formLinkedList clock table.rows).nodes,
    ∃ row ∈ table.rows, row.collectDataIndex = node.index
  delays : ∀ row ∈ table.rows, ∀ node ∈ (formLinkedList clock table.rows).nodes,
    node.index = row.collectDataIndex → row.takesPart clock = true ∧ row.IsDelay clock node.interval
  sorts : (formLinkedList clock table.rows).length ≠ 0 →
    Sorts ((formLinkedList clock table.rows).nodes ++ [(formLinkedList clock table.rows).current])

end Property

section OneRow

variable {clock : Clock} {row : Row}

theorem eTime_lt (clock : Clock) (row : Row) : row.eTime clock < 42949673 := by
  have bound := (row.days clock.tmWday).endTime.toNat_lt
  simp only [Row.eTime, convertToSec]
  omega

theorem freq_range (clock : Clock) (row : Row) :
    -2 ^ 31 ≤ row.freq clock ∧ row.freq clock < 2 ^ 31 :=
  ⟨(row.days clock.tmWday).frequent.le_toInt, (row.days clock.tmWday).frequent.toInt_lt⟩

theorem takesPart_iff : row.takesPart clock = true ↔
    row.active = true ∧ row.withinPeriod clock = true ∧
      (row.sTime clock < clock.seconds ∧ clock.seconds < row.eTime clock) ∧ row.freq clock ≠ 0 := by
  simp only [Row.takesPart, Row.withinTimes, Bool.and_eq_true, decide_eq_true_eq, gt_iff_lt]

theorem unsignedLong_of_range {value : Int} (lower : 0 ≤ value) (upper : value < 2 ^ 32) :
    unsignedLong value = value := Int.emod_eq_of_lt lower upper

theorem initDelay_eq (takesPart : row.takesPart clock = true) (positive : 0 < row.freq clock) :
    row.initDelay clock = row.firstDelay clock := by
  obtain ⟨_, _, ⟨after, before⟩, _⟩ := takesPart_iff.mp takesPart
  have day := clock.ofDay
  have range := freq_range clock row
  unfold Row.initDelay Row.firstDelay
  rw [unsignedLong_of_range (by omega) (by omega), unsignedLong_of_range (by omega) (by omega)]
  have lower := Int.emod_nonneg (clock.seconds - row.sTime clock : Int) (Int.ne_of_gt positive)
  have upper := Int.emod_lt_of_pos (clock.seconds - row.sTime clock : Int) positive
  rw [i32_of_range (by omega) (by omega)]
  dsimp only
  split <;> split <;> omega

theorem firstDelay_range (positive : 0 < row.freq clock) :
    1 ≤ row.firstDelay clock ∧ row.firstDelay clock ≤ row.freq clock := by
  have lower := Int.emod_nonneg (clock.seconds - row.sTime clock : Int) (Int.ne_of_gt positive)
  have upper := Int.emod_lt_of_pos (clock.seconds - row.sTime clock : Int) positive
  unfold Row.firstDelay
  split <;> omega

theorem initDelay_negative (takesPart : row.takesPart clock = true)
    (negative : row.freq clock < 0) :
    ¬row.IsDelay clock (row.initDelay clock) := by
  obtain ⟨_, _, ⟨after, before⟩, _⟩ := takesPart_iff.mp takesPart
  have day := clock.ofDay
  have bound := eTime_lt clock row
  have range := freq_range clock row
  have same : unsignedLong (clock.seconds - row.sTime clock) % unsignedLong (row.freq clock) =
      clock.seconds - row.sTime clock := by
    rw [unsignedLong_of_range (by omega) (by omega)]
    apply Int.emod_eq_of_lt (by omega)
    unfold unsignedLong
    omega
  intro delay
  obtain ⟨_, later, inside⟩ := delay
  unfold Row.initDelay at later inside
  rw [same] at later inside
  unfold i32 at later inside
  dsimp only at later inside
  split at later <;> omega

end OneRow

section Formed

variable {clock : Clock}

def Row.nodes (clock : Clock) (interval : Nat) (row : Row) : List ListNode :=
  ⟨row.initDelay clock, row.collectDataIndex⟩ ::
    (List.range (row.nodeCount clock interval - 1).toNat).map fun k : Nat =>
      ⟨row.freq clock + row.initDelay clock + k * row.freq clock, row.collectDataIndex⟩

theorem addFurther_eq (row : Row) (iCnt : Nat) (iDelay : Int) (forming : Forming) :
    (addFurther clock row iCnt iDelay forming).nodes ++
        [(addFurther clock row iCnt iDelay forming).current] =
      forming.nodes ++ forming.current :: ((List.range iCnt).map fun k : Nat =>
        ⟨iDelay + k * row.freq clock, row.collectDataIndex⟩) ∧
      (addFurther clock row iCnt iDelay forming).length = forming.length + iCnt := by
  induction iCnt generalizing iDelay forming with
  | zero => exact ⟨rfl, rfl⟩
  | succ iCnt ih =>
    obtain ⟨nodes, length⟩ := ih (iDelay + row.freq clock)
      (forming.next ⟨iDelay, row.collectDataIndex⟩ (forming.length + 1))
    rw [addFurther, nodes, length]
    constructor
    · have later : ∀ k : Nat, iDelay + row.freq clock + k * row.freq clock =
          iDelay + ((k + 1 : Nat) : Int) * row.freq clock := by
        intro k
        push_cast
        ring
      rw [List.range_succ_eq_map, List.map_cons, List.map_map]
      simp only [Forming.next, List.append_assoc, List.singleton_append, later]
      simp [Function.comp_def]
    · simp only [Forming.next]
      omega

theorem rtcAddIntervalsToList_eq {row : Row} (freq : row.freq clock ≠ 0) (interval : Nat)
    (forming : Forming) :
    rtcAddIntervalsToList clock interval forming row =
      ⟨forming.nodes ++ row.nodes clock interval, lastNode,
        forming.length + (row.nodes clock interval).length⟩ := by
  have count : (if row.nodeCount clock interval > 0 then row.nodeCount clock interval - 1
      else row.nodeCount clock interval).toNat = (row.nodeCount clock interval - 1).toNat := by
    split <;> omega
  rw [rtcAddIntervalsToList, if_neg freq]
  dsimp only
  rw [count]
  obtain ⟨nodes, length⟩ := @addFurther_eq clock row (row.nodeCount clock interval - 1).toNat
    (row.freq clock + row.initDelay clock)
    ⟨forming.nodes, ⟨row.initDelay clock, row.collectDataIndex⟩, forming.length + 1⟩
  rw [Forming.next, nodes, length]
  simp only [Row.nodes, List.length_cons, List.length_map, List.length_range]
  congr 1
  omega

def tableNodes (clock : Clock) (interval : Nat) (rows : List Row) : List ListNode :=
  (rows.filter fun row => row.takesPart clock).flatMap fun row => row.nodes clock interval

theorem formed_eq (interval : Nat) (rows : List Row) (forming : Forming) :
    rows.foldl (fun forming row =>
        if row.active && (row.withinPeriod clock && row.withinTimes clock) then
          rtcAddIntervalsToList clock interval forming row
        else forming) forming =
      ⟨forming.nodes ++ tableNodes clock interval rows,
        if tableNodes clock interval rows = [] then forming.current else lastNode,
        forming.length + (tableNodes clock interval rows).length⟩ := by
  induction rows generalizing forming with
  | nil => simp [tableNodes]
  | cons row rows ih =>
    rw [List.foldl_cons, ih]
    cases inList : row.active && (row.withinPeriod clock && row.withinTimes clock) with
    | false =>
      have outside : row.takesPart clock = false := by
        rw [Row.takesPart, ← Bool.and_assoc, ← Bool.and_assoc, Bool.and_assoc row.active,
          inList, Bool.false_and]
      rw [if_neg Bool.false_ne_true, tableNodes, tableNodes, List.filter_cons, outside,
        if_neg Bool.false_ne_true]
    | true =>
      by_cases freq : row.freq clock = 0
      · have outside : row.takesPart clock = false := by
          simp [Row.takesPart, freq]
        rw [if_pos rfl, rtcAddIntervalsToList, if_pos freq, tableNodes, tableNodes,
          List.filter_cons, outside, if_neg Bool.false_ne_true]
      · have inside : row.takesPart clock = true := by
          rw [Row.takesPart, ← Bool.and_assoc, ← Bool.and_assoc, Bool.and_assoc row.active,
            inList, Bool.true_and, decide_eq_true freq]
        have split : tableNodes clock interval (row :: rows) =
            row.nodes clock interval ++ tableNodes clock interval rows := by
          rw [tableNodes, List.filter_cons, inside, if_pos rfl, List.flatMap_cons, tableNodes]
        have filled : ¬row.nodes clock interval ++ tableNodes clock interval rows = [] := by
          simp [Row.nodes]
        rw [if_pos rfl, rtcAddIntervalsToList_eq freq, split, if_neg filled, ite_self]
        simp only [List.append_assoc, List.length_append, Nat.add_assoc]

theorem formLinkedList_eq (rows : List Row) :
    formLinkedList clock rows =
      ⟨tableNodes clock (rtcCalcNumNodesInterval clock rows).1 rows,
        if tableNodes clock (rtcCalcNumNodesInterval clock rows).1 rows = [] then ⟨0, 0⟩
        else lastNode,
        (tableNodes clock (rtcCalcNumNodesInterval clock rows).1 rows).length⟩ := by
  rw [formLinkedList, formed_eq, List.nil_append, Nat.zero_add]

end Formed

section Reaching

variable {clock : Clock} {row : Row}

theorem aSTime_eq (takesPart : row.takesPart clock = true) (positive : 0 < row.freq clock) :
    row.aSTime clock = row.firstDelay clock + clock.seconds := by
  have day := clock.ofDay
  have range := freq_range clock row
  have first := firstDelay_range positive
  rw [Row.aSTime, initDelay_eq takesPart positive, unsignedLong_of_range (by omega) (by omega)]

theorem counts_eq (takesPart : row.takesPart clock = true) (reaches : row.Reaches clock)
    (span : Span) :
    row.nodeCount clock span.1 =
        (if (row.eTime clock : Int) > span.1 + (row.firstDelay clock + clock.seconds) then
          (span.1 : Int) / row.freq clock
        else (row.eTime clock - clock.seconds : Int) / row.freq clock) ∧
      row.estimate clock span.1 = 1 +
        (if (row.eTime clock : Int) > span.1 + (row.firstDelay clock + clock.seconds) then
          (span.1 : Int) / row.freq clock
        else (row.eTime clock - (row.firstDelay clock + clock.seconds) : Int) /
          row.freq clock) := by
  obtain ⟨_, _, ⟨after, before⟩, _⟩ := takesPart_iff.mp takesPart
  obtain ⟨positive, inside⟩ := reaches
  have day := clock.ofDay
  have bound := eTime_lt clock row
  have range := freq_range clock row
  have first := firstDelay_range positive
  have wide : (span.1 : Int) ≤ 3600 := by exact_mod_cast span.2.2
  have quotient : ∀ value : Int, 0 ≤ value → value < 42949673 →
      i32 (value / row.freq clock) = value / row.freq clock := by
    intro value lower upper
    have nonneg := Int.ediv_nonneg lower (Int.le_of_lt positive)
    have smaller := Int.ediv_le_self (row.freq clock) lower
    exact i32_of_range (by omega) (by omega)
  rw [Row.nodeCount, Row.estimate, aSTime_eq takesPart positive,
    @unsignedLong_of_range (span.1 + (row.firstDelay clock + clock.seconds)) (by omega) (by omega),
    @unsignedLong_of_range (row.freq clock) (by omega) (by omega),
    @unsignedLong_of_range (row.eTime clock - clock.seconds) (by omega) (by omega),
    @unsignedLong_of_range (row.eTime clock - (row.firstDelay clock + clock.seconds))
      (by omega) (by omega),
    quotient _ (by omega) (by omega), quotient _ (by omega) (by omega),
    Int.tdiv_eq_ediv_of_nonneg (by omega)]
  exact ⟨rfl, rfl⟩

theorem nodes_length (takesPart : row.takesPart clock = true) (reaches : row.Reaches clock)
    (span : Span) : ((row.nodes clock span.1).length : Int) ≤ row.estimate clock span.1 := by
  obtain ⟨count, estimate⟩ := counts_eq takesPart reaches span
  obtain ⟨positive, inside⟩ := reaches
  have first := firstDelay_range positive
  rw [Row.nodes, List.length_cons, List.length_map, List.length_range, count, estimate]
  split
  · have nonneg : 0 ≤ (span.1 : Int) / row.freq clock :=
      Int.ediv_nonneg (by omega) (Int.le_of_lt positive)
    omega
  · have nonneg : 0 ≤ (row.eTime clock - (row.firstDelay clock + clock.seconds) : Int) /
        row.freq clock := Int.ediv_nonneg (by omega) (Int.le_of_lt positive)
    have oneMore : (row.eTime clock - clock.seconds : Int) / row.freq clock ≤
        (row.eTime clock - (row.firstDelay clock + clock.seconds) : Int) / row.freq clock + 1 := by
      rw [← Int.add_mul_ediv_right _ 1 (Int.ne_of_gt positive)]
      exact Int.ediv_le_ediv positive (by omega)
    omega

theorem nodes_delay (takesPart : row.takesPart clock = true) (reaches : row.Reaches clock)
    (span : Span) {node : ListNode} (member : node ∈ row.nodes clock span.1) :
    row.IsDelay clock node.interval := by
  obtain ⟨count, _⟩ := counts_eq takesPart reaches span
  obtain ⟨positive, inside⟩ := reaches
  have first := firstDelay_range positive
  rcases List.mem_cons.mp member with head | later
  · rw [head, initDelay_eq takesPart positive]
    exact ⟨⟨0, by simp⟩, first.1, inside⟩
  · obtain ⟨k, range, rfl⟩ := List.mem_map.mp later
    rw [List.mem_range] at range
    rw [initDelay_eq takesPart positive]
    have fewer : ((k + 1 : Nat) : Int) ≤ row.nodeCount clock span.1 - 1 := by omega
    have shift : row.freq clock + row.firstDelay clock + k * row.freq clock =
        row.firstDelay clock + ((k + 1 : Nat) : Int) * row.freq clock := by
      push_cast
      ring
    dsimp only
    rw [shift]
    have scaled : ((k + 1 : Nat) : Int) * row.freq clock ≤
        (row.nodeCount clock span.1) * row.freq clock - row.freq clock := by
      have product := Int.mul_le_mul_of_nonneg_right fewer (Int.le_of_lt positive)
      rw [Int.sub_mul, Int.one_mul] at product
      exact product
    have positive' : 0 ≤ ((k + 1 : Nat) : Int) * row.freq clock :=
      Int.mul_nonneg (by omega) (Int.le_of_lt positive)
    refine ⟨⟨k + 1, rfl⟩, by omega, ?_⟩
    rw [count] at scaled
    split at scaled
    · have product := Int.ediv_mul_le (span.1 : Int) (Int.ne_of_gt positive)
      omega
    · have product := Int.ediv_mul_le (row.eTime clock - clock.seconds : Int)
        (Int.ne_of_gt positive)
      omega

end Reaching

section Limit

variable {clock : Clock} {rows : List Row}

/-- The estimates of the rows that are counted. -/
def estimates (clock : Clock) (interval : Nat) (rows : List Row) : Int :=
  ((rows.filter fun row => row.counted clock).map fun row => row.estimate clock interval).sum

theorem estimates_snoc (interval : Nat) (done : List Row) (row : Row) :
    estimates clock interval (done ++ [row]) = estimates clock interval done +
      if row.counted clock = true then row.estimate clock interval else 0 := by
  rw [estimates, estimates, List.filter_append, List.map_append, List.sum_append,
    List.filter_singleton]
  by_cases counted : row.counted clock = true
  · simp [counted]
  · simp [counted]

theorem calcLoop_limit {rest done : List Row} {iCnt : Int} {span : Span}
    (split : rows = done ++ rest)
    (within : 1 < span.1 → iCnt = estimates clock span.1 done ∧ iCnt ≤ rtcMaxListNodes)
    (more : 1 < (calcLoop clock rows rest iCnt span).1) :
    estimates clock (calcLoop clock rows rest iCnt span).1 rows ≤ rtcMaxListNodes := by
  fun_induction calcLoop clock rows rest iCnt span generalizing done with
  | case1 iCnt span =>
    obtain ⟨same, bound⟩ := within more
    rw [split, List.append_nil, ← same]
    exact bound
  | case2 row rest iCnt span counted exceeded ih =>
    apply @ih [] rfl _ more
    intro _
    exact ⟨rfl, by decide⟩
  | case3 row rest iCnt span counted kept ih =>
    apply @ih (done ++ [row]) _ _ more
    · rw [split, List.append_assoc, List.singleton_append]
    · intro longer
      obtain ⟨same, _⟩ := within longer
      rw [estimates_snoc, if_pos counted, same]
      refine ⟨rfl, ?_⟩
      by_contra larger
      exact kept ⟨by rw [same]; omega, by omega⟩
  | case4 row rest iCnt span skipped ih =>
    apply @ih (done ++ [row]) _ _ more
    · rw [split, List.append_assoc, List.singleton_append]
    · intro longer
      rw [estimates_snoc, if_neg skipped, Int.add_zero]
      exact within longer

theorem estimates_limit (more : 1 < (rtcCalcNumNodesInterval clock rows).1) :
    estimates clock (rtcCalcNumNodesInterval clock rows).1 rows ≤ rtcMaxListNodes := by
  apply @calcLoop_limit clock rows rows [] 0 _ rfl _ more
  intro _
  exact ⟨rfl, by decide⟩

theorem counted_of_reaches {row : Row} (takesPart : row.takesPart clock = true)
    (reaches : row.Reaches clock) : row.counted clock = true := by
  obtain ⟨active, period, times, freq⟩ := takesPart_iff.mp takesPart
  obtain ⟨positive, inside⟩ := reaches
  have late : ¬row.aSTime clock > row.eTime clock := by
    rw [aSTime_eq takesPart positive]
    omega
  simp only [Row.counted, Row.withinTimes, active, period, times, freq, late, decide_true,
    decide_false, Bool.and_true, Bool.not_false, ne_eq, not_false_eq_true]

theorem takesPart_of_counted {row : Row} (counted : row.counted clock = true) :
    row.takesPart clock = true := by
  simp only [Row.counted, Bool.and_eq_true] at counted
  obtain ⟨active, period, freq, times, _⟩ := counted
  simp only [Row.takesPart, active, period, freq, times, Bool.and_true]

theorem tableNodes_length (span : Span)
    (reach : ∀ row ∈ rows, row.takesPart clock = true → row.Reaches clock) :
    ((tableNodes clock span.1 rows).length : Int) ≤ estimates clock span.1 rows := by
  induction rows with
  | nil => exact Int.le_refl 0
  | cons row rows ih =>
    have tail := ih fun other member => reach other (List.mem_cons_of_mem _ member)
    rw [tableNodes, estimates, List.filter_cons, List.filter_cons]
    cases takesPart : row.takesPart clock with
    | true =>
      have reaches := reach row List.mem_cons_self takesPart
      rw [if_pos rfl, if_pos (counted_of_reaches takesPart reaches), List.flatMap_cons,
        List.length_append, List.map_cons, List.sum_cons]
      have head := nodes_length takesPart reaches span
      rw [tableNodes, estimates] at tail
      push_cast
      omega
    | false =>
      have skipped : ¬row.counted clock = true := by
        intro counted
        rw [takesPart_of_counted counted] at takesPart
        cases takesPart
      rw [if_neg Bool.false_ne_true, if_neg skipped]
      exact tail

end Limit

section Sorted

/-- The intervals of a list that is sorted are not negative, and smaller than that of the last
node. -/
def Between (nodes : List ListNode) : Prop :=
  ∀ node ∈ nodes, 0 ≤ node.interval ∧ node.interval < lastNode.interval

def key (node : ListNode) : Nat := node.interval.toNat

variable {nodes : List ListNode} {laid sorted : List (Nat × ListNode)}

theorem interval_nonneg (between : Between nodes) {node : ListNode}
    (member : node ∈ nodes ++ [lastNode]) : 0 ≤ node.interval := by
  rcases List.mem_append.mp member with inside | last
  · exact (between node inside).1
  · rw [List.mem_singleton.mp last]
    decide

theorem compares_key (stNewHead : Nat) (nonneg : ∀ cell ∈ laid, 0 ≤ cell.2.interval) :
    LinkedSort.Compares larger key ((stNewHead, ⟨0, 0⟩) :: laid) := by
  have all : ∀ cell ∈ (stNewHead, ⟨0, 0⟩) :: laid, 0 ≤ cell.2.interval := by
    intro cell member
    rcases List.mem_cons.mp member with head | tail
    · rw [head]
    · exact nonneg cell tail
  intro x memberX y memberY
  have lowerX := all x memberX
  have lowerY := all y memberY
  rw [larger, decide_eq_true_iff, LinkedSort.nodeKey, LinkedSort.nodeKey, key, key]
  omega

theorem last_of_sorted (between : Between nodes) (same : laid.map Prod.snd = nodes ++ [lastNode])
    (perm : sorted.Perm laid)
    (ordered : sorted.Pairwise fun x y => x.2.interval ≤ y.2.interval) :
    sorted.getLast?.map Prod.snd = some lastNode := by
  have values : (sorted.map Prod.snd).Perm (nodes ++ [lastNode]) := by
    rw [← same]
    exact perm.map Prod.snd
  rcases List.eq_nil_or_concat sorted with empty | ⟨init, last, split⟩
  · rw [empty] at values
    have lengths := values.length_eq
    simp at lengths
  rw [List.concat_eq_append] at split
  have greatest : lastNode.interval ≤ last.2.interval := by
    have member : lastNode ∈ sorted.map Prod.snd :=
      values.mem_iff.mpr (List.mem_append.mpr (.inr (List.mem_singleton.mpr rfl)))
    obtain ⟨cell, inside, value⟩ := List.mem_map.mp member
    rw [split] at ordered inside
    rcases List.mem_append.mp inside with front | back
    · rw [← value]
      exact (List.pairwise_append.mp ordered).2.2 cell front last (List.mem_singleton.mpr rfl)
    · rw [← value, List.mem_singleton.mp back]
  have member : last.2 ∈ nodes ++ [lastNode] := by
    rw [← values.mem_iff, split, List.map_append]
    exact List.mem_append.mpr (.inr (List.mem_singleton.mpr rfl))
  rw [split, List.getLast?_concat, Option.map_some]
  rcases List.mem_append.mp member with inside | here
  · have smaller := (between last.2 inside).2
    omega
  · rw [List.mem_singleton.mp here]

theorem sorts_of_between (between : Between nodes) : Sorts (nodes ++ [lastNode]) := by
  intro heap stHead stNewHead laid linked same free
  have outside : stNewHead ∉ addresses laid := by
    intro inside
    obtain ⟨cell, held⟩ := linked.held inside
    rw [free] at held
    cases held
  have nonneg : ∀ cell ∈ laid, 0 ≤ cell.2.interval := by
    intro cell member
    apply interval_nonneg between
    rw [← same]
    exact List.mem_map_of_mem member
  have whole : Segment (Function.update heap stNewHead (some ⟨⟨0, 0⟩, stHead⟩))
      (some stNewHead) ((stNewHead, ⟨0, 0⟩) :: laid) none :=
    ⟨rfl, stHead, Function.update_self .., linked.update outside _⟩
  obtain ⟨heap', pointers, executed, _, ordered, _⟩ :=
    @LinkedSort.sortBehind_bubbleSort ListNode larger key _ stNewHead ⟨0, 0⟩ laid rfl
      (compares_key stNewHead nonneg) whole
  obtain ⟨_, first, held, tail⟩ := ordered
  have perm := BubbleSort.bubbleSort_perm (LinkedSort.nodeKey key) laid
  have increasing : (BubbleSort.bubbleSort (LinkedSort.nodeKey key) laid).Pairwise
      fun x y => x.2.interval ≤ y.2.interval := by
    apply (BubbleSort.bubbleSort_sorted (LinkedSort.nodeKey key) laid).imp_of_mem
    intro x y memberX memberY below
    have lowerX := nonneg x (perm.mem_iff.mp memberX)
    have lowerY := nonneg y (perm.mem_iff.mp memberY)
    simp only [LinkedSort.nodeKey, key] at below
    omega
  refine ⟨laid.length + 1, Function.update heap' stNewHead none, first, _, ?_, ?_, perm,
    increasing, last_of_sorted between same perm increasing⟩
  · rw [sortFormed, sortLinkedList, executed, Option.map_some]
    dsimp only
    rw [held, Option.map_some]
  · apply tail.update
    intro inside
    exact outside ((perm.map Prod.fst).mem_iff.mp inside)

end Sorted

section Main

variable (table : Table) (clock : Clock)

theorem mem_tableNodes {clock : Clock} {interval : Nat} {rows : List Row} {node : ListNode} :
    node ∈ tableNodes clock interval rows ↔
      ∃ row ∈ rows, row.takesPart clock = true ∧ node ∈ row.nodes clock interval := by
  simp only [tableNodes, List.mem_flatMap, List.mem_filter, and_assoc]

theorem nodes_index {clock : Clock} {interval : Nat} {row : Row} {node : ListNode}
    (member : node ∈ row.nodes clock interval) : node.index = row.collectDataIndex := by
  rcases List.mem_cons.mp member with head | later
  · rw [head]
  · obtain ⟨_, _, rfl⟩ := List.mem_map.mp later
    rfl

theorem Table.same_row {row other : Row} (member : row ∈ table.rows) (member' : other ∈ table.rows)
    (same : row.collectDataIndex = other.collectDataIndex) : row = other :=
  List.inj_on_of_nodup_map table.distinct member member' same

theorem firstNode_mem {row : Row} (member : row ∈ table.rows)
    (takesPart : row.takesPart clock = true) :
    ⟨row.initDelay clock, row.collectDataIndex⟩ ∈ (formLinkedList clock table.rows).nodes := by
  rw [formLinkedList_eq]
  exact mem_tableNodes.mpr ⟨row, member, takesPart, List.mem_cons_self⟩

theorem listInOrder_of_reaches
    (reach : ∀ row ∈ table.rows, row.takesPart clock = true → row.Reaches clock) :
    ListInOrder clock table := by
  have formed := @formLinkedList_eq clock table.rows
  have delays : ∀ row ∈ table.rows, ∀ node ∈ (formLinkedList clock table.rows).nodes,
      node.index = row.collectDataIndex →
        row.takesPart clock = true ∧ row.IsDelay clock node.interval := by
    intro row member node inside named
    rw [formed] at inside
    obtain ⟨other, member', takesPart, held⟩ := mem_tableNodes.mp inside
    obtain rfl := table.same_row member member' (named.symm.trans (nodes_index held))
    exact ⟨takesPart, nodes_delay takesPart (reach row member takesPart) _ held⟩
  have rows : ∀ node ∈ (formLinkedList clock table.rows).nodes,
      ∃ row ∈ table.rows, row.collectDataIndex = node.index := by
    intro node inside
    rw [formed] at inside
    obtain ⟨row, member, _, held⟩ := mem_tableNodes.mp inside
    exact ⟨row, member, (nodes_index held).symm⟩
  constructor
  · exact (rtcCalcNumNodesInterval clock table.rows).2
  · intro more
    have estimated := estimates_limit more
    have counted := tableNodes_length (rtcCalcNumNodesInterval clock table.rows) reach
    rw [formed]
    dsimp only
    omega
  · rw [formed]
  · exact rows
  · exact delays
  · intro filled
    have between : Between (formLinkedList clock table.rows).nodes := by
      intro node inside
      obtain ⟨row, member, named⟩ := rows node inside
      obtain ⟨_, _, later, before⟩ := delays row member node inside named.symm
      have bound := eTime_lt clock row
      have last : lastNode.interval = 2147483647 := rfl
      omega
    have closed : (formLinkedList clock table.rows).current = lastNode := by
      rw [formed] at filled ⊢
      exact if_neg fun empty => filled (by rw [empty]; rfl)
    rw [closed]
    exact sorts_of_between between

/-- The list of a table is in order exactly if each row that takes part reaches a delay. -/
theorem listInOrder_iff :
    ListInOrder clock table ↔
      ∀ row ∈ table.rows, row.takesPart clock = true → row.Reaches clock := by
  constructor
  · intro order row member takesPart
    have inside := firstNode_mem table clock member takesPart
    obtain ⟨_, delay⟩ := order.delays row member _ inside rfl
    obtain ⟨_, _, _, freq⟩ := takesPart_iff.mp takesPart
    have positive : 0 < row.freq clock := by
      by_contra other
      exact initDelay_negative takesPart (by omega) delay
    refine ⟨positive, ?_⟩
    rw [← initDelay_eq takesPart positive]
    exact delay.2.2
  · exact listInOrder_of_reaches table clock

/-- A row that is collected once a minute up to 100 seconds after midnight. -/
def everyMinute : Row := ⟨1, true, 0, 86400, fun _ => ⟨0, 10000, 60⟩⟩

def afterMidnight : Clock := ⟨70, ⟨0, by decide⟩, 70, by decide⟩

/-- The next time of the row is 120 seconds after midnight. -/
theorem everyMinute_beyond :
    ¬∀ (table : Table) (clock : Clock), ListInOrder clock table := by
  intro order
  have takesPart : everyMinute.takesPart afterMidnight = true := by decide
  have inOrder := order ⟨[everyMinute], List.nodup_singleton _⟩ afterMidnight
  have node := firstNode_mem ⟨[everyMinute], List.nodup_singleton _⟩ afterMidnight
    List.mem_cons_self takesPart
  have inside := (inOrder.delays everyMinute List.mem_cons_self _ node rfl).2.2.2
  revert inside
  decide

end Main

end EveAgent.Rtcm.CollectionList
