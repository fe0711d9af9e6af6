import EveAgent.BubbleSort
import EveAgent.Machine

namespace EveAgent.Rtcm

section Rows

structure Day where
  startTime : Nat
  endTime : Nat
  frequent : Nat
  deriving DecidableEq, Repr

/-- A row of `collectDataTable`; the dates in seconds from the midnight before. -/
structure Row where
  collectDataIndex : Nat
  active : Bool
  startDate : Int
  endDate : Int
  days : Fin 7 → Day

/-- `RTC_IDLE_TIME` -/
def rtcIdleTime : Nat := 60

/-- `INIT_INTERVAL` -/
def initInterval : Nat := 3600

/-- `RTC_MAX_LIST_NODES` -/
def rtcMaxListNodes : Nat := 5000

def convertToSec (x : Nat) : Nat := x / 100

variable (today : Fin 7)

/-- `RTC_Get_Time_Frequency` for the present day. -/
def Row.sTime (row : Row) : Nat := convertToSec (row.days today).startTime

def Row.eTime (row : Row) : Nat := convertToSec (row.days today).endTime

def Row.freq (row : Row) : Nat := (row.days today).frequent

/-- `RTC_Within_Period` returns 0. -/
def rtcWithinPeriod (row : Row) (now : Nat) : Bool :=
  !(decide (row.endDate < row.startDate)) && decide (row.startDate ≤ (now : Int)) &&
    decide ((now : Int) ≤ row.endDate)

/-- The row takes part in a list that is formed now. -/
def Row.within (row : Row) (now : Nat) : Bool :=
  row.active && rtcWithinPeriod row now && decide (row.sTime today < now) &&
    decide (now < row.eTime today)

/-- `iInitDelay`, with its least value of a second. -/
def Row.initDelay (row : Row) (now : Nat) : Nat :=
  let delay := row.freq today - (now - row.sTime today) % row.freq today
  if delay = row.freq today then 1 else delay

def tenSeconds : Row where
  collectDataIndex := 1
  active := true
  startDate := 0
  endDate := 86400
  days := fun _ => ⟨0, 3000, 10⟩

end Rows

section Lists

structure RtcList where
  interval : Nat
  index : Nat
  deriving DecidableEq, Repr

variable (today : Fin 7)

/-- The nodes that one row may have in this interval, as they are estimated. -/
def Row.estimate (row : Row) (interval now : Nat) : Nat :=
  let aSTime := row.initDelay today now + now
  if aSTime > row.eTime today then 0
  else if row.eTime today > interval + aSTime then 1 + interval / row.freq today
  else 1 + (row.eTime today - aSTime) / row.freq today

def exceeds (interval now : Nat) : Nat → List Row → Bool
  | _, [] => false
  | iCnt, row :: rows =>
    if row.within today now && row.freq today != 0 then
      decide (iCnt + row.estimate today interval now > rtcMaxListNodes) ||
        exceeds interval now (iCnt + row.estimate today interval now) rows
    else exceeds interval now iCnt rows

/-- `RTC_Calc_Num_Nodes_Interval` halves the interval until the estimate is within the limit. -/
def halveInterval (rows : List Row) (now : Nat) : Nat → Nat → Nat
  | 0, interval => interval
  | fuel + 1, interval =>
    if interval ≠ 1 ∧ exceeds today interval now 0 rows = true then
      halveInterval rows now fuel (interval / 2)
    else interval

/-- Eleven halvings lead from `INIT_INTERVAL` to 1, where the limit is given up. -/
def rtcCalcNumNodesInterval (rows : List Row) (now : Nat) : Nat :=
  halveInterval today rows now 12 initInterval

/-- The number of nodes of one row behind its first one. -/
def Row.further (row : Row) (interval now : Nat) : Nat :=
  let aSTime := row.initDelay today now + now
  (if row.eTime today > interval + aSTime then interval / row.freq today
    else (row.eTime today - now) / row.freq today) - 1

/-- `RTC_Add_Intervals_To_List`. The node that ends the list has the largest interval of all and
is never collected; it is left out. -/
def rtcAddIntervalsToList (row : Row) (interval now : Nat) : List RtcList :=
  if row.freq today = 0 then []
  else
    (List.range (row.further today interval now + 1)).map fun k =>
      ⟨row.initDelay today now + k * row.freq today, row.collectDataIndex⟩

def formLinkedList (rows : List Row) (now : Nat) : List RtcList :=
  (rows.filter fun row => row.within today now).flatMap fun row =>
    rtcAddIntervalsToList today row (rtcCalcNumNodesInterval today rows now) now

/-- The temporary node in front has interval zero. -/
def sortLinkedList (list : List RtcList) : List RtcList :=
  (BubbleSort.bubbleSort RtcList.interval (⟨0, 0⟩ :: list)).tail

theorem sortLinkedList_eq (list : List RtcList) :
    sortLinkedList list = BubbleSort.bubbleSort RtcList.interval list := by
  have zero : RtcList.interval ⟨0, 0⟩ = 0 := rfl
  rw [sortLinkedList, BubbleSort.bubbleSort_minimal RtcList.interval zero, List.tail_cons]

theorem sortLinkedList_perm (list : List RtcList) : (sortLinkedList list).Perm list := by
  rw [sortLinkedList_eq]
  exact BubbleSort.bubbleSort_perm _ list

theorem sortLinkedList_sorted (list : List RtcList) :
    (sortLinkedList list).Pairwise fun x y => x.interval ≤ y.interval := by
  rw [sortLinkedList_eq]
  exact BubbleSort.bubbleSort_sorted _ list

end Lists

section Alarms

inductive Alarm where
  | callback
  | collect
  deriving DecidableEq, Repr

/-- The pending alarm, the list behind it and what has been collected when. -/
structure State where
  now : Nat
  alarm : Alarm
  delay : Nat
  list : List RtcList
  log : List (Nat × Nat)
  deriving DecidableEq, Repr

variable (today : Fin 7) (rows : List Row)

def rtcCallback (s : State) : State :=
  match sortLinkedList (formLinkedList today rows s.now) with
  | [] => { s with alarm := .callback, delay := rtcIdleTime, list := [] }
  | first :: rest => { s with alarm := .collect, delay := first.interval, list := first :: rest }

/-- The nodes that are collected together, and those behind them. -/
def splitDue : List RtcList → List RtcList × List RtcList
  | [] => ([], [])
  | [node] => ([node], [])
  | node :: next :: rest =>
    if node.interval = next.interval then
      (node :: (splitDue (next :: rest)).1, (splitDue (next :: rest)).2)
    else ([node], next :: rest)

def rtcCollectStoreVariables (s : State) : State :=
  let collected :=
    { s with log := s.log ++ (splitDue s.list).1.map fun node => (s.now, node.index)
             list := (splitDue s.list).2 }
  match (splitDue s.list).1.getLast?, (splitDue s.list).2 with
  | some last, next :: _ => { collected with delay := next.interval - last.interval }
  | _, _ => rtcCallback today rows collected

def step (s : State) (_ : Unit) : Option State :=
  let s := { s with now := s.now + s.delay }
  match s.alarm with
  | .callback => some (rtcCallback today rows s)
  | .collect => some (rtcCollectStoreVariables today rows s)

def started (now : Nat) : State :=
  rtcCallback today rows { now := now, alarm := .callback, delay := 0, list := [], log := [] }

end Alarms

section Due

variable {list rest : List RtcList} {first : RtcList}

theorem splitDue_append (list : List RtcList) :
    (splitDue list).1 ++ (splitDue list).2 = list := by
  induction list with
  | nil => rfl
  | cons node list ih =>
    cases list with
    | nil => rfl
    | cons next rest =>
      rw [splitDue]
      split
      · rw [List.cons_append, ih]
      · rfl

theorem splitDue_same (first : RtcList) (rest : List RtcList) :
    ∀ node ∈ (splitDue (first :: rest)).1, node.interval = first.interval := by
  induction rest generalizing first with
  | nil =>
    intro node member
    rw [List.mem_singleton.mp member]
  | cons next rest ih =>
    intro node member
    rw [splitDue] at member
    split at member
    · rename_i same
      rcases List.mem_cons.mp member with head | tail
      · rw [head]
      · exact (ih next node tail).trans same.symm
    · rw [List.mem_singleton.mp member]

theorem splitDue_filled (first : RtcList) (rest : List RtcList) :
    (splitDue (first :: rest)).1 ≠ [] := by
  cases rest with
  | nil => exact List.cons_ne_nil _ _
  | cons next rest =>
    rw [splitDue]
    split
    · exact List.cons_ne_nil _ _
    · exact List.cons_ne_nil _ _

theorem splitDue_later
    (sorted : (first :: rest).Pairwise fun x y : RtcList => x.interval ≤ y.interval) :
    ∀ node ∈ (splitDue (first :: rest)).2, first.interval < node.interval := by
  induction rest generalizing first with
  | nil =>
    intro node member
    cases member
  | cons next rest ih =>
    intro node member
    obtain ⟨below, sorted⟩ := List.pairwise_cons.mp sorted
    rw [splitDue] at member
    split at member
    · rename_i same
      rw [same]
      exact ih sorted node member
    · rename_i different
      have larger : first.interval < next.interval :=
        Nat.lt_of_le_of_ne (below next List.mem_cons_self) different
      rcases List.mem_cons.mp member with head | tail
      · rw [head]
        exact larger
      · have after := (List.pairwise_cons.mp sorted).1 node tail
        omega

theorem count_due (now index : Nat) (first : RtcList) (rest : List RtcList) :
    ((splitDue (first :: rest)).1.map fun node => (now, node.index)).count (now, index) =
      (splitDue (first :: rest)).1.count ⟨first.interval, index⟩ := by
  have same := splitDue_same first rest
  generalize (splitDue (first :: rest)).1 = due at same
  induction due with
  | nil => rfl
  | cons node due ih =>
    have head := same node List.mem_cons_self
    rw [List.map_cons, List.count_cons, List.count_cons,
      ih fun later member => same later (List.mem_cons_of_mem _ member)]
    congr 1
    cases node with
    | mk interval other =>
      obtain rfl := head
      by_cases equal : other = index
      · subst equal
        simp
      · simp [equal]

end Due

end EveAgent.Rtcm
