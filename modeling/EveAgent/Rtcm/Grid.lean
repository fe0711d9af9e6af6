import EveAgent.Rtcm.Intervals

/-! Sampling on the grid of a row: what the list of intervals has to hold, and what the alarms then
collect. -/

namespace EveAgent.Rtcm

open Machine

section Property

variable (today : Fin 7)

/-- The times at which the row is to be collected today. -/
def Row.OnGrid (row : Row) (time : Nat) : Prop :=
  ∃ k, time = row.sTime today + k * row.freq today ∧ row.sTime today < time ∧
    time < row.eTime today

theorem Row.onGrid_iff (row : Row) (time : Nat) :
    row.OnGrid today time ↔
      row.sTime today < time ∧ time < row.eTime today ∧
        (time - row.sTime today) % row.freq today = 0 := by
  constructor
  · intro grid
    obtain ⟨k, same, after, before⟩ := grid
    refine ⟨after, before, ?_⟩
    rw [same, Nat.add_sub_cancel_left, Nat.mul_mod_left]
  · intro grid
    obtain ⟨after, before, divides⟩ := grid
    refine ⟨(time - row.sTime today) / row.freq today, ?_, after, before⟩
    rw [Nat.div_mul_cancel (Nat.dvd_of_mod_eq_zero divides)]
    omega

instance (row : Row) (time : Nat) : Decidable (row.OnGrid today time) :=
  decidable_of_iff _ (row.onGrid_iff today time).symm

/-- Up to now each active row has been collected once at each of its times behind the start of
the run, and at no other time. -/
def Sampled (rows : List Row) (start : Nat) (s : State) : Prop :=
  ∀ row ∈ rows, row.active = true → ∀ time ≤ s.now,
    s.log.count (time, row.collectDataIndex) =
      if start < time ∧ row.OnGrid today time then 1 else 0

def midnight : Nat := 86400

/-- Dates that contain the whole day, and times that make sense. -/
structure WholeDay (row : Row) : Prop where
  dates : ∀ now < midnight, rtcWithinPeriod row now = true
  times : row.sTime today < row.eTime today
  freq : 1 ≤ row.freq today

def Row.lastDelay (rows : List Row) (row : Row) (now : Nat) : Nat :=
  row.initDelay today now +
    row.further today (rtcCalcNumNodesInterval today rows now) now * row.freq today

/-- How long the list lasts that is formed now. -/
def horizon (rows : List Row) (now : Nat) : Nat :=
  (((rows.filter fun row => row.within today now).map fun row =>
    row.lastDelay today rows now).max?).getD rtcIdleTime

/-- A row that is within its times is not on its grid, has its last node before its end, and
no later time on the grid until the list is exhausted; any other row has no time on its grid
until then. -/
def Row.Fits (rows : List Row) (row : Row) (now : Nat) : Prop :=
  if row.within today now then
    (row.freq today = 1 ∨ (now - row.sTime today) % row.freq today ≠ 0) ∧
      now + row.lastDelay today rows now < row.eTime today ∧
      (horizon today rows now < row.lastDelay today rows now + row.freq today ∨
        row.eTime today ≤ now + row.lastDelay today rows now + row.freq today)
  else
    row.eTime today ≤ now ∨ now + horizon today rows now < row.sTime today + row.freq today ∨
      row.eTime today ≤ row.sTime today + row.freq today

def ListFits (rows : List Row) (now : Nat) : Prop :=
  ∀ row ∈ rows, row.active = true → row.Fits today rows now

def Forms (s : State) : Prop := s.alarm = .callback ∨ (splitDue s.list).2 = []

/-- The alarm expires before midnight, and a list that it forms fits. -/
def FormsFit (rows : List Row) (s : State) (_ : Unit) : Prop :=
  s.now + s.delay < midnight ∧ (Forms s → ListFits today rows (s.now + s.delay))

instance Row.Fits.decidable (rows : List Row) (row : Row) (now : Nat) :
    Decidable (row.Fits today rows now) := by
  unfold Row.Fits
  infer_instance

instance (rows : List Row) (now : Nat) : Decidable (ListFits today rows now) :=
  inferInstanceAs (Decidable (∀ row ∈ rows, _ → _))

instance (rows : List Row) (s : State) (turn : Unit) : Decidable (FormsFit today rows s turn) :=
  inferInstanceAs (Decidable (_ ∧ ((s.alarm = .callback ∨ (splitDue s.list).2 = []) → _)))

end Property

section OneRow

variable {today : Fin 7} {rows : List Row} {row : Row} {now delay : Nat}

theorem initDelay_grid (freq : 1 ≤ row.freq today)
    (off : row.freq today = 1 ∨ (now - row.sTime today) % row.freq today ≠ 0) :
    row.initDelay today now = row.freq today - (now - row.sTime today) % row.freq today := by
  unfold Row.initDelay
  dsimp only
  rcases off with one | off
  · rw [one, Nat.mod_one]
    rfl
  · have positive : 0 < (now - row.sTime today) % row.freq today := Nat.pos_of_ne_zero off
    rw [if_neg (by omega)]

theorem initDelay_pos (freq : 1 ≤ row.freq today) : 1 ≤ row.initDelay today now := by
  have below : (now - row.sTime today) % row.freq today < row.freq today :=
    Nat.mod_lt _ freq
  unfold Row.initDelay
  dsimp only
  split
  · exact Nat.le_refl 1
  · omega

theorem onGrid_delay (freq : 1 ≤ row.freq today) (after : row.sTime today < now)
    (off : row.freq today = 1 ∨ (now - row.sTime today) % row.freq today ≠ 0) (later : 1 ≤ delay) :
    row.OnGrid today (now + delay) ↔
      (∃ k, delay = row.initDelay today now + k * row.freq today) ∧
        now + delay < row.eTime today := by
  rw [initDelay_grid freq off]
  have split := Nat.div_add_mod (now - row.sTime today) (row.freq today)
  have below : (now - row.sTime today) % row.freq today < row.freq today := Nat.mod_lt _ freq
  generalize quotient : (now - row.sTime today) / row.freq today = q at split
  generalize remainder : (now - row.sTime today) % row.freq today = r at split below ⊢
  constructor
  · intro grid
    obtain ⟨k, same, _, before⟩ := grid
    refine ⟨⟨k - (q + 1), ?_⟩, before⟩
    have larger : q + 1 ≤ k := by
      by_contra smaller
      have bound : k * row.freq today ≤ q * row.freq today :=
        Nat.mul_le_mul_right _ (by omega)
      rw [Nat.mul_comm q] at bound
      omega
    obtain ⟨j, rfl⟩ := Nat.exists_eq_add_of_le larger
    rw [Nat.add_sub_cancel_left]
    have expand : (q + 1 + j) * row.freq today =
        row.freq today * q + row.freq today + j * row.freq today := by ring
    omega
  · intro both
    obtain ⟨⟨k, same⟩, before⟩ := both
    refine ⟨q + 1 + k, ?_, by omega, before⟩
    have expand : (q + 1 + k) * row.freq today =
        row.freq today * q + row.freq today + k * row.freq today := by ring
    omega

theorem count_rowNodes (freq : 1 ≤ row.freq today) (interval : Nat) :
    (rtcAddIntervalsToList today row interval now).count ⟨delay, row.collectDataIndex⟩ =
      if ∃ k ≤ row.further today interval now,
          delay = row.initDelay today now + k * row.freq today then 1 else 0 := by
  have positive : row.freq today ≠ 0 := Nat.ne_of_gt freq
  have distinct : (rtcAddIntervalsToList today row interval now).Nodup := by
    rw [rtcAddIntervalsToList, if_neg positive]
    apply List.Nodup.map _ List.nodup_range
    intro a b same
    have equal := (RtcList.mk.inj same).1
    exact Nat.eq_of_mul_eq_mul_right freq (Nat.add_left_cancel equal)
  have member : (⟨delay, row.collectDataIndex⟩ : RtcList) ∈
      rtcAddIntervalsToList today row interval now ↔
      ∃ k ≤ row.further today interval now,
        delay = row.initDelay today now + k * row.freq today := by
    rw [rtcAddIntervalsToList, if_neg positive, List.mem_map]
    constructor
    · intro found
      obtain ⟨k, inside, same⟩ := found
      exact ⟨k, Nat.le_of_lt_succ (List.mem_range.mp inside), (RtcList.mk.inj same).1.symm⟩
    · intro found
      obtain ⟨k, inside, same⟩ := found
      exact ⟨k, List.mem_range.mpr (Nat.lt_succ_of_le inside), by rw [same]⟩
  rw [List.Nodup.count distinct]
  simp only [member]

theorem count_otherNodes {other : Row} (different : other.collectDataIndex ≠ row.collectDataIndex)
    (interval : Nat) :
    (rtcAddIntervalsToList today other interval now).count ⟨delay, row.collectDataIndex⟩ = 0 := by
  apply List.count_eq_zero_of_not_mem
  intro member
  unfold rtcAddIntervalsToList at member
  split at member
  · cases member
  · obtain ⟨k, _, same⟩ := List.mem_map.mp member
    exact different (RtcList.mk.inj same).2

theorem count_nodes {all : List Row} (interval : Nat)
    (distinct : (all.map Row.collectDataIndex).Nodup) (member : row ∈ all) :
    ((all.filter fun row => row.within today now).flatMap fun row =>
        rtcAddIntervalsToList today row interval now).count ⟨delay, row.collectDataIndex⟩ =
      if row.within today now then
        (rtcAddIntervalsToList today row interval now).count ⟨delay, row.collectDataIndex⟩
      else 0 := by
  have others : ∀ rows : List Row, row.collectDataIndex ∉ rows.map Row.collectDataIndex →
      ((rows.filter fun row => row.within today now).flatMap fun row =>
        rtcAddIntervalsToList today row interval now).count ⟨delay, row.collectDataIndex⟩ = 0 := by
    intro rows fresh
    rw [List.count_flatMap, List.sum_eq_zero]
    intro count counted
    obtain ⟨other, kept, rfl⟩ := List.mem_map.mp counted
    apply count_otherNodes
    intro same
    exact fresh (List.mem_map.mpr ⟨other, (List.mem_filter.mp kept).1, same⟩)
  induction all with
  | nil => cases member
  | cons first all ih =>
    obtain ⟨fresh, distinct⟩ := List.nodup_cons.mp distinct
    rcases List.mem_cons.mp member with same | later
    · subst same
      cases within : row.within today now with
      | true =>
        simp only [List.filter_cons, within, if_true]
        rw [List.flatMap_cons, List.count_append, others all fresh, Nat.add_zero]
      | false =>
        simp only [List.filter_cons, within, Bool.false_eq_true, if_false]
        exact others all fresh
    · have different : first.collectDataIndex ≠ row.collectDataIndex := by
        intro same
        exact fresh (List.mem_map.mpr ⟨row, later, same.symm⟩)
      cases within : first.within today now with
      | true =>
        simp only [List.filter_cons, within, if_true]
        rw [List.flatMap_cons, List.count_append, count_otherNodes different, Nat.zero_add,
          ih distinct later]
      | false =>
        simp only [List.filter_cons, within, Bool.false_eq_true, if_false]
        exact ih distinct later

end OneRow

section Formed

variable {today : Fin 7} {rows : List Row} {row : Row} {now delay : Nat}

/-- The rows have keys, and those that are active have times. -/
structure TableOk (today : Fin 7) (rows : List Row) : Prop where
  distinct : (rows.map Row.collectDataIndex).Nodup
  whole : ∀ row ∈ rows, row.active = true → WholeDay today row

theorem within_times (within : row.within today now = true) :
    row.active = true ∧ row.sTime today < now ∧ now < row.eTime today := by
  simp only [Row.within, Bool.and_eq_true, decide_eq_true_eq] at within
  exact ⟨within.1.1.1, within.1.2, within.2⟩

theorem lastDelay_mem (ok : TableOk today rows) (member : row ∈ rows)
    (within : row.within today now = true) :
    (⟨row.lastDelay today rows now, row.collectDataIndex⟩ : RtcList) ∈
      formLinkedList today rows now := by
  have freq := (ok.whole row member (within_times within).1).freq
  apply List.mem_flatMap.mpr
  refine ⟨row, List.mem_filter.mpr ⟨member, within⟩, ?_⟩
  rw [rtcAddIntervalsToList, if_neg (Nat.ne_of_gt freq)]
  apply List.mem_map.mpr
  exact ⟨_, List.mem_range.mpr (Nat.lt_succ_self _), rfl⟩

theorem formed_interval (ok : TableOk today rows) {node : RtcList}
    (inside : node ∈ formLinkedList today rows now) :
    1 ≤ node.interval ∧ node.interval ≤ horizon today rows now := by
  obtain ⟨row, kept, member⟩ := List.mem_flatMap.mp inside
  obtain ⟨present, within⟩ := List.mem_filter.mp kept
  have freq := (ok.whole row present (within_times within).1).freq
  rw [rtcAddIntervalsToList, if_neg (Nat.ne_of_gt freq)] at member
  obtain ⟨k, range, rfl⟩ := List.mem_map.mp member
  have further := Nat.le_of_lt_succ (List.mem_range.mp range)
  constructor
  · have positive : 1 ≤ row.initDelay today now := initDelay_pos freq
    dsimp only
    omega
  · have last : row.initDelay today now + k * row.freq today ≤ row.lastDelay today rows now :=
      Nat.add_le_add_left (Nat.mul_le_mul_right _ further) _
    have listed : row.lastDelay today rows now ∈
        (rows.filter fun row => row.within today now).map fun row =>
          row.lastDelay today rows now := List.mem_map.mpr ⟨row, kept, rfl⟩
    cases largest : ((rows.filter fun row => row.within today now).map fun row =>
        row.lastDelay today rows now).max? with
    | none =>
      rw [List.max?_eq_none_iff.mp largest] at listed
      cases listed
    | some m =>
      have bound := (List.max?_eq_some_iff.mp largest).2 _ listed
      rw [horizon, largest, Option.getD_some]
      exact Nat.le_trans last bound

theorem horizon_attained (ok : TableOk today rows) (filled : formLinkedList today rows now ≠ []) :
    ∃ node ∈ formLinkedList today rows now, node.interval = horizon today rows now := by
  cases largest : ((rows.filter fun row => row.within today now).map fun row =>
      row.lastDelay today rows now).max? with
  | none =>
    have none := List.map_eq_nil_iff.mp (List.max?_eq_none_iff.mp largest)
    rw [formLinkedList, none] at filled
    exact absurd rfl filled
  | some m =>
    obtain ⟨row, kept, same⟩ := List.mem_map.mp (List.max?_eq_some_iff.mp largest).1
    obtain ⟨present, within⟩ := List.mem_filter.mp kept
    refine ⟨_, lastDelay_mem ok present within, ?_⟩
    rw [horizon, largest, Option.getD_some]
    exact same

theorem horizon_idle (ok : TableOk today rows) (empty : formLinkedList today rows now = []) :
    horizon today rows now = rtcIdleTime ∧ ∀ row ∈ rows, row.within today now = false := by
  have outside : ∀ row ∈ rows, row.within today now = false := by
    intro row member
    rw [← Bool.not_eq_true]
    intro within
    have listed := lastDelay_mem ok member within
    rw [empty] at listed
    cases listed
  have none : (rows.filter fun row => row.within today now) = [] := by
    rw [List.filter_eq_nil_iff]
    intro row member within
    rw [outside row member] at within
    cases within
  constructor
  · rw [horizon, none]
    rfl
  · exact outside

theorem formed_count (ok : TableOk today rows) (fits : ListFits today rows now)
    (member : row ∈ rows) (active : row.active = true) (later : 1 ≤ delay)
    (lasts : delay ≤ horizon today rows now) :
    (formLinkedList today rows now).count ⟨delay, row.collectDataIndex⟩ =
      if row.OnGrid today (now + delay) then 1 else 0 := by
  have whole := ok.whole row member active
  have fit := fits row member active
  rw [formLinkedList, count_nodes (rtcCalcNumNodesInterval today rows now) ok.distinct member]
  cases within : row.within today now with
  | true =>
    rw [Row.Fits, if_pos within] at fit
    obtain ⟨off, before, behind⟩ := fit
    have same : (∃ k ≤ row.further today (rtcCalcNumNodesInterval today rows now) now,
        delay = row.initDelay today now + k * row.freq today) ↔
        row.OnGrid today (now + delay) := by
      rw [onGrid_delay whole.freq (within_times within).2.1 off later]
      constructor
      · intro node
        obtain ⟨k, few, equal⟩ := node
        refine ⟨⟨k, equal⟩, ?_⟩
        have bound : k * row.freq today ≤
            row.further today (rtcCalcNumNodesInterval today rows now) now *
              row.freq today := Nat.mul_le_mul_right _ few
        rw [Row.lastDelay] at before
        omega
      · intro grid
        obtain ⟨⟨k, equal⟩, early⟩ := grid
        refine ⟨k, ?_, equal⟩
        by_contra more
        have bound : (row.further today (rtcCalcNumNodesInterval today rows now) now + 1) *
            row.freq today ≤ k * row.freq today := Nat.mul_le_mul_right _ (by omega)
        rw [Nat.add_mul, Nat.one_mul] at bound
        rw [Row.lastDelay] at behind
        omega
    rw [if_pos rfl, count_rowNodes whole.freq]
    simp only [same]
  | false =>
    rw [Row.Fits, if_neg (by rw [within]; decide)] at fit
    have none : ¬ row.OnGrid today (now + delay) := by
      intro grid
      obtain ⟨k, same, after, early⟩ := grid
      have first : row.sTime today + row.freq today ≤ now + delay := by
        have positive : 1 ≤ k := by
          by_contra zero
          have none : k = 0 := by omega
          rw [none, Nat.zero_mul] at same
          omega
        have bound : 1 * row.freq today ≤ k * row.freq today := Nat.mul_le_mul_right _ positive
        omega
      omega
    rw [if_neg none]
    rfl

end Formed

section Runs

variable {today : Fin 7} {rows : List Row} {start base stop : Nat} {s t : State}

/-- While the table is idle no row has a time on its grid. -/
structure Idle (today : Fin 7) (rows : List Row) (s : State) : Prop where
  empty : s.list = []
  quiet : ∀ row ∈ rows, row.active = true → ∀ time, s.now < time → time ≤ s.now + s.delay →
    ¬ row.OnGrid today time

/-- The list was formed at `base` and lasts until `stop`; what is left of it holds the times on
the grid of each row. -/
structure Collecting (today : Fin 7) (rows : List Row) (base stop : Nat) (s : State) : Prop where
  sorted : s.list.Pairwise fun x y => x.interval ≤ y.interval
  formed : base ≤ s.now
  next : ∃ first rest, s.list = first :: rest ∧ base + first.interval = s.now + s.delay ∧
    s.now < base + first.interval
  within : ∀ node ∈ s.list, base + node.interval ≤ stop
  attained : ∃ node ∈ s.list, base + node.interval = stop
  covers : ∀ row ∈ rows, row.active = true → ∀ time, s.now < time → time ≤ stop →
    s.list.count ⟨time - base, row.collectDataIndex⟩ = if row.OnGrid today time then 1 else 0

structure Inv (today : Fin 7) (rows : List Row) (start : Nat) (s : State) : Prop where
  begun : start ≤ s.now
  past : ∀ entry ∈ s.log, entry.1 ≤ s.now
  sampled : Sampled today rows start s
  pending : (s.alarm = .callback ∧ Idle today rows s) ∨
    (s.alarm = .collect ∧ ∃ base stop, Collecting today rows base stop s)

theorem rtcCallback_now : (rtcCallback today rows s).now = s.now := by
  unfold rtcCallback
  split
  · rfl
  · rfl

theorem rtcCallback_log : (rtcCallback today rows s).log = s.log := by
  unfold rtcCallback
  split
  · rfl
  · rfl

theorem callback_pending (ok : TableOk today rows) (fits : ListFits today rows s.now) :
    ((rtcCallback today rows s).alarm = .callback ∧ Idle today rows (rtcCallback today rows s)) ∨
      ((rtcCallback today rows s).alarm = .collect ∧
        ∃ base stop, Collecting today rows base stop (rtcCallback today rows s)) := by
  have perm := sortLinkedList_perm (formLinkedList today rows s.now)
  have sorted := sortLinkedList_sorted (formLinkedList today rows s.now)
  unfold rtcCallback
  cases list : sortLinkedList (formLinkedList today rows s.now) with
  | nil =>
    left
    rw [list] at perm
    have empty := List.nil_perm.mp perm
    refine ⟨rfl, rfl, ?_⟩
    intro row member active time after until_
    dsimp only at after until_
    obtain ⟨delay, rfl⟩ := Nat.exists_eq_add_of_lt after
    have counted : (formLinkedList today rows s.now).count ⟨delay + 1, row.collectDataIndex⟩ =
        if row.OnGrid today (s.now + (delay + 1)) then 1 else 0 := by
      apply formed_count ok fits member active (by omega)
      rw [(horizon_idle ok empty).1]
      omega
    rw [empty, List.count_nil] at counted
    intro grid
    rw [if_pos (by rw [← Nat.add_assoc]; exact grid)] at counted
    cases counted
  | cons first rest =>
    right
    rw [list] at perm sorted
    have filled : formLinkedList today rows s.now ≠ [] := by
      intro none
      rw [none] at perm
      cases List.perm_nil.mp perm
    have interval : ∀ node ∈ first :: rest,
        1 ≤ node.interval ∧ node.interval ≤ horizon today rows s.now := by
      intro node member
      exact formed_interval ok (perm.mem_iff.mp member)
    refine ⟨rfl, s.now, s.now + horizon today rows s.now, ?_⟩
    constructor
    · exact sorted
    · exact Nat.le_refl _
    · have positive := (interval first List.mem_cons_self).1
      exact ⟨first, rest, rfl, rfl, by dsimp only; omega⟩
    · intro node member
      exact Nat.add_le_add_left (interval node member).2 _
    · obtain ⟨node, member, same⟩ := horizon_attained ok filled
      exact ⟨node, perm.mem_iff.mpr member, by rw [same]⟩
    · intro row member active time after until_
      dsimp only at after until_
      obtain ⟨delay, rfl⟩ := Nat.exists_eq_add_of_lt after
      have counted : (formLinkedList today rows s.now).count ⟨delay + 1, row.collectDataIndex⟩ =
          if row.OnGrid today (s.now + (delay + 1)) then 1 else 0 :=
        formed_count ok fits member active (by omega) (by omega)
      rw [perm.count_eq, show s.now + delay + 1 - s.now = delay + 1 by omega, counted,
        Nat.add_assoc]

theorem callback_inv (ok : TableOk today rows) (fits : ListFits today rows s.now)
    (begun : start ≤ s.now) (past : ∀ entry ∈ s.log, entry.1 ≤ s.now)
    (sampled : Sampled today rows start s) :
    Inv today rows start (rtcCallback today rows s) := by
  constructor
  · rw [rtcCallback_now]
    exact begun
  · rw [rtcCallback_now, rtcCallback_log]
    exact past
  · rw [Sampled, rtcCallback_now, rtcCallback_log]
    exact sampled
  · exact callback_pending ok fits

theorem count_future {log : List (Nat × Nat)} {now time index : Nat}
    (past : ∀ entry ∈ log, entry.1 ≤ now) (after : now < time) : log.count (time, index) = 0 := by
  apply List.count_eq_zero_of_not_mem
  intro member
  have bound := past _ member
  dsimp only at bound
  omega

theorem idle_sampled (inv : Inv today rows start s) (idle : Idle today rows s) :
    Sampled today rows start { s with now := s.now + s.delay } := by
  intro row member active time until_
  dsimp only at until_ ⊢
  by_cases old : time ≤ s.now
  · exact inv.sampled row member active time old
  · have none := idle.quiet row member active time (by omega) until_
    rw [count_future inv.past (by omega), if_neg]
    intro both
    exact none both.2

theorem collect_sampled (inv : Inv today rows start s)
    (collecting : Collecting today rows base stop s) :
    Sampled today rows start
      { s with now := s.now + s.delay
               log := s.log ++
                (splitDue s.list).1.map fun node => (s.now + s.delay, node.index) } := by
  obtain ⟨first, rest, list, alarm, after⟩ := collecting.next
  have least : ∀ node ∈ s.list, first.interval ≤ node.interval := by
    intro node member
    have sorted := collecting.sorted
    rw [list] at member sorted
    rcases List.mem_cons.mp member with head | tail
    · rw [head]
    · exact (List.pairwise_cons.mp sorted).1 node tail
  have lasts : s.now + s.delay ≤ stop := by
    rw [← alarm]
    exact collecting.within first (by rw [list]; exact List.mem_cons_self)
  intro row member active time until_
  dsimp only at until_ ⊢
  rw [List.count_append]
  by_cases old : time ≤ s.now
  · have none : ((splitDue s.list).1.map fun node => (s.now + s.delay, node.index)).count
        (time, row.collectDataIndex) = 0 := by
      apply List.count_eq_zero_of_not_mem
      intro inside
      obtain ⟨node, _, same⟩ := List.mem_map.mp inside
      have equal := (Prod.mk.inj same).1
      omega
    rw [none, Nat.add_zero]
    exact inv.sampled row member active time old
  · have counted := collecting.covers row member active time (by omega) (by omega)
    have begun := inv.begun
    have same : (if start < time ∧ row.OnGrid today time then 1 else 0) =
        if row.OnGrid today time then 1 else 0 := by
      have later : start < time := by omega
      simp only [later, true_and]
    rw [count_future inv.past (by omega), Nat.zero_add, same, ← counted]
    by_cases now : time = s.now + s.delay
    · subst now
      have due : s.now + s.delay - base = first.interval := by omega
      have behind : (splitDue s.list).2.count ⟨first.interval, row.collectDataIndex⟩ = 0 := by
        apply List.count_eq_zero_of_not_mem
        intro inside
        have sorted := collecting.sorted
        rw [list] at inside sorted
        have larger := splitDue_later sorted _ inside
        dsimp only at larger
        omega
      have whole := congrArg (List.count ⟨first.interval, row.collectDataIndex⟩)
        (splitDue_append s.list)
      rw [List.count_append, behind, Nat.add_zero] at whole
      rw [due, ← whole, list, count_due]
    · have none : ((splitDue s.list).1.map fun node => (s.now + s.delay, node.index)).count
          (time, row.collectDataIndex) = 0 := by
        apply List.count_eq_zero_of_not_mem
        intro inside
        obtain ⟨node, _, equal⟩ := List.mem_map.mp inside
        exact now (Prod.mk.inj equal).1.symm
      rw [none]
      symm
      apply List.count_eq_zero_of_not_mem
      intro inside
      have bound := least _ inside
      have formed := collecting.formed
      dsimp only at bound
      omega

theorem collect_rest {next : RtcList} {tail : List RtcList} {log : List (Nat × Nat)}
    (collecting : Collecting today rows base stop s)
    (left : (splitDue s.list).2 = next :: tail) {last : RtcList}
    (due : (splitDue s.list).1.getLast? = some last) :
    Collecting today rows base stop
      { s with now := s.now + s.delay, log := log, list := next :: tail
               delay := next.interval - last.interval } := by
  obtain ⟨first, rest, list, alarm, after⟩ := collecting.next
  have split := splitDue_append s.list
  have sorted := collecting.sorted
  have same : last.interval = first.interval := by
    have member := List.mem_of_getLast? due
    rw [list] at member
    exact splitDue_same first rest last member
  have later : ∀ node ∈ next :: tail, first.interval < node.interval := by
    intro node member
    rw [← left] at member
    rw [list] at member sorted
    exact splitDue_later sorted node member
  have front := splitDue_same first rest
  rw [← list] at front
  rw [left] at split
  have inside : ∀ node ∈ next :: tail, node ∈ s.list := by
    intro node member
    rw [← split]
    exact List.mem_append_right _ member
  have larger := later next List.mem_cons_self
  constructor
  · rw [← split] at sorted
    exact (List.pairwise_append.mp sorted).2.1
  · exact Nat.le_trans collecting.formed (Nat.le_add_right _ _)
  · refine ⟨next, tail, rfl, ?_, ?_⟩
    · dsimp only
      omega
    · dsimp only
      omega
  · intro node member
    exact collecting.within node (inside node member)
  · obtain ⟨node, member, attained⟩ := collecting.attained
    refine ⟨node, ?_, attained⟩
    rw [← split] at member
    rcases List.mem_append.mp member with early | kept
    · have equal := front node early
      have bound := collecting.within next (inside next List.mem_cons_self)
      omega
    · exact kept
  · intro row member active time after_ until_
    dsimp only at after_ until_
    rw [← collecting.covers row member active time (by omega) until_, ← split, List.count_append]
    have gone : (splitDue s.list).1.count ⟨time - base, row.collectDataIndex⟩ = 0 := by
      apply List.count_eq_zero_of_not_mem
      intro early
      have equal := front _ early
      dsimp only at equal
      omega
    rw [gone, Nat.zero_add]

theorem collect_inv (ok : TableOk today rows) (inv : Inv today rows start s)
    (collecting : Collecting today rows base stop s) (alarm : s.alarm = .collect)
    (fits : (splitDue s.list).2 = [] → ListFits today rows (s.now + s.delay)) :
    Inv today rows start
      (rtcCollectStoreVariables today rows { s with now := s.now + s.delay }) := by
  have sampled := collect_sampled inv collecting
  have past : ∀ entry ∈ s.log ++
      (splitDue s.list).1.map fun node => (s.now + s.delay, node.index),
      entry.1 ≤ s.now + s.delay := by
    intro entry member
    rcases List.mem_append.mp member with old | new
    · exact Nat.le_trans (inv.past entry old) (Nat.le_add_right _ _)
    · obtain ⟨node, _, rfl⟩ := List.mem_map.mp new
      exact Nat.le_refl _
  have begun : start ≤ s.now + s.delay := Nat.le_trans inv.begun (Nat.le_add_right _ _)
  obtain ⟨first, rest, list, _, _⟩ := collecting.next
  have filled : (splitDue s.list).1 ≠ [] := by
    rw [list]
    exact splitDue_filled first rest
  have due := List.getLast?_eq_some_getLast filled
  unfold rtcCollectStoreVariables
  dsimp only
  rw [due]
  cases left : (splitDue s.list).2 with
  | nil => exact callback_inv ok (fits left) begun past sampled
  | cons next tail =>
    constructor
    · exact begun
    · exact past
    · exact sampled
    · right
      exact ⟨alarm, base, stop, collect_rest collecting left due⟩

theorem step_inv (ok : TableOk today rows) (inv : Inv today rows start s)
    (fits : FormsFit today rows s ()) (stepped : step today rows s () = some t) :
    Inv today rows start t := by
  have forms := fits.2
  rcases inv.pending with ⟨alarm, idle⟩ | ⟨alarm, base, stop, collecting⟩
  · have same : step today rows s () =
        some (rtcCallback today rows { s with now := s.now + s.delay }) := by
      unfold step
      dsimp only
      rw [alarm]
    rw [same] at stepped
    rw [← Option.some.inj stepped]
    apply callback_inv (s := { s with now := s.now + s.delay }) ok (forms (.inl alarm))
    · exact Nat.le_trans inv.begun (Nat.le_add_right _ _)
    · intro entry member
      exact Nat.le_trans (inv.past entry member) (Nat.le_add_right _ _)
    · exact idle_sampled inv idle
  · have same : step today rows s () =
        some (rtcCollectStoreVariables today rows { s with now := s.now + s.delay }) := by
      unfold step
      dsimp only
      rw [alarm]
    rw [same] at stepped
    rw [← Option.some.inj stepped]
    exact collect_inv ok inv collecting alarm fun left => forms (.inr left)

/-- In a run in which every list that is formed fits, each row is collected at its times on the
grid and at no other, once. -/
theorem sampled_onGrid {labels : List Unit} (ok : TableOk today rows) (_day : start < midnight)
    (first : ListFits today rows start)
    (fit : Along (step today rows) (FormsFit today rows) (started today rows start) labels)
    (executed : run (step today rows) (started today rows start) labels = some s) :
    Sampled today rows start s := by
  have initial : Inv today rows start (started today rows start) := by
    unfold started
    apply callback_inv
      (s := { now := start, alarm := .callback, delay := 0, list := [], log := [] })
      ok first (Nat.le_refl start)
    · intro entry member
      cases member
    · intro row member active time until_
      rw [if_neg]
      · rfl
      · intro both
        exact absurd both.1 (Nat.not_lt.mpr until_)
  have kept : ∀ s label t, Inv today rows start s → FormsFit today rows s label →
      step today rows s label = some t → Inv today rows start t := by
    intro s label t inv fits stepped
    exact step_inv ok inv fits stepped
  exact (run_invariant kept initial fit executed).sampled

end Runs

section Shifted

theorem tenSeconds_dates (collectDataIndex : Nat) (days : Fin 7 → Day) :
    ∀ now < midnight, rtcWithinPeriod { tenSeconds with collectDataIndex, days } now = true := by
  intro now day
  have bound : (now : Int) ≤ 86400 := by
    have bound := Int.ofNat_lt.mpr day
    exact Int.le_of_lt bound
  simp only [rtcWithinPeriod, tenSeconds]
  simp [bound]

theorem tenSeconds_ok : TableOk 0 [tenSeconds] := by
  constructor
  · decide
  · intro row member active
    rw [List.mem_singleton.mp member]
    exact ⟨tenSeconds_dates 1 _, by decide, by decide⟩

/-- Two rows that meet at the seventieth second. -/
def meetingRows : List Row :=
  [{ tenSeconds with days := fun _ => ⟨4000, 13500, 30⟩ },
    { tenSeconds with collectDataIndex := 2, days := fun _ => ⟨3400, 14300, 36⟩ }]

theorem meetingRows_ok : TableOk 0 meetingRows := by
  constructor
  · decide
  · intro row member active
    rcases List.mem_cons.mp member with rfl | member
    · exact ⟨tenSeconds_dates 1 _, by decide, by decide⟩
    · rw [List.mem_singleton.mp member]
      exact ⟨tenSeconds_dates 2 _, by decide, by decide⟩

/-- An alarm while no row is within its times, one for both rows and one for the first row. -/
theorem sampled_onGrid_meetingRows :
    ∃ s, run (step 0 meetingRows) (started 0 meetingRows 5) [(), (), ()] = some s ∧ s.now = 100 ∧
      s.log = [(70, 1), (70, 2), (100, 1)] ∧ Sampled 0 meetingRows 5 s := by
  obtain ⟨s, executed, now, log⟩ : ∃ s, run (step 0 meetingRows) (started 0 meetingRows 5)
      [(), (), ()] = some s ∧ s.now = 100 ∧ s.log = [(70, 1), (70, 2), (100, 1)] := by
    apply run_of_any
    decide +kernel
  have first : ListFits 0 meetingRows 5 := by decide +kernel
  have fit : Along (step 0 meetingRows) (FormsFit 0 meetingRows) (started 0 meetingRows 5)
      [(), (), ()] := by
    decide +kernel
  exact ⟨s, executed, now, log, sampled_onGrid meetingRows_ok (by decide) first fit executed⟩

/-- When the list is formed again at a time on the grid, the row is collected a second later. -/
theorem grid_shifted :
    ¬ ∀ (today : Fin 7) (rows : List Row) (start : Nat) (labels : List Unit) (s : State),
      TableOk today rows → start < midnight →
      Along (step today rows) (fun s _ => s.now + s.delay < midnight) (started today rows start)
        labels →
      run (step today rows) (started today rows start) labels = some s →
      Sampled today rows start s := by
  intro sampled
  obtain ⟨s, executed, log⟩ : ∃ s, run (step 0 [tenSeconds]) (started 0 [tenSeconds] 5)
      [(), (), ()] = some s ∧ s.now = 21 ∧ s.log = [(10, 1), (20, 1), (21, 1)] := by
    apply run_of_any
    decide +kernel
  have today : Along (step 0 [tenSeconds]) (fun s _ => s.now + s.delay < midnight)
      (started 0 [tenSeconds] 5) [(), (), ()] := by
    decide +kernel
  have counted := sampled 0 [tenSeconds] 5 [(), (), ()] s tenSeconds_ok (by decide) today executed
    tenSeconds List.mem_cons_self rfl 21 (Nat.le_of_eq log.1.symm)
  rw [log.2, if_neg (by decide)] at counted
  exact absurd counted (by decide)

end Shifted

end EveAgent.Rtcm
