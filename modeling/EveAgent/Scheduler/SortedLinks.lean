import EveAgent.LinkedSort

/-! `SortExecutionList` on the linked nodes: it sorts by relinking, and does what a bubble sort of
the list does. -/

namespace EveAgent.Scheduler

open Cells BubbleSort LinkedSort

section Source

structure ExecTask where
  fp : Nat
  vpArg : Nat
  ui32Interval : UInt32
  deriving DecidableEq, Repr

abbrev ExecHeap := Heap Nat ExecTask

def larger (v w : ExecTask) : Bool := decide (v.ui32Interval > w.ui32Interval)

/-- The sort with a bound on the iterations of each loop. `pstNewHead` is what `calloc` returns. -/
def linkedSort (fuel : Nat) (heap : ExecHeap) (ppStart pstNewHead : Option Nat) :
    Option (ExecHeap × Option Nat) :=
  match ppStart with
  | none => some (heap, none)
  | some start =>
    match pstNewHead with
    | none => none
    | some newHead =>
      let heap := Function.update heap newHead (some ⟨⟨0, 0, 0⟩, some start⟩)
      match sortBehind larger fuel heap newHead with
      | none => none
      | some (heap, at_) =>
        match at_.start, deref heap at_.start with
        | some first, some cell => some (Function.update heap first none, cell.next)
        | _, _ => none

end Source

section Passes

abbrev Node := Nat × ExecTask

def interval (node : Node) : Nat := node.2.ui32Interval.toNat

variable {heap : ExecHeap}

theorem compares_interval (nodes : List Node) :
    Compares larger (fun task => task.ui32Interval.toNat) nodes := by
  intro x _ y _
  rw [larger, decide_eq_true_iff]
  exact UInt32.lt_iff_toNat_lt

theorem linkedSort_bubbleSort {p : Option Nat} {nodes : List Node} {newHead : Nat}
    (linked : Segment heap p nodes none) (free : heap newHead = none) :
    ∃ heap' p', linkedSort (nodes.length + 1) heap p (some newHead) = some (heap', p') ∧
      Segment heap' p' (bubbleSort interval nodes) none ∧
      ∀ c, c ∉ addresses nodes → heap' c = heap c := by
  cases nodes with
  | nil =>
    have empty : p = none := linked
    rw [empty]
    exact ⟨heap, none, rfl, rfl, fun _ _ => rfl⟩
  | cons first rest =>
    have start : p = some first.1 := linked.1
    have outside : newHead ∉ addresses (first :: rest) := by
      intro inside
      obtain ⟨cell, held⟩ := linked.held inside
      rw [free] at held
      cases held
    have whole : Segment (Function.update heap newHead (some ⟨⟨0, 0, 0⟩, p⟩))
        (some newHead) ((newHead, ⟨0, 0, 0⟩) :: first :: rest) none :=
      ⟨rfl, p, Function.update_self .., linked.update outside _⟩
    obtain ⟨heap₁, at₁, executed, head, sorted, frame⟩ :=
      @sortBehind_bubbleSort ExecTask larger (fun task => task.ui32Interval.toNat)
        _ newHead ⟨0, 0, 0⟩ _ rfl (compares_interval _) whole
    obtain ⟨_, next, held, tail⟩ := sorted
    have members : ∀ c, c ∈ addresses (bubbleSort interval (first :: rest)) ↔
        c ∈ addresses (first :: rest) := fun _ =>
      ((bubbleSort_perm interval (first :: rest)).map Prod.fst).mem_iff
    refine ⟨Function.update heap₁ newHead none, next, ?_, ?_, ?_⟩
    · rw [start] at executed ⊢
      unfold linkedSort
      simp only
      rw [executed]
      simp only
      rw [head, deref, Option.bind_some, held]
    · apply tail.update
      exact fun inside => outside ((members newHead).mp inside)
    · intro c away
      by_cases here : c = newHead
      · rw [here, Function.update_self, free]
      · have unknown : c ∉ addresses ((newHead, ⟨0, 0, 0⟩) :: first :: rest) := by
          rw [addresses_cons, List.mem_cons, not_or]
          exact ⟨here, away⟩
        rw [Function.update_of_ne here, frame c unknown, Function.update_of_ne here]

/-- `SortExecutionList` ends with the nodes of the list in the order of their intervals, those of
one interval in the order they had, and nothing else changed. -/
theorem sortExecutionList_sorts {p : Option Nat} {nodes : List Node} {newHead : Nat}
    (linked : Segment heap p nodes none) (free : heap newHead = none) :
    ∃ fuel heap' p' sorted, linkedSort fuel heap p (some newHead) = some (heap', p') ∧
      Segment heap' p' sorted none ∧ sorted.Perm nodes ∧
      (sorted.Pairwise fun x y => x.2.ui32Interval ≤ y.2.ui32Interval) ∧
      (∀ k, sorted.filter (fun node => node.2.ui32Interval = k) =
        nodes.filter (fun node => node.2.ui32Interval = k)) ∧
      ∀ c, c ∉ addresses nodes → heap' c = heap c := by
  obtain ⟨heap', p', executed, sorted, frame⟩ := linkedSort_bubbleSort linked free
  refine ⟨_, heap', p', bubbleSort interval nodes, executed, sorted, ?_, ?_, ?_, frame⟩
  · exact bubbleSort_perm interval nodes
  · exact (bubbleSort_sorted interval nodes).imp UInt32.le_iff_toNat_le.mpr
  · intro k
    have same : ∀ node : Node, interval node = k.toNat ↔ node.2.ui32Interval = k :=
      fun _ => UInt32.toNat_inj
    have stable := bubbleSort_filter interval nodes k.toNat
    simpa only [same] using stable

/-- Two nodes out of order, and two of one interval. -/
def threeNodes : List Node := [(1, ⟨1, 1, 20⟩), (2, ⟨2, 2, 10⟩), (3, ⟨3, 3, 20⟩)]

def threeCells : ExecHeap
  | 1 => some ⟨⟨1, 1, 20⟩, some 2⟩
  | 2 => some ⟨⟨2, 2, 10⟩, some 3⟩
  | 3 => some ⟨⟨3, 3, 20⟩, none⟩
  | _ => none

theorem sortExecutionList_threeNodes :
    ∃ fuel heap' p' sorted, linkedSort fuel threeCells (some 1) (some 4) = some (heap', p') ∧
      Segment heap' p' sorted none ∧ sorted.Perm threeNodes ∧
      (sorted.Pairwise fun x y => x.2.ui32Interval ≤ y.2.ui32Interval) ∧
      (∀ k, sorted.filter (fun node => node.2.ui32Interval = k) =
        threeNodes.filter (fun node => node.2.ui32Interval = k)) ∧
      ∀ c, c ∉ addresses threeNodes → heap' c = threeCells c := by
  apply sortExecutionList_sorts
  · exact ⟨rfl, some 2, rfl, rfl, some 3, rfl, rfl, none, rfl, rfl⟩
  · rfl

end Passes

end EveAgent.Scheduler
