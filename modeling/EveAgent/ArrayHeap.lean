import Mathlib

/-! Arrays that are allocated and freed, and the pointers to them that may be null or left over. -/

namespace EveAgent.ArrayHeap

structure Heap where
  size : Nat → Nat
  made : Nat
  frees : Nat → Nat
  /-- An entry was read or written where no array was. -/
  fault : Bool

def Heap.empty : Heap := ⟨fun _ => 0, 0, fun _ => 0, false⟩

/-- A new array, whose number is `made`. -/
def Heap.alloc (heap : Heap) (n : Nat) : Heap :=
  { heap with size := Function.update heap.size heap.made n, made := heap.made + 1 }

def Heap.free (heap : Heap) : Option Nat → Heap
  | none => heap
  | some a => { heap with frees := Function.update heap.frees a (heap.frees a + 1) }

def Heap.holds (heap : Heap) (pointer : Option Nat) (i : Nat) : Bool :=
  match pointer with
  | none => false
  | some a => heap.frees a = 0 && i < heap.size a

def Heap.touch (heap : Heap) (pointer : Option Nat) (i : Nat) : Heap :=
  { heap with fault := heap.fault || !heap.holds pointer i }

def Heap.touchAll (heap : Heap) (pointer : Option Nat) (n : Nat) : Heap :=
  (List.range n).foldl (fun heap i => heap.touch pointer i) heap

def Heap.live (heap : Heap) : Nat := (List.range heap.made).countP (heap.frees · = 0)

/-- No entry is used where no array is, no array is freed twice, and one is live at most. -/
structure Heap.Sound (heap : Heap) : Prop where
  clean : heap.fault = false
  once : ∀ a, heap.frees a ≤ 1
  single : heap.live ≤ 1

variable {heap : Heap} {pointer : Option Nat} {i n : Nat}

@[simp] theorem Heap.free_made (heap : Heap) (pointer : Option Nat) :
    (heap.free pointer).made = heap.made := by
  cases pointer with
  | none => rfl
  | some a => rfl

theorem Heap.touch_holds (holds : heap.holds pointer i = true) : heap.touch pointer i = heap := by
  simp [Heap.touch, holds]

theorem Heap.touchAll_succ (heap : Heap) (pointer : Option Nat) (n : Nat) :
    heap.touchAll pointer (n + 1) = (heap.touchAll pointer n).touch pointer n := by
  rw [Heap.touchAll, List.range_succ, List.foldl_append]
  rfl

theorem Heap.touchAll_holds (holds : ∀ i < n, heap.holds pointer i = true) :
    heap.touchAll pointer n = heap := by
  induction n with
  | zero => rfl
  | succ n ih =>
    rw [Heap.touchAll_succ, ih (fun i below => holds i (Nat.lt_succ_of_lt below))]
    exact Heap.touch_holds (holds n (Nat.lt_succ_self n))

theorem Heap.touchAll_same (heap : Heap) (pointer : Option Nat) (n : Nat) :
    ∃ fault, heap.touchAll pointer n = { heap with fault := fault } := by
  induction n with
  | zero => exact ⟨heap.fault, rfl⟩
  | succ n ih =>
    obtain ⟨fault, same⟩ := ih
    rw [Heap.touchAll_succ, same]
    exact ⟨_, rfl⟩

theorem Heap.touchAll_fault (below : i < n) (missing : heap.holds pointer i = false) :
    (heap.touchAll pointer n).fault = true := by
  induction n with
  | zero => cases below
  | succ n ih =>
    rw [Heap.touchAll_succ]
    rcases Nat.lt_succ_iff_lt_or_eq.mp below with before | last
    · simp [Heap.touch, ih before]
    · obtain ⟨fault, same⟩ := Heap.touchAll_same heap pointer n
      have still : (heap.touchAll pointer n).holds pointer n = false := by
        rw [same, ← last]
        exact missing
      simp [Heap.touch, still]

structure Heap.Settled (heap : Heap) : Prop where
  clean : heap.fault = false
  old : ∀ a < heap.made, heap.frees a = 1
  new : ∀ a, heap.made ≤ a → heap.frees a = 0

theorem Heap.Settled.sound (settled : heap.Settled) : heap.Sound := by
  constructor
  · exact settled.clean
  · intro a
    rcases Nat.lt_or_ge a heap.made with old | new
    · exact Nat.le_of_eq (settled.old a old)
    · rw [settled.new a new]
      exact Nat.zero_le 1
  · have none : heap.live = 0 := by
      rw [Heap.live, List.countP_eq_zero]
      intro a member
      simp [settled.old a (List.mem_range.mp member)]
    rw [none]
    exact Nat.zero_le 1

theorem Heap.settled_empty : Heap.empty.Settled := by
  constructor
  · rfl
  · intro a below
    cases below
  · exact fun _ _ => rfl

theorem Heap.holds_alloc (fresh : heap.frees heap.made = 0) (below : i < n) :
    (heap.alloc n).holds (some heap.made) i = true := by
  simp [Heap.holds, Heap.alloc, fresh, below]

theorem Heap.Settled.alloc_free (settled : heap.Settled) (n : Nat) :
    ((heap.alloc n).free (some heap.made)).Settled := by
  have fresh := settled.new heap.made (Nat.le_refl _)
  constructor
  · exact settled.clean
  · intro a below
    show Function.update heap.frees heap.made (heap.frees heap.made + 1) a = 1
    rcases Nat.lt_succ_iff_lt_or_eq.mp below with old | last
    · rw [Function.update_of_ne (Nat.ne_of_lt old)]
      exact settled.old a old
    · rw [last, Function.update_self, fresh]
  · intro a above
    show Function.update heap.frees heap.made (heap.frees heap.made + 1) a = 0
    rw [Function.update_of_ne (Nat.ne_of_gt above)]
    exact settled.new a (Nat.le_of_succ_le above)

theorem Heap.free_again {a : Nat} (freed : heap.frees a = 1) : ¬(heap.free (some a)).Sound := by
  intro sound
  have once := sound.once a
  have twice : (heap.free (some a)).frees a = 2 := by
    show Function.update heap.frees a (heap.frees a + 1) a = 2
    rw [Function.update_self, freed]
  omega

structure Heap.Unfreed (heap : Heap) : Prop where
  clean : heap.fault = false
  kept : ∀ a, heap.frees a = 0

theorem Heap.Unfreed.live_eq (unfreed : heap.Unfreed) : heap.live = heap.made := by
  rw [Heap.live, List.countP_eq_length.mpr, List.length_range]
  intro a _
  simp [unfreed.kept a]

theorem Heap.unfreed_empty : Heap.empty.Unfreed := by
  constructor
  · rfl
  · exact fun _ => rfl

theorem Heap.Unfreed.alloc (unfreed : heap.Unfreed) (n : Nat) : (heap.alloc n).Unfreed := by
  constructor
  · exact unfreed.clean
  · exact unfreed.kept

theorem Heap.Unfreed.holds_iff (unfreed : heap.Unfreed) (a i : Nat) :
    heap.holds (some a) i = true ↔ i < heap.size a := by
  simp [Heap.holds, unfreed.kept a]

theorem Heap.Unfreed.sound (unfreed : heap.Unfreed) (one : heap.made ≤ 1) : heap.Sound := by
  constructor
  · exact unfreed.clean
  · intro a
    rw [unfreed.kept a]
    exact Nat.zero_le 1
  · rw [unfreed.live_eq]
    exact one

end EveAgent.ArrayHeap
