import Mathlib

/-! A queue in a ring of slots with a rear and a front index and one slot left free,
and the bounded queue it stands for. -/

namespace EveAgent

variable {α : Type*}

/-- `rear` is the slot written last, `front` the slot to read next. -/
structure Ring (α : Type*) where
  slots : List (Option α)
  rear : Int
  front : Int
  deriving DecidableEq, Repr

namespace Ring

def size (ring : Ring α) : Int := ring.slots.length

def isEmpty (ring : Ring α) : Prop := (ring.rear + 1) % ring.size = ring.front

def isFull (ring : Ring α) : Prop := (ring.rear + 2) % ring.size = ring.front

instance (ring : Ring α) : Decidable ring.isEmpty := inferInstanceAs (Decidable (_ = _))

instance (ring : Ring α) : Decidable ring.isFull := inferInstanceAs (Decidable (_ = _))

/-- The four writes an insertion and a removal consist of. -/
def advanceRear (ring : Ring α) : Ring α := { ring with rear := (ring.rear + 1) % ring.size }

def store (ring : Ring α) (entry : Option α) : Ring α :=
  { ring with slots := ring.slots.set ring.rear.toNat entry }

def clearFront (ring : Ring α) : Ring α :=
  { ring with slots := ring.slots.set ring.front.toNat none }

def advanceFront (ring : Ring α) : Ring α := { ring with front := (ring.front + 1) % ring.size }

def read (ring : Ring α) : Option α := (ring.slots[ring.front.toNat]?).join

def empty (size : Nat) : Ring α := ⟨List.replicate size none, -1, 0⟩

/-- The slot that holds the entry with this place in the queue. -/
def place (ring : Ring α) (index : Nat) : Nat := (ring.front.toNat + index) % ring.slots.length

/-- The ring holds this queue, the oldest entry first. -/
structure Holds (ring : Ring α) (queue : List α) : Prop where
  front : 0 ≤ ring.front ∧ ring.front < ring.size
  rear : -1 ≤ ring.rear ∧ ring.rear < ring.size
  room : queue.length < ring.slots.length
  next : (ring.rear + 1) % ring.size = (ring.place queue.length : Nat)
  entries : ∀ index (inQueue : index < queue.length),
    ring.slots[ring.place index]? = some (some queue[index])

variable {ring : Ring α} {queue : List α}

theorem wrap {index size : Nat} (bound : index < 2 * size) :
    index % size = if index < size then index else index - size := by
  split
  · rename_i below
    exact Nat.mod_eq_of_lt below
  · rename_i above
    rw [Nat.mod_eq_sub_mod (by omega), Nat.mod_eq_of_lt (by omega)]

theorem Holds.place_eq (holds : ring.Holds queue) {index : Nat}
    (bound : index ≤ ring.slots.length) :
    ring.place index = if ring.front.toNat + index < ring.slots.length
      then ring.front.toNat + index else ring.front.toNat + index - ring.slots.length := by
  have front := holds.front
  unfold size at front
  exact wrap (by omega)

theorem Holds.isEmpty_iff (holds : ring.Holds queue) : ring.isEmpty ↔ queue = [] := by
  have front := holds.front
  have room := holds.room
  have place := holds.place_eq (Nat.le_of_lt room)
  unfold size at front
  unfold isEmpty
  rw [holds.next, place, ← List.length_eq_zero_iff]
  split
  · omega
  · omega

theorem Holds.isFull_iff (holds : ring.Holds queue) :
    ring.isFull ↔ queue.length + 1 = ring.slots.length := by
  have front := holds.front
  have room := holds.room
  have place := holds.place_eq (Nat.le_of_lt room)
  have next := holds.next
  have wrapped : (ring.rear + 2) % ring.size = ((ring.rear + 1) % ring.size + 1) % ring.size := by
    rw [Int.emod_add_emod, Int.add_assoc]
    rfl
  unfold isFull
  rw [wrapped, next, place]
  unfold size at *
  split
  · rename_i below
    by_cases last : ring.front.toNat + queue.length + 1 < ring.slots.length
    · rw [Int.emod_eq_of_lt (by omega) (by omega)]
      omega
    · have same : ((ring.front.toNat + queue.length : Nat) : Int) + 1 = ring.slots.length := by
        omega
      rw [same, Int.emod_self]
      omega
  · rw [Int.emod_eq_of_lt (by omega) (by omega)]
    omega

theorem empty_holds {size : Nat} (positive : 0 < size) : (empty size : Ring α).Holds [] := by
  constructor
  · simp only [empty, Ring.size, List.length_replicate]
    omega
  · simp only [empty, Ring.size, List.length_replicate]
    omega
  · simpa [empty] using positive
  · simp [empty, Ring.size, place]
  · intro index inQueue
    cases inQueue

theorem Holds.place_lt (holds : ring.Holds queue) (index : Nat) :
    ring.place index < ring.slots.length := by
  apply Nat.mod_lt
  have room := holds.room
  omega

theorem Holds.place_ne (holds : ring.Holds queue) {first second : Nat}
    (before : first < second) (bound : second < ring.slots.length) :
    ring.place first ≠ ring.place second := by
  have front := holds.front
  unfold size at front
  rw [holds.place_eq (by omega), holds.place_eq (Nat.le_of_lt bound)]
  split
  · split
    · omega
    · omega
  · split
    · omega
    · omega

theorem Holds.put (holds : ring.Holds queue) (notFull : ¬ ring.isFull) (entry : α) :
    (ring.advanceRear.store (some entry)).Holds (queue ++ [entry]) := by
  have longer : queue.length + 1 < ring.slots.length := by
    have room := holds.room
    rw [holds.isFull_iff] at notFull
    omega
  have rear : ring.advanceRear.rear = (ring.place queue.length : Nat) := holds.next
  have inside := holds.place_lt queue.length
  have slots : (ring.advanceRear.store (some entry)).slots =
      ring.slots.set (ring.place queue.length) (some entry) := by
    simp only [store, rear, Int.toNat_natCast]
    rfl
  have place : ∀ index,
      (ring.advanceRear.store (some entry)).place index = ring.place index := by
    intro index
    simp only [Ring.place, slots, List.length_set]
    rfl
  constructor
  · simpa [Ring.size, store, advanceRear] using holds.front
  · have rear' : (ring.advanceRear.store (some entry)).rear = (ring.place queue.length : Nat) :=
      rear
    simp only [Ring.size, rear', slots, List.length_set]
    omega
  · rw [slots, List.length_set, List.length_append, List.length_singleton]
    exact longer
  · have rear' : (ring.advanceRear.store (some entry)).rear = (ring.place queue.length : Nat) :=
      rear
    rw [rear', place, List.length_append, List.length_singleton]
    simp only [Ring.size, slots, List.length_set, Ring.place]
    rw [Int.natCast_emod, Int.emod_add_emod]
    push_cast
    rw [Int.add_assoc]
  · intro index inQueue
    rw [List.length_append, List.length_singleton] at inQueue
    rw [place, slots]
    rcases Nat.lt_succ_iff_lt_or_eq.mp inQueue with old | new
    · rw [List.getElem?_set_ne (holds.place_ne old (by omega)).symm, holds.entries index old,
        List.getElem_append_left old]
    · subst new
      rw [List.getElem?_set_self inside]
      simp

theorem Holds.read (holds : ring.Holds queue) {entry : α} {rest : List α}
    (oldest : queue = entry :: rest) : ring.read = some entry := by
  subst oldest
  have first := holds.entries 0 (Nat.zero_lt_succ _)
  have front := holds.front
  have place : ring.place 0 = ring.front.toNat := by
    unfold Ring.size at front
    rw [holds.place_eq (Nat.zero_le _), Nat.add_zero, if_pos (by omega)]
  rw [place] at first
  rw [Ring.read, first]
  rfl

theorem Holds.take (holds : ring.Holds queue) {entry : α} {rest : List α}
    (oldest : queue = entry :: rest) : ring.clearFront.advanceFront.Holds rest := by
  subst oldest
  have front := holds.front
  have room := holds.room
  rw [List.length_cons] at room
  have positive : 0 < ring.size := by omega
  have slots : ring.clearFront.advanceFront.slots = ring.slots.set ring.front.toNat none := rfl
  have length : ring.clearFront.advanceFront.slots.length = ring.slots.length := by
    rw [slots, List.length_set]
  have front' : ring.clearFront.advanceFront.front = (ring.front + 1) % ring.size := by
    simp only [advanceFront, clearFront, Ring.size, List.length_set]
  have nonneg : 0 ≤ (ring.front + 1) % ring.size := Int.emod_nonneg _ (by omega)
  have place : ∀ index, ring.clearFront.advanceFront.place index = ring.place (index + 1) := by
    intro index
    have moved : ring.clearFront.advanceFront.front.toNat =
        (ring.front.toNat + 1) % ring.slots.length := by
      have cast : (ring.front + 1) % (ring.slots.length : Int) =
          ((ring.front.toNat + 1) % ring.slots.length : Nat) := by
        push_cast
        rw [Int.toNat_of_nonneg front.1]
      rw [front', Ring.size, cast, Int.toNat_natCast]
    rw [Ring.place, Ring.place, length, moved, Nat.mod_add_mod]
    congr 1
    omega
  constructor
  · have below := Int.emod_lt_of_pos (ring.front + 1) positive
    simp only [front', Ring.size, length] at *
    exact ⟨nonneg, below⟩
  · have rear := holds.rear
    simp only [Ring.size, length] at *
    exact rear
  · rw [length]
    omega
  · have next := holds.next
    rw [List.length_cons] at next
    simp only [Ring.size, length, place] at *
    exact next
  · intro index inQueue
    have entry' := holds.entries (index + 1) (by simpa using inQueue)
    have place0 : ring.place 0 = ring.front.toNat := by
      unfold Ring.size at front
      rw [holds.place_eq (Nat.zero_le _), Nat.add_zero, if_pos (by omega)]
    have other := holds.place_ne (Nat.zero_lt_succ index) (by omega)
    rw [place0] at other
    rw [place, slots, List.getElem?_set_ne other, entry']
    rfl

end Ring

/-- What happens to a bounded queue; `none` is an entry that nobody has put there. -/
inductive QueueOp (α : Type*) where
  | accept (entry : α)
  | reject (entry : α)
  | take (entry : Option α)
  deriving DecidableEq, Repr

namespace QueueOp

variable [DecidableEq α]

/-- The queue accepts when it has room and only then, and gives its oldest entry. -/
def apply (capacity : Nat) (queue : List α) : QueueOp α → Option (List α)
  | .accept entry => if queue.length < capacity then some (queue ++ [entry]) else none
  | .reject _ => if queue.length < capacity then none else some queue
  | .take entry =>
    match queue with
    | [] => none
    | oldest :: rest => if entry = some oldest then some rest else none

/-- The queue after these operations, if a bounded queue allows each of them. -/
def replay (capacity : Nat) : List α → List (QueueOp α) → Option (List α)
  | queue, [] => some queue
  | queue, op :: ops =>
    match apply capacity queue op with
    | none => none
    | some queue => replay capacity queue ops

def accepted : QueueOp α → Option α
  | .accept entry => some entry
  | .reject _ => none
  | .take _ => none

def taken : QueueOp α → Option (Option α)
  | .accept _ => none
  | .reject _ => none
  | .take entry => some entry

variable {capacity : Nat} {queue queue' : List α}

theorem replay_append {ops : List (QueueOp α)} {op : QueueOp α} {start : List α}
    (before : replay capacity start ops = some queue)
    (last : apply capacity queue op = some queue') :
    replay capacity start (ops ++ [op]) = some queue' := by
  induction ops generalizing start with
  | nil =>
    cases before
    simp only [List.nil_append, replay, last]
  | cons first rest ih =>
    simp only [replay] at before
    simp only [List.cons_append, replay]
    split at before
    · cases before
    · rename_i middle _
      exact ih before

theorem replay_fifo {ops : List (QueueOp α)} {start : List α}
    (replayed : replay capacity start ops = some queue) :
    (start ++ ops.filterMap accepted).map some = ops.filterMap taken ++ queue.map some := by
  induction ops generalizing start with
  | nil =>
    cases replayed
    simp
  | cons op rest ih =>
    simp only [replay] at replayed
    split at replayed
    · cases replayed
    rename_i middle applied
    have tail := ih replayed
    cases op with
    | accept entry =>
      simp only [apply] at applied
      split at applied
      · obtain rfl := Option.some.inj applied
        simpa [List.filterMap_cons, accepted, taken] using tail
      · cases applied
    | reject entry =>
      simp only [apply] at applied
      split at applied
      · cases applied
      · obtain rfl := Option.some.inj applied
        simpa [List.filterMap_cons, accepted, taken] using tail
    | take entry =>
      simp only [apply] at applied
      split at applied
      · cases applied
      · split at applied
        · rename_i same
          subst same
          obtain rfl := Option.some.inj applied
          simpa [List.filterMap_cons, accepted, taken] using tail
        · cases applied

end QueueOp

end EveAgent
