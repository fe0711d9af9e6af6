import EveAgent.Chain

/-! Linked lists with contents: cells in memory that hold a value and the address of the
next one. A segment leads from a pointer through its cells to another pointer. -/

namespace EveAgent.Cells

structure Cell (A V : Type*) where
  val : V
  next : Option A
  deriving DecidableEq, Repr

/-- `none` where nothing is allocated. -/
abbrev Heap (A V : Type*) := A → Option (Cell A V)

variable {A V : Type*} {heap heap' : Heap A V} {p q r : Option A} {a b : A} {v w : V}
  {xs ys : List (A × V)} {cell : Cell A V}

def Segment (heap : Heap A V) : Option A → List (A × V) → Option A → Prop
  | p, [], q => p = q
  | p, (a, v) :: xs, q => p = some a ∧ ∃ next, heap a = some ⟨v, next⟩ ∧ Segment heap next xs q

def addresses (xs : List (A × V)) : List A := xs.map Prod.fst

@[simp] theorem addresses_nil : addresses ([] : List (A × V)) = [] := rfl

@[simp] theorem addresses_cons : addresses ((a, v) :: xs) = a :: addresses xs := rfl

@[simp] theorem addresses_append : addresses (xs ++ ys) = addresses xs ++ addresses ys :=
  List.map_append

theorem mem_addresses (member : (a, v) ∈ xs) : a ∈ addresses xs := List.mem_map_of_mem member

@[simp] theorem segment_nil : Segment heap p [] q ↔ p = q := Iff.rfl

theorem segment_append : Segment heap p (xs ++ ys) r ↔
    ∃ q, Segment heap p xs q ∧ Segment heap q ys r := by
  induction xs generalizing p with
  | nil => simp
  | cons head tail ih =>
    constructor
    · rintro ⟨start, next, held, rest⟩
      obtain ⟨q, front, back⟩ := ih.mp rest
      exact ⟨q, ⟨start, next, held, front⟩, back⟩
    · rintro ⟨q, ⟨start, next, held, front⟩, back⟩
      exact ⟨start, next, held, ih.mpr ⟨q, front, back⟩⟩

theorem Segment.middle (segment : Segment heap p (xs ++ (a, v) :: ys) q) :
    ∃ next, Segment heap p xs (some a) ∧ heap a = some ⟨v, next⟩ ∧ Segment heap next ys q := by
  obtain ⟨r, front, start, next, held, back⟩ := segment_append.mp segment
  subst start
  exact ⟨next, front, held, back⟩

theorem Segment.join {next : Option A} (front : Segment heap p xs (some a))
    (held : heap a = some ⟨v, next⟩) (back : Segment heap next ys q) :
    Segment heap p (xs ++ (a, v) :: ys) q :=
  segment_append.mpr ⟨some a, front, rfl, next, held, back⟩

theorem Segment.read (segment : Segment heap p xs q) (member : (a, v) ∈ xs) :
    ∃ next, heap a = some ⟨v, next⟩ := by
  obtain ⟨front, back, rfl⟩ := List.append_of_mem member
  obtain ⟨next, _, held, _⟩ := segment.middle
  exact ⟨next, held⟩

theorem Segment.held (segment : Segment heap p xs q) (member : a ∈ addresses xs) :
    ∃ cell, heap a = some cell := by
  obtain ⟨⟨b, v⟩, inside, rfl⟩ := List.mem_map.mp member
  obtain ⟨next, held⟩ := segment.read inside
  exact ⟨_, held⟩

theorem Segment.head (segment : Segment heap p xs none) : p = (addresses xs).head? := by
  cases xs with
  | nil => exact segment
  | cons cell xs => exact segment.1

theorem Segment.congr (segment : Segment heap p xs q)
    (same : ∀ a ∈ addresses xs, heap' a = heap a) : Segment heap' p xs q := by
  induction xs generalizing p with
  | nil => exact segment
  | cons head tail ih =>
    obtain ⟨start, next, held, rest⟩ := segment
    refine ⟨start, next, ?_, ih rest fun a member => same a (List.mem_cons_of_mem _ member)⟩
    rw [same head.1 List.mem_cons_self, held]

theorem Segment.nodup (segment : Segment heap p xs none) : (addresses xs).Nodup := by
  have chain : ∀ {p : Option A} {xs : List (A × V)}, Segment heap p xs none →
      Chain.IsChain (fun a => (heap a).map Cell.next) p (addresses xs) := by
    intro p xs
    induction xs generalizing p with
    | nil => exact id
    | cons head tail ih =>
      rintro ⟨start, next, held, rest⟩
      exact ⟨start, next, by simp [held], ih rest⟩
  exact (chain segment).nodup

/-- The last of the addresses, with one before them. -/
def lastAddress (a : A) (xs : List (A × V)) : A := (addresses xs).getLast?.getD a

theorem lastAddress_cons (a : A) : lastAddress a ((b, v) :: xs) = lastAddress b xs := by
  rw [lastAddress, lastAddress, addresses_cons, List.getLast?_cons, Option.getD_some]

theorem exists_last (a : A) (v : V) (xs : List (A × V)) :
    ∃ init last, (a, v) :: xs = init ++ [(lastAddress a xs, last)] := by
  induction xs generalizing a v with
  | nil => exact ⟨[], v, rfl⟩
  | cons head tail ih =>
    obtain ⟨b, w⟩ := head
    obtain ⟨init, last, split⟩ := ih b w
    exact ⟨(a, v) :: init, last, by rw [lastAddress_cons, split]; rfl⟩

/-- A loop that looks at the cell behind its own passes over the cells it goes on from. -/
theorem Segment.walkAhead {R : Type*}
    (segment : Segment heap (some a) ((a, v) :: (xs ++ ys)) none) (loop : Nat → Option A → R)
    (passes : ∀ entry ∈ xs, ∀ fuel b w next, heap b = some ⟨w, some entry.1⟩ →
      heap entry.1 = some ⟨entry.2, next⟩ → loop (fuel + 1) (some b) = loop fuel (some entry.1))
    (fuel : Nat) :
    ∃ w, Segment heap (some (lastAddress a xs)) ((lastAddress a xs, w) :: ys) none ∧
      loop (xs.length + fuel) (some a) = loop fuel (some (lastAddress a xs)) := by
  induction xs generalizing a v with
  | nil => exact ⟨v, segment, by rw [List.length_nil, Nat.zero_add]; rfl⟩
  | cons head tail ih =>
    obtain ⟨b, w⟩ := head
    obtain ⟨_, _, held, rest⟩ := segment
    have behind := rest
    obtain ⟨rfl, next, held', _⟩ := rest
    obtain ⟨u, reached, walked⟩ := ih behind fun entry member =>
      passes entry (List.mem_cons_of_mem _ member)
    rw [lastAddress_cons]
    refine ⟨u, reached, ?_⟩
    rw [← walked, List.length_cons, Nat.add_right_comm]
    exact passes (b, w) List.mem_cons_self _ a v next held held'

theorem Segment.apart (segment : Segment heap p (xs ++ (a, v) :: ys) none) :
    a ∉ addresses xs ∧ a ∉ addresses ys ∧
      ∀ b ∈ addresses xs, b ∉ addresses ys := by
  have nodup := segment.nodup
  rw [addresses_append, addresses_cons, List.nodup_append] at nodup
  obtain ⟨_, back, apart⟩ := nodup
  refine ⟨fun member => apart a member a List.mem_cons_self rfl, (List.nodup_cons.mp back).1, ?_⟩
  intro b member member'
  exact apart b member b (List.mem_cons_of_mem _ member') rfl

theorem Segment.apart_next (segment : Segment heap p (xs ++ (a, v) :: (b, w) :: ys) none) :
    b ∉ addresses (xs ++ (a, v) :: ys) := by
  have shifted : xs ++ (a, v) :: (b, w) :: ys = (xs ++ [(a, v)]) ++ (b, w) :: ys := by simp
  rw [shifted] at segment
  obtain ⟨front, back, _⟩ := segment.apart
  rw [addresses_append, List.mem_append, not_or] at front ⊢
  rw [addresses_cons, List.mem_cons, not_or]
  rw [addresses_cons, List.mem_cons, not_or] at front
  exact ⟨front.1, front.2.1, back⟩

section Updates

variable [DecidableEq A]

theorem Segment.update (segment : Segment heap p xs q) (outside : a ∉ addresses xs)
    (cell : Option (Cell A V)) : Segment (Function.update heap a cell) p xs q := by
  apply segment.congr
  intro b member
  apply Function.update_of_ne
  rintro rfl
  exact outside member

theorem Segment.overwrite (segment : Segment heap p (xs ++ (a, v) :: ys) none)
    (held : heap a = some cell) (w : V) :
    Segment (Function.update heap a (some { cell with val := w })) p (xs ++ (a, w) :: ys)
      none := by
  obtain ⟨outsideFront, outsideBack, _⟩ := segment.apart
  obtain ⟨next, front, held', back⟩ := segment.middle
  obtain rfl := Option.some.inj (held.symm.trans held')
  apply (front.update outsideFront _).join _ (back.update outsideBack _)
  exact Function.update_self ..

theorem Segment.insert (segment : Segment heap p (xs ++ (a, v) :: ys) none)
    (held : heap a = some cell) (fresh : b ∉ addresses (xs ++ (a, v) :: ys)) (w : V) :
    Segment (Function.update (Function.update heap b (some ⟨w, cell.next⟩)) a
      (some { cell with next := some b })) p (xs ++ (a, v) :: (b, w) :: ys) none := by
  obtain ⟨outsideFront, outsideBack, _⟩ := segment.apart
  obtain ⟨next, front, held', back⟩ := segment.middle
  obtain rfl := Option.some.inj (held.symm.trans held')
  rw [addresses_append, addresses_cons, List.mem_append, List.mem_cons, not_or, not_or] at fresh
  obtain ⟨newFront, newCell, newBack⟩ := fresh
  apply ((front.update newFront _).update outsideFront _).join (Function.update_self ..)
  refine ⟨rfl, next, ?_, (back.update newBack _).update outsideBack _⟩
  rw [Function.update_of_ne newCell]
  exact Function.update_self ..

theorem Segment.unlink {gone : Cell A V}
    (segment : Segment heap p (xs ++ (a, v) :: (b, w) :: ys) none)
    (held : heap a = some cell) (held' : heap b = some gone) :
    Segment (Function.update heap a (some { cell with next := gone.next })) p
      (xs ++ (a, v) :: ys) none := by
  obtain ⟨outsideFront, outsideBack, _⟩ := segment.apart
  obtain ⟨next, front, here, back⟩ := segment.middle
  obtain rfl := Option.some.inj (held.symm.trans here)
  obtain ⟨rfl, next', there, rest⟩ := back
  obtain rfl := Option.some.inj (held'.symm.trans there)
  rw [addresses_cons, List.mem_cons, not_or] at outsideBack
  apply (front.update outsideFront _).join
  · exact Function.update_self ..
  · exact rest.update outsideBack.2 _

theorem Segment.remove {gone : Cell A V}
    (segment : Segment heap p (xs ++ (a, v) :: (b, w) :: ys) none)
    (held : heap a = some cell) (held' : heap b = some gone) :
    Segment (Function.update (Function.update heap a (some { cell with next := gone.next })) b
      none) p (xs ++ (a, v) :: ys) none :=
  (segment.unlink held held').update segment.apart_next none

theorem Segment.swap {r : A} {u : V} {next : Option A}
    (segment : Segment heap p (xs ++ (r, u) :: (a, v) :: (b, w) :: ys) none)
    (held : heap b = some ⟨w, next⟩) :
    Segment (Function.update (Function.update (Function.update heap b (some ⟨w, some a⟩)) a
      (some ⟨v, next⟩)) r (some ⟨u, some b⟩)) p (xs ++ (r, u) :: (b, w) :: (a, v) :: ys) none := by
  obtain ⟨outside, behind, apart⟩ := segment.apart
  obtain ⟨_, front, _, start, _, _, start', _, held', back⟩ := segment.middle
  obtain rfl := (Cell.mk.inj (Option.some.inj (held.symm.trans held'))).2
  have shifted : xs ++ (r, u) :: (a, v) :: (b, w) :: ys =
      (xs ++ [(r, u), (a, v)]) ++ (b, w) :: ys := by simp
  have notA := segment.apart_next
  rw [shifted] at segment
  obtain ⟨outsideB, behindB, _⟩ := segment.apart
  simp only [addresses_append, addresses_cons, addresses_nil, List.mem_append, List.mem_cons,
    List.not_mem_nil, or_false, not_or] at outside behind apart outsideB behindB notA
  obtain ⟨otherA, otherB, behindR⟩ := behind
  have frontA : a ∉ addresses xs := notA.1
  have behindA : a ∉ addresses ys := notA.2.2.2
  have front' := ((front.update outsideB.1 (some ⟨w, some a⟩)).update frontA
    (some ⟨v, next⟩)).update outside (some ⟨u, some b⟩)
  have back' := ((back.update behindB (some ⟨w, some a⟩)).update behindA
    (some ⟨v, next⟩)).update behindR (some ⟨u, some b⟩)
  apply front'.join (Function.update_self ..)
  refine ⟨rfl, some a, ?_, rfl, next, ?_, back'⟩
  · rw [Function.update_of_ne (Ne.symm otherB), Function.update_of_ne outsideB.2.2]
    exact Function.update_self ..
  · rw [Function.update_of_ne (Ne.symm otherA)]
    exact Function.update_self ..

end Updates

end EveAgent.Cells
