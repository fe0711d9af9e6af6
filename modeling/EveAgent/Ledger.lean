import EveAgent.Cells

/-! A store whose cells are allocated and freed, with a ledger of both, and the single list that
owns every cell of it. -/

namespace EveAgent.Ledger

open Cells

structure Store (V : Type*) where
  heap : Heap Nat V
  /-- The addresses below have been handed out. -/
  allocated : Nat
  freed : List Nat

variable {V : Type*}

def Store.empty : Store V := ⟨fun _ => none, 0, []⟩

/-- `none` when nothing is allocated there. -/
def Store.free (store : Store V) (a : Nat) : Option (Store V) :=
  match store.heap a with
  | none => none
  | some _ =>
    some { store with heap := Function.update store.heap a none, freed := a :: store.freed }

/-- The loop that frees a list from its first cell on. -/
def Store.freeList : Nat → Option Nat → Store V → Option (Store V)
  | _, none, store => some store
  | 0, some _, _ => none
  | fuel + 1, some a, store =>
    match store.heap a with
    | none => none
    | some cell => (store.free a).bind (freeList fuel cell.next)

/-- The cells are written one behind the other. -/
def link (heap : Heap Nat V) : List (Nat × V) → Heap Nat V
  | [] => heap
  | (a, v) :: xs => Function.update (link heap xs) a (some ⟨v, (addresses xs).head?⟩)

/-- The list from `p` holds whatever is allocated, and everything else has been freed once. -/
structure Owns (store : Store V) (p : Option Nat) (cells : List (Nat × V)) : Prop where
  segment : Segment store.heap p cells none
  only : ∀ a, store.heap a ≠ none → a ∈ addresses cells
  ledger : (addresses cells ++ store.freed).Perm (List.range store.allocated)

variable {store : Store V} {p : Option Nat} {cells : List (Nat × V)} {a : Nat} {v : V}

theorem Owns.empty : Owns (Store.empty : Store V) none [] := by
  constructor
  · rfl
  · intro a held
    exact absurd rfl held
  · exact List.Perm.refl _

/-- What the list holds, as far as the fuel lasts. -/
def Store.contents (store : Store V) : Nat → Option Nat → List V
  | 0, _ => []
  | _, none => []
  | fuel + 1, some a =>
    match store.heap a with
    | none => []
    | some cell => cell.val :: store.contents fuel cell.next

theorem Owns.length (owns : Owns store p cells) : cells.length ≤ store.allocated := by
  have length := owns.ledger.length_eq
  rw [List.length_append, List.length_range, addresses, List.length_map] at length
  omega

theorem contents_segment {fuel : Nat} (segment : Segment store.heap p cells none)
    (enough : cells.length ≤ fuel) : store.contents fuel p = cells.map Prod.snd := by
  induction cells generalizing p fuel with
  | nil =>
    have ended : p = none := segment
    subst ended
    cases fuel with
    | zero => rfl
    | succ fuel => rfl
  | cons head tail ih =>
    obtain ⟨start, next, held, rest⟩ := segment
    subst start
    cases fuel with
    | zero => cases enough
    | succ fuel =>
      rw [Store.contents, held, List.map_cons]
      dsimp only
      rw [ih rest (Nat.le_of_succ_le_succ enough)]

theorem Owns.free (owns : Owns store p ((a, v) :: cells)) :
    ∃ next store', store.heap a = some ⟨v, next⟩ ∧ store.free a = some store' ∧
      Owns store' next cells := by
  obtain ⟨_, next, held, rest⟩ := owns.segment
  have outside : a ∉ addresses cells := (List.nodup_cons.mp owns.segment.nodup).1
  refine ⟨next, _, held, by rw [Store.free, held], ?_⟩
  constructor
  · exact rest.update outside none
  · intro b held'
    dsimp only at held'
    by_cases same : b = a
    · rw [same, Function.update_self] at held'
      exact absurd rfl held'
    · rw [Function.update_of_ne same] at held'
      exact (List.mem_cons.mp (owns.only b held')).resolve_left same
  · exact List.perm_middle.trans owns.ledger

theorem Owns.freeList {fuel : Nat} (owns : Owns store p cells) (enough : cells.length ≤ fuel) :
    ∃ store', Store.freeList fuel p store = some store' ∧ Owns store' none [] := by
  induction cells generalizing store p fuel with
  | nil =>
    have ended : p = none := owns.segment
    subst ended
    cases fuel with
    | zero => exact ⟨store, rfl, owns⟩
    | succ fuel => exact ⟨store, rfl, owns⟩
  | cons head tail ih =>
    obtain ⟨a, v⟩ := head
    cases fuel with
    | zero => cases enough
    | succ fuel =>
      have start : p = some a := owns.segment.1
      subst start
      obtain ⟨next, store', held, freed, rest⟩ := owns.free
      obtain ⟨done, loop, empty⟩ := ih rest (Nat.le_of_succ_le_succ enough)
      refine ⟨done, ?_, empty⟩
      rw [Store.freeList, held]
      dsimp only
      rw [freed]
      exact loop

theorem link_other (heap : Heap Nat V) (outside : a ∉ addresses cells) :
    link heap cells a = heap a := by
  induction cells with
  | nil => rfl
  | cons head tail ih =>
    rw [addresses_cons, List.mem_cons, not_or] at outside
    rw [link, Function.update_of_ne outside.1]
    exact ih outside.2

theorem segment_link (heap : Heap Nat V) (distinct : (addresses cells).Nodup) :
    Segment (link heap cells) (addresses cells).head? cells none := by
  induction cells with
  | nil => rfl
  | cons head tail ih =>
    obtain ⟨a, v⟩ := head
    obtain ⟨outside, distinct⟩ := List.nodup_cons.mp distinct
    refine ⟨rfl, (addresses tail).head?, Function.update_self .., ?_⟩
    exact (ih distinct).update outside _

/-- A new list is built in an empty store; some of the new cells are freed at once. -/
theorem Owns.build {spare : List Nat} {count : Nat} (owns : Owns store none [])
    (fresh : (addresses cells ++ spare).Perm (List.range' store.allocated count)) :
    Owns
      { heap := link store.heap cells
        allocated := store.allocated + count
        freed := spare ++ store.freed }
      (addresses cells).head? cells := by
  have distinct : (addresses cells ++ spare).Nodup :=
    fresh.nodup_iff.mpr (List.nodup_range' 1)
  constructor
  · exact segment_link store.heap (List.nodup_append.mp distinct).1
  · intro a held
    by_contra outside
    dsimp only at held
    rw [link_other store.heap outside] at held
    cases owns.only a held
  · dsimp only
    rw [← List.append_assoc]
    have whole : (List.range' store.allocated count ++ List.range store.allocated).Perm
        (List.range (store.allocated + count)) := by
      rw [List.range_eq_range', List.range_eq_range', ← List.range'_append_1, Nat.zero_add]
      exact List.perm_append_comm
    exact (fresh.append owns.ledger).trans whole

end EveAgent.Ledger
