import Mathlib

/-! Walks over a table: each request asks for the next index, and the walk ends with the first
request that has no answer. -/

namespace EveAgent.IndexWalk

/-- `fault` stands for an access to memory that is not there. -/
inductive Answer (V : Type*) where
  | null
  | fault
  | row (index : Nat) (value : V)
  deriving DecidableEq, Repr

variable {S V : Type*}

/-- The rows answered one after the other, from the first index behind this one on. There is no
result when the walk faults or is not over yet. -/
def walk (getNext : S → Option Nat → S × Answer V) : Nat → S → Option Nat → Option (List (Nat × V))
  | 0, _, _ => none
  | fuel + 1, state, last =>
    match getNext state last with
    | (_, .null) => some []
    | (_, .fault) => none
    | (next, .row index value) => (walk getNext fuel next (some index)).map ((index, value) :: ·)

def Behind : Option Nat → Nat → Prop
  | none, _ => True
  | some last, index => last < index

instance (last : Option Nat) (index : Nat) : Decidable (Behind last index) :=
  match last with
  | none => isTrue trivial
  | some last => inferInstanceAs (Decidable (last < index))

/-- The least of the indices behind the last one. -/
structure IsNext (indices : List Nat) (last : Option Nat) (index : Nat) : Prop where
  present : index ∈ indices
  behind : Behind last index
  least : ∀ other ∈ indices, Behind last other → index ≤ other

/-- Each index is visited once, in ascending order, with its own value. -/
structure Visits (indices : List Nat) (own : Nat → Option V) (rows : List (Nat × V)) : Prop where
  ascending : (rows.map Prod.fst).Pairwise (· < ·)
  visited : ∀ index, index ∈ rows.map Prod.fst ↔ index ∈ indices
  values : ∀ row ∈ rows, own row.1 = some row.2

/-- The walk from the start of the column ends, and has visited the rows. -/
def Walks (getNext : S → Option Nat → S × Answer V) (state : S) (indices : List Nat)
    (own : Nat → Option V) : Prop :=
  ∃ fuel rows, walk getNext fuel state none = some rows ∧ Visits indices own rows

/-- A request answers with the next index and its value, or finds that there is none. -/
structure Steps (getNext : S → Option Nat → S × Answer V) (kept : S → Prop) (indices : List Nat)
    (own : Nat → Option V) : Prop where
  last : ∀ state last, kept state → (∀ index ∈ indices, ¬Behind last index) →
    (getNext state last).2 = .null
  next : ∀ state last index, kept state → IsNext indices last index →
    ∃ value, (getNext state last).2 = .row index value ∧ own index = some value ∧
      kept (getNext state last).1

variable {getNext : S → Option Nat → S × Answer V} {kept : S → Prop} {indices : List Nat}
  {own : Nat → Option V} {state : S} {last : Option Nat} {rows : List (Nat × V)}

theorem exists_isNext {index : Nat} (present : index ∈ indices) (behind : Behind last index) :
    ∃ next, IsNext indices last next := by
  induction index using Nat.strong_induction_on with
  | _ index ih =>
    by_cases least : ∀ other ∈ indices, Behind last other → index ≤ other
    · exact ⟨index, present, behind, least⟩
    · push Not at least
      obtain ⟨other, member, farther, below⟩ := least
      exact ih other below member farther

theorem behind_next {index : Nat} (next : IsNext indices last index) (other : Nat)
    (member : other ∈ indices) :
    Behind last other ↔ other = index ∨ Behind (some index) other := by
  constructor
  · intro behind
    rcases Nat.eq_or_lt_of_le (next.least other member behind) with same | above
    · exact Or.inl same.symm
    · exact Or.inr above
  · rintro (same | above)
    · rw [same]
      exact next.behind
    · have first := next.behind
      cases last with
      | none => trivial
      | some last => exact Nat.lt_trans first above

def left (indices : List Nat) (last : Option Nat) : Nat :=
  (indices.toFinset.filter (Behind last)).card

theorem left_lt {index : Nat} (next : IsNext indices last index) :
    left indices (some index) < left indices last := by
  apply Finset.card_lt_card
  rw [Finset.ssubset_iff_of_subset]
  · apply Exists.intro index
    constructor
    · exact Finset.mem_filter.mpr ⟨List.mem_toFinset.mpr next.present, next.behind⟩
    · intro again
      exact Nat.lt_irrefl index (Finset.mem_filter.mp again).2
  · intro other member
    obtain ⟨present, behind⟩ := Finset.mem_filter.mp member
    have listed := List.mem_toFinset.mp present
    exact Finset.mem_filter.mpr ⟨present, (behind_next next other listed).mpr (Or.inr behind)⟩

theorem Steps.walks_from (steps : Steps getNext kept indices own) (state : S)
    (last : Option Nat) (holds : kept state) :
    ∃ fuel rows, walk getNext fuel state last = some rows ∧
      (rows.map Prod.fst).Pairwise (· < ·) ∧
      (∀ index, index ∈ rows.map Prod.fst ↔ index ∈ indices ∧ Behind last index) ∧
      ∀ row ∈ rows, own row.1 = some row.2 := by
  generalize count : left indices last = size
  induction size using Nat.strong_induction_on generalizing state last with
  | _ size ih =>
    by_cases more : ∃ index ∈ indices, Behind last index
    · obtain ⟨some, present, behind⟩ := more
      obtain ⟨index, next⟩ := exists_isNext present behind
      obtain ⟨value, answer, right, after⟩ := steps.next state last index holds next
      obtain ⟨fuel, rows, ended, ascending, visited, values⟩ :=
        ih _ (count ▸ left_lt next) (getNext state last).1 _ after rfl
      refine ⟨fuel + 1, (index, value) :: rows, ?_, ?_, ?_, ?_⟩
      · have whole : getNext state last = ((getNext state last).1, .row index value) := by
          rw [← answer]
        rw [walk, whole]
        simp only
        rw [ended]
        rfl
      · rw [List.map_cons, List.pairwise_cons]
        constructor
        · intro other member
          exact ((visited other).mp member).2
        · exact ascending
      · intro other
        rw [List.map_cons, List.mem_cons, visited]
        constructor
        · rintro (same | ⟨listed, later⟩)
          · rw [same]
            exact ⟨next.present, next.behind⟩
          · exact ⟨listed, (behind_next next other listed).mpr (Or.inr later)⟩
        · intro listed
          rcases (behind_next next other listed.1).mp listed.2 with same | later
          · exact Or.inl same
          · exact Or.inr ⟨listed.1, later⟩
      · intro row member
        rcases List.mem_cons.mp member with first | later
        · rw [first]
          exact right
        · exact values row later
    · push Not at more
      have finished := steps.last state last holds more
      refine ⟨1, [], ?_, List.Pairwise.nil, ?_, nofun⟩
      · have whole : getNext state last = ((getNext state last).1, .null) := by
          rw [← finished]
        rw [walk, whole]
      · intro index
        constructor
        · rintro ⟨⟩
        · intro listed
          exact absurd listed.2 (more index listed.1)

/-- A walk of right answers visits the rows. -/
theorem Steps.walks (kept : S → Prop) (steps : Steps getNext kept indices own)
    (holds : kept state) :
    Walks getNext state indices own := by
  obtain ⟨fuel, rows, ended, ascending, visited, values⟩ := steps.walks_from state none holds
  apply Exists.intro fuel
  apply Exists.intro rows
  constructor
  · exact ended
  · constructor
    · exact ascending
    · intro index
      rw [visited]
      exact and_iff_left trivial
    · exact values

theorem mem_walk (kept : S → Prop) {fuel : Nat}
    (preserved : ∀ state last index value, kept state →
      (getNext state last).2 = .row index value → kept (getNext state last).1)
    (holds : kept state) (ended : walk getNext fuel state last = some rows) {row : Nat × V}
    (member : row ∈ rows) :
    ∃ state last, kept state ∧ (getNext state last).2 = .row row.1 row.2 := by
  induction fuel generalizing state last rows with
  | zero => cases ended
  | succ fuel ih =>
    rw [walk] at ended
    split at ended
    · cases ended
      cases member
    · cases ended
    · next next index value answer =>
        rw [Option.map_eq_some_iff] at ended
        obtain ⟨later, rest, joined⟩ := ended
        have answered : (getNext state last).2 = .row index value := by rw [answer]
        have after := preserved state last index value holds answered
        rw [answer] at after
        rw [← joined] at member
        rcases List.mem_cons.mp member with first | behind
        · exact ⟨state, last, holds, by rw [first]; exact answered⟩
        · exact ih after rest behind

end EveAgent.IndexWalk
