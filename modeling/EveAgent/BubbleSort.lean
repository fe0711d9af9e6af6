import Mathlib

/-! Bubble sort by passes over a list: each pass carries a maximum to the end of
the part that is still unsorted. -/

namespace EveAgent.BubbleSort

variable {A : Type*} (key : A → Nat)

/-- One pass: `p` moves right past the elements with smaller keys. -/
def sweep : A → List A → List A
  | p, [] => [p]
  | p, q :: rest => if key q < key p then q :: sweep p rest else p :: sweep q rest

/-- The passes over the unsorted part; `done` is the sorted one. -/
def passes : Nat → List A → List A → List A
  | 0, list, done => list ++ done
  | _ + 1, [], done => done
  | fuel + 1, p :: rest, done =>
    passes fuel (sweep key p rest).dropLast ((sweep key p rest).getLast?.toList ++ done)

def bubbleSort (list : List A) : List A := passes key list.length list []

theorem sweep_perm (p : A) (list : List A) : (sweep key p list).Perm (p :: list) := by
  induction list generalizing p with
  | nil => exact List.Perm.refl _
  | cons q rest ih =>
    simp only [sweep]
    by_cases smaller : key q < key p
    · rw [if_pos smaller]
      exact ((ih p).cons q).trans (List.Perm.swap p q rest)
    · rw [if_neg smaller]
      exact (ih q).cons p

theorem sweep_ne_nil (p : A) (list : List A) : sweep key p list ≠ [] := by
  intro empty
  have lengths := (sweep_perm key p list).length_eq
  rw [empty] at lengths
  simp at lengths

theorem sweep_split (p : A) (list : List A) :
    (sweep key p list).dropLast ++ (sweep key p list).getLast?.toList = sweep key p list := by
  rw [List.getLast?_eq_some_getLast (sweep_ne_nil key p list)]
  exact List.dropLast_append_getLast (sweep_ne_nil key p list)

theorem passes_perm (fuel : Nat) (list done : List A) :
    (passes key fuel list done).Perm (list ++ done) := by
  induction fuel generalizing list done with
  | zero => exact List.Perm.refl _
  | succ fuel ih =>
    cases list with
    | nil => exact List.Perm.refl _
    | cons p rest =>
      refine (ih _ _).trans ?_
      rw [← List.append_assoc, sweep_split]
      exact (sweep_perm key p rest).append_right done

theorem bubbleSort_perm (list : List A) : (bubbleSort key list).Perm list := by
  have perm := passes_perm key list.length list []
  rwa [List.append_nil] at perm

theorem sweep_filter (p : A) (list : List A) (k : Nat) :
    (sweep key p list).filter (fun x => key x = k) = (p :: list).filter (fun x => key x = k) := by
  induction list generalizing p with
  | nil => rfl
  | cons q rest ih =>
    by_cases smaller : key q < key p
    · have different : ¬(key p = k ∧ key q = k) := by omega
      rw [sweep, if_pos smaller, List.filter_cons, ih]
      by_cases first : key p = k
      · have second : key q ≠ k := fun same => different ⟨first, same⟩
        simp [first, second]
      · simp [first, List.filter_cons]
    · rw [sweep, if_neg smaller]
      simp only [List.filter_cons, ih]

theorem passes_filter (fuel : Nat) (list done : List A) (k : Nat) :
    (passes key fuel list done).filter (fun x => key x = k) =
      (list ++ done).filter (fun x => key x = k) := by
  induction fuel generalizing list done with
  | zero => rfl
  | succ fuel ih =>
    cases list with
    | nil => rfl
    | cons p rest =>
      rw [passes, ih, ← List.append_assoc, sweep_split, List.filter_append, sweep_filter,
        ← List.filter_append]

theorem bubbleSort_filter (list : List A) (k : Nat) :
    (bubbleSort key list).filter (fun x => key x = k) = list.filter (fun x => key x = k) := by
  rw [bubbleSort, passes_filter, List.append_nil]

theorem sweep_minimal {p : A} (zero : key p = 0) (q : A) (rest : List A) :
    sweep key p (q :: rest) = p :: sweep key q rest := by
  have stays : ¬ key q < key p := by omega
  rw [sweep, if_neg stays]

theorem passes_minimal {p : A} (zero : key p = 0) {fuel : Nat} {list : List A}
    (enough : list.length ≤ fuel) (done : List A) :
    passes key (fuel + 1) (p :: list) done = p :: passes key fuel list done := by
  induction fuel generalizing list done with
  | zero =>
    obtain rfl := List.eq_nil_of_length_eq_zero (Nat.le_zero.mp enough)
    rfl
  | succ fuel ih =>
    cases list with
    | nil => rfl
    | cons q rest =>
      have swept := sweep_minimal key zero q rest
      have shorter : (sweep key q rest).dropLast.length ≤ fuel := by
        have length := (sweep_perm key q rest).length_eq
        rw [List.length_dropLast, length]
        rw [List.length_cons] at enough ⊢
        omega
      rw [passes, swept, List.dropLast_cons_of_ne_nil (sweep_ne_nil key q rest), ih shorter, passes]
      rw [List.getLast?_cons, List.getLast?_eq_some_getLast (sweep_ne_nil key q rest)]
      rfl

theorem bubbleSort_minimal {p : A} (zero : key p = 0) (list : List A) :
    bubbleSort key (p :: list) = p :: bubbleSort key list :=
  passes_minimal key zero (Nat.le_refl _) []

theorem sweep_max (p : A) (list : List A) {m : A} (last : (sweep key p list).getLast? = some m) :
    ∀ x ∈ sweep key p list, key x ≤ key m := by
  induction list generalizing p with
  | nil =>
    intro x member
    rw [sweep, List.mem_singleton] at member
    rw [sweep, List.getLast?_singleton, Option.some.injEq] at last
    rw [member, last]
  | cons q rest ih =>
    intro x member
    by_cases smaller : key q < key p
    · rw [sweep, if_pos smaller, List.getLast?_cons_of_ne_nil (sweep_ne_nil key p rest)] at last
      rw [sweep, if_pos smaller, List.mem_cons] at member
      rcases member with first | later
      · have inside : p ∈ sweep key p rest :=
          (sweep_perm key p rest).mem_iff.mpr List.mem_cons_self
        have bound := ih p last p inside
        rw [first]
        omega
      · exact ih p last x later
    · rw [sweep, if_neg smaller, List.getLast?_cons_of_ne_nil (sweep_ne_nil key q rest)] at last
      rw [sweep, if_neg smaller, List.mem_cons] at member
      rcases member with first | later
      · have inside : q ∈ sweep key q rest :=
          (sweep_perm key q rest).mem_iff.mpr List.mem_cons_self
        have bound := ih q last q inside
        rw [first]
        omega
      · exact ih q last x later

theorem passes_sorted {fuel : Nat} {list done : List A} (enough : list.length ≤ fuel)
    (sorted : done.Pairwise fun x y => key x ≤ key y)
    (below : ∀ x ∈ list, ∀ y ∈ done, key x ≤ key y) :
    (passes key fuel list done).Pairwise fun x y => key x ≤ key y := by
  induction fuel generalizing list done with
  | zero =>
    rw [List.eq_nil_of_length_eq_zero (Nat.le_zero.mp enough)]
    exact sorted
  | succ fuel ih =>
    cases list with
    | nil => exact sorted
    | cons p rest =>
      have same : ∀ {x}, x ∈ sweep key p rest ↔ x ∈ p :: rest := (sweep_perm key p rest).mem_iff
      have last := List.getLast?_eq_some_getLast (sweep_ne_nil key p rest)
      have top := sweep_max key p rest last
      rw [passes, last, Option.toList_some, List.singleton_append]
      apply ih
      · rw [List.length_dropLast, (sweep_perm key p rest).length_eq]
        rw [List.length_cons] at enough ⊢
        omega
      · constructor
        · intro y member
          exact below _ (same.mp (List.getLast_mem (sweep_ne_nil key p rest))) y member
        · exact sorted
      · intro x member y inside
        have swept : x ∈ sweep key p rest := List.dropLast_subset _ member
        rcases List.mem_cons.mp inside with equal | inside
        · rw [equal]
          exact top x swept
        · exact below x (same.mp swept) y inside

theorem bubbleSort_sorted (list : List A) :
    (bubbleSort key list).Pairwise fun x y => key x ≤ key y := by
  apply passes_sorted key (Nat.le_refl _) List.Pairwise.nil
  intro x _ y member
  cases member

end EveAgent.BubbleSort
