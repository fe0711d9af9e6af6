import Mathlib

/-! A table whose rows are kept in the order of their keys. -/

namespace EveAgent

structure SortedTable (V : Type*) (key : V → Nat) where
  rows : List V
  sorted : (rows.map key).Pairwise (· < ·)

namespace SortedTable

section Operations

variable {V : Type*} {key : V → Nat}

def empty : SortedTable V key := ⟨[], List.Pairwise.nil⟩

def findRow (key : V → Nat) (k : Nat) (rows : List V) : Option V :=
  rows.find? fun row => key row == k

/-- The row takes its place, and the place of the row with its key if there is one. -/
def putRow (key : V → Nat) (row : V) : List V → List V
  | [] => [row]
  | first :: rows =>
    if key row < key first then row :: first :: rows
    else if key row = key first then row :: rows
    else first :: putRow key row rows

theorem mem_putRow {row : V} {rows : List V} {k : Nat}
    (member : k ∈ (putRow key row rows).map key) :
    k = key row ∨ k ∈ rows.map key := by
  induction rows with
  | nil => exact Or.inl (by simpa [putRow] using member)
  | cons first rows ih =>
    unfold putRow at member
    split at member
    · simpa using member
    · split at member
      · rcases List.mem_cons.mp member with same | later
        · exact Or.inl same
        · exact Or.inr (List.mem_cons_of_mem _ later)
      · rcases List.mem_cons.mp member with same | later
        · exact Or.inr (same ▸ List.mem_cons_self)
        · rcases ih later with same | old
          · exact Or.inl same
          · exact Or.inr (List.mem_cons_of_mem _ old)

theorem mem_putRow_rows {row other : V} {rows : List V} (member : other ∈ putRow key row rows) :
    other = row ∨ other ∈ rows := by
  induction rows with
  | nil => exact Or.inl (List.mem_singleton.mp member)
  | cons first rows ih =>
    rw [putRow] at member
    split at member
    · exact List.mem_cons.mp member
    · split at member
      · rcases List.mem_cons.mp member with same | later
        · exact Or.inl same
        · exact Or.inr (List.mem_cons_of_mem _ later)
      · rcases List.mem_cons.mp member with same | later
        · exact Or.inr (same ▸ List.mem_cons_self)
        · exact (ih later).imp_right (List.mem_cons_of_mem _)

theorem putRow_sorted {row : V} {rows : List V} (sorted : (rows.map key).Pairwise (· < ·)) :
    ((putRow key row rows).map key).Pairwise (· < ·) := by
  induction rows with
  | nil => exact List.pairwise_singleton _ _
  | cons first rows ih =>
    have heads : ∀ k ∈ rows.map key, key first < k :=
      fun _ member => List.rel_of_pairwise_cons sorted member
    unfold putRow
    split
    · rename_i below
      apply List.Pairwise.cons _ sorted
      intro k member
      rcases List.mem_cons.mp member with same | later
      · rw [same]
        exact below
      · exact below.trans (heads k later)
    · split
      · rename_i same
        apply List.Pairwise.cons _ sorted.of_cons
        intro k member
        rw [same]
        exact heads k member
      · rename_i notBelow other
        apply List.Pairwise.cons _ (ih sorted.of_cons)
        intro k member
        rcases mem_putRow member with same | old
        · rw [same]
          omega
        · exact heads k old

def find (table : SortedTable V key) (k : Nat) : Option V := findRow key k table.rows

def put (table : SortedTable V key) (row : V) : SortedTable V key :=
  ⟨putRow key row table.rows, putRow_sorted table.sorted⟩

def erase (table : SortedTable V key) (k : Nat) : SortedTable V key :=
  ⟨table.rows.filter fun row => key row != k,
    table.sorted.sublist (List.filter_sublist.map key)⟩

/-- Rows with the same keys instead of the rows of the table. -/
def adjust (table : SortedTable V key) (rows : List V) (same : rows.map key = table.rows.map key) :
    SortedTable V key :=
  ⟨rows, same ▸ table.sorted⟩

end Operations

section Lookup

variable {V W : Type*} {key : V → Nat} {table : SortedTable V key} {row : V} {k : Nat}

theorem findRow_cons_self (row : V) (rows : List V) :
    findRow key (key row) (row :: rows) = some row :=
  List.find?_cons_of_pos (beq_self_eq_true _)

theorem findRow_cons_other {rows : List V} (other : key row ≠ k) :
    findRow key k (row :: rows) = findRow key k rows :=
  List.find?_cons_of_neg (by simpa using other)

theorem findRow_append (front back : List V) :
    findRow key k (front ++ back) = (findRow key k front).or (findRow key k back) :=
  List.find?_append

theorem findRow_putRow_self (rows : List V) :
    findRow key (key row) (putRow key row rows) = some row := by
  induction rows with
  | nil => exact findRow_cons_self row []
  | cons first rows ih =>
    unfold putRow
    split
    · exact findRow_cons_self row _
    · split
      · exact findRow_cons_self row _
      · rename_i other
        rw [findRow_cons_other (Ne.symm other), ih]

theorem findRow_putRow_other {rows : List V} (other : key row ≠ k) :
    findRow key k (putRow key row rows) = findRow key k rows := by
  induction rows with
  | nil => exact findRow_cons_other other
  | cons first rows ih =>
    unfold putRow
    split
    · exact findRow_cons_other other
    · split
      · rename_i same
        rw [findRow_cons_other other, findRow_cons_other (same ▸ other)]
      · by_cases here : key first = k
        · subst here
          rw [findRow_cons_self, findRow_cons_self]
        · rw [findRow_cons_other here, findRow_cons_other here, ih]

theorem putRow_last {rows : List V} (last : ∀ first ∈ rows, key first < key row) :
    putRow key row rows = rows ++ [row] := by
  induction rows with
  | nil => rfl
  | cons first rows ih =>
    have less := last first List.mem_cons_self
    rw [putRow, if_neg (Nat.lt_asymm less), if_neg (Nat.ne_of_gt less),
      ih fun other member => last other (List.mem_cons_of_mem _ member), List.cons_append]

theorem findRow_eq_none_iff {rows : List V} : findRow key k rows = none ↔ k ∉ rows.map key := by
  rw [findRow, List.find?_eq_none, List.mem_map]
  constructor
  · rintro absent ⟨row, member, same⟩
    exact absent row member (by simpa using same)
  · intro absent row member same
    exact absent ⟨row, member, by simpa using same⟩

theorem find_key (found : table.find k = some row) : key row = k := by
  have holds := List.find?_some found
  simpa using holds

theorem find_mem (found : table.find k = some row) : row ∈ table.rows :=
  List.mem_of_find?_eq_some found

@[simp] theorem find_empty : (empty : SortedTable V key).find k = none := rfl

@[simp] theorem find_put_self : (table.put row).find (key row) = some row :=
  findRow_putRow_self table.rows

theorem find_put_other (other : key row ≠ k) : (table.put row).find k = table.find k :=
  findRow_putRow_other other

@[simp] theorem find_erase_self : (table.erase k).find k = none := by
  rw [find, findRow, List.find?_eq_none]
  intro row member
  have kept := (List.mem_filter.mp member).2
  simpa using kept

theorem find_erase_other {erased : Nat} (other : erased ≠ k) :
    (table.erase erased).find k = table.find k := by
  show findRow key k (table.rows.filter fun row => key row != erased) = findRow key k table.rows
  induction table.rows with
  | nil => rfl
  | cons first rows ih =>
    by_cases gone : key first = erased
    · rw [List.filter_cons_of_neg (by simpa using gone), ih,
        findRow_cons_other (gone ▸ other)]
    · rw [List.filter_cons_of_pos (by simpa using gone)]
      by_cases here : key first = k
      · subst here
        rw [findRow_cons_self, findRow_cons_self]
      · rw [findRow_cons_other here, findRow_cons_other here, ih]

theorem findRow_agree_iff {rows changed : List V} {g h : V → W}
    (same : changed.map key = rows.map key) (distinct : (rows.map key).Nodup) :
    (∀ k, (findRow key k changed).map g = (findRow key k rows).map h) ↔
      changed.map g = rows.map h := by
  induction rows generalizing changed with
  | nil =>
    rw [List.map_eq_nil_iff.mp same]
    exact ⟨fun _ => rfl, fun _ _ => rfl⟩
  | cons first rows ih =>
    match changed with
    | [] => exact absurd same (by simp)
    | row :: changed =>
      obtain ⟨keys, laterKeys⟩ := List.cons.inj same
      obtain ⟨fresh, laterDistinct⟩ := List.nodup_cons.mp distinct
      rw [List.map_cons, List.map_cons, List.cons.injEq, ← ih laterKeys laterDistinct]
      have absent : ∀ later : List V, later.map key = rows.map key →
          findRow key (key first) later = none := by
        intro later equal
        rw [findRow_eq_none_iff, equal]
        exact fresh
      constructor
      · intro agree
        constructor
        · have here := agree (key first)
          rw [findRow_cons_self, ← keys, findRow_cons_self] at here
          exact Option.some.inj here
        · intro k
          by_cases head : key first = k
          · subst head
            rw [absent changed laterKeys, absent rows rfl]
            rfl
          · have here := agree k
            rwa [findRow_cons_other head, findRow_cons_other (keys ▸ head)] at here
      · intro agree k
        by_cases head : key first = k
        · subst head
          rw [findRow_cons_self, ← keys, findRow_cons_self]
          exact congrArg some agree.1
        · rw [findRow_cons_other head, findRow_cons_other (keys ▸ head)]
          exact agree.2 k

theorem distinct (table : SortedTable V key) : (table.rows.map key).Nodup :=
  table.sorted.imp Nat.ne_of_lt

end Lookup

section Views

variable {V W : Type*} {key : V → Nat} {table other : SortedTable V key} {row : V} {k : Nat}

theorem findRow_of_mem {rows : List V} (distinct : (rows.map key).Nodup) (member : row ∈ rows) :
    findRow key (key row) rows = some row := by
  induction rows with
  | nil => cases member
  | cons first rows ih =>
    obtain ⟨fresh, distinct⟩ := List.nodup_cons.mp distinct
    rcases List.mem_cons.mp member with same | later
    · rw [same, findRow_cons_self]
    · have other : key first ≠ key row := by
        intro same
        exact fresh (same ▸ List.mem_map_of_mem later)
      rw [findRow_cons_other other, ih distinct later]

theorem find_of_mem (member : row ∈ table.rows) : table.find (key row) = some row :=
  findRow_of_mem table.distinct member

theorem find_foldl_put {rows : List V} (distinct : (rows.map key).Nodup) :
    (rows.foldl put table).find k = (findRow key k rows).or (table.find k) := by
  induction rows generalizing table with
  | nil => rfl
  | cons first rows ih =>
    obtain ⟨fresh, distinct⟩ := List.nodup_cons.mp distinct
    rw [List.foldl_cons, ih distinct]
    by_cases here : key first = k
    · subst here
      rw [findRow_eq_none_iff.mpr fresh, findRow_cons_self, find_put_self]
      rfl
    · rw [findRow_cons_other here, find_put_other here]

theorem mem_foldl_put {rows : List V} (member : row ∈ (rows.foldl put table).rows) :
    row ∈ rows ∨ row ∈ table.rows := by
  induction rows generalizing table with
  | nil => exact Or.inr member
  | cons first rows ih =>
    rcases ih member with inside | old
    · exact Or.inl (List.mem_cons_of_mem _ inside)
    · rcases mem_putRow_rows old with same | old
      · exact Or.inl (same ▸ List.mem_cons_self)
      · exact Or.inr old

def insertNew (table : SortedTable V key) (row : V) : SortedTable V key :=
  if (table.find (key row)).isSome then table else table.put row

theorem find_insertNew (table : SortedTable V key) (row : V) (k : Nat) :
    (table.insertNew row).find k = (table.find k).or (findRow key k [row]) := by
  unfold insertNew
  by_cases here : key row = k
  · subst here
    rw [findRow_cons_self]
    cases there : table.find (key row) with
    | none =>
      rw [Option.isSome_none, if_neg Bool.false_ne_true, find_put_self]
      rfl
    | some old =>
      rw [Option.isSome_some, if_pos rfl, there]
      rfl
  · have other : findRow key k [row] = none := by
      rw [findRow_cons_other here]
      rfl
    rw [other, Option.or_none]
    split
    · rfl
    · exact find_put_other here

theorem find_foldl_insertNew (rows : List V) (table : SortedTable V key) (k : Nat) :
    (rows.foldl insertNew table).find k = (table.find k).or (findRow key k rows) := by
  induction rows generalizing table with
  | nil => exact Option.or_none.symm
  | cons row rows ih =>
    calc
      ((row :: rows).foldl insertNew table).find k =
          ((table.insertNew row).find k).or (findRow key k rows) := ih _
      _ = (table.find k).or (findRow key k (row :: rows)) := by
          rw [find_insertNew, Option.or_assoc, ← findRow_append]
          rfl

theorem findRow_filter (test : V → Bool) {rows : List V} (distinct : (rows.map key).Nodup)
    (k : Nat) : findRow key k (rows.filter test) = (findRow key k rows).filter test := by
  induction rows with
  | nil => rfl
  | cons row rows ih =>
    obtain ⟨fresh, laterDistinct⟩ := List.nodup_cons.mp distinct
    have later := ih laterDistinct
    by_cases here : key row = k
    · subst here
      have absent : findRow key (key row) (rows.filter test) = none := by
        rw [later, findRow_eq_none_iff.mpr fresh]
        rfl
      rw [findRow_cons_self]
      by_cases passes : test row = true
      · rw [List.filter_cons_of_pos passes, findRow_cons_self, Option.filter_some_pos passes]
      · have fails : test row = false := by simpa using passes
        rw [List.filter_cons_of_neg passes, absent, Option.filter_some_neg fails]
    · rw [findRow_cons_other here, ← later]
      by_cases passes : test row = true
      · rw [List.filter_cons_of_pos passes, findRow_cons_other here]
      · rw [List.filter_cons_of_neg passes]

/-- A row takes the place of the one with its key, or comes behind all others. -/
def placeRow (key : V → Nat) (row : V) : List V → List V
  | [] => [row]
  | first :: rows => if key first = key row then row :: rows else first :: placeRow key row rows

theorem findRow_placeRow (row : V) (rows : List V) (k : Nat) :
    findRow key k (placeRow key row rows) = (findRow key k [row]).or (findRow key k rows) := by
  by_cases here : key row = k
  · subst here
    rw [findRow_cons_self]
    induction rows with
    | nil => exact findRow_cons_self row []
    | cons first rows ih =>
      rw [placeRow]
      split
      · exact findRow_cons_self row rows
      · rename_i other
        rw [findRow_cons_other other, ih]
        rfl
  · have absent : findRow key k [row] = none := by
      rw [findRow_cons_other here]
      rfl
    rw [absent, Option.none_or]
    induction rows with
    | nil => exact absent
    | cons first rows ih =>
      rw [placeRow]
      split
      · rename_i same
        rw [findRow_cons_other here, findRow_cons_other (same ▸ here)]
      · by_cases head : key first = k
        · subst head
          rw [findRow_cons_self, findRow_cons_self]
        · rw [findRow_cons_other head, findRow_cons_other head, ih]

theorem placeRow_keys (row : V) (rows : List V) :
    (placeRow key row rows).map key =
      if key row ∈ rows.map key then rows.map key else rows.map key ++ [key row] := by
  induction rows with
  | nil => rfl
  | cons first rows ih =>
    rw [placeRow]
    by_cases same : key first = key row
    · rw [if_pos same, List.map_cons, List.map_cons, same, if_pos List.mem_cons_self]
    · rw [if_neg same, List.map_cons, List.map_cons, ih]
      by_cases inside : key row ∈ rows.map key
      · rw [if_pos inside, if_pos (List.mem_cons_of_mem _ inside)]
      · have outside : key row ∉ key first :: rows.map key :=
          List.not_mem_cons_of_ne_of_not_mem (fun equal => same equal.symm) inside
        rw [if_neg inside, if_neg outside, List.cons_append]

theorem placeRow_distinct {rows : List V} (distinct : (rows.map key).Nodup) (row : V) :
    ((placeRow key row rows).map key).Nodup := by
  rw [placeRow_keys]
  split
  · exact distinct
  · rename_i outside
    refine List.nodup_append.mpr ⟨distinct, List.nodup_singleton _, ?_⟩
    rintro a inside b single rfl
    exact outside (List.mem_singleton.mp single ▸ inside)

/-- Tables that show the same at each key show the same in the order of the keys. -/
theorem filterMap_of_find {f : V → Option W}
    (same : ∀ k, (table.find k).bind f = (other.find k).bind f) :
    table.rows.filterMap f = other.rows.filterMap f := by
  have pairs : ∀ table : SortedTable V key, ∀ pair : Nat × W,
      pair ∈ table.rows.filterMap (fun row => (f row).map fun w => (key row, w)) ↔
        (table.find pair.1).bind f = some pair.2 := by
    intro table pair
    rw [List.mem_filterMap]
    constructor
    · intro shown
      obtain ⟨row, member, value⟩ := shown
      obtain ⟨w, shows, rfl⟩ := Option.map_eq_some_iff.mp value
      rw [find_of_mem member, Option.bind_some, shows]
    · intro shown
      obtain ⟨row, found, shows⟩ := Option.bind_eq_some_iff.mp shown
      refine ⟨row, find_mem found, ?_⟩
      rw [shows, Option.map_some, find_key found]
  have ordered : ∀ table : SortedTable V key,
      (table.rows.filterMap fun row => (f row).map fun w => (key row, w)).Pairwise
        fun a b => a.1 < b.1 := by
    intro table
    apply List.Pairwise.filterMap _ _ (List.pairwise_map.mp table.sorted)
    intro a b below p first q second
    obtain ⟨_, _, rfl⟩ := Option.map_eq_some_iff.mp first
    obtain ⟨_, _, rfl⟩ := Option.map_eq_some_iff.mp second
    exact below
  have nodup : ∀ table : SortedTable V key,
      (table.rows.filterMap fun row => (f row).map fun w => (key row, w)).Nodup := by
    intro table
    apply (ordered table).imp
    intro a b below equal
    rw [equal] at below
    exact Nat.lt_irrefl _ below
  have equal : table.rows.filterMap (fun row => (f row).map fun w => (key row, w)) =
      other.rows.filterMap fun row => (f row).map fun w => (key row, w) := by
    apply List.Perm.eq_of_pairwise _ (ordered table) (ordered other)
    · rw [List.perm_ext_iff_of_nodup (nodup table) (nodup other)]
      intro pair
      rw [pairs, pairs, same]
    · intro a b _ _ below above
      exact absurd below (Nat.lt_asymm above)
  have second : ∀ table : SortedTable V key, table.rows.filterMap f =
      (table.rows.filterMap fun row => (f row).map fun w => (key row, w)).map Prod.snd := by
    intro table
    rw [List.map_filterMap]
    congr 1
    funext row
    rw [Option.map_map]
    exact (Option.map_id' (x := f row)).symm
  rw [second, second, equal]

end Views

end SortedTable

end EveAgent
