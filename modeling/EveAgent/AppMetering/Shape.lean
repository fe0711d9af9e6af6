import EveAgent.AppMetering.MeteringList

namespace EveAgent.AppMetering

open Cells

section Shape

/-- A binary of the list with the addresses of its node and its dummy row, and its rows. -/
structure Binary where
  node : Nat
  dummy : Nat
  name : Text
  rows : List (Nat × Stappsub)
  deriving DecidableEq, Repr

def Binary.cells (binary : Binary) : List (Nat × Stappsub) :=
  (binary.dummy, zeroSub) :: binary.rows

def appCells (list : List Binary) : List (Nat × Stapp) :=
  list.map fun binary => (binary.node, ⟨binary.name, some binary.dummy⟩)

def subAddresses (list : List Binary) : List Nat := list.flatMap fun binary =>
  addresses binary.cells

/-- A dummy head followed by the binaries, each with a dummy row followed by its rows; no
address is used twice, and none of them is still to be handed out. -/
structure Represents (mem : Memory) (list : List Binary) : Prop where
  begins : (mem.head = none ∧ list = []) ∨ ∃ head, mem.head = some head ∧
    Segment mem.apps (some head) ((head, ⟨[], none⟩) :: appCells list) none
  rows : ∀ binary ∈ list, Segment mem.subs (some binary.dummy) binary.cells none
  apart : (subAddresses list).Nodup
  fresh : ∀ a, mem.allocated ≤ a → mem.apps a = none ∧ mem.subs a = none

variable {mem : Memory} {list front back : List Binary} {binary other : Binary}

theorem represents_start : Represents start [] where
  begins := .inl ⟨rfl, rfl⟩
  rows := by simp
  apart := List.nodup_nil
  fresh := fun _ _ => ⟨rfl, rfl⟩

theorem subAddresses_append : subAddresses (front ++ back) =
    subAddresses front ++ subAddresses back := List.flatMap_append

theorem subAddresses_cons : subAddresses (binary :: back) =
    addresses binary.cells ++ subAddresses back := List.flatMap_cons

theorem mem_subAddresses {a : Nat} : a ∈ subAddresses list ↔
    ∃ binary ∈ list, a ∈ addresses binary.cells := List.mem_flatMap

theorem length_le_allocated {as : List Nat} {n : Nat} (nodup : as.Nodup)
    (small : ∀ a ∈ as, a < n) : as.length ≤ n := by
  have within : as ⊆ List.range n := by
    intro a member
    exact List.mem_range.mpr (small a member)
  calc
    as.length ≤ (List.range n).length := (List.subperm_of_subset nodup within).length_le
    _ = n := List.length_range

theorem Represents.small_sub (rep : Represents mem list) {a : Nat} {cell : Cell Nat Stappsub}
    (held : mem.subs a = some cell) : a < mem.allocated := by
  by_contra old
  rw [(rep.fresh a (by omega)).2] at held
  cases held

theorem Represents.small_app (rep : Represents mem list) {a : Nat} {cell : Cell Nat Stapp}
    (held : mem.apps a = some cell) : a < mem.allocated := by
  by_contra old
  rw [(rep.fresh a (by omega)).1] at held
  cases held

theorem Represents.small_rows (rep : Represents mem list) (member : binary ∈ list) {a : Nat}
    (inside : a ∈ addresses binary.cells) : a < mem.allocated := by
  obtain ⟨cell, held⟩ := (rep.rows binary member).held inside
  exact rep.small_sub held

theorem Represents.rows_length (rep : Represents mem list) (member : binary ∈ list) :
    binary.cells.length ≤ mem.allocated := by
  have length : binary.cells.length = (addresses binary.cells).length := by simp [addresses]
  rw [length]
  exact length_le_allocated (rep.rows binary member).nodup
    fun a inside => rep.small_rows member inside

theorem Represents.list_length (rep : Represents mem list) {head : Nat}
    (begins : mem.head = some head) : list.length + 1 ≤ mem.allocated := by
  rcases rep.begins with ⟨none', _⟩ | ⟨head', begins', segment⟩
  · rw [begins] at none'
    cases none'
  · have length : list.length + 1 = (addresses ((head', (⟨[], none⟩ : Stapp)) ::
        appCells list)).length := by simp [addresses, appCells]
    rw [length]
    apply length_le_allocated segment.nodup
    intro a inside
    obtain ⟨cell, held⟩ := segment.held inside
    exact rep.small_app held

theorem Represents.segment (rep : Represents mem list) {head : Nat}
    (begins : mem.head = some head) :
    Segment mem.apps (some head) ((head, ⟨[], none⟩) :: appCells list) none := by
  rcases rep.begins with ⟨none', _⟩ | ⟨head', begins', segment⟩
  · rw [begins] at none'
    cases none'
  · obtain rfl := Option.some.inj (begins.symm.trans begins')
    exact segment

theorem Represents.set_rows (rep : Represents mem (front ++ binary :: back))
    {subs : Heap Nat Stappsub} {allocated : Nat} {rows : List (Nat × Stappsub)}
    (more : mem.allocated ≤ allocated)
    (segment : Segment subs (some binary.dummy) ((binary.dummy, zeroSub) :: rows) none)
    (own : ∀ a ∈ addresses rows, a ∈ addresses binary.rows ∨ mem.allocated ≤ a)
    (same : ∀ a, a ∉ addresses binary.cells → a < mem.allocated → subs a = mem.subs a)
    (fresh : ∀ a, allocated ≤ a → subs a = none) {mem' : Memory}
    (apps : mem'.apps = mem.apps) (subs' : mem'.subs = subs) (head : mem'.head = mem.head)
    (allocated' : mem'.allocated = allocated) :
    Represents mem' (front ++ { binary with rows := rows } :: back) := by
  have apart := rep.apart
  rw [subAddresses_append, subAddresses_cons, List.nodup_append, List.nodup_append] at apart
  obtain ⟨nodupFront, ⟨_, nodupBack, apartBack⟩, apartFront⟩ := apart
  have own' : ∀ a ∈ addresses ({ binary with rows := rows } : Binary).cells,
      a ∈ addresses binary.cells ∨ mem.allocated ≤ a := by
    intro a member
    rcases List.mem_cons.mp member with rfl | member
    · exact .inl List.mem_cons_self
    · exact (own a member).imp_left (List.mem_cons_of_mem _)
  have others : ∀ other ∈ front ++ back, ∀ a ∈ addresses other.cells,
      a ∉ addresses binary.cells ∧ a < mem.allocated := by
    intro other member a inside
    constructor
    · intro inside'
      rcases List.mem_append.mp member with member | member
      · exact apartFront a (mem_subAddresses.mpr ⟨other, member, inside⟩) a
          (List.mem_append_left _ inside') rfl
      · exact apartBack a inside' a (mem_subAddresses.mpr ⟨other, member, inside⟩) rfl
    · refine rep.small_rows ?_ inside
      rcases List.mem_append.mp member with member | member
      · exact List.mem_append_left _ member
      · exact List.mem_append_right _ (List.mem_cons_of_mem _ member)
  have separate : ∀ other ∈ front ++ back, ∀ a ∈ addresses other.cells,
      ∀ b ∈ addresses ({ binary with rows := rows } : Binary).cells, a ≠ b := by
    rintro other member a inside b inside' rfl
    obtain ⟨outside, small⟩ := others other member a inside
    rcases own' a inside' with old | new
    · exact outside old
    · omega
  constructor
  · rw [head, apps]
    rcases rep.begins with ⟨_, empty⟩ | ⟨head, begins, chain⟩
    · simp at empty
    · refine .inr ⟨head, begins, ?_⟩
      simpa [appCells] using chain
  · intro other member
    rw [subs']
    have keep : ∀ other ∈ front ++ back, Segment mem.subs (some other.dummy) other.cells none →
        Segment subs (some other.dummy) other.cells none := by
      intro other member old
      apply old.congr
      intro a inside
      exact same a (others other member a inside).1 (others other member a inside).2
    rcases List.mem_append.mp member with member | member
    · exact keep other (List.mem_append_left _ member)
        (rep.rows other (List.mem_append_left _ member))
    · rcases List.mem_cons.mp member with rfl | member
      · exact segment
      · exact keep other (List.mem_append_right _ member)
          (rep.rows other (List.mem_append_right _ (List.mem_cons_of_mem _ member)))
  · rw [subAddresses_append, subAddresses_cons, List.nodup_append, List.nodup_append]
    refine ⟨nodupFront, ⟨segment.nodup, nodupBack, ?_⟩, ?_⟩
    · intro a inside b member
      obtain ⟨other, member, inside'⟩ := mem_subAddresses.mp member
      exact (separate other (List.mem_append_right _ member) b inside' a inside).symm
    · intro a member b member'
      obtain ⟨other, member, inside⟩ := mem_subAddresses.mp member
      rcases List.mem_append.mp member' with inside' | member'
      · exact separate other (List.mem_append_left _ member) a inside b inside'
      · exact apartFront a (mem_subAddresses.mpr ⟨other, member, inside⟩) b
          (List.mem_append_right _ member')
  · intro a large
    rw [allocated'] at large
    rw [apps, subs']
    exact ⟨(rep.fresh a (by omega)).1, fresh a large⟩

end Shape

section Loops

variable {apps : Heap Nat Stapp} {subs : Heap Nat Stappsub} {p prev : Option Nat} {fuel : Nat}
  {name : Text} {a : Nat} {app : Stapp} {xs ys : List (Nat × Stapp)}
  {rows : List (Nat × Stappsub)}

theorem findLoop_missing (segment : Segment apps p xs none)
    (absent : ∀ x ∈ xs, x.2.pcappMeteringBinaryName ≠ name) (enough : xs.length < fuel) :
    findLoop apps name fuel prev p = some ((addresses xs).getLast?.or prev, none) := by
  induction xs generalizing p prev fuel with
  | nil =>
    rw [segment_nil] at segment
    subst segment
    cases fuel with
    | zero => simp at enough
    | succ fuel => rfl
  | cons head tail ih =>
    obtain ⟨rfl, next, held, rest⟩ := segment
    cases fuel with
    | zero => simp at enough
    | succ fuel =>
      rw [List.length_cons] at enough
      rw [findLoop]
      simp only [held]
      rw [if_neg (absent head List.mem_cons_self),
        ih rest (fun x member => absent x (List.mem_cons_of_mem _ member)) (by omega)]
      cases tail with
      | nil =>
        rw [segment_nil] at rest
        simp [rest, addresses]
      | cons second later =>
        obtain ⟨rfl, _⟩ := rest
        simp [addresses]

theorem findLoop_found (segment : Segment apps p (xs ++ (a, app) :: ys) none)
    (absent : ∀ x ∈ xs, x.2.pcappMeteringBinaryName ≠ name)
    (here : app.pcappMeteringBinaryName = name) (enough : xs.length < fuel) :
    ∃ prev', findLoop apps name fuel prev p = some (prev', some a) := by
  induction xs generalizing p prev fuel with
  | nil =>
    obtain ⟨rfl, next, held, _⟩ := segment
    cases fuel with
    | zero => simp at enough
    | succ fuel =>
      rw [findLoop]
      simp only [held]
      rw [if_pos here]
      exact ⟨_, rfl⟩
  | cons head tail ih =>
    obtain ⟨rfl, next, held, rest⟩ := segment
    cases fuel with
    | zero => simp at enough
    | succ fuel =>
      rw [List.length_cons] at enough
      rw [findLoop]
      simp only [held]
      rw [if_neg (absent head List.mem_cons_self)]
      exact ih rest (fun x member => absent x (List.mem_cons_of_mem _ member)) (by omega)

def Passes (uiappMeteringIndex : UInt32) (sfind : Bool) (row : Nat × Stappsub) : Prop :=
  ¬ row.2.uiappMeteringIndex > uiappMeteringIndex ∧
    ¬ (row.2.uiappMeteringIndex = uiappMeteringIndex ∧ sfind = false)

instance (uiappMeteringIndex : UInt32) (sfind : Bool) :
    DecidablePred (Passes uiappMeteringIndex sfind) := fun _ =>
  inferInstanceAs (Decidable (_ ∧ _))

def placeOf (uiappMeteringIndex : UInt32) : List (Nat × Stappsub) → Place
  | [] => .atEnd
  | (a, sub) :: _ => if sub.uiappMeteringIndex > uiappMeteringIndex then .before a else .at_ a

theorem subLoop_rows {uiappMeteringIndex : UInt32} {sfind : Bool} {g : Nat}
    {before after : List (Nat × Stappsub)} (segment : Segment subs p (before ++ after) none)
    (passed : ∀ row ∈ before, Passes uiappMeteringIndex sfind row)
    (stopped : ∀ row ∈ after.head?, ¬ Passes uiappMeteringIndex sfind row)
    (enough : before.length < fuel) :
    subLoop subs uiappMeteringIndex sfind fuel (some g) (some g) p =
      some (some (lastAddress g before), some ((addresses after).head?.getD (lastAddress g before)),
        placeOf uiappMeteringIndex after) := by
  induction before generalizing p g fuel with
  | nil =>
    cases fuel with
    | zero => simp at enough
    | succ fuel =>
      cases after with
      | nil =>
        rw [List.nil_append, segment_nil] at segment
        subst segment
        rfl
      | cons head tail =>
        obtain ⟨rfl, next, held, _⟩ := segment
        have stops := stopped head rfl
        rw [subLoop]
        simp only [held]
        by_cases later : head.2.uiappMeteringIndex > uiappMeteringIndex
        · rw [if_pos ⟨Option.some_ne_none g, later⟩]
          simp [placeOf, later, lastAddress, addresses]
        · have equal : head.2.uiappMeteringIndex = uiappMeteringIndex ∧ sfind = false := by
            by_contra differs
            exact stops ⟨later, differs⟩
          rw [if_neg (fun both => later both.2),
            if_pos ⟨Option.some_ne_none g, equal.1, equal.2⟩]
          simp [placeOf, later, lastAddress, addresses]
  | cons head tail ih =>
    cases fuel with
    | zero => simp at enough
    | succ fuel =>
      obtain ⟨rfl, next, held, rest⟩ := segment
      obtain ⟨early, differs⟩ := passed head List.mem_cons_self
      rw [List.length_cons] at enough
      rw [subLoop]
      simp only [held]
      rw [if_neg (fun both => early both.2), if_neg (fun all => differs all.2),
        ih rest (fun row member => passed row (List.mem_cons_of_mem _ member)) (by omega)]
      obtain ⟨b, sub⟩ := head
      rw [lastAddress_cons]

theorem subLoop_cells {uiappMeteringIndex : UInt32} {sfind : Bool} {dummy : Nat}
    {gpsub prevsubmove : Option Nat} {before after : List (Nat × Stappsub)}
    (segment : Segment subs (some dummy) ((dummy, zeroSub) :: (before ++ after)) none)
    (clear : gpsub = none ∨ 0 < uiappMeteringIndex)
    (passed : ∀ row ∈ before, Passes uiappMeteringIndex sfind row)
    (stopped : ∀ row ∈ after.head?, ¬ Passes uiappMeteringIndex sfind row)
    (enough : before.length + 1 < fuel) :
    subLoop subs uiappMeteringIndex sfind fuel gpsub prevsubmove (some dummy) =
      some (some (lastAddress dummy before),
        some ((addresses after).head?.getD (lastAddress dummy before)),
        placeOf uiappMeteringIndex after) := by
  cases fuel with
  | zero => simp at enough
  | succ fuel =>
    obtain ⟨_, next, held, rest⟩ := segment
    have small : ¬ zeroSub.uiappMeteringIndex > uiappMeteringIndex := by
      simp [zeroSub]
    have passes : ¬ (gpsub ≠ none ∧ zeroSub.uiappMeteringIndex = uiappMeteringIndex ∧
        sfind = false) := by
      intro all
      rcases clear with first | positive
      · exact all.1 first
      · rw [← all.2.1] at positive
        exact absurd positive (by decide)
    rw [subLoop]
    simp only [held]
    rw [if_neg (fun both => small both.2), if_neg passes]
    exact subLoop_rows rest passed stopped (by omega)

end Loops

end EveAgent.AppMetering
