import EveAgent.Cells
import EveAgent.CStdio
import EveAgent.Machine

namespace EveAgent.Icp.Reload

open Cells

section Threads

/-- The two variables that hold a list: `gstIcpList` and the variable of `ICP_updateList`. -/
inductive Which where
  | shared
  | own
  deriving DecidableEq, Repr

/-- Where `ICP_CheckCmdInList` stands, with the word, the number of characters compared and
the pointer of the walk. -/
inductive Check where
  | idle
  | lock (cCommand : Text) (room : Nat)
  | test (cCommand : Text) (room : Nat)
  | load (cCommand : Text) (room : Nat)
  | compare (cCommand : Text) (room : Nat) (node : Option Nat)
  | next (cCommand : Text) (room : Nat) (node : Nat)
  | unlock (cCommand : Text) (room : Nat) (found : Bool)
  deriving DecidableEq, Repr

/-- Where `ICP_updateList` stands; the last phases but one are those of `ICP_DelAllFromCtx`. -/
inductive Update where
  | waiting
  | init
  | table
  | delete (which : Which)
  | free (which : Which) (node : Nat)
  | freeHeader (which : Which)
  | nullHeader (which : Which)
  | swap
  deriving DecidableEq, Repr

/-- The end of a check, with the lists that have been in force since it began. -/
structure Verdict where
  cCommand : Text
  room : Nat
  found : Bool
  since : List (List Text)
  deriving DecidableEq, Repr

/-- The memory, the variables of both threads, and where they stand. `rows` are the names
read from the table, `inForce` is the list that the last successful reload has read. -/
structure State where
  heap : Heap Nat Text
  stHeader : Option Nat
  ownHeader : Option Nat
  icpListmutex : Bool
  check : Check
  update : Update
  rows : List Text
  inForce : List Text
  since : List (List Text)
  verdicts : List Verdict
  fault : Bool

/-- Addresses in labels are what `malloc` returns. -/
inductive Label where
  | check (cCommand : Text) (room : Nat)
  | reader
  | message
  | header (address : Option Nat)
  | row (name : Text) (address : Option Nat)
  | finish (succeeds : Bool)
  | updater
  deriving DecidableEq, Repr

def State.header (s : State) : Which → Option Nat
  | .shared => s.stHeader
  | .own => s.ownHeader

/-- A null pointer or one to what is not allocated is followed. -/
def State.crash (s : State) : State := { s with fault := true }

def State.deref (s : State) (pointer : Option Nat) (next : Cell Nat Text → State) : State :=
  match pointer.bind s.heap with
  | none => s.crash
  | some cell => next cell

def refuses (cCommand : Text) (room : Nat) (name : Text) : Bool := strncmp room cCommand name == 0

/-- Whether a complete list refuses the command. -/
def verdict (cCommand : Text) (room : Nat) (names : List Text) : Bool :=
  names.any (refuses cCommand room)

/-- The next statement of `ICP_CheckCmdInList`. -/
def reader (s : State) : Option State :=
  match s.check with
  | .idle => none
  | .lock cCommand room =>
    if s.icpListmutex then none
    else some { s with icpListmutex := true, check := .test cCommand room }
  | .test cCommand room =>
    some (s.deref s.stHeader fun header => { s with
      check := if header.next = none then .unlock cCommand room false else .load cCommand room })
  | .load cCommand room =>
    some (s.deref s.stHeader fun header => { s with check := .compare cCommand room header.next })
  | .compare cCommand room none => some { s with check := .unlock cCommand room false }
  | .compare cCommand room (some node) =>
    some (s.deref (some node) fun cell => { s with
      check :=
        if refuses cCommand room cell.val then .unlock cCommand room true
        else .next cCommand room node })
  | .next cCommand room node =>
    some (s.deref (some node) fun cell => { s with check := .compare cCommand room cell.next })
  | .unlock cCommand room found =>
    some { s with
      icpListmutex := false
      check := .idle
      verdicts := s.verdicts ++ [⟨cCommand, room, found, s.since⟩] }

/-- `ICP_CreateICPNode` and `ICP_AddToCntx` for one row of the table. -/
def addRow (s : State) (name : Text) : Option Nat → Option State
  | none =>
    some (s.deref s.ownHeader fun header =>
      -- without a node an empty list stays empty, and a null pointer is written through
      if header.next = none then { s with rows := s.rows ++ [name] } else s.crash)
  | some address =>
    if s.heap address ≠ none then none
    else some (s.deref s.ownHeader fun header => { s with
      heap := Function.update
        (Function.update s.heap address (some ⟨name, header.next⟩))
        (s.ownHeader.getD 0) (some { header with next := some address })
      rows := s.rows ++ [name] })

/-- The next statement of `ICP_DelAllFromCtx`, and what follows it. -/
def updater (s : State) : Option State :=
  match s.update with
  | .delete which =>
    some (s.deref (s.header which) fun header =>
      match header.next with
      | none => { s with update := .freeHeader which }
      | some node => s.deref (some node) fun cell => { s with
          heap := Function.update s.heap ((s.header which).getD 0)
            (some { header with next := cell.next })
          update := .free which node })
  | .free which node =>
    some (s.deref (some node) fun _ => { s with
      heap := Function.update s.heap node none
      update := .delete which })
  | .freeHeader which =>
    some (s.deref (s.header which) fun _ => { s with
      heap := Function.update s.heap ((s.header which).getD 0) none
      update := .nullHeader which })
  | .nullHeader .shared => some { s with stHeader := none, update := .swap }
  | .nullHeader .own => some { s with ownHeader := none, update := .waiting }
  | .swap =>
    some { s with
      stHeader := s.ownHeader
      ownHeader := none
      update := .waiting
      inForce := s.rows.reverse
      since := s.since ++ [s.rows.reverse] }
  | _ => none

def step (s : State) (label : Label) : Option State :=
  if s.fault then none
  else
    match label with
    | .check cCommand room =>
      if s.check = .idle then
        some { s with check := .lock cCommand room, since := [s.inForce] }
      else none
    | .reader => reader s
    | .message => if s.update = .waiting then some { s with update := .init } else none
    | .header address =>
      if s.update = .init ∧ address.bind s.heap = none then
        some { s with
          heap := match address with
            | none => s.heap
            | some address => Function.update s.heap address (some ⟨[], none⟩)
          ownHeader := address
          rows := []
          update := .table }
      else none
    | .row name address => if s.update = .table then addRow s name address else none
    | .finish succeeds =>
      if s.update = .table then
        some { s with update := .delete (if succeeds then .shared else .own) }
      else none
    | .updater => updater s

end Threads

section Lists

/-- A list in memory: a header and the nodes behind it. -/
def Listed (heap : Heap Nat Text) (header : Option Nat) (nodes : List (Nat × Text)) : Prop :=
  ∃ address val first, header = some address ∧ heap address = some ⟨val, first⟩ ∧
    Segment heap first nodes none ∧ address ∉ addresses nodes

def cells (header : Option Nat) (nodes : List (Nat × Text)) : List Nat :=
  header.toList ++ addresses nodes

def names (nodes : List (Nat × Text)) : List Text := nodes.map Prod.snd

variable {heap heap' : Heap Nat Text} {pointer : Option Nat} {nodes : List (Nat × Text)}
  {address node : Nat} {name : Text} {cell : Cell Nat Text}

theorem mem_cells_header (here : pointer = some address) : address ∈ cells pointer nodes := by
  rw [here]
  exact List.mem_cons_self

theorem mem_cells_node (member : address ∈ addresses nodes) : address ∈ cells header nodes :=
  List.mem_append_right _ member

theorem Listed.congr (listed : Listed heap pointer nodes)
    (same : ∀ address ∈ cells pointer nodes, heap' address = heap address) :
    Listed heap' pointer nodes := by
  obtain ⟨address, val, first, here, held, segment, apart⟩ := listed
  refine ⟨address, val, first, here, ?_, ?_, apart⟩
  · rw [same address (mem_cells_header here), held]
  · exact segment.congr fun node member => same node (mem_cells_node member)

theorem Listed.held (listed : Listed heap pointer nodes) (member : node ∈ cells pointer nodes) :
    heap node ≠ none := by
  obtain ⟨address, val, first, rfl, held, segment, _⟩ := listed
  rcases List.mem_append.mp member with here | there
  · rw [List.mem_singleton.mp here, held]
    nofun
  · obtain ⟨cell, held⟩ := segment.held there
    rw [held]
    nofun

theorem Listed.header (listed : Listed heap pointer nodes) :
    ∃ address cell, pointer = some address ∧ heap address = some cell ∧
      Segment heap cell.next nodes none := by
  obtain ⟨address, val, first, here, held, segment, _⟩ := listed
  exact ⟨address, ⟨val, first⟩, here, held, segment⟩

theorem Listed.add (listed : Listed heap (some address) nodes) (held : heap address = some cell)
    (fresh : heap node = none) :
    Listed (Function.update (Function.update heap node (some ⟨name, cell.next⟩)) address
      (some { cell with next := some node })) (some address) ((node, name) :: nodes) := by
  have outside : node ∉ cells (some address) nodes := fun member => listed.held member fresh
  obtain ⟨_, val, first, here, held', segment, apart⟩ := listed
  cases Option.some.inj here
  cases Option.some.inj (held.symm.trans held')
  have different : node ≠ address := fun same => outside (same ▸ mem_cells_header rfl)
  have behind : node ∉ addresses nodes := fun member => outside (mem_cells_node member)
  refine ⟨address, _, _, rfl, Function.update_self .., ⟨rfl, first, ?_, ?_⟩, ?_⟩
  · rw [Function.update_of_ne different]
    exact Function.update_self ..
  · exact (segment.update behind _).update apart _
  · rw [addresses_cons, List.mem_cons, not_or]
    exact ⟨Ne.symm different, apart⟩

theorem Listed.unlink (listed : Listed heap (some address) ((node, name) :: nodes))
    (held : heap address = some cell) :
    node ∉ cells (some address) nodes ∧ ∃ next, heap node = some ⟨name, next⟩ ∧
      Listed (Function.update heap address (some { cell with next := next })) (some address)
        nodes := by
  obtain ⟨_, val, first, here, held', segment, apart⟩ := listed
  cases Option.some.inj here
  cases Option.some.inj (held.symm.trans held')
  have distinct := segment.nodup
  obtain ⟨_, next, there, rest⟩ := segment
  rw [addresses_cons, List.mem_cons, not_or] at apart
  constructor
  · intro member
    rcases List.mem_append.mp member with same | behind
    · exact apart.1 (List.mem_singleton.mp same).symm
    · exact (List.nodup_cons.mp distinct).1 behind
  · refine ⟨next, there, address, val, next, rfl, Function.update_self .., ?_, apart.2⟩
    exact rest.update apart.2 _

/-- Two lists that share no cell, of which the second one stays. -/
def Pair (heap : Heap Nat Text) (gone stays : Option Nat) (nodes kept : List (Nat × Text)) :
    Prop :=
  Listed heap gone nodes ∧ Listed heap stays kept ∧
    (cells gone nodes).Disjoint (cells stays kept)

variable {gone stays : Option Nat} {kept : List (Nat × Text)}

theorem Listed.outside (listed : Listed heap pointer nodes) (apart : address ∉ cells pointer nodes)
    (cell : Option (Cell Nat Text)) : Listed (Function.update heap address cell) pointer nodes := by
  apply listed.congr
  intro other member
  apply Function.update_of_ne
  intro same
  exact apart (same ▸ member)

theorem Pair.outside (pair : Pair heap gone stays nodes kept) (apart : address ∉ cells gone nodes)
    (apart' : address ∉ cells stays kept) (cell : Option (Cell Nat Text)) :
    Pair (Function.update heap address cell) gone stays nodes kept :=
  ⟨pair.1.outside apart cell, pair.2.1.outside apart' cell, pair.2.2⟩

theorem Pair.freeHeader (pair : Pair heap (some address) stays nodes kept) :
    Listed (Function.update heap address none) stays kept :=
  pair.2.1.outside (pair.2.2 (mem_cells_header rfl)) _

theorem Pair.unlink (pair : Pair heap (some address) stays ((node, name) :: nodes) kept)
    (held : heap address = some cell) :
    node ∉ cells (some address) nodes ∧ node ∉ cells stays kept ∧
      ∃ next, heap node = some ⟨name, next⟩ ∧
        Pair (Function.update heap address (some { cell with next := next })) (some address) stays
          nodes kept := by
  obtain ⟨listed, listed', disjoint⟩ := pair
  obtain ⟨outside, next, there, unlinked⟩ := listed.unlink held
  have first : node ∈ cells (some address) ((node, name) :: nodes) :=
    List.mem_append_right _ List.mem_cons_self
  refine ⟨outside, disjoint first, next, there, unlinked, ?_, ?_⟩
  · exact listed'.outside (disjoint (mem_cells_header rfl)) _
  · intro other member
    apply disjoint
    rcases List.mem_append.mp member with top | behind
    · exact List.mem_append_left _ top
    · exact List.mem_append_right _ (List.mem_cons_of_mem _ behind)

theorem Pair.add (pair : Pair heap (some address) stays nodes kept)
    (held : heap address = some cell) (fresh : heap node = none) :
    Pair (Function.update (Function.update heap node (some ⟨name, cell.next⟩)) address
      (some { cell with next := some node })) (some address) stays ((node, name) :: nodes)
      kept := by
  obtain ⟨listed, listed', disjoint⟩ := pair
  have new : node ∉ cells stays kept := fun member => listed'.held member fresh
  refine ⟨listed.add held fresh, ?_, ?_⟩
  · exact (listed'.outside new _).outside (disjoint (mem_cells_header rfl)) _
  · intro other member member'
    rcases List.mem_append.mp member with top | behind
    · exact disjoint (List.mem_append_left _ top) member'
    · rcases List.mem_cons.mp behind with same | old
      · rw [same] at member'
        exact new member'
      · exact disjoint (List.mem_append_right _ old) member'

end Lists

section Invariant

def Which.other : Which → Which
  | .shared => .own
  | .own => .shared

/-- The names of the list that stays while the other one is deleted. -/
def State.staying (s : State) : Which → List Text
  | .shared => s.rows.reverse
  | .own => s.inForce

def pick (which : Which) (shared own : List (Nat × Text)) : List (Nat × Text) :=
  match which with
  | .shared => shared
  | .own => own

/-- The lists in memory at each point of the update. -/
def Shape (s : State) (shared own : List (Nat × Text)) : Prop :=
  match s.update with
  | .waiting | .init => Listed s.heap s.stHeader shared ∧ names shared = s.inForce
  | .table =>
    Pair s.heap s.ownHeader s.stHeader own shared ∧ names shared = s.inForce ∧
      names own = s.rows.reverse
  | .delete which =>
    Pair s.heap (s.header which) (s.header which.other) (pick which shared own)
      (pick which.other shared own) ∧ names (pick which.other shared own) = s.staying which
  | .free which node =>
    Pair s.heap (s.header which) (s.header which.other) (pick which shared own)
        (pick which.other shared own) ∧
      names (pick which.other shared own) = s.staying which ∧
      s.heap node ≠ none ∧ node ∉ cells (s.header which) (pick which shared own) ∧
        node ∉ cells (s.header which.other) (pick which.other shared own)
  | .freeHeader which =>
    Pair s.heap (s.header which) (s.header which.other) (pick which shared own)
      (pick which.other shared own) ∧ names (pick which.other shared own) = s.staying which
  | .nullHeader which =>
    Listed s.heap (s.header which.other) (pick which.other shared own) ∧
      names (pick which.other shared own) = s.staying which
  | .swap => Listed s.heap s.ownHeader own ∧ names own = s.rows.reverse

def Walk (shared : List (Nat × Text)) : Check → Prop
  | .compare cCommand room node =>
    ∃ front back, shared = front ++ back ∧ node = (addresses back).head? ∧
      verdict cCommand room (names front) = false
  | .next cCommand room node =>
    ∃ front name back, shared = front ++ (node, name) :: back ∧
      verdict cCommand room (names front) = false ∧ refuses cCommand room name = false
  | .unlock cCommand room found => found = verdict cCommand room (names shared)
  | _ => True

/-- The old list is being torn down or has not been replaced yet. -/
def Update.tearing : Update → Bool
  | .delete .shared | .free .shared _ | .freeHeader .shared | .nullHeader .shared | .swap => true
  | _ => false

/-- No check is executed while the old list is torn down, and memory is granted. -/
def Exclusive (s : State) : Label → Prop
  | .check _ _ | .reader => s.update.tearing = false
  | .finish succeeds => succeeds = true → s.check = .idle
  | .header address | .row _ address => address ≠ none
  | _ => True

instance (s : State) (label : Label) : Decidable (Exclusive s label) := by
  cases label <;> unfold Exclusive <;> infer_instance

/-- Each check has answered for a list that was in force while it was executed. -/
def Faithful (s : State) : Prop :=
  ∀ entry ∈ s.verdicts, ∃ list ∈ entry.since,
    entry.found = verdict entry.cCommand entry.room list

structure Inv (s : State) : Prop where
  sound : s.fault = false
  faithful : Faithful s
  quiet : s.update.tearing = true → s.check = .idle
  since : s.check ≠ .idle → s.inForce ∈ s.since
  shape : ∃ shared own, Shape s shared own ∧ Walk shared s.check

variable {s t : State} {label : Label} {labels : List Label} {shared own : List (Nat × Text)}
  {which : Which}

theorem Shape.ready (shape : Shape s shared own) (tearing : s.update.tearing = false) :
    Listed s.heap s.stHeader shared ∧ names shared = s.inForce := by
  rw [Shape] at shape
  cases update : s.update with
  | waiting => simpa only [update] using shape
  | init => simpa only [update] using shape
  | table =>
    simp only [update] at shape
    exact ⟨shape.1.2.1, shape.2.1⟩
  | swap =>
    rw [update] at tearing
    cases tearing
  | delete which | free which node | freeHeader which | nullHeader which =>
    cases which with
    | shared =>
      rw [update] at tearing
      cases tearing
    | own =>
      simp only [update] at shape
      first
      | exact ⟨shape.1.2.1, shape.2⟩
      | exact ⟨shape.1.2.1, shape.2.1⟩
      | exact shape

theorem deref_eq {pointer : Option Nat} {address : Nat} {cell : Cell Nat Text}
    {next : Cell Nat Text → State} (here : pointer = some address)
    (held : s.heap address = some cell) : s.deref pointer next = next cell := by
  rw [State.deref, here, Option.bind_some, held]

theorem verdict_append (cCommand : Text) (room : Nat) (front back : List Text) :
    verdict cCommand room (front ++ back) =
      (verdict cCommand room front || verdict cCommand room back) := List.any_append

theorem reader_inv (inv : Inv s) (tearing : s.update.tearing = false)
    (executed : reader s = some t) : Inv t := by
  obtain ⟨sound, faithful, _, since, shared, own, shape, walk⟩ := inv
  obtain ⟨listed, inForce⟩ := shape.ready tearing
  obtain ⟨address, header, here, held, segment⟩ := listed.header
  have first := segment.head
  rw [reader] at executed
  -- what is left to show when only the position of the check changes
  have moved : ∀ check mutex, check ≠ .idle → s.check ≠ .idle →
      Walk shared check →
      Inv { s with check := check, icpListmutex := mutex } := by
    intro check mutex busy busy' walk
    refine ⟨sound, faithful, ?_, fun _ => since busy', shared, own, shape, walk⟩
    intro torn
    rw [show ({ s with check := check, icpListmutex := mutex } : State).update = s.update from rfl,
      tearing] at torn
    cases torn
  cases check : s.check with
  | idle => simp [check] at executed
  | lock cCommand room =>
    simp only [check, Option.ite_none_left_eq_some, Option.some.injEq] at executed
    obtain ⟨_, rfl⟩ := executed
    exact moved _ _ nofun (by rw [check]; nofun) trivial
  | test cCommand room =>
    simp only [check, Option.some.injEq] at executed
    rw [deref_eq here held] at executed
    subst executed
    apply moved _ s.icpListmutex
    · split <;> nofun
    · rw [check]
      nofun
    · cases next : header.next with
      | some node => trivial
      | none =>
        rw [next] at first
        have empty := List.head?_eq_none_iff.mp first.symm
        rw [if_pos rfl, List.map_eq_nil_iff.mp empty]
        rfl
  | load cCommand room =>
    simp only [check, Option.some.injEq] at executed
    rw [deref_eq here held] at executed
    subst executed
    exact moved _ s.icpListmutex nofun (by rw [check]; nofun) ⟨[], shared, rfl, first, rfl⟩
  | compare cCommand room node =>
    simp only [Walk, check] at walk
    obtain ⟨front, back, split, there, passed⟩ := walk
    cases node with
    | none =>
      simp only [check, Option.some.injEq] at executed
      subst executed
      apply moved (.unlock cCommand room false) s.icpListmutex nofun (by rw [check]; nofun)
      have empty := List.map_eq_nil_iff.mp (List.head?_eq_none_iff.mp there.symm)
      rw [Walk, split, empty, List.append_nil, passed]
    | some node =>
      cases back with
      | nil => cases there
      | cons cell back =>
        cases Option.some.inj there
        rw [split] at segment
        obtain ⟨next, _, held', _⟩ := segment.middle
        simp only [check, Option.some.injEq] at executed
        rw [deref_eq rfl held'] at executed
        subst executed
        apply moved _ s.icpListmutex
        · split <;> nofun
        · rw [check]
          nofun
        · obtain ⟨node, name⟩ := cell
          have walked : verdict cCommand room (names shared) =
              (refuses cCommand room name || verdict cCommand room (names back)) := by
            rw [split, names, List.map_append, verdict_append, ← names, passed]
            rfl
          by_cases refused : refuses cCommand room name = true
          · rw [if_pos refused, Walk, walked, refused, Bool.true_or]
          · rw [if_neg refused]
            exact ⟨front, name, back, split, passed, Bool.eq_false_of_not_eq_true refused⟩
  | next cCommand room node =>
    simp only [Walk, check] at walk
    obtain ⟨front, name, back, split, passed, differs⟩ := walk
    rw [split] at segment
    obtain ⟨next, _, held', rest⟩ := segment.middle
    simp only [check, Option.some.injEq] at executed
    rw [deref_eq rfl held'] at executed
    subst executed
    apply moved (.compare cCommand room next) s.icpListmutex nofun (by rw [check]; nofun)
    refine ⟨front ++ [(node, name)], back, by rw [split]; simp, rest.head, ?_⟩
    rw [names, List.map_append, verdict_append, ← names, passed]
    simpa [verdict] using differs
  | unlock cCommand room found =>
    simp only [check, Option.some.injEq] at executed
    simp only [Walk, check] at walk
    subst executed
    refine ⟨sound, ?_, fun _ => rfl, fun busy => absurd rfl busy, shared, own, shape, trivial⟩
    intro entry member
    rcases List.mem_append.mp member with before | now
    · exact faithful entry before
    · rw [List.mem_singleton.mp now]
      exact ⟨s.inForce, since (by rw [check]; nofun), inForce ▸ walk⟩

theorem header_inv {address : Nat} (inv : Inv s) (update : s.update = .init)
    (fresh : s.heap address = none) :
    Inv { s with
      heap := Function.update s.heap address (some ⟨[], none⟩)
      ownHeader := some address
      rows := []
      update := .table } := by
  obtain ⟨sound, faithful, _, since, shared, own, shape, walk⟩ := inv
  simp only [Shape, update] at shape
  obtain ⟨listed, inForce⟩ := shape
  have outside : address ∉ cells s.stHeader shared := fun member => listed.held member fresh
  have alone : cells (some address) [] = [address] := rfl
  refine ⟨sound, faithful, nofun, since, shared, [], ⟨⟨?_, ?_, ?_⟩, inForce, rfl⟩, walk⟩
  · exact ⟨address, [], none, rfl, Function.update_self .., rfl, List.not_mem_nil⟩
  · exact listed.outside outside _
  · rw [alone]
    exact List.singleton_disjoint.mpr outside

theorem addRow_inv {name : Text} {address : Nat} (inv : Inv s) (update : s.update = .table)
    (executed : addRow s name (some address) = some t) : Inv t := by
  obtain ⟨sound, faithful, quiet, since, shared, own, shape, walk⟩ := inv
  simp only [Shape, update] at shape
  obtain ⟨pair, inForce, rows⟩ := shape
  simp only [addRow, Option.ite_none_left_eq_some, Option.some.injEq, ne_eq, not_not] at executed
  obtain ⟨fresh, executed⟩ := executed
  obtain ⟨header, cell, here, held, _⟩ := pair.1.header
  rw [deref_eq here held, here] at executed
  rw [here] at pair
  subst executed
  refine ⟨sound, faithful, quiet, since, shared, (address, name) :: own, ?_, walk⟩
  simp only [Shape, update]
  refine ⟨pair.add held fresh, inForce, ?_⟩
  · rw [names, List.map_cons, ← names, rows, List.reverse_append]
    rfl

theorem finish_inv {succeeds : Bool} (inv : Inv s) (update : s.update = .table)
    (idle : succeeds = true → s.check = .idle) :
    Inv { s with update := .delete (if succeeds then .shared else .own) } := by
  obtain ⟨sound, faithful, _, since, shared, own, shape, walk⟩ := inv
  simp only [Shape, update] at shape
  obtain ⟨⟨listed, listed', disjoint⟩, inForce, rows⟩ := shape
  cases succeeds with
  | false =>
    exact ⟨sound, faithful, nofun, since, shared, own, ⟨⟨listed, listed', disjoint⟩, inForce⟩, walk⟩
  | true =>
    exact ⟨sound, faithful, fun _ => idle rfl, since, shared, own,
      ⟨⟨listed', listed, disjoint.symm⟩, rows⟩, walk⟩

@[simp] theorem pick_self (gone stays : List (Nat × Text)) :
    pick which (pick which gone stays) (pick which stays gone) = gone := by
  cases which <;> rfl

@[simp] theorem pick_other (gone stays : List (Nat × Text)) :
    pick which.other (pick which gone stays) (pick which stays gone) = stays := by
  cases which <;> rfl

theorem Inv.replace {heap : Heap Nat Text} {next : Update} (inv : Inv s)
    (shared' own' : List (Nat × Text)) (phase : next.tearing = s.update.tearing)
    (shape : Shape { s with heap := heap, update := next } shared' own')
    (walk : s.update.tearing = false → Walk shared' s.check) :
    Inv { s with heap := heap, update := next } := by
  refine ⟨inv.sound, inv.faithful, ?_, inv.since, shared', own', shape, ?_⟩
  · intro torn
    exact inv.quiet (phase.symm.trans torn)
  · cases tearing : s.update.tearing with
    | false => exact walk tearing
    | true =>
      rw [inv.quiet tearing]
      trivial

theorem updater_inv (inv : Inv s) (executed : updater s = some t) : Inv t := by
  have ⟨sound, faithful, quiet, since, shared, own, shape, walk⟩ := inv
  rw [updater] at executed
  cases update : s.update with
  | waiting | init | table => simp [update] at executed
  | delete which =>
    simp only [Shape, update] at shape
    simp only [update, Option.some.injEq] at executed
    obtain ⟨pair, staying⟩ := shape
    obtain ⟨address, header, here, held, segment⟩ := pair.1.header
    rw [deref_eq here held, here] at executed
    cases gone : pick which shared own with
    | nil =>
      rw [gone] at segment
      have empty : header.next = none := segment
      simp only [empty] at executed
      subst executed
      apply inv.replace shared own
      · rw [update]
        cases which <;> rfl
      · exact ⟨pair, staying⟩
      · exact fun _ => walk
    | cons cell rest =>
      obtain ⟨node, name⟩ := cell
      rw [gone] at segment
      rw [gone, here] at pair
      obtain ⟨outside, outside', next, there, unlinked⟩ := pair.unlink held
      simp only [segment.1] at executed
      rw [deref_eq rfl there] at executed
      subst executed
      apply inv.replace (pick which rest (pick which.other shared own))
        (pick which (pick which.other shared own) rest)
      · rw [update]
        cases which <;> rfl
      · simp only [Shape, pick_self, pick_other]
        have header : ∀ heap, State.header { s with heap := heap, update := .free which node }
            which = some address := fun _ => here
        rw [header]
        have different : node ≠ address := fun same => outside (same ▸ mem_cells_header rfl)
        refine ⟨unlinked, staying, ?_, outside, outside'⟩
        rw [Option.getD_some, Function.update_of_ne different, there]
        nofun
      · intro tearing
        cases which with
        | shared =>
          rw [update] at tearing
          cases tearing
        | own => exact walk
  | free which node =>
    simp only [Shape, update] at shape
    simp only [update, Option.some.injEq] at executed
    obtain ⟨pair, staying, allocated, outside, outside'⟩ := shape
    obtain ⟨cell, there⟩ := Option.ne_none_iff_exists'.mp allocated
    rw [deref_eq rfl there] at executed
    subst executed
    apply inv.replace shared own
    · rw [update]
      cases which <;> rfl
    · exact ⟨pair.outside outside outside' none, staying⟩
    · exact fun _ => walk
  | freeHeader which =>
    simp only [Shape, update] at shape
    simp only [update, Option.some.injEq] at executed
    obtain ⟨pair, staying⟩ := shape
    obtain ⟨address, header, here, held, _⟩ := pair.1.header
    rw [deref_eq here held, here] at executed
    rw [here] at pair
    subst executed
    apply inv.replace shared own
    · rw [update]
      cases which <;> rfl
    · exact ⟨pair.freeHeader, staying⟩
    · exact fun _ => walk
  | nullHeader which =>
    simp only [Shape, update] at shape
    cases which with
    | shared =>
      simp only [update, Option.some.injEq] at executed
      subst executed
      have idle : s.check = .idle := quiet (by rw [update]; rfl)
      refine ⟨sound, faithful, fun _ => idle, since, shared, own, shape, ?_⟩
      exact walk
    | own =>
      simp only [update, Option.some.injEq] at executed
      subst executed
      exact ⟨sound, faithful, nofun, since, shared, own, shape, walk⟩
  | swap =>
    simp only [Shape, update] at shape
    simp only [update, Option.some.injEq] at executed
    subst executed
    have idle : s.check = .idle := quiet (by rw [update]; rfl)
    refine ⟨sound, faithful, nofun, fun busy => absurd idle busy, own, [], shape, ?_⟩
    rw [idle]
    trivial

/-- Every statement that the condition admits keeps the invariant. -/
theorem step_inv (inv : Inv s) (exclusive : Exclusive s label) (executed : step s label = some t) :
    Inv t := by
  have ⟨sound, faithful, quiet, since, shared, own, shape, walk⟩ := inv
  rw [step.eq_def, if_neg (by rw [sound]; nofun)] at executed
  cases label with
  | check cCommand room =>
    simp only [Option.ite_none_right_eq_some, Option.some.injEq] at executed
    obtain ⟨idle, rfl⟩ := executed
    refine ⟨sound, faithful, fun torn => ?_, fun _ => List.mem_singleton_self _, shared, own,
      shape, trivial⟩
    exact absurd (exclusive.symm.trans torn) nofun
  | reader => exact reader_inv inv exclusive executed
  | message =>
    simp only [Option.ite_none_right_eq_some, Option.some.injEq] at executed
    obtain ⟨waiting, rfl⟩ := executed
    rw [Shape, waiting] at shape
    exact ⟨sound, faithful, nofun, since, shared, own, shape, walk⟩
  | header address =>
    cases address with
    | none => exact absurd rfl exclusive
    | some address =>
      simp only [Option.ite_none_right_eq_some, Option.some.injEq] at executed
      obtain ⟨⟨init, fresh⟩, rfl⟩ := executed
      exact header_inv inv init fresh
  | row name address =>
    cases address with
    | none => exact absurd rfl exclusive
    | some address =>
      simp only [Option.ite_none_right_eq_some] at executed
      exact addRow_inv inv executed.1 executed.2
  | finish succeeds =>
    simp only [Option.ite_none_right_eq_some, Option.some.injEq] at executed
    obtain ⟨table, rfl⟩ := executed
    exact finish_inv inv table exclusive
  | updater => exact updater_inv inv executed

/-- What `ICP_InitICPList` and the first reading of the table leave: a list in memory. -/
def Initial (s : State) : Prop :=
  s.fault = false ∧ s.verdicts = [] ∧ s.check = .idle ∧ s.update = .waiting ∧
    ∃ shared, Listed s.heap s.stHeader shared ∧ names shared = s.inForce

theorem Initial.inv (initial : Initial s) : Inv s := by
  obtain ⟨sound, verdicts, idle, waiting, shared, listed, inForce⟩ := initial
  refine ⟨sound, ?_, fun _ => idle, fun busy => absurd idle busy, shared, [], ?_, ?_⟩
  · intro entry member
    rw [verdicts] at member
    cases member
  · rw [Shape, waiting]
    exact ⟨listed, inForce⟩
  · rw [idle]
    trivial

theorem deref_cases {kept : State → Prop} {pointer : Option Nat} {next : Cell Nat Text → State}
    (crash : kept s.crash) (goes : ∀ cell, kept (next cell)) : kept (s.deref pointer next) := by
  rw [State.deref]
  split
  · exact crash
  · exact goes _

def Untouched (list : List Text) (s : State) : Prop :=
  s.update.tearing = false ∧ s.inForce = list

variable {list : List Text}

theorem reader_untouched (kept : Untouched list s) (executed : reader s = some t) :
    Untouched list t := by
  revert executed
  fun_cases reader s
  all_goals rintro ⟨⟩
  -- these statements follow no pointer
  case case3 | case6 | case9 => exact kept
  all_goals exact deref_cases kept fun _ => kept

theorem addRow_untouched {name : Text} {address : Option Nat} (kept : Untouched list s)
    (executed : addRow s name address = some t) : Untouched list t := by
  revert executed
  fun_cases addRow s name address
  all_goals rintro ⟨⟩
  case case1 =>
    apply deref_cases kept
    intro cell
    split <;> exact kept
  case case3 => exact deref_cases kept fun _ => kept

theorem updater_untouched (kept : Untouched list s) (executed : updater s = some t) :
    Untouched list t := by
  have ⟨tearing, same⟩ := kept
  rw [updater] at executed
  cases update : s.update with
  | waiting | init | table => simp [update] at executed
  | swap =>
    rw [update] at tearing
    cases tearing
  | delete which | free which node | freeHeader which | nullHeader which =>
    cases which with
    | shared =>
      rw [update] at tearing
      cases tearing
    | own =>
      simp only [update, Option.some.injEq] at executed
      subst executed
      first
      | exact ⟨rfl, same⟩
      | apply deref_cases kept
        intro cell
        first
        | exact ⟨rfl, same⟩
        | split
          · exact ⟨rfl, same⟩
          · exact deref_cases kept fun _ => ⟨rfl, same⟩

theorem step_untouched (kept : Untouched list s) (fails : label ≠ .finish true)
    (executed : step s label = some t) : Untouched list t := by
  have ⟨tearing, same⟩ := kept
  rw [step.eq_def] at executed
  split at executed
  · cases executed
  · cases label with
    | reader => exact reader_untouched kept executed
    | updater => exact updater_untouched kept executed
    | row name address =>
      simp only [Option.ite_none_right_eq_some] at executed
      exact addRow_untouched kept executed.2
    | check cCommand room =>
      simp only [Option.ite_none_right_eq_some, Option.some.injEq] at executed
      obtain ⟨_, rfl⟩ := executed
      exact kept
    | message | header address =>
      simp only [Option.ite_none_right_eq_some, Option.some.injEq] at executed
      obtain ⟨_, rfl⟩ := executed
      exact ⟨rfl, same⟩
    | finish succeeds =>
      cases succeeds with
      | true => exact absurd rfl fails
      | false =>
        simp only [Option.ite_none_right_eq_some, Option.some.injEq] at executed
        obtain ⟨_, rfl⟩ := executed
        exact ⟨rfl, same⟩

theorem failed_untouched (executed : Machine.run step s labels = some t)
    (fail : ∀ label ∈ labels, label ≠ .finish true) (tearing : s.update.tearing = false) :
    Untouched s.inForce t := by
  have kept : ∀ r label u, Untouched s.inForce r → label ≠ .finish true →
      step r label = some u → Untouched s.inForce u := fun _ _ _ => step_untouched
  exact Machine.run_invariant kept ⟨tearing, rfl⟩ (.of_all fail) executed

/-- What every check and the memory show when the lists are in order. -/
structure Atomic (s : State) : Prop where
  sound : s.fault = false
  faithful : Faithful s
  inForce : s.update.tearing = false →
    ∃ shared, Listed s.heap s.stHeader shared ∧ names shared = s.inForce

/-- Every check is answered from one complete list, and failed reloads change nothing. -/
theorem reload_atomic {front back : List Label} {m : State} (initial : Initial s)
    (exclusive : Machine.Along step Exclusive s (front ++ back))
    (first : Machine.run step s front = some m) (rest : Machine.run step m back = some t) :
    Atomic t ∧ (m.update.tearing = false → (∀ label ∈ back, label ≠ .finish true) →
      t.inForce = m.inForce) := by
  have inv : Inv t := Machine.run_invariant (fun _ _ _ => step_inv) initial.inv exclusive
    (Machine.run_append first rest)
  constructor
  · obtain ⟨sound, faithful, _, _, shared, own, shape, _⟩ := inv
    exact ⟨sound, faithful, fun tearing => ⟨shared, shape.ready tearing⟩⟩
  · intro tearing fail
    exact (failed_untouched rest fail tearing).2

def listing : State where
  heap := Function.update (Function.update (fun _ => none) 0 (some ⟨[], some 1⟩)) 1
    (some ⟨"rm".toList, none⟩)
  stHeader := some 0
  ownHeader := none
  icpListmutex := false
  check := .idle
  update := .waiting
  rows := []
  inForce := ["rm".toList]
  since := []
  verdicts := []
  fault := false

theorem listing_initial : Initial listing := by
  refine ⟨rfl, rfl, rfl, rfl, [(1, "rm".toList)], ?_, rfl⟩
  exact ⟨0, [], some 1, rfl, rfl, ⟨rfl, none, rfl, rfl⟩, by decide⟩

/-- A check, and a reload that fails meanwhile. -/
def failedReload : List Label :=
  [.check "rm".toList 2, .reader, .reader, .message, .header (some 2), .reader, .finish false,
    .reader, .updater, .updater, .updater, .reader]

/-- A reload that succeeds, and two checks. -/
def newListing : List Label :=
  [.message, .header (some 2), .row "ls".toList (some 3), .finish true, .updater, .updater,
    .updater, .updater, .updater, .updater, .check "rm".toList 2, .reader, .reader, .reader,
    .reader, .reader, .reader, .reader, .check "ls".toList 2, .reader, .reader, .reader,
    .reader, .reader]

theorem reload_atomic_inTurn : ∃ m t, Machine.run step listing failedReload = some m ∧
    Machine.run step m newListing = some t ∧ m.inForce = ["rm".toList] ∧ Atomic t ∧
    t.inForce = ["ls".toList] ∧ t.verdicts.map Verdict.found = [true, false, true] := by
  have computed : (Machine.run step listing (failedReload ++ newListing)).any
      (fun t => decide (t.inForce = ["ls".toList] ∧
        t.verdicts.map Verdict.found = [true, false, true])) = true := by decide +kernel
  obtain ⟨t, executed, reached⟩ := Machine.run_of_any computed
  obtain ⟨m, before, after⟩ := Machine.run_append_some executed
  have exclusive : Machine.Along step Exclusive listing (failedReload ++ newListing) := by
    decide +kernel
  have first : Machine.Along step Exclusive listing ([] ++ failedReload) := exclusive.front
  have kept := (reload_atomic listing_initial first rfl before).2 rfl (by decide)
  exact ⟨m, t, before, after, kept, (reload_atomic listing_initial exclusive before after).1,
    reached⟩

/-- The only command is unlinked and freed, with its successor at hand. -/
def teardown : List Label :=
  [.message, .header (some 2), .row "rm".toList (some 3), .finish true, .updater, .updater]

def checking : List Label := [.check "rm".toList 2, .reader, .reader]

/-- A check within the teardown lets the command pass. -/
theorem reload_torn : ¬ ∀ (s t : State) (labels : List Label), Initial s →
    Machine.run step s labels = some t → t.fault = false ∧ Faithful t := by
  intro always
  have computed : (Machine.run step listing (teardown ++ checking ++ [.reader])).any
      (fun t => decide (t.verdicts = [⟨"rm".toList, 2, false, [["rm".toList]]⟩])) = true := by
    decide +kernel
  obtain ⟨t, executed, verdicts⟩ := Machine.run_of_any computed
  obtain ⟨list, member, found⟩ := (always _ _ _ listing_initial executed).2
    ⟨"rm".toList, 2, false, [["rm".toList]]⟩ (by rw [verdicts]; exact List.mem_cons_self)
  rw [List.mem_singleton.mp member] at found
  exact absurd found (by decide)

theorem reload_freed : ∃ t,
    Machine.run step listing (checking ++ [.reader] ++ teardown ++ [.reader]) = some t ∧
      t.fault = true := by
  apply Machine.run_of_any
  decide +kernel

end Invariant

end EveAgent.Icp.Reload
