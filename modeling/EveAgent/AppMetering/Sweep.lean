import EveAgent.AppMetering.Traps

namespace EveAgent.AppMetering

open Machine Cells

section Machine

/-- Where `AM_DoReaction` stands. -/
inductive Control where
  | idle
  | outer (applist : Option Nat)
  | enter (applist : Nat)
  | inner (applist : Nat) (appsub : Option Nat)
  | row (applist appsub : Nat)
  | react (applist appsub : Nat)
  | advance (applist : Nat)
  deriving DecidableEq, Repr

/-- `acted` are the rows that the sweep has acted on, with the names of their binaries. -/
structure Sweep where
  control : Control
  check : Bool
  checksub : Bool
  acted : List (Text × Stappsub)

def Sweep.finish (s : Sweep) : Sweep := ⟨.idle, false, false, s.acted⟩

def Stappsub.InWindow (sub : Stappsub) (ulcurrtime : UInt32) : Prop :=
  sub.ulappMeteringStartTime ≤ ulcurrtime ∧ ulcurrtime ≤ sub.ulappMeteringEndTime

instance (sub : Stappsub) (ulcurrtime : UInt32) : Decidable (sub.InWindow ulcurrtime) :=
  inferInstanceAs (Decidable (_ ∧ _))

/-- A step of `AM_DoReaction` reads one node, or the two that it acts on. It is `none` where
a node that is read has been freed. -/
def sweepStep (mem : Memory) (ulcurrtime : UInt32) (s : Sweep) : Option Sweep :=
  match s.control with
  | .idle => some { s with control := .outer mem.head, acted := [] }
  | .outer none => some s.finish
  | .outer (some applist) =>
    if s.check = false then
      match mem.apps applist with
      | none => none
      | some cell =>
        match cell.next with
        | none => some { s with check := true }.finish
        | some applist => some ⟨.enter applist, true, false, s.acted⟩
    else some { s with control := .enter applist, checksub := false }
  | .enter applist =>
    match mem.apps applist with
    | none => none
    | some cell => some { s with control := .inner applist cell.val.head }
  | .inner applist none => some { s with control := .advance applist }
  | .inner applist (some appsub) =>
    if s.checksub = false then
      match mem.subs appsub with
      | none => none
      | some cell =>
        match cell.next with
        | none => some { s with control := .advance applist, checksub := true }
        | some appsub => some { s with control := .row applist appsub, checksub := true }
    else some { s with control := .row applist appsub }
  | .row applist appsub =>
    match mem.subs appsub with
    | none => none
    | some cell =>
      if cell.val.InWindow ulcurrtime then some { s with control := .react applist appsub }
      else some { s with control := .inner applist cell.next }
  | .react applist appsub =>
    match mem.apps applist, mem.subs appsub with
    | some app, some cell =>
      some { s with
        control := .advance applist
        acted := s.acted ++ [(app.val.pcappMeteringBinaryName, cell.val)] }
    | _, _ => none
  | .advance applist =>
    match mem.apps applist with
    | none => none
    | some cell => some { s with control := .outer cell.next }

/-- Both threads; `states` are the lists that have existed between two events. -/
structure Threads where
  mem : Memory
  sweep : Sweep
  states : List (List (Text × List Stappsub))

def Threads.start : Threads := ⟨AppMetering.start, ⟨.idle, false, false, []⟩, [[]]⟩

inductive Action where
  | event (pappMet : StappMeteringStruct)
  | sweep (ulcurrtime : UInt32)

def threads (s : Threads) : Action → Option Threads
  | .event pappMet =>
    (amParseTrap s.mem pappMet []).map fun mem => ⟨mem, s.sweep, mem.listing :: s.states⟩
  | .sweep ulcurrtime => (sweepStep s.mem ulcurrtime s.sweep).map fun sweep =>
    { s with sweep := sweep }

/-- The rows that a sweep has acted on are of one list. -/
def SingleState (s : Threads) : Prop :=
  ∃ state ∈ s.states, ∀ action ∈ s.sweep.acted, ∃ entry ∈ state,
    entry.1 = action.1 ∧ action.2 ∈ entry.2

end Machine

section Condition

/-- The event is one on which nothing is added, deleted or modified. -/
def Quiet (mem : Memory) (pappMet : StappMeteringStruct) : Prop :=
  ¬ Adds pappMet ∧
    if Deletes pappMet then
      ¬ mem.Lists pappMet.pcappMeteringBinaryName pappMet.uiappMeteringIndex
    else ∀ entry ∈ mem.listing, ∀ sub ∈ entry.2,
      sub.uiappMeteringIndex ≠ pappMet.uiappMeteringIndex

instance (mem : Memory) (pappMet : StappMeteringStruct) : Decidable (Quiet mem pappMet) :=
  inferInstanceAs (Decidable (_ ∧ _))

/-- Events are sturdy, and while a sweep is running they leave the list as it is. -/
def Excluded (s : Threads) : Action → Prop
  | .event pappMet => Sturdy s.mem pappMet ∧ (s.sweep.control = .idle ∨ Quiet s.mem pappMet)
  | .sweep _ => True

instance (s : Threads) : DecidablePred (Excluded s)
  | .event _ => inferInstanceAs (Decidable (_ ∧ _))
  | .sweep _ => inferInstanceAs (Decidable True)

def Positive : Action → Prop
  | .event pappMet => 0 < pappMet.uiappMeteringIndex
  | .sweep _ => True

instance : DecidablePred Positive
  | .event _ => inferInstanceAs (Decidable (_ < _))
  | .sweep _ => inferInstanceAs (Decidable True)

variable {mem : Memory} {list : List Binary} {pappMet : StappMeteringStruct}

theorem Quiet.keeps (quiet : Quiet mem pappMet) (rep : Represents mem list) (tidy : Tidy list) :
    ∃ allocated, mem.allocated ≤ allocated ∧
      amParseTrap mem pappMet [] = some { mem with allocated := allocated } := by
  obtain ⟨adds, quiet⟩ := quiet
  unfold amParseTrap
  have adds' : ¬ (pappMet.istatus = 4 ∨ pappMet.istatus = 1) := adds
  rw [if_neg adds']
  by_cases deletes : pappMet.istatus = 2 ∨ pappMet.istatus = 6
  · have deletes' : Deletes pappMet := deletes
    rw [if_pos deletes', rep.lists] at quiet
    rw [if_pos deletes]
    exact ⟨mem.allocated, Nat.le_refl _, amDelete_unlisted rep tidy quiet⟩
  · have deletes' : ¬ Deletes pappMet := deletes
    rw [if_neg deletes', rep.listing] at quiet
    rw [if_neg deletes]
    have unlisted : ∀ name, ¬ Listed list name pappMet.uiappMeteringIndex := by
      rintro name ⟨binary, member, _, row, inside, index⟩
      exact quiet _ (List.mem_map_of_mem member) row.2 (List.mem_map_of_mem inside) index
    refine ⟨mem.allocated + 1, Nat.le_succ _, ?_⟩
    rw [amModify_unlisted rep unlisted]

end Condition

section Cursor

/-- What the sweep is about to read is part of the list. -/
def OnList (mem : Memory) (list : List Binary) (s : Sweep) : Prop :=
  match s.control with
  | .idle => s.check = false
  | .outer p => (s.check = false ∧ p = mem.head) ∨ (s.check = true ∧ ∃ back,
      (∀ other ∈ back, other ∈ list) ∧ Segment mem.apps p (appCells back) none)
  | .enter applist => s.check = true ∧ s.checksub = false ∧
      ∃ binary ∈ list, binary.node = applist
  | .inner applist p => s.check = true ∧ ∃ binary ∈ list, binary.node = applist ∧
      ((s.checksub = false ∧ p = some binary.dummy) ∨ (s.checksub = true ∧ ∃ rows,
        (∀ row ∈ rows, row ∈ binary.rows) ∧ Segment mem.subs p rows none))
  | .row applist appsub => s.check = true ∧ s.checksub = true ∧
      ∃ binary ∈ list, binary.node = applist ∧ ∃ sub, (appsub, sub) ∈ binary.rows
  | .react applist appsub => s.check = true ∧
      ∃ binary ∈ list, binary.node = applist ∧ ∃ sub, (appsub, sub) ∈ binary.rows
  | .advance applist => s.check = true ∧ ∃ binary ∈ list, binary.node = applist

variable {mem : Memory} {list : List Binary} {binary : Binary} {s : Sweep}

theorem Represents.behind (rep : Represents mem list) (member : binary ∈ list) :
    ∃ next, mem.apps binary.node = some ⟨⟨binary.name, some binary.dummy⟩, next⟩ ∧
      ∃ back, (∀ other ∈ back, other ∈ list) ∧ Segment mem.apps next (appCells back) none := by
  obtain ⟨front, back, rfl⟩ := List.append_of_mem member
  obtain ⟨_, _, next, _, _, _, here, behind⟩ := rep.around
  refine ⟨next, here, back, ?_, behind⟩
  intro other inside
  exact List.mem_append_right _ (List.mem_cons_of_mem _ inside)

theorem Represents.row (rep : Represents mem list) (member : binary ∈ list) {appsub : Nat}
    {sub : Stappsub} (inside : (appsub, sub) ∈ binary.rows) :
    ∃ next, mem.subs appsub = some ⟨sub, next⟩ ∧
      ∃ rows, (∀ row ∈ rows, row ∈ binary.rows) ∧ Segment mem.subs next rows none := by
  obtain ⟨before, after, split⟩ := List.append_of_mem inside
  have segment := rep.rows binary member
  rw [Binary.cells, split, ← List.cons_append] at segment
  obtain ⟨next, _, held, behind⟩ := segment.middle
  refine ⟨next, held, after, ?_, behind⟩
  intro row later
  rw [split]
  exact List.mem_append_right _ (List.mem_cons_of_mem _ later)

theorem sweepStep_onList (rep : Represents mem list) (onList : OnList mem list s)
    (ulcurrtime : UInt32) :
    ∃ s', sweepStep mem ulcurrtime s = some s' ∧ OnList mem list s' ∧
      ((s.control ≠ .idle ∧ s'.acted = s.acted) ∨ s'.acted = [] ∨
        s.control ≠ .idle ∧ ∃ binary ∈ list, ∃ row ∈ binary.rows,
          s'.acted = s.acted ++ [(binary.name, row.2)]) := by
  obtain ⟨control, check, checksub, acted⟩ := s
  unfold sweepStep
  cases control with
  | idle => exact ⟨_, rfl, .inl ⟨onList, rfl⟩, .inr (.inl rfl)⟩
  | outer p =>
    cases p with
    | none => exact ⟨_, rfl, rfl, .inl ⟨nofun, rfl⟩⟩
    | some applist =>
      rcases onList with ⟨rfl, begins⟩ | ⟨rfl, back, within, segment⟩
      · obtain ⟨_, next, held, rest⟩ := rep.segment begins.symm
        simp only [held, if_true]
        cases list with
        | nil =>
          obtain rfl : next = none := rest
          exact ⟨_, rfl, rfl, .inl ⟨nofun, rfl⟩⟩
        | cons first back =>
          obtain ⟨rfl, _⟩ := rest
          exact ⟨_, rfl, ⟨rfl, rfl, first, List.mem_cons_self, rfl⟩, .inl ⟨nofun, rfl⟩⟩
      · cases back with
        | nil => cases segment
        | cons first back =>
          obtain ⟨start, _⟩ := segment
          obtain rfl := Option.some.inj start
          exact ⟨_, rfl, ⟨rfl, rfl, first, within first List.mem_cons_self, rfl⟩, .inl ⟨nofun, rfl⟩⟩
  | enter applist =>
    obtain ⟨rfl, rfl, binary, member, rfl⟩ := onList
    obtain ⟨next, held, _⟩ := rep.behind member
    simp only [held]
    exact ⟨_, rfl, ⟨rfl, binary, member, rfl, .inl ⟨rfl, rfl⟩⟩, .inl ⟨nofun, rfl⟩⟩
  | inner applist p =>
    obtain ⟨rfl, binary, member, rfl, place⟩ := onList
    cases p with
    | none => exact ⟨_, rfl, ⟨rfl, binary, member, rfl⟩, .inl ⟨nofun, rfl⟩⟩
    | some appsub =>
      rcases place with ⟨rfl, dummy⟩ | ⟨rfl, rows, within, segment⟩
      · obtain rfl := Option.some.inj dummy
        obtain ⟨_, next, held, rest⟩ := rep.rows binary member
        simp only [held, if_true]
        cases rows : binary.rows with
        | nil =>
          rw [rows] at rest
          obtain rfl : next = none := rest
          exact ⟨_, rfl, ⟨rfl, binary, member, rfl⟩, .inl ⟨nofun, rfl⟩⟩
        | cons first back =>
          rw [rows] at rest
          obtain ⟨rfl, _⟩ := rest
          refine ⟨_, rfl, ⟨rfl, rfl, binary, member, rfl, first.2, ?_⟩, .inl ⟨nofun, rfl⟩⟩
          rw [rows]
          exact List.mem_cons_self
      · cases rows with
        | nil => cases segment
        | cons first back =>
          obtain ⟨start, _⟩ := segment
          obtain rfl := Option.some.inj start
          exact ⟨_, rfl, ⟨rfl, rfl, binary, member, rfl, first.2,
            within first List.mem_cons_self⟩, .inl ⟨nofun, rfl⟩⟩
  | row applist appsub =>
    obtain ⟨rfl, rfl, binary, member, rfl, sub, inside⟩ := onList
    obtain ⟨next, held, rows, within, behind⟩ := rep.row member inside
    simp only [held]
    by_cases window : sub.InWindow ulcurrtime
    · rw [if_pos window]
      exact ⟨_, rfl, ⟨rfl, binary, member, rfl, sub, inside⟩, .inl ⟨nofun, rfl⟩⟩
    · rw [if_neg window]
      exact ⟨_, rfl, ⟨rfl, binary, member, rfl, .inr ⟨rfl, rows, within, behind⟩⟩,
        .inl ⟨nofun, rfl⟩⟩
  | react applist appsub =>
    obtain ⟨rfl, binary, member, rfl, sub, inside⟩ := onList
    obtain ⟨_, here, _⟩ := rep.behind member
    obtain ⟨_, held, _⟩ := rep.row member inside
    simp only [here, held]
    exact ⟨_, rfl, ⟨rfl, binary, member, rfl⟩, .inr (.inr ⟨nofun, binary, member, _, inside, rfl⟩)⟩
  | advance applist =>
    obtain ⟨rfl, binary, member, rfl⟩ := onList
    obtain ⟨next, held, back, within, behind⟩ := rep.behind member
    simp only [held]
    exact ⟨_, rfl, .inr ⟨rfl, back, within, behind⟩, .inl ⟨nofun, rfl⟩⟩

end Cursor

section Runs

/-- The sweep stands on the list that is there, and has acted on its rows. -/
structure Follows (s : Threads) (list : List Binary) : Prop where
  represents : Represents s.mem list
  tidy : Tidy list
  current : s.mem.listing ∈ s.states
  onList : OnList s.mem list s.sweep
  acted : s.sweep.control ≠ .idle → ∀ action ∈ s.sweep.acted, ∃ entry ∈ s.mem.listing,
    entry.1 = action.1 ∧ action.2 ∈ entry.2
  single : SingleState s

variable {s : Threads} {list : List Binary} {pappMet : StappMeteringStruct}

theorem follows_start : Follows Threads.start [] where
  represents := represents_start
  tidy := tidy_nil
  current := by simp [Threads.start, represents_start.listing]
  onList := rfl
  acted := nofun
  single := ⟨[], by simp [Threads.start], by simp [Threads.start]⟩

theorem SingleState.event {mem : Memory} {state : List (Text × List Stappsub)}
    (single : SingleState s) : SingleState ⟨mem, s.sweep, state :: s.states⟩ := by
  obtain ⟨old, member, acted⟩ := single
  exact ⟨old, List.mem_cons_of_mem _ member, acted⟩

theorem Follows.event (follows : Follows s list) (positive : 0 < pappMet.uiappMeteringIndex)
    (sturdy : Sturdy s.mem pappMet) (idle : s.sweep.control = .idle) :
    ∃ s' list', threads s (.event pappMet) = some s' ∧ Follows s' list' := by
  obtain ⟨mem', list', ran, rep', tidy', _⟩ :=
    amParseTrap_effect follows.represents follows.tidy positive sturdy
  refine ⟨_, list', by rw [threads, ran]; rfl, rep', tidy', List.mem_cons_self, ?_, ?_,
    follows.single.event⟩
  · have onList := follows.onList
    rw [OnList, idle] at onList
    rw [OnList, idle]
    exact onList
  · exact fun running => absurd idle running

theorem Follows.quiet (follows : Follows s list) (quiet : Quiet s.mem pappMet) :
    ∃ s', threads s (.event pappMet) = some s' ∧ Follows s' list := by
  obtain ⟨allocated, more, ran⟩ := quiet.keeps follows.represents follows.tidy
  have rep' := follows.represents.set_allocated more
  have stepped : threads s (.event pappMet) = some
      ⟨{ s.mem with allocated := allocated }, s.sweep,
        Memory.listing { s.mem with allocated := allocated } :: s.states⟩ := by
    rw [threads, ran]
    rfl
  refine ⟨_, stepped, rep', follows.tidy, List.mem_cons_self, follows.onList, ?_,
    follows.single.event⟩
  intro running action member
  have listing : Memory.listing { s.mem with allocated := allocated } = s.mem.listing :=
    rep'.listing.trans follows.represents.listing.symm
  rw [listing]
  exact follows.acted running action member

theorem Follows.sweep (follows : Follows s list) (ulcurrtime : UInt32) :
    ∃ s', threads s (.sweep ulcurrtime) = some s' ∧ Follows s' list := by
  obtain ⟨sweep', stepped, onList', change⟩ :=
    sweepStep_onList follows.represents follows.onList ulcurrtime
  have acted' : ∀ action ∈ sweep'.acted, ∃ entry ∈ s.mem.listing,
      entry.1 = action.1 ∧ action.2 ∈ entry.2 := by
    rcases change with ⟨running, same⟩ | none | ⟨running, binary, member, row, inside, more⟩
    · rw [same]
      exact follows.acted running
    · simp [none]
    · rw [more]
      intro action among
      rcases List.mem_append.mp among with old | new
      · exact follows.acted running action old
      · obtain rfl := List.mem_singleton.mp new
        rw [follows.represents.listing]
        exact ⟨_, List.mem_map_of_mem member, rfl, List.mem_map_of_mem inside⟩
  exact ⟨{ s with sweep := sweep' }, by rw [threads, stepped]; rfl, follows.represents,
    follows.tidy, follows.current, onList', fun _ => acted', s.mem.listing, follows.current, acted'⟩

/-- Where no event changes the list during a sweep, the sweep never reads a freed node, and
acts on rows of a list that has existed between two events. -/
theorem sweep_singleState (actions : List Action) (positive : ∀ action ∈ actions, Positive action)
    (excluded : Along threads Excluded Threads.start actions) :
    ∃ s, run threads Threads.start actions = some s ∧ SingleState s := by
  have kept : ∀ s action, (∃ list, Follows s list) → Positive action ∧ Excluded s action →
      ∃ s', threads s action = some s' ∧ ∃ list, Follows s' list := by
    rintro s action ⟨list, follows⟩ ⟨positive, excluded⟩
    cases action with
    | event pappMet =>
      obtain ⟨sturdy, idle | quiet⟩ := excluded
      · obtain ⟨s', list', ran, follows'⟩ := follows.event positive sturdy idle
        exact ⟨s', ran, list', follows'⟩
      · obtain ⟨s', ran, follows'⟩ := follows.quiet quiet
        exact ⟨s', ran, list, follows'⟩
    | sweep ulcurrtime =>
      obtain ⟨s', ran, follows'⟩ := follows.sweep ulcurrtime
      exact ⟨s', ran, list, follows'⟩
  have begins : ∃ list, Follows Threads.start list := ⟨[], follows_start⟩
  obtain ⟨s, ran, list, follows⟩ := run_progress kept begins (excluded.with positive)
  exact ⟨s, ran, follows.single⟩

/-- A row is added, a sweep begins, an event for a row that is not there comes in, and the
sweep acts on the row. -/
theorem sweep_singleState_quiet : ∃ s, run threads Threads.start
    [.event (rowEvent 1 ['a'] 4), .sweep 0, .sweep 0, .event (rowEvent 2 ['a'] 6), .sweep 0,
      .sweep 0, .sweep 0, .sweep 0] = some s ∧ SingleState s :=
  sweep_singleState _ (by decide +kernel) (by decide +kernel)

/-- The binary that the sweep stands on is deleted. -/
theorem sweep_singleState_deletion : ¬ ∀ actions : List Action,
    (∀ action ∈ actions, Positive action) →
      ∃ s, run threads Threads.start actions = some s ∧ SingleState s := by
  intro all
  obtain ⟨s, ran, _⟩ := all [.event (rowEvent 1 ['a'] 4), .sweep 0, .sweep 0,
    .event (rowEvent 1 ['a'] 6), .sweep 0] (by decide +kernel)
  have stuck : (run threads Threads.start [.event (rowEvent 1 ['a'] 4), .sweep 0, .sweep 0,
      .event (rowEvent 1 ['a'] 6), .sweep 0]).isNone = true := by
    decide +kernel
  rw [ran] at stuck
  cases stuck

end Runs

end EveAgent.AppMetering
