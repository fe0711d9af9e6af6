import EveAgent.Scheduler.Representation

namespace EveAgent.Scheduler

open Chain Machine

section Steps

inductive CleanPlace where
  | lock
  | slot (nCount : Nat)
  | visit (nCount : Nat) (pPrevious pCurrent : Option Nat)
  | unlock
  | returned
  deriving DecidableEq, Repr

structure CleanState where
  mem : Memory
  gMasterTable_mutex : Bool
  place : CleanPlace

/-- One visit of the inner loop. A one-shot task that is not expired moves neither pointer. -/
def CleanState.visit (pTime : Tm) (s : CleanState) (nCount : Nat) (pPrevious : Option Nat)
    (pCurrent : Nat) : Option CleanState :=
  match s.mem.heap pCurrent, s.mem.gSchMasterTable[nCount]? with
  | some node, some slot =>
    if node.mTask.eType = .schOneShot then
      if validateDateTime pTime node.mTask.startDate node.mTask.startTime .schDateOnly =
          .nascFailure then
        (unlinkNode s.mem nCount slot pPrevious pCurrent).map fun mem =>
          { s with mem, place := .visit nCount pPrevious node.pNext }
      else some s
    else some { s with place := .visit nCount (some pCurrent) node.pNext }
  | _, _ => none

def CleanState.step (pTime : Tm) (s : CleanState) (_ : Unit) : Option CleanState :=
  match s.place with
  | .lock =>
    if s.gMasterTable_mutex then none
    else some { s with gMasterTable_mutex := true, place := .slot 0 }
  | .slot nCount =>
    if nCount < masterArrSize then
      match s.mem.gSchMasterTable[nCount]? with
      | none => none
      | some slot =>
        if slot.pHeadMasterData = none then some { s with place := .slot (nCount + 1) }
        else some { s with place := .visit nCount none slot.pHeadMasterData }
    else some { s with place := .unlock }
  | .visit nCount _ none => some { s with place := .slot (nCount + 1) }
  | .visit nCount pPrevious (some pCurrent) => s.visit pTime nCount pPrevious pCurrent
  | .unlock => some { s with gMasterTable_mutex := false, place := .returned }
  | .returned => none

def schAutoCleanTask (pTime : Tm) (mem : Memory) (steps : Nat) : Option CleanState :=
  run (CleanState.step pTime) ⟨mem, false, .lock⟩ (List.replicate steps ())

end Steps

section Visits

variable {mem : Memory} {table : Table} {pTime : Tm} {nCount cur : Nat} {front rest : List Nat}
  {p : Option Nat}

theorem validateDateTime_date (date : StDate) (time : StTime) :
    validateDateTime pTime date time .schDateOnly = .nascFailure ↔ DateExpired date pTime := by
  simp [validateDateTime]

/-- The inner loop stands behind the front of its slot. -/
structure AtVisit (mem : Memory) (table : Table) (nCount : Nat) (front rest : List Nat)
    (p : Option Nat) : Prop where
  rep : Represents mem table
  inside : nCount < masterArrSize
  ids : (table.inSlot nCount).ids = front ++ rest
  chain : IsChain mem.next p rest

theorem AtVisit.entry (at_ : AtVisit mem table nCount front (cur :: rest) p) :
    ∃ entry ∈ table, entry.id = cur ∧ entry.slot = nCount ∧ p = some cur ∧
      ∃ next, mem.heap cur = some ⟨entry.mTask, next⟩ ∧ IsChain mem.next next rest := by
  have member : cur ∈ (table.inSlot nCount).ids := by
    rw [at_.ids]
    simp
  obtain ⟨entry, inSlot, same⟩ := mem_ids.mp member
  obtain ⟨inside, slot⟩ := mem_inSlot.mp inSlot
  obtain ⟨link, held⟩ := at_.rep.nodes entry inside
  obtain ⟨start, next, linked, later⟩ := at_.chain
  rw [same] at held
  rw [Memory.next, held, Option.map_some, Option.some.injEq] at linked
  simp only at linked
  rw [linked] at held
  exact ⟨entry, inside, same, slot, start, next, held, later⟩

theorem AtVisit.pass (at_ : AtVisit mem table nCount front (cur :: rest) p) (pTime : Tm)
    (locked : Bool)
    (often : ∀ entry ∈ table, entry.id = cur → entry.mTask.eType ≠ .schOneShot) :
    ∃ next, CleanState.step pTime ⟨mem, locked, .visit nCount front.getLast? p⟩ () =
        some ⟨mem, locked, .visit nCount (front ++ [cur]).getLast? next⟩ ∧
      AtVisit mem table nCount (front ++ [cur]) rest next := by
  obtain ⟨entry, inside, same, _, start, next, held, later⟩ := at_.entry
  obtain ⟨slot, member⟩ := at_.rep.slot at_.inside
  apply Exists.intro next
  constructor
  · rw [start]
    simp only [CleanState.step, CleanState.visit, held, member]
    rw [if_neg (often entry inside same), List.getLast?_append_of_ne_nil _ (List.cons_ne_nil _ _)]
    rfl
  · constructor
    · exact at_.rep
    · exact at_.inside
    · rw [at_.ids, List.append_assoc]
      rfl
    · exact later

theorem AtVisit.remove (at_ : AtVisit mem table nCount front (cur :: rest) p) (locked : Bool)
    (once : ∀ entry ∈ table, entry.id = cur → entry.mTask.eType = .schOneShot ∧
      DateExpired entry.mTask.startDate pTime) :
    ∃ mem' next, CleanState.step pTime ⟨mem, locked, .visit nCount front.getLast? p⟩ () =
        some ⟨mem', locked, .visit nCount front.getLast? next⟩ ∧
      AtVisit mem' (table.without cur) nCount front rest next := by
  obtain ⟨entry, inside, same, _, start, next, held, later⟩ := at_.entry
  obtain ⟨slot, member⟩ := at_.rep.slot at_.inside
  obtain ⟨oneShot, expired⟩ := once entry inside same
  obtain ⟨mem', unlinked, rep', _⟩ := unlinkNode_represents at_.rep member at_.ids
  have chain := (at_.rep.holds nCount slot member).chain
  rw [at_.ids] at chain
  have left : ((table.without cur).inSlot nCount).ids = front ++ rest := by
    rw [inSlot_remove, at_.ids, filter_between chain.nodup]
  refine ⟨mem', next, ?_, rep', at_.inside, left, ?_⟩
  · rw [start]
    simp only [CleanState.step, CleanState.visit, held, member]
    rw [if_pos oneShot, if_pos (validateDateTime_date _ _ |>.mpr expired)]
    rw [Option.or_none] at unlinked
    rw [unlinked, Option.map_some]
  · cases rest with
    | nil => exact later
    | cons first others =>
      obtain ⟨slot', member'⟩ := rep'.slot at_.inside
      have chain' := (rep'.holds nCount slot' member').chain
      rw [left] at chain'
      rw [later.head]
      exact chain'.from

theorem AtVisit.stay (at_ : AtVisit mem table nCount front (cur :: rest) p) (locked : Bool)
    (once : ∀ entry ∈ table, entry.id = cur → entry.mTask.eType = .schOneShot ∧
      ¬DateExpired entry.mTask.startDate pTime) :
    CleanState.step pTime ⟨mem, locked, .visit nCount front.getLast? p⟩ () =
      some ⟨mem, locked, .visit nCount front.getLast? p⟩ := by
  obtain ⟨entry, inside, same, _, start, next, held, _⟩ := at_.entry
  obtain ⟨slot, member⟩ := at_.rep.slot at_.inside
  obtain ⟨oneShot, current⟩ := once entry inside same
  rw [start]
  simp only [CleanState.step, CleanState.visit, held, member]
  rw [if_pos oneShot, if_neg fun failed => current (validateDateTime_date _ _ |>.mp failed)]

end Visits

section Ends

/-- A task that `SCH_AutoCleanTask` is to remove. -/
def Entry.Over (pTime : Tm) (entry : Entry) : Prop :=
  entry.mTask.eType = .schOneShot ∧ DateExpired entry.mTask.startDate pTime

instance (pTime : Tm) (entry : Entry) : Decidable (entry.Over pTime) :=
  inferInstanceAs (Decidable (_ ∧ _))

def Table.cleaned (pTime : Tm) (table : Table) : Table :=
  List.filter (fun entry => ¬entry.Over pTime) table

/-- The same for one slot, and for the slots from this one on. -/
def Table.cleanedIn (pTime : Tm) (nCount : Nat) (table : Table) : Table :=
  List.filter (fun entry => ¬(entry.slot = nCount ∧ entry.Over pTime)) table

def Table.cleanedFrom (pTime : Tm) (nCount : Nat) (table : Table) : Table :=
  List.filter (fun entry => ¬(nCount ≤ entry.slot ∧ entry.Over pTime)) table

def AllOver (pTime : Tm) (table : Table) : Prop :=
  ∀ entry ∈ table, entry.mTask.eType = .schOneShot → DateExpired entry.mTask.startDate pTime

variable {mem : Memory} {table : Table} {pTime : Tm} {nCount : Nat} {front rest : List Nat}
  {p : Option Nat}

/-- Some steps of the call lead from one state to the other. -/
abbrev CleanState.Reaches (pTime : Tm) (s t : CleanState) : Prop :=
  Machine.Reaches (CleanState.step pTime) (fun _ => True) s t

theorem CleanState.reaches_head {s t u : CleanState} (first : CleanState.step pTime s () = some t)
    (rest : CleanState.Reaches pTime t u) : CleanState.Reaches pTime s u :=
  Reaches.head trivial first rest

theorem cleanedFrom_next (table : Table) :
    Table.cleanedFrom pTime (nCount + 1) (table.cleanedIn pTime nCount) =
      table.cleanedFrom pTime nCount := by
  rw [Table.cleanedFrom, Table.cleanedIn, Table.cleanedFrom, List.filter_filter]
  apply List.filter_congr
  intro entry _
  rw [← Bool.decide_and, decide_eq_decide]
  by_cases expired : entry.Over pTime
  · simp only [expired, and_true]
    omega
  · simp only [expired, and_false, not_false_iff, and_self]

theorem cleanedIn_clean (clean : ∀ entry ∈ table, entry.slot = nCount → ¬entry.Over pTime) :
    table.cleanedIn pTime nCount = table := by
  apply List.filter_eq_self.mpr
  intro entry inside
  rw [decide_eq_true_eq]
  intro expired
  exact clean entry inside expired.1 expired.2

theorem cleanedIn_without {cur : Nat} (once : ∀ entry ∈ table, entry.id = cur →
    entry.slot = nCount ∧ entry.Over pTime) :
    Table.cleanedIn pTime nCount (table.without cur) = table.cleanedIn pTime nCount := by
  rw [Table.cleanedIn, Table.cleanedIn, Table.without, List.filter_filter]
  apply List.filter_congr
  intro entry inside
  by_cases same : entry.id = cur
  · have expired := once entry inside same
    simp [expired]
  · simp [same]

theorem AtVisit.ends (at_ : AtVisit mem table nCount front rest p) (all : AllOver pTime table)
    (passed : ∀ entry ∈ table, entry.id ∈ front → ¬entry.Over pTime) :
    ∃ mem', CleanState.Reaches pTime ⟨mem, true, .visit nCount front.getLast? p⟩
        ⟨mem', true, .slot (nCount + 1)⟩ ∧
      Represents mem' (table.cleanedIn pTime nCount) := by
  induction rest generalizing mem table front p with
  | nil =>
    have clean : table.cleanedIn pTime nCount = table := by
      apply cleanedIn_clean
      intro entry inside here
      apply passed entry inside
      have known : entry.id ∈ (table.inSlot nCount).ids :=
        mem_ids.mpr ⟨entry, mem_inSlot.mpr ⟨inside, here⟩, rfl⟩
      rwa [at_.ids, List.append_nil] at known
    rw [clean]
    have ended : p = none := at_.chain
    apply Exists.intro mem
    constructor
    · rw [ended]
      exact CleanState.reaches_head rfl (Reaches.refl _)
    · exact at_.rep
  | cons cur rest ih =>
    obtain ⟨entry, inside, same, slot, _⟩ := at_.entry
    have only : ∀ other ∈ table, other.id = cur → other = entry := by
      intro other member equal
      exact entry_unique at_.rep.nodup member inside (equal.trans same.symm)
    by_cases once : entry.mTask.eType = .schOneShot
    · have expired : entry.Over pTime := ⟨once, all entry inside once⟩
      have gone : ∀ other ∈ table, other.id = cur → other.slot = nCount ∧ other.Over pTime := by
        intro other member equal
        rw [only other member equal]
        exact ⟨slot, expired⟩
      obtain ⟨mem', next, stepped, later⟩ :=
        at_.remove true fun other member equal => (gone other member equal).2
      have subset : ∀ other ∈ table.without cur, other ∈ table := by
        intro other member
        exact List.mem_of_mem_filter member
      obtain ⟨mem'', reached, rep'⟩ := ih later
        (fun other member => all other (subset other member))
        (fun other member => passed other (subset other member))
      rw [cleanedIn_without gone] at rep'
      exact ⟨mem'', CleanState.reaches_head stepped reached, rep'⟩
    · have often : ∀ other ∈ table, other.id = cur → other.mTask.eType ≠ .schOneShot := by
        intro other member equal
        rw [only other member equal]
        exact once
      obtain ⟨next, stepped, later⟩ := at_.pass pTime true often
      obtain ⟨mem', reached, rep'⟩ := ih later all (by
        intro other member known
        rcases List.mem_append.mp known with before | here
        · exact passed other member before
        · intro expired
          exact often other member (List.mem_singleton.mp here) expired.1)
      exact ⟨mem', CleanState.reaches_head stepped reached, rep'⟩

theorem slots_end (count : Nat) (bound : nCount + count = masterArrSize)
    (rep : Represents mem table) (all : AllOver pTime table) :
    ∃ mem', CleanState.Reaches pTime ⟨mem, true, .slot nCount⟩ ⟨mem', true, .unlock⟩ ∧
      Represents mem' (table.cleanedFrom pTime nCount) := by
  induction count generalizing nCount mem table with
  | zero =>
    have clean : table.cleanedFrom pTime nCount = table := by
      apply List.filter_eq_self.mpr
      intro entry inside
      have range := rep.range entry inside
      rw [decide_eq_true_eq]
      intro expired
      omega
    have last : ¬nCount < masterArrSize := by omega
    have stepped : CleanState.step pTime ⟨mem, true, .slot nCount⟩ () =
        some ⟨mem, true, .unlock⟩ := by
      rw [CleanState.step]
      simp only [if_neg last]
    rw [clean]
    exact ⟨mem, CleanState.reaches_head stepped (Reaches.refl _), rep⟩
  | succ count ih =>
    have inside : nCount < masterArrSize := by omega
    obtain ⟨slot, member⟩ := rep.slot inside
    have chain := (rep.holds nCount slot member).chain
    have bound' : nCount + 1 + count = masterArrSize := by omega
    by_cases empty : slot.pHeadMasterData = none
    · have clean : table.cleanedIn pTime nCount = table := by
        apply cleanedIn_clean
        intro entry known here
        rw [empty] at chain
        have member : entry.id ∈ (table.inSlot nCount).ids :=
          mem_ids.mpr ⟨entry, mem_inSlot.mpr ⟨known, here⟩, rfl⟩
        rw [isChain_none chain] at member
        cases member
      have stepped : CleanState.step pTime ⟨mem, true, .slot nCount⟩ () =
          some ⟨mem, true, .slot (nCount + 1)⟩ := by
        rw [CleanState.step]
        simp only [if_pos inside, member, if_pos empty]
      obtain ⟨mem', later, rep'⟩ := ih bound' rep all
      rw [← cleanedFrom_next, clean]
      exact ⟨mem', CleanState.reaches_head stepped later, rep'⟩
    · have at_ : AtVisit mem table nCount [] (table.inSlot nCount).ids slot.pHeadMasterData :=
        ⟨rep, inside, rfl, chain⟩
      have stepped : CleanState.step pTime ⟨mem, true, .slot nCount⟩ () =
          some ⟨mem, true, .visit nCount none slot.pHeadMasterData⟩ := by
        rw [CleanState.step]
        simp only [if_pos inside, member, if_neg empty]
      obtain ⟨mem', reached, rep'⟩ := at_.ends all fun entry _ known => nomatch known
      have fewer : AllOver pTime (table.cleanedIn pTime nCount) := by
        intro entry known
        exact all entry (List.mem_of_mem_filter known)
      obtain ⟨mem'', later, rep''⟩ := ih bound' rep' fewer
      rw [cleanedFrom_next] at rep''
      exact ⟨mem'', CleanState.reaches_head stepped (reached.trans later), rep''⟩

end Ends

section Hangs

/-- The call has still to pass a one-shot task that is not expired. -/
def CleanState.Before (entry : Entry) (s : CleanState) : Prop :=
  ∃ table, Represents s.mem table ∧ entry ∈ table ∧
    match s.place with
    | .lock => True
    | .slot nCount => nCount ≤ entry.slot
    | .visit nCount pPrevious p => ∃ front rest, pPrevious = front.getLast? ∧
        AtVisit s.mem table nCount front rest p ∧
        (nCount < entry.slot ∨ nCount = entry.slot ∧ entry.id ∈ rest)
    | .unlock => False
    | .returned => False

variable {pTime : Tm} {entry : Entry} {s t : CleanState}

theorem CleanState.Before.step (before : s.Before entry)
    (once : entry.mTask.eType = .schOneShot)
    (current : ¬DateExpired entry.mTask.startDate pTime)
    (stepped : CleanState.step pTime s () = some t) : t.Before entry := by
  obtain ⟨mem, locked, place⟩ := s
  obtain ⟨table, rep, inside, here⟩ := before
  have range := rep.range entry inside
  cases place with
  | lock =>
    simp only [CleanState.step] at stepped
    split at stepped
    · cases stepped
    · rw [← Option.some.inj stepped]
      exact ⟨table, rep, inside, Nat.zero_le _⟩
  | slot nCount =>
    simp only at here
    have within : nCount < masterArrSize := Nat.lt_of_le_of_lt here range
    obtain ⟨slot, member⟩ := rep.slot within
    have chain := (rep.holds nCount slot member).chain
    simp only [CleanState.step, if_pos within, member] at stepped
    by_cases empty : slot.pHeadMasterData = none
    · rw [if_pos empty] at stepped
      rw [← Option.some.inj stepped]
      refine ⟨table, rep, inside, ?_⟩
      by_contra passed
      have same : entry.slot = nCount := by
        simp only at passed
        omega
      have known : entry.id ∈ (table.inSlot nCount).ids :=
        mem_ids.mpr ⟨entry, mem_inSlot.mpr ⟨inside, same⟩, rfl⟩
      rw [empty] at chain
      rw [isChain_none chain] at known
      cases known
    · rw [if_neg empty] at stepped
      rw [← Option.some.inj stepped]
      refine ⟨table, rep, inside, [], (table.inSlot nCount).ids, rfl, ⟨rep, within, rfl, chain⟩, ?_⟩
      rcases Nat.lt_or_eq_of_le here with earlier | same
      · exact Or.inl earlier
      · exact Or.inr ⟨same, mem_ids.mpr ⟨entry, mem_inSlot.mpr ⟨inside, same.symm⟩, rfl⟩⟩
  | visit nCount pPrevious p =>
    obtain ⟨front, rest, previous, at_, ahead⟩ := here
    rw [previous] at stepped
    cases rest with
    | nil =>
      have ended : p = none := at_.chain
      rw [ended] at stepped
      rw [← Option.some.inj stepped]
      refine ⟨table, rep, inside, ?_⟩
      rcases ahead with earlier | ⟨_, known⟩
      · exact earlier
      · cases known
    | cons cur rest =>
      obtain ⟨visited, member, same, slot, _⟩ := at_.entry
      have only : ∀ other ∈ table, other.id = cur → other = visited := by
        intro other known equal
        exact entry_unique rep.nodup known member (equal.trans same.symm)
      have later : visited ≠ entry → nCount < entry.slot ∨
          nCount = entry.slot ∧ entry.id ∈ rest := by
        intro different
        rcases ahead with earlier | ⟨equal, known⟩
        · exact Or.inl earlier
        · rcases List.mem_cons.mp known with this | known
          · exact absurd (only entry inside this).symm different
          · exact Or.inr ⟨equal, known⟩
      by_cases often : visited.mTask.eType = .schOneShot
      · by_cases expired : DateExpired visited.mTask.startDate pTime
        · have different : visited ≠ entry := fun equal => current (equal ▸ expired)
          have gone : ∀ other ∈ table, other.id = cur → other.mTask.eType = .schOneShot ∧
              DateExpired other.mTask.startDate pTime := by
            intro other known equal
            rw [only other known equal]
            exact ⟨often, expired⟩
          obtain ⟨mem', next, removed, at'⟩ := at_.remove locked gone
          rw [removed] at stepped
          rw [← Option.some.inj stepped]
          refine ⟨table.without cur, at'.rep, ?_, front, rest, rfl, at', later different⟩
          rw [List.mem_filter, bne_iff_ne]
          exact ⟨inside, fun equal => different (only entry inside equal).symm⟩
        · have due : ∀ other ∈ table, other.id = cur → other.mTask.eType = .schOneShot ∧
              ¬DateExpired other.mTask.startDate pTime := by
            intro other known equal
            rw [only other known equal]
            exact ⟨often, expired⟩
          have stayed := at_.stay locked due
          rw [stayed] at stepped
          rw [← Option.some.inj stepped]
          exact ⟨table, rep, inside, front, cur :: rest, rfl, at_, ahead⟩
      · have different : visited ≠ entry := fun equal => often (equal ▸ once)
        obtain ⟨next, passed, at'⟩ := at_.pass pTime locked (by
          intro other known equal
          rw [only other known equal]
          exact often)
        rw [passed] at stepped
        rw [← Option.some.inj stepped]
        exact ⟨table, rep, inside, front ++ [cur], rest, rfl, at', later different⟩
  | unlock => exact here.elim
  | returned => exact here.elim

/-- The call comes back, with the mutex released and the tasks removed that are over. -/
def Cleans (pTime : Tm) (mem : Memory) (table : Table) : Prop :=
  ∃ steps s, schAutoCleanTask pTime mem steps = some s ∧ s.place = .returned ∧
    s.gMasterTable_mutex = false ∧ Represents s.mem (table.cleaned pTime)

variable {mem : Memory} {table : Table}

theorem cleanedFrom_zero (pTime : Tm) (table : Table) :
    table.cleanedFrom pTime 0 = table.cleaned pTime := by
  apply List.filter_congr
  intro entry _
  simp only [Nat.zero_le, true_and]

theorem cleans_of_allOver (rep : Represents mem table) (all : AllOver pTime table) :
    Cleans pTime mem table := by
  obtain ⟨mem', reached, rep'⟩ := slots_end masterArrSize (Nat.zero_add _) rep all
  have locked : CleanState.step pTime ⟨mem, false, .lock⟩ () = some ⟨mem, true, .slot 0⟩ := rfl
  have unlocked : CleanState.step pTime ⟨mem', true, .unlock⟩ () =
      some ⟨mem', false, .returned⟩ := rfl
  have whole : CleanState.Reaches pTime ⟨mem, false, .lock⟩ ⟨mem', false, .returned⟩ :=
    CleanState.reaches_head locked
      (reached.trans (CleanState.reaches_head unlocked (Reaches.refl _)))
  obtain ⟨labels, _, executed⟩ := whole
  have units : labels = List.replicate labels.length () :=
    List.eq_replicate_iff.mpr ⟨rfl, fun _ _ => rfl⟩
  rw [units] at executed
  rw [cleanedFrom_zero] at rep'
  exact ⟨labels.length, _, executed, rfl, rfl, rep'⟩

theorem allOver_of_cleans (rep : Represents mem table) (cleans : Cleans pTime mem table) :
    AllOver pTime table := by
  obtain ⟨steps, s, executed, returned, _⟩ := cleans
  intro entry inside once
  by_contra current
  have start : CleanState.Before entry ⟨mem, false, .lock⟩ := ⟨table, rep, inside, trivial⟩
  have kept : ∀ s (label : Unit) t, CleanState.Before entry s →
      CleanState.step pTime s label = some t → CleanState.Before entry t := by
    intro s label t before stepped
    exact before.step once current stepped
  obtain ⟨_, _, _, here⟩ := run_invariant' kept start executed
  rw [returned] at here
  exact here

/-- The call comes back, having done its work, exactly if every one-shot task is expired. -/
theorem autoClean_iff (rep : Represents mem table) :
    Cleans pTime mem table ↔ AllOver pTime table := by
  constructor
  · exact allOver_of_cleans rep
  · exact cleans_of_allOver rep

theorem oneShot_added :
    ∃ mem, schAddTask initMasterTable (localtime 0) (oneShotTask ⟨1, 0, 1970⟩ 9 0 0) (some 10) =
        some (mem, some 10) ∧
      Represents mem [⟨10, 9, oneShotTask ⟨1, 0, 1970⟩ 9 0 0⟩] := by
  have same : Table.add [] (localtime 0) (oneShotTask ⟨1, 0, 1970⟩ 9 0 0) (some 10) =
      ([⟨10, 9, oneShotTask ⟨1, 0, 1970⟩ 9 0 0⟩], some 10) := by decide
  obtain ⟨mem, added, rep⟩ := schAddTask_represents represents_init (localtime 0)
    (oneShotTask ⟨1, 0, 1970⟩ 9 0 0) (some 10) (by decide) (fun _ _ => rfl)
  rw [same] at added rep
  exact ⟨mem, added, rep⟩

/-- On the next day. -/
theorem autoClean_nextDay :
    ∃ mem, schAddTask initMasterTable (localtime 0) (oneShotTask ⟨1, 0, 1970⟩ 9 0 0) (some 10) =
        some (mem, some 10) ∧
      (Cleans (localtime 86400) mem [⟨10, 9, oneShotTask ⟨1, 0, 1970⟩ 9 0 0⟩] ↔
        AllOver (localtime 86400) [⟨10, 9, oneShotTask ⟨1, 0, 1970⟩ 9 0 0⟩]) := by
  obtain ⟨mem, added, rep⟩ := oneShot_added
  exact ⟨mem, added, autoClean_iff rep⟩

/-- On its own day the call hangs on the job. -/
theorem autoClean_hangs :
    ∃ mem, schAddTask initMasterTable (localtime 0) (oneShotTask ⟨1, 0, 1970⟩ 9 0 0) (some 10) =
        some (mem, some 10) ∧
      Represents mem [⟨10, 9, oneShotTask ⟨1, 0, 1970⟩ 9 0 0⟩] ∧
      ¬Cleans (localtime 0) mem [⟨10, 9, oneShotTask ⟨1, 0, 1970⟩ 9 0 0⟩] := by
  obtain ⟨mem, added, rep⟩ := oneShot_added
  refine ⟨mem, added, rep, ?_⟩
  intro cleans
  have expired := allOver_of_cleans rep cleans _ (List.mem_singleton_self _) rfl
  exact absurd expired (by decide)

end Hangs

end EveAgent.Scheduler
