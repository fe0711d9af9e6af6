import EveAgent.AppMetering.ProcMon

namespace EveAgent.AppMetering

open Machine Cells

section Model

structure Reacting where
  sweep : Sweep
  agent : Agent

/-- A step of the sweep, up to its end; on a row whose time has come it makes the check. -/
def reactionStep (sys : System) (unset : Unset) (mem : Memory) (ulcurrtime : UInt32)
    (s : Reacting) : Unit → Option Reacting
  | () =>
    match s.sweep.control with
    | .idle => none
    | .react applist appsub =>
      match mem.apps applist, mem.subs appsub with
      | some app, some cell =>
        match react sys app.val.pcappMeteringBinaryName cell.val unset s.agent with
        | none => none
        | some agent => (sweepStep mem ulcurrtime s.sweep).map fun sweep => ⟨sweep, agent⟩
      | _, _ => none
    | _ => (sweepStep mem ulcurrtime s.sweep).map fun sweep => ⟨sweep, s.agent⟩

/-- The agent behind `applist=Head`. -/
def Reacting.begin (mem : Memory) (szBuff szString : Text) (unset : Unset) : Reacting :=
  ⟨⟨.outer mem.head, false, false, []⟩, ⟨szBuff, szString, unset.pcappMeteringUsername, []⟩⟩

end Model

section Purpose

variable (ulcurrtime : UInt32)

/-- The first row of a binary whose time has come. -/
def timely (binary : Binary) : Option (Text × Stappsub) :=
  (binary.rows.find? fun row => decide (row.2.InWindow ulcurrtime)).map fun row =>
    (binary.name, row.2)

def chosen (list : List Binary) : List (Text × Stappsub) := list.filterMap (timely ulcurrtime)

/-- Each binary with a row whose time has come is checked once, with the row of the lowest
index among those. -/
structure Checked (list : List Binary) (calls : List Call) : Prop where
  names : calls.map Call.name = (list.filter fun binary =>
    decide (∃ row ∈ binary.rows, row.2.InWindow ulcurrtime)).map Binary.name
  lowest : ∀ call ∈ calls, ∃ binary ∈ list, binary.name = call.name ∧ ∃ row ∈ binary.rows,
    row.2 = call.sub ∧ call.sub.InWindow ulcurrtime ∧ ∀ other ∈ binary.rows,
      other.2.InWindow ulcurrtime → call.sub.uiappMeteringIndex ≤ other.2.uiappMeteringIndex

/-- The checks of a sweep that has come to its end are the right ones. -/
structure Right (sys : System) (list : List Binary) (s : Reacting) : Prop where
  ended : s.sweep.control = .idle
  checked : Checked ulcurrtime list s.agent.calls
  right : ∀ call ∈ s.agent.calls.zipIdx, RightCall sys call.2 call.1

variable {ulcurrtime} {list : List Binary} {rows : Rows} {row : Nat × Stappsub}

theorem find_lowest (ordered : Ordered rows)
    (found : rows.find? (fun row => decide (row.2.InWindow ulcurrtime)) = some row) :
    ∀ other ∈ rows, other.2.InWindow ulcurrtime →
      row.2.uiappMeteringIndex ≤ other.2.uiappMeteringIndex := by
  obtain ⟨_, before, after, rfl, early⟩ := List.find?_eq_some_iff_append.mp found
  obtain ⟨_, late⟩ := ordered.split
  intro other member window
  rcases List.mem_append.mp member with member | member
  · have outside := early other member
    simp [window] at outside
  · rcases List.mem_cons.mp member with rfl | member
    · exact UInt32.le_refl _
    · exact UInt32.le_of_lt (late other member)

theorem chosen_names (list : List Binary) : (chosen ulcurrtime list).map Prod.fst =
    (list.filter fun binary =>
      decide (∃ row ∈ binary.rows, row.2.InWindow ulcurrtime)).map Binary.name := by
  induction list with
  | nil => rfl
  | cons binary list ih =>
    rw [chosen] at ih ⊢
    rw [List.filterMap_cons, List.filter_cons]
    cases found : binary.rows.find? fun row => decide (row.2.InWindow ulcurrtime) with
    | none =>
      have none' : ¬ ∃ row ∈ binary.rows, row.2.InWindow ulcurrtime := by
        simpa using found
      simp only [timely, found, Option.map_none, none', decide_false, Bool.false_eq_true, if_false]
      exact ih
    | some row =>
      have some' : ∃ row ∈ binary.rows, row.2.InWindow ulcurrtime :=
        ⟨row, List.mem_of_find?_eq_some found, by simpa using List.find?_some found⟩
      simp only [timely, found, Option.map_some, some', decide_true, if_true, List.map_cons]
      rw [ih]

theorem checked_chosen (tidy : Tidy list) {calls : List Call}
    (all : calls.map (fun call => (call.name, call.sub)) = chosen ulcurrtime list) :
    Checked ulcurrtime list calls := by
  constructor
  · rw [← chosen_names, ← all, List.map_map]
    rfl
  · intro call member
    have listed : (call.name, call.sub) ∈ chosen ulcurrtime list := by
      rw [← all]
      exact List.mem_map_of_mem member
    obtain ⟨binary, inside, taken⟩ := List.mem_filterMap.mp listed
    obtain ⟨row, found, same⟩ := Option.map_eq_some_iff.mp taken
    obtain ⟨name, sub⟩ := Prod.mk.injEq .. ▸ same
    refine ⟨binary, inside, name, row, List.mem_of_find?_eq_some found, sub, ?_, ?_⟩
    · rw [← sub]
      simpa using List.find?_some found
    · rw [← sub]
      exact find_lowest (tidy.neat binary inside).ordered found

end Purpose

section Run

variable {sys : System} {unset : Unset} {mem : Memory} {ulcurrtime : UInt32}
  {list back : List Binary} {binary : Binary} {rows : Rows} {p : Option Nat} {checksub : Bool}
  {acted : List (Text × Stappsub)} {agent : Agent}

/-- Some steps of the sweep lead from one state to the other. -/
abbrev Leads (sys : System) (unset : Unset) (mem : Memory) (ulcurrtime : UInt32)
    (s t : Reacting) : Prop :=
  Reaches (reactionStep sys unset mem ulcurrtime) (fun _ => True) s t

theorem Leads.step {s t u : Reacting} (first : reactionStep sys unset mem ulcurrtime s () = some t)
    (rest : Leads sys unset mem ulcurrtime t u) : Leads sys unset mem ulcurrtime s u :=
  Reaches.head trivial first rest

/-- Where the sweep comes to on the rows of a binary. -/
def rowsEnd (ulcurrtime : UInt32) (applist : Nat) (rows : Rows) : Control :=
  match rows.find? fun row => decide (row.2.InWindow ulcurrtime) with
  | none => .advance applist
  | some row => .react applist row.1

theorem leads_rows {m : Nat} {sub : Stappsub}
    (segment : Segment mem.subs (some m) ((m, sub) :: rows) none) (applist : Nat) :
    Leads sys unset mem ulcurrtime ⟨⟨.row applist m, true, true, acted⟩, agent⟩
      ⟨⟨rowsEnd ulcurrtime applist ((m, sub) :: rows), true, true, acted⟩, agent⟩ := by
  induction rows generalizing m sub with
  | nil =>
    obtain ⟨_, next, held, rest⟩ := segment
    obtain rfl : next = none := rest
    by_cases window : sub.InWindow ulcurrtime
    · have stepped : reactionStep sys unset mem ulcurrtime
          ⟨⟨.row applist m, true, true, acted⟩, agent⟩ () =
            some ⟨⟨.react applist m, true, true, acted⟩, agent⟩ := by
        simp only [reactionStep, sweepStep, held, window, if_true, Option.map_some]
      have ended : rowsEnd ulcurrtime applist [(m, sub)] = .react applist m := by
        simp [rowsEnd, window]
      rw [ended]
      exact Leads.step stepped (Reaches.refl _)
    · have stepped : reactionStep sys unset mem ulcurrtime
          ⟨⟨.row applist m, true, true, acted⟩, agent⟩ () =
            some ⟨⟨.inner applist none, true, true, acted⟩, agent⟩ := by
        simp only [reactionStep, sweepStep, held, window, if_false, Option.map_some]
      have ended : rowsEnd ulcurrtime applist [(m, sub)] = .advance applist := by
        simp [rowsEnd, window]
      rw [ended]
      exact Leads.step stepped (Leads.step rfl (Reaches.refl _))
  | cons head tail ih =>
    obtain ⟨_, next, held, rest⟩ := segment
    have whole := rest
    obtain ⟨rfl, _⟩ := rest
    by_cases window : sub.InWindow ulcurrtime
    · have stepped : reactionStep sys unset mem ulcurrtime
          ⟨⟨.row applist m, true, true, acted⟩, agent⟩ () =
            some ⟨⟨.react applist m, true, true, acted⟩, agent⟩ := by
        simp only [reactionStep, sweepStep, held, window, if_true, Option.map_some]
      have ended : rowsEnd ulcurrtime applist ((m, sub) :: head :: tail) =
          .react applist m := by
        simp [rowsEnd, window]
      rw [ended]
      exact Leads.step stepped (Reaches.refl _)
    · have stepped : reactionStep sys unset mem ulcurrtime
          ⟨⟨.row applist m, true, true, acted⟩, agent⟩ () =
            some ⟨⟨.inner applist (some head.1), true, true, acted⟩, agent⟩ := by
        simp only [reactionStep, sweepStep, held, window, if_false, Option.map_some]
      have ended : rowsEnd ulcurrtime applist ((m, sub) :: head :: tail) =
          rowsEnd ulcurrtime applist (head :: tail) := by
        simp [rowsEnd, window]
      rw [ended]
      exact Leads.step stepped (Leads.step rfl (ih whole))

theorem leads_enter (rep : Represents mem list) (member : binary ∈ list) :
    Leads sys unset mem ulcurrtime ⟨⟨.enter binary.node, true, false, acted⟩, agent⟩
      ⟨⟨rowsEnd ulcurrtime binary.node binary.rows, true, true, acted⟩, agent⟩ := by
  obtain ⟨next, here, _⟩ := rep.behind member
  obtain ⟨_, first, held, rest⟩ := rep.rows binary member
  have entered : reactionStep sys unset mem ulcurrtime
      ⟨⟨.enter binary.node, true, false, acted⟩, agent⟩ () =
        some ⟨⟨.inner binary.node (some binary.dummy), true, false, acted⟩, agent⟩ := by
    simp only [reactionStep, sweepStep, here, Option.map_some]
  refine Leads.step entered ?_
  cases rows : binary.rows with
  | nil =>
    rw [rows] at rest
    obtain rfl : first = none := rest
    have stepped : reactionStep sys unset mem ulcurrtime
        ⟨⟨.inner binary.node (some binary.dummy), true, false, acted⟩, agent⟩ () =
          some ⟨⟨.advance binary.node, true, true, acted⟩, agent⟩ := by
      simp only [reactionStep, sweepStep, held, if_true, Option.map_some]
    exact Leads.step stepped (Reaches.refl _)
  | cons head tail =>
    rw [rows] at rest
    have whole := rest
    obtain ⟨rfl, _⟩ := rest
    have stepped : reactionStep sys unset mem ulcurrtime
        ⟨⟨.inner binary.node (some binary.dummy), true, false, acted⟩, agent⟩ () =
          some ⟨⟨.row binary.node head.1, true, true, acted⟩, agent⟩ := by
      simp only [reactionStep, sweepStep, held, if_true, Option.map_some]
    exact Leads.step stepped (leads_rows whole binary.node)

/-- The checks of the agent, one behind the other. -/
def checkAll (sys : System) (unset : Unset) : List (Text × Stappsub) → Agent → Option Agent
  | [], agent => some agent
  | (name, sub) :: rows, agent =>
    match react sys name sub unset agent with
    | none => none
    | some agent => checkAll sys unset rows agent

theorem leads_binary (rep : Represents mem list) (member : binary ∈ list) {agent' : Agent}
    (checks : checkAll sys unset (timely ulcurrtime binary).toList agent = some agent') :
    ∃ next, (∀ back, Segment mem.apps (some binary.node)
        ((binary.node, ⟨binary.name, some binary.dummy⟩) :: back) none →
          Segment mem.apps next back none) ∧
      Leads sys unset mem ulcurrtime ⟨⟨.enter binary.node, true, false, acted⟩, agent⟩
        ⟨⟨.outer next, true, true, acted ++ (timely ulcurrtime binary).toList⟩, agent'⟩ := by
  obtain ⟨next, here, _⟩ := rep.behind member
  have follows : ∀ back, Segment mem.apps (some binary.node)
      ((binary.node, ⟨binary.name, some binary.dummy⟩) :: back) none →
        Segment mem.apps next back none := by
    rintro back ⟨_, next', here', behind⟩
    have same := here.symm.trans here'
    simp only [Option.some.injEq, Cell.mk.injEq, true_and] at same
    rwa [same]
  refine ⟨next, follows, Reaches.trans (leads_enter rep member) ?_⟩
  cases found : binary.rows.find? fun row => decide (row.2.InWindow ulcurrtime) with
  | none =>
    have none' : timely ulcurrtime binary = none := by rw [timely, found]; rfl
    rw [none'] at checks ⊢
    obtain rfl := Option.some.inj checks
    have stepped : reactionStep sys unset mem ulcurrtime
        ⟨⟨.advance binary.node, true, true, acted⟩, agent⟩ () =
          some ⟨⟨.outer next, true, true, acted⟩, agent⟩ := by
      simp only [reactionStep, sweepStep, here, Option.map_some]
    rw [rowsEnd, found, Option.toList_none, List.append_nil]
    exact Leads.step stepped (Reaches.refl _)
  | some row =>
    have some' : timely ulcurrtime binary = some (binary.name, row.2) := by
      rw [timely, found]; rfl
    rw [some'] at checks ⊢
    obtain ⟨_, held, _⟩ := rep.row member (List.mem_of_find?_eq_some found)
    rw [rowsEnd, found]
    cases reacts : react sys binary.name row.2 unset agent with
    | none => simp [checkAll, reacts] at checks
    | some agent'' =>
      have same : agent'' = agent' := by simpa [checkAll, reacts] using checks
      subst same
      have stepped : reactionStep sys unset mem ulcurrtime
          ⟨⟨.react binary.node row.1, true, true, acted⟩, agent⟩ () =
            some ⟨⟨.advance binary.node, true, true, acted ++ [(binary.name, row.2)]⟩,
              agent''⟩ := by
        simp only [reactionStep, sweepStep, here, held, reacts, Option.map_some]
      have advanced : reactionStep sys unset mem ulcurrtime
          ⟨⟨.advance binary.node, true, true, acted ++ [(binary.name, row.2)]⟩, agent''⟩ () =
            some ⟨⟨.outer next, true, true, acted ++ [(binary.name, row.2)]⟩, agent''⟩ := by
        simp only [reactionStep, sweepStep, here, Option.map_some]
      exact Leads.step stepped (Leads.step advanced (Reaches.refl _))

theorem chosen_cons : chosen ulcurrtime (binary :: back) =
    (timely ulcurrtime binary).toList ++ chosen ulcurrtime back := by
  rw [chosen, List.filterMap_cons]
  cases timely ulcurrtime binary with
  | none => rfl
  | some row => rfl

theorem checkAll_split {xs ys : List (Text × Stappsub)} {agent' : Agent}
    (all : checkAll sys unset (xs ++ ys) agent = some agent') :
    ∃ agent₁, checkAll sys unset xs agent = some agent₁ ∧
      checkAll sys unset ys agent₁ = some agent' := by
  induction xs generalizing agent with
  | nil => exact ⟨agent, rfl, all⟩
  | cons row xs ih =>
    obtain ⟨name, sub⟩ := row
    rw [List.cons_append, checkAll] at all
    rw [checkAll]
    cases reacts : react sys name sub unset agent with
    | none => simp [reacts] at all
    | some agent' =>
      simp only [reacts] at all ⊢
      exact ih all

theorem leads_list (rep : Represents mem list) (within : ∀ other ∈ back, other ∈ list)
    (segment : Segment mem.apps p (appCells back) none) {agent' : Agent}
    (checks : checkAll sys unset (chosen ulcurrtime back) agent = some agent') :
    Leads sys unset mem ulcurrtime ⟨⟨.outer p, true, checksub, acted⟩, agent⟩
      ⟨⟨.idle, false, false, acted ++ chosen ulcurrtime back⟩, agent'⟩ := by
  induction back generalizing p agent acted checksub with
  | nil =>
    obtain rfl : p = none := segment
    obtain rfl := Option.some.inj checks
    have ended : acted ++ chosen ulcurrtime [] = acted := List.append_nil _
    rw [ended]
    exact Leads.step rfl (Reaches.refl _)
  | cons binary back ih =>
    rw [chosen_cons] at checks ⊢
    obtain ⟨agent₁, first, rest⟩ := checkAll_split checks
    have start : p = some binary.node := segment.1
    subst start
    obtain ⟨next, follows, leads⟩ := leads_binary rep (within binary List.mem_cons_self) first
    have entered : reactionStep sys unset mem ulcurrtime
        ⟨⟨.outer (some binary.node), true, checksub, acted⟩, agent⟩ () =
          some ⟨⟨.enter binary.node, true, false, acted⟩, agent⟩ := rfl
    rw [← List.append_assoc]
    exact Leads.step entered (Reaches.trans leads
      (ih (fun other member => within other (List.mem_cons_of_mem _ member))
        (follows _ segment) rest))

theorem leads_chosen (rep : Represents mem list) {agent' : Agent}
    (checks : checkAll sys unset (chosen ulcurrtime list) agent = some agent') :
    Leads sys unset mem ulcurrtime ⟨⟨.outer mem.head, false, false, []⟩, agent⟩
      ⟨⟨.idle, false, false, chosen ulcurrtime list⟩, agent'⟩ := by
  rcases rep.begins with ⟨begins, rfl⟩ | ⟨head, begins, segment⟩
  · obtain rfl := Option.some.inj checks
    rw [begins]
    exact Leads.step rfl (Reaches.refl _)
  · obtain ⟨_, next, held, rest⟩ := segment
    rw [begins]
    cases list with
    | nil =>
      obtain rfl : next = none := rest
      obtain rfl := Option.some.inj checks
      have stepped : reactionStep sys unset mem ulcurrtime
          ⟨⟨.outer (some head), false, false, []⟩, agent⟩ () =
            some ⟨⟨.idle, false, false, []⟩, agent⟩ := by
        simp only [reactionStep, sweepStep, held, if_true, Option.map_some, Sweep.finish]
      exact Leads.step stepped (Reaches.refl _)
    | cons binary back =>
      rw [chosen_cons] at checks ⊢
      obtain ⟨agent₁, first, later⟩ := checkAll_split checks
      have start : next = some binary.node := rest.1
      subst start
      have stepped : reactionStep sys unset mem ulcurrtime
          ⟨⟨.outer (some head), false, false, []⟩, agent⟩ () =
            some ⟨⟨.enter binary.node, true, false, []⟩, agent⟩ := by
        simp only [reactionStep, sweepStep, held, if_true, Option.map_some]
      obtain ⟨next', follows, leads⟩ := leads_binary rep List.mem_cons_self first
      exact Leads.step stepped (Reaches.trans leads
        (leads_list rep (fun other member => List.mem_cons_of_mem _ member) (follows _ rest)
          later))

end Run

section Ended

variable {sys : System} {unset : Unset} {mem : Memory} {ulcurrtime : UInt32}
  {list : List Binary} {agent agent' : Agent} {s t : Reacting}

/-- The sweep alone, up to its end. -/
def sweepOnly (mem : Memory) (ulcurrtime : UInt32) (s : Sweep) : Unit → Option Sweep
  | () => if s.control = .idle then none else sweepStep mem ulcurrtime s

theorem checkAll_append {xs ys : List (Text × Stappsub)} {agent₁ : Agent}
    (front : checkAll sys unset xs agent = some agent₁)
    (back : checkAll sys unset ys agent₁ = some agent') :
    checkAll sys unset (xs ++ ys) agent = some agent' := by
  induction xs generalizing agent with
  | nil =>
    obtain rfl := Option.some.inj front
    exact back
  | cons row xs ih =>
    obtain ⟨name, sub⟩ := row
    rw [checkAll] at front
    rw [List.cons_append, checkAll]
    cases reacts : react sys name sub unset agent with
    | none => simp [reacts] at front
    | some agent₂ =>
      simp only [reacts] at front ⊢
      exact ih front

/-- Between two checks the sweep acts on nothing. -/
theorem sweepStep_acted {s t : Sweep} (running : s.control ≠ .idle)
    (apart : ∀ applist appsub, s.control ≠ .react applist appsub)
    (stepped : sweepStep mem ulcurrtime s = some t) : t.acted = s.acted := by
  revert stepped
  fun_cases sweepStep mem ulcurrtime s
  case case1 idle => exact absurd idle running
  all_goals rintro ⟨⟩
  case case17 applist appsub reacts _ _ _ _ => exact absurd reacts (apart applist appsub)
  all_goals rfl

/-- A step of the agent is one of the sweep, and the agent has made the checks that the sweep
has acted on. -/
theorem reactionStep_sweep (stepped : reactionStep sys unset mem ulcurrtime s () = some t)
    (made : checkAll sys unset s.sweep.acted agent = some s.agent) :
    sweepOnly mem ulcurrtime s.sweep () = some t.sweep ∧
      checkAll sys unset t.sweep.acted agent = some t.agent := by
  rw [reactionStep] at stepped
  rw [sweepOnly]
  split at stepped
  · cases stepped
  · next applist appsub here =>
    rw [if_neg (by rw [here]; exact nofun)]
    split at stepped
    · next app cell held held' =>
      cases reacts : react sys app.val.pcappMeteringBinaryName cell.val unset s.agent with
      | none => simp [reacts] at stepped
      | some agent₁ =>
        have swept : sweepStep mem ulcurrtime s.sweep = some { s.sweep with
            control := .advance applist
            acted := s.sweep.acted ++ [(app.val.pcappMeteringBinaryName, cell.val)] } := by
          rw [sweepStep, here]
          simp only [held, held']
        simp only [reacts, swept, Option.map_some, Option.some.injEq] at stepped
        subst stepped
        refine ⟨swept, checkAll_append made ?_⟩
        rw [checkAll, reacts]
        rfl
    · cases stepped
  · next running apart =>
    rw [if_neg running]
    obtain ⟨sweep, swept, rfl⟩ := Option.map_eq_some_iff.mp stepped
    refine ⟨swept, ?_⟩
    rw [sweepStep_acted running apart swept]
    exact made

theorem leads_sweep (leads : Leads sys unset mem ulcurrtime s t)
    (made : checkAll sys unset s.sweep.acted agent = some s.agent) :
    Reaches (sweepOnly mem ulcurrtime) (fun _ => True) s.sweep t.sweep ∧
      checkAll sys unset t.sweep.acted agent = some t.agent := by
  obtain ⟨labels, -, executed⟩ := leads
  induction labels generalizing s with
  | nil =>
    obtain rfl := Option.some.inj executed
    exact ⟨Reaches.refl _, made⟩
  | cons label labels ih =>
    obtain ⟨middle, stepped, rest⟩ := run_cons_some executed
    obtain ⟨swept, made'⟩ := reactionStep_sweep stepped made
    obtain ⟨reaches, made''⟩ := ih made' rest
    exact ⟨Reaches.head trivial swept reaches, made''⟩

/-- Where no process is there, every check comes to its end. -/
theorem checkAll_empty (unset : Unset) (due : List (Text × Stappsub)) (agent : Agent)
    (empty : ∀ n, sys.proc n = none) : ∃ agent', checkAll sys unset due agent = some agent' := by
  induction due generalizing agent with
  | nil => exact ⟨agent, rfl⟩
  | cons row due ih =>
    obtain ⟨name, sub⟩ := row
    have reacts : react sys name sub unset agent = some ⟨agent.szBuff, agent.szString,
        agent.pcappMeteringUsername, agent.calls ++ [⟨name, sub, [], none⟩]⟩ := by
      simp [react, procMonCheckProc, empty, Agent.scan]
    obtain ⟨agent', rest⟩ := ih ⟨agent.szBuff, agent.szString,
        agent.pcappMeteringUsername, agent.calls ++ [⟨name, sub, [], none⟩]⟩
    refine ⟨agent', ?_⟩
    rw [checkAll, reacts]
    exact rest

/-- A sweep that has come to its end has made all its checks. -/
theorem ended_checkAll (rep : Represents mem list)
    (leads : Leads sys unset mem ulcurrtime ⟨⟨.outer mem.head, false, false, []⟩, agent⟩ s)
    (ended : s.sweep.control = .idle) :
    checkAll sys unset (chosen ulcurrtime list) agent = some s.agent := by
  let alone : System := { sys with proc := fun _ => none }
  obtain ⟨agent', checks⟩ := checkAll_empty unset (chosen ulcurrtime list) agent
    (show ∀ n, alone.proc n = none from fun _ => rfl)
  obtain ⟨whole, -⟩ := leads_sweep (leads_chosen rep checks) rfl
  obtain ⟨swept, made⟩ := leads_sweep leads rfl
  have stops : sweepOnly mem ulcurrtime s.sweep () = none := if_pos ended
  have same := Reaches.end_unique swept whole stops rfl
  rw [same] at made
  exact made

end Ended

section Checks

variable {sys : System} {unset : Unset} {due : List (Text × Stappsub)} {n : Nat}

theorem checkAll_spec (unset : Unset) (agent : Agent) (careful : Careful sys n agent.szBuff due)
    (count : agent.calls.length = n) (few : (meetings sys n due).length ≤ 1)
    (user : meetings sys n due ≠ [] → agent.pcappMeteringUsername = .null) :
    ∃ agent' calls, checkAll sys unset due agent = some agent' ∧
      agent'.calls = agent.calls ++ calls ∧
      calls.map (fun call => (call.name, call.sub)) = due ∧
      ∀ call ∈ calls.zipIdx n, RightCall sys call.2 call.1 := by
  induction due generalizing n agent with
  | nil => exact ⟨agent, [], rfl, by simp, rfl, by simp⟩
  | cons row due ih =>
    obtain ⟨name, sub⟩ := row
    obtain ⟨told, handled, rest⟩ := careful
    subst count
    have met : meetings sys agent.calls.length ((name, sub) :: due) =
        (if Matched sys agent.calls.length name then [((name, sub), agent.calls.length)]
          else []) ++ meetings sys (agent.calls.length + 1) due := by
      rw [meetings, List.zipIdx_cons, List.filter_cons]
      by_cases here : Matched sys agent.calls.length name <;> simp [here, meetings]
    rw [met] at few user
    have null : Matched sys agent.calls.length name → agent.pcappMeteringUsername = .null := by
      intro here
      rw [if_pos here] at user
      exact user (List.cons_ne_nil _ _)
    obtain ⟨agent₁, call, reacts, calls₁, sameName, sameSub, line₁, right, user₁⟩ :=
      react_spec unset told handled null
    obtain ⟨agent', calls, checks, calls', named, rights⟩ := ih agent₁
      (by rw [line₁]; exact rest) (by rw [calls₁]; simp)
      (by rw [List.length_append] at few; omega) (by
        intro later
        rw [user₁]
        by_cases here : Matched sys agent.calls.length name
        · have some' := List.length_pos_iff.mpr later
          rw [if_pos here, List.length_append, List.length_singleton] at few
          omega
        · rw [if_neg here] at user ⊢
          exact user (by rw [List.nil_append]; exact later))
    refine ⟨agent', call :: calls, ?_, ?_, ?_, ?_⟩
    · rw [checkAll, reacts]
      exact checks
    · rw [calls', calls₁, List.append_assoc]
      rfl
    · rw [List.map_cons, sameName, sameSub, named]
    · intro other member
      rw [List.zipIdx_cons] at member
      rcases List.mem_cons.mp member with rfl | member
      · exact right
      · exact rights other member

/-- Where the pointer is wild, checks that come to their end and are the right ones meet no
process of their binary. -/
theorem checkAll_wild {agent agent' : Agent} (wild : agent.pcappMeteringUsername = .wild)
    (pwd : ∀ n, unset.pwd n = true) (ran : checkAll sys unset due agent = some agent') :
    ∃ calls, agent'.calls = agent.calls ++ calls ∧
      ((∀ call ∈ calls.zipIdx agent.calls.length, RightCall sys call.2 call.1) →
        Careful sys agent.calls.length agent.szBuff due ∧
          meetings sys agent.calls.length due = []) := by
  induction due generalizing agent with
  | nil =>
    obtain rfl := Option.some.inj ran
    exact ⟨[], by simp, fun _ => ⟨trivial, rfl⟩⟩
  | cons row due ih =>
    obtain ⟨name, sub⟩ := row
    rw [checkAll] at ran
    cases reacts : react sys name sub unset agent with
    | none => simp [reacts] at ran
    | some agent₁ =>
      simp only [reacts] at ran
      obtain ⟨call, calls₁, sameName, silent, wild₁, line₁, told⟩ :=
        react_wild wild (pwd _) reacts
      obtain ⟨calls, calls', careful⟩ := ih wild₁ ran
      have length₁ : agent₁.calls.length = agent.calls.length + 1 := by rw [calls₁]; simp
      rw [length₁, line₁] at careful
      refine ⟨call :: calls, by rw [calls', calls₁]; simp, fun rights => ?_⟩
      rw [List.zipIdx_cons] at rights
      obtain ⟨careful, unmet⟩ := careful fun other member =>
        rights other (List.mem_cons_of_mem _ member)
      have none' : ¬ Matched sys agent.calls.length name := by
        intro here
        obtain ⟨_, logged⟩ := rights (call, agent.calls.length) List.mem_cons_self
        rw [sameName, if_pos here] at logged
        obtain ⟨owner, some', _⟩ := logged
        rw [silent] at some'
        cases some'
      refine ⟨⟨told none', fun here => absurd here none', careful⟩, ?_⟩
      rw [meetings, List.zipIdx_cons, List.filter_cons_of_neg (by simpa using none')]
      exact unmet

end Checks

section Theorem

variable (sys : System) (mem : Memory) (ulcurrtime : UInt32) (list : List Binary)
  (szBuff szString : Text)

/-- The sweep comes to its end, and its checks are the right ones. -/
def EndsRight (unset : Unset) : Prop :=
  ∃ s, Leads sys unset mem ulcurrtime (Reacting.begin mem szBuff szString unset) s ∧
    Right ulcurrtime sys list s

variable {mem list}

/-- Whatever the variables hold that no one has set, the sweep is right exactly if its checks
are told of every process and meet none of their binaries. Where the pointer in `tempapp`
happens to be null, one of them may, if it tells the user of each process that it meets. -/
theorem doReaction_right_iff (rep : Represents mem list) (tidy : Tidy list) :
    ((∀ unset, EndsRight sys mem ulcurrtime list szBuff szString unset) ↔
      Careful sys 0 szBuff (chosen ulcurrtime list) ∧
        meetings sys 0 (chosen ulcurrtime list) = []) ∧
    (Careful sys 0 szBuff (chosen ulcurrtime list) →
      (meetings sys 0 (chosen ulcurrtime list)).length ≤ 1 →
        ∀ unset : Unset, unset.isNull = true →
          EndsRight sys mem ulcurrtime list szBuff szString unset) := by
  have ends : ∀ unset : Unset, Careful sys 0 szBuff (chosen ulcurrtime list) →
      (meetings sys 0 (chosen ulcurrtime list)).length ≤ 1 →
        (meetings sys 0 (chosen ulcurrtime list) ≠ [] → unset.isNull = true) →
          EndsRight sys mem ulcurrtime list szBuff szString unset := by
    intro unset careful few null
    obtain ⟨agent', calls, checks, calls', named, rights⟩ := checkAll_spec unset
      ⟨szBuff, szString, unset.pcappMeteringUsername, []⟩ careful rfl few
      fun met => if_pos (null met)
    rw [List.nil_append] at calls'
    refine ⟨_, leads_chosen rep checks, rfl, ?_, ?_⟩
    · rw [calls']
      exact checked_chosen tidy named
    · rw [calls']
      exact rights
  refine ⟨⟨fun right => ?_, fun ⟨careful, unmet⟩ unset => ?_⟩, fun careful few unset null => ?_⟩
  · let worst : Unset := ⟨fun _ => true, fun _ => [], fun _ => [], false⟩
    obtain ⟨s, leads, right⟩ := right worst
    have checks := ended_checkAll rep leads right.ended
    obtain ⟨calls, calls', careful⟩ := checkAll_wild (by exact rfl) (fun _ => rfl) checks
    rw [List.nil_append] at calls'
    refine careful fun call member => right.right call ?_
    rw [calls']
    exact member
  · exact ends unset careful (by rw [unmet]; exact Nat.zero_le 1) fun met => absurd unmet met
  · exact ends unset careful few fun _ => null

end Theorem

section Samples

def sampleRow : Stappsub :=
  { zeroSub with uiappMeteringIndex := 1, ulappMeteringEndTime := 0xffffffff }

def sampleList : List Binary :=
  [⟨1, 2, ['a'], [(3, sampleRow)]⟩]

def sampleMemory : Memory where
  apps a := if a = 0 then some ⟨⟨[], none⟩, some 1⟩
    else if a = 1 then some ⟨⟨['a'], some 2⟩, none⟩ else none
  subs a := if a = 2 then some ⟨zeroSub, some 3⟩
    else if a = 3 then some ⟨sampleRow, none⟩ else none
  head := some 0
  prev := none
  gpsub := none
  prevsubmove := none
  allocated := 4

theorem sample_represents : Represents sampleMemory sampleList where
  begins := .inr ⟨0, rfl, rfl, some 1, rfl, rfl, none, rfl, rfl⟩
  rows := by
    intro binary member
    obtain rfl := List.mem_singleton.mp member
    exact ⟨rfl, some 3, rfl, rfl, none, rfl, rfl⟩
  apart := by decide
  fresh := by
    intro a large
    have small : 4 ≤ a := large
    constructor
    · simp [sampleMemory, show a ≠ 0 by omega, show a ≠ 1 by omega]
    · simp [sampleMemory, show a ≠ 2 by omega, show a ≠ 3 by omega]

theorem sample_tidy : Tidy sampleList where
  distinct := by decide
  neat := by
    intro binary member
    obtain rfl := List.mem_singleton.mp member
    refine ⟨by decide, by decide, List.pairwise_singleton _ _, ?_, ?_⟩
    · intro row inside
      obtain rfl := List.mem_singleton.mp inside
      decide
    · intro row inside
      obtain rfl := List.mem_singleton.mp inside
      exact ⟨by decide, by decide⟩

def sampleSystem (entries : List ProcEntry) : System where
  proc _ := some entries
  getpwuid _ := some ['r', 'o', 'o', 't']
  pcAlertIpAddr := ['1', '0', '.', '0', '.', '0', '.', '1']
  iAlertPort := 7
  ctime := ['T', 'h', 'u', '\n']

def otherStatus : Text := "Name:\ttmux: server\n".toList

def sampleStatus : Text := "Name:\ta\nUid:\t0\n".toList

/-- A process of another binary, with a name of two words, and one that is met. -/
def sampleEntries : List ProcEntry := [⟨['1'], some otherStatus⟩, ⟨['2'], some sampleStatus⟩]

theorem sample_careful :
    Careful (sampleSystem sampleEntries) 0 [] (chosen 5 sampleList) := by
  have due : chosen 5 sampleList = [(['a'], sampleRow)] := by decide +kernel
  rw [due]
  refine ⟨by decide +kernel, fun _ => ⟨by decide +kernel, by decide +kernel, ?_, ?_⟩, trivial⟩
  · decide +kernel
  · exact ⟨['r', 'o', 'o', 't'], by decide +kernel, by decide +kernel⟩

end Samples

section Outcome

/-- The process is alerted and its owner logged where the pointer is null, but it may be wild. -/
theorem doReaction_right_iff_sample :
    (∀ unset : Unset, unset.isNull = true →
      EndsRight (sampleSystem sampleEntries) sampleMemory 5 sampleList [] [] unset) ∧
    ¬ ∀ unset, EndsRight (sampleSystem sampleEntries) sampleMemory 5 sampleList [] [] unset := by
  obtain ⟨exact', null⟩ := doReaction_right_iff (sampleSystem sampleEntries) 5 [] []
    sample_represents sample_tidy
  have met : meetings (sampleSystem sampleEntries) 0 (chosen 5 sampleList) ≠ [] := by
    decide +kernel
  exact ⟨null sample_careful (by decide +kernel), fun all => met (exact'.mp all).2⟩

/-- A process has gone before its status file is read: the file is closed twice. -/
theorem doReaction_right_vanished : ¬ ∀ (sys : System) (mem : Memory) (ulcurrtime : UInt32)
    (list : List Binary) (szBuff szString : Text), Represents mem list → Tidy list →
      ∀ unset, EndsRight sys mem ulcurrtime list szBuff szString unset := by
  intro all
  let unset : Unset := ⟨fun _ => false, fun _ => [], fun _ => [], true⟩
  obtain ⟨s, leads, right⟩ := all (sampleSystem [⟨['1'], some []⟩]) sampleMemory 5 sampleList [] []
    sample_represents sample_tidy unset
  have checks := ended_checkAll sample_represents leads right.ended
  have stuck : (checkAll (sampleSystem [⟨['1'], some []⟩]) unset (chosen 5 sampleList)
      ⟨[], [], .null, []⟩).isNone = true := by decide +kernel
  have checks' : checkAll (sampleSystem [⟨['1'], some []⟩]) unset (chosen 5 sampleList)
      ⟨[], [], .null, []⟩ = some s.agent := checks
  rw [checks'] at stuck
  cases stuck

end Outcome

end EveAgent.AppMetering
