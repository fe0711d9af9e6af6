import EveAgent.PortMon.ScanLists
import EveAgent.Transitions

namespace EveAgent.PortMon

section Reports

def resultsOf (log : List (Nat × Int × Bool)) (r : Nat) (listenPort : Int) : List Bool :=
  log.filterMap fun entry =>
    if entry.1 = r ∧ entry.2.1 = listenPort then some entry.2.2 else none

theorem resultsOf_snoc (log : List (Nat × Int × Bool)) (q r : Nat) (number listenPort : Int)
    (present : Bool) :
    resultsOf (log ++ [(q, number, present)]) r listenPort = resultsOf log r listenPort ++
      if q = r ∧ number = listenPort then [present] else [] := by
  rw [resultsOf, List.filterMap_append]
  congr 1
  by_cases own : q = r ∧ number = listenPort
  · simp [own]
  · simp [own]

theorem stateOf_inj {first second : Bool} (same : stateOf first = stateOf second) :
    first = second := by
  cases first <;> cases second <;> first | rfl | cases same

theorem stateOf_not (present : Bool) : stateOf present ≠ stateOf !present := by
  cases present <;> decide

structure Right (state : State) : Prop where
  unchecked : ∀ r, (state.rows r).flag = false → ∀ listenPort,
    resultsOf state.checks r listenPort = []
  known : ∀ r, (state.rows r).flag = true → ∃ present,
    (state.rows r).portMonitorState = stateOf present
  alerted : ∀ r listenPort, resultsOf state.alerts r listenPort =
    changes (resultsOf state.checks r listenPort)

/-- Between the checks of a port the row says what the last one of that port has found, it says
what a first one finds, and what an alert tells is the port of the check. -/
def Faithful (state : State) (r : Nat) (listenPort : Int) (present : Bool) : Prop :=
  (state.rows r).flag = true →
    (∀ before, (resultsOf state.checks r listenPort).getLast? = some before →
      (state.rows r).portMonitorState = stateOf before) ∧
    ((resultsOf state.checks r listenPort).getLast? = none →
      (state.rows r).portMonitorState = stateOf present) ∧
    ((state.rows r).portMonitorState ≠ stateOf present →
      (state.rows r).portMonitorNumber = listenPort)

instance (state : State) (r : Nat) (listenPort : Int) (present : Bool) :
    Decidable (Faithful state r listenPort present) :=
  inferInstanceAs (Decidable (_ → _))

def resultAt : CheckPc → List (Int × Bool)
  | .reporting listenPort present => [(listenPort, present)]
  | _ => []

end Reports

section Steps

variable {state next : State} {r : Nat} {listenPort : Int} {present : Bool}

theorem Right.same (right : Right state)
    (rows : ∀ r, (next.rows r).flag = (state.rows r).flag ∧
      (next.rows r).portMonitorState = (state.rows r).portMonitorState)
    (checks : next.checks = state.checks) (alerts : next.alerts = state.alerts) : Right next := by
  constructor
  · intro r first
    rw [checks]
    exact right.unchecked r ((rows r).1.symm.trans first)
  · intro r later
    rw [(rows r).2]
    exact right.known r ((rows r).1.symm.trans later)
  · rw [checks, alerts]
    exact right.alerted

theorem report_first (first : (state.rows r).flag = false) :
    state.report r listenPort present = { state with
      rows := Function.update state.rows r
        { state.rows r with portMonitorState := stateOf present, flag := true }
      checks := state.checks ++ [(r, listenPort, present)]
      checkPc := Function.update state.checkPc r .idle } := by
  have quiet : ¬stateOf present = stateOf !present := stateOf_not present
  simp [State.report, first, quiet]

theorem report_change (later : (state.rows r).flag = true)
    (change : (state.rows r).portMonitorState = stateOf !present) :
    state.report r listenPort present = { state with
      rows := Function.update state.rows r
        { state.rows r with portMonitorState := stateOf present, flag := true }
      checks := state.checks ++ [(r, listenPort, present)]
      alerts := state.alerts ++ [(r, (state.rows r).portMonitorNumber, present)]
      checkPc := Function.update state.checkPc r .idle } := by
  simp [State.report, later, change]

theorem report_stay (later : (state.rows r).flag = true)
    (stays : (state.rows r).portMonitorState = stateOf present) :
    state.report r listenPort present = { state with
      rows := Function.update state.rows r
        { state.rows r with portMonitorState := stateOf present, flag := true }
      checks := state.checks ++ [(r, listenPort, present)]
      checkPc := Function.update state.checkPc r .idle } := by
  have quiet : ¬stateOf present = stateOf !present := stateOf_not present
  simp [State.report, later, stays, quiet]

theorem right_reported (right : Right state) (alerts : List (Nat × Int × Bool))
    (alerted : ∀ q port, resultsOf alerts q port =
      changes (resultsOf (state.checks ++ [(r, listenPort, present)]) q port)) :
    Right { state with
      rows := Function.update state.rows r
        { state.rows r with portMonitorState := stateOf present, flag := true }
      checks := state.checks ++ [(r, listenPort, present)]
      alerts := alerts
      checkPc := Function.update state.checkPc r .idle } := by
  constructor
  · intro q first port
    by_cases own : q = r
    · subst own
      simp at first
    · simp only [Function.update_of_ne own] at first
      show resultsOf (state.checks ++ [(r, listenPort, present)]) q port = []
      rw [resultsOf_snoc, right.unchecked q first port,
        if_neg (fun same : r = q ∧ listenPort = port => own same.1.symm)]
      rfl
  · intro q later
    by_cases own : q = r
    · subst own
      exact ⟨present, by simp⟩
    · simp only [Function.update_of_ne own] at later ⊢
      exact right.known q later
  · exact alerted

theorem changes_quiet (right : Right state)
    (quiet : ∀ before, (resultsOf state.checks r listenPort).getLast? = some before →
      before = present) (q : Nat) (port : Int) :
    resultsOf state.alerts q port =
      changes (resultsOf (state.checks ++ [(r, listenPort, present)]) q port) := by
  rw [right.alerted, resultsOf_snoc]
  by_cases own : r = q ∧ listenPort = port
  · obtain ⟨rfl, rfl⟩ := own
    rw [if_pos ⟨rfl, rfl⟩, changes_snoc]
    cases last : (resultsOf state.checks r listenPort).getLast? with
    | none => simp
    | some before => simp [quiet before last]
  · rw [if_neg own, List.append_nil]

theorem changes_found (right : Right state)
    (found : (resultsOf state.checks r listenPort).getLast? = some (!present))
    (q : Nat) (port : Int) :
    resultsOf (state.alerts ++ [(r, listenPort, present)]) q port =
      changes (resultsOf (state.checks ++ [(r, listenPort, present)]) q port) := by
  rw [resultsOf_snoc, resultsOf_snoc, right.alerted]
  by_cases own : r = q ∧ listenPort = port
  · obtain ⟨rfl, rfl⟩ := own
    have change : (!present) ≠ present := by simp
    rw [if_pos ⟨rfl, rfl⟩, changes_snoc, found]
    simp only [if_neg change]
  · rw [if_neg own, List.append_nil, List.append_nil]

theorem right_report (right : Right state) (faithful : Faithful state r listenPort present) :
    Right (state.report r listenPort present) := by
  cases flag : (state.rows r).flag with
  | false =>
    rw [report_first flag]
    apply right_reported right
    apply changes_quiet right
    intro before last
    rw [right.unchecked r flag] at last
    cases last
  | true =>
    obtain ⟨again, first, told⟩ := faithful flag
    obtain ⟨started, is⟩ := right.known r flag
    by_cases stays : started = present
    · rw [stays] at is
      rw [report_stay flag is]
      apply right_reported right
      apply changes_quiet right
      intro before last
      exact (stateOf_inj (is.symm.trans (again before last))).symm
    · have change : started = !present := by
        cases started <;> cases present <;> first | rfl | exact absurd rfl stays
      rw [change] at is
      have other : (state.rows r).portMonitorState ≠ stateOf present := by
        rw [is]
        exact (stateOf_not present).symm
      rw [report_change flag is, told other]
      apply right_reported right
      apply changes_found right
      cases last : (resultsOf state.checks r listenPort).getLast? with
      | none => exact absurd (first last) other
      | some before => rw [stateOf_inj (is.symm.trans (again before last))]

/-- A complete scan lists what it has met, and a row keeps its port between the checks. -/
def Careful (state : State) : Event → Prop
  | .scan aborted entries complete => Listed aborted entries complete
  | .row r => ∀ result ∈ resultAt (state.checkPc r), Faithful state r result.1 result.2
  | _ => True

theorem listStep_reports : state.listStep.rows = state.rows ∧
    state.listStep.checks = state.checks ∧ state.listStep.alerts = state.alerts := by
  unfold State.listStep
  split <;> first | exact ⟨rfl, rfl, rfl⟩ | (split <;> exact ⟨rfl, rfl, rfl⟩)

theorem scanStep_reports (aborted : List Int) (entries : List (Int × Bool)) (complete : Bool) :
    (state.scanStep aborted entries complete).rows = state.rows ∧
      (state.scanStep aborted entries complete).checks = state.checks ∧
      (state.scanStep aborted entries complete).alerts = state.alerts := by
  unfold State.scanStep
  split
  · exact ⟨rfl, rfl, rfl⟩
  · exact ⟨rfl, rfl, rfl⟩

theorem rowStep_reports (r : Nat) :
    (∃ listenPort present, state.checkPc r = .reporting listenPort present ∧
      state.rowStep r = state.report r listenPort present) ∨
    ((state.rowStep r).rows = state.rows ∧ (state.rowStep r).checks = state.checks ∧
      (state.rowStep r).alerts = state.alerts) := by
  cases pc : state.checkPc r with
  | idle =>
    right
    simp only [State.rowStep, pc]
    split
    · exact ⟨rfl, rfl, rfl⟩
    · exact ⟨rfl, rfl, rfl⟩
  | testing =>
    right
    simp only [State.rowStep, pc]
    split
    · exact ⟨rfl, rfl, rfl⟩
    · exact ⟨rfl, rfl, rfl⟩
  | walking listenPort list node =>
    right
    simp only [State.rowStep, pc]
    split
    · exact ⟨rfl, rfl, rfl⟩
    · exact ⟨rfl, rfl, rfl⟩
  | tested listenPort present =>
    right
    simp only [State.rowStep, pc]
    exact ⟨rfl, rfl, rfl⟩
  | reporting listenPort present =>
    left
    exact ⟨listenPort, present, rfl, by simp only [State.rowStep, pc]⟩

theorem right_step (right : Right state) (event : Event) (careful : Careful state event) :
    Right (state.step event) := by
  cases event with
  | scan aborted entries complete =>
    obtain ⟨rows, checks, alerts⟩ := @scanStep_reports state aborted entries complete
    exact right.same (fun r => by rw [State.step, rows]; exact ⟨rfl, rfl⟩) checks alerts
  | list =>
    obtain ⟨rows, checks, alerts⟩ := @listStep_reports state
    exact right.same (fun r => by rw [State.step, rows]; exact ⟨rfl, rfl⟩) checks alerts
  | row r =>
    rcases @rowStep_reports state r with
      ⟨listenPort, present, pc, step⟩ | ⟨rows, checks, alerts⟩
    · rw [State.step, step]
      have here : (listenPort, present) ∈ resultAt (state.checkPc r) := by
        rw [pc]
        exact List.mem_singleton_self _
      exact right_report right (careful _ here)
    · exact right.same (fun q => by rw [State.step, rows]; exact ⟨rfl, rfl⟩) checks alerts
  | setNumber r portMonitorNumber =>
    have kept : ∀ q, ((state.step (.setNumber r portMonitorNumber)).rows q).flag =
          (state.rows q).flag ∧
        ((state.step (.setNumber r portMonitorNumber)).rows q).portMonitorState =
          (state.rows q).portMonitorState := by
      intro q
      by_cases own : q = r
      · subst own
        simp [State.step]
      · simp [State.step, Function.update_of_ne own]
    exact right.same kept rfl rfl

theorem sound_step (sound : Sound state) (event : Event) (careful : Careful state event) :
    Sound (state.step event) := by
  cases event with
  | scan aborted entries complete => exact sound_scanStep sound careful
  | list => exact sound_listStep sound
  | row r => exact sound_rowStep sound r
  | setNumber r portMonitorNumber =>
    constructor
    · exact sound.held
    · exact sound.current
    · exact sound.previous
    · exact sound.unmade
    · exact sound.place
    · exact sound.checks
    · exact sound.inForce
    · exact sound.clean

end Steps

section Runs

variable {rows : Nat → Int × PortState} {events : List Event}

theorem right_begun (rows : Nat → Int × PortState) : Right (begun rows) := by
  constructor
  · exact fun _ _ _ => rfl
  · intro r later
    cases later
  · exact fun _ _ => rfl

theorem run_right
    (careful : ∀ past event, past ++ [event] <+: events → Careful ((begun rows).run past) event) :
    ∀ past, past <+: events → Sound ((begun rows).run past) ∧ Right ((begun rows).run past) := by
  intro past
  induction past using List.reverseRecOn with
  | nil => exact fun _ => ⟨sound_begun rows, right_begun rows⟩
  | append_singleton past event ih =>
    intro within
    have stepped : (begun rows).run (past ++ [event]) = ((begun rows).run past).step event :=
      List.foldl_append
    obtain ⟨sound, right⟩ := ih ((List.prefix_append past _).trans within)
    rw [stepped]
    exact ⟨sound_step sound event (careful past event within),
      right_step right event (careful past event within)⟩

end Runs

end EveAgent.PortMon
