import EveAgent.PortMon.PortList

namespace EveAgent.PortMon

section Invariant

def listCritical : ListPc → Bool
  | .failing _ => true
  | .failed _ => true
  | .swapping _ _ => true
  | .swapped _ => true
  | _ => false

def checkCritical : CheckPc → Bool
  | .testing => true
  | .walking _ _ _ => true
  | .tested _ _ => true
  | _ => false

/-- Whether a thread is where it holds the lock. -/
def phase (listPc : ListPc) (checkPc : Nat → CheckPc) : Holder → Bool
  | .list => listCritical listPc
  | .row r => checkCritical (checkPc r)

/-- The list is in no place that others read, and freed up to here. -/
def Apart (state : State) (list : Nat) : Prop :=
  list < state.made ∧ state.portList ≠ some list ∧ state.prePortList ≠ some list

def Private (state : State) (list : Nat) : Prop :=
  Apart state list ∧ state.freedNodes list = 0

/-- The nodes of the list are the ports of the scan. -/
def Lists (state : State) (list : Nat) (ports : List Int) : Prop :=
  ∀ port, port ∈ state.lists list ↔ port ∈ ports

/-- What the thread of the list knows of the list that it has made, or takes away. -/
def ListPlace (state : State) : Prop :=
  match state.listPc with
  | .scan => True
  | .scanned newList none => ∀ list, newList = some list → Private state list
  | .scanned newList (some ports) =>
    ∃ list, newList = some list ∧ Private state list ∧ Lists state list ports
  | .failing newList => ∀ list, newList = some list → Private state list
  | .failed newList => ∀ list, newList = some list → Private state list
  | .swapping list ports => Private state list ∧ Lists state list ports
  | .swapped oldList => ∀ list, oldList = some list → Private state list
  | .freeing oldList => ∀ list, oldList = some list → Apart state list

/-- What a search has found so far in the list in force. -/
def CheckPlace (state : State) : CheckPc → Prop
  | .walking listenPort list node =>
    state.portList = some list ∧ state.fullPortList = true ∧
      listenPort ∉ (state.lists list).take node
  | .tested listenPort (some present) =>
    ∃ list, state.portList = some list ∧ state.fullPortList = true ∧
      (present = true ↔ listenPort ∈ state.lists list)
  | _ => True

structure Sound (state : State) : Prop where
  held : Mutex.Held (· = true) state.portMonCheckLock (phase state.listPc state.checkPc)
  current : ∀ list, state.portList = some list →
    list < state.made ∧ state.freedNodes list = 0
  previous : ∀ list, state.prePortList = some list →
    list < state.made ∧ state.freedNodes list = 0 ∧ state.portList ≠ some list
  unmade : ∀ list, state.made ≤ list → state.freedNodes list = 0
  place : ListPlace state
  checks : ∀ r, CheckPlace state (state.checkPc r)
  inForce : state.fullPortList = true → ∃ list ports, state.portList = some list ∧
    state.lastScan = some ports ∧ Lists state list ports
  clean : state.readFreed = false

end Invariant

section ListSteps

variable {state : State}

theorem phase_goTo (listPc : ListPc) (checkPc : Nat → CheckPc) (r : Nat) (pc : CheckPc) :
    phase listPc (Function.update checkPc r pc) =
      Function.update (phase listPc checkPc) (.row r) (checkCritical pc) := by
  funext holder
  cases holder with
  | list => rfl
  | row q =>
    by_cases same : q = r
    · subst same
      simp [phase]
    · have other : Holder.row q ≠ Holder.row r := by simpa using same
      simp [phase, Function.update_of_ne same, Function.update_of_ne other]

theorem phase_list (listPc pc : ListPc) (checkPc : Nat → CheckPc) :
    phase pc checkPc = Function.update (phase listPc checkPc) .list (listCritical pc) := by
  funext holder
  cases holder with
  | list => simp [phase]
  | row q => simp [phase]

theorem Sound.alone (sound : Sound state) (inside : listCritical state.listPc = true) (r : Nat) :
    checkCritical (state.checkPc r) = false := by
  rw [← Bool.not_eq_true]
  intro other
  have same := sound.held.unique (t := Holder.list) (u := Holder.row r) inside other
  cases same

theorem checkPlace_of_outside {pc : CheckPc} (outside : checkCritical pc = false) :
    CheckPlace state pc := by
  cases pc with
  | idle => trivial
  | testing => trivial
  | walking => cases outside
  | tested => cases outside
  | reporting => trivial

theorem Sound.held_list (sound : Sound state) {pc : ListPc}
    (same : listCritical pc = listCritical state.listPc) :
    Mutex.Held (· = true) state.portMonCheckLock (phase pc state.checkPc) := by
  rw [phase_list state.listPc]
  apply sound.held.stay
  rw [same]
  rfl

theorem sound_listPc (sound : Sound state) {pc : ListPc}
    (same : listCritical pc = listCritical state.listPc)
    (place : ListPlace { state with listPc := pc }) :
    Sound { state with listPc := pc } := by
  constructor
  · exact sound.held_list same
  · exact sound.current
  · exact sound.previous
  · exact sound.unmade
  · exact place
  · exact sound.checks
  · exact sound.inForce
  · exact sound.clean

theorem sound_lock (sound : Sound state) (free : state.portMonCheckLock = none) {pc : ListPc}
    (inside : listCritical pc = true) (place : ListPlace { state with listPc := pc }) :
    Sound { state with portMonCheckLock := some .list, listPc := pc } := by
  constructor
  · have held := sound.held
    rw [free] at held
    have locked := held.lock (t := Holder.list) (p := listCritical pc) inside
    rw [← phase_list] at locked
    exact locked
  · exact sound.current
  · exact sound.previous
  · exact sound.unmade
  · exact place
  · exact sound.checks
  · exact sound.inForce
  · exact sound.clean

theorem sound_unlock (sound : Sound state) {pc : ListPc}
    (inside : listCritical state.listPc = true) (outside : listCritical pc = false)
    (place : ListPlace { state with listPc := pc }) :
    Sound { state with portMonCheckLock := none, listPc := pc } := by
  constructor
  · have held := sound.held.unlock (t := Holder.list) (p := listCritical pc) inside (by
      rw [outside]
      decide)
    rw [← phase_list] at held
    exact held
  · exact sound.current
  · exact sound.previous
  · exact sound.unmade
  · exact place
  · exact sound.checks
  · exact sound.inForce
  · exact sound.clean

theorem sound_swap (sound : Sound state) {list : Nat} {ports : List Int}
    (pc : state.listPc = .swapping list ports) :
    Sound { state with
      prePortList := state.portList
      portList := some list
      fullPortList := true
      lastScan := some ports
      listPc := .swapped state.prePortList } := by
  have inside : listCritical state.listPc = true := by
    rw [pc]
    rfl
  have placed := sound.place
  rw [ListPlace, pc] at placed
  obtain ⟨⟨⟨bound, notCurrent, notPrevious⟩, whole⟩, listed⟩ := placed
  constructor
  · exact sound.held_list (by rw [inside]; rfl)
  · rintro _ ⟨⟩
    exact ⟨bound, whole⟩
  · intro old is
    obtain ⟨oldBound, oldWhole⟩ := sound.current old is
    refine ⟨oldBound, oldWhole, ?_⟩
    intro same
    exact notCurrent (is.trans same.symm)
  · exact sound.unmade
  · intro old is
    obtain ⟨oldBound, oldWhole, notOld⟩ := sound.previous old is
    refine ⟨⟨oldBound, ?_, notOld⟩, oldWhole⟩
    intro same
    exact notPrevious (is.trans same.symm)
  · exact fun r => checkPlace_of_outside (sound.alone inside r)
  · intro _
    exact ⟨list, ports, rfl, rfl, listed⟩
  · exact sound.clean

theorem sound_fail (sound : Sound state) {newList : Option Nat}
    (pc : state.listPc = .failing newList) :
    Sound { state with fullPortList := false, lastScan := none, listPc := .failed newList } := by
  have inside : listCritical state.listPc = true := by
    rw [pc]
    rfl
  have placed := sound.place
  rw [ListPlace, pc] at placed
  constructor
  · exact sound.held_list (by rw [inside]; rfl)
  · exact sound.current
  · exact sound.previous
  · exact sound.unmade
  · exact placed
  · exact fun r => checkPlace_of_outside (sound.alone inside r)
  · intro full
    cases full
  · exact sound.clean

theorem sound_free (sound : Sound state) {list : Nat} (pc : state.listPc = .freeing (some list)) :
    Sound { state with
      freedNodes := Function.update state.freedNodes list (state.freedNodes list + 1) } := by
  have placed := sound.place
  rw [ListPlace, pc] at placed
  obtain ⟨bound, notCurrent, notPrevious⟩ := placed list rfl
  constructor
  · exact sound.held
  · intro other is
    have apart : other ≠ list := by
      intro same
      exact notCurrent (same ▸ is)
    simp only [Function.update_of_ne apart]
    exact sound.current other is
  · intro other is
    have apart : other ≠ list := by
      intro same
      exact notPrevious (same ▸ is)
    simp only [Function.update_of_ne apart]
    exact sound.previous other is
  · intro other unmade
    have apart : other ≠ list := by
      intro same
      exact absurd (Nat.lt_of_lt_of_le bound unmade) (same ▸ Nat.lt_irrefl _)
    simp only [Function.update_of_ne apart]
    exact sound.unmade other unmade
  · rw [ListPlace]
    simp only [pc]
    exact fun other is => placed other is
  · exact sound.checks
  · exact sound.inForce
  · exact sound.clean

theorem sound_listStep (sound : Sound state) : Sound state.listStep := by
  have placed := sound.place
  cases pc : state.listPc with
  | scan =>
    have step : state.listStep = state := by simp only [State.listStep, pc]
    rw [step]
    exact sound
  | scanned newList ports =>
    rw [ListPlace, pc] at placed
    by_cases free : state.portMonCheckLock = none
    · cases ports with
      | none =>
        have step : state.listStep =
            { state with portMonCheckLock := some .list, listPc := .failing newList } := by
          simp only [State.listStep, pc, if_pos free]
        rw [step]
        exact sound_lock sound free rfl placed
      | some ports =>
        obtain ⟨list, rfl, made, listed⟩ := placed
        have step : state.listStep =
            { state with portMonCheckLock := some .list, listPc := .swapping list ports } := by
          simp only [State.listStep, pc, if_pos free]
        rw [step]
        exact sound_lock sound free rfl ⟨made, listed⟩
    · have step : state.listStep = state := by
        cases ports with
        | none => simp only [State.listStep, pc, if_neg free]
        | some ports =>
          obtain ⟨list, rfl, _⟩ := placed
          simp only [State.listStep, pc, if_neg free]
      rw [step]
      exact sound
  | failing newList =>
    have step : state.listStep =
        { state with fullPortList := false, lastScan := none, listPc := .failed newList } := by
      simp only [State.listStep, pc]
    rw [step]
    exact sound_fail sound pc
  | failed newList =>
    have step : state.listStep =
        { state with portMonCheckLock := none, listPc := .freeing newList } := by
      simp only [State.listStep, pc]
    rw [ListPlace, pc] at placed
    rw [step]
    exact sound_unlock sound (by rw [pc]; rfl) rfl (fun list is => (placed list is).1)
  | swapping list ports =>
    have step : state.listStep = { state with
        prePortList := state.portList
        portList := some list
        fullPortList := true
        lastScan := some ports
        listPc := .swapped state.prePortList } := by
      simp only [State.listStep, pc]
    rw [step]
    exact sound_swap sound pc
  | swapped oldList =>
    have step : state.listStep =
        { state with portMonCheckLock := none, listPc := .freeing oldList } := by
      simp only [State.listStep, pc]
    rw [ListPlace, pc] at placed
    rw [step]
    exact sound_unlock sound (by rw [pc]; rfl) rfl (fun list is => (placed list is).1)
  | freeing oldList =>
    rw [ListPlace, pc] at placed
    cases oldList with
    | none =>
      have step : state.listStep = { state with listPc := .scan } := by
        simp only [State.listStep, pc]
      rw [step]
      exact sound_listPc sound (by rw [pc]; rfl) trivial
    | some list =>
      by_cases more : state.freedNodes list < (state.lists list).length
      · have step : state.listStep = { state with
            freedNodes :=
              Function.update state.freedNodes list (state.freedNodes list + 1) } := by
          simp only [State.listStep, pc, if_pos more]
        rw [step]
        exact sound_free sound pc
      · have step : state.listStep = { state with listPc := .freeing none } := by
          simp only [State.listStep, pc, if_neg more]
        rw [step]
        apply sound_listPc sound (by rw [pc]; rfl)
        intro list is
        cases is

/-- A complete scan has met some port, and its nodes are the ports it has met. -/
def Listed (aborted : List Int) (entries : List (Int × Bool)) (complete : Bool) : Prop :=
  complete = true → getTcpTable aborted entries ≠ [] ∧
    ∀ port, port ∈ getTcpTable aborted entries ↔ port ∈ entries.map Prod.fst

theorem sound_scanStep (sound : Sound state) {aborted : List Int} {entries : List (Int × Bool)}
    {complete : Bool} (listed : Listed aborted entries complete) :
    Sound (state.scanStep aborted entries complete) := by
  by_cases ready : state.listPc = .scan
  · have step : state.scanStep aborted entries complete = { state with
        lists := Function.update state.lists state.made (getTcpTable aborted entries)
        made := state.made + 1
        listPc := .scanned (if getTcpTable aborted entries = [] then none else some state.made)
          (if complete then some (entries.map Prod.fst) else none) } := by
      simp only [State.scanStep, ready]
    have old : ∀ list, state.portList = some list →
        Function.update state.lists state.made (getTcpTable aborted entries) list =
          state.lists list := by
      intro list is
      exact Function.update_of_ne (Nat.ne_of_lt (sound.current list is).1) _ _
    have apart : state.portList ≠ some state.made ∧ state.prePortList ≠ some state.made := by
      constructor
      · intro is
        exact Nat.lt_irrefl _ (sound.current state.made is).1
      · intro is
        exact Nat.lt_irrefl _ (sound.previous state.made is).1
    rw [step]
    constructor
    · exact sound.held_list (by rw [ready]; rfl)
    · intro list is
      obtain ⟨bound, whole⟩ := sound.current list is
      exact ⟨Nat.lt_succ_of_lt bound, whole⟩
    · intro list is
      obtain ⟨bound, whole, other⟩ := sound.previous list is
      exact ⟨Nat.lt_succ_of_lt bound, whole, other⟩
    · intro list unmade
      exact sound.unmade list (Nat.le_of_succ_le unmade)
    · have own : state.made < state.made + 1 := Nat.lt_succ_self _
      have whole := sound.unmade state.made (Nat.le_refl _)
      cases complete with
      | false =>
        intro list is
        split at is
        · cases is
        · cases is
          exact ⟨⟨own, apart.1, apart.2⟩, whole⟩
      | true =>
        obtain ⟨filled, same⟩ := listed rfl
        refine ⟨state.made, if_neg filled, ⟨⟨own, apart.1, apart.2⟩, whole⟩, ?_⟩
        intro port
        show port ∈ Function.update state.lists state.made (getTcpTable aborted entries)
          state.made ↔ _
        rw [Function.update_self]
        exact same port
    · intro r
      have before := sound.checks r
      show CheckPlace _ (state.checkPc r)
      cases pc : state.checkPc r with
      | idle => trivial
      | testing => trivial
      | walking listenPort list node =>
        rw [pc] at before
        obtain ⟨is, full, passed⟩ := before
        refine ⟨is, full, ?_⟩
        show listenPort ∉ (Function.update state.lists state.made
          (getTcpTable aborted entries) list).take node
        rw [old list is]
        exact passed
      | tested listenPort present =>
        cases present with
        | none => trivial
        | some present =>
          rw [pc] at before
          obtain ⟨list, is, full, found⟩ := before
          refine ⟨list, is, full, ?_⟩
          show present = true ↔ listenPort ∈ Function.update state.lists state.made
            (getTcpTable aborted entries) list
          rw [old list is]
          exact found
      | reporting => trivial
    · intro full
      obtain ⟨list, ports, is, scan, whole⟩ := sound.inForce full
      refine ⟨list, ports, is, scan, ?_⟩
      intro port
      show port ∈ Function.update state.lists state.made (getTcpTable aborted entries) list ↔ _
      rw [old list is]
      exact whole port
    · exact sound.clean
  · have step : state.scanStep aborted entries complete = state := by
      unfold State.scanStep
      split
      · rename_i scanning
        exact absurd scanning ready
      · rfl
    rw [step]
    exact sound

end ListSteps

section CheckSteps

variable {state : State} {r : Nat}

theorem sound_goTo (sound : Sound state) {pc : CheckPc} {lock : Option Holder}
    (held : Mutex.Held (· = true) lock
      (Function.update (phase state.listPc state.checkPc) (.row r) (checkCritical pc)))
    (place : CheckPlace state pc) (rows : Nat → PortRow) (checks alerts : List (Nat × Int × Bool)) :
    Sound { state with
      portMonCheckLock := lock
      checkPc := Function.update state.checkPc r pc
      rows := rows
      checks := checks
      alerts := alerts } := by
  constructor
  · rw [← phase_goTo] at held
    exact held
  · exact sound.current
  · exact sound.previous
  · exact sound.unmade
  · exact sound.place
  · intro q
    by_cases same : q = r
    · show CheckPlace _ (Function.update state.checkPc r pc q)
      rw [same, Function.update_self]
      exact place
    · show CheckPlace _ (Function.update state.checkPc r pc q)
      rw [Function.update_of_ne same]
      exact sound.checks q
  · exact sound.inForce
  · exact sound.clean

theorem sound_stay (sound : Sound state) {pc : CheckPc}
    (same : checkCritical pc = checkCritical (state.checkPc r)) (place : CheckPlace state pc) :
    Sound (state.goTo r pc) := by
  apply sound_goTo sound _ place state.rows state.checks state.alerts
  apply sound.held.stay
  rw [same]
  rfl

theorem sound_walk (sound : Sound state) {listenPort : Int} {list node : Nat}
    (pc : state.checkPc r = .walking listenPort list node) : Sound (state.rowStep r) := by
  have place := sound.checks r
  rw [pc] at place
  obtain ⟨is, full, passed⟩ := place
  have inside : checkCritical (state.checkPc r) = true := by
    rw [pc]
    rfl
  cases there : (state.lists list)[node]? with
  | none =>
    have ended : (state.lists list).take node = state.lists list :=
      List.take_of_length_le (List.getElem?_eq_none_iff.mp there)
    have step : state.rowStep r = state.goTo r (.tested listenPort (some false)) := by
      simp only [State.rowStep, pc, there]
    rw [step]
    apply sound_stay sound (by rw [inside]; rfl)
    refine ⟨list, is, full, ?_⟩
    rw [ended] at passed
    simpa using passed
  | some port =>
    obtain ⟨bound, here⟩ := List.getElem?_eq_some_iff.mp there
    have unread : (state.readFreed || decide (node < state.freedNodes list)) =
        state.readFreed := by
      rw [(sound.current list is).2]
      simp
    have step : state.rowStep r = state.goTo r (if port = listenPort then
        .tested listenPort (some true) else .walking listenPort list (node + 1)) := by
      simp only [State.rowStep, pc, there, unread]
      rfl
    rw [step]
    split
    · rename_i found
      apply sound_stay sound (by rw [inside]; rfl)
      refine ⟨list, is, full, ?_⟩
      rw [← found, ← here]
      simp
    · rename_i other
      apply sound_stay sound (by rw [inside]; rfl)
      refine ⟨is, full, ?_⟩
      rw [List.take_succ_eq_append_getElem bound, here, List.mem_append, List.mem_singleton]
      rintro (before | same)
      · exact passed before
      · exact other same.symm

theorem sound_rowStep (sound : Sound state) (r : Nat) : Sound (state.rowStep r) := by
  cases pc : state.checkPc r with
  | idle =>
    by_cases enters : 0 < (state.rows r).portMonitorNumber ∧ state.portMonCheckLock = none
    · have step : state.rowStep r =
          { state.goTo r .testing with portMonCheckLock := some (.row r) } := by
        simp only [State.rowStep, pc, if_pos enters]
      rw [step]
      have held := sound.held
      rw [enters.2] at held
      have place : CheckPlace state .testing := trivial
      exact sound_goTo sound (held.lock rfl) place state.rows state.checks state.alerts
    · have step : state.rowStep r = state := by
        simp only [State.rowStep, pc, if_neg enters]
      rw [step]
      exact sound
  | testing =>
    have inside : checkCritical (state.checkPc r) = true := by
      rw [pc]
      rfl
    cases list : state.portList with
    | none =>
      have step : state.rowStep r =
          state.goTo r (.tested (state.rows r).portMonitorNumber none) := by
        simp only [State.rowStep, pc, list]
      rw [step]
      exact sound_stay sound (by rw [inside]; rfl) trivial
    | some list' =>
      cases full : state.fullPortList with
      | false =>
        have step : state.rowStep r =
            state.goTo r (.tested (state.rows r).portMonitorNumber none) := by
          simp only [State.rowStep, pc, list, full]
        rw [step]
        exact sound_stay sound (by rw [inside]; rfl) trivial
      | true =>
        have step : state.rowStep r =
            state.goTo r (.walking (state.rows r).portMonitorNumber list' 0) := by
          simp only [State.rowStep, pc, list, full]
        rw [step]
        exact sound_stay sound (by rw [inside]; rfl) ⟨list, full, by simp⟩
  | walking listenPort list node => exact sound_walk sound pc
  | tested listenPort present =>
    have inside : phase state.listPc state.checkPc (.row r) = true := by
      show checkCritical (state.checkPc r) = true
      rw [pc]
      rfl
    cases present with
    | none =>
      have step : state.rowStep r = { state.goTo r .idle with portMonCheckLock := none } := by
        simp only [State.rowStep, pc]
      rw [step]
      have place : CheckPlace state .idle := trivial
      exact sound_goTo sound (sound.held.unlock inside (by decide)) place state.rows
        state.checks state.alerts
    | some present =>
      have outside : ¬checkCritical (.reporting listenPort present) = true := Bool.false_ne_true
      have step : state.rowStep r =
          { state.goTo r (.reporting listenPort present) with portMonCheckLock := none } := by
        simp only [State.rowStep, pc]
      rw [step]
      have place : CheckPlace state (.reporting listenPort present) := trivial
      exact sound_goTo sound (sound.held.unlock inside outside) place state.rows
        state.checks state.alerts
  | reporting listenPort present =>
    have step : state.rowStep r = state.report r listenPort present := by
      simp only [State.rowStep, pc]
    rw [step]
    have place : CheckPlace state .idle := trivial
    apply sound_goTo sound _ place
    apply sound.held.stay
    show checkCritical .idle = true ↔ checkCritical (state.checkPc r) = true
    rw [pc]
    rfl

theorem Sound.exact (sound : Sound state) {listenPort : Int} {present : Bool}
    (pc : state.checkPc r = .tested listenPort (some present)) :
    ∃ ports, state.lastScan = some ports ∧ (present = true ↔ listenPort ∈ ports) := by
  have place := sound.checks r
  rw [pc] at place
  obtain ⟨list, is, full, found⟩ := place
  obtain ⟨current, ports, is', scan, listed⟩ := sound.inForce full
  cases is.symm.trans is'
  exact ⟨ports, scan, found.trans (listed listenPort)⟩

theorem sound_begun (rows : Nat → Int × PortState) : Sound (begun rows) := by
  constructor
  · intro holder
    cases holder with
    | list => simp [phase, begun, listCritical]
    | row r => simp [phase, begun, checkCritical]
  · rintro _ ⟨⟩
  · rintro _ ⟨⟩
  · exact fun _ _ => rfl
  · trivial
  · exact fun _ => trivial
  · intro full
    cases full
  · rfl

end CheckSteps

end EveAgent.PortMon
