import EveAgent.Mutex

namespace EveAgent.PortMon

section Threads

/-- What `portMonitorState` says. -/
inductive PortState where
  | other
  | down
  | listen
  deriving DecidableEq, Repr

/-- The state that a check with this result leads to. -/
def stateOf (present : Bool) : PortState := if present then .listen else .down

/-- A row, and the variable `flag` of its thread. -/
structure PortRow where
  portMonitorNumber : Int
  portMonitorState : PortState
  flag : Bool
  deriving DecidableEq, Repr

/-- Where `PortListThread` stands. Lists have numbers, in the order in which they are made; a
complete scan knows the ports that it has met. -/
inductive ListPc where
  | scan
  | scanned (newList : Option Nat) (ports : Option (List Int))
  | failing (newList : Option Nat)
  | failed (newList : Option Nat)
  | swapping (newList : Nat) (ports : List Int)
  | swapped (oldList : Option Nat)
  | freeing (list : Option Nat)
  deriving DecidableEq, Repr

/-- Where `PortCheckThread` stands with its row: outside the lock, in `checkListenPort` before
the list, at a node of the list, and behind the search with the result. -/
inductive CheckPc where
  | idle
  | testing
  | walking (listenPort : Int) (list node : Nat)
  | tested (listenPort : Int) (present : Option Bool)
  | reporting (listenPort : Int) (present : Bool)
  deriving DecidableEq, Repr

inductive Holder where
  | list
  | row (r : Nat)
  deriving DecidableEq, Repr

structure State where
  lists : Nat → List Int
  freedNodes : Nat → Nat
  made : Nat
  portList : Option Nat
  prePortList : Option Nat
  fullPortList : Bool
  portMonCheckLock : Option Holder
  listPc : ListPc
  rows : Nat → PortRow
  checkPc : Nat → CheckPc
  /-- A node was read after it had been freed. -/
  readFreed : Bool
  /-- The ports of the scan in force, when it was complete. -/
  lastScan : Option (List Int)
  checks : List (Nat × Int × Bool)
  alerts : List (Nat × Int × Bool)

/-- The nodes that `getTcpTable` makes: of what it met before it began again, and of the ports for
which there was memory. -/
def getTcpTable (aborted : List Int) (entries : List (Int × Bool)) : List Int :=
  aborted ++ (entries.filter Prod.snd).map Prod.fst

inductive Event where
  | scan (aborted : List Int) (entries : List (Int × Bool)) (complete : Bool)
  | list
  | row (r : Nat)
  | setNumber (r : Nat) (portMonitorNumber : Int)
  deriving DecidableEq, Repr

def State.scanStep (state : State) (aborted : List Int) (entries : List (Int × Bool))
    (complete : Bool) : State :=
  match state.listPc with
  | .scan =>
    let nodes := getTcpTable aborted entries
    { state with
      lists := Function.update state.lists state.made nodes
      made := state.made + 1
      listPc := .scanned (if nodes = [] then none else some state.made)
        (if complete then some (entries.map Prod.fst) else none) }
  | _ => state

/-- One step of `PortListThread` behind `getTcpTable`. -/
def State.listStep (state : State) : State :=
  match state.listPc with
  | .scan => state
  | .scanned newList none =>
    if state.portMonCheckLock = none then
      { state with portMonCheckLock := some .list, listPc := .failing newList }
    else state
  | .scanned (some newList) (some ports) =>
    if state.portMonCheckLock = none then
      { state with portMonCheckLock := some .list, listPc := .swapping newList ports }
    else state
  -- Nothing is put in place of the list of the scan before.
  | .scanned none (some ports) => { state with lastScan := some ports, listPc := .scan }
  | .failing newList =>
    { state with fullPortList := false, lastScan := none, listPc := .failed newList }
  | .failed newList => { state with portMonCheckLock := none, listPc := .freeing newList }
  | .swapping newList ports =>
    { state with
      prePortList := state.portList
      portList := some newList
      fullPortList := true
      lastScan := some ports
      listPc := .swapped state.prePortList }
  | .swapped oldList => { state with portMonCheckLock := none, listPc := .freeing oldList }
  | .freeing none => { state with listPc := .scan }
  | .freeing (some list) =>
    if state.freedNodes list < (state.lists list).length then
      { state with
        freedNodes := Function.update state.freedNodes list (state.freedNodes list + 1) }
    else { state with listPc := .freeing none }

def State.goTo (state : State) (r : Nat) (pc : CheckPc) : State :=
  { state with checkPc := Function.update state.checkPc r pc }

/-- The end of the round of `PortCheckThread`, with a result of the check. -/
def State.report (state : State) (r : Nat) (listenPort : Int) (present : Bool) : State :=
  let row := state.rows r
  -- The first check sets the state that it finds, and so raises no alert.
  let started := if row.flag then row.portMonitorState else stateOf present
  { state with
    rows := Function.update state.rows r
      { row with
        portMonitorState := if started = stateOf !present then stateOf present else started
        flag := true }
    checks := state.checks ++ [(r, listenPort, present)]
    alerts :=
      if started = stateOf !present then state.alerts ++ [(r, row.portMonitorNumber, present)]
      else state.alerts
    checkPc := Function.update state.checkPc r .idle }

def State.rowStep (state : State) (r : Nat) : State :=
  match state.checkPc r with
  | .idle =>
    if 0 < (state.rows r).portMonitorNumber ∧ state.portMonCheckLock = none then
      { state.goTo r .testing with portMonCheckLock := some (.row r) }
    else state
  | .testing =>
    match state.portList, state.fullPortList with
    | some list, true => state.goTo r (.walking (state.rows r).portMonitorNumber list 0)
    | _, _ => state.goTo r (.tested (state.rows r).portMonitorNumber none)
  | .walking listenPort list node =>
    match (state.lists list)[node]? with
    | none => state.goTo r (.tested listenPort (some false))
    | some port =>
      { state.goTo r (if port = listenPort then .tested listenPort (some true)
          else .walking listenPort list (node + 1)) with
        readFreed := state.readFreed || node < state.freedNodes list }
  | .tested listenPort present =>
    { state.goTo r (match present with
        | none => .idle
        | some present => .reporting listenPort present) with portMonCheckLock := none }
  | .reporting listenPort present => state.report r listenPort present

def State.step (state : State) : Event → State
  | .scan aborted entries complete => state.scanStep aborted entries complete
  | .list => state.listStep
  | .row r => state.rowStep r
  | .setNumber r portMonitorNumber =>
    { state with
      rows := Function.update state.rows r
        { state.rows r with portMonitorNumber := portMonitorNumber } }

def State.run (state : State) (events : List Event) : State := events.foldl State.step state

def begun (rows : Nat → Int × PortState) : State where
  lists _ := []
  freedNodes _ := 0
  made := 0
  portList := none
  prePortList := none
  fullPortList := false
  portMonCheckLock := none
  listPc := .scan
  rows r := ⟨(rows r).1, (rows r).2, false⟩
  checkPc _ := .idle
  readFreed := false
  lastScan := none
  checks := []
  alerts := []

end Threads

end EveAgent.PortMon
