import EveAgent.Machine
import EveAgent.Ring

namespace EveAgent.TrapQueue

variable {Pdu : Type*}

/-- Statements of `JS_ListenTrap` and `AM_ListenTrap`. -/
inductive ListenPc where
  | lock
  | testFull
  | dropUnlock
  | advanceRear
  | store
  | signal
  | unlock
  | returned
  deriving DecidableEq, Repr

/-- Statements of `JS_ProcessTrapMsg` and `AM_ProcessTrapMsg`; `waiting` is the wait for
the condition, `woken` the wait for the lock that follows. -/
inductive ProcessPc where
  | lock
  | testEmpty
  | waiting
  | woken
  | unlockAfterWait
  | relock
  | read
  | clear
  | advanceFront
  | unlock
  | parse
  deriving DecidableEq, Repr

/-- What differs: the size of the ring, what follows the unlock of a call that finds
the queue full, and what follows the wait. -/
structure Agent where
  maxElement : Nat
  afterDrop : ListenPc
  afterWait : ProcessPc
  positive : 0 < maxElement
  dropped : afterDrop = .returned ∨ afterDrop = .advanceRear
  waited : afterWait = .read ∨ afterWait = .unlockAfterWait

def jobSched : Agent :=
  { maxElement := 14
    afterDrop := .advanceRear
    afterWait := .read
    positive := by decide
    dropped := .inr rfl
    waited := .inl rfl }

def appMetering : Agent :=
  { maxElement := 5
    afterDrop := .returned
    afterWait := .unlockAfterWait
    positive := by decide
    dropped := .inl rfl
    waited := .inr rfl }

/-- The agent of the backups. -/
def backup : Agent :=
  { maxElement := 10
    afterDrop := .advanceRear
    afterWait := .read
    positive := by decide
    dropped := .inr rfl
    waited := .inl rfl }

inductive Party where
  | processTrapMsg
  | listenTrap (call : Nat)
  deriving DecidableEq, Repr

/-- A call of the callback; `full` records that it has found the queue full. -/
structure Call (Pdu : Type*) where
  pdu : Pdu
  pc : ListenPc
  full : Bool
  deriving DecidableEq, Repr

/-- The last four fields record the past: what arrived and what was taken out, what
`ParseTrap` was called with, whether a call that had found the queue full has written to
it, and whether the lock was released by another thread than its holder. -/
structure State (Pdu : Type*) where
  stCB : Ring Pdu
  queueLock : Option Party
  calls : List (Call Pdu)
  processPc : ProcessPc
  pstClonePDU : Option Pdu
  ops : List (QueueOp Pdu)
  parsed : List (Option Pdu)
  fullTouched : Bool
  badUnlock : Bool
  deriving DecidableEq, Repr

/-- `JS_InitCBuffer` and `AM_init_CBuffer`. -/
def initCBuffer (agent : Agent) : State Pdu :=
  { stCB := Ring.empty agent.maxElement
    queueLock := none
    calls := []
    processPc := .lock
    pstClonePDU := none
    ops := []
    parsed := []
    fullTouched := false
    badUnlock := false }

def State.unlockBy (s : State Pdu) (party : Party) : State Pdu :=
  { s with
    queueLock := none
    badUnlock := s.badUnlock || decide (s.queueLock ≠ some party) }

def State.setCall (s : State Pdu) (index : Nat) (call : Call Pdu) : State Pdu :=
  { s with calls := s.calls.set index call }

/-- `cloned` tells whether `snmp_clone_pdu` returns a copy. -/
def listenStep (agent : Agent) (s : State Pdu) (index : Nat) (call : Call Pdu) (cloned : Bool) :
    Option (State Pdu) :=
  match call.pc with
  | .lock =>
    if s.queueLock = none then
      some { s.setCall index { call with pc := .testFull } with
        queueLock := some (.listenTrap index) }
    else none
  | .testFull =>
    if s.stCB.isFull then
      some { s.setCall index { call with pc := .dropUnlock, full := true } with
        ops := s.ops ++ [.reject call.pdu] }
    else
      some { s.setCall index { call with pc := .advanceRear } with
        ops := s.ops ++ [.accept call.pdu] }
  | .dropUnlock =>
    some ((s.unlockBy (.listenTrap index)).setCall index { call with pc := agent.afterDrop })
  | .advanceRear =>
    some { s.setCall index { call with pc := .store } with
      stCB := s.stCB.advanceRear
      fullTouched := s.fullTouched || call.full }
  | .store =>
    some { s.setCall index { call with pc := .signal } with
      stCB := s.stCB.store (if cloned then some call.pdu else none)
      fullTouched := s.fullTouched || call.full }
  | .signal =>
    some { s.setCall index { call with pc := .unlock } with
      processPc := if s.processPc = .waiting then .woken else s.processPc }
  | .unlock => some ((s.unlockBy (.listenTrap index)).setCall index { call with pc := .returned })
  | .returned => none

def processStep (agent : Agent) (s : State Pdu) (cloned : Bool) : Option (State Pdu) :=
  match s.processPc with
  | .lock =>
    if s.queueLock = none then
      some { s with queueLock := some .processTrapMsg, processPc := .testEmpty }
    else none
  | .testEmpty =>
    if s.stCB.isEmpty then some { s with queueLock := none, processPc := .waiting }
    else some { s with processPc := .read }
  | .waiting => none
  | .woken =>
    if s.queueLock = none then
      some { s with queueLock := some .processTrapMsg, processPc := agent.afterWait }
    else none
  | .unlockAfterWait => some { s.unlockBy .processTrapMsg with processPc := .relock }
  | .relock =>
    if s.queueLock = none then
      some { s with queueLock := some .processTrapMsg, processPc := .read }
    else none
  | .read =>
    some { s with
      pstClonePDU := if cloned then s.stCB.read else none
      ops := s.ops ++ [.take s.stCB.read]
      processPc := .clear }
  | .clear => some { s with stCB := s.stCB.clearFront, processPc := .advanceFront }
  | .advanceFront => some { s with stCB := s.stCB.advanceFront, processPc := .unlock }
  | .unlock => some { s.unlockBy .processTrapMsg with processPc := .parse }
  | .parse => some { s with parsed := s.parsed ++ [s.pstClonePDU], processPc := .lock }

/-- A PDU arrives, a call or the thread goes on by one statement, or the wait for the
condition ends without a signal. -/
inductive Label (Pdu : Type*) where
  | arrive (pdu : Pdu)
  | listenTrap (call : Nat) (cloned : Bool)
  | processTrapMsg (cloned : Bool)
  | spurious
  deriving DecidableEq, Repr

def step (agent : Agent) (s : State Pdu) : Label Pdu → Option (State Pdu)
  | .arrive pdu => some { s with calls := s.calls ++ [⟨pdu, .lock, false⟩] }
  | .listenTrap index cloned =>
    match s.calls[index]? with
    | none => none
    | some call => listenStep agent s index call cloned
  | .processTrapMsg cloned => processStep agent s cloned
  | .spurious => if s.processPc = .waiting then some { s with processPc := .woken } else none

def State.inHand (s : State Pdu) : List (Option Pdu) :=
  match s.processPc with
  | .clear => [s.pstClonePDU]
  | .advanceFront => [s.pstClonePDU]
  | .unlock => [s.pstClonePDU]
  | .parse => [s.pstClonePDU]
  | _ => []

/-- The ring when this call has ended the insertion it has begun. -/
def Call.settle (call : Call Pdu) (stCB : Ring Pdu) : Ring Pdu :=
  match call.pc with
  | .advanceRear => stCB.advanceRear.store (some call.pdu)
  | .store => stCB.store (some call.pdu)
  | _ => stCB

/-- The ring when the thread has ended the removal it has begun. -/
def ProcessPc.settle (stCB : Ring Pdu) : ProcessPc → Ring Pdu
  | .clear => stCB.clearFront.advanceFront
  | .advanceFront => stCB.advanceFront
  | _ => stCB

/-- The ring when the holder of the lock has ended its operation. -/
def State.settled (s : State Pdu) : Ring Pdu :=
  match s.queueLock with
  | none => s.stCB
  | some .processTrapMsg => s.processPc.settle s.stCB
  | some (.listenTrap index) =>
    match s.calls[index]? with
    | none => s.stCB
    | some call => call.settle s.stCB

def ListenPc.inside : ListenPc → Bool
  | .lock => false
  | .returned => false
  | _ => true

def ProcessPc.inside : ProcessPc → Bool
  | .lock => false
  | .waiting => false
  | .woken => false
  | .relock => false
  | .parse => false
  | _ => true

end EveAgent.TrapQueue
