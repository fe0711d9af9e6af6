import EveAgent.Machine

namespace EveAgent.MasterAgent.RequestList

open Machine

section Lists

variable {α : Type}

/-- The elements from `start` to `end`, and the count kept beside them. -/
structure PduList (α : Type) where
  elements : List α
  size : Nat
  deriving DecidableEq, Repr

def initList : PduList α := { elements := [], size := 0 }

/-- `malloc` tells whether the element could be allocated. -/
def addToList (list : PduList α) (elementValue : α) (malloc : Bool) : PduList α :=
  if malloc then { elements := list.elements ++ [elementValue], size := list.size + 1 } else list

/-- `none` where the search runs behind the last element. -/
def deleteFromList [DecidableEq α] (list : PduList α) (elementValue : α) : Option (PduList α) :=
  if list.elements = [] then some list
  else if elementValue ∈ list.elements then
    some { elements := list.elements.erase elementValue, size := list.size - 1 }
  else none

theorem deleteFromList_first [DecidableEq α] {list : PduList α} {first : α} {rest : List α}
    (elements : list.elements = first :: rest) :
    deleteFromList list first = some { elements := rest, size := list.size - 1 } := by
  rw [deleteFromList, elements, if_neg (List.cons_ne_nil first rest), if_pos List.mem_cons_self,
    List.erase_cons_head]

end Lists

section Threads

/-- Where `sendPDU` is. -/
inductive Sender (α : Type) where
  | testSize
  | lockCond
  | condWait
  | blocked
  | woken
  | unlockCond
  | lockList
  | takeFirst
  | unlockList (request : α)
  | forward (request : α)
  deriving DecidableEq, Repr

/-- Where a call of `MA_Receiver`, or the loop of `readXMLSetPacket`, is. -/
inductive Producer (α : Type) where
  | idle
  | lock (request : α)
  | append (request : α)
  | unlock
  | signal
  deriving DecidableEq, Repr

inductive Thread where
  | sender
  | producer (p : Nat)
  deriving DecidableEq, Repr

/-- `gRequestListCondLock` is taken by one thread only. The last two fields record the requests
appended and those taken. -/
structure State (α : Type) where
  gstRequestList : PduList α
  gRequestListLock : Option Thread
  sender : Sender α
  producers : List (Producer α)
  appended : List α
  taken : List α
  deriving DecidableEq, Repr

inductive Label (α : Type) where
  | sender
  | spurious
  | receive (p : Nat) (request : α)
  | producer (p : Nat) (malloc : Bool)
  deriving DecidableEq, Repr

variable {α : Type}

def senderStep [DecidableEq α] (s : State α) : Option (State α) :=
  match s.sender with
  | .testSize =>
    some { s with sender := if s.gstRequestList.size = 0 then .lockCond else .lockList }
  | .lockCond => some { s with sender := .condWait }
  | .condWait => some { s with sender := .blocked }
  | .blocked => none
  | .woken => some { s with sender := .unlockCond }
  | .unlockCond => some { s with sender := .testSize }
  | .lockList =>
    if s.gRequestListLock = none then
      some { s with gRequestListLock := some .sender, sender := .takeFirst }
    else none
  | .takeFirst =>
    match s.gstRequestList.elements with
    | [] => none
    | first :: _ =>
      (deleteFromList s.gstRequestList first).map fun list =>
        { s with gstRequestList := list, sender := .unlockList first
                 taken := s.taken ++ [first] }
  | .unlockList request => some { s with gRequestListLock := none, sender := .forward request }
  | .forward _ => some { s with sender := .testSize }

/-- `pthread_cond_signal` is lost when nobody waits. -/
def signalled : Sender α → Sender α
  | .blocked => .woken
  | sender => sender

def producerStep (s : State α) (p : Nat) (malloc : Bool) : Option (State α) :=
  match s.producers[p]? with
  | none => none
  | some .idle => none
  | some (.lock request) =>
    if s.gRequestListLock = none then
      some { s with gRequestListLock := some (.producer p)
                    producers := s.producers.set p (.append request) }
    else none
  | some (.append request) =>
    some { s with gstRequestList := addToList s.gstRequestList request malloc
                  producers := s.producers.set p .unlock
                  appended := if malloc then s.appended ++ [request] else s.appended }
  | some .unlock => some { s with gRequestListLock := none, producers := s.producers.set p .signal }
  | some .signal =>
    some { s with sender := signalled s.sender, producers := s.producers.set p .idle }

def step [DecidableEq α] (s : State α) : Label α → Option (State α)
  | .sender => senderStep s
  | .spurious => if s.sender = .blocked then some { s with sender := .woken } else none
  | .receive p request =>
    if s.producers[p]? = some .idle then
      some { s with producers := s.producers.set p (.lock request) }
    else none
  | .producer p malloc => producerStep s p malloc

def started (α : Type) (producers : Nat) : State α :=
  { gstRequestList := initList
    gRequestListLock := none
    sender := .testSize
    producers := List.replicate producers .idle
    appended := []
    taken := [] }

end Threads

section Property

variable {α : Type}

/-- A request has been appended that has not been signalled. -/
def SignalPending (s : State α) : Prop :=
  ∃ producer ∈ s.producers, producer = .unlock ∨ producer = .signal

/-- No request lies in the list while the sender is blocked and nobody is about to signal; each
one appended is taken once, in this order, and the sender finds one when it takes one. -/
structure NoneStranded (s : State α) : Prop where
  empty : s.sender = .blocked → ¬ SignalPending s → s.gstRequestList.elements = []
  order : s.appended = s.taken ++ s.gstRequestList.elements
  present : s.sender = .takeFirst → s.gstRequestList.elements ≠ []

/-- The sender starts to wait only when no request is in the list, or one whose signal is still
to come. -/
def WaitsInTime (s : State α) (label : Label α) : Prop :=
  label = .sender → s.sender = .condWait →
    s.gstRequestList.elements = [] ∨ SignalPending s

structure Inv (s : State α) : Prop where
  size : s.gstRequestList.size = s.gstRequestList.elements.length
  order : s.appended = s.taken ++ s.gstRequestList.elements
  found : s.sender = .lockList ∨ s.sender = .takeFirst → s.gstRequestList.elements ≠ []

def BlockedInTime (s : State α) : Prop :=
  s.sender = .blocked → s.gstRequestList.elements = [] ∨ SignalPending s

/-- What holds in a run whose waits start in time. -/
structure InvInTime (s : State α) : Prop where
  inv : Inv s
  inTime : BlockedInTime s

instance [DecidableEq α] (s : State α) : Decidable (SignalPending s) :=
  inferInstanceAs (Decidable (∃ producer ∈ s.producers, _))

instance [DecidableEq α] (s : State α) (label : Label α) : Decidable (WaitsInTime s label) :=
  inferInstanceAs (Decidable (_ → _ → _ ∨ _))

end Property

section Steps

variable {α : Type} {s t : State α} {label : Label α} {p : Nat} {malloc : Bool}

theorem signalPending_set {old new : Producer α} (pending : SignalPending s)
    (at_p : s.producers[p]? = some old) (quiet : ¬ (old = .unlock ∨ old = .signal)) :
    ∃ producer ∈ s.producers.set p new, producer = .unlock ∨ producer = .signal := by
  obtain ⟨producer, member, owes⟩ := pending
  obtain ⟨q, at_q⟩ := List.mem_iff_getElem?.mp member
  have other : p ≠ q := by
    intro same
    subst same
    obtain rfl := Option.some.inj (at_p.symm.trans at_q)
    exact quiet owes
  refine ⟨producer, List.mem_iff_getElem?.mpr ⟨q, ?_⟩, owes⟩
  rw [List.getElem?_set_ne other]
  exact at_q

theorem set_mem {old new : Producer α} (at_p : s.producers[p]? = some old) :
    new ∈ s.producers.set p new := by
  obtain ⟨inside, _⟩ := List.getElem?_eq_some_iff.mp at_p
  exact List.mem_set inside new

theorem addToList_kept (inv : Inv s) (request : α) (malloc : Bool) :
    (addToList s.gstRequestList request malloc).size =
        (addToList s.gstRequestList request malloc).elements.length ∧
      (if malloc then s.appended ++ [request] else s.appended) =
        s.taken ++ (addToList s.gstRequestList request malloc).elements ∧
      (s.gstRequestList.elements ≠ [] →
        (addToList s.gstRequestList request malloc).elements ≠ []) := by
  cases malloc with
  | true =>
    simp only [addToList, if_true, List.length_append, List.length_singleton, inv.size, inv.order,
      List.append_assoc, true_and]
    intro _
    exact List.append_ne_nil_of_right_ne_nil _ (List.cons_ne_nil _ _)
  | false => exact ⟨inv.size, inv.order, id⟩

theorem signalled_found (found : signalled s.sender = .lockList ∨ signalled s.sender = .takeFirst) :
    s.sender = .lockList ∨ s.sender = .takeFirst := by
  cases phase : s.sender with
  | blocked =>
    rw [phase] at found
    rcases found with away | away
    · cases away
    · cases away
  | _ =>
    rw [phase] at found
    exact found

theorem started_inv (producers : Nat) : Inv (started α producers) := by
  constructor
  · rfl
  · rfl
  · rintro (away | away)
    · cases away
    · cases away

theorem producerStep_inv (inv : Inv s) (stepped : producerStep s p malloc = some t) : Inv t := by
  revert stepped
  fun_cases producerStep s p malloc
  all_goals rintro ⟨⟩
  -- the request is appended
  case case5 request _ =>
    obtain ⟨size, order, present⟩ := addToList_kept inv request malloc
    refine ⟨size, order, ?_⟩
    intro phase
    exact present (inv.found phase)
  -- the condition is signalled
  case case7 =>
    refine ⟨inv.size, inv.order, ?_⟩
    intro phase
    exact inv.found (signalled_found phase)
  all_goals exact ⟨inv.size, inv.order, inv.found⟩

theorem producerStep_blocked (inTime : BlockedInTime s) (blocked : t.sender = .blocked)
    (stepped : producerStep s p malloc = some t) :
    t.gstRequestList.elements = [] ∨ SignalPending t := by
  revert stepped
  fun_cases producerStep s p malloc
  all_goals rintro ⟨⟩
  case case3 at_p _ =>
    rcases inTime blocked with empty | pending
    · exact .inl empty
    · exact .inr (signalPending_set pending at_p (by simp))
  case case5 at_p => exact .inr ⟨.unlock, set_mem at_p, .inl rfl⟩
  case case6 at_p => exact .inr ⟨.signal, set_mem at_p, .inr rfl⟩
  case case7 =>
    dsimp only [signalled] at blocked
    split at blocked
    · cases blocked
    · rename_i awake
      exact absurd blocked awake

theorem inv_stranded (held : InvInTime s) : NoneStranded s := by
  constructor
  · intro blocked quiet
    exact (held.inTime blocked).resolve_right quiet
  · exact held.inv.order
  · intro taking
    exact held.inv.found (.inr taking)

variable [DecidableEq α]

theorem senderStep_inv (inv : Inv s) (stepped : senderStep s = some t) : Inv t := by
  revert stepped
  fun_cases senderStep s
  -- the first request is taken
  case case10 first rest elements =>
    intro stepped
    rw [deleteFromList_first elements] at stepped
    obtain rfl := Option.some.inj stepped
    constructor
    · dsimp only
      rw [inv.size, elements, List.length_cons, Nat.add_sub_cancel]
    · dsimp only
      rw [inv.order, elements, List.append_assoc, List.singleton_append]
    · rintro (away | away)
      · cases away
      · cases away
  all_goals rintro ⟨⟩
  case case1 =>
    refine ⟨inv.size, inv.order, ?_⟩
    by_cases empty : s.gstRequestList.size = 0
    · simp [empty]
    · intro _ none
      rw [inv.size, List.length_eq_zero_iff] at empty
      exact empty none
  case case7 phase _ =>
    refine ⟨inv.size, inv.order, ?_⟩
    intro _
    exact inv.found (.inl phase)
  all_goals
    refine ⟨inv.size, inv.order, ?_⟩
    rintro (away | away)
    · cases away
    · cases away

theorem step_inv (inv : Inv s) (stepped : step s label = some t) : Inv t := by
  revert stepped
  fun_cases step s label
  case case1 => exact senderStep_inv inv
  case case6 => exact producerStep_inv inv
  all_goals rintro ⟨⟩
  case case2 =>
    refine ⟨inv.size, inv.order, ?_⟩
    rintro (away | away)
    · cases away
    · cases away
  case case4 => exact ⟨inv.size, inv.order, inv.found⟩

theorem senderStep_blocked (blocked : t.sender = .blocked) (stepped : senderStep s = some t) :
    s.sender = .condWait ∧ t.gstRequestList = s.gstRequestList ∧ t.producers = s.producers := by
  revert stepped
  fun_cases senderStep s
  case case10 =>
    intro stepped
    obtain ⟨list, _, rfl⟩ := Option.map_eq_some_iff.mp stepped
    cases blocked
  all_goals rintro ⟨⟩
  -- only the wait itself blocks the thread
  case case3 phase => exact ⟨phase, rfl, rfl⟩
  case case1 =>
    dsimp only at blocked
    split at blocked
    · cases blocked
    · cases blocked
  all_goals cases blocked

theorem step_blocked (inTime : BlockedInTime s) (guard : WaitsInTime s label)
    (stepped : step s label = some t) : BlockedInTime t := by
  intro blocked
  revert stepped
  fun_cases step s label
  case case1 =>
    intro stepped
    obtain ⟨phase, list, producers⟩ := senderStep_blocked blocked stepped
    rw [list, SignalPending, producers]
    exact guard rfl phase
  case case6 => exact producerStep_blocked inTime blocked
  all_goals rintro ⟨⟩
  case case2 => cases blocked
  case case4 at_p =>
    rcases inTime blocked with empty | pending
    · exact .inl empty
    · exact .inr (signalPending_set pending at_p (by simp))

/-- No request is stranded in a run exactly when every wait of the run starts in time. -/
theorem noneStranded_iff (producers : Nat) (labels : List (Label α)) :
    (∀ front back t, labels = front ++ back →
        run step (started α producers) front = some t → NoneStranded t) ↔
      Along step WaitsInTime (started α producers) labels := by
  constructor
  · intro safe
    apply Along.of_states
    intro front label back t split executed own phase
    subst own
    -- the wait itself leads to a state of the run, in which the sender is blocked
    have waits : step t .sender = some { t with sender := .blocked } := by
      simp only [step, senderStep, phase]
    have reached : run step (started α producers) (front ++ [.sender]) =
        some { t with sender := .blocked } := run_append executed (run_cons waits rfl)
    have stranded :=
      safe (front ++ [.sender]) back _ (by rw [split, List.append_assoc]; rfl) reached
    by_cases pending : SignalPending t
    · exact .inr pending
    · exact .inl (stranded.empty rfl pending)
  · intro inTime front back t split executed
    subst split
    have start : InvInTime (started α producers) := by
      constructor
      · exact started_inv producers
      · intro blocked
        cases blocked
    have kept : ∀ (s : State α) label t, InvInTime s → WaitsInTime s label →
        step s label = some t → InvInTime t := by
      intro s label t held guard stepped
      exact ⟨step_inv held.inv stepped, step_blocked held.inTime guard stepped⟩
    exact inv_stranded (run_invariant kept start inTime.front executed)

end Steps

section LostSignal

/-- A request arrives between the size test of the sender and its wait. -/
def lateRequest : List (Label Nat) :=
  [.sender, .receive 0 7, .producer 0 true, .producer 0 true, .producer 0 true, .producer 0 true,
    .sender, .sender]

theorem lateRequest_stranded :
    ∃ t, run step (started Nat 1) lateRequest = some t ∧ t.sender = .blocked ∧
      ¬ SignalPending t ∧ t.gstRequestList.elements = [7] := by
  apply run_of_any
  decide

theorem signal_lost :
    ¬ ∀ front back t, lateRequest = front ++ back →
      run step (started Nat 1) front = some t → NoneStranded t := by
  intro safe
  obtain ⟨t, executed, blocked, quiet, elements⟩ := lateRequest_stranded
  have empty := (safe lateRequest [] t rfl executed).empty blocked quiet
  rw [empty] at elements
  cases elements

end LostSignal

end EveAgent.MasterAgent.RequestList
