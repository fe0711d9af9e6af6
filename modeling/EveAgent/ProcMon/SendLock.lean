import EveAgent.Mutex
import EveAgent.ProcMon.AlertTrap

namespace EveAgent.ProcMon

section Calls

/-- Where a thread stands in `Common_SendAlert_And_Vars`: before the lock, before and behind the
test of the port, and behind `Common_SendSnmptrap`. -/
inductive CallPc where
  | outside
  | waiting (modCode : List Char) (varBinds : List VarBindArg)
  | locked (modCode : List Char) (varBinds : List VarBindArg)
  | checked (modCode : List Char) (varBinds : List VarBindArg)
  | sent (varBinds : List VarBindArg) (attempt : Attempt)
  deriving DecidableEq, Repr

/-- A call that has returned, with what `Common_SendSnmptrap` did when it was reached. -/
structure Returned where
  varBinds : List VarBindArg
  code : Int
  attempt : Option Attempt
  deriving DecidableEq, Repr

def Returned.trap (call : Returned) : Option Trap := call.attempt.bind Attempt.trap

structure Senders where
  sendTrapLock : Option Nat
  glAgentInfoAlertMgrPort : Int
  calls : Nat → CallPc
  returned : List Returned
  crashed : Bool

inductive SendEvent where
  | call (t : Nat) (modCode : List Char) (varBinds : List VarBindArg)
  | thread (t : Nat) (answers : Answers)
  | setPort (glAgentInfoAlertMgrPort : Int)

def Senders.goTo (state : Senders) (t : Nat) (pc : CallPc) : Senders :=
  { state with calls := Function.update state.calls t pc }

variable (oidOf : List Char → Option Oid)

/-- One step of `Common_SendAlert_And_Vars` and `Common_SendMesg_And_Vars`. -/
def Senders.threadStep (state : Senders) (t : Nat) (answers : Answers) : Senders :=
  match state.calls t with
  | .outside => state
  | .waiting modCode varBinds =>
    if state.sendTrapLock = none then
      { state.goTo t (.locked modCode varBinds) with sendTrapLock := some t }
    else state
  | .locked modCode varBinds =>
    -- The return of an invalid port does not unlock.
    if state.glAgentInfoAlertMgrPort ≤ 0 then
      { state.goTo t .outside with returned := state.returned ++ [⟨varBinds, 1, none⟩] }
    else state.goTo t (.checked modCode varBinds)
  | .checked modCode varBinds =>
    match Common_SendSnmptrap oidOf varBinds state.glAgentInfoAlertMgrPort modCode answers with
    | none => { state with crashed := true }
    | some attempt => state.goTo t (.sent varBinds attempt)
  -- What `Common_SendSnmptrap` returns is not looked at.
  | .sent varBinds attempt =>
    { state.goTo t .outside with
      sendTrapLock := none
      returned := state.returned ++ [⟨varBinds, 0, some attempt⟩] }

def Senders.step (state : Senders) (event : SendEvent) : Senders :=
  if state.crashed then state
  else
    match event with
    | .call t modCode varBinds =>
      if state.calls t = .outside then state.goTo t (.waiting modCode varBinds) else state
    | .thread t answers => state.threadStep oidOf t answers
    | .setPort port => { state with glAgentInfoAlertMgrPort := port }

def Senders.run (state : Senders) (events : List SendEvent) : Senders :=
  events.foldl (Senders.step oidOf) state

def monitors (glAgentInfoAlertMgrPort : Int) : Senders :=
  ⟨none, glAgentInfoAlertMgrPort, fun _ => .outside, [], false⟩

/-- A call that tests the port finds it positive, and a call that sends finds what it needs. -/
def Heard (state : Senders) : SendEvent → Prop
  | .thread t answers =>
    match state.calls t with
    | .locked _ _ => 0 < state.glAgentInfoAlertMgrPort
    | .checked _ varBinds => Delivers oidOf varBinds answers
    | _ => True
  | _ => True

end Calls

section Steps

/-- Whether a thread is where it holds the lock. -/
def CallPc.inside : CallPc → Bool
  | .outside => false
  | .waiting _ _ => false
  | .locked _ _ => true
  | .checked _ _ => true
  | .sent _ _ => true

/-- How many steps of its own take a thread out of the call. -/
def CallPc.stepsLeft : CallPc → Nat
  | .locked _ _ => 3
  | .checked _ _ => 2
  | .sent _ _ => 1
  | _ => 0

variable {oidOf : List Char → Option Oid} {state : Senders} {t : Nat}

/-- What a call that sends has done for these arguments. -/
def Handed (oidOf : List Char → Option Oid) (varBinds : List VarBindArg) (attempt : Attempt) :
    Prop :=
  ∃ trap, attempt = ⟨some trap, false, false, 0⟩ ∧ Named oidOf varBinds trap

structure Settled (oidOf : List Char → Option Oid) (call : Returned) : Prop where
  released : ∀ attempt, call.attempt = some attempt →
    attempt.session = false ∧ attempt.pdu = false
  told : call.code = 0 ↔ ∃ trap, call.trap = some trap
  named : ∀ trap, call.trap = some trap → Named oidOf call.varBinds trap

structure Open (oidOf : List Char → Option Oid) (state : Senders) : Prop where
  held : Mutex.Held (· = true) state.sendTrapLock (fun t => (state.calls t).inside)
  handed : ∀ t varBinds attempt, state.calls t = .sent varBinds attempt →
    Handed oidOf varBinds attempt
  settled : ∀ call ∈ state.returned, Settled oidOf call
  alive : state.crashed = false

theorem settled_of_handed {varBinds : List VarBindArg} {attempt : Attempt}
    (handed : Handed oidOf varBinds attempt) : Settled oidOf ⟨varBinds, 0, some attempt⟩ := by
  obtain ⟨trap, rfl, named⟩ := handed
  constructor
  · rintro _ ⟨⟩
    exact ⟨rfl, rfl⟩
  · exact ⟨fun _ => ⟨trap, rfl⟩, fun _ => rfl⟩
  · rintro _ ⟨⟩
    exact named

theorem inside_goTo (calls : Nat → CallPc) (t : Nat) (pc : CallPc) :
    (fun u => (Function.update calls t pc u).inside) =
      Function.update (fun u => (calls u).inside) t pc.inside := by
  funext u
  by_cases same : u = t
  · subst same
    simp
  · rw [Function.update_of_ne same, Function.update_of_ne same]

theorem open_goTo (isOpen : Open oidOf state) {lock : Option Nat} {pc : CallPc}
    {returned : List Returned}
    (held : Mutex.Held (· = true) lock
      (Function.update (fun u => (state.calls u).inside) t pc.inside))
    (handed : ∀ varBinds attempt, pc = .sent varBinds attempt → Handed oidOf varBinds attempt)
    (settled : ∀ call ∈ returned, Settled oidOf call) :
    Open oidOf { state with
      sendTrapLock := lock
      calls := Function.update state.calls t pc
      returned := returned } := by
  constructor
  · rw [← inside_goTo] at held
    exact held
  · intro u varBinds attempt is
    by_cases same : u = t
    · subst same
      simp only [Function.update_self] at is
      exact handed varBinds attempt is
    · simp only [Function.update_of_ne same] at is
      exact isOpen.handed u varBinds attempt is
  · exact settled
  · exact isOpen.alive

theorem open_threadStep (isOpen : Open oidOf state) {answers : Answers}
    (heard : Heard oidOf state (.thread t answers)) :
    Open oidOf (state.threadStep oidOf t answers) := by
  have held := isOpen.held
  cases pc : state.calls t with
  | outside =>
    have step : state.threadStep oidOf t answers = state := by
      simp only [Senders.threadStep, pc]
    rw [step]
    exact isOpen
  | waiting modCode varBinds =>
    by_cases free : state.sendTrapLock = none
    · have step : state.threadStep oidOf t answers =
          { state.goTo t (.locked modCode varBinds) with sendTrapLock := some t } := by
        simp only [Senders.threadStep, pc, if_pos free]
      rw [free] at held
      rw [step]
      apply open_goTo isOpen (held.lock rfl)
      · rintro _ _ ⟨⟩
      · exact isOpen.settled
    · have step : state.threadStep oidOf t answers = state := by
        simp only [Senders.threadStep, pc, if_neg free]
      rw [step]
      exact isOpen
  | locked modCode varBinds =>
    rw [Heard, pc] at heard
    have positive : ¬state.glAgentInfoAlertMgrPort ≤ 0 := Int.not_le.mpr heard
    have step : state.threadStep oidOf t answers = state.goTo t (.checked modCode varBinds) := by
      simp only [Senders.threadStep, pc, if_neg positive]
    rw [step]
    apply open_goTo isOpen
    · apply held.stay
      rw [pc]
      rfl
    · rintro _ _ ⟨⟩
    · exact isOpen.settled
  | checked modCode varBinds =>
    rw [Heard, pc] at heard
    obtain ⟨trap, sends, named⟩ :=
      Common_SendSnmptrap_delivers state.glAgentInfoAlertMgrPort modCode heard
    have step : state.threadStep oidOf t answers =
        state.goTo t (.sent varBinds ⟨some trap, false, false, 0⟩) := by
      simp only [Senders.threadStep, pc, sends]
    rw [step]
    apply open_goTo isOpen
    · apply held.stay
      rw [pc]
      rfl
    · rintro _ _ ⟨⟩
      exact ⟨trap, rfl, named⟩
    · exact isOpen.settled
  | sent varBinds attempt =>
    have inside : (state.calls t).inside = true := by
      rw [pc]
      rfl
    have step : state.threadStep oidOf t answers = { state.goTo t .outside with
        sendTrapLock := none
        returned := state.returned ++ [⟨varBinds, 0, some attempt⟩] } := by
      simp only [Senders.threadStep, pc]
    rw [step]
    apply open_goTo isOpen (held.unlock inside (by decide))
    · rintro _ _ ⟨⟩
    · intro call member
      rcases List.mem_append.mp member with before | last
      · exact isOpen.settled call before
      · rw [List.mem_singleton.mp last]
        exact settled_of_handed (isOpen.handed t varBinds attempt pc)

theorem open_step (isOpen : Open oidOf state) (event : SendEvent)
    (heard : Heard oidOf state event) : Open oidOf (state.step oidOf event) := by
  have alive : ¬state.crashed = true := by simp [isOpen.alive]
  cases event with
  | call t modCode varBinds =>
    rw [show state.step oidOf (.call t modCode varBinds) =
      if state.calls t = .outside then state.goTo t (.waiting modCode varBinds) else state
      from if_neg alive]
    split
    · rename_i out
      apply open_goTo isOpen
      · apply isOpen.held.stay
        rw [out]
        rfl
      · rintro _ _ ⟨⟩
      · exact isOpen.settled
    · exact isOpen
  | thread t answers =>
    rw [show state.step oidOf (.thread t answers) = state.threadStep oidOf t answers
      from if_neg alive]
    exact open_threadStep isOpen heard
  | setPort port =>
    rw [show state.step oidOf (.setPort port) =
      { state with glAgentInfoAlertMgrPort := port } from if_neg alive]
    constructor
    · exact isOpen.held
    · exact isOpen.handed
    · exact isOpen.settled
    · exact isOpen.alive

end Steps

section Holder

variable {oidOf : List Char → Option Oid} {state : Senders} {t : Nat}

def SendEvent.ofThread (t : Nat) : SendEvent → Bool
  | .thread u _ => u == t
  | _ => false

theorem Open.inside (isOpen : Open oidOf state) (holds : state.sendTrapLock = some t) :
    (state.calls t).inside = true := (isOpen.held t).mpr holds

theorem stepsLeft_pos {pc : CallPc} (inside : pc.inside = true) : 0 < pc.stepsLeft := by
  cases pc with
  | outside => cases inside
  | waiting => cases inside
  | locked => exact Nat.zero_lt_succ _
  | checked => exact Nat.zero_lt_succ _
  | sent => exact Nat.zero_lt_succ _

theorem holder_threadStep (isOpen : Open oidOf state) (holds : state.sendTrapLock = some t)
    {answers : Answers} (heard : Heard oidOf state (.thread t answers)) :
    (state.threadStep oidOf t answers).sendTrapLock = none ∨
      (state.threadStep oidOf t answers).sendTrapLock = some t ∧
        ((state.threadStep oidOf t answers).calls t).stepsLeft + 1 = (state.calls t).stepsLeft := by
  have inside := isOpen.inside holds
  cases pc : state.calls t with
  | outside =>
    rw [pc] at inside
    cases inside
  | waiting =>
    rw [pc] at inside
    cases inside
  | locked modCode varBinds =>
    right
    rw [Heard, pc] at heard
    have positive : ¬state.glAgentInfoAlertMgrPort ≤ 0 := Int.not_le.mpr heard
    simp only [Senders.threadStep, pc, if_neg positive]
    exact ⟨holds, by simp [Senders.goTo, CallPc.stepsLeft]⟩
  | checked modCode varBinds =>
    right
    rw [Heard, pc] at heard
    obtain ⟨trap, sends, _⟩ :=
      Common_SendSnmptrap_delivers state.glAgentInfoAlertMgrPort modCode heard
    simp only [Senders.threadStep, pc, sends]
    exact ⟨holds, by simp [Senders.goTo, CallPc.stepsLeft]⟩
  | sent varBinds attempt =>
    left
    simp only [Senders.threadStep, pc]

theorem holder_other (isOpen : Open oidOf state) (holds : state.sendTrapLock = some t)
    {event : SendEvent} (other : event.ofThread t = false) :
    (state.step oidOf event).sendTrapLock = some t ∧
      (state.step oidOf event).calls t = state.calls t := by
  have alive : ¬state.crashed = true := by simp [isOpen.alive]
  cases event with
  | call u modCode varBinds =>
    rw [show state.step oidOf (.call u modCode varBinds) =
      if state.calls u = .outside then state.goTo u (.waiting modCode varBinds) else state
      from if_neg alive]
    split
    · rename_i out
      have apart : t ≠ u := by
        intro same
        have inside := isOpen.inside holds
        rw [same, out] at inside
        cases inside
      exact ⟨holds, Function.update_of_ne apart _ _⟩
    · exact ⟨holds, rfl⟩
  | thread u answers =>
    have apart : u ≠ t := by simpa [SendEvent.ofThread] using other
    have step : state.step oidOf (.thread u answers) = state.threadStep oidOf u answers :=
      if_neg alive
    have taken : state.sendTrapLock ≠ none := by
      rw [holds]
      exact Option.some_ne_none t
    have away : (state.calls u).inside = false := by
      rw [← Bool.not_eq_true]
      intro inside
      exact apart (isOpen.held.unique (t := u) (u := t) inside (isOpen.inside holds))
    have stays : state.threadStep oidOf u answers = state := by
      cases pc : state.calls u with
      | outside => simp only [Senders.threadStep, pc]
      | waiting modCode varBinds => simp only [Senders.threadStep, pc, if_neg taken]
      | locked modCode varBinds =>
        rw [pc] at away
        cases away
      | checked modCode varBinds =>
        rw [pc] at away
        cases away
      | sent varBinds attempt =>
        rw [pc] at away
        cases away
    rw [step, stays]
    exact ⟨holds, rfl⟩
  | setPort port =>
    rw [show state.step oidOf (.setPort port) =
      { state with glAgentInfoAlertMgrPort := port } from if_neg alive]
    exact ⟨holds, rfl⟩

theorem unlocked_later {later : List SendEvent} (isOpen : Open oidOf state)
    (heard : ∀ early event, early ++ [event] <+: later →
      Heard oidOf (state.run oidOf early) event)
    (holds : state.sendTrapLock = some t)
    (enough : (state.calls t).stepsLeft ≤ later.countP (SendEvent.ofThread t)) :
    ∃ early, early <+: later ∧ (state.run oidOf early).sendTrapLock = none := by
  induction later generalizing state with
  | nil =>
    have left := stepsLeft_pos (isOpen.inside holds)
    exact absurd (Nat.lt_of_lt_of_le left enough) (Nat.lt_irrefl 0)
  | cons event later ih =>
    have first : Heard oidOf state event := heard [] event (by simp)
    have rest : ∀ early next, early ++ [next] <+: later →
        Heard oidOf ((state.step oidOf event).run oidOf early) next := by
      intro early next within
      exact heard (event :: early) next (List.cons_prefix_cons.mpr ⟨rfl, within⟩)
    have further : (state.step oidOf event).sendTrapLock = some t →
        ((state.step oidOf event).calls t).stepsLeft ≤
          later.countP (SendEvent.ofThread t) →
        ∃ early, early <+: event :: later ∧ (state.run oidOf early).sendTrapLock = none := by
      intro still left
      obtain ⟨early, within, free⟩ := ih (open_step isOpen event first) rest still left
      exact ⟨event :: early, List.cons_prefix_cons.mpr ⟨rfl, within⟩, free⟩
    rw [List.countP_cons] at enough
    cases own : event.ofThread t with
    | false =>
      obtain ⟨still, same⟩ := holder_other isOpen holds own
      apply further still
      rw [same]
      simpa [own] using enough
    | true =>
      cases event with
      | call => cases own
      | setPort => cases own
      | thread u answers =>
        have same : u = t := by simpa [SendEvent.ofThread] using own
        subst same
        have alive : ¬state.crashed = true := by simp [isOpen.alive]
        have step : state.step oidOf (.thread u answers) =
            state.threadStep oidOf u answers := if_neg alive
        rcases holder_threadStep isOpen holds first with free | ⟨still, nearer⟩
        · refine ⟨[.thread u answers], by simp, ?_⟩
          rw [← step] at free
          exact free
        · rw [← step] at still nearer
          apply further still
          rw [own] at enough
          simp only [if_true] at enough
          omega

end Holder

section Runs

variable {oidOf : List Char → Option Oid} {port : Int} {events : List SendEvent}

theorem open_monitors (port : Int) : Open oidOf (monitors port) := by
  constructor
  · intro t
    simp [monitors, CallPc.inside]
  · intro t varBinds attempt is
    cases is
  · intro call member
    cases member
  · rfl

theorem run_open
    (heard : ∀ past event, past ++ [event] <+: events →
      Heard oidOf ((monitors port).run oidOf past) event) :
    ∀ past, past <+: events → Open oidOf ((monitors port).run oidOf past) := by
  intro past
  induction past using List.reverseRecOn with
  | nil => exact fun _ => open_monitors port
  | append_singleton past event ih =>
    intro within
    have stepped : (monitors port).run oidOf (past ++ [event]) =
        ((monitors port).run oidOf past).step oidOf event := List.foldl_append
    rw [stepped]
    exact open_step (ih ((List.prefix_append past _).trans within)) event
      (heard past event within)

/-- In every run in which the port is positive when it is tested and the library takes each trap,
only a thread inside the call holds the lock, three steps of it release the lock, and each call
that has returned has left no session and no PDU, has returned 0 exactly if its trap was sent, and
has named the varbinds of the trap after all its arguments. -/
theorem alerts_never_block
    (heard : ∀ past event, past ++ [event] <+: events →
      Heard oidOf ((monitors port).run oidOf past) event) :
    ∀ past, past <+: events →
      (∀ t, ((monitors port).run oidOf past).sendTrapLock = some t →
        (((monitors port).run oidOf past).calls t).inside = true ∧
        ∀ later, past ++ later <+: events → 3 ≤ later.countP (SendEvent.ofThread t) →
          ∃ early, early <+: later ∧
            ((monitors port).run oidOf (past ++ early)).sendTrapLock = none) ∧
      ∀ call ∈ ((monitors port).run oidOf past).returned,
        (∀ attempt, call.attempt = some attempt →
          attempt.session = false ∧ attempt.pdu = false) ∧
        (call.code = 0 ↔ ∃ trap, call.trap = some trap) ∧
        ∀ trap, call.trap = some trap → Named oidOf call.varBinds trap := by
  intro past within
  have isOpen := run_open heard past within
  have split : ∀ later, (monitors port).run oidOf (past ++ later) =
      ((monitors port).run oidOf past).run oidOf later := fun _ => List.foldl_append
  constructor
  · intro t holds
    refine ⟨isOpen.inside holds, ?_⟩
    intro later inside enough
    have bound : (((monitors port).run oidOf past).calls t).stepsLeft ≤ 3 := by
      cases ((monitors port).run oidOf past).calls t <;> simp [CallPc.stepsLeft]
    have heardLater : ∀ early event, early ++ [event] <+: later →
        Heard oidOf (((monitors port).run oidOf past).run oidOf early) event := by
      intro early event before
      rw [← split]
      apply heard
      rw [List.append_assoc]
      exact ((List.prefix_append_right_inj past).mpr before).trans inside
    obtain ⟨early, before, free⟩ := unlocked_later isOpen heardLater holds (bound.trans enough)
    refine ⟨early, before, ?_⟩
    rw [split]
    exact free
  · intro call member
    have settled := isOpen.settled call member
    exact ⟨settled.released, settled.told, settled.named⟩

def taken : Answers := ⟨true, true, true, true, fun _ => true, true, "1".toList⟩

/-- A number and a text of one row, as OIDs of two lengths. -/
def alertOids (text : List Char) : Option Oid :=
  if text = ".1.3.2".toList then some [1, 3, 2]
  else if text = ".1.3".toList then some [1, 3] else none

def longThenShort : List VarBindArg :=
  [⟨".1.3.2".toList, 'i', "1".toList⟩, ⟨".1.3".toList, 's', "up".toList⟩]

theorem delivers_taken : Delivers alertOids longThenShort taken := by
  refine ⟨rfl, rfl, rfl, rfl, fun _ _ => rfl, [[1, 3, 2], [1, 3]], by decide, ?_⟩
  decide

/-- The second thread waits until the first one has sent its trap. -/
def twoAlerts : List SendEvent :=
  .call 0 "PSMN".toList longThenShort :: .call 1 "PSMN".toList longThenShort ::
    [0, 1, 0, 1, 0, 0, 1, 1, 1, 1].map fun t => .thread t taken

theorem alerts_never_block_twoAlerts :
    (∀ call ∈ ((monitors 162).run alertOids twoAlerts).returned, (∃ trap, call.trap = some trap) ∧
        ∀ trap, call.trap = some trap → Named alertOids call.varBinds trap) ∧
      ((monitors 162).run alertOids twoAlerts).returned.length = 2 := by
  have places : ∀ past ∈ twoAlerts.inits,
      ((monitors 162).run alertOids past).glAgentInfoAlertMgrPort = 162 ∧ ∀ t ≤ 1,
        ((monitors 162).run alertOids past).calls t = .checked "PSMN".toList longThenShort ∨
          (((monitors 162).run alertOids past).calls t).stepsLeft ≠ 2 := by
    decide +kernel
  have heard : ∀ past event, past ++ [event] <+: twoAlerts →
      Heard alertOids ((monitors 162).run alertOids past) event := by
    intro past event within
    have member := within.subset (List.mem_append_right past List.mem_cons_self)
    obtain ⟨port, place⟩ :=
      places past ((List.mem_inits _ _).mpr ((List.prefix_append past _).trans within))
    rcases List.mem_cons.mp member with rfl | later
    · trivial
    rcases List.mem_cons.mp later with rfl | later
    · trivial
    obtain ⟨t, one, rfl⟩ := List.mem_map.mp later
    have two : ∀ t ∈ [0, 1, 0, 1, 0, 0, 1, 1, 1, 1], t ≤ 1 := by decide
    rw [Heard]
    split
    · rw [port]
      decide
    · rename_i modCode varBinds pc
      rcases place t (two t one) with same | other
      · rw [pc] at same
        cases same
        exact delivers_taken
      · rw [pc] at other
        exact absurd rfl other
    · trivial
  have settled := (alerts_never_block heard _ (List.prefix_refl _)).2
  constructor
  · intro call member
    obtain ⟨_, told, named⟩ := settled call member
    have codes : ∀ call ∈ ((monitors 162).run alertOids twoAlerts).returned, call.code = 0 := by
      decide +kernel
    exact ⟨told.mp (codes call member), named⟩
  · decide +kernel

/-- The port is 0 when the first thread alerts, and is set afterwards. -/
theorem lock_kept :
    ¬∀ port events t, ((monitors port).run alertOids events).sendTrapLock = some t →
      (((monitors port).run alertOids events).calls t).inside = true := by
  intro always
  have inside := always 0 [.call 0 "PSMN".toList longThenShort, .thread 0 taken,
    .thread 0 taken, .setPort 162] 0 (by decide +kernel)
  exact absurd inside (by decide +kernel)

end Runs

end EveAgent.ProcMon
