import EveAgent.Rtcm.Rotation

/-! The chain of log transfers: the pending alarm makes a transfer, and the transfer registers the
next alarm. -/

namespace EveAgent.Rtcm

open Machine

section Property

/-- Whether the thread is going to register an alarm. -/
def registers : Option TransferFile → Nat
  | none => 0
  | some .finish => 0
  | some _ => 1

/-- Between the calls of the main thread, from the first logged value on. -/
def OneChain (s : Rotation) : Prop :=
  s.main = .idle → s.giRTCFirstTime = false →
    s.alarms.length + registers s.thread = 1 ∧ (s.giFTProgress = true ↔ s.thread ≠ none)

/-- The log is beyond its limit only while the thread has registered its alarm and not yet
ended; no alarm expires then; and a thread can be created. -/
def ChainKept (s : Rotation) : Statement → Prop
  | .main outcome =>
    match s.main with
    | .fstat => outcome = true → s.thread = some .finish
    | .start none => s.giFTProgress = true
    | .start (some _) => outcome = true
    | _ => True
  | .expire _ => s.giFTProgress = false
  | _ => True

end Property

section Positions

def RetrieveLog.logging : RetrieveLog → Bool
  | .idle | .check _ | .ifWrite | .fprintf | .firstTime | .ifSize | .fstat => true
  | _ => false

/-- The statements of a transfer that the size makes, while an alarm is registered. -/
def RetrieveLog.triggering : RetrieveLog → Bool
  | .unregister | .ifClose | .forget | .fclose | .clear | .start none => true
  | _ => false

inductive Chained (s : Rotation) : Prop where
  | pending (alarms : s.alarms = [s.guiRTCLogFileSendReg]) (positive : s.guiRTCLogFileSendReg ≠ 0)
      (quiet : registers s.thread = 0) (main : s.main.logging = true ∨ s.main.triggering = true)
  | sending (alarms : s.alarms = []) (sends : registers s.thread = 1)
      (main : s.main.logging = true)
  | renewing (alarms : s.alarms = []) (quiet : registers s.thread = 0)
      (main : s.main = .register)
  | expiring (alarm : Nat) (alarms : s.alarms = [alarm]) (none : s.thread = none)
      (main : s.main = .start (some alarm))

structure ChainInv (s : Rotation) : Prop where
  regnum : 0 < s.regnum
  progress : s.giFTProgress = true ↔ s.thread ≠ none
  first : s.giRTCFirstTime = true → s.alarms = [] ∧ s.thread = none ∧ s.main.logging = true
  chain : s.giRTCFirstTime = false → Chained s

structure SameAlarms (s t : Rotation) : Prop where
  alarms : t.alarms = s.alarms
  regnum : t.regnum = s.regnum
  send : t.guiRTCLogFileSendReg = s.guiRTCLogFileSendReg
  first : t.giRTCFirstTime = s.giRTCFirstTime
  progress : t.giFTProgress = s.giFTProgress
  main : t.main = s.main
  thread : t.thread = s.thread

end Positions

section Frames

variable (s : Rotation) (name : String)

theorem SameAlarms.refl : SameAlarms s s := ⟨rfl, rfl, rfl, rfl, rfl, rfl, rfl⟩

theorem fclose_same : SameAlarms s s.fclose := by
  unfold Rotation.fclose
  cases s.fpl.bind s.files.fclose with
  | none => exact ⟨rfl, rfl, rfl, rfl, rfl, rfl, rfl⟩
  | some files => exact ⟨rfl, rfl, rfl, rfl, rfl, rfl, rfl⟩

theorem fprintf_same : SameAlarms s s.fprintf := by
  unfold Rotation.fprintf
  cases s.fpl.bind fun stream => s.files.fprintf stream s.lines with
  | none => exact ⟨rfl, rfl, rfl, rfl, rfl, rfl, rfl⟩
  | some files => exact ⟨rfl, rfl, rfl, rfl, rfl, rfl, rfl⟩

theorem fstat_same : SameAlarms s s.fstat := by
  unfold Rotation.fstat
  cases s.fpl.bind s.files.streams with
  | none => exact ⟨rfl, rfl, rfl, rfl, rfl, rfl, rfl⟩
  | some inode => exact ⟨rfl, rfl, rfl, rfl, rfl, rfl, rfl⟩

theorem check_same (position : CheckLogFile) :
    SameAlarms s (s.rtcCheckLogFileName name position).1 := by
  cases position with
  | test => exact .refl s
  | ifOpen => exact .refl s
  | fclose => exact fclose_same s
  | clear => exact ⟨rfl, rfl, rfl, rfl, rfl, rfl, rfl⟩
  | fopen => exact ⟨rfl, rfl, rfl, rfl, rfl, rfl, rfl⟩
  | save => exact ⟨rfl, rfl, rfl, rfl, rfl, rfl, rfl⟩

end Frames

section Steps

variable {s t u : Rotation} {name : String}

theorem logging_or_triggering (main : RetrieveLog) (logging : main.logging = true)
    (triggering : main.triggering = true) : False := by
  cases main with
  | start expiring => cases logging
  | idle => cases triggering
  | check position => cases triggering
  | ifWrite => cases triggering
  | fprintf => cases triggering
  | firstTime => cases triggering
  | ifSize => cases triggering
  | fstat => cases triggering
  | unregister => cases logging
  | register => cases logging
  | ifClose => cases logging
  | forget => cases logging
  | fclose => cases logging
  | clear => cases logging

theorem ChainInv.moved (inv : ChainInv s) (same : SameAlarms s u) {next : RetrieveLog}
    (goes : s.main.logging = true ∧ next.logging = true ∨
      s.main.triggering = true ∧ (next.logging = true ∨ next.triggering = true)) :
    ChainInv { u with main := next } := by
  have logs : s.main.logging = true → next.logging = true := by
    intro logging
    rcases goes with goes | goes
    · exact goes.2
    · exact (logging_or_triggering s.main logging goes.1).elim
  constructor
  · dsimp only
    rw [same.regnum]
    exact inv.regnum
  · dsimp only
    rw [same.progress, same.thread]
    exact inv.progress
  · dsimp only
    rw [same.first, same.alarms, same.thread]
    intro first
    obtain ⟨alarms, thread, logging⟩ := inv.first first
    exact ⟨alarms, thread, logs logging⟩
  · dsimp only
    rw [same.first]
    intro first
    cases inv.chain first with
    | pending alarms positive quiet main =>
      apply Chained.pending
      · dsimp only
        rw [same.alarms, same.send]
        exact alarms
      · dsimp only
        rw [same.send]
        exact positive
      · dsimp only
        rw [same.thread]
        exact quiet
      · rcases goes with goes | goes
        · exact .inl goes.2
        · exact goes.2
    | sending alarms sends main =>
      apply Chained.sending
      · dsimp only
        rw [same.alarms]
        exact alarms
      · dsimp only
        rw [same.thread]
        exact sends
      · exact logs main
    | renewing alarms quiet main =>
      rw [main] at goes
      rcases goes with goes | goes
      · cases goes.1
      · cases goes.1
    | expiring alarm alarms none main =>
      rw [main] at goes
      rcases goes with goes | goes
      · cases goes.1
      · cases goes.1

theorem registers_running {thread : Option TransferFile} (busy : registers thread = 1) :
    thread ≠ none := by
  intro none
  rw [none] at busy
  cases busy

theorem ChainInv.working (inv : ChainInv s) (busy : registers s.thread = 1)
    (alarms : u.alarms = s.alarms) (regnum : u.regnum = s.regnum)
    (first : u.giRTCFirstTime = s.giRTCFirstTime) (progress : u.giFTProgress = s.giFTProgress)
    (main : u.main = s.main) (works : registers u.thread = 1) : ChainInv u := by
  constructor
  · rw [regnum]
    exact inv.regnum
  · rw [progress]
    constructor
    · intro _
      exact registers_running works
    · intro _
      exact inv.progress.mpr (registers_running busy)
  · rw [first]
    intro first
    exact absurd (inv.first first).2.1 (registers_running busy)
  · rw [first]
    intro first
    cases inv.chain first with
    | pending _ _ quiet _ =>
      rw [busy] at quiet
      cases quiet
    | sending empty _ logging =>
      apply Chained.sending
      · exact alarms.trans empty
      · exact works
      · rw [main]
        exact logging
    | renewing _ quiet _ =>
      rw [busy] at quiet
      cases quiet
    | expiring _ _ none _ => exact absurd none (registers_running busy)

theorem ChainInv.registered (inv : ChainInv s) (busy : registers s.thread = 1) :
    ChainInv { s.registerSend with thread := some .finish } := by
  constructor
  · exact Nat.succ_pos _
  · constructor
    · intro _ none
      cases none
    · intro _
      exact inv.progress.mpr (registers_running busy)
  · intro first
    exact absurd (inv.first first).2.1 (registers_running busy)
  · intro first
    cases inv.chain first with
    | pending _ _ quiet _ =>
      rw [busy] at quiet
      cases quiet
    | sending empty _ logging =>
      apply Chained.pending
      · show s.alarms ++ [s.regnum] = [s.regnum]
        rw [empty, List.nil_append]
      · exact Nat.ne_of_gt inv.regnum
      · rfl
      · exact .inl logging
    | renewing _ quiet _ =>
      rw [busy] at quiet
      cases quiet
    | expiring _ _ none _ => exact absurd none (registers_running busy)

theorem ChainInv.ended (inv : ChainInv s) (ends : s.thread = some .finish) :
    ChainInv { s with giFTProgress := false, thread := none } := by
  have running : s.thread ≠ none := by
    rw [ends]
    exact Option.some_ne_none _
  have quiet' : registers s.thread = 0 := by
    rw [ends]
    rfl
  constructor
  · exact inv.regnum
  · constructor
    · intro progress
      cases progress
    · intro running
      exact absurd rfl running
  · intro first
    exact absurd (inv.first first).2.1 running
  · intro first
    cases inv.chain first with
    | pending alarms positive _ main => exact .pending alarms positive rfl main
    | sending _ sends _ =>
      rw [quiet'] at sends
      cases sends
    | renewing alarms _ main => exact .renewing alarms rfl main
    | expiring _ _ none _ => exact absurd none running

theorem thread_chain (inv : ChainInv s) (stepped : s.rtcTransferFile name = some t) :
    ChainInv t := by
  unfold Rotation.rtcTransferFile at stepped
  cases position : s.thread with
  | none =>
    rw [position] at stepped
    cases stepped
  | some statement =>
    have busy : statement ≠ .finish → registers s.thread = 1 := by
      intro more
      rw [position]
      cases statement with
      | finish => exact absurd rfl more
      | _ => rfl
    rw [position] at stepped
    cases statement
    all_goals rw [← Option.some.inj stepped]
    case ifClose =>
      refine inv.working (busy (by decide)) rfl rfl rfl rfl rfl ?_
      dsimp only
      split
      · rfl
      · rfl
    case fclose =>
      have same := fclose_same s
      exact inv.working (busy (by decide)) same.alarms same.regnum same.first same.progress
        same.main rfl
    case check next =>
      have same := check_same s name next
      refine inv.working (busy (by simp)) same.alarms same.regnum same.first same.progress
        same.main ?_
      dsimp only
      split
      · rfl
      · rfl
    case register => exact inv.registered (busy (by decide))
    case finish => exact inv.ended position
    all_goals exact inv.working (busy (by decide)) rfl rfl rfl rfl rfl rfl

theorem ChainInv.begun (inv : ChainInv s) (first : s.giRTCFirstTime = true) :
    ChainInv { s.registerSend with giRTCFirstTime := false, main := .ifSize } := by
  obtain ⟨alarms, thread, _⟩ := inv.first first
  constructor
  · exact Nat.succ_pos _
  · exact inv.progress
  · intro again
    cases again
  · intro _
    apply Chained.pending
    · show s.alarms ++ [s.regnum] = [s.regnum]
      rw [alarms, List.nil_append]
    · exact Nat.ne_of_gt inv.regnum
    · show registers s.thread = 0
      rw [thread]
      rfl
    · exact .inl rfl

theorem ChainInv.exceeded (inv : ChainInv s) (same : SameAlarms s u) (main : s.main = .fstat)
    (registered : s.thread = some .finish) : ChainInv { u with main := .unregister } := by
  have running : s.thread ≠ none := by
    rw [registered]
    exact Option.some_ne_none _
  constructor
  · dsimp only
    rw [same.regnum]
    exact inv.regnum
  · dsimp only
    rw [same.progress, same.thread]
    exact inv.progress
  · dsimp only
    rw [same.first]
    intro first
    exact absurd (inv.first first).2.1 running
  · dsimp only
    rw [same.first]
    intro first
    cases inv.chain first with
    | pending alarms positive quiet _ =>
      apply Chained.pending
      · dsimp only
        rw [same.alarms, same.send]
        exact alarms
      · dsimp only
        rw [same.send]
        exact positive
      · dsimp only
        rw [same.thread]
        exact quiet
      · exact .inr rfl
    | sending _ sends _ =>
      rw [registered] at sends
      cases sends
    | renewing _ _ other =>
      rw [main] at other
      cases other
    | expiring _ _ none _ => exact absurd none running

theorem ChainInv.triggered (inv : ChainInv s) (main : s.main.triggering = true) :
    s.giRTCFirstTime = false ∧ s.alarms = [s.guiRTCLogFileSendReg] ∧
      s.guiRTCLogFileSendReg ≠ 0 ∧ registers s.thread = 0 := by
  cases first : s.giRTCFirstTime with
  | true => exact (logging_or_triggering s.main (inv.first first).2.2 main).elim
  | false =>
    cases inv.chain first with
    | pending alarms positive quiet _ => exact ⟨rfl, alarms, positive, quiet⟩
    | sending _ _ logging => exact (logging_or_triggering s.main logging main).elim
    | renewing _ _ other =>
      rw [other] at main
      cases main
    | expiring _ _ _ other =>
      rw [other] at main
      cases main

theorem ChainInv.unregistered (inv : ChainInv s) (main : s.main = .unregister) :
    ChainInv { s.unregisterSend s.guiRTCLogFileSendReg with main := .register } := by
  obtain ⟨first, alarms, _, quiet⟩ := inv.triggered (by rw [main]; rfl)
  constructor
  · exact inv.regnum
  · exact inv.progress
  · intro again
    have same : s.giRTCFirstTime = true := again
    rw [first] at same
    cases same
  · intro _
    apply Chained.renewing
    · show (s.alarms.filter fun alarm => alarm != s.guiRTCLogFileSendReg) = []
      rw [alarms]
      simp
    · exact quiet
    · rfl

theorem ChainInv.renewed (inv : ChainInv s) (main : s.main = .register) :
    ChainInv { s.registerSend with main := .ifClose } := by
  have later : s.giRTCFirstTime = false := by
    cases first : s.giRTCFirstTime with
    | true =>
      have logging := (inv.first first).2.2
      rw [main] at logging
      cases logging
    | false => rfl
  constructor
  · exact Nat.succ_pos _
  · exact inv.progress
  · intro again
    have same : s.giRTCFirstTime = true := again
    rw [later] at same
    cases same
  · intro _
    cases inv.chain later with
    | pending _ _ _ other =>
      rw [main] at other
      rcases other with other | other
      · cases other
      · cases other
    | sending _ _ other =>
      rw [main] at other
      cases other
    | renewing empty quiet _ =>
      apply Chained.pending
      · show s.alarms ++ [s.regnum] = [s.regnum]
        rw [empty, List.nil_append]
      · exact Nat.ne_of_gt inv.regnum
      · exact quiet
      · exact .inr rfl
    | expiring _ _ _ other =>
      rw [main] at other
      cases other

theorem ChainInv.started {alarm : Nat} (inv : ChainInv s) (main : s.main = .start (some alarm)) :
    s.giFTProgress = false ∧
      ChainInv { Rotation.unregisterSend
          { s with giFTProgress := true, thread := some .reset } alarm with main := .idle } := by
  have later : s.giRTCFirstTime = false := by
    cases first : s.giRTCFirstTime with
    | true =>
      have logging := (inv.first first).2.2
      rw [main] at logging
      cases logging
    | false => rfl
  cases inv.chain later with
  | pending _ _ _ other =>
    rw [main] at other
    rcases other with other | other
    · cases other
    · cases other
  | sending _ _ other =>
    rw [main] at other
    cases other
  | renewing _ _ other =>
    rw [main] at other
    cases other
  | expiring alarm' alarms none other =>
    rw [main] at other
    obtain rfl := Option.some.inj (RetrieveLog.start.inj other)
    constructor
    · rw [← Bool.not_eq_true, inv.progress, none]
      exact not_not.mpr rfl
    · constructor
      · exact inv.regnum
      · constructor
        · intro _ none
          cases none
        · intro _
          rfl
      · intro again
        have same : s.giRTCFirstTime = true := again
        rw [later] at same
        cases same
      · intro _
        apply Chained.sending
        · show (s.alarms.filter fun other => other != alarm) = []
          rw [alarms]
          simp
        · rfl
        · rfl

theorem ChainInv.expires {alarm : Nat} (inv : ChainInv s) (main : s.main = .idle)
    (member : alarm ∈ s.alarms) (free : s.giFTProgress = false) :
    ChainInv { s with main := .start (some alarm) } := by
  have none : s.thread = none := by
    by_contra running
    rw [inv.progress.mpr running] at free
    cases free
  have later : s.giRTCFirstTime = false := by
    cases first : s.giRTCFirstTime with
    | true =>
      rw [(inv.first first).1] at member
      cases member
    | false => rfl
  constructor
  · exact inv.regnum
  · exact inv.progress
  · intro again
    have same : s.giRTCFirstTime = true := again
    rw [later] at same
    cases same
  · intro _
    cases inv.chain later with
    | pending alarms _ _ _ =>
      rw [alarms, List.mem_singleton] at member
      exact .expiring alarm (by rw [member]; exact alarms) none rfl
    | sending alarms _ _ =>
      rw [alarms] at member
      cases member
    | renewing alarms _ _ =>
      rw [alarms] at member
      cases member
    | expiring _ _ _ other =>
      rw [main] at other
      cases other

theorem main_chain {outcome : Bool} (inv : ChainInv s) (kept : ChainKept s (.main outcome))
    (stepped : s.rtcRetrieveLogVariable name outcome = some t) : ChainInv t := by
  unfold Rotation.rtcRetrieveLogVariable at stepped
  unfold ChainKept at kept
  dsimp only at kept
  cases main : s.main
  all_goals rw [main] at stepped
  case idle => cases stepped
  case firstTime =>
    dsimp only at stepped
    by_cases first : s.giRTCFirstTime = true
    · rw [if_pos first] at stepped
      rw [← Option.some.inj stepped]
      exact inv.begun first
    · rw [if_neg first] at stepped
      rw [← Option.some.inj stepped]
      exact inv.moved (.refl s) (.inl ⟨by rw [main]; rfl, rfl⟩)
  case fstat =>
    rw [main] at kept
    cases outcome with
    | true =>
      rw [← Option.some.inj stepped]
      exact inv.exceeded (fstat_same s) main (kept rfl)
    | false =>
      rw [← Option.some.inj stepped]
      exact inv.moved (fstat_same s) (.inl ⟨by rw [main]; rfl, rfl⟩)
  case unregister =>
    have positive := (inv.triggered (by rw [main]; rfl)).2.2.1
    dsimp only at stepped
    rw [if_pos positive] at stepped
    rw [← Option.some.inj stepped]
    exact inv.unregistered main
  case start expiring =>
    rw [main] at kept
    cases expiring with
    | none =>
      have busy : s.giFTProgress = true := kept
      dsimp only at stepped
      rw [if_pos busy] at stepped
      rw [← Option.some.inj stepped]
      exact inv.moved (.refl s) (.inr ⟨by rw [main]; rfl, .inl rfl⟩)
    | some alarm =>
      have created : outcome = true := kept
      subst created
      obtain ⟨free, started⟩ := inv.started main
      dsimp only at stepped
      rw [if_neg (by rw [free]; exact Bool.false_ne_true), if_pos rfl] at stepped
      rw [← Option.some.inj stepped]
      exact started
  all_goals rw [← Option.some.inj stepped]
  case check position =>
    apply inv.moved (check_same s name position)
    refine .inl ⟨by rw [main]; rfl, ?_⟩
    split
    · rfl
    · rfl
  case ifWrite | ifSize =>
    apply inv.moved (.refl s)
    refine .inl ⟨by rw [main]; rfl, ?_⟩
    split
    · rfl
    · rfl
  case fprintf => exact inv.moved (fprintf_same s) (.inl ⟨by rw [main]; rfl, rfl⟩)
  case register => exact inv.renewed main
  case ifClose =>
    apply inv.moved (.refl s)
    refine .inr ⟨by rw [main]; rfl, .inr ?_⟩
    split
    · rfl
    · rfl
  case forget =>
    have same : SameAlarms s { s with szSavedLogFile := rtcDefaultLogfile } :=
      ⟨rfl, rfl, rfl, rfl, rfl, rfl, rfl⟩
    exact inv.moved same (.inr ⟨by rw [main]; rfl, .inr rfl⟩)
  case fclose => exact inv.moved (fclose_same s) (.inr ⟨by rw [main]; rfl, .inr rfl⟩)
  case clear =>
    have same : SameAlarms s { s with fpl := none } := ⟨rfl, rfl, rfl, rfl, rfl, rfl, rfl⟩
    exact inv.moved same (.inr ⟨by rw [main]; rfl, .inr rfl⟩)

theorem step_chain {statement : Statement} (inv : ChainInv s) (kept : ChainKept s statement)
    (stepped : s.step name statement = some t) : ChainInv t := by
  unfold Rotation.step at stepped
  cases statement with
  | retrieve =>
    dsimp only at stepped
    split at stepped
    · rename_i main
      rw [← Option.some.inj stepped]
      exact inv.moved (.refl s) (.inl ⟨by rw [main]; rfl, rfl⟩)
    · cases stepped
  | expire alarm =>
    dsimp only at stepped
    split at stepped
    · rename_i both
      rw [← Option.some.inj stepped]
      exact inv.expires both.1 both.2 kept
    · cases stepped
  | main outcome => exact main_chain inv kept stepped
  | thread => exact thread_chain inv stepped

theorem ChainInv.oneChain (inv : ChainInv s) : OneChain s := by
  intro idle later
  constructor
  · cases inv.chain later with
    | pending alarms _ quiet _ => rw [alarms, quiet, List.length_singleton]
    | sending alarms sends _ => rw [alarms, sends, List.length_nil]
    | renewing _ _ main =>
      rw [idle] at main
      cases main
    | expiring _ _ _ main =>
      rw [idle] at main
      cases main
  · exact inv.progress

theorem initial_chain : ChainInv Rotation.initial := by
  constructor
  · exact Nat.one_pos
  · constructor
    · intro progress
      cases progress
    · intro running
      exact absurd rfl running
  · intro _
    exact ⟨rfl, rfl, rfl⟩
  · intro later
    cases later

/-- In a run in which the chain is kept, one alarm is pending or one transfer will register it. -/
theorem oneChain_kept {statements : List Statement}
    (kept : Along (Rotation.step name) ChainKept Rotation.initial statements)
    (executed : run (Rotation.step name) Rotation.initial statements = some s) : OneChain s := by
  have step : ∀ (s : Rotation) statement t, ChainInv s → ChainKept s statement →
      Rotation.step name s statement = some t → ChainInv t := by
    intro s statement t inv kept stepped
    exact step_chain inv kept stepped
  exact (run_invariant step initial_chain kept executed).oneChain

end Steps

section Broken

instance (s : Rotation) : Decidable (OneChain s) := by
  unfold OneChain
  infer_instance

instance (s : Rotation) (statement : Statement) : Decidable (ChainKept s statement) := by
  unfold ChainKept
  cases statement with
  | main outcome =>
    dsimp only
    cases s.main with
    | start expiring =>
      cases expiring with
      | none => exact inferInstanceAs (Decidable (_ = true))
      | some alarm => exact inferInstanceAs (Decidable (_ = true))
    | fstat => exact inferInstanceAs (Decidable (_ → _))
    | _ => exact .isTrue trivial
  | expire alarm => exact inferInstanceAs (Decidable (_ = false))
  | retrieve => exact .isTrue trivial
  | thread => exact .isTrue trivial

/-- The first value is logged, and the limit is not reached. -/
def loggedOnce : List Statement := .retrieve :: List.replicate 9 (.main false)

def transferredOnce : List Statement :=
  loggedOnce ++ [.expire 1, .main true] ++ List.replicate 13 .thread

theorem oneChain_kept_transferredOnce :
    ∃ s, run (Rotation.step "log") Rotation.initial transferredOnce = some s ∧ s.alarms = [2] ∧
      s.thread = none ∧ OneChain s := by
  obtain ⟨s, executed, alarms, thread⟩ :
      ∃ s, run (Rotation.step "log") Rotation.initial transferredOnce = some s ∧ s.alarms = [2] ∧
        s.thread = none := by
    apply run_of_any
    decide +kernel
  have kept : Along (Rotation.step "log") ChainKept Rotation.initial transferredOnce := by
    decide +kernel
  exact ⟨s, executed, alarms, thread, oneChain_kept kept executed⟩

/-- The second value is beyond the limit: its transfer leaves an alarm pending. -/
theorem chain_doubled :
    ¬ ∀ (name : String) (statements : List Statement) (s : Rotation),
      run (Rotation.step name) Rotation.initial statements = some s → OneChain s := by
  intro one
  obtain ⟨s, executed, doubled⟩ : ∃ s, run (Rotation.step "log") Rotation.initial
      (loggedOnce ++ .retrieve :: List.replicate 5 (.main false) ++
        List.replicate 8 (.main true)) = some s ∧
      ¬ OneChain s := by
    apply run_of_any
    decide +kernel
  exact doubled (one "log" _ s executed)

theorem chain_broken :
    ∃ s, run (Rotation.step "log") Rotation.initial (loggedOnce ++ [.expire 1, .main false]) =
      some s ∧ s.main = .idle ∧ s.alarms = [] ∧ s.thread = none ∧ s.giFTProgress = true := by
  apply run_of_any
  decide +kernel

end Broken

end EveAgent.Rtcm
