import EveAgent.CText
import EveAgent.Machine
import EveAgent.Mutex

namespace EveAgent.Backup

section Threads

/-- `C_MAX_SIZE` -/
def cMaxSize : Nat := 1000000

inductive Flush where
  | doBackup
  | sendLogFile
  deriving DecidableEq, Repr

/-- Statements of `BM_DoBackup` behind its transfer and of `BM_SendLogFile`; each phase is
named after the statement that comes next. -/
inductive Phase where
  | idle
  | lockToAppend (localBuff : Text)
  | strcat (localBuff : Text)
  | strlen
  | unlockAppended (iTotLen : Nat)
  | compare (iTotLen : Nat)
  | lockToFlush (path : Flush)
  | test (path : Flush)
  | fprintf (path : Flush)
  | memsetPrinted
  | fclose (path : Flush)
  | forget (path : Flush)
  | memset (path : Flush)
  | unlockFlushed (path : Flush)
  | sendFile (path : Flush)
  | getAgentInfo
  | unlockAgentInfo
  | lockToOpen
  | fopen
  | unlockOpened
  | fopenUnlocked
  | lastUnlock
  | ended
  deriving DecidableEq, Repr

/-- The shared variables, the streams that are open and those with text that `fclose` has to
write out, and the threads. The last four fields record the past: the lines appended, what
has been written to the open file, what has been cleared, and whether a thread has unlocked
the mutex without holding it. -/
structure State where
  mutex : Option Nat
  charBuff : Text
  fpForBM : Option Nat
  opened : List Nat
  buffered : List Nat
  phase : Nat → Phase
  appended : List Text
  written : Text
  cleared : Text
  misused : Bool

def start : State where
  mutex := none
  charBuff := []
  fpForBM := some 0
  opened := [0]
  buffered := []
  phase := fun _ => .idle
  appended := []
  written := []
  cleared := []
  misused := false

/-- A turn of a thread tells whether the call that it makes succeeds. `settings` is one of
the sections of `BM_GetAgentInfoMIB` and `BM_ScheduleLogInfo` that hold the mutex. -/
inductive Label where
  | doBackup (thread : Nat) (localBuff : Text)
  | sendLogFile (thread : Nat)
  | settings (thread : Nat)
  | turn (thread : Nat) (succeeds : Bool)
  deriving DecidableEq, Repr

def State.goto (s : State) (thread : Nat) (phase : Phase) : State :=
  { s with phase := Function.update s.phase thread phase }

/-- `pthread_mutex_lock` -/
def State.lock (s : State) (thread : Nat) (phase : Phase) : Option State :=
  if s.mutex = none then some ({ s with mutex := some thread }.goto thread phase) else none

/-- `pthread_mutex_unlock` releases the mutex, whoever holds it. -/
def State.unlock (s : State) (thread : Nat) (phase : Phase) : State :=
  { s with
    mutex := none
    misused := s.misused || decide (s.mutex ≠ some thread) }.goto thread phase

/-- `fprintf` of the buffer; a stream that is not open takes nothing. -/
def State.print (s : State) : State :=
  match s.fpForBM with
  | none => s
  | some stream =>
    if stream ∈ s.opened then
      { s with written := s.written ++ s.charBuff, buffered := stream :: s.buffered }
    else s

def State.close (s : State) : State :=
  { s with
    opened := s.opened.filter fun stream => s.fpForBM ≠ some stream
    buffered := s.buffered.filter fun stream => s.fpForBM ≠ some stream }

def State.clear (s : State) : State :=
  { s with charBuff := [], cleared := s.cleared ++ s.charBuff }

def State.freshStream (s : State) : Nat := s.opened.foldr max 0 + s.fpForBM.getD 0 + 1

def State.open (s : State) (succeeds : Bool) : State :=
  if succeeds then
    { s with fpForBM := some s.freshStream, opened := s.freshStream :: s.opened }
  else { s with fpForBM := none }

section Fields

variable (s : State) (succeeds : Bool)

@[simp] theorem print_charBuff : s.print.charBuff = s.charBuff := by
  rw [State.print]
  repeat (first | rfl | split)

@[simp] theorem print_appended : s.print.appended = s.appended := by
  rw [State.print]
  repeat (first | rfl | split)

@[simp] theorem print_cleared : s.print.cleared = s.cleared := by
  rw [State.print]
  repeat (first | rfl | split)

@[simp] theorem print_misused : s.print.misused = s.misused := by
  rw [State.print]
  repeat (first | rfl | split)

@[simp] theorem open_charBuff : (s.open succeeds).charBuff = s.charBuff := by cases succeeds <;> rfl

@[simp] theorem open_appended : (s.open succeeds).appended = s.appended := by cases succeeds <;> rfl

@[simp] theorem open_written : (s.open succeeds).written = s.written := by cases succeeds <;> rfl

@[simp] theorem open_cleared : (s.open succeeds).cleared = s.cleared := by cases succeeds <;> rfl

@[simp] theorem open_buffered : (s.open succeeds).buffered = s.buffered := by cases succeeds <;> rfl

@[simp] theorem open_misused : (s.open succeeds).misused = s.misused := by cases succeeds <;> rfl

end Fields

def turn (s : State) (thread : Nat) (succeeds : Bool) : Option State :=
  match s.phase thread with
  | .idle => none
  | .lockToAppend localBuff => s.lock thread (.strcat localBuff)
  | .strcat localBuff =>
    some ({ s with
      charBuff := s.charBuff ++ localBuff
      appended := s.appended ++ [localBuff] }.goto thread .strlen)
  | .strlen => some (s.goto thread (.unlockAppended s.charBuff.length))
  | .unlockAppended iTotLen => some (s.unlock thread (.compare iTotLen))
  | .compare iTotLen =>
    some (s.goto thread
      (if cMaxSize - 200 < iTotLen then .lockToFlush .doBackup else .lastUnlock))
  | .lockToFlush path => s.lock thread (.test path)
  | .test path => some (s.goto thread (if s.fpForBM = none then .memset path else .fprintf path))
  | .fprintf .doBackup => some (s.print.goto thread .memsetPrinted)
  | .fprintf .sendLogFile => some (s.print.goto thread (.fclose .sendLogFile))
  | .memsetPrinted => some (s.clear.goto thread (.fclose .doBackup))
  | .fclose path => some (s.close.goto thread (.forget path))
  | .forget path => some ({ s with fpForBM := none }.goto thread (.memset path))
  | .memset path => some (s.clear.goto thread (.unlockFlushed path))
  | .unlockFlushed path => some (s.unlock thread (.sendFile path))
  | .sendFile .doBackup => some (s.goto thread .fopenUnlocked)
  | .sendFile .sendLogFile => some (s.goto thread .getAgentInfo)
  | .getAgentInfo => some (s.goto thread (if succeeds then .lockToOpen else .ended))
  | .unlockAgentInfo => some (s.unlock thread .getAgentInfo)
  | .lockToOpen => s.lock thread .fopen
  | .fopen => some ((s.open succeeds).goto thread .unlockOpened)
  | .unlockOpened => some (s.unlock thread .ended)
  | .fopenUnlocked =>
    -- the branch for a failed `fopen` ends the thread
    some ((s.open succeeds).goto thread (if succeeds then .lastUnlock else .ended))
  | .lastUnlock => some (s.unlock thread .ended)
  | .ended => none

def step (s : State) : Label → Option State
  | .doBackup thread localBuff =>
    if s.phase thread = .idle then some (s.goto thread (.lockToAppend localBuff)) else none
  | .sendLogFile thread =>
    if s.phase thread = .idle then some (s.goto thread (.lockToFlush .sendLogFile)) else none
  | .settings thread =>
    if s.phase thread = .getAgentInfo then s.lock thread .unlockAgentInfo else none
  | .turn thread succeeds => turn s thread succeeds

end Threads

section Lock

/-- Where a thread stands: outside of the sections that hold the mutex, inside of one, behind
the test that has found the file open, behind the writing, behind the closing, or where the
stream is forgotten. -/
inductive Part where
  | outside
  | inside
  | tested
  | printed
  | closed
  | forgotten
  deriving DecidableEq, Repr

def Phase.part : Phase → Part
  | .strcat _ | .strlen | .unlockAppended _ | .test _ | .unlockFlushed _ => .inside
  | .unlockAgentInfo | .fopen | .unlockOpened => .inside
  | .fprintf _ => .tested
  | .memsetPrinted | .fclose _ => .printed
  | .forget _ => .closed
  | .memset _ => .forgotten
  | _ => .outside

def Phase.critical (phase : Phase) : Prop := phase.part ≠ .outside

/-- What a step does, by the part in which its thread stands before and behind it. -/
inductive Effect (s : State) : Label → State → Prop where
  | outside {label thread next} (before : (s.phase thread).part = .outside)
      (behind : next.part = .outside) : Effect s label (s.goto thread next)
  | lock {label thread next} (free : s.mutex = none) (behind : next.part = .inside) :
      Effect s label ({ s with mutex := some thread }.goto thread next)
  | unlock {label thread next} (before : (s.phase thread).part = .inside)
      (behind : next.part = .outside) : Effect s label (s.unlock thread next)
  | lastUnlock {thread succeeds} (phase : s.phase thread = .lastUnlock) :
      Effect s (.turn thread succeeds) (s.unlock thread .ended)
  | reopen {thread succeeds next} (phase : s.phase thread = .fopenUnlocked)
      (behind : next.part = .outside) :
      Effect s (.turn thread succeeds) ((s.open succeeds).goto thread next)
  | append {thread succeeds localBuff} (phase : s.phase thread = .strcat localBuff) :
      Effect s (.turn thread succeeds) ({ s with
        charBuff := s.charBuff ++ localBuff
        appended := s.appended ++ [localBuff] }.goto thread .strlen)
  | inside {label thread next} (before : (s.phase thread).part = .inside)
      (behind : next.part = .inside) : Effect s label (s.goto thread next)
  | open {label thread succeeds next} (before : (s.phase thread).part = .inside)
      (behind : next.part = .inside) : Effect s label ((s.open succeeds).goto thread next)
  | found {label thread next} (before : (s.phase thread).part = .inside)
      (behind : next.part = .tested) (found : s.fpForBM ≠ none) :
      Effect s label (s.goto thread next)
  | missing {thread succeeds path next} (phase : s.phase thread = .test path)
      (behind : next.part = .forgotten) (missing : s.fpForBM = none) :
      Effect s (.turn thread succeeds) (s.goto thread next)
  | print {label thread next} (before : (s.phase thread).part = .tested)
      (behind : next.part = .printed) : Effect s label (s.print.goto thread next)
  | clearPrinted {label thread next} (before : (s.phase thread).part = .printed)
      (behind : next.part = .printed) : Effect s label (s.clear.goto thread next)
  | clear {label thread next} (before : (s.phase thread).part = .forgotten)
      (behind : next.part = .inside) : Effect s label (s.clear.goto thread next)
  | close {label thread next} (before : (s.phase thread).part = .printed)
      (behind : next.part = .closed) : Effect s label (s.close.goto thread next)
  | forget {label thread next} (before : (s.phase thread).part = .closed)
      (behind : next.part = .forgotten) :
      Effect s label ({ s with fpForBM := none }.goto thread next)

variable {s t : State} {label : Label} {thread : Nat} {next : Phase} {succeeds : Bool}

/-- The threads inside are those that hold the mutex. -/
def State.Held (s : State) : Prop := Mutex.Held Phase.critical s.mutex s.phase

/-- The unlock at the end of `BM_DoBackup` is harmless while the mutex is free. -/
def Harmless (s : State) : Label → Prop
  | .turn thread _ => s.phase thread = .lastUnlock → s.mutex = none
  | _ => True

instance (s : State) (label : Label) : Decidable (Harmless s label) := by
  unfold Harmless
  split <;> infer_instance

theorem State.Held.goto {u : State} (held : s.Held) (mutex : u.mutex = s.mutex)
    (phases : u.phase = s.phase)
    (same : next.part = .outside ↔ (s.phase thread).part = .outside) :
    (u.goto thread next).Held := by
  rw [State.Held, State.goto, mutex, phases]
  exact Mutex.Held.stay held (not_congr same)

end Lock

section Content

/-- The part in which the holder of the mutex stands. -/
def State.part (s : State) : Part :=
  match s.mutex with
  | none => .outside
  | some thread => (s.phase thread).part

/-- The buffer has been written and not been cleared. -/
def Part.pending (part : Part) : Prop := part = .printed ∨ part = .closed ∨ part = .forgotten

/-- How the buffer, the file and the stream stand to each other. -/
structure Content (s : State) (part : Part) : Prop where
  pending : part.pending → s.written = s.cleared ++ s.charBuff
  settled : ¬ part.pending → s.written = s.cleared
  found : part = .tested → s.fpForBM ≠ none
  valid : part ≠ .closed → ∀ stream ∈ s.fpForBM, stream ∈ s.opened
  buffered : ∀ stream ∈ s.buffered, part = .printed ∧ s.fpForBM = some stream

/-- A flush finds the file open or nothing to write, the file is not opened while another
thread writes to it, and no thread unlocks the mutex while another one holds it. -/
def Steady (s : State) : Label → Prop
  | .turn thread _ =>
    match s.phase thread with
    | .test _ => s.fpForBM ≠ none ∨ s.charBuff = []
    | .fopenUnlocked => s.part ≠ .tested ∧ s.part ≠ .printed ∧ s.part ≠ .closed
    | .lastUnlock => s.mutex = none
    | _ => True
  | _ => True

instance (s : State) (label : Label) : Decidable (Steady s label) := by
  unfold Steady
  split
  · split <;> infer_instance
  · infer_instance

variable {s t u : State} {label : Label} {labels : List Label} {thread : Nat} {next : Phase}
  {place : Part} {succeeds : Bool}

theorem Steady.harmless (steady : Steady s label) : Harmless s label := by
  cases label with
  | turn thread succeeds =>
    intro phase
    simpa [Steady, phase] using steady
  | _ => trivial

theorem Content.goto (content : Content u place) : Content (u.goto thread next) place :=
  ⟨content.pending, content.settled, content.found, content.valid, content.buffered⟩

theorem State.Held.part (held : s.Held) (inside : (s.phase thread).part ≠ .outside) :
    s.part = (s.phase thread).part := by
  rw [State.part, (held thread).mp inside]

theorem Content.unbuffered (content : Content s place) (apart : place ≠ .printed) :
    s.buffered = [] := by
  rw [List.eq_nil_iff_forall_not_mem]
  intro stream member
  exact apart (content.buffered stream member).1

theorem Content.move {place' : Part} (content : Content s place) (settled : ¬ place.pending)
    (settled' : ¬ place'.pending) (found : place' = .tested → s.fpForBM ≠ none) :
    Content s place' := by
  have apart : place ≠ .printed := fun here => settled (.inl here)
  have open' : place ≠ .closed := fun here => settled (.inr (.inl here))
  constructor
  · exact fun pending => absurd pending settled'
  · exact fun _ => content.settled settled
  · exact found
  · exact fun _ => content.valid open'
  · intro stream member
    rw [content.unbuffered apart] at member
    cases member

theorem Content.open (content : Content s place) (tested : place ≠ .tested)
    (printed : place ≠ .printed) : Content (s.open succeeds) place := by
  have none := content.unbuffered printed
  constructor
  · cases succeeds <;> exact content.pending
  · cases succeeds <;> exact content.settled
  · exact fun here => absurd here tested
  · intro _ stream opened
    cases succeeds with
    | false => cases opened
    | true =>
      rw [← Option.some.inj opened]
      exact List.mem_cons_self
  · intro stream member
    rw [open_buffered, none] at member
    cases member

theorem Content.print (content : Content s .tested) : Content s.print .printed := by
  have settled := content.settled (by simp [Part.pending])
  have unbuffered := content.unbuffered (by decide)
  obtain ⟨stream, file⟩ := Option.ne_none_iff_exists'.mp (content.found rfl)
  have opened := content.valid (by decide) stream (by rw [file]; rfl)
  have printed : s.print =
      { s with written := s.written ++ s.charBuff, buffered := stream :: s.buffered } := by
    rw [State.print, file]
    exact if_pos opened
  rw [printed]
  constructor
  · intro _
    rw [settled]
  · exact fun free => absurd (.inl rfl) free
  · intro none
    cases none
  · exact fun _ => content.valid (by decide)
  · intro other member
    rw [unbuffered, List.mem_singleton] at member
    exact ⟨rfl, by rw [member, file]⟩

theorem Content.clearPrinted (content : Content s .printed) : Content s.clear .printed := by
  constructor
  · intro _
    rw [show s.clear.written = s.written from rfl, content.pending (.inl rfl)]
    exact (List.append_nil _).symm
  · exact fun free => absurd (.inl rfl) free
  · intro none
    cases none
  · exact content.valid
  · exact content.buffered

theorem Content.clear (content : Content s .forgotten) : Content s.clear .inside := by
  constructor
  · intro pending
    rcases pending with none | none | none <;> cases none
  · intro _
    exact content.pending (.inr (.inr rfl))
  · intro none
    cases none
  · exact fun _ => content.valid (by decide)
  · intro stream member
    rw [show s.clear.buffered = s.buffered from rfl, content.unbuffered (by decide)] at member
    cases member

theorem Content.close (content : Content s .printed) : Content s.close .closed := by
  constructor
  · exact fun _ => content.pending (.inl rfl)
  · exact fun free => absurd (.inr (.inl rfl)) free
  · intro none
    cases none
  · exact fun apart => absurd rfl apart
  · intro stream member
    obtain ⟨held, other⟩ := List.mem_filter.mp member
    exact absurd (content.buffered stream held).2 (of_decide_eq_true other)

theorem Content.forget (content : Content s .closed) :
    Content { s with fpForBM := none } .forgotten := by
  constructor
  · exact fun _ => content.pending (.inr (.inl rfl))
  · exact fun free => absurd (.inr (.inr rfl)) free
  · intro none
    cases none
  · intro _ stream none
    cases none
  · intro stream member
    rw [show ({ s with fpForBM := none } : State).buffered = s.buffered from rfl,
      content.unbuffered (by decide)] at member
    cases member

end Content

section Runs

/-- Every appended line stands in the buffer or has been cleared, what has been cleared has
been written exactly once, and while the mutex is free no stream holds anything back. -/
structure State.Complete (s : State) : Prop where
  accounted : s.appended.flatten = s.cleared ++ s.charBuff
  once : s.written = s.cleared ∨ s.written = s.cleared ++ s.charBuff
  flushed : s.mutex = none → s.buffered = []

/-- `BM_DoBackup` does not come to its last unlock. -/
def Owned (s : State) : Label → Prop
  | .turn thread _ => s.phase thread ≠ .lastUnlock
  | _ => True

instance (s : State) (label : Label) : Decidable (Owned s label) := by
  unfold Owned
  split <;> infer_instance

/-- The line and the zero behind it fit into the buffer. -/
def Roomy (s : State) : Label → Prop
  | .turn thread _ =>
    match s.phase thread with
    | .strcat localBuff => s.charBuff.length + localBuff.length < cMaxSize
    | _ => True
  | _ => True

instance (s : State) (label : Label) : Decidable (Roomy s label) := by
  unfold Roomy
  split
  · split <;> infer_instance
  · infer_instance

variable {s t : State} {label : Label} {labels : List Label}

theorem Owned.harmless (owned : Owned s label) : Harmless s label := by
  cases label with
  | turn thread succeeds => exact fun phase => absurd phase owned
  | _ => trivial

def turns (thread count : Nat) : List Label := List.replicate count (.turn thread true)

end Runs

end EveAgent.Backup
