import EveAgent.Rtcm.TransferChain

namespace EveAgent.Rtcm

open Machine Streams

section Property

variable (name : String)

/-- The file that has been renamed and is not handed over yet. -/
def Rotation.renamed (s : Rotation) : List Nat :=
  if s.thread = some .send then s.files.read name else []

structure LinesKept (s : Rotation) : Prop where
  noFault : s.fault = false
  once : (s.handed.flatten ++ s.renamed name ++ s.files.read (name ++ ".1")).Perm
    (List.range s.lines)

/-- From the closing of the log to its reopening. -/
def TransferFile.touching : Option TransferFile → Bool
  | some .fclose | some .clear | some .rename | some .send | some .forget
  | some (.check _) => true
  | _ => false

/-- Between two calls, or in `RTC_Thread_Transfer_File`. -/
def RetrieveLog.resting : RetrieveLog → Bool
  | .idle | .start _ => true
  | _ => false

/-- No retrieval overlaps the part of a transfer that closes and reopens the log, and a retrieval
begins while the log is open under its name, or when there is none yet. -/
def Apart (s : Rotation) : Statement → Prop
  | .retrieve =>
    TransferFile.touching s.thread = false ∧
      ((s.fpl ≠ none ∧ s.szSavedLogFile = name) ∨ s.files.names (name ++ ".1") = none)
  | .thread => s.thread = some .ifClose → s.main.resting = true
  | _ => True

instance (s : Rotation) : (statement : Statement) → Decidable (Apart name s statement)
  | .retrieve => inferInstanceAs (Decidable (_ ∧ _))
  | .expire _ => .isTrue trivial
  | .main _ => .isTrue trivial
  | .thread => inferInstanceAs (Decidable (_ → _))

end Property

section Log

variable {name : String} {s t u : Rotation} {waiting : List Nat}

theorem tempLog_ne (name : String) : name ++ ".1" ≠ name := by
  intro same
  have lengths := congrArg String.length same
  rw [String.length_append] at lengths
  have two : ".1".length = 2 := rfl
  omega

/-- `fpl` writes to the temporary log. -/
def Live (name : String) (s : Rotation) : Prop :=
  ∃ stream, s.fpl = some stream ∧ s.files.WritesTo stream (name ++ ".1")

/-- Nothing is lost, while some lines wait in the renamed file. -/
structure Kept (name : String) (waiting : List Nat) (s : Rotation) : Prop where
  sound : Sound s.files
  noFault : s.fault = false
  temp : s.files.names (name ++ ".1") ≠ none → s.gszRTCTempLogFile = name ++ ".1"
  once : (s.handed.flatten ++ waiting ++ s.files.read (name ++ ".1")).Perm (List.range s.lines)

structure SameLog (s t : Rotation) : Prop where
  files : t.files = s.files
  fpl : t.fpl = s.fpl
  temp : t.gszRTCTempLogFile = s.gszRTCTempLogFile
  lines : t.lines = s.lines
  handed : t.handed = s.handed
  fault : t.fault = s.fault

theorem Kept.congr (kept : Kept name waiting s) (same : SameLog s t) : Kept name waiting t := by
  constructor
  · rw [same.files]
    exact kept.sound
  · rw [same.fault]
    exact kept.noFault
  · rw [same.files, same.temp]
    exact kept.temp
  · rw [same.files, same.handed, same.lines]
    exact kept.once

theorem Live.congr (live : Live name s) (same : SameLog s t) : Live name t := by
  unfold Live
  rw [same.fpl, same.files]
  exact live

theorem Live.temp (live : Live name s) : s.files.names (name ++ ".1") ≠ none := by
  obtain ⟨_, _, inode, _, held⟩ := live
  rw [held]
  exact Option.some_ne_none _

theorem Kept.fclose (kept : Kept name waiting s) (live : Live name s) :
    Kept name waiting s.fclose ∧
      s.fclose.files.names (name ++ ".1") = s.files.names (name ++ ".1") := by
  obtain ⟨stream, fpl, writes⟩ := live
  obtain ⟨files, closed, names, contents, inodes, _⟩ := fclose_writesTo writes
  have done : s.fclose = { s with files := files } := by
    rw [Rotation.fclose, fpl, Option.bind_some, closed]
  have read : files.read (name ++ ".1") = s.files.read (name ++ ".1") := by
    apply read_congr
    · rw [names]
    · intro inode _
      rw [contents]
  rw [done]
  constructor
  · constructor
    · exact kept.sound.congr names inodes
    · exact kept.noFault
    · dsimp only
      rw [names]
      exact kept.temp
    · dsimp only
      rw [read]
      exact kept.once
  · dsimp only
    rw [names]

theorem Kept.fprintf (kept : Kept name waiting s) (live : Live name s) :
    Kept name waiting s.fprintf ∧ Live name s.fprintf := by
  obtain ⟨stream, fpl, writes⟩ := live
  obtain ⟨files, written, names, inodes, writes', read, _⟩ :=
    fprintf_writesTo kept.sound writes s.lines
  have done : s.fprintf = { s with files := files, lines := s.lines + 1 } := by
    rw [Rotation.fprintf, fpl, Option.bind_some, written]
  rw [done]
  constructor
  · constructor
    · exact kept.sound.congr names inodes
    · exact kept.noFault
    · dsimp only
      rw [names]
      exact kept.temp
    · dsimp only
      rw [read, ← List.append_assoc, List.range_succ]
      exact kept.once.append_right _
  · exact ⟨stream, fpl, writes'⟩

theorem Kept.fopen (kept : Kept name waiting s) (absent : s.files.names (name ++ ".1") = none) :
    Kept name waiting ({ s with gszRTCTempLogFile := name ++ ".1" }.fopen (name ++ ".1")) ∧
      Live name ({ s with gszRTCTempLogFile := name ++ ".1" }.fopen (name ++ ".1")) := by
  unfold Rotation.fopen
  constructor
  · constructor
    · exact kept.sound.fopen _
    · exact kept.noFault
    · intro _
      rfl
    · have empty : s.files.read (name ++ ".1") = [] := by
        rw [Files.read, absent]
      dsimp only
      rw [fopen_read, ← empty]
      exact kept.once
  · exact ⟨s.files.opened, rfl, fopen_writesTo s.files _⟩

theorem Kept.rename (kept : Kept name [] s) (present : s.files.names (name ++ ".1") ≠ none) :
    Kept name ((s.files.rename s.gszRTCTempLogFile name).read name)
        { s with files := s.files.rename s.gszRTCTempLogFile name } ∧
      (s.files.rename s.gszRTCTempLogFile name).names (name ++ ".1") = none := by
  have temp := kept.temp present
  obtain ⟨inode, held⟩ := Option.ne_none_iff_exists'.mp present
  obtain ⟨read, gone⟩ := rename_read (tempLog_ne name) held
  rw [temp]
  constructor
  · constructor
    · exact kept.sound.rename _ _
    · exact kept.noFault
    · intro present
      exact absurd gone present
    · have empty : (s.files.rename (name ++ ".1") name).read (name ++ ".1") = [] := by
        rw [Files.read, gone]
      have once := kept.once
      rw [List.append_nil] at once
      dsimp only
      rw [empty, List.append_nil, read]
      exact once
  · exact gone

theorem Kept.send (kept : Kept name (s.files.read name) s) :
    Kept name [] { s with handed := s.handed ++ [s.files.read name] } := by
  constructor
  · exact kept.sound
  · exact kept.noFault
  · exact kept.temp
  · dsimp only
    rw [List.flatten_append, List.flatten_singleton, List.append_nil]
    exact kept.once

end Log

section Control

variable {name : String} {s t u : Rotation}

def RetrieveLog.early : RetrieveLog → Bool
  | .idle | .check _ | .ifWrite | .fprintf | .firstTime => true
  | _ => false

/-- Only one thread runs, and none before the first value has been logged. -/
structure ControlInv (s : Rotation) : Prop where
  progress : s.thread ≠ none → s.giFTProgress = true
  first : s.giRTCFirstTime = true → s.alarms = [] ∧ s.thread = none ∧ s.main.early = true

theorem ControlInv.moved (inv : ControlInv s) (same : SameAlarms s u) {next : RetrieveLog}
    (early : s.giRTCFirstTime = true → next.early = true) : ControlInv { u with main := next } := by
  constructor
  · dsimp only
    rw [same.thread, same.progress]
    exact inv.progress
  · dsimp only
    rw [same.first, same.alarms, same.thread]
    intro first
    obtain ⟨alarms, thread, _⟩ := inv.first first
    exact ⟨alarms, thread, early first⟩

theorem ControlInv.late (inv : ControlInv s) (main : s.main.early = false) :
    s.giRTCFirstTime = false := by
  cases first : s.giRTCFirstTime with
  | true =>
    have early := (inv.first first).2.2
    rw [main] at early
    cases early
  | false => rfl

theorem start_eq {outcome : Bool} {expiring : Option Nat} (main : s.main = .start expiring)
    (stepped : s.rtcRetrieveLogVariable name outcome = some t) :
    ∃ alarms progress,
      (t = { s with alarms := alarms, giFTProgress := progress, main := .idle } ∧
        (s.giFTProgress = true → progress = true)) ∨
      (s.giFTProgress = false ∧
        t = { s with
          alarms := alarms, giFTProgress := true, thread := some .reset, main := .idle }) := by
  unfold Rotation.rtcRetrieveLogVariable at stepped
  rw [main] at stepped
  dsimp only at stepped
  by_cases busy : s.giFTProgress = true
  · rw [if_pos busy] at stepped
    cases expiring with
    | none => exact ⟨s.alarms, s.giFTProgress, .inl ⟨(Option.some.inj stepped).symm, id⟩⟩
    | some alarm => exact ⟨_, s.giFTProgress, .inl ⟨(Option.some.inj stepped).symm, id⟩⟩
  · rw [if_neg busy] at stepped
    have free : s.giFTProgress = false := Bool.not_eq_true _ ▸ busy
    cases outcome with
    | true =>
      cases expiring with
      | none => exact ⟨s.alarms, true, .inr ⟨free, (Option.some.inj stepped).symm⟩⟩
      | some alarm => exact ⟨_, true, .inr ⟨free, (Option.some.inj stepped).symm⟩⟩
    | false =>
      cases expiring with
      | none => exact ⟨s.alarms, true, .inl ⟨(Option.some.inj stepped).symm, fun _ => rfl⟩⟩
      | some alarm => exact ⟨_, true, .inl ⟨(Option.some.inj stepped).symm, fun _ => rfl⟩⟩

theorem main_control {outcome : Bool} (inv : ControlInv s)
    (stepped : s.rtcRetrieveLogVariable name outcome = some t) : ControlInv t := by
  have later : s.main.early = false → ∀ next : RetrieveLog,
      s.giRTCFirstTime = true → next.early = true := by
    intro late next first
    rw [inv.late late] at first
    cases first
  cases main : s.main
  case start expiring =>
    have late := inv.late (by rw [main]; rfl)
    obtain ⟨alarms, progress, ⟨same, busy⟩ | ⟨_, same⟩⟩ := start_eq main stepped
    · rw [same]
      constructor
      · intro running
        exact busy (inv.progress running)
      · intro first
        exact absurd (late.symm.trans first) Bool.false_ne_true
    · rw [same]
      constructor
      · intro _
        rfl
      · intro first
        exact absurd (late.symm.trans first) Bool.false_ne_true
  all_goals rw [Rotation.rtcRetrieveLogVariable, main] at stepped
  case idle => cases stepped
  case firstTime =>
    dsimp only at stepped
    by_cases first : s.giRTCFirstTime = true
    · rw [if_pos first] at stepped
      rw [← Option.some.inj stepped]
      constructor
      · exact inv.progress
      · intro again
        cases again
    · rw [if_neg first] at stepped
      rw [← Option.some.inj stepped]
      exact inv.moved (.refl s) fun again => absurd again first
  case unregister =>
    have late := inv.late (by rw [main]; rfl)
    dsimp only at stepped
    split at stepped
    · rw [← Option.some.inj stepped]
      constructor
      · exact inv.progress
      · intro first
        exact absurd (late.symm.trans first) Bool.false_ne_true
    · rw [← Option.some.inj stepped]
      exact inv.moved (.refl s) (later (by rw [main]; rfl) _)
  all_goals rw [← Option.some.inj stepped]
  case check position =>
    apply inv.moved (check_same s name position)
    intro _
    split
    · rfl
    · rfl
  case ifWrite =>
    apply inv.moved (.refl s)
    intro _
    split
    · rfl
    · rfl
  case fprintf => exact inv.moved (fprintf_same s) fun _ => rfl
  case ifSize | ifClose => exact inv.moved (.refl s) (later (by rw [main]; rfl) _)
  case fstat => exact inv.moved (fstat_same s) (later (by rw [main]; rfl) _)
  case register =>
    have late := inv.late (by rw [main]; rfl)
    constructor
    · exact inv.progress
    · intro first
      exact absurd (late.symm.trans first) Bool.false_ne_true
  case forget =>
    have same : SameAlarms s { s with szSavedLogFile := rtcDefaultLogfile } :=
      ⟨rfl, rfl, rfl, rfl, rfl, rfl, rfl⟩
    exact inv.moved same (later (by rw [main]; rfl) _)
  case fclose => exact inv.moved (fclose_same s) (later (by rw [main]; rfl) _)
  case clear =>
    have same : SameAlarms s { s with fpl := none } := ⟨rfl, rfl, rfl, rfl, rfl, rfl, rfl⟩
    exact inv.moved same (later (by rw [main]; rfl) _)

theorem thread_control (inv : ControlInv s) (stepped : s.rtcTransferFile name = some t) :
    ControlInv t := by
  have running : s.thread ≠ none := by
    intro none
    rw [Rotation.rtcTransferFile, none] at stepped
    cases stepped
  have late : s.giRTCFirstTime = false := by
    cases first : s.giRTCFirstTime with
    | true => exact absurd (inv.first first).2.1 running
    | false => rfl
  have same : t.giRTCFirstTime = s.giRTCFirstTime ∧
      (t.giFTProgress = s.giFTProgress ∨ t.thread = none) := by
    unfold Rotation.rtcTransferFile at stepped
    cases position : s.thread with
    | none => exact absurd position running
    | some statement =>
      rw [position] at stepped
      cases statement with
      | fclose =>
        rw [← Option.some.inj stepped]
        exact ⟨(fclose_same s).first, .inl (fclose_same s).progress⟩
      | check next =>
        rw [← Option.some.inj stepped]
        exact ⟨(check_same s name next).first, .inl (check_same s name next).progress⟩
      | finish =>
        rw [← Option.some.inj stepped]
        exact ⟨rfl, .inr rfl⟩
      | _ =>
        rw [← Option.some.inj stepped]
        exact ⟨rfl, .inl rfl⟩
  constructor
  · intro running'
    rcases same.2 with progress | none
    · rw [progress]
      exact inv.progress running
    · exact absurd none running'
  · intro first
    rw [same.1, late] at first
    cases first

theorem step_control {statement : Statement} (inv : ControlInv s)
    (stepped : s.step name statement = some t) : ControlInv t := by
  unfold Rotation.step at stepped
  cases statement with
  | retrieve =>
    dsimp only at stepped
    split at stepped
    · rw [← Option.some.inj stepped]
      exact inv.moved (.refl s) fun _ => rfl
    · cases stepped
  | expire alarm =>
    dsimp only at stepped
    split at stepped
    · rename_i both
      rw [← Option.some.inj stepped]
      apply inv.moved (.refl s)
      intro first
      have member := both.2
      rw [(inv.first first).1] at member
      cases member
    · cases stepped
  | main outcome => exact main_control inv stepped
  | thread => exact thread_control inv stepped

end Control

section Positions

variable {name : String} {s t u : Rotation}

/-- What the main thread knows of the log while no transfer touches it. -/
def MainAt (name : String) (s : Rotation) : RetrieveLog → Prop
  | .idle | .start _ => s.fpl = none ∨ Live name s
  | .check .test =>
    (s.fpl = none ∧ s.files.names (name ++ ".1") = none) ∨
      (Live name s ∧ name = s.szSavedLogFile)
  | .check .ifOpen | .check .fopen => s.fpl = none ∧ s.files.names (name ++ ".1") = none
  | .check .save => Live name s
  | .check _ => False
  | .clear => True
  | _ => Live name s

/-- What a transfer knows of the log while it touches it. -/
def ThreadAt (name : String) (s : Rotation) : TransferFile → Prop
  | .fclose | .check .save => Live name s
  | .clear => s.files.names (name ++ ".1") ≠ none
  | .rename => s.fpl = none ∧ s.files.names (name ++ ".1") ≠ none
  | .send | .forget | .check .test | .check .ifOpen | .check .fopen =>
    s.fpl = none ∧ s.files.names (name ++ ".1") = none
  | _ => False

inductive LogAt (name : String) (s : Rotation) : Prop where
  | calm (kept : Kept name [] s) (away : TransferFile.touching s.thread = false)
      (logged : s.giRTCFirstTime = false → s.files.names (name ++ ".1") ≠ none)
      (position : MainAt name s s.main)
  | busy (statement : TransferFile) (thread : s.thread = some statement)
      (kept : Kept name (s.renamed name) s) (rests : s.main.resting = true)
      (position : ThreadAt name s statement)

theorem LogAt.goes (kept : Kept name [] s) (same : SameLog s u)
    (away : TransferFile.touching u.thread = false)
    (logged : u.giRTCFirstTime = false → s.files.names (name ++ ".1") ≠ none)
    (position : MainAt name u u.main) : LogAt name u := by
  apply LogAt.calm (kept.congr same) away
  · rw [same.files]
    exact logged
  · exact position

theorem ThreadAt.congr {statement : TransferFile} (position : ThreadAt name s statement)
    (same : SameLog s u) : ThreadAt name u statement := by
  have live : Live name s → Live name u := fun live => live.congr same
  cases statement with
  | fclose => exact live position
  | check next =>
    cases next with
    | save => exact live position
    | fclose => exact position
    | clear => exact position
    | _ =>
      unfold ThreadAt
      rw [same.fpl, same.files]
      exact position
  | reset => exact position
  | ifClose => exact position
  | register => exact position
  | finish => exact position
  | _ =>
    unfold ThreadAt
    try rw [same.fpl]
    rw [same.files]
    exact position

theorem Live.fstat (live : Live name s) : s.fstat = s := by
  obtain ⟨stream, fpl, inode, held, _⟩ := live
  rw [Rotation.fstat, fpl, Option.bind_some, held]

theorem LogAt.waits {statement : TransferFile} (kept : Kept name (s.renamed name) s)
    (thread : s.thread = some statement) (position : ThreadAt name s statement)
    (same : SameLog s u) (thread' : u.thread = s.thread) (rests : u.main.resting = true) :
    LogAt name u := by
  have renamed : u.renamed name = s.renamed name := by
    rw [Rotation.renamed, Rotation.renamed, thread', same.files]
  apply LogAt.busy statement (thread'.trans thread)
  · rw [renamed]
    exact kept.congr same
  · exact rests
  · exact position.congr same

theorem Live.open (live : Live name s) : ¬ s.fpl = none := by
  obtain ⟨stream, fpl, _⟩ := live
  rw [fpl]
  exact Option.some_ne_none _

theorem check_log {next : CheckLogFile} (kept : Kept name [] s)
    (away : TransferFile.touching s.thread = false)
    (logged : s.giRTCFirstTime = false → s.files.names (name ++ ".1") ≠ none)
    (position : MainAt name s (.check next))
    (stepped : { (s.rtcCheckLogFileName name next).1 with
      main :=
        match (s.rtcCheckLogFileName name next).2 with
        | some next => .check next
        | none => .ifWrite } = t) : LogAt name t := by
  rw [← stepped]
  cases next with
  | test =>
    rcases position with ⟨fpl, absent⟩ | ⟨live, saved⟩
    · have opens : s.fpl = none ∨ name ≠ s.szSavedLogFile := .inl fpl
      simp only [Rotation.rtcCheckLogFileName, if_pos opens]
      exact .goes kept ⟨rfl, rfl, rfl, rfl, rfl, rfl⟩ away logged ⟨fpl, absent⟩
    · have stays : ¬ (s.fpl = none ∨ name ≠ s.szSavedLogFile) := by
        intro opens
        rcases opens with fpl | other
        · exact live.open fpl
        · exact other saved
      simp only [Rotation.rtcCheckLogFileName, if_neg stays]
      exact .goes kept ⟨rfl, rfl, rfl, rfl, rfl, rfl⟩ away logged live
  | ifOpen =>
    simp only [Rotation.rtcCheckLogFileName, if_pos position.1]
    exact .goes kept ⟨rfl, rfl, rfl, rfl, rfl, rfl⟩ away logged position
  | fclose => exact position.elim
  | clear => exact position.elim
  | fopen =>
    obtain ⟨opened, live⟩ := kept.fopen position.2
    apply LogAt.calm
    · exact ⟨opened.sound, opened.noFault, opened.temp, opened.once⟩
    · exact away
    · intro _
      exact live.temp
    · exact live
  | save => exact .goes kept ⟨rfl, rfl, rfl, rfl, rfl, rfl⟩ away logged position

theorem main_log {outcome : Bool} (inv : ControlInv s) (log : LogAt name s)
    (stepped : s.rtcRetrieveLogVariable name outcome = some t) : LogAt name t := by
  cases log with
  | busy statement thread kept rests position =>
    cases main : s.main with
    | start expiring =>
      obtain ⟨alarms, progress, ⟨same, _⟩ | ⟨free, _⟩⟩ := start_eq main stepped
      · rw [same]
        exact .waits kept thread position ⟨rfl, rfl, rfl, rfl, rfl, rfl⟩ rfl rfl
      · rw [inv.progress (by rw [thread]; exact Option.some_ne_none _)] at free
        cases free
    | idle =>
      rw [Rotation.rtcRetrieveLogVariable, main] at stepped
      cases stepped
    | _ =>
      rw [main] at rests
      cases rests
  | calm kept away logged position =>
    cases main : s.main
    all_goals rw [main] at position
    case start expiring =>
      obtain ⟨alarms, progress, ⟨same, _⟩ | ⟨_, same⟩⟩ := start_eq main stepped
      · rw [same]
        exact .goes kept ⟨rfl, rfl, rfl, rfl, rfl, rfl⟩ away logged position
      · rw [same]
        exact .goes kept ⟨rfl, rfl, rfl, rfl, rfl, rfl⟩ rfl logged position
    all_goals rw [Rotation.rtcRetrieveLogVariable, main] at stepped
    case idle => cases stepped
    case check next => exact check_log kept away logged position (Option.some.inj stepped)
    case clear =>
      have present := logged (inv.late (by rw [main]; rfl))
      rw [← Option.some.inj stepped]
      exact .calm ⟨kept.sound, kept.noFault, kept.temp, kept.once⟩ away (fun _ => present)
        (.inl rfl)
    -- everywhere else the stream of the log is open
    all_goals have live : Live name s := position
    case firstTime =>
      dsimp only at stepped
      split at stepped
      · rw [← Option.some.inj stepped]
        exact .goes kept ⟨rfl, rfl, rfl, rfl, rfl, rfl⟩ away (fun _ => live.temp) live
      · rw [← Option.some.inj stepped]
        exact .goes kept ⟨rfl, rfl, rfl, rfl, rfl, rfl⟩ away logged live
    case unregister =>
      dsimp only at stepped
      split at stepped
      all_goals
        rw [← Option.some.inj stepped]
        exact .goes kept ⟨rfl, rfl, rfl, rfl, rfl, rfl⟩ away logged live
    all_goals rw [← Option.some.inj stepped]
    case fclose =>
      obtain ⟨closed, names⟩ := kept.fclose live
      apply LogAt.calm
      · exact ⟨closed.sound, closed.noFault, closed.temp, closed.once⟩
      · dsimp only
        rw [(fclose_same s).thread]
        exact away
      · intro _
        dsimp only
        rw [names]
        exact live.temp
      · trivial
    case fprintf =>
      obtain ⟨written, live'⟩ := kept.fprintf live
      apply LogAt.calm
      · exact ⟨written.sound, written.noFault, written.temp, written.once⟩
      · dsimp only
        rw [(fprintf_same s).thread]
        exact away
      · intro _
        exact live'.temp
      · exact live'
    case fstat =>
      rw [live.fstat]
      cases outcome with
      | true => exact .goes kept ⟨rfl, rfl, rfl, rfl, rfl, rfl⟩ away logged live
      | false => exact .goes kept ⟨rfl, rfl, rfl, rfl, rfl, rfl⟩ away logged (.inr live)
    case ifWrite | ifSize | ifClose =>
      rw [if_neg live.open]
      exact .goes kept ⟨rfl, rfl, rfl, rfl, rfl, rfl⟩ away logged live
    case register | forget => exact .goes kept ⟨rfl, rfl, rfl, rfl, rfl, rfl⟩ away logged live

theorem renamed_nil (other : s.thread ≠ some .send) : s.renamed name = [] := if_neg other

theorem mainAt_resting (rests : s.main.resting = true) :
    MainAt name s s.main ↔ s.fpl = none ∨ Live name s := by
  cases main : s.main with
  | idle => exact Iff.rfl
  | start expiring => exact Iff.rfl
  | _ =>
    rw [main] at rests
    cases rests

theorem LogAt.enters {statement : TransferFile} (kept : Kept name [] t)
    (thread : t.thread = some statement) (other : statement ≠ .send)
    (rests : t.main.resting = true) (position : ThreadAt name t statement) : LogAt name t := by
  apply LogAt.busy statement thread
  · rw [renamed_nil]
    · exact kept
    · rw [thread]
      intro same
      exact other (Option.some.inj same)
  · exact rests
  · exact position

theorem calm_log (inv : ControlInv s) (kept : Kept name [] s)
    (away : TransferFile.touching s.thread = false)
    (logged : s.giRTCFirstTime = false → s.files.names (name ++ ".1") ≠ none)
    (position : MainAt name s s.main) (apart : s.thread = some .ifClose → s.main.resting = true)
    (stepped : s.rtcTransferFile name = some t) : LogAt name t := by
  cases thread : s.thread with
  | none =>
    rw [Rotation.rtcTransferFile, thread] at stepped
    cases stepped
  | some statement =>
    rw [Rotation.rtcTransferFile, thread] at stepped
    have late : s.giRTCFirstTime = false := by
      cases first : s.giRTCFirstTime with
      | true =>
        rw [(inv.first first).2.1] at thread
        cases thread
      | false => rfl
    cases statement with
    | reset | register | finish =>
      rw [← Option.some.inj stepped]
      exact .goes kept ⟨rfl, rfl, rfl, rfl, rfl, rfl⟩ rfl logged position
    | ifClose =>
      have rests := apart thread
      rw [← Option.some.inj stepped]
      rcases (mainAt_resting rests).mp position with fpl | live
      · rw [if_pos fpl]
        exact .enters ⟨kept.sound, kept.noFault, kept.temp, kept.once⟩ rfl (by decide) rests
          ⟨fpl, logged late⟩
      · rw [if_neg live.open]
        exact .enters ⟨kept.sound, kept.noFault, kept.temp, kept.once⟩ rfl (by decide)
          rests live
    | _ =>
      rw [thread] at away
      cases away

theorem busy_log {statement : TransferFile} (thread : s.thread = some statement)
    (kept : Kept name (s.renamed name) s) (rests : s.main.resting = true)
    (position : ThreadAt name s statement) (stepped : s.rtcTransferFile name = some t) :
    LogAt name t := by
  rw [Rotation.rtcTransferFile, thread] at stepped
  have plain : statement ≠ .send → Kept name [] s := by
    intro other
    rw [renamed_nil] at kept
    · exact kept
    · rw [thread]
      intro same
      exact other (Option.some.inj same)
  cases statement with
  | reset | ifClose | register | finish => exact position.elim
  | fclose =>
    have live : Live name s := position
    obtain ⟨closed, names⟩ := (plain (by decide)).fclose live
    rw [← Option.some.inj stepped]
    refine LogAt.enters ⟨closed.sound, closed.noFault, closed.temp, closed.once⟩ rfl (by decide)
      ?_ ?_
    · dsimp only
      rw [(fclose_same s).main]
      exact rests
    · show s.fclose.files.names (name ++ ".1") ≠ none
      rw [names]
      exact live.temp
  | clear =>
    have kept := plain (by decide)
    rw [← Option.some.inj stepped]
    exact .enters ⟨kept.sound, kept.noFault, kept.temp, kept.once⟩ rfl (by decide) rests
      ⟨rfl, position⟩
  | rename =>
    obtain ⟨moved, gone⟩ := (plain (by decide)).rename position.2
    rw [← Option.some.inj stepped]
    apply LogAt.busy .send rfl
    · exact ⟨moved.sound, moved.noFault, moved.temp, moved.once⟩
    · exact rests
    · exact ⟨position.1, gone⟩
  | send =>
    have waiting : s.renamed name = s.files.read name := if_pos thread
    rw [waiting] at kept
    have sent := kept.send
    rw [← Option.some.inj stepped]
    exact .enters ⟨sent.sound, sent.noFault, sent.temp, sent.once⟩ rfl (by decide) rests position
  | forget =>
    have kept := plain (by decide)
    rw [← Option.some.inj stepped]
    exact .enters ⟨kept.sound, kept.noFault, kept.temp, kept.once⟩ rfl (by decide) rests position
  | check next =>
    have kept := plain (by simp)
    cases next with
    | test =>
      have opens : s.fpl = none ∨ name ≠ s.szSavedLogFile := .inl position.1
      simp only [Rotation.rtcCheckLogFileName, if_pos opens] at stepped
      rw [← Option.some.inj stepped]
      exact .enters ⟨kept.sound, kept.noFault, kept.temp, kept.once⟩ rfl (by decide) rests
        position
    | ifOpen =>
      simp only [Rotation.rtcCheckLogFileName, if_pos position.1] at stepped
      rw [← Option.some.inj stepped]
      exact .enters ⟨kept.sound, kept.noFault, kept.temp, kept.once⟩ rfl (by decide) rests
        position
    | fclose => exact position.elim
    | clear => exact position.elim
    | fopen =>
      obtain ⟨opened, live⟩ := kept.fopen position.2
      rw [← Option.some.inj stepped]
      exact .enters ⟨opened.sound, opened.noFault, opened.temp, opened.once⟩ rfl (by decide)
        rests live
    | save =>
      have live : Live name s := position
      rw [← Option.some.inj stepped]
      refine LogAt.goes kept ⟨rfl, rfl, rfl, rfl, rfl, rfl⟩ rfl ?_ ?_
      · intro _
        exact live.temp
      · exact (mainAt_resting
          (s := { s with szSavedLogFile := name, thread := some .register }) rests).mpr
          (.inr live)

theorem step_log {statement : Statement} (inv : ControlInv s) (log : LogAt name s)
    (apart : Apart name s statement) (stepped : s.step name statement = some t) :
    LogAt name t := by
  cases statement with
  | main outcome => exact main_log inv log stepped
  | thread =>
    cases log with
    | calm kept away logged position => exact calm_log inv kept away logged position apart stepped
    | busy statement thread kept rests position => exact busy_log thread kept rests position stepped
  | expire alarm =>
    rw [Rotation.step] at stepped
    split at stepped
    · rename_i both
      rw [← Option.some.inj stepped]
      cases log with
      | calm kept away logged position =>
        rw [both.1] at position
        exact .goes kept ⟨rfl, rfl, rfl, rfl, rfl, rfl⟩ away logged position
      | busy statement thread kept rests position =>
        exact .waits kept thread position ⟨rfl, rfl, rfl, rfl, rfl, rfl⟩ rfl rfl
    · cases stepped
  | retrieve =>
    obtain ⟨away, ready⟩ := apart
    rw [Rotation.step] at stepped
    split at stepped
    · rename_i main
      rw [← Option.some.inj stepped]
      cases log with
      | calm kept _ logged position =>
        rw [main] at position
        have known : MainAt name s (.check .test) := by
          rcases position with fpl | live
          · rcases ready with ready | absent
            · exact absurd fpl ready.1
            · exact .inl ⟨fpl, absent⟩
          · rcases ready with ready | absent
            · exact .inr ⟨live, ready.2.symm⟩
            · exact absurd absent live.temp
        exact .goes kept ⟨rfl, rfl, rfl, rfl, rfl, rfl⟩ away logged known
      | busy statement thread kept rests position =>
        rw [thread] at away
        cases statement with
        | reset | ifClose | register | finish => exact position.elim
        | _ => cases away
    · cases stepped

theorem LogAt.lines (log : LogAt name s) : LinesKept name s := by
  cases log with
  | calm kept away _ _ =>
    refine ⟨kept.noFault, ?_⟩
    rw [renamed_nil]
    · exact kept.once
    · intro sends
      rw [sends] at away
      cases away
  | busy _ _ kept _ _ => exact ⟨kept.noFault, kept.once⟩

/-- In a run in which retrievals and transfers are apart, no line is lost and no closed stream is
used. -/
theorem lines_kept {statements : List Statement}
    (apart : Along (Rotation.step name) (Apart name) Rotation.initial statements)
    (executed : run (Rotation.step name) Rotation.initial statements = some s) :
    LinesKept name s := by
  have kept : ∀ (s : Rotation) statement t, ControlInv s ∧ LogAt name s → Apart name s statement →
      Rotation.step name s statement = some t → ControlInv t ∧ LogAt name t := by
    intro s statement t both apart stepped
    exact ⟨step_control both.1 stepped, step_log both.1 both.2 apart stepped⟩
  have start : ControlInv Rotation.initial ∧ LogAt name Rotation.initial := by
    constructor
    · constructor
      · intro running
        exact absurd rfl running
      · intro _
        exact ⟨rfl, rfl, rfl⟩
    · apply LogAt.calm
      · constructor
        · exact sound_none
        · rfl
        · intro present
          exact absurd rfl present
        · exact List.Perm.refl _
      · rfl
      · intro later
        cases later
      · exact .inl rfl
  exact (run_invariant kept start apart executed).2.lines

end Positions

section Lost

/-- A value is logged, and its file is sent. -/
theorem lines_kept_transferredOnce :
    ∃ s, run (Rotation.step "log") Rotation.initial transferredOnce = some s ∧
      s.handed = [[0]] ∧ LinesKept "log" s := by
  obtain ⟨s, executed, handed⟩ :
      ∃ s, run (Rotation.step "log") Rotation.initial transferredOnce = some s ∧
        s.handed = [[0]] := by
    apply run_of_any
    decide +kernel
  have apart : Along (Rotation.step "log") (Apart "log") Rotation.initial transferredOnce := by
    decide +kernel
  exact ⟨s, executed, handed, lines_kept apart executed⟩

/-- A second value is logged while the file is being sent: the reopening discards it. -/
theorem line_lost :
    ¬ ∀ (name : String) (statements : List Statement) (s : Rotation), name ≠ "" →
      run (Rotation.step name) Rotation.initial statements = some s → LinesKept name s := by
  intro kept
  obtain ⟨s, executed, handed, read, thread, lines⟩ :
      ∃ s, run (Rotation.step "log") Rotation.initial
          (loggedOnce ++ [.expire 1, .main true] ++ List.replicate 6 .thread ++
            .retrieve :: List.replicate 9 (.main false) ++ List.replicate 9 .thread) = some s ∧
        s.handed = [[0]] ∧ s.files.read ("log" ++ ".1") = [] ∧ s.thread = none ∧ s.lines = 2 := by
    apply run_of_any
    decide +kernel
  have length := (kept "log" _ s (by decide) executed).once.length_eq
  have nothing : s.renamed "log" = [] := by
    apply renamed_nil
    rw [thread]
    decide
  rw [nothing, handed, read, lines] at length
  exact absurd length (by decide)

end Lost

end EveAgent.Rtcm
