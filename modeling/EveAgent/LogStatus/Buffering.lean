import EveAgent.CText
import EveAgent.Machine

namespace EveAgent.LogStatus

open Machine

section Records

inductive Copy where
  | am
  | fd
  deriving DecidableEq, Repr

/-- What `AM_LogData` reads, with the text that `ctime` makes of the time. -/
structure AmData where
  ultime : Text
  uiappMeteringIndex : UInt32
  pcappMeteringUsername : Text
  pcappMeteringBinaryName : Text
  iappMeteringReaction : Int16
  deriving DecidableEq, Repr

/-- What `FD_LogData` reads. -/
structure FdData where
  pctemp : Text
  packageIdentification : Option Text
  acSysIp : Text
  aaction : Text
  aresult : Text
  deriving DecidableEq, Repr

abbrev Copy.Data : Copy → Type
  | .am => AmData
  | .fd => FdData

def AmData.acbuf (data : AmData) : Text :=
  data.ultime ++ [';'] ++ printLd data.uiappMeteringIndex.toInt32.toInt ++ [';'] ++
    data.pcappMeteringUsername ++ [';'] ++ data.pcappMeteringBinaryName ++ [';'] ++
    printLd data.iappMeteringReaction.toInt ++ ['\n']

def FdData.acbuf (data : FdData) : Text :=
  data.pctemp.take 24 ++ [';'] ++ data.packageIdentification.getD [] ++ [';'] ++ data.acSysIp ++
    [';'] ++ data.aaction ++ [';'] ++ data.aresult ++ ['\n']

/-- What is printed into `acbuf`. -/
def Copy.acbuf : (copy : Copy) → copy.Data → Text
  | .am, data => AmData.acbuf data
  | .fd, data => FdData.acbuf data

/-- What `fprintf` makes of a record. -/
def Copy.printed : Copy → Text → Text
  | .am, record => record ++ ['\n']
  | .fd, record => record

end Records

section Buffer

def logSize : Nat := 500

def maxLog : Nat := 20

/-- An entry of `pcLogInfo`, with the memory that it points to. -/
inductive Entry where
  | unset
  | null
  | allocated (text : Text)
  | freed
  deriving DecidableEq, Repr

def Entry.text : Entry → Text
  | .allocated text => text
  | _ => []

/-- The records that a call of the write function found, and whether it could open the file. -/
structure Flush where
  file : Text
  opened : Bool
  records : List Text
  deriving DecidableEq, Repr

/-- The shared variables and the files. The last field records the past. -/
structure State where
  logLock : Bool
  inext : Nat
  pcLogInfo : Nat → Entry
  pclogfilename : Text
  files : Text → Text
  flushes : List Flush

/-- `free` of an entry below `inext`; memory that is free already, or was never allocated, is not
freed. -/
def State.freeEntry (s : State) (i : Nat) : Option State :=
  match s.pcLogInfo i with
  | .unset => none
  | .freed => none
  | .null => some s
  | .allocated _ => some { s with pcLogInfo := Function.update s.pcLogInfo i .freed }

def State.freeEntries (s : State) (indices : List Nat) : Option State :=
  indices.foldlM State.freeEntry s

/-- `fprintf` of an entry, then `free`. -/
def State.printEntry (copy : Copy) (fp : Text) (s : State) (i : Nat) : Option State :=
  match s.pcLogInfo i with
  | .allocated text =>
    { s with files := Function.update s.files fp (s.files fp ++ copy.printed text) }.freeEntry i
  | _ => none

/-- The loop of `AM_WriteLog`, with whether it left the function. -/
def amWriteLoop (fp : Option Text) (s : State) : List Nat → Option (Bool × State)
  | [] => some (false, s)
  | i :: indices =>
    match fp with
    | none => (s.freeEntries (List.range s.inext)).map fun s => (true, { s with inext := 0 })
    | some fp => (s.printEntry .am fp i).bind fun s => amWriteLoop (some fp) s indices

/-- The file of a name, where `fopen` succeeds. -/
def State.fopen (s : State) (opens : Bool) : Option Text :=
  if opens then some s.pclogfilename else none

/-- `AM_WriteLog`. Without records it comes to `fclose` also when there is no stream. -/
def amWriteLog (opens : Bool) (s : State) : Option State :=
  let fp := s.fopen opens
  (amWriteLoop fp s (List.range s.inext)).bind fun (left, s) =>
    if left then some s
    else
      match fp with
      | none => none
      | some _ => some { s with inext := 0 }

/-- `FD_WriteLog` -/
def fdWriteLog (opens : Bool) (s : State) : Option State :=
  match s.fopen opens with
  | none => (s.freeEntries (List.range s.inext)).map fun s => { s with inext := 0 }
  | some fp =>
    ((List.range s.inext).foldlM (State.printEntry .fd fp) s).map fun s => { s with inext := 0 }

def State.pending (s : State) : List Text := (List.range s.inext).map fun i => (s.pcLogInfo i).text

def Copy.writeLog (copy : Copy) (opens : Bool) (s : State) : Option State :=
  let flush : Flush := ⟨s.pclogfilename, opens, s.pending⟩
  let written :=
    match copy with
    | .am => amWriteLog opens s
    | .fd => fdWriteLog opens s
  written.map fun s => { s with flushes := s.flushes ++ [flush] }

/-- `pthread_mutex_lock`; a thread that waits for itself, or for one that is gone, goes no
further. -/
def State.lock (s : State) : Option State :=
  if s.logLock then none else some { s with logLock := true }

def State.unlock (s : State) : State := { s with logLock := false }

/-- The record is put at `inext`. -/
def State.accept (s : State) (acbuf : Text) : State :=
  { s with
    pcLogInfo := Function.update s.pcLogInfo s.inext (.allocated acbuf)
    inext := s.inext + 1 }

/-- `AM_LogData` and `FD_LogData`. Where there is no memory, the second returns without
unlocking. -/
def Copy.logData (copy : Copy) (data : copy.Data) (memory opens : Bool) (s : State) :
    Option State :=
  let acbuf := copy.acbuf data
  if logSize ≤ acbuf.length then none
  else
    s.lock.bind fun s =>
      if maxLog ≤ s.inext then none
      else if ¬ memory then
        let s := { s with pcLogInfo := Function.update s.pcLogInfo s.inext .null }
        match copy with
        | .am => some s.unlock
        | .fd => some s
      else
        let s := s.accept acbuf
        if s.inext = maxLog then (copy.writeLog opens s).map State.unlock else some s.unlock

/-- `AM_SendLogFile`, and one round of `FD_SendLogFile`; the agent's settings are loaded again at
its end. -/
def Copy.sendLogFile (copy : Copy) (opens : Bool) (pclogfilename : Text) (s : State) :
    Option State :=
  (s.lock.bind (copy.writeLog opens)).map fun s =>
    { s.unlock with pclogfilename := pclogfilename }

inductive Call (copy : Copy) where
  | logData (data : copy.Data) (memory opens : Bool)
  | writeLog (opens : Bool)
  | sendLogFile (opens : Bool) (pclogfilename : Text)

/-- `none` when the call is undefined or never returns. -/
def Call.run {copy : Copy} (s : State) : Call copy → Option State
  | .logData data memory opens => copy.logData data memory opens s
  | .writeLog opens => copy.writeLog opens s
  | .sendLogFile opens pclogfilename => copy.sendLogFile opens pclogfilename s

/-- What `AM_InitLogView` and `FD_InitLogView` leave. -/
def start (pclogfilename : Text) (files : Text → Text) : State where
  logLock := false
  inext := 0
  pcLogInfo := fun _ => .unset
  pclogfilename := pclogfilename
  files := files
  flushes := []

end Buffer

section Flushes

variable {copy : Copy} {s s' : State} {i : Nat} {indices : List Nat} {fp : Text}

def State.Filled (s : State) (indices : List Nat) : Prop :=
  ∀ i ∈ indices, ∃ text, s.pcLogInfo i = .allocated text

theorem Filled.update {e : Entry} {t : State} (filled : s.Filled (i :: indices))
    (nodup : (i :: indices).Nodup)
    (same : t.pcLogInfo = Function.update s.pcLogInfo i e) : t.Filled indices := by
  intro j member
  have other : j ≠ i := fun same => (List.nodup_cons.mp nodup).1 (same ▸ member)
  rw [same, Function.update_of_ne other]
  exact filled j (List.mem_cons_of_mem _ member)

theorem freeEntries_filled (filled : s.Filled indices) (nodup : indices.Nodup) :
    ∃ pcLogInfo, s.freeEntries indices = some { s with pcLogInfo := pcLogInfo } := by
  induction indices generalizing s with
  | nil => exact ⟨s.pcLogInfo, rfl⟩
  | cons i indices ih =>
    rcases filled i List.mem_cons_self with ⟨text, here⟩
    have rest := Filled.update (e := .freed)
      (t := { s with pcLogInfo := Function.update s.pcLogInfo i .freed }) filled nodup rfl
    rcases ih rest (List.nodup_cons.mp nodup).2 with ⟨pcLogInfo, freed⟩
    refine ⟨pcLogInfo, ?_⟩
    rw [State.freeEntries, List.foldlM_cons, State.freeEntry, here]
    exact freed

theorem printEntry_allocated {text : Text} (here : s.pcLogInfo i = .allocated text) :
    s.printEntry copy fp i = some
      { s with
        pcLogInfo := Function.update s.pcLogInfo i .freed
        files := Function.update s.files fp (s.files fp ++ copy.printed text) } := by
  rw [State.printEntry, here]
  simp only [State.freeEntry, here]

theorem printEntries_filled (copy : Copy) (fp : Text) (filled : s.Filled indices)
    (nodup : indices.Nodup) :
    ∃ pcLogInfo, indices.foldlM (State.printEntry copy fp) s = some
      { s with
        pcLogInfo := pcLogInfo
        files := Function.update s.files fp (s.files fp ++
          (indices.map fun i => (s.pcLogInfo i).text).flatMap copy.printed) } := by
  induction indices generalizing s with
  | nil =>
    refine ⟨s.pcLogInfo, ?_⟩
    simp
  | cons i indices ih =>
    rcases filled i List.mem_cons_self with ⟨text, here⟩
    have apart := (List.nodup_cons.mp nodup).1
    rw [List.foldlM_cons, printEntry_allocated here]
    have rest := Filled.update (e := .freed)
      (t := { s with
        pcLogInfo := Function.update s.pcLogInfo i .freed
        files := Function.update s.files fp (s.files fp ++ copy.printed text) }) filled nodup rfl
    rcases ih rest (List.nodup_cons.mp nodup).2 with ⟨pcLogInfo, printed⟩
    refine ⟨pcLogInfo, ?_⟩
    have others : (indices.map fun j => (Function.update s.pcLogInfo i Entry.freed j).text) =
        indices.map fun j => (s.pcLogInfo j).text := by
      apply List.map_congr_left
      intro j member
      have other : j ≠ i := by
        rintro rfl
        exact apart member
      rw [Function.update_of_ne other]
    refine printed.trans ?_
    rw [others, List.map_cons, here]
    simp [Entry.text]

theorem amWriteLoop_some (s : State) (indices : List Nat) :
    amWriteLoop (some fp) s indices =
      (indices.foldlM (State.printEntry .am fp) s).map (Prod.mk false) := by
  induction indices generalizing s with
  | nil => rfl
  | cons i indices ih =>
    rw [amWriteLoop, List.foldlM_cons]
    cases s.printEntry .am fp i with
    | none => rfl
    | some s => exact ih s

theorem writeLog_opened (copy : Copy) (filled : s.Filled (List.range s.inext)) :
    ∃ pcLogInfo, copy.writeLog true s = some
      { s with
        inext := 0
        pcLogInfo := pcLogInfo
        files := Function.update s.files s.pclogfilename (s.files s.pclogfilename ++
          s.pending.flatMap copy.printed)
        flushes := s.flushes ++ [⟨s.pclogfilename, true, s.pending⟩] } := by
  rcases printEntries_filled copy s.pclogfilename filled List.nodup_range with
    ⟨pcLogInfo, printed⟩
  refine ⟨pcLogInfo, ?_⟩
  cases copy with
  | am =>
    simp only [Copy.writeLog, amWriteLog, State.fopen, if_true, amWriteLoop_some, printed,
      Option.map_some, Option.bind_some]
    rfl
  | fd =>
    simp only [Copy.writeLog, fdWriteLog, State.fopen, if_true, printed, Option.map_some]
    rfl

theorem writeLog_failed (filled : s.Filled (List.range s.inext))
    (some_ : copy = .am → s.inext ≠ 0) :
    ∃ pcLogInfo, copy.writeLog false s = some
      { s with
        inext := 0
        pcLogInfo := pcLogInfo
        flushes := s.flushes ++ [⟨s.pclogfilename, false, s.pending⟩] } := by
  rcases freeEntries_filled filled List.nodup_range with ⟨pcLogInfo, freed⟩
  refine ⟨pcLogInfo, ?_⟩
  cases copy with
  | am =>
    rcases Nat.exists_eq_succ_of_ne_zero (some_ rfl) with ⟨n, count⟩
    have loop : amWriteLoop none s (List.range s.inext) =
        (s.freeEntries (List.range s.inext)).map fun s => (true, { s with inext := 0 }) := by
      conv_lhs => rw [count, List.range_succ_eq_map]
      rfl
    simp only [Copy.writeLog, amWriteLog, State.fopen, Bool.false_eq_true, if_false, loop, freed,
      Option.map_some, Option.bind_some, if_true]
  | fd =>
    simp only [Copy.writeLog, fdWriteLog, State.fopen, Bool.false_eq_true, if_false, freed,
      Option.map_some]

theorem writeLog_null (empty : s.inext = 0) : Copy.am.writeLog false s = none := by
  simp only [Copy.writeLog, amWriteLog, State.fopen, empty, List.range_zero, amWriteLoop,
    Bool.false_eq_true, if_false, Option.bind_some, Option.map_none]

end Flushes

section Runs

variable {copy : Copy} {s s' : State} {files : Text → Text} {calls : List (Call copy)}
  {call : Call copy} {records : List Text}

/-- The records that were accepted into the buffer. -/
def accepted (calls : List (Call copy)) : List Text :=
  calls.flatMap fun
    | .logData data true _ => [copy.acbuf data]
    | _ => []

def State.flushedInto (s : State) (name : Text) : List Text :=
  (s.flushes.filter fun flush => flush.opened ∧ flush.file = name).flatMap Flush.records

/-- Each record went to one flush, in order, or is pending, and the files have what was flushed
into them. -/
structure Kept (copy : Copy) (files : Text → Text) (records : List Text) (s : State) : Prop where
  filled : s.Filled (List.range s.inext)
  flushed : s.flushes.flatMap Flush.records ++ s.pending = records
  written : ∀ name, s.files name = files name ++ (s.flushedInto name).flatMap copy.printed

/-- Nothing is lost or duplicated between two calls. -/
structure Sound (copy : Copy) (files : Text → Text) (records : List Text) (s : State) : Prop
    extends Kept copy files records s where
  unlocked : s.logLock = false
  inext : s.inext < maxLog

/-- The call goes through: its record fits, the copy that forgets to unlock has memory, and the one
that closes no stream has something to write or a file. -/
def Call.Fine (s : State) : Call copy → Prop
  | .logData data memory _ => (copy.acbuf data).length < logSize ∧ (copy = .fd → memory = true)
  | .writeLog opens => copy = .am → s.inext = 0 → opens = true
  | .sendLogFile opens _ => copy = .am → s.inext = 0 → opens = true

instance (s : State) : (call : Call copy) → Decidable (call.Fine s)
  | .logData _ _ _ => inferInstanceAs (Decidable (_ ∧ (_ → _)))
  | .writeLog _ => inferInstanceAs (Decidable (_ → _ → _))
  | .sendLogFile _ _ => inferInstanceAs (Decidable (_ → _ → _))

theorem sound_start (pclogfilename : Text) (files : Text → Text) :
    Sound copy files [] (start pclogfilename files) where
  filled := fun _ member => absurd member List.not_mem_nil
  flushed := rfl
  written := fun _ => (List.append_nil _).symm
  unlocked := rfl
  inext := Nat.zero_lt_succ _

theorem writeLog_kept {opens : Bool} (kept : Kept copy files records s)
    (fine : copy = .am → s.inext = 0 → opens = true) :
    ∃ s', copy.writeLog opens s = some s' ∧ Kept copy files records s' ∧ s'.inext = 0 ∧
      s'.logLock = s.logLock := by
  have none_pending : ∀ s' : State, s'.inext = 0 → s'.pending = [] := by
    intro s' empty
    rw [State.pending, empty]
    rfl
  have filled : ∀ s' : State, s'.inext = 0 → s'.Filled (List.range s'.inext) := by
    intro s' empty i member
    rw [empty] at member
    exact absurd member List.not_mem_nil
  cases opens with
  | true =>
    rcases writeLog_opened copy kept.filled with ⟨pcLogInfo, written⟩
    refine ⟨_, written, ⟨filled _ rfl, ?_, ?_⟩, rfl, rfl⟩
    · rw [List.flatMap_append, ← kept.flushed]
      simp [State.pending]
    · intro name
      have before := kept.written name
      by_cases same : s.pclogfilename = name
      · subst same
        simp only [State.flushedInto] at before ⊢
        simp [before, List.filter_append, List.flatMap_append]
      · simp only [State.flushedInto] at before ⊢
        rw [Function.update_of_ne (Ne.symm same), before]
        simp [List.filter_append, same]
  | false =>
    have some_ : copy = .am → s.inext ≠ 0 := by
      intro metering empty
      exact absurd (fine metering empty) Bool.false_ne_true
    rcases writeLog_failed kept.filled some_ with ⟨pcLogInfo, freed⟩
    refine ⟨_, freed, ⟨filled _ rfl, ?_, ?_⟩, rfl, rfl⟩
    · rw [List.flatMap_append, ← kept.flushed]
      simp [State.pending]
    · intro name
      have before := kept.written name
      simp only [State.flushedInto] at before ⊢
      rw [before]
      simp [List.filter_append]

theorem accept_kept (kept : Kept copy files records s) (acbuf : Text) :
    Kept copy files (records ++ [acbuf]) (s.accept acbuf) := by
  have before : ∀ i < s.inext, (s.accept acbuf).pcLogInfo i = s.pcLogInfo i := by
    intro i below
    exact Function.update_of_ne (Nat.ne_of_lt below) ..
  have here : (s.accept acbuf).pcLogInfo s.inext = .allocated acbuf := Function.update_self ..
  constructor
  · intro i member
    rcases Nat.lt_or_eq_of_le (Nat.le_of_lt_succ (List.mem_range.mp member)) with below | rfl
    · rw [before i below]
      exact kept.filled i (List.mem_range.mpr below)
    · exact ⟨acbuf, here⟩
  · have pending : (s.accept acbuf).pending = s.pending ++ [acbuf] := by
      rw [State.pending, State.accept, List.range_succ, List.map_append]
      congr 1
      · apply List.map_congr_left
        intro i member
        exact congrArg Entry.text (before i (List.mem_range.mp member))
      · exact congrArg (fun entry => [Entry.text entry]) here
    rw [pending, ← List.append_assoc]
    exact congrArg (· ++ [acbuf]) kept.flushed
  · exact kept.written

theorem refuse_kept (kept : Kept copy files records s) (entry : Entry) :
    Kept copy files records
      { s with pcLogInfo := Function.update s.pcLogInfo s.inext entry } := by
  have before : ∀ i < s.inext, Function.update s.pcLogInfo s.inext entry i = s.pcLogInfo i := by
    intro i below
    exact Function.update_of_ne (Nat.ne_of_lt below) ..
  constructor
  · intro i member
    show ∃ text, Function.update s.pcLogInfo s.inext entry i = .allocated text
    rw [before i (List.mem_range.mp member)]
    exact kept.filled i member
  · rw [← kept.flushed]
    congr 1
    apply List.map_congr_left
    intro i member
    exact congrArg Entry.text (before i (List.mem_range.mp member))
  · exact kept.written

theorem Sound.locked (sound : Sound copy files records s) :
    s.lock = some { s with logLock := true } ∧
      Kept copy files records { s with logLock := true } := by
  refine ⟨?_, sound.filled, sound.flushed, sound.written⟩
  rw [State.lock, sound.unlocked]
  rfl

theorem Kept.unlock (kept : Kept copy files records s) (room : s.inext < maxLog) :
    Sound copy files records s.unlock :=
  ⟨⟨kept.filled, kept.flushed, kept.written⟩, rfl, room⟩

theorem run_fine (sound : Sound copy files records s) (fine : call.Fine s) :
    ∃ s', call.run s = some s' ∧ Sound copy files (records ++ accepted [call]) s' := by
  obtain ⟨locked, kept⟩ := sound.locked
  cases call with
  | logData data memory opens =>
    obtain ⟨fits, granted⟩ := fine
    have room : ¬ maxLog ≤ s.inext := Nat.not_le.mpr sound.inext
    rw [Call.run, Copy.logData, if_neg (Nat.not_le.mpr fits), locked, Option.bind_some]
    dsimp only
    rw [if_neg room]
    cases memory with
    | false =>
      have refused := (refuse_kept kept .null).unlock sound.inext
      have none_accepted : accepted [Call.logData data false opens] = [] := rfl
      rw [if_pos Bool.false_ne_true, none_accepted, List.append_nil]
      cases copy with
      | am => exact ⟨_, rfl, refused⟩
      | fd => exact absurd (granted rfl) Bool.false_ne_true
    | true =>
      have added := accept_kept kept (copy.acbuf data)
      have one : accepted [Call.logData data true opens] = [copy.acbuf data] := rfl
      rw [if_neg (not_not.mpr rfl), one]
      split
      · rename_i full
        have some_ : copy = .am →
            ({ s with logLock := true }.accept (copy.acbuf data)).inext = 0 → opens = true := by
          intro _ empty
          rw [full] at empty
          cases empty
        obtain ⟨s', written, kept', empty, _⟩ := writeLog_kept added some_
        rw [written]
        exact ⟨_, rfl, kept'.unlock (empty ▸ Nat.zero_lt_succ _)⟩
      · rename_i notFull
        have below : s.inext + 1 < maxLog :=
          Nat.lt_of_le_of_ne (Nat.lt_of_not_le room) notFull
        exact ⟨_, rfl, added.unlock below⟩
  | writeLog opens =>
    obtain ⟨s', written, kept', empty, lock⟩ := writeLog_kept sound.toKept fine
    have none_accepted : accepted [(Call.writeLog opens : Call copy)] = [] := rfl
    rw [none_accepted, List.append_nil]
    refine ⟨s', written, kept', ?_, ?_⟩
    · rw [lock]
      exact sound.unlocked
    · rw [empty]
      exact Nat.zero_lt_succ _
  | sendLogFile opens pclogfilename =>
    obtain ⟨s', written, kept', empty, _⟩ := writeLog_kept kept fine
    have none_accepted : accepted [(Call.sendLogFile opens pclogfilename : Call copy)] = [] := rfl
    rw [none_accepted, List.append_nil, Call.run, Copy.sendLogFile, locked, Option.bind_some,
      written]
    have sent := kept'.unlock (empty ▸ Nat.zero_lt_succ _)
    exact ⟨_, rfl, ⟨sent.filled, sent.flushed, sent.written⟩, rfl, sent.inext⟩

theorem run_notFine (sound : Sound copy files records s) (fails : ¬ call.Fine s)
    (ran : call.run s = some s') : s'.logLock = true := by
  obtain ⟨locked, _⟩ := sound.locked
  cases call with
  | logData data memory opens =>
    rw [Call.run, Copy.logData] at ran
    split at ran
    · cases ran
    · rename_i fits
      have room : ¬ maxLog ≤ s.inext := Nat.not_le.mpr sound.inext
      have denied : copy = .fd ∧ memory = false := by
        by_contra other
        apply fails
        refine ⟨Nat.lt_of_not_le fits, ?_⟩
        intro second
        cases memory with
        | false => exact absurd ⟨second, rfl⟩ other
        | true => rfl
      obtain ⟨rfl, rfl⟩ := denied
      rw [locked, Option.bind_some] at ran
      dsimp only at ran
      rw [if_neg room, if_pos Bool.false_ne_true] at ran
      cases ran
      rfl
  | writeLog opens =>
    obtain ⟨rfl, empty, closed⟩ : copy = .am ∧ s.inext = 0 ∧ opens = false := by
      simpa [Call.Fine] using fails
    subst closed
    rw [Call.run, writeLog_null empty] at ran
    cases ran
  | sendLogFile opens pclogfilename =>
    obtain ⟨rfl, empty, closed⟩ : copy = .am ∧ s.inext = 0 ∧ opens = false := by
      simpa [Call.Fine] using fails
    subst closed
    have null := writeLog_null (s := { s with logLock := true }) empty
    rw [Call.run, Copy.sendLogFile, locked, Option.bind_some, null] at ran
    cases ran

theorem accepted_cons (call : Call copy) (calls : List (Call copy)) :
    accepted (call :: calls) = accepted [call] ++ accepted calls := by
  rw [accepted, List.flatMap_cons, accepted, accepted, List.flatMap_cons, List.flatMap_nil,
    List.append_nil]

theorem sound_iff (sound : Sound copy files records s) :
    (∀ front back, calls = front ++ back →
        ∃ t, run Call.run s front = some t ∧ Sound copy files (records ++ accepted front) t) ↔
      Along Call.run (fun s call => Call.Fine s call) s calls := by
  induction calls generalizing s records with
  | nil =>
    refine ⟨fun _ => trivial, ?_⟩
    intro _ front back split
    obtain ⟨rfl, _⟩ := List.append_eq_nil_iff.mp split.symm
    exact ⟨s, rfl, (List.append_nil records).symm ▸ sound⟩
  | cons call calls ih =>
    constructor
    · intro each
      obtain ⟨t, ran, after⟩ := each [call] calls rfl
      obtain ⟨middle, stepped, rest⟩ := run_cons_some ran
      obtain rfl := Option.some.inj rest
      have fine : call.Fine s := by
        by_contra fails
        have locked := run_notFine sound fails stepped
        rw [after.unlocked] at locked
        cases locked
      refine ⟨fine, ?_⟩
      rw [stepped]
      apply (ih after).mp
      intro front back split
      obtain ⟨u, ran, later⟩ := each (call :: front) back (by rw [split]; rfl)
      obtain ⟨_, again, rest⟩ := run_cons_some ran
      obtain rfl := Option.some.inj (stepped.symm.trans again)
      rw [accepted_cons, ← List.append_assoc] at later
      exact ⟨u, rest, later⟩
    · intro allowed front back split
      obtain ⟨t, stepped, after⟩ := run_fine sound allowed.1
      cases front with
      | nil => exact ⟨s, rfl, (List.append_nil records).symm ▸ sound⟩
      | cons first front =>
        obtain ⟨rfl, rest⟩ := List.cons.inj split
        obtain ⟨u, ran, later⟩ := (ih after).mpr (along_cons allowed stepped).2 front back rest
        rw [List.append_assoc, ← accepted_cons] at later
        exact ⟨u, run_cons stepped ran, later⟩

/-- Nothing is lost or duplicated by what has been called so far, however far that is. -/
def LosesNothing (copy : Copy) (pclogfilename : Text) (files : Text → Text)
    (calls : List (Call copy)) : Prop :=
  ∀ front back, calls = front ++ back →
    ∃ s, run Call.run (start pclogfilename files) front = some s ∧
      Sound copy files (accepted front) s

/-- The log keeps its records in exactly the sequences of calls that all go through. -/
theorem losesNothing_iff (copy : Copy) (pclogfilename : Text) (files : Text → Text)
    (calls : List (Call copy)) :
    LosesNothing copy pclogfilename files calls ↔
      Along Call.run (fun s call => Call.Fine s call) (start pclogfilename files) calls :=
  sound_iff (sound_start pclogfilename files)

/-- The copy that returns with the lock held, and the one that closes no stream. -/
theorem locked_or_closed :
    ¬ LosesNothing .fd [] (fun _ => [])
      [.logData ⟨[], none, [], [], []⟩ false true] ∧
    ¬ LosesNothing .am [] (fun _ => []) [.sendLogFile false []] := by
  constructor
  · intro loses
    have fine := (sound_iff (sound_start [] fun _ => [])).mp loses
    exact absurd (fine.1.2 rfl) Bool.false_ne_true
  · intro loses
    have fine := (sound_iff (sound_start [] fun _ => [])).mp loses
    exact absurd (fine.1 rfl rfl) Bool.false_ne_true

end Runs

end EveAgent.LogStatus
