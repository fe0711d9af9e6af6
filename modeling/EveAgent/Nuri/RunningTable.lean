import EveAgent.CStdio
import EveAgent.IndexWalk
import EveAgent.Nuri.Snapshots

namespace EveAgent.Nuri

open IndexWalk

section Stat

/-- What is read of `/proc/[pid]/stat`, and its owner. -/
structure StatFile where
  st_uid : Int
  text : Text
  deriving DecidableEq, Repr

/-- The record of a process. The numbers of its `stat` file have their places from `iPsPPid` on. -/
structure PsStat where
  szPsName : Text
  cPsState : Char
  iPsUid : Int
  fields : Fin 22 → Int

namespace PsStat

variable (stat : PsStat)

def iPsPPid : Int := stat.fields 0
def iPsGid : Int := stat.fields 1
def iPsTTY : Int := stat.fields 3
def ulPsMin_Flt : Int := stat.fields 6
def ulPsMaj_Flt : Int := stat.fields 8
def lPsUTime : Int := stat.fields 10
def lPsSTime : Int := stat.fields 11
def lPsPriority : Int := stat.fields 14
def ulPsStartTime : Int := stat.fields 18
def ulPsVmSize : Int := stat.fields 19
def ulPsVmRSS : Int := stat.fields 20
def ulPsVmRSS_rlimit : Int := stat.fields 21

end PsStat

def PsStat.blank : PsStat := ⟨[], '\x00', 0, fun _ => 0⟩

/-- One number of a format, with what stays behind it. -/
def scanInteger (text : Text) : Option (Int × Text) :=
  let digits :=
    match text.dropWhile isspace with
    | '-' :: digits => digits
    | '+' :: digits => digits
    | digits => digits
  if (digits.takeWhile Char.isDigit) = [] then none
  else some (leadingInteger text, digits.dropWhile Char.isDigit)

/-- The numbers of a format, up to the first that is not there. -/
def scanIntegers : Nat → Text → List Int
  | 0, _ => []
  | count + 1, text =>
    match scanInteger text with
    | none => []
    | some (value, rest) => value :: scanIntegers count rest

/-- `%d (%15c`, when it gets as far as the name. -/
def scanName (text : Text) : Option Text :=
  match scanInteger text with
  | none => none
  | some (_, rest) =>
    match rest.dropWhile isspace with
    | '(' :: name => some (name.take 15)
    | _ => none

/-- What stands before and behind the last occurrence of the character. -/
def strrchr (c : Char) : Text → Option (Text × Text)
  | [] => none
  | first :: rest =>
    match strrchr c rest with
    | some (before, behind) => some (first :: before, behind)
    | none => if first = c then some ([], rest) else none

/-- The size of the buffer, without the place of the zero. -/
def StatFile.buf (file : StatFile) : Text := file.text.take 799

def KBYTE : Int := 1024

/-- Nothing comes back where memory is touched that was not found: without a parenthesis, or with
nothing behind the last one. The result of the function is not looked at, so it is left out. -/
def psRunningTable_GetProcStat (file : Option StatFile) (stat : PsStat) : Option PsStat :=
  match file with
  | none => some stat
  | some file =>
    let stat := { stat with iPsUid := file.st_uid }
    if file.buf.length < 80 then some stat
    else
      match strrchr ')' file.buf with
      | none => none
      | some (_, []) => none
      | some (before, _ :: behind) =>
        let numbers := scanIntegers 22 (behind.drop 1)
        let field (i : Fin 22) : Int := (numbers[i.val]?).getD (stat.fields i)
        some
          { stat with
            szPsName := (scanName before).getD []
            cPsState := (behind.head?).getD stat.cPsState
            fields := fun i =>
              if i = 19 then field i / KBYTE
              else if i = 20 then field i * (4096 / KBYTE)
              else field i }

def StatFile.WellFormed (file : StatFile) : Prop :=
  80 ≤ file.buf.length ∧
    match strrchr ')' file.buf with
    | some (before, _ :: _ :: behind) =>
      (scanName before).isSome = true ∧ (scanIntegers 22 behind).length = 22
    | _ => False

instance (file : StatFile) : Decidable file.WellFormed := by
  unfold StatFile.WellFormed
  split <;> infer_instance

end Stat

section Columns

inductive PsColumn where
  | psRunningPid
  | psRunningPgid
  | psRunningPPid
  | psRunningName
  | psRunningState
  | psAge
  | psRunningPriority
  | psRunningSize
  | psRunningRss
  | psRunningPageFaults
  | psRunningHardPageFaults
  | psRunningContextSwitches
  | psRunningThreads
  | psRunningHandles
  | psRunningPercentCpu
  | psRunningKernelTime
  | psRunningUserTime
  | psRunningStartTime
  | psRunningUid
  | psRunningUserName
  | psRunningDevice
  | psRunningCommandLine
  | psRunningFilePath
  | psRunningCwd
  | psRunningPercentRss
  | psRunningPercentSize
  deriving DecidableEq, Repr

inductive PsValue where
  | number (value : Int)
  | text (value : Text)
  deriving DecidableEq, Repr

/-- What is found under `/proc/[pid]`: the `stat` file, the entries of `fd`, the arguments, the
link `exe` and the working directory in `environ`. -/
structure ProcEntry where
  stat : Option StatFile
  handles : Nat
  cmdline : Option Text
  exe : Option Text
  cwd : Text

/-- What is found of the whole system: the file `uptime`, the file `meminfo` with its total, the
clock and the names of users and devices. -/
structure PsSystem where
  uptime : Option Nat
  meminfo : Option (Option Nat)
  time : Int
  date_n_time : Int → Text
  pw_name : Int → Option Text
  device : Int → Text

/-- The static variables of `var_psRunningTable`. -/
structure PsStatics where
  stPsStat : PsStat
  ulUptime : Nat
  ulMemTotal : Nat
  uPMem : Int

def PsStatics.start : PsStatics := ⟨PsStat.blank, 0, 0, 0⟩

def runningState (c : Char) : Int :=
  if c = 'S' then 3 else if c = 'R' then 4 else if c = 'Z' then 5 else 6

def percentCpu (stat : PsStat) (uptime : Nat) : Int :=
  let ullTotalUtlTime := (stat.lPsSTime + stat.lPsUTime) / 100 % 2 ^ 64
  let ullTotalTime := (uptime - stat.ulPsStartTime / 100) % 2 ^ 64
  let uPCpu :=
    if ullTotalTime = 0 then 0 else ullTotalUtlTime * 100 % 2 ^ 64 / ullTotalTime % 2 ^ 32
  if uPCpu > 99 then 99 else uPCpu

def percentSize (stat : PsStat) (ulMemTotal : Nat) : Int :=
  if ulMemTotal = 0 then 0 else stat.ulPsVmRSS * 100 % 2 ^ 64 / ulMemTotal % 2 ^ 32

/-- The `switch` of `var_psRunningTable`: the value of a column of the process in the record. -/
def PsColumn.value (column : PsColumn) (pid : Nat) (entry : ProcEntry) (system : PsSystem)
    (statics : PsStatics) : PsStatics × Option PsValue :=
  let stat := statics.stPsStat
  match column with
  | .psRunningPid => (statics, some (.number pid))
  | .psRunningPgid => (statics, some (.number stat.iPsGid))
  | .psRunningPPid => (statics, some (.number stat.iPsPPid))
  | .psRunningName => (statics, some (.text stat.szPsName))
  | .psRunningState => (statics, some (.number (runningState stat.cPsState)))
  | .psAge =>
    let ulUptime := system.uptime.getD 0
    ({ statics with ulUptime },
      some (.number ((ulUptime - stat.ulPsStartTime / 100) * 100 % 2 ^ 64)))
  | .psRunningPriority => (statics, some (.number stat.lPsPriority))
  | .psRunningSize => (statics, some (.number stat.ulPsVmSize))
  | .psRunningRss => (statics, some (.number stat.ulPsVmRSS))
  | .psRunningPageFaults =>
    (statics, some (.number ((stat.ulPsMin_Flt + stat.ulPsMaj_Flt) % 2 ^ 64)))
  | .psRunningHardPageFaults => (statics, some (.number stat.ulPsMaj_Flt))
  -- There is no case for these two.
  | .psRunningContextSwitches => (statics, none)
  | .psRunningThreads => (statics, none)
  | .psRunningHandles => (statics, some (.number entry.handles))
  | .psRunningPercentCpu =>
    let ulUptime := system.uptime.getD statics.ulUptime
    ({ statics with ulUptime }, some (.number (percentCpu stat ulUptime)))
  | .psRunningKernelTime => (statics, some (.number stat.lPsSTime))
  | .psRunningUserTime => (statics, some (.number stat.lPsUTime))
  | .psRunningStartTime =>
    let ulUptime := system.uptime.getD statics.ulUptime
    let when := system.time - ulUptime + stat.ulPsStartTime / 100
    ({ statics with ulUptime }, some (.text ((system.date_n_time when).takeWhile (· ≠ '\x00'))))
  | .psRunningUid => (statics, some (.number stat.iPsUid))
  | .psRunningUserName => (statics, some (.text ((system.pw_name stat.iPsUid).getD [])))
  | .psRunningDevice =>
    (statics, some (.text (if stat.iPsTTY = 0 then ['?'] else system.device stat.iPsTTY)))
  | .psRunningCommandLine => (statics, entry.cmdline.map .text)
  | .psRunningFilePath => (statics, some (.text (entry.exe.getD [])))
  | .psRunningCwd => (statics, some (.text entry.cwd))
  | .psRunningPercentRss =>
    (statics, some (.number
      (if stat.ulPsVmRSS_rlimit = 0 then 0
      else stat.ulPsVmRSS * 100 % 2 ^ 64 / stat.ulPsVmRSS_rlimit)))
  | .psRunningPercentSize =>
    match system.meminfo with
    -- The value of the request before is returned.
    | none => (statics, some (.number statics.uPMem))
    | some total =>
      let ulMemTotal := total.getD statics.ulMemTotal
      let uPMem := percentSize stat ulMemTotal
      ({ statics with ulMemTotal, uPMem }, some (.number uPMem))

end Columns

section Requests

/-- The loop over `/proc`, whose names stand for numbers, those of no process for zero. -/
def psLoop (request : Request) : List Nat → Option Nat → Option Nat
  | [], ILowPid => ILowPid
  | IPid :: rest, ILowPid =>
    if IPid = 0 then psLoop request rest ILowPid
    else if request.isExact then
      if request.finds IPid then some IPid else psLoop request rest ILowPid
    else if request.finds IPid ∧ (∀ low, ILowPid = some low → IPid < low) then
      psLoop request rest (some IPid)
    else psLoop request rest ILowPid

def header_psRunningTable (request : Request) (proc : List Nat) : Option Nat :=
  psLoop request proc none

/-- The answer to a request, with what is found when it is served. A directory that does not open
is read all the same. -/
def var_psRunningTable (column : PsColumn) (request : Request) (proc : Option (List Nat))
    (entries : Nat → ProcEntry) (system : PsSystem) (statics : PsStatics) :
    PsStatics × Answer PsValue :=
  match proc with
  | none => (statics, .fault)
  | some proc =>
    match header_psRunningTable request proc with
    | none => (statics, .null)
    | some iPid =>
      match psRunningTable_GetProcStat (entries iPid).stat statics.stPsStat with
      | none => (statics, .fault)
      | some stat =>
        match column.value iPid (entries iPid) system { statics with stPsStat := stat } with
        | (statics, none) => (statics, .null)
        | (statics, some value) => (statics, .row iPid value)

/-- GETNEXT of the column, or of the row last answered. -/
def Request.after (column : List Nat) : Option Nat → Request
  | none => ⟨column, false, column⟩
  | some last => ⟨column ++ [last], false, column⟩

end Requests

section Reading

variable {file : StatFile} {column : PsColumn} {pid : Nat} {entry : ProcEntry}
  {system : PsSystem} {statics : PsStatics}

theorem StatFile.WellFormed.fresh (wellFormed : file.WellFormed) :
    ∃ fresh, ∀ stat, psRunningTable_GetProcStat (some file) stat = some fresh := by
  obtain ⟨long, format⟩ := wellFormed
  have room : ¬file.buf.length < 80 := Nat.not_lt.mpr long
  cases split : strrchr ')' file.buf with
  | none => simp [split] at format
  | some parts =>
    obtain ⟨before, behind⟩ := parts
    cases behind with
    | nil => simp [split] at format
    | cons space behind =>
      cases behind with
      | nil => simp [split] at format
      | cons state rest =>
        simp only [split] at format
        have scanned : ∀ (stat : PsStat) (i : Fin 22),
            ((scanIntegers 22 rest)[i.val]?).getD (stat.fields i) =
              ((scanIntegers 22 rest)[i.val]?).getD 0 := by
          intro stat i
          have within : i.val < (scanIntegers 22 rest).length := by
            rw [format.2]
            exact i.isLt
          rw [List.getElem?_eq_getElem within]
          rfl
        apply Exists.intro
          { szPsName := (scanName before).getD []
            cPsState := state
            iPsUid := file.st_uid
            fields := fun i =>
              if i = 19 then ((scanIntegers 22 rest)[i.val]?).getD 0 / KBYTE
              else if i = 20 then
                ((scanIntegers 22 rest)[i.val]?).getD 0 * (4096 / KBYTE)
              else ((scanIntegers 22 rest)[i.val]?).getD 0 }
        intro stat
        simp only [psRunningTable_GetProcStat, room, split, if_false, List.drop_one,
          List.tail_cons, List.head?_cons, Option.getD_some, scanned]

/-- The file does not open, is too short, or lacks what is looked for. -/
def StatFile.Splits (file : StatFile) : Prop :=
  ∃ before c behind, strrchr ')' file.buf = some (before, c :: behind)

theorem getProcStat_eq_none_iff (entry : Option StatFile) (stat : PsStat) :
    psRunningTable_GetProcStat entry stat = none ↔
      ∃ file, entry = some file ∧ 80 ≤ file.buf.length ∧ ¬file.Splits := by
  cases entry with
  | none => simp [psRunningTable_GetProcStat]
  | some file =>
    rw [psRunningTable_GetProcStat]
    by_cases short : file.buf.length < 80
    · simp only [short, if_true]
      constructor
      · intro missing
        cases missing
      · rintro ⟨other, same, long, _⟩
        cases same
        exact absurd short (Nat.not_lt.mpr long)
    · simp only [short, if_false]
      have long := Nat.le_of_not_lt short
      rcases split : strrchr ')' file.buf with _ | ⟨before, _ | ⟨c, behind⟩⟩
      · simp [StatFile.Splits, split, long]
      · simp [StatFile.Splits, split, long]
      · simp [StatFile.Splits, split]

end Reading

section Search

variable {request : Request} {proc : List Nat} {column : List Nat} {last : Option Nat}

theorem oid_compare_append (column first second : List Nat) :
    snmp_oid_compare (column ++ first) (column ++ second) = snmp_oid_compare first second := by
  induction column with
  | nil => rfl
  | cons part column ih => simp [snmp_oid_compare, ih]

theorem oid_compare_behind (column : List Nat) (index : Nat) :
    snmp_oid_compare column (column ++ [index]) = .lt := by
  induction column with
  | nil => rfl
  | cons part column ih => simp [snmp_oid_compare, ih]

theorem finds_after (column : List Nat) (last : Option Nat) (index : Nat) :
    (Request.after column last).finds index = true ↔ Behind last index := by
  cases last with
  | none => simp [Request.after, Request.finds, oid_compare_behind, Behind]
  | some last =>
    simp only [Request.after, Request.finds, oid_compare_append, Behind]
    rw [snmp_oid_compare]
    by_cases below : last < index
    · simp [below]
    · by_cases above : index < last
      · simp [below, above]
      · simp [below, above, snmp_oid_compare]

/-- The least process found, or the one there was. -/
structure Lowest (request : Request) (proc : List Nat) (low result : Option Nat) : Prop where
  missing : result = none → low = none ∧ ∀ pid ∈ proc, pid ≠ 0 → request.finds pid = false
  found : ∀ pid, result = some pid →
    low = some pid ∨ pid ∈ proc ∧ pid ≠ 0 ∧ request.finds pid = true
  old : ∀ pid other, result = some pid → low = some other → pid ≤ other
  least : ∀ pid, result = some pid →
    ∀ other ∈ proc, other ≠ 0 → request.finds other = true → pid ≤ other

theorem psLoop_lowest (proc : List Nat) (next : request.isExact = false) (low : Option Nat) :
    Lowest request proc low (psLoop request proc low) := by
  induction proc generalizing low with
  | nil =>
    constructor
    · intro missing
      exact ⟨missing, nofun⟩
    · intro pid found
      exact Or.inl found
    · intro pid other found before
      rw [psLoop, before] at found
      exact Nat.le_of_eq (Option.some.inj found).symm
    · exact fun _ _ => nofun
  | cons head rest ih =>
    rw [psLoop]
    by_cases nobody : head = 0
    · rw [if_pos nobody]
      have kept := ih low
      constructor
      · intro missing
        obtain ⟨before, none⟩ := kept.missing missing
        constructor
        · exact before
        · intro pid member real
          rcases List.mem_cons.mp member with same | later
          · exact absurd (same.trans nobody) real
          · exact none pid later real
      · intro pid found
        rcases kept.found pid found with before | ⟨later, real, finds⟩
        · exact Or.inl before
        · exact Or.inr ⟨List.mem_cons_of_mem _ later, real, finds⟩
      · exact kept.old
      · intro pid found other member real finds
        rcases List.mem_cons.mp member with same | later
        · exact absurd (same.trans nobody) real
        · exact kept.least pid found other later real finds
    · rw [if_neg nobody, next, if_neg Bool.false_ne_true]
      by_cases better : request.finds head = true ∧ ∀ before, low = some before → head < before
      · rw [if_pos better]
        have kept := ih (some head)
        constructor
        · intro missing
          cases (kept.missing missing).1
        · intro pid found
          rcases kept.found pid found with same | ⟨later, real, finds⟩
          · rw [← Option.some.inj same]
            exact Or.inr ⟨List.mem_cons_self, nobody, better.1⟩
          · exact Or.inr ⟨List.mem_cons_of_mem _ later, real, finds⟩
        · intro pid other found before
          exact Nat.le_of_lt (Nat.lt_of_le_of_lt (kept.old pid head found rfl)
            (better.2 other before))
        · intro pid found other member real finds
          rcases List.mem_cons.mp member with same | later
          · rw [same]
            exact kept.old pid head found rfl
          · exact kept.least pid found other later real finds
      · rw [if_neg better]
        have kept := ih low
        constructor
        · intro missing
          obtain ⟨before, none⟩ := kept.missing missing
          constructor
          · exact before
          · intro pid member real
            rcases List.mem_cons.mp member with same | later
            · rw [same, Bool.eq_false_iff]
              intro finds
              apply better
              rw [before]
              exact ⟨finds, nofun⟩
            · exact none pid later real
        · intro pid found
          rcases kept.found pid found with before | ⟨later, real, finds⟩
          · exact Or.inl before
          · exact Or.inr ⟨List.mem_cons_of_mem _ later, real, finds⟩
        · exact kept.old
        · intro pid found other member real finds
          rcases List.mem_cons.mp member with same | later
          · rw [same] at finds ⊢
            by_contra above
            apply better
            constructor
            · exact finds
            · intro before was
              exact Nat.lt_of_lt_of_le (Nat.lt_of_not_le above) (kept.old pid before found was)
          · exact kept.least pid found other later real finds

def live (proc : List Nat) : List Nat := proc.filter (· ≠ 0)

theorem mem_live {pid : Nat} : pid ∈ live proc ↔ pid ∈ proc ∧ pid ≠ 0 := by
  simp [live]

theorem header_next (column : List Nat) (last : Option Nat) (proc : List Nat) (pid : Nat) :
    header_psRunningTable (Request.after column last) proc = some pid ↔
      IsNext (live proc) last pid := by
  have next : (Request.after column last).isExact = false := by
    cases last with
    | none => rfl
    | some last => rfl
  have lowest := psLoop_lowest proc next none
  have sound : ∀ found, header_psRunningTable (Request.after column last) proc = some found →
      IsNext (live proc) last found := by
    intro found result
    constructor
    · rcases lowest.found found result with before | ⟨listed, real, _⟩
      · cases before
      · exact mem_live.mpr ⟨listed, real⟩
    · rcases lowest.found found result with before | ⟨_, _, finds⟩
      · cases before
      · exact (finds_after column last found).mp finds
    · intro other member behind
      obtain ⟨listed, real⟩ := mem_live.mp member
      exact lowest.least found result other listed real ((finds_after column last other).mpr behind)
  constructor
  · exact sound pid
  · intro isNext
    cases result : header_psRunningTable (Request.after column last) proc with
    | none =>
      obtain ⟨listed, real⟩ := mem_live.mp isNext.present
      have missed := (lowest.missing result).2 pid listed real
      rw [(finds_after column last pid).mpr isNext.behind] at missed
      cases missed
    | some found =>
      have other := sound found result
      have same : found = pid := Nat.le_antisymm
        (other.least pid isNext.present isNext.behind)
        (isNext.least found other.present other.behind)
      rw [same]

theorem header_none (column : List Nat) (last : Option Nat) (proc : List Nat)
    (passed : ∀ pid ∈ live proc, ¬Behind last pid) :
    header_psRunningTable (Request.after column last) proc = none := by
  cases result : header_psRunningTable (Request.after column last) proc with
  | none => rfl
  | some pid =>
    have next := (header_next column last proc pid).mp result
    exact absurd next.behind (passed pid next.present)

end Search

section Walks

/-- A live process, whose files the kernel fills. -/
structure Process where
  stat : StatFile
  wellFormed : stat.WellFormed
  handles : Nat
  cmdline : Text
  exe : Option Text
  cwd : Text

def Process.entry (process : Process) : ProcEntry :=
  ⟨some process.stat, process.handles, some process.cmdline, process.exe, process.cwd⟩

/-- The processes while a walk goes on, and the order in which `/proc` lists them. -/
structure Population where
  proc : List Nat
  process : Nat → Option Process
  listed : ∀ pid, pid ≠ 0 → (pid ∈ proc ↔ (process pid).isSome = true)

def Population.entries (population : Population) (pid : Nat) : ProcEntry :=
  match population.process pid with
  | none => ⟨none, 0, none, none, []⟩
  | some process => process.entry

def Process.record (process : Process) : PsStat :=
  (psRunningTable_GetProcStat (some process.stat) PsStat.blank).getD PsStat.blank

/-- The value of the column for this process. The memory of the system is as the agent knows it. -/
def Process.own (process : Process) (pid : Nat) (column : PsColumn) (system : PsSystem)
    (statics : PsStatics) : Option PsValue :=
  (column.value pid process.entry { system with meminfo := some (system.meminfo.getD none) }
    { statics with stPsStat := process.record }).2

def Population.own (population : Population) (column : PsColumn) (system : PsSystem)
    (statics : PsStatics) (pid : Nat) : Option PsValue :=
  (population.process pid).bind fun process => process.own pid column system statics

def Population.getNext (population : Population) (column : PsColumn) (oid : List Nat)
    (system : PsSystem) (statics : PsStatics) (last : Option Nat) :
    PsStatics × Answer PsValue :=
  var_psRunningTable column (Request.after oid last) (some population.proc) population.entries
    system statics

def PsColumn.implemented (column : PsColumn) : Prop :=
  column ≠ .psRunningContextSwitches ∧ column ≠ .psRunningThreads

variable {population : Population} {column : PsColumn} {oid : List Nat} {system : PsSystem}
  {statics : PsStatics} {pid : Nat}

/-- The figures of the system that a column uses are those of the start of the walk. -/
def Figures (column : PsColumn) (system : PsSystem) (start statics : PsStatics) : Prop :=
  ∀ pid entry stat,
    (column.value pid entry system { statics with stPsStat := stat }).2 =
      (column.value pid entry system { start with stPsStat := stat }).2

theorem value_again (column : PsColumn) (pid other : Nat) (entry found : ProcEntry)
    (system : PsSystem) (statics : PsStatics) (stat : PsStat) :
    (column.value pid entry system
        { (column.value other found system statics).1 with stPsStat := stat }).2 =
      (column.value pid entry system { statics with stPsStat := stat }).2 := by
  cases column with
  | psRunningPercentCpu =>
    cases uptime : system.uptime with
    | none => simp [PsColumn.value, uptime]
    | some figure => simp [PsColumn.value, uptime]
  | psRunningStartTime =>
    cases uptime : system.uptime with
    | none => simp [PsColumn.value, uptime]
    | some figure => simp [PsColumn.value, uptime]
  | psRunningPercentSize =>
    cases meminfo : system.meminfo with
    | none => simp [PsColumn.value, meminfo]
    | some total =>
      cases total with
      | none => simp [PsColumn.value, meminfo]
      | some figure => simp [PsColumn.value, meminfo]
  | _ => rfl

theorem Figures.refl (column : PsColumn) (system : PsSystem) (statics : PsStatics) :
    Figures column system statics statics :=
  fun _ _ _ => rfl

theorem Figures.next {start : PsStatics} (figures : Figures column system start statics)
    (pid : Nat) (entry : ProcEntry) (stat : PsStat) :
    Figures column system start
      (column.value pid entry system { statics with stPsStat := stat }).1 := by
  intro other found record
  calc
    (column.value other found system { (column.value pid entry system
        { statics with stPsStat := stat }).1 with stPsStat := record }).2 =
        (column.value other found system { statics with stPsStat := record }).2 :=
      value_again column other pid found entry system { statics with stPsStat := stat } record
    _ = (column.value other found system { start with stPsStat := record }).2 :=
      figures other found record

theorem Process.read (process : Process) (stat : PsStat) :
    psRunningTable_GetProcStat (some process.stat) stat = some process.record := by
  obtain ⟨fresh, same⟩ := process.wellFormed.fresh
  rw [Process.record, same, same]
  rfl

theorem value_some (implemented : column.implemented) (process : Process) (pid : Nat)
    (system : PsSystem) (statics : PsStatics) :
    ∃ value, (column.value pid process.entry system statics).2 = some value := by
  cases column with
  | psRunningContextSwitches => exact absurd rfl implemented.1
  | psRunningThreads => exact absurd rfl implemented.2
  | psRunningPercentSize =>
    cases meminfo : system.meminfo with
    | none => simp [PsColumn.value, meminfo]
    | some total => simp [PsColumn.value, meminfo]
  | _ => exact ⟨_, rfl⟩

theorem implemented_of_value {entry : ProcEntry} {value : PsValue}
    (valued : (column.value pid entry system statics).2 = some value) : column.implemented := by
  constructor
  · intro missing
    rw [missing] at valued
    cases valued
  · intro missing
    rw [missing] at valued
    cases valued

theorem Process.own_eq (process : Process)
    (known : column = .psRunningPercentSize → system.meminfo ≠ none) :
    process.own pid column system statics =
      (column.value pid process.entry system { statics with stPsStat := process.record }).2 := by
  rw [Process.own]
  cases column with
  | psRunningPercentSize =>
    cases meminfo : system.meminfo with
    | none => exact absurd meminfo (known rfl)
    | some total => simp [PsColumn.value, meminfo]
  | _ => rfl

theorem value_remembered (meminfo : system.meminfo = none) (pid : Nat) (entry : ProcEntry)
    (statics : PsStatics) :
    (PsColumn.psRunningPercentSize.value pid entry system statics).2 =
      some (.number statics.uPMem) := by
  simp [PsColumn.value, meminfo]

theorem Population.getNext_row {last : Option Nat} {index : Nat} {value : PsValue}
    (answer : (population.getNext column oid system statics last).2 = .row index value) :
    ∃ stat, (population.getNext column oid system statics last).1 =
        (column.value index (population.entries index) system
          { statics with stPsStat := stat }).1 ∧
      (column.value index (population.entries index) system
        { statics with stPsStat := stat }).2 = some value := by
  rw [Population.getNext, var_psRunningTable] at answer ⊢
  cases found : header_psRunningTable (Request.after oid last) population.proc with
  | none => simp [found] at answer
  | some pid =>
    simp only [found] at answer ⊢
    cases read : psRunningTable_GetProcStat (population.entries pid).stat statics.stPsStat with
    | none => simp [read] at answer
    | some stat =>
      simp only [read] at answer ⊢
      cases result : column.value pid (population.entries pid) system
          { statics with stPsStat := stat } with
      | mk after valued =>
        cases valued with
        | none => simp [result] at answer
        | some given =>
          simp only [result, Answer.row.injEq] at answer ⊢
          obtain ⟨same, equal⟩ := answer
          rw [← same, ← equal]
          exact ⟨stat, by rw [result], by rw [result]⟩

theorem Population.getNext_next (oid : List Nat) {last : Option Nat} {process : Process}
    {value : PsValue}
    (next : IsNext (live population.proc) last pid)
    (there : population.process pid = some process)
    (valued : (column.value pid process.entry system
      { statics with stPsStat := process.record }).2 = some value) :
    population.getNext column oid system statics last =
      ((column.value pid process.entry system { statics with stPsStat := process.record }).1,
        .row pid value) := by
  have entry : population.entries pid = process.entry := by
    rw [Population.entries, there]
  have read := process.read statics.stPsStat
  rw [Population.getNext, var_psRunningTable]
  simp only [(header_next oid last population.proc pid).mpr next, entry]
  rw [show process.entry.stat = some process.stat from rfl, read]
  cases result : column.value pid process.entry system
      { statics with stPsStat := process.record } with
  | mk after found =>
    rw [result] at valued
    simp only at valued
    simp only [result, valued]

theorem Population.live_process (population : Population) (member : pid ∈ live population.proc) :
    ∃ process, population.process pid = some process := by
  obtain ⟨listed, real⟩ := mem_live.mp member
  exact Option.isSome_iff_exists.mp ((population.listed pid real).mp listed)

/-- What a walk needs: the column has a case, and the remembered share of the memory is used only
where it is the share of each process. -/
def Population.Walkable (population : Population) (column : PsColumn) (system : PsSystem)
    (statics : PsStatics) : Prop :=
  column.implemented ∧
    (column = .psRunningPercentSize → system.meminfo = none →
      ∀ pid ∈ live population.proc,
        population.own column system statics pid = some (.number statics.uPMem))

theorem Population.Walkable.steps (walkable : population.Walkable column system statics) :
    Steps (population.getNext column oid system) (Figures column system statics)
      (live population.proc) (population.own column system statics) := by
  constructor
  · intro state last _ passed
    rw [Population.getNext, var_psRunningTable]
    simp only [header_none oid last population.proc passed]
  · intro state last pid figures next
    obtain ⟨process, there⟩ := population.live_process next.present
    obtain ⟨value, valued⟩ := value_some walkable.1 process pid system
      { state with stPsStat := process.record }
    have answer := Population.getNext_next oid next there valued
    apply Exists.intro value
    rw [answer]
    refine ⟨rfl, ?_, figures.next pid process.entry process.record⟩
    have began : (column.value pid process.entry system
        { statics with stPsStat := process.record }).2 = some value := by
      rw [← figures pid process.entry process.record]
      exact valued
    by_cases remembered : column = .psRunningPercentSize ∧ system.meminfo = none
    · obtain ⟨share, closed⟩ := remembered
      rw [walkable.2 share closed pid next.present]
      rw [share, value_remembered closed] at began
      exact began
    · rw [Population.own, there]
      show process.own pid column system statics = some value
      rw [process.own_eq fun share closed => remembered ⟨share, closed⟩]
      exact began

/-- A walk visits every live process once, in ascending order and with its own values, exactly
where there is a value to be had. -/
theorem Population.walks_iff (population : Population) (column : PsColumn) (oid : List Nat)
    (system : PsSystem) (statics : PsStatics) :
    Walks (population.getNext column oid system) statics (live population.proc)
        (population.own column system statics) ↔
      live population.proc = [] ∨ population.Walkable column system statics := by
  constructor
  · rintro ⟨fuel, rows, ended, visits⟩
    have answered : ∀ pid ∈ live population.proc, ∃ value,
        population.own column system statics pid = some value ∧ ∃ state stat,
          Figures column system statics state ∧
          (column.value pid (population.entries pid) system
            { state with stPsStat := stat }).2 = some value := by
      intro pid member
      obtain ⟨row, listed, same⟩ := List.mem_map.mp ((visits.visited pid).mpr member)
      obtain ⟨state, last, figures, answer⟩ :=
        mem_walk (Figures column system statics)
          (fun state last index value figures answer => by
            obtain ⟨stat, after, _⟩ := Population.getNext_row answer
            rw [after]
            exact figures.next index (population.entries index) stat)
          (Figures.refl column system statics) ended listed
      obtain ⟨stat, _, valued⟩ := Population.getNext_row answer
      rw [same] at valued
      have own := visits.values row listed
      rw [same] at own
      exact ⟨row.2, own, state, stat, figures, valued⟩
    cases listing : live population.proc with
    | nil => exact Or.inl rfl
    | cons first rest =>
      apply Or.inr
      rw [listing] at answered
      constructor
      · obtain ⟨value, _, state, stat, _, valued⟩ := answered first List.mem_cons_self
        exact implemented_of_value valued
      · intro share closed pid member
        rw [listing] at member
        obtain ⟨value, own, state, stat, figures, valued⟩ := answered pid member
        rw [figures pid (population.entries pid) stat] at valued
        rw [own, ← valued, share, value_remembered closed]
  · rintro (nobody | walkable)
    · apply Steps.walks (fun _ => True) _ trivial
      constructor
      · intro state last _ passed
        rw [Population.getNext, var_psRunningTable]
        simp only [header_none oid last population.proc passed]
      · intro state last pid _ next
        have present := next.present
        rw [nobody] at present
        cases present
    · exact walkable.steps.walks _ (Figures.refl column system statics)

end Walks

section Races

variable {column : PsColumn} {request : Request} {proc : Option (List Nat)}
  {entries : Nat → ProcEntry} {system : PsSystem} {statics : PsStatics}

/-- The file of the process is still there and is what it should be. -/
def Readable (stat : Option StatFile) : Prop := ∃ file, stat = some file ∧ file.WellFormed

/-- No memory is touched that was not found, and a process without a readable file has no value. -/
structure RaceRight (column : PsColumn) (request : Request) (proc : Option (List Nat))
    (entries : Nat → ProcEntry) (system : PsSystem) (statics : PsStatics) : Prop where
  clean : (var_psRunningTable column request proc entries system statics).2 ≠ .fault
  gone : ∀ listed pid, proc = some listed → header_psRunningTable request listed = some pid →
    ¬Readable (entries pid).stat →
      (var_psRunningTable column request proc entries system statics).2 = .null

/-- The directory opens; and where the file is not readable it is not searched in vain, and the
column has no value anyway. -/
structure RaceSafe (column : PsColumn) (request : Request) (proc : Option (List Nat))
    (entries : Nat → ProcEntry) : Prop where
  opened : proc ≠ none
  gone : ∀ listed pid, proc = some listed → header_psRunningTable request listed = some pid →
    ¬Readable (entries pid).stat →
      (∀ file, (entries pid).stat = some file → 80 ≤ file.buf.length → file.Splits) ∧
        (¬column.implemented ∨
          column = .psRunningCommandLine ∧ (entries pid).cmdline = none)

theorem StatFile.WellFormed.splits {file : StatFile} (wellFormed : file.WellFormed) :
    file.Splits := by
  obtain ⟨_, format⟩ := wellFormed
  rcases split : strrchr ')' file.buf with _ | ⟨before, _ | ⟨c, behind⟩⟩
  · simp [split] at format
  · simp [split] at format
  · exact ⟨before, c, behind, split⟩

theorem value_none_iff (column : PsColumn) (pid : Nat) (entry : ProcEntry) (system : PsSystem)
    (statics : PsStatics) :
    (column.value pid entry system statics).2 = none ↔
      ¬column.implemented ∨ column = .psRunningCommandLine ∧ entry.cmdline = none := by
  cases column with
  | psRunningContextSwitches => simp [PsColumn.value, PsColumn.implemented]
  | psRunningThreads => simp [PsColumn.value, PsColumn.implemented]
  | psRunningCommandLine => simp [PsColumn.value, PsColumn.implemented]
  | psRunningPercentSize =>
    cases meminfo : system.meminfo with
    | none => simp [PsColumn.value, PsColumn.implemented, meminfo]
    | some total => simp [PsColumn.value, PsColumn.implemented, meminfo]
  | _ => simp [PsColumn.value, PsColumn.implemented]

theorem answer_found {listed : List Nat} {pid : Nat}
    (found : header_psRunningTable request listed = some pid) :
    ((var_psRunningTable column request (some listed) entries system statics).2 = .fault ↔
        ∃ file, (entries pid).stat = some file ∧ 80 ≤ file.buf.length ∧ ¬file.Splits) ∧
      ((var_psRunningTable column request (some listed) entries system statics).2 = .null ↔
        (¬∃ file, (entries pid).stat = some file ∧ 80 ≤ file.buf.length ∧ ¬file.Splits) ∧
          (¬column.implemented ∨
            column = .psRunningCommandLine ∧ (entries pid).cmdline = none)) := by
  rw [← getProcStat_eq_none_iff _ statics.stPsStat, var_psRunningTable]
  simp only [found]
  cases read : psRunningTable_GetProcStat (entries pid).stat statics.stPsStat with
  | none => simp
  | some stat =>
    have valued := value_none_iff column pid (entries pid) system
      { statics with stPsStat := stat }
    simp only
    cases result : column.value pid (entries pid) system { statics with stPsStat := stat } with
    | mk after given =>
      rw [result] at valued
      rw [← valued]
      cases given with
      | none => simp
      | some value => simp

theorem race_iff (column : PsColumn) (request : Request) (proc : Option (List Nat))
    (entries : Nat → ProcEntry) (system : PsSystem) (statics : PsStatics) :
    RaceRight column request proc entries system statics ↔
      RaceSafe column request proc entries := by
  cases proc with
  | none =>
    constructor
    · intro right
      exact absurd rfl right.clean
    · intro safe
      exact absurd rfl safe.opened
  | some listed =>
    constructor
    · intro right
      constructor
      · exact Option.some_ne_none listed
      · intro other pid same found gone
        cases same
        have answer := (answer_found found).2.mp (right.gone listed pid rfl found gone)
        constructor
        · intro file there long
          by_contra missed
          exact answer.1 ⟨file, there, long, missed⟩
        · exact answer.2
    · intro safe
      constructor
      · intro faulted
        cases found : header_psRunningTable request listed with
        | none => simp [var_psRunningTable, found] at faulted
        | some pid =>
          obtain ⟨file, there, long, missed⟩ := (answer_found found).1.mp faulted
          have gone : ¬Readable (entries pid).stat := by
            rintro ⟨other, same, wellFormed⟩
            rw [there] at same
            cases same
            exact missed wellFormed.splits
          exact missed ((safe.gone listed pid rfl found gone).1 file there long)
      · intro other pid same found gone
        cases same
        obtain ⟨splits, nothing⟩ := safe.gone listed pid rfl found gone
        apply (answer_found found).2.mpr
        constructor
        · rintro ⟨file, there, long, missed⟩
          exact missed (splits file there long)
        · exact nothing

end Races

end EveAgent.Nuri
