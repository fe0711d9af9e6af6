import EveAgent.Machine
import EveAgent.ProcMon.ProcThread

namespace EveAgent.ProcMon

section Columns

def PsMonitor.limit (row : PsMonitor) : ResourceColumn → Int
  | .psMonitorCPU => row.psMonitorCPU
  | .psMonitorMEM => row.psMonitorMEM

def PsMonitor.thr (row : PsMonitor) : ResourceColumn → Bool
  | .psMonitorCPU => row.thrcpu
  | .psMonitorMEM => row.thrmem

def PsMonitor.setLimit (row : PsMonitor) (value : Int) : ResourceColumn → PsMonitor
  | .psMonitorCPU => { row with psMonitorCPU := value }
  | .psMonitorMEM => { row with psMonitorMEM := value }

def PsCacheInfo.value (psinfo : PsCacheInfo) : ResourceColumn → Int
  | .psMonitorCPU => psinfo.cpu
  | .psMonitorMEM => psinfo.mem

def ProcessLists.known (lists : ProcessLists) (psinfo : PsCacheInfo) : Bool :=
  decide (psinfo.pid ∈ lists.gpstPrePsInfo)

end Columns

section Runs

/-- An alert, and what it was sent for: the threshold, the values of the processes that match,
and whether nothing has changed since the poll before this one. -/
structure Report where
  type : ResourceColumn
  isAlert : Bool
  limit : Int
  values : List Int
  again : Bool
  deriving DecidableEq, Repr

/-- A poll has `done` a part of the processes; `changed` says that a scan or a SET came since it
began, `again` that none came from the poll before until now. The last report comes first. -/
structure Rounds where
  row : PsMonitor
  lists : ProcessLists
  done : List PsCacheInfo
  todo : List PsCacheInfo
  changed : Bool
  again : Bool
  reports : List Report
  deriving DecidableEq, Repr

inductive RoundEvent where
  /-- `ProcMon_ProcCheckThreadMain` has a list, complete or not. -/
  | scan (pstNewList : List PsCacheInfo) (ret : Bool)
  | setThreshold (type : ResourceColumn) (value : Int)
  | poll
  /-- The poll looks at its next process. -/
  | check
  /-- No process was found, and the thread sends the recoveries before the alert for that. -/
  | down
  deriving DecidableEq, Repr

variable (ProcMon_CheckPattern : List Char → List Char → Bool)

/-- The values of the processes that match the row. -/
def PsMonitor.values (row : PsMonitor) (psinfos : List PsCacheInfo) (type : ResourceColumn) :
    List Int :=
  (psinfos.filter (counted ProcMon_CheckPattern row)).map fun psinfo => psinfo.value type

/-- The alerts of a column become reports, one after the other. -/
def PsMonitor.send (row : PsMonitor) (psinfos : List PsCacheInfo) (again : Bool) :
    List Report → List ProcAlert → List Report
  | reports, .resource type isAlert :: alerts =>
    row.send psinfos again (⟨type, isAlert, row.limit type,
      row.values ProcMon_CheckPattern psinfos type, again⟩ :: reports) alerts
  | reports, _ :: alerts => row.send psinfos again reports alerts
  | reports, [] => reports

def Rounds.scan (rounds : Rounds) (pstNewList : List PsCacheInfo) (ret : Bool) : Rounds :=
  if ret = false then
    { rounds with
      lists := { rounds.lists with full_process_list := false }
      changed := true
      again := false }
  else if pstNewList = [] then rounds
  else
    { rounds with
      lists := ⟨pstNewList, true, rounds.lists.gpstPsInfo.map PsCacheInfo.pid⟩
      changed := true
      again := false }

def Rounds.check (rounds : Rounds) (psinfo : PsCacheInfo) (todo : List PsCacheInfo) : Rounds :=
  let rounds := { rounds with done := rounds.done ++ [psinfo], todo := todo }
  if counted ProcMon_CheckPattern rounds.row psinfo then
    let checked := checkThreshold rounds.lists psinfo rounds.row
    { rounds with
      row := checked.1
      reports := rounds.row.send ProcMon_CheckPattern rounds.lists.gpstPsInfo rounds.again
        rounds.reports checked.2 }
  else rounds

def Rounds.step (rounds : Rounds) : RoundEvent → Option Rounds
  | .scan pstNewList ret =>
    if rounds.todo = [] then some (rounds.scan pstNewList ret) else some rounds
  | .setThreshold type value =>
    some { rounds with row := rounds.row.setLimit value type, changed := true, again := false }
  | .poll =>
    if rounds.todo = [] ∧ rounds.lists.gpstPsInfo ≠ [] ∧
        rounds.lists.full_process_list = true then
      some { rounds with
        done := []
        todo := rounds.lists.gpstPsInfo
        changed := false
        again := !rounds.changed }
    else some rounds
  | .check =>
    match rounds.todo with
    | [] => some rounds
    | psinfo :: todo => some (rounds.check ProcMon_CheckPattern psinfo todo)
  | .down =>
    if rounds.todo = [] ∧ rounds.done.filter (counted ProcMon_CheckPattern rounds.row) = [] then
      let thread : ProcThread := ProcThread.recoverResources ⟨rounds.row, 0, []⟩
      some { rounds with
        row := thread.row
        reports := rounds.row.send ProcMon_CheckPattern rounds.done false rounds.reports
          thread.sent }
    else some rounds

/-- The thread has started; a poll of the lists is not one of unchanged ones. -/
def roundsStart (row : PsMonitor) (lists : ProcessLists) : Rounds :=
  ⟨{ row with thrcpu := false, thrmem := false }, lists, [], [], true, false, []⟩

end Runs

section Property

/-- The last alert for the column says that the threshold is exceeded. -/
def outstanding (type : ResourceColumn) (earlier : List Report) : Bool :=
  (earlier.find? fun report => report.type = type).any Report.isAlert

/-- An alert has a process for it and none outstanding, a recovery has one outstanding and no
process against it, and neither is sent where nothing has changed. -/
def Report.Proper (report : Report) (earlier : List Report) : Prop :=
  report.again = false ∧
    if report.isAlert then
      outstanding report.type earlier = false ∧ 0 < report.limit ∧
        ∃ value ∈ report.values, report.limit ≤ value
    else
      outstanding report.type earlier = true ∧ ∀ value ∈ report.values, value < report.limit

def ProcAlert.ofResource : ProcAlert → Bool
  | .resource _ _ => true
  | _ => false

def AllProper : List Report → Prop
  | [] => True
  | report :: earlier => report.Proper earlier ∧ AllProper earlier

variable (ProcMon_CheckPattern : List Char → List Char → Bool)

/-- A new process is at a threshold only while none is exceeded; and an old one is below a
threshold that is exceeded only with all others. -/
def Calm (rounds : Rounds) : RoundEvent → Prop
  | .check => ∀ psinfo ∈ rounds.todo.head?,
      counted ProcMon_CheckPattern rounds.row psinfo = true → ∀ type, 0 < rounds.row.limit type →
        (rounds.lists.known psinfo = false → rounds.row.limit type ≤ psinfo.value type →
          rounds.row.thr type = false) ∧
        (rounds.lists.known psinfo = true → psinfo.value type < rounds.row.limit type →
          rounds.row.thr type = true →
            ∀ value ∈ rounds.row.values ProcMon_CheckPattern rounds.lists.gpstPsInfo type,
              value < rounds.row.limit type)
  | _ => True

end Property

section Alerts

variable {type : ResourceColumn} {known thr again : Bool} {limit value : Int}
  {values : List Int} {earlier : List Report}

@[simp] theorem outstanding_nil (type : ResourceColumn) : outstanding type [] = false := rfl

theorem outstanding_cons (type : ResourceColumn) (report : Report) (earlier : List Report) :
    outstanding type (report :: earlier) =
      if report.type = type then report.isAlert else outstanding type earlier := by
  rw [outstanding, List.find?_cons]
  by_cases same : report.type = type
  · simp [same]
  · simp [same, outstanding]

theorem checkColumn_cases (type : ResourceColumn) (known : Bool) (limit value : Int) (thr : Bool) :
    (checkColumn type known limit value thr = (thr, []) ∧ (0 < limit →
        (limit ≤ value → known = true ∧ thr = true) ∧
          (value < limit → known = true → thr = false))) ∨
      (checkColumn type known limit value thr = (true, [.resource type true]) ∧ 0 < limit ∧
        limit ≤ value ∧ (known = true → thr = false)) ∨
      (checkColumn type known limit value thr = (false, [.resource type false]) ∧ 0 < limit ∧
        value < limit ∧ known = true ∧ thr = true) := by
  rw [checkColumn]
  by_cases unset : limit ≤ 0
  · rw [if_pos unset]
    exact Or.inl ⟨rfl, fun positive => absurd positive (not_lt.mpr unset)⟩
  · rw [if_neg unset]
    cases known <;> cases thr <;> rcases lt_or_ge value limit with below | above <;> grind

def columnReports (type : ResourceColumn) (limit : Int) (values : List Int) (again : Bool)
    (earlier : List Report) : List ProcAlert → List Report
  | [.resource _ isAlert] => ⟨type, isAlert, limit, values, again⟩ :: earlier
  | _ => earlier

def CalmColumn (known thr : Bool) (limit value : Int) (values : List Int) : Prop :=
  0 < limit → (known = false → limit ≤ value → thr = false) ∧
    (known = true → value < limit → thr = true → ∀ value ∈ values, value < limit)

/-- What is known of a process after the poll before this one. -/
def SettledColumn (known thr : Bool) (limit value : Int) (values : List Int) : Prop :=
  0 < limit → (limit ≤ value → thr = true) ∧
    (known = true → (∀ value ∈ values, value < limit) → thr = false)

theorem lawful_column (member : value ∈ values) (same : thr = outstanding type earlier)
    (settled : AllProper earlier → again = true → SettledColumn known thr limit value values) :
    AllProper (columnReports type limit values again earlier
        (checkColumn type known limit value thr).2) ↔
      AllProper earlier ∧ CalmColumn known thr limit value values := by
  rcases checkColumn_cases type known limit value thr with ⟨none, quiet⟩ |
    ⟨exceeded, positive, above, flag⟩ | ⟨recovered, positive, below, old, flag⟩
  · rw [none]
    refine (and_iff_left fun positive => ⟨fun new above => ?_, fun old below flag => ?_⟩).symm
    · have old := ((quiet positive).1 above).1
      rw [new] at old
      cases old
    · have unset := (quiet positive).2 below old
      rw [flag] at unset
      cases unset
  · rw [exceeded]
    constructor
    · rintro ⟨⟨-, unset, -⟩, lawful⟩
      refine ⟨lawful, fun _ => ⟨fun _ _ => same.trans unset, fun _ below => ?_⟩⟩
      exact absurd above (not_le.mpr below)
    · rintro ⟨lawful, calm⟩
      have unset : thr = false := by
        cases old : known with
        | true => exact flag old
        | false => exact (calm positive).1 old above
      have first : again = false := by
        cases unchanged : again with
        | false => rfl
        | true =>
          have flagged := (settled lawful unchanged positive).1 above
          rw [unset] at flagged
          cases flagged
      exact ⟨⟨first, same.symm.trans unset, positive, value, member, above⟩, lawful⟩
  · rw [recovered]
    constructor
    · rintro ⟨⟨-, -, all⟩, lawful⟩
      exact ⟨lawful, fun _ => ⟨fun _ above => absurd above (not_le.mpr below), fun _ _ _ => all⟩⟩
    · rintro ⟨lawful, calm⟩
      have all := (calm positive).2 old below flag
      have first : again = false := by
        cases unchanged : again with
        | false => rfl
        | true =>
          have unset := (settled lawful unchanged positive).2 old all
          rw [flag] at unset
          cases unset
      exact ⟨⟨first, same.symm.trans flag, all⟩, lawful⟩

theorem outstanding_column (same : thr = outstanding type earlier) :
    (checkColumn type known limit value thr).1 =
      outstanding type (columnReports type limit values again earlier
        (checkColumn type known limit value thr).2) := by
  rcases checkColumn_cases type known limit value thr with ⟨none, -⟩ | ⟨exceeded, -⟩ |
    ⟨recovered, -⟩
  · rw [none]
    exact same
  · rw [exceeded, columnReports, outstanding_cons, if_pos rfl]
  · rw [recovered, columnReports, outstanding_cons, if_pos rfl]

theorem outstanding_other {other : ResourceColumn} (different : type ≠ other) :
    outstanding other (columnReports type limit values again earlier
        (checkColumn type known limit value thr).2) = outstanding other earlier := by
  rcases checkColumn_cases type known limit value thr with ⟨none, -⟩ | ⟨exceeded, -⟩ |
    ⟨recovered, -⟩
  · rw [none]
    rfl
  · rw [exceeded, columnReports, outstanding_cons, if_neg different]
  · rw [recovered, columnReports, outstanding_cons, if_neg different]

/-- What a check makes known of the processes that the poll has seen: `atLimit` says that one of
them is at the threshold, `old` that one of them was there before. -/
structure Seen (limit : Int) (values : List Int) (atLimit old : Prop) (thr : Bool) : Prop where
  exceeded : atLimit → thr = true
  recovered : (∀ value ∈ values, value < limit) → old → thr = false

theorem seen_column {atLimit old : Prop} (type : ResourceColumn) (positive : 0 < limit)
    (calm : CalmColumn known thr limit value values)
    (above : atLimit → ∃ value ∈ values, limit ≤ value)
    (member : value ∈ values) (seen : Seen limit values atLimit old thr) :
    Seen limit values (atLimit ∨ limit ≤ value) (old ∨ known = true)
      (checkColumn type known limit value thr).1 := by
  rcases checkColumn_cases type known limit value thr with ⟨none, quiet⟩ |
    ⟨exceeded, -, atTop, flag⟩ | ⟨recovered, -, below, was, flag⟩
  · rw [none]
    constructor
    · rintro (before | now)
      · exact seen.exceeded before
      · exact ((quiet positive).1 now).2
    · rintro all (before | now)
      · exact seen.recovered all before
      · exact (quiet positive).2 (all value member) now
  · rw [exceeded]
    exact ⟨fun _ => rfl, fun all => absurd (all value member) (not_lt.mpr atTop)⟩
  · rw [recovered]
    have all := (calm positive).2 was below flag
    constructor
    · rintro (before | now)
      · obtain ⟨other, there, atLeast⟩ := above before
        exact absurd (all other there) (not_lt.mpr atLeast)
      · exact absurd below (not_lt.mpr now)
    · exact fun _ _ => rfl

theorem Seen.mono {atLimit old atLimit' old' : Prop} (seen : Seen limit values atLimit old thr)
    (limits : atLimit' → atLimit) (olds : old' → old) : Seen limit values atLimit' old' thr :=
  ⟨fun now => seen.exceeded (limits now), fun all now => seen.recovered all (olds now)⟩

end Alerts

section Rounds

variable {ProcMon_CheckPattern : List Char → List Char → Bool} {rounds : Rounds}
  {row : PsMonitor}

theorem send_columns (psinfos : List PsCacheInfo) (again : Bool) (reports : List Report)
    (known : Bool) (cpu mem : Int) (thrcpu thrmem : Bool) :
    row.send ProcMon_CheckPattern psinfos again reports
        ((checkColumn .psMonitorCPU known row.psMonitorCPU cpu thrcpu).2 ++
          (checkColumn .psMonitorMEM known row.psMonitorMEM mem thrmem).2) =
      columnReports .psMonitorMEM row.psMonitorMEM
        (row.values ProcMon_CheckPattern psinfos .psMonitorMEM) again
        (columnReports .psMonitorCPU row.psMonitorCPU
          (row.values ProcMon_CheckPattern psinfos .psMonitorCPU) again reports
          (checkColumn .psMonitorCPU known row.psMonitorCPU cpu thrcpu).2)
        (checkColumn .psMonitorMEM known row.psMonitorMEM mem thrmem).2 := by
  rcases checkColumn_cases .psMonitorCPU known row.psMonitorCPU cpu thrcpu with
    ⟨first, -⟩ | ⟨first, -⟩ | ⟨first, -⟩ <;>
  rcases checkColumn_cases .psMonitorMEM known row.psMonitorMEM mem thrmem with
    ⟨second, -⟩ | ⟨second, -⟩ | ⟨second, -⟩ <;>
  rw [first, second] <;> rfl

/-- The processes that the poll has seen, or the one before it on the same lists. -/
def Rounds.seen (rounds : Rounds) : List PsCacheInfo :=
  if rounds.again then rounds.lists.gpstPsInfo else rounds.done

structure Steady (ProcMon_CheckPattern : List Char → List Char → Bool) (rounds : Rounds) :
    Prop where
  flags : ∀ type, rounds.row.thr type = outstanding type rounds.reports
  split : rounds.todo ≠ [] ∨ rounds.changed = false →
    rounds.lists.gpstPsInfo = rounds.done ++ rounds.todo
  unchanged : rounds.again = true → rounds.changed = false
  settled : AllProper rounds.reports → rounds.changed = false → ∀ type, 0 < rounds.row.limit type →
    Seen (rounds.row.limit type)
      (rounds.row.values ProcMon_CheckPattern rounds.lists.gpstPsInfo type)
      (∃ psinfo ∈ rounds.seen, counted ProcMon_CheckPattern rounds.row psinfo = true ∧
        rounds.row.limit type ≤ psinfo.value type)
      (∃ psinfo ∈ rounds.seen, counted ProcMon_CheckPattern rounds.row psinfo = true ∧
        rounds.lists.known psinfo = true)
      (rounds.row.thr type)

theorem mem_values {psinfos : List PsCacheInfo} {psinfo : PsCacheInfo} (member : psinfo ∈ psinfos)
    (count : counted ProcMon_CheckPattern row psinfo = true) (type : ResourceColumn) :
    psinfo.value type ∈ row.values ProcMon_CheckPattern psinfos type :=
  List.mem_map_of_mem (List.mem_filter.mpr ⟨member, count⟩)

theorem Steady.settledColumn (steady : Steady ProcMon_CheckPattern rounds) {psinfo : PsCacheInfo}
    (member : psinfo ∈ rounds.lists.gpstPsInfo)
    (count : counted ProcMon_CheckPattern rounds.row psinfo = true) (type : ResourceColumn)
    (lawful : AllProper rounds.reports) (again : rounds.again = true) :
    SettledColumn (rounds.lists.known psinfo) (rounds.row.thr type) (rounds.row.limit type)
      (psinfo.value type)
      (rounds.row.values ProcMon_CheckPattern rounds.lists.gpstPsInfo type) := by
  intro positive
  have seen := steady.settled lawful (steady.unchanged again) type positive
  have all : rounds.seen = rounds.lists.gpstPsInfo := if_pos again
  rw [all] at seen
  exact ⟨fun above => seen.exceeded ⟨psinfo, member, count, above⟩,
    fun old small => seen.recovered small ⟨psinfo, member, count, old⟩⟩

theorem check_counted (steady : Steady ProcMon_CheckPattern rounds) {psinfo : PsCacheInfo}
    {todo : List PsCacheInfo} (next : rounds.todo = psinfo :: todo)
    (count : counted ProcMon_CheckPattern rounds.row psinfo = true) :
    let after := rounds.check ProcMon_CheckPattern psinfo todo
    (AllProper after.reports ↔ AllProper rounds.reports ∧
      ∀ type, CalmColumn (rounds.lists.known psinfo) (rounds.row.thr type) (rounds.row.limit type)
        (psinfo.value type) (rounds.row.values ProcMon_CheckPattern rounds.lists.gpstPsInfo type)) ∧
      (∀ type, after.row.thr type = outstanding type after.reports) ∧
      ∀ type, after.row.thr type = (checkColumn type (rounds.lists.known psinfo)
        (rounds.row.limit type) (psinfo.value type) (rounds.row.thr type)).1 := by
  have member : psinfo ∈ rounds.lists.gpstPsInfo := by
    rw [steady.split (Or.inl (by rw [next]; exact List.cons_ne_nil _ _)), next]
    exact List.mem_append_right _ List.mem_cons_self
  have reports : (rounds.check ProcMon_CheckPattern psinfo todo).reports =
      columnReports .psMonitorMEM rounds.row.psMonitorMEM
        (rounds.row.values ProcMon_CheckPattern rounds.lists.gpstPsInfo .psMonitorMEM) rounds.again
        (columnReports .psMonitorCPU rounds.row.psMonitorCPU
          (rounds.row.values ProcMon_CheckPattern rounds.lists.gpstPsInfo .psMonitorCPU)
          rounds.again
          rounds.reports (checkColumn .psMonitorCPU (rounds.lists.known psinfo)
            rounds.row.psMonitorCPU psinfo.cpu rounds.row.thrcpu).2)
        (checkColumn .psMonitorMEM (rounds.lists.known psinfo) rounds.row.psMonitorMEM psinfo.mem
          rounds.row.thrmem).2 := by
    rw [← send_columns, Rounds.check, if_pos count]
    rfl
  have thresholds : ∀ type, (rounds.check ProcMon_CheckPattern psinfo todo).row.thr type =
      (checkColumn type (rounds.lists.known psinfo) (rounds.row.limit type) (psinfo.value type)
        (rounds.row.thr type)).1 := by
    intro type
    rw [Rounds.check, if_pos count]
    cases type <;> rfl
  have cpuFlag := steady.flags .psMonitorCPU
  have memFlag := steady.flags .psMonitorMEM
  have cpuSettled := steady.settledColumn member count .psMonitorCPU
  have memSettled := steady.settledColumn member count .psMonitorMEM
  have cpuMember := mem_values member count .psMonitorCPU
  have memMember := mem_values member count .psMonitorMEM
  have first := lawful_column cpuMember cpuFlag cpuSettled
  have kept := (@outstanding_other .psMonitorCPU (rounds.lists.known psinfo) rounds.row.thrcpu
    rounds.again rounds.row.psMonitorCPU psinfo.cpu
    (rounds.row.values ProcMon_CheckPattern rounds.lists.gpstPsInfo .psMonitorCPU) rounds.reports
    .psMonitorMEM (by decide))
  have second := lawful_column memMember (memFlag.trans kept.symm) fun lawful again =>
    memSettled (first.mp lawful).1 again
  refine ⟨?_, ?_, thresholds⟩
  · rw [reports]
    refine second.trans ((and_congr_left' first).trans ?_)
    constructor
    · rintro ⟨⟨lawful, cpu⟩, mem⟩
      refine ⟨lawful, fun type => ?_⟩
      cases type
      · exact cpu
      · exact mem
    · rintro ⟨lawful, calm⟩
      exact ⟨⟨lawful, calm .psMonitorCPU⟩, calm .psMonitorMEM⟩
  · intro type
    rw [thresholds, reports]
    cases type
    · exact (outstanding_column cpuFlag).trans (outstanding_other (by decide)).symm
    · exact outstanding_column (memFlag.trans kept.symm)

theorem check_uncounted {psinfo : PsCacheInfo} {todo : List PsCacheInfo}
    (count : ¬ counted ProcMon_CheckPattern rounds.row psinfo = true) :
    rounds.check ProcMon_CheckPattern psinfo todo =
      { rounds with done := rounds.done ++ [psinfo], todo := todo } := by
  rw [Rounds.check]
  exact if_neg count

theorem check_frame (psinfo : PsCacheInfo) (todo : List PsCacheInfo) :
    let after := rounds.check ProcMon_CheckPattern psinfo todo
    after.lists = rounds.lists ∧ after.done = rounds.done ++ [psinfo] ∧ after.todo = todo ∧
      after.changed = rounds.changed ∧ after.again = rounds.again ∧
      after.row.limit = rounds.row.limit ∧
      counted ProcMon_CheckPattern after.row = counted ProcMon_CheckPattern rounds.row := by
  rw [Rounds.check]
  split
  · exact ⟨rfl, rfl, rfl, rfl, rfl, funext fun type => by cases type <;> rfl, rfl⟩
  · exact ⟨rfl, rfl, rfl, rfl, rfl, rfl, rfl⟩

theorem mem_seen_check {psinfo other : PsCacheInfo} {todo : List PsCacheInfo}
    (seen : other ∈ (rounds.check ProcMon_CheckPattern psinfo todo).seen) :
    other ∈ rounds.seen ∨ other = psinfo := by
  obtain ⟨lists, done, -, -, again, -, -⟩ :=
    @check_frame ProcMon_CheckPattern rounds psinfo todo
  rw [Rounds.seen, lists, done, again] at seen
  rw [Rounds.seen]
  split
  · rename_i unchanged
    rw [if_pos unchanged] at seen
    exact Or.inl seen
  · rename_i first
    rw [if_neg first] at seen
    simpa using seen

theorem check_steady (steady : Steady ProcMon_CheckPattern rounds) {psinfo : PsCacheInfo}
    {todo : List PsCacheInfo} (next : rounds.todo = psinfo :: todo) :
    Steady ProcMon_CheckPattern (rounds.check ProcMon_CheckPattern psinfo todo) := by
  have split := steady.split (Or.inl (by rw [next]; exact List.cons_ne_nil _ _))
  rw [next] at split
  have member : psinfo ∈ rounds.lists.gpstPsInfo := by
    rw [split]
    exact List.mem_append_right _ List.mem_cons_self
  have moved : rounds.lists.gpstPsInfo = (rounds.done ++ [psinfo]) ++ todo := by
    rw [split, List.append_assoc, List.singleton_append]
  have inside : ∀ other ∈ rounds.seen, other ∈ rounds.lists.gpstPsInfo := by
    intro other seen
    rw [Rounds.seen] at seen
    by_cases again : rounds.again = true
    · rw [if_pos again] at seen
      exact seen
    · rw [if_neg again] at seen
      rw [split]
      exact List.mem_append_left _ seen
  obtain ⟨lists, done, rest, changed, again, limit, same⟩ :=
    @check_frame ProcMon_CheckPattern rounds psinfo todo
  by_cases count : counted ProcMon_CheckPattern rounds.row psinfo = true
  · obtain ⟨lawful_iff, flags, thresholds⟩ := check_counted steady next count
    constructor
    · exact flags
    · rw [lists, done, rest]
      exact fun _ => moved
    · rw [again, changed]
      exact steady.unchanged
    · intro lawful still type positive
      obtain ⟨before, calm⟩ := lawful_iff.mp lawful
      rw [changed] at still
      rw [limit] at positive ⊢
      have seen := seen_column type positive (calm type)
        (fun ⟨other, there, matched, above⟩ =>
          ⟨_, mem_values (inside other there) matched type, above⟩)
        (mem_values member count type) (steady.settled before still type positive)
      rw [PsMonitor.values, same, lists, thresholds]
      refine seen.mono ?_ ?_
      · rintro ⟨other, there, matched, above⟩
        rcases mem_seen_check there with old | now
        · exact Or.inl ⟨other, old, matched, above⟩
        · exact Or.inr (now ▸ above)
      · rintro ⟨other, there, matched, known⟩
        rcases mem_seen_check there with old | now
        · exact Or.inl ⟨other, old, matched, known⟩
        · exact Or.inr (now ▸ known)
  · have unchecked := @check_uncounted _ _ _ todo count
    constructor
    · rw [unchecked]
      exact steady.flags
    · rw [lists, done, rest]
      exact fun _ => moved
    · rw [again, changed]
      exact steady.unchanged
    · intro lawful still type positive
      rw [changed] at still
      rw [limit] at positive ⊢
      have reports : (rounds.check ProcMon_CheckPattern psinfo todo).reports = rounds.reports := by
        rw [unchecked]
      have flag : (rounds.check ProcMon_CheckPattern psinfo todo).row.thr type =
          rounds.row.thr type := by
        rw [unchecked]
      rw [reports] at lawful
      have seen := steady.settled lawful still type positive
      rw [PsMonitor.values, same, lists, flag]
      refine seen.mono ?_ ?_
      · rintro ⟨other, there, matched, above⟩
        rcases mem_seen_check there with old | now
        · exact ⟨other, old, matched, above⟩
        · exact absurd (now ▸ matched) count
      · rintro ⟨other, there, matched, known⟩
        rcases mem_seen_check there with old | now
        · exact ⟨other, old, matched, known⟩
        · exact absurd (now ▸ matched) count

theorem recovery_lawful {type : ResourceColumn} {limit : Int} {reports : List Report}
    (flag : outstanding type reports = true) :
    AllProper (⟨type, false, limit, [], false⟩ :: reports) ↔ AllProper reports :=
  and_iff_right ⟨rfl, flag, fun _ member => absurd member List.not_mem_nil⟩

theorem recoverResources_eq (row : PsMonitor) :
    ProcThread.recoverResources ⟨row, 0, []⟩ =
      ⟨{ row with thrcpu := false, thrmem := false }, 0,
        (if row.thrcpu then [.resource .psMonitorCPU false] else []) ++
          (if row.thrmem then [.resource .psMonitorMEM false] else [])⟩ := by
  obtain ⟨_, _, _, _, _, _, thrcpu, thrmem⟩ := row
  cases thrcpu <;> cases thrmem <;> rfl

theorem down_lawful (flags : ∀ type, row.thr type = outstanding type rounds.reports)
    {psinfos : List PsCacheInfo} (none : psinfos.filter (counted ProcMon_CheckPattern row) = []) :
    let thread : ProcThread := ProcThread.recoverResources ⟨row, 0, []⟩
    let reports := row.send ProcMon_CheckPattern psinfos false rounds.reports thread.sent
    (AllProper reports ↔ AllProper rounds.reports) ∧
      ∀ type, thread.row.thr type = outstanding type reports := by
  have values : ∀ type, row.values ProcMon_CheckPattern psinfos type = [] := by
    intro type
    rw [PsMonitor.values, none, List.map_nil]
  have cpu : row.thrcpu = outstanding .psMonitorCPU rounds.reports := flags .psMonitorCPU
  have mem : row.thrmem = outstanding .psMonitorMEM rounds.reports := flags .psMonitorMEM
  have unset : ∀ type,
      PsMonitor.thr { row with thrcpu := false, thrmem := false } type = false := by
    intro type
    cases type <;> rfl
  rw [recoverResources_eq]
  simp only [unset]
  cases cpuFlag : row.thrcpu <;> cases memFlag : row.thrmem <;> rw [cpuFlag] at cpu <;>
    rw [memFlag] at mem
  · refine ⟨Iff.rfl, fun type => ?_⟩
    cases type
    · exact cpu
    · exact mem
  · simp only [PsMonitor.send, values, Bool.false_eq_true, if_false, if_true, List.nil_append]
    refine ⟨recovery_lawful mem.symm, fun type => ?_⟩
    rw [outstanding_cons]
    cases type
    · exact cpu
    · rfl
  · simp only [PsMonitor.send, values, Bool.false_eq_true, if_false, if_true, List.append_nil]
    refine ⟨recovery_lawful cpu.symm, fun type => ?_⟩
    rw [outstanding_cons]
    cases type
    · rfl
    · exact mem
  · simp only [PsMonitor.send, values, if_true, List.singleton_append]
    have still : outstanding .psMonitorMEM (⟨.psMonitorCPU, false, row.limit .psMonitorCPU, [],
        false⟩ :: rounds.reports) = true := by
      rw [outstanding_cons]
      exact mem.symm
    refine ⟨(recovery_lawful still).trans (recovery_lawful cpu.symm), fun type => ?_⟩
    rw [outstanding_cons]
    cases type
    · rw [outstanding_cons]
      rfl
    · rfl

theorem step_exactly (steady : Steady ProcMon_CheckPattern rounds) (event : RoundEvent)
    {after : Rounds} (stepped : rounds.step ProcMon_CheckPattern event = some after) :
    Steady ProcMon_CheckPattern after ∧
      (AllProper after.reports ↔
        AllProper rounds.reports ∧ Calm ProcMon_CheckPattern rounds event) := by
  have free : ∀ {P : Prop}, P ↔ P ∧ True := (and_iff_left trivial).symm
  cases event with
  | scan pstNewList ret =>
    rw [Rounds.step] at stepped
    split at stepped
    · rename_i idle
      cases stepped
      rw [Rounds.scan]
      have busy : ∀ {P : Prop}, rounds.todo ≠ [] ∨ true = false → P := by
        rintro P (busy | same)
        · exact absurd idle busy
        · cases same
      split
      · exact ⟨⟨steady.flags, busy, nofun, nofun⟩, free⟩
      · split
        · exact ⟨steady, free⟩
        · exact ⟨⟨steady.flags, busy, nofun, nofun⟩, free⟩
    · cases stepped
      exact ⟨steady, free⟩
  | setThreshold type value =>
    cases stepped
    refine ⟨⟨?_, ?_, nofun, nofun⟩, free⟩
    · intro column
      rw [← steady.flags column]
      cases type <;> cases column <;> rfl
    · rintro (busy | unchanged)
      · exact steady.split (Or.inl busy)
      · cases unchanged
  | poll =>
    rw [Rounds.step] at stepped
    split at stepped
    · rename_i begins
      cases stepped
      obtain ⟨idle, -, -⟩ := begins
      refine ⟨⟨steady.flags, fun _ => rfl, fun _ => rfl, ?_⟩, free⟩
      intro lawful _ type positive
      by_cases changed : rounds.changed = true
      · have nothing : Rounds.seen { rounds with
            done := [], todo := rounds.lists.gpstPsInfo, changed := false,
            again := !rounds.changed } = [] := by
          rw [Rounds.seen, changed]
          rfl
        rw [nothing]
        exact ⟨nofun, fun _ => nofun⟩
      · have unchanged : rounds.changed = false := Bool.not_eq_true _ ▸ changed
        have all : Rounds.seen { rounds with
            done := [], todo := rounds.lists.gpstPsInfo, changed := false,
            again := !rounds.changed } = rounds.seen := by
          have done := steady.split (Or.inr unchanged)
          rw [idle, List.append_nil] at done
          rw [Rounds.seen, Rounds.seen, unchanged, done]
          simp
        rw [all]
        exact steady.settled lawful unchanged type positive
    · cases stepped
      exact ⟨steady, free⟩
  | check =>
    rw [Rounds.step] at stepped
    split at stepped
    · rename_i nothing
      cases stepped
      refine ⟨steady, (and_iff_left ?_).symm⟩
      intro psinfo first
      rw [nothing] at first
      cases first
    · rename_i psinfo todo next
      cases stepped
      refine ⟨check_steady steady next, ?_⟩
      by_cases count : counted ProcMon_CheckPattern rounds.row psinfo = true
      · refine (check_counted steady next count).1.trans (and_congr_right fun _ => ?_)
        constructor
        · rintro calm other first - type positive
          rw [next] at first
          cases first
          exact calm type positive
        · intro calm type
          exact calm psinfo (by rw [next]; rfl) count type
      · rw [check_uncounted count]
        refine (and_iff_left ?_).symm
        intro other first matched
        rw [next] at first
        cases first
        exact absurd matched count
  | down =>
    rw [Rounds.step] at stepped
    split at stepped
    · rename_i ends
      cases stepped
      obtain ⟨idle, none⟩ := ends
      obtain ⟨lawful_iff, flags⟩ :=
        @down_lawful ProcMon_CheckPattern rounds rounds.row steady.flags
        rounds.done none
      refine ⟨⟨flags, steady.split, steady.unchanged, ?_⟩, lawful_iff.trans free⟩
      intro lawful unchanged type positive
      have done := steady.split (Or.inr unchanged)
      rw [idle, List.append_nil] at done
      have seen : rounds.seen = rounds.done := by
        rw [Rounds.seen, done]
        simp
      have unmatched : ∀ psinfo ∈ rounds.seen,
          counted ProcMon_CheckPattern rounds.row psinfo = true → False := by
        intro psinfo there matched
        rw [seen] at there
        have inside := List.mem_filter.mpr ⟨there, matched⟩
        rw [none] at inside
        cases inside
      have same : counted ProcMon_CheckPattern
          (ProcThread.recoverResources ⟨rounds.row, 0, []⟩).row =
            counted ProcMon_CheckPattern rounds.row := by
        rw [recoverResources_eq]
        rfl
      constructor
      · rintro ⟨psinfo, there, matched, -⟩
        exact (unmatched psinfo there (same ▸ matched)).elim
      · rintro - ⟨psinfo, there, matched, -⟩
        exact (unmatched psinfo there (same ▸ matched)).elim
    · cases stepped
      exact ⟨steady, free⟩

theorem roundsStart_steady (row : PsMonitor) (lists : ProcessLists) :
    Steady ProcMon_CheckPattern (roundsStart row lists) := by
  refine ⟨fun type => ?_, ?_, nofun, nofun⟩
  · cases type <;> rfl
  · rintro (busy | same)
    · exact absurd rfl busy
    · cases same

theorem step_total (rounds : Rounds) (event : RoundEvent) :
    ∃ after, rounds.step ProcMon_CheckPattern event = some after := by
  cases event <;> rw [Rounds.step]
  · split <;> exact ⟨_, rfl⟩
  · exact ⟨_, rfl⟩
  · split <;> exact ⟨_, rfl⟩
  · split <;> exact ⟨_, rfl⟩
  · split <;> exact ⟨_, rfl⟩

/-- The alerts of a column, the last one first. -/
def alertsOf (type : ResourceColumn) (reports : List Report) : List Bool :=
  (reports.filter fun report => report.type = type).map Report.isAlert

theorem outstanding_alertsOf (type : ResourceColumn) (reports : List Report) :
    outstanding type reports = (alertsOf type reports).head?.getD false := by
  induction reports with
  | nil => rfl
  | cons report reports ih =>
    rw [outstanding_cons, alertsOf, List.filter_cons]
    by_cases same : report.type = type
    · simp [same]
    · rw [if_neg same, if_neg (by simpa using same)]
      exact ih

theorem AllProper.alternate {reports : List Report} (lawful : AllProper reports)
    (type : ResourceColumn) :
    (alertsOf type reports ++ [false]).IsChain (· ≠ ·) := by
  induction reports with
  | nil => exact List.isChain_singleton _
  | cons report reports ih =>
    obtain ⟨proper, lawful⟩ := lawful
    have later := ih lawful
    rw [alertsOf, List.filter_cons]
    by_cases same : report.type = type
    · rw [if_pos (by simpa using same), List.map_cons, List.cons_append]
      have other : report.isAlert ≠ outstanding type reports := by
        obtain ⟨-, sent⟩ := proper
        rw [same] at sent
        cases alert : report.isAlert
        · rw [alert] at sent
          exact sent.1 ▸ Bool.false_ne_true
        · rw [alert] at sent
          exact sent.1 ▸ Bool.false_ne_true.symm
      rw [outstanding_alertsOf] at other
      change (report.isAlert :: (alertsOf type reports ++ [false])).IsChain (· ≠ ·)
      cases before : alertsOf type reports with
      | nil =>
        rw [before] at other
        exact List.isChain_pair.mpr other
      | cons alert alerts =>
        rw [before] at other later
        exact List.isChain_cons_cons.mpr ⟨other, later⟩
    · rw [if_neg (by simpa using same)]
      exact later

/-- The alerts of the reports, in the order in which they were sent. -/
def sentAlerts (reports : List Report) : List ProcAlert :=
  (reports.map fun report => ProcAlert.resource report.type report.isAlert).reverse

theorem sentAlerts_send (psinfos : List PsCacheInfo) (again : Bool) (reports : List Report)
    {alerts : List ProcAlert} (resources : ∀ alert ∈ alerts, alert.ofResource = true) :
    sentAlerts (row.send ProcMon_CheckPattern psinfos again reports alerts) =
      sentAlerts reports ++ alerts := by
  induction alerts generalizing reports with
  | nil => exact (List.append_nil _).symm
  | cons alert alerts ih =>
    have later := fun reports => ih reports fun other member =>
      resources other (List.mem_cons_of_mem _ member)
    have first := resources alert List.mem_cons_self
    cases alert with
    | resource type isAlert =>
      rw [PsMonitor.send, later, sentAlerts, List.map_cons, List.reverse_cons, List.append_assoc]
      rfl
    | up | down | threshold | recovery => cases first

theorem checkThreshold_resources (lists : ProcessLists) (psinfo : PsCacheInfo) (row : PsMonitor) :
    ∀ alert ∈ (checkThreshold lists psinfo row).2, alert.ofResource = true := by
  have column : ∀ type known limit value thr, ∀ alert ∈ (checkColumn type known limit value thr).2,
      alert.ofResource = true := by
    intro type known limit value thr alert member
    rcases checkColumn_cases type known limit value thr with ⟨none, -⟩ | ⟨exceeded, -⟩ |
      ⟨recovered, -⟩
    · rw [none] at member
      cases member
    · rw [exceeded] at member
      rw [List.mem_singleton.mp member]
      rfl
    · rw [recovered] at member
      rw [List.mem_singleton.mp member]
      rfl
  intro alert member
  rcases List.mem_append.mp member with cpu | mem
  · exact column _ _ _ _ _ alert cpu
  · exact column _ _ _ _ _ alert mem

/-- What `ProcMon_CheckProc` does with one process. -/
def checkNext (ProcMon_CheckPattern : List Char → List Char → Bool) (lists : ProcessLists)
    (row : PsMonitor) (found : Int × PsMonitor × List ProcAlert) (psinfo : PsCacheInfo) :
    Int × PsMonitor × List ProcAlert :=
  if counted ProcMon_CheckPattern row psinfo then
    let checked := checkThreshold lists psinfo found.2.1
    (found.1 + 1, checked.1, found.2.2 ++ checked.2)
  else found

theorem checkNext_alerts {lists : ProcessLists} (psinfos : List PsCacheInfo) (count : Int)
    (current : PsMonitor) (alerts : List ProcAlert) :
    psinfos.foldl (checkNext ProcMon_CheckPattern lists row) (count, current, alerts) =
      let found := psinfos.foldl (checkNext ProcMon_CheckPattern lists row) (count, current, [])
      (found.1, found.2.1, alerts ++ found.2.2) := by
  induction psinfos generalizing count current alerts with
  | nil => simp
  | cons psinfo psinfos ih =>
    rw [List.foldl_cons, List.foldl_cons, checkNext, checkNext]
    split
    · rw [ih]
      conv_rhs => rw [ih]
      simp only [List.nil_append, List.append_assoc]
    · exact ih count current alerts

theorem checks_checkNext (rounds : Rounds) (count : Int) :
    ∃ last, Machine.run (Rounds.step ProcMon_CheckPattern) rounds
        (List.replicate rounds.todo.length .check) = some last ∧
      let found := rounds.todo.foldl (checkNext ProcMon_CheckPattern rounds.lists rounds.row)
        (count, rounds.row, sentAlerts rounds.reports)
      last.row = found.2.1 ∧ sentAlerts last.reports = found.2.2 := by
  generalize next : rounds.todo = todo
  induction todo generalizing rounds count with
  | nil => exact ⟨rounds, rfl, rfl, rfl⟩
  | cons psinfo todo ih =>
    obtain ⟨lists, -, rest, -, -, -, same⟩ := @check_frame ProcMon_CheckPattern rounds psinfo todo
    have stepped : rounds.step ProcMon_CheckPattern .check =
        some (rounds.check ProcMon_CheckPattern psinfo todo) := by
      rw [Rounds.step, next]
    have alike : checkNext ProcMon_CheckPattern rounds.lists
        (rounds.check ProcMon_CheckPattern psinfo todo).row =
          checkNext ProcMon_CheckPattern rounds.lists rounds.row := by
      funext found other
      rw [checkNext, checkNext, same]
    by_cases matched : counted ProcMon_CheckPattern rounds.row psinfo = true
    · obtain ⟨last, executed, row, alerts⟩ :=
        ih (rounds.check ProcMon_CheckPattern psinfo todo) (count + 1) rest
      refine ⟨last, Machine.run_cons stepped executed, ?_⟩
      have current : (rounds.check ProcMon_CheckPattern psinfo todo).row =
          (checkThreshold rounds.lists psinfo rounds.row).1 := by
        rw [Rounds.check, if_pos matched]
      have sent : sentAlerts (rounds.check ProcMon_CheckPattern psinfo todo).reports =
          sentAlerts rounds.reports ++ (checkThreshold rounds.lists psinfo rounds.row).2 := by
        rw [Rounds.check, if_pos matched]
        exact sentAlerts_send _ _ _ (checkThreshold_resources _ _ _)
      rw [lists, sent, alike, current] at row alerts
      rw [List.foldl_cons, checkNext, if_pos matched]
      exact ⟨row, alerts⟩
    · obtain ⟨last, executed, row, alerts⟩ :=
        ih (rounds.check ProcMon_CheckPattern psinfo todo) count rest
      refine ⟨last, Machine.run_cons stepped executed, ?_⟩
      rw [lists, alike, check_uncounted matched] at row alerts
      rw [List.foldl_cons, checkNext, if_neg matched]
      exact ⟨row, alerts⟩

/-- The checks of a poll, one after the other, do what `ProcMon_CheckProc` does in one call. -/
theorem poll_checkProc (idle : rounds.todo = []) (filled : rounds.lists.gpstPsInfo ≠ [])
    (complete : rounds.lists.full_process_list = true) :
    let found := ProcMon_CheckProc ProcMon_CheckPattern rounds.lists rounds.row
    ∃ last, Machine.run (Rounds.step ProcMon_CheckPattern) rounds
        (.poll :: List.replicate rounds.lists.gpstPsInfo.length .check) = some last ∧
      last.row = found.2.1 ∧ sentAlerts last.reports = sentAlerts rounds.reports ++ found.2.2 := by
  have begins : rounds.step ProcMon_CheckPattern .poll = some { rounds with
      done := []
      todo := rounds.lists.gpstPsInfo
      changed := false
      again := !rounds.changed } :=
    if_pos ⟨idle, filled, complete⟩
  have called : ProcMon_CheckProc ProcMon_CheckPattern rounds.lists rounds.row =
      rounds.lists.gpstPsInfo.foldl (checkNext ProcMon_CheckPattern rounds.lists rounds.row)
        (0, rounds.row, []) :=
    if_neg (by simp [filled, complete])
  obtain ⟨last, executed, row, alerts⟩ := @checks_checkNext ProcMon_CheckPattern { rounds with
      done := []
      todo := rounds.lists.gpstPsInfo
      changed := false
      again := !rounds.changed } 0
  rw [checkNext_alerts] at row alerts
  refine ⟨last, Machine.run_cons begins executed, ?_⟩
  rw [called]
  exact ⟨row, alerts⟩

/-- For every run of scans, SETs of the thresholds, and polls: all alerts are sent as they should
be exactly when each check is calm; and then those of each column alternate. -/
theorem threshold_alerts_iff (ProcMon_CheckPattern : List Char → List Char → Bool)
    (row : PsMonitor) (lists : ProcessLists) (events : List RoundEvent) :
    ∃ last, Machine.run (Rounds.step ProcMon_CheckPattern) (roundsStart row lists) events =
        some last ∧
      (AllProper last.reports ↔ Machine.Along (Rounds.step ProcMon_CheckPattern)
        (Calm ProcMon_CheckPattern) (roundsStart row lists) events) ∧
      (AllProper last.reports →
        ∀ type, (alertsOf type last.reports ++ [false]).IsChain (· ≠ ·)) := by
  obtain ⟨last, executed, -⟩ := Machine.run_progress
    (fun rounds event (_ : True) (_ : True) =>
      (@step_total ProcMon_CheckPattern rounds event).imp
        fun after stepped => ⟨stepped, trivial⟩)
    trivial (Machine.Along.of_all fun _ _ => trivial)
  have lawful := Machine.run_iff_along_of (fun rounds event after steady stepped =>
      (step_exactly steady event stepped).1)
    (fun rounds event after steady stepped => (step_exactly steady event stepped).2)
    (roundsStart_steady row lists) executed
  exact ⟨last, executed, lawful.trans (and_iff_right trivial), fun lawful type =>
    lawful.alternate type⟩

/-- Two processes of a name, of which the first is at the threshold. -/
def busyAndIdle : List PsCacheInfo := [⟨1, ['p'], [], 80, 0⟩, ⟨2, ['p'], [], 10, 0⟩]

def cpuRow : PsMonitor := ⟨['p'], [], 0, 1, 50, 0, false, false⟩

theorem poll_checkProc_busy :
    let lists : ProcessLists := ⟨busyAndIdle, true, [1, 2]⟩
    ∃ last, Machine.run (Rounds.step fun _ _ => true) (roundsStart cpuRow lists)
        [.poll, .check, .check] = some last ∧
      sentAlerts last.reports = [.resource .psMonitorCPU true, .resource .psMonitorCPU false] := by
  obtain ⟨last, executed, -, sent⟩ := @poll_checkProc (fun _ _ => true)
    (roundsStart cpuRow ⟨busyAndIdle, true, [1, 2]⟩) rfl (by decide) rfl
  exact ⟨last, executed, sent.trans (by decide)⟩

/-- The second process sends the recovery while the first one is at the threshold. -/
theorem recovered_while_exceeded :
    ¬ ∀ events last, Machine.run (Rounds.step fun _ _ => true)
        (roundsStart cpuRow ⟨[], false, []⟩) events = some last → AllProper last.reports := by
  intro all
  have lawful := all [.scan busyAndIdle true, .scan busyAndIdle true, .poll, .check, .check] _ rfl
  have low := lawful.1.2.2 80 (by decide)
  exact absurd low (by decide)

end Rounds

end EveAgent.ProcMon
