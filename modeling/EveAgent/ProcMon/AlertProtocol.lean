import EveAgent.ProcMon.ProcThread

namespace EveAgent.ProcMon

section Protocol

inductive Standing where
  | unknown
  | down
  | up
  | threshold
  deriving DecidableEq, Repr

/-- The alerts of CPU and memory have a protocol of their own. -/
def Standing.next : Standing → ProcAlert → Option Standing
  | standing, .resource _ _ => some standing
  | .unknown, .up => some .up
  | .unknown, .down => some .down
  | .down, .up => some .up
  | .up, .down => some .down
  | .up, .threshold => some .threshold
  | .threshold, .recovery => some .up
  | _, _ => none

def Standing.after (standing : Standing) (alerts : List ProcAlert) : Option Standing :=
  alerts.foldlM Standing.next standing

/-- What the alerts of one poll owe to its count and to the number of the row. -/
@[mk_iff]
structure Reported (standing : Standing) (number iProcCount : Int) (sent : List ProcAlert) :
    Prop where
  follows : ∃ after, standing.after sent = some after
  down : .down ∈ sent ↔ iProcCount = 0 ∧ standing ≠ .down
  up : .up ∈ sent → 1 ≤ iProcCount
  recovered : standing = .threshold → (iProcCount ≤ number ∨ number = 0) → .recovery ∈ sent

variable (ProcMon_CheckPattern : List Char → List Char → Bool)

/-- The alerts so far follow the protocol, and so do those of the next poll. -/
def Lawful (monitor : Monitor) (lists : ProcessLists) : Prop :=
  let count := (ProcMon_CheckProc ProcMon_CheckPattern lists monitor.thread.row).1
  count ≠ -99 → ∃ standing, Standing.unknown.after monitor.alerts = some standing ∧
    Reported standing monitor.thread.row.psMonitorNumber count
      (monitor.thread.poll ProcMon_CheckPattern lists).sent

/-- The number and the reaction with which the status of the thread keeps the protocol. -/
def Fits (iStatus number reaction iProcCount : Int) : Prop :=
  if reaction = 1 then
    (iStatus = -1 → number = 0 ∨ iProcCount ≤ number) ∧ (iStatus = 2 → number ≠ 0) ∧
      (iProcCount = 0 → 0 ≤ number)
  else if reaction = 2 then
    iProcCount ≠ 0 ∧ (iStatus = 2 → number ≠ 0 ∧ number < iProcCount)
  else if reaction = 3 then
    iStatus = 2 → number ≠ 0 ∧ number < iProcCount ∧ iProcCount ≠ 0
  else
    (iProcCount = 0 → iStatus = 0) ∧ (iStatus = 2 → number ≠ 0 ∧ number < iProcCount)

def Fitting (monitor : Monitor) (lists : ProcessLists) : Prop :=
  let count := (ProcMon_CheckProc ProcMon_CheckPattern lists monitor.thread.row).1
  count ≠ -99 → Fits monitor.thread.iStatus monitor.thread.row.psMonitorNumber
    monitor.thread.row.psMonitorReaction count

end Protocol

section Status

def ProcAlert.ofStatus : ProcAlert → Bool
  | .resource _ _ => false
  | _ => true

def ProcThread.reported (thread : ProcThread) : Int × List ProcAlert :=
  (thread.iStatus, thread.sent.filter ProcAlert.ofStatus)

attribute [simp] Standing.next

@[simp] theorem after_nil (standing : Standing) : standing.after [] = some standing := rfl

@[simp] theorem after_cons (standing : Standing) (alert : ProcAlert) (alerts : List ProcAlert) :
    standing.after (alert :: alerts) = (standing.next alert).bind (·.after alerts) := rfl

theorem after_append (standing : Standing) (first second : List ProcAlert) :
    standing.after (first ++ second) =
      (standing.after first).bind (·.after second) := by
  simp [Standing.after, List.foldlM_append]

theorem after_filter (standing : Standing) (alerts : List ProcAlert) :
    standing.after (alerts.filter ProcAlert.ofStatus) = standing.after alerts := by
  induction alerts generalizing standing with
  | nil => rfl
  | cons alert alerts ih =>
    cases alert with
    | resource type isAlert =>
      have other : ProcAlert.ofStatus (.resource type isAlert) = false := rfl
      rw [List.filter_cons_of_neg (by simp [other]), ih]
      rfl
    | up | down | threshold | recovery =>
      rw [List.filter_cons_of_pos rfl]
      simp only [Standing.after, List.foldlM_cons]
      congr 1
      funext after
      exact ih after

theorem reported_filter {standing : Standing} {number iProcCount : Int}
    {sent : List ProcAlert} :
    Reported standing number iProcCount sent ↔
      Reported standing number iProcCount (sent.filter ProcAlert.ofStatus) := by
  have member : ∀ alert, alert.ofStatus = true →
      (alert ∈ sent.filter ProcAlert.ofStatus ↔ alert ∈ sent) := by
    intro alert status
    simp [List.mem_filter, status]
  constructor
  · rintro ⟨follows, down, up, recovered⟩
    constructor
    · rw [after_filter]
      exact follows
    · rw [member .down rfl]
      exact down
    · rw [member .up rfl]
      exact up
    · rw [member .recovery rfl]
      exact recovered
  · rintro ⟨follows, down, up, recovered⟩
    constructor
    · rw [after_filter] at follows
      exact follows
    · rw [member .down rfl] at down
      exact down
    · rw [member .up rfl] at up
      exact up
    · rw [member .recovery rfl] at recovered
      exact recovered

variable (thread : ProcThread)

@[simp] theorem send_iStatus (alert : ProcAlert) : (thread.send alert).iStatus = thread.iStatus :=
  rfl

@[simp] theorem send_sent (alert : ProcAlert) :
    (thread.send alert).sent = thread.sent ++ [alert] := rfl

@[simp] theorem setStatus_iStatus (iStatus : Int) : (thread.setStatus iStatus).iStatus = iStatus :=
  rfl

@[simp] theorem setStatus_sent (iStatus : Int) : (thread.setStatus iStatus).sent = thread.sent :=
  rfl

@[simp] theorem send_row (alert : ProcAlert) : (thread.send alert).row = thread.row := rfl

@[simp] theorem setStatus_row (iStatus : Int) : (thread.setStatus iStatus).row = thread.row := rfl

@[simp] theorem sendDown_iStatus : thread.sendDown.iStatus = thread.iStatus := by
  simp only [ProcThread.sendDown, ProcThread.recoverResources, send_iStatus]
  split <;> split <;> rfl

@[simp] theorem sendDown_sent : thread.sendDown.sent.filter ProcAlert.ofStatus =
    thread.sent.filter ProcAlert.ofStatus ++ [.down] := by
  simp only [ProcThread.sendDown, ProcThread.recoverResources, send_sent]
  split <;> split <;> simp [ProcAlert.ofStatus]

end Status

section Turns

/-- The new status and the alerts of a round whose row has this reaction, without those of CPU and
memory. -/
def statusTurn (reaction number iProcCount iStatus : Int) : Int × List ProcAlert :=
  let first : Int × List ProcAlert :=
    if iStatus = -1 ∧ iProcCount ≠ 0 then (1, [.up]) else (iStatus, [])
  if reaction = 1 then
    if number ≠ 0 ∧ number < iProcCount ∧ iStatus ≠ 2 then
      (2, if iStatus = 0 then [.up, .threshold] else [.threshold])
    else if number ≠ 0 ∧ iProcCount ≤ number ∧ iStatus = 2 then
      if iProcCount = 0 then (0, [.recovery, .down]) else (1, [.recovery])
    else if iStatus ≠ 0 ∧ iProcCount = 0 then (0, [.down])
    else if iStatus < 1 ∧ iProcCount ≠ 0 then (1, [.up])
    else (iStatus, [])
  else if reaction = 2 then
    if iProcCount = 0 then (first.1, first.2 ++ [.up]) else first
  else if reaction = 3 then
    if iProcCount = 0 then (0, if first.1 ≠ 0 then first.2 ++ [.down] else first.2)
    else if first.1 = 0 then (1, first.2 ++ [.up])
    else first
  else (iStatus, [])

variable {thread : ProcThread} {iProcCount : Int}

theorem alertOnly_reported (clean : thread.sent.filter ProcAlert.ofStatus = []) :
    (thread.alertOnly iProcCount).reported =
      statusTurn 1 thread.row.psMonitorNumber iProcCount thread.iStatus := by
  simp only [ProcThread.alertOnly, statusTurn, if_true]
  split
  · split
    · simp [ProcThread.reported, clean, ProcAlert.ofStatus]
    · simp [ProcThread.reported, clean, ProcAlert.ofStatus]
  · split
    · split
      · simp [ProcThread.reported, clean, List.filter_cons, ProcAlert.ofStatus]
      · simp [ProcThread.reported, clean, ProcAlert.ofStatus]
    · split
      · simp [ProcThread.reported, clean]
      · split
        · simp [ProcThread.reported, clean, ProcAlert.ofStatus]
        · simp [ProcThread.reported, clean]

theorem firstUp_reported (iProcCount : Int) (clean : thread.sent.filter ProcAlert.ofStatus = []) :
    (thread.firstUp iProcCount).reported =
      if thread.iStatus = -1 ∧ iProcCount ≠ 0 then (1, [.up]) else (thread.iStatus, []) := by
  rw [ProcThread.firstUp]
  split
  · simp [ProcThread.reported, clean, ProcAlert.ofStatus]
  · simp [ProcThread.reported, clean]

theorem restart_reported (number : Int) (clean : thread.sent.filter ProcAlert.ofStatus = []) :
    (thread.restart iProcCount).reported = statusTurn 2 number iProcCount thread.iStatus := by
  have first := firstUp_reported iProcCount clean
  simp only [ProcThread.restart, statusTurn]
  rw [← first]
  split
  · simp [ProcThread.reported, ProcAlert.ofStatus]
  · simp

theorem restartAndAlert_reported (number : Int)
    (clean : thread.sent.filter ProcAlert.ofStatus = []) :
    (thread.restartAndAlert iProcCount).reported =
      statusTurn 3 number iProcCount thread.iStatus := by
  have first := firstUp_reported iProcCount clean
  simp only [ProcThread.restartAndAlert, statusTurn]
  rw [← first]
  simp only [ProcThread.reported]
  split
  · split
    · rename_i other
      simp [other]
    · rename_i down
      simp [Decidable.not_not.mp down]
  · split
    · rename_i down
      simp [down, List.filter_cons, ProcAlert.ofStatus]
    · rename_i other
      simp [other]

end Turns

section Counts

variable {ProcMon_CheckPattern : List Char → List Char → Bool}

/-- What `ProcMon_CheckProc` leaves alone, and what it sends. -/
structure Sized (row : PsMonitor) (found : Int × PsMonitor × List ProcAlert) : Prop where
  count : 0 ≤ found.1
  number : found.2.1.psMonitorNumber = row.psMonitorNumber
  reaction : found.2.1.psMonitorReaction = row.psMonitorReaction
  alerts : found.2.2.filter ProcAlert.ofStatus = []

theorem checkColumn_alerts (type : ResourceColumn) (known : Bool) (limit value : Int)
    (thr : Bool) : (checkColumn type known limit value thr).2.filter ProcAlert.ofStatus = [] := by
  rw [checkColumn]
  split_ifs <;> simp [ProcAlert.ofStatus]

theorem checkThreshold_sized {lists : ProcessLists} {row : PsMonitor}
    {found : Int × PsMonitor × List ProcAlert} (sized : Sized row found) (psinfo : PsCacheInfo) :
    Sized row (found.1 + 1, (checkThreshold lists psinfo found.2.1).1,
      found.2.2 ++ (checkThreshold lists psinfo found.2.1).2) := by
  constructor
  · exact Int.le_add_one sized.count
  · exact sized.number
  · exact sized.reaction
  · simp [checkThreshold, sized.alerts, checkColumn_alerts]

theorem checkProc_cases (lists : ProcessLists) (row : PsMonitor) :
    ProcMon_CheckProc ProcMon_CheckPattern lists row = (-99, row, []) ∨
      Sized row (ProcMon_CheckProc ProcMon_CheckPattern lists row) := by
  rw [ProcMon_CheckProc]
  split
  · exact .inl rfl
  · right
    apply List.foldlRecOn (motive := Sized row)
    · exact ⟨Int.le_refl 0, rfl, rfl, rfl⟩
    · intro found sized psinfo _
      split
      · exact checkThreshold_sized sized psinfo
      · exact sized

theorem checkProc_sized (lists : ProcessLists) (row : PsMonitor)
    (counts : (ProcMon_CheckProc ProcMon_CheckPattern lists row).1 ≠ -99) :
    Sized row (ProcMon_CheckProc ProcMon_CheckPattern lists row) := by
  rcases @checkProc_cases ProcMon_CheckPattern lists row with failed | sized
  · rw [failed] at counts
    exact absurd rfl counts
  · exact sized

theorem poll_failed (thread : ProcThread) (lists : ProcessLists)
    (failed : (ProcMon_CheckProc ProcMon_CheckPattern lists thread.row).1 = -99) :
    thread.poll ProcMon_CheckPattern lists = { thread with sent := [] } := by
  rcases @checkProc_cases ProcMon_CheckPattern lists thread.row with same | sized
  · rw [ProcThread.poll, same]
    rfl
  · have count := sized.count
    rw [failed] at count
    exact absurd count (by decide)

theorem poll_reported (thread : ProcThread) (lists : ProcessLists)
    (counts : (ProcMon_CheckProc ProcMon_CheckPattern lists thread.row).1 ≠ -99) :
    (thread.poll ProcMon_CheckPattern lists).reported =
      statusTurn thread.row.psMonitorReaction thread.row.psMonitorNumber
        (ProcMon_CheckProc ProcMon_CheckPattern lists thread.row).1 thread.iStatus := by
  have sized := checkProc_sized lists thread.row counts
  simp only [ProcThread.poll, if_neg counts]
  rw [sized.reaction]
  split
  · rename_i one
    rw [alertOnly_reported sized.alerts, one]
    simp only [sized.number]
  · split
    · rename_i two
      rw [restart_reported thread.row.psMonitorNumber sized.alerts, two]
    · split
      · rename_i three
        rw [restartAndAlert_reported thread.row.psMonitorNumber sized.alerts, three]
      · rename_i not1 not2 not3
        simp [statusTurn, not1, not2, not3, ProcThread.reported, sized.alerts]

end Counts

section Iff

def Standing.iStatus : Standing → Int
  | .unknown => -1
  | .down => 0
  | .up => 1
  | .threshold => 2

section Turn

variable {number iProcCount : Int}

theorem turn_unknown : statusTurn 1 number iProcCount (-1) =
    if number ≠ 0 ∧ number < iProcCount then (2, [.threshold])
    else if iProcCount = 0 then (0, [.down]) else (1, [.up]) := by
  by_cases none : iProcCount = 0
  · simp [statusTurn, none]
  · simp [statusTurn, none]

theorem turn_down : statusTurn 1 number iProcCount 0 =
    if number ≠ 0 ∧ number < iProcCount then (2, [.up, .threshold])
    else if iProcCount = 0 then (0, []) else (1, [.up]) := by
  simp [statusTurn]

theorem turn_up : statusTurn 1 number iProcCount 1 =
    if number ≠ 0 ∧ number < iProcCount then (2, [.threshold])
    else if iProcCount = 0 then (0, [.down]) else (1, []) := by
  simp [statusTurn]

theorem turn_threshold : statusTurn 1 number iProcCount 2 =
    if number ≠ 0 ∧ iProcCount ≤ number then
      if iProcCount = 0 then (0, [.recovery, .down]) else (1, [.recovery])
    else if iProcCount = 0 then (0, [.down]) else (2, []) := by
  simp [statusTurn]

end Turn

theorem reported_iff_fits (standing : Standing) {reaction number iProcCount : Int}
    (count : 0 ≤ iProcCount) :
    Reported standing number iProcCount
        (statusTurn reaction number iProcCount standing.iStatus).2 ↔
      Fits standing.iStatus number reaction iProcCount := by
  rw [reported_iff]
  by_cases one : reaction = 1
  · subst one
    rw [Fits, if_pos rfl]
    cases standing with
    | unknown =>
      simp only [Standing.iStatus, turn_unknown]
      split_ifs with above none
      · simp
        omega
      · simp
        omega
      · simp
        omega
    | down =>
      simp only [Standing.iStatus, turn_down]
      split_ifs with above none
      · simp
        omega
      · simp
        omega
      · simp
        omega
    | up =>
      simp only [Standing.iStatus, turn_up]
      split_ifs with above none
      · simp
        omega
      · simp
        omega
      · simp
        omega
    | threshold =>
      simp only [Standing.iStatus, turn_threshold]
      split_ifs with below none none
      · simp
        omega
      · simp
        omega
      · simp
        omega
      · simp
        omega
  · by_cases two : reaction = 2
    · subst two
      rw [Fits, if_neg one, if_pos rfl]
      cases standing <;>
        by_cases none : iProcCount = 0 <;>
        simp [statusTurn, Standing.iStatus, none] <;> omega
    · by_cases three : reaction = 3
      · subst three
        rw [Fits, if_neg one, if_neg two, if_pos rfl]
        cases standing <;>
          by_cases none : iProcCount = 0 <;>
          simp [statusTurn, Standing.iStatus, none] <;> omega
      · rw [Fits, if_neg one, if_neg two, if_neg three]
        have silent : (statusTurn reaction number iProcCount standing.iStatus).2 = [] := by
          simp [statusTurn, one, two, three]
        rw [silent]
        cases standing with
        | unknown => simp [Standing.iStatus]
        | down => simp [Standing.iStatus]
        | up => simp [Standing.iStatus]
        | threshold =>
          simp [Standing.iStatus]
          omega

theorem iStatus_of_fits {standing after : Standing} {reaction number iProcCount : Int}
    (fits : Fits standing.iStatus number reaction iProcCount)
    (follows : standing.after (statusTurn reaction number iProcCount standing.iStatus).2 =
      some after) :
    (statusTurn reaction number iProcCount standing.iStatus).1 = after.iStatus := by
  by_cases one : reaction = 1
  · subst one
    cases standing with
    | unknown =>
      simp only [Standing.iStatus, turn_unknown] at follows ⊢
      split_ifs at follows ⊢ <;> simp at follows <;> subst follows <;> rfl
    | down =>
      simp only [Standing.iStatus, turn_down] at follows ⊢
      split_ifs at follows ⊢ <;> simp at follows <;> subst follows <;> rfl
    | up =>
      simp only [Standing.iStatus, turn_up] at follows ⊢
      split_ifs at follows ⊢ <;> simp at follows <;> subst follows <;> rfl
    | threshold =>
      simp only [Standing.iStatus, turn_threshold] at follows ⊢
      split_ifs at follows ⊢ <;> simp at follows <;> subst follows <;> rfl
  · by_cases two : reaction = 2
    · subst two
      rw [Fits, if_neg one, if_pos rfl] at fits
      cases standing <;> simp [statusTurn, Standing.iStatus, fits.1] at follows ⊢ <;>
        subst follows <;> rfl
    · by_cases three : reaction = 3
      · subst three
        rw [Fits, if_neg one, if_neg two, if_pos rfl] at fits
        by_cases none : iProcCount = 0
        · have running : standing ≠ .threshold := by
            rintro rfl
            exact (fits rfl).2.2 none
          cases standing <;> simp [statusTurn, Standing.iStatus, none] at follows running ⊢ <;>
            subst follows <;> rfl
        · cases standing <;> simp [statusTurn, Standing.iStatus, none] at follows ⊢ <;>
            subst follows <;> rfl
      · have silent : statusTurn reaction number iProcCount standing.iStatus =
            (standing.iStatus, []) := by
          simp [statusTurn, one, two, three]
        rw [silent] at follows ⊢
        rw [Option.some.inj follows]

end Iff

section Runs

variable {ProcMon_CheckPattern : List Char → List Char → Bool} {monitor : Monitor}

/-- The alerts so far have led to the standing that the status says. -/
def Stands (monitor : Monitor) : Prop :=
  ∃ standing, Standing.unknown.after monitor.alerts = some standing ∧
    monitor.thread.iStatus = standing.iStatus

theorem lawful_iff_fitting (stands : Stands monitor) (lists : ProcessLists) :
    Lawful ProcMon_CheckPattern monitor lists ↔ Fitting ProcMon_CheckPattern monitor lists := by
  obtain ⟨standing, so, status⟩ := stands
  rw [Lawful, Fitting]
  apply imp_congr_right
  intro counts
  have sized := checkProc_sized lists monitor.thread.row counts
  have turn := congrArg Prod.snd (poll_reported monitor.thread lists counts)
  rw [status] at turn ⊢
  rw [← reported_iff_fits standing sized.count, ← turn]
  constructor
  · rintro ⟨other, so', reported⟩
    rw [so] at so'
    cases so'
    exact reported_filter.mp reported
  · intro reported
    exact ⟨standing, so, reported_filter.mpr reported⟩

theorem stands_poll (stands : Stands monitor) (lists : ProcessLists)
    (fitting : Fitting ProcMon_CheckPattern monitor lists) :
    Stands (monitor.step ProcMon_CheckPattern (.poll lists)) := by
  by_cases counts : (ProcMon_CheckProc ProcMon_CheckPattern lists monitor.thread.row).1 = -99
  · obtain ⟨standing, so, status⟩ := stands
    refine ⟨standing, ?_, ?_⟩
    · show Standing.unknown.after (monitor.alerts ++ _) = _
      rw [poll_failed monitor.thread lists counts, List.append_nil]
      exact so
    · show (monitor.thread.poll ProcMon_CheckPattern lists).iStatus = _
      rw [poll_failed monitor.thread lists counts]
      exact status
  · have lawful := (lawful_iff_fitting stands lists).mpr fitting counts
    obtain ⟨standing, so, status⟩ := stands
    obtain ⟨other, so', reported⟩ := lawful
    rw [so] at so'
    cases so'
    obtain ⟨after, follows⟩ := reported.follows
    have turn := poll_reported monitor.thread lists counts
    refine ⟨after, ?_, ?_⟩
    · show Standing.unknown.after (monitor.alerts ++ _) = _
      rw [after_append, so]
      exact follows
    · have fits := fitting counts
      rw [status] at turn fits
      have alerts := congrArg Prod.snd turn
      have next := congrArg Prod.fst turn
      rw [← after_filter] at follows
      exact next.trans (iStatus_of_fits fits (alerts ▸ follows))

theorem stands_setRow (stands : Stands monitor) (row : PsMonitor) :
    Stands (monitor.setRow row) := stands

theorem stands_step (stands : Stands monitor) (event : MonitorEvent)
    (fitting : ∀ lists, event = .poll lists → Fitting ProcMon_CheckPattern monitor lists) :
    Stands (monitor.step ProcMon_CheckPattern event) := by
  cases event with
  | poll lists => exact stands_poll stands lists (fitting lists rfl)
  | setNumber number => exact stands_setRow stands _
  | setReaction reaction => exact stands_setRow stands _

theorem stands_spawned (row : PsMonitor) : Stands (spawned row) := ⟨.unknown, rfl, rfl⟩

variable {row : PsMonitor} {events : List MonitorEvent}

theorem run_stands
    (fitting : ∀ past lists, past ++ [.poll lists] <+: events → Stands ((spawned row).run
      ProcMon_CheckPattern past) →
      Fitting ProcMon_CheckPattern ((spawned row).run ProcMon_CheckPattern past) lists) :
    ∀ past, past <+: events → Stands ((spawned row).run ProcMon_CheckPattern past) := by
  intro past
  induction past using List.reverseRecOn with
  | nil => exact fun _ => stands_spawned row
  | append_singleton past event ih =>
    intro within
    have stepped : (spawned row).run ProcMon_CheckPattern (past ++ [event]) =
        ((spawned row).run ProcMon_CheckPattern past).step ProcMon_CheckPattern event :=
      List.foldl_append
    have stands := ih ((List.prefix_append past _).trans within)
    rw [stepped]
    apply stands_step stands
    rintro lists rfl
    exact fitting past lists within stands

/-- In a run of a row's thread the alerts of every poll follow the protocol exactly if every poll
finds a number and a reaction that fit its status and its count. -/
theorem alerts_follow_protocol :
    (∀ past lists, past ++ [.poll lists] <+: events →
      Lawful ProcMon_CheckPattern ((spawned row).run ProcMon_CheckPattern past) lists) ↔
    ∀ past lists, past ++ [.poll lists] <+: events →
      Fitting ProcMon_CheckPattern ((spawned row).run ProcMon_CheckPattern past) lists := by
  constructor
  · intro lawful past lists within
    have stands := run_stands (fun early found before stands =>
      (lawful_iff_fitting stands found).mp (lawful early found before)) past
      ((List.prefix_append past _).trans within)
    exact (lawful_iff_fitting stands lists).mp (lawful past lists within)
  · intro fitting past lists within
    have stands := run_stands (fun early found before _ => fitting early found before) past
      ((List.prefix_append past _).trans within)
    exact (lawful_iff_fitting stands lists).mpr (fitting past lists within)

/-- Three processes at the first poll of a row that allows two. -/
def threeAtFirst : ProcessLists :=
  ⟨List.replicate 3 ⟨1, "x".toList, [], 0, 0⟩, true, []⟩

def allowTwo : PsMonitor := ⟨"x".toList, [], 2, 1, 0, 0, false, false⟩

theorem threshold_before_up :
    ¬∀ row events, ∃ standing, Standing.unknown.after
      ((spawned row).run (fun _ _ => false) events).alerts = some standing := by
  intro always
  obtain ⟨standing, so⟩ := always allowTwo [.poll threeAtFirst]
  have stuck : Standing.unknown.after
      ((spawned allowTwo).run (fun _ _ => false) [.poll threeAtFirst]).alerts = none := by
    decide +kernel
  rw [stuck] at so
  cases so

end Runs

end EveAgent.ProcMon
