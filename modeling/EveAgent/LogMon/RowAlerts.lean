import EveAgent.LogMon.RowSearch
import EveAgent.Machine

namespace EveAgent.LogMon

section Source

variable (commonCheckPattern : Text → Text → Bool)

structure RowMonitor where
  row : LogRow
  logMonRowLogFile : Text
  logMonRowReadInterval : Int
  logMonRowFileSizeThreshold : Int
  acOldFileName : Text
  sendFileSizeTrap : Int
  deriving DecidableEq, Repr

/-- The start of `LogMonRow_LogMonThreadMain`. -/
def monitorStart (monitor : RowMonitor) (acChangedFileName : Text) : RowMonitor :=
  { monitor with
    row := threadStart monitor.row
    acOldFileName := acChangedFileName
    sendFileSizeTrap := -1 }

def RowMonitor.complete (monitor : RowMonitor) : Bool :=
  !(monitor.logMonRowLogFile.length = 0 || monitor.logMonRowReadInterval = 0 ||
    (monitor.row.logMonRowFilter.length = 0 && monitor.logMonRowFileSizeThreshold < 1))

def checkFileName (monitor : RowMonitor) (acChangedFileName : Text) : RowMonitor :=
  if acChangedFileName ≠ monitor.acOldFileName then
    { monitor with
      row := { monitor.row with
        logMonRowFileSize := 0
        logMonRowReadLine := 0
        logMonRowLine := 0
        logMonRowGetLine := 0
        filterCounter := 0 }
      acOldFileName := acChangedFileName }
  else monitor

inductive SizeTrap where
  | exceeded
  | recovered
  deriving DecidableEq, Repr

def checkFileSize (monitor : RowMonitor) : RowMonitor × Option SizeTrap :=
  let size := monitor.row.logMonRowFileSize
  let threshold := monitor.logMonRowFileSizeThreshold
  let flag :=
    if monitor.sendFileSizeTrap < 0 ∧ size < threshold then 1 else monitor.sendFileSizeTrap
  if threshold > 0 then
    if flag = 0 ∧ size > threshold then
      ({ monitor with sendFileSizeTrap := flag + 1 }, some .exceeded)
    else if flag > 0 ∧ size ≤ threshold then
      ({ monitor with sendFileSizeTrap := 0 }, some .recovered)
    else ({ monitor with sendFileSizeTrap := flag }, none)
  else ({ monitor with sendFileSizeTrap := flag }, none)

def matching (row : LogRow) (poll : Poll) : List (Text × Int) :=
  poll.checked.filter fun line => commonCheckPattern line.1 row.logMonRowFilter

/-- The search divides by the filter counter at each matching line. -/
def search (row : LogRow) (sight : Sight) : Option Poll :=
  let poll := searchPatterns commonCheckPattern row sight
  if row.logMonRowFilterCounter = 0 ∧ matching commonCheckPattern row poll ≠ [] then none
  else some poll

end Source

section Runs

variable (commonCheckPattern : Text → Text → Bool)

/-- A poll, with the number of matching lines since the last file name before it, and whether the
size was exceeded. -/
structure Report where
  matched : Nat
  wasExceeded : Bool
  row : LogRow
  poll : Poll
  threshold : Int
  trap : Option SizeTrap
  deriving DecidableEq, Repr

structure Watch where
  monitor : RowMonitor
  matched : Nat
  isExceeded : Bool
  reports : List Report
  deriving DecidableEq, Repr

inductive WatchEvent where
  | setFilterCounter (value : Int)
  | setFileSizeThreshold (value : Int)
  /-- A pass of the loop, and the name that the format of the file stands for then. -/
  | poll (acChangedFileName : Text) (sight : Sight)
  deriving DecidableEq, Repr

/-- The alert that a size calls for. -/
def sizeTrapOf (wasExceeded : Bool) (threshold size : Int) : Option SizeTrap :=
  if 0 < threshold ∧ wasExceeded = false ∧ threshold < size then some .exceeded
  else if 0 < threshold ∧ wasExceeded = true ∧ size ≤ threshold then some .recovered
  else none

def exceededBehind (wasExceeded : Bool) : Option SizeTrap → Bool
  | none => wasExceeded
  | some .exceeded => true
  | some .recovered => false

def Watch.step (watch : Watch) : WatchEvent → Option Watch
  | .setFilterCounter value =>
    some { watch with monitor := { watch.monitor with
      row := { watch.monitor.row with logMonRowFilterCounter := value } } }
  | .setFileSizeThreshold value =>
    some { watch with monitor := { watch.monitor with logMonRowFileSizeThreshold := value } }
  | .poll acChangedFileName sight =>
    if watch.monitor.complete then do
      let changed : Bool := acChangedFileName ≠ watch.monitor.acOldFileName
      let matched := if changed then 0 else watch.matched
      let monitor := checkFileName watch.monitor acChangedFileName
      let poll ← search commonCheckPattern monitor.row sight
      let threshold := monitor.logMonRowFileSizeThreshold
      let checked := checkFileSize { monitor with row := poll.row }
      some {
        monitor := checked.1
        matched := matched + (matching commonCheckPattern monitor.row poll).length
        isExceeded := exceededBehind watch.isExceeded
          (sizeTrapOf watch.isExceeded threshold poll.row.logMonRowFileSize)
        reports := watch.reports ++
          [⟨matched, watch.isExceeded, monitor.row, poll, threshold, checked.2⟩] }
    else some watch

def watchStart (monitor : RowMonitor) (acChangedFileName : Text) : Watch :=
  ⟨monitorStart monitor acChangedFileName, 0, false, []⟩

end Runs

section Property

variable (commonCheckPattern : Text → Text → Bool)

/-- Of the lines behind the first `k`, those whose number is a multiple of `n`. -/
def multiples {α : Type} (n : Int) : Nat → List α → List α
  | _, [] => []
  | k, line :: lines =>
    if n ∣ (k + 1 : Nat) then line :: multiples n (k + 1) lines else multiples n (k + 1) lines

/-- The alerts are those for the multiples of the filter counter; less than 1 is taken as 1. -/
def Report.LinesRight (report : Report) : Prop :=
  report.poll.alerts.map Prod.snd =
    (multiples (max 1 report.row.logMonRowFilterCounter) report.matched
      (matching commonCheckPattern report.row report.poll)).map Prod.snd

def Report.SizeRight (report : Report) : Prop :=
  report.trap = sizeTrapOf report.wasExceeded report.threshold report.poll.row.logMonRowFileSize

/-- The size gives no reason for an alert, nor would a smaller or larger one do so. -/
def Report.Indifferent (report : Report) : Prop :=
  report.threshold ≤ 0 ∨ report.poll.row.logMonRowFileSize = report.threshold

/-- A new filter counter is positive, and the counter of the row is what it would be with it. -/
def CounterKept (watch : Watch) : WatchEvent → Prop
  | .setFilterCounter value =>
    1 ≤ value ∧ value ∣ (watch.matched : Int) - watch.monitor.row.filterCounter
  | _ => True

instance (watch : Watch) : DecidablePred (CounterKept watch)
  | .setFilterCounter _ => inferInstanceAs (Decidable (_ ∧ _))
  | .setFileSizeThreshold _ => .isTrue trivial
  | .poll _ _ => .isTrue trivial

end Property

section Lines

variable {commonCheckPattern : Text → Text → Bool} {row : LogRow} {matched : Nat} {sight : Sight}

theorem multiples_append {α : Type} (n : Int) (k : Nat) (front back : List α) :
    multiples n k (front ++ back) = multiples n k front ++ multiples n (k + front.length) back := by
  induction front generalizing k with
  | nil => rfl
  | cons line front ih =>
    have later : k + 1 + front.length = k + (line :: front).length := by
      rw [List.length_cons]
      omega
    rw [List.cons_append, multiples, multiples, ih, later]
    split
    · rfl
    · rfl

/-- The counter is the number of lines, up to a multiple of the filter counter. -/
structure Counts (row : LogRow) (counter : Int) (matched : Nat) : Prop where
  positive : 1 ≤ row.logMonRowFilterCounter
  nonneg : 0 ≤ counter
  same : row.logMonRowFilterCounter ∣ (matched : Int) - counter

structure Added (commonCheckPattern : Text → Text → Bool) (row : LogRow) (matched : Nat)
    (before scan : Scan) (new : List (Text × Int)) : Prop where
  checked : scan.checked = before.checked ++ new
  alerts : scan.alerts.map Prod.snd = before.alerts.map Prod.snd ++
    (multiples row.logMonRowFilterCounter matched
      (new.filter fun line => commonCheckPattern line.1 row.logMonRowFilter)).map Prod.snd
  counts : Counts row scan.filterCounter (matched +
    (new.filter fun line => commonCheckPattern line.1 row.logMonRowFilter).length)

theorem Counts.next {counter : Int} (counts : Counts row counter matched) :
    Counts row ((counter + 1).tmod row.logMonRowFilterCounter) (matched + 1) ∧
      ((counter + 1).tmod row.logMonRowFilterCounter = 0 ↔
        row.logMonRowFilterCounter ∣ (matched + 1 : Nat)) := by
  obtain ⟨positive, nonneg, same⟩ := counts
  have remainder : (counter + 1).tmod row.logMonRowFilterCounter =
      (counter + 1) % row.logMonRowFilterCounter :=
    Int.tmod_eq_emod_of_nonneg (by omega)
  have whole := Int.dvd_self_sub_emod (x := counter + 1) (m := row.logMonRowFilterCounter)
  rw [remainder]
  refine ⟨⟨positive, Int.emod_nonneg _ (by omega), ?_⟩, ?_⟩
  · have both := Int.dvd_add same whole
    have sum : (matched : Int) - counter +
        (counter + 1 - (counter + 1) % row.logMonRowFilterCounter) =
        (matched + 1 : Nat) - (counter + 1) % row.logMonRowFilterCounter := by
      push_cast
      ring
    exact sum ▸ both
  · have split : ((matched + 1 : Nat) : Int) = (matched - counter) + (counter + 1) := by
      push_cast
      ring
    rw [← Int.dvd_iff_emod_eq_zero, split, Int.dvd_add_right same]

theorem scanLine_added {scan : Scan} (counts : Counts row scan.filterCounter matched)
    (acReadBuffer : Text) :
    ∃ new, Added commonCheckPattern row matched scan
      (scanLine commonCheckPattern row scan acReadBuffer) new := by
  rw [scanLine]
  by_cases empty : row.logMonRowFilter.length = 0
  · refine ⟨[], ?_⟩
    rw [if_pos empty]
    exact ⟨(List.append_nil _).symm, (List.append_nil _).symm, counts⟩
  · refine ⟨[(cString acReadBuffer, scan.iLineNum + 1)], ?_⟩
    rw [if_neg empty]
    by_cases found : commonCheckPattern (cString acReadBuffer) row.logMonRowFilter = true
    · have kept : [(cString acReadBuffer, scan.iLineNum + 1)].filter
          (fun line => commonCheckPattern line.1 row.logMonRowFilter) =
            [(cString acReadBuffer, scan.iLineNum + 1)] := by
        simp [found]
      obtain ⟨after, multiple⟩ := counts.next
      rw [if_pos found]
      refine ⟨rfl, ?_, by rw [kept]; exact after⟩
      rw [kept, multiples, multiples]
      simp only [multiple]
      split
      · exact List.map_append
      · exact (List.append_nil _).symm
    · have left : [(cString acReadBuffer, scan.iLineNum + 1)].filter
          (fun line => commonCheckPattern line.1 row.logMonRowFilter) = [] := by
        simp [found]
      rw [if_neg found]
      refine ⟨rfl, ?_, by rw [left]; exact counts⟩
      rw [left]
      exact (List.append_nil _).symm

theorem scanLines_added {scan : Scan} (counts : Counts row scan.filterCounter matched)
    (lines : List Text) :
    ∃ new, Added commonCheckPattern row matched scan
      (lines.foldl (scanLine commonCheckPattern row) scan) new := by
  induction lines generalizing scan matched with
  | nil => exact ⟨[], (List.append_nil _).symm, (List.append_nil _).symm, counts⟩
  | cons line lines ih =>
    obtain ⟨first, added⟩ := @scanLine_added commonCheckPattern row matched scan counts line
    obtain ⟨rest, later⟩ := ih added.counts
    refine ⟨first ++ rest, ?_, ?_, ?_⟩
    · rw [List.foldl_cons, later.checked, added.checked, List.append_assoc]
    · rw [List.foldl_cons, later.alerts, added.alerts, List.filter_append, multiples_append,
        List.map_append, List.append_assoc]
    · rw [List.foldl_cons, List.filter_append, List.length_append, ← Nat.add_assoc]
      exact later.counts

theorem scanFile_due {other : LogRow} (counts : Counts row row.filterCounter matched)
    (filter : row.logMonRowFilter = other.logMonRowFilter) (size : Nat) (content : Text)
    (calls : List StreamCall) :
    let poll := scanFile commonCheckPattern row size content calls
    let lines := matching commonCheckPattern other poll
    poll.alerts.map Prod.snd = (multiples row.logMonRowFilterCounter matched lines).map Prod.snd ∧
      Counts poll.row poll.row.filterCounter (matched + lines.length) := by
  have start : Counts row (Scan.mk row.logMonRowReadLine 0 row.filterCounter [] []).filterCounter
      matched := counts
  obtain ⟨new, checked, alerts, after⟩ := @scanLines_added commonCheckPattern row matched _ start
    (readLines lineMaxLen (content.drop row.logMonRowReadLineSeek).length
      (content.drop row.logMonRowReadLineSeek))
  have found : matching commonCheckPattern other
      (scanFile commonCheckPattern row size content calls) =
        new.filter fun line => commonCheckPattern line.1 row.logMonRowFilter := by
    rw [matching, ← filter]
    exact congrArg _ checked
  simp only [found]
  exact ⟨alerts, after.1, after.2, after.3⟩

theorem searchPatterns_due (counts : Counts row row.filterCounter matched) (sight : Sight) :
    let poll := searchPatterns commonCheckPattern row sight
    let lines := matching commonCheckPattern row poll
    poll.alerts.map Prod.snd = (multiples row.logMonRowFilterCounter matched lines).map Prod.snd ∧
      Counts poll.row poll.row.filterCounter (matched + lines.length) := by
  rw [searchPatterns]
  split
  · exact ⟨rfl, counts⟩
  · rename_i size _
    have begun : ∀ restarts : Bool,
        let begin := if restarts then restart row size sight.counted else (row, [])
        begin.1.logMonRowFilter = row.logMonRowFilter ∧
          begin.1.logMonRowFilterCounter = row.logMonRowFilterCounter ∧
          Counts begin.1 begin.1.filterCounter matched := by
      intro restarts
      cases restarts
      · exact ⟨rfl, rfl, counts⟩
      · exact ⟨rfl, rfl, counts.1, counts.2, counts.3⟩
    obtain ⟨filter, counter, kept⟩ :=
      begun (decide (row.logMonRowFileSize > size) || decide (row.logMonRowReadLine = 0))
    simp only
    generalize (if (decide (row.logMonRowFileSize > size) ||
        decide (row.logMonRowReadLine = 0)) then
      restart row size sight.counted else (row, [])) = begin at *
    rw [← counter]
    split
    · exact ⟨rfl, kept⟩
    · split
      · exact ⟨rfl, kept⟩
      · split
        · exact ⟨rfl, kept⟩
        · exact scanFile_due kept filter size _ _

theorem searchPatterns_size (size : 0 ≤ row.logMonRowFileSize) :
    0 ≤ (searchPatterns commonCheckPattern row sight).row.logMonRowFileSize := by
  rw [searchPatterns]
  split
  · exact size
  · rename_i found _
    have begun : ∀ restarts : Bool,
        0 ≤ (if restarts then restart row found sight.counted
          else (row, [])).1.logMonRowFileSize := by
      intro restarts
      cases restarts
      · exact size
      · exact Int.natCast_nonneg found
    have kept :=
      begun (decide (row.logMonRowFileSize > found) || decide (row.logMonRowReadLine = 0))
    simp only
    generalize (if (decide (row.logMonRowFileSize > found) ||
        decide (row.logMonRowReadLine = 0)) then
      restart row found sight.counted else (row, [])) = begin at *
    split
    · exact kept
    · split
      · exact kept
      · split
        · exact kept
        · exact Int.natCast_nonneg found

end Lines

section Sizes

variable {monitor : RowMonitor}

theorem checkFileSize_indifferent (unset : monitor.sendFileSizeTrap = -1)
    (size : 0 ≤ monitor.row.logMonRowFileSize)
    (indifferent : monitor.logMonRowFileSizeThreshold ≤ 0 ∨
      monitor.row.logMonRowFileSize = monitor.logMonRowFileSizeThreshold) :
    checkFileSize monitor = (monitor, none) ∧
      sizeTrapOf false monitor.logMonRowFileSizeThreshold monitor.row.logMonRowFileSize = none := by
  have flag : (if monitor.sendFileSizeTrap < 0 ∧
      monitor.row.logMonRowFileSize < monitor.logMonRowFileSizeThreshold then 1
        else monitor.sendFileSizeTrap) = monitor.sendFileSizeTrap :=
    if_neg (by omega)
  constructor
  · simp only [checkFileSize, flag]
    by_cases compared : monitor.logMonRowFileSizeThreshold > 0
    · rw [if_pos compared, if_neg (by omega), if_neg (by omega)]
    · rw [if_neg compared]
  · rw [sizeTrapOf, if_neg (by omega), if_neg (nomatch ·.2.1)]

theorem checkFileSize_wrong (unset : monitor.sendFileSizeTrap = -1)
    (different : ¬ (monitor.logMonRowFileSizeThreshold ≤ 0 ∨
      monitor.row.logMonRowFileSize = monitor.logMonRowFileSizeThreshold)) :
    (checkFileSize monitor).2 ≠
      sizeTrapOf false monitor.logMonRowFileSizeThreshold monitor.row.logMonRowFileSize := by
  have compared : monitor.logMonRowFileSizeThreshold > 0 := by omega
  rcases lt_or_ge monitor.row.logMonRowFileSize monitor.logMonRowFileSizeThreshold with
    below | above
  · have sent : (checkFileSize monitor).2 = some .recovered := by
      simp only [checkFileSize, if_pos compared, unset, below, below.le]
      rfl
    rw [sent, sizeTrapOf, if_neg (by omega), if_neg (nomatch ·.2.1)]
    exact nofun
  · have sent : (checkFileSize monitor).2 = none := by
      simp only [checkFileSize, if_pos compared, unset]
      rw [if_neg (by omega), if_neg (by omega), if_neg (by omega)]
    rw [sent, sizeTrapOf, if_pos ⟨compared, rfl, by omega⟩]
    exact nofun

theorem checkFileSize_row : (checkFileSize monitor).1.row = monitor.row := by
  simp only [checkFileSize]
  generalize (if monitor.sendFileSizeTrap < 0 ∧
    monitor.row.logMonRowFileSize < monitor.logMonRowFileSizeThreshold then 1
      else monitor.sendFileSizeTrap) = flag
  by_cases compared : monitor.logMonRowFileSizeThreshold > 0
  · rw [if_pos compared]
    split
    · rfl
    · split
      · rfl
      · rfl
  · rw [if_neg compared]

end Sizes

section Watches

variable {commonCheckPattern : Text → Text → Bool} {watch : Watch}

/-- The alerts for lines have been right, and those for sizes as long as there were none to send. -/
structure Followed (commonCheckPattern : Text → Text → Bool) (watch : Watch) : Prop where
  counts : Counts watch.monitor.row watch.monitor.row.filterCounter watch.matched
  size : 0 ≤ watch.monitor.row.logMonRowFileSize
  lines : ∀ report ∈ watch.reports, report.LinesRight commonCheckPattern
  indifferent : (∀ report ∈ watch.reports, report.Indifferent) →
    watch.monitor.sendFileSizeTrap = -1 ∧ watch.isExceeded = false ∧
      ∀ report ∈ watch.reports, report.SizeRight
  wrong : (∀ report ∈ watch.reports, report.SizeRight) →
    ∀ report ∈ watch.reports, report.Indifferent

theorem watchStart_followed {monitor : RowMonitor} (size : 0 ≤ monitor.row.logMonRowFileSize)
    (acChangedFileName : Text) :
    Followed commonCheckPattern (watchStart monitor acChangedFileName) := by
  have none : ∀ {P : Report → Prop}, ∀ report ∈ ([] : List Report), P report :=
    fun _ member => absurd member List.not_mem_nil
  refine ⟨⟨?_, le_rfl, ?_⟩, size, none, fun _ => ⟨rfl, rfl, none⟩, fun _ => none⟩
  · show 1 ≤
        if monitor.row.logMonRowFilterCounter < 1 then 1 else monitor.row.logMonRowFilterCounter
    split <;> omega
  · exact Int.dvd_zero _

theorem Followed.renamed (followed : Followed commonCheckPattern watch) (acChangedFileName : Text) :
    let changed : Bool := acChangedFileName ≠ watch.monitor.acOldFileName
    let monitor := checkFileName watch.monitor acChangedFileName
    Counts monitor.row monitor.row.filterCounter (if changed then 0 else watch.matched) ∧
      0 ≤ monitor.row.logMonRowFileSize ∧
      monitor.sendFileSizeTrap = watch.monitor.sendFileSizeTrap := by
  obtain ⟨positive, nonneg, same⟩ := followed.counts
  rw [checkFileName]
  by_cases changed : acChangedFileName ≠ watch.monitor.acOldFileName
  · have matched : (if decide (acChangedFileName ≠ watch.monitor.acOldFileName) then 0
        else watch.matched) = 0 :=
      if_pos (decide_eq_true changed)
    rw [if_pos changed]
    simp only [matched]
    exact ⟨⟨positive, le_rfl, Int.dvd_zero _⟩, le_rfl, trivial⟩
  · have matched : (if decide (acChangedFileName ≠ watch.monitor.acOldFileName) then 0
        else watch.matched) = watch.matched :=
      if_neg (by simpa using changed)
    rw [if_neg changed]
    simp only [matched]
    exact ⟨⟨positive, nonneg, same⟩, followed.size, trivial⟩

theorem Followed.reported (followed : Followed commonCheckPattern watch) {report : Report}
    {monitor : RowMonitor} (flag : monitor.sendFileSizeTrap = watch.monitor.sendFileSizeTrap)
    (size : 0 ≤ monitor.row.logMonRowFileSize)
    (exceeded : report.wasExceeded = watch.isExceeded)
    (row : report.poll.row = monitor.row)
    (threshold : report.threshold = monitor.logMonRowFileSizeThreshold)
    (trap : report.trap = (checkFileSize monitor).2) :
    ((∀ each ∈ watch.reports ++ [report], each.Indifferent) →
        (checkFileSize monitor).1.sendFileSizeTrap = -1 ∧
          exceededBehind watch.isExceeded (sizeTrapOf watch.isExceeded
            monitor.logMonRowFileSizeThreshold monitor.row.logMonRowFileSize) = false ∧
          ∀ each ∈ watch.reports ++ [report], each.SizeRight) ∧
      ((∀ each ∈ watch.reports ++ [report], each.SizeRight) →
        ∀ each ∈ watch.reports ++ [report], each.Indifferent) := by
  simp only [List.forall_mem_append, List.forall_mem_singleton]
  have here : report.Indifferent ↔ monitor.logMonRowFileSizeThreshold ≤ 0 ∨
      monitor.row.logMonRowFileSize = monitor.logMonRowFileSizeThreshold := by
    rw [Report.Indifferent, row, threshold]
  have right : report.SizeRight ↔ (checkFileSize monitor).2 = sizeTrapOf watch.isExceeded
      monitor.logMonRowFileSizeThreshold monitor.row.logMonRowFileSize := by
    rw [Report.SizeRight, row, threshold, trap, exceeded]
  constructor
  · rintro ⟨before, now⟩
    obtain ⟨unset, notExceeded, sizes⟩ := followed.indifferent before
    obtain ⟨unchanged, none⟩ := checkFileSize_indifferent (flag.trans unset) size (here.mp now)
    rw [right, notExceeded, none, unchanged]
    exact ⟨flag.trans unset, rfl, sizes, rfl⟩
  · rintro ⟨before, now⟩
    have indifferent := followed.wrong before
    obtain ⟨unset, notExceeded, -⟩ := followed.indifferent indifferent
    refine ⟨indifferent, here.mpr ?_⟩
    by_contra different
    rw [right, notExceeded] at now
    exact checkFileSize_wrong (flag.trans unset) different now

theorem Followed.step (followed : Followed commonCheckPattern watch) (event : WatchEvent)
    (kept : CounterKept watch event) :
    ∃ after, watch.step commonCheckPattern event = some after ∧
      Followed commonCheckPattern after := by
  obtain ⟨counts, size, lines, indifferent, wrong⟩ := id followed
  cases event with
  | setFilterCounter value =>
    obtain ⟨positive, same⟩ := kept
    exact ⟨_, rfl, ⟨positive, counts.nonneg, same⟩, size, lines, indifferent, wrong⟩
  | setFileSizeThreshold value => exact ⟨_, rfl, counts, size, lines, indifferent, wrong⟩
  | poll acChangedFileName sight =>
    rw [Watch.step]
    by_cases complete : watch.monitor.complete = true
    · rw [if_pos complete]
      dsimp only
      obtain ⟨counts, size, flag⟩ := followed.renamed acChangedFileName
      generalize (if decide (acChangedFileName ≠ watch.monitor.acOldFileName) then 0
        else watch.matched) = matched at counts ⊢
      generalize checkFileName watch.monitor acChangedFileName = monitor at counts size flag ⊢
      have positive := counts.positive
      obtain ⟨alerts, counts⟩ := @searchPatterns_due commonCheckPattern monitor.row matched counts
        sight
      have size := @searchPatterns_size commonCheckPattern monitor.row sight size
      have searched : search commonCheckPattern monitor.row sight =
          some (searchPatterns commonCheckPattern monitor.row sight) :=
        if_neg fun zero => absurd zero.1 (by omega)
      generalize searchPatterns commonCheckPattern monitor.row sight = poll at *
      have reported := @Followed.reported commonCheckPattern watch followed
        ⟨matched, watch.isExceeded, monitor.row, poll, monitor.logMonRowFileSizeThreshold,
          (checkFileSize { monitor with row := poll.row }).2⟩
        { monitor with row := poll.row } flag size rfl rfl rfl rfl
      rw [searched, Option.bind_eq_bind, Option.bind_some]
      refine ⟨_, rfl, ?_, ?_, ?_, reported.1, reported.2⟩
      · rw [checkFileSize_row]
        exact counts
      · rw [checkFileSize_row]
        exact size
      · refine List.forall_mem_append.mpr ⟨lines, List.forall_mem_singleton.mpr ?_⟩
        rw [Report.LinesRight, max_eq_right positive]
        exact alerts
    · rw [if_neg complete]
      exact ⟨watch, rfl, counts, size, lines, indifferent, wrong⟩

/-- In every run of polls and SETs from the start of a thread whose SETs keep the counter: no
division by 0, the alerts for lines are the multiples of the filter counter, and the alerts for
sizes are right exactly when no poll saw a size apart from a positive threshold. -/
theorem alerts_follow (commonCheckPattern : Text → Text → Bool) (monitor : RowMonitor)
    (size : 0 ≤ monitor.row.logMonRowFileSize) (acChangedFileName : Text)
    (events : List WatchEvent)
    (kept : Machine.Along (Watch.step commonCheckPattern) CounterKept
      (watchStart monitor acChangedFileName) events) :
    ∃ last, Machine.run (Watch.step commonCheckPattern) (watchStart monitor acChangedFileName)
        events = some last ∧
      (∀ report ∈ last.reports, report.LinesRight commonCheckPattern) ∧
      ((∀ report ∈ last.reports, report.SizeRight) ↔
        ∀ report ∈ last.reports, report.Indifferent) := by
  obtain ⟨last, executed, followed⟩ := Machine.run_progress
    (fun watch event followed kept => Followed.step followed event kept)
    (watchStart_followed size acChangedFileName) kept
  exact ⟨last, executed, followed.lines, followed.wrong, fun indifferent =>
    (followed.indifferent indifferent).2.2⟩

/-- A row for the file `a` with the filter `e` and the threshold 10. -/
def sizedRow : RowMonitor where
  row := ⟨['e'], 1, 0, 0, 0, 0, 0, false, 0⟩
  logMonRowLogFile := ['a']
  logMonRowReadInterval := 1
  logMonRowFileSizeThreshold := 10
  acOldFileName := []
  sendFileSizeTrap := 0

def sightOf (content : Text) : Sight := ⟨some content.length, some content, some content⟩

def sameLine (line filter : Text) : Bool := filter.isPrefixOf line

/-- The file has one line, then three lines that match, and four more. The filter counter is set
to 3 and to 2, and the threshold to no size and to the size that the last poll finds. -/
def counterSet : List WatchEvent :=
  [.setFileSizeThreshold 0, .poll ['a'] (sightOf "x\n".toList),
    .poll ['a'] (sightOf "x\ne\ne\ne\n".toList), .setFilterCounter 3, .setFileSizeThreshold 16,
    .poll ['a'] (sightOf "x\ne\ne\ne\ne\ne\ne\ne\n".toList), .setFilterCounter 2]

/-- The numbers of the lines alerted, the threshold and the size. -/
def Report.seen (report : Report) : List Int × Int × Int :=
  (report.poll.alerts.map Prod.snd, report.threshold, report.poll.row.logMonRowFileSize)

/-- Each of the first three matches is alerted, and then the sixth, in line 7. -/
theorem alerts_follow_set : ∃ last,
    Machine.run (Watch.step sameLine) (watchStart sizedRow ['a']) counterSet = some last ∧
      (∀ report ∈ last.reports, report.LinesRight sameLine) ∧
      last.reports.map Report.seen = [([], 0, 2), ([2, 3, 4], 0, 8), ([7], 16, 16)] ∧
      ∀ report ∈ last.reports, report.SizeRight := by
  have kept : Machine.Along (Watch.step sameLine) CounterKept (watchStart sizedRow ['a'])
      counterSet := by decide +kernel
  obtain ⟨last, executed, lines, sizes⟩ :=
    alerts_follow sameLine sizedRow (by decide) ['a'] counterSet kept
  have computed : (Machine.run (Watch.step sameLine) (watchStart sizedRow ['a']) counterSet).map
      (fun last => last.reports.map Report.seen) =
        some [([], 0, 2), ([2, 3, 4], 0, 8), ([7], 16, 16)] := by
    decide +kernel
  rw [executed] at computed
  have seen : last.reports.map Report.seen = [([], 0, 2), ([2, 3, 4], 0, 8), ([7], 16, 16)] :=
    Option.some.inj computed
  refine ⟨last, executed, lines, seen, sizes.mpr ?_⟩
  intro report member
  have one : report.seen ∈ last.reports.map Report.seen := List.mem_map_of_mem member
  rw [seen] at one
  rw [Report.Indifferent]
  simp only [Report.seen, List.mem_cons, Prod.mk.injEq, List.not_mem_nil, or_false] at one
  omega

/-- The first poll finds a small file, and the alert says that its size has recovered. -/
theorem recovered_first : ¬ ∃ last,
    Machine.run (Watch.step sameLine) (watchStart sizedRow ['a'])
        [.poll ['a'] (sightOf ['e'])] = some last ∧
      ∀ report ∈ last.reports, report.SizeRight := by
  rintro ⟨last, executed, right⟩
  have traps : last.reports.map Report.trap = [some .recovered] := by
    have computed : (Machine.run (Watch.step sameLine) (watchStart sizedRow ['a'])
        [.poll ['a'] (sightOf ['e'])]).map (fun last => last.reports.map Report.trap) =
          some [some .recovered] := by
      decide
    rw [executed] at computed
    exact Option.some.inj computed
  have sizes : last.reports.map (fun report => sizeTrapOf report.wasExceeded report.threshold
      report.poll.row.logMonRowFileSize) = [none] := by
    have computed : (Machine.run (Watch.step sameLine) (watchStart sizedRow ['a'])
        [.poll ['a'] (sightOf ['e'])]).map (fun last => last.reports.map fun report =>
          sizeTrapOf report.wasExceeded report.threshold report.poll.row.logMonRowFileSize) =
            some [none] := by
      decide
    rw [executed] at computed
    exact Option.some.inj computed
  have same := traps.symm.trans ((List.map_congr_left right).trans sizes)
  exact absurd same (by decide)

end Watches

end EveAgent.LogMon
