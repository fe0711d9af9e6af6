import EveAgent.Scheduler.Task

namespace EveAgent.Scheduler

/-- The week day test of `BuildExecutionList`. -/
def Today (pTime : Tm) (task : StTask) : Prop :=
  task.eWeekDay.value = pTime.tmWday ∨ task.eWeekDay = .schAllDays

instance (pTime : Tm) (task : StTask) : Decidable (Today pTime task) :=
  inferInstanceAs (Decidable (_ ∨ _))

section Visits

def ui16EndHrInSec (pTime : Tm) : UInt16 :=
  UInt16.ofNat (pTime.tmHour * noSecsInHour) + UInt16.ofNat noSecsInHour

/-- The locals `ui32Interval` and `ui32NoOfExec` with which one task of the slot
`EVERY_HOUR_TASK` reaches the loop over the executions; `none` is the return in
the middle of the traversal. -/
def everyHourVisit (pTime : Tm) (endHrInSec : UInt16) (ui32NoOfExec : UInt32) (task : StTask) :
    Option (UInt32 × UInt32) :=
  let ui32Interval := task.ui32Interval
  if task.ePCity = .schSecMinHour ∧ Today pTime task then
    if ui32Interval > 0 ∧ ui32Interval ≤ 3600 then some (ui32Interval, 3600 / ui32Interval)
    else if ui32Interval > 3600 ∧ ui32Interval ≤ 86400 then
      let ui32Mod := endHrInSec.toUInt32 % ui32Interval
      if ui32Mod < 3600 then some (if ui32Mod = 0 then 3600 else ui32Mod, 1)
      else some (ui32Interval, ui32NoOfExec)
    else if ui32Interval > 86400 then none
    else some (ui32Interval, ui32NoOfExec)
  else some (ui32Interval, ui32NoOfExec)

/-- The loop over the executions: the intervals passed to `AddToExecutionList`. -/
def executions (ui32Interval ui32NoOfExec : UInt32) : List UInt32 :=
  (List.range ui32NoOfExec.toNat).map fun ui32Count => ui32Interval * (UInt32.ofNat ui32Count + 1)

/-- The second of the hour a task of a start hour is to run at. -/
def startOffset (task : StTask) : UInt32 :=
  UInt32.ofNat (task.startTime.ui16Minute.toNat * noSecsInMin + task.startTime.ui16Second.toNat)

/-- The intervals passed to `AddToExecutionList` for one task of the current hour's slot. -/
def hourVisit (pTime : Tm) (task : StTask) : List UInt32 :=
  (if task.ePCity = .schDay ∧ Today pTime task then [startOffset task] else []) ++
  (if task.ePCity = .schWeek ∧ task.eWeekDay.value = pTime.tmWday then [startOffset task]
    else []) ++
  (if task.ePCity = .schMonth ∧ task.startDate.ui16Day.toNat = pTime.tmMday then
    [startOffset task] else [])

theorem hourVisit_cases (pTime : Tm) (task : StTask) :
    hourVisit pTime task = [] ∨ hourVisit pTime task = [startOffset task] := by
  unfold hourVisit
  cases task.ePCity with
  | schSecMinHour => simp
  | schDay => by_cases today : Today pTime task <;> simp [today]
  | schWeek => by_cases today : task.eWeekDay.value = pTime.tmWday <;> simp [today]
  | schMonth => by_cases today : task.startDate.ui16Day.toNat = pTime.tmMday <;> simp [today]
  | outOfRange => simp

theorem startOffset_toNat (task : StTask) :
    (startOffset task).toNat =
      task.startTime.ui16Minute.toNat * noSecsInMin + task.startTime.ui16Second.toNat := by
  have minute := task.startTime.ui16Minute.toNat_lt
  have second := task.startTime.ui16Second.toNat_lt
  simp only [startOffset, noSecsInMin, UInt32.toNat_ofNat']
  omega

end Visits

section EveryHour

/-- The traversal of the slot `EVERY_HOUR_TASK`: the entries in the order in which
they are added, and whether the traversal reached the end of the slot. -/
def everyHourLoop (pTime : Tm) (endHrInSec : UInt16) :
    UInt32 → List StTask → List (StTask × UInt32) × Bool
  | _, [] => ([], true)
  | ui32NoOfExec, task :: rest =>
    match everyHourVisit pTime endHrInSec ui32NoOfExec task with
    | none => ([], false)
    | some (ui32Interval, ui32NoOfExec) =>
      let (entries, finished) := everyHourLoop pTime endHrInSec ui32NoOfExec rest
      ((executions ui32Interval ui32NoOfExec).map (fun interval => (task, interval)) ++ entries,
        finished)

/-- The entries `BuildExecutionList` adds for these tasks of the slot at this time. -/
def everyHourEntries (now : Nat) (tasks : List StTask) : List (StTask × UInt32) :=
  (everyHourLoop (localtime now) (ui16EndHrInSec (localtime now)) 0 tasks).1

/-- The task is visited through a branch that assigns `ui32NoOfExec`. -/
def AssignsNoOfExec (pTime : Tm) (endHrInSec : UInt16) (task : StTask) : Prop :=
  task.ePCity = .schSecMinHour ∧ Today pTime task ∧
    ((task.ui32Interval > 0 ∧ task.ui32Interval ≤ 3600) ∨
      (task.ui32Interval > 3600 ∧ task.ui32Interval ≤ 86400 ∧
        endHrInSec.toUInt32 % task.ui32Interval < 3600))

instance (pTime : Tm) (endHrInSec : UInt16) (task : StTask) :
    Decidable (AssignsNoOfExec pTime endHrInSec task) :=
  inferInstanceAs (Decidable (_ ∧ _))

/-- Some multiple of the interval, counted from midnight, ends in the hour of `now`. -/
def DueThisHour (now : Nat) (ui32Interval : UInt32) : Prop :=
  ∃ count, now / 3600 % 24 * 3600 < count * ui32Interval.toNat ∧
    count * ui32Interval.toNat ≤ (now / 3600 % 24 + 1) * 3600

/-- A task of the slot that is for another day or not due in this hour. -/
def Idle (now : Nat) (task : StTask) : Prop :=
  task.ePCity = .schSecMinHour ∧
    (¬ Today (localtime now) task ∨
      (3600 < task.ui32Interval.toNat ∧ ¬ DueThisHour now task.ui32Interval))

variable {pTime : Tm} {endHrInSec : UInt16} {task : StTask} {tasks : List StTask}
  {ui32NoOfExec : UInt32}

theorem interval_of_accepted (accepted : Accepted task) (hourly : task.ePCity = .schSecMinHour) :
    0 < task.ui32Interval ∧ task.ui32Interval ≤ 86400 := by
  obtain ⟨now, valid⟩ := accepted
  have range := (validateTask_cases valid).2.2 hourly
  exact ⟨range.1, range.2⟩

theorem everyHourVisit_accepted (pTime : Tm) (endHrInSec : UInt16)
    (accepted : Accepted task) :
    ∃ ui32Interval assigned, 0 < assigned.toNat ∧
      ∀ ui32NoOfExec, everyHourVisit pTime endHrInSec ui32NoOfExec task =
        some (ui32Interval,
          if AssignsNoOfExec pTime endHrInSec task then assigned else ui32NoOfExec) := by
  by_cases selected : task.ePCity = .schSecMinHour ∧ Today pTime task
  · obtain ⟨positive, inDay⟩ := interval_of_accepted accepted selected.1
    by_cases short : task.ui32Interval ≤ 3600
    · have assigns : AssignsNoOfExec pTime endHrInSec task :=
        ⟨selected.1, selected.2, .inl ⟨positive, short⟩⟩
      refine ⟨task.ui32Interval, 3600 / task.ui32Interval, ?_, ?_⟩
      · rw [UInt32.toNat_div]
        exact Nat.div_pos short positive
      · intro ui32NoOfExec
        simp only [everyHourVisit, if_pos selected, if_pos (And.intro positive short),
          if_pos assigns]
    · have long : task.ui32Interval > 3600 := by
        rw [gt_iff_lt, UInt32.lt_iff_toNat_lt]
        rw [UInt32.le_iff_toNat_le] at short
        omega
      by_cases due : endHrInSec.toUInt32 % task.ui32Interval < 3600
      · have assigns : AssignsNoOfExec pTime endHrInSec task :=
          ⟨selected.1, selected.2, .inr ⟨long, inDay, due⟩⟩
        refine ⟨if endHrInSec.toUInt32 % task.ui32Interval = 0 then 3600
          else endHrInSec.toUInt32 % task.ui32Interval, 1, by decide, ?_⟩
        intro ui32NoOfExec
        simp only [everyHourVisit, if_pos selected,
          if_neg (fun both : _ ∧ task.ui32Interval ≤ 3600 => short both.2),
          if_pos (And.intro long inDay), if_pos due, if_pos assigns]
      · have keeps : ¬ AssignsNoOfExec pTime endHrInSec task := by
          rintro ⟨_, _, within | within⟩
          · exact short within.2
          · exact due within.2.2
        refine ⟨task.ui32Interval, 1, by decide, ?_⟩
        intro ui32NoOfExec
        simp only [everyHourVisit, if_pos selected,
          if_neg (fun both : _ ∧ task.ui32Interval ≤ 3600 => short both.2),
          if_pos (And.intro long inDay), if_neg due, if_neg keeps]
  · have keeps : ¬ AssignsNoOfExec pTime endHrInSec task :=
      fun assigns => selected ⟨assigns.1, assigns.2.1⟩
    refine ⟨task.ui32Interval, 1, by decide, ?_⟩
    intro ui32NoOfExec
    simp only [everyHourVisit, if_neg selected, if_neg keeps]

/-- The local `ui32NoOfExec` after the traversal of these tasks. -/
def carriedNoOfExec (pTime : Tm) (endHrInSec : UInt16) : UInt32 → List StTask → UInt32
  | ui32NoOfExec, [] => ui32NoOfExec
  | ui32NoOfExec, task :: rest =>
    match everyHourVisit pTime endHrInSec ui32NoOfExec task with
    | none => ui32NoOfExec
    | some (_, ui32NoOfExec) => carriedNoOfExec pTime endHrInSec ui32NoOfExec rest

theorem executions_length (ui32Interval ui32NoOfExec : UInt32) :
    (executions ui32Interval ui32NoOfExec).length = ui32NoOfExec.toNat := by
  rw [executions, List.length_map, List.length_range]

theorem everyHourLoop_append {front : List StTask} (accepted : ∀ task ∈ front, Accepted task)
    (ui32NoOfExec : UInt32) (back : List StTask) :
    (everyHourLoop pTime endHrInSec ui32NoOfExec (front ++ back)).1 =
      (everyHourLoop pTime endHrInSec ui32NoOfExec front).1 ++
        (everyHourLoop pTime endHrInSec
          (carriedNoOfExec pTime endHrInSec ui32NoOfExec front) back).1 := by
  induction front generalizing ui32NoOfExec with
  | nil => rfl
  | cons task rest ih =>
    obtain ⟨ui32Interval, assigned, _, visited⟩ :=
      everyHourVisit_accepted pTime endHrInSec (accepted task List.mem_cons_self)
    simp only [List.cons_append, everyHourLoop, carriedNoOfExec, visited]
    rw [ih (fun other member => accepted other (List.mem_cons_of_mem _ member)),
      List.append_assoc]

theorem carried_of_none {front : List StTask} (accepted : ∀ task ∈ front, Accepted task)
    (none : ∀ task ∈ front, ¬ AssignsNoOfExec pTime endHrInSec task) (ui32NoOfExec : UInt32) :
    carriedNoOfExec pTime endHrInSec ui32NoOfExec front = ui32NoOfExec := by
  induction front generalizing ui32NoOfExec with
  | nil => rfl
  | cons task rest ih =>
    obtain ⟨ui32Interval, assigned, _, visited⟩ :=
      everyHourVisit_accepted pTime endHrInSec (accepted task List.mem_cons_self)
    simp only [carriedNoOfExec, visited, if_neg (none task List.mem_cons_self)]
    exact ih (fun other member => accepted other (List.mem_cons_of_mem _ member))
      (fun other member => none other (List.mem_cons_of_mem _ member)) ui32NoOfExec

theorem carried_positive {front : List StTask} (accepted : ∀ task ∈ front, Accepted task)
    {ui32NoOfExec : UInt32}
    (source : 0 < ui32NoOfExec.toNat ∨ ∃ task ∈ front, AssignsNoOfExec pTime endHrInSec task) :
    0 < (carriedNoOfExec pTime endHrInSec ui32NoOfExec front).toNat := by
  induction front generalizing ui32NoOfExec with
  | nil =>
    rcases source with positive | ⟨task, member, _⟩
    · exact positive
    · cases member
  | cons task rest ih =>
    obtain ⟨ui32Interval, assigned, assignedPositive, visited⟩ :=
      everyHourVisit_accepted pTime endHrInSec (accepted task List.mem_cons_self)
    simp only [carriedNoOfExec, visited]
    apply ih (fun other member => accepted other (List.mem_cons_of_mem _ member))
    by_cases assigns : AssignsNoOfExec pTime endHrInSec task
    · rw [if_pos assigns]
      exact .inl assignedPositive
    · rw [if_neg assigns]
      rcases source with positive | ⟨other, member, assigns'⟩
      · exact .inl positive
      · rcases List.mem_cons.mp member with rfl | member
        · exact absurd assigns' assigns
        · exact .inr ⟨other, member, assigns'⟩

theorem everyHourLoop_length (pTime : Tm) (endHrInSec : UInt16)
    (accepted : ∀ task ∈ tasks, Accepted task) (ui32NoOfExec : UInt32) :
    (everyHourLoop pTime endHrInSec 0 tasks).1.length ≤
      (everyHourLoop pTime endHrInSec ui32NoOfExec tasks).1.length := by
  induction tasks with
  | nil => exact Nat.le_refl _
  | cons task rest ih =>
    obtain ⟨ui32Interval, assigned, _, visited⟩ :=
      everyHourVisit_accepted pTime endHrInSec (accepted task List.mem_cons_self)
    simp only [everyHourLoop, visited]
    by_cases assigns : AssignsNoOfExec pTime endHrInSec task
    · simp only [if_pos assigns, Nat.le_refl]
    · simp only [if_neg assigns, List.length_append, List.length_map, executions_length]
      have shorter := ih fun other member => accepted other (List.mem_cons_of_mem _ member)
      rw [UInt32.toNat_zero]
      omega

theorem everyHourLoop_eq_iff (accepted : ∀ task ∈ tasks, Accepted task)
    (positive : 0 < ui32NoOfExec.toNat) :
    (everyHourLoop pTime endHrInSec ui32NoOfExec tasks).1 =
        (everyHourLoop pTime endHrInSec 0 tasks).1 ↔
      ∀ task ∈ tasks.head?, AssignsNoOfExec pTime endHrInSec task := by
  cases tasks with
  | nil => simp [everyHourLoop]
  | cons task rest =>
    obtain ⟨ui32Interval, assigned, _, visited⟩ :=
      everyHourVisit_accepted pTime endHrInSec (accepted task List.mem_cons_self)
    have longer := everyHourLoop_length pTime endHrInSec
      (fun other member => accepted other (List.mem_cons_of_mem _ member)) ui32NoOfExec
    simp only [everyHourLoop, visited, List.head?_cons, Option.mem_def, Option.some.injEq,
      forall_eq']
    by_cases assigns : AssignsNoOfExec pTime endHrInSec task
    · simp only [assigns, if_true]
    · simp only [assigns, if_false, iff_false]
      intro same
      have lengths := congrArg List.length same
      simp only [List.length_append, List.length_map, executions_length,
        UInt32.toNat_zero] at lengths
      omega

end EveryHour

section Independence

variable {now : Nat} {front xs ys : List StTask} {task : StTask}

/-- The tasks of the slot contribute their entries independently of each other, and
an idle one contributes none. -/
def Independent (now : Nat) (xs ys : List StTask) : Prop :=
  everyHourEntries now (xs ++ ys) = everyHourEntries now xs ++ everyHourEntries now ys ∧
    ∀ front task back, xs ++ ys = front ++ task :: back → Idle now task →
      everyHourEntries now (front ++ [task]) = everyHourEntries now front

/-- The assignments of `BuildExecutionList` to `ui32NoOfExec` at this time. -/
abbrev Assigns (now : Nat) (task : StTask) : Prop :=
  AssignsNoOfExec (localtime now) (ui16EndHrInSec (localtime now)) task

theorem everyHourEntries_append_iff (accepted : ∀ task ∈ xs ++ ys, Accepted task) :
    everyHourEntries now (xs ++ ys) = everyHourEntries now xs ++ everyHourEntries now ys ↔
      (∀ task ∈ xs, ¬ Assigns now task) ∨ ∀ task ∈ ys.head?, Assigns now task := by
  have before : ∀ task ∈ xs, Accepted task :=
    fun task member => accepted task (List.mem_append_left _ member)
  have after : ∀ task ∈ ys, Accepted task :=
    fun task member => accepted task (List.mem_append_right _ member)
  rw [everyHourEntries, everyHourLoop_append before, everyHourEntries, everyHourEntries,
    List.append_cancel_left_eq]
  by_cases none : ∀ task ∈ xs, ¬ Assigns now task
  · rw [carried_of_none before none]
    exact iff_of_true rfl (.inl none)
  · have some : ∃ task ∈ xs, Assigns now task := by
      by_contra absent
      exact none fun task member assigns => absent ⟨task, member, assigns⟩
    rw [everyHourLoop_eq_iff after (carried_positive before (.inr some))]
    simp only [none, false_or]

theorem idle_contributes_iff (accepted : ∀ other ∈ front ++ [task], Accepted other) :
    everyHourEntries now (front ++ [task]) = everyHourEntries now front ↔
      ∀ other ∈ front ++ [task], ¬ Assigns now other := by
  have before : ∀ other ∈ front, Accepted other :=
    fun other member => accepted other (List.mem_append_left _ member)
  obtain ⟨ui32Interval, assigned, positive, visited⟩ :=
    everyHourVisit_accepted (localtime now) (ui16EndHrInSec (localtime now))
      (accepted task (by simp))
  rw [everyHourEntries, everyHourLoop_append before, everyHourEntries, List.append_right_eq_self]
  simp only [everyHourLoop, visited, List.append_nil]
  rw [← List.length_eq_zero_iff, List.length_map, executions_length]
  constructor
  · intro zero other member assigns
    rcases List.mem_append.mp member with member | member
    · have carried : 0 < (carriedNoOfExec (localtime now) (ui16EndHrInSec (localtime now)) 0
          front).toNat := carried_positive before (.inr ⟨other, member, assigns⟩)
      split_ifs at zero <;> omega
    · rw [List.mem_singleton] at member
      subst member
      rw [if_pos assigns] at zero
      omega
  · intro none
    rw [if_neg (none task (by simp)),
      carried_of_none before fun other member => none other (List.mem_append_left _ member)]
    rfl

/-- Exactly when the tasks of a slot are independent: nothing is left behind to the
second part, and no idle task is visited with an assigned `ui32NoOfExec`. -/
theorem everyHour_independent_iff (accepted : ∀ task ∈ xs ++ ys, Accepted task) :
    Independent now xs ys ↔
      ((∀ task ∈ xs, ¬ Assigns now task) ∨ ∀ task ∈ ys.head?, Assigns now task) ∧
        ∀ front task back, xs ++ ys = front ++ task :: back → Idle now task →
          ∀ other ∈ front ++ [task], ¬ Assigns now other := by
  have part : ∀ front task back, xs ++ ys = front ++ task :: back →
      ∀ other ∈ front ++ [task], Accepted other := by
    intro front task back split other member
    apply accepted other
    rw [split, List.append_cons]
    exact List.mem_append_left _ member
  rw [Independent, everyHourEntries_append_iff accepted]
  constructor
  · rintro ⟨both, alone⟩
    refine ⟨both, ?_⟩
    intro front task back split idle
    exact (idle_contributes_iff (part front task back split)).mp (alone front task back split idle)
  · rintro ⟨both, alone⟩
    refine ⟨both, ?_⟩
    intro front task back split idle
    exact (idle_contributes_iff (part front task back split)).mpr (alone front task back split idle)

/-- A job of every so many seconds on this day of the week. -/
def intervalTask (ui32Interval : UInt32) (eWeekDay : EWeekDay) : StTask :=
  { startDate := ⟨3, 2, 2004⟩
    endDate := ⟨3, 2, 2004⟩
    startTime := ⟨0, 0, 0⟩
    endTime := ⟨0, 0, 0⟩
    eType := .schPeriodic
    ePCity := .schSecMinHour
    ui32Interval := ui32Interval
    eWeekDay := eWeekDay
    fp := 1
    vpArg := 1 }

/-- A Thursday; the second task is for Fridays. -/
theorem everyHour_independent_alone :
    Independent 0 [intervalTask 1800 .schFri] [intervalTask 1800 .schThu] :=
  (everyHour_independent_iff (by
      intro task member
      fin_cases member
      · exact ⟨0, by decide⟩
      · exact ⟨0, by decide⟩)).mpr ⟨.inl (by decide), by
    intro front task back split idle
    cases front with
    | nil =>
      obtain ⟨rfl, _⟩ := List.cons.inj split
      decide
    | cons first rest =>
      simp only [List.cons_append, List.nil_append, List.cons.injEq] at split
      obtain ⟨_, split⟩ := split
      cases rest with
      | nil =>
        simp only [List.nil_append, List.cons.injEq] at split
        obtain ⟨rfl, _⟩ := split
        rcases idle.2 with notToday | long
        · exact absurd (by decide) notToday
        · exact absurd long.1 (by decide)
      | cons second rest => simp at split⟩

/-- A job for Fridays runs on a Thursday as often as the job before it. -/
theorem everyHour_leaks :
    (∀ task ∈ [intervalTask 1800 .schThu, intervalTask 600 .schFri], Accepted task) ∧
      Idle 0 (intervalTask 600 .schFri) ∧
      everyHourEntries 0 [intervalTask 600 .schFri] = [] ∧
      everyHourEntries 0 [intervalTask 1800 .schThu, intervalTask 600 .schFri] =
        [(intervalTask 1800 .schThu, 1800), (intervalTask 1800 .schThu, 3600),
          (intervalTask 600 .schFri, 600), (intervalTask 600 .schFri, 1200)] ∧
      ¬ Independent 0 [intervalTask 1800 .schThu] [intervalTask 600 .schFri] := by
  refine ⟨?_, ⟨rfl, .inl (by decide)⟩, by decide, by decide, ?_⟩
  · intro task member
    fin_cases member
    · exact ⟨0, by decide⟩
    · exact ⟨0, by decide⟩
  · intro independent
    exact absurd independent.1 (by decide)

end Independence

end EveAgent.Scheduler
