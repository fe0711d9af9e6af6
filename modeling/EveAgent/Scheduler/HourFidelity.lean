import EveAgent.Scheduler.ThreadFacts

namespace EveAgent.Scheduler

open Machine

section Hour

variable {s t : State}

/-- The hour of a call is the hour the list of its entry was built for. -/
def HourFaithful (history : List Event) : Prop :=
  ∀ start, .started start ∈ history → start.calledAt / 3600 = start.builtAt / 3600

instance (history : List Event) : Decidable (HourFaithful history) :=
  decidable_of_iff (∀ start ∈ history.filterMap Event.start,
    start.calledAt / 3600 = start.builtAt / 3600) (by simp only [mem_starts, HourFaithful])

/-- The clock stays in the hour of the list while entries of it may be started, and
the traversal adds none after that hour. -/
def HourKept (s : State) : Label → Prop
  | .tick seconds => s.startable ≠ [] → (s.clock + seconds) / 3600 = s.builtAt / 3600
  | .sched mallocs =>
    s.gbStopScheduler = false → s.added mallocs ≠ [] → s.clock / 3600 = s.builtAt / 3600
  | _ => True

instance (s : State) : ∀ label, Decidable (HourKept s label)
  | .tick _ => inferInstanceAs (Decidable (_ → _))
  | .sched _ => inferInstanceAs (Decidable (_ → _ → _))
  | .validateTask _ => isTrue trivial
  | .insertTask _ _ => isTrue trivial
  | .deleteTask _ => isTrue trivial
  | .stopScheduler => isTrue trivial

structure HourInv (s : State) : Prop where
  current : s.startable ≠ [] → s.clock / 3600 = s.builtAt / 3600
  faithful : HourFaithful s.history

theorem HourInv.current_step (inv : HourInv s) {label : Label} (kept : HourKept s label)
    (stepped : step s label = some t) (present : t.startable ≠ []) :
    t.clock / 3600 = t.builtAt / 3600 := by
  obtain ⟨node, member⟩ := List.exists_mem_of_ne_nil _ present
  have before := step_startable stepped member
  rcases step_clock stepped with ⟨seconds, rfl, rfl⟩ | clock
  · rcases before with old | ⟨_, sched, _⟩
    · exact kept (List.ne_nil_of_mem old)
    · cases sched
  · rcases step_cases stepped with ⟨mallocs, rfl, moved⟩ | frame
    · have same : s.clock / 3600 = s.builtAt / 3600 := by
        rcases before with old | ⟨_, sched, new, running⟩
        · exact inv.current (List.ne_nil_of_mem old)
        · obtain rfl := Label.sched.inj sched
          exact kept running (List.ne_nil_of_mem new)
      rcases (schedulerStep_frame moved).builtAt with builtAt | ⟨_, builtAt⟩
      · rw [clock, builtAt, same]
      · rw [clock, builtAt]
    · rw [clock, frame.builtAt]
      exact inv.current (List.ne_nil_of_mem (startable_caller frame member))

theorem HourInv.faithful_step (inv : HourInv s) {label : Label}
    (stepped : step s label = some t) : HourFaithful t.history := by
  intro start member
  rcases step_starts stepped with same | ⟨_, head, rest, _, before, nodes, due, _, _, logged⟩
  · rw [← mem_starts, same, mem_starts] at member
    exact inv.faithful start member
  · rw [logged] at member
    rcases List.mem_cons.mp member with now | earlier
    · obtain rfl := Event.started.inj now
      exact inv.current (List.ne_nil_of_mem (started_startable before nodes due))
    · exact inv.faithful start earlier

/-- In every run that keeps to these hours every callback is started in the hour its
list was built for. -/
theorem hour_faithful (now : Nat) (labels : List Label)
    (kept : Along step HourKept (schStartScheduler now) labels)
    (executed : run step (schStartScheduler now) labels = some s) : HourFaithful s.history := by
  have start : HourInv (schStartScheduler now) := by
    constructor
    · intro present
      exact absurd rfl present
    · intro start member
      cases member
  have inv : HourInv s := by
    apply run_invariant _ start kept executed
    intro s label t inv allowed stepped
    exact ⟨inv.current_step allowed stepped, inv.faithful_step stepped⟩
  exact inv.faithful

/-- The list of 10:00 at 10:10:00, with jobs for 10:10:00 and 10:20:00; the first runs. -/
def twoJobs : List Label :=
  addCall (dailyTask 10 10 0) 10 ++ addCall (dailyTask 10 20 0) 11 ++ schedSteps 17

/-- The callback takes 30 seconds and the second job is started on time. -/
theorem hour_faithful_onTime :
    ∃ s, run step (schStartScheduler 36600)
        (twoJobs ++ .tick 30 :: schedSteps 5 ++ .tick 570 :: schedSteps 4) = some s ∧
      s.pc = .dispatch .running ∧ HourFaithful s.history := by
  obtain ⟨s, executed, atPc⟩ : ∃ s, run step (schStartScheduler 36600)
      (twoJobs ++ .tick 30 :: schedSteps 5 ++ .tick 570 :: schedSteps 4) = some s ∧
      s.pc = .dispatch .running := run_of_any (by decide +kernel)
  exact ⟨s, executed, atPc, hour_faithful 36600 _ (by decide +kernel) executed⟩

/-- The callback takes 55 minutes and the second job is started at 11:20:00. -/
theorem hour_carriedOver :
    ∃ s, run step (schStartScheduler 36600)
        (twoJobs ++ .tick 3300 :: schedSteps 5 ++ .tick 900 :: schedSteps 4) = some s ∧
      s.clock = 11 * 3600 + 20 * 60 ∧ s.pc = .dispatch .running ∧ ¬ HourFaithful s.history :=
  run_of_any (by decide +kernel)

end Hour

end EveAgent.Scheduler
