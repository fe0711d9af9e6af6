import EveAgent.LogMon.CommitSteps

namespace EveAgent.LogMon

section Start

variable {rows : List (Nat × Columns × Bool)} {index p : Nat}

end Start

section Polls

variable {system : System} {index row k : Nat} {events : List RowEvent}

/-- How many steps a thread is before its next poll. -/
def stepsTo : ThreadPc → Nat
  | .poll => 0
  | .check => 1
  | .status => 2
  | .find => 3
  | .start => 4
  | .asleep => 4
  | .sleep => 5
  | .update => 6
  | .clear => 0
  | .exited => 0

theorem goOn_thread (system : System) (k : Nat) (pc : ThreadPc) :
    (system.goOn k pc).threads k = ⟨pc, (system.threads k).row⟩ := Function.update_self _ _ _

theorem step_nearer (on : On system k row) (notClear : (system.threads k).pc ≠ .clear)
    (notPolling : (system.threads k).pc ≠ .poll)
    (found : system.container (system.heap row).index = some row)
    (due : (system.heap row).due = true) :
    ∃ pc, (system.threadStep k).threads k = ⟨pc, row⟩ ∧ pc ≠ .exited ∧ pc ≠ .clear ∧
      stepsTo (system.threads k).pc = stepsTo pc + 1 := by
  obtain ⟨live, rfl⟩ := on
  simp only [MonitoredRow.due, Bool.and_eq_true, decide_eq_true_eq] at due
  obtain ⟨isActive, complete⟩ := due
  cases pc : (system.threads k).pc with
  | start =>
    refine ⟨.find, ?_, by decide, by decide, rfl⟩
    simp only [System.threadStep, pc, goOn_thread]
  | find =>
    refine ⟨.status, ?_, by decide, by decide, rfl⟩
    simp only [System.threadStep, pc, found, Function.update_self]
  | status =>
    refine ⟨.check, ?_, by decide, by decide, rfl⟩
    simp only [System.threadStep, pc, if_pos isActive, goOn_thread]
  | clear => exact absurd pc notClear
  | check =>
    refine ⟨.poll, ?_, by decide, by decide, rfl⟩
    simp only [System.threadStep, pc, if_pos complete, goOn_thread]
  | poll => exact absurd pc notPolling
  | update =>
    refine ⟨.sleep, ?_, by decide, by decide, rfl⟩
    have there : (system.heap (system.threads k).row).logMonRowStatus ≠ .destroy := by
      rw [isActive]
      decide
    simp only [System.threadStep, pc, if_neg there, goOn_thread]
  | sleep =>
    refine ⟨.asleep, ?_, by decide, by decide, rfl⟩
    simp only [System.threadStep, pc, goOn_thread]
  | asleep =>
    refine ⟨.find, ?_, by decide, by decide, rfl⟩
    simp only [System.threadStep, pc, Function.update_self]
  | exited => exact absurd pc live

theorem threadStep_other {j : Nat} (other : j ≠ k) :
    (system.threadStep j).threads k = system.threads k := by
  have moved : ∀ pc, (system.goOn j pc).threads k = system.threads k :=
    fun pc => Function.update_of_ne (Ne.symm other) _ _
  unfold System.threadStep
  simp only
  split
  · exact moved _
  · split
    · exact moved _
    · exact Function.update_of_ne (Ne.symm other) _ _
  · exact moved _
  · exact moved _
  · exact moved _
  · exact moved _
  · split
    · exact moved _
    · exact moved _
  · exact moved _
  · exact Function.update_of_ne (Ne.symm other) _ _
  · rfl

theorem step_other (sound : Sound system) (live : (system.threads k).pc ≠ .exited)
    {event : RowEvent} (other : event ≠ .thread k) :
    (system.step event).threads k = system.threads k := by
  cases event with
  | set index columns status =>
    show (system.set index columns status).threads k = _
    unfold System.set
    split <;> rfl
  | commit created =>
    have born : k ≠ system.spawned := by
      intro same
      exact live (sound.unborn k (Nat.le_of_eq same.symm))
    show (system.commitStep created).threads k = _
    unfold System.commitStep
    split
    · rfl
    · simp only
      split
      · rfl
      · rfl
      · split
        · exact Function.update_of_ne born _ _
        · rfl
      · rfl
      · rfl
  | thread j =>
    apply threadStep_other
    intro same
    exact other (congrArg RowEvent.thread same)

theorem polled (sound : Sound system)
    (careful : ∀ past event, past ++ [event] <+: events → Careful (system.run past) event)
    (stays : ∀ early, early <+: events →
      (system.run early).container index = some row ∧ ((system.run early).heap row).due = true)
    (on : On system k row) (notClear : (system.threads k).pc ≠ .clear)
    (enough : stepsTo (system.threads k).pc ≤ events.count (.thread k)) :
    ∃ early, early <+: events ∧ (system.run early).threads k = ⟨.poll, row⟩ := by
  by_cases polling : (system.threads k).pc = .poll
  · refine ⟨[], List.nil_prefix, ?_⟩
    show system.threads k = ⟨.poll, row⟩
    rw [← polling, ← on.2]
  · induction events generalizing system with
    | nil =>
      exfalso
      have zero : stepsTo (system.threads k).pc = 0 := Nat.le_zero.mp enough
      have live := on.1
      revert zero polling notClear live
      cases (system.threads k).pc <;> simp [stepsTo]
    | cons event events ih =>
      obtain ⟨found, due⟩ := stays [] List.nil_prefix
      have own : system.container (system.heap row).index = some row := by
        rw [(sound.known index row found).2.1]
        exact found
      have next : Sound (system.step event) :=
        sound_step sound event (careful [] event ⟨events, rfl⟩)
      have careful' : ∀ past later, past ++ [later] <+: events →
          Careful ((system.step event).run past) later := by
        intro past later within
        exact careful (event :: past) later (List.cons_prefix_cons.mpr ⟨rfl, within⟩)
      have stays' : ∀ early, early <+: events →
          ((system.step event).run early).container index = some row ∧
            (((system.step event).run early).heap row).due = true := by
        intro early within
        exact stays (event :: early) (List.cons_prefix_cons.mpr ⟨rfl, within⟩)
      have lift : (∃ early, early <+: events ∧
          ((system.step event).run early).threads k = ⟨.poll, row⟩) →
          ∃ early, early <+: event :: events ∧ (system.run early).threads k = ⟨.poll, row⟩ := by
        rintro ⟨early, within, polls⟩
        exact ⟨event :: early, List.cons_prefix_cons.mpr ⟨rfl, within⟩, polls⟩
      apply lift
      by_cases own' : event = .thread k
      · subst own'
        obtain ⟨pc, thread, live, unclear, nearer⟩ :=
          step_nearer on notClear polling own due
        have stepped : (system.step (.thread k)).threads k = ⟨pc, row⟩ := thread
        rw [List.count_cons_self, nearer] at enough
        by_cases now : pc = .poll
        · exact ⟨[], List.nil_prefix, now ▸ stepped⟩
        · apply ih next careful' stays'
          · rw [On, stepped]
            exact ⟨live, rfl⟩
          · rw [stepped]
            exact unclear
          · rw [stepped]
            exact Nat.le_of_succ_le_succ enough
          · rw [stepped]
            exact now
      · have same := step_other sound on.1 own'
        rw [List.count_cons_of_ne own'] at enough
        apply ih next careful' stays'
        · rw [On, same]
          exact on
        · rw [same]
          exact notClear
        · rw [same]
          exact enough
        · rw [same]
          exact polling

end Polls

section Runs

variable {rows : List (Nat × Columns × Bool)} {events : List RowEvent} {system : System}

theorem run_sound (start : Sound system)
    (careful : ∀ past event, past ++ [event] <+: events → Careful (system.run past) event) :
    ∀ past, past <+: events → Sound (system.run past) := by
  intro past
  induction past using List.reverseRecOn with
  | nil => exact fun _ => start
  | append_singleton past event ih =>
    intro within
    have stepped : system.run (past ++ [event]) = (system.run past).step event :=
      List.foldl_append
    rw [stepped]
    exact sound_step (ih ((List.prefix_append past _).trans within)) event
      (careful past event within)

theorem Sound.one (sound : Sound system) {j k p q : Nat} (first : On system j p)
    (second : On system k q) (same : (system.heap p).index = (system.heap q).index) : j = k := by
  have equal : p = q := by
    rcases (sound.held j p first).2.2 with there | leaving
    · rcases (sound.held k q second).2.2 with here | leaving
      · rw [same, here] at there
        exact (Option.some.inj there).symm
      · have absent := leaving_absent sound leaving
        rw [← same, there] at absent
        cases absent
    · rcases (sound.held k q second).2.2 with here | leaving'
      · have absent := leaving_absent sound leaving
        rw [same, here] at absent
        cases absent
      · obtain ⟨commit, is, rfl, _⟩ := leaving
        obtain ⟨other, is', rfl, _⟩ := leaving'
        cases is.symm.trans is'
        rfl
  exact sound.single j k q (equal ▸ first) second

end Runs

end EveAgent.LogMon
