import EveAgent.Scheduler.ThreadFacts

namespace EveAgent.Scheduler

open Machine

section Discipline

/-- Whether the mutex is held after these operations, the newest first. -/
def heldAfter : List MutexOp → Bool
  | [] => false
  | .lock :: _ => true
  | .unlock :: _ => false
  | .access :: before => heldAfter before

/-- It is unlocked and the list is used only while it is held, and it is locked only
while it is not. -/
def Disciplined : List MutexOp → Prop
  | [] => True
  | .lock :: before => heldAfter before = false ∧ Disciplined before
  | .unlock :: before => heldAfter before = true ∧ Disciplined before
  | .access :: before => heldAfter before = true ∧ Disciplined before

instance Disciplined.decidable : ∀ ops, Decidable (Disciplined ops)
  | [] => isTrue trivial
  | .lock :: before =>
    have := Disciplined.decidable before
    inferInstanceAs (Decidable (_ ∧ _))
  | .unlock :: before =>
    have := Disciplined.decidable before
    inferInstanceAs (Decidable (_ ∧ _))
  | .access :: before =>
    have := Disciplined.decidable before
    inferInstanceAs (Decidable (_ ∧ _))

def Pc.holds : Pc → Bool
  | .poll _ => false
  | .rebuild (.buildEvery _ _) => true
  | .rebuild (.buildHour _) => true
  | .rebuild _ => false
  | .dispatch .sleepNext => false
  | .dispatch .changedTest => false
  | .dispatch _ => true

structure LockInv (s : State) : Prop where
  disciplined : Disciplined s.ops
  held : heldAfter s.ops = s.pc.holds

/-- The breaks of the dispatch loop that leave it without the mutex are not taken. -/
def NoUnlockedBreak (s : State) : Label → Prop
  | .sched _ =>
    ¬ (s.pc = .dispatch .stopTest ∧ s.gbStopScheduler = true) ∧
      ¬ (s.pc = .dispatch .changedTest ∧ s.gbTaskChanged = true)
  | _ => True

instance (s : State) : ∀ label, Decidable (NoUnlockedBreak s label)
  | .sched _ => inferInstanceAs (Decidable (_ ∧ _))
  | .tick _ => isTrue trivial
  | .validateTask _ => isTrue trivial
  | .insertTask _ _ => isTrue trivial
  | .deleteTask _ => isTrue trivial
  | .stopScheduler => isTrue trivial

variable {s t : State}

theorem pollStep_lock {pc : PollPc} (atPc : s.pc = .poll pc) (inv : LockInv s)
    (stepped : pollStep s pc = some t) : LockInv t := by
  have held := inv.held
  simp only [atPc, Pc.holds] at held
  revert stepped
  fun_cases pollStep s pc
  all_goals rintro ⟨⟩
  case case3 => exact ⟨⟨rfl, rfl, held, inv.disciplined⟩, rfl⟩
  all_goals exact ⟨inv.disciplined, held⟩

theorem buildReturn_lock (inv : LockInv s) (held : heldAfter s.ops = true) :
    LockInv (buildReturn s) := ⟨⟨held, inv.disciplined⟩, rfl⟩

theorem autoCleanStep_lock {pCurrent : List TaskNode} (inv : LockInv s)
    (atPc : s.pc = .rebuild (.autoClean pCurrent)) : LockInv (autoCleanStep s pCurrent) := by
  have held := inv.held
  rw [atPc] at held
  fun_cases autoCleanStep s pCurrent
  case case3 => exact ⟨inv.disciplined, inv.held⟩
  all_goals exact ⟨inv.disciplined, held⟩

theorem rebuildStep_lock {mallocs : List Bool} {pc : RebuildPc} (atPc : s.pc = .rebuild pc)
    (inv : LockInv s) (stepped : rebuildStep mallocs s pc = some t) : LockInv t := by
  have held := inv.held
  rw [atPc] at held
  revert stepped
  fun_cases rebuildStep mallocs s pc
  all_goals rintro ⟨⟩
  case case3 => exact autoCleanStep_lock inv atPc
  -- both ways out of the building return with the mutex held
  case case7 | case10 => exact buildReturn_lock inv held
  -- the mutex is taken and released, the list read in between
  case case4 | case15 | case16 => exact ⟨⟨rfl, rfl, held, inv.disciplined⟩, rfl⟩
  case case5 => exact ⟨⟨held, inv.disciplined⟩, rfl⟩
  -- a visit to a task reads its node under the mutex
  case case8 | case11 => exact ⟨⟨held, inv.disciplined⟩, held⟩
  case case17 => exact ⟨⟨rfl, held, inv.disciplined⟩, rfl⟩
  all_goals exact ⟨inv.disciplined, held⟩

theorem dispatchStep_lock {pc : DispatchPc} (atPc : s.pc = .dispatch pc) (inv : LockInv s)
    (balanced : ¬ (pc = .stopTest ∧ s.gbStopScheduler = true) ∧
      ¬ (pc = .changedTest ∧ s.gbTaskChanged = true))
    (stepped : dispatchStep s pc = some t) : LockInv t := by
  have held := inv.held
  rw [atPc] at held
  revert stepped
  fun_cases dispatchStep s pc
  all_goals rintro ⟨⟩
  -- the two exits that unlock a second time are excluded
  case case3 stopped => exact absurd ⟨rfl, stopped⟩ balanced.1
  case case15 changed => exact absurd ⟨rfl, changed⟩ balanced.2
  case case10 => exact ⟨⟨held, held, inv.disciplined⟩, rfl⟩
  case case12 =>
    refine ⟨⟨held, inv.disciplined⟩, ?_⟩
    simp only
    split
    · exact held
    · exact held
  -- these statements touch neither the mutex nor the list
  case case4 | case13 | case14 => exact ⟨inv.disciplined, held⟩
  case case16 | case17 => exact ⟨⟨held, inv.disciplined⟩, rfl⟩
  all_goals exact ⟨⟨held, inv.disciplined⟩, held⟩

theorem step_lock {label : Label} (inv : LockInv s) (balanced : NoUnlockedBreak s label)
    (stepped : step s label = some t) : LockInv t := by
  rcases step_cases stepped with ⟨mallocs, rfl, moved⟩ | frame
  · unfold schedulerStep at moved
    cases atPc : s.pc with
    | poll pc =>
      rw [atPc] at moved
      exact pollStep_lock atPc inv moved
    | rebuild pc =>
      rw [atPc] at moved
      exact rebuildStep_lock atPc inv moved
    | dispatch pc =>
      rw [atPc] at moved
      simp only [NoUnlockedBreak, atPc, Pc.dispatch.injEq] at balanced
      exact dispatchStep_lock atPc inv balanced moved
  · constructor
    · rw [frame.ops]
      exact inv.disciplined
    · rw [frame.ops, frame.pc]
      exact inv.held

/-- In every run that takes none of these two breaks the mutex is unlocked and the
list is used only by its holder, and it is never locked twice. -/
theorem execList_disciplined (now : Nat) (labels : List Label)
    (balanced : Along step NoUnlockedBreak (schStartScheduler now) labels)
    (executed : run step (schStartScheduler now) labels = some s) : Disciplined s.ops :=
  have start : LockInv (schStartScheduler now) := ⟨trivial, rfl⟩
  (run_invariant (fun _ _ _ inv allowed stepped => step_lock inv allowed stepped) start balanced
    executed).disciplined

/-- At 10:01:40 a list with a job for 10:30 is built and the thread sleeps twice. -/
theorem execList_disciplined_sleeps :
    ∃ s, run step (schStartScheduler 36100)
        (addCall (dailyTask 10 30 0) 10 ++ schedSteps 17 ++ .tick 6 :: schedSteps 5) = some s ∧
      s.pc = .dispatch .changedTest ∧ Disciplined s.ops := by
  obtain ⟨s, executed, atPc⟩ : ∃ s, run step (schStartScheduler 36100)
      (addCall (dailyTask 10 30 0) 10 ++ schedSteps 17 ++ .tick 6 :: schedSteps 5) = some s ∧
      s.pc = .dispatch .changedTest := run_of_any (by decide +kernel)
  exact ⟨s, executed, atPc, execList_disciplined 36100 _ (by decide +kernel) executed⟩

/-- A second job is added while the thread sleeps: the mutex is unlocked twice. -/
theorem execList_unlockedTwice :
    ∃ s, run step (schStartScheduler 36100)
        (addCall (dailyTask 10 30 0) 10 ++ schedSteps 16 ++ addCall (dailyTask 10 40 0) 11 ++
          schedSteps 3) = some s ∧
      s.ops.take 2 = [.unlock, .unlock] ∧ ¬ Disciplined s.ops :=
  run_of_any (by decide +kernel)

end Discipline

end EveAgent.Scheduler
