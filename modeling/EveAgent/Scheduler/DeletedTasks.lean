import EveAgent.Scheduler.ThreadFacts

namespace EveAgent.Scheduler

open Machine

section Deleted

variable {s t : State}

/-- After a successful `SCH_DeleteTask` no entry of that node is started, and every call
passes the pair of the node its entry was copied from. -/
structure NeverRunAgain (history : List Event) : Prop where
  never : ∀ newer serial older, history = newer ++ .deleted serial :: older →
    ∀ start, .started start ∈ newer → start.node.source.serial ≠ serial
  pair : ∀ start, .started start ∈ history →
    start.node.fp = start.node.source.entry.mTask.fp ∧
      start.node.vpArg = start.node.source.entry.mTask.vpArg

/-- The node the traversal of the table stands on. -/
def Pc.pTemp : Pc → Option TaskNode
  | .rebuild (.buildEvery pTemp _) => pTemp
  | .rebuild (.buildHour pTemp) => pTemp
  | _ => none

/-- What is deleted has no entry left that may be started, and the traversal of the
table does not stand on it. -/
def NoCopyLeft (s : State) : Label → Prop
  | .deleteTask lTaskId =>
    ∀ found ∈ s.nodes.find? (fun node => node.entry.id == lTaskId),
      s.pc.pTemp ≠ some found ∧ ∀ node ∈ s.startable, node.source.serial ≠ found.serial
  | _ => True

instance (s : State) : ∀ label, Decidable (NoCopyLeft s label)
  | .deleteTask _ => inferInstanceAs (Decidable (∀ _ ∈ _, _))
  | .tick _ => isTrue trivial
  | .sched _ => isTrue trivial
  | .validateTask _ => isTrue trivial
  | .insertTask _ _ => isTrue trivial
  | .stopScheduler => isTrue trivial

structure DeletedInv (s : State) : Prop where
  sound : Sound s
  used : ∀ serial, .deleted serial ∈ s.history → serial < s.serials
  gone : ∀ serial, .deleted serial ∈ s.history → ∀ node ∈ s.nodes, node.serial ≠ serial
  noCopy : ∀ serial, .deleted serial ∈ s.history →
    ∀ node ∈ s.startable, node.source.serial ≠ serial
  past : NeverRunAgain s.history

theorem DeletedInv.keep (inv : DeletedInv s) {label : Label} (stepped : step s label = some t)
    (same : ∀ serial, .deleted serial ∈ t.history → .deleted serial ∈ s.history)
    (past : NeverRunAgain t.history) : DeletedInv t := by
  have nodes := step_nodes stepped
  constructor
  · exact inv.sound.step stepped
  · intro serial deleted
    have before := inv.used serial (same serial deleted)
    rcases nodes with ⟨_, kept⟩ | ⟨_, _, _, _, _, _, _, _, more, _⟩
    · omega
    · omega
  · intro serial deleted node member
    rcases nodes with ⟨fewer, _⟩ | ⟨_, _, _, _, _, _, _, more, _⟩
    · exact inv.gone serial (same serial deleted) node (fewer.subset member)
    · rw [more] at member
      rcases List.mem_append.mp member with old | new
      · exact inv.gone serial (same serial deleted) node old
      · obtain rfl := List.mem_singleton.mp new
        have before := inv.used serial (same serial deleted)
        exact Nat.ne_of_gt before
  · intro serial deleted node member
    rcases step_startable stepped member with old | ⟨mallocs, rfl, new, _⟩
    · exact inv.noCopy serial (same serial deleted) node old
    · exact inv.gone serial (same serial deleted) node.source (added_source stepped new)
  · exact past

theorem NeverRunAgain.cons {history : List Event} (past : NeverRunAgain history) {event : Event}
    (other : ∀ start, event ≠ .started start) : NeverRunAgain (event :: history) := by
  constructor
  · intro newer serial older split start member
    cases newer with
    | nil => cases member
    | cons first rest =>
      rw [List.cons_append, List.cons.injEq] at split
      rcases List.mem_cons.mp member with same | earlier
      · exact absurd (split.1.trans same.symm) (other start)
      · exact past.never rest serial older split.2 start earlier
  · intro start member
    rcases List.mem_cons.mp member with same | earlier
    · exact absurd same.symm (other start)
    · exact past.pair start earlier

theorem NeverRunAgain.start {history : List Event} (past : NeverRunAgain history)
    {called : Start} (live : .deleted called.node.source.serial ∉ history)
    (pair : called.node.fp = called.node.source.entry.mTask.fp ∧
      called.node.vpArg = called.node.source.entry.mTask.vpArg) :
    NeverRunAgain (.started called :: history) := by
  constructor
  · intro newer serial older split start member
    cases newer with
    | nil => cases member
    | cons first rest =>
      rw [List.cons_append, List.cons.injEq] at split
      rcases List.mem_cons.mp member with same | earlier
      · obtain rfl := Event.started.inj (split.1.trans same.symm)
        intro equal
        apply live
        rw [split.2, equal]
        simp
      · exact past.never rest serial older split.2 start earlier
  · intro start member
    rcases List.mem_cons.mp member with same | earlier
    · obtain rfl := Event.started.inj same
      exact pair
    · exact past.pair start earlier

theorem DeletedInv.step {label : Label} (inv : DeletedInv s) (allowed : NoCopyLeft s label)
    (stepped : step s label = some t) : DeletedInv t := by
  have other : ∀ event, (∀ start, event ≠ .started start) → (∀ serial, event ≠ .deleted serial) →
      t.history = event :: s.history → DeletedInv t := by
    intro event notStarted notDeleted logged
    apply inv.keep stepped
    · intro serial deleted
      rw [logged] at deleted
      rcases List.mem_cons.mp deleted with same | earlier
      · exact absurd same.symm (notDeleted serial)
      · exact earlier
    · rw [logged]
      exact inv.past.cons notStarted
  cases step_logs stepped with
  | none _ same =>
    apply inv.keep stepped
    · intro serial deleted
      rwa [same] at deleted
    · rw [same]
      exact inv.past
  | slept mallocs before after nearEnd reading logged => exact other _ (by simp) (by simp) logged
  | autoCleaned mallocs before early logged => exact other _ (by simp) (by simp) logged
  | built mallocs before logged => exact other _ (by simp) (by simp) logged
  | started mallocs head rest before nodes due after list logged =>
    have startable := started_startable before nodes due
    apply inv.keep stepped
    · intro serial deleted
      rw [logged] at deleted
      simpa [State.start] using deleted
    · rw [logged]
      apply inv.past.start
      · intro deleted
        exact inv.noCopy _ deleted head startable rfl
      · exact inv.sound.copied head (startable_mem startable)
  | deleted lTaskId found member search frame =>
    have allowed := allowed found search
    have startable : t.startable = s.startable := by rw [frame]; rfl
    have deletes : ∀ serial, .deleted serial ∈ t.history →
        serial = found.serial ∨ .deleted serial ∈ s.history := by
      intro serial deleted
      rw [frame] at deleted
      simpa using deleted
    have removed : t.nodes = s.nodes.filter fun node => node.entry.id != lTaskId := by rw [frame]
    constructor
    · exact inv.sound.step stepped
    · intro serial deleted
      rw [frame]
      rcases deletes serial deleted with rfl | before
      · exact inv.sound.fresh found member
      · exact inv.used serial before
    · intro serial deleted node inside
      rw [removed, List.mem_filter, bne_iff_ne] at inside
      rcases deletes serial deleted with rfl | before
      · intro same
        have equal := inv.sound.unique inside.1 member same
        have id := List.find?_some search
        rw [beq_iff_eq] at id
        exact inside.2 (equal ▸ id)
      · exact inv.gone serial before node inside.1
    · intro serial deleted node inside
      rw [startable] at inside
      rcases deletes serial deleted with rfl | before
      · exact allowed.2 node inside
      · exact inv.noCopy serial before node inside
    · rw [frame]
      exact inv.past.cons (by simp)

/-- In every run that deletes only tasks without a copy left in the list, a deleted task
is not started again. -/
theorem deleted_neverRunAgain (now : Nat) (labels : List Label)
    (allowed : Along step NoCopyLeft (schStartScheduler now) labels)
    (executed : run step (schStartScheduler now) labels = some s) : NeverRunAgain s.history := by
  have start : DeletedInv (schStartScheduler now) := by
    constructor
    · exact sound_start now
    · intro serial deleted
      cases deleted
    · intro serial deleted
      cases deleted
    · intro serial deleted
      cases deleted
    · constructor
      · intro newer serial older split
        simp [schStartScheduler] at split
      · intro start member
        cases member
  have inv : DeletedInv s := by
    apply run_invariant _ start allowed executed
    intro s label t inv allowed stepped
    exact inv.step allowed stepped
  exact inv.past

/-- A job is deleted before the list is built, and another one takes its node. -/
theorem deleted_neverRunAgain_reused :
    ∃ s, run step (schStartScheduler 36100)
        (addCall (dailyTask 10 30 0) 10 ++ .deleteTask 10 :: addCall (dailyTask 10 40 0) 10 ++
          schedSteps 16 ++ .tick 2300 :: schedSteps 5) = some s ∧
      s.pc = .dispatch .running ∧ NeverRunAgain s.history := by
  obtain ⟨s, executed, atPc⟩ : ∃ s, run step (schStartScheduler 36100)
      (addCall (dailyTask 10 30 0) 10 ++ .deleteTask 10 :: addCall (dailyTask 10 40 0) 10 ++
        schedSteps 16 ++ .tick 2300 :: schedSteps 5) = some s ∧
      s.pc = .dispatch .running := run_of_any (by decide +kernel)
  exact ⟨s, executed, atPc, deleted_neverRunAgain 36100 _ (by decide +kernel) executed⟩

def jobNode : TaskNode := ⟨0, ⟨10, 10, dailyTask 10 30 0⟩⟩

/-- The job is deleted while the thread sleeps, and started all the same. -/
theorem deleted_startedLater :
    ∃ s start, run step (schStartScheduler 36100)
        (addCall (dailyTask 10 30 0) 10 ++ schedSteps 16 ++ .deleteTask 10 :: .tick 1700 ::
          schedSteps 5) = some s ∧
      s.history = [.started start, .deleted 0, .built 36100 [jobNode]] ∧
      start.node.source = jobNode ∧ ¬ NeverRunAgain s.history := by
  obtain ⟨s, executed, history⟩ : ∃ s, run step (schStartScheduler 36100)
      (addCall (dailyTask 10 30 0) 10 ++ schedSteps 16 ++ .deleteTask 10 :: .tick 1700 ::
        schedSteps 5) = some s ∧
      s.history = [.started ⟨⟨1, 1, 1800, jobNode⟩, 36100, 37800, 37800⟩, .deleted 0,
        .built 36100 [jobNode]] := run_of_any (by decide +kernel)
  refine ⟨s, _, executed, history, rfl, ?_⟩
  rw [history]
  intro never
  exact never.never [_] 0 _ rfl _ List.mem_cons_self rfl

end Deleted

end EveAgent.Scheduler
