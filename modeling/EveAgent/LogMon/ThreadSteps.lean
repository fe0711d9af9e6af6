import EveAgent.LogMon.RowThreads

namespace EveAgent.LogMon

section Invariant

/-- Thread `k` has not ended, and points to the row. -/
def On (system : System) (k row : Nat) : Prop :=
  (system.threads k).pc ≠ .exited ∧ (system.threads k).row = row

/-- The commit on the row has not tested its flag yet. -/
def Unsettled (system : System) (row : Nat) : Prop :=
  ∃ commit, system.commit = some commit ∧ commit.row = row ∧
    (commit.phase = .container ∨ commit.phase = .write ∨ commit.phase = .check)

/-- The row has left the container, and the agent will free it. -/
def Leaving (system : System) (row : Nat) : Prop :=
  ∃ commit, system.commit = some commit ∧ commit.row = row ∧ commit.phase ≠ .container ∧
    (system.heap row).logMonRowStatus = .destroy

structure Sound (system : System) : Prop where
  known : ∀ index row, system.container index = some row →
    row < system.next ∧ (system.heap row).index = index ∧ (system.heap row).freed = false
  current : ∀ commit, system.commit = some commit →
    commit.row < system.next ∧ (system.heap commit.row).freed = false
  begun : ∀ commit, system.commit = some commit → commit.phase = .container →
    system.container (system.heap commit.row).index =
      if commit.rowCreated then none else some commit.row
  entered : ∀ commit, system.commit = some commit → commit.phase ≠ .container →
    system.container (system.heap commit.row).index =
      if (system.heap commit.row).logMonRowStatus = .destroy then none else some commit.row
  fresh : ∀ commit, system.commit = some commit → commit.rowCreated = true →
    (Unsettled system commit.row ∨ (system.heap commit.row).logMonRowStatus = .destroy) →
    ∀ k, ¬On system k commit.row
  unborn : ∀ k, system.spawned ≤ k → (system.threads k).pc = .exited
  held : ∀ k row, On system k row → row < system.next ∧ (system.heap row).freed = false ∧
    (system.container (system.heap row).index = some row ∨ Leaving system row)
  single : ∀ j k row, On system j row → On system k row → j = k
  flagged : ∀ row, row < system.next → (system.heap row).freed = false →
    (system.heap row).logMonRowStatus ≠ .destroy →
    (∀ commit, system.commit = some commit → commit.row = row → commit.phase ≠ .flag) →
    ((system.heap row).iThreadActiveFlag = true ↔ ∃ k, On system k row)
  spawning : ∀ commit, system.commit = some commit → commit.phase = .flag →
    (system.heap commit.row).due = true ∧
      ∃ k, On system k commit.row ∧ (system.threads k).pc ≠ .clear
  leaving : ∀ k row, On system k row → (system.threads k).pc = .clear →
    (system.heap row).due = true → Unsettled system row
  watched : ∀ index row, system.container index = some row → (system.heap row).due = true →
    (system.heap row).iThreadActiveFlag = true ∨ Unsettled system row ∨
      ∃ commit, system.commit = some commit ∧ commit.row = row ∧ commit.phase = .flag
  standing : ∀ index row, system.container index = some row →
    (system.heap row).logMonRowStatus = .destroy →
    ∃ commit, system.commit = some commit ∧ commit.row = row ∧ commit.phase = .container
  clean : system.usedFreed = false

end Invariant

section Threads

variable {system : System} {k : Nat}

theorem on_update {threads : Nat → RowThread} {thread : RowThread} (j row : Nat) :
    ((Function.update threads k thread j).pc ≠ .exited ∧
        (Function.update threads k thread j).row = row) ↔
      (j = k ∧ thread.pc ≠ .exited ∧ thread.row = row) ∨
        (j ≠ k ∧ (threads j).pc ≠ .exited ∧ (threads j).row = row) := by
  by_cases here : j = k
  · subst here
    rw [Function.update_self]
    simp
  · rw [Function.update_of_ne here]
    simp [here]

theorem on_goOn (live : (system.threads k).pc ≠ .exited) {pc : ThreadPc} (goes : pc ≠ .exited)
    (j row : Nat) : On (system.goOn k pc) j row ↔ On system j row := by
  refine (on_update j row).trans ?_
  constructor
  · rintro (⟨rfl, _, same⟩ | ⟨_, other⟩)
    · exact ⟨live, same⟩
    · exact other
  · intro old
    by_cases here : j = k
    · subst here
      exact Or.inl ⟨rfl, goes, old.2⟩
    · exact Or.inr ⟨here, old⟩

theorem Sound.held_self (sound : Sound system) (live : (system.threads k).pc ≠ .exited) :
    (system.heap (system.threads k).row).freed = false :=
  (sound.held k _ ⟨live, rfl⟩).2.1

theorem sound_goOn (sound : Sound system) (live : (system.threads k).pc ≠ .exited) {pc : ThreadPc}
    (goes : pc ≠ .exited)
    (clears : pc = .clear → (system.heap (system.threads k).row).due = false) :
    Sound (system.goOn k pc) := by
  have on := on_goOn live goes
  have pcOf : ∀ j, j ≠ k → ((system.goOn k pc).threads j).pc = (system.threads j).pc := by
    intro j other
    exact congrArg RowThread.pc (Function.update_of_ne other _ _)
  have pcSelf : ((system.goOn k pc).threads k).pc = pc := by
    show (Function.update system.threads k ⟨pc, (system.threads k).row⟩ k).pc = pc
    rw [Function.update_self]
  constructor
  · exact sound.known
  · exact sound.current
  · exact sound.begun
  · exact sound.entered
  · intro commit is created open_ j
    rw [on]
    exact sound.fresh commit is created open_ j
  · intro j bound
    have ended := sound.unborn j bound
    have other : j ≠ k := by
      intro same
      exact live (same ▸ ended)
    rw [pcOf j other]
    exact ended
  · intro j row onRow
    exact sound.held j row ((on j row).mp onRow)
  · intro i j row first second
    exact sound.single i j row ((on i row).mp first) ((on j row).mp second)
  · intro row bound alive there notFlag
    have same : (∃ j, On (system.goOn k pc) j row) ↔ ∃ j, On system j row :=
      exists_congr fun j => on j row
    rw [same]
    exact sound.flagged row bound alive there notFlag
  · intro commit is flag
    obtain ⟨due, j, onRow, notClear⟩ := sound.spawning commit is flag
    refine ⟨due, j, (on j _).mpr onRow, ?_⟩
    by_cases here : j = k
    · subst here
      rw [pcSelf]
      intro clear
      have notDue := clears clear
      rw [onRow.2] at notDue
      exact absurd due (by rw [notDue]; decide)
    · rw [pcOf j here]
      exact notClear
  · intro j row onRow clear due
    by_cases here : j = k
    · subst here
      rw [pcSelf] at clear
      have notDue := clears clear
      rw [((on j row).mp onRow).2] at notDue
      change (system.heap row).due = true at due
      exact absurd due (by rw [notDue]; decide)
    · rw [pcOf j here] at clear
      exact sound.leaving j row ((on j row).mp onRow) clear due
  · exact sound.watched
  · exact sound.standing
  · show (system.usedFreed || (system.heap (system.threads k).row).freed) = false
    rw [sound.clean, sound.held_self live]
    rfl

theorem setFlag_heap (row : Nat) (value : Bool) (q : Nat) :
    ((system.setFlag row value).heap q).index = (system.heap q).index ∧
      ((system.setFlag row value).heap q).freed = (system.heap q).freed ∧
      ((system.setFlag row value).heap q).logMonRowStatus = (system.heap q).logMonRowStatus ∧
      ((system.setFlag row value).heap q).due = (system.heap q).due := by
  simp only [System.setFlag, Function.update_apply]
  split
  · rename_i same
    rw [same]
    exact ⟨rfl, rfl, rfl, rfl⟩
  · exact ⟨rfl, rfl, rfl, rfl⟩

@[simp] theorem setFlag_index (row : Nat) (value : Bool) (q : Nat) :
    ((system.setFlag row value).heap q).index = (system.heap q).index :=
  (setFlag_heap row value q).1

@[simp] theorem setFlag_freed (row : Nat) (value : Bool) (q : Nat) :
    ((system.setFlag row value).heap q).freed = (system.heap q).freed :=
  (setFlag_heap row value q).2.1

@[simp] theorem setFlag_status (row : Nat) (value : Bool) (q : Nat) :
    ((system.setFlag row value).heap q).logMonRowStatus = (system.heap q).logMonRowStatus :=
  (setFlag_heap row value q).2.2.1

@[simp] theorem setFlag_due (row : Nat) (value : Bool) (q : Nat) :
    ((system.setFlag row value).heap q).due = (system.heap q).due :=
  (setFlag_heap row value q).2.2.2

theorem setFlag_flag (row : Nat) (value : Bool) (q : Nat) :
    ((system.setFlag row value).heap q).iThreadActiveFlag =
      if q = row then value else (system.heap q).iThreadActiveFlag := by
  simp only [System.setFlag, Function.update_apply]
  split <;> rfl

theorem sound_setFlag (sound : Sound system) (row : Nat) (value : Bool)
    (fits : (system.heap row).logMonRowStatus ≠ .destroy →
      (∀ commit, system.commit = some commit → commit.row = row → commit.phase ≠ .flag) →
      (value = true ↔ ∃ k, On system k row))
    (watched : (system.heap row).due = true → value = true ∨ Unsettled system row ∨
      ∃ commit, system.commit = some commit ∧ commit.row = row ∧ commit.phase = .flag) :
    Sound (system.setFlag row value) := by
  constructor
  · intro index q found
    rw [setFlag_index, setFlag_freed]
    exact sound.known index q found
  · intro commit is
    rw [setFlag_freed]
    exact sound.current commit is
  · intro commit is begun
    rw [setFlag_index]
    exact sound.begun commit is begun
  · intro commit is entered
    rw [setFlag_index, setFlag_status]
    exact sound.entered commit is entered
  · intro commit is created open_ k
    rw [setFlag_status] at open_
    exact sound.fresh commit is created open_ k
  · exact sound.unborn
  · intro k q on
    rw [setFlag_freed, setFlag_index]
    obtain ⟨bound, alive, place⟩ := sound.held k q on
    refine ⟨bound, alive, place.imp_right ?_⟩
    rintro ⟨commit, is, same, entered, destroyed⟩
    refine ⟨commit, is, same, entered, ?_⟩
    rw [setFlag_status]
    exact destroyed
  · exact sound.single
  · intro q bound alive there notFlag
    rw [setFlag_freed] at alive
    rw [setFlag_status] at there
    rw [setFlag_flag]
    by_cases here : q = row
    · subst here
      rw [if_pos rfl]
      exact fits there notFlag
    · rw [if_neg here]
      exact sound.flagged q bound alive there notFlag
  · intro commit is flag
    rw [setFlag_due]
    exact sound.spawning commit is flag
  · intro k q on clear due
    rw [setFlag_due] at due
    exact sound.leaving k q on clear due
  · intro index q found due
    rw [setFlag_due] at due
    rw [setFlag_flag]
    by_cases here : q = row
    · subst here
      rw [if_pos rfl]
      exact watched due
    · rw [if_neg here]
      exact sound.watched index q found due
  · intro index q found destroyed
    rw [setFlag_status] at destroyed
    exact sound.standing index q found destroyed
  · exact sound.clean

theorem not_due_of_destroy {row : MonitoredRow} (destroyed : row.logMonRowStatus = .destroy) :
    row.due = false := by
  rw [MonitoredRow.due, destroyed]
  rfl

theorem on_exit (j row : Nat) : On (system.goOn k .exited) j row ↔ j ≠ k ∧ On system j row := by
  refine (on_update j row).trans ?_
  constructor
  · rintro (⟨_, ended, _⟩ | other)
    · exact absurd rfl ended
    · exact other
  · exact Or.inr

theorem sound_exit (sound : Sound system) (live : (system.threads k).pc ≠ .exited) {value : Bool}
    (fits : value = false ∨ (system.heap (system.threads k).row).logMonRowStatus = .destroy)
    (unsettled : (system.heap (system.threads k).row).due = true →
      (system.threads k).pc = .clear) :
    Sound ((system.goOn k .exited).setFlag (system.threads k).row value) := by
  have on := @on_exit system k
  have self : On system k (system.threads k).row := ⟨live, rfl⟩
  have pcOf : ∀ j, j ≠ k →
      ((system.goOn k .exited).threads j).pc = (system.threads j).pc := by
    intro j other
    exact congrArg RowThread.pc (Function.update_of_ne other _ _)
  constructor
  · intro index q found
    rw [setFlag_index, setFlag_freed]
    exact sound.known index q found
  · intro commit is
    rw [setFlag_freed]
    exact sound.current commit is
  · intro commit is begun
    rw [setFlag_index]
    exact sound.begun commit is begun
  · intro commit is entered
    rw [setFlag_index, setFlag_status]
    exact sound.entered commit is entered
  · intro commit is created open_ j onRow
    rw [setFlag_status] at open_
    exact sound.fresh commit is created open_ j ((on j _).mp onRow).2
  · intro j bound
    by_cases here : j = k
    · show (Function.update system.threads k ⟨.exited, (system.threads k).row⟩ j).pc = .exited
      rw [here, Function.update_self]
    · exact (pcOf j here).trans (sound.unborn j bound)
  · intro j q onRow
    rw [setFlag_freed, setFlag_index]
    obtain ⟨bound, alive, place⟩ := sound.held j q ((on j q).mp onRow).2
    refine ⟨bound, alive, place.imp_right ?_⟩
    rintro ⟨commit, is, same, entered, destroyed⟩
    refine ⟨commit, is, same, entered, ?_⟩
    rw [setFlag_status]
    exact destroyed
  · intro i j q first second
    exact sound.single i j q ((on i q).mp first).2 ((on j q).mp second).2
  · intro q bound alive there notFlag
    rw [setFlag_freed] at alive
    rw [setFlag_status] at there
    rw [setFlag_flag]
    by_cases here : q = (system.threads k).row
    · rw [if_pos here]
      have cleared : value = false := by
        rcases fits with cleared | destroyed
        · exact cleared
        · exact absurd (here ▸ destroyed) there
      rw [cleared]
      constructor
      · intro impossible
        cases impossible
      · rintro ⟨j, onRow⟩
        obtain ⟨other, old⟩ := (on j q).mp onRow
        exact absurd (sound.single j k q old (here ▸ self)) other
    · rw [if_neg here]
      refine (sound.flagged q bound alive there notFlag).trans (exists_congr fun j => ?_)
      constructor
      · intro old
        refine (on j q).mpr ⟨?_, old⟩
        intro same
        exact here (by rw [← old.2, same])
      · intro onRow
        exact ((on j q).mp onRow).2
  · intro commit is flag
    rw [setFlag_due]
    obtain ⟨due, j, onRow, notClear⟩ := sound.spawning commit is flag
    have other : j ≠ k := by
      intro same
      subst same
      apply notClear
      apply unsettled
      rw [onRow.2]
      exact due
    refine ⟨due, j, (on j _).mpr ⟨other, onRow⟩, ?_⟩
    exact fun clear => notClear ((pcOf j other).symm.trans clear)
  · intro j q onRow clear due
    rw [setFlag_due] at due
    obtain ⟨other, old⟩ := (on j q).mp onRow
    exact sound.leaving j q old ((pcOf j other).symm.trans clear) due
  · intro index q found due
    rw [setFlag_due] at due
    rw [setFlag_flag]
    by_cases here : q = (system.threads k).row
    · right
      left
      subst here
      exact sound.leaving k _ self (unsettled due) due
    · rw [if_neg here]
      exact sound.watched index q found due
  · intro index q found destroyed
    rw [setFlag_status] at destroyed
    exact sound.standing index q found destroyed
  · show (system.usedFreed || (system.heap (system.threads k).row).freed) = false
    rw [sound.clean, sound.held_self live]
    rfl

theorem goOn_eq (sound : Sound system) (live : (system.threads k).pc ≠ .exited) (pc : ThreadPc) :
    system.goOn k pc =
      { system with threads := Function.update system.threads k ⟨pc, (system.threads k).row⟩ } := by
  rw [System.goOn, sound.held_self live, Bool.or_false]

theorem setFlag_self (system : System) (row : Nat) :
    system.setFlag row (system.heap row).iThreadActiveFlag = system := by
  rw [System.setFlag, Function.update_eq_self]

theorem leaving_absent (sound : Sound system) {row : Nat} (leaving : Leaving system row) :
    system.container (system.heap row).index = none := by
  obtain ⟨commit, is, rfl, entered, destroyed⟩ := leaving
  rw [sound.entered commit is entered, if_pos destroyed]

theorem sound_find (sound : Sound system) (finding : (system.threads k).pc = .find) :
    Sound (system.threadStep k) := by
  have live : (system.threads k).pc ≠ .exited := by rw [finding]; decide
  obtain ⟨_, alive, place⟩ := sound.held k _ ⟨live, rfl⟩
  cases found : system.container (system.heap (system.threads k).row).index with
  | none =>
    have destroyed : (system.heap (system.threads k).row).logMonRowStatus = .destroy := by
      rcases place with there | ⟨_, _, _, _, destroyed⟩
      · exact absurd (found.symm.trans there) (by simp)
      · exact destroyed
    have step : system.threadStep k = (system.goOn k .exited).setFlag (system.threads k).row
        (system.heap (system.threads k).row).iThreadActiveFlag := by
      have same := setFlag_self (system.goOn k .exited) (system.threads k).row
      simp only [System.threadStep, finding, found]
      exact same.symm
    rw [step]
    apply sound_exit sound live (Or.inr destroyed)
    intro due
    rw [not_due_of_destroy destroyed] at due
    exact absurd due (by decide)
  | some row =>
    have same : row = (system.threads k).row := by
      rcases place with there | leaving
      · exact Option.some.inj (found.symm.trans there)
      · exact absurd (found.symm.trans (leaving_absent sound leaving)) (by simp)
    have step : system.threadStep k = system.goOn k .status := by
      simp only [System.threadStep, finding, found, same]
      rfl
    rw [step]
    exact sound_goOn sound live (by decide) (by simp)

theorem sound_update (sound : Sound system) (updating : (system.threads k).pc = .update) :
    Sound (system.threadStep k) := by
  have live : (system.threads k).pc ≠ .exited := by rw [updating]; decide
  have slept : Sound (system.goOn k .sleep) := sound_goOn sound live (by decide) (by simp)
  by_cases destroyed : (system.heap (system.threads k).row).logMonRowStatus = .destroy
  · have step : system.threadStep k =
        (system.goOn k .sleep).setFlag (system.threads k).row false := by
      simp only [System.threadStep, updating, if_pos destroyed]
    rw [step]
    apply sound_setFlag slept
    · intro there
      exact absurd destroyed there
    · intro due
      have notDue := not_due_of_destroy destroyed
      change (system.heap (system.threads k).row).due = true at due
      exact absurd due (by rw [notDue]; decide)
  · have step : system.threadStep k = system.goOn k .sleep := by
      simp only [System.threadStep, updating, if_neg destroyed]
    rw [step]
    exact slept

theorem sound_threadStep (sound : Sound system) (k : Nat) : Sound (system.threadStep k) := by
  cases pc : (system.threads k).pc with
  | start =>
    have step : system.threadStep k = system.goOn k .find := by
      simp only [System.threadStep, pc]
    rw [step]
    exact sound_goOn sound (by rw [pc]; decide) (by decide) (by simp)
  | find => exact sound_find sound pc
  | status =>
    have step : system.threadStep k = system.goOn k
        (if (system.heap (system.threads k).row).logMonRowStatus = .active then .check
          else .clear) := by
      simp only [System.threadStep, pc]
    rw [step]
    apply sound_goOn sound (by rw [pc]; decide)
    · split <;> decide
    · intro clears
      have notActive : (system.heap (system.threads k).row).logMonRowStatus ≠ .active := by
        intro isActive
        rw [if_pos isActive] at clears
        cases clears
      rw [MonitoredRow.due, decide_eq_false notActive]
      rfl
  | clear =>
    have step : system.threadStep k =
        (system.goOn k .exited).setFlag (system.threads k).row false := by
      simp only [System.threadStep, pc]
    rw [step]
    exact sound_exit sound (by rw [pc]; decide) (Or.inl rfl) (fun _ => pc)
  | check =>
    have step : system.threadStep k = system.goOn k
        (if (system.heap (system.threads k).row).columns.complete then .poll else .asleep) := by
      simp only [System.threadStep, pc]
    rw [step]
    apply sound_goOn sound (by rw [pc]; decide)
    · split <;> decide
    · intro clears
      split at clears <;> cases clears
  | poll =>
    have step : system.threadStep k = system.goOn k .update := by
      simp only [System.threadStep, pc]
    rw [step]
    exact sound_goOn sound (by rw [pc]; decide) (by decide) (by simp)
  | update => exact sound_update sound pc
  | sleep =>
    have step : system.threadStep k = system.goOn k .asleep := by
      simp only [System.threadStep, pc]
    rw [step]
    exact sound_goOn sound (by rw [pc]; decide) (by decide) (by simp)
  | asleep =>
    have live : (system.threads k).pc ≠ .exited := by rw [pc]; decide
    have step : system.threadStep k = system.goOn k .find := by
      rw [goOn_eq sound live]
      simp only [System.threadStep, pc]
    rw [step]
    exact sound_goOn sound live (by decide) (by simp)
  | exited =>
    have step : system.threadStep k = system := by
      simp only [System.threadStep, pc]
    rw [step]
    exact sound

end Threads

end EveAgent.LogMon
