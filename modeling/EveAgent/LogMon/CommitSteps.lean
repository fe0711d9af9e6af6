import EveAgent.LogMon.ThreadSteps

namespace EveAgent.LogMon

section Commits

variable {system : System} {commit : Commit} {created : Bool}

instance (system : System) (k row : Nat) : Decidable (On system k row) :=
  inferInstanceAs (Decidable (_ ∧ _))

/-- The row is not to be polled; or it gets the thread that it has not got, and no thread is about
to leave it. -/
def Attended (system : System) (row : Nat) (created : Bool) : Prop :=
  (system.heap row).due = true →
    ((system.heap row).iThreadActiveFlag = true ∨ created = true) ∧
      ∀ k < system.spawned, On system k row → (system.threads k).pc ≠ .clear

instance (system : System) (row : Nat) (created : Bool) :
    Decidable (Attended system row created) :=
  inferInstanceAs (Decidable (_ → _))

/-- If the row is freed, no thread has it. -/
def Released (system : System) (commit : Commit) : Prop :=
  (system.heap commit.row).logMonRowStatus = .destroy → commit.rowCreated = false →
    ∀ k < system.spawned, ¬On system k commit.row

instance (system : System) (commit : Commit) : Decidable (Released system commit) :=
  inferInstanceAs (Decidable (_ → _))

/-- Rows are attended to when their flag is tested, and released when the agent frees them. -/
def Careful (system : System) : RowEvent → Prop
  | .commit created => ∀ commit ∈ system.commit,
      (commit.phase = .check → Attended system commit.row created) ∧
      (commit.phase = .done → Released system commit)
  | _ => True

instance (system : System) : DecidablePred (Careful system)
  | .commit _ => inferInstanceAs (Decidable (∀ commit ∈ system.commit, _))
  | .set _ _ _ => .isTrue trivial
  | .thread _ => .isTrue trivial

theorem Sound.made (sound : Sound system) {k row : Nat} (on : On system k row) :
    k < system.spawned :=
  Nat.lt_of_not_le fun unborn => on.1 (sound.unborn k unborn)

theorem sound_rephase (sound : Sound system) (is : system.commit = some commit)
    (entered : commit.phase ≠ .container) {phase : Phase} (new : phase ≠ .container)
    (flagged : commit.phase = .flag → (system.heap commit.row).logMonRowStatus ≠ .destroy →
      ((system.heap commit.row).iThreadActiveFlag = true ↔ ∃ k, On system k commit.row))
    (spawning : phase ≠ .flag)
    (settled : phase = .check ∧ commit.phase = .write ∨
      phase = .done ∧ ((system.heap commit.row).due = true →
        (∀ k, On system k commit.row → (system.threads k).pc ≠ .clear) ∧
          (system.heap commit.row).iThreadActiveFlag = true)) :
    Sound { system with commit := some { commit with phase := phase } } := by
  have unsettled : ∀ row, Unsettled system row → ((system.heap row).due = true →
      commit.row = row → phase = .done → False) →
      (system.heap row).due = true →
      Unsettled { system with commit := some { commit with phase := phase } } row := by
    rintro row ⟨other, there, same, _⟩ notDone due
    cases is.symm.trans there
    refine ⟨{ commit with phase := phase }, rfl, same, ?_⟩
    rcases settled with ⟨check, _⟩ | ⟨done, _⟩
    · exact Or.inr (Or.inr check)
    · exact absurd done (fun done => notDone due same done)
  constructor
  · exact sound.known
  · rintro _ ⟨⟩
    exact sound.current commit is
  · rintro _ ⟨⟩ begun
    exact absurd begun new
  · rintro _ ⟨⟩ _
    exact sound.entered commit is entered
  · rintro _ ⟨⟩ created open_ k
    refine sound.fresh commit is created ?_ k
    rcases open_ with ⟨other, there, _, place⟩ | destroyed
    · cases there
      rcases settled with ⟨_, write⟩ | ⟨done, _⟩
      · exact Or.inl ⟨commit, is, rfl, Or.inr (Or.inl write)⟩
      · rw [done] at place
        simp at place
    · exact Or.inr destroyed
  · exact sound.unborn
  · intro k row on
    obtain ⟨bound, alive, place⟩ := sound.held k row on
    refine ⟨bound, alive, place.imp_right ?_⟩
    rintro ⟨other, there, same, _, destroyed⟩
    cases is.symm.trans there
    exact ⟨{ commit with phase := phase }, rfl, same, new, destroyed⟩
  · exact sound.single
  · intro row bound alive there _
    by_cases flag : commit.row = row ∧ commit.phase = .flag
    · obtain ⟨rfl, flag⟩ := flag
      exact flagged flag there
    · apply sound.flagged row bound alive there
      intro other is' same isFlag
      cases is.symm.trans is'
      exact flag ⟨same, isFlag⟩
  · rintro _ ⟨⟩ flag
    exact absurd flag spawning
  · intro k row on clear due
    apply unsettled row (sound.leaving k row on clear due) _ due
    intro due same done
    subst same
    rcases settled with ⟨check, _⟩ | ⟨_, settled⟩
    · rw [done] at check
      cases check
    · exact (settled due).1 k on clear
  · intro index row found due
    by_cases same : commit.row = row
    · subst same
      rcases settled with ⟨check, _⟩ | ⟨_, settled⟩
      · exact Or.inr (Or.inl ⟨{ commit with phase := phase }, rfl, rfl, Or.inr (Or.inr check)⟩)
      · exact Or.inl (settled due).2
    · rcases sound.watched index row found due with flag | ⟨other, is', same', _⟩ |
        ⟨other, is', same', _⟩
      · exact Or.inl flag
      · cases is.symm.trans is'
        exact absurd same' same
      · cases is.symm.trans is'
        exact absurd same' same
  · intro index row found destroyed
    obtain ⟨other, is', _, begun⟩ := sound.standing index row found destroyed
    cases is.symm.trans is'
    exact absurd begun entered
  · exact sound.clean

theorem commit_write (sound : Sound system) (is : system.commit = some commit)
    (write : commit.phase = .write) : Sound (system.commitStep created) := by
  have marked : Sound (system.setFlag commit.row ((system.heap commit.row).iThreadActiveFlag &&
      (system.heap commit.row).logMonRowStatus ≠ .destroy)) := by
    apply sound_setFlag sound
    · intro there notFlag
      obtain ⟨bound, alive⟩ := sound.current commit is
      rw [decide_eq_true there, Bool.and_true]
      exact sound.flagged commit.row bound alive there notFlag
    · intro _
      exact Or.inr (Or.inl ⟨commit, is, rfl, Or.inr (Or.inl write)⟩)
  have step : system.commitStep created = { system.setFlag commit.row
      ((system.heap commit.row).iThreadActiveFlag &&
        (system.heap commit.row).logMonRowStatus ≠ .destroy) with
      commit := some { commit with phase := .check } } := by
    simp only [System.commitStep, is, write]
  rw [step]
  apply sound_rephase marked is (by rw [write]; decide) (by decide)
  · intro flag
    rw [write] at flag
    cases flag
  · decide
  · exact Or.inl ⟨rfl, write⟩

theorem commit_flag (sound : Sound system) (is : system.commit = some commit)
    (flag : commit.phase = .flag) : Sound (system.commitStep created) := by
  obtain ⟨due, k, on, _⟩ := sound.spawning commit is flag
  have marked : Sound (system.setFlag commit.row true) := by
    apply sound_setFlag sound
    · intro _ notFlag
      exact absurd flag (notFlag commit is rfl)
    · intro _
      exact Or.inl rfl
  have set : ((system.setFlag commit.row true).heap commit.row).iThreadActiveFlag = true := by
    rw [setFlag_flag, if_pos rfl]
  have step : system.commitStep created =
      { system.setFlag commit.row true with commit := some { commit with phase := .done } } := by
    simp only [System.commitStep, is, flag]
  rw [step]
  apply sound_rephase marked is (by rw [flag]; decide) (by decide)
  · intro _ _
    rw [set]
    exact ⟨fun _ => ⟨k, on⟩, fun _ => rfl⟩
  · decide
  · right
    refine ⟨rfl, fun _ => ⟨?_, set⟩⟩
    intro j onRow clear
    obtain ⟨other, there, _, place⟩ := sound.leaving j commit.row onRow clear due
    cases is.symm.trans there
    rw [flag] at place
    simp at place

theorem sound_spawn (sound : Sound system) (is : system.commit = some commit)
    (check : commit.phase = .check) (due : (system.heap commit.row).due = true)
    (unflagged : (system.heap commit.row).iThreadActiveFlag = false) :
    Sound { system with
      threads := Function.update system.threads system.spawned ⟨.start, commit.row⟩
      spawned := system.spawned + 1
      commit := some { commit with phase := .flag } } := by
  obtain ⟨bound, alive⟩ := sound.current commit is
  have there : (system.heap commit.row).logMonRowStatus ≠ .destroy := by
    intro destroyed
    rw [not_due_of_destroy destroyed] at due
    cases due
  have none : ∀ k, ¬On system k commit.row := by
    intro k on
    have set := (sound.flagged commit.row bound alive there (by
      intro other is' _ flag
      cases is.symm.trans is'
      rw [check] at flag
      cases flag)).mpr ⟨k, on⟩
    rw [unflagged] at set
    cases set
  have unborn := sound.unborn system.spawned (Nat.le_refl _)
  have onOld : ∀ k row, On system k row → k ≠ system.spawned := by
    intro k row on same
    exact on.1 (same ▸ unborn)
  have notContainer : commit.phase ≠ .container := by rw [check]; decide
  have inside : system.container (system.heap commit.row).index = some commit.row := by
    rw [sound.entered commit is notContainer, if_neg there]
  generalize after : ({ system with
      threads := Function.update system.threads system.spawned ⟨.start, commit.row⟩
      spawned := system.spawned + 1
      commit := some { commit with phase := .flag } } : System) = spawned
  have on : ∀ k row, On spawned k row ↔
      (k = system.spawned ∧ commit.row = row) ∨ On system k row := by
    intro k row
    subst after
    refine (on_update k row).trans ?_
    constructor
    · rintro (⟨same, _, row⟩ | ⟨_, old⟩)
      · exact Or.inl ⟨same, row⟩
      · exact Or.inr old
    · rintro (⟨same, row⟩ | old)
      · have starts : ThreadPc.start ≠ .exited := by decide
        exact Or.inl ⟨same, starts, row⟩
      · exact Or.inr ⟨onOld k row old, old⟩
  have pcOld : ∀ k, k ≠ system.spawned → (spawned.threads k).pc = (system.threads k).pc := by
    intro k other
    subst after
    exact congrArg RowThread.pc (Function.update_of_ne other _ _)
  have pcNew : (spawned.threads system.spawned).pc = .start := by
    subst after
    show (Function.update system.threads system.spawned ⟨.start, commit.row⟩ system.spawned).pc = _
    rw [Function.update_self]
  have isNew : spawned.commit = some { commit with phase := .flag } := by
    subst after
    rfl
  have heap : spawned.heap = system.heap := by subst after; rfl
  have container : spawned.container = system.container := by subst after; rfl
  have next : spawned.next = system.next := by subst after; rfl
  have count : spawned.spawned = system.spawned + 1 := by subst after; rfl
  have clean : spawned.usedFreed = system.usedFreed := by subst after; rfl
  constructor
  · rw [heap, container, next]
    exact sound.known
  · intro other is'
    cases isNew.symm.trans is'
    rw [heap, next]
    exact ⟨bound, alive⟩
  · intro other is' begun
    cases isNew.symm.trans is'
    cases begun
  · intro other is' _
    cases isNew.symm.trans is'
    rw [heap, container]
    exact sound.entered commit is notContainer
  · intro other is' _ open_
    cases isNew.symm.trans is'
    rw [heap] at open_
    rcases open_ with ⟨other, is'', _, place⟩ | destroyed
    · cases isNew.symm.trans is''
      simp at place
    · exact absurd destroyed there
  · intro k born
    rw [count] at born
    rw [pcOld k (by omega)]
    exact sound.unborn k (by omega)
  · intro k row onRow
    rw [heap, container, next]
    rcases (on k row).mp onRow with ⟨_, rfl⟩ | old
    · exact ⟨bound, alive, Or.inl inside⟩
    · obtain ⟨boundRow, aliveRow, place⟩ := sound.held k row old
      refine ⟨boundRow, aliveRow, ?_⟩
      rcases place with here | ⟨other, is', same, _, destroyed⟩
      · exact Or.inl here
      · cases is.symm.trans is'
        subst same
        exact absurd destroyed there
  · intro j k row first second
    rcases (on j row).mp first with ⟨jNew, rfl⟩ | jOld
    · rcases (on k _).mp second with ⟨kNew, _⟩ | kOld
      · rw [jNew, kNew]
      · exact absurd kOld (none k)
    · rcases (on k row).mp second with ⟨_, rfl⟩ | kOld
      · exact absurd jOld (none j)
      · exact sound.single j k row jOld kOld
  · intro row boundRow aliveRow thereRow notFlag
    rw [next] at boundRow
    rw [heap] at aliveRow thereRow ⊢
    have other : commit.row ≠ row := by
      intro same
      exact notFlag _ isNew same rfl
    have old := sound.flagged row boundRow aliveRow thereRow (by
      intro other' is' same
      cases is.symm.trans is'
      exact absurd same other)
    refine old.trans (exists_congr fun k => ?_)
    rw [on]
    constructor
    · exact Or.inr
    · rintro (⟨_, same⟩ | old)
      · exact absurd same other
      · exact old
  · intro other is' _
    cases isNew.symm.trans is'
    rw [heap]
    refine ⟨due, system.spawned, (on _ _).mpr (Or.inl ⟨rfl, rfl⟩), ?_⟩
    rw [pcNew]
    decide
  · intro k row onRow clear dueRow
    rw [heap] at dueRow
    have old : On system k row := by
      rcases (on k row).mp onRow with ⟨same, _⟩ | old
      · rw [same, pcNew] at clear
        cases clear
      · exact old
    have unsettled := sound.leaving k row old ((pcOld k (onOld k row old)).symm.trans clear) dueRow
    obtain ⟨other, is', same, _⟩ := unsettled
    cases is.symm.trans is'
    subst same
    exact absurd old (none k)
  · intro index row found dueRow
    rw [container] at found
    rw [heap] at dueRow ⊢
    rcases sound.watched index row found dueRow with flag | ⟨other, is', same, _⟩ |
      ⟨other, is', same, _⟩
    · exact Or.inl flag
    · cases is.symm.trans is'
      exact Or.inr (Or.inr ⟨_, isNew, same, rfl⟩)
    · cases is.symm.trans is'
      exact Or.inr (Or.inr ⟨_, isNew, same, rfl⟩)
  · intro index row found destroyed
    rw [container] at found
    rw [heap] at destroyed
    obtain ⟨other, is', _, begun⟩ := sound.standing index row found destroyed
    cases is.symm.trans is'
    exact absurd begun notContainer
  · rw [clean]
    exact sound.clean

theorem commit_check (sound : Sound system) (careful : Careful system (.commit created))
    (is : system.commit = some commit) (check : commit.phase = .check) :
    Sound (system.commitStep created) := by
  by_cases spawns : (system.heap commit.row).due = true ∧
      (system.heap commit.row).iThreadActiveFlag = false
  · have test : ((system.heap commit.row).due && !(system.heap commit.row).iThreadActiveFlag &&
        created) = true := by
      rcases ((careful commit is).1 check spawns.1).1 with flag | created
      · rw [spawns.2] at flag
        cases flag
      · rw [spawns.1, spawns.2, created]
        rfl
    have step : system.commitStep created = { system with
        threads := Function.update system.threads system.spawned ⟨.start, commit.row⟩
        spawned := system.spawned + 1
        commit := some { commit with phase := .flag } } := by
      simp only [System.commitStep, is, check, if_pos test]
    rw [step]
    exact sound_spawn sound is check spawns.1 spawns.2
  · have test : ¬((system.heap commit.row).due && !(system.heap commit.row).iThreadActiveFlag &&
        created) = true := by
      simp only [Bool.and_eq_true, Bool.not_eq_true']
      exact fun all => spawns all.1
    have step : system.commitStep created =
        { system with commit := some { commit with phase := .done } } := by
      simp only [System.commitStep, is, check, if_neg test]
    rw [step]
    apply sound_rephase sound is (by rw [check]; decide) (by decide)
    · intro flag
      rw [check] at flag
      cases flag
    · decide
    · right
      refine ⟨rfl, fun due => ⟨fun k on =>
        ((careful commit is).1 check due).2 k (sound.made on) on, ?_⟩⟩
      by_contra unset
      exact spawns ⟨due, by simpa using unset⟩

theorem container_of_phase (is : system.commit = some commit) (begun : commit.phase = .container) :
    ∃ container, system.commitStep created = { system with
        container := container
        commit := some { commit with phase := .write } } ∧
      (container = system.container ∧ (commit.rowCreated = true ↔
          (system.heap commit.row).logMonRowStatus = .destroy) ∨
        container = Function.update system.container (system.heap commit.row).index
          (if (system.heap commit.row).logMonRowStatus = .destroy then none
            else some commit.row) ∧ (commit.rowCreated = false ↔
          (system.heap commit.row).logMonRowStatus = .destroy)) := by
  cases created : commit.rowCreated with
  | false =>
    by_cases destroyed : (system.heap commit.row).logMonRowStatus = .destroy
    · refine ⟨Function.update system.container (system.heap commit.row).index none, ?_, ?_⟩
      · simp only [System.commitStep, is, begun, created, destroyed]
      · simp [destroyed]
    · refine ⟨system.container, ?_, ?_⟩
      · cases status : (system.heap commit.row).logMonRowStatus
        · simp only [System.commitStep, is, begun, created, status]
        · simp only [System.commitStep, is, begun, created, status]
        · exact absurd status destroyed
      · simp [destroyed]
  | true =>
    by_cases destroyed : (system.heap commit.row).logMonRowStatus = .destroy
    · refine ⟨system.container, ?_, ?_⟩
      · simp only [System.commitStep, is, begun, created, destroyed]
      · simp [destroyed]
    · refine ⟨Function.update system.container (system.heap commit.row).index
        (some commit.row), ?_, ?_⟩
      · cases status : (system.heap commit.row).logMonRowStatus
        · simp only [System.commitStep, is, begun, created, status]
        · simp only [System.commitStep, is, begun, created, status]
        · exact absurd status destroyed
      · simp [destroyed]

theorem commit_container (sound : Sound system) (is : system.commit = some commit)
    (begun : commit.phase = .container) : Sound (system.commitStep created) := by
  obtain ⟨container, step, changed⟩ := container_of_phase is begun
  obtain ⟨bound, alive⟩ := sound.current commit is
  have before := sound.begun commit is begun
  -- Only the entry of the row itself changes.
  have own : container (system.heap commit.row).index =
      if (system.heap commit.row).logMonRowStatus = .destroy then none else some commit.row := by
    rcases changed with ⟨same, iff⟩ | ⟨update, _⟩
    · rw [same, before]
      by_cases destroyed : (system.heap commit.row).logMonRowStatus = .destroy
      · rw [if_pos destroyed, if_pos (iff.mpr destroyed)]
      · rw [if_neg destroyed, if_neg (fun created => destroyed (iff.mp created))]
    · rw [update, Function.update_self]
  have others : ∀ index, index ≠ (system.heap commit.row).index →
      container index = system.container index := by
    intro index other
    rcases changed with ⟨same, _⟩ | ⟨update, _⟩
    · rw [same]
    · rw [update, Function.update_of_ne other]
  have stays : ∀ row, row ≠ commit.row →
      system.container (system.heap row).index = some row →
        container (system.heap row).index = some row := by
    intro row other found
    rw [others, found]
    intro same
    rw [same, before] at found
    split at found
    · cases found
    · exact other (Option.some.inj found).symm
  have notFlag : ∀ row, ∀ other, system.commit = some other → other.row = row →
      other.phase ≠ .flag := by
    intro row other is' _
    cases is.symm.trans is'
    rw [begun]
    decide
  have unsettled : ∀ row, Unsettled system row → Unsettled { system with
      container := container, commit := some { commit with phase := .write } } row := by
    rintro row ⟨other, is', same, _⟩
    cases is.symm.trans is'
    exact ⟨_, rfl, same, Or.inr (Or.inl rfl)⟩
  rw [step]
  constructor
  · intro index row found
    by_cases here : index = (system.heap commit.row).index
    · change container index = some row at found
      rw [here, own] at found
      split at found
      · cases found
      · cases found
        exact ⟨bound, here.symm, alive⟩
    · change container index = some row at found
      rw [others index here] at found
      exact sound.known index row found
  · rintro _ ⟨⟩
    exact sound.current commit is
  · rintro _ ⟨⟩ impossible
    cases impossible
  · rintro _ ⟨⟩ _
    exact own
  · rintro _ ⟨⟩ created _ k
    exact sound.fresh commit is created (Or.inl ⟨commit, is, rfl, Or.inl begun⟩) k
  · exact sound.unborn
  · intro k row on
    obtain ⟨boundRow, aliveRow, place⟩ := sound.held k row on
    refine ⟨boundRow, aliveRow, ?_⟩
    rcases place with found | ⟨other, is', _, entered, _⟩
    · by_cases here : row = commit.row
      · subst here
        by_cases destroyed : (system.heap commit.row).logMonRowStatus = .destroy
        · have written : Phase.write ≠ .container := by decide
          exact Or.inr ⟨_, rfl, rfl, written, destroyed⟩
        · left
          show container (system.heap commit.row).index = some commit.row
          rw [own, if_neg destroyed]
      · exact Or.inl (stays row here found)
    · cases is.symm.trans is'
      exact absurd begun entered
  · exact sound.single
  · intro row boundRow aliveRow thereRow _
    exact sound.flagged row boundRow aliveRow thereRow (notFlag row)
  · rintro _ ⟨⟩ flag
    cases flag
  · intro k row on clear due
    exact unsettled row (sound.leaving k row on clear due)
  · intro index row found due
    change container index = some row at found
    by_cases here : index = (system.heap commit.row).index
    · rw [here, own] at found
      split at found
      · cases found
      · cases found
        exact Or.inr (Or.inl ⟨_, rfl, rfl, Or.inr (Or.inl rfl)⟩)
    · rw [others index here] at found
      rcases sound.watched index row found due with flag | old | ⟨other, is', same, flag⟩
      · exact Or.inl flag
      · exact Or.inr (Or.inl (unsettled row old))
      · exact absurd flag (notFlag row other is' same)
  · intro index row found destroyed
    change container index = some row at found
    by_cases here : index = (system.heap commit.row).index
    · rw [here, own] at found
      split at found
      · cases found
      · rename_i there
        cases found
        exact absurd destroyed there
    · rw [others index here] at found
      obtain ⟨other, is', same, _⟩ := sound.standing index row found destroyed
      cases is.symm.trans is'
      subst same
      exact absurd (sound.known index commit.row found).2.1.symm here
  · exact sound.clean

theorem commit_done (sound : Sound system) (careful : Careful system (.commit created))
    (is : system.commit = some commit) (done : commit.phase = .done) :
    Sound (system.commitStep created) := by
  have notContainer : commit.phase ≠ .container := by rw [done]; decide
  have entered := sound.entered commit is notContainer
  have none : (system.heap commit.row).logMonRowStatus = .destroy →
      ∀ k, ¬On system k commit.row := by
    intro destroyed k
    by_cases rowCreated : commit.rowCreated = true
    · exact sound.fresh commit is rowCreated (Or.inr destroyed) k
    · exact fun on => (careful commit is).2 done destroyed (by simpa using rowCreated) k
        (sound.made on) on
  have settled : ∀ row, ¬Unsettled system row := by
    rintro row ⟨other, is', _, place⟩
    cases is.symm.trans is'
    rw [done] at place
    simp at place
  have notFlag : ∀ row, ∀ other, system.commit = some other → other.row = row →
      other.phase ≠ .flag := by
    intro row other is' _
    cases is.symm.trans is'
    rw [done]
    decide
  generalize after : system.commitStep created = ended
  have step : ended = { system with
      heap := Function.update system.heap commit.row { system.heap commit.row with
        freed := (system.heap commit.row).freed ||
          ((system.heap commit.row).logMonRowStatus = .destroy && !commit.rowCreated) }
      commit := Option.none } := by
    rw [← after]
    simp only [System.commitStep, is, done]
  have idle : ended.commit = Option.none := by rw [step]
  have heap : ∀ row, (ended.heap row).index = (system.heap row).index ∧
      (ended.heap row).logMonRowStatus = (system.heap row).logMonRowStatus ∧
      (ended.heap row).iThreadActiveFlag = (system.heap row).iThreadActiveFlag ∧
      (ended.heap row).due = (system.heap row).due := by
    intro row
    rw [step]
    simp only [Function.update_apply]
    split
    · rename_i same
      rw [same]
      exact ⟨rfl, rfl, rfl, rfl⟩
    · exact ⟨rfl, rfl, rfl, rfl⟩
  have freed : ∀ row, (ended.heap row).freed = false ↔ (system.heap row).freed = false ∧
      (row = commit.row → (system.heap row).logMonRowStatus = .destroy →
        commit.rowCreated = true) := by
    intro row
    rw [step]
    simp only [Function.update_apply]
    split
    · rename_i same
      subst same
      simp
    · rename_i other
      simp [other]
  have threads : ended.threads = system.threads := by rw [step]
  have container : ended.container = system.container := by rw [step]
  have next : ended.next = system.next := by rw [step]
  have spawned : ended.spawned = system.spawned := by rw [step]
  have clean : ended.usedFreed = system.usedFreed := by rw [step]
  have on : ∀ k row, On ended k row ↔ On system k row := by
    intro k row
    rw [On, On, threads]
  constructor
  · intro index row found
    rw [container] at found
    obtain ⟨bound, same, alive⟩ := sound.known index row found
    rw [next, (heap row).1, freed]
    refine ⟨bound, same, alive, ?_⟩
    intro here destroyed
    subst here
    rw [← same, entered, if_pos destroyed] at found
    cases found
  · intro other is'
    cases idle.symm.trans is'
  · intro other is'
    cases idle.symm.trans is'
  · intro other is'
    cases idle.symm.trans is'
  · intro other is'
    cases idle.symm.trans is'
  · rw [spawned, threads]
    exact sound.unborn
  · intro k row onRow
    rw [on] at onRow
    obtain ⟨bound, alive, place⟩ := sound.held k row onRow
    rw [next, (heap row).1, freed, container]
    have notFreed : row = commit.row → (system.heap row).logMonRowStatus ≠ .destroy := by
      intro here destroyed
      subst here
      exact none destroyed k onRow
    refine ⟨bound, ⟨alive, fun here destroyed => absurd destroyed (notFreed here)⟩, ?_⟩
    rcases place with found | ⟨other, is', same, _, destroyed⟩
    · exact Or.inl found
    · cases is.symm.trans is'
      exact absurd destroyed (notFreed same.symm)
  · intro j k row first second
    exact sound.single j k row ((on j row).mp first) ((on k row).mp second)
  · intro row bound alive there _
    rw [next] at bound
    rw [freed] at alive
    rw [(heap row).2.1] at there
    rw [(heap row).2.2.1]
    exact (sound.flagged row bound alive.1 there (notFlag row)).trans
      (exists_congr fun k => (on k row).symm)
  · intro other is'
    cases idle.symm.trans is'
  · intro k row onRow clear due
    rw [threads] at clear
    rw [(heap row).2.2.2] at due
    exact absurd (sound.leaving k row ((on k row).mp onRow) clear due) (settled row)
  · intro index row found due
    rw [container] at found
    rw [(heap row).2.2.2] at due
    rw [(heap row).2.2.1]
    rcases sound.watched index row found due with flag | old | ⟨other, is', same, flag⟩
    · exact Or.inl flag
    · exact absurd old (settled row)
    · exact absurd flag (notFlag row other is' same)
  · intro index row found destroyed
    rw [container] at found
    rw [(heap row).2.1] at destroyed
    obtain ⟨other, is', _, begun⟩ := sound.standing index row found destroyed
    cases is.symm.trans is'
    exact absurd begun notContainer
  · rw [clean]
    exact sound.clean

theorem sound_commitStep (sound : Sound system) (careful : Careful system (.commit created)) :
    Sound (system.commitStep created) := by
  cases is : system.commit with
  | none =>
    have step : system.commitStep created = system := by simp only [System.commitStep, is]
    rw [step]
    exact sound
  | some commit =>
    cases phase : commit.phase with
    | container => exact commit_container sound is phase
    | write => exact commit_write sound is phase
    | check => exact commit_check sound careful is phase
    | flag => exact commit_flag sound is phase
    | done => exact commit_done sound careful is phase

end Commits

section Requests

variable {system : System} {index row : Nat}

theorem set_existing (sound : Sound system) (idle : system.commit = none)
    (found : system.container index = some row) (columns : Columns) (status : RowStatus) :
    Sound (system.set index columns status) := by
  obtain ⟨bound, own, alive⟩ := sound.known index row found
  have nothing : ∀ {commit : Commit}, system.commit ≠ some commit := by
    intro commit is
    rw [idle] at is
    cases is
  have step : system.set index columns status = { system with
      heap := Function.update system.heap row
        { system.heap row with columns := columns, logMonRowStatus := status }
      commit := some ⟨.container, row, false⟩ } := by
    simp only [System.set, idle, found]
  generalize after : system.set index columns status = edited at step ⊢
  have isNew : edited.commit = some ⟨.container, row, false⟩ := by rw [step]
  have heap : ∀ q, (edited.heap q).index = (system.heap q).index ∧
      (edited.heap q).freed = (system.heap q).freed ∧
      (edited.heap q).iThreadActiveFlag = (system.heap q).iThreadActiveFlag := by
    intro q
    rw [step]
    simp only [Function.update_apply]
    split
    · rename_i same
      rw [same]
      exact ⟨rfl, rfl, rfl⟩
    · exact ⟨rfl, rfl, rfl⟩
  have others : ∀ q, q ≠ row → edited.heap q = system.heap q := by
    intro q other
    rw [step]
    exact Function.update_of_ne other _ _
  have threads : edited.threads = system.threads := by rw [step]
  have container : edited.container = system.container := by rw [step]
  have next : edited.next = system.next := by rw [step]
  have spawned : edited.spawned = system.spawned := by rw [step]
  have clean : edited.usedFreed = system.usedFreed := by rw [step]
  have on : ∀ k q, On edited k q ↔ On system k q := by
    intro k q
    rw [On, On, threads]
  have unsettled : Unsettled edited row := ⟨_, isNew, rfl, Or.inl rfl⟩
  constructor
  · intro i q there
    rw [container] at there
    rw [next, (heap q).1, (heap q).2.1]
    exact sound.known i q there
  · intro commit is
    cases isNew.symm.trans is
    rw [next, (heap row).2.1]
    exact ⟨bound, alive⟩
  · intro commit is _
    cases isNew.symm.trans is
    rw [container, (heap row).1, own, found]
    rfl
  · intro commit is entered
    cases isNew.symm.trans is
    exact absurd rfl entered
  · intro commit is created
    cases isNew.symm.trans is
    cases created
  · rw [spawned, threads]
    exact sound.unborn
  · intro k q onRow
    rw [next, (heap q).1, (heap q).2.1, container]
    obtain ⟨boundRow, aliveRow, place⟩ := sound.held k q ((on k q).mp onRow)
    refine ⟨boundRow, aliveRow, ?_⟩
    rcases place with here | ⟨_, is, _⟩
    · exact Or.inl here
    · exact absurd is nothing
  · intro j k q first second
    exact sound.single j k q ((on j q).mp first) ((on k q).mp second)
  · intro q boundRow aliveRow there _
    rw [next] at boundRow
    rw [(heap q).2.1] at aliveRow
    rw [(heap q).2.2]
    have thereBefore : (system.heap q).logMonRowStatus ≠ .destroy := by
      by_cases here : q = row
      · subst here
        intro destroyed
        obtain ⟨_, is, _⟩ := sound.standing index q found destroyed
        exact absurd is nothing
      · rw [others q here] at there
        exact there
    exact (sound.flagged q boundRow aliveRow thereBefore
      (fun _ is => absurd is nothing)).trans (exists_congr fun k => (on k q).symm)
  · intro commit is flag
    cases isNew.symm.trans is
    cases flag
  · intro k q onRow clear due
    rw [threads] at clear
    by_cases here : q = row
    · rw [here]
      exact unsettled
    · rw [others q here] at due
      obtain ⟨_, is, _⟩ := sound.leaving k q ((on k q).mp onRow) clear due
      exact absurd is nothing
  · intro i q there due
    rw [container] at there
    by_cases here : q = row
    · rw [here]
      exact Or.inr (Or.inl unsettled)
    · rw [others q here] at due ⊢
      rcases sound.watched i q there due with flag | ⟨_, is, _⟩ | ⟨_, is, _⟩
      · exact Or.inl flag
      · exact absurd is nothing
      · exact absurd is nothing
  · intro i q there destroyed
    rw [container] at there
    by_cases here : q = row
    · exact ⟨_, isNew, here.symm, rfl⟩
    · rw [others q here] at destroyed
      obtain ⟨_, is, _⟩ := sound.standing i q there destroyed
      exact absurd is nothing
  · rw [clean]
    exact sound.clean

theorem set_new (sound : Sound system) (idle : system.commit = none)
    (absent : system.container index = none) (columns : Columns) (status : RowStatus) :
    Sound (system.set index columns status) := by
  have nothing : ∀ {commit : Commit}, system.commit ≠ some commit := by
    intro commit is
    rw [idle] at is
    cases is
  have step : system.set index columns status = { system with
      heap := Function.update system.heap system.next ⟨index, columns, status, false, false⟩
      next := system.next + 1
      commit := some ⟨.container, system.next, true⟩ } := by
    simp only [System.set, idle, absent]
  generalize after : system.set index columns status = edited at step ⊢
  have isNew : edited.commit = some ⟨.container, system.next, true⟩ := by rw [step]
  have made : edited.heap system.next = ⟨index, columns, status, false, false⟩ := by
    rw [step]
    exact Function.update_self _ _ _
  have others : ∀ q, q < system.next → edited.heap q = system.heap q := by
    intro q old
    rw [step]
    exact Function.update_of_ne (Nat.ne_of_lt old) _ _
  have threads : edited.threads = system.threads := by rw [step]
  have container : edited.container = system.container := by rw [step]
  have next : edited.next = system.next + 1 := by rw [step]
  have spawned : edited.spawned = system.spawned := by rw [step]
  have clean : edited.usedFreed = system.usedFreed := by rw [step]
  have on : ∀ k q, On edited k q ↔ On system k q := by
    intro k q
    rw [On, On, threads]
  have old : ∀ k q, On edited k q → q < system.next := by
    intro k q onRow
    exact (sound.held k q ((on k q).mp onRow)).1
  constructor
  · intro i q there
    rw [container] at there
    obtain ⟨bound, own, alive⟩ := sound.known i q there
    rw [next, others q bound]
    exact ⟨by omega, own, alive⟩
  · intro commit is
    cases isNew.symm.trans is
    rw [next, made]
    exact ⟨Nat.lt_succ_self _, rfl⟩
  · intro commit is _
    cases isNew.symm.trans is
    rw [container, made, absent]
    rfl
  · intro commit is entered
    cases isNew.symm.trans is
    exact absurd rfl entered
  · intro commit is _ _ k onRow
    cases isNew.symm.trans is
    exact Nat.lt_irrefl _ (old k system.next onRow)
  · rw [spawned, threads]
    exact sound.unborn
  · intro k q onRow
    obtain ⟨bound, alive, place⟩ := sound.held k q ((on k q).mp onRow)
    rw [next, others q bound, container]
    refine ⟨by omega, alive, ?_⟩
    rcases place with here | ⟨_, is, _⟩
    · exact Or.inl here
    · exact absurd is nothing
  · intro j k q first second
    exact sound.single j k q ((on j q).mp first) ((on k q).mp second)
  · intro q bound alive there _
    rw [next] at bound
    by_cases here : q = system.next
    · subst here
      rw [made]
      constructor
      · intro impossible
        cases impossible
      · rintro ⟨k, onRow⟩
        exact absurd (old k _ onRow) (Nat.lt_irrefl _)
    · have before : q < system.next := by omega
      rw [others q before] at alive there ⊢
      exact (sound.flagged q before alive there (fun _ is => absurd is nothing)).trans
        (exists_congr fun k => (on k q).symm)
  · intro commit is flag
    cases isNew.symm.trans is
    cases flag
  · intro k q onRow clear due
    rw [threads] at clear
    rw [others q (old k q onRow)] at due
    obtain ⟨_, is, _⟩ := sound.leaving k q ((on k q).mp onRow) clear due
    exact absurd is nothing
  · intro i q there due
    rw [container] at there
    rw [others q (sound.known i q there).1] at due ⊢
    rcases sound.watched i q there due with flag | ⟨_, is, _⟩ | ⟨_, is, _⟩
    · exact Or.inl flag
    · exact absurd is nothing
    · exact absurd is nothing
  · intro i q there destroyed
    rw [container] at there
    rw [others q (sound.known i q there).1] at destroyed
    obtain ⟨_, is, _⟩ := sound.standing i q there destroyed
    exact absurd is nothing
  · rw [clean]
    exact sound.clean

theorem sound_set (sound : Sound system) (index : Nat) (columns : Columns) (status : RowStatus) :
    Sound (system.set index columns status) := by
  cases busy : system.commit with
  | some commit =>
    have step : system.set index columns status = system := by simp only [System.set, busy]
    rw [step]
    exact sound
  | none =>
    cases found : system.container index with
    | none => exact set_new sound busy found columns status
    | some row => exact set_existing sound busy found columns status

theorem sound_step (sound : Sound system) (event : RowEvent) (careful : Careful system event) :
    Sound (system.step event) := by
  cases event with
  | set index columns status => exact sound_set sound index columns status
  | commit created => exact sound_commitStep sound careful
  | thread k => exact sound_threadStep sound k

end Requests

end EveAgent.LogMon
