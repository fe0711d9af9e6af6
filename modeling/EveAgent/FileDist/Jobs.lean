import EveAgent.Cells
import EveAgent.Machine

namespace EveAgent.FileDist.Jobs

open Cells

section Threads

inductive Job where
  | distribution
  | installation
  deriving DecidableEq, Repr

/-- A node of the list, without its pointer to the record. -/
structure CommonFDList where
  iflag : Job
  lTaskId : Int
  deriving DecidableEq, Repr

/-- Where a job stands: `FD_SendConfig` or `FD_InstallPackage`, with what stands before them,
then the test of `delFlag` and what follows from it. -/
inductive Act where
  | work
  | test
  | set
  | delete
  deriving DecidableEq, Repr

/-- Where `FD_AddJobToSched` stands, with `FD_AddNodeInCommonFDList`. -/
inductive Adder where
  | begin (job : Job)
  | act (job : Job) (act : Act)
  | find (job : Job) (psttempList : Nat)
  | link (job : Job) (psttempList : Nat)
  | schedule (job : Job) (pstFDList : Option Nat)
  | write (job : Job) (pstFDList : Option Nat) (lTaskId : Int)
  | done
  deriving DecidableEq, Repr

/-- Where a scheduled job stands: not scheduled, a task of the scheduler, a thread of
`FD_DoScheduledFunction`, and the last phases but one in `FD_DeleteNodeInCommonFDList`. -/
inductive Thread where
  | idle
  | task (pstFDList : Option Nat)
  | enter (pstFDList : Option Nat)
  | act (pstFDList : Nat) (iflag : Job) (act : Act)
  | remove (pstFDList : Nat)
  | search (pstFDList : Nat) (pstprevList psttempList : Option Nat)
  | unlink (pstFDList : Nat) (pstprevList : Option Nat) (psttempList : Nat)
  | free (psttempList : Nat)
  | done
  deriving DecidableEq, Repr

inductive Who where
  | adder
  | thread (job : Job)
  deriving DecidableEq, Repr

/-- How the work of a job ends: the package is missing, memory or a socket is refused, or the
flag is tested next. A failure of an installation ends in the test as well. -/
inductive Outcome where
  | missing
  | noMemory
  | noSocket
  | finished
  deriving DecidableEq, Repr

/-- The list, the flag of the record or `none` when it has been deleted, the calls of
`FD_DeleteDisInfo`, the ids `SCH_AddTask` has returned, and the threads. -/
structure State where
  heap : Heap Nat CommonFDList
  pstHeadptr : Nat
  delFlag : Option Int
  freed : Nat
  issued : List Int
  adder : Adder
  threads : Job → Thread
  fault : Bool

/-- A new node holds `garbage` until its id is written; `SCH_AddTask` returns -1 when it has
scheduled nothing, and the address of its own node otherwise. -/
inductive Label where
  | go (who : Who)
  | work (who : Who) (outcome : Outcome)
  | link (address : Option Nat) (garbage : Int)
  | schedule (lTaskId : Int)
  | dispatch (job : Job) (granted : Bool)
  deriving DecidableEq, Repr

def State.crash (s : State) : State := { s with fault := true }

def State.deref (s : State) (pointer : Option Nat) (next : Cell Nat CommonFDList → State) : State :=
  match pointer.bind s.heap with
  | none => s.crash
  | some cell => next cell

def State.write (s : State) (address : Nat) (cell : Option (Cell Nat CommonFDList)) : State :=
  { s with heap := Function.update s.heap address cell }

def State.record (s : State) (next : Int → State) : State :=
  match s.delFlag with
  | none => s.crash
  | some delFlag => next delFlag

def Adder.after : Job → Adder
  | .distribution => .begin .installation
  | .installation => .done

/-- The job that somebody carries out, with its position. -/
def State.acting (s : State) : Who → Option (Job × Act)
  | .adder =>
    match s.adder with
    | .act job act => some (job, act)
    | _ => none
  | .thread job =>
    match s.threads job with
    | .act _ iflag act => some (iflag, act)
    | _ => none

/-- The next position in a job, or what follows it. -/
def State.move (s : State) (who : Who) (next : Option Act) : State :=
  match who with
  | .adder =>
    match s.adder, next with
    | .act job _, some act => { s with adder := .act job act }
    | .act job _, none => { s with adder := .after job }
    | _, _ => s
  | .thread job =>
    match s.threads job, next with
    | .act pstFDList iflag _, some act =>
      { s with threads := Function.update s.threads job (.act pstFDList iflag act) }
    | .act pstFDList _ _, none =>
      { s with threads := Function.update s.threads job (.remove pstFDList) }
    | _, _ => s

def State.act (s : State) (who : Who) : Act → State
  | .work => s.record fun _ => s
  | .test => s.record fun delFlag => s.move who (some (if delFlag = 1 then .delete else .set))
  | .set => s.record fun _ => { s with delFlag := some 1 }.move who none
  | .delete => s.record fun _ => { s with delFlag := none, freed := s.freed + 1 }.move who none

def State.work (s : State) (who : Who) : Job → Outcome → Option State
  | _, .finished => some (s.record fun _ => s.move who (some .test))
  | .installation, .noMemory => some (s.record fun _ => s.move who (some .test))
  | .installation, _ => none
  | .distribution, .noMemory => some s.crash
  | .distribution, .noSocket => some (s.record fun _ => s.move who none)
  | .distribution, .missing =>
    match who with
    -- both jobs are given up
    | .adder => some (s.record fun _ =>
      { s with delFlag := none, freed := s.freed + 1, adder := .done })
    | .thread _ => some (s.record fun _ => s.move who (some .test))

/-- The next statement of `FD_AddJobToSched` outside of the jobs. -/
def State.add (s : State) (immediate : Job → Bool) : Option State :=
  match s.adder with
  | .begin job => some (s.record fun _ => { s with
      adder := if immediate job then .act job .work else .find job s.pstHeadptr })
  | .find job psttempList => some (s.deref (some psttempList) fun cell =>
    match cell.next with
    | none => { s with adder := .link job psttempList }
    | some next => { s with adder := .find job next })
  | .write job pstFDList lTaskId => some (s.deref pstFDList fun cell =>
    let named := { cell with val := { cell.val with lTaskId := lTaskId } }
    { s.write (pstFDList.getD 0) (some named) with adder := .after job })
  | _ => none

def State.put (s : State) (job : Job) (thread : Thread) : State :=
  { s with threads := Function.update s.threads job thread }

/-- The next statement of a scheduled thread outside of its job. -/
def State.remove (s : State) (job : Job) : Option State :=
  match s.threads job with
  | .enter pstFDList => some (s.deref pstFDList fun cell =>
    s.put job (.act (pstFDList.getD 0) cell.val.iflag .work))
  | .remove pstFDList => some (s.deref (some s.pstHeadptr) fun cell =>
    s.put job (.search pstFDList (some s.pstHeadptr) cell.next))
  | .search _ _ none => some (s.put job .done)
  | .search pstFDList pstprevList (some psttempList) =>
    some (s.deref (some psttempList) fun cell => s.deref (some pstFDList) fun own =>
      if cell.val.lTaskId = own.val.lTaskId then
        s.put job (.unlink pstFDList pstprevList psttempList)
      else s.deref pstprevList fun previous =>
        s.put job (.search pstFDList previous.next cell.next))
  | .unlink _ pstprevList psttempList =>
    some (s.deref (some psttempList) fun cell => s.deref pstprevList fun previous =>
      let unlinked := { previous with next := cell.next }
      (s.write (pstprevList.getD 0) (some unlinked)).put job (.free psttempList))
  | .free psttempList => some (s.deref (some psttempList) fun _ =>
    (s.write psttempList none).put job .done)
  | _ => none

/-- `FD_AddNodeInCommonFDList` allocates and links the node. -/
def State.link (s : State) (address : Option Nat) (garbage : Int) : Option State :=
  match s.adder, address with
  | .link job psttempList, none => some (s.deref (some psttempList) fun _ =>
    { s with adder := .schedule job none })
  | .link job psttempList, some address =>
    if s.heap address ≠ none then none
    else some (s.deref (some psttempList) fun cell =>
      let linked := { cell with next := some address }
      { (s.write address (some ⟨⟨job, garbage⟩, none⟩)).write psttempList (some linked) with
        adder := .schedule job (some address) })
  | _, _ => none

/-- `immediate` are the flags of the schedules in the record. -/
def step (immediate : Job → Bool) (s : State) (label : Label) : Option State :=
  if s.fault then none
  else
    match label with
    | .go who =>
      match s.acting who with
      | some (_, act) => some (s.act who act)
      | none =>
        match who with
        | .adder => s.add immediate
        | .thread job => s.remove job
    | .work who outcome =>
      match s.acting who with
      | some (job, .work) => s.work who job outcome
      | _ => none
    | .link address garbage => s.link address garbage
    | .schedule lTaskId =>
      match s.adder with
      | .schedule job pstFDList =>
        -- the caller takes 0 for the failure, which is never returned
        if lTaskId = 0 then none
        else if lTaskId = -1 then some { s with adder := .write job pstFDList lTaskId }
        else some { s.put job (.task pstFDList) with
          adder := .write job pstFDList lTaskId
          issued := s.issued ++ [lTaskId] }
      | _ => none
    | .dispatch job granted =>
      match s.threads job with
      | .task pstFDList => some (s.put job (if granted then .enter pstFDList else .done))
      | _ => none

end Threads

section Stages

def Job.other : Job → Job
  | .distribution => .installation
  | .installation => .distribution

/-- How far a job has come: its work is not done, it tests the flag, it is about to set it or to
delete the record, it has been finished or given up. -/
inductive Stage where
  | before
  | test
  | set
  | delete
  | ended
  deriving DecidableEq, Repr

def Act.stage : Act → Stage
  | .work => .before
  | .test => .test
  | .set => .set
  | .delete => .delete

/-- Neither has the job been carried out at once nor has it been scheduled. -/
def Adder.Waits : Adder → Job → Prop
  | .begin job, which | .act job _, which | .find job _, which | .link job _, which
  | .schedule job _, which => which = job ∨ job = .distribution
  | .write job _ _, which => job = .distribution ∧ which = .installation
  | .done, _ => False

instance (adder : Adder) (job : Job) : Decidable (adder.Waits job) := by
  cases adder <;> unfold Adder.Waits <;> infer_instance

def Adder.stage (adder : Adder) (which : Job) : Stage :=
  match adder with
  | .act job position =>
    if which = job then position.stage else if adder.Waits which then .before else .ended
  | _ => if adder.Waits which then .before else .ended

def Thread.stage : Thread → Option Stage
  | .idle => none
  | .task _ | .enter _ => some .before
  | .act _ _ position => some position.stage
  | .remove _ | .search _ _ _ | .unlink _ _ _ | .free _ | .done => some .ended

def State.stage (s : State) (job : Job) : Stage :=
  (s.threads job).stage.getD (s.adder.stage job)

/-- The flag of the record, and the calls that delete it, when the jobs have come that far. -/
def flagOf (first second : Stage) : Option Int :=
  if first = .ended ∧ second = .ended then none
  else if first = .ended ∨ second = .ended then some 1 else some 0

def freedOf (first second : Stage) : Nat := if first = .ended ∧ second = .ended then 1 else 0

/-- One of the jobs is about to decide on what the flag was when it was tested, and the other
one has not changed it since. -/
def Decided : Stage → Stage → Prop
  | .set, second => second = .before ∨ second = .test
  | .delete, second => second = .ended
  | _, _ => True

instance (first second : Stage) : Decidable (Decided first second) := by
  cases first <;> unfold Decided <;> infer_instance

structure Handoff (first second : Stage) (delFlag : Option Int) (freed : Nat) : Prop where
  flag : delFlag = flagOf first second
  count : freed = freedOf first second
  decided : Decided first second
  decided' : Decided second first

variable {first second : Stage} {delFlag : Option Int} {freed : Nat}

theorem Handoff.symm (handoff : Handoff first second delFlag freed) :
    Handoff second first delFlag freed := by
  obtain ⟨flag, count, decided, decided'⟩ := handoff
  refine ⟨?_, ?_, decided', decided⟩
  · rw [flag]
    cases first <;> cases second <;> rfl
  · rw [count]
    cases first <;> cases second <;> rfl

theorem Handoff.record (handoff : Handoff first second delFlag freed) (open' : first ≠ .ended) :
    ∃ value, delFlag = some value := by
  rw [handoff.flag]
  cases second <;> simp [flagOf, open']

theorem Handoff.test (handoff : Handoff .before second delFlag freed) :
    Handoff .test second delFlag freed := by
  obtain ⟨rfl, rfl, _, decided'⟩ := handoff
  cases second with
  | before | test | set | ended => exact ⟨rfl, rfl, by decide, by decide⟩
  | delete => cases decided'

theorem Handoff.decide {value : Int} (handoff : Handoff .test second (some value) freed)
    (undecided : second ≠ .set ∧ second ≠ .delete) :
    Handoff (if value = 1 then .delete else .set) second (some value) freed := by
  obtain ⟨flag, rfl, _, _⟩ := handoff
  cases second with
  | before | test =>
    cases flag
    exact ⟨rfl, rfl, by decide, by decide⟩
  | ended =>
    cases flag
    exact ⟨rfl, rfl, rfl, by decide⟩
  | set => exact absurd rfl undecided.1
  | delete => exact absurd rfl undecided.2

theorem Handoff.set (handoff : Handoff .set second delFlag freed) :
    Handoff .ended second (some 1) freed := by
  obtain ⟨_, rfl, decided, _⟩ := handoff
  rcases decided with rfl | rfl <;> exact ⟨rfl, rfl, by decide, by decide⟩

theorem Handoff.delete (handoff : Handoff .delete second delFlag freed) :
    Handoff .ended second none (freed + 1) := by
  obtain ⟨_, rfl, decided, _⟩ := handoff
  cases decided
  exact ⟨rfl, rfl, by decide, by decide⟩

theorem Handoff.missing (handoff : Handoff .before .before delFlag freed) :
    Handoff .ended .ended none (freed + 1) := by
  obtain ⟨_, rfl, _, _⟩ := handoff
  exact ⟨rfl, rfl, by decide, by decide⟩

end Stages

section Record

variable {s t : State} {who : Who} {job iflag : Job} {position : Act}

@[simp] theorem move_delFlag (next : Option Act) : (s.move who next).delFlag = s.delFlag := by
  unfold State.move
  split <;> split <;> rfl

@[simp] theorem move_freed (next : Option Act) : (s.move who next).freed = s.freed := by
  unfold State.move
  split <;> split <;> rfl

@[simp] theorem move_fault (next : Option Act) : (s.move who next).fault = s.fault := by
  unfold State.move
  split <;> split <;> rfl

/-- The record goes with the jobs, and no job has a thread before it is scheduled. -/
structure RecordInv (s : State) : Prop where
  handoff : Handoff (s.stage .distribution) (s.stage .installation) s.delFlag s.freed
  idle : ∀ job, s.adder.Waits job → s.threads job = .idle

theorem RecordInv.view (inv : RecordInv s) (job : Job) :
    Handoff (s.stage job) (s.stage job.other) s.delFlag s.freed := by
  cases job with
  | distribution => exact inv.handoff
  | installation => exact inv.handoff.symm

theorem RecordInv.of_view (job : Job)
    (handoff : Handoff (s.stage job) (s.stage job.other) s.delFlag s.freed)
    (idle : ∀ job, s.adder.Waits job → s.threads job = .idle) : RecordInv s := by
  cases job with
  | distribution => exact ⟨handoff, idle⟩
  | installation => exact ⟨handoff.symm, idle⟩

def Stage.next : Option Act → Stage
  | some position => position.stage
  | none => .ended

/-- Who acts goes on with one job, and leaves the other one. -/
structure Moves (s : State) (who : Who) (job : Job) (position : Act) : Prop where
  here : s.stage job = position.stage
  there : ∀ next, (s.move who next).stage job = Stage.next next
  other : ∀ next, (s.move who next).stage job.other = s.stage job.other
  idle : ∀ next job, (s.move who next).adder.Waits job → (s.move who next).threads job = .idle

theorem Job.other_ne (job : Job) : job.other ≠ job := by
  cases job <;> nofun

theorem stage_idle (idle : s.threads job = .idle) : s.stage job = s.adder.stage job := by
  rw [State.stage, idle]
  rfl

theorem stage_put (s : State) (job : Job) {thread : Thread} {stage : Stage}
    (staged : thread.stage = some stage) :
    (s.put job thread).stage job = stage ∧
      (s.put job thread).stage job.other = s.stage job.other := by
  constructor
  · have here : (s.put job thread).threads job = thread := Function.update_self ..
    rw [State.stage, here, staged]
    rfl
  · have there : (s.put job thread).threads job.other = s.threads job.other :=
      Function.update_of_ne job.other_ne _ _
    rw [State.stage, there]
    rfl

theorem adder_moves (idle : ∀ job, s.adder.Waits job → s.threads job = .idle)
    (here : s.adder = .act job position) : Moves s .adder job position := by
  have waits : s.adder.Waits job := by
    rw [here]
    exact Or.inl rfl
  have forward : ∀ next, s.move .adder (some next) = { s with adder := .act job next } := by
    intro next
    simp only [State.move, here]
  have last : s.move .adder none = { s with adder := .after job } := by
    simp only [State.move, here]
  have resting : ∀ adder : Adder, ({ s with adder := adder } : State).stage job = adder.stage job :=
    fun _ => stage_idle (idle job waits)
  constructor
  · rw [stage_idle (idle job waits), here]
    exact if_pos rfl
  · intro next
    cases next with
    | none =>
      rw [last, resting]
      cases job <;> rfl
    | some next =>
      rw [forward, resting]
      exact if_pos rfl
  · intro next
    have other : ∀ adder : Adder, adder.stage job.other = s.adder.stage job.other →
        ({ s with adder := adder } : State).stage job.other = s.stage job.other := by
      intro adder same
      rw [State.stage, State.stage, same]
    cases next with
    | none =>
      rw [last]
      apply other
      rw [here]
      cases job <;> rfl
    | some next =>
      rw [forward]
      apply other
      rw [here]
      cases job <;> rfl
  · intro next which waiting
    cases next with
    | none =>
      rw [last] at waiting ⊢
      apply idle
      rw [here]
      cases job with
      | distribution => exact Or.inr rfl
      | installation => exact absurd waiting id
    | some next =>
      rw [forward] at waiting ⊢
      apply idle
      rw [here]
      exact waiting

theorem thread_moves {pstFDList : Nat} (idle : ∀ job, s.adder.Waits job → s.threads job = .idle)
    (here : s.threads job = .act pstFDList iflag position) :
    Moves s (.thread job) job position := by
  have moved : ∀ next, ∃ thread : Thread, thread.stage = some (Stage.next next) ∧
      s.move (.thread job) next = s.put job thread := by
    intro next
    cases next with
    | none => exact ⟨.remove pstFDList, rfl, by simp only [State.move, here, State.put]⟩
    | some next =>
      exact ⟨.act pstFDList iflag next, rfl, by simp only [State.move, here, State.put]⟩
  constructor
  · rw [State.stage, here]
    rfl
  · intro next
    obtain ⟨thread, stage, put⟩ := moved next
    rw [put]
    exact (stage_put _ _ stage).1
  · intro next
    obtain ⟨thread, stage, put⟩ := moved next
    rw [put]
    exact (stage_put _ _ stage).2
  · intro next which waiting
    obtain ⟨thread, _, put⟩ := moved next
    rw [put] at waiting ⊢
    have resting := idle which waiting
    have different : which ≠ job := by
      intro same
      rw [same, here] at resting
      cases resting
    exact (Function.update_of_ne different _ _).trans resting

theorem acting_cases (acting : s.acting who = some (iflag, position)) :
    (who = .adder ∧ s.adder = .act iflag position) ∨
      ∃ job pstFDList, who = .thread job ∧ s.threads job = .act pstFDList iflag position := by
  cases who with
  | adder =>
    cases here : s.adder with
    | act job position' =>
      simp only [State.acting, here, Option.some.injEq, Prod.mk.injEq] at acting
      exact Or.inl ⟨rfl, by rw [acting.1, acting.2]⟩
    | _ => simp [State.acting, here] at acting
  | thread job =>
    cases here : s.threads job with
    | act pstFDList iflag' position' =>
      simp only [State.acting, here, Option.some.injEq, Prod.mk.injEq] at acting
      exact Or.inr ⟨job, pstFDList, rfl, by rw [here, acting.1, acting.2]⟩
    | _ => simp [State.acting, here] at acting

theorem acting_moves (idle : ∀ job, s.adder.Waits job → s.threads job = .idle)
    (acting : s.acting who = some (iflag, position)) :
    ∃ job, Moves s who job position := by
  rcases acting_cases acting with ⟨rfl, here⟩ | ⟨job, pstFDList, rfl, here⟩
  · exact ⟨iflag, adder_moves idle here⟩
  · exact ⟨job, thread_moves idle here⟩

/-- No job has tested the flag and not yet acted on it. -/
def State.Undecided (s : State) : Prop :=
  ∀ job ∈ [Job.distribution, .installation], s.stage job ≠ .set ∧ s.stage job ≠ .delete

instance (s : State) : Decidable s.Undecided := inferInstanceAs (Decidable (∀ _ ∈ _, _))

theorem State.Undecided.at {s : State} (undecided : s.Undecided) (job : Job) :
    s.stage job ≠ .set ∧ s.stage job ≠ .delete :=
  undecided job (by cases job <;> decide)

theorem record_eq {value : Int} (flag : s.delFlag = some value) (next : Int → State) :
    s.record next = next value := by
  rw [State.record, flag]

theorem act_record (inv : RecordInv s) (acting : s.acting who = some (iflag, position))
    (undecided : position = .test → s.Undecided) :
    (s.act who position).fault = s.fault ∧ RecordInv (s.act who position) := by
  obtain ⟨job, moves⟩ := acting_moves inv.idle acting
  have view := inv.view job
  rw [moves.here] at view
  obtain ⟨value, flag⟩ := view.record (by cases position <;> nofun)
  cases position with
  | work =>
    rw [State.act, record_eq flag]
    exact ⟨rfl, inv⟩
  | test =>
    rw [State.act, record_eq flag]
    refine ⟨move_fault _, RecordInv.of_view job ?_ (moves.idle _)⟩
    rw [moves.there, moves.other, move_delFlag, move_freed, flag]
    rw [flag] at view
    have decided := view.decide ((undecided rfl).at job.other)
    by_cases one : value = 1
    · rw [if_pos one] at decided ⊢
      exact decided
    · rw [if_neg one] at decided ⊢
      exact decided
  | set =>
    rw [State.act, record_eq flag]
    obtain ⟨job, moves⟩ := acting_moves (s := { s with delFlag := some 1 }) inv.idle acting
    have view := inv.view job
    rw [show s.stage job = .set from moves.here] at view
    refine ⟨move_fault _, RecordInv.of_view job ?_ (moves.idle _)⟩
    rw [moves.there, moves.other, move_delFlag, move_freed]
    exact view.set
  | delete =>
    rw [State.act, record_eq flag]
    obtain ⟨job, moves⟩ := acting_moves
      (s := { s with delFlag := none, freed := s.freed + 1 }) inv.idle acting
    have view := inv.view job
    rw [show s.stage job = .delete from moves.here] at view
    refine ⟨move_fault _, RecordInv.of_view job ?_ (moves.idle _)⟩
    rw [moves.there, moves.other, move_delFlag, move_freed]
    exact view.delete

theorem RecordInv.missing (inv : RecordInv s) (here : s.adder = .act .distribution .work) :
    RecordInv { s with delFlag := none, freed := s.freed + 1, adder := .done } := by
  have waits : ∀ job, s.adder.Waits job := by
    intro job
    rw [here]
    exact Or.inr rfl
  have resting : ∀ job, s.threads job = .idle := fun job => inv.idle job (waits job)
  have before : ∀ job, s.stage job = .before := by
    intro job
    rw [stage_idle (resting job), here]
    cases job <;> rfl
  have ended : ∀ job, State.stage
      { s with delFlag := none, freed := s.freed + 1, adder := .done } job = .ended :=
    fun job => stage_idle (resting job)
  have handoff := inv.handoff
  rw [before, before] at handoff
  refine ⟨?_, fun _ => False.elim⟩
  rw [ended, ended]
  exact handoff.missing

theorem work_record {outcome : Outcome} (inv : RecordInv s)
    (acting : s.acting who = some (iflag, .work))
    (granted : iflag = .installation ∨ outcome = .finished ∨ outcome = .missing)
    (executed : s.work who iflag outcome = some t) :
    t.fault = s.fault ∧ RecordInv t ∧
      (t = s.move who (some .test) ∨ who = .adder ∧
        t = { s with delFlag := none, freed := s.freed + 1, adder := .done }) := by
  obtain ⟨job, moves⟩ := acting_moves inv.idle acting
  have view := inv.view job
  rw [moves.here] at view
  obtain ⟨value, flag⟩ := view.record nofun
  have tested : RecordInv (s.move who (some .test)) := by
    refine RecordInv.of_view job ?_ (moves.idle _)
    rw [moves.there, moves.other, move_delFlag, move_freed]
    exact view.test
  have forward : t = s.move who (some .test) → t.fault = s.fault ∧ RecordInv t ∧
      (t = s.move who (some .test) ∨ who = .adder ∧
        t = { s with delFlag := none, freed := s.freed + 1, adder := .done }) := by
    rintro rfl
    exact ⟨move_fault _, tested, Or.inl rfl⟩
  cases outcome with
  | finished =>
    cases iflag <;>
    · simp only [State.work, record_eq flag, Option.some.injEq] at executed
      exact forward executed.symm
  | noMemory =>
    rcases granted with rfl | never | never
    · simp only [State.work, record_eq flag, Option.some.injEq] at executed
      exact forward executed.symm
    · cases never
    · cases never
  | noSocket =>
    rcases granted with rfl | never | never
    · cases executed
    · cases never
    · cases never
  | missing =>
    cases iflag with
    | installation => cases executed
    | distribution =>
      rcases acting_cases acting with ⟨rfl, here⟩ | ⟨_, pstFDList, rfl, here⟩
      · simp only [State.work, record_eq flag, Option.some.injEq] at executed
        subst executed
        exact ⟨rfl, inv.missing here, Or.inr ⟨rfl, rfl⟩⟩
      · simp only [State.work, record_eq flag, Option.some.injEq] at executed
        exact forward executed.symm

theorem stage_none {thread : Thread} (resting : thread.stage = none) : thread = .idle := by
  cases thread with
  | idle => rfl
  | task _ | enter _ | act _ _ _ | remove _ | search _ _ _ | unlink _ _ _ | free _ | done =>
    cases resting

theorem RecordInv.frame (inv : RecordInv s) (delFlag : t.delFlag = s.delFlag)
    (freed : t.freed = s.freed) (threads : ∀ job, (t.threads job).stage = (s.threads job).stage)
    (adder : ∀ job, t.adder.stage job = s.adder.stage job)
    (waits : ∀ job, t.adder.Waits job → s.adder.Waits job) : RecordInv t := by
  have stage : ∀ job, t.stage job = s.stage job := by
    intro job
    rw [State.stage, State.stage, threads, adder]
  constructor
  · rw [stage, stage, delFlag, freed]
    exact inv.handoff
  · intro job waiting
    apply stage_none
    rw [threads, inv.idle job (waits job waiting)]
    rfl

theorem RecordInv.schedule {pstFDList : Option Nat} {lTaskId : Int} (inv : RecordInv s)
    (here : s.adder = .schedule job pstFDList) (issued : List Int) :
    RecordInv { s.put job (.task pstFDList) with
      adder := .write job pstFDList lTaskId, issued := issued } := by
  have waits : s.adder.Waits job := by
    rw [here]
    exact Or.inl rfl
  have before : s.stage job = .before := by
    rw [stage_idle (inv.idle job waits), here]
    exact if_pos (Or.inl rfl)
  have staged := stage_put { s with adder := .write job pstFDList lTaskId, issued := issued } job
    (show (Thread.task pstFDList).stage = some .before from rfl)
  have other : State.stage { s with adder := .write job pstFDList lTaskId, issued := issued }
      job.other = s.stage job.other := by
    rw [State.stage, State.stage, here]
    cases job <;> rfl
  have view := inv.view job
  rw [before, ← other] at view
  apply RecordInv.of_view job
  · rw [← staged.1, ← staged.2] at view
    exact view
  · rintro which ⟨rfl, rfl⟩
    have resting := inv.idle .installation (by rw [here]; exact Or.inr rfl)
    have different : Job.installation ≠ .distribution := by decide
    exact (Function.update_of_ne different (.task pstFDList) s.threads).trans resting

end Record

end EveAgent.FileDist.Jobs
