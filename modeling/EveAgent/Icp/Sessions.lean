import EveAgent.CTypes

namespace EveAgent.Icp.Sessions

section Children

/-- `MAX_ICP_SESSIONS` -/
def maxIcpSessions : Nat := 30

/-- `ICP_FillInPidArray`: the first empty slot takes the process id. -/
def icpFillInPidArray (iChildPid : Nat) : List Nat → List Nat
  | [] => []
  | slot :: slots =>
    if slot = 0 then iChildPid :: slots else slot :: icpFillInPidArray iChildPid slots

/-- `ICP_GetPidLocInArray` tells the process id itself when it is in the array. -/
def icpGetPidLocInArray (iChildPid : Nat) (slots : List Nat) : Int :=
  if iChildPid ∈ slots then iChildPid else -1

/-- `msgsnd` with `IPC_NOWAIT`: the messages in the queue, and the types of those sent. A
message of type zero is refused, and so is one that finds the queue full. -/
def msgsnd (capacity : Nat) (queue : List Nat × List Nat) (lMesgType : Nat) : List Nat × List Nat :=
  if lMesgType ≠ 0 ∧ queue.1.length < capacity then
    (queue.1 ++ [lMesgType], queue.2 ++ [lMesgType])
  else queue

/-- The loop of `ICP_ListenTrap`; its test holds of every slot. -/
def icpListenTrap (capacity : Nat) (queue slots : List Nat) : List Nat × List Nat :=
  slots.foldl (msgsnd capacity) (queue, [])

variable {pid other capacity : Nat} {slots queue sent : List Nat}

theorem fillIn_length : (icpFillInPidArray pid slots).length = slots.length := by
  induction slots with
  | nil => rfl
  | cons slot slots ih =>
    rw [icpFillInPidArray]
    split
    · rfl
    · rw [List.length_cons, List.length_cons, ih]

theorem mem_fillIn_self (empty : 0 ∈ slots) : pid ∈ icpFillInPidArray pid slots := by
  induction slots with
  | nil => cases empty
  | cons slot slots ih =>
    rw [icpFillInPidArray]
    split
    · exact List.mem_cons_self
    · rename_i filled
      have later := (List.mem_cons.mp empty).resolve_left (Ne.symm filled)
      exact List.mem_cons_of_mem _ (ih later)

theorem mem_fillIn (recorded : other ∈ slots) (child : other ≠ 0) :
    other ∈ icpFillInPidArray pid slots := by
  induction slots with
  | nil => cases recorded
  | cons slot slots ih =>
    rw [icpFillInPidArray]
    split
    · rename_i free
      have later := (List.mem_cons.mp recorded).resolve_left (by rw [free]; exact child)
      exact List.mem_cons_of_mem _ later
    · rcases List.mem_cons.mp recorded with rfl | later
      · exact List.mem_cons_self
      · exact List.mem_cons_of_mem _ (ih later)

theorem getPidLoc_ne (pid : Nat) (slots : List Nat) :
    icpGetPidLocInArray pid slots ≠ -1 ↔ pid ∈ slots := by
  rw [icpGetPidLocInArray]
  by_cases recorded : pid ∈ slots
  · simp only [recorded, if_true, iff_true]
    omega
  · simp [recorded]

theorem listenTrap_eq (room : queue.length + slots.countP (· ≠ 0) ≤ capacity) :
    icpListenTrap capacity queue slots =
      (queue ++ slots.filter (· ≠ 0), slots.filter (· ≠ 0)) := by
  have folded : ∀ queue sent : List Nat, queue.length + slots.countP (· ≠ 0) ≤ capacity →
      slots.foldl (msgsnd capacity) (queue, sent) =
        (queue ++ slots.filter (· ≠ 0), sent ++ slots.filter (· ≠ 0)) := by
    clear room
    induction slots with
    | nil => simp
    | cons slot slots ih =>
      intro queue sent room
      rw [List.foldl_cons]
      by_cases empty : slot = 0
      · rw [msgsnd, if_neg (by simp [empty]), ih queue sent (by simpa [empty] using room)]
        simp [empty]
      · have fits : queue.length + (slots.countP (· ≠ 0) + 1) ≤ capacity := by
          simpa [empty] using room
        have free : queue.length < capacity := by omega
        have more : (queue ++ [slot]).length + slots.countP (· ≠ 0) ≤ capacity := by
          rw [List.length_append, List.length_singleton]
          omega
        rw [msgsnd, if_pos ⟨empty, free⟩]
        exact (ih (queue ++ [slot]) (sent ++ [slot]) more).trans (by simp [empty])
  exact folded queue [] room

end Children

section Server

/-- The statements of the loop of `main`; the counter is loaded and then stored. -/
inductive Pc where
  | accept
  | test
  | fork
  | fillIn (iChildPid : Nat)
  | load
  | store (value : Int)
  deriving DecidableEq, Repr

inductive Accept where
  | connected
  | interrupted
  | failed
  deriving DecidableEq, Repr

/-- The variables of the server and the processes that it has forked: those that are live,
and those that have terminated and are still to be waited for. The last two fields record
how many sessions were live whenever a connection was refused, and which live children were
not notified of a trap. -/
structure State where
  pc : Pc
  giNoOfConnections : Int
  giChildProcIdArray : List Nat
  giMsgQueue : Bool
  queue : List Nat
  live : List Nat
  terminated : List Nat
  refused : List Nat
  overlooked : List Nat
  deriving DecidableEq, Repr

def start (giMsgQueue : Bool) : State where
  pc := .accept
  giNoOfConnections := 0
  giChildProcIdArray := List.replicate maxIcpSessions 0
  giMsgQueue := giMsgQueue
  queue := []
  live := []
  terminated := []
  refused := []
  overlooked := []

inductive Label where
  | accept (result : Accept)
  | turn
  | fork (iChildPid : Option Nat)
  | exit (pid : Nat)
  | reap (pid : Nat)
  | trap
  | receive (pid : Nat)
  deriving DecidableEq, Repr

/-- One round of the loop of `ICP_SigChld_Hndler`. -/
def State.reap (s : State) (iPid : Nat) : State :=
  { s with
    terminated := s.terminated.erase iPid
    giNoOfConnections :=
      if icpGetPidLocInArray iPid s.giChildProcIdArray ≠ -1 then i32 (s.giNoOfConnections - 1)
      else s.giNoOfConnections }

def State.trap (capacity : Nat) (s : State) : State :=
  if s.giMsgQueue then
    { s with
      queue := (icpListenTrap capacity s.queue s.giChildProcIdArray).1
      overlooked := s.overlooked ++ s.live.filter fun pid =>
        pid ∉ (icpListenTrap capacity s.queue s.giChildProcIdArray).2 }
  else { s with overlooked := s.overlooked ++ s.live }

def step (capacity : Nat) (s : State) : Label → Option State
  | .accept result =>
    match s.pc, result with
    | .accept, .interrupted => some s
    | .accept, _ => some { s with pc := .test }
    | _, _ => none
  | .turn =>
    match s.pc with
    | .test =>
      if s.giNoOfConnections > maxIcpSessions then
        some { s with pc := .accept, refused := s.refused ++ [s.live.length] }
      else some { s with pc := .fork }
    | .fillIn iChildPid =>
      some { s with
        pc := .load
        giChildProcIdArray := icpFillInPidArray iChildPid s.giChildProcIdArray }
    | .load => some { s with pc := .store (i32 (s.giNoOfConnections + 1)) }
    | .store value => some { s with pc := .accept, giNoOfConnections := value }
    | _ => none
  | .fork none => if s.pc = .fork then some { s with pc := .accept } else none
  | .fork (some iChildPid) =>
    -- the number of a process is not zero and not that of another one
    if s.pc = .fork ∧ iChildPid ≠ 0 ∧ iChildPid ∉ s.live ++ s.terminated then
      some { s with pc := .fillIn iChildPid, live := iChildPid :: s.live }
    else none
  | .exit pid =>
    if pid ∈ s.live then
      some { s with live := s.live.erase pid, terminated := pid :: s.terminated }
    else none
  | .reap pid => if pid ∈ s.terminated then some (s.reap pid) else none
  | .trap => some (s.trap capacity)
  | .receive pid =>
    if pid ∈ s.live ∧ pid ∈ s.queue then some { s with queue := s.queue.erase pid } else none

/-- One child has been forked and is still to be counted. -/
def Pc.uncounted : Pc → Nat
  | .fillIn _ | .load | .store _ => 1
  | _ => 0

/-- The counter tells the number of the sessions: all children forked and not waited for,
but for the one that the loop has still to count; it stays in its bound, no connection is
refused below it, and every live child is notified. -/
structure Accounted (s : State) : Prop where
  count : s.giNoOfConnections + s.pc.uncounted = s.live.length + s.terminated.length
  bounded : s.giNoOfConnections ≤ maxIcpSessions
  refused : ∀ sessions ∈ s.refused, maxIcpSessions ≤ sessions
  notified : s.overlooked = []

def Pc.filling : Pc → Bool
  | .fillIn _ => true
  | _ => false

def Pc.storing : Pc → Bool
  | .store _ => true
  | _ => false

/-- A child is recorded in an empty slot, a terminated child is waited for when it is
recorded and not while the counter is raised, and a trap comes when the last child is
recorded and the queue exists and has room. -/
def Orderly (capacity : Nat) (s : State) : Label → Prop
  | .turn => s.pc.filling = true → 0 ∈ s.giChildProcIdArray
  | .reap pid => pid ∈ s.giChildProcIdArray ∧ s.pc.storing = false
  | .trap => s.pc.filling = false ∧ s.giMsgQueue = true ∧
      s.queue.length + s.giChildProcIdArray.countP (· ≠ 0) ≤ capacity
  | _ => True

instance (capacity : Nat) (s : State) (label : Label) : Decidable (Orderly capacity s label) := by
  cases label <;> unfold Orderly <;> infer_instance

/-- The children are distinct and recorded, but for the one just forked. -/
structure Kept (s : State) : Prop where
  size : s.giChildProcIdArray.length = maxIcpSessions
  distinct : (s.live ++ s.terminated).Nodup
  child : 0 ∉ s.live ++ s.terminated
  recorded : ∀ pid ∈ s.live ++ s.terminated, pid ∈ s.giChildProcIdArray ∨ s.pc = .fillIn pid
  count : s.giNoOfConnections + s.pc.uncounted = s.live.length + s.terminated.length
  loaded : ∀ value, s.pc = .store value → value = s.giNoOfConnections + 1
  refused : s.refused = []
  notified : s.overlooked = []

variable {capacity : Nat} {giMsgQueue : Bool} {s t : State} {label : Label} {labels : List Label}

theorem start_kept (giMsgQueue : Bool) : Kept (start giMsgQueue) := by
  constructor
  · exact List.length_replicate
  · exact List.nodup_nil
  · exact List.not_mem_nil
  · intro pid member
    cases member
  · rfl
  · intro value store
    cases store
  · rfl
  · rfl

theorem Kept.bounded (kept : Kept s) : s.giNoOfConnections ≤ maxIcpSessions := by
  have count := kept.count
  have inside : ∀ children : List Nat, children.Nodup → children ⊆ s.giChildProcIdArray →
      children.length ≤ maxIcpSessions := by
    intro children distinct recorded
    rw [← kept.size]
    exact (distinct.subperm recorded).length_le
  by_cases filling : ∃ pid, s.pc = .fillIn pid
  · obtain ⟨pid, pc⟩ := filling
    have rest := inside ((s.live ++ s.terminated).erase pid) (kept.distinct.erase pid) (by
      intro other member
      have child := List.mem_of_mem_erase member
      rcases kept.recorded other child with recorded | here
      · exact recorded
      · rw [pc] at here
        cases here
        exact absurd member (kept.distinct.not_mem_erase))
    have length := List.le_length_erase (a := pid) (l := s.live ++ s.terminated)
    rw [List.length_append] at length
    rw [pc, Pc.uncounted] at count
    omega
  · have all := inside _ kept.distinct fun pid member =>
      (kept.recorded pid member).resolve_right fun here => filling ⟨pid, here⟩
    rw [List.length_append] at all
    omega

theorem reap_kept {pid : Nat} (kept : Kept s) (waited : pid ∈ s.terminated)
    (recorded : pid ∈ s.giChildProcIdArray) (storing : s.pc.storing = false) :
    Kept (s.reap pid) := by
  have count := kept.count
  have bounded := kept.bounded
  have one : 1 ≤ s.terminated.length := List.length_pos_of_mem waited
  have length := List.length_erase_of_mem waited
  have found := (getPidLoc_ne pid s.giChildProcIdArray).mpr recorded
  have uncounted : s.pc.uncounted ≤ 1 := by
    cases s.pc <;> simp [Pc.uncounted]
  have lowered : i32 (s.giNoOfConnections - 1) = s.giNoOfConnections - 1 := by
    rw [maxIcpSessions] at bounded
    apply i32_of_range <;> omega
  have fewer : s.live ++ s.terminated.erase pid ⊆ s.live ++ s.terminated := by
    intro other member
    rcases List.mem_append.mp member with live | terminated
    · exact List.mem_append_left _ live
    · exact List.mem_append_right _ (List.mem_of_mem_erase terminated)
  constructor
  · exact kept.size
  · apply List.Nodup.sublist _ kept.distinct
    exact (List.Sublist.refl _).append List.erase_sublist
  · exact fun member => kept.child (fewer member)
  · exact fun other member => kept.recorded other (fewer member)
  · simp only [State.reap, if_pos found, lowered, length]
    omega
  · intro value store
    rw [show (s.reap pid).pc = s.pc from rfl] at store
    rw [store] at storing
    cases storing
  · exact kept.refused
  · exact kept.notified

theorem trap_kept (kept : Kept s) (orderly : Orderly capacity s .trap) :
    Kept (s.trap capacity) := by
  obtain ⟨recorded, exists', room⟩ := orderly
  have sent : s.trap capacity = { s with
      queue := s.queue ++ s.giChildProcIdArray.filter (· ≠ 0)
      overlooked := s.overlooked ++ s.live.filter fun pid =>
        pid ∉ s.giChildProcIdArray.filter (· ≠ 0) } := by
    rw [State.trap, if_pos exists', listenTrap_eq room]
  have notified : s.live.filter (fun pid => pid ∉ s.giChildProcIdArray.filter (· ≠ 0)) = [] := by
    rw [List.filter_eq_nil_iff]
    intro pid live
    have child : pid ∈ s.live ++ s.terminated := List.mem_append_left _ live
    have nonzero : pid ≠ 0 := by
      rintro rfl
      exact kept.child child
    have inside : pid ∈ s.giChildProcIdArray := by
      apply (kept.recorded pid child).resolve_right
      intro filling
      rw [filling] at recorded
      cases recorded
    simp [inside, nonzero]
  rw [sent, notified, List.append_nil]
  exact ⟨kept.size, kept.distinct, kept.child, kept.recorded, kept.count, kept.loaded,
    kept.refused, kept.notified⟩

theorem fillIn_kept {iChildPid : Nat} (kept : Kept s) (pc : s.pc = .fillIn iChildPid)
    (empty : 0 ∈ s.giChildProcIdArray) :
    Kept { s with
      pc := .load
      giChildProcIdArray := icpFillInPidArray iChildPid s.giChildProcIdArray } := by
  have count := kept.count
  rw [pc] at count
  constructor
  · exact fillIn_length.trans kept.size
  · exact kept.distinct
  · exact kept.child
  · intro pid member
    refine .inl ?_
    rcases kept.recorded pid member with recorded | here
    · apply mem_fillIn recorded
      rintro rfl
      exact kept.child member
    · rw [pc] at here
      cases here
      exact mem_fillIn_self empty
  · exact count
  · intro value store
    cases store
  · exact kept.refused
  · exact kept.notified

theorem fork_kept {iChildPid : Nat} (kept : Kept s) (pc : s.pc = .fork) (child : iChildPid ≠ 0)
    (fresh : iChildPid ∉ s.live ++ s.terminated) :
    Kept { s with pc := .fillIn iChildPid, live := iChildPid :: s.live } := by
  have count := kept.count
  simp only [pc, Pc.uncounted] at count
  constructor
  · exact kept.size
  · exact List.nodup_cons.mpr ⟨fresh, kept.distinct⟩
  · intro member
    rcases List.mem_cons.mp member with same | earlier
    · exact child same.symm
    · exact kept.child earlier
  · intro pid member
    rcases List.mem_cons.mp member with rfl | earlier
    · exact .inr rfl
    · refine .inl ((kept.recorded pid earlier).resolve_right ?_)
      rw [pc]
      nofun
  · simp only [Pc.uncounted, List.length_cons]
    omega
  · intro value store
    cases store
  · exact kept.refused
  · exact kept.notified

theorem exit_kept {pid : Nat} (kept : Kept s) (live : pid ∈ s.live) :
    Kept { s with live := s.live.erase pid, terminated := pid :: s.terminated } := by
  have same : List.Perm (s.live.erase pid ++ pid :: s.terminated) (s.live ++ s.terminated) :=
    List.perm_middle.trans ((List.perm_cons_erase live).symm.append_right _)
  have count := kept.count
  have lengths := same.length_eq
  rw [List.length_append, List.length_append] at lengths
  constructor
  · exact kept.size
  · exact same.nodup_iff.mpr kept.distinct
  · exact fun member => kept.child (same.mem_iff.mp member)
  · exact fun other member => kept.recorded other (same.mem_iff.mp member)
  · simp only
    omega
  · exact kept.loaded
  · exact kept.refused
  · exact kept.notified

theorem Kept.moved (kept : Kept s) {pc : Pc} (before : ∀ pid, s.pc ≠ .fillIn pid)
    (same : pc.uncounted = s.pc.uncounted) (storing : ∀ value, pc ≠ .store value) :
    Kept { s with pc } := by
  constructor
  · exact kept.size
  · exact kept.distinct
  · exact kept.child
  · exact fun pid member => .inl ((kept.recorded pid member).resolve_right (before pid))
  · simp only [same]
    exact kept.count
  · exact fun value store => absurd store (storing value)
  · exact kept.refused
  · exact kept.notified

theorem turn_kept (kept : Kept s) (orderly : Orderly capacity s .turn)
    (executed : step capacity s .turn = some t) : Kept t := by
  have count := kept.count
  have bounded := kept.bounded
  simp only [step] at executed
  cases pc : s.pc <;> simp only [pc, reduceCtorEq, Option.some.injEq] at executed
  case test =>
    rw [if_neg (by omega)] at executed
    cases executed
    exact kept.moved (by rw [pc]; nofun) (by rw [pc]; rfl) nofun
  case fillIn iChildPid =>
    subst executed
    exact fillIn_kept kept pc (orderly (by rw [pc]; rfl))
  case load =>
    subst executed
    rw [pc] at count
    constructor
    · exact kept.size
    · exact kept.distinct
    · exact kept.child
    · intro pid member
      refine .inl ((kept.recorded pid member).resolve_right ?_)
      rw [pc]
      nofun
    · exact count
    · intro value store
      rw [maxIcpSessions] at bounded
      rw [← Pc.store.inj store]
      simp only [Pc.uncounted] at count
      apply i32_of_range <;> omega
    · exact kept.refused
    · exact kept.notified
  case store value =>
    subst executed
    have raised := kept.loaded value pc
    rw [pc, Pc.uncounted] at count
    constructor
    · exact kept.size
    · exact kept.distinct
    · exact kept.child
    · intro pid member
      refine .inl ((kept.recorded pid member).resolve_right ?_)
      rw [pc]
      nofun
    · simp only [Pc.uncounted, raised]
      omega
    · intro value store
      cases store
    · exact kept.refused
    · exact kept.notified

theorem step_kept (kept : Kept s) (orderly : Orderly capacity s label)
    (executed : step capacity s label = some t) : Kept t := by
  cases label with
  | turn => exact turn_kept kept orderly executed
  | accept result =>
    simp only [step] at executed
    split at executed
    · cases executed
      exact kept
    · cases executed
      rename_i pc _
      exact kept.moved (by rw [pc]; nofun) (by rw [pc]; rfl) nofun
    · cases executed
  | fork iChildPid =>
    cases iChildPid with
    | none =>
      simp only [step, Option.ite_none_right_eq_some, Option.some.injEq] at executed
      obtain ⟨pc, rfl⟩ := executed
      exact kept.moved (by rw [pc]; nofun) (by rw [pc]; rfl) nofun
    | some iChildPid =>
      simp only [step, Option.ite_none_right_eq_some, Option.some.injEq] at executed
      obtain ⟨⟨pc, child, fresh⟩, rfl⟩ := executed
      exact fork_kept kept pc child fresh
  | exit pid =>
    simp only [step, Option.ite_none_right_eq_some, Option.some.injEq] at executed
    obtain ⟨live, rfl⟩ := executed
    exact exit_kept kept live
  | reap pid =>
    simp only [step, Option.ite_none_right_eq_some, Option.some.injEq] at executed
    obtain ⟨waited, rfl⟩ := executed
    exact reap_kept kept waited orderly.1 orderly.2
  | trap =>
    cases executed
    exact trap_kept kept orderly
  | receive pid =>
    simp only [step, Option.ite_none_right_eq_some, Option.some.injEq] at executed
    obtain ⟨_, rfl⟩ := executed
    exact ⟨kept.size, kept.distinct, kept.child, kept.recorded, kept.count, kept.loaded,
      kept.refused, kept.notified⟩

/-- The sessions are accounted for in every orderly run. -/
theorem sessions_accounted (capacity : Nat) (giMsgQueue : Bool) (labels : List Label) (s : State)
    (orderly : Machine.Along (step capacity) (Orderly capacity) (start giMsgQueue) labels)
    (executed : Machine.run (step capacity) (start giMsgQueue) labels = some s) :
    Accounted s := by
  have kept : Kept s := Machine.run_invariant (fun _ _ _ => step_kept) (start_kept giMsgQueue)
    orderly executed
  constructor
  · exact kept.count
  · exact kept.bounded
  · intro sessions member
    rw [kept.refused] at member
    cases member
  · exact kept.notified

/-- Two sessions are notified of a trap; one of them ends, is waited for while the next one is
accepted, and leaves the trap to the other. -/
def threeSessions : List Label :=
  [.accept .connected, .turn, .fork (some 7), .turn, .turn, .turn,
    .accept .connected, .turn, .fork (some 8), .turn, .turn, .turn, .trap, .exit 7,
    .accept .connected, .turn, .fork (some 9), .reap 7, .turn, .turn, .turn, .receive 8]

theorem sessions_accounted_three : ∃ s, Machine.run (step 100) (start true) threeSessions = some s ∧
    Accounted s ∧ s.live = [9, 8] ∧ s.queue = [7] ∧ s.giNoOfConnections = 2 := by
  have computed : (Machine.run (step 100) (start true) threeSessions).any
      (fun s => decide (s.live = [9, 8] ∧ s.queue = [7] ∧ s.giNoOfConnections = 2)) = true := by
    decide +kernel
  obtain ⟨s, executed, reached⟩ := Machine.run_of_any computed
  have orderly : Machine.Along (step 100) (Orderly 100) (start true) threeSessions := by
    decide +kernel
  exact ⟨s, executed, sessions_accounted 100 true threeSessions s orderly executed, reached⟩

/-- A session is over before its process is recorded. -/
def shortSession : List Label :=
  [.accept .connected, .turn, .fork (some 7), .exit 7, .reap 7, .turn, .turn, .turn]

/-- It is counted for ever. -/
theorem sessions_miscounted : ¬ ∀ (capacity : Nat) (giMsgQueue : Bool) (labels : List Label)
    (s : State), Machine.run (step capacity) (start giMsgQueue) labels = some s → Accounted s := by
  intro always
  have computed : (Machine.run (step 100) (start true) shortSession).any
      (fun s => decide (s.giNoOfConnections = 1 ∧ s.pc = .accept ∧ s.live = [] ∧
        s.terminated = [])) = true := by decide
  obtain ⟨s, executed, one, pc, live, terminated⟩ := Machine.run_of_any computed
  have count := (always 100 true shortSession s executed).count
  rw [one, pc, live, terminated] at count
  cases count

end Server

end EveAgent.Icp.Sessions
