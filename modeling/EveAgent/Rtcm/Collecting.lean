import EveAgent.Rtcm.Alarms

namespace EveAgent.Rtcm

open EveAgent.Ledger EveAgent.Cells Machine

section Property

/-- A committed change still waits for the list to be formed again. -/
def owed (history : List Happened) : Bool :=
  history.foldl
    (fun before what =>
      match what with
      | .committed => true
      | .collected => before
      | .rebuilt _ => false)
    false

/-- The id of the alarm stands in the variable of its handler, and the others are zero. -/
def Collection.Recorded (s : Collection) (alarm : SnmpAlarm) : Prop :=
  match alarm.handler with
  | .rtcCallback => s.guiRTCReg1 = alarm.clientreg ∧ s.guiRTCReg2 = 0 ∧ s.guiRTCReg3 = 0
  | .rtcCollectStoreVariables _ =>
    s.guiRTCReg1 = 0 ∧
      ((s.guiRTCReg2 = alarm.clientreg ∧ s.guiRTCReg3 = 0) ∨
        (s.guiRTCReg2 = 0 ∧ s.guiRTCReg3 = alarm.clientreg))

structure Steady (s : Collection) : Prop where
  pending : ∃ alarm, s.alarms = [alarm] ∧ alarm.clientreg ≠ 0 ∧ s.Recorded alarm
  live : ∀ alarm ∈ s.alarms, ∀ node, alarm.handler = .rtcCollectStoreVariables node →
    s.gpstHeadList = some node ∧ ∃ cell, s.store.heap node = some cell
  /-- Each node that was ever allocated is on the list or has been freed, once. -/
  freedOnce : ∃ cells, Owns s.store s.gpstHeadList cells
  /-- A collection behind a change is followed by a new list at once. -/
  inTime : ∀ front back, s.history = front ++ .collected :: back → owed front = true →
    ∃ cause rest, back = .rebuilt cause :: rest
  /-- A new list for a change has a change that no list has been formed for. -/
  once : ∀ front back, s.history = front ++ .rebuilt true :: back → owed front = true
  /-- No handler reads or frees what is not allocated. -/
  runs : ∀ alarm ∈ s.alarms, ∀ today now retrievals,
    ∃ t, s.step (.expire alarm.clientreg today now retrievals) = some t
  commits : ∀ rows written today now, ∃ t, s.step (.commit rows written today now) = some t

/-- The nodes behind those that are due together. -/
def Collection.left (s : Collection) : List RtcList :=
  (splitDue (s.store.contents s.store.allocated s.gpstHeadList)).2

/-- At most the node that ends the list is left. -/
def Collection.Exhausted (s : Collection) : Prop := s.left.length ≤ 1

instance (s : Collection) : Decidable s.Exhausted := inferInstanceAs (Decidable (_ ≤ _))

/-- The number of nodes of the list that a collection retrieves. -/
def dueOf (nodes : List RtcList) : Nat :=
  if (splitDue nodes).2 = [] then (splitDue nodes).1.length - 1 else (splitDue nodes).1.length

def Collection.due (s : Collection) : Nat :=
  dueOf (s.store.contents s.store.allocated s.gpstHeadList)

/-- The default log file can be opened, except once in a collection that forms the list again;
no change is pending when a collection exhausts the list; and commits write their file. -/
def Calm (s : Collection) : Event → Prop
  | .commit _ written _ _ => written = true
  | .expire _ _ _ retrievals =>
    s.log.failures s.due retrievals ≤
        (if s.Exhausted ∨ s.giContextChanged = true then 1 else 0) ∧
      (s.Exhausted → s.giContextChanged = false)
  | .transferEnds opens => s.log.forgotten.defaultFails opens = false
  | _ => True

instance (s : Collection) (event : Event) : Decidable (Calm s event) := by
  cases event with
  | commit _ written _ _ => exact inferInstanceAs (Decidable (written = true))
  | expire _ _ _ retrievals => exact inferInstanceAs (Decidable (_ ∧ _))
  | transferBegins => exact .isTrue trivial
  | transferEnds opens => exact inferInstanceAs (Decidable (_ = false))
  | setLogFile name => exact .isTrue trivial

end Property

section History

variable {history : List Happened} {what : Happened}

theorem owed_append (what : Happened) :
    owed (history ++ [what]) =
      match what with
      | .committed => true
      | .collected => owed history
      | .rebuilt _ => false := by
  rw [owed, List.foldl_append]
  rfl

theorem each_append {tail : List Happened} {P : List Happened → List Happened → Prop}
    (old : ∀ front back, history = front ++ what :: back → P front (back ++ tail))
    (new : ∀ front back, tail = front ++ what :: back → P (history ++ front) back) :
    ∀ front back, history ++ tail = front ++ what :: back → P front back := by
  intro front back split
  rcases List.append_eq_append_iff.mp split with ⟨more, first, second⟩ | ⟨more, first, second⟩
  · rw [first]
    exact new more back second
  · cases more with
    | nil =>
      rw [List.nil_append] at second
      rw [List.append_nil] at first
      have at_ := new [] back second.symm
      rw [List.append_nil, first] at at_
      exact at_
    | cons head more =>
      rw [List.cons_append] at second
      have both := List.cons.inj second
      rw [both.2]
      apply old
      rw [first, both.1]

theorem singleton_split {other : Happened} {front back : List Happened}
    (split : [what] = front ++ other :: back) : front = [] ∧ what = other ∧ back = [] := by
  cases front with
  | nil =>
    have both := List.cons.inj split
    exact ⟨rfl, both.1, both.2.symm⟩
  | cons head front => exact absurd (List.cons.inj split).2.symm (by simp)

/-- Collections behind a change are in time, and each change makes one new list. -/
structure Orderly (history : List Happened) : Prop where
  inTime : ∀ front back, history = front ++ .collected :: back → owed front = true →
    ∃ cause rest, back = .rebuilt cause :: rest
  once : ∀ front back, history = front ++ .rebuilt true :: back → owed front = true

theorem Orderly.append (orderly : Orderly history) {tail : List Happened}
    (inTime : ∀ front back, tail = front ++ .collected :: back → owed (history ++ front) = true →
      ∃ cause rest, back = .rebuilt cause :: rest)
    (once : ∀ front back, tail = front ++ .rebuilt true :: back → owed (history ++ front) = true) :
    Orderly (history ++ tail) := by
  constructor
  · apply each_append (P := fun front back => owed front = true →
      ∃ cause rest, back = .rebuilt cause :: rest)
    · intro front back split due
      obtain ⟨cause, rest, same⟩ := orderly.inTime front back split due
      exact ⟨cause, rest ++ tail, by rw [same]; rfl⟩
    · exact inTime
  · apply each_append (P := fun front _ => owed front = true)
    · exact orderly.once
    · exact once

theorem Orderly.committed (orderly : Orderly history) : Orderly (history ++ [.committed]) := by
  apply orderly.append
  · intro front back split
    cases (singleton_split split).2.1
  · intro front back split
    cases (singleton_split split).2.1

theorem Orderly.rebuilt (orderly : Orderly history) {cause : Bool}
    (called : cause = true → owed history = true) : Orderly (history ++ [.rebuilt cause]) := by
  apply orderly.append
  · intro front back split
    cases (singleton_split split).2.1
  · intro front back split
    have here := singleton_split split
    rw [here.1, List.append_nil]
    exact called (Happened.rebuilt.inj here.2.1)

theorem Orderly.collecting (orderly : Orderly history) (quiet : owed history = false) :
    Orderly (history ++ [.collected]) := by
  apply orderly.append
  · intro front back split due
    rw [(singleton_split split).1, List.append_nil, quiet] at due
    cases due
  · intro front back split
    cases (singleton_split split).2.1

theorem Orderly.renewed (orderly : Orderly history) {cause : Bool}
    (called : cause = true → owed history = true) :
    Orderly (history ++ [.collected] ++ [.rebuilt cause]) := by
  rw [List.append_assoc]
  apply orderly.append
  · intro front back split due
    cases front with
    | nil => exact ⟨cause, [], (List.cons.inj split).2.symm⟩
    | cons head front => cases (singleton_split (List.cons.inj split).2).2.1
  · intro front back split
    cases front with
    | nil => cases split
    | cons head front =>
      have both := List.cons.inj split
      have here := singleton_split both.2
      rw [← both.1, here.1, owed_append]
      exact called (Happened.rebuilt.inj here.2.1)

end History

section Forming

variable (today : Fin 7) (now : Nat) {s t : Collection} {alarm : SnmpAlarm}
  {cells : List (Nat × RtcList)}

/-- The alarm is recorded, and a collecting one has the head of the list. -/
inductive Tracked (s : Collection) (alarm : SnmpAlarm) : Prop where
  | idle (handler : alarm.handler = .rtcCallback) (reg1 : s.guiRTCReg1 = alarm.clientreg)
      (reg2 : s.guiRTCReg2 = 0) (reg3 : s.guiRTCReg3 = 0) (head : s.gpstHeadList = none)
  | collecting (node : Nat) (handler : alarm.handler = .rtcCollectStoreVariables node)
      (head : s.gpstHeadList = some node) (reg1 : s.guiRTCReg1 = 0)
      (other : (s.guiRTCReg2 = alarm.clientreg ∧ s.guiRTCReg3 = 0) ∨
        (s.guiRTCReg2 = 0 ∧ s.guiRTCReg3 = alarm.clientreg))

theorem unregister_eq (clientreg : Nat) :
    s.unregister clientreg = { s with alarms := (s.unregister clientreg).alarms } := by
  unfold Collection.unregister
  split
  · rfl
  · rfl

theorem unregister_alarms {clientreg : Nat} (member : alarm ∈ (s.unregister clientreg).alarms) :
    alarm ∈ s.alarms ∧ (alarm.clientreg ≠ 0 → alarm.clientreg ≠ clientreg) := by
  unfold Collection.unregister at member
  split at member
  · obtain ⟨kept, different⟩ := List.mem_filter.mp member
    exact ⟨kept, fun _ => bne_iff_ne.mp different⟩
  · rename_i zero
    rw [not_not.mp zero]
    exact ⟨member, id⟩

theorem unregisterAll_alarms (member : alarm ∈ s.unregisterAll.alarms) :
    alarm ∈ s.alarms ∧ (alarm.clientreg ≠ 0 → alarm.clientreg ≠ s.guiRTCReg1 ∧
      alarm.clientreg ≠ s.guiRTCReg2 ∧ alarm.clientreg ≠ s.guiRTCReg3) := by
  have third := unregister_alarms member
  have second := unregister_alarms third.1
  have first := unregister_alarms second.1
  refine ⟨first.1, ?_⟩
  intro positive
  exact ⟨first.2 positive, second.2 positive, third.2 positive⟩

theorem unregisterAll_eq (s : Collection) :
    s.unregisterAll =
      { s with
        alarms := s.unregisterAll.alarms, guiRTCReg1 := 0, guiRTCReg2 := 0, guiRTCReg3 := 0 } := by
  unfold Collection.unregisterAll
  rw [unregister_eq s.guiRTCReg3, unregister_eq s.guiRTCReg2, unregister_eq s.guiRTCReg1]

theorem sortedNodes_perm (base : Nat) (list : List RtcList) :
    (addresses (sortedNodes base list)).Perm (List.range' base (list.length + 1)) := by
  have zero : (fun node : Nat × RtcList => node.2.interval)
      (base + (list.length + 1), ⟨0, 0⟩) = 0 := rfl
  rw [sortedNodes, BubbleSort.bubbleSort_minimal (fun node : Nat × RtcList => node.2.interval) zero,
    List.tail_cons]
  have perm := BubbleSort.bubbleSort_perm (fun node : Nat × RtcList => node.2.interval)
    ((List.range' base (list.length + 1)).zip (list ++ [endNode]))
  have fronts : addresses ((List.range' base (list.length + 1)).zip (list ++ [endNode])) =
      List.range' base (list.length + 1) := by
    rw [addresses, List.map_fst_zip]
    rw [List.length_range', List.length_append, List.length_singleton]
  have mapped := perm.map Prod.fst
  rw [← addresses, ← addresses, fronts] at mapped
  exact mapped

/-- What `RTC_callback` leaves behind the alarms that were pending. -/
structure Formed (s t : Collection) (alarm : SnmpAlarm) : Prop where
  alarms : t.alarms = s.alarms ++ [alarm]
  clientreg : alarm.clientreg = s.regnum
  regnum : t.regnum = s.regnum + 1
  tracked : Tracked t alarm
  owned : ∃ cells, Owns t.store t.gpstHeadList cells
  changed : t.giContextChanged = s.giContextChanged
  history : t.history = s.history

theorem formList_formed (owns : Owns s.store none []) (reg1 : s.guiRTCReg1 = 0)
    (reg2 : s.guiRTCReg2 = 0) (reg3 : s.guiRTCReg3 = 0) :
    ∃ alarm, Formed s (s.formList today now) alarm := by
  unfold Collection.formList
  dsimp only
  by_cases empty : formLinkedList today s.rows now = []
  · rw [if_pos empty]
    refine ⟨⟨s.regnum, .rtcCallback⟩, rfl, rfl, rfl, ?_, ⟨[], ?_⟩, rfl, rfl⟩
    · exact .idle rfl rfl reg2 reg3 rfl
    · have fresh : (addresses ([] : List (Nat × RtcList)) ++ [s.store.allocated]).Perm
          (List.range' s.store.allocated 1) := List.Perm.refl _
      exact owns.build fresh
  · rw [if_neg empty]
    have perm := sortedNodes_perm s.store.allocated (formLinkedList today s.rows now)
    cases nodes : sortedNodes s.store.allocated (formLinkedList today s.rows now) with
    | nil =>
      rw [nodes] at perm
      cases perm.symm.eq_nil
    | cons node rest =>
      obtain ⟨address, node⟩ := node
      rw [nodes] at perm
      refine ⟨⟨s.regnum, .rtcCollectStoreVariables address⟩, rfl, rfl, rfl, ?_,
        ⟨(address, node) :: rest, ?_⟩, rfl, rfl⟩
      · exact .collecting address rfl rfl reg1 (.inl ⟨rfl, reg3⟩)
      · have fresh : (addresses ((address, node) :: rest) ++
            [s.store.allocated + ((formLinkedList today s.rows now).length + 1)]).Perm
            (List.range' s.store.allocated ((formLinkedList today s.rows now).length + 2)) := by
          rw [List.range'_concat, Nat.one_mul]
          exact perm.append_right _
        exact owns.build fresh

theorem rtcCallback_formed (owns : Owns s.store s.gpstHeadList cells) :
    ∃ t alarm, s.rtcCallback today now = some t ∧ Formed s.unregisterAll t alarm := by
  unfold Collection.rtcCallback
  have same := unregisterAll_eq s
  have owns' : Owns s.unregisterAll.store s.unregisterAll.gpstHeadList cells := by
    rw [same]
    exact owns
  obtain ⟨store, freed, empty⟩ := owns'.freeList owns'.length
  dsimp only
  rw [freed]
  dsimp only
  obtain ⟨alarm, formed⟩ := formList_formed today now
    (s := { s.unregisterAll with store := store, gpstHeadList := none }) empty
    (by rw [same]) (by rw [same]) (by rw [same])
  exact ⟨_, alarm, rfl, formed.alarms, formed.clientreg, formed.regnum, formed.tracked,
    formed.owned, formed.changed, formed.history⟩

end Forming

section Logging

variable {s t u : Collection} {n m : Nat} {opens : Opens} {retrieval : Retrieval}
  {cells : List (Nat × RtcList)} {address : Nat} {node : RtcList}

/-- What the log file adds to the alarms when the default one cannot be opened `n` times. -/
structure Logged (n : Nat) (s t : Collection) : Prop where
  regnum : t.regnum = s.regnum + n
  alarms : t.alarms =
    s.alarms ++ (List.range' s.regnum n).map fun clientreg => ⟨clientreg, .rtcCallback⟩
  reg1 : t.guiRTCReg1 = if n = 0 then s.guiRTCReg1 else s.regnum + n - 1
  reg2 : t.guiRTCReg2 = s.guiRTCReg2
  reg3 : t.guiRTCReg3 = s.guiRTCReg3
  changed : t.giContextChanged = s.giContextChanged
  history : t.history = s.history

theorem Logged.none (alarms : t.alarms = s.alarms) (regnum : t.regnum = s.regnum)
    (reg1 : t.guiRTCReg1 = s.guiRTCReg1) (reg2 : t.guiRTCReg2 = s.guiRTCReg2)
    (reg3 : t.guiRTCReg3 = s.guiRTCReg3) (changed : t.giContextChanged = s.giContextChanged)
    (history : t.history = s.history) : Logged 0 s t :=
  ⟨regnum, by rw [alarms]; exact (List.append_nil _).symm, reg1, reg2, reg3, changed, history⟩

theorem Logged.trans (first : Logged n s t) (second : Logged m t u) : Logged (n + m) s u := by
  constructor
  · rw [second.regnum, first.regnum, Nat.add_assoc]
  · rw [second.alarms, first.alarms, first.regnum, List.append_assoc, ← List.map_append,
      List.range'_append_1]
  · rw [second.reg1, first.reg1, first.regnum]
    by_cases zero : m = 0
    · rw [if_pos zero, zero, Nat.add_zero]
    · rw [if_neg zero, if_neg (by omega)]
      omega
  · rw [second.reg2, first.reg2]
  · rw [second.reg3, first.reg3]
  · rw [second.changed, first.changed]
  · rw [second.history, first.history]

theorem rtcCheckLogFileName_logged (opens : Opens) (s : Collection) :
    Logged (s.log.defaultFails opens).toNat s (s.rtcCheckLogFileName opens) ∧
      (s.rtcCheckLogFileName opens).log = s.log.checked opens ∧
      (s.rtcCheckLogFileName opens).store = s.store ∧
      (s.rtcCheckLogFileName opens).gpstHeadList = s.gpstHeadList := by
  unfold Collection.rtcCheckLogFileName
  cases fails : s.log.defaultFails opens with
  | false => exact ⟨.none rfl rfl rfl rfl rfl rfl rfl, rfl, rfl, rfl⟩
  | true => exact ⟨⟨rfl, rfl, rfl, rfl, rfl, rfl, rfl⟩, rfl, rfl, rfl⟩

theorem checked_name (opens : Opens) (log : LogFile) :
    (log.checked opens).gcInfoLogFileSystemData = log.gcInfoLogFileSystemData := by
  unfold LogFile.checked
  split
  · split
    · split
      · rfl
      · rfl
    · rfl
  · split
    · rfl
    · rfl

theorem rtcRetrieveLogVariable_logged (retrieval : Retrieval) (s : Collection) :
    Logged
        ((retrieval.fetched && s.log.defaultFails retrieval.first).toNat +
          (s.log.checkedAgain retrieval &&
            (s.log.checked retrieval.first).unflagged.defaultFails retrieval.second).toNat)
        s (s.rtcRetrieveLogVariable retrieval) ∧
      (s.rtcRetrieveLogVariable retrieval).log = s.log.retrieved retrieval ∧
      (s.rtcRetrieveLogVariable retrieval).store = s.store ∧
      (s.rtcRetrieveLogVariable retrieval).gpstHeadList = s.gpstHeadList := by
  unfold Collection.rtcRetrieveLogVariable LogFile.checkedAgain LogFile.retrieved
  obtain ⟨first, log, store, head⟩ := rtcCheckLogFileName_logged retrieval.first s
  cases fetched : retrieval.fetched with
  | false => exact ⟨.none rfl rfl rfl rfl rfl rfl rfl, rfl, rfl, rfl⟩
  | true =>
    simp only [Bool.true_and, if_true, log]
    cases exceeds : (s.log.checked retrieval.first).fpl && retrieval.exceeds with
    | false => exact ⟨first, log, store, head⟩
    | true =>
      simp only [Bool.true_and, if_true, checked_name]
      by_cases name : s.log.gcInfoLogFileSystemData = ""
      · have named : (s.log.gcInfoLogFileSystemData == "") = true := beq_iff_eq.mpr name
        simp only [if_pos name, named, Bool.true_and]
        obtain ⟨second, log', store', head'⟩ := rtcCheckLogFileName_logged retrieval.second
          ((s.rtcCheckLogFileName retrieval.first).putLog
            (s.log.checked retrieval.first).unflagged)
        refine ⟨?_, log', store'.trans store, head'.trans head⟩
        exact first.trans ⟨second.regnum, second.alarms, second.reg1, second.reg2, second.reg3,
          second.changed, second.history⟩
      · have named : (s.log.gcInfoLogFileSystemData == "") = false := beq_false_of_ne name
        simp only [if_neg name, named, Bool.false_and]
        refine ⟨?_, rfl, store, head⟩
        exact ⟨first.regnum, first.alarms, first.reg1, first.reg2, first.reg3, first.changed,
          first.history⟩

theorem failures_nil (count : Nat) (log : LogFile) : log.failures count [] = 0 := by
  cases count with
  | zero => rfl
  | succ count => rfl

theorem failures_succ (count : Nat) (retrievals : List Retrieval) (log : LogFile) :
    log.failures (count + 1) retrievals =
      ((retrievals.headD notFetched).fetched &&
          log.defaultFails (retrievals.headD notFetched).first).toNat +
        (log.checkedAgain (retrievals.headD notFetched) &&
          (log.checked (retrievals.headD notFetched).first).unflagged.defaultFails
            (retrievals.headD notFetched).second).toNat +
        (log.retrieved (retrievals.headD notFetched)).failures count retrievals.tail := by
  cases retrievals with
  | nil =>
    rw [List.tail_nil, failures_nil, failures_nil]
    rfl
  | cons retrieval retrievals => rfl

end Logging

section Collecting

variable (today : Fin 7) (now : Nat) {s t : Collection} {cells : List (Nat × RtcList)}
  {address : Nat} {node : RtcList}

theorem collectGroup_eq {fuel : Nat} (retrievals : List Retrieval)
    (owns : Owns s.store (some address) ((address, node) :: cells))
    (head : s.gpstHeadList = some address) (enough : cells.length < fuel) :
    ∃ last value rest t, collectGroup retrievals fuel address s = some (last, t) ∧
      Owns t.store (some last) ((last, value) :: rest) ∧ t.gpstHeadList = some last ∧
      rest.map Prod.snd = (splitDue (node :: cells.map Prod.snd)).2 ∧
      Logged (s.log.failures (dueOf (node :: cells.map Prod.snd)) retrievals) s t := by
  induction cells generalizing s address node fuel retrievals with
  | nil =>
    cases fuel with
    | zero => cases enough
    | succ fuel =>
      obtain ⟨_, next, held, ended⟩ := owns.segment
      rw [segment_nil] at ended
      subst ended
      refine ⟨address, node, [], s, ?_, owns, head, rfl, .none rfl rfl rfl rfl rfl rfl rfl⟩
      rw [collectGroup, held]
  | cons following cells ih =>
    cases fuel with
    | zero => cases enough
    | succ fuel =>
      obtain ⟨address', node'⟩ := following
      obtain ⟨retrieved, log, sameStore, sameHead⟩ :=
        rtcRetrieveLogVariable_logged (retrievals.headD notFetched) s
      obtain ⟨_, next, held, start, next', heldNext, _⟩ := owns.segment
      subst start
      rw [collectGroup, held]
      dsimp only
      rw [heldNext]
      dsimp only
      by_cases same : node.interval = node'.interval
      · rw [if_pos same]
        rw [← sameStore] at owns
        obtain ⟨next, store, heldAgain, freed, rest⟩ := owns.free
        rw [sameStore, held] at heldAgain
        obtain rfl := (Cell.mk.inj (Option.some.inj heldAgain)).2
        rw [freed]
        dsimp only
        obtain ⟨last, value, others, t, loop, owned, headLast, split, logged⟩ :=
          ih (s := { s.rtcRetrieveLogVariable (retrievals.headD notFetched) with
            store := store, gpstHeadList := some address' }) retrievals.tail rest rfl
            (Nat.lt_of_succ_lt_succ enough)
        refine ⟨last, value, others, t, loop, owned, headLast, ?_, ?_⟩
        · rw [split, List.map_cons, splitDue, if_pos same]
        · have more : dueOf (node :: node' :: cells.map Prod.snd) =
              dueOf (node' :: cells.map Prod.snd) + 1 := by
            have filled :=
              List.length_pos_of_ne_nil (splitDue_filled node' (cells.map Prod.snd))
            rw [dueOf, dueOf, splitDue, if_pos same, List.length_cons]
            split
            · omega
            · rfl
          rw [List.map_cons, more, failures_succ, ← log]
          exact retrieved.trans ⟨logged.regnum, logged.alarms, logged.reg1, logged.reg2,
            logged.reg3, logged.changed, logged.history⟩
      · rw [if_neg same]
        refine ⟨address, node, (address', node') :: cells, _, rfl, ?_, ?_, ?_, ?_⟩
        · rw [sameStore]
          exact owns
        · rw [sameHead]
          exact head
        · rw [List.map_cons, splitDue, if_neg same]
        · have one : dueOf (node :: node' :: cells.map Prod.snd) = 1 := by
            rw [dueOf, splitDue, if_neg same]
            rfl
          rw [List.map_cons, one, failures_succ]
          exact retrieved

inductive Continued (today : Fin 7) (now : Nat) (rest : List (Nat × RtcList)) (s : Collection)
    (result : Option Collection) : Prop where
  | exhausted (few : rest.length ≤ 1) (store : Store RtcList) (owns : Owns store none [])
      (is : result = (Collection.rtcCallback today now
        { s with store := store, gpstHeadList := none }).map (·.happened (.rebuilt false)))
  | changed (many : ¬ rest.length ≤ 1) (flag : s.giContextChanged = true) (next : Nat)
      (store : Store RtcList) (owns : Owns store (some next) rest)
      (is : result = (Collection.rtcCallback today now
        { s with store := store, gpstHeadList := some next, giContextChanged := false }).map
          (·.happened (.rebuilt true)))
  | waits (many : ¬ rest.length ≤ 1) (flag : s.giContextChanged = false) (next : Nat)
      (store : Store RtcList) (owns : Owns store (some next) rest)
      (is : result = some
        { Collection.snmpAlarmRegister { s with store := store, gpstHeadList := some next }
            (.rtcCollectStoreVariables next) with
          guiRTCReg3 := s.regnum })

theorem continueList_cases {last : Nat} {value : RtcList} {rest : List (Nat × RtcList)}
    (owned : Owns s.store (some last) ((last, value) :: rest)) :
    Continued today now rest s (s.continueList today now last) := by
  obtain ⟨next, store, held, freed, owns⟩ := owned.free
  unfold Collection.continueList
  rw [held, freed]
  cases rest with
  | nil =>
    have ended : next = none := owns.segment
    subst ended
    exact .exhausted (Nat.zero_le 1) store owns rfl
  | cons second rest =>
    obtain ⟨address, node⟩ := second
    obtain ⟨_, next', held', start, next'', heldNext, tail⟩ := owned.segment
    rw [held] at held'
    obtain rfl := (Cell.mk.inj (Option.some.inj held')).2
    subst start
    dsimp only
    rw [heldNext]
    dsimp only
    cases rest with
    | nil =>
      have ended : next'' = none := tail
      subst ended
      rw [Option.isSome_none, if_neg Bool.false_ne_true]
      obtain ⟨last', store', _, freed', empty⟩ := owns.free
      rw [freed']
      have ended : last' = none := empty.segment
      subst ended
      exact .exhausted (Nat.le_refl 1) store' empty rfl
    | cons third rest =>
      rw [tail.1, Option.isSome_some, if_pos rfl]
      have many : ¬ ((address, node) :: third :: rest).length ≤ 1 := by simp
      by_cases flag : s.giContextChanged = true
      · rw [if_pos flag]
        exact .changed many flag address store owns rfl
      · rw [if_neg flag]
        exact .waits many (Bool.not_eq_true _ ▸ flag) address store owns rfl

end Collecting

section Invariant

variable (today : Fin 7) (now : Nat) {s t u : Collection} {n : Nat} {alarm : SnmpAlarm}
  {cells : List (Nat × RtcList)} {history : List Happened}

structure Underway (s : Collection) : Prop where
  pending : ∃ alarm, s.alarms = [alarm] ∧ alarm.clientreg ≠ 0 ∧ alarm.clientreg < s.regnum ∧
    Tracked s alarm
  owned : ∃ cells, Owns s.store s.gpstHeadList cells
  idle : s.gpstHeadList = none → s.giContextChanged = false
  flagged : owed s.history = s.giContextChanged
  orderly : Orderly s.history

theorem Formed.underway (formed : Formed u t alarm) (positive : 0 < u.regnum)
    (unchanged : t.giContextChanged = false) (settled : owed history = false)
    (orderly : Orderly history) : Underway { t with alarms := [alarm], history := history } := by
  constructor
  · refine ⟨alarm, rfl, ?_, ?_, ?_⟩
    · rw [formed.clientreg]
      exact Nat.ne_of_gt positive
    · dsimp only
      rw [formed.clientreg, formed.regnum]
      exact Nat.lt_succ_self _
    · cases formed.tracked with
      | idle handler reg1 reg2 reg3 head => exact .idle handler reg1 reg2 reg3 head
      | collecting node handler head reg1 other => exact .collecting node handler head reg1 other
  · exact formed.owned
  · intro none
    exact unchanged
  · exact settled.trans unchanged.symm
  · exact orderly

theorem callback_underway (cause : Bool) (owns : Owns s.store s.gpstHeadList cells)
    (positive : 0 < s.regnum) (unchanged : s.giContextChanged = false)
    (orderly : Orderly (s.history ++ [.rebuilt cause])) :
    ∃ t alarm, (s.rtcCallback today now).map (·.happened (.rebuilt cause)) = some t ∧
      t.alarms = s.unregisterAll.alarms ++ [alarm] ∧ alarm.clientreg = s.regnum ∧
      Underway { t with alarms := [alarm] } := by
  obtain ⟨t, alarm, formed, is⟩ := rtcCallback_formed today now owns
  have same := unregisterAll_eq s
  have regnum : s.unregisterAll.regnum = s.regnum := by rw [same]
  have history : t.history = s.history := by rw [is.history, same]
  refine ⟨t.happened (.rebuilt cause), alarm, by rw [formed]; rfl, is.alarms,
    is.clientreg.trans regnum, ?_⟩
  have underway : Underway
      { t with alarms := [alarm], history := s.history ++ [.rebuilt cause] } := by
    apply is.underway
    · rw [regnum]
      exact positive
    · rw [is.changed, same]
      exact unchanged
    · exact owed_append _
    · exact orderly
  rw [← history] at underway
  exact underway

theorem renewed_underway {expiring : Nat} {cause : Bool}
    (owns : Owns s.store s.gpstHeadList cells)
    (known : ∀ alarm ∈ s.alarms, alarm.clientreg ≠ 0 ∧ (alarm.clientreg = expiring ∨
      alarm.clientreg = s.guiRTCReg1 ∨ alarm.clientreg = s.guiRTCReg2 ∨
        alarm.clientreg = s.guiRTCReg3))
    (below : expiring < s.regnum) (unchanged : s.giContextChanged = false)
    (orderly : Orderly (s.history ++ [.rebuilt cause])) :
    ∃ t, (s.rtcCallback today now).map (·.happened (.rebuilt cause)) = some t ∧
      Underway (t.snmpAlarmUnregister expiring) := by
  obtain ⟨t, alarm, done, alarms, clientreg, underway⟩ :=
    callback_underway today now cause owns (Nat.lt_of_le_of_lt (Nat.zero_le _) below) unchanged
      orderly
  have left : (t.alarms.filter fun alarm => alarm.clientreg != expiring) = [alarm] := by
    rw [alarms, List.filter_append]
    have old : (s.unregisterAll.alarms.filter fun alarm => alarm.clientreg != expiring) = [] := by
      rw [List.filter_eq_nil_iff]
      intro old member different
      obtain ⟨present, others⟩ := unregisterAll_alarms member
      obtain ⟨positive, known⟩ := known old present
      obtain ⟨first, second, third⟩ := others positive
      have equal : old.clientreg = expiring := by
        rcases known with here | here | here | here
        · exact here
        · exact absurd here first
        · exact absurd here second
        · exact absurd here third
      exact bne_iff_ne.mp different equal
    rw [old, List.nil_append, List.filter_cons_of_pos, List.filter_nil]
    rw [clientreg]
    exact bne_iff_ne.mpr (Nat.ne_of_gt below)
  rw [← left] at underway
  exact ⟨t, done, underway⟩

theorem Logged.known (logged : Logged n s t) (few : n ≤ 1) (alarms : s.alarms = [alarm])
    (positive : alarm.clientreg ≠ 0) (below : alarm.clientreg < s.regnum) :
    ∀ other ∈ t.alarms, other.clientreg ≠ 0 ∧
      (other.clientreg = alarm.clientreg ∨ other.clientreg = t.guiRTCReg1) := by
  intro other member
  rw [logged.alarms, alarms] at member
  rcases List.mem_append.mp member with old | new
  · rw [List.mem_singleton.mp old]
    exact ⟨positive, .inl rfl⟩
  · obtain ⟨clientreg, inside, same⟩ := List.mem_map.mp new
    subst same
    obtain ⟨low, high⟩ := List.mem_range'_1.mp inside
    dsimp only
    rw [logged.reg1]
    split
    · omega
    · omega

theorem clear_eq (positive : alarm.clientreg ≠ 0)
    (other : (s.guiRTCReg2 = alarm.clientreg ∧ s.guiRTCReg3 = 0) ∨
      (s.guiRTCReg2 = 0 ∧ s.guiRTCReg3 = alarm.clientreg)) :
    s.clear alarm.clientreg = { s with guiRTCReg2 := 0, guiRTCReg3 := 0 } := by
  unfold Collection.clear
  rcases other with ⟨reg2, reg3⟩ | ⟨reg2, reg3⟩
  · rw [if_pos reg2.symm]
    simp only [reg3]
  · rw [if_neg (by rw [reg2]; exact positive), if_pos reg3.symm]
    simp only [reg2]

theorem register_underway {node : Nat} (alarms : s.alarms = [alarm])
    (below : alarm.clientreg < s.regnum) (owns : Owns s.store (some node) cells)
    (head : s.gpstHeadList = some node) (reg1 : s.guiRTCReg1 = 0) (reg2 : s.guiRTCReg2 = 0)
    (flagged : owed s.history = s.giContextChanged) (orderly : Orderly s.history) :
    Underway (Collection.snmpAlarmUnregister
      { s.snmpAlarmRegister (.rtcCollectStoreVariables node) with guiRTCReg3 := s.regnum }
      alarm.clientreg) := by
  have left : ((s.alarms ++ [(⟨s.regnum, .rtcCollectStoreVariables node⟩ : SnmpAlarm)]).filter
      fun other => other.clientreg != alarm.clientreg) =
        [⟨s.regnum, .rtcCollectStoreVariables node⟩] := by
    rw [alarms, List.filter_append, List.filter_cons_of_neg (by simp), List.filter_nil,
      List.nil_append, List.filter_cons_of_pos, List.filter_nil]
    exact bne_iff_ne.mpr (Nat.ne_of_gt below)
  constructor
  · refine ⟨⟨s.regnum, .rtcCollectStoreVariables node⟩, left, ?_, Nat.lt_succ_self _, ?_⟩
    · dsimp only
      omega
    · exact .collecting node rfl head reg1 (.inr ⟨reg2, rfl⟩)
  · exact ⟨cells, by rw [← head] at owns; exact owns⟩
  · intro none
    have here : s.gpstHeadList = Option.none := none
    rw [head] at here
    cases here
  · exact flagged
  · exact orderly

theorem collect_underway {node : Nat} {retrievals : List Retrieval} (inv : Underway s)
    (alarms : s.alarms = [alarm]) (positive : alarm.clientreg ≠ 0)
    (below : alarm.clientreg < s.regnum) (head : s.gpstHeadList = some node)
    (reg1 : s.guiRTCReg1 = 0)
    (other : (s.guiRTCReg2 = alarm.clientreg ∧ s.guiRTCReg3 = 0) ∨
      (s.guiRTCReg2 = 0 ∧ s.guiRTCReg3 = alarm.clientreg))
    (few : s.log.failures s.due retrievals ≤
      if s.Exhausted ∨ s.giContextChanged = true then 1 else 0)
    (quiet : s.Exhausted → s.giContextChanged = false) :
    ∃ t, s.rtcCollectStoreVariables today now alarm.clientreg node retrievals = some t ∧
      Underway (t.snmpAlarmUnregister alarm.clientreg) := by
  obtain ⟨cells, owns⟩ := inv.owned
  rw [head] at owns
  cases cells with
  | nil => cases owns.segment
  | cons first cells =>
    obtain ⟨address, value⟩ := first
    obtain rfl := Option.some.inj owns.segment.1
    have contents := contents_segment owns.segment owns.length
    have cleared : (s.happened .collected).clear alarm.clientreg =
        { s with
          guiRTCReg2 := 0, guiRTCReg3 := 0, history := s.history ++ [.collected] } := by
      unfold Collection.happened
      exact clear_eq (s := { s with history := s.history ++ [.collected] }) positive other
    obtain ⟨last, value', rest, t, loop, owned, headLast, split, logged⟩ :=
      collectGroup_eq
        (s := { s with guiRTCReg2 := 0, guiRTCReg3 := 0, history := s.history ++ [.collected] })
        retrievals owns head (Nat.lt_succ_of_lt owns.length)
    have due : dueOf (value :: cells.map Prod.snd) = s.due := by
      rw [Collection.due, head, contents]
      rfl
    have left : s.left = rest.map Prod.snd := by
      rw [Collection.left, head, contents]
      exact split.symm
    rw [due] at logged
    unfold Collection.rtcCollectStoreVariables
    dsimp only
    rw [cleared, loop]
    dsimp only
    have changed : t.giContextChanged = s.giContextChanged := logged.changed
    have history : t.history = s.history ++ [.collected] := logged.history
    have known : s.log.failures s.due retrievals ≤ 1 →
        ∀ other ∈ t.alarms, other.clientreg ≠ 0 ∧
          (other.clientreg = alarm.clientreg ∨ other.clientreg = t.guiRTCReg1 ∨
            other.clientreg = t.guiRTCReg2 ∨ other.clientreg = t.guiRTCReg3) := by
      intro few other member
      have known := logged.known few alarms positive below other member
      refine ⟨known.1, ?_⟩
      rcases known.2 with here | here
      · exact .inl here
      · exact .inr (.inl here)
    have regnum : alarm.clientreg < t.regnum := by
      have same : t.regnum = s.regnum + s.log.failures s.due retrievals := logged.regnum
      omega
    have renewed : ∀ cause : Bool, (cause = true → s.giContextChanged = true) →
        Orderly (t.history ++ [.rebuilt cause]) := by
      intro cause called
      rw [history]
      apply inv.orderly.renewed
      rw [inv.flagged]
      exact called
    have exhausted : s.Exhausted ↔ rest.length ≤ 1 := by
      rw [Collection.Exhausted, left, List.length_map]
    cases continueList_cases today now owned with
    | exhausted short store owns is =>
      rw [if_pos (.inl (exhausted.mpr short))] at few
      rw [is]
      exact renewed_underway today now
        (s := { t with store := store, gpstHeadList := none }) owns
        (known few) regnum (changed.trans (quiet (exhausted.mpr short)))
        (renewed false fun called => by cases called)
    | changed long flag next store owns is =>
      rw [if_pos (.inr (changed.symm.trans flag))] at few
      rw [is]
      exact renewed_underway today now
        (s := { t with
          store := store, gpstHeadList := some next, giContextChanged := false })
        owns (known few) regnum rfl (renewed true fun _ => changed.symm.trans flag)
    | waits long flag next store owns is =>
      have unchanged := changed.symm.trans flag
      rw [if_neg (by rw [exhausted, unchanged]; simpa using long)] at few
      rw [Nat.le_zero.mp few] at logged
      have same : t.alarms = [alarm] := by
        rw [logged.alarms]
        exact (List.append_nil _).trans alarms
      refine ⟨_, is, ?_⟩
      apply register_underway (s := { t with store := store, gpstHeadList := some next }) same
        regnum owns rfl
      · exact logged.reg1.trans reg1
      · exact logged.reg2
      · rw [history, changed, owed_append]
        exact inv.flagged
      · rw [history]
        exact inv.orderly.collecting (inv.flagged.trans unchanged)

theorem collect_runs {node : Nat} (retrievals : List Retrieval) (uiReg : Nat)
    (owned : ∃ cells, Owns s.store s.gpstHeadList cells) (head : s.gpstHeadList = some node) :
    ∃ t, s.rtcCollectStoreVariables today now uiReg node retrievals = some t := by
  obtain ⟨cells, owns⟩ := owned
  rw [head] at owns
  have same : ((s.happened .collected).clear uiReg).store = s.store ∧
      ((s.happened .collected).clear uiReg).gpstHeadList = some node := by
    unfold Collection.clear
    split
    · exact ⟨rfl, head⟩
    · split
      · exact ⟨rfl, head⟩
      · exact ⟨rfl, head⟩
  unfold Collection.rtcCollectStoreVariables
  dsimp only
  generalize (s.happened .collected).clear uiReg = u at same ⊢
  rw [← same.1] at owns
  cases cells with
  | nil => cases owns.segment
  | cons first cells =>
    obtain ⟨address, value⟩ := first
    obtain rfl := Option.some.inj owns.segment.1
    obtain ⟨last, value', rest, t, loop, owned, _⟩ :=
      collectGroup_eq retrievals owns same.2 (Nat.lt_succ_of_lt owns.length)
    rw [loop]
    dsimp only
    cases continueList_cases today now owned with
    | exhausted _ store owns is =>
      obtain ⟨u, _, formed, _⟩ := rtcCallback_formed today now
        (s := { t with store := store, gpstHeadList := none }) owns
      exact ⟨_, by rw [is, formed]; rfl⟩
    | changed _ _ next store owns is =>
      obtain ⟨u, _, formed, _⟩ := rtcCallback_formed today now
        (s := { t with
          store := store, gpstHeadList := some next, giContextChanged := false }) owns
      exact ⟨_, by rw [is, formed]; rfl⟩
    | waits _ _ next store owns is => exact ⟨_, is⟩

theorem commit_runs {rows : List Row} {written : Bool}
    (owned : ∃ cells, Owns s.store s.gpstHeadList cells) :
    ∃ t, s.collectDataTableSetCommit today now rows written = some t := by
  obtain ⟨cells, owns⟩ := owned
  unfold Collection.collectDataTableSetCommit
  dsimp only
  split
  · split
    · obtain ⟨u, _, formed, _⟩ := rtcCallback_formed today now
        (s := { s.happened .committed with rows := rows, giContextChanged := false }) owns
      exact ⟨_, by rw [formed]; rfl⟩
    · exact ⟨_, rfl⟩
  · exact ⟨_, rfl⟩

theorem expire_eq (retrievals : List Retrieval) (alarms : s.alarms = [alarm]) :
    s.step (.expire alarm.clientreg today now retrievals) =
      (s.runAlarm today now alarm retrievals).map (·.snmpAlarmUnregister alarm.clientreg) := by
  have found : (s.alarms.find? fun other => other.clientreg == alarm.clientreg) = some alarm := by
    rw [alarms]
    simp
  rw [Collection.step, found]

theorem expire_underway {retrievals : List Retrieval} (inv : Underway s)
    (alarms : s.alarms = [alarm]) (positive : alarm.clientreg ≠ 0)
    (below : alarm.clientreg < s.regnum) (tracked : Tracked s alarm)
    (calm : Calm s (.expire alarm.clientreg today now retrievals)) :
    ∃ t, s.runAlarm today now alarm retrievals = some t ∧
      Underway (t.snmpAlarmUnregister alarm.clientreg) := by
  unfold Collection.runAlarm
  cases tracked with
  | idle handler reg1 reg2 reg3 head =>
    rw [handler]
    obtain ⟨cells, owns⟩ := inv.owned
    apply renewed_underway today now owns
    · intro other member
      rw [alarms, List.mem_singleton] at member
      subst member
      exact ⟨positive, .inl rfl⟩
    · exact below
    · exact inv.idle head
    · apply inv.orderly.rebuilt
      intro called
      cases called
  | collecting node handler head reg1 other =>
    rw [handler]
    exact collect_underway today now inv alarms positive below head reg1 other calm.1 calm.2

theorem commit_underway (rows : List Row) (inv : Underway s) :
    ∃ t, s.collectDataTableSetCommit today now rows true = some t ∧ Underway t := by
  obtain ⟨alarm, alarms, positive, below, tracked⟩ := inv.pending
  obtain ⟨cells, owns⟩ := inv.owned
  have orderly := inv.orderly.committed
  unfold Collection.collectDataTableSetCommit
  rw [if_pos rfl]
  cases tracked with
  | idle handler reg1 reg2 reg3 head =>
    rw [if_pos (by rw [Collection.happened, reg1]; exact positive)]
    obtain ⟨t, alarm', done, left, _, underway⟩ := callback_underway today now true
      (s := { s.happened .committed with rows := rows, giContextChanged := false }) owns
      (Nat.lt_of_le_of_lt (Nat.zero_le _) below) rfl (orderly.rebuilt fun _ => owed_append _)
    refine ⟨t, done, ?_⟩
    have none : Collection.alarms (Collection.unregisterAll
        { s.happened .committed with rows := rows, giContextChanged := false }) = [] := by
      apply List.eq_nil_iff_forall_not_mem.mpr
      intro old member
      obtain ⟨present, others⟩ := unregisterAll_alarms member
      have same : old = alarm := by
        rw [Collection.happened, alarms] at present
        exact List.mem_singleton.mp present
      subst same
      exact (others positive).1 reg1.symm
    rw [none] at left
    rw [← List.nil_append [alarm'], ← left] at underway
    exact underway
  | collecting node handler head reg1 other =>
    rw [if_neg (by rw [Collection.happened, reg1]; exact not_not.mpr rfl)]
    refine ⟨_, rfl, ?_⟩
    constructor
    · exact ⟨alarm, alarms, positive, below, .collecting node handler head reg1 other⟩
    · exact ⟨cells, owns⟩
    · intro none
      have here : s.gpstHeadList = Option.none := none
      rw [head] at here
      cases here
    · exact owed_append _
    · exact orderly

theorem Underway.putLog (inv : Underway s) (log : LogFile) : Underway (s.putLog log) := by
  obtain ⟨alarm, alarms, positive, below, tracked⟩ := inv.pending
  constructor
  · refine ⟨alarm, alarms, positive, below, ?_⟩
    cases tracked with
    | idle handler reg1 reg2 reg3 head => exact .idle handler reg1 reg2 reg3 head
    | collecting node handler head reg1 other => exact .collecting node handler head reg1 other
  · exact inv.owned
  · exact inv.idle
  · exact inv.flagged
  · exact inv.orderly

theorem step_underway {event : Event} (inv : Underway s) (calm : Calm s event)
    (stepped : s.step event = some t) : Underway t := by
  cases event with
  | commit rows written today now =>
    have stored : written = true := calm
    subst stored
    obtain ⟨u, done, underway⟩ := commit_underway today now rows inv
    obtain rfl := Option.some.inj (done.symm.trans stepped)
    exact underway
  | expire clientreg today now retrievals =>
    obtain ⟨alarm, alarms, positive, below, tracked⟩ := inv.pending
    have same : alarm.clientreg = clientreg := by
      by_contra different
      have none : (s.alarms.find? fun other => other.clientreg == clientreg) = Option.none := by
        rw [alarms]
        simp [different]
      rw [Collection.step, none] at stepped
      cases stepped
    subst same
    obtain ⟨u, done, underway⟩ := expire_underway today now inv alarms positive below tracked calm
    rw [expire_eq today now retrievals alarms, done] at stepped
    obtain rfl := Option.some.inj stepped
    exact underway
  | transferBegins =>
    obtain rfl := Option.some.inj stepped
    exact inv.putLog _
  | transferEnds opens =>
    have opened : s.log.forgotten.defaultFails opens = false := calm
    have same : (s.putLog s.log.forgotten).rtcCheckLogFileName opens =
        s.putLog (s.log.forgotten.checked opens) := by
      rw [Collection.rtcCheckLogFileName, Collection.putLog, opened]
      rfl
    rw [Collection.step, same] at stepped
    obtain rfl := Option.some.inj stepped
    exact inv.putLog _
  | setLogFile name =>
    obtain rfl := Option.some.inj stepped
    exact inv.putLog _

theorem init_underway {today : Fin 7} {now : Nat} {rows : List Row} {name : String}
    (began : Collection.init rows name today now = some s) : Underway s := by
  obtain ⟨t, alarm, done, alarms, _, underway⟩ := callback_underway today now false
    (s :=
      { rows := rows, alarms := [], regnum := 1, guiRTCReg1 := 0, guiRTCReg2 := 0, guiRTCReg3 := 0
        giContextChanged := false, gpstHeadList := none, store := Store.empty
        log := ⟨name, "", 0, false⟩, history := [] })
    Owns.empty Nat.one_pos rfl
    (Orderly.rebuilt
      ⟨fun front back split => by simp at split, fun front back split => by simp at split⟩
      fun called => by cases called)
  rw [Collection.init, done] at began
  obtain rfl := Option.some.inj began
  have left : t.alarms = [alarm] := alarms
  rw [← left] at underway
  exact underway

theorem Underway.steady (inv : Underway s) : Steady s := by
  obtain ⟨alarm, alarms, positive, _, tracked⟩ := inv.pending
  constructor
  · refine ⟨alarm, alarms, positive, ?_⟩
    unfold Collection.Recorded
    cases tracked with
    | idle handler reg1 reg2 reg3 head =>
      rw [handler]
      exact ⟨reg1, reg2, reg3⟩
    | collecting node handler head reg1 other =>
      rw [handler]
      exact ⟨reg1, other⟩
  · intro other member node works
    rw [alarms, List.mem_singleton] at member
    subst member
    cases tracked with
    | idle handler reg1 reg2 reg3 head =>
      rw [works] at handler
      cases handler
    | collecting node' handler head reg1 other =>
      rw [works] at handler
      obtain rfl := Handler.rtcCollectStoreVariables.inj handler
      obtain ⟨cells, owns⟩ := inv.owned
      have segment := owns.segment
      rw [head] at segment
      cases cells with
      | nil => cases segment
      | cons first cells =>
        obtain ⟨start, next, held, _⟩ := segment
        rw [Option.some.inj start]
        exact ⟨by rw [head, Option.some.inj start], _, held⟩
  · exact inv.owned
  · exact inv.orderly.inTime
  · exact inv.orderly.once
  · intro other member today now retrievals
    rw [alarms, List.mem_singleton] at member
    subst member
    rw [expire_eq today now retrievals alarms, Collection.runAlarm]
    cases tracked with
    | idle handler reg1 reg2 reg3 head =>
      rw [handler]
      obtain ⟨cells, owns⟩ := inv.owned
      obtain ⟨t, _, done, _⟩ := rtcCallback_formed today now owns
      exact ⟨_, by dsimp only; rw [done]; rfl⟩
    | collecting node handler head reg1 _ =>
      rw [handler]
      obtain ⟨t, done⟩ := collect_runs today now retrievals
        other.clientreg inv.owned head
      exact ⟨_, by dsimp only; rw [done]; rfl⟩
  · intro rows written today now
    exact commit_runs today now inv.owned

/-- In a run whose events are calm, collection goes on with one alarm and one live list, and each
change makes one new list in time. -/
theorem collection_steady {today : Fin 7} {now : Nat} {rows : List Row} {name : String}
    {events : List Event}
    (began : Collection.init rows name today now = some s)
    (calm : Along Collection.step Calm s events)
    (executed : run Collection.step s events = some t) : Steady t := by
  have kept : ∀ s event t, Underway s → Calm s event → Collection.step s event = some t →
      Underway t := by
    intro s event t inv calm stepped
    exact step_underway inv calm stepped
  exact (run_invariant kept (init_underway began) calm executed).steady

end Invariant

section Examples

def wholeMinute : Row := { tenSeconds with days := fun _ => ⟨0, 6000, 10⟩ }

/-- The table changes behind the first collection, and the second one forms the list again, whose
first node is due a second later. -/
def changedTable : List Event :=
  [.expire 1 0 10 [], .commit [{ tenSeconds with days := fun _ => ⟨0, 10000, 10⟩ }] true 0 12,
    .expire 2 0 20 [], .expire 3 0 21 []]

theorem collection_steady_changedTable :
    ∃ s t, Collection.init [wholeMinute] "" 0 5 = some s ∧
      run Collection.step s changedTable = some t ∧ t.history =
        [.rebuilt false, .collected, .committed, .collected, .rebuilt true, .collected] ∧
      Steady t := by
  have computed : (Collection.init [wholeMinute] "" 0 5).any (fun s =>
      decide (Along Collection.step Calm s changedTable) &&
        (run Collection.step s changedTable).any fun t => decide (t.history =
          [.rebuilt false, .collected, .committed, .collected, .rebuilt true, .collected])) =
      true := by
    decide +kernel
  obtain ⟨s, began, both⟩ := (Option.any_eq_true _ _).mp computed
  obtain ⟨calm, ran⟩ := Bool.and_eq_true_iff.mp both
  obtain ⟨t, executed, history⟩ := run_of_any ran
  exact ⟨s, t, began, executed, history, collection_steady began (of_decide_eq_true calm) executed⟩

/-- The container file can be written. -/
def Written (_ : Collection) : Event → Prop
  | .commit _ written _ _ => written = true
  | _ => True

instance (s : Collection) (event : Event) : Decidable (Written s event) := by
  cases event with
  | commit _ written _ _ => exact inferInstanceAs (Decidable (written = true))
  | expire _ _ _ _ => exact .isTrue trivial
  | transferBegins => exact .isTrue trivial
  | transferEnds _ => exact .isTrue trivial
  | setLogFile _ => exact .isTrue trivial

/-- The value of the first node cannot be logged. -/
def unlogged : List Event := [.expire 1 0 10 [⟨true, false, ⟨true, false⟩, ⟨true, true⟩⟩]]

theorem not_steady (events : List Event) {P : Collection → Prop} [DecidablePred P]
    (computed : (Collection.init [tenSeconds] "" 0 5).any (fun s =>
      decide (Along Collection.step Written s events) &&
        (run Collection.step s events).any fun t => decide (P t)) = true)
    (violates : ∀ t, P t → ¬ Steady t) :
    ¬ ∀ s t, Collection.init [tenSeconds] "" 0 5 = some s →
      Along Collection.step Written s events → run Collection.step s events = some t →
      Steady t := by
  intro steady
  obtain ⟨s, began, both⟩ := (Option.any_eq_true _ _).mp computed
  obtain ⟨written, ran⟩ := Bool.and_eq_true_iff.mp both
  obtain ⟨t, executed, holds⟩ := run_of_any ran
  exact violates t holds (steady s t began (of_decide_eq_true written) executed)

theorem alarm_doubled :
    ¬ ∀ rows name today now events s t, Collection.init rows name today now = some s →
      Along Collection.step Written s events → run Collection.step s events = some t →
      Steady t := by
  intro steady
  apply not_steady unlogged (P := fun t => t.alarms.length = 2)
  · decide +kernel
  · intro t two steady
    obtain ⟨alarm, alarms, _⟩ := steady.pending
    rw [alarms] at two
    cases two
  · exact steady [tenSeconds] "" 0 5 unlogged

theorem rebuilt_twice :
    ¬ ∀ s t, Collection.init [tenSeconds] "" 0 5 = some s →
      Along Collection.step Written s changedTable → run Collection.step s changedTable = some t →
      Steady t := by
  apply not_steady changedTable (P := fun t => t.history =
    [.rebuilt false, .collected, .committed, .collected, .rebuilt false, .collected] ++
      .rebuilt true :: [])
  · decide +kernel
  · intro t history steady
    have called := steady.once _ _ history
    cases called

end Examples

end EveAgent.Rtcm
