import EveAgent.TrapQueue.Threads

namespace EveAgent.TrapQueue

open Machine

variable {Pdu : Type*} {agent : Agent} {signalled : Bool} {s t : State Pdu} {queue : List Pdu}

section Calls

/-- What holds of a call, given the holder of the lock and the queue. -/
structure CallInv (agent : Agent) (queueLock : Option Party) (queue : List Pdu) (index : Nat)
    (call : Call Pdu) : Prop where
  lock : queueLock = some (.listenTrap index) ↔ call.pc.inside = true
  full : call.full = true → call.pc = .dropUnlock ∨ call.pc = .returned
  dropping : call.pc = .dropUnlock → agent.afterDrop = .returned
  present : call.pc = .advanceRear ∨ call.pc = .store ∨ call.pc = .signal → queue ≠ []

theorem set_cases {calls : List (Call Pdu)} {index other : Nat} {call call' : Call Pdu}
    (member : (calls.set index call')[other]? = some call) :
    (other = index ∧ call = call') ∨ (other ≠ index ∧ calls[other]? = some call) := by
  rw [List.getElem?_set] at member
  split at member
  · rename_i same
    split at member
    · exact .inl ⟨same.symm, (Option.some.inj member).symm⟩
    · cases member
  · rename_i different
    exact .inr ⟨fun same => different same.symm, member⟩

theorem CallInv.relock {holder holder' : Option Party} {index : Nat} {call : Call Pdu}
    (inv : CallInv agent holder queue index call) (before : holder ≠ some (.listenTrap index))
    (after : holder' ≠ some (.listenTrap index)) : CallInv agent holder' queue index call := by
  have outside : ¬ call.pc.inside = true := fun inside => before (inv.lock.mpr inside)
  exact ⟨⟨fun holds => absurd holds after, fun inside => absurd inside outside⟩,
    inv.full, inv.dropping, inv.present⟩

theorem CallInv.mono {holder : Option Party} {queue' : List Pdu} {index : Nat} {call : Call Pdu}
    (inv : CallInv agent holder queue index call) (nonempty : queue ≠ [] → queue' ≠ []) :
    CallInv agent holder queue' index call :=
  ⟨inv.lock, inv.full, inv.dropping, fun putting => nonempty (inv.present putting)⟩

theorem settled_call {index : Nat} (call : Call Pdu)
    (held : s.queueLock = some (.listenTrap index))
    (found : s.calls[index]? = some call) : s.settled = call.settle s.stCB := by
  simp only [State.settled, held, found]

theorem unlockBy_held {party : Party} (held : s.queueLock = some party) :
    s.unlockBy party = { s with queueLock := none } := by
  simp [State.unlockBy, held]

end Calls

variable [DecidableEq Pdu]

section Property

/-- The queue is a first-in first-out queue with one slot less than the ring: it accepts a
PDU exactly when it has room, what `ParseTrap` has been called with and what is on its way
is what was accepted, in this order, no entry is taken out that was not put in, a call that
finds the queue full writes nothing, and the lock is released by its holder. -/
structure LosslessFifo (agent : Agent) (s : State Pdu) : Prop where
  fifo : ∃ queue, QueueOp.replay (agent.maxElement - 1) [] s.ops = some queue ∧
    s.settled.Holds queue ∧
    (s.ops.filterMap QueueOp.accepted).map some = s.parsed ++ s.inHand ++ queue.map some
  noNull : none ∉ s.ops.filterMap QueueOp.taken
  untouched : s.fullTouched = false
  locked : s.badUnlock = false

end Property

section Invariant

/-- Where the thread takes it for granted that the queue is not empty; `signalled` tells
whether a wait ends with a signal only. -/
def ProcessPc.awaits (signalled : Bool) : ProcessPc → Bool
  | .woken => signalled
  | .unlockAfterWait => true
  | .relock => true
  | .read => true
  | _ => false

structure Inv (agent : Agent) (signalled : Bool) (s : State Pdu) (queue : List Pdu) : Prop where
  size : s.stCB.slots.length = agent.maxElement
  replayed : QueueOp.replay (agent.maxElement - 1) [] s.ops = some queue
  holds : s.settled.Holds queue
  processLock : s.queueLock = some .processTrapMsg ↔ s.processPc.inside = true
  calls : ∀ index call, s.calls[index]? = some call → CallInv agent s.queueLock queue index call
  present : ∀ index, s.queueLock = some (.listenTrap index) → index < s.calls.length
  awaited : s.processPc.awaits signalled = true → queue ≠ []
  handed : s.parsed ++ s.inHand = s.ops.filterMap QueueOp.taken
  untouched : s.fullTouched = false
  locked : s.badUnlock = false

theorem Inv.lossless (inv : Inv agent signalled s queue) : LosslessFifo agent s := by
  have fifo := QueueOp.replay_fifo inv.replayed
  rw [List.nil_append, ← inv.handed] at fifo
  constructor
  · exact ⟨queue, inv.replayed, inv.holds, fifo⟩
  · rw [← inv.handed]
    intro null
    have inside := List.mem_append_left (queue.map some) null
    rw [← fifo] at inside
    simp at inside
  · exact inv.untouched
  · exact inv.locked

theorem inv_start (agent : Agent) (signalled : Bool) :
    Inv agent signalled (initCBuffer agent : State Pdu) [] := by
  constructor
  · simp [initCBuffer, Ring.empty]
  · rfl
  · exact Ring.empty_holds agent.positive
  · simp [initCBuffer, ProcessPc.inside]
  · intro index call member
    cases member
  · intro index holder
    cases holder
  · simp [initCBuffer, ProcessPc.awaits]
  · rfl
  · rfl
  · rfl

theorem Inv.calls_step (inv : Inv agent signalled s queue) {index : Nat} {call' : Call Pdu}
    {queue' : List Pdu} (nonempty : queue ≠ [] → queue' ≠ [])
    (stepped : CallInv agent s.queueLock queue' index call') (other : Nat) (called : Call Pdu)
    (member : (s.calls.set index call')[other]? = some called) :
    CallInv agent s.queueLock queue' other called := by
  rcases set_cases member with ⟨rfl, rfl⟩ | ⟨_, old⟩
  · exact stepped
  · exact (inv.calls other called old).mono nonempty

end Invariant

section Listen

variable {index : Nat} {call call' : Call Pdu} {cloned : Bool}

theorem Inv.held (inv : Inv agent signalled s queue) (found : s.calls[index]? = some call)
    (inside : call.pc.inside = true) : s.queueLock = some (.listenTrap index) :=
  (inv.calls index call found).lock.mpr inside

theorem Inv.processOutside (inv : Inv agent signalled s queue)
    (other : s.queueLock ≠ some .processTrapMsg) : s.processPc.inside = false := by
  rw [← Bool.not_eq_true, ← inv.processLock]
  exact other

theorem Inv.listen_lock (inv : Inv agent signalled s queue) (found : s.calls[index]? = some call)
    (atPc : call.pc = .lock) (stepped : listenStep agent s index call cloned = some t) :
    Inv agent signalled t queue := by
  simp only [listenStep, atPc] at stepped
  split at stepped
  · rename_i free
    obtain rfl := Option.some.inj stepped
    have inTable := (List.getElem?_eq_some_iff.mp found).1
    have outside := inv.processOutside (by simp [free])
    have holds := inv.holds
    rw [State.settled, free] at holds
    constructor
    · exact inv.size
    · exact inv.replayed
    · rw [settled_call { call with pc := .testFull } rfl (by simp [State.setCall, inTable])]
      exact holds
    · simp [outside, State.setCall]
    · intro other called member
      rcases set_cases member with ⟨rfl, rfl⟩ | ⟨different, old⟩
      · refine ⟨by simp [ListenPc.inside], ?_, by simp, by simp⟩
        intro full
        have before := (inv.calls other call found).full full
        simp [atPc] at before
      · have before := inv.calls other called old
        rw [free] at before
        exact before.relock (by simp) (by simpa using different.symm)
    · intro other holder
      simp only [Option.some.injEq, Party.listenTrap.injEq] at holder
      subst holder
      simpa [State.setCall] using inTable
    · exact inv.awaited
    · exact inv.handed
    · exact inv.untouched
    · exact inv.locked
  · cases stepped

theorem Inv.listen_leave (inv : Inv agent signalled s queue) (found : s.calls[index]? = some call)
    (inside : call.pc.inside = true) (settled : call.settle s.stCB = s.stCB)
    (returned : call'.pc = .returned) :
    Inv agent signalled ((s.unlockBy (.listenTrap index)).setCall index call') queue := by
  have held := inv.held found inside
  have outside := inv.processOutside (by simp [held])
  have holds := inv.holds
  rw [settled_call call held found, settled] at holds
  constructor
  · exact inv.size
  · exact inv.replayed
  · exact holds
  · simp [State.setCall, State.unlockBy, outside]
  · intro other called member
    rcases set_cases member with ⟨rfl, rfl⟩ | ⟨different, old⟩
    · refine ⟨?_, fun _ => .inr returned, by simp [returned], by simp [returned]⟩
      simp [State.setCall, State.unlockBy, returned, ListenPc.inside]
    · have before := inv.calls other called old
      exact before.relock (by simpa [held] using different.symm)
        (by simp [State.setCall, State.unlockBy])
  · intro other holder
    cases holder
  · exact inv.awaited
  · exact inv.handed
  · exact inv.untouched
  · simp [State.setCall, State.unlockBy, inv.locked, held]

theorem Inv.listen_inside (inv : Inv agent signalled s queue) (call' : Call Pdu) {queue' : List Pdu}
    (found : s.calls[index]? = some call) (inside : call.pc.inside = true)
    (lock : t.queueLock = s.queueLock) (calls : t.calls = s.calls.set index call')
    (process : t.processPc = s.processPc ∨
      (s.processPc = .waiting ∧ t.processPc = .woken ∧ queue ≠ []))
    (clone : t.pstClonePDU = s.pstClonePDU) (parsed : t.parsed = s.parsed)
    (touched : t.fullTouched = false) (bad : t.badUnlock = s.badUnlock)
    (taken : t.ops.filterMap QueueOp.taken = s.ops.filterMap QueueOp.taken)
    (size : t.stCB.slots.length = agent.maxElement)
    (replayed : QueueOp.replay (agent.maxElement - 1) [] t.ops = some queue')
    (holds : (call'.settle t.stCB).Holds queue') (grown : queue ≠ [] → queue' ≠ [])
    (inside' : call'.pc.inside = true)
    (full : call'.full = true → call'.pc = .dropUnlock ∨ call'.pc = .returned)
    (dropping : call'.pc = .dropUnlock → agent.afterDrop = .returned)
    (present : call'.pc = .advanceRear ∨ call'.pc = .store ∨ call'.pc = .signal → queue' ≠ []) :
    Inv agent signalled t queue' := by
  have held := inv.held found inside
  have inTable := (List.getElem?_eq_some_iff.mp found).1
  constructor
  · exact size
  · exact replayed
  · rw [settled_call call' (lock.trans held) (by rw [calls, List.getElem?_set_self inTable])]
    exact holds
  · rw [lock]
    rcases process with same | ⟨before, after, _⟩
    · rw [same]
      exact inv.processLock
    · rw [after, held]
      simp [ProcessPc.inside]
  · rw [lock, calls]
    apply inv.calls_step grown
    exact ⟨by simp [held, inside'], full, dropping, present⟩
  · rw [lock, calls, List.length_set]
    exact inv.present
  · intro reading
    apply grown
    rcases process with same | ⟨_, _, nonempty⟩
    · rw [same] at reading
      exact inv.awaited reading
    · exact nonempty
  · have inHand : t.inHand = s.inHand := by
      rcases process with same | ⟨before, after, _⟩
      · simp only [State.inHand, same, clone]
      · simp only [State.inHand, before, after]
    rw [parsed, inHand, taken]
    exact inv.handed
  · exact touched
  · rw [bad]
    exact inv.locked

theorem Inv.notFull (inv : Inv agent signalled s queue) (found : s.calls[index]? = some call)
    (full : call.pc ≠ .dropUnlock) (called : call.pc ≠ .returned) :
    call.full = false := by
  rw [← Bool.not_eq_true]
  intro found'
  rcases (inv.calls index call found).full found' with drop | returned
  · exact full drop
  · exact called returned

theorem Inv.listen_testFull (inv : Inv agent signalled s queue)
    (found : s.calls[index]? = some call)
    (atPc : call.pc = .testFull) (allowed : agent.afterDrop ≠ .returned → ¬ s.stCB.isFull)
    (stepped : listenStep agent s index call cloned = some t) :
    ∃ queue', Inv agent signalled t queue' := by
  have inside : call.pc.inside = true := by rw [atPc]; rfl
  have full : call.full = false := inv.notFull found (by simp [atPc]) (by simp [atPc])
  have holds := inv.holds
  rw [settled_call call (inv.held found inside) found, Call.settle, atPc] at holds
  have room := holds.room
  have capacity := holds.isFull_iff
  rw [inv.size] at room capacity
  simp only [listenStep, atPc] at stepped
  split at stepped
  · rename_i isFull
    obtain rfl := Option.some.inj stepped
    refine ⟨queue, inv.listen_inside { call with pc := .dropUnlock, full := true } found inside rfl
      rfl (.inl rfl) rfl rfl inv.untouched rfl ?_ inv.size ?_ holds id rfl (fun _ => .inl rfl) ?_
      (by simp)⟩
    · simp [List.filterMap_append, QueueOp.taken]
    · apply QueueOp.replay_append inv.replayed
      have atCapacity := capacity.mp isFull
      rw [QueueOp.apply, if_neg (by omega)]
    · intro _
      by_contra continues
      exact allowed continues isFull
  · rename_i notFull
    obtain rfl := Option.some.inj stepped
    refine ⟨queue ++ [call.pdu], inv.listen_inside { call with pc := .advanceRear } found inside
      rfl rfl (.inl rfl) rfl rfl inv.untouched rfl ?_ inv.size ?_ (holds.put notFull call.pdu)
      (by simp) rfl (by simp [full]) (by simp) (by simp)⟩
    · simp [List.filterMap_append, QueueOp.taken]
    · apply QueueOp.replay_append inv.replayed
      rw [capacity] at notFull
      rw [QueueOp.apply, if_pos (by omega)]

theorem Inv.listen (inv : Inv agent signalled s queue) (found : s.calls[index]? = some call)
    (allowed : call.pc = .testFull → agent.afterDrop ≠ .returned → ¬ s.stCB.isFull)
    (copied : call.pc = .store → cloned = true)
    (stepped : listenStep agent s index call cloned = some t) :
    ∃ queue', Inv agent signalled t queue' := by
  have called := inv.calls index call found
  cases atPc : call.pc with
  | lock => exact ⟨queue, inv.listen_lock found atPc stepped⟩
  | testFull => exact inv.listen_testFull found atPc (allowed atPc) stepped
  | dropUnlock =>
    simp only [listenStep, atPc] at stepped
    obtain rfl := Option.some.inj stepped
    have returns := called.dropping atPc
    refine ⟨queue, inv.listen_leave found (by rw [atPc]; rfl) ?_ returns⟩
    rw [Call.settle, atPc]
  | advanceRear =>
    have inside : call.pc.inside = true := by rw [atPc]; rfl
    have full : call.full = false := inv.notFull found (by simp [atPc]) (by simp [atPc])
    have holds := inv.holds
    rw [settled_call call (inv.held found inside) found, Call.settle, atPc] at holds
    simp only [listenStep, atPc] at stepped
    obtain rfl := Option.some.inj stepped
    exact ⟨queue, inv.listen_inside { call with pc := .store } found inside rfl rfl
      (.inl rfl) rfl rfl (by simp [inv.untouched, full]) rfl rfl inv.size inv.replayed holds id
      rfl (by simp [full]) (by simp) (fun _ => called.present (.inl atPc))⟩
  | store =>
    have inside : call.pc.inside = true := by rw [atPc]; rfl
    have full : call.full = false := inv.notFull found (by simp [atPc]) (by simp [atPc])
    have holds := inv.holds
    rw [settled_call call (inv.held found inside) found, Call.settle, atPc] at holds
    have size : ∀ entry, (s.stCB.store entry).slots.length = agent.maxElement := by
      intro entry
      rw [← inv.size]
      exact List.length_set
    simp only [listenStep, atPc, copied atPc, if_true] at stepped
    obtain rfl := Option.some.inj stepped
    exact ⟨queue, inv.listen_inside { call with pc := .signal } found inside rfl rfl
      (.inl rfl) rfl rfl (by simp [inv.untouched, full]) rfl rfl (size _) inv.replayed holds id
      rfl (by simp [full]) (by simp) (fun _ => called.present (.inr (.inl atPc)))⟩
  | signal =>
    have inside : call.pc.inside = true := by rw [atPc]; rfl
    have full : call.full = false := inv.notFull found (by simp [atPc]) (by simp [atPc])
    have holds := inv.holds
    rw [settled_call call (inv.held found inside) found, Call.settle, atPc] at holds
    simp only [listenStep, atPc] at stepped
    obtain rfl := Option.some.inj stepped
    refine ⟨queue, inv.listen_inside { call with pc := .unlock } found inside rfl rfl
      ?_ rfl rfl inv.untouched rfl rfl inv.size inv.replayed holds id rfl (by simp [full])
      (by simp) (by simp)⟩
    by_cases waiting : s.processPc = .waiting
    · exact .inr ⟨waiting, if_pos waiting, called.present (.inr (.inr atPc))⟩
    · exact .inl (if_neg waiting)
  | unlock =>
    simp only [listenStep, atPc] at stepped
    obtain rfl := Option.some.inj stepped
    refine ⟨queue, inv.listen_leave found (by rw [atPc]; rfl) ?_ rfl⟩
    rw [Call.settle, atPc]
  | returned =>
    simp only [listenStep, atPc] at stepped
    cases stepped

end Listen

section Process

variable {cloned : Bool}

theorem Inv.calls_relock (inv : Inv agent signalled s queue) {holder : Option Party}
    (before : ∀ index, s.queueLock ≠ some (.listenTrap index))
    (after : ∀ index, holder ≠ some (.listenTrap index)) (index : Nat) (call : Call Pdu)
    (called : s.calls[index]? = some call) : CallInv agent holder queue index call :=
  (inv.calls index call called).relock (before index) (after index)

theorem Inv.process_lock (inv : Inv agent signalled s queue) {pc : ProcessPc}
    (free : s.queueLock = none)
    (inside : pc.inside = true) (settled : pc.settle s.stCB = s.stCB)
    (awaited : pc.awaits signalled = true → queue ≠ [])
    (inHand : ({ s with processPc := pc } : State Pdu).inHand = s.inHand) :
    Inv agent signalled { s with queueLock := some .processTrapMsg, processPc := pc } queue := by
  have holds := inv.holds
  rw [State.settled, free] at holds
  constructor
  · exact inv.size
  · exact inv.replayed
  · simpa [State.settled, settled] using holds
  · simp [inside]
  · exact inv.calls_relock (by simp [free]) (by simp)
  · intro index holder
    simp at holder
  · exact awaited
  · have handed := inv.handed
    rw [← inHand] at handed
    exact handed
  · exact inv.untouched
  · exact inv.locked

theorem Inv.process_leave (inv : Inv agent signalled s queue) {pc : ProcessPc}
    (held : s.queueLock = some .processTrapMsg) (outside : pc.inside = false)
    (settled : s.processPc.settle s.stCB = s.stCB)
    (awaited : pc.awaits signalled = true → queue ≠ [])
    (inHand : ({ s with processPc := pc } : State Pdu).inHand = s.inHand) :
    Inv agent signalled { s with queueLock := none, processPc := pc } queue := by
  have holds := inv.holds
  rw [State.settled, held] at holds
  simp only [settled] at holds
  constructor
  · exact inv.size
  · exact inv.replayed
  · exact holds
  · simp [outside]
  · exact inv.calls_relock (by simp [held]) (by simp)
  · intro index holder
    cases holder
  · exact awaited
  · have handed := inv.handed
    rw [← inHand] at handed
    exact handed
  · exact inv.untouched
  · exact inv.locked

theorem Inv.process_inside (inv : Inv agent signalled s queue) {queue' : List Pdu}
    (held : s.queueLock = some .processTrapMsg) (lock : t.queueLock = s.queueLock)
    (calls : t.calls = s.calls) (touched : t.fullTouched = s.fullTouched)
    (bad : t.badUnlock = s.badUnlock) (size : t.stCB.slots.length = agent.maxElement)
    (replayed : QueueOp.replay (agent.maxElement - 1) [] t.ops = some queue')
    (holds : (t.processPc.settle t.stCB).Holds queue') (inside : t.processPc.inside = true)
    (awaited : t.processPc.awaits signalled = true → queue' ≠ [])
    (handed : t.parsed ++ t.inHand = t.ops.filterMap QueueOp.taken) :
    Inv agent signalled t queue' := by
  constructor
  · exact size
  · exact replayed
  · rw [State.settled, lock, held]
    exact holds
  · simp [lock, held, inside]
  · intro index call called
    rw [calls] at called
    rw [lock, held]
    have before := inv.calls index call called
    rw [held] at before
    have outside : ¬ call.pc.inside = true := by
      rw [← before.lock]
      simp
    refine ⟨before.lock, before.full, before.dropping, ?_⟩
    intro putting
    apply absurd _ outside
    rcases putting with atPc | atPc | atPc
    · rw [atPc]
      rfl
    · rw [atPc]
      rfl
    · rw [atPc]
      rfl
  · intro index holder
    rw [lock, held] at holder
    cases holder
  · exact awaited
  · exact handed
  · rw [touched]
    exact inv.untouched
  · rw [bad]
    exact inv.locked

theorem Inv.process_outside (inv : Inv agent signalled s queue) {pc : ProcessPc}
    {parsed : List (Option Pdu)} (outside : s.processPc.inside = false)
    (outside' : pc.inside = false) (awaited : pc.awaits signalled = true → queue ≠ [])
    (handed : parsed ++ ({ s with processPc := pc } : State Pdu).inHand = s.parsed ++ s.inHand) :
    Inv agent signalled { s with parsed := parsed, processPc := pc } queue := by
  have other : s.queueLock ≠ some .processTrapMsg := by
    rw [ne_eq, inv.processLock, outside]
    simp
  constructor
  · exact inv.size
  · exact inv.replayed
  · have holds := inv.holds
    unfold State.settled at holds ⊢
    dsimp only
    split
    · rename_i free
      simpa only [free] using holds
    · rename_i held
      exact absurd held other
    · rename_i index held
      simpa only [held] using holds
  · simp [other, outside']
  · exact inv.calls
  · exact inv.present
  · exact awaited
  · exact handed.trans inv.handed
  · exact inv.untouched
  · exact inv.locked

theorem Inv.process_read (inv : Inv agent signalled s queue) (atPc : s.processPc = .read)
    (copied : cloned = true) (stepped : processStep agent s cloned = some t) :
    ∃ queue', Inv agent signalled t queue' := by
  have held : s.queueLock = some .processTrapMsg := inv.processLock.mpr (by rw [atPc]; rfl)
  have holds := inv.holds
  rw [State.settled, held] at holds
  simp only [atPc, ProcessPc.settle] at holds
  obtain ⟨oldest, rest, same⟩ :=
    List.exists_cons_of_ne_nil (inv.awaited (by rw [atPc]; rfl))
  have read := holds.read same
  simp only [processStep, atPc, copied, if_true, read] at stepped
  obtain rfl := Option.some.inj stepped
  refine ⟨rest, inv.process_inside held rfl rfl rfl rfl inv.size ?_ (holds.take same) rfl
    (by simp [ProcessPc.awaits])
    ?_⟩
  · apply QueueOp.replay_append inv.replayed
    rw [same, QueueOp.apply, if_pos rfl]
  · have handed := inv.handed
    simp only [State.inHand, atPc, List.append_nil] at handed
    simp [State.inHand, QueueOp.taken, handed]

theorem Inv.process (inv : Inv agent signalled s queue)
    (allowed : s.processPc = .woken → signalled = false → ¬ s.stCB.isEmpty)
    (copied : s.processPc = .read → cloned = true)
    (stepped : processStep agent s cloned = some t) : ∃ queue', Inv agent signalled t queue' := by
  have holds := inv.holds
  have held : s.processPc.inside = true → s.queueLock = some .processTrapMsg :=
    inv.processLock.mpr
  cases atPc : s.processPc with
  | lock =>
    simp only [processStep, atPc] at stepped
    split at stepped
    · rename_i free
      obtain rfl := Option.some.inj stepped
      exact ⟨queue, inv.process_lock free rfl rfl (by simp [ProcessPc.awaits])
        (by simp [State.inHand, atPc])⟩
    · cases stepped
  | testEmpty =>
    have held := held (by rw [atPc]; rfl)
    rw [State.settled, held] at holds
    simp only [atPc, ProcessPc.settle] at holds
    simp only [processStep, atPc] at stepped
    split at stepped
    · obtain rfl := Option.some.inj stepped
      exact ⟨queue, inv.process_leave held rfl (by simp [atPc, ProcessPc.settle])
        (by simp [ProcessPc.awaits]) (by simp [State.inHand, atPc])⟩
    · rename_i present
      obtain rfl := Option.some.inj stepped
      refine ⟨queue, inv.process_inside held rfl rfl rfl rfl inv.size inv.replayed holds rfl
        (fun _ => (not_congr holds.isEmpty_iff).mp present) ?_⟩
      rw [← inv.handed]
      simp [State.inHand, atPc]
  | waiting =>
    simp only [processStep, atPc] at stepped
    cases stepped
  | woken =>
    simp only [processStep, atPc] at stepped
    split at stepped
    · rename_i free
      obtain rfl := Option.some.inj stepped
      rw [State.settled, free] at holds
      have present : queue ≠ [] := by
        cases signals : signalled with
        | true => exact inv.awaited (by rw [atPc, signals]; rfl)
        | false => exact (not_congr holds.isEmpty_iff).mp (allowed atPc signals)
      rcases agent.waited with read | unlock
      · rw [read]
        exact ⟨queue, inv.process_lock free rfl rfl (fun _ => present)
          (by simp [State.inHand, atPc])⟩
      · rw [unlock]
        exact ⟨queue, inv.process_lock free rfl rfl (fun _ => present)
          (by simp [State.inHand, atPc])⟩
    · cases stepped
  | unlockAfterWait =>
    have held := held (by rw [atPc]; rfl)
    simp only [processStep, atPc, unlockBy_held held] at stepped
    obtain rfl := Option.some.inj stepped
    exact ⟨queue, inv.process_leave held rfl (by simp [atPc, ProcessPc.settle])
      (fun _ => inv.awaited (by rw [atPc]; rfl)) (by simp [State.inHand, atPc])⟩
  | relock =>
    simp only [processStep, atPc] at stepped
    split at stepped
    · rename_i free
      obtain rfl := Option.some.inj stepped
      exact ⟨queue, inv.process_lock free rfl rfl (fun _ => inv.awaited (by rw [atPc]; rfl))
        (by simp [State.inHand, atPc])⟩
    · cases stepped
  | read => exact inv.process_read atPc (copied atPc) stepped
  | clear =>
    have held := held (by rw [atPc]; rfl)
    rw [State.settled, held] at holds
    simp only [atPc, ProcessPc.settle] at holds
    have size : s.stCB.clearFront.slots.length = agent.maxElement := by
      rw [← inv.size]
      exact List.length_set
    simp only [processStep, atPc] at stepped
    obtain rfl := Option.some.inj stepped
    refine ⟨queue, inv.process_inside held rfl rfl rfl rfl size inv.replayed holds rfl
      (by simp [ProcessPc.awaits]) ?_⟩
    rw [← inv.handed]
    simp [State.inHand, atPc]
  | advanceFront =>
    have held := held (by rw [atPc]; rfl)
    rw [State.settled, held] at holds
    simp only [atPc, ProcessPc.settle] at holds
    simp only [processStep, atPc] at stepped
    obtain rfl := Option.some.inj stepped
    refine ⟨queue, inv.process_inside held rfl rfl rfl rfl inv.size inv.replayed holds rfl
      (by simp [ProcessPc.awaits]) ?_⟩
    rw [← inv.handed]
    simp [State.inHand, atPc]
  | unlock =>
    have held := held (by rw [atPc]; rfl)
    simp only [processStep, atPc, unlockBy_held held] at stepped
    obtain rfl := Option.some.inj stepped
    exact ⟨queue, inv.process_leave held rfl (by simp [atPc, ProcessPc.settle])
      (by simp [ProcessPc.awaits]) (by simp [State.inHand, atPc])⟩
  | parse =>
    simp only [processStep, atPc] at stepped
    obtain rfl := Option.some.inj stepped
    exact ⟨queue, inv.process_outside (by rw [atPc]; rfl) rfl
      (by simp [ProcessPc.awaits]) (by simp [State.inHand, atPc])⟩

end Process

section Run

theorem Inv.arrive (inv : Inv agent signalled s queue) (pdu : Pdu) :
    Inv agent signalled { s with calls := s.calls ++ [⟨pdu, .lock, false⟩] } queue := by
  have other : ∀ index, s.queueLock = some (.listenTrap index) →
      (s.calls ++ [⟨pdu, .lock, false⟩])[index]? = s.calls[index]? := by
    intro index held
    exact List.getElem?_append_left (inv.present index held)
  constructor
  · exact inv.size
  · exact inv.replayed
  · have holds := inv.holds
    unfold State.settled at holds ⊢
    dsimp only
    split
    · rename_i free
      simpa only [free] using holds
    · rename_i held
      simpa only [held] using holds
    · rename_i index held
      rw [other index held]
      simpa only [held] using holds
  · exact inv.processLock
  · intro index call called
    dsimp only at called
    rcases Nat.lt_or_ge index s.calls.length with old | new
    · rw [List.getElem?_append_left old] at called
      exact inv.calls index call called
    · rw [List.getElem?_append_right new] at called
      obtain rfl := List.mem_singleton.mp (List.mem_of_getElem? called)
      refine ⟨?_, by simp, by simp, by simp⟩
      simp only [ListenPc.inside, Bool.false_eq_true, iff_false]
      intro held
      exact absurd (inv.present index held) (by omega)
  · intro index held
    have inTable := inv.present index held
    rw [List.length_append]
    omega
  · exact inv.awaited
  · exact inv.handed
  · exact inv.untouched
  · exact inv.locked

/-- What a step needs to keep the queue: a call that goes on after the unlock does not find
the ring full, the wait ends with a signal or with an entry in the ring, and PDUs are copied. -/
def Kept (agent : Agent) (signalled : Bool) (s : State Pdu) : Label Pdu → Prop
  | .arrive _ => True
  | .listenTrap index cloned => ∀ call ∈ s.calls[index]?,
      (call.pc = .testFull → agent.afterDrop ≠ .returned → ¬ s.stCB.isFull) ∧
        (call.pc = .store → cloned = true)
  | .processTrapMsg cloned =>
    (s.processPc = .woken → signalled = false → ¬ s.stCB.isEmpty) ∧
      (s.processPc = .read → cloned = true)
  | .spurious => signalled = false

theorem Inv.step (inv : Inv agent signalled s queue) {label : Label Pdu}
    (kept : Kept agent signalled s label) (stepped : step agent s label = some t) :
    ∃ queue', Inv agent signalled t queue' := by
  cases label with
  | arrive pdu =>
    obtain rfl := Option.some.inj stepped
    exact ⟨queue, inv.arrive pdu⟩
  | listenTrap index cloned =>
    simp only [TrapQueue.step] at stepped
    split at stepped
    · cases stepped
    · rename_i call found
      exact inv.listen found (kept call found).1 (kept call found).2 stepped
  | processTrapMsg cloned => exact inv.process kept.1 kept.2 stepped
  | spurious =>
    simp only [TrapQueue.step] at stepped
    split at stepped
    · rename_i waiting
      obtain rfl := Option.some.inj stepped
      have unsignalled : signalled = false := kept
      exact ⟨queue, inv.process_outside (by rw [waiting]; rfl) rfl
        (by simp [ProcessPc.awaits, unsignalled]) (by simp [State.inHand, waiting])⟩
    · cases stepped

/-- A run of such steps loses nothing. -/
theorem run_lossless {labels : List (Label Pdu)}
    (kept : Along (TrapQueue.step agent) (Kept agent signalled) (initCBuffer agent) labels)
    (executed : run (TrapQueue.step agent) (initCBuffer agent) labels = some s) :
    LosslessFifo agent s := by
  have inv : ∃ queue, Inv agent signalled s queue := by
    apply run_invariant _ ⟨[], inv_start agent signalled⟩ kept executed
    rintro s label t ⟨queue, inv⟩ kept stepped
    exact inv.step kept stepped
  obtain ⟨queue, inv⟩ := inv
  exact inv.lossless

end Run

end EveAgent.TrapQueue
