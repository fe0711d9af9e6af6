import EveAgent.TrapQueue.Lossless

namespace EveAgent.TrapQueue

open Machine

variable {Pdu : Type*} {s : State Pdu}

section Guards

instance Kept.decidable (agent : Agent) (signalled : Bool) (s : State Pdu) :
    ∀ label, Decidable (Kept agent signalled s label)
  | .arrive _ => isTrue trivial
  | .listenTrap index cloned =>
    match found : s.calls[index]? with
    | none => isTrue (by simp [Kept, found])
    | some call =>
      decidable_of_iff
        ((call.pc = .testFull → agent.afterDrop ≠ .returned → ¬ s.stCB.isFull) ∧
          (call.pc = .store → cloned = true))
        (by simp [Kept, found])
  | .processTrapMsg cloned =>
    inferInstanceAs (Decidable
      ((s.processPc = .woken → signalled = false → ¬ s.stCB.isEmpty) ∧
        (s.processPc = .read → cloned = true)))
  | .spurious => inferInstanceAs (Decidable (signalled = false))

/-- `snmp_clone_pdu` does not return NULL in this step. -/
def Cloned (s : State Pdu) : Label Pdu → Prop
  | .arrive _ => True
  | .listenTrap index cloned => ∀ call ∈ s.calls[index]?, call.pc = .store → cloned = true
  | .processTrapMsg cloned => s.processPc = .read → cloned = true
  | .spurious => True

instance Cloned.decidable (s : State Pdu) : ∀ label, Decidable (Cloned s label)
  | .arrive _ => isTrue trivial
  | .listenTrap index cloned =>
    match found : s.calls[index]? with
    | none => isTrue (by simp [Cloned, found])
    | some call => decidable_of_iff (call.pc = .store → cloned = true) (by simp [Cloned, found])
  | .processTrapMsg cloned => inferInstanceAs (Decidable (s.processPc = .read → cloned = true))
  | .spurious => isTrue trivial

theorem kept_appMetering {label : Label Pdu} (signalled : label ≠ .spurious)
    (cloned : Cloned s label) : Kept appMetering true s label := by
  cases label with
  | arrive pdu => trivial
  | listenTrap index cloned' =>
    intro call found
    constructor
    · intro _ continues
      exact absurd rfl continues
    · exact cloned call found
  | processTrapMsg cloned' =>
    constructor
    · intro _ unsignalled
      cases unsignalled
    · exact cloned
  | spurious => exact absurd rfl signalled

theorem along_kept {labels : List (Label Pdu)} (signalled : ∀ label ∈ labels, label ≠ .spurious)
    (cloned : Along (step appMetering) Cloned s labels) :
    Along (step appMetering) (Kept appMetering true) s labels := by
  induction labels generalizing s with
  | nil => trivial
  | cons label labels ih =>
    refine ⟨kept_appMetering (signalled label List.mem_cons_self) cloned.1, ?_⟩
    cases first : step appMetering s label with
    | none => trivial
    | some t =>
      exact ih (fun later member => signalled later (List.mem_cons_of_mem _ member))
        (along_cons cloned first).2

end Guards

section JobSched

variable [DecidableEq Pdu]

/-- No call finds the queue full, no wait ends with an empty queue, no copy fails. -/
theorem jobSched_lossless (labels : List (Label Pdu))
    (kept : Along (step jobSched) (Kept jobSched false) (initCBuffer jobSched) labels)
    (executed : run (step jobSched) (initCBuffer jobSched) labels = some s) :
    LosslessFifo jobSched s :=
  run_lossless kept executed

def insertion (call : Nat) (cloned : Bool) : List (Label Nat) :=
  List.replicate 6 (.listenTrap call cloned)

/-- The thread goes to sleep; three PDUs arrive, and it is woken and takes them out. -/
def exchange : List (Label Nat) :=
  .processTrapMsg true :: .processTrapMsg true :: [7, 8, 9].map Label.arrive ++
    (List.range 3).flatMap (insertion · true) ++ List.replicate 20 (.processTrapMsg true)

theorem jobSched_lossless_exchange :
    ∃ s, run (step jobSched) (initCBuffer jobSched) exchange = some s ∧
      LosslessFifo jobSched s ∧ s.parsed = [some 7, some 8, some 9] := by
  obtain ⟨s, executed, parsed⟩ := run_of_any
    (P := fun s : State Nat => s.parsed = [some 7, some 8, some 9])
    (show (run (step jobSched) (initCBuffer jobSched) exchange).any _ = true by decide +kernel)
  exact ⟨s, executed, jobSched_lossless exchange (by decide +kernel) executed, parsed⟩

/-- Thirteen PDUs fill the queue; the fourteenth finds it full and goes on. -/
def overrun : List (Label Nat) :=
  (List.range 14).map Label.arrive ++ (List.range 14).flatMap (insertion · true) ++
    [.listenTrap 13 true]

theorem jobSched_overrun :
    ∃ s, run (step jobSched) (initCBuffer jobSched) overrun = some s ∧
      s.stCB.isEmpty = true ∧ s.badUnlock = true ∧ ¬ LosslessFifo jobSched s := by
  obtain ⟨s, executed, isEmpty, bad⟩ := run_of_any
    (P := fun s : State Nat => s.stCB.isEmpty = true ∧ s.badUnlock = true)
    (show (run (step jobSched) (initCBuffer jobSched) overrun).any _ = true by decide +kernel)
  refine ⟨s, executed, isEmpty, bad, ?_⟩
  intro lossless
  rw [lossless.locked] at bad
  cases bad

/-- The same for the queue of the backup agent. -/
theorem backup_lossless (labels : List (Label Pdu))
    (kept : Along (step backup) (Kept backup false) (initCBuffer backup) labels)
    (executed : run (step backup) (initCBuffer backup) labels = some s) :
    LosslessFifo backup s :=
  run_lossless kept executed

theorem backup_lossless_exchange :
    ∃ s, run (step backup) (initCBuffer backup) exchange = some s ∧
      LosslessFifo backup s ∧ s.parsed = [some 7, some 8, some 9] := by
  obtain ⟨s, executed, parsed⟩ := run_of_any
    (P := fun s : State Nat => s.parsed = [some 7, some 8, some 9])
    (show (run (step backup) (initCBuffer backup) exchange).any _ = true by decide +kernel)
  exact ⟨s, executed, backup_lossless exchange (by decide +kernel) executed, parsed⟩

end JobSched

section AppMetering

variable [DecidableEq Pdu]

/-- When waits end with a signal and no copy fails. -/
theorem appMetering_lossless (labels : List (Label Pdu))
    (signalled : ∀ label ∈ labels, label ≠ .spurious)
    (cloned : Along (step appMetering) Cloned (initCBuffer appMetering) labels)
    (executed : run (step appMetering) (initCBuffer appMetering) labels = some s) :
    LosslessFifo appMetering s :=
  run_lossless (along_kept signalled cloned) executed

/-- Five PDUs, the last of which is rejected, and one of them taken out. -/
def rejection : List (Label Nat) :=
  (List.range 5).map Label.arrive ++ (List.range 4).flatMap (insertion · true) ++
    List.replicate 3 (.listenTrap 4 true) ++ List.replicate 7 (.processTrapMsg true)

theorem appMetering_lossless_rejection :
    ∃ s, run (step appMetering) (initCBuffer appMetering) rejection = some s ∧
      LosslessFifo appMetering s ∧ s.parsed = [some 0] := by
  obtain ⟨s, executed, parsed⟩ := run_of_any
    (P := fun s : State Nat => s.parsed = [some 0])
    (show (run (step appMetering) (initCBuffer appMetering) rejection).any _ = true by
      decide +kernel)
  exact ⟨s, executed, appMetering_lossless rejection (by decide +kernel) (by decide +kernel)
    executed, parsed⟩

/-- The copy fails, and the thread takes NULL out of the queue. -/
def failedCopy : List (Label Nat) :=
  .arrive 7 :: insertion 0 false ++ List.replicate 3 (.processTrapMsg true)

theorem appMetering_failedCopy :
    ∃ s, run (step appMetering) (initCBuffer appMetering) failedCopy = some s ∧
      ¬ LosslessFifo appMetering s := by
  obtain ⟨s, executed, null⟩ := run_of_any
    (P := fun s : State Nat => none ∈ s.ops.filterMap QueueOp.taken)
    (show (run (step appMetering) (initCBuffer appMetering) failedCopy).any _ = true by
      decide +kernel)
  refine ⟨s, executed, ?_⟩
  intro lossless
  exact lossless.noNull null

end AppMetering

end EveAgent.TrapQueue
