import EveAgent.UserControl.Firewall

namespace EveAgent.UserControl

open Machine

variable {config : Config} {s t : State} {env : Env} {pstGenFilt : StAllowUM}

section Property

/-- The rules that the nodes of the list describe. -/
def State.described (s : State) : List IpFwUser := s.stListPtr.map fun node => node.ipfwPtr.fwnRule

def Mirrors (s : State) : Prop := s.described = s.chain

instance (s : State) : Decidable (Mirrors s) := inferInstanceAs (Decidable (_ = _))

/-- The call does not give up before it looks for a record. -/
def Modifies (pstGenFilt : StAllowUM) : Prop :=
  ¬ (pstGenFilt.pcIpAddr = none ∧ pstGenFilt.iPortNum = 0)

instance (pstGenFilt : StAllowUM) : Decidable (Modifies pstGenFilt) :=
  inferInstanceAs (Decidable (¬ _))

/-- What the locals and the port range happen to hold is what was there. -/
def RollsBack (pstGenFilt : StAllowUM) (env : Env) (old : IpFw) : Prop :=
  (pstGenFilt.pcIpAddr = none → env.fwSrc = old.fwSrc) ∧
    (pstGenFilt.iPortNum ≠ 0 → portNumber pstGenFilt.iPortNum = old.fwDpts.2) ∧
    (pstGenFilt.iPortNum = 0 → env.iPortNum = old.fwDpts.1)

instance (pstGenFilt : StAllowUM) (env : Env) (old : IpFw) :
    Decidable (RollsBack pstGenFilt env old) :=
  inferInstanceAs (Decidable (_ ∧ _ ∧ _))

/-- A node that the kernel has a rule for gets its record, positions fit into an `I16`, and
a failed modification is rolled back. -/
def Kept (s : State) : Call × Env → Prop
  | (.umSetFireWallRule _, env) => env.setsockopt = true → env.ipfwPtr = true
  | (.umAddRule _, env) => env.setsockopt = true → env.ipfwPtr = true
  | (.umModifyRule pstGenFilt, env) => Modifies pstGenFilt →
      ∀ found ∈ umGetstructForMod pstGenFilt.iIndex pstGenFilt.iFlag s.stListPtr,
        found.1.length < 32767 ∧
          (env.setsockopt = false → RollsBack pstGenFilt env found.2.1.ipfwPtr.fwnRule.ipfw)
  | (.umDelRule pstGenFilt, _) =>
    ∀ found ∈ umGetstructForMod pstGenFilt.iIndex pstGenFilt.iFlag s.stListPtr,
      found.1.length < 32767

instance Kept.decidable (s : State) : ∀ label, Decidable (Kept s label)
  | (.umSetFireWallRule _, env) =>
    inferInstanceAs (Decidable (env.setsockopt = true → env.ipfwPtr = true))
  | (.umAddRule _, env) => inferInstanceAs (Decidable (env.setsockopt = true → env.ipfwPtr = true))
  | (.umModifyRule pstGenFilt, env) =>
    inferInstanceAs (Decidable (Modifies pstGenFilt →
      ∀ found ∈ umGetstructForMod pstGenFilt.iIndex pstGenFilt.iFlag s.stListPtr,
        found.1.length < 32767 ∧
          (env.setsockopt = false →
            RollsBack pstGenFilt env found.2.1.ipfwPtr.fwnRule.ipfw)))
  | (.umDelRule pstGenFilt, _) =>
    inferInstanceAs (Decidable
      (∀ found ∈ umGetstructForMod pstGenFilt.iIndex pstGenFilt.iFlag s.stListPtr,
        found.1.length < 32767))

end Property

section Search

variable {iIndex iFlag : Int16} {stListPtr front back : List StNode} {node : StNode}

theorem getstruct_split
    (found : umGetstructForMod iIndex iFlag stListPtr = some (front, node, back)) :
    stListPtr = front ++ node :: back ∧ node.isFor iIndex iFlag = true ∧
      ∀ other ∈ front, other.isFor iIndex iFlag = false := by
  induction stListPtr generalizing front with
  | nil => cases found
  | cons head rest ih =>
    rw [umGetstructForMod] at found
    split at found
    · rename_i here
      cases found
      exact ⟨rfl, here, by simp⟩
    · rename_i elsewhere
      obtain ⟨⟨front', found', back'⟩, later, same⟩ := Option.map_eq_some_iff.mp found
      cases same
      obtain ⟨rfl, here, others⟩ := ih later
      refine ⟨rfl, here, ?_⟩
      intro other member
      rcases List.mem_cons.mp member with rfl | member
      · exact (Bool.not_eq_true _).mp elsewhere
      · exact others other member

theorem getstruct_none (missing : umGetstructForMod iIndex iFlag stListPtr = none) :
    ∀ other ∈ stListPtr, other.isFor iIndex iFlag = false := by
  induction stListPtr with
  | nil => simp
  | cons head rest ih =>
    rw [umGetstructForMod] at missing
    split at missing
    · cases missing
    · rename_i elsewhere
      rw [Option.map_eq_none_iff] at missing
      intro other member
      rcases List.mem_cons.mp member with rfl | member
      · exact (Bool.not_eq_true _).mp elsewhere
      · exact ih missing other member

theorem getPosLoop_none (iCount : Int16)
    (missing : ∀ other ∈ stListPtr, other.isFor iIndex iFlag = false) :
    umGetPosLoop iIndex iFlag stListPtr iCount = none := by
  induction stListPtr generalizing iCount with
  | nil => rfl
  | cons head rest ih =>
    rw [umGetPosLoop, if_neg (by simp [missing head List.mem_cons_self])]
    exact ih _ fun other member => missing other (List.mem_cons_of_mem _ member)

theorem getPosLoop_split (iCount : Int16) (here : node.isFor iIndex iFlag = true)
    (others : ∀ other ∈ front, other.isFor iIndex iFlag = false) :
    umGetPosLoop iIndex iFlag (front ++ node :: back) iCount =
      some (iCount + Int16.ofNat (front.length + 1)) := by
  induction front generalizing iCount with
  | nil =>
    rw [List.nil_append, umGetPosLoop, if_pos here]
    rfl
  | cons head rest ih =>
    rw [List.cons_append, umGetPosLoop, if_neg (by simp [others head List.mem_cons_self]),
      ih _ fun other member => others other (List.mem_cons_of_mem _ member)]
    rw [List.length_cons, Int16.ofNat_add (rest.length + 1) 1, Int16.add_assoc, Int16.add_comm 1]
    rfl

theorem getPos_split
    (found : umGetstructForMod iIndex iFlag stListPtr = some (front, node, back))
    (small : front.length < 32767) :
    (umGetPos stListPtr iIndex iFlag).toInt = front.length + 1 := by
  obtain ⟨rfl, here, others⟩ := getstruct_split found
  rw [umGetPos, getPosLoop_split 0 here others, Option.getD_some, Int16.zero_add,
    Int16.toInt_ofNat_of_lt (by omega)]
  push_cast
  rfl

theorem deleteFromList_split (here : node.isFor iIndex iFlag = true)
    (others : ∀ other ∈ front, other.isFor iIndex iFlag = false) :
    umDeleteFromList (front ++ node :: back) iIndex iFlag = front ++ back := by
  rw [umDeleteFromList, List.eraseP_append_right]
  · rw [List.eraseP_cons, here]
    rfl
  · intro other member
    exact (Bool.not_eq_true _).mpr (others other member)

end Search

section Steps

theorem insertRule_cases {iIndex iFlag : Int16} {rule : IpFw} {label : String} {result : UmResult}
    (stepped : insertRule s env iIndex iFlag rule label = some (t, result)) :
    (env.setsockopt = false ∧ t = s) ∨
      (env.setsockopt = true ∧ env.ipfwPtr = false ∧
        t = ⟨s.stListPtr, ⟨rule, label⟩ :: s.chain⟩) ∨
      (env.setsockopt = true ∧ env.ipfwPtr = true ∧
        t = ⟨⟨iIndex, 1, iFlag, ⟨1, ⟨rule, label⟩, "input"⟩⟩ :: s.stListPtr,
          ⟨rule, label⟩ :: s.chain⟩) := by
  have inserted : ipFwInsert s.chain 1 (⟨rule, label⟩ : IpFwUser) =
      some (⟨rule, label⟩ :: s.chain) := by
    rw [ipFwInsert, if_pos (by omega)]
    simp
  unfold insertRule at stepped
  simp only [inserted, setsockopt] at stepped
  cases succeeds : env.setsockopt with
  | false =>
    simp only [succeeds, Bool.false_eq_true, if_false, Option.some.injEq, Prod.mk.injEq]
      at stepped
    exact .inl ⟨rfl, stepped.1.symm⟩
  | true =>
    simp only [succeeds, if_true, umInsert] at stepped
    cases node : env.tmpCell with
    | false => simp [node] at stepped
    | true =>
      cases record : env.ipfwPtr with
      | false =>
        simp [node, record] at stepped
        exact .inr (.inl ⟨rfl, rfl, stepped.1.symm⟩)
      | true =>
        simp [node, record] at stepped
        exact .inr (.inr ⟨rfl, rfl, stepped.1.symm⟩)

theorem Mirrors.insert {iIndex iFlag : Int16} {rule : IpFw} {label : String} {result : UmResult}
    (mirrors : Mirrors s) (kept : env.setsockopt = true → env.ipfwPtr = true)
    (stepped : insertRule s env iIndex iFlag rule label = some (t, result)) :
    Mirrors t ∧ (env.setsockopt = false → t = s) := by
  rcases insertRule_cases stepped with ⟨_, rfl⟩ | ⟨succeeds, lost, _⟩ | ⟨succeeds, _, rfl⟩
  · exact ⟨mirrors, fun _ => rfl⟩
  · rw [kept succeeds] at lost
    cases lost
  · constructor
    · have same : s.described = s.chain := mirrors
      simp only [Mirrors, State.described, List.map_cons] at same ⊢
      rw [same]
    · intro fails
      rw [succeeds] at fails
      cases fails

theorem Mirrors.add (mirrors : Mirrors s) (kept : env.setsockopt = true → env.ipfwPtr = true)
    {result : UmResult} (stepped : umAddRule config s pstGenFilt env = some (t, result)) :
    Mirrors t ∧ (env.setsockopt = false → t = s) := by
  unfold umAddRule at stepped
  split at stepped
  · cases stepped
    exact ⟨mirrors, fun _ => rfl⟩
  split at stepped
  · cases stepped
    exact ⟨mirrors, fun _ => rfl⟩
  split at stepped
  · cases stepped
    exact ⟨mirrors, fun _ => rfl⟩
  split at stepped
  · cases stepped
  split at stepped
  · cases stepped
  · exact mirrors.insert kept stepped

theorem Mirrors.setFireWallRule (mirrors : Mirrors s) {iFlag : Int16}
    (kept : env.setsockopt = true → env.ipfwPtr = true) {result : UmResult}
    (stepped : umSetFireWallRule config s iFlag env = some (t, result)) :
    Mirrors t ∧ (env.setsockopt = false → t = s) := by
  unfold umSetFireWallRule at stepped
  split at stepped
  · cases stepped
    exact ⟨mirrors, fun _ => rfl⟩
  split at stepped
  · cases stepped
    exact ⟨mirrors, fun _ => rfl⟩
  · exact mirrors.insert kept stepped

theorem rollBack_restores {old : IpFw} (rolls : RollsBack pstGenFilt env old) :
    rollBack pstGenFilt env old (modifyRecord pstGenFilt old) = old := by
  obtain ⟨address, portEnd, port⟩ := rolls
  cases given : pstGenFilt.pcIpAddr with
  | none =>
    by_cases portGiven : pstGenFilt.iPortNum = 0
    · simp [rollBack, modifyRecord, given, portGiven, address given, port portGiven]
    · simp [rollBack, modifyRecord, given, portGiven, address given, portEnd portGiven]
  | some ip =>
    by_cases portGiven : pstGenFilt.iPortNum = 0
    · simp [rollBack, modifyRecord, given, portGiven, port portGiven]
    · simp [rollBack, modifyRecord, given, portGiven, portEnd portGiven]

section Positions

variable {front back : List StNode} {node : StNode}

theorem Mirrors.split (mirrors : Mirrors s) (split : s.stListPtr = front ++ node :: back) :
    s.chain = front.map (fun node => node.ipfwPtr.fwnRule) ++
      node.ipfwPtr.fwnRule :: back.map fun node => node.ipfwPtr.fwnRule := by
  have same : s.described = s.chain := mirrors
  rw [← same, State.described, split, List.map_append, List.map_cons]

theorem ipFwReplace_found (mirrors : Mirrors s) (split : s.stListPtr = front ++ node :: back)
    (rule : IpFwUser) : ipFwReplace s.chain (front.length + 1) rule =
      some (front.map (fun node => node.ipfwPtr.fwnRule) ++
        rule :: back.map fun node => node.ipfwPtr.fwnRule) := by
  have length := congrArg List.length (mirrors.split split)
  simp only [List.length_append, List.length_map, List.length_cons] at length
  rw [ipFwReplace, if_pos (by omega), mirrors.split split]
  congr 1
  rw [show ((front.length : Int) + 1 - 1).toNat = (front.map
    fun node => node.ipfwPtr.fwnRule).length by rw [List.length_map]; omega]
  simp

theorem ipFwDeleteNum_found (mirrors : Mirrors s) (split : s.stListPtr = front ++ node :: back) :
    ipFwDeleteNum s.chain (front.length + 1) =
      some (front.map (fun node => node.ipfwPtr.fwnRule) ++
        back.map fun node => node.ipfwPtr.fwnRule) := by
  have length := congrArg List.length (mirrors.split split)
  simp only [List.length_append, List.length_map, List.length_cons] at length
  rw [ipFwDeleteNum, if_pos (by omega), mirrors.split split]
  congr 1
  rw [show ((front.length : Int) + 1 - 1).toNat = (front.map
    fun node => node.ipfwPtr.fwnRule).length by rw [List.length_map]; omega,
    List.eraseIdx_append_of_length_le (Nat.le_refl _), Nat.sub_self]
  rfl

end Positions

theorem Mirrors.modify (mirrors : Mirrors s) (kept : Kept s (.umModifyRule pstGenFilt, env))
    {result : UmResult} (stepped : umModifyRule config s pstGenFilt env = some (t, result)) :
    Mirrors t ∧ (env.setsockopt = false → t.chain = s.chain) := by
  unfold umModifyRule at stepped
  split at stepped
  · cases stepped
    exact ⟨mirrors, fun _ => rfl⟩
  rename_i modifies
  split at stepped
  · cases stepped
  split at stepped
  · cases stepped
    exact ⟨mirrors, fun _ => rfl⟩
  rename_i front node back found
  obtain ⟨small, rolls⟩ := kept modifies _ found
  obtain ⟨split, _, _⟩ := getstruct_split found
  have position := getPos_split found small
  split at stepped
  · cases stepped
  simp only [position, ipFwReplace_found mirrors split] at stepped
  cases succeeds : env.setsockopt with
  | false =>
    simp only [setsockopt, succeeds, Bool.false_eq_true, if_false, Option.some.injEq,
      Prod.mk.injEq, rollBack_restores (rolls succeeds)] at stepped
    obtain ⟨rfl, _⟩ := stepped
    refine ⟨?_, fun _ => rfl⟩
    simpa [Mirrors, State.described] using (mirrors.split split).symm
  | true =>
    simp only [setsockopt, succeeds, if_true, Option.some.injEq, Prod.mk.injEq] at stepped
    obtain ⟨rfl, _⟩ := stepped
    refine ⟨?_, fun fails => by cases fails⟩
    simp [Mirrors, State.described]

theorem Mirrors.delete (mirrors : Mirrors s) (kept : Kept s (.umDelRule pstGenFilt, env)) :
    Mirrors (umDelRule s pstGenFilt env).1 ∧
      (env.setsockopt = false → (umDelRule s pstGenFilt env).1 = s) := by
  unfold umDelRule
  cases found : umGetstructForMod pstGenFilt.iIndex pstGenFilt.iFlag s.stListPtr with
  | none =>
    have missing : umGetPos s.stListPtr pstGenFilt.iIndex pstGenFilt.iFlag = 0 := by
      rw [umGetPos, getPosLoop_none 0 (getstruct_none found), Option.getD_none]
    simp only [missing, if_true]
    exact ⟨mirrors, fun _ => trivial⟩
  | some found' =>
    obtain ⟨front, node, back⟩ := found'
    have small := kept _ found
    have position := getPos_split found small
    obtain ⟨split, here, others⟩ := getstruct_split found
    have present : umGetPos s.stListPtr pstGenFilt.iIndex pstGenFilt.iFlag ≠ 0 := by
      intro zero
      rw [zero] at position
      simp at position
      omega
    simp only [present, if_false, position, ipFwDeleteNum_found mirrors split]
    cases succeeds : env.setsockopt with
    | false =>
      simp only [setsockopt, Bool.false_eq_true, if_false]
      exact ⟨mirrors, fun _ => trivial⟩
    | true =>
      simp only [setsockopt, if_true, split, deleteFromList_split here others]
      refine ⟨?_, fun fails => by cases fails⟩
      simp [Mirrors, State.described]

/-- One call keeps the mirror, and a failing one leaves both stores as they are. -/
theorem Mirrors.step {label : Call × Env} (mirrors : Mirrors s) (kept : Kept s label)
    (stepped : step config s label = some t) :
    Mirrors t ∧ (label.2.setsockopt = false → t.described = s.described ∧ t.chain = s.chain) := by
  have chains : ∀ t : State, Mirrors t ∧ (label.2.setsockopt = false → t.chain = s.chain) →
      Mirrors t ∧
        (label.2.setsockopt = false → t.described = s.described ∧ t.chain = s.chain) := by
    rintro t ⟨mirrors', same⟩
    refine ⟨mirrors', fun fails => ⟨?_, same fails⟩⟩
    calc
      t.described = t.chain := mirrors'
      _ = s.chain := same fails
      _ = s.described := Eq.symm mirrors
  apply chains
  obtain ⟨call, env⟩ := label
  cases call with
  | umSetFireWallRule iFlag =>
    obtain ⟨⟨t', result⟩, done, rfl⟩ := Option.map_eq_some_iff.mp stepped
    obtain ⟨mirrors', same⟩ := mirrors.setFireWallRule kept done
    exact ⟨mirrors', fun fails => congrArg State.chain (same fails)⟩
  | umAddRule pstGenFilt =>
    obtain ⟨⟨t', result⟩, done, rfl⟩ := Option.map_eq_some_iff.mp stepped
    obtain ⟨mirrors', same⟩ := mirrors.add kept done
    exact ⟨mirrors', fun fails => congrArg State.chain (same fails)⟩
  | umModifyRule pstGenFilt =>
    obtain ⟨⟨t', result⟩, done, rfl⟩ := Option.map_eq_some_iff.mp stepped
    exact mirrors.modify kept done
  | umDelRule pstGenFilt =>
    cases stepped
    obtain ⟨mirrors', same⟩ := mirrors.delete kept
    exact ⟨mirrors', fun fails => congrArg State.chain (same fails)⟩

end Steps

section Runs

variable (config)

/-- In every run whose steps are kept, the list describes the chain after every call, and
the next call that fails changes neither. -/
theorem mirror_tracks (labels : List (Call × Env))
    (kept : Along (step config) Kept start labels)
    (executed : run (step config) start labels = some s) :
    Mirrors s ∧ ∀ label t, Kept s label → step config s label = some t →
      label.2.setsockopt = false → t.described = s.described ∧ t.chain = s.chain := by
  have mirrors : Mirrors s := by
    apply run_invariant _ _ kept executed
    · intro s label t mirrors allowed stepped
      exact (mirrors.step allowed stepped).1
    · rfl
  constructor
  · exact mirrors
  · intro label t allowed stepped
    exact (mirrors.step allowed stepped).2

/-- A host in the release build whose calls all find memory. -/
def host : Config := ⟨false, true, inetAddr ⟨10, 0, 0, 1⟩⟩

def plainMemory : IpFw := ⟨0, 0, 0, 0, 0, 0, 0, 0, (0, 0), (0, 0), 0, 0, "", 0, 0⟩

def outcome (succeeds : Bool) : Env :=
  ⟨true, true, true, true, true, succeeds, plainMemory, 0, 0⟩

def row (iIndex : Int16) (pcIpAddr : Option IpAddress) (iPortNum iFlag : Int16) : StAllowUM :=
  ⟨iIndex, pcIpAddr, iPortNum, iFlag, 1⟩

/-- Two rows are added above the rule that denies; the lower one is modified, first without
success, and deleted. -/
def maintenance : List (Call × Env) :=
  [(.umSetFireWallRule allowTelnet, outcome true),
    (.umAddRule (row 1 (some ⟨10, 0, 0, 7⟩) 23 allowTelnet), outcome true),
    (.umAddRule (row 2 (some everyAddress) 21 allowFtp), outcome true),
    (.umModifyRule (row 1 (some ⟨10, 0, 0, 8⟩) 23 allowTelnet), outcome false),
    (.umModifyRule (row 1 (some ⟨10, 0, 0, 9⟩) 2323 allowTelnet), outcome true),
    (.umDelRule (row 1 none 0 allowTelnet), outcome true)]

theorem mirror_tracks_maintenance :
    ∃ s, run (step host) start maintenance = some s ∧ s.chain.length = 2 ∧ Mirrors s := by
  obtain ⟨s, executed, length⟩ := run_of_any
    (P := fun s : State => s.chain.length = 2)
    (show (run (step host) start maintenance).any _ = true by decide +kernel)
  exact ⟨s, executed, length, (mirror_tracks host maintenance (by decide +kernel) executed).1⟩

/-- A failed modification of the port leaves the new end of the range in the list. -/
def failedModification : List (Call × Env) :=
  [(.umSetFireWallRule allowTelnet, outcome true),
    (.umAddRule (row 1 (some ⟨10, 0, 0, 7⟩) 23 allowTelnet), outcome true),
    (.umModifyRule (row 1 (some ⟨10, 0, 0, 7⟩) 2323 allowTelnet), outcome false)]

theorem mirror_failedModification :
    ∃ s, run (step host) start failedModification = some s ∧ ¬ Mirrors s :=
  run_of_any (show (run (step host) start failedModification).any _ = true by decide +kernel)

end Runs

end EveAgent.UserControl
