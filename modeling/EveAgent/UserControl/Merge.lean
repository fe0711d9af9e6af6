import EveAgent.UserControl.Access

namespace EveAgent.UserControl

section Property

/-- The columns that a rule is made of, as `UM_UserMeetering` hands them on. -/
structure FilterRow where
  ipAddress : IpAddress
  portNo : Int16
  deriving DecidableEq, Repr

/-- The columns that are carried overwrite those of the row. -/
def FilterRow.merge (row : FilterRow) (given : Given) : FilterRow where
  ipAddress := given.ipAddress.getD row.ipAddress
  portNo := given.portNo.elim row.portNo Int16.ofInt

/-- What `UM_AddRule` builds for the row. -/
def FilterRow.rule (config : Config) (service : Service) (memory : IpFw) (row : FilterRow) : IpFw :=
  allowRule config row.ipAddress service.iFlag row.portNo memory

def ruleAt {α : Type} (chain : List α) (rulenum : Int) : Option α :=
  if 1 ≤ rulenum then chain[(rulenum - 1).toNat]? else none

/-- The rule that is recorded for a row, and installed at its position. -/
structure Holds (s : State) (iIndex iFlag : Int16) (rule : IpFw) : Prop where
  recorded : (umGetstructForMod iIndex iFlag s.stListPtr).map
    (fun found => found.2.1.ipfwPtr.fwnRule) = some ⟨rule, "ACCEPT"⟩
  installed : ruleAt s.chain (umGetPos s.stListPtr iIndex iFlag).toInt = some ⟨rule, "ACCEPT"⟩

instance (s : State) (iIndex iFlag : Int16) (rule : IpFw) : Decidable (Holds s iIndex iFlag rule) :=
  decidable_of_iff
    ((umGetstructForMod iIndex iFlag s.stListPtr).map (fun found => found.2.1.ipfwPtr.fwnRule) =
        some ⟨rule, "ACCEPT"⟩ ∧
      ruleAt s.chain (umGetPos s.stListPtr iIndex iFlag).toInt = some ⟨rule, "ACCEPT"⟩)
    ⟨fun both => ⟨both.1, both.2⟩, fun holds => ⟨holds.recorded, holds.installed⟩⟩

/-- An address is carried only where neither it nor the old one stands for every address. A port
that is missing is taken for 65535, and the port 0 for no change. -/
structure Carries (row : FilterRow) (given : Given) : Prop where
  address : given.ipAddress ≠ none →
    row.ipAddress ≠ everyAddress ∧ given.ipAddress ≠ some everyAddress
  missing : given.portNo = none → row.portNo = -1
  zero : ∀ port ∈ given.portNo, Int16.ofInt port = 0 → row.portNo = 0

end Property

section Rules

variable {config : Config} {service : Service} {memory : IpFw} {row : FilterRow} {given : Given}

theorem portNumber_injective : Function.Injective portNumber := by
  intro iPortNum other same
  exact congrArg Int16.ofUInt16 same

theorem inetAddr_every : inetAddr everyAddress ≠ inetAddr noAddress := by decide

theorem rule_source (config : Config) (service : Service) (memory : IpFw) (row : FilterRow) :
    (row.rule config service memory).fwSrc =
        (if row.ipAddress = everyAddress then inetAddr noAddress else inetAddr row.ipAddress) ∧
      (row.rule config service memory).fwSmsk =
        (if row.ipAddress = everyAddress then inetAddr noAddress else inetAddr everyAddress) := by
  by_cases every : row.ipAddress = everyAddress <;> cases service <;>
    simp [FilterRow.rule, allowRule, allowPort, every, Service.iFlag, allowTelnet, allowFtp,
      allowSmtp, allowPop3]

theorem rule_ports (config : Config) (service : Service) (memory : IpFw) (row : FilterRow) :
    (row.rule config service memory).fwDpts = (portNumber row.portNo, portNumber row.portNo) :=
  (allowRule_fields config row.ipAddress service row.portNo memory).2.1

theorem merge_port_iff {index : Nat} :
    (if (given.pack service index).iPortNum ≠ 0 then (given.pack service index).iPortNum
      else row.portNo) = (row.merge given).portNo ↔
    (given.portNo = none → row.portNo = -1) ∧
      ∀ port ∈ given.portNo, Int16.ofInt port = 0 → row.portNo = 0 := by
  cases carried : given.portNo with
  | none =>
    have pack : (given.pack service index).iPortNum = -1 := by simp [Given.pack, carried]
    have merged : (row.merge given).portNo = row.portNo := by simp [FilterRow.merge, carried]
    rw [pack, merged, if_pos (by decide)]
    simp [eq_comm]
  | some port =>
    have pack : (given.pack service index).iPortNum = Int16.ofInt port := by
      simp [Given.pack, carried]
    have merged : (row.merge given).portNo = Int16.ofInt port := by
      simp [FilterRow.merge, carried]
    rw [pack, merged]
    by_cases zero : Int16.ofInt port = 0
    · rw [if_neg (not_not.mpr zero)]
      simp [zero]
    · rw [if_pos zero]
      simp [zero]

theorem modifyRecord_fields (pstGenFilt : StAllowUM) (rule : IpFw) :
    (modifyRecord pstGenFilt rule).fwSrc = pstGenFilt.pcIpAddr.elim rule.fwSrc inetAddr ∧
      (modifyRecord pstGenFilt rule).fwSmsk = rule.fwSmsk ∧
      (modifyRecord pstGenFilt rule).fwDpts =
        if pstGenFilt.iPortNum ≠ 0 then
          (portNumber pstGenFilt.iPortNum, portNumber pstGenFilt.iPortNum)
        else rule.fwDpts := by
  by_cases zero : pstGenFilt.iPortNum = 0 <;> cases address : pstGenFilt.pcIpAddr <;>
    simp [modifyRecord, zero, address]

theorem ite_mask {every none : UInt32} (differ : none ≠ every) (p q : Prop) [Decidable p]
    [Decidable q] : (if p then every else none) = (if q then every else none) ↔ (p ↔ q) := by
  by_cases left : p <;> by_cases right : q <;> simp [left, right, differ, differ.symm]

theorem modifyRecord_rule_iff {index : Nat} :
    modifyRecord (given.pack service index) (row.rule config service memory) =
        (row.merge given).rule config service memory ↔ Carries row given := by
  constructor
  · intro same
    have ports := congrArg IpFw.fwDpts same
    have source := congrArg IpFw.fwSrc same
    have mask := congrArg IpFw.fwSmsk same
    obtain ⟨fwSrc, fwSmsk, fwDpts⟩ := modifyRecord_fields (given.pack service index)
      (row.rule config service memory)
    obtain ⟨source', mask'⟩ := rule_source config service memory (row.merge given)
    rw [fwSrc, source'] at source
    rw [fwSmsk, mask', (rule_source config service memory row).2, ite_mask inetAddr_every] at mask
    rw [fwDpts, rule_ports, rule_ports,
      ← apply_ite (fun port => (portNumber port, portNumber port)),
      Prod.mk.injEq] at ports
    have port := portNumber_injective ports.1
    obtain ⟨missing, zero⟩ := merge_port_iff.mp port
    constructor
    · intro carried
      obtain ⟨ip, address⟩ := Option.ne_none_iff_exists'.mp carried
      have merged : (row.merge given).ipAddress = ip := by simp [FilterRow.merge, address]
      rw [show (given.pack service index).pcIpAddr = some ip from address, merged] at source
      rw [merged] at mask
      have narrow : ip ≠ everyAddress := by
        intro every
        rw [if_pos every, every] at source
        exact inetAddr_every source
      rw [address]
      exact ⟨fun every => narrow (mask.mp every), fun every => narrow (Option.some.inj every)⟩
    · exact missing
    · exact zero
  · intro carries
    apply modifyRecord_allowRule
    · rfl
    · intro carried
      obtain ⟨ip, address⟩ := Option.ne_none_iff_exists'.mp carried
      obtain ⟨old, new⟩ := carries.address carried
      refine ⟨old, ?_⟩
      rw [show given.ipAddress = some ip from address] at new
      simpa [FilterRow.merge, show given.ipAddress = some ip from address] using new
    · exact merge_port_iff.mpr ⟨carries.missing, carries.zero⟩

end Rules

section Calls

variable {config : Config} {s t : State} {env : Env} {iIndex iFlag : Int16}
  {front back : List StNode} {node : StNode} {rule other : IpFw} {pstGenFilt : StAllowUM}

theorem getstruct_append (here : node.isFor iIndex iFlag = true)
    (others : ∀ other ∈ front, other.isFor iIndex iFlag = false) :
    umGetstructForMod iIndex iFlag (front ++ node :: back) = some (front, node, back) := by
  induction front with
  | nil => rw [List.nil_append, umGetstructForMod, if_pos here]
  | cons head rest ih =>
    rw [List.cons_append, umGetstructForMod, if_neg (by simp [others head List.mem_cons_self]),
      ih fun other member => others other (List.mem_cons_of_mem _ member)]
    rfl

theorem ruleAt_replace {α : Type} {chain chain' : List α} {rulenum : Int} {new : α}
    (replaced : ipFwReplace chain rulenum new = some chain') :
    ruleAt chain' rulenum = some new := by
  rw [ipFwReplace] at replaced
  split at replaced
  · rename_i inside
    cases replaced
    rw [ruleAt, if_pos inside.1, List.getElem?_set_self (by omega)]
  · cases replaced

theorem replace_of_ruleAt {α : Type} {chain : List α} {rulenum : Int} {old : α} (new : α)
    (there : ruleAt chain rulenum = some old) : ∃ chain', ipFwReplace chain rulenum new =
      some chain' := by
  rw [ruleAt] at there
  split at there
  · rename_i positive
    have inside := (List.getElem?_eq_some_iff.mp there).1
    exact ⟨_, if_pos ⟨positive, by omega⟩⟩
  · cases there

theorem Holds.unique (holds : Holds s iIndex iFlag rule) :
    Holds s iIndex iFlag other ↔ rule = other := by
  constructor
  · intro again
    have same := holds.recorded.symm.trans again.recorded
    simpa using same
  · intro same
    exact same ▸ holds

theorem Holds.modified (holds : Holds s pstGenFilt.iIndex pstGenFilt.iFlag rule)
    (kernel : env.setsockopt = true) {result : UmResult}
    (done : umModifyRule config s pstGenFilt env = some (t, result)) :
    Holds t pstGenFilt.iIndex pstGenFilt.iFlag (modifyRecord pstGenFilt rule) := by
  rw [umModifyRule] at done
  split at done
  · rename_i unchanged
    cases done
    have same : modifyRecord pstGenFilt rule = rule := by
      simp [modifyRecord, unchanged.1, unchanged.2]
    rw [same]
    exact holds
  split at done
  · cases done
  split at done
  · rename_i missing
    have recorded := holds.recorded
    rw [missing] at recorded
    cases recorded
  rename_i front node back found
  have recorded := holds.recorded
  rw [found] at recorded
  have old : node.ipfwPtr.fwnRule = ⟨rule, "ACCEPT"⟩ := by simpa using recorded
  obtain ⟨split, here, others⟩ := getstruct_split found
  split at done
  · cases done
  obtain ⟨chain, replaced⟩ := replace_of_ruleAt
    (⟨modifyRecord pstGenFilt rule, "ACCEPT"⟩ : IpFwUser) holds.installed
  simp only [old, replaced, setsockopt, kernel, if_true, Option.some.injEq, Prod.mk.injEq] at done
  obtain ⟨rfl, _⟩ := done
  have position : ∀ node' : StNode, node'.isFor pstGenFilt.iIndex pstGenFilt.iFlag = true →
      umGetPos (front ++ node' :: back) pstGenFilt.iIndex pstGenFilt.iFlag =
        umGetPos s.stListPtr pstGenFilt.iIndex pstGenFilt.iFlag := by
    intro node' here'
    rw [umGetPos, umGetPos, split, getPosLoop_split 0 here others, getPosLoop_split 0 here' others]
  constructor
  · rw [getstruct_append (by exact here) others]
    rfl
  · rw [position _ (by exact here)]
    exact ruleAt_replace replaced

end Calls

section Main

variable (config : Config)

/-- The event modifies the rule of its row, and the calls for it succeed. -/
structure Modification (event : RowEvent) (env : TrapEnv) : Prop where
  decision : decisionFlag event.pstGenTable.iStatus = .umModify
  kept : ¬ event.Lost config
  pstGenTable : env.pstGenTable = true
  pcIpAddr : env.pcIpAddr = true
  kernel : env.calls.setsockopt = true

variable {config} {s t : State} {event : RowEvent} {env : TrapEnv} {row : FilterRow} {memory : IpFw}

theorem Holds.meter (modification : Modification config event env)
    (existing : Holds s event.pstGenTable.iIndex event.service.iFlag
      (row.rule config event.service memory))
    (done : umUserMeetering config s event.vars env = some t) :
    Holds t event.pstGenTable.iIndex event.service.iFlag
      (modifyRecord event.pstGenTable (row.rule config event.service memory)) := by
  rw [umUserMeetering_row config s event modification.pstGenTable modification.pcIpAddr,
    if_neg modification.kept, modification.decision, umCreateFilter] at done
  obtain ⟨⟨t', result⟩, modified, same⟩ := Option.map_eq_some_iff.mp done
  cases same
  exact Holds.modified existing modification.kernel modified

variable (config) in
def meter (s : State) (label : RowEvent × TrapEnv) : Option State :=
  umUserMeetering config s label.1.vars label.2

/-- An event that modifies a row leaves the rule that would be added for the merged row exactly if
the row can take over what it carries. -/
theorem merged_rule_iff (config : Config) (s t : State) (event : RowEvent) (env : TrapEnv)
    (row : FilterRow) (memory : IpFw) (modification : Modification config event env)
    (existing : Holds s event.pstGenTable.iIndex event.service.iFlag
      (row.rule config event.service memory))
    (done : umUserMeetering config s event.vars env = some t) :
    Holds t event.pstGenTable.iIndex event.service.iFlag
        ((row.merge event.given).rule config event.service memory) ↔ Carries row event.given := by
  rw [(Holds.meter modification existing done).unique]
  exact modifyRecord_rule_iff

def oneRow : State :=
  ⟨[⟨1, 1, allowTelnet, ⟨1, ⟨FilterRow.rule host .telnet plainMemory ⟨⟨10, 0, 0, 7⟩, 23⟩,
      "ACCEPT"⟩, "input"⟩⟩],
    [⟨FilterRow.rule host .telnet plainMemory ⟨⟨10, 0, 0, 7⟩, 23⟩, "ACCEPT"⟩]⟩

theorem merged_rule_one :
    Holds oneRow 1 allowTelnet (FilterRow.rule host .telnet plainMemory ⟨⟨10, 0, 0, 7⟩, 23⟩) ∧
    ∃ t, umUserMeetering host oneRow
        (RowEvent.vars ⟨.telnet, 1, .ipAddress (some ⟨10, 0, 0, 9⟩), [.portNo (some 2323)]⟩)
        ⟨true, true, outcome true⟩ = some t ∧
      Holds t 1 allowTelnet (FilterRow.rule host .telnet plainMemory ⟨⟨10, 0, 0, 9⟩, 2323⟩) := by
  have existing : Holds oneRow 1 allowTelnet
    (FilterRow.rule host .telnet plainMemory ⟨⟨10, 0, 0, 7⟩, 23⟩) := by decide +kernel
  apply And.intro existing
  obtain ⟨t, done⟩ := Option.isSome_iff_exists.mp (show (umUserMeetering host oneRow
    (RowEvent.vars ⟨.telnet, 1, .ipAddress (some ⟨10, 0, 0, 9⟩), [.portNo (some 2323)]⟩)
    ⟨true, true, outcome true⟩).isSome = true by decide +kernel)
  refine ⟨t, done, (merged_rule_iff host oneRow t
    ⟨.telnet, 1, .ipAddress (some ⟨10, 0, 0, 9⟩), [.portNo (some 2323)]⟩ ⟨true, true, outcome true⟩
    ⟨⟨10, 0, 0, 7⟩, 23⟩ plainMemory ⟨by decide, by decide, rfl, rfl, rfl⟩ existing done).mpr ?_⟩
  constructor
  · intro _
    exact ⟨by decide, by decide⟩
  · intro missing
    cases missing
  · intro port carried zero
    cases carried
    exact absurd zero (by decide)

/-- An event without the port: the rule that is recorded and installed has the port 65535. -/
theorem address_only :
    ∃ t, Machine.run (meter host) oneRow
        [(⟨.telnet, 1, .ipAddress (some ⟨10, 0, 0, 9⟩), []⟩, ⟨true, true, outcome true⟩)] =
          some t ∧
      ¬ Holds t 1 allowTelnet (FilterRow.rule host .telnet plainMemory ⟨⟨10, 0, 0, 9⟩, 23⟩) ∧
      t.chain.map (fun rule => rule.ipfw.fwDpts) = [(65535, 65535)] :=
  Machine.run_of_any (show (Machine.run (meter host) oneRow _).any _ = true by decide +kernel)

end Main

end EveAgent.UserControl
