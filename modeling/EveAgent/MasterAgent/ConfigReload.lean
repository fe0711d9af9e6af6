import EveAgent.MasterAgent.Forward

namespace EveAgent.MasterAgent

open Machine

section Names

/-- The instance of a scalar of `subAgentConfig.c`. -/
def scalarName (number : Nat) : Oid := subAgentTable ++ [number, 0]

/-- The four scalars of one sub-agent, in the order of their names. -/
def scalarVars (i : Nat) (scalars : Scalars) : List VarBind :=
  match scalars.appSNMPAgentIP with
  | (a, b, c, d) =>
    [⟨scalarName (6 + 4 * i), .octets [a, b, c, d]⟩,
      ⟨scalarName (7 + 4 * i), .integer scalars.appSNMPAgentPort⟩,
      ⟨scalarName (8 + 4 * i), .integer scalars.appSNMPTrapPort⟩,
      ⟨scalarName (9 + 4 * i), .integer scalars.appSNMPAgentOID⟩]

def allVars (scalars : List Scalars) : List VarBind :=
  (scalars.mapIdx scalarVars).flatten

def tableOf (scalars : List Scalars) : List SubAgent :=
  scalars.map fun entry =>
    match entry.appSNMPAgentIP with
    | (a, b, c, d) => ⟨[a, b, c, d], entry.appSNMPAgentPort, entry.appSNMPAgentOID⟩

def findValue (vars : List VarBind) (name : Oid) : Option Value :=
  (vars.find? fun var => var.name == name).map VarBind.value

def Value.ipAddress? : Value → Option (List UInt8)
  | .octets [a, b, c, d] => some [a, b, c, d]
  | _ => none

def Value.integer? : Value → Option Int
  | .integer value => some value
  | _ => none

/-- What a reload is meant to do: an entry takes the values that the response has for it and
keeps the others. -/
def readPresent (table : List SubAgent) : Read → List SubAgent
  | .timeout => table
  | .error => table
  | .response vars =>
    table.mapIdx fun i entry =>
      { giSAIP :=
          ((findValue vars (scalarName (6 + 4 * i))).bind Value.ipAddress?).getD entry.giSAIP
        giSAPort :=
          ((findValue vars (scalarName (7 + 4 * i))).bind Value.integer?).getD entry.giSAPort
        giSAEnterprise :=
          ((findValue vars (scalarName (9 + 4 * i))).bind Value.integer?).getD
            entry.giSAEnterprise }

end Names

section Property

/-- The first name of a request that the thread may reload the table for. -/
def outsideMib2 (label : Label) : Bool :=
  match label.request.vars with
  | [] => false
  | first :: _ => !isSubtree mib2Oid first.name

/-- The table that the request is routed by is the one of the changed scalars, or a reload is
pending; and a reload reads what the response has. -/
def FollowsScalars (s : State) (label : Label) : Prop :=
  outsideMib2 label = true →
    ∃ t, reload s label.read = some t ∧
      (s.changed = true → t.table = tableOf s.scalars ∨ t.reloadConfig = true) ∧
      (s.reloadConfig = true → t.table = readPresent s.table label.read)

/-- The response holds all the scalars, in the order of their names. -/
def Complete (scalars : List Scalars) : Read → Prop
  | .response vars => allVars scalars <+: vars
  | _ => False

/-- The read failed, or the response has none of the scalars. -/
def Unread : Read → Prop
  | .response vars => vars ≠ [] ∧ ∀ var ∈ vars, isSubtree subAgentGroup var.name = false
  | _ => True

def namedFirst (label : Label) : Bool :=
  match label.request.vars with
  | [] => false
  | first :: _ => isSubtree subAgentTable first.name

/-- A change is made by a request that names a scalar first. -/
def ChangeSeen (s : State) (label : Label) : Prop :=
  label.scalars = s.scalars ∨ namedFirst label = true

/-- A reload gets everything; or it gets nothing, and is not needed. -/
def ReloadDone (s : State) (label : Label) : Prop :=
  s.reloadConfig = true → outsideMib2 label = true →
    Complete s.scalars label.read ∨
      (Unread label.read ∧ (s.changed = true → s.table = tableOf s.scalars))

def InStep (s : State) (label : Label) : Prop :=
  ChangeSeen s label ∧ ReloadDone s label

instance (scalars : List Scalars) : ∀ read, Decidable (Complete scalars read)
  | .response _ => inferInstanceAs (Decidable (_ <+: _))
  | .timeout => isFalse id
  | .error => isFalse id

instance : ∀ read, Decidable (Unread read)
  | .response _ => inferInstanceAs (Decidable (_ ∧ _))
  | .timeout => isTrue trivial
  | .error => isTrue trivial

instance (s : State) (label : Label) : Decidable (InStep s label) :=
  inferInstanceAs (Decidable ((_ ∨ _) ∧ (_ → _ → _ ∨ (_ ∧ (_ → _)))))

/-- A table that is not the one of the scalars is to be reloaded. -/
structure Synced (s : State) : Prop where
  entries : s.table.length = maxSubAgents
  owned : s.scalars.length = maxSubAgents
  pending : s.changed = true → s.table = tableOf s.scalars ∨ s.reloadConfig = true

end Property

section Reads

variable {table : List SubAgent} {scalars : List Scalars} {vars : List VarBind}

theorem five_entries {α : Type} {xs : List α} (five : xs.length = maxSubAgents) :
    ∃ a b c d e, xs = [a, b, c, d, e] := by
  match xs, five with
  | [a, b, c, d, e], _ => exact ⟨a, b, c, d, e, rfl⟩

theorem complete_read {read : Read} (owned : scalars.length = maxSubAgents)
    (complete : Complete scalars read) :
    maNassaReadConfig table read = some (tableOf scalars) := by
  cases read with
  | timeout => exact complete.elim
  | error => exact complete.elim
  | response vars =>
    obtain ⟨rest, rfl⟩ := complete
    obtain ⟨a, b, c, d, e, rfl⟩ := five_entries owned
    rfl

theorem complete_present {read : Read} (entries : table.length = maxSubAgents)
    (owned : scalars.length = maxSubAgents) (complete : Complete scalars read) :
    readPresent table read = tableOf scalars := by
  cases read with
  | timeout => exact complete.elim
  | error => exact complete.elim
  | response vars =>
    obtain ⟨rest, rfl⟩ := complete
    obtain ⟨a, b, c, d, e, rfl⟩ := five_entries owned
    obtain ⟨a', b', c', d', e', rfl⟩ := five_entries entries
    rfl

theorem scalarName_group (number : Nat) : isSubtree subAgentGroup (scalarName number) = true := by
  rfl

theorem findValue_none (outside : ∀ var ∈ vars, isSubtree subAgentGroup var.name = false)
    (number : Nat) : findValue vars (scalarName number) = none := by
  rw [findValue, List.find?_eq_none.mpr, Option.map_none]
  intro var member same
  have group := outside var member
  rw [eq_of_beq same, scalarName_group] at group
  cases group

theorem unread_read {read : Read} (unread : Unread read) :
    maNassaReadConfig table read = some table := by
  cases read with
  | timeout => rfl
  | error => rfl
  | response vars =>
    cases vars with
    | nil => exact absurd rfl unread.1
    | cons first rest =>
      have outside := unread.2 first List.mem_cons_self
      rw [maNassaReadConfig, outside]
      rfl

theorem unread_present {read : Read} (unread : Unread read) : readPresent table read = table := by
  cases read with
  | timeout => rfl
  | error => rfl
  | response vars =>
    rw [readPresent]
    simp only [findValue_none unread.2, Option.bind_none, Option.getD_none]
    apply List.mapIdx_eq_iff.mpr
    intro i
    cases table[i]? with
    | none => rfl
    | some entry => rfl

end Reads

section Steps

variable {s t u : State} {label : Label} {first : VarBind} {read : Read}

theorem reload_synced (synced : Synced s) (outside : outsideMib2 label = true)
    (done : ReloadDone s label) :
    ∃ t, reload s label.read = some t ∧ Synced t ∧ t.scalars = s.scalars ∧
      t.changed = s.changed ∧
      (s.reloadConfig = true → t.table = readPresent s.table label.read) := by
  cases pending : s.reloadConfig with
  | false =>
    refine ⟨s, ?_, synced, rfl, rfl, ?_⟩
    · rw [reload, pending]
      rfl
    · intro reloaded
      cases reloaded
  | true =>
    have loaded : ∀ table, maNassaReadConfig s.table label.read = some table →
        reload s label.read = some { s with table := table, reloadConfig := false } := by
      intro table read
      rw [reload, if_pos pending, read]
      rfl
    rcases done pending outside with complete | ⟨unread, fresh⟩
    · refine ⟨_, loaded _ (complete_read synced.owned complete), ?_, rfl, rfl, ?_⟩
      · constructor
        · rw [tableOf, List.length_map]
          exact synced.owned
        · exact synced.owned
        · intro _
          exact .inl rfl
      · intro _
        exact (complete_present synced.entries synced.owned complete).symm
    · refine ⟨_, loaded _ (unread_read unread), ?_, rfl, rfl, ?_⟩
      · constructor
        · exact synced.entries
        · exact synced.owned
        · intro changed
          exact .inl (fresh changed)
      · intro _
        exact (unread_present unread).symm

theorem classify_frame (outside : isSubtree mib2Oid first.name = false)
    (reloaded : reload s read = some t) (classified : classify s first.name read = some u) :
    u.table = t.table ∧ u.reloadConfig = t.reloadConfig ∧ u.scalars = t.scalars ∧
      u.changed = t.changed := by
  rw [classify, outside, reloaded] at classified
  simp only [Bool.false_eq_true, if_false, Option.map_some, Option.some.injEq] at classified
  subst classified
  split
  · exact ⟨rfl, rfl, rfl, rfl⟩
  · split
    · exact ⟨rfl, rfl, rfl, rfl⟩
    · split
      · exact ⟨rfl, rfl, rfl, rfl⟩
      · exact ⟨rfl, rfl, rfl, rfl⟩

theorem classify_synced {rest : List VarBind} (vars : label.request.vars = first :: rest)
    (synced : Synced s) (done : ReloadDone s label)
    (classified : classify s first.name label.read = some u) :
    Synced u ∧ u.scalars = s.scalars := by
  cases inside : isSubtree mib2Oid first.name with
  | true =>
    rw [classify, if_pos inside] at classified
    obtain rfl := Option.some.inj classified
    exact ⟨⟨synced.entries, synced.owned, synced.pending⟩, rfl⟩
  | false =>
    have outside : outsideMib2 label = true := by
      rw [outsideMib2, vars]
      simp only [inside, Bool.not_false]
    obtain ⟨t, reloaded, held, scalars, _, _⟩ := reload_synced synced outside done
    obtain ⟨table, pending, owned, changed⟩ := classify_frame inside reloaded classified
    constructor
    · constructor
      · rw [table]
        exact held.entries
      · rw [owned]
        exact held.owned
      · rw [table, pending, owned, changed]
        exact held.pending
    · rw [owned, scalars]

theorem forward_synced {rest : List VarBind} (vars : label.request.vars = first :: rest)
    (synced : Synced s) (seen : ChangeSeen s label) (forwarded : forward s first label = some t) :
    Synced t := by
  unfold forward at forwarded
  split at forwarded
  · split at forwarded
    · obtain rfl := Option.some.inj forwarded
      exact synced
    · cases forwarded
  · split at forwarded
    · rename_i possible
      obtain rfl := Option.some.inj forwarded
      by_cases same : label.scalars = s.scalars
      · constructor
        · exact synced.entries
        · dsimp only
          rw [same]
          exact synced.owned
        · intro changed
          simp only [same, ne_eq, not_true_eq_false, decide_false, Bool.and_false,
            Bool.or_false] at changed
          rcases synced.pending changed with equal | pending
          · dsimp only
            rw [same]
            exact .inl equal
          · right
            simp only [pending, Bool.true_or]
      · obtain ⟨length, command, _, _⟩ := possible.resolve_left same
        have subtree := seen.resolve_left same
        rw [namedFirst, vars] at subtree
        dsimp only at subtree
        constructor
        · exact synced.entries
        · exact length.trans synced.owned
        · intro _
          right
          simp only [command, subtree, beq_self_eq_true, Bool.and_true, Bool.or_true]
    · cases forwarded

theorem step_synced (synced : Synced s) (inStep : InStep s label)
    (stepped : step s label = some t) :
    Synced t := by
  unfold step at stepped
  split at stepped
  · split at stepped
    · obtain rfl := Option.some.inj stepped
      exact synced
    · cases stepped
  · rename_i first rest vars
    obtain ⟨u, classified, forwarded⟩ := Option.bind_eq_some_iff.mp stepped
    obtain ⟨held, scalars⟩ := classify_synced vars synced inStep.2 classified
    apply forward_synced vars held ?_ forwarded
    rw [ChangeSeen, scalars]
    exact inStep.1

theorem step_follows (synced : Synced s) (inStep : InStep s label) : FollowsScalars s label := by
  intro outside
  obtain ⟨t, reloaded, held, scalars, changed, read⟩ := reload_synced synced outside inStep.2
  refine ⟨t, reloaded, ?_, read⟩
  rw [← scalars, ← changed]
  exact held.pending

/-- In a run in which every change is named first and every needed reload gets the whole table,
each request outside of mib-2 is routed by the scalars. -/
theorem table_followsScalars {table : List SubAgent} {scalars : List Scalars}
    {reloadConfig : Bool} {labels : List Label} (entries : table.length = maxSubAgents)
    (owned : scalars.length = maxSubAgents)
    (inStep : Along step InStep (started table scalars reloadConfig) labels) :
    Along step FollowsScalars (started table scalars reloadConfig) labels := by
  have start : Synced (started table scalars reloadConfig) := by
    constructor
    · exact entries
    · exact owned
    · intro changed
      cases changed
  apply Along.of_invariant _ _ start inStep
  · intro s label t synced allowed stepped
    exact step_synced synced allowed stepped
  · intro s label synced allowed
    exact step_follows synced allowed

end Steps

section Runs

def unused : Scalars :=
  { appSNMPAgentIP := (0, 0, 0, 0), appSNMPAgentPort := 0, appSNMPTrapPort := 0,
    appSNMPAgentOID := 0 }

def enterpriseNine : Scalars :=
  { unused with appSNMPAgentIP := (10, 0, 0, 7), appSNMPAgentPort := 5161, appSNMPAgentOID := 9 }

def before : List Scalars := enterpriseNine :: List.replicate (maxSubAgents - 1) unused

def after : List Scalars :=
  { enterpriseNine with appSNMPAgentPort := 5162 } :: List.replicate (maxSubAgents - 1) unused

/-- The port of the first sub-agent is set, behind another variable or not. -/
def setPort (front : List VarBind) : Label :=
  { request := { vars := front ++ [⟨scalarName 7, .integer 5162⟩], command := .set }
    read := .timeout
    answer := .success
    scalars := after }

def getNine (read : Read) : Label :=
  { request := { vars := [⟨[1, 3, 6, 1, 4, 1, 9, 1, 0], .noValue⟩], command := .get }
    read := read
    answer := .success
    scalars := after }

theorem table_followsScalars_portSet :
    Along step FollowsScalars (started (tableOf before) before false)
      [setPort [], getNine (.response (allVars after)), getNine .timeout] :=
  table_followsScalars rfl rfl (by decide)

def sysContact : VarBind := ⟨[1, 3, 6, 1, 2, 1, 1, 4, 0], .octets [111, 112, 115]⟩

/-- The port is set behind `sysContact`: no reload is pending, and the old port is used. A
response of one variable is read beyond its end, and a reload that times out is not repeated. -/
theorem change_missed :
    ¬ Along step FollowsScalars (started (tableOf before) before false)
        [setPort [sysContact], getNine .timeout] ∧
      maNassaReadConfig (tableOf before) (.response ((allVars after).take 1)) = none ∧
      ¬ Along step FollowsScalars (started (tableOf before) before false)
        [setPort [], getNine .timeout] := by
  refine ⟨?_, rfl, ?_⟩
  · intro held
    obtain ⟨t, reloaded, follows, _⟩ := (along_cons held rfl).2.1 rfl
    obtain rfl := Option.some.inj reloaded
    exact absurd (follows rfl) (by decide)
  · intro held
    obtain ⟨t, reloaded, follows, _⟩ := (along_cons held rfl).2.1 rfl
    obtain rfl := Option.some.inj reloaded
    exact absurd (follows rfl) (by decide)

end Runs

end EveAgent.MasterAgent
