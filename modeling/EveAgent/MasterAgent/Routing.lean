import EveAgent.MasterAgent.Forward

namespace EveAgent.MasterAgent

open Machine

section Property

variable {table : List SubAgent} {name : Oid} {enterprise : Nat}

def SystemOid (name : Oid) : Prop :=
  isSubtree mib2Oid name = true ∨ name.length < enterpriseOidPos ∨
    name[enterpriseOidPos - 1]? = some nasSubAgentEnterpriseOid

instance (name : Oid) : Decidable (SystemOid name) := inferInstanceAs (Decidable (_ ∨ _ ∨ _))

/-- The first entry that has a port and this enterprise number. -/
def configured (table : List SubAgent) (enterprise : Nat) : Option SubAgent :=
  table.find? fun entry => entry.giSAPort != 0 && entry.giSAEnterprise == (enterprise : Int)

/-- The destination as a function of the first name and the table alone. -/
def routed (table : List SubAgent) (name : Oid) : Option Destination :=
  if SystemOid name then some .system
  else
    match name[enterpriseOidPos - 1]? with
    | none => none
    | some enterprise =>
      (configured table enterprise).map fun entry => .subAgent entry.giSAIP entry.giSAPort

/-- The request of this step goes where its own first name and the table call for. -/
def RoutedByOid (s : State) (label : Label) : Prop :=
  match label.request.vars with
  | [] => True
  | first :: _ =>
    ∀ t, classify s first.name label.read = some t →
      t.destination = routed t.table first.name

/-- An entry is found and has a port, or none is and the flag was not left set. -/
def Decided (s : State) (label : Label) : Prop :=
  match label.request.vars with
  | [] => True
  | first :: _ =>
    SystemOid first.name ∨
      ∀ t, reload s label.read = some t →
        ∀ enterprise, first.name[enterpriseOidPos - 1]? = some enterprise →
          match searchTable t.table enterprise with
          | some i => ∀ entry, t.table[i]? = some entry → entry.giSAPort ≠ 0
          | none => s.nassaflag = false

theorem configured_found {i : Nat} {entry : SubAgent}
    (found : searchTable table enterprise = some i) (at_i : table[i]? = some entry)
    (port : entry.giSAPort ≠ 0) : configured table enterprise = some entry := by
  obtain ⟨inside, same, before⟩ := List.findIdx?_eq_some_iff_getElem.mp found
  obtain ⟨_, rfl⟩ := List.getElem?_eq_some_iff.mp at_i
  apply List.find?_eq_some_iff_getElem.mpr
  constructor
  · rw [same, Bool.and_true]
    exact bne_iff_ne.mpr port
  · refine ⟨i, inside, rfl, ?_⟩
    intro j earlier
    have other := before j earlier
    rw [Bool.not_eq_true] at other
    rw [other, Bool.and_false]
    rfl

theorem configured_port {entry : SubAgent} (found : configured table enterprise = some entry) :
    entry.giSAPort ≠ 0 := by
  have both := List.find?_some found
  exact bne_iff_ne.mp (Bool.and_eq_true_iff.mp both).1

theorem configured_missing (missing : searchTable table enterprise = none) :
    configured table enterprise = none := by
  apply List.find?_eq_none.mpr
  intro entry inside both
  have other := List.findIdx?_eq_none_iff.mp missing entry inside
  have same := (Bool.and_eq_true_iff.mp both).2
  rw [other] at same
  exact absurd same (by decide)

theorem searchTable_inside {i : Nat} (found : searchTable table enterprise = some i) :
    ∃ entry, table[i]? = some entry := by
  obtain ⟨inside, _, _⟩ := List.findIdx?_eq_some_iff_getElem.mp found
  exact ⟨table[i], List.getElem?_eq_getElem inside⟩

theorem routed_system (system : SystemOid name) : routed table name = some .system := by
  rw [routed, if_pos system]

theorem routed_other (other : ¬ SystemOid name)
    (position : name[enterpriseOidPos - 1]? = some enterprise) :
    routed table name =
      (configured table enterprise).map fun entry =>
        .subAgent entry.giSAIP entry.giSAPort := by
  rw [routed, if_neg other, position]

end Property

section Step

variable {s t u : State} {name : Oid} {read : Read} {enterprise : Nat}

theorem classify_system (system : SystemOid name) (classified : classify s name read = some t) :
    t.destination = some .system := by
  have flag : t.nassaflag = true := by
    unfold classify at classified
    split at classified
    · obtain rfl := Option.some.inj classified
      rfl
    · rename_i outside
      obtain ⟨u, _, same⟩ := Option.map_eq_some_iff.mp classified
      subst same
      rcases system with inside | short | nas
      · exact absurd inside outside
      · rw [List.getElem?_eq_none (by unfold enterpriseOidPos at short ⊢; omega)]
      · rw [nas]
        simp only [if_true]
  rw [State.destination, if_pos flag]

theorem classify_other (other : ¬ SystemOid name)
    (classified : classify s name read = some t) :
    ∃ u enterprise, reload s read = some u ∧
      name[enterpriseOidPos - 1]? = some enterprise ∧ t.table = u.table ∧
      t.destination =
        match searchTable u.table enterprise with
        | some i => u.table[i]?.map fun entry => .subAgent entry.giSAIP entry.giSAPort
        | none => if s.nassaflag then some .system else none := by
  unfold SystemOid at other
  push Not at other
  obtain ⟨outside, long, notNas⟩ := other
  unfold classify at classified
  rw [if_neg outside] at classified
  obtain ⟨u, reloaded, same⟩ := Option.map_eq_some_iff.mp classified
  have flag : u.nassaflag = s.nassaflag := by
    unfold reload at reloaded
    split at reloaded
    · obtain ⟨table, _, rfl⟩ := Option.map_eq_some_iff.mp reloaded
      rfl
    · obtain rfl := Option.some.inj reloaded
      rfl
  have inside : enterpriseOidPos - 1 < name.length := by
    unfold enterpriseOidPos at long ⊢
    omega
  refine ⟨u, name[enterpriseOidPos - 1], reloaded, List.getElem?_eq_getElem inside, ?_⟩
  rw [List.getElem?_eq_getElem inside] at same notNas
  simp only [if_neg (fun nas => notNas (congrArg some nas))] at same
  subst same
  split
  · rename_i i found
    rw [found]
    exact ⟨rfl, rfl⟩
  · rename_i missing
    rw [missing]
    refine ⟨rfl, ?_⟩
    rw [← flag]
    rfl

theorem classify_reloaded (other : ¬ SystemOid name) (reloaded : reload s read = some u) :
    ∃ t, classify s name read = some t := by
  have outside : isSubtree mib2Oid name ≠ true := fun inside => other (.inl inside)
  rw [classify, if_neg outside, reloaded]
  exact ⟨_, rfl⟩

theorem decided_of_same {table : List SubAgent} {flag : Bool}
    (same :
      (match searchTable table enterprise with
        | some i => table[i]?.map fun entry => Destination.subAgent entry.giSAIP entry.giSAPort
        | none => if flag then some .system else none) =
      (configured table enterprise).map fun entry =>
        .subAgent entry.giSAIP entry.giSAPort) :
    match searchTable table enterprise with
    | some i => ∀ entry, table[i]? = some entry → entry.giSAPort ≠ 0
    | none => flag = false := by
  cases search : searchTable table enterprise with
  | some i =>
    intro entry at_i
    simp only [search, at_i, Option.map_some] at same
    obtain ⟨other, found, equal⟩ := Option.map_eq_some_iff.mp same.symm
    rw [← (Destination.subAgent.inj equal).2]
    exact configured_port found
  | none =>
    simp only [search, configured_missing search, Option.map_none] at same
    cases flag with
    | false => rfl
    | true => simp at same

theorem same_of_decided {table : List SubAgent} {flag : Bool}
    (decided :
      match searchTable table enterprise with
      | some i => ∀ entry, table[i]? = some entry → entry.giSAPort ≠ 0
      | none => flag = false) :
    (match searchTable table enterprise with
      | some i => table[i]?.map fun entry => Destination.subAgent entry.giSAIP entry.giSAPort
      | none => if flag then some .system else none) =
    (configured table enterprise).map fun entry =>
      .subAgent entry.giSAIP entry.giSAPort := by
  cases search : searchTable table enterprise with
  | some i =>
    simp only [search] at decided
    obtain ⟨entry, at_i⟩ := searchTable_inside search
    rw [configured_found search at_i (decided entry at_i)]
    simp only [at_i, Option.map_some]
  | none =>
    simp only [search] at decided
    rw [configured_missing search, decided]
    rfl

theorem routedByOid_iff (s : State) (label : Label) : RoutedByOid s label ↔ Decided s label := by
  unfold RoutedByOid Decided
  cases label.request.vars with
  | nil => exact Iff.rfl
  | cons first rest =>
    dsimp only
    by_cases system : SystemOid first.name
    · constructor
      · intro _
        exact .inl system
      · intro _ t classified
        rw [routed_system system]
        exact classify_system system classified
    · rw [or_iff_right system]
      constructor
      · intro right u reloaded enterprise position
        obtain ⟨t, classified⟩ := classify_reloaded system reloaded
        obtain ⟨u', enterprise', reloaded', position', table, destination⟩ :=
          classify_other system classified
        obtain rfl := Option.some.inj (reloaded.symm.trans reloaded')
        obtain rfl := Option.some.inj (position.symm.trans position')
        have same := right t classified
        rw [routed_other system position, destination, table] at same
        exact decided_of_same same
      · intro decided t classified
        obtain ⟨u, enterprise, reloaded, position, table, destination⟩ :=
          classify_other system classified
        rw [routed_other system position, destination, table]
        exact same_of_decided (decided u reloaded enterprise position)

/-- Every request of a run is routed by its own name exactly when every step is decided. -/
theorem routing_stateless (table : List SubAgent) (scalars : List Scalars) (reloadConfig : Bool)
    (labels : List Label) :
    Along step RoutedByOid (started table scalars reloadConfig) labels ↔
      Along step Decided (started table scalars reloadConfig) labels := by
  constructor
  · exact Along.mono fun s label => (routedByOid_iff s label).mp
  · exact Along.mono fun s label => (routedByOid_iff s label).mpr

end Step

section StaleFlag

/-- One sub-agent; the other entries are not configured. -/
def oneSubAgent : List SubAgent :=
  { giSAIP := [10, 0, 0, 7], giSAPort := 5161, giSAEnterprise := 9 } ::
    List.replicate (maxSubAgents - 1)
      { giSAIP := [0, 0, 0, 0], giSAPort := 0, giSAEnterprise := 0 }

/-- `sysDescr`, for the system sub-agent. -/
def sysDescrGet : Label :=
  { request := { vars := [⟨[1, 3, 6, 1, 2, 1, 1, 1, 0], .noValue⟩], command := .get }
    read := .timeout
    answer := .success
    scalars := [] }

/-- A name below an enterprise that has no sub-agent. -/
def unknownGet : Label :=
  { request := { vars := [⟨[1, 3, 6, 1, 4, 1, 2021, 4, 0], .noValue⟩], command := .get }
    read := .timeout
    answer := .success
    scalars := [] }

/-- A request that is dropped when it comes first goes to the system sub-agent behind a request
for it. -/
theorem stale_flag :
    ∃ t u,
      classify (started oneSubAgent [] false) [1, 3, 6, 1, 4, 1, 2021, 4, 0] .timeout = some t ∧
      t.destination = none ∧
      (Machine.run step (started oneSubAgent [] false) [sysDescrGet]).bind
        (fun s => classify s [1, 3, 6, 1, 4, 1, 2021, 4, 0] .timeout) = some u ∧
      u.destination = some .system ∧
      routed oneSubAgent [1, 3, 6, 1, 4, 1, 2021, 4, 0] = none ∧
      ¬ Along step RoutedByOid (started oneSubAgent [] false) [sysDescrGet, unknownGet] := by
  refine ⟨_, _, rfl, rfl, rfl, rfl, rfl, ?_⟩
  intro held
  have second := (along_cons held rfl).2.1
  have same := second _ rfl
  exact absurd same (by decide)

end StaleFlag

end EveAgent.MasterAgent
