import EveAgent.UserControl.Mirror
import EveAgent.UserControl.Packets

namespace EveAgent.UserControl

open Machine

section Tables

/-- A row of an allow table as its events describe it. -/
structure Row where
  ipAddress : Option IpAddress
  portNo : Option Int
  active : Bool
  deriving DecidableEq, Repr

def noRow : Row := ⟨none, none, false⟩

/-- A row that is destroyed is gone; a status other than active and create-and-go takes it
out of service. -/
def Row.update (row : Row) (given : Given) : Row :=
  if given.status = some 6 then noRow
  else
    { ipAddress := given.ipAddress.or row.ipAddress
      portNo := given.portNo.or row.portNo
      active :=
        match given.status with
        | none => row.active
        | some status => status == 1 || status == 4 }

def Row.allowed (row : Row) : Option (IpAddress × Int) :=
  if row.active then row.ipAddress.bind fun ip => row.portNo.map fun port => (ip, port)
  else none

def Row.Allows (row : Row) (a : IpAddress) (port : UInt16) : Prop :=
  ∃ ip, row.allowed = some (ip, (port.toNat : Int)) ∧ (ip = everyAddress ∨ ip = a)

abbrev Rows := Service → Nat → Row

def Rows.update (rows : Rows) (event : RowEvent) : Rows := fun service index =>
  if service = event.service ∧ index = event.index then (rows service index).update event.given
  else rows service index

structure World where
  state : State
  rows : Rows

variable (config : Config)

def trap (w : World) : RowEvent × TrapEnv → Option World
  | (event, env) =>
    (umUserMeetering config w.state event.vars env).map fun state =>
      ⟨state, w.rows.update event⟩

/-- The rules let through what the tables allow, and an inactive row has no rule. -/
structure OnlyConfigured (w : World) : Prop where
  mirrors : Mirrors w.state
  filters : ∀ policy service a packet, packet.IsFor config service a →
    (accepts policy w.state.chain packet = true ↔
      ∃ index, (w.rows service index).Allows a service.port)
  leftover : ∀ service index, index < 65536 → (w.rows service index).allowed = none →
    ∀ node ∈ w.state.stListPtr, node.isFor (Int16.ofNat index) service.iFlag = false

end Tables

section Condition

variable (config : Config)

/-- Every allocation and every call succeeds, and the memory of a new rule has no flag that
narrows it. -/
def Env.Provides (env : Env) : Prop :=
  env.insertRecord = true ∧ env.stRuleForAdd = true ∧ env.tmpCell = true ∧ env.ipfwPtr = true ∧
    env.pstRetStruct = true ∧ env.setsockopt = true ∧ env.memory.Plain

instance : DecidablePred Env.Provides := fun _ => inferInstanceAs (Decidable (_ ∧ _))

def services : List Service := [.telnet, .ftp, .smtp, .pop3]

/-- A rule for the port works for the service and for no other one. -/
def Serves (service : Service) (port : Int) : Prop :=
  if service = .telnet ∨ service = .ftp then
    ∀ other ∈ services, portNumber (Int16.ofInt port) = other.port →
      other = service ∧ port = other.port.toNat
  else port ≠ service.port.toNat

instance (service : Service) (port : Int) : Decidable (Serves service port) :=
  inferInstanceAs (Decidable (ite _ _ _))

def Single (stListPtr : List StNode) (event : RowEvent) : Prop :=
  stListPtr.countP (·.isFor event.pstGenTable.iIndex event.pstGenTable.iFlag) ≤ 1

instance (stListPtr : List StNode) (event : RowEvent) : Decidable (Single stListPtr event) :=
  inferInstanceAs (Decidable (_ ≤ _))

/-- The debug build takes a row with the port -1 for one without a port. -/
def Complete (event : RowEvent) : Prop :=
  event.given.ipAddress ≠ none ∧ event.given.portNo ≠ none ∧
    (config.umDebug = true → event.pstGenTable.iPortNum ≠ -1)

instance (event : RowEvent) : Decidable (Complete config event) :=
  inferInstanceAs (Decidable (_ ∧ _))

/-- A modification puts the new values of the row into its rule: a port that is missing is
taken for -1 and a port 0 is left out, and the mask stays what it was. -/
def Modified (event : RowEvent) (old new : IpAddress × Int) : Prop :=
  (if event.pstGenTable.iPortNum ≠ 0 then event.pstGenTable.iPortNum else Int16.ofInt old.2) =
      Int16.ofInt new.2 ∧
    (event.given.ipAddress ≠ none → old.1 ≠ everyAddress ∧ new.1 ≠ everyAddress)

instance (event : RowEvent) (old new : IpAddress × Int) : Decidable (Modified event old new) :=
  inferInstanceAs (Decidable (_ ∧ _))

/-- What the event does to the rules is what it does to the row. -/
def Fits (stListPtr : List StNode) (event : RowEvent) (before after : Option (IpAddress × Int)) :
    Prop :=
  if event.Lost config then before = after
  else
    match decisionFlag event.pstGenTable.iStatus with
    | .umAdd =>
      if Complete config event then after ≠ none ∧ (before = none ∨ before = after)
      else config.umDebug = true ∧ before = after
    | .umModify =>
      match before, after with
      | none, after => after = none
      | some _, none => False
      | some old, some new =>
        if Modifies event.pstGenTable then Single stListPtr event ∧ Modified event old new
        else old = new
    | .umDelete => Single stListPtr event

instance (stListPtr : List StNode) (event : RowEvent) (before after : Option (IpAddress × Int)) :
    Decidable (Fits config stListPtr event before after) := by
  unfold Fits
  split
  · infer_instance
  · split
    · infer_instance
    · split
      · infer_instance
      · infer_instance
      · infer_instance
    · infer_instance

/-- The row after the event works with its rule, and its rule becomes that of the row. -/
def Regular (w : World) : RowEvent × TrapEnv → Prop
  | (event, env) =>
    env.pstGenTable = true ∧ env.pcIpAddr = true ∧ env.calls.Provides ∧
      event.index < 65536 ∧ w.state.stListPtr.length ≤ 32767 ∧
      (∀ ip ∈ event.given.ipAddress, ip.Overruns → config.slack = true) ∧
      (∀ allowed ∈ (w.rows.update event event.service event.index).allowed,
        Serves event.service allowed.2) ∧
      Fits config w.state.stListPtr event (w.rows event.service event.index).allowed
        (w.rows.update event event.service event.index).allowed

instance (w : World) : DecidablePred (Regular config w)
  | (_, _) => inferInstanceAs (Decidable (_ ∧ _))

end Condition

section Invariant

variable (config : Config)

/-- The node carries the rule of an active and complete row. -/
def Placed (rows : Rows) (node : StNode) : Prop :=
  ∃ service index ip port, index < 65536 ∧ (rows service index).allowed = some (ip, port) ∧
    node.isFor (Int16.ofNat index) service.iFlag = true ∧
    Describes config node.ipfwPtr.fwnRule service ip (Int16.ofInt port)

/-- The nodes of the first rules, which deny the services. -/
structure Denied (denied : List StNode) : Prop where
  general : ∀ node ∈ denied, node.iFlag = umGeneral ∧ node.ipfwPtr.fwnRule.label = "DENY"
  services : ∀ service, ∃ node ∈ denied, Denies config node.ipfwPtr.fwnRule service

/-- Every rule above the first ones belongs to an active and complete row, and every such
row has one. -/
structure Guarded (denied : List StNode) (w : World) : Prop where
  mirrors : Mirrors w.state
  placed : ∃ front, w.state.stListPtr = front ++ denied ∧ ∀ node ∈ front,
    Placed config w.rows node
  present : ∀ service index allowed, (w.rows service index).allowed = some allowed →
    index < 65536 ∧ Serves service allowed.2 ∧
      ∃ node ∈ w.state.stListPtr, node.isFor (Int16.ofNat index) service.iFlag = true

variable {config} {denied : List StNode} {w : World}

theorem ofNat_injective {index other : Nat} (small : index < 65536) (small' : other < 65536)
    (same : Int16.ofNat index = Int16.ofNat other) : index = other := by
  have values := congrArg (fun x : Int16 => x.toUInt16.toNat) same
  simpa [Nat.mod_eq_of_lt small, Nat.mod_eq_of_lt small'] using values

theorem isFor_iff {node : StNode} {iIndex iFlag : Int16} :
    node.isFor iIndex iFlag = true ↔ node.iIndex = iIndex ∧ node.iFlag = iFlag := by
  simp [StNode.isFor]

theorem isFor_row {node : StNode} {service other : Service} {index index' : Nat}
    (here : node.isFor (Int16.ofNat index) service.iFlag = true)
    (there : node.isFor (Int16.ofNat index') other.iFlag = true) (small : index < 65536)
    (small' : index' < 65536) : service = other ∧ index = index' := by
  obtain ⟨sameIndex, sameFlag⟩ := isFor_iff.mp here
  obtain ⟨sameIndex', sameFlag'⟩ := isFor_iff.mp there
  constructor
  · exact iFlag_injective (sameFlag.symm.trans sameFlag')
  · exact ofNat_injective small small' (sameIndex.symm.trans sameIndex')

theorem Denied.not_isFor (general : Denied config denied) (service : Service) (iIndex : Int16) :
    ∀ node ∈ denied, node.isFor iIndex service.iFlag = false := by
  intro node member
  rw [← Bool.not_eq_true, isFor_iff]
  rintro ⟨_, flag⟩
  rw [(general.general node member).1] at flag
  exact (iFlag_ne service).2 flag.symm

theorem Guarded.not_isFor (guarded : Guarded config denied w) (general : Denied config denied)
    {service : Service} {index : Nat} (small : index < 65536)
    (inactive : (w.rows service index).allowed = none) :
    ∀ node ∈ w.state.stListPtr, node.isFor (Int16.ofNat index) service.iFlag = false := by
  obtain ⟨front, list, placed⟩ := guarded.placed
  intro node member
  rw [list] at member
  rcases List.mem_append.mp member with member | member
  · obtain ⟨other, index', ip, port, small', active, here, _⟩ := placed node member
    rw [← Bool.not_eq_true]
    intro there
    obtain ⟨rfl, rfl⟩ := isFor_row here there small' small
    rw [inactive] at active
    cases active
  · exact general.not_isFor service _ node member

theorem found_split {stListPtr front back front' : List StNode} {node : StNode}
    {service : Service} {iIndex : Int16} (general : Denied config denied)
    (found : umGetstructForMod iIndex service.iFlag stListPtr = some (front, node, back))
    (list : stListPtr = front' ++ denied) :
    ∃ middle, front' = front ++ node :: middle ∧ back = middle ++ denied := by
  obtain ⟨split, here, _⟩ := getstruct_split found
  rw [list] at split
  have outside : node ∉ denied := by
    intro member
    rw [general.not_isFor service iIndex node member] at here
    cases here
  rcases List.append_eq_append_iff.mp split with ⟨extra, _, rest⟩ | ⟨extra, rest, tail⟩
  · refine absurd ?_ outside
    rw [rest]
    simp
  · cases extra with
    | nil =>
      refine absurd ?_ outside
      rw [List.nil_append] at tail
      rw [← tail]
      exact List.mem_cons_self
    | cons head middle =>
      rw [List.cons_append, List.cons.injEq] at tail
      obtain ⟨rfl, rfl⟩ := tail
      exact ⟨middle, rest, rfl⟩

theorem Guarded.configured_only (guarded : Guarded config denied w)
    (general : Denied config denied) : OnlyConfigured config w := by
  obtain ⟨front, list, placed⟩ := guarded.placed
  have chain : w.state.chain = front.map (fun node => node.ipfwPtr.fwnRule) ++
      denied.map fun node => node.ipfwPtr.fwnRule := by
    have mirrors : w.state.described = w.state.chain := guarded.mirrors
    rw [← mirrors, State.described, list, List.map_append]
  constructor
  · exact guarded.mirrors
  · intro policy service a packet isFor
    rw [chain, accepts_append]
    · constructor
      · rintro ⟨rule, listed, hit⟩
        obtain ⟨node, member, rfl⟩ := List.mem_map.mp listed
        obtain ⟨other, index, ip, port, small, active, _, describes⟩ := placed node member
        obtain ⟨tcp, source, number⟩ := (describes_matches describes isFor).mp hit
        have serves : Serves other port := (guarded.present other index _ active).2.1
        rw [Serves, if_pos tcp] at serves
        obtain ⟨rfl, same⟩ := serves service (by cases service <;> decide) number
        exact ⟨index, ip, by rw [active, same], source⟩
      · rintro ⟨index, ip, active, source⟩
        obtain ⟨small, serves, node, member, here⟩ := guarded.present service index _ active
        have tcp : service = .telnet ∨ service = .ftp := by
          by_contra mail
          rw [Serves, if_neg mail] at serves
          exact serves rfl
        rw [list] at member
        rcases List.mem_append.mp member with member | member
        · refine ⟨_, List.mem_map_of_mem member, ?_⟩
          obtain ⟨other, index', ip', port', small', active', there, describes⟩ :=
            placed node member
          obtain ⟨rfl, rfl⟩ := isFor_row here there small small'
          rw [active, Option.some.injEq, Prod.mk.injEq] at active'
          obtain ⟨rfl, rfl⟩ := active'
          rw [describes_matches describes isFor]
          exact ⟨tcp, source, by cases service <;> rfl⟩
        · rw [general.not_isFor service _ node member] at here
          cases here
    · intro rule listed
      obtain ⟨node, member, rfl⟩ := List.mem_map.mp listed
      obtain ⟨_, _, _, _, _, _, _, _, _, rule⟩ := placed node member
      rw [rule]
    · intro rule listed
      obtain ⟨node, member, rfl⟩ := List.mem_map.mp listed
      exact (general.general node member).2
    · obtain ⟨node, member, denies⟩ := general.services service
      exact ⟨_, List.mem_map_of_mem member, denies_matches denies isFor⟩
  · intro service index small inactive
    exact guarded.not_isFor general small inactive

end Invariant

section Rules

variable {config : Config} {s : State} {env : Env} {front back : List StNode} {node : StNode}

theorem insertRule_provided (provides : env.Provides) (iIndex iFlag : Int16) (rule : IpFw)
    (label : String) : insertRule s env iIndex iFlag rule label =
      some (⟨⟨iIndex, 1, iFlag, ⟨1, ⟨rule, label⟩, "input"⟩⟩ :: s.stListPtr,
        ⟨rule, label⟩ :: s.chain⟩, .nascSuccess) := by
  obtain ⟨_, _, tmpCell, ipfwPtr, _, succeeds, _⟩ := provides
  have inserted : ipFwInsert s.chain 1 (⟨rule, label⟩ : IpFwUser) =
      some (⟨rule, label⟩ :: s.chain) := by
    rw [ipFwInsert, if_pos (by omega)]
    simp
  simp [insertRule, inserted, setsockopt, umInsert, succeeds, tmpCell, ipfwPtr]

theorem Mirrors.insertion (mirrors : Mirrors s) (iIndex iFlag : Int16) (rule : IpFw)
    (label : String) :
    Mirrors ⟨⟨iIndex, 1, iFlag, ⟨1, ⟨rule, label⟩, "input"⟩⟩ :: s.stListPtr,
      ⟨rule, label⟩ :: s.chain⟩ := by
  have same : s.described = s.chain := mirrors
  simp only [Mirrors, State.described, List.map_cons] at same ⊢
  rw [same]

theorem allowRule_readdress {service : Service} {ip ip' : IpAddress} {iPortNum : Int16}
    {memory : IpFw} (narrow : ip ≠ everyAddress) (narrow' : ip' ≠ everyAddress) :
    { allowRule config ip service.iFlag iPortNum memory with fwSrc := inetAddr ip' } =
      allowRule config ip' service.iFlag iPortNum memory := by
  cases service <;> simp [allowRule, allowPort, narrow, narrow', Service.iFlag, allowTelnet,
    allowFtp, allowSmtp, allowPop3]

theorem allowRule_report {service : Service} {ip : IpAddress} {iPortNum iPortNum' : Int16}
    {memory : IpFw} :
    { allowRule config ip service.iFlag iPortNum memory with
      fwDpts := (portNumber iPortNum', portNumber iPortNum') } =
      allowRule config ip service.iFlag iPortNum' memory := by
  cases service <;> rfl

theorem modifyRecord_allowRule {pstGenFilt : StAllowUM} {service : Service}
    {ip ip' : IpAddress} {iPortNum iPortNum' : Int16} {memory : IpFw}
    (address : ip' = pstGenFilt.pcIpAddr.getD ip)
    (masked : pstGenFilt.pcIpAddr ≠ none → ip ≠ everyAddress ∧ ip' ≠ everyAddress)
    (port : (if pstGenFilt.iPortNum ≠ 0 then pstGenFilt.iPortNum else iPortNum) = iPortNum') :
    modifyRecord pstGenFilt (allowRule config ip service.iFlag iPortNum memory) =
      allowRule config ip' service.iFlag iPortNum' memory := by
  cases given : pstGenFilt.pcIpAddr with
  | none =>
    rw [given, Option.getD_none] at address
    by_cases zero : pstGenFilt.iPortNum = 0
    · rw [if_neg (by simp [zero])] at port
      simp [modifyRecord, given, zero, address, port]
    · rw [if_pos zero] at port
      subst port
      simp only [modifyRecord, given, ne_eq, zero, not_false_eq_true, if_true, address]
      exact allowRule_report
  | some other =>
    obtain ⟨narrow, narrow'⟩ := masked (by simp [given])
    rw [given, Option.getD_some] at address
    subst address
    by_cases zero : pstGenFilt.iPortNum = 0
    · rw [if_neg (by simp [zero])] at port
      simp only [modifyRecord, given, ne_eq, zero, not_true, if_false, ← port]
      exact allowRule_readdress narrow narrow'
    · rw [if_pos zero] at port
      subst port
      have readdressed := congrArg
        (fun rule : IpFw => { rule with
          fwDpts := (portNumber pstGenFilt.iPortNum, portNumber pstGenFilt.iPortNum) })
        (allowRule_readdress narrow narrow' :
          _ = allowRule config ip' service.iFlag iPortNum memory)
      simp only [modifyRecord, given, ne_eq, zero, not_false_eq_true, if_true]
      exact readdressed.trans allowRule_report

theorem umModifyRule_found {pstGenFilt : StAllowUM} (mirrors : Mirrors s)
    (provides : env.Provides) (modifies : Modifies pstGenFilt)
    (room : ∀ ip ∈ pstGenFilt.pcIpAddr, ip.Overruns → config.slack = true)
    (found : umGetstructForMod pstGenFilt.iIndex pstGenFilt.iFlag s.stListPtr =
      some (front, node, back)) (small : front.length < 32767) :
    ∃ record chain, umModifyRule config s pstGenFilt env =
        some (⟨front ++ { node with ipfwPtr := record } :: back, chain⟩, .nascSuccess) ∧
      record.fwnRule = { node.ipfwPtr.fwnRule with
        ipfw := modifyRecord pstGenFilt node.ipfwPtr.fwnRule.ipfw } ∧
      Mirrors ⟨front ++ { node with ipfwPtr := record } :: back, chain⟩ := by
  obtain ⟨_, _, _, _, memory, succeeds, _⟩ := provides
  obtain ⟨split, _, _⟩ := getstruct_split found
  have overrun : ¬ ((∃ ip ∈ pstGenFilt.pcIpAddr, ip.Overruns) ∧ ¬ config.slack = true) := by
    rintro ⟨⟨ip, given, overruns⟩, tight⟩
    exact tight (room ip given overruns)
  unfold umModifyRule
  rw [if_neg modifies, if_neg (by simp [memory]), found]
  simp only [if_neg overrun, getPos_split found small, ipFwReplace_found mirrors split,
    setsockopt, succeeds, if_true]
  refine ⟨_, _, rfl, rfl, ?_⟩
  simp [Mirrors, State.described]

end Rules

section Changes

variable {config : Config} {denied : List StNode} {w : World} {event : RowEvent}
  {front back : List StNode} {node : StNode} {chain : List IpFwUser} {new : IpAddress × Int}

theorem Rows.update_self (rows : Rows) (event : RowEvent) :
    rows.update event event.service event.index =
      (rows event.service event.index).update event.given := if_pos ⟨rfl, rfl⟩

theorem Rows.update_other {rows : Rows} {service : Service} {index : Nat}
    (elsewhere : ¬ (service = event.service ∧ index = event.index)) :
    rows.update event service index = rows service index := if_neg elsewhere

theorem Placed.frame {rows : Rows} (placed : Placed config rows node)
    (other : node.isFor (Int16.ofNat event.index) event.service.iFlag = false) :
    Placed config (rows.update event) node := by
  obtain ⟨service, index, ip, port, small, active, here, describes⟩ := placed
  have elsewhere : ¬ (service = event.service ∧ index = event.index) := by
    rintro ⟨rfl, rfl⟩
    rw [here] at other
    cases other
  exact ⟨service, index, ip, port, small, by rw [Rows.update_other elsewhere, active], here,
    describes⟩

theorem Placed.keep {rows : Rows} (placed : Placed config rows node)
    (before : (rows event.service event.index).allowed = none ∨
      (rows event.service event.index).allowed =
        (rows.update event event.service event.index).allowed) :
    Placed config (rows.update event) node := by
  obtain ⟨service, index, ip, port, small, active, here, describes⟩ := placed
  refine ⟨service, index, ip, port, small, ?_, here, describes⟩
  by_cases key : service = event.service ∧ index = event.index
  · obtain ⟨rfl, rfl⟩ := key
    rcases before with inactive | same
    · rw [active] at inactive
      cases inactive
    · rw [← same, active]
  · rw [Rows.update_other key, active]

theorem Guarded.unchanged (guarded : Guarded config denied w)
    (same : (w.rows event.service event.index).allowed =
      (w.rows.update event event.service event.index).allowed) :
    Guarded config denied ⟨w.state, w.rows.update event⟩ := by
  constructor
  · exact guarded.mirrors
  · obtain ⟨front, list, placed⟩ := guarded.placed
    exact ⟨front, list, fun node member => (placed node member).keep (.inr same)⟩
  · intro service index allowed active
    apply guarded.present service index allowed
    by_cases key : service = event.service ∧ index = event.index
    · obtain ⟨rfl, rfl⟩ := key
      rw [same]
      exact active
    · rw [← active]
      exact congrArg Row.allowed (Rows.update_other key).symm

theorem Guarded.inserted (guarded : Guarded config denied w) (small : event.index < 65536)
    (mirrors : Mirrors ⟨node :: w.state.stListPtr, chain⟩)
    (before : (w.rows event.service event.index).allowed = none ∨
      (w.rows event.service event.index).allowed =
        (w.rows.update event event.service event.index).allowed)
    (after : (w.rows.update event event.service event.index).allowed = some new)
    (serves : Serves event.service new.2)
    (here : node.isFor (Int16.ofNat event.index) event.service.iFlag = true)
    (describes : Describes config node.ipfwPtr.fwnRule event.service new.1
      (Int16.ofInt new.2)) :
    Guarded config denied ⟨⟨node :: w.state.stListPtr, chain⟩, w.rows.update event⟩ := by
  constructor
  · exact mirrors
  · obtain ⟨front, list, placed⟩ := guarded.placed
    refine ⟨node :: front, congrArg (node :: ·) list, ?_⟩
    intro other member
    rcases List.mem_cons.mp member with rfl | member
    · exact ⟨event.service, event.index, new.1, new.2, small, after, here, describes⟩
    · exact (placed other member).keep before
  · intro service index allowed active
    by_cases key : service = event.service ∧ index = event.index
    · obtain ⟨rfl, rfl⟩ := key
      obtain rfl := Option.some.inj (after.symm.trans active)
      exact ⟨small, serves, node, List.mem_cons_self, here⟩
    · simp only [Rows.update_other key] at active
      obtain ⟨small', serves', other, member, there⟩ := guarded.present service index _ active
      exact ⟨small', serves', other, List.mem_cons_of_mem _ member, there⟩

theorem Single.others (single : Single (front ++ node :: back) event)
    (here : node.isFor (Int16.ofNat event.index) event.service.iFlag = true) :
    ∀ other ∈ front ++ back,
      other.isFor (Int16.ofNat event.index) event.service.iFlag = false := by
  have here' : node.isFor event.pstGenTable.iIndex event.pstGenTable.iFlag = true := here
  rw [Single, List.countP_append, List.countP_cons, if_pos here'] at single
  intro other member
  rw [← Bool.not_eq_true]
  intro there
  have positive : 0 < (front ++ back).countP
      (·.isFor event.pstGenTable.iIndex event.pstGenTable.iFlag) :=
    List.countP_pos_iff.mpr ⟨other, member, there⟩
  rw [List.countP_append] at positive
  omega

theorem Guarded.elsewhere (guarded : Guarded config denied w)
    (split : w.state.stListPtr = front ++ node :: back) (small : event.index < 65536)
    (here : node.isFor (Int16.ofNat event.index) event.service.iFlag = true)
    {service : Service} {index : Nat} {allowed : IpAddress × Int}
    (key : ¬ (service = event.service ∧ index = event.index))
    (active : (w.rows.update event service index).allowed = some allowed) :
    index < 65536 ∧ Serves service allowed.2 ∧
      ∃ other ∈ front ++ back, other.isFor (Int16.ofNat index) service.iFlag = true := by
  rw [Rows.update_other key] at active
  obtain ⟨small', serves, other, member, there⟩ := guarded.present service index _ active
  refine ⟨small', serves, other, ?_, there⟩
  rw [split] at member
  rcases List.mem_append.mp member with member | member
  · exact List.mem_append_left _ member
  · rcases List.mem_cons.mp member with rfl | member
    · exact absurd (isFor_row there here small' small) key
    · exact List.mem_append_right _ member

theorem Guarded.deleted (guarded : Guarded config denied w) (general : Denied config denied)
    (found : umGetstructForMod (Int16.ofNat event.index) event.service.iFlag
      w.state.stListPtr = some (front, node, back)) (small : event.index < 65536)
    (single : Single w.state.stListPtr event) (mirrors : Mirrors ⟨front ++ back, chain⟩)
    (after : (w.rows.update event event.service event.index).allowed = none) :
    Guarded config denied ⟨⟨front ++ back, chain⟩, w.rows.update event⟩ := by
  obtain ⟨split, here, _⟩ := getstruct_split found
  obtain ⟨front', list, placed⟩ := guarded.placed
  obtain ⟨middle, above, below⟩ := found_split general found list
  rw [split] at single
  have others := single.others here
  constructor
  · exact mirrors
  · refine ⟨front ++ middle, by rw [below, List.append_assoc], ?_⟩
    intro other member
    refine (placed other ?_).frame (others other ?_)
    · rw [above]
      rcases List.mem_append.mp member with member | member
      · exact List.mem_append_left _ member
      · exact List.mem_append_right _ (List.mem_cons_of_mem _ member)
    · rw [below, ← List.append_assoc]
      exact List.mem_append_left _ member
  · intro service index allowed active
    have key : ¬ (service = event.service ∧ index = event.index) := by
      rintro ⟨rfl, rfl⟩
      rw [after] at active
      cases active
    exact guarded.elsewhere split small here key active

theorem Guarded.modified (guarded : Guarded config denied w) (general : Denied config denied)
    (found : umGetstructForMod (Int16.ofNat event.index) event.service.iFlag
      w.state.stListPtr = some (front, node, back)) (small : event.index < 65536)
    (single : Single w.state.stListPtr event) {record : IpFwNew}
    (mirrors : Mirrors ⟨front ++ { node with ipfwPtr := record } :: back, chain⟩)
    (after : (w.rows.update event event.service event.index).allowed = some new)
    (serves : Serves event.service new.2)
    (describes : Describes config record.fwnRule event.service new.1 (Int16.ofInt new.2)) :
    Guarded config denied
      ⟨⟨front ++ { node with ipfwPtr := record } :: back, chain⟩, w.rows.update event⟩ := by
  obtain ⟨split, here, _⟩ := getstruct_split found
  obtain ⟨front', list, placed⟩ := guarded.placed
  obtain ⟨middle, above, below⟩ := found_split general found list
  rw [split] at single
  have others := single.others here
  have grown : ∀ other ∈ front ++ back, other ∈ front ++ { node with ipfwPtr := record } :: back :=
    fun other member => by
      rcases List.mem_append.mp member with member | member
      · exact List.mem_append_left _ member
      · exact List.mem_append_right _ (List.mem_cons_of_mem _ member)
  constructor
  · exact mirrors
  · refine ⟨front ++ { node with ipfwPtr := record } :: middle,
      by rw [below, List.append_assoc, List.cons_append], ?_⟩
    intro other member
    rcases List.mem_append.mp member with member | member
    · exact (placed other (by rw [above]; exact List.mem_append_left _ member)).frame
        (others other (List.mem_append_left _ member))
    · rcases List.mem_cons.mp member with rfl | member
      · exact ⟨event.service, event.index, new.1, new.2, small, after, here, describes⟩
      · refine (placed other ?_).frame (others other ?_)
        · rw [above]
          exact List.mem_append_right _ (List.mem_cons_of_mem _ member)
        · rw [below]
          exact List.mem_append_right _ (List.mem_append_left _ member)
  · intro service index allowed active
    by_cases key : service = event.service ∧ index = event.index
    · obtain ⟨rfl, rfl⟩ := key
      obtain rfl := Option.some.inj (after.symm.trans active)
      exact ⟨small, serves, _, List.mem_append_right _ List.mem_cons_self, here⟩
    · obtain ⟨small', serves', other, member, there⟩ :=
        guarded.elsewhere split small here key active
      exact ⟨small', serves', other, grown other member, there⟩

end Changes

section Steps

variable {config : Config} {denied : List StNode} {w : World} {event : RowEvent} {s : State}
  {env : Env}

theorem Row.allowed_some {row : Row} {allowed : IpAddress × Int}
    (active : row.allowed = some allowed) :
    row.ipAddress = some allowed.1 ∧ row.portNo = some allowed.2 := by
  unfold Row.allowed at active
  split at active
  · obtain ⟨ip, address, active⟩ := Option.bind_eq_some_iff.mp active
    obtain ⟨port, number, rfl⟩ := Option.map_eq_some_iff.mp active
    exact ⟨address, number⟩
  · cases active

theorem Row.update_some {row : Row} {given : Given} {allowed : IpAddress × Int}
    (active : (row.update given).allowed = some allowed) :
    given.ipAddress.or row.ipAddress = some allowed.1 ∧
      given.portNo.or row.portNo = some allowed.2 := by
  unfold Row.update at active
  split at active
  · cases active
  · exact Row.allowed_some active

theorem update_delete {row : Row}
    (decision : decisionFlag event.pstGenTable.iStatus = .umDelete) :
    (row.update event.given).allowed = none := by
  have iStatus : event.pstGenTable.iStatus = 6 ∨ event.pstGenTable.iStatus = 2 := by
    unfold decisionFlag at decision
    split at decision
    · cases decision
    split at decision
    · rename_i deletes
      exact deletes
    · cases decision
  have status : event.given.status ≠ none ∧ event.given.status ≠ some 1 ∧
      event.given.status ≠ some 4 := by
    refine ⟨?_, ?_, ?_⟩ <;>
    · intro given
      simp [RowEvent.pstGenTable, Given.pack, given] at iStatus
  unfold Row.update
  split
  · rfl
  · cases given : event.given.status with
    | none => exact absurd given status.1
    | some value =>
      have inactive : (value == 1 || value == 4) = false := by
        simp only [Bool.or_eq_false_iff, beq_eq_false_iff_ne]
        constructor
        · rintro rfl
          exact status.2.1 given
        · rintro rfl
          exact status.2.2 given
      simp [Row.allowed, inactive]

theorem umAddRule_complete {ip : IpAddress} (provides : env.Provides)
    (complete : Complete config event) (address : event.given.ipAddress = some ip)
    (room : ip.Overruns → config.slack = true)
    (decision : decisionFlag event.pstGenTable.iStatus = .umAdd) :
    umAddRule config s event.pstGenTable env =
      insertRule s env event.pstGenTable.iIndex event.pstGenTable.iFlag
        (allowRule config ip event.service.iFlag event.pstGenTable.iPortNum env.memory)
        "ACCEPT" := by
  have pcIpAddr : event.pstGenTable.pcIpAddr = some ip := address
  have iStatus : event.pstGenTable.iStatus = 4 ∨ event.pstGenTable.iStatus = 1 := by
    unfold decisionFlag at decision
    split at decision
    · rename_i adds
      exact adds
    split at decision <;> cases decision
  have accepted : ¬ (config.umDebug = true ∧ (event.pstGenTable.pcIpAddr = none ∨
      event.pstGenTable.iPortNum = -1 ∨ event.pstGenTable.iStatus = -1 ∨
        event.pstGenTable.iStatus = 2)) := by
    rintro ⟨debug, missing | missing | missing | missing⟩
    · rw [pcIpAddr] at missing
      cases missing
    · exact complete.2.2 debug missing
    · rw [missing] at iStatus
      exact absurd iStatus (by decide)
    · rw [missing] at iStatus
      exact absurd iStatus (by decide)
  have overrun : ¬ (ip.Overruns ∧ ¬ config.slack = true) := by
    rintro ⟨overruns, tight⟩
    exact tight (room overruns)
  obtain ⟨insertRecord, stRuleForAdd, _⟩ := provides
  unfold umAddRule
  rw [if_neg accepted, if_neg (by simp [insertRecord]), if_neg (by simp [stRuleForAdd])]
  simp only [pcIpAddr]
  rw [if_neg overrun]
  rfl

theorem umAddRule_incomplete (debug : config.umDebug = true)
    (incomplete : ¬ Complete config event) :
    umAddRule config s event.pstGenTable env = some (s, .nascMandatoryMissing) := by
  unfold umAddRule
  rw [if_pos]
  refine ⟨debug, ?_⟩
  by_contra present
  apply incomplete
  simp only [not_or] at present
  obtain ⟨address, port, _⟩ := present
  refine ⟨address, ?_, fun _ => port⟩
  intro missing
  apply port
  simp [RowEvent.pstGenTable, Given.pack, missing]

theorem umDelRule_found {pstGenFilt : StAllowUM} {front back : List StNode} {node : StNode}
    (mirrors : Mirrors s) (succeeds : env.setsockopt = true)
    (found : umGetstructForMod pstGenFilt.iIndex pstGenFilt.iFlag s.stListPtr =
      some (front, node, back)) (small : front.length < 32767) :
    ∃ chain, umDelRule s pstGenFilt env = (⟨front ++ back, chain⟩, .nascSuccess) ∧
      Mirrors ⟨front ++ back, chain⟩ := by
  obtain ⟨split, here, others⟩ := getstruct_split found
  have position := getPos_split found small
  have present : umGetPos s.stListPtr pstGenFilt.iIndex pstGenFilt.iFlag ≠ 0 := by
    intro zero
    rw [zero] at position
    simp at position
    omega
  unfold umDelRule
  simp only [present, if_false, position, ipFwDeleteNum_found mirrors split, setsockopt,
    succeeds, if_true]
  refine ⟨_, by rw [split, deleteFromList_split here others], ?_⟩
  simp [Mirrors, State.described]

theorem umDelRule_missing {pstGenFilt : StAllowUM}
    (missing : umGetstructForMod pstGenFilt.iIndex pstGenFilt.iFlag s.stListPtr = none) :
    umDelRule s pstGenFilt env = (s, .nascFailure) := by
  unfold umDelRule
  rw [umGetPos, getPosLoop_none 0 (getstruct_none missing), Option.getD_none]
  rfl

theorem umModifyRule_idle {pstGenFilt : StAllowUM} (provides : env.Provides)
    (idle : Modifies pstGenFilt →
      umGetstructForMod pstGenFilt.iIndex pstGenFilt.iFlag s.stListPtr = none) :
    (umModifyRule config s pstGenFilt env).map Prod.fst = some s := by
  unfold umModifyRule
  by_cases modifies : Modifies pstGenFilt
  · rw [if_neg modifies, if_neg (by simp [provides.2.2.2.2.1]), idle modifies]
    rfl
  · rw [if_pos (not_not.mp modifies)]
    rfl

theorem Guarded.missing (guarded : Guarded config denied w)
    (missing : umGetstructForMod event.pstGenTable.iIndex event.pstGenTable.iFlag
      w.state.stListPtr = none) : (w.rows event.service event.index).allowed = none := by
  cases active : (w.rows event.service event.index).allowed with
  | none => rfl
  | some allowed =>
    obtain ⟨_, _, node, member, here⟩ := guarded.present _ _ _ active
    have absent : node.isFor (Int16.ofNat event.index) event.service.iFlag = false :=
      getstruct_none missing node member
    rw [here] at absent
    cases absent

theorem found_small {stListPtr front back : List StNode} {node : StNode} {iIndex iFlag : Int16}
    (found : umGetstructForMod iIndex iFlag stListPtr = some (front, node, back))
    (room : stListPtr.length ≤ 32767) : front.length < 32767 := by
  obtain ⟨split, _, _⟩ := getstruct_split found
  rw [split, List.length_append, List.length_cons] at room
  omega

theorem Guarded.add (guarded : Guarded config denied w) (provides : env.Provides)
    (small : event.index < 65536)
    (room : ∀ ip ∈ event.given.ipAddress, ip.Overruns → config.slack = true)
    (serves : ∀ allowed ∈ (w.rows.update event event.service event.index).allowed,
      Serves event.service allowed.2)
    (decision : decisionFlag event.pstGenTable.iStatus = .umAdd)
    (complete : Complete config event)
    (after : (w.rows.update event event.service event.index).allowed ≠ none)
    (before : (w.rows event.service event.index).allowed = none ∨
      (w.rows event.service event.index).allowed =
        (w.rows.update event event.service event.index).allowed) :
    ∃ state, (umAddRule config w.state event.pstGenTable env).map Prod.fst = some state ∧
      Guarded config denied ⟨state, w.rows.update event⟩ := by
  obtain ⟨new, active⟩ := Option.ne_none_iff_exists'.mp after
  obtain ⟨ip, address⟩ := Option.ne_none_iff_exists'.mp complete.1
  obtain ⟨port, number⟩ := Option.ne_none_iff_exists'.mp complete.2.1
  have values := active
  rw [Rows.update_self] at values
  obtain ⟨ip', port'⟩ := Row.update_some values
  rw [address, Option.some_or, Option.some.injEq] at ip'
  rw [number, Option.some_or, Option.some.injEq] at port'
  have packed : event.pstGenTable.iPortNum = Int16.ofInt port := by
    simp [RowEvent.pstGenTable, Given.pack, number]
  rw [umAddRule_complete provides complete address (room ip address) decision,
    insertRule_provided provides]
  refine ⟨_, rfl, ?_⟩
  apply guarded.inserted small (guarded.mirrors.insertion _ _ _ _) before active
    (serves new active)
  · exact isFor_iff.mpr ⟨rfl, rfl⟩
  · refine ⟨env.memory, provides.2.2.2.2.2.2, ?_⟩
    rw [packed, ip', port']

theorem Guarded.modify (guarded : Guarded config denied w) (general : Denied config denied)
    (provides : env.Provides) (small : event.index < 65536)
    (short : w.state.stListPtr.length ≤ 32767)
    (room : ∀ ip ∈ event.given.ipAddress, ip.Overruns → config.slack = true)
    {old new : IpAddress × Int}
    (before : (w.rows event.service event.index).allowed = some old)
    (after : (w.rows.update event event.service event.index).allowed = some new)
    (serves : Serves event.service new.2) (modifies : Modifies event.pstGenTable)
    (single : Single w.state.stListPtr event) (modified : Modified event old new) :
    ∃ state, (umModifyRule config w.state event.pstGenTable env).map Prod.fst = some state ∧
      Guarded config denied ⟨state, w.rows.update event⟩ := by
  have values := after
  rw [Rows.update_self] at values
  obtain ⟨ip', _⟩ := Row.update_some values
  have address : new.1 = event.pstGenTable.pcIpAddr.getD old.1 := by
    rw [(Row.allowed_some before).1] at ip'
    change new.1 = event.given.ipAddress.getD old.1
    cases given : event.given.ipAddress with
    | none =>
      rw [given, Option.none_or, Option.some.injEq] at ip'
      exact ip'.symm
    | some ip =>
      rw [given, Option.some_or, Option.some.injEq] at ip'
      exact ip'.symm
  cases found : umGetstructForMod event.pstGenTable.iIndex event.pstGenTable.iFlag
      w.state.stListPtr with
  | none =>
    rw [guarded.missing found] at before
    cases before
  | some result =>
    obtain ⟨front, node, back⟩ := result
    obtain ⟨record, chain, done, rule, mirrors⟩ :=
      umModifyRule_found guarded.mirrors provides modifies room found (found_small found short)
    rw [done]
    refine ⟨_, rfl, ?_⟩
    apply guarded.modified general found small single mirrors after serves
    obtain ⟨split, here, _⟩ := getstruct_split found
    obtain ⟨front', list, placed⟩ := guarded.placed
    obtain ⟨middle, above, _⟩ := found_split general found list
    obtain ⟨service, index, ip, port, small', active, there, memory, plain, described⟩ :=
      placed node (by rw [above]; simp)
    obtain ⟨rfl, rfl⟩ := isFor_row here there small small'
    obtain rfl := Option.some.inj (before.symm.trans active)
    refine ⟨memory, plain, ?_⟩
    rw [rule, described]
    simp only [IpFwUser.mk.injEq, and_true]
    exact modifyRecord_allowRule address modified.2 modified.1

theorem Guarded.step (guarded : Guarded config denied w) (general : Denied config denied)
    {label : RowEvent × TrapEnv} (regular : Regular config w label) :
    ∃ w', trap config w label = some w' ∧ Guarded config denied w' := by
  obtain ⟨event, env⟩ := label
  obtain ⟨table, address, provides, small, short, room, serves, fits⟩ := regular
  have results : ∀ state : Option State,
      umUserMeetering config w.state event.vars env = state →
        (∃ state', state = some state' ∧
          Guarded config denied ⟨state', w.rows.update event⟩) →
        ∃ w', trap config w (event, env) = some w' ∧ Guarded config denied w' := by
    rintro _ done ⟨state', rfl, guarded'⟩
    exact ⟨_, by rw [trap, done]; rfl, guarded'⟩
  apply results _ (umUserMeetering_row config w.state event table address)
  unfold Fits at fits
  split at fits
  · rename_i lost
    rw [if_pos lost]
    exact ⟨_, rfl, guarded.unchanged fits⟩
  rename_i heard
  rw [if_neg heard]
  cases decision : decisionFlag event.pstGenTable.iStatus with
  | umAdd =>
    simp only [decision] at fits
    split at fits
    · rename_i complete
      exact guarded.add provides small room serves decision complete fits.1 fits.2
    · rename_i incomplete
      refine ⟨w.state, ?_, guarded.unchanged fits.2⟩
      rw [umCreateFilter, umAddRule_incomplete fits.1 incomplete]
      rfl
  | umDelete =>
    simp only [decision] at fits
    have after : (w.rows.update event event.service event.index).allowed = none := by
      rw [Rows.update_self]
      exact update_delete decision
    cases found : umGetstructForMod event.pstGenTable.iIndex event.pstGenTable.iFlag
        w.state.stListPtr with
    | none =>
      refine ⟨w.state, ?_, guarded.unchanged ?_⟩
      · rw [umCreateFilter, umDelRule_missing found]
      · rw [guarded.missing found, after]
    | some result =>
      obtain ⟨front, node, back⟩ := result
      obtain ⟨chain, done, mirrors⟩ := umDelRule_found guarded.mirrors
        provides.2.2.2.2.2.1 found (found_small found short)
      refine ⟨⟨front ++ back, chain⟩, ?_, guarded.deleted general found small fits mirrors after⟩
      rw [umCreateFilter, done]
  | umModify =>
    simp only [decision] at fits
    split at fits
    · rename_i before
      have missing : umGetstructForMod event.pstGenTable.iIndex event.pstGenTable.iFlag
          w.state.stListPtr = none := by
        cases found : umGetstructForMod event.pstGenTable.iIndex event.pstGenTable.iFlag
            w.state.stListPtr with
        | none => rfl
        | some result =>
          obtain ⟨front, node, back⟩ := result
          obtain ⟨split, here, _⟩ := getstruct_split found
          have absent := guarded.not_isFor general small before node (by rw [split]; simp)
          rw [show node.isFor (Int16.ofNat event.index) event.service.iFlag = true from here]
            at absent
          cases absent
      exact ⟨w.state, umModifyRule_idle provides fun _ => missing,
        guarded.unchanged (before.trans fits.symm)⟩
    · cases fits
    · rename_i old new before after
      split at fits
      · rename_i modifies
        exact guarded.modify general provides small short room before after
          (serves _ after) modifies fits.1 fits.2
      · rename_i idle
        refine ⟨w.state, umModifyRule_idle provides fun modifies => absurd modifies idle,
          guarded.unchanged ?_⟩
        rw [before, after, fits]

end Steps

section Runs

variable (config : Config)

def noRows : Rows := fun _ _ => noRow

/-- The rules that deny the services are installed one after the other. -/
def installation (envs : Service → Env) : List (Call × Env) :=
  services.map fun service => (.umSetFireWallRule service.iFlag, envs service)

theorem umSetFireWallRule_provided {s : State} {env : Env} (provides : env.Provides)
    (service : Service) :
    step config s (.umSetFireWallRule service.iFlag, env) =
      some ⟨⟨1, 1, umGeneral, ⟨1, ⟨denyRule config service.iFlag env.memory, "DENY"⟩, "input"⟩⟩ ::
        s.stListPtr, ⟨denyRule config service.iFlag env.memory, "DENY"⟩ :: s.chain⟩ := by
  rw [step, umSetFireWallRule, if_neg (by simp [provides.1]), if_neg (by simp [provides.2.1]),
    insertRule_provided provides]
  rfl

theorem installation_denies {envs : Service → Env} (provides : ∀ service, (envs service).Provides) :
    ∃ s, run (step config) start (installation envs) = some s ∧ Denied config s.stListPtr ∧
      Mirrors s := by
  simp only [installation, services, List.map_cons, List.map_nil, run,
    umSetFireWallRule_provided config (provides _)]
  refine ⟨_, rfl, ⟨?_, ?_⟩, rfl⟩
  · simp [start]
  · have plain : ∀ service, (envs service).memory.Plain :=
      fun service => (provides service).2.2.2.2.2.2
    intro service
    cases service with
    | telnet =>
      exact ⟨_, List.mem_cons_of_mem _ (List.mem_cons_of_mem _ (List.mem_cons_of_mem _
        List.mem_cons_self)), _, plain .telnet, rfl⟩
    | ftp =>
      exact ⟨_, List.mem_cons_of_mem _ (List.mem_cons_of_mem _ List.mem_cons_self), _,
        plain .ftp, rfl⟩
    | smtp => exact ⟨_, List.mem_cons_of_mem _ List.mem_cons_self, _, plain .smtp, rfl⟩
    | pop3 => exact ⟨_, List.mem_cons_self, _, plain .pop3, rfl⟩

/-- After every sequence of regular events exactly the packets that the tables allow get
through, and no rule of an inactive row is left. -/
theorem onlyConfigured (envs : Service → Env) (provides : ∀ service, (envs service).Provides)
    (events : List (RowEvent × TrapEnv)) :
    ∃ s, run (step config) start (installation envs) = some s ∧
      (Along (trap config) (Regular config) ⟨s, noRows⟩ events →
        ∃ w, run (trap config) ⟨s, noRows⟩ events = some w ∧ OnlyConfigured config w) := by
  obtain ⟨s, installed, general, mirrors⟩ := installation_denies config provides
  refine ⟨s, installed, ?_⟩
  intro regular
  have guarded : Guarded config s.stListPtr ⟨s, noRows⟩ := by
    constructor
    · exact mirrors
    · exact ⟨[], rfl, by simp⟩
    · intro service index allowed active
      cases active
  obtain ⟨w, executed, guarded'⟩ := run_progress
    (fun w label guarded regular => guarded.step general regular) guarded regular
  exact ⟨w, executed, guarded'.configured_only general⟩

def quiet : TrapEnv := ⟨true, true, outcome true⟩

/-- A Telnet row is created, changed and destroyed beside an FTP row for every address. -/
def ordinaryEvents : List (RowEvent × TrapEnv) :=
  [(⟨.telnet, 1, .ipAddress (some ⟨10, 0, 0, 7⟩), [.portNo (some 23), .status (some 4)]⟩, quiet),
    (⟨.ftp, 1, .status (some 1), [.portNo (some 21), .ipAddress (some everyAddress)]⟩, quiet),
    (⟨.telnet, 1, .ipAddress (some ⟨10, 0, 0, 8⟩), [.portNo (some 23)]⟩, quiet),
    (⟨.telnet, 1, .status (some 6), []⟩, quiet)]

/-- The agent of the host after the installation. -/
def agent : State := (run (step host) start (installation fun _ => outcome true)).getD start

theorem onlyConfigured_ordinary :
    ∃ w, run (trap host) ⟨agent, noRows⟩ ordinaryEvents = some w ∧ OnlyConfigured host w := by
  obtain ⟨s, installed, filters⟩ := onlyConfigured host (fun _ => outcome true)
    (fun _ => by decide) ordinaryEvents
  have same : s = agent := by rw [agent, installed, Option.getD_some]
  rw [same] at filters
  exact filters (by decide +kernel)

def mailEvents : List (RowEvent × TrapEnv) :=
  [(⟨.smtp, 1, .ipAddress (some ⟨10, 0, 0, 7⟩), [.portNo (some 25), .status (some 1)]⟩, quiet)]

def mailPacket : Packet :=
  ⟨"eth0", inetAddr ⟨10, 0, 0, 7⟩, host.cDstAddr, 6, 1024, 25, false, true⟩

theorem onlyConfigured_mail :
    ∃ w, run (trap host) ⟨agent, noRows⟩ mailEvents = some w ∧ ¬ OnlyConfigured host w := by
  obtain ⟨w, executed, denied, active⟩ := run_of_any
    (P := fun w : World => accepts false w.state.chain mailPacket = false ∧
      (w.rows .smtp 1).allowed = some (⟨10, 0, 0, 7⟩, 25))
    (show (run (trap host) ⟨agent, noRows⟩ mailEvents).any _ = true by decide +kernel)
  refine ⟨w, executed, ?_⟩
  intro only
  have accepted := (only.filters false .smtp ⟨10, 0, 0, 7⟩ mailPacket
    ⟨rfl, rfl, rfl, rfl, rfl, rfl⟩).mpr ⟨1, ⟨10, 0, 0, 7⟩, active, .inr rfl⟩
  rw [denied] at accepted
  cases accepted

def repeatedEvents : List (RowEvent × TrapEnv) :=
  [(⟨.telnet, 1, .ipAddress (some ⟨10, 0, 0, 7⟩), [.portNo (some 23), .status (some 4)]⟩, quiet),
    (⟨.telnet, 1, .ipAddress (some ⟨10, 0, 0, 7⟩), [.portNo (some 23), .status (some 1)]⟩, quiet),
    (⟨.telnet, 1, .status (some 6), []⟩, quiet)]

theorem onlyConfigured_repeated :
    ∃ w, run (trap host) ⟨agent, noRows⟩ repeatedEvents = some w ∧ ¬ OnlyConfigured host w := by
  obtain ⟨w, executed, ⟨node, member, here⟩, inactive⟩ := run_of_any
    (P := fun w : World => (∃ node ∈ w.state.stListPtr,
      node.isFor (Int16.ofNat 1) Service.telnet.iFlag = true) ∧
        (w.rows .telnet 1).allowed = none)
    (show (run (trap host) ⟨agent, noRows⟩ repeatedEvents).any _ = true by decide +kernel)
  refine ⟨w, executed, ?_⟩
  intro only
  have absent := only.leftover .telnet 1 (by omega) inactive node member
  rw [here] at absent
  cases absent

end Runs

end EveAgent.UserControl
