import EveAgent.UserControl.RowEvents

namespace EveAgent.UserControl

section Kernel

/-- `isFragment` is a fragment but the first. -/
structure Packet where
  iface : String
  src : UInt32
  dst : UInt32
  proto : UInt16
  sport : UInt16
  dport : UInt16
  isFragment : Bool
  isSyn : Bool
  deriving DecidableEq, Repr

def flagTcpSyn : UInt16 := 0x0002
def flagFrag : UInt16 := 0x0004
def flagWildIf : UInt16 := 0x0010

def portMatch (range : UInt16 × UInt16) (port : UInt16) (isFragment : Bool) : Bool :=
  if isFragment then range == (0, 0xFFFF) else decide (range.1 ≤ port ∧ port ≤ range.2)

/-- `ip_rule_match` for a rule that inverts no test, as no rule of the agent does. -/
def IpFw.matches (rule : IpFw) (packet : Packet) : Bool :=
  packet.src &&& rule.fwSmsk == rule.fwSrc &&
    packet.dst &&& rule.fwDmsk == rule.fwDst &&
    (if rule.fwFlg &&& flagWildIf = 0 then packet.iface == rule.fwVianame
      else rule.fwVianame.toList.isPrefixOf packet.iface.toList) &&
    (rule.fwProto == 0 || packet.proto == rule.fwProto) &&
    (rule.fwFlg &&& flagFrag == 0 || packet.isFragment) &&
    (rule.fwFlg &&& flagTcpSyn == 0 || packet.isSyn) &&
    portMatch rule.fwSpts packet.sport packet.isFragment &&
    portMatch rule.fwDpts packet.dport packet.isFragment

/-- `policy` tells whether the chain accepts what no rule matches. -/
def accepts (policy : Bool) (chain : List IpFwUser) (packet : Packet) : Bool :=
  match chain.find? (·.ipfw.matches packet) with
  | some rule => rule.label == "ACCEPT"
  | none => policy

variable {front back : List IpFwUser} {packet : Packet}

theorem accepts_append (policy : Bool) (accepting : ∀ rule ∈ front, rule.label = "ACCEPT")
    (denying : ∀ rule ∈ back, rule.label = "DENY")
    (denied : ∃ rule ∈ back, rule.ipfw.matches packet = true) :
    accepts policy (front ++ back) packet = true ↔
      ∃ rule ∈ front, rule.ipfw.matches packet = true := by
  rw [accepts, List.find?_append]
  cases found : front.find? (·.ipfw.matches packet) with
  | some rule =>
    rw [Option.some_or]
    have member := List.mem_of_find?_eq_some found
    have hit := List.find?_some found
    simp only [accepting rule member, beq_self_eq_true, true_iff]
    exact ⟨rule, member, hit⟩
  | none =>
    rw [Option.none_or]
    have missed := List.find?_eq_none.mp found
    constructor
    · intro accepted
      cases below : back.find? (·.ipfw.matches packet) with
      | some rule =>
        simp only [below, denying rule (List.mem_of_find?_eq_some below)] at accepted
        exact absurd accepted (by decide)
      | none =>
        obtain ⟨rule, member, hit⟩ := denied
        exact absurd hit (List.find?_eq_none.mp below rule member)
    · rintro ⟨rule, member, hit⟩
      exact absurd hit (missed rule member)

end Kernel

section Rules

variable (config : Config)

def Service.port : Service → UInt16
  | .telnet => 23
  | .ftp => 21
  | .smtp => 25
  | .pop3 => 110

/-- A TCP packet to the port of a service of this host that comes in through the interface
of the rules. -/
structure Packet.IsFor (packet : Packet) (service : Service) (a : IpAddress) : Prop where
  iface : packet.iface = "eth0"
  src : packet.src = inetAddr a
  dst : packet.dst = config.cDstAddr
  proto : packet.proto = 6
  dport : packet.dport = service.port
  isFragment : packet.isFragment = false

/-- The memory of a new rule has none of the flags that narrow a rule. -/
def IpFw.Plain (memory : IpFw) : Prop :=
  memory.fwFlg &&& flagFrag = 0 ∧ memory.fwFlg &&& flagTcpSyn = 0

instance : DecidablePred IpFw.Plain := fun _ => inferInstanceAs (Decidable (_ ∧ _))

def Describes (rule : IpFwUser) (service : Service) (ip : IpAddress) (iPortNum : Int16) : Prop :=
  ∃ memory : IpFw, memory.Plain ∧
    rule = ⟨allowRule config ip service.iFlag iPortNum memory, "ACCEPT"⟩

def Denies (rule : IpFwUser) (service : Service) : Prop :=
  ∃ memory : IpFw, memory.Plain ∧ rule = ⟨denyRule config service.iFlag memory, "DENY"⟩

variable {config} {rule : IpFwUser} {service other : Service} {ip a : IpAddress}
  {iPortNum : Int16} {packet : Packet}

theorem inetAddr_toNat (ip : IpAddress) : (inetAddr ip).toNat =
    ip.a.toNat * 2 ^ 24 + ip.b.toNat * 2 ^ 16 + ip.c.toNat * 2 ^ 8 + ip.d.toNat := by
  have a := ip.a.toNat_lt
  have b := ip.b.toNat_lt
  have c := ip.c.toNat_lt
  have d := ip.d.toNat_lt
  rw [inetAddr, UInt32.toNat_ofNat_of_lt']
  rw [UInt32.size]
  omega

theorem inetAddr_injective : Function.Injective inetAddr := by
  intro ip other same
  have values := congrArg UInt32.toNat same
  rw [inetAddr_toNat, inetAddr_toNat] at values
  have a := ip.a.toNat_lt
  have b := ip.b.toNat_lt
  have c := ip.c.toNat_lt
  have d := ip.d.toNat_lt
  have a' := other.a.toNat_lt
  have b' := other.b.toNat_lt
  have c' := other.c.toNat_lt
  have d' := other.d.toNat_lt
  obtain ⟨ia, ib, ic, id⟩ := ip
  obtain ⟨oa, ob, oc, od⟩ := other
  simp only [IpAddress.mk.injEq, ← UInt8.toNat_inj] at *
  omega

theorem and_everyAddress (x : UInt32) : x &&& inetAddr everyAddress = x := by
  have all : inetAddr everyAddress = -1 := by decide
  rw [all, UInt32.and_neg_one]

theorem and_noAddress (x : UInt32) : x &&& inetAddr noAddress = inetAddr noAddress := by
  have none : inetAddr noAddress = 0 := by decide
  rw [none, UInt32.and_zero]

theorem portMatch_all (port : UInt16) : portMatch (0, 0xFFFF) port false = true := by
  have low : (0 : UInt16) ≤ port := by simp
  have high : port ≤ (0xFFFF : UInt16) := by
    rw [UInt16.le_iff_toNat_le]
    have := port.toNat_lt
    simp only [UInt16.reduceToNat]
    omega
  simp [portMatch, high]

theorem ipfw_matches_service (isFor : packet.IsFor config service a) {rule : IpFw}
    (plain : rule.Plain) (iface : rule.fwVianame = "eth0") (dst : rule.fwDst = config.cDstAddr)
    (dmsk : rule.fwDmsk = inetAddr everyAddress) (spts : rule.fwSpts = (0, 0xFFFF)) :
    rule.matches packet = true ↔
      inetAddr a &&& rule.fwSmsk = rule.fwSrc ∧ (rule.fwProto = 0 ∨ rule.fwProto = 6) ∧
        rule.fwDpts.1 ≤ service.port ∧ service.port ≤ rule.fwDpts.2 := by
  have through : (if rule.fwFlg &&& flagWildIf = 0 then packet.iface == rule.fwVianame
      else rule.fwVianame.toList.isPrefixOf packet.iface.toList) = true := by
    rw [isFor.iface, iface]
    split
    · simp
    · simp
  rw [IpFw.matches, through, isFor.src, isFor.dst, isFor.proto, isFor.dport, isFor.isFragment,
    plain.1, plain.2, dst, dmsk, spts, and_everyAddress, portMatch_all]
  simp [portMatch, eq_comm (a := (6 : UInt16)), and_assoc]

theorem denyRule_fields (config : Config) (service : Service) (memory : IpFw) :
    (denyRule config service.iFlag memory).fwSrc = inetAddr noAddress ∧
      (denyRule config service.iFlag memory).fwSmsk = inetAddr noAddress ∧
      (denyRule config service.iFlag memory).fwProto = 6 ∧
      (denyRule config service.iFlag memory).fwDpts = (service.port, service.port) ∧
      (denyRule config service.iFlag memory).fwFlg = memory.fwFlg ∧
      (denyRule config service.iFlag memory).fwVianame = "eth0" ∧
      (denyRule config service.iFlag memory).fwDst = config.cDstAddr ∧
      (denyRule config service.iFlag memory).fwDmsk = inetAddr everyAddress ∧
      (denyRule config service.iFlag memory).fwSpts = (0, 0xFFFF) := by
  cases service <;> simp [denyRule, denyPort, umRuleInitialize, Service.iFlag, Service.port,
    allowTelnet, allowFtp, allowSmtp, allowPop3]

theorem denies_matches (denies : Denies config rule service)
    (isFor : packet.IsFor config service a) : rule.ipfw.matches packet = true := by
  obtain ⟨memory, plain, rfl⟩ := denies
  obtain ⟨src, smsk, proto, dpts, flags, iface, dst, dmsk, spts⟩ :=
    denyRule_fields config service memory
  have plain' : (denyRule config service.iFlag memory).Plain := by
    simpa only [IpFw.Plain, flags] using plain
  rw [ipfw_matches_service isFor plain' iface dst dmsk spts, src, smsk, proto, dpts]
  exact ⟨and_noAddress _, .inr rfl, UInt16.le_refl _, UInt16.le_refl _⟩

/-- The protocol number of the rules for a service. -/
def Service.proto : Service → UInt16
  | .telnet => 6
  | .ftp => 6
  | .smtp => 25
  | .pop3 => 110

theorem allowRule_address (memory : IpFw) :
    inetAddr a &&& (allowRule config ip service.iFlag iPortNum memory).fwSmsk =
        (allowRule config ip service.iFlag iPortNum memory).fwSrc ↔
      ip = everyAddress ∨ ip = a := by
  have fields : (allowRule config ip service.iFlag iPortNum memory).fwSrc =
        (if ip = everyAddress then inetAddr noAddress else inetAddr ip) ∧
      (allowRule config ip service.iFlag iPortNum memory).fwSmsk =
        (if ip = everyAddress then inetAddr noAddress else inetAddr everyAddress) := by
    by_cases every : ip = everyAddress <;> cases service <;> simp [allowRule, allowPort, every,
      Service.iFlag, allowTelnet, allowFtp, allowSmtp, allowPop3]
  rw [fields.1, fields.2]
  by_cases every : ip = everyAddress
  · simp [every, and_noAddress]
  · rw [if_neg every, if_neg every, and_everyAddress]
    simp only [every, false_or]
    exact ⟨fun same => (inetAddr_injective same).symm, fun same => congrArg inetAddr same.symm⟩

theorem allowRule_fields (config : Config) (ip : IpAddress) (service : Service)
    (iPortNum : Int16) (memory : IpFw) :
    (allowRule config ip service.iFlag iPortNum memory).fwProto = service.proto ∧
      (allowRule config ip service.iFlag iPortNum memory).fwDpts =
        (portNumber iPortNum, portNumber iPortNum) ∧
      (allowRule config ip service.iFlag iPortNum memory).fwFlg = memory.fwFlg ∧
      (allowRule config ip service.iFlag iPortNum memory).fwVianame = "eth0" ∧
      (allowRule config ip service.iFlag iPortNum memory).fwDst = config.cDstAddr ∧
      (allowRule config ip service.iFlag iPortNum memory).fwDmsk = inetAddr everyAddress ∧
      (allowRule config ip service.iFlag iPortNum memory).fwSpts = (0, 0xFFFF) := by
  cases service <;> exact ⟨rfl, rfl, rfl, rfl, rfl, rfl, rfl⟩

theorem describes_matches (describes : Describes config rule other ip iPortNum)
    (isFor : packet.IsFor config service a) : rule.ipfw.matches packet = true ↔
      (other = .telnet ∨ other = .ftp) ∧ (ip = everyAddress ∨ ip = a) ∧
        portNumber iPortNum = service.port := by
  obtain ⟨memory, plain, rfl⟩ := describes
  obtain ⟨proto, dpts, flags, iface, dst, dmsk, spts⟩ :=
    allowRule_fields config ip other iPortNum memory
  have plain' : (allowRule config ip other.iFlag iPortNum memory).Plain := by
    simpa only [IpFw.Plain, flags] using plain
  rw [ipfw_matches_service isFor plain' iface dst dmsk spts, allowRule_address, proto, dpts]
  have tcp : (other.proto = 0 ∨ other.proto = 6) ↔ other = .telnet ∨ other = .ftp := by
    cases other <;> decide
  have between : portNumber iPortNum ≤ service.port ∧ service.port ≤ portNumber iPortNum ↔
      portNumber iPortNum = service.port := by
    constructor
    · rintro ⟨low, high⟩
      exact UInt16.le_antisymm low high
    · intro same
      rw [same]
      exact ⟨UInt16.le_refl _, UInt16.le_refl _⟩
  rw [tcp, between]
  tauto

end Rules

end EveAgent.UserControl
