import EveAgent.CText
import EveAgent.CTypes

namespace EveAgent.FileDist

section Relay

def bufsize : Nat := 1500

structure FileDistInfoStruct where
  pcPackageBuffer : Text
  isize : Int
  delFlag : Int
  deriving DecidableEq, Repr

/-- The record that `FD_ParseXMLData` fills from a configuration, with what has become of its
flag since. -/
def parsed (pcBuffer : Text) (delFlag : Int) : FileDistInfoStruct where
  pcPackageBuffer := pcBuffer
  isize := i32 pcBuffer.length
  delFlag := delFlag

/-- An entry of `destIp`, with what the calls for it return: `FD_SendPackage`, `socket`,
`connect`, and `send` by the number of the call and the length it is given. -/
structure Destination where
  IP : Text
  sendPackage : Bool
  socket : Bool
  connect : Bool
  send : Nat → Nat → Int

/-- The pointer into the buffer, the calls of `send` and the bytes on the connection. -/
structure Connection where
  pctemp : Text
  calls : Nat
  sent : Text
  deriving DecidableEq, Repr

/-- `send(iclientFD, pctemp, length, 0)`, with its result in the type of `inwrite`. -/
def Connection.send (connection : Connection) (destination : Destination) (length : Nat) :
    Int × Connection :=
  let result := destination.send connection.calls length
  (i16 result, { connection with
    calls := connection.calls + 1
    sent := connection.sent ++ connection.pctemp.take (min length result.toNat) })

/-- The loop over full packets, with the number of rounds that are left. It says whether every
packet has been taken. -/
def sendPackets (destination : Destination) : Nat → Connection → Bool × Connection
  | 0, connection => (true, connection)
  | rounds + 1, connection =>
    match connection.send destination bufsize with
    | (inwrite, connection) =>
      if inwrite ≤ 0 then (false, connection)
      else sendPackets destination rounds
        { connection with pctemp := connection.pctemp.drop bufsize }

/-- The calls of `FD_LogData`, by action and result. -/
abbrev Log := List (Text × Text)

def failed : Text × Text := ("sending".toList, "failed".toList)

def FileDistInfoStruct.inoofpacket (pstFDInfo : FileDistInfoStruct) : Int :=
  i16 (pstFDInfo.isize.tdiv bufsize)

def FileDistInfoStruct.iextrapacket (pstFDInfo : FileDistInfoStruct) : Int :=
  i16 (pstFDInfo.isize.tmod bufsize)

/-- What `FD_SendConfig` does with a connection: the bytes it sends and the log. -/
def sendBuffer (pstFDInfo : FileDistInfoStruct) (destination : Destination) : Text × Log :=
  -- the loop counts from 1
  match sendPackets destination (pstFDInfo.inoofpacket - 1).toNat
    ⟨pstFDInfo.pcPackageBuffer, 0, []⟩ with
  | (complete, connection) =>
    let log := if complete then [] else [failed]
    if pstFDInfo.iextrapacket ≠ 0 then
      match connection.send destination connection.pctemp.length with
      | (inwrite, connection) => (connection.sent, if inwrite ≤ 0 then log ++ [failed] else log)
    else (connection.sent, log)

/-- The connections made, by address and bytes, the log, the record that is left when it has
not been deleted, and the result. -/
structure Relay where
  sent : List (Text × Text)
  log : Log
  record : Option FileDistInfoStruct
  result : ENASCenterError
  deriving DecidableEq, Repr

/-- `FD_SendConfig`, with the connections and the log so far. -/
def sendConfig (pstFDInfo : FileDistInfoStruct) :
    List Destination → List (Text × Text) → Log → Relay
  | [], sent, log =>
    if pstFDInfo.delFlag = 1 then ⟨sent, log, none, .nascSuccess⟩
    else ⟨sent, log, some { pstFDInfo with delFlag := 1 }, .nascSuccess⟩
  | pstIp :: rest, sent, log =>
    let log := log ++
      [if pstIp.sendPackage then ("sending".toList, "success".toList) else failed]
    if !pstIp.socket then ⟨sent, log, some pstFDInfo, .nascFailure⟩
    else if !pstIp.connect then sendConfig pstFDInfo rest sent (log ++ [failed])
    else
      match sendBuffer pstFDInfo pstIp with
      | (bytes, log') => sendConfig pstFDInfo rest (sent ++ [(pstIp.IP, bytes)]) (log ++ log')

end Relay

section Completeness

/-- The destination takes the connection and every byte. -/
structure Destination.Accepts (destination : Destination) : Prop where
  socket : destination.socket = true
  connect : destination.connect = true
  send : ∀ calls length, destination.send calls length = length

variable {pcBuffer : Text} {delFlag : Int} {destination : Destination}
  {destinations : List Destination}

theorem send_accepts (accepts : destination.Accepts) (connection : Connection) (length : Nat) :
    connection.send destination length = (i16 length, { connection with
      calls := connection.calls + 1
      sent := connection.sent ++ connection.pctemp.take length }) := by
  rw [Connection.send, accepts.send, Int.toNat_natCast, Nat.min_self]

theorem sendPackets_accepts (accepts : destination.Accepts) (rounds : Nat)
    (connection : Connection) :
    sendPackets destination rounds connection = (true,
      { pctemp := connection.pctemp.drop (rounds * bufsize)
        calls := connection.calls + rounds
        sent := connection.sent ++ connection.pctemp.take (rounds * bufsize) }) := by
  induction rounds generalizing connection with
  | zero => simp [sendPackets]
  | succ rounds ih =>
    have taken : ¬ i16 (bufsize : Nat) ≤ 0 := by decide
    rw [sendPackets, send_accepts accepts]
    simp only [if_neg taken]
    rw [ih, Nat.succ_mul, Nat.add_comm (rounds * bufsize), List.take_add, ← List.drop_drop,
      List.append_assoc, Nat.add_assoc, Nat.add_comm 1]


theorem sendBuffer_accepts (pstFDInfo : FileDistInfoStruct) (accepts : destination.Accepts) :
    (sendBuffer pstFDInfo destination).1 =
      if pstFDInfo.iextrapacket ≠ 0 then pstFDInfo.pcPackageBuffer
      else pstFDInfo.pcPackageBuffer.take ((pstFDInfo.inoofpacket - 1).toNat * bufsize) := by
  rw [sendBuffer, sendPackets_accepts accepts]
  by_cases rest : pstFDInfo.iextrapacket ≠ 0
  · simp only [if_pos rest, send_accepts accepts, List.nil_append, List.take_length,
      List.take_append_drop]
  · simp only [if_neg rest, List.nil_append]

theorem sendConfig_accepts (pstFDInfo : FileDistInfoStruct)
    (accept : ∀ destination ∈ destinations, destination.Accepts) (sent : List (Text × Text))
    (log : Log) : (sendConfig pstFDInfo destinations sent log).sent =
      sent ++ destinations.map fun pstIp => (pstIp.IP, (sendBuffer pstFDInfo pstIp).1) := by
  induction destinations generalizing sent log with
  | nil =>
    rw [sendConfig]
    split <;> exact (List.append_nil sent).symm
  | cons pstIp rest ih =>
    obtain ⟨first, others⟩ := List.forall_mem_cons.mp accept
    simp only [sendConfig, first.socket, first.connect, Bool.not_true, Bool.false_eq_true, if_false]
    rw [ih others, List.map_cons, List.append_assoc]
    rfl

theorem iextrapacket_parsed : (parsed pcBuffer delFlag).iextrapacket =
    (i32 pcBuffer.length).tmod bufsize := by
  have lower := Int.lt_tmod_of_pos (i32 pcBuffer.length) (show (0 : Int) < bufsize by decide)
  have upper := Int.tmod_lt_of_pos (i32 pcBuffer.length) (show (0 : Int) < bufsize by decide)
  have size : ((bufsize : Nat) : Int) = 1500 := rfl
  have extra : (parsed pcBuffer delFlag).iextrapacket =
      i16 ((i32 pcBuffer.length).tmod bufsize) := rfl
  rw [extra]
  rw [size] at lower upper ⊢
  apply i16_of_range
  · omega
  · omega

theorem loop_short (whole : (parsed pcBuffer delFlag).iextrapacket = 0) (text : pcBuffer ≠ []) :
    ((parsed pcBuffer delFlag).inoofpacket - 1).toNat * bufsize < pcBuffer.length := by
  have present : 0 < pcBuffer.length := List.length_pos_of_ne_nil text
  have size : ((bufsize : Nat) : Int) = 1500 := rfl
  rw [iextrapacket_parsed, size] at whole
  have quotient := Int.tmod_add_mul_tdiv (i32 pcBuffer.length) 1500
  have packets : (parsed pcBuffer delFlag).inoofpacket =
      i16 ((i32 pcBuffer.length).tdiv 1500) := rfl
  rw [packets, bufsize]
  rw [whole] at quotient
  generalize (i32 pcBuffer.length).tdiv 1500 = inoofpacket at quotient ⊢
  have range := i16_range inoofpacket
  -- a text of any greater length is longer than all packets that can be counted
  by_cases small : (pcBuffer.length : Int) < 2 ^ 31
  · rw [i32_of_range (by omega) small] at quotient
    have counted : i16 inoofpacket ≤ inoofpacket := by
      rw [i16]
      omega
    omega
  · omega

theorem sendBuffer_whole (accepts : destination.Accepts) :
    (sendBuffer (parsed pcBuffer delFlag) destination).1 = pcBuffer ↔
      pcBuffer = [] ∨ (i32 pcBuffer.length).tmod bufsize ≠ 0 := by
  suffices counted : (sendBuffer (parsed pcBuffer delFlag) destination).1 = pcBuffer ↔
      pcBuffer = [] ∨ (parsed pcBuffer delFlag).iextrapacket ≠ 0 by
    rw [iextrapacket_parsed] at counted
    exact counted
  have buffer : (parsed pcBuffer delFlag).pcPackageBuffer = pcBuffer := rfl
  rw [sendBuffer_accepts _ accepts, buffer]
  by_cases rest : (parsed pcBuffer delFlag).iextrapacket ≠ 0
  · rw [if_pos rest]
    exact ⟨fun _ => Or.inr rest, fun _ => rfl⟩
  · rw [if_neg rest]
    constructor
    · intro whole
      by_contra neither
      have short := loop_short (not_not.mp rest) (not_or.mp neither).1
      have length := congrArg List.length whole
      rw [List.length_take] at length
      omega
    · intro enough
      rcases enough with empty | more
      · rw [empty, List.take_nil]
      · exact absurd more rest

/-- Every destination gets the whole text exactly when some part of it is left for the send
behind the loop. -/
theorem config_relayed (pcBuffer : Text) (delFlag : Int) (destinations : List Destination)
    (accept : ∀ destination ∈ destinations, destination.Accepts) :
    (sendConfig (parsed pcBuffer delFlag) destinations [] []).sent =
        destinations.map (fun pstIp => (pstIp.IP, pcBuffer)) ↔
      destinations = [] ∨ pcBuffer = [] ∨ (i32 pcBuffer.length).tmod bufsize ≠ 0 := by
  rw [sendConfig_accepts _ accept, List.nil_append]
  constructor
  · intro whole
    cases destinations with
    | nil => exact Or.inl rfl
    | cons pstIp rest =>
      have first := List.map_inj_left.mp whole pstIp List.mem_cons_self
      obtain ⟨_, relayed⟩ := Prod.mk.inj first
      exact Or.inr ((sendBuffer_whole (accept pstIp List.mem_cons_self)).mp relayed)
  · intro enough
    apply List.map_inj_left.mpr
    intro pstIp member
    rcases enough with none | enough
    · rw [none] at member
      cases member
    · rw [(sendBuffer_whole (accept pstIp member)).mpr enough]

def recipient (IP : Text) : Destination where
  IP := IP
  sendPackage := true
  socket := true
  connect := true
  send := fun _ length => length

theorem recipient_accepts (IP : Text) : (recipient IP).Accepts := ⟨rfl, rfl, fun _ _ => rfl⟩

theorem config_relayed_two :
    (∀ destination ∈ [recipient "10.0.0.1".toList, recipient "10.0.0.2".toList],
      destination.Accepts) ∧
    (sendConfig (parsed "<FileDist></FileDist>".toList 0)
      [recipient "10.0.0.1".toList, recipient "10.0.0.2".toList] [] []).sent =
        [("10.0.0.1".toList, "<FileDist></FileDist>".toList),
          ("10.0.0.2".toList, "<FileDist></FileDist>".toList)] := by
  have accept : ∀ destination ∈ [recipient "10.0.0.1".toList, recipient "10.0.0.2".toList],
      destination.Accepts := by
    intro destination member
    rcases List.mem_pair.mp member with first | second
    · exact first ▸ recipient_accepts _
    · exact second ▸ recipient_accepts _
  exact ⟨accept, (config_relayed _ 0 _ accept).mpr (Or.inr (Or.inr (by decide)))⟩

/-- A text of one packet is not sent at all. -/
theorem config_relayed_packet : ¬ ∀ (pcBuffer : Text) (delFlag : Int)
    (destinations : List Destination), (∀ destination ∈ destinations, destination.Accepts) →
      (sendConfig (parsed pcBuffer delFlag) destinations [] []).sent =
        destinations.map (fun pstIp => (pstIp.IP, pcBuffer)) := by
  intro always
  have accept : ∀ destination ∈ [recipient "10.0.0.1".toList], destination.Accepts := by
    intro destination member
    exact List.mem_singleton.mp member ▸ recipient_accepts _
  have sent := always (List.replicate 1500 'a') 0 _ accept
  rw [sendConfig_accepts _ accept, List.nil_append] at sent
  obtain ⟨_, relayed⟩ := Prod.mk.inj (List.map_inj_left.mp sent _ List.mem_cons_self)
  rcases (sendBuffer_whole (recipient_accepts _)).mp relayed with empty | more
  · exact absurd ((List.replicate_eq_nil_iff 'a').mp empty) (by decide)
  · rw [List.length_replicate] at more
    exact more (by decide)

end Completeness

end EveAgent.FileDist
