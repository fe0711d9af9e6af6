import EveAgent.CTypes

namespace EveAgent.Icp

abbrev Bytes := List UInt8

section Numbers

/-- `htonl` -/
def htonl (value : Nat) : Bytes :=
  [UInt8.ofNat (value / 2 ^ 24), UInt8.ofNat (value / 2 ^ 16), UInt8.ofNat (value / 2 ^ 8),
    UInt8.ofNat value]

def number (bytes : Bytes) : Nat := bytes.foldl (fun value byte => value * 256 + byte.toNat) 0

/-- `ntohl`, assigned to an `I32`. -/
def ntohl (bytes : Bytes) : Int := i32 (number bytes)

@[simp] theorem htonl_length (value : Nat) : (htonl value).length = 4 := rfl

theorem ntohl_htonl {value : Nat} (small : value < 2 ^ 31) : ntohl (htonl value) = value := by
  have whole : number (htonl value) = value := by
    simp only [number, htonl, List.foldl_cons, List.foldl_nil, UInt8.toNat_ofNat']
    omega
  rw [ntohl, whole]
  apply i32_of_range <;> omega

end Numbers

section Records

/-- `MAX_CMD_LEN_PER_PKT` -/
def maxCmdLenPerPkt : Nat := 100

/-- `sizeof(stCmdPacket)` -/
def packetSize : Nat := 116

structure StCmdPacket where
  iModuleId : Int
  iCommandId : Int
  iLastPkt : Int
  ucData : Bytes
  iDataLen : Int
  deriving DecidableEq, Repr

/-- What `read` leaves in the packet, which has been filled with zeros. -/
def received (chunk : Bytes) : Bytes := chunk ++ List.replicate (packetSize - chunk.length) 0

/-- `ICP_ConvertCmdToHostForm` on the bytes of a packet. -/
def icpConvertCmdToHostForm (packet : Bytes) : StCmdPacket where
  iModuleId := ntohl (packet.take 4)
  iCommandId := ntohl ((packet.drop 4).take 4)
  iLastPkt := ntohl ((packet.drop 8).take 4)
  ucData := (packet.drop 12).take maxCmdLenPerPkt
  iDataLen := ntohl ((packet.drop 112).take 4)

/-- The module number of the remote commands, `ICPROC`. -/
def icproc : Nat := 4

/-- A record of a command as it is sent: at most 100 bytes of data, and what stands behind
them in the packet. -/
structure Record where
  iCommandId : Nat
  last : Bool
  data : Bytes
  behind : Bytes
  full : data.length + behind.length = maxCmdLenPerPkt
  deriving DecidableEq

def Record.encode (record : Record) : Bytes :=
  htonl icproc ++ (htonl record.iCommandId ++ (htonl record.last.toNat ++
    ((record.data ++ record.behind) ++ htonl record.data.length)))

variable (record : Record)

theorem Record.data_length : record.data.length ≤ 100 := by
  have full := record.full
  simp only [maxCmdLenPerPkt] at full
  omega

theorem Record.encode_length : record.encode.length = packetSize := by
  have full := record.full
  simp only [maxCmdLenPerPkt] at full
  simp only [encode, List.length_append, htonl_length, packetSize]
  omega

theorem received_encode : received record.encode = record.encode := by
  rw [received, record.encode_length, Nat.sub_self, List.replicate_zero, List.append_nil]

theorem convert_encode :
    icpConvertCmdToHostForm record.encode =
      { iModuleId := icproc
        iCommandId := ntohl (htonl record.iCommandId)
        iLastPkt := record.last.toNat
        ucData := record.data ++ record.behind
        iDataLen := record.data.length } := by
  have full : (record.data ++ record.behind).length = 100 := by
    rw [List.length_append]
    exact record.full
  have short := record.data_length
  have flag : record.last.toNat < 2 ^ 31 := by cases record.last <;> decide
  have skip : ∀ (value count : Nat) (rest : Bytes),
      (htonl value ++ rest).drop (count + 4) = rest.drop count := by
    intro value count rest
    rfl
  have front : ∀ (value : Nat) (rest : Bytes), (htonl value ++ rest).take 4 = htonl value := by
    intro value rest
    rfl
  have data : ((record.data ++ record.behind) ++ htonl record.data.length).take maxCmdLenPerPkt =
      record.data ++ record.behind := List.take_left' full
  have behind : ((record.data ++ record.behind) ++ htonl record.data.length).drop 100 =
      htonl record.data.length := List.drop_left' full
  have length : (htonl record.data.length).take 4 = htonl record.data.length := rfl
  rw [icpConvertCmdToHostForm, Record.encode, show 4 = 0 + 4 from rfl, show 8 = 4 + 4 from rfl,
    show 12 = 4 + 4 + 4 from rfl, show 112 = 100 + 4 + 4 + 4 from rfl]
  simp only [skip, front, List.drop_zero, data, behind, length,
    ntohl_htonl (show icproc < 2 ^ 31 by decide), ntohl_htonl flag,
    ntohl_htonl (show record.data.length < 2 ^ 31 by omega), Nat.zero_add]

end Records

section Messages

/-- A command sent as one or more records, of which only the final one is flagged. -/
structure Message where
  front : List Record
  final : Record
  unflagged : ∀ record ∈ front, record.last = false
  flagged : final.last = true

def Message.records (message : Message) : List Record := message.front ++ [message.final]

def Message.command (message : Message) : Bytes := message.records.flatMap Record.data

def sentRecords (messages : List Message) : List Record := messages.flatMap Message.records

def byteStream (records : List Record) : Bytes := records.flatMap Record.encode

/-- The commands that records complete, and the data of the command they leave open. -/
def assembled : List Record → List Bytes × Bytes → List Bytes × Bytes
  | [], state => state
  | record :: records, (commands, part) =>
    assembled records <|
      if record.last then (commands ++ [part ++ record.data], [])
      else (commands, part ++ record.data)

theorem assembled_append (first second : List Record) (state : List Bytes × Bytes) :
    assembled (first ++ second) state = assembled second (assembled first state) := by
  induction first generalizing state with
  | nil => rfl
  | cons record first ih => exact ih _

theorem assembled_front {front : List Record} (unflagged : ∀ record ∈ front, record.last = false)
    (commands : List Bytes) (part : Bytes) :
    assembled front (commands, part) = (commands, part ++ front.flatMap Record.data) := by
  induction front generalizing part with
  | nil => simp [assembled]
  | cons record front ih =>
    rw [assembled, if_neg (by simp [unflagged record List.mem_cons_self])]
    rw [ih fun later member => unflagged later (List.mem_cons_of_mem _ member)]
    simp

theorem assembled_messages (messages : List Message) (commands : List Bytes) :
    assembled (sentRecords messages) (commands, []) =
      (commands ++ messages.map Message.command, []) := by
  induction messages generalizing commands with
  | nil => simp [sentRecords, assembled]
  | cons message messages ih =>
    have whole : sentRecords (message :: messages) =
        message.front ++ message.final :: sentRecords messages := by
      simp [sentRecords, Message.records]
    rw [whole, assembled_append, assembled_front message.unflagged, assembled,
      if_pos message.flagged, ih]
    simp [Message.command, Message.records]

theorem assembled_prefix (records : List Record) (state : List Bytes × Bytes) :
    state.1 <+: (assembled records state).1 := by
  induction records generalizing state with
  | nil => exact List.prefix_refl _
  | cons record records ih =>
    apply List.IsPrefix.trans _ (ih _)
    split
    · exact List.prefix_append _ _
    · exact List.prefix_refl _

end Messages

end EveAgent.Icp
