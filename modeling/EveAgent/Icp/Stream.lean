import EveAgent.Icp.Packet
import EveAgent.Icp.Commands

/-! A session of the remote command server: the loop that puts the commands together from
what `read` returns. -/

namespace EveAgent.Icp

section Session

inductive Read where
  | chunk (bytes : Bytes)
  | interrupted
  | failed
  | closed
  deriving DecidableEq, Repr

/-- One turn of the loop: what `read` returns, the memory behind `ucData`, and whether the
allocator grants what is asked for. -/
structure Turn where
  read : Read
  behind : Bytes
  granted : Bool
  deriving DecidableEq, Repr

inductive Phase where
  | request
  | commands
  | ended
  | undefined
  deriving DecidableEq, Repr

structure Buffer where
  text : Bytes
  size : Nat
  deriving DecidableEq, Repr

/-- `outside` records a write outside of `pucScratchForCmd`. -/
structure Session where
  phase : Phase
  pucScratchForCmd : Option Buffer
  iTotalCmdSize : Int
  served : List (Bytes × Answer)
  outside : Bool
  deriving DecidableEq, Repr

def start : Session := ⟨.request, none, 0, [], false⟩

def characters (bytes : Bytes) : Text := bytes.map fun byte => Char.ofNat byte.toNat

/-- The check of a whole command and the answer to it. -/
def Session.serve (list : StIcpList) (s : Session) (command : Bytes) : Session :=
  match answer list (characters command) with
  | none => { s with phase := .undefined }
  | some given => { s with served := s.served ++ [(command, given)] }

/-- What `strncat` copies of the packet. -/
def copied (packet : StCmdPacket) (behind : Bytes) : Bytes :=
  ((packet.ucData ++ behind).takeWhile (· != 0)).take (sizeT packet.iDataLen)

/-- The data of the record is appended; behind the final record the command is served. -/
def Session.append (list : StIcpList) (s : Session) (buffer : Buffer) (packet : StCmdPacket)
    (behind : Bytes) : Session :=
  if buffer.text.length + (copied packet behind).length < buffer.size ∧
      0 < s.iTotalCmdSize ∧ s.iTotalCmdSize ≤ buffer.size then
    let text := (buffer.text ++ copied packet behind).take (s.iTotalCmdSize - 1).toNat
    if packet.iLastPkt = 1 then
      { s with pucScratchForCmd := none, iTotalCmdSize := 0 }.serve list text
    else { s with pucScratchForCmd := some ⟨text, buffer.size⟩ }
  else { s with phase := .undefined, outside := true }

/-- One record; a record without data is only answered with the prompt. -/
def Session.record (list : StIcpList) (s : Session) (packet : StCmdPacket) (behind : Bytes)
    (granted : Bool) : Session :=
  if packet.iDataLen = 0 then s
  else
    let total := i32 (s.iTotalCmdSize + packet.iDataLen)
    match s.pucScratchForCmd with
    | none =>
      if granted then
        { s with iTotalCmdSize := i32 (total + 1) }.append list ⟨[], sizeT (i32 (total + 1))⟩
          packet behind
      else { s with phase := .ended }
    | some buffer =>
      -- a failed `realloc` leaves the null pointer to `strncat`
      if granted then
        { s with iTotalCmdSize := total }.append list ⟨buffer.text, sizeT total⟩ packet behind
      else { s with phase := .undefined, outside := true }

/-- A turn of the loop of `ICP_ProcessRequest` and then of `ICP_ProcessICPCommand`. -/
def step (list : StIcpList) (s : Session) (turn : Turn) : Option Session :=
  match s.phase, turn.read with
  | .request, .chunk bytes =>
    if 0 < bytes.length ∧ bytes.length ≤ packetSize then
      let packet := icpConvertCmdToHostForm (received bytes)
      if packet.iModuleId = icproc then
        some ({ s with phase := .commands }.record list packet turn.behind turn.granted)
      else some { s with phase := .ended }
    else none
  | .request, .interrupted => some s
  | .request, .failed => some s
  | .commands, .chunk bytes =>
    if 0 < bytes.length ∧ bytes.length ≤ packetSize then
      some (s.record list (icpConvertCmdToHostForm (received bytes)) turn.behind turn.granted)
    else none
  | .commands, .interrupted => some s
  | .commands, .failed => some { s with phase := .ended }
  | .request, .closed => some { s with phase := .ended }
  | .commands, .closed => some { s with phase := .ended }
  | .ended, _ => none
  | .undefined, _ => none

/-- The part of a command that has been put together. -/
def Session.text (s : Session) : Bytes := (s.pucScratchForCmd.map Buffer.text).getD []

end Session

section Memory

/-- The buffer holds its string and the zero behind it, and its size is known. -/
structure Sound (s : Session) : Prop where
  inside : s.outside = false
  empty : s.pucScratchForCmd = none → s.iTotalCmdSize = 0
  filled : ∀ buffer, s.pucScratchForCmd = some buffer →
    buffer.text.length < buffer.size ∧ s.iTotalCmdSize = buffer.size ∧ buffer.size < 2 ^ 31

/-- The length of a record is not negative, the size of the buffer fits its type, and memory
for a larger buffer is granted. -/
def PacketFits (s : Session) (packet : StCmdPacket) (granted : Bool) : Prop :=
  packet.iDataLen = 0 ∨
    0 < packet.iDataLen ∧ s.iTotalCmdSize + packet.iDataLen + 1 < 2 ^ 31 ∧
      (s.pucScratchForCmd ≠ none → granted = true)

instance (s : Session) (packet : StCmdPacket) (granted : Bool) :
    Decidable (PacketFits s packet granted) := inferInstanceAs (Decidable (_ ∨ _ ∧ _ ∧ _))

/-- The condition on a turn under which the buffer is kept. -/
def Fits (s : Session) (turn : Turn) : Prop :=
  match turn.read with
  | .chunk bytes => PacketFits s (icpConvertCmdToHostForm (received bytes)) turn.granted
  | _ => True

instance (s : Session) (turn : Turn) : Decidable (Fits s turn) := by
  unfold Fits
  split <;> infer_instance

variable {list : StIcpList} {s t : Session} {turn : Turn} {turns : List Turn}
  {packet : StCmdPacket} {behind : Bytes} {granted : Bool}

theorem sizeT_of_range {value : Int} (lower : 0 ≤ value) (upper : value < 2 ^ 31) :
    (sizeT value : Int) = value := by
  simp only [sizeT]
  omega

theorem start_sound : Sound start := ⟨rfl, fun _ => rfl, fun _ none => by cases none⟩

theorem Sound.bound (sound : Sound s) : 0 ≤ s.iTotalCmdSize ∧ s.text.length ≤ s.iTotalCmdSize := by
  cases scratch : s.pucScratchForCmd with
  | none => simp [sound.empty scratch, Session.text, scratch]
  | some buffer =>
    have filled := sound.filled buffer scratch
    simp only [Session.text, scratch, Option.map_some, Option.getD_some]
    omega

theorem copied_length (packet : StCmdPacket) (behind : Bytes) (data : 0 < packet.iDataLen)
    (small : packet.iDataLen < 2 ^ 31) : (copied packet behind).length ≤ packet.iDataLen := by
  have room := sizeT_of_range (by omega) small
  rw [copied, List.length_take]
  omega

/-- The state once the data of a record stands behind the text. -/
def Session.extended (list : StIcpList) (s : Session) (packet : StCmdPacket) (behind : Bytes)
    (size : Nat) : Session :=
  if packet.iLastPkt = 1 then
    { s with pucScratchForCmd := none, iTotalCmdSize := 0 }.serve list
      (s.text ++ copied packet behind)
  else { s with
    pucScratchForCmd := some ⟨s.text ++ copied packet behind, size⟩
    iTotalCmdSize := size }

theorem append_eq {size : Nat} (small : size < 2 ^ 31)
    (fits : s.text.length + (copied packet behind).length < size) :
    { s with iTotalCmdSize := size }.append list ⟨s.text, sizeT size⟩ packet behind =
      s.extended list packet behind size := by
  have same : sizeT (size : Int) = size := by
    have value : (sizeT (size : Int) : Int) = size := sizeT_of_range (by omega) (by omega)
    omega
  have whole : (s.text ++ copied packet behind).take (((size : Int) - 1).toNat) =
      s.text ++ copied packet behind := by
    apply List.take_of_length_le
    rw [List.length_append]
    omega
  rw [Session.append, same, if_pos (by refine ⟨fits, ?_, ?_⟩ <;> simp only <;> omega)]
  simp only [whole, Session.extended]

theorem record_eq (sound : Sound s) (data : 0 < packet.iDataLen)
    (small : s.iTotalCmdSize + packet.iDataLen + 1 < 2 ^ 31) :
    ∃ size, s.text.length + (copied packet behind).length < size ∧ size < 2 ^ 31 ∧
      s.record list packet behind true = s.extended list packet behind size := by
  have bound := sound.bound
  have length := copied_length packet behind data (by omega)
  have total : i32 (s.iTotalCmdSize + packet.iDataLen) = s.iTotalCmdSize + packet.iDataLen :=
    i32_of_range (by omega) (by omega)
  cases scratch : s.pucScratchForCmd with
  | none =>
    have empty := sound.empty scratch
    have text : s.text = [] := by rw [Session.text, scratch]; rfl
    have more : i32 (s.iTotalCmdSize + packet.iDataLen + 1) =
        ((packet.iDataLen.toNat + 1 : Nat) : Int) := by
      rw [i32_of_range (by omega) (by omega)]
      omega
    have fits : s.text.length + (copied packet behind).length < packet.iDataLen.toNat + 1 := by
      rw [text, List.length_nil]
      omega
    have small' : packet.iDataLen.toNat + 1 < 2 ^ 31 := by omega
    refine ⟨_, fits, small', ?_⟩
    rw [← append_eq small' fits, text]
    simp [Session.record, data.ne', scratch, total, more]
  | some buffer =>
    obtain ⟨inside, size, _⟩ := sound.filled buffer scratch
    have text : s.text = buffer.text := by rw [Session.text, scratch]; rfl
    have more : s.iTotalCmdSize + packet.iDataLen =
        ((buffer.size + packet.iDataLen.toNat : Nat) : Int) := by omega
    have fits : s.text.length + (copied packet behind).length <
        buffer.size + packet.iDataLen.toNat := by
      rw [text]
      omega
    have small' : buffer.size + packet.iDataLen.toNat < 2 ^ 31 := by omega
    refine ⟨_, fits, small', ?_⟩
    rw [← append_eq small' fits, text]
    simp only [Session.record, data.ne', scratch, total.trans more, if_false, if_true]

theorem Sound.phase (sound : Sound s) (phase : Phase) : Sound { s with phase } :=
  ⟨sound.inside, sound.empty, sound.filled⟩

theorem serve_sound (sound : Sound s) (command : Bytes) : Sound (s.serve list command) := by
  rw [Session.serve]
  split
  · exact sound.phase _
  · exact ⟨sound.inside, sound.empty, sound.filled⟩

theorem extended_sound (sound : Sound s) {size : Nat} (small : size < 2 ^ 31)
    (fits : s.text.length + (copied packet behind).length < size) :
    Sound (s.extended list packet behind size) := by
  rw [Session.extended]
  split
  · apply serve_sound
    exact ⟨sound.inside, fun _ => rfl, fun _ none => by cases none⟩
  · constructor
    · exact sound.inside
    · intro none
      cases none
    · intro buffer some
      cases some
      exact ⟨by rw [List.length_append]; exact fits, rfl, small⟩

theorem record_sound (sound : Sound s) (fits : PacketFits s packet granted) :
    Sound (s.record list packet behind granted) := by
  rcases fits with zero | ⟨data, small, grant⟩
  · rw [Session.record, if_pos zero]
    exact sound
  · cases granted with
    | true =>
      obtain ⟨size, inside, bound, extended⟩ := record_eq sound data small
      rw [extended]
      exact extended_sound sound bound inside
    | false =>
      cases scratch : s.pucScratchForCmd with
      | none =>
        have ended : s.record list packet behind false = { s with phase := .ended } := by
          simp [Session.record, data.ne', scratch]
        rw [ended]
        exact sound.phase _
      | some buffer => cases grant (by simp [scratch])

theorem step_cases (executed : step list s turn = some t) :
    (∃ bytes, turn.read = .chunk bytes ∧
      t = { s with phase := .commands }.record list (icpConvertCmdToHostForm (received bytes))
        turn.behind turn.granted) ∨
    (∃ bytes, turn.read = .chunk bytes ∧
      (icpConvertCmdToHostForm (received bytes)).iModuleId ≠ icproc ∧
      t = { s with phase := .ended }) ∨
    (∀ bytes, turn.read ≠ .chunk bytes) ∧
      (t = s ∨ t = { s with phase := .ended }) := by
  obtain ⟨read, behind, granted⟩ := turn
  cases phase : s.phase <;> cases read <;>
    simp only [step, phase, Option.ite_none_right_eq_some, Option.some.injEq, reduceCtorEq]
      at executed
  case request.chunk bytes =>
    obtain ⟨_, taken⟩ := executed
    split at taken
    · exact .inl ⟨bytes, rfl, (Option.some.inj taken).symm⟩
    · exact .inr (.inl ⟨bytes, rfl, ‹_›, (Option.some.inj taken).symm⟩)
  case commands.chunk bytes =>
    obtain ⟨_, taken⟩ := executed
    have same : s = { s with phase := .commands } := by rw [← phase]
    rw [same] at taken
    exact .inl ⟨bytes, rfl, taken.symm⟩
  case request.closed | commands.closed | commands.failed =>
    exact .inr (.inr ⟨fun _ chunk => Read.noConfusion chunk, .inr executed.symm⟩)
  case request.interrupted | request.failed | commands.interrupted =>
    exact .inr (.inr ⟨fun _ chunk => Read.noConfusion chunk, .inl executed.symm⟩)

theorem step_sound (sound : Sound s) (fits : Fits s turn) (executed : step list s turn = some t) :
    Sound t := by
  rcases step_cases executed with ⟨bytes, read, taken⟩ | ⟨_, _, _, ended⟩ | ⟨_, rfl | rfl⟩
  · simp only [Fits, read] at fits
    rw [taken]
    exact record_sound (sound.phase _) fits
  · rw [ended]
    exact sound.phase _
  · exact sound
  · exact sound.phase _

/-- Where the lengths fit, no write leaves the buffer, however the stream is cut. -/
theorem run_sound (allowed : Machine.Along (step list) Fits start turns)
    (executed : Machine.run (step list) start turns = some t) : Sound t :=
  Machine.run_invariant (fun _ _ _ sound fits taken => step_sound sound fits taken) start_sound
    allowed executed

end Memory

section Commands

/-- The record is read whole, its data holds no zero, a final record has data, memory is
granted, and the first word of the completed command fits its array. -/
def WholePacket (s : Session) (bytes : Bytes) (packet : StCmdPacket) (granted : Bool) : Prop :=
  bytes.length = packetSize ∧ 0 ∉ packet.ucData.take packet.iDataLen.toNat ∧ granted = true ∧
    (packet.iLastPkt = 1 → packet.iDataLen ≠ 0 ∧
      (firstToken (characters (s.text ++ packet.ucData.take packet.iDataLen.toNat))).length <
        maxCmdLen)

instance (s : Session) (bytes : Bytes) (packet : StCmdPacket) (granted : Bool) :
    Decidable (WholePacket s bytes packet granted) :=
  inferInstanceAs (Decidable (_ ∧ _ ∧ _ ∧ (_ → _ ∧ _)))

/-- The condition on a turn under which the commands are put together. -/
def Whole (s : Session) (turn : Turn) : Prop :=
  match turn.read with
  | .chunk bytes => WholePacket s bytes (icpConvertCmdToHostForm (received bytes)) turn.granted
  | .failed => s.phase = .request
  | _ => True

instance (s : Session) (turn : Turn) : Decidable (Whole s turn) := by
  unfold Whole
  split <;> infer_instance

def Turn.bytes (turn : Turn) : Bytes :=
  match turn.read with
  | .chunk bytes => bytes
  | _ => []

/-- The part of the byte stream that has been read. -/
def bytesRead (turns : List Turn) : Bytes := turns.flatMap Turn.bytes

/-- Each command that has been served got the answer that the list gives it. -/
def Answered (list : StIcpList) (s : Session) : Prop :=
  ∀ entry ∈ s.served, answer list (characters entry.1) = some entry.2

/-- No write has left the buffer, and what has been served are the commands sent, in order:
those whose records have been read, and all of them when the whole stream has been read. -/
structure Reassembled (list : StIcpList) (turns : List Turn) (s : Session) : Prop where
  inside : s.outside = false
  order : ∀ messages rest, bytesRead turns ++ rest = byteStream (sentRecords messages) →
    s.served.map Prod.fst <+: messages.map Message.command ∧
      (rest = [] → s.served.map Prod.fst = messages.map Message.command)
  answered : Answered list s

/-- The session has put together what the records stand for. -/
structure Holds (s : Session) (records : List Record) : Prop where
  sound : Sound s
  assembles : (s.served.map Prod.fst, s.text) = assembled records ([], [])

variable {list : StIcpList} {s t : Session} {turn : Turn} {turns : List Turn} {bytes : Bytes}
  {record : Record} {records : List Record} {granted : Bool} {behind : Bytes}

theorem start_holds : Holds start [] := ⟨start_sound, rfl⟩

theorem Holds.phase (holds : Holds s records) (phase : Phase) :
    Holds { s with phase } records :=
  ⟨holds.sound.phase phase, holds.assembles⟩

theorem serve_answered (answered : Answered list s) (command : Bytes) :
    Answered list (s.serve list command) := by
  rw [Session.serve]
  cases given : answer list (characters command) with
  | none => exact answered
  | some given =>
    intro entry member
    rcases List.mem_append.mp member with earlier | new
    · exact answered entry earlier
    · rw [List.mem_singleton.mp new]
      assumption

theorem append_answered (answered : Answered list s) (buffer : Buffer) (packet : StCmdPacket) :
    Answered list (s.append list buffer packet behind) := by
  rw [Session.append]
  split
  · simp only
    split
    · apply serve_answered
      exact answered
    · exact answered
  · exact answered

theorem record_answered (answered : Answered list s) (packet : StCmdPacket) :
    Answered list (s.record list packet behind granted) := by
  rw [Session.record]
  split
  · exact answered
  · simp only
    split <;> split
    · apply append_answered
      exact answered
    · exact answered
    · apply append_answered
      exact answered
    · exact answered

theorem run_answered (executed : Machine.run (step list) start turns = some s) :
    Answered list s := by
  apply Machine.run_invariant' _ _ executed
  · intro s turn t answered taken
    rcases step_cases taken with ⟨_, _, record⟩ | ⟨_, _, _, ended⟩ | ⟨_, rfl | rfl⟩
    · rw [record]
      apply record_answered
      exact answered
    · rw [ended]
      exact answered
    · exact answered
    · exact answered
  · exact fun _ member => absurd member List.not_mem_nil

theorem data_take : (record.data ++ record.behind).take record.data.length = record.data :=
  List.take_left' rfl

theorem copied_data (text : 0 ∉ record.data) :
    copied (icpConvertCmdToHostForm record.encode) behind = record.data := by
  have room : sizeT (record.data.length : Int) = record.data.length := by
    have short := record.data_length
    have value : (sizeT (record.data.length : Int) : Int) = record.data.length :=
      sizeT_of_range (by omega) (by omega)
    omega
  have filled : ∀ byte ∈ record.data, (byte != 0) = true := by
    intro byte member
    rw [bne_iff_ne]
    rintro rfl
    exact text member
  rw [copied, convert_encode, List.append_assoc, List.takeWhile_append_of_pos filled]
  simp only [room]
  exact List.take_left' rfl

theorem assembles_snoc (record : Record) (state : List Bytes × Bytes)
    (assembles : state = assembled records ([], [])) :
    assembled (records ++ [record]) ([], []) =
      if record.last then (state.1 ++ [state.2 ++ record.data], [])
      else (state.1, state.2 ++ record.data) := by
  rw [assembled_append, ← assembles]
  rfl

theorem extended_holds (holds : Holds s records) (text : 0 ∉ record.data)
    (word : record.last = true →
      (firstToken (characters (s.text ++ record.data))).length < maxCmdLen)
    {size : Nat} (sound : Sound (s.extended list (icpConvertCmdToHostForm record.encode) behind
      size)) :
    Holds (s.extended list (icpConvertCmdToHostForm record.encode) behind size)
      (records ++ [record]) := by
  have flag : (icpConvertCmdToHostForm record.encode).iLastPkt = record.last.toNat := by
    rw [convert_encode]
  have next := assembles_snoc record _ holds.assembles
  cases last : record.last with
  | false =>
    have extended : s.extended list (icpConvertCmdToHostForm record.encode) behind size = { s with
        pucScratchForCmd := some ⟨s.text ++ record.data, size⟩
        iTotalCmdSize := size } := by
      rw [Session.extended, flag, last, if_neg (by decide), copied_data text]
    rw [extended] at sound ⊢
    rw [last] at next
    exact ⟨sound, next.symm⟩
  | true =>
    obtain ⟨given, answered⟩ := answer_isSome list (word last)
    have closed : s.extended list (icpConvertCmdToHostForm record.encode) behind size = { s with
        pucScratchForCmd := none
        iTotalCmdSize := 0
        served := s.served ++ [(s.text ++ record.data, given)] } := by
      rw [Session.extended, flag, last, if_pos (by decide), copied_data text, Session.serve,
        answered]
    rw [closed] at sound ⊢
    rw [last] at next
    constructor
    · exact sound
    · rw [next, if_pos rfl, List.map_append]
      rfl

theorem empty_holds (holds : Holds s records) (empty : record.data = [])
    (unflagged : record.last = false) : Holds s (records ++ [record]) := by
  have next := assembles_snoc record _ holds.assembles
  rw [unflagged, empty, List.append_nil] at next
  exact ⟨holds.sound, next.symm⟩

theorem record_holds (holds : Holds s records)
    (fits : PacketFits s (icpConvertCmdToHostForm record.encode) granted)
    (whole : WholePacket s record.encode (icpConvertCmdToHostForm record.encode) granted) :
    Holds (s.record list (icpConvertCmdToHostForm record.encode) behind granted)
      (records ++ [record]) := by
  obtain ⟨_, text, rfl, final⟩ := whole
  have length : (icpConvertCmdToHostForm record.encode).iDataLen = record.data.length := by
    rw [convert_encode]
  have data : (icpConvertCmdToHostForm record.encode).ucData.take
      (icpConvertCmdToHostForm record.encode).iDataLen.toNat = record.data := by
    rw [convert_encode]
    exact data_take
  have flag : (icpConvertCmdToHostForm record.encode).iLastPkt = record.last.toNat := by
    rw [convert_encode]
  rw [data] at text final
  have flagged : record.last = true → (icpConvertCmdToHostForm record.encode).iLastPkt = 1 := by
    intro last
    rw [flag, last]
    rfl
  by_cases empty : record.data = []
  · have zero : (icpConvertCmdToHostForm record.encode).iDataLen = 0 := by
      rw [length, empty]
      rfl
    rw [Session.record, if_pos zero]
    apply empty_holds holds empty
    rw [← Bool.not_eq_true]
    intro last
    exact (final (flagged last)).1 zero
  · have filled : 0 < (icpConvertCmdToHostForm record.encode).iDataLen := by
      have positive := List.length_pos_iff.mpr empty
      omega
    rcases fits with zero | ⟨_, small, _⟩
    · omega
    · obtain ⟨size, inside, bound, extended⟩ := record_eq holds.sound filled small
      rw [extended]
      apply extended_holds holds text fun last => (final (flagged last)).2
      exact extended_sound holds.sound bound inside

theorem step_holds {later : List Record} {rest : Bytes} (holds : Holds s records)
    (fits : Fits s turn) (whole : Whole s turn)
    (stream : turn.bytes ++ rest = byteStream later) (executed : step list s turn = some t) :
    ∃ taken left, later = taken ++ left ∧ rest = byteStream left ∧
      Holds t (records ++ taken) := by
  rcases step_cases executed with ⟨bytes, read, taken⟩ | ⟨bytes, read, module, _⟩ |
    ⟨other, unchanged⟩
  case inr.inr =>
    have none : turn.bytes = [] := by
      rw [Turn.bytes]
      split
      · exact absurd ‹_› (other _)
      · rfl
    rw [none, List.nil_append] at stream
    refine ⟨[], later, rfl, stream, ?_⟩
    rw [List.append_nil]
    rcases unchanged with rfl | rfl
    · exact holds
    · exact holds.phase _
  all_goals
    simp only [Whole, read] at whole
    simp only [Turn.bytes, read] at stream
    -- the bytes of the turn are those of the next record
    obtain ⟨record, left, rfl⟩ : ∃ record left, later = record :: left := by
      cases later with
      | nil =>
        have lengths := congrArg List.length stream
        simp [byteStream, whole.1, packetSize] at lengths
      | cons record left => exact ⟨record, left, rfl⟩
    obtain ⟨rfl, rfl⟩ := List.append_inj
      (show bytes ++ rest = record.encode ++ byteStream left from stream)
      (whole.1.trans record.encode_length.symm)
    rw [received_encode] at *
  · refine ⟨[record], left, rfl, rfl, ?_⟩
    rw [taken]
    simp only [Fits, read, received_encode] at fits
    exact record_holds (holds.phase _) fits whole
  · rw [convert_encode] at module
    exact absurd rfl module

theorem run_holds {later : List Record} {rest : Bytes} (holds : Holds s records)
    (allowed : Machine.Along (step list) (fun s turn => Fits s turn ∧ Whole s turn) s turns)
    (stream : bytesRead turns ++ rest = byteStream later)
    (executed : Machine.run (step list) s turns = some t) :
    ∃ taken left, later = taken ++ left ∧ rest = byteStream left ∧
      Holds t (records ++ taken) := by
  induction turns generalizing s records later with
  | nil =>
    simp only [Machine.run_nil, Option.some.injEq] at executed
    subst executed
    exact ⟨[], later, rfl, stream, by rwa [List.append_nil]⟩
  | cons turn turns ih =>
    obtain ⟨middle, first, others⟩ := Machine.run_cons_some executed
    have held := Machine.along_cons allowed first
    rw [bytesRead, List.flatMap_cons, List.append_assoc] at stream
    obtain ⟨taken, left, rfl, remains, middleHolds⟩ :=
      step_holds holds held.1.1 held.1.2 stream first
    obtain ⟨more, last, rfl, remains, tHolds⟩ := ih middleHolds held.2 remains others
    exact ⟨taken ++ more, last, (List.append_assoc ..).symm, remains,
      by rwa [List.append_assoc] at tHolds⟩

theorem byteStream_eq_nil (records : List Record) : byteStream records = [] ↔ records = [] := by
  cases records with
  | nil => simp [byteStream]
  | cons record records =>
    have length := record.encode_length
    constructor
    · intro none
      rw [byteStream, List.flatMap_cons, List.append_eq_nil_iff] at none
      rw [none.1] at length
      cases length
    · intro none
      cases none

/-- Where the lengths of the records fit, every write stays inside the buffer; where the
records are read whole besides, the commands are put together as they were sent. -/
theorem commands_reassembled (list : StIcpList) (turns : List Turn) (s : Session)
    (executed : Machine.run (step list) start turns = some s) :
    (Machine.Along (step list) Fits start turns → s.outside = false) ∧
      (Machine.Along (step list) (fun s turn => Fits s turn ∧ Whole s turn) start turns →
        Reassembled list turns s) := by
  constructor
  · intro allowed
    exact (run_sound allowed executed).inside
  · intro allowed
    constructor
    · exact (run_sound (allowed.mono fun _ _ both => both.1) executed).inside
    · intro messages rest stream
      obtain ⟨taken, left, split, remains, holds⟩ :=
        run_holds start_holds allowed stream executed
      have whole := assembled_messages messages []
      rw [split, assembled_append, List.nil_append] at whole
      have served : s.served.map Prod.fst = (assembled taken ([], [])).1 := by
        rw [← List.nil_append taken, ← holds.assembles]
      constructor
      · have kept := assembled_prefix left (assembled taken ([], []))
        rwa [whole, ← served] at kept
      · intro none
        rw [none, eq_comm, byteStream_eq_nil] at remains
        rw [remains, assembled] at whole
        rw [served, whole]
    · exact run_answered executed

/-- However the stream is cut and whatever fails, a session refuses the commands whose first word is
listed, or begins a listed name as far as it is compared, and executes no others than the rest. -/
theorem served_by_list (names : List CommandName) (turns : List Turn) (s : Session)
    (executed : Machine.run (step (icpList names)) start turns = some s) :
    ∀ entry ∈ s.served, (firstToken (characters entry.1)).length < maxCmdLen ∧
      (entry.2 = .refused ↔
        Listed names (characters entry.1) ∨ Begins names (characters entry.1)) := by
  intro entry member
  have given := run_answered executed entry member
  by_cases fits : (firstToken (characters entry.1)).length < maxCmdLen
  · rw [answer_of_fits fits] at given
    rw [← Option.some.inj given]
    refine ⟨fits, ?_⟩
    split
    · exact iff_of_true rfl ‹_›
    · exact iff_of_false nofun ‹_›
  · rw [answer_overrun (Nat.not_lt.mp fits)] at given
    cases given

section Example

/-- The command `ls` in one record. -/
def listing : Record := ⟨0, true, [108, 115], List.replicate 98 0, by decide⟩

def listingMessage : Message := ⟨[], listing, fun _ member => absurd member List.not_mem_nil, rfl⟩

def atOnce : List Turn := [⟨.chunk listing.encode, [], true⟩, ⟨.closed, [], true⟩]

def inTwo : List Turn :=
  [⟨.chunk (listing.encode.take 50), [], true⟩, ⟨.chunk (listing.encode.drop 50), [], true⟩]

/-- The first record of `rm f`, and the other one. -/
def removal : Record := ⟨1, false, [114, 109, 32], List.replicate 97 0, by decide⟩

def removed : Record := ⟨1, true, [102], List.replicate 99 0, by decide⟩

def threeRecords : List Turn :=
  [⟨.chunk listing.encode, [], true⟩, ⟨.chunk removal.encode, [], true⟩, ⟨.interrupted, [], true⟩,
    ⟨.chunk removed.encode, [], true⟩, ⟨.closed, [], true⟩]

theorem commands_reassembled_threeRecords :
    ∃ s, Machine.run (step []) start threeRecords = some s ∧ s.outside = false ∧
      Reassembled [] threeRecords s ∧
      s.served = [([108, 115], .executed), ([114, 109, 32, 102], .executed)] := by
  have computed : (Machine.run (step []) start threeRecords).any (fun s => decide (s.served =
      [([108, 115], .executed), ([114, 109, 32, 102], .executed)])) = true := by decide +kernel
  obtain ⟨s, executed, served⟩ := Machine.run_of_any computed
  have whole := commands_reassembled [] threeRecords s executed
  exact ⟨s, executed, whole.1 (by decide +kernel), whole.2 (by decide +kernel), served⟩

theorem served_by_list_listing :
    ∃ s, Machine.run (step (icpList [⟨['l', 's'], by decide⟩])) start atOnce = some s ∧
      s.served = [([108, 115], .refused)] ∧
      ((.refused : Answer) = .refused ↔ Listed [⟨['l', 's'], by decide⟩] ['l', 's'] ∨
        Begins [⟨['l', 's'], by decide⟩] ['l', 's']) := by
  have computed : (Machine.run (step (icpList [⟨['l', 's'], by decide⟩])) start atOnce).any
      (fun s => decide (s.served = [([108, 115], .refused)])) = true := by decide +kernel
  obtain ⟨s, executed, served⟩ := Machine.run_of_any computed
  exact ⟨s, executed, served,
    (served_by_list _ _ s executed ([108, 115], .refused) (by simp [served])).2⟩

/-- A record that is read in two parts is lost. -/
theorem commands_reassembled_split :
    ¬ ∀ (list : StIcpList) (turns : List Turn) (s : Session),
      Machine.run (step list) start turns = some s → Reassembled list turns s := by
  intro always
  have computed : (Machine.run (step []) start inTwo).any
      (fun s => decide (s.served = [])) = true := by decide +kernel
  obtain ⟨s, executed, served⟩ := Machine.run_of_any computed
  have sent : bytesRead inTwo ++ [] = byteStream (sentRecords [listingMessage]) := by
    decide +kernel
  have all := ((always [] inTwo s executed).order [listingMessage] [] sent).2 rfl
  rw [served] at all
  cases all

end Example

end Commands

end EveAgent.Icp
