import EveAgent.Machine

namespace EveAgent.MasterAgent.XmlSet

open Machine

section Messages

/-- An XML SET: the number behind the `id` node, when the header has one, and the number of
variables, when each of them can be read. -/
structure Xml where
  id : Option Int
  varCount : Option Nat
  deriving DecidableEq, Repr

structure Message where
  connection : Nat
  xml : Xml
  deriving DecidableEq, Repr

structure SetPdu where
  reqid : Nat
  varCount : Nat
  deriving DecidableEq, Repr

def getID (xml : Xml) : Int := xml.id.getD (-1)

/-- A buffer with more than one message is no document. -/
def parsePDUInXML : List Xml → Option SetPdu
  | [xml] =>
    if getID xml < 0 then none
    else xml.varCount.map fun varCount => { reqid := (getID xml).toNat, varCount := varCount }
  | _ => none

inductive Text where
  | xmlSuccessMsg (reqID : Nat)
  | xmlErrMsg (reqID : Nat)
  | xmlSetFailErrMsg (reqID : Nat) (errCode : Int)
  deriving DecidableEq, Repr

def Text.id : Text → Nat
  | .xmlSuccessMsg reqID => reqID
  | .xmlErrMsg reqID => reqID
  | .xmlSetFailErrMsg reqID _ => reqID

structure Reply where
  connection : Nat
  text : Text
  deriving DecidableEq, Repr

/-- What is left in `msgBuffer`, and whether it is written to the socket. -/
def sendErrorMsg (msgBuffer : Option Text) (reqID : Nat) (errCode : Int) : Option Text × Bool :=
  let msgBuffer := if errCode < 0 then some (.xmlErrMsg reqID) else msgBuffer
  if errCode > 0 then (some (.xmlSetFailErrMsg reqID errCode), true) else (msgBuffer, false)

def sendSuccessMsg (reqID : Nat) : Option Text × Bool := (some (.xmlSuccessMsg reqID), true)

/-- A queued request: an XML SET, or a request of a manager that is no SET. -/
inductive Request where
  | set (message : Message) (pdu : SetPdu)
  | other (varCount : Nat)
  deriving DecidableEq, Repr

def Request.message? : Request → Option Message
  | .set message _ => some message
  | .other _ => none

def Request.varCount : Request → Nat
  | .set _ pdu => pdu.varCount
  | .other varCount => varCount

/-- `setRequest` -/
def Request.setRequest : Request → Nat
  | .set _ pdu => pdu.reqid
  | .other _ => 0

/-- What `snmp_synch_response` returns: a response with its error status, or without one, or no
success. -/
inductive Status where
  | success (errstat : Option Int)
  | failure
  deriving DecidableEq, Repr

end Messages

section Threads

/-- Where `readXMLSetPacket` is. `failing` is behind `sendErrorMsg`, which may write. -/
inductive Reader where
  | accepting
  | accepted (fd : Nat)
  | serving
  | failing (messages : List Message)
  deriving DecidableEq, Repr

/-- Where `sendPDU` is. -/
inductive Sender where
  | idle
  | taken (request : Request)
  | synch (request : Request) (setRequest : Nat)
  | answered (request : Request) (setRequest : Nat) (status : Status)
  | write (request : Request)
  deriving DecidableEq, Repr

def Sender.request? : Sender → Option Request
  | .idle => none
  | .taken request => some request
  | .synch request _ => some request
  | .answered request _ _ => some request
  | .write request => some request

/-- `connection` is the open descriptor and the connection behind it. The last three fields
record the messages read, those the program is done with, and the replies that reached a
connection. -/
structure State where
  clSockFd : Nat
  connection : Option (Nat × Nat)
  connections : Nat
  reader : Reader
  msgBuffer : Option Text
  gstRequestList : List Request
  sender : Sender
  arrived : List Message
  handled : List Message
  replies : List Reply
  deriving DecidableEq, Repr

inductive Label where
  | accept (fd : Nat)
  | assign
  | read (xmls : List Xml)
  | readNothing
  | closeFailed
  | receive (varCount : Nat)
  | take
  | forward (routed : Bool)
  | respond (status : Status)
  | reply
  | write
  deriving DecidableEq, Repr

/-- A write to `clSockFd` reaches the connection that is open under this descriptor. -/
def written (s : State) : List Reply :=
  match s.connection, s.msgBuffer with
  | some (fd, connection), some text => if fd = s.clSockFd then [⟨connection, text⟩] else []
  | _, _ => []

def closed (s : State) : Option (Nat × Nat) :=
  match s.connection with
  | some (fd, connection) => if fd = s.clSockFd then none else some (fd, connection)
  | none => none

def finish (s : State) (request : Request) : State :=
  { s with sender := .idle, handled := s.handled ++ request.message?.toList }

/-- The rest of the sender behind `sendErrorMsg` or `sendSuccessMsg`. -/
def sent (s : State) (request : Request) (message : Option Text × Bool) : State :=
  if message.2 then { s with msgBuffer := message.1, sender := .write request }
  else finish { s with msgBuffer := message.1 } request

/-- The reply to an XML SET, by `setRequest`; any other response goes to its manager. -/
def replied (s : State) (request : Request) (setRequest : Nat) (status : Status) : State :=
  if setRequest = 0 then finish s request
  else
    match status with
    | .success none => finish s request
    | .success (some errstat) =>
      if errstat ≠ 0 then sent s request (sendErrorMsg s.msgBuffer setRequest errstat)
      else sent s request (sendSuccessMsg setRequest)
    | .failure => sent s request (sendErrorMsg s.msgBuffer setRequest 0)

/-- What `readXML` has collected until a second of silence is parsed, and queued or refused. -/
def received (s : State) (connection : Nat) (xmls : List Xml) : State :=
  match xmls, parsePDUInXML xmls with
  | [xml], some pdu =>
    { s with gstRequestList := s.gstRequestList ++ [.set ⟨connection, xml⟩ pdu]
             arrived := s.arrived ++ [⟨connection, xml⟩] }
  | _, _ =>
    let error := sendErrorMsg s.msgBuffer 1 (-1)
    { s with msgBuffer := error.1
             replies := if error.2 then s.replies ++ written { s with msgBuffer := error.1 }
               else s.replies
             reader := .failing (xmls.map (Message.mk connection))
             arrived := s.arrived ++ xmls.map (Message.mk connection) }

def step (s : State) : Label → Option State
  | .accept fd =>
    match s.reader with
    | .accepting =>
      some { s with connection := some (fd, s.connections)
                    connections := s.connections + 1
                    reader := .accepted fd }
    | _ => none
  | .assign =>
    match s.reader with
    | .accepted fd => some { s with clSockFd := fd, reader := .serving }
    | _ => none
  | .read xmls =>
    match s.reader, s.connection with
    | .serving, some (_, connection) => some (received s connection xmls)
    | _, _ => none
  | .readNothing =>
    match s.reader with
    | .serving => some { s with connection := closed s, reader := .accepting }
    | _ => none
  | .closeFailed =>
    match s.reader with
    | .failing messages =>
      some { s with connection := closed s, reader := .accepting
                    handled := s.handled ++ messages }
    | _ => none
  | .receive varCount => some { s with gstRequestList := s.gstRequestList ++ [.other varCount] }
  | .take =>
    match s.sender, s.gstRequestList with
    | .idle, request :: rest => some { s with gstRequestList := rest, sender := .taken request }
    | _, _ => none
  | .forward routed =>
    match s.sender with
    | .taken request =>
      if request.varCount = 0 ∨ routed = false then some (finish s request)
      else some { s with sender := .synch request request.setRequest }
    | _ => none
  | .respond status =>
    match s.sender with
    | .synch request setRequest => some { s with sender := .answered request setRequest status }
    | _ => none
  | .reply =>
    match s.sender with
    | .answered request setRequest status => some (replied s request setRequest status)
    | _ => none
  | .write =>
    match s.sender with
    | .write request => some (finish { s with replies := s.replies ++ written s } request)
    | _ => none

def started : State :=
  { clSockFd := 0
    connection := none
    connections := 0
    reader := .accepting
    msgBuffer := none
    gstRequestList := []
    sender := .idle
    arrived := []
    handled := []
    replies := [] }

end Threads

section Property

/-- The reply is on the connection of the message and carries its id. -/
def Answers (message : Message) (reply : Reply) : Prop :=
  reply.connection = message.connection ∧
    ∀ id, message.xml.id = some id → (reply.text.id : Int) = id

def State.requests (s : State) : List Request := s.sender.request?.toList ++ s.gstRequestList

/-- The messages that are still to be answered. -/
def State.pending (s : State) : List Message := s.requests.filterMap Request.message?

/-- The messages the program is done with have one reply each, there are no other replies, and
each message that was read is done with or pending. -/
structure AnsweredOnce (s : State) : Prop where
  replies : List.Forall₂ Answers s.handled s.replies
  all : s.arrived = s.handled ++ s.pending

def Replying (s : State) : Label → Prop
  | .read xmls =>
    (parsePDUInXML xmls).any (fun pdu => decide (0 < pdu.reqid ∧ 0 < pdu.varCount)) = true
  | .readNothing => s.pending = []
  | .forward routed => s.sender.request?.bind Request.message? ≠ none → routed = true
  | .respond status =>
    s.sender.request?.bind Request.message? ≠ none →
      match status with
      | .success (some errstat) => 0 ≤ errstat
      | _ => False
  | _ => True

instance (s : State) : ∀ label, Decidable (Replying s label)
  | .read _ => inferInstanceAs (Decidable (_ = true))
  | .readNothing => inferInstanceAs (Decidable (_ = _))
  | .forward _ => inferInstanceAs (Decidable (_ → _))
  | .respond (.success (some _)) => inferInstanceAs (Decidable (_ → _ ≤ _))
  | .respond (.success none) => inferInstanceAs (Decidable (_ → False))
  | .respond .failure => inferInstanceAs (Decidable (_ → False))
  | .accept _ => isTrue trivial
  | .assign => isTrue trivial
  | .closeFailed => isTrue trivial
  | .receive _ => isTrue trivial
  | .take => isTrue trivial
  | .reply => isTrue trivial
  | .write => isTrue trivial

/-- A queued request that will be answered when nothing goes wrong. -/
def Ready : Request → Prop
  | .set message pdu => message.xml.id = some (pdu.reqid : Int) ∧ 0 < pdu.reqid ∧ 0 < pdu.varCount
  | .other _ => True

/-- While a message is pending its connection is open, and `clSockFd` is its descriptor. -/
def ReaderInv (s : State) : Prop :=
  match s.reader with
  | .accepting => s.pending = []
  | .accepted fd => (∃ connection, s.connection = some (fd, connection)) ∧ s.pending = []
  | .serving =>
    ∃ connection, s.connection = some (s.clSockFd, connection) ∧
      ∀ message ∈ s.pending, message.connection = connection
  | .failing _ => False

def SenderInv (s : State) : Prop :=
  match s.sender with
  | .synch request setRequest => setRequest = request.setRequest
  | .answered request setRequest status =>
    setRequest = request.setRequest ∧
      (request.message? ≠ none → ∃ errstat, status = .success (some errstat) ∧ 0 ≤ errstat)
  | .write request =>
    ∃ message text, request.message? = some message ∧ s.msgBuffer = some text ∧
      message.xml.id = some (text.id : Int)
  | _ => True

structure Inv (s : State) : Prop where
  reader : ReaderInv s
  ready : ∀ request ∈ s.requests, Ready request
  sender : SenderInv s
  answered : AnsweredOnce s

end Property

section Steps

variable {s t : State} {label : Label} {request : Request} {message : Message}

theorem parse_ready {xml : Xml} {pdu : SetPdu} (parsed : parsePDUInXML [xml] = some pdu) :
    xml.id = some (pdu.reqid : Int) := by
  rw [parsePDUInXML] at parsed
  split at parsed
  · cases parsed
  · rename_i sign
    obtain ⟨count, _, same⟩ := Option.map_eq_some_iff.mp parsed
    subst same
    cases present : xml.id with
    | none =>
      rw [getID, present] at sign
      exact absurd (by decide) sign
    | some id =>
      rw [getID, present, Option.getD_some] at sign
      rw [getID, present, Option.getD_some, Int.toNat_of_nonneg (Int.not_lt.mp sign)]

theorem pending_append (s : State) (request : Request) :
    ({ s with gstRequestList := s.gstRequestList ++ [request] } : State).pending =
      s.pending ++ request.message?.toList := by
  have tail : [request].filterMap Request.message? = request.message?.toList := by
    cases request with
    | set message pdu => rfl
    | other count => rfl
  simp only [State.pending, State.requests, ← List.append_assoc, List.filterMap_append, tail]

theorem pending_holding (holds : s.sender.request? = some request) :
    s.pending = request.message?.toList ++ s.gstRequestList.filterMap Request.message? := by
  rw [State.pending, State.requests, holds, Option.toList_some, List.filterMap_append]
  cases request with
  | set message pdu => rfl
  | other count => rfl

theorem pending_idle (idle : s.sender = .idle) :
    s.pending = s.gstRequestList.filterMap Request.message? := by
  rw [State.pending, State.requests, idle]
  rfl

theorem finish_pending (holds : s.sender.request? = some request) :
    s.handled ++ s.pending = (finish s request).handled ++ (finish s request).pending := by
  rw [pending_holding holds, pending_idle (s := finish s request) rfl, finish, List.append_assoc]

theorem finish_inv {replies : List Reply} (inv : Inv s) (holds : s.sender.request? = some request)
    (answered : List.Forall₂ Answers (s.handled ++ request.message?.toList) replies) :
    Inv (finish { s with replies := replies } request) := by
  have fewer : ∀ message, message ∈ (finish { s with replies := replies } request).pending →
      message ∈ s.pending := by
    intro message member
    rw [pending_idle rfl] at member
    rw [pending_holding holds]
    exact List.mem_append_right _ member
  constructor
  · have reader := inv.reader
    unfold ReaderInv at reader ⊢
    have none : s.pending = [] → (finish { s with replies := replies } request).pending = [] := by
      intro empty
      apply List.eq_nil_iff_forall_not_mem.mpr
      intro message member
      have held := fewer message member
      rw [empty] at held
      cases held
    cases phase : s.reader with
    | accepting =>
      simp only [phase, finish] at reader ⊢
      exact none reader
    | accepted fd =>
      simp only [phase, finish] at reader ⊢
      exact ⟨reader.1, none reader.2⟩
    | serving =>
      simp only [phase, finish] at reader ⊢
      obtain ⟨connection, same, all⟩ := reader
      exact ⟨connection, same, fun message member => all message (fewer message member)⟩
    | failing messages => simp only [phase] at reader
  · intro other member
    apply inv.ready
    rw [State.requests, holds]
    exact List.mem_append_right _ member
  · trivial
  · constructor
    · exact answered
    · calc
        s.arrived = s.handled ++ s.pending := inv.answered.all
        _ = _ := finish_pending holds

theorem moved_inv {clSockFd connections : Nat} {connection : Option (Nat × Nat)} {reader : Reader}
    (inv : Inv s)
    (moved : ReaderInv { s with clSockFd := clSockFd, connection := connection,
                                connections := connections, reader := reader }) :
    Inv { s with clSockFd := clSockFd, connection := connection,
                 connections := connections, reader := reader } := by
  constructor
  · exact moved
  · exact inv.ready
  · exact inv.sender
  · exact ⟨inv.answered.replies, inv.answered.all⟩

theorem advanced_inv {sender : Sender} {list : List Request} {msgBuffer : Option Text}
    (inv : Inv s)
    (requests : sender.request?.toList ++ list = s.requests)
    (advanced : SenderInv { s with sender := sender, gstRequestList := list
                                   msgBuffer := msgBuffer }) :
    Inv { s with sender := sender, gstRequestList := list, msgBuffer := msgBuffer } := by
  have pending : ({ s with sender := sender, gstRequestList := list
                           msgBuffer := msgBuffer } : State).pending = s.pending := by
    rw [State.pending, State.requests, requests]
    rfl
  constructor
  · have reader := inv.reader
    unfold ReaderInv at reader ⊢
    rw [pending]
    exact reader
  · intro request member
    apply inv.ready
    rw [← requests]
    exact member
  · exact advanced
  · constructor
    · exact inv.answered.replies
    · rw [pending]
      exact inv.answered.all

theorem queued_inv (inv : Inv s) (ready : Ready request)
    (open_ : ∀ message, request.message? = some message → s.reader = .serving ∧
      s.connection = some (s.clSockFd, message.connection)) :
    Inv { s with gstRequestList := s.gstRequestList ++ [request]
                 arrived := s.arrived ++ request.message?.toList } := by
  have pending : ({ s with gstRequestList := s.gstRequestList ++ [request]
                           arrived := s.arrived ++ request.message?.toList } : State).pending =
      s.pending ++ request.message?.toList := pending_append s request
  constructor
  · have reader := inv.reader
    unfold ReaderInv at reader ⊢
    rw [pending]
    cases found : request.message? with
    | none =>
      simp only [Option.toList_none, List.append_nil]
      exact reader
    | some message =>
      obtain ⟨serving, connected⟩ := open_ message found
      simp only [serving] at reader ⊢
      obtain ⟨connection, same, all⟩ := reader
      have here : message.connection = connection :=
        (Prod.mk.inj (Option.some.inj (connected.symm.trans same))).2
      refine ⟨connection, same, ?_⟩
      intro other member
      rcases List.mem_append.mp member with before | new
      · exact all other before
      · rw [Option.toList_some, List.mem_singleton] at new
        rw [new]
        exact here
  · intro other member
    rw [State.requests, ← List.append_assoc] at member
    rcases List.mem_append.mp member with before | new
    · exact inv.ready other before
    · rw [List.mem_singleton] at new
      rw [new]
      exact ready
  · exact inv.sender
  · constructor
    · exact inv.answered.replies
    · rw [pending]
      dsimp only
      rw [inv.answered.all, List.append_assoc]

theorem parsed_single {xmls : List Xml} {pdu : SetPdu} (parsed : parsePDUInXML xmls = some pdu) :
    ∃ xml, xmls = [xml] := by
  unfold parsePDUInXML at parsed
  split at parsed
  · rename_i xml
    exact ⟨xml, rfl⟩
  · cases parsed

theorem received_inv {xmls : List Xml} {connection : Nat} (inv : Inv s)
    (serving : s.reader = .serving) (connected : s.connection = some (s.clSockFd, connection))
    (good : Replying s (.read xmls)) : Inv (received s connection xmls) := by
  unfold received
  split
  · rename_i xml pdu parsed
    rw [Replying, parsed, Option.any_some] at good
    obtain ⟨positive, some⟩ := of_decide_eq_true good
    have ready : Ready (.set ⟨connection, xml⟩ pdu) := ⟨parse_ready parsed, positive, some⟩
    apply queued_inv inv ready
    intro message same
    obtain rfl := Option.some.inj same
    exact ⟨serving, connected⟩
  · rename_i other
    rw [Replying] at good
    obtain ⟨pdu, parsed, _⟩ := (Option.any_eq_true _ _).mp good
    obtain ⟨xml, same⟩ := parsed_single parsed
    exact (other xml pdu same parsed).elim

theorem dropped_inv {routed : Bool} (inv : Inv s) (taken : s.sender = .taken request)
    (good : Replying s (.forward routed)) (dropped : request.varCount = 0 ∨ routed = false) :
    Inv (finish s request) := by
  have holds : s.sender.request? = some request := by
    rw [taken]
    rfl
  have ready : Ready request := by
    apply inv.ready
    rw [State.requests, holds]
    exact List.mem_append_left _ (List.mem_singleton.mpr rfl)
  cases request with
  | set message pdu =>
    have sent : routed = true := by
      apply good
      rw [holds]
      exact Option.some_ne_none message
    rcases dropped with empty | unrouted
    · exact absurd empty (Nat.ne_of_gt ready.2.2)
    · rw [sent] at unrouted
      cases unrouted
  | other count =>
    apply finish_inv inv holds
    rw [Request.message?, Option.toList_none, List.append_nil]
    exact inv.answered.replies

theorem sendErrorMsg_positive {msgBuffer : Option Text} {reqID : Nat} {errCode : Int}
    (positive : 0 < errCode) :
    sendErrorMsg msgBuffer reqID errCode = (some (.xmlSetFailErrMsg reqID errCode), true) := by
  rw [sendErrorMsg, if_pos positive]

theorem sent_inv {pdu : SetPdu} {text : Text} (inv : Inv s)
    (holds : s.sender.request? = some (.set message pdu)) (id : text.id = pdu.reqid) :
    Inv (sent s (.set message pdu) (some text, true)) := by
  rw [sent, if_pos rfl]
  show Inv { s with sender := .write (.set message pdu)
                    gstRequestList := s.gstRequestList, msgBuffer := some text }
  have ready : Ready (.set message pdu) := by
    apply inv.ready
    rw [State.requests, holds]
    exact List.mem_append_left _ (List.mem_singleton.mpr rfl)
  apply advanced_inv inv
  · rw [State.requests, holds]
    rfl
  · refine ⟨message, text, rfl, rfl, ?_⟩
    rw [id]
    exact ready.1

theorem replied_inv {setRequest : Nat} {status : Status} (inv : Inv s)
    (answered : s.sender = .answered request setRequest status) :
    Inv (replied s request setRequest status) := by
  have holds : s.sender.request? = some request := by
    rw [answered]
    rfl
  have sender := inv.sender
  rw [SenderInv, answered] at sender
  obtain ⟨same, success⟩ := sender
  cases request with
  | other count =>
    have zero : setRequest = 0 := same
    rw [replied.eq_def, if_pos zero]
    apply finish_inv inv holds
    rw [Request.message?, Option.toList_none, List.append_nil]
    exact inv.answered.replies
  | set message pdu =>
    have ready : Ready (.set message pdu) := by
      apply inv.ready
      rw [State.requests, holds]
      exact List.mem_append_left _ (List.mem_singleton.mpr rfl)
    have set : setRequest ≠ 0 := by
      rw [same]
      exact Nat.ne_of_gt ready.2.1
    obtain ⟨errstat, rfl, nonneg⟩ := success (Option.some_ne_none message)
    rw [replied.eq_def, if_neg set]
    simp only
    by_cases zero : errstat = 0
    · rw [if_neg (not_not.mpr zero)]
      exact sent_inv inv holds same
    · rw [if_pos zero, sendErrorMsg_positive (by omega)]
      exact sent_inv inv holds same

theorem write_inv (inv : Inv s) (writes : s.sender = .write request) :
    Inv (finish { s with replies := s.replies ++ written s } request) := by
  have holds : s.sender.request? = some request := by
    rw [writes]
    rfl
  have sender := inv.sender
  rw [SenderInv, writes] at sender
  obtain ⟨message, text, held, buffer, id⟩ := sender
  have member : message ∈ s.pending := by
    rw [pending_holding holds, held]
    exact List.mem_append_left _ (List.mem_singleton.mpr rfl)
  have connected : s.connection = some (s.clSockFd, message.connection) := by
    have reader := inv.reader
    unfold ReaderInv at reader
    split at reader
    · rw [reader] at member
      cases member
    · rw [reader.2] at member
      cases member
    · obtain ⟨connection, same, all⟩ := reader
      rw [all message member]
      exact same
    · exact reader.elim
  have reply : written s = [⟨message.connection, text⟩] := by
    simp only [written, connected, buffer, if_true]
  apply finish_inv inv holds
  rw [reply, held, Option.toList_some]
  apply List.rel_append inv.answered.replies
  apply List.Forall₂.cons _ List.Forall₂.nil
  constructor
  · rfl
  · intro number same
    exact Option.some.inj (id.symm.trans same)

theorem step_inv (inv : Inv s) (good : Replying s label) (stepped : step s label = some t) :
    Inv t := by
  have reader := inv.reader
  have sender := inv.sender
  unfold ReaderInv at reader
  revert stepped
  fun_cases step s label
  all_goals rintro ⟨⟩
  -- a connection is accepted, its descriptor stored, and a message read from it
  case case1 phase =>
    simp only [phase] at reader
    exact moved_inv inv ⟨⟨s.connections, rfl⟩, reader⟩
  case case3 phase =>
    simp only [phase] at reader
    obtain ⟨⟨connection, opened⟩, none⟩ := reader
    apply moved_inv inv
    refine ⟨connection, opened, ?_⟩
    intro message member
    have held : message ∈ s.pending := member
    rw [none] at held
    cases held
  case case5 opened phase =>
    simp only [phase] at reader
    obtain ⟨here, same, _⟩ := reader
    have pair := Prod.mk.inj (Option.some.inj (opened.symm.trans same))
    apply received_inv inv phase _ good
    rw [opened, pair.1]
  case case7 => exact moved_inv inv good
  case case9 phase => simp only [phase] at reader
  case case11 count =>
    have ready : Ready (.other count) := trivial
    have queued := queued_inv inv ready (fun message none => by cases none)
    rw [Request.message?, Option.toList_none, List.append_nil] at queued
    exact queued
  -- a request is taken, forwarded, answered and written
  case case12 request rest phase list =>
    show Inv { s with sender := .taken request, gstRequestList := rest, msgBuffer := s.msgBuffer }
    apply advanced_inv inv
    · rw [State.requests, phase, list]
      rfl
    · trivial
  case case14 taken dropped => exact dropped_inv inv taken good dropped
  case case15 request taken _ =>
    show Inv { s with sender := .synch request request.setRequest
                      gstRequestList := s.gstRequestList, msgBuffer := s.msgBuffer }
    apply advanced_inv inv
    · rw [State.requests, taken]
      rfl
    · rfl
  case case17 status request setRequest phase =>
    rw [SenderInv, phase] at sender
    show Inv { s with sender := .answered request setRequest status
                      gstRequestList := s.gstRequestList, msgBuffer := s.msgBuffer }
    apply advanced_inv inv
    · rw [State.requests, phase]
      rfl
    · refine ⟨sender, ?_⟩
      intro isSet
      have answer := good (by rw [phase]; exact isSet)
      split at answer
      · rename_i errstat
        exact ⟨errstat, rfl, answer⟩
      · exact answer.elim
  case case19 phase => exact replied_inv inv phase
  case case21 phase => exact write_inv inv phase

theorem started_inv : Inv started := by
  constructor
  · rfl
  · intro request member
    cases member
  · trivial
  · exact ⟨List.Forall₂.nil, rfl⟩

/-- In a run in which no SET is refused, dropped or left without a response, and no connection is
closed before its replies are out, each message is answered once and on its connection. -/
theorem answered_once {labels : List Label} (good : Along step Replying started labels)
    (executed : run step started labels = some t) : AnsweredOnce t := by
  have kept : ∀ s label t, Inv s → Replying s label → step s label = some t → Inv t := by
    intro s label t inv good stepped
    exact step_inv inv good stepped
  exact (run_invariant kept started_inv good executed).answered

end Steps

section Runs

def goodSet : List Label :=
  [.accept 4, .assign, .read [⟨some 5, some 1⟩], .take, .forward true, .respond (.success (some 0)),
    .reply, .write]

theorem answered_once_goodSet :
    ∃ t, run step started goodSet = some t ∧ AnsweredOnce t ∧
      t.replies = [⟨0, .xmlSuccessMsg 5⟩] := by
  obtain ⟨t, executed, replies⟩ :
      ∃ t, run step started goodSet = some t ∧ t.replies = [⟨0, .xmlSuccessMsg 5⟩] := by
    apply run_of_any
    decide
  exact ⟨t, executed, answered_once (by decide) executed, replies⟩

/-- The first client is silent for a second, and the second one has its descriptor. -/
def slowSet : List Label :=
  [.accept 4, .assign, .read [⟨some 5, some 1⟩], .take, .forward true, .readNothing, .accept 4,
    .assign, .respond (.success (some 0)), .reply, .write]

/-- The reply to the first client goes to the second; a timeout, an id 0, a message that is not
well formed and two messages in one second are not answered at all. -/
theorem wrong_client :
    (∃ t, run step started slowSet = some t ∧ t.handled = [⟨0, some 5, some 1⟩] ∧
      t.replies = [⟨1, .xmlSuccessMsg 5⟩]) ∧
    (∃ t, run step started [.accept 4, .assign, .read [⟨some 5, some 1⟩], .take, .forward true,
        .respond .failure, .reply] = some t ∧ t.handled.length = 1 ∧ t.replies = []) ∧
    (∃ t, run step started [.accept 4, .assign, .read [⟨some 0, some 1⟩], .take, .forward true,
        .respond (.success (some 0)), .reply] = some t ∧ t.handled.length = 1 ∧ t.replies = []) ∧
    (∃ t, run step started [.accept 4, .assign, .read [⟨some 5, none⟩], .closeFailed] = some t ∧
      t.handled.length = 1 ∧ t.replies = []) ∧
    (∃ t, run step started [.accept 4, .assign, .read [⟨some 5, some 1⟩, ⟨some 6, some 1⟩],
        .closeFailed] = some t ∧ t.handled.length = 2 ∧ t.replies = []) ∧
    ¬ ∀ labels t, run step started labels = some t → AnsweredOnce t := by
  have slow : ∃ t, run step started slowSet = some t ∧
      t.handled = [⟨0, some 5, some 1⟩] ∧ t.replies = [⟨1, .xmlSuccessMsg 5⟩] := by
    apply run_of_any
    decide
  refine ⟨slow, ?_, ?_, ?_, ?_, ?_⟩
  · apply run_of_any
    decide
  · apply run_of_any
    decide
  · apply run_of_any
    decide
  · apply run_of_any
    decide
  · intro always
    obtain ⟨t, executed, handled, replies⟩ := slow
    have answered := (always slowSet t executed).replies
    rw [handled, replies] at answered
    cases answered with
    | cons same rest => exact absurd same.1 (by decide)

end Runs

end EveAgent.MasterAgent.XmlSet
