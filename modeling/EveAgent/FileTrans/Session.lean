import EveAgent.FileTrans.RecvUtil

namespace EveAgent.FileTrans

/-- `toReceiver` and `toSender` are bags: delivery takes out any element. -/
structure Session where
  sender : SendState
  receiver : RecvState
  toReceiver : List StMsg
  toSender : List StMsg
  deriving DecidableEq, Repr

inductive SessionEvent where
  | sendWindow (fault : SendFault)
  | recvAck (message : StMsg) (mapped : Bool)
  | ackTimeout
  | ackError (error : ENASCenterError)
  | recvDataPkt (message : StMsg)
  | dataTimeout
  | windowDone (sent : Bool)
  | writeWindow
  | dataError (error : ENASCenterError)
  | loseData (message : StMsg)
  | loseAck (message : StMsg)
  | duplicateData (message : StMsg)
  | duplicateAck (message : StMsg)
  deriving DecidableEq, Repr

def Session.init (plan : StCntrlData) : Session :=
  { sender := .init plan
    receiver := .init plan
    toReceiver := []
    toSender := [] }

section Step

variable (file : List UInt8) (iPageSize : Int) (plan : StCntrlData)

def Session.step (s : Session) : SessionEvent → Option Session
  | .sendWindow fault =>
    (s.sender.sendWindow file iPageSize plan fault).map fun (sender, packets) =>
      { s with sender := sender, toReceiver := s.toReceiver ++ packets }
  | .recvAck message mapped =>
    if message ∈ s.toSender then
      (s.sender.recvAck file iPageSize plan message mapped).map fun sender =>
        { s with sender := sender, toSender := s.toSender.erase message }
    else none
  | .ackTimeout => s.sender.ackTimeout.map fun sender => { s with sender := sender }
  | .ackError error => (s.sender.ackError error).map fun sender => { s with sender := sender }
  | .recvDataPkt message =>
    if message ∈ s.toReceiver then
      (s.receiver.recvDataPkt plan message).map fun receiver =>
        { s with receiver := receiver, toReceiver := s.toReceiver.erase message }
    else none
  | .dataTimeout =>
    s.receiver.dataTimeout.map fun (receiver, acks) =>
      { s with receiver := receiver, toSender := s.toSender ++ acks }
  | .windowDone sent =>
    (s.receiver.windowDone sent).map fun (receiver, acks) =>
      { s with receiver := receiver, toSender := s.toSender ++ acks }
  | .writeWindow => (s.receiver.writeWindow plan).map fun receiver =>
    { s with receiver := receiver }
  | .dataError error =>
    (s.receiver.dataError error).map fun receiver => { s with receiver := receiver }
  | .loseData message =>
    if message ∈ s.toReceiver then
      some { s with toReceiver := s.toReceiver.erase message }
    else none
  | .loseAck message =>
    if message ∈ s.toSender then
      some { s with toSender := s.toSender.erase message }
    else none
  | .duplicateData message =>
    if message ∈ s.toReceiver then
      some { s with toReceiver := message :: s.toReceiver }
    else none
  | .duplicateAck message =>
    if message ∈ s.toSender then
      some { s with toSender := message :: s.toSender }
    else none

end Step

/-- The plan for a file sent with the sizes the agents use. -/
def agentPlan (file : List UInt8) : StCntrlData :=
  sendFilePlan file.length agentPageSize defMsgSize

/-- The step relation of a transfer of `file` by the agents. -/
def agentStep (file : List UInt8) : Session → SessionEvent → Option Session :=
  Session.step file agentPageSize (agentPlan file)

/-- The session state right after the handshake for `file`. -/
def agentStart (file : List UInt8) : Session := .init (agentPlan file)

section Inversion

variable {file : List UInt8} {s t : Session} {event : SessionEvent}

/-- What one step of a transfer by the agents does, event by event. -/
inductive Moves (file : List UInt8) (s : Session) : SessionEvent → Session → Prop
  | sendWindow fault sender packets
      (stepped : s.sender.sendWindow file agentPageSize (agentPlan file) fault =
        some (sender, packets)) :
    Moves file s (.sendWindow fault)
      { s with sender := sender, toReceiver := s.toReceiver ++ packets }
  | recvAck message mapped sender (member : message ∈ s.toSender)
      (stepped : s.sender.recvAck file agentPageSize (agentPlan file) message mapped =
        some sender) :
    Moves file s (.recvAck message mapped)
      { s with sender := sender, toSender := s.toSender.erase message }
  | ackTimeout sender (stepped : s.sender.ackTimeout = some sender) :
    Moves file s .ackTimeout { s with sender := sender }
  | ackError error sender (stepped : s.sender.ackError error = some sender) :
    Moves file s (.ackError error) { s with sender := sender }
  | recvDataPkt message receiver (member : message ∈ s.toReceiver)
      (stepped : s.receiver.recvDataPkt (agentPlan file) message = some receiver) :
    Moves file s (.recvDataPkt message)
      { s with receiver := receiver, toReceiver := s.toReceiver.erase message }
  | dataTimeout receiver acks (stepped : s.receiver.dataTimeout = some (receiver, acks)) :
    Moves file s .dataTimeout { s with receiver := receiver, toSender := s.toSender ++ acks }
  | windowDone sent receiver acks
      (stepped : s.receiver.windowDone sent = some (receiver, acks)) :
    Moves file s (.windowDone sent)
      { s with receiver := receiver, toSender := s.toSender ++ acks }
  | writeWindow receiver (stepped : s.receiver.writeWindow (agentPlan file) = some receiver) :
    Moves file s .writeWindow { s with receiver := receiver }
  | dataError error receiver (stepped : s.receiver.dataError error = some receiver) :
    Moves file s (.dataError error) { s with receiver := receiver }
  | loseData message (member : message ∈ s.toReceiver) :
    Moves file s (.loseData message) { s with toReceiver := s.toReceiver.erase message }
  | loseAck message (member : message ∈ s.toSender) :
    Moves file s (.loseAck message) { s with toSender := s.toSender.erase message }
  | duplicateData message (member : message ∈ s.toReceiver) :
    Moves file s (.duplicateData message) { s with toReceiver := message :: s.toReceiver }
  | duplicateAck message (member : message ∈ s.toSender) :
    Moves file s (.duplicateAck message) { s with toSender := message :: s.toSender }

theorem agentStep_moves (executed : agentStep file s event = some t) : Moves file s event t := by
  cases event
  all_goals
    simp only [agentStep, Session.step, Option.ite_none_right_eq_some, Option.map_eq_some_iff,
      Prod.exists, Option.some.injEq] at executed
  case recvAck | recvDataPkt =>
    obtain ⟨member, _, stepped, rfl⟩ := executed
    constructor
    · exact member
    · exact stepped
  case sendWindow | dataTimeout | windowDone =>
    obtain ⟨_, _, stepped, rfl⟩ := executed
    constructor
    exact stepped
  case ackTimeout | ackError | writeWindow | dataError =>
    obtain ⟨_, stepped, rfl⟩ := executed
    constructor
    exact stepped
  all_goals
    obtain ⟨member, rfl⟩ := executed
    constructor
    exact member

end Inversion

end EveAgent.FileTrans
