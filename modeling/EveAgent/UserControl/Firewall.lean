import EveAgent.Machine

namespace EveAgent.UserControl

section Addresses

structure IpAddress where
  a : UInt8
  b : UInt8
  c : UInt8
  d : UInt8
  deriving DecidableEq, Repr

/-- The number that `inet_addr` makes of the dotted text. -/
def inetAddr (ip : IpAddress) : UInt32 :=
  UInt32.ofNat (ip.a.toNat * 2 ^ 24 + ip.b.toNat * 2 ^ 16 + ip.c.toNat * 2 ^ 8 + ip.d.toNat)

def everyAddress : IpAddress := ⟨255, 255, 255, 255⟩
def noAddress : IpAddress := ⟨0, 0, 0, 0⟩

/-- The dotted text of 15 characters, with the zero that ends it, overruns `cBuff`. -/
def IpAddress.Overruns (ip : IpAddress) : Prop := 100 ≤ ip.a ∧ 100 ≤ ip.b ∧ 100 ≤ ip.c ∧ 100 ≤ ip.d

instance (ip : IpAddress) : Decidable ip.Overruns :=
  inferInstanceAs (Decidable (_ ∧ _ ∧ _ ∧ _))

end Addresses

section Kernel

/-- `struct ip_fw`. -/
structure IpFw where
  fwSrc : UInt32
  fwSmsk : UInt32
  fwDst : UInt32
  fwDmsk : UInt32
  fwMark : UInt32
  fwProto : UInt16
  fwFlg : UInt16
  fwInvflg : UInt16
  fwSpts : UInt16 × UInt16
  fwDpts : UInt16 × UInt16
  fwRedirpt : UInt16
  fwOutputsize : UInt16
  fwVianame : String
  fwTosand : UInt8
  fwTosxor : UInt8
  deriving DecidableEq, Repr

/-- `struct ip_fwuser`: a rule of the chain and its target. -/
structure IpFwUser where
  ipfw : IpFw
  label : String
  deriving DecidableEq, Repr

structure IpFwNew where
  fwnRulenum : Int
  fwnRule : IpFwUser
  fwnLabel : String
  deriving DecidableEq, Repr

variable {α : Type}

/-! The kernel counts the rules of a chain from 1. A call with another position fails. -/

def ipFwInsert (chain : List α) (rulenum : Int) (rule : α) : Option (List α) :=
  if 1 ≤ rulenum ∧ rulenum ≤ chain.length + 1 then some (chain.insertIdx (rulenum - 1).toNat rule)
  else none

def ipFwReplace (chain : List α) (rulenum : Int) (rule : α) : Option (List α) :=
  if 1 ≤ rulenum ∧ rulenum ≤ chain.length then some (chain.set (rulenum - 1).toNat rule)
  else none

def ipFwDeleteNum (chain : List α) (rulenum : Int) : Option (List α) :=
  if 1 ≤ rulenum ∧ rulenum ≤ chain.length then some (chain.eraseIdx (rulenum - 1).toNat)
  else none

/-- `setsockopt`: the call may fail for other reasons too. -/
def setsockopt (succeeds : Bool) (result : Option (List α)) : Option (List α) :=
  if succeeds then result else none

end Kernel

section Mirror

/-- A node of the list; `ipfwPtr` is the record it points to. -/
structure StNode where
  iIndex : Int16
  iRuleNum : Int16
  iFlag : Int16
  ipfwPtr : IpFwNew
  deriving DecidableEq, Repr

/-- What a call finds in its environment: what `malloc` returns for the record, the rule,
the node and its record, and the result of a search; whether `setsockopt` succeeds; the
memory of the new rule and the locals of `UM_ModifyRule` before they are set. -/
structure Env where
  insertRecord : Bool
  stRuleForAdd : Bool
  tmpCell : Bool
  ipfwPtr : Bool
  pstRetStruct : Bool
  setsockopt : Bool
  memory : IpFw
  fwSrc : UInt32
  iPortNum : UInt16

def StNode.isFor (node : StNode) (iIndex iFlag : Int16) : Bool :=
  node.iIndex == iIndex && node.iFlag == iFlag

/-- `none` is a null pointer that is written to: `UM_FatalError` names `exit` and does not
call it. Without memory for the record the node is lost. -/
def umInsert (stListPtr : List StNode) (env : Env) (iIndex iFlag iRuleNum : Int16)
    (insertRecord : IpFwNew) : Option (List StNode) :=
  if !env.tmpCell then none
  else if !env.ipfwPtr then some stListPtr
  else some (⟨iIndex, iRuleNum, iFlag, insertRecord⟩ :: stListPtr)

/-- The loop of `UM_GetPos` and `UM_GetstructForMod`. -/
def umGetPosLoop (iIndex iFlag : Int16) : List StNode → Int16 → Option Int16
  | [], _ => none
  | node :: rest, iCount =>
    if node.isFor iIndex iFlag then some (iCount + 1)
    else umGetPosLoop iIndex iFlag rest (iCount + 1)

/-- The result is 0 when there is no such record. -/
def umGetPos (stListPtr : List StNode) (iIndex iFlag : Int16) : Int16 :=
  (umGetPosLoop iIndex iFlag stListPtr 0).getD 0

/-- The record that is found; the list is given as what stands before and behind its node. -/
def umGetstructForMod (iIndex iFlag : Int16) :
    List StNode → Option (List StNode × StNode × List StNode)
  | [] => none
  | node :: rest =>
    if node.isFor iIndex iFlag then some ([], node, rest)
    else
      (umGetstructForMod iIndex iFlag rest).map fun (front, found, back) =>
        (node :: front, found, back)

def umDeleteFromList (stListPtr : List StNode) (iIndex iFlag : Int16) : List StNode :=
  stListPtr.eraseP (·.isFor iIndex iFlag)

end Mirror

section Operations

inductive UmResult where
  | nascFailure
  | nascSuccess
  | nascMandatoryMissing
  deriving DecidableEq, Repr

structure StAllowUM where
  iIndex : Int16
  pcIpAddr : Option IpAddress
  iPortNum : Int16
  iFlag : Int16
  iStatus : Int16
  deriving DecidableEq, Repr

def umGeneral : Int16 := 100
def allowTelnet : Int16 := 0
def allowFtp : Int16 := 1
def allowSmtp : Int16 := 2
def allowPop3 : Int16 := 3

/-- `UM_DEBUG` is a switch of the build; `slack` tells whether the byte behind `cBuff` is
unused; `cDstAddr` is the address of the host. -/
structure Config where
  umDebug : Bool
  slack : Bool
  cDstAddr : UInt32

structure State where
  stListPtr : List StNode
  chain : List IpFwUser
  deriving DecidableEq, Repr

variable (config : Config)

def umRuleInitialize (rule : IpFw) : IpFw :=
  { rule with
    fwMark := 0
    fwRedirpt := 0
    fwInvflg := 0
    fwOutputsize := 65535
    fwVianame := "eth0"
    fwTosand := 0xFF
    fwTosxor := 0 }

/-- What `UM_AddRule` and `UM_SetFireWallRule` do once the rule is filled in. -/
def insertRule (s : State) (env : Env) (iIndex iFlag : Int16) (rule : IpFw) (label : String) :
    Option (State × UmResult) :=
  let insertRecord := ⟨1, ⟨rule, label⟩, "input"⟩
  match setsockopt env.setsockopt (ipFwInsert s.chain insertRecord.fwnRulenum insertRecord.fwnRule)
      with
  | none => some (s, .nascFailure)
  | some chain =>
    match umInsert s.stListPtr env iIndex iFlag 1 insertRecord with
    | none => none
    | some stListPtr => some (⟨stListPtr, chain⟩, .nascSuccess)

/-- The protocol and the port of a rule that denies a service. -/
def denyPort (iFlag : Int16) (rule : IpFw) : IpFw :=
  if iFlag = allowTelnet then { rule with fwProto := 6, fwDpts := (23, 23) }
  else if iFlag = allowFtp then { rule with fwProto := 6, fwDpts := (21, 21) }
  else if iFlag = allowSmtp then { rule with fwProto := 6, fwDpts := (25, 25) }
  else if iFlag = allowPop3 then { rule with fwProto := 6, fwDpts := (110, 110) }
  else rule

/-- `inet_addr` of the text "cDstMask", which is no address, is all ones as well. -/
def denyRule (iFlag : Int16) (memory : IpFw) : IpFw :=
  denyPort iFlag { umRuleInitialize memory with
    fwSrc := inetAddr noAddress
    fwSmsk := inetAddr noAddress
    fwDst := config.cDstAddr
    fwDmsk := inetAddr everyAddress
    fwSpts := (0, 0xFFFF) }

def umSetFireWallRule (s : State) (iFlag : Int16) (env : Env) : Option (State × UmResult) :=
  if !env.insertRecord then some (s, .nascFailure)
  else if !env.stRuleForAdd then some (s, .nascFailure)
  else insertRule s env 1 umGeneral (denyRule config iFlag env.memory) "DENY"

def portNumber (iPortNum : Int16) : UInt16 := iPortNum.toUInt16

/-- The protocol and the port of a rule that allows a service. -/
def allowPort (iFlag iPortNum : Int16) (rule : IpFw) : IpFw :=
  let fwDpts := (portNumber iPortNum, portNumber iPortNum)
  if iFlag = allowTelnet then { rule with fwProto := 6, fwDpts := fwDpts }
  else if iFlag = allowFtp then { rule with fwProto := 6, fwDpts := fwDpts }
  else if iFlag = allowSmtp then { rule with fwProto := 25, fwDpts := fwDpts }
  else if iFlag = allowPop3 then { rule with fwProto := 110, fwDpts := fwDpts }
  else rule

def allowRule (ip : IpAddress) (iFlag iPortNum : Int16) (memory : IpFw) : IpFw :=
  let (fwSrc, fwSmsk) :=
    if ip = everyAddress then (inetAddr noAddress, inetAddr noAddress)
    else (inetAddr ip, inetAddr everyAddress)
  allowPort iFlag iPortNum { umRuleInitialize memory with
    fwSrc := fwSrc
    fwSmsk := fwSmsk
    fwDst := config.cDstAddr
    fwDmsk := inetAddr everyAddress
    fwSpts := (0, 0xFFFF) }

/-- The return for a record that is incomplete or not in service is compiled with
`UM_DEBUG` only. -/
def umAddRule (s : State) (pstGenFilt : StAllowUM) (env : Env) : Option (State × UmResult) :=
  if config.umDebug ∧ (pstGenFilt.pcIpAddr = none ∨ pstGenFilt.iPortNum = -1 ∨
      pstGenFilt.iStatus = -1 ∨ pstGenFilt.iStatus = 2) then
    some (s, .nascMandatoryMissing)
  else if !env.insertRecord then some (s, .nascFailure)
  else if !env.stRuleForAdd then some (s, .nascFailure)
  else
    match pstGenFilt.pcIpAddr with
    | none => none
    | some ip =>
      if ip.Overruns ∧ ¬ config.slack then none
      else
        insertRule s env pstGenFilt.iIndex pstGenFilt.iFlag
          (allowRule config ip pstGenFilt.iFlag pstGenFilt.iPortNum env.memory) "ACCEPT"

/-- The address and the port of a record are overwritten in place. -/
def modifyRecord (pstGenFilt : StAllowUM) (rule : IpFw) : IpFw :=
  let rule :=
    match pstGenFilt.pcIpAddr with
    | none => rule
    | some ip => { rule with fwSrc := inetAddr ip }
  if pstGenFilt.iPortNum ≠ 0 then
    { rule with fwDpts := (portNumber pstGenFilt.iPortNum, portNumber pstGenFilt.iPortNum) }
  else rule

/-- What a failed call writes back. The locals hold the old values only if they have been
overwritten, and there is one for the first end of the port range only. -/
def rollBack (pstGenFilt : StAllowUM) (env : Env) (old rule : IpFw) : IpFw :=
  { rule with
    fwSrc := if pstGenFilt.pcIpAddr = none then env.fwSrc else old.fwSrc
    fwDpts := (if pstGenFilt.iPortNum ≠ 0 then old.fwDpts.1 else env.iPortNum, rule.fwDpts.2) }

def umModifyRule (s : State) (pstGenFilt : StAllowUM) (env : Env) : Option (State × UmResult) :=
  if pstGenFilt.pcIpAddr = none ∧ pstGenFilt.iPortNum = 0 then some (s, .nascSuccess)
  else if !env.pstRetStruct then none
  else
    match umGetstructForMod pstGenFilt.iIndex pstGenFilt.iFlag s.stListPtr with
    | none => some (s, .nascFailure)
    | some (front, node, back) =>
      if (∃ ip ∈ pstGenFilt.pcIpAddr, ip.Overruns) ∧ ¬ config.slack then none
      else
        let old := node.ipfwPtr.fwnRule.ipfw
        let iCount := (umGetPos s.stListPtr pstGenFilt.iIndex pstGenFilt.iFlag).toInt
        let store := fun rule =>
          front ++ { node with ipfwPtr := { node.ipfwPtr with
            fwnRulenum := iCount
            fwnRule := { node.ipfwPtr.fwnRule with ipfw := rule } } } :: back
        let rule := modifyRecord pstGenFilt old
        match setsockopt env.setsockopt
            (ipFwReplace s.chain iCount { node.ipfwPtr.fwnRule with ipfw := rule }) with
        | none =>
          some ({ s with stListPtr := store (rollBack pstGenFilt env old rule) }, .nascFailure)
        | some chain => some (⟨store rule, chain⟩, .nascSuccess)

def umDelRule (s : State) (pstGenFilt : StAllowUM) (env : Env) : State × UmResult :=
  let delRulNum := umGetPos s.stListPtr pstGenFilt.iIndex pstGenFilt.iFlag
  if delRulNum = 0 then (s, .nascFailure)
  else
    match setsockopt env.setsockopt (ipFwDeleteNum s.chain delRulNum.toInt) with
    | none => (s, .nascSuccess)
    | some chain =>
      (⟨umDeleteFromList s.stListPtr pstGenFilt.iIndex pstGenFilt.iFlag, chain⟩, .nascSuccess)

inductive Call where
  | umSetFireWallRule (iFlag : Int16)
  | umAddRule (pstGenFilt : StAllowUM)
  | umModifyRule (pstGenFilt : StAllowUM)
  | umDelRule (pstGenFilt : StAllowUM)
  deriving DecidableEq, Repr

/-- `UM_MakeEmpty`, and the chain after `UM_DeleteAllRule`. -/
def start : State := ⟨[], []⟩

def step (s : State) : Call × Env → Option State
  | (.umSetFireWallRule iFlag, env) => (umSetFireWallRule config s iFlag env).map Prod.fst
  | (.umAddRule pstGenFilt, env) => (umAddRule config s pstGenFilt env).map Prod.fst
  | (.umModifyRule pstGenFilt, env) => (umModifyRule config s pstGenFilt env).map Prod.fst
  | (.umDelRule pstGenFilt, env) => some (umDelRule s pstGenFilt env).1

end Operations

end EveAgent.UserControl
