import EveAgent.Machine

namespace EveAgent.MasterAgent

section Pdus

abbrev Oid := List Nat

/-- `netsnmp_oid_is_subtree` returns 0. -/
def isSubtree (root tree : Oid) : Bool := root.isPrefixOf tree

/-- What the value of a variable points to: a `long`, octets, or nothing. -/
inductive Value where
  | integer (value : Int)
  | octets (octets : List UInt8)
  | noValue
  deriving DecidableEq, Repr

structure VarBind where
  name : Oid
  value : Value
  deriving DecidableEq, Repr

inductive Command where
  | get
  | getNext
  | getBulk
  | set
  deriving DecidableEq, Repr

structure Request where
  vars : List VarBind
  command : Command
  deriving DecidableEq, Repr

def mib2Oid : Oid := [1, 3, 6, 1, 2, 1]

def subAgentTable : Oid := [1, 3, 6, 1, 4, 1, 3204, 1, 3, 34, 5]

/-- `ENTERPRISE_OID_POS` -/
def enterpriseOidPos : Nat := 7

/-- `NAS_SUBAGENT_ENTERPRISE_OID` -/
def nasSubAgentEnterpriseOid : Nat := 3204

/-- `MAX_SUB_AGENTS` -/
def maxSubAgents : Nat := 5

/-- `SUBAGENT_TABLE_OIDLEN` of `NASCenter_MA.c`. -/
def subAgentGroup : Oid := subAgentTable.take 10

end Pdus

section Tables

/-- One entry of `giSAIP`, `giSAPort` and `giSAEnterprise`. -/
structure SubAgent where
  giSAIP : List UInt8
  giSAPort : Int
  giSAEnterprise : Int
  deriving DecidableEq, Repr

/-- What `snmp_synch_response` gives `MA_NASSAReadConfig`: no response, or one with a zero
error status or another. -/
inductive Read where
  | timeout
  | error
  | response (vars : List VarBind)
  deriving DecidableEq, Repr

/-- The four variables of one entry; `none` where the walk reads behind the last variable,
behind the octets of a value or through a value that points to no number. -/
def readEntry : List VarBind → Option (SubAgent × List VarBind)
  | ⟨_, .octets (a :: b :: c :: d :: _)⟩ :: ⟨_, .integer port⟩ :: _ ::
      ⟨_, .integer enterprise⟩ :: vars => some (⟨[a, b, c, d], port, enterprise⟩, vars)
  | _ => none

def readEntries : Nat → List VarBind → Option (List SubAgent)
  | 0, _ => some []
  | count + 1, vars =>
    match readEntry vars with
    | none => none
    | some (entry, vars) =>
      match readEntries count vars with
      | none => none
      | some entries => some (entry :: entries)

/-- `MA_NASSAReadConfig`; `none` where it reads what the response does not have. -/
def maNassaReadConfig (table : List SubAgent) : Read → Option (List SubAgent)
  | .timeout => some table
  | .error => some table
  | .response [] => none
  | .response (first :: rest) =>
    if isSubtree subAgentGroup first.name then readEntries maxSubAgents (first :: rest)
    else some table

end Tables

section Forwarding

inductive Destination where
  | system
  | subAgent (giSAIP : List UInt8) (giSAPort : Int)
  deriving DecidableEq, Repr

/-- The configuration of one sub-agent in the agent that owns the table. -/
structure Scalars where
  appSNMPAgentIP : UInt8 × UInt8 × UInt8 × UInt8
  appSNMPAgentPort : Int
  appSNMPTrapPort : Int
  appSNMPAgentOID : Int
  deriving DecidableEq, Repr

/-- `nassaflag` and `i` are local to the thread; `i` is `none` behind the last entry. The last
two fields are what the owner of the table holds, and whether a SET that has changed it has
been answered. -/
structure State where
  table : List SubAgent
  reloadConfig : Bool
  nassaflag : Bool
  i : Option Nat
  scalars : List Scalars
  changed : Bool
  deriving DecidableEq, Repr

/-- The answer that `snmp_synch_response` returns for the request itself. -/
inductive Answer where
  | success
  | error
  | timeout
  deriving DecidableEq, Repr

/-- A request, what a reload would be answered, the answer to the request, and the table of
the owner after it. -/
structure Label where
  request : Request
  read : Read
  answer : Answer
  scalars : List Scalars
  deriving DecidableEq, Repr

/-- The test `giSAPort!=0` compares the address of the array. -/
def searchTable (table : List SubAgent) (enterprise : Nat) : Option Nat :=
  table.findIdx? fun entry => entry.giSAEnterprise == (enterprise : Int)

/-- The reload at the head of the branch outside of mib-2. -/
def reload (s : State) (read : Read) : Option State :=
  if s.reloadConfig then
    (maNassaReadConfig s.table read).map fun table =>
      { s with table := table, reloadConfig := false }
  else some s

/-- The choice of the flag and the index, from the name of the first variable. -/
def classify (s : State) (name : Oid) (read : Read) : Option State :=
  if isSubtree mib2Oid name then some { s with nassaflag := true }
  else
    (reload s read).map fun s =>
      match name[enterpriseOidPos - 1]? with
      | none => { s with nassaflag := true }
      | some enterprise =>
        if enterprise = nasSubAgentEnterpriseOid then { s with nassaflag := true }
        else
          match searchTable s.table enterprise with
          | some i => { s with nassaflag := false, i := some i }
          | none => { s with i := none }

/-- `none` is a request that is dropped. -/
def State.destination (s : State) : Option Destination :=
  if s.nassaflag then some .system
  else
    match s.i with
    | none => none
    | some i => s.table[i]?.map fun entry => .subAgent entry.giSAIP entry.giSAPort

def forward (s : State) (first : VarBind) (label : Label) : Option State :=
  match s.destination with
  | none => if label.scalars = s.scalars then some s else none
  | some destination =>
    -- only a SET that reaches the owner of the table changes it
    if label.scalars = s.scalars ∨ (label.scalars.length = s.scalars.length ∧
        label.request.command = .set ∧ destination = .system ∧
        ∃ var ∈ label.request.vars, isSubtree subAgentTable var.name = true) then
      some { s with
        reloadConfig := s.reloadConfig ||
          (label.request.command == .set && isSubtree subAgentTable first.name)
        scalars := label.scalars
        changed := s.changed ||
          (label.answer != .timeout && decide (label.scalars ≠ s.scalars)) }
    else none

def step (s : State) (label : Label) : Option State :=
  match label.request.vars with
  | [] => if label.scalars = s.scalars then some s else none
  | first :: _ => (classify s first.name label.read).bind fun s => forward s first label

/-- The thread starts; `i` is not read before it is set. -/
def started (table : List SubAgent) (scalars : List Scalars) (reloadConfig : Bool) : State :=
  { table := table
    reloadConfig := reloadConfig
    nassaflag := false
    i := none
    scalars := scalars
    changed := false }

end Forwarding

end EveAgent.MasterAgent
