import EveAgent.UserControl.Firewall

/-! How `UM_UserMeetering` reads a trap: the table it is about, the columns of the row and
what is to be done. -/

namespace EveAgent.UserControl

section Names

abbrev Oid := List Nat

/-- `netsnmp_oid_is_subtree` returns 0 for a name below the given one. -/
def isSubtree (inName1 inName2 : Oid) : Bool := inName1.isPrefixOf inName2

/-- The names of a table and of the columns that are read. -/
structure TableOids where
  table : Oid
  ipAddress : Oid
  portNo : Oid
  status : Oid

def allowTelnetOids : TableOids where
  table := [1, 3, 6, 1, 4, 1, 3204, 1, 3, 34, 4, 3]
  ipAddress := [1, 3, 6, 1, 4, 1, 3204, 1, 3, 34, 4, 3, 1, 3]
  portNo := [1, 3, 6, 1, 4, 1, 3204, 1, 3, 34, 4, 3, 1, 4]
  status := [1, 3, 6, 1, 4, 1, 3204, 1, 3, 34, 4, 3, 1, 5]

def allowFtpOids : TableOids where
  table := [1, 3, 6, 1, 4, 1, 3204, 1, 3, 34, 4, 4]
  ipAddress := [1, 3, 6, 1, 4, 1, 3204, 1, 3, 34, 4, 4, 1, 3]
  portNo := [1, 3, 6, 1, 4, 1, 3204, 1, 3, 34, 4, 4, 1, 4]
  status := [1, 3, 6, 1, 4, 1, 3204, 1, 3, 34, 4, 4, 1, 5]

def allowSmtpOids : TableOids where
  table := [1, 3, 6, 1, 4, 1, 3204, 1, 3, 34, 4, 5]
  ipAddress := [1, 3, 6, 1, 4, 1, 3204, 1, 3, 34, 4, 5, 1, 3]
  portNo := [1, 3, 6, 1, 4, 1, 3204, 1, 3, 34, 4, 5, 1, 4]
  status := [1, 3, 6, 1, 4, 1, 3204, 1, 3, 34, 4, 5, 1, 5]

def allowPop3Oids : TableOids where
  table := [1, 3, 6, 1, 4, 1, 3204, 1, 3, 34, 4, 6]
  ipAddress := [1, 3, 6, 1, 4, 1, 3204, 1, 3, 34, 4, 6, 1, 3]
  portNo := [1, 3, 6, 1, 4, 1, 3204, 1, 3, 34, 4, 6, 1, 4]
  status := [1, 3, 6, 1, 4, 1, 3204, 1, 3, 34, 4, 6, 1, 5]

/-- A table that matches later replaces an earlier one. -/
def umCheckTable (name : Oid) : Int16 :=
  let iOperFlag := if isSubtree allowTelnetOids.table name then allowTelnet else -1
  let iOperFlag := if isSubtree allowFtpOids.table name then allowFtp else iOperFlag
  let iOperFlag := if isSubtree allowSmtpOids.table name then allowSmtp else iOperFlag
  if isSubtree allowPop3Oids.table name then allowPop3 else iOperFlag

def fieldIpAddr : Int16 := 1
def fieldPortNum : Int16 := 2
def fieldStatus : Int16 := 3

def umCheckFieldTelnet (name : Oid) : Int16 :=
  let iRetValue := if isSubtree allowTelnetOids.ipAddress name then fieldIpAddr else -1
  let iRetValue := if isSubtree allowTelnetOids.portNo name then fieldPortNum else iRetValue
  if isSubtree allowTelnetOids.status name then fieldStatus else iRetValue

/-- The checks of the other tables return `NASC_FAILURE`, which is 0, for another column. -/
def umCheckField (oids : TableOids) (name : Oid) : Int16 :=
  if isSubtree oids.ipAddress name then fieldIpAddr
  else if isSubtree oids.portNo name then fieldPortNum
  else if isSubtree oids.status name then fieldStatus
  else 0

def umCheckFieldFtp (name : Oid) : Int16 := umCheckField allowFtpOids name
def umCheckFieldSmtp (name : Oid) : Int16 := umCheckField allowSmtpOids name
def umCheckFieldPop3 (name : Oid) : Int16 := umCheckField allowPop3Oids name

/-- `none` is the default case, which goes on with the next variable. -/
def fieldFlag (iOperFlag : Int16) (name : Oid) : Option Int16 :=
  if iOperFlag = allowTelnet then some (umCheckFieldTelnet name)
  else if iOperFlag = allowFtp then some (umCheckFieldFtp name)
  else if iOperFlag = allowSmtp then some (umCheckFieldSmtp name)
  else if iOperFlag = allowPop3 then some (umCheckFieldPop3 name)
  else none

end Names

section Parsing

/-- A variable of the PDU. Its value is a union: an address is read from the string, which
may be empty, a number through the integer pointer, which may be null. -/
structure Variable where
  name : Oid
  string : Option IpAddress
  integer : Option Int

/-- Whether `malloc` finds memory for the table structure and for the addresses, and what
the operation on the rules finds. -/
structure TrapEnv where
  pstGenTable : Bool
  pcIpAddr : Bool
  calls : Env

inductive UmDecision where
  | umAdd
  | umModify
  | umDelete
  deriving DecidableEq, Repr

variable (config : Config)

/-- One round of the loop; `none` is a return. The case of another Telnet column ends in a
`break` that is compiled with `UM_DEBUG` only. -/
def readVariable (pcIpAddr : Bool) (pstGenTable : StAllowUM) (pstCurrVars : Variable) :
    Option StAllowUM :=
  match fieldFlag pstGenTable.iFlag pstCurrVars.name with
  | none => some pstGenTable
  | some iFieldFlag =>
    if iFieldFlag = fieldIpAddr then
      match pstCurrVars.string with
      | none => some pstGenTable
      | some ip => if pcIpAddr then some { pstGenTable with pcIpAddr := some ip } else none
    else if iFieldFlag = fieldPortNum then
      match pstCurrVars.integer with
      | none => some pstGenTable
      | some integer => some { pstGenTable with iPortNum := Int16.ofInt integer }
    else if iFieldFlag = fieldStatus then
      match pstCurrVars.integer with
      | none => some pstGenTable
      | some integer => some { pstGenTable with iStatus := Int16.ofInt integer }
    else if iFieldFlag = -1 ∧ config.umDebug then some pstGenTable
    else none

def umGetIndex (name : Oid) : Int16 := Int16.ofNat (name.getLastD 0)

def decisionFlag (iStatus : Int16) : UmDecision :=
  if iStatus = 4 ∨ iStatus = 1 then .umAdd
  else if iStatus = 6 ∨ iStatus = 2 then .umDelete
  else .umModify

def umCreateFilter (s : State) (pstGenFilt : StAllowUM) (iDecisionFlag : UmDecision) (env : Env) :
    Option State :=
  match iDecisionFlag with
  | .umAdd => (umAddRule config s pstGenFilt env).map Prod.fst
  | .umModify => (umModifyRule config s pstGenFilt env).map Prod.fst
  | .umDelete => some (umDelRule s pstGenFilt env).1

/-- A PDU without variables is a null pointer that is read. -/
def umUserMeetering (s : State) (vars : List Variable) (env : TrapEnv) : Option State :=
  match vars with
  | [] => none
  | first :: _ =>
    let iOperFlag := umCheckTable first.name
    if iOperFlag = -1 then some s
    else if !env.pstGenTable then some s
    else
      let pstGenTable := ⟨umGetIndex first.name, none, -1, iOperFlag, -1⟩
      match vars.foldlM (readVariable config env.pcIpAddr) pstGenTable with
      | none => some s
      | some pstGenTable =>
        umCreateFilter config s pstGenTable (decisionFlag pstGenTable.iStatus) env.calls

end Parsing

section Rows

inductive Service where
  | telnet
  | ftp
  | smtp
  | pop3
  deriving DecidableEq, Repr

def Service.iFlag : Service → Int16
  | .telnet => allowTelnet
  | .ftp => allowFtp
  | .smtp => allowSmtp
  | .pop3 => allowPop3

def Service.oids : Service → TableOids
  | .telnet => allowTelnetOids
  | .ftp => allowFtpOids
  | .smtp => allowSmtpOids
  | .pop3 => allowPop3Oids

/-- The columns of the tables; an address may be empty and a number absent. -/
inductive Column where
  | index
  | id
  | ipAddress (val : Option IpAddress)
  | portNo (val : Option Int)
  | status (val : Option Int)
  deriving DecidableEq, Repr

def Column.number : Column → Nat
  | .index => 1
  | .id => 2
  | .ipAddress _ => 3
  | .portNo _ => 4
  | .status _ => 5

def Column.Other : Column → Prop
  | .index => True
  | .id => True
  | _ => False

instance : DecidablePred Column.Other
  | .index => isTrue trivial
  | .id => isTrue trivial
  | .ipAddress _ => isFalse id
  | .portNo _ => isFalse id
  | .status _ => isFalse id

/-- An event for one row of a table: some of its columns, at least one. -/
structure RowEvent where
  service : Service
  index : Nat
  first : Column
  rest : List Column
  deriving DecidableEq, Repr

def RowEvent.columns (event : RowEvent) : List Column := event.first :: event.rest

def variableOf (service : Service) (index : Nat) (column : Column) : Variable where
  name := service.oids.table ++ [1, column.number, index]
  string :=
    match column with
    | .ipAddress val => val
    | _ => none
  integer :=
    match column with
    | .portNo val => val
    | .status val => val
    | _ => none

def RowEvent.vars (event : RowEvent) : List Variable :=
  event.columns.map (variableOf event.service event.index)

/-- The values that an event gives; a later one replaces an earlier one. -/
structure Given where
  ipAddress : Option IpAddress
  portNo : Option Int
  status : Option Int
  deriving DecidableEq, Repr

def Given.read (given : Given) : Column → Given
  | .ipAddress (some val) => { given with ipAddress := some val }
  | .portNo (some val) => { given with portNo := some val }
  | .status (some val) => { given with status := some val }
  | _ => given

def RowEvent.given (event : RowEvent) : Given := event.columns.foldl Given.read ⟨none, none, none⟩

def Given.pack (given : Given) (service : Service) (index : Nat) : StAllowUM where
  iIndex := Int16.ofNat index
  pcIpAddr := given.ipAddress
  iPortNum := given.portNo.elim (-1) Int16.ofInt
  iFlag := service.iFlag
  iStatus := given.status.elim (-1) Int16.ofInt

def RowEvent.pstGenTable (event : RowEvent) : StAllowUM :=
  event.given.pack event.service event.index

variable (config : Config)

/-- Another column ends the parsing, unless it is one of Telnet in the debug build. -/
def Stops (service : Service) (column : Column) : Prop :=
  column.Other ∧ ¬ (config.umDebug ∧ service = .telnet)

instance (service : Service) (column : Column) : Decidable (Stops config service column) :=
  inferInstanceAs (Decidable (_ ∧ ¬ _))

theorem umCheckTable_row (service : Service) (tail : Oid) :
    umCheckTable (service.oids.table ++ tail) = service.iFlag := by
  cases service <;> rfl

theorem iFlag_ne (service : Service) : service.iFlag ≠ -1 ∧ service.iFlag ≠ umGeneral := by
  cases service <;> decide

theorem iFlag_injective : Function.Injective Service.iFlag := by
  intro service other same
  revert same
  cases service <;> cases other <;> decide

def Column.flag (service : Service) : Column → Int16
  | .ipAddress _ => fieldIpAddr
  | .portNo _ => fieldPortNum
  | .status _ => fieldStatus
  | _ => if service = .telnet then -1 else 0

theorem fieldFlag_row (service : Service) (index : Nat) (column : Column) :
    fieldFlag service.iFlag (variableOf service index column).name =
      some (column.flag service) := by
  cases service <;> cases column <;> rfl

theorem readVariable_other {given : Given} {service : Service} {index : Nat} {column : Column}
    (other : column.Other) :
    readVariable config true (given.pack service index) (variableOf service index column) =
      if Stops config service column then none else some (given.pack service index) := by
  have flag : column.flag service = if service = .telnet then -1 else 0 := by
    cases column with
    | index => rfl
    | id => rfl
    | ipAddress val => cases other
    | portNo val => cases other
    | status val => cases other
  rw [readVariable, show (given.pack service index).iFlag = service.iFlag from rfl,
    fieldFlag_row, flag]
  by_cases telnet : service = .telnet
  · cases debug : config.umDebug
    · simp [Stops, other, telnet, debug, fieldIpAddr, fieldPortNum, fieldStatus]
    · simp [Stops, telnet, debug, fieldIpAddr, fieldPortNum, fieldStatus]
  · simp [Stops, other, telnet, fieldIpAddr, fieldPortNum, fieldStatus]

theorem readVariable_row (given : Given) (service : Service) (index : Nat) (column : Column) :
    readVariable config true (given.pack service index) (variableOf service index column) =
      if Stops config service column then none
      else some ((given.read column).pack service index) := by
  cases column with
  | index => exact readVariable_other config trivial
  | id => exact readVariable_other config trivial
  | ipAddress val =>
    rw [readVariable, show (given.pack service index).iFlag = service.iFlag from rfl,
      fieldFlag_row, if_neg (by simp [Stops, Column.Other])]
    cases val <;> rfl
  | portNo val =>
    rw [readVariable, show (given.pack service index).iFlag = service.iFlag from rfl,
      fieldFlag_row, if_neg (by simp [Stops, Column.Other])]
    cases val <;> rfl
  | status val =>
    rw [readVariable, show (given.pack service index).iFlag = service.iFlag from rfl,
      fieldFlag_row, if_neg (by simp [Stops, Column.Other])]
    cases val <;> rfl

def RowEvent.Lost (event : RowEvent) : Prop :=
  ∃ column ∈ event.columns, Stops config event.service column

instance (event : RowEvent) : Decidable (event.Lost config) :=
  inferInstanceAs (Decidable (∃ column ∈ event.columns, Stops config event.service column))

theorem readVariables_row (given : Given) (service : Service) (index : Nat)
    (columns : List Column) :
    (columns.map (variableOf service index)).foldlM (readVariable config true)
        (given.pack service index) =
      if ∃ column ∈ columns, Stops config service column then none
      else some ((columns.foldl Given.read given).pack service index) := by
  induction columns generalizing given with
  | nil => simp
  | cons column columns ih =>
    rw [List.map_cons, List.foldlM_cons, readVariable_row]
    by_cases stops : Stops config service column
    · rw [if_pos stops, if_pos ⟨column, List.mem_cons_self, stops⟩]
      rfl
    · rw [if_neg stops, Option.bind_eq_bind, Option.bind_some, ih, List.foldl_cons]
      simp [stops]

theorem umUserMeetering_row (s : State) (event : RowEvent) {env : TrapEnv}
    (table : env.pstGenTable = true) (address : env.pcIpAddr = true) :
    umUserMeetering config s event.vars env =
      if event.Lost config then some s
      else umCreateFilter config s event.pstGenTable (decisionFlag event.pstGenTable.iStatus)
        env.calls := by
  have name : (variableOf event.service event.index event.first).name =
      event.service.oids.table ++ [1, event.first.number, event.index] := rfl
  have index : umGetIndex (variableOf event.service event.index event.first).name =
      Int16.ofNat event.index := by
    simp [umGetIndex, name]
  have parsed : (variableOf event.service event.index event.first ::
      event.rest.map (variableOf event.service event.index)).foldlM (readVariable config true)
        ⟨Int16.ofNat event.index, none, -1, event.service.iFlag, -1⟩ =
      if event.Lost config then none else some event.pstGenTable :=
    readVariables_row config ⟨none, none, none⟩ event.service event.index event.columns
  simp only [umUserMeetering, RowEvent.vars, RowEvent.columns, List.map_cons, name,
    umCheckTable_row, (iFlag_ne event.service).1, if_false, table, address, Bool.not_true,
    Bool.false_eq_true]
  rw [← name, index, parsed]
  by_cases lost : event.Lost config
  · rw [if_pos lost, if_pos lost]
  · rw [if_neg lost, if_neg lost]

end Rows

end EveAgent.UserControl
