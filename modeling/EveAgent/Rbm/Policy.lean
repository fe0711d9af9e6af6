import EveAgent.CText

/-! Monitoring policies: the columns that a SET may write, the row of texts that the
evaluation fetches, and the evaluation of its conditions. -/

namespace EveAgent.Rbm

section Table

inductive AsnType where
  | asnInteger
  | asnOctetStr
  | asnObjectId
  | asnUnsigned
  | other
  deriving DecidableEq, Repr

inductive SnmpErr where
  | snmpErrNoError
  | snmpErrGenErr
  | snmpErrWrongType
  | snmpErrWrongLength
  | snmpErrWrongValue
  deriving DecidableEq, Repr

/-- `integer` is what the value holds when it is read as a `long`. -/
structure Varbind where
  type : AsnType
  valLen : Nat
  integer : Int32
  deriving DecidableEq, Repr

def sizeofLong : Nat := 4
def rbmExprMin : Int := 0
def rbmExprMax : Int := 5

def columnMonitorPolicyExpression (i : Fin 5) : Nat := 8 + 4 * i
def columnMonitorPolicyValue (i : Fin 5) : Nat := 9 + 4 * i
def columnMonitorPolicyOperation (i : Fin 4) : Nat := 10 + 4 * i

def columnType (colnum : Nat) : Option AsnType :=
  if colnum = 2 then some .asnUnsigned
  else if colnum ∈ [3, 4, 5, 6, 31, 32, 33] then some .asnOctetStr
  else if colnum ∈ [7, 11, 15, 19, 23] then some .asnObjectId
  else if 8 ≤ colnum ∧ colnum ≤ 34 then some .asnInteger
  else none

def netsnmpCheckVbTypeAndSize (var : Varbind) (type : AsnType) (size : Nat) : SnmpErr :=
  if var.type ≠ type then .snmpErrWrongType
  else if var.valLen ≠ size then .snmpErrWrongLength
  else .snmpErrNoError

/-- The check of one column. Texts and object ids are compared with their own length. -/
def monitorPolicyTableSetReserve1 (colnum : Nat) (var : Varbind) : SnmpErr :=
  match columnType colnum with
  | none => .snmpErrGenErr
  | some type =>
    let size := if type = .asnInteger ∨ type = .asnUnsigned then sizeofLong else var.valLen
    let rc := netsnmpCheckVbTypeAndSize var type size
    if colnum ∈ [8, 12, 16, 20, 24] ∧
        (var.integer.toInt < rbmExprMin ∨ var.integer.toInt > rbmExprMax) then
      .snmpErrWrongValue
    else rc

/-- Some SET writes the value; `monitorPolicyTable_set_reserve2` looks at the row status
only. -/
def ColumnAccepts (colnum : Nat) (value : Int32) : Prop :=
  ∃ var : Varbind, var.integer = value ∧
    monitorPolicyTableSetReserve1 colnum var = .snmpErrNoError

structure MonitorPolicyContext where
  monitorPolicyVariable : Fin 5 → List Nat
  monitorPolicyExpression : Fin 5 → Int32
  monitorPolicyValue : Fin 5 → Int32
  monitorPolicyOperation : Fin 4 → Int32
  monitorPolicyLevel : Int32
  monitorPolicySMS : Int32
  monitorPolicyPopup : Int32
  monitorPolicyEmail : Int32
  monitorPolicyPSTN : Int32
  monitorPolicyCommand : Text
  monitorPolicyScript : Text
  monitorPolicyAlertMessage : Text

structure MonitorPolicyContext.Accepted (row : MonitorPolicyContext) : Prop where
  expression : ∀ i,
    ColumnAccepts (columnMonitorPolicyExpression i) (row.monitorPolicyExpression i)
  value : ∀ i, ColumnAccepts (columnMonitorPolicyValue i) (row.monitorPolicyValue i)
  operation : ∀ i, ColumnAccepts (columnMonitorPolicyOperation i) (row.monitorPolicyOperation i)

/-- How `RBM_SNMP_Get_Row` writes an object id. -/
def objectIdText (objid : List Nat) : Text :=
  objid.flatMap fun number => '.' :: printLd number

/-- The values of the row that `RBM_SNMP_Get_Row` fetches, `RBM_VAR_COLUMNS` of them. -/
def MonitorPolicyContext.pstList (row : MonitorPolicyContext) : List Text :=
  [objectIdText (row.monitorPolicyVariable 0), printLd (row.monitorPolicyExpression 0).toInt,
    printLd (row.monitorPolicyValue 0).toInt, printLd (row.monitorPolicyOperation 0).toInt,
    objectIdText (row.monitorPolicyVariable 1), printLd (row.monitorPolicyExpression 1).toInt,
    printLd (row.monitorPolicyValue 1).toInt, printLd (row.monitorPolicyOperation 1).toInt,
    objectIdText (row.monitorPolicyVariable 2), printLd (row.monitorPolicyExpression 2).toInt,
    printLd (row.monitorPolicyValue 2).toInt, printLd (row.monitorPolicyOperation 2).toInt,
    objectIdText (row.monitorPolicyVariable 3), printLd (row.monitorPolicyExpression 3).toInt,
    printLd (row.monitorPolicyValue 3).toInt, printLd (row.monitorPolicyOperation 3).toInt,
    objectIdText (row.monitorPolicyVariable 4), printLd (row.monitorPolicyExpression 4).toInt,
    printLd (row.monitorPolicyValue 4).toInt, printLd row.monitorPolicyLevel.toInt,
    printLd row.monitorPolicySMS.toInt, printLd row.monitorPolicyPopup.toInt,
    printLd row.monitorPolicyEmail.toInt, printLd row.monitorPolicyPSTN.toInt,
    row.monitorPolicyCommand, row.monitorPolicyScript, row.monitorPolicyAlertMessage]

end Table

section Evaluation

/-! A list of texts holds the field `szValue` of the entries of a list. -/

def rbmOidColumns : Nat := 5
def rbmInvalidOid : Text := ['.', '0']

def rbmFillOidLoop (pstList : List Text) : Nat → Nat → Option (List Text)
  | 0, _ => some []
  | sCnt + 1, sAdd =>
    match pstList[sAdd]? with
    | none => none
    | some szValue =>
      if rbmInvalidOid.isPrefixOf szValue then some []
      else (rbmFillOidLoop pstList sCnt (sAdd + 4)).map fun oids => szValue :: oids

/-- The variables that are set; their number is `iLength`. -/
def rbmFillOidList (pstList : List Text) : Option (List Text) :=
  rbmFillOidLoop pstList rbmOidColumns 0

def rbmCopyOidLoop (pstList : List Text) : List Text → Nat → Option (List Text)
  | [], _ => some pstList
  | szValue :: rest, sAdd =>
    if sAdd < pstList.length then rbmCopyOidLoop (pstList.set sAdd szValue) rest (sAdd + 4)
    else none

def rbmCopyOidList (pstList pstOidList : List Text) : Option (List Text) :=
  rbmCopyOidLoop pstList pstOidList 0

/-- The last entry is the null pointer that the initializer leaves. -/
def aExp : List (Option String) :=
  [some "<", some ">", some "<=", some ">=", some "!=", some "==", none]

def aOpn : List String := ["AND", "OR", ""]

def tableEntry {α : Type} (table : List α) (index : Int) : Option α :=
  if 0 ≤ index then table[index.toNat]? else none

def satisfied (iValue iExpr iThreshold : Int) : Bool :=
  if iExpr = 0 then iValue < iThreshold
  else if iExpr = 1 then iValue > iThreshold
  else if iExpr = 2 then iValue ≤ iThreshold
  else if iExpr = 3 then iValue ≥ iThreshold
  else if iExpr = 4 then iValue ≠ iThreshold
  else if iExpr = 5 then iValue = iThreshold
  else false

def operand (pstList : List Text) (index : Nat) : Option Int := (pstList[index]?).bind atoi

/-- Expressions that are out of range count as the first one. -/
def saferExpr (iExpr : Int) : Int := if iExpr < 0 ∨ iExpr > 5 then 0 else iExpr

def rbmValidateSingleVariable (sCnt sSavedRes : Nat) (pstList : List Text) : Option Nat :=
  if sCnt = 0 then do
    let iValue ← operand pstList sCnt
    let iExpr ← operand pstList (sCnt + 1)
    let iThreshold ← operand pstList (sCnt + 2)
    let _ ← tableEntry aExp (saferExpr iExpr)
    return (satisfied iValue (saferExpr iExpr) iThreshold).toNat
  else do
    let iOperation ← operand pstList sCnt
    let iValue ← operand pstList (sCnt + 1)
    let iExpr ← operand pstList (sCnt + 2)
    let iThreshold ← operand pstList (sCnt + 3)
    let _ ← tableEntry aOpn iOperation
    let _ ← tableEntry aExp (saferExpr iExpr)
    let iResult := (satisfied iValue (saferExpr iExpr) iThreshold).toNat
    return if iOperation = 0 then sSavedRes &&& iResult else sSavedRes ||| iResult

def rbmValidateLoop (pstList : List Text) (iLength : Nat) : Nat → Nat → Nat → Option Nat
  | 0, _, _ => none
  | fuel + 1, sCnt, sSavedRes =>
    if (sCnt : Int) < iLength * 4 - 1 then
      match rbmValidateSingleVariable sCnt sSavedRes pstList with
      | none => none
      | some sOutput => rbmValidateLoop pstList iLength fuel (sCnt + 4) sOutput
    else some sSavedRes

def rbmValidateVariables (pstList : List Text) (iLength : Nat) : Option Nat :=
  match rbmValidateSingleVariable 0 0 pstList with
  | none => none
  | some sSavedRes => rbmValidateLoop pstList iLength (iLength + 1) 3 sSavedRes

/-- What `snmp_input` computes from the fetched row and the fetched variables. -/
def rbmEvaluate (pstList pstOidList : List Text) : Option Nat :=
  match rbmCopyOidList pstList pstOidList with
  | none => none
  | some pstList => rbmValidateVariables pstList pstOidList.length

end Evaluation

end EveAgent.Rbm
