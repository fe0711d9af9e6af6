import EveAgent.CText
import EveAgent.Overlay

namespace EveAgent.AgentInfo

section Handlers

inductive File where
  | subAgentInfo
  | agentInfo
  deriving DecidableEq, Repr

/-- The types of the scalars. `interval` has a least value. -/
inductive Kind where
  | ipAddress
  | integer
  | interval
  | octetString
  | dateAndTime
  deriving DecidableEq, Repr

inductive Scalar where
  | masterSNMPAgentIP | masterSNMPAgentPort
  | systemSNMPAgentIP | systemSNMPAgentPort | systemSNMPOID
  | appSNMPAgentIP1 | appSNMPAgentPort1 | appSNMPTrapPort1 | appSNMPAgentOID1
  | appSNMPAgentIP2 | appSNMPAgentPort2 | appSNMPTrapPort2 | appSNMPAgentOID2
  | appSNMPAgentIP3 | appSNMPAgentPort3 | appSNMPTrapPort3 | appSNMPAgentOID3
  | appSNMPAgentIP4 | appSNMPAgentPort4 | appSNMPTrapPort4 | appSNMPAgentOID4
  | appSNMPAgentIP5 | appSNMPAgentPort5 | appSNMPTrapPort5 | appSNMPAgentOID5
  | agentInfoLogFileNetAppliance | agentInfoLogFileJobProcess | agentInfoLogFileBackup
  | agentInfoLogFileProcess | agentInfoLogFileMonRow | agentInfoLogFileTransaction
  | agentInfoLogFileAppMetering | agentInfoLogFileSystemData | agentInfoLogFileDistribution
  | agentInfoLogFileRBM | agentInfoLogFileCommand | agentInfoLogFileMonCol
  | agentInfoLogFileTransfer | agentInfoLogFileUserControl
  | agentInfoLocation | agentInfoName | agentInfoLicence
  | agentInfoOS | agentInfoOSDescription
  | agentInfoFileTransferIP | agentInfoAlertManagerIP | agentInfoIP
  | agentInfoInstallDate
  | agentInfoSerialNo | agentInfoAlertManagerPort | agentInfoFileTransferInterval
  | agentInfoFileTransferPort | agentInfoLogFileSize | agentInfoSystemTime
  deriving DecidableEq, Repr

/-- One handler: where its scalar is kept, whether it is registered read-only, whether
`writeToFile` also follows a refused value, and whether it knows `MODE_SET_UNDO`. -/
structure Handler where
  file : File
  kind : Kind
  readOnly : Bool
  writesOnError : Bool
  undo : Bool
  deriving DecidableEq, Repr

def subAgentHandler (kind : Kind) (writesOnError : Bool) : Handler :=
  { file := .subAgentInfo, kind := kind, readOnly := false, writesOnError := writesOnError
    undo := true }

/-- The trap ports and the identifiers are refused by `default` in this mode. -/
def undolessHandler : Handler := { subAgentHandler .integer true with undo := false }

def agentInfoHandler (kind : Kind) : Handler :=
  { file := .agentInfo, kind := kind, readOnly := false, writesOnError := true, undo := true }

def readOnlyHandler (kind : Kind) : Handler :=
  { file := .agentInfo, kind := kind, readOnly := true, writesOnError := false, undo := false }

def handler : Scalar → Handler
  | .masterSNMPAgentIP => subAgentHandler .ipAddress false
  | .masterSNMPAgentPort => subAgentHandler .integer true
  | .systemSNMPAgentIP => subAgentHandler .ipAddress false
  | .systemSNMPAgentPort => subAgentHandler .integer true
  | .systemSNMPOID => undolessHandler
  | .appSNMPAgentIP1 => subAgentHandler .ipAddress false
  | .appSNMPAgentPort1 => subAgentHandler .integer true
  | .appSNMPTrapPort1 => undolessHandler
  | .appSNMPAgentOID1 => undolessHandler
  | .appSNMPAgentIP2 => subAgentHandler .ipAddress false
  | .appSNMPAgentPort2 => subAgentHandler .integer true
  | .appSNMPTrapPort2 => undolessHandler
  | .appSNMPAgentOID2 => undolessHandler
  | .appSNMPAgentIP3 => subAgentHandler .ipAddress false
  | .appSNMPAgentPort3 => subAgentHandler .integer true
  | .appSNMPTrapPort3 => undolessHandler
  | .appSNMPAgentOID3 => undolessHandler
  | .appSNMPAgentIP4 => subAgentHandler .ipAddress false
  | .appSNMPAgentPort4 => subAgentHandler .integer true
  | .appSNMPTrapPort4 => undolessHandler
  | .appSNMPAgentOID4 => undolessHandler
  | .appSNMPAgentIP5 => subAgentHandler .ipAddress false
  | .appSNMPAgentPort5 => subAgentHandler .integer true
  | .appSNMPTrapPort5 => undolessHandler
  | .appSNMPAgentOID5 => undolessHandler
  | .agentInfoLogFileNetAppliance => agentInfoHandler .octetString
  | .agentInfoLogFileJobProcess => agentInfoHandler .octetString
  | .agentInfoLogFileBackup => agentInfoHandler .octetString
  | .agentInfoLogFileProcess => agentInfoHandler .octetString
  | .agentInfoLogFileMonRow => agentInfoHandler .octetString
  | .agentInfoLogFileTransaction => agentInfoHandler .octetString
  | .agentInfoLogFileAppMetering => agentInfoHandler .octetString
  | .agentInfoLogFileSystemData => agentInfoHandler .octetString
  -- the one handler of agentInfo.c that can be set and has no case for `MODE_SET_UNDO`
  | .agentInfoLogFileDistribution => { agentInfoHandler .octetString with undo := false }
  | .agentInfoLogFileRBM => agentInfoHandler .octetString
  | .agentInfoLogFileCommand => agentInfoHandler .octetString
  | .agentInfoLogFileMonCol => agentInfoHandler .octetString
  | .agentInfoLogFileTransfer => agentInfoHandler .octetString
  | .agentInfoLogFileUserControl => agentInfoHandler .octetString
  | .agentInfoLocation => agentInfoHandler .octetString
  | .agentInfoName => agentInfoHandler .octetString
  | .agentInfoLicence => agentInfoHandler .octetString
  | .agentInfoOS => readOnlyHandler .octetString
  | .agentInfoOSDescription => readOnlyHandler .octetString
  | .agentInfoFileTransferIP => agentInfoHandler .ipAddress
  | .agentInfoAlertManagerIP => agentInfoHandler .ipAddress
  | .agentInfoIP => readOnlyHandler .ipAddress
  | .agentInfoInstallDate => agentInfoHandler .dateAndTime
  | .agentInfoSerialNo => agentInfoHandler .integer
  | .agentInfoAlertManagerPort => agentInfoHandler .integer
  | .agentInfoFileTransferInterval => agentInfoHandler .interval
  | .agentInfoFileTransferPort => agentInfoHandler .integer
  | .agentInfoLogFileSize => agentInfoHandler .integer
  | .agentInfoSystemTime => readOnlyHandler .integer

end Handlers

section Values

abbrev Octets := List UInt8

/-- `IPADD_LEN` -/
def ipAddLen : Nat := 4

/-- `DATEANDTIME_LEN` -/
def dateAndTimeLen : Nat := 11

/-- `STR_LEN` -/
def strLen : Nat := 255

/-- `MIN_FILE_TRANSFER_INTERVAL` -/
def minFileTransferInterval : Int := 10

/-- A value of a request; the parser keeps 32 bits of an integer. -/
inductive AsnValue where
  | integer (value : Int32)
  | octetStr (octets : Octets)
  | ipAddress (octets : Octets)
  | other (type : UInt8) (octets : Octets)
  deriving DecidableEq, Repr

/-- What a GET shows of a scalar, or a SET asks for. -/
inductive Value where
  | integer (value : Int32)
  | octets (octets : Octets)
  deriving DecidableEq, Repr

def AsnValue.value : AsnValue → Value
  | .integer value => .integer value
  | .octetStr octets => .octets octets
  | .ipAddress octets => .octets octets
  | .other _ octets => .octets octets

def cString (octets : Octets) : Octets := octets.takeWhile fun octet => octet != 0

theorem cString_ended (octets : Octets) : (0 : UInt8) ∉ cString octets := by
  intro member
  have kept := List.mem_takeWhile_imp member
  exact absurd kept (by decide)

theorem cString_size {octets : Octets} (fits : octets.length < strLen) :
    (cString octets).length < strLen := by
  have shorter : (cString octets).length ≤ octets.length := (List.takeWhile_sublist _).length_le
  omega

theorem cString_whole {octets : Octets} (ended : (0 : UInt8) ∉ octets) :
    cString octets = octets := by
  apply List.takeWhile_eq_self_iff.mpr
  intro octet member
  rw [bne_iff_ne]
  intro zero
  rw [zero] at member
  exact ended member

/-- The variable of a scalar: a number, an array that is filled, or an array that a zero ends. -/
inductive Cell : Kind → Type where
  | integer (value : Int32) : Cell .integer
  | interval (value : Int32) : Cell .interval
  | ipAddress (octets : Octets) (size : octets.length = ipAddLen) : Cell .ipAddress
  | dateAndTime (octets : Octets) (size : octets.length = dateAndTimeLen) : Cell .dateAndTime
  | octetString (octets : Octets) (size : octets.length < strLen) (ended : (0 : UInt8) ∉ octets) :
      Cell .octetString

def Cell.value : {kind : Kind} → Cell kind → Value
  | _, .integer value => .integer value
  | _, .interval value => .integer value
  | _, .ipAddress octets _ => .octets octets
  | _, .dateAndTime octets _ => .octets octets
  | _, .octetString octets _ _ => .octets octets

theorem Cell.value_injective {kind : Kind} {a b : Cell kind} (same : a.value = b.value) :
    a = b := by
  cases a with
  | integer value =>
    cases b with
    | integer other => exact congrArg Cell.integer (Value.integer.inj same)
  | interval value =>
    cases b with
    | interval other => exact congrArg Cell.interval (Value.integer.inj same)
  | ipAddress octets size =>
    cases b with
    | ipAddress other size =>
      obtain rfl := Value.octets.inj same
      rfl
  | dateAndTime octets size =>
    cases b with
    | dateAndTime other size =>
      obtain rfl := Value.octets.inj same
      rfl
  | octetString octets size ended =>
    cases b with
    | octetString other size ended =>
      obtain rfl := Value.octets.inj same
      rfl

/-- The check of the handlers, all of it in `MODE_SET_COMMIT`. -/
def Kind.accepts : Kind → AsnValue → Bool
  | .integer, .integer _ => true
  | .interval, .integer value => decide (minFileTransferInterval ≤ value.toInt)
  | .ipAddress, .ipAddress octets => octets.length == ipAddLen
  | .octetString, .octetStr _ => true
  | .dateAndTime, .octetStr _ => true
  | _, _ => false

/-- An accepted value and the zero behind a string stay inside of the array. -/
def Kind.fits : Kind → AsnValue → Bool
  | .octetString, .octetStr octets => decide (octets.length < strLen)
  | .dateAndTime, .octetStr octets => decide (octets.length ≤ dateAndTimeLen)
  | _, _ => true

/-- `memcpy` of the value; `none` where it writes behind the array. A value that is not accepted
is not stored. -/
def Cell.store : {kind : Kind} → Cell kind → AsnValue → Option (Cell kind)
  | _, .integer _, .integer value => some (.integer value)
  | _, .interval _, .integer value => some (.interval value)
  | _, .ipAddress old size, .ipAddress octets =>
    if filled : octets.length = ipAddLen then some (.ipAddress octets filled)
    else some (.ipAddress old size)
  | _, .dateAndTime old size, .octetStr octets =>
    if fits : octets.length ≤ dateAndTimeLen then
      some (.dateAndTime (overlay old octets) ((overlay_length (by omega)).trans size))
    else none
  | _, .octetString _ _ _, .octetStr octets =>
    if fits : octets.length < strLen then
      some (.octetString (cString octets) (cString_size fits) (cString_ended octets))
    else none
  | _, cell, _ => some cell

def Cell.stored {kind : Kind} (cell : Cell kind) (value : AsnValue) : Cell kind :=
  (cell.store value).getD cell

theorem Cell.store_fits {kind : Kind} (cell : Cell kind) {value : AsnValue}
    (fits : kind.fits value = true) : cell.store value = some (cell.stored value) := by
  cases cell with
  | integer old => cases value <;> rfl
  | interval old => cases value <;> rfl
  | ipAddress old size =>
    cases value with
    | ipAddress octets =>
      rw [Cell.stored, Cell.store]
      split
      · rfl
      · rfl
    | _ => rfl
  | dateAndTime old size =>
    cases value with
    | octetStr octets =>
      have bound : octets.length ≤ dateAndTimeLen := of_decide_eq_true fits
      rw [Cell.stored, Cell.store, dif_pos bound]
      rfl
    | _ => rfl
  | octetString old size ended =>
    cases value with
    | octetStr octets =>
      have bound : octets.length < strLen := of_decide_eq_true fits
      rw [Cell.stored, Cell.store, dif_pos bound]
      rfl
    | _ => rfl

theorem Cell.store_overrun {kind : Kind} (cell : Cell kind) {value : AsnValue}
    (overrun : kind.fits value = false) : cell.store value = none := by
  cases cell with
  | integer old => cases value <;> cases overrun
  | interval old => cases value <;> cases overrun
  | ipAddress old size => cases value <;> cases overrun
  | dateAndTime old size =>
    cases value with
    | octetStr octets => rw [Cell.store, dif_neg (of_decide_eq_false overrun)]
    | _ => cases overrun
  | octetString old size ended =>
    cases value with
    | octetStr octets => rw [Cell.store, dif_neg (of_decide_eq_false overrun)]
    | _ => cases overrun

end Values

end EveAgent.AgentInfo
