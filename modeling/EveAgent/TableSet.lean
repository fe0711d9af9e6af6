import EveAgent.AgentInfo.SetRequest
import EveAgent.Attempt

/-! A SET request on one row of a table whose columns are arrays and numbers. -/

namespace EveAgent.TableSet

open AgentInfo (Mode nextMode)

section Values

inductive AsnType where
  | asnInteger
  | asnCounter
  | asnUnsigned
  | asnTimeticks
  | asnOctetStr
  | asnObjectId
  | asnNull
  | other
  deriving DecidableEq, Repr

def maxOidLen : Nat := 128

def sizeofLong : Nat := 4

def sizeofOid : Nat := 4

/-- `asn_parse_objid` refuses an object id that is longer than `MAX_OID_LEN`. -/
abbrev ObjectId := { ids : List UInt32 // ids.length ≤ maxOidLen }

/-- The value of a varbind as the agent has parsed it. -/
inductive Value where
  | integer (value : Int32)
  | counter (value : UInt32)
  | unsigned (value : UInt32)
  | timeticks (value : UInt32)
  | octetStr (octets : List UInt8)
  | objectId (objid : ObjectId)
  | null
  | other (octets : List UInt8)
  deriving DecidableEq, Repr

def Value.type : Value → AsnType
  | .integer _ => .asnInteger
  | .counter _ => .asnCounter
  | .unsigned _ => .asnUnsigned
  | .timeticks _ => .asnTimeticks
  | .octetStr _ => .asnOctetStr
  | .objectId _ => .asnObjectId
  | .null => .asnNull
  | .other _ => .other

def wordOctets (word : UInt32) : List UInt8 :=
  [word.toUInt8, (word >>> 8).toUInt8, (word >>> 16).toUInt8, (word >>> 24).toUInt8]

/-- What is behind the pointer of the value, `val_len` octets. -/
def Value.octets : Value → List UInt8
  | .integer value => wordOctets value.toUInt32
  | .counter value => wordOctets value
  | .unsigned value => wordOctets value
  | .timeticks value => wordOctets value
  | .octetStr octets => octets
  | .objectId objid => objid.val.flatMap wordOctets
  | .null => []
  | .other octets => octets

def Value.valLen (value : Value) : Nat := value.octets.length

def longOf (octets : List UInt8) : Int32 :=
  ((octets.take sizeofLong).foldr (fun (octet : UInt8) word => word * 256 + octet.toUInt32)
    (0 : UInt32)).toInt32

/-- `*var->val.integer`, whatever the type is. -/
def Value.long : Value → Attempt Unit Int32
  | .integer value => .ok value
  | .counter value => .ok value.toInt32
  | .unsigned value => .ok value.toInt32
  | .timeticks value => .ok value.toInt32
  | .octetStr octets => .ok (longOf octets)
  | .objectId objid => .ok (objid.val.headD 0).toInt32
  | .null => .error .fault
  | .other octets => .ok (longOf octets)

end Values

section Checks

inductive SnmpErr where
  | noError
  | wrongType
  | wrongLength
  | wrongValue
  | inconsistentValue
  deriving DecidableEq, Repr

def checkVbTypeAndSize (var : Value) (type : AsnType) (size : Nat) : SnmpErr :=
  if var.type ≠ type then .wrongType
  else if var.valLen ≠ size then .wrongLength
  else .noError

def checkRowstatusTransition (oldValue newValue : Int32) : SnmpErr :=
  if newValue = 1 ∨ newValue = 2 then
    if oldValue = 2 ∨ oldValue = 1 then .noError else .inconsistentValue
  else if newValue = 4 ∨ newValue = 5 then
    if oldValue ≠ 0 then .inconsistentValue else .noError
  else if newValue = 6 then .noError
  else .wrongValue

/-- `netsnmp_check_vb_rowstatus` -/
def checkVbRowstatus (var : Value) (oldValue : Int32) : Attempt Unit SnmpErr :=
  let rc := checkVbTypeAndSize var .asnInteger sizeofLong
  if rc ≠ .noError then .ok rc
  else do
    let value ← var.long
    if value = 3 ∨ value < 0 ∨ value > 6 then return .wrongValue
    else return checkRowstatusTransition oldValue value

/-- `netsnmp_table_array_check_row_status`, for rows that may always change their state. -/
def checkRowStatus (rsNew : Int32) : Int32 :=
  if rsNew = 4 ∨ rsNew = 1 then 1 else if rsNew ≠ 6 then 2 else 6

end Checks

section Rows

/-- The columns of a table: which are numbers, which are arrays, and what is checked of them.
The row status is none of both. -/
structure Layout (N A : Type) where
  numberType : N → AsnType
  numberTypes : ∀ n, numberType n ∈
    [AsnType.asnInteger, .asnCounter, .asnUnsigned, .asnTimeticks]
  range : N → Option (Int32 × Int32)
  created : N → Int32
  isOid : A → Bool
  capacity : A → Nat
  oidCapacity : ∀ a, isOid a = true → capacity a = maxOidLen * sizeofOid
  /-- The columns in the order of `row_copy`. -/
  arrays : List A
  rowErr : (N → Int32) → (A → Nat) → Int32 → Bool

/-- An array of a row, with the length that is recorded beside it. -/
structure Buffer (capacity : Nat) where
  octets : List UInt8
  len : Nat
  room : octets.length = capacity

def Buffer.blank (capacity : Nat) : Buffer capacity :=
  ⟨List.replicate capacity 0, 0, List.length_replicate⟩

/-- `memcpy`; what does not fit is written over the next columns. -/
def Buffer.memcpy {capacity : Nat} (dst : Buffer capacity) (src : List UInt8) :
    Attempt Unit (Buffer capacity) :=
  if fits : src.length ≤ capacity then
    .ok ⟨overlay dst.octets src, src.length, by
      rw [overlay_length (by rw [dst.room]; exact fits), dst.room]⟩
  else .error .fault

/-- As many octets are copied as the length says. -/
def Buffer.copy {capacity : Nat} (dst src : Buffer capacity) : Attempt Unit (Buffer capacity) :=
  if src.len ≤ capacity then dst.memcpy (src.octets.take src.len) else .error .fault

variable {N A : Type} (layout : Layout N A)

structure Row where
  numbers : N → Int32
  arrays : (a : A) → Buffer (layout.capacity a)
  status : Int32

def createRow : Row layout := ⟨layout.created, fun a => .blank (layout.capacity a), 0⟩

variable [DecidableEq N] [DecidableEq A] {layout}

def copyArrays (src : Row layout) : List A → ((a : A) → Buffer (layout.capacity a)) →
    Attempt Unit ((a : A) → Buffer (layout.capacity a))
  | [], arrays => .ok arrays
  | a :: later, arrays => do
      let copied ← (arrays a).copy (src.arrays a)
      copyArrays src later (Function.update arrays a copied)

def rowCopy (dst src : Row layout) : Attempt Unit (Row layout) := do
  let arrays ← copyArrays src layout.arrays dst.arrays
  return ⟨src.numbers, arrays, src.status⟩

def duplicateRow (row : Row layout) : Attempt Unit (Row layout) :=
  rowCopy ⟨fun _ => 0, fun a => .blank (layout.capacity a), 0⟩ row

end Rows

section Phases

inductive Column (N A : Type) where
  | number (n : N)
  | array (a : A)
  | status
  deriving DecidableEq, Repr

structure Varbind (N A : Type) where
  column : Column N A
  value : Value
  deriving DecidableEq, Repr

variable {N A : Type} (layout : Layout N A)

def Layout.arrayType (a : A) : AsnType := if layout.isOid a then .asnObjectId else .asnOctetStr

/-- One column of `set_reserve1`. The length of an array is compared with itself. -/
def reserveColumn (var : Varbind N A) : Attempt Unit SnmpErr :=
  match var.column with
  | .array a => .ok (checkVbTypeAndSize var.value (layout.arrayType a) var.value.valLen)
  | .status => .ok (checkVbTypeAndSize var.value .asnInteger sizeofLong)
  | .number n =>
    let rc := checkVbTypeAndSize var.value (layout.numberType n) sizeofLong
    match layout.range n with
    | none => .ok rc
    | some (min, max) => do
        let value ← var.value.long
        return if value < min ∨ value > max then .wrongValue else rc

/-- One column of `set_reserve2`: only the row status is looked at. -/
def reserveStatus (oldStatus : Int32) (var : Varbind N A) : Attempt Unit SnmpErr :=
  match var.column with
  | .status => checkVbRowstatus var.value oldStatus
  | _ => .ok .noError

/-- Whether the checks of all columns report no error. -/
def checkColumns (check : Varbind N A → Attempt Unit SnmpErr) : List (Varbind N A) →
    Attempt Unit Bool
  | [] => .ok true
  | var :: vars => do
      let rc ← check var
      let later ← checkColumns check vars
      return rc == .noError && later

def setReserve1 : List (Varbind N A) → Attempt Unit Bool := checkColumns (reserveColumn layout)

def setReserve2 (oldStatus : Int32) : List (Varbind N A) → Attempt Unit Bool :=
  checkColumns (reserveStatus oldStatus)

variable {layout} [DecidableEq N] [DecidableEq A]

def setColumn (row : Row layout) (var : Varbind N A) : Attempt Unit (Row layout) :=
  match var.column with
  | .array a => do
      let written ← (row.arrays a).memcpy var.value.octets
      return { row with arrays := Function.update row.arrays a written }
  | .status => do
      let value ← var.value.long
      return { row with status := value }
  | .number n => do
      let value ← var.value.long
      return { row with numbers := Function.update row.numbers n value }

def setColumns : Row layout → List (Varbind N A) → Attempt Unit (Row layout)
  | row, [] => .ok row
  | row, var :: vars => do
      let row ← setColumn row var
      setColumns row vars

/-- The check of the table at the end of the action. -/
def Row.err (row : Row layout) : Bool :=
  layout.rowErr row.numbers (fun a => (row.arrays a).len) row.status

def setAction (row : Row layout) (vars : List (Varbind N A)) : Attempt Unit (Row layout) := do
  let row ← setColumns row vars
  return { row with status := checkRowStatus row.status }

end Phases

section Groups

variable {N A : Type} {layout : Layout N A}

/-- The row of a request, and the copy of a row that was there before. -/
structure Group (layout : Layout N A) where
  existing : Option (Row layout)
  created : Bool
  undo : Option (Row layout)

variable [DecidableEq N] [DecidableEq A]

/-- `process_set_group`, and whether no error is reported. A commit changes no array of the row;
the file and the counters are not looked at here. -/
def processSetGroup (vars : List (Varbind N A)) (group : Group layout) :
    Mode → Attempt Unit (Group layout × Bool)
  | .reserve1 => do
      let row ← need group.existing
      let undo ← if group.created then .ok none else some <$> duplicateRow row
      let well ← setReserve1 layout vars
      return ({ group with undo }, well)
  | .reserve2 => do
      let well ← setReserve2 (group.undo.elim 0 Row.status) vars
      return (group, well)
  | .action => do
      let row ← need group.existing
      let row ← setAction row vars
      return ({ group with existing := some row }, !row.err)
  | .commit => do
      let row ← need group.existing
      return (⟨if row.status = 6 then none else some row, group.created, none⟩, true)
  | .free => .ok (⟨if group.created then none else group.existing, group.created, none⟩, true)
  | .undo =>
    if group.created then .ok (⟨none, true, none⟩, true)
    else do
      let row ← need group.existing
      let undo ← need group.undo
      let row ← rowCopy row undo
      return (⟨some row, false, none⟩, true)

/-- The passes of the agent; in each one other varbinds may fail too. -/
def handleSetLoop (othersFail : Mode → Bool) (vars : List (Varbind N A)) :
    Nat → Mode → Bool → Group layout → Attempt Unit (Group layout)
  | 0, _, _, group => .ok group
  | passes + 1, mode, failed, group => do
      let (group, well) ← processSetGroup vars group mode
      let failed := failed || !well || othersFail mode
      match nextMode mode failed with
      | none => return group
      | some mode => handleSetLoop othersFail vars passes mode failed group

/-- The row behind a request; a row that is not there is created. -/
def handleSet (othersFail : Mode → Bool) (row : Option (Row layout)) (vars : List (Varbind N A)) :
    Attempt Unit (Option (Row layout)) := do
  let group ← handleSetLoop othersFail vars 4 .reserve1 false
    ⟨some (row.getD (createRow layout)), row.isNone, none⟩
  return group.existing

end Groups

end EveAgent.TableSet
