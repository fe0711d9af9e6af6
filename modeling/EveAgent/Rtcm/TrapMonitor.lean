import EveAgent.JobSched.ReadOid

/-! The monitoring of `trapTable`, with the log of the traps compiled in. -/

namespace EveAgent.Rtcm

open Machine
open JobSched.ReadOid (DataModel)

section Bytes

def littleEndian : List UInt8 → Nat
  | [] => 0
  | byte :: bytes => byte.toNat + 256 * littleEndian bytes

theorem littleEndian_append (low high : List UInt8) :
    littleEndian (low ++ high) = littleEndian low + 256 ^ low.length * littleEndian high := by
  induction low with
  | nil => simp [littleEndian]
  | cons byte low ih =>
    calc
      littleEndian (byte :: low ++ high) =
          byte.toNat + 256 * (littleEndian low + 256 ^ low.length * littleEndian high) := by
        simp [littleEndian, ih]
      _ = littleEndian (byte :: low) + 256 ^ (byte :: low).length * littleEndian high := by
        simp only [littleEndian, List.length_cons]
        ring

end Bytes

section Variables

/-- The types of variables, as far as values depend on them. -/
inductive AsnType where
  | asnInteger
  /-- Counters of 32 bits, gauges and time ticks as well. -/
  | asnUnsigned
  | asnCounter64
  | other
  deriving DecidableEq, Repr

/-- What an access function returns, with the memory from the returned address on. -/
structure Access where
  type : AsnType
  varLen : Nat
  ucAccess : Nat → UInt8

variable (model : DataModel) (access : Access)

def Access.bytes (start length : Nat) : List UInt8 :=
  (List.range length).map fun offset => access.ucAccess (start + offset)

/-- `*(u_long *) ucAccess` -/
def Access.ulong : Nat := littleEndian (access.bytes 0 model.sizeofLong)

def signed (bits value : Nat) : Int :=
  ((value : Int) + 2 ^ (bits - 1)) % 2 ^ bits - 2 ^ (bits - 1)

/-- What `asn_build_int` leaves of a `long`. -/
def truncated (value : Int) : Int :=
  if value > 2 ^ 31 - 1 then value % 2 ^ 32
  else if value < -2 ^ 31 then -(value % 2 ^ 32)
  else value

/-- The integer of a response, as `snmp_set_var_value` and the encoding make it. -/
def Access.value : Option Int :=
  match access.type with
  | .asnInteger =>
    match access.varLen with
    | 1 => some (signed 8 (littleEndian (access.bytes 0 1)))
    | 2 => some (signed 16 (littleEndian (access.bytes 0 2)))
    | 4 => some (signed 32 (littleEndian (access.bytes 0 4)))
    | 8 => some (truncated (model.long (littleEndian (access.bytes 0 8))))
    | _ => none
  | .asnUnsigned =>
    match access.varLen with
    | 1 => some (littleEndian (access.bytes 0 1))
    | 2 => some (littleEndian (access.bytes 0 2))
    | 4 => some (littleEndian (access.bytes 0 4))
    | 8 => some ((littleEndian (access.bytes 0 8) % 2 ^ 32 : Nat))
    | _ => none
  | .asnCounter64 =>
    -- two `u_long`s, of which 32 bits are encoded
    some ((littleEndian (access.bytes 0 4) * 2 ^ 32 +
      littleEndian (access.bytes model.sizeofLong 4) : Nat))
  | .other => none

/-- The handler behind the first one of the subtree of a variable. -/
inductive ApiHandler where
  | missing
  | oldApi
  | otherApi
  deriving DecidableEq, Repr

/-- A variable at the time it is asked for: its handler and what its access function returns. -/
structure SnmpVariable where
  handler : ApiHandler
  answer : Option Access

def SnmpVariable.value (asked : SnmpVariable) : Option Int :=
  asked.answer.bind (Access.value model)

def rtmFetchVarVal (asked : SnmpVariable) : Except Nat Nat :=
  match asked.handler with
  | .missing => .error 1
  | .otherApi => .error 2
  | .oldApi =>
    match asked.answer with
    | none => .error 1
    | some access => .ok (access.ulong model)

end Variables

section Rows

/-- The text `.1.3.6` of an object identifier. -/
def oidText (trapVariable : List UInt32) : Text :=
  trapVariable.flatMap fun id => '.' :: Nat.toDigits 10 id.toNat

/-- A row of `trapTable`, within the sizes of its columns. -/
structure TrapRow where
  trapIndex : UInt32
  trapPolicyID : UInt32
  trapVariable : List UInt32
  variable_le : trapVariable.length ≤ 128
  trapExpression : Int32
  trapValue : Int32
  trapDestinationIP : UInt32
  trapPort : Int32
  trapMessage : Text
  message_le : trapMessage.length ≤ 255
  trapStatus : Int32
  deriving DecidableEq, Repr

/-- The relation of the row between a value and its `trapValue`. -/
def TrapRow.stands (row : TrapRow) (value : Int) : Bool :=
  match row.trapExpression.toInt with
  | 0 => value < row.trapValue.toInt
  | 1 => value > row.trapValue.toInt
  | 2 => value ≤ row.trapValue.toInt
  | 3 => value ≥ row.trapValue.toInt
  | 4 => value != row.trapValue.toInt
  | 5 => value == row.trapValue.toInt
  | _ => false

def validateTrapVariable (model : DataModel) (trapVar : Text) (row : TrapRow) : Bool :=
  row.stands (model.strtol trapVar)

structure StVarBindArgs where
  variableOid : Text
  type : Char
  value : Text
  deriving DecidableEq, Repr

/-- What `send_snmptrap` is called with: the destination and the arguments. -/
structure Trap where
  trapDestinationIP : UInt32
  trapPort : Int32
  args : List StVarBindArgs
  deriving DecidableEq, Repr

def nuriSubagentPortOid : String := ".1.3.6.1.4.1.3204.1.3.35.4.1.9"

def nuriTrapPolicyOid : String := ".1.3.6.1.4.1.3204.1.3.35.4.1.2"

def nuriTrapMsgOid : String := ".1.3.6.1.4.1.3204.1.3.35.4.1.11"

def TrapRow.trap (giMyPort : Int32) (row : TrapRow) : Trap where
  trapDestinationIP := row.trapDestinationIP
  trapPort := row.trapPort
  args :=
    let column (oid : String) := oid.toList ++ '.' :: Nat.toDigits 10 row.trapIndex.toNat
    [⟨column nuriSubagentPortOid, 'i', printLd giMyPort.toInt⟩,
      ⟨column nuriTrapPolicyOid, 'u', Nat.toDigits 10 row.trapPolicyID.toNat⟩,
      ⟨column nuriTrapMsgOid, 's', row.trapMessage⟩]

end Rows

section Calls

/-- How the log of one trap goes: whether `fstat` succeeds, the file is then beyond its limit, and
it can be opened again. -/
structure LogOutcome where
  fstat : Bool
  exceeds : Bool
  reopened : Bool
  deriving DecidableEq, Repr

/-- What one call meets: whether the log file can be opened, the variables of the rows, and the
log of the `n`-th trap. -/
structure Call where
  opens : Bool
  asked : TrapRow → SnmpVariable
  logged : Nat → LogOutcome

/-- The log stream, `NULL` or not, and what the call has done so far. -/
structure CallState where
  fpt : Bool
  fetched : List TrapRow
  evaluated : List (TrapRow × Int)
  sent : List Trap
  deriving DecidableEq, Repr

/-- `none` is a write to a stream that is `NULL`. -/
def rtmLogTrapDetails (outcome : LogOutcome) (s : CallState) : Option CallState :=
  if s.fpt = false then none
  else if outcome.fstat && outcome.exceeds then some { s with fpt := outcome.reopened }
  else some s

variable (model : DataModel) (giMyPort : Int32) (call : Call)

/-- What `RTM_callback` does with a value: `none` is a write beyond `trapMessage` or the arguments,
or to a stream that is `NULL`. -/
def rtmJudge (s : CallState) (row : TrapRow) (ulVal : Nat) : Option CallState :=
  let s := { s with evaluated := s.evaluated ++ [(row, model.long ulVal)] }
  let iSendTrap := validateTrapVariable model (printLd (model.long ulVal)) row
  if iSendTrap = false then some s
  else if 255 ≤ row.trapMessage.length then none
  else
    rtmLogTrapDetails (call.logged s.sent.length) { s with sent := s.sent ++ [row.trap giMyPort] }

/-- The body of the loop; `none` is a write beyond `szStrOid` as well. -/
def rtmRow (s : CallState) (row : TrapRow) : Option CallState :=
  if row.trapStatus ≠ 1 then some s
  else if 128 ≤ (oidText row.trapVariable).length then none
  -- The columns of a row are zero before they are set.
  else if row.trapVariable.headD 0 = 0 then some s
  else
    let s := { s with fetched := s.fetched ++ [row] }
    match rtmFetchVarVal model (call.asked row) with
    | .error iErr => if iErr = 2 ∧ s.fpt = false then none else some s
    | .ok ulVal => rtmJudge model giMyPort call s row ulVal

end Calls

section Monitor

/-- A call that has returned, with the rows that it went through. -/
structure Called where
  call : Call
  rows : List TrapRow
  result : CallState

/-- The table, the log stream and the alarms of `RTM_callback`. -/
structure Monitor where
  rows : List TrapRow
  fpt : Bool
  rtmRegid : UInt32
  pending : List UInt32
  regnum : UInt32
  calls : List Called
  /-- A buffer was left, or a stream used that is `NULL`. -/
  fault : Bool

def Monitor.start : Monitor := ⟨[], false, 0, [], 1, [], false⟩

def Monitor.snmpAlarmUnregister (s : Monitor) (clientreg : UInt32) : Monitor :=
  { s with pending := s.pending.filter fun alarm => alarm != clientreg }

def Monitor.snmpAlarmRegister (s : Monitor) : Monitor :=
  { s with pending := s.pending ++ [s.regnum], rtmRegid := s.regnum, regnum := s.regnum + 1 }

/-- The alarm that is pending is unregistered. -/
def Monitor.unregistered (s : Monitor) : Monitor :=
  if s.rtmRegid ≠ 0 then { s.snmpAlarmUnregister s.rtmRegid with rtmRegid := 0 } else s

inductive TrapEvent where
  | initTrapTable (rows : List TrapRow) (call : Call)
  /-- A SET request leaves these rows. -/
  | setTrapTable (rows : List TrapRow)
  /-- `run_alarms` calls an alarm that has expired and unregisters it, as it does not repeat. -/
  | runAlarms (clientreg : UInt32) (call : Call)

variable (model : DataModel) (giMyPort : Int32)

/-- `RTM_callback` behind its first statement. -/
def Monitor.callback (call : Call) (s : Monitor) : Monitor :=
  if s.fpt = false ∧ call.opens = false then
    { s with calls := s.calls ++ [⟨call, s.rows, ⟨false, [], [], []⟩⟩] }
  else
    match s.rows.foldlM (rtmRow model giMyPort call) ⟨true, [], [], []⟩ with
    | none => { s with fault := true }
    | some t =>
      Monitor.snmpAlarmRegister
        { s with fpt := t.fpt, calls := s.calls ++ [⟨call, s.rows, t⟩] }

def Monitor.rtmCallback (call : Call) (s : Monitor) : Monitor :=
  s.unregistered.callback model giMyPort call

/-- The subagent starts once, and nothing is said of it behind a fault. -/
def Monitor.step (s : Monitor) : TrapEvent → Option Monitor
  | .initTrapTable rows call =>
    if s.fault = true ∨ s.calls ≠ [] then none
    else some (Monitor.rtmCallback model giMyPort call { s with rows := rows })
  | .setTrapTable rows => if s.fault = true then none else some { s with rows := rows }
  | .runAlarms clientreg call =>
    if s.fault = true ∨ clientreg ∉ s.pending then none
    else some ((s.rtmCallback model giMyPort call).snmpAlarmUnregister clientreg)

end Monitor

section Specification

variable (model : DataModel) (giMyPort : Int32) (call : Call)

def TrapRow.watched (row : TrapRow) : Bool := row.trapStatus == 1 && row.trapVariable != []

/-- The rows whose variables are integers for a GET, with the values. -/
def values (rows : List TrapRow) : List (TrapRow × Int) :=
  rows.flatMap fun row =>
    if row.watched then (((call.asked row).value model).map fun value => (row, value)).toList
    else []

/-- The traps of the rows whose relations to the values hold. -/
def traps (rows : List TrapRow) : List Trap :=
  ((values model call rows).filter fun pair => pair.1.stands pair.2).map
    fun pair => pair.1.trap giMyPort

/-- Every watched row was fetched and judged once, by the value of a GET. -/
structure Called.Judged (called : Called) : Prop where
  fetched : called.result.fetched = called.rows.filter TrapRow.watched
  evaluated : called.result.evaluated = values model called.call called.rows
  sent : called.result.sent = traps model giMyPort called.call called.rows

/-- Monitoring goes on, all calls have judged right, and nothing was written where it must not. -/
structure Monitor.Monitors (s : Monitor) : Prop where
  next : s.calls ≠ [] → s.pending.length = 1
  judged : ∀ called ∈ s.calls, called.Judged model giMyPort
  written : s.fault = false

end Specification

section Conditions

variable (model : DataModel)

/-- An integer that a `long` can be read from: as long as a `long`, or a longer one whose low half
is kept, and in the range of the response. -/
def Access.ReadsAsLong (access : Access) : Prop :=
  match model with
  | .ilp32 =>
    (access.type = .asnInteger ∨ access.type = .asnUnsigned ∧ access.ulong model < 2 ^ 31) ∧
      (access.varLen = 4 ∨ access.varLen = 8)
  | .lp64 =>
    (access.type = .asnInteger ∧ -2 ^ 31 ≤ model.long (access.ulong model) ∧
        model.long (access.ulong model) < 2 ^ 32 ∨
      access.type = .asnUnsigned ∧ access.ulong model < 2 ^ 32) ∧
      access.varLen = 8

/-- Behind the old interface there are only such integers, and elsewhere there are none. -/
def SnmpVariable.Readable (asked : SnmpVariable) : Prop :=
  if asked.handler = .oldApi then ∀ access ∈ asked.answer, access.ReadsAsLong model
  else asked.value model = none

instance (access : Access) : Decidable (access.ReadsAsLong model) :=
  match model with
  | .ilp32 => inferInstanceAs (Decidable (_ ∧ _))
  | .lp64 => inferInstanceAs (Decidable (_ ∧ _))

instance (asked : SnmpVariable) : Decidable (asked.Readable model) :=
  inferInstanceAs (Decidable
    (if asked.handler = .oldApi then ∀ access ∈ asked.answer, access.ReadsAsLong model
      else asked.value model = none))

variable (call : Call)

def TrapRow.sends (row : TrapRow) : Bool :=
  row.watched && ((call.asked row).value model).any row.stands

def TrapRow.logs (row : TrapRow) : Bool :=
  row.watched && (row.sends model call || (call.asked row).handler == .otherApi)

/-- The texts of an active row fit, and its variable can be read. -/
structure TrapRow.Fits (row : TrapRow) : Prop where
  oid : (oidText row.trapVariable).length < 128
  first : row.trapVariable.head? ≠ some 0
  readable : row.trapVariable ≠ [] → (call.asked row).Readable model
  message : row.sends model call = true → row.trapMessage.length < 255

instance (row : TrapRow) : Decidable (row.Fits model call) :=
  decidable_of_iff
    ((oidText row.trapVariable).length < 128 ∧ row.trapVariable.head? ≠ some 0 ∧
      (row.trapVariable ≠ [] → (call.asked row).Readable model) ∧
      (row.sends model call = true → row.trapMessage.length < 255))
    ⟨fun ⟨oid, first, readable, message⟩ => ⟨oid, first, readable, message⟩,
      fun ⟨oid, first, readable, message⟩ => ⟨oid, first, readable, message⟩⟩

/-- No row writes to the log behind a rotation that cannot open it again; `sent` traps were sent
before these rows. -/
def LogStays (sent : Nat) : List TrapRow → Prop
  | [] => True
  | row :: rows =>
    if row.sends model call then
      ((call.logged sent).fstat && (call.logged sent).exceeds &&
          !(call.logged sent).reopened → ∀ later ∈ rows, later.logs model call = false) ∧
        LogStays (sent + 1) rows
    else LogStays sent rows

instance LogStays.decidable : ∀ (sent : Nat) (rows : List TrapRow),
    Decidable (LogStays model call sent rows)
  | _, [] => isTrue trivial
  | sent, row :: rows =>
    have := LogStays.decidable (sent + 1) rows
    have := LogStays.decidable sent rows
    inferInstanceAs (Decidable (if row.sends model call then (_ → _) ∧ _
      else LogStays model call sent rows))

/-- The log can be opened when it is not, and stays open for what is written. -/
structure Call.Fits (fpt : Bool) (rows : List TrapRow) : Prop where
  opens : fpt = true ∨ call.opens = true
  active : ∀ row ∈ rows, row.trapStatus = 1 → row.Fits model call
  stays : LogStays model call 0 rows

instance (fpt : Bool) (rows : List TrapRow) : Decidable (call.Fits model fpt rows) :=
  decidable_of_iff
    ((fpt = true ∨ call.opens = true) ∧ (∀ row ∈ rows, row.trapStatus = 1 → row.Fits model call) ∧
      LogStays model call 0 rows)
    ⟨fun ⟨opens, active, stays⟩ => ⟨opens, active, stays⟩,
      fun ⟨opens, active, stays⟩ => ⟨opens, active, stays⟩⟩

/-- The call of the event, if there is one, meets the conditions. -/
def Meets (s : Monitor) : TrapEvent → Prop
  | .initTrapTable rows call => call.Fits model s.fpt rows
  | .setTrapTable _ => True
  | .runAlarms _ call => call.Fits model s.fpt s.rows

instance (s : Monitor) : ∀ event, Decidable (Meets model s event)
  | .initTrapTable rows call => inferInstanceAs (Decidable (call.Fits model s.fpt rows))
  | .setTrapTable _ => isTrue trivial
  | .runAlarms _ call => inferInstanceAs (Decidable (call.Fits model s.fpt s.rows))

end Conditions

section Values

variable {model : DataModel} {access : Access} {asked : SnmpVariable}

theorem Access.low_half (access : Access) :
    littleEndian (access.bytes 0 8) =
      littleEndian (access.bytes 0 4) + 2 ^ 32 * littleEndian (access.bytes 4 4) := by
  have halves : access.bytes 0 8 = access.bytes 0 4 ++ access.bytes 4 4 := rfl
  have four : (access.bytes 0 4).length = 4 := rfl
  rw [halves, littleEndian_append, four]
  norm_num

theorem long_ilp32 (value : Int) : DataModel.ilp32.long value = i32 value := by
  simp only [DataModel.long, DataModel.longMax, i32]
  omega

theorem signed_long (value : Nat) : signed 32 value = DataModel.ilp32.long value := by
  rw [signed, long_ilp32, i32]

theorem i32_low (low high : Nat) : i32 (low + 2 ^ 32 * high : Nat) = i32 low := by
  simp only [i32]
  omega

theorem truncated_small {value : Int} (lower : -2 ^ 31 ≤ value) (upper : value < 2 ^ 32) :
    truncated value = value := by
  rw [truncated]
  split
  · omega
  · rw [if_neg (by omega)]

theorem Access.ReadsAsLong.value_ilp32 (reads : access.ReadsAsLong .ilp32) :
    access.value .ilp32 = some (DataModel.ilp32.long (access.ulong .ilp32)) := by
  obtain ⟨type, length⟩ := reads
  have low : access.ulong .ilp32 = littleEndian (access.bytes 0 4) := rfl
  rcases type with integer | ⟨unsigned, small⟩
  · rcases length with four | eight
    · simp only [Access.value, integer, four, signed_long, low]
    · have range := i32_range (littleEndian (access.bytes 0 4))
      simp only [Access.value, integer, eight, long_ilp32, access.low_half, i32_low, low]
      rw [truncated_small range.1 (by omega)]
  · have same : i32 (access.ulong .ilp32) = access.ulong .ilp32 := by
      apply i32_of_range <;> omega
    rcases length with four | eight
    · simp only [Access.value, unsigned, four, long_ilp32, same, ← low]
    · have kept : littleEndian (access.bytes 0 8) % 2 ^ 32 = access.ulong .ilp32 := by
        rw [access.low_half]
        omega
      simp only [Access.value, unsigned, eight, long_ilp32, same, kept]

theorem Access.ReadsAsLong.value_lp64 (reads : access.ReadsAsLong .lp64) :
    access.value .lp64 = some (DataModel.lp64.long (access.ulong .lp64)) := by
  obtain ⟨type, eight⟩ := reads
  have whole : access.ulong .lp64 = littleEndian (access.bytes 0 8) := rfl
  rcases type with ⟨integer, lower, upper⟩ | ⟨unsigned, small⟩
  · simp only [Access.value, integer, eight, ← whole]
    rw [truncated_small lower upper]
  · have same : DataModel.lp64.long (access.ulong .lp64) = access.ulong .lp64 := by
      apply DataModel.long_small <;> simp only [DataModel.longMax] <;> omega
    simp only [Access.value, unsigned, eight, ← whole, Nat.mod_eq_of_lt small, same]

theorem Access.ReadsAsLong.value (reads : access.ReadsAsLong model) :
    access.value model = some (model.long (access.ulong model)) := by
  cases model with
  | ilp32 => exact reads.value_ilp32
  | lp64 => exact reads.value_lp64

theorem rtmFetchVarVal_ok {ulVal : Nat} (fetched : rtmFetchVarVal model asked = .ok ulVal) :
    asked.handler = .oldApi ∧
      ∃ access, asked.answer = some access ∧ access.ulong model = ulVal := by
  unfold rtmFetchVarVal at fetched
  split at fetched
  · cases fetched
  · cases fetched
  · rename_i handler
    split at fetched
    · cases fetched
    · rename_i access answer
      cases fetched
      exact ⟨handler, access, answer, rfl⟩

theorem rtmFetchVarVal_error {iErr : Nat} (failed : rtmFetchVarVal model asked = .error iErr) :
    asked.handler = .oldApi ∧ asked.answer = none ∨
      asked.handler ≠ .oldApi ∧ (iErr = 2 → asked.handler = .otherApi) := by
  unfold rtmFetchVarVal at failed
  split at failed
  · rename_i handler
    cases failed
    exact .inr ⟨by simp [handler], by simp⟩
  · rename_i handler
    exact .inr ⟨by simp [handler], fun _ => handler⟩
  · rename_i handler
    split at failed
    · rename_i answer
      exact .inl ⟨handler, answer⟩
    · cases failed

theorem SnmpVariable.Readable.ok {ulVal : Nat} (readable : asked.Readable model)
    (fetched : rtmFetchVarVal model asked = .ok ulVal) :
    asked.value model = some (model.long ulVal) := by
  obtain ⟨handler, access, answer, rfl⟩ := rtmFetchVarVal_ok fetched
  rw [SnmpVariable.Readable, if_pos handler] at readable
  rw [SnmpVariable.value, answer, Option.bind_some]
  exact (readable access answer).value

theorem SnmpVariable.Readable.error {iErr : Nat} (readable : asked.Readable model)
    (failed : rtmFetchVarVal model asked = .error iErr) :
    asked.value model = none ∧ (iErr = 2 → asked.handler = .otherApi) := by
  rcases rtmFetchVarVal_error failed with ⟨handler, answer⟩ | ⟨handler, otherApi⟩
  · constructor
    · rw [SnmpVariable.value, answer]
      rfl
    · intro two
      rw [two, rtmFetchVarVal, handler, answer] at failed
      cases failed
  · rw [SnmpVariable.Readable, if_neg handler] at readable
    exact ⟨readable, otherApi⟩

theorem validateTrapVariable_printLd (row : TrapRow) (value : Int) :
    validateTrapVariable model (printLd (model.long value)) row =
      row.stands (model.long value) := by
  rw [validateTrapVariable, model.strtol_printLd]

end Values

section Rows

variable {model : DataModel} {giMyPort : Int32} {call : Call} {row : TrapRow}
  {rows : List TrapRow} {s : CallState}

theorem values_cons (row : TrapRow) (rows : List TrapRow) :
    values model call (row :: rows) = values model call [row] ++ values model call rows := by
  simp [values]

theorem traps_cons (row : TrapRow) (rows : List TrapRow) :
    traps model giMyPort call (row :: rows) =
      traps model giMyPort call [row] ++ traps model giMyPort call rows := by
  simp only [traps, values_cons row rows, List.filter_append, List.map_append]

theorem values_none (none : (call.asked row).value model = none) :
    values model call [row] = [] := by
  simp [values, none]

theorem values_some {value : Int} (watched : row.watched = true)
    (some : (call.asked row).value model = some value) :
    values model call [row] = [(row, value)] := by
  simp [values, watched, some]

theorem values_unwatched (unwatched : row.watched = false) : values model call [row] = [] := by
  simp [values, unwatched]

theorem traps_of_values (giMyPort : Int32) (empty : values model call [row] = []) :
    traps model giMyPort call [row] = [] := by
  simp [traps, empty]

theorem traps_length (giMyPort : Int32) (call : Call) (row : TrapRow) :
    (traps model giMyPort call [row]).length = if row.sends model call then 1 else 0 := by
  cases watched : row.watched with
  | false => simp [traps, values_unwatched watched, TrapRow.sends, watched]
  | true =>
    cases value : (call.asked row).value model with
    | none => simp [traps, values_none value, TrapRow.sends, value]
    | some number =>
      simp only [traps, values_some watched value, TrapRow.sends, watched, value]
      cases stands : row.stands number <;> simp [stands]

/-- What one row adds, with the log stream that it leaves. -/
def CallState.judged (model : DataModel) (giMyPort : Int32) (call : Call) (row : TrapRow)
    (s : CallState) : CallState where
  fpt :=
    if row.sends model call && (call.logged s.sent.length).fstat &&
        (call.logged s.sent.length).exceeds
    then (call.logged s.sent.length).reopened else s.fpt
  fetched := s.fetched ++ [row].filter TrapRow.watched
  evaluated := s.evaluated ++ values model call [row]
  sent := s.sent ++ traps model giMyPort call [row]

theorem CallState.judged_unwatched (unwatched : row.watched = false) :
    s.judged model giMyPort call row = s := by
  simp [CallState.judged, values_unwatched unwatched, traps_of_values _
    (values_unwatched unwatched),
    TrapRow.sends, unwatched]

theorem rtmJudge_silent {ulVal : Nat} (stands : row.stands (model.long ulVal) = false) :
    rtmJudge model giMyPort call s row ulVal =
      some { s with evaluated := s.evaluated ++ [(row, model.long ulVal)] } := by
  rw [rtmJudge, validateTrapVariable_printLd, if_pos stands]

theorem rtmJudge_sends {s : CallState} {ulVal : Nat} (stands : row.stands (model.long ulVal) = true)
    (short : row.trapMessage.length < 255) (isOpen : s.fpt = true) :
    rtmJudge model giMyPort call s row ulVal =
      some { s with
        fpt :=
          if (call.logged s.sent.length).fstat && (call.logged s.sent.length).exceeds
          then (call.logged s.sent.length).reopened else s.fpt
        evaluated := s.evaluated ++ [(row, model.long ulVal)]
        sent := s.sent ++ [row.trap giMyPort] } := by
  have sends : ¬row.stands (model.long ulVal) = false := by simp [stands]
  have fits : ¬255 ≤ row.trapMessage.length := by omega
  have notNull : ¬s.fpt = false := by simp [isOpen]
  rw [rtmJudge, validateTrapVariable_printLd, if_neg sends, if_neg fits, rtmLogTrapDetails,
    if_neg notNull]
  split <;> rfl

theorem rtmRow_judges (fits : row.trapStatus = 1 → row.Fits model call)
    (isOpen : row.logs model call = true → s.fpt = true) :
    rtmRow model giMyPort call s row = some (s.judged model giMyPort call row) := by
  by_cases active : row.trapStatus = 1
  case neg =>
    have unwatched : row.watched = false := by simp [TrapRow.watched, active]
    rw [rtmRow, if_pos active, CallState.judged_unwatched unwatched]
  obtain ⟨oid, first, readable, message⟩ := fits active
  rw [rtmRow, if_neg (by simp [active]), if_neg (by omega)]
  by_cases empty : row.trapVariable = []
  · have unwatched : row.watched = false := by simp [TrapRow.watched, empty]
    rw [if_pos (by rw [empty]; rfl), CallState.judged_unwatched unwatched]
  have watched : row.watched = true := by simp [TrapRow.watched, active, empty]
  have nonzero : row.trapVariable.headD 0 ≠ 0 := by
    cases variableOid : row.trapVariable with
    | nil => exact absurd variableOid empty
    | cons id ids =>
      rw [variableOid] at first
      simpa using first
  rw [if_neg nonzero]
  have one : [row].filter TrapRow.watched = [row] := by simp [watched]
  cases result : rtmFetchVarVal model (call.asked row) with
  | error iErr =>
    obtain ⟨none, otherApi⟩ := (readable empty).error result
    have silent : row.sends model call = false := by simp [TrapRow.sends, none]
    have written : ¬(iErr = 2 ∧ s.fpt = false) := by
      rintro ⟨two, closed⟩
      have logs : row.logs model call = true := by simp [TrapRow.logs, watched, otherApi two]
      rw [isOpen logs] at closed
      cases closed
    dsimp only
    rw [if_neg written]
    simp [CallState.judged, one, silent, values_none none, traps_of_values _ (values_none none)]
  | ok ulVal =>
    have fetched := (readable empty).ok result
    have evaluated := values_some watched fetched
    dsimp only
    cases stands : row.stands (model.long ulVal) with
    | false =>
      have silent : row.sends model call = false := by simp [TrapRow.sends, fetched, stands]
      have none : traps model giMyPort call [row] = [] := by simp [traps, evaluated, stands]
      rw [rtmJudge_silent stands]
      simp [CallState.judged, one, silent, evaluated, none]
    | true =>
      have sends : row.sends model call = true := by simp [TrapRow.sends, watched, fetched, stands]
      have fpt : ({ s with fetched := s.fetched ++ [row] } : CallState).fpt = true :=
        isOpen (by simp [TrapRow.logs, watched, sends])
      have trap : traps model giMyPort call [row] = [row.trap giMyPort] := by
        simp [traps, evaluated, stands]
      rw [rtmJudge_sends stands (message sends) fpt]
      simp [CallState.judged, one, sends, evaluated, trap]

theorem CallState.judged_sent_length :
    (s.judged model giMyPort call row).sent.length =
      if row.sends model call then s.sent.length + 1 else s.sent.length := by
  simp only [CallState.judged, List.length_append, traps_length]
  split <;> rfl

theorem rtmRows_judge (fits : ∀ row ∈ rows, row.trapStatus = 1 → row.Fits model call)
    (stays : LogStays model call s.sent.length rows)
    (isOpen : s.fpt = false → ∀ row ∈ rows, row.logs model call = false) :
    ∃ t, rows.foldlM (rtmRow model giMyPort call) s = some t ∧
      t.fetched = s.fetched ++ rows.filter TrapRow.watched ∧
      t.evaluated = s.evaluated ++ values model call rows ∧
      t.sent = s.sent ++ traps model giMyPort call rows := by
  induction rows generalizing s with
  | nil => exact ⟨s, rfl, by simp, by simp [values], by simp [traps, values]⟩
  | cons row rows ih =>
    have written : row.logs model call = true → s.fpt = true := by
      intro logs
      cases fpt : s.fpt with
      | true => rfl
      | false =>
        rw [isOpen fpt row List.mem_cons_self] at logs
        cases logs
    have step : rtmRow model giMyPort call s row = some (s.judged model giMyPort call row) :=
      rtmRow_judges (fits row List.mem_cons_self) written
    have rest : LogStays model call (s.judged model giMyPort call row).sent.length rows := by
      rw [CallState.judged_sent_length]
      rw [LogStays] at stays
      split
      · rename_i sends
        rw [if_pos sends] at stays
        exact stays.2
      · rename_i silent
        rw [if_neg silent] at stays
        exact stays
    have closed : (s.judged model giMyPort call row).fpt = false →
        ∀ later ∈ rows, later.logs model call = false := by
      intro fpt
      simp only [CallState.judged] at fpt
      split at fpt
      · rename_i rotated
        simp only [Bool.and_eq_true] at rotated
        rw [LogStays, if_pos rotated.1.1] at stays
        apply stays.1
        simp [rotated, fpt]
      · intro later member
        exact isOpen fpt later (List.mem_cons_of_mem _ member)
    obtain ⟨t, ran, fetched, evaluated, sent⟩ :=
      ih (fun later member => fits later (List.mem_cons_of_mem _ member)) rest closed
    refine ⟨t, ?_, ?_, ?_, ?_⟩
    · rw [List.foldlM_cons, step]
      exact ran
    · rw [fetched, ← List.singleton_append (l := rows), List.filter_append]
      simp [CallState.judged]
    · rw [evaluated, values_cons row rows]
      simp [CallState.judged]
    · rw [sent, traps_cons row rows]
      simp [CallState.judged]

end Rows

section Runs

variable {model : DataModel} {giMyPort : Int32} {call : Call} {s t : Monitor} {event : TrapEvent}

/-- The alarm that is pending is the one registered last. -/
structure Monitor.Inv (model : DataModel) (giMyPort : Int32) (s : Monitor) : Prop where
  alarm : s.calls = [] ∧ s.rtmRegid = 0 ∧ s.pending = [] ∨
    s.calls ≠ [] ∧ s.pending = [s.rtmRegid] ∧ s.regnum = s.rtmRegid + 1
  judged : ∀ called ∈ s.calls, called.Judged model giMyPort
  written : s.fault = false

theorem Monitor.Inv.start : Monitor.start.Inv model giMyPort where
  alarm := .inl ⟨rfl, rfl, rfl⟩
  judged := by
    intro called member
    cases member
  written := rfl

theorem Monitor.Inv.monitors (inv : s.Inv model giMyPort) : s.Monitors model giMyPort where
  next := by
    intro called
    rcases inv.alarm with ⟨none, _⟩ | ⟨_, pending, _⟩
    · exact absurd none called
    · rw [pending]
      rfl
  judged := inv.judged
  written := inv.written

theorem Monitor.unregistered_same :
    s.unregistered.rows = s.rows ∧ s.unregistered.fpt = s.fpt ∧
      s.unregistered.regnum = s.regnum ∧ s.unregistered.calls = s.calls ∧
      s.unregistered.fault = s.fault := by
  rw [Monitor.unregistered]
  split <;> exact ⟨rfl, rfl, rfl, rfl, rfl⟩

theorem Monitor.callback_fits (giMyPort : Int32) (fits : call.Fits model s.fpt s.rows) :
    ∃ fpt called, called.Judged model giMyPort ∧
      s.callback model giMyPort call =
        Monitor.snmpAlarmRegister { s with fpt := fpt, calls := s.calls ++ [called] } := by
  have opens : ¬(s.fpt = false ∧ call.opens = false) := by
    rintro ⟨closed, fails⟩
    rcases fits.opens with isOpen | opens
    · rw [isOpen] at closed
      cases closed
    · rw [opens] at fails
      cases fails
  have stays : LogStays model call (CallState.mk true [] [] []).sent.length s.rows := fits.stays
  obtain ⟨t, ran, fetched, evaluated, sent⟩ :
      ∃ t, s.rows.foldlM (rtmRow model giMyPort call) ⟨true, [], [], []⟩ = some t ∧
        t.fetched = [] ++ s.rows.filter TrapRow.watched ∧
        t.evaluated = [] ++ values model call s.rows ∧
        t.sent = [] ++ traps model giMyPort call s.rows := by
    apply rtmRows_judge fits.active stays
    intro closed
    cases closed
  refine ⟨t.fpt, ⟨call, s.rows, t⟩, ⟨fetched, evaluated, sent⟩, ?_⟩
  rw [Monitor.callback, if_neg opens, ran]

theorem Monitor.rtmCallback_fits (giMyPort : Int32) (fits : call.Fits model s.fpt s.rows) :
    ∃ fpt called, called.Judged model giMyPort ∧
      s.rtmCallback model giMyPort call = Monitor.snmpAlarmRegister
        { s.unregistered with fpt := fpt, calls := s.calls ++ [called] } := by
  obtain ⟨rows, fpt, _, calls, _⟩ := s.unregistered_same
  rw [← rows, ← fpt] at fits
  obtain ⟨fpt, called, judged, result⟩ := Monitor.callback_fits giMyPort fits
  rw [calls] at result
  exact ⟨fpt, called, judged, result⟩

theorem Monitor.unregistered_filter (left : s.pending = [s.rtmRegid]) :
    s.unregistered.pending.filter (fun alarm => alarm != s.rtmRegid) = [] := by
  rw [Monitor.unregistered]
  split <;> simp [Monitor.snmpAlarmUnregister, left]

theorem Monitor.Inv.called {called : Called} (inv : s.Inv model giMyPort)
    (judged : called.Judged model giMyPort) (calls : t.calls = s.calls ++ [called])
    (pending : t.pending = [t.rtmRegid]) (next : t.regnum = t.rtmRegid + 1)
    (written : t.fault = s.fault) : t.Inv model giMyPort where
  alarm := .inr ⟨by simp [calls], pending, next⟩
  judged := by
    intro other member
    rw [calls, List.mem_append, List.mem_singleton] at member
    rcases member with before | rfl
    · exact inv.judged other before
    · exact judged
  written := written.trans inv.written

theorem Monitor.Inv.step (inv : s.Inv model giMyPort)
    (stepped : s.step model giMyPort event = some t) (meets : Meets model s event) :
    t.Inv model giMyPort := by
  cases event with
  | initTrapTable rows call =>
    simp only [Monitor.step] at stepped
    split at stepped
    · cases stepped
    rename_i first
    cases stepped
    have fresh : s.calls = [] := by
      by_contra called
      exact first (.inr called)
    rcases inv.alarm with ⟨_, zero, none⟩ | ⟨called, _⟩
    case inr => exact absurd fresh called
    obtain ⟨fpt, called, judged, result⟩ :=
      Monitor.rtmCallback_fits (s := { s with rows := rows }) giMyPort meets
    have same : Monitor.unregistered { s with rows := rows } = { s with rows := rows } := by
      rw [Monitor.unregistered, if_neg (by simp [zero])]
    rw [same] at result
    rw [result]
    apply inv.called judged rfl
    · simp [Monitor.snmpAlarmRegister, none]
    · rfl
    · rfl
  | setTrapTable rows =>
    simp only [Monitor.step] at stepped
    split at stepped
    · cases stepped
    cases stepped
    exact ⟨inv.alarm, inv.judged, inv.written⟩
  | runAlarms clientreg call =>
    simp only [Monitor.step] at stepped
    split at stepped
    · cases stepped
    rename_i enabled
    cases stepped
    have member : clientreg ∈ s.pending := by
      by_contra absent
      exact enabled (.inr absent)
    rcases inv.alarm with ⟨_, _, none⟩ | ⟨_, pending, next⟩
    · rw [none] at member
      cases member
    rw [pending, List.mem_singleton] at member
    obtain ⟨fpt, called, judged, result⟩ := Monitor.rtmCallback_fits giMyPort meets
    obtain ⟨_, _, regnum, _, fault⟩ := s.unregistered_same
    rw [result, member]
    apply inv.called judged rfl
    · have other : (s.regnum != s.rtmRegid) = true := by
        rw [next, bne_iff_ne]
        intro same
        simp at same
      simp only [Monitor.snmpAlarmUnregister, Monitor.snmpAlarmRegister, List.filter_append,
        Monitor.unregistered_filter pending, regnum, List.nil_append, List.filter_cons, other,
        if_true, List.filter_nil]
    · rfl
    · exact fault

/-- While the log can be opened and stays open, the texts of the rows fit and their variables read
as a `long`, monitoring goes on and judges right. -/
theorem trap_monitoring {model : DataModel} {events : List TrapEvent} {giMyPort : Int32}
    {s : Monitor}
    (ran : run (Monitor.step model giMyPort) Monitor.start events = some s)
    (met : Along (Monitor.step model giMyPort) (Meets model) Monitor.start events) :
    s.Monitors model giMyPort := by
  have inv : s.Inv model giMyPort := by
    apply run_invariant _ Monitor.Inv.start met ran
    intro s event t inv meets stepped
    exact inv.step stepped meets
  exact inv.monitors

/-- A row for the variable `.1.3.6`, with a trap for values above five. -/
def load : TrapRow where
  trapIndex := 1
  trapPolicyID := 7
  trapVariable := [1, 3, 6]
  variable_le := by decide
  trapExpression := 1
  trapValue := 5
  trapDestinationIP := 16777343
  trapPort := 162
  trapMessage := "load".toList
  message_le := by decide
  trapStatus := 1

/-- The log can be opened, and every variable is an integer with the value nine. -/
def nine : Call where
  opens := true
  asked _ := ⟨.oldApi, some ⟨.asnInteger, 8, fun offset => if offset = 0 then 9 else 0⟩⟩
  logged _ := ⟨true, false, true⟩

theorem trap_monitoring_twice :
    ∃ s, run (Monitor.step .lp64 163) Monitor.start
      [.initTrapTable [load] nine, .runAlarms 1 nine] = some s ∧ s.Monitors .lp64 163 := by
  obtain ⟨s, ran, _⟩ := run_of_any (P := fun s => s.pending = [2])
    (show (run (Monitor.step .lp64 163) Monitor.start
      [.initTrapTable [load] nine, .runAlarms 1 nine]).any _ = true by decide +kernel)
  exact ⟨s, ran, trap_monitoring ran (by decide +kernel)⟩

def noLog : Call := { nine with opens := false }

/-- The log file cannot be opened when the subagent starts: no alarm is registered. -/
theorem no_log_no_monitoring :
    ∃ s, run (Monitor.step .lp64 163) Monitor.start [.initTrapTable [load] noLog] = some s ∧
      ¬s.Monitors .lp64 163 := by
  obtain ⟨s, ran, called, none⟩ := run_of_any (P := fun s => s.calls ≠ [] ∧ s.pending = [])
    (show (run (Monitor.step .lp64 163) Monitor.start
      [.initTrapTable [load] noLog]).any _ = true by decide +kernel)
  refine ⟨s, ran, ?_⟩
  intro monitors
  have one := monitors.next called
  rw [none] at one
  cases one

end Runs

end EveAgent.Rtcm
