import EveAgent.JobSched.Registry

namespace EveAgent.JobSched

section FillStruct

/-- The destination and the result. An `I16` holds the length, and what is negative is a size
that `malloc` refuses. -/
def jsFillStruct (allocated : Bool) (pcDst : Option Octets) (string : Octets) :
    Option Octets × ENASCenterError :=
  let iLen := Int16.ofNat string.length
  if iLen = 0 then (pcDst, .nascFailure)
  else if iLen < 0 ∨ allocated = false then (none, .nascInsufficientMemory)
  else (some (string.take iLen.toNatClampNeg), .nascSuccess)

theorem fillStruct_short (pcDst : Option Octets) {string : Octets} (some_octets : string ≠ [])
    (short : string.length < 32768) :
    jsFillStruct true pcDst string = (some string, .nascSuccess) := by
  have positive := List.length_pos_iff.mpr some_octets
  have length : (Int16.ofNat string.length).toInt = string.length := by
    apply Int16.toInt_ofNat_of_lt
    omega
  have not_zero : Int16.ofNat string.length ≠ 0 := by
    intro zero
    rw [zero] at length
    simp only [Int16.toInt_zero] at length
    omega
  have not_negative : ¬ Int16.ofNat string.length < 0 := by
    rw [Int16.lt_iff_toInt_lt, length]
    simp
  unfold jsFillStruct
  simp only [not_zero, not_negative, if_false, Bool.true_eq_false, or_self]
  rw [Int16.toNatClampNeg, length, Int.toNat_natCast, List.take_length]

/-- `none` stands for the result on which `JS_ParseTrap` returns. -/
def fillOrReturn (allocated : Bool) (pcDst : Option Octets) (string : Octets) :
    Option (Option Octets) :=
  match jsFillStruct allocated pcDst string with
  | (_, .nascInsufficientMemory) => none
  | (pcDst, _) => some pcDst

theorem fillOrReturn_filled {allocated : Bool} {pcDst filled : Option Octets} {string : Octets}
    (returned : fillOrReturn allocated pcDst string = some filled) :
    (jsFillStruct true pcDst string).1 = filled := by
  unfold fillOrReturn jsFillStruct at returned
  unfold jsFillStruct
  dsimp only at returned ⊢
  by_cases empty : Int16.ofNat string.length = 0
  · rw [if_pos empty] at returned ⊢
    exact Option.some.inj returned
  rw [if_neg empty] at returned ⊢
  by_cases refused : Int16.ofNat string.length < 0 ∨ allocated = false
  · rw [if_pos refused] at returned
    cases returned
  · rw [if_neg refused] at returned
    have positive : ¬ (Int16.ofNat string.length < 0 ∨ true = false) := by
      intro negative
      rcases negative with negative | impossible
      · exact refused (.inl negative)
      · cases impossible
    rw [if_neg positive]
    exact Option.some.inj returned

end FillStruct

section ParseTrap

/-- The variables of a trap that `JS_CheckField` tells apart; the usage columns are read and not
kept. -/
inductive VarBind where
  | jsMasterId (string : Octets)
  | jsMasterName (string : Octets)
  | jsPeriodicInterval (integer : Int)
  | jsStartTime (string : Octets)
  | jsFinishTime (string : Octets)
  | jsCpuUsage
  | jsMemoryUsage
  | jsRowStatus (integer : Int)
  | other
  deriving DecidableEq, Repr

/-- The branches of the switch; the row status is beside the record, and `none` is a trap that is
dropped for want of memory. -/
def jsParseField (allocated : Bool) :
    StJobMaster × Int16 → VarBind → Option (StJobMaster × Int16)
  | (pstJSMaster, iJobMasStatus), .jsMasterId string =>
    (fillOrReturn allocated pstJSMaster.pcJobMasId string).map fun pcJobMasId =>
      ({ pstJSMaster with pcJobMasId := pcJobMasId }, iJobMasStatus)
  | (pstJSMaster, iJobMasStatus), .jsMasterName string =>
    (fillOrReturn allocated pstJSMaster.pcJobMasName string).map fun pcJobMasName =>
      ({ pstJSMaster with pcJobMasName := pcJobMasName }, iJobMasStatus)
  | (pstJSMaster, iJobMasStatus), .jsPeriodicInterval integer =>
    some ({ pstJSMaster with iJobMasInterval := Int16.ofInt integer }, iJobMasStatus)
  | (pstJSMaster, iJobMasStatus), .jsStartTime string =>
    (fillOrReturn allocated pstJSMaster.pcJobMasStartTime string).map fun pcJobMasStartTime =>
      ({ pstJSMaster with pcJobMasStartTime := pcJobMasStartTime }, iJobMasStatus)
  | (pstJSMaster, iJobMasStatus), .jsFinishTime string =>
    (fillOrReturn allocated pstJSMaster.pcJobMasFinishTime string).map fun pcJobMasFinishTime =>
      ({ pstJSMaster with pcJobMasFinishTime := pcJobMasFinishTime }, iJobMasStatus)
  | (pstJSMaster, _), .jsRowStatus integer => some (pstJSMaster, Int16.ofInt integer)
  | row, .jsCpuUsage => some row
  | row, .jsMemoryUsage => some row
  | row, .other => some row

def decisionFlag (iJobMasStatus : Int16) : Decision :=
  if iJobMasStatus = 4 ∨ iJobMasStatus = 1 then .jsAdd
  else if iJobMasStatus = 6 ∨ iJobMasStatus = 2 then .jsDelete
  else .jsModify

/-- The record and the decision that `JS_ParseTrap` passes on for a trap of the table, whose
index is that of its first variable; `pstJSMaster` is what `malloc` returned. -/
def jsParseTrap (allocated : Bool) (iJobMasIndex : UInt16) (pstJSMaster : StJobMaster)
    (vars : List VarBind) : Option (StJobMaster × Decision) :=
  let pstJSMaster := { pstJSMaster with
    iJobMasIndex := iJobMasIndex
    iJobMasInterval := -1
    pcJobMasId := none
    pcJobMasName := none
    pcJobMasStartTime := none
    pcJobMasFinishTime := none }
  (vars.foldlM (jsParseField allocated) (pstJSMaster, 0)).map fun (pstJSMaster, iJobMasStatus) =>
    (pstJSMaster, decisionFlag iJobMasStatus)

end ParseTrap

section Columns

/-- What a trap carries; a string without octets is no value. -/
structure Columns where
  id : Option Octets
  name : Option Octets
  interval : Option Int16
  startTime : Option Octets
  finishTime : Option Octets
  deriving DecidableEq, Repr

def Columns.carry (columns : Columns) : VarBind → Columns
  | .jsMasterId string => { columns with id := (jsFillStruct true columns.id string).1 }
  | .jsMasterName string => { columns with name := (jsFillStruct true columns.name string).1 }
  | .jsPeriodicInterval integer => { columns with interval := some (Int16.ofInt integer) }
  | .jsStartTime string =>
    { columns with startTime := (jsFillStruct true columns.startTime string).1 }
  | .jsFinishTime string =>
    { columns with finishTime := (jsFillStruct true columns.finishTime string).1 }
  | .jsCpuUsage => columns
  | .jsMemoryUsage => columns
  | .jsRowStatus _ => columns
  | .other => columns

def carried (vars : List VarBind) : Columns :=
  vars.foldl Columns.carry ⟨none, none, none, none, none⟩

/-- The record of an event; its end time as a number is what was in the memory. -/
def Columns.job (columns : Columns) (iJobMasIndex : UInt16) (uiEndTimeinNum : UInt32) :
    StJobMaster :=
  { iJobMasIndex := iJobMasIndex
    pcJobMasId := columns.id
    pcJobMasName := columns.name
    iJobMasInterval := columns.interval.getD (-1)
    pcJobMasStartTime := columns.startTime
    pcJobMasFinishTime := columns.finishTime
    uiEndTimeinNum := uiEndTimeinNum }

variable {allocated : Bool} {iJobMasIndex : UInt16} {uiEndTimeinNum : UInt32}

theorem parseField_carry {columns : Columns} {iJobMasStatus : Int16} {var : VarBind}
    {row : StJobMaster × Int16}
    (parsed : jsParseField allocated (columns.job iJobMasIndex uiEndTimeinNum, iJobMasStatus) var =
      some row) :
    row.1 = (columns.carry var).job iJobMasIndex uiEndTimeinNum := by
  cases var with
  | jsMasterId string =>
    obtain ⟨filled, returned, rfl⟩ := Option.map_eq_some_iff.mp parsed
    simp only [Columns.carry, Columns.job, ← fillOrReturn_filled returned]
  | jsMasterName string =>
    obtain ⟨filled, returned, rfl⟩ := Option.map_eq_some_iff.mp parsed
    simp only [Columns.carry, Columns.job, ← fillOrReturn_filled returned]
  | jsPeriodicInterval integer =>
    cases parsed
    rfl
  | jsStartTime string =>
    obtain ⟨filled, returned, rfl⟩ := Option.map_eq_some_iff.mp parsed
    simp only [Columns.carry, Columns.job, ← fillOrReturn_filled returned]
  | jsFinishTime string =>
    obtain ⟨filled, returned, rfl⟩ := Option.map_eq_some_iff.mp parsed
    simp only [Columns.carry, Columns.job, ← fillOrReturn_filled returned]
  | jsCpuUsage =>
    cases parsed
    rfl
  | jsMemoryUsage =>
    cases parsed
    rfl
  | jsRowStatus integer =>
    cases parsed
    rfl
  | other =>
    cases parsed
    rfl

theorem parseFields_carry (vars : List VarBind) {columns : Columns} {iJobMasStatus : Int16}
    {row : StJobMaster × Int16}
    (parsed : vars.foldlM (jsParseField allocated)
      (columns.job iJobMasIndex uiEndTimeinNum, iJobMasStatus) = some row) :
    row.1 = (vars.foldl Columns.carry columns).job iJobMasIndex uiEndTimeinNum := by
  induction vars generalizing columns iJobMasStatus with
  | nil =>
    cases parsed
    rfl
  | cons var vars ih =>
    rw [List.foldlM_cons] at parsed
    obtain ⟨next, first, rest⟩ := Option.bind_eq_some_iff.mp parsed
    have carries := parseField_carry first
    rw [← Prod.mk.eta (p := next), carries] at rest
    exact ih rest

theorem parseTrap_job {pstJSMaster job : StJobMaster} {vars : List VarBind}
    {iDecisionFlag : Decision}
    (parsed : jsParseTrap allocated iJobMasIndex pstJSMaster vars = some (job, iDecisionFlag)) :
    job = (carried vars).job iJobMasIndex pstJSMaster.uiEndTimeinNum := by
  obtain ⟨row, fields, same⟩ := Option.map_eq_some_iff.mp parsed
  cases same
  exact parseFields_carry vars fields

end Columns

end EveAgent.JobSched
