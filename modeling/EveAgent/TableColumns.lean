import EveAgent.ContainedSets

/-! The columns of the transaction, the collect-data and the monitoring-policy table. -/

namespace EveAgent.TableSet

open AgentInfo (Mode)

section TransactionTable

inductive TransactionNumber where
  | transactionTransportPort
  | transactionSampleInterval
  | transactionResponseTime
  | transactionInOctets
  | transactionInPkts
  | transactionOutOctets
  | transactionOutPkts
  deriving DecidableEq, Repr

inductive TransactionArray where
  | transactionClientAddress
  | transactionApplication
  | transactionCreateDateTime
  | transactionDescription
  | transactionOwner
  | transactionCurrentClientAddress
  | transactionCurrentTransactionApp
  deriving DecidableEq, Repr

def transactionTable : Layout TransactionNumber TransactionArray where
  numberType
    | .transactionTransportPort => .asnInteger
    | .transactionSampleInterval => .asnInteger
    | .transactionResponseTime => .asnInteger
    | .transactionInOctets => .asnCounter
    | .transactionInPkts => .asnCounter
    | .transactionOutOctets => .asnCounter
    | .transactionOutPkts => .asnCounter
  numberTypes n := by cases n <;> decide
  range _ := none
  created _ := 0
  isOid _ := false
  capacity
    | .transactionClientAddress => 15
    | .transactionApplication => 40
    | .transactionCreateDateTime => 15
    | .transactionDescription => 255
    | .transactionOwner => 40
    | .transactionCurrentClientAddress => 15
    | .transactionCurrentTransactionApp => 255
  oidCapacity _ isOid := nomatch isOid
  arrays :=
    [.transactionClientAddress, .transactionApplication, .transactionCreateDateTime,
      .transactionDescription, .transactionOwner, .transactionCurrentClientAddress,
      .transactionCurrentTransactionApp]
  rowErr numbers lengths status :=
    (numbers .transactionTransportPort == 0 || numbers .transactionSampleInterval == 0 ||
      lengths .transactionClientAddress == 0) && (status == 4 || status == 1)

end TransactionTable

section CollectDataTable

inductive Weekday where
  | mon
  | tue
  | wed
  | thu
  | fri
  | sat
  | sun
  deriving DecidableEq, Repr

inductive CollectDataNumber where
  | collectDataIndex
  | collectDataType
  | collectDataStartTime (day : Weekday)
  | collectDataEndTime (day : Weekday)
  | collectDataFrequent (day : Weekday)
  deriving DecidableEq, Repr

inductive CollectDataArray where
  | collectDataVariable
  | collectDataStartDate
  | collectDataEndDate
  deriving DecidableEq, Repr

def rtcDefaultInterval : Int32 := 10

def collectDataTable : Layout CollectDataNumber CollectDataArray where
  numberType
    | .collectDataIndex => .asnUnsigned
    | .collectDataType => .asnInteger
    | .collectDataStartTime _ => .asnTimeticks
    | .collectDataEndTime _ => .asnTimeticks
    | .collectDataFrequent _ => .asnInteger
  numberTypes n := by cases n <;> simp
  range
    | .collectDataType => some (1, 3)
    | _ => none
  created
    | .collectDataType => 1
    | .collectDataFrequent _ => rtcDefaultInterval
    | _ => 0
  isOid
    | .collectDataVariable => true
    | _ => false
  capacity
    | .collectDataVariable => maxOidLen * sizeofOid
    | .collectDataStartDate => maxOidLen
    | .collectDataEndDate => maxOidLen
  oidCapacity a isOid := by
    cases a with
    | collectDataVariable => rfl
    | collectDataStartDate => cases isOid
    | collectDataEndDate => cases isOid
  arrays := [.collectDataVariable, .collectDataStartDate, .collectDataEndDate]
  rowErr _ _ _ := false

end CollectDataTable

section MonitorPolicyTable

inductive MonitorPolicyNumber where
  | monitorPolicyID
  | monitorPolicyExpression (i : Fin 5)
  | monitorPolicyValue (i : Fin 5)
  | monitorPolicyOperation (i : Fin 4)
  | monitorPolicyLevel
  | monitorPolicySMS
  | monitorPolicyPopup
  | monitorPolicyEmail
  | monitorPolicyPSTN
  deriving DecidableEq, Repr

inductive MonitorPolicyArray where
  | monitorPolicyName
  | monitorPolicyDescription
  | monitorPolicyContructor
  | monitorPolicyCreateDate
  | monitorPolicyVariable (i : Fin 5)
  | monitorPolicyCommand
  | monitorPolicyScript
  | monitorPolicyAlertMessage
  deriving DecidableEq, Repr

local instance five_variables : NeZero 5 := ⟨by decide⟩

def monitorPolicyTable : Layout MonitorPolicyNumber MonitorPolicyArray where
  numberType
    | .monitorPolicyID => .asnUnsigned
    | _ => .asnInteger
  numberTypes n := by cases n <;> simp
  range
    | .monitorPolicyExpression _ => some (0, 5)
    | _ => none
  created _ := 0
  isOid
    | .monitorPolicyVariable _ => true
    | _ => false
  capacity
    | .monitorPolicyName => 255
    | .monitorPolicyDescription => 255
    | .monitorPolicyContructor => 255
    | .monitorPolicyCreateDate => maxOidLen
    | .monitorPolicyVariable _ => maxOidLen * sizeofOid
    | .monitorPolicyCommand => 255
    | .monitorPolicyScript => 255
    | .monitorPolicyAlertMessage => 255
  oidCapacity a isOid := by
    cases a with
    | monitorPolicyVariable i => rfl
    | _ => cases isOid
  arrays :=
    [.monitorPolicyName, .monitorPolicyDescription, .monitorPolicyContructor,
      .monitorPolicyCreateDate, .monitorPolicyVariable 0, .monitorPolicyVariable 1,
      .monitorPolicyVariable 2, .monitorPolicyVariable 3, .monitorPolicyVariable 4,
      .monitorPolicyCommand, .monitorPolicyScript, .monitorPolicyAlertMessage]
  rowErr _ _ _ := false

end MonitorPolicyTable

section Sets

/-- A SET request on a row of the three tables stays within the columns of the row exactly when
it is refused or its octet strings are not longer than their columns. -/
theorem sets_contained_iff (othersFail : Mode → Bool) :
    (∀ (stored : Option (Stored transactionTable)) vars,
      Contained othersFail stored vars ↔ Allowed othersFail stored vars) ∧
    (∀ (stored : Option (Stored collectDataTable)) vars,
      Contained othersFail stored vars ↔ Allowed othersFail stored vars) ∧
    ∀ (stored : Option (Stored monitorPolicyTable)) vars,
      Contained othersFail stored vars ↔ Allowed othersFail stored vars :=
  ⟨fun _ _ => contained_iff, fun _ _ => contained_iff, fun _ _ => contained_iff⟩

def sixteenOctets : List (Varbind TransactionNumber TransactionArray) :=
  [⟨.array .transactionClientAddress, .octetStr (List.replicate 16 49)⟩]

theorem sixteenOctets_escape :
    ¬ Contained (fun _ => false) (none : Option (Stored transactionTable)) sixteenOctets := by
  intro contained
  have accepted : Accepts (fun _ => false) (none : Option (Stored transactionTable))
      sixteenOctets := ⟨rfl, rfl, rfl⟩
  obtain ⟨last, ran, -⟩ := contained.1 accepted
  have faults : handleSet (fun _ => false) (none : Option (Row transactionTable)) sixteenOctets =
      .error .fault := rfl
  cases faults.symm.trans ran

end Sets

end EveAgent.TableSet
