import EveAgent.Rtcm.Intervals
import EveAgent.Ledger

namespace EveAgent.Rtcm

open EveAgent.Ledger

section LogFile

def rtcDefaultLogfile : String := "/usr/local/conf/RTC_Logfile"

/-- The log file and what is remembered of it; `fpl` says whether it is open. -/
structure LogFile where
  gcInfoLogFileSystemData : String
  szSavedLogFile : String
  giLogFlag : Nat
  fpl : Bool
  deriving DecidableEq, Repr

structure Opens where
  tempLogFile : Bool
  defaultLogFile : Bool
  deriving DecidableEq, Repr

variable (opens : Opens) (log : LogFile)

/-- `RTC_Check_LogFile_Name` opens the default log file in vain. -/
def LogFile.defaultFails : Bool :=
  !opens.defaultLogFile &&
    if log.gcInfoLogFileSystemData = "" then log.giLogFlag == 0 || log.giLogFlag == 2
    else (!log.fpl || log.gcInfoLogFileSystemData != log.szSavedLogFile) && !opens.tempLogFile

/-- What `RTC_Check_LogFile_Name` leaves of the log file. -/
def LogFile.checked : LogFile :=
  if log.gcInfoLogFileSystemData = "" then
    if log.giLogFlag = 0 ∨ log.giLogFlag = 2 then
      if opens.defaultLogFile then
        { log with fpl := true, giLogFlag := 1, szSavedLogFile := rtcDefaultLogfile }
      else { log with fpl := false }
    else log
  else if log.fpl = false ∨ log.gcInfoLogFileSystemData ≠ log.szSavedLogFile then
    { log with
      giLogFlag := 2
      szSavedLogFile := log.gcInfoLogFileSystemData
      fpl := opens.tempLogFile || opens.defaultLogFile }
  else log

/-- `giLogFlag` is zero. -/
def LogFile.unflagged : LogFile := { log with giLogFlag := 0 }

/-- The file of that name is forgotten as well. -/
def LogFile.forgotten : LogFile := { log with giLogFlag := 0, szSavedLogFile := rtcDefaultLogfile }

def LogFile.closed : LogFile := { log with fpl := false }

/-- How one retrieval goes: whether there is a value to be logged and whether the log file is then
beyond its limit, and the files that can be opened in the first and the second check. -/
structure Retrieval where
  fetched : Bool
  exceeds : Bool
  first : Opens
  second : Opens
  deriving DecidableEq, Repr

variable (retrieval : Retrieval)

/-- The log file is beyond its limit while it has no name of its own. -/
def LogFile.checkedAgain : Bool :=
  retrieval.fetched && (log.checked retrieval.first).fpl && retrieval.exceeds &&
    log.gcInfoLogFileSystemData == ""

/-- What `RTC_Retrieve_Log_Variable` leaves of the log file. -/
def LogFile.retrieved : LogFile :=
  if retrieval.fetched then
    if (log.checked retrieval.first).fpl && retrieval.exceeds then
      if log.gcInfoLogFileSystemData = "" then
        (log.checked retrieval.first).unflagged.checked retrieval.second
      else (log.checked retrieval.first).forgotten.closed
    else log.checked retrieval.first
  else log

/-- The log files of the first retrievals that the default file cannot be opened for. -/
def LogFile.failures : Nat → List Retrieval → LogFile → Nat
  | 0, _, _ => 0
  | _, [], _ => 0
  | count + 1, retrieval :: retrievals, log =>
    (retrieval.fetched && log.defaultFails retrieval.first).toNat +
      (log.checkedAgain retrieval &&
        (log.checked retrieval.first).unflagged.defaultFails retrieval.second).toNat +
      failures count retrievals (log.retrieved retrieval)

end LogFile

section State

inductive Handler where
  | rtcCallback
  | rtcCollectStoreVariables (pClientArg : Nat)
  deriving DecidableEq, Repr

structure SnmpAlarm where
  clientreg : Nat
  handler : Handler
  deriving DecidableEq, Repr

/-- What has happened; a list is formed again for a change or for another reason. -/
inductive Happened where
  | committed
  | collected
  | rebuilt (forChange : Bool)
  deriving DecidableEq, Repr

/-- The collection alarms, the variables that hold their ids and the list behind `gpstHeadList`. -/
structure Collection where
  rows : List Row
  alarms : List SnmpAlarm
  regnum : Nat
  guiRTCReg1 : Nat
  guiRTCReg2 : Nat
  guiRTCReg3 : Nat
  giContextChanged : Bool
  gpstHeadList : Option Nat
  store : Store RtcList
  log : LogFile
  history : List Happened

inductive Event where
  /-- `collectDataTable_set_commit`; the container file may fail to be written. -/
  | commit (rows : List Row) (written : Bool) (today : Fin 7) (now : Nat)
  | expire (clientreg : Nat) (today : Fin 7) (now : Nat) (retrievals : List Retrieval)
  /-- The transfer of the log file closes it, and opens the next one. -/
  | transferBegins
  | transferEnds (opens : Opens)
  | setLogFile (name : String)

variable (s : Collection)

def Collection.putLog (log : LogFile) : Collection := { s with log := log }

def Collection.happened (what : Happened) : Collection := { s with history := s.history ++ [what] }

/-- `snmp_alarm_register` returns `regnum`. -/
def Collection.snmpAlarmRegister (handler : Handler) : Collection :=
  { s with alarms := s.alarms ++ [⟨s.regnum, handler⟩], regnum := s.regnum + 1 }

def Collection.snmpAlarmUnregister (clientreg : Nat) : Collection :=
  { s with alarms := s.alarms.filter fun alarm => alarm.clientreg != clientreg }

end State

section Functions

variable (today : Fin 7) (now : Nat)

def endNode : RtcList := ⟨2147483647, 65537⟩

/-- The nodes of the list in the order of `Sort_Linked_List`, with their addresses from `base` on.
The temporary node in front is allocated last. -/
def sortedNodes (base : Nat) (list : List RtcList) : List (Nat × RtcList) :=
  let nodes := (List.range' base (list.length + 1)).zip (list ++ [endNode])
  (BubbleSort.bubbleSort (fun node : Nat × RtcList => node.2.interval)
    ((base + (list.length + 1), ⟨0, 0⟩) :: nodes)).tail

def Collection.unregister (clientreg : Nat) (s : Collection) : Collection :=
  if clientreg ≠ 0 then s.snmpAlarmUnregister clientreg else s

/-- The alarms of all three variables are unregistered, and the variables are zero then. -/
def Collection.unregisterAll (s : Collection) : Collection :=
  { ((s.unregister s.guiRTCReg1).unregister s.guiRTCReg2).unregister s.guiRTCReg3 with
    guiRTCReg1 := 0, guiRTCReg2 := 0, guiRTCReg3 := 0 }

/-- The part of `RTC_callback` behind the old list. -/
def Collection.formList (s : Collection) : Collection :=
  let list := formLinkedList today s.rows now
  let base := s.store.allocated
  if list = [] then
    { s.snmpAlarmRegister .rtcCallback with
      guiRTCReg1 := s.regnum
      gpstHeadList := none
      store := { s.store with allocated := base + 1, freed := base :: s.store.freed } }
  else
    match sortedNodes base list with
    | [] => s
    | (address, node) :: rest =>
      { s.snmpAlarmRegister (.rtcCollectStoreVariables address) with
        guiRTCReg2 := s.regnum
        gpstHeadList := some address
        store :=
          { heap := link s.store.heap ((address, node) :: rest)
            allocated := base + (list.length + 2)
            freed := (base + (list.length + 1)) :: s.store.freed } }

def Collection.rtcCallback (s : Collection) : Option Collection :=
  let s := s.unregisterAll
  match Store.freeList s.store.allocated s.gpstHeadList s.store with
  | none => none
  | some store => some (formList today now { s with store := store, gpstHeadList := none })

/-- `RTC_Check_LogFile_Name` -/
def Collection.rtcCheckLogFileName (opens : Opens) (s : Collection) : Collection :=
  if s.log.defaultFails opens then
    { s.snmpAlarmRegister .rtcCallback with
      guiRTCReg1 := s.regnum, log := s.log.checked opens }
  else { s with log := s.log.checked opens }

/-- `RTC_Retrieve_Log_Variable`, without the alarm of the transfer. -/
def Collection.rtcRetrieveLogVariable (retrieval : Retrieval) (s : Collection) : Collection :=
  if retrieval.fetched then
    let s := s.rtcCheckLogFileName retrieval.first
    if s.log.fpl && retrieval.exceeds then
      if s.log.gcInfoLogFileSystemData = "" then
        (s.putLog s.log.unflagged).rtcCheckLogFileName retrieval.second
      else s.putLog s.log.forgotten.closed
    else s
  else s

def notFetched : Retrieval := ⟨false, false, ⟨true, true⟩, ⟨true, true⟩⟩

/-- The loop over the nodes that are due together; its result is the last of them. -/
def collectGroup : List Retrieval → Nat → Nat → Collection → Option (Nat × Collection)
  | _, 0, _, _ => none
  | retrievals, fuel + 1, pstList, s =>
    match s.store.heap pstList with
    | none => none
    | some cell =>
      match cell.next with
      | none => some (pstList, s)
      | some next =>
        match s.store.heap next with
        | none => none
        | some following =>
          let s := s.rtcRetrieveLogVariable (retrievals.headD notFetched)
          if cell.val.interval = following.val.interval then
            match s.store.free pstList with
            | none => none
            | some store =>
              collectGroup retrievals.tail fuel next
                { s with store := store, gpstHeadList := some next }
          else some (pstList, s)

/-- What `RTC_Collect_Store_Variables` does behind its loop. -/
def Collection.continueList (pstList : Nat) (s : Collection) : Option Collection :=
  match s.store.heap pstList, s.store.free pstList with
  | some cell, some store =>
    match cell.next with
    | none =>
      (rtcCallback today now { s with store := store, gpstHeadList := none }).map
        (·.happened (.rebuilt false))
    | some next =>
      match s.store.heap next with
      | none => none
      | some following =>
        if following.next.isSome then
          let s := { s with store := store, gpstHeadList := some next }
          if s.giContextChanged then
            (rtcCallback today now { s with giContextChanged := false }).map
              (·.happened (.rebuilt true))
          else
            some { s.snmpAlarmRegister (.rtcCollectStoreVariables next) with
              guiRTCReg3 := s.regnum }
        else
          match store.free next with
          | none => none
          | some store =>
            (rtcCallback today now { s with store := store, gpstHeadList := none }).map
              (·.happened (.rebuilt false))
  | _, _ => none

/-- The variable that holds the id of the expired alarm becomes zero. -/
def Collection.clear (uiReg : Nat) (s : Collection) : Collection :=
  if uiReg = s.guiRTCReg2 then { s with guiRTCReg2 := 0 }
  else if uiReg = s.guiRTCReg3 then { s with guiRTCReg3 := 0 }
  else s

def Collection.rtcCollectStoreVariables (uiReg pClientArg : Nat) (retrievals : List Retrieval)
    (s : Collection) : Option Collection :=
  let s := (s.happened .collected).clear uiReg
  match collectGroup retrievals (s.store.allocated + 1) pClientArg s with
  | none => none
  | some (pstList, s) => continueList today now pstList s

/-- `collectDataTable_set_commit` -/
def Collection.collectDataTableSetCommit (rows : List Row) (written : Bool) (s : Collection) :
    Option Collection :=
  let s := { s.happened .committed with rows := rows }
  if written then
    if s.guiRTCReg1 ≠ 0 then
      (rtcCallback today now { s with giContextChanged := false }).map
        (·.happened (.rebuilt true))
    else some { s with giContextChanged := true }
  else some s

/-- `run_alarms` calls the handler and removes the alarm afterwards. -/
def Collection.runAlarm (alarm : SnmpAlarm) (retrievals : List Retrieval) (s : Collection) :
    Option Collection :=
  match alarm.handler with
  | .rtcCallback => (rtcCallback today now s).map (·.happened (.rebuilt false))
  | .rtcCollectStoreVariables pClientArg =>
    rtcCollectStoreVariables today now alarm.clientreg pClientArg retrievals s

end Functions

def Collection.step (s : Collection) : Event → Option Collection
  | .commit rows written today now => s.collectDataTableSetCommit today now rows written
  | .expire clientreg today now retrievals =>
    match s.alarms.find? fun alarm => alarm.clientreg == clientreg with
    | none => none
    | some alarm => (s.runAlarm today now alarm retrievals).map (·.snmpAlarmUnregister clientreg)
  | .transferBegins => some (s.putLog s.log.closed)
  | .transferEnds opens => some ((s.putLog s.log.forgotten).rtcCheckLogFileName opens)
  | .setLogFile name => some { s with log := { s.log with gcInfoLogFileSystemData := name } }

/-- `init_collectDataTable` with the rows of the container file. -/
def Collection.init (rows : List Row) (name : String) (today : Fin 7) (now : Nat) :
    Option Collection :=
  (Collection.rtcCallback today now
    { rows := rows
      alarms := []
      regnum := 1
      guiRTCReg1 := 0
      guiRTCReg2 := 0
      guiRTCReg3 := 0
      giContextChanged := false
      gpstHeadList := none
      store := Store.empty
      log := ⟨name, "", 0, false⟩
      history := [] }).map (·.happened (.rebuilt false))

end EveAgent.Rtcm
