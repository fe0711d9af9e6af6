import EveAgent.Scheduler.Representation

/-! The job registry: the list that maps the rows of the job table to the tasks of the
scheduler, and the handling of the events of a row. -/

namespace EveAgent.JobSched

open Scheduler

section Records

/-- The octets that an attribute points to; a zero octet follows the last one. -/
abbrev Octets := List UInt8

def cString (octets : Octets) : Octets := octets.takeWhile (· != 0)

structure StJobMaster where
  iJobMasIndex : UInt16
  pcJobMasId : Option Octets
  pcJobMasName : Option Octets
  iJobMasInterval : Int16
  pcJobMasStartTime : Option Octets
  pcJobMasFinishTime : Option Octets
  uiEndTimeinNum : UInt32
  deriving DecidableEq, Repr

structure StNode where
  iIndex : Int16
  lTaskId : Nat
  deriving DecidableEq, Repr

/-- The address of `JS_PerformJobSchedAction`. -/
def jsPerformJobSchedAction : Nat := 1

end Records

section Times

structure StructTm where
  tmSec : Int
  tmMin : Int
  tmHour : Int
  tmMday : Int
  tmMon : Int
  tmYear : Int
  deriving DecidableEq, Repr

/-- What depends on the time zone: `mktime`, with the fields it leaves behind, and the
name of the day that `ctime` begins with. -/
structure TimeZone where
  mktime : StructTm → StructTm × Int
  ctimeDay : UInt32 → String

def days : List String := ["Sun", "Mon", "Tue", "Wed", "Thu", "Fri", "Sat"]

/-- 0 is `NASC_FAILURE`. -/
def jsGetDayNum (pcDay : String) : Nat := if pcDay ∈ days then days.idxOf pcDay else 0

def jsGetDay (zone : TimeZone) (iTime : UInt32) : Nat := jsGetDayNum (zone.ctimeDay iTime)

/-- `none` when the string overruns the 80 octets on the stack. -/
def jsFillTimeStruct (zone : TimeZone) (pstTime : Octets) : Option (StructTm × UInt32) :=
  let szStr := cString pstTime
  if szStr.length ≥ 80 then none
  else
    let octet := fun index => ((szStr[index]?.getD 0).toNat : Int)
    let iYear := octet 0 * 256 + octet 1
    let (pstTm, iTime) := zone.mktime
      { tmSec := octet 6
        tmMin := octet 5
        tmHour := octet 4
        tmMday := octet 3
        tmMon := octet 2 - 1
        tmYear := iYear - 1900 }
    some ({ pstTm with tmYear := iYear }, UInt32.ofInt iTime)

def StructTm.time (tm : StructTm) : StTime :=
  ⟨UInt16.ofInt tm.tmHour, UInt16.ofInt tm.tmMin, UInt16.ofInt tm.tmSec⟩

def StructTm.date (tm : StructTm) : StDate :=
  ⟨UInt16.ofInt tm.tmMday, UInt16.ofInt tm.tmMon, UInt16.ofInt tm.tmYear⟩

def weekDay : Nat → EWeekDay
  | 0 => .schSun
  | 1 => .schMon
  | 2 => .schTue
  | 3 => .schWed
  | 4 => .schThu
  | 5 => .schFri
  | 6 => .schSat
  | 7 => .schAllDays
  | _ => .outOfRange

/-- The switch over the interval; its default branch leaves the task as it is. -/
def updateInterval (iJobMasInterval : Int16) (day : EWeekDay) (task : StTask) : StTask :=
  if iJobMasInterval = 0 then
    { task with eType := .schOneShot, ePCity := .schDay, eWeekDay := .schAllDays }
  else if iJobMasInterval = 1 then
    { task with eType := .schPeriodic, ePCity := .schDay, eWeekDay := .schAllDays }
  else if iJobMasInterval = 2 then
    { task with eType := .schPeriodic, ePCity := .schWeek, eWeekDay := day }
  else if iJobMasInterval = 3 then
    { task with eType := .schPeriodic, ePCity := .schMonth, eWeekDay := day }
  else task

end Times

section JobList

/-! The list behind its header node. -/

variable (stListPtr : List StNode)

def jsAddNodeInJobList (taskID : Nat) (iIndex : Int16) : List StNode :=
  ⟨iIndex, taskID⟩ :: stListPtr

/-- The flag tells whether the record was found. -/
def jsDeleteNodeFromList (iIndex : Int16) (taskID : Nat) : List StNode × Bool :=
  (stListPtr.erase ⟨iIndex, taskID⟩, decide (⟨iIndex, taskID⟩ ∈ stListPtr))

/-- `none` is -1. -/
def jsGetTaskID (iIndex : Int16) : Option Nat :=
  (stListPtr.find? (·.iIndex == iIndex)).map StNode.lTaskId

end JobList

section Events

inductive Decision where
  | jsAdd
  | jsModify
  | jsDelete
  deriving DecidableEq, Repr

/-- One event: the record that the caller has allocated for it, what the locals `task` and
`iDayCount` hold before they are set, the clock at `SCH_AddTask`, and what `malloc` returns
for the task to copy out, the four attributes, the new task and the list node. -/
structure Event where
  iDecisionFlag : Decision
  pstJSStruct : Nat
  job : StJobMaster
  task : StTask
  iDayCount : EWeekDay
  pTime : Tm
  pstModTask : Bool
  attributes : Nat → Bool
  newNode : Option Nat
  listNode : Bool

/-- `jobs` is the memory of the records. -/
structure State where
  mem : Memory
  jobs : Nat → Option StJobMaster
  stListPtr : List StNode

def start : State :=
  { mem := initMasterTable
    jobs := fun _ => none
    stListPtr := [] }

/-- The index as `JS_GetTaskID` and `JS_AddNodeInJobList` receive it. -/
def StJobMaster.iIndex (job : StJobMaster) : Int16 := job.iJobMasIndex.toInt16

variable (zone : TimeZone)

/-! Here and below the outer `none` stands for a step that leaves C or the process. -/

/-- `JS_AddJobToSched` up to `SCH_AddTask`: the record and the task, or `NASC_FAILURE`. -/
def jsAddTask (event : Event) : Option (Option (StJobMaster × StTask)) :=
  let job := event.job
  match job.pcJobMasStartTime with
  | none => some none
  | some pcJobMasStartTime =>
    match jsFillTimeStruct zone pcJobMasStartTime with
    | none => none
    | some (pstTmStart, ulTime) =>
      if ulTime = 0 then some none
      else
        let task := { event.task with
          startTime := pstTmStart.time
          startDate := pstTmStart.date }
        let iRetCount := weekDay (jsGetDay zone ulTime)
        if job.iJobMasInterval = 0 then
          some (some (job, { updateInterval job.iJobMasInterval iRetCount task with
            vpArg := event.pstJSStruct
            fp := jsPerformJobSchedAction }))
        else
          match job.pcJobMasFinishTime with
          | none => some none
          | some pcJobMasFinishTime =>
            match jsFillTimeStruct zone pcJobMasFinishTime with
            | none => none
            | some (pstTmEnd, ulTime) =>
              if ulTime = 0 then some none
              else if job.iJobMasInterval = -1 then some none
              else
                let task := { task with
                  endTime := pstTmEnd.time
                  endDate := pstTmEnd.date }
                some (some ({ job with uiEndTimeinNum := ulTime },
                  { updateInterval job.iJobMasInterval iRetCount task with
                    vpArg := event.pstJSStruct
                    fp := jsPerformJobSchedAction }))

def jsAddJobToSched (s : State) (event : Event) : Option State :=
  match jsAddTask zone event with
  | none => none
  | some none => some s
  | some (some (job, task)) =>
    let jobs := Function.update s.jobs event.pstJSStruct (some job)
    match schAddTask s.mem event.pTime task event.newNode with
    | none => none
    | some (mem, none) => some { s with mem := mem, jobs := jobs }
    | some (mem, some lTaskId) =>
      if event.listNode then
        some { mem := mem
               jobs := jobs
               stListPtr := jsAddNodeInJobList s.stListPtr lTaskId job.iIndex }
      else none

/-- The times that `JS_ModifyJobToSched` copies into the task, with the end time as a
number; the inner `none` is `NASC_FAILURE`. -/
def jsModifyTimes (event : Event) (task : StTask) : Option (Option (StTask × UInt32)) :=
  let job := event.job
  let started : Option (Option (StTask × EWeekDay)) :=
    match job.pcJobMasStartTime with
    | none => some (some (task, event.iDayCount))
    | some pcJobMasStartTime =>
      match jsFillTimeStruct zone pcJobMasStartTime with
      | none => none
      | some (pstTmStart, ulTime) =>
        if ulTime = 0 then some none
        else
          some (some ({ task with
            startTime := pstTmStart.time
            startDate := pstTmStart.date }, weekDay (jsGetDay zone ulTime)))
  match started with
  | none => none
  | some none => some none
  | some (some (task, iDayCount)) =>
    match job.pcJobMasFinishTime with
    | none => some (some (task, job.uiEndTimeinNum))
    | some pcJobMasFinishTime =>
      match jsFillTimeStruct zone pcJobMasFinishTime with
      | none => none
      | some (pstTmEnd, ulTime) =>
        if ulTime = 0 then some none
        else
          let task := { task with
            endTime := pstTmEnd.time
            endDate := pstTmEnd.date }
          if job.iJobMasInterval = -1 then some (some (task, ulTime))
          else some (some (updateInterval job.iJobMasInterval iDayCount task, ulTime))

/-- An attribute is replaced by a copy of the given one; the flag tells whether there was
memory for it. -/
def copyAttribute (allocated : Bool) (given old : Option Octets) : Option Octets × Bool :=
  match given with
  | none => (old, true)
  | some octets => if allocated then (some (cString octets), true) else (none, false)

/-- The attributes that `JS_ModifyJobToSched` copies into the record of the task. -/
def jsModifyRecord (event : Event) (pstJSMod : StJobMaster) : StJobMaster × Bool :=
  let job := event.job
  let (pcJobMasId, copied) :=
    copyAttribute (event.attributes 0) job.pcJobMasId pstJSMod.pcJobMasId
  let pstJSMod := { pstJSMod with pcJobMasId := pcJobMasId }
  if !copied then (pstJSMod, false)
  else
    let (pcJobMasName, copied) :=
      copyAttribute (event.attributes 1) job.pcJobMasName pstJSMod.pcJobMasName
    let pstJSMod := { pstJSMod with pcJobMasName := pcJobMasName }
    if !copied then (pstJSMod, false)
    else
      let (pcJobMasStartTime, copied) :=
        copyAttribute (event.attributes 2) job.pcJobMasStartTime pstJSMod.pcJobMasStartTime
      let pstJSMod := { pstJSMod with pcJobMasStartTime := pcJobMasStartTime }
      if !copied then (pstJSMod, false)
      else
        let (pcJobMasFinishTime, copied) :=
          copyAttribute (event.attributes 3) job.pcJobMasFinishTime pstJSMod.pcJobMasFinishTime
        ({ pstJSMod with pcJobMasFinishTime := pcJobMasFinishTime }, copied)

/-- `JS_FreeJobMaster`. -/
def jsFreeJobMaster (jobs : Nat → Option StJobMaster) (pstJSMaster : Nat) :
    Nat → Option StJobMaster :=
  Function.update jobs pstJSMaster none

/-- A null pointer is left alone, and a record that is not there cannot be freed. -/
def freeArgument (jobs : Nat → Option StJobMaster) (pstJSMod : Nat) :
    Option (Nat → Option StJobMaster) :=
  if pstJSMod = 0 then some jobs
  else if jobs pstJSMod = none then none
  else some (jsFreeJobMaster jobs pstJSMod)

/-- `JS_ModifyJobToSched` with what it returns. -/
def jsModifyJob (s : State) (event : Event) :
    Option (State × ENASCenterError) :=
  match jsGetTaskID s.stListPtr event.job.iIndex with
  | none => some ({ s with jobs := jsFreeJobMaster s.jobs event.pstJSStruct }, .nascFailure)
  | some lTaskId =>
    match schGetTask s.mem lTaskId with
    | none => none
    | some none => some (s, .nascFailure)
    | some (some task) =>
      if event.pstModTask = false then none
      else
        match jsModifyTimes zone event task with
        | none => none
        | some none => some (s, .nascFailure)
        | some (some (task, uiEndTimeinNum)) =>
          match s.jobs task.vpArg with
          | none => none
          | some pstJSMod =>
            let (pstJSMod, copied) := jsModifyRecord event pstJSMod
            if copied = false then
              some ({ s with jobs := Function.update s.jobs task.vpArg (some pstJSMod) },
                .nascFailure)
            else
              let pstJSMod := { pstJSMod with uiEndTimeinNum := uiEndTimeinNum }
              let jobs := Function.update s.jobs task.vpArg (some pstJSMod)
              match schModifyTask s.mem lTaskId event.pTime
                  { task with fp := jsPerformJobSchedAction } event.newNode with
              | none => none
              | some (mem, none) =>
                some ({ s with
                  mem := mem
                  jobs := jsFreeJobMaster jobs event.pstJSStruct }, .nascSuccess)
              | some (mem, some newTaskID) =>
                match jsDeleteNodeFromList s.stListPtr event.job.iIndex lTaskId with
                | (_, false) => some ({ s with mem := mem, jobs := jobs }, .nascFailure)
                | (stListPtr, true) =>
                  if event.listNode then
                    some ({ mem := mem
                            jobs := jsFreeJobMaster jobs event.pstJSStruct
                            stListPtr := jsAddNodeInJobList stListPtr newTaskID
                              event.job.iIndex }, .nascSuccess)
                  else none

def jsModifyJobToSched (s : State) (event : Event) : Option State :=
  (jsModifyJob zone s event).map Prod.fst

def jsDeleteFromSched (s : State) (event : Event) : Option State :=
  match jsGetTaskID s.stListPtr event.job.iIndex with
  | none => some { s with jobs := jsFreeJobMaster s.jobs event.pstJSStruct }
  | some lDelTaskId =>
    match schGetTask s.mem lDelTaskId with
    | none => none
    | some none => some s
    | some (some task) =>
      if event.pstModTask = false then none
      else
        match schDeleteTask s.mem lDelTaskId with
        | none => none
        | some (mem, .nascFailure) => some { s with mem := mem }
        | some (mem, _) =>
          match freeArgument s.jobs task.vpArg with
          | none => none
          | some jobs =>
            match jsDeleteNodeFromList s.stListPtr event.job.iIndex lDelTaskId with
            | (_, false) => some { s with mem := mem, jobs := jobs }
            | (stListPtr, true) =>
              some { mem := mem
                     jobs := jsFreeJobMaster jobs event.pstJSStruct
                     stListPtr := stListPtr }

/-- `malloc` hands out memory that is not in use; `SCH_ModifyTask` has freed the old node
when it allocates the new one. -/
def MallocOk (s : State) (event : Event) : Prop :=
  event.pstJSStruct ≠ 0 ∧ s.jobs event.pstJSStruct = none ∧
    ∀ node ∈ event.newNode, s.mem.heap node = none ∨
      (event.iDecisionFlag = .jsModify ∧
        jsGetTaskID s.stListPtr event.job.iIndex = some node)

instance (s : State) (event : Event) : Decidable (MallocOk s event) :=
  inferInstanceAs (Decidable (_ ∧ _ ∧ ∀ node ∈ event.newNode, _))

/-- `JS_UpdateJobToScheduler` for a record that the caller has just allocated. -/
def jsUpdateJobToScheduler (s : State) (event : Event) : Option State :=
  if MallocOk s event then
    let s := { s with jobs := Function.update s.jobs event.pstJSStruct (some event.job) }
    match event.iDecisionFlag with
    | .jsAdd => jsAddJobToSched zone s event
    | .jsModify => jsModifyJobToSched zone s event
    | .jsDelete => jsDeleteFromSched s event
  else none

end Events

end EveAgent.JobSched
