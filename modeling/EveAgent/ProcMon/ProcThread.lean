import Mathlib

namespace EveAgent.ProcMon

section Count

structure PsCacheInfo where
  pid : Int
  name : List Char
  args : List Char
  cpu : Int
  mem : Int
  deriving DecidableEq, Repr

inductive ResourceColumn where
  | psMonitorCPU
  | psMonitorMEM
  deriving DecidableEq, Repr

inductive ProcAlert where
  | up
  | down
  | threshold
  | recovery
  | resource (type : ResourceColumn) (isAlert : Bool)
  deriving DecidableEq, Repr

structure PsMonitor where
  psMonitorName : List Char
  psMonitorParameter : List Char
  psMonitorNumber : Int
  psMonitorReaction : Int
  psMonitorCPU : Int
  psMonitorMEM : Int
  thrcpu : Bool
  thrmem : Bool
  deriving DecidableEq, Repr

/-- The lists of processes that a poll finds. Of the one before it only the pids are looked at. -/
structure ProcessLists where
  gpstPsInfo : List PsCacheInfo
  full_process_list : Bool
  gpstPrePsInfo : List Int
  deriving DecidableEq, Repr

/-- What `checkThreshold` does for one column. `known` says that the process was there before. -/
def checkColumn (type : ResourceColumn) (known : Bool) (limit value : Int) (thr : Bool) :
    Bool × List ProcAlert :=
  if limit ≤ 0 then (thr, [])
  else if known then
    if limit ≤ value ∧ thr = false then (true, [.resource type true])
    else if value < limit ∧ thr = true then (false, [.resource type false])
    else (thr, [])
  else if limit ≤ value then (true, [.resource type true])
  else (thr, [])

def checkThreshold (lists : ProcessLists) (psinfo : PsCacheInfo) (row : PsMonitor) :
    PsMonitor × List ProcAlert :=
  let known := decide (psinfo.pid ∈ lists.gpstPrePsInfo)
  let cpu := checkColumn .psMonitorCPU known row.psMonitorCPU psinfo.cpu row.thrcpu
  let mem := checkColumn .psMonitorMEM known row.psMonitorMEM psinfo.mem row.thrmem
  ({ row with thrcpu := cpu.1, thrmem := mem.1 }, cpu.2 ++ mem.2)

variable (ProcMon_CheckPattern : List Char → List Char → Bool)

def counted (row : PsMonitor) (psinfo : PsCacheInfo) : Bool :=
  let parameter :=
    match row.psMonitorParameter with
    | ' ' :: parameter => parameter
    | parameter => parameter
  psinfo.name = row.psMonitorName ∧
    (parameter = [] ∨ (psinfo.args ≠ [] ∧ ProcMon_CheckPattern psinfo.args parameter))

def ProcMon_CheckProc (lists : ProcessLists) (row : PsMonitor) :
    Int × PsMonitor × List ProcAlert :=
  if lists.gpstPsInfo = [] ∨ lists.full_process_list = false then (-99, row, [])
  else
    lists.gpstPsInfo.foldl (fun found psinfo =>
      if counted ProcMon_CheckPattern row psinfo then
        let checked := checkThreshold lists psinfo found.2.1
        (found.1 + 1, checked.1, found.2.2 ++ checked.2)
      else found) (0, row, [])

end Count

section Thread

/-- The row and `iStatus`, and the alerts of the last round. -/
structure ProcThread where
  row : PsMonitor
  iStatus : Int
  sent : List ProcAlert
  deriving DecidableEq, Repr

def ProcThread.send (thread : ProcThread) (alert : ProcAlert) : ProcThread :=
  { thread with sent := thread.sent ++ [alert] }

def ProcThread.setStatus (thread : ProcThread) (iStatus : Int) : ProcThread :=
  { thread with iStatus := iStatus }

/-- The recovery of a CPU or memory threshold before the alert that the process is down. -/
def ProcThread.recoverResources (thread : ProcThread) : ProcThread :=
  let thread :=
    if thread.row.thrcpu then
      { thread.send (.resource .psMonitorCPU false) with
        row := { thread.row with thrcpu := false } }
    else thread
  if thread.row.thrmem then
    { thread.send (.resource .psMonitorMEM false) with
      row := { thread.row with thrmem := false } }
  else thread

def ProcThread.sendDown (thread : ProcThread) : ProcThread := thread.recoverResources.send .down

/-- `psMonitorReaction` 1: the alerts only. -/
def ProcThread.alertOnly (thread : ProcThread) (iProcCount : Int) : ProcThread :=
  let number := thread.row.psMonitorNumber
  if number ≠ 0 ∧ number < iProcCount ∧ thread.iStatus ≠ 2 then
    let thread := if thread.iStatus = 0 then thread.send .up else thread
    (thread.send .threshold).setStatus 2
  else if number ≠ 0 ∧ iProcCount ≤ number ∧ thread.iStatus = 2 then
    let thread := (thread.send .recovery).setStatus 1
    if iProcCount = 0 then thread.sendDown.setStatus 0 else thread
  else if thread.iStatus ≠ 0 ∧ iProcCount = 0 then thread.sendDown.setStatus 0
  else if thread.iStatus < 1 ∧ iProcCount ≠ 0 then (thread.send .up).setStatus 1
  else thread

/-- The first count of a thread that restarts its process. -/
def ProcThread.firstUp (thread : ProcThread) (iProcCount : Int) : ProcThread :=
  if thread.iStatus = -1 ∧ iProcCount ≠ 0 then (thread.send .up).setStatus 1 else thread

/-- `psMonitorReaction` 2: the process is restarted, and said to be up. -/
def ProcThread.restart (thread : ProcThread) (iProcCount : Int) : ProcThread :=
  let thread := thread.firstUp iProcCount
  if iProcCount = 0 then thread.send .up else thread

/-- `psMonitorReaction` 3: the process is restarted, and the alerts are sent. -/
def ProcThread.restartAndAlert (thread : ProcThread) (iProcCount : Int) : ProcThread :=
  let thread := thread.firstUp iProcCount
  if iProcCount = 0 then
    (if thread.iStatus ≠ 0 then thread.sendDown else thread).setStatus 0
  else if thread.iStatus = 0 then (thread.send .up).setStatus 1
  else thread

variable (ProcMon_CheckPattern : List Char → List Char → Bool)

/-- A round of `ProcMon_ProcMonThreadMain` that gets as far as the count. -/
def ProcThread.poll (thread : ProcThread) (lists : ProcessLists) : ProcThread :=
  let found := ProcMon_CheckProc ProcMon_CheckPattern lists thread.row
  let thread := { thread with row := found.2.1, sent := found.2.2 }
  if found.1 = -99 then thread
  else if thread.row.psMonitorReaction = 1 then thread.alertOnly found.1
  else if thread.row.psMonitorReaction = 2 then thread.restart found.1
  else if thread.row.psMonitorReaction = 3 then thread.restartAndAlert found.1
  else thread

structure Monitor where
  thread : ProcThread
  alerts : List ProcAlert
  deriving DecidableEq, Repr

inductive MonitorEvent where
  | poll (lists : ProcessLists)
  | setNumber (psMonitorNumber : Int)
  | setReaction (psMonitorReaction : Int)
  deriving DecidableEq, Repr

def Monitor.setRow (monitor : Monitor) (row : PsMonitor) : Monitor :=
  { monitor with thread := { monitor.thread with row := row } }

def Monitor.step (monitor : Monitor) : MonitorEvent → Monitor
  | .poll lists =>
    let thread := monitor.thread.poll ProcMon_CheckPattern lists
    ⟨thread, monitor.alerts ++ thread.sent⟩
  | .setNumber number => monitor.setRow { monitor.thread.row with psMonitorNumber := number }
  | .setReaction reaction =>
    monitor.setRow { monitor.thread.row with psMonitorReaction := reaction }

def Monitor.run (monitor : Monitor) (events : List MonitorEvent) : Monitor :=
  events.foldl (Monitor.step ProcMon_CheckPattern) monitor

/-- The thread of a row has started: its status is unknown. -/
def spawned (row : PsMonitor) : Monitor :=
  ⟨⟨{ row with thrcpu := false, thrmem := false }, -1, []⟩, []⟩

end Thread

end EveAgent.ProcMon
