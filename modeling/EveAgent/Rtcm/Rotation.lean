import EveAgent.Rtcm.Alarms
import EveAgent.Streams

namespace EveAgent.Rtcm

open EveAgent.Streams

/-- The statements of `RTC_Check_LogFile_Name`. -/
inductive CheckLogFile where
  | test
  | ifOpen
  | fclose
  | clear
  | fopen
  | save
  deriving DecidableEq, Repr

/-- The statements of `RTC_Retrieve_Log_Variable` behind the value, and of
`RTC_Thread_Transfer_File`, which an expiring alarm calls as well. -/
inductive RetrieveLog where
  | idle
  | check (position : CheckLogFile)
  | ifWrite
  | fprintf
  | firstTime
  | ifSize
  | fstat
  | unregister
  | register
  | ifClose
  | forget
  | fclose
  | clear
  | start (expiring : Option Nat)
  deriving DecidableEq, Repr

/-- The statements of `RTC_Transfer_File`. -/
inductive TransferFile where
  | reset
  | ifClose
  | fclose
  | clear
  | rename
  | send
  | forget
  | check (position : CheckLogFile)
  | register
  | finish
  deriving DecidableEq, Repr

/-- The `n`-th line that is logged is the number `n`. -/
structure Rotation where
  files : Files String Nat
  fpl : Option Nat
  gszRTCTempLogFile : String
  szSavedLogFile : String
  lines : Nat
  /-- The contents of the files that `FileTrans_SendFile` has been called for. -/
  handed : List (List Nat)
  /-- A stream was used that is not open. -/
  fault : Bool
  alarms : List Nat
  regnum : Nat
  guiRTCLogFileSendReg : Nat
  giRTCFirstTime : Bool
  giFTProgress : Bool
  main : RetrieveLog
  thread : Option TransferFile

section Statements

variable (s : Rotation)

def Rotation.fclose : Rotation :=
  match s.fpl.bind s.files.fclose with
  | none => { s with fault := true }
  | some files => { s with files := files }

def Rotation.fprintf : Rotation :=
  match s.fpl.bind fun stream => s.files.fprintf stream s.lines with
  | none => { s with fault := true }
  | some files => { s with files := files, lines := s.lines + 1 }

/-- `fileno` and `fstat` read the stream. -/
def Rotation.fstat : Rotation :=
  match s.fpl.bind s.files.streams with
  | none => { s with fault := true }
  | some _ => s

def Rotation.fopen (name : String) : Rotation :=
  { s with files := s.files.fopen name, fpl := some s.files.opened }

def Rotation.registerSend : Rotation :=
  { s with
    alarms := s.alarms ++ [s.regnum], guiRTCLogFileSendReg := s.regnum, regnum := s.regnum + 1 }

def Rotation.unregisterSend (clientreg : Nat) : Rotation :=
  { s with alarms := s.alarms.filter fun alarm => alarm != clientreg }

end Statements

section Steps

variable (gcInfoLogFileSystemData : String)

/-- One statement of `RTC_Check_LogFile_Name`, and the next one, unless it returns. -/
def Rotation.rtcCheckLogFileName (s : Rotation) : CheckLogFile → Rotation × Option CheckLogFile
  | .test =>
    (s, if s.fpl = none ∨ gcInfoLogFileSystemData ≠ s.szSavedLogFile then some .ifOpen else none)
  | .ifOpen => (s, some (if s.fpl = none then .fopen else .fclose))
  | .fclose => (s.fclose, some .clear)
  | .clear => ({ s with fpl := none }, some .fopen)
  | .fopen =>
    ({ s with gszRTCTempLogFile := gcInfoLogFileSystemData ++ ".1" }.fopen
      (gcInfoLogFileSystemData ++ ".1"), some .save)
  | .save => ({ s with szSavedLogFile := gcInfoLogFileSystemData }, none)

/-- One statement of the main thread. The outcome says whether the log is beyond its limit, and
whether the thread can be created. -/
def Rotation.rtcRetrieveLogVariable (s : Rotation) (outcome : Bool) : Option Rotation :=
  match s.main with
  | .idle => none
  | .check position =>
    some { (s.rtcCheckLogFileName gcInfoLogFileSystemData position).1 with
      main :=
        match (s.rtcCheckLogFileName gcInfoLogFileSystemData position).2 with
        | some next => .check next
        | none => .ifWrite }
  | .ifWrite => some { s with main := if s.fpl = none then .firstTime else .fprintf }
  | .fprintf => some { s.fprintf with main := .firstTime }
  | .firstTime =>
    if s.giRTCFirstTime then some { s.registerSend with giRTCFirstTime := false, main := .ifSize }
    else some { s with main := .ifSize }
  | .ifSize => some { s with main := if s.fpl = none then .idle else .fstat }
  | .fstat => some { s.fstat with main := if outcome then .unregister else .idle }
  | .unregister =>
    if s.guiRTCLogFileSendReg ≠ 0 then
      some { s.unregisterSend s.guiRTCLogFileSendReg with main := .register }
    else some { s with main := .register }
  | .register => some { s.registerSend with main := .ifClose }
  | .ifClose => some { s with main := if s.fpl = none then .start none else .forget }
  | .forget => some { s with szSavedLogFile := rtcDefaultLogfile, main := .fclose }
  | .fclose => some { s.fclose with main := .clear }
  | .clear => some { s with fpl := none, main := .start none }
  | .start expiring =>
    let s := if s.giFTProgress then s
      else if outcome then { s with giFTProgress := true, thread := some .reset }
      else { s with giFTProgress := true }
    match expiring with
    | none => some { s with main := .idle }
    | some alarm => some { s.unregisterSend alarm with main := .idle }

def Rotation.rtcTransferFile (s : Rotation) : Option Rotation :=
  match s.thread with
  | none => none
  | some .reset => some { s with guiRTCLogFileSendReg := 0, thread := some .ifClose }
  | some .ifClose => some { s with thread := some (if s.fpl = none then .rename else .fclose) }
  | some .fclose => some { s.fclose with thread := some .clear }
  | some .clear => some { s with fpl := none, thread := some .rename }
  | some .rename =>
    some { s with
      files := s.files.rename s.gszRTCTempLogFile gcInfoLogFileSystemData
      thread := some .send }
  | some .send =>
    some { s with
      handed := s.handed ++ [s.files.read gcInfoLogFileSystemData], thread := some .forget }
  | some .forget =>
    some { s with szSavedLogFile := rtcDefaultLogfile, thread := some (.check .test) }
  | some (.check position) =>
    some { (s.rtcCheckLogFileName gcInfoLogFileSystemData position).1 with
      thread :=
        match (s.rtcCheckLogFileName gcInfoLogFileSystemData position).2 with
        | some next => some (.check next)
        | none => some .register }
  | some .register => some { s.registerSend with thread := some .finish }
  | some .finish => some { s with giFTProgress := false, thread := none }

inductive Statement where
  /-- A value is to be logged. -/
  | retrieve
  /-- An alarm of `RTC_Thread_Transfer_File` expires. -/
  | expire (alarm : Nat)
  | main (outcome : Bool)
  | thread
  deriving DecidableEq, Repr

def Rotation.step (s : Rotation) : Statement → Option Rotation
  | .retrieve => if s.main = .idle then some { s with main := .check .test } else none
  | .expire alarm =>
    if s.main = .idle ∧ alarm ∈ s.alarms then some { s with main := .start (some alarm) }
    else none
  | .main outcome => s.rtcRetrieveLogVariable gcInfoLogFileSystemData outcome
  | .thread => s.rtcTransferFile gcInfoLogFileSystemData

end Steps

def Rotation.initial : Rotation where
  files := Files.none
  fpl := none
  gszRTCTempLogFile := ""
  szSavedLogFile := ""
  lines := 0
  handed := []
  fault := false
  alarms := []
  regnum := 1
  guiRTCLogFileSendReg := 0
  giRTCFirstTime := true
  giFTProgress := false
  main := .idle
  thread := none

end EveAgent.Rtcm
