import EveAgent.CText

namespace EveAgent.LogMon

section Rows

inductive RowStatus where
  | active
  | notInService
  | destroy
  deriving DecidableEq, Repr

/-- The columns that decide whether a row can be polled. -/
structure Columns where
  logMonRowLogFile : Text
  logMonRowReadInterval : Int
  logMonRowFilter : Text
  logMonRowFileSizeThreshold : Int
  deriving DecidableEq, Repr

def Columns.complete (columns : Columns) : Bool :=
  columns.logMonRowLogFile.length ≠ 0 && columns.logMonRowReadInterval ≠ 0 &&
    (columns.logMonRowFilter.length ≠ 0 || columns.logMonRowFileSizeThreshold > 0)

structure MonitoredRow where
  index : Nat
  columns : Columns
  logMonRowStatus : RowStatus
  iThreadActiveFlag : Bool
  freed : Bool
  deriving DecidableEq, Repr

def MonitoredRow.due (row : MonitoredRow) : Bool :=
  row.logMonRowStatus = .active && row.columns.complete

end Rows

section Threads

/-- Where a thread stands: what it does in its next step. -/
inductive ThreadPc where
  | start
  | find
  | status
  | clear
  | check
  | poll
  | update
  | sleep
  | asleep
  | exited
  deriving DecidableEq, Repr

structure RowThread where
  pc : ThreadPc
  row : Nat
  deriving DecidableEq, Repr

/-- The parts of the commit: the container, the data file, the test of the flag, the flag of a new
thread, and the end, at which the agent frees a destroyed row. -/
inductive Phase where
  | container
  | write
  | check
  | flag
  | done
  deriving DecidableEq, Repr

structure Commit where
  phase : Phase
  row : Nat
  rowCreated : Bool
  deriving DecidableEq, Repr

/-- Rows and threads are numbered in the order in which they are made. -/
structure System where
  heap : Nat → MonitoredRow
  next : Nat
  container : Nat → Option Nat
  threads : Nat → RowThread
  spawned : Nat
  commit : Option Commit
  /-- A thread has used a row that the agent had freed. -/
  usedFreed : Bool

/-- Thread `k` uses its row and goes on like this. -/
def System.goOn (system : System) (k : Nat) (pc : ThreadPc) : System :=
  { system with
    threads := Function.update system.threads k ⟨pc, (system.threads k).row⟩
    usedFreed := system.usedFreed || (system.heap (system.threads k).row).freed }

def System.setFlag (system : System) (row : Nat) (value : Bool) : System :=
  { system with
    heap := Function.update system.heap row
      { system.heap row with iThreadActiveFlag := value } }

/-- One step of `LogMonRow_LogMonThreadMain`. -/
def System.threadStep (system : System) (k : Nat) : System :=
  let thread := system.threads k
  let row := system.heap thread.row
  match thread.pc with
  | .start => system.goOn k .find
  | .find =>
    match system.container row.index with
    | none => system.goOn k .exited
    | some found =>
      { system.goOn k .status with
        threads := Function.update system.threads k ⟨.status, found⟩ }
  | .status => system.goOn k (if row.logMonRowStatus = .active then .check else .clear)
  | .clear => (system.goOn k .exited).setFlag thread.row false
  | .check => system.goOn k (if row.columns.complete then .poll else .asleep)
  | .poll => system.goOn k .update
  | .update =>
    if row.logMonRowStatus = .destroy then (system.goOn k .sleep).setFlag thread.row false
    else system.goOn k .sleep
  | .sleep => system.goOn k .asleep
  | .asleep => { system with threads := Function.update system.threads k ⟨.find, thread.row⟩ }
  | .exited => system

/-- The request edits the row, or makes a new one. -/
def System.set (system : System) (index : Nat) (columns : Columns) (status : RowStatus) : System :=
  match system.commit, system.container index with
  | some _, _ => system
  | none, some row =>
    { system with
      heap := Function.update system.heap row
        { system.heap row with columns := columns, logMonRowStatus := status }
      commit := some ⟨.container, row, false⟩ }
  | none, none =>
    { system with
      heap := Function.update system.heap system.next ⟨index, columns, status, false, false⟩
      next := system.next + 1
      commit := some ⟨.container, system.next, true⟩ }

/-- One part of the commit; `created` tells whether `pthread_create` succeeds, where it is
called. -/
def System.commitStep (system : System) (created : Bool) : System :=
  match system.commit with
  | none => system
  | some commit =>
    let row := system.heap commit.row
    match commit.phase with
    | .container =>
      { system with
        container :=
          match commit.rowCreated, row.logMonRowStatus with
          | false, .destroy => Function.update system.container row.index none
          | false, _ => system.container
          | true, .destroy => system.container
          | true, _ => Function.update system.container row.index (some commit.row)
        commit := some { commit with phase := .write } }
    | .write =>
      { system.setFlag commit.row
          (row.iThreadActiveFlag && row.logMonRowStatus ≠ .destroy) with
        commit := some { commit with phase := .check } }
    | .check =>
      if row.due && !row.iThreadActiveFlag && created then
        { system with
          threads := Function.update system.threads system.spawned ⟨.start, commit.row⟩
          spawned := system.spawned + 1
          commit := some { commit with phase := .flag } }
      else { system with commit := some { commit with phase := .done } }
    | .flag => { system.setFlag commit.row true with commit := some { commit with phase := .done } }
    | .done =>
      { system with
        heap := Function.update system.heap commit.row
          { row with
            freed := row.freed || (row.logMonRowStatus = .destroy && !commit.rowCreated) }
        commit := none }

inductive RowEvent where
  | set (index : Nat) (columns : Columns) (status : RowStatus)
  | commit (created : Bool)
  | thread (k : Nat)
  deriving DecidableEq, Repr

def System.step (system : System) : RowEvent → System
  | .set index columns status => system.set index columns status
  | .commit created => system.commitStep created
  | .thread k => system.threadStep k

def System.run (system : System) (events : List RowEvent) : System :=
  events.foldl System.step system

end Threads

end EveAgent.LogMon
