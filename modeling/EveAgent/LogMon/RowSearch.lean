import EveAgent.LineFile

namespace EveAgent.LogMon

section Streams

inductive StreamCall where
  | fopen
  | fseek
  | fgets
  | ftell
  | fclose
  deriving DecidableEq, Repr

/-- Whether the stream is open after the call. A closed stream can only be opened. -/
def useStream : Bool → StreamCall → Option Bool
  | false, .fopen => some true
  | true, .fseek => some true
  | true, .fgets => some true
  | true, .ftell => some true
  | true, .fclose => some false
  | _, _ => none

/-- No stream is used when it is closed, and none is left open. -/
def Orderly (calls : List StreamCall) : Prop := calls.foldlM useStream false = some false

instance (calls : List StreamCall) : Decidable (Orderly calls) :=
  inferInstanceAs (Decidable (_ = _))

/-- `fgets` until it finds nothing, then `ftell` and `fclose`. -/
def readingCalls (lines : List Text) : List StreamCall :=
  List.replicate (lines.length + 1) .fgets ++ [.ftell, .fclose]

end Streams

section Poll

def lineMaxLen : Nat := 500

structure LogRow where
  logMonRowFilter : Text
  logMonRowFilterCounter : Int
  logMonRowFileSize : Int
  logMonRowReadLine : Int
  logMonRowReadLineSeek : Nat
  logMonRowLine : Int
  logMonRowGetLine : Int
  isStart : Bool
  filterCounter : Int
  deriving DecidableEq, Repr

/-- What one poll finds under the name of the file: `stat`, and then the two times it is opened. -/
structure Sight where
  stat : Option Nat
  counted : Option Text
  opened : Option Text
  deriving DecidableEq, Repr

/-- What one poll returns, the lines that it compared with the filter, those it sent an alert
about, and its use of streams. -/
structure Poll where
  row : LogRow
  result : Int
  checked : List (Text × Int)
  alerts : List (Text × Int)
  calls : List StreamCall
  deriving DecidableEq, Repr

def cString (buffer : Text) : Text := buffer.takeWhile (· != '\x00')

/-- The start of `LogMonRow_LogMonThreadMain`. -/
def threadStart (row : LogRow) : LogRow :=
  { row with
    logMonRowReadLine := 0
    isStart := true
    logMonRowFilterCounter :=
      if row.logMonRowFilterCounter < 1 then 1 else row.logMonRowFilterCounter
    filterCounter := 0 }

def getLineCountAndSeek (file : Option Text) (readLineSeek : Nat) :
    Int × Nat × List StreamCall :=
  match file with
  | none => (-1, readLineSeek, [])
  | some content =>
    let lines := readLines lineMaxLen content.length content
    (lines.length, lines.flatten.length, .fopen :: readingCalls lines)

/-- The branch for a file that became shorter, or of which no line was read. -/
def restart (row : LogRow) (size : Nat) (file : Option Text) : LogRow × List StreamCall :=
  let (readLine, readLineSeek, calls) :=
    if row.isStart then getLineCountAndSeek file row.logMonRowReadLineSeek else (0, 0, [])
  ({ row with
      logMonRowReadLine := readLine
      logMonRowReadLineSeek := readLineSeek
      isStart := false
      logMonRowFileSize := size
      logMonRowGetLine := readLine
      logMonRowLine := 0 }, calls)

structure Scan where
  iLineNum : Int
  iStrFound : Int
  filterCounter : Int
  checked : List (Text × Int)
  alerts : List (Text × Int)
  deriving DecidableEq, Repr

variable (commonCheckPattern : Text → Text → Bool)

def scanLine (row : LogRow) (scan : Scan) (acReadBuffer : Text) : Scan :=
  let iLineNum := scan.iLineNum + 1
  let line := cString acReadBuffer
  if row.logMonRowFilter.length = 0 then { scan with iLineNum := iLineNum }
  else if commonCheckPattern line row.logMonRowFilter then
    let filterCounter := (scan.filterCounter + 1).tmod row.logMonRowFilterCounter
    { iLineNum := iLineNum
      iStrFound := iLineNum
      filterCounter := filterCounter
      checked := scan.checked ++ [(line, iLineNum)]
      alerts :=
        if filterCounter = 0 then scan.alerts ++ [(line.take 299, iLineNum)] else scan.alerts }
  else { scan with iLineNum := iLineNum, checked := scan.checked ++ [(line, iLineNum)] }

/-- From `fseek` on. The end of the loop closes the stream and forgets it. -/
def scanFile (row : LogRow) (size : Nat) (content : Text) (calls : List StreamCall) : Poll :=
  let rest := content.drop row.logMonRowReadLineSeek
  let lines := readLines lineMaxLen rest.length rest
  let scan := lines.foldl (scanLine commonCheckPattern row)
    ⟨row.logMonRowReadLine, 0, row.filterCounter, [], []⟩
  { row :=
      { row with
        filterCounter := scan.filterCounter
        logMonRowReadLineSeek := row.logMonRowReadLineSeek + lines.flatten.length
        logMonRowLine := if scan.iStrFound = 0 then row.logMonRowLine else scan.iStrFound
        logMonRowFileSize := size
        logMonRowGetLine := scan.iLineNum
        logMonRowReadLine := scan.iLineNum }
    result := scan.iStrFound
    checked := scan.checked
    alerts := scan.alerts
    calls := calls ++ .fopen :: .fseek :: readingCalls lines }

def searchPatterns (row : LogRow) (sight : Sight) : Poll :=
  match sight.stat with
  | none => ⟨row, -1, [], [], []⟩
  | some size =>
    let restarts : Bool := row.logMonRowFileSize > size || row.logMonRowReadLine = 0
    let (row, calls) := if restarts then restart row size sight.counted else (row, [])
    if restarts && row.logMonRowReadLineSeek = row.logMonRowFileSize then
      ⟨row, 0, [], [], calls⟩
    else
      match sight.opened with
      | none => ⟨row, -1, [], [], calls⟩
      | some content =>
        -- Nothing closes the stream here.
        if size < row.logMonRowReadLineSeek then ⟨row, 0, [], [], calls ++ [.fopen]⟩
        else scanFile commonCheckPattern row size content calls

def polls (row : LogRow) : List Sight → List Poll
  | [] => []
  | sight :: sights =>
    let poll := searchPatterns commonCheckPattern row sight
    poll :: polls poll.row sights

end Poll

end EveAgent.LogMon
