import EveAgent.LineFile
import EveAgent.UserControl.RowEvents

namespace EveAgent.TcpWrapper

open UserControl (IpAddress Service)

section Names

/-- `gpcServiceDeamons`: strings in arrays of 80 bytes, taken from lines of text. -/
structure ServiceDeamons where
  name : Service → Text
  short : ∀ service, (name service).length < 80
  oneLine : ∀ service, '\n' ∉ name service
  terminated : ∀ service, '\x00' ∉ name service

/-- The second and the third string constant of the source are one. -/
def initialDeamons : ServiceDeamons where
  name
    | .telnet => "in.telnetd".toList
    | .ftp => "in.ftpd".toList
    | .smtp => []
    | .pop3 => []
  short service := by cases service <;> decide
  oneLine service := by cases service <;> decide
  terminated service := by cases service <;> decide

/-- The format `%d.%d.%d.%d` for the four bytes of an address. -/
def dotted (address : IpAddress) : Text :=
  Nat.toDigits 10 address.a.toNat ++ '.' :: Nat.toDigits 10 address.b.toNat ++
    '.' :: Nat.toDigits 10 address.c.toNat ++ '.' :: Nat.toDigits 10 address.d.toNat

/-- `ALLOW_ALL`. -/
def allowAll : Text := "255.255.255.255".toList

def client (pcIpAddr : Text) : Text := if pcIpAddr = allowAll then "ALL".toList else pcIpAddr

/-- The format `%s : %s` without the newline. -/
def rule (deamons : ServiceDeamons) (iFlag : Service) (pcIpAddr : Text) : Text :=
  deamons.name iFlag ++ " : ".toList ++ client pcIpAddr

def cString (data : Text) : Text := data.takeWhile (· != '\x00')

/-- The test that all three operations make for a line. -/
def names (deamons : ServiceDeamons) (iFlag : Service) (pcIpAddr cData : Text) : Bool :=
  (strstr (client pcIpAddr) cData).isSome && (strstr (deamons.name iFlag) cData).isSome

end Names

section Reading

def maxChar : Nat := 100

/-- The loop of `UM_GetLine`: the number of characters read, whether the file came to its end,
and what was stored. A line of `maxChar` characters has no room for the zero behind it. -/
def readLoop : Nat → Text → Option (Nat × Bool × Text)
  | iNoOfChar, [] => some (iNoOfChar, true, [])
  | iNoOfChar, cData :: rest =>
      if cData = '\n' then some (iNoOfChar + 1, false, [])
      else if maxChar ≤ iNoOfChar + 1 then none
      else (readLoop (iNoOfChar + 1) rest).map fun read => (read.1, read.2.1, cData :: read.2.2)

/-- The value returned, the characters stored and the file behind them. -/
def umGetLine (file : Descriptor) : Option (Nat × Text × Descriptor) :=
  (readLoop 0 (file.content.drop file.offset)).map fun read =>
    (if read.2.1 ∧ read.1 = 1 then 0 else read.1, read.2.2,
      file.seekSet (file.offset + read.1))

/-- The loop that looks for the first line that passes the test. -/
def findLine (test : Text → Bool) : Nat → Descriptor → Option (Option Text × Descriptor)
  | 0, _ => none
  | fuel + 1, file =>
      match umGetLine file with
      | none => none
      | some (0, _, file) => some (none, file)
      | some (_ + 1, cData, file) =>
          if test (cString cData) then some (some (cString cData), file)
          else findLine test fuel file

def searchFile (test : Text → Bool) (content : Text) : Option (Option Text × Descriptor) :=
  findLine test (content.length + 1) ⟨content, 0⟩

end Reading

section Rows

/-- `stAllowUM` of a complete row. -/
structure StAllowUM where
  iIndex : Int16
  pcIpAddr : IpAddress
  iFlag : Service
  iStatus : Int16
  deriving DecidableEq, Repr

structure StNode where
  iIndex : Int16
  iFlag : Service
  iStatus : Int16
  pcIPAddr : Text
  deriving DecidableEq, Repr

def StNode.isFor (node : StNode) (iIndex : Int16) (iFlag : Service) : Bool :=
  node.iIndex = iIndex && node.iFlag = iFlag

/-- The file and the list; the file is opened anew for every operation. -/
structure Agent where
  hosts : Text
  stListPtr : List StNode
  deriving DecidableEq, Repr

variable (deamons : ServiceDeamons) (agent : Agent) (row : StAllowUM)

def umGetPosFromList (iIndex : Int16) (stHeadPtr : List StNode) (iFlag : Service) :
    Option StNode :=
  stHeadPtr.find? (·.isFor iIndex iFlag)

/-- A row that is in the list already stays as it is. -/
def umInsertToList (stListPtr : List StNode) (pcIPAddr : Text) : List StNode :=
  match umGetPosFromList row.iIndex stListPtr row.iFlag with
  | some _ => stListPtr
  | none => ⟨row.iIndex, row.iFlag, row.iStatus, pcIPAddr⟩ :: stListPtr

def umDeleteFromList (stListPtr : List StNode) (iIndex : Int16) (iFlag : Service) :
    List StNode :=
  stListPtr.eraseP (·.isFor iIndex iFlag)

/-- The assignments through `modStruct`. -/
def updateNode (pcIPAddr : Text) : List StNode → List StNode
  | [] => []
  | node :: rest =>
      if node.isFor row.iIndex row.iFlag then
        { node with pcIPAddr := pcIPAddr, iStatus := row.iStatus } :: rest
      else node :: updateNode pcIPAddr rest

def nascFailure : Nat := 0
def nascSuccess : Nat := 1
def nascMandatoryMissing : Nat := 10

/-! The operations give the value they return. They are `none` where the code would write
behind an array. -/

def umAddRule : Option (Nat × Agent) :=
  let cBuff := dotted row.pcIpAddr
  let listed := umInsertToList row agent.stListPtr cBuff
  if row.iStatus = 2 then some (nascMandatoryMissing, { agent with stListPtr := listed })
  else
    match searchFile (names deamons row.iFlag cBuff) agent.hosts with
    | none => none
    | some (some _, _) => some (nascSuccess, { agent with stListPtr := listed })
    | some (none, file) =>
        if 0 < (deamons.name row.iFlag).length then
          let written := file.seekEnd.write (rule deamons row.iFlag cBuff ++ ['\n'])
          some (nascSuccess, ⟨written.content, listed⟩)
        else some (nascSuccess, { agent with stListPtr := listed })

/-- Back to the beginning of the line, and zeros over it and its newline. -/
def blank (cData : Text) (file : Descriptor) : Descriptor :=
  (file.seekCur (-(cData.length + 1 : Nat))).write (List.replicate (cData.length + 1) '\x00')

def umDelRule : Option (Nat × Agent) :=
  match umGetPosFromList row.iIndex agent.stListPtr row.iFlag with
  | none => some (nascFailure, agent)
  | some pstListModPtr =>
      match searchFile (names deamons row.iFlag pstListModPtr.pcIPAddr) agent.hosts with
      | none => none
      | some (none, _) => some (nascFailure, agent)
      | some (some cData, file) =>
          some (nascSuccess,
            { hosts := (blank cData file).content
              stListPtr :=
                if row.iStatus = 6 then umDeleteFromList agent.stListPtr row.iIndex row.iFlag
                else agent.stListPtr })

/-- The line is overwritten in place, whatever its length. -/
def rewrite (cData : Text) (file : Descriptor) (line : Text) : Descriptor :=
  ((blank cData file).seekCur (-(cData.length + 1 : Nat))).write (line ++ ['\n'])

/-- The last branch of `UM_ModifyRule`. -/
def rewriteRule (pstListModPtr : StNode) : Option (Nat × Agent) :=
  match searchFile (names deamons row.iFlag pstListModPtr.pcIPAddr) agent.hosts with
  | none => none
  | some (none, _) => some (0, agent)
  | some (some cData, file) =>
      some (1, { agent with
        hosts := (rewrite cData file (rule deamons row.iFlag (dotted row.pcIpAddr))).content })

def umModifyRule : Option (Nat × Agent) :=
  match umGetPosFromList row.iIndex agent.stListPtr row.iFlag with
  | none => some (nascFailure, agent)
  | some pstListModPtr =>
      let iResult :=
        if row.iStatus = 2 then umDelRule deamons agent row
        else if row.iStatus = 1 then umAddRule deamons agent row
        else rewriteRule deamons agent row pstListModPtr
      iResult.map fun done =>
        (nascSuccess,
          if done.1 = 1 then
            { done.2 with
              stListPtr := updateNode row (dotted row.pcIpAddr) done.2.stListPtr }
          else done.2)

end Rows

section Search

/-! What the reading loops find in a file of short lines. -/

variable {line rest : Text} {test : Text → Bool} {before after lines : List Text}

/-- Lines that `UM_GetLine` can read. -/
def Readable (lines : List Text) : Prop := ∀ line ∈ lines, line.length < maxChar ∧ '\n' ∉ line

theorem Readable.tail (readable : Readable (line :: lines)) : Readable lines :=
  fun other member => readable other (List.mem_cons_of_mem _ member)

theorem Readable.append (left : Readable before) (right : Readable after) :
    Readable (before ++ after) := by
  intro line member
  rcases List.mem_append.mp member with first | second
  · exact left line first
  · exact right line second

theorem readLoop_line (iNoOfChar : Nat) (short : iNoOfChar + line.length < maxChar)
    (single : '\n' ∉ line) :
    readLoop iNoOfChar (line ++ '\n' :: rest) =
      some (iNoOfChar + line.length + 1, false, line) := by
  induction line generalizing iNoOfChar with
  | nil => rw [List.nil_append, readLoop, if_pos rfl]; rfl
  | cons c line ih =>
      have other : c ≠ '\n' := fun newline => single (newline ▸ List.mem_cons_self)
      have later : '\n' ∉ line := fun member => single (List.mem_cons_of_mem _ member)
      rw [List.length_cons] at short
      rw [List.cons_append, readLoop, if_neg other, if_neg (by omega),
        ih (iNoOfChar + 1) (by omega) later]
      simp only [Option.map_some, List.length_cons]
      congr 2
      omega

theorem umGetLine_line (front rest : Text) (short : line.length < maxChar)
    (single : '\n' ∉ line) :
    umGetLine ⟨front ++ (line ++ '\n' :: rest), front.length⟩ =
      some (line.length + 1, line,
        ⟨front ++ (line ++ '\n' :: rest), (front ++ (line ++ ['\n'])).length⟩) := by
  rw [umGetLine]
  simp only [List.drop_left]
  rw [readLoop_line 0 (by omega) single]
  simp only [Option.map_some, Bool.false_eq_true, false_and, if_false, Nat.zero_add,
    Descriptor.seekSet, List.length_append, List.length_singleton]

theorem umGetLine_end (content : Text) :
    umGetLine ⟨content, content.length⟩ = some (0, [], ⟨content, content.length⟩) := by
  rw [umGetLine]
  simp only [List.drop_length]
  rfl

theorem findLine_read {front : Text} {fuel : Nat} (short : line.length < maxChar)
    (single : '\n' ∉ line) :
    findLine test (fuel + 1) ⟨front ++ unlines (line :: lines), front.length⟩ =
      if test (cString line) then
        some (some (cString line), ⟨front ++ unlines (line :: lines),
          (front ++ unlines [line]).length⟩)
      else findLine test fuel ⟨(front ++ unlines [line]) ++ unlines lines,
        (front ++ unlines [line]).length⟩ := by
  have next : (front ++ unlines [line]) ++ unlines lines = front ++ unlines (line :: lines) := by
    rw [List.append_assoc, ← unlines_append]
    rfl
  have read := umGetLine_line front (unlines lines) short single
  rw [← unlines_cons, ← unlines_singleton] at read
  rw [findLine, read, next]

theorem findLine_none (front : Text) {fuel : Nat} (readable : Readable lines)
    (enough : lines.length < fuel) (fails : ∀ line ∈ lines, test (cString line) = false) :
    findLine test fuel ⟨front ++ unlines lines, front.length⟩ =
      some (none, ⟨front ++ unlines lines, (front ++ unlines lines).length⟩) := by
  induction lines generalizing front fuel with
  | nil =>
      match fuel, enough with
      | fuel + 1, _ => rw [unlines_nil, List.append_nil, findLine, umGetLine_end]
  | cons line lines ih =>
      match fuel, enough with
      | fuel + 1, enough =>
          obtain ⟨short, single⟩ := readable line List.mem_cons_self
          rw [List.length_cons] at enough
          rw [findLine_read short single, fails line List.mem_cons_self,
            if_neg Bool.false_ne_true,
            ih _ readable.tail (by omega) fun other member =>
              fails other (List.mem_cons_of_mem _ member),
            List.append_assoc, ← unlines_append]
          rfl

theorem findLine_some (front : Text) {fuel : Nat} (readable : Readable (before ++ line :: after))
    (enough : before.length < fuel) (fails : ∀ other ∈ before, test (cString other) = false)
    (passes : test (cString line) = true) :
    findLine test fuel ⟨front ++ unlines (before ++ line :: after), front.length⟩ =
      some (some (cString line), ⟨front ++ unlines (before ++ line :: after),
        (front ++ unlines (before ++ [line])).length⟩) := by
  induction before generalizing front fuel with
  | nil =>
      match fuel, enough with
      | fuel + 1, _ =>
          obtain ⟨short, single⟩ := readable line List.mem_cons_self
          rw [List.nil_append, findLine_read short single, if_pos passes]
          rfl
  | cons first before ih =>
      match fuel, enough with
      | fuel + 1, enough =>
          obtain ⟨short, single⟩ := readable first List.mem_cons_self
          rw [List.length_cons] at enough
          rw [List.cons_append, findLine_read short single, fails first List.mem_cons_self,
            if_neg Bool.false_ne_true,
            ih _ readable.tail (by omega) fun other member =>
              fails other (List.mem_cons_of_mem _ member),
            List.append_assoc, ← unlines_append, List.append_assoc, ← unlines_append]
          rfl

theorem length_le_unlines (lines : List Text) : lines.length ≤ (unlines lines).length := by
  induction lines with
  | nil => exact Nat.le_refl _
  | cons line lines ih =>
      rw [unlines_cons, List.length_cons, List.length_append, List.length_cons]
      omega

theorem searchFile_none (readable : Readable lines)
    (fails : ∀ line ∈ lines, test (cString line) = false) :
    searchFile test (unlines lines) = some (none, ⟨unlines lines, (unlines lines).length⟩) :=
  findLine_none [] readable (Nat.lt_succ_of_le (length_le_unlines lines)) fails

theorem searchFile_some (readable : Readable (before ++ line :: after))
    (fails : ∀ other ∈ before, test (cString other) = false)
    (passes : test (cString line) = true) :
    searchFile test (unlines (before ++ line :: after)) =
      some (some (cString line),
        ⟨unlines (before ++ line :: after), (unlines (before ++ [line])).length⟩) := by
  apply findLine_some [] readable _ fails passes
  have enough := length_le_unlines (before ++ line :: after)
  rw [List.length_append, List.length_cons] at enough
  omega

end Search

section Runs

inductive Call where
  | add (row : StAllowUM)
  | modify (row : StAllowUM)
  | del (row : StAllowUM)
  deriving DecidableEq, Repr

variable (deamons : ServiceDeamons)

def step (agent : Agent) : Call → Option Agent
  | .add row => (umAddRule deamons agent row).map Prod.snd
  | .modify row => (umModifyRule deamons agent row).map Prod.snd
  | .del row => (umDelRule deamons agent row).map Prod.snd

def run (agent : Agent) (calls : List Call) : Option Agent :=
  calls.foldlM (step deamons) agent

end Runs

end EveAgent.TcpWrapper
