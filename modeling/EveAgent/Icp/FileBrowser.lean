import EveAgent.Icp.Stream
import EveAgent.Strtok

namespace EveAgent.Icp.Browser

section Parameters

/-- `gcPktDelimiter` -/
def gcPktDelimiter (c : Char) : Bool := c == '%'

/-- `gEqCmdDelimiter` -/
def gEqCmdDelimiter (c : Char) : Bool := c == '$'

/-- `MAX_PARAMS` -/
def maxParams : Nat := 20

/-- The loop of `ICP_ExtractParams`. -/
def extractLoop : Nat → Text → List Text
  | 0, _ => []
  | fuel + 1, pcTempString =>
    match strtok gcPktDelimiter pcTempString with
    | none => []
    | some (pcParam, pcTempString) => pcParam :: extractLoop fuel pcTempString

/-- `ICP_ExtractParams`: the parameters and `iNoOfParam`. When there is no token, the first entry is
the null pointer and it is counted. `none` when entries are written behind the array. -/
def icpExtractParams (pcParamList : Text) : Option (List Text × Nat) :=
  let params :=
    match strtok gcPktDelimiter pcParamList with
    | none => []
    | some (pcParam, pcTempString) => pcParam :: extractLoop pcTempString.length pcTempString
  let iNoOfParam := max 1 params.length
  if iNoOfParam ≤ maxParams then some (params, iNoOfParam) else none

theorem extractLoop_words (fuel : Nat) (text : Text) (enough : text.length ≤ fuel) :
    extractLoop fuel text = wordsOf gcPktDelimiter text := by
  induction fuel generalizing text with
  | zero =>
    have empty : text = [] := List.eq_nil_of_length_eq_zero (Nat.le_zero.mp enough)
    rw [empty]
    rfl
  | succ fuel ih =>
    rw [extractLoop]
    cases next : strtok gcPktDelimiter text with
    | none => exact (strtok_none.mp next).symm
    | some pair =>
      have shorter := strtok_shorter next
      simp only
      rw [ih pair.2 (by omega), strtok_some next]

/-- The parameters are the fields of the data that are not empty, and they stay inside the array
when there are at most twenty of them. -/
theorem extract_fields (pcParamList : Text) :
    icpExtractParams pcParamList =
      if (wordsOf gcPktDelimiter pcParamList).length ≤ maxParams then
        some (wordsOf gcPktDelimiter pcParamList, max 1 (wordsOf gcPktDelimiter pcParamList).length)
      else none := by
  have words : (match strtok gcPktDelimiter pcParamList with
      | none => []
      | some (pcParam, pcTempString) => pcParam :: extractLoop pcTempString.length pcTempString) =
        wordsOf gcPktDelimiter pcParamList := by
    cases next : strtok gcPktDelimiter pcParamList with
    | none => exact (strtok_none.mp next).symm
    | some pair =>
      simp only
      rw [extractLoop_words _ _ (Nat.le_refl _), strtok_some next]
  have bound : max 1 (wordsOf gcPktDelimiter pcParamList).length ≤ maxParams ↔
      (wordsOf gcPktDelimiter pcParamList).length ≤ maxParams := by
    simp only [maxParams]
    omega
  unfold icpExtractParams
  simp only [words, bound]

end Parameters

section Templates

structure StEquivalentCommand where
  pcEquiCommand : Text
  iNoOfParmNeeded : Nat

/-- The table of the builds other than AIX. -/
def gpcEquivalentCmd : List StEquivalentCommand :=
  [⟨"ls".toList, 0⟩, ⟨"ls -l $".toList, 1⟩, ⟨"cp $ $".toList, 2⟩, ⟨"./$".toList, 1⟩,
    ⟨"mv $ $".toList, 2⟩, ⟨"mkdir $".toList, 1⟩, ⟨"tar -cvf $/$ $".toList, 3⟩,
    ⟨"chmod g$,u$ $".toList, 3⟩, ⟨"".toList, 1⟩,
    ⟨"useradd -u $ -p $ -G $ -c $ -d $ $".toList, 6⟩,
    ⟨"usermod -u $ -p $ -G $ -c $ $".toList, 5⟩, ⟨"userdel -r $".toList, 1⟩, ⟨"".toList, 1⟩,
    ⟨"groupadd -g $ $".toList, 2⟩, ⟨"groupmod -g $ $".toList, 2⟩, ⟨"groupdel  $".toList, 1⟩]

def RUN : Int := 3
def CRTDIR : Int := 5

/-- The pieces of the template, each with the next parameter; there is one for each piece of the
templates of the table, behind them lies other memory. -/
def formLoop : Nat → Text → List Text → Option Text
  | 0, _, _ => some []
  | fuel + 1, pcRemainingPart, ppcParamList =>
    match strtok gEqCmdDelimiter pcRemainingPart, ppcParamList with
    | none, _ => some []
    | some _, [] => none
    | some (pcString, pcRemainingPart), param :: ppcParamList =>
      (formLoop fuel pcRemainingPart ppcParamList).map (pcString ++ param ++ ·)

/-- `ICP_FormCmd`: what it writes to the empty `pcCommandToExec`. `none` when it reads outside of
the table, or appends the null pointer to which the first `strtok_r` comes in an empty template. -/
def icpFormCmd (granted : Bool) (ppcParamList : List Text) (iCommandType : Int) : Option Text :=
  match gpcEquivalentCmd[iCommandType.toNat]? with
  | none => none
  | some command =>
    if iCommandType < 0 then none
    else if command.iNoOfParmNeeded ≠ ppcParamList.length then some []
    else if ppcParamList = [] then some command.pcEquiCommand
    else if granted = false then some []
    else if strtok gEqCmdDelimiter command.pcEquiCommand = none then none
    else formLoop command.pcEquiCommand.length command.pcEquiCommand ppcParamList

/-- The template with each `$` replaced by the next parameter. -/
def instantiate : Text → List Text → Text
  | [], _ => []
  | c :: template, params =>
    if gEqCmdDelimiter c then params.headD [] ++ instantiate template params.tail
    else c :: instantiate template params

/-- The template of these pieces, each of which has a `$` behind it. -/
def templateOf (pieces : List Text) : Text := (pieces.map (· ++ ['$'])).flatten

def IsPiece (piece : Text) : Prop := piece ≠ [] ∧ ∀ c ∈ piece, gEqCmdDelimiter c = false

instance (piece : Text) : Decidable (IsPiece piece) :=
  inferInstanceAs (Decidable (piece ≠ [] ∧ ∀ c ∈ piece, gEqCmdDelimiter c = false))

theorem templateOf_cons (piece : Text) (pieces : List Text) :
    templateOf (piece :: pieces) = piece ++ '$' :: templateOf pieces := by
  simp [templateOf]

theorem instantiate_piece (piece rest : Text) (params : List Text)
    (plain : ∀ c ∈ piece, gEqCmdDelimiter c = false) :
    instantiate (piece ++ rest) params = piece ++ instantiate rest params := by
  induction piece with
  | nil => rfl
  | cons c piece ih =>
    have later := ih fun other member => plain other (List.mem_cons_of_mem _ member)
    rw [List.cons_append, instantiate, plain c List.mem_cons_self, later]
    rfl

theorem strtok_piece (piece rest : Text) (isPiece : IsPiece piece) :
    strtok gEqCmdDelimiter (piece ++ '$' :: rest) = some (piece, rest) := by
  obtain ⟨nonempty, plain⟩ := isPiece
  cases piece with
  | nil => exact absurd rfl nonempty
  | cons c piece =>
    have kept : ∀ other ∈ c :: piece, (!gEqCmdDelimiter other) = true := by
      intro other member
      rw [plain other member]
      rfl
    have front : ((c :: piece) ++ '$' :: rest).takeWhile (fun c => !gEqCmdDelimiter c) =
        c :: piece := by
      rw [List.takeWhile_append_of_pos kept]
      simp [gEqCmdDelimiter]
    have behind : ((c :: piece) ++ '$' :: rest).dropWhile (fun c => !gEqCmdDelimiter c) =
        '$' :: rest := by
      rw [List.dropWhile_append_of_pos kept]
      simp [gEqCmdDelimiter]
    rw [strtok, List.cons_append,
      List.dropWhile_cons_of_neg (by rw [plain c List.mem_cons_self]; exact Bool.false_ne_true)]
    simp only
    rw [← List.cons_append, front, behind]
    rfl

theorem formLoop_pieces (pieces params : List Text) (all : ∀ piece ∈ pieces, IsPiece piece)
    (as : params.length = pieces.length) (fuel : Nat) (enough : pieces.length ≤ fuel) :
    formLoop fuel (templateOf pieces) params = some (instantiate (templateOf pieces) params) := by
  induction pieces generalizing params fuel with
  | nil =>
    cases fuel with
    | zero => rfl
    | succ fuel => rfl
  | cons piece pieces ih =>
    cases fuel with
    | zero => exact absurd enough (by simp)
    | succ fuel =>
      cases params with
      | nil => exact absurd as (by simp)
      | cons param params =>
        have isPiece := all piece List.mem_cons_self
        have later := ih params
          (fun other member => all other (List.mem_cons_of_mem _ member))
          (by simpa using as) fuel (by simpa using enough)
        calc
          formLoop (fuel + 1) (templateOf (piece :: pieces)) (param :: params)
          _ = (formLoop fuel (templateOf pieces) params).map (piece ++ param ++ ·) := by
            simp only [templateOf_cons, formLoop, strtok_piece piece _ isPiece]
          _ = some (piece ++ param ++ instantiate (templateOf pieces) params) := by
            rw [later]
            rfl
          _ = some (instantiate (templateOf (piece :: pieces)) (param :: params)) := by
            rw [templateOf_cons, instantiate_piece piece _ _ isPiece.2, instantiate,
              List.append_assoc]
            rfl

/-- The template consists of as many pieces as the command needs parameters. -/
def StEquivalentCommand.Regular (command : StEquivalentCommand) : Prop :=
  ∃ pieces, command.pcEquiCommand = templateOf pieces ∧
    pieces.length = command.iNoOfParmNeeded ∧ ∀ piece ∈ pieces, IsPiece piece

/-- The pieces of the templates, in the order of the table. -/
def pieceTable : List (List Text) :=
  [[], ["ls -l ".toList], ["cp ".toList, [' ']], ["./".toList], ["mv ".toList, [' ']],
    ["mkdir ".toList], ["tar -cvf ".toList, ['/'], [' ']],
    ["chmod g".toList, ",u".toList, [' ']], [],
    ["useradd -u ".toList, " -p ".toList, " -G ".toList, " -c ".toList, " -d ".toList, [' ']],
    ["usermod -u ".toList, " -p ".toList, " -G ".toList, " -c ".toList, [' ']],
    ["userdel -r ".toList], [], ["groupadd -g ".toList, [' ']], ["groupmod -g ".toList, [' ']],
    ["groupdel  ".toList]]

theorem pieces_regular : ∀ pieces ∈ pieceTable, ∀ piece ∈ pieces, IsPiece piece := by
  simp [pieceTable, IsPiece, gEqCmdDelimiter]

theorem table_pieces : ∀ entry ∈ gpcEquivalentCmd.zip pieceTable,
    entry.1.iNoOfParmNeeded ≠ 0 → entry.1.pcEquiCommand ≠ [] →
      entry.1.pcEquiCommand = templateOf entry.2 ∧ entry.2.length = entry.1.iNoOfParmNeeded := by
  decide +kernel

theorem table_regular (command : StEquivalentCommand) (member : command ∈ gpcEquivalentCmd)
    (needs : command.iNoOfParmNeeded ≠ 0) :
    command.pcEquiCommand = [] ∨ command.Regular := by
  by_cases empty : command.pcEquiCommand = []
  · exact Or.inl empty
  · obtain ⟨index, inside, is⟩ := List.mem_iff_getElem.mp member
    have both : index < (gpcEquivalentCmd.zip pieceTable).length := inside
    have entry := List.getElem_mem both
    rw [List.getElem_zip, is] at entry
    obtain ⟨template, count⟩ := table_pieces _ entry needs empty
    exact Or.inr ⟨_, template, count, pieces_regular _ (List.of_mem_zip entry).2⟩

theorem table_bare : ∀ command ∈ gpcEquivalentCmd, command.iNoOfParmNeeded = 0 →
    command.pcEquiCommand = "ls".toList := by
  decide

theorem templateOf_length (pieces : List Text) : pieces.length ≤ (templateOf pieces).length := by
  induction pieces with
  | nil => exact Nat.le_refl _
  | cons piece pieces ih =>
    rw [templateOf_cons, List.length_cons, List.length_append, List.length_cons]
    omega

theorem command_formed (params : List Text) (iCommandType : Nat)
    (command : StEquivalentCommand) (listed : gpcEquivalentCmd[iCommandType]? = some command) :
    icpFormCmd true params iCommandType =
      if command.iNoOfParmNeeded ≠ params.length then some []
      else if command.pcEquiCommand = [] then none
      else some (instantiate command.pcEquiCommand params) := by
  have member := List.mem_of_getElem? listed
  have natural : ¬(iCommandType : Int) < 0 := by omega
  rw [icpFormCmd, Int.toNat_natCast, listed]
  simp only
  rw [if_neg natural]
  by_cases needed : command.iNoOfParmNeeded = params.length
  · rw [if_neg (not_not.mpr needed), if_neg (not_not.mpr needed)]
    by_cases bare : params = []
    · have ls := table_bare command member (by rw [needed, bare]; rfl)
      rw [if_pos bare, ls, bare]
      decide
    · have needs : command.iNoOfParmNeeded ≠ 0 := by
        rw [needed]
        simpa using bare
      rw [if_neg bare, if_neg Bool.noConfusion]
      rcases table_regular command member needs with empty | ⟨pieces, template, count, all⟩
      · rw [empty]
        rfl
      · have formed := formLoop_pieces pieces params all (needed.symm.trans count.symm)
          (templateOf pieces).length (templateOf_length pieces)
        cases pieces with
        | nil => exact absurd count.symm needs
        | cons piece pieces =>
          have begun : strtok gEqCmdDelimiter (templateOf (piece :: pieces)) ≠ none := by
            rw [templateOf_cons, strtok_piece piece _ (all piece List.mem_cons_self)]
            exact nofun
          have filled : templateOf (piece :: pieces) ≠ [] := by
            simp [templateOf_cons]
          rw [template, if_neg begun, if_neg filled, formed]
  · rw [if_pos needed, if_pos needed]

end Templates

section Session

variable {D : Type*}

/-- What a turn of the loop meets: what `read` returns and the memory behind `ucData`, which
allocations are granted (`scratch`, `params`, `command`, `template`), whether `getcwd` returns the
name of the directory, and where the calls of `chdir` lead: to the first parameter, to the second
one, and back. -/
structure BrowserTurn (D : Type*) where
  read : Read
  behind : Bytes
  scratch : Bool
  params : Bool
  command : Bool
  template : Bool
  getcwd : Bool
  first : Option D
  second : Option D
  back : Option D
  deriving DecidableEq

/-- `executed` records the commands passed to `ICP_ExecCommand`, with the directory. -/
structure BrowserSession (D : Type*) where
  directory : D
  iFirstTime : Bool
  pucScratchForCmd : Option Buffer
  iTotalCmdSize : Int
  iNoOfParam : Nat
  executed : List (D × Text)
  ended : Bool
  deriving DecidableEq

def BrowserSession.start (home : D) : BrowserSession D := ⟨home, true, none, 0, 0, [], false⟩

/-- `MAX_OPT` -/
def maxOpt : Int := 15

def BrowserTurn.chdirBack (turn : BrowserTurn D) (directory : D) : D :=
  if turn.getcwd then turn.back.getD directory else directory

/-- The buffer of a request is freed. -/
def BrowserSession.freed (s : BrowserSession D) : BrowserSession D :=
  { s with pucScratchForCmd := none, iTotalCmdSize := 0 }

/-- The directory in which the command is executed, and its parameters: `RUN` and `CRTDIR` name one
directory, the others two. Without the second one the request is given up. -/
def BrowserTurn.target (turn : BrowserTurn D) (entered : D) (params : List Text)
    (iCommandType : Int) : Option (D × List Text) :=
  if iCommandType ≠ RUN ∧ iCommandType ≠ CRTDIR then
    match params with
    | [] => none
    | _ :: params => turn.second.map fun directory => (directory, params)
  else some (entered, params)

/-- From `ICP_FormCmd` to the end of the turn. -/
def BrowserSession.exec (s : BrowserSession D) (turn : BrowserTurn D) (directory : D)
    (params : List Text) (iCommandType : Int) : Option (BrowserSession D) :=
  match icpFormCmd turn.template params iCommandType with
  | none => none
  | some pcCommandToExec =>
    if pcCommandToExec.length < s.iTotalCmdSize + maxOpt then
      some { s.freed with
        directory := turn.chdirBack directory
        executed := s.executed ++ [(directory, pcCommandToExec)] }
    else none

/-- A whole request, from `ICP_ExtractParams` on. -/
def BrowserSession.request (s : BrowserSession D) (turn : BrowserTurn D) (text : Text)
    (iCommandType : Int) : Option (BrowserSession D) :=
  if turn.params = false then
    -- `iNoOfParam` is that of the request before, the list is the null pointer
    if s.iNoOfParam = 0 ∨ turn.command = false then some s.freed else none
  else
    match icpExtractParams text with
    | none => none
    | some (params, iNoOfParam) =>
      let s := { s with iNoOfParam }
      if turn.command = false then some s.freed
      else
        match params, turn.first with
        | [], _ => some s.freed
        | _ :: _, none => some s.freed
        | _ :: params, some directory =>
          match turn.target directory params iCommandType with
          | none => some { s.freed with directory }
          | some (directory, params) => s.exec turn directory params iCommandType

/-- What is read: a part of a request, or the last one. -/
inductive Received (D : Type*) where
  | waiting (s : BrowserSession D)
  | complete (s : BrowserSession D) (text : Text) (iCommandType : Int)

/-- The data of the packet is appended. -/
def BrowserSession.append (s : BrowserSession D) (buffer : Buffer) (packet : StCmdPacket)
    (behind : Bytes) : Option (Received D) :=
  if buffer.text.length + (copied packet behind).length < buffer.size ∧
      0 < s.iTotalCmdSize ∧ s.iTotalCmdSize ≤ buffer.size then
    let text := (buffer.text ++ copied packet behind).take (s.iTotalCmdSize - 1).toNat
    let s := { s with pucScratchForCmd := some ⟨text, buffer.size⟩ }
    if packet.iLastPkt = 1 then some (.complete s (characters text) packet.iCommandId)
    else some (.waiting s)
  else none

def BrowserSession.receive (s : BrowserSession D) (turn : BrowserTurn D) : Option (Received D) :=
  match turn.read with
  | .chunk bytes =>
    if 0 < bytes.length ∧ bytes.length ≤ packetSize ∧ s.ended = false then
      let packet := icpConvertCmdToHostForm (received bytes)
      let s := { s with iFirstTime := false }
      let total := i32 (s.iTotalCmdSize + packet.iDataLen)
      if packet.iDataLen = 0 then some (.waiting s)
      else
        match s.pucScratchForCmd, turn.scratch with
        | none, true =>
          { s with iTotalCmdSize := i32 (total + 1) }.append
            ⟨[], sizeT (i32 (total + 1))⟩ packet
            turn.behind
        | none, false => some (.waiting { s with iTotalCmdSize := i32 (total + 1), ended := true })
        | some buffer, true =>
          { s with iTotalCmdSize := total }.append ⟨buffer.text, sizeT total⟩ packet turn.behind
        -- a failed `realloc` leaves the null pointer to `strncat`
        | some _, false => none
    else none
  | .interrupted => if s.iFirstTime || s.ended then none else some (.waiting s)
  | .failed => if s.iFirstTime || s.ended then none else some (.waiting { s with ended := true })
  | .closed => if s.iFirstTime || s.ended then none else some (.waiting { s with ended := true })

/-- A turn of the loop of `ICP_ProcessFileBrwsCmd`; the packet of the first one was read by
`ICP_ProcessRequest`. -/
def BrowserSession.step (s : BrowserSession D) (turn : BrowserTurn D) : Option (BrowserSession D) :=
  match s.receive turn with
  | none => none
  | some (.waiting s) => some s
  | some (.complete s text iCommandType) => s.request turn text iCommandType

/-- The first `chdir` of the request leads to `directory`; `params` are the parameters behind it. -/
def BrowserTurn.Enters (turn : BrowserTurn D) (text : Text) (params : List Text) (directory : D) :
    Prop :=
  turn.params = true ∧ turn.command = true ∧ turn.first = some directory ∧
    ∃ param iNoOfParam, icpExtractParams text = some (param :: params, iNoOfParam)

/-- A request that enters its first directory comes back: the command is executed and the last
`chdir` leads home, or the directory entered was that of the session. -/
def RequestComesBack (home : D) (turn : BrowserTurn D) (text : Text) (iCommandType : Int) : Prop :=
  ∀ params directory, turn.Enters text params directory →
    match turn.target directory params iCommandType with
    | none => directory = home
    | some (directory, _) => turn.chdirBack directory = home

def ComesBack (home : D) (s : BrowserSession D) (turn : BrowserTurn D) : Prop :=
  ∀ u text iCommandType, s.receive turn = some (.complete u text iCommandType) →
    RequestComesBack home turn text iCommandType

/-- A template of the table with as many parameters as it needs, or no command at all. -/
def WellMade (text : Text) : Prop :=
  text = [] ∨ ∃ command ∈ gpcEquivalentCmd, ∃ params : List Text,
    params.length = command.iNoOfParmNeeded ∧ [] ∉ params ∧
      text = instantiate command.pcEquiCommand params

variable {home : D} {s t : BrowserSession D} {turn : BrowserTurn D} {text : Text}
  {params others : List Text} {directory other : D} {iCommandType : Int}

theorem BrowserTurn.Enters.unique (enters : turn.Enters text params directory)
    (again : turn.Enters text others other) : params = others ∧ directory = other := by
  obtain ⟨_, _, first, _, _, extracted⟩ := enters
  obtain ⟨_, _, first', _, _, extracted'⟩ := again
  rw [first] at first'
  rw [extracted] at extracted'
  cases first'
  cases extracted'
  exact ⟨rfl, rfl⟩

theorem icpFormCmd_wellMade {granted : Bool} {formed : Text} (words : [] ∉ params)
    (is : icpFormCmd granted params iCommandType = some formed) : WellMade formed := by
  cases listed : gpcEquivalentCmd[iCommandType.toNat]? with
  | none =>
    rw [icpFormCmd, listed] at is
    cases is
  | some command =>
    have member := List.mem_of_getElem? listed
    by_cases natural : iCommandType < 0
    · rw [icpFormCmd, listed] at is
      simp only [if_pos natural] at is
      cases is
    · cases granted with
      | true =>
        have number : ((iCommandType.toNat : Nat) : Int) = iCommandType := by omega
        have made := command_formed params _ command listed
        rw [number, is] at made
        split at made
        · exact Or.inl (Option.some.inj made)
        · split at made
          · cases made
          · exact Or.inr ⟨command, member, params, by omega, words, Option.some.inj made⟩
      | false =>
        rw [icpFormCmd, listed] at is
        simp only [if_neg natural] at is
        split at is
        · exact Or.inl (Option.some.inj is).symm
        · split at is
          · rename_i needed bare
            refine Or.inr ⟨command, member, params, by omega, words, ?_⟩
            have ls := table_bare command member (by rw [not_not.mp needed, bare]; rfl)
            rw [← Option.some.inj is, ls, bare]
            decide
          · exact Or.inl (Option.some.inj is).symm

theorem append_cases {buffer : Buffer} {packet : StCmdPacket} {behind : Bytes}
    {result : Received D} (appended : s.append buffer packet behind = some result) :
    ∃ t, (result = .waiting t ∨ ∃ text iCommandType, result = .complete t text iCommandType) ∧
      t.directory = s.directory ∧ t.executed = s.executed := by
  unfold BrowserSession.append at appended
  split at appended
  · simp only at appended
    split at appended
    · cases appended
      exact ⟨_, Or.inr ⟨_, _, rfl⟩, rfl, rfl⟩
    · cases appended
      exact ⟨_, Or.inl rfl, rfl, rfl⟩
  · cases appended

theorem receive_cases {result : Received D} (received : s.receive turn = some result) :
    ∃ t, (result = .waiting t ∨ ∃ text iCommandType, result = .complete t text iCommandType) ∧
      t.directory = s.directory ∧ t.executed = s.executed := by
  unfold BrowserSession.receive at received
  split at received
  · split at received
    · simp only at received
      split at received
      · cases received
        exact ⟨_, Or.inl rfl, rfl, rfl⟩
      · split at received
        · have appended := append_cases received
          exact appended
        · cases received
          exact ⟨_, Or.inl rfl, rfl, rfl⟩
        · have appended := append_cases received
          exact appended
        · cases received
    · cases received
  all_goals
    split at received
    · cases received
    · cases received
      exact ⟨_, Or.inl rfl, rfl, rfl⟩

/-- What a request does: it is given up before the first `chdir`, or behind it, or its command is
executed. -/
theorem request_cases (requested : s.request turn text iCommandType = some t) :
    (t.directory = s.directory ∧ t.executed = s.executed ∧
        ∀ params directory, ¬ turn.Enters text params directory) ∨
      ∃ params directory, turn.Enters text params directory ∧
        match turn.target directory params iCommandType with
        | none => t.directory = directory ∧ t.executed = s.executed
        | some (place, params) => t.directory = turn.chdirBack place ∧
            ∃ formed, icpFormCmd turn.template params iCommandType = some formed ∧
              t.executed = s.executed ++ [(place, formed)] := by
  unfold BrowserSession.request at requested
  by_cases list : turn.params = false
  · rw [if_pos list] at requested
    split at requested
    · cases requested
      refine Or.inl ⟨rfl, rfl, ?_⟩
      rintro _ _ ⟨granted, -⟩
      exact absurd (list.symm.trans granted) nofun
    · cases requested
  · rw [if_neg list] at requested
    cases extracted : icpExtractParams text with
    | none =>
      rw [extracted] at requested
      cases requested
    | some pair =>
      obtain ⟨params, iNoOfParam⟩ := pair
      rw [extracted] at requested
      simp only at requested
      cases room : turn.command with
      | false =>
        rw [room, if_pos rfl] at requested
        cases requested
        refine Or.inl ⟨rfl, rfl, ?_⟩
        rintro _ _ ⟨-, granted, -⟩
        exact absurd (room.symm.trans granted) nofun
      | true =>
        rw [room, if_neg nofun] at requested
        cases params with
        | nil =>
          cases requested
          refine Or.inl ⟨rfl, rfl, ?_⟩
          rintro _ _ ⟨-, -, -, _, _, other⟩
          rw [extracted] at other
          cases other
        | cons param params =>
          cases entered : turn.first with
          | none =>
            rw [entered] at requested
            cases requested
            refine Or.inl ⟨rfl, rfl, ?_⟩
            rintro _ _ ⟨-, -, other, -⟩
            exact absurd (entered.symm.trans other) nofun
          | some directory =>
            rw [entered] at requested
            simp only at requested
            refine Or.inr ⟨params, directory, ⟨Bool.not_eq_false _ ▸ list, room, entered,
              param, iNoOfParam, extracted⟩, ?_⟩
            cases aim : turn.target directory params iCommandType with
            | none =>
              rw [aim] at requested
              cases requested
              exact ⟨rfl, rfl⟩
            | some target =>
              rw [aim] at requested
              simp only [BrowserSession.exec] at requested
              split at requested
              · cases requested
              · rename_i formed is
                split at requested
                · cases requested
                  exact ⟨rfl, formed, is, rfl⟩
                · cases requested

theorem request_comesBack (inside : s.directory = home)
    (requested : s.request turn text iCommandType = some t) :
    t.directory = home ↔ RequestComesBack home turn text iCommandType := by
  rcases request_cases requested with ⟨same, -, never⟩ | ⟨params, directory, enters, done⟩
  · rw [same]
    exact iff_of_true inside fun _ _ enters => absurd enters (never _ _)
  · have only : RequestComesBack home turn text iCommandType ↔
        match turn.target directory params iCommandType with
        | none => directory = home
        | some (directory, _) => turn.chdirBack directory = home := by
      constructor
      · intro all
        exact all params directory enters
      · intro here others other again
        obtain ⟨rfl, rfl⟩ := enters.unique again
        exact here
    rw [only]
    split at done
    · rw [done.1]
    · rw [done.1]

/-- A turn either leaves directory and commands alone, or it completes a request. -/
theorem step_cases (stepped : s.step turn = some t) :
    (t.directory = s.directory ∧ t.executed = s.executed ∧
        ∀ u text iCommandType, s.receive turn ≠ some (.complete u text iCommandType)) ∨
      ∃ u text iCommandType, s.receive turn = some (.complete u text iCommandType) ∧
        u.directory = s.directory ∧ u.executed = s.executed ∧
          u.request turn text iCommandType = some t := by
  unfold BrowserSession.step at stepped
  cases received : s.receive turn with
  | none =>
    rw [received] at stepped
    cases stepped
  | some result =>
    rw [received] at stepped
    obtain ⟨u, rfl | ⟨text, kind, rfl⟩, same, kept⟩ := receive_cases received
    · cases stepped
      refine Or.inl ⟨same, kept, ?_⟩
      intro _ _ _ other
      cases other
    · exact Or.inr ⟨u, text, kind, rfl, same, kept, stepped⟩

theorem step_comesBack (inside : s.directory = home) (stepped : s.step turn = some t) :
    t.directory = home ↔ ComesBack home s turn := by
  rcases step_cases stepped with ⟨same, -, never⟩ | ⟨u, text, kind, received, same, -, requested⟩
  · rw [same]
    exact iff_of_true inside fun u text kind received => absurd received (never u text kind)
  · rw [request_comesBack (same.trans inside) requested]
    constructor
    · intro back _ _ _ is
      rw [received] at is
      cases is
      exact back
    · intro all
      exact all u text kind received

/-- A session is in the directory it started in at the beginning of every turn exactly if every
request so far has come back. -/
theorem directory_kept_iff (home : D) (turns : List (BrowserTurn D)) (s : BrowserSession D)
    (executed : Machine.run BrowserSession.step (.start home) turns = some s) :
    (∀ front t, front <+: turns →
        Machine.run BrowserSession.step (.start home) front = some t → t.directory = home) ↔
      Machine.Along BrowserSession.step (ComesBack home) (.start home) turns :=
  Machine.always_iff_along (fun _ _ _ inside stepped => step_comesBack inside stepped) rfl executed

/-- `ls -l` for the parameters `a`, `b` and `c`. -/
def listRequest : Record := ⟨1, true, [97, 37, 98, 37, 99], List.replicate 95 0, by decide⟩

/-- A turn with this request; the second `chdir` leads to `second`. -/
def listTurn (second : Option Nat) : BrowserTurn Nat :=
  ⟨.chunk listRequest.encode, [], true, true, true, true, true, some 1, second, some 0⟩

theorem directory_kept_iff_missing :
    ¬ Machine.Along BrowserSession.step (ComesBack 0) (.start 0) [listTurn none] := by
  have computed : (Machine.run BrowserSession.step (.start 0) [listTurn none]).any
      (fun s => decide (s.directory = 1)) = true := by decide +kernel
  obtain ⟨s, executed, left⟩ := Machine.run_of_any computed
  intro all
  have kept := (directory_kept_iff 0 [listTurn none] s executed).mpr all _ s
    (List.prefix_refl _) executed
  rw [left] at kept
  cases kept

theorem BrowserTurn.Enters.words (enters : turn.Enters text params directory) : [] ∉ params := by
  obtain ⟨_, _, _, param, _, extracted⟩ := enters
  rw [extract_fields] at extracted
  split at extracted
  · intro member
    have words := congrArg Prod.fst (Option.some.inj extracted)
    simp only at words
    exact wordsOf_nonempty (words ▸ List.mem_cons_of_mem _ member) rfl
  · cases extracted

theorem target_words {place : D} (words : [] ∉ params)
    (aim : turn.target directory params iCommandType = some (place, others)) : [] ∉ others := by
  unfold BrowserTurn.target at aim
  split at aim
  · split at aim
    · cases aim
    · obtain ⟨_, _, is⟩ := Option.map_eq_some_iff.mp aim
      cases is
      exact fun member => words (List.mem_cons_of_mem _ member)
  · cases aim
    exact words

theorem step_wellMade (made : ∀ entry ∈ s.executed, WellMade entry.2)
    (stepped : s.step turn = some t) : ∀ entry ∈ t.executed, WellMade entry.2 := by
  rcases step_cases stepped with ⟨-, same, -⟩ | ⟨u, text, kind, -, -, same, requested⟩
  · rw [same]
    exact made
  · rcases request_cases requested with ⟨-, kept, -⟩ | ⟨params, directory, enters, done⟩
    · rw [kept, same]
      exact made
    · split at done
      · rw [done.2, same]
        exact made
      · rename_i aim
        obtain ⟨-, formed, is, added⟩ := done
        rw [added, same]
        intro entry member
        rcases List.mem_append.mp member with earlier | new
        · exact made entry earlier
        · rw [List.mem_singleton.mp new]
          exact icpFormCmd_wellMade (target_words enters.words aim) is

/-- Whatever a session reads and whatever fails, each text that it executes is empty, or a template
of the table with as many parameters as it needs, none of them empty. -/
theorem executed_wellMade (home : D) (turns : List (BrowserTurn D)) (s : BrowserSession D)
    (executed : Machine.run BrowserSession.step (.start home) turns = some s) :
    ∀ entry ∈ s.executed, WellMade entry.2 :=
  Machine.run_invariant' (fun _ _ _ made stepped => step_wellMade made stepped)
    (fun _ member => absurd member List.not_mem_nil) executed

theorem executed_wellMade_list :
    ∃ s, Machine.run BrowserSession.step (.start 0) [listTurn (some 2)] = some s ∧
      s.executed = [(2, "ls -l c".toList)] ∧ ∀ entry ∈ s.executed, WellMade entry.2 := by
  have computed : (Machine.run BrowserSession.step (.start 0) [listTurn (some 2)]).any
      (fun s => decide (s.executed = [(2, "ls -l c".toList)])) = true := by decide +kernel
  obtain ⟨s, executed, text⟩ := Machine.run_of_any computed
  exact ⟨s, executed, text, executed_wellMade 0 _ s executed⟩

end Session

end EveAgent.Icp.Browser
