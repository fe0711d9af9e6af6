import EveAgent.CStdio
import EveAgent.AppMetering.Sweep

namespace EveAgent.AppMetering

section Model

/-- A directory below `/proc`: its name, and what can be read of the status file in it. -/
structure ProcEntry where
  d_name : Text
  status : Option Text
  deriving DecidableEq, Repr

/-- What the agent finds around it. The check that is made as the n-th one of a sweep finds
its own `/proc`. -/
structure System where
  proc : Nat → Option (List ProcEntry)
  getpwuid : Int → Option Text
  pcAlertIpAddr : Text
  iAlertPort : Int16
  ctime : Text

/-- What the variables hold that no one has set: those of the n-th check, and the pointer in
`tempapp`. A pointer is told to be null or not. -/
structure Unset where
  pwd : Nat → Bool
  buf : Nat → Text
  string1 : Nat → Text
  isNull : Bool

inductive Pointer where
  | null
  | wild
  | owned (text : Text)
  | freed
  deriving DecidableEq, Repr

inductive Stream where
  | null
  | opened
  | closed
  deriving DecidableEq, Repr

inductive Signal where
  | alert (iPid : Int) (acdata : Text)
  | kill (iPid : Int)
  deriving DecidableEq, Repr

def Unset.pcappMeteringUsername (unset : Unset) : Pointer :=
  if unset.isNull then .null else .wild

/-- The variables of `ProcMonCheckProc` that its loop changes; `reacted` tells that `Reaction`
is 1. -/
structure Scan where
  szBuff : Text
  szString : Text
  fpProc : Stream
  reacted : Bool
  pcappMeteringUsername : Pointer
  buf : Text
  string1 : Text
  signals : List Signal
  deriving DecidableEq, Repr

variable (sys : System) (name : Text) (sub : Stappsub)

def ipText : Text := "**********IP<".toList ++ sys.pcAlertIpAddr ++ ">******".toList

def portText : Text := "********port<".toList ++ printLd sys.iAlertPort.toInt ++ ">*********".toList

def acdata : Text :=
  name ++ ' ' :: ipText sys ++ ' ' :: portText sys ++ ' ' :: sub.pcalertmessage

/-- The texts fit into `binname`, `ip`, `alert` and `acdata`. -/
def MessageFits : Prop :=
  name.length < 100 ∧ (ipText sys).length < 100 ∧ sub.pcalertmessage.length < 100 ∧
    (acdata sys name sub).length < 256

instance : Decidable (MessageFits sys name sub) := inferInstanceAs (Decidable (_ ∧ _))

def reactionSignals (iPid : Int) : List Signal :=
  if sub.iappMeteringReaction = 0 then [.alert iPid (acdata sys name sub)]
  else if sub.iappMeteringReaction = 1 then [.kill iPid]
  else if sub.iappMeteringReaction = 2 then [.kill iPid, .alert iPid (acdata sys name sub)]
  else []

def KnownReaction : Prop :=
  sub.iappMeteringReaction = 0 ∨ sub.iappMeteringReaction = 1 ∨ sub.iappMeteringReaction = 2

instance : Decidable (KnownReaction sub) := inferInstanceAs (Decidable (_ ∨ _))

/-- `fclose` where the pointer is not null. -/
def closeStream : Stream → Option Stream
  | .null => some .null
  | .opened => some .closed
  | .closed => none

/-- `free` where the pointer is not null. -/
def freeText : Pointer → Option Pointer
  | .null => some .null
  | .owned _ => some .freed
  | .wild => none
  | .freed => none

/-- The loop that waits for a line with `Uid`. At the end of the file it waits for ever. -/
def uidLine : Nat → Text → Text → Option Text
  | 0, _, _ => none
  | fuel + 1, rest, buf =>
    match fgets 256 rest with
    | none => if (strstr "Uid".toList buf).isSome then some buf else none
    | some (line, rest) =>
      if (strstr "Uid".toList line).isSome then some line else uidLine fuel rest line

/-- The number in the line with `Uid`, and `string1` once it is read. -/
def parseUid (string1 buf : Text) : Option (Text × Int) :=
  match buf.dropWhile fun c => c != ':' with
  | [] => none
  | _ :: cp =>
    let token := firstToken cp
    if 30 ≤ token.length then none
    else
      let string1 := if token = [] then string1 else token
      (atoi string1).map fun uid => (string1, uid)

/-- The line is cut where `cp` stands, before the number. -/
def cutUid (buf : Text) : Text :=
  (buf.takeWhile fun c => c != ':') ++
    ':' :: ((buf.dropWhile fun c => c != ':').drop 1).takeWhile isspace

/-- What is done for a process with the name of the binary; `rest` is what stays to be read of
its status file. -/
def matched (pwd : Bool) (iPid : Int) (rest : Text) (st : Scan) : Option Scan :=
  if MessageFits sys name sub then
    let st := { st with
      reacted := st.reacted || decide (KnownReaction sub)
      signals := st.signals ++ reactionSignals sys name sub iPid }
    match uidLine (rest.length + 1) rest st.buf with
    | none => none
    | some buf =>
      match parseUid st.string1 buf with
      | none => none
      | some (string1, uid) =>
        let st := { st with buf := cutUid buf, string1 := string1 }
        if st.reacted then
          match sys.getpwuid uid with
          | none => some st
          | some pw_name =>
            (freeText st.pcappMeteringUsername).map fun _ =>
              { st with pcappMeteringUsername := .owned pw_name }
        else if pwd then none
        else some st
  else none

def statusPath (iPid : Int) : Text := "/proc/".toList ++ printLd iPid ++ "/status".toList

/-- One turn of the loop over `/proc`. -/
def checkEntry (pwd : Bool) (entry : ProcEntry) (st : Scan) : Option Scan :=
  match atoi entry.d_name with
  | none => none
  | some iPid =>
    if iPid = 0 then some st
    else
      match closeStream st.fpProc with
      | none => none
      | some _ =>
        let st := { st with szString := statusPath iPid }
        match entry.status with
        | none => some { st with fpProc := .null }
        | some content =>
          let (szBuff, rest) := (fgets 256 content).getD (st.szBuff, content)
          match strstr "Name:".toList szBuff with
          | none => some { st with szBuff := szBuff, fpProc := .closed }
          | some pcPos =>
            let token := firstToken (pcPos.drop 5)
            let szString := if token = [] then st.szString else token
            let st := { st with szBuff := szBuff, szString := szString, fpProc := .opened }
            if szString = name then matched sys name sub pwd iPid rest st else some st

def scanLoop (pwd : Bool) : List ProcEntry → Scan → Option Scan
  | [], st => some st
  | entry :: entries, st =>
    match checkEntry sys name sub pwd entry st with
    | none => none
    | some st => scanLoop pwd entries st

/-- A check as it comes out: the row, the signals that were sent, and the owner that was
logged. -/
structure Call where
  name : Text
  sub : Stappsub
  signals : List Signal
  owner : Option Text
  deriving DecidableEq, Repr

/-- What outlives a check: the static arrays, the name in `tempapp`, and the checks so far. -/
structure Agent where
  szBuff : Text
  szString : Text
  pcappMeteringUsername : Pointer
  calls : List Call
  deriving DecidableEq, Repr

variable (unset : Unset)

/-- Where the check starts that the agent makes next. -/
def Agent.scan (agent : Agent) : Scan where
  szBuff := agent.szBuff
  szString := agent.szString
  fpProc := .null
  reacted := false
  pcappMeteringUsername := agent.pcappMeteringUsername
  buf := unset.buf agent.calls.length
  string1 := unset.string1 agent.calls.length
  signals := []

def procMonCheckProc (agent : Agent) : Option Scan :=
  match sys.proc agent.calls.length with
  | none => some (agent.scan unset)
  | some entries =>
    match scanLoop sys name sub (unset.pwd agent.calls.length) entries (agent.scan unset) with
    | none => none
    | some st => (closeStream st.fpProc).map fun _ => st

/-- The text of `AM_LogData`. -/
def logText (owner : Text) : Text :=
  sys.ctime ++ ';' :: printLd sub.uiappMeteringIndex.toInt32.toInt ++ ';' :: owner ++
    ';' :: name ++ ';' :: printLd sub.iappMeteringReaction.toInt ++ ['\n']

/-- The check of one binary in `AM_DoReaction`. A name that is logged is freed, but the
pointer to it stays. -/
def react (agent : Agent) : Option Agent :=
  match procMonCheckProc sys name sub unset agent with
  | none => none
  | some st =>
    if st.reacted then
      match st.pcappMeteringUsername with
      | .owned owner =>
        if (logText sys name sub owner).length < 500 then
          some ⟨st.szBuff, st.szString, .freed,
            agent.calls ++ [⟨name, sub, st.signals, some owner⟩]⟩
        else none
      | _ => none
    else some ⟨st.szBuff, st.szString, st.pcappMeteringUsername,
      agent.calls ++ [⟨name, sub, st.signals, none⟩]⟩

end Model

section Purpose

/-- The name of the process in the first line of its status file. -/
def statusName (content : Text) : Option Text :=
  match fgets 256 content with
  | none => none
  | some (line, _) => if "Name:".toList.isPrefixOf line then some (trim (line.drop 5)) else none

def statusLines (content : Text) : List Text :=
  match fgets 256 content with
  | none => []
  | some (_, rest) => readLines 256 (rest.length + 1) rest

def statusUid (content : Text) : Option Text :=
  (statusLines content).find? fun line => "Uid:".toList.isPrefixOf line

def ProcEntry.iPid (entry : ProcEntry) : Int := (atoi entry.d_name).getD 0

/-- The directory is that of a process whose own status file names the binary. -/
def ProcEntry.Names (entry : ProcEntry) (name : Text) : Prop :=
  entry.iPid ≠ 0 ∧ entry.status.bind statusName = some name

instance (entry : ProcEntry) (name : Text) : Decidable (entry.Names name) :=
  inferInstanceAs (Decidable (_ ∧ _))

variable (sys : System) (name : Text) (sub : Stappsub)

def ProcEntry.owner (entry : ProcEntry) : Option Text :=
  (entry.status.bind statusUid).bind fun line =>
    (atoi (firstToken (line.drop 4))).bind sys.getpwuid

def entrySignals (entry : ProcEntry) : List Signal :=
  if entry.Names name then reactionSignals sys name sub entry.iPid else []

/-- Some process that the n-th check finds is named like the binary. -/
def Matched (n : Nat) (name : Text) : Prop :=
  ∃ entry ∈ (sys.proc n).getD [], entry.Names name

instance (n : Nat) : DecidablePred (Matched sys n) := fun _ =>
  inferInstanceAs (Decidable (∃ entry ∈ _, _))

/-- The signals go to the processes of the binary, and one of their owners is logged. -/
def RightCall (n : Nat) (call : Call) : Prop :=
  call.signals = ((sys.proc n).getD []).flatMap (entrySignals sys call.name call.sub) ∧
    if Matched sys n call.name then
      ∃ owner, call.owner = some owner ∧ ∃ entry ∈ (sys.proc n).getD [],
        entry.Names call.name ∧ entry.owner sys = some owner
    else call.owner = none

end Purpose

section Condition

/-- The line in `szBuff` once the first line of the status file has been read: an empty file
leaves there what it finds. -/
def ProcEntry.szBuff (entry : ProcEntry) (szBuff : Text) : Text :=
  if entry.iPid = 0 then szBuff
  else ((entry.status.bind (fgets 256)).map Prod.fst).getD szBuff

/-- The word that is compared with the name of the binary. -/
def ProcEntry.word (entry : ProcEntry) (szBuff : Text) : Option Text :=
  (strstr "Name:".toList (entry.szBuff szBuff)).map fun pcPos =>
    if firstToken (pcPos.drop 5) = [] then statusPath entry.iPid else firstToken (pcPos.drop 5)

/-- Where the status file of a process is opened, the line in `szBuff` has a word, and this is
the name of the binary exactly if the process is called so. -/
def ProcEntry.Told (entry : ProcEntry) (name szBuff : Text) : Prop :=
  atoi entry.d_name ≠ none ∧ (entry.iPid = 0 ∨ ∀ content ∈ entry.status,
    ∃ word ∈ entry.word szBuff, word = name ↔ statusName content = some name)

instance (entry : ProcEntry) (name szBuff : Text) : Decidable (entry.Told name szBuff) :=
  inferInstanceAs (Decidable (_ ∧ _))

def Told (name : Text) : Text → List ProcEntry → Prop
  | _, [] => True
  | szBuff, entry :: entries => entry.Told name szBuff ∧ Told name (entry.szBuff szBuff) entries

def lastLine : Text → List ProcEntry → Text
  | szBuff, [] => szBuff
  | szBuff, entry :: entries => lastLine (entry.szBuff szBuff) entries

instance decidableTold (name : Text) : (szBuff : Text) → (entries : List ProcEntry) →
    Decidable (Told name szBuff entries)
  | _, [] => .isTrue trivial
  | szBuff, entry :: entries =>
    @instDecidableAnd _ _ _ (decidableTold name (entry.szBuff szBuff) entries)

variable (sys : System) (name : Text) (sub : Stappsub)

/-- The first line with `Uid` in the status file is the one that tells the user. -/
def Identified (content : Text) : Prop :=
  (statusLines content).find? (fun line => (strstr "Uid".toList line).isSome) =
      statusUid content ∧
    (∃ line ∈ statusUid content, firstToken (line.drop 4) ≠ [] ∧
      (firstToken (line.drop 4)).length < 30 ∧ atoi (firstToken (line.drop 4)) ≠ none)

instance : DecidablePred Identified := fun _ => inferInstanceAs (Decidable (_ ∧ _))

/-- The known users of the processes of the binary, in the order of `/proc`. -/
def owners (entries : List ProcEntry) : List Text :=
  (entries.filter fun entry => entry.Names name).filterMap (ProcEntry.owner sys)

/-- The n-th check, which meets a process of the binary, tells the user of each of them; the
last user that is known has room in the log. -/
structure Handled (n : Nat) : Prop where
  known : KnownReaction sub
  fits : MessageFits sys name sub
  identified : ∀ entry ∈ (sys.proc n).getD [], entry.Names name →
    ∀ content ∈ entry.status, Identified content
  logged : ∃ owner ∈ (owners sys name ((sys.proc n).getD [])).getLast?,
    (logText sys name sub owner).length < 500

/-- The checks from the n-th one on, with the line in `szBuff` before them. -/
def Careful : Nat → Text → List (Text × Stappsub) → Prop
  | _, _, [] => True
  | n, szBuff, (name, sub) :: rows =>
    Told name szBuff ((sys.proc n).getD []) ∧ (Matched sys n name → Handled sys name sub n) ∧
      Careful (n + 1) (lastLine szBuff ((sys.proc n).getD [])) rows

/-- The checks that meet a process of their binary, the first check being the n-th one. -/
def meetings (n : Nat) (rows : List (Text × Stappsub)) : List ((Text × Stappsub) × Nat) :=
  (rows.zipIdx n).filter fun row => Matched sys row.2 row.1.1

end Condition

section Checks

variable {sys : System} {name : Text} {sub : Stappsub} {entry : ProcEntry}
  {entries : List ProcEntry} {line rest content : Text} {iPid : Int}

theorem names_iff (pid : atoi entry.d_name = some iPid) :
    entry.Names name ↔ iPid ≠ 0 ∧ entry.status.bind statusName = some name := by
  rw [ProcEntry.Names, ProcEntry.iPid, pid]
  rfl

theorem iPid_eq (pid : atoi entry.d_name = some iPid) : entry.iPid = iPid := by
  rw [ProcEntry.iPid, pid]
  rfl

theorem uidLine_find (buf : Text) (fuel : Nat)
    (found : (readLines 256 fuel rest).find? (fun line => (strstr "Uid".toList line).isSome) =
      some line) : uidLine fuel rest buf = some line := by
  induction fuel generalizing rest buf with
  | zero => cases found
  | succ fuel ih =>
    rw [readLines] at found
    rw [uidLine]
    cases read : fgets 256 rest with
    | none => simp [read] at found
    | some result =>
      obtain ⟨first, rest'⟩ := result
      simp only [read, List.find?_cons] at found ⊢
      cases hit : (strstr "Uid".toList first).isSome with
      | true =>
        rw [hit] at found
        simpa using found
      | false =>
        rw [hit] at found
        exact ih first found

theorem parseUid_line (string1 : Text) (starts : "Uid:".toList.isPrefixOf line = true)
    (filled : firstToken (line.drop 4) ≠ []) (short : (firstToken (line.drop 4)).length < 30) :
    parseUid string1 line =
      (atoi (firstToken (line.drop 4))).map fun uid => (firstToken (line.drop 4), uid) := by
  obtain ⟨cp, rfl⟩ := List.isPrefixOf_iff_prefix.mp starts
  have short' : ¬ 30 ≤ (firstToken cp).length := Nat.not_le.mpr short
  have filled' : firstToken cp ≠ [] := filled
  have colon : ("Uid:".toList ++ cp).dropWhile (fun c => c != ':') = ':' :: cp := rfl
  rw [parseUid, colon]
  simp only [short', if_false, filled']
  rfl

/-- The pointer to the name of a user, once one may have been found. -/
def Pointer.found (p : Pointer) : Option Text → Pointer
  | none => p
  | some owner => .owned owner

theorem matched_spec (pwd : Bool) (iPid : Int) (st : Scan) (known : KnownReaction sub)
    (fits : MessageFits sys name sub)
    (status : entry.status = some content) (identified : Identified content)
    (read : ∃ line, fgets 256 content = some (line, rest))
    (user : st.pcappMeteringUsername = .null ∨ ∃ text, st.pcappMeteringUsername = .owned text) :
    ∃ buf string1, matched sys name sub pwd iPid rest st = some { st with
      reacted := true
      signals := st.signals ++ reactionSignals sys name sub iPid
      buf := buf
      string1 := string1
      pcappMeteringUsername := st.pcappMeteringUsername.found (entry.owner sys) } := by
  obtain ⟨same, line, uid, filled, short, number⟩ := identified
  obtain ⟨uidNumber, number⟩ := Option.ne_none_iff_exists'.mp number
  have starts : "Uid:".toList.isPrefixOf line = true := List.find?_some uid
  obtain ⟨first, read⟩ := read
  have lines : statusLines content = readLines 256 (rest.length + 1) rest := by
    rw [statusLines, read]
  have uid' : statusUid content = some line := uid
  rw [lines, uid'] at same
  have found : uidLine (rest.length + 1) rest st.buf = some line := uidLine_find st.buf _ same
  have owner : entry.owner sys = sys.getpwuid uidNumber := by
    rw [ProcEntry.owner, status, Option.bind_some, uid', Option.bind_some, number, Option.bind_some]
  refine ⟨cutUid line, firstToken (line.drop 4), ?_⟩
  rw [matched, if_pos fits, owner]
  simp only [found, parseUid_line st.string1 starts filled short, number, Option.map_some, known,
    decide_true, Bool.or_true, if_true]
  cases sys.getpwuid uidNumber with
  | none => rfl
  | some pw_name =>
    rcases user with null | ⟨text, owned⟩
    · rw [null]
      rfl
    · rw [owned]
      rfl

/-- A turn of the loop for a process whose status file is opened, once the first line is read. -/
theorem checkEntry_opened (sys : System) (name : Text) (sub : Stappsub) (pwd : Bool) (st : Scan)
    (pid : atoi entry.d_name = some iPid) (number : iPid ≠ 0)
    (status : entry.status = some content) {p : Stream}
    (closes : closeStream st.fpProc = some p) {word : Text}
    (reads : entry.word st.szBuff = some word) :
    ∃ rest, (statusName content ≠ none → ∃ line, fgets 256 content = some (line, rest)) ∧
      checkEntry sys name sub pwd entry st =
        let st := { st with
          szBuff := entry.szBuff st.szBuff, szString := word, fpProc := .opened }
        if word = name then matched sys name sub pwd iPid rest st else some st := by
  have whole := iPid_eq pid
  rw [ProcEntry.word, Option.map_eq_some_iff] at reads
  obtain ⟨pcPos, found, rfl⟩ := reads
  have line : entry.szBuff st.szBuff =
      ((fgets 256 content).getD (st.szBuff, content)).1 := by
    rw [ProcEntry.szBuff, whole, if_neg number, status, Option.bind_some]
    cases fgets 256 content with
    | none => rfl
    | some result => rfl
  rw [line] at found ⊢
  refine ⟨((fgets 256 content).getD (st.szBuff, content)).2, ?_, ?_⟩
  · intro named
    cases read : fgets 256 content with
    | none => simp [statusName, read] at named
    | some result => exact ⟨result.1, rfl⟩
  · unfold checkEntry
    simp only [pid, number, if_false, closes, status, found, whole]

theorem checkEntry_spec (pwd : Bool) (st : Scan) (told : entry.Told name st.szBuff)
    (known : entry.Names name → KnownReaction sub ∧ MessageFits sys name sub ∧
      ∀ content ∈ entry.status, Identified content)
    (stream : st.fpProc ≠ .closed)
    (user : entry.Names name → st.pcappMeteringUsername = .null ∨
      ∃ text, st.pcappMeteringUsername = .owned text) :
    ∃ st', checkEntry sys name sub pwd entry st = some st' ∧ st'.fpProc ≠ .closed ∧
      st'.szBuff = entry.szBuff st.szBuff ∧
      st'.signals = st.signals ++ entrySignals sys name sub entry ∧
      if entry.Names name then st'.reacted = true ∧
        st'.pcappMeteringUsername = st.pcappMeteringUsername.found (entry.owner sys)
      else st'.reacted = st.reacted ∧ st'.pcappMeteringUsername = st.pcappMeteringUsername := by
  obtain ⟨number, opens⟩ := told
  obtain ⟨iPid, pid⟩ := Option.ne_none_iff_exists'.mp number
  have whole := iPid_eq pid
  rw [whole] at opens
  rw [entrySignals, whole]
  by_cases zero : iPid = 0
  · have unnamed : ¬ entry.Names name := by
      rw [names_iff pid]
      exact fun both => both.1 zero
    have stays : checkEntry sys name sub pwd entry st = some st := by
      simp only [checkEntry, pid, zero, if_true]
    have line : entry.szBuff st.szBuff = st.szBuff := by
      rw [ProcEntry.szBuff, whole, if_pos zero]
    simp only [if_neg unnamed, List.append_nil]
    exact ⟨st, stays, stream, line.symm, rfl, rfl, rfl⟩
  · obtain ⟨p, closes⟩ : ∃ p, closeStream st.fpProc = some p := by
      cases open_ : st.fpProc with
      | null => exact ⟨_, rfl⟩
      | opened => exact ⟨_, rfl⟩
      | closed => exact absurd open_ stream
    cases status : entry.status with
    | none =>
      have unnamed : ¬ entry.Names name := by
        rw [names_iff pid, status]
        exact fun both => nomatch both.2
      have line : entry.szBuff st.szBuff = st.szBuff := by
        rw [ProcEntry.szBuff, whole, if_neg zero, status]
        rfl
      have stays : checkEntry sys name sub pwd entry st =
          some { st with szString := statusPath iPid, fpProc := .null } := by
        simp only [checkEntry, pid, zero, if_false, closes, status]
      simp only [if_neg unnamed, List.append_nil]
      exact ⟨_, stays, nofun, line.symm, rfl, rfl, rfl⟩
    | some content =>
      obtain ⟨word, reads, same⟩ := opens.resolve_left zero content status
      have named : entry.Names name ↔ word = name := by
        rw [names_iff pid, status, same]
        exact ⟨And.right, fun named => ⟨zero, named⟩⟩
      obtain ⟨rest, read, turned⟩ := checkEntry_opened sys name sub pwd st pid zero
        status closes reads
      rw [turned]
      by_cases here : word = name
      · have names := named.mpr here
        obtain ⟨known, fits, identified⟩ := known names
        have filled : statusName content ≠ none := by
          rw [same.mp here]
          exact nofun
        obtain ⟨buf, string1, done⟩ := matched_spec pwd iPid
          { st with szBuff := entry.szBuff st.szBuff, szString := word, fpProc := .opened }
          known fits status (identified content status) (read filled) (user names)
        simp only [if_pos names, if_pos here]
        exact ⟨_, done, nofun, rfl, rfl, rfl, rfl⟩
      · have unnamed : ¬ entry.Names name := fun names => here (named.mp names)
        simp only [if_neg unnamed, if_neg here, List.append_nil]
        exact ⟨_, rfl, nofun, rfl, rfl, rfl, rfl⟩

theorem owners_cons : owners sys name (entry :: entries) =
    (if entry.Names name then (entry.owner sys).toList else []) ++ owners sys name entries := by
  by_cases here : entry.Names name
  · rw [if_pos here, owners, List.filter_cons_of_pos (by simpa using here), List.filterMap_cons]
    cases entry.owner sys with
    | none => rfl
    | some owner => rfl
  · rw [if_neg here, owners, List.filter_cons_of_neg (by simpa using here)]
    rfl

/-- The user found last stays. -/
theorem found_last (p : Pointer) (owner : Option Text) (later : List Text) :
    (p.found owner).found later.getLast? = p.found (owner.toList ++ later).getLast? := by
  cases owner with
  | none => rfl
  | some owner =>
    rw [Option.toList_some, List.singleton_append, List.getLast?_cons]
    cases later.getLast? with
    | none => rfl
    | some last => rfl

theorem scanLoop_spec (pwd : Bool) (st : Scan) (told : Told name st.szBuff entries)
    (known : ∀ entry ∈ entries, entry.Names name → KnownReaction sub ∧
      MessageFits sys name sub ∧ ∀ content ∈ entry.status, Identified content)
    (stream : st.fpProc ≠ .closed)
    (user : (∃ entry ∈ entries, entry.Names name) → st.pcappMeteringUsername = .null ∨
      ∃ text, st.pcappMeteringUsername = .owned text) :
    ∃ st', scanLoop sys name sub pwd entries st = some st' ∧ st'.fpProc ≠ .closed ∧
      st'.szBuff = lastLine st.szBuff entries ∧
      st'.signals = st.signals ++ entries.flatMap (entrySignals sys name sub) ∧
      (st'.reacted = true ↔ st.reacted = true ∨ ∃ entry ∈ entries, entry.Names name) ∧
      st'.pcappMeteringUsername =
        st.pcappMeteringUsername.found (owners sys name entries).getLast? := by
  induction entries generalizing st with
  | nil => exact ⟨st, rfl, stream, rfl, by simp, by simp, rfl⟩
  | cons entry entries ih =>
    obtain ⟨told, later⟩ := told
    obtain ⟨st₁, checked, stream₁, line₁, signals₁, outcome₁⟩ := checkEntry_spec pwd st
      told (known entry List.mem_cons_self) stream
      fun names => user ⟨entry, List.mem_cons_self, names⟩
    rw [← line₁] at later
    have reacted₁ : st₁.reacted = true ↔ st.reacted = true ∨ entry.Names name := by
      by_cases here : entry.Names name
      · rw [if_pos here] at outcome₁
        simp [here, outcome₁.1]
      · rw [if_neg here] at outcome₁
        simp [here, outcome₁.1]
    have found₁ : st₁.pcappMeteringUsername = st.pcappMeteringUsername.found
        (if entry.Names name then entry.owner sys else none) := by
      by_cases here : entry.Names name
      · rw [if_pos here] at outcome₁ ⊢
        exact outcome₁.2
      · rw [if_neg here] at outcome₁ ⊢
        exact outcome₁.2
    have user₁ : (∃ entry ∈ entries, entry.Names name) → st₁.pcappMeteringUsername = .null ∨
        ∃ text, st₁.pcappMeteringUsername = .owned text := by
      rintro ⟨other, member, names⟩
      rw [found₁]
      cases if entry.Names name then entry.owner sys else none with
      | none => exact user ⟨other, List.mem_cons_of_mem _ member, names⟩
      | some owner => exact .inr ⟨owner, rfl⟩
    obtain ⟨st₂, scanned, stream₂, line₂, signals₂, reacted₂, found₂⟩ := ih st₁ later
      (fun other member => known other (List.mem_cons_of_mem _ member)) stream₁ user₁
    refine ⟨st₂, by rw [scanLoop, checked]; exact scanned, stream₂, ?_, ?_, ?_, ?_⟩
    · rw [line₂, line₁]
      rfl
    · rw [signals₂, signals₁, List.flatMap_cons, List.append_assoc]
    · rw [reacted₂, reacted₁, or_assoc, List.exists_mem_cons_iff]
    · rw [found₂, found₁, found_last, owners_cons]
      by_cases here : entry.Names name
      · rw [if_pos here, if_pos here]
      · rw [if_neg here, if_neg here]
        rfl

theorem mem_owners {owner : Text} (member : owner ∈ owners sys name entries) :
    ∃ entry ∈ entries, entry.Names name ∧ entry.owner sys = some owner := by
  obtain ⟨entry, inside, owns⟩ := List.mem_filterMap.mp member
  obtain ⟨inside, names⟩ := List.mem_filter.mp inside
  exact ⟨entry, inside, by simpa using names, owns⟩

theorem react_spec (unset : Unset) {agent : Agent}
    (told : Told name agent.szBuff ((sys.proc agent.calls.length).getD []))
    (handled : Matched sys agent.calls.length name → Handled sys name sub agent.calls.length)
    (user : Matched sys agent.calls.length name → agent.pcappMeteringUsername = .null) :
    ∃ agent' call, react sys name sub unset agent = some agent' ∧
      agent'.calls = agent.calls ++ [call] ∧ call.name = name ∧ call.sub = sub ∧
      agent'.szBuff = lastLine agent.szBuff ((sys.proc agent.calls.length).getD []) ∧
      RightCall sys agent.calls.length call ∧ agent'.pcappMeteringUsername =
        if Matched sys agent.calls.length name then .freed else agent.pcappMeteringUsername := by
  obtain ⟨st, scanned, stream, line, signals, reacted, found⟩ := scanLoop_spec
    (unset.pwd agent.calls.length) (agent.scan unset) told
    (fun entry member names =>
      have handled := handled ⟨entry, member, names⟩
      ⟨handled.known, handled.fits, handled.identified entry member names⟩)
    nofun fun some => .inl (user some)
  have checked : procMonCheckProc sys name sub unset agent = some st := by
    unfold procMonCheckProc
    cases listing : sys.proc agent.calls.length with
    | none =>
      rw [listing] at scanned
      exact scanned
    | some entries =>
      rw [listing, Option.getD_some] at scanned
      simp only [scanned]
      cases open_ : st.fpProc with
      | null => rfl
      | opened => rfl
      | closed => exact absurd open_ stream
  have signals : st.signals = ((sys.proc agent.calls.length).getD []).flatMap
      (entrySignals sys name sub) := signals
  have reacted : st.reacted = true ↔ Matched sys agent.calls.length name := by
    rw [reacted]
    exact ⟨fun some => some.resolve_left nofun, .inr⟩
  unfold react
  simp only [checked]
  by_cases here : Matched sys agent.calls.length name
  · obtain ⟨owner, last, logged⟩ := (handled here).logged
    have owned : st.pcappMeteringUsername = .owned owner := by
      rw [found, show List.getLast? _ = some owner from last]
      rfl
    obtain ⟨entry, member, names, owns⟩ := mem_owners (List.mem_of_getLast? last)
    simp only [reacted.mpr here, if_true, owned, logged, if_pos here]
    refine ⟨_, _, rfl, rfl, rfl, rfl, line, ⟨signals, ?_⟩, rfl⟩
    rw [if_pos here]
    exact ⟨owner, rfl, entry, member, names, owns⟩
  · have silent : st.reacted = false := by
      rw [← Bool.not_eq_true, reacted]
      exact here
    have none' : owners sys name ((sys.proc agent.calls.length).getD []) = [] := by
      rw [List.eq_nil_iff_forall_not_mem]
      intro owner member
      obtain ⟨entry, inside, names, _⟩ := mem_owners member
      exact here ⟨entry, inside, names⟩
    rw [none'] at found
    simp only [silent, if_neg here, Bool.false_eq_true, if_false]
    refine ⟨_, _, rfl, rfl, rfl, rfl, line, ⟨signals, ?_⟩, found⟩
    rw [if_neg here]

end Checks

section Wild

variable {sys : System} {name : Text} {sub : Stappsub} {unset : Unset} {entry : ProcEntry}
  {entries : List ProcEntry} {rest content : Text} {iPid : Int} {st st' : Scan}

/-- A process has been matched, but the name of its user has no place, or the stream has been
closed. From here the check does not come to its end. -/
def Doomed (st : Scan) : Prop :=
  st.pcappMeteringUsername = .wild ∧ (st.reacted = true ∨ st.fpProc = .closed)

theorem matched_wild (wild : st.pcappMeteringUsername = .wild)
    (ran : matched sys name sub true iPid rest st = some st') : Doomed st' := by
  rw [matched] at ran
  by_cases fits : MessageFits sys name sub
  · rw [if_pos fits] at ran
    cases found : uidLine (rest.length + 1) rest st.buf with
    | none => simp [found] at ran
    | some buf =>
      cases number : parseUid st.string1 buf with
      | none => simp [found, number] at ran
      | some result =>
        obtain ⟨string1, uid⟩ := result
        simp only [found, number] at ran
        cases reacted : st.reacted || decide (KnownReaction sub) with
        | false => simp [reacted] at ran
        | true =>
          simp only [reacted, if_true] at ran
          cases user : sys.getpwuid uid with
          | none =>
            simp only [user, Option.some.injEq] at ran
            subst ran
            exact ⟨wild, .inl rfl⟩
          | some pw_name => simp [user, wild, freeText] at ran
  · rw [if_neg fits] at ran
    cases ran

theorem checkEntry_doomed (doomed : Doomed st)
    (ran : checkEntry sys name sub true entry st = some st') : Doomed st' := by
  obtain ⟨wild, ends⟩ := doomed
  rw [checkEntry] at ran
  cases pid : atoi entry.d_name with
  | none => simp [pid] at ran
  | some iPid =>
    simp only [pid] at ran
    by_cases zero : iPid = 0
    · simp only [zero, if_true, Option.some.injEq] at ran
      subst ran
      exact ⟨wild, ends⟩
    · have reacted : st.reacted = true := by
        refine ends.resolve_right fun closed => ?_
        simp [zero, closed, closeStream] at ran
      simp only [zero, if_false] at ran
      cases closes : closeStream st.fpProc with
      | none => simp [closes] at ran
      | some p =>
        simp only [closes] at ran
        split at ran
        · obtain rfl := Option.some.inj ran
          exact ⟨wild, .inl reacted⟩
        · split at ran
          · obtain rfl := Option.some.inj ran
            exact ⟨wild, .inl reacted⟩
          · next pcPos _ =>
              generalize (if firstToken (pcPos.drop 5) = [] then statusPath iPid
                else firstToken (pcPos.drop 5)) = word at ran
              by_cases here : word = name
              · rw [if_pos here] at ran
                exact matched_wild (by exact wild) ran
              · rw [if_neg here] at ran
                obtain rfl := Option.some.inj ran
                exact ⟨wild, .inl reacted⟩

/-- Where the pointer is wild, a turn that does not end in doom has read another word than the
name of the binary. -/
theorem checkEntry_wild (wild : st.pcappMeteringUsername = .wild)
    (ran : checkEntry sys name sub true entry st = some st') :
    Doomed st' ∨ ((¬ entry.Names name → entry.Told name st.szBuff) ∧
      st'.pcappMeteringUsername = .wild ∧ st'.reacted = st.reacted ∧
      st'.szBuff = entry.szBuff st.szBuff) := by
  have turned := ran
  rw [checkEntry] at ran
  cases pid : atoi entry.d_name with
  | none => simp [pid] at ran
  | some iPid =>
    have whole := iPid_eq pid
    have number : atoi entry.d_name ≠ none := by rw [pid]; exact nofun
    simp only [pid] at ran
    by_cases zero : iPid = 0
    · simp only [zero, if_true, Option.some.injEq] at ran
      subst ran
      refine .inr ⟨fun _ => ⟨number, .inl (whole.trans zero)⟩, wild, rfl, ?_⟩
      rw [ProcEntry.szBuff, whole, if_pos zero]
    · simp only [zero, if_false] at ran
      cases closes : closeStream st.fpProc with
      | none => simp [closes] at ran
      | some p =>
        simp only [closes] at ran
        cases status : entry.status with
        | none =>
          simp only [status, Option.some.injEq] at ran
          subst ran
          refine .inr ⟨fun _ => ⟨number, .inr ?_⟩, wild, rfl, ?_⟩
          · rw [status]
            exact nofun
          · rw [ProcEntry.szBuff, whole, if_neg zero, status]
            rfl
        | some content =>
          cases reads : entry.word st.szBuff with
          | none =>
            have none' : strstr "Name:".toList
                ((fgets 256 content).getD (st.szBuff, content)).1 = none := by
              rw [ProcEntry.word, Option.map_eq_none_iff, ProcEntry.szBuff, whole,
                if_neg zero, status, Option.bind_some] at reads
              cases read : fgets 256 content with
              | none => simpa [read] using reads
              | some result => simpa [read] using reads
            simp only [status, none', Option.some.injEq] at ran
            subst ran
            exact .inl ⟨wild, .inr rfl⟩
          | some word =>
            obtain ⟨rest, _, turned'⟩ := checkEntry_opened sys name sub true st pid zero
              status closes reads
            rw [turned'] at turned
            by_cases here : word = name
            · simp only [if_pos here] at turned
              exact .inl (matched_wild (by exact wild) turned)
            · simp only [if_neg here, Option.some.injEq] at turned
              subst turned
              refine .inr ⟨fun unnamed => ⟨number, .inr ?_⟩, wild, rfl, rfl⟩
              intro other same
              rw [status] at same
              obtain rfl := Option.some.inj same
              refine ⟨word, reads, fun named => absurd named here, fun named => ?_⟩
              refine absurd ((names_iff pid).mpr ⟨zero, ?_⟩) unnamed
              rw [status]
              exact named

theorem scanLoop_doomed (doomed : Doomed st)
    (ran : scanLoop sys name sub true entries st = some st') : Doomed st' := by
  induction entries generalizing st with
  | nil =>
    obtain rfl := Option.some.inj ran
    exact doomed
  | cons entry entries ih =>
    rw [scanLoop] at ran
    cases turned : checkEntry sys name sub true entry st with
    | none => simp [turned] at ran
    | some st₁ =>
      simp only [turned] at ran
      exact ih (checkEntry_doomed doomed turned) ran

theorem scanLoop_wild (wild : st.pcappMeteringUsername = .wild)
    (ran : scanLoop sys name sub true entries st = some st') :
    Doomed st' ∨ (((∀ entry ∈ entries, ¬ entry.Names name) → Told name st.szBuff entries) ∧
      st'.pcappMeteringUsername = .wild ∧ st'.reacted = st.reacted ∧
      st'.szBuff = lastLine st.szBuff entries) := by
  induction entries generalizing st with
  | nil =>
    obtain rfl := Option.some.inj ran
    exact .inr ⟨fun _ => trivial, wild, rfl, rfl⟩
  | cons entry entries ih =>
    rw [scanLoop] at ran
    cases turned : checkEntry sys name sub true entry st with
    | none => simp [turned] at ran
    | some st₁ =>
      simp only [turned] at ran
      rcases checkEntry_wild wild turned with doomed | ⟨told, wild₁, reacted₁, line₁⟩
      · exact .inl (scanLoop_doomed doomed ran)
      · rcases ih wild₁ ran with doomed | ⟨later, wild₂, reacted₂, line₂⟩
        · exact .inl doomed
        · rw [line₁] at later line₂
          refine .inr ⟨fun unnamed => ⟨told (unnamed entry List.mem_cons_self), ?_⟩, wild₂,
            reacted₂.trans reacted₁, line₂⟩
          exact later fun other member => unnamed other (List.mem_cons_of_mem _ member)

/-- Where the pointer is wild, a check that comes to its end logs no one, and it is told of each
process when none is named like the binary. -/
theorem react_wild {agent agent' : Agent} (wild : agent.pcappMeteringUsername = .wild)
    (pwd : unset.pwd agent.calls.length = true)
    (ran : react sys name sub unset agent = some agent') :
    ∃ call, agent'.calls = agent.calls ++ [call] ∧ call.name = name ∧ call.owner = none ∧
      agent'.pcappMeteringUsername = .wild ∧
      agent'.szBuff = lastLine agent.szBuff ((sys.proc agent.calls.length).getD []) ∧
      (¬ Matched sys agent.calls.length name →
        Told name agent.szBuff ((sys.proc agent.calls.length).getD [])) := by
  rw [react] at ran
  cases checked : procMonCheckProc sys name sub unset agent with
  | none => simp [checked] at ran
  | some st =>
    obtain ⟨loop, open_⟩ : scanLoop sys name sub true ((sys.proc agent.calls.length).getD [])
        (agent.scan unset) = some st ∧ st.fpProc ≠ .closed := by
      rw [procMonCheckProc, pwd] at checked
      cases listing : sys.proc agent.calls.length with
      | none =>
        simp only [listing, Option.some.injEq] at checked
        subst checked
        exact ⟨rfl, nofun⟩
      | some entries =>
        simp only [listing] at checked
        cases scanned : scanLoop sys name sub true entries (agent.scan unset) with
        | none => simp [scanned] at checked
        | some st₁ =>
          simp only [scanned, Option.map_eq_some_iff] at checked
          obtain ⟨_, closes, rfl⟩ := checked
          refine ⟨scanned, fun closed => ?_⟩
          simp [closed, closeStream] at closes
    simp only [checked] at ran
    have alive : ¬ Doomed st := by
      rintro ⟨wild', reacted | closed⟩
      · simp [reacted, wild'] at ran
      · exact open_ closed
    obtain ⟨told, wild', silent, line⟩ := (scanLoop_wild (by exact wild) loop).resolve_left alive
    have silent : st.reacted = false := silent
    simp only [silent, Bool.false_eq_true, if_false, Option.some.injEq] at ran
    subst ran
    refine ⟨_, rfl, rfl, rfl, wild', line, fun none' => told ?_⟩
    intro entry member names
    exact none' ⟨entry, member, names⟩

end Wild

end EveAgent.AppMetering
