import EveAgent.AgentInfo.Scalars

/-! A SET request through the passes of the SNMP agent, and the file that every committed value
is written to. -/

namespace EveAgent.AgentInfo

section Files

abbrev Cells := (scalar : Scalar) → Cell (handler scalar).kind

/-- `fprintf` with `"%s\n"` -/
def line (text : Text) : Text := text ++ ['\n']

/-- `"%d"` of a `char` -/
def printChar (octet : UInt8) : Text := printLd octet.toInt8.toInt

def Cell.lines : {kind : Kind} → Cell kind → Text
  | _, .integer value => line (printLd value.toInt)
  | _, .interval value => line (printLd value.toInt)
  | _, .ipAddress octets _ => octets.flatMap fun octet => line (printChar octet)
  | _, .dateAndTime octets _ => octets.flatMap fun octet => line (printChar octet)
  | _, .octetString octets _ _ => line (octets.map fun octet => Char.ofNat octet.toNat)

/-- The order of `writeToFile` in the two sources. -/
def members : File → List Scalar
  | .subAgentInfo =>
    [.masterSNMPAgentPort, .systemSNMPAgentPort, .appSNMPAgentPort1, .appSNMPTrapPort1,
      .appSNMPAgentPort2, .appSNMPTrapPort2, .appSNMPAgentPort3, .appSNMPTrapPort3,
      .appSNMPAgentPort4, .appSNMPTrapPort4, .appSNMPAgentPort5, .appSNMPTrapPort5,
      .systemSNMPOID, .appSNMPAgentOID1, .appSNMPAgentOID2, .appSNMPAgentOID3,
      .appSNMPAgentOID4, .appSNMPAgentOID5, .masterSNMPAgentIP, .systemSNMPAgentIP,
      .appSNMPAgentIP1, .appSNMPAgentIP2, .appSNMPAgentIP3, .appSNMPAgentIP4,
      .appSNMPAgentIP5]
  | .agentInfo =>
    [.agentInfoLogFileNetAppliance, .agentInfoLogFileJobProcess, .agentInfoLogFileBackup,
      .agentInfoLogFileMonRow, .agentInfoLogFileTransaction, .agentInfoLogFileAppMetering,
      .agentInfoLogFileSystemData, .agentInfoLogFileDistribution, .agentInfoLogFileRBM,
      .agentInfoLogFileCommand, .agentInfoLogFileTransfer, .agentInfoLogFileUserControl,
      .agentInfoLogFileMonCol, .agentInfoLogFileProcess, .agentInfoLocation, .agentInfoOS,
      .agentInfoOSDescription, .agentInfoName, .agentInfoLicence, .agentInfoSystemTime,
      .agentInfoSerialNo, .agentInfoAlertManagerPort, .agentInfoFileTransferInterval,
      .agentInfoFileTransferPort, .agentInfoLogFileSize, .agentInfoFileTransferIP,
      .agentInfoIP, .agentInfoAlertManagerIP, .agentInfoInstallDate]

/-- What `writeToFile` writes. -/
def fileText (file : File) (cells : Cells) : Text :=
  (members file).flatMap fun scalar => (cells scalar).lines

/-- The scalars, what is in the files, and whether they can be opened. -/
structure State where
  cells : Cells
  files : File → Option Text
  canOpen : File → Bool

def writeToFile (file : File) (s : State) : State :=
  if s.canOpen file then
    { s with files := Function.update s.files file (some (fileText file s.cells)) }
  else s

end Files

section Passes

structure VarBind where
  name : Scalar
  value : AsnValue
  deriving DecidableEq, Repr

def VarBind.handler (var : VarBind) : Handler := AgentInfo.handler var.name

def VarBind.accepted (var : VarBind) : Bool := var.handler.kind.accepts var.value

def VarBind.fits (var : VarBind) : Bool := var.handler.kind.fits var.value

/-- The handler of this variable calls `writeToFile`. -/
def VarBind.writes (var : VarBind) : Bool := var.accepted || var.handler.writesOnError

inductive Mode where
  | reserve1
  | reserve2
  | action
  | commit
  | undo
  | free
  deriving DecidableEq, Repr

inductive Status where
  | noError
  | notWritable
  | commitFailed
  | genErr
  deriving DecidableEq, Repr

/-- `MODE_SET_COMMIT` of a handler; `none` where it writes behind its array. -/
def commit (s : State) (var : VarBind) : Option (State × Status) :=
  if var.accepted then
    ((s.cells var.name).store var.value).map fun cell =>
      (writeToFile var.handler.file { s with cells := Function.update s.cells var.name cell },
        .noError)
  else
    some (if var.handler.writesOnError then writeToFile var.handler.file s else s, .commitFailed)

/-- The handler of one variable, behind the helper for read-only instances. -/
def call (mode : Mode) (s : State) (var : VarBind) : Option (State × Status) :=
  if var.handler.readOnly then some (s, .notWritable)
  else
    match mode with
    | .commit => commit s var
    | .undo => some (s, if var.handler.undo then .noError else .genErr)
    | _ => some (s, .noError)

/-- The variables in the order in which the agent has cached their registrations. -/
def treecache (request : List VarBind) : List VarBind :=
  (request.map VarBind.name).eraseDups.flatMap fun name =>
    request.filter fun var => var.name == name

/-- All handlers are called, whatever the first ones say; the first error is kept. -/
def handleVarRequests (mode : Mode) : State → List VarBind → Option (State × Status)
  | s, [] => some (s, .noError)
  | s, var :: rest =>
    (call mode s var).bind fun first =>
      (handleVarRequests mode first.1 rest).map fun later =>
        (later.1, if first.2 = .noError then later.2 else first.2)

/-- `handle_set`: the pass after this one. -/
def nextMode : Mode → Bool → Option Mode
  | .reserve1, false => some .reserve2
  | .reserve1, true => some .free
  | .reserve2, false => some .action
  | .reserve2, true => some .free
  | .action, false => some .commit
  | .action, true => some .undo
  | .commit, _ => none
  | .undo, _ => none
  | .free, _ => none

/-- `handle_set_loop`; no request takes more than four passes. -/
def handleSetLoop : Nat → Mode → State → Status → List VarBind → Option (State × Status)
  | 0, _, s, status, _ => some (s, status)
  | passes + 1, mode, s, status, request =>
    (handleVarRequests mode s request).bind fun (t, found) =>
      let status := if status = .noError then found else status
      match nextMode mode (status != .noError) with
      | none => some (t, status)
      | some mode => handleSetLoop passes mode t status request

def handleSet (s : State) (request : List VarBind) : Option (State × Status) :=
  handleSetLoop 4 .reserve1 s .noError (treecache request)

end Passes

section Property

/-- A refused request has changed nothing, any other has set what it names; and no handler has
written behind an array. -/
def AllOrNothing (s : State) (request : List VarBind) : Prop :=
  ∃ t status, handleSet s request = some (t, status) ∧
    (status ≠ .noError → t.cells = s.cells ∧ t.files = s.files) ∧
    (status = .noError → ∀ var ∈ request, (t.cells var.name).value = var.value.value)

/-- The value is kept as it is: no zero inside of a string, and a date of full length. -/
def Kind.keeps : Kind → AsnValue → Bool
  | .octetString, .octetStr octets => decide ((0 : UInt8) ∉ octets)
  | .dateAndTime, .octetStr octets => octets.length == dateAndTimeLen
  | _, _ => true

/-- The values that the handler of a scalar stores, in order. -/
def assignments (scalar : Scalar) (request : List VarBind) : List AsnValue :=
  (request.filter fun var => var.name == scalar && var.accepted).map VarBind.value

/-- What a GET shows behind this value, other than for a date. -/
def shown : Kind → AsnValue → Value
  | .octetString, .octetStr octets => .octets (cString octets)
  | _, value => value.value

def AsnValue.octets : AsnValue → Octets
  | .integer _ => []
  | .octetStr octets => octets
  | .ipAddress octets => octets
  | .other _ octets => octets

/-- The last value that is stored is the present one; in a date, the last octet at each
position. -/
def Cell.Restored : {kind : Kind} → Cell kind → List AsnValue → Prop
  | _, .dateAndTime old _, values =>
    ∀ i value, (values.filter fun value => decide (i < value.octets.length)).getLast? =
      some value → value.octets[i]? = old[i]?
  | kind, cell, values => ∀ value, values.getLast? = some value → shown kind value = cell.value

/-- The files that are written hold the present scalars already. -/
def FilesCurrent (s : State) (request : List VarBind) : Prop :=
  ∀ var ∈ request, var.writes = true → s.canOpen var.handler.file = true →
    s.files var.handler.file = some (fileText var.handler.file s.cells)

/-- A read-only scalar is named; or all accepted values fit and either all values are accepted,
are kept as they are and agree where they are for one scalar, or the accepted ones are those that
are there. -/
def SetWhole (s : State) (request : List VarBind) : Prop :=
  (∃ var ∈ request, var.handler.readOnly = true) ∨
    ((∀ var ∈ request, var.accepted = true → var.fits = true) ∧
      if ∀ var ∈ request, var.accepted = true then
        ∀ var ∈ request, var.handler.kind.keeps var.value = true ∧
          ∀ other ∈ request, other.name = var.name → other.value.value = var.value.value
      else (∀ scalar, (s.cells scalar).Restored (assignments scalar request)) ∧
        FilesCurrent s request)

end Property

section Caching

variable {request : List VarBind} {scalar : Scalar}

theorem mem_treecache {var : VarBind} : var ∈ treecache request ↔ var ∈ request := by
  simp only [treecache, List.mem_flatMap, List.mem_eraseDups, List.mem_map, List.mem_filter,
    beq_iff_eq]
  constructor
  · intro found
    obtain ⟨_, _, member, _⟩ := found
    exact member
  · intro member
    exact ⟨var.name, ⟨var, member, rfl⟩, member, rfl⟩

theorem eraseDups_nodup {α : Type} [BEq α] [LawfulBEq α] (xs : List α) : xs.eraseDups.Nodup := by
  generalize size : xs.length = n
  induction n using Nat.strongRecOn generalizing xs with
  | ind n ih =>
    cases xs with
    | nil => simp
    | cons x xs =>
      rw [List.eraseDups_cons, List.nodup_cons]
      constructor
      · rw [List.mem_eraseDups]
        simp
      · apply ih _ _ _ rfl
        have shorter := List.length_filter_le (fun b => !b == x) xs
        rw [List.length_cons] at size
        omega

theorem filter_flatMap_names {names : List Scalar} (distinct : names.Nodup)
    (present : scalar ∈ names) :
    (names.flatMap fun name => request.filter fun var => var.name == name).filter
      (fun var => var.name == scalar) = request.filter fun var => var.name == scalar := by
  induction names with
  | nil => cases present
  | cons name names ih =>
    obtain ⟨fresh, distinct⟩ := List.nodup_cons.mp distinct
    rw [List.flatMap_cons, List.filter_append, List.filter_filter]
    by_cases same : name = scalar
    · subst same
      have rest : (names.flatMap fun other => request.filter fun var => var.name == other).filter
          (fun var => var.name == name) = [] := by
        rw [List.filter_eq_nil_iff]
        intro var member equal
        obtain ⟨other, inside, kept⟩ := List.mem_flatMap.mp member
        have named := eq_of_beq (List.mem_filter.mp kept).2
        rw [eq_of_beq equal] at named
        rw [named] at fresh
        exact fresh inside
      rw [rest, List.append_nil]
      simp only [Bool.and_self]
    · have first : request.filter (fun var => var.name == scalar && var.name == name) = [] := by
        rw [List.filter_eq_nil_iff]
        intro var _ both
        obtain ⟨one, two⟩ := Bool.and_eq_true_iff.mp both
        exact same ((eq_of_beq two).symm.trans (eq_of_beq one))
      rw [first, List.nil_append]
      exact ih distinct ((List.mem_cons.mp present).resolve_left (Ne.symm same))

theorem treecache_filter :
    (treecache request).filter (fun var => var.name == scalar) =
      request.filter fun var => var.name == scalar := by
  by_cases named : scalar ∈ (request.map VarBind.name).eraseDups
  · exact filter_flatMap_names (eraseDups_nodup _) named
  · have none : ∀ var ∈ request, (var.name == scalar) ≠ true := by
      intro var member same
      rw [List.mem_eraseDups, List.mem_map] at named
      exact named ⟨var, member, eq_of_beq same⟩
    rw [List.filter_eq_nil_iff.mpr none, List.filter_eq_nil_iff]
    intro var member
    exact none var (mem_treecache.mp member)

theorem assignments_treecache :
    assignments scalar (treecache request) = assignments scalar request := by
  have split : ∀ vars : List VarBind, assignments scalar vars =
      ((vars.filter fun var => var.name == scalar).filter VarBind.accepted).map VarBind.value := by
    intro vars
    rw [assignments, List.filter_filter]
    simp only [Bool.and_comm]
  rw [split, split, treecache_filter]

end Caching

section Commit

variable {s t : State} {var : VarBind} {vars : List VarBind} {scalar : Scalar} {file : File}

def committed (s : State) (var : VarBind) : State :=
  if var.accepted then
    writeToFile var.handler.file
      { s with cells := Function.update s.cells var.name ((s.cells var.name).stored var.value) }
  else if var.handler.writesOnError then writeToFile var.handler.file s
  else s

theorem commit_fits (fits : var.accepted = true → var.fits = true) :
    commit s var =
      some (committed s var, if var.accepted then .noError else .commitFailed) := by
  cases accepted : var.accepted with
  | true =>
    have stored := Cell.store_fits (s.cells var.name) (fits accepted)
    rw [commit, committed, accepted, stored]
    rfl
  | false =>
    rw [commit, committed, accepted]
    rfl

theorem commit_overrun (accepted : var.accepted = true) (overrun : var.fits = false) :
    commit s var = none := by
  have outside := Cell.store_overrun (s.cells var.name) overrun
  rw [commit, if_pos accepted, outside]
  rfl

@[simp] theorem writeToFile_cells (file : File) (s : State) :
    (writeToFile file s).cells = s.cells := by
  unfold writeToFile
  split
  · rfl
  · rfl

@[simp] theorem writeToFile_canOpen (file : File) (s : State) :
    (writeToFile file s).canOpen = s.canOpen := by
  unfold writeToFile
  split
  · rfl
  · rfl

theorem writeToFile_files (s : State) (name : File) :
    (writeToFile name s).files file =
      if name = file ∧ s.canOpen file = true then some (fileText file s.cells)
      else s.files file := by
  unfold writeToFile
  by_cases same : name = file
  · subst same
    by_cases canOpen : s.canOpen name = true
    · simp [canOpen]
    · simp [canOpen]
  · by_cases canOpen : s.canOpen name = true
    · simp [canOpen, same, Function.update_of_ne (Ne.symm same)]
    · simp [canOpen, same]

@[simp] theorem committed_canOpen : (committed s var).canOpen = s.canOpen := by
  unfold committed
  split
  · rw [writeToFile_canOpen]
  · split
    · rw [writeToFile_canOpen]
    · rfl

theorem assignments_cons :
    assignments scalar (var :: vars) = assignments scalar [var] ++ assignments scalar vars := by
  rw [assignments, assignments, assignments, ← List.map_append, ← List.filter_append,
    List.singleton_append]

theorem committed_cells :
    (committed s var).cells scalar =
      (assignments scalar [var]).foldl Cell.stored (s.cells scalar) := by
  cases accepted : var.accepted with
  | false =>
    have kept : (committed s var).cells = s.cells := by
      rw [committed, accepted]
      simp only [Bool.false_eq_true, if_false]
      split
      · rw [writeToFile_cells]
      · rfl
    have none : assignments scalar [var] = [] := by simp [assignments, accepted]
    rw [kept, none]
    rfl
  | true =>
    rw [committed, if_pos accepted, writeToFile_cells]
    by_cases same : var.name = scalar
    · subst same
      have one : assignments var.name [var] = [var.value] := by simp [assignments, accepted]
      rw [one]
      exact Function.update_self ..
    · have none : assignments scalar [var] = [] := by simp [assignments, same]
      rw [none]
      exact Function.update_of_ne (Ne.symm same) ..

theorem committed_files :
    (committed s var).files file =
      if var.handler.file = file ∧ var.writes = true ∧ s.canOpen file = true then
        some (fileText file (committed s var).cells)
      else s.files file := by
  cases accepted : var.accepted with
  | true =>
    have writes : var.writes = true := by rw [VarBind.writes, accepted, Bool.true_or]
    rw [committed, if_pos accepted, writeToFile_cells, writeToFile_files]
    simp only [writes, true_and]
  | false =>
    have same : var.writes = var.handler.writesOnError := by
      rw [VarBind.writes, accepted, Bool.false_or]
    rw [committed, accepted, same]
    simp only [Bool.false_eq_true, if_false]
    cases onError : var.handler.writesOnError with
    | true =>
      simp only [if_true, writeToFile_cells, true_and]
      exact writeToFile_files s _
    | false => simp

def commitAll (s : State) (vars : List VarBind) : State := vars.foldl committed s

theorem commitAll_cons : commitAll s (var :: vars) = commitAll (committed s var) vars := rfl

theorem commitAll_cells :
    (commitAll s vars).cells scalar =
      (assignments scalar vars).foldl Cell.stored (s.cells scalar) := by
  induction vars generalizing s with
  | nil => rfl
  | cons var vars ih =>
    have first : assignments scalar (var :: vars) =
        assignments scalar [var] ++ assignments scalar vars := assignments_cons
    rw [commitAll_cons, ih, committed_cells, first, List.foldl_append]

theorem members_file : ∀ file, ∀ scalar ∈ members file, (handler scalar).file = file := by
  intro file
  cases file with
  | subAgentInfo => decide
  | agentInfo => decide

theorem fileText_congr {a b : Cells}
    (same : ∀ scalar, (handler scalar).file = file → a scalar = b scalar) :
    fileText file a = fileText file b := by
  unfold fileText
  apply List.flatMap_congr
  intro scalar member
  rw [same scalar (members_file file scalar member)]

/-- The variables that make their handlers write the file. -/
def writtenBy (file : File) (vars : List VarBind) : Prop :=
  ∃ var ∈ vars, var.handler.file = file ∧ var.writes = true

theorem unwritten_cells (unwritten : ¬ writtenBy file vars)
    (own : (handler scalar).file = file) :
    (commitAll s vars).cells scalar = s.cells scalar := by
  have none : assignments scalar vars = [] := by
    rw [assignments, List.map_eq_nil_iff, List.filter_eq_nil_iff]
    intro var member both
    obtain ⟨name, accepted⟩ := Bool.and_eq_true_iff.mp both
    apply unwritten
    refine ⟨var, member, ?_, ?_⟩
    · rw [VarBind.handler, eq_of_beq name]
      exact own
    · rw [VarBind.writes, accepted, Bool.true_or]
  rw [commitAll_cells, none]
  rfl

theorem commitAll_files_unwritten (unwritten : ¬ writtenBy file vars) :
    (commitAll s vars).files file = s.files file := by
  induction vars generalizing s with
  | nil => rfl
  | cons var vars ih =>
    have later : ¬ writtenBy file vars := by
      intro written
      obtain ⟨other, member, writes⟩ := written
      exact unwritten ⟨other, List.mem_cons_of_mem _ member, writes⟩
    rw [commitAll_cons, ih later, committed_files, if_neg]
    intro here
    exact unwritten ⟨var, List.mem_cons_self, here.1, here.2.1⟩

theorem commitAll_files_closed (closed : ¬ s.canOpen file = true) :
    (commitAll s vars).files file = s.files file := by
  induction vars generalizing s with
  | nil => rfl
  | cons var vars ih =>
    rw [commitAll_cons, ih (by rw [committed_canOpen]; exact closed), committed_files, if_neg]
    intro here
    exact closed here.2.2

theorem commitAll_files_written (written : writtenBy file vars) (canOpen : s.canOpen file = true) :
    (commitAll s vars).files file = some (fileText file (commitAll s vars).cells) := by
  induction vars generalizing s with
  | nil =>
    obtain ⟨_, member, _⟩ := written
    cases member
  | cons var vars ih =>
    rw [commitAll_cons]
    by_cases later : writtenBy file vars
    · apply ih later
      rw [committed_canOpen]
      exact canOpen
    · have here : var.handler.file = file ∧ var.writes = true := by
        obtain ⟨other, member, writes⟩ := written
        rcases List.mem_cons.mp member with rfl | member
        · exact writes
        · exact absurd ⟨other, member, writes⟩ later
      have kept : (commitAll (committed s var) vars).files file = (committed s var).files file :=
        commitAll_files_unwritten later
      rw [kept, committed_files, if_pos ⟨here.1, here.2, canOpen⟩]
      congr 1
      apply fileText_congr
      intro scalar own
      exact (unwritten_cells later own).symm

end Commit

section Stored

variable {kind : Kind} {cell : Cell kind} {value : AsnValue} {values : List AsnValue}

theorem stored_shown (date : kind ≠ .dateAndTime) (accepted : kind.accepts value = true)
    (fits : kind.fits value = true) : (cell.stored value).value = shown kind value := by
  cases cell with
  | integer old => cases value <;> first | rfl | cases accepted
  | interval old => cases value <;> first | rfl | cases accepted
  | ipAddress old size =>
    cases value with
    | ipAddress octets =>
      rw [Cell.stored, Cell.store, dif_pos (eq_of_beq accepted)]
      rfl
    | _ => cases accepted
  | dateAndTime old size => exact absurd rfl date
  | octetString old size ended =>
    cases value with
    | octetStr octets =>
      have bound : octets.length < strLen := of_decide_eq_true fits
      rw [Cell.stored, Cell.store, dif_pos bound]
      rfl
    | _ => cases accepted

theorem stored_keeps (accepted : kind.accepts value = true) (fits : kind.fits value = true)
    (keeps : kind.keeps value = true) : (cell.stored value).value = value.value := by
  by_cases date : kind = .dateAndTime
  · subst date
    cases cell with
    | dateAndTime old size =>
      cases value with
      | octetStr octets =>
        have full : octets.length = dateAndTimeLen := eq_of_beq keeps
        have bound : octets.length ≤ dateAndTimeLen := Nat.le_of_eq full
        rw [Cell.stored, Cell.store, dif_pos bound]
        exact congrArg Value.octets (overlay_full (full.trans size.symm))
      | _ => cases accepted
  · rw [stored_shown date accepted fits]
    cases kind with
    | octetString =>
      cases value with
      | octetStr octets => exact congrArg Value.octets (cString_whole (of_decide_eq_true keeps))
      | _ => rfl
    | _ => rfl

theorem keeps_of_value (accepted : kind.accepts value = true)
    (same : cell.value = value.value) : kind.keeps value = true := by
  cases cell with
  | integer old => rfl
  | interval old => rfl
  | ipAddress old size => rfl
  | dateAndTime old size =>
    cases value with
    | octetStr octets =>
      have equal : old = octets := Value.octets.inj same
      rw [equal] at size
      exact beq_iff_eq.mpr size
    | _ => cases accepted
  | octetString old size ended =>
    cases value with
    | octetStr octets =>
      have equal : old = octets := Value.octets.inj same
      rw [equal] at ended
      exact decide_eq_true ended
    | _ => cases accepted

theorem foldl_keeps (accepted : kind.accepts value = true) (fits : kind.fits value = true)
    (keeps : kind.keeps value = true) (last : values.getLast? = some value) :
    (values.foldl Cell.stored cell).value = value.value := by
  obtain ⟨front, rfl⟩ := List.getLast?_eq_some_iff.mp last
  rw [List.foldl_append]
  exact stored_keeps accepted fits keeps

theorem foldl_date {old : Octets} {size : old.length = dateAndTimeLen}
    (stores : ∀ value ∈ values, Kind.dateAndTime.accepts value = true ∧
      Kind.dateAndTime.fits value = true) :
    (values.foldl Cell.stored (Cell.dateAndTime old size)).value =
      .octets ((values.map AsnValue.octets).foldl overlay old) := by
  induction values generalizing old with
  | nil => rfl
  | cons value values ih =>
    obtain ⟨accepted, fits⟩ := stores value List.mem_cons_self
    cases value with
    | octetStr octets =>
      have bound : octets.length ≤ dateAndTimeLen := of_decide_eq_true fits
      have first : (Cell.dateAndTime old size).stored (.octetStr octets) =
          .dateAndTime (overlay old octets)
            ((overlay_length (by omega)).trans size) := by
        rw [Cell.stored, Cell.store, dif_pos bound]
        rfl
      rw [List.foldl_cons, first, List.map_cons, List.foldl_cons]
      apply ih
      intro later member
      exact stores later (List.mem_cons_of_mem _ member)
    | _ => cases accepted

theorem restored_iff
    (stores : ∀ value ∈ values, kind.accepts value = true ∧ kind.fits value = true) :
    cell.Restored values ↔ values.foldl Cell.stored cell = cell := by
  have byValue : values.foldl Cell.stored cell = cell ↔
      (values.foldl Cell.stored cell).value = cell.value := by
    constructor
    · intro same
      rw [same]
    · exact Cell.value_injective
  rw [byValue]
  have other : kind ≠ .dateAndTime →
      ((∀ value, values.getLast? = some value → shown kind value = cell.value) ↔
        (values.foldl Cell.stored cell).value = cell.value) := by
    intro date
    induction values using List.reverseRecOn with
    | nil => simp
    | append_singleton front value _ =>
      obtain ⟨accepted, fits⟩ := stores value (by simp)
      simp only [List.getLast?_concat, Option.some.injEq, forall_eq', List.foldl_append,
        List.foldl_cons, List.foldl_nil]
      rw [stored_shown date accepted fits]
  cases cell with
  | integer old => exact other (by decide)
  | interval old => exact other (by decide)
  | ipAddress old size => exact other (by decide)
  | octetString old size ended => exact other (by decide)
  | dateAndTime old size =>
    rw [foldl_date stores]
    have pointwise : Value.octets ((values.map AsnValue.octets).foldl overlay old) =
        (Cell.dateAndTime old size).value ↔
        ∀ i : Nat, ((values.map AsnValue.octets).foldl overlay old)[i]? = old[i]? := by
      constructor
      · intro same i
        rw [Value.octets.inj same]
      · intro same
        exact congrArg Value.octets (List.ext_getElem? same)
    rw [pointwise]
    apply forall_congr'
    intro i
    rw [getElem?_foldl_overlay, List.filter_map, List.getLast?_map]
    have filters : (values.filter ((fun write => decide (i < write.length)) ∘ AsnValue.octets)) =
        values.filter fun value => decide (i < value.octets.length) := rfl
    rw [filters]
    cases last : (values.filter fun value => decide (i < value.octets.length)).getLast? with
    | none => simp
    | some value => simp

end Stored

section Whole

variable {s t : State} {status : Status} {mode : Mode} {request vars : List VarBind}

theorem handle_quiet (quiet : mode = .reserve1 ∨ mode = .reserve2 ∨ mode = .action)
    (writable : ∀ var ∈ vars, var.handler.readOnly = false) :
    handleVarRequests mode s vars = some (s, .noError) := by
  induction vars with
  | nil => rfl
  | cons var vars ih =>
    have first : call mode s var = some (s, .noError) := by
      rcases quiet with rfl | rfl | rfl
      · rw [call.eq_def, writable var List.mem_cons_self]
        rfl
      · rw [call.eq_def, writable var List.mem_cons_self]
        rfl
      · rw [call.eq_def, writable var List.mem_cons_self]
        rfl
    rw [handleVarRequests, first, Option.bind_some,
      ih fun later member => writable later (List.mem_cons_of_mem _ member)]
    rfl

theorem handle_readOnly (early : mode = .reserve1 ∨ mode = .free)
    (named : ∃ var ∈ vars, var.handler.readOnly = true) :
    handleVarRequests mode s vars = some (s, .notWritable) := by
  have each : ∀ var : VarBind, call mode s var =
      some (s, if var.handler.readOnly then .notWritable else .noError) := by
    intro var
    rcases early with rfl | rfl
    · rw [call.eq_def]
      cases var.handler.readOnly with
      | true => rfl
      | false => rfl
    · rw [call.eq_def]
      cases var.handler.readOnly with
      | true => rfl
      | false => rfl
  have all : ∀ vars, handleVarRequests mode s vars =
      some (s, if ∃ var ∈ vars, var.handler.readOnly = true then .notWritable else .noError) := by
    intro vars
    induction vars with
    | nil => rfl
    | cons var vars ih =>
      rw [handleVarRequests, each, Option.bind_some, ih]
      cases first : var.handler.readOnly with
      | true => simp [first]
      | false => simp [first]
  rw [all, if_pos named]

theorem handle_commit (writable : ∀ var ∈ vars, var.handler.readOnly = false)
    (fit : ∀ var ∈ vars, var.accepted = true → var.fits = true) :
    handleVarRequests .commit s vars =
      some (commitAll s vars,
        if ∀ var ∈ vars, var.accepted = true then .noError else .commitFailed) := by
  induction vars generalizing s with
  | nil => rfl
  | cons var vars ih =>
    have first : call .commit s var =
        some (committed s var, if var.accepted then .noError else .commitFailed) := by
      rw [call, writable var List.mem_cons_self]
      exact commit_fits (fit var List.mem_cons_self)
    rw [handleVarRequests, first, Option.bind_some,
      ih (fun later member => writable later (List.mem_cons_of_mem _ member))
        (fun later member => fit later (List.mem_cons_of_mem _ member)), commitAll_cons]
    cases accepted : var.accepted with
    | true => simp [accepted]
    | false => simp [accepted]

theorem handle_overrun (writable : ∀ var ∈ vars, var.handler.readOnly = false)
    (overrun : ∃ var ∈ vars, var.accepted = true ∧ var.fits = false) :
    handleVarRequests .commit s vars = none := by
  induction vars generalizing s with
  | nil =>
    obtain ⟨_, member, _⟩ := overrun
    cases member
  | cons var vars ih =>
    have call_commit : call .commit s var = commit s var := by
      rw [call, writable var List.mem_cons_self]
      rfl
    rw [handleVarRequests, call_commit]
    by_cases here : var.accepted = true ∧ var.fits = false
    · rw [commit_overrun here.1 here.2]
      rfl
    · have later : ∃ var ∈ vars, var.accepted = true ∧ var.fits = false := by
        obtain ⟨other, member, both⟩ := overrun
        rcases List.mem_cons.mp member with rfl | member
        · exact absurd both here
        · exact ⟨other, member, both⟩
      have fits : var.accepted = true → var.fits = true := by
        intro accepted
        rw [← Bool.not_eq_false]
        intro short
        exact here ⟨accepted, short⟩
      rw [commit_fits fits, Option.bind_some,
        ih (fun later member => writable later (List.mem_cons_of_mem _ member)) later]
      rfl

theorem loop_pass {passes : Nat} {found : Status}
    (handled : handleVarRequests mode s request = some (t, found)) :
    handleSetLoop (passes + 1) mode s status request =
      match nextMode mode ((if status = .noError then found else status) != .noError) with
      | none => some (t, if status = .noError then found else status)
      | some next =>
        handleSetLoop passes next t (if status = .noError then found else status) request := by
  rw [handleSetLoop, handled]
  rfl

theorem handleSet_readOnly (named : ∃ var ∈ request, var.handler.readOnly = true) :
    handleSet s request = some (s, .notWritable) := by
  have cached : ∃ var ∈ treecache request, var.handler.readOnly = true := by
    obtain ⟨var, member, readOnly⟩ := named
    exact ⟨var, mem_treecache.mpr member, readOnly⟩
  rw [handleSet, loop_pass (handle_readOnly (.inl rfl) cached)]
  show handleSetLoop 3 .free s .notWritable (treecache request) = _
  rw [loop_pass (handle_readOnly (.inr rfl) cached)]
  rfl

theorem handleSet_writable (writable : ∀ var ∈ request, var.handler.readOnly = false) :
    handleSet s request = handleVarRequests .commit s (treecache request) := by
  have cached : ∀ var ∈ treecache request, var.handler.readOnly = false := by
    intro var member
    exact writable var (mem_treecache.mp member)
  rw [handleSet, loop_pass (handle_quiet (.inl rfl) cached)]
  show handleSetLoop 3 .reserve2 s .noError (treecache request) = _
  rw [loop_pass (handle_quiet (.inr (.inl rfl)) cached)]
  show handleSetLoop 2 .action s .noError (treecache request) = _
  rw [loop_pass (handle_quiet (.inr (.inr rfl)) cached)]
  show handleSetLoop 1 .commit s .noError (treecache request) = _
  rw [handleSetLoop]
  cases handleVarRequests .commit s (treecache request) with
  | none => rfl
  | some result => rfl

theorem assignments_stores (fit : ∀ var ∈ request, var.accepted = true → var.fits = true)
    (scalar : Scalar) : ∀ value ∈ assignments scalar request,
      (handler scalar).kind.accepts value = true ∧ (handler scalar).kind.fits value = true := by
  intro value member
  obtain ⟨var, kept, rfl⟩ := List.mem_map.mp member
  obtain ⟨inside, both⟩ := List.mem_filter.mp kept
  obtain ⟨name, accepted⟩ := Bool.and_eq_true_iff.mp both
  have same : var.name = scalar := eq_of_beq name
  subst same
  exact ⟨accepted, fit var inside accepted⟩

theorem mem_assignments {var : VarBind} (member : var ∈ request) (accepted : var.accepted = true) :
    var.value ∈ assignments var.name request := by
  apply List.mem_map.mpr
  refine ⟨var, List.mem_filter.mpr ⟨member, ?_⟩, rfl⟩
  rw [accepted, beq_self_eq_true]
  rfl

theorem all_set_iff (fit : ∀ var ∈ request, var.accepted = true → var.fits = true)
    (all : ∀ var ∈ request, var.accepted = true) :
    (∀ var ∈ request, ((commitAll s (treecache request)).cells var.name).value = var.value.value) ↔
      ∀ var ∈ request, var.handler.kind.keeps var.value = true ∧
        ∀ other ∈ request, other.name = var.name → other.value.value = var.value.value := by
  constructor
  · intro set var member
    constructor
    · exact keeps_of_value (all var member) (set var member)
    · intro other inside name
      have shown := set other inside
      rw [name] at shown
      exact shown.symm.trans (set var member)
  · intro kept var member
    rw [commitAll_cells, assignments_treecache]
    cases last : (assignments var.name request).getLast? with
    | none =>
      have inside := mem_assignments member (all var member)
      rw [List.getLast?_eq_none_iff.mp last] at inside
      cases inside
    | some value =>
      have inside := List.mem_of_getLast? last
      obtain ⟨accepted, fits⟩ := assignments_stores fit var.name value inside
      obtain ⟨other, stored, same⟩ := List.mem_map.mp inside
      obtain ⟨named, both⟩ := List.mem_filter.mp stored
      have name : other.name = var.name := eq_of_beq (Bool.and_eq_true_iff.mp both).1
      have keeps : (handler var.name).kind.keeps value = true := by
        rw [← same, ← name]
        exact (kept other named).1
      rw [foldl_keeps accepted fits keeps last, ← same]
      exact (kept var member).2 other named name

theorem unchanged_iff (fit : ∀ var ∈ request, var.accepted = true → var.fits = true) :
    ((commitAll s (treecache request)).cells = s.cells ∧
        (commitAll s (treecache request)).files = s.files) ↔
      (∀ scalar, (s.cells scalar).Restored (assignments scalar request)) ∧
        FilesCurrent s request := by
  have cells : (commitAll s (treecache request)).cells = s.cells ↔
      ∀ scalar, (s.cells scalar).Restored (assignments scalar request) := by
    rw [funext_iff]
    apply forall_congr'
    intro scalar
    rw [commitAll_cells, assignments_treecache, restored_iff (assignments_stores fit scalar)]
  rw [← cells]
  apply and_congr_right
  intro same
  constructor
  · intro files var member writes canOpen
    have written : writtenBy var.handler.file (treecache request) :=
      ⟨var, mem_treecache.mpr member, rfl, writes⟩
    have new := commitAll_files_written written canOpen
    rw [files, same] at new
    exact new
  · intro current
    funext file
    by_cases written : writtenBy file (treecache request)
    · by_cases canOpen : s.canOpen file = true
      · obtain ⟨var, member, own, writes⟩ := written
        rw [commitAll_files_written ⟨var, member, own, writes⟩ canOpen, same]
        subst own
        exact (current var (mem_treecache.mp member) writes canOpen).symm
      · exact commitAll_files_closed canOpen
    · exact commitAll_files_unwritten written

/-- A SET request is all or nothing exactly when no accepted value is too long and either all
values are accepted and kept as they are, or the accepted ones change nothing. -/
theorem allOrNothing_iff (s : State) (request : List VarBind) :
    AllOrNothing s request ↔ SetWhole s request := by
  unfold AllOrNothing SetWhole
  by_cases named : ∃ var ∈ request, var.handler.readOnly = true
  · constructor
    · intro _
      exact .inl named
    · intro _
      refine ⟨s, .notWritable, handleSet_readOnly named, ?_, ?_⟩
      · intro _
        exact ⟨rfl, rfl⟩
      · intro none
        cases none
  · rw [or_iff_right named]
    have writable : ∀ var ∈ request, var.handler.readOnly = false := by
      intro var member
      rw [← Bool.not_eq_true]
      intro readOnly
      exact named ⟨var, member, readOnly⟩
    have cached : ∀ var ∈ treecache request, var.handler.readOnly = false := by
      intro var member
      exact writable var (mem_treecache.mp member)
    rw [handleSet_writable writable]
    by_cases fit : ∀ var ∈ request, var.accepted = true → var.fits = true
    · rw [and_iff_right fit, handle_commit cached fun var member =>
        fit var (mem_treecache.mp member)]
      have same : (∀ var ∈ treecache request, var.accepted = true) ↔
          ∀ var ∈ request, var.accepted = true := by
        simp only [mem_treecache]
      by_cases all : ∀ var ∈ request, var.accepted = true
      · rw [if_pos all, if_pos (same.mpr all), ← all_set_iff (s := s) fit all]
        constructor
        · intro whole
          obtain ⟨t, status, result, _, set⟩ := whole
          obtain ⟨rfl, rfl⟩ := Prod.mk.inj (Option.some.inj result)
          exact set rfl
        · intro set
          refine ⟨_, _, rfl, ?_, ?_⟩
          · intro failed
            exact absurd rfl failed
          · intro _
            exact set
      · rw [if_neg all, if_neg (fun every => all (same.mp every)), ← unchanged_iff fit]
        constructor
        · intro whole
          obtain ⟨t, status, result, unchanged, _⟩ := whole
          obtain ⟨rfl, rfl⟩ := Prod.mk.inj (Option.some.inj result)
          exact unchanged (by decide)
        · intro unchanged
          refine ⟨_, _, rfl, ?_, ?_⟩
          · intro _
            exact unchanged
          · intro success
            cases success
    · have overrun : ∃ var ∈ treecache request, var.accepted = true ∧ var.fits = false := by
        push Not at fit
        obtain ⟨var, member, accepted, short⟩ := fit
        exact ⟨var, mem_treecache.mpr member, accepted, by simpa using short⟩
      rw [handle_overrun cached overrun]
      constructor
      · intro whole
        obtain ⟨t, status, none, _⟩ := whole
        cases none
      · intro both
        exact absurd both.1 fit

end Whole

section Torn

def emptyName : Octets := [120]

def initial : Cells := fun scalar =>
  match h : (handler scalar).kind with
  | .integer => h ▸ .integer 0
  | .interval => h ▸ .interval 120
  | .ipAddress => h ▸ .ipAddress [0, 0, 0, 0] rfl
  | .dateAndTime => h ▸ .dateAndTime [0, 0, 0, 0, 0, 0, 0, 0, 0, 0, 0] rfl
  | .octetString => h ▸ .octetString emptyName (by decide) (by decide)

def started : State :=
  { cells := initial
    files := fun file => some (fileText file initial)
    canOpen := fun _ => true }

/-- The port is stored before the type of the address is looked at. -/
def portAndAddress : List VarBind :=
  [⟨.appSNMPAgentPort1, .integer 5161⟩, ⟨.appSNMPAgentIP1, .octetStr [49]⟩]

/-- One octet more than the array has room for, with the zero. -/
def longName : VarBind := ⟨.agentInfoName, .octetStr (List.replicate strLen 97)⟩

theorem longName_overrun (s : State) : handleSet s [longName] = none := by
  have own : ∀ var ∈ [longName], var.handler.readOnly = false := by
    intro var member
    rw [List.mem_singleton.mp member]
    rfl
  rw [handleSet_writable own]
  apply handle_overrun
  · intro var member
    exact own var (mem_treecache.mp member)
  · refine ⟨longName, mem_treecache.mpr (List.mem_singleton.mpr rfl), rfl, ?_⟩
    show Kind.fits .octetString (.octetStr (List.replicate strLen 97)) = false
    rw [Kind.fits, decide_eq_false_iff_not, List.length_replicate]
    exact Nat.lt_irrefl strLen

/-- The request is refused and has set the port; and a name of 255 octets is written with its
zero behind the array. -/
theorem set_torn :
    (∃ t, handleSet started portAndAddress = some (t, .commitFailed) ∧
      (t.cells .appSNMPAgentPort1).value = .integer 5161) ∧
    handleSet started [longName] = none ∧
    ¬ AllOrNothing started portAndAddress := by
  have torn : ∃ t, handleSet started portAndAddress = some (t, .commitFailed) ∧
      (t.cells .appSNMPAgentPort1).value = .integer 5161 := by
    exact ⟨_, rfl, rfl⟩
  refine ⟨torn, longName_overrun started, ?_⟩
  intro whole
  obtain ⟨t, status, result, unchanged, _⟩ := whole
  obtain ⟨u, executed, port⟩ := torn
  obtain ⟨rfl, rfl⟩ := Prod.mk.inj (Option.some.inj (result.symm.trans executed))
  have same := (unchanged (by decide)).1
  rw [same] at port
  exact absurd port (by decide)

end Torn

end EveAgent.AgentInfo
