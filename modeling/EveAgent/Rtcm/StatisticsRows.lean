import EveAgent.Rtcm.TrapMonitor
import EveAgent.TransMon.TransactionTable

/-! SET requests on `trapTable` and the rows of `sysStatisticsTable` that they create and destroy.
A `long` and an `oid` have 32 bits. -/

namespace EveAgent.Rtcm

open Machine

section Statistics

/-- `sysStatisticsVariable` in the rows of `sysStatisticsTable`. -/
abbrev Statistics := UInt32 → Option Text

/-- The loop of `createSysStatRow`; `none` is a write beyond `temp` or `sysStatisticsVariable`. -/
def statText : Text → List UInt32 → Option Text
  | text, [] => some text
  | text, id :: ids =>
    let temp := '.' :: printLd (i32 id.toNat)
    if 10 ≤ temp.length ∨ 255 ≤ (text ++ temp).length then none else statText (text ++ temp) ids

def createSysStatRow (stats : Statistics) (index : UInt32) (variableOid : List UInt32) :
    Option Statistics :=
  (statText [] variableOid).map fun text => Function.update stats index (some text)

def destroySysStatRow (stats : Statistics) (index : UInt32) : Statistics :=
  Function.update stats index none

end Statistics

section Requests

abbrev TrapVariable := { ids : List UInt32 // ids.length ≤ 128 }

abbrev TrapMessage := { text : Text // text.length ≤ 255 }

/-- The columns of `trapTable`; those that are in no row here are one. -/
inductive TrapColumn where
  | trapIndex (value : UInt32)
  | trapPolicyID (value : UInt32)
  | trapVariable (value : TrapVariable)
  | trapExpression (value : Int32)
  | trapValue (value : Int32)
  | trapDestinationIP (value : UInt32)
  | trapPort (value : Int32)
  | trapMessage (value : TrapMessage)
  | trapStatus (value : Int32)
  | other
  deriving DecidableEq, Repr

structure TrapVarBind where
  index : UInt32
  column : TrapColumn
  deriving DecidableEq, Repr

/-- The columns of one row, the last varbind first. -/
structure TrapGroup where
  index : UInt32
  columns : List TrapColumn
  deriving DecidableEq, Repr

def groupRequests (varbinds : List TrapVarBind) : List TrapGroup :=
  ((varbinds.map TrapVarBind.index).dedup.insertionSort (· ≤ ·)).map fun index =>
    ⟨index, ((varbinds.filter fun varbind => varbind.index == index).map
      TrapVarBind.column).reverse⟩

def TrapRow.create (index : UInt32) : TrapRow where
  trapIndex := index
  trapPolicyID := 0
  trapVariable := []
  variable_le := by decide
  trapExpression := 0
  trapValue := 0
  trapDestinationIP := 0
  trapPort := 0
  trapMessage := []
  message_le := by decide
  trapStatus := 0

/-- `trapTable_set_reserve1` and `trapTable_set_reserve2` for a column of the right type. -/
def TrapColumn.reserved (index : UInt32) (oldStatus : Int32) : TrapColumn → Bool
  | .trapIndex value => value.toNat ≤ 65535
  | .trapExpression value => 0 ≤ value.toInt && value.toInt ≤ 5
  | .trapStatus value =>
    TransMon.checkRowstatusTransition oldStatus.toInt value.toInt && index.toNat ≤ 65535
  | _ => true

def TrapRow.set (row : TrapRow) : TrapColumn → TrapRow
  | .trapIndex value => { row with trapIndex := value }
  | .trapPolicyID value => { row with trapPolicyID := value }
  | .trapVariable value => { row with trapVariable := value.val, variable_le := value.property }
  | .trapExpression value => { row with trapExpression := value }
  | .trapValue value => { row with trapValue := value }
  | .trapDestinationIP value => { row with trapDestinationIP := value }
  | .trapPort value => { row with trapPort := value }
  | .trapMessage value => { row with trapMessage := value.val, message_le := value.property }
  | .trapStatus value => { row with trapStatus := value }
  | .other => row

def goingActive (trapStatus : Int32) : Bool := trapStatus == 1 || trapStatus == 4

/-- One column of `trapTable_set_action`, whose row is `row` behind it. -/
def TrapColumn.act (row : TrapRow) (stats : Statistics) : TrapColumn → Option Statistics
  | .trapVariable _ =>
    if goingActive row.trapStatus then createSysStatRow stats row.trapIndex row.trapVariable
    else some stats
  | .trapStatus _ =>
    if goingActive row.trapStatus then createSysStatRow stats row.trapIndex row.trapVariable
    else if row.trapStatus = 6 then some (destroySysStatRow stats row.trapIndex)
    else some stats
  | _ => some stats

/-- `netsnmp_table_array_check_row_status`, for rows that may always change their state. -/
def trapRowStatus (rsNew : Int32) : Int32 :=
  if goingActive rsNew then 1 else if rsNew ≠ 6 then 2 else 6

def setColumns : TrapRow → Statistics → List TrapColumn → Option (TrapRow × Statistics)
  | row, stats, [] => some (row, stats)
  | row, stats, column :: columns =>
    match column.act (row.set column) stats with
    | none => none
    | some stats => setColumns (row.set column) stats columns

def trapTableSetAction (row : TrapRow) (stats : Statistics) (columns : List TrapColumn) :
    Option (TrapRow × Statistics) :=
  (setColumns row stats columns).map fun (row, stats) =>
    ({ row with trapStatus := trapRowStatus row.trapStatus }, stats)

end Requests

section Phases

/-- The rows by their indexes, the rows of the statistics, and which rows have been active since
they were created. -/
structure TrapTables where
  rows : UInt32 → Option TrapRow
  stats : Statistics
  activated : UInt32 → Bool

def TrapTables.start : TrapTables := ⟨fun _ => none, fun _ => none, fun _ => false⟩

/-- What other varbinds do. Where they fail to commit, this table has been committed. -/
inductive Others where
  | succeed
  | failReserve
  | failAction
  deriving DecidableEq, Repr

structure TrapSet where
  varbinds : List TrapVarBind
  others : Others
  deriving DecidableEq, Repr

def TrapTables.existingRow (s : TrapTables) (index : UInt32) : TrapRow :=
  (s.rows index).getD (TrapRow.create index)

def TrapTables.reserves (s : TrapTables) (group : TrapGroup) : Bool :=
  group.columns.all (TrapColumn.reserved group.index (s.existingRow group.index).trapStatus)

/-- The actions of the groups, one after the other, with the rows that they leave. -/
def TrapTables.setActions (s : TrapTables) :
    List TrapGroup → Statistics → Option (List (UInt32 × TrapRow) × Statistics)
  | [], stats => some ([], stats)
  | group :: groups, stats =>
    match trapTableSetAction (s.existingRow group.index) stats group.columns with
    | none => none
    | some (row, stats) =>
      match s.setActions groups stats with
      | none => none
      | some (acted, stats) => some ((group.index, row) :: acted, stats)

/-- New rows are inserted and those that are to be destroyed removed. -/
def TrapTables.commit (s : TrapTables) (acted : List (UInt32 × TrapRow)) (stats : Statistics) :
    TrapTables where
  rows index :=
    match acted.lookup index with
    | none => s.rows index
    | some row => if row.trapStatus = 6 then none else some row
  stats := stats
  activated index :=
    match acted.lookup index with
    | none => s.activated index
    | some row => row.trapStatus != 6 && (s.activated index || row.trapStatus == 1)

def TrapTables.refuses (s : TrapTables) (request : TrapSet) : Bool :=
  request.others == .failReserve || !(groupRequests request.varbinds).all s.reserves

/-- The phases of one request. An undone row is copied back from its duplicate; nothing undoes
what was done to the statistics. -/
def TrapTables.set (s : TrapTables) (request : TrapSet) : Option TrapTables :=
  if s.refuses request then some s
  else
    match s.setActions (groupRequests request.varbinds) s.stats with
    | none => none
    | some (acted, stats) =>
      if request.others = .failAction then some { s with stats := stats }
      else some (s.commit acted stats)

def TrapTables.fails (s : TrapTables) (request : TrapSet) : Prop :=
  s.refuses request = true ∨ request.others = .failAction

end Phases

section Specification

/-- There is a row of statistics exactly for each row that has been activated, with the dotted form
of its variable. -/
structure TrapTables.Follows (s : TrapTables) : Prop where
  stats : ∀ index, s.stats index =
    if s.activated index then (s.rows index).map fun row => oidText row.trapVariable else none
  rows : ∀ index, s.activated index = true → s.rows index ≠ none

def LeavesFailed (s : TrapTables) (request : TrapSet) : Prop :=
  s.fails request → ∀ t, s.set request = some t → t.rows = s.rows ∧ t.stats = s.stats

end Specification

section Conditions

/-- The sub-identifiers have at most eight digits, and their text fits. -/
def StatFits (variableOid : List UInt32) : Prop :=
  (∀ id ∈ variableOid, id.toNat < 10 ^ 8) ∧ (oidText variableOid).length < 255

instance (variableOid : List UInt32) : Decidable (StatFits variableOid) :=
  @instDecidableAnd _ _ (List.decidableBAll _ variableOid) inferInstance

/-- What the statistics are written for at a column: the variable, while the row is active or
created so. -/
def recordedBy (row : TrapRow) : TrapColumn → Option (List UInt32)
  | .trapVariable value => if goingActive row.trapStatus then some value.val else none
  | .trapStatus value => if goingActive value then some row.trapVariable else none
  | _ => none

def recorded : TrapRow → List TrapColumn → List (List UInt32)
  | _, [] => []
  | row, column :: columns => (recordedBy row column).toList ++ recorded (row.set column) columns

/-- The statistics are left to be those of the variable: they are not destroyed and were last
written for it, and where there are none none are written. -/
def Keeps (row : TrapRow) (activated : Bool) (columns : List TrapColumn)
    (variableOid : List UInt32) : Prop :=
  if activated then
    .trapStatus 6 ∉ columns ∧ (recorded row columns).getLastD row.trapVariable = variableOid
  else recorded row columns = []

def TrapColumn.keepsIndex (index : UInt32) : TrapColumn → Bool
  | .trapIndex value => value == index
  | _ => true

/-- The index is the row's own, and what is written fits; what is undone is as before, and a row
that is neither active nor destroyed afterwards keeps its statistics. -/
structure TrapGroup.Fits (group : TrapGroup) (row : TrapRow) (activated undone : Bool) : Prop where
  index : group.columns.all (TrapColumn.keepsIndex group.index) = true
  written : ∀ variableOid ∈ recorded row group.columns, StatFits variableOid
  undo : undone = true → Keeps row activated group.columns row.trapVariable
  quiet : undone = false → trapRowStatus (group.columns.foldl TrapRow.set row).trapStatus = 2 →
    Keeps row activated group.columns (group.columns.foldl TrapRow.set row).trapVariable

instance (row : TrapRow) (activated : Bool) (columns : List TrapColumn)
    (variableOid : List UInt32) : Decidable (Keeps row activated columns variableOid) :=
  inferInstanceAs (Decidable (if activated = true then
    .trapStatus 6 ∉ columns ∧ (recorded row columns).getLastD row.trapVariable = variableOid
    else recorded row columns = []))

instance (group : TrapGroup) (row : TrapRow) (activated undone : Bool) :
    Decidable (group.Fits row activated undone) :=
  decidable_of_iff
    (group.columns.all (TrapColumn.keepsIndex group.index) = true ∧
      (∀ variableOid ∈ recorded row group.columns, StatFits variableOid) ∧
      (undone = true → Keeps row activated group.columns row.trapVariable) ∧
      (undone = false →
        trapRowStatus (group.columns.foldl TrapRow.set row).trapStatus = 2 →
        Keeps row activated group.columns
          (group.columns.foldl TrapRow.set row).trapVariable))
    ⟨fun ⟨index, written, undo, quiet⟩ => ⟨index, written, undo, quiet⟩,
      fun ⟨index, written, undo, quiet⟩ => ⟨index, written, undo, quiet⟩⟩

def TrapSet.Fits (s : TrapTables) (request : TrapSet) : Prop :=
  s.refuses request = false → ∀ group ∈ groupRequests request.varbinds,
    group.Fits (s.existingRow group.index) (s.activated group.index)
      (request.others == .failAction)

instance (s : TrapTables) (request : TrapSet) : Decidable (request.Fits s) :=
  inferInstanceAs (Decidable (_ → ∀ group ∈ groupRequests request.varbinds, _))

end Conditions

section Texts

theorem oidText_cons (id : UInt32) (ids : List UInt32) :
    oidText (id :: ids) = '.' :: Nat.toDigits 10 id.toNat ++ oidText ids := by
  simp [oidText]

theorem printLd_small {id : UInt32} (small : id.toNat < 10 ^ 8) :
    printLd (i32 id.toNat) = Nat.toDigits 10 id.toNat := by
  rw [i32_of_range (by omega) (by omega), printLd, if_neg (by omega), Int.natAbs_natCast]

theorem statText_fits {text : Text} {ids : List UInt32} (small : ∀ id ∈ ids, id.toNat < 10 ^ 8)
    (short : (text ++ oidText ids).length < 255) :
    statText text ids = some (text ++ oidText ids) := by
  induction ids generalizing text with
  | nil => simp [statText, oidText]
  | cons id ids ih =>
    have first := small id List.mem_cons_self
    have digits := Nat.toDigits_length 10 id.toNat 8 (by decide) first
    rw [oidText_cons] at short ⊢
    simp only [List.length_append, List.length_cons] at short
    have fits : ¬(10 ≤ ('.' :: Nat.toDigits 10 id.toNat).length ∨
        255 ≤ (text ++ '.' :: Nat.toDigits 10 id.toNat).length) := by
      simp only [List.length_append, List.length_cons]
      omega
    rw [statText, printLd_small first, if_neg fits, ih, List.append_assoc, List.cons_append]
    · intro other member
      exact small other (List.mem_cons_of_mem _ member)
    · simp only [List.length_append, List.length_cons]
      omega

theorem createSysStatRow_fits {variableOid : List UInt32} (fits : StatFits variableOid)
    (stats : Statistics) (index : UInt32) :
    createSysStatRow stats index variableOid =
      some (Function.update stats index (some (oidText variableOid))) := by
  have text : statText [] variableOid = some (oidText variableOid) := statText_fits fits.1 fits.2
  rw [createSysStatRow, text]
  rfl

end Texts

section Columns

variable {row : TrapRow} {column : TrapColumn} {stats : Statistics}

theorem TrapRow.act_cases (row : TrapRow) (column : TrapColumn) (stats : Statistics) :
    (recordedBy row column = some (row.set column).trapVariable ∧ column ≠ .trapStatus 6 ∧
      (row.set column).trapStatus ≠ 6 ∧
      column.act (row.set column) stats =
        createSysStatRow stats (row.set column).trapIndex (row.set column).trapVariable) ∨
    (recordedBy row column = none ∧ column = .trapStatus 6 ∧ (row.set column).trapStatus = 6 ∧
      column.act (row.set column) stats =
        some (destroySysStatRow stats (row.set column).trapIndex)) ∨
    (recordedBy row column = none ∧ column ≠ .trapStatus 6 ∧
      (goingActive (row.set column).trapStatus = true →
        goingActive row.trapStatus = true ∧ (row.set column).trapVariable = row.trapVariable) ∧
      ((row.set column).trapStatus = 6 → row.trapStatus = 6) ∧
      column.act (row.set column) stats = some stats) := by
  cases column with
  | trapVariable value =>
    cases active : goingActive row.trapStatus with
    | true =>
      left
      have status : row.trapStatus ≠ 6 := by
        intro six
        rw [six] at active
        cases active
      simp [recordedBy, TrapRow.set, TrapColumn.act, active, status]
    | false =>
      right
      right
      simp [recordedBy, TrapRow.set, TrapColumn.act, active]
  | trapStatus value =>
    cases active : goingActive value with
    | true =>
      left
      have status : value ≠ 6 := by
        rintro rfl
        cases active
      simp [recordedBy, TrapRow.set, TrapColumn.act, active, status]
    | false =>
      right
      by_cases six : value = 6
      · left
        rw [six] at active ⊢
        simp [recordedBy, TrapRow.set, TrapColumn.act, active]
      · right
        simp [recordedBy, TrapRow.set, TrapColumn.act, active, six]
  | _ =>
    right
    right
    simp [recordedBy, TrapRow.set, TrapColumn.act]

/-- What columns do to the text of the row's own index: without a destruction it is that of the
variable written last, without a write it stays away, and it is right wherever the row ends active
or destroyed. -/
structure ActedOn (row : TrapRow) (columns : List TrapColumn) (before after : Option Text) :
    Prop where
  kept : ∀ variableOid, .trapStatus 6 ∉ columns → before = some (oidText variableOid) →
    after = some (oidText ((recorded row columns).getLastD variableOid))
  empty : recorded row columns = [] → before = none → after = none
  active : (goingActive row.trapStatus = true → before = some (oidText row.trapVariable)) →
    goingActive (columns.foldl TrapRow.set row).trapStatus = true →
    after = some (oidText (columns.foldl TrapRow.set row).trapVariable)
  destroyed : (row.trapStatus = 6 → before = none) →
    (columns.foldl TrapRow.set row).trapStatus = 6 → after = none

variable {index : UInt32} {columns : List TrapColumn}

theorem TrapRow.set_trapIndex (own : row.trapIndex = index)
    (same : column.keepsIndex index = true) : (row.set column).trapIndex = index := by
  cases column with
  | trapIndex value => exact eq_of_beq same
  | _ => exact own

theorem setColumns_fits (row : TrapRow) (stats : Statistics) (own : row.trapIndex = index)
    (same : columns.all (TrapColumn.keepsIndex index) = true)
    (written : ∀ variableOid ∈ recorded row columns, StatFits variableOid) :
    ∃ stats', setColumns row stats columns = some (columns.foldl TrapRow.set row, stats') ∧
      (columns.foldl TrapRow.set row).trapIndex = index ∧
      (∀ other, other ≠ index → stats' other = stats other) ∧
      ActedOn row columns (stats index) (stats' index) := by
  induction columns generalizing row stats with
  | nil =>
    refine ⟨stats, rfl, own, fun _ _ => rfl, ?_, ?_, ?_, ?_⟩
    · intro variableOid _ here
      exact here
    · intro _ none
      exact none
    · intro held active
      exact held active
    · intro held six
      exact held six
  | cons column columns ih =>
    rw [List.all_cons, Bool.and_eq_true] at same
    obtain ⟨first, rest⟩ := same
    have next : (row.set column).trapIndex = index := TrapRow.set_trapIndex own first
    have laterWritten : ∀ variableOid ∈ recorded (row.set column) columns,
        StatFits variableOid :=
      fun variableOid member => written variableOid (List.mem_append_right _ member)
    rcases row.act_cases column stats with
      ⟨recorded', notSix, status, act⟩ | ⟨recorded', six, status, act⟩ |
      ⟨recorded', notSix, active, status, act⟩
    · have fits : StatFits (row.set column).trapVariable :=
        written _ (List.mem_append_left _ (by rw [recorded']; exact List.mem_singleton_self _))
      rw [next, createSysStatRow_fits fits] at act
      obtain ⟨stats', set, ends, frame, acted⟩ :=
        ih _ (Function.update stats index (some (oidText (row.set column).trapVariable)))
          next rest laterWritten
      refine ⟨stats', by rw [setColumns, act]; exact set, ends, ?_, ?_, ?_, ?_, ?_⟩
      · intro other different
        rw [frame other different, Function.update_of_ne different]
      · intro variableOid kept _
        rw [recorded, recorded', Option.toList_some, List.singleton_append, List.getLastD_cons]
        apply acted.kept
        · intro later
          exact kept (List.mem_cons_of_mem _ later)
        · exact Function.update_self ..
      · intro none
        rw [recorded, recorded'] at none
        cases none
      · intro _ ends
        exact acted.active (fun _ => Function.update_self ..) ends
      · intro _ ends
        exact acted.destroyed (fun six => absurd six status) ends
    · rw [next] at act
      obtain ⟨stats', set, ends, frame, acted⟩ :=
        ih _ (destroySysStatRow stats index) next rest laterWritten
      refine ⟨stats', by rw [setColumns, act]; exact set, ends, ?_, ?_, ?_, ?_, ?_⟩
      · intro other different
        rw [frame other different, destroySysStatRow, Function.update_of_ne different]
      · intro variableOid kept
        exact absurd (by rw [six]; exact List.mem_cons_self) kept
      · intro none _
        rw [recorded, recorded'] at none
        exact acted.empty none (Function.update_self ..)
      · intro _ ends
        apply acted.active _ ends
        intro active
        rw [status] at active
        cases active
      · intro _ ends
        exact acted.destroyed (fun _ => Function.update_self ..) ends
    · obtain ⟨stats', set, ends, frame, acted⟩ := ih _ stats next rest laterWritten
      refine ⟨stats', by rw [setColumns, act]; exact set, ends, frame, ?_, ?_, ?_, ?_⟩
      · intro variableOid kept here
        rw [recorded, recorded', Option.toList_none, List.nil_append]
        apply acted.kept variableOid _ here
        intro later
        exact kept (List.mem_cons_of_mem _ later)
      · intro none
        rw [recorded, recorded'] at none
        exact acted.empty none
      · intro held ends
        apply acted.active _ ends
        intro now
        rw [(active now).2]
        exact held (active now).1
      · intro held ends
        exact acted.destroyed (fun six => held (status six)) ends

end Columns

section Groups

variable {s : TrapTables} {group : TrapGroup} {groups : List TrapGroup} {undone : Bool}

def TrapRow.acted (row : TrapRow) (columns : List TrapColumn) : TrapRow :=
  { columns.foldl TrapRow.set row with
    trapStatus := trapRowStatus (columns.foldl TrapRow.set row).trapStatus }

theorem TrapTables.setActions_fit (stats : Statistics)
    (distinct : (groups.map TrapGroup.index).Nodup)
    (own : ∀ group ∈ groups, (s.existingRow group.index).trapIndex = group.index)
    (fits : ∀ group ∈ groups,
      group.Fits (s.existingRow group.index) (s.activated group.index) undone) :
    ∃ acted stats', s.setActions groups stats = some (acted, stats') ∧
      (∀ index, index ∉ groups.map TrapGroup.index →
        acted.lookup index = none ∧ stats' index = stats index) ∧
      ∀ group ∈ groups,
        acted.lookup group.index = some ((s.existingRow group.index).acted group.columns) ∧
        ((s.existingRow group.index).acted group.columns).trapIndex = group.index ∧
        ActedOn (s.existingRow group.index) group.columns (stats group.index)
          (stats' group.index) := by
  induction groups generalizing stats with
  | nil => exact ⟨[], stats, rfl, fun _ _ => ⟨rfl, rfl⟩, by simp⟩
  | cons first groups ih =>
    simp only [List.map_cons, List.nodup_cons] at distinct
    have firstFits := fits first List.mem_cons_self
    obtain ⟨middle, set, ends, frame, actedOn⟩ :=
      setColumns_fits _ stats (own first List.mem_cons_self) firstFits.index
        firstFits.written
    obtain ⟨acted, stats', rest, others, each⟩ := ih middle distinct.2
      (fun group member => own group (List.mem_cons_of_mem _ member))
      (fun group member => fits group (List.mem_cons_of_mem _ member))
    refine ⟨(first.index, (s.existingRow first.index).acted first.columns) :: acted, stats',
      ?_, ?_, ?_⟩
    · rw [TrapTables.setActions, trapTableSetAction, set]
      dsimp only [Option.map]
      rw [rest]
      rfl
    · intro index absent
      simp only [List.map_cons, List.mem_cons, not_or] at absent
      obtain ⟨none, same⟩ := others index absent.2
      constructor
      · rw [List.lookup_cons, beq_false_of_ne absent.1]
        exact none
      · rw [same, frame index absent.1]
    · intro group member
      rcases List.mem_cons.mp member with rfl | member
      · refine ⟨by simp, ends, ?_⟩
        rw [(others _ distinct.1).2]
        exact actedOn
      · have different : group.index ≠ first.index := by
          intro same
          apply distinct.1
          rw [← same]
          exact List.mem_map_of_mem member
        obtain ⟨found, ownIndex, actedLater⟩ := each group member
        rw [frame group.index different] at actedLater
        refine ⟨?_, ownIndex, actedLater⟩
        rw [List.lookup_cons, beq_false_of_ne different]
        exact found

theorem groupRequests_distinct (varbinds : List TrapVarBind) :
    ((groupRequests varbinds).map TrapGroup.index).Nodup := by
  have indexes : (groupRequests varbinds).map TrapGroup.index =
      (varbinds.map TrapVarBind.index).dedup.insertionSort (· ≤ ·) := by
    simp [groupRequests, Function.comp_def]
  rw [indexes]
  exact (List.perm_insertionSort _ _).nodup_iff.mpr (List.nodup_dedup _)

end Groups

section Runs

variable {s t : TrapTables} {request : TrapSet} {group : TrapGroup} {row : TrapRow}

/-- The row has its own index and is active, which is noted, or not in service, and its statistics
follow. -/
structure TrapTables.InvAt (s : TrapTables) (index : UInt32) : Prop where
  stats : s.stats index =
    if s.activated index then (s.rows index).map fun row => oidText row.trapVariable else none
  present : s.activated index = true → s.rows index ≠ none
  own : ∀ row, s.rows index = some row → row.trapIndex = index
  status : ∀ row, s.rows index = some row →
    row.trapStatus = 1 ∧ s.activated index = true ∨ row.trapStatus = 2

def TrapTables.Inv (s : TrapTables) : Prop := ∀ index, s.InvAt index

theorem TrapTables.Inv.follows (inv : s.Inv) : s.Follows where
  stats index := (inv index).stats
  rows index := (inv index).present

theorem TrapTables.Inv.start : TrapTables.start.Inv := by
  intro index
  constructor
  · rfl
  · intro active
    cases active
  · intro row found
    cases found
  · intro row found
    cases found

theorem trapRowStatus_cases (rsNew : Int32) :
    goingActive rsNew = true ∧ trapRowStatus rsNew = 1 ∨ rsNew = 6 ∧ trapRowStatus rsNew = 6 ∨
      goingActive rsNew = false ∧ rsNew ≠ 6 ∧ trapRowStatus rsNew = 2 := by
  unfold trapRowStatus
  cases active : goingActive rsNew with
  | true => simp
  | false =>
    by_cases six : rsNew = 6
    · simp [six]
    · simp [six]

theorem TrapTables.Inv.existing_own (inv : s.Inv) (index : UInt32) :
    (s.existingRow index).trapIndex = index := by
  cases found : s.rows index with
  | none =>
    rw [TrapTables.existingRow, found]
    rfl
  | some row =>
    rw [TrapTables.existingRow, found]
    exact (inv index).own row found

theorem TrapTables.Inv.existing_active (inv : s.Inv) (index : UInt32)
    (active : goingActive (s.existingRow index).trapStatus = true) :
    s.stats index = some (oidText (s.existingRow index).trapVariable) := by
  rw [TrapTables.existingRow] at active ⊢
  cases found : s.rows index with
  | none =>
    rw [found] at active
    cases active
  | some row =>
    rw [found] at active
    rcases (inv index).status row found with ⟨_, activated⟩ | two
    · rw [inv.follows.stats, activated, found]
      rfl
    · simp [Option.getD_some, two, goingActive] at active

theorem TrapTables.Inv.existing_status (inv : s.Inv) (index : UInt32) :
    (s.existingRow index).trapStatus ≠ 6 := by
  rw [TrapTables.existingRow]
  cases found : s.rows index with
  | none =>
    change (0 : Int32) ≠ 6
    decide
  | some row =>
    rcases (inv index).status row found with ⟨one, _⟩ | two
    · simp [one]
    · simp [two]

theorem TrapTables.Inv.inactive (inv : s.Inv) {index : UInt32}
    (never : s.activated index = false) : s.stats index = none := by
  rw [inv.follows.stats, never]
  rfl

theorem TrapTables.Inv.activated_text (inv : s.Inv) {index : UInt32}
    (once : s.activated index = true) :
    s.stats index = some (oidText (s.existingRow index).trapVariable) := by
  cases found : s.rows index with
  | none => exact absurd found (inv.follows.rows index once)
  | some row =>
    rw [inv.follows.stats, once, TrapTables.existingRow, found]
    rfl

theorem TrapTables.Inv.kept (inv : s.Inv) {index : UInt32} {columns : List TrapColumn}
    {variableOid : List UInt32} {after : Option Text}
    (keeps : Keeps (s.existingRow index) (s.activated index) columns variableOid)
    (acted : ActedOn (s.existingRow index) columns (s.stats index) after) :
    after = if s.activated index then some (oidText variableOid) else none := by
  rw [Keeps] at keeps
  cases activated : s.activated index with
  | true =>
    rw [if_pos activated] at keeps
    rw [acted.kept _ keeps.1 (inv.activated_text activated), keeps.2]
    rfl
  | false =>
    rw [if_neg (by simp [activated])] at keeps
    exact acted.empty keeps (inv.inactive activated)

theorem TrapTables.Inv.setActions (inv : s.Inv) (fits : request.Fits s)
    (taken : s.refuses request = false) :
    ∃ acted stats', s.setActions (groupRequests request.varbinds) s.stats = some (acted, stats') ∧
      (∀ index, index ∉ (groupRequests request.varbinds).map TrapGroup.index →
        acted.lookup index = none ∧ stats' index = s.stats index) ∧
      ∀ group ∈ groupRequests request.varbinds,
        acted.lookup group.index = some ((s.existingRow group.index).acted group.columns) ∧
        ((s.existingRow group.index).acted group.columns).trapIndex = group.index ∧
        ActedOn (s.existingRow group.index) group.columns (s.stats group.index)
          (stats' group.index) :=
  TrapTables.setActions_fit s.stats (groupRequests_distinct _)
    (fun group _ => inv.existing_own group.index) (fits taken)

theorem TrapTables.Inv.undone (inv : s.Inv) (fits : request.Fits s)
    (taken : s.refuses request = false) (fails : request.others = .failAction) :
    s.set request = some s := by
  obtain ⟨acted, stats', set, others, each⟩ := inv.setActions fits taken
  have same : stats' = s.stats := by
    funext index
    by_cases member : index ∈ (groupRequests request.varbinds).map TrapGroup.index
    · obtain ⟨group, grouped, rfl⟩ := List.mem_map.mp member
      have keeps := (fits taken group grouped).undo (by simp [fails])
      rw [inv.kept keeps (each group grouped).2.2]
      cases activated : s.activated group.index with
      | true => exact (inv.activated_text activated).symm
      | false => exact (inv.inactive activated).symm
    · exact (others index member).2
  rw [TrapTables.set, taken, if_neg (by simp), set]
  dsimp only
  rw [if_pos fails, same]

theorem TrapTables.commit_untouched {acted : List (UInt32 × TrapRow)} {stats' : Statistics}
    {index : UInt32} (inv : s.InvAt index) (none : acted.lookup index = none)
    (same : stats' index = s.stats index) : (s.commit acted stats').InvAt index := by
  have rows : (s.commit acted stats').rows index = s.rows index := by
    simp only [TrapTables.commit, none]
  have activated : (s.commit acted stats').activated index = s.activated index := by
    simp only [TrapTables.commit, none]
  have stats : (s.commit acted stats').stats index = s.stats index := same
  constructor
  · rw [rows, activated, stats]
    exact inv.stats
  · rw [rows, activated]
    exact inv.present
  · rw [rows]
    exact inv.own
  · rw [rows, activated]
    exact inv.status

theorem TrapTables.Inv.commit_group (inv : s.Inv) {acted : List (UInt32 × TrapRow)}
    {stats' : Statistics}
    (fits : group.Fits (s.existingRow group.index) (s.activated group.index) false)
    (found : acted.lookup group.index =
      some ((s.existingRow group.index).acted group.columns))
    (own : ((s.existingRow group.index).acted group.columns).trapIndex = group.index)
    (actedOn : ActedOn (s.existingRow group.index) group.columns (s.stats group.index)
      (stats' group.index)) : (s.commit acted stats').InvAt group.index := by
  rcases trapRowStatus_cases
      (group.columns.foldl TrapRow.set (s.existingRow group.index)).trapStatus with
    ⟨active, status⟩ | ⟨six, status⟩ | ⟨_, _, status⟩
  · have rows : (s.commit acted stats').rows group.index =
        some ((s.existingRow group.index).acted group.columns) := by
      simp [TrapTables.commit, found, TrapRow.acted, status]
    have activated : (s.commit acted stats').activated group.index = true := by
      simp [TrapTables.commit, found, TrapRow.acted, status]
    constructor
    · rw [rows, activated]
      exact actedOn.active (inv.existing_active group.index) active
    · simp [rows]
    · rw [rows]
      rintro row ⟨⟩
      exact own
    · rw [rows]
      rintro row ⟨⟩
      exact .inl ⟨status, activated⟩
  · have rows : (s.commit acted stats').rows group.index = none := by
      simp [TrapTables.commit, found, TrapRow.acted, status]
    have activated : (s.commit acted stats').activated group.index = false := by
      simp [TrapTables.commit, found, TrapRow.acted, status]
    constructor
    · rw [activated]
      exact actedOn.destroyed (fun was => absurd was (inv.existing_status group.index)) six
    · simp [activated]
    · simp [rows]
    · simp [rows]
  · have rows : (s.commit acted stats').rows group.index =
        some ((s.existingRow group.index).acted group.columns) := by
      simp [TrapTables.commit, found, TrapRow.acted, status]
    have activated : (s.commit acted stats').activated group.index =
        s.activated group.index := by
      simp [TrapTables.commit, found, TrapRow.acted, status]
    constructor
    · rw [rows, activated]
      exact inv.kept (fits.quiet rfl status) actedOn
    · simp [rows]
    · rw [rows]
      rintro row ⟨⟩
      exact own
    · rw [rows]
      rintro row ⟨⟩
      exact .inr status

theorem TrapTables.Inv.committed (inv : s.Inv) (fits : request.Fits s)
    (taken : s.refuses request = false) (succeeds : request.others ≠ .failAction) :
    ∃ t, s.set request = some t ∧ t.Inv := by
  obtain ⟨acted, stats', set, others, each⟩ := inv.setActions fits taken
  refine ⟨s.commit acted stats', ?_, ?_⟩
  · rw [TrapTables.set, taken, if_neg (by simp), set]
    dsimp only
    rw [if_neg succeeds]
  · intro index
    by_cases member : index ∈ (groupRequests request.varbinds).map TrapGroup.index
    · obtain ⟨group, grouped, rfl⟩ := List.mem_map.mp member
      have groupFits := fits taken group grouped
      rw [show (request.others == .failAction) = false by simpa using succeeds] at groupFits
      obtain ⟨found, own, actedOn⟩ := each group grouped
      exact inv.commit_group groupFits found own actedOn
    · obtain ⟨none, same⟩ := others index member
      exact TrapTables.commit_untouched (inv index) none same

theorem TrapTables.Inv.set (inv : s.Inv) (fits : request.Fits s) :
    ∃ t, s.set request = some t ∧ t.Inv := by
  cases taken : s.refuses request with
  | true => exact ⟨s, by rw [TrapTables.set, if_pos taken], inv⟩
  | false =>
    by_cases fails : request.others = .failAction
    · exact ⟨s, inv.undone fits taken fails, inv⟩
    · exact inv.committed fits taken fails

theorem TrapTables.Inv.leavesFailed (inv : s.Inv) (fits : request.Fits s) :
    LeavesFailed s request := by
  intro fails t set
  have same : s.set request = some s := by
    cases taken : s.refuses request with
    | true => rw [TrapTables.set, if_pos taken]
    | false =>
      rcases fails with refused | fails
      · rw [taken] at refused
        cases refused
      · exact inv.undone fits taken fails
  rw [same] at set
  cases set
  exact ⟨rfl, rfl⟩

/-- In every run whose requests fit, no buffer is left, the statistics follow the rows, and failed
requests leave both tables. -/
theorem statistics_follow {requests : List TrapSet}
    (met : Along TrapTables.set (fun s request => request.Fits s) TrapTables.start requests) :
    ∃ s, run TrapTables.set TrapTables.start requests = some s ∧ s.Follows ∧
      Along TrapTables.set LeavesFailed TrapTables.start requests := by
  have progress : ∀ (s : TrapTables) (request : TrapSet), s.Inv → request.Fits s →
      ∃ t, s.set request = some t ∧ t.Inv := fun s request inv fits => inv.set fits
  have kept : ∀ (s : TrapTables) (request : TrapSet) (t : TrapTables), s.Inv → request.Fits s →
      s.set request = some t → t.Inv := by
    intro s request t inv fits set
    obtain ⟨t', set', kept⟩ := inv.set fits
    rw [set] at set'
    cases set'
    exact kept
  obtain ⟨s, ran, inv⟩ := run_progress progress TrapTables.Inv.start met
  refine ⟨s, ran, inv.follows, ?_⟩
  apply Along.of_invariant kept _ TrapTables.Inv.start met
  intro s request inv fits
  exact inv.leavesFailed fits

/-- Row 1 is created for the variable `.1.3.6` and goes active. -/
def createAndGo (others : Others) : TrapSet :=
  ⟨[⟨1, .trapVariable ⟨[1, 3, 6], load.variable_le⟩⟩, ⟨1, .trapStatus 4⟩], others⟩

theorem statistics_follow_created :
    ∃ s, run TrapTables.set TrapTables.start
        [createAndGo .succeed, ⟨[⟨1, .trapStatus 2⟩], .failAction⟩,
          ⟨[⟨1, .trapStatus 6⟩], .succeed⟩] = some s ∧ s.Follows ∧
      Along TrapTables.set LeavesFailed TrapTables.start
        [createAndGo .succeed, ⟨[⟨1, .trapStatus 2⟩], .failAction⟩,
          ⟨[⟨1, .trapStatus 6⟩], .succeed⟩] :=
  statistics_follow (by decide +kernel)

/-- Another varbind of the request fails: there is no row, but its statistics remain. -/
theorem statistics_without_row :
    ∃ s, run TrapTables.set TrapTables.start [createAndGo .failAction] = some s ∧ ¬s.Follows := by
  obtain ⟨s, ran, activated, stats⟩ := run_of_any
    (P := fun s => s.activated 1 = false ∧ s.stats 1 ≠ none)
    (show (run TrapTables.set TrapTables.start [createAndGo .failAction]).any _ = true by
      decide +kernel)
  refine ⟨s, ran, ?_⟩
  intro follows
  have none := follows.stats 1
  rw [activated] at none
  exact stats none

end Runs

end EveAgent.Rtcm
