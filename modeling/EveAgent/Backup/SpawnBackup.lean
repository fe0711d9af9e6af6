import EveAgent.GetBulk
import EveAgent.Backup.RunCopies

namespace EveAgent.Backup.Run

open GetBulk JobSched

section Table

abbrev DisplayString := { octets : Octets // octets.length ≤ 255 }

inductive RowStatus where
  | active
  | notInService
  | notReady
  | createAndGo
  | createAndWait
  | destroy
  deriving DecidableEq, Repr

def RowStatus.integer : RowStatus → Int32
  | .active => 1
  | .notInService => 2
  | .notReady => 3
  | .createAndGo => 4
  | .createAndWait => 5
  | .destroy => 6

/-- A row of the backup detail table, with the columns that are fetched. -/
structure DetailRow where
  backupDetailIndex : Nat
  backupDetailMasterID : DisplayString
  backupDetailFileLocation1 : DisplayString
  backupDetailFileLocation2 : DisplayString
  backupDetailFileLocation3 : DisplayString
  backupDetailFileLocation4 : DisplayString
  backupDetailFileLocation5 : DisplayString
  backupDetailStatus : RowStatus
  deriving DecidableEq, Repr

def DetailRow.locations (row : DetailRow) : List DisplayString :=
  [row.backupDetailFileLocation1, row.backupDetailFileLocation2, row.backupDetailFileLocation3,
    row.backupDetailFileLocation4, row.backupDetailFileLocation5]

def backupDetailEntry : Oid := [1, 3, 6, 1, 4, 1, 3204, 1, 3, 34, 2, 2, 1]

def backupDetailMasterID : Oid := backupDetailEntry ++ [2]
def backupDetailFileLocation1 : Oid := backupDetailEntry ++ [3]
def backupDetailFileLocation2 : Oid := backupDetailEntry ++ [5]
def backupDetailFileLocation3 : Oid := backupDetailEntry ++ [7]
def backupDetailFileLocation4 : Oid := backupDetailEntry ++ [9]
def backupDetailFileLocation5 : Oid := backupDetailEntry ++ [11]
def backupDetailStatus : Oid := backupDetailEntry ++ [13]

/-- The columns in the order in which they are asked for. -/
def detailColumns : List (Oid × (DetailRow → Value)) :=
  [(backupDetailMasterID, fun row => .string row.backupDetailMasterID.val),
    (backupDetailFileLocation1, fun row => .string row.backupDetailFileLocation1.val),
    (backupDetailFileLocation2, fun row => .string row.backupDetailFileLocation2.val),
    (backupDetailFileLocation3, fun row => .string row.backupDetailFileLocation3.val),
    (backupDetailFileLocation4, fun row => .string row.backupDetailFileLocation4.val),
    (backupDetailFileLocation5, fun row => .string row.backupDetailFileLocation5.val),
    (backupDetailStatus, fun row => .integer row.backupDetailStatus.integer)]

/-- The sub-agent with any other objects beside the columns of the table. -/
structure SubAgent where
  mib : Mib Value
  rows : List DetailRow
  table : mib.Table detailColumns DetailRow.backupDetailIndex rows

end Table

section Code

def maxRepetitions : Nat := 6

def stringOf (vars : Varbind Value) : Octets := (vars.val.bind Value.octets?).getD []

inductive FilledArray where
  | insufficientMemory
  | filled (inputArray : List (Option Octets))
  deriving DecidableEq, Repr

def FilledArray.push (entry : Option Octets) : FilledArray → FilledArray
  | .insufficientMemory => .insufficientMemory
  | .filled inputArray => .filled (entry :: inputArray)

/-- `BM_FillStruct` for the entries of `inputArray`, one variable after the other. -/
def fillArray : List (Varbind Value) → Option FilledArray
  | [] => some (.filled [])
  | pstCurrVars :: rest =>
    (bmFillStruct (stringOf pstCurrVars)).bind fun
      | .insufficientMemory => some .insufficientMemory
      | .failure => (fillArray rest).map (.push none)
      | .success pcDst => (fillArray rest).map (.push (some pcDst))

/-- The loop that starts `BM_DoBackup` for every entry. -/
def startRuns (pstBackup : StBackupMaster) : List (Option Octets) → Option (List StBackupStruct)
  | [] => some []
  | none :: inputArray => startRuns pstBackup inputArray
  | some path :: inputArray =>
    match bmFillBackupStruct .unset pstBackup with
    | none => none
    | some pstBkp =>
      (startRuns pstBackup inputArray).map fun started =>
        { pstBkp with
          iMasterIndex := pstBackup.iIndex
          pcSourcePath := some (cString path) } :: started

/-- A record that is absent or not that of the row ends the row; there is no name for an empty
master ID. -/
def foreign (pcMasterName : Filled) (pstBackup : StBackupMaster) : Bool :=
  match pcMasterName with
  | .success name => cString name != cString pstBackup.pcMasterID
  | _ => true

inductive RowEnd where
  | failure
  | done (started : List StBackupStruct)

def spawnRow (pstBackup : StBackupMaster) (masterID : Varbind Value)
    (locations : List (Varbind Value)) (rowStat : Varbind Value) : Option RowEnd :=
  (bmFillStruct (stringOf masterID)).bind fun pcMasterName =>
    if pcMasterName = .insufficientMemory then some .failure
    else if foreign pcMasterName pstBackup then some (.done [])
    else
      (fillArray locations).bind fun
        | .insufficientMemory => some .failure
        | .filled inputArray =>
          if ((rowStat.val.bind Value.integer?).getD 0).toInt16 = 2 then some (.done [])
          else (startRuns pstBackup inputArray).map .done

inductive PageEnd where
  | failure
  | otherTable
  | more (next : List Oid)

inductive RowStep where
  | ended (pageEnd : PageEnd)
  | passed (runs : List StBackupStruct) (next : List Oid) (pstCurrVars : List (Varbind Value))

/-- The loop body. All seven names to go on from are those of the row, whatever was made of it. -/
def rowStep (pstBackup : StBackupMaster) : List (Varbind Value) → Option RowStep
  | [] => some (.ended .failure)
  | masterID :: pstCurrVars =>
    if ¬ backupDetailMasterID <+: masterID.name then some (.ended .otherTable)
    else
      match pstCurrVars with
      | [] => some (.ended .failure)
      | det1 :: det2 :: det3 :: det4 :: det5 :: rowStat :: pstCurrVars =>
        (spawnRow pstBackup masterID [det1, det2, det3, det4, det5] rowStat).map fun
          | .failure => .ended .failure
          | .done runs =>
            .passed runs
              [masterID.name, det1.name, det2.name, det3.name, det4.name, det5.name,
                rowStat.name] pstCurrVars
      | _ => none

def rowLoop (pstBackup : StBackupMaster) :
    Nat → List (Varbind Value) → List Oid → List StBackupStruct →
      Option (PageEnd × List StBackupStruct)
  | 0, _, next, started => some (.more next, started)
  | n + 1, pstCurrVars, _, started =>
    match rowStep pstBackup pstCurrVars with
    | none => none
    | some (.ended pageEnd) => some (pageEnd, started)
    | some (.passed runs next pstCurrVars) => rowLoop pstBackup n pstCurrVars next (started ++ runs)

/-- The loop over the responses; `fuel` bounds their number. -/
def pageLoop (pstBackup : StBackupMaster) (mib : Mib Value) :
    Nat → List Oid → List StBackupStruct → Option (ENASCenterError × List StBackupStruct)
  | 0, _, _ => none
  | fuel + 1, next, started =>
    match (mib.getBulk maxRepetitions next).head? with
    | none => none
    | some first =>
      if first.val = none then some (.nascFailure, started)
      else
        match rowLoop pstBackup maxRepetitions (mib.getBulk maxRepetitions next) next started
          with
        | none => none
        | some (.failure, started) => some (.nascFailure, started)
        | some (.otherTable, started) => some (.nascSuccess, started)
        | some (.more next, started) => pageLoop pstBackup mib fuel next started

/-- `BM_SpawnBackup`, with the copies for the runs of `BM_DoBackup` that it starts. -/
def bmSpawnBackup (uiCurrentTime : UInt32) (pstBackup : StBackupMaster) (mib : Mib Value)
    (fuel : Nat) : Option (ENASCenterError × List StBackupStruct) :=
  if pstBackup.uiEndTimeinNum < uiCurrentTime then some (.nascFailure, [])
  else pageLoop pstBackup mib fuel (detailColumns.map Prod.fst) []

end Code

section Spawned

/-- The row has the master ID of the record and is not `notInService`; a row without a master ID
is that of no record. -/
def DetailRow.Own (row : DetailRow) (pcMasterID : Octets) : Prop :=
  row.backupDetailMasterID.val ≠ [] ∧
    cString row.backupDetailMasterID.val = cString pcMasterID ∧
    row.backupDetailStatus ≠ .notInService

instance (row : DetailRow) (pcMasterID : Octets) : Decidable (row.Own pcMasterID) :=
  inferInstanceAs (Decidable (_ ∧ _))

def DetailRow.files (row : DetailRow) (pcMasterID : Octets) : List DisplayString :=
  if row.Own pcMasterID then row.locations.filter (·.val ≠ []) else []

/-- The files of the record: the locations of its rows that are set. -/
def ownFiles (rows : List DetailRow) (pcMasterID : Octets) : List DisplayString :=
  rows.flatMap fun row => row.files pcMasterID

variable {pstBackup : StBackupMaster} {pstBkp : StBackupStruct} {uiCurrentTime : UInt32}
  {agent : SubAgent} {row : DetailRow} {rows done rest : List DetailRow} {n r fuel : Nat}
  {started : List StBackupStruct}

def runFor (pstBackup : StBackupMaster) (pstBkp : StBackupStruct) (path : DisplayString) :
    StBackupStruct :=
  { pstBkp with iMasterIndex := pstBackup.iIndex, pcSourcePath := some (cString path.val) }

theorem fillStruct_nil : bmFillStruct [] = some .failure := rfl

theorem fillStruct_display {string : DisplayString} (filling : string.val ≠ []) :
    bmFillStruct string.val = some (.success string.val) := by
  apply fillStruct_short filling
  calc string.val.length ≤ 255 := string.property
    _ < 32768 := by decide

def entryOf (location : DisplayString) : Option Octets :=
  if location.val = [] then none else some location.val

theorem fillArray_display (locations : List DisplayString) {vars : List (Varbind Value)}
    (strings : vars.map stringOf = locations.map Subtype.val) :
    fillArray vars = some (.filled (locations.map entryOf)) := by
  induction locations generalizing vars with
  | nil =>
    rw [List.map_eq_nil_iff.mp strings]
    rfl
  | cons location locations ih =>
    rcases List.map_eq_cons_iff.mp strings with ⟨first, others, rfl, here, there⟩
    rw [fillArray, here, ih there]
    by_cases empty : location.val = []
    · rw [empty, fillStruct_nil, List.map_cons, entryOf, if_pos empty]
      rfl
    · rw [fillStruct_display empty, List.map_cons, entryOf, if_neg empty]
      rfl

theorem startRuns_display (copied : bmFillBackupStruct .unset pstBackup = some pstBkp)
    (locations : List DisplayString) :
    startRuns pstBackup (locations.map entryOf) =
      some ((locations.filter (·.val ≠ [])).map (runFor pstBackup pstBkp)) := by
  induction locations with
  | nil => rfl
  | cons location locations ih =>
    by_cases empty : location.val = []
    · rw [List.map_cons, entryOf, if_pos empty, startRuns, ih,
        List.filter_cons_of_neg (by simp [empty])]
    · rw [List.map_cons, entryOf, if_neg empty, startRuns, copied, ih,
        List.filter_cons_of_pos (by simp [empty])]
      rfl

theorem notInService_iff (status : RowStatus) :
    status.integer.toInt16 = 2 ↔ status = .notInService := by
  cases status <;> decide

theorem spawnRow_eq (copied : bmFillBackupStruct .unset pstBackup = some pstBkp)
    {masterID rowStat : Varbind Value} {locations : List (Varbind Value)}
    (name : stringOf masterID = row.backupDetailMasterID.val)
    (strings : locations.map stringOf = row.locations.map Subtype.val)
    (status : rowStat.val.bind Value.integer? = some row.backupDetailStatus.integer) :
    spawnRow pstBackup masterID locations rowStat = some
      (.done ((row.files pstBackup.pcMasterID).map (runFor pstBackup pstBkp))) := by
  rw [spawnRow, name, DetailRow.files]
  by_cases empty : row.backupDetailMasterID.val = []
  · have differs : ¬ row.Own pstBackup.pcMasterID := fun own => own.1 empty
    rw [empty, fillStruct_nil, if_neg differs]
    rfl
  · rw [fillStruct_display empty, Option.bind_some, if_neg (by simp)]
    simp only [foreign, bne_iff_ne]
    by_cases same : cString row.backupDetailMasterID.val = cString pstBackup.pcMasterID
    · rw [if_neg (not_not.mpr same), fillArray_display row.locations strings, Option.bind_some]
      simp only [status, Option.getD_some, notInService_iff]
      by_cases inactive : row.backupDetailStatus = .notInService
      · rw [if_pos inactive, if_neg fun own => own.2.2 inactive]
        rfl
      · rw [if_neg inactive, if_pos ⟨empty, same, inactive⟩, startRuns_display copied]
        rfl
    · rw [if_pos same, if_neg fun own => same own.2.1]
      rfl

theorem ownFiles_append (rows rows' : List DetailRow) (pcMasterID : Octets) :
    ownFiles (rows ++ rows') pcMasterID =
      ownFiles rows pcMasterID ++ ownFiles rows' pcMasterID := List.flatMap_append

end Spawned

section Pages

variable {pstBackup : StBackupMaster} {pstBkp : StBackupStruct} {uiCurrentTime : UInt32}
  {agent : SubAgent} {row : DetailRow} {done rest : List DetailRow} {n r fuel : Nat}

/-- The names of a request behind the rows that are done. -/
def nextOf (done : List DetailRow) : List Oid :=
  resumes detailColumns DetailRow.backupDetailIndex done

def runsFor (pstBackup : StBackupMaster) (pstBkp : StBackupStruct) (rows : List DetailRow) :
    List StBackupStruct :=
  (ownFiles rows pstBackup.pcMasterID).map (runFor pstBackup pstBkp)

theorem runsFor_cons (row : DetailRow) (rows : List DetailRow) :
    runsFor pstBackup pstBkp (row :: rows) =
      (row.files pstBackup.pcMasterID).map (runFor pstBackup pstBkp) ++
        runsFor pstBackup pstBkp rows := by
  rw [runsFor, ownFiles, List.flatMap_cons, List.map_append]
  rfl

theorem runsFor_append (rows rows' : List DetailRow) :
    runsFor pstBackup pstBkp (rows ++ rows') =
      runsFor pstBackup pstBkp rows ++ runsFor pstBackup pstBkp rows' := by
  rw [runsFor, ownFiles_append, List.map_append]
  rfl

theorem rowStep_row {masterID det1 det2 det3 det4 det5 rowStat : Varbind Value}
    (own : backupDetailMasterID <+: masterID.name) {runs : List StBackupStruct}
    (spawned : spawnRow pstBackup masterID [det1, det2, det3, det4, det5] rowStat =
      some (.done runs)) (pstCurrVars : List (Varbind Value)) :
    rowStep pstBackup
        (masterID :: det1 :: det2 :: det3 :: det4 :: det5 :: rowStat :: pstCurrVars) =
      some (.passed runs [masterID.name, det1.name, det2.name, det3.name, det4.name, det5.name,
        rowStat.name] pstCurrVars) := by
  unfold rowStep
  simp only [own, not_true, if_false, spawned, Option.map_some]

theorem rowStep_outside {masterID : Varbind Value}
    (outside : ¬ backupDetailMasterID <+: masterID.name) (pstCurrVars : List (Varbind Value)) :
    rowStep pstBackup (masterID :: pstCurrVars) = some (.ended .otherTable) := by
  unfold rowStep
  simp only [outside, not_false_eq_true, if_true]

theorem rowStep_repetition (copied : bmFillBackupStruct .unset pstBackup = some pstBkp)
    (rows : agent.rows = done ++ rest) (here : rest[r]? = some row)
    (pstCurrVars : List (Varbind Value)) :
    rowStep pstBackup (agent.mib.repetition (nextOf done) r ++ pstCurrVars) =
      some (.passed ((row.files pstBackup.pcMasterID).map (runFor pstBackup pstBkp))
        (nextOf (done ++ rest.take r ++ [row])) pstCurrVars) := by
  have table := agent.table
  rw [rows] at table
  rw [nextOf, table.repetition here, nextOf, resumes_last]
  apply rowStep_row (List.prefix_append _ _)
  exact spawnRow_eq copied rfl rfl rfl

/-- The first name of a request behind the rows that are done. -/
def masterNext (done : List DetailRow) : Oid :=
  resume backupDetailMasterID
    (done.map fun row => (row.backupDetailIndex, Value.string row.backupDetailMasterID.val))

theorem master_successors (rows : agent.rows = done ++ rest) :
    agent.mib.successors (masterNext done) =
      (rest.map fun row => (row.backupDetailIndex, Value.string row.backupDetailMasterID.val)).map
        (fun cell => (backupDetailMasterID ++ [cell.1], cell.2)) ++
      agent.mib.beyond backupDetailMasterID := by
  have column := agent.table _ List.mem_cons_self
  rw [rows, List.map_append] at column
  exact column.successors_resume

theorem answer_last (rows : agent.rows = done ++ rest) (filled : agent.rows ≠ []) :
    (agent.mib.answer (masterNext done) rest.length).val ≠ none ∧
      ¬ backupDetailMasterID <+: (agent.mib.answer (masterNext done) rest.length).name := by
  have column := agent.table _ (List.mem_cons_of_mem _ List.mem_cons_self)
  have more : agent.mib.beyond backupDetailMasterID ≠ [] := by
    apply column.beyond_ne
    · simpa using filled
    · decide
    · decide
    · decide
  have last := answer_outside (master_successors rows) more
  rwa [List.length_map] at last

theorem rowLoop_eq (copied : bmFillBackupStruct .unset pstBackup = some pstBkp)
    (rows : agent.rows = done ++ rest) (filled : agent.rows ≠ []) (inside : r ≤ rest.length)
    (started : List StBackupStruct) :
    rowLoop pstBackup n ((List.range' r n).flatMap (agent.mib.repetition (nextOf done)))
        (nextOf (done ++ rest.take r)) started =
      some (if r + n ≤ rest.length then .more (nextOf (done ++ rest.take (r + n)))
          else .otherTable,
        started ++ runsFor pstBackup pstBkp ((rest.drop r).take n)) := by
  induction n generalizing r started with
  | zero =>
    rw [rowLoop, Nat.add_zero, if_pos inside, List.take_zero]
    simp [runsFor, ownFiles]
  | succ n ih =>
    rw [getBulk_cons, rowLoop]
    rcases Nat.lt_or_eq_of_le inside with more | last
    · have here : rest[r]? = some rest[r] := List.getElem?_eq_getElem more
      have taken : done ++ rest.take r ++ [rest[r]] = done ++ rest.take (r + 1) := by
        rw [List.append_assoc, List.take_append_getElem]
      have others := ih more
        (started ++ (rest[r].files pstBackup.pcMasterID).map (runFor pstBackup pstBkp))
      rw [List.append_assoc, ← runsFor_cons, Nat.succ_add_eq_add_succ] at others
      rw [rowStep_repetition copied rows here, taken, List.drop_eq_getElem_cons more,
        List.take_succ_cons]
      exact others
    · have empty : rest.drop r = [] := List.drop_eq_nil_of_le (Nat.le_of_eq last.symm)
      have ended : rowStep pstBackup (agent.mib.repetition (nextOf done) r ++
          (List.range' (r + 1) n).flatMap (agent.mib.repetition (nextOf done))) =
            some (.ended .otherTable) := by
        rw [last]
        exact rowStep_outside (answer_last rows filled).2 _
      rw [ended, empty, List.take_nil, if_neg (by omega)]
      simp [runsFor, ownFiles]

theorem pageLoop_eq (copied : bmFillBackupStruct .unset pstBackup = some pstBkp)
    (rows : agent.rows = done ++ rest) (filled : agent.rows ≠ []) (enough : rest.length < fuel)
    (started : List StBackupStruct) :
    pageLoop pstBackup agent.mib fuel (nextOf done) started =
      some (.nascSuccess, started ++ runsFor pstBackup pstBkp rest) := by
  induction fuel generalizing done rest started with
  | zero => exact absurd enough (Nat.not_lt_zero _)
  | succ fuel ih =>
    have head : (agent.mib.getBulk maxRepetitions (nextOf done)).head? =
        some (agent.mib.answer (masterNext done) 0) := rfl
    have there : (agent.mib.answer (masterNext done) 0).val ≠ none := by
      cases rest with
      | nil => exact (answer_last rows filled).1
      | cons row rest =>
        have successors := master_successors rows
        rw [answer_cell (i := row.backupDetailIndex) successors rfl]
        simp
    have ran := rowLoop_eq (n := maxRepetitions) copied rows filled (Nat.zero_le _) started
    rw [List.take_zero, List.append_nil, List.drop_zero, Nat.zero_add] at ran
    rw [pageLoop, head]
    simp only [if_neg there]
    rw [Mib.getBulk, ran]
    rcases Nat.lt_or_ge rest.length maxRepetitions with last | more
    · rw [if_neg (Nat.not_le.mpr last), List.take_of_length_le (Nat.le_of_lt last)]
    · have rows' : agent.rows =
        (done ++ rest.take maxRepetitions) ++ rest.drop maxRepetitions := by
        rw [List.append_assoc, List.take_append_drop, rows]
      have enough' : (rest.drop maxRepetitions).length < fuel := by
        rw [List.length_drop]
        simp only [maxRepetitions] at more ⊢
        omega
      have others := ih rows' enough'
        (started ++ runsFor pstBackup pstBkp (rest.take maxRepetitions))
      rw [List.append_assoc, ← runsFor_append, List.take_append_drop] at others
      rw [if_pos more]
      exact others

theorem pageLoop_nil (empty : agent.rows = []) (positive : 0 < fuel) :
    ∃ ended, pageLoop pstBackup agent.mib fuel (nextOf []) [] = some (ended, []) := by
  rcases Nat.exists_eq_add_one.mpr positive with ⟨fuel, rfl⟩
  have head : agent.mib.getBulk maxRepetitions (nextOf []) =
      agent.mib.answer (masterNext []) 0 :: (agent.mib.getBulk maxRepetitions (nextOf [])).tail :=
    rfl
  rw [pageLoop, head, List.head?_cons]
  by_cases last : (agent.mib.answer (masterNext []) 0).val = none
  · exact ⟨.nascFailure, if_pos last⟩
  · have rows : agent.rows = [] ++ [] := empty
    rcases answer_beyond (master_successors rows) (Nat.le_refl 0) with none | outside
    · exact absurd none last
    · refine ⟨.nascSuccess, ?_⟩
      simp only [if_neg last]
      rw [maxRepetitions, rowLoop, rowStep_outside outside]

structure StBackupMaster.Due (pstBackup : StBackupMaster) (uiCurrentTime : UInt32) : Prop where
  time : ¬ pstBackup.uiEndTimeinNum < uiCurrentTime
  address : pstBackup.pcIPAddr ≠ none

/-- The walk ends, and a run was started for each file of the record and for nothing else. -/
def SubAgent.Spawns (agent : SubAgent) (uiCurrentTime : UInt32) (pstBackup : StBackupMaster) :
    Prop :=
  ∃ pstBkp, bmFillBackupStruct .unset pstBackup = some pstBkp ∧
    ∀ fuel > agent.rows.length, ∃ ended,
      bmSpawnBackup uiCurrentTime pstBackup agent.mib fuel =
        some (ended, (ownFiles agent.rows pstBackup.pcMasterID).map (runFor pstBackup pstBkp))

theorem StBackupMaster.Due.spawns (due : pstBackup.Due uiCurrentTime) (agent : SubAgent) :
    agent.Spawns uiCurrentTime pstBackup := by
  have copied : ∃ pstBkp, bmFillBackupStruct .unset pstBackup = some pstBkp := by
    rcases Option.ne_none_iff_exists'.mp due.address with ⟨pcIPAddr, given⟩
    rw [bmFillBackupStruct, given]
    exact ⟨_, rfl⟩
  rcases copied with ⟨pstBkp, copied⟩
  refine ⟨pstBkp, copied, ?_⟩
  intro fuel enough
  have start : nextOf [] = _ := resumes_nil
  rw [bmSpawnBackup, if_neg due.time, ← start]
  by_cases empty : agent.rows = []
  · rw [empty]
    exact pageLoop_nil empty (Nat.lt_of_le_of_lt (Nat.zero_le _) enough)
  · exact ⟨.nascSuccess, pageLoop_eq copied (List.nil_append _).symm empty enough []⟩

/-- A record that is due sends exactly its own files, in at most one request more than there are
rows. -/
theorem spawnBackup_spawns (agent : SubAgent) (uiCurrentTime : UInt32)
    (pstBackup : StBackupMaster) (due : pstBackup.Due uiCurrentTime) :
    agent.Spawns uiCurrentTime pstBackup :=
  due.spawns agent

def noText : DisplayString := ⟨[], by decide⟩
def idA : DisplayString := ⟨[97], by decide⟩
def idB : DisplayString := ⟨[98], by decide⟩

/-- Seven rows on two pages; the second has no master ID, the third is another record's and the
sixth is not in service. -/
def sevenRows : List DetailRow :=
  [(1, idA, .active), (2, noText, .active), (3, idB, .active), (4, idA, .notReady),
    (5, idA, .active), (6, idA, .notInService), (7, idA, .active)].map
    fun (index, masterID, status) =>
      { backupDetailIndex := index
        backupDetailMasterID := masterID
        backupDetailFileLocation1 := ⟨[47, 97], by decide⟩
        backupDetailFileLocation2 := noText
        backupDetailFileLocation3 := ⟨[47, 99], by decide⟩
        backupDetailFileLocation4 := noText
        backupDetailFileLocation5 := noText
        backupDetailStatus := status }

def sevenObjects : List (Oid × Value) :=
  detailColumns.flatMap fun column =>
    sevenRows.map fun row => (column.1 ++ [row.backupDetailIndex], column.2 row)

def sevenAgent : SubAgent where
  mib := ⟨sevenObjects, by decide +kernel⟩
  rows := sevenRows
  table := by unfold Mib.Table Mib.Column; decide +kernel

def recordA : StBackupMaster where
  iIndex := 1
  pcMasterID := [97]
  pcMasterName := none
  pcStartTime := [1]
  pcEndTime := [1]
  pcIPAddr := some [10, 1, 1, 1]
  pcDestPath := none
  uiEndTimeinNum := 10

theorem spawnBackup_spawns_seven : sevenAgent.Spawns 10 recordA ∧
    (ownFiles sevenAgent.rows recordA.pcMasterID).map Subtype.val =
      [[47, 97], [47, 99], [47, 97], [47, 99], [47, 97], [47, 99], [47, 97], [47, 99]] :=
  ⟨spawnBackup_spawns sevenAgent 10 recordA ⟨by decide, by decide⟩, by decide +kernel⟩

/-- A record whose end time has passed sends none of its files. -/
theorem spawnBackup_expired : ¬ ∀ (agent : SubAgent) (uiCurrentTime : UInt32)
    (pstBackup : StBackupMaster), pstBackup.pcIPAddr ≠ none →
      agent.Spawns uiCurrentTime pstBackup := by
  intro all
  rcases all sevenAgent 11 recordA (by decide) with ⟨pstBkp, _, runs⟩
  rcases runs 8 (by decide) with ⟨ended, ran⟩
  have expired : bmSpawnBackup 11 recordA sevenAgent.mib 8 = some (.nascFailure, []) := rfl
  have files : (ownFiles sevenAgent.rows recordA.pcMasterID).length = 8 := by decide +kernel
  rw [expired] at ran
  have none := congrArg (fun result => result.2.length) (Option.some.inj ran)
  rw [List.length_map, files] at none
  exact absurd none (by decide)

end Pages

end EveAgent.Backup.Run
