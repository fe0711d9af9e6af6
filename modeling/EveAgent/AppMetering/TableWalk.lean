import EveAgent.GetBulk
import EveAgent.JobSched.DateTimes
import EveAgent.AppMetering.Traps

namespace EveAgent.AppMetering

open GetBulk JobSched

section Table

/-- A row of the table, with the columns that are loaded. -/
structure AppMetRow where
  appMeteringIndex : UInt32
  appMeteringID : Octets
  appMeteringStartTime : { octets : Octets // octets.length ≤ 11 }
  appMeteringEndTime : { octets : Octets // octets.length ≤ 11 }
  appMeteringReaction : Int32
  appMeteringStatus : Int32
  appMeteringBinaryName : Octets
  appMeteringAlertMessage : Octets
  deriving DecidableEq

def appMeteringEntry : Oid := [1, 3, 6, 1, 4, 1, 3204, 1, 3, 34, 3, 1]

def appMeteringID : Oid := appMeteringEntry ++ [2]
def appMeteringStartTime : Oid := appMeteringEntry ++ [8]
def appMeteringEndTime : Oid := appMeteringEntry ++ [9]
def appMeteringReaction : Oid := appMeteringEntry ++ [10]
def appMeteringStatus : Oid := appMeteringEntry ++ [11]
def appMeteringBinaryName : Oid := appMeteringEntry ++ [15]
def appMeteringAlertMessage : Oid := appMeteringEntry ++ [16]

def cells (value : AppMetRow → Value) (rows : List AppMetRow) : List (Nat × Value) :=
  rows.map fun row => (row.appMeteringIndex.toNat, value row)

/-- The sub-agent with any other objects beside the columns of the table. -/
structure SubAgent where
  mib : Mib Value
  rows : List AppMetRow
  idColumn : mib.Column appMeteringID (cells (.string ·.appMeteringID) rows)
  startTimeColumn :
    mib.Column appMeteringStartTime (cells (.string ·.appMeteringStartTime.val) rows)
  endTimeColumn : mib.Column appMeteringEndTime (cells (.string ·.appMeteringEndTime.val) rows)
  reactionColumn : mib.Column appMeteringReaction (cells (.integer ·.appMeteringReaction) rows)
  statusColumn : mib.Column appMeteringStatus (cells (.integer ·.appMeteringStatus) rows)
  binaryNameColumn :
    mib.Column appMeteringBinaryName (cells (.string ·.appMeteringBinaryName) rows)
  alertMessageColumn :
    mib.Column appMeteringAlertMessage (cells (.string ·.appMeteringAlertMessage) rows)

end Table

section Load

def maxRepetation : Nat := 6

/-- The names that the next request goes on from. -/
structure Next where
  nextID : Oid
  nextStartTime : Oid
  nextEndTime : Oid
  nextReaction : Oid
  nextBinaryName : Oid
  nextalert : Oid
  nextstatus : Oid

def Next.oids (next : Next) : List Oid :=
  [next.nextID, next.nextStartTime, next.nextEndTime, next.nextReaction, next.nextBinaryName,
    next.nextalert, next.nextstatus]

def Next.first : Next where
  nextID := appMeteringID
  nextStartTime := appMeteringStartTime
  nextEndTime := appMeteringEndTime
  nextReaction := appMeteringReaction
  nextBinaryName := appMeteringBinaryName
  nextalert := appMeteringAlertMessage
  nextstatus := appMeteringStatus

/-- The copy of a value, for which there is no pointer when it is empty. -/
def copied (octets : Octets) : Option Text :=
  if octets = [] then none else some (textOf (cString octets))

def varbindBuf : Nat := 40

/-- The message is copied with one octet more than it has. The library puts a short value into
the variable, where a zero octet follows, and a long one into memory of its own size. -/
def copiedAlert (octets : Octets) : Option (Option Text) :=
  if varbindBuf ≤ octets.length ∧ 0 ∉ octets then none else some (copied octets)

/-- `BUFSIZE` of the metering agent. -/
def bufSize : Nat := 256

def copiedTime (zone : TimeZone) (octets : Octets) : Option UInt32 :=
  if octets = [] then some 0 else utilConvertDateToLong zone bufSize octets

/-- A row event with the name of its binary, which may be null. -/
structure Fetched where
  pappMet : StappMeteringStruct
  pcappMeteringBinaryName : Option Text

/-- The next seven variables. The index is cut off the name of the start time, and so it is from
the name to go on from. -/
def fetchRow (zone : TimeZone) :
    List (Varbind Value) → Option (Fetched × Next × List (Varbind Value))
  | id :: startTime :: endTime :: reaction :: binaryName :: alert :: status :: pstvars => do
      let pcappMeteringID ← id.val.bind Value.octets?
      let uiappMeteringIndex ← startTime.name.getLast?
      let ulappMeteringStartTime ← (startTime.val.bind Value.octets?).bind (copiedTime zone)
      let ulappMeteringEndTime ← (endTime.val.bind Value.octets?).bind (copiedTime zone)
      let iappMeteringReaction ← reaction.val.bind Value.integer?
      let pcappMeteringBinaryName ← binaryName.val.bind Value.octets?
      let message ← alert.val.bind Value.octets?
      let pcalertmessage ← copiedAlert message
      let istatus ← status.val.bind Value.integer?
      some (
        { pappMet :=
            { uiappMeteringIndex := UInt32.ofNat uiappMeteringIndex
              pcappMeteringID := copied pcappMeteringID
              ulappMeteringStartTime := ulappMeteringStartTime
              ulappMeteringEndTime := ulappMeteringEndTime
              iappMeteringReaction := iappMeteringReaction.toInt16
              pcappMeteringUsername := false
              pcappMeteringBinaryName := (copied pcappMeteringBinaryName).getD []
              pcalertmessage := pcalertmessage
              alertRoom := if message = [] then 0 else message.length + 1
              istatus := istatus.toInt16 }
          pcappMeteringBinaryName := copied pcappMeteringBinaryName },
        { nextID := id.name
          nextStartTime := startTime.name.dropLast
          nextEndTime := endTime.name
          nextReaction := reaction.name
          nextBinaryName := binaryName.name
          nextalert := alert.name
          nextstatus := status.name },
        pstvars)
  | _ => none

/-- `List` compares the name with those in the list, also when it is null. -/
def addFetched (fetched : Fetched) (mem : Memory) : Option Memory :=
  if fetched.pappMet.istatus ≠ 2 then
    match fetched.pcappMeteringBinaryName with
    | none => none
    | some _ => amList mem fetched.pappMet [] false
  else some mem

inductive PageEnd where
  | failure
  | otherTable
  | more (next : Next)

def rowLoop (zone : TimeZone) :
    Nat → List (Varbind Value) → Next → Memory → Option (PageEnd × Memory)
  | 0, _, next, mem => some (.more next, mem)
  | n + 1, pstvars, _, mem =>
    match pstvars.head? with
    | none => none
    | some id =>
      if id.val = none then some (.failure, mem)
      else if ¬ appMeteringID <+: id.name then some (.otherTable, mem)
      else
        match fetchRow zone pstvars with
        | none => none
        | some (fetched, next, pstvars) =>
          match addFetched fetched mem with
          | none => none
          | some mem => rowLoop zone n pstvars next mem

/-- The loop over the responses; `fuel` bounds their number. -/
def pageLoop (zone : TimeZone) (mib : Mib Value) :
    Nat → Next → Memory → Option (ENASCenterError × Memory)
  | 0, _, _ => none
  | fuel + 1, next, mem =>
    match rowLoop zone maxRepetation (mib.getBulk maxRepetation next.oids) next mem with
    | none => none
    | some (.failure, mem) => some (.nascFailure, mem)
    | some (.otherTable, mem) => some (.nascSuccess, mem)
    | some (.more next, mem) => pageLoop zone mib fuel next mem

def amGetAppMetTable (zone : TimeZone) (mib : Mib Value) (fuel : Nat) (mem : Memory) :
    Option (ENASCenterError × Memory) :=
  pageLoop zone mib fuel .first mem

end Load

section Pages

variable {zone : TimeZone} {agent : SubAgent} {done rest : List AppMetRow} {row first : AppMetRow}
  {value : AppMetRow → Value} {col : Oid} {mem : Memory} {n r fuel : Nat}

/-- The request behind the rows that are done: the start times begin anew. -/
def nextOf (done : List AppMetRow) : Next where
  nextID := resume appMeteringID (cells (.string ·.appMeteringID) done)
  nextStartTime := appMeteringStartTime
  nextEndTime := resume appMeteringEndTime (cells (.string ·.appMeteringEndTime.val) done)
  nextReaction := resume appMeteringReaction (cells (.integer ·.appMeteringReaction) done)
  nextBinaryName := resume appMeteringBinaryName (cells (.string ·.appMeteringBinaryName) done)
  nextalert := resume appMeteringAlertMessage (cells (.string ·.appMeteringAlertMessage) done)
  nextstatus := resume appMeteringStatus (cells (.integer ·.appMeteringStatus) done)

/-- What is fetched of a row beside the start time of another one. -/
def fetchedOf (zone : TimeZone) (row first : AppMetRow) : Option Fetched := do
  let ulappMeteringStartTime ← copiedTime zone first.appMeteringStartTime.val
  let ulappMeteringEndTime ← copiedTime zone row.appMeteringEndTime.val
  let pcalertmessage ← copiedAlert row.appMeteringAlertMessage
  some {
    pappMet :=
      { uiappMeteringIndex := first.appMeteringIndex
        pcappMeteringID := copied row.appMeteringID
        ulappMeteringStartTime := ulappMeteringStartTime
        ulappMeteringEndTime := ulappMeteringEndTime
        iappMeteringReaction := row.appMeteringReaction.toInt16
        pcappMeteringUsername := false
        pcappMeteringBinaryName := (copied row.appMeteringBinaryName).getD []
        pcalertmessage := pcalertmessage
        alertRoom := if row.appMeteringAlertMessage = [] then 0
          else row.appMeteringAlertMessage.length + 1
        istatus := row.appMeteringStatus.toInt16 }
    pcappMeteringBinaryName := copied row.appMeteringBinaryName }

def addRow (zone : TimeZone) (mem : Memory) (pair : AppMetRow × AppMetRow) : Option Memory :=
  (fetchedOf zone pair.1 pair.2).bind fun fetched => addFetched fetched mem

theorem resume_row (done : List AppMetRow) (row : AppMetRow) :
    resume col (cells value (done ++ [row])) = col ++ [row.appMeteringIndex.toNat] := by
  rw [cells, List.map_append]
  exact resume_last col _ _

theorem answer_row (column : agent.mib.Column col (cells value agent.rows))
    (rows : agent.rows = done ++ rest) (here : rest[r]? = some row) :
    agent.mib.answer (resume col (cells value done)) r =
      ⟨col ++ [row.appMeteringIndex.toNat], some (value row)⟩ := by
  rw [rows, cells, List.map_append] at column
  apply answer_cell column.successors_resume
  rw [List.getElem?_map, here]
  rfl

theorem answer_start (here : agent.rows[r]? = some first) :
    agent.mib.answer appMeteringStartTime r =
      ⟨appMeteringStartTime ++ [first.appMeteringIndex.toNat],
        some (.string first.appMeteringStartTime.val)⟩ :=
  answer_row agent.startTimeColumn (List.nil_append agent.rows).symm here

theorem fetchRow_repetition (rows : agent.rows = done ++ rest) (here : rest[r]? = some row)
    (there : agent.rows[r]? = some first) (pstvars : List (Varbind Value)) :
    fetchRow zone (agent.mib.repetition (nextOf done).oids r ++ pstvars) =
      (fetchedOf zone row first).map fun fetched =>
        (fetched, nextOf (done ++ rest.take r ++ [row]), pstvars) := by
  have names : nextOf (done ++ rest.take r ++ [row]) =
      { nextID := appMeteringID ++ [row.appMeteringIndex.toNat]
        nextStartTime := appMeteringStartTime
        nextEndTime := appMeteringEndTime ++ [row.appMeteringIndex.toNat]
        nextReaction := appMeteringReaction ++ [row.appMeteringIndex.toNat]
        nextBinaryName := appMeteringBinaryName ++ [row.appMeteringIndex.toNat]
        nextalert := appMeteringAlertMessage ++ [row.appMeteringIndex.toNat]
        nextstatus := appMeteringStatus ++ [row.appMeteringIndex.toNat] } := by
    simp only [nextOf, resume_row]
  rw [names]
  simp only [Mib.repetition, Next.oids, nextOf, List.map_cons, List.map_nil,
    answer_row agent.idColumn rows here, answer_row agent.endTimeColumn rows here,
    answer_row agent.reactionColumn rows here, answer_row agent.binaryNameColumn rows here,
    answer_row agent.alertMessageColumn rows here, answer_row agent.statusColumn rows here,
    answer_start there, List.cons_append, List.nil_append, fetchRow, Option.bind_some,
    Value.octets?, Value.integer?, List.getLast?_append, List.getLast?_singleton, Option.some_or,
    List.dropLast_concat, UInt32.ofNat_toNat, Option.bind_eq_bind, fetchedOf, Option.map_bind,
    Function.comp_def,
    Option.map_some]

theorem head_repetition (next : Next) (pstvars : List (Varbind Value)) :
    (agent.mib.repetition next.oids r ++ pstvars).head? = some (agent.mib.answer next.nextID r) :=
  rfl

theorem rowLoop_more (rows : agent.rows = done ++ rest) (here : rest[r]? = some row)
    (there : agent.rows[r]? = some first) (next : Next) (pstvars : List (Varbind Value))
    (mem : Memory) :
    rowLoop zone (n + 1) (agent.mib.repetition (nextOf done).oids r ++ pstvars) next mem =
      (addRow zone mem (row, first)).bind fun mem =>
        rowLoop zone n pstvars (nextOf (done ++ rest.take r ++ [row])) mem := by
  rw [rowLoop, head_repetition]
  have id : agent.mib.answer (nextOf done).nextID r =
      ⟨appMeteringID ++ [row.appMeteringIndex.toNat], some (.string row.appMeteringID)⟩ :=
    answer_row agent.idColumn rows here
  simp only [id, reduceCtorEq, if_false, List.prefix_append, not_true,
    fetchRow_repetition rows here there, addRow]
  cases fetchedOf zone row first with
  | none => rfl
  | some fetched =>
    simp only [Option.map_some, Option.bind_some]
    cases addFetched fetched mem with
    | none => rfl
    | some mem => rfl

theorem rowLoop_ended (rows : agent.rows = done ++ rest) (ended : rest.length ≤ r) (next : Next)
    (pstvars : List (Varbind Value)) (mem : Memory) :
    rowLoop zone (n + 1) (agent.mib.repetition (nextOf done).oids r ++ pstvars) next mem =
        some (.failure, mem) ∨
      rowLoop zone (n + 1) (agent.mib.repetition (nextOf done).oids r ++ pstvars) next mem =
        some (.otherTable, mem) := by
  have column := agent.idColumn
  rw [rows, cells, List.map_append] at column
  have ended' : (rest.map fun row =>
      (row.appMeteringIndex.toNat, Value.string row.appMeteringID)).length ≤ r := by
    rwa [List.length_map]
  rw [rowLoop, head_repetition]
  by_cases last : (agent.mib.answer (nextOf done).nextID r).val = none
  · exact .inl (if_pos last)
  · rcases answer_beyond column.successors_resume ended' with none | outside
    · exact absurd none last
    · exact .inr ((if_neg last).trans (if_pos outside))

theorem rowLoop_eq (rows : agent.rows = done ++ rest) (inside : r ≤ rest.length) (mem : Memory) :
    ∃ ended, rowLoop zone n ((List.range' r n).flatMap (agent.mib.repetition (nextOf done).oids))
        (nextOf (done ++ rest.take r)) mem =
          ((((rest.drop r).take n).zip (agent.rows.drop r)).foldlM (addRow zone) mem).map
            (Prod.mk ended) ∧
      (r + n ≤ rest.length → ended = .more (nextOf (done ++ rest.take (r + n)))) ∧
      (rest.length < r + n → ended = .failure ∨ ended = .otherTable) := by
  induction n generalizing r mem with
  | zero => exact ⟨_, rfl, fun _ => rfl, fun less => absurd inside (Nat.not_le.mpr less)⟩
  | succ n ih =>
    rw [getBulk_cons]
    rcases Nat.lt_or_eq_of_le inside with more | last
    · have length : r < agent.rows.length := by
        rw [rows, List.length_append]
        omega
      have here : rest[r]? = some rest[r] := List.getElem?_eq_getElem more
      have there : agent.rows[r]? = some agent.rows[r] := List.getElem?_eq_getElem length
      have taken : done ++ rest.take r ++ [rest[r]] = done ++ rest.take (r + 1) := by
        rw [List.append_assoc, List.take_append_getElem]
      rw [rowLoop_more rows here there, taken, List.drop_eq_getElem_cons more,
        List.drop_eq_getElem_cons length, List.take_succ_cons, List.zip_cons_cons,
        List.foldlM_cons]
      cases addRow zone mem (rest[r], agent.rows[r]) with
      | none =>
        rcases ih more mem with ⟨ended, _, full, short⟩
        rw [Nat.succ_add_eq_add_succ] at full short
        exact ⟨ended, rfl, full, short⟩
      | some mem =>
        rcases ih more mem with ⟨ended, ran, full, short⟩
        rw [Nat.succ_add_eq_add_succ] at full short
        exact ⟨ended, ran, full, short⟩
    · have empty : rest.drop r = [] := List.drop_eq_nil_of_le (Nat.le_of_eq last.symm)
      rw [empty, List.take_nil, List.zip_nil_left]
      have full : ¬ r + (n + 1) ≤ rest.length := by omega
      rcases rowLoop_ended rows (Nat.le_of_eq last.symm) (nextOf (done ++ rest.take r)) _ mem with
        ended | ended
      · exact ⟨.failure, ended, fun less => absurd less full, fun _ => .inl rfl⟩
      · exact ⟨.otherTable, ended, fun less => absurd less full, fun _ => .inr rfl⟩

/-- The rows that are added with those whose start times and indices they get. -/
def pairs (rows : List AppMetRow) : Nat → List AppMetRow → List (AppMetRow × AppMetRow)
  | 0, _ => []
  | fuel + 1, rest =>
    (rest.take maxRepetation).zip rows ++ pairs rows fuel (rest.drop maxRepetation)

theorem pairs_nil (rows : List AppMetRow) (fuel : Nat) : pairs rows fuel [] = [] := by
  induction fuel with
  | zero => rfl
  | succ fuel ih =>
    rw [pairs, List.take_nil, List.zip_nil_left, List.drop_nil, ih]
    rfl

theorem pageLoop_eq (rows : agent.rows = done ++ rest) (enough : rest.length < fuel)
    (mem : Memory) :
    ∃ result, pageLoop zone agent.mib fuel (nextOf done) mem =
      ((pairs agent.rows fuel rest).foldlM (addRow zone) mem).map (Prod.mk result) := by
  induction fuel generalizing done rest mem with
  | zero => simp at enough
  | succ fuel ih =>
    rcases rowLoop_eq rows (Nat.zero_le _) mem with
      ⟨ended, ran, full, short⟩
    rw [List.take_zero, List.append_nil, List.drop_zero, List.drop_zero] at ran
    rw [pageLoop, Mib.getBulk, ran, pairs, List.foldlM_append]
    rcases Nat.lt_or_ge rest.length maxRepetation with last | more
    · have empty : rest.drop maxRepetation = [] := List.drop_eq_nil_of_le (Nat.le_of_lt last)
      rw [empty, pairs_nil]
      rw [Nat.zero_add] at short
      rcases short last with rfl | rfl
      · refine ⟨.nascFailure, ?_⟩
        cases ((rest.take maxRepetation).zip agent.rows).foldlM (addRow zone) mem with
        | none => rfl
        | some mem => rfl
      · refine ⟨.nascSuccess, ?_⟩
        cases ((rest.take maxRepetation).zip agent.rows).foldlM (addRow zone) mem with
        | none => rfl
        | some mem => rfl
    · rw [Nat.zero_add] at full
      have rows' : agent.rows = (done ++ rest.take maxRepetation) ++ rest.drop maxRepetation := by
        rw [List.append_assoc, List.take_append_drop, rows]
      have enough' : (rest.drop maxRepetation).length < fuel := by
        rw [List.length_drop]
        simp only [maxRepetation] at more ⊢
        omega
      rw [full more]
      cases ((rest.take maxRepetation).zip agent.rows).foldlM (addRow zone) mem with
      | none => exact ⟨.nascSuccess, rfl⟩
      | some mem => exact ih rows' enough' mem

theorem amGetAppMetTable_eq (enough : agent.rows.length < fuel) (mem : Memory) :
    ∃ result, amGetAppMetTable zone agent.mib fuel mem =
      ((pairs agent.rows fuel agent.rows).foldlM (addRow zone) mem).map (Prod.mk result) :=
  pageLoop_eq (List.nil_append agent.rows).symm enough mem

end Pages

end EveAgent.AppMetering
