import EveAgent.CText
import EveAgent.JobSched.DateTimes

namespace EveAgent.Backup.Run

open JobSched CivilTime

section Records

/-- `stBackupMaster` with the mandatory attributes set; another pointer that is null is `none`. -/
structure StBackupMaster where
  iIndex : Nat
  pcMasterID : Octets
  pcMasterName : Option Octets
  pcStartTime : Octets
  pcEndTime : Octets
  pcIPAddr : Option Octets
  pcDestPath : Option Octets
  uiEndTimeinNum : UInt32
  deriving DecidableEq, Repr

structure StBackupStruct where
  pcDestIP : Option Octets
  pcDestPath : Option Octets
  pcSourcePath : Option Octets
  pcStartDate : Option Octets
  pcEndDate : Option Octets
  masterID : Option Octets
  pcMasterName : Option Octets
  iMasterIndex : Nat
  deriving DecidableEq, Repr

/-- The pointers that `BM_SpawnBackup` sets to null. -/
def StBackupStruct.unset : StBackupStruct := ⟨none, none, none, none, none, none, none, 0⟩

end Records

section Copies

inductive Filled where
  | failure
  | insufficientMemory
  | success (pcDst : Octets)
  deriving DecidableEq, Repr

/-- `BM_FillStruct`. The length is kept in 16 bits; of one that is negative there is no room for
the copy, or room for nothing and a copy over all memory. -/
def bmFillStruct (string : Octets) : Option Filled :=
  let iLen := i16 string.length
  if iLen = 0 then some .failure
  else if iLen < -1 then some .insufficientMemory
  else if iLen = -1 then none
  else some (.success (string.take iLen.toNat))

/-- The statements of `BM_ModifyBackupToSched` that change the record of the task. -/
def bmModifyRecord (pstBMMod pstBMStruct : StBackupMaster) : StBackupMaster :=
  { pstBMMod with
    uiEndTimeinNum := pstBMStruct.uiEndTimeinNum
    pcMasterID := cString pstBMStruct.pcMasterID
    pcMasterName := (pstBMStruct.pcMasterName.map cString).or pstBMMod.pcMasterName
    pcIPAddr := (pstBMStruct.pcIPAddr.map cString).or pstBMMod.pcIPAddr
    pcDestPath := (pstBMStruct.pcDestPath.map cString).or pstBMMod.pcDestPath
    pcStartTime := cString pstBMStruct.pcStartTime
    pcEndTime := cString pstBMStruct.pcEndTime }

/-- `BM_FillBackupStruct` where there is memory; it measures the address also when it is null. -/
def bmFillBackupStruct (pstBkp : StBackupStruct) (pstBackup : StBackupMaster) :
    Option StBackupStruct :=
  pstBackup.pcIPAddr.map fun pcIPAddr =>
    { pstBkp with
      pcDestIP := some (cString pcIPAddr)
      pcDestPath := (pstBackup.pcDestPath.map cString).or pstBkp.pcDestPath
      pcStartDate := some (cString pstBackup.pcStartTime)
      pcEndDate := some (cString pstBackup.pcEndTime)
      masterID := some (cString pstBackup.pcMasterID)
      pcMasterName := (pstBackup.pcMasterName.map cString).or pstBkp.pcMasterName }

end Copies

section Runs

/-- A time zone, and what `mktime` makes of a time that claims to be summer time. -/
structure Clock where
  zone : Zone
  mktimeSummer : StructTm → StructTm × Bool

/-- `mktime` with the flag for summer time that it is given and that it leaves. -/
def Clock.mktime (clock : Clock) (isdst : Bool) (tm : StructTm) : StructTm × Bool :=
  if isdst then clock.mktimeSummer tm
  else
    let (shown, instant) := Zone.mktime clock.zone tm
    (shown, clock.zone.summer instant != 0)

/-- `BM_FillTimeStruct`: the time that is broken down, and the flag. `none` when the string
overruns the 80 octets on the stack. -/
def bmFillTimeStruct (clock : Clock) (isdst : Bool) (pstTime : Octets) :
    Option (StructTm × Bool) :=
  let szStr := cString pstTime
  if szStr.length ≥ 80 then none
  else
    let octet := fun index => ((szStr[index]?.getD 0).toNat : Int)
    let iYear := octet 0 * 256 + octet 1
    let (pstTm, isdst) := clock.mktime isdst
      { tmSec := octet 6
        tmMin := octet 5
        tmHour := octet 4
        tmMday := octet 3
        tmMon := octet 2 - 1
        tmYear := iYear - 1900 }
    some ({ pstTm with tmYear := iYear }, isdst)

def zeroTm : StructTm := ⟨0, 0, 0, 0, 0, 0⟩

def dateText (tm : StructTm) : Text :=
  "Year ".toList ++ printLd tm.tmYear ++ " Month ".toList ++ printLd (tm.tmMon + 1) ++
    " Day ".toList ++ printLd tm.tmMday ++ " Hour".toList ++ printLd tm.tmHour ++
    " Min".toList ++ printLd tm.tmMin ++ " Sec".toList ++ printLd tm.tmSec

/-- The format `%d.%d.%d.%d`. -/
def addressText (address : Octets) : Text :=
  List.intercalate ['.'] (address.map fun octet => printLd octet.toNat)

structure Entry where
  startDate : StructTm
  endDate : StructTm
  iMasterIndex : Nat
  masterID : Octets
  cTempMasName : Text
  buff : Text
  cTempDestPath : Text
  tempStr : Text
  deriving DecidableEq, Repr

def Entry.localBuff (entry : Entry) : Text :=
  dateText entry.startDate ++ [' '] ++ dateText entry.endDate ++ [' '] ++
    printLd entry.iMasterIndex ++ [' '] ++ textOf entry.masterID ++ [' '] ++ entry.cTempMasName ++
    [' '] ++ entry.buff ++ [' '] ++ entry.cTempDestPath ++ [' '] ++ entry.tempStr ++ " \n ".toList

/-- The entry fits into the arrays on the stack. -/
def Entry.Fits (entry : Entry) : Prop :=
  (dateText entry.startDate).length < 60 ∧ (dateText entry.endDate).length < 60 ∧
    entry.cTempMasName.length < 60 ∧ entry.cTempDestPath.length < 1000 ∧
    entry.localBuff.length < 1000

instance (entry : Entry) : Decidable entry.Fits := inferInstanceAs (Decidable (_ ∧ _))

/-- What a run passes to `FileTrans_SendFile`, and its entry. -/
structure Sent where
  sinAddr : Octets
  pcSourcePath : Octets
  pcDestPath : Option Octets
  entry : Entry
  deriving DecidableEq, Repr

def loggedText (given : Option Octets) : Text :=
  match given with
  | some octets => textOf octets
  | none => "None".toList

def logEntry (pstBacup : StBackupStruct) (success : Bool) (masterID sinAddr : Octets)
    (startDate endDate : StructTm) : Entry where
  startDate := startDate
  endDate := endDate
  iMasterIndex := pstBacup.iMasterIndex
  masterID := masterID
  cTempMasName := loggedText pstBacup.pcMasterName
  buff := addressText sinAddr
  cTempDestPath := loggedText pstBacup.pcDestPath
  tempStr := (if success then "File Transfer SUCCESS" else "File Transfer FAILED").toList

/-- `BM_DoBackup`; `success` tells what comes of the transfer. Four octets of the address are read,
of which the last may be the zero that ends it. -/
def bmDoBackup (clock : Clock) (success : Bool) (pstBacup : StBackupStruct) :
    Option (Option Sent) :=
  match pstBacup.pcDestIP, pstBacup.pcSourcePath with
  | some pcDestIP, some pcSourcePath =>
    if pcDestIP.length < 3 then none
    else do
      let sinAddr := (pcDestIP ++ [0]).take 4
      let (startDate, isdst) ← match pstBacup.pcStartDate with
        | some pcStartDate => bmFillTimeStruct clock false pcStartDate
        | none => some (zeroTm, false)
      let (endDate, _) ← match pstBacup.pcEndDate with
        | some pcEndDate => bmFillTimeStruct clock isdst pcEndDate
        | none => some (startDate, isdst)
      let masterID ← pstBacup.masterID
      let entry := logEntry pstBacup success masterID sinAddr startDate endDate
      if entry.Fits then
        some (some
          { sinAddr := sinAddr
            pcSourcePath := pcSourcePath
            pcDestPath := pstBacup.pcDestPath
            entry := entry })
      else none
  | _, _ => some none

end Runs

section Rows

structure Address where
  a : UInt8
  b : UInt8
  c : UInt8
  d : UInt8
  deriving DecidableEq, Repr

def Address.octets (address : Address) : Octets := [address.a, address.b, address.c, address.d]

structure BackupRow where
  iIndex : Nat
  masterID : Octets
  masterName : Option Octets
  startTime : DateAndTime
  finishTime : DateAndTime
  address : Address
  destPath : Option Octets

/-- What a trap carries for the row; the mandatory columns are always there. -/
structure Change where
  masterID : Octets
  masterName : Option Octets
  startTime : DateAndTime
  finishTime : DateAndTime
  address : Option Address
  destPath : Option Octets
  uiEndTimeinNum : UInt32

def BackupRow.changed (row : BackupRow) (change : Change) : BackupRow where
  iIndex := row.iIndex
  masterID := change.masterID
  masterName := change.masterName.or row.masterName
  startTime := change.startTime
  finishTime := change.finishTime
  address := change.address.getD row.address
  destPath := change.destPath.or row.destPath

/-- What `BM_FillStruct` leaves in the pointer. -/
def filled (string : Octets) : Option Octets :=
  match bmFillStruct string with
  | some (.success pcDst) => some pcDst
  | _ => none

/-- The record that `BM_GetBackupMaster` or `BM_ParseTrap` makes of a new row. -/
def BackupRow.record (row : BackupRow) (uiEndTimeinNum : UInt32) : Option StBackupMaster := do
  let pcStartTime ← filled row.startTime.octets
  let pcEndTime ← filled row.finishTime.octets
  some
    { iIndex := row.iIndex
      pcMasterID := row.masterID
      pcMasterName := row.masterName
      pcStartTime := pcStartTime
      pcEndTime := pcEndTime
      pcIPAddr := filled row.address.octets
      pcDestPath := row.destPath
      uiEndTimeinNum := uiEndTimeinNum }

/-- The record that `BM_ParseTrap` makes of a trap. -/
def Change.record (change : Change) (iIndex : Nat) : Option StBackupMaster := do
  let pcStartTime ← filled change.startTime.octets
  let pcEndTime ← filled change.finishTime.octets
  some
    { iIndex := iIndex
      pcMasterID := change.masterID
      pcMasterName := change.masterName
      pcStartTime := pcStartTime
      pcEndTime := pcEndTime
      pcIPAddr := change.address.bind fun address => filled address.octets
      pcDestPath := change.destPath
      uiEndTimeinNum := change.uiEndTimeinNum }

/-- The record in the scheduler after the row has been changed by traps. -/
def recordAfter (row : BackupRow) (uiEndTimeinNum : UInt32) (changes : List Change) :
    Option StBackupMaster := do
  let record ← row.record uiEndTimeinNum
  changes.foldlM (fun record change =>
    (change.record record.iIndex).map (bmModifyRecord record)) record

def rowAfter (row : BackupRow) (changes : List Change) : BackupRow :=
  changes.foldl BackupRow.changed row

/-- What a run that sends `pcSourcePath` does for the record. -/
def runOf (clock : Clock) (success : Bool) (pcSourcePath : Octets) (record : StBackupMaster) :
    Option (Option Sent) :=
  (bmFillBackupStruct .unset record).bind fun pstBkp =>
    bmDoBackup clock success
      { pstBkp with iMasterIndex := record.iIndex, pcSourcePath := some pcSourcePath }

/-- The run passes the address of the row and logs its dates. -/
def Delivered (clock : Clock) (success : Bool) (pcSourcePath : Octets) (row : BackupRow)
    (record : Option StBackupMaster) : Prop :=
  ∃ sent, record.bind (runOf clock success pcSourcePath) = some (some sent) ∧
    sent.sinAddr = row.address.octets ∧ sent.entry.startDate = row.startTime.brokenDown ∧
    sent.entry.endDate = row.finishTime.brokenDown

/-- The moment that the octets tell in standard time, as they are seen. -/
def seenInstant (zone : Zone) (date : DateAndTime) : Int := date.seenSeconds - zone.standard

/-- The octets tell the year, and at the moment that they tell in standard time the clocks show
the month, the day and the time. -/
structure Tells (zone : Zone) (date : DateAndTime) : Prop where
  year : date.seenYear = date.year.toNat
  shown : Shows (date.seenSeconds + zone.summer (seenInstant zone date)) date.month.toNat
    date.day.toNat date.hour.toNat date.minutes.toNat date.seconds.toNat

/-- The broken-down time that the octets tell. -/
def seenTm (date : DateAndTime) : StructTm :=
  { tmSec := date.seen 6
    tmMin := date.seen 5
    tmHour := date.seen 4
    tmMday := date.seen 3
    tmMon := date.seen 2 - 1
    tmYear := date.seenYear - 1900 }

/-- Both dates are told. Where the clocks show the first one in summer time, the C library is
told that the second one is summer time, too. -/
structure Clock.Keeps (clock : Clock) (startTime finishTime : DateAndTime) : Prop where
  start : Tells clock.zone startTime
  standard : clock.zone.summer (seenInstant clock.zone startTime) = 0 → Tells clock.zone finishTime
  summer : clock.zone.summer (seenInstant clock.zone startTime) ≠ 0 →
    { (clock.mktimeSummer (seenTm finishTime)).1 with tmYear := finishTime.seenYear } =
      finishTime.brokenDown

/-- The copies of the row for a run that sends `pcSourcePath`. -/
def BackupRow.copies (row : BackupRow) (pcSourcePath : Octets) : StBackupStruct where
  pcDestIP := some (cString row.address.octets)
  pcDestPath := row.destPath.map cString
  pcSourcePath := some pcSourcePath
  pcStartDate := some (cString row.startTime.octets)
  pcEndDate := some (cString row.finishTime.octets)
  masterID := some (cString row.masterID)
  pcMasterName := row.masterName.map cString
  iMasterIndex := row.iIndex

def BackupRow.entry (row : BackupRow) (success : Bool) : Entry :=
  logEntry (row.copies []) success (cString row.masterID) row.address.octets
    row.startTime.brokenDown row.finishTime.brokenDown

structure BackupRow.Survives (row : BackupRow) (clock : Clock) (success : Bool) : Prop where
  a : row.address.a ≠ 0
  b : row.address.b ≠ 0
  c : row.address.c ≠ 0
  dates : clock.Keeps row.startTime row.finishTime
  room : (row.entry success).Fits

end Rows

section Chains

variable {clock : Clock} {success isdst : Bool} {row : BackupRow} {record : StBackupMaster}
  {change : Change} {pcSourcePath : Octets} {uiEndTimeinNum : UInt32}

theorem i16_length {string : Octets} (short : string.length < 32768) :
    i16 string.length = string.length := by
  apply i16_of_range
  · omega
  · omega

theorem fillStruct_short {string : Octets} (filling : string ≠ [])
    (short : string.length < 32768) : bmFillStruct string = some (.success string) := by
  have positive : 0 < string.length := List.length_pos_iff.mpr filling
  unfold bmFillStruct
  simp only [i16_length short]
  have notZero : ¬ (string.length : Int) = 0 := by omega
  have notLess : ¬ (string.length : Int) < -1 := by omega
  have notMinus : ¬ (string.length : Int) = -1 := by omega
  rw [if_neg notZero, if_neg notLess, if_neg notMinus, Int.toNat_natCast, List.take_length]

theorem filled_success {string pcDst : Octets}
    (stored : bmFillStruct string = some (.success pcDst)) : filled string = some pcDst := by
  unfold filled
  rw [stored]

theorem filled_short {string : Octets} (filling : string ≠ []) (short : string.length < 32768) :
    filled string = some string :=
  filled_success (fillStruct_short filling short)

theorem filled_date (date : DateAndTime) : filled date.octets = some date.octets := by
  have length := date.octets_length
  exact filled_short (List.cons_ne_nil _ _) (by omega)

theorem filled_address (address : Address) : filled address.octets = some address.octets := by
  have length : address.octets.length = 4 := rfl
  exact filled_short (List.cons_ne_nil _ _) (by omega)

/-- The record holds what the string functions see of the row. -/
structure Holds (record : StBackupMaster) (row : BackupRow) : Prop where
  iIndex : record.iIndex = row.iIndex
  masterID : cString record.pcMasterID = cString row.masterID
  masterName : record.pcMasterName.map cString = row.masterName.map cString
  startTime : cString record.pcStartTime = cString row.startTime.octets
  finishTime : cString record.pcEndTime = cString row.finishTime.octets
  address : record.pcIPAddr.map cString = some (cString row.address.octets)
  destPath : record.pcDestPath.map cString = row.destPath.map cString

def BackupRow.stored (row : BackupRow) (uiEndTimeinNum : UInt32) : StBackupMaster where
  iIndex := row.iIndex
  pcMasterID := row.masterID
  pcMasterName := row.masterName
  pcStartTime := row.startTime.octets
  pcEndTime := row.finishTime.octets
  pcIPAddr := some row.address.octets
  pcDestPath := row.destPath
  uiEndTimeinNum := uiEndTimeinNum

theorem record_stored (row : BackupRow) (uiEndTimeinNum : UInt32) :
    row.record uiEndTimeinNum = some (row.stored uiEndTimeinNum) := by
  simp only [BackupRow.record, filled_date, filled_address, Option.bind_eq_bind, Option.bind_some,
    BackupRow.stored]

theorem holds_stored (row : BackupRow) (uiEndTimeinNum : UInt32) :
    Holds (row.stored uiEndTimeinNum) row := ⟨rfl, rfl, rfl, rfl, rfl, rfl, rfl⟩

def Change.event (change : Change) (iIndex : Nat) : StBackupMaster where
  iIndex := iIndex
  pcMasterID := change.masterID
  pcMasterName := change.masterName
  pcStartTime := change.startTime.octets
  pcEndTime := change.finishTime.octets
  pcIPAddr := change.address.map Address.octets
  pcDestPath := change.destPath
  uiEndTimeinNum := change.uiEndTimeinNum

theorem record_event (change : Change) (iIndex : Nat) :
    change.record iIndex = some (change.event iIndex) := by
  simp only [Change.record, filled_date, filled_address, Option.bind_eq_bind, Option.bind_some,
    Change.event]
  cases change.address <;> rfl

theorem map_cString_or (new old : Option Octets) :
    ((new.map cString).or old).map cString = (new.map cString).or (old.map cString) := by
  cases new with
  | none => rfl
  | some octets => simp [cString_cString]

theorem map_or {α β : Type} (f : α → β) (new old : Option α) :
    (new.or old).map f = (new.map f).or (old.map f) := by
  cases new <;> rfl

theorem Holds.modified (holds : Holds record row) (change : Change) :
    Holds (bmModifyRecord record (change.event record.iIndex)) (row.changed change) where
  iIndex := holds.iIndex
  masterID := cString_cString _
  masterName := by
    change ((change.masterName.map cString).or record.pcMasterName).map cString =
      (change.masterName.or row.masterName).map cString
    rw [map_cString_or, holds.masterName, map_or]
  startTime := cString_cString _
  finishTime := cString_cString _
  address := by
    change (((change.address.map Address.octets).map cString).or record.pcIPAddr).map cString =
      some (cString (change.address.getD row.address).octets)
    rw [map_cString_or, holds.address]
    cases change.address <;> rfl
  destPath := by
    change ((change.destPath.map cString).or record.pcDestPath).map cString =
      (change.destPath.or row.destPath).map cString
    rw [map_cString_or, holds.destPath, map_or]

theorem holds_after (row : BackupRow) (uiEndTimeinNum : UInt32) (changes : List Change) :
    ∃ record, recordAfter row uiEndTimeinNum changes = some record ∧
      Holds record (rowAfter row changes) := by
  have kept : ∀ record row, Holds record row → ∃ record',
      changes.foldlM (fun record change =>
        (change.record record.iIndex).map (bmModifyRecord record)) record = some record' ∧
      Holds record' (rowAfter row changes) := by
    induction changes with
    | nil =>
      intro record row holds
      exact ⟨record, rfl, holds⟩
    | cons change changes ih =>
      intro record row holds
      rcases ih _ _ (holds.modified change) with ⟨record', ran, holds'⟩
      refine ⟨record', ?_, holds'⟩
      rw [List.foldlM_cons, record_event, Option.map_some]
      exact ran
  rcases kept _ _ (holds_stored row uiEndTimeinNum) with ⟨record, ran, holds⟩
  refine ⟨record, ?_, holds⟩
  rw [recordAfter, record_stored]
  exact ran

theorem Holds.run_eq (holds : Holds record row) :
    runOf clock success pcSourcePath record =
      bmDoBackup clock success (row.copies pcSourcePath) := by
  have address := holds.address
  cases given : record.pcIPAddr with
  | none => simp [given] at address
  | some pcIPAddr =>
    rw [given, Option.map_some] at address
    simp only [runOf, bmFillBackupStruct, given, Option.map_some, Option.bind_some,
      Option.some.inj address, StBackupStruct.unset, Option.or_none, holds.destPath,
      holds.startTime, holds.finishTime, holds.masterID, holds.masterName, holds.iIndex,
      BackupRow.copies]

theorem fillTime_cString (clock : Clock) (isdst : Bool) (octets : Octets) :
    bmFillTimeStruct clock isdst (cString octets) = bmFillTimeStruct clock isdst octets := by
  unfold bmFillTimeStruct
  rw [cString_cString]

theorem address_seen (address : Address) :
    (¬ (cString address.octets).length < 3 ∧
        ((cString address.octets) ++ [0]).take 4 = address.octets) ↔
      address.a ≠ 0 ∧ address.b ≠ 0 ∧ address.c ≠ 0 := by
  rcases address with ⟨a, b, c, d⟩
  change (¬ (cString [a, b, c, d]).length < 3 ∧
    ((cString [a, b, c, d]) ++ [0]).take 4 = [a, b, c, d])
    ↔ a ≠ 0 ∧ b ≠ 0 ∧ c ≠ 0
  by_cases za : a = 0
  · rw [za, cString_zero]
    simp
  by_cases zb : b = 0
  · rw [zb, cString_cons za, cString_zero]
    simp
  by_cases zc : c = 0
  · rw [zc, cString_cons za, cString_cons zb, cString_zero]
    simp
  rw [cString_cons za, cString_cons zb, cString_cons zc]
  by_cases zd : d = 0
  · rw [zd, cString_zero]
    simp [za, zb, zc]
  · rw [cString_cons zd]
    simp [za, zb, zc, cString]

theorem mktime_seen (zone : Zone) (date : DateAndTime) :
    Zone.mktime zone (seenTm date) =
      let shown := date.seenSeconds + zone.summer (seenInstant zone date)
      ({ tmSec := secondOf shown
         tmMin := minuteOf shown
         tmHour := hourOf shown
         tmMday := (dateOf (shown / 86400)).2.2
         tmMon := (dateOf (shown / 86400)).2.1 - 1
         tmYear := (dateOf (shown / 86400)).1 - 1900 }, seenInstant zone date) := by
  have month_le := date.month_le
  have bounds : 0 ≤ date.seen 2 ∧ date.seen 2 ≤ 12 := by
    rw [DateAndTime.seen]
    split_ifs
    · decide
    · change 0 ≤ (date.month.toNat : Int) ∧ (date.month.toNat : Int) ≤ 12
      omega
  have set : clockSeconds (date.seenYear - 1900 + 1900 + (date.seen 2 - 1) / 12)
      ((date.seen 2 - 1) % 12 + 1) (date.seen 3) (date.seen 4) (date.seen 5) (date.seen 6) =
        date.seenSeconds := by
    rw [DateAndTime.seenSeconds, clockSeconds, clockSeconds]
    rcases eq_or_lt_of_le bounds.1 with december | later
    · rw [← december]
      unfold dayNumber
      norm_num
      omega
    · rw [show (date.seen 2 - 1) / 12 = 0 by omega, show (date.seen 2 - 1) % 12 + 1 = date.seen 2 by
        omega, Int.add_zero, Int.sub_add_cancel]
  unfold Zone.mktime seenTm seenInstant
  dsimp only
  rw [set]

theorem fillTime_seen (clock : Clock) (isdst : Bool) (date : DateAndTime) :
    bmFillTimeStruct clock isdst date.octets =
      some ({ (clock.mktime isdst (seenTm date)).1 with tmYear := date.seenYear },
        (clock.mktime isdst (seenTm date)).2) := by
  have fits : ¬ (cString date.octets).length ≥ 80 := by
    have short := cString_length date.octets
    have length := date.octets_length
    omega
  unfold bmFillTimeStruct
  dsimp only
  rw [if_neg fits]
  simp only [DateAndTime.seen_eq]
  rfl

theorem tells_iff (zone : Zone) (date : DateAndTime) :
    { (Zone.mktime zone (seenTm date)).1 with tmYear := date.seenYear } = date.brokenDown ↔
      Tells zone date := by
  rw [mktime_seen]
  simp only [DateAndTime.brokenDown, StructTm.mk.injEq]
  constructor
  · intro same
    obtain ⟨second, minute, hour, day, month, year⟩ := same
    exact ⟨year, Prod.ext (by dsimp only; omega) day, hour, minute, second⟩
  · intro tells
    obtain ⟨year, date, hour, minute, second⟩ := tells
    obtain ⟨month, day⟩ := Prod.ext_iff.mp date
    dsimp only at month
    exact ⟨second, minute, hour, day, by omega, year⟩

/-- `BM_FillTimeStruct` finds both dates, one after the other, in their octets. -/
theorem keeps_iff (clock : Clock) (startTime finishTime : DateAndTime) :
    (∃ isdst isdst', bmFillTimeStruct clock false startTime.octets =
        some (startTime.brokenDown, isdst) ∧
      bmFillTimeStruct clock isdst finishTime.octets = some (finishTime.brokenDown, isdst')) ↔
      clock.Keeps startTime finishTime := by
  have standard : ∀ date, clock.mktime false (seenTm date) =
      ((Zone.mktime clock.zone (seenTm date)).1,
        clock.zone.summer (seenInstant clock.zone date) != 0) := by
    intro date
    rw [Clock.mktime, mktime_seen]
    rfl
  have summer : ∀ date, clock.mktime true (seenTm date) = clock.mktimeSummer (seenTm date) :=
    fun _ => rfl
  rw [fillTime_seen, standard]
  simp only [Option.some.injEq, Prod.mk.injEq, tells_iff]
  constructor
  · rintro ⟨isdst, isdst', ⟨start, rfl⟩, finish⟩
    rw [fillTime_seen, Option.some.injEq, Prod.mk.injEq] at finish
    refine ⟨start, fun zero => ?_, fun shifted => ?_⟩
    · rw [zero, bne_self_eq_false, standard, tells_iff] at finish
      exact finish.1
    · rw [bne_iff_ne.mpr shifted, summer] at finish
      exact finish.1
  · rintro ⟨start, zero, shifted⟩
    refine ⟨clock.zone.summer (seenInstant clock.zone startTime) != 0,
      (clock.mktime (clock.zone.summer (seenInstant clock.zone startTime) != 0)
        (seenTm finishTime)).2, ⟨start, rfl⟩, ?_⟩
    rw [fillTime_seen, Option.some.injEq, Prod.mk.injEq]
    refine ⟨?_, rfl⟩
    by_cases none' : clock.zone.summer (seenInstant clock.zone startTime) = 0
    · rw [none', bne_self_eq_false, standard, tells_iff]
      exact zero none'
    · rw [bne_iff_ne.mpr none', summer]
      exact shifted none'

/-- What comes of a run depends on the row alone, however its record came about. -/
theorem Holds.delivers_iff (holds : Holds record row) :
    Delivered clock success pcSourcePath row (some record) ↔ row.Survives clock success := by
  have fields := address_seen row.address
  have same : logEntry (row.copies pcSourcePath) success (cString row.masterID) row.address.octets
      row.startTime.brokenDown row.finishTime.brokenDown = row.entry success := rfl
  rw [Delivered, Option.bind_some, holds.run_eq, bmDoBackup]
  simp only [BackupRow.copies] at same ⊢
  by_cases short : (cString row.address.octets).length < 3
  · rw [if_pos short]
    constructor
    · intro delivered
      rcases delivered with ⟨sent, ran, _⟩
      cases ran
    · intro survives
      exact absurd short (fields.mpr ⟨survives.a, survives.b, survives.c⟩).1
  · rw [if_neg short]
    simp only [fillTime_cString, Option.bind_eq_bind, Option.bind_some]
    constructor
    · intro delivered
      rcases delivered with ⟨sent, ran, address, startDate, endDate⟩
      rcases Option.bind_eq_some_iff.mp ran with ⟨⟨start, isdst⟩, started, ran⟩
      rcases Option.bind_eq_some_iff.mp ran with ⟨⟨finish, isdst'⟩, finished, ran⟩
      rcases Option.ite_none_right_eq_some.mp ran with ⟨fits, made⟩
      cases made
      simp only [logEntry] at address startDate endDate
      subst startDate endDate
      rw [address, same] at fits
      rcases fields.mp ⟨short, address⟩ with ⟨a, b, c⟩
      exact ⟨a, b, c, (keeps_iff _ _ _).mp ⟨isdst, isdst', started, finished⟩, fits⟩
    · intro survives
      rcases (keeps_iff _ _ _).mpr survives.dates with ⟨isdst, isdst', started, finished⟩
      have address := (fields.mpr ⟨survives.a, survives.b, survives.c⟩).2
      rw [started, Option.bind_some]
      simp only [finished, Option.bind_some, address, same]
      rw [if_pos survives.room]
      exact ⟨_, rfl, rfl, rfl, rfl⟩

/-- A run passes the address of the row and logs its dates exactly when they survive as strings:
on every way to the record the same octets are cut off. -/
theorem delivered_iff (clock : Clock) (success : Bool) (pcSourcePath : Octets) (row : BackupRow)
    (uiEndTimeinNum : UInt32) (changes : List Change) :
    Delivered clock success pcSourcePath (rowAfter row changes)
        (recordAfter row uiEndTimeinNum changes) ↔
      (rowAfter row changes).Survives clock success := by
  rcases holds_after row uiEndTimeinNum changes with ⟨record, ran, holds⟩
  rw [ran]
  exact holds.delivers_iff

/-- A row with the address 10.0.0.1, that is not changed. -/
def privateRow : BackupRow where
  iIndex := 1
  masterID := [1]
  masterName := none
  startTime := halfPastMidnight
  finishTime := halfPastMidnight
  address := ⟨10, 0, 0, 1⟩
  destPath := none

/-- The zero octets of an address end it. -/
theorem delivered_iff_private : ¬ ∀ (clock : Clock) (success : Bool) (pcSourcePath : Octets)
    (row : BackupRow) (uiEndTimeinNum : UInt32) (changes : List Change),
    Delivered clock success pcSourcePath (rowAfter row changes)
      (recordAfter row uiEndTimeinNum changes) := by
  intro all
  have delivered := all ⟨universal, fun tm => (tm, false)⟩ true [] privateRow 0 []
  have stored : recordAfter privateRow 0 [] = some (privateRow.stored 0) := by
    rw [recordAfter, record_stored]
    rfl
  rw [stored] at delivered
  exact ((holds_stored privateRow 0).delivers_iff.mp delivered).b rfl

end Chains

end EveAgent.Backup.Run
