import EveAgent.CivilTime
import EveAgent.JobSched.Traps

/-! The octets of a DateAndTime pass through string functions on their way to `mktime`: which of
them arrive. -/

namespace EveAgent.JobSched

open CivilTime

section Decoders

/-- `mktime` for a broken-down time that claims to be standard time, with a `time_t` that holds
all of them. -/
def Zone.mktime (zone : Zone) (tm : StructTm) : StructTm × Int :=
  let set := clockSeconds (tm.tmYear + 1900 + tm.tmMon / 12) (tm.tmMon % 12 + 1) tm.tmMday
    tm.tmHour tm.tmMin tm.tmSec
  let instant := set - zone.standard
  let shown := set + zone.summer instant
  let (year, month, day) := dateOf (shown / 86400)
  ({ tmSec := secondOf shown
     tmMin := minuteOf shown
     tmHour := hourOf shown
     tmMday := day
     tmMon := month - 1
     tmYear := year - 1900 }, instant)

def Zone.ctimeDay (zone : Zone) (iTime : UInt32) : String :=
  let shown := iTime.toNat + zone.standard + zone.summer iTime.toNat
  -- 1970-01-01 was a Thursday
  days.getD ((shown / 86400 + 4) % 7).toNat ""

def Zone.timeZone (zone : Zone) : TimeZone :=
  { mktime := Zone.mktime zone
    ctimeDay := Zone.ctimeDay zone }

/-- What `Util_Convert_Date_To_Long` passes to `mktime`. Its buffer holds plain `char`s, so the
first octet of the year has a sign; the two agents that have it differ in `bufSize`. -/
def utilBrokenDown (bufSize : Nat) (pctempstr : Octets) : Option StructTm :=
  let str := cString pctempstr
  if str.length ≥ bufSize then none
  else
    let octet := fun index => ((str[index]?.getD 0).toNat : Int)
    let year := ((str[0]?.getD 0).toInt8).toInt * 256 + octet 1
    some { tmSec := octet 6
           tmMin := octet 5
           tmHour := octet 4
           tmMday := octet 3
           tmMon := octet 2 - 1
           tmYear := year - 1900 }

def utilConvertDateToLong (zone : TimeZone) (bufSize : Nat) (pctempstr : Octets) : Option UInt32 :=
  (utilBrokenDown bufSize pctempstr).map fun tm => UInt32.ofInt (zone.mktime tm).2

/-- `BUFSIZE` of the metering agent and the size in the file distribution agent. -/
def bufSizes : List Nat := [256, 80]

end Decoders

section Values

/-- The value of a variable of that type; `rest` is the fraction of the second, and the offset
from universal time where it is given. -/
structure DateAndTime where
  year : UInt16
  month : UInt8
  day : UInt8
  hour : UInt8
  minutes : UInt8
  seconds : UInt8
  rest : Octets
  month_ge : 1 ≤ month.toNat
  month_le : month.toNat ≤ 12
  day_ge : 1 ≤ day.toNat
  day_le : day.toNat ≤ 31
  hour_lt : hour.toNat < 24
  minutes_lt : minutes.toNat < 60
  seconds_lt : seconds.toNat < 60
  rest_length : rest.length = 1 ∨ rest.length = 4

namespace DateAndTime

variable (date : DateAndTime)

def high : UInt8 := (date.year >>> 8).toUInt8

def low : UInt8 := date.year.toUInt8

def octets : Octets :=
  date.high :: date.low :: date.month :: date.day :: date.hour :: date.minutes ::
    date.seconds :: date.rest

/-- What it stands for; the year is counted from 0, as `JS_FillTimeStruct` leaves it. -/
def brokenDown : StructTm :=
  { tmSec := date.seconds.toNat
    tmMin := date.minutes.toNat
    tmHour := date.hour.toNat
    tmMday := date.day.toNat
    tmMon := date.month.toNat - 1
    tmYear := date.year.toNat }

/-- No octet that is zero comes before one that is not. -/
structure Whole : Prop where
  high : date.high ≠ 0
  low : date.low ≠ 0
  hour : date.hour = 0 → date.minutes = 0
  minutes : date.minutes = 0 → date.seconds = 0

/-- An octet as the string functions see it: behind one that is zero all are zero. -/
def seen (index : Nat) : Int :=
  if ∃ earlier < index, date.octets[earlier]? = some 0 then 0
  else (date.octets[index]?.getD 0).toNat

def seenYear : Int := date.seen 0 * 256 + date.seen 1

/-- What the octets tell as they are seen; month 0 is the last one of the year before. -/
def seenSeconds : Int :=
  clockSeconds date.seenYear (date.seen 2) (date.seen 3) (date.seen 4) (date.seen 5) (date.seen 6)

def seconds1970 : Int :=
  clockSeconds date.year.toNat date.month.toNat date.day.toNat date.hour.toNat
    date.minutes.toNat date.seconds.toNat

end DateAndTime

/-- The value arrives in the agents that decode it. -/
structure DecodesDate (zone : Zone) (date : DateAndTime) : Prop where
  decoded : ∃ octets iTime, jsFillStruct true none date.octets = (some octets, .nascSuccess) ∧
    jsFillTimeStruct (Zone.timeZone zone) octets = some (date.brokenDown, iTime)
  copied : ∀ event pstJSMod, (jsModifyRecord event pstJSMod).2 = true →
    (event.job.pcJobMasStartTime = some date.octets →
      ∃ copy, (jsModifyRecord event pstJSMod).1.pcJobMasStartTime = some copy ∧
        jsFillTimeStruct (Zone.timeZone zone) copy =
          jsFillTimeStruct (Zone.timeZone zone) date.octets) ∧
    (event.job.pcJobMasFinishTime = some date.octets →
      ∃ copy, (jsModifyRecord event pstJSMod).1.pcJobMasFinishTime = some copy ∧
        jsFillTimeStruct (Zone.timeZone zone) copy =
          jsFillTimeStruct (Zone.timeZone zone) date.octets)
  converted : ∀ bufSize ∈ bufSizes, utilBrokenDown bufSize date.octets =
    some { date.brokenDown with tmYear := date.year.toNat - 1900 }

end Values

section Views

theorem cString_cons {octet : UInt8} (nonzero : octet ≠ 0) (rest : Octets) :
    cString (octet :: rest) = octet :: cString rest :=
  List.takeWhile_cons_of_pos (by simpa using nonzero)

theorem cString_zero (rest : Octets) : cString (0 :: rest) = [] :=
  List.takeWhile_cons_of_neg (by decide)

theorem cString_cString (octets : Octets) : cString (cString octets) = cString octets := by
  induction octets with
  | nil => rfl
  | cons octet rest ih =>
    by_cases zero : octet = 0
    · rw [zero, cString_zero]
      rfl
    · rw [cString_cons zero, cString_cons zero, ih]

theorem cString_length (octets : Octets) : (cString octets).length ≤ octets.length :=
  (List.takeWhile_sublist _).length_le

theorem cString_behind {octets : Octets} {index later : Nat} (zero : octets[index]? = some 0)
    (behind : index < later) : (cString octets)[later]?.getD 0 = 0 := by
  induction octets generalizing index later with
  | nil => rfl
  | cons octet rest ih =>
    by_cases first : octet = 0
    · rw [first, cString_zero]
      rfl
    · rw [cString_cons first]
      cases index with
      | zero => exact absurd (Option.some.inj zero) first
      | succ index =>
        cases later with
        | zero => omega
        | succ later => exact ih zero (by omega)

theorem cString_getD (octets : Octets) (index : Nat) : (cString octets)[index]?.getD 0 =
    if ∃ earlier < index, octets[earlier]? = some 0 then 0 else octets[index]?.getD 0 := by
  induction octets generalizing index with
  | nil => simp [cString]
  | cons octet rest ih =>
    by_cases zero : octet = 0
    · rw [zero, cString_zero]
      cases index with
      | zero => simp
      | succ index => rw [if_pos ⟨0, Nat.succ_pos index, rfl⟩, List.getElem?_nil, Option.getD_none]
    · rw [cString_cons zero]
      cases index with
      | zero => simp
      | succ index =>
        have later : (∃ earlier < index + 1, (octet :: rest)[earlier]? = some 0) ↔
            ∃ earlier < index, rest[earlier]? = some 0 := by
          constructor
          · rintro ⟨earlier, before, found⟩
            cases earlier with
            | zero => exact absurd (Option.some.inj found) zero
            | succ earlier => exact ⟨earlier, by omega, found⟩
          · rintro ⟨earlier, before, found⟩
            exact ⟨earlier + 1, by omega, found⟩
        simp only [later, List.getElem?_cons_succ]
        exact ih index

variable {date : DateAndTime}

namespace DateAndTime

theorem seen_eq (date : DateAndTime) (index : Nat) :
    ((cString date.octets)[index]?.getD 0).toNat = date.seen index := by
  rw [cString_getD, seen]
  split_ifs <;> rfl

theorem octets_length : date.octets.length ≤ 11 := by
  have rest := date.rest_length
  simp only [octets, List.length_cons]
  omega

theorem Whole.seen (whole : date.Whole) (index : Nat) (inside : index < 7) :
    (cString date.octets)[index]?.getD 0 = date.octets[index]?.getD 0 := by
  have month : date.month ≠ 0 := by
    intro zero
    have least := date.month_ge
    rw [zero] at least
    exact absurd least (by decide)
  have day : date.day ≠ 0 := by
    intro zero
    have least := date.day_ge
    rw [zero] at least
    exact absurd least (by decide)
  unfold octets
  rw [cString_cons whole.high, cString_cons whole.low, cString_cons month, cString_cons day]
  by_cases hour : date.hour = 0
  · have minutes := whole.hour hour
    rw [hour, minutes, whole.minutes minutes, cString_zero]
    interval_cases index <;> rfl
  rw [cString_cons hour]
  by_cases minutes : date.minutes = 0
  · rw [minutes, whole.minutes minutes, cString_zero]
    interval_cases index <;> rfl
  rw [cString_cons minutes]
  by_cases seconds : date.seconds = 0
  · rw [seconds, cString_zero]
    interval_cases index <;> rfl
  · rw [cString_cons seconds]
    interval_cases index <;> rfl

theorem year_octets : (date.high.toNat : Int) * 256 + date.low.toNat = date.year.toNat := by
  simp only [high, low, UInt16.toNat_toUInt8, UInt16.toNat_shiftRight]
  have shift : date.year.toNat >>> ((8 : UInt16).toNat % 16) = date.year.toNat / 256 := by
    rw [Nat.shiftRight_eq_div_pow]
    rfl
  rw [shift]
  have bound := date.year.toNat_lt
  omega

end DateAndTime

end Views

section Decoded

namespace DateAndTime

variable {date : DateAndTime} {zone : Zone} {bufSize : Nat}

/-- The moment that standard time shows as this value. -/
def instant (zone : Zone) (date : DateAndTime) : Int := date.seconds1970 - zone.standard

/-- What a decoder passes to `mktime`, for the year that it has found. -/
def standardTime (date : DateAndTime) (year : Int) : StructTm :=
  { date.brokenDown with tmYear := year - 1900 }

theorem Whole.utilBrokenDown (whole : date.Whole) (size : 11 < bufSize) :
    utilBrokenDown bufSize date.octets =
      some (date.standardTime (date.high.toInt8.toInt * 256 + date.low.toNat)) := by
  have fits : ¬ (cString date.octets).length ≥ bufSize := by
    have short := cString_length date.octets
    have length := date.octets_length
    omega
  unfold JobSched.utilBrokenDown
  dsimp only
  rw [if_neg fits]
  simp only [whole.seen _ (show 0 < 7 by decide), whole.seen _ (show 1 < 7 by decide),
    whole.seen _ (show 2 < 7 by decide), whole.seen _ (show 3 < 7 by decide),
    whole.seen _ (show 4 < 7 by decide), whole.seen _ (show 5 < 7 by decide),
    whole.seen _ (show 6 < 7 by decide)]
  rfl

theorem Whole.fillTimeStruct (whole : date.Whole) :
    jsFillTimeStruct (Zone.timeZone zone) date.octets =
      some ({ (Zone.mktime zone (date.standardTime date.year.toNat)).1 with
        tmYear := date.year.toNat },
        UInt32.ofInt (Zone.mktime zone (date.standardTime date.year.toNat)).2) := by
  have fits : ¬ (cString date.octets).length ≥ 80 := by
    have short := cString_length date.octets
    have length := date.octets_length
    omega
  unfold jsFillTimeStruct
  dsimp only
  rw [if_neg fits]
  simp only [whole.seen _ (show 0 < 7 by decide), whole.seen _ (show 1 < 7 by decide),
    whole.seen _ (show 2 < 7 by decide), whole.seen _ (show 3 < 7 by decide),
    whole.seen _ (show 4 < 7 by decide), whole.seen _ (show 5 < 7 by decide),
    whole.seen _ (show 6 < 7 by decide)]
  rw [← year_octets]
  rfl

theorem isTime : IsTime date.hour.toNat date.minutes.toNat date.seconds.toNat := by
  have hour_lt := date.hour_lt
  have minutes_lt := date.minutes_lt
  have seconds_lt := date.seconds_lt
  constructor <;> omega

def shown (zone : Zone) (date : DateAndTime) : Int :=
  date.seconds1970 + zone.summer (date.instant zone)

theorem mktime_standardTime : Zone.mktime zone (date.standardTime date.year.toNat) =
    ({ tmSec := secondOf (date.shown zone)
       tmMin := minuteOf (date.shown zone)
       tmHour := hourOf (date.shown zone)
       tmMday := (dateOf (date.shown zone / 86400)).2.2
       tmMon := (dateOf (date.shown zone / 86400)).2.1 - 1
       tmYear := (dateOf (date.shown zone / 86400)).1 - 1900 }, date.instant zone) := by
  have month_ge := date.month_ge
  have month_le := date.month_le
  have year : (date.year.toNat : Int) - 1900 + 1900 + ((date.month.toNat : Int) - 1) / 12 =
      date.year.toNat := by omega
  have month : ((date.month.toNat : Int) - 1) % 12 + 1 = date.month.toNat := by omega
  have set : clockSeconds
      ((date.year.toNat : Int) - 1900 + 1900 + ((date.month.toNat : Int) - 1) / 12)
      (((date.month.toNat : Int) - 1) % 12 + 1) date.day.toNat date.hour.toNat date.minutes.toNat
      date.seconds.toNat = date.seconds1970 := by
    rw [year, month]
    rfl
  unfold Zone.mktime standardTime brokenDown shown instant
  dsimp only
  rw [set]

theorem mktime_iff :
    { (Zone.mktime zone (date.standardTime date.year.toNat)).1 with
        tmYear := (date.year.toNat : Int) } = date.brokenDown ↔
      IsDate date.year.toNat date.month.toNat date.day.toNat ∧
        zone.summer (date.instant zone) = 0 := by
  rw [← shows_iff date.isTime (zone.summer_gt _) (zone.summer_lt (date.instant zone)),
    mktime_standardTime]
  change _ ↔ Shows (date.shown zone) _ _ _ _ _
  simp only [brokenDown, Shows, StructTm.mk.injEq, and_true, Prod.ext_iff]
  constructor
  · intro same
    obtain ⟨second, minute, hour, day, month⟩ := same
    exact ⟨⟨by omega, day⟩, hour, minute, second⟩
  · intro shown
    obtain ⟨⟨month, day⟩, hour, minute, second⟩ := shown
    exact ⟨second, minute, hour, day, by omega⟩

end DateAndTime

end Decoded

section Copies

theorem copyAttribute_copied {allocated : Bool} {given old : Option Octets}
    (copied : (copyAttribute allocated given old).2 = true) :
    (copyAttribute allocated given old).1 = (given.map cString).or old := by
  cases given with
  | none => rfl
  | some octets =>
    cases allocated with
    | true => rfl
    | false => cases copied

theorem modifyRecord_copies {event : Event} {pstJSMod : StJobMaster}
    (copied : (jsModifyRecord event pstJSMod).2 = true) :
    (jsModifyRecord event pstJSMod).1 =
      { pstJSMod with
        pcJobMasId := (event.job.pcJobMasId.map cString).or pstJSMod.pcJobMasId
        pcJobMasName := (event.job.pcJobMasName.map cString).or pstJSMod.pcJobMasName
        pcJobMasStartTime :=
          (event.job.pcJobMasStartTime.map cString).or pstJSMod.pcJobMasStartTime
        pcJobMasFinishTime :=
          (event.job.pcJobMasFinishTime.map cString).or pstJSMod.pcJobMasFinishTime } := by
  unfold jsModifyRecord at copied ⊢
  dsimp only at copied ⊢
  split at copied
  · cases copied
  rename_i id
  split at copied
  · cases copied
  rename_i name
  split at copied
  · cases copied
  rename_i startTime
  simp only [Bool.not_eq_true', Bool.not_eq_false] at id name startTime
  simp only [id, name, startTime, Bool.not_true, Bool.false_eq_true, if_false]
  rw [copyAttribute_copied id, copyAttribute_copied name, copyAttribute_copied startTime,
    copyAttribute_copied copied]

theorem fillTimeStruct_cString (zone : TimeZone) (octets : Octets) :
    jsFillTimeStruct zone (cString octets) = jsFillTimeStruct zone octets := by
  unfold jsFillTimeStruct
  rw [cString_cString]

end Copies

section Law

variable {date : DateAndTime} {zone : Zone}

theorem DateAndTime.delivered :
    jsFillStruct true none date.octets = (some date.octets, .nascSuccess) := by
  have length := date.octets_length
  exact fillStruct_short none (List.cons_ne_nil _ _) (by omega)

theorem toInt8_eq_iff (octet : UInt8) : octet.toInt8.toInt = octet.toNat ↔ octet.toNat < 128 := by
  change octet.toBitVec.toInt = octet.toBitVec.toNat ↔ octet.toBitVec.toNat < 128
  rw [BitVec.toInt_eq_toNat_cond]
  split_ifs <;> omega

theorem converted_iff :
    (∀ bufSize ∈ bufSizes, utilBrokenDown bufSize date.octets =
      some { date.brokenDown with tmYear := date.year.toNat - 1900 }) ↔
      date.Whole ∧ date.year.toNat < 32768 := by
  have year := date.year_octets
  have low_lt := date.low.toNat_lt
  constructor
  · intro converted
    have fields := converted 256 (by decide)
    unfold utilBrokenDown at fields
    dsimp only at fields
    split at fields
    · cases fields
    simp only [Option.some.injEq, StructTm.mk.injEq, DateAndTime.brokenDown] at fields
    obtain ⟨seconds, minutes, hour, day, month, years⟩ := fields
    -- a zero octet hides those behind it
    have behind : ∀ (index : Nat), date.octets[index]? = some 0 → ∀ later > index,
        (cString date.octets)[later]?.getD 0 = 0 :=
      fun index zero later behind => cString_behind zero behind
    have month_ge := date.month_ge
    have whole : date.Whole := by
      constructor
      · intro zero
        rw [behind 0 (by rw [← zero]; rfl) 2 (by decide)] at month
        simp at month
        omega
      · intro zero
        rw [behind 1 (by rw [← zero]; rfl) 2 (by decide)] at month
        simp at month
        omega
      · intro zero
        rw [behind 4 (by rw [← zero]; rfl) 5 (by decide)] at minutes
        apply UInt8.toNat_inj.mp
        exact_mod_cast minutes.symm
      · intro zero
        rw [behind 5 (by rw [← zero]; rfl) 6 (by decide)] at seconds
        apply UInt8.toNat_inj.mp
        exact_mod_cast seconds.symm
    rw [whole.seen 0 (by decide), whole.seen 1 (by decide)] at years
    have signed : date.high.toInt8.toInt * 256 + date.low.toNat - 1900 =
      date.year.toNat - 1900 := years
    have positive := (toInt8_eq_iff date.high).mp (by omega)
    exact ⟨whole, by omega⟩
  · intro right bufSize member
    obtain ⟨whole, positive⟩ := right
    have size : 11 < bufSize := by
      simp only [bufSizes, List.mem_cons, List.not_mem_nil, or_false] at member
      omega
    have unsigned := (toInt8_eq_iff date.high).mpr (by omega)
    rw [whole.utilBrokenDown size, unsigned, year]
    rfl

/-- A value arrives exactly when none of its octets is cut off, its year has no sign bit, its date
exists and no summer time is in force. -/
theorem decodesDate_iff (zone : Zone) (date : DateAndTime) :
    DecodesDate zone date ↔
      date.Whole ∧ date.year.toNat < 32768 ∧
        IsDate date.year.toNat date.month.toNat date.day.toNat ∧
        zone.summer (date.instant zone) = 0 := by
  constructor
  · intro decodes
    obtain ⟨whole, positive⟩ := converted_iff.mp decodes.converted
    obtain ⟨octets, iTime, filled, decoded⟩ := decodes.decoded
    rw [date.delivered] at filled
    cases filled
    rw [whole.fillTimeStruct] at decoded
    exact ⟨whole, positive, DateAndTime.mktime_iff.mp (congrArg Prod.fst (Option.some.inj decoded))⟩
  · intro right
    obtain ⟨whole, positive, shown⟩ := right
    constructor
    · have decoded : jsFillTimeStruct (Zone.timeZone zone) date.octets = _ := whole.fillTimeStruct
      rw [DateAndTime.mktime_iff.mpr shown] at decoded
      exact ⟨date.octets, _, date.delivered, decoded⟩
    · intro event pstJSMod copied
      rw [modifyRecord_copies copied]
      constructor
      · intro carried
        refine ⟨cString date.octets, ?_, fillTimeStruct_cString _ _⟩
        simp only [carried, Option.map_some, Option.some_or]
      · intro carried
        refine ⟨cString date.octets, ?_, fillTimeStruct_cString _ _⟩
        simp only [carried, Option.map_some, Option.some_or]
    · exact converted_iff.mpr ⟨whole, positive⟩

def halfPastMidnight : DateAndTime :=
  { year := 2004
    month := 1
    day := 1
    hour := 0
    minutes := 30
    seconds := 0
    rest := [0]
    month_ge := by decide
    month_le := by decide
    day_ge := by decide
    day_le := by decide
    hour_lt := by decide
    minutes_lt := by decide
    seconds_lt := by decide
    rest_length := by decide }

theorem halfPastMidnight_cut :
    jsFillTimeStruct (Zone.timeZone universal) halfPastMidnight.octets =
      some ({ halfPastMidnight.brokenDown with tmMin := 0 }, 1072915200) ∧
    ¬ DecodesDate universal halfPastMidnight := by
  have cut : jsFillTimeStruct (Zone.timeZone universal) halfPastMidnight.octets =
      some ({ halfPastMidnight.brokenDown with tmMin := 0 }, 1072915200) := by decide +kernel
  constructor
  · exact cut
  · intro decodes
    obtain ⟨octets, iTime, filled, decoded⟩ := decodes.decoded
    rw [DateAndTime.delivered] at filled
    cases filled
    rw [cut] at decoded
    have minutes : (0 : Int) = 30 :=
      congrArg (fun result => StructTm.tmMin (Prod.fst result)) (Option.some.inj decoded)
    exact absurd minutes (by decide)

end Law

end EveAgent.JobSched
