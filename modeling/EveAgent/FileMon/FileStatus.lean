import EveAgent.Overlay
import EveAgent.JobSched.DateTimes

namespace EveAgent.FileMon

open JobSched (Octets StructTm cString cString_cons cString_zero)

section Dates

/-- How the platforms differ in the offset from universal time. -/
inductive Platform where
  | cygwin
  | tmGmtoff
  | globalTimezone
  | sysv
  deriving DecidableEq, Repr

/-- What `localtime` yields; `timezone` is `tm_gmtoff` or the global variable. -/
structure LocalTime extends StructTm where
  tmIsdst : Int
  timezone : Int

def nullTime (time : Int) : Bool := time == 0 || time == -1

def clockOctets (tm : LocalTime) : Octets :=
  [UInt8.ofInt ((tm.tmYear + 1900) / 256), UInt8.ofInt (tm.tmYear + 1900),
    UInt8.ofInt (tm.tmMon + 1), UInt8.ofInt tm.tmMday, UInt8.ofInt tm.tmHour,
    UInt8.ofInt tm.tmMin, UInt8.ofInt tm.tmSec, 0]

/-- The octets of the offset as `date_n_time_buf` sets them. -/
def timezoneOctets (platform : Platform) (tm : LocalTime) : Octets :=
  let sign : UInt8 := if tm.timezone > 0 then 45 else 43
  let hours := UInt8.ofInt (tm.timezone.natAbs / 3600)
  let minutes := UInt8.ofInt ((tm.timezone.natAbs - hours.toNat * 3600) / 60)
  match platform with
  | .cygwin => []
  | .tmGmtoff | .globalTimezone => [sign, hours, minutes]
  | .sysv =>
    if tm.tmIsdst > 0 then
      let hours := if sign = 45 then hours - 1 else hours + 1
      [if hours = 0 then 43 else sign, hours, minutes]
    else [sign, hours, minutes]

def dateNTimeBuf (platform : Platform) (localtime : Int → LocalTime) (time : Int) (buf : Octets) :
    Octets × Nat :=
  if nullTime time then (overlay buf [0, 0, 1, 1, 0, 0, 0, 0], 8)
  else
    let tm := localtime time
    let octets := clockOctets tm ++ timezoneOctets platform tm
    (overlay buf octets, octets.length)

/-- The seconds that the local time is ahead of universal time. -/
def ahead (platform : Platform) (tm : LocalTime) : Int :=
  match platform with
  | .tmGmtoff => tm.timezone
  | _ => if tm.tmIsdst > 0 then 3600 - tm.timezone else -tm.timezone

/-- The DateAndTime of a time: the direction from universal time is `+` where the local time is
ahead. The time 0 has the null date of the MIB. -/
def dateAndTime (platform : Platform) (localtime : Int → LocalTime) (time : Int) : Octets :=
  if nullTime time then [0, 0, 1, 1, 0, 0, 0, 0]
  else
    let tm := localtime time
    let offset := ahead platform tm
    let direction := [if offset < 0 then 45 else 43, UInt8.ofInt (offset.natAbs / 3600),
      UInt8.ofInt (offset.natAbs / 60 % 60)]
    clockOctets tm ++ if platform = .cygwin then [] else direction

end Dates

section Thread

def rowActive : Int := 1

def maxDateTimeLen : Nat := 20

structure FileRow where
  fileMonitorName : Octets
  fileMonitorCheckInterval : Int
  fileMonitorModifiedDateTime : Octets
  fileMonitorModifiedDateTimeLen : Nat
  fileMonitorFileSize : Int
  fileMonitorReaction : Int
  fileMonitorReactionPath : Octets
  fileMonitorStatus : Int

structure Stat where
  stMtime : Int
  stSize : Int

/-- `strcpy`: the octets to the first zero, and a zero. -/
def strcpy (target source : Octets) : Octets := overlay target (cString source ++ [0])

def strncmpDiffers (s1 s2 : Octets) (n : Nat) : Bool := cString (s1.take n) != cString (s2.take n)

def FileRow.watched (fileRow : FileRow) : Bool :=
  fileRow.fileMonitorStatus == rowActive &&
    !((cString fileRow.fileMonitorName).isEmpty || fileRow.fileMonitorCheckInterval == 0) &&
    !((fileRow.fileMonitorReaction == 2 || fileRow.fileMonitorReaction == 3) &&
      (cString fileRow.fileMonitorReactionPath).isEmpty)

variable (platform : Platform) (localtime : Int → LocalTime)

/-- One pass of the loop of `FileStatusCheckThread`, where `stat` fails or yields this; and
whether an alert is sent. -/
def fileStatusCheck (fileRow : FileRow) (stbuf : Option Stat) : FileRow × Bool :=
  if fileRow.watched then
    match stbuf with
    | none => (fileRow, false)
    | some stbuf =>
      let (dateBuf, length) :=
        dateNTimeBuf platform localtime stbuf.stMtime (List.replicate 20 0)
      let fileRow := { fileRow with
        fileMonitorFileSize := stbuf.stSize
        fileMonitorModifiedDateTimeLen := length }
      let tmpdate := strcpy (List.replicate (maxDateTimeLen + 1) 0) dateBuf
      if strncmpDiffers fileRow.fileMonitorModifiedDateTime tmpdate maxDateTimeLen then
        ({ fileRow with
            fileMonitorModifiedDateTime :=
              strcpy fileRow.fileMonitorModifiedDateTime dateBuf }, true)
      else (fileRow, false)
  else (fileRow, false)

def polled (fileRow : FileRow) (polls : List (Option Stat)) : FileRow :=
  polls.foldl (fun fileRow stbuf => (fileStatusCheck platform localtime fileRow stbuf).1) fileRow

/-- The modification time that the last successful poll has seen. -/
def lastSeen (polls : List (Option Stat)) : Option Int :=
  (polls.filterMap id).getLast?.map Stat.stMtime

def FileRow.value (fileRow : FileRow) : Octets :=
  fileRow.fileMonitorModifiedDateTime.take fileRow.fileMonitorModifiedDateTimeLen

/-- An alert is sent where the time is another one, and the row has the DateAndTime then. -/
def Noticed (previous : Int) (stbuf : Stat) (behind : FileRow × Bool) : Prop :=
  (behind.2 = true ↔ stbuf.stMtime ≠ previous) ∧
    (stbuf.stMtime ≠ previous →
      behind.1.value = dateAndTime platform localtime stbuf.stMtime ∧
        behind.1.fileMonitorModifiedDateTimeLen =
          (dateAndTime platform localtime stbuf.stMtime).length)

/-- Another time differs up to the first zero octet of its DateAndTime, and the octets behind
that zero are those of the row already. -/
def Noticeable (previous : Int) (stbuf : Stat) (before : FileRow) : Prop :=
  let date := dateAndTime platform localtime stbuf.stMtime
  let copied := (cString date).length + 1
  stbuf.stMtime ≠ previous →
    cString date ≠ cString (dateAndTime platform localtime previous) ∧
      (before.fileMonitorModifiedDateTime.take date.length).drop copied = date.drop copied

end Thread

section Strings

theorem cString_append_of_mem {front : Octets} (zero : 0 ∈ front) (rest : Octets) :
    cString (front ++ rest) = cString front := by
  induction front with
  | nil => exact absurd zero List.not_mem_nil
  | cons octet front ih =>
    by_cases first : octet = 0
    · rw [first, List.cons_append, cString_zero, cString_zero]
    · have later := (List.mem_cons.mp zero).resolve_left fun same => first same.symm
      rw [List.cons_append, cString_cons first, cString_cons first, ih later]

theorem cString_terminated (octets : Octets) (rest : Octets) :
    cString (cString octets ++ 0 :: rest) = cString octets := by
  induction octets with
  | nil => exact cString_zero rest
  | cons octet octets ih =>
    by_cases first : octet = 0
    · rw [first, cString_zero]
      exact cString_zero rest
    · rw [cString_cons first, List.cons_append, cString_cons first, ih]

theorem cString_before {octets : Octets} (zero : 0 ∈ octets) :
    octets = cString octets ++ 0 :: octets.drop ((cString octets).length + 1) := by
  induction octets with
  | nil => exact absurd zero List.not_mem_nil
  | cons octet octets ih =>
    by_cases first : octet = 0
    · rw [first, cString_zero]
      rfl
    · have later := (List.mem_cons.mp zero).resolve_left fun same => first same.symm
      rw [cString_cons first]
      exact congrArg (octet :: ·) (ih later)

theorem cString_length_le {octets : Octets} {index : Nat} (zero : octets[index]? = some 0) :
    (cString octets).length ≤ index := by
  by_contra longer
  have inside : index < (cString octets).length := not_le.mp longer
  have here : (cString octets)[index]? = some 0 := by
    rw [cString_before (List.mem_of_getElem? zero), List.getElem?_append_left inside] at zero
    exact zero
  have nonzero := List.mem_takeWhile_imp (List.mem_of_getElem? here)
  exact absurd nonzero (by decide)

theorem cString_take_strcpy (target : Octets) {source : Octets} {n : Nat}
    (short : (cString source).length < n) :
    cString ((strcpy target source).take n) = cString source := by
  obtain ⟨more, rfl⟩ := Nat.exists_eq_add_of_lt short
  rw [strcpy, overlay, List.append_assoc, List.singleton_append, List.take_append,
    List.take_of_length_le (by omega), Nat.add_assoc, Nat.add_sub_cancel_left, List.take_succ_cons]
  exact cString_terminated source _

theorem strcpy_whole_iff {source : Octets} (zero : 0 ∈ source) (target : Octets) :
    (overlay target (cString source ++ [0])).take source.length = source ↔
      (target.take source.length).drop ((cString source).length + 1) =
        source.drop ((cString source).length + 1) := by
  have split := cString_before zero
  have size : source.length = (cString source).length + 1 +
      (source.length - ((cString source).length + 1)) := by
    have counted := congrArg List.length split
    rw [List.length_append, List.length_cons] at counted
    omega
  have written : (overlay target (cString source ++ [0])).take source.length =
      (cString source ++ [0]) ++
        (target.take source.length).drop ((cString source).length + 1) := by
    rw [overlay, List.take_append, List.length_append, List.length_singleton,
      List.take_of_length_le (by rw [List.length_append, List.length_singleton]; omega),
      List.drop_take]
  rw [written]
  conv_lhs => rhs; rw [split]
  rw [List.append_assoc, List.singleton_append, List.append_cancel_left_eq, List.cons_inj_right]

end Strings

section Octets

variable (platform : Platform) (localtime : Int → LocalTime) (time : Int)

theorem dateNTimeBuf_text :
    cString (dateNTimeBuf platform localtime time (List.replicate 20 0)).1 =
      cString (dateAndTime platform localtime time) := by
  rw [dateNTimeBuf, dateAndTime]
  by_cases null : nullTime time = true
  · rw [if_pos null, if_pos null]
    rfl
  · have zero : 0 ∈ clockOctets (localtime time) := by simp [clockOctets]
    rw [if_neg null, if_neg null]
    show cString (clockOctets (localtime time) ++ _ ++ _) =
      cString (clockOctets (localtime time) ++ _)
    rw [List.append_assoc, cString_append_of_mem zero, cString_append_of_mem zero]

theorem dateNTimeBuf_length (buf : Octets) :
    (dateNTimeBuf platform localtime time buf).2 =
      (dateAndTime platform localtime time).length := by
  rw [dateNTimeBuf, dateAndTime]
  by_cases null : nullTime time = true
  · rw [if_pos null, if_pos null]
    rfl
  · rw [if_neg null, if_neg null]
    show (clockOctets _ ++ timezoneOctets platform _).length = _
    rw [List.length_append, List.length_append]
    congr 1
    cases platform
    · rfl
    · rfl
    · rfl
    · rw [timezoneOctets]
      split <;> rfl

theorem dateAndTime_zero : 0 ∈ dateAndTime platform localtime time := by
  rw [dateAndTime]
  split
  · exact List.mem_cons_self
  · exact List.mem_append_left _ (by simp [clockOctets])

theorem dateAndTime_text_length : (cString (dateAndTime platform localtime time)).length ≤ 7 := by
  apply cString_length_le
  rw [dateAndTime]
  split
  · rfl
  · rfl

end Octets

section Polls

variable {platform : Platform} {localtime : Int → LocalTime} {fileRow : FileRow}

/-- The row shows the time up to the first zero octet. -/
def Shows (platform : Platform) (localtime : Int → LocalTime) (fileRow : FileRow) (time : Int) :
    Prop :=
  cString (fileRow.fileMonitorModifiedDateTime.take maxDateTimeLen) =
    cString (dateAndTime platform localtime time)

theorem fileStatusCheck_found (watched : fileRow.watched = true) (stbuf : Stat) :
    let behind := fileStatusCheck platform localtime fileRow (some stbuf)
    let date := dateAndTime platform localtime stbuf.stMtime
    (behind.2 = true ↔ ¬ Shows platform localtime fileRow stbuf.stMtime) ∧
      behind.1.fileMonitorModifiedDateTimeLen = date.length ∧
      (¬ Shows platform localtime fileRow stbuf.stMtime →
        behind.1.fileMonitorModifiedDateTime =
          overlay fileRow.fileMonitorModifiedDateTime (cString date ++ [0])) ∧
      Shows platform localtime behind.1 stbuf.stMtime ∧ behind.1.watched = true := by
  have text := dateNTimeBuf_text platform localtime stbuf.stMtime
  have length := dateNTimeBuf_length platform localtime stbuf.stMtime (List.replicate 20 0)
  have short := dateAndTime_text_length platform localtime stbuf.stMtime
  have compared : strncmpDiffers fileRow.fileMonitorModifiedDateTime
      (strcpy (List.replicate (maxDateTimeLen + 1) 0)
        (dateNTimeBuf platform localtime stbuf.stMtime (List.replicate 20 0)).1) maxDateTimeLen =
      true ↔ ¬ Shows platform localtime fileRow stbuf.stMtime := by
    rw [strncmpDiffers, cString_take_strcpy _ (by rw [text, maxDateTimeLen]; omega), text,
      bne_iff_ne]
    rfl
  simp only [fileStatusCheck, if_pos watched]
  by_cases shows : Shows platform localtime fileRow stbuf.stMtime
  · have same := mt compared.mp (not_not.mpr shows)
    rw [if_neg same]
    exact ⟨⟨nofun, fun other => absurd shows other⟩, length, fun other => absurd shows other, shows,
      watched⟩
  · rw [if_pos (compared.mpr shows)]
    refine ⟨⟨fun _ => shows, fun _ => rfl⟩, length, fun _ => ?_, ?_, watched⟩
    · rw [← text]
      rfl
    · show cString ((strcpy _ _).take maxDateTimeLen) = _
      rw [cString_take_strcpy _ (by rw [text, maxDateTimeLen]; omega), text]

theorem polled_concat (polls : List (Option Stat)) (stbuf : Option Stat) :
    polled platform localtime fileRow (polls ++ [stbuf]) =
      (fileStatusCheck platform localtime (polled platform localtime fileRow polls) stbuf).1 := by
  rw [polled, List.foldl_append]
  rfl

theorem polled_shows (watched : fileRow.watched = true) (polls : List (Option Stat)) :
    (polled platform localtime fileRow polls).watched = true ∧
      ∀ time, lastSeen polls = some time →
        Shows platform localtime (polled platform localtime fileRow polls) time := by
  induction polls using List.reverseRecOn with
  | nil => exact ⟨watched, nofun⟩
  | append_singleton polls stbuf ih =>
    obtain ⟨still, shows⟩ := ih
    rw [polled_concat]
    cases stbuf with
    | none =>
      have kept : fileStatusCheck platform localtime
          (polled platform localtime fileRow polls) none =
            (polled platform localtime fileRow polls, false) := by
        rw [fileStatusCheck, if_pos still]
      have seen : lastSeen (polls ++ [none]) = lastSeen polls := by
        simp [lastSeen]
      rw [kept, seen]
      exact ⟨still, shows⟩
    | some stbuf =>
      have seen : lastSeen (polls ++ [some stbuf]) = some stbuf.stMtime := by
        simp [lastSeen]
      obtain ⟨-, -, -, now, watched⟩ := fileStatusCheck_found still stbuf
      rw [seen]
      refine ⟨watched, fun time same => ?_⟩
      exact Option.some.inj same ▸ now

/-- For every sequence of polls of a row that is watched, with at least one successful poll: a
further modification time is noticed exactly when it is noticeable. -/
theorem noticed_iff (platform : Platform) (localtime : Int → LocalTime) (fileRow : FileRow)
    (watched : fileRow.watched = true) (polls : List (Option Stat)) (previous : Int)
    (seen : lastSeen polls = some previous) (stbuf : Stat) :
    Noticed platform localtime previous stbuf
        (fileStatusCheck platform localtime (polled platform localtime fileRow polls)
          (some stbuf)) ↔
      Noticeable platform localtime previous stbuf (polled platform localtime fileRow polls) := by
  obtain ⟨still, shows⟩ := @polled_shows platform localtime fileRow watched polls
  have before := shows previous seen
  obtain ⟨alert, length, copied, -, -⟩ := fileStatusCheck_found still stbuf
  by_cases same : stbuf.stMtime = previous
  · have silent := alert.trans (not_congr (iff_of_true (same ▸ before) trivial))
    refine iff_of_true ⟨?_, fun other => absurd same other⟩ fun other => absurd same other
    exact silent.trans (iff_of_false (not_not.mpr trivial) (not_not.mpr same))
  · have differs : ¬ Shows platform localtime (polled platform localtime fileRow polls)
        stbuf.stMtime ↔
          cString (dateAndTime platform localtime stbuf.stMtime) ≠
            cString (dateAndTime platform localtime previous) := by
      rw [Shows, before]
      exact ne_comm
    have whole := strcpy_whole_iff (dateAndTime_zero platform localtime stbuf.stMtime)
      (polled platform localtime fileRow polls).fileMonitorModifiedDateTime
    constructor
    · rintro ⟨alerted, value⟩ other
      have sent := alert.mp (alerted.mpr other)
      have read := (value other).1
      rw [FileRow.value, length, copied sent] at read
      exact ⟨differs.mp sent, whole.mp read⟩
    · intro noticeable
      obtain ⟨text, rest⟩ := noticeable same
      have sent := differs.mpr text
      refine ⟨iff_of_true (alert.mpr sent) same, fun _ => ⟨?_, length⟩⟩
      rw [FileRow.value, length, copied sent]
      exact whole.mpr rest

def gmtime (time : Int) : LocalTime :=
  let (year, month, day) := CivilTime.dateOf (time / 86400)
  { tmSec := time % 60
    tmMin := time / 60 % 60
    tmHour := time / 3600 % 24
    tmMday := day
    tmMon := month - 1
    tmYear := year - 1900
    tmIsdst := 0
    timezone := 0 }

/-- A new row for the file `a`, looked at each second. -/
def newFileRow : FileRow :=
  { fileMonitorName := [97]
    fileMonitorCheckInterval := 1
    fileMonitorModifiedDateTime := List.replicate 20 0
    fileMonitorModifiedDateTimeLen := 0
    fileMonitorFileSize := 0
    fileMonitorReaction := 1
    fileMonitorReactionPath := []
    fileMonitorStatus := rowActive }

/-- A second after 2024-01-01 05:06:07 where no offset is kept. -/
theorem noticed_second :
    Noticed .cygwin gmtime 1704085567 ⟨1704085568, 0⟩
      (fileStatusCheck .cygwin gmtime
        (polled .cygwin gmtime newFileRow [some ⟨1704085567, 0⟩]) (some ⟨1704085568, 0⟩)) :=
  (noticed_iff .cygwin gmtime newFileRow (by decide) [some ⟨1704085567, 0⟩] 1704085567 rfl
    ⟨1704085568, 0⟩).mpr fun _ => ⟨by decide, by decide⟩

/-- A second after 2024-01-01 00:00:01 no alert is sent: the hour is a zero octet. -/
theorem midnight_unnoticed :
    ¬ ∀ (platform : Platform) (localtime : Int → LocalTime) (fileRow : FileRow),
      fileRow.watched = true → ∀ (polls : List (Option Stat)) (previous : Int),
        lastSeen polls = some previous → ∀ stbuf : Stat,
          Noticed platform localtime previous stbuf
            (fileStatusCheck platform localtime (polled platform localtime fileRow polls)
              (some stbuf)) := by
  intro noticed
  have alert := (noticed .tmGmtoff gmtime newFileRow (by decide) [some ⟨1704067201, 0⟩] 1704067201
    rfl ⟨1704067202, 0⟩).1.mpr (by decide)
  revert alert
  decide

end Polls

end EveAgent.FileMon
