import EveAgent.LogMon.ExaminedLines
import EveAgent.Machine
import EveAgent.ScratchBuffer

namespace EveAgent.LogMon

open ScratchBuffer

section Source

def maxFormatLen : Nat := 100

/-- The width of the numbers of a row, on the systems whose words have 64 bits. -/
def sizeofLong : Nat := 8

structure LogColRow where
  logMonColumnCol : Fin 5 → Nat
  logMonColumnColFilter : Fin 5 → Text
  logMonColumnReadLine : Int
  logMonColumnFileSize : Int
  integer : ∀ i, logMonColumnCol i < 2 ^ 31

def LogColRow.cols (row : LogColRow) : List Nat := List.ofFn row.logMonColumnCol

def LogColRow.filters (row : LogColRow) : List Text := List.ofFn row.logMonColumnColFilter

def used (cols : List Nat) : List Nat := cols.filter (· ≠ 0)

def acFormat (cols : List Nat) : Text :=
  (used cols).flatMap fun col => '%' :: Nat.toDigits 10 col ++ ['c']

/-- `sscanf` with a format of such conversions: one that finds nothing ends it. -/
def sscanf : List Nat → Text → List Text → Option (List Text)
  | [], _, buffers => some buffers
  | _ :: _, [], buffers => some buffers
  | _ :: _, _ :: _, [] => none
  | col :: cols, line, buffer :: buffers =>
    (store buffer (line.take col)).bind fun buffer =>
      (sscanf cols (line.drop col) buffers).map (buffer :: ·)

/-- The scanned fields are copied, each to the next column that is used. -/
def copyFields : List Nat → List Text → List Text → Option (List Text)
  | [], _, fields => some fields
  | _ :: _, _, [] => none
  | 0 :: cols, tmp, field :: fields => (copyFields cols tmp fields).map (field :: ·)
  | _ :: _, [], _ :: _ => none
  | _ :: cols, source :: tmp, field :: fields =>
    (strcpy '\x00' field source).bind fun field => (copyFields cols tmp fields).map (field :: ·)

/-- A line of the report file, for which an alert is sent. -/
structure ColReport where
  iLineCount : Int
  filter : Text
  line : Text
  deriving DecidableEq, Repr

/-- The loop, with what was matched with the filters for each line so far. -/
structure ColScan where
  iLineCount : Int
  acFilterField : List Text
  acTmpFilterField : List Text
  matched : List (List Text)
  reports : List ColReport
  deriving DecidableEq, Repr

variable (commonCheckPattern : Text → Text → Bool)

/-- The first filter that is not empty and matches its field. -/
def matchingFilter (filters fields : List Text) : Option Text :=
  ((fields.zip filters).find? fun (field, filter) =>
    commonCheckPattern field filter && filter ≠ []).map Prod.snd

def ColScan.step (row : LogColRow) (scan : ColScan) (acReadBuffer : Text) : Option ColScan := do
  let iLineCount := scan.iLineCount + 1
  if maxFormatLen ≤ (acFormat row.cols).length then none
  else
    let tmp ← sscanf (used row.cols) acReadBuffer scan.acTmpFilterField
    let _ ← tmp.mapM (readString '\x00')
    let fields ← copyFields row.cols tmp scan.acFilterField
    let strings ← fields.mapM (readString '\x00')
    let fields ← fields.mapM (memset · '\x00' sizeofLong)
    let tmp ← tmp.mapM (memset · '\x00' sizeofLong)
    some
      { iLineCount := iLineCount
        acFilterField := fields
        acTmpFilterField := tmp
        matched := scan.matched ++ [strings]
        reports := scan.reports ++
          (matchingFilter commonCheckPattern row.filters strings).toList.map
          fun filter => ⟨iLineCount, filter, acReadBuffer⟩ }

/-- `calloc` for each column. -/
def blankFields (cols : List Nat) : List Text :=
  cols.map fun col => List.replicate (col + 1) '\x00'

def scanStart (row : LogColRow) : ColScan where
  iLineCount := row.logMonColumnReadLine
  acFilterField := blankFields row.cols
  acTmpFilterField := blankFields row.cols
  matched := []
  reports := []

def getLineCount : Option Text → Int
  | none => -1
  | some content => (readLines lineMaxLen content.length content).length

/-- The row is only set behind the lines that are there. -/
def LogColRow.restarts (row : LogColRow) (size : Nat) : Bool :=
  row.logMonColumnFileSize > size || row.logMonColumnReadLine = 0

/-- The lines that are read behind those that were read before, as they stand in the buffer. -/
def LogColRow.linesRead (row : LogColRow) (content : Text) : List Text :=
  ((readLines lineMaxLen content.length content).drop row.logMonColumnReadLine.toNat).map cString

/-- `LogMonCol_SearchPatterns` with the size that `stat` gives and the file when it opens. -/
def colSearchPatterns (row : LogColRow) (stat : Option Nat) (file : Option Text) :
    Option (Int × LogColRow × ColScan) :=
  match stat with
  | none => some (-1, row, scanStart row)
  | some size =>
    if row.restarts size then
      some (0, { row with
        logMonColumnReadLine := getLineCount file
        logMonColumnFileSize := size }, scanStart row)
    else
      match file with
      | none => some (-1, row, scanStart row)
      | some content =>
        (Machine.run (ColScan.step commonCheckPattern row) (scanStart row)
          (row.linesRead content)).map fun scan =>
            (0, { row with
              logMonColumnReadLine := scan.iLineCount
              logMonColumnFileSize := size }, scan)

end Source

section Property

variable (commonCheckPattern : Text → Text → Bool)

def linesOfCall (row : LogColRow) (stat : Option Nat) (file : Option Text) : List Text :=
  match stat, file with
  | some size, some content => if row.restarts size then [] else row.linesRead content
  | _, _ => []

def windows : List Nat → Text → List Text
  | [], _ => []
  | col :: cols, line => line.take col :: windows cols (line.drop col)

/-- The columns of a line are matched by a filter. -/
def Reported (row : LogColRow) (line : Text) : Bool :=
  ((windows row.cols line).zip row.filters).any fun (window, filter) =>
    commonCheckPattern window filter && filter ≠ []

/-- Each filter is matched with the window of its column, and the lines with a match are reported
with their numbers. -/
structure ColumnsSeen (row : LogColRow) (lines : List Text) (scan : ColScan) : Prop where
  matched : scan.matched = lines.map (windows row.cols)
  reports : scan.reports.map (fun report => (report.line, report.iLineCount)) =
    (numberedFrom row.logMonColumnReadLine.toNat lines).filter fun line =>
      Reported commonCheckPattern row line.1

/-- No window ends behind the part of its buffer that is cleared, and in front of the end that an
earlier line had there. -/
def Overwrites (cols : List Nat) (earlier line : Text) : Prop :=
  List.Forall₂ (fun before window : Text =>
    window.length < sizeofLong ∨ before.length ≤ window.length)
    (windows cols earlier) (windows cols line)

/-- All buffers have room for the clearing, no line shows the rest of an earlier one, and the
lines are counted from a number that was found. -/
def ColumnsClean (row : LogColRow) (lines : List Text) : Prop :=
  (∀ i, sizeofLong ≤ row.logMonColumnCol i + 1) ∧ lines.Pairwise (Overwrites row.cols) ∧
    (0 ≤ row.logMonColumnReadLine ∨ ∀ line ∈ lines, Reported commonCheckPattern row line = false)

end Property

section Buffers

variable {cols : List Nat} {line : Text} {before lines : List Text} {fields tmp : List Text}

/-- Buffers with room for the columns and the ends of their strings. -/
abbrev Sized (cols : List Nat) (buffers : List Text) : Prop :=
  List.Forall₂ (fun col buffer => buffer.length = col + 1) cols buffers

abbrev Ended (cols : List Nat) (buffers : List Text) : Prop :=
  List.Forall₂ (fun col buffer => buffer.length = col + 1 ∧ buffer[col]? = some '\x00') cols buffers

def stringOf (buffer : Text) : Text := buffer.takeWhile (· ≠ '\x00')

def clearFront (buffer : Text) : Text := overlay buffer (List.replicate sizeofLong '\x00')

/-- The buffers of the scan behind these lines. -/
def tmpAfter : List Nat → List Text → List Text
  | [], _ => []
  | col :: cols, before =>
    reused '\x00' sizeofLong (col + 1) (before.map (List.take col)) ::
      tmpAfter cols (before.map (List.drop col))

/-- What is matched with the filters for a line behind others. -/
def shown (cols : List Nat) (before : List Text) (line : Text) : List Text :=
  (List.zipWith overlay (tmpAfter cols before) (windows cols line)).map stringOf

theorem sscanf_nil (cols : List Nat) (buffers : List Text) :
    sscanf cols [] buffers = some buffers := by
  cases cols <;> rfl

theorem sscanf_windows (sized : Sized cols tmp) :
    sscanf cols line tmp = some (List.zipWith overlay tmp (windows cols line)) := by
  induction sized generalizing line with
  | nil => rfl
  | @cons col buffer cols tmp size sized ih =>
    cases line with
    | nil =>
      have rest := @ih []
      rw [sscanf_nil, Option.some.injEq] at rest
      rw [sscanf_nil, windows, List.zipWith_cons_cons, List.take_nil, List.drop_nil, ← rest]
      rfl
    | cons c line =>
      have fits : ((c :: line).take col).length ≤ buffer.length := by
        rw [size]
        exact (List.length_take_le _ _).trans (Nat.le_succ _)
      simp only [sscanf, store_fits fits, Option.bind_some, ih, Option.map_some, windows,
        List.zipWith_cons_cons]

theorem stringOf_short {buffer : Text} {i : Nat} (there : buffer[i]? = some '\x00') :
    (stringOf buffer).length ≤ i := by
  by_contra long
  have inside : i < (stringOf buffer).length := Nat.lt_of_not_le long
  have front : stringOf buffer <+: buffer := List.takeWhile_prefix _
  have same := front.getElem inside
  have plain : (stringOf buffer)[i] ≠ '\x00' := by
    have holds := List.mem_takeWhile_imp (List.getElem_mem inside)
    simpa using holds
  obtain ⟨_, zero⟩ := List.getElem?_eq_some_iff.mp there
  exact plain (same.trans zero)

theorem readString_ended (ended : Ended cols tmp) :
    tmp.mapM (readString '\x00') = some (tmp.map stringOf) := by
  induction ended with
  | nil => rfl
  | @cons col buffer cols tmp holds ended ih =>
    have there : '\x00' ∈ buffer := List.mem_of_getElem? holds.2
    rw [List.mapM_cons, readString, if_pos there, ih]
    rfl

theorem clear_sized (room : ∀ col ∈ cols, sizeofLong ≤ col + 1) (sized : Sized cols fields) :
    fields.mapM (memset · '\x00' sizeofLong) = some (fields.map clearFront) ∧
      Sized cols (fields.map clearFront) := by
  induction sized with
  | nil => exact ⟨rfl, .nil⟩
  | @cons col field cols fields size sized ih =>
    obtain ⟨cleared, still⟩ := ih fun other member => room other (List.mem_cons_of_mem _ member)
    have fits : sizeofLong ≤ field.length := by
      rw [size]
      exact room col List.mem_cons_self
    constructor
    · rw [List.mapM_cons, memset_fits fits, cleared]
      rfl
    · refine .cons ?_ still
      rw [clearFront, overlay_length (by rwa [List.length_replicate]), size]

theorem clear_short (sized : Sized cols fields) (short : ∃ col ∈ cols, col + 1 < sizeofLong) :
    fields.mapM (memset · '\x00' sizeofLong) = none := by
  induction sized with
  | nil =>
    obtain ⟨col, member, -⟩ := short
    cases member
  | @cons first field cols fields size sized ih =>
    obtain ⟨col, member, short⟩ := short
    rw [List.mapM_cons]
    rcases List.mem_cons.mp member with rfl | member
    · rw [memset_short (by rwa [size])]
      rfl
    · rw [ih ⟨col, member, short⟩]
      cases memset field '\x00' sizeofLong <;> rfl

theorem copyFields_all (unused : ∀ col ∈ cols, col ≠ 0) (ended : Ended cols tmp)
    (sized : Sized cols fields) :
    ∃ copied, copyFields cols tmp fields = some copied ∧ Sized cols copied ∧
      copied.mapM (readString '\x00') = some (tmp.map stringOf) := by
  induction ended generalizing fields with
  | nil =>
    cases sized
    exact ⟨[], rfl, .nil, rfl⟩
  | @cons col source cols tmp holds ended ih =>
    cases sized with
    | @cons _ field _ fields size sized =>
      obtain ⟨copied, rest, still, strings⟩ :=
        ih (fun other member => unused other (List.mem_cons_of_mem _ member)) sized
      have there : '\x00' ∈ source := List.mem_of_getElem? holds.2
      have read : readString '\x00' source = some (stringOf source) := if_pos there
      have fits : (stringOf source).length < field.length := by
        rw [size]
        exact Nat.lt_succ_of_le (stringOf_short holds.2)
      obtain ⟨after, stored, string⟩ := strcpy_read read fits
      obtain ⟨n, rfl⟩ := Nat.exists_eq_succ_of_ne_zero (unused col List.mem_cons_self)
      refine ⟨after :: copied, ?_, .cons ?_ still, ?_⟩
      · simp only [copyFields, stored, rest, Option.bind_some, Option.map_some]
      · rw [strcpy_length stored, size]
      · rw [List.mapM_cons, string, strings]
        rfl

theorem copyFields_sized {sizes : List Nat} (sized : Sized sizes fields) {copied : List Text}
    (done : copyFields cols tmp fields = some copied) : Sized sizes copied := by
  induction sized generalizing cols tmp copied with
  | nil =>
    cases cols with
    | nil =>
      cases done
      exact .nil
    | cons => cases done
  | @cons size field sizes fields same sized ih =>
    match cols, tmp with
    | [], _ =>
      cases done
      exact .cons same sized
    | 0 :: cols, tmp =>
      obtain ⟨rest, copied, rfl⟩ := Option.map_eq_some_iff.mp done
      exact .cons same (ih copied)
    | (_ + 1) :: cols, [] => cases done
    | (_ + 1) :: cols, source :: tmp =>
      obtain ⟨after, stored, done⟩ := Option.bind_eq_some_iff.mp done
      obtain ⟨rest, copied, rfl⟩ := Option.map_eq_some_iff.mp done
      exact .cons ((strcpy_length stored).trans same) (ih copied)

theorem blankFields_sized (cols : List Nat) : Sized cols (blankFields cols) := by
  induction cols with
  | nil => exact .nil
  | cons col cols ih => exact .cons List.length_replicate ih

theorem tmpAfter_nil (cols : List Nat) : tmpAfter cols [] = blankFields cols := by
  induction cols with
  | nil => rfl
  | cons col cols ih =>
    rw [tmpAfter, List.map_nil, List.map_nil, ih]
    rfl

theorem tmpAfter_sized (room : ∀ col ∈ cols, sizeofLong ≤ col + 1) (before : List Text) :
    Sized cols (tmpAfter cols before) := by
  induction cols generalizing before with
  | nil => exact .nil
  | cons col cols ih =>
    refine .cons ?_ (ih (fun other member => room other (List.mem_cons_of_mem _ member)) _)
    apply reused_length _ (room col List.mem_cons_self)
    intro write member
    obtain ⟨line, -, rfl⟩ := List.mem_map.mp member
    exact (List.length_take_le _ _).trans (Nat.le_succ _)

theorem tmpAfter_append (cols : List Nat) (before : List Text) (line : Text) :
    tmpAfter cols (before ++ [line]) =
      (List.zipWith overlay (tmpAfter cols before) (windows cols line)).map clearFront := by
  induction cols generalizing before line with
  | nil => rfl
  | cons col cols ih =>
    rw [tmpAfter, List.map_append, List.map_singleton, reused_append, List.map_append,
      List.map_singleton, ih]
    rfl

theorem take_plain (col : Nat) (plain : ∀ line ∈ before, '\x00' ∉ line) :
    ∀ write ∈ before.map (List.take col), '\x00' ∉ write := by
  intro write member
  obtain ⟨line, inside, rfl⟩ := List.mem_map.mp member
  exact fun zero => plain line inside (List.mem_of_mem_take zero)

theorem drop_plain (col : Nat) (plain : ∀ line ∈ before, '\x00' ∉ line) :
    ∀ rest ∈ before.map (List.drop col), '\x00' ∉ rest := by
  intro rest member
  obtain ⟨line, inside, rfl⟩ := List.mem_map.mp member
  exact fun zero => plain line inside (List.mem_of_mem_drop zero)

theorem scanned_ended (room : ∀ col ∈ cols, sizeofLong ≤ col + 1)
    (plain : ∀ line ∈ before, '\x00' ∉ line) (line : Text) :
    Ended cols (List.zipWith overlay (tmpAfter cols before) (windows cols line)) := by
  induction cols generalizing before line with
  | nil => exact .nil
  | cons col cols ih =>
    have sized := tmpAfter_sized room before
    cases sized with
    | cons size sized =>
      refine .cons ⟨?_, ?_⟩
        (ih (fun other member => room other (List.mem_cons_of_mem _ member))
          (drop_plain col plain) _)
      · rw [overlay_length, size]
        rw [size]
        exact (List.length_take_le _ _).trans (Nat.le_succ _)
      · rw [getElem?_overlay, if_neg (Nat.not_lt.mpr (List.length_take_le _ _)),
          reused_clear_iff (take_plain col plain) (Nat.lt_succ_self _)]
        right
        intro write member
        obtain ⟨other, -, rfl⟩ := List.mem_map.mp member
        exact List.length_take_le _ _

theorem shown_iff (room : ∀ col ∈ cols, sizeofLong ≤ col + 1)
    (plain : ∀ line ∈ before, '\x00' ∉ line) (whole : '\x00' ∉ line) :
    shown cols before line = windows cols line ↔
      ∀ earlier ∈ before, Overwrites cols earlier line := by
  induction cols generalizing before line with
  | nil => exact ⟨fun _ _ _ => .nil, fun _ => rfl⟩
  | cons col cols ih =>
    have sized := tmpAfter_sized room before
    cases sized with
    | cons size sized =>
      have rest : '\x00' ∉ line.drop col := fun zero => whole (List.mem_of_mem_drop zero)
      have first : '\x00' ∉ line.take col := fun zero => whole (List.mem_of_mem_take zero)
      have later := ih (fun other member => room other (List.mem_cons_of_mem _ member))
        (drop_plain col plain) rest
      have short : (line.take col).length < col + 1 :=
        Nat.lt_succ_of_le (List.length_take_le _ _)
      have head := read_overlay_iff first (lt_of_lt_of_eq short size.symm)
      rw [reused_clear_iff (take_plain col plain) short] at head
      calc
        shown (col :: cols) before line = windows (col :: cols) line ↔
            stringOf (overlay (reused '\x00' sizeofLong (col + 1) (before.map (List.take col)))
                (line.take col)) = line.take col ∧
              shown cols (before.map (List.drop col)) (line.drop col) =
                windows cols (line.drop col) := List.cons_eq_cons
        _ ↔ _ := by
          rw [later, stringOf, head]
          simp only [List.forall_mem_map, Overwrites, windows, List.forall₂_cons]
          constructor
          · rintro ⟨fits, others⟩ earlier member
            exact ⟨fits.imp_right fun none => none earlier member, others earlier member⟩
          · intro all
            refine ⟨?_, fun earlier member => (all earlier member).2⟩
            by_cases front : (line.take col).length < sizeofLong
            · exact Or.inl front
            · exact Or.inr fun earlier member =>
                ((all earlier member).1).resolve_left front

end Buffers

section Scans

variable {commonCheckPattern : Text → Text → Bool} {row : LogColRow} {scan : ColScan}
  {before lines : List Text} {line : Text}

structure ScannedLines (row : LogColRow) (before : List Text) (scan : ColScan) : Prop where
  fields : Sized row.cols scan.acFilterField
  tmp : scan.acTmpFilterField = tmpAfter row.cols before

theorem cols_forall {P : Nat → Prop} :
    (∀ col ∈ row.cols, P col) ↔ ∀ i, P (row.logMonColumnCol i) := by
  rw [LogColRow.cols, List.forall_mem_ofFn_iff]

theorem acFormat_fits (row : LogColRow) : (acFormat row.cols).length < maxFormatLen := by
  have each : ∀ cols : List Nat, (∀ col ∈ cols, col < 2 ^ 31) →
      (acFormat cols).length ≤ 12 * cols.length := by
    intro cols small
    induction cols with
    | nil => exact le_rfl
    | cons col cols ih =>
      have later := ih fun other member => small other (List.mem_cons_of_mem _ member)
      have digits := @toDigits_length col (by have := small col List.mem_cons_self; omega)
      rw [acFormat, used, List.filter_cons]
      rw [acFormat, used] at later
      split
      · simp only [List.flatMap_cons, List.length_append, List.length_cons, List.length_nil]
        omega
      · rw [List.length_cons]
        omega
  have all := each row.cols (cols_forall.mpr row.integer)
  have five : row.cols.length = 5 := List.length_ofFn
  rw [five] at all
  exact Nat.lt_of_le_of_lt all (by decide)

def reportsOf (commonCheckPattern : Text → Text → Bool) (filters strings : List Text)
    (iLineCount : Int) (line : Text) : List ColReport :=
  (matchingFilter commonCheckPattern filters strings).toList.map fun filter =>
    ⟨iLineCount, filter, line⟩

theorem scan_step (room : ∀ col ∈ row.cols, sizeofLong ≤ col + 1)
    (scanned : ScannedLines row before scan) (plain : ∀ other ∈ before, '\x00' ∉ other)
    (line : Text) :
    ∃ after, scan.step commonCheckPattern row line = some after ∧
      ScannedLines row (before ++ [line]) after ∧ after.iLineCount = scan.iLineCount + 1 ∧
      after.matched = scan.matched ++ [shown row.cols before line] ∧
      after.reports = scan.reports ++ reportsOf commonCheckPattern row.filters
        (shown row.cols before line) (scan.iLineCount + 1) line := by
  have allUsed : ∀ col ∈ row.cols, col ≠ 0 := by
    intro col member zero
    have long := room col member
    rw [zero] at long
    exact absurd long (by decide)
  have format : used row.cols = row.cols := by
    rw [used, List.filter_eq_self]
    simpa using allUsed
  have read := @sscanf_windows _ line _ (tmpAfter_sized room before)
  have ended := scanned_ended room plain line
  obtain ⟨copied, done, sized, strings⟩ := copyFields_all allUsed ended scanned.fields
  obtain ⟨cleared, still⟩ := clear_sized room sized
  obtain ⟨clearedTmp, -⟩ := clear_sized room (ended.imp fun _ _ holds => holds.1)
  rw [ColScan.step, if_neg (Nat.not_le.mpr (acFormat_fits row)), format, scanned.tmp, read]
  simp only [Option.bind_eq_bind, Option.bind_some, readString_ended ended, done, strings, cleared,
    clearedTmp]
  refine ⟨_, rfl, ⟨still, ?_⟩, rfl, rfl, rfl⟩
  exact (tmpAfter_append row.cols before line).symm

theorem scan_short (sized : Sized row.cols scan.acFilterField)
    (short : ∃ col ∈ row.cols, col + 1 < sizeofLong) (line : Text) :
    scan.step commonCheckPattern row line = none := by
  rw [ColScan.step, if_neg (Nat.not_le.mpr (acFormat_fits row))]
  cases read : sscanf (used row.cols) line scan.acTmpFilterField with
  | none => rfl
  | some tmp =>
    cases ended : tmp.mapM (readString '\x00') with
    | none => simp [ended]
    | some _ =>
      cases done : copyFields row.cols tmp scan.acFilterField with
      | none => simp [ended, done]
      | some fields =>
        have fault := clear_short (copyFields_sized sized done) short
        simp only [Option.bind_eq_bind, Option.bind_some, ended, done, fault, Option.bind_none]
        cases fields.mapM (readString '\x00') <;> rfl

/-- The strings that are matched for the lines, one line behind the other. -/
def shownFrom (cols : List Nat) : List Text → List Text → List (List Text)
  | _, [] => []
  | before, line :: lines => shown cols before line :: shownFrom cols (before ++ [line]) lines

def reportsFrom (commonCheckPattern : Text → Text → Bool) (filters : List Text) :
    Int → List Text → List (List Text) → List ColReport
  | number, line :: lines, strings :: rest =>
    reportsOf commonCheckPattern filters strings (number + 1) line ++
      reportsFrom commonCheckPattern filters (number + 1) lines rest
  | _, _, _ => []

theorem scan_run (room : ∀ col ∈ row.cols, sizeofLong ≤ col + 1)
    (scanned : ScannedLines row before scan) (plain : ∀ other ∈ before, '\x00' ∉ other)
    (plainLines : ∀ other ∈ lines, '\x00' ∉ other) :
    ∃ last, Machine.run (ColScan.step commonCheckPattern row) scan lines = some last ∧
      last.matched = scan.matched ++ shownFrom row.cols before lines ∧
      last.reports =
        scan.reports ++ reportsFrom commonCheckPattern row.filters scan.iLineCount lines
        (shownFrom row.cols before lines) := by
  induction lines generalizing before scan with
  | nil => exact ⟨scan, rfl, (List.append_nil _).symm, (List.append_nil _).symm⟩
  | cons line lines ih =>
    obtain ⟨after, stepped, scanned, number, matched, reports⟩ :=
      @scan_step commonCheckPattern row scan before room scanned plain line
    have longer : ∀ other ∈ before ++ [line], '\x00' ∉ other := by
      intro other member
      rcases List.mem_append.mp member with inside | last
      · exact plain other inside
      · rw [List.mem_singleton.mp last]
        exact plainLines line List.mem_cons_self
    obtain ⟨last, executed, allMatched, allReports⟩ := ih scanned longer
      fun other member => plainLines other (List.mem_cons_of_mem _ member)
    refine ⟨last, Machine.run_cons stepped executed, ?_, ?_⟩
    · rw [allMatched, matched, List.append_assoc]
      rfl
    · rw [allReports, reports, number, List.append_assoc]
      rfl

theorem shownFrom_iff (room : ∀ col ∈ row.cols, sizeofLong ≤ col + 1)
    (plain : ∀ other ∈ before, '\x00' ∉ other) (plainLines : ∀ other ∈ lines, '\x00' ∉ other) :
    shownFrom row.cols before lines = lines.map (windows row.cols) ↔
      (∀ earlier ∈ before, ∀ line ∈ lines, Overwrites row.cols earlier line) ∧
        lines.Pairwise (Overwrites row.cols) := by
  induction lines generalizing before with
  | nil => simp [shownFrom]
  | cons line lines ih =>
    have whole : '\x00' ∉ line := plainLines line List.mem_cons_self
    have longer : ∀ other ∈ before ++ [line], '\x00' ∉ other := by
      intro other member
      rcases List.mem_append.mp member with inside | last
      · exact plain other inside
      · exact List.mem_singleton.mp last ▸ whole
    have later := ih longer fun other member => plainLines other (List.mem_cons_of_mem _ member)
    rw [shownFrom, List.map_cons, List.cons_eq_cons, shown_iff room plain whole, later,
      List.pairwise_cons]
    constructor
    · rintro ⟨first, others, ordered⟩
      refine ⟨?_, others line (List.mem_append_right _ List.mem_cons_self), ordered⟩
      intro earlier member other inside
      rcases List.mem_cons.mp inside with rfl | inside
      · exact first earlier member
      · exact others earlier (List.mem_append_left _ member) other inside
    · rintro ⟨all, first, ordered⟩
      refine ⟨fun earlier member => all earlier member line List.mem_cons_self, ?_, ordered⟩
      intro earlier member other inside
      rcases List.mem_append.mp member with member | last
      · exact all earlier member other (List.mem_cons_of_mem _ inside)
      · exact List.mem_singleton.mp last ▸ first other inside

theorem reportsOf_windows (number : Int) (line : Text) :
    (reportsOf commonCheckPattern row.filters (windows row.cols line) number line).map
        (fun report => (report.line, report.iLineCount)) =
      if Reported commonCheckPattern row line then [(line, number)] else [] := by
  rw [reportsOf, matchingFilter, Reported]
  cases found : ((windows row.cols line).zip row.filters).find? _ with
  | none =>
    rw [List.find?_eq_none] at found
    have none : (((windows row.cols line).zip row.filters).any fun (window, filter) =>
        commonCheckPattern window filter && filter ≠ []) = false := by
      rw [List.any_eq_false]
      exact found
    rw [none]
    rfl
  | some pair =>
    have some : (((windows row.cols line).zip row.filters).any fun (window, filter) =>
        commonCheckPattern window filter && filter ≠ []) = true := by
      rw [List.any_eq_true]
      have holds := List.find?_some found
      exact ⟨pair, List.mem_of_find?_eq_some found, holds⟩
    rw [some]
    rfl

theorem reportsFrom_windows (number : Int) (lines : List Text) :
    (reportsFrom commonCheckPattern row.filters number lines
        (lines.map (windows row.cols))).map (fun report => (report.line, report.iLineCount)) =
      (numberedFrom number lines).filter fun line => Reported commonCheckPattern row line.1 := by
  induction lines generalizing number with
  | nil => rfl
  | cons line lines ih =>
    rw [List.map_cons, reportsFrom, List.map_append, reportsOf_windows, ih, numberedFrom,
      List.filter_cons]
    split
    · rfl
    · rfl

theorem numberedFrom_filter_iff (test : Text → Bool) (number other : Int) (lines : List Text) :
    ((numberedFrom number lines).filter fun line => test line.1) =
        (numberedFrom other lines).filter (fun line => test line.1) ↔
      number = other ∨ ∀ line ∈ lines, test line = false := by
  induction lines generalizing number other with
  | nil => simp [numberedFrom]
  | cons line lines ih =>
    rw [numberedFrom, numberedFrom, List.filter_cons, List.filter_cons, List.forall_mem_cons]
    cases reported : test line with
    | false =>
      simp only [Bool.false_eq_true, if_false, true_and]
      rw [ih, Int.add_left_inj]
    | true =>
      simp only [if_true, Bool.true_eq_false, false_and, or_false]
      rw [List.cons_eq_cons, Prod.mk.injEq, Int.add_left_inj, ih]
      constructor
      · rintro ⟨⟨-, same⟩, -⟩
        exact same
      · rintro rfl
        exact ⟨⟨rfl, rfl⟩, Or.inl rfl⟩

end Scans

section Results

variable {commonCheckPattern : Text → Text → Bool} {row : LogColRow} {lines : List Text}

theorem scanned_start (row : LogColRow) : ScannedLines row [] (scanStart row) :=
  ⟨blankFields_sized row.cols, (tmpAfter_nil row.cols).symm⟩

theorem linesRead_plain (row : LogColRow) (content : Text) :
    ∀ line ∈ row.linesRead content, '\x00' ∉ line := by
  intro line member zero
  obtain ⟨buffer, -, rfl⟩ := List.mem_map.mp member
  have holds := List.mem_takeWhile_imp zero
  simp at holds

theorem seen_iff_clean (room : ∀ i, sizeofLong ≤ row.logMonColumnCol i + 1)
    (plain : ∀ line ∈ lines, '\x00' ∉ line) :
    (∃ scan, Machine.run (ColScan.step commonCheckPattern row) (scanStart row) lines = some scan ∧
        ColumnsSeen commonCheckPattern row lines scan) ↔
      ColumnsClean commonCheckPattern row lines := by
  have wide := (@cols_forall row fun col => sizeofLong ≤ col + 1).mpr room
  obtain ⟨last, executed, matched, reports⟩ := @scan_run commonCheckPattern row _ [] lines wide
    (scanned_start row) (fun _ member => absurd member List.not_mem_nil) plain
  have windowsShown := @shownFrom_iff row [] lines wide
    (fun _ member => absurd member List.not_mem_nil) plain
  have counted : row.logMonColumnReadLine = row.logMonColumnReadLine.toNat ↔
      0 ≤ row.logMonColumnReadLine := by
    omega
  have numbers := numberedFrom_filter_iff (Reported commonCheckPattern row)
    row.logMonColumnReadLine row.logMonColumnReadLine.toNat lines
  rw [counted] at numbers
  change last.matched = shownFrom row.cols [] lines at matched
  change last.reports = reportsFrom commonCheckPattern row.filters row.logMonColumnReadLine lines
    (shownFrom row.cols [] lines) at reports
  constructor
  · rintro ⟨scan, finished, seen⟩
    rw [executed] at finished
    cases finished
    have same := seen.matched
    rw [matched] at same
    have numbered := seen.reports
    rw [reports, same, reportsFrom_windows] at numbered
    exact ⟨room, (windowsShown.mp same).2, numbers.mp numbered⟩
  · rintro ⟨-, ordered, positive⟩
    have same := windowsShown.mpr ⟨fun _ member => absurd member List.not_mem_nil, ordered⟩
    refine ⟨last, executed, matched.trans same, ?_⟩
    rw [reports, same, reportsFrom_windows]
    exact numbers.mpr positive

theorem scanned_iff (plain : ∀ line ∈ lines, '\x00' ∉ line) :
    (∃ scan, Machine.run (ColScan.step commonCheckPattern row) (scanStart row) lines = some scan ∧
        ColumnsSeen commonCheckPattern row lines scan) ↔
      lines = [] ∨ ColumnsClean commonCheckPattern row lines := by
  cases lines with
  | nil => exact ⟨fun _ => Or.inl rfl, fun _ => ⟨_, rfl, rfl, rfl⟩⟩
  | cons line lines =>
    by_cases room : ∀ i, sizeofLong ≤ row.logMonColumnCol i + 1
    · rw [seen_iff_clean room plain]
      exact (or_iff_right (List.cons_ne_nil _ _)).symm
    · have short : ∃ col ∈ row.cols, col + 1 < sizeofLong := by
        by_contra none
        apply room
        rw [← @cols_forall row fun col => sizeofLong ≤ col + 1]
        intro col member
        exact Nat.le_of_not_lt fun small => none ⟨col, member, small⟩
      constructor
      · rintro ⟨scan, executed, -⟩
        obtain ⟨after, stepped, -⟩ := Machine.run_cons_some executed
        rw [scan_short (blankFields_sized row.cols) short] at stepped
        cases stepped
      · rintro (none | clean)
        · cases none
        · exact absurd clean.1 room

/-- Every filter sees the windows of its own column, each line is reported once when one matches,
and no buffer is overrun, exactly when no line is read or all columns have room for the clearing,
each line covers what earlier ones left behind the cleared part, and the lines are counted. -/
theorem columns_seen_iff (commonCheckPattern : Text → Text → Bool) (row : LogColRow)
    (stat : Option Nat) (file : Option Text) :
    (∃ result, colSearchPatterns commonCheckPattern row stat file = some result ∧
        ColumnsSeen commonCheckPattern row (linesOfCall row stat file) result.2.2) ↔
      linesOfCall row stat file = [] ∨
        ColumnsClean commonCheckPattern row (linesOfCall row stat file) := by
  have idle : ColumnsSeen commonCheckPattern row [] (scanStart row) := ⟨rfl, rfl⟩
  cases stat with
  | none =>
    have nothing : linesOfCall row none file = [] := by cases file <;> rfl
    rw [nothing]
    exact ⟨fun _ => Or.inl rfl, fun _ => ⟨_, rfl, idle⟩⟩
  | some size =>
    by_cases restarts : row.restarts size = true
    · have nothing : linesOfCall row (some size) file = [] := by
        cases file with
        | none => rfl
        | some content => exact if_pos restarts
      rw [nothing]
      simp only [colSearchPatterns, restarts]
      exact ⟨fun _ => Or.inl trivial, fun _ => ⟨_, rfl, idle⟩⟩
    · cases file with
      | none =>
        simp only [colSearchPatterns, restarts]
        exact ⟨fun _ => Or.inl rfl, fun _ => ⟨_, rfl, idle⟩⟩
      | some content =>
        have read : linesOfCall row (some size) (some content) = row.linesRead content :=
          if_neg restarts
        rw [read, colSearchPatterns, ← scanned_iff (linesRead_plain row content)]
        simp only [restarts]
        constructor
        · rintro ⟨result, executed, seen⟩
          obtain ⟨scan, finished, rfl⟩ := Option.map_eq_some_iff.mp executed
          exact ⟨scan, finished, seen⟩
        · rintro ⟨scan, finished, seen⟩
          exact ⟨_, Option.map_eq_some_iff.mpr ⟨scan, finished, rfl⟩, seen⟩

def oneColumn : LogColRow where
  logMonColumnCol := ![10, 0, 0, 0, 0]
  logMonColumnColFilter := ![['x'], [], [], [], []]
  logMonColumnReadLine := 1
  logMonColumnFileSize := 2
  integer := by decide

/-- The buffers of the columns that are not used have no room for the clearing. -/
theorem unused_overrun : ¬ ∃ result,
    colSearchPatterns (fun _ _ => false) oneColumn (some 4) (some ['a', '\n', 'b', '\n']) =
        some result ∧
      ColumnsSeen (fun _ _ => false) oneColumn
        (linesOfCall oneColumn (some 4) (some ['a', '\n', 'b', '\n'])) result.2.2 := by
  rintro ⟨result, finished, -⟩
  have fault : colSearchPatterns (fun _ _ => false) oneColumn (some 4)
      (some ['a', '\n', 'b', '\n']) = none := rfl
  rw [fault] at finished
  cases finished

end Results

end EveAgent.LogMon
