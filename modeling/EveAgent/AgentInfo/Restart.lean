import EveAgent.Attempt
import EveAgent.Scanf
import EveAgent.JobSched.ReadOid
import EveAgent.AgentInfo.SetRequest

/-! The configuration after a restart: what `readFromFile` makes of the file that `writeToFile`
has written. -/

namespace EveAgent.AgentInfo

open EveAgent.JobSched.ReadOid (DataModel)

section Source

/-- What a variable holds. A `long` of 64 bits holds numbers that no SET asks for. -/
inductive Held where
  | number (value : Int)
  | octets (octets : Octets)
  deriving DecidableEq, Repr

def Value.held : Value → Held
  | .integer value => .number value.toInt
  | .octets bytes => .octets bytes

/-- The variable is a `long`, and no `int`. -/
def isLong : Scalar → Bool
  | .systemSNMPOID | .appSNMPAgentOID1 | .appSNMPAgentOID2 | .appSNMPAgentOID3 | .appSNMPAgentOID4
  | .appSNMPAgentOID5 | .agentInfoSystemTime | .agentInfoSerialNo | .agentInfoAlertManagerPort
  | .agentInfoFileTransferInterval | .agentInfoFileTransferPort | .agentInfoLogFileSize => true
  | _ => false

def declared (scalar : Scalar) : Held :=
  match (handler scalar).kind with
  | .octetString => .octets emptyName
  | .ipAddress => .octets (List.replicate ipAddLen 0)
  | .dateAndTime => .octets (List.replicate dateAndTimeLen 0)
  | .integer | .interval =>
    match scalar with
    | .agentInfoFileTransferInterval => .number 120
    | .agentInfoFileTransferPort => .number 2000
    | .agentInfoLogFileSize => .number 1000
    | _ => .number 0

/-- The size of `tempBuff` -/
def tempBuffLen : Nat := 10

variable (model : DataModel)

/-- A number that was read, as an `int`. -/
def converted (number : Int) : Int := i32 (max (-model.longMax - 1) (min model.longMax number))

/-- `"%d"` writes an `int`, which is the lower half of a `long` of 64 bits. -/
def storeNumber (long : Bool) (value : Int) : Held → Held
  | .number old =>
    .number (if long = true ∧ model = .lp64 then old / 2 ^ 32 * 2 ^ 32 + value % 2 ^ 32 else value)
  | .octets octets => .octets octets

def octetsOf (token : Text) : Octets := token.map fun c => UInt8.ofNat c.toNat

/-- `atoi` of `tempBuff`, as a `char` -/
def charOf (tempBuff : Text) : UInt8 :=
    (Int8.ofInt (converted model (leadingInteger tempBuff))).toUInt8

/-- The file and `tempBuff`, of which nothing is read at the end of the file. -/
structure Stream where
  rest : Text
  tempBuff : Text
  deriving DecidableEq, Repr

/-- The loop over the octets of an address or a date. -/
def readOctets : Nat → Stream → Attempt Empty (Octets × Stream)
  | 0, stream => return ([], stream)
  | count + 1, stream => do
    let (token, rest) := scanToken stream.rest
    let tempBuff := token.getD stream.tempBuff
    if token.isSome ∧ tempBuffLen ≤ tempBuff.length then .error .fault
    else
      let (octets, stream) ← readOctets count ⟨rest, tempBuff⟩
      return (charOf model tempBuff :: octets, stream)

def readKind (long : Bool) (old : Held) (stream : Stream) : Kind → Attempt Empty (Held × Stream)
  | .integer | .interval =>
    let (number, rest) := scanNumber stream.rest
    let held := match number with
      | some number => storeNumber model long (converted model number) old
      | none => old
    return (held, { stream with rest := rest })
  | .octetString =>
    match scanToken stream.rest with
    | (none, rest) => return (old, { stream with rest := rest })
    | (some token, rest) =>
      if strLen ≤ token.length then .error .fault
      else return (.octets (octetsOf token), { stream with rest := rest })
  | .ipAddress => do
    let (octets, stream) ← readOctets model ipAddLen stream
    return (.octets octets, stream)
  | .dateAndTime => do
    let (octets, stream) ← readOctets model dateAndTimeLen stream
    return (.octets octets, stream)

def readScalar (scalar : Scalar) (held : Scalar → Held) (stream : Stream) :
    Attempt Empty ((Scalar → Held) × Stream) := do
  let (value, stream) ← readKind model (isLong scalar) (held scalar) stream (handler scalar).kind
  return (Function.update held scalar value, stream)

/-- The scalars are read in the order in which they were written. -/
def readScalars : List Scalar → (Scalar → Held) → Stream → Attempt Empty (Scalar → Held)
  | [], held, _ => return held
  | scalar :: scalars, held, stream => do
    let (held, stream) ← readScalar model scalar held stream
    readScalars scalars held stream

def readFromFile (file : File) (text tempBuff : Text) (held : Scalar → Held) :
    Attempt Empty (Scalar → Held) :=
  readScalars model (members file) held ⟨text, tempBuff⟩

end Source

section Property

/-- What was written is read back to all scalars of the file, within their arrays. -/
def Restarts (model : DataModel) (file : File) (cells : Cells) (tempBuff : Text) : Prop :=
  Meets (fun held => ∀ scalar ∈ members file, held scalar = (cells scalar).value.held)
    (fun _ => False) (readFromFile model file (fileText file cells) tempBuff declared)

/-- A string that is neither empty nor has white space in it. -/
def Plain (octets : Octets) : Prop :=
  octets ≠ [] ∧ ∀ octet ∈ octets, isspace (Char.ofNat octet.toNat) = false

/-- Every string is plain, and no `long` of 64 bits is below 0. -/
def Restorable (model : DataModel) (file : File) (cells : Cells) : Prop :=
  ∀ scalar ∈ members file,
    ((handler scalar).kind = .octetString → ∀ octets, (cells scalar).value = .octets octets →
      Plain octets) ∧
    (isLong scalar = true → model = .lp64 → ∀ value, (cells scalar).value = .integer value →
      0 ≤ value.toInt)

end Property

section Aligned

variable {model : DataModel}

theorem converted_range {number : Int} (lower : -2 ^ 31 ≤ number) (upper : number < 2 ^ 31) :
    converted model number = number := by
  have same : max (-model.longMax - 1) (min model.longMax number) = number := by
    cases model <;> simp only [DataModel.longMax] <;> omega
  rw [converted, same, i32_of_range lower upper]

theorem charOf_printChar (octet : UInt8) : charOf model (printChar octet) = octet := by
  have lower := octet.toInt8.le_toInt
  have upper := octet.toInt8.toInt_lt
  rw [charOf, printChar, leadingInteger_printLd, converted_range (by omega) (by omega),
    Int8.ofInt_toInt]
  rfl

theorem printChar_short (octet : UInt8) : (printChar octet).length < tempBuffLen := by
  have each : ∀ number < 256, (printChar (UInt8.ofNat number)).length < tempBuffLen := by
    decide +kernel
  have short := each octet.toNat octet.toNat_lt
  rwa [UInt8.ofNat_toNat] at short

theorem line_append (token more : Text) : line token ++ more = token ++ '\n' :: more := by
  rw [line, List.append_assoc]
  rfl

theorem readOctets_lines (octets : Octets) {stream : Stream} {more : Text}
    (same : SameRest stream.rest ((octets.flatMap fun octet => line (printChar octet)) ++ more)) :
    ∃ after, readOctets model octets.length stream = .ok (octets, after) ∧
      SameRest after.rest more := by
  induction octets generalizing stream with
  | nil => exact ⟨stream, rfl, same⟩
  | cons octet octets ih =>
    rw [List.flatMap_cons, List.append_assoc, line_append] at same
    obtain ⟨rest, read, same⟩ := scanToken_line (isToken_printLd _) same
    obtain ⟨after, reads, same⟩ := @ih ⟨rest, printChar octet⟩ same
    refine ⟨after, ?_, same⟩
    have short := printChar_short octet
    change scanToken stream.rest = (some (printChar octet), rest) at read
    rw [List.length_cons, readOctets, read]
    simp only [Option.getD_some, Option.isSome_some, true_and]
    rw [if_neg (Nat.not_le.mpr short), reads, charOf_printChar]
    rfl

def readBack (model : DataModel) (long : Bool) (old : Held) : Value → Held
  | .integer value => storeNumber model long value.toInt old
  | .octets bytes => .octets bytes

theorem octetsOf_chars (octets : Octets) :
    octetsOf (octets.map fun octet => Char.ofNat octet.toNat) = octets := by
  have each : ∀ number < 256, UInt8.ofNat (Char.ofNat number).toNat = UInt8.ofNat number := by
    decide +kernel
  have same (octet : UInt8) : UInt8.ofNat (Char.ofNat octet.toNat).toNat = octet := by
    rw [each octet.toNat octet.toNat_lt, UInt8.ofNat_toNat]
  simp only [octetsOf, List.map_map, Function.comp_def, same, List.map_id']

theorem Plain.isToken {octets : Octets} (plain : Plain octets) :
    IsToken (octets.map fun octet => Char.ofNat octet.toNat) := by
  refine ⟨by simpa using plain.1, fun c member => ?_⟩
  obtain ⟨octet, known, rfl⟩ := List.mem_map.mp member
  exact plain.2 octet known

theorem readKind_lines {kind : Kind} (cell : Cell kind) (long : Bool) (old : Held) {stream : Stream}
    {more : Text}
    (plain : kind = .octetString → ∀ octets, cell.value = .octets octets → Plain octets)
    (same : SameRest stream.rest (cell.lines ++ more)) :
    ∃ after, readKind model long old stream kind = .ok (readBack model long old cell.value, after) ∧
      SameRest after.rest more := by
  cases cell with
  | integer value =>
    rw [Cell.lines, line_append] at same
    obtain ⟨rest, read, same⟩ := scanNumber_line value.toInt same
    refine ⟨⟨rest, stream.tempBuff⟩, ?_, same⟩
    have lower := value.le_toInt
    have upper := value.toInt_lt
    simp only [readKind, read, converted_range (by omega : -2 ^ 31 ≤ value.toInt) (by omega)]
    rfl
  | interval value =>
    rw [Cell.lines, line_append] at same
    obtain ⟨rest, read, same⟩ := scanNumber_line value.toInt same
    refine ⟨⟨rest, stream.tempBuff⟩, ?_, same⟩
    have lower := value.le_toInt
    have upper := value.toInt_lt
    simp only [readKind, read, converted_range (by omega : -2 ^ 31 ≤ value.toInt) (by omega)]
    rfl
  | ipAddress octets size =>
    obtain ⟨after, read, same⟩ := @readOctets_lines model octets stream more same
    rw [size] at read
    refine ⟨after, ?_, same⟩
    rw [readKind, read]
    rfl
  | dateAndTime octets size =>
    obtain ⟨after, read, same⟩ := @readOctets_lines model octets stream more same
    rw [size] at read
    refine ⟨after, ?_, same⟩
    rw [readKind, read]
    rfl
  | octetString octets size ended =>
    have isPlain := plain rfl octets rfl
    rw [Cell.lines, line_append] at same
    obtain ⟨rest, read, same⟩ := scanToken_line isPlain.isToken same
    refine ⟨⟨rest, stream.tempBuff⟩, ?_, same⟩
    rw [readKind, read]
    dsimp only
    rw [List.length_map, if_neg (Nat.not_le.mpr size), octetsOf_chars]
    rfl

theorem readScalars_lines (cells : Cells) {scalars : List Scalar} (distinct : scalars.Nodup)
    {held : Scalar → Held} {stream : Stream}
    (plain : ∀ scalar ∈ scalars, (handler scalar).kind = .octetString → ∀ octets,
      (cells scalar).value = .octets octets → Plain octets)
    (same : SameRest stream.rest (scalars.flatMap fun scalar => (cells scalar).lines)) :
    ∃ after, readScalars model scalars held stream = .ok after ∧ ∀ scalar,
      after scalar = if scalar ∈ scalars then
        readBack model (isLong scalar) (held scalar) (cells scalar).value else held scalar := by
  induction scalars generalizing held stream with
  | nil => exact ⟨held, rfl, fun scalar => rfl⟩
  | cons first scalars ih =>
    rw [List.flatMap_cons] at same
    obtain ⟨absent, distinct⟩ := List.nodup_cons.mp distinct
    obtain ⟨next, read, same⟩ := @readKind_lines model _ (cells first) (isLong first) (held first)
      stream _ (plain first List.mem_cons_self) same
    obtain ⟨after, reads, values⟩ := @ih distinct
      (Function.update held first (readBack model (isLong first) (held first) (cells first).value))
      next (fun scalar member => plain scalar (List.mem_cons_of_mem _ member)) same
    refine ⟨after, ?_, fun scalar => ?_⟩
    · rw [readScalars, readScalar, read]
      exact reads
    · rw [values scalar]
      by_cases here : scalar = first
      · subst here
        rw [if_neg absent, if_pos List.mem_cons_self, Function.update_self]
      · simp only [List.mem_cons, here, false_or, Function.update_of_ne here]

theorem members_nodup (file : File) : (members file).Nodup := by
  cases file <;> decide

theorem declared_number {scalar : Scalar}
    (isNumber : (handler scalar).kind = .integer ∨ (handler scalar).kind = .interval) :
    ∃ old, declared scalar = .number old ∧ 0 ≤ old ∧ old < 2 ^ 31 := by
  cases scalar <;> first
    | exact ⟨_, rfl, by decide, by decide⟩
    | exact absurd isNumber (by decide)

theorem kind_of_integer {kind : Kind} {cell : Cell kind} {value : Int32}
    (holds : cell.value = .integer value) : kind = .integer ∨ kind = .interval := by
  cases cell with
  | integer value => exact .inl rfl
  | interval value => exact .inr rfl
  | ipAddress octets size => cases holds
  | dateAndTime octets size => cases holds
  | octetString octets size ended => cases holds

theorem readBack_declared (scalar : Scalar) (cells : Cells) :
    readBack model (isLong scalar) (declared scalar) (cells scalar).value =
        (cells scalar).value.held ↔
      (isLong scalar = true → model = .lp64 → ∀ value, (cells scalar).value = .integer value →
        0 ≤ value.toInt) := by
  cases holds : (cells scalar).value with
  | octets bytes => simp [readBack, Value.held]
  | integer value =>
    obtain ⟨old, isOld, lower, upper⟩ := declared_number (kind_of_integer holds)
    have least := value.le_toInt
    have most := value.toInt_lt
    rw [readBack, isOld, storeNumber, Value.held, Held.number.injEq]
    simp only [Value.integer.injEq, forall_eq']
    by_cases upperHalf : isLong scalar = true ∧ model = .lp64
    · rw [if_pos upperHalf]
      simp only [upperHalf, true_implies]
      omega
    · rw [if_neg upperHalf]
      simp only [true_iff]
      exact fun long wide => absurd ⟨long, wide⟩ upperHalf

end Aligned

section Strings

variable {model : DataModel}

def Narrow (text : Text) : Prop := ∀ c ∈ text, c.toNat < 256

theorem Narrow.of_sublist {text rest : Text} (narrow : Narrow text) (part : rest.Sublist text) :
    Narrow rest := fun c member => narrow c (part.subset member)

theorem scanToken_sublist (text : Text) : (scanToken text).2.Sublist text := by
  rw [scanToken]
  split
  · exact List.nil_sublist text
  · exact (List.dropWhile_sublist _).trans ((List.dropWhile_sublist _).trans
      (List.dropWhile_sublist _))

theorem scanDigits_sublist (minus : Bool) (text : Text) :
    (scanDigits minus text).2.Sublist text := by
  simp only [scanDigits]
  split
  · exact List.Sublist.refl text
  · exact (List.dropWhile_sublist _).trans (List.dropWhile_sublist _)

theorem scanNumber_sublist (text : Text) : (scanNumber text).2.Sublist text := by
  have dropped : (text.dropWhile isspace).Sublist text := List.dropWhile_sublist _
  rw [scanNumber]
  split
  · rename_i rest start
    rw [start] at dropped
    exact ((scanDigits_sublist true rest).trans (List.sublist_cons_self _ _)).trans dropped
  · rename_i rest start
    rw [start] at dropped
    exact ((scanDigits_sublist false rest).trans (List.sublist_cons_self _ _)).trans dropped
  · exact (scanDigits_sublist false _).trans dropped

theorem readOctets_sublist {count : Nat} {stream after : Stream} {octets : Octets}
    (read : readOctets model count stream = .ok (octets, after)) :
    after.rest.Sublist stream.rest := by
  induction count generalizing stream octets with
  | zero =>
    cases read
    exact List.Sublist.refl _
  | succ count ih =>
    simp only [readOctets] at read
    split at read
    · cases read
    · cases later : readOctets model count ⟨(scanToken stream.rest).2,
          (scanToken stream.rest).1.getD stream.tempBuff⟩ with
      | error stop =>
        rw [later] at read
        cases read
      | ok result =>
        rw [later] at read
        cases read
        exact (ih later).trans (scanToken_sublist stream.rest)

theorem firstToken_word {text : Text} : ∀ c ∈ firstToken text, isspace c = false := by
  intro c member
  simpa using List.mem_takeWhile_imp member

theorem octetsOf_plain {text token rest : Text} (narrow : Narrow text)
    (read : scanToken text = (some token, rest)) : Plain (octetsOf token) := by
  rw [scanToken] at read
  split at read
  · cases read
  · rename_i nonempty
    cases read
    refine ⟨by simpa [octetsOf] using nonempty, fun octet member => ?_⟩
    obtain ⟨c, known, rfl⟩ := List.mem_map.mp member
    have inText : c ∈ text :=
      ((List.takeWhile_sublist _).trans (List.dropWhile_sublist _)).subset known
    have same : Char.ofNat (UInt8.ofNat c.toNat).toNat = c := by
      rw [UInt8.toNat_ofNat_of_lt' (narrow c inText), Char.ofNat_toNat]
    rw [same]
    exact firstToken_word c known

theorem readKind_plain {kind : Kind} {long : Bool} {old value : Held} {stream after : Stream}
    (narrow : Narrow stream.rest)
    (plain : kind = .octetString → ∀ octets, old = .octets octets → Plain octets)
    (read : readKind model long old stream kind = .ok (value, after)) :
    Narrow after.rest ∧
      (kind = .octetString → ∀ octets, value = .octets octets → Plain octets) := by
  cases kind with
  | integer =>
    cases read
    exact ⟨narrow.of_sublist (scanNumber_sublist _), fun other => by cases other⟩
  | interval =>
    cases read
    exact ⟨narrow.of_sublist (scanNumber_sublist _), fun other => by cases other⟩
  | ipAddress =>
    refine ⟨?_, fun other => by cases other⟩
    rw [readKind] at read
    cases octets : readOctets model ipAddLen stream with
    | error stop =>
      rw [octets] at read
      cases read
    | ok result =>
      rw [octets] at read
      cases read
      exact narrow.of_sublist (readOctets_sublist octets)
  | dateAndTime =>
    refine ⟨?_, fun other => by cases other⟩
    rw [readKind] at read
    cases octets : readOctets model dateAndTimeLen stream with
    | error stop =>
      rw [octets] at read
      cases read
    | ok result =>
      rw [octets] at read
      cases read
      exact narrow.of_sublist (readOctets_sublist octets)
  | octetString =>
    rw [readKind] at read
    have part := scanToken_sublist stream.rest
    split at read
    · rename_i rest scanned
      rw [scanned] at part
      cases read
      exact ⟨narrow.of_sublist part, plain⟩
    · rename_i token rest scanned
      rw [scanned] at part
      split at read
      · cases read
      · cases read
        refine ⟨narrow.of_sublist part, fun _ octets same => ?_⟩
        cases same
        exact octetsOf_plain narrow scanned

theorem readScalars_plain {scalars : List Scalar} {held after : Scalar → Held} {stream : Stream}
    (narrow : Narrow stream.rest)
    (plain : ∀ scalar, (handler scalar).kind = .octetString → ∀ octets,
      held scalar = .octets octets → Plain octets)
    (read : readScalars model scalars held stream = .ok after) :
    ∀ scalar, (handler scalar).kind = .octetString → ∀ octets, after scalar = .octets octets →
      Plain octets := by
  induction scalars generalizing held stream with
  | nil =>
    cases read
    exact plain
  | cons first scalars ih =>
    rw [readScalars, readScalar] at read
    cases one : readKind model (isLong first) (held first) stream (handler first).kind with
    | error stop =>
      rw [one] at read
      cases read
    | ok result =>
      obtain ⟨value, next⟩ := result
      rw [one] at read
      obtain ⟨narrow, firstPlain⟩ := readKind_plain narrow (plain first) one
      refine ih narrow (fun scalar isString octets holds => ?_) read
      by_cases here : scalar = first
      · subst here
        rw [Function.update_self] at holds
        exact firstPlain isString octets holds
      · rw [Function.update_of_ne here] at holds
        exact plain scalar isString octets holds

theorem declared_plain (scalar : Scalar) (isString : (handler scalar).kind = .octetString)
    (octets : Octets) (holds : declared scalar = .octets octets) : Plain octets := by
  have name : declared scalar = .octets emptyName := by
    cases scalar <;> first | rfl | exact absurd isString (by decide)
  rw [name] at holds
  cases holds
  refine ⟨by decide, fun octet member => ?_⟩
  rw [List.mem_singleton.mp member]
  decide

theorem printLd_narrow (value : Int) : Narrow (printLd value) := by
  have digits (number : Nat) : Narrow (Nat.toDigits 10 number) := by
    intro c member
    have digit := Nat.isDigit_of_mem_toDigits (by decide) (by decide) member
    simp only [Char.isDigit, Bool.and_eq_true, decide_eq_true_eq] at digit
    have upper := UInt32.le_iff_toNat_le.mp digit.2
    exact lt_of_le_of_lt upper (by decide)
  unfold printLd
  split
  · intro c member
    rcases List.mem_cons.mp member with rfl | member
    · decide
    · exact digits _ c member
  · exact digits _

theorem line_narrow {text : Text} (narrow : Narrow text) : Narrow (line text) := by
  intro c member
  rcases List.mem_append.mp member with member | member
  · exact narrow c member
  · rw [List.mem_singleton.mp member]
    decide

theorem lines_narrow {kind : Kind} (cell : Cell kind) : Narrow cell.lines := by
  have octets (octets : Octets) : Narrow (octets.flatMap fun octet => line (printChar octet)) := by
    intro c member
    obtain ⟨octet, -, known⟩ := List.mem_flatMap.mp member
    exact line_narrow (printLd_narrow _) c known
  cases cell with
  | integer value => exact line_narrow (printLd_narrow _)
  | interval value => exact line_narrow (printLd_narrow _)
  | ipAddress list size => exact octets list
  | dateAndTime list size => exact octets list
  | octetString list size ended =>
    refine line_narrow fun c member => ?_
    obtain ⟨octet, -, rfl⟩ := List.mem_map.mp member
    have each : ∀ number < 256, (Char.ofNat number).toNat < 256 := by decide +kernel
    exact each octet.toNat octet.toNat_lt

end Strings

section Restart

variable {model : DataModel} {file : File} {cells : Cells} {tempBuff : Text}

theorem plain_of_restarts (restarts : Restarts model file cells tempBuff) :
    ∀ scalar ∈ members file, (handler scalar).kind = .octetString → ∀ octets,
      (cells scalar).value = .octets octets → Plain octets := by
  intro scalar member isString octets holds
  cases read : readFromFile model file (fileText file cells) tempBuff declared with
  | error stop =>
    rw [Restarts, read] at restarts
    cases stop <;> exact absurd restarts id
  | ok after =>
    rw [Restarts, read, meets_ok] at restarts
    have narrow : Narrow (fileText file cells) := by
      intro c known
      obtain ⟨scalar, -, known⟩ := List.mem_flatMap.mp known
      exact lines_narrow (cells scalar) c known
    refine readScalars_plain narrow declared_plain read scalar isString octets ?_
    rw [restarts scalar member, holds]
    rfl

theorem restarts_of_plain (plain : ∀ scalar ∈ members file, (handler scalar).kind = .octetString →
    ∀ octets, (cells scalar).value = .octets octets → Plain octets) :
    Restarts model file cells tempBuff ↔ ∀ scalar ∈ members file,
      isLong scalar = true → model = .lp64 → ∀ value, (cells scalar).value = .integer value →
        0 ≤ value.toInt := by
  obtain ⟨after, read, values⟩ := @readScalars_lines model cells (members file)
    (members_nodup file) declared ⟨fileText file cells, tempBuff⟩ plain rfl
  rw [Restarts, readFromFile, read, meets_ok]
  refine forall_congr' fun scalar => imp_congr_right fun member => ?_
  rw [values scalar, if_pos member, readBack_declared]

end Restart

/-- The configuration survives a restart exactly when every string is plain and, where a `long` has
64 bits, no number in one is below 0. -/
theorem restarts_iff (model : DataModel) (file : File) (cells : Cells) (tempBuff : Text) :
    Restarts model file cells tempBuff ↔ Restorable model file cells := by
  constructor
  · intro restarts scalar member
    have plain := plain_of_restarts restarts
    exact ⟨plain scalar member, (restarts_of_plain plain).mp restarts scalar member⟩
  · intro restorable
    refine (restarts_of_plain fun scalar member => (restorable scalar member).1).mpr ?_
    exact fun scalar member => (restorable scalar member).2

def emptyLocation : Cells :=
  Function.update initial .agentInfoLocation (.octetString [] (by decide) (by decide))

def negativeSerial : Cells := Function.update initial .agentInfoSerialNo (.integer (-1))

/-- An empty location is lost, and so is a negative number in a `long` of 64 bits. -/
theorem empty_or_negative :
    ¬ Restarts .ilp32 .agentInfo emptyLocation [] ∧
    ¬ Restarts .lp64 .agentInfo negativeSerial [] := by
  constructor
  · intro restarts
    have plain := plain_of_restarts restarts .agentInfoLocation (by decide) rfl [] rfl
    exact plain.1 rfl
  · have plain : ∀ scalar ∈ members .agentInfo, (handler scalar).kind = .octetString → ∀ octets,
        (negativeSerial scalar).value = .octets octets → Plain octets := by
      intro scalar member isString octets holds
      have name : (negativeSerial scalar).value = .octets emptyName := by
        cases scalar <;> first | rfl | exact absurd isString (by decide)
      have declaredName : declared scalar = .octets emptyName := by
        cases scalar <;> first | rfl | exact absurd isString (by decide)
      cases name.symm.trans holds
      exact declared_plain scalar isString emptyName declaredName
    rw [restarts_of_plain plain]
    intro natural
    exact absurd (natural .agentInfoSerialNo (by decide) rfl rfl (-1) rfl) (by decide)

end EveAgent.AgentInfo
