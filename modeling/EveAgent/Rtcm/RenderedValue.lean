import EveAgent.BoundedText
import EveAgent.Rtcm.TrapMonitor

namespace EveAgent.Rtcm.RenderedValue

open JobSched.ReadOid (DataModel signedDotted signedDotted_eq_iff)

section Buffers

/-- The sizes of `ulVal`, `szValStr`, `szVarStr`, and of `str` and `tmp_str`. -/
def ulValSize : Nat := 256

def szValSize : Nat := 80

def szVarSize : Nat := 128

def strSize : Nat := 255

end Buffers

section Values

/-- A number as it is returned: its length, and the memory that begins with it. -/
structure Number where
  varLen : Nat
  ucAccess : Nat → UInt8
  varLen_mem : varLen ∈ [1, 2, 4, 8]

def Number.octets (number : Number) (length : Nat) : List UInt8 :=
  (List.range length).map number.ucAccess

/-- `*(u_long *) ucAccess` -/
def Number.ulong (model : DataModel) (number : Number) : Nat :=
  littleEndian (number.octets model.sizeofLong)

/-- What the access function of a variable returns, by the type of the variable. -/
inductive Value where
  | integer (number : Number)
  | timeTicks (number : Number)
  | unsigned (number : Number)
  | ipAddress (a b c d : UInt8)
  | objectId (ids : List UInt32)
  | octetStr (octets : List UInt8)
  | other (number : Number)

def printable (octets : List UInt8) : Bool :=
  octets.all fun octet => !(decide (octet < 32) || decide (octet > 126))

/-- The digit of the format `%X`. -/
def hexDigit (digit : Nat) : Char := (Nat.digitChar digit).toUpper

/-- The format `%02X` for an octet. -/
def printHex (octet : UInt8) : Text := [hexDigit (octet.toNat / 16), hexDigit (octet.toNat % 16)]

def inetNtoa (a b c d : UInt8) : Text :=
  Nat.toDigits 10 a.toNat ++ '.' :: Nat.toDigits 10 b.toNat ++ '.' :: Nat.toDigits 10 c.toNat ++
    '.' :: Nat.toDigits 10 d.toNat

/-- Sub-identifiers in memory, in steps of four octets. -/
def words (model : DataModel) (ids : List UInt32) : List UInt32 :=
  match model with
  | .ilp32 => ids
  | .lp64 => ids.flatMap fun id => [id, 0]

/-- The switch of `RTC_Fetch_Var_Val`. A string of printable characters is copied without an end,
to an array of zeros; `"%d"` shows the low half of a longer `long`. -/
def Value.print (model : DataModel) : Value → Attempt Nat Text
  | .integer number | .timeTicks number | .other number =>
    sprintf ulValSize (printLd (model.long (number.ulong model)))
  | .unsigned number => sprintf ulValSize (Nat.toDigits 10 (number.ulong model))
  | .ipAddress a b c d => sprintf ulValSize (inetNtoa a b c d)
  | .objectId ids => do
      let str ← concatenate strSize strSize []
        ((words model ids).map fun word => '.' :: printLd (i32 word.toNat))
      sprintf ulValSize str
  | .octetStr octets =>
    if printable octets = true then
      if octets.length ≤ ulValSize then .ok (textOf octets) else .error .fault
    else do
      let str ← concatenate strSize strSize [] (octets.map printHex)
      sprintf ulValSize str

/-- The subtree of the variable: whether its handler is the one of the old interface, and what
the access function of its variable returns. -/
structure Subtree where
  oldApi : Bool
  pstVarPtr : Option (Option Value)

def rtcFetchVarVal (model : DataModel) (pstSPtr : Subtree) : Attempt Nat Text :=
  if !pstSPtr.oldApi then refuse 3
  else
    match pstSPtr.pstVarPtr with
    | none => refuse 1
    | some none => refuse 2
    | some (some ucAccess) => ucAccess.print model

def logLine (szTimeStr szVarStr szValStr : Text) : Text :=
  szTimeStr ++ ' ' :: ' ' :: (szVarStr ++ ' ' :: ' ' :: (szValStr ++ ['\n']))

/-- `if (iErr) return 1` -/
def returnOne {α : Type} : Attempt Nat α → Attempt Nat α
  | .error (.refused _) => refuse 1
  | other => other

/-- The part of the function up to the line that is written to the log file. -/
def rtcRetrieveLogVariable (model : DataModel) (pstFound : Option (List UInt32))
    (pstSPtr : Subtree) (szTimeStr : Text) : Attempt Nat Text :=
  match pstFound with
  | none => refuse 1
  | some collectDataVariable => do
      let szVarStr ← concatenate szValSize szVarSize []
        (collectDataVariable.map fun id => '.' :: Nat.toDigits 10 id.toNat)
      let ulVal ← returnOne (rtcFetchVarVal model pstSPtr)
      let szValStr ← sprintf szValSize ulVal
      return logLine szTimeStr szVarStr szValStr

end Values

section Property

/-- The number of its own length, without and with a sign. -/
def Number.value (number : Number) : Nat := littleEndian (number.octets number.varLen)

def Number.signedValue (number : Number) : Int := signed (8 * number.varLen) number.value

/-- Decimal, dotted, the printable string itself, or two hexadecimal digits for each octet. -/
def Value.rendering : Value → Text
  | .integer number | .other number => printLd number.signedValue
  | .timeTicks number | .unsigned number => Nat.toDigits 10 number.value
  | .ipAddress a b c d => inetNtoa a b c d
  | .objectId ids => oidText ids
  | .octetStr octets => if printable octets = true then textOf octets else octets.flatMap printHex

def Subtree.value (subtree : Subtree) : Option Value :=
  if subtree.oldApi = true then subtree.pstVarPtr.join else none

/-- The memory holds the value as a `long`, or the sub-identifiers in steps of four octets. -/
def Value.Held (model : DataModel) : Value → Prop
  | .integer number | .other number => model.long (number.ulong model) = number.signedValue
  | .timeTicks number => model.long (number.ulong model) = number.value
  | .unsigned number => number.ulong model = number.value
  | .objectId ids =>
    match model with
    | .ilp32 => ∀ id ∈ ids, model.Holds id
    | .lp64 => ids = []
  | .ipAddress _ _ _ _ | .octetStr _ => True

/-- The value is shown in `szValStr`. -/
def Value.Fits (model : DataModel) (value : Value) : Prop :=
  value.rendering.length < szValSize ∧ value.Held model

end Property

section Numbers

theorem littleEndian_lt (octets : List UInt8) : littleEndian octets < 2 ^ (8 * octets.length) := by
  induction octets with
  | nil => exact Nat.one_pos
  | cons octet octets ih =>
    have first := octet.toNat_lt
    have split : 2 ^ (8 * (octet :: octets).length) = 256 * 2 ^ (8 * octets.length) := by
      rw [List.length_cons, Nat.mul_add, Nat.pow_add]
      omega
    rw [littleEndian, split]
    omega

theorem octets_lt (number : Number) {length : Nat} (short : length ≤ 8) :
    littleEndian (number.octets length) < 2 ^ 64 := by
  have bound := littleEndian_lt (number.octets length)
  rw [Number.octets, List.length_map, List.length_range] at bound
  exact bound.trans_le (Nat.pow_le_pow_right Nat.two_pos (by omega))

theorem Number.value_lt (number : Number) : number.value < 2 ^ 64 := by
  apply octets_lt
  have known := number.varLen_mem
  simp only [List.mem_cons, List.not_mem_nil, or_false] at known
  omega

theorem Number.ulong_lt (number : Number) (model : DataModel) : number.ulong model < 2 ^ 64 := by
  apply octets_lt
  cases model <;> decide

theorem digits_length {value : Nat} (small : value < 2 ^ 64) :
    (Nat.toDigits 10 value).length ≤ 20 := by
  rw [Nat.length_toDigits_le_iff (by decide) (by decide)]
  exact small.trans (by decide)

theorem printLd_short {value : Int} (lower : -2 ^ 64 < value) (upper : value < 2 ^ 64) :
    (printLd value).length ≤ 21 := by
  have digits := @digits_length value.natAbs (by omega)
  rw [printLd]
  split
  · rw [List.length_cons]
    omega
  · omega

theorem long_length (model : DataModel) (value : Int) :
    (printLd (model.long value)).length ≤ 21 := by
  have range := model.long_range value
  apply printLd_short <;> cases model <;> simp only [DataModel.longMax] at range <;> omega

theorem Number.signedValue_length (number : Number) : (printLd number.signedValue).length ≤ 21 := by
  have known := number.varLen_mem
  simp only [List.mem_cons, List.not_mem_nil, or_false] at known
  apply printLd_short <;> unfold signedValue signed <;>
    rcases known with same | same | same | same <;> rw [same] <;> omega

theorem word_length (value : UInt32) : (printLd (i32 value.toNat)).length ≤ 11 := by
  have range := i32_range value.toNat
  exact printLd_length range.1 (by omega)

theorem octet_length (octet : UInt8) : (Nat.toDigits 10 octet.toNat).length ≤ 3 := by
  rw [Nat.length_toDigits_le_iff (by decide) (by decide)]
  exact octet.toNat_lt.trans (by decide)

theorem inetNtoa_length (a b c d : UInt8) : (inetNtoa a b c d).length ≤ 15 := by
  have first := octet_length a
  have second := octet_length b
  have third := octet_length c
  have fourth := octet_length d
  simp only [inetNtoa, List.length_append, List.length_cons]
  omega

end Numbers

section Writes

variable {post : Text → Prop} {refusal : Nat → Prop}

end Writes

section Shown

variable {value : Value}

theorem dots_digits (number : Nat) : (Nat.toDigits 10 number).count '.' = 0 := by
  rw [List.count_eq_zero]
  intro member
  exact absurd (Nat.isDigit_of_mem_toDigits (by decide) (by decide) member) (by decide)

theorem dots_printLd (value : Int) : (printLd value).count '.' = 0 := by
  rw [printLd]
  split
  · rw [List.count_cons_of_ne (by decide), dots_digits]
  · exact dots_digits _

theorem dots_signedDotted (model : DataModel) (ids : List UInt32) :
    (signedDotted model ids).count '.' = ids.length := by
  induction ids with
  | nil => rfl
  | cons id ids ih =>
    rw [signedDotted, List.flatMap_cons, List.count_append, List.count_cons_self, dots_printLd]
    rw [signedDotted] at ih
    rw [ih, List.length_cons]
    omega

theorem dots_oidText (ids : List UInt32) : (oidText ids).count '.' = ids.length := by
  induction ids with
  | nil => rfl
  | cons id ids ih =>
    rw [oidText, List.flatMap_cons, List.count_append, List.count_cons_self, dots_digits]
    rw [oidText] at ih
    rw [ih, List.length_cons]
    omega

theorem words_eq_iff (model : DataModel) (ids : List UInt32) :
    signedDotted .ilp32 (words model ids) = oidText ids ↔ (Value.objectId ids).Held model := by
  cases model with
  | ilp32 => exact signedDotted_eq_iff ids
  | lp64 =>
    constructor
    · intro same
      have dots := congrArg (List.count '.') same
      have twice : (words .lp64 ids).length = ids.length * 2 := by
        rw [words, List.length_flatMap]
        simp
      rw [dots_signedDotted, dots_oidText, twice] at dots
      exact List.eq_nil_of_length_eq_zero (by omega)
    · intro held
      have empty : ids = [] := held
      rw [empty, words, List.flatMap_nil, signedDotted, List.flatMap_nil, oidText, List.flatMap_nil]

variable {model : DataModel}

/-- The access function's value ends up in `szValStr` as it is rendered. -/
def Shown (model : DataModel) (value : Value) : Prop :=
  EveAgent.Meets (fun text => text.length < szValSize ∧ text = value.rendering) (fun _ => False)
    (value.print model)

theorem shown_objectId (ids : List UInt32) :
    Shown model (.objectId ids) ↔ (Value.objectId ids).Fits model := by
  have pieces : ∀ piece ∈ (words model ids).map fun word => '.' :: printLd (i32 word.toNat),
      piece.length < strSize := by
    intro piece member
    obtain ⟨id, _, rfl⟩ := List.mem_map.mp member
    have digits := word_length id
    rw [List.length_cons, strSize]
    omega
  have flat : ((words model ids).map fun word => '.' :: printLd (i32 word.toNat)).flatten =
      signedDotted .ilp32 (words model ids) := by
    rw [signedDotted, List.flatMap_def]
    simp only [long_ilp32]
  rw [Shown, Value.print, meets_bind, meets_concatenate pieces (by decide), meets_sprintf,
    List.nil_append, flat, Value.Fits, Value.rendering, ← words_eq_iff]
  constructor
  · intro meets
    obtain ⟨_, _, short, same⟩ := meets
    exact ⟨same ▸ short, same⟩
  · intro fits
    obtain ⟨short, same⟩ := fits
    rw [same]
    rw [szValSize] at short
    rw [strSize, ulValSize, szValSize]
    exact ⟨by omega, by omega, short, rfl⟩

theorem shown_octetStr (octets : List UInt8) :
    Shown model (.octetStr octets) ↔ (Value.octetStr octets).Fits model := by
  rw [Shown, Value.print, Value.Fits, Value.rendering]
  by_cases text : printable octets = true
  · rw [if_pos text, if_pos text]
    by_cases fits : octets.length ≤ ulValSize
    · rw [if_pos fits, meets_ok]
      exact ⟨fun meets => ⟨meets.1, trivial⟩, fun fits => ⟨fits.1, rfl⟩⟩
    · rw [if_neg fits]
      have long : ¬(textOf octets).length < szValSize := by
        rw [textOf_length, szValSize]
        rw [ulValSize] at fits
        omega
      simp [long]
  · have pieces : ∀ piece ∈ octets.map printHex, piece.length < strSize := by
      intro piece member
      obtain ⟨octet, _, rfl⟩ := List.mem_map.mp member
      have two : (printHex octet).length = 2 := rfl
      rw [two]
      decide
    have flat : (octets.map printHex).flatten = octets.flatMap printHex := rfl
    rw [if_neg text, if_neg text, meets_bind, meets_concatenate pieces (by decide),
      meets_sprintf, List.nil_append, flat, strSize, ulValSize, szValSize]
    constructor
    · intro meets
      exact ⟨meets.2.2.1, trivial⟩
    · intro fits
      obtain ⟨short, _⟩ := fits
      exact ⟨by omega, by omega, short, rfl⟩

theorem shown_printed {text : Text} (short : text.length ≤ 21) (rendering : Text) :
    EveAgent.Meets (fun text => text.length < szValSize ∧ text = rendering) (fun _ => False)
        (sprintf ulValSize text : Attempt Nat Text) ↔ text = rendering := by
  rw [meets_sprintf, ulValSize, szValSize]
  constructor
  · exact fun meets => meets.2.2
  · exact fun same => ⟨by omega, by omega, same⟩

theorem fits_short (short : value.rendering.length ≤ 21) : value.Fits model ↔ value.Held model := by
  rw [Value.Fits, szValSize]
  exact ⟨fun fits => fits.2, fun rest => ⟨by omega, rest⟩⟩

theorem shown_iff (value : Value) : Shown model value ↔ value.Fits model := by
  cases value with
  | integer number | other number =>
    have short := number.signedValue_length
    rw [fits_short (by rw [Value.rendering]; exact short), Shown, Value.print,
      shown_printed (long_length model _)]
    exact printLd_inj
  | timeTicks number =>
    have digits := digits_length number.value_lt
    rw [fits_short (by rw [Value.rendering]; omega), Shown, Value.print,
      shown_printed (long_length model _), Value.rendering, ← printLd_natCast]
    exact printLd_inj
  | unsigned number =>
    have digits := digits_length number.value_lt
    have printed := digits_length (number.ulong_lt model)
    rw [fits_short (by rw [Value.rendering]; omega), Shown, Value.print,
      shown_printed (by omega), Value.rendering, ← printLd_natCast, ← printLd_natCast,
      printLd_inj, Int.natCast_inj]
    rfl
  | ipAddress a b c d =>
    have short := inetNtoa_length a b c d
    rw [fits_short (by rw [Value.rendering]; omega), Shown, Value.print,
      shown_printed (by omega)]
    exact ⟨fun _ => trivial, fun _ => rfl⟩
  | objectId ids => exact shown_objectId ids
  | octetStr octets => exact shown_octetStr octets

end Shown

section Lines

end Lines

end EveAgent.Rtcm.RenderedValue
