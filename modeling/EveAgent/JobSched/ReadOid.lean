import EveAgent.CText
import EveAgent.CTypes

namespace EveAgent.JobSched.ReadOid

/-- `MAX_OID_LEN` -/
def maxOidLen : Nat := 128

/-- How many bits a `long` has, and with it the type `oid`. -/
inductive DataModel where
  | ilp32
  | lp64
  deriving DecidableEq, Repr

def DataModel.longMax : DataModel → Int
  | .ilp32 => 2 ^ 31 - 1
  | .lp64 => 2 ^ 63 - 1

/-- `sizeof(long)`, and that of a pointer -/
def DataModel.sizeofLong : DataModel → Nat
  | .ilp32 => 4
  | .lp64 => 8

/-- Conversion to `unsigned long`. -/
def DataModel.unsignedLong (model : DataModel) (value : Int) : Int :=
  value % (2 * (model.longMax + 1))

/-- Conversion to `long`. -/
def DataModel.long (model : DataModel) (value : Int) : Int :=
  (value + (model.longMax + 1)) % (2 * (model.longMax + 1)) - (model.longMax + 1)

/-- `strtol`; a number that does not fit becomes the nearest one that does. -/
def DataModel.strtol (model : DataModel) (text : Text) : Int :=
  max (-model.longMax - 1) (min model.longMax (leadingInteger text))

/-- `atoi`, whose result is assigned to an `oid`. -/
def DataModel.component (model : DataModel) (text : Text) : Nat :=
  (i32 (model.strtol text) % (2 * (model.longMax + 1))).toNat

theorem DataModel.longMax_large (model : DataModel) : 2 ^ 31 - 1 ≤ model.longMax := by
  cases model <;> decide

theorem DataModel.unsignedLong_small {model : DataModel} {value : Int} (lower : 0 ≤ value)
    (upper : value ≤ 2 * model.longMax + 1) : model.unsignedLong value = value :=
  Int.emod_eq_of_lt lower (by omega)

theorem DataModel.long_small {model : DataModel} {value : Int}
    (lower : -(model.longMax + 1) ≤ value) (upper : value ≤ model.longMax) :
    model.long value = value := by
  rw [DataModel.long, Int.emod_eq_of_lt (by omega) (by omega)]
  omega

theorem DataModel.long_range (model : DataModel) (value : Int) :
    -model.longMax - 1 ≤ model.long value ∧ model.long value ≤ model.longMax := by
  have large := model.longMax_large
  have lower := Int.emod_nonneg (value + (model.longMax + 1))
    (show 2 * (model.longMax + 1) ≠ 0 by omega)
  have upper := Int.emod_lt_of_pos (value + (model.longMax + 1))
    (show 0 < 2 * (model.longMax + 1) by omega)
  rw [DataModel.long]
  omega

/-- A `long` that was printed is read back. -/
theorem DataModel.strtol_printLd (model : DataModel) (value : Int) :
    model.strtol (printLd (model.long value)) = model.long value := by
  obtain ⟨lower, upper⟩ := model.long_range value
  rw [DataModel.strtol, leadingInteger_printLd]
  omega

/-- The variables of the loop. `temp` are the characters before `temp[i]`, and `writes` is a
history of the subscripts of `temp` that were written. -/
structure OidState where
  temp : Text
  name : List Nat
  writes : List Nat
  deriving DecidableEq, Repr

structure OidResult where
  returned : Nat
  name : List Nat
  nameLen : Option Nat
  writes : List Nat
  deriving DecidableEq, Repr

section Readoid

variable (model : DataModel)

/-- A component is complete: it is ended in the buffer and stored. -/
def OidState.store (s : OidState) : OidState where
  temp := []
  name := s.name ++ [model.component s.temp]
  writes := s.writes ++ [s.temp.length]

/-- `temp[i++] = oidPtr[j]` -/
def OidState.append (s : OidState) (c : Char) : OidState :=
  { s with temp := s.temp ++ [c], writes := s.writes ++ [s.temp.length] }

/-- The rest of the string is read. The length of the component is checked after the write. -/
def readoidFrom : Text → OidState → OidResult
  | [], s => ⟨(s.store model).name.length, (s.store model).name,
      some (s.store model).name.length, (s.store model).writes⟩
  | c :: rest, s =>
    if c = '.' then
      if s.temp ≠ [] then readoidFrom rest (s.store model) else readoidFrom rest s
    else if (s.append c).temp.length > maxOidLen then ⟨0, s.name, none, (s.append c).writes⟩
    else readoidFrom rest (s.append c)

def readoid (oidString : Text) : OidResult := readoidFrom model oidString ⟨[], [], []⟩

end Readoid

def dotted (ids : List UInt32) : Text := ids.flatMap fun id => '.' :: Nat.toDigits 10 id.toNat

/-- An object identifier as `".%ld"` prints it. -/
def signedDotted (model : DataModel) (ids : List UInt32) : Text :=
  ids.flatMap fun id => '.' :: printLd (model.long id.toNat)

/-- The sub-identifier is in the range of a `long`. -/
def DataModel.Holds (model : DataModel) (id : UInt32) : Prop := (id.toNat : Int) ≤ model.longMax

instance (model : DataModel) (id : UInt32) : Decidable (model.Holds id) :=
  inferInstanceAs (Decidable (_ ≤ _))

section Signed

variable {model : DataModel}

theorem DataModel.Holds.printed {id : UInt32} (holds : model.Holds id) :
    printLd (model.long id.toNat) = Nat.toDigits 10 id.toNat := by
  have large := model.longMax_large
  rw [DataModel.long_small (by omega) holds, printLd_natCast]

theorem minus_mem {id : UInt32} (large : ¬model.Holds id) :
    '-' ∈ printLd (model.long id.toNat) := by
  have upper := id.toNat_lt
  have negative : model.long id.toNat < 0 := by
    cases model <;> simp only [DataModel.Holds, DataModel.long, DataModel.longMax] at * <;> omega
  rw [printLd, if_pos negative]
  exact List.mem_cons_self

theorem signedDotted_eq_iff (ids : List UInt32) :
    signedDotted model ids = dotted ids ↔ ∀ id ∈ ids, model.Holds id := by
  constructor
  · intro same id member
    by_contra large
    have minus : '-' ∈ signedDotted model ids :=
      List.mem_flatMap.mpr ⟨id, member, List.mem_cons_of_mem _ (minus_mem large)⟩
    rw [same] at minus
    obtain ⟨other, _, inside⟩ := List.mem_flatMap.mp minus
    rcases List.mem_cons.mp inside with dot | digit
    · revert dot
      decide
    · exact absurd (Nat.isDigit_of_mem_toDigits (by decide) (by decide) digit) (by decide)
  · intro holds
    apply List.flatMap_congr
    intro id member
    rw [(holds id member).printed]

end Signed

/-- An object identifier in dotted decimal, with or without a leading dot. -/
def rendered (leading : Bool) (ids : List UInt32) : Text :=
  if leading then dotted ids else (dotted ids).drop 1

/-- The number of components is returned, and they are stored. -/
structure ReadsBack (model : DataModel) (leading : Bool) (ids : List UInt32) : Prop where
  returned : (readoid model (rendered leading ids)).returned = ids.length
  length : (readoid model (rendered leading ids)).nameLen = some ids.length
  stored : (readoid model (rendered leading ids)).name = ids.map UInt32.toNat

/-- `temp` has `MAX_OID_LEN + 1` characters. -/
def WithinTemp (model : DataModel) (oidString : Text) : Prop :=
  ∀ subscript ∈ (readoid model oidString).writes, subscript < maxOidLen + 1

section Buffer

variable {model : DataModel} {s : OidState}

theorem readoidFrom_within (text : Text) (room : s.temp.length ≤ maxOidLen)
    (before : ∀ subscript ∈ s.writes, subscript < maxOidLen + 1) :
    ∀ subscript ∈ (readoidFrom model text s).writes, subscript < maxOidLen + 1 := by
  have next : ∀ subscript ∈ s.writes ++ [s.temp.length], subscript < maxOidLen + 1 := by
    rw [List.forall_mem_append, List.forall_mem_singleton]
    exact ⟨before, Nat.lt_succ_of_le room⟩
  induction text generalizing s with
  | nil => exact next
  | cons c rest ih =>
    have again : ∀ {t : OidState}, t.temp.length ≤ maxOidLen →
        (∀ subscript ∈ t.writes, subscript < maxOidLen + 1) →
        ∀ subscript ∈ (readoidFrom model rest t).writes, subscript < maxOidLen + 1 := by
      intro t fits written
      apply ih fits written
      rw [List.forall_mem_append, List.forall_mem_singleton]
      exact ⟨written, Nat.lt_succ_of_le fits⟩
    rw [readoidFrom]
    split
    · split
      · exact again (Nat.zero_le _) next
      · exact again room before
    · split
      · exact next
      · rename_i short
        exact again (Nat.le_of_not_lt short) next

end Buffer

section Components

variable {model : DataModel} {s : OidState}

def OidState.pending (model : DataModel) (s : OidState) : List Nat :=
  if s.temp ≠ [] then s.name ++ [model.component s.temp] else s.name

theorem readoidFrom_digits (model : DataModel) (s : OidState) (digits rest : Text)
    (noDot : ∀ c ∈ digits, c ≠ '.') (fits : s.temp.length + digits.length ≤ maxOidLen) :
    ∃ writes, readoidFrom model (digits ++ rest) s =
      readoidFrom model rest ⟨s.temp ++ digits, s.name, writes⟩ := by
  induction digits generalizing s with
  | nil =>
    use s.writes
    rw [List.nil_append, List.append_nil]
  | cons c digits ih =>
    rw [List.length_cons] at fits
    have length : (s.append c).temp.length = s.temp.length + 1 := by
      simp [OidState.append]
    obtain ⟨writes, read⟩ := ih (s.append c)
      (fun later member => noDot later (List.mem_cons_of_mem _ member)) (by omega)
    use writes
    rw [List.cons_append, readoidFrom, if_neg (noDot c List.mem_cons_self), if_neg (by omega), read]
    simp [OidState.append]

theorem readoidFrom_dot (model : DataModel) (s : OidState) (rest : Text) :
    ∃ writes, readoidFrom model ('.' :: rest) s =
      readoidFrom model rest ⟨[], s.pending model, writes⟩ := by
  rw [readoidFrom, if_pos rfl, OidState.pending]
  split
  · exact ⟨_, rfl⟩
  · rename_i empty
    rw [not_not] at empty
    use s.writes
    rw [← empty]

theorem digits_noDot (number : Nat) : ∀ c ∈ Nat.toDigits 10 number, c ≠ '.' := by
  intro c member dot
  have digit := Nat.isDigit_of_mem_toDigits (by decide) (by decide) member
  rw [dot] at digit
  exact absurd digit (by decide)

theorem digits_short (id : UInt32) : (Nat.toDigits 10 id.toNat).length ≤ maxOidLen := by
  have bound := id.toNat_lt
  have few : (Nat.toDigits 10 id.toNat).length ≤ 10 := by
    rw [Nat.length_toDigits_le_iff (by decide) (by decide)]
    omega
  exact few.trans (by decide)

/-- What `readoid` makes of a component. -/
def DataModel.value (model : DataModel) (id : UInt32) : Nat :=
  model.component (Nat.toDigits 10 id.toNat)

theorem readoidFrom_dotted (model : DataModel) (s : OidState) (ids : List UInt32)
    (collected : s.temp ≠ []) :
    ∃ writes, readoidFrom model (dotted ids) s =
      ⟨(s.pending model ++ ids.map model.value).length, s.pending model ++ ids.map model.value,
        some (s.pending model ++ ids.map model.value).length, writes⟩ := by
  induction ids generalizing s with
  | nil =>
    use (s.store model).writes
    rw [OidState.pending, if_pos collected, List.map_nil, List.append_nil]
    rfl
  | cons id ids ih =>
    have split : dotted (id :: ids) = '.' :: (Nat.toDigits 10 id.toNat ++ dotted ids) := rfl
    obtain ⟨atDot, dot⟩ := readoidFrom_dot model s (Nat.toDigits 10 id.toNat ++ dotted ids)
    obtain ⟨atEnd, digits⟩ := readoidFrom_digits model ⟨[], s.pending model, atDot⟩
      (Nat.toDigits 10 id.toNat) (dotted ids) (digits_noDot _) (by simpa using digits_short id)
    rw [List.nil_append] at digits
    obtain ⟨writes, rest⟩ := ih ⟨Nat.toDigits 10 id.toNat, s.pending model, atEnd⟩
      Nat.toDigits_ne_nil
    use writes
    rw [split, dot, digits, rest]
    simp [OidState.pending, DataModel.value, Nat.toDigits_ne_nil]

theorem readoid_rendered (model : DataModel) (leading : Bool) (ids : List UInt32)
    (nonempty : ids ≠ []) :
    ∃ writes, readoid model (rendered leading ids) =
      ⟨ids.length, ids.map model.value, some ids.length, writes⟩ := by
  obtain ⟨id, rest, rfl⟩ := List.exists_cons_of_ne_nil nonempty
  have bare : ∀ before, ∃ writes,
      readoidFrom model (Nat.toDigits 10 id.toNat ++ dotted rest) ⟨[], [], before⟩ =
        ⟨(id :: rest).length, (id :: rest).map model.value, some (id :: rest).length,
          writes⟩ := by
    intro before
    obtain ⟨atEnd, digits⟩ := readoidFrom_digits model ⟨[], [], before⟩
      (Nat.toDigits 10 id.toNat) (dotted rest) (digits_noDot _) (by simpa using digits_short id)
    rw [List.nil_append] at digits
    obtain ⟨writes, stored⟩ := readoidFrom_dotted model ⟨Nat.toDigits 10 id.toNat, [], atEnd⟩
      rest Nat.toDigits_ne_nil
    use writes
    rw [digits, stored]
    simp [OidState.pending, DataModel.value, Nat.toDigits_ne_nil]
  cases leading with
  | true =>
    have split : rendered true (id :: rest) =
        '.' :: (Nat.toDigits 10 id.toNat ++ dotted rest) := rfl
    obtain ⟨atDot, dot⟩ := readoidFrom_dot model ⟨[], [], []⟩
      (Nat.toDigits 10 id.toNat ++ dotted rest)
    rw [readoid, split, dot]
    exact bare atDot
  | false => exact bare []

end Components

section Values

theorem value_eq_iff (model : DataModel) (id : UInt32) :
    model.value id = id.toNat ↔ id.toNat < 2 ^ 31 := by
  have bound := id.toNat_lt
  have printed := leadingInteger_printLd (id.toNat : Int)
  rw [printLd, if_neg (by omega), Int.natAbs_natCast] at printed
  rw [DataModel.value, DataModel.component, DataModel.strtol, printed]
  cases model <;> simp only [DataModel.longMax, i32] <;> omega

theorem map_value_eq_iff (model : DataModel) (ids : List UInt32) :
    ids.map model.value = ids.map UInt32.toNat ↔ ∀ id ∈ ids, id.toNat < 2 ^ 31 := by
  rw [List.map_inj_left]
  constructor
  · intro same id member
    exact (value_eq_iff model id).mp (same id member)
  · intro small id member
    exact (value_eq_iff model id).mpr (small id member)

end Values

/-- The buffer is never left, and an object identifier is read back exactly if each of its
components is below `2 ^ 31`. -/
theorem readoid_rendered_iff (model : DataModel) (leading : Bool) (ids : List UInt32)
    (nonempty : ids ≠ []) :
    (∀ oidString, WithinTemp model oidString) ∧
      (ReadsBack model leading ids ↔ ∀ id ∈ ids, id.toNat < 2 ^ 31) := by
  constructor
  · intro oidString
    apply readoidFrom_within
    · exact Nat.zero_le _
    · intro subscript member
      cases member
  · obtain ⟨writes, read⟩ := readoid_rendered model leading ids nonempty
    rw [← map_value_eq_iff model]
    constructor
    · intro back
      have stored := back.stored
      rw [read] at stored
      exact stored
    · intro same
      constructor
      · rw [read]
      · rw [read]
      · rw [read]
        exact same

theorem readoid_rendered_two :
    (∀ oidString, WithinTemp .lp64 oidString) ∧
      (ReadsBack .lp64 true [1, 3] ↔ ∀ id ∈ [(1 : UInt32), 3], id.toNat < 2 ^ 31) :=
  readoid_rendered_iff .lp64 true [1, 3] (by decide)

/-- The component 2147483648 is not read back. -/
theorem readoid_large : ¬ ∀ (model : DataModel) (leading : Bool) (ids : List UInt32), ids ≠ [] →
    ids.length ≤ 64 → (rendered leading ids).length < maxOidLen →
    (∀ oidString, WithinTemp model oidString) ∧ ReadsBack model leading ids := by
  intro always
  have back := (always .lp64 true [2147483648] (by decide) (by decide) (by decide)).2
  have stored := back.stored
  obtain ⟨writes, read⟩ := readoid_rendered .lp64 true [2147483648] (by decide)
  rw [read] at stored
  have small := (map_value_eq_iff .lp64 [2147483648]).mp stored 2147483648 List.mem_cons_self
  exact absurd small (by decide)

end EveAgent.JobSched.ReadOid
