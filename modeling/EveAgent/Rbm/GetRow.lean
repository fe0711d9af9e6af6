import EveAgent.JobSched.ReadOid
import EveAgent.Overlay

/-! `RBM_SNMP_Get_Row`: the object ids that are put into the request, and the columns into which
the answers are copied. -/

namespace EveAgent.Rbm.GetRow

open JobSched.ReadOid (DataModel dotted signedDotted signedDotted_eq_iff)

abbrev Oid := List UInt32

/-- `MAX_OID_LEN`: the characters of `szVariable` and of `szValue`, and the numbers of `anOID`. -/
def maxOidLen : Nat := 128

/-- `sizeof (str)` -/
def strSize : Nat := 80

def nul : Char := '\x00'

/-- `read_objid`, which is given the room in its array and leaves the numbers that it put there: all
of them, or as many as there was room for. -/
structure ReadObjid where
  means : Text → Option Oid
  read : Text → Nat → Bool × Oid
  succeeds : ∀ {text oid room}, means text = some oid → oid.length ≤ room →
    read text room = (true, oid)
  fails : ∀ {text oid room}, means text = some oid → room < oid.length →
    (read text room).1 = false ∧ (read text room).2.length ≤ room

inductive Value where
  | integer (value : Int32)
  | unsigned (value : UInt32)
  | ipAddress (value : UInt32)
  | objectId (oid : Oid)
  | octetStr (bytes : Text)
  | other
  deriving DecidableEq, Repr

structure Varbind where
  name : Oid
  value : Value
  deriving DecidableEq, Repr

/-- A copy to `pstList[entry].szValue` for a varbind. -/
structure Store where
  varbind : Nat
  entry : Int
  length : Nat
  deriving DecidableEq, Repr

/-- `values` are the arrays `szValue`. The number of the varbind, the copies and the lengths of the
texts in `str` are histories. -/
structure Row where
  values : List Text
  sTmpCnt : Int
  number : Nat
  stores : List Store
  strs : List Nat
  deriving DecidableEq, Repr

section Request

variable (lib : ReadObjid)

/-- The loop that fills the request; `anOID_len` is what the call before left in it. -/
def fillRequest : Nat → List Text → List Oid
  | _, [] => []
  | anOID_len, szVariable :: rest =>
    (lib.read szVariable anOID_len).2 ::
      fillRequest (lib.read szVariable anOID_len).2.length rest

end Request

section Response

variable (model : DataModel)

/-- The text that the loops over `".%ld"` put together. -/
def oidText (oid : Oid) : Text := signedDotted model oid

/-- The format `"%lu"`. -/
def printLu (value : UInt32) : Text := Nat.toDigits 10 value.toNat

/-- `strcpy` or `memcpy` to `pstList[sTmpCnt++].szValue`. -/
def Row.copy (row : Row) (bytes : Text) : Row :=
  { row with
    values := if row.sTmpCnt < 0 then row.values
      else row.values.modify row.sTmpCnt.toNat fun buffer => overlay buffer bytes
    stores := row.stores ++ [⟨row.number, row.sTmpCnt, bytes.length⟩]
    sTmpCnt := i16 (row.sTmpCnt + 1) }

def Row.inStr (row : Row) (text : Text) : Row :=
  { row with strs := row.strs ++ [text.length] }

def Row.switch (row : Row) : Value → Row
  | .integer value => row.copy (printLd value.toInt ++ [nul])
  | .unsigned value => row.copy (printLu value ++ [nul])
  | .ipAddress value => row.copy (printLu value ++ [nul])
  | .objectId oid => (row.inStr (oidText model oid)).copy (oidText model oid ++ [nul])
  | .octetStr bytes => row.copy (bytes.take 255)
  | .other => row

def Row.varbind (row : Row) (vars : Varbind) : Row :=
  let row := (row.inStr (oidText model vars.name)).switch model vars.value
  { row with number := row.number + 1 }

/-- The loop over the variables of the response. -/
def getRow (values : List Text) (response : List Varbind) : Row :=
  response.foldl (Row.varbind model) ⟨values, 0, 0, [], []⟩

/-- What the varbind is shown as; a value of another type is not shown. -/
def rendering : Value → Option Text
  | .integer value => some (printLd value.toInt)
  | .unsigned value => some (printLu value)
  | .ipAddress value => some (printLu value)
  | .objectId oid => some (dotted oid)
  | .octetStr bytes => some (bytes.takeWhile (· ≠ nul))
  | .other => none

/-- The array holds what the varbind is shown as, or what it held before. -/
def Shows (before after : Text) (value : Value) : Prop :=
  match rendering value with
  | none => after = before
  | some text => ∃ rest, after = text ++ nul :: rest

end Response

/-- No varbind leaves its own entry or the buffer `str`, and each entry shows its varbind. -/
structure Lands (values : List Text) (response : List Varbind) (row : Row) : Prop where
  own : ∀ store ∈ row.stores, store.entry = store.varbind ∧ store.length ≤ maxOidLen
  str : ∀ length ∈ row.strs, length < strSize
  shown : ∀ (i : Nat) (vars : Varbind) (before : Text), response[i]? = some vars →
    values[i]? = some before → ∃ after, row.values[i]? = some after ∧
      Shows before after vars.value
  others : ∀ i, response.length ≤ i → row.values[i]? = values[i]?

/-- The value fits its entry and its text fits `str`; a text of octets needs an end in the array. -/
def ValueFits (model : DataModel) (before : Text) : Value → Prop
  | .objectId oid => (dotted oid).length < strSize ∧ ∀ id ∈ oid, model.Holds id
  | .octetStr bytes => bytes.length ≤ maxOidLen ∧
      (nul ∈ bytes ∨ before[bytes.length]? = some nul)
  | _ => True

/-- A varbind lands in its column: its name fits `str`, its value fits, and it is not behind one of
another type. -/
structure Fits (model : DataModel) (values : List Text) (response : List Varbind) : Prop where
  name : ∀ vars ∈ response, (oidText model vars.name).length < strSize
  value : ∀ (i : Nat) (vars : Varbind) (before : Text), response[i]? = some vars →
    values[i]? = some before → ValueFits model before vars.value
  order : ∀ (i : Nat) (vars : Varbind), response[i]? = some vars → vars.value ≠ .other →
    i < 2 ^ 15 ∧ ∀ (j : Nat) (earlier : Varbind), j < i → response[j]? = some earlier →
      earlier.value ≠ .other

section Copies

def copied (model : DataModel) : Value → Option Text
  | .integer value => some (printLd value.toInt ++ [nul])
  | .unsigned value => some (printLu value ++ [nul])
  | .ipAddress value => some (printLu value ++ [nul])
  | .objectId oid => some (oidText model oid ++ [nul])
  | .octetStr bytes => some (bytes.take 255)
  | .other => none

/-- The texts that are put together in `str` for a value. -/
def strTexts (model : DataModel) : Value → List Nat
  | .objectId oid => [(oidText model oid).length]
  | _ => []

variable {model : DataModel} {value : Value} {vars : Varbind} {before bytes : Text}

theorem varbind_strs (model : DataModel) (row : Row) (vars : Varbind) :
    (row.varbind model vars).strs =
      row.strs ++ ((oidText model vars.name).length :: strTexts model vars.value) := by
  rw [Row.varbind]
  cases vars.value <;> simp [Row.switch, Row.copy, Row.inStr, strTexts]

theorem varbind_number (model : DataModel) (row : Row) (vars : Varbind) :
    (row.varbind model vars).number = row.number + 1 := by
  rw [Row.varbind]
  cases vars.value <;> rfl

theorem varbind_copied (row : Row) (copy : copied model vars.value = some bytes) :
    (row.varbind model vars).values = (if row.sTmpCnt < 0 then row.values
      else row.values.modify row.sTmpCnt.toNat fun buffer => overlay buffer bytes) ∧
    (row.varbind model vars).stores = row.stores ++ [⟨row.number, row.sTmpCnt, bytes.length⟩] ∧
    (row.varbind model vars).sTmpCnt = i16 (row.sTmpCnt + 1) := by
  rw [Row.varbind]
  cases kind : vars.value <;> rw [kind] at copy <;> cases copy <;> exact ⟨rfl, rfl, rfl⟩

theorem varbind_other (row : Row) (other : vars.value = .other) :
    (row.varbind model vars).values = row.values ∧ (row.varbind model vars).stores = row.stores ∧
      (row.varbind model vars).sTmpCnt = row.sTmpCnt := by
  rw [Row.varbind, other]
  exact ⟨rfl, rfl, rfl⟩

theorem copied_of_supported (supported : value ≠ .other) :
    ∃ bytes, copied model value = some bytes := by
  cases value with
  | other => exact absurd rfl supported
  | integer value => exact ⟨_, rfl⟩
  | unsigned value => exact ⟨_, rfl⟩
  | ipAddress value => exact ⟨_, rfl⟩
  | objectId oid => exact ⟨_, rfl⟩
  | octetStr bytes => exact ⟨_, rfl⟩

theorem overlay_text (before text : Text) :
    overlay before (text ++ [nul]) = text ++ nul :: before.drop (text ++ [nul]).length := by
  rw [overlay, List.append_assoc, List.singleton_append]

theorem printLd_short (value : Int32) : (printLd value.toInt).length ≤ 11 := by
  have low := value.le_toInt
  have high := value.toInt_lt
  have few : (Nat.toDigits 10 value.toInt.natAbs).length ≤ 10 := by
    rw [Nat.length_toDigits_le_iff (by decide) (by decide)]
    omega
  rw [printLd]
  split
  · rw [List.length_cons]
    omega
  · omega

theorem printLu_short (value : UInt32) : (printLu value).length ≤ 10 := by
  have high := value.toNat_lt
  rw [printLu, Nat.length_toDigits_le_iff (by decide) (by decide)]
  omega

theorem octets_shown_iff :
    (∃ rest, overlay before bytes = bytes.takeWhile (· ≠ nul) ++ nul :: rest) ↔
      nul ∈ bytes ∨ before[bytes.length]? = some nul := by
  have parts : bytes.takeWhile (· ≠ nul) ++ bytes.dropWhile (· ≠ nul) = bytes :=
    List.takeWhile_append_dropWhile
  by_cases ends : nul ∈ bytes
  · have tail : ∃ rest, bytes.dropWhile (· ≠ nul) = nul :: rest := by
      cases rest : bytes.dropWhile (· ≠ nul) with
      | nil =>
        have all := List.dropWhile_eq_nil_iff.mp rest nul ends
        simp at all
      | cons c rest' =>
        have stops := List.head?_dropWhile_not (· ≠ nul) bytes
        rw [rest] at stops
        have same : c = nul := by simpa using stops
        rw [same]
        exact ⟨rest', rfl⟩
    obtain ⟨rest, tail⟩ := tail
    constructor
    · intro _
      exact .inl ends
    · intro _
      use rest ++ before.drop bytes.length
      calc
        overlay before bytes = bytes ++ before.drop bytes.length := rfl
        _ = bytes.takeWhile (· ≠ nul) ++ bytes.dropWhile (· ≠ nul) ++
            before.drop bytes.length := by rw [parts]
        _ = bytes.takeWhile (· ≠ nul) ++ nul :: (rest ++ before.drop bytes.length) := by
          rw [tail, List.append_assoc, List.cons_append]
  · have all : bytes.takeWhile (· ≠ nul) = bytes := by
      rw [List.takeWhile_eq_self_iff]
      intro c member
      have differs : c ≠ nul := fun same => ends (same ▸ member)
      simpa using differs
    rw [all]
    constructor
    · intro shown
      obtain ⟨rest, shown⟩ := shown
      rw [overlay, List.append_cancel_left_eq] at shown
      right
      have first := congrArg List.head? shown
      rw [List.head?_drop, List.head?_cons] at first
      exact first
    · intro behind
      rcases behind with inside | behind
      · exact absurd inside ends
      · use before.drop (bytes.length + 1)
        obtain ⟨bound, value⟩ := List.getElem?_eq_some_iff.mp behind
        rw [overlay, List.drop_eq_getElem_cons bound, value]

theorem text_before_nul {first second rest rest' : Text} (inFirst : nul ∉ first)
    (inSecond : nul ∉ second) (same : first ++ nul :: rest = second ++ nul :: rest') :
    first = second := by
  have stops : ∀ {text rest : Text}, nul ∉ text →
      (text ++ nul :: rest).takeWhile (· ≠ nul) = text := by
    intro text rest noNul
    rw [List.takeWhile_append_of_pos, List.takeWhile_cons_of_neg (by simp), List.append_nil]
    intro c member
    have differs : c ≠ nul := fun other => noNul (other ▸ member)
    simpa using differs
  have cut := congrArg (List.takeWhile (· ≠ nul)) same
  rwa [stops inFirst, stops inSecond] at cut

theorem noNul_oidText (model : DataModel) (oid : Oid) : nul ∉ oidText model oid := by
  have digits : ∀ number : Nat, nul ∉ Nat.toDigits 10 number := by
    intro number member
    exact absurd (Nat.isDigit_of_mem_toDigits (by decide) (by decide) member) (by decide)
  intro member
  obtain ⟨id, _, inside⟩ := List.mem_flatMap.mp member
  rcases List.mem_cons.mp inside with dot | printed
  · exact absurd dot (by decide)
  · rw [printLd] at printed
    split at printed
    · rcases List.mem_cons.mp printed with minus | digit
      · exact absurd minus (by decide)
      · exact digits _ digit
    · exact digits _ printed

theorem noNul_dotted (oid : Oid) : nul ∉ dotted oid := by
  have same : oidText .lp64 oid = dotted oid := by
    apply (signedDotted_eq_iff oid).mpr
    intro id _
    have upper := id.toNat_lt
    simp only [DataModel.Holds, DataModel.longMax]
    omega
  exact same ▸ noNul_oidText .lp64 oid

theorem copied_fits_iff (copy : copied model value = some bytes) :
    (bytes.length ≤ maxOidLen ∧ (∀ length ∈ strTexts model value, length < strSize) ∧
      Shows before (overlay before bytes) value) ↔ ValueFits model before value := by
  have text : ∀ text : Text, text.length < strSize → (text ++ [nul]).length ≤ maxOidLen := by
    intro text short
    rw [List.length_append, List.length_singleton]
    rw [strSize] at short
    rw [maxOidLen]
    omega
  have shown : ∀ text : Text, ∃ rest, overlay before (text ++ [nul]) = text ++ nul :: rest :=
    fun text => ⟨_, overlay_text before text⟩
  cases value with
  | integer value =>
    cases copy
    have short := printLd_short value
    exact iff_of_true ⟨text _ (by rw [strSize]; omega), by simp [strTexts], shown _⟩ trivial
  | unsigned value =>
    cases copy
    have short := printLu_short value
    exact iff_of_true ⟨text _ (by rw [strSize]; omega), by simp [strTexts], shown _⟩ trivial
  | ipAddress value =>
    cases copy
    have short := printLu_short value
    exact iff_of_true ⟨text _ (by rw [strSize]; omega), by simp [strTexts], shown _⟩ trivial
  | objectId oid =>
    cases copy
    constructor
    · intro fits
      obtain ⟨_, short, rest, held⟩ := fits
      have same : oidText model oid = dotted oid := by
        rw [overlay_text] at held
        exact text_before_nul (noNul_oidText model oid) (noNul_dotted oid) held
      exact ⟨same ▸ short _ (List.mem_singleton.mpr rfl), (signedDotted_eq_iff oid).mp same⟩
    · rintro ⟨short, holds⟩
      have same : oidText model oid = dotted oid := (signedDotted_eq_iff oid).mpr holds
      rw [same]
      refine ⟨text _ short, ?_, shown _⟩
      intro length member
      rw [List.mem_singleton.mp member, same]
      exact short
  | octetStr octets =>
    cases copy
    have cut : octets.take 255 = octets ∨ ¬(octets.take 255).length ≤ maxOidLen := by
      by_cases short : octets.length ≤ 255
      · exact .inl (List.take_of_length_le short)
      · right
        rw [List.length_take, maxOidLen]
        omega
    rcases cut with whole | long
    · rw [whole]
      constructor
      · intro fits
        exact ⟨fits.1, octets_shown_iff.mp fits.2.2⟩
      · intro fits
        exact ⟨fits.1, by simp [strTexts], octets_shown_iff.mpr fits.2⟩
    · constructor
      · intro fits
        exact absurd fits.1 long
      · intro fits
        have shorter : (octets.take 255).length ≤ octets.length := by
          rw [List.length_take]
          exact Nat.min_le_right _ _
        exact absurd (shorter.trans fits.1) long
  | other => cases copy

end Copies

section Alignment

variable {model : DataModel} {values : List Text} {front : List Varbind} {vars : Varbind}

def Supported (vars : Varbind) : Prop := vars.value ≠ .other

instance (vars : Varbind) : Decidable (Supported vars) := inferInstanceAs (Decidable (_ ≠ _))

theorem getRow_append (model : DataModel) (values : List Text) (front : List Varbind)
    (vars : Varbind) :
    getRow model values (front ++ [vars]) = (getRow model values front).varbind model vars := by
  rw [getRow, List.foldl_append]
  rfl

theorem getRow_number (model : DataModel) (values : List Text) (front : List Varbind) :
    (getRow model values front).number = front.length := by
  induction front using List.reverseRecOn with
  | nil => rfl
  | append_singleton front vars ih =>
    rw [getRow_append, varbind_number, ih, List.length_append, List.length_singleton]

theorem getRow_next (model : DataModel) (values : List Text) (front : List Varbind) :
    (getRow model values front).sTmpCnt =
      i16 (front.countP (fun vars => decide (Supported vars))) := by
  induction front using List.reverseRecOn with
  | nil => rfl
  | append_singleton front vars ih =>
    rw [getRow_append, List.countP_append, List.countP_singleton]
    by_cases supported : Supported vars
    · obtain ⟨bytes, copy⟩ := copied_of_supported supported
      rw [(varbind_copied _ copy).2.2, ih, if_pos (by simpa using supported)]
      simp only [i16]
      omega
    · have other : vars.value = .other := not_not.mp supported
      rw [(varbind_other _ other).2.2, ih, if_neg (by simpa using supported), Nat.add_zero]

theorem next_eq_iff (model : DataModel) (values : List Text) (front : List Varbind) :
    (getRow model values front).sTmpCnt = front.length ↔
      front.length < 2 ^ 15 ∧ ∀ earlier ∈ front, earlier.value ≠ .other := by
  have bound := List.countP_le_length (p := fun vars => decide (Supported vars)) (l := front)
  have all : front.countP (fun vars => decide (Supported vars)) = front.length ↔
      ∀ earlier ∈ front, earlier.value ≠ .other := by
    rw [List.countP_eq_length]
    simp only [decide_eq_true_eq]
    rfl
  rw [getRow_next, ← all]
  simp only [i16]
  omega

structure FitsNext (model : DataModel) (values : List Text) (front : List Varbind)
    (vars : Varbind) : Prop where
  name : (oidText model vars.name).length < strSize
  value : ∀ before, values[front.length]? = some before → ValueFits model before vars.value
  order : vars.value ≠ .other →
    front.length < 2 ^ 15 ∧ ∀ earlier ∈ front, earlier.value ≠ .other

theorem fits_append :
    Fits model values (front ++ [vars]) ↔
      Fits model values front ∧ FitsNext model values front vars := by
  have last : (front ++ [vars])[front.length]? = some vars := by simp
  have inner : ∀ {i : Nat} {earlier : Varbind}, front[i]? = some earlier →
      (front ++ [vars])[i]? = some earlier := by
    intro i earlier here
    obtain ⟨bound, _⟩ := List.getElem?_eq_some_iff.mp here
    rw [List.getElem?_append_left bound]
    exact here
  have cases : ∀ {i : Nat} {next : Varbind}, (front ++ [vars])[i]? = some next →
      front[i]? = some next ∨ i = front.length ∧ next = vars := by
    intro i next here
    by_cases bound : i < front.length
    · rw [List.getElem?_append_left bound] at here
      exact .inl here
    · obtain ⟨inside, _⟩ := List.getElem?_eq_some_iff.mp here
      have place : i = front.length := by
        rw [List.length_append, List.length_singleton] at inside
        omega
      subst place
      rw [last, Option.some.injEq] at here
      exact .inr ⟨rfl, here.symm⟩
  constructor
  · intro fits
    constructor
    · constructor
      · intro earlier member
        exact fits.name earlier (List.mem_append_left _ member)
      · intro i earlier before here
        exact fits.value i earlier before (inner here)
      · intro i next here supported
        obtain ⟨small, before⟩ := fits.order i next (inner here) supported
        exact ⟨small, fun j earlier below there => before j earlier below (inner there)⟩
    · constructor
      · exact fits.name vars (by simp)
      · intro before here
        exact fits.value _ vars before last here
      · intro supported
        obtain ⟨small, before⟩ := fits.order _ vars last supported
        refine ⟨small, ?_⟩
        intro earlier member
        obtain ⟨j, bound, there⟩ := List.mem_iff_getElem.mp member
        exact before j earlier bound (inner (List.getElem?_eq_some_iff.mpr ⟨bound, there⟩))
  · intro both
    obtain ⟨fits, next⟩ := both
    constructor
    · intro earlier member
      rcases List.mem_append.mp member with before | here
      · exact fits.name earlier before
      · rw [List.mem_singleton.mp here]
        exact next.name
    · intro i earlier before here
      rcases cases here with inside | ⟨place, same⟩
      · exact fits.value i earlier before inside
      · subst place same
        exact next.value before
    · intro i later here supported
      rcases cases here with inside | ⟨place, same⟩
      · obtain ⟨small, before⟩ := fits.order i later inside supported
        refine ⟨small, ?_⟩
        intro j earlier below there
        obtain ⟨bound, _⟩ := List.getElem?_eq_some_iff.mp inside
        rw [List.getElem?_append_left (by omega)] at there
        exact before j earlier below there
      · subst place same
        obtain ⟨small, before⟩ := next.order supported
        refine ⟨small, ?_⟩
        intro j earlier below there
        rw [List.getElem?_append_left below] at there
        exact before earlier (List.mem_of_getElem? there)

theorem varbind_values {row : Row} {bytes : Text} (copy : copied model vars.value = some bytes)
    (place : row.sTmpCnt = front.length) :
    (row.varbind model vars).values =
      row.values.modify front.length fun buffer => overlay buffer bytes := by
  rw [(varbind_copied row copy).1, place, if_neg (by omega), Int.toNat_natCast]

theorem untouched (model : DataModel) (values : List Text) (front : List Varbind)
    (own : ∀ store ∈ (getRow model values front).stores, store.entry = store.varbind) (i : Nat)
    (behind : front.length ≤ i) : (getRow model values front).values[i]? = values[i]? := by
  induction front using List.reverseRecOn with
  | nil => rfl
  | append_singleton front vars ih =>
    rw [List.length_append, List.length_singleton] at behind
    rw [getRow_append] at own ⊢
    by_cases supported : vars.value = .other
    · obtain ⟨same, stores, _⟩ := varbind_other (getRow model values front) supported
      rw [stores] at own
      rw [same]
      exact ih own (by omega)
    · obtain ⟨bytes, copy⟩ := copied_of_supported supported
      rw [(varbind_copied _ copy).2.1] at own
      have place := own _ (List.mem_append_right _ (List.mem_singleton.mpr rfl))
      rw [getRow_number] at place
      rw [varbind_values copy place, List.getElem?_modify_ne _ _ (by omega)]
      exact ih (fun store member => own store (List.mem_append_left _ member)) (by omega)

theorem lands_append (room : front.length < values.length) :
    Lands values (front ++ [vars]) (getRow model values (front ++ [vars])) ↔
      Lands values front (getRow model values front) ∧ FitsNext model values front vars := by
  obtain ⟨before, here⟩ : ∃ before, values[front.length]? = some before :=
    ⟨_, List.getElem?_eq_getElem room⟩
  have last : (front ++ [vars])[front.length]? = some vars := by simp
  have inner : ∀ {i : Nat} {earlier : Varbind}, front[i]? = some earlier →
      i < front.length ∧ (front ++ [vars])[i]? = some earlier := by
    intro i earlier here
    obtain ⟨bound, _⟩ := List.getElem?_eq_some_iff.mp here
    rw [List.getElem?_append_left bound]
    exact ⟨bound, here⟩
  have strs := varbind_strs model (getRow model values front) vars
  rw [getRow_append]
  by_cases supported : vars.value = .other
  · obtain ⟨same, stores, _⟩ := varbind_other (getRow model values front) supported
    have texts : strTexts model vars.value = [] := by rw [supported]; rfl
    rw [texts] at strs
    constructor
    · intro lands
      have own := lands.own
      have str := lands.str
      rw [stores] at own
      rw [strs, List.forall_mem_append, List.forall_mem_singleton] at str
      constructor
      · constructor
        · exact own
        · exact str.1
        · intro i earlier old there initial
          have shown := lands.shown i earlier old (inner there).2 initial
          rw [same] at shown
          exact shown
        · exact untouched model values front fun store member => (own store member).1
      · constructor
        · exact str.2
        · intro _ _
          rw [supported]
          trivial
        · intro copies
          exact absurd supported copies
    · rintro ⟨lands, next⟩
      constructor
      · rw [stores]
        exact lands.own
      · rw [strs, List.forall_mem_append, List.forall_mem_singleton]
        exact ⟨lands.str, next.name⟩
      · intro i later old there initial
        rw [same]
        by_cases bound : i < front.length
        · rw [List.getElem?_append_left bound] at there
          exact lands.shown i later old there initial
        · obtain ⟨inside, _⟩ := List.getElem?_eq_some_iff.mp there
          rw [List.length_append, List.length_singleton] at inside
          have place : i = front.length := by omega
          rw [place, last, Option.some.injEq] at there
          rw [lands.others i (by omega), initial, ← there, supported]
          exact ⟨old, rfl, rfl⟩
      · intro i behind
        rw [List.length_append, List.length_singleton] at behind
        rw [same]
        exact lands.others i (by omega)
  · obtain ⟨bytes, copy⟩ := copied_of_supported supported
    obtain ⟨_, stores, _⟩ := varbind_copied (getRow model values front) copy
    rw [getRow_number] at stores
    have entry : ∀ {shows : Text → Prop}, (getRow model values front).sTmpCnt = front.length →
        (getRow model values front).values[front.length]? = values[front.length]? →
        ((∃ after,
          ((getRow model values front).varbind model vars).values[front.length]? = some after ∧
          shows after) ↔ shows (overlay before bytes)) := by
      intro shows place same
      rw [varbind_values copy place, List.getElem?_modify_eq, same, here]
      simp
    constructor
    · intro lands
      have own := lands.own
      have str := lands.str
      rw [stores, List.forall_mem_append, List.forall_mem_singleton] at own
      rw [strs, List.forall_mem_append, List.forall_mem_cons] at str
      have place := own.2.1
      have behind := untouched model values front fun store member => (own.1 store member).1
      constructor
      · constructor
        · exact own.1
        · exact str.1
        · intro i earlier old there initial
          obtain ⟨bound, inFront⟩ := inner there
          have shown := lands.shown i earlier old inFront initial
          rw [varbind_values copy place, List.getElem?_modify_ne _ _ (by omega)] at shown
          exact shown
        · exact behind
      · constructor
        · exact str.2.1
        · intro old initial
          have shown := (entry place (behind _ (le_refl _))).mp
            (lands.shown _ vars before last here)
          rw [initial, Option.some.injEq] at here
          rw [here]
          exact (copied_fits_iff copy).mp ⟨own.2.2, str.2.2, shown⟩
        · intro _
          exact (next_eq_iff model values front).mp place
    · rintro ⟨lands, next⟩
      have place := (next_eq_iff model values front).mpr (next.order supported)
      obtain ⟨short, texts, shown⟩ := (copied_fits_iff copy).mpr (next.value before here)
      constructor
      · rw [stores, List.forall_mem_append, List.forall_mem_singleton]
        exact ⟨lands.own, place, short⟩
      · rw [strs, List.forall_mem_append, List.forall_mem_cons]
        exact ⟨lands.str, next.name, texts⟩
      · intro i later old there initial
        by_cases bound : i < front.length
        · rw [List.getElem?_append_left bound] at there
          rw [varbind_values copy place, List.getElem?_modify_ne _ _ (by omega)]
          exact lands.shown i later old there initial
        · obtain ⟨inside, _⟩ := List.getElem?_eq_some_iff.mp there
          rw [List.length_append, List.length_singleton] at inside
          have same : i = front.length := by omega
          subst same
          rw [last, Option.some.injEq] at there
          rw [initial, Option.some.injEq] at here
          rw [← there, here]
          exact (entry place (lands.others _ (le_refl _))).mpr shown
      · intro i behind
        rw [List.length_append, List.length_singleton] at behind
        rw [varbind_values copy place, List.getElem?_modify_ne _ _ (by omega)]
        exact lands.others i (by omega)

theorem lands_iff (model : DataModel) (values : List Text) (response : List Varbind)
    (room : response.length ≤ values.length) :
    Lands values response (getRow model values response) ↔ Fits model values response := by
  induction response using List.reverseRecOn with
  | nil =>
    apply iff_of_true
    · constructor
      · intro store member
        cases member
      · intro length member
        cases member
      · intro i vars before here
        cases here
      · intro i _
        rfl
    · constructor
      · intro vars member
        cases member
      · intro i vars before here
        cases here
      · intro i vars here
        cases here
  | append_singleton front vars ih =>
    rw [List.length_append, List.length_singleton] at room
    rw [lands_append (by omega), ih (by omega), fits_append]

end Alignment

section Requests

variable (lib : ReadObjid)

/-- How many numbers the object id of a variable has. -/
def subids (szVariable : Text) : Nat := ((lib.means szVariable).getD []).length

theorem fillRequest_iff (szVariables : List Text) (room : Nat)
    (objids : ∀ text ∈ szVariables, ∃ oid, lib.means text = some oid) :
    (fillRequest lib room szVariables).map some = szVariables.map lib.means ↔
      (∀ text ∈ szVariables, subids lib text ≤ room) ∧
        szVariables.Pairwise fun earlier later => subids lib later ≤ subids lib earlier := by
  induction szVariables generalizing room with
  | nil => simp [fillRequest]
  | cons text szVariables ih =>
    obtain ⟨oid, means⟩ := objids text List.mem_cons_self
    have length : subids lib text = oid.length := by
      rw [subids, means]
      rfl
    rw [fillRequest, List.map_cons, List.map_cons, List.cons.injEq, means, List.pairwise_cons,
      List.forall_mem_cons, length, Option.some.injEq]
    by_cases fits : oid.length ≤ room
    · have read := lib.succeeds means fits
      rw [read, ih oid.length fun later member => objids later (List.mem_cons_of_mem _ member)]
      constructor
      · rintro ⟨_, below, rest⟩
        exact ⟨⟨fits, fun later member => (below later member).trans fits⟩, below, rest⟩
      · rintro ⟨_, below, rest⟩
        exact ⟨rfl, below, rest⟩
    · constructor
      · rintro ⟨same, _⟩
        have short := (lib.fails means (Nat.lt_of_not_le fits)).2
        rw [same] at short
        exact absurd short fits
      · rintro ⟨⟨small, _⟩, _⟩
        exact absurd small fits

/-- The request asks for the variables, and each answer lands in the column of its variable. -/
structure InColumns (model : DataModel) (szVariables values : List Text)
    (response : List Varbind) : Prop where
  requested : (fillRequest lib maxOidLen szVariables).map some = szVariables.map lib.means
  landed : Lands values response (getRow model values response)

end Requests

/-- The columns are right exactly if no variable has more numbers than one before it, and every
answer fits and none that is shown is behind one that is not. -/
theorem inColumns_iff (model : DataModel) (lib : ReadObjid) (szVariables values : List Text)
    (response : List Varbind)
    (objids : ∀ text ∈ szVariables, ∃ oid, lib.means text = some oid ∧ oid.length ≤ maxOidLen)
    (columns : values.length = szVariables.length)
    (answered : response.length = szVariables.length) :
    InColumns lib model szVariables values response ↔
      szVariables.Pairwise (fun earlier later => subids lib later ≤ subids lib earlier) ∧
        Fits model values response := by
  have known : ∀ text ∈ szVariables, ∃ oid, lib.means text = some oid := by
    intro text member
    obtain ⟨oid, means, _⟩ := objids text member
    exact ⟨oid, means⟩
  have small : ∀ text ∈ szVariables, subids lib text ≤ maxOidLen := by
    intro text member
    obtain ⟨oid, means, short⟩ := objids text member
    rw [subids, means]
    exact short
  have request := fillRequest_iff lib szVariables maxOidLen known
  have row := lands_iff model values response (by omega)
  constructor
  · intro right
    exact ⟨(request.mp right.requested).2, row.mp right.landed⟩
  · rintro ⟨descending, fits⟩
    exact ⟨request.mpr ⟨small, descending⟩, row.mpr fits⟩

def dottedOid (text : Text) : Oid :=
  ((text.splitOn '.').filter (· ≠ [])).map fun digits => UInt32.ofNat (leadingDigits digits)

def dottedReader : ReadObjid where
  means text := some (dottedOid text)
  read text room :=
    if (dottedOid text).length ≤ room then (true, dottedOid text)
    else (false, (dottedOid text).take room)
  succeeds := by
    intro text oid room means fits
    rw [Option.some.injEq] at means
    rw [means, if_pos fits]
  fails := by
    intro text oid room means more
    rw [Option.some.injEq] at means
    rw [means, if_neg (Nat.not_le_of_lt more)]
    constructor
    · rfl
    · rw [List.length_take]
      exact Nat.min_le_left _ _

/-- One variable, answered with an integer. -/
theorem inColumns_one :
    InColumns dottedReader .lp64 ["1.3".toList] [[nul]] [⟨[1, 3], .integer 7⟩] ↔
      ["1.3".toList].Pairwise
          (fun earlier later => subids dottedReader later ≤ subids dottedReader earlier) ∧
        Fits .lp64 [[nul]] [⟨[1, 3], .integer 7⟩] := by
  apply inColumns_iff .lp64 dottedReader ["1.3".toList] [[nul]] [⟨[1, 3], .integer 7⟩]
  · intro text member
    rw [List.mem_singleton.mp member]
    exact ⟨_, rfl, by decide⟩
  · rfl
  · rfl

/-- The answer behind a counter is copied over the counter's column. -/
theorem behind_counter : ¬ ∀ (model : DataModel) (lib : ReadObjid)
    (szVariables values : List Text) (response : List Varbind),
    (∀ text ∈ szVariables, ∃ oid, lib.means text = some oid ∧ oid.length ≤ maxOidLen) →
    values.length = szVariables.length → response.length = szVariables.length →
    InColumns lib model szVariables values response := by
  intro always
  have right := always .lp64 dottedReader ["1.3".toList, "1.4".toList] [[nul], [nul]]
    [⟨[1, 3], .other⟩, ⟨[1, 4], .integer 7⟩] (by
      intro text member
      rcases List.mem_cons.mp member with first | second
      · rw [first]
        exact ⟨_, rfl, by decide⟩
      · rw [List.mem_singleton.mp second]
        exact ⟨_, rfl, by decide⟩) rfl rfl
  have fits := (lands_iff _ _ _ (le_refl _)).mp right.landed
  obtain ⟨_, before⟩ := fits.order 1 ⟨[1, 4], .integer 7⟩ rfl (by decide)
  exact before 0 ⟨[1, 3], .other⟩ (by decide) rfl rfl

end EveAgent.Rbm.GetRow
