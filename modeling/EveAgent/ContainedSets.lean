import EveAgent.TableSet

/-! Which SET requests stay within the columns of a row. -/

namespace EveAgent.TableSet

open AgentInfo (Mode nextMode)

section Property

variable {N A : Type} {layout : Layout N A}

/-- No length that is recorded is longer than its array. -/
def Row.Recorded (row : Row layout) : Prop := ∀ a, (row.arrays a).len ≤ layout.capacity a

structure Stored (layout : Layout N A) where
  row : Row layout
  recorded : row.Recorded

/-- Both reserve phases of the row report no error. -/
def reserves (layout : Layout N A) (oldStatus : Int32) (vars : List (Varbind N A)) :
    Attempt Unit Bool := do
  let well ← setReserve1 layout vars
  if well then setReserve2 oldStatus vars else return false

/-- The status of a row before the request; there is none in a new row. -/
def oldStatus (stored : Option (Stored layout)) : Int32 :=
  stored.elim 0 fun stored => stored.row.status

def Accepts (othersFail : Mode → Bool) (stored : Option (Stored layout))
    (vars : List (Varbind N A)) : Prop :=
  reserves layout (oldStatus stored) vars = .ok true ∧ othersFail .reserve1 = false ∧
    othersFail .reserve2 = false

variable [DecidableEq N] [DecidableEq A]

/-- When the reserve phases report no error no copy leaves its array and all lengths that are
recorded fit, otherwise no column is changed. -/
def Contained (othersFail : Mode → Bool) (stored : Option (Stored layout))
    (vars : List (Varbind N A)) : Prop :=
  (Accepts othersFail stored vars →
    ∃ last, handleSet othersFail (stored.map Stored.row) vars = .ok last ∧
      ∀ row ∈ last, row.Recorded) ∧
  (¬ Accepts othersFail stored vars →
    ∀ last, handleSet othersFail (stored.map Stored.row) vars = .ok last →
      last = stored.map Stored.row)

end Property

section Condition

variable {N A : Type} (layout : Layout N A)

/-- The value has the type and the range of its column. -/
def Varbind.Typed (oldStatus : Int32) (var : Varbind N A) : Prop :=
  match var.column with
  | .array a => var.value.type = layout.arrayType a
  | .status => ∃ value, var.value = .integer value ∧
      checkRowstatusTransition oldStatus value = .noError
  | .number n => var.value.type = layout.numberType n ∧
      ∀ min max, layout.range n = some (min, max) →
        ∃ value, var.value.long = .ok value ∧ min ≤ value ∧ value ≤ max

/-- An octet string is not longer than its array. -/
def Varbind.Short (var : Varbind N A) : Prop :=
  ∀ a octets, var.column = .array a → var.value = .octetStr octets →
    octets.length ≤ layout.capacity a

variable {layout}

/-- The request is refused, or its octet strings fit. -/
def Allowed (othersFail : Mode → Bool) (stored : Option (Stored layout))
    (vars : List (Varbind N A)) : Prop :=
  othersFail .reserve1 = true ∨ othersFail .reserve2 = true ∨
    (∃ var ∈ vars, ¬ var.Typed layout (oldStatus stored)) ∨ ∀ var ∈ vars, var.Short layout

end Condition

section Reserves

variable {N A : Type} {layout : Layout N A}
  {var : Varbind N A} {vars : List (Varbind N A)} {status : Int32}

theorem number_valLen {n : N} (type : var.value.type = layout.numberType n) :
    var.value.valLen = sizeofLong := by
  have among := layout.numberTypes n
  rw [← type] at among
  cases shape : var.value with
  | octetStr octets => simp [shape, Value.type] at among
  | objectId objid => simp [shape, Value.type] at among
  | null => simp [shape, Value.type] at among
  | other octets => simp [shape, Value.type] at among
  | _ => rfl

theorem number_long {n : N} (type : var.value.type = layout.numberType n) :
    ∃ value, var.value.long = .ok value := by
  have among := layout.numberTypes n
  rw [← type] at among
  cases shape : var.value with
  | null => simp [shape, Value.type] at among
  | _ => exact ⟨_, rfl⟩

theorem checkVbTypeAndSize_iff {value : Value} {type : AsnType} {size : Nat} :
    checkVbTypeAndSize value type size = .noError ↔ value.type = type ∧ value.valLen = size := by
  rw [checkVbTypeAndSize]
  split
  · rename_i other
    exact ⟨fun same => (by cases same), fun both => absurd both.1 other⟩
  · rename_i same
    split
    · rename_i other
      exact ⟨fun same => (by cases same), fun both => absurd both.2 other⟩
    · rename_i equal
      exact ⟨fun _ => ⟨not_not.mp same, not_not.mp equal⟩, fun _ => rfl⟩

theorem reserveColumn_number_iff {n : N} (column : var.column = .number n) :
    reserveColumn layout var = .ok .noError ↔ var.Typed layout status := by
  rw [reserveColumn, Varbind.Typed, column]
  have size : var.value.type = layout.numberType n → var.value.valLen = sizeofLong := number_valLen
  cases bounds : layout.range n with
  | none => simpa [checkVbTypeAndSize_iff, bounds] using size
  | some limits =>
    obtain ⟨min, max⟩ := limits
    simp only [bounds, bind_ok_iff, Option.some.injEq, Prod.mk.injEq]
    constructor
    · rintro ⟨value, long, passed⟩
      by_cases outside : value < min ∨ value > max
      · rw [if_pos outside] at passed
        cases passed
      · rw [if_neg outside] at passed
        obtain ⟨type, -⟩ := checkVbTypeAndSize_iff.mp (Except.ok.inj passed)
        obtain ⟨above, below⟩ := not_or.mp outside
        refine ⟨type, ?_⟩
        rintro _ _ ⟨rfl, rfl⟩
        exact ⟨value, long, Int32.not_lt.mp above, Int32.not_lt.mp below⟩
    · rintro ⟨type, within⟩
      obtain ⟨value, long, above, below⟩ := within min max ⟨rfl, rfl⟩
      have outside : ¬ (value < min ∨ value > max) :=
        not_or.mpr ⟨Int32.not_lt.mpr above, Int32.not_lt.mpr below⟩
      refine ⟨value, long, ?_⟩
      rw [if_neg outside, checkVbTypeAndSize_iff.mpr ⟨type, size type⟩]
      rfl

theorem reserveColumn_iff (other : var.column ≠ .status) :
    reserveColumn layout var = .ok .noError ↔ var.Typed layout status := by
  cases column : var.column with
  | status => exact absurd column other
  | array a =>
    rw [reserveColumn, Varbind.Typed, column]
    simp only [Except.ok.injEq, checkVbTypeAndSize_iff, and_true]
  | number n => exact reserveColumn_number_iff column

theorem checkColumns_iff {check : Varbind N A → Attempt Unit SnmpErr} :
    checkColumns check vars = .ok true ↔ ∀ var ∈ vars, check var = .ok .noError := by
  induction vars with
  | nil => simp [checkColumns]
  | cons var vars ih =>
    rw [checkColumns, List.forall_mem_cons, ← ih]
    simp only [bind_ok_iff]
    constructor
    · rintro ⟨rc, checked, later, rest, both⟩
      obtain ⟨passed, well⟩ := Bool.and_eq_true_iff.mp (Except.ok.inj both)
      rw [eq_of_beq passed] at checked
      rw [well] at rest
      exact ⟨checked, rest⟩
    · rintro ⟨checked, rest⟩
      exact ⟨.noError, checked, true, rest, rfl⟩

theorem transition_legal {number : Int32}
    (legal : checkRowstatusTransition status number = .noError) :
    ¬ (number = 3 ∨ number < 0 ∨ number > 6) := by
  have among : number = 1 ∨ number = 2 ∨ number = 4 ∨ number = 5 ∨ number = 6 := by
    by_contra none_of_them
    simp only [not_or] at none_of_them
    simp [checkRowstatusTransition, none_of_them] at legal
  rcases among with rfl | rfl | rfl | rfl | rfl <;> decide

theorem checkVbRowstatus_iff {value : Value} :
    checkVbRowstatus value status = .ok .noError ↔
      ∃ number, value = .integer number ∧ checkRowstatusTransition status number = .noError := by
  cases value with
  | integer number =>
    have checked : checkVbTypeAndSize (.integer number) .asnInteger sizeofLong = .noError := rfl
    rw [checkVbRowstatus, checked]
    simp only [Value.long, ok_bind, Value.integer.injEq, exists_eq_left', ne_eq,
      not_true_eq_false, if_false]
    split
    · rename_i outside
      exact ⟨fun same => (nomatch same), fun legal => absurd outside (transition_legal legal)⟩
    · exact ⟨fun same => Except.ok.inj same, fun legal => congrArg Except.ok legal⟩
  | _ => exact ⟨fun same => (nomatch same), fun ⟨_, same, _⟩ => (nomatch same)⟩

theorem typed_iff : var.Typed layout status ↔
    reserveColumn layout var = .ok .noError ∧ reserveStatus status var = .ok .noError := by
  by_cases column : var.column = .status
  · rw [Varbind.Typed, reserveColumn, reserveStatus, column]
    simp only [checkVbRowstatus_iff, Except.ok.injEq, checkVbTypeAndSize_iff]
    constructor
    · rintro ⟨number, same, legal⟩
      rw [same]
      exact ⟨⟨rfl, rfl⟩, number, rfl, legal⟩
    · exact And.right
  · have passed : reserveStatus status var = .ok .noError := by
      rw [reserveStatus]
      cases shape : var.column with
      | status => exact absurd shape column
      | _ => rfl
    rw [reserveColumn_iff column, passed]
    exact (and_iff_left rfl).symm

theorem reserves_iff :
    reserves layout status vars = .ok true ↔ ∀ var ∈ vars, var.Typed layout status := by
  have both : reserves layout status vars = .ok true ↔
      setReserve1 layout vars = .ok true ∧ setReserve2 status vars = .ok true := by
    rw [reserves, bind_ok_iff]
    constructor
    · rintro ⟨well, first, second⟩
      cases well with
      | false => cases second
      | true => exact ⟨first, second⟩
    · rintro ⟨first, second⟩
      exact ⟨true, first, second⟩
  rw [both, setReserve1, setReserve2, checkColumns_iff, checkColumns_iff, ← forall₂_and]
  simp only [typed_iff]

end Reserves

section Copies

variable {capacity : Nat} {dst src : Buffer capacity} {octets : List UInt8}

theorem createRow_recorded {N A : Type} (layout : Layout N A) : (createRow layout).Recorded :=
  fun _ => Nat.zero_le _

theorem memcpy_written {written : Buffer capacity} (ran : dst.memcpy octets = .ok written) :
    octets.length ≤ capacity ∧ written.len = octets.length := by
  rw [Buffer.memcpy] at ran
  split at ran
  · rename_i fits
    cases ran
    exact ⟨fits, rfl⟩
  · cases ran

theorem memcpy_fits (fits : octets.length ≤ capacity) :
    ∃ written, dst.memcpy octets = .ok written := ⟨_, dif_pos fits⟩

theorem copy_fits (recorded : src.len ≤ capacity) :
    ∃ copied, dst.copy src = .ok copied ∧ copied.len ≤ capacity := by
  have length : (src.octets.take src.len).length ≤ capacity := by
    rw [List.length_take]
    exact (Nat.min_le_left _ _).trans recorded
  obtain ⟨copied, ran⟩ := @memcpy_fits capacity dst _ length
  obtain ⟨-, len⟩ := memcpy_written ran
  rw [Buffer.copy, if_pos recorded]
  exact ⟨copied, ran, len ▸ length⟩

variable {N A : Type} [DecidableEq A] {layout : Layout N A} {row row' : Row layout}

theorem copyArrays_fits (recorded : row.Recorded) (columns : List A)
    {arrays : (a : A) → Buffer (layout.capacity a)}
    (within : ∀ a, (arrays a).len ≤ layout.capacity a) :
    ∃ copied, copyArrays row columns arrays = .ok copied ∧
      ∀ a, (copied a).len ≤ layout.capacity a := by
  induction columns generalizing arrays with
  | nil => exact ⟨arrays, rfl, within⟩
  | cons a columns ih =>
    obtain ⟨written, ran, len⟩ := @copy_fits _ (arrays a) (row.arrays a) (recorded a)
    have updated : ∀ b, (Function.update arrays a written b).len ≤ layout.capacity b := by
      intro b
      by_cases same : b = a
      · subst same
        rw [Function.update_self]
        exact len
      · rw [Function.update_of_ne same]
        exact within b
    obtain ⟨copied, rest, all⟩ := ih updated
    refine ⟨copied, ?_, all⟩
    rw [copyArrays, ran, ok_bind, rest]

theorem rowCopy_fits (recorded : row.Recorded) (within : row'.Recorded) :
    ∃ copied, rowCopy row' row = .ok copied ∧ copied.Recorded ∧ copied.status = row.status := by
  obtain ⟨arrays, ran, all⟩ := copyArrays_fits recorded layout.arrays within
  refine ⟨⟨row.numbers, arrays, row.status⟩, ?_, all, rfl⟩
  rw [rowCopy, ran]
  rfl

theorem duplicateRow_fits (recorded : row.Recorded) :
    ∃ copied, duplicateRow row = .ok copied ∧ copied.Recorded ∧ copied.status = row.status :=
  rowCopy_fits recorded fun _ => Nat.zero_le _

end Copies

section Columns

variable {N A : Type} {layout : Layout N A} {row row' : Row layout} {var : Varbind N A}
  {vars : List (Varbind N A)} {status : Int32}

theorem objectId_length (objid : ObjectId) :
    (Value.objectId objid).octets.length ≤ maxOidLen * sizeofOid := by
  have whole : (Value.objectId objid).octets.length = objid.val.length * sizeofOid := by
    rw [Value.octets]
    induction objid.val with
    | nil => rfl
    | cons id ids ih =>
      rw [List.flatMap_cons, List.length_append, ih, List.length_cons, Nat.succ_mul, Nat.add_comm]
      rfl
  rw [whole]
  exact Nat.mul_le_mul_right _ objid.property

theorem short_iff {a : A} (column : var.column = .array a) (typed : var.Typed layout status) :
    var.Short layout ↔ var.value.octets.length ≤ layout.capacity a := by
  rw [Varbind.Typed, column] at typed
  have same : ∀ b octets, var.column = .array b → var.value = .octetStr octets → a = b := by
    intro b _ other _
    rw [column] at other
    exact Column.array.inj other
  cases kind : layout.isOid a with
  | true =>
    simp only [Layout.arrayType, kind, if_true] at typed
    cases shape : var.value with
    | objectId objid =>
      rw [layout.oidCapacity a kind]
      refine iff_of_true ?_ (objectId_length objid)
      intro _ _ _ other
      rw [shape] at other
      cases other
    | _ => simp [shape, Value.type] at typed
  | false =>
    simp only [Layout.arrayType, kind, Bool.false_eq_true, if_false] at typed
    cases shape : var.value with
    | octetStr octets =>
      constructor
      · intro short
        exact short a octets column shape
      · intro fits b others other equal
        obtain rfl := same b others other equal
        rw [shape] at equal
        cases equal
        exact fits
    | _ => simp [shape, Value.type] at typed

theorem long_of_typed (typed : var.Typed layout status)
    (number : ∀ a, var.column ≠ .array a) : ∃ value, var.value.long = .ok value := by
  rw [Varbind.Typed] at typed
  cases column : var.column with
  | array a => exact absurd column (number a)
  | status =>
    rw [column] at typed
    obtain ⟨value, same, -⟩ := typed
    rw [same]
    exact ⟨value, rfl⟩
  | number n =>
    rw [column] at typed
    exact number_long typed.1

variable [DecidableEq N] [DecidableEq A]

theorem setColumn_ok_iff (typed : var.Typed layout status) :
    (∃ row', setColumn row var = .ok row') ↔ var.Short layout := by
  cases column : var.column with
  | array a =>
    rw [short_iff column typed, setColumn, column]
    constructor
    · rintro ⟨_, ran⟩
      obtain ⟨written, copied, -⟩ := bind_ok_iff.mp ran
      exact (memcpy_written copied).1
    · intro fits
      obtain ⟨written, copied⟩ := @memcpy_fits _ (row.arrays a) _ fits
      simp only [copied]
      exact ⟨_, rfl⟩
  | status =>
    obtain ⟨value, long⟩ := long_of_typed typed (by simp [column])
    refine iff_of_true ?_ (by intro a _ other; simp [column] at other)
    rw [setColumn, column]
    simp only [long]
    exact ⟨_, rfl⟩
  | number n =>
    obtain ⟨value, long⟩ := long_of_typed typed (by simp [column])
    refine iff_of_true ?_ (by intro a _ other; simp [column] at other)
    rw [setColumn, column]
    simp only [long]
    exact ⟨_, rfl⟩

theorem setColumn_recorded (recorded : row.Recorded) (ran : setColumn row var = .ok row') :
    row'.Recorded := by
  rw [setColumn] at ran
  cases column : var.column with
  | array a =>
    rw [column] at ran
    obtain ⟨written, copied, done⟩ := bind_ok_iff.mp ran
    obtain ⟨fits, len⟩ := memcpy_written copied
    cases done
    intro b
    by_cases same : b = a
    · subst same
      simp only [Function.update_self]
      exact len ▸ fits
    · simp only [Function.update_of_ne same]
      exact recorded b
  | status =>
    rw [column] at ran
    obtain ⟨_, -, done⟩ := bind_ok_iff.mp ran
    cases done
    exact recorded
  | number n =>
    rw [column] at ran
    obtain ⟨_, -, done⟩ := bind_ok_iff.mp ran
    cases done
    exact recorded

theorem setColumns_ok_iff (typed : ∀ var ∈ vars, var.Typed layout status) :
    (∃ row', setColumns row vars = .ok row') ↔ ∀ var ∈ vars, var.Short layout := by
  induction vars generalizing row with
  | nil => exact iff_of_true ⟨row, rfl⟩ (by simp)
  | cons var vars ih =>
    have later := fun row => @ih row fun var member => typed var (List.mem_cons_of_mem _ member)
    have first := @setColumn_ok_iff _ _ _ row _ _ _ _ (typed var List.mem_cons_self)
    rw [List.forall_mem_cons, ← first]
    constructor
    · rintro ⟨_, ran⟩
      obtain ⟨written, wrote, rest⟩ := bind_ok_iff.mp ran
      exact ⟨⟨written, wrote⟩, (later written).mp ⟨_, rest⟩⟩
    · rintro ⟨⟨written, wrote⟩, short⟩
      obtain ⟨last, rest⟩ := (later written).mpr short
      exact ⟨last, bind_ok_iff.mpr ⟨written, wrote, rest⟩⟩

theorem setColumns_recorded (recorded : row.Recorded) (ran : setColumns row vars = .ok row') :
    row'.Recorded := by
  induction vars generalizing row with
  | nil =>
    cases ran
    exact recorded
  | cons var vars ih =>
    obtain ⟨written, wrote, rest⟩ := bind_ok_iff.mp ran
    exact ih (setColumn_recorded recorded wrote) rest

theorem setAction_recorded (recorded : row.Recorded) (ran : setAction row vars = .ok row') :
    row'.Recorded := by
  obtain ⟨written, wrote, done⟩ := bind_ok_iff.mp ran
  cases done
  have fits : written.Recorded := setColumns_recorded recorded wrote
  exact fits

theorem setAction_ok_iff (typed : ∀ var ∈ vars, var.Typed layout status) :
    (∃ row', setAction row vars = .ok row') ↔ ∀ var ∈ vars, var.Short layout := by
  rw [← @setColumns_ok_iff _ _ _ row _ _ _ _ typed]
  constructor
  · rintro ⟨_, ran⟩
    obtain ⟨written, wrote, -⟩ := bind_ok_iff.mp ran
    exact ⟨written, wrote⟩
  · rintro ⟨written, wrote⟩
    exact ⟨_, bind_ok_iff.mpr ⟨written, wrote, rfl⟩⟩

end Columns

section Requests

variable {N A : Type} [DecidableEq N] [DecidableEq A] {layout : Layout N A}
  {stored : Option (Stored layout)} {othersFail : Mode → Bool} {vars : List (Varbind N A)}

def Undoes (stored : Option (Stored layout)) (undo : Option (Row layout)) : Prop :=
  match stored, undo with
  | none, none => True
  | some stored, some undo => duplicateRow stored.row = .ok undo ∧ undo.Recorded ∧
      undo.status = stored.row.status
  | _, _ => False

omit [DecidableEq N] in
theorem undo_exists (stored : Option (Stored layout)) : ∃ undo, Undoes stored undo := by
  cases stored with
  | none => exact ⟨none, trivial⟩
  | some stored =>
    obtain ⟨undo, ran, recorded, status⟩ := duplicateRow_fits stored.recorded
    exact ⟨some undo, ran, recorded, status⟩

/-- The row that the request is about, or the new one. -/
def subject (stored : Option (Stored layout)) : Row layout :=
  (stored.map Stored.row).getD (createRow layout)

omit [DecidableEq N] [DecidableEq A] in
theorem subject_recorded (stored : Option (Stored layout)) : (subject stored).Recorded := by
  cases stored with
  | none => exact createRow_recorded layout
  | some stored => exact stored.recorded

def undone (row : Row layout) : Option (Row layout) → Attempt Unit (Option (Row layout))
  | none => .ok none
  | some undo => some <$> rowCopy row undo

theorem undoing {undo : Option (Row layout)} (undoes : Undoes stored undo) (row : Row layout) :
    (handleSetLoop othersFail vars 1 .undo true
        ⟨some row, (stored.map Stored.row).isNone, undo⟩ >>= fun group => .ok group.existing) =
      undone row undo := by
  cases stored with
  | none =>
    cases undo with
    | none => rfl
    | some undo => exact absurd undoes id
  | some stored =>
    cases undo with
    | none => exact absurd undoes id
    | some undo =>
      rw [handleSetLoop]
      simp only [processSetGroup, Option.map_some, Option.isNone_some, Bool.false_eq_true,
        if_false, need_some, ok_bind, undone]
      cases rowCopy row undo with
      | error stop => rfl
      | ok copied => rfl

theorem handleSet_eq {undo : Option (Row layout)} (undoes : Undoes stored undo) :
    handleSet othersFail (stored.map Stored.row) vars =
      (setReserve1 layout vars >>= fun well =>
        if !well || othersFail .reserve1 then .ok (stored.map Stored.row)
        else setReserve2 (oldStatus stored) vars >>= fun well =>
          if !well || othersFail .reserve2 then .ok (stored.map Stored.row)
          else setAction (subject stored) vars >>= fun row =>
            if row.err || othersFail .action then undone row undo
            else .ok (if row.status = 6 then none else some row)) := by
  have begun : processSetGroup vars
      (⟨some (subject stored), (stored.map Stored.row).isNone, none⟩ : Group layout) .reserve1 =
      setReserve1 layout vars >>= fun well =>
        .ok (⟨some (subject stored), (stored.map Stored.row).isNone, undo⟩, well) := by
    cases stored with
    | none =>
      cases undo with
      | none => rfl
      | some undo => exact absurd undoes id
    | some stored =>
      cases undo with
      | none => exact absurd undoes id
      | some undo =>
        obtain ⟨ran, -, -⟩ := undoes
        simp only [processSetGroup, subject, Option.map_some, Option.getD_some, need_some,
          ok_bind, Option.isNone_some, Bool.false_eq_true, if_false, ran]
        rfl
  have status : undo.elim 0 Row.status = oldStatus stored := by
    cases stored with
    | none =>
      cases undo with
      | none => rfl
      | some undo => exact absurd undoes id
    | some stored =>
      cases undo with
      | none => exact absurd undoes id
      | some undo => exact undoes.2.2
  rw [handleSet]
  change (handleSetLoop othersFail vars 4 .reserve1 false
    ⟨some (subject stored), (stored.map Stored.row).isNone, none⟩ >>= _) = _
  rw [handleSetLoop, begun]
  cases first : setReserve1 layout vars with
  | error stop => rfl
  | ok well =>
    simp only [ok_bind, Bool.false_or]
    cases failed : (!well || othersFail .reserve1) with
    | true => cases stored <;> rfl
    | false =>
      rw [if_neg Bool.false_ne_true]
      change (handleSetLoop othersFail vars 3 .reserve2 false _ >>= _) = _
      rw [handleSetLoop]
      simp only [processSetGroup, status]
      cases second : setReserve2 (oldStatus stored) vars with
      | error stop => rfl
      | ok well =>
        simp only [ok_bind, pure_bind, Bool.false_or]
        cases failed : (!well || othersFail .reserve2) with
        | true => cases stored <;> rfl
        | false =>
          rw [if_neg Bool.false_ne_true]
          change (handleSetLoop othersFail vars 2 .action false _ >>= _) = _
          rw [handleSetLoop]
          simp only [processSetGroup, need_some, ok_bind]
          cases acted : setAction (subject stored) vars with
          | error stop => rfl
          | ok row =>
            simp only [ok_bind, pure_bind, Bool.false_or, Bool.not_not]
            cases failed : (row.err || othersFail .action) with
            | false => rfl
            | true =>
              rw [if_pos rfl]
              exact undoing undoes row

theorem handleSet_accepted {undo : Option (Row layout)} (undoes : Undoes stored undo)
    (accepted : Accepts othersFail stored vars) :
    handleSet othersFail (stored.map Stored.row) vars =
      (setAction (subject stored) vars >>= fun row =>
        if row.err || othersFail .action then undone row undo
        else .ok (if row.status = 6 then none else some row)) := by
  obtain ⟨passed, first, second⟩ := accepted
  obtain ⟨well, reserve1, rest⟩ := bind_ok_iff.mp passed
  cases well with
  | false => cases rest
  | true =>
    have reserve2 : setReserve2 (oldStatus stored) vars = .ok true := rest
    simp only [handleSet_eq undoes, reserve1, reserve2, ok_bind, first, second, Bool.not_true,
      Bool.or_false, Bool.false_eq_true, if_false]

theorem handleSet_refused (refused : ¬ Accepts othersFail stored vars)
    {last : Option (Row layout)}
    (ran : handleSet othersFail (stored.map Stored.row) vars = .ok last) :
    last = stored.map Stored.row := by
  obtain ⟨undo, undoes⟩ := undo_exists stored
  rw [handleSet_eq undoes] at ran
  obtain ⟨well1, reserve1, ran⟩ := bind_ok_iff.mp ran
  cases failed1 : (!well1 || othersFail .reserve1) with
  | true =>
    rw [failed1, if_pos rfl] at ran
    exact (Except.ok.inj ran).symm
  | false =>
    rw [failed1, if_neg Bool.false_ne_true] at ran
    obtain ⟨well2, reserve2, ran⟩ := bind_ok_iff.mp ran
    cases failed2 : (!well2 || othersFail .reserve2) with
    | true =>
      rw [failed2, if_pos rfl] at ran
      exact (Except.ok.inj ran).symm
    | false =>
      simp only [Bool.or_eq_false_iff, Bool.not_eq_false'] at failed1 failed2
      obtain ⟨rfl, first⟩ := failed1
      obtain ⟨rfl, second⟩ := failed2
      refine absurd ⟨?_, first, second⟩ refused
      rw [reserves, reserve1, ok_bind]
      exact reserve2

theorem handleSet_fits (accepted : Accepts othersFail stored vars)
    (short : ∀ var ∈ vars, var.Short layout) :
    ∃ last, handleSet othersFail (stored.map Stored.row) vars = .ok last ∧
      ∀ row ∈ last, row.Recorded := by
  obtain ⟨undo, undoes⟩ := undo_exists stored
  obtain ⟨row, acted⟩ := (setAction_ok_iff (reserves_iff.mp accepted.1)).mpr short
  have recorded := setAction_recorded (subject_recorded stored) acted
  rw [handleSet_accepted undoes accepted, acted, ok_bind]
  cases failed : (row.err || othersFail .action) with
  | false =>
    refine ⟨_, rfl, ?_⟩
    intro last member
    split at member
    · cases member
    · cases member
      exact recorded
  | true =>
    rw [if_pos rfl]
    cases undo with
    | none => exact ⟨none, rfl, by simp⟩
    | some undo =>
      cases stored with
      | none => exact absurd undoes id
      | some stored =>
        obtain ⟨copied, ran, fits, -⟩ := rowCopy_fits undoes.2.1 recorded
        refine ⟨some copied, ?_, ?_⟩
        · rw [undone, ran]
          rfl
        · rintro _ ⟨⟩
          exact fits

theorem contained_iff : Contained othersFail stored vars ↔ Allowed othersFail stored vars := by
  have typed : reserves layout (oldStatus stored) vars = .ok true ↔
      ∀ var ∈ vars, var.Typed layout (oldStatus stored) := reserves_iff
  by_cases accepted : Accepts othersFail stored vars
  · constructor
    · intro contained
      obtain ⟨last, ran, -⟩ := contained.1 accepted
      obtain ⟨undo, undoes⟩ := undo_exists stored
      rw [handleSet_accepted undoes accepted] at ran
      obtain ⟨row, acted, -⟩ := bind_ok_iff.mp ran
      exact Or.inr (Or.inr (Or.inr ((setAction_ok_iff (typed.mp accepted.1)).mp ⟨row, acted⟩)))
    · intro allowed
      refine ⟨fun _ => handleSet_fits accepted ?_, fun refused => absurd accepted refused⟩
      obtain ⟨passed, first, second⟩ := accepted
      rcases allowed with other | other | ⟨var, member, untyped⟩ | short
      · rw [first] at other
        cases other
      · rw [second] at other
        cases other
      · exact absurd (typed.mp passed var member) untyped
      · exact short
  · refine iff_of_true
      ⟨fun other => absurd other accepted, fun _ _ => handleSet_refused accepted⟩ ?_
    by_contra allowed
    simp only [Allowed, not_or, not_exists, not_and, not_not] at allowed
    obtain ⟨first, second, all, -⟩ := allowed
    exact accepted ⟨typed.mpr all, Bool.eq_false_iff.mpr first, Bool.eq_false_iff.mpr second⟩

end Requests

end EveAgent.TableSet
