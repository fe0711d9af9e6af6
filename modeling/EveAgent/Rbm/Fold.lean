import EveAgent.Rbm.Policy

namespace EveAgent.Rbm

section Meaning

inductive Comparison where
  | less
  | greater
  | atMost
  | atLeast
  | different
  | equal
  deriving DecidableEq, Repr

def Comparison.code : Comparison → Int
  | .less => 0
  | .greater => 1
  | .atMost => 2
  | .atLeast => 3
  | .different => 4
  | .equal => 5

def Comparison.Holds : Comparison → Int → Int → Prop
  | .less, value, threshold => value < threshold
  | .greater, value, threshold => value > threshold
  | .atMost, value, threshold => value ≤ threshold
  | .atLeast, value, threshold => value ≥ threshold
  | .different, value, threshold => value ≠ threshold
  | .equal, value, threshold => value = threshold

/-- A condition in numbers, with the operation that connects it to those before it. -/
structure Condition where
  operation : Int
  value : Int
  expression : Int
  threshold : Int
  deriving DecidableEq, Repr

def Condition.Holds (condition : Condition) : Prop :=
  ∃ comparison : Comparison, comparison.code = condition.expression ∧
    comparison.Holds condition.value condition.threshold

/-- 0 is the conjunction, everything else the disjunction. -/
def Condition.combine (before : Prop) (condition : Condition) : Prop :=
  if condition.operation = 0 then before ∧ condition.Holds else before ∨ condition.Holds

/-- The conditions from left to right; the operation of the first one does not count. -/
def FoldHolds : List Condition → Prop
  | [] => False
  | first :: rest => rest.foldl Condition.combine first.Holds

local instance five_conditions : NeZero 5 := ⟨by decide⟩

local instance four_operations : NeZero 4 := ⟨by decide⟩

/-- The conditions of a row whose first variables have these values. -/
def MonitorPolicyContext.conditions (row : MonitorPolicyContext) (values : List Int) :
    List Condition :=
  List.zipWith (fun value columns => ⟨columns.1, value, columns.2.1, columns.2.2⟩) values
    [(0, (row.monitorPolicyExpression 0).toInt, (row.monitorPolicyValue 0).toInt),
      ((row.monitorPolicyOperation 0).toInt, (row.monitorPolicyExpression 1).toInt,
        (row.monitorPolicyValue 1).toInt),
      ((row.monitorPolicyOperation 1).toInt, (row.monitorPolicyExpression 2).toInt,
        (row.monitorPolicyValue 2).toInt),
      ((row.monitorPolicyOperation 2).toInt, (row.monitorPolicyExpression 3).toInt,
        (row.monitorPolicyValue 3).toInt),
      ((row.monitorPolicyOperation 3).toInt, (row.monitorPolicyExpression 4).toInt,
        (row.monitorPolicyValue 4).toInt)]

/-- The variables that are set, up to the first one that is not. -/
def MonitorPolicyContext.variablesSet (row : MonitorPolicyContext) : List Text :=
  ((List.finRange 5).map fun i => objectIdText (row.monitorPolicyVariable i)).takeWhile
    fun text => !rbmInvalidOid.isPrefixOf text

/-- The evaluation stays inside of all tables and answers with the fold. -/
def Evaluates (row : MonitorPolicyContext) (fetched : List Text) : Prop :=
  rbmFillOidList row.pstList = some row.variablesSet ∧
    ∃ values : List Int, fetched.map atoi = values.map some ∧
      ∃ result, rbmEvaluate row.pstList fetched = some result ∧
        (result = 1 ↔ FoldHolds (row.conditions values))

/-- The fetched numbers fit, and the operations in use are 0, 1 or 2. -/
def WellFormed (row : MonitorPolicyContext) (fetched : List Text) : Prop :=
  (∀ text ∈ fetched, atoi text ≠ none) ∧
    ∀ i : Fin 4, (i : Nat) + 1 < fetched.length →
      0 ≤ (row.monitorPolicyOperation i).toInt ∧ (row.monitorPolicyOperation i).toInt ≤ 2

end Meaning

section Conditions

theorem satisfied_iff {value expression threshold : Int} :
    satisfied value expression threshold = true ↔
      ∃ comparison : Comparison, comparison.code = expression ∧
        comparison.Holds value threshold := by
  constructor
  · intro holds
    unfold satisfied at holds
    split_ifs at holds
    · exact ⟨.less, by simp [Comparison.code, *], by simpa [Comparison.Holds] using holds⟩
    · exact ⟨.greater, by simp [Comparison.code, *], by simpa [Comparison.Holds] using holds⟩
    · exact ⟨.atMost, by simp [Comparison.code, *], by simpa [Comparison.Holds] using holds⟩
    · exact ⟨.atLeast, by simp [Comparison.code, *], by simpa [Comparison.Holds] using holds⟩
    · exact ⟨.different, by simp [Comparison.code, *], by simpa [Comparison.Holds] using holds⟩
    · exact ⟨.equal, by simp [Comparison.code, *], by simpa [Comparison.Holds] using holds⟩
  · rintro ⟨comparison, rfl, holds⟩
    cases comparison with
    | less => simpa [satisfied, Comparison.code, Comparison.Holds] using holds
    | greater => simpa [satisfied, Comparison.code, Comparison.Holds] using holds
    | atMost => simpa [satisfied, Comparison.code, Comparison.Holds] using holds
    | atLeast => simpa [satisfied, Comparison.code, Comparison.Holds] using holds
    | different => simpa [satisfied, Comparison.code, Comparison.Holds] using holds
    | equal => simpa [satisfied, Comparison.code, Comparison.Holds] using holds

theorem expression_range {i : Fin 5} {value : Int32}
    (accepted : ColumnAccepts (columnMonitorPolicyExpression i) value) :
    0 ≤ value.toInt ∧ value.toInt ≤ 5 := by
  obtain ⟨var, rfl, passed⟩ := accepted
  have column : columnMonitorPolicyExpression i ∈ [8, 12, 16, 20, 24] := by
    fin_cases i <;> decide
  unfold monitorPolicyTableSetReserve1 at passed
  split at passed
  · cases passed
  · simp only [column, true_and] at passed
    split at passed
    · cases passed
    · rename_i inside
      simp only [rbmExprMin, rbmExprMax] at inside
      omega

theorem saferExpr_id {expression : Int} (range : 0 ≤ expression ∧ expression ≤ 5) :
    saferExpr expression = expression := by
  rw [saferExpr, if_neg (by omega)]

theorem aExp_entry {expression : Int} (range : 0 ≤ expression ∧ expression ≤ 5) :
    ∃ text, tableEntry aExp expression = some text := by
  rw [tableEntry, if_pos range.1]
  have inside : expression.toNat < aExp.length := by
    simp only [aExp, List.length_cons, List.length_nil]
    omega
  exact ⟨_, List.getElem?_eq_getElem inside⟩

theorem aOpn_entry (operation : Int) :
    (∃ text, tableEntry aOpn operation = some text) ↔ 0 ≤ operation ∧ operation ≤ 2 := by
  unfold tableEntry
  by_cases negative : 0 ≤ operation
  · rw [if_pos negative]
    rw [← Option.isSome_iff_exists, isSome_getElem?]
    simp only [aOpn, List.length_cons, List.length_nil]
    omega
  · rw [if_neg negative]
    simp only [reduceCtorEq, exists_false, false_iff]
    omega

end Conditions

section Loop

/-- The condition stands in the row from this index on. -/
structure Reads (pstList : List Text) (sCnt : Nat) (condition : Condition) : Prop where
  operation : operand pstList sCnt = some condition.operation
  value : operand pstList (sCnt + 1) = some condition.value
  expression : operand pstList (sCnt + 2) = some condition.expression
  threshold : operand pstList (sCnt + 3) = some condition.threshold
  range : 0 ≤ condition.expression ∧ condition.expression ≤ 5

variable {pstList : List Text} {sCnt : Nat} {condition : Condition}

open Classical in
noncomputable def truth (holds : Prop) : Nat := if holds then 1 else 0

theorem truth_eq_one {holds : Prop} : truth holds = 1 ↔ holds := by
  unfold truth
  split
  · simpa
  · simpa

theorem satisfied_truth (condition : Condition) :
    (satisfied condition.value condition.expression condition.threshold).toNat =
      truth condition.Holds := by
  cases computed : satisfied condition.value condition.expression condition.threshold with
  | true =>
    have holds : condition.Holds := satisfied_iff.mp computed
    rw [truth, if_pos holds, Bool.toNat_true]
  | false =>
    have fails : ¬ condition.Holds := by
      intro holds
      rw [satisfied_iff.mpr holds] at computed
      cases computed
    rw [truth, if_neg fails, Bool.toNat_false]

theorem validateSingle (reads : Reads pstList sCnt condition) (later : sCnt ≠ 0) (before : Prop) :
    rbmValidateSingleVariable sCnt (truth before) pstList =
      if 0 ≤ condition.operation ∧ condition.operation ≤ 2 then
        some (truth (condition.combine before))
      else none := by
  obtain ⟨expText, exp⟩ := aExp_entry reads.range
  have combined : (if condition.operation = 0 then truth before &&& truth condition.Holds
      else truth before ||| truth condition.Holds) = truth (condition.combine before) := by
    unfold Condition.combine
    split
    · by_cases first : before <;> by_cases second : condition.Holds <;> simp [truth, first, second]
    · by_cases first : before <;> by_cases second : condition.Holds <;> simp [truth, first, second]
  unfold rbmValidateSingleVariable
  rw [if_neg later, reads.operation, reads.value, reads.expression, reads.threshold]
  simp only [Option.bind_eq_bind, Option.bind_some, saferExpr_id reads.range, exp,
    satisfied_truth, combined]
  split
  · rename_i range
    obtain ⟨text, opn⟩ := (aOpn_entry condition.operation).mpr range
    rw [opn]
    rfl
  · rename_i range
    cases opn : tableEntry aOpn condition.operation with
    | none => rfl
    | some text => exact absurd ((aOpn_entry condition.operation).mp ⟨text, opn⟩) range

/-- The conditions stand in the row one after the other, four entries apart. -/
def ReadsAll (pstList : List Text) : Nat → List Condition → Prop
  | _, [] => True
  | sCnt, condition :: rest => Reads pstList sCnt condition ∧ ReadsAll pstList (sCnt + 4) rest

theorem validateLoop {rest : List Condition} {iLength fuel : Nat} (before : Prop)
    (reads : ReadsAll pstList sCnt rest) (later : sCnt ≠ 0)
    (left : sCnt + 1 + 4 * rest.length = iLength * 4) (enough : rest.length < fuel) :
    rbmValidateLoop pstList iLength fuel sCnt (truth before) =
      if ∀ condition ∈ rest, 0 ≤ condition.operation ∧ condition.operation ≤ 2 then
        some (truth (rest.foldl Condition.combine before))
      else none := by
  induction rest generalizing sCnt fuel before with
  | nil =>
    cases fuel with
    | zero => simp at enough
    | succ fuel =>
      rw [List.length_nil] at left
      rw [rbmValidateLoop, if_neg (by omega)]
      simp
  | cons condition rest ih =>
    cases fuel with
    | zero => simp at enough
    | succ fuel =>
      obtain ⟨here, others⟩ := reads
      rw [List.length_cons] at left enough
      rw [rbmValidateLoop, if_pos (by omega), validateSingle here later before]
      by_cases range : 0 ≤ condition.operation ∧ condition.operation ≤ 2
      · rw [if_pos range]
        simp only [List.forall_mem_cons, range, and_self, true_and, List.foldl_cons]
        exact ih (condition.combine before) others (by omega) (by omega) (by omega)
      · rw [if_neg range, if_neg]
        intro all
        exact range (all condition List.mem_cons_self)

end Loop

section Row

variable {row : MonitorPolicyContext}

theorem operand_printed {pstList : List Text} {index : Nat} {value : Int32}
    (cell : pstList[index]? = some (printLd value.toInt)) :
    operand pstList index = some value.toInt := by
  have lower := Int32.le_toInt value
  have upper := Int32.toInt_lt value
  rw [operand, cell, Option.bind_some, atoi_printLd (by omega) (by omega)]

theorem operand_fetched {pstList : List Text} {index : Nat} {text : Text} {value : Int}
    (cell : pstList[index]? = some text) (parsed : atoi text = some value) :
    operand pstList index = some value := by
  rw [operand, cell, Option.bind_some, parsed]

theorem fillLoop_takeWhile (pstList : List Text) (count sAdd : Nat)
    (inside : ∀ i < count, sAdd + 4 * i < pstList.length) :
    rbmFillOidLoop pstList count sAdd =
      some (((List.range count).map fun i => pstList.getD (sAdd + 4 * i) []).takeWhile
        fun text => !rbmInvalidOid.isPrefixOf text) := by
  induction count generalizing sAdd with
  | zero => rfl
  | succ count ih =>
    have first := inside 0 (Nat.zero_lt_succ count)
    rw [Nat.mul_zero, Nat.add_zero] at first
    have others : ∀ i < count, sAdd + 4 + 4 * i < pstList.length := by
      intro i below
      have := inside (i + 1) (by omega)
      omega
    have shifted : (fun i => pstList.getD (sAdd + 4 * (i + 1)) []) =
        fun i => pstList.getD (sAdd + 4 + 4 * i) [] := by
      funext i
      congr 1
      omega
    rw [rbmFillOidLoop, List.getElem?_eq_getElem first, List.range_succ_eq_map, List.map_cons,
      List.map_map]
    simp only [Nat.mul_zero, Nat.add_zero, List.getD_eq_getElem _ _ first, Function.comp_def,
      Nat.succ_eq_add_one, shifted, List.takeWhile_cons]
    cases rbmInvalidOid.isPrefixOf pstList[sAdd] with
    | true => rfl
    | false =>
      simp only [Bool.false_eq_true, if_false, ih (sAdd + 4) others, Option.map_some,
        Bool.not_false, if_true]

theorem fillOidList_variablesSet (row : MonitorPolicyContext) :
    rbmFillOidList row.pstList = some row.variablesSet := by
  apply fillLoop_takeWhile row.pstList rbmOidColumns 0
  intro i below
  simp only [rbmOidColumns, MonitorPolicyContext.pstList, List.length_cons,
    List.length_nil] at below ⊢
  omega

theorem variablesSet_length (row : MonitorPolicyContext) : row.variablesSet.length ≤ 5 :=
  (List.takeWhile_prefix _).length_le

theorem reads_condition (accepted : row.Accepted) {pstList : List Text} {i : Fin 4} {text : Text}
    {value : Int} (parsed : atoi text = some value)
    (operation : pstList[4 * (i : Nat) + 3]? =
      some (printLd (row.monitorPolicyOperation i).toInt))
    (fetched : pstList[4 * (i : Nat) + 3 + 1]? = some text)
    (expression : pstList[4 * (i : Nat) + 3 + 2]? =
      some (printLd (row.monitorPolicyExpression i.succ).toInt))
    (threshold : pstList[4 * (i : Nat) + 3 + 3]? =
      some (printLd (row.monitorPolicyValue i.succ).toInt)) :
    Reads pstList (4 * (i : Nat) + 3) ⟨(row.monitorPolicyOperation i).toInt, value,
      (row.monitorPolicyExpression i.succ).toInt, (row.monitorPolicyValue i.succ).toInt⟩ :=
  ⟨operand_printed operation, operand_fetched fetched parsed, operand_printed expression,
    operand_printed threshold, expression_range (accepted.expression i.succ)⟩

/-- What the evaluation of a row with these conditions reads. -/
structure ReadsRow (row : MonitorPolicyContext) (fetched : List Text) (values : List Int)
    (pstList : List Text) (first : Condition) (rest : List Condition) : Prop where
  copied : rbmCopyOidList row.pstList fetched = some pstList
  conditions : row.conditions values = first :: rest
  length : rest.length + 1 = fetched.length
  value : operand pstList 0 = some first.value
  expression : operand pstList 1 = some first.expression
  threshold : operand pstList 2 = some first.threshold
  range : 0 ≤ first.expression ∧ first.expression ≤ 5
  others : ReadsAll pstList 3 rest
  operations : (∀ condition ∈ rest, 0 ≤ condition.operation ∧ condition.operation ≤ 2) ↔
    ∀ i : Fin 4, (i : Nat) + 1 < fetched.length →
      0 ≤ (row.monitorPolicyOperation i).toInt ∧ (row.monitorPolicyOperation i).toInt ≤ 2

theorem copyLoop_entries {pstList pstOidList : List Text} {sAdd : Nat}
    (inside : ∀ k < pstOidList.length, sAdd + 4 * k < pstList.length) :
    ∃ copied, rbmCopyOidLoop pstList pstOidList sAdd = some copied ∧
      (∀ k < pstOidList.length, copied[sAdd + 4 * k]? = pstOidList[k]?) ∧
      ∀ j, (∀ k < pstOidList.length, j ≠ sAdd + 4 * k) → copied[j]? = pstList[j]? := by
  induction pstOidList generalizing pstList sAdd with
  | nil => exact ⟨pstList, rfl, by simp, fun _ _ => rfl⟩
  | cons szValue rest ih =>
    have here : sAdd < pstList.length := inside 0 (Nat.succ_pos _)
    have later : ∀ k < rest.length, sAdd + 4 + 4 * k < (pstList.set sAdd szValue).length := by
      intro k below
      have next := inside (k + 1) (Nat.succ_lt_succ below)
      rw [List.length_set]
      omega
    obtain ⟨copied, looped, fetched, kept⟩ := ih later
    refine ⟨copied, ?_, ?_, ?_⟩
    · rw [rbmCopyOidLoop, if_pos here, looped]
    · intro k below
      cases k with
      | zero =>
        rw [Nat.mul_zero, Nat.add_zero, kept sAdd (fun k _ => by omega),
          List.getElem?_set_self here]
        rfl
      | succ k =>
        have moved : sAdd + 4 * (k + 1) = sAdd + 4 + 4 * k := by omega
        rw [moved, fetched k (Nat.lt_of_succ_lt_succ below), List.getElem?_cons_succ]
    · intro j apart
      have elsewhere := apart 0 (Nat.succ_pos _)
      rw [kept j, List.getElem?_set_ne (by omega)]
      intro k below
      have next := apart (k + 1) (Nat.succ_lt_succ below)
      omega

theorem conditions_entry (row : MonitorPolicyContext) (values : List Int) (i : Fin 4) :
    (row.conditions values)[(i : Nat) + 1]? = (values[(i : Nat) + 1]?).map fun value =>
      ⟨(row.monitorPolicyOperation i).toInt, value, (row.monitorPolicyExpression i.succ).toInt,
        (row.monitorPolicyValue i.succ).toInt⟩ := by
  rw [MonitorPolicyContext.conditions, List.getElem?_zipWith]
  generalize values[(i : Nat) + 1]? = cell
  fin_cases i <;> cases cell <;> rfl

theorem MonitorPolicyContext.pstList_entry (row : MonitorPolicyContext) (i : Fin 4) :
    row.pstList[4 * (i : Nat) + 3]? = some (printLd (row.monitorPolicyOperation i).toInt) ∧
      row.pstList[4 * (i : Nat) + 3 + 2]? =
        some (printLd (row.monitorPolicyExpression i.succ).toInt) ∧
      row.pstList[4 * (i : Nat) + 3 + 3]? =
        some (printLd (row.monitorPolicyValue i.succ).toInt) := by
  fin_cases i <;> exact ⟨rfl, rfl, rfl⟩

theorem readsAll_of_entries {pstList : List Text} {rest : List Condition} {sCnt : Nat}
    (reads : ∀ k condition, rest[k]? = some condition → Reads pstList (sCnt + 4 * k) condition) :
    ReadsAll pstList sCnt rest := by
  induction rest generalizing sCnt with
  | nil => trivial
  | cons condition rest ih =>
    refine ⟨reads 0 condition rfl, ih fun k other found => ?_⟩
    have moved : sCnt + 4 + 4 * k = sCnt + 4 * (k + 1) := by omega
    rw [moved]
    exact reads (k + 1) other found

theorem copied_reads (accepted : row.Accepted) {fetched : List Text} {values : List Int}
    (parsed : fetched.map atoi = values.map some) (nonempty : fetched ≠ [])
    (bound : fetched.length ≤ 5) :
    ∃ pstList first rest, ReadsRow row fetched values pstList first rest := by
  have lengths : fetched.length = values.length := by
    simpa using congrArg List.length parsed
  obtain ⟨pstList, copied, fetchedAt, kept⟩ := @copyLoop_entries row.pstList fetched 0 (by
    intro k below
    simp only [MonitorPolicyContext.pstList, List.length_cons, List.length_nil]
    omega)
  have printed : ∀ j, j % 4 ≠ 0 → pstList[j]? = row.pstList[j]? := by
    intro j apart
    exact kept j fun k _ => by omega
  have number : ∀ k < fetched.length, ∃ text value, pstList[4 * k]? = some text ∧
      atoi text = some value ∧ values[k]? = some value := by
    intro k below
    have same := congrArg (·[k]?) parsed
    simp only [List.getElem?_map, List.getElem?_eq_getElem below,
      List.getElem?_eq_getElem (lengths ▸ below), Option.map_some, Option.some.injEq] at same
    refine ⟨_, _, ?_, same, List.getElem?_eq_getElem (lengths ▸ below)⟩
    rw [← Nat.zero_add (4 * k), fetchedAt k below, List.getElem?_eq_getElem below]
  have filled := List.length_pos_iff.mpr nonempty
  obtain ⟨text, value, firstCell, firstNumber, firstValue⟩ := number 0 filled
  obtain ⟨first, rest, conditions⟩ := List.exists_cons_of_length_pos
    (l := row.conditions values) (by
      rw [MonitorPolicyContext.conditions, List.length_zipWith]
      exact lt_min (lengths ▸ filled) (Nat.succ_pos _))
  have head : first = ⟨0, value, (row.monitorPolicyExpression 0).toInt,
      (row.monitorPolicyValue 0).toInt⟩ := by
    have same := congrArg (·[0]?) conditions
    simp only [MonitorPolicyContext.conditions, List.getElem?_zipWith, firstValue] at same
    exact (Option.some.inj same).symm
  have size : rest.length + 1 = fetched.length := by
    rw [← List.length_cons, ← conditions, MonitorPolicyContext.conditions, List.length_zipWith,
      lengths]
    exact min_eq_left (lengths ▸ bound)
  have entry : ∀ i : Fin 4, (i : Nat) < rest.length → ∃ text value,
      pstList[4 * ((i : Nat) + 1)]? = some text ∧ atoi text = some value ∧
        rest[(i : Nat)]? = some ⟨(row.monitorPolicyOperation i).toInt, value,
          (row.monitorPolicyExpression i.succ).toInt, (row.monitorPolicyValue i.succ).toInt⟩ := by
    intro i below
    obtain ⟨text, value, cell, same, found⟩ := number (i + 1) (by omega)
    refine ⟨text, value, cell, same, ?_⟩
    rw [← List.getElem?_cons_succ, ← conditions, conditions_entry, found]
    rfl
  subst head
  refine ⟨pstList, _, rest, copied, conditions, size, operand_fetched firstCell firstNumber,
    operand_printed (printed 1 (by decide)), operand_printed (printed 2 (by decide)),
    expression_range (accepted.expression 0), ?_, ?_⟩
  · apply readsAll_of_entries
    intro k condition found
    have below := (List.getElem?_eq_some_iff.mp found).1
    obtain ⟨text, value, cell, same, there⟩ := entry ⟨k, by omega⟩ below
    obtain rfl := Option.some.inj (found.symm.trans there)
    have column := row.pstList_entry ⟨k, by omega⟩
    rw [Nat.add_comm]
    exact @reads_condition row accepted pstList ⟨k, by omega⟩ text value same
      ((printed _ (by dsimp only; omega)).trans column.1) cell
      ((printed _ (by dsimp only; omega)).trans column.2.1)
      ((printed _ (by dsimp only; omega)).trans column.2.2)
  · constructor
    · intro all i below
      obtain ⟨text, value, -, -, there⟩ := entry i (by omega)
      exact all _ (List.mem_of_getElem? there)
    · intro all condition member
      obtain ⟨k, below, found⟩ := List.mem_iff_getElem.mp member
      obtain ⟨text, value, -, -, there⟩ := entry ⟨k, by omega⟩ below
      rw [List.getElem?_eq_getElem below, found] at there
      obtain rfl := Option.some.inj there
      exact all ⟨k, by omega⟩ (by dsimp only; omega)

end Row

section Result

variable {row : MonitorPolicyContext} {fetched : List Text} {values : List Int}

theorem validateFirst {pstList : List Text} {first : Condition} {rest : List Condition}
    (reads : ReadsRow row fetched values pstList first rest) :
    rbmValidateSingleVariable 0 0 pstList = some (truth first.Holds) := by
  obtain ⟨text, exp⟩ := aExp_entry reads.range
  rw [rbmValidateSingleVariable, if_pos rfl]
  simp only [Nat.zero_add, reads.value, reads.expression, reads.threshold, Option.bind_eq_bind,
    Option.bind_some, saferExpr_id reads.range, exp, satisfied_truth]
  rfl

theorem evaluate_fold (accepted : row.Accepted) (parsed : fetched.map atoi = values.map some)
    (nonempty : fetched ≠ []) (bound : fetched.length ≤ 5) :
    ((∀ i : Fin 4, (i : Nat) + 1 < fetched.length →
        0 ≤ (row.monitorPolicyOperation i).toInt ∧ (row.monitorPolicyOperation i).toInt ≤ 2) ∧
      rbmEvaluate row.pstList fetched = some (truth (FoldHolds (row.conditions values)))) ∨
    ((¬ ∀ i : Fin 4, (i : Nat) + 1 < fetched.length →
        0 ≤ (row.monitorPolicyOperation i).toInt ∧ (row.monitorPolicyOperation i).toInt ≤ 2) ∧
      rbmEvaluate row.pstList fetched = none) := by
  obtain ⟨pstList, first, rest, reads⟩ := copied_reads accepted parsed nonempty bound
  have length := reads.length
  have computed : rbmEvaluate row.pstList fetched =
      if ∀ condition ∈ rest, 0 ≤ condition.operation ∧ condition.operation ≤ 2 then
        some (truth (FoldHolds (row.conditions values)))
      else none := by
    rw [rbmEvaluate, reads.copied]
    simp only [rbmValidateVariables, validateFirst reads]
    rw [validateLoop first.Holds reads.others (by omega) (by omega) (by omega), reads.conditions]
    rfl
  by_cases operations : ∀ condition ∈ rest, 0 ≤ condition.operation ∧ condition.operation ≤ 2
  · rw [if_pos operations] at computed
    exact .inl ⟨reads.operations.mp operations, computed⟩
  · rw [if_neg operations] at computed
    exact .inr ⟨fun all => operations (reads.operations.mpr all), computed⟩

theorem numbers_of_fit (fit : ∀ text ∈ fetched, atoi text ≠ none) :
    ∃ values : List Int, fetched.map atoi = values.map some := by
  induction fetched with
  | nil => exact ⟨[], rfl⟩
  | cons text fetched ih =>
    obtain ⟨value, parsed⟩ := Option.ne_none_iff_exists'.mp (fit text List.mem_cons_self)
    obtain ⟨values, others⟩ := ih fun text member => fit text (List.mem_cons_of_mem _ member)
    exact ⟨value :: values, by rw [List.map_cons, parsed, others, List.map_cons]⟩

/-- The evaluation of an accepted row with at least one variable is the fold of its
conditions exactly when the operations in use have a name and the fetched numbers fit. -/
theorem evaluates_iff (row : MonitorPolicyContext) (accepted : row.Accepted) (fetched : List Text)
    (set : row.variablesSet ≠ []) (answered : fetched.length = row.variablesSet.length) :
    Evaluates row fetched ↔ WellFormed row fetched := by
  have bound := variablesSet_length row
  have positive := List.length_pos_of_ne_nil set
  have nonempty : fetched ≠ [] := by
    rintro rfl
    rw [List.length_nil] at answered
    omega
  constructor
  · rintro ⟨_, values, parsed, result, computed, _⟩
    constructor
    · intro text member missing
      have inside : atoi text ∈ values.map some := by
        rw [← parsed]
        exact List.mem_map_of_mem member
      rw [missing] at inside
      simp at inside
    · rcases evaluate_fold accepted parsed nonempty (by omega) with ⟨operations, _⟩ | ⟨_, fails⟩
      · exact operations
      · rw [fails] at computed
        cases computed
  · rintro ⟨fit, operations⟩
    obtain ⟨values, parsed⟩ := numbers_of_fit fit
    refine ⟨fillOidList_variablesSet row, values, parsed, ?_⟩
    rcases evaluate_fold accepted parsed nonempty (by omega) with ⟨_, computed⟩ | ⟨fails, _⟩
    · exact ⟨_, computed, truth_eq_one⟩
    · exact absurd operations fails

/-- Two variables are set, connected by this operation: the first value is to be under 10,
the second one over 20. -/
def twoConditions (operation : Int32) : MonitorPolicyContext :=
  { monitorPolicyVariable := ![[1, 3, 6, 1], [1, 3, 6, 2], [0, 0], [0, 0], [0, 0]]
    monitorPolicyExpression := ![0, 1, 0, 0, 0]
    monitorPolicyValue := ![10, 20, 0, 0, 0]
    monitorPolicyOperation := ![operation, 0, 0, 0]
    monitorPolicyLevel := 1
    monitorPolicySMS := 2
    monitorPolicyPopup := 2
    monitorPolicyEmail := 2
    monitorPolicyPSTN := 2
    monitorPolicyCommand := []
    monitorPolicyScript := []
    monitorPolicyAlertMessage := [] }

theorem twoConditions_accepted (operation : Int32) : (twoConditions operation).Accepted := by
  have accepts : ∀ colnum value, monitorPolicyTableSetReserve1 colnum
      ⟨.asnInteger, sizeofLong, value⟩ = .snmpErrNoError → ColumnAccepts colnum value :=
    fun colnum value passed => ⟨⟨.asnInteger, sizeofLong, value⟩, rfl, passed⟩
  constructor
  · intro i
    apply accepts
    fin_cases i <;> rfl
  · intro i
    apply accepts
    fin_cases i <;> rfl
  · intro i
    apply accepts
    fin_cases i <;> rfl

theorem evaluates_iff_and : Evaluates (twoConditions 0) ["7".toList, "21".toList] :=
  (evaluates_iff (twoConditions 0) (twoConditions_accepted 0) _ (by decide) (by decide)).mpr
    ⟨by decide, by decide⟩

/-- The operation 3, which a SET writes without a complaint. -/
theorem evaluates_unnamedOperation :
    (twoConditions 3).Accepted ∧ (twoConditions 3).variablesSet.length = 2 ∧
      ¬ Evaluates (twoConditions 3) ["7".toList, "21".toList] := by
  refine ⟨twoConditions_accepted 3, by decide, ?_⟩
  rintro ⟨_, _, _, result, computed, _⟩
  have fails : rbmEvaluate (twoConditions 3).pstList ["7".toList, "21".toList] = none := by
    decide
  rw [fails] at computed
  cases computed

end Result

end EveAgent.Rbm
