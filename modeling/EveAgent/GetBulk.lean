import Mathlib

/-! Walks through a table by requests for the objects behind those that are named. -/

namespace EveAgent.GetBulk

section Names

abbrev Oid := List Nat

variable {col name name' : Oid}

theorem lt_behind (col : Oid) (i : Nat) (rest : Oid) : col < col ++ i :: rest := by
  induction col with
  | nil => exact List.nil_lt_cons i rest
  | cons part col ih => exact List.cons_lt_cons_iff.mpr (.inr ⟨rfl, ih⟩)

theorem le_append (col rest : Oid) : col ≤ col ++ rest := by
  cases rest with
  | nil => rw [List.append_nil]
  | cons i rest => exact le_of_lt (lt_behind col i rest)

theorem cell_lt_cell (col : Oid) (i j : Nat) : col ++ [i] < col ++ [j] ↔ i < j := by
  induction col with
  | nil => simp [List.cons_lt_cons_iff]
  | cons part col ih => simp [ih]

theorem behind_subtree (outside : ¬ col <+: name) (after : col < name) (rest : Oid) :
    col ++ rest < name := by
  induction col generalizing name with
  | nil => exact absurd List.nil_prefix outside
  | cons part col ih =>
    cases name with
    | nil => exact absurd after (List.not_lt_nil _)
    | cons part' name =>
      apply List.cons_lt_cons_iff.mpr
      rcases List.cons_lt_cons_iff.mp after with less | ⟨rfl, less⟩
      · exact .inl less
      · refine .inr ⟨rfl, ih ?_ less⟩
        intro inside
        exact outside (List.cons_prefix_cons.mpr ⟨rfl, inside⟩)

end Names

section Values

/-- The value of an object: an octet string or a number. -/
inductive Value where
  | string (octets : List UInt8)
  | integer (value : Int32)
  deriving DecidableEq, Repr

def Value.octets? : Value → Option (List UInt8)
  | .string octets => some octets
  | .integer _ => none

def Value.integer? : Value → Option Int32
  | .string _ => none
  | .integer value => some value

end Values

section Agents

variable {V : Type}

/-- A variable in a response; the exception `endOfMibView` stands in place of its value. -/
structure Varbind (V : Type) where
  name : Oid
  val : Option V
  deriving DecidableEq, Repr

/-- What an agent gives access to, in the order of the names. -/
structure Mib (V : Type) where
  objects : List (Oid × V)
  sorted : objects.Pairwise fun object object' => object.1 < object'.1

variable (mib : Mib V)

def Mib.successors (oid : Oid) : List (Oid × V) :=
  mib.objects.filter fun object => oid < object.1

/-- What is found for the name in one of the repetitions. -/
def Mib.answer (oid : Oid) (repetition : Nat) : Varbind V :=
  match (mib.successors oid)[repetition]? with
  | some object => ⟨object.1, some object.2⟩
  | none => ⟨((mib.successors oid).getLast?.map Prod.fst).getD oid, none⟩

def Mib.repetition (oids : List Oid) (repetition : Nat) : List (Varbind V) :=
  oids.map fun oid => mib.answer oid repetition

/-- The variables of the response, interleaved by repetition. -/
def Mib.getBulk (maxRepetitions : Nat) (oids : List Oid) : List (Varbind V) :=
  (List.range' 0 maxRepetitions).flatMap (mib.repetition oids)

/-- The subtree of the column has exactly these cells. -/
def Mib.Column (col : Oid) (cells : List (Nat × V)) : Prop :=
  mib.objects.filter (fun object => col <+: object.1) =
    cells.map fun cell => (col ++ [cell.1], cell.2)

def Mib.beyond (col : Oid) : List (Oid × V) :=
  mib.objects.filter fun object => col < object.1 ∧ ¬ col <+: object.1

end Agents

section Columns

variable {V : Type} {mib : Mib V} {col : Oid} {cells front back : List (Nat × V)} {i : Nat} {v : V}

theorem Mib.Column.ascending (column : mib.Column col cells) :
    cells.Pairwise fun cell cell' => cell.1 < cell'.1 := by
  have sorted := mib.sorted.filter fun object => col <+: object.1
  rw [column, List.pairwise_map] at sorted
  exact sorted.imp fun less => (cell_lt_cell _ _ _).mp less

theorem filter_or {α : Type} {R : α → α → Prop} {list : List α} {P Q : α → Prop}
    [DecidablePred P] [DecidablePred Q] (sorted : list.Pairwise R)
    (order : ∀ a b, Q a → P b → ¬ R a b) (apart : ∀ a, P a → ¬ Q a) :
    list.filter (fun a => P a ∨ Q a) =
      list.filter (fun a => P a) ++ list.filter fun a => Q a := by
  induction list with
  | nil => rfl
  | cons a list ih =>
    rcases List.pairwise_cons.mp sorted with ⟨least, sorted⟩
    have rest := ih sorted
    by_cases first : P a
    · rw [List.filter_cons_of_pos (by simp [first]), List.filter_cons_of_pos (by simp [first]),
        List.filter_cons_of_neg (by simp [apart a first]), rest, List.cons_append]
    · by_cases second : Q a
      · have none : list.filter (fun b => P b) = [] := by
          apply List.filter_eq_nil_iff.mpr
          intro b member
          simpa using fun holds => order a b second holds (least b member)
        rw [List.filter_cons_of_pos (by simp [second]), List.filter_cons_of_neg (by simp [first]),
          List.filter_cons_of_pos (by simp [second]), rest, none, List.nil_append,
          List.nil_append]
      · rw [List.filter_cons_of_neg (by simp [first, second]),
          List.filter_cons_of_neg (by simp [first]), List.filter_cons_of_neg (by simp [second]),
          rest]

theorem successors_split {oid : Oid} {rest : Oid} (place : oid = col ++ rest) :
    mib.successors oid = (mib.objects.filter fun object => col <+: object.1 ∧ oid < object.1) ++
      mib.beyond col := by
  rw [Mib.beyond, ← filter_or mib.sorted]
  · apply List.filter_congr
    intro object _
    rw [decide_eq_decide]
    constructor
    · intro after
      by_cases inside : col <+: object.1
      · exact .inl ⟨inside, after⟩
      · refine .inr ⟨?_, inside⟩
        by_contra before
        rcases lt_trichotomy col object.1 with less | same | greater
        · exact before less
        · exact inside (same ▸ List.prefix_rfl)
        · apply lt_irrefl object.1
          calc object.1 < col := greater
            _ ≤ oid := by rw [place]; exact le_append col rest
            _ < object.1 := after
    · intro found
      rcases found with ⟨_, after⟩ | ⟨after, outside⟩
      · exact after
      · rw [place]
        exact behind_subtree outside after rest
  · intro object object' beyond inside less
    rcases inside.1 with ⟨rest', same⟩
    apply lt_irrefl object.1
    calc object.1 < object'.1 := less
      _ = col ++ rest' := same.symm
      _ < object.1 := behind_subtree beyond.2 beyond.1 rest'
  · intro object inside beyond
    exact beyond.2 inside.1

theorem Mib.Column.inside (column : mib.Column col cells) (oid : Oid) :
    (mib.objects.filter fun object => col <+: object.1 ∧ oid < object.1) =
      (cells.filter fun cell => oid < col ++ [cell.1]).map fun cell =>
        (col ++ [cell.1], cell.2) := by
  have both : (mib.objects.filter fun object => col <+: object.1 ∧ oid < object.1) =
      (mib.objects.filter fun object => col <+: object.1).filter fun object => oid < object.1 := by
    rw [List.filter_filter]
    apply List.filter_congr
    intro object _
    simp [and_comm]
  rw [both, column, List.filter_map]
  rfl

/-- A walk starts with the first cell of the column. -/
theorem Mib.Column.successors (column : mib.Column col cells) :
    mib.successors col =
      cells.map (fun cell => (col ++ [cell.1], cell.2)) ++ mib.beyond col := by
  rw [successors_split (List.append_nil col).symm, column.inside, List.filter_eq_self.mpr]
  intro cell _
  exact decide_eq_true (lt_behind col cell.1 [])

theorem Mib.Column.successors_cell (column : mib.Column col (front ++ (i, v) :: back)) :
    mib.successors (col ++ [i]) =
      back.map (fun cell => (col ++ [cell.1], cell.2)) ++ mib.beyond col := by
  have ascending := column.ascending
  rcases List.pairwise_append.mp ascending with ⟨_, behind, across⟩
  have late := (List.pairwise_cons.mp behind).1
  have early : front.filter (fun cell => col ++ [i] < col ++ [cell.1]) = [] := by
    apply List.filter_eq_nil_iff.mpr
    intro cell member
    have less := across cell member (i, v) List.mem_cons_self
    simp only [cell_lt_cell, decide_eq_true_eq]
    exact Nat.lt_asymm less
  have kept : back.filter (fun cell => col ++ [i] < col ++ [cell.1]) = back := by
    apply List.filter_eq_self.mpr
    intro cell member
    exact decide_eq_true ((cell_lt_cell _ _ _).mpr (late cell member))
  rw [successors_split rfl, column.inside, List.filter_append, early,
    List.filter_cons_of_neg (by simp), kept, List.nil_append]

/-- The name to go on from when some cells of the column are done. -/
def resume (col : Oid) (done : List (Nat × V)) : Oid := col ++ (done.getLast?.map Prod.fst).toList

theorem resume_nil (col : Oid) : resume col ([] : List (Nat × V)) = col := List.append_nil col

theorem resume_last (col : Oid) (done : List (Nat × V)) (cell : Nat × V) :
    resume col (done ++ [cell]) = col ++ [cell.1] := by
  simp [resume]

theorem Mib.Column.successors_resume (column : mib.Column col (front ++ back)) :
    mib.successors (resume col front) =
      back.map (fun cell => (col ++ [cell.1], cell.2)) ++ mib.beyond col := by
  rcases List.eq_nil_or_concat' front with rfl | ⟨done, cell, rfl⟩
  · rw [resume_nil]
    exact column.successors
  · rw [resume_last]
    rw [List.append_assoc] at column
    exact column.successors_cell

theorem beyond_outside {object : Oid × V} (member : object ∈ mib.beyond col) :
    ¬ col <+: object.1 :=
  (of_decide_eq_true (List.mem_filter.mp member).2).2

variable {oid : Oid} {rest : List (Nat × V)} {r : Nat}

theorem answer_cell (successors : mib.successors oid =
      rest.map (fun cell => (col ++ [cell.1], cell.2)) ++ mib.beyond col)
    (cell : rest[r]? = some (i, v)) : mib.answer oid r = ⟨col ++ [i], some v⟩ := by
  have short := (List.getElem?_eq_some_iff.mp cell).1
  rw [Mib.answer, successors, List.getElem?_append_left (by simpa using short), List.getElem?_map,
    cell]
  rfl

theorem answer_beyond (successors : mib.successors oid =
      rest.map (fun cell => (col ++ [cell.1], cell.2)) ++ mib.beyond col)
    (ended : rest.length ≤ r) :
    (mib.answer oid r).val = none ∨ ¬ col <+: (mib.answer oid r).name := by
  rw [Mib.answer, successors, List.getElem?_append_right (by simpa using ended)]
  cases found : (mib.beyond col)[r - (rest.map fun cell => (col ++ [cell.1], cell.2)).length]? with
  | none => exact .inl rfl
  | some object => exact .inr (beyond_outside (List.mem_of_getElem? found))

theorem getBulk_cons (maxRepetitions first : Nat) (oids : List Oid) :
    (List.range' first (maxRepetitions + 1)).flatMap (mib.repetition oids) =
      mib.repetition oids first ++
        (List.range' (first + 1) maxRepetitions).flatMap (mib.repetition oids) := by
  rw [List.range'_succ, List.flatMap_cons]

theorem answer_outside (successors : mib.successors oid =
      rest.map (fun cell => (col ++ [cell.1], cell.2)) ++ mib.beyond col)
    (more : mib.beyond col ≠ []) :
    (mib.answer oid rest.length).val ≠ none ∧ ¬ col <+: (mib.answer oid rest.length).name := by
  rcases List.exists_cons_of_ne_nil more with ⟨object, others, split⟩
  have outside : ¬ col <+: object.1 := by
    apply @beyond_outside V mib
    rw [split]
    exact List.mem_cons_self
  have found : (mib.successors oid)[rest.length]? = some object := by
    rw [successors, List.getElem?_append_right (by simp), split]
    simp
  rw [Mib.answer, found]
  exact ⟨by simp, outside⟩

theorem Mib.Column.beyond_ne {col' : Oid} (column : mib.Column col' cells) (some : cells ≠ [])
    (apart : ¬ col <+: col') (short : col.length = col'.length) (order : col < col') :
    mib.beyond col ≠ [] := by
  rcases List.exists_cons_of_ne_nil some with ⟨cell, others, rfl⟩
  have inside :
      (col' ++ [cell.1], cell.2) ∈ mib.objects.filter fun object => col' <+: object.1 := by
    rw [column]
    exact List.mem_cons_self
  apply List.ne_nil_of_mem
  apply List.mem_filter.mpr
  refine ⟨(List.mem_filter.mp inside).1, decide_eq_true ⟨?_, ?_⟩⟩
  · exact lt_of_lt_of_le order (le_append col' [cell.1])
  · intro before
    apply apart
    exact List.prefix_of_prefix_length_le before (List.prefix_append _ _) (Nat.le_of_eq short)

end Columns

section Tables

variable {V Row : Type} {mib : Mib V} {columns : List (Oid × (Row → V))} {index : Row → Nat}
  {done rest : List Row} {row : Row} {r : Nat}

def Mib.Table (mib : Mib V) (columns : List (Oid × (Row → V))) (index : Row → Nat)
    (rows : List Row) : Prop :=
  ∀ column ∈ columns, mib.Column column.1 (rows.map fun row => (index row, column.2 row))

def resumes (columns : List (Oid × (Row → V))) (index : Row → Nat) (done : List Row) : List Oid :=
  columns.map fun column => resume column.1 (done.map fun row => (index row, column.2 row))

theorem resumes_nil : resumes columns index [] = columns.map Prod.fst :=
  List.map_congr_left fun column _ => resume_nil column.1

theorem resumes_last : resumes columns index (done ++ [row]) =
    columns.map fun column => column.1 ++ [index row] := by
  apply List.map_congr_left
  intro column _
  rw [List.map_append]
  exact resume_last column.1 _ _

theorem Mib.Table.repetition (table : mib.Table columns index (done ++ rest))
    (here : rest[r]? = some row) :
    mib.repetition (resumes columns index done) r =
      columns.map fun column => ⟨column.1 ++ [index row], some (column.2 row)⟩ := by
  rw [Mib.repetition, resumes, List.map_map]
  apply List.map_congr_left
  intro column member
  have cells := table column member
  rw [List.map_append] at cells
  apply answer_cell cells.successors_resume
  rw [List.getElem?_map, here]
  rfl

end Tables

end EveAgent.GetBulk
