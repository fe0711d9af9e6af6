import EveAgent.TransMon.CaptureFilter
import EveAgent.TransMon.Totals

namespace EveAgent.TransMon.CaptureFilter

section Property

/-- The term of a row in the filter, if the row is active. -/
def captured (row : Row) : Option Text :=
  if row.transactionStatus = 1 then
    some (filterFormat row.transactionTransportPort row.transactionClientAddress.value.val)
  else none

def filterText (rows : List Row) : Text :=
  if rows.filterMap captured = [] then nullFilterString
  else orString.intercalate (rows.filterMap captured)

def Right (s : State) : Prop := s.installed = filterText s.table.rows

instance (s : State) : Decidable (Right s) := inferInstanceAs (Decidable (_ = _))

/-- The commit changes the port, the address or the status of a row, or destroys it. -/
def Acted.changes (acted : Acted) : Bool :=
  match acted.before with
  | none => true
  | some before =>
    acted.row.transactionStatus == 6 ||
      acted.row.transactionTransportPort != before.transactionTransportPort ||
      acted.row.transactionClientAddress.value.val != before.transactionClientAddress.value.val ||
      acted.row.transactionStatus != before.transactionStatus

/-- The rows of a request that is committed, as its action leaves them. -/
def committed (table : TransactionTable) (request : Request) : Option (List Acted) :=
  if refuses table request then none
  else
    match actions table request.groups with
    | .error _ => none
    | .ok acted => if undoes request acted then none else some acted

/-- A commit that changes nothing of a row leaves its counters as they were written. -/
def CountersKept (s s' : State) : Event → Prop
  | .packet _ _ => True
  | .set request =>
    ∀ acted ∈ committed s.table request, ∀ one ∈ acted, one.changes = false →
      (s'.table.find one.row.transactionIndex).map Row.counters = some one.row.counters

/-- The filter is right along the run, and no step writes outside of an array. -/
def Captures : State → List Event → Prop
  | s, [] => Right s
  | s, event :: later =>
    Right s ∧ ∃ s', step s event = .ok s' ∧ CountersKept s s' event ∧ Captures s' later

instance (s s' : State) : (event : Event) → Decidable (CountersKept s s' event)
  | .packet _ _ => isTrue trivial
  | .set request => inferInstanceAs (Decidable (∀ acted ∈ committed s.table request,
      ∀ one ∈ acted, one.changes = false →
        (s'.table.find one.row.transactionIndex).map Row.counters = some one.row.counters))

def decideReaches (reached : Attempt Unit State) (post : State → Prop)
    (decides : ∀ s, Decidable (post s)) : Decidable (∃ s, reached = .ok s ∧ post s) :=
  match reached with
  | .error _ => isFalse fun ⟨_, same, _⟩ => nomatch same
  | .ok s => decidable_of_iff (post s) (by simp)

instance decidableCaptures : (s : State) → (events : List Event) → Decidable (Captures s events)
  | s, [] => inferInstanceAs (Decidable (Right s))
  | s, event :: later =>
    have := decideReaches (step s event) (fun s' => CountersKept s s' event ∧ Captures s' later)
      fun s' =>
        have := decidableCaptures s' later
        inferInstanceAs (Decidable (_ ∧ _))
    inferInstanceAs (Decidable (Right s ∧ _))

instance (table : TransactionTable) (events : List Event) :
    Decidable (∃ s, start table = .ok s ∧ Captures s events) :=
  decideReaches (start table) (fun s => Captures s events) fun s => decidableCaptures s events

def PortOk (row : Row) : Prop :=
  -2 ^ 31 ≤ row.transactionTransportPort ∧ row.transactionTransportPort < 2 ^ 31

structure Loaded where
  table : TransactionTable
  ports : ∀ row ∈ table.rows, PortOk row

end Property

section Condition

/-- The row is active, and its address is stored with its end. -/
def Whole (row : Row) : Prop :=
  row.transactionStatus = 1 ∧
    row.transactionClientAddress.text = row.transactionClientAddress.value.val

instance (row : Row) : Decidable (Whole row) := inferInstanceAs (Decidable (_ ∧ _))

def printed (row : Row) : Text :=
  filterFormat row.transactionTransportPort row.transactionClientAddress.text

/-- The terms of all rows have room in `gcFilter`. -/
def Room (rows : List Row) : Prop :=
  (orString.intercalate (rows.map printed)).length < gcFilterSize

instance (rows : List Row) : Decidable (Room rows) := inferInstanceAs (Decidable (_ < _))

def Acted.installs (acted : Acted) : Bool :=
  acted.saved && (acted.row.transactionStatus = 1 || acted.row.transactionStatus = 6)

def behind (table : TransactionTable) (acted : Acted) : TransactionTable :=
  if acted.saved && acted.row.transactionStatus = 1 then
    (inserted table acted).put (trResetCounters acted.row)
  else inserted table acted

/-- There is room whenever a filter is installed, and the last time all rows are active and no
active row is inserted later. -/
def InstallsWhole : TransactionTable → List Acted → Prop
  | _, [] => True
  | table, acted :: later =>
    (acted.installs = true → Room (inserted table acted).rows ∧
      (later.any Acted.installs = false →
        (∀ row ∈ (inserted table acted).rows, Whole row) ∧
        ∀ other ∈ later, other.before = none → captured other.row = none)) ∧
      InstallsWhole (behind table acted) later

/-- No commit of the request installs a filter, and none has to. -/
def Quiet (acted : List Acted) : Prop :=
  acted.any Acted.installs = false ∧
    ∀ one ∈ acted, captured one.row = one.before.bind captured

def Varbind.fits : Varbind → Bool
  | .clientAddress value => value.length ≤ 15
  | _ => true

instance decidableInstallsWhole : (table : TransactionTable) → (acted : List Acted) →
    Decidable (InstallsWhole table acted)
  | _, [] => isTrue trivial
  | table, acted :: later =>
    have := decidableInstallsWhole (behind table acted) later
    inferInstanceAs (Decidable (_ ∧ _))

instance (acted : List Acted) : Decidable (Quiet acted) := inferInstanceAs (Decidable (_ ∧ _))

structure SetAllowed (s : State) (request : Request) : Prop where
  short : refuses s.table request = false → ∀ group ∈ request.groups, ∀ column ∈ group.columns,
    column.fits = true
  filter : ∀ acted ∈ committed s.table request,
    Quiet acted ∨ (acted.any Acted.installs = true ∧ InstallsWhole (inPlace s.table acted) acted)
  counters : ∀ acted ∈ committed s.table request, ∀ one ∈ acted,
    one.changes = false → one.saved = true → one.row.transactionStatus = 1 →
      one.row.counters = .zero

instance (s : State) (request : Request) : Decidable (SetAllowed s request) :=
  decidable_of_iff (_ ∧ _ ∧ _)
    ⟨fun allowed => ⟨allowed.1, allowed.2.1, allowed.2.2⟩,
      fun allowed => ⟨allowed.short, allowed.filter, allowed.counters⟩⟩

def Allowed : State → List Event → Prop
  | _, [] => True
  | s, .packet mypacket now :: later =>
    ∀ s', step s (.packet mypacket now) = .ok s' → Allowed s' later
  | s, .set request :: later =>
    SetAllowed s request ∧ ∀ s', step s (.set request) = .ok s' → Allowed s' later

/-- What holds of the state that is reached, if there is one. -/
def decideReached (reached : Attempt Unit State) (post : State → Prop)
    (decides : ∀ s, Decidable (post s)) : Decidable (∀ s, reached = .ok s → post s) :=
  match reached with
  | .error stop => isTrue fun _ same => nomatch same
  | .ok s => decidable_of_iff (post s) (by simp)

instance decidableAllowed : (s : State) → (events : List Event) → Decidable (Allowed s events)
  | _, [] => isTrue trivial
  | s, .packet mypacket now :: later =>
    decideReached (step s (.packet mypacket now)) (fun s' => Allowed s' later)
      fun s' => decidableAllowed s' later
  | s, .set request :: later =>
    have := decideReached (step s (.set request)) (fun s' => Allowed s' later)
      fun s' => decidableAllowed s' later
    inferInstanceAs (Decidable (_ ∧ _))

/-- The rows that are loaded are active, and have room. -/
def StartAllowed (rows : List Row) : Prop := Room rows ∧ ∀ row ∈ rows, Whole row

end Condition

section Texts

variable {rows : List Row}

theorem printed_length {row : Row} (lower : -2 ^ 31 ≤ row.transactionTransportPort)
    (upper : row.transactionTransportPort < 2 ^ 31) : (printed row).length < tempBuffSize := by
  have port := @printLd_length row.transactionTransportPort lower (by omega)
  have host : row.transactionClientAddress.text.length ≤ 15 := by
    have room := row.transactionClientAddress.room
    have shorter := (List.takeWhile_sublist (fun c : Char => c != '\x00')
      (l := row.transactionClientAddress.bytes)).length_le
    rw [ClientAddress.text]
    omega
  have first : tcpPort.length = 10 := by decide
  have second : andHost.length = 10 := by decide
  rw [printed, filterFormat, tempBuffSize]
  simp only [List.length_append, List.length_singleton, first, second]
  omega

theorem filterLoop_eq {gcFilter : Text} (ports : ∀ row ∈ rows, PortOk row)
    (room : (gcFilter ++ orString.intercalate (rows.map printed)).length < gcFilterSize) :
    filterLoop gcFilter rows = .ok (gcFilter ++ orString.intercalate (rows.map printed)) := by
  induction rows generalizing gcFilter with
  | nil => simp [filterLoop, List.intercalate]
  | cons row rows ih =>
    obtain ⟨lower, upper⟩ := ports row List.mem_cons_self
    have term := printed_length lower upper
    have later : ∀ row ∈ rows, PortOk row :=
      fun other member => ports other (List.mem_cons_of_mem _ member)
    rw [filterLoop]
    change (sprintf tempBuffSize (printed row) >>= fun tempBuff =>
      sprintf gcFilterSize (gcFilter ++ tempBuff) >>= fun gcFilter =>
      if rows = [] then pure gcFilter
      else sprintf gcFilterSize (gcFilter ++ orString) >>= fun gcFilter =>
        filterLoop gcFilter rows) = _
    rw [sprintf_fits term, ok_bind]
    cases rows with
    | nil =>
      have single : orString.intercalate ([row].map printed) = printed row := by
        simp [List.intercalate]
      rw [single] at room ⊢
      rw [sprintf_fits room, ok_bind, if_pos rfl]
      rfl
    | cons next rows =>
      rw [List.map_cons, List.map_cons, List.intercalate_cons_cons, ← List.map_cons] at room ⊢
      have joined : gcFilter ++ (printed row ++ orString ++
          orString.intercalate ((next :: rows).map printed)) =
          (gcFilter ++ printed row ++ orString) ++
            orString.intercalate ((next :: rows).map printed) := by
        simp only [List.append_assoc]
      rw [joined] at room ⊢
      have lengths := room
      simp only [List.length_append] at lengths
      rw [sprintf_fits (by simp only [List.length_append]; omega), ok_bind,
        if_neg (List.cons_ne_nil _ _),
        sprintf_fits (by simp only [List.length_append]; omega), ok_bind, ih later room]

theorem filterText_whole (whole : ∀ row ∈ rows, Whole row) :
    filterText rows =
      if rows = [] then nullFilterString else orString.intercalate (rows.map printed) := by
  have terms : rows.filterMap captured = rows.map printed := by
    rw [← List.filterMap_eq_map]
    apply List.filterMap_congr
    intro row member
    obtain ⟨active, text⟩ := whole row member
    rw [captured, if_pos active, ← text]
    rfl
  rw [filterText, terms]
  simp only [List.map_eq_nil_iff]

theorem intercalate_ne_nil (filled : rows ≠ []) : orString.intercalate (rows.map printed) ≠ [] := by
  cases rows with
  | nil => exact absurd rfl filled
  | cons row rows =>
    intro empty
    cases rows with
    | nil => simp [List.intercalate, printed, filterFormat] at empty
    | cons next rows =>
      rw [List.map_cons, List.map_cons, List.intercalate_cons_cons] at empty
      simp [printed, filterFormat] at empty

theorem trUpdateFilter_eq (ports : ∀ row ∈ rows, PortOk row) (room : Room rows) :
    trUpdateFilter rows =
      .ok (if rows = [] then nullFilterString else orString.intercalate (rows.map printed)) := by
  have looped := @filterLoop_eq rows [] ports room
  rw [trUpdateFilter, looped, ok_bind, List.nil_append]
  by_cases empty : rows = []
  · rw [empty]
    decide
  · rw [if_neg (intercalate_ne_nil empty), if_neg empty]
    rfl

end Texts

section Actions

variable {table : TransactionTable} {row : Row} {acted : List Acted} {one : Acted} {k : Nat}

/-- What a column leaves of a row: its index, and the range of its port. -/
def Keeps (row row' : Row) : Prop :=
  row'.transactionIndex = row.transactionIndex ∧ (PortOk row → PortOk row')

theorem setColumn_keeps {column : Varbind} (short : column.fits = true) :
    ∃ row', setColumn row column = .ok row' ∧ Keeps row row' := by
  cases column with
  | clientAddress value => exact ⟨_, dif_pos (of_decide_eq_true short), rfl, id⟩
  | transportPort value => exact ⟨_, rfl, rfl, fun _ => ⟨value.le_toInt, value.toInt_lt⟩⟩
  | _ => exact ⟨_, rfl, rfl, id⟩

theorem setColumns_keeps {columns : List Varbind}
    (short : ∀ column ∈ columns, column.fits = true) :
    ∃ row', setColumns row columns = .ok row' ∧ Keeps row row' := by
  induction columns generalizing row with
  | nil => exact ⟨row, rfl, rfl, id⟩
  | cons column columns ih =>
    obtain ⟨written, ran, first⟩ := @setColumn_keeps row column (short column List.mem_cons_self)
    obtain ⟨last, ran', later⟩ :=
      @ih written fun next member => short next (List.mem_cons_of_mem _ member)
    refine ⟨last, ?_, later.1.trans first.1, later.2 ∘ first.2⟩
    rw [setColumns, ran, ok_bind, ran']

theorem checkRowStatus_cases (rsNew : Int) :
    checkRowStatus rsNew = 1 ∨ checkRowStatus rsNew = 2 ∨ checkRowStatus rsNew = 6 := by
  unfold checkRowStatus
  split
  · exact Or.inl rfl
  · split
    · exact Or.inr (Or.inl rfl)
    · exact Or.inr (Or.inr rfl)

/-- A row is active, not in service or to be destroyed behind its action. -/
def StatusOk (row : Row) : Prop :=
  row.transactionStatus = 1 ∨ row.transactionStatus = 2 ∨ row.transactionStatus = 6

theorem setAction_keeps {columns : List Varbind}
    (short : ∀ column ∈ columns, column.fits = true) :
    ∃ row', setAction row columns = .ok row' ∧ Keeps row row' ∧ StatusOk row' := by
  obtain ⟨written, ran, keeps⟩ := @setColumns_keeps row columns short
  refine ⟨{ written with transactionStatus := checkRowStatus written.transactionStatus }, ?_, keeps,
    checkRowStatus_cases _⟩
  rw [setAction, ran, ok_bind]
  rfl

/-- What the actions of a request leave: a row for each index, found in the container or not. -/
structure ActedFrom (table : TransactionTable) (acted : List Acted) : Prop where
  found : ∀ one ∈ acted, one.before = table.find one.row.transactionIndex
  ports : (∀ row ∈ table.rows, PortOk row) → ∀ one ∈ acted, PortOk one.row
  statuses : ∀ one ∈ acted, StatusOk one.row
  distinct : (acted.map fun one => one.row.transactionIndex).Nodup

theorem rowOf_index (table : TransactionTable) (index : Nat) :
    (rowOf table index).transactionIndex = index := by
  rw [rowOf]
  cases found : table.find index with
  | none => rfl
  | some row => exact SortedTable.find_key found

theorem rowOf_port (ports : ∀ row ∈ table.rows, PortOk row) (index : Nat) :
    PortOk (rowOf table index) := by
  rw [rowOf]
  cases found : table.find index with
  | none =>
    have zero : (createRow index).transactionTransportPort = 0 := rfl
    rw [Option.getD_none, PortOk, zero]
    decide
  | some row => exact ports row (SortedTable.find_mem found)

theorem actions_from {groups : List Group} (distinct : (groups.map Group.index).Nodup)
    (short : ∀ group ∈ groups, ∀ column ∈ group.columns, column.fits = true) :
    ∃ acted, actions table groups = .ok acted ∧ ActedFrom table acted ∧
      acted.map (fun one => one.row.transactionIndex) = groups.map Group.index := by
  induction groups with
  | nil => exact ⟨[], rfl, ⟨by simp, by simp, by simp, List.nodup_nil⟩, rfl⟩
  | cons group groups ih =>
    obtain ⟨fresh, distinct⟩ := List.nodup_cons.mp distinct
    obtain ⟨row, ran, ⟨index, port⟩, status⟩ :=
      @setAction_keeps (rowOf table group.index) group.columns
      (short group List.mem_cons_self)
    obtain ⟨later, ran', from_, indexes⟩ :=
      ih distinct fun other member => short other (List.mem_cons_of_mem _ member)
    rw [rowOf_index] at index
    refine ⟨⟨table.find group.index, row, group.columns, group.saved⟩ :: later, ?_, ?_, ?_⟩
    · rw [actions, ran, ok_bind, ran', ok_bind]
      rfl
    · constructor
      · intro one member
        rcases List.mem_cons.mp member with same | inside
        · rw [same, index]
        · exact from_.found one inside
      · intro ports one member
        rcases List.mem_cons.mp member with same | inside
        · rw [same]
          exact port (rowOf_port ports group.index)
        · exact from_.ports ports one inside
      · intro one member
        rcases List.mem_cons.mp member with same | inside
        · rw [same]
          exact status
        · exact from_.statuses one inside
      · rw [List.map_cons, indexes, index]
        exact List.nodup_cons.mpr ⟨fresh, distinct⟩
    · rw [List.map_cons, indexes, index]
      rfl

end Actions

section Containers

variable {table : TransactionTable} {acted later : List Acted} {one : Acted} {k : Nat}
  {write : Row → Row → Row}

/-- The rows that are written keep the indexes of their groups. -/
def Indexed (write : Row → Row → Row) (acted : List Acted) : Prop :=
  ∀ one ∈ acted, ∀ before, one.before = some before →
    (write one.row before).transactionIndex = one.row.transactionIndex

theorem written_indexes (indexed : Indexed write acted) :
    ((acted.filterMap fun one => one.before.map (write one.row)).map Row.transactionIndex).Sublist
      (acted.map fun one => one.row.transactionIndex) := by
  induction acted with
  | nil => exact List.Sublist.refl _
  | cons one acted ih =>
    have rest := ih fun other member => indexed other (List.mem_cons_of_mem _ member)
    cases found : one.before with
    | none =>
      rw [List.filterMap_cons_none (by rw [found]; rfl), List.map_cons]
      exact rest.cons _
    | some before =>
      rw [List.filterMap_cons_some (by rw [found]; rfl), List.map_cons, List.map_cons,
        indexed one List.mem_cons_self before found]
      exact rest.cons_cons _

theorem find_rewrite_mem (indexed : Indexed write acted)
    (distinct : (acted.map fun one => one.row.transactionIndex).Nodup) (member : one ∈ acted)
    {before : Row} (found : one.before = some before) :
    (rewrite write table acted).find one.row.transactionIndex = some (write one.row before) := by
  have once := distinct.sublist (written_indexes indexed)
  have among : write one.row before ∈
      acted.filterMap fun one => one.before.map (write one.row) :=
    List.mem_filterMap.mpr ⟨one, member, by rw [found, Option.map_some]⟩
  rw [rewrite, SortedTable.find_foldl_put once, ← indexed one member before found,
    SortedTable.findRow_of_mem once among]
  rfl

theorem find_rewrite_other (indexed : Indexed write acted)
    (distinct : (acted.map fun one => one.row.transactionIndex).Nodup)
    (other : ∀ one ∈ acted, one.row.transactionIndex = k → one.before = none) :
    (rewrite write table acted).find k = table.find k := by
  have absent : SortedTable.findRow Row.transactionIndex k
      (acted.filterMap fun one => one.before.map (write one.row)) = none := by
    rw [SortedTable.findRow_eq_none_iff]
    intro among
    obtain ⟨row, member, index⟩ := List.mem_map.mp among
    obtain ⟨one, inside, shown⟩ := List.mem_filterMap.mp member
    obtain ⟨before, found, rfl⟩ := Option.map_eq_some_iff.mp shown
    rw [indexed one inside before found] at index
    rw [other one inside index] at found
    cases found
  rw [rewrite, SortedTable.find_foldl_put (distinct.sublist (written_indexes indexed)), absent]
  rfl

/-- What the actions left of the rows of these groups. -/
def Pending (table : TransactionTable) (acted : List Acted) : Prop :=
  ∀ one ∈ acted, table.find one.row.transactionIndex = one.before.map fun _ => one.row

theorem inPlace_pending (from_ : ActedFrom table acted) : Pending (inPlace table acted) acted := by
  intro one member
  cases found : one.before with
  | none =>
    rw [inPlace, find_rewrite_other (fun _ _ _ _ => rfl) from_.distinct, ← from_.found one member,
      found]
    · rfl
    · intro other inside same
      rw [from_.found other inside, same, ← from_.found one member, found]
  | some before =>
    rw [inPlace, find_rewrite_mem (fun _ _ _ _ => rfl) from_.distinct member found]
    rfl

/-- What the commit of a group leaves of its row. -/
def Acted.left (acted : Acted) : Option Row :=
  if acted.row.transactionStatus = 6 then none
  else if acted.saved && acted.row.transactionStatus = 1 then some (trResetCounters acted.row)
  else some acted.row

theorem find_inserted_self
    (pending : table.find one.row.transactionIndex = one.before.map fun _ => one.row) :
    (inserted table one).find one.row.transactionIndex =
      if one.row.transactionStatus = 6 then none else some one.row := by
  rw [inserted]
  cases found : one.before with
  | none =>
    rw [found] at pending
    by_cases destroyed : one.row.transactionStatus = 6
    · simpa [destroyed] using pending
    · simp [destroyed]
  | some before =>
    rw [found] at pending
    by_cases destroyed : one.row.transactionStatus = 6
    · simp [destroyed]
    · simpa [destroyed] using pending

theorem find_behind_self
    (pending : table.find one.row.transactionIndex = one.before.map fun _ => one.row) :
    (behind table one).find one.row.transactionIndex = one.left := by
  rw [behind, Acted.left]
  by_cases reset : (one.saved && decide (one.row.transactionStatus = 1)) = true
  · have status : one.row.transactionStatus = 1 := by
      simp only [Bool.and_eq_true, decide_eq_true_eq] at reset
      exact reset.2
    rw [if_pos reset, if_pos reset, if_neg (by rw [status]; decide)]
    exact SortedTable.find_put_self
  · rw [if_neg reset, if_neg reset, find_inserted_self pending]

theorem find_behind_other (other : one.row.transactionIndex ≠ k) :
    (behind table one).find k = table.find k := by
  have inserting : (inserted table one).find k = table.find k := by
    rw [inserted]
    split
    · split
      · exact SortedTable.find_erase_other other
      · rfl
    · split
      · rfl
      · exact SortedTable.find_put_other other
  rw [behind]
  split
  · rw [SortedTable.find_put_other (show (trResetCounters one.row).transactionIndex ≠ k from other),
      inserting]
  · exact inserting

theorem Pending.behind (pending : Pending table (one :: later))
    (distinct : ((one :: later).map fun one => one.row.transactionIndex).Nodup) :
    Pending (CaptureFilter.behind table one) later := by
  intro other member
  have apart : one.row.transactionIndex ≠ other.row.transactionIndex := by
    intro same
    exact (List.nodup_cons.mp distinct).1 (List.mem_map.mpr ⟨other, member, same.symm⟩)
  rw [find_behind_other apart, pending other (List.mem_cons_of_mem _ member)]

theorem find_commits_other (other : ∀ one ∈ acted, one.row.transactionIndex ≠ k) :
    (acted.foldl behind table).find k = table.find k := by
  induction acted generalizing table with
  | nil => rfl
  | cons one acted ih =>
    rw [List.foldl_cons, ih fun later member => other later (List.mem_cons_of_mem _ member),
      find_behind_other (other one List.mem_cons_self)]

theorem find_commits_mem (pending : Pending table acted)
    (distinct : (acted.map fun one => one.row.transactionIndex).Nodup) (member : one ∈ acted) :
    (acted.foldl behind table).find one.row.transactionIndex = one.left := by
  induction acted generalizing table with
  | nil => cases member
  | cons first acted ih =>
    have rest := pending.behind distinct
    obtain ⟨fresh, distinct⟩ := List.nodup_cons.mp distinct
    rw [List.foldl_cons]
    rcases List.mem_cons.mp member with same | inside
    · subst same
      have apart : ∀ other ∈ acted, other.row.transactionIndex ≠ one.row.transactionIndex :=
        fun other inside equal => fresh (List.mem_map.mpr ⟨other, inside, equal⟩)
      rw [find_commits_other apart, find_behind_self (pending one List.mem_cons_self)]
    · exact ih rest distinct inside

theorem left_captured (one : Acted) : one.left.bind captured = captured one.row := by
  rw [Acted.left]
  split
  · rename_i destroyed
    rw [captured, if_neg (by rw [destroyed]; decide)]
    rfl
  · split
    · rfl
    · rfl

theorem behind_captured
    (pending : table.find one.row.transactionIndex = one.before.map fun _ => one.row) :
    (behind table one).rows.filterMap captured =
      (inserted table one).rows.filterMap captured := by
  apply SortedTable.filterMap_of_find
  intro k
  by_cases here : one.row.transactionIndex = k
  · subst here
    rw [find_behind_self pending, left_captured, find_inserted_self pending]
    split
    · rename_i destroyed
      rw [captured, if_neg (by rw [destroyed]; decide)]
      rfl
    · rfl
  · rw [behind]
    split
    · rw [SortedTable.find_put_other
        (show (trResetCounters one.row).transactionIndex ≠ k from here)]
    · rfl

theorem commits_captured (pending : Pending table acted)
    (distinct : (acted.map fun one => one.row.transactionIndex).Nodup)
    (none_inserted : ∀ one ∈ acted, one.before = none → captured one.row = none) :
    (acted.foldl behind table).rows.filterMap captured = table.rows.filterMap captured := by
  apply SortedTable.filterMap_of_find
  intro k
  by_cases among : k ∈ acted.map fun one => one.row.transactionIndex
  · obtain ⟨one, member, rfl⟩ := List.mem_map.mp among
    rw [find_commits_mem pending distinct member, left_captured, pending one member]
    cases found : one.before with
    | none => exact none_inserted one member found
    | some before => rfl
  · rw [find_commits_other fun one member same => among (List.mem_map.mpr ⟨one, member, same⟩)]

theorem inPlace_captured (from_ : ActedFrom table acted)
    (same : ∀ one ∈ acted, captured one.row = one.before.bind captured) :
    (inPlace table acted).rows.filterMap captured = table.rows.filterMap captured := by
  apply SortedTable.filterMap_of_find
  intro k
  by_cases among : k ∈ acted.map fun one => one.row.transactionIndex
  · obtain ⟨one, member, rfl⟩ := List.mem_map.mp among
    rw [inPlace_pending from_ one member, ← from_.found one member]
    cases found : one.before with
    | none => rfl
    | some before =>
      have kept := same one member
      rw [found] at kept
      exact kept
  · rw [inPlace, find_rewrite_other (fun _ _ _ _ => rfl) from_.distinct]
    intro one member index
    exact absurd (List.mem_map.mpr ⟨one, member, index⟩) among

theorem captured_undone (row before : Row) :
    captured (rowCopy row (duplicateRow before)) = captured before := by
  simp only [captured, rowCopy, duplicateRow, value_memcpy]

theorem undo_captured (from_ : ActedFrom table acted) :
    (undo (inPlace table acted) acted).rows.filterMap captured =
      table.rows.filterMap captured := by
  have indexed : Indexed (fun row before => rowCopy row (duplicateRow before)) acted := by
    intro one member before found
    have here := from_.found one member
    rw [found] at here
    have key : before.transactionIndex = one.row.transactionIndex := SortedTable.find_key here.symm
    exact key
  apply SortedTable.filterMap_of_find
  intro k
  by_cases among : ∃ one ∈ acted, one.row.transactionIndex = k ∧ one.before ≠ none
  · obtain ⟨one, member, rfl, there⟩ := among
    obtain ⟨before, found⟩ := Option.ne_none_iff_exists'.mp there
    rw [undo, find_rewrite_mem indexed from_.distinct member found, ← from_.found one member, found]
    exact captured_undone one.row before
  · have absent : ∀ one ∈ acted, one.row.transactionIndex = k → one.before = none := by
      intro one member index
      by_contra there
      exact among ⟨one, member, index, there⟩
    rw [undo, find_rewrite_other indexed from_.distinct absent, inPlace,
      find_rewrite_other (fun _ _ _ _ => rfl) from_.distinct absent]

end Containers

section Ports

variable {table : TransactionTable} {acted later : List Acted} {one : Acted}

theorem rewrite_ports {write : Row → Row → Row} (ports : ∀ row ∈ table.rows, PortOk row)
    (writes : ∀ one ∈ acted, ∀ before, one.before = some before → PortOk (write one.row before)) :
    ∀ row ∈ (rewrite write table acted).rows, PortOk row := by
  intro row member
  rcases SortedTable.mem_foldl_put member with inside | old
  · obtain ⟨one, among, shown⟩ := List.mem_filterMap.mp inside
    obtain ⟨before, found, rfl⟩ := Option.map_eq_some_iff.mp shown
    exact writes one among before found
  · exact ports row old

theorem inserted_ports (ports : ∀ row ∈ table.rows, PortOk row) (port : PortOk one.row) :
    ∀ row ∈ (inserted table one).rows, PortOk row := by
  intro row member
  rw [inserted] at member
  split at member
  · split at member
    · exact ports row (List.mem_of_mem_filter member)
    · exact ports row member
  · split at member
    · exact ports row member
    · rcases SortedTable.mem_putRow_rows member with same | old
      · rw [same]
        exact port
      · exact ports row old

theorem behind_ports (ports : ∀ row ∈ table.rows, PortOk row) (port : PortOk one.row) :
    ∀ row ∈ (behind table one).rows, PortOk row := by
  intro row member
  rw [behind] at member
  split at member
  · rcases SortedTable.mem_putRow_rows member with same | old
    · rw [same]
      exact port
    · exact inserted_ports ports port row old
  · exact inserted_ports ports port row member

theorem commits_ports (ports : ∀ row ∈ table.rows, PortOk row)
    (written : ∀ one ∈ acted, PortOk one.row) :
    ∀ row ∈ (acted.foldl behind table).rows, PortOk row := by
  induction acted generalizing table with
  | nil => exact ports
  | cons one acted ih =>
    exact ih (behind_ports ports (written one List.mem_cons_self))
      fun other member => written other (List.mem_cons_of_mem _ member)

end Ports

section Commits

variable {table : TransactionTable} {acted later : List Acted} {one : Acted} {installed : Text}

/-- The filter that is installed behind a commit. -/
def Acted.filter (table : TransactionTable) (acted : Acted) (installed : Text) : Text :=
  if acted.installs then
    if (inserted table acted).rows = [] then nullFilterString
    else orString.intercalate ((inserted table acted).rows.map printed)
  else installed

theorem setCommit_eq (ports : ∀ row ∈ table.rows, PortOk row) (port : PortOk one.row)
    (status : StatusOk one.row)
    (room : one.installs = true → Room (inserted table one).rows) :
    setCommit ⟨inserted table one, installed⟩ one =
      .ok ⟨behind table one, one.filter table installed⟩ := by
  have updates : one.row.transactionStatus ≠ 4 := by
    rcases status with active | stopped | destroyed <;> omega
  have refreshes : one.refreshes =
      (decide (one.row.transactionStatus = 1) || decide (one.row.transactionStatus = 6)) := by
    simp [Acted.refreshes, updates]
  have resets : one.resets = decide (one.row.transactionStatus = 1) := by
    simp [Acted.resets, updates]
  rw [setCommit, behind, Acted.filter, Acted.installs, refreshes, resets]
  rw [Acted.installs] at room
  cases saved : one.saved with
  | false => rfl
  | true =>
    rw [saved, Bool.true_and] at room
    rw [Bool.true_and, Bool.true_and, Bool.not_true, if_neg Bool.false_ne_true]
    by_cases installs : (decide (one.row.transactionStatus = 1) ||
        decide (one.row.transactionStatus = 6)) = true
    · rw [if_pos installs, if_pos installs,
        trUpdateFilter_eq (inserted_ports ports port) (room installs)]
      rfl
    · rw [if_neg installs, if_neg installs]
      rfl

theorem commits_right (ports : ∀ row ∈ table.rows, PortOk row)
    (written : ∀ one ∈ acted, PortOk one.row) (statuses : ∀ one ∈ acted, StatusOk one.row)
    (pending : Pending table acted)
    (distinct : (acted.map fun one => one.row.transactionIndex).Nodup)
    (whole : InstallsWhole table acted) :
    ∃ last, commits ⟨table, installed⟩ acted = .ok ⟨acted.foldl behind table, last⟩ ∧
      if acted.any Acted.installs then last = filterText (acted.foldl behind table).rows
      else last = installed := by
  induction acted generalizing table installed with
  | nil => exact ⟨installed, rfl, rfl⟩
  | cons one acted ih =>
    obtain ⟨room, rest⟩ := whole
    have port := written one List.mem_cons_self
    have later := pending.behind distinct
    have apart := (List.nodup_cons.mp distinct).2
    obtain ⟨last, ran, right⟩ := @ih (behind table one) (one.filter table installed)
      (behind_ports ports port)
      (fun other member => written other (List.mem_cons_of_mem _ member))
      (fun other member => statuses other (List.mem_cons_of_mem _ member)) later apart rest
    refine ⟨last, ?_, ?_⟩
    · rw [commits]
      change (setCommit ⟨inserted table one, installed⟩ one >>= fun s => commits s acted) = _
      rw [setCommit_eq ports port (statuses one List.mem_cons_self) fun installs =>
        (room installs).1, ok_bind, ran, List.foldl_cons]
    · rw [List.any_cons, List.foldl_cons]
      cases more : acted.any Acted.installs with
      | true =>
        rw [more, if_pos rfl] at right
        rw [Bool.or_true, if_pos rfl, right]
      | false =>
        rw [more, if_neg Bool.false_ne_true] at right
        rw [Bool.or_false, right, Acted.filter]
        split
        · rename_i installs
          obtain ⟨active, none_inserted⟩ := (room installs).2 more
          rw [← filterText_whole active, filterText, filterText,
            commits_captured later apart none_inserted,
            behind_captured (pending one List.mem_cons_self)]
        · rfl

end Commits

section Steps

variable {s : State} {request : Request} {acted : List Acted} {table : TransactionTable}

theorem installsWhole_of_none (none_installs : acted.any Acted.installs = false) :
    InstallsWhole table acted := by
  induction acted generalizing table with
  | nil => trivial
  | cons one acted ih =>
    rw [List.any_cons, Bool.or_eq_false_iff] at none_installs
    refine ⟨?_, ih none_installs.2⟩
    intro installs
    rw [none_installs.1] at installs
    cases installs

theorem commits_counters (from_ : ActedFrom table acted)
    (zero : ∀ one ∈ acted, one.changes = false → one.saved = true → one.row.transactionStatus = 1 →
      one.row.counters = .zero) :
    ∀ one ∈ acted, one.changes = false →
      ((acted.foldl behind (inPlace table acted)).find one.row.transactionIndex).map Row.counters =
        some one.row.counters := by
  intro one member unchanged
  rw [find_commits_mem (inPlace_pending from_) from_.distinct member, Acted.left]
  have kept : one.row.transactionStatus ≠ 6 := by
    intro destroyed
    rw [Acted.changes] at unchanged
    cases found : one.before with
    | none => simp [found] at unchanged
    | some before => simp [found, destroyed] at unchanged
  rw [if_neg kept]
  split
  · rename_i reset
    simp only [Bool.and_eq_true, decide_eq_true_eq] at reset
    rw [zero one member unchanged reset.1 reset.2]
    rfl
  · rfl

theorem undo_ports (from_ : ActedFrom table acted) (ports : ∀ row ∈ table.rows, PortOk row) :
    ∀ row ∈ (undo (inPlace table acted) acted).rows, PortOk row := by
  apply rewrite_ports
  · exact rewrite_ports ports fun one member _ _ => from_.ports ports one member
  · intro one member before found
    rw [from_.found one member] at found
    exact ports before (SortedTable.find_mem found)

theorem set_right (ports : ∀ row ∈ s.table.rows, PortOk row) (right : Right s)
    (allowed : SetAllowed s request) :
    ∃ s', CaptureFilter.set s request = .ok s' ∧ Right s' ∧
      (∀ row ∈ s'.table.rows, PortOk row) ∧ CountersKept s s' (.set request) := by
  rw [CaptureFilter.set]
  cases refused : refuses s.table request with
  | true =>
    refine ⟨s, rfl, right, ports, ?_⟩
    intro acted done
    rw [committed, refused] at done
    cases done
  | false =>
    obtain ⟨acted, ran, from_, -⟩ := @actions_from s.table request.groups request.distinct
      (allowed.short refused)
    rw [if_neg Bool.false_ne_true, ran, ok_bind]
    have decided : committed s.table request =
        if undoes request acted then none else some acted := by
      rw [committed, refused, if_neg Bool.false_ne_true, ran]
    cases undone : undoes request acted with
    | true =>
      rw [if_pos rfl]
      refine ⟨_, rfl, ?_, undo_ports from_ ports, ?_⟩
      · rw [Right, filterText, undo_captured from_]
        exact right
      · intro acted done
        rw [decided, undone] at done
        cases done
    | false =>
      rw [undone, if_neg Bool.false_ne_true] at decided
      rw [if_neg Bool.false_ne_true]
      have whole : InstallsWhole (inPlace s.table acted) acted := by
        rcases allowed.filter acted decided with quiet | installs
        · exact installsWhole_of_none quiet.1
        · exact installs.2
      have written := from_.ports ports
      have inside : ∀ row ∈ (inPlace s.table acted).rows, PortOk row :=
        rewrite_ports ports fun one member _ _ => written one member
      obtain ⟨last, done, chosen⟩ := @commits_right (inPlace s.table acted) acted s.installed
        inside written from_.statuses (inPlace_pending from_) from_.distinct whole
      refine ⟨_, done, ?_, commits_ports inside written, ?_⟩
      · rcases allowed.filter acted decided with quiet | installs
        · obtain ⟨none_installs, same⟩ := quiet
          rw [none_installs, if_neg Bool.false_ne_true] at chosen
          have none_inserted : ∀ one ∈ acted, one.before = none → captured one.row = none := by
            intro one member absent
            rw [same one member, absent]
            rfl
          rw [Right, chosen, filterText,
            commits_captured (inPlace_pending from_) from_.distinct none_inserted,
            inPlace_captured from_ same]
          exact right
        · rw [installs.1, if_pos rfl] at chosen
          exact chosen
      · intro others same
        obtain rfl : acted = others := Option.some.inj (decided.symm.trans same)
        exact commits_counters from_ (allowed.counters acted decided)

theorem trProcessPacket_shows {α : Type} (shown : Row → α) (mypacket : Packet) (now : Int)
    (kept : ∀ row, shown (countIn mypacket now row) = shown row ∧
      shown (countOut mypacket now row) = shown row) (rows : List Row) :
    (trProcessPacket mypacket now rows).map shown = rows.map shown := by
  have counted : (countRow mypacket now rows).map shown = rows.map shown := by
    induction rows with
    | nil => rfl
    | cons row rows ih =>
      rw [countRow]
      split
      · rw [List.map_cons, List.map_cons, (kept row).1]
      · split
        · rw [List.map_cons, List.map_cons, (kept row).2]
        · rw [List.map_cons, List.map_cons, ih]
  rw [trProcessPacket]
  split
  · rfl
  · split
    · rfl
    · split
      · rfl
      · exact counted

theorem packet_right (mypacket : Packet) (now : Int) (ports : ∀ row ∈ s.table.rows, PortOk row)
    (right : Right s) :
    ∃ s', step s (.packet mypacket now) = .ok s' ∧ Right s' ∧
      (∀ row ∈ s'.table.rows, PortOk row) := by
  refine ⟨_, rfl, ?_, ?_⟩
  · have terms := trProcessPacket_shows captured mypacket now (fun row => ⟨rfl, rfl⟩) s.table.rows
    have same : (trProcessPacket mypacket now s.table.rows).filterMap captured =
        s.table.rows.filterMap captured := by
      have through : ∀ rows : List Row,
          rows.filterMap captured = (rows.map captured).filterMap id := by
        intro rows
        rw [List.filterMap_map]
        rfl
      rw [through, terms, ← through]
    rw [Right, filterText]
    show s.installed = if (trProcessPacket mypacket now s.table.rows).filterMap captured = [] then
      nullFilterString else
        orString.intercalate ((trProcessPacket mypacket now s.table.rows).filterMap captured)
    rw [same]
    exact right
  · intro row member
    have numbers := trProcessPacket_shows Row.transactionTransportPort mypacket now
      (fun row => ⟨rfl, rfl⟩) s.table.rows
    have among : row.transactionTransportPort ∈
        s.table.rows.map Row.transactionTransportPort := by
      rw [← numbers]
      exact List.mem_map_of_mem member
    obtain ⟨old, inside, same⟩ := List.mem_map.mp among
    rw [PortOk, ← same]
    exact ports old inside

end Steps

section Runs

theorem captures_from {s : State} {events : List Event} (ports : ∀ row ∈ s.table.rows, PortOk row)
    (right : Right s) (allowed : Allowed s events) : Captures s events := by
  induction events generalizing s with
  | nil => exact right
  | cons event events ih =>
    cases event with
    | set request =>
      obtain ⟨here, later⟩ := allowed
      obtain ⟨s', stepped, right', ports', counters⟩ := set_right ports right here
      exact ⟨right, s', stepped, counters, ih ports' right' (later s' stepped)⟩
    | packet mypacket now =>
      obtain ⟨s', stepped, right', ports'⟩ := packet_right mypacket now ports right
      exact ⟨right, s', stepped, trivial, ih ports' right' (allowed s' stepped)⟩

/-- From a container whose rows are active the filter is right in every state of a run whose
requests are allowed. -/
theorem captures_right (loaded : Loaded) (active : StartAllowed loaded.table.rows) :
    ∃ s, start loaded.table = .ok s ∧
      ∀ events, Allowed s events → Captures s events := by
  obtain ⟨room, whole⟩ := active
  refine ⟨⟨loaded.table, filterText loaded.table.rows⟩, ?_, ?_⟩
  · rw [start, trUpdateFilter_eq loaded.ports room, filterText_whole whole]
    rfl
  · intro events allowed
    exact captures_from loaded.ports rfl allowed

def nothingLoaded : Loaded := ⟨.empty, by intro row member; cases member⟩

def clientOfOne : Text := "10.0.0.1".toList

def createsOne : Request where
  groups :=
    [⟨1, [.clientAddress clientOfOne, .transportPort 80, .sampleInterval 1, .status 4], true⟩]
  distinct := by decide
  others := .succeed

def destroysOne : Request where
  groups := [⟨1, [.status 6], true⟩]
  distinct := by decide
  others := .succeed

def stopsOne : Request where
  groups := [⟨1, [.status 2], true⟩]
  distinct := by decide
  others := .succeed

theorem captures_right_createsDestroys :
    ∃ s, start .empty = .ok s ∧ Captures s [.set createsOne, .set destroysOne] := by
  have active : StartAllowed nothingLoaded.table.rows :=
    ⟨by decide, fun row member => by cases member⟩
  obtain ⟨s, started, right⟩ := captures_right nothingLoaded active
  have fresh : start nothingLoaded.table = .ok ⟨.empty, nullFilterString⟩ := rfl
  obtain rfl : _ = s := Except.ok.inj (fresh.symm.trans started)
  exact ⟨_, started, right _ (by decide +kernel)⟩

/-- A row that is taken out of service stays in the filter. -/
theorem stopped_captured :
    ¬ ∃ s, start .empty = .ok s ∧ Captures s [.set createsOne, .set stopsOne] := by
  decide +kernel

end Runs

end EveAgent.TransMon.CaptureFilter
