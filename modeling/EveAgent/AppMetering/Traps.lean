import EveAgent.Machine
import EveAgent.AppMetering.Moves

namespace EveAgent.AppMetering

open Machine Cells

section Listing

def rowsFrom (subs : Heap Nat Stappsub) : Nat → Option Nat → List Stappsub
  | 0, _ => []
  | _ + 1, none => []
  | fuel + 1, some m =>
    match subs m with
    | none => []
    | some cell => cell.val :: rowsFrom subs fuel cell.next

def binariesFrom (mem : Memory) : Nat → Option Nat → List (Text × List Stappsub)
  | 0, _ => []
  | _ + 1, none => []
  | fuel + 1, some mv =>
    match mem.apps mv with
    | none => []
    | some cell =>
      (cell.val.pcappMeteringBinaryName,
        (rowsFrom mem.subs (mem.allocated + 2) cell.val.head).tail) ::
          binariesFrom mem fuel cell.next

/-- The names of the binaries with their rows, without the dummies. -/
def Memory.listing (mem : Memory) : List (Text × List Stappsub) :=
  (binariesFrom mem (mem.allocated + 2) mem.head).tail

variable {mem : Memory} {list front : List Binary} {subs : Heap Nat Stappsub} {fuel : Nat}
  {p : Option Nat} {rows : Rows}

theorem rowsFrom_segment (segment : Segment subs p rows none) (enough : rows.length < fuel) :
    rowsFrom subs fuel p = rows.map Prod.snd := by
  induction rows generalizing p fuel with
  | nil =>
    rw [segment_nil] at segment
    subst segment
    cases fuel with
    | zero => simp at enough
    | succ fuel => rfl
  | cons head tail ih =>
    obtain ⟨rfl, next, held, rest⟩ := segment
    cases fuel with
    | zero => simp at enough
    | succ fuel =>
      rw [rowsFrom]
      simp only [held]
      rw [ih rest (Nat.lt_of_succ_lt_succ enough)]
      rfl

theorem binariesFrom_segment (rep : Represents mem list) (within : ∀ other ∈ front, other ∈ list)
    (segment : Segment mem.apps p (appCells front) none) (enough : front.length < fuel) :
    binariesFrom mem fuel p =
      front.map fun binary => (binary.name, binary.rows.map Prod.snd) := by
  induction front generalizing p fuel with
  | nil =>
    obtain rfl : p = none := segment
    cases fuel with
    | zero => simp at enough
    | succ fuel => rfl
  | cons binary front ih =>
    obtain ⟨rfl, next, held, rest⟩ := segment
    cases fuel with
    | zero => simp at enough
    | succ fuel =>
      have member := within binary List.mem_cons_self
      have length := rep.rows_length member
      rw [binariesFrom]
      simp only [held]
      rw [ih (fun other inside => within other (List.mem_cons_of_mem _ inside)) rest
        (Nat.lt_of_succ_lt_succ enough), rowsFrom_segment (rep.rows binary member) (by omega)]
      rfl

theorem Represents.listing (rep : Represents mem list) :
    mem.listing = list.map fun binary => (binary.name, binary.rows.map Prod.snd) := by
  unfold Memory.listing
  rcases rep.begins with ⟨begins, rfl⟩ | ⟨head, begins, segment⟩
  · rw [begins]
    rfl
  · have length := rep.list_length begins
    obtain ⟨_, next, held, rest⟩ := segment
    rw [begins, binariesFrom]
    simp only [held, List.tail_cons]
    exact binariesFrom_segment rep (fun _ => id) rest (by omega)

/-- The list in memory has the row, under the name. -/
def Memory.Lists (mem : Memory) (name : Text) (uiappMeteringIndex : UInt32) : Prop :=
  ∃ entry ∈ mem.listing, entry.1 = name ∧
    ∃ sub ∈ entry.2, sub.uiappMeteringIndex = uiappMeteringIndex

instance (mem : Memory) (name : Text) (uiappMeteringIndex : UInt32) :
    Decidable (mem.Lists name uiappMeteringIndex) :=
  inferInstanceAs (Decidable (∃ entry ∈ mem.listing, _))

theorem Represents.lists (rep : Represents mem list) {name : Text} {j : UInt32} :
    mem.Lists name j ↔ Listed list name j := by
  rw [Memory.Lists, rep.listing]
  constructor
  · rintro ⟨entry, member, rfl, sub, held, rfl⟩
    obtain ⟨binary, inside, rfl⟩ := List.mem_map.mp member
    obtain ⟨row, listed, rfl⟩ := List.mem_map.mp held
    exact ⟨binary, inside, rfl, row, listed, rfl⟩
  · rintro ⟨binary, inside, rfl, row, listed, rfl⟩
    exact ⟨_, List.mem_map_of_mem inside, rfl, row.2, List.mem_map_of_mem listed, rfl⟩

end Listing

section Effects

variable (mem : Memory) (pappMet : StappMeteringStruct)

def Adds : Prop := pappMet.istatus = 4 ∨ pappMet.istatus = 1

def Deletes : Prop := pappMet.istatus = 2 ∨ pappMet.istatus = 6

instance : Decidable (Adds pappMet) := inferInstanceAs (Decidable (_ ∨ _))

instance : Decidable (Deletes pappMet) := inferInstanceAs (Decidable (_ ∨ _))

/-- The name has room in a binary, and is not that of the dummy head. -/
def Named : Prop :=
  pappMet.pcappMeteringBinaryName ≠ [] ∧ pappMet.pcappMeteringBinaryName.length < arraySize

instance : Decidable (Named pappMet) := inferInstanceAs (Decidable (_ ∧ _))

/-- The row can be moved out of a binary with these rows: another row stays there, the event
carries no identifier, and its message has room for that of the row. -/
def Movable (rows : List Stappsub) (sub : Stappsub) : Prop :=
  Named pappMet ∧ (∃ other ∈ rows, other.uiappMeteringIndex ≠ pappMet.uiappMeteringIndex) ∧
    pappMet.pcappMeteringID = none ∧
    (pappMet.pcalertmessage ≠ none → sub.pcalertmessage.length < pappMet.alertRoom)

instance (rows : List Stappsub) (sub : Stappsub) : Decidable (Movable pappMet rows sub) :=
  inferInstanceAs (Decidable (_ ∧ _))

/-- The texts of the event have room where they are written, and a row that is to be moved is
in one binary only and can be moved out of it. -/
def Sturdy : Prop :=
  if Adds pappMet then Named pappMet ∧ pappMet.Fits
  else if Deletes pappMet then True
  else if mem.Lists pappMet.pcappMeteringBinaryName pappMet.uiappMeteringIndex then pappMet.Fits
  else ∀ entry ∈ mem.listing, ∀ sub ∈ entry.2,
    sub.uiappMeteringIndex = pappMet.uiappMeteringIndex → Movable pappMet entry.2 sub ∧
      ∀ other ∈ mem.listing, (∃ sub ∈ other.2,
        sub.uiappMeteringIndex = pappMet.uiappMeteringIndex) → other.1 = entry.1

instance : Decidable (Sturdy mem pappMet) := inferInstanceAs (Decidable (ite _ _ _))

/-- What an event is for, in terms of the rows that are listed before and after it. -/
inductive Effect (before after : Text → UInt32 → Prop) : Prop
  | added (adds : Adds pappMet)
      (listed : ∀ name j, after name j ↔ before name j ∨
        (name = pappMet.pcappMeteringBinaryName ∧ j = pappMet.uiappMeteringIndex))
  | deleted (deletes : Deletes pappMet)
      (listed : ∀ name j, after name j ↔ before name j ∧
        ¬ (name = pappMet.pcappMeteringBinaryName ∧ j = pappMet.uiappMeteringIndex))
  | kept (here : before pappMet.pcappMeteringBinaryName pappMet.uiappMeteringIndex ∨
        ∀ name, ¬ before name pappMet.uiappMeteringIndex)
      (listed : ∀ name j, after name j ↔ before name j)
  | moved {old : Text} (only : ∀ name, before name pappMet.uiappMeteringIndex → name = old)
      (listed : ∀ name j, after name j ↔
        (before name j ∧ ¬ (name = old ∧ j = pappMet.uiappMeteringIndex)) ∨
          (name = pappMet.pcappMeteringBinaryName ∧ j = pappMet.uiappMeteringIndex))

variable {mem pappMet} {list : List Binary}

theorem amList_effect (rep : Represents mem list) (tidy : Tidy list)
    (positive : 0 < pappMet.uiappMeteringIndex) (adds : Adds pappMet)
    (sturdy : Sturdy mem pappMet) :
    ∃ mem' list', amList mem pappMet [] false = some mem' ∧ Represents mem' list' ∧
      Tidy list' ∧ Effect pappMet (Listed list) (Listed list') := by
  rw [Sturdy, if_pos adds] at sturdy
  obtain ⟨⟨named, short⟩, fits⟩ := sturdy
  obtain ⟨mem', list', ran, rep', placed⟩ := amList_spec rep named short (.inr positive) fits false
  have added := placed.added fits
  refine ⟨mem', list', ran, rep', added.tidy tidy named positive nofun, .added adds ?_⟩
  exact fun name j => added.listed

theorem amDelete_unlisted (rep : Represents mem list) (tidy : Tidy list)
    (unlisted : ¬ Listed list pappMet.pcappMeteringBinaryName pappMet.uiappMeteringIndex) :
    amDelete mem pappMet.pcappMeteringBinaryName pappMet.uiappMeteringIndex = some mem := by
  have missing := not_listed.mp unlisted
  by_cases named : ∃ binary ∈ list, binary.name = pappMet.pcappMeteringBinaryName
  · obtain ⟨binary, member, here⟩ := named
    obtain ⟨front, back, rfl⟩ := List.append_of_mem member
    have others := tidy.others
    rw [here] at others
    exact amDelete_missing rep others here tidy.middle.filled (missing binary member here)
  · refine amDelete_absent rep ?_
    intro other member here
    exact named ⟨other, member, here⟩

theorem amDelete_effect (rep : Represents mem list) (tidy : Tidy list)
    (deletes : Deletes pappMet) :
    ∃ mem' list',
      amDelete mem pappMet.pcappMeteringBinaryName pappMet.uiappMeteringIndex = some mem' ∧
        Represents mem' list' ∧ Tidy list' ∧ Effect pappMet (Listed list) (Listed list') := by
  by_cases listed : Listed list pappMet.pcappMeteringBinaryName pappMet.uiappMeteringIndex
  · obtain ⟨front, binary, back, before, s, sub, after, rfl, here, split, index, absent, others⟩ :=
      tidy.split listed
    obtain ⟨mem', ran, rep'⟩ := amDelete_found rep others here split
      (fun row member => absent row (List.mem_append_left _ member)) index
    obtain ⟨tidy', listed'⟩ := tidy.delete split
    refine ⟨mem', _, ran, rep', tidy', .deleted deletes fun name j => ?_⟩
    rw [← here, ← index]
    exact listed' name j
  · refine ⟨mem, list, amDelete_unlisted rep tidy listed, rep, tidy, .deleted deletes ?_⟩
    intro name j
    constructor
    · intro here
      refine ⟨here, ?_⟩
      rintro ⟨rfl, rfl⟩
      exact listed here
    · exact fun here => here.1

theorem amModify_unlisted (rep : Represents mem list)
    (unlisted : ∀ name, ¬ Listed list name pappMet.uiappMeteringIndex) :
    amModify mem pappMet [] = some ({ mem with allocated := mem.allocated + 1 }, false) := by
  have missing : ∀ other ∈ list, ∀ row ∈ other.rows,
      row.2.uiappMeteringIndex ≠ pappMet.uiappMeteringIndex := by
    intro other member row inside equal
    exact unlisted other.name ⟨other, member, rfl, row, inside, equal⟩
  rw [amModify_absent rep fun other member _ => missing other member]
  exact searchList_absent rep missing

theorem amModify_effect (rep : Represents mem list) (tidy : Tidy list)
    (adds : ¬ Adds pappMet) (deletes : ¬ Deletes pappMet) (sturdy : Sturdy mem pappMet) :
    ∃ mem' list', amModify mem pappMet [] = some (mem', false) ∧ Represents mem' list' ∧
      Tidy list' ∧ Effect pappMet (Listed list) (Listed list') := by
  rw [Sturdy, if_neg adds, if_neg deletes] at sturdy
  by_cases here : Listed list pappMet.pcappMeteringBinaryName pappMet.uiappMeteringIndex
  · rw [if_pos (rep.lists.mpr here)] at sturdy
    obtain ⟨front, binary, back, before, s, sub, after, rfl, named, split, index, absent, others⟩ :=
      tidy.split here
    have inside : (s, sub) ∈ binary.rows := by
      rw [split]
      simp
    obtain ⟨mem', ran, rep'⟩ := amModify_found rep others named split absent index sturdy
    have fitting : Fitting sub := tidy.middle.ordered.fitting (s, sub) inside
    have same : (pappMet.over sub).uiappMeteringIndex = sub.uiappMeteringIndex := rfl
    obtain ⟨tidy', listed⟩ := tidy.exchange split same (over_fitting sturdy fitting) s
    exact ⟨mem', _, ran, rep', tidy', .kept (.inl here) listed⟩
  · rw [if_neg (fun lists => here (rep.lists.mp lists)), rep.listing] at sturdy
    by_cases elsewhere : ∃ name, Listed list name pappMet.uiappMeteringIndex
    · obtain ⟨name, there⟩ := elsewhere
      obtain ⟨front, binary, back, before, s, sub, after, rfl, rfl, split, index, absent,
        others⟩ := tidy.split there
      have inside : (s, sub) ∈ binary.rows := by
        rw [split]
        simp
      obtain ⟨movable, single⟩ := sturdy _ (List.mem_map_of_mem (by simp)) sub
        (List.mem_map_of_mem inside) index
      obtain ⟨⟨named, short⟩, ⟨_, filled, differs⟩, noID, room⟩ := movable
      have only : ∀ name, Listed (front ++ binary :: back) name pappMet.uiappMeteringIndex →
          name = binary.name := by
        rintro name ⟨other, member, rfl, row, held, equal⟩
        exact single _ (List.mem_map_of_mem member) ⟨row.2, List.mem_map_of_mem held, equal⟩
      have other : binary.name ≠ pappMet.pcappMeteringBinaryName := by
        intro same
        exact here (same ▸ there)
      have holders : ∀ other ∈ front ++ back, ∀ row ∈ other.rows,
          row.2.uiappMeteringIndex ≠ pappMet.uiappMeteringIndex := by
        intro other member row held equal
        refine others other member (only _ ⟨other, ?_, rfl, row, held, equal⟩)
        rcases List.mem_append.mp member with member | member
        · exact List.mem_append_left _ member
        · exact List.mem_append_right _ (List.mem_cons_of_mem _ member)
      have more : before ++ after ≠ [] := by
        intro empty
        obtain ⟨row, member, rfl⟩ := List.mem_map.mp filled
        rw [split] at member
        obtain ⟨rfl, rfl⟩ := List.append_eq_nil_iff.mp empty
        obtain rfl := List.mem_singleton.mp member
        exact differs index
      obtain ⟨mem', list', last, ran, rep', tidy', _, shown⟩ :=
        searchList_other rep tidy other named short holders split index more noID room
      refine ⟨mem', list', ?_, rep', tidy', .moved only (listed_moved shown rfl)⟩
      rw [amModify_absent rep (not_listed.mp here)]
      exact ran
    · have unlisted : ∀ name, ¬ Listed list name pappMet.uiappMeteringIndex :=
        fun name listed => elsewhere ⟨name, listed⟩
      exact ⟨_, list, amModify_unlisted rep unlisted,
        rep.set_allocated (Nat.le_succ _), tidy, .kept (.inr unlisted) fun _ _ => Iff.rfl⟩

theorem amParseTrap_effect (rep : Represents mem list) (tidy : Tidy list)
    (positive : 0 < pappMet.uiappMeteringIndex) (sturdy : Sturdy mem pappMet) :
    ∃ mem' list', amParseTrap mem pappMet [] = some mem' ∧ Represents mem' list' ∧
      Tidy list' ∧ Effect pappMet (Listed list) (Listed list') := by
  unfold amParseTrap
  by_cases adds : pappMet.istatus = 4 ∨ pappMet.istatus = 1
  · rw [if_pos adds]
    exact amList_effect rep tidy positive adds sturdy
  · rw [if_neg adds]
    by_cases deletes : pappMet.istatus = 2 ∨ pappMet.istatus = 6
    · rw [if_pos deletes]
      exact amDelete_effect rep tidy deletes
    · rw [if_neg deletes]
      obtain ⟨mem', list', ran, rest⟩ := amModify_effect rep tidy adds deletes sturdy
      exact ⟨mem', list', by rw [ran], rest⟩

end Effects

section Events

/-- The agent beside the name in the last event of each row. -/
structure World where
  mem : Memory
  last : UInt32 → Option Text

def World.start : World := ⟨AppMetering.start, fun _ => none⟩

def trap (w : World) (pappMet : StappMeteringStruct) : Option World :=
  (amParseTrap w.mem pappMet []).map fun mem =>
    ⟨mem, Function.update w.last pappMet.uiappMeteringIndex
      (some pappMet.pcappMeteringBinaryName)⟩

/-- The event is sturdy, and it neither adds nor deletes a row that is in another binary. -/
def Regular (w : World) (pappMet : StappMeteringStruct) : Prop :=
  Sturdy w.mem pappMet ∧ (Adds pappMet ∨ Deletes pappMet →
    ∀ entry ∈ w.mem.listing,
      (∃ sub ∈ entry.2, sub.uiappMeteringIndex = pappMet.uiappMeteringIndex) →
        entry.1 = pappMet.pcappMeteringBinaryName)

instance (w : World) : DecidablePred (Regular w) := fun _ =>
  inferInstanceAs (Decidable (_ ∧ _))

def indices (list : List Binary) : List UInt32 :=
  list.flatMap fun binary => binary.rows.map fun row => row.2.uiappMeteringIndex

/-- The list is tidy, and every row is in the binary of its last event. -/
structure InOrder (w : World) (list : List Binary) : Prop where
  represents : Represents w.mem list
  tidy : Tidy list
  last : ∀ name j, Listed list name j → w.last j = some name

variable {w : World} {list : List Binary} {pappMet : StappMeteringStruct} {name name' : Text}
  {j : UInt32}

theorem inOrder_start : InOrder World.start [] where
  represents := represents_start
  tidy := tidy_nil
  last := by simp [Listed]

theorem InOrder.unique (inOrder : InOrder w list) (here : Listed list name j)
    (there : Listed list name' j) : name = name' :=
  Option.some.inj ((inOrder.last name j here).symm.trans (inOrder.last name' j there))

theorem InOrder.once (inOrder : InOrder w list) : (indices list).Nodup := by
  rw [indices, List.nodup_flatMap]
  constructor
  · intro binary member
    apply List.Pairwise.imp _
      (List.pairwise_map.mpr (inOrder.tidy.neat binary member).ordered.sorted)
    exact fun less => UInt32.ne_of_lt less
  · have distinct := List.pairwise_map.mp inOrder.tidy.distinct
    apply distinct.imp_of_mem
    intro binary other member member' differs j inside inside'
    obtain ⟨row, held, rfl⟩ := List.mem_map.mp inside
    obtain ⟨row', held', same⟩ := List.mem_map.mp inside'
    exact differs (inOrder.unique ⟨binary, member, rfl, row, held, rfl⟩
      ⟨other, member', rfl, row', held', same⟩)

theorem Regular.same_name (regular : Regular w pappMet) (inOrder : InOrder w list)
    (touches : Adds pappMet ∨ Deletes pappMet)
    (listed : Listed list name pappMet.uiappMeteringIndex) :
    name = pappMet.pcappMeteringBinaryName := by
  obtain ⟨entry, member, rfl, held⟩ := inOrder.represents.lists.mpr listed
  exact regular.2 touches entry member held

theorem Effect.last {after : Text → UInt32 → Prop} (effect : Effect pappMet (Listed list) after)
    (inOrder : InOrder w list) (regular : Regular w pappMet) (listed : after name j) :
    (j = pappMet.uiappMeteringIndex ∧ name = pappMet.pcappMeteringBinaryName) ∨
      (j ≠ pappMet.uiappMeteringIndex ∧ w.last j = some name) := by
  have old : Listed list name j → j ≠ pappMet.uiappMeteringIndex →
      (j = pappMet.uiappMeteringIndex ∧ name = pappMet.pcappMeteringBinaryName) ∨
        (j ≠ pappMet.uiappMeteringIndex ∧ w.last j = some name) :=
    fun before differs => .inr ⟨differs, inOrder.last name j before⟩
  by_cases same : j = pappMet.uiappMeteringIndex
  · subst same
    refine .inl ⟨rfl, ?_⟩
    cases effect with
    | added adds listed' =>
      rcases (listed' name _).mp listed with before | ⟨here, _⟩
      · exact regular.same_name inOrder (.inl adds) before
      · exact here
    | deleted deletes listed' =>
      exact regular.same_name inOrder (.inr deletes) ((listed' name _).mp listed).1
    | kept here listed' =>
      have before := (listed' name _).mp listed
      rcases here with here | none
      · exact inOrder.unique before here
      · exact absurd before (none name)
    | moved only listed' =>
      rcases (listed' name _).mp listed with ⟨before, gone⟩ | ⟨here, _⟩
      · exact absurd ⟨only name before, rfl⟩ gone
      · exact here
  · refine old ?_ same
    cases effect with
    | added adds listed' => exact ((listed' name j).mp listed).resolve_right fun both => same both.2
    | deleted deletes listed' => exact ((listed' name j).mp listed).1
    | kept here listed' => exact (listed' name j).mp listed
    | moved only listed' =>
      exact (((listed' name j).mp listed).resolve_right fun both => same both.2).1

theorem trap_inOrder (inOrder : InOrder w list) (positive : 0 < pappMet.uiappMeteringIndex)
    (regular : Regular w pappMet) :
    ∃ w' list', trap w pappMet = some w' ∧ InOrder w' list' := by
  obtain ⟨mem', list', ran, rep', tidy', effect⟩ :=
    amParseTrap_effect inOrder.represents inOrder.tidy positive regular.1
  refine ⟨_, list', by rw [trap, ran]; rfl, rep', tidy', ?_⟩
  intro name j listed
  rcases effect.last inOrder regular listed with ⟨rfl, rfl⟩ | ⟨differs, last⟩
  · exact Function.update_self ..
  · exact (Function.update_of_ne differs _ _).trans last

theorem run_inOrder (events : List StappMeteringStruct)
    (positive : ∀ pappMet ∈ events, 0 < pappMet.uiappMeteringIndex)
    (regular : Along trap Regular World.start events) :
    ∃ w list, run trap World.start events = some w ∧ InOrder w list := by
  have kept : ∀ w pappMet, (∃ list, InOrder w list) →
      0 < pappMet.uiappMeteringIndex ∧ Regular w pappMet →
        ∃ w', trap w pappMet = some w' ∧ ∃ list, InOrder w' list := by
    rintro w pappMet ⟨list, inOrder⟩ ⟨positive, regular⟩
    obtain ⟨w', list', next, inOrder'⟩ := trap_inOrder inOrder positive regular
    exact ⟨w', next, list', inOrder'⟩
  have begins : ∃ list, InOrder World.start list := ⟨[], inOrder_start⟩
  obtain ⟨w, ran, list, inOrder⟩ := run_progress kept begins (regular.with positive)
  exact ⟨w, list, ran, inOrder⟩

/-- After regular events the list is tidy, no row is in it twice, and every row is in the
binary that its last event named; none of the events reaches for a node that is freed. -/
theorem rows_inOrder (events : List StappMeteringStruct)
    (positive : ∀ pappMet ∈ events, 0 < pappMet.uiappMeteringIndex)
    (regular : Along trap Regular World.start events) :
    ∃ w list, run trap World.start events = some w ∧ Represents w.mem list ∧ Tidy list ∧
      (indices list).Nodup ∧ ∀ name j, Listed list name j → w.last j = some name := by
  obtain ⟨w, list, ran, inOrder⟩ := run_inOrder events positive regular
  exact ⟨w, list, ran, inOrder.represents, inOrder.tidy, inOrder.once, inOrder.last⟩

def rowEvent (uiappMeteringIndex : UInt32) (name : Text) (istatus : Int16) :
    StappMeteringStruct :=
  ⟨uiappMeteringIndex, none, 0, 0, 0, false, name, none, 0, istatus⟩

/-- A row is moved to a new binary and the one that stays is deleted. -/
theorem rows_inOrder_moved : ∃ w list,
    run trap World.start [rowEvent 2 ['a'] 4, rowEvent 1 ['a'] 1, rowEvent 1 ['b'] 3,
      rowEvent 2 ['a'] 6] = some w ∧ Represents w.mem list ∧ Tidy list ∧
      (indices list).Nodup ∧ ∀ name j, Listed list name j → w.last j = some name :=
  rows_inOrder _ (by decide +kernel) (by decide +kernel)

/-- The only row of a binary is moved: the binary is freed while the search stands on it. -/
theorem rows_inOrder_last_row : ¬ ∀ events : List StappMeteringStruct,
    (∀ pappMet ∈ events, 0 < pappMet.uiappMeteringIndex) →
      ∃ w list, run trap World.start events = some w ∧ Represents w.mem list ∧ Tidy list ∧
        (indices list).Nodup ∧ ∀ name j, Listed list name j → w.last j = some name := by
  intro all
  obtain ⟨w, _, ran, _⟩ := all [rowEvent 1 ['a'] 4, rowEvent 1 ['b'] 3] (by decide +kernel)
  have stuck : (run trap World.start [rowEvent 1 ['a'] 4, rowEvent 1 ['b'] 3]).isNone = true := by
    decide +kernel
  rw [ran] at stuck
  cases stuck

end Events

end EveAgent.AppMetering
