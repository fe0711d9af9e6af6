import EveAgent.AppMetering.Traps

namespace EveAgent.AppMetering

open Cells Machine

section Shows

/-- The list in memory shows the row with these columns, under the name. -/
def Memory.Shows (mem : Memory) (name : Text) (sub : Stappsub) : Prop :=
  ∃ entry ∈ mem.listing, entry.1 = name ∧ sub ∈ entry.2

/-- The rows with the index, with the names of their binaries. -/
def Memory.shown (mem : Memory) (uiappMeteringIndex : UInt32) : List (Text × Stappsub) :=
  mem.listing.flatMap fun entry =>
    (entry.2.filter fun sub => sub.uiappMeteringIndex == uiappMeteringIndex).map fun sub =>
      (entry.1, sub)

variable {mem : Memory} {list : List Binary} {name : Text} {sub : Stappsub} {j : UInt32}

theorem mem_shown : (name, sub) ∈ mem.shown j ↔
    mem.Shows name sub ∧ sub.uiappMeteringIndex = j := by
  simp only [Memory.shown, List.mem_flatMap, List.mem_map, List.mem_filter, beq_iff_eq,
    Memory.Shows, Prod.mk.injEq]
  constructor
  · intro here
    rcases here with ⟨entry, member, row, ⟨inside, index⟩, rfl, rfl⟩
    exact ⟨⟨entry, member, rfl, inside⟩, index⟩
  · intro here
    rcases here with ⟨⟨entry, member, rfl, inside⟩, index⟩
    exact ⟨entry, member, sub, ⟨inside, index⟩, rfl, rfl⟩

theorem Represents.shows (rep : Represents mem list) :
    mem.Shows name sub ↔ Shown list name sub := by
  rw [Memory.Shows, rep.listing]
  constructor
  · intro here
    rcases here with ⟨entry, member, rfl, inside⟩
    rcases List.mem_map.mp member with ⟨binary, listed, rfl⟩
    rcases List.mem_map.mp inside with ⟨row, held, same⟩
    exact ⟨binary, listed, rfl, row, held, same⟩
  · intro here
    rcases here with ⟨binary, listed, rfl, row, held, rfl⟩
    exact ⟨_, List.mem_map_of_mem listed, rfl, List.mem_map_of_mem held⟩

theorem Ordered.rows_nodup {rows : Rows} (ordered : Ordered rows) : (rows.map Prod.snd).Nodup := by
  apply List.pairwise_map.mpr
  apply ordered.sorted.imp
  intro row row' less same
  rw [same] at less
  exact UInt32.lt_irrefl _ less

theorem Represents.shown_nodup (rep : Represents mem list) (tidy : Tidy list) (j : UInt32) :
    (mem.shown j).Nodup := by
  rw [Memory.shown, rep.listing, List.nodup_flatMap]
  constructor
  · intro entry member
    rcases List.mem_map.mp member with ⟨binary, listed, rfl⟩
    apply List.Nodup.map
    · intro sub sub' same
      exact (Prod.mk.inj same).2
    · exact (tidy.neat binary listed).ordered.rows_nodup.filter _
  · apply List.pairwise_map.mpr
    apply (List.pairwise_map.mp tidy.distinct).imp
    intro binary other differs entry member member'
    rcases List.mem_map.mp member with ⟨sub, _, rfl⟩
    rcases List.mem_map.mp member' with ⟨sub', _, same⟩
    exact differs (Prod.mk.inj same).1.symm

theorem Represents.shown_single (rep : Represents mem list) (tidy : Tidy list) {new : Stappsub}
    (single : ∀ other sub, Shown list other sub ∧ sub.uiappMeteringIndex = j ↔
      other = name ∧ sub = new) : mem.shown j = [(name, new)] := by
  apply List.perm_singleton.mp
  apply (List.perm_ext_iff_of_nodup (rep.shown_nodup tidy j) (List.nodup_singleton _)).mpr
  intro entry
  rw [← Prod.eta entry, mem_shown, rep.shows, single, List.mem_singleton, Prod.mk.injEq]

end Shows

section Modification

/-- A text that a trap carries. A trap with an empty one is dropped by `AM_FillStruct`. -/
abbrev FilledText := { text : Text // text ≠ [] }

/-- A trap for a row that carries the name of a binary and no row status. -/
structure Modification where
  uiappMeteringIndex : UInt32
  pcappMeteringID : Option FilledText
  ulappMeteringStartTime : Option UInt32
  ulappMeteringEndTime : Option UInt32
  iappMeteringReaction : Option Int16
  pcappMeteringBinaryName : FilledText
  pcalertmessage : Option FilledText
  deriving DecidableEq

/-- What `AM_ParseTrap` makes of the trap; it never sets `pcappMeteringUsername`. -/
def Modification.event (trap : Modification) (pcappMeteringUsername : Bool) :
    StappMeteringStruct where
  uiappMeteringIndex := trap.uiappMeteringIndex
  pcappMeteringID := trap.pcappMeteringID.map Subtype.val
  ulappMeteringStartTime := trap.ulappMeteringStartTime.getD 0
  ulappMeteringEndTime := trap.ulappMeteringEndTime.getD 0
  iappMeteringReaction := trap.iappMeteringReaction.getD 0
  pcappMeteringUsername := pcappMeteringUsername
  pcappMeteringBinaryName := trap.pcappMeteringBinaryName.val
  pcalertmessage := trap.pcalertmessage.map Subtype.val
  alertRoom := trap.pcalertmessage.elim 0 fun message => message.val.length + 1
  istatus := 0

/-- The row with the columns that the trap carries. -/
def Modification.applied (trap : Modification) (old : Stappsub) : Stappsub where
  uiappMeteringIndex := trap.uiappMeteringIndex
  pcappMeteringID := (trap.pcappMeteringID.map Subtype.val).getD old.pcappMeteringID
  ulappMeteringStartTime := trap.ulappMeteringStartTime.getD old.ulappMeteringStartTime
  ulappMeteringEndTime := trap.ulappMeteringEndTime.getD old.ulappMeteringEndTime
  iappMeteringReaction := trap.iappMeteringReaction.getD old.iappMeteringReaction
  pcalertmessage := (trap.pcalertmessage.map Subtype.val).getD old.pcalertmessage
  istatus := old.istatus

/-- The trap is handled and each of its strings is freed once; afterwards its row is listed
once, under its name and with its columns, and all other rows are listed as before. -/
def Modification.Changes (trap : Modification) (mem : Memory) (old : Stappsub)
    (pcappMeteringUsername : Bool) : Prop :=
  ∃ mem', amParseTrap mem (trap.event pcappMeteringUsername) [] = some mem' ∧
    mem'.shown trap.uiappMeteringIndex =
      [(trap.pcappMeteringBinaryName.val, trap.applied old)] ∧
    ∀ name sub, sub.uiappMeteringIndex ≠ trap.uiappMeteringIndex →
      (mem'.Shows name sub ↔ mem.Shows name sub)

/-- A row that stays in its binary: the texts have room, and what is not carried is zero. -/
structure Modification.Stays (trap : Modification) (old : Stappsub) : Prop where
  idRoom : ∀ id ∈ trap.pcappMeteringID, id.val.length < arraySize
  messageRoom : ∀ message ∈ trap.pcalertmessage, message.val.length < arraySize
  start : trap.ulappMeteringStartTime = none → old.ulappMeteringStartTime = 0
  finish : trap.ulappMeteringEndTime = none → old.ulappMeteringEndTime = 0
  reaction : trap.iappMeteringReaction = none → old.iappMeteringReaction = 0
  status : old.istatus = 0

/-- A row that goes to another binary: another row is left behind, and what is carried is what
the row has. -/
structure Modification.Moves (trap : Modification) (mem : Memory) (name : Text)
    (old : Stappsub) : Prop where
  noID : trap.pcappMeteringID = none
  id : old.pcappMeteringID = []
  message : old.pcalertmessage = (trap.pcalertmessage.map Subtype.val).getD []
  start : ∀ time ∈ trap.ulappMeteringStartTime, time = old.ulappMeteringStartTime
  finish : ∀ time ∈ trap.ulappMeteringEndTime, time = old.ulappMeteringEndTime
  reaction : ∀ reaction ∈ trap.iappMeteringReaction, reaction = old.iappMeteringReaction
  status : old.istatus = 0 ∨ ∀ sub, mem.Shows trap.pcappMeteringBinaryName.val sub →
    ¬ sub.uiappMeteringIndex > trap.uiappMeteringIndex
  short : trap.pcappMeteringBinaryName.val.length < arraySize
  left : ∃ sub, mem.Shows name sub ∧ sub.uiappMeteringIndex ≠ trap.uiappMeteringIndex

def Modification.Harmless (trap : Modification) (mem : Memory) (name : Text)
    (old : Stappsub) : Prop :=
  if trap.pcappMeteringBinaryName.val = name then trap.Stays old else trap.Moves mem name old

end Modification

section Failures

variable {mem mem' : Memory} {pappMet pappMet' : StappMeteringStruct} {subs : Heap Nat Stappsub}
  {list front back : List Binary} {binary : Binary} {before after : Rows} {a s fuel : Nat}
  {p : Option Nat} {sub old found : Stappsub} {bname : Text} {freed : Bool}

theorem modifyRows_refused
    (segment : Segment subs (some a) ((a, sub) :: (before ++ (s, old) :: after)) none)
    (absent : ∀ row ∈ before, row.2.uiappMeteringIndex ≠ pappMet.uiappMeteringIndex)
    (here : old.uiappMeteringIndex = pappMet.uiappMeteringIndex)
    (refused : fill pappMet old = none) (fuel : Nat) (flag : Bool) :
    modifyRows pappMet fuel (some a) subs flag = none := by
  induction before generalizing a sub fuel with
  | nil =>
    rcases segment with ⟨_, next, held, rfl, next', held', _⟩
    cases fuel with
    | zero => rfl
    | succ fuel =>
      rw [modifyRows]
      simp only [held, held', here, if_true, refused]
  | cons head tail ih =>
    rcases segment with ⟨_, next, held, rest⟩
    have behind := rest
    rcases rest with ⟨rfl, next', held', _⟩
    cases fuel with
    | zero => rfl
    | succ fuel =>
      rw [modifyRows]
      simp only [held, held', absent head List.mem_cons_self, if_false]
      exact ih behind (fun row member => absent row (List.mem_cons_of_mem _ member)) fuel

theorem amModify_refused (rep : Represents mem (front ++ binary :: back))
    (others : ∀ other ∈ front, other.name ≠ pappMet.pcappMeteringBinaryName)
    (named : binary.name = pappMet.pcappMeteringBinaryName)
    (split : binary.rows = before ++ (s, old) :: after)
    (absent : ∀ row ∈ before, row.2.uiappMeteringIndex ≠ pappMet.uiappMeteringIndex)
    (here : old.uiappMeteringIndex = pappMet.uiappMeteringIndex) (long : ¬ pappMet.Fits) :
    amModify mem pappMet [] = none := by
  rcases rep.around with ⟨head, start, next, begins, held, segment, there, _⟩
  have length := rep.list_length begins
  have rows := rep.rows binary (by simp)
  rw [Binary.cells, split] at rows
  rw [List.length_append, List.length_cons] at length
  rcases (⟨mem.allocated + 1 - front.length, by omega⟩ :
    ∃ fuel, mem.allocated + 2 = front.length + (fuel + 1)) with ⟨fuel, enough⟩
  rcases modifyLoop_skip rep (by simp +contextual) segment
    (fun other listed named' => absurd named' (others other listed)) (fuel + 1) false with
    ⟨q, behind, skipped⟩
  rcases behind with ⟨rfl, _⟩
  have stuck : modifyRows pappMet (mem.allocated + 2) (some binary.dummy) mem.subs false = none :=
    modifyRows_refused rows absent here (if_neg long) _ _
  have whole : modifyLoop pappMet (mem.allocated + 2) start mem false = none := by
    rw [enough, skipped, modifyLoop]
    simp only [there, named, if_true, stuck]
  unfold amModify
  simp only [begins, held, whole]

theorem moveRow_taking (moved : moveRow mem pappMet [] bname sub = some (mem', pappMet')) :
    pappMet' = pappMet.taking sub := by
  unfold moveRow takeOver at moved
  split at moved
  · cases moved
  · rename_i taken same
    split at same
    · cases same
    · cases same
      split at moved
      · cases moved
      · split at moved
        · cases moved
        · rcases Option.map_eq_some_iff.mp moved with ⟨_, _, both⟩
          exact (Prod.mk.inj both).2.symm

theorem searchList_at (rep : Represents mem (front ++ binary :: back))
    (absent : ∀ other ∈ front, ∀ row ∈ other.rows,
      row.2.uiappMeteringIndex ≠ pappMet.uiappMeteringIndex)
    (split : binary.rows = before ++ (s, found) :: after)
    (early : ∀ row ∈ before, row.2.uiappMeteringIndex ≠ pappMet.uiappMeteringIndex)
    (index : found.uiappMeteringIndex = pappMet.uiappMeteringIndex) :
    ∃ fuel, searchList mem pappMet [] =
      match moveRow { mem with allocated := mem.allocated + 1 } pappMet [] binary.name found with
      | none => none
      | some (mem', pappMet') =>
        match mem'.apps binary.node with
        | none => none
        | some cell =>
          searchLoop [] fuel cell.next mem' pappMet' pappMet'.pcappMeteringID.isSome := by
  have rep' := rep.set_allocated (Nat.le_succ mem.allocated)
  rcases rep'.around with ⟨head, start, next, begins, held, segment, there, _⟩
  have length := rep'.list_length begins
  have rowsLength := rep'.rows_length (show binary ∈ front ++ binary :: back by simp)
  have rows := rep'.rows binary (by simp)
  rw [Binary.cells, split] at rows rowsLength
  simp only [List.length_append, List.length_cons] at length rowsLength
  rcases (⟨mem.allocated + 2 - front.length, by omega⟩ :
    ∃ fuel, mem.allocated + 1 + 2 = front.length + (fuel + 1)) with ⟨fuel, enough⟩
  rcases searchLoop_skip rep' (by simp +contextual) segment absent (fuel + 1) false with
    ⟨q, behind, skipped⟩
  rcases behind with ⟨rfl, _⟩
  have row : searchRow mem.subs pappMet.uiappMeteringIndex (mem.allocated + 1 + 2)
      (some binary.dummy) = some (some found) :=
    searchRow_found rows early index (by omega)
  refine ⟨fuel, ?_⟩
  have begins' : mem.head = some head := begins
  have held' : mem.apps head = some ⟨⟨[], none⟩, start⟩ := held
  unfold searchList
  simp only [malloc, List.not_mem_nil, if_false, begins', held']
  rw [enough]
  rw [begins'] at skipped
  refine skipped.trans ?_
  rw [searchLoop]
  have there' : mem.apps binary.node = some ⟨⟨binary.name, some binary.dummy⟩, next⟩ := there
  simp only [there', row]
  rfl

theorem searchLoop_freed {fuel : Nat} {p : Option Nat} {mem : Memory}
    {pappMet : StappMeteringStruct}
    (ran : searchLoop [] fuel p mem pappMet true = some (mem', freed)) : freed = true := by
  induction fuel generalizing p mem pappMet with
  | zero => cases ran
  | succ fuel ih =>
    cases p with
    | none =>
      cases ran
      rfl
    | some mv =>
      rw [searchLoop] at ran
      split at ran
      · cases ran
      · split at ran
        · cases ran
        · exact ih ran
        · split at ran
          · cases ran
          · split at ran
            · cases ran
            · rw [Bool.true_or] at ran
              exact ih ran

theorem searchList_identifier (rep : Represents mem (front ++ binary :: back))
    (absent : ∀ other ∈ front, ∀ row ∈ other.rows,
      row.2.uiappMeteringIndex ≠ pappMet.uiappMeteringIndex)
    (split : binary.rows = before ++ (s, found) :: after)
    (early : ∀ row ∈ before, row.2.uiappMeteringIndex ≠ pappMet.uiappMeteringIndex)
    (index : found.uiappMeteringIndex = pappMet.uiappMeteringIndex)
    (identifier : pappMet.pcappMeteringID ≠ none) :
    searchList mem pappMet [] ≠ some (mem', false) := by
  rcases searchList_at rep absent split early index with ⟨fuel, reached⟩
  intro ran
  rw [reached] at ran
  split at ran
  · cases ran
  · rename_i pappMet' moved
    split at ran
    · cases ran
    · have carried : pappMet'.pcappMeteringID.isSome = true := by
        rw [moveRow_taking moved, StappMeteringStruct.taking, Option.isSome_map,
          Option.isSome_iff_ne_none]
        exact identifier
      rw [carried] at ran
      cases searchLoop_freed ran

theorem moveRow_long (rep : Represents mem list)
    (absent : ∀ other ∈ list, other.name ≠ pappMet.pcappMeteringBinaryName)
    (named : pappMet.pcappMeteringBinaryName ≠ [])
    (long : arraySize ≤ pappMet.pcappMeteringBinaryName.length) (bname : Text)
    (sub : Stappsub) : moveRow mem pappMet [] bname sub = none := by
  by_cases room : pappMet.pcalertmessage ≠ none ∧
      pappMet.alertRoom ≤ sub.pcalertmessage.length
  · rw [moveRow, takeOver, if_pos room]
  · have taken : takeOver pappMet sub = some (pappMet.taking sub) := if_neg room
    rcases mallocText_spec mem (pappMet.taking sub).pcappMeteringID.isSome with
      ⟨first, more, copied⟩
    rcases mallocText_spec { mem with allocated := first }
      (pappMet.taking sub).pcappMeteringUsername with ⟨second, more', copied'⟩
    have absent' : ∀ other ∈ list,
        other.name ≠ (pappMet.taking sub).pcappMeteringBinaryName := absent
    have stuck : amList { mem with allocated := second } (pappMet.taking sub) [] true = none :=
      amList_long (rep.set_allocated (more.trans more')) absent' named long true
    have copies : (mallocText mem [] (pappMet.taking sub).pcappMeteringID.isSome).bind
        (mallocText · [] (pappMet.taking sub).pcappMeteringUsername) =
          some { mem with allocated := second } := by
      rw [copied]
      exact copied'
    simp only [moveRow, taken, copies, stuck]

theorem moveRow_last (rep : Represents mem (front ++ binary :: back))
    (tidy : Tidy (front ++ binary :: back))
    (other : binary.name ≠ pappMet.pcappMeteringBinaryName)
    (named : pappMet.pcappMeteringBinaryName ≠ [])
    (short : pappMet.pcappMeteringBinaryName.length < arraySize)
    (new : ¬ Listed (front ++ binary :: back) pappMet.pcappMeteringBinaryName
      pappMet.uiappMeteringIndex)
    (split : binary.rows = [(s, found)])
    (index : found.uiappMeteringIndex = pappMet.uiappMeteringIndex)
    (room : pappMet.pcalertmessage ≠ none → found.pcalertmessage.length < pappMet.alertRoom) :
    ∃ mem', moveRow mem pappMet [] binary.name found = some (mem', pappMet.taking found) ∧
      mem'.apps binary.node = none := by
  have ordered := tidy.middle.ordered
  rw [split] at ordered
  have positive := ordered.positive (s, found) List.mem_cons_self
  have fitting : Fitting found := ordered.fitting (s, found) List.mem_cons_self
  rcases takeOver_spec fitting room with ⟨taken, fits, _⟩
  rcases moveRow_steps taken binary.name mem with ⟨allocated, more, steps⟩
  change 0 < found.uiappMeteringIndex at positive
  rw [index] at positive
  have named' : (pappMet.taking found).pcappMeteringBinaryName ≠ [] := named
  have listing : ∃ mem₂ list',
      amList { mem with allocated := allocated } (pappMet.taking found) [] true = some mem₂ ∧
        Represents mem₂ list' ∧
        Placed (pappMet.taking found) true (front ++ binary :: back) list' :=
    amList_spec (rep.set_allocated more) named' short (.inr positive) fits true
  rcases listing with ⟨mem₂, list', listed, rep₂, placed⟩
  have tidy' := (placed.added fits).tidy tidy named positive fun _ => new
  have around : ∃ front' back', list' = front' ++ binary :: back' := by
    rcases placed.around other with ⟨front', _, whole⟩ | ⟨back', _, whole⟩
    · exact ⟨front', back, whole⟩
    · exact ⟨front, back', whole⟩
  rcases around with ⟨front', back', rfl⟩
  rcases amDelete_last (rep₂.set_allocated (Nat.le_succ mem₂.allocated)) tidy'.others rfl split
    index with ⟨mem₃, deleted, freed⟩
  refine ⟨mem₃, ?_, freed⟩
  have deleted' : amDelete { mem₂ with allocated := mem₂.allocated + 1 } binary.name
      (pappMet.taking found).uiappMeteringIndex = some mem₃ := deleted
  rw [steps mem₂ listed, deleted', Option.map_some]

end Failures

section Columns

variable {mem mem' : Memory} {list list' front back : List Binary} {binary : Binary}
  {before after : Rows} {s : Nat} {name : Text} {old moved : Stappsub} {trap : Modification}
  {pcappMeteringUsername : Bool}

theorem amParseTrap_modification (mem : Memory) (trap : Modification)
    (pcappMeteringUsername : Bool) :
    amParseTrap mem (trap.event pcappMeteringUsername) [] =
      match amModify mem (trap.event pcappMeteringUsername) [] with
      | none => none
      | some (_, true) => none
      | some (mem, false) => some mem := by
  have notAdded : ¬ ((0 : Int16) = 4 ∨ (0 : Int16) = 1) := by decide
  have notDeleted : ¬ ((0 : Int16) = 2 ∨ (0 : Int16) = 6) := by decide
  rw [amParseTrap]
  exact (if_neg notAdded).trans (if_neg notDeleted)

theorem changes_iff (ran : amParseTrap mem (trap.event pcappMeteringUsername) [] = some mem')
    (rep : Represents mem list) (rep' : Represents mem' list') (tidy' : Tidy list')
    (index : moved.uiappMeteringIndex = trap.uiappMeteringIndex)
    (only : ∀ other sub, Shown list other sub →
      sub.uiappMeteringIndex = trap.uiappMeteringIndex → other = name)
    (shown : ∀ other sub, Shown list' other sub ↔
      (Shown list other sub ∧
          ¬ (other = name ∧ sub.uiappMeteringIndex = trap.uiappMeteringIndex)) ∨
        (other = trap.pcappMeteringBinaryName.val ∧ sub = moved)) :
    trap.Changes mem old pcappMeteringUsername ↔ moved = trap.applied old := by
  constructor
  · intro changes
    rcases changes with ⟨mem'', ran', once, _⟩
    cases ran.symm.trans ran'
    have here : (trap.pcappMeteringBinaryName.val, moved) ∈ mem'.shown trap.uiappMeteringIndex :=
      mem_shown.mpr ⟨rep'.shows.mpr ((shown _ _).mpr (.inr ⟨rfl, rfl⟩)), index⟩
    rw [once, List.mem_singleton] at here
    exact (Prod.mk.inj here).2
  · intro same
    refine ⟨mem', ran, ?_, ?_⟩
    · rw [← same]
      apply rep'.shown_single tidy'
      intro other sub
      rw [shown]
      constructor
      · intro here
        rcases here with ⟨⟨kept, differs⟩ | both, equal⟩
        · exact absurd ⟨only other sub kept equal, equal⟩ differs
        · exact both
      · intro both
        exact ⟨.inr both, by rw [both.2]; exact index⟩
    · intro other sub differs
      rw [rep'.shows, rep.shows, shown]
      constructor
      · intro here
        rcases here with ⟨kept, _⟩ | ⟨_, rfl⟩
        · exact kept
        · exact absurd index differs
      · intro kept
        exact .inl ⟨kept, fun both => differs both.2⟩

theorem getD_eq_getD {α : Type} (carried : Option α) (x y : α) :
    carried.getD x = carried.getD y ↔ (carried = none → x = y) := by
  cases carried <;> simp

theorem eq_getD {α : Type} (carried : Option α) (x : α) :
    x = carried.getD x ↔ ∀ y ∈ carried, y = x := by
  cases carried <;> simp [eq_comm]

theorem over_applied_iff (index : old.uiappMeteringIndex = trap.uiappMeteringIndex) :
    (trap.event pcappMeteringUsername).over old = trap.applied old ↔
      (trap.ulappMeteringStartTime = none → 0 = old.ulappMeteringStartTime) ∧
        (trap.ulappMeteringEndTime = none → 0 = old.ulappMeteringEndTime) ∧
        (trap.iappMeteringReaction = none → 0 = old.iappMeteringReaction) ∧
        0 = old.istatus := by
  simp only [StappMeteringStruct.over, Modification.event, Modification.applied,
    Stappsub.mk.injEq, index, getD_eq_getD, true_and]

theorem taking_applied_iff (noID : trap.pcappMeteringID = none) (last : Bool) :
    ((trap.event pcappMeteringUsername).taking old).row last = trap.applied old ↔
      [] = old.pcappMeteringID ∧
        (∀ time ∈ trap.ulappMeteringStartTime, time = old.ulappMeteringStartTime) ∧
        (∀ time ∈ trap.ulappMeteringEndTime, time = old.ulappMeteringEndTime) ∧
        (∀ reaction ∈ trap.iappMeteringReaction, reaction = old.iappMeteringReaction) ∧
        old.pcalertmessage = (trap.pcalertmessage.map Subtype.val).getD [] ∧
        (last = true ∨ old.istatus = 0) := by
  have message : ((trap.pcalertmessage.map Subtype.val).map fun _ => old.pcalertmessage).getD [] =
      (trap.pcalertmessage.map Subtype.val).getD old.pcalertmessage ↔
        old.pcalertmessage = (trap.pcalertmessage.map Subtype.val).getD [] := by
    cases trap.pcalertmessage <;> simp [eq_comm]
  have status : (if last then old.istatus else 0) = old.istatus ↔
      last = true ∨ old.istatus = 0 := by
    cases last <;> simp [eq_comm]
  simp only [StappMeteringStruct.taking, StappMeteringStruct.row, Modification.event,
    Modification.applied, Stappsub.mk.injEq, noID, Option.map_none, Option.getD_none, true_and,
    eq_getD, message, status]

theorem stays_iff (rep : Represents mem (front ++ binary :: back))
    (tidy : Tidy (front ++ binary :: back))
    (named : binary.name = trap.pcappMeteringBinaryName.val)
    (split : binary.rows = before ++ (s, old) :: after)
    (index : old.uiappMeteringIndex = trap.uiappMeteringIndex)
    (only : ∀ other sub, Shown (front ++ binary :: back) other sub →
      sub.uiappMeteringIndex = trap.uiappMeteringIndex → other = binary.name) :
    trap.Changes mem old pcappMeteringUsername ↔ trap.Stays old := by
  have ordered := tidy.middle.ordered
  rw [split] at ordered
  have others := tidy.others
  rw [named] at others
  have absent := ordered.others
  rw [index] at absent
  have room : (trap.event pcappMeteringUsername).Fits ↔
      (∀ id ∈ trap.pcappMeteringID, id.val.length < arraySize) ∧
        ∀ message ∈ trap.pcalertmessage, message.val.length < arraySize := by
    simp only [StappMeteringStruct.Fits, Modification.event, Option.mem_map,
      forall_exists_index, and_imp, forall_apply_eq_imp_iff₂]
  by_cases fits : (trap.event pcappMeteringUsername).Fits
  · rcases amModify_found rep others named split absent index fits with ⟨mem', ran, rep'⟩
    have fitting : Fitting old := ordered.fitting (s, old) (by simp)
    have same : ((trap.event pcappMeteringUsername).over old).uiappMeteringIndex =
        old.uiappMeteringIndex := rfl
    have tidy' := (tidy.exchange split same (over_fitting fits fitting) s).1
    have parsed : amParseTrap mem (trap.event pcappMeteringUsername) [] = some mem' := by
      rw [amParseTrap_modification, ran]
    have index' : ((trap.event pcappMeteringUsername).over old).uiappMeteringIndex =
        trap.uiappMeteringIndex := index
    have shown : ∀ other sub, Shown (front ++ { binary with rows := before ++
        (s, (trap.event pcappMeteringUsername).over old) :: after } :: back) other sub ↔
        (Shown (front ++ binary :: back) other sub ∧
          ¬ (other = trap.pcappMeteringBinaryName.val ∧
            sub.uiappMeteringIndex = trap.uiappMeteringIndex)) ∨
          (other = trap.pcappMeteringBinaryName.val ∧
            sub = (trap.event pcappMeteringUsername).over old) := by
      intro other sub
      rw [shown_change tidy split, index, named]
    rw [changes_iff parsed rep rep' tidy' index' (named ▸ only) shown, over_applied_iff index]
    constructor
    · intro kept
      rcases kept with ⟨start, finish, reaction, status⟩
      exact ⟨(room.mp fits).1, (room.mp fits).2, fun none => (start none).symm,
        fun none => (finish none).symm, fun none => (reaction none).symm, status.symm⟩
    · intro stays
      exact ⟨fun none => (stays.start none).symm, fun none => (stays.finish none).symm,
        fun none => (stays.reaction none).symm, stays.status.symm⟩
  · have stuck := amModify_refused rep (fun other member => others other
      (List.mem_append_left _ member)) named split
      (fun row member => absent row (List.mem_append_left _ member)) index fits
    constructor
    · intro changes
      rcases changes with ⟨mem', ran, _⟩
      rw [amParseTrap_modification, stuck] at ran
      cases ran
    · intro stays
      exact absurd (room.mpr ⟨stays.idRoom, stays.messageRoom⟩) fits

theorem Represents.below (rep : Represents mem list) (name : Text) (j : UInt32) :
    Below list name j ↔ ∀ sub, mem.Shows name sub → ¬ sub.uiappMeteringIndex > j := by
  constructor
  · intro below sub shows
    rcases rep.shows.mp shows with ⟨binary, member, here, row, inside, rfl⟩
    exact below binary member here row inside
  · intro below binary member here row inside
    exact below row.2 (rep.shows.mpr ⟨binary, member, here, row, inside, rfl⟩)

theorem Represents.left (rep : Represents mem (front ++ binary :: back))
    (tidy : Tidy (front ++ binary :: back)) (split : binary.rows = before ++ (s, old) :: after) :
    (∃ sub, mem.Shows binary.name sub ∧ sub.uiappMeteringIndex ≠ old.uiappMeteringIndex) ↔
      before ++ after ≠ [] := by
  have ordered := tidy.middle.ordered
  rw [split] at ordered
  constructor
  · intro left empty
    rcases left with ⟨sub, shows, differs⟩
    rcases rep.shows.mp shows with ⟨holder, member, here, row, inside, rfl⟩
    have same : holder = binary := by
      rcases List.mem_append.mp member with member | member
      · exact absurd here (tidy.others holder (List.mem_append_left _ member))
      · rcases List.mem_cons.mp member with same | member
        · exact same
        · exact absurd here (tidy.others holder (List.mem_append_right _ member))
    rcases List.append_eq_nil_iff.mp empty with ⟨rfl, rfl⟩
    rw [same, split, List.nil_append, List.mem_singleton] at inside
    rw [inside] at differs
    exact differs rfl
  · intro filled
    rcases List.exists_mem_of_ne_nil _ filled with ⟨row, member⟩
    refine ⟨row.2, rep.shows.mpr ⟨binary, by simp, rfl, row, ?_, rfl⟩, ordered.others row member⟩
    rw [split]
    rcases List.mem_append.mp member with member | member
    · exact List.mem_append_left _ member
    · exact List.mem_append_right _ (List.mem_cons_of_mem _ member)

theorem moves_iff (rep : Represents mem (front ++ binary :: back))
    (tidy : Tidy (front ++ binary :: back))
    (short : ∀ other ∈ front ++ binary :: back, other.name.length < arraySize)
    (other : binary.name ≠ trap.pcappMeteringBinaryName.val)
    (split : binary.rows = before ++ (s, old) :: after)
    (index : old.uiappMeteringIndex = trap.uiappMeteringIndex)
    (only : ∀ other sub, Shown (front ++ binary :: back) other sub →
      sub.uiappMeteringIndex = trap.uiappMeteringIndex → other = binary.name) :
    trap.Changes mem old pcappMeteringUsername ↔ trap.Moves mem binary.name old := by
  have ordered := tidy.middle.ordered
  rw [split] at ordered
  have early : ∀ row ∈ before, row.2.uiappMeteringIndex ≠ trap.uiappMeteringIndex := by
    intro row member
    rw [← index]
    exact ordered.others row (List.mem_append_left _ member)
  have absent : ∀ holder ∈ front ++ back, ∀ row ∈ holder.rows,
      row.2.uiappMeteringIndex ≠ trap.uiappMeteringIndex := by
    intro holder member row inside equal
    apply tidy.others holder member
    apply only holder.name row.2 _ equal
    refine ⟨holder, ?_, rfl, row, inside, rfl⟩
    rcases List.mem_append.mp member with member | member
    · exact List.mem_append_left _ member
    · exact List.mem_append_right _ (List.mem_cons_of_mem _ member)
  have absentFront : ∀ holder ∈ front, ∀ row ∈ holder.rows,
      row.2.uiappMeteringIndex ≠ trap.uiappMeteringIndex :=
    fun holder member => absent holder (List.mem_append_left _ member)
  have index' : old.uiappMeteringIndex =
      (trap.event pcappMeteringUsername).uiappMeteringIndex := index
  have modified : amModify mem (trap.event pcappMeteringUsername) [] =
      searchList mem (trap.event pcappMeteringUsername) [] := by
    apply amModify_absent rep
    intro holder member here row inside equal
    exact other ((only holder.name row.2 ⟨holder, member, rfl, row, inside, rfl⟩ equal).symm.trans
      here)
  -- The row is moved in an orderly way: what is left is to compare the columns.
  have compare : trap.pcappMeteringID = none →
      trap.pcappMeteringBinaryName.val.length < arraySize → before ++ after ≠ [] →
      (trap.pcalertmessage ≠ none → old.pcalertmessage.length <
        (trap.event pcappMeteringUsername).alertRoom) →
      (trap.Changes mem old pcappMeteringUsername ↔ trap.Moves mem binary.name old) := by
    intro noID fits filled room
    have noID' : (trap.event pcappMeteringUsername).pcappMeteringID = none := by
      rw [Modification.event, noID]
      rfl
    have room' : (trap.event pcappMeteringUsername).pcalertmessage ≠ none →
        old.pcalertmessage.length < (trap.event pcappMeteringUsername).alertRoom := by
      intro given
      apply room
      intro none
      apply given
      rw [Modification.event, none]
      rfl
    rcases searchList_other rep tidy other trap.pcappMeteringBinaryName.property fits absent split
      index filled noID' room' with ⟨mem', list', last, ran, rep', tidy', ended, shown⟩
    have parsed : amParseTrap mem (trap.event pcappMeteringUsername) [] = some mem' := by
      rw [amParseTrap_modification, modified, ran]
    have below : last = true ↔ ∀ sub, mem.Shows trap.pcappMeteringBinaryName.val sub →
        ¬ sub.uiappMeteringIndex > trap.uiappMeteringIndex :=
      ended.trans (rep.below _ _)
    rw [changes_iff parsed rep rep' tidy' rfl only shown, taking_applied_iff noID]
    constructor
    · intro kept
      rcases kept with ⟨id, start, finish, reaction, message, status⟩
      have left := (rep.left tidy split).mpr filled
      rw [index] at left
      exact ⟨noID, id.symm, message, start, finish, reaction, status.symm.imp_right below.mp, fits,
        left⟩
    · intro moves
      exact ⟨moves.id.symm, moves.start, moves.finish, moves.reaction, moves.message,
        moves.status.symm.imp_left below.mpr⟩
  constructor
  · intro changes
    have kept := changes
    rcases changes with ⟨mem', ran, _⟩
    have searched : searchList mem (trap.event pcappMeteringUsername) [] = some (mem', false) := by
      rw [amParseTrap_modification, modified] at ran
      split at ran
      · cases ran
      · cases ran
      · rename_i searched
        cases ran
        exact searched
    have stuck : moveRow { mem with allocated := mem.allocated + 1 }
        (trap.event pcappMeteringUsername) [] binary.name old ≠ none := by
      intro none
      rcases searchList_at rep absentFront split early index' with ⟨fuel, reached⟩
      rw [searched, none] at reached
      cases reached
    have rep₁ := rep.set_allocated (Nat.le_succ mem.allocated)
    have noID : trap.pcappMeteringID = none := by
      by_contra carried
      apply searchList_identifier rep absentFront split early index' _ searched
      intro none
      exact carried (Option.map_eq_none_iff.mp none)
    have fits : trap.pcappMeteringBinaryName.val.length < arraySize := by
      by_contra long
      apply stuck
      apply moveRow_long rep₁ _ trap.pcappMeteringBinaryName.property (Nat.le_of_not_lt long)
      intro holder member here
      have fits := short holder member
      rw [here] at fits
      exact long fits
    have room : trap.pcalertmessage ≠ none → old.pcalertmessage.length <
        (trap.event pcappMeteringUsername).alertRoom := by
      intro given
      by_contra small
      apply stuck
      have refused : takeOver (trap.event pcappMeteringUsername) old = none := by
        apply if_pos
        refine ⟨?_, Nat.le_of_not_lt small⟩
        intro none
        exact given (Option.map_eq_none_iff.mp none)
      rw [moveRow, refused]
    have filled : before ++ after ≠ [] := by
      intro empty
      rcases List.append_eq_nil_iff.mp empty with ⟨rfl, rfl⟩
      have new : ¬ Listed (front ++ binary :: back)
          (trap.event pcappMeteringUsername).pcappMeteringBinaryName
          (trap.event pcappMeteringUsername).uiappMeteringIndex := by
        intro listed
        rcases listed_iff.mp listed with ⟨sub, shown, equal⟩
        exact other (only _ sub shown equal).symm
      rcases moveRow_last rep₁ tidy other trap.pcappMeteringBinaryName.property fits new split
        index (by
          intro given
          apply room
          intro none
          apply given
          rw [Modification.event, none]
          rfl) with ⟨mem₁, moved, freed⟩
      rcases searchList_at rep absentFront split early index' with ⟨fuel, reached⟩
      rw [searched, moved] at reached
      simp only [freed] at reached
      cases reached
    exact (compare noID fits filled room).mp kept
  · intro moves
    have left := moves.left
    rw [← index] at left
    apply (compare moves.noID moves.short ((rep.left tidy split).mp left) _).mpr moves
    intro given
    rw [moves.message]
    cases message : trap.pcalertmessage with
    | none => exact absurd message given
    | some text => simp [Modification.event, message]

/-- A row that is listed once gets the columns of the trap, and keeps the others, exactly when
the trap is harmless for it. -/
theorem columns_changed_iff (rep : Represents mem list) (tidy : Tidy list)
    (short : ∀ entry ∈ mem.listing, entry.1.length < arraySize) (trap : Modification)
    (once : mem.shown trap.uiappMeteringIndex = [(name, old)]) (pcappMeteringUsername : Bool) :
    trap.Changes mem old pcappMeteringUsername ↔ trap.Harmless mem name old := by
  have shown : Shown list name old ∧ old.uiappMeteringIndex = trap.uiappMeteringIndex := by
    rw [← rep.shows, ← mem_shown, once]
    exact List.mem_singleton_self _
  have only : ∀ other sub, Shown list other sub →
      sub.uiappMeteringIndex = trap.uiappMeteringIndex → other = name := by
    intro other sub here index
    have member := mem_shown.mpr ⟨rep.shows.mpr here, index⟩
    rw [once, List.mem_singleton] at member
    exact (Prod.mk.inj member).1
  rcases shown with ⟨⟨binary, member, rfl, row, inside, rfl⟩, index⟩
  rcases List.append_of_mem member with ⟨front, back, rfl⟩
  rcases List.append_of_mem inside with ⟨before, after, split⟩
  have names : ∀ other ∈ front ++ binary :: back, other.name.length < arraySize := by
    intro other listed
    apply short (other.name, other.rows.map Prod.snd)
    rw [rep.listing]
    exact List.mem_map_of_mem listed
  rw [Modification.Harmless]
  by_cases same : trap.pcappMeteringBinaryName.val = binary.name
  · rw [if_pos same]
    exact stays_iff rep tidy same.symm split index only
  · rw [if_neg same]
    exact moves_iff rep tidy names (Ne.symm same) split index only

end Columns

section Samples

/-- Row 1 is added before row 2, with a start time. -/
def timedRows (start : UInt32) : List StappMeteringStruct :=
  [rowEvent 2 ['a'] 4, { rowEvent 1 ['a'] 4 with ulappMeteringStartTime := start }]

def timedRow (start : UInt32) : Stappsub where
  uiappMeteringIndex := 1
  pcappMeteringID := []
  ulappMeteringStartTime := start
  ulappMeteringEndTime := 0
  iappMeteringReaction := 0
  pcalertmessage := []
  istatus := 0

def newReaction : Modification where
  uiappMeteringIndex := 1
  pcappMeteringID := none
  ulappMeteringStartTime := none
  ulappMeteringEndTime := none
  iappMeteringReaction := some 1
  pcappMeteringBinaryName := ⟨['a'], by decide⟩
  pcalertmessage := none

/-- A row without times gets a reaction. -/
theorem columns_changed_iff_untimed : ∃ w, run trap World.start (timedRows 0) = some w ∧
    (newReaction.Changes w.mem (timedRow 0) false ↔
      newReaction.Harmless w.mem ['a'] (timedRow 0)) := by
  rcases run_inOrder (timedRows 0) (by decide +kernel) (by decide +kernel) with
    ⟨w, list, ran, inOrder⟩
  have found : (run trap World.start (timedRows 0)).all (fun w =>
      (w.mem.listing.all fun entry => entry.1.length < arraySize) &&
        w.mem.shown 1 == [(['a'], timedRow 0)]) = true := by
    decide +kernel
  rw [ran, Option.all_some, Bool.and_eq_true, List.all_eq_true, beq_iff_eq] at found
  refine ⟨w, ran, columns_changed_iff inOrder.represents inOrder.tidy ?_ newReaction found.2 false⟩
  intro entry member
  exact of_decide_eq_true (found.1 entry member)

/-- A row with a start time loses it when it gets a reaction. -/
theorem columns_changed_iff_timed : ¬ ∀ (events : List StappMeteringStruct) (w : World),
    run trap World.start events = some w → ∀ (trap : Modification) (name : Text) (old : Stappsub),
      w.mem.shown trap.uiappMeteringIndex = [(name, old)] → trap.Changes w.mem old false := by
  intro all
  have lost : (run trap World.start (timedRows 5)).any (fun w =>
      (w.mem.shown 1 == [(['a'], timedRow 5)]) &&
        (amParseTrap w.mem (newReaction.event false) []).any fun mem' =>
          mem'.shown 1 != [(['a'], newReaction.applied (timedRow 5))]) = true := by
    decide +kernel
  rcases (Option.any_eq_true _ _).mp lost with ⟨w, ran, lost⟩
  rw [Bool.and_eq_true, beq_iff_eq] at lost
  rcases (Option.any_eq_true _ _).mp lost.2 with ⟨mem', handled, differs⟩
  rcases all (timedRows 5) w ran newReaction ['a'] (timedRow 5) lost.1 with ⟨mem'', ran', once, _⟩
  cases handled.symm.trans ran'
  exact bne_iff_ne.mp differs once

end Samples

end EveAgent.AppMetering
