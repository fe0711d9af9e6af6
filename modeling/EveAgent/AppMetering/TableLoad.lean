import EveAgent.AppMetering.TableWalk

namespace EveAgent.AppMetering

open GetBulk JobSched Cells

section Growth

/-! A row whose index is greater than all others comes last in its binary. -/

def entries (list : List Binary) : List (Text × Stappsub) :=
  list.flatMap fun binary => binary.rows.map fun row => (binary.name, row.2)

variable {pappMet : StappMeteringStruct} {mem : Memory} {list front back : List Binary}
  {binary : Binary} {s : Nat} {sub : Stappsub}

theorem entries_append : entries (front ++ back) = entries front ++ entries back :=
  List.flatMap_append

theorem entries_cons : entries (binary :: back) =
    (binary.rows.map fun row => (binary.name, row.2)) ++ entries back :=
  List.flatMap_cons

theorem entries_insert : (entries (front ++
    { binary with rows := binary.rows ++ [(s, sub)] } :: back)).Perm
      (entries (front ++ binary :: back) ++ [(binary.name, sub)]) := by
  rw [entries_append, entries_append, entries_cons, entries_cons, List.map_append,
    List.append_assoc, List.append_assoc, List.append_assoc]
  apply List.Perm.append_left
  apply List.Perm.append_left
  exact List.perm_append_comm

theorem insertRow_end (rep : Represents mem (front ++ binary :: back)) (clear : Clear mem pappMet)
    (below : ∀ row ∈ binary.rows, row.2.uiappMeteringIndex < pappMet.uiappMeteringIndex) :
    (¬ pappMet.Fits ∧ insertRow mem pappMet [] binary.node false = none) ∨
      pappMet.Fits ∧ ∃ mem', insertRow mem pappMet [] binary.node false = some mem' ∧
        Represents mem' (front ++
          { binary with rows := binary.rows ++ [(mem.allocated, pappMet.row true)] } :: back) := by
  have passed : ∀ row ∈ binary.rows, Passes pappMet.uiappMeteringIndex false row := by
    intro row member
    have less := below row member
    exact ⟨UInt32.lt_asymm less, fun both => UInt32.ne_of_lt less both.1⟩
  rw [insertRow_last rep clear passed]
  by_cases fits : pappMet.Fits
  · right
    rw [fill_row fits]
    exact ⟨fits, linkRow_spec rep (List.append_nil _).symm (pappMet.row true)
      { mem with
        gpsub := some (lastAddress binary.dummy binary.rows)
        prevsubmove := some (lastAddress binary.dummy binary.rows)
        allocated := mem.allocated + 1 } rfl rfl rfl rfl⟩
  · left
    have refused : fill pappMet { zeroSub with uiappMeteringIndex := pappMet.uiappMeteringIndex } =
        none := if_neg fits
    rw [refused]
    exact ⟨fits, rfl⟩

theorem amList_end (rep : Represents mem list) (clear : Clear mem pappMet)
    (named : pappMet.pcappMeteringBinaryName ≠ [])
    (short : ∀ binary ∈ list, binary.name.length < arraySize)
    (below : ∀ entry ∈ entries list, entry.2.uiappMeteringIndex < pappMet.uiappMeteringIndex) :
    (¬ (pappMet.pcappMeteringBinaryName.length < arraySize ∧ pappMet.Fits) ∧
        amList mem pappMet [] false = none) ∨
      (pappMet.pcappMeteringBinaryName.length < arraySize ∧ pappMet.Fits) ∧
        ∃ mem' list', amList mem pappMet [] false = some mem' ∧ Represents mem' list' ∧
          (∀ binary ∈ list', binary.name.length < arraySize) ∧
          (entries list').Perm
            (entries list ++ [(pappMet.pcappMeteringBinaryName, pappMet.row true)]) := by
  rcases exists_split (fun other : Binary => other.name ≠ pappMet.pcappMeteringBinaryName) list with
    ⟨front, after, rfl, absent, found⟩
  cases after with
  | nil =>
    rw [List.append_nil] at rep short below ⊢
    rcases amList_missing rep absent named false with
      ⟨long, refused⟩ | ⟨room, mem', binary, made, rep', here, empty, cursor⟩
    · exact .inl ⟨fun both => absurd both.1 (Nat.not_lt.mpr long), refused⟩
    · rw [Clear, ← cursor] at clear
      rw [made, ← here]
      rcases insertRow_end rep' clear (by simp [empty]) with
        ⟨stuck, refused⟩ | ⟨fits, mem'', inserted, rep''⟩
      · exact .inl ⟨fun both => stuck both.2, refused⟩
      · refine .inr ⟨⟨here ▸ room, fits⟩, mem'', _, inserted, rep'', ?_, ?_⟩
        · intro other member
          rcases List.mem_append.mp member with member | member
          · exact short other member
          · rw [List.mem_singleton.mp member]
            exact here ▸ room
        · apply entries_insert.trans
          rw [entries_append, entries_cons, empty]
          simp [entries]
  | cons binary back =>
    have here : binary.name = pappMet.pcappMeteringBinaryName := not_not.mp (found binary rfl)
    have room : binary.name.length < arraySize := short binary (by simp)
    rcases amList_found rep absent here named false with ⟨mem', reached, rep', cursor⟩
    rw [Clear, ← cursor] at clear
    rw [reached, ← here]
    have below' : ∀ row ∈ binary.rows,
        row.2.uiappMeteringIndex < pappMet.uiappMeteringIndex := by
      intro row member
      apply below (binary.name, row.2)
      rw [entries_append, entries_cons]
      apply List.mem_append_right
      apply List.mem_append_left
      exact List.mem_map_of_mem member
    rcases insertRow_end rep' clear below' with
      ⟨stuck, refused⟩ | ⟨fits, mem'', inserted, rep''⟩
    · exact .inl ⟨fun both => stuck both.2, refused⟩
    · refine .inr ⟨⟨room, fits⟩, mem'', _, inserted, rep'', ?_, entries_insert⟩
      intro other member
      rcases List.mem_append.mp member with member | member
      · exact short other (List.mem_append_left _ member)
      · rcases List.mem_cons.mp member with rfl | member
        · exact room
        · exact short other (List.mem_append_right _ (List.mem_cons_of_mem _ member))

end Growth

section Frame

/-! What holds of every node in memory goes on to hold. -/

/-- All nodes of the list have these properties, wherever they are linked. -/
structure Throughout (P : Stappsub → Prop) (Q : Text → Prop) (mem : Memory) : Prop where
  subs : ∀ a cell, mem.subs a = some cell → P cell.val
  apps : ∀ a cell, mem.apps a = some cell → Q cell.val.pcappMeteringBinaryName

variable {P : Stappsub → Prop} {Q : Text → Prop} {mem mem' : Memory}
  {pappMet : StappMeteringStruct}

theorem update_throughout {α : Type} (R : α → Prop) {heap : Heap Nat α}
    (all : ∀ a cell, heap a = some cell → R cell.val) (b : Nat) {new : Cell Nat α}
    (holds : R new.val) :
    ∀ a cell, Function.update heap b (some new) a = some cell → R cell.val := by
  intro a cell found
  by_cases same : a = b
  · rw [same, Function.update_self] at found
    cases found
    exact holds
  · rw [Function.update_of_ne same] at found
    exact all a cell found

theorem linkRow_throughout (all : Throughout P Q mem) {link next : Option Nat} {newsub : Nat}
    {sub : Option Stappsub} (holds : ∀ new ∈ sub, P new)
    (linked : linkRow mem link newsub sub next = some mem') : Throughout P Q mem' := by
  unfold linkRow at linked
  split at linked
  · rename_i link' new
    split at linked
    · cases linked
    · rename_i cell held
      cases linked
      refine ⟨?_, all.apps⟩
      apply update_throughout P
      · exact update_throughout P all.subs _ (holds new rfl)
      · exact all.subs link' cell held
  · cases linked

/-- Rows that are filled from the event have the property as well. -/
def Filling (P : Stappsub → Prop) (pappMet : StappMeteringStruct) : Prop :=
  ∀ sub sub', P sub ∨ sub = { zeroSub with uiappMeteringIndex := pappMet.uiappMeteringIndex } →
    fill pappMet sub = some sub' → P sub' ∧ P { sub' with istatus := pappMet.istatus }

theorem insertRow_throughout (all : Throughout P Q mem) (filling : Filling P pappMet)
    {appmov : Nat} {sfind : Bool} (inserted : insertRow mem pappMet [] appmov sfind = some mem') :
    Throughout P Q mem' := by
  unfold insertRow at inserted
  split at inserted
  · cases inserted
  · split at inserted
    · cases inserted
    · rename_i gpsub prevsubmove place _
      have all' : Throughout P Q { mem with gpsub := gpsub, prevsubmove := prevsubmove } :=
        ⟨all.subs, all.apps⟩
      cases place with
      | before submove =>
        simp only [malloc, List.not_mem_nil, if_false] at inserted
        apply linkRow_throughout _ _ inserted
        · exact ⟨all.subs, all.apps⟩
        · intro new filled
          exact (filling _ new (.inr rfl) filled).1
      | at_ submove =>
        simp only at inserted
        split at inserted
        · cases inserted
        · rename_i row held
          rcases Option.map_eq_some_iff.mp inserted with ⟨sub, filled, rfl⟩
          refine ⟨?_, all.apps⟩
          apply update_throughout P all.subs
          exact (filling _ sub (.inl (all.subs _ _ held)) filled).1
      | atEnd =>
        simp only [malloc, List.not_mem_nil, if_false] at inserted
        apply linkRow_throughout _ _ inserted
        · exact ⟨all.subs, all.apps⟩
        · intro new filled
          rcases Option.map_eq_some_iff.mp filled with ⟨sub, row, rfl⟩
          exact (filling _ sub (.inr rfl) row).2

theorem headNode_throughout (all : Throughout P Q mem) (unnamed : Q []) {head : Option Nat}
    (made : headNode mem [] = (head, mem')) : Throughout P Q mem' := by
  unfold headNode at made
  split at made
  · cases made
    exact all
  · simp only [malloc, List.not_mem_nil, if_false, Prod.mk.injEq] at made
    rcases made with ⟨_, rfl⟩
    refine ⟨all.subs, ?_⟩
    exact update_throughout (fun app : Stapp => Q app.pcappMeteringBinaryName) all.apps _ unnamed

theorem newBinary_throughout (all : Throughout P Q mem) {name : Text} (named : Q name)
    (zero : P zeroSub) {node : Option Nat} (made : newBinary mem [] name = some (node, mem')) :
    Throughout P Q mem' := by
  simp only [newBinary, malloc, List.not_mem_nil, if_false] at made
  split at made
  · cases made
  · split at made
    · cases made
    · split at made
      · cases made
      · rename_i cell held
        cases made
        constructor
        · exact update_throughout P all.subs _ zero
        · apply update_throughout fun app : Stapp => Q app.pcappMeteringBinaryName
          · exact update_throughout (fun app : Stapp => Q app.pcappMeteringBinaryName) all.apps _
              named
          · exact all.apps _ cell held

theorem amList_throughout (all : Throughout P Q mem) (filling : Filling P pappMet)
    (zero : P zeroSub) (unnamed : Q []) (named : Q pappMet.pcappMeteringBinaryName) {sfind : Bool}
    (added : amList mem pappMet [] sfind = some mem') : Throughout P Q mem' := by
  rw [amList] at added
  rcases made : headNode mem [] with ⟨head, mem₁⟩
  have all₁ := headNode_throughout all unnamed made
  rw [made] at added
  cases head with
  | none =>
    cases added
    exact all₁
  | some head =>
    simp only at added
    split at added
    · cases added
    · rename_i prev appmov _
      have all₂ : Throughout P Q { mem₁ with prev := prev } := ⟨all₁.subs, all₁.apps⟩
      exact insertRow_throughout all₂ filling added
    · rename_i prev _
      have all₂ : Throughout P Q { mem₁ with prev := prev } := ⟨all₁.subs, all₁.apps⟩
      split at added
      · cases added
      · rename_i made'
        cases added
        exact newBinary_throughout all₂ named zero made'
      · rename_i made'
        exact insertRow_throughout (newBinary_throughout all₂ named zero made') filling added

theorem rowsFrom_throughout {subs : Heap Nat Stappsub}
    (all : ∀ a cell, subs a = some cell → P cell.val) (fuel : Nat) (a : Option Nat) :
    ∀ sub ∈ rowsFrom subs fuel a, P sub := by
  induction fuel generalizing a with
  | zero => simp [rowsFrom]
  | succ fuel ih =>
    cases a with
    | none => simp [rowsFrom]
    | some a =>
      rw [rowsFrom]
      cases held : subs a with
      | none => simp
      | some cell =>
        intro sub member
        rcases List.mem_cons.mp member with rfl | member
        · exact all a cell held
        · exact ih cell.next sub member

theorem binariesFrom_throughout (all : Throughout P Q mem) (fuel : Nat) (a : Option Nat) :
    ∀ entry ∈ binariesFrom mem fuel a, Q entry.1 ∧ ∀ sub ∈ entry.2, P sub := by
  induction fuel generalizing a with
  | zero => simp [binariesFrom]
  | succ fuel ih =>
    cases a with
    | none => simp [binariesFrom]
    | some a =>
      rw [binariesFrom]
      cases held : mem.apps a with
      | none => simp
      | some cell =>
        intro entry member
        rcases List.mem_cons.mp member with rfl | member
        · refine ⟨all.apps a cell held, ?_⟩
          intro sub inside
          exact rowsFrom_throughout all.subs _ _ sub (List.mem_of_mem_tail inside)
        · exact ih cell.next entry member

theorem Throughout.listing (all : Throughout P Q mem) :
    ∀ entry ∈ mem.listing, Q entry.1 ∧ ∀ sub ∈ entry.2, P sub :=
  fun entry member => binariesFrom_throughout all _ _ entry (List.mem_of_mem_tail member)

end Frame

section Rows

structure Metering where
  pcappMeteringBinaryName : Text
  uiappMeteringIndex : UInt32
  pcappMeteringID : Text
  ulappMeteringStartTime : UInt32
  ulappMeteringEndTime : UInt32
  iappMeteringReaction : Int32
  pcalertmessage : Text
  istatus : Int32
  deriving DecidableEq

def metering (entry : Text × Stappsub) : Metering where
  pcappMeteringBinaryName := entry.1
  uiappMeteringIndex := entry.2.uiappMeteringIndex
  pcappMeteringID := entry.2.pcappMeteringID
  ulappMeteringStartTime := entry.2.ulappMeteringStartTime
  ulappMeteringEndTime := entry.2.ulappMeteringEndTime
  iappMeteringReaction := entry.2.iappMeteringReaction.toInt32
  pcalertmessage := entry.2.pcalertmessage
  istatus := entry.2.istatus.toInt32

def Memory.meterings (mem : Memory) : List Metering :=
  mem.listing.flatMap fun entry => entry.2.map fun sub => metering (entry.1, sub)

/-- The row itself; the list holds its times as seconds. -/
def AppMetRow.metering (zone : TimeZone) (row : AppMetRow) : Metering where
  pcappMeteringBinaryName := textOf row.appMeteringBinaryName
  uiappMeteringIndex := row.appMeteringIndex
  pcappMeteringID := textOf row.appMeteringID
  ulappMeteringStartTime := (copiedTime zone row.appMeteringStartTime.val).getD 0
  ulappMeteringEndTime := (copiedTime zone row.appMeteringEndTime.val).getD 0
  iappMeteringReaction := row.appMeteringReaction
  pcalertmessage := textOf row.appMeteringAlertMessage
  istatus := row.appMeteringStatus

/-- The row is not `notInService`. -/
abbrev AppMetRow.Active (row : AppMetRow) : Prop := row.appMeteringStatus ≠ 2

/-- The load ends, and the list shows the active rows and nothing else. -/
def SubAgent.Loads (agent : SubAgent) (zone : TimeZone) : Prop :=
  ∃ result mem', amGetAppMetTable zone agent.mib (agent.rows.length + 1) start =
      some (result, mem') ∧
    mem'.meterings.Perm ((agent.rows.filter fun row => row.Active).map (·.metering zone))

/-- The values of the row survive as strings and as numbers of 16 bits. -/
structure AppMetRow.Whole (row : AppMetRow) : Prop where
  id : 0 ∉ row.appMeteringID
  name : 0 ∉ row.appMeteringBinaryName
  message : 0 ∉ row.appMeteringAlertMessage
  reaction : row.appMeteringReaction.toInt16.toInt32 = row.appMeteringReaction
  status : row.appMeteringStatus.toInt16.toInt32 = row.appMeteringStatus

structure AppMetRow.Roomy (row : AppMetRow) : Prop where
  message : row.appMeteringAlertMessage.length < varbindBuf ∨ 0 ∈ row.appMeteringAlertMessage
  named : row.Active → row.appMeteringBinaryName ≠ []
  name : row.Active → row.appMeteringBinaryName.length < arraySize
  id : row.Active → row.appMeteringID.length < arraySize

/-- The table is on one page, but for rows that are not active. -/
structure SubAgent.Loadable (agent : SubAgent) : Prop where
  first : ∀ row ∈ agent.rows.drop maxRepetation, ¬ row.Active
  whole : ∀ row ∈ agent.rows, row.Active → row.Whole
  roomy : ∀ row ∈ agent.rows, row.Roomy

variable {zone : TimeZone} {row first : AppMetRow} {octets : Octets} {mem : Memory}
  {list : List Binary} {done page : List AppMetRow}

theorem copiedTime_some (zone : TimeZone) (octets : { octets : Octets // octets.length ≤ 11 }) :
    ∃ seconds, copiedTime zone octets.val = some seconds := by
  unfold copiedTime
  split
  · exact ⟨0, rfl⟩
  · have short := (cString_length octets.val).trans octets.property
    have fits : ¬ (cString octets.val).length ≥ bufSize := by
      simp only [bufSize]
      omega
    rw [utilConvertDateToLong, utilBrokenDown, if_neg fits]
    exact ⟨_, rfl⟩

theorem cString_whole (whole : 0 ∉ octets) : cString octets = octets := by
  apply List.takeWhile_eq_self_iff.mpr
  intro octet member
  simpa using fun zero : octet = 0 => whole (zero ▸ member)

theorem char_zero : ∀ n < 256, Char.ofNat n = '\x00' → n = 0 := by decide +kernel

theorem textOf_zero (octets : Octets) : '\x00' ∈ textOf octets ↔ 0 ∈ octets := by
  rw [textOf, List.mem_map]
  constructor
  · intro inside
    rcases inside with ⟨octet, member, zero⟩
    have same : octet = 0 := UInt8.toNat_inj.mp (char_zero octet.toNat octet.toNat_lt zero)
    exact same ▸ member
  · intro member
    exact ⟨0, member, rfl⟩

theorem cString_zero_free (octets : Octets) : 0 ∉ cString octets := by
  intro member
  simpa using List.mem_takeWhile_imp member

theorem copied_zero_free : ∀ text ∈ copied octets, '\x00' ∉ text := by
  intro text given
  unfold copied at given
  split at given
  · cases given
  · cases given
    rw [textOf_zero]
    exact cString_zero_free octets

theorem copied_whole (whole : 0 ∉ octets) : (copied octets).getD [] = textOf octets := by
  unfold copied
  split
  · rename_i empty
    rw [empty]
    rfl
  · rw [cString_whole whole]
    rfl

theorem Represents.meterings (rep : Represents mem list) :
    mem.meterings = (entries list).map metering := by
  rw [Memory.meterings, rep.listing, entries, List.flatMap_map, List.map_flatMap]
  simp only [List.map_map]
  rfl

/-- The fetched row, where its message can be copied. -/
def AppMetRow.fetched (zone : TimeZone) (row first : AppMetRow) : Fetched where
  pappMet :=
    { uiappMeteringIndex := first.appMeteringIndex
      pcappMeteringID := copied row.appMeteringID
      ulappMeteringStartTime := (copiedTime zone first.appMeteringStartTime.val).getD 0
      ulappMeteringEndTime := (copiedTime zone row.appMeteringEndTime.val).getD 0
      iappMeteringReaction := row.appMeteringReaction.toInt16
      pcappMeteringUsername := false
      pcappMeteringBinaryName := (copied row.appMeteringBinaryName).getD []
      pcalertmessage := copied row.appMeteringAlertMessage
      alertRoom := if row.appMeteringAlertMessage = [] then 0
        else row.appMeteringAlertMessage.length + 1
      istatus := row.appMeteringStatus.toInt16 }
  pcappMeteringBinaryName := copied row.appMeteringBinaryName

theorem fetchedOf_some (row first : AppMetRow)
    (room : row.appMeteringAlertMessage.length < varbindBuf ∨ 0 ∈ row.appMeteringAlertMessage) :
    fetchedOf zone row first = some (row.fetched zone first) := by
  rcases copiedTime_some zone first.appMeteringStartTime with ⟨start, startTime⟩
  rcases copiedTime_some zone row.appMeteringEndTime with ⟨finish, endTime⟩
  have message : copiedAlert row.appMeteringAlertMessage =
      some (copied row.appMeteringAlertMessage) := by
    apply if_neg
    intro both
    rcases room with short | zero
    · exact absurd both.1 (Nat.not_le.mpr short)
    · exact both.2 zero
  simp only [fetchedOf, startTime, endTime, message, Option.bind_eq_bind, Option.bind_some,
    AppMetRow.fetched, Option.getD_some]

theorem fetchedOf_none (row first : AppMetRow)
    (room : ¬ (row.appMeteringAlertMessage.length < varbindBuf ∨ 0 ∈ row.appMeteringAlertMessage)) :
    fetchedOf zone row first = none := by
  rcases copiedTime_some zone first.appMeteringStartTime with ⟨start, startTime⟩
  rcases copiedTime_some zone row.appMeteringEndTime with ⟨finish, endTime⟩
  have message : copiedAlert row.appMeteringAlertMessage = none := by
    apply if_pos
    rw [not_or, Nat.not_lt] at room
    exact room
  simp only [fetchedOf, startTime, endTime, message, Option.bind_eq_bind, Option.bind_some,
    Option.bind_none]

theorem addRow_inactive (row first : AppMetRow)
    (room : row.appMeteringAlertMessage.length < varbindBuf ∨ 0 ∈ row.appMeteringAlertMessage)
    (inactive : ¬ row.Active) : addRow zone mem (row, first) = some mem := by
  rw [addRow, fetchedOf_some row first room, Option.bind_some]
  apply if_neg
  rw [not_not, AppMetRow.fetched, not_not.mp inactive]
  rfl

theorem AppMetRow.Whole.active (whole : row.Whole) (active : row.Active) :
    row.appMeteringStatus.toInt16 ≠ 2 := by
  intro two
  apply active
  rw [← whole.status, two]
  rfl

theorem AppMetRow.Whole.shown (whole : row.Whole) :
    AppMetering.metering ((row.fetched zone row).pappMet.pcappMeteringBinaryName,
      (row.fetched zone row).pappMet.row true) = row.metering zone := by
  simp only [AppMetering.metering, AppMetRow.fetched, StappMeteringStruct.row, if_true,
    AppMetRow.metering, copied_whole whole.id, copied_whole whole.name, copied_whole whole.message,
    whole.reaction, whole.status]

theorem AppMetRow.Whole.fits (whole : row.Whole)
    (short : row.appMeteringAlertMessage.length < varbindBuf) :
    (row.fetched zone row).pappMet.Fits ↔ row.appMeteringID.length < arraySize := by
  have message : ∀ text ∈ copied row.appMeteringAlertMessage, text.length < arraySize := by
    intro text given
    have same := copied_whole whole.message
    rw [given, Option.getD_some] at same
    rw [same, textOf_length]
    exact Nat.lt_trans short (by decide)
  have id : (∀ text ∈ copied row.appMeteringID, text.length < arraySize) ↔
      row.appMeteringID.length < arraySize := by
    unfold copied
    split
    · rename_i empty
      simp [empty, arraySize]
    · simp [cString_whole whole.id, textOf_length]
  rw [← id]
  exact ⟨fun fits => fits.1, fun fits => ⟨fits, message⟩⟩

/-- The list represents the active ones of the rows that are done. -/
structure LoadedRows (zone : TimeZone) (mem : Memory) (list : List Binary)
    (done : List AppMetRow) : Prop where
  represents : Represents mem list
  short : ∀ binary ∈ list, binary.name.length < arraySize
  rows : ((entries list).map metering).Perm
    ((done.filter fun row => row.Active).map (·.metering zone))
  cursor : (done.filter fun row => row.Active) = [] → mem.gpsub = none

theorem loadedRows_start : LoadedRows zone start [] [] where
  represents := represents_start
  short := by simp
  rows := List.Perm.refl _
  cursor := fun _ => rfl

theorem LoadedRows.below (loaded : LoadedRows zone mem list done)
    (later : ∀ earlier ∈ done, earlier.appMeteringIndex < row.appMeteringIndex) :
    ∀ entry ∈ entries list, entry.2.uiappMeteringIndex < row.appMeteringIndex := by
  intro entry member
  have shown := loaded.rows.mem_iff.mp (List.mem_map_of_mem member)
  rcases List.mem_map.mp shown with ⟨earlier, active, same⟩
  have less := later earlier (List.mem_filter.mp active).1
  have index : earlier.appMeteringIndex = entry.2.uiappMeteringIndex :=
    congrArg Metering.uiappMeteringIndex same
  rwa [index] at less

theorem LoadedRows.clear (loaded : LoadedRows zone mem list done)
    (later : ∀ earlier ∈ done, earlier.appMeteringIndex < row.appMeteringIndex) :
    mem.gpsub = none ∨ 0 < row.appMeteringIndex := by
  cases filtered : done.filter fun row => row.Active with
  | nil => exact .inl (loaded.cursor filtered)
  | cons earlier rest =>
    right
    have member : earlier ∈ done.filter fun row => row.Active := by
      rw [filtered]
      exact List.mem_cons_self
    have less := later earlier (List.mem_filter.mp member).1
    rw [UInt32.lt_iff_toNat_lt] at less ⊢
    exact Nat.zero_lt_of_lt less

theorem addRow_cases (loaded : LoadedRows zone mem list done) (whole : row.Active → row.Whole)
    (later : ∀ earlier ∈ done, earlier.appMeteringIndex < row.appMeteringIndex) :
    (¬ row.Roomy ∧ addRow zone mem (row, row) = none) ∨
      row.Roomy ∧ ∃ mem' list', addRow zone mem (row, row) = some mem' ∧
        LoadedRows zone mem' list' (done ++ [row]) := by
  by_cases room : row.appMeteringAlertMessage.length < varbindBuf ∨
      0 ∈ row.appMeteringAlertMessage
  swap
  · refine .inl ⟨fun roomy => room roomy.message, ?_⟩
    rw [addRow, fetchedOf_none row row room]
    rfl
  by_cases active : row.Active
  swap
  · have roomy : row.Roomy := ⟨room, fun yes => absurd yes active, fun yes => absurd yes active,
      fun yes => absurd yes active⟩
    have same : (done ++ [row]).filter (fun row => row.Active) =
        done.filter fun row => row.Active := by
      rw [List.filter_append, List.filter_cons_of_neg (by simpa using active), List.filter_nil,
        List.append_nil]
    refine .inr ⟨roomy, mem, list, addRow_inactive row row room active, loaded.represents,
      loaded.short, ?_, ?_⟩
    · rw [same]
      exact loaded.rows
    · rw [same]
      exact loaded.cursor
  · have whole := whole active
    have short := room.resolve_right whole.message
    have more : (done ++ [row]).filter (fun row => row.Active) =
        (done.filter fun row => row.Active) ++ [row] := by
      rw [List.filter_append, List.filter_cons_of_pos (by simpa using active), List.filter_nil]
    have listed : addRow zone mem (row, row) = addFetched (row.fetched zone row) mem := by
      rw [addRow, fetchedOf_some row row room, Option.bind_some]
    have status : (row.fetched zone row).pappMet.istatus ≠ 2 := whole.active active
    rw [addFetched, if_pos status] at listed
    by_cases named : row.appMeteringBinaryName = []
    · refine .inl ⟨fun roomy => roomy.named active named, ?_⟩
      have null : (row.fetched zone row).pcappMeteringBinaryName = none := if_pos named
      rw [listed, null]
    · have name : (row.fetched zone row).pappMet.pcappMeteringBinaryName =
          textOf row.appMeteringBinaryName := copied_whole whole.name
      have filled : (row.fetched zone row).pappMet.pcappMeteringBinaryName ≠ [] := by
        rw [name]
        intro empty
        exact named (List.map_eq_nil_iff.mp empty)
      have given : (row.fetched zone row).pcappMeteringBinaryName = some _ := if_neg named
      rw [given] at listed
      rw [listed]
      have clear : Clear mem (row.fetched zone row).pappMet := loaded.clear later
      have below : ∀ entry ∈ entries list, entry.2.uiappMeteringIndex <
          (row.fetched zone row).pappMet.uiappMeteringIndex := loaded.below later
      rcases amList_end loaded.represents clear filled loaded.short below with
        ⟨stuck, refused⟩ | ⟨⟨room', fits⟩, mem', list', ran, rep', short', rows'⟩
      · rw [name, textOf_length, whole.fits short] at stuck
        exact .inl ⟨fun roomy => stuck ⟨roomy.name active, roomy.id active⟩, refused⟩
      · rw [name, textOf_length] at room'
        rw [whole.fits short] at fits
        refine .inr ⟨⟨room, fun _ => named, fun _ => room', fun _ => fits⟩, mem', list', ran, rep',
          short', ?_, ?_⟩
        · rw [more, List.map_append, List.map_singleton]
          apply (rows'.map metering).trans
          rw [List.map_append, List.map_singleton, whole.shown]
          exact loaded.rows.append_right _
        · rw [more]
          intro empty
          exact absurd empty (by simp)

end Rows

section Loads

variable {zone : TimeZone} {agent : SubAgent} {mem mem' : Memory} {list : List Binary}
  {done page rest rows : List AppMetRow} {fuel : Nat}

theorem zip_append (page rest : List AppMetRow) :
    page.zip (page ++ rest) = page.map fun row => (row, row) := by
  induction page with
  | nil => rfl
  | cons row page ih => simp [ih]

theorem page_cases (loaded : LoadedRows zone mem list done)
    (ascending : (done ++ page).Pairwise fun row row' =>
      row.appMeteringIndex < row'.appMeteringIndex)
    (whole : ∀ row ∈ page, row.Active → row.Whole) :
    ((∃ row ∈ page, ¬ row.Roomy) ∧
        (page.map fun row => (row, row)).foldlM (addRow zone) mem = none) ∨
      (∀ row ∈ page, row.Roomy) ∧ ∃ mem' list',
        (page.map fun row => (row, row)).foldlM (addRow zone) mem = some mem' ∧
        LoadedRows zone mem' list' (done ++ page) := by
  induction page generalizing mem list done with
  | nil => exact .inr ⟨by simp, mem, list, rfl, by rwa [List.append_nil]⟩
  | cons row page ih =>
    have later : ∀ earlier ∈ done, earlier.appMeteringIndex < row.appMeteringIndex :=
      fun earlier member =>
        (List.pairwise_append.mp ascending).2.2 earlier member row List.mem_cons_self
    rw [List.map_cons, List.foldlM_cons]
    rcases addRow_cases loaded (whole row List.mem_cons_self) later with
      ⟨cramped, refused⟩ | ⟨roomy, mem', list', ran, loaded'⟩
    · rw [refused]
      exact .inl ⟨⟨row, List.mem_cons_self, cramped⟩, rfl⟩
    · rw [ran]
      rw [List.append_cons] at ascending
      rcases ih loaded' ascending fun other member => whole other (List.mem_cons_of_mem _ member)
        with ⟨⟨other, member, cramped⟩, refused⟩ | ⟨others, mem'', list'', ran', loaded''⟩
      · exact .inl ⟨⟨other, List.mem_cons_of_mem _ member, cramped⟩, refused⟩
      · refine .inr ⟨?_, mem'', list'', ran', ?_⟩
        · intro other member
          rcases List.mem_cons.mp member with rfl | member
          · exact roomy
          · exact others other member
        · rwa [List.append_cons]

/-- What the rows of memory can hold: an index of the first page and texts as they are copied. -/
def Seen (firsts : List AppMetRow) (sub : Stappsub) : Prop :=
  (sub.uiappMeteringIndex = 0 ∨ ∃ first ∈ firsts, sub.uiappMeteringIndex = first.appMeteringIndex) ∧
    '\x00' ∉ sub.pcappMeteringID ∧ '\x00' ∉ sub.pcalertmessage

theorem getD_zero_free {given : Option Text} {text : Text} (carried : ∀ text ∈ given, '\x00' ∉ text)
    (old : '\x00' ∉ text) : '\x00' ∉ given.getD text := by
  cases given with
  | none => exact old
  | some new => exact carried new rfl

theorem fetched_filling (row : AppMetRow) {first : AppMetRow} {firsts : List AppMetRow}
    (member : first ∈ firsts) : Filling (Seen firsts) (row.fetched zone first).pappMet := by
  intro sub sub' seen filled
  unfold fill at filled
  split at filled
  · cases filled
    have before : Seen firsts sub := by
      rcases seen with seen | rfl
      · exact seen
      · exact ⟨.inr ⟨first, member, rfl⟩, List.not_mem_nil, List.not_mem_nil⟩
    have after : Seen firsts { sub with
        pcappMeteringID := (row.fetched zone first).pappMet.pcappMeteringID.getD sub.pcappMeteringID
        pcalertmessage :=
          (row.fetched zone first).pappMet.pcalertmessage.getD sub.pcalertmessage } :=
      ⟨before.1, getD_zero_free copied_zero_free before.2.1,
        getD_zero_free copied_zero_free before.2.2⟩
    exact ⟨after, after⟩
  · cases filled

theorem addRow_throughout {firsts : List AppMetRow} {pair : AppMetRow × AppMetRow}
    (all : Throughout (Seen firsts) (fun name => '\x00' ∉ name) mem) (member : pair.2 ∈ firsts)
    (added : addRow zone mem pair = some mem') :
    Throughout (Seen firsts) (fun name => '\x00' ∉ name) mem' := by
  by_cases room : pair.1.appMeteringAlertMessage.length < varbindBuf ∨
      0 ∈ pair.1.appMeteringAlertMessage
  · rw [addRow, fetchedOf_some _ _ room, Option.bind_some, addFetched] at added
    split at added
    · split at added
      · cases added
      · apply amList_throughout all (fetched_filling pair.1 member) _ _ _ added
        · exact ⟨.inl rfl, List.not_mem_nil, List.not_mem_nil⟩
        · exact List.not_mem_nil
        · exact getD_zero_free copied_zero_free List.not_mem_nil
    · cases added
      exact all
  · rw [addRow, fetchedOf_none _ _ room] at added
    cases added

theorem foldlM_throughout {firsts : List AppMetRow} {list : List (AppMetRow × AppMetRow)}
    (all : Throughout (Seen firsts) (fun name => '\x00' ∉ name) mem)
    (members : ∀ pair ∈ list, pair.2 ∈ firsts)
    (added : list.foldlM (addRow zone) mem = some mem') :
    Throughout (Seen firsts) (fun name => '\x00' ∉ name) mem' := by
  induction list generalizing mem with
  | nil =>
    cases added
    exact all
  | cons pair list ih =>
    rw [List.foldlM_cons] at added
    rcases Option.bind_eq_some_iff.mp added with ⟨mem₁, first, rest⟩
    exact ih (addRow_throughout all (members pair List.mem_cons_self) first)
      (fun other member => members other (List.mem_cons_of_mem _ member)) rest

theorem start_throughout (P : Stappsub → Prop) (Q : Text → Prop) :
    Throughout P Q AppMetering.start := by
  constructor
  · intro a cell held
    cases held
  · intro a cell held
    cases held

theorem zip_take_second {n : Nat} {xs ys : List AppMetRow} {pair : AppMetRow × AppMetRow}
    (member : pair ∈ (xs.take n).zip ys) : pair.2 ∈ ys.take n := by
  induction n generalizing xs ys with
  | zero => simp at member
  | succ n ih =>
    cases xs with
    | nil => simp at member
    | cons x xs =>
      cases ys with
      | nil => simp at member
      | cons y ys =>
        rw [List.take_succ_cons, List.zip_cons_cons] at member
        rw [List.take_succ_cons]
        rcases List.mem_cons.mp member with rfl | member
        · exact List.mem_cons_self
        · exact List.mem_cons_of_mem _ (ih member)

theorem pairs_second {pair : AppMetRow × AppMetRow} (member : pair ∈ pairs rows fuel rest) :
    pair.2 ∈ rows.take maxRepetation := by
  induction fuel generalizing rest with
  | zero => simp [pairs] at member
  | succ fuel ih =>
    rw [pairs] at member
    rcases List.mem_append.mp member with member | member
    · exact zip_take_second member
    · exact ih member

theorem pairs_first {pair : AppMetRow × AppMetRow} (member : pair ∈ pairs rows fuel rest) :
    pair.1 ∈ rest := by
  induction fuel generalizing rest with
  | zero => simp [pairs] at member
  | succ fuel ih =>
    rw [pairs] at member
    rcases List.mem_append.mp member with member | member
    · exact List.mem_of_mem_take (List.of_mem_zip member).1
    · exact List.mem_of_mem_drop (ih member)

theorem mem_pairs {row : AppMetRow} (enough : rest.length < fuel)
    (short : rest.length ≤ rows.length) (member : row ∈ rest) :
    ∃ first, (row, first) ∈ pairs rows fuel rest := by
  induction fuel generalizing rest with
  | zero => exact absurd enough (Nat.not_lt_zero _)
  | succ fuel ih =>
    rw [pairs]
    rw [← List.take_append_drop maxRepetation rest] at member
    rcases List.mem_append.mp member with member | member
    · have all : ((rest.take maxRepetation).zip rows).map Prod.fst = rest.take maxRepetation :=
        List.map_fst_zip (by rw [List.length_take]; omega)
      rw [← all] at member
      rcases List.mem_map.mp member with ⟨pair, inside, rfl⟩
      exact ⟨pair.2, List.mem_append_left _ inside⟩
    · have some : 0 < (rest.drop maxRepetation).length := List.length_pos_of_mem member
      rw [List.length_drop] at some
      simp only [maxRepetation] at some
      rcases ih (by rw [List.length_drop]; simp only [maxRepetation]; omega)
        (by rw [List.length_drop]; omega) member with ⟨first, inside⟩
      exact ⟨first, List.mem_append_right _ inside⟩

theorem message_of_fetched {list : List (AppMetRow × AppMetRow)} {pair : AppMetRow × AppMetRow}
    (added : list.foldlM (addRow zone) mem = some mem') (member : pair ∈ list) :
    pair.1.appMeteringAlertMessage.length < varbindBuf ∨ 0 ∈ pair.1.appMeteringAlertMessage := by
  induction list generalizing mem with
  | nil => cases member
  | cons head list ih =>
    rw [List.foldlM_cons] at added
    rcases Option.bind_eq_some_iff.mp added with ⟨mem₁, first, rest⟩
    rcases List.mem_cons.mp member with rfl | member
    · by_contra room
      rw [addRow, fetchedOf_none _ _ room] at first
      cases first
    · exact ih rest member

theorem foldlM_inactive {list : List (AppMetRow × AppMetRow)}
    (inactive : ∀ pair ∈ list, ¬ pair.1.Active) (roomy : ∀ pair ∈ list, pair.1.Roomy)
    (mem : Memory) : list.foldlM (addRow zone) mem = some mem := by
  induction list with
  | nil => rfl
  | cons pair list ih =>
    rw [List.foldlM_cons, addRow_inactive pair.1 pair.2 (roomy pair List.mem_cons_self).message
      (inactive pair List.mem_cons_self)]
    exact ih (fun other member => inactive other (List.mem_cons_of_mem _ member))
      fun other member => roomy other (List.mem_cons_of_mem _ member)

theorem SubAgent.ascending (agent : SubAgent) :
    agent.rows.Pairwise fun row row' => row.appMeteringIndex < row'.appMeteringIndex := by
  have ascending := agent.idColumn.ascending
  rw [cells, List.pairwise_map] at ascending
  exact ascending.imp fun less => UInt32.lt_iff_toNat_lt.mpr less

theorem SubAgent.load_eq (agent : SubAgent) (zone : TimeZone) (mem : Memory) :
    ∃ result, amGetAppMetTable zone agent.mib (agent.rows.length + 1) mem =
      ((((agent.rows.take maxRepetation).map fun row => (row, row)) ++
        pairs agent.rows agent.rows.length (agent.rows.drop maxRepetation)).foldlM
          (addRow zone) mem).map (Prod.mk result) := by
  rcases amGetAppMetTable_eq (Nat.lt_succ_self agent.rows.length) mem with ⟨result, ran⟩
  refine ⟨result, ?_⟩
  have first : (agent.rows.take maxRepetation).zip agent.rows =
      (agent.rows.take maxRepetation).map fun row => (row, row) := by
    have split := zip_append (agent.rows.take maxRepetation) (agent.rows.drop maxRepetation)
    rwa [List.take_append_drop] at split
  rw [ran, pairs, first]

theorem whole_of_shown {row : AppMetRow} {firsts : List AppMetRow}
    (all : Throughout (Seen firsts) (fun name => '\x00' ∉ name) mem)
    (shown : row.metering zone ∈ mem.meterings) :
    row.Whole ∧ (row.appMeteringIndex = 0 ∨
      ∃ first ∈ firsts, row.appMeteringIndex = first.appMeteringIndex) := by
  rcases List.mem_flatMap.mp shown with ⟨entry, member, inside⟩
  rcases List.mem_map.mp inside with ⟨sub, held, same⟩
  rcases all.listing entry member with ⟨name, subs⟩
  rcases subs sub held with ⟨index, id, message⟩
  simp only [metering, AppMetRow.metering, Metering.mk.injEq] at same
  rcases same with ⟨name', index', id', _, _, reaction, message', status⟩
  rw [name', textOf_zero] at name
  rw [id', textOf_zero] at id
  rw [message', textOf_zero] at message
  rw [index'] at index
  refine ⟨⟨id, name, message, ?_, ?_⟩, index⟩
  · rw [← reaction, Int16.toInt16_toInt32]
  · rw [← status, Int16.toInt16_toInt32]

theorem SubAgent.firstPage_ascending (agent : SubAgent) :
    (([] : List AppMetRow) ++ agent.rows.take maxRepetation).Pairwise
      fun row row' => row.appMeteringIndex < row'.appMeteringIndex :=
  agent.ascending.sublist (List.take_sublist _ _)

theorem SubAgent.Loads.loadable (loads : agent.Loads zone) : agent.Loadable := by
  have split := List.take_append_drop maxRepetation agent.rows
  have ascending := agent.ascending
  rcases agent.load_eq zone start with ⟨result, load⟩
  rw [List.foldlM_append] at load
  rcases loads with ⟨result', mem', ran, shown⟩
  rw [load] at ran
  rcases Option.map_eq_some_iff.mp ran with ⟨mem'', added, same⟩
  cases same
  rcases Option.bind_eq_some_iff.mp added with ⟨mem₁, first, rest⟩
  have seen : ∀ row ∈ agent.rows, row.Active → row.Whole ∧ (row.appMeteringIndex = 0 ∨
      ∃ first ∈ agent.rows.take maxRepetation,
        row.appMeteringIndex = first.appMeteringIndex) := by
    intro row member active
    have all := start_throughout (Seen (agent.rows.take maxRepetation)) fun name => '\x00' ∉ name
    have own : ∀ pair ∈ (agent.rows.take maxRepetation).map fun row => (row, row),
        pair.2 ∈ agent.rows.take maxRepetation := by
      intro pair inside
      rcases List.mem_map.mp inside with ⟨other, held, rfl⟩
      exact held
    have all₁ := foldlM_throughout all own first
    have all₂ := foldlM_throughout all₁ (fun pair => pairs_second) rest
    apply whole_of_shown all₂
    apply shown.mem_iff.mpr
    exact List.mem_map_of_mem (List.mem_filter.mpr ⟨member, by simpa using active⟩)
  have whole : ∀ row ∈ agent.rows, row.Active → row.Whole :=
    fun row member active => (seen row member active).1
  have beyond : ∀ row ∈ agent.rows.drop maxRepetation, ¬ row.Active := by
    intro row member active
    rw [← split] at ascending
    have across := (List.pairwise_append.mp ascending).2.2
    rcases (seen row (List.mem_of_mem_drop member) active).2 with zero | ⟨earlier, inside, same⟩
    · cases page : agent.rows.take maxRepetation with
      | nil =>
        have empty : agent.rows = [] :=
          (List.take_eq_nil_iff.mp page).resolve_left (by decide)
        rw [empty] at member
        simp at member
      | cons earlier others =>
        have less := across earlier (by rw [page]; exact List.mem_cons_self) row member
        rw [zero] at less
        exact absurd less (by simp)
    · exact UInt32.ne_of_lt (across earlier inside row member) same.symm
  refine ⟨beyond, whole, ?_⟩
  intro row member
  rw [← split] at member
  rcases List.mem_append.mp member with member | member
  · rcases page_cases loadedRows_start agent.firstPage_ascending
        (fun row inside => whole row (List.mem_of_mem_take inside)) with ⟨_, refused⟩ | ⟨roomy, _⟩
    · cases refused.symm.trans first
    · exact roomy row member
  · have inactive := beyond row member
    have fetched : ∃ first, (row, first) ∈
        pairs agent.rows agent.rows.length (agent.rows.drop maxRepetation) := by
      have some : 0 < (agent.rows.drop maxRepetation).length := List.length_pos_of_mem member
      rw [List.length_drop] at some
      apply mem_pairs _ _ member
      · rw [List.length_drop]
        simp only [maxRepetation] at some ⊢
        omega
      · rw [List.length_drop]
        omega
    rcases fetched with ⟨other, inside⟩
    exact ⟨message_of_fetched rest inside, fun active => absurd active inactive,
      fun active => absurd active inactive, fun active => absurd active inactive⟩

theorem SubAgent.Loadable.loads (loadable : agent.Loadable) (zone : TimeZone) :
    agent.Loads zone := by
  have split := List.take_append_drop maxRepetation agent.rows
  have begins : LoadedRows zone start [] [] := loadedRows_start
  rcases agent.load_eq zone start with ⟨result, load⟩
  rw [List.foldlM_append] at load
  rcases page_cases begins agent.firstPage_ascending (fun row inside =>
      loadable.whole row (List.mem_of_mem_take inside)) with
    ⟨⟨row, member, cramped⟩, _⟩ | ⟨_, mem', list', first, loaded⟩
  · exact absurd (loadable.roomy row (List.mem_of_mem_take member)) cramped
  · have rest : (pairs agent.rows agent.rows.length (agent.rows.drop maxRepetation)).foldlM
        (addRow zone) mem' = some mem' :=
      foldlM_inactive (fun pair member => loadable.first pair.1 (pairs_first member))
        (fun pair member => loadable.roomy pair.1 (List.mem_of_mem_drop (pairs_first member))) mem'
    refine ⟨result, mem', ?_, ?_⟩
    · rw [load, first, Option.bind_eq_bind, Option.bind_some, rest]
      rfl
    · have none : (agent.rows.drop maxRepetation).filter (fun row => row.Active) = [] :=
        List.filter_eq_nil_iff.mpr fun row member => by simpa using loadable.first row member
      have active : agent.rows.filter (fun row => row.Active) =
          (agent.rows.take maxRepetation).filter fun row => row.Active := by
        conv_lhs => rw [← split, List.filter_append, none, List.append_nil]
      rw [loaded.represents.meterings, active]
      exact loaded.rows

/-- The list holds exactly the active rows of the table when all of them are on the first page,
with values that survive and for which there is room. -/
theorem loads_iff (agent : SubAgent) (zone : TimeZone) : agent.Loads zone ↔ agent.Loadable :=
  ⟨SubAgent.Loads.loadable, fun loadable => loadable.loads zone⟩

/-- Seven active rows, with the start time and the index of the first one in the response to the
second request. -/
def sevenRows : List AppMetRow :=
  [1, 2, 3, 4, 5, 6, 7].map fun index =>
    { appMeteringIndex := index
      appMeteringID := []
      appMeteringStartTime := ⟨[], by decide⟩
      appMeteringEndTime := ⟨[], by decide⟩
      appMeteringReaction := 1
      appMeteringStatus := 1
      appMeteringBinaryName := [97]
      appMeteringAlertMessage := [] }

def sevenObjects : List (Oid × Value) :=
  [(appMeteringID, cells (.string ·.appMeteringID) sevenRows),
    (appMeteringStartTime, cells (.string ·.appMeteringStartTime.val) sevenRows),
    (appMeteringEndTime, cells (.string ·.appMeteringEndTime.val) sevenRows),
    (appMeteringReaction, cells (.integer ·.appMeteringReaction) sevenRows),
    (appMeteringStatus, cells (.integer ·.appMeteringStatus) sevenRows),
    (appMeteringBinaryName, cells (.string ·.appMeteringBinaryName) sevenRows),
    (appMeteringAlertMessage, cells (.string ·.appMeteringAlertMessage) sevenRows)].flatMap
      fun column => column.2.map fun cell => (column.1 ++ [cell.1], cell.2)

def sevenAgent : SubAgent where
  mib := ⟨sevenObjects, by decide +kernel⟩
  rows := sevenRows
  idColumn := by unfold Mib.Column; decide +kernel
  startTimeColumn := by unfold Mib.Column; decide +kernel
  endTimeColumn := by unfold Mib.Column; decide +kernel
  reactionColumn := by unfold Mib.Column; decide +kernel
  statusColumn := by unfold Mib.Column; decide +kernel
  binaryNameColumn := by unfold Mib.Column; decide +kernel
  alertMessageColumn := by unfold Mib.Column; decide +kernel

/-- The seventh row comes under the index of the first one. -/
theorem loads_iff_seven : ¬ ∀ (agent : SubAgent) (zone : TimeZone), agent.Loads zone := by
  intro all
  have loadable := (all sevenAgent ⟨fun tm => (tm, 0), fun _ => ""⟩).loadable
  have last : ∃ row ∈ sevenAgent.rows.drop maxRepetation, row.Active := by decide +kernel
  rcases last with ⟨row, member, active⟩
  exact loadable.first row member active

end Loads

end EveAgent.AppMetering
