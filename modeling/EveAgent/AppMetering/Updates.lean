import EveAgent.AppMetering.Shape

namespace EveAgent.AppMetering

open Cells

section Rows

def Fitting (sub : Stappsub) : Prop :=
  sub.pcappMeteringID.length < arraySize ∧ sub.pcalertmessage.length < arraySize

def StappMeteringStruct.Fits (pappMet : StappMeteringStruct) : Prop :=
  (∀ id ∈ pappMet.pcappMeteringID, id.length < arraySize) ∧
    ∀ message ∈ pappMet.pcalertmessage, message.length < arraySize

instance (pappMet : StappMeteringStruct) : Decidable pappMet.Fits :=
  inferInstanceAs (Decidable (_ ∧ _))

variable {pappMet : StappMeteringStruct} {sub : Stappsub} {mem : Memory}
  {front back : List Binary} {binary : Binary}

theorem fill_fits (fits : pappMet.Fits) (sub : Stappsub) :
    ∃ sub', fill pappMet sub = some sub' ∧
      sub'.uiappMeteringIndex = sub.uiappMeteringIndex ∧
      sub'.pcalertmessage = pappMet.pcalertmessage.getD sub.pcalertmessage ∧
      (Fitting sub → Fitting sub') := by
  refine ⟨_, if_pos fits, rfl, rfl, ?_⟩
  rintro ⟨idFits, messageFits⟩
  constructor
  · cases given : pappMet.pcappMeteringID with
    | none => simpa [given] using idFits
    | some id => simpa [given] using fits.1 id given
  · cases given : pappMet.pcalertmessage with
    | none => simpa [given] using messageFits
    | some message => simpa [given] using fits.2 message given

/-- What `List` does to the rows of the binary. -/
inductive RowAdded (pappMet : StappMeteringStruct) (sfind : Bool) :
    List (Nat × Stappsub) → List (Nat × Stappsub) → Prop
  | inserted {before after : List (Nat × Stappsub)} {newsub : Nat} {sub : Stappsub}
      (passed : ∀ row ∈ before, Passes pappMet.uiappMeteringIndex sfind row)
      (later : ∀ row ∈ after.head?, row.2.uiappMeteringIndex > pappMet.uiappMeteringIndex)
      (index : sub.uiappMeteringIndex = pappMet.uiappMeteringIndex)
      (message : sub.pcalertmessage = pappMet.pcalertmessage.getD []) (fitting : Fitting sub) :
      RowAdded pappMet sfind (before ++ after) (before ++ (newsub, sub) :: after)
  | overwritten {before after : List (Nat × Stappsub)} {submove : Nat} {old sub : Stappsub}
      (passed : ∀ row ∈ before, Passes pappMet.uiappMeteringIndex sfind row)
      (equal : old.uiappMeteringIndex = pappMet.uiappMeteringIndex) (adds : sfind = false)
      (index : sub.uiappMeteringIndex = pappMet.uiappMeteringIndex)
      (fitting : Fitting old → Fitting sub) :
      RowAdded pappMet sfind (before ++ (submove, old) :: after)
        (before ++ (submove, sub) :: after)

/-- The row that `List` makes of an event. It gets a status only when it comes last. -/
def StappMeteringStruct.row (pappMet : StappMeteringStruct) (last : Bool) : Stappsub where
  uiappMeteringIndex := pappMet.uiappMeteringIndex
  pcappMeteringID := pappMet.pcappMeteringID.getD []
  ulappMeteringStartTime := pappMet.ulappMeteringStartTime
  ulappMeteringEndTime := pappMet.ulappMeteringEndTime
  iappMeteringReaction := pappMet.iappMeteringReaction
  pcalertmessage := pappMet.pcalertmessage.getD []
  istatus := if last then pappMet.istatus else 0

theorem fill_row (fits : pappMet.Fits) :
    fill pappMet { zeroSub with uiappMeteringIndex := pappMet.uiappMeteringIndex } =
      some (pappMet.row false) := if_pos fits

theorem row_fitting (fits : pappMet.Fits) (last : Bool) : Fitting (pappMet.row last) := by
  constructor
  · cases given : pappMet.pcappMeteringID with
    | none => simp [StappMeteringStruct.row, given, arraySize]
    | some id => simpa [StappMeteringStruct.row, given] using fits.1 id given
  · cases given : pappMet.pcalertmessage with
    | none => simp [StappMeteringStruct.row, given, arraySize]
    | some message => simpa [StappMeteringStruct.row, given] using fits.2 message given

/-- What `Modify` makes of a row. -/
def StappMeteringStruct.over (pappMet : StappMeteringStruct) (old : Stappsub) : Stappsub where
  uiappMeteringIndex := old.uiappMeteringIndex
  pcappMeteringID := pappMet.pcappMeteringID.getD old.pcappMeteringID
  ulappMeteringStartTime := pappMet.ulappMeteringStartTime
  ulappMeteringEndTime := pappMet.ulappMeteringEndTime
  iappMeteringReaction := pappMet.iappMeteringReaction
  pcalertmessage := pappMet.pcalertmessage.getD old.pcalertmessage
  istatus := pappMet.istatus

theorem fill_over (fits : pappMet.Fits) (old : Stappsub) :
    ∃ sub, fill pappMet old = some sub ∧
      { sub with istatus := pappMet.istatus } = pappMet.over old :=
  ⟨_, if_pos fits, rfl⟩

theorem over_fitting (fits : pappMet.Fits) {old : Stappsub} (fitting : Fitting old) :
    Fitting (pappMet.over old) := by
  rcases fill_fits fits old with ⟨sub, filled, _, _, kept⟩
  rcases fill_over fits old with ⟨sub', filled', same⟩
  cases filled.symm.trans filled'
  rw [← same]
  exact kept fitting

/-- Where `List` puts the row of the event, with what the row holds. -/
inductive RowPlaced (pappMet : StappMeteringStruct) (sfind : Bool) :
    List (Nat × Stappsub) → List (Nat × Stappsub) → Prop
  | inserted {before after : List (Nat × Stappsub)} {newsub : Nat}
      (passed : ∀ row ∈ before, Passes pappMet.uiappMeteringIndex sfind row)
      (later : ∀ row ∈ after.head?, row.2.uiappMeteringIndex > pappMet.uiappMeteringIndex) :
      RowPlaced pappMet sfind (before ++ after)
        (before ++ (newsub, pappMet.row after.isEmpty) :: after)
  | overwritten {before after : List (Nat × Stappsub)} {submove : Nat} {old sub : Stappsub}
      (passed : ∀ row ∈ before, Passes pappMet.uiappMeteringIndex sfind row)
      (equal : old.uiappMeteringIndex = pappMet.uiappMeteringIndex) (adds : sfind = false)
      (filled : fill pappMet old = some sub) :
      RowPlaced pappMet sfind (before ++ (submove, old) :: after)
        (before ++ (submove, sub) :: after)

theorem RowPlaced.added {sfind : Bool} {rows rows' : List (Nat × Stappsub)}
    (placed : RowPlaced pappMet sfind rows rows') (fits : pappMet.Fits) :
    RowAdded pappMet sfind rows rows' := by
  cases placed with
  | inserted passed later => exact .inserted passed later rfl rfl (row_fitting fits _)
  | @overwritten before after submove old sub passed equal adds filled =>
    rcases fill_fits fits old with ⟨sub', filled', index, _, fitting⟩
    cases filled.symm.trans filled'
    exact .overwritten passed equal adds (index.trans equal) fitting

theorem linkRow_spec {before after : List (Nat × Stappsub)}
    (rep : Represents mem (front ++ binary :: back)) (split : binary.rows = before ++ after)
    (sub : Stappsub) (mem' : Memory) (apps : mem'.apps = mem.apps) (subs : mem'.subs = mem.subs)
    (head : mem'.head = mem.head) (allocated : mem'.allocated = mem.allocated + 1) :
    ∃ mem'', linkRow mem' (some (lastAddress binary.dummy before)) mem.allocated (some sub)
        (addresses after).head? = some mem'' ∧
      Represents mem'' (front ++
        { binary with rows := before ++ (mem.allocated, sub) :: after } :: back) := by
  have member : binary ∈ front ++ binary :: back := by simp
  have segment := rep.rows binary member
  obtain ⟨init, last, whole⟩ := exists_last binary.dummy zeroSub before
  have cells : binary.cells = init ++ (lastAddress binary.dummy before, last) :: after := by
    rw [Binary.cells, split, ← List.cons_append, whole]
    simp
  rw [cells] at segment
  obtain ⟨next, _, held, rest⟩ := segment.middle
  have next' : (addresses after).head? = next := by
    cases after with
    | nil => exact (segment_nil.mp rest).symm
    | cons first tail => exact rest.1.symm
  have unused : mem.allocated ∉ addresses (init ++ (lastAddress binary.dummy before, last) ::
      after) := by
    rw [← cells]
    intro inside
    exact absurd (rep.small_rows member inside) (Nat.lt_irrefl _)
  have linked := segment.insert held unused sub
  have cells' : init ++ (lastAddress binary.dummy before, last) :: (mem.allocated, sub) :: after =
      (binary.dummy, zeroSub) :: (before ++ (mem.allocated, sub) :: after) := by
    rw [← List.cons_append, whole]
    simp
  rw [cells'] at linked
  rw [linkRow]
  simp only [subs, held, next']
  refine ⟨_, rfl, ?_⟩
  have inside : lastAddress binary.dummy before ∈ addresses binary.cells := by
    rw [cells, addresses_append, addresses_cons]
    exact List.mem_append_right _ List.mem_cons_self
  refine rep.set_rows (Nat.le_succ _) linked ?_ ?_ ?_ apps rfl head allocated
  · intro a member
    rw [addresses_append, addresses_cons] at member
    rw [split, addresses_append]
    rcases List.mem_append.mp member with member | member
    · exact .inl (List.mem_append_left _ member)
    · rcases List.mem_cons.mp member with rfl | member
      · exact .inr (Nat.le_refl _)
      · exact .inl (List.mem_append_right _ member)
  · intro a outside small
    have away : a ≠ lastAddress binary.dummy before := by
      rintro rfl
      exact outside inside
    rw [Function.update_of_ne away, Function.update_of_ne (by omega)]
  · intro a large
    have old := rep.small_sub held
    rw [Function.update_of_ne (by omega), Function.update_of_ne (by omega)]
    exact (rep.fresh a (by omega)).2

theorem overwriteRow_spec {before after : List (Nat × Stappsub)} {a : Nat}
    (rep : Represents mem (front ++ binary :: back))
    (split : binary.rows = before ++ (a, sub) :: after) (sub' : Stappsub) {cell : Cell Nat Stappsub}
    (held : mem.subs a = some cell) {mem' : Memory} (apps : mem'.apps = mem.apps)
    (subs : mem'.subs = Function.update mem.subs a (some { cell with val := sub' }))
    (head : mem'.head = mem.head) (allocated : mem'.allocated = mem.allocated) :
    Represents mem' (front ++
      { binary with rows := before ++ (a, sub') :: after } :: back) := by
  have member : binary ∈ front ++ binary :: back := by simp
  have segment := rep.rows binary member
  have cells : binary.cells = ((binary.dummy, zeroSub) :: before) ++ (a, sub) :: after := by
    rw [Binary.cells, split]
    rfl
  rw [cells] at segment
  have overwritten : Segment (Function.update mem.subs a (some { cell with val := sub' }))
      (some binary.dummy) ((binary.dummy, zeroSub) :: (before ++ (a, sub') :: after)) none :=
    segment.overwrite held sub'
  have inside : a ∈ addresses binary.cells := by
    rw [cells, addresses_append, addresses_cons]
    exact List.mem_append_right _ List.mem_cons_self
  refine rep.set_rows (Nat.le_refl _) overwritten ?_ ?_ ?_ apps subs head allocated
  · intro b member
    left
    rw [split, addresses_append, addresses_cons]
    rwa [addresses_append, addresses_cons] at member
  · intro b outside _
    apply Function.update_of_ne
    rintro rfl
    exact outside inside
  · intro b large
    have old := rep.small_sub held
    rw [Function.update_of_ne (by omega)]
    exact (rep.fresh b large).2

theorem exists_split {α : Type} (P : α → Prop) [DecidablePred P] (xs : List α) :
    ∃ before after, xs = before ++ after ∧ (∀ x ∈ before, P x) ∧ ∀ x ∈ after.head?, ¬ P x := by
  induction xs with
  | nil => exact ⟨[], [], rfl, by simp, by simp⟩
  | cons head tail ih =>
    by_cases holds : P head
    · obtain ⟨before, after, rfl, passed, stopped⟩ := ih
      refine ⟨head :: before, after, rfl, ?_, stopped⟩
      intro x member
      rcases List.mem_cons.mp member with rfl | member
      · exact holds
      · exact passed x member
    · exact ⟨[], head :: tail, rfl, by simp, by simpa using holds⟩

theorem Represents.app {list : List Binary} (rep : Represents mem list)
    (member : binary ∈ list) : ∃ head next, mem.head = some head ∧
      mem.apps binary.node = some ⟨⟨binary.name, some binary.dummy⟩, next⟩ := by
  rcases rep.begins with ⟨_, rfl⟩ | ⟨head, begins, chain⟩
  · cases member
  · have inside : (binary.node, (⟨binary.name, some binary.dummy⟩ : Stapp)) ∈
        (head, ⟨[], none⟩) :: appCells list :=
      List.mem_cons_of_mem _ (List.mem_map_of_mem member)
    obtain ⟨next, held⟩ := chain.read inside
    exact ⟨head, next, begins, held⟩

def Clear (mem : Memory) (pappMet : StappMeteringStruct) : Prop :=
  mem.gpsub = none ∨ 0 < pappMet.uiappMeteringIndex

theorem insertRow_last (rep : Represents mem (front ++ binary :: back)) (clear : Clear mem pappMet)
    {sfind : Bool} (passed : ∀ row ∈ binary.rows, Passes pappMet.uiappMeteringIndex sfind row) :
    insertRow mem pappMet [] binary.node sfind =
      linkRow { mem with
          gpsub := some (lastAddress binary.dummy binary.rows)
          prevsubmove := some (lastAddress binary.dummy binary.rows)
          allocated := mem.allocated + 1 } (some (lastAddress binary.dummy binary.rows))
        mem.allocated ((fill pappMet
          { zeroSub with uiappMeteringIndex := pappMet.uiappMeteringIndex }).map fun sub =>
            { sub with istatus := pappMet.istatus }) none := by
  have member : binary ∈ front ++ binary :: back := by simp
  rcases rep.app member with ⟨_, next, _, held⟩
  have segment := rep.rows binary member
  have short := rep.rows_length member
  rw [Binary.cells] at segment short
  rw [← List.append_nil binary.rows] at segment
  have loop : subLoop mem.subs pappMet.uiappMeteringIndex sfind (mem.allocated + 2) mem.gpsub
      mem.prevsubmove (some binary.dummy) =
        some (some (lastAddress binary.dummy binary.rows),
          some (lastAddress binary.dummy binary.rows), .atEnd) :=
    subLoop_cells segment clear passed (by simp) (by
      rw [List.length_cons] at short
      omega)
  unfold insertRow
  simp only [held, loop, malloc, List.not_mem_nil, if_false]

theorem insertRow_spec (rep : Represents mem (front ++ binary :: back))
    (clear : Clear mem pappMet) (fits : pappMet.Fits) (sfind : Bool) :
    ∃ mem' rows, insertRow mem pappMet [] binary.node sfind = some mem' ∧
      Represents mem' (front ++ { binary with rows := rows } :: back) ∧
      RowPlaced pappMet sfind binary.rows rows := by
  have member : binary ∈ front ++ binary :: back := by simp
  obtain ⟨_, next, _, held⟩ := rep.app member
  obtain ⟨before, after, split, passed, stopped⟩ :=
    exists_split (Passes pappMet.uiappMeteringIndex sfind) binary.rows
  have segment := rep.rows binary member
  have short := rep.rows_length member
  rw [Binary.cells, split] at segment short
  simp only [List.length_cons, List.length_append] at short
  have loop : subLoop mem.subs pappMet.uiappMeteringIndex sfind (mem.allocated + 2) mem.gpsub
      mem.prevsubmove (some binary.dummy) =
        some (some (lastAddress binary.dummy before),
          some ((addresses after).head?.getD (lastAddress binary.dummy before)),
          placeOf pappMet.uiappMeteringIndex after) :=
    subLoop_cells segment clear passed stopped (by omega)
  have filled := fill_row fits
  cases after with
  | nil =>
    rw [List.append_nil] at split
    obtain ⟨mem', linked, rep'⟩ := linkRow_spec rep (split.trans (List.append_nil before).symm)
      (pappMet.row true)
      { mem with
        gpsub := some (lastAddress binary.dummy before)
        prevsubmove := some (lastAddress binary.dummy before)
        allocated := mem.allocated + 1 } rfl rfl rfl rfl
    refine ⟨mem', before ++ [(mem.allocated, pappMet.row true)], ?_, rep', ?_⟩
    · rw [insertRow_last rep clear (split ▸ passed), split, filled]
      exact linked
    · have placed : RowPlaced pappMet sfind (before ++ [])
          (before ++ (mem.allocated, pappMet.row ([] : List (Nat × Stappsub)).isEmpty) :: []) :=
        .inserted passed (by simp)
      rw [List.append_nil] at placed
      rw [split]
      exact placed
  | cons first later =>
    unfold insertRow
    simp only [held, loop]
    obtain ⟨a, old⟩ := first
    by_cases greater : old.uiappMeteringIndex > pappMet.uiappMeteringIndex
    · obtain ⟨mem', linked, rep'⟩ := linkRow_spec rep split (pappMet.row false)
        { mem with
          gpsub := some (lastAddress binary.dummy before)
          prevsubmove := some a
          allocated := mem.allocated + 1 } rfl rfl rfl rfl
      refine ⟨mem', before ++ (mem.allocated, pappMet.row false) :: (a, old) :: later, ?_, rep', ?_⟩
      · simp only [placeOf, greater, if_true, malloc, List.not_mem_nil, if_false, filled]
        exact linked
      · rw [split]
        refine .inserted passed ?_
        intro row first
        obtain rfl := Option.some.inj first
        exact greater
    · have equal : old.uiappMeteringIndex = pappMet.uiappMeteringIndex ∧ sfind = false := by
        by_contra differs
        exact stopped (a, old) rfl ⟨greater, differs⟩
      obtain ⟨next', there⟩ : ∃ next, mem.subs a = some ⟨old, next⟩ :=
        segment.read (List.mem_cons_of_mem _ (List.mem_append_right _ List.mem_cons_self))
      obtain ⟨sub', filled', _⟩ := fill_fits fits old
      refine ⟨{ mem with
        gpsub := some (lastAddress binary.dummy before)
        prevsubmove := some a
        subs := Function.update mem.subs a (some ⟨sub', next'⟩) },
        before ++ (a, sub') :: later, ?_, ?_, ?_⟩
      · simp only [placeOf, greater, if_false, there, filled', Option.map_some]
        rfl
      · exact overwriteRow_spec rep split sub' there rfl rfl rfl rfl
      · rw [split]
        exact .overwritten passed equal.1 equal.2 filled'

end Rows

section Lists

variable {pappMet : StappMeteringStruct} {mem : Memory} {list front back : List Binary}
  {binary : Binary} {name : Text} {head : Nat}

theorem appCells_append : appCells (front ++ back) = appCells front ++ appCells back :=
  List.map_append

theorem headNode_spec (rep : Represents mem list) :
    ∃ mem' head, headNode mem [] = (some head, mem') ∧ Represents mem' list ∧
      mem'.head = some head ∧ mem'.gpsub = mem.gpsub := by
  rcases rep.begins with ⟨begins, rfl⟩ | ⟨head, begins, chain⟩
  · simp only [headNode, begins, malloc, List.not_mem_nil, if_false]
    refine ⟨_, _, rfl, ?_, rfl, rfl⟩
    constructor
    · exact .inr ⟨mem.allocated, rfl, rfl, none, Function.update_self .., rfl⟩
    · simp
    · exact List.nodup_nil
    · intro a large
      have differs : a ≠ mem.allocated := by
        rintro rfl
        exact absurd large (Nat.not_succ_le_self _)
      have old : mem.allocated ≤ a := Nat.le_of_succ_le large
      exact ⟨(Function.update_of_ne differs _ _).trans (rep.fresh a old).1, (rep.fresh a old).2⟩
  · exact ⟨mem, head, by simp only [headNode, begins], rep, begins, rfl⟩

theorem newBinary_spec (rep : Represents mem list) (begins : mem.head = some head)
    (last : mem.prev = some (lastAddress head (appCells list)))
    (short : name.length < arraySize) :
    ∃ mem' node dummy, newBinary mem [] name = some (some node, mem') ∧
      Represents mem' (list ++ [⟨node, dummy, name, []⟩]) ∧ mem'.gpsub = mem.gpsub := by
  have segment := rep.segment begins
  obtain ⟨init, app, whole⟩ := exists_last head (⟨[], none⟩ : Stapp) (appCells list)
  have segment' := segment
  rw [whole] at segment'
  obtain ⟨next, _, held, rest⟩ := segment'.middle
  rw [segment_nil] at rest
  subst rest
  have unused : mem.allocated ∉ addresses (init ++ [(lastAddress head (appCells list), app)]) := by
    rw [← whole]
    intro inside
    obtain ⟨cell, old⟩ := segment.held inside
    exact absurd (rep.small_app old) (Nat.lt_irrefl _)
  have linked := segment'.insert held unused ⟨name, some (mem.allocated + 1)⟩
  have old := rep.small_app held
  have room : ¬ arraySize ≤ name.length := by omega
  simp only [newBinary, malloc, List.not_mem_nil, if_false, room, last, held]
  refine ⟨_, _, mem.allocated + 1, rfl, ?_, rfl⟩
  constructor
  · refine .inr ⟨head, begins, ?_⟩
    have cells : init ++ [(lastAddress head (appCells list), app),
        (mem.allocated, ⟨name, some (mem.allocated + 1)⟩)] =
        (head, ⟨[], none⟩) ::
          appCells (list ++ [⟨mem.allocated, mem.allocated + 1, name, []⟩]) := by
      rw [appCells_append, ← List.cons_append, whole]
      simp [appCells]
    rw [← cells]
    exact linked
  · intro other member
    rcases List.mem_append.mp member with member | member
    · apply (rep.rows other member).update
      intro inside
      have small := rep.small_rows member inside
      omega
    · obtain rfl := List.mem_singleton.mp member
      exact ⟨rfl, none, Function.update_self .., rfl⟩
  · rw [subAddresses_append, List.nodup_append]
    refine ⟨rep.apart, by simp [subAddresses, Binary.cells], ?_⟩
    intro a member b member'
    obtain ⟨other, member, inside⟩ := mem_subAddresses.mp member
    have small := rep.small_rows member inside
    simp only [subAddresses, Binary.cells, List.flatMap_cons, List.flatMap_nil, addresses_cons,
      addresses_nil, List.append_nil, List.mem_singleton] at member'
    omega
  · intro a large
    change mem.allocated + 1 + 1 ≤ a at large
    have unused := rep.fresh a (by omega)
    constructor
    · change Function.update (Function.update mem.apps mem.allocated _) _ _ a = none
      rw [Function.update_of_ne (by omega), Function.update_of_ne (by omega)]
      exact unused.1
    · change Function.update mem.subs (mem.allocated + 1) _ a = none
      rw [Function.update_of_ne (by omega)]
      exact unused.2

/-- What `List` does to the list: the row goes to the binary with the name, or to a new one. -/
inductive Added (pappMet : StappMeteringStruct) (sfind : Bool) :
    List Binary → List Binary → Prop
  | existing {front back : List Binary} {binary : Binary} {rows : List (Nat × Stappsub)}
      (absent : ∀ other ∈ front, other.name ≠ pappMet.pcappMeteringBinaryName)
      (named : binary.name = pappMet.pcappMeteringBinaryName)
      (added : RowAdded pappMet sfind binary.rows rows) :
      Added pappMet sfind (front ++ binary :: back)
        (front ++ { binary with rows := rows } :: back)
  | appended {list : List Binary} {binary : Binary}
      (absent : ∀ other ∈ list, other.name ≠ pappMet.pcappMeteringBinaryName)
      (named : binary.name = pappMet.pcappMeteringBinaryName)
      (added : RowAdded pappMet sfind [] binary.rows) :
      Added pappMet sfind list (list ++ [binary])

/-- Where `List` puts the row of the event: in the binary with the name, or in a new one. -/
inductive Placed (pappMet : StappMeteringStruct) (sfind : Bool) :
    List Binary → List Binary → Prop
  | existing {front back : List Binary} {binary : Binary} {rows : List (Nat × Stappsub)}
      (absent : ∀ other ∈ front, other.name ≠ pappMet.pcappMeteringBinaryName)
      (named : binary.name = pappMet.pcappMeteringBinaryName)
      (placed : RowPlaced pappMet sfind binary.rows rows) :
      Placed pappMet sfind (front ++ binary :: back)
        (front ++ { binary with rows := rows } :: back)
  | appended {list : List Binary} {binary : Binary}
      (absent : ∀ other ∈ list, other.name ≠ pappMet.pcappMeteringBinaryName)
      (named : binary.name = pappMet.pcappMeteringBinaryName)
      (placed : RowPlaced pappMet sfind [] binary.rows) :
      Placed pappMet sfind list (list ++ [binary])

theorem Placed.added {sfind : Bool} {list list' : List Binary}
    (placed : Placed pappMet sfind list list') (fits : pappMet.Fits) :
    Added pappMet sfind list list' := by
  cases placed with
  | existing absent named placed => exact .existing absent named (placed.added fits)
  | appended absent named placed => exact .appended absent named (placed.added fits)

theorem headCells_absent (named : name ≠ []) (absent : ∀ other ∈ front, other.name ≠ name) :
    ∀ x ∈ (head, (⟨[], none⟩ : Stapp)) :: appCells front,
      x.2.pcappMeteringBinaryName ≠ name := by
  intro x member
  rcases List.mem_cons.mp member with rfl | member
  · exact named.symm
  · obtain ⟨other, listed, rfl⟩ := List.mem_map.mp member
    exact absent other listed

theorem Represents.set_prev (rep : Represents mem list) (prev : Option Nat) :
    Represents { mem with prev := prev } list := ⟨rep.begins, rep.rows, rep.apart, rep.fresh⟩

theorem amList_found (rep : Represents mem (front ++ binary :: back))
    (absent : ∀ other ∈ front, other.name ≠ pappMet.pcappMeteringBinaryName)
    (here : binary.name = pappMet.pcappMeteringBinaryName)
    (named : pappMet.pcappMeteringBinaryName ≠ []) (sfind : Bool) :
    ∃ mem', amList mem pappMet [] sfind = insertRow mem' pappMet [] binary.node sfind ∧
      Represents mem' (front ++ binary :: back) ∧ mem'.gpsub = mem.gpsub := by
  rcases headNode_spec rep with ⟨mem', head, started, rep', begins, cursor⟩
  have segment := rep'.segment begins
  have length := rep'.list_length begins
  rw [appCells_append, ← List.cons_append] at segment
  obtain ⟨prev, loop⟩ : ∃ prev, findLoop mem'.apps pappMet.pcappMeteringBinaryName
      (mem'.allocated + 2) mem'.prev (some head) = some (prev, some binary.node) := by
    apply findLoop_found segment (headCells_absent named absent) here
    simp only [appCells, List.length_cons, List.length_map, List.length_append] at length ⊢
    omega
  refine ⟨{ mem' with prev := prev }, ?_, rep'.set_prev prev, cursor⟩
  unfold amList
  simp only [started, loop]

theorem amList_at (rep : Represents mem (front ++ binary :: back))
    (absent : ∀ other ∈ front, other.name ≠ pappMet.pcappMeteringBinaryName)
    (here : binary.name = pappMet.pcappMeteringBinaryName)
    (named : pappMet.pcappMeteringBinaryName ≠ []) (clear : Clear mem pappMet)
    (fits : pappMet.Fits) (sfind : Bool) :
    ∃ mem' rows, amList mem pappMet [] sfind = some mem' ∧
      Represents mem' (front ++ { binary with rows := rows } :: back) ∧
      RowPlaced pappMet sfind binary.rows rows := by
  rcases amList_found rep absent here named sfind with ⟨mem', found, rep', cursor⟩
  rw [Clear, ← cursor] at clear
  rw [found]
  exact insertRow_spec rep' clear fits sfind

theorem amList_missing (rep : Represents mem list)
    (absent : ∀ other ∈ list, other.name ≠ pappMet.pcappMeteringBinaryName)
    (named : pappMet.pcappMeteringBinaryName ≠ []) (sfind : Bool) :
    (arraySize ≤ pappMet.pcappMeteringBinaryName.length ∧ amList mem pappMet [] sfind = none) ∨
      pappMet.pcappMeteringBinaryName.length < arraySize ∧
      ∃ mem' binary, amList mem pappMet [] sfind = insertRow mem' pappMet [] binary.node sfind ∧
        Represents mem' (list ++ [binary]) ∧ binary.name = pappMet.pcappMeteringBinaryName ∧
        binary.rows = [] ∧ mem'.gpsub = mem.gpsub := by
  rcases headNode_spec rep with ⟨mem', head, started, rep', begins, cursor⟩
  have segment := rep'.segment begins
  have length := rep'.list_length begins
  have loop : findLoop mem'.apps pappMet.pcappMeteringBinaryName (mem'.allocated + 2) mem'.prev
      (some head) = some (some (lastAddress head (appCells list)), none) := by
    rw [findLoop_missing segment (headCells_absent named absent) (by simp [appCells]; omega),
      addresses_cons, List.getLast?_cons, Option.some_or]
    rfl
  rcases Nat.lt_or_ge pappMet.pcappMeteringBinaryName.length arraySize with short | long
  · rcases newBinary_spec (rep'.set_prev (some (lastAddress head (appCells list)))) begins rfl
      short with ⟨mem₂, node, dummy, made, rep₂, cursor'⟩
    refine .inr ⟨short, mem₂, _, ?_, rep₂, rfl, rfl, cursor'.trans cursor⟩
    unfold amList
    simp only [started, loop, made]
  · refine .inl ⟨long, ?_⟩
    unfold amList
    simp only [started, loop, newBinary, malloc, List.not_mem_nil, if_false, long, if_true]

theorem amList_long (rep : Represents mem list)
    (absent : ∀ other ∈ list, other.name ≠ pappMet.pcappMeteringBinaryName)
    (named : pappMet.pcappMeteringBinaryName ≠ [])
    (long : arraySize ≤ pappMet.pcappMeteringBinaryName.length) (sfind : Bool) :
    amList mem pappMet [] sfind = none := by
  rcases amList_missing rep absent named sfind with ⟨_, refused⟩ | ⟨short, _⟩
  · exact refused
  · exact absurd short (Nat.not_lt.mpr long)

theorem amList_new (rep : Represents mem list)
    (absent : ∀ other ∈ list, other.name ≠ pappMet.pcappMeteringBinaryName)
    (named : pappMet.pcappMeteringBinaryName ≠ [])
    (short : pappMet.pcappMeteringBinaryName.length < arraySize) (clear : Clear mem pappMet)
    (fits : pappMet.Fits) (sfind : Bool) :
    ∃ mem' binary, amList mem pappMet [] sfind = some mem' ∧
      Represents mem' (list ++ [binary]) ∧ binary.name = pappMet.pcappMeteringBinaryName ∧
      RowPlaced pappMet sfind [] binary.rows := by
  rcases amList_missing rep absent named sfind with
    ⟨long, _⟩ | ⟨_, mem₂, binary, made, rep₂, here, empty, cursor⟩
  · exact absurd short (Nat.not_lt.mpr long)
  · rw [Clear, ← cursor] at clear
    rcases insertRow_spec rep₂ clear fits sfind with ⟨mem₃, rows, inserted, rep₃, placed⟩
    rw [empty] at placed
    exact ⟨mem₃, _, made.trans inserted, rep₃, here, placed⟩

theorem amList_spec (rep : Represents mem list) (named : pappMet.pcappMeteringBinaryName ≠ [])
    (short : pappMet.pcappMeteringBinaryName.length < arraySize) (clear : Clear mem pappMet)
    (fits : pappMet.Fits) (sfind : Bool) :
    ∃ mem' list', amList mem pappMet [] sfind = some mem' ∧ Represents mem' list' ∧
      Placed pappMet sfind list list' := by
  obtain ⟨front, after, rfl, absent, found⟩ :=
    exists_split (fun other : Binary => other.name ≠ pappMet.pcappMeteringBinaryName) list
  cases after with
  | nil =>
    rw [List.append_nil] at rep ⊢
    obtain ⟨mem', binary, ran, rep', here, placed⟩ :=
      amList_new rep absent named short clear fits sfind
    exact ⟨mem', _, ran, rep', .appended absent here placed⟩
  | cons binary back =>
    have here : binary.name = pappMet.pcappMeteringBinaryName :=
      not_not.mp (found binary rfl)
    obtain ⟨mem', rows, ran, rep', placed⟩ :=
      amList_at rep absent here named clear fits sfind
    exact ⟨mem', _, ran, rep', .existing absent here placed⟩

end Lists

section Deletion

variable {mem : Memory} {subs : Heap Nat Stappsub} {fuel : Nat} {list front back : List Binary}
  {binary : Binary} {name : Text} {uiappMeteringIndex : UInt32}
  {rows before after : List (Nat × Stappsub)} {a s : Nat} {sub gone : Stappsub}
  {p : Option Nat}

theorem deleteRow_missing (segment : Segment subs (some a) ((a, sub) :: rows) none)
    (absent : ∀ row ∈ rows, row.2.uiappMeteringIndex ≠ uiappMeteringIndex)
    (enough : rows.length < fuel) :
    deleteRow subs uiappMeteringIndex fuel (some a) = some subs := by
  obtain ⟨rest, rfl⟩ := Nat.exists_eq_add_of_lt enough
  rw [← List.append_nil rows] at segment
  obtain ⟨_, ⟨_, _, held, rfl⟩, walked⟩ := segment.walkAhead
    (deleteRow subs uiappMeteringIndex) (fun row member fuel b w next held ahead => by
      simp only [deleteRow, held, ahead, absent row member, if_false]) (rest + 1)
  rw [Nat.add_assoc, walked]
  simp only [deleteRow, held]

theorem deleteRow_found
    (segment : Segment subs (some a) ((a, sub) :: (before ++ (s, gone) :: after)) none)
    (absent : ∀ row ∈ before, row.2.uiappMeteringIndex ≠ uiappMeteringIndex)
    (here : gone.uiappMeteringIndex = uiappMeteringIndex) (enough : before.length < fuel) :
    ∃ cell row, subs (lastAddress a before) = some cell ∧ subs s = some row ∧
      deleteRow subs uiappMeteringIndex fuel (some a) = some (Function.update
        (Function.update subs (lastAddress a before) (some { cell with next := row.next })) s
        none) := by
  obtain ⟨rest, rfl⟩ := Nat.exists_eq_add_of_lt enough
  obtain ⟨_, ⟨_, _, held, rfl, _, held', _⟩, walked⟩ := segment.walkAhead
    (deleteRow subs uiappMeteringIndex) (fun row member fuel b w next held ahead => by
      simp only [deleteRow, held, ahead, absent row member, if_false]) (rest + 1)
  refine ⟨_, _, held, held', ?_⟩
  rw [Nat.add_assoc, walked]
  simp only [deleteRow, held, held', here, if_true]

theorem removeRow_spec (rep : Represents mem (front ++ binary :: back))
    (split : binary.rows = before ++ (s, gone) :: after)
    (absent : ∀ row ∈ before, row.2.uiappMeteringIndex ≠ uiappMeteringIndex)
    (here : gone.uiappMeteringIndex = uiappMeteringIndex) :
    ∃ subs', deleteRow mem.subs uiappMeteringIndex (mem.allocated + 2) (some binary.dummy) =
        some subs' ∧
      Represents { mem with subs := subs' }
        (front ++ { binary with rows := before ++ after } :: back) := by
  have member : binary ∈ front ++ binary :: back := by simp
  have segment := rep.rows binary member
  have length := rep.rows_length member
  rw [Binary.cells, split] at segment length
  simp only [List.length_cons, List.length_append] at length
  obtain ⟨cell, row, last, there, deleted⟩ : ∃ cell row,
      mem.subs (lastAddress binary.dummy before) = some cell ∧ mem.subs s = some row ∧
        deleteRow mem.subs uiappMeteringIndex (mem.allocated + 2) (some binary.dummy) =
          some (Function.update (Function.update mem.subs (lastAddress binary.dummy before)
            (some { cell with next := row.next })) s none) :=
    deleteRow_found segment absent here (by omega)
  refine ⟨_, deleted, ?_⟩
  obtain ⟨init, final, whole⟩ := exists_last binary.dummy zeroSub before
  have cells : (binary.dummy, zeroSub) :: (before ++ (s, gone) :: after) =
      init ++ (lastAddress binary.dummy before, final) :: (s, gone) :: after := by
    rw [← List.cons_append, whole]
    simp
  have cells' : init ++ (lastAddress binary.dummy before, final) :: after =
      (binary.dummy, zeroSub) :: (before ++ after) := by
    rw [← List.cons_append, whole]
    simp
  have inside : ∀ b ∈ addresses (init ++ (lastAddress binary.dummy before, final) ::
      (s, gone) :: after), b ∈ addresses binary.cells := by
    rw [← cells, Binary.cells, split]
    exact fun _ => id
  rw [cells] at segment
  have removed := segment.remove last there
  rw [cells'] at removed
  refine rep.set_rows (Nat.le_refl _) removed ?_ ?_ ?_ rfl rfl rfl rfl
  · intro b member
    left
    rw [split, addresses_append, addresses_cons]
    rw [addresses_append] at member
    rcases List.mem_append.mp member with member | member
    · exact List.mem_append_left _ member
    · exact List.mem_append_right _ (List.mem_cons_of_mem _ member)
  · intro b outside _
    have away : b ≠ s := by
      rintro rfl
      exact outside (inside b (by simp [addresses]))
    have away' : b ≠ lastAddress binary.dummy before := by
      rintro rfl
      exact outside (inside _ (by simp [addresses]))
    rw [Function.update_of_ne away, Function.update_of_ne away']
  · intro b large
    have small := rep.small_sub there
    have small' := rep.small_sub last
    rw [Function.update_of_ne (by omega), Function.update_of_ne (by omega)]
    exact (rep.fresh b large).2

theorem deleteLoop_skip (uiappMeteringIndex : UInt32) (pre : Nat) {xs : List (Nat × Stapp)}
    (segment : Segment mem.apps p (appCells front ++ xs) none)
    (absent : ∀ other ∈ front, other.name ≠ name) (fuel : Nat) :
    ∃ q, Segment mem.apps q xs none ∧
      deleteLoop name uiappMeteringIndex (front.length + fuel) pre p mem =
        deleteLoop name uiappMeteringIndex fuel (lastAddress pre (appCells front)) q mem := by
  induction front generalizing p pre with
  | nil => exact ⟨p, segment, by rw [List.length_nil, Nat.zero_add]; rfl⟩
  | cons other front ih =>
    obtain ⟨rfl, next, held, rest⟩ := segment
    obtain ⟨q, behind, skipped⟩ :=
      ih other.node rest fun later member => absent later (List.mem_cons_of_mem _ member)
    refine ⟨q, behind, ?_⟩
    have differs : name ≠ other.name := (absent other List.mem_cons_self).symm
    rw [List.length_cons, Nat.add_right_comm, deleteLoop]
    simp only [held, differs, if_false]
    rw [skipped]
    change _ = deleteLoop name uiappMeteringIndex fuel
      (lastAddress pre ((other.node, (⟨other.name, some other.dummy⟩ : Stapp)) :: appCells front))
      q mem
    rw [lastAddress_cons]

theorem deleteLoop_absent {pre : Nat} (segment : Segment mem.apps p (appCells front) none)
    (absent : ∀ other ∈ front, other.name ≠ name) (enough : front.length < fuel) :
    deleteLoop name uiappMeteringIndex fuel pre p mem = some mem := by
  obtain ⟨rest, rfl⟩ := Nat.exists_eq_add_of_lt enough
  rw [← List.append_nil (appCells front)] at segment
  obtain ⟨q, behind, skipped⟩ :=
    deleteLoop_skip uiappMeteringIndex pre segment absent (rest + 1)
  rw [segment_nil] at behind
  subst behind
  rw [Nat.add_assoc, skipped]
  rfl

theorem Represents.around (rep : Represents mem (front ++ binary :: back)) :
    ∃ head start next, mem.head = some head ∧ mem.apps head = some ⟨⟨[], none⟩, start⟩ ∧
      Segment mem.apps start
        (appCells front ++ (binary.node, ⟨binary.name, some binary.dummy⟩) :: appCells back) none ∧
      mem.apps binary.node = some ⟨⟨binary.name, some binary.dummy⟩, next⟩ ∧
      Segment mem.apps next (appCells back) none := by
  have member : binary ∈ front ++ binary :: back := by simp
  obtain ⟨head, _, begins, _⟩ := rep.app member
  have segment := rep.segment begins
  rw [appCells_append] at segment
  obtain ⟨_, start, held, rest⟩ := segment
  have whole := rest
  obtain ⟨next, _, here, behind⟩ := rest.middle
  exact ⟨head, start, next, begins, held, whole, here, behind⟩

theorem removeBinary_spec (rep : Represents mem (front ++ binary :: back))
    (empty : binary.rows = []) {head : Nat} (begins : mem.head = some head)
    {cell : Cell Nat Stapp} (held : mem.apps binary.node = some cell) :
    ∃ mem', deleteBinary mem (lastAddress head (appCells front)) binary.node cell =
        some (mem', true) ∧ Represents mem' (front ++ back) ∧ mem'.apps binary.node = none := by
  have segment := rep.segment begins
  obtain ⟨init, final, whole⟩ := exists_last head (⟨[], none⟩ : Stapp) (appCells front)
  have cells : (head, (⟨[], none⟩ : Stapp)) :: appCells (front ++ binary :: back) =
      init ++ (lastAddress head (appCells front), final) ::
        (binary.node, ⟨binary.name, some binary.dummy⟩) :: appCells back := by
    rw [appCells_append, ← List.cons_append, whole]
    simp [appCells]
  have cells' : init ++ (lastAddress head (appCells front), final) :: appCells back =
      (head, (⟨[], none⟩ : Stapp)) :: appCells (front ++ back) := by
    rw [appCells_append, ← List.cons_append, whole]
    simp
  rw [cells] at segment
  obtain ⟨_, _, last, _, next, here, _⟩ := segment.middle
  obtain rfl := Option.some.inj (here.symm.trans held)
  have removed := segment.remove last held
  rw [cells'] at removed
  have dummyRow := rep.rows binary (by simp)
  rw [Binary.cells, empty] at dummyRow
  obtain ⟨_, behind, first, ended⟩ := dummyRow
  rw [segment_nil] at ended
  subst ended
  rw [deleteBinary]
  simp only [first, if_true, last]
  refine ⟨_, rfl, ?_, Function.update_self ..⟩
  have apart := rep.apart
  rw [subAddresses_append, subAddresses_cons, Binary.cells, empty] at apart
  have outside : ∀ other ∈ front ++ back, binary.dummy ∉ addresses other.cells := by
    intro other member inside
    rw [List.nodup_append, List.nodup_append] at apart
    obtain ⟨_, ⟨_, _, apartBack⟩, apartFront⟩ := apart
    rcases List.mem_append.mp member with member | member
    · exact apartFront _ (mem_subAddresses.mpr ⟨other, member, inside⟩) _ (by simp) rfl
    · exact apartBack _ (by simp) _ (mem_subAddresses.mpr ⟨other, member, inside⟩) rfl
  constructor
  · exact .inr ⟨head, begins, removed⟩
  · intro other member
    apply (rep.rows other _).update (outside other member)
    rcases List.mem_append.mp member with member | member
    · exact List.mem_append_left _ member
    · exact List.mem_append_right _ (List.mem_cons_of_mem _ member)
  · rw [subAddresses_append]
    exact List.Nodup.sublist
      (List.Sublist.append (List.Sublist.refl _) (List.sublist_append_right _ _)) apart
  · intro b large
    change mem.allocated ≤ b at large
    have small := rep.small_app last
    have small' := rep.small_app held
    have small'' := rep.small_sub first
    constructor
    · change Function.update (Function.update mem.apps _ _) _ _ b = none
      rw [Function.update_of_ne (by omega), Function.update_of_ne (by omega)]
      exact (rep.fresh b large).1
    · change Function.update mem.subs _ _ b = none
      rw [Function.update_of_ne (by omega)]
      exact (rep.fresh b large).2

theorem amDelete_absent (rep : Represents mem list) (absent : ∀ other ∈ list, other.name ≠ name) :
    amDelete mem name uiappMeteringIndex = some mem := by
  unfold amDelete
  cases begins : mem.head with
  | none => rfl
  | some head =>
    have length := rep.list_length begins
    obtain ⟨_, start, held, rest⟩ := rep.segment begins
    simp only [held]
    exact deleteLoop_absent rest absent (by omega)

theorem amDelete_at (uiappMeteringIndex : UInt32) (rep : Represents mem (front ++ binary :: back))
    (absent : ∀ other ∈ front, other.name ≠ name) :
    ∃ head fuel, mem.head = some head ∧ back.length < fuel ∧
      amDelete mem name uiappMeteringIndex = deleteLoop name uiappMeteringIndex (fuel + 1)
        (lastAddress head (appCells front)) (some binary.node) mem := by
  obtain ⟨head, start, _, begins, held, segment, _, _⟩ := rep.around
  have length := rep.list_length begins
  rw [List.length_append, List.length_cons] at length
  obtain ⟨fuel, enough⟩ : ∃ fuel, mem.allocated + 2 = front.length + (fuel + 1) :=
    ⟨mem.allocated + 1 - front.length, by omega⟩
  refine ⟨head, fuel, begins, by omega, ?_⟩
  obtain ⟨q, behind, skipped⟩ := deleteLoop_skip uiappMeteringIndex head segment absent (fuel + 1)
  obtain ⟨rfl, _⟩ := behind
  rw [amDelete]
  simp only [begins, held, enough]
  exact skipped

theorem amDelete_missing (rep : Represents mem (front ++ binary :: back))
    (absent : ∀ other ∈ front ++ back, other.name ≠ name) (named : binary.name = name)
    (filled : binary.rows ≠ [])
    (missing : ∀ row ∈ binary.rows, row.2.uiappMeteringIndex ≠ uiappMeteringIndex) :
    amDelete mem name uiappMeteringIndex = some mem := by
  have member : binary ∈ front ++ binary :: back := by simp
  obtain ⟨head, fuel, begins, enough, reached⟩ := amDelete_at uiappMeteringIndex rep
    fun other member => absent other (List.mem_append_left _ member)
  obtain ⟨_, _, next, _, _, _, here, behind⟩ := rep.around
  have length := rep.rows_length member
  have segment := rep.rows binary member
  rw [Binary.cells, List.length_cons] at length
  obtain ⟨first, row⟩ : ∃ next, mem.subs binary.dummy = some ⟨zeroSub, next⟩ ∧ next ≠ none := by
    obtain ⟨_, next, first, rest⟩ := segment
    refine ⟨next, first, ?_⟩
    rintro rfl
    cases rows : binary.rows with
    | nil => exact filled rows
    | cons head tail =>
      rw [rows] at rest
      cases rest.1
  have kept : deleteRow mem.subs uiappMeteringIndex (mem.allocated + 2) (some binary.dummy) =
      some mem.subs := deleteRow_missing segment missing (by omega)
  rw [reached, deleteLoop]
  simp only [here, named, if_true, kept, deleteBinary, row.1, row.2, if_false]
  exact deleteLoop_absent behind (fun other member => absent other (List.mem_append_right _ member))
    enough

theorem amDelete_found (rep : Represents mem (front ++ binary :: back))
    (absent : ∀ other ∈ front ++ back, other.name ≠ name) (named : binary.name = name)
    (split : binary.rows = before ++ (s, gone) :: after)
    (others : ∀ row ∈ before, row.2.uiappMeteringIndex ≠ uiappMeteringIndex)
    (index : gone.uiappMeteringIndex = uiappMeteringIndex) :
    ∃ mem', amDelete mem name uiappMeteringIndex = some mem' ∧
      Represents mem' (if before ++ after = [] then front ++ back
        else front ++ { binary with rows := before ++ after } :: back) := by
  obtain ⟨head, fuel, begins, enough, reached⟩ := amDelete_at uiappMeteringIndex rep
    fun other member => absent other (List.mem_append_left _ member)
  obtain ⟨_, _, next, _, _, _, here, behind⟩ := rep.around
  obtain ⟨subs', deleted, rep'⟩ := removeRow_spec rep split others index
  subst named
  rw [reached, deleteLoop]
  simp only [here, eq_self, if_true, deleted]
  by_cases empty : before ++ after = []
  · rw [if_pos empty]
    obtain ⟨mem', removed, rep'', _⟩ := removeBinary_spec rep' empty begins here
    refine ⟨mem', ?_, rep''⟩
    simp only [removed]
  · rw [if_neg empty]
    have member : { binary with rows := before ++ after } ∈
        front ++ { binary with rows := before ++ after } :: back := by simp
    obtain ⟨_, next', first, rest⟩ := rep'.rows _ member
    have more : next' ≠ none := by
      rintro rfl
      cases rows : before ++ after with
      | nil => exact empty rows
      | cons head tail =>
        rw [rows] at rest
        cases rest.1
    have first' : subs' binary.dummy = some ⟨zeroSub, next'⟩ := first
    refine ⟨_, ?_, rep'⟩
    simp only [deleteBinary, first', more, if_false]
    exact deleteLoop_absent behind
      (fun other member => absent other (List.mem_append_right _ member)) enough

theorem amDelete_last (rep : Represents mem (front ++ binary :: back))
    (absent : ∀ other ∈ front ++ back, other.name ≠ name) (named : binary.name = name)
    (split : binary.rows = [(s, gone)]) (index : gone.uiappMeteringIndex = uiappMeteringIndex) :
    ∃ mem', amDelete mem name uiappMeteringIndex = some mem' ∧ mem'.apps binary.node = none := by
  obtain ⟨head, fuel, begins, enough, reached⟩ := amDelete_at uiappMeteringIndex rep
    fun other member => absent other (List.mem_append_left _ member)
  obtain ⟨_, _, next, _, _, _, here, behind⟩ := rep.around
  have split' : binary.rows = [] ++ (s, gone) :: [] := split
  obtain ⟨subs', deleted, rep'⟩ := removeRow_spec rep split' nofun index
  subst named
  obtain ⟨mem', removed, _, freed⟩ := removeBinary_spec rep' rfl begins here
  refine ⟨mem', ?_, freed⟩
  rw [reached, deleteLoop]
  simp only [here, eq_self, if_true, deleted, removed]

end Deletion

end EveAgent.AppMetering
