import EveAgent.AppMetering.Tidy

namespace EveAgent.AppMetering

open Cells

section InPlace

variable {pappMet : StappMeteringStruct} {mem : Memory} {subs : Heap Nat Stappsub} {fuel : Nat}
  {list front back : List Binary} {binary : Binary} {rows before after : List (Nat × Stappsub)}
  {a s : Nat} {sub old : Stappsub} {p : Option Nat}

theorem modifyRows_missing (segment : Segment subs (some a) ((a, sub) :: rows) none)
    (absent : ∀ row ∈ rows, row.2.uiappMeteringIndex ≠ pappMet.uiappMeteringIndex)
    (enough : rows.length < fuel) (flag : Bool) :
    modifyRows pappMet fuel (some a) subs flag = some (subs, flag) := by
  obtain ⟨rest, rfl⟩ := Nat.exists_eq_add_of_lt enough
  rw [← List.append_nil rows] at segment
  obtain ⟨_, ⟨_, _, held, rfl⟩, walked⟩ := segment.walkAhead
    (fun fuel p => modifyRows pappMet fuel p subs flag)
    (fun row member fuel b w next held ahead => by
      simp only [modifyRows, held, ahead, absent row member, if_false]) (rest + 1)
  rw [Nat.add_assoc, walked]
  simp only [modifyRows, held]

theorem modifyRows_found
    (segment : Segment subs (some a) ((a, sub) :: (before ++ (s, old) :: after)) none)
    (absent : ∀ row ∈ before ++ after, row.2.uiappMeteringIndex ≠ pappMet.uiappMeteringIndex)
    (here : old.uiappMeteringIndex = pappMet.uiappMeteringIndex) {sub' : Stappsub}
    (filled : fill pappMet old = some sub') (enough : (before ++ after).length + 1 < fuel)
    (flag : Bool) :
    ∃ row, subs s = some row ∧ modifyRows pappMet fuel (some a) subs flag =
      some (Function.update subs s
        (some { row with val := { sub' with istatus := pappMet.istatus } }), true) := by
  rw [List.length_append] at enough
  obtain ⟨rest, rfl⟩ : ∃ rest, fuel = before.length + (rest + 1) :=
    ⟨fuel - before.length - 1, by omega⟩
  obtain ⟨_, ⟨_, _, held, behind⟩, walked⟩ := segment.walkAhead
    (fun fuel p => modifyRows pappMet fuel p subs flag)
    (fun row member fuel b w next held ahead => by
      simp only [modifyRows, held, ahead, absent row (List.mem_append_left _ member), if_false])
    (rest + 1)
  have rest' := behind
  obtain ⟨rfl, next, held', _⟩ := behind
  refine ⟨_, held', ?_⟩
  have behind' : Segment subs (some s) ([] ++ (s, old) :: after) none := rest'
  have changed : Segment (Function.update subs s
      (some ⟨{ sub' with istatus := pappMet.istatus }, next⟩)) (some s)
      ((s, { sub' with istatus := pappMet.istatus }) :: after) none :=
    behind'.overwrite held' _
  rw [walked]
  simp only [modifyRows, held, held', here, if_true, filled]
  exact modifyRows_missing changed (fun row member => absent row (List.mem_append_right _ member))
    (by omega) _

theorem modifyLoop_skip {xs : List (Nat × Stapp)} (rep : Represents mem list)
    (within : ∀ other ∈ front, other ∈ list)
    (segment : Segment mem.apps p (appCells front ++ xs) none)
    (absent : ∀ other ∈ front, other.name = pappMet.pcappMeteringBinaryName →
      ∀ row ∈ other.rows, row.2.uiappMeteringIndex ≠ pappMet.uiappMeteringIndex)
    (fuel : Nat) (flag : Bool) :
    ∃ q, Segment mem.apps q xs none ∧ modifyLoop pappMet (front.length + fuel) p mem flag =
      modifyLoop pappMet fuel q mem flag := by
  induction front generalizing p with
  | nil => exact ⟨p, segment, by rw [List.length_nil, Nat.zero_add]⟩
  | cons other front ih =>
    obtain ⟨rfl, next, held, rest⟩ := segment
    obtain ⟨q, behind, skipped⟩ := ih (fun later member => within later (by simp [member])) rest
      fun later member => absent later (List.mem_cons_of_mem _ member)
    refine ⟨q, behind, ?_⟩
    have member := within other List.mem_cons_self
    have length := rep.rows_length member
    rw [Binary.cells, List.length_cons] at length
    rw [List.length_cons, Nat.add_right_comm, modifyLoop]
    simp only [held]
    by_cases named : other.name = pappMet.pcappMeteringBinaryName
    · have kept : modifyRows pappMet (mem.allocated + 2) (some other.dummy) mem.subs flag =
          some (mem.subs, flag) := modifyRows_missing (rep.rows other member)
        (absent other List.mem_cons_self named) (by omega) flag
      rw [if_pos named.symm, kept]
      exact skipped
    · rw [if_neg (Ne.symm named)]
      exact skipped

theorem modifyLoop_absent (rep : Represents mem list) (within : ∀ other ∈ front, other ∈ list)
    (segment : Segment mem.apps p (appCells front) none)
    (absent : ∀ other ∈ front, other.name = pappMet.pcappMeteringBinaryName →
      ∀ row ∈ other.rows, row.2.uiappMeteringIndex ≠ pappMet.uiappMeteringIndex)
    (enough : front.length < fuel) (flag : Bool) :
    modifyLoop pappMet fuel p mem flag = some (mem, flag) := by
  obtain ⟨rest, rfl⟩ := Nat.exists_eq_add_of_lt enough
  rw [← List.append_nil (appCells front)] at segment
  obtain ⟨q, behind, skipped⟩ := modifyLoop_skip rep within segment absent (rest + 1) flag
  rw [segment_nil] at behind
  subst behind
  rw [Nat.add_assoc, skipped]
  rfl

theorem amModify_absent (rep : Represents mem list)
    (absent : ∀ other ∈ list, other.name = pappMet.pcappMeteringBinaryName →
      ∀ row ∈ other.rows, row.2.uiappMeteringIndex ≠ pappMet.uiappMeteringIndex) :
    amModify mem pappMet [] = searchList mem pappMet [] := by
  unfold amModify
  cases begins : mem.head with
  | none => rfl
  | some head =>
    have length := rep.list_length begins
    obtain ⟨_, start, held, rest⟩ := rep.segment begins
    have kept : modifyLoop pappMet (mem.allocated + 2) start mem false = some (mem, false) :=
      modifyLoop_absent rep (fun _ => id) rest absent (by omega) false
    simp only [held, kept]

theorem amModify_found (rep : Represents mem (front ++ binary :: back))
    (others : ∀ other ∈ front ++ back, other.name ≠ pappMet.pcappMeteringBinaryName)
    (named : binary.name = pappMet.pcappMeteringBinaryName)
    (split : binary.rows = before ++ (s, old) :: after)
    (absent : ∀ row ∈ before ++ after, row.2.uiappMeteringIndex ≠ pappMet.uiappMeteringIndex)
    (here : old.uiappMeteringIndex = pappMet.uiappMeteringIndex) (fits : pappMet.Fits) :
    ∃ mem', amModify mem pappMet [] = some (mem', false) ∧
      Represents mem'
        (front ++ { binary with rows := before ++ (s, pappMet.over old) :: after } :: back) := by
  have member : binary ∈ front ++ binary :: back := by simp
  obtain ⟨head, start, next, begins, held, segment, there, _⟩ := rep.around
  have length := rep.list_length begins
  have rowsLength := rep.rows_length member
  have rows := rep.rows binary member
  rw [Binary.cells, split] at rowsLength rows
  simp only [List.length_cons, List.length_append] at length rowsLength
  obtain ⟨sub', filled, same⟩ := fill_over fits old
  obtain ⟨row, atRow, modified⟩ : ∃ row, mem.subs s = some row ∧
      modifyRows pappMet (mem.allocated + 2) (some binary.dummy) mem.subs false =
        some (Function.update mem.subs s
          (some { row with val := pappMet.over old }), true) := by
    rw [← same]
    exact modifyRows_found rows absent here filled (by simp; omega) false
  have rep' : Represents
      { mem with
        subs := Function.update mem.subs s
          (some { row with val := pappMet.over old }) }
      (front ++ { binary with
        rows := before ++ (s, pappMet.over old) :: after } :: back) :=
    overwriteRow_spec rep split _ atRow rfl rfl rfl rfl
  obtain ⟨fuel, enough⟩ : ∃ fuel, mem.allocated + 2 = front.length + (fuel + 1) :=
    ⟨mem.allocated + 1 - front.length, by omega⟩
  obtain ⟨q, behind, skipped⟩ := modifyLoop_skip rep (by simp +contextual) segment
    (fun other listed named' => absurd named' (others other (List.mem_append_left _ listed)))
    (fuel + 1) false
  obtain ⟨rfl, _⟩ := behind
  obtain ⟨_, _, next', _, _, _, there', behind'⟩ := rep'.around
  obtain rfl : next = next' := by
    have same := there.symm.trans there'
    simp only [Option.some.injEq, Cell.mk.injEq, true_and] at same
    exact same
  have within : ∀ other ∈ back, other ∈ front ++ { binary with
      rows := before ++ (s, pappMet.over old) :: after } :: back := by
    simp +contextual
  have enough' : back.length < fuel := by omega
  have ended := modifyLoop_absent rep' within behind'
    (fun other listed named' => absurd named' (others other (List.mem_append_right _ listed)))
    enough' true
  obtain ⟨mem', whole, rep''⟩ : ∃ mem',
      modifyLoop pappMet (mem.allocated + 2) start mem false = some (mem', true) ∧
        Represents mem' (front ++ { binary with
          rows := before ++ (s, pappMet.over old) :: after } :: back) := by
    refine ⟨_, ?_, rep'⟩
    rw [enough, skipped, modifyLoop]
    simp only [there, named, if_true, modified]
    exact ended
  refine ⟨mem', ?_, rep''⟩
  unfold amModify
  simp only [begins, held, whole]

end InPlace

section Search

variable {pappMet pappMet' : StappMeteringStruct} {mem mem₂ : Memory} {subs : Heap Nat Stappsub}
  {fuel : Nat} {list front back : List Binary} {binary : Binary}
  {rows before after : List (Nat × Stappsub)} {a s : Nat} {sub found : Stappsub} {p : Option Nat}
  {uiappMeteringIndex : UInt32}

theorem searchRow_missing (segment : Segment subs (some a) ((a, sub) :: rows) none)
    (absent : ∀ row ∈ rows, row.2.uiappMeteringIndex ≠ uiappMeteringIndex)
    (enough : rows.length < fuel) :
    searchRow subs uiappMeteringIndex fuel (some a) = some none := by
  obtain ⟨rest, rfl⟩ := Nat.exists_eq_add_of_lt enough
  rw [← List.append_nil rows] at segment
  obtain ⟨_, ⟨_, _, held, rfl⟩, walked⟩ := segment.walkAhead
    (searchRow subs uiappMeteringIndex) (fun row member fuel b w next held ahead => by
      simp only [searchRow, held, ahead, absent row member, if_false]) (rest + 1)
  rw [Nat.add_assoc, walked]
  simp only [searchRow, held]

theorem searchRow_found
    (segment : Segment subs (some a) ((a, sub) :: (before ++ (s, found) :: after)) none)
    (absent : ∀ row ∈ before, row.2.uiappMeteringIndex ≠ uiappMeteringIndex)
    (here : found.uiappMeteringIndex = uiappMeteringIndex) (enough : before.length < fuel) :
    searchRow subs uiappMeteringIndex fuel (some a) = some (some found) := by
  obtain ⟨rest, rfl⟩ := Nat.exists_eq_add_of_lt enough
  obtain ⟨_, ⟨_, _, held, rfl, _, held', _⟩, walked⟩ := segment.walkAhead
    (searchRow subs uiappMeteringIndex) (fun row member fuel b w next held ahead => by
      simp only [searchRow, held, ahead, absent row member, if_false]) (rest + 1)
  rw [Nat.add_assoc, walked]
  simp only [searchRow, held, held', here, if_true]

theorem searchLoop_skip {xs : List (Nat × Stapp)} (rep : Represents mem list)
    (within : ∀ other ∈ front, other ∈ list)
    (segment : Segment mem.apps p (appCells front ++ xs) none)
    (absent : ∀ other ∈ front, ∀ row ∈ other.rows,
      row.2.uiappMeteringIndex ≠ pappMet.uiappMeteringIndex) (fuel : Nat) (freed : Bool) :
    ∃ q, Segment mem.apps q xs none ∧ searchLoop [] (front.length + fuel) p mem pappMet freed =
      searchLoop [] fuel q mem pappMet freed := by
  induction front generalizing p with
  | nil => exact ⟨p, segment, by rw [List.length_nil, Nat.zero_add]⟩
  | cons other front ih =>
    obtain ⟨rfl, next, held, rest⟩ := segment
    obtain ⟨q, behind, skipped⟩ := ih (fun later member => within later (by simp [member])) rest
      fun later member => absent later (List.mem_cons_of_mem _ member)
    refine ⟨q, behind, ?_⟩
    have member := within other List.mem_cons_self
    have length := rep.rows_length member
    rw [Binary.cells, List.length_cons] at length
    have missing : searchRow mem.subs pappMet.uiappMeteringIndex (mem.allocated + 2)
        (some other.dummy) = some none :=
      searchRow_missing (rep.rows other member) (absent other List.mem_cons_self) (by omega)
    rw [List.length_cons, Nat.add_right_comm, searchLoop]
    simp only [held, missing]
    exact skipped

theorem searchLoop_absent (rep : Represents mem list) (within : ∀ other ∈ front, other ∈ list)
    (segment : Segment mem.apps p (appCells front) none)
    (absent : ∀ other ∈ front, ∀ row ∈ other.rows,
      row.2.uiappMeteringIndex ≠ pappMet.uiappMeteringIndex)
    (enough : front.length < fuel) (freed : Bool) :
    searchLoop [] fuel p mem pappMet freed = some (mem, freed) := by
  obtain ⟨rest, rfl⟩ := Nat.exists_eq_add_of_lt enough
  rw [← List.append_nil (appCells front)] at segment
  obtain ⟨q, behind, skipped⟩ := searchLoop_skip rep within segment absent (rest + 1) freed
  rw [segment_nil] at behind
  subst behind
  rw [Nat.add_assoc, skipped]
  rfl

theorem Represents.set_allocated (rep : Represents mem list) {allocated : Nat}
    (more : mem.allocated ≤ allocated) : Represents { mem with allocated := allocated } list where
  begins := rep.begins
  rows := rep.rows
  apart := rep.apart
  fresh := fun a large => rep.fresh a (more.trans large)

theorem mallocText_spec (mem : Memory) (needed : Bool) :
    ∃ allocated, mem.allocated ≤ allocated ∧
      mallocText mem [] needed = some { mem with allocated := allocated } := by
  cases needed with
  | false => exact ⟨mem.allocated, Nat.le_refl _, rfl⟩
  | true => exact ⟨mem.allocated + 1, Nat.le_succ _, rfl⟩

/-- The event with the columns of the row that is found. -/
def StappMeteringStruct.taking (pappMet : StappMeteringStruct) (sub : Stappsub) :
    StappMeteringStruct :=
  { pappMet with
    istatus := sub.istatus
    iappMeteringReaction := sub.iappMeteringReaction
    pcalertmessage := pappMet.pcalertmessage.map fun _ => sub.pcalertmessage
    pcappMeteringID := pappMet.pcappMeteringID.map fun _ => sub.pcappMeteringID
    ulappMeteringEndTime := sub.ulappMeteringEndTime
    ulappMeteringStartTime := sub.ulappMeteringStartTime }

theorem taking_noID (noID : pappMet.pcappMeteringID = none) (sub : Stappsub) :
    (pappMet.taking sub).pcappMeteringID = none := by
  rw [StappMeteringStruct.taking, noID]
  rfl

theorem taking_row (noID : pappMet.pcappMeteringID = none) (last : Bool) :
    (pappMet.taking (pappMet.row last)).row last = pappMet.row last := by
  cases message : pappMet.pcalertmessage <;> cases last <;>
    simp [StappMeteringStruct.taking, StappMeteringStruct.row, noID, message]

theorem takeOver_spec (fitting : Fitting sub)
    (room : pappMet.pcalertmessage ≠ none → sub.pcalertmessage.length < pappMet.alertRoom) :
    takeOver pappMet sub = some (pappMet.taking sub) ∧ (pappMet.taking sub).Fits ∧
      ((pappMet.taking sub).pcalertmessage ≠ none →
        ((pappMet.taking sub).pcalertmessage.getD []).length <
          (pappMet.taking sub).alertRoom) := by
  have enough : ¬ (pappMet.pcalertmessage ≠ none ∧
      pappMet.alertRoom ≤ sub.pcalertmessage.length) := by
    intro both
    exact absurd (room both.1) (Nat.not_lt.mpr both.2)
  refine ⟨if_neg enough, ⟨?_, ?_⟩, ?_⟩
  · intro id member
    rcases Option.map_eq_some_iff.mp member with ⟨_, _, rfl⟩
    exact fitting.1
  · intro message member
    rcases Option.map_eq_some_iff.mp member with ⟨_, _, rfl⟩
    exact fitting.2
  · intro given
    cases own : pappMet.pcalertmessage with
    | none => simp [StappMeteringStruct.taking, own] at given
    | some message =>
      have long := room (by rw [own]; exact Option.some_ne_none _)
      simpa [StappMeteringStruct.taking, own] using long

theorem moveRow_steps (taken : takeOver pappMet sub = some pappMet') (bname : Text)
    (mem : Memory) :
    ∃ allocated, mem.allocated ≤ allocated ∧
      ∀ mem₂, amList { mem with allocated := allocated } pappMet' [] true = some mem₂ →
        moveRow mem pappMet [] bname sub =
          (amDelete { mem₂ with allocated := mem₂.allocated + 1 } bname
            pappMet'.uiappMeteringIndex).map fun mem => (mem, pappMet') := by
  obtain ⟨first, more, copied⟩ := mallocText_spec mem pappMet'.pcappMeteringID.isSome
  obtain ⟨second, more', copied'⟩ :=
    mallocText_spec { mem with allocated := first } pappMet'.pcappMeteringUsername
  refine ⟨second, more.trans more', ?_⟩
  intro mem₂ listed
  rw [moveRow]
  simp only [taken, copied, Option.bind_some, copied', listed]
  rfl

end Search

section Moving

variable {pappMet pappMet' : StappMeteringStruct} {mem mem' : Memory} {fuel : Nat} {sfind : Bool}
  {list list' front back front' back' mid : List Binary} {binary : Binary}
  {rows rows' before after : Rows} {s : Nat} {found : Stappsub} {p : Option Nat}

theorem RowPlaced.behind (placed : RowPlaced pappMet true (before ++ (s, found) :: after) rows)
    (early : ∀ row ∈ before, row.2.uiappMeteringIndex < pappMet.uiappMeteringIndex)
    (here : found.uiappMeteringIndex = pappMet.uiappMeteringIndex)
    (late : ∀ row ∈ after, pappMet.uiappMeteringIndex < row.2.uiappMeteringIndex) :
    ∃ newsub, rows = before ++ (s, found) :: (newsub, pappMet.row after.isEmpty) :: after := by
  generalize whole : before ++ (s, found) :: after = old at placed
  cases placed with
  | @inserted before' after' newsub passed later =>
    refine ⟨newsub, ?_⟩
    have greater : ∀ first rest, after' = first :: rest →
        pappMet.uiappMeteringIndex < first.2.uiappMeteringIndex := by
      rintro first rest rfl
      exact later first rfl
    rcases List.append_eq_append_iff.mp whole with ⟨l, rfl, tail⟩ | ⟨l, rfl, tail⟩
    · cases l with
      | nil =>
        rw [List.nil_append] at tail
        have least := greater _ _ tail.symm
        rw [here] at least
        exact absurd least (UInt32.lt_irrefl _)
      | cons first l =>
        obtain ⟨rfl, rfl⟩ := List.cons_eq_cons.mp tail
        cases l with
        | nil => simp
        | cons second l =>
          have passes := (passed second (by simp)).1
          exact absurd (late second (by simp)) passes
    · cases l with
      | nil =>
        rw [List.nil_append] at tail
        have least := greater _ _ tail
        rw [here] at least
        exact absurd least (UInt32.lt_irrefl _)
      | cons first l =>
        have least := greater _ _ tail
        have small := early first (by simp)
        exact absurd (UInt32.lt_trans least small) (UInt32.lt_irrefl _)
  | overwritten passed equal adds filled => cases adds

theorem Placed.around (placed : Placed pappMet sfind (front ++ binary :: back) list')
    (other : binary.name ≠ pappMet.pcappMeteringBinaryName) :
    (∃ front', Placed pappMet sfind front front' ∧ list' = front' ++ binary :: back) ∨
      ∃ back', Placed pappMet sfind back back' ∧ list' = front ++ binary :: back' := by
  generalize whole : front ++ binary :: back = list at placed
  cases placed with
  | @existing front₀ back₀ binary₀ rows₀ absent here placed =>
    rcases List.append_eq_append_iff.mp whole with ⟨l, rfl, tail⟩ | ⟨l, rfl, tail⟩
    · cases l with
      | nil =>
        obtain ⟨rfl, _⟩ := List.cons_eq_cons.mp tail
        exact absurd here other
      | cons first l =>
        obtain ⟨rfl, rfl⟩ := List.cons_eq_cons.mp tail
        right
        refine ⟨_, .existing (fun o member => absent o (by simp [member])) here placed, ?_⟩
        simp
    · cases l with
      | nil =>
        obtain ⟨rfl, _⟩ := List.cons_eq_cons.mp tail
        exact absurd here other
      | cons first l =>
        obtain ⟨rfl, rfl⟩ := List.cons_eq_cons.mp tail
        left
        refine ⟨_, .existing absent here placed, ?_⟩
        simp
  | @appended _ binary₀ absent here placed =>
    subst whole
    right
    refine ⟨back ++ [binary₀], .appended (fun o member => absent o (by simp [member])) here
      placed, ?_⟩
    simp

theorem searchLoop_move (rep : Represents mem list) (member : binary ∈ list)
    (split : binary.rows = before ++ (s, found) :: after)
    (absent : ∀ row ∈ before, row.2.uiappMeteringIndex ≠ pappMet.uiappMeteringIndex)
    (here : found.uiappMeteringIndex = pappMet.uiappMeteringIndex)
    (moved : moveRow mem pappMet [] binary.name found = some (mem', pappMet'))
    (rep' : Represents mem' (front' ++ { binary with rows := rows } :: back'))
    (noID : pappMet'.pcappMeteringID = none) (fuel : Nat) (freed : Bool) :
    ∃ q, Segment mem'.apps q (appCells back') none ∧
      searchLoop [] (fuel + 1) (some binary.node) mem pappMet freed =
        searchLoop [] fuel q mem' pappMet' freed := by
  obtain ⟨_, next, _, there⟩ := rep.app member
  obtain ⟨_, _, next', _, _, _, there', behind⟩ := rep'.around
  have length := rep.rows_length member
  have segment := rep.rows binary member
  rw [Binary.cells, split] at length segment
  simp only [List.length_cons, List.length_append] at length
  have row : searchRow mem.subs pappMet.uiappMeteringIndex (mem.allocated + 2)
      (some binary.dummy) = some (some found) :=
    searchRow_found segment absent here (by omega)
  have there'' : mem'.apps binary.node =
      some ⟨⟨binary.name, some binary.dummy⟩, next'⟩ := there'
  refine ⟨next', behind, ?_⟩
  rw [searchLoop]
  simp only [there, row, moved, there'', noID, Option.isSome_none, Bool.or_false]

theorem moveRow_again (rep : Represents mem (front ++ binary :: back))
    (tidy : Tidy (front ++ binary :: back))
    (here : binary.name = pappMet.pcappMeteringBinaryName)
    (split : binary.rows = before ++ (s, found) :: after)
    (index : found.uiappMeteringIndex = pappMet.uiappMeteringIndex)
    (room : pappMet.pcalertmessage ≠ none → found.pcalertmessage.length < pappMet.alertRoom) :
    ∃ mem' newsub,
      moveRow mem pappMet [] binary.name found = some (mem', pappMet.taking found) ∧
        Represents mem' (front ++
          { binary with
            rows := before ++ (newsub, (pappMet.taking found).row after.isEmpty) :: after } ::
              back) := by
  have ordered := tidy.middle.ordered
  rw [split] at ordered
  have inside : (s, found) ∈ before ++ (s, found) :: after := by simp
  have positive := ordered.positive (s, found) inside
  obtain ⟨early, late⟩ := ordered.split
  have fitting : Fitting found := ordered.fitting (s, found) inside
  obtain ⟨taken, fits, _⟩ := takeOver_spec fitting room
  obtain ⟨allocated, more, steps⟩ := moveRow_steps taken binary.name mem
  have others := tidy.others
  have absent : ∀ other ∈ front, other.name ≠ (pappMet.taking found).pcappMeteringBinaryName := by
    intro other member
    rw [show (pappMet.taking found).pcappMeteringBinaryName = binary.name from here.symm]
    exact others other (List.mem_append_left _ member)
  have named := tidy.middle.named
  change 0 < found.uiappMeteringIndex at positive
  rw [index] at positive early late
  rw [here] at named
  have listing : ∃ mem₂ rows,
      amList { mem with allocated := allocated } (pappMet.taking found) [] true = some mem₂ ∧
        Represents mem₂ (front ++ { binary with rows := rows } :: back) ∧
        RowPlaced (pappMet.taking found) true binary.rows rows :=
    amList_at (rep.set_allocated more) absent here named (.inr positive) fits true
  obtain ⟨mem₂, rows, listed, rep₂, placed⟩ := listing
  rw [split] at placed
  obtain ⟨newsub, rfl⟩ := placed.behind early index late
  obtain ⟨mem₃, deleted, rep₃⟩ := amDelete_found
    (rep₂.set_allocated (Nat.le_succ mem₂.allocated)) others rfl rfl
    (fun row member => UInt32.ne_of_lt (early row member)) index
  rw [if_neg (by simp)] at rep₃
  refine ⟨mem₃, newsub, ?_, rep₃⟩
  have deleted' : amDelete { mem₂ with allocated := mem₂.allocated + 1 } binary.name
      (pappMet.taking found).uiappMeteringIndex = some mem₃ := deleted
  rw [steps mem₂ listed, deleted', Option.map_some]

theorem moveRow_other (rep : Represents mem (front ++ binary :: back))
    (tidy : Tidy (front ++ binary :: back))
    (other : binary.name ≠ pappMet.pcappMeteringBinaryName)
    (named : pappMet.pcappMeteringBinaryName ≠ [])
    (short : pappMet.pcappMeteringBinaryName.length < arraySize)
    (new : ¬ Listed (front ++ binary :: back) pappMet.pcappMeteringBinaryName
      pappMet.uiappMeteringIndex)
    (split : binary.rows = before ++ (s, found) :: after)
    (index : found.uiappMeteringIndex = pappMet.uiappMeteringIndex)
    (filled : before ++ after ≠ [])
    (room : pappMet.pcalertmessage ≠ none → found.pcalertmessage.length < pappMet.alertRoom) :
    ∃ mem' front' back' last,
      moveRow mem pappMet [] binary.name found = some (mem', pappMet.taking found) ∧
      Represents mem' (front' ++ { binary with rows := before ++ after } :: back') ∧
      Tidy (front' ++ { binary with rows := before ++ after } :: back') ∧
      (last = true ↔ Below (front ++ binary :: back) pappMet.pcappMeteringBinaryName
        pappMet.uiappMeteringIndex) ∧
      (∀ name sub, Shown (front' ++ { binary with rows := before ++ after } :: back') name sub ↔
        (Shown (front ++ binary :: back) name sub ∧
            ¬ (name = binary.name ∧ sub.uiappMeteringIndex = pappMet.uiappMeteringIndex)) ∨
          (name = pappMet.pcappMeteringBinaryName ∧ sub = (pappMet.taking found).row last)) ∧
      (back' = back ∨ front' = front ∧ Placed (pappMet.taking found) true back back') := by
  have ordered := tidy.middle.ordered
  rw [split] at ordered
  have inside : (s, found) ∈ before ++ (s, found) :: after := by simp
  have positive := ordered.positive (s, found) inside
  obtain ⟨early, _⟩ := ordered.split
  have fitting : Fitting found := ordered.fitting (s, found) inside
  obtain ⟨taken, fits, _⟩ := takeOver_spec fitting room
  obtain ⟨allocated, more, steps⟩ := moveRow_steps taken binary.name mem
  change 0 < found.uiappMeteringIndex at positive
  rw [index] at positive early
  have named' : (pappMet.taking found).pcappMeteringBinaryName ≠ [] := named
  have listing : ∃ mem₂ list',
      amList { mem with allocated := allocated } (pappMet.taking found) [] true = some mem₂ ∧
        Represents mem₂ list' ∧
        Placed (pappMet.taking found) true (front ++ binary :: back) list' :=
    amList_spec (rep.set_allocated more) named' short (.inr positive) fits true
  obtain ⟨mem₂, list', listed, rep₂, placed⟩ := listing
  have tidy' := (placed.added fits).tidy tidy named positive fun _ => new
  obtain ⟨last, ended, shown⟩ := placed.shown tidy
  obtain ⟨front', back', rfl, around⟩ : ∃ front' back', list' = front' ++ binary :: back' ∧
      (back' = back ∨ front' = front ∧ Placed (pappMet.taking found) true back back') := by
    rcases placed.around other with ⟨front', _, whole⟩ | ⟨back', placed', whole⟩
    · exact ⟨front', back, whole, .inl rfl⟩
    · exact ⟨front, back', whole, .inr ⟨rfl, placed'⟩⟩
  obtain ⟨mem₃, deleted, rep₃⟩ := amDelete_found
    (rep₂.set_allocated (Nat.le_succ mem₂.allocated)) tidy'.others rfl split
    (fun row member => UInt32.ne_of_lt (early row member)) index
  obtain ⟨tidy₃, _⟩ := tidy'.delete split
  rw [if_neg filled] at rep₃ tidy₃
  refine ⟨mem₃, front', back', last, ?_, rep₃, tidy₃, ended, ?_, around⟩
  · have deleted' : amDelete { mem₂ with allocated := mem₂.allocated + 1 } binary.name
        (pappMet.taking found).uiappMeteringIndex = some mem₃ := deleted
    rw [steps mem₂ listed, deleted', Option.map_some]
  · intro name sub
    rw [shown_drop tidy' split, shown, index]
    constructor
    · intro here
      rcases here with ⟨old | new, differs⟩
      · exact .inl ⟨old, differs⟩
      · exact .inr new
    · intro here
      rcases here with ⟨old, differs⟩ | ⟨rfl, rfl⟩
      · exact ⟨.inl old, differs⟩
      · exact ⟨.inr ⟨rfl, rfl⟩, fun same => other same.1.symm⟩

theorem searchLoop_again (rep : Represents mem (front ++ binary :: back))
    (tidy : Tidy (front ++ binary :: back))
    (here : binary.name = pappMet.pcappMeteringBinaryName)
    (split : binary.rows = before ++ (s, found) :: after)
    (index : found.uiappMeteringIndex = pappMet.uiappMeteringIndex)
    (noID : pappMet.pcappMeteringID = none)
    (room : pappMet.pcalertmessage ≠ none → found.pcalertmessage.length < pappMet.alertRoom)
    (within : ∀ other ∈ mid, other ∈ front)
    (segment : Segment mem.apps p (appCells (mid ++ binary :: back)) none)
    (absent : ∀ other ∈ mid ++ back, ∀ row ∈ other.rows,
      row.2.uiappMeteringIndex ≠ pappMet.uiappMeteringIndex)
    (enough : mid.length + back.length + 1 < fuel) (freed : Bool) :
    ∃ mem' newsub, searchLoop [] fuel p mem pappMet freed = some (mem', freed) ∧
      Represents mem' (front ++
        { binary with
          rows := before ++ (newsub, (pappMet.taking found).row after.isEmpty) :: after } ::
            back) := by
  have ordered := tidy.middle.ordered
  rw [split] at ordered
  obtain ⟨early, _⟩ := ordered.split
  rw [index] at early
  obtain ⟨fuel, rfl⟩ : ∃ rest, fuel = mid.length + (rest + 1) :=
    ⟨fuel - mid.length - 1, by omega⟩
  rw [appCells_append] at segment
  obtain ⟨q, behind, skipped⟩ := searchLoop_skip rep
    (fun other member => List.mem_append_left _ (within other member)) segment
    (fun other member => absent other (List.mem_append_left _ member)) (fuel + 1) freed
  obtain ⟨rfl, _⟩ := behind
  obtain ⟨mem', newsub, moved, rep'⟩ := moveRow_again rep tidy here split index room
  obtain ⟨q, rest, gone⟩ := searchLoop_move rep (by simp) split
    (fun row member => UInt32.ne_of_lt (early row member)) index moved rep'
    (taking_noID noID found) fuel freed
  refine ⟨mem', newsub, ?_, rep'⟩
  rw [skipped, gone]
  refine searchLoop_absent rep' ?_ rest ?_ (by omega) freed
  · intro other member
    simp [member]
  · intro other member row inside
    exact absent other (List.mem_append_right _ member) row inside

theorem RowPlaced.place (placed : RowPlaced pappMet true rows rows') :
    ∃ before newsub after,
      rows' = before ++ (newsub, pappMet.row after.isEmpty) :: after := by
  cases placed with
  | inserted passed later => exact ⟨_, _, _, rfl⟩
  | overwritten passed equal adds filled => cases adds

theorem Placed.place (placed : Placed pappMet true list list') :
    ∃ front binary back before newsub after, list' = front ++ binary :: back ∧
      binary.name = pappMet.pcappMeteringBinaryName ∧
      binary.rows = before ++ (newsub, pappMet.row after.isEmpty) :: after ∧
      (∀ other ∈ front ++ back, other ∈ list) ∧ front.length + back.length ≤ list.length := by
  cases placed with
  | @existing front back binary rows absent here placed =>
    obtain ⟨before, newsub, after, rfl⟩ := placed.place
    refine ⟨front, _, back, before, newsub, after, rfl, here, rfl, ?_, ?_⟩
    · intro other member
      rcases List.mem_append.mp member with member | member
      · exact List.mem_append_left _ member
      · exact List.mem_append_right _ (List.mem_cons_of_mem _ member)
    · simp only [List.length_append, List.length_cons]
      omega
  | @appended _ binary absent here placed =>
    obtain ⟨before, newsub, after, split⟩ := placed.place
    refine ⟨list, binary, [], before, newsub, after, rfl, here, split, ?_, Nat.le_refl _⟩
    intro other member
    rwa [List.append_nil] at member

theorem searchLoop_other (rep : Represents mem (front ++ binary :: back))
    (tidy : Tidy (front ++ binary :: back))
    (other : binary.name ≠ pappMet.pcappMeteringBinaryName)
    (named : pappMet.pcappMeteringBinaryName ≠ [])
    (short : pappMet.pcappMeteringBinaryName.length < arraySize)
    (absent : ∀ other ∈ front ++ back, ∀ row ∈ other.rows,
      row.2.uiappMeteringIndex ≠ pappMet.uiappMeteringIndex)
    (split : binary.rows = before ++ (s, found) :: after)
    (index : found.uiappMeteringIndex = pappMet.uiappMeteringIndex)
    (filled : before ++ after ≠ []) (noID : pappMet.pcappMeteringID = none)
    (room : pappMet.pcalertmessage ≠ none → found.pcalertmessage.length < pappMet.alertRoom)
    (segment : Segment mem.apps p (appCells (front ++ binary :: back)) none)
    (enough : front.length + back.length + 2 < fuel) (freed : Bool) :
    ∃ mem' list' last, searchLoop [] fuel p mem pappMet freed = some (mem', freed) ∧
      Represents mem' list' ∧ Tidy list' ∧
      (last = true ↔ Below (front ++ binary :: back) pappMet.pcappMeteringBinaryName
        pappMet.uiappMeteringIndex) ∧
      ∀ name sub, Shown list' name sub ↔
        (Shown (front ++ binary :: back) name sub ∧
            ¬ (name = binary.name ∧ sub.uiappMeteringIndex = pappMet.uiappMeteringIndex)) ∨
          (name = pappMet.pcappMeteringBinaryName ∧ sub = (pappMet.taking found).row last) := by
  have new : ¬ Listed (front ++ binary :: back) pappMet.pcappMeteringBinaryName
      pappMet.uiappMeteringIndex := by
    rw [listed_middle]
    rintro (⟨same, _⟩ | ⟨holder, member, _, row, inside, equal⟩)
    · exact other same
    · exact absent holder member row inside equal
  have ordered := tidy.middle.ordered
  rw [split] at ordered
  have inside : (s, found) ∈ before ++ (s, found) :: after := by simp
  have fitting : Fitting found := ordered.fitting (s, found) inside
  obtain ⟨_, _, room'⟩ := takeOver_spec fitting room
  obtain ⟨early, _⟩ := ordered.split
  rw [index] at early
  obtain ⟨fuel, rfl⟩ : ∃ rest, fuel = front.length + (rest + 1) :=
    ⟨fuel - front.length - 1, by omega⟩
  rw [appCells_append] at segment
  obtain ⟨q, behind, skipped⟩ := searchLoop_skip rep
    (fun other member => List.mem_append_left _ member) segment
    (fun other member => absent other (List.mem_append_left _ member)) (fuel + 1) freed
  obtain ⟨rfl, _⟩ := behind
  obtain ⟨mem₁, front₁, back₁, last, moved, rep₁, tidy₁, ended, shown, around⟩ :=
    moveRow_other rep tidy other named short new split index filled room
  have noID' := taking_noID noID found
  obtain ⟨q, rest, gone⟩ := searchLoop_move rep (by simp) split
    (fun row member => UInt32.ne_of_lt (early row member)) index moved rep₁ noID' fuel freed
  rw [skipped, gone]
  rcases around with rfl | ⟨rfl, placed⟩
  · refine ⟨mem₁, _, last, ?_, rep₁, tidy₁, ended, shown⟩
    refine searchLoop_absent rep₁ ?_ rest ?_ (by omega) freed
    · intro other member
      simp [member]
    · intro other member row inside
      exact absent other (List.mem_append_right _ member) row inside
  · obtain ⟨mid, target, behind, before₂, newsub, after₂, rfl, here, split₂, old, length⟩ :=
      placed.place
    have shifted : front₁ ++ { binary with rows := before ++ after } :: (mid ++ target :: behind) =
        (front₁ ++ { binary with rows := before ++ after } :: mid) ++ target :: behind := by
      simp
    rw [shifted] at rep₁ tidy₁ shown
    have enough' : mid.length + behind.length + 1 < fuel := by omega
    obtain ⟨mem₂, newsub₂, ran, rep₂⟩ := searchLoop_again rep₁ tidy₁ here split₂ rfl noID'
      room' (by simp +contextual) rest (by
        intro other member row inside
        exact absent other (List.mem_append_right _ (old other member)) row inside)
      enough' freed
    rw [taking_row noID'] at rep₂
    have held : (newsub, (pappMet.taking found).row after₂.isEmpty) ∈ target.rows := by
      rw [split₂]
      exact List.mem_append_right _ List.mem_cons_self
    obtain ⟨tidy₂, _⟩ :=
      tidy₁.exchange split₂ rfl (tidy₁.middle.ordered.fitting _ held) newsub₂
    refine ⟨mem₂, _, last, ran, rep₂, tidy₂, ended, fun name sub => ?_⟩
    rw [shown_exchange split₂, shown]

theorem searchList_absent (rep : Represents mem list)
    (absent : ∀ other ∈ list, ∀ row ∈ other.rows,
      row.2.uiappMeteringIndex ≠ pappMet.uiappMeteringIndex) :
    searchList mem pappMet [] = some ({ mem with allocated := mem.allocated + 1 }, false) := by
  have rep' := rep.set_allocated (Nat.le_succ mem.allocated)
  unfold searchList
  simp only [malloc, List.not_mem_nil, if_false]
  cases begins : mem.head with
  | none => rfl
  | some head =>
    have length := rep.list_length begins
    obtain ⟨_, start, held, rest⟩ := rep.segment begins
    have enough : list.length < mem.allocated + 1 + 2 := by omega
    have ended := searchLoop_absent rep' (fun _ => id) rest absent enough false
    simp only [held]
    rwa [begins] at ended

theorem searchList_other (rep : Represents mem (front ++ binary :: back))
    (tidy : Tidy (front ++ binary :: back))
    (other : binary.name ≠ pappMet.pcappMeteringBinaryName)
    (named : pappMet.pcappMeteringBinaryName ≠ [])
    (short : pappMet.pcappMeteringBinaryName.length < arraySize)
    (absent : ∀ other ∈ front ++ back, ∀ row ∈ other.rows,
      row.2.uiappMeteringIndex ≠ pappMet.uiappMeteringIndex)
    (split : binary.rows = before ++ (s, found) :: after)
    (index : found.uiappMeteringIndex = pappMet.uiappMeteringIndex)
    (filled : before ++ after ≠ []) (noID : pappMet.pcappMeteringID = none)
    (room : pappMet.pcalertmessage ≠ none → found.pcalertmessage.length < pappMet.alertRoom) :
    ∃ mem' list' last, searchList mem pappMet [] = some (mem', false) ∧
      Represents mem' list' ∧ Tidy list' ∧
      (last = true ↔ Below (front ++ binary :: back) pappMet.pcappMeteringBinaryName
        pappMet.uiappMeteringIndex) ∧
      ∀ name sub, Shown list' name sub ↔
        (Shown (front ++ binary :: back) name sub ∧
            ¬ (name = binary.name ∧ sub.uiappMeteringIndex = pappMet.uiappMeteringIndex)) ∨
          (name = pappMet.pcappMeteringBinaryName ∧ sub = (pappMet.taking found).row last) := by
  have rep' := rep.set_allocated (Nat.le_succ mem.allocated)
  obtain ⟨head, start, _, begins, held, segment, _, _⟩ := rep'.around
  have length := rep.list_length begins
  rw [List.length_append, List.length_cons] at length
  have segment' : Segment mem.apps start (appCells (front ++ binary :: back)) none := by
    rw [appCells_append]
    exact segment
  have enough : front.length + back.length + 2 < mem.allocated + 1 + 2 := by omega
  obtain ⟨mem', list', last, ran, rest⟩ := searchLoop_other rep' tidy other named short absent split
    index filled noID room segment' enough false
  refine ⟨mem', list', last, ?_, rest⟩
  have begins' : mem.head = some head := begins
  have held' : mem.apps head = some ⟨⟨[], none⟩, start⟩ := held
  unfold searchList
  simp only [malloc, List.not_mem_nil, if_false, begins', held']
  rwa [begins'] at ran

end Moving

end EveAgent.AppMetering
