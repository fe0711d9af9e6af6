import EveAgent.AppMetering.Updates

namespace EveAgent.AppMetering

section Tidy

abbrev Rows := List (Nat × Stappsub)

/-- The rows are in strict order of their indices, which are not zero. -/
structure Ordered (rows : Rows) : Prop where
  sorted : rows.Pairwise fun row row' => row.2.uiappMeteringIndex < row'.2.uiappMeteringIndex
  positive : ∀ row ∈ rows, 0 < row.2.uiappMeteringIndex
  fitting : ∀ row ∈ rows, Fitting row.2

structure Neat (binary : Binary) : Prop where
  named : binary.name ≠ []
  filled : binary.rows ≠ []
  ordered : Ordered binary.rows

structure Tidy (list : List Binary) : Prop where
  distinct : (list.map Binary.name).Nodup
  neat : ∀ binary ∈ list, Neat binary

def Indexed (rows : Rows) (uiappMeteringIndex : UInt32) : Prop :=
  ∃ row ∈ rows, row.2.uiappMeteringIndex = uiappMeteringIndex

def Listed (list : List Binary) (name : Text) (uiappMeteringIndex : UInt32) : Prop :=
  ∃ binary ∈ list, binary.name = name ∧ Indexed binary.rows uiappMeteringIndex

variable {list list' front back : List Binary} {binary binary' : Binary} {rows rows' : Rows}
  {before after : Rows} {a s : Nat} {sub old : Stappsub} {pappMet : StappMeteringStruct}
  {sfind : Bool} {name : Text} {j : UInt32}

theorem indexed_append : Indexed (before ++ after) j ↔ Indexed before j ∨ Indexed after j := by
  simp only [Indexed, List.mem_append, or_and_right, exists_or]

theorem indexed_cons : Indexed ((a, sub) :: rows) j ↔
    sub.uiappMeteringIndex = j ∨ Indexed rows j := by
  simp [Indexed]

theorem not_indexed : ¬ Indexed rows j ↔ ∀ row ∈ rows, row.2.uiappMeteringIndex ≠ j := by
  simp [Indexed]

theorem listed_append : Listed (front ++ back) name j ↔
    Listed front name j ∨ Listed back name j := by
  simp only [Listed, List.mem_append, or_and_right, exists_or]

theorem listed_cons : Listed (binary :: back) name j ↔
    (binary.name = name ∧ Indexed binary.rows j) ∨ Listed back name j := by
  simp [Listed]

theorem listed_middle : Listed (front ++ binary :: back) name j ↔
    (binary.name = name ∧ Indexed binary.rows j) ∨ Listed (front ++ back) name j := by
  rw [listed_append, listed_cons, listed_append]
  tauto

theorem not_listed : ¬ Listed list name j ↔ ∀ other ∈ list, other.name = name →
    ∀ row ∈ other.rows, row.2.uiappMeteringIndex ≠ j := by
  simp [Listed, not_indexed]

theorem Ordered.split (ordered : Ordered (before ++ (s, sub) :: after)) :
    (∀ row ∈ before, row.2.uiappMeteringIndex < sub.uiappMeteringIndex) ∧
      ∀ row ∈ after, sub.uiappMeteringIndex < row.2.uiappMeteringIndex := by
  obtain ⟨_, behind, across⟩ := List.pairwise_append.mp ordered.sorted
  exact ⟨fun row member => across row member _ List.mem_cons_self,
    (List.pairwise_cons.mp behind).1⟩

theorem Ordered.join (ordered : Ordered (before ++ after))
    (early : ∀ row ∈ before, row.2.uiappMeteringIndex < sub.uiappMeteringIndex)
    (late : ∀ row ∈ after, sub.uiappMeteringIndex < row.2.uiappMeteringIndex)
    (positive : 0 < sub.uiappMeteringIndex) (fitting : Fitting sub) :
    Ordered (before ++ (s, sub) :: after) := by
  obtain ⟨front, behind, across⟩ := List.pairwise_append.mp ordered.sorted
  constructor
  · refine List.pairwise_append.mpr ⟨front, List.pairwise_cons.mpr ⟨late, behind⟩, ?_⟩
    intro row member row' member'
    rcases List.mem_cons.mp member' with rfl | member'
    · exact early row member
    · exact across row member row' member'
  · intro row member
    rcases List.mem_append.mp member with member | member
    · exact ordered.positive row (List.mem_append_left _ member)
    · rcases List.mem_cons.mp member with rfl | member
      · exact positive
      · exact ordered.positive row (List.mem_append_right _ member)
  · intro row member
    rcases List.mem_append.mp member with member | member
    · exact ordered.fitting row (List.mem_append_left _ member)
    · rcases List.mem_cons.mp member with rfl | member
      · exact fitting
      · exact ordered.fitting row (List.mem_append_right _ member)

theorem Ordered.sublist (ordered : Ordered rows) (part : rows'.Sublist rows) :
    Ordered rows' where
  sorted := ordered.sorted.sublist part
  positive := fun row member => ordered.positive row (part.subset member)
  fitting := fun row member => ordered.fitting row (part.subset member)

theorem Ordered.drop (ordered : Ordered (before ++ (s, sub) :: after)) :
    Ordered (before ++ after) :=
  ordered.sublist (List.Sublist.append (List.Sublist.refl _) (List.sublist_cons_self _ _))

theorem ordered_nil : Ordered [] := ⟨List.Pairwise.nil, by simp, by simp⟩

theorem RowAdded.ordered (added : RowAdded pappMet sfind rows rows') (ordered : Ordered rows)
    (positive : 0 < pappMet.uiappMeteringIndex)
    (new : sfind = true → ¬ Indexed rows pappMet.uiappMeteringIndex) : Ordered rows' := by
  cases added with
  | @inserted before after newsub sub passed later index message fitting =>
    have differs : ∀ row ∈ before, row.2.uiappMeteringIndex ≠ pappMet.uiappMeteringIndex := by
      intro row member equal
      cases sfind with
      | true => exact new rfl ⟨row, List.mem_append_left _ member, equal⟩
      | false => exact (passed row member).2 ⟨equal, rfl⟩
    rw [← index] at differs passed later positive
    apply ordered.join _ _ positive fitting
    · intro row member
      exact UInt32.lt_of_le_of_ne (UInt32.not_lt.mp (passed row member).1) (differs row member)
    · intro row member
      cases after with
      | nil => cases member
      | cons first rest =>
        have greater : sub.uiappMeteringIndex < first.2.uiappMeteringIndex :=
          later first rfl
        rcases List.mem_cons.mp member with rfl | member
        · exact greater
        · have behind := (List.pairwise_append.mp ordered.sorted).2.1
          exact UInt32.lt_trans greater ((List.pairwise_cons.mp behind).1 row member)
  | @overwritten before after submove old sub passed equal adds index fitting =>
    obtain ⟨early, late⟩ := ordered.split
    rw [equal, ← index] at early late
    rw [← index] at positive
    exact ordered.drop.join early late positive
      (fitting (ordered.fitting (submove, old) (by simp)))

theorem RowAdded.indexed (added : RowAdded pappMet sfind rows rows') :
    Indexed rows' j ↔ Indexed rows j ∨ j = pappMet.uiappMeteringIndex := by
  cases added with
  | inserted passed later index message fitting =>
    rw [indexed_append, indexed_append, indexed_cons, index]
    tauto
  | overwritten passed equal adds index fitting =>
    rw [indexed_append, indexed_append, indexed_cons, indexed_cons, index, equal]
    tauto

theorem RowAdded.filled (added : RowAdded pappMet sfind rows rows') : rows' ≠ [] := by
  cases added with
  | inserted => simp
  | overwritten => simp

theorem Tidy.others (tidy : Tidy (front ++ binary :: back)) :
    ∀ other ∈ front ++ back, other.name ≠ binary.name := by
  have distinct := tidy.distinct
  rw [List.map_append, List.map_cons, List.nodup_middle, List.nodup_cons, ← List.map_append]
    at distinct
  intro other member equal
  exact distinct.1 (equal ▸ List.mem_map_of_mem member)

theorem Tidy.middle (tidy : Tidy (front ++ binary :: back)) : Neat binary :=
  tidy.neat binary (by simp)

theorem Tidy.replace (tidy : Tidy (front ++ binary :: back)) (same : binary'.name = binary.name)
    (neat : Neat binary') : Tidy (front ++ binary' :: back) where
  distinct := by
    have distinct := tidy.distinct
    rw [List.map_append, List.map_cons] at distinct ⊢
    rwa [same]
  neat := by
    intro other member
    rcases List.mem_append.mp member with member | member
    · exact tidy.neat other (List.mem_append_left _ member)
    · rcases List.mem_cons.mp member with rfl | member
      · exact neat
      · exact tidy.neat other (List.mem_append_right _ (List.mem_cons_of_mem _ member))

theorem Tidy.sublist (tidy : Tidy list) (part : list'.Sublist list) : Tidy list' where
  distinct := tidy.distinct.sublist (part.map _)
  neat := fun other member => tidy.neat other (part.subset member)

theorem Tidy.drop (tidy : Tidy (front ++ binary :: back)) : Tidy (front ++ back) :=
  tidy.sublist (List.Sublist.append (List.Sublist.refl _) (List.sublist_cons_self _ _))

theorem Tidy.concat (tidy : Tidy list) (absent : ∀ other ∈ list, other.name ≠ binary.name)
    (neat : Neat binary) : Tidy (list ++ [binary]) where
  distinct := by
    rw [List.map_append, List.map_singleton, List.nodup_append]
    refine ⟨tidy.distinct, List.nodup_singleton _, ?_⟩
    intro name member name' member'
    obtain ⟨other, listed, rfl⟩ := List.mem_map.mp member
    obtain rfl := List.mem_singleton.mp member'
    exact absent other listed
  neat := by
    intro other member
    rcases List.mem_append.mp member with member | member
    · exact tidy.neat other member
    · obtain rfl := List.mem_singleton.mp member
      exact neat

theorem tidy_nil : Tidy [] := ⟨List.nodup_nil, by simp⟩

theorem Added.tidy (added : Added pappMet sfind list list') (tidy : Tidy list)
    (named : pappMet.pcappMeteringBinaryName ≠ []) (positive : 0 < pappMet.uiappMeteringIndex)
    (new : sfind = true →
      ¬ Listed list pappMet.pcappMeteringBinaryName pappMet.uiappMeteringIndex) : Tidy list' := by
  cases added with
  | @existing front back binary rows absent here added =>
    refine tidy.replace ?_ ⟨tidy.middle.named, added.filled,
      added.ordered tidy.middle.ordered positive ?_⟩
    · rfl
    intro again indexed
    exact new again (listed_middle.mpr (.inl ⟨here, indexed⟩))
  | @appended _ binary absent here added =>
    rw [← here] at named absent
    apply tidy.concat absent
    exact ⟨named, added.filled, added.ordered ordered_nil positive fun _ => by simp [Indexed]⟩

theorem Added.listed (added : Added pappMet sfind list list') :
    Listed list' name j ↔ Listed list name j ∨
      (name = pappMet.pcappMeteringBinaryName ∧ j = pappMet.uiappMeteringIndex) := by
  cases added with
  | existing absent here added =>
    rw [listed_middle, listed_middle, added.indexed]
    constructor
    · rintro (⟨rfl, indexed | rfl⟩ | listed)
      · exact .inl (.inl ⟨rfl, indexed⟩)
      · exact .inr ⟨here, rfl⟩
      · exact .inl (.inr listed)
    · rintro ((⟨rfl, indexed⟩ | listed) | ⟨rfl, rfl⟩)
      · exact .inl ⟨rfl, .inl indexed⟩
      · exact .inr listed
      · exact .inl ⟨here, .inr rfl⟩
  | appended absent here added =>
    rw [listed_append, listed_cons, added.indexed]
    simp only [Listed, Indexed, List.not_mem_nil, false_and, exists_false, false_or, or_false]
    rw [here, eq_comm]

theorem Tidy.split (tidy : Tidy list) (listed : Listed list name j) :
    ∃ front binary back before a sub after, list = front ++ binary :: back ∧
      binary.name = name ∧ binary.rows = before ++ (a, sub) :: after ∧
      sub.uiappMeteringIndex = j ∧
      (∀ row ∈ before ++ after, row.2.uiappMeteringIndex ≠ j) ∧
      ∀ other ∈ front ++ back, other.name ≠ name := by
  obtain ⟨binary, member, rfl, ⟨a, sub⟩, inside, rfl⟩ := listed
  obtain ⟨front, back, rfl⟩ := List.append_of_mem member
  obtain ⟨before, after, split⟩ := List.append_of_mem inside
  have ordered := tidy.middle.ordered
  rw [split] at ordered
  obtain ⟨early, late⟩ := ordered.split
  refine ⟨front, binary, back, before, a, sub, after, rfl, rfl, split, rfl, ?_, tidy.others⟩
  intro row member
  rcases List.mem_append.mp member with member | member
  · exact UInt32.ne_of_lt (early row member)
  · exact (UInt32.ne_of_lt (late row member)).symm

theorem Tidy.exchange (tidy : Tidy (front ++ binary :: back))
    (split : binary.rows = before ++ (a, old) :: after)
    (same : sub.uiappMeteringIndex = old.uiappMeteringIndex) (fitting : Fitting sub) (s : Nat) :
    Tidy (front ++ { binary with rows := before ++ (s, sub) :: after } :: back) ∧
      ∀ name j, Listed (front ++ { binary with rows := before ++ (s, sub) :: after } :: back)
        name j ↔ Listed (front ++ binary :: back) name j := by
  have ordered := tidy.middle.ordered
  rw [split] at ordered
  obtain ⟨early, late⟩ := ordered.split
  have positive := ordered.positive (a, old) (by simp)
  change 0 < old.uiappMeteringIndex at positive
  rw [← same] at early late positive
  constructor
  · refine tidy.replace ?_ ⟨tidy.middle.named, ?_, ordered.drop.join early late positive fitting⟩
    · rfl
    · simp
  · intro name j
    rw [listed_middle, listed_middle, split, indexed_append, indexed_cons, indexed_append,
      indexed_cons, same]

theorem Tidy.delete (tidy : Tidy (front ++ binary :: back))
    (split : binary.rows = before ++ (a, old) :: after) :
    Tidy (if before ++ after = [] then front ++ back
      else front ++ { binary with rows := before ++ after } :: back) ∧
      ∀ name j, Listed (if before ++ after = [] then front ++ back
        else front ++ { binary with rows := before ++ after } :: back) name j ↔
          Listed (front ++ binary :: back) name j ∧
            ¬ (name = binary.name ∧ j = old.uiappMeteringIndex) := by
  have ordered := tidy.middle.ordered
  rw [split] at ordered
  obtain ⟨early, late⟩ := ordered.split
  have unlisted : ∀ j, ¬ Listed (front ++ back) binary.name j := by
    rintro j ⟨other, member, equal, _⟩
    exact tidy.others other member equal
  have others : ∀ j, Indexed (before ++ after) j ↔
      Indexed binary.rows j ∧ j ≠ old.uiappMeteringIndex := by
    intro j
    rw [split, indexed_append, indexed_append, indexed_cons]
    constructor
    · rintro (⟨row, member, rfl⟩ | ⟨row, member, rfl⟩)
      · exact ⟨.inl ⟨row, member, rfl⟩, UInt32.ne_of_lt (early row member)⟩
      · exact ⟨.inr (.inr ⟨row, member, rfl⟩), (UInt32.ne_of_lt (late row member)).symm⟩
    · rintro ⟨indexed | rfl | indexed, differs⟩
      · exact .inl indexed
      · exact absurd rfl differs
      · exact .inr indexed
  have listed : ∀ name j,
      ((binary.name = name ∧ Indexed (before ++ after) j) ∨ Listed (front ++ back) name j) ↔
        Listed (front ++ binary :: back) name j ∧
          ¬ (name = binary.name ∧ j = old.uiappMeteringIndex) := by
    intro name j
    rw [listed_middle, others]
    constructor
    · rintro (⟨rfl, indexed, differs⟩ | listed)
      · exact ⟨.inl ⟨rfl, indexed⟩, fun same => differs same.2⟩
      · refine ⟨.inr listed, ?_⟩
        rintro ⟨rfl, _⟩
        exact unlisted j listed
    · rintro ⟨⟨rfl, indexed⟩ | listed, differs⟩
      · exact .inl ⟨rfl, indexed, fun same => differs ⟨rfl, same⟩⟩
      · exact .inr listed
  by_cases empty : before ++ after = []
  · rw [if_pos empty]
    refine ⟨tidy.drop, fun name j => ?_⟩
    rw [← listed name j, empty]
    simp [Indexed]
  · rw [if_neg empty]
    refine ⟨tidy.replace ?_ ⟨tidy.middle.named, empty, ordered.drop⟩, fun name j => ?_⟩
    · rfl
    rw [listed_middle]
    exact listed name j

end Tidy

section Shown

/-- The list has the row with these columns, under the name. -/
def Shown (list : List Binary) (name : Text) (sub : Stappsub) : Prop :=
  ∃ binary ∈ list, binary.name = name ∧ ∃ row ∈ binary.rows, row.2 = sub

/-- No row of a binary with the name comes behind the index. -/
def Below (list : List Binary) (name : Text) (uiappMeteringIndex : UInt32) : Prop :=
  ∀ binary ∈ list, binary.name = name → ∀ row ∈ binary.rows,
    ¬ row.2.uiappMeteringIndex > uiappMeteringIndex

variable {list list' front back : List Binary} {binary : Binary} {before after : Rows}
  {a s : Nat} {sub found : Stappsub} {pappMet : StappMeteringStruct} {name : Text} {j : UInt32}

theorem listed_iff :
    Listed list name j ↔ ∃ sub, Shown list name sub ∧ sub.uiappMeteringIndex = j := by
  constructor
  · intro listed
    rcases listed with ⟨binary, member, here, row, inside, index⟩
    exact ⟨row.2, ⟨binary, member, here, row, inside, rfl⟩, index⟩
  · intro shown
    rcases shown with ⟨sub, ⟨binary, member, here, row, inside, same⟩, index⟩
    exact ⟨binary, member, here, row, inside, by rw [same]; exact index⟩

theorem shown_append : Shown (front ++ back) name sub ↔
    Shown front name sub ∨ Shown back name sub := by
  simp only [Shown, List.mem_append, or_and_right, exists_or]

theorem shown_cons : Shown (binary :: back) name sub ↔
    (binary.name = name ∧ ∃ row ∈ binary.rows, row.2 = sub) ∨ Shown back name sub := by
  simp [Shown]

theorem shown_middle : Shown (front ++ binary :: back) name sub ↔
    (binary.name = name ∧ ∃ row ∈ binary.rows, row.2 = sub) ∨ Shown (front ++ back) name sub := by
  rw [shown_append, shown_cons, shown_append]
  exact or_left_comm

theorem exists_row_middle (s : Nat) (found : Stappsub) :
    (∃ row ∈ before ++ (s, found) :: after, row.2 = sub) ↔
      (∃ row ∈ before ++ after, row.2 = sub) ∨ sub = found := by
  simp only [List.mem_append, List.mem_cons, or_and_right, exists_or, exists_eq_left]
  rw [@eq_comm _ sub, or_assoc]
  exact or_congr_right or_comm

theorem shown_exchange (split : binary.rows = before ++ (a, found) :: after) (s : Nat) :
    Shown (front ++ { binary with rows := before ++ (s, found) :: after } :: back) name sub ↔
      Shown (front ++ binary :: back) name sub := by
  rw [shown_middle, shown_middle, split, exists_row_middle, exists_row_middle]

theorem Ordered.others (ordered : Ordered (before ++ (a, found) :: after)) :
    ∀ row ∈ before ++ after, row.2.uiappMeteringIndex ≠ found.uiappMeteringIndex := by
  rcases ordered.split with ⟨early, late⟩
  intro row member
  rcases List.mem_append.mp member with member | member
  · exact UInt32.ne_of_lt (early row member)
  · exact (UInt32.ne_of_lt (late row member)).symm

theorem shown_drop (tidy : Tidy (front ++ binary :: back))
    (split : binary.rows = before ++ (a, found) :: after) :
    Shown (front ++ { binary with rows := before ++ after } :: back) name sub ↔
      Shown (front ++ binary :: back) name sub ∧
        ¬ (name = binary.name ∧ sub.uiappMeteringIndex = found.uiappMeteringIndex) := by
  have ordered := tidy.middle.ordered
  rw [split] at ordered
  have elsewhere : Shown (front ++ back) name sub → name ≠ binary.name := by
    intro shown same
    rcases shown with ⟨holder, member, here, _⟩
    exact tidy.others holder member (here.trans same)
  rw [shown_middle, shown_middle, split]
  constructor
  · intro shown
    rcases shown with ⟨rfl, row, member, rfl⟩ | shown
    · refine ⟨.inl ⟨rfl, row, ?_, rfl⟩, fun both => ordered.others row member both.2⟩
      rcases List.mem_append.mp member with member | member
      · exact List.mem_append_left _ member
      · exact List.mem_append_right _ (List.mem_cons_of_mem _ member)
    · exact ⟨.inr shown, fun both => elsewhere shown both.1⟩
  · intro shown
    rcases shown with ⟨⟨rfl, row, member, rfl⟩ | shown, differs⟩
    · refine .inl ⟨rfl, row, ?_, rfl⟩
      rcases List.mem_append.mp member with member | member
      · exact List.mem_append_left _ member
      · rcases List.mem_cons.mp member with rfl | member
        · exact absurd ⟨rfl, rfl⟩ differs
        · exact List.mem_append_right _ member
    · exact .inr shown

theorem shown_insert (s : Nat) (new : Stappsub) :
    Shown (front ++ { binary with rows := before ++ (s, new) :: after } :: back) name sub ↔
      Shown (front ++ { binary with rows := before ++ after } :: back) name sub ∨
        (name = binary.name ∧ sub = new) := by
  rw [shown_middle, shown_middle, exists_row_middle, and_or_left, @eq_comm _ name, or_right_comm]

theorem shown_change (tidy : Tidy (front ++ binary :: back))
    (split : binary.rows = before ++ (a, found) :: after) (s : Nat) (changed : Stappsub) :
    Shown (front ++ { binary with rows := before ++ (s, changed) :: after } :: back) name sub ↔
      (Shown (front ++ binary :: back) name sub ∧
        ¬ (name = binary.name ∧ sub.uiappMeteringIndex = found.uiappMeteringIndex)) ∨
        (name = binary.name ∧ sub = changed) := by
  rw [shown_insert, shown_drop tidy split]

theorem listed_moved {old new : Text} {moved : Stappsub}
    (shown : ∀ name sub, Shown list' name sub ↔
      (Shown list name sub ∧ ¬ (name = old ∧ sub.uiappMeteringIndex = j)) ∨
        (name = new ∧ sub = moved)) (index : moved.uiappMeteringIndex = j) (name : Text)
    (k : UInt32) :
    Listed list' name k ↔
      (Listed list name k ∧ ¬ (name = old ∧ k = j)) ∨ (name = new ∧ k = j) := by
  rw [listed_iff, listed_iff]
  constructor
  · intro here
    rcases here with ⟨sub, here, rfl⟩
    rcases (shown name sub).mp here with ⟨kept, differs⟩ | ⟨same, rfl⟩
    · exact .inl ⟨⟨sub, kept, rfl⟩, differs⟩
    · exact .inr ⟨same, index⟩
  · intro here
    rcases here with ⟨⟨sub, kept, rfl⟩, differs⟩ | ⟨same, rfl⟩
    · exact ⟨sub, (shown name sub).mpr (.inl ⟨kept, differs⟩), rfl⟩
    · exact ⟨moved, (shown name moved).mpr (.inr ⟨same, rfl⟩), index⟩

theorem RowPlaced.shown {rows rows' : Rows} (placed : RowPlaced pappMet true rows rows') :
    ∃ last, (last = true ↔ ∀ row ∈ rows, ¬ row.2.uiappMeteringIndex > pappMet.uiappMeteringIndex) ∧
      ∀ sub, (∃ row ∈ rows', row.2 = sub) ↔
        (∃ row ∈ rows, row.2 = sub) ∨ sub = pappMet.row last := by
  cases placed with
  | @inserted before after newsub passed later =>
    refine ⟨after.isEmpty, ?_, ?_⟩
    · constructor
      · intro ended row member
        rw [List.isEmpty_iff.mp ended, List.append_nil] at member
        exact (passed row member).1
      · intro below
        cases after with
        | nil => rfl
        | cons first rest => exact absurd (later first rfl) (below first (by simp))
    · exact fun sub => exists_row_middle _ _
  | overwritten passed equal adds filled => cases adds

theorem Placed.shown (placed : Placed pappMet true list list') (tidy : Tidy list) :
    ∃ last, (last = true ↔
        Below list pappMet.pcappMeteringBinaryName pappMet.uiappMeteringIndex) ∧
      ∀ name sub, Shown list' name sub ↔
        Shown list name sub ∨
          (name = pappMet.pcappMeteringBinaryName ∧ sub = pappMet.row last) := by
  cases placed with
  | @existing front back binary rows absent named placed =>
    rcases placed.shown with ⟨last, ended, shown⟩
    refine ⟨last, ?_, ?_⟩
    · rw [ended]
      constructor
      · intro below other member same
        rcases List.mem_append.mp member with member | member
        · exact absurd same (absent other member)
        · rcases List.mem_cons.mp member with rfl | member
          · exact below
          · exact absurd (same.trans named.symm)
              (tidy.others other (List.mem_append_right _ member))
      · exact fun below => below binary (by simp) named
    · intro name sub
      rw [shown_middle, shown_middle, shown]
      constructor
      · intro cases
        rcases cases with ⟨rfl, old | same⟩ | other
        · exact .inl (.inl ⟨rfl, old⟩)
        · exact .inr ⟨named, same⟩
        · exact .inl (.inr other)
      · intro cases
        rcases cases with (⟨rfl, old⟩ | other) | ⟨rfl, same⟩
        · exact .inl ⟨rfl, .inl old⟩
        · exact .inr other
        · exact .inl ⟨named, .inr same⟩
  | @appended _ binary absent named placed =>
    rcases placed.shown with ⟨last, ended, shown⟩
    refine ⟨last, ?_, ?_⟩
    · rw [ended]
      constructor
      · exact fun _ other member same => absurd same (absent other member)
      · exact fun _ => nofun
    · intro name sub
      rw [shown_append, shown_cons, shown]
      simp only [List.not_mem_nil, false_and, exists_false, false_or, Shown, or_false]
      rw [named, eq_comm]

end Shown

end EveAgent.AppMetering
