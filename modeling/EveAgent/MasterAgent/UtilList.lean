import EveAgent.Cells
import EveAgent.Machine

namespace EveAgent.MasterAgent.UtilList

open Cells Machine

variable {α : Type}

section Source

/-- A `List`, with the memory its elements are in. -/
structure ElementList (α : Type) where
  heap : Heap Nat α
  start : Option Nat
  end_ : Option Nat
  size : Int32

/-- `none` where `malloc` grants no memory: the fields are written all the same. -/
def initList (malloc : Bool) : Option (ElementList α) :=
  if malloc then some { heap := fun _ => none, start := none, end_ := none, size := 0 } else none

/-- `element->nextElement = next` -/
def setNext (heap : Heap Nat α) (element next : Option Nat) : Option (Heap Nat α) :=
  match element with
  | none => none
  | some a => (heap a).map fun cell => Function.update heap a (some { cell with next := next })

/-- `malloc` is the element that is granted. -/
def addToList (list : ElementList α) (elementValue : α) (malloc : Option Nat) :
    Option (ElementList α × Int) :=
  match malloc with
  | none => some (list, -1)
  | some element =>
    let heap := Function.update list.heap element (some ⟨elementValue, none⟩)
    let size := list.size + 1
    match list.start with
    | none => some ({ heap, start := some element, end_ := some element, size }, 0)
    | some start =>
      (setNext heap list.end_ (some element)).map fun heap =>
        ({ heap, start := some start, end_ := some element, size }, 0)

variable [DecidableEq α]

/-- The body of the loop for the element with the value. -/
def unlink (list : ElementList α) (previousElement : Option Nat) (current : Nat)
    (nextElement : Option Nat) : Option (ElementList α × Int) :=
  let linked :=
    match previousElement with
    | none => some list.heap
    | some previous => setNext list.heap (some previous) nextElement
  linked.map fun heap =>
    ({ heap := Function.update heap current none
       start := if some current = list.start then nextElement else list.start
       end_ := if some current = list.end_ then previousElement else list.end_
       size := list.size - 1 }, 1)

/-- The loop of `deleteFromList`, with a bound on its iterations. Behind the last element the
function would end without a value. -/
def deleteLoop (list : ElementList α) (elementValue : α) :
    Nat → Option Nat → Option Nat → Option Nat → Option (ElementList α × Int)
  | 0, _, _, _ => none
  | _ + 1, _, none, _ => none
  | fuel + 1, previousElement, some current, nextElement =>
    match list.heap current with
    | none => none
    | some cell =>
      if cell.val = elementValue then unlink list previousElement current nextElement
      else
        match nextElement.bind list.heap with
        | none => none
        | some next => deleteLoop list elementValue fuel (some current) nextElement next.next

def deleteFromList (fuel : Nat) (list : ElementList α) (elementValue : α) :
    Option (ElementList α × Int) :=
  match list.start with
  | none => some (list, -1)
  | some start =>
    match list.heap start with
    | none => none
    | some cell => deleteLoop list elementValue fuel none (some start) cell.next

/-- The element so many steps behind another one; `none` where a step goes through a null
pointer. -/
def walk (heap : Heap Nat α) : Nat → Option Nat → Option (Option Nat)
  | 0, current => some current
  | steps + 1, current =>
    match current.bind heap with
    | none => none
    | some cell => walk heap steps cell.next

def insertIntoList (list : ElementList α) (index : Int32) (elementValue : α)
    (malloc : Option Nat) : Option (ElementList α × Int) :=
  if list.size ≤ index then some (list, -1)
  else
    match walk list.heap index.toInt.toNat list.start with
    | none => none
    | some current =>
      match malloc with
      | none => some (list, -1)
      | some newElement =>
        match current.bind list.heap with
        | none => none
        | some cell =>
          let heap := Function.update list.heap newElement (some ⟨elementValue, cell.next⟩)
          (setNext heap current (some newElement)).map fun heap =>
            ({ list with heap := heap }, 0)

inductive Call (α : Type) where
  | addToList (elementValue : α) (malloc : Option Nat)
  | deleteFromList (elementValue : α)
  | insertIntoList (index : Int32) (elementValue : α) (malloc : Option Nat)
  deriving DecidableEq, Repr

def Call.run (fuel : Nat) (list : ElementList α) : Call α → Option (ElementList α × Int)
  | .addToList elementValue malloc => UtilList.addToList list elementValue malloc
  | .deleteFromList elementValue => UtilList.deleteFromList fuel list elementValue
  | .insertIntoList index elementValue malloc =>
    UtilList.insertIntoList list index elementValue malloc

end Source

section Meaning

abbrev Node (α : Type) := Nat × α

def values (nodes : List (Node α)) : List α := nodes.map Prod.snd

/-- `start` leads through `size` elements to `end`. -/
structure Holds (list : ElementList α) (nodes : List (Node α)) : Prop where
  linked : Segment list.heap list.start nodes none
  end_ : list.end_ = (addresses nodes).getLast?
  size : list.size.toInt = nodes.length

/-- Where the memory that a call is granted is. -/
def Call.memory : Call α → Option Nat
  | .addToList _ malloc => malloc
  | .deleteFromList _ => none
  | .insertIntoList _ _ malloc => malloc

/-- `malloc` grants no element that is in use. -/
def Call.Granted (nodes : List (Node α)) (call : Call α) : Prop :=
  ∀ a, call.memory = some a → a ∉ addresses nodes

variable [DecidableEq α]

/-- What a call is to make of the elements, and what it is to return. -/
def Call.meant (nodes : List (Node α)) : Call α → List (Node α) × Int
  | .addToList elementValue (some element) => (nodes ++ [(element, elementValue)], 0)
  | .addToList _ none => (nodes, -1)
  | .deleteFromList elementValue =>
    if elementValue ∈ values nodes then (nodes.eraseP fun node => node.2 = elementValue, 1)
    else (nodes, -1)
  | .insertIntoList index elementValue (some newElement) =>
    if 0 ≤ index.toInt ∧ index.toInt < nodes.length then
      (nodes.insertIdx (index.toInt.toNat + 1) (newElement, elementValue), 0)
    else (nodes, -1)
  | .insertIntoList _ _ none => (nodes, -1)

def after (nodes : List (Node α)) (call : Call α) : Option (List (Node α)) :=
  some (call.meant nodes).1

/-- Each call returns what it is to return, and leaves a list that holds what it is to hold; one
that returns -1 leaves the list as it was. -/
def KeepsShape : ElementList α → List (Node α) → List (Call α) → Prop
  | _, _, [] => True
  | list, nodes, call :: calls =>
    ∃ fuel list', call.run fuel list = some (list', (call.meant nodes).2) ∧
      Holds list' (call.meant nodes).1 ∧ ((call.meant nodes).2 = -1 → list' = list) ∧
      KeepsShape list' (call.meant nodes).1 calls

/-- The size stays an `int`, a value is deleted only where it is, and nothing is inserted. -/
def Call.Meets (nodes : List (Node α)) : Call α → Prop
  | .addToList _ malloc => malloc ≠ none → nodes.length + 1 < 2 ^ 31
  | .deleteFromList elementValue => nodes = [] ∨ elementValue ∈ values nodes
  | .insertIntoList index _ malloc => nodes.length ≤ index.toInt ∨ malloc = none

instance (nodes : List (Node α)) : (call : Call α) → Decidable (call.Meets nodes)
  | .addToList _ _ => inferInstanceAs (Decidable (_ → _))
  | .deleteFromList _ => inferInstanceAs (Decidable (_ ∨ _))
  | .insertIntoList _ _ _ => inferInstanceAs (Decidable (_ ∨ _))

instance (nodes : List (Node α)) (call : Call α) : Decidable (call.Granted nodes) :=
  match memory : call.memory with
  | none => isTrue (fun a granted => by rw [memory] at granted; cases granted)
  | some a =>
    decidable_of_iff (a ∉ addresses nodes) ⟨
      fun fresh b granted => Option.some.inj (memory.symm.trans granted) ▸ fresh,
      fun fresh => fresh a memory⟩

end Meaning

section Elements

variable {heap : Heap Nat α} {p : Option Nat} {list list' : ElementList α}
  {nodes pre skipped tail rest : List (Node α)} {a b : Nat} {v w : α} {size : Int32} {n : Nat}

theorem size_succ (same : size.toInt = n) :
    (size + 1).toInt = (n + 1 : Nat) ↔ n + 1 < 2 ^ 31 := by
  have upper := size.toInt_lt
  rw [Int32.toInt_add, same]
  have one : (1 : Int32).toInt = 1 := rfl
  rw [one, Int.bmod_def]
  constructor
  · intro equal
    split at equal <;> omega
  · intro room
    split <;> omega

theorem size_pred (same : size.toInt = (n + 1 : Nat)) : (size - 1).toInt = n := by
  have upper := size.toInt_lt
  rw [Int32.toInt_sub, same]
  have one : (1 : Int32).toInt = 1 := rfl
  rw [one, Int.bmod_def]
  split <;> omega

theorem cell_of {l : List (Node α)} (linked : Segment heap p (l ++ (a, v) :: tail) none) :
    heap a = some ⟨v, (addresses tail).head?⟩ := by
  obtain ⟨next, _, held, back⟩ := linked.middle
  rw [held, back.head]

theorem walk_segment (linked : Segment heap p (pre ++ tail) none) :
    walk heap pre.length p = some (addresses tail).head? := by
  induction pre generalizing p with
  | nil => exact congrArg some linked.head
  | cons node pre ih =>
    obtain ⟨start, next, held, back⟩ := linked
    rw [List.length_cons, walk, start, Option.bind_some, held]
    exact ih back

theorem addToList_appends (holds : Holds list nodes) (fresh : a ∉ addresses nodes) (v : α) :
    ∃ list', addToList list v (some a) = some (list', 0) ∧
      (Holds list' (nodes ++ [(a, v)]) ↔ nodes.length + 1 < 2 ^ 31) := by
  have last : some a = (addresses (nodes ++ [(a, v)])).getLast? := by simp
  have counted : (nodes ++ [(a, v)]).length = nodes.length + 1 := List.length_append
  rcases List.eq_nil_or_concat nodes with rfl | ⟨init, ⟨z, w⟩, rfl⟩
  · have empty : list.start = none := holds.linked
    refine ⟨_, by rw [addToList, empty], ?_⟩
    have linked : Segment (Function.update list.heap a (some ⟨v, none⟩)) (some a) [(a, v)] none :=
      ⟨rfl, none, Function.update_self .., rfl⟩
    constructor
    · intro held
      exact (size_succ holds.size).mp (held.size.trans (by rw [counted]))
    · intro room
      refine ⟨linked, last, ?_⟩
      rw [counted]
      exact (size_succ holds.size).mpr room
  · simp only [List.concat_eq_append] at holds fresh last counted ⊢
    have held := cell_of holds.linked
    have linked := holds.linked.insert held fresh v
    have end_ : list.end_ = some z := by rw [holds.end_]; simp
    obtain ⟨start, begins⟩ : ∃ start, list.start = some start := by
      rw [holds.linked.head]
      cases init with
      | nil => exact ⟨z, rfl⟩
      | cons node init => exact ⟨node.1, rfl⟩
    have different : z ≠ a := by
      rintro rfl
      exact fresh (by simp)
    have set : setNext (Function.update list.heap a (some ⟨v, none⟩)) list.end_ (some a) =
        some (Function.update (Function.update list.heap a (some ⟨v, none⟩)) z
          (some ⟨w, some a⟩)) := by
      rw [end_]
      simp only [setNext, Function.update_of_ne different, held, Option.map_some]
    refine ⟨_, by simp only [addToList, begins, set, Option.map_some]; rfl, ?_⟩
    constructor
    · intro held
      exact (size_succ holds.size).mp (held.size.trans (by rw [counted]))
    · intro room
      refine ⟨?_, last, ?_⟩
      · rw [← begins, List.append_assoc]
        exact linked
      · rw [counted]
        exact (size_succ holds.size).mpr room

theorem unlink_holds (holds : Holds list (pre ++ (a, v) :: rest)) :
    ∃ list', unlink list (addresses pre).getLast? a (addresses rest).head? = some (list', 1) ∧
      Holds list' (pre ++ rest) := by
  have held := cell_of holds.linked
  obtain ⟨notFront, notBack, apart⟩ := holds.linked.apart
  have size : (list.size - 1).toInt = ((pre ++ rest).length : Nat) := by
    apply size_pred
    rw [holds.size, List.length_append, List.length_append, List.length_cons]
    omega
  have end_ : (if some a = list.end_ then (addresses pre).getLast? else list.end_) =
      (addresses (pre ++ rest)).getLast? := by
    rw [holds.end_]
    rcases List.eq_nil_or_concat rest with rfl | ⟨init, ⟨z, w⟩, rfl⟩
    · simp
    · have different : a ≠ z := by
        rintro rfl
        exact notBack (by simp)
      simp [different, List.getLast?_append, List.getLast?_cons]
  rcases List.eq_nil_or_concat pre with rfl | ⟨init, ⟨z, w⟩, rfl⟩
  · obtain ⟨start, next, held', back⟩ := holds.linked
    refine ⟨_, rfl, ?_, end_, size⟩
    show Segment _ (if some a = list.start then (addresses rest).head? else list.start) rest none
    rw [start, if_pos rfl, ← back.head]
    exact back.update notBack _
  · rw [List.concat_eq_append] at holds notFront end_ size ⊢
    have first := holds.linked
    rw [List.append_assoc, List.singleton_append] at first
    have held' := cell_of first
    have removed := first.remove held' held
    have last : (addresses (init ++ [(z, w)])).getLast? = some z := by simp
    have notStart : some a ≠ list.start := by
      intro same
      apply notFront
      rw [holds.linked.head] at same
      cases init with
      | nil =>
        rw [Option.some.inj same]
        exact List.mem_cons_self
      | cons node init =>
        rw [Option.some.inj same]
        exact List.mem_cons_self
    have unlinked : unlink list (addresses (init ++ [(z, w)])).getLast? a (addresses rest).head? =
        some ({ heap := Function.update (Function.update list.heap z
                  (some ⟨w, (addresses rest).head?⟩)) a none
                start := if some a = list.start then (addresses rest).head? else list.start
                end_ := if some a = list.end_ then (addresses (init ++ [(z, w)])).getLast?
                  else list.end_
                size := list.size - 1 }, 1) := by
      simp only [last, unlink, setNext, held', Option.map_some]
    refine ⟨_, unlinked, ?_, end_, size⟩
    show Segment _ (if some a = list.start then _ else list.start) _ none
    rw [if_neg notStart, List.append_assoc, List.singleton_append]
    exact removed

variable [DecidableEq α]

theorem deleteLoop_found {l : List (Node α)} {value : α}
    (holds : Holds list (l ++ (skipped ++ (b, value) :: rest)))
    (others : ∀ node ∈ skipped, node.2 ≠ value) :
    ∃ list', deleteLoop list value (skipped.length + 1) (addresses l).getLast?
        (addresses (skipped ++ (b, value) :: rest)).head?
        (addresses (skipped ++ (b, value) :: rest).tail).head? = some (list', 1) ∧
      Holds list' (l ++ (skipped ++ rest)) := by
  induction skipped generalizing l with
  | nil =>
    obtain ⟨list', unlinked, held⟩ := unlink_holds holds
    refine ⟨list', ?_, held⟩
    have here := cell_of holds.linked
    simp only [List.nil_append, addresses_cons, List.head?_cons, List.tail_cons, deleteLoop, here,
      if_true]
    exact unlinked
  | cons node skipped ih =>
    obtain ⟨c, u⟩ := node
    have here : list.heap c = some _ := cell_of holds.linked
    have different : u ≠ value := others (c, u) List.mem_cons_self
    have shifted : l ++ ((c, u) :: skipped ++ (b, value) :: rest) =
        (l ++ [(c, u)]) ++ (skipped ++ (b, value) :: rest) := by simp
    rw [shifted] at holds
    obtain ⟨list', found, held⟩ := ih holds fun node member =>
      others node (List.mem_cons_of_mem _ member)
    refine ⟨list', ?_, ?_⟩
    · have last : (addresses (l ++ [(c, u)])).getLast? = some c := by simp
      obtain ⟨d, x, more, behind⟩ :
          ∃ d x more, skipped ++ (b, value) :: rest = (d, x) :: more := by
        cases skipped with
        | nil => exact ⟨b, value, rest, rfl⟩
        | cons node skipped => exact ⟨node.1, node.2, _, rfl⟩
      rw [behind] at holds
      have next := cell_of holds.linked
      rw [last, behind, List.tail_cons] at found
      rw [List.cons_append, List.tail_cons, List.length_cons, behind, addresses_cons,
        List.head?_cons, deleteLoop, here]
      dsimp only
      rw [if_neg different, addresses_cons, List.head?_cons, Option.bind_some, next]
      exact found
    · rw [List.cons_append, ← List.singleton_append, ← List.append_assoc]
      exact held

theorem deleteLoop_absent {l : List (Node α)} {value : α} (holds : Holds list (l ++ tail))
    (absent : value ∉ values tail) (fuel : Nat) :
    deleteLoop list value fuel (addresses l).getLast? (addresses tail).head?
      (addresses tail.tail).head? = none := by
  induction tail generalizing l fuel with
  | nil => cases fuel <;> rfl
  | cons node tail ih =>
    obtain ⟨c, u⟩ := node
    cases fuel with
    | zero => rfl
    | succ fuel =>
      have here := cell_of holds.linked
      have different : u ≠ value := by
        rintro rfl
        exact absent List.mem_cons_self
      simp only [addresses_cons, List.head?_cons, List.tail_cons, deleteLoop, here,
        if_neg different]
      cases tail with
      | nil => rfl
      | cons node tail =>
        obtain ⟨d, x⟩ := node
        have shifted : l ++ (c, u) :: (d, x) :: tail = (l ++ [(c, u)]) ++ (d, x) :: tail := by
          simp
        rw [shifted] at holds
        have next := cell_of holds.linked
        have later := ih holds (fun member => absent (List.mem_cons_of_mem _ member)) fuel
        have last : (addresses (l ++ [(c, u)])).getLast? = some c := by simp
        rw [last] at later
        simp only [addresses_cons, List.head?_cons, Option.bind_some, next]
        exact later

end Elements

section Calls

variable {list list' : ElementList α} {nodes : List (Node α)} {call : Call α} {index : Int32}
  {v : α} {a : Nat} {result : Int} {fuel : Nat} {malloc : Option Nat}

theorem insertIntoList_size (inserted : insertIntoList list index v malloc = some (list', result)) :
    list'.size = list.size := by
  unfold insertIntoList at inserted
  split at inserted
  · cases inserted
    rfl
  · split at inserted
    · cases inserted
    · split at inserted
      · cases inserted
        rfl
      · split at inserted
        · cases inserted
        · obtain ⟨heap, _, same⟩ := Option.map_eq_some_iff.mp inserted
          cases same
          rfl

theorem insertIntoList_granted (inside : index.toInt < list.size.toInt)
    (inserted : insertIntoList list index v (some a) = some (list', result)) : result = 0 := by
  have below : ¬ list.size ≤ index := by
    rw [Int32.le_iff_toInt_le]
    omega
  rw [insertIntoList, if_neg below] at inserted
  split at inserted
  · cases inserted
  · dsimp only at inserted
    split at inserted
    · cases inserted
    · obtain ⟨heap, _, same⟩ := Option.map_eq_some_iff.mp inserted
      cases same
      rfl

theorem insertIntoList_refused (holds : Holds list nodes)
    (refused : nodes.length ≤ index.toInt ∨ malloc = none) (v : α) :
    insertIntoList list index v malloc = some (list, -1) := by
  rw [insertIntoList]
  by_cases behind : list.size ≤ index
  · rw [if_pos behind]
  · rw [if_neg behind]
    rw [Int32.le_iff_toInt_le, holds.size] at behind
    obtain rfl := refused.resolve_left behind
    have split : nodes.take index.toInt.toNat ++ nodes.drop index.toInt.toNat = nodes :=
      List.take_append_drop _ nodes
    have length : (nodes.take index.toInt.toNat).length = index.toInt.toNat := by
      rw [List.length_take]
      omega
    have linked := holds.linked
    rw [← split] at linked
    have walked := walk_segment linked
    rw [length] at walked
    rw [walked]

variable [DecidableEq α]

theorem deleteFromList_absent (holds : Holds list nodes) (filled : nodes ≠ [])
    (absent : v ∉ values nodes) (fuel : Nat) : deleteFromList fuel list v = none := by
  obtain ⟨⟨b, w⟩, tail, rfl⟩ := List.exists_cons_of_ne_nil filled
  have start : list.start = some b := holds.linked.1
  have here := cell_of (l := []) holds.linked
  have missed := deleteLoop_absent (l := []) holds absent fuel
  rw [deleteFromList, start]
  simp only [here]
  exact missed

theorem deleteFromList_found (holds : Holds list nodes) (present : v ∈ values nodes) :
    ∃ fuel list', deleteFromList fuel list v = some (list', 1) ∧
      Holds list' (nodes.eraseP fun node => node.2 = v) := by
  obtain ⟨⟨b, w⟩, member, value⟩ := List.mem_map.mp present
  obtain ⟨⟨b, w⟩, skipped, rest, others, value, split, erased⟩ :=
    List.exists_of_eraseP member (p := fun node => decide (node.2 = v)) (decide_eq_true value)
  obtain rfl : w = v := of_decide_eq_true value
  have different : ∀ node ∈ skipped, node.2 ≠ w := by
    intro node inside same
    exact others node inside (decide_eq_true same)
  rw [split] at holds
  obtain ⟨list', deleted, held⟩ := deleteLoop_found (l := []) holds different
  refine ⟨skipped.length + 1, list', ?_, by rw [erased]; exact held⟩
  obtain ⟨d, x, more, first⟩ : ∃ d x more, skipped ++ (b, w) :: rest = (d, x) :: more := by
    cases skipped with
    | nil => exact ⟨b, w, rest, rfl⟩
    | cons node skipped => exact ⟨node.1, node.2, _, rfl⟩
  rw [first] at holds deleted
  have start : list.start = some d := holds.linked.1
  have here := cell_of (l := []) holds.linked
  rw [deleteFromList, start]
  simp only [here]
  exact deleted

theorem run_meets (holds : Holds list nodes) (granted : call.Granted nodes)
    (meets : call.Meets nodes) :
    ∃ fuel list', call.run fuel list = some (list', (call.meant nodes).2) ∧
      Holds list' (call.meant nodes).1 ∧ ((call.meant nodes).2 = -1 → list' = list) := by
  cases call with
  | addToList v malloc =>
    cases malloc with
    | none => exact ⟨0, list, rfl, holds, fun _ => rfl⟩
    | some a =>
      obtain ⟨list', added, held⟩ := addToList_appends holds (granted a rfl) v
      refine ⟨0, list', added, held.mpr (meets (Option.some_ne_none a)), ?_⟩
      intro failed
      cases failed
  | deleteFromList v =>
    by_cases present : v ∈ values nodes
    · obtain ⟨fuel, list', deleted, held⟩ := deleteFromList_found holds present
      simp only [Call.run, Call.meant, if_pos present]
      exact ⟨fuel, list', deleted, held, fun failed => by cases failed⟩
    · obtain rfl := meets.resolve_right present
      have start : list.start = none := holds.linked
      simp only [Call.run, Call.meant, if_neg present]
      refine ⟨0, list, ?_, holds, fun _ => rfl⟩
      rw [deleteFromList, start]
  | insertIntoList index v malloc =>
    have refused := insertIntoList_refused holds meets v
    have nothing : Call.meant nodes (.insertIntoList index v malloc) = (nodes, -1) := by
      cases malloc with
      | none => rfl
      | some a =>
        have behind := meets.resolve_right (Option.some_ne_none a)
        rw [Call.meant, if_neg (by omega)]
    rw [nothing]
    exact ⟨0, list, refused, holds, fun _ => rfl⟩

theorem run_misses (holds : Holds list nodes) (granted : call.Granted nodes)
    (misses : ¬ call.Meets nodes) (ran : call.run fuel list = some (list', (call.meant nodes).2)) :
    ¬ Holds list' (call.meant nodes).1 := by
  intro held
  cases call with
  | addToList v malloc =>
    cases malloc with
    | none => exact misses fun some_ => absurd rfl some_
    | some a =>
      obtain ⟨list'', added, holds_iff⟩ := addToList_appends holds (granted a rfl) v
      have same : list'' = list' := by
        have both := added.symm.trans ran
        exact (Prod.mk.inj (Option.some.inj both)).1
      subst same
      exact misses fun _ => holds_iff.mp held
  | deleteFromList v =>
    have apart := not_or.mp misses
    rw [Call.run, deleteFromList_absent holds apart.1 apart.2] at ran
    cases ran
  | insertIntoList index v malloc =>
    obtain ⟨inside, granted⟩ := not_or.mp misses
    obtain ⟨a, rfl⟩ := Option.ne_none_iff_exists'.mp granted
    have inserted : insertIntoList list index v (some a) = some (list', _) := ran
    have size := insertIntoList_size inserted
    have counted := held.size
    rw [size, holds.size] at counted
    simp only [Call.meant] at ran counted
    split at ran
    · rename_i position
      rw [if_pos position] at counted
      have length : (nodes.insertIdx (index.toInt.toNat + 1) (a, v)).length =
          nodes.length + 1 := List.length_insertIdx_of_le_length (by omega) _
      dsimp only at counted
      omega
    · have zero := insertIntoList_granted (by rw [holds.size]; omega) ran
      cases zero

theorem keepsShape_of_holds {calls : List (Call α)} (holds : Holds list nodes)
    (granted : Along after (fun nodes call => Call.Granted nodes call) nodes calls) :
    KeepsShape list nodes calls ↔
      Along after (fun nodes call => Call.Meets nodes call) nodes calls := by
  induction calls generalizing list nodes with
  | nil => exact Iff.rfl
  | cons call calls ih =>
    constructor
    · rintro ⟨fuel, list', ran, held, _, later⟩
      have meets : call.Meets nodes := by
        by_contra misses
        exact run_misses holds granted.1 misses ran held
      exact ⟨meets, (ih held granted.2).mp later⟩
    · rintro ⟨meets, later⟩
      obtain ⟨fuel, list', ran, held, same⟩ := run_meets holds granted.1 meets
      exact ⟨fuel, list', ran, held, same, (ih held granted.2).mpr later⟩

omit [DecidableEq α] in
theorem initList_holds : Holds (⟨fun _ => none, none, none, 0⟩ : ElementList α) [] :=
  ⟨rfl, rfl, rfl⟩

/-- The list keeps its shape and contents in exactly the sequences of calls in which memory is
granted for it, its size stays an `int`, values are deleted only where they are, and nothing is
inserted. -/
theorem keepsShape_iff (malloc : Bool) (calls : List (Call α))
    (granted : Along after (fun nodes call => Call.Granted nodes call) [] calls) :
    (∃ list, initList malloc = some list ∧ KeepsShape list [] calls) ↔
      malloc = true ∧ Along after (fun nodes call => Call.Meets nodes call) [] calls := by
  constructor
  · rintro ⟨list, made, keeps⟩
    cases malloc with
    | false => cases made
    | true =>
      cases made
      exact ⟨rfl, (keepsShape_of_holds initList_holds granted).mp keeps⟩
  · rintro ⟨rfl, meets⟩
    exact ⟨_, rfl, (keepsShape_of_holds initList_holds granted).mpr meets⟩

end Calls

section Runs

/-- Two values are added and the first one is deleted. -/
def addedAndDeleted : List (Call Nat) :=
  [.addToList 7 (some 1), .addToList 8 (some 2), .deleteFromList 7]

theorem keepsShape_addedAndDeleted :
    ∃ list : ElementList Nat, initList true = some list ∧ KeepsShape list [] addedAndDeleted :=
  (keepsShape_iff true addedAndDeleted (by decide)).mpr ⟨rfl, by decide⟩

/-- A value that is not there is deleted, or one is inserted behind the only element. -/
theorem absent_or_inserted :
    (¬ ∃ list : ElementList Nat, initList true = some list ∧
      KeepsShape list [] [.addToList 7 (some 1), .deleteFromList 8]) ∧
    (¬ ∃ list : ElementList Nat, initList true = some list ∧
      KeepsShape list [] [.addToList 7 (some 1), .insertIntoList 0 8 (some 2)]) := by
  constructor
  · rintro ⟨list, made, keeps⟩
    cases made
    have meets := (keepsShape_of_holds initList_holds (by decide)).mp keeps
    exact absurd meets (by decide)
  · rintro ⟨list, made, keeps⟩
    cases made
    have meets := (keepsShape_of_holds initList_holds (by decide)).mp keeps
    exact absurd meets (by decide)

end Runs

end EveAgent.MasterAgent.UtilList
