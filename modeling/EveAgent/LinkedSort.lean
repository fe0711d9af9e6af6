import EveAgent.BubbleSort
import EveAgent.Cells

/-! Bubble sort of a linked list by relinking its cells, behind a first cell that stays there. -/

namespace EveAgent.LinkedSort

open Cells BubbleSort

section Loops

variable {V : Type*}

structure Pointers where
  start : Option Nat
  p : Option Nat
  q : Option Nat
  r : Option Nat
  s : Option Nat
  deriving DecidableEq, Repr

/-- What a pointer points to, and nothing for a null pointer. -/
def deref (heap : Heap Nat V) (pointer : Option Nat) : Option (Cell Nat V) :=
  pointer.bind heap

def setNext (heap : Heap Nat V) (pointer next : Option Nat) : Option (Heap Nat V) :=
  match pointer with
  | none => none
  | some a => (heap a).map fun cell => Function.update heap a (some { cell with next })

/-- The swap of `p` and `q`. -/
def relink (heap : Heap Nat V) (at_ : Pointers) (temp : Option Nat) :
    Option (Heap Nat V × Pointers) :=
  match setNext heap at_.q at_.p with
  | none => none
  | some heap =>
    match setNext heap at_.p temp with
    | none => none
    | some heap =>
      if at_.p = at_.start then some (heap, { at_ with start := at_.q, r := at_.q })
      else (setNext heap at_.r at_.q).map fun heap => (heap, { at_ with r := at_.q })

def comparePair (larger : V → V → Bool) (heap : Heap Nat V) (at_ : Pointers) :
    Option (Heap Nat V × Pointers) :=
  match deref heap at_.p, deref heap at_.q with
  | some cellP, some cellQ =>
    match
      (if larger cellP.val cellQ.val = true then relink heap at_ cellQ.next
      else some (heap, { at_ with r := at_.p, p := cellP.next })) with
    | none => none
    | some (heap, at_) =>
      match deref heap at_.p with
      | none => none
      | some cell =>
        some (heap, { at_ with q := cell.next, s := if cell.next = at_.s then at_.p else at_.s })
  | _, _ => none

def innerLoop (larger : V → V → Bool) :
    Nat → Heap Nat V → Pointers → Option (Heap Nat V × Pointers)
  | 0, _, _ => none
  | fuel + 1, heap, at_ =>
    if at_.p = at_.s then some (heap, at_)
    else
      match comparePair larger heap at_ with
      | none => none
      | some (heap, at_) => innerLoop larger fuel heap at_

def outerLoop (larger : V → V → Bool) (bound : Nat) :
    Nat → Heap Nat V → Pointers → Option (Heap Nat V × Pointers)
  | 0, _, _ => none
  | fuel + 1, heap, at_ =>
    match deref heap at_.start with
    | none => none
    | some cell =>
      if at_.s = cell.next then some (heap, at_)
      else
        match
          innerLoop larger bound heap
            { at_ with r := at_.start, p := at_.start, q := cell.next } with
        | none => none
        | some (heap, at_) => outerLoop larger bound fuel heap at_

/-- The sort behind the cell `head`. -/
def sortBehind (larger : V → V → Bool) (fuel : Nat) (heap : Heap Nat V) (head : Nat) :
    Option (Heap Nat V × Pointers) :=
  outerLoop larger fuel fuel heap ⟨some head, none, none, none, none⟩

end Loops

section Passes

variable {V : Type*}

def nodeKey (key : V → Nat) (node : Nat × V) : Nat := key node.2

def Compares (larger : V → V → Bool) (key : V → Nat) (nodes : List (Nat × V)) : Prop :=
  ∀ x ∈ nodes, ∀ y ∈ nodes, larger x.2 y.2 = true ↔ nodeKey key y < nodeKey key x

variable {larger : V → V → Bool} {key : V → Nat} {heap : Heap Nat V} {at_ : Pointers}
  {pre behind : List (Nat × V)} {a b : Nat} {v w : V}

theorem Compares.perm {nodes other : List (Nat × V)} (compares : Compares larger key nodes)
    (same : other.Perm nodes) : Compares larger key other :=
  fun x member y member' => compares x (same.subset member) y (same.subset member')

/-- The inner loop stands on a node, behind those it has passed. -/
structure Standing (larger : V → V → Bool) (key : V → Nat) (heap : Heap Nat V) (at_ : Pointers)
    (pre : List (Nat × V)) (a : Nat) (v : V) (behind : List (Nat × V)) : Prop where
  linked : Segment heap at_.start (pre ++ (a, v) :: behind) none
  p : at_.p = some a
  q : at_.q = (addresses behind).head?
  r : ∀ init last u, pre = init ++ [(last, u)] → at_.r = some last
  minimal : pre = [] → key v = 0
  compares : Compares larger key (pre ++ (a, v) :: behind)

structure Compared (heap heap' : Heap Nat V) (at_ at' : Pointers) (nodes : List (Nat × V)) :
    Prop where
  start : at'.start = at_.start
  s : at'.s = if at'.q = at_.s then at'.p else at_.s
  frame : ∀ c, c ∉ addresses nodes → heap' c = heap c

theorem setNext_some {cell : Cell Nat V} (held : heap a = some cell) (next : Option Nat) :
    setNext heap (some a) next = some (Function.update heap a (some { cell with next })) := by
  rw [setNext, held, Option.map_some]

theorem Standing.pass (standing : Standing larger key heap at_ pre a v ((b, w) :: behind))
    (sorted : ¬nodeKey key (b, w) < nodeKey key (a, v)) :
    ∃ at', comparePair larger heap at_ = some (heap, at') ∧
      Standing larger key heap at' (pre ++ [(a, v)]) b w behind ∧
      Compared heap heap at_ at' (pre ++ (a, v) :: (b, w) :: behind) := by
  obtain ⟨next, front, heldA, back⟩ := standing.linked.middle
  obtain ⟨start, nextB, heldB, rest⟩ := back
  have stays : ¬larger v w = true := by
    intro more
    exact sorted ((standing.compares (a, v) (by simp) (b, w) (by simp)).mp more)
  have derefP : deref heap at_.p = some ⟨v, some b⟩ := by
    rw [standing.p, ← start]
    exact heldA
  have derefQ : deref heap at_.q = some ⟨w, nextB⟩ := by
    rw [standing.q]
    exact heldB
  have derefB : deref heap (some b) = some ⟨w, nextB⟩ := heldB
  refine ⟨{ at_ with
    r := at_.p
    p := some b
    q := nextB
    s := if nextB = at_.s then some b else at_.s }, ?_, ?_, ?_⟩
  · rw [comparePair, derefP, derefQ]
    simp only [if_neg stays, derefB]
  · constructor
    · rw [List.append_assoc]
      exact standing.linked
    · rfl
    · exact rest.head
    · intro init last u split
      obtain ⟨_, same⟩ := List.append_inj' split rfl
      cases same
      exact standing.p
    · intro empty
      simp at empty
    · rw [List.append_assoc]
      exact standing.compares
  · constructor
    · rfl
    · rfl
    · exact fun _ _ => rfl

/-- The heap after the three writes of a swap behind the node `last`. -/
def swapLinks (heap : Heap Nat V) (last a b : Nat) (u v w : V) (next : Option Nat) :
    Heap Nat V :=
  Function.update (Function.update (Function.update heap b (some ⟨w, some a⟩)) a (some ⟨v, next⟩))
    last (some ⟨u, some b⟩)

theorem Standing.swap (standing : Standing larger key heap at_ pre a v ((b, w) :: behind))
    (smaller : nodeKey key (b, w) < nodeKey key (a, v)) :
    ∃ heap' at', comparePair larger heap at_ = some (heap', at') ∧
      Standing larger key heap' at' (pre ++ [(b, w)]) a v behind ∧
      Compared heap heap' at_ at' (pre ++ (a, v) :: (b, w) :: behind) := by
  rcases List.eq_nil_or_concat pre with empty | ⟨init, ⟨last, u⟩, split⟩
  · have zero : nodeKey key (a, v) = 0 := standing.minimal empty
    omega
  rw [List.concat_eq_append] at split
  have linked := standing.linked
  rw [split, List.append_assoc, List.singleton_append] at linked
  obtain ⟨nextU, front, heldU, startA, nextA, heldA, startB, nextB, heldB, rest⟩ := linked.middle
  rw [startA] at heldU
  rw [startB] at heldA
  have swapped : Segment (swapLinks heap last a b u v w nextB) at_.start
      (init ++ (last, u) :: (b, w) :: (a, v) :: behind) none := linked.swap heldB
  obtain ⟨notFront, behindU, _⟩ := linked.apart
  have notA := linked.apart_next
  simp only [addresses_append, addresses_cons, List.mem_append, List.mem_cons, not_or]
    at notFront behindU notA
  have derefP : deref heap at_.p = some ⟨v, some b⟩ := by
    rw [standing.p]
    exact heldA
  have derefQ : deref heap at_.q = some ⟨w, nextB⟩ := by
    rw [standing.q]
    exact heldB
  have otherStart : ¬at_.p = at_.start := by
    rw [standing.p, standing.linked.head, split]
    cases init with
    | nil => exact fun same => notA.2.1 (Option.some.inj same)
    | cons first init =>
      intro same
      apply notA.1
      rw [Option.some.inj same]
      exact List.mem_cons_self
  -- The three writes are those of the lemma on linked lists.
  have relinked : relink heap at_ nextB =
      some (swapLinks heap last a b u v w nextB, { at_ with r := some b }) := by
    have q : at_.q = some b := standing.q
    have r : at_.r = some last := standing.r init last u split
    have heldA' : Function.update heap b (some ⟨w, some a⟩) a = some ⟨v, some b⟩ := by
      rw [Function.update_of_ne notA.2.2.1]
      exact heldA
    have heldU' : Function.update (Function.update heap b (some ⟨w, some a⟩)) a
        (some ⟨v, nextB⟩) last = some ⟨u, some a⟩ := by
      rw [Function.update_of_ne (Ne.symm notA.2.1), Function.update_of_ne behindU.2.1]
      exact heldU
    rw [relink, q, standing.p, setNext_some heldB]
    simp only
    rw [setNext_some heldA']
    simp only
    rw [standing.p] at otherStart
    rw [if_neg otherStart, r, setNext_some heldU']
    rfl
  have more : larger v w = true :=
    (standing.compares (a, v) (by simp) (b, w) (by simp)).mpr smaller
  have derefA : deref (swapLinks heap last a b u v w nextB) at_.p = some ⟨v, nextB⟩ := by
    rw [standing.p, deref, Option.bind_some, swapLinks, Function.update_of_ne notA.2.1]
    exact Function.update_self ..
  refine ⟨swapLinks heap last a b u v w nextB, { at_ with
    r := some b
    q := nextB
    s := if nextB = at_.s then at_.p else at_.s }, ?_, ?_, ?_⟩
  · rw [comparePair, derefP, derefQ]
    simp only [if_pos more, relinked]
    rw [derefA]
  · constructor
    · rw [split, List.append_assoc, List.append_assoc]
      exact swapped
    · exact standing.p
    · exact rest.head
    · intro init' last' u' split'
      obtain ⟨_, same⟩ := List.append_inj' split' rfl
      cases same
      rfl
    · intro empty
      simp at empty
    · apply standing.compares.perm
      rw [List.append_assoc]
      exact (List.Perm.swap _ _ _).append_left pre
  · constructor
    · rfl
    · rfl
    · intro c outside
      rw [split] at outside
      simp only [addresses_append, addresses_cons, addresses_nil, List.mem_append, List.mem_cons,
        List.not_mem_nil, or_false, not_or] at outside
      rw [swapLinks, Function.update_of_ne outside.1.2, Function.update_of_ne outside.2.1,
        Function.update_of_ne outside.2.2.1]

variable {rest done : List (Nat × V)}

theorem Standing.before_done (standing : Standing larger key heap at_ pre a v (rest ++ done)) :
    some a ≠ (addresses done).head? ∧
      (rest ≠ [] → (addresses (rest ++ done)).head? ≠ (addresses done).head?) := by
  obtain ⟨_, behind, _⟩ := standing.linked.apart
  rw [addresses_append, List.mem_append, not_or] at behind
  constructor
  · intro same
    exact behind.2 (List.mem_of_head? same.symm)
  · intro filled same
    cases rest with
    | nil => exact filled rfl
    | cons first rest =>
      have nodup := standing.linked.nodup
      rw [addresses_append, List.nodup_append] at nodup
      have later := (List.nodup_cons.mp nodup.2.1).2
      rw [List.cons_append, List.map_cons, List.nodup_cons, List.map_append, List.mem_append,
        not_or] at later
      exact later.1.2 (List.mem_of_head? same.symm)

theorem innerLoop_step (fuel : Nat) (more : at_.p ≠ at_.s) {heap' : Heap Nat V} {at' : Pointers}
    (compared : comparePair larger heap at_ = some (heap', at')) :
    innerLoop larger (fuel + 1) heap at_ = innerLoop larger fuel heap' at' := by
  rw [innerLoop, if_neg more, compared]

structure Swept (heap heap' : Heap Nat V) (at_ at' : Pointers) (before after : List (Nat × V))
    (done : List (Nat × V)) : Prop where
  linked : Segment heap' at_.start (after ++ done) none
  start : at'.start = at_.start
  s : at'.s = (addresses after).getLast?
  frame : ∀ c, c ∉ addresses (before ++ done) → heap' c = heap c

theorem innerLoop_from {b c : Nat} {w x : V} {heap' : Heap Nat V} {at' : Pointers}
    {pre' : List (Nat × V)} {fuel : Nat} (more : at_.p ≠ at_.s) (s : at_.s = (addresses done).head?)
    (executed : comparePair larger heap at_ = some (heap', at'))
    (standing : Standing larger key heap' at' pre' c x (rest ++ done))
    (compared : Compared heap heap' at_ at' (pre ++ (a, v) :: (b, w) :: (rest ++ done)))
    (same : pre' ++ sweep (nodeKey key) (c, x) rest =
      pre ++ sweep (nodeKey key) (a, v) ((b, w) :: rest))
    (moved : ∀ n, n ∈ addresses (pre' ++ (c, x) :: rest) ↔
      n ∈ addresses (pre ++ (a, v) :: (b, w) :: rest)) (enough : rest.length < fuel)
    (ih : rest ≠ [] → at'.s = (addresses done).head? →
      ∃ heap'' at'', innerLoop larger fuel heap' at' = some (heap'', at'') ∧
        Swept heap' heap'' at' at'' (pre' ++ (c, x) :: rest)
          (pre' ++ sweep (nodeKey key) (c, x) rest)
          done) :
    ∃ heap'' at'', innerLoop larger (fuel + 1) heap at_ = some (heap'', at'') ∧
      Swept heap heap'' at_ at'' (pre ++ (a, v) :: (b, w) :: rest)
        (pre ++ sweep (nodeKey key) (a, v) ((b, w) :: rest)) done := by
  rw [innerLoop_step fuel more executed, ← same]
  have frame : ∀ n, n ∉ addresses (pre ++ (a, v) :: (b, w) :: rest ++ done) →
      heap' n = heap n := by
    intro n outside
    apply compared.frame
    rw [List.append_assoc] at outside
    exact outside
  by_cases filled : rest = []
  · have last : at'.s = at'.p := by
      rw [compared.s, if_pos]
      rw [standing.q, filled, List.nil_append, s]
    have ended : innerLoop larger fuel heap' at' = some (heap', at') := by
      cases fuel with
      | zero => omega
      | succ fuel => rw [innerLoop, if_pos last.symm]
    refine ⟨heap', at', ended, ?_, compared.start, ?_, frame⟩
    · have linked := standing.linked
      rw [filled, List.nil_append, compared.start] at linked
      rw [filled, sweep, List.append_assoc]
      exact linked
    · rw [last, standing.p, filled, sweep, addresses_append]
      simp
  · have keeps : at'.s = at_.s := by
      rw [compared.s, if_neg]
      rw [standing.q, s]
      exact standing.before_done.2 filled
    obtain ⟨heap'', at'', executed', swept⟩ := ih filled (by rw [keeps, s])
    refine ⟨heap'', at'', executed', ?_, ?_, swept.s, ?_⟩
    · rw [← compared.start]
      exact swept.linked
    · rw [swept.start, compared.start]
    · intro n outside
      rw [swept.frame n, frame n outside]
      rw [addresses_append, List.mem_append, not_or] at outside ⊢
      exact ⟨fun member => outside.1 ((moved n).mp member), outside.2⟩

theorem innerLoop_swept (standing : Standing larger key heap at_ pre a v (rest ++ done))
    (filled : rest ≠ [])
    (s : at_.s = (addresses done).head?) {fuel : Nat} (enough : rest.length < fuel) :
    ∃ heap' at', innerLoop larger fuel heap at_ = some (heap', at') ∧
      Swept heap heap' at_ at' (pre ++ (a, v) :: rest)
        (pre ++ sweep (nodeKey key) (a, v) rest) done := by
  induction rest generalizing heap at_ pre a v fuel with
  | nil => exact absurd rfl filled
  | cons next rest ih =>
    obtain ⟨b, w⟩ := next
    have more : at_.p ≠ at_.s := by
      rw [standing.p, s]
      exact standing.before_done.1
    cases fuel with
    | zero => omega
    | succ fuel =>
      have shorter : rest.length < fuel := by
        rw [List.length_cons] at enough
        omega
      by_cases smaller : nodeKey key (b, w) < nodeKey key (a, v)
      · obtain ⟨heap', at', executed, standing', compared⟩ := standing.swap smaller
        apply innerLoop_from more s executed standing' compared _ _ shorter
        · intro some keeps
          exact ih standing' some keeps shorter
        · rw [sweep, if_pos smaller, List.append_assoc]
          rfl
        · intro n
          simp only [addresses_append, addresses_cons, addresses_nil, List.mem_append,
            List.mem_cons, List.not_mem_nil, or_false]
          tauto
      · obtain ⟨at', executed, standing', compared⟩ := standing.pass smaller
        apply innerLoop_from more s executed standing' compared _ _ shorter
        · intro some keeps
          exact ih standing' some keeps shorter
        · rw [sweep, if_neg smaller, List.append_assoc]
          rfl
        · intro n
          simp only [addresses_append, addresses_cons, addresses_nil, List.mem_append,
            List.mem_cons, List.not_mem_nil, or_false]
          tauto

theorem outerLoop_passes {z : Nat} {zero : V} (least : key zero = 0)
    (compares : Compares larger key ((z, zero) :: rest ++ done))
    (linked : Segment heap at_.start ((z, zero) :: rest ++ done) none)
    (s : at_.s = (addresses done).head?) {bound fuel : Nat} (wide : rest.length < bound)
    (enough : rest.length < fuel) :
    ∃ heap' at', outerLoop larger bound fuel heap at_ = some (heap', at') ∧ at'.start = at_.start ∧
      Segment heap' at_.start
          (passes (nodeKey key) (rest.length + 1) ((z, zero) :: rest) done) none ∧
      ∀ c, c ∉ addresses ((z, zero) :: rest ++ done) → heap' c = heap c := by
  induction size : rest.length generalizing heap at_ rest done fuel with
  | zero =>
    have empty := List.eq_nil_of_length_eq_zero size
    rw [empty] at linked ⊢
    obtain ⟨start, next, held, back⟩ := linked
    cases fuel with
    | zero => omega
    | succ fuel =>
      have ended : at_.s = next := by
        rw [s]
        exact back.head.symm
      refine ⟨heap, at_, ?_, rfl, ?_, fun _ _ => rfl⟩
      · rw [outerLoop, deref, start, Option.bind_some, held]
        simp only [if_pos ended]
      · exact ⟨start, next, held, back⟩
  | succ n ih =>
    cases rest with
    | nil => cases size
    | cons first rest =>
      cases fuel with
      | zero => omega
      | succ fuel =>
        obtain ⟨start, next, held, back⟩ := linked
        have whole : Segment heap at_.start ((z, zero) :: (first :: rest ++ done)) none :=
          ⟨start, next, held, back⟩
        have standing : Standing larger key heap
            { at_ with r := at_.start, p := at_.start, q := next } [] z zero
            (first :: rest ++ done) := by
          constructor
          · exact whole
          · exact start
          · exact back.head
          · intro init last u split
            simp at split
          · exact fun _ => least
          · exact compares
        have more : ¬at_.s = next := by
          rw [s, back.head]
          exact Ne.symm (standing.before_done.2 (List.cons_ne_nil _ _))
        obtain ⟨heap', at', executed, swept⟩ :=
          innerLoop_swept standing (List.cons_ne_nil _ _) s wide
        -- The pass carries the last node behind the others.
        obtain ⟨init, last, split⟩ :
            ∃ init last, sweep (nodeKey key) first rest = init ++ [last] :=
          ⟨_, _, (List.dropLast_append_getLast (sweep_ne_nil (nodeKey key) first rest)).symm⟩
        have pass : sweep (nodeKey key) (z, zero) (first :: rest) =
            (z, zero) :: init ++ [last] := by
          have minimal : nodeKey key (z, zero) = 0 := least
          rw [sweep_minimal (nodeKey key) minimal, split]
          rfl
        have length : init.length = n := by
          have total := (sweep_perm (nodeKey key) first rest).length_eq
          rw [split, List.length_append, List.length_singleton] at total
          rw [List.length_cons] at size total
          omega
        have linked := swept.linked
        rw [List.nil_append, pass, List.append_assoc, List.singleton_append] at linked
        have s' : at'.s = (addresses (last :: done)).head? := by
          rw [swept.s, List.nil_append, pass, addresses_append]
          exact List.getLast?_concat
        rw [List.length_cons] at wide enough size
        have narrow : init.length < bound := by omega
        have shorter : init.length < fuel := by omega
        have compares' : Compares larger key ((z, zero) :: init ++ last :: done) := by
          apply compares.perm
          have moved := (sweep_perm (nodeKey key) (z, zero) (first :: rest)).append_right done
          rw [pass, List.append_assoc] at moved
          exact moved
        obtain ⟨heap'', at'', executed', start', linked'', frame⟩ :=
          ih compares' (swept.start ▸ linked) s' narrow shorter length
        refine ⟨heap'', at'', ?_, ?_, ?_, ?_⟩
        · rw [outerLoop, deref, start, Option.bind_some, held]
          simp only [if_neg more]
          rw [start] at executed
          rw [executed]
          exact executed'
        · rw [start', swept.start]
        · have passed : passes (nodeKey key) (n + 2) ((z, zero) :: first :: rest) done =
              passes (nodeKey key) (n + 1) ((z, zero) :: init) (last :: done) := by
            rw [passes, pass, List.dropLast_concat, List.getLast?_concat]
            rfl
          rw [passed, ← swept.start]
          exact linked''
        · intro c outside
          have same : c ∈ addresses (first :: rest) ↔ c ∈ addresses (init ++ [last]) := by
            rw [← split]
            exact ((sweep_perm (nodeKey key) first rest).map Prod.fst).mem_iff.symm
          have outside' : c ∉ addresses ((z, zero) :: init ++ last :: done) := by
            rw [List.cons_append, addresses_cons, addresses_append, List.mem_cons,
              List.mem_append, not_or, not_or] at outside ⊢
            rw [same, addresses_append, List.mem_append, not_or] at outside
            refine ⟨outside.1, outside.2.1.1, ?_⟩
            intro inside
            rcases List.mem_cons.mp inside with here | later
            · exact outside.2.1.2 (List.mem_singleton.mpr here)
            · exact outside.2.2 later
          rw [frame c outside', swept.frame c outside]

theorem sortBehind_bubbleSort {head : Nat} {zero : V} {nodes : List (Nat × V)}
    (least : key zero = 0) (compares : Compares larger key ((head, zero) :: nodes))
    (linked : Segment heap (some head) ((head, zero) :: nodes) none) :
    ∃ heap' at', sortBehind larger (nodes.length + 1) heap head = some (heap', at') ∧
      at'.start = some head ∧
      Segment heap' (some head) ((head, zero) :: bubbleSort (nodeKey key) nodes) none ∧
      ∀ c, c ∉ addresses ((head, zero) :: nodes) → heap' c = heap c := by
  have minimal : nodeKey key (head, zero) = 0 := least
  rw [← List.append_nil ((head, zero) :: nodes)] at compares linked
  obtain ⟨heap', at', executed, start, sorted, frame⟩ :=
    @outerLoop_passes V larger key heap ⟨some head, none, none, none, none⟩ nodes [] head zero
      least compares linked rfl _ _ (Nat.lt_succ_self _) (Nat.lt_succ_self _)
  have behind := bubbleSort_minimal (nodeKey key) minimal nodes
  rw [bubbleSort, List.length_cons] at behind
  rw [behind] at sorted
  rw [List.append_nil] at frame
  exact ⟨heap', at', executed, start, sorted, frame⟩

end Passes

end EveAgent.LinkedSort
