import Mathlib

/-! Singly linked chains in a memory of cells. `next a` is `none` when nothing is
allocated at `a` and `some none` when the cell there ends its chain. -/

namespace EveAgent.Chain

variable {A : Type*} {next next' : A → Option (Option A)} {p q : Option A}
  {a b last : A} {xs ys : List A}

/-- Following the pointer `p` visits exactly these cells and then ends. -/
def IsChain (next : A → Option (Option A)) : Option A → List A → Prop
  | p, [] => p = none
  | p, a :: xs => p = some a ∧ ∃ q, next a = some q ∧ IsChain next q xs

@[simp] theorem isChain_nil : IsChain next p [] ↔ p = none := Iff.rfl

theorem IsChain.head (chain : IsChain next p (a :: xs)) : p = some a := chain.1

theorem isChain_none (chain : IsChain next none xs) : xs = [] := by
  cases xs with
  | nil => rfl
  | cons head tail => cases chain.1

/-- A pointer determines its chain. -/
theorem IsChain.unique (first : IsChain next p xs) (second : IsChain next p ys) : xs = ys := by
  induction xs generalizing p ys with
  | nil =>
    rw [isChain_nil] at first
    subst first
    exact (isChain_none second).symm
  | cons head tail ih =>
    obtain ⟨rfl, q, link, rest⟩ := first
    cases ys with
    | nil => cases second
    | cons other others =>
      obtain ⟨same, r, link', rest'⟩ := second
      obtain rfl := Option.some.inj same
      rw [link] at link'
      obtain rfl := Option.some.inj link'
      rw [ih rest rest']

theorem IsChain.congr (chain : IsChain next p xs) (same : ∀ a ∈ xs, next' a = next a) :
    IsChain next' p xs := by
  induction xs generalizing p with
  | nil => exact chain
  | cons head tail ih =>
    obtain ⟨start, q, link, rest⟩ := chain
    refine ⟨start, q, ?_, ih rest fun a member => same a (List.mem_cons_of_mem _ member)⟩
    rw [same head List.mem_cons_self, link]

theorem IsChain.from (chain : IsChain next p (xs ++ a :: ys)) :
    IsChain next (some a) (a :: ys) := by
  induction xs generalizing p with
  | nil =>
    obtain rfl := chain.head
    exact chain
  | cons head tail ih =>
    obtain ⟨_, _, _, rest⟩ := chain
    exact ih rest

theorem IsChain.nodup (chain : IsChain next p xs) : xs.Nodup := by
  induction xs generalizing p with
  | nil => exact List.nodup_nil
  | cons head tail ih =>
    obtain ⟨rfl, q, link, rest⟩ := chain
    refine List.nodup_cons.mpr ⟨?_, ih rest⟩
    intro again
    obtain ⟨before, after, rfl⟩ := List.append_of_mem again
    have whole : IsChain next (some head) (head :: (before ++ head :: after)) :=
      ⟨rfl, q, link, rest⟩
    have lengths := congrArg List.length (whole.unique rest.from)
    simp only [List.length_cons, List.length_append] at lengths
    omega

theorem IsChain.allocated (chain : IsChain next p xs) (member : a ∈ xs) :
    ∃ q, next a = some q := by
  obtain ⟨before, after, rfl⟩ := List.append_of_mem member
  obtain ⟨_, q, link, _⟩ := chain.from
  exact ⟨q, link⟩

theorem IsChain.replace (chain : IsChain next p (xs ++ ys)) (same : ∀ a ∈ xs, next' a = next a)
    (other : List A) (rest : ∀ q, IsChain next q ys → IsChain next' q other) :
    IsChain next' p (xs ++ other) := by
  induction xs generalizing p with
  | nil => exact rest p chain
  | cons head tail ih =>
    obtain ⟨start, q, link, later⟩ := chain
    refine ⟨start, q, ?_, ih later fun a member => same a (List.mem_cons_of_mem _ member)⟩
    rw [same head List.mem_cons_self, link]

theorem IsChain.snoc (chain : IsChain next p (xs ++ [last]))
    (same : ∀ a ∈ xs, next' a = next a) (linked : next' last = some (some b))
    (ended : next' b = some none) : IsChain next' p (xs ++ [last, b]) := by
  refine chain.replace same [last, b] ?_
  intro q old
  exact ⟨old.head, some b, linked, rfl, none, ended, rfl⟩

theorem IsChain.unlink (chain : IsChain next p (xs ++ last :: a :: ys))
    (gone : next a = some q) (same : ∀ b ∈ xs, next' b = next b)
    (linked : next' last = some q) (kept : ∀ b ∈ ys, next' b = next b) :
    IsChain next' p (xs ++ last :: ys) := by
  refine chain.replace same (last :: ys) ?_
  intro start old
  obtain ⟨start, _, _, _, r, link, rest⟩ := old
  rw [gone] at link
  obtain rfl := Option.some.inj link
  exact ⟨start, q, linked, rest.congr kept⟩

section Search

variable [DecidableEq A]

/-- The loop that follows a chain until it stands on the target. The result is
the cell before the target; `none` on the outside means a dangling pointer or
that the fuel is used up. -/
def search (next : A → Option (Option A)) (target : A) :
    Nat → Option A → Option A → Option (Option (Option A))
  | 0, _, _ => none
  | _ + 1, _, none => some none
  | fuel + 1, previous, some current =>
    if target = current then some (some previous)
    else
      match next current with
      | none => none
      | some following => search next target fuel (some current) following

theorem search_chain {target : A} {fuel : Nat} (previous : Option A)
    (chain : IsChain next p xs) (enough : xs.length < fuel) :
    (target ∉ xs ∧ search next target fuel previous p = some none) ∨
      ∃ front back, xs = front ++ target :: back ∧
        search next target fuel previous p = some (some (front.getLast?.or previous)) := by
  induction xs generalizing p fuel previous with
  | nil =>
    rw [isChain_nil] at chain
    subst chain
    cases fuel with
    | zero => simp at enough
    | succ fuel => exact .inl ⟨List.not_mem_nil, rfl⟩
  | cons head tail ih =>
    obtain ⟨rfl, q, link, rest⟩ := chain
    cases fuel with
    | zero => simp at enough
    | succ fuel =>
      simp only [search]
      by_cases here : target = head
      · subst here
        exact .inr ⟨[], tail, rfl, by rw [if_pos rfl]; rfl⟩
      · rw [if_neg here, link]
        have shorter : tail.length < fuel := by
          rw [List.length_cons] at enough
          omega
        rcases ih (some head) rest shorter with ⟨absent, ended⟩ |
          ⟨front, back, split, found⟩
        · refine .inl ⟨?_, ended⟩
          rw [List.mem_cons, not_or]
          exact ⟨here, absent⟩
        · refine .inr ⟨head :: front, back, by rw [split]; rfl, ?_⟩
          show search next target fuel (some head) q = _
          rw [found, List.getLast?_cons]
          cases front.getLast? <;> rfl

end Search

end EveAgent.Chain
