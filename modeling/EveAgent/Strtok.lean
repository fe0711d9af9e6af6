import EveAgent.CText

/-! `strtok_r`, and the loop that takes a text apart with it: the tokens are the words between the
separators. -/

namespace EveAgent

section Strtok

variable (separator : Char → Bool)

/-- The next token, and the text behind the separator that ends it. -/
def strtok (text : Text) : Option (Text × Text) :=
  match text.dropWhile separator with
  | [] => none
  | first :: rest =>
    some ((first :: rest).takeWhile (fun c => !separator c),
      ((first :: rest).dropWhile fun c => !separator c).drop 1)

def wordsOf (text : Text) : List Text := (text.splitOnP separator).filter (· ≠ [])

variable {separator} {text token rest : Text}

theorem strtok_shorter (next : strtok separator text = some (token, rest)) :
    rest.length < text.length := by
  rw [strtok] at next
  split at next
  · cases next
  · rename_i first behind found
    simp only [Option.some.injEq, Prod.mk.injEq] at next
    have shorter := (List.dropWhile_sublist (separator) (l := text)).length_le
    have again := (List.dropWhile_sublist (fun c => !separator c) (l := first :: behind)).length_le
    rw [found] at shorter
    rw [← next.2, List.length_drop]
    rw [List.length_cons] at shorter again
    omega

theorem wordsOf_separator {c : Char} (is : separator c = true) (text : Text) :
    wordsOf separator (c :: text) = wordsOf separator text := by
  rw [wordsOf, List.splitOnP_cons_eq_if_modifyHead, if_pos is, List.filter_cons]
  rfl

theorem wordsOf_dropWhile (text : Text) :
    wordsOf separator (text.dropWhile separator) = wordsOf separator text := by
  induction text with
  | nil => rfl
  | cons c text ih =>
    by_cases is : separator c = true
    · rw [List.dropWhile_cons_of_pos is, ih, wordsOf_separator is]
    · rw [List.dropWhile_cons_of_neg is]

theorem wordsOf_word {word : Text} (nonempty : word ≠ []) (isWord : ∀ c ∈ word, separator c = false)
    (ends : ∀ c ∈ rest.head?, separator c = true) :
    wordsOf separator (word ++ rest) = word :: wordsOf separator (rest.drop 1) := by
  cases rest with
  | nil =>
    rw [List.append_nil, wordsOf, List.splitOnP_eq_singleton isWord, List.filter_cons,
      if_pos (by simpa using nonempty)]
    rfl
  | cons c rest =>
    have is : separator c = true := ends c rfl
    rw [wordsOf, List.splitOnP_append_cons_of_forall_mem isWord c is, List.filter_cons,
      if_pos (by simpa using nonempty)]
    rfl

theorem strtok_words (separator : Char → Bool) (text : Text) :
    match strtok separator text with
    | none => wordsOf separator text = []
    | some (token, rest) =>
      token ≠ [] ∧ wordsOf separator text = token :: wordsOf separator rest := by
  rw [strtok, ← wordsOf_dropWhile text]
  cases found : text.dropWhile separator with
  | nil => rfl
  | cons first behind =>
    dsimp only
    have starts : separator first = false := by
      have stops := List.head?_dropWhile_not separator text
      rw [found] at stops
      simpa using stops
    have nonempty : (first :: behind).takeWhile (fun c => !separator c) ≠ [] := by
      rw [List.takeWhile_cons_of_pos (by simp [starts])]
      exact List.cons_ne_nil _ _
    have isWord : ∀ c ∈ (first :: behind).takeWhile (fun c => !separator c),
        separator c = false := by
      intro c member
      have holds := List.mem_takeWhile_imp member
      simpa using holds
    have ends : ∀ c ∈ ((first :: behind).dropWhile fun c => !separator c).head?,
        separator c = true := by
      intro c head
      have stops := List.head?_dropWhile_not (fun c => !separator c) (first :: behind)
      rw [head] at stops
      simpa using stops
    refine ⟨nonempty, ?_⟩
    conv_lhs => rw [← List.takeWhile_append_dropWhile (p := fun c => !separator c)
      (l := first :: behind)]
    exact wordsOf_word nonempty isWord ends

theorem strtok_none : strtok separator text = none ↔ wordsOf separator text = [] := by
  have words := strtok_words separator text
  constructor
  · intro none
    rw [none] at words
    exact words
  · intro empty
    cases next : strtok separator text with
    | none => rfl
    | some pair =>
      rw [next] at words
      rw [empty] at words
      cases words.2

theorem strtok_some (next : strtok separator text = some (token, rest)) :
    wordsOf separator text = token :: wordsOf separator rest := by
  have words := strtok_words separator text
  rw [next] at words
  exact words.2

theorem strtok_subset (next : strtok separator text = some (token, rest)) : token ⊆ text := by
  rw [strtok] at next
  split at next
  · cases next
  · rename_i first behind found
    simp only [Option.some.injEq, Prod.mk.injEq] at next
    intro c member
    rw [← next.1, ← found] at member
    exact (List.dropWhile_sublist _).subset ((List.takeWhile_sublist _).subset member)

theorem wordsOf_nonempty {word : Text} (member : word ∈ wordsOf separator text) : word ≠ [] := by
  have kept := (List.mem_filter.mp member).2
  simpa using kept

end Strtok

end EveAgent
