import EveAgent.CStdio

/-! `fscanf` with `"%s\n"` and `"%d\n"`: values that were printed one a line are read back one by
one. -/

namespace EveAgent

/-- `fscanf` with `"%s\n"`: what is read, and the text that stays. Nothing is read at the end. -/
def scanToken (text : Text) : Option Text × Text :=
  if firstToken text = [] then (none, [])
  else (some (firstToken text),
    ((text.dropWhile isspace).dropWhile fun c => !isspace c).dropWhile isspace)

/-- The digits of a number, and the text behind them. -/
def scanDigits (minus : Bool) (text : Text) : Option Int × Text :=
  let digits := text.takeWhile Char.isDigit
  let number : Int := Nat.ofDigitChars 10 digits 0
  if digits = [] then (none, text)
  else (some (if minus then -number else number), (text.dropWhile Char.isDigit).dropWhile isspace)

/-- `fscanf` with `"%d\n"`: the number before it is converted. A sign without digits is taken from
the text as well. -/
def scanNumber (text : Text) : Option Int × Text :=
  match text.dropWhile isspace with
  | '-' :: rest => scanDigits true rest
  | '+' :: rest => scanDigits false rest
  | rest => scanDigits false rest

/-- A text that `%s` reads whole. -/
def IsToken (token : Text) : Prop := token ≠ [] ∧ ∀ c ∈ token, isspace c = false

/-- The two texts are the same but for white space before them. -/
def SameRest (text other : Text) : Prop := text.dropWhile isspace = other.dropWhile isspace

theorem isspace_digit {c : Char} (digit : c.isDigit = true) : isspace c = false := by
  rw [← Bool.not_eq_true]
  intro space
  simp only [isspace, Bool.or_eq_true, beq_iff_eq] at space
  rcases space with ((((rfl | rfl) | rfl) | rfl) | rfl) | rfl <;> exact absurd digit (by decide)

theorem IsToken.kept {token : Text} (isToken : IsToken token) (more : Text) :
    (token ++ more).dropWhile isspace = token ++ more := by
  obtain ⟨first, rest, rfl⟩ := List.exists_cons_of_ne_nil isToken.1
  rw [List.cons_append, List.dropWhile_cons_of_neg]
  rw [isToken.2 first List.mem_cons_self]
  exact Bool.false_ne_true

theorem sameRest_drop (text : Text) : SameRest (text.dropWhile isspace) text := by
  rw [SameRest, List.dropWhile_idempotent]

variable {token text more : Text}

theorem scanToken_line (isToken : IsToken token) (same : SameRest text (token ++ '\n' :: more)) :
    ∃ rest, scanToken text = (some token, rest) ∧ SameRest rest more := by
  have start : text.dropWhile isspace = token ++ '\n' :: more := same.trans (isToken.kept _)
  have word : ∀ c ∈ token, (!isspace c) = true := fun c member => by simp [isToken.2 c member]
  have stops : ('\n' :: more).takeWhile (fun c => !isspace c) = [] := rfl
  have first : firstToken text = token := by
    rw [firstToken, start, List.takeWhile_append_of_pos word, stops, List.append_nil]
  have behind : (text.dropWhile isspace).dropWhile (fun c => !isspace c) = '\n' :: more := by
    rw [start, List.dropWhile_append_of_pos word]
    rfl
  refine ⟨('\n' :: more).dropWhile isspace, ?_, ?_⟩
  · rw [scanToken, first, if_neg isToken.1, behind]
  · rw [List.dropWhile_cons_of_pos (by decide)]
    exact sameRest_drop more

theorem scanDigits_line (minus : Bool) (number : Nat) (more : Text) :
    ∃ rest, scanDigits minus (Nat.toDigits 10 number ++ '\n' :: more) =
      (some (if minus then -(number : Int) else number), rest) ∧ SameRest rest more := by
  have digits : ∀ c ∈ Nat.toDigits 10 number, c.isDigit = true :=
    fun c member => Nat.isDigit_of_mem_toDigits (by decide) (by decide) member
  have item : (Nat.toDigits 10 number ++ '\n' :: more).takeWhile Char.isDigit =
      Nat.toDigits 10 number := by
    rw [List.takeWhile_append_of_pos digits]
    exact List.append_nil _
  have behind : (Nat.toDigits 10 number ++ '\n' :: more).dropWhile Char.isDigit = '\n' :: more := by
    rw [List.dropWhile_append_of_pos digits]
    rfl
  refine ⟨('\n' :: more).dropWhile isspace, ?_, ?_⟩
  · simp only [scanDigits, item, behind, if_neg Nat.toDigits_ne_nil, Nat.ofDigitChars_ten_toDigits]
  · rw [List.dropWhile_cons_of_pos (by decide)]
    exact sameRest_drop more

theorem isToken_digits (number : Nat) : IsToken (Nat.toDigits 10 number) :=
  ⟨Nat.toDigits_ne_nil, fun c member =>
    isspace_digit (Nat.isDigit_of_mem_toDigits (by decide) (by decide) member)⟩

theorem isToken_printLd (value : Int) : IsToken (printLd value) := by
  unfold printLd
  split
  · refine ⟨List.cons_ne_nil _ _, fun c member => ?_⟩
    rcases List.mem_cons.mp member with rfl | member
    · decide
    · exact (isToken_digits _).2 c member
  · exact isToken_digits _

theorem scanNumber_line (value : Int) (same : SameRest text (printLd value ++ '\n' :: more)) :
    ∃ rest, scanNumber text = (some value, rest) ∧ SameRest rest more := by
  have start : text.dropWhile isspace = printLd value ++ '\n' :: more :=
    same.trans ((isToken_printLd value).kept _)
  rw [scanNumber, start]
  unfold printLd
  by_cases negative : value < 0
  · rw [if_pos negative]
    obtain ⟨rest, read, same⟩ := scanDigits_line true value.natAbs more
    refine ⟨rest, ?_, same⟩
    rw [List.cons_append]
    simp only [read, if_true]
    congr
    omega
  · rw [if_neg negative]
    obtain ⟨rest, read, same⟩ := scanDigits_line false value.natAbs more
    refine ⟨rest, ?_, same⟩
    have nonempty : Nat.toDigits 10 value.natAbs ≠ [] := Nat.toDigits_ne_nil
    obtain ⟨first, digits, split⟩ := List.exists_cons_of_ne_nil nonempty
    have digit : first.isDigit = true :=
      Nat.isDigit_of_mem_toDigits (by decide) (by decide)
        (by rw [split]; exact List.mem_cons_self : first ∈ Nat.toDigits 10 value.natAbs)
    have number : (value.natAbs : Int) = value := by omega
    rw [split, List.cons_append] at read ⊢
    split
    · rename_i minus
      cases minus
      exact absurd digit (by decide)
    · rename_i plus
      cases plus
      exact absurd digit (by decide)
    · rw [read, number]
      rfl

end EveAgent
