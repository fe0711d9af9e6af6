import EveAgent.CText

/-! Lines of a file as `fgets` reads them, and what is found in them; words and their
comparison. -/

namespace EveAgent

section Lines

/-- The characters up to the end of the line, but no more than there is room for. -/
def takeLine : Nat → Text → Text × Text
  | 0, content => ([], content)
  | _ + 1, [] => ([], [])
  | room + 1, c :: content =>
    if c = '\n' then ([c], content)
    else ((takeLine room content).1.cons c, (takeLine room content).2)

/-- `fgets` into an array of this size: the line and what stays to be read, or nothing when
there is nothing to read. -/
def fgets (size : Nat) (content : Text) : Option (Text × Text) :=
  if content = [] then none else some (takeLine (size - 1) content)

/-- All that `fgets` reads, in order. -/
def readLines (size : Nat) : Nat → Text → List Text
  | 0, _ => []
  | fuel + 1, content =>
    match fgets size content with
    | none => []
    | some (line, rest) => line :: readLines size fuel rest

/-- The text from the first occurrence of the pattern. -/
def strstr (pattern : Text) : Text → Option Text
  | [] => if pattern = [] then some [] else none
  | c :: text => if pattern.isPrefixOf (c :: text) then some (c :: text) else strstr pattern text

/-- What `%s` reads. -/
def firstToken (text : Text) : Text := (text.dropWhile isspace).takeWhile fun c => !isspace c

def trim (text : Text) : Text := (text.dropWhile isspace).rdropWhile isspace

variable {pattern text content : Text} {room : Nat}

end Lines

section Words

/-- `sscanf` of one `%s` into an array of this size that holds zeros: the string in it
afterwards, or nothing when the word and the zero behind it leave the array. -/
def scanWord (size : Nat) (text : Text) : Option Text :=
  if (firstToken text).length < size then some (firstToken text) else none

/-- `strncmp`. Of its result only the sign is documented. -/
def strncmp : Nat → Text → Text → Int
  | 0, _, _ => 0
  | _ + 1, [], [] => 0
  | _ + 1, [], _ :: _ => -1
  | _ + 1, _ :: _, [] => 1
  | room + 1, a :: left, b :: right =>
    if a = b then strncmp room left right else if a < b then -1 else 1

theorem strncmp_eq_zero (room : Nat) (left right : Text) :
    strncmp room left right = 0 ↔ left.take room = right.take room := by
  induction room generalizing left right with
  | zero => simp [strncmp]
  | succ room ih =>
    cases left with
    | nil => cases right <;> simp [strncmp]
    | cons a left =>
      cases right with
      | nil => simp [strncmp]
      | cons b right =>
        by_cases same : a = b
        · simp [strncmp, same, ih]
        · have different : strncmp (room + 1) (a :: left) (b :: right) ≠ 0 := by
            simp only [strncmp, same, if_false]
            split <;> decide
          simp [different, same]

theorem take_eq_take_cases (room : Nat) (left right : Text) :
    left.take room = right.take room ↔
      left = right ∨ room ≤ left.length ∧ left.take room <+: right := by
  constructor
  · intro agree
    by_cases fits : room ≤ left.length
    · exact .inr ⟨fits, agree ▸ List.take_prefix room right⟩
    · have whole : left = right.take room := by
        rw [← agree, List.take_of_length_le (by omega)]
      have short : right.length < room := by
        have lengths := congrArg List.length whole
        rw [List.length_take] at lengths
        omega
      exact .inl (by rw [whole, List.take_of_length_le (by omega)])
  · rintro (rfl | ⟨fits, front⟩)
    · rfl
    · obtain ⟨rest, rfl⟩ := front
      rw [List.take_append_of_le_length (by rw [List.length_take]; omega), List.take_take,
        Nat.min_self]

end Words

end EveAgent
