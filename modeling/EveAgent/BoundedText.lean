import EveAgent.Attempt
import EveAgent.CText

/-! Texts that are printed to arrays of fixed sizes. A write behind the end of its array is a
fault. -/

namespace EveAgent

section Writes

variable {ε : Type}

/-- A text and its end are written to an array of this size. -/
def sprintf (size : Nat) (text : Text) : Attempt ε Text :=
  if text.length < size then .ok text else .error .fault

/-- Each piece is printed to an array of size `tmpSize`, and from there to the end of `str`. -/
def concatenate (tmpSize size : Nat) : Text → List Text → Attempt ε Text
  | str, [] => .ok str
  | str, piece :: pieces => do
      let tmp ← sprintf tmpSize piece
      let str ← sprintf size (str ++ tmp)
      concatenate tmpSize size str pieces

variable {post : Text → Prop} {refusal : ε → Prop}

@[simp] theorem meets_sprintf (size : Nat) (text : Text) :
    Meets post refusal (sprintf size text) ↔ text.length < size ∧ post text := by
  rw [sprintf]
  by_cases fits : text.length < size
  · simp [fits]
  · simp [fits]

theorem sprintf_fits {size : Nat} {text : Text} (fits : text.length < size) :
    (sprintf size text : Attempt ε Text) = .ok text := if_pos fits

theorem meets_concatenate {tmpSize size : Nat} {str : Text} {pieces : List Text}
    (small : ∀ piece ∈ pieces, piece.length < tmpSize) (within : str.length < size) :
    Meets post refusal (concatenate tmpSize size str pieces) ↔
      (str ++ pieces.flatten).length < size ∧ post (str ++ pieces.flatten) := by
  induction pieces generalizing str with
  | nil => simp [concatenate, within]
  | cons piece pieces ih =>
    have first := small piece List.mem_cons_self
    rw [concatenate, meets_bind, meets_sprintf, meets_bind, meets_sprintf, List.flatten_cons,
      ← List.append_assoc]
    by_cases fits : (str ++ piece).length < size
    · rw [ih (fun other member => small other (List.mem_cons_of_mem _ member)) fits]
      exact ⟨fun meets => meets.2.2, fun meets => ⟨first, fits, meets⟩⟩
    · constructor
      · intro meets
        exact absurd meets.2.1 fits
      · intro meets
        have longer := meets.1
        simp only [List.length_append] at longer fits
        omega

end Writes

end EveAgent
