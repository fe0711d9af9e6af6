import Mathlib

/-! Writes to the front of an array of a fixed size: the last write that reaches a position
decides what is there. -/

namespace EveAgent

variable {α : Type*} {old new : List α} {i : Nat}

/-- `new` is copied over the first elements of `old`. -/
def overlay (old new : List α) : List α := new ++ old.drop new.length

theorem overlay_length (fits : new.length ≤ old.length) :
    (overlay old new).length = old.length := by
  rw [overlay, List.length_append, List.length_drop]
  omega

theorem overlay_full (full : new.length = old.length) : overlay old new = new := by
  rw [overlay, full, List.drop_length, List.append_nil]

theorem getElem?_overlay (old new : List α) (i : Nat) :
    (overlay old new)[i]? = if i < new.length then new[i]? else old[i]? := by
  unfold overlay
  by_cases inside : i < new.length
  · rw [if_pos inside, List.getElem?_append_left inside]
  · rw [if_neg inside, List.getElem?_append_right (Nat.le_of_not_lt inside), List.getElem?_drop]
    congr 1
    omega

theorem foldl_overlay_length {writes : List (List α)}
    (fit : ∀ write ∈ writes, write.length ≤ old.length) :
    (writes.foldl overlay old).length = old.length := by
  induction writes generalizing old with
  | nil => rfl
  | cons write writes ih =>
    have first : (overlay old write).length = old.length :=
      overlay_length (fit write List.mem_cons_self)
    rw [List.foldl_cons]
    calc
      (writes.foldl overlay (overlay old write)).length = (overlay old write).length := by
        apply ih
        intro later member
        rw [first]
        exact fit later (List.mem_cons_of_mem _ member)
      _ = old.length := first

theorem getElem?_foldl_overlay (old : List α) (writes : List (List α)) (i : Nat) :
    (writes.foldl overlay old)[i]? =
      match (writes.filter fun write => decide (i < write.length)).getLast? with
      | none => old[i]?
      | some write => write[i]? := by
  induction writes using List.reverseRecOn with
  | nil => rfl
  | append_singleton writes write ih =>
    rw [List.foldl_append, List.foldl_cons, List.foldl_nil, getElem?_overlay, List.filter_append]
    by_cases inside : i < write.length
    · have kept : [write].filter (fun write => decide (i < write.length)) = [write] := by
        simp [inside]
      rw [if_pos inside, kept, List.getLast?_concat]
    · have dropped : [write].filter (fun write => decide (i < write.length)) = [] := by
        simpa using Nat.le_of_not_lt inside
      rw [if_neg inside, dropped, List.append_nil]
      exact ih

end EveAgent
