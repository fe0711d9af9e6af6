import EveAgent.Overlay

/-! Buffers for strings that are used again and again. -/

namespace EveAgent.ScratchBuffer

section Writes

variable {α : Type*} {zero : α} {buffer data write : List α} {writes : List (List α)}
  {cleared size i : Nat}

/-- A write behind the end of the buffer is a fault. -/
def store (buffer data : List α) : Option (List α) :=
  if data.length ≤ buffer.length then some (overlay buffer data) else none

def memset (buffer : List α) (zero : α) (count : Nat) : Option (List α) :=
  store buffer (List.replicate count zero)

/-- The buffer behind all writes, each cleared at the front. -/
def reused (zero : α) (cleared size : Nat) (writes : List (List α)) : List α :=
  writes.foldl (fun buffer write => overlay (overlay buffer write) (List.replicate cleared zero))
    (List.replicate size zero)

theorem store_fits (fits : data.length ≤ buffer.length) :
    store buffer data = some (overlay buffer data) :=
  if_pos fits

theorem store_length {after : List α} (stored : store buffer data = some after) :
    after.length = buffer.length := by
  unfold store at stored
  split at stored
  · rename_i fits
    cases stored
    exact overlay_length fits
  · cases stored

theorem memset_fits (fits : cleared ≤ buffer.length) :
    memset buffer zero cleared = some (overlay buffer (List.replicate cleared zero)) :=
  store_fits (by rwa [List.length_replicate])

theorem memset_short (short : buffer.length < cleared) : memset buffer zero cleared = none := by
  apply if_neg
  rw [List.length_replicate]
  exact Nat.not_le.mpr short

theorem reused_append (writes : List (List α)) (write : List α) :
    reused zero cleared size (writes ++ [write]) =
      overlay (overlay (reused zero cleared size writes) write) (List.replicate cleared zero) := by
  rw [reused, List.foldl_append]
  rfl

theorem reused_length (fit : ∀ write ∈ writes, write.length ≤ size) (room : cleared ≤ size) :
    (reused zero cleared size writes).length = size := by
  induction writes using List.reverseRecOn with
  | nil => exact List.length_replicate
  | append_singleton writes write ih =>
    have before := ih fun other member => fit other (List.mem_append_left _ member)
    have last := fit write (List.mem_append_right _ List.mem_cons_self)
    have written : (overlay (reused zero cleared size writes) write).length = size := by
      rw [overlay_length (by rwa [before]), before]
    rw [reused_append, overlay_length (by rwa [List.length_replicate, written]), written]

theorem reused_clear_iff (whole : ∀ write ∈ writes, zero ∉ write) (inside : i < size) :
    (reused zero cleared size writes)[i]? = some zero ↔
      i < cleared ∨ ∀ write ∈ writes, write.length ≤ i := by
  induction writes using List.reverseRecOn with
  | nil => simp [reused, inside]
  | append_singleton writes write ih =>
    have before := ih fun other member => whole other (List.mem_append_left _ member)
    have last := whole write (List.mem_append_right _ List.mem_cons_self)
    rw [reused_append, getElem?_overlay, getElem?_overlay, List.length_replicate]
    by_cases front : i < cleared
    · rw [if_pos front, List.getElem?_replicate_of_lt front]
      simp [front]
    · rw [if_neg front]
      by_cases covered : i < write.length
      · rw [if_pos covered, List.getElem?_eq_getElem covered]
        have there : write[i] ≠ zero := fun same => last (same ▸ List.getElem_mem covered)
        constructor
        · intro same
          exact absurd (Option.some.inj same) there
        · rintro (cleared | none)
          · exact absurd cleared front
          · exact absurd (none write (List.mem_append_right _ List.mem_cons_self))
              (Nat.not_le.mpr covered)
      · rw [if_neg covered, before]
        simp only [front, false_or, List.mem_append, List.mem_singleton]
        constructor
        · rintro none other (member | rfl)
          · exact none other member
          · exact Nat.le_of_not_lt covered
        · intro none other member
          exact none other (Or.inl member)

end Writes

section Strings

variable {α : Type*} [DecidableEq α] {zero : α} {buffer target source string after : List α}

/-- The string in a buffer; one without an end is read behind the buffer. -/
def readString (zero : α) (buffer : List α) : Option (List α) :=
  if zero ∈ buffer then some (buffer.takeWhile (· ≠ zero)) else none

def strcpy (zero : α) (target source : List α) : Option (List α) :=
  (readString zero source).bind fun string => store target (string ++ [zero])

theorem strcpy_length (copied : strcpy zero target source = some after) :
    after.length = target.length := by
  obtain ⟨string, -, stored⟩ := Option.bind_eq_some_iff.mp copied
  exact store_length stored

theorem takeWhile_string (whole : zero ∉ string) (behind : List α) :
    (string ++ behind).takeWhile (· ≠ zero) = string ++ behind.takeWhile (· ≠ zero) := by
  apply List.takeWhile_append_of_pos
  intro c member
  have other : c ≠ zero := fun same => whole (same ▸ member)
  simpa using other

theorem strcpy_read (read : readString zero source = some string)
    (fits : string.length < target.length) :
    ∃ after, strcpy zero target source = some after ∧ readString zero after = some string := by
  have whole : zero ∉ string := by
    unfold readString at read
    split at read
    · cases read
      intro member
      simpa using List.mem_takeWhile_imp member
    · cases read
  refine ⟨overlay target (string ++ [zero]), ?_, ?_⟩
  · rw [strcpy, read]
    exact store_fits (by rwa [List.length_append, List.length_singleton])
  · rw [readString, if_pos, overlay, List.append_assoc, takeWhile_string whole]
    · simp
    · simp [overlay]

theorem read_overlay_iff (whole : zero ∉ string) (inside : string.length < buffer.length) :
    (overlay buffer string).takeWhile (· ≠ zero) = string ↔ buffer[string.length]? = some zero := by
  rw [overlay, takeWhile_string whole, List.append_right_eq_self]
  rw [List.drop_eq_getElem_cons inside, List.getElem?_eq_getElem inside, Option.some.injEq]
  by_cases same : buffer[string.length] = zero
  · simp [same]
  · rw [List.takeWhile_cons_of_pos (by simpa using same)]
    simp [same]

end Strings

end EveAgent.ScratchBuffer
