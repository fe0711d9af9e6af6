import EveAgent.Overlay

/-! A regular file that is open for writing. -/

namespace EveAgent

@[ext] structure OpenFile where
  content : List UInt8
  offset : Nat
  within : offset ≤ content.length
  deriving DecidableEq, Repr

/-- `open` of a file that is not truncated. -/
def openKept (content : List UInt8) : OpenFile := ⟨content, 0, Nat.zero_le _⟩

theorem OpenFile.write_within (file : OpenFile) (bytes : List UInt8) : file.offset + bytes.length ≤
    (file.content.take file.offset ++ overlay (file.content.drop file.offset) bytes).length := by
  have within := file.within
  rw [overlay, List.length_append, List.length_append, List.length_take, Nat.min_eq_left within]
  omega

def OpenFile.write (file : OpenFile) (bytes : List UInt8) : OpenFile where
  content := file.content.take file.offset ++ overlay (file.content.drop file.offset) bytes
  offset := file.offset + bytes.length
  within := file.write_within bytes

section Write

variable {file : OpenFile} {old new : List UInt8}

@[simp] theorem write_offset (file : OpenFile) (bytes : List UInt8) :
    (file.write bytes).offset = file.offset + bytes.length := rfl

theorem write_nil (file : OpenFile) : file.write [] = file := by
  apply OpenFile.ext
  · simp [OpenFile.write, overlay]
  · simp

theorem write_write (file : OpenFile) (first second : List UInt8) :
    (file.write first).write second = file.write (first ++ second) := by
  have within := file.within
  have place : (file.content.take file.offset ++ first).length = file.offset + first.length := by
    rw [List.length_append, List.length_take, Nat.min_eq_left within]
  apply OpenFile.ext
  · change ((file.content.take file.offset ++ (first ++ _)).take (file.offset + first.length)) ++
      overlay ((file.content.take file.offset ++ (first ++ _)).drop (file.offset + first.length))
        second = _
    rw [← List.append_assoc, ← place, List.take_left, List.drop_left]
    simp only [OpenFile.write, overlay, List.append_assoc, List.length_append, List.drop_drop,
      Nat.add_assoc]
  · simp only [write_offset, List.length_append]
    omega

theorem write_all (file : OpenFile) (writes : List (List UInt8)) :
    writes.foldl OpenFile.write file = file.write writes.flatten := by
  induction writes generalizing file with
  | nil => exact (write_nil file).symm
  | cons bytes writes ih =>
    rw [List.foldl_cons, ih, write_write]
    rfl

theorem openKept_write (old new : List UInt8) :
    ((openKept old).write new).content = overlay old new := by
  simp [OpenFile.write, openKept]

theorem overlay_eq_iff : overlay old new = new ↔ old.length ≤ new.length := by
  rw [overlay, List.append_right_eq_self, List.drop_eq_nil_iff]

end Write

end EveAgent
