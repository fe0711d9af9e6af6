import EveAgent.CStdio

/-! A file behind a descriptor, and the lines in it. -/

namespace EveAgent

section Descriptors

/-- An open file. The offset is never behind its end. -/
structure Descriptor where
  content : Text
  offset : Nat
  deriving DecidableEq, Repr

namespace Descriptor

def seekSet (file : Descriptor) (offset : Nat) : Descriptor := { file with offset := offset }

/-- `lseek` from here on. In front of the file there is nothing, and the call fails. -/
def seekCur (file : Descriptor) (distance : Int) : Descriptor :=
  if file.offset + distance < 0 then file
  else { file with offset := (file.offset + distance).toNat }

def seekEnd (file : Descriptor) : Descriptor := { file with offset := file.content.length }

def write (file : Descriptor) (data : Text) : Descriptor where
  content := file.content.take file.offset ++ data ++ file.content.drop (file.offset + data.length)
  offset := file.offset + data.length

variable {front middle back data : Text}

theorem seekCur_back (content front middle : Text) (distance : Nat)
    (fits : middle.length = distance) :
    (Descriptor.mk content (front ++ middle).length).seekCur (-distance) =
      ⟨content, front.length⟩ := by
  have inside : ((front ++ middle).length : Int) + -distance = front.length := by
    rw [List.length_append]
    omega
  rw [seekCur]
  simp only [inside]
  rw [if_neg (by omega), Int.toNat_natCast]

theorem write_over (front middle back : Text) (data : Text) (fits : data.length = middle.length) :
    (Descriptor.mk (front ++ middle ++ back) front.length).write data =
      ⟨front ++ data ++ back, (front ++ data).length⟩ := by
  have kept : (front ++ middle ++ back).drop (front.length + data.length) = back := by
    rw [fits, ← List.length_append, List.drop_left]
  rw [write]
  simp only [kept, List.length_append]
  rw [List.append_assoc front middle, List.take_left]

theorem write_end (front middle : Text) (data : Text) (fits : middle.length ≤ data.length) :
    (Descriptor.mk (front ++ middle) front.length).write data =
      ⟨front ++ data, (front ++ data).length⟩ := by
  have kept : (front ++ middle).drop (front.length + data.length) = [] := by
    rw [List.drop_eq_nil_iff, List.length_append]
    omega
  rw [write]
  simp only [kept, List.append_nil, List.length_append, List.take_left]

end Descriptor

end Descriptors

section Lines

/-- The lines one behind the other, each with the newline that ends it. -/
def unlines (lines : List Text) : Text := lines.flatMap (· ++ ['\n'])

/-- The lines of a text, and the unfinished one behind them. -/
def splitLines : Text → List Text × Text
  | [] => ([], [])
  | c :: text =>
    if c = '\n' then ([] :: (splitLines text).1, (splitLines text).2)
    else
      match splitLines text with
      | ([], tail) => ([], c :: tail)
      | (line :: lines, tail) => ((c :: line) :: lines, tail)

variable {line rest : Text} {lines : List Text}

@[simp] theorem unlines_nil : unlines [] = [] := rfl

theorem unlines_cons (line : Text) (lines : List Text) :
    unlines (line :: lines) = line ++ '\n' :: unlines lines := by
  rw [unlines, List.flatMap_cons, List.append_assoc]
  rfl

theorem unlines_append (before after : List Text) :
    unlines (before ++ after) = unlines before ++ unlines after := List.flatMap_append

theorem unlines_singleton (line : Text) : unlines [line] = line ++ ['\n'] := by
  rw [unlines_cons, unlines_nil]

theorem splitLines_line (single : '\n' ∉ line) :
    splitLines (line ++ '\n' :: rest) = (line :: (splitLines rest).1, (splitLines rest).2) := by
  induction line with
  | nil => rw [List.nil_append, splitLines, if_pos rfl]
  | cons c line ih =>
    have other : c ≠ '\n' := fun newline => single (newline ▸ List.mem_cons_self)
    have later : '\n' ∉ line := fun member => single (List.mem_cons_of_mem _ member)
    rw [List.cons_append, splitLines, if_neg other, ih later]

theorem splitLines_unlines (single : ∀ line ∈ lines, '\n' ∉ line) :
    splitLines (unlines lines) = (lines, []) := by
  induction lines with
  | nil => rfl
  | cons line lines ih =>
    rw [unlines_cons, splitLines_line (single line List.mem_cons_self),
      ih (fun other member => single other (List.mem_cons_of_mem _ member))]

theorem splitLines_append (single : ∀ line ∈ lines, '\n' ∉ line) (rest : Text) :
    splitLines (unlines lines ++ rest) =
      (lines ++ (splitLines rest).1, (splitLines rest).2) := by
  induction lines with
  | nil => rfl
  | cons line lines ih =>
    rw [unlines_cons, List.append_assoc, List.cons_append,
      splitLines_line (single line List.mem_cons_self),
      ih (fun other member => single other (List.mem_cons_of_mem _ member)), List.cons_append]

theorem splitLines_single (text : Text) : ∀ line ∈ (splitLines text).1, '\n' ∉ line := by
  induction text with
  | nil => simp [splitLines]
  | cons c text ih =>
    unfold splitLines
    by_cases newline : c = '\n'
    · rw [if_pos newline]
      simpa using ih
    · rw [if_neg newline]
      split
      · simp
      · rename_i line lines tail parts
        rw [parts] at ih
        simpa [Ne.symm newline] using ih

theorem unlines_splitLines (text : Text) :
    unlines (splitLines text).1 ++ (splitLines text).2 = text := by
  induction text with
  | nil => rfl
  | cons c text ih =>
    unfold splitLines
    by_cases newline : c = '\n'
    · rw [if_pos newline, unlines_cons, newline, List.nil_append, List.cons_append, ih]
    · rw [if_neg newline]
      split
      · rename_i tail parts
        rw [parts] at ih
        exact congrArg (c :: ·) ih
      · rename_i line lines tail parts
        rw [parts, unlines_cons] at ih
        rw [unlines_cons, ← ih]
        rfl

theorem takeLine_line {room : Nat} (single : '\n' ∉ line) (fits : line.length < room)
    (rest : Text) : takeLine room (line ++ '\n' :: rest) = (line ++ ['\n'], rest) := by
  induction line generalizing room with
  | nil =>
    obtain ⟨room, rfl⟩ := Nat.exists_eq_add_of_lt fits
    rfl
  | cons c line ih =>
    have other : c ≠ '\n' := fun newline => single (newline ▸ List.mem_cons_self)
    have later : '\n' ∉ line := fun member => single (List.mem_cons_of_mem _ member)
    match room with
    | 0 => exact absurd fits (Nat.not_lt_zero _)
    | room + 1 =>
      have smaller : line.length < room := Nat.lt_of_succ_lt_succ fits
      rw [List.cons_append, takeLine, if_neg other, ih later smaller]
      rfl

theorem readLines_unlines {size fuel : Nat} (enough : (unlines lines).length ≤ fuel)
    (single : ∀ line ∈ lines, '\n' ∉ line) (fits : ∀ line ∈ lines, line.length + 1 < size) :
    readLines size fuel (unlines lines) = lines.map (· ++ ['\n']) := by
  induction lines generalizing fuel with
  | nil => cases fuel <;> rfl
  | cons line lines ih =>
    have room : line.length < size - 1 := by
      have here := fits line List.mem_cons_self
      omega
    have step : fgets size (unlines (line :: lines)) = some (line ++ ['\n'], unlines lines) := by
      rw [unlines_cons, fgets, if_neg (by simp),
        takeLine_line (single line List.mem_cons_self) room]
    rw [unlines_cons, List.length_append, List.length_cons] at enough
    match fuel with
    | 0 => omega
    | fuel + 1 =>
      have shorter : (unlines lines).length ≤ fuel := by omega
      have later := ih shorter
        (fun other member => single other (List.mem_cons_of_mem _ member))
        (fun other member => fits other (List.mem_cons_of_mem _ member))
      simp only [readLines, step]
      rw [later, List.map_cons]

theorem strstr_isSome_iff (pattern text : Text) :
    (strstr pattern text).isSome = true ↔ pattern <:+: text := by
  induction text with
  | nil =>
    rw [strstr, List.infix_nil]
    split <;> simp_all
  | cons c text ih =>
    rw [strstr, List.infix_cons_iff, ← ih]
    by_cases here : pattern.isPrefixOf (c :: text) = true
    · rw [if_pos here]
      exact ⟨fun _ => Or.inl (List.isPrefixOf_iff_prefix.mp here), fun _ => rfl⟩
    · rw [if_neg here]
      constructor
      · exact Or.inr
      · rintro (front | later)
        · exact absurd (List.isPrefixOf_iff_prefix.mpr front) here
        · exact later

end Lines

end EveAgent
