import EveAgent.Overlay

/-! Files of bytes that consist of records of one size. -/

namespace EveAgent

abbrev Block (size : Nat) := { bytes : List UInt8 // bytes.length = size }

namespace RecordFile

section Access

variable {size : Nat}

def readAt (file : List UInt8) (offset count : Nat) : List UInt8 := (file.drop offset).take count

/-- Behind the end of the file a write leaves zeros in front of what it writes. -/
def writeAt (file : List UInt8) (offset : Nat) (data : List UInt8) : List UInt8 :=
  file.take offset ++ List.replicate (offset - file.length) 0 ++ data ++
    file.drop (offset + data.length)

/-- What a read leaves in a buffer of the size of a record. -/
def fill (buffer : Block size) (chunk : List UInt8) : Block size :=
  ⟨overlay buffer.val (chunk.take size), by
    rw [overlay_length, buffer.property]
    rw [List.length_take, buffer.property]
    exact Nat.min_le_left _ _⟩

/-- What the buffer holds after each read, up to the end of the file. -/
def readRecords (buffer : Block size) : Nat → List UInt8 → List (Block size)
  | 0, _ => []
  | _ + 1, [] => []
  | fuel + 1, file => fill buffer file :: readRecords (fill buffer file) fuel (file.drop size)

def bytesOf (records : List (Block size)) : List UInt8 := records.flatMap Subtype.val

end Access

section Records

variable {size k : Nat} {records : List (Block size)} {record buffer : Block size}

@[simp] theorem bytesOf_nil : bytesOf ([] : List (Block size)) = [] := rfl

theorem bytesOf_cons (record : Block size) (records : List (Block size)) :
    bytesOf (record :: records) = record.val ++ bytesOf records := List.flatMap_cons

theorem bytesOf_append (front back : List (Block size)) :
    bytesOf (front ++ back) = bytesOf front ++ bytesOf back := List.flatMap_append

@[simp] theorem bytesOf_length (records : List (Block size)) :
    (bytesOf records).length = records.length * size := by
  induction records with
  | nil => rw [bytesOf_nil, List.length_nil, List.length_nil, Nat.zero_mul]
  | cons record records ih =>
    rw [bytesOf_cons, List.length_append, record.property, ih, List.length_cons, Nat.succ_mul,
      Nat.add_comm]

theorem drop_bytesOf (k : Nat) (records : List (Block size)) :
    (bytesOf records).drop (k * size) = bytesOf (records.drop k) := by
  induction k generalizing records with
  | zero => rw [Nat.zero_mul, List.drop_zero, List.drop_zero]
  | succ k ih =>
    match records with
    | [] => simp
    | record :: records =>
      have first : (record.val ++ bytesOf records).drop size = bytesOf records := by
        rw [List.drop_left' record.property]
      rw [Nat.succ_mul, Nat.add_comm, ← List.drop_drop, bytesOf_cons, first, ih,
        List.drop_succ_cons]

theorem take_bytesOf (k : Nat) (records : List (Block size)) :
    (bytesOf records).take (k * size) = bytesOf (records.take k) := by
  induction k generalizing records with
  | zero => simp
  | succ k ih =>
    match records with
    | [] => simp
    | record :: records =>
      have front : (record.val ++ bytesOf records).take (size + k * size) =
          record.val ++ (bytesOf records).take (k * size) := by
        rw [List.take_append, record.property, List.take_of_length_le]
        · rw [Nat.add_sub_cancel_left]
        · rw [record.property]
          exact Nat.le_add_right _ _
      rw [Nat.succ_mul, Nat.add_comm, bytesOf_cons, front, ih, List.take_succ_cons, bytesOf_cons]

theorem readAt_inside (inside : k < records.length) :
    readAt (bytesOf records) (k * size) size = (records[k]).val := by
  rw [readAt, drop_bytesOf, List.drop_eq_getElem_cons inside, bytesOf_cons,
    List.take_left' (records[k]).property]

theorem readAt_end : readAt (bytesOf records) (records.length * size) size = [] := by
  rw [readAt, drop_bytesOf, List.drop_length, bytesOf_nil, List.take_nil]

theorem writeAt_record (within : k ≤ records.length) (record : Block size) :
    writeAt (bytesOf records) (k * size) record.val =
      bytesOf (records.take k ++ record :: records.drop (k + 1)) := by
  have noHole : k * size - (bytesOf records).length = 0 := by
    rw [bytesOf_length]
    exact Nat.sub_eq_zero_of_le (Nat.mul_le_mul_right size within)
  have behind : k * size + record.val.length = (k + 1) * size := by
    rw [record.property, Nat.succ_mul]
  rw [writeAt, noHole, List.replicate_zero, List.append_nil, behind, take_bytesOf, drop_bytesOf,
    bytesOf_append, bytesOf_cons, List.append_assoc]

theorem fill_record (buffer record : Block size) (rest : List UInt8) :
    fill buffer (record.val ++ rest) = record := by
  apply Subtype.ext
  show overlay buffer.val ((record.val ++ rest).take size) = record.val
  rw [List.take_left' record.property, overlay_full]
  rw [record.property, buffer.property]

theorem readRecords_bytesOf {fuel : Nat} (positive : 0 < size) (enough : records.length ≤ fuel) :
    readRecords buffer fuel (bytesOf records) = records := by
  induction records generalizing buffer fuel with
  | nil => cases fuel <;> rfl
  | cons record records ih =>
    match fuel with
    | 0 => exact absurd enough (Nat.not_succ_le_zero _)
    | fuel + 1 =>
      obtain ⟨byte, bytes, filled⟩ :
          ∃ byte bytes, bytesOf (record :: records) = byte :: bytes := by
        apply List.exists_cons_of_ne_nil
        apply List.ne_nil_of_length_pos
        rw [bytesOf_length, List.length_cons, Nat.succ_mul]
        exact Nat.lt_of_lt_of_le positive (Nat.le_add_left _ _)
      have first : fill buffer (byte :: bytes) = record := by
        rw [← filled, bytesOf_cons, fill_record]
      have rest : (byte :: bytes).drop size = bytesOf records := by
        rw [← filled, bytesOf_cons, List.drop_left' record.property]
      rw [filled, readRecords, first, rest, ih (Nat.le_of_succ_le_succ enough)]
      exact List.cons_ne_nil _ _

theorem readRecords_enough (positive : 0 < size) (buffer : Block size) {fuel : Nat}
    {file : List UInt8} (enough : file.length ≤ fuel) :
    readRecords buffer fuel file = readRecords buffer file.length file := by
  induction fuel using Nat.strong_induction_on generalizing buffer file with
  | _ fuel ih =>
    match fuel, file with
    | 0, [] => rfl
    | fuel + 1, [] => rfl
    | 0, byte :: bytes => exact absurd enough (Nat.not_succ_le_zero _)
    | fuel + 1, byte :: bytes =>
      have shorter : ((byte :: bytes).drop size).length ≤ bytes.length := by
        rw [List.length_drop, List.length_cons]
        omega
      have within : bytes.length ≤ fuel := Nat.le_of_succ_le_succ enough
      rw [List.length_cons, readRecords, readRecords,
        ih fuel (Nat.lt_succ_self _) _ (shorter.trans within)]
      · congr 1
        exact (ih bytes.length (Nat.lt_succ_of_le within) _ shorter).symm
      · exact List.cons_ne_nil _ _
      · exact List.cons_ne_nil _ _

theorem readRecords_append (positive : 0 < size) (buffer : Block size)
    (records : List (Block size)) (rest : List UInt8) :
    readRecords buffer (bytesOf records ++ rest).length (bytesOf records ++ rest) =
      records ++ readRecords (records.getLastD buffer) rest.length rest := by
  induction records generalizing buffer with
  | nil => rfl
  | cons record records ih =>
    obtain ⟨byte, bytes, filled⟩ : ∃ byte bytes,
        bytesOf (record :: records) ++ rest = byte :: bytes := by
      apply List.exists_cons_of_ne_nil
      apply List.ne_nil_of_length_pos
      rw [List.length_append, bytesOf_length, List.length_cons, Nat.succ_mul]
      omega
    have first : fill buffer (byte :: bytes) = record := by
      rw [← filled, bytesOf_cons, List.append_assoc, fill_record]
    have later : (byte :: bytes).drop size = bytesOf records ++ rest := by
      rw [← filled, bytesOf_cons, List.append_assoc, List.drop_left' record.property]
    have shorter : (bytesOf records ++ rest).length ≤ bytes.length := by
      rw [← later, List.length_drop, List.length_cons]
      omega
    have last : (record :: records).getLastD buffer = records.getLastD record := by
      cases records <;> rfl
    rw [filled, List.length_cons, readRecords, first, later,
      readRecords_enough positive record shorter, ih, last, List.cons_append]
    exact List.cons_ne_nil _ _

end Records

section Whole

variable {size : Nat} {records : List (Block size)}

/-- What `fread` takes for records: only those that are there as a whole. -/
def freadRecords : Nat → List UInt8 → List (Block size)
  | 0, _ => []
  | fuel + 1, file =>
    if whole : size ≤ file.length then
      ⟨file.take size, List.length_take_of_le whole⟩ :: freadRecords fuel (file.drop size)
    else []

theorem freadRecords_bytesOf {fuel : Nat} {rest : List UInt8} (short : rest.length < size)
    (enough : records.length ≤ fuel) :
    freadRecords fuel (bytesOf records ++ rest) = records := by
  induction records generalizing fuel with
  | nil =>
    cases fuel with
    | zero => rfl
    | succ fuel => rw [bytesOf_nil, List.nil_append, freadRecords, dif_neg (Nat.not_le.mpr short)]
  | cons record records ih =>
    match fuel with
    | 0 => exact absurd enough (Nat.not_succ_le_zero _)
    | fuel + 1 =>
      have whole : size ≤ (bytesOf (record :: records) ++ rest).length := by
        rw [bytesOf_cons, List.length_append, List.length_append, record.property]
        omega
      have first : (bytesOf (record :: records) ++ rest).take size = record.val := by
        rw [bytesOf_cons, List.append_assoc, List.take_left' record.property]
      have behind : (bytesOf (record :: records) ++ rest).drop size =
          bytesOf records ++ rest := by
        rw [bytesOf_cons, List.append_assoc, List.drop_left' record.property]
      rw [freadRecords, dif_pos whole, behind, ih (Nat.le_of_succ_le_succ enough)]
      exact congrArg (· :: records) (Subtype.ext first)

theorem take_bytesOf_cut (positive : 0 < size) (records : List (Block size)) (room : Nat) :
    ∃ rest : List UInt8, rest.length < size ∧
      (bytesOf records).take room = bytesOf (records.take (room / size)) ++ rest := by
  refine ⟨((bytesOf records).drop (room / size * size)).take (room % size), ?_, ?_⟩
  · rw [List.length_take]
    exact Nat.lt_of_le_of_lt (Nat.min_le_left _ _) (Nat.mod_lt _ positive)
  · have parts : room = room / size * size + room % size := by
      rw [Nat.mul_comm, Nat.div_add_mod]
    rw [← take_bytesOf, ← List.take_add, ← parts]

theorem freadRecords_cut (positive : 0 < size) (records : List (Block size)) (room : Nat) :
    freadRecords ((bytesOf records).take room).length ((bytesOf records).take room) =
      records.take (room / size) := by
  obtain ⟨rest, short, cut⟩ := take_bytesOf_cut positive records room
  rw [cut]
  apply freadRecords_bytesOf short
  rw [List.length_append, bytesOf_length]
  exact Nat.le_add_right_of_le (Nat.le_mul_of_pos_right _ positive)

end Whole

section Words

/-- A number in so many bytes, the low ones first. -/
def wordBytes : Nat → Nat → List UInt8
  | 0, _ => []
  | k + 1, n => UInt8.ofNat n :: wordBytes k (n / 256)

def wordOf : List UInt8 → Nat
  | [] => 0
  | byte :: bytes => byte.toNat + 256 * wordOf bytes

@[simp] theorem wordBytes_length (k n : Nat) : (wordBytes k n).length = k := by
  induction k generalizing n with
  | zero => rfl
  | succ k ih => rw [wordBytes, List.length_cons, ih]

theorem wordOf_wordBytes (k n : Nat) : wordOf (wordBytes k n) = n % 256 ^ k := by
  induction k generalizing n with
  | zero => rw [wordBytes, wordOf, Nat.pow_zero, Nat.mod_one]
  | succ k ih => rw [wordBytes, wordOf, ih, Nat.pow_succ', Nat.mod_mul, UInt8.toNat_ofNat']

end Words

end RecordFile

end EveAgent
