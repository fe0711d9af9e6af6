import EveAgent.OnesComplement

namespace EveAgent.FileTrans.Checksum

section Source

abbrev ChecksumPacket := { octets : List UInt8 // octets.length ≤ 65535 }

/-- Two octets as `*pusPkt` reads them. -/
def word (low high : UInt8) : Nat := low.toNat + 256 * high.toNat

/-- The loop over the whole words, and what is left behind it. -/
def addWords : BitVec 32 → List UInt8 → BitVec 32 × List UInt8
  | iSum, low :: high :: pusPkt => addWords (iSum + BitVec.ofNat 32 (word low high)) pusPkt
  | iSum, pusPkt => (iSum, pusPkt)

/-- The carries out of the low 16 bits are added back. -/
def addCarries (iSum : BitVec 32) : BitVec 32 :=
  let iSum := iSum.sshiftRight 16 + (iSum &&& 0xffff)
  iSum + iSum.sshiftRight 16

/-- `FileTrans_Checksum`. The odd octet is read from the begin of the packet. -/
def fileTransChecksum (pusPacket : List UInt8) : BitVec 32 :=
  let (iSum, left) := addWords 0 pusPacket
  let iSum := if left.length = 1 then iSum + BitVec.ofNat 32 (pusPacket.headD 0).toNat else iSum
  ~~~ addCarries iSum

def low16 (answer : BitVec 32) : Nat := answer.toNat % 65536

/-- A value is stored in a word of the packet, the low octet first. -/
def store (packet : List UInt8) (field value : Nat) : List UInt8 :=
  (packet.set (2 * field) (UInt8.ofNat (value % 256))).set (2 * field + 1)
    (UInt8.ofNat (value / 256))

end Source

section Property

/-- The words of a packet; an odd octet is followed by a zero. -/
def words : List UInt8 → List Nat
  | low :: high :: octets => word low high :: words octets
  | [last] => [last.toNat]
  | [] => []

def internetChecksum (packet : List UInt8) : Nat :=
  65535 - OnesComplement.total 65535 (words packet)

def Free (packet : List UInt8) (field : Nat) : Prop :=
  packet[2 * field]? = some 0 ∧ packet[2 * field + 1]? = some 0

/-- The result is the checksum, and the packet with the result in it has checksum zero. -/
def Correct (packet : List UInt8) : Prop :=
  low16 (fileTransChecksum packet) = internetChecksum packet ∧
    ∀ field, Free packet field →
      low16 (fileTransChecksum (store packet field (low16 (fileTransChecksum packet)))) = 0

/-- The last octet of a packet of odd length is its first one; and when this octet is in the
checksum field, the checksum leaves it zero. -/
def OddAsFirst (packet : List UInt8) : Prop :=
  packet.length % 2 = 1 → packet.getLastD 0 = packet.headD 0 ∧
    (Free packet 0 → internetChecksum packet % 256 = 0)

end Property

section Carries

variable {iSum : BitVec 32}

theorem addCarries_toNat (small : iSum.toNat < 2 ^ 31) :
    (addCarries iSum).toNat =
      (iSum.toNat / 65536 + iSum.toNat % 65536) +
        (iSum.toNat / 65536 + iSum.toNat % 65536) / 65536 := by
  have positive : iSum.msb = false := BitVec.msb_eq_false_iff_two_mul_lt.mpr (by omega)
  have low : (iSum &&& 0xffff).toNat = iSum.toNat % 65536 := by
    rw [BitVec.toNat_and]
    exact Nat.and_two_pow_sub_one_eq_mod iSum.toNat 16
  have first : (iSum.sshiftRight 16 + (iSum &&& 0xffff)).toNat =
      iSum.toNat / 65536 + iSum.toNat % 65536 := by
    rw [BitVec.sshiftRight_eq_of_msb_false positive, BitVec.toNat_add, BitVec.toNat_ushiftRight,
      low, Nat.shiftRight_eq_div_pow, Nat.mod_eq_of_lt (by omega)]
  have second : (iSum.sshiftRight 16 + (iSum &&& 0xffff)).msb = false :=
    BitVec.msb_eq_false_iff_two_mul_lt.mpr (by rw [first]; omega)
  rw [addCarries, BitVec.sshiftRight_eq_of_msb_false second, BitVec.toNat_add,
    BitVec.toNat_ushiftRight, first, Nat.shiftRight_eq_div_pow, Nat.mod_eq_of_lt (by omega)]

theorem low16_addCarries (small : iSum.toNat < 2 ^ 31) :
    low16 (~~~ addCarries iSum) = 65535 - OnesComplement.fold 65535 iSum.toNat := by
  have carried := addCarries_toNat small
  have folded : (addCarries iSum).toNat % 65536 = OnesComplement.fold 65535 iSum.toNat := by
    rcases Nat.eq_zero_or_pos iSum.toNat with zero | positive
    · rw [carried, zero]
      rfl
    · rw [carried, OnesComplement.fold_pos positive]
      generalize halves : iSum.toNat / 65536 + iSum.toNat % 65536 = x
      have below : iSum.toNat - 1 = 65535 * (iSum.toNat / 65536) + (x - 1) := by omega
      have bound : 0 < x ∧ x < 131071 := by omega
      rw [below, Nat.mul_add_mod]
      rcases Nat.lt_or_ge x 65536 with small | carry
      · rw [Nat.div_eq_of_lt small, Nat.add_zero, Nat.mod_eq_of_lt small,
          Nat.mod_eq_of_lt (by omega)]
        omega
      · have once : x / 65536 = 1 := by omega
        rw [once]
        omega
  rw [low16, BitVec.toNat_not, ← folded]
  have within := (addCarries iSum).isLt
  generalize (addCarries iSum).toNat = y at within
  omega

end Carries

section Sums

variable {packet : List UInt8} {field value : Nat}

def pairs : List UInt8 → List Nat
  | low :: high :: octets => word low high :: pairs octets
  | _ => []

theorem word_le (low high : UInt8) : word low high ≤ 65535 := by
  have first := low.toNat_lt
  have second := high.toNat_lt
  rw [word]
  omega

theorem addWords_eq (n : Nat) (packet : List UInt8) :
    addWords (BitVec.ofNat 32 n) packet =
      (BitVec.ofNat 32 (n + (pairs packet).sum), packet.drop (2 * (packet.length / 2))) := by
  induction packet using pairs.induct generalizing n with
  | case1 low high octets ih =>
    have length : (low :: high :: octets).length / 2 = octets.length / 2 + 1 := by
      simp only [List.length_cons]
      omega
    rw [addWords, ← BitVec.ofNat_add, ih, pairs, List.sum_cons, length, Nat.mul_succ,
      List.drop_succ_cons, List.drop_succ_cons, Nat.add_assoc]
  | case2 octets short =>
    cases octets with
    | nil => simp [addWords, pairs]
    | cons last later =>
      cases later with
      | nil => simp [addWords, pairs]
      | cons second later => exact absurd rfl (short last second later)

theorem pairs_sum_le (packet : List UInt8) :
    (pairs packet).sum ≤ 65535 * (packet.length / 2) := by
  induction packet using pairs.induct with
  | case1 low high octets ih =>
    have first := word_le low high
    have length : (low :: high :: octets).length / 2 = octets.length / 2 + 1 := by
      simp only [List.length_cons]
      omega
    rw [pairs, List.sum_cons, length]
    omega
  | case2 octets short =>
    rw [pairs.eq_2 octets short]
    exact Nat.zero_le _

def tail (packet : List UInt8) (octet : UInt8) : Nat :=
  if packet.length % 2 = 1 then octet.toNat else 0

theorem tail_lt (packet : List UInt8) (octet : UInt8) : tail packet octet < 65535 := by
  have small := octet.toNat_lt
  rw [tail]
  split <;> omega

theorem words_sum (packet : List UInt8) :
    (words packet).sum = (pairs packet).sum + tail packet (packet.getLastD 0) := by
  induction packet using words.induct with
  | case1 low high octets ih =>
    have parity : (low :: high :: octets).length % 2 = octets.length % 2 := by
      simp only [List.length_cons]
      omega
    have later : tail (low :: high :: octets) ((low :: high :: octets).getLastD 0) =
        tail octets (octets.getLastD 0) := by
      rw [tail, tail, parity]
      cases octets with
      | nil => rfl
      | cons octet octets => rfl
    rw [words, pairs, List.sum_cons, List.sum_cons, ih, later, Nat.add_assoc]
  | case2 last => simp [words, pairs, tail]
  | case3 => rfl

theorem words_le (packet : List UInt8) : ∀ w ∈ words packet, w ≤ 65535 := by
  induction packet using words.induct with
  | case1 low high octets ih =>
    intro w member
    rw [words] at member
    rcases List.mem_cons.mp member with same | later
    · rw [same]
      exact word_le low high
    · exact ih w later
  | case2 last =>
    intro w member
    have small := last.toNat_lt
    rw [words, List.mem_singleton] at member
    omega
  | case3 =>
    intro w member
    cases member

theorem checksum_eq (short : packet.length ≤ 65535) :
    low16 (fileTransChecksum packet) =
      65535 - OnesComplement.fold 65535 ((pairs packet).sum + tail packet (packet.headD 0)) := by
  have whole := pairs_sum_le packet
  have odd := tail_lt packet (packet.headD 0)
  have left : (packet.drop (2 * (packet.length / 2))).length = packet.length % 2 := by
    rw [List.length_drop]
    omega
  have sum : (if (packet.drop (2 * (packet.length / 2))).length = 1 then
      BitVec.ofNat 32 (0 + (pairs packet).sum) + BitVec.ofNat 32 (packet.headD 0).toNat
      else BitVec.ofNat 32 (0 + (pairs packet).sum)) =
      BitVec.ofNat 32 ((pairs packet).sum + tail packet (packet.headD 0)) := by
    rw [left, tail, Nat.zero_add]
    split
    · rw [BitVec.ofNat_add]
    · rfl
  have small : (BitVec.ofNat 32 ((pairs packet).sum + tail packet (packet.headD 0))).toNat =
      (pairs packet).sum + tail packet (packet.headD 0) := by
    rw [BitVec.toNat_ofNat, Nat.mod_eq_of_lt (by omega)]
  have ran : fileTransChecksum packet =
      ~~~ addCarries (BitVec.ofNat 32 ((pairs packet).sum + tail packet (packet.headD 0))) := by
    have looped := addWords_eq 0 packet
    rw [fileTransChecksum]
    change addWords 0 packet = _ at looped
    rw [looped]
    exact congrArg (fun iSum => ~~~ addCarries iSum) sum
  rw [ran, low16_addCarries (by rw [small]; omega), small]

theorem internetChecksum_eq (packet : List UInt8) :
    internetChecksum packet =
      65535 - OnesComplement.fold 65535
        ((pairs packet).sum + tail packet (packet.getLastD 0)) := by
  rw [internetChecksum, OnesComplement.total_eq (by decide) (words_le packet), words_sum]

end Sums

section Stores

variable {packet : List UInt8} {field value : Nat}

theorem store_length : (store packet field value).length = packet.length := by
  rw [store, List.length_set, List.length_set]

theorem store_succ (low high : UInt8) (octets : List UInt8) (field value : Nat) :
    store (low :: high :: octets) (field + 1) value = low :: high :: store octets field value := by
  have first : 2 * (field + 1) = 2 * field + 1 + 1 := by omega
  rw [store, store, first]
  rfl

theorem store_pairs (free : Free packet field) (small : value < 65536) :
    (pairs (store packet field value)).sum = (pairs packet).sum + value := by
  induction packet using pairs.induct generalizing field with
  | case1 low high octets ih =>
    cases field with
    | zero =>
      obtain ⟨first, second⟩ := free
      obtain rfl : low = 0 := by simpa using first
      obtain rfl : high = 0 := by simpa using second
      have stored : store (0 :: 0 :: octets) 0 value =
          UInt8.ofNat (value % 256) :: UInt8.ofNat (value / 256) :: octets := rfl
      have halves : word (UInt8.ofNat (value % 256)) (UInt8.ofNat (value / 256)) = value := by
        rw [word, UInt8.toNat_ofNat', UInt8.toNat_ofNat']
        omega
      have zero : word 0 0 = 0 := rfl
      rw [stored, pairs, pairs, List.sum_cons, List.sum_cons, halves, zero]
      omega
    | succ field =>
      have later : Free octets field := by
        obtain ⟨first, second⟩ := free
        have shifted : 2 * (field + 1) = 2 * field + 1 + 1 := by omega
        rw [shifted] at first second
        exact ⟨first, second⟩
      rw [store_succ, pairs, pairs, List.sum_cons, List.sum_cons, ih later, Nat.add_assoc]
  | case2 octets short =>
    obtain ⟨-, second⟩ := free
    cases octets with
    | nil => simp at second
    | cons last later =>
      cases later with
      | nil => simp at second
      | cons other later => exact absurd rfl (short last other later)

theorem store_tail (free : Free packet field) :
    tail (store packet field value) ((store packet field value).headD 0) =
      tail packet (packet.headD 0) +
        if packet.length % 2 = 1 ∧ field = 0 then value % 256 else 0 := by
  rw [tail, tail, store_length]
  cases packet with
  | nil => rfl
  | cons first octets =>
    cases field with
    | zero =>
      obtain ⟨zero, -⟩ := free
      obtain rfl : first = 0 := by simpa using zero
      have stored : (store (0 :: octets) 0 value).headD 0 = UInt8.ofNat (value % 256) := rfl
      rw [stored, UInt8.toNat_ofNat']
      by_cases odd : (0 :: octets).length % 2 = 1
      · rw [if_pos odd, if_pos odd, if_pos ⟨odd, rfl⟩]
        simp
      · rw [if_neg odd, if_neg odd, if_neg fun both => odd both.1]
    | succ field =>
      have stored : (store (first :: octets) (field + 1) value).headD 0 = first := by
        have position : 2 * (field + 1) = 2 * field + 1 + 1 := by omega
        rw [store, position]
        rfl
      have absent : ¬ ((first :: octets).length % 2 = 1 ∧ field + 1 = 0) :=
        fun both => absurd both.2 (Nat.succ_ne_zero field)
      rw [stored, if_neg absent, Nat.add_zero]
      rfl

end Stores

section Correctness

variable {packet : List UInt8} {field : Nat}

theorem stored_zero_iff (short : packet.length ≤ 65535) (free : Free packet field) :
    low16 (fileTransChecksum (store packet field (low16 (fileTransChecksum packet)))) = 0 ↔
      (packet.length % 2 = 1 → field = 0 → low16 (fileTransChecksum packet) % 256 = 0) := by
  have result := checksum_eq short
  have small : low16 (fileTransChecksum packet) < 65536 := Nat.mod_lt _ (by decide)
  rw [checksum_eq (by rw [store_length]; exact short), store_pairs free small,
    store_tail free]
  have complement := OnesComplement.fold_complement (m := 65535) (by decide)
    ((pairs packet).sum + tail packet (packet.headD 0))
  rw [← result] at complement
  generalize low16 (fileTransChecksum packet) = value at small complement
  generalize more : (if packet.length % 2 = 1 ∧ field = 0 then value % 256 else 0) = octet
  have within : octet < 65535 := by
    rw [← more]
    split <;> omega
  have zero := OnesComplement.fold_add_inj (b := 0) (m := 65535) (a := octet)
    (n := (pairs packet).sum + tail packet (packet.headD 0) + value) within (by decide)
  rw [Nat.add_zero, complement] at zero
  have moved : (pairs packet).sum + value + (tail packet (packet.headD 0) + octet) =
      (pairs packet).sum + tail packet (packet.headD 0) + value + octet := by omega
  have bound := OnesComplement.fold_le (m := 65535) (by decide)
    ((pairs packet).sum + tail packet (packet.headD 0) + value + octet)
  calc
    65535 - OnesComplement.fold 65535
          ((pairs packet).sum + value + (tail packet (packet.headD 0) + octet)) = 0
        ↔ OnesComplement.fold 65535
            ((pairs packet).sum + tail packet (packet.headD 0) + value + octet) = 65535 := by
          rw [moved]
          omega
    _ ↔ octet = 0 := zero
    _ ↔ (packet.length % 2 = 1 → field = 0 → value % 256 = 0) := by
          rw [← more, ite_eq_right_iff, and_imp]

theorem right_iff (short : packet.length ≤ 65535) :
    low16 (fileTransChecksum packet) = internetChecksum packet ↔
      (packet.length % 2 = 1 → packet.getLastD 0 = packet.headD 0) := by
  have first := OnesComplement.fold_le (m := 65535) (by decide)
    ((pairs packet).sum + tail packet (packet.headD 0))
  have second := OnesComplement.fold_le (m := 65535) (by decide)
    ((pairs packet).sum + tail packet (packet.getLastD 0))
  rw [checksum_eq short, internetChecksum_eq]
  calc
    65535 - OnesComplement.fold 65535 ((pairs packet).sum + tail packet (packet.headD 0)) =
          65535 - OnesComplement.fold 65535 ((pairs packet).sum + tail packet (packet.getLastD 0))
        ↔ OnesComplement.fold 65535 ((pairs packet).sum + tail packet (packet.getLastD 0)) =
            OnesComplement.fold 65535 ((pairs packet).sum + tail packet (packet.headD 0)) := by
          omega
    _ ↔ tail packet (packet.getLastD 0) = tail packet (packet.headD 0) :=
          OnesComplement.fold_add_inj (tail_lt packet _) (tail_lt packet _)
    _ ↔ (packet.length % 2 = 1 → packet.getLastD 0 = packet.headD 0) := by
          rw [tail, tail]
          by_cases odd : packet.length % 2 = 1
          · rw [if_pos odd, if_pos odd, UInt8.toNat_inj]
            exact ⟨fun same _ => same, fun same => same odd⟩
          · rw [if_neg odd, if_neg odd]
            exact iff_of_true rfl fun other => absurd other odd

/-- The result is the Internet checksum, and makes the checksum of its packet zero, exactly when
the length is even or the first octet stands for the last one. -/
theorem checksum_correct_iff (packet : ChecksumPacket) :
    Correct packet.val ↔ OddAsFirst packet.val := by
  have right := right_iff packet.property
  have stored := fun field free => @stored_zero_iff packet.val field packet.property free
  constructor
  · rintro ⟨same, zero⟩ odd
    refine ⟨right.mp same odd, fun free => ?_⟩
    rw [← same]
    exact (stored 0 free).mp (zero 0 free) odd rfl
  · intro first
    have same := right.mpr fun odd => (first odd).1
    refine ⟨same, fun field free => (stored field free).mpr ?_⟩
    rintro odd rfl
    rw [same]
    exact (first odd).2 free

/-- Three octets, of which the last is read as the first. -/
theorem three_octets_wrong : ¬ Correct [1, 2, 3] := by
  rintro ⟨same, -⟩
  exact absurd same (by decide)

end Correctness

end EveAgent.FileTrans.Checksum
