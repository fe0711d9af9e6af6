import Mathlib

namespace EveAgent.MasterAgent.Encryption

section Source

abbrev Block := Fin 8 → UInt8

/-- `encrypt_block` and `decrypt_block` for one context. -/
structure BlockCipher where
  encryptBlock : Block → Block
  decryptBlock : Block → Block
  decrypt_encrypt : ∀ block, decryptBlock (encryptBlock block) = block

def maxMsgSize : Nat := 2048

/-- What is in a buffer of `MAX_MSG_SIZE` octets. -/
abbrev Buffer := Nat → UInt8

/-- The octets from `&buff[i]`. -/
def blockAt (buff : Buffer) (i : Nat) : Block := fun k => buff (i + k)

def putBlock (buff : Buffer) (i : Nat) (block : Block) : Buffer := fun j =>
  if inside : i ≤ j ∧ j < i + 8 then block ⟨j - i, by omega⟩ else buff j

/-- Where the first zero is; `maxMsgSize` if there is none. -/
def strlen (buff : Buffer) : Nat := (List.range maxMsgSize).findIdx fun i => buff i == 0

def cString (buff : Buffer) : List UInt8 := (List.range (strlen buff)).map buff

def padded (inbuff : Buffer) : Buffer := fun i =>
  if strlen inbuff ≤ i ∧ i < strlen inbuff / 8 * 8 + 8 then 0 else inbuff i

/-- What is in `outbuff` afterwards; `inbuff` is padded. The two do not overlap, here and below. -/
def nasEncrypt (bctx : BlockCipher) (outbuff inbuff : Buffer) : Buffer :=
  (List.range (strlen inbuff / 8 + 1)).foldl
    (fun outbuff k =>
      putBlock outbuff (8 * k) (bctx.encryptBlock (blockAt (padded inbuff) (8 * k))))
    outbuff

/-- The loop with so many blocks left up to `MAX_MSG_SIZE`: what is in `outbuff`, and up to where
the two buffers have been read and written. -/
def decryptLoop (bctx : BlockCipher) (inbuff : Buffer) : Nat → Nat → Buffer → Buffer × Nat
  | 0, k, outbuff => (outbuff, 8 * k)
  | left + 1, k, outbuff =>
    let outbuff := putBlock outbuff (8 * k) (bctx.decryptBlock (blockAt inbuff (8 * k)))
    if inbuff (8 * k + 8 - 1) = 0 then (outbuff, 8 * (k + 1))
    else decryptLoop bctx inbuff left (k + 1) outbuff

def nasDecrypt (bctx : BlockCipher) (outbuff inbuff : Buffer) : Buffer × Nat :=
  decryptLoop bctx inbuff (maxMsgSize / 8) 0 outbuff

end Source

section Property

/-- Whatever is in the buffers before, the decrypted string is the message, and only the blocks
that were encrypted are read and written. -/
def RoundTrips (bctx : BlockCipher) (inbuff : Buffer) : Prop :=
  ∀ encrypted plain,
    cString (nasDecrypt bctx plain (nasEncrypt bctx encrypted inbuff)).1 = cString inbuff ∧
      (nasDecrypt bctx plain (nasEncrypt bctx encrypted inbuff)).2 ≤ (strlen inbuff / 8 + 1) * 8

/-- A block of the message, with zeros behind its end. -/
def messageBlock (message : List UInt8) (k : Nat) : Block := fun j => message.getD (8 * k + j) 0

/-- Of the blocks of the message exactly the last one ends in a zero when it is encrypted. -/
def LastEndsInZero (bctx : BlockCipher) (message : List UInt8) : Prop :=
  ∀ k ≤ message.length / 8,
    bctx.encryptBlock (messageBlock message k) 7 = 0 ↔ k = message.length / 8

instance (bctx : BlockCipher) (message : List UInt8) :
    Decidable (LastEndsInZero bctx message) :=
  inferInstanceAs (Decidable (∀ k ≤ _, _ ↔ _))

end Property

section Blocks

variable {bctx : BlockCipher} {buff inbuff outbuff : Buffer} {k b m c left : Nat} {block : Block}

theorem blockAt_put_same (buff : Buffer) (k : Nat) (block : Block) :
    blockAt (putBlock buff (8 * k) block) (8 * k) = block := by
  funext j
  have inside : 8 * k ≤ 8 * k + j.val ∧ 8 * k + j.val < 8 * k + 8 := by omega
  rw [blockAt, putBlock, dif_pos inside]
  congr
  omega

theorem blockAt_put_other (buff : Buffer) (block : Block) (other : b ≠ k) :
    blockAt (putBlock buff (8 * k) block) (8 * b) = blockAt buff (8 * b) := by
  funext j
  have outside : ¬(8 * k ≤ 8 * b + j.val ∧ 8 * b + j.val < 8 * k + 8) := by omega
  rw [blockAt, putBlock, dif_neg outside, blockAt]

theorem blockAt_octet (buff : Buffer) (i : Nat) :
    buff i = blockAt buff (8 * (i / 8)) ⟨i % 8, by omega⟩ := by
  exact congrArg buff (Nat.div_add_mod i 8).symm

theorem blockAt_fold (blocks : Nat → Block) (m b : Nat) (outbuff : Buffer) :
    blockAt ((List.range m).foldl (fun outbuff k => putBlock outbuff (8 * k) (blocks k)) outbuff)
      (8 * b) = if b < m then blocks b else blockAt outbuff (8 * b) := by
  induction m with
  | zero => rfl
  | succ m ih =>
    rw [List.range_succ, List.foldl_append, List.foldl_cons, List.foldl_nil]
    by_cases last : b = m
    · subst last
      rw [blockAt_put_same, if_pos (Nat.lt_succ_self b)]
    · rw [blockAt_put_other _ _ last, ih]
      by_cases below : b < m
      · rw [if_pos below, if_pos (by omega)]
      · rw [if_neg below, if_neg (by omega)]

theorem octet_ne_zero {i : Nat} (inside : i < strlen buff) : buff i ≠ 0 := by
  have here := List.not_of_lt_findIdx inside
  rw [List.getElem_range] at here
  exact beq_eq_false_iff_ne.mp here

theorem octet_strlen (short : strlen buff < maxMsgSize) : buff (strlen buff) = 0 := by
  have inside : (List.range maxMsgSize).findIdx (fun i => buff i == 0) <
      (List.range maxMsgSize).length := by
    rw [List.length_range]
    exact short
  have here := List.findIdx_getElem (w := inside)
  rw [List.getElem_range] at here
  exact beq_iff_eq.mp here

theorem strlen_eq {n : Nat} (filled : ∀ i < n, buff i ≠ 0) (ended : buff n = 0)
    (short : n < maxMsgSize) : strlen buff = n := by
  apply (List.findIdx_eq (by rw [List.length_range]; exact short)).mpr
  constructor
  · rw [List.getElem_range]
    exact beq_iff_eq.mpr ended
  · intro i below
    rw [List.getElem_range]
    exact beq_eq_false_iff_ne.mpr (filled i below)

theorem cString_congr (same : ∀ i ≤ strlen inbuff, buff i = inbuff i)
    (short : strlen inbuff < maxMsgSize) : cString buff = cString inbuff := by
  have length : strlen buff = strlen inbuff := by
    apply strlen_eq _ _ short
    · intro i below
      rw [same i (Nat.le_of_lt below)]
      exact octet_ne_zero below
    · rw [same _ (Nat.le_refl _)]
      exact octet_strlen short
  rw [cString, cString, length]
  apply List.map_congr_left
  intro i member
  exact same i (Nat.le_of_lt (List.mem_range.mp member))

theorem cString_getD {i : Nat} : (cString inbuff).getD i 0 =
    if i < strlen inbuff then inbuff i else 0 := by
  rw [cString, List.getD_eq_getElem?_getD, List.getElem?_map]
  by_cases inside : i < strlen inbuff
  · rw [if_pos inside, List.getElem?_range inside]
    rfl
  · rw [if_neg inside, List.getElem?_eq_none (by rw [List.length_range]; omega)]
    rfl

theorem length_cString (buff : Buffer) : (cString buff).length = strlen buff := by
  rw [cString, List.length_map, List.length_range]

theorem blockAt_padded (inbuff : Buffer) (inside : k ≤ strlen inbuff / 8) :
    blockAt (padded inbuff) (8 * k) = messageBlock (cString inbuff) k := by
  funext j
  rw [blockAt, messageBlock, cString_getD, padded]
  by_cases front : 8 * k + j.val < strlen inbuff
  · rw [if_neg (by omega), if_pos front]
  · rw [if_pos (by omega), if_neg front]

theorem blockAt_nasEncrypt (inbuff : Buffer) (inside : k ≤ strlen inbuff / 8) :
    blockAt (nasEncrypt bctx outbuff inbuff) (8 * k) =
      bctx.encryptBlock (messageBlock (cString inbuff) k) := by
  rw [nasEncrypt, blockAt_fold, if_pos (Nat.lt_succ_of_le inside), blockAt_padded inbuff inside]

end Blocks

section Decryption

variable {bctx : BlockCipher} {inbuff outbuff : Buffer} {k m c left : Nat}

theorem decryptLoop_stops (bctx : BlockCipher) (k : Nat) (outbuff : Buffer)
    (before : ∀ j < c, inbuff (8 * (k + j) + 7) ≠ 0) (zero : inbuff (8 * (k + c) + 7) = 0)
    (room : c < left) :
    (decryptLoop bctx inbuff left k outbuff).2 = 8 * (k + c + 1) ∧
      ∀ b, blockAt (decryptLoop bctx inbuff left k outbuff).1 (8 * b) =
        if k ≤ b ∧ b ≤ k + c then bctx.decryptBlock (blockAt inbuff (8 * b))
        else blockAt outbuff (8 * b) := by
  induction c generalizing left k outbuff with
  | zero =>
    obtain ⟨left, rfl⟩ := Nat.exists_eq_succ_of_ne_zero (Nat.ne_of_gt room)
    have first : inbuff (8 * k + 8 - 1) = 0 := zero
    rw [decryptLoop, if_pos first]
    refine ⟨rfl, ?_⟩
    intro b
    by_cases same : b = k
    · subst same
      rw [if_pos ⟨Nat.le_refl b, Nat.le_refl b⟩, blockAt_put_same]
    · rw [if_neg (by omega), blockAt_put_other _ _ same]
  | succ c ih =>
    obtain ⟨left, rfl⟩ := Nat.exists_eq_succ_of_ne_zero (Nat.ne_of_gt (Nat.zero_lt_of_lt room))
    have first : inbuff (8 * k + 8 - 1) ≠ 0 := before 0 (Nat.succ_pos c)
    have later : ∀ j < c, inbuff (8 * (k + 1 + j) + 7) ≠ 0 := by
      intro j below
      have shifted := before (j + 1) (Nat.succ_lt_succ below)
      rwa [show k + (j + 1) = k + 1 + j by omega] at shifted
    have last : inbuff (8 * (k + 1 + c) + 7) = 0 := by
      rwa [show k + 1 + c = k + (c + 1) by omega]
    rw [decryptLoop, if_neg first]
    obtain ⟨extent, blocks⟩ := ih (k + 1)
      (putBlock outbuff (8 * k) (bctx.decryptBlock (blockAt inbuff (8 * k)))) later last
      (Nat.lt_of_succ_lt_succ room)
    refine ⟨by rw [extent]; omega, ?_⟩
    intro b
    rw [blocks b]
    by_cases same : b = k
    · subst same
      rw [if_neg (by omega), if_pos (by omega), blockAt_put_same]
    · rw [blockAt_put_other _ _ same]
      by_cases inside : k + 1 ≤ b ∧ b ≤ k + 1 + c
      · rw [if_pos inside, if_pos (by omega)]
      · rw [if_neg inside, if_neg (by omega)]

theorem decryptLoop_extent (left k : Nat) (outbuff : Buffer) :
    8 * k ≤ (decryptLoop bctx inbuff left k outbuff).2 := by
  induction left generalizing k outbuff with
  | zero => exact Nat.le_refl _
  | succ left ih =>
    rw [decryptLoop]
    split
    · exact Nat.mul_le_mul_left 8 (Nat.le_succ k)
    · have more := ih (k + 1)
        (putBlock outbuff (8 * k) (bctx.decryptBlock (blockAt inbuff (8 * k))))
      omega

theorem decryptLoop_runs (bctx : BlockCipher) (k : Nat) (outbuff : Buffer)
    (before : ∀ j < m, inbuff (8 * (k + j) + 7) ≠ 0) (room : m < left) :
    8 * (k + m + 1) ≤ (decryptLoop bctx inbuff left k outbuff).2 := by
  induction m generalizing left k outbuff with
  | zero =>
    obtain ⟨left, rfl⟩ := Nat.exists_eq_succ_of_ne_zero (Nat.ne_of_gt room)
    rw [decryptLoop]
    split
    · exact Nat.le_refl _
    · exact decryptLoop_extent left (k + 1) _
  | succ m ih =>
    obtain ⟨left, rfl⟩ := Nat.exists_eq_succ_of_ne_zero (Nat.ne_of_gt (Nat.zero_lt_of_lt room))
    have first : inbuff (8 * k + 8 - 1) ≠ 0 := before 0 (Nat.succ_pos m)
    have later : ∀ j < m, inbuff (8 * (k + 1 + j) + 7) ≠ 0 := by
      intro j below
      have shifted := before (j + 1) (Nat.succ_lt_succ below)
      rwa [show k + (j + 1) = k + 1 + j by omega] at shifted
    rw [decryptLoop, if_neg first]
    have more := ih (k + 1)
      (putBlock outbuff (8 * k) (bctx.decryptBlock (blockAt inbuff (8 * k)))) later
      (Nat.lt_of_succ_lt_succ room)
    omega

theorem nasDecrypt_stops (bctx : BlockCipher) (outbuff : Buffer)
    (before : ∀ j < c, inbuff (8 * j + 7) ≠ 0)
    (zero : inbuff (8 * c + 7) = 0) (room : c < maxMsgSize / 8) :
    (nasDecrypt bctx outbuff inbuff).2 = 8 * (c + 1) ∧
      ∀ i, (nasDecrypt bctx outbuff inbuff).1 i =
        if i / 8 ≤ c then bctx.decryptBlock (blockAt inbuff (8 * (i / 8))) ⟨i % 8, by omega⟩
        else outbuff i := by
  obtain ⟨extent, blocks⟩ := decryptLoop_stops bctx 0 outbuff
    (by simpa only [Nat.zero_add] using before) (by simpa only [Nat.zero_add] using zero) room
  rw [Nat.zero_add] at extent blocks
  refine ⟨extent, ?_⟩
  intro i
  refine (blockAt_octet _ i).trans ?_
  refine (congrFun (blocks (i / 8)) _).trans ?_
  by_cases inside : i / 8 ≤ c
  · rw [if_pos ⟨Nat.zero_le _, inside⟩, if_pos inside]
  · rw [if_neg (fun both => inside both.2), if_neg inside]
    exact (blockAt_octet outbuff i).symm

theorem nasEncrypt_last (bctx : BlockCipher) (outbuff inbuff : Buffer)
    (inside : k ≤ strlen inbuff / 8) :
    nasEncrypt bctx outbuff inbuff (8 * k + 7) =
      bctx.encryptBlock (messageBlock (cString inbuff) k) 7 := by
  rw [← blockAt_nasEncrypt inbuff inside]
  rfl

theorem roundTrips_of_ends (short : strlen inbuff < maxMsgSize - 8)
    (ends : LastEndsInZero bctx (cString inbuff)) : RoundTrips bctx inbuff := by
  intro encrypted plain
  have bound : maxMsgSize = 2048 := rfl
  rw [LastEndsInZero, length_cString] at ends
  have before : ∀ j < strlen inbuff / 8, nasEncrypt bctx encrypted inbuff (8 * j + 7) ≠ 0 := by
    intro j below zero
    rw [nasEncrypt_last bctx encrypted inbuff (Nat.le_of_lt below)] at zero
    exact Nat.ne_of_lt below ((ends j (Nat.le_of_lt below)).mp zero)
  have last : nasEncrypt bctx encrypted inbuff (8 * (strlen inbuff / 8) + 7) = 0 := by
    rw [nasEncrypt_last bctx encrypted inbuff (Nat.le_refl _)]
    exact (ends _ (Nat.le_refl _)).mpr rfl
  obtain ⟨extent, octets⟩ := nasDecrypt_stops bctx plain before last
    (by omega)
  constructor
  · apply cString_congr
    · intro i inside
      have block : i / 8 ≤ strlen inbuff / 8 := Nat.div_le_div_right inside
      have here : 8 * (i / 8) + i % 8 = i := Nat.div_add_mod i 8
      have restored := bctx.decrypt_encrypt (messageBlock (cString inbuff) (i / 8))
      rw [octets, if_pos block, blockAt_nasEncrypt inbuff block, restored]
      show (cString inbuff).getD (8 * (i / 8) + i % 8) 0 = inbuff i
      rw [here, cString_getD]
      rcases Nat.lt_or_eq_of_le inside with front | last
      · rw [if_pos front]
      · rw [last, if_neg (Nat.lt_irrefl _)]
        exact (octet_strlen (by omega)).symm
    · omega
  · rw [extent]
    omega

theorem ends_of_roundTrips (short : strlen inbuff < maxMsgSize - 8)
    (trips : RoundTrips bctx inbuff) : LastEndsInZero bctx (cString inbuff) := by
  have bound : maxMsgSize = 2048 := rfl
  -- a buffer without zeros shows what the decryption leaves as it was
  obtain ⟨same, extent⟩ := trips (fun _ => 0) (fun _ => 1)
  have length : strlen (nasDecrypt bctx (fun _ => 1) (nasEncrypt bctx (fun _ => 0) inbuff)).1 =
      strlen inbuff := by
    have lengths := congrArg List.length same
    rwa [length_cString, length_cString] at lengths
  have ended : (nasDecrypt bctx (fun _ => 1) (nasEncrypt bctx (fun _ => 0) inbuff)).1
      (strlen inbuff) = 0 := by
    rw [← length]
    apply octet_strlen
    omega
  have nonzero : ∀ k < strlen inbuff / 8,
      nasEncrypt bctx (fun _ => 0) inbuff (8 * k + 7) ≠ 0 := by
    intro k
    induction k using Nat.strong_induction_on with
    | _ k ih =>
      intro below zero
      obtain ⟨_, octets⟩ := nasDecrypt_stops bctx (fun _ => 1)
        (fun j before => ih j before (by omega)) zero (by omega)
      rw [octets, if_neg (by omega)] at ended
      cases ended
  intro k inside
  rw [length_cString] at inside ⊢
  rw [← nasEncrypt_last bctx (fun _ => 0) inbuff inside]
  constructor
  · intro zero
    rcases Nat.lt_or_eq_of_le inside with below | last
    · exact absurd zero (nonzero k below)
    · exact last
  · rintro rfl
    by_contra last
    have before : ∀ j < strlen inbuff / 8 + 1,
        nasEncrypt bctx (fun _ => 0) inbuff (8 * (0 + j) + 7) ≠ 0 := by
      intro j below
      rw [Nat.zero_add]
      rcases Nat.lt_or_eq_of_le (Nat.le_of_lt_succ below) with front | rfl
      · exact nonzero j front
      · exact last
    have runs : 8 * (0 + (strlen inbuff / 8 + 1) + 1) ≤
        (nasDecrypt bctx (fun _ => 1) (nasEncrypt bctx (fun _ => 0) inbuff)).2 :=
      decryptLoop_runs bctx 0 (fun _ => 1) before (by omega)
    omega

/-- The round trip works exactly for the messages whose last block, and no block before it, ends in
a zero when it is encrypted. -/
theorem roundTrips_iff (bctx : BlockCipher) (inbuff : Buffer)
    (short : strlen inbuff < maxMsgSize - 8) :
    RoundTrips bctx inbuff ↔ LastEndsInZero bctx (cString inbuff) :=
  ⟨ends_of_roundTrips short, roundTrips_of_ends short⟩

end Decryption

section Messages

def textBuffer (text : List UInt8) : Buffer := fun i => text.getD i 0

theorem strlen_textBuffer {text : List UInt8} (filled : 0 ∉ text)
    (short : text.length < maxMsgSize) : strlen (textBuffer text) = text.length := by
  apply strlen_eq _ _ short
  · intro i below zero
    rw [textBuffer, List.getD_eq_getElem _ _ below] at zero
    exact filled (zero ▸ List.getElem_mem below)
  · exact List.getD_eq_default _ _ (Nat.le_refl _)

theorem cString_textBuffer {text : List UInt8} (filled : 0 ∉ text)
    (short : text.length < maxMsgSize) : cString (textBuffer text) = text := by
  have length := strlen_textBuffer filled short
  apply List.ext_getElem
  · rw [length_cString, length]
  · intro i _ below
    rw [← List.getD_eq_getElem _ 0, cString_getD, length, if_pos below, textBuffer,
      List.getD_eq_getElem _ _ below]

def exchange (a b : Block) : BlockCipher where
  encryptBlock block := if block = a then b else if block = b then a else block
  decryptBlock block := if block = a then b else if block = b then a else block
  decrypt_encrypt block := by
    by_cases first : block = a
    · rw [if_pos first]
      by_cases same : b = a
      · rw [if_pos same, first, same]
      · rw [if_neg same, if_pos rfl, first]
    · by_cases second : block = b
      · rw [if_neg first, if_pos second, if_pos rfl, second]
      · rw [if_neg first, if_neg second, if_neg first, if_neg second]

def BlockCipher.after (bctx other : BlockCipher) : BlockCipher where
  encryptBlock block := bctx.encryptBlock (other.encryptBlock block)
  decryptBlock block := other.decryptBlock (bctx.decryptBlock block)
  decrypt_encrypt block := by rw [bctx.decrypt_encrypt, other.decrypt_encrypt]

/-- `who are we` -/
def twoBlocks : List UInt8 := [119, 104, 111, 32, 97, 114, 101, 32, 119, 101]

/-- `hello` -/
def longWord : List UInt8 := [104, 101, 108, 108, 111]

/-- What Blowfish does under the key `NASSYSTEMAGENT` to the blocks of `who are we`, -/
def twoBlocksCipher : BlockCipher :=
  (exchange ![119, 104, 111, 32, 97, 114, 101, 32] ![167, 45, 177, 30, 31, 225, 217, 49]).after
    (exchange ![119, 101, 0, 0, 0, 0, 0, 0] ![247, 93, 51, 86, 11, 117, 253, 0])

/-- and to the block of `hello`. -/
def longCipher : BlockCipher :=
  exchange ![104, 101, 108, 108, 111, 0, 0, 0] ![253, 217, 49, 71, 55, 40, 190, 76]

theorem roundTrips_twoBlocks : RoundTrips twoBlocksCipher (textBuffer twoBlocks) := by
  have text : cString (textBuffer twoBlocks) = twoBlocks :=
    cString_textBuffer (by decide) (by decide)
  apply (roundTrips_iff twoBlocksCipher (textBuffer twoBlocks) _).mpr
  · rw [text]
    decide
  · rw [strlen_textBuffer (by decide) (by decide)]
    decide

/-- The decryption of the one block runs on behind it. -/
theorem roundTrips_long : ¬ RoundTrips longCipher (textBuffer longWord) := by
  intro trips
  have text : cString (textBuffer longWord) = longWord :=
    cString_textBuffer (by decide) (by decide)
  have ends : LastEndsInZero longCipher (cString (textBuffer longWord)) := by
    apply ends_of_roundTrips _ trips
    rw [strlen_textBuffer (by decide) (by decide)]
    decide
  rw [text] at ends
  exact absurd ((ends 0 (Nat.le_refl _)).mpr rfl) (by decide)

end Messages

end EveAgent.MasterAgent.Encryption
