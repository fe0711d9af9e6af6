import Mathlib

/-! Text as the functions of the C library read and write it. -/

namespace EveAgent

/-- The characters of a string, without the zero character that ends it. -/
abbrev Text := List Char

def textOf (octets : List UInt8) : Text := octets.map fun octet => Char.ofNat octet.toNat

theorem textOf_length (octets : List UInt8) : (textOf octets).length = octets.length :=
  List.length_map _

def isspace (c : Char) : Bool :=
  c == ' ' || c == '\t' || c == '\n' || c == '\x0b' || c == '\x0c' || c == '\r'

/-- The number that the digits at the start of the text stand for. -/
def leadingDigits (text : Text) : Nat := Nat.ofDigitChars 10 (text.takeWhile Char.isDigit) 0

def leadingInteger (text : Text) : Int :=
  match text.dropWhile isspace with
  | '-' :: digits => -leadingDigits digits
  | '+' :: digits => leadingDigits digits
  | digits => leadingDigits digits

/-- `atoi`, and `atol` where a `long` has 32 bits. Numbers that do not fit have no result. -/
def atoi (text : Text) : Option Int :=
  if -2 ^ 31 ≤ leadingInteger text ∧ leadingInteger text < 2 ^ 31 then some (leadingInteger text)
  else none

/-- The format `%ld`. -/
def printLd (value : Int) : Text :=
  if value < 0 then '-' :: Nat.toDigits 10 value.natAbs else Nat.toDigits 10 value.natAbs

theorem leadingDigits_toDigits (number : Nat) :
    leadingDigits (Nat.toDigits 10 number) = number := by
  have digits : (Nat.toDigits 10 number).takeWhile Char.isDigit = Nat.toDigits 10 number := by
    rw [List.takeWhile_eq_self_iff]
    intro c member
    exact Nat.isDigit_of_mem_toDigits (by decide) (by decide) member
  rw [leadingDigits, digits, Nat.ofDigitChars_ten_toDigits]

theorem leadingInteger_printLd (value : Int) : leadingInteger (printLd value) = value := by
  unfold printLd
  split
  · rename_i negative
    have noSpace : ('-' :: Nat.toDigits 10 value.natAbs).dropWhile isspace =
        '-' :: Nat.toDigits 10 value.natAbs := by
      rw [List.dropWhile_cons_of_neg (by decide)]
    rw [leadingInteger, noSpace]
    simp only [leadingDigits_toDigits]
    omega
  · rename_i natural
    obtain ⟨first, rest, digits⟩ :=
      List.exists_cons_of_ne_nil (Nat.toDigits_ne_nil (n := value.natAbs) (b := 10))
    have isDigit : first.isDigit :=
      Nat.isDigit_of_mem_toDigits (b := 10) (n := value.natAbs) (by decide) (by decide)
        (by rw [digits]; exact List.mem_cons_self)
    have notSpace : isspace first = false := by
      rw [← Bool.not_eq_true]
      intro space
      simp only [isspace, Bool.or_eq_true, beq_iff_eq] at space
      rcases space with ((((rfl | rfl) | rfl) | rfl) | rfl) | rfl <;>
        exact absurd isDigit (by decide)
    have noSpace : (Nat.toDigits 10 value.natAbs).dropWhile isspace =
        Nat.toDigits 10 value.natAbs := by
      rw [digits, List.dropWhile_cons_of_neg (by simp [notSpace])]
    rw [leadingInteger, noSpace]
    split
    · rename_i minus
      rw [digits] at minus
      cases minus
      exact absurd isDigit (by decide)
    · rename_i plus
      rw [digits] at plus
      cases plus
      exact absurd isDigit (by decide)
    · rw [leadingDigits_toDigits]
      omega

theorem printLd_inj {value other : Int} : printLd value = printLd other ↔ value = other := by
  constructor
  · intro same
    have read := congrArg leadingInteger same
    rwa [leadingInteger_printLd, leadingInteger_printLd] at read
  · exact congrArg printLd

theorem printLd_natCast (number : Nat) : printLd number = Nat.toDigits 10 number := by
  rw [printLd, if_neg (by omega), Int.natAbs_natCast]

theorem toDigits_length {number : Nat} (upper : number < 2 ^ 32) :
    (Nat.toDigits 10 number).length ≤ 10 := by
  rw [Nat.length_toDigits_le_iff (by decide) (by decide)]
  omega

theorem printLd_length {value : Int} (lower : -2 ^ 31 ≤ value) (upper : value < 2 ^ 32) :
    (printLd value).length ≤ 11 := by
  have digits := @toDigits_length value.natAbs (by omega)
  rw [printLd]
  split
  · rw [List.length_cons]
    omega
  · omega

theorem atoi_printLd {value : Int} (lower : -2 ^ 31 ≤ value) (upper : value < 2 ^ 31) :
    atoi (printLd value) = some value := by
  rw [atoi, leadingInteger_printLd, if_pos ⟨lower, upper⟩]

end EveAgent
