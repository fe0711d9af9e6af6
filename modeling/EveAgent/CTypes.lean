import EveAgent.Machine

/-! The C types shared by the agents: error codes and the signed integers. -/

namespace EveAgent

inductive ENASCenterError where
  | nascFailure
  | nascSuccess
  | nascInvalidParam
  | nascInsufficientMemory
  | nascTimeout
  | nascIllegalOperation
  | nascSockCreationFailed
  | nascFileTransIgnoreError
  | nascFileTransConnClosed
  | nascFileTransTimeOut
  deriving DecidableEq, Repr

/-- Conversion of a mathematical integer to the type `I32`. -/
def i32 (value : Int) : Int := (value + 2 ^ 31) % 2 ^ 32 - 2 ^ 31

theorem i32_of_range {value : Int} (lower : -2 ^ 31 ≤ value) (upper : value < 2 ^ 31) :
    i32 value = value := by
  simp only [i32]
  omega

theorem i32_range (value : Int) : -2 ^ 31 ≤ i32 value ∧ i32 value < 2 ^ 31 := by
  simp only [i32]
  omega

/-- Conversion of a mathematical integer to the type `I16`. -/
def i16 (value : Int) : Int := (value + 2 ^ 15) % 2 ^ 16 - 2 ^ 15

theorem i16_of_range {value : Int} (lower : -2 ^ 15 ≤ value) (upper : value < 2 ^ 15) :
    i16 value = value := by
  simp only [i16]
  omega

theorem i16_range (value : Int) : -2 ^ 15 ≤ i16 value ∧ i16 value < 2 ^ 15 := by
  simp only [i16]
  omega

/-- Conversion of a signed integer to the type `size_t`, of 32 bits. -/
def sizeT (value : Int) : Nat := (value % 2 ^ 32).toNat

end EveAgent
