import Mathlib.Algebra.Order.Field.Basic
import Mathlib.Data.Int.Cast.Lemmas

/-!
# Machine arithmetic

The program computes with binary64 numbers. The model is generic in the number
type: `Scalar` lists the operations the source uses, with the IEEE comparisons
as their own operations because they are not equality of values. The exact
reading over an ordered field is one instance.
-/

namespace Omniweft

/-- The arithmetic the program uses. `eq` and `lt` are the comparisons `==`
and `<`; `bits` is the 64-bit pattern `std::bit_cast` exposes. -/
class Scalar (α : Type) extends Add α, Sub α, Mul α, Div α, Neg α where
  ofInt : Int → α
  half : α
  tolerance : α
  sqrt : α → α
  abs : α → α
  eq : α → α → Bool
  lt : α → α → Bool
  isFinite : α → Bool
  bits : α → UInt64
  one_ne_zero : eq (ofInt 1) (ofInt 0) = false

namespace Scalar

variable {α : Type} [Scalar α]

/-- `if (value == 0.0) value = 0.0`: both zeros become the positive one. -/
def normalizeZero (value : α) : α :=
  if eq value (ofInt 0) then ofInt 0 else value

/-- A number that zero normalisation leaves alone. -/
def ZeroNormal (value : α) : Prop :=
  normalizeZero value = value

theorem normalizeZero_normal (value : α) :
    ZeroNormal (normalizeZero value) := by
  unfold ZeroNormal normalizeZero
  by_cases isZero : eq value (ofInt 0)
  · simp [isZero]
  · simp [isZero]

theorem zero_normal : ZeroNormal (ofInt 0 : α) := by
  simp [ZeroNormal, normalizeZero]

theorem one_normal : ZeroNormal (ofInt 1 : α) := by
  simp [ZeroNormal, normalizeZero, one_ne_zero]

/-- Exact arithmetic over an ordered field. The square root and the bit
pattern are the two operations a field does not determine. -/
@[reducible]
def exact (F : Type) [Field F] [LinearOrder F] [IsStrictOrderedRing F]
    (root : F → F) (pattern : F → UInt64) : Scalar F where
  ofInt value := (value : F)
  half := 1 / 2
  tolerance := 1 / 1000000000000
  sqrt := root
  abs := fun value => |value|
  eq left right := decide (left = right)
  lt left right := decide (left < right)
  isFinite _ := true
  bits := pattern
  one_ne_zero := by simp

end Scalar

/-- The conversions to `float` and back. Every binary32 number is a binary64
one, so both are read as `α`. -/
class SinglePrecision (α : Type) [Scalar α] where
  /-- `static_cast<float>`. -/
  narrow : α → α
  /-- `std::numeric_limits<float>::max()`. -/
  largest : α

/-- The other conversions of numbers that readers of binary files make. -/
class Conversions (α : Type) [Scalar α] extends SinglePrecision α where
  /-- `std::floor`. -/
  floor : α → α
  /-- `static_cast<std::uint32_t>` of a whole number that fits. -/
  toUnsigned : α → UInt32
  /-- `std::bit_cast<float>`. -/
  bitCast : UInt32 → α

/-- The finite number that a binary32 pattern stands for, as a multiple of `2 ^ -150`. -/
def binary32 (pattern : UInt32) : Int :=
  let fraction := pattern.toNat % 2 ^ 23
  let exponent := pattern.toNat / 2 ^ 23 % 256
  let size : Nat := if exponent = 0 then 2 * fraction else (2 ^ 23 + fraction) * 2 ^ exponent
  if pattern.toNat / 2 ^ 31 = 1 then -size else size

end Omniweft
