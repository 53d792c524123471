import Mathlib.Data.List.Sort
import Mathlib.Data.Nat.Digits.Defs
import Mathlib.Data.Nat.Bitwise
import Mathlib.Tactic.IntervalCases
import Mathlib.Tactic.Linarith

/-!
# Byte strings

A `std::string` is a sequence of bytes, so the model keeps text as a list of
bytes: every size limit of the source counts bytes.
-/

namespace Omniweft

abbrev Bytes := List UInt8

abbrev Text := List UInt8

/-- The bytes of an ASCII literal of the source. -/
def ascii (literal : String) : Text :=
  literal.toList.map fun character => UInt8.ofNat character.toNat

/-- `std::to_string` of an unsigned number. -/
def decimal (number : Nat) : Text :=
  (Nat.toDigits 10 number).map fun character => UInt8.ofNat character.toNat

/-- The ASCII letters and digits, as `alphanumeric` and `ascii_alphanumeric`
test them. -/
def alphanumeric (value : UInt8) : Bool :=
  (97 ≤ value && value ≤ 122) || (65 ≤ value && value ≤ 90) ||
    (48 ≤ value && value ≤ 57)

/-- The characters an identifier may hold after its first one:
letters, digits and `.`, `_`, `:`, `-`. -/
def identifierByte (value : UInt8) : Bool :=
  alphanumeric value || value == 46 || value == 95 || value == 58 || value == 45

/-- The bounded ASCII identifier rule shared by `valid_id` and `identifier`. -/
def validIdentifier (maximum : Nat) (text : Text) : Bool :=
  match text with
  | [] => false
  | first :: _ =>
      decide (text.length ≤ maximum) && alphanumeric first &&
        text.all identifierByte

/-- One lowercase hexadecimal digit. -/
def hexDigit (value : Nat) : UInt8 :=
  if value < 10 then UInt8.ofNat (48 + value) else UInt8.ofNat (87 + value)

/-- `hex`: the low `width` hexadecimal digits, most significant first. -/
def hex (value : Nat) : Nat → Text
  | 0 => []
  | width + 1 => hex (value / 16) width ++ [hexDigit (value % 16)]

@[simp]
theorem hex_length (value width : Nat) :
    (hex value width).length = width := by
  induction width generalizing value with
  | zero => rfl
  | succ width inductionHypothesis =>
      simp [hex, inductionHypothesis]

theorem hexDigit_injective {left right : Nat}
    (leftSmall : left < 16) (rightSmall : right < 16)
    (same : hexDigit left = hexDigit right) :
    left = right := by
  revert same
  interval_cases left <;> interval_cases right <;> simp [hexDigit]

/-- A fixed-width hexadecimal text determines every number that fits in it. -/
theorem hex_injective :
    ∀ {width left right : Nat},
      left < 16 ^ width →
      right < 16 ^ width →
      hex left width = hex right width →
      left = right
  | 0, left, right, leftFits, rightFits, _ => by
      simp only [Nat.pow_zero, Nat.lt_one_iff] at leftFits rightFits
      rw [leftFits, rightFits]
  | width + 1, left, right, leftFits, rightFits, same => by
      have parts := List.append_inj same (by simp)
      have highEqual : left / 16 = right / 16 :=
        hex_injective
          (by rw [Nat.pow_succ] at leftFits; omega)
          (by rw [Nat.pow_succ] at rightFits; omega)
          parts.1
      have lowEqual : left % 16 = right % 16 := by
        apply hexDigit_injective
          (Nat.mod_lt _ (by decide)) (Nat.mod_lt _ (by decide))
        simpa using parts.2
      omega

/-- The low `count` bytes of a number, least significant first. -/
def littleEndian (value : Nat) : Nat → Bytes
  | 0 => []
  | count + 1 => UInt8.ofNat value :: littleEndian (value / 256) count

/-- The number a little-endian byte list spells. -/
def fromLittleEndian : Bytes → Nat
  | [] => 0
  | byte :: rest => byte.toNat + 256 * fromLittleEndian rest

@[simp]
theorem littleEndian_length (value count : Nat) :
    (littleEndian value count).length = count := by
  induction count generalizing value with
  | zero => rfl
  | succ count inductionHypothesis =>
      simp [littleEndian, inductionHypothesis]

theorem fromLittleEndian_littleEndian :
    ∀ {count value : Nat},
      value < 256 ^ count →
      fromLittleEndian (littleEndian value count) = value
  | 0, value, fits => by
      simp only [Nat.pow_zero, Nat.lt_one_iff] at fits
      simp [littleEndian, fromLittleEndian, fits]
  | count + 1, value, fits => by
      have highFits : value / 256 < 256 ^ count := by
        rw [Nat.pow_succ] at fits
        omega
      simp only [littleEndian, fromLittleEndian,
        fromLittleEndian_littleEndian highFits, UInt8.toNat_ofNat']
      omega

theorem fromLittleEndian_lt (bytes : Bytes) :
    fromLittleEndian bytes < 256 ^ bytes.length := by
  induction bytes with
  | nil => simp [fromLittleEndian]
  | cons byte rest inductionHypothesis =>
      have small : byte.toNat < 256 := byte.toNat_lt
      simp only [fromLittleEndian, List.length_cons, Nat.pow_succ]
      omega

/-- Every byte list is the spelling of the number it spells. -/
theorem littleEndian_fromLittleEndian (bytes : Bytes) :
    littleEndian (fromLittleEndian bytes) bytes.length = bytes := by
  induction bytes with
  | nil => rfl
  | cons byte rest inductionHypothesis =>
      have small : byte.toNat < 256 := byte.toNat_lt
      have low : UInt8.ofNat (byte.toNat + 256 * fromLittleEndian rest) = byte := by
        apply UInt8.toNat_inj.1
        rw [UInt8.toNat_ofNat']
        omega
      have high : (byte.toNat + 256 * fromLittleEndian rest) / 256 = fromLittleEndian rest := by
        omega
      simp only [fromLittleEndian, List.length_cons, littleEndian, low, high,
        inductionHypothesis]

/-- `std::sort` on strings: `operator<` compares bytes lexicographically. -/
def sortTexts (texts : List Text) : List Text :=
  texts.insertionSort (· ≤ ·)

theorem sortTexts_sorted (texts : List Text) :
    (sortTexts texts).Pairwise (· ≤ ·) :=
  List.pairwise_insertionSort _ texts

theorem sortTexts_eq_self {texts : List Text}
    (sorted : texts.Pairwise (· ≤ ·)) :
    sortTexts texts = texts :=
  sorted.insertionSort_eq

end Omniweft
