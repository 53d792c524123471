import Mathlib.Tactic.Linarith
import Omniweft.Placement
import Omniweft.Policy

/-!
# Write regions

What the guard needs of machine arithmetic to keep two regions apart: rounding
never moves a sum or a difference past its first operand in the wrong
direction. A cube then fits in at most one region.
-/

namespace Omniweft

/-- Machine arithmetic whose finite numbers are rational and whose operations
round monotonically, as binary64 does. -/
class RoundedScalar (α : Type) [Scalar α] where
  value : α → ℚ
  small_finite : ∀ number : Int, number.natAbs ≤ 2 ^ 53 →
    Scalar.isFinite (Scalar.ofInt number : α) = true ∧
      value (Scalar.ofInt number) = number
  lt_iff : ∀ left right : α, Scalar.isFinite left = true → Scalar.isFinite right = true →
    (Scalar.lt left right = true ↔ value left < value right)
  add_finite : ∀ left right : α, Scalar.isFinite (left + right) = true →
    Scalar.isFinite left = true ∧ Scalar.isFinite right = true
  sub_finite : ∀ left right : α, Scalar.isFinite (left - right) = true →
    Scalar.isFinite left = true ∧ Scalar.isFinite right = true
  mul_finite : ∀ left right : α, Scalar.isFinite (left * right) = true →
    Scalar.isFinite left = true ∧ Scalar.isFinite right = true
  add_grows : ∀ left right : α, Scalar.isFinite (left + right) = true →
    0 ≤ value right → value left ≤ value (left + right)
  sub_shrinks : ∀ left right : α, Scalar.isFinite (left - right) = true →
    0 ≤ value right → value (left - right) ≤ value left
  mul_nonneg : ∀ left right : α, Scalar.isFinite (left * right) = true →
    0 ≤ value left → 0 ≤ value right → 0 ≤ value (left * right)
  abs_nonneg : ∀ number : α, Scalar.isFinite (Scalar.abs number) = true →
    0 ≤ value (Scalar.abs number)
  half_nonneg : 0 ≤ value (Scalar.half : α)

namespace Policy

open World RoundedScalar

section Rounded

variable {α : Type} [Scalar α] [RoundedScalar α]

theorem half_abs_nonneg (number : α)
    (finite : Scalar.isFinite (Scalar.abs number * Scalar.half) = true) :
    0 ≤ value (Scalar.abs number * Scalar.half) :=
  mul_nonneg _ _ finite (abs_nonneg number (mul_finite _ _ finite).1) half_nonneg

/-- A finite extent is not negative. -/
theorem radius_nonneg {row scale : Vec3 α}
    (finite : Scalar.isFinite (radius row scale) = true) :
    0 ≤ value (radius row scale) := by
  unfold radius at finite ⊢
  obtain ⟨second, third⟩ := add_finite _ _ finite
  obtain ⟨first, middle⟩ := add_finite _ _ second
  obtain ⟨_, start⟩ := add_finite _ _ first
  have zero : value (Scalar.ofInt 0 : α) = 0 := by
    have exact := (small_finite (α := α) 0 (by decide)).2
    simpa using exact
  have one := add_grows _ _ first (half_abs_nonneg _ start)
  have two := add_grows _ _ second (half_abs_nonneg _ middle)
  have three := add_grows _ _ finite (half_abs_nonneg _ third)
  linarith

/-- What an accepted axis says about the centre. -/
theorem axisFits_between {position extent : α} {lowest highest : Int}
    (small : lowest.natAbs ≤ 2 ^ 53 ∧ highest.natAbs ≤ 2 ^ 53)
    (nonneg : Scalar.isFinite extent = true → 0 ≤ value extent)
    (accepted : axisFits position extent lowest highest = true) :
    (lowest : ℚ) ≤ value position ∧ value position ≤ highest := by
  simp only [axisFits, Bool.and_eq_true, Bool.not_eq_true'] at accepted
  obtain ⟨⟨⟨lowerFinite, upperFinite⟩, above⟩, below⟩ := accepted
  obtain ⟨lowFinite, lowSame⟩ := small_finite (α := α) lowest small.1
  obtain ⟨highFinite, highSame⟩ := small_finite (α := α) highest small.2
  have extends' := nonneg (add_finite _ _ upperFinite).2
  have grows := add_grows _ _ upperFinite extends'
  have shrinks := sub_shrinks _ _ lowerFinite extends'
  have left : ¬ value (position - extent) < lowest := by
    intro less
    rw [← lowSame] at less
    exact absurd ((lt_iff _ _ lowerFinite lowFinite).mpr less) (by simp [above])
  have right : ¬ (highest : ℚ) < value (position + extent) := by
    intro less
    rw [← highSame] at less
    exact absurd ((lt_iff _ _ highFinite upperFinite).mpr less) (by simp [below])
  constructor
  · linarith
  · linarith

/-- The regions are disjoint: no cube fits in both. -/
theorem fits_unique {first second : Principal} {transform : Transform α}
    (one : fits first transform = true) (two : fits second transform = true) :
    first = second := by
  by_contra different
  have apart :
      ∀ west east : Principal, west.val = 0 → east.val ≠ 0 →
        fits west transform = true → fits east transform = true → False := by
    intro west east isWest isEast westFits eastFits
    simp only [fits, Bool.and_eq_true, grants, isWest, isEast, if_true, if_false]
      at westFits eastFits
    have left := axisFits_between (by decide) radius_nonneg westFits.1.1
    have right := axisFits_between (by decide) radius_nonneg eastFits.1.1
    have high := left.2
    have low := right.1
    norm_num at high low
    linarith
  by_cases isWest : first.val = 0
  · refine apart first second isWest ?_ one two
    intro also
    exact different (Fin.ext (isWest.trans also.symm))
  · refine apart second first ?_ isWest two one
    have bounded := second.isLt
    have small := first.isLt
    have both : first.val ≠ second.val := fun same => different (Fin.ext same)
    simp only [principalCount] at bounded small
    omega

end Rounded

section Exact

variable {F : Type} [Field F] [LinearOrder F] [IsStrictOrderedRing F] [ExactScalar F]

/-- The numeral two, whose proof a definition names. -/
local instance twoNumeral : Nat.AtLeastTwo 2 := ⟨le_rfl⟩

/-- A point lies in the region of a principal. -/
def Inside (principal : Principal) (point : Vec3 F) : Prop :=
  let bounds := grants principal
  ((bounds.lower.x : F) ≤ point.x ∧ point.x ≤ bounds.upper.x) ∧
    ((bounds.lower.y : F) ≤ point.y ∧ point.y ≤ bounds.upper.y) ∧
    ((bounds.lower.z : F) ≤ point.z ∧ point.z ≤ bounds.upper.z)

end Exact

/-- Exact rational arithmetic does not round. -/
instance : RoundedScalar ℚ where
  value number := number
  small_finite _ _ := ⟨rfl, rfl⟩
  lt_iff left right _ _ := by
    change decide (left < right) = true ↔ left < right
    exact decide_eq_true_iff
  add_finite _ _ _ := ⟨rfl, rfl⟩
  sub_finite _ _ _ := ⟨rfl, rfl⟩
  mul_finite _ _ _ := ⟨rfl, rfl⟩
  add_grows left right _ nonneg := by linarith
  sub_shrinks left right _ nonneg := by linarith
  mul_nonneg left right _ one two := Rat.mul_nonneg one two
  abs_nonneg number _ := abs_nonneg number
  half_nonneg := by
    change (0 : ℚ) ≤ 1 / 2
    norm_num

end Policy
end Omniweft
