import Mathlib.Algebra.BigOperators.Group.Finset.Basic
import Mathlib.Algebra.Order.BigOperators.Group.Finset
import Mathlib.Algebra.Order.Ring.Abs
import Mathlib.Order.Bounds.Basic
import Mathlib.Tactic.Linarith

/-!
# Linear forms on a centred cube

A point of the cube of half width `bound` chooses a coordinate within the bound
for every axis, a corner one of the two ends. The extremes of a linear form over
the cube are the sums of the absolute values, and corners attain them.
-/

namespace Omniweft.Zonotope

open Finset

variable {F ι : Type} [CommRing F] [LinearOrder F] [IsStrictOrderedRing F] [Fintype ι]

def Cube (bound : F) : Set (ι → F) :=
  {point | ∀ axis, |point axis| ≤ bound}

def Corners (bound : F) : Set (ι → F) :=
  {point | ∀ axis, point axis = bound ∨ point axis = -bound}

/-- The value of the form with these coefficients at a point. -/
def form (coefficients point : ι → F) : F :=
  ∑ axis, coefficients axis * point axis

def reach (bound : F) (coefficients : ι → F) : F :=
  ∑ axis, |coefficients axis| * bound

omit [Fintype ι] in
theorem corners_subset_cube {bound : F} (nonneg : 0 ≤ bound) :
    (Corners bound : Set (ι → F)) ⊆ Cube bound := by
  intro point corner axis
  rcases corner axis with high | low
  · rw [high, abs_of_nonneg nonneg]
  · rw [low, abs_neg, abs_of_nonneg nonneg]

theorem abs_form_le {bound : F} (coefficients : ι → F) {point : ι → F}
    (inside : point ∈ Cube bound) : |form coefficients point| ≤ reach bound coefficients := by
  calc |form coefficients point|
      ≤ ∑ axis, |coefficients axis * point axis| := abs_sum_le_sum_abs _ _
    _ ≤ reach bound coefficients := by
        apply sum_le_sum
        intro axis _
        rw [abs_mul]
        exact mul_le_mul_of_nonneg_left (inside axis) (abs_nonneg _)

omit [LinearOrder F] [IsStrictOrderedRing F] in
theorem form_neg (coefficients point : ι → F) :
    form coefficients (-point) = -form coefficients point := by
  simp [form]

omit [Fintype ι] [LinearOrder F] [IsStrictOrderedRing F] in
theorem neg_corner {bound : F} {point : ι → F} (corner : point ∈ Corners bound) :
    -point ∈ Corners bound := by
  intro axis
  rcases corner axis with high | low
  · exact Or.inr (congrArg Neg.neg high)
  · exact Or.inl (by rw [Pi.neg_apply, low, neg_neg])

/-- The corner whose signs are those of the coefficients. -/
def furthest (bound : F) (coefficients : ι → F) : ι → F :=
  fun axis => if 0 ≤ coefficients axis then bound else -bound

omit [Fintype ι] [IsStrictOrderedRing F] in
theorem furthest_corner (bound : F) (coefficients : ι → F) :
    furthest bound coefficients ∈ Corners bound := by
  intro axis
  by_cases nonneg : 0 ≤ coefficients axis
  · exact Or.inl (if_pos nonneg)
  · exact Or.inr (if_neg nonneg)

theorem form_furthest (bound : F) (coefficients : ι → F) :
    form coefficients (furthest bound coefficients) = reach bound coefficients := by
  apply sum_congr rfl
  intro axis _
  by_cases nonneg : 0 ≤ coefficients axis
  · rw [furthest, if_pos nonneg, abs_of_nonneg nonneg]
  · rw [furthest, if_neg nonneg, abs_of_neg (not_le.mp nonneg), neg_mul, mul_neg]

section Extremes

variable {bound : F} (coefficients : ι → F) {points : Set (ι → F)}

/-- Over anything between the corners and the cube the form is greatest at a corner. -/
theorem form_isGreatest (corners : Corners bound ⊆ points) (within : points ⊆ Cube bound)
    (centre : F) :
    IsGreatest ((fun point => form coefficients point + centre) '' points)
      (centre + reach bound coefficients) := by
  constructor
  · refine ⟨furthest bound coefficients, corners (furthest_corner bound coefficients), ?_⟩
    change form coefficients (furthest bound coefficients) + centre = _
    rw [form_furthest, add_comm]
  · rintro _ ⟨point, member, rfl⟩
    have bounds := abs_le.mp (abs_form_le coefficients (within member))
    linarith [bounds.2]

/-- And least at the opposite one. -/
theorem form_isLeast (corners : Corners bound ⊆ points) (within : points ⊆ Cube bound)
    (centre : F) :
    IsLeast ((fun point => form coefficients point + centre) '' points)
      (centre - reach bound coefficients) := by
  constructor
  · refine ⟨-furthest bound coefficients,
      corners (neg_corner (furthest_corner bound coefficients)), ?_⟩
    change form coefficients (-furthest bound coefficients) + centre = _
    rw [form_neg, form_furthest, neg_add_eq_sub]
  · rintro _ ⟨point, member, rfl⟩
    have bounds := abs_le.mp (abs_form_le coefficients (within member))
    linarith [bounds.1]

end Extremes

end Omniweft.Zonotope
