import Mathlib.Algebra.BigOperators.Fin
import Mathlib.Order.Bounds.OrderIso
import Mathlib.Tactic.FinCases
import Omniweft.Library.Zonotope
import Omniweft.PolicyRegions
import Omniweft.PolicySteps
import Omniweft.Presentation

/-!
# The bounds of a drawn cube

The region check of the guard, the bounds of an observation and the corners of
the renderer are computed in three places. In exact arithmetic they are one
box, and a region holds the box when it holds the cube.
-/

namespace Omniweft.Presentation

open World Transactions
open Policy (rotation radius fits grants Inside)
open Observe (extent)

variable {F : Type} [Field F] [LinearOrder F] [IsStrictOrderedRing F] [ExactScalar F]

/-- The coordinate of a vector along an axis. -/
def component {α : Type} (vector : Vec3 α) : Fin 3 → α :=
  ![vector.x, vector.y, vector.z]

attribute [local instance] Policy.twoNumeral

/-- The points of the unit cube, with its interior. -/
def unitCube : Set (Vec3 F) :=
  {point | component point ∈ Zonotope.Cube (1 / 2)}

/-- The corners that the faces list. -/
def drawnCorners : Set (Vec3 F) :=
  {corner | corner ∈ faces.flatten}

/-- The points of the cube that a transform draws. -/
def drawnCube (transform : Transform F) : Set (Vec3 F) :=
  (transformed · transform) '' unitCube

/-- The limits that the region check of the guard compares. -/
def limits (transform : Transform F) : Observe.Bounds F :=
  let rows := rotation transform.rotationXyzw
  let x := radius rows.x transform.scale
  let y := radius rows.y transform.scale
  let z := radius rows.z transform.scale
  let centre := transform.positionM
  ⟨⟨centre.x - x, centre.y - y, centre.z - z⟩, ⟨centre.x + x, centre.y + y, centre.z + z⟩⟩

/-- A region of an observation holds a point. -/
def Holds (region : Observe.Bounds F) (point : Vec3 F) : Prop :=
  ∀ axis, component region.lower axis ≤ component point axis ∧
    component point axis ≤ component region.upper axis

omit [LinearOrder F] [IsStrictOrderedRing F] [ExactScalar F] [Field F] in
theorem component_surjective (point : Fin 3 → F) :
    component (⟨point 0, point 1, point 2⟩ : Vec3 F) = point := by
  funext axis
  fin_cases axis <;> rfl

/-- The faces list the eight corners of the unit cube and nothing else. -/
theorem mem_drawnCorners (corner : Vec3 F) :
    corner ∈ drawnCorners ↔ component corner ∈ Zonotope.Corners (1 / 2 : F) := by
  have high : (Scalar.half : F) = 1 / 2 := rfl
  constructor
  · intro member
    change corner ∈ faces.flatten at member
    simp only [faces, high, List.flatten_cons, List.flatten_nil, List.append_nil,
      List.cons_append, List.nil_append, List.mem_cons, List.not_mem_nil, or_false] at member
    intro axis
    rcases member with rfl | rfl | rfl | rfl | rfl | rfl | rfl | rfl | rfl | rfl | rfl | rfl |
        rfl | rfl | rfl | rfl | rfl | rfl | rfl | rfl | rfl | rfl | rfl | rfl <;>
      fin_cases axis <;> simp [component]
  · intro ends
    obtain ⟨x, y, z⟩ := corner
    have first := ends 0
    have second := ends 1
    have third := ends 2
    change x = 1 / 2 ∨ x = -(1 / 2) at first
    change y = 1 / 2 ∨ y = -(1 / 2) at second
    change z = 1 / 2 ∨ z = -(1 / 2) at third
    rcases first with rfl | rfl <;> rcases second with rfl | rfl <;>
      rcases third with rfl | rfl <;>
    · change _ ∈ faces.flatten
      simp [faces, high]

/-- A coordinate of a drawn point is a linear form of the point of the unit cube. -/
def coefficients (transform : Transform F) (axis : Fin 3) : Fin 3 → F :=
  fun other =>
    component (component (rotation transform.rotationXyzw) axis) other *
      component transform.scale other

theorem transformed_form (corner : Vec3 F) (transform : Transform F) (axis : Fin 3) :
    component (transformed corner transform) axis =
      Zonotope.form (coefficients transform axis) (component corner) +
        component transform.positionM axis := by
  fin_cases axis <;>
  · simp [Zonotope.form, coefficients, component, transformed, Policy.rotation,
      Fin.sum_univ_three]
    ring

theorem reach_radius (transform : Transform F) (axis : Fin 3) :
    Zonotope.reach (1 / 2) (coefficients transform axis) =
      radius (component (rotation transform.rotationXyzw) axis) transform.scale := by
  have zero : (Scalar.ofInt 0 : F) = 0 := by rw [ofInt_exact, Int.cast_zero]
  have half : (Scalar.half : F) = 1 / 2 := rfl
  have absolute (value : F) : Scalar.abs value = |value| := rfl
  simp [Zonotope.reach, coefficients, component, radius, Fin.sum_univ_three, zero, half, absolute]

/-- Both modules compute one extent, whose halves stand in different places. -/
theorem extent_radius (row scale : Vec3 F) : extent row scale = radius row scale := by
  have half : (Scalar.half : F) = 1 / 2 := rfl
  have absolute (value : F) : Scalar.abs value = |value| := rfl
  simp only [extent, radius, half, absolute, abs_mul]
  ring

theorem component_limits (transform : Transform F) (axis : Fin 3) :
    component (limits transform).lower axis =
        component transform.positionM axis -
          Zonotope.reach (1 / 2) (coefficients transform axis) ∧
      component (limits transform).upper axis =
        component transform.positionM axis +
          Zonotope.reach (1 / 2) (coefficients transform axis) := by
  rw [reach_radius]
  fin_cases axis <;> exact ⟨rfl, rfl⟩

theorem drawnCorners_image :
    (component '' drawnCorners : Set (Fin 3 → F)) = Zonotope.Corners (1 / 2) := by
  ext point
  constructor
  · rintro ⟨corner, member, rfl⟩
    exact (mem_drawnCorners corner).mp member
  · intro ends
    refine ⟨⟨point 0, point 1, point 2⟩, ?_, component_surjective point⟩
    rw [mem_drawnCorners, component_surjective]
    exact ends

theorem unitCube_image : (component '' unitCube : Set (Fin 3 → F)) = Zonotope.Cube (1 / 2) := by
  ext point
  constructor
  · rintro ⟨inside, member, rfl⟩
    exact member
  · intro within
    refine ⟨⟨point 0, point 1, point 2⟩, ?_, component_surjective point⟩
    change component _ ∈ Zonotope.Cube (1 / 2)
    rw [component_surjective]
    exact within

/-- The coordinates of drawn points, as values of a linear form. -/
theorem drawn_image (transform : Transform F) (axis : Fin 3) (points : Set (Vec3 F)) :
    (fun point => component (transformed point transform) axis) '' points =
      (fun point => Zonotope.form (coefficients transform axis) point +
        component transform.positionM axis) '' (component '' points) := by
  rw [Set.image_image]
  apply Set.image_congr
  intro corner _
  exact transformed_form corner transform axis

/-- The limits are the extremes of anything between the corners and the cube. -/
theorem limits_extreme (transform : Transform F) (axis : Fin 3) {points : Set (Vec3 F)}
    (corners : Zonotope.Corners (1 / 2) ⊆ component '' points)
    (within : component '' points ⊆ Zonotope.Cube (1 / 2)) :
    IsLeast ((fun point => component (transformed point transform) axis) '' points)
        (component (limits transform).lower axis) ∧
      IsGreatest ((fun point => component (transformed point transform) axis) '' points)
        (component (limits transform).upper axis) := by
  rw [drawn_image, (component_limits transform axis).1, (component_limits transform axis).2]
  exact ⟨Zonotope.form_isLeast _ corners within _, Zonotope.form_isGreatest _ corners within _⟩

theorem half_nonneg : (0 : F) ≤ 1 / 2 := by
  norm_num

theorem corners_extreme (transform : Transform F) (axis : Fin 3) :
    IsLeast ((fun corner => component (transformed corner transform) axis) '' drawnCorners)
        (component (limits transform).lower axis) ∧
      IsGreatest ((fun corner => component (transformed corner transform) axis) '' drawnCorners)
        (component (limits transform).upper axis) := by
  apply limits_extreme
  · exact drawnCorners_image.symm.subset
  · rw [drawnCorners_image]
    exact Zonotope.corners_subset_cube half_nonneg

theorem cube_extreme (transform : Transform F) (axis : Fin 3) :
    IsLeast ((fun point => component (transformed point transform) axis) '' unitCube)
        (component (limits transform).lower axis) ∧
      IsGreatest ((fun point => component (transformed point transform) axis) '' unitCube)
        (component (limits transform).upper axis) := by
  apply limits_extreme
  · rw [unitCube_image]
    exact Zonotope.corners_subset_cube half_nonneg
  · exact unitCube_image.subset

/-- A region holds the whole cube when it holds the limits. -/
theorem holds_cube (region : Observe.Bounds F) (transform : Transform F) :
    (∀ point ∈ drawnCube transform, Holds region point) ↔
      ∀ axis, component region.lower axis ≤ component (limits transform).lower axis ∧
        component (limits transform).upper axis ≤ component region.upper axis := by
  constructor
  · intro held axis
    obtain ⟨least, greatest⟩ := cube_extreme transform axis
    obtain ⟨low, lowInside, lowSame⟩ := least.1
    obtain ⟨high, highInside, highSame⟩ := greatest.1
    rw [← lowSame, ← highSame]
    exact ⟨(held _ ⟨low, lowInside, rfl⟩ axis).1, (held _ ⟨high, highInside, rfl⟩ axis).2⟩
  · intro fitting point drawn axis
    obtain ⟨corner, inside, rfl⟩ := drawn
    obtain ⟨least, greatest⟩ := cube_extreme transform axis
    exact ⟨(fitting axis).1.trans (least.2 ⟨corner, inside, rfl⟩),
      (greatest.2 ⟨corner, inside, rfl⟩).trans (fitting axis).2⟩

/-- The write region of a principal. -/
def writeRegion (principal : Policy.Principal) : Observe.Bounds F :=
  let bounds := grants principal
  ⟨bounds.lower.map Int.cast, bounds.upper.map Int.cast⟩

omit [IsStrictOrderedRing F] [ExactScalar F] in
theorem holds_inside (principal : Policy.Principal) (point : Vec3 F) :
    Holds (writeRegion principal) point ↔ Inside principal point := by
  simp [Holds, Fin.forall_fin_succ, component, Inside, writeRegion, Vec3.map]

theorem fits_limits (principal : Policy.Principal) (transform : Transform F) :
    fits principal transform = true ↔
      ∀ axis, component (writeRegion principal).lower axis ≤
          component (limits transform).lower axis ∧
        component (limits transform).upper axis ≤
          component (writeRegion principal).upper axis := by
  simp [fits, Policy.axisFits, isFinite_exact, lt_exact, ofInt_exact, Fin.forall_fin_succ,
    component, limits, writeRegion, Vec3.map, and_assoc]

theorem contains_exact (outer inner : Observe.Bounds F) :
    Observe.contains outer inner = true ↔
      ∀ axis, component outer.lower axis ≤ component inner.lower axis ∧
        component inner.upper axis ≤ component outer.upper axis := by
  simp [Observe.contains, Observe.axisContains, lt_exact, Fin.forall_fin_succ, component,
    and_assoc]

/-- The bounds of an observation are the limits of the guard, and always finite. -/
theorem bounds_limits (transform : Transform F) :
    Observe.bounds transform = some (limits transform) := by
  have valid : Observe.validBounds (limits transform) = true := by
    have ordered (axis : Fin 3) :
        component (limits transform).lower axis ≤ component (limits transform).upper axis := by
      obtain ⟨corner, inside, same⟩ := (corners_extreme transform axis).1.1
      rw [← same]
      exact (corners_extreme transform axis).2.2 ⟨corner, inside, rfl⟩
    have first := ordered 0
    have second := ordered 1
    have third := ordered 2
    simp only [component] at first second third
    simp [Observe.validBounds, Observe.axisValid, isFinite_exact, lt_exact]
    exact ⟨⟨first, second⟩, third⟩
  simp only [Observe.bounds, extent_radius]
  exact if_pos valid

/-- What the three modules make of one cube. -/
structure CubeBounds (transform : Transform F) : Prop where
  checked :
    ∀ principal, fits principal transform = true ↔
      ∀ axis, component (writeRegion principal).lower axis ≤
          component (limits transform).lower axis ∧
        component (limits transform).upper axis ≤
          component (writeRegion principal).upper axis
  observed : Observe.bounds transform = some (limits transform)
  drawn :
    ∀ axis,
      IsLeast ((fun corner => component (transformed corner transform) axis) '' drawnCorners)
          (component (limits transform).lower axis) ∧
        IsGreatest
          ((fun corner => component (transformed corner transform) axis) '' drawnCorners)
          (component (limits transform).upper axis)
  /-- The guard accepts a placement when the whole cube lies in the principal's region. -/
  guarded :
    ∀ (guard : Policy.Guard) (operation : Nat),
      Policy.scope transform operation guard = .ok () guard ↔
        ∀ point ∈ drawnCube transform, Inside guard.lease.principal point
  /-- A region lets an entity through when it holds the whole cube. -/
  observable :
    ∀ (grant : Observe.ReadGrant F) (region : Observe.Bounds F), grant.region = some region →
      (Observe.outside grant (Observe.bounds transform) = false ↔
        ∀ point ∈ drawnCube transform, Holds region point)

theorem cube_bounds (transform : Transform F) : CubeBounds transform where
  checked := fun principal => fits_limits principal transform
  observed := bounds_limits transform
  drawn := corners_extreme transform
  guarded := by
    intro guard operation
    rw [Policy.scope_eq_ok, fits_limits, ← holds_cube]
    simp only [holds_inside, and_true]
  observable := by
    intro grant region restricted
    rw [holds_cube, ← contains_exact, bounds_limits, Observe.outside, restricted]
    simp

/-- A cube that is turned, mirrored and flattened. -/
theorem cube_bounds_turned :
    CubeBounds (⟨⟨1, 0, -2⟩, ⟨3 / 5, 0, 0, 4 / 5⟩, ⟨-1, 2, 1 / 2⟩⟩ : Transform ℚ) :=
  cube_bounds _

end Omniweft.Presentation
