import Mathlib.Algebra.Quaternion
import Mathlib.Tactic.FieldSimp
import Mathlib.Tactic.Linarith
import Mathlib.Tactic.LinearCombination
import Mathlib.Tactic.NoncommRing
import Omniweft.TransactionsSteps

/-!
# Placements in exact arithmetic

Over an ordered field the rotations the hierarchy composes are multiplication
and conjugation of unit quaternions. `relative` then inverts `compose`, and
neither leaves the rigid transforms.
-/

namespace Omniweft

open scoped Quaternion

/-- An ordered field as the number type: a square root that is right at one
and some bit pattern, which no field determines. -/
class ExactScalar (F : Type) [Field F] [LinearOrder F] [IsStrictOrderedRing F] where
  root : F → F
  root_one : root 1 = 1
  pattern : F → UInt64

section Instances

variable {F : Type} [Field F] [LinearOrder F] [IsStrictOrderedRing F] [ExactScalar F]

@[reducible]
instance (priority := low) exactScalar : Scalar F :=
  Scalar.exact F ExactScalar.root ExactScalar.pattern

end Instances

/-- The rationals, with a root that is right on squares. -/
instance : ExactScalar ℚ where
  root value := (Nat.sqrt value.num.natAbs : ℚ) / (Nat.sqrt value.den : ℚ)
  root_one := by norm_num
  pattern value := UInt64.ofInt value.num

/-- The rationals, which `float` does not round. -/
instance : SinglePrecision ℚ where
  narrow value := value
  largest := 2 ^ 128 - 2 ^ 104

instance : Conversions ℚ where
  floor value := (value.floor : ℚ)
  toUnsigned value := UInt32.ofNat value.floor.toNat
  bitCast pattern := (binary32 pattern : ℚ) / 2 ^ 150

namespace Transactions

open Omniweft.Outcome World

section Exact

variable {F : Type} [Field F] [LinearOrder F] [IsStrictOrderedRing F] [ExactScalar F]

theorem ofInt_exact (value : Int) : (Scalar.ofInt value : F) = value :=
  rfl

theorem eq_exact (left right : F) : Scalar.eq left right = decide (left = right) :=
  rfl

theorem lt_exact (left right : F) : Scalar.lt left right = decide (left < right) :=
  rfl

theorem isFinite_exact (value : F) : Scalar.isFinite value = true :=
  rfl

theorem sqrt_one_exact : Scalar.sqrt (1 : F) = 1 :=
  ExactScalar.root_one

theorem normalizeZero_exact (value : F) : Scalar.normalizeZero value = value := by
  unfold Scalar.normalizeZero
  by_cases zero : value = 0
  · simp [Scalar.eq, ofInt_exact, zero]
  · simp [Scalar.eq, ofInt_exact, zero]

theorem normalizeTransform_exact (value : Transform F) :
    normalizeTransform value = value := by
  simp [normalizeTransform, Vec3.map, Quat.map, normalizeZero_exact]

def quaternion (q : Quat F) : ℍ[F] := ⟨q.w, q.x, q.y, q.z⟩

def vector (v : Vec3 F) : ℍ[F] := ⟨0, v.x, v.y, v.z⟩

@[simp] theorem quaternion_re (q : Quat F) : (quaternion q).re = q.w := rfl
@[simp] theorem quaternion_imI (q : Quat F) : (quaternion q).imI = q.x := rfl
@[simp] theorem quaternion_imJ (q : Quat F) : (quaternion q).imJ = q.y := rfl
@[simp] theorem quaternion_imK (q : Quat F) : (quaternion q).imK = q.z := rfl
@[simp] theorem vector_re (v : Vec3 F) : (vector v).re = 0 := rfl
@[simp] theorem vector_imI (v : Vec3 F) : (vector v).imI = v.x := rfl
@[simp] theorem vector_imJ (v : Vec3 F) : (vector v).imJ = v.y := rfl
@[simp] theorem vector_imK (v : Vec3 F) : (vector v).imK = v.z := rfl

theorem vector_injective {v w : Vec3 F} (same : vector v = vector w) : v = w := by
  obtain ⟨x, y, z⟩ := v
  obtain ⟨x', y', z'⟩ := w
  have sameX : x = x' := congrArg QuaternionAlgebra.imI same
  have sameY : y = y' := congrArg QuaternionAlgebra.imJ same
  have sameZ : z = z' := congrArg QuaternionAlgebra.imK same
  rw [sameX, sameY, sameZ]

theorem quaternion_injective {p q : Quat F} (same : quaternion p = quaternion q) :
    p = q := by
  obtain ⟨x, y, z, w⟩ := p
  obtain ⟨x', y', z', w'⟩ := q
  have sameX : x = x' := congrArg QuaternionAlgebra.imI same
  have sameY : y = y' := congrArg QuaternionAlgebra.imJ same
  have sameZ : z = z' := congrArg QuaternionAlgebra.imK same
  have sameW : w = w' := congrArg QuaternionAlgebra.re same
  rw [sameX, sameY, sameZ, sameW]

theorem squaredNorm_exact (q : Quat F) :
    squaredNorm q = q.x ^ 2 + q.y ^ 2 + q.z ^ 2 + q.w ^ 2 := by
  have sum :
      squaredNorm q = 0 + q.x * q.x + q.y * q.y + q.z * q.z + q.w * q.w := by
    simp [squaredNorm, Quat.toList, ofInt_exact]
  rw [sum]
  ring

theorem normSq_quaternion (q : Quat F) :
    Quaternion.normSq (quaternion q) = squaredNorm q := by
  rw [Quaternion.normSq_def', squaredNorm_exact]
  simp only [quaternion_re, quaternion_imI, quaternion_imJ, quaternion_imK]
  ring

/-- The rotations of the exact reading. -/
def UnitRotation (q : Quat F) : Prop :=
  squaredNorm q = 1

def conjugate (q : Quat F) : Quat F := ⟨-q.x, -q.y, -q.z, q.w⟩

theorem quaternion_conjugate (q : Quat F) :
    quaternion (conjugate q) = star (quaternion q) := by
  ext <;> simp [conjugate]

theorem UnitRotation.conjugate {q : Quat F} (rotation : UnitRotation q) :
    UnitRotation (conjugate q) := by
  unfold UnitRotation at rotation ⊢
  rw [← normSq_quaternion, quaternion_conjugate, Quaternion.normSq_star,
    normSq_quaternion, rotation]

/-- A quaternion of norm one undoes its conjugate. -/
theorem UnitRotation.mul_star {q : Quat F} (rotation : UnitRotation q) :
    quaternion q * star (quaternion q) = 1 := by
  rw [Quaternion.self_mul_star, normSq_quaternion, rotation, Quaternion.coe_one]

theorem unit_exact {q : Quat F} (rotation : UnitRotation q) : unit q = q := by
  unfold UnitRotation at rotation
  simp only [unit, rotation, sqrt_one_exact]
  simp [Quat.map]

theorem quaternion_product {a b : Quat F} (first : UnitRotation a)
    (second : UnitRotation b) :
    quaternion (product a b) = quaternion a * quaternion b := by
  set raw : Quat F :=
    { x := a.w * b.x + a.x * b.w + a.y * b.z - a.z * b.y
      y := a.w * b.y - a.x * b.z + a.y * b.w + a.z * b.x
      z := a.w * b.z + a.x * b.y - a.y * b.x + a.z * b.w
      w := a.w * b.w - a.x * b.x - a.y * b.y - a.z * b.z } with rawEqual
  have multiplied : quaternion raw = quaternion a * quaternion b := by
    ext <;> simp [rawEqual]
  have rotation : UnitRotation raw := by
    unfold UnitRotation at first second ⊢
    rw [← normSq_quaternion, multiplied, map_mul, normSq_quaternion, normSq_quaternion,
      first, second, mul_one]
  have whole : product a b = raw := unit_exact rotation
  rw [whole, multiplied]

theorem UnitRotation.product {a b : Quat F} (first : UnitRotation a)
    (second : UnitRotation b) : UnitRotation (product a b) := by
  unfold UnitRotation
  rw [← normSq_quaternion, quaternion_product first second, map_mul, normSq_quaternion,
    normSq_quaternion, first, second, mul_one]

/-- Rotating is conjugation by the unit quaternion. -/
theorem vector_rotate {q : Quat F} (rotation : UnitRotation q) (v : Vec3 F) :
    vector (rotate q v) = quaternion q * vector v * star (quaternion q) := by
  obtain ⟨x, y, z, w⟩ := q
  obtain ⟨a, b, c⟩ := v
  have norm : x ^ 2 + y ^ 2 + z ^ 2 + w ^ 2 = 1 := by
    rw [← rotation, squaredNorm_exact]
  ext
  · simp [rotate, ofInt_exact]
    ring
  · simp [rotate, ofInt_exact]
    linear_combination (-a) * norm
  · simp [rotate, ofInt_exact]
    linear_combination (-b) * norm
  · simp [rotate, ofInt_exact]
    linear_combination (-c) * norm

theorem rotate_conjugate {q : Quat F} (rotation : UnitRotation q) (v : Vec3 F) :
    rotate q (rotate (conjugate q) v) = v := by
  apply vector_injective
  rw [vector_rotate rotation, vector_rotate rotation.conjugate, quaternion_conjugate,
    star_star]
  calc
    quaternion q * (star (quaternion q) * vector v * quaternion q) *
          star (quaternion q)
        = (quaternion q * star (quaternion q)) * vector v *
            (quaternion q * star (quaternion q)) := by noncomm_ring
    _ = vector v := by rw [rotation.mul_star, one_mul, mul_one]

/-- A unit rotation and no vanishing scale component. -/
structure Rigid (value : Transform F) : Prop where
  rotation : UnitRotation value.rotationXyzw
  scale : ∀ component, component ∈ value.scale.toList → component ≠ 0

theorem rigid_default : Rigid (Transform.default : Transform F) where
  rotation := by
    unfold UnitRotation
    rw [squaredNorm_exact]
    simp [Transform.default, ofInt_exact]
  scale := by
    intro component member
    simp only [Transform.default, Vec3.toList, List.mem_cons, List.not_mem_nil,
      or_false, or_self] at member
    rw [member, ofInt_exact, Int.cast_one]
    exact one_ne_zero

theorem checked_exact {value result : Transform F} {path : Text} {index : Nat} :
    checked value path index = .ok result ↔
      (∀ component, component ∈ value.scale.toList → component ≠ 0) ∧
        result = value := by
  unfold checked
  simp only [bind_eq_ok, rejectIf_eq_ok, pure_eq_ok, normalizeTransform_exact,
    Bool.or_eq_false_iff, Bool.not_eq_false', exists_and_left, exists_const]
  constructor
  · rintro ⟨⟨_, nonzero⟩, same⟩
    refine ⟨fun component member => ?_, same.symm⟩
    simpa [eq_exact, ofInt_exact] using
      List.any_eq_false.mp nonzero component member
  · rintro ⟨nonzero, same⟩
    refine ⟨⟨?_, ?_⟩, same.symm⟩
    · simp [finiteTransform, isFinite_exact]
    · refine List.any_eq_false.mpr fun component member => ?_
      simpa [eq_exact, ofInt_exact] using nonzero component member

omit [LinearOrder F] [IsStrictOrderedRing F] [ExactScalar F] in
theorem map_ne_zero {scale : Vec3 F} {change : F → F}
    (nonzero : ∀ component, component ∈ scale.toList → component ≠ 0)
    (keeps : ∀ component, component ≠ 0 → change component ≠ 0) :
    ∀ component, component ∈ (scale.map change).toList → component ≠ 0 := by
  have mapped : (scale.map change).toList = scale.toList.map change := rfl
  intro component member
  rw [mapped, List.mem_map] at member
  obtain ⟨old, oldMember, same⟩ := member
  exact same ▸ keeps old (nonzero old oldMember)

/-- The common scale of a transform under which children can stand. -/
theorem uniformScale_exact {value : Transform F} :
    uniformScale value = true ↔
      0 < value.scale.x ∧ value.scale.x = value.scale.y ∧
        value.scale.x = value.scale.z := by
  simp [uniformScale, eq_exact, lt_exact, ofInt_exact, and_assoc]

/-- What `compose` computes on rigid transforms. -/
def composed (parent localTransform : Transform F) : Transform F where
  positionM :=
    let turned :=
      rotate parent.rotationXyzw
        (localTransform.positionM.map fun value => value * parent.scale.x)
    ⟨turned.x + parent.positionM.x, turned.y + parent.positionM.y,
      turned.z + parent.positionM.z⟩
  rotationXyzw := product parent.rotationXyzw localTransform.rotationXyzw
  scale := localTransform.scale.map fun value => value * parent.scale.x

/-- What `relative` computes on rigid transforms. -/
def related (parent value : Transform F) : Transform F where
  positionM :=
    (rotate (conjugate parent.rotationXyzw)
      ⟨value.positionM.x - parent.positionM.x, value.positionM.y - parent.positionM.y,
        value.positionM.z - parent.positionM.z⟩).map
      fun component => component / parent.scale.x
  rotationXyzw := product (conjugate parent.rotationXyzw) value.rotationXyzw
  scale := value.scale.map fun component => component / parent.scale.x

theorem compose_exact {parent localTransform result : Transform F}
    (parentRigid : Rigid parent) (localRigid : Rigid localTransform) {path : Text}
    {index : Nat} :
    compose parent localTransform path index = .ok result ↔
      uniformScale parent = true ∧ result = composed parent localTransform := by
  unfold compose
  simp only [bind_eq_ok, parentScale, rejectIf_eq_ok, Bool.not_eq_false',
    exists_and_left, exists_const, checked_exact, unit_exact parentRigid.rotation,
    unit_exact localRigid.rotation]
  refine and_congr_right fun uniform => and_iff_right ?_
  have positive := (uniformScale_exact.mp uniform).1
  exact map_ne_zero localRigid.scale fun component nonzero =>
    mul_ne_zero nonzero positive.ne'

theorem relative_exact {parent value result : Transform F}
    (parentRigid : Rigid parent) (valueRigid : Rigid value) {path : Text}
    {index : Nat} :
    relative parent value path index = .ok result ↔
      uniformScale parent = true ∧ result = related parent value := by
  unfold relative
  simp only [bind_eq_ok, parentScale, rejectIf_eq_ok, Bool.not_eq_false',
    exists_and_left, exists_const, checked_exact, unit_exact parentRigid.rotation,
    unit_exact valueRigid.rotation]
  refine and_congr_right fun uniform => and_iff_right ?_
  have positive := (uniformScale_exact.mp uniform).1
  exact map_ne_zero valueRigid.scale fun component nonzero =>
    div_ne_zero nonzero positive.ne'

theorem Rigid.composed {parent localTransform : Transform F} (parentRigid : Rigid parent)
    (localRigid : Rigid localTransform) (uniform : uniformScale parent = true) :
    Rigid (composed parent localTransform) where
  rotation := parentRigid.rotation.product localRigid.rotation
  scale :=
    map_ne_zero localRigid.scale fun _ nonzero =>
      mul_ne_zero nonzero (uniformScale_exact.mp uniform).1.ne'

theorem Rigid.related {parent value : Transform F} (parentRigid : Rigid parent)
    (valueRigid : Rigid value) (uniform : uniformScale parent = true) :
    Rigid (related parent value) where
  rotation := parentRigid.rotation.conjugate.product valueRigid.rotation
  scale :=
    map_ne_zero valueRigid.scale fun _ nonzero =>
      div_ne_zero nonzero (uniformScale_exact.mp uniform).1.ne'

/-- Composing under the parent undoes taking relative to it. -/
theorem composed_related {parent value : Transform F} (parentRigid : Rigid parent)
    (valueRigid : Rigid value) (uniform : uniformScale parent = true) :
    Transactions.composed parent (Transactions.related parent value) = value := by
  obtain ⟨position, rotation, scale⟩ := value
  have nonzero : parent.scale.x ≠ 0 := (uniformScale_exact.mp uniform).1.ne'
  have undo (v : Vec3 F) :
      (v.map fun component => component / parent.scale.x).map
          (fun component => component * parent.scale.x) = v := by
    simp [Vec3.map, div_mul_cancel₀ _ nonzero]
  have turned :
      product parent.rotationXyzw (product (conjugate parent.rotationXyzw) rotation) =
        rotation := by
    apply quaternion_injective
    rw [quaternion_product parentRigid.rotation
        (parentRigid.rotation.conjugate.product valueRigid.rotation),
      quaternion_product parentRigid.rotation.conjugate valueRigid.rotation,
      quaternion_conjugate, ← mul_assoc, parentRigid.rotation.mul_star, one_mul]
  simp only [Transactions.composed, Transactions.related, undo, turned,
    rotate_conjugate parentRigid.rotation, sub_add_cancel]

/-- `compose` takes back what `relative` gave, whatever the path and index. -/
theorem compose_relative {parent value localTransform : Transform F}
    (parentRigid : Rigid parent) (valueRigid : Rigid value) {path : Text} {index : Nat}
    (found : relative parent value path index = .ok localTransform) (path' : Text)
    (index' : Nat) :
    Rigid localTransform ∧ compose parent localTransform path' index' = .ok value := by
  obtain ⟨uniform, same⟩ := (relative_exact parentRigid valueRigid).mp found
  subst same
  have rigid := parentRigid.related valueRigid uniform
  refine ⟨rigid, (compose_exact parentRigid rigid).mpr ⟨uniform, ?_⟩⟩
  exact (composed_related parentRigid valueRigid uniform).symm

end Exact
end Transactions
end Omniweft
