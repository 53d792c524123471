import Omniweft.GltfJson

/-!
# Buffers and meshes of a GLB document

The middle part of `gltf.cpp`: buffer views, accessors with the elements they
decode, materials and meshes. Offsets, lengths, strides and counts are the
source's 32-bit numbers and addresses its 64-bit ones, so that they may wrap.
-/

namespace Omniweft.Gltf

open Outcome

structure Bounds (α : Type) where
  minimum : Vec3 α
  maximum : Vec3 α
  deriving DecidableEq, Repr

structure View where
  offset : UInt32
  length : UInt32
  stride : UInt32
  target : UInt32
  positions : Nat
  indices : Nat
  deriving DecidableEq, Repr

structure Accessor (α : Type) where
  positions : List (Vec3 α)
  indices : List UInt32
  bounds : Bounds α
  deriving DecidableEq, Repr

structure Material (α : Type) where
  name : Text
  baseColorFactor : Quat α
  metallicFactor : α
  roughnessFactor : α
  doubleSided : Bool
  deriving DecidableEq, Repr

structure Primitive (α : Type) where
  positions : List (Vec3 α)
  indices : List UInt32
  material : Option UInt32
  bounds : Bounds α
  deriving DecidableEq, Repr

structure Mesh (α : Type) where
  primitives : List (Primitive α)
  deriving DecidableEq, Repr

section Scalars

variable {α : Type} [Scalar α]

/-- `std::min` and `std::max`, which keep the first of two equal values. -/
def least (left right : α) : α := if Scalar.lt right left then right else left

def greatest (left right : α) : α := if Scalar.lt left right then right else left

def add (bounds : Bounds α) (position : Vec3 α) : Bounds α where
  minimum := ⟨least bounds.minimum.x position.x, least bounds.minimum.y position.y,
    least bounds.minimum.z position.z⟩
  maximum := ⟨greatest bounds.maximum.x position.x, greatest bounds.maximum.y position.y,
    greatest bounds.maximum.z position.z⟩

/-- The bounds of one point, or bounds grown by it. -/
def grow (bounds : Option (Bounds α)) (position : Vec3 α) : Bounds α :=
  match bounds with
  | none => ⟨position, position⟩
  | some bounds => add bounds position

def merge (bounds : Option (Bounds α)) (value : Bounds α) : Bounds α :=
  match bounds with
  | none => value
  | some bounds => add (add bounds value.minimum) value.maximum

/-- The comparison of two `std::array` of three. -/
def sameVector (left right : Vec3 α) : Bool :=
  Scalar.eq left.x right.x && Scalar.eq left.y right.y && Scalar.eq left.z right.z

/-- `Bounds{}`. -/
def Bounds.zero : Bounds α :=
  let zero : α := Scalar.ofInt 0
  ⟨⟨zero, zero, zero⟩, ⟨zero, zero, zero⟩⟩

variable [Conversions α]

def view (length : Nat) (value : Json α) : Except Text View := do
  fields value
    [ascii "buffer", ascii "byteOffset", ascii "byteLength", ascii "byteStride",
      ascii "target", ascii "name"]
    [ascii "buffer", ascii "byteLength"]
  name value
  let buffer ← integer (value.member (ascii "buffer"))
  rejectIf (buffer != 0) (ascii "INVALID_SCHEMA")
  let offset ← optionalInteger value (ascii "byteOffset") 0
  let byteLength ← integer (value.member (ascii "byteLength"))
  let stride ← optionalInteger value (ascii "byteStride") 0
  let target ← optionalInteger value (ascii "target") 0
  rejectIf
    (byteLength == 0 || decide (length < offset.toNat) ||
      decide (length - offset.toNat < byteLength.toNat))
    (ascii "INVALID_SCHEMA")
  let strided := value.contains (ascii "byteStride")
  rejectIf (strided && (decide (stride < 4) || decide (252 < stride) || stride % 4 != 0))
    (ascii "INVALID_SCHEMA")
  rejectIf (value.contains (ascii "target") && target != 34962 && target != 34963)
    (ascii "INVALID_SCHEMA")
  rejectIf (target == 34963 && strided) (ascii "INVALID_SCHEMA")
  return ⟨offset, byteLength, stride, target, 0, 0⟩

def views (input : Json α) (length : Nat) : Except Text (List View) := do
  let values ← array input 8 true
  values.mapM (view length)

/-- The kinds of accessor of the profile: positions, or indices of one, two or
four bytes. -/
inductive Kind where
  | position
  | byte
  | short
  | word
  deriving DecidableEq, Repr

namespace Kind

def componentSize : Kind → UInt32
  | position => 4
  | byte => 1
  | short => 2
  | word => 4

def elementSize : Kind → UInt32
  | position => 12
  | kind => kind.componentSize

def sentinel : Kind → UInt32
  | byte => 255
  | short => 65535
  | _ => 4294967295

/-- The bound on the count of one accessor. -/
def countLimit : Kind → UInt32
  | position => 256
  | _ => 768

/-- The bound on the counts of all accessors of positions, or of indices. -/
def totalLimit : Kind → Nat
  | position => 1024
  | _ => 3072

end Kind

def kindOf (type : Text) (component : UInt32) : Except Text Kind :=
  if type == ascii "VEC3" && component == 5126 then .ok .position
  else if type == ascii "SCALAR" && component == 5121 then .ok .byte
  else if type == ascii "SCALAR" && component == 5123 then .ok .short
  else if type == ascii "SCALAR" && component == 5125 then .ok .word
  else .error (ascii "UNSUPPORTED_PROFILE")

/-- Where an accessor's elements lie. -/
structure Layout where
  kind : Kind
  base : UInt32
  offset : UInt32
  stride : UInt32
  count : UInt32
  deriving DecidableEq, Repr

/-- `at`: the address of an element. -/
def Layout.address (layout : Layout) (number : UInt32) : UInt64 :=
  layout.base.toUInt64 + layout.offset.toUInt64 + number.toUInt64 * layout.stride.toUInt64

/-- The check of the layout against the view. -/
def misplaced (view : View) (layout : Layout) : Bool :=
  let componentSize := layout.kind.componentSize
  let elementSize := layout.kind.elementSize
  layout.offset % componentSize != 0 ||
    (view.offset.toUInt64 + layout.offset.toUInt64) % componentSize.toUInt64 != 0 ||
    decide (layout.stride < elementSize) || layout.stride % componentSize != 0 ||
    decide (view.length < layout.offset) ||
    decide (view.length - layout.offset < elementSize) ||
    decide ((view.length - layout.offset - elementSize) / layout.stride < layout.count - 1)

/-- The use of the view that an accessor adds. -/
def claim (view : View) (layout : Layout) : Except Text View := do
  let used : View ←
    match layout.kind with
    | .position => do
        rejectIf (view.target == 34963 || layout.offset % 4 != 0 || layout.stride % 4 != 0)
          (ascii "INVALID_SCHEMA")
        pure { view with positions := view.positions + 1 }
    | _ => do
        rejectIf (view.target == 34962 || view.stride != 0) (ascii "INVALID_SCHEMA")
        pure { view with indices := view.indices + 1 }
  rejectIf (used.positions != 0 && used.indices != 0) (ascii "INVALID_SCHEMA")
  rejectIf (decide (1 < used.positions) && used.stride == 0) (ascii "INVALID_SCHEMA")
  return used

/-- One component of a decoded position. -/
def coordinate (bin : Bytes) (address : UInt64) : Except Text α := do
  let pattern ← le32 bin address.toNat
  let value : α := Conversions.bitCast pattern
  rejectIf (!Scalar.isFinite value) (ascii "NONFINITE_VALUE")
  rejectIf (Scalar.lt (Scalar.ofInt 1000000) (Scalar.abs value)) (ascii "INVALID_SCHEMA")
  return Scalar.normalizeZero value

def readPosition (bin : Bytes) (address : UInt64) : Except Text (Vec3 α) := do
  let x ← coordinate bin address
  let y ← coordinate bin (address + 4)
  let z ← coordinate bin (address + 8)
  return ⟨x, y, z⟩

/-- The bytes of an index, which the source reads without a check. -/
def readBytes (bin : Bytes) (address : UInt64) : Nat → Except Text Bytes
  | 0 => .ok []
  | count + 1 => do
      let byte ← element bin address.toNat
      let rest ← readBytes bin (address + 1) count
      return byte :: rest

def readIndex (kind : Kind) (bin : Bytes) (address : UInt64) : Except Text UInt32 := do
  let bytes ← readBytes bin address kind.componentSize.toNat
  let vertex := UInt32.ofNat (fromLittleEndian bytes)
  rejectIf (vertex == kind.sentinel) (ascii "INVALID_INDEX")
  return vertex

/-- One round of the element loop. -/
def decodeElement (layout : Layout) (bin : Bytes) (decoded : Accessor α) (number : Nat) :
    Except Text (Accessor α) :=
  let address := layout.address (UInt32.ofNat number)
  match layout.kind with
  | .position => do
      let position ← readPosition bin address
      let before := if decoded.positions.isEmpty then none else some decoded.bounds
      return { decoded with
        positions := decoded.positions ++ [position], bounds := grow before position }
  | kind => do
      let vertex ← readIndex kind bin address
      return { decoded with indices := decoded.indices ++ [vertex] }

def decodeElements (layout : Layout) (bin : Bytes) : Except Text (Accessor α) :=
  (List.range layout.count.toNat).foldlM (decodeElement layout bin) ⟨[], [], Bounds.zero⟩

/-- `*std::min_element`, and `*std::max_element` with the order turned. -/
def extremeIndex (before : UInt32 → UInt32 → Bool) : List UInt32 → UInt32
  | [] => 0
  | first :: rest => rest.foldl (fun found next => if before next found then next else found) first

/-- A declared extreme of the indices, when there is one. -/
def declaredIndex (value : Json α) (member : Text) (found : UInt32) : Except Text Unit := do
  let declared ← optional value member vector1
  match declared with
  | none => return
  | some declared =>
      rejectIf (!Scalar.eq declared (Scalar.ofInt found.toNat)) (ascii "INVALID_SCHEMA")

/-- The declared extremes agree with the decoded elements. -/
def declared (value : Json α) (kind : Kind) (decoded : Accessor α) : Except Text Unit :=
  match kind with
  | .position => do
      rejectIf (!value.contains (ascii "min") || !value.contains (ascii "max"))
        (ascii "INVALID_SCHEMA")
      let minimum ← positionExtrema (value.member (ascii "min"))
      rejectIf (!sameVector minimum decoded.bounds.minimum) (ascii "INVALID_SCHEMA")
      let maximum ← positionExtrema (value.member (ascii "max"))
      rejectIf (!sameVector maximum decoded.bounds.maximum) (ascii "INVALID_SCHEMA")
  | _ => do
      declaredIndex value (ascii "min")
        (extremeIndex (fun next found => decide (next < found)) decoded.indices)
      declaredIndex value (ascii "max")
        (extremeIndex (fun next found => decide (found < next)) decoded.indices)

/-- What the accessor loop carries: the views, the accessors so far, and the two totals. -/
structure Accessors (α : Type) where
  views : List View
  out : List (Accessor α)
  vertexTotal : Nat
  indexTotal : Nat

def Accessors.total (state : Accessors α) : Kind → Nat
  | .position => state.vertexTotal
  | _ => state.indexTotal

def Accessors.spend (state : Accessors α) (kind : Kind) (count : Nat) : Accessors α :=
  match kind with
  | .position => { state with vertexTotal := state.vertexTotal + count }
  | _ => { state with indexTotal := state.indexTotal + count }

/-- One round of the accessor loop. -/
def accessor (bin : Bytes) (state : Accessors α) (value : Json α) :
    Except Text (Accessors α) := do
  fields value
    [ascii "bufferView", ascii "byteOffset", ascii "componentType", ascii "normalized",
      ascii "count", ascii "type", ascii "min", ascii "max", ascii "name"]
    [ascii "bufferView", ascii "componentType", ascii "count", ascii "type"]
  name value
  let normalized ← optional value (ascii "normalized") boolean
  rejectIf (normalized.getD false) (ascii "UNSUPPORTED_PROFILE")
  let number ← index (value.member (ascii "bufferView")) state.views.length
  let view ← element state.views number.toNat
  let component ← integer (value.member (ascii "componentType"))
  let count ← integer (value.member (ascii "count"))
  let type ← text (value.member (ascii "type"))
  let kind ← kindOf type component
  rejectIf (count == 0) (ascii "INVALID_SCHEMA")
  rejectIf (decide (kind.countLimit < count)) (ascii "BUDGET_EXCEEDED")
  rejectIf (decide (kind.totalLimit - state.total kind < count.toNat)) (ascii "BUDGET_EXCEEDED")
  let state := state.spend kind count.toNat
  let offset ← optionalInteger value (ascii "byteOffset") 0
  let stride := if view.stride == 0 then kind.elementSize else view.stride
  let layout : Layout := ⟨kind, view.offset, offset, stride, count⟩
  rejectIf (misplaced view layout) (ascii "INVALID_SCHEMA")
  let used ← claim view layout
  let decoded ← decodeElements layout bin
  declared value kind decoded
  return { state with
    views := state.views.set number.toNat used, out := state.out ++ [decoded] }

/-- `accessors`: the decoded accessors, and the views it has counted the uses of. -/
def accessors (input : Json α) (views : List View) (bin : Bytes) :
    Except Text (Accessors α) := do
  let values ← array input 8 true
  values.foldlM (accessor bin) ⟨views, [], 0, 0⟩

/-- A factor lies between zero and one. -/
def outsideUnit (factor : α) : Bool :=
  Scalar.lt factor (Scalar.ofInt 0) || Scalar.lt (Scalar.ofInt 1) factor

/-- The values `Material{}` has. -/
def Material.default : Material α :=
  let one : α := Scalar.ofInt 1
  ⟨[], ⟨one, one, one, one⟩, one, one, false⟩

def roughness (material : Material α) (pbr : Json α) : Except Text (Material α) := do
  fields pbr [ascii "baseColorFactor", ascii "metallicFactor", ascii "roughnessFactor"] []
  let color ← optional pbr (ascii "baseColorFactor") vector4
  let metallic ← optional pbr (ascii "metallicFactor") number
  let rough ← optional pbr (ascii "roughnessFactor") number
  return { material with
    baseColorFactor := color.getD material.baseColorFactor
    metallicFactor := metallic.getD material.metallicFactor
    roughnessFactor := rough.getD material.roughnessFactor }

/-- One round of the loop of `materials`. -/
def material (value : Json α) : Except Text (Material α) := do
  fields value
    [ascii "name", ascii "pbrMetallicRoughness", ascii "doubleSided", ascii "alphaMode"] []
  let name ← optional value (ascii "name") text
  let alphaMode ← optional value (ascii "alphaMode") text
  rejectIf (alphaMode.any fun mode => mode != ascii "OPAQUE") (ascii "UNSUPPORTED_PROFILE")
  let doubleSided ← optional value (ascii "doubleSided") boolean
  let named : Material α :=
    { Material.default with name := name.getD [], doubleSided := doubleSided.getD false }
  let shaded ← optional value (ascii "pbrMetallicRoughness") (roughness named)
  let material := shaded.getD named
  rejectIf (material.baseColorFactor.toList.any outsideUnit) (ascii "INVALID_SCHEMA")
  rejectIf (outsideUnit material.metallicFactor || outsideUnit material.roughnessFactor)
    (ascii "INVALID_SCHEMA")
  return material

def materials (input : Json α) : Except Text (List (Material α)) := do
  let values ← array input 4 true
  values.mapM material

/-- The counters of `meshes`. -/
structure Totals where
  primitives : Nat
  vertices : Nat
  indices : Nat
  deriving DecidableEq, Repr

/-- How many members `attributes` has. -/
def members (value : Json α) : Nat :=
  match value with
  | .object entries => entries.length
  | _ => 0

/-- One round of the inner loop of `meshes`. -/
def primitive (decoded : List (Accessor α)) (materialCount : Nat)
    (state : Totals × List (Primitive α)) (value : Json α) :
    Except Text (Totals × List (Primitive α)) := do
  let (totals, out) := state
  rejectIf (decide (4 < totals.primitives + 1)) (ascii "BUDGET_EXCEEDED")
  fields value [ascii "attributes", ascii "indices", ascii "material", ascii "mode"]
    [ascii "attributes", ascii "indices"]
  let attributes := value.member (ascii "attributes")
  fields attributes [ascii "POSITION"] [ascii "POSITION"]
  rejectIf (members attributes != 1) (ascii "UNSUPPORTED_PROFILE")
  let mode ← optionalInteger value (ascii "mode") 4
  rejectIf (mode != 4) (ascii "UNSUPPORTED_PROFILE")
  let positionIndex ← index (attributes.member (ascii "POSITION")) decoded.length
  let p ← element decoded positionIndex.toNat
  let indexIndex ← index (value.member (ascii "indices")) decoded.length
  let i ← element decoded indexIndex.toNat
  rejectIf (p.positions.isEmpty || i.indices.isEmpty || i.indices.length % 3 != 0)
    (ascii "INVALID_SCHEMA")
  rejectIf (i.indices.any fun vertex => decide (p.positions.length ≤ vertex.toNat))
    (ascii "INVALID_INDEX")
  rejectIf
    (decide (1024 - totals.vertices < p.positions.length) ||
      decide (3072 - totals.indices < i.indices.length))
    (ascii "BUDGET_EXCEEDED")
  let material ← optional value (ascii "material") fun found => index found materialCount
  return (⟨totals.primitives + 1, totals.vertices + p.positions.length,
      totals.indices + i.indices.length⟩,
    out ++ [⟨p.positions, i.indices, material, p.bounds⟩])

/-- One round of the outer loop. -/
def mesh (decoded : List (Accessor α)) (materialCount : Nat)
    (state : Totals × List (Mesh α)) (value : Json α) : Except Text (Totals × List (Mesh α)) := do
  fields value [ascii "primitives", ascii "name"] [ascii "primitives"]
  name value
  let values ← array (value.member (ascii "primitives")) 4 true
  let (totals, primitives) ← values.foldlM (primitive decoded materialCount) (state.1, [])
  return (totals, state.2 ++ [⟨primitives⟩])

def meshes (input : Json α) (decoded : List (Accessor α)) (materialCount : Nat) :
    Except Text (List (Mesh α)) := do
  let values ← array input 4 true
  let (_, out) ← values.foldlM (mesh decoded materialCount) (⟨0, 0, 0⟩, [])
  return out

end Scalars

end Omniweft.Gltf
