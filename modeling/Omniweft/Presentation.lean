import Omniweft.Library.Keyed
import Omniweft.Observe

/-!
# Presentation packets

`presentation.cpp`: a snapshot becomes the objects, vertices and indices that
the renderer draws. `make_packet` checks the snapshot again while it reads it,
and every check throws the same exception, whose text is the error here.
-/

namespace Omniweft.Presentation

open Outcome World

structure Camera (α : Type) where
  positionM : Vec3 α
  left : α
  right : α
  bottom : α
  top : α
  nearM : α
  farM : α
  deriving DecidableEq, Repr

structure Vertex (α : Type) where
  clipPosition : Vector α 4
  color : Vector α 4
  objectId : UInt32
  deriving DecidableEq

structure Object (α : Type) where
  objectId : UInt32
  entityUuid : Text
  generation : UInt64
  authoringRevision : UInt64
  transform : Transform α
  deriving DecidableEq, Repr

structure Packet (α : Type) where
  worldId : Text
  worldRevision : UInt64
  camera : Camera α
  objects : List (Object α)
  vertices : List (Vertex α)
  indices : List UInt32
  deriving DecidableEq

section Scalars

variable {α : Type} [Scalar α]

/-- The value `Camera{}` has. -/
def Camera.default : Camera α where
  positionM := ⟨Scalar.ofInt 0, Scalar.ofInt 0, Scalar.ofInt 5⟩
  left := Scalar.ofInt (-4)
  right := Scalar.ofInt 4
  bottom := Scalar.ofInt (-3)
  top := Scalar.ofInt 3
  nearM := Scalar.ofInt 1 / Scalar.ofInt 10
  farM := Scalar.ofInt 20

/-- The corners of the unit cube, face by face in drawing order. -/
def faces : List (List (Vec3 α)) :=
  let high : α := Scalar.half
  let low : α := -Scalar.half
  [[⟨high, low, low⟩, ⟨high, high, low⟩, ⟨high, high, high⟩, ⟨high, low, high⟩],
    [⟨low, low, high⟩, ⟨low, high, high⟩, ⟨low, high, low⟩, ⟨low, low, low⟩],
    [⟨low, high, low⟩, ⟨low, high, high⟩, ⟨high, high, high⟩, ⟨high, high, low⟩],
    [⟨low, low, high⟩, ⟨low, low, low⟩, ⟨high, low, low⟩, ⟨high, low, high⟩],
    [⟨low, low, high⟩, ⟨high, low, high⟩, ⟨high, high, high⟩, ⟨low, high, high⟩],
    [⟨high, low, low⟩, ⟨low, low, low⟩, ⟨low, high, low⟩, ⟨high, high, low⟩]]

def colors : List (Vector Nat 4) :=
  [#v[255, 64, 64, 255], #v[128, 32, 32, 255], #v[64, 255, 64, 255],
    #v[32, 128, 32, 255], #v[64, 64, 255, 255], #v[32, 32, 128, 255]]

def require (condition : Bool) : Except Text Unit :=
  rejectIf (!condition)
    (ascii "Presentation requires bounded, finite committed object data.")

def identifier (value : Text) : Bool := validIdentifier 128 value

def uuid (value : Text) : Bool := Commands.validUuid value

def finite (values : List α) : Except Text Unit :=
  require (values.all Scalar.isFinite)

/-- The comparison `<=`, which is false when an operand is not a number. -/
def lessOrEqual (left right : α) : Bool :=
  Scalar.lt left right || Scalar.eq left right

/-- `transformed`: a corner of the unit cube in the world. -/
def transformed (corner : Vec3 α) (transform : Transform α) : Vec3 α :=
  let x := corner.x * transform.scale.x
  let y := corner.y * transform.scale.y
  let z := corner.z * transform.scale.z
  let q := transform.rotationXyzw
  let one : α := Scalar.ofInt 1
  let two : α := Scalar.ofInt 2
  { x := (one - two * (q.y * q.y + q.z * q.z)) * x + two * (q.x * q.y - q.z * q.w) * y +
      two * (q.x * q.z + q.y * q.w) * z + transform.positionM.x
    y := two * (q.x * q.y + q.z * q.w) * x + (one - two * (q.x * q.x + q.z * q.z)) * y +
      two * (q.y * q.z - q.x * q.w) * z + transform.positionM.y
    z := two * (q.x * q.z - q.y * q.w) * x + two * (q.y * q.z + q.x * q.w) * y +
      (one - two * (q.x * q.x + q.y * q.y)) * z + transform.positionM.z }

/-- The clip coordinates of a point, before they become `float`. -/
def clip (camera : Camera α) (position : Vec3 α) : Vec3 α :=
  let two : α := Scalar.ofInt 2
  { x := (two * (position.x - camera.positionM.x) - camera.right - camera.left) /
      (camera.right - camera.left)
    y := -(two * (position.y - camera.positionM.y) - camera.top - camera.bottom) /
      (camera.top - camera.bottom)
    z := (camera.positionM.z - position.z - camera.nearM) / (camera.farM - camera.nearM) }

/-- What the checks of an entity ask of it. -/
def presentable (worldRevision : UInt64) (entity : Entity α) : Except Text Unit := do
  require (entity.prefabId == ascii "builtin.unit_cube" &&
    decide (0 < entity.authoringRevision) && decide (entity.authoringRevision ≤ worldRevision))
  let source := entity.transform
  finite source.positionM.toList
  finite source.rotationXyzw.toList
  finite source.scale.toList
  let norm := Transactions.squaredNorm source.rotationXyzw
  require (Scalar.isFinite norm &&
    lessOrEqual (Scalar.abs (norm - Scalar.ofInt 1)) Scalar.tolerance)
  require (source.scale.toList.all fun value => !Scalar.eq value (Scalar.ofInt 0))

variable [SinglePrecision α]

def checkedFloat (value : α) : Except Text α := do
  require (Scalar.isFinite value &&
    lessOrEqual (Scalar.abs value) SinglePrecision.largest)
  let result := SinglePrecision.narrow value
  require (Scalar.isFinite result)
  return Scalar.normalizeZero result

/-- One channel of a colour. A binary64 quotient of small integers rounds on to
the binary32 quotient the source computes. -/
def channel (value : Nat) : α :=
  SinglePrecision.narrow (Scalar.ofInt value / Scalar.ofInt 255)

/-- The innermost loop of `make_packet`. -/
def drawCorner (objectId : UInt32) (transform : Transform α) (color : Vector Nat 4)
    (packet : Packet α) (corner : Vec3 α) : Except Text (Packet α) := do
  let position := transformed corner transform
  finite position.toList
  let point := clip packet.camera position
  let x ← checkedFloat point.x
  let y ← checkedFloat point.y
  let z ← checkedFloat point.z
  return { packet with
    vertices := packet.vertices ++
      [⟨#v[x, y, z, Scalar.ofInt 1], color.map channel, objectId⟩] }

/-- The corner offsets of the two triangles of a face. -/
def offsets : List UInt32 := [0, 1, 2, 2, 3, 0]

def drawFace (objectId : UInt32) (transform : Transform α) (packet : Packet α)
    (face : List (Vec3 α) × Vector Nat 4) : Except Text (Packet α) := do
  let base := UInt32.ofNat packet.vertices.length
  let drawn ← face.1.foldlM (drawCorner objectId transform face.2) packet
  return { drawn with indices := drawn.indices ++ offsets.map fun offset => base + offset }

/-- What the loop over the sorted slots carries. -/
structure Progress (α : Type) where
  previous : Text
  packet : Packet α

/-- One round of the loop over the sorted slots. -/
def drawSlot (worldRevision : UInt64) (state : Progress α) (slot : Slot α) :
    Except Text (Progress α) := do
  require (slot.entityUuid != state.previous)
  match slot.entity with
  | none => return { state with previous := slot.entityUuid }
  | some entity =>
      presentable worldRevision entity
      let objectId := UInt32.ofNat state.packet.objects.length + 1
      let object : Object α :=
        ⟨objectId, slot.entityUuid, slot.generation, entity.authoringRevision,
          entity.transform⟩
      let packet := { state.packet with objects := state.packet.objects ++ [object] }
      let drawn ← (faces.zip colors).foldlM (drawFace objectId entity.transform) packet
      return ⟨slot.entityUuid, drawn⟩

/-- What the first loop checks of a slot. -/
def wellFormed (slot : Slot α) : Bool :=
  uuid slot.entityUuid && decide (0 < slot.generation) &&
    !(slot.retired && slot.entity.isSome)

def makePacket (snapshot : Snapshot α) : Except Text (Packet α) := do
  require (decide (1 ≤ snapshot.formatVersion) && decide (snapshot.formatVersion ≤ 3) &&
    identifier snapshot.worldId)
  require (decide (0 < snapshot.maxSlots) && decide (snapshot.maxSlots ≤ 1024) &&
    decide (snapshot.slots.length ≤ snapshot.maxSlots.toNat))
  snapshot.slots.forM fun slot => require (wellFormed slot)
  let packet : Packet α :=
    ⟨snapshot.worldId, snapshot.worldRevision, Camera.default, [], [], []⟩
  let drawn ← (Keyed.arrange Slot.entityUuid snapshot.slots).foldlM
    (drawSlot snapshot.worldRevision) ⟨[], packet⟩
  return drawn.packet

end Scalars

end Omniweft.Presentation
