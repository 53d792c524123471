import Omniweft.Scalar
import Omniweft.Text

/-!
# The authored world

The snapshot of a world: slots that keep their uuid for ever, a generation
counter per slot, and an optional entity. `canonicalBytes` is the diagnostic
encoding that checkpoints and replays compare.
-/

namespace Omniweft

structure Vec3 (α : Type) where
  x : α
  y : α
  z : α
  deriving DecidableEq, Repr

structure Quat (α : Type) where
  x : α
  y : α
  z : α
  w : α
  deriving DecidableEq, Repr

namespace Vec3

variable {α β : Type}

def toList (v : Vec3 α) : List α := [v.x, v.y, v.z]

def map (f : α → β) (v : Vec3 α) : Vec3 β := ⟨f v.x, f v.y, f v.z⟩

end Vec3

namespace Quat

variable {α β : Type}

def toList (q : Quat α) : List α := [q.x, q.y, q.z, q.w]

def map (f : α → β) (q : Quat α) : Quat β := ⟨f q.x, f q.y, f q.z, f q.w⟩

end Quat

namespace World

structure Transform (α : Type) where
  positionM : Vec3 α
  rotationXyzw : Quat α
  scale : Vec3 α
  deriving DecidableEq, Repr

/-- The value `Transform{}` has: no translation, no rotation, unit scale. -/
def Transform.default {α : Type} [Scalar α] : Transform α where
  positionM := ⟨Scalar.ofInt 0, Scalar.ofInt 0, Scalar.ofInt 0⟩
  rotationXyzw := ⟨Scalar.ofInt 0, Scalar.ofInt 0, Scalar.ofInt 0, Scalar.ofInt 1⟩
  scale := ⟨Scalar.ofInt 1, Scalar.ofInt 1, Scalar.ofInt 1⟩

structure ParentIdentity where
  entityUuid : Text
  generation : UInt64
  deriving DecidableEq, Repr

/-- `transform` is the cached world-space value; `localTransform` is authored
and meaningful only while `parent` is present. -/
structure Entity (α : Type) where
  prefabId : Text
  authoringRevision : UInt64
  transform : Transform α
  parent : Option ParentIdentity
  localTransform : Transform α
  tags : List Text
  deriving DecidableEq, Repr

structure Slot (α : Type) where
  entityUuid : Text
  generation : UInt64
  retired : Bool
  entity : Option (Entity α)
  deriving DecidableEq, Repr

structure Snapshot (α : Type) where
  formatVersion : UInt32
  worldId : Text
  seed : UInt32
  maxSlots : UInt32
  worldRevision : UInt64
  slots : List (Slot α)
  deriving DecidableEq, Repr

variable {α : Type}

/-- `text`: a 32-bit length and the bytes. -/
def textBytes (value : Text) : Bytes :=
  littleEndian value.length 4 ++ value

/-- `numbers`: bit patterns, with both zeros written as the positive one. -/
def numbers [Scalar α] (values : List α) : Bytes :=
  values.flatMap fun value =>
    littleEndian (Scalar.bits (Scalar.normalizeZero value)).toNat 8

def transformBytes [Scalar α] (value : Transform α) : Bytes :=
  numbers value.positionM.toList ++ numbers value.rotationXyzw.toList ++
    numbers value.scale.toList

/-- The part of an entity written from format 2 on. -/
def parentBytes [Scalar α] (entity : Entity α) : Bytes :=
  match entity.parent with
  | none => [0]
  | some parent =>
      1 :: parent.entityUuid ++ littleEndian parent.generation.toNat 8 ++
        transformBytes entity.localTransform

def tagBytes (tags : List Text) : Bytes :=
  littleEndian tags.length 4 ++ tags.flatMap textBytes

def entityBytes [Scalar α] (formatVersion : UInt32) (entity : Entity α) : Bytes :=
  textBytes entity.prefabId ++
    littleEndian entity.authoringRevision.toNat 8 ++
    transformBytes entity.transform ++
    (if 2 ≤ formatVersion then parentBytes entity else []) ++
    (if formatVersion = 3 then tagBytes entity.tags else [])

def slotBytes [Scalar α] (formatVersion : UInt32) (slot : Slot α) : Bytes :=
  slot.entityUuid ++ littleEndian slot.generation.toNat 8 ++
    [if slot.retired then 1 else 0] ++
    match slot.entity with
    | none => [0]
    | some entity => 1 :: entityBytes formatVersion entity

def formatMagic (formatVersion : UInt32) : Bytes :=
  if formatVersion = 3 then ascii "OWOBJ003"
  else if formatVersion = 2 then ascii "OWOBJ002"
  else ascii "OWOBJ001"

/-- `canonical_bytes`: slots are written in their fixed uuid order. -/
def canonicalBytes [Scalar α] (state : Snapshot α) : Bytes :=
  formatMagic state.formatVersion ++ textBytes state.worldId ++
    littleEndian state.seed.toNat 4 ++ littleEndian state.maxSlots.toNat 4 ++
    littleEndian state.worldRevision.toNat 8 ++
    littleEndian state.slots.length 4 ++
    state.slots.flatMap (slotBytes state.formatVersion)

theorem canonicalBytes_ne_nil [Scalar α] (state : Snapshot α) :
    canonicalBytes state ≠ [] := by
  have magicLength : (formatMagic state.formatVersion).length = 8 := by
    unfold formatMagic
    split
    · rfl
    · split <;> rfl
  intro empty
  have total := congrArg List.length empty
  simp [canonicalBytes, magicLength] at total

/-- `World::World`: the identifier and the slot budget are checked, and the
world starts empty at revision zero. The error is the exception's text. -/
def create (worldId : Text) (seed maxSlots : UInt32) : Except Text (Snapshot α) :=
  if !validIdentifier 128 worldId then
    .error (ascii "World ID must match the bounded ASCII identifier contract.")
  else if maxSlots = 0 ∨ 1024 < maxSlots then
    .error (ascii "World max_slots must be from 1 through 1024.")
  else
    .ok
      { formatVersion := 1
        worldId := worldId
        seed := seed
        maxSlots := maxSlots
        worldRevision := 0
        slots := [] }

/-- What a successful construction says about the new world. -/
theorem create_eq_ok
    {worldId : Text} {seed maxSlots : UInt32} {fresh : Snapshot α} :
    create worldId seed maxSlots = .ok fresh ↔
      validIdentifier 128 worldId = true ∧ maxSlots ≠ 0 ∧ maxSlots ≤ 1024 ∧
        fresh = ⟨1, worldId, seed, maxSlots, 0, []⟩ := by
  unfold create
  by_cases valid : validIdentifier 128 worldId
  · by_cases bounded : maxSlots = 0 ∨ 1024 < maxSlots
    · simp only [valid, Bool.not_true, Bool.false_eq_true, if_false, bounded,
        if_true, reduceCtorEq, true_and, false_iff]
      rintro ⟨positive, small, _⟩
      rcases bounded with zero | large
      · exact positive zero
      · exact absurd small (UInt32.not_le.mpr large)
    · have parts := not_or.mp bounded
      simp only [valid, Bool.not_true, Bool.false_eq_true, if_false, bounded,
        Except.ok.injEq, true_and]
      constructor
      · intro same
        exact ⟨parts.1, UInt32.not_lt.mp parts.2, same.symm⟩
      · rintro ⟨_, _, same⟩
        exact same.symm
  · simp [valid]

end World

/-- A live world object: its state and its identity in memory, which the
policy ledger compares. -/
structure LiveWorld (α : Type) where
  address : Nat
  state : World.Snapshot α
  deriving DecidableEq, Repr

end Omniweft
