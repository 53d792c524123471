import Omniweft.Python
import Omniweft.Transactions

/-!
# The models of the SDK

The immutable records of `models.py`. A handle or a transform that fails its own
check cannot be built; the other records are what `from_dict` returns.
-/

namespace Omniweft.Sdk

open Outcome Python

variable {α : Type}

structure EntityHandle where
  worldId : Text
  entityUuid : Text
  generation : Int
  named : worldId ≠ [] ∧ characters worldId ≤ 64
  identified : uuidPattern entityUuid = true
  counted : 1 ≤ generation ∧ generation ≤ uint64Max
  deriving DecidableEq

def finiteTransform [Scalar α] (value : World.Transform α) : Bool :=
  (value.positionM.toList ++ value.rotationXyzw.toList ++ value.scale.toList).all
    Scalar.isFinite

structure Transform (α : Type) [Scalar α] where
  value : World.Transform α
  finite : finiteTransform value = true

/-- The constructor of `Transform` on numbers that are floats already. -/
def makeTransform [Scalar α] (value : World.Transform α) : Except Raised (Transform α) :=
  if finite : finiteTransform value = true then .ok ⟨value, finite⟩ else .error .protocol

def floats (values : List α) : Value α :=
  .list (values.map .float)

def handleDict (handle : EntityHandle) : Value α :=
  .dict
    [(ascii "world_id", .str handle.worldId), (ascii "entity_uuid", .str handle.entityUuid),
      (ascii "generation", .integer handle.generation)]

def transformEntries (value : World.Transform α) : Entries α :=
  [(ascii "position_m", floats value.positionM.toList),
    (ascii "rotation_xyzw", floats value.rotationXyzw.toList),
    (ascii "scale", floats value.scale.toList)]

inductive Target where
  | entity (handle : EntityHandle)
  | temporary (temporaryId : Text)
  deriving DecidableEq

inductive Operation (α : Type) [Scalar α] where
  | createCube (temporaryId : Text)
  | setTransform (target : Target) (transform : Transform α)
  | deleteEntity (target : EntityHandle)

def targetDict : Target → Except Raised (Value α)
  | .entity handle => .ok (handleDict handle)
  | .temporary temporaryId => do
      let temporaryId ← text (.str temporaryId : Value α) 64
      pure (.dict [(ascii "temporary_id", .str temporaryId)])

/-- `to_dict` of the three operations. -/
def operationDict [Scalar α] : Operation α → Except Raised (Value α)
  | .createCube temporaryId => do
      let temporaryId ← text (.str temporaryId : Value α) 64
      pure (.dict
        [(ascii "type", .str (ascii "entity.create")),
          (ascii "temporary_id", .str temporaryId),
          (ascii "prefab", .str (ascii "builtin.unit_cube"))])
  | .setTransform target transform => do
      let target ← targetDict target
      pure (.dict
        ((ascii "type", .str (ascii "transform.set")) :: (ascii "target", target) ::
          transformEntries transform.value))
  | .deleteEntity target =>
      .ok (.dict
        [(ascii "type", .str (ascii "entity.delete")), (ascii "target", handleDict target),
          (ascii "child_policy", .str (ascii "reject_if_children"))])

structure Entity (α : Type) where
  prefabId : Text
  authoringRevision : Int
  transform : World.Transform α
  deriving DecidableEq

structure Slot (α : Type) where
  entityUuid : Text
  generation : Int
  retired : Bool
  entity : Option (Entity α)
  deriving DecidableEq

structure Snapshot (α : Type) where
  formatVersion : Int
  worldId : Text
  seed : Int
  maxSlots : Int
  worldRevision : Int
  slots : List (Slot α)
  deriving DecidableEq

section Reading

variable [Scalar α]

def vector3 (python : Interpreter α) : Value α → Except Raised (Vec3 α)
  | .list [x, y, z] => do
      pure ⟨← number python x, ← number python y, ← number python z⟩
  | _ => .error .protocol

def vector4 (python : Interpreter α) : Value α → Except Raised (Quat α)
  | .list [x, y, z, w] => do
      pure ⟨← number python x, ← number python y, ← number python z, ← number python w⟩
  | _ => .error .protocol

def readTransform (python : Interpreter α) (value : Value α) :
    Except Raised (World.Transform α) := do
  let entries ← fields value ["position_m", "rotation_xyzw", "scale"]
  pure
    { positionM := ← vector3 python (get entries "position_m")
      rotationXyzw := ← vector4 python (get entries "rotation_xyzw")
      scale := ← vector3 python (get entries "scale") }

def readEntity (python : Interpreter α) (value : Value α) : Except Raised (Entity α) := do
  let entries ← fields value ["prefab", "authoring_revision", "transform"]
  pure
    { prefabId := ← text (get entries "prefab") 256
      authoringRevision := ← integer (get entries "authoring_revision") 0 uint64Max
      transform := ← readTransform python (get entries "transform") }

def boolean (value : Value α) : Except Raised Bool :=
  match value with
  | .boolean flag => .ok flag
  | _ => .error .protocol

def readSlot (python : Interpreter α) (value : Value α) : Except Raised (Slot α) := do
  let entries ← fields value ["entity_uuid", "generation", "retired", "entity"]
  let retired ← boolean (get entries "retired")
  let entity ←
    match get entries "entity" with
    | .none => pure none
    | other => some <$> readEntity python other
  rejectIf (retired && entity.isSome) .protocol
  pure
    { entityUuid := ← uuid (get entries "entity_uuid")
      generation := ← integer (get entries "generation") 1 uint64Max
      retired := retired
      entity := entity }

def items (value : Value α) : Except Raised (List (Value α)) :=
  match value with
  | .list items => .ok items
  | _ => .error .protocol

def readSnapshot (python : Interpreter α) (value : Value α) :
    Except Raised (Snapshot α) := do
  let entries ← fields value
    ["format_version", "world_id", "seed", "max_slots", "world_revision", "slots"]
  let _ ← integer (get entries "format_version") 1 1
  let count ← integer (get entries "max_slots") 1 1024
  let raw ← items (get entries "slots")
  rejectIf (decide (count < raw.length)) .protocol
  let slots ← raw.mapM (readSlot python)
  rejectIf (decide (¬ (slots.map Slot.entityUuid).Nodup)) .protocol
  let revision ← integer (get entries "world_revision") 0 uint64Max
  rejectIf
    (slots.any fun slot => slot.entity.any fun entity =>
      decide (revision < entity.authoringRevision))
    .protocol
  pure
    { formatVersion := 1
      worldId := ← text (get entries "world_id") 64
      seed := ← integer (get entries "seed") 0 4294967295
      maxSlots := count
      worldRevision := revision
      slots := slots }

end Reading

structure CreatedBinding where
  temporaryId : Text
  worldId : Text
  entityUuid : Text
  generation : Int
  deriving DecidableEq

structure ReceiptError where
  code : Text
  path : Text
  message : Text
  operationIndex : Option Int
  deriving DecidableEq

inductive Status where
  | committed
  | rejected
  deriving DecidableEq, Repr

/-- A receipt; `durability` is always "volatile". -/
structure Receipt where
  status : Status
  transactionId : Text
  worldRevision : Int
  created : List CreatedBinding
  errors : List ReceiptError
  deriving DecidableEq

def upper (character : UInt8) : Bool := 65 ≤ character && character ≤ 90
def lower (character : UInt8) : Bool := 97 ≤ character && character ≤ 122
def digit (character : UInt8) : Bool := 48 ≤ character && character ≤ 57

/-- The pattern of an error code. -/
def codePattern : Text → Bool
  | [] => false
  | first :: rest =>
      upper first && decide (rest.length ≤ 63) &&
        rest.all fun character => upper character || digit character || character == 95

/-- The automaton of the pattern of an error path: before a separator, after one, in
a name, in an index. -/
inductive PathState where
  | between
  | opened
  | name
  | index
  deriving DecidableEq, Repr

def pathStep : PathState → UInt8 → Option PathState
  | .between, character => if character = 47 then some .opened else none
  | .opened, character =>
      if lower character || character == 95 then some .name
      else if digit character then some .index else none
  | .name, character =>
      if character = 47 then some .opened
      else if lower character || character == 95 || digit character then some .name
      else none
  | .index, character =>
      if character = 47 then some .opened
      else if digit character then some .index else none

def pathPattern (path : Text) : Bool :=
  match path.foldlM pathStep .between with
  | some .opened => false
  | some _ => true
  | none => false

def readBinding (value : Value α) : Except Raised CreatedBinding := do
  let entries ← fields value ["temporary_id", "world_id", "entity_uuid", "generation"]
  pure
    { temporaryId := ← text (get entries "temporary_id") 64
      worldId := ← text (get entries "world_id") 64
      entityUuid := ← uuid (get entries "entity_uuid")
      generation := ← integer (get entries "generation") 1 uint64Max }

def patterned (value : Value α) (pattern : Text → Bool) : Except Raised Text :=
  match value with
  | .str text => if pattern text then .ok text else .error .protocol
  | _ => .error .protocol

def hasKey (value : Value α) (name : String) : Bool :=
  match value with
  | .dict entries => (entries.map Prod.fst).contains (ascii name)
  | _ => false

def readError (value : Value α) : Except Raised ReceiptError := do
  let indexed := hasKey value "operation_index"
  let entries ← fields value
    (["code", "path", "message"] ++ if indexed then ["operation_index"] else [])
  let code ← patterned (get entries "code") codePattern
  let path ← patterned (get entries "path") fun path =>
    decide (characters path ≤ 256) && pathPattern path
  let index ←
    if indexed then some <$> integer (get entries "operation_index") 0 255 else pure none
  let code ← text (.str code : Value α) 64
  pure
    { code := code
      path := path
      message := ← text (get entries "message") 1024
      operationIndex := index }

def readStatus (value : Value α) : Except Raised Status :=
  if isLiteral value "committed" then .ok .committed
  else if isLiteral value "rejected" then .ok .rejected
  else .error .protocol

def readReceipt (value : Value α) : Except Raised Receipt := do
  let entries ← fields value
    ["status", "durability", "transaction_id", "world_revision", "created", "errors"]
  let status ← readStatus (get entries "status")
  rejectIf (!isLiteral (get entries "durability") "volatile") .protocol
  let rawCreated ← items (get entries "created")
  let rawErrors ← items (get entries "errors")
  rejectIf (decide (256 < rawCreated.length) || decide (256 < rawErrors.length)) .protocol
  let created ← rawCreated.mapM readBinding
  let errors ← rawErrors.mapM readError
  rejectIf
    (match status with
      | .committed => !errors.isEmpty
      | .rejected => !created.isEmpty || errors.isEmpty)
    .protocol
  pure
    { status := status
      transactionId := ← uuid (get entries "transaction_id")
      worldRevision := ← integer (get entries "world_revision") 0 uint64Max
      created := created
      errors := errors }

end Omniweft.Sdk
