import Omniweft.Commands

/-!
# Transactions

`Coordinator::apply` stages a batch on a copy of the world, lets an optional
policy hook watch every operation, and publishes the copy only when the whole
batch succeeded. A replay consumes recorded creation mappings instead of
trusting the allocator.
-/

namespace Omniweft.Transactions

open Outcome World Commands

structure Error where
  code : Text
  path : Text
  message : Text
  operationIndex : Option Nat
  deriving DecidableEq, Repr

structure CreatedBinding where
  temporaryId : Text
  worldId : Text
  entityUuid : Text
  generation : UInt64
  deriving DecidableEq, Repr

structure Receipt where
  status : Text
  durability : Text
  transactionId : Text
  worldRevision : UInt64
  created : List CreatedBinding
  errors : List Error
  deriving DecidableEq, Repr

/-- What a hook or a step can throw: the boundary's own `Error`, a coded
`persistence::Failure`, or any other exception. -/
inductive Thrown where
  | error (error : Error)
  | failure (code : Text)
  | other
  deriving DecidableEq, Repr

/-- A policy hook with private state `σ`. It can reject; it cannot write the
world. -/
structure StagingGuard (α σ : Type) where
  begin : LiveWorld α → Envelope α → EStateM Thrown σ Unit
  create : Nat → Nat → EStateM Thrown σ Unit
  transform : Nat → Transform α → Transform α → Nat → EStateM Thrown σ Unit
  erase : Nat → Transform α → Nat → EStateM Thrown σ Unit
  finish : Snapshot α → EStateM Thrown σ Unit
  commit : σ → σ

/-- An owner hook: `prepare` may reject before publication, `publish` cannot
fail. -/
structure CommitObserver (α τ : Type) where
  prepare : Snapshot α → Receipt → EStateM Thrown τ Unit
  publish : τ → τ

section Staging

variable {α σ : Type} [Scalar α]

def maximum64 : UInt64 := 18446744073709551615

def failure (code : String) (path : Text) (message : String)
    (index : Option Nat) : Error :=
  ⟨ascii code, path, ascii message, index⟩

/-- `schema_error`: a codec error, with the operation index its path names. -/
def schemaError (source : ValidationError) : Error :=
  let pointer := ascii "/operations/"
  let suffix := source.path.drop pointer.length
  let digits := suffix.takeWhile fun character => 48 ≤ character && character ≤ 57
  let value : Nat :=
    digits.foldl (fun total digit => total * 10 + (digit.toNat - 48)) 0
  let separated :=
    match suffix.drop digits.length with
    | [] => true
    | character :: _ => character == 47
  let named :=
    source.path.take pointer.length == pointer && !digits.isEmpty &&
      decide (value < 2 ^ 64) && separated
  ⟨source.code, source.path, source.message, if named then some value else none⟩

def uuid (seed : UInt32) (index : Nat) : Text :=
  hex seed.toNat 8 ++ ascii "-0000-4000-8000-" ++ hex (index + 1) 12

def squaredNorm (q : Quat α) : α :=
  q.toList.foldl (fun total value => total + value * value) (Scalar.ofInt 0)

def normalizeTransform (value : Transform α) : Transform α where
  positionM := value.positionM.map Scalar.normalizeZero
  rotationXyzw := value.rotationXyzw.map Scalar.normalizeZero
  scale := value.scale.map Scalar.normalizeZero

/-- `transform`: the checked replacement a transform operation carries. -/
def transform (operation : TransformSet α) (path : Text) (index : Nat) :
    Except Error (Transform α) := do
  let norm := squaredNorm operation.rotationXyzw
  rejectIf
    (!Scalar.isFinite norm ||
      Scalar.lt Scalar.tolerance (Scalar.abs (norm - Scalar.ofInt 1)))
    (failure "INVALID_SCHEMA" (path ++ ascii "/rotation_xyzw")
      "Quaternion squared norm must be within 1e-12 of one." index)
  rejectIf (operation.scale.toList.any fun value => Scalar.eq value (Scalar.ofInt 0))
    (failure "INVALID_SCHEMA" (path ++ ascii "/scale")
      "Scale components must be nonzero." index)
  pure <| normalizeTransform
    ⟨operation.positionM, operation.rotationXyzw, operation.scale⟩

abbrev Names := List (Text × EntityTarget)

/-- `find_if` over the slots: the first match with its position. -/
def locate (slots : List (Slot α)) (test : Slot α → Bool) :
    Option (Nat × Slot α) :=
  match slots.findIdx? test with
  | none => none
  | some position => slots[position]?.map fun slot => (position, slot)

/-- The slot a position names and the entity it holds. -/
def liveAt (state : Snapshot α) (position : Nat) : Option (Slot α × Entity α) :=
  match state.slots[position]? with
  | none => none
  | some slot => slot.entity.map fun entity => (slot, entity)

def setSlot (state : Snapshot α) (position : Nat) (slot : Slot α) : Snapshot α :=
  { state with slots := state.slots.set position slot }

def setEntity (state : Snapshot α) (position : Nat) (entity : Entity α) :
    Snapshot α :=
  { state with
    slots := state.slots.modify position fun slot =>
      { slot with entity := some entity } }

/-- The identity a target stands for, and whether a temporary name gave it. -/
def identify (target : Target) (names : Names) (path : Text) (index : Nat) :
    Except Error (EntityTarget × Bool) :=
  match target with
  | .temporary reference =>
      match names.lookup reference.temporaryId with
      | some identity => .ok (identity, true)
      | none =>
          .error (failure "NOT_FOUND" (path ++ ascii "/temporary_id")
            "Temporary target must reference an earlier create in this batch." index)
  | .entity identity => .ok (identity, false)

/-- The live slot an identity names in this world. -/
def resolveIdentity (staged : Snapshot α) (identity : EntityTarget)
    (temporary : Bool) (path : Text) (index : Nat) :
    Except Error (Nat × Slot α × Entity α) := do
  rejectIf (identity.worldId != staged.worldId)
    (failure "NOT_FOUND" (path ++ ascii "/world_id")
      "Target world is not this world." index)
  match locate staged.slots fun slot => slot.entityUuid == identity.entityUuid with
  | none =>
      .error (failure "NOT_FOUND" (path ++ ascii "/entity_uuid")
        "Entity UUID is not known in this world." index)
  | some (position, slot) =>
      let stalePath :=
        path ++ if temporary then ascii "/temporary_id" else ascii "/generation"
      match slot.entity with
      | none =>
          .error (failure "STALE_HANDLE" stalePath
            "Entity handle is deleted, retired or has a stale generation." index)
      | some entity => do
          rejectIf (slot.retired || slot.generation != identity.generation)
            (failure "STALE_HANDLE" stalePath
              "Entity handle is deleted, retired or has a stale generation." index)
          pure (position, slot, entity)

/-- `resolve`: the position and entity a target names. -/
def resolve (staged : Snapshot α) (target : Target) (names : Names)
    (path : Text) (index : Nat) : Except Error (Nat × Slot α × Entity α) := do
  let (identity, temporary) ← identify target names path index
  resolveIdentity staged identity temporary path index

/-! ## Hierarchy -/

/-- `child_of`: the child's link names the parent's uuid and generation. -/
def childOf (child parent : Slot α) : Bool :=
  match child.entity with
  | none => false
  | some entity =>
      match entity.parent with
      | none => false
      | some link =>
          link.entityUuid == parent.entityUuid &&
            link.generation == parent.generation

def hasChildren (state : Snapshot α) (parent : Slot α) : Bool :=
  state.slots.any fun child => childOf child parent

/-- `parent_of`: nothing for a root; a link that names no live slot fails. -/
def parentOf (state : Snapshot α) (child : Slot α) :
    Except Error (Option (Nat × Slot α × Entity α)) :=
  match child.entity.bind Entity.parent with
  | none => .ok none
  | some _ =>
      match
        locate state.slots fun parent =>
          parent.entity.isSome && !parent.retired && childOf child parent with
      | some (position, slot) =>
          .ok (slot.entity.map fun entity => (position, slot, entity))
      | none =>
          .error (failure "STALE_HANDLE" (ascii "/parent")
            "Parent generation is no longer live." none)

/-- A scale under which children can stand: positive and uniform. -/
def uniformScale (value : Transform α) : Bool :=
  Scalar.lt (Scalar.ofInt 0) value.scale.x &&
    Scalar.eq value.scale.x value.scale.y && Scalar.eq value.scale.x value.scale.z

def parentScale (value : Transform α) (path : Text) (index : Nat) :
    Except Error Unit :=
  rejectIf (!uniformScale value)
    (failure "INVALID_SCHEMA" path
      "Parents require positive uniform world scale." index)

/-- `unit`: a quaternion divided by its length. -/
def unit (q : Quat α) : Quat α :=
  let length := Scalar.sqrt (squaredNorm q)
  q.map fun value => value / length

def product (a b : Quat α) : Quat α :=
  unit
    { x := a.w * b.x + a.x * b.w + a.y * b.z - a.z * b.y
      y := a.w * b.y - a.x * b.z + a.y * b.w + a.z * b.x
      z := a.w * b.z + a.x * b.y - a.y * b.x + a.z * b.w
      w := a.w * b.w - a.x * b.x - a.y * b.y - a.z * b.z }

def rotate (q : Quat α) (v : Vec3 α) : Vec3 α :=
  let one : α := Scalar.ofInt 1
  let two : α := Scalar.ofInt 2
  { x := (one - two * (q.y * q.y + q.z * q.z)) * v.x +
      two * (q.x * q.y - q.z * q.w) * v.y + two * (q.x * q.z + q.y * q.w) * v.z
    y := two * (q.x * q.y + q.z * q.w) * v.x +
      (one - two * (q.x * q.x + q.z * q.z)) * v.y +
      two * (q.y * q.z - q.x * q.w) * v.z
    z := two * (q.x * q.z - q.y * q.w) * v.x +
      two * (q.y * q.z + q.x * q.w) * v.y +
      (one - two * (q.x * q.x + q.y * q.y)) * v.z }

def finiteTransform (value : Transform α) : Bool :=
  value.positionM.toList.all Scalar.isFinite &&
    value.rotationXyzw.toList.all Scalar.isFinite &&
    value.scale.toList.all Scalar.isFinite

/-- `checked`: a derived transform must be finite with nonzero scale. -/
def checked (value : Transform α) (path : Text) (index : Nat) :
    Except Error (Transform α) := do
  rejectIf
    (!finiteTransform value ||
      value.scale.toList.any fun component => Scalar.eq component (Scalar.ofInt 0))
    (failure "INVALID_SCHEMA" path
      "Derived hierarchy transform must be finite with nonzero scale." index)
  pure (normalizeTransform value)

def compose (parent localTransform : Transform α) (path : Text) (index : Nat) :
    Except Error (Transform α) := do
  parentScale parent path index
  let factor := parent.scale.x
  let displacement := localTransform.positionM.map fun value => value * factor
  let position := rotate (unit parent.rotationXyzw) displacement
  checked
    { positionM :=
        ⟨position.x + parent.positionM.x, position.y + parent.positionM.y,
          position.z + parent.positionM.z⟩
      rotationXyzw :=
        product (unit parent.rotationXyzw) (unit localTransform.rotationXyzw)
      scale := localTransform.scale.map fun value => value * factor }
    path index

def relative (parent value : Transform α) (path : Text) (index : Nat) :
    Except Error (Transform α) := do
  parentScale parent path index
  let factor := parent.scale.x
  let forward := unit parent.rotationXyzw
  let inverse : Quat α := ⟨-forward.x, -forward.y, -forward.z, forward.w⟩
  let displacement : Vec3 α :=
    ⟨value.positionM.x - parent.positionM.x, value.positionM.y - parent.positionM.y,
      value.positionM.z - parent.positionM.z⟩
  checked
    { positionM := (rotate inverse displacement).map fun component => component / factor
      rotationXyzw := product inverse (unit value.rotationXyzw)
      scale := value.scale.map fun component => component / factor }
    path index

/-- The inner loop of `subtree`: every child of one queued slot gets its
world transform and joins the queue. -/
def subtreeChildren (parent : Nat) (path : Text) (index : Nat) :
    List Nat → Snapshot α → List Nat → Except Error (Snapshot α × List Nat)
  | [], state, queue => .ok (state, queue)
  | position :: rest, state, queue =>
      match liveAt state parent, liveAt state position with
      | some (parentSlot, parentEntity), some (childSlot, childEntity) =>
          if childOf childSlot parentSlot then do
            rejectIf (decide (state.slots.length ≤ queue.length))
              (failure "INVALID_SCHEMA" path "Hierarchy must be acyclic." index)
            let world ←
              compose parentEntity.transform childEntity.localTransform path index
            subtreeChildren parent path index rest
              (setEntity state position { childEntity with transform := world })
              (queue ++ [position])
          else
            subtreeChildren parent path index rest state queue
      | _, _ => subtreeChildren parent path index rest state queue

/-- The queue loop of `subtree`. The queue never outgrows the slots, so one
more round than there are slots always reaches its end. -/
def subtreeLoop (revision : UInt64) (path : Text) (index : Nat) :
    Nat → Nat → Snapshot α → List Nat → Except Error (Snapshot α)
  | 0, _, state, _ => .ok state
  | fuel + 1, cursor, state, queue =>
      match queue[cursor]? with
      | none => .ok state
      | some position =>
          match liveAt state position with
          | none => .ok state
          | some (_, entity) => do
              let stamped :=
                setEntity state position { entity with authoringRevision := revision }
              let (state, queue) ←
                subtreeChildren position path index
                  (List.range stamped.slots.length) stamped queue
              subtreeLoop revision path index fuel (cursor + 1) state queue

def subtree (state : Snapshot α) (root : Nat) (revision : UInt64) (path : Text)
    (index : Nat) : Except Error (Snapshot α) :=
  subtreeLoop revision path index (state.slots.length + 1) 0 state [root]

/-- The ancestor walk of `reparent`, with the steps the count still allows. -/
def rejectCycle (state : Snapshot α) (slot : Nat) (path : Text) (index : Nat) :
    Nat → Option (Nat × Slot α × Entity α) → Except Error Unit
  | _, none => .ok ()
  | 0, some _ =>
      .error (failure "INVALID_SCHEMA" (path ++ ascii "/parent")
        "Reparenting must not create a cycle." index)
  | remaining + 1, some (ancestor, ancestorSlot, _) =>
      if ancestor = slot then
        .error (failure "INVALID_SCHEMA" (path ++ ascii "/parent")
          "Reparenting must not create a cycle." index)
      else do
        let next ← parentOf state ancestorSlot
        rejectCycle state slot path index remaining next

/-- `reparent`: attach `slot` under `parent`, or detach it. -/
def reparent (state : Snapshot α) (slot : Nat) (entity : Entity α)
    (parent : Option (Nat × Slot α × Entity α)) (mode path : Text) (index : Nat) :
    Except Error (Snapshot α) := do
  rejectCycle state slot path index state.slots.length parent
  let former :=
    if entity.parent.isSome then entity.localTransform else entity.transform
  match parent with
  | some (_, parentSlot, parentEntity) => do
      parentScale parentEntity.transform (path ++ ascii "/parent") index
      let link : ParentIdentity := ⟨parentSlot.entityUuid, parentSlot.generation⟩
      if mode == ascii "preserve_world" then do
        let localTransform ←
          relative parentEntity.transform entity.transform path index
        pure <| setEntity state slot
          { entity with localTransform := localTransform, parent := some link }
      else do
        let world ← compose parentEntity.transform former path index
        pure <| setEntity state slot
          { entity with
            localTransform := former, transform := world, parent := some link }
  | none =>
      pure <| setEntity state slot
        { entity with
          transform := if mode == ascii "preserve_local" then former
            else entity.transform
          parent := none
          localTransform := Transform.default }

/-! ## Staging one operation -/

/-- The copy a batch works on, with its temporary names and its bindings. -/
structure Staging (α : Type) where
  staged : Snapshot α
  names : Names
  created : List CreatedBinding

/-- Everything one batch fixes for all its operations. -/
structure Context (α σ : Type) where
  guard : Option (StagingGuard α σ)
  bindings : Option (List CreatedBinding)
  revision : UInt64

def Context.notify (context : Context α σ)
    (call : StagingGuard α σ → EStateM Thrown σ Unit) : EStateM Thrown σ Unit :=
  match context.guard with
  | none => pure ()
  | some guard => call guard

def check {β : Type} (computation : Except Error β) : EStateM Thrown σ β :=
  attempt Thrown.error computation

/-- The slot a create takes: the first free one, else a new one. -/
def allocate (staged : Snapshot α) (path : Text) (index : Nat) :
    Except Error (Nat × Slot α × Snapshot α) :=
  match locate staged.slots fun entry => entry.entity.isNone && !entry.retired with
  | some (position, slot) => .ok (position, slot, staged)
  | none => do
      rejectIf (decide (staged.maxSlots.toNat ≤ staged.slots.length))
        (failure "BUDGET_EXCEEDED" path "World slot capacity is exhausted." index)
      let slot : Slot α := ⟨uuid staged.seed staged.slots.length, 1, false, none⟩
      pure (staged.slots.length, slot, { staged with slots := staged.slots ++ [slot] })

/-- A replay demands the recorded mapping of each create, in order. -/
def matchBinding (bindings : Option (List CreatedBinding)) (count : Nat)
    (binding : CreatedBinding) (index : Nat) : Except Error Unit :=
  match bindings with
  | none => .ok ()
  | some recorded =>
      match recorded[count]? with
      | none =>
          .error (failure "INVALID_REPLAY" (ascii "/created")
            "Missing recorded creation mapping." index)
      | some expected =>
          rejectIf (expected != binding)
            (failure "INVALID_REPLAY" (ascii "/created")
              "Recorded creation mapping differs from allocator contract." index)

/-- A replay writes the recorded identity back into the slot. -/
def restore (bindings : Option (List CreatedBinding)) (count : Nat) (slot : Slot α) :
    Slot α :=
  match bindings.bind fun recorded => recorded[count]? with
  | none => slot
  | some binding =>
      { slot with entityUuid := binding.entityUuid, generation := binding.generation }

def applyCreate (context : Context α σ) (operation : EntityCreate) (index : Nat)
    (staging : Staging α) : EStateM Thrown σ (Staging α) := do
  let path := operationPath index
  check <| rejectIf (staging.names.lookup operation.temporaryId).isSome
    (failure "INVALID_SCHEMA" (path ++ ascii "/temporary_id")
      "Temporary names must be unique throughout the batch." index)
  check <| rejectIf (operation.prefabId != ascii "builtin.unit_cube")
    (failure "NOT_FOUND" (path ++ ascii "/prefab")
      "Only the builtin.unit_cube prefab is executable." index)
  let (position, taken, staged) ← check (allocate staging.staged path index)
  context.notify fun guard => guard.create position index
  check (matchBinding context.bindings staging.created.length
    ⟨operation.temporaryId, staged.worldId, taken.entityUuid, taken.generation⟩ index)
  let slot := restore context.bindings staging.created.length taken
  let entity : Entity α :=
    ⟨operation.prefabId, context.revision, Transform.default, none,
      Transform.default, []⟩
  pure
    { staged := setSlot staged position { slot with entity := some entity }
      names := (operation.temporaryId,
        ⟨staged.worldId, slot.entityUuid, slot.generation⟩) :: staging.names
      created := staging.created ++
        [⟨operation.temporaryId, staged.worldId, slot.entityUuid, slot.generation⟩] }

def applyTransform (context : Context α σ) (operation : TransformSet α)
    (index : Nat) (staging : Staging α) : EStateM Thrown σ (Staging α) := do
  let path := operationPath index
  let replacement ← check (transform operation path index)
  let (position, slot, entity) ←
    check (resolve staging.staged operation.target staging.names
      (path ++ ascii "/target") index)
  context.notify fun guard =>
    guard.transform position entity.transform replacement index
  check <|
    if hasChildren staging.staged slot then
      parentScale replacement (path ++ ascii "/scale") index
    else .ok ()
  let parent ← check (parentOf staging.staged slot)
  let localTransform ← check <|
    match parent with
    | some (_, _, parentEntity) =>
        relative parentEntity.transform replacement path index
    | none => .ok entity.localTransform
  let replaced :=
    setEntity staging.staged position
      { entity with transform := replacement, localTransform := localTransform }
  let staged ← check (subtree replaced position context.revision path index)
  pure { staging with staged := staged }

def applyTagsSet (context : Context α σ) (operation : EntityTagsSet) (index : Nat)
    (staging : Staging α) : EStateM Thrown σ (Staging α) := do
  let path := operationPath index
  let (position, _, entity) ←
    check (resolve staging.staged operation.target staging.names
      (path ++ ascii "/target") index)
  let tagged :=
    { entity with
      tags := sortTexts operation.tags, authoringRevision := context.revision }
  pure { staging with staged := setEntity staging.staged position tagged }

/-- The new parent a reparent operation names, if it names one. -/
def resolveParent (staged : Snapshot α) (operation : EntityReparent) (names : Names)
    (index : Nat) : Except Error (Option (Nat × Slot α × Entity α)) :=
  match operation.parent with
  | none => .ok none
  | some target =>
      some <$> resolve staged target names (operationPath index ++ ascii "/parent") index

def applyReparent (context : Context α σ) (operation : EntityReparent)
    (index : Nat) (staging : Staging α) : EStateM Thrown σ (Staging α) := do
  let path := operationPath index
  let (position, _, entity) ←
    check (resolve staging.staged operation.target staging.names
      (path ++ ascii "/target") index)
  let parent ← check (resolveParent staging.staged operation staging.names index)
  let moved ←
    check (reparent staging.staged position entity parent operation.mode path index)
  let staged ← check (subtree moved position context.revision path index)
  pure { staging with staged := staged }

def applyDelete (context : Context α σ) (operation : EntityDelete) (index : Nat)
    (staging : Staging α) : EStateM Thrown σ (Staging α) := do
  let path := operationPath index
  let (position, slot, entity) ←
    check (resolve staging.staged operation.target staging.names
      (path ++ ascii "/target") index)
  check <| rejectIf (hasChildren staging.staged slot)
    (failure "INVALID_SCHEMA" (path ++ ascii "/child_policy")
      "Detach or delete children before deleting their parent." index)
  context.notify fun guard => guard.erase position entity.transform index
  let emptied :=
    if slot.generation = maximum64 then
      { slot with entity := none, retired := true }
    else
      { slot with entity := none, generation := slot.generation + 1 }
  pure { staging with staged := setSlot staging.staged position emptied }

def applyOperation (context : Context α σ) (operation : Operation α)
    (index : Nat) (staging : Staging α) : EStateM Thrown σ (Staging α) :=
  match operation with
  | .entityCreate operation => applyCreate context operation index staging
  | .transformSet operation => applyTransform context operation index staging
  | .entityTagsSet operation => applyTagsSet context operation index staging
  | .entityReparent operation => applyReparent context operation index staging
  | .entityDelete operation => applyDelete context operation index staging

def applyOperations (context : Context α σ) :
    List (Operation α) → Nat → Staging α → EStateM Thrown σ (Staging α)
  | [], _, staging => pure staging
  | operation :: rest, index, staging => do
      let next ← applyOperation context operation index staging
      applyOperations context rest (index + 1) next

/-! ## The whole batch -/

def slotHasParent (slot : Slot α) : Bool :=
  slot.entity.any fun entity => entity.parent.isSome

def slotHasTags (slot : Slot α) : Bool :=
  slot.entity.any fun entity => !entity.tags.isEmpty

/-- The snapshot format the staged content needs. -/
def stagedFormat (slots : List (Slot α)) : UInt32 :=
  if slots.any slotHasTags then 3
  else if slots.any slotHasParent then 2
  else 1

/-- The `try` block of `apply`: every operation, the format, the leftover
mapping check and the hook's last word. -/
def stage (context : Context α σ) (state : Snapshot α)
    (operations : List (Operation α)) :
    EStateM Thrown σ (Snapshot α × List CreatedBinding) := do
  let final ← applyOperations context operations 0 ⟨state, [], []⟩
  let staged :=
    { final.staged with formatVersion := stagedFormat final.staged.slots }
  check <|
    match context.bindings with
    | none => .ok ()
    | some recorded =>
        rejectIf (final.created.length != recorded.length)
          (failure "INVALID_REPLAY" (ascii "/created")
            "Extra recorded creation mapping." none)
  context.notify fun guard => guard.finish staged
  pure (staged, final.created)

end Staging

/-! ## The coordinator -/

section Coordinator

variable {α σ τ : Type} [Scalar α]

/-- What one boundary call leaves behind: its receipt or the exception that
passed through it, and the stores it may have changed. -/
structure Applied (α σ τ : Type) where
  result : Except Thrown Receipt
  world : LiveWorld α
  guard : σ
  observer : τ

/-- The receipt every path starts from: rejected, at the old revision. A hook
keeps an unbounded transaction id out of it. -/
def initialReceipt (guarded : Bool) (envelope : Envelope α) (revision : UInt64) :
    Receipt where
  status := ascii "rejected"
  durability := ascii "volatile"
  transactionId :=
    if !guarded || decide (envelope.transactionId.length ≤ 128) then
      envelope.transactionId
    else []
  worldRevision := revision
  created := []
  errors := []

/-- The checks between the hook's admission and the staged copy. -/
def admission (library : JsonLibrary α) (state : Snapshot α)
    (envelope : Envelope α) : Except (List Error) Unit := do
  let _ ← (serialize library envelope).mapError fun errors => errors.map schemaError
  rejectIf (envelope.worldId != state.worldId)
    [failure "NOT_FOUND" (ascii "/world_id") "Envelope world is not this world." none]
  rejectIf (envelope.expectedWorldRevision != state.worldRevision)
    [failure "REVISION_CONFLICT" (ascii "/expected_world_revision")
      "Expected authoring revision is stale." none]
  rejectIf (state.worldRevision == maximum64)
    [failure "BUDGET_EXCEEDED" (ascii "/expected_world_revision")
      "World revision is exhausted." none]

/-- The state that is swapped in. -/
def published (staged : Snapshot α) (revision : UInt64) : Snapshot α :=
  { staged with worldRevision := revision }

def committedReceipt (receipt : Receipt) (revision : UInt64)
    (created : List CreatedBinding) : Receipt :=
  { receipt with
    status := ascii "committed", worldRevision := revision, created := created }

def prepare (observer : Option (CommitObserver α τ)) (staged : Snapshot α)
    (receipt : Receipt) : EStateM Thrown τ Unit :=
  match observer with
  | none => pure ()
  | some observer => observer.prepare staged receipt

/-- Leave with the world as it was: an `Error` becomes the receipt's, anything
else passes through. -/
def refuse (receipt : Receipt) (world : LiveWorld α) (thrown : Thrown)
    (guardState : σ) (observerState : τ) : Applied α σ τ where
  result :=
    match thrown with
    | .error error => .ok { receipt with errors := [error] }
    | thrown => .error thrown
  world := world
  guard := guardState
  observer := observerState

/-- `Coordinator::apply`. -/
def apply (library : JsonLibrary α) (world : LiveWorld α) (envelope : Envelope α)
    (guard : Option (StagingGuard α σ)) (observer : Option (CommitObserver α τ))
    (bindings : Option (List CreatedBinding)) (guardState : σ) (observerState : τ) :
    Applied α σ τ :=
  let receipt := initialReceipt guard.isSome envelope world.state.worldRevision
  let revision := world.state.worldRevision + 1
  let context : Context α σ := ⟨guard, bindings, revision⟩
  match context.notify (fun guard => guard.begin world envelope) guardState with
  | .error thrown guardState => refuse receipt world thrown guardState observerState
  | .ok () guardState =>
  match admission library world.state envelope with
  | .error errors =>
      ⟨.ok { receipt with errors := errors }, world, guardState, observerState⟩
  | .ok () =>
  match stage context world.state envelope.operations guardState with
  | .error thrown guardState => refuse receipt world thrown guardState observerState
  | .ok (staged, created) guardState =>
  let committed := committedReceipt receipt revision created
  match prepare observer (published staged revision) committed observerState with
  | .error thrown observerState =>
      refuse receipt world thrown guardState observerState
  | .ok () observerState =>
      { result := .ok committed
        world := { world with state := published staged revision }
        guard := guard.elim guardState fun guard => guard.commit guardState
        observer := observer.elim observerState fun observer =>
          observer.publish observerState }

def applyAtBoundary (library : JsonLibrary α) (world : LiveWorld α)
    (envelope : Envelope α) (guard : Option (StagingGuard α σ))
    (observer : Option (CommitObserver α τ)) (guardState : σ) (observerState : τ) :
    Applied α σ τ :=
  apply library world envelope guard observer none guardState observerState

def replayAtBoundary (library : JsonLibrary α) (world : LiveWorld α)
    (envelope : Envelope α) (bindings : List CreatedBinding) : Applied α Unit Unit :=
  apply library world envelope none none (some bindings) () ()

end Coordinator
end Omniweft.Transactions
