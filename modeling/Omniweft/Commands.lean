import Omniweft.Json

/-!
# Typed commands and their codec

The envelope a client submits, the validator `convert` that turns a JSON value
into it, and `parse` and `serialize`. Error paths and texts are the source's.
-/

namespace Omniweft.Commands

def maxEnvelopeBytes : Nat := 1048576

def maxOperations : Nat := 256

structure Idempotency where
  epoch : Text
  sequence : UInt64
  deriving DecidableEq, Repr

structure ApplyAt where
  mode : Text
  expiresAfterTicks : UInt64
  deriving DecidableEq, Repr

structure Budget where
  maxOperations : UInt64
  maxBlobBytes : UInt64
  deriving DecidableEq, Repr

structure TemporaryTarget where
  temporaryId : Text
  deriving DecidableEq, Repr

structure EntityTarget where
  worldId : Text
  entityUuid : Text
  generation : UInt64
  deriving DecidableEq, Repr

inductive Target where
  | temporary (reference : TemporaryTarget)
  | entity (reference : EntityTarget)
  deriving DecidableEq, Repr

structure EntityCreate where
  temporaryId : Text
  prefabId : Text
  deriving DecidableEq, Repr

structure TransformSet (α : Type) where
  target : Target
  positionM : Vec3 α
  rotationXyzw : Quat α
  scale : Vec3 α
  deriving DecidableEq, Repr

structure EntityDelete where
  target : Target
  childPolicy : Text
  deriving DecidableEq, Repr

structure EntityReparent where
  target : Target
  parent : Option Target
  mode : Text
  deriving DecidableEq, Repr

structure EntityTagsSet where
  target : Target
  tags : List Text
  deriving DecidableEq, Repr

inductive Operation (α : Type) where
  | entityCreate (operation : EntityCreate)
  | transformSet (operation : TransformSet α)
  | entityDelete (operation : EntityDelete)
  | entityReparent (operation : EntityReparent)
  | entityTagsSet (operation : EntityTagsSet)
  deriving DecidableEq, Repr

structure Envelope (α : Type) where
  protocolVersion : Text
  worldId : Text
  transactionId : Text
  idempotency : Idempotency
  expectedWorldRevision : UInt64
  applyAt : ApplyAt
  budget : Budget
  operations : List (Operation α)
  deriving DecidableEq, Repr

section Codec

variable {α : Type} [Scalar α]

open Outcome

def validationError (code : String) (path : Text) (message : String) :
    ValidationError :=
  ⟨ascii code, path, ascii message⟩

/-- `child`: one more JSON pointer segment, with `~` and `/` escaped. -/
def child (path key : Text) : Text :=
  path ++ [47] ++ key.flatMap fun character =>
    if character = 126 then ascii "~0"
    else if character = 47 then ascii "~1"
    else [character]

/-- `fields`: the value is an object with exactly the named members. -/
def fields (value : Json α) (path : Text) (names : List Text) :
    Except ValidationError Unit :=
  match value with
  | .object entries => do
      (Json.keys entries).forM fun key =>
        rejectIf (!names.contains key)
          (validationError "INVALID_SCHEMA" (child path key) "Unknown field.")
      names.forM fun name =>
        rejectIf (!(Json.keys entries).contains name)
          (validationError "INVALID_SCHEMA" (child path name)
            "Required field is missing.")
  | _ => reject "INVALID_SCHEMA" path "Expected an object."

def unsignedInteger (value : Json α) (path : Text) :
    Except ValidationError UInt64 :=
  match value with
  | .unsigned number => .ok number
  | _ =>
      reject "INVALID_SCHEMA" path
        "Expected an unsigned 64-bit integer token, without fraction or exponent."

/-- One component of a numeric vector: any number token, read as a double. -/
def component (value : Json α) (path : Text) : Except ValidationError α := do
  let number ←
    match value with
    | .unsigned token => .ok (Scalar.ofInt token.toNat)
    | .integer token => .ok (Scalar.ofInt token)
    | .float token => .ok token
    | _ => reject "INVALID_SCHEMA" path "Expected a number."
  rejectIf (!Scalar.isFinite number)
    (validationError "NONFINITE_VALUE" path "Numbers must be finite.")
  pure number

def vector3 (value : Json α) (path : Text) : Except ValidationError (Vec3 α) :=
  match value with
  | .array [first, second, third] => do
      let x ← component first (child path (decimal 0))
      let y ← component second (child path (decimal 1))
      let z ← component third (child path (decimal 2))
      pure ⟨x, y, z⟩
  | _ => reject "INVALID_SCHEMA" path "Numeric vector has the wrong shape."

def vector4 (value : Json α) (path : Text) : Except ValidationError (Quat α) :=
  match value with
  | .array [first, second, third, fourth] => do
      let x ← component first (child path (decimal 0))
      let y ← component second (child path (decimal 1))
      let z ← component third (child path (decimal 2))
      let w ← component fourth (child path (decimal 3))
      pure ⟨x, y, z, w⟩
  | _ => reject "INVALID_SCHEMA" path "Numeric vector has the wrong shape."

/-- `finite_vector`: the check a typed caller's numbers go through. -/
def finiteVector (values : List α) (path : Text) : Except ValidationError Unit :=
  values.zipIdx.forM fun entry =>
    rejectIf (!Scalar.isFinite entry.1)
      (validationError "NONFINITE_VALUE" (child path (decimal entry.2))
        "Numbers must be finite.")

def identifier (value : Json α) (path : Text) (maximum : Nat) :
    Except ValidationError Text :=
  match value with
  | .string text => do
      rejectIf
        (match text with
          | [] => true
          | first :: _ => decide (maximum < text.length) || !alphanumeric first)
        (validationError "INVALID_SCHEMA" path
          "Identifier length or first character is invalid.")
      text.forM fun character =>
        rejectIf (!identifierByte character)
          (validationError "INVALID_SCHEMA" path
            "Identifier contains an unsupported character.")
      pure text
  | _ => reject "INVALID_SCHEMA" path "Expected an ASCII identifier string."

/-- The character rule of a canonical lowercase UUID at one position. -/
def uuidByte (index : Nat) (character : UInt8) : Bool :=
  if index = 8 ∨ index = 13 ∨ index = 18 ∨ index = 23 then character == 45
  else (48 ≤ character && character ≤ 57) || (97 ≤ character && character ≤ 102)

def validUuid (text : Text) : Bool :=
  decide (text.length = 36) &&
    text.zipIdx.all fun entry => uuidByte entry.2 entry.1

def uuid (value : Json α) (path : Text) : Except ValidationError Text :=
  match value with
  | .string text => do
      rejectIf (decide (text.length ≠ 36))
        (validationError "INVALID_SCHEMA" path "UUID must have 36 characters.")
      text.zipIdx.forM fun entry =>
        rejectIf (!uuidByte entry.2 entry.1)
          (validationError "INVALID_SCHEMA" path
            "UUID must use lowercase hexadecimal and canonical hyphens.")
      pure text
  | _ =>
      reject "INVALID_SCHEMA" path "Expected a lowercase hyphenated UUID string."

/-- `value == "literal"`. -/
def isLiteral (value : Json α) (literal : String) : Bool :=
  match value with
  | .string text => text == ascii literal
  | _ => false

def isString (value : Json α) : Bool :=
  match value with
  | .string _ => true
  | _ => false

def targetValue (value : Json α) (path : Text) : Except ValidationError Target :=
  if value.contains (ascii "temporary_id") then do
    fields value path [ascii "temporary_id"]
    let temporaryId ←
      identifier (value.member (ascii "temporary_id"))
        (child path (ascii "temporary_id")) 64
    pure (.temporary ⟨temporaryId⟩)
  else do
    fields value path [ascii "world_id", ascii "entity_uuid", ascii "generation"]
    let worldId ←
      identifier (value.member (ascii "world_id")) (child path (ascii "world_id")) 128
    let entityUuid ←
      uuid (value.member (ascii "entity_uuid")) (child path (ascii "entity_uuid"))
    let generation ←
      unsignedInteger (value.member (ascii "generation"))
        (child path (ascii "generation"))
    pure (.entity ⟨worldId, entityUuid, generation⟩)

/-- The tag loop of `convert`: each label is an identifier not seen before. -/
def convertTags (path : Text) :
    List (Json α) → List Text → Except ValidationError (List Text)
  | [], tags => .ok tags
  | label :: rest, tags => do
      let tag ← identifier label path 32
      rejectIf (tags.contains tag)
        (validationError "INVALID_SCHEMA" path "Tags must be unique.")
      convertTags path rest (tags ++ [tag])

def convertCreate (operation : Json α) (path : Text) :
    Except ValidationError EntityCreate := do
  fields operation path [ascii "type", ascii "temporary_id", ascii "prefab"]
  let temporaryId ←
    identifier (operation.member (ascii "temporary_id"))
      (child path (ascii "temporary_id")) 64
  let prefabId ←
    identifier (operation.member (ascii "prefab")) (child path (ascii "prefab")) 128
  pure ⟨temporaryId, prefabId⟩

def convertTransform (operation : Json α) (path : Text) :
    Except ValidationError (TransformSet α) := do
  fields operation path
    [ascii "type", ascii "target", ascii "position_m", ascii "rotation_xyzw",
      ascii "scale"]
  let target ← targetValue (operation.member (ascii "target")) (child path (ascii "target"))
  let positionM ←
    vector3 (operation.member (ascii "position_m")) (child path (ascii "position_m"))
  let rotationXyzw ←
    vector4 (operation.member (ascii "rotation_xyzw"))
      (child path (ascii "rotation_xyzw"))
  let scale ← vector3 (operation.member (ascii "scale")) (child path (ascii "scale"))
  pure ⟨target, positionM, rotationXyzw, scale⟩

def convertTagsSet (operation : Json α) (path : Text) :
    Except ValidationError EntityTagsSet := do
  fields operation path [ascii "type", ascii "target", ascii "tags"]
  match operation.member (ascii "tags") with
  | .array labels => do
      rejectIf (decide (8 < labels.length))
        (validationError "INVALID_SCHEMA" (child path (ascii "tags"))
          "Expected at most eight unique bounded tags.")
      let target ←
        targetValue (operation.member (ascii "target")) (child path (ascii "target"))
      let tags ← convertTags (child path (ascii "tags")) labels []
      pure ⟨target, tags⟩
  | _ =>
      reject "INVALID_SCHEMA" (child path (ascii "tags"))
        "Expected at most eight unique bounded tags."

def convertReparent (operation : Json α) (path : Text) :
    Except ValidationError EntityReparent := do
  fields operation path
    [ascii "type", ascii "target", ascii "parent", ascii "mode"]
  match operation.member (ascii "mode") with
  | .string mode => do
      rejectIf (mode != ascii "preserve_world" && mode != ascii "preserve_local")
        (validationError "INVALID_SCHEMA" (child path (ascii "mode"))
          "Expected preserve_world or preserve_local.")
      let target ←
        targetValue (operation.member (ascii "target")) (child path (ascii "target"))
      match operation.member (ascii "parent") with
      | .null => pure ⟨target, none, mode⟩
      | reference => do
          let parent ← targetValue reference (child path (ascii "parent"))
          pure ⟨target, some parent, mode⟩
  | _ =>
      reject "INVALID_SCHEMA" (child path (ascii "mode"))
        "Expected preserve_world or preserve_local."

def convertDelete (operation : Json α) (path : Text) :
    Except ValidationError EntityDelete := do
  fields operation path [ascii "type", ascii "target", ascii "child_policy"]
  rejectIf (!isLiteral (operation.member (ascii "child_policy")) "reject_if_children")
    (validationError "INVALID_SCHEMA" (child path (ascii "child_policy"))
      "Only reject_if_children deletion is supported.")
  let target ← targetValue (operation.member (ascii "target")) (child path (ascii "target"))
  pure ⟨target, ascii "reject_if_children"⟩

def operationPath (index : Nat) : Text :=
  ascii "/operations/" ++ decimal index

def convertOperation (operation : Json α) (index : Nat) :
    Except ValidationError (Operation α) := do
  let path := operationPath index
  match operation with
  | .object _ => do
      rejectIf (!isString (operation.member (ascii "type")))
        (validationError "INVALID_SCHEMA" (child path (ascii "type"))
          "Operation type must be a string.")
      let type := operation.member (ascii "type")
      if isLiteral type "entity.create" then
        Operation.entityCreate <$> convertCreate operation path
      else if isLiteral type "transform.set" then
        Operation.transformSet <$> convertTransform operation path
      else if isLiteral type "entity.tags.set" then
        Operation.entityTagsSet <$> convertTagsSet operation path
      else if isLiteral type "entity.reparent" then
        Operation.entityReparent <$> convertReparent operation path
      else if isLiteral type "entity.delete" then
        Operation.entityDelete <$> convertDelete operation path
      else
        reject "UNSUPPORTED_OPERATION" (child path (ascii "type"))
          "Operation type is not supported by schema 0.1."
  | _ => reject "INVALID_SCHEMA" path "Expected an operation object."

def convertOperations :
    List (Json α) → Nat → Except ValidationError (List (Operation α))
  | [], _ => .ok []
  | operation :: rest, index => do
      let converted ← convertOperation operation index
      let others ← convertOperations rest (index + 1)
      pure (converted :: others)

/-- The header of an envelope as `convert` reads it, with the raw operations. -/
def convertHeader (value : Json α) :
    Except ValidationError (List (Operation α) → Envelope α) := do
  rejectIf (!isString (value.member (ascii "protocol_version")))
    (validationError "INVALID_SCHEMA" (ascii "/protocol_version")
      "Protocol version must be a string.")
  rejectIf (!isLiteral (value.member (ascii "protocol_version")) "0.1")
    (validationError "UNSUPPORTED_VERSION" (ascii "/protocol_version")
      "Only protocol version 0.1 is supported.")
  let worldId ← identifier (value.member (ascii "world_id")) (ascii "/world_id") 128
  let transactionId ←
    uuid (value.member (ascii "transaction_id")) (ascii "/transaction_id")
  let idempotency := value.member (ascii "idempotency")
  fields idempotency (ascii "/idempotency") [ascii "epoch", ascii "sequence"]
  let epoch ←
    identifier (idempotency.member (ascii "epoch")) (ascii "/idempotency/epoch") 128
  let sequence ←
    unsignedInteger (idempotency.member (ascii "sequence"))
      (ascii "/idempotency/sequence")
  let expectedWorldRevision ←
    unsignedInteger (value.member (ascii "expected_world_revision"))
      (ascii "/expected_world_revision")
  let applyAt := value.member (ascii "apply_at")
  fields applyAt (ascii "/apply_at") [ascii "mode", ascii "expires_after_ticks"]
  rejectIf (!isLiteral (applyAt.member (ascii "mode")) "next_tick")
    (validationError "INVALID_SCHEMA" (ascii "/apply_at/mode")
      "Only next_tick scheduling syntax is supported.")
  let expiresAfterTicks ←
    unsignedInteger (applyAt.member (ascii "expires_after_ticks"))
      (ascii "/apply_at/expires_after_ticks")
  rejectIf (expiresAfterTicks == 0 || decide (4294967295 < expiresAfterTicks))
    (validationError "INVALID_SCHEMA" (ascii "/apply_at/expires_after_ticks")
      "Expiry must be an integer from 1 through 4294967295.")
  let budget := value.member (ascii "budget")
  fields budget (ascii "/budget") [ascii "max_operations", ascii "max_blob_bytes"]
  let maximum ←
    unsignedInteger (budget.member (ascii "max_operations"))
      (ascii "/budget/max_operations")
  rejectIf (maximum == 0 || decide (maxOperations < maximum.toNat))
    (validationError "BUDGET_EXCEEDED" (ascii "/budget/max_operations")
      "Operation budget must be from 1 through 256.")
  let maxBlobBytes ←
    unsignedInteger (budget.member (ascii "max_blob_bytes"))
      (ascii "/budget/max_blob_bytes")
  pure fun operations =>
    { protocolVersion := ascii "0.1"
      worldId := worldId
      transactionId := transactionId
      idempotency := ⟨epoch, sequence⟩
      expectedWorldRevision := expectedWorldRevision
      applyAt := ⟨ascii "next_tick", expiresAfterTicks⟩
      budget := ⟨maximum, maxBlobBytes⟩
      operations := operations }

/-- `convert`: the complete validator of one envelope value. -/
def convert (value : Json α) : Except ValidationError (Envelope α) := do
  fields value []
    [ascii "protocol_version", ascii "world_id", ascii "transaction_id",
      ascii "idempotency", ascii "expected_world_revision", ascii "apply_at",
      ascii "budget", ascii "operations"]
  let header ← convertHeader value
  match value.member (ascii "operations") with
  | .array operations => do
      rejectIf
        (operations.isEmpty || decide (maxOperations < operations.length) ||
          decide ((header []).budget.maxOperations.toNat < operations.length))
        (validationError "BUDGET_EXCEEDED" (ascii "/operations")
          "Require 1 through 256 operations within the declared operation budget.")
      let converted ← convertOperations operations 0
      pure (header converted)
  | _ => reject "INVALID_SCHEMA" (ascii "/operations") "Expected an operation array."

def targetJson : Target → Json α
  | .temporary reference =>
      .object [(ascii "temporary_id", .string reference.temporaryId)]
  | .entity reference =>
      .object
        [(ascii "entity_uuid", .string reference.entityUuid),
          (ascii "generation", .unsigned reference.generation),
          (ascii "world_id", .string reference.worldId)]

def vectorJson (values : List α) : Json α :=
  .array (values.map Json.float)

/-- The value of one operation. Entries stand in key order, as the library's
map keeps them. -/
def operationValue : Operation α → Json α
  | .entityCreate operation =>
      .object
        [(ascii "prefab", .string operation.prefabId),
          (ascii "temporary_id", .string operation.temporaryId),
          (ascii "type", .string (ascii "entity.create"))]
  | .transformSet operation =>
      .object
        [(ascii "position_m", vectorJson operation.positionM.toList),
          (ascii "rotation_xyzw", vectorJson operation.rotationXyzw.toList),
          (ascii "scale", vectorJson operation.scale.toList),
          (ascii "target", targetJson operation.target),
          (ascii "type", .string (ascii "transform.set"))]
  | .entityDelete operation =>
      .object
        [(ascii "child_policy", .string operation.childPolicy),
          (ascii "target", targetJson operation.target),
          (ascii "type", .string (ascii "entity.delete"))]
  | .entityReparent operation =>
      .object
        [(ascii "mode", .string operation.mode),
          (ascii "parent",
            match operation.parent with
            | none => .null
            | some parent => targetJson parent),
          (ascii "target", targetJson operation.target),
          (ascii "type", .string (ascii "entity.reparent"))]
  | .entityTagsSet operation =>
      .object
        [(ascii "tags", .array (operation.tags.map Json.string)),
          (ascii "target", targetJson operation.target),
          (ascii "type", .string (ascii "entity.tags.set"))]

/-- The checks `serialize` makes while it builds the value of an operation. -/
def operationJson (operation : Operation α) (index : Nat) :
    Except ValidationError (Json α) := do
  let path := operationPath index
  match operation with
  | .transformSet transform => do
      finiteVector transform.positionM.toList (child path (ascii "position_m"))
      finiteVector transform.rotationXyzw.toList (child path (ascii "rotation_xyzw"))
      finiteVector transform.scale.toList (child path (ascii "scale"))
  | .entityTagsSet tags => do
      rejectIf (decide (8 < tags.tags.length))
        (validationError "INVALID_SCHEMA" (child path (ascii "tags"))
          "Expected at most eight unique bounded tags.")
      tags.tags.forM fun tag =>
        rejectIf (decide (32 < tag.length))
          (validationError "INVALID_SCHEMA" (child path (ascii "tags"))
            "Tag length exceeds the native bound.")
  | _ => pure ()
  pure (operationValue operation)

def operationsJson :
    List (Operation α) → Nat → Except ValidationError (List (Json α))
  | [], _ => .ok []
  | operation :: rest, index => do
      let value ← operationJson operation index
      let others ← operationsJson rest (index + 1)
      pure (value :: others)

def envelopeJson (envelope : Envelope α) (operations : List (Json α)) : Json α :=
  .object
    [(ascii "apply_at", .object
        [(ascii "expires_after_ticks", .unsigned envelope.applyAt.expiresAfterTicks),
          (ascii "mode", .string envelope.applyAt.mode)]),
      (ascii "budget", .object
        [(ascii "max_blob_bytes", .unsigned envelope.budget.maxBlobBytes),
          (ascii "max_operations", .unsigned envelope.budget.maxOperations)]),
      (ascii "expected_world_revision", .unsigned envelope.expectedWorldRevision),
      (ascii "idempotency", .object
        [(ascii "epoch", .string envelope.idempotency.epoch),
          (ascii "sequence", .unsigned envelope.idempotency.sequence)]),
      (ascii "operations", .array operations),
      (ascii "protocol_version", .string envelope.protocolVersion),
      (ascii "transaction_id", .string envelope.transactionId),
      (ascii "world_id", .string envelope.worldId)]

/-- The errors `parse` and `serialize` report always number one. -/
def single {β : Type} (outcome : Except ValidationError β) :
    Except (List ValidationError) β :=
  outcome.mapError fun error => [error]

def parse (library : JsonLibrary α) (bytes : Text) :
    Except (List ValidationError) (Envelope α) := single do
  rejectIf (decide (maxEnvelopeBytes < bytes.length))
    (validationError "BUDGET_EXCEEDED" [] "JSON envelope exceeds 1048576 bytes.")
  let _ ← BoundedSax.run (library.events bytes) []
  rejectIf (bytes.contains 0)
    (validationError "INVALID_SCHEMA" [] "Raw NUL bytes are not valid JSON.")
  match library.document bytes with
  | some value => convert value
  | none =>
      reject "INVALID_SCHEMA" []
        "Input could not be decoded as the required JSON envelope."

def serialize (library : JsonLibrary α) (envelope : Envelope α) :
    Except (List ValidationError) Text := do
  let value ← single do
    rejectIf (decide (maxOperations < envelope.operations.length))
      (validationError "BUDGET_EXCEEDED" (ascii "/operations")
        "At most 256 operations are allowed.")
    let operations ← operationsJson envelope.operations 0
    let value := envelopeJson envelope operations
    -- Typed callers are validated before any bytes are published.
    let _ ← convert value
    pure value
  match library.dump value with
  | some bytes => do
      let _ ← parse library bytes
      pure bytes
  | none =>
      single (reject "INVALID_SCHEMA" []
        "Typed envelope could not be encoded as strict UTF-8 JSON.")

end Codec
end Omniweft.Commands
