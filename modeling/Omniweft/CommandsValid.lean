import Omniweft.Commands

/-!
# Which typed envelopes serialize

`ValidEnvelope` is the typed form of what `convert` demands. An envelope that
serializes is valid; a valid envelope within the size limit serializes, and
parsing the bytes gives the envelope back.
-/

namespace Omniweft.Commands

open Outcome

variable {α : Type}

def ValidTarget : Target → Prop
  | .temporary reference => validIdentifier 64 reference.temporaryId = true
  | .entity reference =>
      validIdentifier 128 reference.worldId = true ∧
        validUuid reference.entityUuid = true

def FiniteVec3 [Scalar α] (v : Vec3 α) : Prop :=
  Scalar.isFinite v.x = true ∧ Scalar.isFinite v.y = true ∧
    Scalar.isFinite v.z = true

def FiniteQuat [Scalar α] (q : Quat α) : Prop :=
  Scalar.isFinite q.x = true ∧ Scalar.isFinite q.y = true ∧
    Scalar.isFinite q.z = true ∧ Scalar.isFinite q.w = true

def ValidOperation [Scalar α] : Operation α → Prop
  | .entityCreate operation =>
      validIdentifier 64 operation.temporaryId = true ∧
        validIdentifier 128 operation.prefabId = true
  | .transformSet operation =>
      ValidTarget operation.target ∧ FiniteVec3 operation.positionM ∧
        FiniteQuat operation.rotationXyzw ∧ FiniteVec3 operation.scale
  | .entityDelete operation =>
      ValidTarget operation.target ∧
        operation.childPolicy = ascii "reject_if_children"
  | .entityReparent operation =>
      ValidTarget operation.target ∧
        (∀ parent, operation.parent = some parent → ValidTarget parent) ∧
        (operation.mode = ascii "preserve_world" ∨
          operation.mode = ascii "preserve_local")
  | .entityTagsSet operation =>
      ValidTarget operation.target ∧ operation.tags.length ≤ 8 ∧
        (∀ tag, tag ∈ operation.tags → validIdentifier 32 tag = true) ∧
        operation.tags.Nodup

/-- The header fields of an envelope that `convert` accepts. -/
structure ValidHeader (envelope : Envelope α) : Prop where
  protocolVersion : envelope.protocolVersion = ascii "0.1"
  worldId : validIdentifier 128 envelope.worldId = true
  transactionId : validUuid envelope.transactionId = true
  epoch : validIdentifier 128 envelope.idempotency.epoch = true
  mode : envelope.applyAt.mode = ascii "next_tick"
  expires : envelope.applyAt.expiresAfterTicks ≠ 0 ∧
    envelope.applyAt.expiresAfterTicks ≤ 4294967295
  budget : envelope.budget.maxOperations ≠ 0 ∧
    envelope.budget.maxOperations.toNat ≤ maxOperations

structure ValidEnvelope [Scalar α] (envelope : Envelope α) : Prop where
  header : ValidHeader envelope
  nonempty : envelope.operations ≠ []
  withinBudget :
    envelope.operations.length ≤ envelope.budget.maxOperations.toNat
  operations : ∀ operation, operation ∈ envelope.operations →
    ValidOperation operation

theorem ValidEnvelope.length_le [Scalar α] {envelope : Envelope α}
    (valid : ValidEnvelope envelope) :
    envelope.operations.length ≤ maxOperations :=
  valid.withinBudget.trans valid.header.budget.2

theorem validIdentifier_length {maximum : Nat} {text : Text}
    (valid : validIdentifier maximum text = true) :
    text.length ≤ maximum := by
  cases text with
  | nil => simp [validIdentifier] at valid
  | cons first rest =>
      simp only [validIdentifier, Bool.and_eq_true, decide_eq_true_eq] at valid
      exact valid.1.1

theorem identifier_string {text path result : Text} {maximum : Nat} :
    identifier (.string text : Json α) path maximum = .ok result ↔
      validIdentifier maximum text = true ∧ text = result := by
  cases text with
  | nil => simp [identifier, validIdentifier, rejectIf, bind, Except.bind]
  | cons first rest =>
      simp only [identifier, validIdentifier, bind_eq_ok, rejectIf_eq_ok,
        forM_eq_ok, pure_eq_ok, List.all_eq_true, Bool.and_eq_true,
        decide_eq_true_eq, Bool.or_eq_false_iff, decide_eq_false_iff_not,
        Bool.not_eq_false', Nat.not_lt]
      constructor
      · rintro ⟨_, shape, _, bytes, same⟩
        exact ⟨⟨shape, bytes⟩, same⟩
      · rintro ⟨⟨shape, bytes⟩, same⟩
        exact ⟨(), shape, (), bytes, same⟩

theorem uuid_string {text path result : Text} :
    uuid (.string text : Json α) path = .ok result ↔
      validUuid text = true ∧ text = result := by
  simp only [uuid, validUuid, bind_eq_ok, rejectIf_eq_ok, forM_eq_ok,
    pure_eq_ok, List.all_eq_true, Bool.and_eq_true, decide_eq_true_eq,
    decide_eq_false_iff_not, Bool.not_eq_false', ne_eq, not_not]
  constructor
  · rintro ⟨_, shape, _, bytes, same⟩
    exact ⟨⟨shape, bytes⟩, same⟩
  · rintro ⟨⟨shape, bytes⟩, same⟩
    exact ⟨(), shape, (), bytes, same⟩

theorem unsignedInteger_unsigned {number result : UInt64} {path : Text} :
    unsignedInteger (.unsigned number : Json α) path = .ok result ↔
      number = result := by
  simp [unsignedInteger]

theorem isLiteral_string {text : Text} {literal : String} :
    isLiteral (.string text : Json α) literal = true ↔ text = ascii literal := by
  simp [isLiteral]

theorem component_float [Scalar α] {value result : α} {path : Text} :
    component (.float value) path = .ok result ↔
      Scalar.isFinite value = true ∧ value = result := by
  have shape :
      component (.float value) path =
        (rejectIf (!Scalar.isFinite value)
            (validationError "NONFINITE_VALUE" path "Numbers must be finite.") >>=
          fun _ => pure value) := rfl
  rw [shape]
  simp only [bind_eq_ok, rejectIf_eq_ok, pure_eq_ok, Bool.not_eq_false']
  constructor
  · rintro ⟨_, finite, same⟩
    exact ⟨finite, same⟩
  · rintro ⟨finite, same⟩
    exact ⟨(), finite, same⟩

theorem vector3_json [Scalar α] {v result : Vec3 α} {path : Text} :
    vector3 (vectorJson v.toList) path = .ok result ↔
      FiniteVec3 v ∧ v = result := by
  change
    (do
      let x ← component (.float v.x) (child path (decimal 0))
      let y ← component (.float v.y) (child path (decimal 1))
      let z ← component (.float v.z) (child path (decimal 2))
      pure (⟨x, y, z⟩ : Vec3 α)) = .ok result ↔ _
  simp only [bind_eq_ok, component_float, pure_eq_ok]
  constructor
  · rintro ⟨_, ⟨xFinite, rfl⟩, _, ⟨yFinite, rfl⟩, _, ⟨zFinite, rfl⟩, same⟩
    exact ⟨⟨xFinite, yFinite, zFinite⟩, same⟩
  · rintro ⟨⟨xFinite, yFinite, zFinite⟩, same⟩
    exact ⟨_, ⟨xFinite, rfl⟩, _, ⟨yFinite, rfl⟩, _, ⟨zFinite, rfl⟩, same⟩

theorem vector4_json [Scalar α] {q result : Quat α} {path : Text} :
    vector4 (vectorJson q.toList) path = .ok result ↔
      FiniteQuat q ∧ q = result := by
  change
    (do
      let x ← component (.float q.x) (child path (decimal 0))
      let y ← component (.float q.y) (child path (decimal 1))
      let z ← component (.float q.z) (child path (decimal 2))
      let w ← component (.float q.w) (child path (decimal 3))
      pure (⟨x, y, z, w⟩ : Quat α)) = .ok result ↔ _
  simp only [bind_eq_ok, component_float, pure_eq_ok]
  constructor
  · rintro ⟨_, ⟨xFinite, rfl⟩, _, ⟨yFinite, rfl⟩, _, ⟨zFinite, rfl⟩, _,
      ⟨wFinite, rfl⟩, same⟩
    exact ⟨⟨xFinite, yFinite, zFinite, wFinite⟩, same⟩
  · rintro ⟨⟨xFinite, yFinite, zFinite, wFinite⟩, same⟩
    exact ⟨_, ⟨xFinite, rfl⟩, _, ⟨yFinite, rfl⟩, _, ⟨zFinite, rfl⟩, _,
      ⟨wFinite, rfl⟩, same⟩

theorem targetValue_json {target result : Target} {path : Text} :
    targetValue (targetJson target : Json α) path = .ok result ↔
      ValidTarget target ∧ target = result := by
  cases target with
  | temporary reference =>
      change
        (do
          let temporaryId ←
            identifier (.string reference.temporaryId : Json α)
              (child path (ascii "temporary_id")) 64
          pure (Target.temporary ⟨temporaryId⟩)) = .ok result ↔ _
      simp only [bind_eq_ok, identifier_string, pure_eq_ok, ValidTarget]
      constructor
      · rintro ⟨_, ⟨valid, rfl⟩, same⟩
        exact ⟨valid, same⟩
      · rintro ⟨valid, same⟩
        exact ⟨_, ⟨valid, rfl⟩, same⟩
  | entity reference =>
      change
        (do
          let worldId ←
            identifier (.string reference.worldId : Json α)
              (child path (ascii "world_id")) 128
          let entityUuid ←
            uuid (.string reference.entityUuid : Json α)
              (child path (ascii "entity_uuid"))
          let generation ←
            unsignedInteger (.unsigned reference.generation : Json α)
              (child path (ascii "generation"))
          pure (Target.entity ⟨worldId, entityUuid, generation⟩)) =
            .ok result ↔ _
      simp only [bind_eq_ok, identifier_string, uuid_string,
        unsignedInteger_unsigned, pure_eq_ok, ValidTarget]
      constructor
      · rintro ⟨_, ⟨worldValid, rfl⟩, _, ⟨uuidValid, rfl⟩, _, rfl, same⟩
        exact ⟨⟨worldValid, uuidValid⟩, same⟩
      · rintro ⟨⟨worldValid, uuidValid⟩, same⟩
        exact ⟨_, ⟨worldValid, rfl⟩, _, ⟨uuidValid, rfl⟩, _, rfl, same⟩

theorem convertTags_strings {path : Text} :
    ∀ {labels tags result : List Text},
      tags.Nodup →
      (convertTags path (labels.map Json.string : List (Json α)) tags = .ok result ↔
        (∀ tag, tag ∈ labels → validIdentifier 32 tag = true) ∧
          (tags ++ labels).Nodup ∧ tags ++ labels = result)
  | [], tags, result, unique => by
      simp [convertTags, unique]
  | label :: rest, tags, result, unique => by
      change
        (do
          let tag ← identifier (.string label : Json α) path 32
          rejectIf (tags.contains tag)
            (validationError "INVALID_SCHEMA" path "Tags must be unique.")
          convertTags path (rest.map Json.string : List (Json α)) (tags ++ [tag])) =
            .ok result ↔ _
      simp only [bind_eq_ok, identifier_string, rejectIf_eq_ok,
        List.contains_eq_mem, decide_eq_false_iff_not]
      constructor
      · rintro ⟨_, ⟨valid, rfl⟩, _, absent, continued⟩
        have grown : (tags ++ [label]).Nodup := by
          refine List.nodup_append.mpr ⟨unique, List.nodup_singleton label, ?_⟩
          intro tag member other otherMember same
          rw [List.mem_singleton.mp otherMember] at same
          exact absent (same ▸ member)
        have others :=
          (convertTags_strings grown).mp continued
        refine ⟨?_, ?_, ?_⟩
        · intro tag member
          rcases List.mem_cons.mp member with same | later
          · exact same ▸ valid
          · exact others.1 tag later
        · simpa [List.append_assoc] using others.2.1
        · simpa [List.append_assoc] using others.2.2
      · rintro ⟨valid, nodup, same⟩
        have regrouped : tags ++ label :: rest = (tags ++ [label]) ++ rest := by
          simp
        have grown : (tags ++ [label]).Nodup :=
          (List.nodup_append.mp (regrouped ▸ nodup)).1
        have absent : label ∉ tags := by
          intro found
          exact (List.nodup_append.mp grown).2.2 label found label (by simp) rfl
        exact
          ⟨label, ⟨valid label (by simp), rfl⟩, (), absent,
            (convertTags_strings grown).mpr
              ⟨fun tag member => valid tag (List.mem_cons_of_mem _ member),
                regrouped ▸ nodup, regrouped ▸ same⟩⟩

theorem convertCreate_value [Scalar α] {create : EntityCreate}
    {result : Operation α} {index : Nat} :
    convertOperation (operationValue (.entityCreate create)) index = .ok result ↔
      ValidOperation (.entityCreate create : Operation α) ∧ .entityCreate create = result := by
  change
    Operation.entityCreate <$>
      (do
        let temporaryId ←
          identifier (.string create.temporaryId : Json α)
            (child (operationPath index) (ascii "temporary_id")) 64
        let prefabId ←
          identifier (.string create.prefabId : Json α)
            (child (operationPath index) (ascii "prefab")) 128
        pure (⟨temporaryId, prefabId⟩ : EntityCreate)) = .ok result ↔ _
  simp only [map_eq_ok, bind_eq_ok, identifier_string, pure_eq_ok,
    ValidOperation]
  constructor
  · rintro ⟨_, ⟨_, ⟨idValid, rfl⟩, _, ⟨prefabValid, rfl⟩, rfl⟩, same⟩
    exact ⟨⟨idValid, prefabValid⟩, same⟩
  · rintro ⟨⟨idValid, prefabValid⟩, same⟩
    exact ⟨_, ⟨_, ⟨idValid, rfl⟩, _, ⟨prefabValid, rfl⟩, rfl⟩, same⟩

theorem convertTransform_value [Scalar α] {transform : TransformSet α}
    {result : Operation α} {index : Nat} :
    convertOperation (operationValue (.transformSet transform)) index = .ok result ↔
      ValidOperation (.transformSet transform : Operation α) ∧
        .transformSet transform = result := by
  change
    Operation.transformSet <$>
      (do
        let target ←
          targetValue (targetJson transform.target : Json α)
            (child (operationPath index) (ascii "target"))
        let positionM ←
          vector3 (vectorJson transform.positionM.toList)
            (child (operationPath index) (ascii "position_m"))
        let rotationXyzw ←
          vector4 (vectorJson transform.rotationXyzw.toList)
            (child (operationPath index) (ascii "rotation_xyzw"))
        let scale ←
          vector3 (vectorJson transform.scale.toList)
            (child (operationPath index) (ascii "scale"))
        pure (⟨target, positionM, rotationXyzw, scale⟩ : TransformSet α)) =
          .ok result ↔ _
  simp only [map_eq_ok, bind_eq_ok, targetValue_json, vector3_json,
    vector4_json, pure_eq_ok, ValidOperation]
  constructor
  · rintro ⟨_, ⟨_, ⟨targetValid, rfl⟩, _, ⟨position, rfl⟩, _,
      ⟨rotation, rfl⟩, _, ⟨scale, rfl⟩, rfl⟩, same⟩
    exact ⟨⟨targetValid, position, rotation, scale⟩, same⟩
  · rintro ⟨⟨targetValid, position, rotation, scale⟩, same⟩
    exact ⟨_, ⟨_, ⟨targetValid, rfl⟩, _, ⟨position, rfl⟩, _,
      ⟨rotation, rfl⟩, _, ⟨scale, rfl⟩, rfl⟩, same⟩

theorem convertDelete_value [Scalar α] {delete : EntityDelete}
    {result : Operation α} {index : Nat} :
    convertOperation (operationValue (.entityDelete delete)) index = .ok result ↔
      ValidOperation (.entityDelete delete : Operation α) ∧ .entityDelete delete = result := by
  change
    Operation.entityDelete <$>
      (do
        rejectIf
          (!isLiteral (.string delete.childPolicy : Json α) "reject_if_children")
          (validationError "INVALID_SCHEMA"
            (child (operationPath index) (ascii "child_policy"))
            "Only reject_if_children deletion is supported.")
        let target ←
          targetValue (targetJson delete.target : Json α)
            (child (operationPath index) (ascii "target"))
        pure (⟨target, ascii "reject_if_children"⟩ : EntityDelete)) =
          .ok result ↔ _
  simp only [map_eq_ok, bind_eq_ok, rejectIf_eq_ok, Bool.not_eq_false',
    isLiteral_string, targetValue_json, pure_eq_ok, ValidOperation]
  obtain ⟨target, childPolicy⟩ := delete
  constructor
  · rintro ⟨_, ⟨_, rfl, _, ⟨targetValid, rfl⟩, rfl⟩, same⟩
    exact ⟨⟨targetValid, rfl⟩, same⟩
  · rintro ⟨⟨targetValid, rfl⟩, same⟩
    exact ⟨_, ⟨(), rfl, _, ⟨targetValid, rfl⟩, rfl⟩, same⟩

theorem convertReparent_value [Scalar α] {reparent : EntityReparent}
    {result : Operation α} {index : Nat} :
    convertOperation (operationValue (.entityReparent reparent)) index = .ok result ↔
      ValidOperation (.entityReparent reparent : Operation α) ∧
        .entityReparent reparent = result := by
  obtain ⟨target, parent, mode⟩ := reparent
  have modeCheck :
      (mode != ascii "preserve_world" && mode != ascii "preserve_local") =
          false ↔
        (mode = ascii "preserve_world" ∨ mode = ascii "preserve_local") := by
    simp only [Bool.and_eq_false_iff, bne_eq_false_iff_eq]
  cases parent with
  | none =>
      change
        Operation.entityReparent <$>
          (do
            rejectIf
              (mode != ascii "preserve_world" && mode != ascii "preserve_local")
              (validationError "INVALID_SCHEMA"
                (child (operationPath index) (ascii "mode"))
                "Expected preserve_world or preserve_local.")
            let target ←
              targetValue (targetJson target : Json α)
                (child (operationPath index) (ascii "target"))
            pure (⟨target, none, mode⟩ : EntityReparent)) = .ok result ↔ _
      simp only [map_eq_ok, bind_eq_ok, rejectIf_eq_ok, modeCheck,
        targetValue_json, pure_eq_ok, ValidOperation, reduceCtorEq,
        false_implies, implies_true, true_and]
      constructor
      · rintro ⟨_, ⟨_, known, _, ⟨targetValid, rfl⟩, rfl⟩, same⟩
        exact ⟨⟨targetValid, known⟩, same⟩
      · rintro ⟨⟨targetValid, known⟩, same⟩
        exact ⟨_, ⟨(), known, _, ⟨targetValid, rfl⟩, rfl⟩, same⟩
  | some parent =>
      have shape :
          convertOperation
              (operationValue (.entityReparent ⟨target, some parent, mode⟩) :
                Json α) index =
            Operation.entityReparent <$>
              (do
                rejectIf
                  (mode != ascii "preserve_world" &&
                    mode != ascii "preserve_local")
                  (validationError "INVALID_SCHEMA"
                    (child (operationPath index) (ascii "mode"))
                    "Expected preserve_world or preserve_local.")
                let target ←
                  targetValue (targetJson target : Json α)
                    (child (operationPath index) (ascii "target"))
                let parent ←
                  targetValue (targetJson parent : Json α)
                    (child (operationPath index) (ascii "parent"))
                pure (⟨target, some parent, mode⟩ : EntityReparent)) := by
        cases parent <;> rfl
      rw [shape]
      simp only [map_eq_ok, bind_eq_ok, rejectIf_eq_ok, modeCheck,
        targetValue_json, pure_eq_ok, ValidOperation, Option.some.injEq,
        forall_eq']
      constructor
      · rintro ⟨_, ⟨_, known, _, ⟨targetValid, rfl⟩, _, ⟨parentValid, rfl⟩,
          rfl⟩, same⟩
        exact ⟨⟨targetValid, parentValid, known⟩, same⟩
      · rintro ⟨⟨targetValid, parentValid, known⟩, same⟩
        exact ⟨_, ⟨(), known, _, ⟨targetValid, rfl⟩, _, ⟨parentValid, rfl⟩,
          rfl⟩, same⟩

theorem convertTagsSet_value [Scalar α] {tagsSet : EntityTagsSet}
    {result : Operation α} {index : Nat} :
    convertOperation (operationValue (.entityTagsSet tagsSet)) index = .ok result ↔
      ValidOperation (.entityTagsSet tagsSet : Operation α) ∧ .entityTagsSet tagsSet = result := by
  change
    Operation.entityTagsSet <$>
      (do
        rejectIf
          (decide (8 < (tagsSet.tags.map Json.string : List (Json α)).length))
          (validationError "INVALID_SCHEMA"
            (child (operationPath index) (ascii "tags"))
            "Expected at most eight unique bounded tags.")
        let target ←
          targetValue (targetJson tagsSet.target : Json α)
            (child (operationPath index) (ascii "target"))
        let tags ←
          convertTags (child (operationPath index) (ascii "tags"))
            (tagsSet.tags.map Json.string : List (Json α)) []
        pure (⟨target, tags⟩ : EntityTagsSet)) = .ok result ↔ _
  simp only [map_eq_ok, bind_eq_ok, rejectIf_eq_ok, targetValue_json,
    convertTags_strings List.nodup_nil, List.nil_append, pure_eq_ok,
    ValidOperation, List.length_map, decide_eq_false_iff_not, Nat.not_lt]
  constructor
  · rintro ⟨_, ⟨_, few, _, ⟨targetValid, rfl⟩, _, ⟨valid, unique, rfl⟩,
      rfl⟩, same⟩
    exact ⟨⟨targetValid, few, valid, unique⟩, same⟩
  · rintro ⟨⟨targetValid, few, valid, unique⟩, same⟩
    exact ⟨_, ⟨(), few, _, ⟨targetValid, rfl⟩, _, ⟨valid, unique, rfl⟩,
      rfl⟩, same⟩

theorem convertOperation_value [Scalar α]
    {operation result : Operation α} {index : Nat} :
    convertOperation (operationValue operation) index = .ok result ↔
      ValidOperation operation ∧ operation = result := by
  cases operation with
  | entityCreate create => exact convertCreate_value
  | transformSet transform => exact convertTransform_value
  | entityDelete delete => exact convertDelete_value
  | entityReparent reparent => exact convertReparent_value
  | entityTagsSet tagsSet => exact convertTagsSet_value

theorem convertOperations_values [Scalar α] :
    ∀ {operations result : List (Operation α)} {index : Nat},
      convertOperations (operations.map operationValue) index = .ok result ↔
        (∀ operation, operation ∈ operations → ValidOperation operation) ∧
          operations = result
  | [], result, index => by
      simp [convertOperations]
  | operation :: rest, result, index => by
      change
        (do
          let converted ← convertOperation (operationValue operation) index
          let others ←
            convertOperations (rest.map operationValue) (index + 1)
          pure (converted :: others)) = .ok result ↔ _
      simp only [bind_eq_ok, convertOperation_value,
        @convertOperations_values _ rest, pure_eq_ok,
        List.forall_mem_cons]
      constructor
      · rintro ⟨_, ⟨headValid, rfl⟩, _, ⟨restValid, rfl⟩, same⟩
        exact ⟨⟨headValid, restValid⟩, same⟩
      · rintro ⟨⟨headValid, restValid⟩, same⟩
        exact ⟨_, ⟨headValid, rfl⟩, _, ⟨restValid, rfl⟩, same⟩

def envelopeValue (envelope : Envelope α) : Json α :=
  envelopeJson envelope (envelope.operations.map operationValue)

/-- The header `convert` reads back from an envelope's own value. -/
theorem convertHeader_value [Scalar α]
    {envelope : Envelope α} {header : List (Operation α) → Envelope α} :
    convertHeader (envelopeValue envelope) = .ok header ↔
      ValidHeader envelope ∧
        (fun operations => { envelope with operations := operations }) =
          header := by
  obtain ⟨protocolVersion, worldId, transactionId, ⟨epoch, sequence⟩,
    expectedWorldRevision, ⟨mode, expiresAfterTicks⟩, ⟨maximum, maxBlobBytes⟩,
    operations⟩ := envelope
  change
    (do
      rejectIf (!isLiteral (.string protocolVersion : Json α) "0.1")
        (validationError "UNSUPPORTED_VERSION" (ascii "/protocol_version")
          "Only protocol version 0.1 is supported.")
      let worldId ← identifier (.string worldId : Json α) (ascii "/world_id") 128
      let transactionId ←
        uuid (.string transactionId : Json α) (ascii "/transaction_id")
      let epoch ←
        identifier (.string epoch : Json α) (ascii "/idempotency/epoch") 128
      let sequence ←
        unsignedInteger (.unsigned sequence : Json α) (ascii "/idempotency/sequence")
      let expectedWorldRevision ←
        unsignedInteger (.unsigned expectedWorldRevision : Json α)
          (ascii "/expected_world_revision")
      rejectIf (!isLiteral (.string mode : Json α) "next_tick")
        (validationError "INVALID_SCHEMA" (ascii "/apply_at/mode")
          "Only next_tick scheduling syntax is supported.")
      let expiresAfterTicks ←
        unsignedInteger (.unsigned expiresAfterTicks : Json α)
          (ascii "/apply_at/expires_after_ticks")
      rejectIf (expiresAfterTicks == 0 || decide (4294967295 < expiresAfterTicks))
        (validationError "INVALID_SCHEMA" (ascii "/apply_at/expires_after_ticks")
          "Expiry must be an integer from 1 through 4294967295.")
      let maximum ←
        unsignedInteger (.unsigned maximum : Json α) (ascii "/budget/max_operations")
      rejectIf (maximum == 0 || decide (maxOperations < maximum.toNat))
        (validationError "BUDGET_EXCEEDED" (ascii "/budget/max_operations")
          "Operation budget must be from 1 through 256.")
      let maxBlobBytes ←
        unsignedInteger (.unsigned maxBlobBytes : Json α)
          (ascii "/budget/max_blob_bytes")
      pure fun operations =>
        ({ protocolVersion := ascii "0.1"
           worldId := worldId
           transactionId := transactionId
           idempotency := ⟨epoch, sequence⟩
           expectedWorldRevision := expectedWorldRevision
           applyAt := ⟨ascii "next_tick", expiresAfterTicks⟩
           budget := ⟨maximum, maxBlobBytes⟩
           operations := operations } : Envelope α)) = .ok header ↔ _
  simp only [bind_eq_ok, rejectIf_eq_ok, Bool.not_eq_false', isLiteral_string,
    identifier_string, uuid_string, unsignedInteger_unsigned, pure_eq_ok,
    Bool.or_eq_false_iff, beq_eq_false_iff_ne, decide_eq_false_iff_not,
    Nat.not_lt, UInt64.not_lt]
  constructor
  · rintro ⟨_, rfl, _, ⟨world, rfl⟩, _, ⟨transaction, rfl⟩, _, ⟨epochValid, rfl⟩,
      _, rfl, _, rfl, _, rfl, _, rfl, _, expires, _, rfl, _, budget, _, rfl, same⟩
    exact ⟨⟨rfl, world, transaction, epochValid, rfl, expires, budget⟩, same⟩
  · rintro ⟨⟨version, world, transaction, epochValid, mode, expires, budget⟩, same⟩
    simp only at version mode
    subst version
    subst mode
    exact ⟨(), rfl, _, ⟨world, rfl⟩, _, ⟨transaction, rfl⟩, _, ⟨epochValid, rfl⟩,
      _, rfl, _, rfl, (), rfl, _, rfl, (), expires, _, rfl, (), budget, _, rfl,
      same⟩

/-- `convert` accepts an envelope's own value exactly when the envelope is
valid, and reads the same envelope back. -/
theorem convert_value [Scalar α] {envelope result : Envelope α} :
    convert (envelopeValue envelope) = .ok result ↔
      ValidEnvelope envelope ∧ envelope = result := by
  change
    (do
      let header ← convertHeader (envelopeValue envelope)
      rejectIf
        ((envelope.operations.map operationValue).isEmpty ||
          decide (maxOperations < (envelope.operations.map operationValue).length) ||
          decide ((header []).budget.maxOperations.toNat <
            (envelope.operations.map operationValue).length))
        (validationError "BUDGET_EXCEEDED" (ascii "/operations")
          "Require 1 through 256 operations within the declared operation budget.")
      let converted ←
        convertOperations (envelope.operations.map operationValue) 0
      pure (header converted)) = .ok result ↔ _
  simp only [bind_eq_ok, convertHeader_value, rejectIf_eq_ok,
    convertOperations_values, pure_eq_ok, Bool.or_eq_false_iff,
    decide_eq_false_iff_not, Nat.not_lt, List.length_map, List.isEmpty_eq_false_iff,
    ne_eq, List.map_eq_nil_iff]
  constructor
  · rintro ⟨_, ⟨header, rfl⟩, _, ⟨⟨nonempty, _⟩, budget⟩, _, ⟨valid, rfl⟩, same⟩
    exact ⟨⟨header, nonempty, budget, valid⟩, same⟩
  · rintro ⟨valid, same⟩
    exact ⟨_, ⟨valid.header, rfl⟩, (),
      ⟨⟨valid.nonempty, valid.length_le⟩, valid.withinBudget⟩, _,
      ⟨valid.operations, rfl⟩, same⟩

/-- The checks made while an operation's value is built never exceed those
`convert` makes, so they add nothing to validity. -/
theorem operationJson_valid [Scalar α] {operation : Operation α}
    (valid : ValidOperation operation) (index : Nat) :
    operationJson operation index = .ok (operationValue operation) := by
  cases operation with
  | transformSet transform =>
      obtain ⟨_, ⟨px, py, pz⟩, ⟨rx, ry, rz, rw⟩, ⟨sx, sy, sz⟩⟩ := valid
      simp [operationJson, finiteVector, Vec3.toList, Quat.toList, rejectIf,
        List.zipIdx, px, py, pz, rx, ry, rz, rw, sx, sy, sz, bind, Except.bind,
        pure, Except.pure]
  | entityTagsSet tagsSet =>
      obtain ⟨_, few, labels, _⟩ := valid
      have short :
          (tagsSet.tags.forM fun tag =>
            rejectIf (decide (32 < tag.length))
              (validationError "INVALID_SCHEMA"
                (child (operationPath index) (ascii "tags"))
                "Tag length exceeds the native bound.")) = .ok () := by
        refine forM_eq_ok.mpr ?_
        intro tag member
        have bound := validIdentifier_length (labels tag member)
        simpa using bound
      have count : decide (8 < tagsSet.tags.length) = false := by
        simpa using few
      simp [operationJson, count, short, bind, Except.bind, pure, Except.pure]
  | entityCreate create => rfl
  | entityDelete delete => rfl
  | entityReparent reparent => rfl

theorem operationJson_value [Scalar α] {operation : Operation α} {index : Nat}
    {value : Json α} (built : operationJson operation index = .ok value) :
    value = operationValue operation := by
  cases operation <;>
    simp only [operationJson, bind_eq_ok, pure_eq_ok] at built <;>
    grind

theorem operationsJson_valid [Scalar α] :
    ∀ {operations : List (Operation α)} {index : Nat},
      (∀ operation, operation ∈ operations → ValidOperation operation) →
      operationsJson operations index = .ok (operations.map operationValue)
  | [], index, _ => rfl
  | operation :: rest, index, valid => by
      have first := operationJson_valid (valid operation (by simp)) index
      have others :=
        @operationsJson_valid _ rest (index + 1)
          (fun later member => valid later (List.mem_cons_of_mem _ member))
      simp [operationsJson, first, others, bind, Except.bind, pure, Except.pure]

theorem operationsJson_value [Scalar α] :
    ∀ {operations : List (Operation α)} {index : Nat} {values : List (Json α)},
      operationsJson operations index = .ok values →
      values = operations.map operationValue
  | [], index, values, built => by
      simpa [operationsJson] using built.symm
  | operation :: rest, index, values, built => by
      simp only [operationsJson, bind_eq_ok, pure_eq_ok] at built
      obtain ⟨value, first, others, continued, rfl⟩ := built
      rw [operationJson_value first, operationsJson_value continued]
      rfl

theorem single_eq_ok {β : Type} {outcome : Except ValidationError β} {result : β} :
    single outcome = .ok result ↔ outcome = .ok result := by
  exact mapError_eq_ok

/-- Whatever the JSON library, bytes come only from valid envelopes, and they
are the dump of the envelope's own value. -/
theorem serialize_eq_ok [Scalar α] {library : JsonLibrary α}
    {envelope : Envelope α} {bytes : Text}
    (serialized : serialize library envelope = .ok bytes) :
    ValidEnvelope envelope ∧
      library.dump (envelopeValue envelope) = some bytes := by
  unfold serialize at serialized
  simp only [bind_eq_ok, single_eq_ok, rejectIf_eq_ok, pure_eq_ok] at serialized
  obtain ⟨value, ⟨_, _, values, built, _, converted, rfl⟩, continued⟩ := serialized
  rw [operationsJson_value built] at converted continued
  have valid := (convert_value.mp converted).1
  split at continued
  · rename_i text dumped
    simp only [bind_eq_ok, pure_eq_ok] at continued
    obtain ⟨_, _, rfl⟩ := continued
    exact ⟨valid, dumped⟩
  · cases continued

end Omniweft.Commands
