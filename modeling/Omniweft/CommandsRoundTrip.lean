import Omniweft.CommandsValid

/-!
# Serialization round trip

With a faithful JSON library every valid envelope serializes, within a size
that depends only on its number of operations, and its bytes parse to it.
-/

namespace Omniweft.Commands

open Outcome Json

variable {α : Type} [Scalar α]

omit [Scalar α] in
theorem validIdentifier_bytes {maximum : Nat} {text : Text}
    (valid : validIdentifier maximum text = true) :
    text.all identifierByte = true := by
  cases text with
  | nil => rfl
  | cons first rest =>
      simp only [validIdentifier, Bool.and_eq_true] at valid
      exact valid.2

private theorem uuidByte_identifierByte {index : Nat} {character : UInt8}
    (valid : uuidByte index character = true) :
    identifierByte character = true := by
  unfold uuidByte at valid
  split at valid
  · simp only [beq_iff_eq] at valid
    subst valid
    rfl
  · simp only [Bool.or_eq_true, Bool.and_eq_true, decide_eq_true_eq] at valid
    simp only [identifierByte, alphanumeric, Bool.or_eq_true, Bool.and_eq_true,
      decide_eq_true_eq]
    rcases valid with digit | letter
    · exact Or.inl (Or.inl (Or.inl (Or.inl (Or.inr digit))))
    · refine Or.inl (Or.inl (Or.inl (Or.inl (Or.inl (Or.inl ⟨letter.1, ?_⟩)))))
      exact UInt8.le_trans letter.2 (by decide)

theorem validUuid_bytes {text : Text} (valid : validUuid text = true) :
    text.all identifierByte = true := by
  simp only [validUuid, Bool.and_eq_true, decide_eq_true_eq,
    List.all_eq_true] at valid
  rw [List.all_eq_true]
  intro character member
  obtain ⟨index, position, rfl⟩ := List.mem_iff_getElem.mp member
  have found : (text[index], index) ∈ text.zipIdx := by
    rw [List.mem_zipIdx_iff_getElem?]
    simp [position]
  exact uuidByte_identifierByte (valid.2 _ found)

theorem validUuid_length {text : Text} (valid : validUuid text = true) :
    text.length = 36 := by
  simp only [validUuid, Bool.and_eq_true, decide_eq_true_eq] at valid
  exact valid.1

omit [Scalar α] in
private theorem sortedKeys {entries : List (Text × Json α)}
    (sorted : decide ((keys entries).Pairwise (· < ·)) = true) :
    (keys entries).Pairwise (· < ·) :=
  of_decide_eq_true sorted

theorem targetJson_plain {target : Target} (valid : ValidTarget target) :
    Plain (targetJson target : Json α) := by
  cases target with
  | temporary reference =>
      refine ⟨List.pairwise_singleton _ _, rfl, ?_, trivial⟩
      exact validIdentifier_bytes valid
  | entity reference =>
      refine ⟨sortedKeys rfl, rfl, ?_, rfl, trivial, rfl, ?_, trivial⟩
      · exact validUuid_bytes valid.2
      · exact validIdentifier_bytes valid.1

theorem vector3_plain {v : Vec3 α} (finite : FiniteVec3 v) :
    Plain (vectorJson v.toList) :=
  ⟨finite.1, finite.2.1, finite.2.2, trivial⟩

theorem vector4_plain {q : Quat α} (finite : FiniteQuat q) :
    Plain (vectorJson q.toList) :=
  ⟨finite.1, finite.2.1, finite.2.2.1, finite.2.2.2, trivial⟩

private theorem labels_plain :
    ∀ {labels : List Text},
      (∀ tag, tag ∈ labels → validIdentifier 32 tag = true) →
      PlainItems (labels.map Json.string : List (Json α))
  | [], _ => trivial
  | label :: rest, valid =>
      ⟨validIdentifier_bytes (valid label (by simp)),
        labels_plain fun tag member => valid tag (List.mem_cons_of_mem _ member)⟩

theorem operationValue_plain {operation : Operation α}
    (valid : ValidOperation operation) :
    Plain (operationValue operation) := by
  cases operation with
  | entityCreate create =>
      refine ⟨sortedKeys rfl, rfl, ?_, rfl, ?_, rfl, rfl, trivial⟩
      · exact validIdentifier_bytes valid.2
      · exact validIdentifier_bytes valid.1
  | transformSet transform =>
      obtain ⟨target, position, rotation, scale⟩ := valid
      exact ⟨sortedKeys rfl, rfl, vector3_plain position, rfl, vector4_plain rotation,
        rfl, vector3_plain scale, rfl, targetJson_plain target, rfl, rfl, trivial⟩
  | entityDelete delete =>
      refine ⟨sortedKeys rfl, rfl, ?_, rfl, targetJson_plain valid.1, rfl, rfl, trivial⟩
      have policy := valid.2
      simp only [Plain, policy]
      rfl
  | entityReparent reparent =>
      obtain ⟨target, parentValid, mode⟩ := valid
      have modePlain : Plain (.string reparent.mode : Json α) := by
        simp only [Plain]
        rcases mode with same | same
        · rw [same]
          rfl
        · rw [same]
          rfl
      refine ⟨sortedKeys rfl, rfl, modePlain, rfl, ?_, rfl, targetJson_plain target,
        rfl, rfl, trivial⟩
      cases found : reparent.parent with
      | none => trivial
      | some parent => exact targetJson_plain (parentValid parent found)
  | entityTagsSet tagsSet =>
      obtain ⟨target, _, labels, _⟩ := valid
      exact ⟨sortedKeys rfl, rfl, labels_plain labels, rfl, targetJson_plain target,
        rfl, rfl, trivial⟩

private theorem operations_plain :
    ∀ {operations : List (Operation α)},
      (∀ operation, operation ∈ operations → ValidOperation operation) →
      PlainItems (operations.map operationValue)
  | [], _ => trivial
  | operation :: rest, valid =>
      ⟨operationValue_plain (valid operation (by simp)),
        operations_plain fun later member =>
          valid later (List.mem_cons_of_mem _ member)⟩

theorem envelopeValue_plain {envelope : Envelope α}
    (valid : ValidEnvelope envelope) :
    Plain (envelopeValue envelope) := by
  have header := valid.header
  refine ⟨sortedKeys rfl, rfl, ⟨sortedKeys rfl, rfl, trivial, rfl, ?_, trivial⟩, rfl,
    ⟨sortedKeys rfl, rfl, trivial, rfl, trivial, trivial⟩, rfl, trivial, rfl,
    ⟨sortedKeys rfl, rfl, ?_, rfl, trivial, trivial⟩, rfl,
    operations_plain valid.operations, rfl, ?_, rfl, ?_, rfl, ?_, trivial⟩
  · simp only [Plain, header.mode]
    rfl
  · exact validIdentifier_bytes header.epoch
  · simp only [Plain, header.protocolVersion]
    rfl
  · exact validUuid_bytes header.transactionId
  · exact validIdentifier_bytes header.worldId

omit [Scalar α] in
private theorem depthItems_le {bound : Nat} :
    ∀ {items : List (Json α)},
      (∀ item, item ∈ items → depth item ≤ bound) → depthItems items ≤ bound
  | [], _ => by
      simp [depthItems]
  | item :: rest, small => by
      have first := small item (by simp)
      have others : depthItems rest ≤ bound :=
        depthItems_le fun later member => small later (List.mem_cons_of_mem _ member)
      simp only [depthItems]
      omega

omit [Scalar α] in
theorem targetJson_depth (target : Target) :
    depth (targetJson target : Json α) = 1 := by
  cases target <;> rfl

omit [Scalar α] in
theorem operationValue_depth (operation : Operation α) :
    depth (operationValue operation) ≤ 2 := by
  cases operation with
  | entityCreate create => exact Nat.le_of_ble_eq_true rfl
  | transformSet transform =>
      simp [operationValue, depth, depthEntries, depthItems, vectorJson,
        Vec3.toList, Quat.toList, targetJson_depth]
  | entityDelete delete =>
      simp [operationValue, depth, depthEntries, targetJson_depth]
  | entityReparent reparent =>
      obtain ⟨target, parent, mode⟩ := reparent
      cases parent with
      | none => simp [operationValue, depth, depthEntries, targetJson_depth]
      | some parent => simp [operationValue, depth, depthEntries, targetJson_depth]
  | entityTagsSet tagsSet =>
      have flat : depthItems (tagsSet.tags.map Json.string : List (Json α)) ≤ 0 := by
        refine depthItems_le ?_
        intro item member
        obtain ⟨tag, _, rfl⟩ := List.mem_map.mp member
        exact Nat.le_refl 0
      simp only [operationValue, depth, depthEntries, targetJson_depth]
      omega

omit [Scalar α] in
theorem envelopeValue_depth (envelope : Envelope α) :
    depth (envelopeValue envelope) ≤ 32 := by
  have operations : depthItems (envelope.operations.map operationValue) ≤ 2 := by
    refine depthItems_le ?_
    intro item member
    obtain ⟨operation, _, rfl⟩ := List.mem_map.mp member
    exact operationValue_depth operation
  simp only [envelopeValue, envelopeJson, depth, depthEntries]
  omega

omit [Scalar α] in
theorem targetJson_weight {target : Target} (valid : ValidTarget target) :
    weight (targetJson target : Json α) ≤ 260 := by
  cases target with
  | temporary reference =>
      have bound := validIdentifier_length valid
      simp [targetJson, weight, weightEntries, ascii]
      omega
  | entity reference =>
      have worldBound := validIdentifier_length valid.1
      have uuidBound := validUuid_length valid.2
      simp [targetJson, weight, weightEntries, ascii]
      omega

omit [Scalar α] in
private theorem labels_weight :
    ∀ {labels : List Text},
      (∀ tag, tag ∈ labels → validIdentifier 32 tag = true) →
      weightItems (labels.map Json.string : List (Json α)) ≤ 35 * labels.length
  | [], _ => Nat.le_refl 0
  | label :: rest, valid => by
      have first := validIdentifier_length (valid label (by simp))
      have others : weightItems (rest.map Json.string : List (Json α)) ≤
          35 * rest.length :=
        labels_weight fun tag member => valid tag (List.mem_cons_of_mem _ member)
      simp only [List.map_cons, weightItems, weight, List.length_cons]
      omega

theorem operationValue_weight {operation : Operation α}
    (valid : ValidOperation operation) :
    weight (operationValue operation) ≤ 1000 := by
  cases operation with
  | entityCreate create =>
      have idBound := validIdentifier_length valid.1
      have prefabBound := validIdentifier_length valid.2
      simp [operationValue, weight, weightEntries, ascii]
      omega
  | transformSet transform =>
      have targetBound : weight (targetJson transform.target : Json α) ≤ 260 :=
        targetJson_weight valid.1
      simp [operationValue, weight, weightEntries, weightItems, vectorJson,
        Vec3.toList, Quat.toList, ascii]
      omega
  | entityDelete delete =>
      have targetBound : weight (targetJson delete.target : Json α) ≤ 260 :=
        targetJson_weight valid.1
      have policy := valid.2
      simp [operationValue, weight, weightEntries, policy, ascii]
      omega
  | entityReparent reparent =>
      obtain ⟨target, parentValid, mode⟩ := valid
      have targetBound : weight (targetJson reparent.target : Json α) ≤ 260 :=
        targetJson_weight target
      have modeBound : reparent.mode.length ≤ 14 := by
        rcases mode with same | same <;> rw [same] <;> decide
      cases found : reparent.parent with
      | none =>
          simp [operationValue, weight, weightEntries, found, ascii]
          omega
      | some parent =>
          have parentBound : weight (targetJson parent : Json α) ≤ 260 :=
            targetJson_weight (parentValid parent found)
          simp [operationValue, weight, weightEntries, found, ascii]
          omega
  | entityTagsSet tagsSet =>
      obtain ⟨target, few, labels, _⟩ := valid
      have targetBound : weight (targetJson tagsSet.target : Json α) ≤ 260 :=
        targetJson_weight target
      have labelsBound :
          weightItems (tagsSet.tags.map Json.string : List (Json α)) ≤
            35 * tagsSet.tags.length :=
        labels_weight labels
      simp [operationValue, weight, weightEntries, ascii]
      omega

private theorem operations_weight :
    ∀ {operations : List (Operation α)},
      (∀ operation, operation ∈ operations → ValidOperation operation) →
      weightItems (operations.map operationValue) ≤ 1001 * operations.length
  | [], _ => Nat.le_refl 0
  | operation :: rest, valid => by
      have first := operationValue_weight (valid operation (by simp))
      have others : weightItems (rest.map operationValue) ≤ 1001 * rest.length :=
        operations_weight fun later member =>
          valid later (List.mem_cons_of_mem _ member)
      simp only [List.map_cons, weightItems, List.length_cons]
      omega

theorem envelopeValue_weight {envelope : Envelope α}
    (valid : ValidEnvelope envelope) :
    weight (envelopeValue envelope) ≤
      1000 + 1001 * envelope.operations.length := by
  have header := valid.header
  have worldBound := validIdentifier_length header.worldId
  have epochBound := validIdentifier_length header.epoch
  have uuidBound := validUuid_length header.transactionId
  have operationsBound := operations_weight valid.operations
  simp [envelopeValue, envelopeJson, weight, weightEntries, header.mode,
    header.protocolVersion, ascii]
  omega

/-- The bytes of a valid envelope parse to the envelope. -/
theorem parse_dump {library : JsonLibrary α} (faithful : library.Faithful)
    {envelope : Envelope α} {bytes : Text} (valid : ValidEnvelope envelope)
    (dumped : library.dump (envelopeValue envelope) = some bytes) :
    parse library bytes = .ok envelope ∧
      bytes.length ≤ 1000 + 1001 * envelope.operations.length := by
  have plain := envelopeValue_plain valid
  have shallow := envelopeValue_depth envelope
  obtain ⟨text, written, short, noNul, events, document⟩ :=
    faithful.roundTrip (envelopeValue envelope) plain shallow
  have sameText : text = bytes := by
    rw [dumped] at written
    exact (Option.some.inj written).symm
  subst sameText
  have bounded : text.length ≤ 1000 + 1001 * envelope.operations.length :=
    short.trans (envelopeValue_weight valid)
  refine ⟨?_, bounded⟩
  have passes : BoundedSax.run (library.events text) [] = .ok [] := by
    rw [events]
    exact BoundedSax.accepts_value _ []
      (Plain.portable _ _ (fun _ finite => finite) _ plain) (by simpa using shallow)
  have fits : decide (maxEnvelopeBytes < text.length) = false := by
    have count := valid.length_le
    unfold maxOperations at count
    refine decide_eq_false ?_
    unfold maxEnvelopeBytes
    omega
  have converted : convert (envelopeValue envelope) = .ok envelope :=
    convert_value.mpr ⟨valid, rfl⟩
  simp [parse, single_eq_ok, fits, passes, noNul, document, converted, bind,
    Except.bind]

theorem serialize_valid {library : JsonLibrary α} (faithful : library.Faithful)
    {envelope : Envelope α} (valid : ValidEnvelope envelope) :
    ∃ bytes, serialize library envelope = .ok bytes ∧
      bytes.length ≤ 1000 + 1001 * envelope.operations.length := by
  obtain ⟨bytes, dumped, _⟩ :=
    faithful.roundTrip (envelopeValue envelope) (envelopeValue_plain valid)
      (envelopeValue_depth envelope)
  obtain ⟨parsed, bounded⟩ := parse_dump faithful valid dumped
  refine ⟨bytes, ?_, bounded⟩
  have few : decide (maxOperations < envelope.operations.length) = false := by
    simpa using valid.length_le
  have converted : convert (envelopeValue envelope) = .ok envelope :=
    convert_value.mpr ⟨valid, rfl⟩
  have built := @operationsJson_valid α _ _ 0 valid.operations
  simp only [envelopeValue] at converted dumped
  simp [serialize, single, few, built, converted, dumped, parsed, bind,
    Except.bind, Except.mapError, pure, Except.pure]

theorem parse_serialize {library : JsonLibrary α} (faithful : library.Faithful)
    {envelope : Envelope α} {bytes : Text}
    (serialized : serialize library envelope = .ok bytes) :
    parse library bytes = .ok envelope ∧
      bytes.length ≤ 1000 + 1001 * envelope.operations.length := by
  obtain ⟨valid, dumped⟩ := serialize_eq_ok serialized
  exact parse_dump faithful valid dumped

/-- With a faithful library two envelopes with the same bytes are equal. -/
theorem serialize_injective {library : JsonLibrary α} (faithful : library.Faithful)
    {left right : Envelope α} {bytes : Text}
    (leftBytes : serialize library left = .ok bytes)
    (rightBytes : serialize library right = .ok bytes) :
    left = right := by
  have leftParsed := (parse_serialize faithful leftBytes).1
  have rightParsed := (parse_serialize faithful rightBytes).1
  rw [leftParsed] at rightParsed
  exact Except.ok.inj rightParsed

end Omniweft.Commands
