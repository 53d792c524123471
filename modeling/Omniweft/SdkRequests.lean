import Omniweft.SdkModels
import Omniweft.Codecs
import Omniweft.CommandsRoundTrip

/-!
# The requests of the SDK

The envelopes that `Client.transact` and `RetryPolicyClient.prepare` build, and what
the host's parser makes of them.
-/

namespace Omniweft.Sdk

open Outcome Python

structure ConnectionInfo where
  token : Text
  epoch : Text
  sessionTtlMs : Int
  identified : hex64Pattern token = true ∧ hex64Pattern epoch = true
  apart : token ≠ epoch
  bounded : 50 ≤ sessionTtlMs ∧ sessionTtlMs ≤ 300000

/-- A sequence number as `integer` with a minimum of one lets it through. -/
structure Counter where
  value : Int
  counted : 1 ≤ value ∧ value ≤ uint64Max

/-- What the client reads of its capabilities again; the other limits are fixed. -/
structure Capabilities where
  worldId : Text
  maxSlots : Int
  deriving DecidableEq

def maxOperations : Nat := 256
def maxBodyBytes : Nat := 1048576
def retryOperations : Nat := 4
def canonicalPayloadBytes : Nat := 16384

structure PreparedTransaction where
  sequence : Int
  transactionId : Text
  expectedRevision : Int
  owner : Nat
  body : Text
  deriving DecidableEq

/-- A client; only a retrying one has an owner token and a pending transaction. -/
structure Client where
  info : ConnectionInfo
  capabilities : Option Capabilities
  next : Option Counter
  uncertain : Bool
  owner : Nat
  pending : Option PreparedTransaction

/-- What an envelope is made of. -/
structure Draft (α : Type) [Scalar α] where
  worldId : Text
  epoch : Text
  sequence : Int
  expectedRevision : Int
  transactionId : Text
  operations : List (Operation α)

section Envelopes

variable {α : Type} [Scalar α]

def envelopeDict (draft : Draft α) : Except Raised (Value α) := do
  let operations ← draft.operations.mapM operationDict
  pure (.dict
    [(ascii "protocol_version", .str (ascii "0.1")), (ascii "world_id", .str draft.worldId),
      (ascii "transaction_id", .str draft.transactionId),
      (ascii "idempotency", .dict
        [(ascii "epoch", .str draft.epoch), (ascii "sequence", .integer draft.sequence)]),
      (ascii "expected_world_revision", .integer draft.expectedRevision),
      (ascii "apply_at", .dict
        [(ascii "mode", .str (ascii "next_tick")),
          (ascii "expires_after_ticks", .integer 120)]),
      (ascii "budget", .dict
        [(ascii "max_operations", .integer draft.operations.length),
          (ascii "max_blob_bytes", .integer 0)]),
      (ascii "operations", .list operations)])

def payload (python : Interpreter α) (limit : Nat) (value : Value α) : Except Raised Text :=
  match python.dumps value with
  | some text => if limit < text.length then .error .protocol else .ok text
  | none => .error .protocol

/-- The sequence number of the next transaction; a client that has none left must
resync. -/
def nextSequence : EStateM Raised Client Int := do
  match (← get).next with
  | some next =>
      if uint64Max ≤ next.value then
        modify fun client => { client with uncertain := true }
        throw .unknown
      else pure next.value
  | none =>
      modify fun client => { client with uncertain := true }
      throw .unknown

/-- The checks of a transaction after the negotiation. -/
def drafted (capabilities : Capabilities) (limit : Nat) (operations : List (Operation α))
    (expectedRevision : Int) (identifier : Except Raised Text) :
    EStateM Raised Client (Draft α) := do
  let revision ← attempt id (integer (.integer expectedRevision : Value α) 0 uint64Max)
  attempt id (rejectIf (operations.isEmpty || decide (limit < operations.length)) .protocol)
  let sequence ← nextSequence
  let identifier ← attempt id identifier
  pure
    { worldId := capabilities.worldId
      epoch := (← get).info.epoch
      sequence := sequence
      expectedRevision := revision
      transactionId := identifier
      operations := operations }

/-- The body that `Client.transact` sends; `generated` is what `uuid4` gave. -/
def transactBody (python : Interpreter α) (capabilities : Capabilities)
    (operations : List (Operation α)) (expectedRevision : Int)
    (transactionId : Option Text) (generated : Text) : EStateM Raised Client Text := do
  attempt id (rejectIf (← get).uncertain .unknown)
  let identifier :=
    match transactionId with
    | some identifier => uuid (.str identifier : Value α)
    | none => .ok generated
  let draft ← drafted capabilities maxOperations operations expectedRevision identifier
  let value ← attempt id (envelopeDict draft)
  attempt id (payload python maxBodyBytes value)

/-- `RetryPolicyClient.prepare`. -/
def prepare (python : Interpreter α) (capabilities : Capabilities)
    (operations : List (Operation α)) (expectedRevision : Int)
    (transactionId : Option Text) (generated : Text) :
    EStateM Raised Client PreparedTransaction := do
  let client ← get
  attempt id (rejectIf (client.uncertain || client.pending.isSome) .unknown)
  let identifier := uuid (.str (transactionId.getD generated) : Value α)
  let draft ← drafted capabilities retryOperations operations expectedRevision identifier
  let value ← attempt id (envelopeDict draft)
  let body ← attempt id (payload python canonicalPayloadBytes value)
  let prepared : PreparedTransaction :=
    ⟨draft.sequence, draft.transactionId, expectedRevision, client.owner, body⟩
  modify fun client => { client with pending := some prepared }
  pure prepared

def typedTarget : Target → Commands.Target
  | .entity handle =>
      .entity ⟨handle.worldId, handle.entityUuid, UInt64.ofNat handle.generation.toNat⟩
  | .temporary temporaryId => .temporary ⟨temporaryId⟩

def typedOperation : Operation α → Commands.Operation α
  | .createCube temporaryId => .entityCreate ⟨temporaryId, ascii "builtin.unit_cube"⟩
  | .setTransform target transform =>
      .transformSet
        ⟨typedTarget target, transform.value.positionM, transform.value.rotationXyzw,
          transform.value.scale⟩
  | .deleteEntity target =>
      .entityDelete ⟨typedTarget (.entity target), ascii "reject_if_children"⟩

def typedEnvelope (draft : Draft α) : Commands.Envelope α where
  protocolVersion := ascii "0.1"
  worldId := draft.worldId
  transactionId := draft.transactionId
  idempotency := ⟨draft.epoch, UInt64.ofNat draft.sequence.toNat⟩
  expectedWorldRevision := UInt64.ofNat draft.expectedRevision.toNat
  applyAt := ⟨ascii "next_tick", 120⟩
  budget := ⟨UInt64.ofNat draft.operations.length, 0⟩
  operations := draft.operations.map typedOperation

def validTarget : Target → Bool
  | .entity handle => validIdentifier 128 handle.worldId
  | .temporary temporaryId => validIdentifier 64 temporaryId

/-- The identifiers of an operation are ones that the host's schema has. -/
def validOperation : Operation α → Bool
  | .createCube temporaryId => validIdentifier 64 temporaryId
  | .setTransform target _ => validTarget target
  | .deleteEntity target => validTarget (.entity target)

/-- A draft that `drafted` makes of operations with valid identifiers. -/
structure Sound (draft : Draft α) : Prop where
  worldId : validIdentifier 128 draft.worldId = true
  epoch : hex64Pattern draft.epoch = true
  sequence : 0 ≤ draft.sequence ∧ draft.sequence < uint64Max
  expectedRevision : 0 ≤ draft.expectedRevision ∧ draft.expectedRevision ≤ uint64Max
  transactionId : uuidPattern draft.transactionId = true
  count : draft.operations ≠ [] ∧ draft.operations.length ≤ maxOperations
  operations : ∀ operation ∈ draft.operations, validOperation operation = true

def targetTokens : Target → Json α
  | .entity handle =>
      .object
        [(ascii "world_id", .string handle.worldId),
          (ascii "entity_uuid", .string handle.entityUuid),
          (ascii "generation", .unsigned (UInt64.ofNat handle.generation.toNat))]
  | .temporary temporaryId => .object [(ascii "temporary_id", .string temporaryId)]

def operationTokens : Operation α → Json α
  | .createCube temporaryId =>
      .object
        [(ascii "type", .string (ascii "entity.create")),
          (ascii "temporary_id", .string temporaryId),
          (ascii "prefab", .string (ascii "builtin.unit_cube"))]
  | .setTransform target transform =>
      .object
        [(ascii "type", .string (ascii "transform.set")), (ascii "target", targetTokens target),
          (ascii "position_m", Commands.vectorJson transform.value.positionM.toList),
          (ascii "rotation_xyzw", Commands.vectorJson transform.value.rotationXyzw.toList),
          (ascii "scale", Commands.vectorJson transform.value.scale.toList)]
  | .deleteEntity target =>
      .object
        [(ascii "type", .string (ascii "entity.delete")),
          (ascii "target", targetTokens (.entity target)),
          (ascii "child_policy", .string (ascii "reject_if_children"))]

def envelopeTokens (draft : Draft α) : Json α :=
  .object
    [(ascii "protocol_version", .string (ascii "0.1")), (ascii "world_id", .string draft.worldId),
      (ascii "transaction_id", .string draft.transactionId),
      (ascii "idempotency", .object
        [(ascii "epoch", .string draft.epoch),
          (ascii "sequence", .unsigned (UInt64.ofNat draft.sequence.toNat))]),
      (ascii "expected_world_revision",
        .unsigned (UInt64.ofNat draft.expectedRevision.toNat)),
      (ascii "apply_at", .object
        [(ascii "mode", .string (ascii "next_tick")),
          (ascii "expires_after_ticks", .unsigned 120)]),
      (ascii "budget", .object
        [(ascii "max_operations", .unsigned (UInt64.ofNat draft.operations.length)),
          (ascii "max_blob_bytes", .unsigned 0)]),
      (ascii "operations", .array (draft.operations.map operationTokens))]

omit [Scalar α] in
theorem targetTokens_arrange (target : Target) :
    (targetTokens target : Json α).arrange = Commands.targetJson (typedTarget target) := by
  cases target <;> rfl

theorem operationTokens_arrange (operation : Operation α) :
    (operationTokens operation).arrange = Commands.operationValue (typedOperation operation) := by
  cases operation with
  | createCube temporaryId => rfl
  | setTransform target transform =>
      cases target <;> rfl
  | deleteEntity target => rfl

omit [Scalar α] in
theorem arrangeItems_map {β : Type} (items : List β) (tokens value : β → Json α)
    (same : ∀ item ∈ items, (tokens item).arrange = value item) :
    Json.arrangeItems (items.map tokens) = items.map value := by
  induction items with
  | nil => rfl
  | cons item rest inductionHypothesis =>
      simp only [List.map_cons, Json.arrangeItems, List.cons.injEq]
      exact ⟨same item (List.mem_cons_self ..),
        inductionHypothesis fun later member => same later (List.mem_cons_of_mem _ member)⟩

theorem envelopeTokens_arrange (draft : Draft α) :
    (envelopeTokens draft).arrange = Commands.envelopeValue (typedEnvelope draft) := by
  have items := arrangeItems_map draft.operations operationTokens
    (fun operation => Commands.operationValue (typedOperation operation))
    (fun operation _ => operationTokens_arrange operation)
  have shape :
      (envelopeTokens draft).arrange =
        Commands.envelopeJson (typedEnvelope draft)
          (Json.arrangeItems (draft.operations.map operationTokens)) := rfl
  rw [shape, items, Commands.envelopeValue]
  simp only [typedEnvelope, List.map_map]
  rfl

theorem uuidPattern_eq (identifier : Text) :
    uuidPattern identifier = Commands.validUuid identifier := rfl

theorem hexadecimal_alphanumeric {character : UInt8} (digit : hexadecimal character = true) :
    alphanumeric character = true := by
  simp only [hexadecimal, Bool.or_eq_true, Bool.and_eq_true, decide_eq_true_eq] at digit
  simp only [alphanumeric, Bool.or_eq_true, Bool.and_eq_true, decide_eq_true_eq]
  grind

/-- An epoch is an identifier. -/
theorem hex64_identifier {epoch : Text} (valid : hex64Pattern epoch = true) :
    validIdentifier 128 epoch = true := by
  simp only [hex64Pattern, Bool.and_eq_true, decide_eq_true_eq, List.all_eq_true] at valid
  obtain ⟨length, digits⟩ := valid
  cases epoch with
  | nil => simp at length
  | cons first rest =>
      have letters : ∀ character ∈ first :: rest, alphanumeric character = true :=
        fun character member => hexadecimal_alphanumeric (digits character member)
      simp only [validIdentifier, Bool.and_eq_true, decide_eq_true_eq, List.all_eq_true]
      refine ⟨⟨by omega, letters first (List.mem_cons_self ..)⟩, ?_⟩
      intro character member
      simp [identifierByte, letters character member]

omit [Scalar α] in
theorem text_of_identifier {identifier : Text} {maximum : Nat}
    (valid : validIdentifier maximum identifier = true) :
    text (.str identifier : Value α) maximum = .ok identifier := by
  have bound := Commands.validIdentifier_length valid
  have few : characters identifier ≤ maximum :=
    (List.countP_le_length).trans bound
  have nonempty : identifier ≠ [] := by
    intro empty
    simp [empty, validIdentifier] at valid
  simp [text, nonempty, few]

omit [Scalar α] in
theorem integer_image {number : Int} (bounded : 0 ≤ number ∧ number ≤ uint64Max) :
    (Json.unsigned (UInt64.ofNat number.toNat) : Json α).image = .integer number := by
  have fits : number.toNat < 2 ^ 64 := by
    unfold uint64Max at bounded
    omega
  simp only [Json.image, UInt64.toNat_ofNat_of_lt' fits]
  rw [Int.toNat_of_nonneg bounded.1]

omit [Scalar α] in
theorem handleDict_image (handle : EntityHandle) :
    handleDict handle = (targetTokens (.entity handle) : Json α).image := by
  obtain ⟨low, high⟩ := handle.counted
  have number := @integer_image α handle.generation ⟨by omega, high⟩
  simp only [targetTokens, Json.image, Json.imageEntries] at number ⊢
  rw [number]
  rfl

omit [Scalar α] in
theorem targetDict_image {target : Target} (valid : validTarget target = true) :
    targetDict target = .ok (targetTokens target : Json α).image := by
  cases target with
  | entity handle => simp [targetDict, handleDict_image]
  | temporary temporaryId =>
      simp only [validTarget] at valid
      simp [targetDict, text_of_identifier valid, targetTokens, Json.image,
        Json.imageEntries, bind, Except.bind, pure, Except.pure]

theorem operationDict_image {operation : Operation α}
    (valid : validOperation operation = true) :
    operationDict operation = .ok (operationTokens operation).image := by
  cases operation with
  | createCube temporaryId =>
      simp only [validOperation] at valid
      simp [operationDict, text_of_identifier valid, operationTokens, Json.image,
        Json.imageEntries, bind, Except.bind, pure, Except.pure]
  | setTransform target transform =>
      simp only [validOperation] at valid
      simp [operationDict, targetDict_image valid, operationTokens, transformEntries, floats,
        Commands.vectorJson, Json.image, Json.imageEntries, Json.imageItems_map, bind,
        Except.bind, pure, Except.pure, Function.comp_def]
  | deleteEntity target =>
      simp [operationDict, handleDict_image, operationTokens, Json.image, Json.imageEntries]

omit [Scalar α] in
theorem mapM_image {β : Type} {items : List β} {read : β → Except Raised (Value α)}
    {tokens : β → Json α} (each : ∀ item ∈ items, read item = .ok (tokens item).image) :
    items.mapM read = .ok ((items.map tokens).map Json.image) := by
  induction items with
  | nil => rfl
  | cons item rest inductionHypothesis =>
      have others := inductionHypothesis fun later member =>
        each later (List.mem_cons_of_mem _ member)
      rw [List.mapM_cons, each item (List.mem_cons_self ..), others]
      rfl

theorem envelopeDict_image {draft : Draft α} (sound : Sound draft) :
    envelopeDict draft = .ok (envelopeTokens draft).image := by
  have items := mapM_image fun operation member =>
    operationDict_image (sound.operations operation member)
  have sequence := @integer_image α draft.sequence ⟨sound.sequence.1, sound.sequence.2.le⟩
  have revision := @integer_image α draft.expectedRevision sound.expectedRevision
  have few := sound.count.2
  have count := @integer_image α (draft.operations.length : Int)
    ⟨by omega, by unfold maxOperations at few; unfold uint64Max; omega⟩
  simp only [Json.image, Int.toNat_natCast] at sequence revision count
  simp only [envelopeDict, items, envelopeTokens, Json.image, Json.imageEntries,
    Json.imageItems_map, sequence, revision, count, bind, Except.bind, pure, Except.pure]
  rfl

theorem finite_transform (transform : Transform α) :
    Commands.FiniteVec3 transform.value.positionM ∧
      Commands.FiniteQuat transform.value.rotationXyzw ∧
      Commands.FiniteVec3 transform.value.scale := by
  have finite := transform.finite
  simp only [finiteTransform, Vec3.toList, Quat.toList, List.cons_append, List.nil_append,
    List.all_cons, List.all_nil, Bool.and_true, Bool.and_eq_true] at finite
  simp only [Commands.FiniteVec3, Commands.FiniteQuat]
  grind

theorem typedTarget_valid {target : Target} (valid : validTarget target = true) :
    Commands.ValidTarget (typedTarget target) := by
  cases target with
  | entity handle => exact ⟨valid, handle.identified⟩
  | temporary temporaryId => exact valid

theorem typedOperation_valid {operation : Operation α}
    (valid : validOperation operation = true) :
    Commands.ValidOperation (typedOperation operation) := by
  cases operation with
  | createCube temporaryId =>
      have known : validIdentifier 128 (ascii "builtin.unit_cube") = true := by decide
      exact ⟨valid, known⟩
  | setTransform target transform =>
      exact ⟨typedTarget_valid valid, finite_transform transform⟩
  | deleteEntity target =>
      have targetValid := @typedTarget_valid (.entity target) valid
      exact ⟨targetValid, rfl⟩

theorem typedEnvelope_valid {draft : Draft α} (sound : Sound draft) :
    Commands.ValidEnvelope (typedEnvelope draft) := by
  obtain ⟨nonempty, few⟩ := sound.count
  have small : draft.operations.length < 2 ^ 64 := by
    unfold maxOperations at few
    omega
  have count : (UInt64.ofNat draft.operations.length).toNat = draft.operations.length :=
    UInt64.toNat_ofNat_of_lt' small
  have expires : (120 : UInt64) ≠ 0 ∧ (120 : UInt64) ≤ 4294967295 := by decide
  refine ⟨⟨rfl, sound.worldId, sound.transactionId, hex64_identifier sound.epoch, rfl,
    expires, ?_, ?_⟩, ?_, ?_, ?_⟩
  · intro zero
    have none := congrArg UInt64.toNat zero
    simp only [typedEnvelope, count] at none
    exact nonempty (List.length_eq_zero_iff.mp none)
  · simp only [typedEnvelope, count]
    exact few
  · simpa [typedEnvelope] using nonempty
  · simp only [typedEnvelope, count, List.length_map]
    exact le_rfl
  · intro operation member
    obtain ⟨source, held, rfl⟩ := List.mem_map.mp member
    exact typedOperation_valid (sound.operations source held)

theorem envelopeTokens_portable {draft : Draft α} (sound : Sound draft) :
    (envelopeTokens draft).Portable ∧ (envelopeTokens draft).depth ≤ 32 := by
  have valid := typedEnvelope_valid sound
  rw [← Json.portable_arrange, ← Json.depth_arrange, envelopeTokens_arrange]
  exact ⟨Json.Plain.portable _ _ (fun _ finite => finite) _
      (Commands.envelopeValue_plain valid), Commands.envelopeValue_depth _⟩

/-- The host reads the envelope of a draft from the SDK's text. -/
theorem dumps_parses {python : Interpreter α} {library : JsonLibrary α}
    (codecs : Codecs python library) {draft : Draft α} (sound : Sound draft) :
    ∃ bytes,
      python.dumps (envelopeTokens draft).image = some bytes ∧
        bytes.length ≤ 1000 + 1001 * draft.operations.length ∧
        python.loads bytes = some (envelopeTokens draft).image ∧
        Commands.parse library bytes = .ok (typedEnvelope draft) := by
  obtain ⟨portable, shallow⟩ := envelopeTokens_portable sound
  have valid := typedEnvelope_valid sound
  obtain ⟨bytes, written, short, noNul, events, document, back⟩ :=
    codecs.toHost _ portable shallow
  have bounded : bytes.length ≤ 1000 + 1001 * draft.operations.length := by
    have weight := Commands.envelopeValue_weight valid
    rw [← envelopeTokens_arrange, Json.weight_arrange] at weight
    simp only [typedEnvelope, List.length_map] at weight
    exact short.trans weight
  refine ⟨bytes, written, bounded, back, ?_⟩
  have passes : Commands.BoundedSax.run (library.events bytes) [] = .ok [] := by
    rw [events]
    exact Commands.BoundedSax.accepts_value _ [] portable (by simpa using shallow)
  have fits : decide (Commands.maxEnvelopeBytes < bytes.length) = false := by
    have few := sound.count.2
    refine decide_eq_false ?_
    unfold maxOperations at few
    unfold Commands.maxEnvelopeBytes
    omega
  have converted : Commands.convert (Commands.envelopeValue (typedEnvelope draft)) =
      .ok (typedEnvelope draft) :=
    Commands.convert_value.mpr ⟨valid, rfl⟩
  rw [envelopeTokens_arrange] at document
  simp [Commands.parse, Commands.single_eq_ok, fits, passes, noNul, document, converted, bind,
    Except.bind]

theorem nextSequence_eq_ok {client after : Client} {sequence : Int} :
    nextSequence client = .ok sequence after ↔
      client.next.map Counter.value = some sequence ∧ sequence < uint64Max ∧
        client = after := by
  unfold nextSequence
  rw [stateful_bind_eq_ok]
  constructor
  · intro run
    obtain ⟨held, middle, got, rest⟩ := run
    obtain ⟨rfl, rfl⟩ := stateful_get_eq_ok.mp got
    cases found : client.next with
    | none =>
        simp only [found] at rest
        obtain ⟨_, _, _, stopped⟩ := stateful_bind_eq_ok.mp rest
        cases stopped
    | some next =>
        simp only [found] at rest
        split at rest
        · obtain ⟨_, _, _, stopped⟩ := stateful_bind_eq_ok.mp rest
          cases stopped
        · rename_i left
          obtain ⟨rfl, rfl⟩ := stateful_pure_eq_ok.mp rest
          exact ⟨rfl, by omega, rfl⟩
  · intro held
    obtain ⟨found, left, rfl⟩ := held
    obtain ⟨next, here, rfl⟩ := Option.map_eq_some_iff.mp found
    refine ⟨client, client, rfl, ?_⟩
    have some : ¬ uint64Max ≤ next.value := by omega
    simp only [here, some, if_false]
    rfl

/-- What `drafted` makes of a client. -/
theorem drafted_eq_ok {client after : Client} {capabilities : Capabilities} {limit : Nat}
    {operations : List (Operation α)} {expectedRevision : Int}
    {identifier : Except Raised Text} {draft : Draft α} :
    drafted capabilities limit operations expectedRevision identifier client =
        .ok draft after ↔
      ∃ sequence transactionId,
        client.next.map Counter.value = some sequence ∧ sequence < uint64Max ∧
          (0 ≤ expectedRevision ∧ expectedRevision ≤ uint64Max) ∧
          (operations ≠ [] ∧ operations.length ≤ limit) ∧
          identifier = .ok transactionId ∧ client = after ∧
          draft =
            ⟨capabilities.worldId, client.info.epoch, sequence, expectedRevision,
              transactionId, operations⟩ := by
  unfold drafted
  simp only [stateful_bind_eq_ok, attempt_eq_ok, nextSequence_eq_ok, integer_eq_ok,
    rejectIf_eq_ok, stateful_get_eq_ok, stateful_pure_eq_ok, Value.integer.injEq,
    Bool.or_eq_false_iff, List.isEmpty_eq_false_iff, decide_eq_false_iff_not, Nat.not_lt]
  constructor
  · intro run
    obtain ⟨revision, _, ⟨⟨rfl, inRange⟩, rfl⟩, _, _, ⟨count, rfl⟩, sequence, _,
      ⟨found, left, rfl⟩, transactionId, _, ⟨identified, rfl⟩, _, _, ⟨rfl, rfl⟩, rfl, rfl⟩ :=
      run
    exact ⟨sequence, transactionId, found, left, inRange, count, identified, rfl, rfl⟩
  · intro held
    obtain ⟨sequence, transactionId, found, left, inRange, count, identified, rfl, rfl⟩ := held
    exact ⟨expectedRevision, client, ⟨⟨rfl, inRange⟩, rfl⟩, (), client, ⟨count, rfl⟩, sequence,
      client, ⟨found, left, rfl⟩, transactionId, client, ⟨identified, rfl⟩, client, client,
      ⟨rfl, rfl⟩, rfl, rfl⟩

omit [Scalar α] in
theorem uuid_eq_ok {identifier result : Text} :
    uuid (.str identifier : Value α) = .ok result ↔
      uuidPattern identifier = true ∧ identifier = result := by
  cases valid : uuidPattern identifier <;> simp [uuid, valid]

omit [Scalar α] in
theorem payload_eq_ok {python : Interpreter α} {limit : Nat} {value : Value α} {bytes : Text} :
    payload python limit value = .ok bytes ↔
      python.dumps value = some bytes ∧ bytes.length ≤ limit := by
  unfold payload
  split
  · rename_i text dumped
    rw [dumped]
    by_cases long : limit < text.length
    · simp only [long, if_true, reduceCtorEq, false_iff, Option.some.injEq, not_and]
      intro same
      rw [← same]
      omega
    · simp only [long, if_false, Except.ok.injEq, Option.some.injEq]
      constructor
      · intro same
        rw [← same]
        exact ⟨rfl, by omega⟩
      · intro both
        exact both.1
  · rename_i failed
    simp [failed]

/-- The envelope that a client's checks let through is the typed one for the host. -/
theorem envelope_parses {python : Interpreter α} {library : JsonLibrary α}
    (codecs : Codecs python library) {draft : Draft α} (sound : Sound draft) {limit : Nat}
    {value : Value α} {bytes : Text} (built : envelopeDict draft = .ok value)
    (sent : payload python limit value = .ok bytes) :
    Commands.parse library bytes = .ok (typedEnvelope draft) := by
  rw [envelopeDict_image sound, Except.ok.injEq] at built
  obtain ⟨text, written, _, _, parsed⟩ := dumps_parses codecs sound
  obtain ⟨dumped, _⟩ := payload_eq_ok.mp sent
  rw [← built, written, Option.some.injEq] at dumped
  rw [← dumped]
  exact parsed

/-- The typed envelope that a request asks for. -/
def requested (client : Client) (capabilities : Capabilities) (sequence : Int)
    (operations : List (Operation α)) (expectedRevision : Int) (identifier : Text) :
    Commands.Envelope α :=
  typedEnvelope
    ⟨capabilities.worldId, client.info.epoch, sequence, expectedRevision, identifier, operations⟩

theorem counter_nonneg {next : Option Counter} {sequence : Int}
    (found : next.map Counter.value = some sequence) : 0 ≤ sequence := by
  obtain ⟨counter, _, rfl⟩ := Option.map_eq_some_iff.mp found
  have counted := counter.counted
  omega

theorem transactBody_parses {python : Interpreter α} {library : JsonLibrary α}
    (codecs : Codecs python library) {client after : Client} {capabilities : Capabilities}
    {operations : List (Operation α)} {expectedRevision : Int} {transactionId : Option Text}
    {generated bytes : Text} (world : validIdentifier 128 capabilities.worldId = true)
    (identified : uuidPattern generated = true)
    (valid : ∀ operation ∈ operations, validOperation operation = true)
    (built :
      transactBody python capabilities operations expectedRevision transactionId generated
        client = .ok bytes after) :
    ∃ sequence, client.next.map Counter.value = some sequence ∧
      Commands.parse library bytes =
        .ok (requested client capabilities sequence operations expectedRevision
          (transactionId.getD generated)) := by
  unfold transactBody at built
  simp only [stateful_bind_eq_ok, attempt_eq_ok, drafted_eq_ok, rejectIf_eq_ok,
    stateful_get_eq_ok] at built
  obtain ⟨_, _, ⟨rfl, rfl⟩, _, _, ⟨_, rfl⟩, draft, _,
    ⟨sequence, identifier, found, left, inRange, count, named, rfl, rfl⟩, value, _,
    ⟨dict, rfl⟩, sent, rfl⟩ := built
  have known : uuidPattern identifier = true ∧ identifier = transactionId.getD generated := by
    cases transactionId with
    | none =>
        simp only [Except.ok.injEq] at named
        rw [← named]
        exact ⟨identified, rfl⟩
    | some given =>
        obtain ⟨pattern, same⟩ := uuid_eq_ok.mp named
        rw [← same]
        exact ⟨pattern, rfl⟩
  refine ⟨sequence, found, ?_⟩
  rw [← known.2]
  exact envelope_parses codecs
    ⟨world, client.info.identified.2, ⟨counter_nonneg found, left⟩, inRange, known.1, count,
      valid⟩
    dict sent

theorem prepare_parses {python : Interpreter α} {library : JsonLibrary α}
    (codecs : Codecs python library) {client after : Client} {capabilities : Capabilities}
    {operations : List (Operation α)} {expectedRevision : Int} {transactionId : Option Text}
    {generated : Text} {prepared : PreparedTransaction}
    (world : validIdentifier 128 capabilities.worldId = true)
    (valid : ∀ operation ∈ operations, validOperation operation = true)
    (built :
      prepare python capabilities operations expectedRevision transactionId generated client =
        .ok prepared after) :
    client.next.map Counter.value = some prepared.sequence ∧
      Commands.parse library prepared.body =
        .ok (requested client capabilities prepared.sequence operations expectedRevision
          (transactionId.getD generated)) := by
  unfold prepare at built
  simp only [stateful_bind_eq_ok, attempt_eq_ok, drafted_eq_ok, rejectIf_eq_ok,
    stateful_get_eq_ok, stateful_modify_eq_ok, stateful_pure_eq_ok, uuid_eq_ok] at built
  obtain ⟨_, _, ⟨rfl, rfl⟩, _, _, ⟨_, rfl⟩, draft, _,
    ⟨sequence, identifier, found, left, inRange, count, ⟨pattern, rfl⟩, rfl, rfl⟩, value, _,
    ⟨dict, rfl⟩, body, _, ⟨sent, rfl⟩, _, _, _, rfl, _⟩ := built
  refine ⟨found, ?_⟩
  have few : operations.length ≤ maxOperations := count.2.trans (by decide)
  exact envelope_parses codecs
    ⟨world, client.info.identified.2, ⟨counter_nonneg found, left⟩, inRange, pattern,
      ⟨count.1, few⟩, valid⟩
    dict sent

end Envelopes
end Omniweft.Sdk
