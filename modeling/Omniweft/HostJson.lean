import Omniweft.SdkModels
import Omniweft.Codecs
import Omniweft.CommandsRoundTrip
import Omniweft.PolicyHost

/-!
# The answers of the host

The JSON that the host makes of a snapshot and of a receipt, and what the SDK makes
of it. Entries stand in key order, as the host's map keeps them.
-/

namespace Omniweft.Control

open Omniweft.Outcome World Transactions

variable {α : Type}

def transformJson (transform : Transform α) : Json α :=
  .object
    [(ascii "position_m", Commands.vectorJson transform.positionM.toList),
      (ascii "rotation_xyzw", Commands.vectorJson transform.rotationXyzw.toList),
      (ascii "scale", Commands.vectorJson transform.scale.toList)]

def entityJson : Option (Entity α) → Json α
  | none => .null
  | some entity =>
      .object
        [(ascii "authoring_revision", .unsigned entity.authoringRevision),
          (ascii "prefab", .string entity.prefabId),
          (ascii "transform", transformJson entity.transform)]

def slotJson (slot : Slot α) : Json α :=
  .object
    [(ascii "entity", entityJson slot.entity), (ascii "entity_uuid", .string slot.entityUuid),
      (ascii "generation", .unsigned slot.generation),
      (ascii "retired", .boolean slot.retired)]

def snapshotObject (snapshot : Snapshot α) : Json α :=
  .object
    [(ascii "format_version", .unsigned snapshot.formatVersion.toUInt64),
      (ascii "max_slots", .unsigned snapshot.maxSlots.toUInt64),
      (ascii "seed", .unsigned snapshot.seed.toUInt64),
      (ascii "slots", .array (snapshot.slots.map slotJson)),
      (ascii "world_id", .string snapshot.worldId),
      (ascii "world_revision", .unsigned snapshot.worldRevision)]

/-- `snapshot_json`: a world that the remote profiles cannot represent is refused. -/
def snapshotJson (snapshot : Snapshot α) : Except PolicyHost.Halt (Json α) := do
  rejectIf (snapshot.formatVersion != 1 || snapshot.slots.any Policy.hierarchical)
    (PolicyHost.rejection 405 "UNSUPPORTED_OPERATION" "/snapshot")
  pure (snapshotObject snapshot)

def errorJson (error : Error) : Json α :=
  .object
    ([(ascii "code", .string error.code), (ascii "message", .string error.message)] ++
      (error.operationIndex.toList.map fun index =>
        (ascii "operation_index", .unsigned (UInt64.ofNat index))) ++
      [(ascii "path", .string error.path)])

def bindingJson (binding : CreatedBinding) : Json α :=
  .object
    [(ascii "entity_uuid", .string binding.entityUuid),
      (ascii "generation", .unsigned binding.generation),
      (ascii "temporary_id", .string binding.temporaryId),
      (ascii "world_id", .string binding.worldId)]

/-- `receipt_json`. -/
def receiptJson (receipt : Receipt) : Json α :=
  .object
    [(ascii "created", .array (receipt.created.map bindingJson)),
      (ascii "durability", .string receipt.durability),
      (ascii "errors", .array (receipt.errors.map errorJson)),
      (ascii "status", .string receipt.status),
      (ascii "transaction_id", .string receipt.transactionId),
      (ascii "world_revision", .unsigned receipt.worldRevision)]

/-- The answer that carries a snapshot or a receipt. -/
def response (epoch : Text) (nextSequence : UInt64) (name : String) (value : Json α) :
    Json α :=
  .object
    [(ascii "epoch", .string epoch), (ascii "next_sequence", .unsigned nextSequence),
      (ascii "protocol_version", .string (ascii "0.1")), (ascii name, value)]

def seenEntity (entity : Entity α) : Sdk.Entity α where
  prefabId := entity.prefabId
  authoringRevision := entity.authoringRevision.toNat
  transform := entity.transform

def seenSlot (slot : Slot α) : Sdk.Slot α where
  entityUuid := slot.entityUuid
  generation := slot.generation.toNat
  retired := slot.retired
  entity := slot.entity.map seenEntity

def seenSnapshot (snapshot : Snapshot α) : Sdk.Snapshot α where
  formatVersion := snapshot.formatVersion.toNat
  worldId := snapshot.worldId
  seed := snapshot.seed.toNat
  maxSlots := snapshot.maxSlots.toNat
  worldRevision := snapshot.worldRevision.toNat
  slots := snapshot.slots.map seenSlot

def seenError (error : Error) : Sdk.ReceiptError where
  code := error.code
  path := error.path
  message := error.message
  operationIndex := error.operationIndex.map Int.ofNat

def seenBinding (binding : CreatedBinding) : Sdk.CreatedBinding where
  temporaryId := binding.temporaryId
  worldId := binding.worldId
  entityUuid := binding.entityUuid
  generation := binding.generation.toNat

def seenStatus (status : Text) : Sdk.Status :=
  if status = ascii "committed" then .committed else .rejected

def seenReceipt (receipt : Receipt) : Sdk.Receipt where
  status := seenStatus receipt.status
  transactionId := receipt.transactionId
  worldRevision := receipt.worldRevision.toNat
  created := receipt.created.map seenBinding
  errors := receipt.errors.map seenError

section Sending

variable [Scalar α]

open Json

/-- A value that the SDK reads as the host wrote it. -/
structure Sendable (levels : Nat) (value : Json α) : Prop where
  portable : Portable value
  ordered : Ordered value
  shallow : depth value ≤ levels

theorem sendable_null (levels : Nat) : Sendable levels (.null : Json α) :=
  ⟨trivial, trivial, Nat.zero_le _⟩

theorem sendable_boolean (levels : Nat) (value : Bool) :
    Sendable levels (.boolean value : Json α) :=
  ⟨trivial, trivial, Nat.zero_le _⟩

theorem sendable_unsigned (levels : Nat) (value : UInt64) :
    Sendable levels (.unsigned value : Json α) :=
  ⟨trivial, trivial, Nat.zero_le _⟩

theorem sendable_float (levels : Nat) {value : α} (finite : Scalar.isFinite value = true) :
    Sendable levels (.float value) :=
  ⟨finite, trivial, Nat.zero_le _⟩

theorem sendable_string (levels : Nat) {value : Text}
    (letters : value.all printable = true) : Sendable levels (.string value : Json α) :=
  ⟨letters, trivial, Nat.zero_le _⟩

theorem sendable_array {levels : Nat} {items : List (Json α)}
    (each : ∀ item ∈ items, Sendable levels item) : Sendable (levels + 1) (.array items) := by
  have parts : PortableItems items ∧ OrderedItems items ∧ depthItems items ≤ levels := by
    induction items with
    | nil => exact ⟨trivial, trivial, Nat.zero_le _⟩
    | cons item rest inductionHypothesis =>
        have first := each item (List.mem_cons_self ..)
        have others := inductionHypothesis fun later member =>
          each later (List.mem_cons_of_mem _ member)
        exact ⟨⟨first.portable, others.1⟩, ⟨first.ordered, others.2.1⟩,
          max_le first.shallow others.2.2⟩
  exact ⟨parts.1, parts.2.1, Nat.succ_le_succ parts.2.2⟩

theorem sendable_object {levels : Nat} {entries : List (Text × Json α)}
    (sorted : decide ((keys entries).Pairwise (· < ·)) = true)
    (named : (entries.all fun entry => entry.1.all printable) = true)
    (each : entries.Forall fun entry => Sendable levels entry.2) :
    Sendable (levels + 1) (.object entries) := by
  have order := of_decide_eq_true sorted
  rw [List.all_eq_true] at named
  rw [List.forall_iff_forall_mem] at each
  clear sorted
  have parts :
      PortableEntries entries ∧ OrderedEntries entries ∧ depthEntries entries ≤ levels := by
    clear order
    induction entries with
    | nil => exact ⟨trivial, trivial, Nat.zero_le _⟩
    | cons entry rest inductionHypothesis =>
        have first := each entry (List.mem_cons_self ..)
        have others := inductionHypothesis
          (fun later member => named later (List.mem_cons_of_mem _ member))
          (fun later member => each later (List.mem_cons_of_mem _ member))
        exact ⟨⟨named entry (List.mem_cons_self ..), first.portable, others.1⟩,
          ⟨first.ordered, others.2.1⟩, max_le first.shallow others.2.2⟩
  refine ⟨⟨order.imp ?_, parts.1⟩, ⟨order, parts.2.1⟩, Nat.succ_le_succ parts.2.2⟩
  intro first second less same
  exact List.lt_irrefl second (same ▸ less)

theorem Sendable.deeper {levels more : Nat} {value : Json α} (sendable : Sendable levels value)
    (le : levels ≤ more) : Sendable more value :=
  ⟨sendable.portable, sendable.ordered, sendable.shallow.trans le⟩

theorem sendable_floats {values : List α}
    (finite : ∀ value ∈ values, Scalar.isFinite value = true) :
    Sendable 1 (Commands.vectorJson values) := by
  refine sendable_array fun item member => ?_
  obtain ⟨value, held, rfl⟩ := List.mem_map.mp member
  exact sendable_float 0 (finite value held)

end Sending

end Omniweft.Control
