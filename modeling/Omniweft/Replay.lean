import Omniweft.History

/-!
# Recorded authoring

`replay.cpp`: a recorder keeps the committed batches of one small world and
`reconstruct` builds the world again from them. The batches are replayed under
envelopes of the replay's own; the recorded mappings and checkpoints must agree.
-/

namespace Omniweft.Replay

open Omniweft.Outcome World Commands Transactions

def entryLimit : Nat := 8
def operationLimit : Nat := 4
def commandLimit : Nat := 16384
def checkpointLimit : Nat := 8192

def builtinManifest : Text :=
  ascii "\x7b\"schema\":1,\"prefab\":\"builtin.unit_cube\",\"revision\":1,\"faces_m\":[[[0.5," ++
    ascii "-0.5,-0.5],[0.5,0.5,-0.5],[0.5,0.5,0.5],[0.5,-0.5,0.5]],[[-0.5,-0.5,0.5],[-0.5,0.5," ++
    ascii "0.5],[-0.5,0.5,-0.5],[-0.5,-0.5,-0.5]],[[-0.5,0.5,-0.5],[-0.5,0.5,0.5],[0.5,0.5," ++
    ascii "0.5],[0.5,0.5,-0.5]],[[-0.5,-0.5,0.5],[-0.5,-0.5,-0.5],[0.5,-0.5,-0.5],[0.5,-0.5," ++
    ascii "0.5]],[[-0.5,-0.5,0.5],[0.5,-0.5,0.5],[0.5,0.5,0.5],[-0.5,0.5,0.5]],[[0.5,-0.5," ++
    ascii "-0.5],[-0.5,-0.5,-0.5],[-0.5,0.5,-0.5],[0.5,0.5,-0.5]]],\"face_rgba8\":[[255,64,64," ++
    ascii "255],[128,32,32,255],[64,255,64,255],[32,128,32,255],[64,64,255,255],[32,32,128," ++
    ascii "255]],\"face_triangles\":[0,1,2,2,3,0]\x7d"

def builtinSha256 : Text :=
  ascii "d2af4f6d7d72763bdb9c693423e2ac2d29927f3c7a44f1d45180268e9f9fbd69"

structure Asset where
  prefabId : Text
  revision : UInt32
  manifest : Text
  contentSha256 : Text
  deriving DecidableEq, Repr

/-- The value `Asset{}` has. -/
def Asset.builtin : Asset :=
  ⟨ascii "builtin.unit_cube", 1, builtinManifest, builtinSha256⟩

structure Record (α : Type) where
  sequence : UInt64
  boundaryTick : UInt64
  expectedRevision : UInt64
  budget : Budget
  operations : List (Operation α)
  created : List CreatedBinding
  checkpoint : Bytes
  deriving DecidableEq, Repr

structure Log (α : Type) where
  schema : UInt32
  commandSchema : Text
  checkpointSchema : Text
  worldId : Text
  seed : UInt32
  maxSlots : UInt32
  assets : List Asset
  records : List (Record α)
  deriving DecidableEq, Repr

/-- The members that `Log{}` starts with around a world's own. -/
def Log.of {α : Type} (worldId : Text) (seed maxSlots : UInt32)
    (records : List (Record α)) : Log α where
  schema := 1
  commandSchema := ascii "0.1"
  checkpointSchema := ascii "OWOBJ001-003"
  worldId := worldId
  seed := seed
  maxSlots := maxSlots
  assets := [Asset.builtin]
  records := records

structure Result (α : Type) where
  world : Option (LiveWorld α)
  errors : List Error
  deriving DecidableEq, Repr

/-- `fail`: what the replay throws. -/
def fail (code path : String) : Error :=
  failure code (ascii path) "Recorded authoring replay rejected." none

section Bounds

variable {α : Type}

def rejected (envelope : Envelope α) (revision : UInt64) (code path : String) :
    Receipt where
  status := ascii "rejected"
  durability := ascii "volatile"
  transactionId :=
    if envelope.transactionId.length ≤ 36 then envelope.transactionId else []
  worldRevision := revision
  created := []
  errors := [fail code path]

/-- `bounded` is the test of the history, written out again. -/
def bounded (envelope : Envelope α) : Bool :=
  Authoring.bounded envelope

def operationsBounded (operations : List (Operation α)) : Bool :=
  decide (operations.length ≤ operationLimit) &&
    operations.all Authoring.operationBounded

/-- The envelope a record is replayed under. -/
def envelope (log : Log α) (record : Record α) : Envelope α where
  protocolVersion := ascii "0.1"
  worldId := log.worldId
  transactionId :=
    ascii "018f7242-4387-7c98-a114-00000013000" ++ decimal record.sequence.toNat
  idempotency := ⟨ascii "offline-replay-internal", record.sequence⟩
  expectedWorldRevision := record.expectedRevision
  applyAt := ⟨ascii "next_tick", 120⟩
  budget := record.budget
  operations := record.operations

def foreignPrefab : Operation α → Bool
  | .entityCreate create => create.prefabId != ascii "builtin.unit_cube"
  | _ => false

def malformedBinding (binding : CreatedBinding) : Bool :=
  decide (64 < binding.temporaryId.length) || decide (128 < binding.worldId.length) ||
    binding.entityUuid.length != 36 || binding.generation == 0

end Bounds

section Replaying

variable {α : Type} [Scalar α]

/-- One round of the loop of `preflight`. -/
def preflightRecord (library : JsonLibrary α) (log : Log α) (index : Nat)
    (tick : UInt64) (record : Record α) : Except Error Unit := do
  rejectIf
    (record.sequence.toNat != index + 1 || record.expectedRevision.toNat != index ||
      decide (record.boundaryTick < tick))
    (fail "INVALID_REPLAY" "/order")
  rejectIf
    (record.checkpoint.isEmpty || decide (checkpointLimit < record.checkpoint.length) ||
      decide (operationLimit < record.created.length) || record.operations.isEmpty ||
      !operationsBounded record.operations)
    (fail "BUDGET_EXCEEDED" "/records")
  rejectIf (record.created.any malformedBinding) (fail "INVALID_REPLAY" "/created")
  rejectIf (record.operations.any foreignPrefab)
    (fail "MISSING_ASSET" "/operations/prefab")
  match serialize library (envelope log record) with
  | .error _ => .error (fail "INVALID_REPLAY" "/operations")
  | .ok json =>
      rejectIf (decide (commandLimit < json.length)) (fail "BUDGET_EXCEEDED" "/command")

def preflightRecords (library : JsonLibrary α) (log : Log α) :
    Nat → UInt64 → List (Record α) → Except Error Unit
  | _, _, [] => .ok ()
  | index, tick, record :: rest => do
      preflightRecord library log index tick record
      preflightRecords library log (index + 1) record.boundaryTick rest

def preflight (library : JsonLibrary α) (log : Log α) (available : List Asset) :
    Except Error Unit := do
  rejectIf
    (log.schema != 1 || log.commandSchema != ascii "0.1" ||
      log.checkpointSchema != ascii "OWOBJ001-003")
    (fail "UNSUPPORTED_SCHEMA" "/schema")
  rejectIf
    (log.worldId.isEmpty || decide (128 < log.worldId.length) || log.maxSlots == 0 ||
      decide (8 < log.maxSlots) || decide (entryLimit < log.records.length) ||
      decide (8 < available.length))
    (fail "BUDGET_EXCEEDED" "/log")
  rejectIf (log.assets != [Asset.builtin]) (fail "MISSING_ASSET" "/assets")
  rejectIf (!available.contains Asset.builtin) (fail "MISSING_ASSET" "/assets")
  preflightRecords library log 0 0 log.records

/-- One round of the loop of `reconstruct`. -/
def replayRecord (library : JsonLibrary α) (log : Log α) (world : LiveWorld α)
    (record : Record α) : Except Thrown (LiveWorld α) :=
  let applied := replayAtBoundary library world (envelope log record) record.created
  match applied.result with
  | .error thrown => .error thrown
  | .ok receipt => do
      rejectIf
        (receipt.status != ascii "committed" || receipt.created != record.created)
        (.error (fail "INVALID_REPLAY" "/created"))
      rejectIf (canonicalBytes applied.world.state != record.checkpoint)
        (.error (fail "CHECKPOINT_MISMATCH" "/checkpoint"))
      return applied.world

/-- The `try` block of `reconstruct`. Nothing compares the address of the
private world. -/
def rebuild (library : JsonLibrary α) (log : Log α) (available : List Asset) :
    Except Thrown (LiveWorld α) := do
  (preflight library log available).mapError Thrown.error
  let fresh ← (World.create log.worldId log.seed log.maxSlots).mapError
    fun _ => Thrown.error (fail "INVALID_REPLAY" "/world_id")
  log.records.foldlM (replayRecord library log) ⟨0, fresh⟩

/-- `reconstruct`: the outer error is an exception that passes through it. -/
def reconstruct (library : JsonLibrary α) (log : Log α) (available : List Asset) :
    Except Thrown (Result α) :=
  match rebuild library log available with
  | .ok world => .ok ⟨some world, []⟩
  | .error (.error error) => .ok ⟨none, [error]⟩
  | .error thrown => .error thrown

end Replaying

/-- The records in use and the head; the world it records stands beside it. -/
structure Recorder (α : Type) where
  records : List (Record α)
  head : UInt64

section Recording

variable {α σ : Type}

/-- `Recorder::Recorder`. -/
def Recorder.create (world : LiveWorld α) : Except Error (Recorder α) := do
  rejectIf
    (world.state.worldRevision != 0 || !world.state.slots.isEmpty ||
      decide (8 < world.state.maxSlots))
    (fail "INVALID_REPLAY" "/initial_world")
  return ⟨[], 0⟩

/-- The record under preparation beside the recorder that will take it. -/
structure Recording (α : Type) where
  prepared : Record α
  recorder : Recorder α

variable [Scalar α]

/-- `Observer`. -/
def observer : CommitObserver α (Recording α) where
  prepare staged receipt := do
    modify fun recording =>
      { recording with
        prepared :=
          { recording.prepared with
            created := receipt.created, checkpoint := canonicalBytes staged } }
    check <| rejectIf (decide (checkpointLimit < (canonicalBytes staged).length))
      (fail "BUDGET_EXCEEDED" "/checkpoint")
  publish recording :=
    { recording with
      recorder :=
        ⟨recording.recorder.records ++ [recording.prepared],
          recording.recorder.head + 1⟩ }

/-- The checks in front of the coordinator: the refusal, or the record that
`apply_at_boundary` starts to fill. -/
def Recorder.admit (library : JsonLibrary α) (recorder : Recorder α)
    (world : LiveWorld α) (envelope : Envelope α) (tick : UInt64) :
    Except (String × String) (Record α) := do
  let live := world.state.worldRevision
  rejectIf (!bounded envelope) ("BUDGET_EXCEEDED", "/command")
  rejectIf (live != recorder.head || envelope.expectedWorldRevision != live)
    ("REVISION_CONFLICT", "/expected_world_revision")
  rejectIf (recorder.records.length == entryLimit) ("BUDGET_EXCEEDED", "/records")
  rejectIf (recorder.records.getLast?.any fun last => decide (tick < last.boundaryTick))
    ("INVALID_REPLAY", "/boundary_tick")
  match serialize library envelope with
  | .error _ => .error ("INVALID_SCHEMA", "/command")
  | .ok json => rejectIf (decide (commandLimit < json.length)) ("BUDGET_EXCEEDED", "/command")
  return {
    sequence := UInt64.ofNat (recorder.records.length + 1)
    boundaryTick := tick
    expectedRevision := recorder.head
    budget := envelope.budget
    operations := envelope.operations
    created := []
    checkpoint := [] }

/-- `Recorder::apply_at_boundary`. -/
def Recorder.applyAtBoundary (library : JsonLibrary α) (recorder : Recorder α)
    (world : LiveWorld α) (envelope : Envelope α) (tick : UInt64)
    (guard : Option (StagingGuard α σ)) (guardState : σ) :
    Applied α σ (Recorder α) :=
  match recorder.admit library world envelope tick with
  | .error (code, path) =>
      { result := .ok (rejected envelope world.state.worldRevision code path)
        world := world
        guard := guardState
        observer := recorder }
  | .ok prepared =>
      let applied :=
        Transactions.applyAtBoundary library world envelope guard (some observer)
          guardState ⟨prepared, recorder⟩
      { result := applied.result
        world := applied.world
        guard := applied.guard
        observer := applied.observer.recorder }

/-- `Recorder::export_log`. -/
def Recorder.exportLog (recorder : Recorder α) (world : LiveWorld α) :
    Except Error (Log α) := do
  rejectIf (world.state.worldRevision != recorder.head)
    (fail "REVISION_CONFLICT" "/expected_world_revision")
  return .of world.state.worldId world.state.seed world.state.maxSlots recorder.records

end Recording
end Omniweft.Replay
