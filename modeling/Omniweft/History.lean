import Omniweft.Library.Timeline
import Omniweft.TransactionsRuns

/-!
# Authoring history

`history::History` keeps up to eight entries of edits and a cursor. An accepted
apply stores the batch with its inverse, captured from the state before it; a
navigation sends a stored batch through the coordinator again.
-/

namespace Omniweft.Authoring

open Omniweft.Outcome World Commands Transactions

def capacity : Nat := 8
def operationLimit : Nat := 4
def envelopeLimit : Nat := 16384

/-- `unlisted` stands for the values a cast can give the enumeration. -/
inductive Action where
  | undo
  | redo
  | rewindSimulation
  | unlisted
  deriving DecidableEq, Repr

structure State where
  entries : Nat
  cursor : Nat
  expectedRevision : UInt64
  deriving DecidableEq, Repr

abbrev Entry (α : Type) := Timeline.Entry (List (Operation α))

def Entry.empty {α : Type} : Entry α := ⟨[], []⟩

/-- The array of entries and the counters of a history. -/
structure History (α : Type) where
  entries : List (Entry α)
  state : State

section Bounds

variable {α : Type}

/-- `rejected`: the refusal of the history itself. -/
def rejected (envelope : Envelope α) (revision : UInt64) (code path : Text) : Receipt where
  status := ascii "rejected"
  durability := ascii "volatile"
  transactionId :=
    if envelope.transactionId.length ≤ 36 then envelope.transactionId else []
  worldRevision := revision
  created := []
  errors := [⟨code, path, ascii "Authoring history request rejected.", none⟩]

def targetBounded : Target → Bool
  | .entity value =>
      decide (value.worldId.length ≤ 128) && decide (value.entityUuid.length ≤ 36)
  | .temporary value => decide (value.temporaryId.length ≤ 64)

def operationBounded : Operation α → Bool
  | .entityCreate value =>
      decide (value.temporaryId.length ≤ 64) && decide (value.prefabId.length ≤ 128)
  | .transformSet value => targetBounded value.target
  | .entityTagsSet value =>
      targetBounded value.target && decide (value.tags.length ≤ 8) &&
        value.tags.all fun tag => decide (tag.length ≤ 32)
  | .entityReparent value =>
      targetBounded value.target && decide (value.mode.length ≤ 32) &&
        value.parent.all targetBounded
  | .entityDelete value =>
      targetBounded value.target && decide (value.childPolicy.length ≤ 32)

def bounded (envelope : Envelope α) : Bool :=
  decide (envelope.protocolVersion.length ≤ 16) &&
    decide (envelope.worldId.length ≤ 128) &&
    decide (envelope.transactionId.length ≤ 36) &&
    decide (envelope.idempotency.epoch.length ≤ 128) &&
    decide (envelope.applyAt.mode.length ≤ 32) &&
    decide (envelope.operations.length ≤ operationLimit) &&
    envelope.operations.all operationBounded

/-- `resolve`: the live slot an entity target names. -/
def resolve (state : Snapshot α) : Target → Option (Slot α × Entity α)
  | .temporary _ => none
  | .entity identity =>
      if identity.worldId != state.worldId then none
      else
        (state.slots.find? fun slot =>
            slot.entityUuid == identity.entityUuid &&
              slot.generation == identity.generation && slot.entity.isSome &&
              !slot.retired).bind
          fun slot => slot.entity.map fun entity => (slot, entity)

/-- `isolated`: neither a child nor a parent. -/
def isolated (state : Snapshot α) (slot : Slot α) (entity : Entity α) : Bool :=
  entity.parent.isNone && !hasChildren state slot

/-- What the loop of `apply_at_boundary` appends for one operation; the error is
the code and the path of the refusal. -/
def capture (before : Snapshot α) :
    Operation α → Except (Text × Text) (Operation α)
  | .transformSet transform =>
      match resolve before transform.target with
      | none => .error (ascii "STALE_HANDLE", ascii "/operations/target")
      | some (slot, entity) =>
          if isolated before slot entity then
            .ok (.transformSet
              ⟨transform.target, entity.transform.positionM,
                entity.transform.rotationXyzw, entity.transform.scale⟩)
          else .error (ascii "UNSUPPORTED_OPERATION", ascii "/operations")
  | .entityTagsSet tags =>
      match resolve before tags.target with
      | none => .error (ascii "STALE_HANDLE", ascii "/operations/target")
      | some (_, entity) => .ok (.entityTagsSet ⟨tags.target, entity.tags⟩)
  | _ => .error (ascii "UNSUPPORTED_OPERATION", ascii "/operations")

def captureAll (before : Snapshot α) :
    List (Operation α) → Except (Text × Text) (List (Operation α))
  | [] => .ok []
  | operation :: rest => do
      let inverse ← capture before operation
      let inverses ← captureAll before rest
      pure (inverse :: inverses)

end Bounds

section Boundary

variable {α σ : Type} [Scalar α]

/-- `serialize` and the size limit, with the refusal of either. -/
def serialized (library : JsonLibrary α) (envelope : Envelope α)
    (malformed oversized : Text × Text) : Except (Text × Text) Unit :=
  match serialize library envelope with
  | .error _ => .error malformed
  | .ok json => rejectIf (decide (envelopeLimit < json.length)) oversized

/-- Everything `apply_at_boundary` does before the coordinator: the refusal, or
the entry it will store. -/
def prepare (library : JsonLibrary α) (world : LiveWorld α) (history : History α)
    (envelope : Envelope α) : Except (Text × Text) (Entry α) := do
  let before := world.state
  let budget := (ascii "BUDGET_EXCEEDED", ascii "/history/budget")
  rejectIf (!bounded envelope) budget
  rejectIf
    (envelope.expectedWorldRevision != before.worldRevision ||
      history.state.expectedRevision != before.worldRevision)
    (ascii "REVISION_CONFLICT", ascii "/expected_world_revision")
  rejectIf envelope.operations.isEmpty (ascii "INVALID_SCHEMA", ascii "/operations")
  rejectIf
    (decide (envelope.budget.maxOperations.toNat < envelope.operations.length))
    (ascii "BUDGET_EXCEEDED", ascii "/budget/max_operations")
  serialized library envelope (ascii "INVALID_SCHEMA", ascii "/history/envelope") budget
  rejectIf (history.state.cursor == capacity)
    (ascii "BUDGET_EXCEEDED", ascii "/history")
  let inverses ← captureAll before envelope.operations
  let inverse : Envelope α := { envelope with operations := inverses.reverse }
  rejectIf (!bounded inverse) budget
  serialized library inverse budget budget
  pure ⟨envelope.operations, inverses.reverse⟩

/-- Everything `navigate_at_boundary` does before the coordinator: the refusal,
or the stored operations it will send. -/
def select (library : JsonLibrary α) (world : LiveWorld α) (history : History α)
    (action : Action) (request : Envelope α) :
    Except (Text × Text) (List (Operation α)) := do
  let live := world.state
  let budget := (ascii "BUDGET_EXCEEDED", ascii "/history/budget")
  rejectIf (!bounded request) budget
  rejectIf (!request.operations.isEmpty) (ascii "INVALID_SCHEMA", ascii "/operations")
  rejectIf (action != .undo && action != .redo)
    (ascii "UNSUPPORTED_OPERATION", ascii "/history/action")
  rejectIf
    (request.expectedWorldRevision != live.worldRevision ||
      history.state.expectedRevision != live.worldRevision)
    (ascii "REVISION_CONFLICT", ascii "/expected_world_revision")
  rejectIf
    ((action == .undo && history.state.cursor == 0) ||
      (action == .redo && history.state.cursor == history.state.entries))
    (ascii "NOT_FOUND", ascii "/history")
  let place :=
    if action == .undo then history.state.cursor - 1 else history.state.cursor
  let entry := history.entries[place]?.getD Entry.empty
  let operations := if action == .undo then entry.inverse else entry.forward
  rejectIf (decide (request.budget.maxOperations.toNat < operations.length))
    (ascii "BUDGET_EXCEEDED", ascii "/budget/max_operations")
  serialized library { request with operations := operations }
    (ascii "INVALID_SCHEMA", ascii "/history/envelope") budget
  pure operations

/-- What one call of the history leaves behind. -/
structure Applied (α σ : Type) where
  result : Except Thrown Receipt
  world : LiveWorld α
  history : History α
  guard : σ

def construct (world : LiveWorld α) : History α :=
  ⟨List.replicate capacity Entry.empty, ⟨0, 0, world.state.worldRevision⟩⟩

def clearAtBoundary (world : LiveWorld α) : History α :=
  ⟨List.replicate capacity Entry.empty, ⟨0, 0, world.state.worldRevision⟩⟩

/-- The entry goes to the cursor and everything after it is emptied. -/
def record (history : History α) (entry : Entry α) (revision : UInt64) : History α :=
  let cursor := history.state.cursor + 1
  { entries :=
      (history.entries.set history.state.cursor entry).mapIdx fun place stored =>
        if cursor ≤ place ∧ place < history.state.entries then Entry.empty else stored
    state := ⟨cursor, cursor, revision⟩ }

def move (history : History α) (action : Action) (revision : UInt64) : History α :=
  { history with
    state :=
      { history.state with
        cursor :=
          if action == .undo then history.state.cursor - 1
          else history.state.cursor + 1
        expectedRevision := revision } }

/-- The coordinator's answer, with the history it leads to when committed. -/
def settle (applied : Transactions.Applied α σ Unit) (history : History α)
    (advance : UInt64 → History α) : Applied α σ where
  result := applied.result
  world := applied.world
  history :=
    match applied.result with
    | .ok receipt =>
        if receipt.status == ascii "committed" then advance receipt.worldRevision
        else history
    | .error _ => history
  guard := applied.guard

def applyAtBoundary (library : JsonLibrary α) (world : LiveWorld α)
    (history : History α) (envelope : Envelope α)
    (guard : Option (StagingGuard α σ)) (guardState : σ) : Applied α σ :=
  match prepare library world history envelope with
  | .error (code, path) =>
      ⟨.ok (rejected envelope world.state.worldRevision code path), world, history,
        guardState⟩
  | .ok entry =>
      settle
        (Transactions.applyAtBoundary library world envelope guard none guardState ())
        history (record history entry)

def navigateAtBoundary (library : JsonLibrary α) (world : LiveWorld α)
    (history : History α) (action : Action) (request : Envelope α)
    (guard : Option (StagingGuard α σ)) (guardState : σ) : Applied α σ :=
  match select library world history action request with
  | .error (code, path) =>
      ⟨.ok (rejected request world.state.worldRevision code path), world, history,
        guardState⟩
  | .ok operations =>
      settle
        (Transactions.applyAtBoundary library world
          { request with operations := operations } guard none guardState ())
        history (move history action)

end Boundary
end Omniweft.Authoring
