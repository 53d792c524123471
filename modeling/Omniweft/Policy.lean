import Omniweft.Transactions

/-!
# The policy guard

Two principals share one workshop world. Each has a region it may write and
limits on what it may retain. The guard watches a staged batch for one
principal and keeps the ledger of who sponsors which slot.
-/

namespace Omniweft.Policy

open Omniweft.Outcome World Commands Transactions

def principalCount : Nat := 2
def slotCount : Nat := 8
def bodyLimit : Nat := 16384
def operationLimit : Nat := 4
def skeletonCharge : Nat := 128
def cubeCharge : Nat := 256

abbrev Principal := Fin principalCount

/-- A `std::array` over the slots of the fixture. -/
abbrev PerSlot (β : Type) := Fin slotCount → β

abbrev PerPrincipal (β : Type) := Principal → β

/-- A grant without its name and its observation limit. -/
structure Grant where
  lower : Vec3 Int
  upper : Vec3 Int
  retainedLimit : Nat
  workingLimit : Nat
  deriving DecidableEq, Repr

/-- `grants`: west, then east. -/
def grants (principal : Principal) : Grant :=
  if principal.val = 0 then ⟨⟨-8, -4, -4⟩, ⟨-1, 4, 4⟩, 512, 98304⟩
  else ⟨⟨1, -4, -4⟩, ⟨8, 4, 4⟩, 2048, 262144⟩

structure Denied where
  code : Text
  path : Text
  deriving DecidableEq, Repr

/-- `grant`: the principal an index names. -/
def grant (principal : Nat) : Except Denied Principal :=
  if known : principal < principalCount then .ok ⟨principal, known⟩
  else .error ⟨ascii "NOT_AUTHORIZED", ascii "/principal"⟩

def reserved (bytes : Nat) : Nat :=
  65536 + 1024 * slotCount + 8 * bytes

def workingCharge (bytes : Nat) : Except Denied Nat :=
  if bodyLimit < bytes then .error ⟨ascii "BUDGET_EXCEEDED", ascii "/body"⟩
  else .ok (reserved bytes)

section Fields

variable {α : Type}

def addField (total : Nat) (value : Text) : Except Error Nat := do
  rejectIf (decide (bodyLimit < value.length) || decide (bodyLimit - value.length < total))
    (failure "BUDGET_EXCEEDED" (ascii "/budget")
      "Typed input exceeds the policy body allowance." none)
  pure (total + value.length)

def targetFields : Target → List Text
  | .temporary target => [target.temporaryId]
  | .entity target => [target.worldId, target.entityUuid]

def operationFields : Operation α → List Text
  | .entityCreate operation => [operation.temporaryId, operation.prefabId]
  | .transformSet operation => targetFields operation.target
  | .entityDelete operation => targetFields operation.target ++ [operation.childPolicy]
  | .entityReparent operation => targetFields operation.target
  | .entityTagsSet operation => targetFields operation.target

/-- The operations the policy admits. -/
def supported : Operation α → Bool
  | .entityReparent _ => false
  | .entityTagsSet _ => false
  | _ => true

/-- `field_bytes`: the text an envelope stores, or why it is not admitted. -/
def fieldBytes (envelope : Envelope α) : Except Error Nat := do
  rejectIf
    (decide (operationLimit < envelope.operations.length) ||
      decide (envelope.budget.maxOperations.toNat < envelope.operations.length))
    (failure "BUDGET_EXCEEDED" (ascii "/operations") "Operation allowance exceeded." none)
  rejectIf (envelope.operations.any fun operation => !supported operation)
    (failure "UNSUPPORTED_OPERATION" (ascii "/operations")
      "Native metadata or hierarchy is not admitted by this policy." none)
  ([envelope.protocolVersion, envelope.worldId, envelope.transactionId,
      envelope.idempotency.epoch, envelope.applyAt.mode] ++
    envelope.operations.flatMap operationFields).foldlM addField 0

end Fields

structure Usage where
  retained : PerPrincipal Nat
  working : PerPrincipal Nat
  requests : PerPrincipal Nat
  globalRequests : Nat
  worldRevision : UInt64

/-- `sponsors` is empty for a slot the world has not made yet; `world` is the
address of the world the ledger is bound to. -/
structure Ledger where
  usage : Usage
  sponsors : PerSlot (Option Principal)
  live : PerSlot Bool
  world : Option Nat
  globalLimit : Nat

/-- `Ledger::Ledger`. The error is the exception's text. -/
def Ledger.create (globalLimit : Nat) : Except Text Ledger :=
  if globalLimit < 1 ∨ 2 < globalLimit then .error (ascii "INVALID_POLICY_LIMIT")
  else
    .ok
      { usage := ⟨fun _ => 0, fun _ => 0, fun _ => 0, 0, 0⟩
        sponsors := fun _ => none
        live := fun _ => false
        world := none
        globalLimit := globalLimit }

structure Lease where
  principal : Principal
  bytes : Nat
  claimed : Bool

def admitLease (ledger : Ledger) (principal declaredBytes : Nat) :
    Except Denied (Lease × Ledger) := do
  let principal ← grant principal
  let charge ← workingCharge declaredBytes
  let usage := ledger.usage
  rejectIf
    (decide (1 ≤ usage.requests principal) ||
      decide (ledger.globalLimit ≤ usage.globalRequests))
    ⟨ascii "BUDGET_EXCEEDED", ascii "/queue"⟩
  rejectIf (decide ((grants principal).workingLimit - usage.working principal < charge))
    ⟨ascii "BUDGET_EXCEEDED", ascii "/memory/working"⟩
  pure
    (⟨principal, declaredBytes, false⟩,
      { ledger with
        usage :=
          { usage with
            working :=
              Function.update usage.working principal (usage.working principal + charge)
            requests :=
              Function.update usage.requests principal (usage.requests principal + 1)
            globalRequests := usage.globalRequests + 1 } })

/-- `Lease::~Lease`: the reservation is given back. -/
def refund (ledger : Ledger) (lease : Lease) : Ledger :=
  let usage := ledger.usage
  let principal := lease.principal
  { ledger with
    usage :=
      { usage with
        working :=
          Function.update usage.working principal
            (usage.working principal - reserved lease.bytes)
        requests := Function.update usage.requests principal (usage.requests principal - 1)
        globalRequests := usage.globalRequests - 1 } }

/-- A guard with the lease and the ledger it refers to. -/
structure Guard where
  ledger : Ledger
  lease : Lease
  sponsors : PerSlot (Option Principal)
  live : PerSlot Bool
  unplaced : PerSlot Bool
  retained : PerPrincipal Nat
  begun : Bool
  finished : Bool

def Guard.create (ledger : Ledger) (lease : Lease) : Guard where
  ledger := ledger
  lease := lease
  sponsors := fun _ => none
  live := fun _ => false
  unplaced := fun _ => false
  retained := fun _ => 0
  begun := false
  finished := false

section Guards

variable {α : Type} [Scalar α]

def verify (computation : Except Error Unit) : EStateM Thrown Guard Unit :=
  attempt Thrown.error computation

/-- A slot with a parent link or tags, which the policy does not know. -/
def hierarchical (slot : Slot α) : Bool :=
  slotHasParent slot || slotHasTags slot

/-- The slot accounting of the ledger against that of the world. -/
def accountsAgree (ledger : Ledger) (slots : List (Slot α)) : Bool :=
  (List.finRange slotCount).all fun slot =>
    (ledger.sponsors slot).isSome == decide (slot.val < slots.length) &&
      ledger.live slot == (slots[slot.val]?.bind Slot.entity).isSome

/-- `Guard::begin`. -/
def begin (world : LiveWorld α) (envelope : Envelope α) : EStateM Thrown Guard Unit := do
  let guard ← get
  let state := world.state
  verify <| rejectIf (guard.begun || guard.lease.claimed)
    (failure "NOT_AUTHORIZED" (ascii "/policy") "A live unused admission is required." none)
  set { guard with begun := true, lease := { guard.lease with claimed := true } }
  let bytes ← attempt Thrown.error (fieldBytes envelope)
  verify <| rejectIf (state.formatVersion != 1 || state.slots.any hierarchical)
    (failure "UNSUPPORTED_OPERATION" (ascii "/policy")
      "Tagged or hierarchical worlds require a compatible policy." none)
  verify <| rejectIf (decide (guard.lease.bytes < bytes))
    (failure "BUDGET_EXCEEDED" (ascii "/memory/working")
      "Typed fields exceed the reserved body allowance." none)
  verify <| rejectIf
    (guard.ledger.world.any (fun bound => bound != world.address) ||
      state.worldId != ascii "workshop" || state.seed != 7 ||
      state.maxSlots.toNat != slotCount || decide (slotCount < state.slots.length) ||
      state.worldRevision != guard.ledger.usage.worldRevision)
    (failure "REQUIRES_RESYNC" (ascii "/policy")
      "World and policy ledger must share the fixture boundary." none)
  verify <| rejectIf (!accountsAgree guard.ledger state.slots)
    (failure "REQUIRES_RESYNC" (ascii "/policy")
      "World and policy slot accounting differ." none)
  modify fun guard =>
    { guard with
      ledger := { guard.ledger with world := some world.address }
      sponsors := guard.ledger.sponsors
      live := guard.ledger.live
      retained := guard.ledger.usage.retained }

/-- What the slots of a principal cost it. -/
def charge (sponsors : PerSlot (Option Principal)) (live : PerSlot Bool)
    (principal : Principal) : Nat :=
  ((List.finRange slotCount).map fun slot =>
    if sponsors slot = some principal then
      skeletonCharge + if live slot then cubeCharge else 0
    else 0).sum

/-- `Guard::account`. -/
def account (operation : Nat) : EStateM Thrown Guard Unit := do
  let guard ← get
  let retained := charge guard.sponsors guard.live
  set { guard with retained := retained }
  verify <| rejectIf
    ((List.finRange principalCount).any fun principal =>
      decide ((grants principal).retainedLimit < retained principal))
    (failure "BUDGET_EXCEEDED" (ascii "/memory/retained")
      "Staging prefix exceeds retained resource allowance." operation)

/-- The rows of the rotation matrix of a quaternion. -/
def rotation (q : Quat α) : Vec3 (Vec3 α) :=
  let one : α := Scalar.ofInt 1
  let two : α := Scalar.ofInt 2
  { x := ⟨one - two * (q.y * q.y + q.z * q.z), two * (q.x * q.y - q.z * q.w),
      two * (q.x * q.z + q.y * q.w)⟩
    y := ⟨two * (q.x * q.y + q.z * q.w), one - two * (q.x * q.x + q.z * q.z),
      two * (q.y * q.z - q.x * q.w)⟩
    z := ⟨two * (q.x * q.z - q.y * q.w), two * (q.y * q.z + q.x * q.w),
      one - two * (q.x * q.x + q.y * q.y)⟩ }

/-- The extent of the scaled and turned unit cube from its centre along an axis. -/
def radius (row scale : Vec3 α) : α :=
  Scalar.ofInt 0 + Scalar.abs (row.x * scale.x) * Scalar.half +
    Scalar.abs (row.y * scale.y) * Scalar.half +
    Scalar.abs (row.z * scale.z) * Scalar.half

/-- One axis of the bounds check. -/
def axisFits (position extent : α) (lowest highest : Int) : Bool :=
  let lower := position - extent
  let upper := position + extent
  Scalar.isFinite lower && Scalar.isFinite upper &&
    !Scalar.lt lower (Scalar.ofInt lowest) && !Scalar.lt (Scalar.ofInt highest) upper

/-- The complete cube bounds lie in the write region of the principal. -/
def fits (principal : Principal) (transform : Transform α) : Bool :=
  let bounds := grants principal
  let rows := rotation transform.rotationXyzw
  let centre := transform.positionM
  axisFits centre.x (radius rows.x transform.scale) bounds.lower.x bounds.upper.x &&
    axisFits centre.y (radius rows.y transform.scale) bounds.lower.y bounds.upper.y &&
    axisFits centre.z (radius rows.z transform.scale) bounds.lower.z bounds.upper.z

/-- `Guard::scope`. -/
def scope (transform : Transform α) (operation : Nat) : EStateM Thrown Guard Unit := do
  let guard ← get
  verify <| rejectIf (!fits guard.lease.principal transform)
    (failure "NOT_AUTHORIZED" (ascii "/scope")
      "Complete cube bounds must fit the host-issued write region." operation)

/-- An index into the arrays of the guard. The source does not check the index
of a transform or an erase: the coordinator passes slots that a create made. -/
def index (slot : Nat) : EStateM Thrown Guard (Fin slotCount) :=
  if inside : slot < slotCount then pure ⟨slot, inside⟩ else throw Thrown.other

/-- `Guard::create`. -/
def create (slot operation : Nat) : EStateM Thrown Guard Unit := do
  verify <| rejectIf (decide (slotCount ≤ slot))
    (failure "BUDGET_EXCEEDED" (ascii "/slots") "Slot allowance exceeded." operation)
  let slot ← index slot
  modify fun guard =>
    { guard with
      sponsors := Function.update guard.sponsors slot (some guard.lease.principal)
      live := Function.update guard.live slot true
      unplaced := Function.update guard.unplaced slot true }
  account operation

/-- The check of `transform` and `erase` on what is there now. -/
def scopeBefore (slot : Fin slotCount) (before : Transform α) (operation : Nat) :
    EStateM Thrown Guard Unit := do
  let guard ← get
  if guard.unplaced slot then pure () else scope before operation

/-- `Guard::transform`. -/
def transform (slot : Nat) (before after : Transform α) (operation : Nat) :
    EStateM Thrown Guard Unit := do
  let slot ← index slot
  scopeBefore slot before operation
  scope after operation
  modify fun guard =>
    { guard with unplaced := Function.update guard.unplaced slot false }

/-- `Guard::erase`. -/
def erase (slot : Nat) (before : Transform α) (operation : Nat) :
    EStateM Thrown Guard Unit := do
  let slot ← index slot
  scopeBefore slot before operation
  modify fun guard =>
    { guard with
      live := Function.update guard.live slot false
      unplaced := Function.update guard.unplaced slot false }
  account operation

/-- `Guard::finish`. -/
def finish (_ : Snapshot α) : EStateM Thrown Guard Unit := do
  let guard ← get
  verify <| rejectIf ((List.finRange slotCount).any guard.unplaced)
    (failure "NOT_AUTHORIZED" (ascii "/scope")
      "Every surviving created cube must be explicitly placed." none)
  modify fun guard => { guard with finished := true }

/-- `Guard::commit`. The source terminates when the guard is not finished. -/
def commit (guard : Guard) : Guard :=
  if guard.begun && guard.finished then
    { guard with
      ledger :=
        { guard.ledger with
          sponsors := guard.sponsors
          live := guard.live
          usage :=
            { guard.ledger.usage with
              retained := guard.retained
              worldRevision := guard.ledger.usage.worldRevision + 1 } } }
  else guard

/-- The guard as the coordinator's hook. -/
def hook : StagingGuard α Guard where
  begin := begin
  create := create
  transform := transform
  erase := erase
  finish := finish
  commit := commit

/-- What one boundary call leaves behind. -/
structure Answered (α : Type) where
  result : Except Thrown Receipt
  world : LiveWorld α
  ledger : Ledger

/-- The receipt of a call that was refused before the coordinator. -/
def refusal (envelope : Envelope α) (ledger : Ledger) (error : Error) : Receipt where
  status := ascii "rejected"
  durability := ascii "volatile"
  transactionId :=
    if envelope.transactionId.length ≤ 128 then envelope.transactionId else []
  worldRevision := ledger.usage.worldRevision
  created := []
  errors := [error]

/-- `policy::apply`. -/
def apply (library : JsonLibrary α) (world : LiveWorld α) (envelope : Envelope α)
    (ledger : Ledger) (principal : Nat) : Answered α :=
  match fieldBytes envelope with
  | .error error => ⟨.ok (refusal envelope ledger error), world, ledger⟩
  | .ok bytes =>
      match admitLease ledger principal bytes with
      | .error denied =>
          ⟨.ok (refusal envelope ledger
              ⟨denied.code, denied.path, ascii "Policy admission denied.", none⟩),
            world, ledger⟩
      | .ok (lease, admitted) =>
          let applied :=
            applyAtBoundary library world envelope (some hook)
              (none : Option (CommitObserver α Unit)) (Guard.create admitted lease) ()
          ⟨applied.result, applied.world, refund applied.guard.ledger lease⟩

end Guards
end Omniweft.Policy
