import Omniweft.PolicyStatus
import Omniweft.Runtime
import Mathlib.Data.List.Infix

/-!
# The retrying client

`RetryPolicyClient` holds its lock over a whole method, so a client is in at most one
method at a time, and there between two of its requests. What the host or the network
makes of a request is the way it ends.
-/

namespace Omniweft.Sdk

open Outcome Python

/-- How a request ends. `lost` is every way to end without an answer that `http.client`
and the checks of its head let through. -/
inductive Arrival where
  | lost
  | response (status : Nat) (body : Text)

section Reading

variable {α : Type}

/-- `ERROR_CODES`, with the one that a retrying client adds. -/
def errorCodes : List String :=
  ["NOT_AUTHORIZED", "SESSION_EXPIRED", "INVALID_SCHEMA", "UNSUPPORTED_VERSION",
    "BUDGET_EXCEEDED", "REQUIRES_RESYNC", "NOT_FOUND", "UNSUPPORTED_OPERATION",
    "NONFINITE_VALUE", "DEADLINE_EXPIRED", "QUEUE_FULL", "IDEMPOTENCY_MISMATCH"]

/-- A text that shows the token or the epoch of a client. -/
def secretIn (info : ConnectionInfo) (text : Text) : Bool :=
  decide (info.token <:+: text) || decide (info.epoch <:+: text)

mutual

/-- The search of `_request` for the client's secrets. At the root the epoch may stand
under its own name. -/
def leaks (info : ConnectionInfo) : Bool → Value α → Bool
  | root, .dict entries => leaksEntries info root entries
  | _, .list items => leaksItems info items
  | _, .str text => secretIn info text
  | _, _ => false

def leaksItems (info : ConnectionInfo) : List (Value α) → Bool
  | [] => false
  | item :: rest => leaks info false item || leaksItems info rest

def leaksEntries (info : ConnectionInfo) : Bool → List (Text × Value α) → Bool
  | _, [] => false
  | root, (key, child) :: rest =>
      secretIn info key ||
        (!(root && key == ascii "epoch" && isText child info.epoch) &&
          leaks info false child) ||
        leaksEntries info root rest

end

/-- The error that an answer with another status than 200 tells of. -/
def readRejection (status : Nat) (value : Value α) : Except Raised Raised := do
  let entries ← fields value ["protocol_version", "status", "error"]
  let item ← fields (get entries "error") ["code", "path"]
  match get item "code", get item "path" with
  | .str code, .str path => do
      rejectIf
        (!isLiteral (get entries "protocol_version") "0.1" ||
          !isLiteral (get entries "status") "rejected" ||
          !(errorCodes.map ascii).contains code || decide (256 < characters path) ||
          !(decide (400 ≤ status) && decide (status < 500)))
        .protocol
      pure (.api code status)
  | _, _ => .error .protocol

/-- A number that `integer` lets through with a minimum of one. -/
def readCounter (value : Value α) : Except Raised Counter :=
  match value with
  | .integer number =>
      if counted : 1 ≤ number ∧ number ≤ uint64Max then .ok ⟨number, counted⟩
      else .error .protocol
  | _ => .error .protocol

/-- `Capabilities`, as far as the client reads it again. -/
structure Offer where
  epoch : Text
  next : Counter
  capabilities : Capabilities
  sessionTtlMs : Int

def exactly (entries : Entries α) (name : String) (number : Int) : Except Raised Unit := do
  let _ ← integer (get entries name) number number

/-- `Limits.from_dict`: the slots of the world and the life of a session. -/
def readHostLimits (value : Value α) : Except Raised (Int × Int) := do
  let entries ← fields value
    ["max_header_bytes", "max_body_bytes", "max_response_bytes", "max_operations",
      "max_slots", "request_timeout_ms", "session_ttl_ms"]
  exactly entries "max_header_bytes" 16384
  exactly entries "max_body_bytes" 1048576
  exactly entries "max_response_bytes" 4194304
  exactly entries "max_operations" 256
  exactly entries "request_timeout_ms" 1000
  let maxSlots ← integer (get entries "max_slots") 1 1024
  let sessionTtlMs ← integer (get entries "session_ttl_ms") 50 300000
  pure (maxSlots, sessionTtlMs)

def readRetryLimits (value : Value α) : Except Raised Unit := do
  let entries ← fields value
    ["receipts_per_principal", "canonical_payload_bytes", "receipt_field_bytes",
      "receipt_ttl_ms", "principal_count"]
  exactly entries "receipts_per_principal" 4
  exactly entries "canonical_payload_bytes" 16384
  exactly entries "receipt_field_bytes" 8192
  exactly entries "receipt_ttl_ms" 2000
  exactly entries "principal_count" 2

def knownOperations (value : Value α) : Bool :=
  match value with
  | .list [first, second, third] =>
      isLiteral first "entity.create" && isLiteral second "transform.set" &&
        isLiteral third "entity.delete"
  | _ => false

/-- `RetryCapabilities.from_dict`. -/
def readCapabilities (value : Value α) : Except Raised Offer := do
  let entries ← fields value
    ["protocol_version", "epoch", "next_sequence", "world_id", "world_revision", "operations",
      "limits", "admission", "durability", "retry_mode", "retry_limits"]
  rejectIf (!isLiteral (get entries "retry_mode") "retained_receipts_v1") .protocol
  readRetryLimits (get entries "retry_limits")
  rejectIf
    (!isLiteral (get entries "protocol_version") "0.1" ||
      !isLiteral (get entries "admission") "synchronous" ||
      !isLiteral (get entries "durability") "volatile" ||
      !knownOperations (get entries "operations"))
    .protocol
  let named ← epoch (get entries "epoch")
  let next ← readCounter (get entries "next_sequence")
  let worldId ← text (get entries "world_id") 64
  let _ ← integer (get entries "world_revision") 0 uint64Max
  let (maxSlots, sessionTtlMs) ← readHostLimits (get entries "limits")
  pure ⟨named, next, ⟨worldId, maxSlots⟩, sessionTtlMs⟩

end Reading

/-! ## The ends of the requests -/

section Requests

variable {α : Type} [Scalar α]

/-- What `_request` returns or raises, but for what it remembers. -/
def arrived (python : Interpreter α) (info : ConnectionInfo) :
    Arrival → Except Raised (Value α)
  | .lost => .error .protocol
  | .response status body => do
      let value ← decode python body maxResponse
      rejectIf (leaks info true value) .protocol
      if status = 200 then
        match value with
        | .dict _ => pure value
        | _ => .error .protocol
      else do
        let raised ← readRejection status value
        .error raised

/-- What `_request` remembers of its end. -/
def remembered (mutating : Bool) :
    Except Raised (Value α) → EStateM Raised Client (Value α)
  | .ok value => pure value
  | .error (.api code status) => do
      modify fun client =>
        { client with uncertain := client.uncertain || code == ascii "REQUIRES_RESYNC" }
      throw (.api code status)
  | .error _ =>
      if mutating then do
        modify fun client => { client with uncertain := true }
        throw .unknown
      else throw .protocol

/-- `_request`, from the end of its exchange on. -/
def exchange (python : Interpreter α) (mutating : Bool) (arrival : Arrival) :
    EStateM Raised Client (Value α) := do
  remembered mutating (arrived python (← get).info arrival)

/-- `RetryPolicyClient.capabilities`. -/
def negotiated (python : Interpreter α) (arrival : Arrival) :
    EStateM Raised Client Capabilities := do
  let value ← exchange python false arrival
  let offer ← attempt id (readCapabilities value)
  let client ← get
  attempt id
    (rejectIf
      (offer.epoch != client.info.epoch || offer.sessionTtlMs != client.info.sessionTtlMs ||
        client.next.any fun held => decide (offer.next.value < held.value))
      .protocol)
  set { client with capabilities := some offer.capabilities, next := some offer.next }
  pure offer.capabilities

/-- The checks of `_wrapper`, of `read` and of `agrees`, and then the new counter. -/
def consulted {β : Type} (name : String) (read : Value α → Except Raised β)
    (agrees : β → Bool) (value : Value α) : EStateM Raised Client Unit := do
  let entries ← attempt id (wrapper (← get) value name)
  let data ← attempt id (read (get entries name))
  attempt id (rejectIf (!agrees data) .protocol)
  let next ← attempt id (readCounter (get entries "next_sequence"))
  modify fun client => { client with next := some next }

/-- The snapshot is one of the world that was offered. -/
def ofWorld (capabilities : Capabilities) (snapshot : Snapshot α) : Bool :=
  snapshot.worldId == capabilities.worldId && snapshot.maxSlots == capabilities.maxSlots

/-- `Client.observe`. -/
def observed (python : Interpreter α) (capabilities : Capabilities) (arrival : Arrival) :
    EStateM Raised Client Unit := do
  let value ← exchange python false arrival
  consulted "snapshot" (readSnapshot python) (ofWorld capabilities) value

/-- `Client.runtime`. -/
def runtimeTold (python : Interpreter α) (capabilities : Capabilities) (arrival : Arrival) :
    EStateM Raised Client Unit := do
  let value ← exchange python false arrival
  consulted "runtime" (readRuntime python) (fun status => ofWorld capabilities status.snapshot)
    value

/-- `PolicyClient.policy_status`. -/
def statusTold (python : Interpreter α) (principal : Text) (arrival : Arrival) :
    EStateM Raised Client Unit := do
  let value ← exchange python false arrival
  let status ← attempt id (readPolicyStatus python principal value)
  let client ← get
  attempt id
    (rejectIf
      (status.epoch != client.info.epoch ||
        client.next.any fun held => decide (status.nextSequence < held.value))
      .protocol)
  let next ← attempt id (readCounter (.integer status.nextSequence : Value α))
  set { client with next := some next }

/-- The body that `submit` posts: the stored one, read and written again. -/
def posted (python : Interpreter α) (prepared : PreparedTransaction) : Except Raised Text := do
  let value ← decode python prepared.body maxResponse
  payload python maxBodyBytes value

def readSubmitted (client : Client) (capabilities : Capabilities)
    (prepared : PreparedTransaction) (value : Value α) : Except Raised (Receipt × Counter) := do
  let entries ← wrapper client value "receipt"
  let receipt ← readReceipt (get entries "receipt")
  let next ← readCounter (get entries "next_sequence")
  rejectIf
    (decide (next.value < prepared.sequence + 1) ||
      receipt.transactionId != prepared.transactionId ||
      receipt.created.any fun binding => binding.worldId != capabilities.worldId)
    .protocol
  pure (receipt, next)

/-- The end of `RetryPolicyClient.submit`. -/
def submitted (python : Interpreter α) (capabilities : Capabilities)
    (prepared : PreparedTransaction) (arrival : Arrival) : EStateM Raised Client Receipt := do
  let value ← exchange python true arrival
  let client ← get
  match readSubmitted client capabilities prepared value with
  | .ok (receipt, next) => do
      set { client with next := some next, pending := none, uncertain := false }
      pure receipt
  | .error _ => do
      set { client with uncertain := true }
      throw .unknown

end Requests

/-! ## The methods of a client -/

section Methods

variable {α : Type} [Scalar α]

/-- What a method goes on to when the capabilities are there. -/
inductive Purpose (α : Type) [Scalar α] where
  | observe (resync : Bool)
  | runtime
  | status
  | prepare (operations : List (Operation α)) (expectedRevision : Int)
      (transactionId : Option Text) (generated : Text)
  | submit (number : Nat)

/-- The request a method waits for. A POST of a transaction has a number on the wire. -/
inductive Errand (α : Type) [Scalar α] where
  | capabilities (purpose : Option (Purpose α))
  | observation (capabilities : Capabilities) (resync : Bool)
  | runtime (capabilities : Capabilities)
  | status (resync : Bool)
  | submission (number post : Nat) (body : Text) (capabilities : Capabilities)

/-- The methods. `submit` is called with a handle: the client that made it, and the
how-manieth of its handles it is. -/
inductive Method (α : Type) [Scalar α] where
  | capabilities
  | observe
  | runtime
  | policyStatus
  | resync
  | resyncPolicy
  | prepare (operations : List (Operation α)) (expectedRevision : Int)
      (transactionId : Option Text) (generated : Text)
  | submit (owner number : Nat)

/-- A client with the handles it has made; `held` is the one that `_pending` is. -/
structure Party (α : Type) [Scalar α] where
  principal : Text
  client : Client
  handles : List PreparedTransaction
  held : Option Nat
  errand : Option (Errand α)

/-- What others can tell of a client. -/
inductive Notice where
  | posted (body : Text)
  | unknown (body : Text)
  | returned (prepared : PreparedTransaction) (receipt : Receipt)
  | resynced
  deriving DecidableEq

/-- A client after a step, the body that it posts, and what can be told of it. -/
structure Turn (α : Type) [Scalar α] where
  party : Party α
  post : Option Text
  notices : List Notice

/-- The method is over. -/
def Party.over (party : Party α) (client : Client) : Turn α :=
  ⟨{ party with client := client, errand := none }, none, []⟩

def Party.waits (party : Party α) (errand : Errand α) : Turn α :=
  ⟨{ party with errand := some errand }, none, []⟩

/-- The method goes on with its capabilities; `post` numbers what it may post. -/
def Party.proceed (python : Interpreter α) (post : Nat) (party : Party α)
    (capabilities : Capabilities) : Purpose α → Turn α
  | .observe resync => party.waits (.observation capabilities resync)
  | .runtime => party.waits (.runtime capabilities)
  | .status => party.waits (.status true)
  | .prepare operations expectedRevision transactionId generated =>
      match prepare python capabilities operations expectedRevision transactionId generated
          party.client with
      | .ok prepared client =>
          ⟨{ party with
              client := client
              handles := party.handles ++ [prepared]
              held := some party.handles.length
              errand := none }, none, []⟩
      | .error _ client => party.over client
  | .submit number =>
      match party.handles[number]? with
      | none => party.over party.client
      | some prepared =>
          let client := { party.client with pending := some prepared }
          match posted python prepared with
          | .error _ =>
              ⟨{ party with client := client, held := some number, errand := none }, none, []⟩
          | .ok body =>
              ⟨{ party with
                  client := client
                  held := some number
                  errand := some (.submission number post body capabilities) },
                some body, [.posted body]⟩

/-- `_ensure_negotiated`. -/
def Party.ensure (python : Interpreter α) (post : Nat) (party : Party α)
    (purpose : Purpose α) : Turn α :=
  match party.client.capabilities with
  | some capabilities => party.proceed python post capabilities purpose
  | none => party.waits (.capabilities (some purpose))

def Party.begin (python : Interpreter α) (post : Nat) (party : Party α) :
    Method α → Turn α
  | .capabilities => party.waits (.capabilities none)
  | .observe => party.ensure python post (.observe false)
  | .runtime => party.ensure python post .runtime
  | .policyStatus => party.waits (.status false)
  | .resync => party.waits (.capabilities (some (.observe true)))
  | .resyncPolicy => party.waits (.capabilities (some .status))
  | .prepare operations expectedRevision transactionId generated =>
      if party.client.uncertain || party.client.pending.isSome then party.over party.client
      else
        party.ensure python post (.prepare operations expectedRevision transactionId generated)
  | .submit owner number =>
      if owner != party.client.owner || party.held.any (· != number) then
        party.over party.client
      else party.ensure python post (.submit number)

/-- The end of an observation; that of a resync abandons what was pending. -/
def Party.told (party : Party α) (resync : Bool) :
    EStateM.Result Raised Client Unit → Turn α
  | .ok _ client =>
      if resync then
        ⟨{ party with
            client := { client with uncertain := false, pending := none }
            held := none
            errand := none }, none, [.resynced]⟩
      else party.over client
  | .error _ client => party.over client

/-- A reading request of the client ends. -/
def Party.read (python : Interpreter α) (post : Nat) (party : Party α) (arrival : Arrival) :
    Turn α :=
  match party.errand with
  | some (.capabilities purpose) =>
      match negotiated python arrival party.client with
      | .error _ client => party.over client
      | .ok capabilities client =>
          match purpose with
          | none => party.over client
          | some purpose =>
              { party with client := client, errand := none }.proceed python post capabilities
                purpose
  | some (.observation capabilities resync) =>
      party.told resync (observed python capabilities arrival party.client)
  | some (.runtime capabilities) =>
      party.told false (runtimeTold python capabilities arrival party.client)
  | some (.status resync) =>
      party.told resync (statusTold python party.principal arrival party.client)
  | _ => ⟨party, none, []⟩

/-- The POST of a transaction ends. -/
def Party.finish (python : Interpreter α) (party : Party α) (arrival : Arrival) : Turn α :=
  match party.errand with
  | some (.submission number _ body capabilities) =>
      match party.handles[number]? with
      | none => ⟨party, none, []⟩
      | some prepared =>
          match submitted python capabilities prepared arrival party.client with
          | .ok receipt client =>
              ⟨{ party with client := client, held := none, errand := none }, none,
                [.returned prepared receipt]⟩
          | .error .unknown client =>
              ⟨{ party with client := client, errand := none }, none, [.unknown body]⟩
          | .error _ client => party.over client
  | _ => ⟨party, none, []⟩

/-- What may happen to a client. A method is called when no other holds the lock. -/
inductive Event (α : Type) [Scalar α] where
  | called (method : Method α)
  | read (arrival : Arrival)
  | finished (arrival : Arrival)

def Party.act (python : Interpreter α) (post : Nat) (party : Party α) : Event α → Turn α
  | .called method =>
      if party.errand.isSome then ⟨party, none, []⟩ else party.begin python post method
  | .read arrival => party.read python post arrival
  | .finished arrival => party.finish python arrival

/-- A client that has not prepared anything yet. -/
def Party.Fresh (party : Party α) : Prop :=
  party.client.pending = none ∧ party.handles = [] ∧ party.held = none ∧ party.errand = none

end Methods

end Omniweft.Sdk
