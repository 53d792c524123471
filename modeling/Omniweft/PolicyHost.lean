import Omniweft.Policy
import Omniweft.RetryRuns

/-!
# The policy host

`PolicyHost` serves both principals of the fixture at once. A connection is
authenticated before its body is read; what it asks for happens later, in a
section under the host's mutex that looks at the session again, and a renewal may
come in between. A request is what `read_headers` and `read_body` made of the
socket. A renewal whose entropy source fails ends the host and has no step here.
-/

namespace Omniweft.PolicyHost

open Outcome Commands Transactions Policy

structure Config where
  worldId : Text
  port : Nat
  sessionTtlMs : Nat
  retainedRetries : Bool

structure Rejection where
  status : Nat
  code : Text
  path : Text
  deriving DecidableEq, Repr

/-- How a connection ends without an answer of its own: a closed transport, a
`Rejection`, or an exception that ends the host. -/
inductive Halt where
  | closed
  | rejected (rejection : Rejection)
  | thrown (exception : Thrown)
  deriving DecidableEq, Repr

def rejection (status : Nat) (code : String) (path : String) : Halt :=
  .rejected ⟨status, ascii code, ascii path⟩

/-- `same_secret`: no early return on the content. -/
def sameSecret (supplied expected : Text) : Bool :=
  if supplied.length != expected.length then false
  else (List.zipWith (· ^^^ ·) supplied expected).foldl (· ||| ·) 0 == 0

structure Session where
  token : Text
  epoch : Text
  sequence : UInt64
  exhausted : Bool
  expires : Nat
  retries : Retry.Window

/-- What a renewal draws for one principal, and when. -/
structure Issue where
  token : Text
  epoch : Text
  now : Nat
  deriving DecidableEq, Repr

def renewed (config : Config) (session : Session) (issue : Issue) : Session where
  token := issue.token
  epoch := issue.epoch
  sequence := 1
  exhausted := false
  retries := Retry.reset session.retries
  expires := issue.now + config.sessionTtlMs * 1000000

/-- A session before the first renewal. -/
def Session.empty : Session where
  token := []
  epoch := []
  sequence := 1
  exhausted := false
  expires := 0
  retries := ⟨Vector.replicate Retry.windowSize Retry.Entry.empty, 1, false⟩

/-- The host with the ledger and whatever else the owner's callback works on. -/
structure Host (σ : Type) where
  sessions : PerPrincipal Session
  ledger : Ledger
  state : σ

def renew {σ : Type} (config : Config) (host : Host σ) (issues : PerPrincipal Issue) :
    Host σ :=
  { host with
    sessions := fun principal => renewed config (host.sessions principal) (issues principal) }

/-- The clock as one section reads it, for the deadline, for the expiry and for
the retry window, and whether the owner wants to stop. -/
structure Moment where
  reached : Nat
  compared : Nat
  executed : Nat
  stopping : Bool
  deriving DecidableEq, Repr

/-- `current`: the session a connection was authenticated for is still the one. -/
def current (sessions : PerPrincipal Session) (principal : Principal) (epoch : Text)
    (deadline : Nat) (moment : Moment) : Except Halt Unit := do
  rejectIf (decide (deadline ≤ moment.reached) || moment.stopping) .closed
  rejectIf (!sameSecret (sessions principal).epoch epoch)
    (rejection 401 "SESSION_EXPIRED" "")
  rejectIf (decide ((sessions principal).expires ≤ moment.compared))
    (rejection 401 "SESSION_EXPIRED" "")

structure Request where
  authorization : Option Text
  host : Option Text
  origin : Option Text
  protocol : Option Text
  route : Text
  method : Text
  contentLength : Nat
  body : Text
  deriving DecidableEq, Repr

inductive Route where
  | capabilities
  | policy
  | runtime
  | observe
  | transactions
  deriving DecidableEq, Repr

def bearer (request : Request) : Option Text :=
  match request.authorization with
  | some value =>
      if (ascii "Bearer ").isPrefixOf value then some (value.drop 7) else none
  | none => none

/-- The loop over the principals; a later match wins. -/
def matching (sessions : PerPrincipal Session) (supplied : Text) : Option Principal :=
  (List.finRange principalCount).foldl
    (fun found principal =>
      if sameSecret supplied (sessions principal).token then some principal else found)
    none

def authenticated (sessions : PerPrincipal Session) (request : Request) :
    Except Halt Principal :=
  match (bearer request).bind (matching sessions) with
  | some principal => .ok principal
  | none => .error (rejection 401 "NOT_AUTHORIZED" "")

def namedRoute (path : Text) : Option Route :=
  if path = ascii "/v0/capabilities" then some .capabilities
  else if path = ascii "/v0/policy" then some .policy
  else if path = ascii "/v0/runtime" then some .runtime
  else if path = ascii "/v0/observe" then some .observe
  else if path = ascii "/v0/transactions" then some .transactions
  else none

def Route.method : Route → Text
  | .capabilities => ascii "GET"
  | .policy => ascii "GET"
  | .runtime => ascii "GET"
  | .observe => ascii "POST"
  | .transactions => ascii "POST"

/-- The routes that neither wait for a body nor reserve memory for one. -/
def Route.control : Route → Bool
  | .capabilities => true
  | .policy => true
  | _ => false

/-- The checks between the authentication and the first section of the route. -/
def routed (config : Config) (request : Request) : Except Halt Route := do
  rejectIf
    (request.host != some (ascii "127.0.0.1:" ++ decimal config.port) ||
      request.origin.isSome)
    (rejection 403 "NOT_AUTHORIZED" "")
  rejectIf (request.protocol != some (ascii "0.1"))
    (rejection 400 "UNSUPPORTED_VERSION" "/protocol_version")
  match namedRoute request.route with
  | none => .error (rejection 404 "NOT_FOUND" "")
  | some route => do
      rejectIf (request.method != route.method)
        (rejection 405 "UNSUPPORTED_OPERATION" "")
      rejectIf (route.control && (request.contentLength != 0 || !request.body.isEmpty))
        (rejection 400 "INVALID_SCHEMA" "")
      pure route

/-- A connection that was authenticated. The lease is held until it is closed. -/
structure Connection where
  principal : Principal
  epoch : Text
  deadline : Nat
  request : Request
  route : Route
  lease : Option Lease
  answered : Bool

/-- The first section of a connection and the checks that follow it. -/
def authenticate (config : Config) (sessions : PerPrincipal Session) (request : Request)
    (deadline : Nat) (moment : Moment) : Except Halt Connection := do
  let principal ← authenticated sessions request
  let epoch := (sessions principal).epoch
  current sessions principal epoch deadline moment
  let route ← routed config request
  pure ⟨principal, epoch, deadline, request, route, none, false⟩

section Bodies

variable {α : Type}

def safeNames : List String :=
  ["protocol_version", "world_id", "transaction_id", "idempotency", "epoch", "sequence",
    "expected_world_revision", "apply_at", "mode", "expires_after_ticks", "budget",
    "max_operations", "max_blob_bytes", "operations", "type", "temporary_id", "prefab",
    "target", "entity_uuid", "generation", "position_m", "rotation_xyzw", "scale",
    "child_policy", "principal", "grant"]

/-- A short decimal index below 256. -/
def safeIndex (part : Text) : Bool :=
  !part.isEmpty && decide (part.length ≤ 3) &&
    (part.all fun digit => decide (48 ≤ digit) && decide (digit ≤ 57)) &&
    decide ((part.foldl (fun value digit => 10 * value + (digit.toNat - 48)) 0) < 256)

def safePart (part : Text) : Bool :=
  (safeNames.map ascii).contains part || safeIndex part

/-- `safe_path`: the longest known start of a pointer, so that no unknown key is
echoed. Each round takes one segment off, so the length of the source is fuel. -/
def safeRounds : Nat → Text → Text → Text
  | 0, _, result => result
  | rounds + 1, source, result =>
      match source with
      | 47 :: rest =>
          if 192 ≤ result.length then result
          else
            let part := rest.takeWhile (· != 47)
            if safePart part then
              safeRounds rounds (rest.drop part.length) (result ++ 47 :: part)
            else result
      | _ => result

def safePath (source : Text) : Text :=
  safeRounds source.length source []

/-- `command_rejection`. -/
def commandRejection (error : ValidationError) : Halt :=
  let path := safePath error.path
  if error.code = ascii "BUDGET_EXCEEDED" then .rejected ⟨413, error.code, path⟩
  else if error.code = ascii "UNSUPPORTED_VERSION" then .rejected ⟨400, error.code, path⟩
  else if error.code = ascii "UNSUPPORTED_OPERATION" then .rejected ⟨405, error.code, path⟩
  else .rejected ⟨400, ascii "INVALID_SCHEMA", path⟩

def foreignTarget (worldId : Text) : Target → Bool
  | .temporary _ => false
  | .entity target => target.worldId != worldId

/-- An operation on an entity of another world. -/
def foreign (worldId : Text) : Operation α → Bool
  | .entityCreate _ => false
  | .transformSet operation => foreignTarget worldId operation.target
  | .entityDelete operation => foreignTarget worldId operation.target
  | .entityReparent operation => foreignTarget worldId operation.target
  | .entityTagsSet operation => foreignTarget worldId operation.target

def screen (config : Config) (envelope : Envelope α) : Except Halt Unit := do
  rejectIf (decide (operationLimit < envelope.operations.length))
    (rejection 413 "BUDGET_EXCEEDED" "/operations")
  rejectIf (envelope.operations.any fun operation => !supported operation)
    (rejection 405 "UNSUPPORTED_OPERATION" "/operations")
  rejectIf (envelope.worldId != config.worldId)
    (rejection 403 "NOT_AUTHORIZED" "/world_id")
  rejectIf (envelope.operations.any (foreign config.worldId))
    (rejection 403 "NOT_AUTHORIZED" "/operations")

/-- The envelope of a body, before the transaction waits for the boundary. -/
def received [Scalar α] (config : Config) (library : JsonLibrary α) (body : Text) :
    Except Halt (Envelope α) :=
  match parse library body with
  | .error [] => .error (rejection 400 "INVALID_SCHEMA" "")
  | .error (error :: _) => .error (commandRejection error)
  | .ok envelope => do
      screen config envelope
      pure envelope

/-- `validate_observe`. Its handler refuses the events that the bounded handler of
the commands refuses. -/
def validateObserve [Scalar α] (library : JsonLibrary α) (body worldId : Text) :
    Except Halt Unit :=
  match BoundedSax.run (library.events body) [] with
  | .error error =>
      if error.code = ascii "BUDGET_EXCEEDED" then
        .error (rejection 413 "BUDGET_EXCEEDED" "")
      else .error (rejection 400 "INVALID_SCHEMA" "")
  | .ok _ => do
      rejectIf (body.contains 0) (rejection 400 "INVALID_SCHEMA" "")
      match library.document body with
      | some (.object entries) => do
          rejectIf (entries.length != 2) (rejection 400 "INVALID_SCHEMA" "")
          match entries.lookup (ascii "protocol_version") with
          | some (.string version) =>
              rejectIf (version != ascii "0.1")
                (rejection 400 "UNSUPPORTED_VERSION" "/protocol_version")
          | _ => .error (rejection 400 "INVALID_SCHEMA" "/protocol_version")
          match entries.lookup (ascii "world_id") with
          | some (.string named) =>
              rejectIf (named != worldId) (rejection 403 "NOT_AUTHORIZED" "/world_id")
          | _ => .error (rejection 400 "INVALID_SCHEMA" "/world_id")
      | some _ => .error (rejection 400 "INVALID_SCHEMA" "")
      | none => .error (.thrown .other)

end Bodies

section Sections

variable {α σ : Type}

/-- An answer without the world data that the reading routes add. -/
structure Reply where
  epoch : Text
  nextSequence : UInt64
  receipt : Option Receipt
  deriving DecidableEq, Repr

/-- The section of a route that only reads. -/
def consult (host : Host σ) (connection : Connection) (moment : Moment) :
    Except Halt Reply := do
  current host.sessions connection.principal connection.epoch connection.deadline moment
  let session := host.sessions connection.principal
  pure ⟨session.epoch, session.sequence, none⟩

/-- The owner's callback. -/
abbrev Callback (α σ : Type) := Envelope α → Lease → EStateM Thrown (Ledger × σ) Receipt

/-- What a transaction section leaves behind. `call` is what reached the counter
or the retry window of the session. -/
structure Transacted (σ : Type) where
  host : Host σ
  call : Option Retry.Event
  reply : Except Halt Reply

def refused (host : Host σ) (halt : Halt) : Transacted σ :=
  ⟨host, none, .error halt⟩

/-- The session of a principal and the owner's state are replaced. -/
def settle (host : Host σ) (principal : Principal) (session : Session)
    (after : Ledger × σ) : Host σ where
  sessions := Function.update host.sessions principal session
  ledger := after.1
  state := after.2

def answer (session : Session) (receipt : Receipt) : Reply :=
  ⟨session.epoch, session.sequence, some receipt⟩

/-- The boundary with retained receipts. -/
def retained (host : Host σ) (principal : Principal) (sequence : UInt64)
    (canonical : Text) (callback : EStateM Thrown (Ledger × σ) Receipt)
    (moment : Moment) : Transacted σ :=
  let session := host.sessions principal
  let done := Retry.execute moment.executed sequence canonical (some callback)
    session.retries (host.ledger, host.state)
  let next := { session with retries := done.window, sequence := done.window.next }
  { host := settle host principal next done.state
    call := some (Retry.eventOf moment.executed sequence canonical (some callback) done)
    reply :=
      match done.result.receipt with
      | some receipt => .ok (answer next receipt)
      | none =>
          .error (.rejected
            ⟨if done.result.code = ascii "BUDGET_EXCEEDED" then 413 else 409,
              done.result.code, ascii "/idempotency/sequence"⟩) }

/-- The number is consumed before the callback runs. -/
def consumed (session : Session) : Session :=
  if session.sequence == maximum64 then { session with exhausted := true }
  else { session with sequence := session.sequence + 1 }

/-- The boundary without them: the counter alone admits. -/
def volatile (host : Host σ) (principal : Principal) (sequence : UInt64)
    (callback : EStateM Thrown (Ledger × σ) Receipt) (moment : Moment) : Transacted σ :=
  let session := host.sessions principal
  let called (ran : Option (Except Thrown Receipt)) : Option Retry.Event :=
    some ⟨moment.executed, sequence, [], true, ⟨none, [], false⟩, ran⟩
  if session.exhausted || sequence != session.sequence then
    ⟨host, called none,
      .error (rejection 409 "REQUIRES_RESYNC" "/idempotency/sequence")⟩
  else
    let next := consumed session
    match callback (host.ledger, host.state) with
    | .ok receipt after =>
        ⟨settle host principal next after, called (some (.ok receipt)),
          .ok (answer next receipt)⟩
    | .error exception after =>
        ⟨settle host principal next after, called (some (.error exception)),
          .error (.thrown exception)⟩

/-- The section a transaction runs at the owner's boundary. -/
def transact [Scalar α] (config : Config) (library : JsonLibrary α)
    (apply : Callback α σ) (host : Host σ) (connection : Connection)
    (envelope : Envelope α) (lease : Lease) (moment : Moment) : Transacted σ :=
  let principal := connection.principal
  match current host.sessions principal connection.epoch connection.deadline moment with
  | .error halt => refused host halt
  | .ok () =>
      if !sameSecret envelope.idempotency.epoch (host.sessions principal).epoch then
        refused host (rejection 409 "REQUIRES_RESYNC" "/idempotency/epoch")
      else if config.retainedRetries then
        match serialize library envelope with
        | .error _ => refused host (rejection 400 "INVALID_SCHEMA" "/operations")
        | .ok canonical =>
            retained host principal envelope.idempotency.sequence canonical
              (apply envelope lease) moment
      else
        volatile host principal envelope.idempotency.sequence (apply envelope lease) moment

end Sections

section Systems

variable {α σ : Type}

structure System (σ : Type) where
  host : Host σ
  connections : List Connection

/-- What happens next. Any thread may take its next section, and a connection may
end at any moment; `index` names one of the open connections. -/
inductive Input where
  | renew (issues : PerPrincipal Issue)
  | accept (request : Request) (deadline : Nat) (moment : Moment)
  | reserve (index : Nat)
  | consult (index : Nat) (moment : Moment)
  | transact (index : Nat) (moment : Moment)
  | close (index : Nat)

/-- A transaction that reached its section. -/
structure Attempt (α : Type) where
  connection : Connection
  envelope : Envelope α
  moment : Moment
  call : Option Retry.Event
  reply : Except Halt Reply

inductive Act (α : Type) where
  | renewed (issues : PerPrincipal Issue)
  | attempted (attempt : Attempt α)
  | answered (reply : Except Halt Reply)
  | silent

/-- One step as an observer of the sessions sees it. -/
structure Event (α : Type) where
  before : PerPrincipal Session
  after : PerPrincipal Session
  act : Act α

def withHost (system : System σ) (host : Host σ) : System σ :=
  { system with host := host }

def withConnection (system : System σ) (index : Nat) (connection : Connection) :
    System σ :=
  { system with connections := system.connections.set index connection }

def closeConnection (system : System σ) (index : Nat) : System σ :=
  let host := system.host
  let lease := (system.connections[index]?).bind Connection.lease
  { host := { host with ledger := lease.elim host.ledger (refund host.ledger) }
    connections := system.connections.eraseIdx index }

/-- The connection a thread is at, when it may still do something. -/
def pendingAt (system : System σ) (index : Nat) : Option Connection :=
  system.connections[index]?.filter fun connection => !connection.answered

/-- The ledger reserves memory for the declared body. -/
def reserveAt (system : System σ) (index : Nat) (connection : Connection) :
    System σ × Act α :=
  let request := connection.request
  match admitLease system.host.ledger connection.principal.val request.contentLength with
  | .error denied =>
      (withConnection system index { connection with answered := true },
        .answered (.error (.rejected ⟨413, denied.code, denied.path⟩)))
  | .ok (lease, ledger) =>
      (withConnection (withHost system { system.host with ledger := ledger }) index
          { connection with lease := some lease },
        .silent)

def consultAt [Scalar α] (config : Config) (library : JsonLibrary α) (system : System σ)
    (index : Nat) (connection : Connection) (moment : Moment) : System σ × Act α :=
  let validated : Except Halt Unit :=
    if connection.route = .observe then
      validateObserve library connection.request.body config.worldId
    else .ok ()
  (withConnection system index { connection with answered := true },
    .answered (validated >>= fun _ => PolicyHost.consult system.host connection moment))

def transactAt [Scalar α] (config : Config) (library : JsonLibrary α)
    (apply : Callback α σ) (system : System σ) (index : Nat) (connection : Connection)
    (lease : Lease) (moment : Moment) : System σ × Act α :=
  let closed := withConnection system index { connection with answered := true }
  match received config library connection.request.body with
  | .error halt => (closed, .answered (.error halt))
  | .ok envelope =>
      let done := PolicyHost.transact config library apply system.host connection envelope
        lease moment
      (withHost closed done.host,
        .attempted ⟨connection, envelope, moment, done.call, done.reply⟩)

/-- One step. A thread that is not where its input says does nothing. -/
def step [Scalar α] (config : Config) (library : JsonLibrary α) (apply : Callback α σ)
    (system : System σ) : Input → System σ × Act α
  | .renew issues => (withHost system (PolicyHost.renew config system.host issues), .renewed issues)
  | .accept request deadline moment =>
      match authenticate config system.host.sessions request deadline moment with
      | .error halt => (system, .answered (.error halt))
      | .ok connection =>
          ({ system with connections := system.connections ++ [connection] }, .silent)
  | .reserve index =>
      match pendingAt system index with
      | some connection =>
          if connection.route.control || connection.lease.isSome then (system, .silent)
          else reserveAt system index connection
      | none => (system, .silent)
  | .consult index moment =>
      match pendingAt system index with
      | some connection =>
          if connection.route = .transactions ||
              (!connection.route.control && connection.lease.isNone) then
            (system, .silent)
          else consultAt config library system index connection moment
      | none => (system, .silent)
  | .transact index moment =>
      match pendingAt system index with
      | some connection =>
          match connection.route, connection.lease with
          | .transactions, some lease =>
              transactAt config library apply system index connection lease moment
          | _, _ => (system, .silent)
      | none => (system, .silent)
  | .close index => (closeConnection system index, .silent)

/-- The log of a run. -/
def run [Scalar α] (config : Config) (library : JsonLibrary α) (apply : Callback α σ)
    (system : System σ) : List Input → List (Event α)
  | [] => []
  | input :: rest =>
      let done := step config library apply system input
      ⟨system.host.sessions, done.1.host.sessions, done.2⟩ ::
        run config library apply done.1 rest

/-- `run_policy` renews once before it accepts anything. -/
def start (config : Config) (ledger : Ledger) (state : σ) (issues : PerPrincipal Issue) :
    System σ where
  host := PolicyHost.renew config ⟨fun _ => Session.empty, ledger, state⟩ issues
  connections := []

end Systems
end Omniweft.PolicyHost
