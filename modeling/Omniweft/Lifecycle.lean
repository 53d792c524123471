import Omniweft.SdkModels

/-!
# The worker supervisor of the SDK

`WorkerSupervisor` runs proposal workers and lets only its owner submit what they
propose. Callers, worker threads and mutation threads meet in sections under one
lock; what a thread does between two sections is a step of its own, and what the
worker process, the client and the clock answer there is an input.
-/

namespace Omniweft.Lifecycle

open Outcome Python Sdk

/-- What the supervisor takes from `time.monotonic`: whether a reading has reached a
deadline, and the deadline some milliseconds after a reading. -/
structure Clock (τ : Type) where
  reached : τ → τ → Bool
  after : τ → Int → τ

inductive Aim where
  | create (name : Text)
  | move (handle : EntityHandle)
  deriving DecidableEq

/-- The pattern of a cube's name. -/
def namePattern : Text → Bool
  | [] => false
  | first :: rest =>
      (upper first || lower first) && decide (rest.length ≤ 31) &&
        rest.all fun character => alphanumeric character || character == 95

def Aim.accepted : Aim → Bool
  | .create name => namePattern name
  | .move handle => handle.worldId == ascii "workshop"

section Goals

variable {α : Type} [Scalar α]

def withinBounds (x : α) : Bool :=
  (Scalar.lt (Scalar.ofInt (-8)) x || Scalar.eq (Scalar.ofInt (-8)) x) &&
    (Scalar.lt x (Scalar.ofInt 8) || Scalar.eq x (Scalar.ofInt 8)) && Scalar.isFinite x

variable (α) in
structure CubeGoal where
  aim : Aim
  x : α
  bounded : withinBounds x = true
  aimed : aim.accepted = true

/-- The operations of a goal. -/
def operations (goal : CubeGoal α) : Except Raised (List (Operation α)) := do
  let transform ← makeTransform
    { World.Transform.default with
      positionM := ⟨goal.x, Scalar.ofInt 0, Scalar.ofInt 0⟩ }
  match goal.aim with
  | .create name =>
      pure [.createCube name, .setTransform (.temporary name) transform]
  | .move handle => pure [.setTransform (.entity handle) transform]

def wire (goal : CubeGoal α) : Value α :=
  match goal.aim with
  | .create name =>
      .dict
        [(ascii "kind", .str (ascii "create")), (ascii "x", .float goal.x),
          (ascii "name", .str name), (ascii "handle", .none)]
  | .move handle =>
      .dict
        [(ascii "kind", .str (ascii "move")), (ascii "x", .float goal.x),
          (ascii "name", .none), (ascii "handle", handleDict handle)]

def sameKeys (actual expected : Entries α) : Bool :=
  (actual.all fun entry => (expected.map Prod.fst).contains entry.1) &&
    expected.all fun entry => (actual.map Prod.fst).contains entry.1

mutual

/-- `_same_typed`: equality that tells an integer from a boolean. Only where a float is
expected an integer may stand for it. -/
def sameTyped (python : Interpreter α) (actual : Value α) : Value α → Bool
  | .dict expected =>
      match actual with
      | .dict entries => sameKeys entries expected && sameEntries python entries expected
      | _ => false
  | .list expected =>
      match actual with
      | .list items => sameItems python items expected
      | _ => false
  | .integer expected =>
      match actual with
      | .integer number => decide (number = expected)
      | _ => false
  | .float expected =>
      match actual with
      | .integer number => python.equalsInt number expected
      | .float number => Scalar.eq number expected && Scalar.isFinite number
      | _ => false
  | .str expected =>
      match actual with
      | .str text => text == expected
      | _ => false
  | .boolean expected =>
      match actual with
      | .boolean flag => flag == expected
      | _ => false
  | .none =>
      match actual with
      | .none => true
      | _ => false

def sameEntries (python : Interpreter α) (entries : Entries α) : List (Text × Value α) → Bool
  | [] => true
  | (key, value) :: rest =>
      sameTyped python ((entries.lookup key).getD .none) value &&
        sameEntries python entries rest

def sameItems (python : Interpreter α) (items : List (Value α)) : List (Value α) → Bool
  | [] => items.isEmpty
  | value :: rest =>
      match items with
      | item :: others => sameTyped python item value && sameItems python others rest
      | [] => false

end

end Goals

inductive State where
  | running
  | proposalReady
  | submitting
  | outcomeUnknown
  | reconciling
  | committed
  | rejected
  | reconciled
  | cancelled
  | superseded
  | timedOut
  | workerFailed
  | crashed
  deriving DecidableEq, Repr

def State.preSubmit : State → Bool
  | .running | .proposalReady => true
  | _ => false

def State.busy : State → Bool
  | .submitting | .outcomeUnknown | .reconciling => true
  | _ => false

def State.final (state : State) : Bool :=
  !state.preSubmit && !state.busy

/-- The state of a receipt, which `_submit` gives to the record. -/
def stateOf : Status → State
  | .committed => .committed
  | .rejected => .rejected

/-- The fields of `_Request` that nothing writes to. -/
structure Request (α τ : Type) [Scalar α] where
  requestId : Nat
  generation : Nat
  expectedRevision : Int
  goal : CubeGoal α
  deadline : τ
  mode : Text
  delayMs : Int
  transactionId : Option Text

/-- `_Request`. The transactions that the client prepares are of a type of their own. -/
structure Record (α π τ : Type) [Scalar α] where
  request : Request α τ
  state : State
  lateResults : Nat
  receipt : Option Receipt
  errorCode : Option Text
  workerCleaned : Bool
  proposal : Option (List (Operation α))
  prepared : Option π
  firstSubmissionStarted : Bool

structure WorkerStatus where
  requestId : Nat
  generation : Nat
  state : State
  expectedRevision : Int
  lateResults : Nat
  receipt : Option Receipt
  errorCode : Option Text
  workerCleaned : Bool

inductive Reply where
  | status (status : WorkerStatus)
  | word (word : Text)
  | generation (generation : Nat)

/-- What a worker process gave: the line it wrote, its exit code, whether its pipe
failed, and whether the deadline had passed when the parent stopped waiting. -/
structure Exchange where
  received : Option Text
  code : Int
  invalid : Bool
  expired : Bool

/-- Where `_worker` stands; `excepting` tells a `ProtocolError` from the others. -/
inductive WorkerStage where
  | entering
  | working
  | judging (exchange : Exchange)
  | accepting (raw : Text)
  | crashing (code : Int) (invalid : Bool)
  | excepting (isProtocol : Bool)
  | cleaning

/-- Where `_submit` or `_reconcile` stands; `failing` has the code of an `ApiError`. -/
inductive MutationStage (π : Type) where
  | checking
  | expiring
  | preparing
  | storing (prepared : π)
  | arming
  | sending
  | awaiting
  | receiving (receipt : Receipt)
  | failing (code : Option Text)
  | resyncing
  | reconciled
  | unreconciled

structure Supervisor (α π τ : Type) [Scalar α] where
  records : Nat → Option (Record α π τ)
  count : Nat
  generation : Nat
  active : Option Nat
  blocked : Option Nat
  workers : Nat
  closed : Bool
  threads : List (Nat × WorkerStage)
  mutations : List (Nat × MutationStage π)

/-- What is remembered of a run: every call of the client's `submit` with the
transaction it was given, and every worker frame that became a proposal with the
generation it was accepted in. -/
inductive Event (π : Type) where
  | submitted (requestId : Nat) (prepared : Option π)
  | accepted (requestId generation : Nat) (raw : Text)

section Sections

variable {α π τ : Type} [Scalar α]

def fresh : Supervisor α π τ :=
  { records := fun _ => none
    count := 0
    generation := 1
    active := none
    blocked := none
    workers := 0
    closed := false
    threads := []
    mutations := [] }

def view (record : Record α π τ) : WorkerStatus :=
  { requestId := record.request.requestId
    generation := record.request.generation
    state := record.state
    expectedRevision := record.request.expectedRevision
    lateResults := record.lateResults
    receipt := record.receipt
    errorCode := record.errorCode
    workerCleaned := record.workerCleaned }

/-- One record is changed, the others stay. -/
def change (supervisor : Supervisor α π τ) (id : Nat)
    (edit : Record α π τ → Record α π τ) : Supervisor α π τ :=
  { supervisor with
    records := fun other =>
      if other = id then (supervisor.records other).map edit else supervisor.records other }

def coded (record : Record α π τ) (state : State) (code : Option Text) : Record α π τ :=
  { record with state := state, errorCode := code }

def terminal (supervisor : Supervisor α π τ) (id : Nat) (state : State)
    (code : Option Text) : Supervisor α π τ :=
  { change supervisor id (coded · state code) with
    active := if supervisor.active = some id then none else supervisor.active }

/-- The section's body on the record of a request, if there is one. -/
def withRecord (supervisor : Supervisor α π τ) (id : Nat)
    (body : Record α π τ → Supervisor α π τ × Except Raised Reply) :
    Supervisor α π τ × Except Raised Reply :=
  match integer (.integer id : Value α) 1 8, supervisor.records id with
  | .ok _, some record => body record
  | _, _ => (supervisor, .error .protocol)

/-- The section's last look at a record. -/
def viewed (supervisor : Supervisor α π τ) (id : Nat) :
    Supervisor α π τ × Except Raised Reply :=
  withRecord supervisor id fun record => (supervisor, .ok (.status (view record)))

def stateAt (supervisor : Supervisor α π τ) (id : Nat) : Option State :=
  (supervisor.records id).map Record.state

variable (clock : Clock τ)

def expire (now : τ) (supervisor : Supervisor α π τ) (id : Nat) : Supervisor α π τ :=
  match supervisor.records id with
  | some record =>
      if record.state.preSubmit && clock.reached record.request.deadline now then
        terminal supervisor id .timedOut (some (ascii "DEADLINE_EXPIRED"))
      else supervisor
  | none => supervisor

def status (now : τ) (supervisor : Supervisor α π τ) (id : Nat) :
    Supervisor α π τ × Except Raised Reply :=
  withRecord supervisor id fun _ => viewed (expire clock now supervisor id) id

structure Arguments (α : Type) [Scalar α] where
  goal : CubeGoal α
  expectedRevision : Int
  timeoutMs : Int
  mode : Text
  delayMs : Int
  transactionId : Option Text

def modes : List Text :=
  ["normal", "delay", "crash", "malformed", "oversized"].map ascii

def checked (arguments : Arguments α) : Except Raised Unit := do
  let _ ← integer (.integer arguments.expectedRevision : Value α) 0 uint64Max
  let _ ← integer (.integer arguments.timeoutMs : Value α) 50 5000
  let _ ← integer (.integer arguments.delayMs : Value α) 0 2000
  rejectIf (!modes.contains arguments.mode) .protocol
  match arguments.transactionId with
  | none => pure ()
  | some identifier => do
      let _ ← uuid (.str identifier : Value α)
      pure ()

/-- Whether the record of an active request may still be replaced. -/
def replaceable (supervisor : Supervisor α π τ) (id : Option Nat) : Bool :=
  (id.bind (stateAt supervisor)).any State.preSubmit

/-- The generation moves on, and the request that was waiting in the old one ends. -/
def advance (supervisor : Supervisor α π τ) (id : Option Nat) (code : Text) :
    Supervisor α π τ :=
  let next := { supervisor with generation := supervisor.generation + 1 }
  match id with
  | some old =>
      if replaceable supervisor id then terminal next old .superseded (some code) else next
  | none => next

def expireActive (now : τ) (supervisor : Supervisor α π τ) : Supervisor α π τ :=
  match supervisor.active with
  | some old => expire clock now supervisor old
  | none => supervisor

/-- The new record, its worker thread not yet spawned. -/
def enroll (later : τ) (supervisor : Supervisor α π τ) (arguments : Arguments α) :
    Supervisor α π τ :=
  let number := supervisor.count + 1
  { supervisor with
    records := fun other =>
      if other = number then
        some
          { request :=
              { requestId := number
                generation := supervisor.generation
                expectedRevision := arguments.expectedRevision
                goal := arguments.goal
                deadline := clock.after later arguments.timeoutMs
                mode := arguments.mode
                delayMs := arguments.delayMs
                transactionId := arguments.transactionId }
            state := .running
            lateResults := 0
            receipt := none
            errorCode := none
            workerCleaned := false
            proposal := none
            prepared := none
            firstSubmissionStarted := false }
      else supervisor.records other
    count := number
    active := some number
    workers := supervisor.workers + 1 }

/-- `_start`; `started` tells whether the thread could be started. -/
def start (now later : τ) (supervisor : Supervisor α π τ) (arguments : Arguments α)
    (supersede started : Bool) : Supervisor α π τ × Except Raised Reply :=
  match checked arguments with
  | .error raised => (supervisor, .error raised)
  | .ok _ =>
      if supervisor.closed then (supervisor, .error .protocol)
      else if supervisor.blocked.isSome then (supervisor, .error .unknown)
      else if decide (8 ≤ supervisor.count) || decide (2 ≤ supervisor.workers) then
        (supervisor, .error .protocol)
      else
        let old := supervisor.active
        let current := expireActive clock now supervisor
        if replaceable current old && !supersede then (current, .error .protocol)
        else
          let cleared :=
            if supersede then advance current old (ascii "SUPERSEDED") else current
          let enrolled := enroll clock later cleared arguments
          let number := enrolled.count
          if started then
            viewed { enrolled with threads := enrolled.threads ++ [(number, .entering)] } number
          else
            let idle := { enrolled with workers := enrolled.workers - 1 }
            let cleaned := change idle number fun record => { record with workerCleaned := true }
            viewed
              (terminal cleaned number .workerFailed (some (ascii "WORKER_START_FAILED")))
              number

def cancel (now : τ) (supervisor : Supervisor α π τ) (id : Nat) :
    Supervisor α π τ × Except Raised Reply :=
  withRecord supervisor id fun _ =>
    let current := expire clock now supervisor id
    withRecord current id fun record =>
      if record.state.busy || record.prepared.isSome then
        (current, .ok (.word (ascii "too_late")))
      else if !record.state.preSubmit then (current, .ok (.word (ascii "terminal")))
      else
        (terminal current id .cancelled (some (ascii "CANCELLED")),
          .ok (.word (ascii "cancelled")))

def restart (now : τ) (supervisor : Supervisor α π τ) :
    Supervisor α π τ × Except Raised Reply :=
  if supervisor.closed then (supervisor, .error .protocol)
  else
    let current := expireActive clock now supervisor
    let next := advance current supervisor.active (ascii "WORKER_RESTARTED")
    (next, .ok (.generation next.generation))

def submit (now : τ) (supervisor : Supervisor α π τ) (id : Nat) (started : Bool) :
    Supervisor α π τ × Except Raised Reply :=
  withRecord supervisor id fun _ =>
    let current := expire clock now supervisor id
    withRecord current id fun record =>
      if record.state = .timedOut then (current, .ok (.status (view record)))
      else if current.closed || decide (record.state ≠ .proposalReady) ||
          decide (current.active ≠ some id) ||
          decide (record.request.generation ≠ current.generation) then
        (current, .error .protocol)
      else if current.blocked.isSome then (current, .error .unknown)
      else
        let submitting := change current id fun record => { record with state := .submitting }
        if started then
          viewed
            { submitting with
              blocked := some id
              mutations := submitting.mutations ++ [(id, .checking)] }
            id
        else
          viewed
            (terminal { submitting with blocked := none } id .workerFailed
              (some (ascii "SUBMIT_START_FAILED")))
            id

def retry (supervisor : Supervisor α π τ) (id : Nat) (started : Bool) :
    Supervisor α π τ × Except Raised Reply :=
  withRecord supervisor id fun record =>
    if supervisor.closed || decide (record.state ≠ .outcomeUnknown) ||
        record.prepared.isNone || !record.firstSubmissionStarted ||
        decide (supervisor.blocked ≠ some id) then
      (supervisor, .error .protocol)
    else if started then
      let submitting := change supervisor id (coded · .submitting none)
      viewed { submitting with mutations := submitting.mutations ++ [(id, .sending)] } id
    else
      viewed (change supervisor id (coded · .outcomeUnknown (some (ascii "OUTCOME_UNKNOWN")))) id

def reconcile (supervisor : Supervisor α π τ) (id : Nat) (started : Bool) :
    Supervisor α π τ × Except Raised Reply :=
  withRecord supervisor id fun record =>
    if supervisor.closed || decide (supervisor.blocked ≠ some id) ||
        decide (record.state ≠ .outcomeUnknown) then
      (supervisor, .error .protocol)
    else if started then
      let reconciling := change supervisor id (coded · .reconciling none)
      viewed { reconciling with mutations := reconciling.mutations ++ [(id, .resyncing)] } id
    else
      viewed
        (change supervisor id (coded · .outcomeUnknown (some (ascii "RECONCILIATION_FAILED"))))
        id

/-- One round of the loop of `close`. -/
def sweep (supervisor : Supervisor α π τ) (id : Nat) : Supervisor α π τ :=
  if replaceable supervisor (some id) then
    terminal supervisor id .cancelled (some (ascii "SUPERVISOR_CLOSED"))
  else supervisor

/-- The first section of `close`; the later ones only look at the threads. -/
def close (supervisor : Supervisor α π τ) : Supervisor α π τ :=
  ((List.range supervisor.count).map (· + 1)).foldl sweep { supervisor with closed := true }

variable (python : Interpreter α)

def message (request : Request α τ) : Value α :=
  .dict
    [(ascii "schema_version", .integer 1), (ascii "request_id", .integer request.requestId),
      (ascii "generation", .integer request.generation),
      (ascii "expected_revision", .integer request.expectedRevision),
      (ascii "goal", wire request.goal), (ascii "mode", .str request.mode),
      (ascii "delay_ms", .integer request.delayMs)]

def frameLimit : Nat := 16384

/-- The checks of `_accept`, outside the lock: the operations that a frame proposes. -/
def proposed (request : Request α τ) (raw : Text) : Except Raised (List (Operation α)) := do
  let value ← decode python raw frameLimit
  let entries ← fields value
    ["schema_version", "request_id", "generation", "expected_revision", "operations"]
  let _ ← integer (get entries "schema_version") 1 1
  let id ← integer (get entries "request_id") 0 uint64Max
  rejectIf (decide (id ≠ request.requestId)) .protocol
  let generation ← integer (get entries "generation") 0 uint64Max
  rejectIf (decide (generation ≠ request.generation)) .protocol
  let revision ← integer (get entries "expected_revision") 0 uint64Max
  rejectIf (decide (revision ≠ request.expectedRevision)) .protocol
  let operations ← operations request.goal
  let expected ← operations.mapM operationDict
  rejectIf (!sameTyped python (get entries "operations") (.list expected)) .protocol
  pure operations

/-- What a worker thread meets outside the lock. -/
structure Outside where
  raises : Option Bool
  received : Option Text
  code : Int
  invalid : Bool
  cleaned : Bool

def moveWorker (supervisor : Supervisor α π τ) (index : Nat) (stage : WorkerStage) :
    Supervisor α π τ :=
  { supervisor with
    threads := supervisor.threads.modify index fun thread => (thread.1, stage) }

/-- A section that ends a record that is still running. -/
def failRunning (supervisor : Supervisor α π τ) (id : Nat) (state : State) (code : Text) :
    Supervisor α π τ :=
  if stateAt supervisor id = some .running then terminal supervisor id state (some code)
  else supervisor

/-- The section of `_accept`. -/
def accept (now : τ) (supervisor : Supervisor α π τ) (id : Nat) (raw : Text)
    (operations : List (Operation α)) : Supervisor α π τ × Option (Event π) :=
  let current := expire clock now supervisor id
  match current.records id with
  | none => (current, none)
  | some record =>
      if current.closed || decide (record.state ≠ .running) ||
          decide (current.active ≠ some id) ||
          decide (record.request.generation ≠ current.generation) then
        (change current id fun record => { record with lateResults := record.lateResults + 1 },
          none)
      else
        (change current id fun record =>
            { record with proposal := some operations, state := .proposalReady },
          some (.accepted id current.generation raw))

/-- The last section of `_worker`. -/
def cleanUp (supervisor : Supervisor α π τ) (id : Nat) (cleaned : Bool) :
    Supervisor α π τ :=
  let marked := change supervisor id fun record => { record with workerCleaned := cleaned }
  if cleaned then { marked with workers := marked.workers - 1 }
  else if replaceable marked (some id) then
    terminal marked id .workerFailed (some (ascii "CLEANUP_FAILED"))
  else marked

/-- What `_worker` does outside the lock: it sends the message and waits. -/
def exchange (now : τ) (request : Request α τ) (outside : Outside) : WorkerStage :=
  match python.dumps (message request) with
  | none => .excepting false
  | some text =>
      if frameLimit < text.length + 1 then .excepting true
      else
        match outside.raises with
        | some isProtocol => .excepting isProtocol
        | none =>
            .judging
              ⟨outside.received, outside.code, outside.invalid,
                clock.reached request.deadline now⟩

/-- Which branch `_worker` takes after the exchange. -/
def judged (exchange : Exchange) : WorkerStage :=
  match exchange.received, decide (exchange.code = 0) with
  | some raw, true => .accepting raw
  | _, _ => if exchange.expired then .cleaning else .crashing exchange.code exchange.invalid

def work (now later : τ) (supervisor : Supervisor α π τ) (index id : Nat)
    (record : Record α π τ) (outside : Outside) :
    WorkerStage → Supervisor α π τ × Option (Event π)
  | .entering =>
      if supervisor.closed || clock.reached record.request.deadline now then
        (moveWorker (expire clock later supervisor id) index .cleaning, none)
      else (moveWorker supervisor index .working, none)
  | .working =>
      (moveWorker supervisor index (exchange clock python now record.request outside), none)
  | .judging exchange =>
      (moveWorker (expire clock now supervisor id) index (judged exchange), none)
  | .accepting raw =>
      match proposed python record.request raw with
      | .error raised =>
          (moveWorker supervisor index (.excepting (decide (raised = .protocol))), none)
      | .ok operations =>
          let done := accept clock now supervisor id raw operations
          (moveWorker done.1 index .cleaning, done.2)
  | .crashing code invalid =>
      let failed :=
        if decide (code ≠ 0) && !invalid then
          failRunning supervisor id .crashed (ascii "WORKER_CRASHED")
        else failRunning supervisor id .workerFailed (ascii "INVALID_PROPOSAL")
      (moveWorker failed index .cleaning, none)
  | .excepting isProtocol =>
      let code := if isProtocol then ascii "INVALID_PROPOSAL" else ascii "WORKER_FAILED"
      (moveWorker (failRunning supervisor id .workerFailed code) index .cleaning, none)
  | .cleaning =>
      let done := cleanUp supervisor id outside.cleaned
      ({ done with threads := done.threads.eraseIdx index }, none)

def errorCodes : List Text :=
  ["NOT_AUTHORIZED", "SESSION_EXPIRED", "INVALID_SCHEMA", "UNSUPPORTED_VERSION",
    "BUDGET_EXCEEDED", "REQUIRES_RESYNC", "NOT_FOUND", "UNSUPPORTED_OPERATION",
    "NONFINITE_VALUE", "DEADLINE_EXPIRED", "QUEUE_FULL", "IDEMPOTENCY_MISMATCH"].map ascii

/-- The error code that `_submit` keeps of an exception. -/
def failureCode : Option Text → Text
  | some code => if errorCodes.contains code then code else ascii "OUTCOME_UNKNOWN"
  | none => ascii "OUTCOME_UNKNOWN"

/-- What a call of the client gives: `prepare`, `submit` and `resync_policy` each have
their own result, and all of them can raise. -/
inductive Result (π : Type) where
  | prepared (prepared : π)
  | receipt (receipt : Receipt)
  | resynced
  | api (code : Text)
  | other

def Result.raised : Result π → Option Text
  | .api code => some code
  | _ => none

def moveMutation (supervisor : Supervisor α π τ) (index : Nat) (stage : MutationStage π) :
    Supervisor α π τ :=
  { supervisor with
    mutations := supervisor.mutations.modify index fun thread => (thread.1, stage) }

def endMutation (supervisor : Supervisor α π τ) (index : Nat) : Supervisor α π τ :=
  { supervisor with mutations := supervisor.mutations.eraseIdx index }

def mutate (now : τ) (supervisor : Supervisor α π τ) (index id : Nat)
    (record : Record α π τ) (result : Result π) :
    MutationStage π → Supervisor α π τ × Option (Event π)
  | .checking =>
      if clock.reached record.request.deadline now then
        (moveMutation supervisor index .expiring, none)
      else (moveMutation supervisor index .preparing, none)
  | .expiring =>
      (endMutation
          (terminal { supervisor with blocked := none } id .timedOut
            (some (ascii "DEADLINE_EXPIRED")))
          index,
        none)
  | .preparing =>
      match result with
      | .prepared prepared => (moveMutation supervisor index (.storing prepared), none)
      | _ => (moveMutation supervisor index (.failing result.raised), none)
  | .storing prepared =>
      (moveMutation
          (change supervisor id fun record => { record with prepared := some prepared })
          index .arming,
        none)
  | .arming =>
      if clock.reached record.request.deadline now then
        (endMutation
            (change supervisor id
              (coded · .outcomeUnknown (some (ascii "DEADLINE_EXPIRED"))))
            index,
          none)
      else
        (moveMutation
            (change supervisor id fun record => { record with firstSubmissionStarted := true })
            index .sending,
          none)
  | .sending => (moveMutation supervisor index .awaiting, some (.submitted id record.prepared))
  | .awaiting =>
      match result with
      | .receipt receipt => (moveMutation supervisor index (.receiving receipt), none)
      | _ => (moveMutation supervisor index (.failing result.raised), none)
  | .receiving receipt =>
      let received :=
        change supervisor id fun record =>
          { record with receipt := some receipt, prepared := none }
      (endMutation
          (terminal { received with blocked := none } id (stateOf receipt.status) none) index,
        none)
  | .failing code =>
      (endMutation
          (change supervisor id (coded · .outcomeUnknown (some (failureCode code)))) index,
        none)
  | .resyncing =>
      match result with
      | .resynced => (moveMutation supervisor index .reconciled, none)
      | _ => (moveMutation supervisor index .unreconciled, none)
  | .reconciled =>
      let resynced := change supervisor id fun record => { record with prepared := none }
      (endMutation (terminal { resynced with blocked := none } id .reconciled none) index, none)
  | .unreconciled =>
      (endMutation
          (change supervisor id
            (coded · .outcomeUnknown (some (ascii "RECONCILIATION_FAILED"))))
          index,
        none)

inductive Input (α π τ : Type) [Scalar α] where
  | status (now : τ) (id : Nat)
  | start (now later : τ) (arguments : Arguments α) (supersede started : Bool)
  | cancel (now : τ) (id : Nat)
  | restart (now : τ)
  | submit (now : τ) (id : Nat) (started : Bool)
  | retry (id : Nat) (started : Bool)
  | reconcile (id : Nat) (started : Bool)
  | close
  | worker (index : Nat) (now later : τ) (outside : Outside)
  | mutation (index : Nat) (now : τ) (result : Result π)

/-- The next step of a thread, if there is one at that place. -/
def threaded {σ : Type} (supervisor : Supervisor α π τ) (threads : List (Nat × σ)) (index : Nat)
    (step : Nat → Record α π τ → σ → Supervisor α π τ × Option (Event π)) :
    Supervisor α π τ × Option (Event π) :=
  match threads[index]? with
  | some (id, stage) =>
      match supervisor.records id with
      | some record => step id record stage
      | none => (supervisor, none)
  | none => (supervisor, none)

def step (supervisor : Supervisor α π τ) :
    Input α π τ → Supervisor α π τ × Option (Event π)
  | .status now id => ((status clock now supervisor id).1, none)
  | .start now later arguments supersede started =>
      ((start clock now later supervisor arguments supersede started).1, none)
  | .cancel now id => ((cancel clock now supervisor id).1, none)
  | .restart now => ((restart clock now supervisor).1, none)
  | .submit now id started => ((submit clock now supervisor id started).1, none)
  | .retry id started => ((retry supervisor id started).1, none)
  | .reconcile id started => ((reconcile supervisor id started).1, none)
  | .close => (close supervisor, none)
  | .worker index now later outside =>
      threaded supervisor supervisor.threads index fun id record stage =>
        work clock python now later supervisor index id record outside stage
  | .mutation index now result =>
      threaded supervisor supervisor.mutations index fun id record stage =>
        mutate clock now supervisor index id record result stage

def run (supervisor : Supervisor α π τ) :
    List (Input α π τ) → Supervisor α π τ × List (Event π)
  | [] => (supervisor, [])
  | input :: rest =>
      let next := step clock python supervisor input
      let done := run next.1 rest
      (done.1, next.2.toList ++ done.2)

end Sections
end Omniweft.Lifecycle
