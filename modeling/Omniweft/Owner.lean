import Omniweft.Transactions

/-!
# The simulation owners

An owner thread advances a fixed-step clock and runs the tasks that gateway threads
dispatch to it, authoring tasks only inside a tick. The policy owner keeps its
pending jobs in a queue of two, the agents owner in one slot; everything else they
share. A section under the mutex reads the clock once: deadlines only pass, so a
later reading inside the section would be as good for the whole of it.
-/

namespace Omniweft.Simulation

structure StepStats where
  simulationTick : UInt64
  overloadCount : UInt64
  droppedTicks : UInt64
  remainderUnits : UInt64
  deriving DecidableEq, Repr

structure StepBatch where
  dueTicks : UInt64
  executedTicks : UInt64
  droppedTicks : UInt64
  remainderUnits : UInt64
  overloaded : Bool
  deriving DecidableEq, Repr

def catchUpCap : UInt64 := 4
def phaseUnits : UInt64 := 1000000000

def phaseAfter (stats : StepStats) (elapsed : UInt64) : UInt64 :=
  stats.remainderUnits + elapsed % phaseUnits * 60

def dueAfter (stats : StepStats) (elapsed : UInt64) : UInt64 :=
  elapsed / phaseUnits * 60 + phaseAfter stats elapsed / phaseUnits

/-- The batch that `FixedStepper::advance` works through. -/
def batchAfter (stats : StepStats) (elapsed : UInt64) : StepBatch :=
  let due := dueAfter stats elapsed
  { dueTicks := due
    executedTicks := min due catchUpCap
    droppedTicks := if catchUpCap < due then due - catchUpCap else 0
    remainderUnits := phaseAfter stats elapsed % phaseUnits
    overloaded := decide (catchUpCap < due) }

/-- A cumulative counter would overflow; `advance` throws before any callback. -/
def exhausts (stats : StepStats) (batch : StepBatch) : Bool :=
  decide (Transactions.maximum64 - batch.executedTicks < stats.simulationTick) ||
    decide (Transactions.maximum64 - batch.droppedTicks < stats.droppedTicks) ||
      (batch.overloaded && stats.overloadCount == Transactions.maximum64)

/-- The counters after the last callback of a batch. -/
def closed (stats : StepStats) (batch : StepBatch) : StepStats :=
  { stats with
    droppedTicks := stats.droppedTicks + batch.droppedTicks
    overloadCount := stats.overloadCount + if batch.overloaded then 1 else 0
    remainderUnits := batch.remainderUnits }

end Omniweft.Simulation

namespace Omniweft.Owner

open Transactions Simulation

/-- What `execute_job` does to the pending jobs: those it cancels, the one it
claims, and what stays. -/
structure Claimed (κ : Type) where
  canceled : List Nat
  job : Option Nat
  backlog : κ

/-- A container of pending jobs, by the order in which they came. -/
structure Backlog (κ : Type) where
  empty : κ
  jobs : κ → List Nat
  full : κ → Bool
  push : κ → Nat → κ
  erase : κ → Nat → κ
  claim : (Nat → Bool) → (Nat → Bool) → κ → Claimed κ
  jobs_empty : jobs empty = []
  jobs_push :
    ∀ backlog job, full backlog = false → jobs (push backlog job) = jobs backlog ++ [job]
  jobs_erase : ∀ backlog job, jobs (erase backlog job) = (jobs backlog).erase job
  jobs_claim :
    ∀ expired ready backlog,
      let done := claim expired ready backlog
      ∃ rest,
        jobs backlog = done.canceled ++ rest ∧
          (∀ job, done.job = some job → job ∈ rest ∧ ready job = true) ∧
          jobs done.backlog = done.job.elim rest rest.erase

/-- The queue of the policy owner: the expired front is canceled, then the first job
that may run is claimed. -/
def claimQueue (expired ready : Nat → Bool) (pending : List Nat) : Claimed (List Nat) :=
  let canceled := pending.takeWhile expired
  let rest := pending.dropWhile expired
  match rest.find? ready with
  | none => ⟨canceled, none, rest⟩
  | some job => ⟨canceled, some job, rest.erase job⟩

/-- The slot of the agents owner. -/
def claimSlot (expired ready : Nat → Bool) (pending : Option Nat) : Claimed (Option Nat) :=
  match pending with
  | none => ⟨[], none, none⟩
  | some job =>
      if expired job then ⟨[job], none, none⟩
      else if ready job then ⟨[], some job, none⟩
      else ⟨[], none, some job⟩

def policyBacklog : Backlog (List Nat) where
  empty := []
  jobs := id
  full pending := decide (2 ≤ pending.length)
  push pending job := pending ++ [job]
  erase pending job := pending.erase job
  claim := claimQueue
  jobs_empty := rfl
  jobs_push _ _ _ := rfl
  jobs_erase _ _ := rfl
  jobs_claim expired ready pending := by
    refine ⟨pending.dropWhile expired, ?_⟩
    cases found : (pending.dropWhile expired).find? ready with
    | none => simp [claimQueue, found]
    | some job =>
        have member := List.mem_of_find?_eq_some found
        have may := List.find?_some found
        simp [claimQueue, found, member, may]

def agentsBacklog : Backlog (Option Nat) where
  empty := none
  jobs := Option.toList
  full := Option.isSome
  push _ job := some job
  erase pending job := if pending = some job then none else pending
  claim := claimSlot
  jobs_empty := rfl
  jobs_push pending job room := by
    rw [Option.isSome_eq_false_iff, Option.isNone_iff_eq_none] at room
    rw [room]
    rfl
  jobs_erase pending job := by
    cases pending with
    | none => rfl
    | some held => by_cases same : held = job <;> simp [same]
  jobs_claim expired ready pending := by
    cases pending with
    | none => exact ⟨[], rfl, by simp [claimSlot], rfl⟩
    | some held =>
        by_cases late : expired held = true
        · exact ⟨[], by simp [claimSlot, late], by simp [claimSlot, late],
            by simp [claimSlot, late]⟩
        · by_cases may : ready held = true
          · refine ⟨[held], by simp [claimSlot, late, may], ?_, by simp [claimSlot, late, may]⟩
            intro job claimed
            simp only [claimSlot, late, may, if_true, Bool.false_eq_true, if_false,
              Option.some.injEq] at claimed
            rw [← claimed]
            exact ⟨List.mem_singleton_self held, may⟩
          · exact ⟨[held], by simp [claimSlot, late, may], by simp [claimSlot, late, may],
              by simp [claimSlot, late, may]⟩

inductive State where
  | pending
  | running
  | completed
  | canceled
  deriving DecidableEq, Repr

/-- How `dispatch` ends: it returns false or true, or it rethrows. -/
inductive Answer where
  | refused
  | done
  | threw (exception : Thrown)
  deriving DecidableEq, Repr

/-- A job with the call of `dispatch` that made it; `answer` is empty while that call
has not returned. -/
structure Job (σ : Type) where
  task : EStateM Thrown σ Unit
  deadline : Nat
  authoring : Bool
  state : State
  failure : Option Thrown
  answer : Option Answer

structure Published (ν : Type) where
  clock : StepStats
  snapshot : ν
  deriving DecidableEq, Repr

/-- A batch of ticks in the middle: what `run` computed for itself, the batch of the
stepper, and how many callbacks are over. -/
structure Batch where
  ordinal : Nat
  prior : StepStats
  due : UInt64
  phase : UInt64
  overloaded : Bool
  steps : StepBatch
  index : UInt64

/-- Where the owner thread stands in `run`. The job is the local `completed`. -/
inductive Phase where
  | turning
  | ticking (batch : Batch) (completed : Option Nat)
  | working (batch : Batch) (job : Nat)
  | publishing (batch : Batch) (completed : Option Nat)
  | settling (completed : Option Nat)
  | polling
  | serving (job : Nat)
  | finishing (job : Nat)
  | failing (exception : Thrown) (completed : Option Nat)
  | notifying (exception : Thrown) (completed : Option Nat)
  | canceling
  | ended

structure System (κ σ ν : Type) where
  jobs : List (Job σ)
  backlog : κ
  now : Nat
  deadline : Nat
  stop : Bool
  failed : Bool
  phase : Phase
  previous : Nat
  stats : StepStats
  batches : Nat
  world : σ
  published : Published ν

/-- A task that was run: whether inside a tick, and then of which batch; what it
threw; and the snapshot of the world it left. -/
structure Run (ν : Type) where
  job : Nat
  authoring : Bool
  inside : Option (Nat × StepBatch)
  failure : Option Thrown
  left : ν
  deriving DecidableEq, Repr

inductive Event (ν : Type) where
  | returned (job : Nat) (answer : Answer)
  | began (ordinal : Nat) (batch : StepBatch)
  | ran (run : Run ν)
  | published (entry : Published ν)
  | over
  deriving DecidableEq, Repr

section Sections

variable {κ σ ν : Type}

def stopping (system : System κ σ ν) : Bool :=
  system.stop || decide (system.deadline ≤ system.now)

/-- Some jobs are changed, the others stay. -/
def change (system : System κ σ ν) (which : Nat → Bool) (edit : Job σ → Job σ) :
    System κ σ ν :=
  { system with
    jobs := system.jobs.mapIdx fun index job => if which index then edit job else job }

def moved (system : System κ σ ν) (phase : Phase) : System κ σ ν :=
  { system with phase := phase }

/-- The first section of `dispatch`: the job is refused or pushed. -/
def enter (pool : Backlog κ) (system : System κ σ ν) (task : EStateM Thrown σ Unit)
    (deadline : Nat) (authoring : Bool) : System κ σ ν × Option (Event ν) :=
  let limit := min deadline system.deadline
  let index := system.jobs.length
  if stopping system || pool.full system.backlog || decide (limit ≤ system.now) then
    ({ system with
        jobs := system.jobs ++ [⟨task, limit, authoring, .pending, none, some .refused⟩] },
      some (.returned index .refused))
  else
    ({ system with
        jobs := system.jobs ++ [⟨task, limit, authoring, .pending, none, none⟩]
        backlog := pool.push system.backlog index },
      none)

/-- `wait_until` timed out: a job that is still pending is withdrawn. -/
def timeOut (pool : Backlog κ) (system : System κ σ ν) (index : Nat) :
    System κ σ ν × Option (Event ν) :=
  match system.jobs[index]? with
  | some job =>
      if job.answer.isNone && job.state = .pending && decide (job.deadline ≤ system.now) then
        ({ change system (· == index) fun job =>
              { job with state := .canceled, answer := some .refused } with
            backlog := pool.erase system.backlog index },
          some (.returned index .refused))
      else (system, none)
  | none => (system, none)

/-- What a waiter returns once its job is over. -/
def outcome (job : Job σ) : Option Answer :=
  match job.state with
  | .canceled => some .refused
  | .completed =>
      match job.failure with
      | some exception => some (.threw exception)
      | none => some .done
  | _ => none

/-- A waiter looks at its job again. -/
def wake (system : System κ σ ν) (index : Nat) : System κ σ ν × Option (Event ν) :=
  match system.jobs[index]? with
  | some job =>
      match job.answer, outcome job with
      | none, some answer =>
          (change system (· == index) fun job => { job with answer := some answer },
            some (.returned index answer))
      | _, _ => (system, none)
  | none => (system, none)

def authoringAt (system : System κ σ ν) (index : Nat) : Bool :=
  (system.jobs[index]?).any Job.authoring

def deadlineAt (system : System κ σ ν) (index : Nat) : Nat :=
  (system.jobs[index]?).elim 0 Job.deadline

/-- The section of `execute_job`: the job it claims and the state after it. -/
def executeJob (pool : Backlog κ) (system : System κ σ ν) (tick overloaded : Bool) :
    Option Nat × System κ σ ν :=
  let expired := fun index =>
    stopping system || decide (deadlineAt system index ≤ system.now)
  let ready := fun index => !authoringAt system index || (tick && !overloaded)
  let done := pool.claim expired ready system.backlog
  let canceled := change system done.canceled.contains fun job => { job with state := .canceled }
  let running := change canceled (done.job == some ·) fun job => { job with state := .running }
  (done.job, { running with backlog := done.backlog })

/-- The body of `execute_job`: the task of a claimed job, and what it threw. -/
def runTask (system : System κ σ ν) (index : Nat) : Option Thrown × System κ σ ν :=
  match system.jobs[index]? with
  | none => (none, system)
  | some job =>
      let ran : Option Thrown × σ :=
        match job.task system.world with
        | .ok _ world => (none, world)
        | .error exception world => (some exception, world)
      (ran.1,
        { change system (· == index) fun job => { job with failure := ran.1 } with
          world := ran.2 })

/-- The task of a claimed job with the event of it. -/
def perform (snapshot : σ → ν) (system : System κ σ ν) (index : Nat)
    (inside : Option (Nat × StepBatch)) : System κ σ ν × Event ν :=
  let done := runTask system index
  (done.2, .ran ⟨index, authoringAt system index, inside, done.1, snapshot done.2.world⟩)

def finish (system : System κ σ ν) (completed : Option Nat) : System κ σ ν :=
  change system (completed == some ·) fun job => { job with state := .completed }

def cancelPending (pool : Backlog κ) (system : System κ σ ν) : System κ σ ν :=
  { change system (pool.jobs system.backlog).contains fun job =>
      { job with state := .canceled } with
    backlog := pool.empty }

/-- The head of the loop: it is over, or the elapsed time makes a batch. -/
def turn (system : System κ σ ν) : System κ σ ν × Option (Event ν) :=
  if stopping system then (moved system .canceling, some .over)
  else
    let elapsed := (system.now - system.previous).toUInt64
    let prior := system.stats
    let due := dueAfter prior elapsed
    let steps := batchAfter prior elapsed
    let begun := { system with previous := system.now }
    if exhausts prior steps then (moved begun (.failing .other none), some .over)
    else
      ({ begun with
          phase := .ticking
            ⟨system.batches, prior, due, phaseAfter prior elapsed, decide (4 < due), steps, 0⟩
            none
          batches := system.batches + 1 },
        some (.began system.batches steps))

/-- A callback of `advance`, or its end. A job is claimed unless one was already. -/
def tick (pool : Backlog κ) (system : System κ σ ν) (batch : Batch)
    (completed : Option Nat) : System κ σ ν :=
  if batch.index < batch.steps.executedTicks then
    match completed with
    | some job => moved system (.publishing batch (some job))
    | none =>
        let done := executeJob pool system true batch.overloaded
        match done.1 with
        | some job => moved done.2 (.working batch job)
        | none => moved done.2 (.publishing batch none)
  else
    moved { system with stats := closed system.stats batch.steps } (.settling completed)

/-- The publication of a tick, whose allocation may fail. -/
def publish (snapshot : σ → ν) (system : System κ σ ν) (batch : Batch)
    (completed : Option Nat) (fails : Bool) : System κ σ ν × Option (Event ν) :=
  if fails then (moved system (.failing .other completed), some .over)
  else
    let next := system.stats.simulationTick + 1
    let entry : Published ν :=
      ⟨⟨next, batch.prior.overloadCount + (if batch.overloaded then 1 else 0),
          batch.prior.droppedTicks + (if batch.overloaded then batch.due - 4 else 0),
          batch.phase % 1000000000⟩,
        snapshot system.world⟩
    ({ system with
        published := entry
        stats := { system.stats with simulationTick := next }
        phase := .ticking { batch with index := batch.index + 1 } completed },
      some (.published entry))

/-- The next section or task body of the owner thread. -/
def proceed (pool : Backlog κ) (snapshot : σ → ν) (system : System κ σ ν) (fails : Bool) :
    System κ σ ν × Option (Event ν) :=
  match system.phase with
  | .turning => turn system
  | .ticking batch completed => (tick pool system batch completed, none)
  | .working batch job =>
      let done := perform snapshot system job (some (batch.ordinal, batch.steps))
      (moved done.1 (.publishing batch (some job)), some done.2)
  | .publishing batch completed => publish snapshot system batch completed fails
  | .settling completed => (moved (finish system completed) .polling, none)
  | .polling =>
      let done := executeJob pool system false false
      match done.1 with
      | some job => (moved done.2 (.serving job), none)
      | none => (moved done.2 .turning, none)
  | .serving job =>
      let done := perform snapshot system job none
      (moved done.1 (.finishing job), some done.2)
  | .finishing job => (moved (finish system (some job)) .turning, none)
  | .failing exception completed =>
      (moved { system with failed := true, stop := true } (.notifying exception completed), none)
  | .notifying exception completed =>
      let told := change system (completed == some ·) fun job =>
        { job with failure := some exception }
      (moved (finish told completed) .canceling, none)
  | .canceling => (moved (cancelPending pool system) .ended, none)
  | .ended => (system, none)

/-- Any thread may take its next section; time passes and a stop may be requested in
between. `fails` is whether a publication that comes now fails. -/
inductive Input (σ : Type) where
  | elapse (nanoseconds : Nat)
  | requestStop
  | dispatch (task : EStateM Thrown σ Unit) (deadline : Nat) (authoring : Bool)
  | timeOut (job : Nat)
  | wake (job : Nat)
  | owner (fails : Bool)

def step (pool : Backlog κ) (snapshot : σ → ν) (system : System κ σ ν) :
    Input σ → System κ σ ν × Option (Event ν)
  | .elapse nanoseconds => ({ system with now := system.now + nanoseconds }, none)
  | .requestStop => ({ system with stop := true }, none)
  | .dispatch task deadline authoring => enter pool system task deadline authoring
  | .timeOut job => Owner.timeOut pool system job
  | .wake job => Owner.wake system job
  | .owner fails => proceed pool snapshot system fails

/-- The owner as it is constructed, and `run` before its first turn. -/
def start (pool : Backlog κ) (snapshot : σ → ν) (world : σ) (now deadline : Nat) :
    System κ σ ν where
  jobs := []
  backlog := pool.empty
  now := now
  deadline := deadline
  stop := false
  failed := false
  phase := .turning
  previous := now
  stats := ⟨0, 0, 0, 0⟩
  batches := 0
  world := world
  published := ⟨⟨0, 0, 0, 0⟩, snapshot world⟩

/-- The state a run ends in, and its log. -/
def run (pool : Backlog κ) (snapshot : σ → ν) (system : System κ σ ν) :
    List (Input σ) → System κ σ ν × List (Event ν)
  | [] => (system, [])
  | input :: rest =>
      let done := step pool snapshot system input
      let later := run pool snapshot done.1 rest
      (later.1, done.2.toList ++ later.2)

end Sections
end Omniweft.Owner
