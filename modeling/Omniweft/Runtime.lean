import Omniweft.OwnerStream
import Omniweft.SdkAnswers

/-!
# Runtime status

A host shows what its owner last published beside what its renderer last presented.
Both are read from atomics of their own, one after the other; the renderer works on
publications that may be old by the time a frame of them is presented.
-/

namespace Omniweft.Runtime

open Omniweft.Outcome World Commands Transactions Simulation Owner

structure PresentationStatus where
  enabled : Bool
  ready : Bool
  frameCount : UInt64
  worldRevision : UInt64
  snapshotSequence : UInt64
  deriving DecidableEq, Repr

structure RuntimeStatus (α : Type) where
  simulationTick : UInt64
  snapshotSequence : UInt64
  overloadCount : UInt64
  droppedTicks : UInt64
  remainderUnits : UInt64
  snapshot : Snapshot α
  presentation : PresentationStatus

/-- What the renderer makes of a publication, as far as its owner hears of it again. -/
structure LiveFrame where
  worldRevision : UInt64
  simulationTick : UInt64
  snapshotSequence : UInt64
  deriving DecidableEq, Repr

variable {α γ κ : Type} [Scalar α]

omit [Scalar α] in
/-- The presentation that the constructor of the owner stores. -/
def initialPresentation (gpu : Bool) : PresentationStatus := ⟨gpu, false, 0, 0, 0⟩

/-- `runtime`, from what its two loads have returned. -/
def runtime (presentation : PresentationStatus) (publication : Published (Snapshot α)) :
    RuntimeStatus α :=
  let stats := publication.clock
  let sequence := stats.simulationTick + 1
  { simulationTick := stats.simulationTick
    snapshotSequence := sequence
    overloadCount := stats.overloadCount
    droppedTicks := stats.droppedTicks
    remainderUnits := stats.remainderUnits
    snapshot := publication.snapshot
    presentation :=
      if sequence < presentation.snapshotSequence ∨
          publication.snapshot.worldRevision < presentation.worldRevision then
        ⟨presentation.enabled, presentation.ready, 0, 0, 0⟩
      else presentation }

def presentationReady (presentation : PresentationStatus) : PresentationStatus :=
  { presentation with ready := true }

def presented (frameCount revision sequence : UInt64) : PresentationStatus :=
  ⟨true, true, frameCount, revision, sequence⟩

def liveFrame (publication : Published (Snapshot α)) : LiveFrame :=
  ⟨publication.snapshot.worldRevision, publication.clock.simulationTick,
    publication.clock.simulationTick + 1⟩

/-- A closure that the gateway dispatches. What it does to the world goes through the
callbacks of the owner, `snapshot` and `apply`; the policy owner puts a guard before
the coordinator. It may throw, and catch what a callback threw. -/
inductive Closure (α γ : Type) where
  | done
  | throws (exception : Thrown)
  | snapshot (next : Snapshot α → Closure α γ)
  | apply (envelope : Envelope α) (guard : Option (StagingGuard α γ)) (state : γ)
      (next : Except Thrown Receipt → Closure α γ)

def Closure.task (library : JsonLibrary α) :
    Closure α γ → EStateM Thrown (LiveWorld α) Unit
  | .done, world => .ok () world
  | .throws exception, world => .error exception world
  | .snapshot next, world => (next world.state).task library world
  | .apply envelope guard state next, world =>
      let applied :=
        applyAtBoundary library world envelope guard (none : Option (CommitObserver α Unit))
          state ()
      (next applied.result).task library applied.world

/-- The owner with its presentation, the frames that the renderer has made, and the
calls of `runtime` that are between their loads. -/
structure Host (κ α : Type) where
  owner : System κ (LiveWorld α) (Snapshot α)
  presentation : PresentationStatus
  frames : List LiveFrame
  queries : List PresentationStatus

/-- What a thread of the host does next. -/
inductive Act (α γ : Type) where
  | elapse (nanoseconds : Nat)
  | requestStop
  | dispatch (closure : Closure α γ) (deadline : Nat) (authoring : Bool)
  | timeOut (job : Nat)
  | wake (job : Nat)
  | owner (fails : Bool)
  | latest
  | ready
  | present (frame : Nat) (count : UInt64)
  | load
  | answer (query : Nat)

/-- What is seen of it: an event of the owner, or a status that a call of `runtime` with
this presentation returned. -/
inductive Moment (α : Type) where
  | owner (event : Event (Snapshot α))
  | status (loaded : PresentationStatus) (status : RuntimeStatus α)

/-- A section of the owner or of a gateway thread. -/
def Host.section (pool : Backlog κ) (host : Host κ α) (input : Owner.Input (LiveWorld α)) :
    Host κ α × Option (Moment α) :=
  let done := Owner.step pool LiveWorld.state host.owner input
  ({ host with owner := done.1 }, done.2.map .owner)

def Host.step (pool : Backlog κ) (library : JsonLibrary α) (host : Host κ α) :
    Act α γ → Host κ α × Option (Moment α)
  -- The clock is not read past its range.
  | .elapse nanoseconds =>
      if host.owner.now + nanoseconds < clockEnd then host.section pool (.elapse nanoseconds)
      else (host, none)
  | .requestStop => host.section pool .requestStop
  | .dispatch closure deadline authoring =>
      host.section pool (.dispatch (closure.task library) deadline authoring)
  | .timeOut job => host.section pool (.timeOut job)
  | .wake job => host.section pool (.wake job)
  | .owner fails => host.section pool (.owner fails)
  | .latest => ({ host with frames := host.frames ++ [liveFrame host.owner.published] }, none)
  | .ready => ({ host with presentation := presentationReady host.presentation }, none)
  | .present frame count =>
      match host.frames[frame]? with
      | some frame =>
          ({ host with
              presentation := presented count frame.worldRevision frame.snapshotSequence },
            none)
      | none => (host, none)
  | .load => ({ host with queries := host.queries ++ [host.presentation] }, none)
  | .answer query =>
      match host.queries[query]? with
      | some loaded => (host, some (.status loaded (runtime loaded host.owner.published)))
      | none => (host, none)

def Host.run (pool : Backlog κ) (library : JsonLibrary α) (host : Host κ α) :
    List (Act α γ) → Host κ α × List (Moment α)
  | [] => (host, [])
  | act :: rest =>
      let done := host.step pool library act
      let later := done.1.run pool library rest
      (later.1, done.2.toList ++ later.2)

/-- A host as it is started with an owner of either kind. -/
def Host.start (pool : Backlog κ) (gpu : Bool) (world : LiveWorld α) (now deadline : Nat) :
    Host κ α where
  owner := Owner.start pool LiveWorld.state world now deadline
  presentation := initialPresentation gpu
  frames := []
  queries := []

def presentationJson (presentation : PresentationStatus) : Json α :=
  .object
    [(ascii "enabled", .boolean presentation.enabled),
      (ascii "frame_count", .unsigned presentation.frameCount),
      (ascii "ready", .boolean presentation.ready),
      (ascii "snapshot_sequence", .unsigned presentation.snapshotSequence),
      (ascii "world_revision", .unsigned presentation.worldRevision)]

/-- `runtime_json`. -/
def runtimeJson (status : RuntimeStatus α) : Json α :=
  .object
    [(ascii "dropped_ticks", .unsigned status.droppedTicks),
      (ascii "max_catch_up_steps", .unsigned 4),
      (ascii "overload_count", .unsigned status.overloadCount),
      (ascii "presentation", presentationJson status.presentation),
      (ascii "remainder_units", .unsigned status.remainderUnits),
      (ascii "schema_version", .unsigned 1),
      (ascii "simulation_tick", .unsigned status.simulationTick),
      (ascii "snapshot", Control.snapshotObject status.snapshot),
      (ascii "snapshot_sequence", .unsigned status.snapshotSequence),
      (ascii "tick_rate_hz", .unsigned 60)]

end Omniweft.Runtime

namespace Omniweft.Sdk

open Omniweft.Outcome Python

variable {α : Type} [Scalar α]

structure PresentationStatus where
  enabled : Bool
  ready : Bool
  frameCount : Int
  worldRevision : Int
  snapshotSequence : Int
  deriving DecidableEq

structure RuntimeStatus (α : Type) where
  simulationTick : Int
  snapshotSequence : Int
  overloadCount : Int
  droppedTicks : Int
  remainderUnits : Int
  snapshot : Snapshot α
  presentation : PresentationStatus

/-- `PresentationStatus.from_dict`. -/
def readPresentation (value : Value α) : Except Raised PresentationStatus := do
  let entries ← fields value
    ["enabled", "ready", "frame_count", "world_revision", "snapshot_sequence"]
  let enabled ← boolean (get entries "enabled")
  let ready ← boolean (get entries "ready")
  let frameCount ← integer (get entries "frame_count") 0 uint64Max
  let worldRevision ← integer (get entries "world_revision") 0 uint64Max
  let snapshotSequence ← integer (get entries "snapshot_sequence") 0 uint64Max
  rejectIf
    (!enabled &&
      (ready || frameCount != 0 || worldRevision != 0 || snapshotSequence != 0))
    .protocol
  rejectIf (frameCount == 0 && worldRevision != 0) .protocol
  rejectIf (!ready && frameCount != 0) .protocol
  rejectIf ((frameCount == 0) != (snapshotSequence == 0)) .protocol
  pure ⟨enabled, ready, frameCount, worldRevision, snapshotSequence⟩

/-- `RuntimeStatus.from_dict`. -/
def readRuntime (python : Interpreter α) (value : Value α) :
    Except Raised (RuntimeStatus α) := do
  let entries ← fields value
    ["schema_version", "tick_rate_hz", "max_catch_up_steps", "simulation_tick",
      "snapshot_sequence", "overload_count", "dropped_ticks", "remainder_units", "snapshot",
      "presentation"]
  let version ← integer (get entries "schema_version") 0 uint64Max
  rejectIf (version != 1) .protocol
  let rate ← integer (get entries "tick_rate_hz") 0 uint64Max
  rejectIf (rate != 60) .protocol
  let steps ← integer (get entries "max_catch_up_steps") 0 uint64Max
  rejectIf (steps != 4) .protocol
  let simulationTick ← integer (get entries "simulation_tick") 0 uint64Max
  let snapshotSequence ← integer (get entries "snapshot_sequence") 0 uint64Max
  let overloadCount ← integer (get entries "overload_count") 0 uint64Max
  let droppedTicks ← integer (get entries "dropped_ticks") 0 uint64Max
  let remainderUnits ← integer (get entries "remainder_units") 0 999999999
  rejectIf
    (snapshotSequence != simulationTick + 1 || decide (droppedTicks < overloadCount))
    .protocol
  let snapshot ← readSnapshot python (get entries "snapshot")
  let presentation ← readPresentation (get entries "presentation")
  rejectIf
    (decide (snapshot.worldRevision < presentation.worldRevision) ||
      decide (snapshotSequence < presentation.snapshotSequence))
    .protocol
  pure
    { simulationTick := simulationTick
      snapshotSequence := snapshotSequence
      overloadCount := overloadCount
      droppedTicks := droppedTicks
      remainderUnits := remainderUnits
      snapshot := snapshot
      presentation := presentation }

end Omniweft.Sdk
