import Omniweft.Runtime
import Omniweft.TransactionsRuns
import Omniweft.JsonText

/-!
# Publications, presentations and statuses

In every run of a host the publications are counted without a gap and their worlds only
grow newer. What was presented was published before, and what is loaded second is at
least as new: the status shows both.
-/

namespace Omniweft.Runtime

open Omniweft.Outcome World Commands Transactions Simulation Owner

variable {α γ κ : Type} [Scalar α]

omit [Scalar α] in
def revisionOf (snapshot : Snapshot α) : Nat := snapshot.worldRevision.toNat

/-- The coordinator never takes a world back. -/
theorem apply_advances (library : JsonLibrary α) (world : LiveWorld α) (envelope : Envelope α)
    (guard : Option (StagingGuard α γ)) (state : γ) :
    revisionOf world.state ≤
      revisionOf
        (applyAtBoundary library world envelope guard (none : Option (CommitObserver α Unit))
          state ()).world.state := by
  rcases apply_commits_or_keeps library world envelope guard
      (none : Option (CommitObserver α Unit)) none state () with
    ⟨next, created, commits, published, _⟩ | ⟨kept, _⟩
  · rw [applyAtBoundary, published]
    change world.state.worldRevision.toNat ≤ next.worldRevision.toNat
    rw [commits.revision.2]
    exact Nat.le_succ _
  · rw [applyAtBoundary, kept]

theorem closure_advances (library : JsonLibrary α) (closure : Closure α γ) :
    Advances LiveWorld.state revisionOf (closure.task library) := by
  induction closure with
  | done =>
      intro world next ended
      rcases ended with ⟨result, same⟩ | ⟨exception, impossible⟩
      · injection same with _ world_
        rw [world_]
      · cases impossible
  | throws exception =>
      intro world next ended
      rcases ended with ⟨result, impossible⟩ | ⟨raised, same⟩
      · cases impossible
      · injection same with _ world_
        rw [world_]
  | snapshot next continues =>
      intro world after ended
      exact continues world.state world after ended
  | apply envelope guard state next continues =>
      intro world after ended
      exact (apply_advances library world envelope guard state).trans
        (continues _ _ after ended)

/-- A presentation that a status beside this publication shows as it is. -/
structure Presentable (gpu : Bool) (published : Published (Snapshot α))
    (presentation : PresentationStatus) : Prop where
  enabled : presentation.enabled = gpu
  disabled : gpu = false → presentation = initialPresentation false
  ready : presentation.ready = false → presentation.frameCount = 0
  counted : presentation.frameCount = 0 ↔ presentation.snapshotSequence = 0
  blank : presentation.frameCount = 0 → presentation.worldRevision = 0
  revision : presentation.worldRevision.toNat ≤ published.snapshot.worldRevision.toNat
  sequence :
    presentation.snapshotSequence.toNat ≤ published.clock.simulationTick.toNat + 1

/-- What the SDK and the readers of a status rely on. -/
structure Acceptable (loaded : PresentationStatus) (status : RuntimeStatus α) : Prop where
  sequence : status.snapshotSequence.toNat = status.simulationTick.toNat + 1
  overloads : status.overloadCount.toNat ≤ status.droppedTicks.toNat
  remainder : status.remainderUnits.toNat < 1000000000
  shown : status.presentation = loaded
  revision : status.presentation.worldRevision.toNat ≤ status.snapshot.worldRevision.toNat
  presented :
    status.presentation.snapshotSequence.toNat ≤ status.snapshotSequence.toNat
  counted :
    status.presentation.frameCount = 0 ↔ status.presentation.snapshotSequence = 0

omit [Scalar α] in
theorem sequence_toNat {published : Published (Snapshot α)}
    (early : published.clock.simulationTick.toNat + 1 < 2 ^ 64) :
    (published.clock.simulationTick + 1).toNat =
      published.clock.simulationTick.toNat + 1 := by
  rw [UInt64.toNat_add]
  exact Nat.mod_eq_of_lt (by simpa using early)

omit [Scalar α] in
theorem runtime_shown {gpu : Bool} {published : Published (Snapshot α)}
    {loaded : PresentationStatus} (presentable : Presentable gpu published loaded)
    (early : published.clock.simulationTick.toNat + 1 < 2 ^ 64) :
    (runtime loaded published).presentation = loaded := by
  have sequence := sequence_toNat early
  have older : ¬ (published.clock.simulationTick + 1 < loaded.snapshotSequence ∨
      published.snapshot.worldRevision < loaded.worldRevision) := by
    intro newer
    rcases newer with frame | world
    · rw [UInt64.lt_iff_toNat_lt, sequence] at frame
      exact absurd presentable.sequence (Nat.not_le.mpr frame)
    · rw [UInt64.lt_iff_toNat_lt] at world
      exact absurd presentable.revision (Nat.not_le.mpr world)
  exact if_neg older

omit [Scalar α] in
theorem runtime_acceptable {gpu : Bool} {published : Published (Snapshot α)}
    {loaded : PresentationStatus} (presentable : Presentable gpu published loaded)
    (sound : Sound published.clock)
    (early : published.clock.simulationTick.toNat + 1 < 2 ^ 64) :
    Acceptable loaded (runtime loaded published) := by
  have shown := runtime_shown presentable early
  have sequence := sequence_toNat early
  exact
    { sequence := sequence
      overloads := sound.1
      remainder := sound.2
      shown := shown
      revision := by
        rw [shown]
        exact presentable.revision
      presented := by
        rw [shown]
        change _ ≤ (published.clock.simulationTick + 1).toNat
        rw [sequence]
        exact presentable.sequence
      counted := by
        rw [shown]
        exact presentable.counted }

theorem zero_iff (number : UInt64) : ((number.toNat : Int) == 0) = (number == 0) := by
  rw [Bool.eq_iff_iff, beq_iff_eq, beq_iff_eq, ← UInt64.toNat_inj]
  simp

/-- A presentation as the SDK keeps it. -/
def seenPresentation (presentation : PresentationStatus) : Sdk.PresentationStatus where
  enabled := presentation.enabled
  ready := presentation.ready
  frameCount := presentation.frameCount.toNat
  worldRevision := presentation.worldRevision.toNat
  snapshotSequence := presentation.snapshotSequence.toNat

omit [Scalar α] in
theorem readPresentation_image {gpu : Bool} {published : Published (Snapshot α)}
    {presentation : PresentationStatus} (presentable : Presentable gpu published presentation) :
    Sdk.readPresentation (presentationJson presentation : Json α).image =
      .ok (seenPresentation presentation) := by
  let entries : Python.Entries α :=
    [(ascii "enabled", .boolean presentation.enabled),
      (ascii "frame_count", .integer presentation.frameCount.toNat),
      (ascii "ready", .boolean presentation.ready),
      (ascii "snapshot_sequence", .integer presentation.snapshotSequence.toNat),
      (ascii "world_revision", .integer presentation.worldRevision.toNat)]
  have shape : Python.fields (presentationJson presentation : Json α).image
      ["enabled", "ready", "frame_count", "world_revision", "snapshot_sequence"] =
        .ok entries := rfl
  have enabled : Sdk.boolean (Python.get entries "enabled") = .ok presentation.enabled := rfl
  have ready : Sdk.boolean (Python.get entries "ready") = .ok presentation.ready := rfl
  have count : Python.integer (Python.get entries "frame_count") 0 Python.uint64Max =
      .ok (presentation.frameCount.toNat : Int) := Sdk.integer_unsigned (by omega)
  have revision : Python.integer (Python.get entries "world_revision") 0 Python.uint64Max =
      .ok (presentation.worldRevision.toNat : Int) := Sdk.integer_unsigned (by omega)
  have sequence : Python.integer (Python.get entries "snapshot_sequence") 0 Python.uint64Max =
      .ok (presentation.snapshotSequence.toNat : Int) := Sdk.integer_unsigned (by omega)
  have off : (!presentation.enabled &&
      (presentation.ready || (presentation.frameCount.toNat : Int) != 0 ||
        (presentation.worldRevision.toNat : Int) != 0 ||
        (presentation.snapshotSequence.toNat : Int) != 0)) = false := by
    cases gpu with
    | true => simp [presentable.enabled]
    | false => simp [presentable.disabled rfl, initialPresentation]
  have blank : ((presentation.frameCount.toNat : Int) == 0 &&
      (presentation.worldRevision.toNat : Int) != 0) = false := by
    rw [bne, zero_iff, zero_iff]
    by_cases none : presentation.frameCount = 0
    · simp [presentable.blank none]
    · simp [none]
  have shown : (!presentation.ready && (presentation.frameCount.toNat : Int) != 0) = false := by
    rw [bne, zero_iff]
    cases held : presentation.ready with
    | true => rfl
    | false => simp [presentable.ready held]
  have counted : (((presentation.frameCount.toNat : Int) == 0) !=
      ((presentation.snapshotSequence.toNat : Int) == 0)) = false := by
    have both := presentable.counted
    rw [zero_iff, zero_iff, bne_eq_false_iff_eq, Bool.eq_iff_iff, beq_iff_eq, beq_iff_eq]
    exact both
  simp only [Sdk.readPresentation, shape, enabled, ready, count, revision, sequence, off, blank,
    shown, counted, rejectIf_false, bind, Except.bind, pure, Except.pure]
  rfl

/-- The revision that the reader of a snapshot returns is the one it was shown. -/
theorem readSnapshot_revision {python : Python.Interpreter α} {snapshot : Snapshot α}
    {seen : Sdk.Snapshot α}
    (read : Sdk.readSnapshot python (Control.snapshotObject snapshot).image = .ok seen) :
    seen.worldRevision = snapshot.worldRevision.toNat := by
  let entries : Python.Entries α :=
    [(ascii "format_version", (Json.unsigned snapshot.formatVersion.toUInt64).image),
      (ascii "max_slots", (Json.unsigned snapshot.maxSlots.toUInt64).image),
      (ascii "seed", (Json.unsigned snapshot.seed.toUInt64).image),
      (ascii "slots", (Json.array (snapshot.slots.map Control.slotJson)).image),
      (ascii "world_id", .str snapshot.worldId),
      (ascii "world_revision", (Json.unsigned snapshot.worldRevision).image)]
  have shape : Python.fields (Control.snapshotObject snapshot).image
      ["format_version", "world_id", "seed", "max_slots", "world_revision", "slots"] =
        .ok entries := rfl
  have shown : Python.get entries "world_revision" =
      .integer (snapshot.worldRevision.toNat : Int) := rfl
  simp only [Sdk.readSnapshot, shape, bind_eq_ok, Except.ok.injEq, exists_eq_left'] at read
  obtain ⟨_, _, _, _, _, _, _, _, _, _, _, _, revision, held, _, _, _, _, _, _, built⟩ := read
  rw [shown, Python.integer_eq_ok] at held
  rw [← Except.ok.inj built]
  exact (Python.Value.integer.inj held.1).symm

/-- The SDK accepts an acceptable status whenever it accepts the snapshot in it. -/
theorem readRuntime_image {python : Python.Interpreter α} {gpu : Bool}
    {published : Published (Snapshot α)} {loaded : PresentationStatus}
    (presentable : Presentable gpu published loaded) (sound : Sound published.clock)
    (early : published.clock.simulationTick.toNat + 1 < 2 ^ 64) {seen : Sdk.Snapshot α}
    (read : Sdk.readSnapshot python (Control.snapshotObject published.snapshot).image = .ok seen) :
    Sdk.readRuntime python (runtimeJson (runtime loaded published)).image =
      .ok
        { simulationTick := published.clock.simulationTick.toNat
          snapshotSequence := published.clock.simulationTick.toNat + 1
          overloadCount := published.clock.overloadCount.toNat
          droppedTicks := published.clock.droppedTicks.toNat
          remainderUnits := published.clock.remainderUnits.toNat
          snapshot := seen
          presentation := seenPresentation loaded } := by
  have next := sequence_toNat early
  let number : UInt64 → Python.Value α := fun number => .integer number.toNat
  let entries : Python.Entries α :=
    [(ascii "dropped_ticks", number published.clock.droppedTicks),
      (ascii "max_catch_up_steps", .integer 4),
      (ascii "overload_count", number published.clock.overloadCount),
      (ascii "presentation",
        (presentationJson (runtime loaded published).presentation : Json α).image),
      (ascii "remainder_units", number published.clock.remainderUnits),
      (ascii "schema_version", .integer 1),
      (ascii "simulation_tick", number published.clock.simulationTick),
      (ascii "snapshot", (Control.snapshotObject published.snapshot).image),
      (ascii "snapshot_sequence", number (published.clock.simulationTick + 1)),
      (ascii "tick_rate_hz", .integer 60)]
  have shape : Python.fields (runtimeJson (runtime loaded published)).image
      ["schema_version", "tick_rate_hz", "max_catch_up_steps", "simulation_tick",
        "snapshot_sequence", "overload_count", "dropped_ticks", "remainder_units", "snapshot",
        "presentation"] = .ok entries := rfl
  have version : Python.integer (Python.get entries "schema_version") 0 Python.uint64Max =
      .ok 1 := rfl
  have rate : Python.integer (Python.get entries "tick_rate_hz") 0 Python.uint64Max =
      .ok 60 := rfl
  have steps : Python.integer (Python.get entries "max_catch_up_steps") 0 Python.uint64Max =
      .ok 4 := rfl
  have tick : Python.integer (Python.get entries "simulation_tick") 0 Python.uint64Max =
      .ok (published.clock.simulationTick.toNat : Int) := Sdk.integer_unsigned (by omega)
  have sequence : Python.integer (Python.get entries "snapshot_sequence") 0 Python.uint64Max =
      .ok ((published.clock.simulationTick + 1).toNat : Int) := Sdk.integer_unsigned (by omega)
  have overloads : Python.integer (Python.get entries "overload_count") 0 Python.uint64Max =
      .ok (published.clock.overloadCount.toNat : Int) := Sdk.integer_unsigned (by omega)
  have dropped : Python.integer (Python.get entries "dropped_ticks") 0 Python.uint64Max =
      .ok (published.clock.droppedTicks.toNat : Int) := Sdk.integer_unsigned (by omega)
  have remainder : Python.integer (Python.get entries "remainder_units") 0 999999999 =
      .ok (published.clock.remainderUnits.toNat : Int) := by
    have carried := sound.2
    unfold Carried at carried
    exact Python.integer_eq_ok.mpr ⟨rfl, by omega, by omega⟩
  have counted : (((published.clock.simulationTick + 1).toNat : Int) !=
        (published.clock.simulationTick.toNat : Int) + 1 ||
      decide ((published.clock.droppedTicks.toNat : Int) <
        published.clock.overloadCount.toNat)) = false := by
    have bound := sound.1
    rw [Bool.or_eq_false_iff, bne_eq_false_iff_eq, decide_eq_false_iff_not]
    omega
  have snapshot : Sdk.readSnapshot python (Python.get entries "snapshot") = .ok seen := read
  have presentation : Sdk.readPresentation (Python.get entries "presentation") =
      .ok (seenPresentation loaded) := by
    change Sdk.readPresentation
      (presentationJson (runtime loaded published).presentation : Json α).image = _
    rw [runtime_shown presentable early]
    exact readPresentation_image presentable
  have older : (decide (seen.worldRevision < (seenPresentation loaded).worldRevision) ||
      decide (((published.clock.simulationTick + 1).toNat : Int) <
        (seenPresentation loaded).snapshotSequence)) = false := by
    have revision := presentable.revision
    have frame := presentable.sequence
    rw [readSnapshot_revision read, Bool.or_eq_false_iff, decide_eq_false_iff_not,
      decide_eq_false_iff_not]
    simp only [seenPresentation]
    omega
  simp only [Sdk.readRuntime, shape, version, rate, steps, tick, sequence, overloads, dropped,
    remainder, counted, snapshot, presentation, older, bne_self_eq_false, rejectIf_false, bind,
    Except.bind, pure, Except.pure]
  rw [next]
  rfl

section Hosts

variable {pool : Backlog κ} {library : JsonLibrary α} {gpu : Bool} {start : Nat}
  {first : Published (Snapshot α)} {host : Host κ α} {log : List (Moment α)}

omit [Scalar α] in
def Moment.event : Moment α → Option (Event (Snapshot α))
  | .owner event => some event
  | .status _ _ => none

/-- The events of the owner in a log of the host. -/
def eventsOf (log : List (Moment α)) : List (Event (Snapshot α)) := log.filterMap Moment.event

/-- A frame of what was published by now. -/
def Earlier (published : Published (Snapshot α)) (frame : LiveFrame) : Prop :=
  frame.worldRevision.toNat ≤ published.snapshot.worldRevision.toNat ∧
    frame.snapshotSequence.toNat ≤ published.clock.simulationTick.toNat + 1 ∧
    frame.snapshotSequence ≠ 0

/-- The renderer runs with presentation enabled, and its counts start from 1. -/
def Careful (gpu : Bool) : Act α γ → Prop
  | .ready => gpu = true
  | .present _ count => gpu = true ∧ count ≠ 0
  | _ => True

/-- What holds of what the renderer and the calls of `runtime` have in hand. -/
structure Presents (gpu : Bool) (host : Host κ α) : Prop where
  presentation : Presentable gpu host.owner.published host.presentation
  queries : ∀ loaded ∈ host.queries, Presentable gpu host.owner.published loaded
  frames : ∀ frame ∈ host.frames, Earlier host.owner.published frame

/-- A later publication. -/
def Later (older newer : Published (Snapshot α)) : Prop :=
  older.snapshot.worldRevision.toNat ≤ newer.snapshot.worldRevision.toNat ∧
    older.clock.simulationTick.toNat ≤ newer.clock.simulationTick.toNat

omit [Scalar α] in
theorem Presentable.later {older newer : Published (Snapshot α)}
    {presentation : PresentationStatus} (presentable : Presentable gpu older presentation)
    (later : Later older newer) : Presentable gpu newer presentation :=
  { presentable with
    revision := presentable.revision.trans later.1
    sequence := presentable.sequence.trans (Nat.succ_le_succ later.2) }

omit [Scalar α] in
/-- A publication is early: the clock cannot be read long enough for more ticks. -/
theorem early_tick {system : System κ (LiveWorld α) (Snapshot α)} {events}
    (flow : Flow start LiveWorld.state revisionOf first system events) :
    system.published.clock.simulationTick.toNat + 1 < 2 ^ 64 := by
  have bound := flow.bound
  have past := flow.past
  have within := flow.within
  rw [flow.tick]
  unfold clockEnd at within
  omega

omit [Scalar α] in
theorem Presents.later (presents : Presents gpu host)
    {owner : System κ (LiveWorld α) (Snapshot α)}
    (later : Later host.owner.published owner.published) :
    Presents gpu { host with owner := owner } where
  presentation := presents.presentation.later later
  queries := fun loaded member => (presents.queries loaded member).later later
  frames := by
    intro frame member
    obtain ⟨revision, sequence, some⟩ := presents.frames frame member
    exact ⟨revision.trans later.1, sequence.trans (Nat.succ_le_succ later.2), some⟩

/-- What the log of a host may hold. -/
def Reports (python : Python.Interpreter α) : Moment α → Prop
  | .owner _ => True
  | .status loaded status =>
      Acceptable loaded status ∧
        ∀ seen,
          Sdk.readSnapshot python (Control.snapshotObject status.snapshot).image = .ok seen →
            ∃ read,
              Sdk.readRuntime python (runtimeJson status).image = .ok read ∧
                read.snapshot = seen ∧ read.presentation = seenPresentation loaded

omit [Scalar α] in
theorem eventsOf_owner (log : List (Moment α)) (event : Option (Event (Snapshot α))) :
    eventsOf (log ++ (event.map Moment.owner).toList) = eventsOf log ++ event.toList := by
  cases event with
  | none => simp [eventsOf]
  | some event => simp [eventsOf, Moment.event]

omit [Scalar α] in
/-- A section keeps the flow of its owner, and what it publishes is later. -/
theorem section_flow
    (flow : Flow start LiveWorld.state revisionOf first host.owner (eventsOf log))
    (input : Owner.Input (LiveWorld α))
    (sane : Sane LiveWorld.state revisionOf host.owner input) :
    let done := host.section pool input
    Flow start LiveWorld.state revisionOf first done.1.owner
        (eventsOf (log ++ done.2.toList)) ∧
      Later host.owner.published done.1.owner.published := by
  have next : Flow start LiveWorld.state revisionOf first
      (Owner.step pool LiveWorld.state host.owner input).1 _ := flow.step input sane
  intro done
  have same : eventsOf (log ++ done.2.toList) = _ := eventsOf_owner log _
  rw [same]
  exact ⟨next, flow.stream.later next.stream⟩

/-- Any act of a thread of the host keeps the flow of the owner. -/
theorem step_flow
    (flow : Flow start LiveWorld.state revisionOf first host.owner (eventsOf log))
    (act : Act α γ) :
    let done := host.step pool library act
    Flow start LiveWorld.state revisionOf first done.1.owner
        (eventsOf (log ++ done.2.toList)) ∧
      Later host.owner.published done.1.owner.published := by
  have stays : ∀ next : Host κ α, next.owner = host.owner →
      Flow start LiveWorld.state revisionOf first next.owner
          (eventsOf (log ++ (none : Option (Moment α)).toList)) ∧
        Later host.owner.published next.owner.published := by
    intro next same
    rw [same, Option.toList_none, List.append_nil]
    exact ⟨flow, Nat.le_refl _, Nat.le_refl _⟩
  cases act with
  | elapse nanoseconds =>
      intro done
      by_cases fits : host.owner.now + nanoseconds < clockEnd
      · have took : done = host.section pool (.elapse nanoseconds) := if_pos fits
        rw [took]
        exact section_flow flow _ fits
      · have stopped : done = (host, none) := if_neg fits
        rw [stopped]
        exact stays host rfl
  | requestStop => exact section_flow flow _ trivial
  | dispatch closure deadline authoring =>
      exact section_flow flow _ (closure_advances library closure)
  | timeOut job => exact section_flow flow _ trivial
  | wake job => exact section_flow flow _ trivial
  | owner fails => exact section_flow flow _ trivial
  | latest => exact stays _ rfl
  | ready => exact stays _ rfl
  | present frame count =>
      simp only [Host.step]
      cases host.frames[frame]? with
      | some frame => exact stays _ rfl
      | none => exact stays host rfl
  | load => exact stays _ rfl
  | answer query =>
      simp only [Host.step]
      cases host.queries[query]? with
      | some loaded =>
          have none_ : eventsOf (log ++
              (some (Moment.status loaded (runtime loaded host.owner.published))).toList) =
                eventsOf log := by
            simp [eventsOf, Moment.event]
          simp only
          rw [none_]
          exact ⟨flow, Nat.le_refl _, Nat.le_refl _⟩
      | none => exact stays host rfl

omit [Scalar α] in
theorem presentable_initial (gpu : Bool) (published : Published (Snapshot α)) :
    Presentable gpu published (initialPresentation gpu) where
  enabled := rfl
  disabled := by
    intro off
    rw [off]
  ready := fun _ => rfl
  counted := Iff.rfl
  blank := fun _ => rfl
  revision := Nat.zero_le _
  sequence := Nat.zero_le _

omit [Scalar α] in
theorem presentable_presented {published : Published (Snapshot α)} {frame : LiveFrame}
    (earlier : Earlier published frame) {count : UInt64} (counted : count ≠ 0) :
    Presentable true published
      (presented count frame.worldRevision frame.snapshotSequence) where
  enabled := rfl
  disabled := by simp
  ready := by simp [presented]
  counted := iff_of_false counted earlier.2.2
  blank := fun none => absurd none counted
  revision := earlier.1
  sequence := earlier.2.1

/-- The renderer and the calls of `runtime` keep what they rely on. -/
theorem step_presents
    (flow : Flow start LiveWorld.state revisionOf first host.owner (eventsOf log))
    (presents : Presents gpu host) (act : Act α γ) (careful : Careful gpu act) :
    Presents gpu (host.step pool library act).1 := by
  have later := (step_flow (γ := γ) flow act : _ ∧ Later host.owner.published
    (host.step pool library act).1.owner.published).2
  cases act with
  | elapse nanoseconds =>
      simp only [Host.step] at later ⊢
      split
      · rw [if_pos ‹_›] at later
        exact presents.later later
      · exact presents
  | requestStop => exact presents.later later
  | dispatch closure deadline authoring => exact presents.later later
  | timeOut job => exact presents.later later
  | wake job => exact presents.later later
  | owner fails => exact presents.later later
  | latest =>
      refine ⟨presents.presentation, presents.queries, ?_⟩
      intro frame member
      rcases List.mem_append.mp member with old | new
      · exact presents.frames frame old
      · rw [List.mem_singleton.mp new]
        have sequence := sequence_toNat (early_tick flow)
        refine ⟨Nat.le_refl _, Nat.le_of_eq sequence, ?_⟩
        intro none
        have zero := congrArg UInt64.toNat none
        change (host.owner.published.clock.simulationTick + 1).toNat = 0 at zero
        omega
  | ready =>
      refine ⟨?_, presents.queries, presents.frames⟩
      have on : gpu = true := careful
      exact
        { presents.presentation with
          disabled := by
            intro off
            rw [on] at off
            cases off
          ready := by
            intro impossible
            cases impossible }
  | present frame count =>
      obtain ⟨on, counted⟩ := careful
      simp only [Host.step]
      cases found : host.frames[frame]? with
      | none => exact presents
      | some live =>
          have earlier := presents.frames live (List.mem_of_getElem? found)
          refine ⟨?_, presents.queries, presents.frames⟩
          rw [on]
          exact presentable_presented earlier counted
  | load =>
      refine ⟨presents.presentation, ?_, presents.frames⟩
      intro loaded member
      rcases List.mem_append.mp member with old | new
      · exact presents.queries loaded old
      · rw [List.mem_singleton.mp new]
        exact presents.presentation
  | answer query =>
      simp only [Host.step]
      cases host.queries[query]? with
      | some loaded => exact presents
      | none => exact presents

/-- A status that is returned is one that the SDK reads. -/
theorem step_reports (python : Python.Interpreter α)
    (flow : Flow start LiveWorld.state revisionOf first host.owner (eventsOf log))
    (presents : Presents gpu host) (act : Act α γ) :
    ∀ moment, (host.step pool library act).2 = some moment → Reports python moment := by
  intro moment made
  cases moment with
  | owner event => trivial
  | status loaded status =>
      cases act with
      | answer query =>
          simp only [Host.step] at made
          cases found : host.queries[query]? with
          | none =>
              rw [found] at made
              cases made
          | some held =>
              rw [found] at made
              obtain ⟨rfl, rfl⟩ := Moment.status.inj (Option.some.inj made)
              have presentable := presents.queries held (List.mem_of_getElem? found)
              have early := early_tick flow
              refine ⟨runtime_acceptable presentable flow.sound early, ?_⟩
              intro seen read
              exact ⟨_, readRuntime_image presentable flow.sound early read, rfl, rfl⟩
      | elapse nanoseconds =>
          simp only [Host.step, Host.section] at made
          split at made <;> simp at made
      | present frame count =>
          simp only [Host.step] at made
          split at made <;> cases made
      | latest => cases made
      | ready => cases made
      | load => cases made
      | requestStop => simp [Host.step, Host.section] at made
      | dispatch closure deadline authoring => simp [Host.step, Host.section] at made
      | timeOut job => simp [Host.step, Host.section] at made
      | wake job => simp [Host.step, Host.section] at made
      | owner fails => simp [Host.step, Host.section] at made

theorem run_flow
    (flow : Flow start LiveWorld.state revisionOf first host.owner (eventsOf log))
    (acts : List (Act α γ)) :
    Flow start LiveWorld.state revisionOf first (host.run pool library acts).1.owner
      (eventsOf (log ++ (host.run pool library acts).2)) := by
  induction acts generalizing host log with
  | nil =>
      rw [Host.run, List.append_nil]
      exact flow
  | cons act rest continues =>
      have next := (step_flow (γ := γ) flow act : _ ∧ Later host.owner.published
        (host.step pool library act).1.owner.published).1
      rw [Host.run, ← List.append_assoc]
      exact continues next

theorem run_reports (python : Python.Interpreter α)
    (flow : Flow start LiveWorld.state revisionOf first host.owner (eventsOf log))
    (presents : Presents gpu host) (acts : List (Act α γ))
    (careful : ∀ act ∈ acts, Careful gpu act) :
    ∀ moment ∈ (host.run pool library acts).2, Reports python moment := by
  induction acts generalizing host log with
  | nil => simp [Host.run]
  | cons act rest continues =>
      have own := careful act List.mem_cons_self
      have others := fun other member => careful other (List.mem_cons_of_mem act member)
      have next := (step_flow (γ := γ) flow act : _ ∧ Later host.owner.published
        (host.step pool library act).1.owner.published).1
      have presented := @step_presents _ _ _ _ pool library _ _ _ _ _ flow presents act own
      intro moment member
      rw [Host.run, List.mem_append, Option.mem_toList] at member
      rcases member with here | later
      · exact step_reports python flow presents act moment here
      · exact continues next presented others moment later

end Hosts

omit [Scalar α] in
theorem presents_start (pool : Backlog κ) (gpu : Bool) (world : LiveWorld α)
    (now deadline : Nat) : Presents gpu (Host.start pool gpu world now deadline) where
  presentation := presentable_initial gpu _
  queries := by simp [Host.start]
  frames := by simp [Host.start]

/-- What a run of a host tells: its publications, each end of `advance` that ticked, and,
with a careful renderer, its statuses. -/
structure Told (python : Python.Interpreter α) (pool : Backlog κ) (library : JsonLibrary α)
    (gpu : Bool) (world : LiveWorld α) (acts : List (Act α γ)) (host : Host κ α)
    (log : List (Moment α)) : Prop where
  ticks :
    (publications (eventsOf log)).map (fun entry => entry.clock.simulationTick.toNat) =
      List.range' 1 (publications (eventsOf log)).length
  revisions :
    (revisionOf world.state ::
      (publications (eventsOf log)).map fun entry => revisionOf entry.snapshot).Pairwise (· ≤ ·)
  advanced :
    ∀ batch completed fails,
      host.owner.phase = .ticking batch completed →
        ¬ batch.index < batch.steps.executedTicks → 0 < batch.steps.executedTicks →
          let after := (host.step pool library (.owner fails : Act α γ)).1.owner
          after.phase = .settling completed ∧
            after.published = ⟨after.stats, after.world.state⟩
  statuses :
    (∀ act ∈ acts, Careful gpu act) → ∀ moment ∈ log, Reports python moment

/-- Both owners, over any interleaving of their sections with those of the gateway
threads, the renderer and the calls of `runtime`. -/
theorem runtime_told (python : Python.Interpreter α) (library : JsonLibrary α)
    (world : LiveWorld α) (now : Nat) (readable : now < clockEnd) (deadline : Nat) (gpu : Bool)
    (acts : List (Act α γ)) :
    let policy := (Host.start policyBacklog gpu world now deadline).run policyBacklog library acts
    let agents := (Host.start agentsBacklog gpu world now deadline).run agentsBacklog library acts
    Told python policyBacklog library gpu world acts policy.1 policy.2 ∧
      Told python agentsBacklog library gpu world acts agents.1 agents.2 := by
  have general : ∀ {κ : Type} (pool : Backlog κ),
      let done := (Host.start pool gpu world now deadline).run pool library acts
      Told python pool library gpu world acts done.1 done.2 := by
    intro κ pool done
    have begins : Flow now LiveWorld.state revisionOf ⟨fresh, world.state⟩
        (Host.start pool gpu world now deadline).owner (eventsOf ([] : List (Moment α))) :=
      flow_start pool LiveWorld.state revisionOf world readable deadline
    have flow : Flow now LiveWorld.state revisionOf ⟨fresh, world.state⟩ done.1.owner
        (eventsOf done.2) := run_flow begins acts
    have stream := flow.stream
    exact
      { ticks := by
          have counted := congrArg List.length stream.ticks
          rw [List.length_map, List.length_range'] at counted
          rw [counted]
          exact stream.ticks
        revisions := stream.order
        advanced := by
          intro batch completed fails phase beyond some after
          have moves : after = Owner.tick pool done.1.owner batch completed := by
            change (Owner.proceed pool LiveWorld.state done.1.owner fails).1 = _
            rw [Owner.proceed, phase]
          have settles : (Owner.tick pool done.1.owner batch completed).phase =
              .settling completed := by
            unfold Owner.tick
            rw [if_neg beyond]
            rfl
          rw [moves]
          exact ⟨settles,
            (flow.close phase beyond).2 (UInt64.lt_iff_toNat_lt.mp some)⟩
        statuses := by
          intro careful
          exact run_reports python begins (presents_start pool gpu world now deadline) acts
            careful }
  exact ⟨general policyBacklog, general agentsBacklog⟩

/-- A frame of the first publication is presented two ticks later, and a status loaded
then is answered a tick later still. -/
theorem runtime_told_frame :
    let python : Python.Interpreter Halves :=
      ⟨fun _ => none, fun _ => none, fun _ => none, fun _ _ => false⟩
    let tick : List (Act Halves Unit) :=
      [.elapse 20000000, .owner false, .owner false, .owner false, .owner false, .owner false,
        .owner false]
    let acts := .latest :: tick ++ tick ++ [.present 0 1, .load] ++ tick ++ [.answer 0]
    let done := (Host.start policyBacklog true sampleWorld 0 90000000).run policyBacklog
      JsonText.library acts
    Told python policyBacklog JsonText.library true sampleWorld acts done.1 done.2 ∧
      (∀ moment ∈ done.2, Reports python moment) ∧
      done.2.filterMap (fun moment =>
        match moment with
        | .status loaded status => some (loaded.snapshotSequence, status.snapshotSequence)
        | .owner _ => none) = [(1, 4)] := by
  intro python tick acts done
  have told := (runtime_told python JsonText.library sampleWorld 0 (by decide) 90000000 true
    acts).1
  have careful : ∀ act ∈ acts, Careful true act := by
    simp [acts, tick, Careful]
  exact ⟨told, told.statuses careful, by decide +kernel⟩

end Omniweft.Runtime
