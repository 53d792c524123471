import Omniweft.ReplayRuns

/-!
# The recorder

Whatever calls are made on it, a recorder holds the recording of its own world, and
every recording can be made. So the logs that replay are the exported ones.
-/

namespace Omniweft.Transactions

open Omniweft.Outcome World Commands

variable {α σ τ : Type} [Scalar α]

/-- The three endings of a boundary call, as its observer sees them. -/
theorem apply_observed
    (library : JsonLibrary α) (world : LiveWorld α) (envelope : Envelope α)
    (guard : Option (StagingGuard α σ)) (observer : Option (CommitObserver α τ))
    (bindings : Option (List CreatedBinding)) (guardState : σ) (observerState : τ) :
    let applied :=
      apply library world envelope guard observer bindings guardState observerState
    let initial := initialReceipt guard.isSome envelope world.state.worldRevision
    let revision := world.state.worldRevision + 1
    (∃ next created observerFinal,
      Commits library world.state envelope next created ∧
        prepare observer next (committedReceipt initial revision created) observerState =
          .ok () observerFinal ∧
        applied.result = .ok (committedReceipt initial revision created) ∧
        applied.world = { world with state := next } ∧
        applied.observer = observer.elim observerFinal fun observer =>
          observer.publish observerFinal) ∨
      (∃ next created thrown guardFinal observerFinal,
        Commits library world.state envelope next created ∧
          prepare observer next (committedReceipt initial revision created) observerState =
            .error thrown observerFinal ∧
          applied = refuse initial world thrown guardFinal observerFinal) ∨
      (applied.world = world ∧ applied.observer = observerState ∧
        Refused world.state.worldRevision applied.result) := by
  intro applied initial revision
  cases begun :
      Context.notify ⟨guard, bindings, world.state.worldRevision + 1⟩
        (fun guard => guard.begin world envelope) guardState with
  | error thrown admitted =>
      obtain ⟨same, refused⟩ :=
        refuse_keeps guard.isSome envelope world thrown admitted observerState
      refine Or.inr (Or.inr ?_)
      simp only [applied, apply, begun]
      exact ⟨same, rfl, refused⟩
  | ok _ admitted =>
      cases accepted : admission library world.state envelope with
      | error errors =>
          refine Or.inr (Or.inr ?_)
          simp only [applied, apply, begun, accepted]
          exact ⟨trivial, trivial, rejected_refused _ _ _ _⟩
      | ok _ =>
          cases stagedOk :
              stage ⟨guard, bindings, world.state.worldRevision + 1⟩ world.state
                envelope.operations admitted with
          | error thrown guardFinal =>
              obtain ⟨same, refused⟩ :=
                refuse_keeps guard.isSome envelope world thrown guardFinal observerState
              refine Or.inr (Or.inr ?_)
              simp only [applied, apply, begun, accepted, stagedOk]
              exact ⟨same, rfl, refused⟩
          | ok pair guardFinal =>
              obtain ⟨staged, created⟩ := pair
              have committed : Commits library world.state envelope
                  (published staged revision) created :=
                ⟨accepted, staged, stage_plain stagedOk, rfl⟩
              cases prepared :
                  prepare observer (published staged revision)
                    (committedReceipt initial revision created) observerState with
              | error thrown observerFinal =>
                  refine Or.inr (Or.inl ⟨_, created, thrown, guardFinal, observerFinal,
                    committed, prepared, ?_⟩)
                  simp only [applied, initial, revision] at prepared ⊢
                  simp only [apply, begun, accepted, stagedOk, prepared]
              | ok _ observerFinal =>
                  refine Or.inl ⟨_, created, observerFinal, committed, prepared, ?_⟩
                  simp only [applied, initial, revision] at prepared ⊢
                  simp only [apply, begun, accepted, stagedOk, prepared, and_self]

/-- A batch that commits and that its observer accepts is published. -/
theorem applyAtBoundary_commits {library : JsonLibrary α} {world : LiveWorld α}
    {envelope : Envelope α} {observer : CommitObserver α τ} {before ready : τ}
    {next : Snapshot α} {created : List CreatedBinding}
    (committed : Commits library world.state envelope next created)
    (prepared :
      observer.prepare next
        (committedReceipt (initialReceipt false envelope world.state.worldRevision)
          (world.state.worldRevision + 1) created) before = .ok () ready) :
    applyAtBoundary library world envelope (none : Option (StagingGuard α Unit))
        (some observer) () before =
      { result :=
          .ok (committedReceipt
            (initialReceipt false envelope world.state.worldRevision)
            (world.state.worldRevision + 1) created)
        world := { world with state := next }
        guard := ()
        observer := observer.publish ready } := by
  obtain ⟨accepted, staged, stagedOk, rfl⟩ := committed
  have quiet : stage (⟨none, none, world.state.worldRevision + 1⟩ : Context α Unit) world.state
      envelope.operations () = .ok (staged, created) () := stagedOk
  simp only [applyAtBoundary, apply, Context.notify, accepted, quiet, Transactions.prepare,
    Option.isSome_none, prepared, Option.elim_none, Option.elim_some]
  rfl

end Omniweft.Transactions

namespace Omniweft.Replay

open Omniweft.Outcome World Commands Transactions

section Sessions

variable {α : Type} [Scalar α] {library : JsonLibrary α}

/-- A recorder beside its world: started on a fresh one, then called with any envelopes
in any ticks under any hooks. -/
inductive Session (library : JsonLibrary α) (worldId : Text) (seed maxSlots : UInt32) :
    LiveWorld α → Recorder α → Prop
  | start {address : Nat} {fresh : Snapshot α} {recorder : Recorder α} :
      World.create worldId seed maxSlots = .ok fresh →
      Recorder.create ⟨address, fresh⟩ = .ok recorder →
      Session library worldId seed maxSlots ⟨address, fresh⟩ recorder
  | call {world : LiveWorld α} {recorder : Recorder α} {σ : Type} (envelope : Envelope α)
      (tick : UInt64) (guard : Option (StagingGuard α σ)) (guardState : σ) :
      Session library worldId seed maxSlots world recorder →
      Session library worldId seed maxSlots
        (recorder.applyAtBoundary library world envelope tick guard guardState).world
        (recorder.applyAtBoundary library world envelope tick guard guardState).observer

/-- The recorder is in step with its world. -/
structure Recorder.InStep (library : JsonLibrary α) (fresh : Snapshot α)
    (world : LiveWorld α) (recorder : Recorder α) : Prop where
  recordings : Recordings library fresh recorder.records world.state
  head : recorder.head.toNat = recorder.records.length
  few : recorder.records.length ≤ entryLimit

theorem observer_prepare {staged : Snapshot α} {receipt : Receipt}
    {recording final : Recording α} :
    (observer.prepare staged receipt recording = .ok () final ↔
        (canonicalBytes staged).length ≤ checkpointLimit ∧
          final = ⟨{ recording.prepared with
            created := receipt.created, checkpoint := canonicalBytes staged },
            recording.recorder⟩) ∧
      ∀ thrown, observer.prepare staged receipt recording = .error thrown final →
        final.recorder = recording.recorder := by
  unfold observer
  constructor
  · simp only [stateful_bind_eq_ok, stateful_modify_eq_ok, check_eq_ok, rejectIf_eq_ok,
      decide_eq_false_iff_not, Nat.not_lt]
    constructor
    · intro prepared
      obtain ⟨_, middle, rfl, small, rfl⟩ := prepared
      exact ⟨small, rfl⟩
    · intro both
      obtain ⟨small, rfl⟩ := both
      exact ⟨(), _, rfl, small, rfl⟩
  · intro thrown stopped
    rcases stateful_bind_eq_error.mp stopped with early | ⟨_, middle, changed, late⟩
    · cases early
    · obtain rfl := stateful_modify_eq_ok.mp changed
      rw [← (attempt_eq_error.mp late).2]

theorem Recorder.admit_eq_ok {recorder : Recorder α} {world : LiveWorld α}
    {envelope : Envelope α} {tick : UInt64} {prepared : Record α} :
    recorder.admit library world envelope tick = .ok prepared ↔
      bounded envelope = true ∧ world.state.worldRevision = recorder.head ∧
        envelope.expectedWorldRevision = world.state.worldRevision ∧
        recorder.records.length ≠ entryLimit ∧
        (∀ last, recorder.records.getLast? = some last → last.boundaryTick ≤ tick) ∧
        (∃ json, serialize library envelope = .ok json ∧ json.length ≤ commandLimit) ∧
        prepared =
          ⟨UInt64.ofNat (recorder.records.length + 1), tick, recorder.head, envelope.budget,
            envelope.operations, [], []⟩ := by
  have ordered :
      (recorder.records.getLast?.any fun last => decide (tick < last.boundaryTick)) = false ↔
        ∀ last, recorder.records.getLast? = some last → last.boundaryTick ≤ tick := by
    cases held : recorder.records.getLast? with
    | none => simp
    | some last => simp
  unfold Recorder.admit
  simp only [bind_eq_ok, rejectIf_eq_ok, exists_const, Bool.or_eq_false_iff,
    bne_eq_false_iff_eq, beq_eq_false_iff_ne, Bool.not_eq_false', ordered]
  cases serialized : serialize library envelope with
  | error errors => simp
  | ok json =>
      simp only [bind_eq_ok, Except.ok.injEq, exists_eq_left', rejectIf_eq_ok,
        decide_eq_false_iff_not, Nat.not_lt, exists_const, pure_eq_ok, and_assoc,
        @eq_comm _ prepared]

/-- One call keeps the recorder in step. -/
theorem Recorder.InStep.call {fresh : Snapshot α} {world : LiveWorld α}
    {recorder : Recorder α} (inStep : recorder.InStep library fresh world) {σ : Type}
    (envelope : Envelope α) (tick : UInt64) (guard : Option (StagingGuard α σ))
    (guardState : σ) :
    let applied := recorder.applyAtBoundary library world envelope tick guard guardState
    applied.observer.InStep library fresh applied.world := by
  intro applied
  cases admitted : recorder.admit library world envelope tick with
  | error refusal =>
      simp only [applied, Recorder.applyAtBoundary, admitted]
      exact inStep
  | ok prepared =>
      obtain ⟨sized, sameHead, sameRevision, room, ordered, ⟨json, serialized, _⟩, rfl⟩ :=
        Recorder.admit_eq_ok.mp admitted
      simp only [applied, Recorder.applyAtBoundary, admitted, Transactions.applyAtBoundary]
      generalize start : (⟨⟨UInt64.ofNat (recorder.records.length + 1), tick, recorder.head,
        envelope.budget, envelope.operations, [], []⟩, recorder⟩ : Recording α) = recording
      have sameRecorder : recording.recorder = recorder := by rw [← start]
      rcases apply_observed library world envelope guard (some observer) none guardState
          recording with
        ⟨next, created, final, committed, ready, _, published, left⟩ |
          ⟨next, created, thrown, guardFinal, final, _, stopped, refused⟩ |
          ⟨kept, left, _⟩
      · obtain ⟨_, rfl⟩ := observer_prepare.1.mp ready
        have valid := (serialize_eq_ok serialized).1
        have few : recorder.records.length + 1 ≤ entryLimit := by
          have before := inStep.few
          omega
        unfold entryLimit at few
        rw [published, left]
        simp only [Option.elim_some, observer, sameRecorder]
        refine ⟨.more inStep.recordings ?_ ?_, ?_, ?_⟩
        · rw [← start]
          exact ordered
        · rw [← start]
          refine ⟨?_, inStep.head, (bounded_valid valid).mp sized, rfl, envelope, valid, rfl,
            rfl, committed⟩
          change (UInt64.ofNat (recorder.records.length + 1)).toNat = _
          rw [UInt64.toNat_ofNat']
          omega
        · rw [UInt64.toNat_add, inStep.head, List.length_append, List.length_singleton]
          change (recorder.records.length + 1) % 2 ^ 64 = _
          omega
        · rw [List.length_append, List.length_singleton]
          exact few
      · rw [refused]
        simp only [refuse]
        rw [observer_prepare.2 thrown stopped, sameRecorder]
        exact inStep
      · rw [kept, left, sameRecorder]
        exact inStep

omit [Scalar α] in
theorem Recorder.create_eq_ok {world : LiveWorld α} {recorder : Recorder α} :
    Recorder.create world = .ok recorder ↔
      world.state.worldRevision = 0 ∧ world.state.slots = [] ∧ world.state.maxSlots ≤ 8 ∧
        recorder = ⟨[], 0⟩ := by
  simp only [Recorder.create, bind_eq_ok, rejectIf_eq_ok, exists_const,
    Bool.or_eq_false_iff, bne_eq_false_iff_eq, Bool.not_eq_false', List.isEmpty_iff,
    decide_eq_false_iff_not, UInt32.not_lt, pure_eq_ok, and_assoc, @eq_comm _ recorder]

/-- Every session keeps the recorder in step. -/
theorem Session.inStep {worldId : Text} {seed maxSlots : UInt32} {world : LiveWorld α}
    {recorder : Recorder α} (session : Session library worldId seed maxSlots world recorder) :
    ∃ fresh, World.create worldId seed maxSlots = .ok fresh ∧ maxSlots ≤ 8 ∧
      recorder.InStep library fresh world := by
  induction session with
  | @start address fresh recorder created started =>
      obtain ⟨_, _, small, rfl⟩ := Recorder.create_eq_ok.mp started
      obtain ⟨_, _, _, shape⟩ := create_eq_ok.mp created
      refine ⟨fresh, created, ?_, .none, rfl, Nat.zero_le _⟩
      rw [shape] at small
      exact small
  | call envelope tick guard guardState before inductionHypothesis =>
      obtain ⟨fresh, created, small, inStep⟩ := inductionHypothesis
      exact ⟨fresh, created, small, inStep.call envelope tick guard guardState⟩

/-- Every recording can be made: its own clients' envelopes make it. -/
theorem Recordings.session (faithful : library.Faithful) {worldId : Text}
    {seed maxSlots : UInt32} {fresh state : Snapshot α} {records : List (Record α)}
    (created : World.create worldId seed maxSlots = .ok fresh) (small : maxSlots ≤ 8)
    (recordings : Recordings library fresh records state)
    (few : records.length ≤ entryLimit) :
    ∃ recorder, recorder.records = records ∧
      Session library worldId seed maxSlots ⟨0, state⟩ recorder := by
  obtain ⟨named, _, _, shape⟩ := create_eq_ok.mp created
  have short : fresh.worldId.length ≤ 128 := by
    rw [shape]
    exact validIdentifier_length named
  induction recordings with
  | none =>
      refine ⟨⟨[], 0⟩, rfl, .start created (Recorder.create_eq_ok.mpr ⟨?_, ?_, ?_, rfl⟩)⟩
      · rw [shape]
      · rw [shape]
      · rw [shape]
        exact small
  | @more records state next record before ordered recorded inductionHypothesis =>
      rw [List.length_append, List.length_singleton] at few
      obtain ⟨recorder, rfl, session⟩ := inductionHypothesis (by omega)
      obtain ⟨_, _, _, inStep⟩ := session.inStep
      obtain ⟨client, valid, sameBudget, sameOperations, committed⟩ := recorded.batch
      have fits := before.fits faithful created
      have sameHead : state.worldRevision = recorder.head := by
        apply UInt64.toNat_inj.mp
        rw [fits.revision, inStep.head]
      obtain ⟨_, sameRevision, _⟩ := (commits_iff faithful valid).mp committed
      obtain ⟨json, serialized, jsonFits⟩ := serialize_valid faithful valid
      have operationsFew : client.operations.length ≤ operationLimit := by
        rw [sameOperations]
        exact recorded.few
      have admitted := (@Recorder.admit_eq_ok _ _ library recorder ⟨0, state⟩ client
        record.boundaryTick _).mpr ⟨(bounded_valid valid).mpr operationsFew, sameHead,
          sameRevision, by omega, ordered, ⟨json, serialized, by
            unfold commandLimit
            unfold operationLimit at operationsFew
            omega⟩, rfl⟩
      have reachable : Reachable library ⟨0, next⟩ :=
        fits.reachable.commit trivial committed
      have slots := (fits.numbered.slots.commit committed)
      have checkpointFits : (canonicalBytes next).length ≤ checkpointLimit := by
        refine @checkpoint_fits _ _ _ _ ⟨0, next⟩ reachable ?_ ?_
        · have room := slots.bounded
          rw [shape] at room
          exact room.trans small
        · have sameWorld : next.worldId = fresh.worldId := slots.worldId_eq
          exact sameWorld ▸ short
      have called := session.call client record.boundaryTick
        (Option.none : Option (StagingGuard α Unit)) ()
      have published := @applyAtBoundary_commits _ _ _ library ⟨0, state⟩ client observer
        ⟨⟨UInt64.ofNat (recorder.records.length + 1), record.boundaryTick, recorder.head,
          client.budget, client.operations, [], []⟩, recorder⟩ _ next record.created committed
        (observer_prepare.1.mpr ⟨checkpointFits, rfl⟩)
      simp only [Recorder.applyAtBoundary, admitted, published] at called
      refine ⟨_, ?_, called⟩
      have sameSequence : UInt64.ofNat (recorder.records.length + 1) = record.sequence := by
        rw [← recorded.sequence, UInt64.ofNat_toNat]
      have sameExpected : recorder.head = record.expectedRevision := by
        apply UInt64.toNat_inj.mp
        rw [inStep.head, recorded.expectedRevision]
      simp only [observer, committedReceipt, sameSequence, sameExpected, sameBudget,
        sameOperations, ← recorded.checkpoint]

/-- What a session exports. -/
theorem Recorder.InStep.exports {worldId : Text} {seed maxSlots : UInt32}
    {fresh : Snapshot α} {world : LiveWorld α} {recorder : Recorder α} (faithful : library.Faithful)
    (created : World.create worldId seed maxSlots = .ok fresh)
    (inStep : recorder.InStep library fresh world) :
    recorder.exportLog world = .ok (.of worldId seed maxSlots recorder.records) := by
  obtain ⟨_, _, _, shape⟩ := World.create_eq_ok.mp created
  have fits := inStep.recordings.fits faithful created
  have sameHead : world.state.worldRevision = recorder.head := by
    apply UInt64.toNat_inj.mp
    rw [fits.revision, inStep.head]
  have slots := fits.numbered.slots
  rw [shape] at slots
  simp [Recorder.exportLog, sameHead, slots.worldId_eq, slots.seed_eq, slots.maxSlots_eq]

/-- With at most eight assets at hand, the replay accepts exactly the exported logs, and
then gives the world that was recorded. -/
theorem replay_accepts_exports (faithful : library.Faithful) (log : Log α)
    (available : List Asset) (builtin : Asset.builtin ∈ available)
    (few : available.length ≤ 8) :
    ((∃ world, reconstruct library log available = .ok ⟨some world, []⟩) ↔
        ∃ live recorder,
          Session library log.worldId log.seed log.maxSlots live recorder ∧
            recorder.exportLog live = .ok log) ∧
      (∀ world live recorder,
        reconstruct library log available = .ok ⟨some world, []⟩ →
          Session library log.worldId log.seed log.maxSlots live recorder →
          recorder.exportLog live = .ok log → world.state = live.state) ∧
      ((∀ live recorder,
          Session library log.worldId log.seed log.maxSlots live recorder →
            recorder.exportLog live ≠ .ok log) →
        ∀ world errors, reconstruct library log available ≠ .ok ⟨some world, errors⟩) := by
  have replayable {live : LiveWorld α} {recorder : Recorder α}
      (session : Session library log.worldId log.seed log.maxSlots live recorder)
      (exported : recorder.exportLog live = .ok log) :
      Replayable library log available live.state := by
    obtain ⟨fresh, created, small, inStep⟩ := session.inStep
    rw [inStep.exports faithful created, Except.ok.injEq] at exported
    have records : log.records = recorder.records := by rw [← exported]; rfl
    refine ⟨?_, small, ?_, ⟨few, builtin⟩, fresh, created, ?_⟩
    · rw [records]
      exact exported.symm
    · rw [records]
      exact inStep.few
    · rw [records]
      exact inStep.recordings
  have unique {first second : Snapshot α} (one : Replayable library log available first)
      (two : Replayable library log available second) : first = second := by
    have left := (@rebuild_eq_ok _ _ _ faithful _ _ ⟨0, first⟩).mpr ⟨one, rfl⟩
    have right := (@rebuild_eq_ok _ _ _ faithful _ _ ⟨0, second⟩).mpr ⟨two, rfl⟩
    rw [left, Except.ok.injEq] at right
    exact congrArg LiveWorld.state right
  rcases reconstruct_cases faithful log available with
    ⟨state, accepted, rebuilt⟩ | ⟨never, nothing⟩
  · obtain ⟨shape, small, fewRecords, _, fresh, created, recordings⟩ := accepted
    obtain ⟨recorder, sameRecords, session⟩ :=
      recordings.session faithful created small fewRecords
    have exported : recorder.exportLog ⟨0, state⟩ = .ok log := by
      obtain ⟨again, createdAgain, _, inStep⟩ := session.inStep
      rw [inStep.exports faithful createdAgain, sameRecords, ← shape]
    refine ⟨⟨fun _ => ⟨_, recorder, session, exported⟩, fun _ => ⟨_, rebuilt⟩⟩, ?_, ?_⟩
    · intro world live other found otherSession otherExported
      rw [rebuilt] at found
      simp only [Except.ok.injEq, Result.mk.injEq, Option.some.injEq, and_true] at found
      rw [← found]
      exact unique (replayable session exported) (replayable otherSession otherExported)
    · intro unrecorded
      exact absurd exported (unrecorded _ _ session)
  · refine ⟨⟨?_, ?_⟩, ?_, fun _ => nothing⟩
    · intro found
      obtain ⟨world, rebuilt⟩ := found
      exact absurd rebuilt (nothing world [])
    · intro found
      obtain ⟨live, recorder, session, exported⟩ := found
      exact absurd (replayable session exported) (never live.state)
    · intro world live recorder rebuilt
      exact absurd rebuilt (nothing world [])

end Sessions

def sampleRecording : Applied Halves Unit (Recorder Halves) :=
  (⟨[], 0⟩ : Recorder Halves).applyAtBoundary JsonText.library sampleWorld sampleFamily 5 none ()

def sampleLog : Log Halves :=
  .of (ascii "world") 7 4 sampleRecording.observer.records

theorem sampleRecording_session :
    Session JsonText.library (ascii "world") 7 4 sampleRecording.world
      sampleRecording.observer :=
  .call sampleFamily 5 none ()
    (@Session.start Halves _ _ _ _ _ 1 sampleWorld.state ⟨[], 0⟩ rfl rfl)

theorem replay_accepts_exports_family :
    ∃ world, reconstruct JsonText.library sampleLog [Asset.builtin] =
        .ok ⟨some world, []⟩ ∧ world.state = sampleRecording.world.state := by
  obtain ⟨accepts, same, _⟩ := replay_accepts_exports JsonText.library_faithful sampleLog
    [Asset.builtin] (List.mem_singleton.mpr rfl) (by decide)
  have exported : sampleRecording.observer.exportLog sampleRecording.world = .ok sampleLog := by
    obtain ⟨_, created, _, inStep⟩ := sampleRecording_session.inStep
    exact inStep.exports JsonText.library_faithful created
  obtain ⟨world, rebuilt⟩ := accepts.mpr ⟨_, _, sampleRecording_session, exported⟩
  exact ⟨world, rebuilt, same world _ _ rebuilt sampleRecording_session exported⟩

/-- Nine assets are refused, whatever the log. -/
theorem replay_refuses_nine_assets :
    (∃ live recorder,
      Session JsonText.library (ascii "world") 7 4 live recorder ∧
        recorder.exportLog live = .ok (.of (ascii "world") 7 4 [])) ∧
      Asset.builtin ∈ List.replicate 9 Asset.builtin ∧
      reconstruct JsonText.library (.of (ascii "world") 7 4 [] : Log Halves)
          (List.replicate 9 Asset.builtin) =
        .ok ⟨none, [fail "BUDGET_EXCEEDED" "/log"]⟩ := by
  refine ⟨⟨sampleWorld, ⟨[], 0⟩, ?_, rfl⟩, ?_, ?_⟩
  · exact @Session.start Halves _ _ _ _ _ 1 sampleWorld.state ⟨[], 0⟩ rfl rfl
  · exact List.mem_replicate.mpr ⟨by decide, rfl⟩
  · decide +kernel

end Omniweft.Replay
