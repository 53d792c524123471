import Omniweft.JsonText
import Omniweft.TransactionsSteps

/-!
# Runs of the coordinator

A boundary call either publishes a committed batch or leaves the world as it
was. `Reachable` collects the worlds that any calls can reach; a property of
snapshots that a fresh world has and every commit keeps holds of all of them.
-/

namespace Omniweft.Transactions

open Omniweft.Outcome World Commands

variable {α : Type} [Scalar α]

theorem admission_eq_ok {library : JsonLibrary α} {state : Snapshot α}
    {envelope : Envelope α} :
    admission library state envelope = .ok () ↔
      (∃ bytes, serialize library envelope = .ok bytes) ∧
        envelope.worldId = state.worldId ∧
        envelope.expectedWorldRevision = state.worldRevision ∧
        state.worldRevision ≠ maximum64 := by
  unfold admission
  simp only [bind_eq_ok, rejectIf_eq_ok, bne_eq_false_iff_eq, beq_eq_false_iff_ne,
    exists_and_left, exists_const, exists_and_right]
  refine and_congr_left fun _ => ?_
  cases serialize library envelope with
  | error errors => simp [mapError_eq_ok]
  | ok bytes => simp [mapError_eq_ok]

/-- The committed batch itself: admitted, staged to `next`, with no hook. -/
def Commits (library : JsonLibrary α) (state : Snapshot α) (envelope : Envelope α)
    (next : Snapshot α) (created : List CreatedBinding) : Prop :=
  admission library state envelope = .ok () ∧
    ∃ staged,
      stage (plainContext (state.worldRevision + 1)) state envelope.operations () =
        .ok (staged, created) () ∧
      next = published staged (state.worldRevision + 1)

/-- A commit raises the revision by one, without wrapping. -/
theorem Commits.revision {library : JsonLibrary α} {state next : Snapshot α}
    {envelope : Envelope α} {created : List CreatedBinding}
    (committed : Commits library state envelope next created) :
    next.worldRevision = state.worldRevision + 1 ∧
      next.worldRevision.toNat = state.worldRevision.toNat + 1 := by
  obtain ⟨accepted, staged, _, same⟩ := committed
  obtain ⟨_, _, _, finite⟩ := admission_eq_ok.mp accepted
  have raised : next.worldRevision = state.worldRevision + 1 := by rw [same]; rfl
  refine ⟨raised, ?_⟩
  have below : state.worldRevision.toNat ≠ 2 ^ 64 - 1 := by
    intro last
    exact finite (UInt64.toNat_inj.mp last)
  have bounded := state.worldRevision.toNat_lt
  rw [raised, UInt64.toNat_add, Nat.mod_eq_of_lt]
  · rfl
  · change state.worldRevision.toNat + 1 < 2 ^ 64
    omega

/-- A commit names no more entities than the batch has operations. -/
theorem Commits.created_le {library : JsonLibrary α} {state next : Snapshot α}
    {envelope : Envelope α} {created : List CreatedBinding}
    (committed : Commits library state envelope next created) :
    created.length ≤ envelope.operations.length := by
  obtain ⟨_, staged, stagedOk, _⟩ := committed
  obtain ⟨last, _, run, _, _, _, same⟩ := stage_eq_ok.mp stagedOk
  have few := applyOperations_created_le run
  simpa [same] using few

/-- A receipt that reports no change. -/
def Refused (revision : UInt64) (result : Except Thrown Receipt) : Prop :=
  ∀ receipt,
    result = .ok receipt →
      receipt.status = ascii "rejected" ∧ receipt.worldRevision = revision ∧
        receipt.created = []

section Apply

variable {σ τ : Type}

omit [Scalar α] in
theorem rejected_refused
    (guarded : Bool) (envelope : Envelope α) (revision : UInt64)
    (errors : List Error) :
    Refused revision
      (.ok { initialReceipt guarded envelope revision with errors := errors }) := by
  intro receipt same
  cases same
  exact ⟨rfl, rfl, rfl⟩

omit [Scalar α] in
theorem refuse_keeps
    (guarded : Bool) (envelope : Envelope α) (world : LiveWorld α) (thrown : Thrown)
    (guardState : σ) (observerState : τ) :
    let applied : Applied α σ τ :=
      refuse (initialReceipt guarded envelope world.state.worldRevision) world thrown
        guardState observerState
    applied.world = world ∧ Refused world.state.worldRevision applied.result := by
  refine ⟨rfl, ?_⟩
  cases thrown with
  | error error => exact rejected_refused guarded envelope _ [error]
  | failure code =>
      intro receipt same
      cases same
  | other =>
      intro receipt same
      cases same

/-- Where a call that publishes nothing leaves its hook: as `begin` left it when
it refused, else with all that no later callback loses. -/
def HookLeft (guard : Option (StagingGuard α σ))
    (begun : EStateM.Result Thrown σ Unit) (after : σ) : Prop :=
  match begun with
  | .error _ refused => after = refused
  | .ok _ admitted =>
      ∀ Invariant : σ → Prop,
        (∀ hook, guard = some hook → HookKeeps hook Invariant) →
        Invariant admitted → Invariant after

/-- The two endings of a boundary call. -/
theorem apply_cases
    (library : JsonLibrary α) (world : LiveWorld α) (envelope : Envelope α)
    (guard : Option (StagingGuard α σ)) (observer : Option (CommitObserver α τ))
    (bindings : Option (List CreatedBinding)) (guardState : σ) (observerState : τ) :
    (∃ admitted staged created guardFinal observerFinal,
      Context.notify ⟨guard, bindings, world.state.worldRevision + 1⟩
          (fun guard => guard.begin world envelope) guardState = .ok () admitted ∧
        admission library world.state envelope = .ok () ∧
        stage ⟨guard, bindings, world.state.worldRevision + 1⟩ world.state
          envelope.operations admitted = .ok (staged, created) guardFinal ∧
        prepare observer (published staged (world.state.worldRevision + 1))
            (committedReceipt
              (initialReceipt guard.isSome envelope world.state.worldRevision)
              (world.state.worldRevision + 1) created) observerState =
          .ok () observerFinal ∧
        apply library world envelope guard observer bindings guardState
            observerState =
          { result :=
              .ok (committedReceipt
                (initialReceipt guard.isSome envelope world.state.worldRevision)
                (world.state.worldRevision + 1) created)
            world :=
              { world with
                state := published staged (world.state.worldRevision + 1) }
            guard := guard.elim guardFinal fun guard => guard.commit guardFinal
            observer := observer.elim observerFinal fun observer =>
              observer.publish observerFinal }) ∨
      ((apply library world envelope guard observer bindings guardState
            observerState).world = world ∧
        Refused world.state.worldRevision
          (apply library world envelope guard observer bindings guardState
            observerState).result ∧
        HookLeft guard
          (Context.notify ⟨guard, bindings, world.state.worldRevision + 1⟩
            (fun guard => guard.begin world envelope) guardState)
          (apply library world envelope guard observer bindings guardState
            observerState).guard) := by
  cases begun :
      Context.notify ⟨guard, bindings, world.state.worldRevision + 1⟩
        (fun guard => guard.begin world envelope) guardState with
  | error thrown admitted =>
      obtain ⟨same, refused⟩ :=
        refuse_keeps guard.isSome envelope world thrown admitted observerState
      simp only [apply, begun]
      exact Or.inr ⟨same, refused, rfl⟩
  | ok _ admitted =>
      cases accepted : admission library world.state envelope with
      | error errors =>
          simp only [apply, begun, accepted]
          exact Or.inr ⟨trivial, rejected_refused _ _ _ _, fun _ _ holds => holds⟩
      | ok _ =>
          have staging :
              ∀ Invariant : σ → Prop,
                (∀ hook, guard = some hook → HookKeeps hook Invariant) →
                Keeps Invariant
                  (stage ⟨guard, bindings, world.state.worldRevision + 1⟩ world.state
                    envelope.operations) :=
            fun Invariant keeps =>
              @stage_keeps _ _ _ ⟨guard, bindings, world.state.worldRevision + 1⟩
                Invariant keeps world.state envelope.operations
          cases stagedOk :
              stage ⟨guard, bindings, world.state.worldRevision + 1⟩ world.state
                envelope.operations admitted with
          | error thrown guardFinal =>
              obtain ⟨same, refused⟩ :=
                refuse_keeps guard.isSome envelope world thrown guardFinal observerState
              simp only [apply, begun, accepted, stagedOk]
              refine Or.inr ⟨same, refused, fun Invariant keeps holds => ?_⟩
              exact (staging Invariant keeps admitted holds).2 _ _ stagedOk
          | ok pair guardFinal =>
              obtain ⟨staged, created⟩ := pair
              cases prepared :
                  prepare observer
                    (published staged (world.state.worldRevision + 1))
                    (committedReceipt
                      (initialReceipt guard.isSome envelope
                        world.state.worldRevision)
                      (world.state.worldRevision + 1) created) observerState with
              | error thrown observerFinal =>
                  obtain ⟨same, refused⟩ :=
                    refuse_keeps guard.isSome envelope world thrown guardFinal
                      observerFinal
                  simp only [apply, begun, accepted, stagedOk, prepared]
                  refine Or.inr ⟨same, refused, fun Invariant keeps holds => ?_⟩
                  exact (staging Invariant keeps admitted holds).1 _ _ stagedOk
              | ok _ observerFinal =>
                  refine Or.inl
                    ⟨admitted, staged, created, guardFinal, observerFinal, rfl, rfl,
                      stagedOk, prepared, ?_⟩
                  simp only [apply, begun, accepted, stagedOk, prepared]

/-- Whatever hooks and recorded mappings stand around it, a call publishes the
plain batch or nothing. -/
theorem apply_commits_or_keeps
    (library : JsonLibrary α) (world : LiveWorld α) (envelope : Envelope α)
    (guard : Option (StagingGuard α σ)) (observer : Option (CommitObserver α τ))
    (bindings : Option (List CreatedBinding)) (guardState : σ) (observerState : τ) :
    (∃ next created,
      Commits library world.state envelope next created ∧
        (apply library world envelope guard observer bindings guardState
          observerState).world = { world with state := next } ∧
        (apply library world envelope guard observer bindings guardState
            observerState).result =
          .ok (committedReceipt
            (initialReceipt guard.isSome envelope world.state.worldRevision)
            (world.state.worldRevision + 1) created)) ∨
      ((apply library world envelope guard observer bindings guardState
            observerState).world = world ∧
        Refused world.state.worldRevision
          (apply library world envelope guard observer bindings guardState
            observerState).result) := by
  rcases apply_cases library world envelope guard observer bindings guardState
      observerState with
    ⟨admitted, staged, created, guardFinal, observerFinal, _, accepted, stagedOk, _,
      same⟩ | ⟨kept, refused, _⟩
  · refine Or.inl
      ⟨published staged (world.state.worldRevision + 1), created,
        ⟨accepted, staged, stage_plain stagedOk, rfl⟩, ?_, ?_⟩
    · rw [same]
    · rw [same]
  · exact Or.inr ⟨kept, refused⟩

end Apply

/-- A world that boundary calls with allowed envelopes reach from a fresh one:
any hooks, observers and recorded mappings, accepted or not. -/
inductive ReachableBy (library : JsonLibrary α) (allowed : Envelope α → Prop) :
    LiveWorld α → Prop
  | fresh {address : Nat} {worldId : Text} {seed maxSlots : UInt32}
      {state : Snapshot α} :
      create worldId seed maxSlots = .ok state →
      ReachableBy library allowed ⟨address, state⟩
  | call {world : LiveWorld α} {σ τ : Type} (envelope : Envelope α)
      (guard : Option (StagingGuard α σ)) (observer : Option (CommitObserver α τ))
      (bindings : Option (List CreatedBinding)) (guardState : σ) (observerState : τ) :
      allowed envelope → ReachableBy library allowed world →
      ReachableBy library allowed
        (apply library world envelope guard observer bindings guardState
          observerState).world

/-- A world that any boundary calls reach. -/
def Reachable (library : JsonLibrary α) : LiveWorld α → Prop :=
  ReachableBy library fun _ => True

/-- A plain boundary call publishes the batch. -/
theorem Commits.published {library : JsonLibrary α} {world : LiveWorld α}
    {envelope : Envelope α} {next : Snapshot α} {created : List CreatedBinding}
    (committed : Commits library world.state envelope next created) :
    (apply library world envelope (none : Option (StagingGuard α Unit))
        (none : Option (CommitObserver α Unit)) none () ()).world =
      { world with state := next } := by
  obtain ⟨accepted, staged, stagedOk, same⟩ := committed
  have begun :
      Context.notify (⟨none, none, world.state.worldRevision + 1⟩ : Context α Unit)
        (fun guard => guard.begin world envelope) () = .ok () () := rfl
  change
    stage (⟨none, none, world.state.worldRevision + 1⟩ : Context α Unit) world.state
      envelope.operations () = _ at stagedOk
  simp only [apply, begun, accepted, stagedOk, prepare]
  rw [same]
  rfl

theorem ReachableBy.commit {library : JsonLibrary α} {allowed : Envelope α → Prop}
    {world : LiveWorld α} (reachable : ReachableBy library allowed world)
    {envelope : Envelope α} {next : Snapshot α} {created : List CreatedBinding}
    (fit : allowed envelope)
    (committed : Commits library world.state envelope next created) :
    ReachableBy library allowed { world with state := next } := by
  rw [← committed.published]
  exact ReachableBy.call envelope none none none () () fit reachable

/-- The induction every property of reachable worlds uses. -/
theorem ReachableBy.invariant {library : JsonLibrary α} {allowed : Envelope α → Prop}
    {Invariant : Snapshot α → Prop}
    (fresh :
      ∀ worldId seed maxSlots state,
        create worldId seed maxSlots = .ok state → Invariant state)
    (commit :
      ∀ state envelope next created,
        allowed envelope → Invariant state →
        Commits library state envelope next created → Invariant next)
    {world : LiveWorld α} (reachable : ReachableBy library allowed world) :
    Invariant world.state := by
  induction reachable with
  | fresh created => exact fresh _ _ _ _ created
  | @call world σ τ envelope guard observer bindings guardState observerState allowed _
      holds =>
      rcases apply_commits_or_keeps library world envelope guard observer bindings
          guardState observerState with
        ⟨next, created, committed, published, _⟩ | ⟨kept, _⟩
      · rw [published]
        exact commit world.state envelope next created allowed holds committed
      · rw [kept]
        exact holds

/-- A commit keeps what each of its operations keeps, when neither the format
nor the revision matters to it. -/
theorem Commits.invariant {library : JsonLibrary α} {Invariant : Snapshot α → Prop}
    {state next : Snapshot α} {envelope : Envelope α} {created : List CreatedBinding}
    (operations :
      ∀ operation index staging following,
        operation ∈ envelope.operations → Invariant staging.staged →
        applyOperation (plainContext (state.worldRevision + 1)) operation index
          staging () = .ok following () →
        Invariant following.staged)
    (unformatted :
      ∀ (staged : Snapshot α) (formatVersion : UInt32) (worldRevision : UInt64),
        Invariant staged →
        Invariant
          { staged with
            formatVersion := formatVersion, worldRevision := worldRevision })
    (holds : Invariant state)
    (committed : Commits library state envelope next created) :
    Invariant next := by
  obtain ⟨_, staged, stagedOk, same⟩ := committed
  obtain ⟨last, _, run, _, _, sameStaged, _⟩ := stage_eq_ok.mp stagedOk
  have kept : Invariant last.staged :=
    @applyOperations_invariant α _ Unit _ (fun staging => Invariant staging.staged)
      envelope.operations
      (fun operation index staging following _ _ member current applied =>
        operations operation index staging following member current applied)
      _ _ _ _ _ holds run
  subst same sameStaged
  exact unformatted last.staged _ _ kept

def sampleWorld : LiveWorld Halves where
  address := 1
  state := ⟨1, ascii "world", 7, 4, 0, []⟩

def sampleEnvelope {α : Type} (revision : UInt64) (operations : List (Operation α)) :
    Envelope α where
  protocolVersion := ascii "0.1"
  worldId := ascii "world"
  transactionId := ascii "00000000-0000-4000-8000-000000000001"
  idempotency := ⟨ascii "epoch", 1⟩
  expectedWorldRevision := revision
  applyAt := ⟨ascii "next_tick", 1⟩
  budget := ⟨256, 0⟩
  operations := operations

def sampleCreate {α : Type} (name : String) : Operation α :=
  .entityCreate ⟨ascii name, ascii "builtin.unit_cube"⟩

def sampleName (name : String) : Target := .temporary ⟨ascii name⟩

def sampleSlot (position : Nat) : Target :=
  .entity ⟨ascii "world", uuid 7 position, 1⟩

/-- A library that has read and written one document. -/
def remembering {α : Type} (value : Json α) : JsonLibrary α where
  dump _ := some (ascii "1")
  events _ := value.saxEvents
  document _ := some value

theorem answered_status {result : Except Thrown Receipt} {status : Text}
    (known : result.toOption.map Receipt.status = some status) :
    ∃ receipt, result = .ok receipt ∧ receipt.status = status := by
  cases result with
  | error thrown => simp [Except.toOption] at known
  | ok receipt => exact ⟨receipt, rfl, Option.some.inj known⟩

/-- A boundary call with neither hook nor observer. -/
def sampleApply (world : LiveWorld Halves) (envelope : Envelope Halves) :
    Applied Halves Unit Unit :=
  applyAtBoundary JsonText.library world envelope none none () ()

end Omniweft.Transactions
