import Omniweft.TransactionsRuns

/-!
# Replays

A replay is the plain batch under recorded creation mappings. It accepts exactly the
mappings that the batch itself would issue, operation by operation.
-/

namespace Omniweft.Transactions

open Omniweft.Outcome World Commands

variable {α : Type} [Scalar α]

def replaying (bindings : List CreatedBinding) (revision : UInt64) : Context α Unit :=
  ⟨none, some bindings, revision⟩

/-- The recorded mapping at the end of what was issued so far is the next one. -/
theorem prefix_snoc_iff {β : Type} {issued bindings : List β} {binding : β}
    (before : issued <+: bindings) :
    issued ++ [binding] <+: bindings ↔ bindings[issued.length]? = some binding := by
  obtain ⟨rest, rfl⟩ := before
  rw [List.prefix_append_right_inj, List.getElem?_append_right (Nat.le_refl _), Nat.sub_self]
  cases rest with
  | nil => simp
  | cons first others => simp [List.cons_prefix_cons, eq_comm]

theorem matchBinding_eq_ok {bindings issued : List CreatedBinding}
    {binding : CreatedBinding} {index : Nat} (before : issued <+: bindings) :
    matchBinding (some bindings) issued.length binding index = .ok () ↔
      issued ++ [binding] <+: bindings := by
  rw [prefix_snoc_iff before]
  dsimp only [matchBinding]
  cases bindings[issued.length]? with
  | none => simp
  | some expected => simp

/-- One operation replays when the plain operation issues what was recorded. -/
theorem applyOperation_replaying
    {bindings : List CreatedBinding} {revision : UInt64} {operation : Operation α}
    {index : Nat} {staging next : Staging α} (before : staging.created <+: bindings) :
    applyOperation (replaying bindings revision) operation index staging () = .ok next () ↔
      applyOperation (plainContext revision) operation index staging () = .ok next () ∧
        next.created <+: bindings := by
  have unissued
      (same : applyOperation (replaying bindings revision) operation index staging () =
        applyOperation (plainContext revision) operation index staging ())
      (quiet : applyOperation (plainContext revision) operation index staging () =
          .ok next () → next.created = staging.created) :
      applyOperation (replaying bindings revision) operation index staging () =
          .ok next () ↔
        applyOperation (plainContext revision) operation index staging () = .ok next () ∧
          next.created <+: bindings := by
    rw [same]
    constructor
    · intro applied
      exact ⟨applied, (quiet applied).symm ▸ before⟩
    · exact And.left
  cases operation with
  | entityCreate operation =>
      constructor
      · intro applied
        refine ⟨applyOperation_plain applied, ?_⟩
        obtain ⟨position, slot, base, _, _, _, _, matched, same⟩ :=
          applyCreate_eq_ok.mp applied
        rw [same]
        exact (matchBinding_eq_ok before).mp matched
      · intro both
        obtain ⟨applied, recorded⟩ := both
        obtain ⟨position, slot, base, unused, cube, allocated, _, _, same⟩ :=
          applyCreate_eq_ok.mp applied
        rw [same] at recorded
        exact applyCreate_eq_ok.mpr ⟨position, slot, base, unused, cube, allocated, rfl,
          (matchBinding_eq_ok before).mpr recorded, same⟩
  | transformSet operation =>
      refine unissued rfl fun applied => ?_
      obtain ⟨_, _, _, _, _, _, _, _, _, _, _, _, same⟩ := applyTransform_eq_ok.mp applied
      rw [same]
  | entityTagsSet operation =>
      refine unissued rfl fun applied => ?_
      obtain ⟨_, _, _, _, _, same⟩ := applyTagsSet_eq_ok.mp applied
      rw [same]
  | entityReparent operation =>
      refine unissued rfl fun applied => ?_
      obtain ⟨_, _, _, _, _, _, _, _, _, _, _, same⟩ := applyReparent_eq_ok.mp applied
      rw [same]
  | entityDelete operation =>
      refine unissued rfl fun applied => ?_
      obtain ⟨_, _, _, _, _, _, same⟩ := applyDelete_eq_ok.mp applied
      rw [same]

theorem applyOperations_created
    {context : Context α Unit} {operations : List (Operation α)} :
    ∀ {index : Nat} {staging last : Staging α},
      applyOperations context operations index staging () = .ok last () →
      staging.created <+: last.created := by
  induction operations with
  | nil =>
      intro index staging last applied
      exact (applyOperations_nil_eq_ok.mp applied).1 ▸ List.prefix_rfl
  | cons operation rest inductionHypothesis =>
      intro index staging last applied
      obtain ⟨next, _, first, others⟩ := applyOperations_cons_eq_ok.mp applied
      obtain ⟨bindings, _, grown⟩ := applyOperation_created first
      have step : staging.created <+: next.created := grown ▸ List.prefix_append _ _
      exact step.trans (inductionHypothesis others)

/-- A batch replays when the plain batch issues what was recorded, and in this order. -/
theorem applyOperations_replaying
    {bindings : List CreatedBinding} {revision : UInt64} {operations : List (Operation α)} :
    ∀ {index : Nat} {staging last : Staging α},
      staging.created <+: bindings →
      (applyOperations (replaying bindings revision) operations index staging () =
          .ok last () ↔
        applyOperations (plainContext revision) operations index staging () = .ok last () ∧
          last.created <+: bindings) := by
  induction operations with
  | nil =>
      intro index staging last before
      rw [applyOperations_nil_eq_ok, applyOperations_nil_eq_ok]
      constructor
      · intro both
        exact ⟨both, both.1 ▸ before⟩
      · exact And.left
  | cons operation rest inductionHypothesis =>
      intro index staging last before
      rw [applyOperations_cons_eq_ok, applyOperations_cons_eq_ok]
      constructor
      · intro applied
        obtain ⟨next, _, first, others⟩ := applied
        obtain ⟨plain, recorded⟩ := (applyOperation_replaying before).mp first
        obtain ⟨remaining, all⟩ := (inductionHypothesis recorded).mp others
        exact ⟨⟨next, (), plain, remaining⟩, all⟩
      · intro both
        obtain ⟨⟨next, _, first, others⟩, all⟩ := both
        -- What is issued later is recorded only if what is issued now is.
        have recorded := (applyOperations_created others).trans all
        exact ⟨next, (), (applyOperation_replaying before).mpr ⟨first, recorded⟩,
          (inductionHypothesis recorded).mpr ⟨others, all⟩⟩

/-- The mappings must be used up as well. -/
theorem stage_replaying
    {bindings created : List CreatedBinding} {revision : UInt64} {state staged : Snapshot α}
    {operations : List (Operation α)} :
    stage (replaying bindings revision) state operations () = .ok (staged, created) () ↔
      stage (plainContext revision) state operations () = .ok (staged, created) () ∧
        created = bindings := by
  rw [stage_eq_ok, stage_eq_ok]
  constructor
  · intro replayed
    obtain ⟨last, _, run, counted, _, sameStaged, sameCreated⟩ := replayed
    obtain ⟨plain, recorded⟩ := (applyOperations_replaying List.nil_prefix).mp run
    have whole : last.created = bindings := recorded.eq_of_length (counted bindings rfl)
    refine ⟨⟨last, (), plain, ?_, rfl, sameStaged, sameCreated⟩, sameCreated.trans whole⟩
    intro recorded impossible
    cases impossible
  · intro both
    obtain ⟨⟨last, _, run, _, _, sameStaged, sameCreated⟩, whole⟩ := both
    have issued : last.created = bindings := sameCreated.symm.trans whole
    refine ⟨last, (), (applyOperations_replaying List.nil_prefix).mpr
      ⟨run, issued ▸ List.prefix_rfl⟩, ?_, rfl, sameStaged, sameCreated⟩
    intro recorded same
    obtain rfl := Option.some.inj same
    rw [issued]

/-- The call published its batch. -/
def Committed (result : Except Thrown Receipt) : Prop :=
  ∃ receipt, result = .ok receipt ∧ receipt.status = ascii "committed"

section Boundary

variable {σ τ : Type}

omit [Scalar α] in
theorem refused_not_committed_result {revision : UInt64} {result : Except Thrown Receipt}
    (refused : Refused revision result) : ¬ Committed result := by
  intro committed
  obtain ⟨receipt, same, status⟩ := committed
  have other := (refused receipt same).1
  rw [status] at other
  exact absurd other (by decide)

end Boundary

/-- A call without hooks commits exactly when it is admitted and stages. -/
theorem apply_hookless
    (library : JsonLibrary α) (world : LiveWorld α) (envelope : Envelope α)
    (bindings : Option (List CreatedBinding)) :
    (∃ staged created,
      admission library world.state envelope = .ok () ∧
        stage ⟨none, bindings, world.state.worldRevision + 1⟩ world.state
          envelope.operations () = .ok (staged, created) () ∧
        apply library world envelope (none : Option (StagingGuard α Unit))
            (none : Option (CommitObserver α Unit)) bindings () () =
          { result :=
              .ok (committedReceipt
                (initialReceipt false envelope world.state.worldRevision)
                (world.state.worldRevision + 1) created)
            world :=
              { world with
                state := published staged (world.state.worldRevision + 1) }
            guard := ()
            observer := () }) ∨
      ((admission library world.state envelope = .ok () →
          ∀ pair, stage (⟨none, bindings, world.state.worldRevision + 1⟩ : Context α Unit)
            world.state envelope.operations () ≠ .ok pair ()) ∧
        (apply library world envelope (none : Option (StagingGuard α Unit))
            (none : Option (CommitObserver α Unit)) bindings () ()).world = world ∧
        ¬ Committed
          (apply library world envelope (none : Option (StagingGuard α Unit))
            (none : Option (CommitObserver α Unit)) bindings () ()).result) := by
  rcases apply_cases library world envelope (none : Option (StagingGuard α Unit))
      (none : Option (CommitObserver α Unit)) bindings () () with
    ⟨_, staged, created, _, _, _, accepted, stagedOk, _, same⟩ | ⟨kept, refused, _⟩
  · exact Or.inl ⟨staged, created, accepted, stagedOk, same⟩
  · refine Or.inr ⟨fun accepted pair stagedOk => ?_, kept,
      refused_not_committed_result refused⟩
    obtain ⟨staged, created⟩ := pair
    have status : Committed
        (apply library world envelope (none : Option (StagingGuard α Unit))
          (none : Option (CommitObserver α Unit)) bindings () ()).result := by
      simp only [apply, Context.notify, accepted, stagedOk, prepare]
      exact ⟨_, rfl, rfl⟩
    exact refused_not_committed_result refused status

/-- The replay path equals the live path. -/
theorem replay_equals_live
    (library : JsonLibrary α) (world : LiveWorld α) (envelope : Envelope α)
    (bindings : List CreatedBinding) :
    let live : Applied α Unit Unit :=
      applyAtBoundary library world envelope none none () ()
    let replay := replayAtBoundary library world envelope bindings
    (Committed replay.result ↔
        ∃ receipt, live.result = .ok receipt ∧ receipt.status = ascii "committed" ∧
          receipt.created = bindings) ∧
      (Committed replay.result → Committed live.result →
        replay.world = live.world ∧ replay.result = live.result) ∧
      (¬ Committed replay.result → replay.world = world) := by
  intro live replay
  rcases apply_hookless library world envelope none with
    ⟨staged, created, accepted, stagedOk, liveSame⟩ | ⟨liveStuck, _, liveRefused⟩
  · rcases apply_hookless library world envelope (some bindings) with
      ⟨again, recorded, _, replayedOk, replaySame⟩ | ⟨stuck, kept, refused⟩
    · obtain ⟨plain, whole⟩ := stage_replaying.mp replayedOk
      have equal := plain.symm.trans stagedOk
      simp only [EStateM.Result.ok.injEq, Prod.mk.injEq, and_true] at equal
      obtain ⟨sameStaged, sameCreated⟩ := equal
      have same : replay = live := by
        change apply library world envelope none none (some bindings) () () =
          apply library world envelope none none none () ()
        rw [replaySame, liveSame, sameStaged, sameCreated]
      have receipt : replay.result =
          .ok (committedReceipt (initialReceipt false envelope world.state.worldRevision)
            (world.state.worldRevision + 1) recorded) := congrArg Applied.result replaySame
      have committed : Committed replay.result := ⟨_, receipt, rfl⟩
      refine ⟨⟨fun _ => ⟨_, same ▸ receipt, rfl, whole⟩, fun _ => committed⟩, ?_, ?_⟩
      · intro _ _
        rw [same]
        exact ⟨rfl, rfl⟩
      · exact fun rejected => absurd committed rejected
    · have receipt : live.result =
          .ok (committedReceipt (initialReceipt false envelope world.state.worldRevision)
            (world.state.worldRevision + 1) created) := congrArg Applied.result liveSame
      refine ⟨⟨fun committed => absurd committed refused, fun agreed => ?_⟩,
        fun committed => absurd committed refused, fun _ => kept⟩
      obtain ⟨other, found, _, whole⟩ := agreed
      rw [receipt, Except.ok.injEq] at found
      rw [← found] at whole
      exact absurd (stage_replaying.mpr ⟨stagedOk, whole⟩) (stuck accepted _)
  · rcases apply_hookless library world envelope (some bindings) with
      ⟨staged, recorded, accepted, replayedOk, _⟩ | ⟨_, kept, refused⟩
    · exact absurd (stage_replaying.mp replayedOk).1 (liveStuck accepted _)
    · refine ⟨⟨fun committed => absurd committed refused, fun agreed => ?_⟩,
        fun committed => absurd committed refused, fun _ => kept⟩
      obtain ⟨receipt, found, status, _⟩ := agreed
      exact absurd ⟨receipt, found, status⟩ liveRefused

end Omniweft.Transactions
