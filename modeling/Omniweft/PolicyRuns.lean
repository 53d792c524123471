import Omniweft.PolicyAccounts

/-!
# Isolation of the principals

Over any calls of the two principals on a fresh workshop world and ledger, the
ledger keeps agreeing with the world, every cube stands in the region of its one
sponsor, and neither principal can touch what the other has.
-/

namespace Omniweft.Policy

open Omniweft.Outcome World Commands Transactions

/-- The ledgers agree on everything but reservations and the bound world. -/
structure SameAccounts (ledger other : Ledger) : Prop where
  sponsors : other.sponsors = ledger.sponsors
  live : other.live = ledger.live
  retained : other.usage.retained = ledger.usage.retained
  revision : other.usage.worldRevision = ledger.usage.worldRevision

theorem SameAccounts.refl (ledger : Ledger) : SameAccounts ledger ledger :=
  ⟨rfl, rfl, rfl, rfl⟩

theorem admitLease_eq_ok {ledger admitted : Ledger} {principal bytes : Nat} {lease : Lease}
    (taken : admitLease ledger principal bytes = .ok (lease, admitted)) :
    lease.principal.val = principal ∧ SameAccounts ledger admitted := by
  unfold admitLease at taken
  simp only [bind_eq_ok, pure_eq_ok, rejectIf_eq_ok, Prod.mk.injEq] at taken
  obtain ⟨known, granted, _, _, _, _, _, _, sameLease, sameLedger⟩ := taken
  subst sameLease sameLedger
  unfold grant at granted
  split at granted
  · cases granted
    exact ⟨rfl, ⟨rfl, rfl, rfl, rfl⟩⟩
  · cases granted

theorem left_accounts {α : Type} [Scalar α] {world : LiveWorld α} {envelope : Envelope α}
    {guard after : Guard}
    (left :
      HookLeft (some (hook : StagingGuard α Guard)) (begin world envelope guard) after) :
    SameAccounts guard.ledger after.ledger := by
  rcases left_ledger left with ⟨same, _⟩ | ⟨_, same⟩
  · rw [same]
    exact SameAccounts.refl _
  · rw [same]
    exact ⟨rfl, rfl, rfl, rfl⟩

theorem fieldBytes_supported {α : Type} {envelope : Envelope α} {bytes : Nat}
    (counted : fieldBytes envelope = .ok bytes) :
    ∀ operation ∈ envelope.operations, supported operation = true := by
  unfold fieldBytes at counted
  simp only [bind_eq_ok, rejectIf_eq_ok] at counted
  obtain ⟨_, _, _, known, _⟩ := counted
  intro operation member
  have fails := List.any_eq_false.mp known operation member
  simpa using fails

section Runs

variable {α : Type} [Scalar α]

/-- Between two calls: the ledger agrees with the world, and every cube is placed. -/
structure Settled (world : LiveWorld α) (ledger : Ledger) : Prop where
  accounted :
    Accounted world.state ledger.sponsors ledger.live (fun _ => false)
      ledger.usage.retained
  revision : ledger.usage.worldRevision = world.state.worldRevision

theorem Settled.same {world : LiveWorld α} {ledger other : Ledger}
    (settled : Settled world ledger) (same : SameAccounts ledger other) :
    Settled world other := by
  obtain ⟨sponsors, live, retained, revision⟩ := same
  exact ⟨by rw [sponsors, live, retained]; exact settled.accounted,
    revision.trans settled.revision⟩

/-- The staging of a call up to the operation at `count`, with the guard. -/
def Prefix (world : LiveWorld α) (envelope : Envelope α) (ledger : Ledger)
    (principal count : Nat) (staging : Staging α) (guard : Guard) : Prop :=
  ∃ bytes lease admitted begun,
    fieldBytes envelope = .ok bytes ∧
      admitLease ledger principal bytes = .ok (lease, admitted) ∧
      begin world envelope (Guard.create admitted lease) = .ok () begun ∧
      applyOperations (watching (world.state.worldRevision + 1))
          (envelope.operations.take count) 0 ⟨world.state, [], []⟩ begun =
        .ok staging guard

variable [RoundedScalar α]

/-- What holds after any staged prefix. -/
theorem Settled.watched {world : LiveWorld α} {ledger : Ledger}
    (settled : Settled world ledger) {envelope : Envelope α} {principal count : Nat}
    {staging : Staging α} {guard : Guard}
    (staged : Prefix world envelope ledger principal count staging guard) :
    Watched staging.staged guard ∧
      Respects world.state ledger.sponsors staging.staged guard ∧
      guard.lease.principal.val = principal ∧ SameAccounts ledger guard.ledger ∧
      guard.begun = true := by
  obtain ⟨bytes, lease, admitted, begun, counted, taken, started, run⟩ := staged
  obtain ⟨same, accounts⟩ := admitLease_eq_ok taken
  obtain ⟨_, _, _, _, beginning⟩ := begin_eq_ok.mp started
  have sponsors : begun.sponsors = ledger.sponsors := by
    rw [beginning]
    exact accounts.sponsors
  have live : begun.live = ledger.live := by
    rw [beginning]
    exact accounts.live
  have retained : begun.retained = ledger.usage.retained := by
    rw [beginning]
    exact accounts.retained
  have unplaced : begun.unplaced = fun _ => false := by rw [beginning]; rfl
  have first : Watched world.state begun := by
    refine ⟨?_, ?_⟩
    · rw [sponsors, live, unplaced, retained]
      exact settled.accounted
    · intro place pending
      rw [unplaced] at pending
      exact absurd pending Bool.false_ne_true
  have untouched : Respects world.state ledger.sponsors world.state begun := by
    have start := Respects.start world.state (fun place => congrFun unplaced place)
    rw [sponsors] at start
    exact start
  have known := fieldBytes_supported counted
  have together :=
    @applyOperations_together α _ Guard (watching (world.state.worldRevision + 1))
      (fun staging guard =>
        (Watched staging.staged guard ∧
            Respects world.state ledger.sponsors staging.staged guard) ∧
          guard.lease = begun.lease ∧ guard.ledger = begun.ledger ∧
          guard.begun = begun.begun)
      (envelope.operations.take count)
      (fun operation index staging next state final member holds applied => by
        obtain ⟨⟨watched, respects⟩, sameLease, sameLedger, sameBegun⟩ := holds
        obtain ⟨kept, leases, ledgers, beguns⟩ :=
          watched_step (known operation (List.mem_of_mem_take member)) watched respects
            applied
        exact ⟨kept, leases.trans sameLease, ledgers.trans sameLedger,
          beguns.trans sameBegun⟩)
      0 ⟨world.state, [], []⟩ staging begun guard
      ⟨⟨first, untouched⟩, rfl, rfl, rfl⟩ run
  obtain ⟨⟨watched, respects⟩, sameLease, sameLedger, sameBegun⟩ := together
  refine ⟨watched, respects, ?_, ?_, ?_⟩
  · rw [sameLease, beginning]
    exact same
  · rw [sameLedger, beginning]
    exact ⟨accounts.sponsors, accounts.live, accounts.retained, accounts.revision⟩
  · rw [sameBegun, beginning]
    rfl

/-- Every slot with a live cube of another principal. -/
def Undisturbed (before after : LiveWorld α) (ledger : Ledger) (principal : Nat) : Prop :=
  ∀ (place : Fin slotCount) slot entity owner,
    liveAt before.state place = some (slot, entity) →
    ledger.sponsors place = some owner → owner.val ≠ principal →
    after.state.slots[place.val]? = some slot

omit [RoundedScalar α] in
theorem Accounted.published {staged : Snapshot α} {sponsors : PerSlot (Option Principal)}
    {live unplaced : PerSlot Bool} {retained : PerPrincipal Nat} {revision : UInt64}
    (accounted : Accounted staged sponsors live unplaced retained) :
    Accounted (published (formatted staged) revision) sponsors live unplaced retained :=
  ⟨accounted.few, accounted.flat, accounted.sponsored, accounted.alive, accounted.placed,
    accounted.charged⟩

/-- One boundary call of either principal. -/
theorem Settled.apply {library : JsonLibrary α} {world : LiveWorld α} {ledger : Ledger}
    (settled : Settled world ledger) (envelope : Envelope α) (principal : Nat) :
    let answered := apply library world envelope ledger principal
    Settled answered.world answered.ledger ∧
      Undisturbed world answered.world ledger principal := by
  have still : Undisturbed world world ledger principal :=
    fun place slot entity owner live _ _ => (liveAt_eq_some.mp live).1
  cases counted : fieldBytes envelope with
  | error error =>
      simp only [Policy.apply, counted]
      exact ⟨settled, still⟩
  | ok bytes =>
      cases taken : admitLease ledger principal bytes with
      | error denied =>
          simp only [Policy.apply, counted, taken]
          exact ⟨settled, still⟩
      | ok pair =>
          obtain ⟨lease, admitted⟩ := pair
          obtain ⟨_, accounts⟩ := admitLease_eq_ok taken
          rcases apply_cases library world envelope (some (hook : StagingGuard α Guard))
              (none : Option (CommitObserver α Unit)) none (Guard.create admitted lease) ()
            with
            ⟨begun, staged, created, final, _, started, _, stagedOk, _, answered⟩ |
            ⟨kept, _, hooked⟩
          · obtain ⟨last, middle, run, _, finished, sameStaged, _⟩ := stage_eq_ok.mp stagedOk
            obtain ⟨placed, sameFinal⟩ :=
              (@finish_eq_ok α (formatted last.staged) middle final).mp finished
            have all :
                Prefix world envelope ledger principal envelope.operations.length last
                  middle := by
              refine ⟨bytes, lease, admitted, begun, counted, taken, started, ?_⟩
              rw [List.take_length]
              exact run
            obtain ⟨watched, respects, same, bound, began⟩ := settled.watched all
            have committed :
                (commit final).ledger =
                  { middle.ledger with
                    sponsors := middle.sponsors
                    live := middle.live
                    usage :=
                      { middle.ledger.usage with
                        retained := middle.retained
                        worldRevision := middle.ledger.usage.worldRevision + 1 } } := by
              rw [sameFinal, commit, if_pos]
              simp [began]
            have accounted :
                Accounted (published staged (world.state.worldRevision + 1)) middle.sponsors
                  middle.live (fun _ => false) middle.retained := by
              have unplaced : middle.unplaced = fun _ => false := funext placed
              rw [sameStaged, ← unplaced]
              exact watched.accounted.published
            simp only [Policy.apply, counted, taken, applyAtBoundary, answered]
            refine ⟨⟨?_, ?_⟩, ?_⟩
            · change Accounted _ (commit final).ledger.sponsors (commit final).ledger.live _
                (commit final).ledger.usage.retained
              rw [committed]
              exact accounted
            · change (commit final).ledger.usage.worldRevision = world.state.worldRevision + 1
              rw [committed, ← settled.revision, ← bound.revision]
            · intro place slot entity owner live owned foreign
              have different : owner ≠ middle.lease.principal := by
                intro equal
                exact foreign (equal ▸ same)
              have present := (respects place slot entity owner live owned different).1
              rw [sameStaged]
              exact present
          · simp only [Policy.apply, counted, taken, applyAtBoundary, kept]
            refine ⟨?_, still⟩
            have unwritten : SameAccounts admitted _ := left_accounts hooked
            have through := (settled.same accounts).same unwritten
            exact ⟨through.accounted, through.revision⟩

/-- What any calls reach from a fresh workshop world and a fresh ledger. -/
inductive Reaches (library : JsonLibrary α) : LiveWorld α → Ledger → Prop
  | fresh {address globalLimit : Nat} {state : Snapshot α} {ledger : Ledger} :
      World.create (ascii "workshop") 7 8 = .ok state →
      Ledger.create globalLimit = .ok ledger →
      Reaches library ⟨address, state⟩ ledger
  | call {world : LiveWorld α} {ledger : Ledger} (envelope : Envelope α)
      (principal : Nat) :
      Reaches library world ledger →
      Reaches library (apply library world envelope ledger principal).world
        (apply library world envelope ledger principal).ledger

omit [RoundedScalar α] in
theorem Settled.fresh {address globalLimit : Nat} {state : Snapshot α} {ledger : Ledger}
    (created : World.create (ascii "workshop") 7 8 = .ok state)
    (opened : Ledger.create globalLimit = .ok ledger) :
    Settled ⟨address, state⟩ ledger := by
  obtain ⟨_, _, _, sameState⟩ := World.create_eq_ok.mp created
  unfold Ledger.create at opened
  split at opened
  · cases opened
  · cases opened
    subst sameState
    refine ⟨⟨Nat.zero_le _, ?_, ?_, ?_, ?_, ?_⟩, rfl⟩
    · intro slot member
      cases member
    · intro place
      simp
    · intro place
      rfl
    · intro place slot entity live _
      cases live
    · have nothing :
          ∀ principal : Principal,
            0 = charge (fun _ => none) (fun _ => false) principal ∧
              charge (fun _ => none) (fun _ => false) principal ≤
                (grants principal).retainedLimit := by decide
      exact nothing

theorem Reaches.settled {library : JsonLibrary α} {world : LiveWorld α} {ledger : Ledger}
    (reaches : Reaches library world ledger) : Settled world ledger := by
  induction reaches with
  | fresh created opened => exact Settled.fresh created opened
  | call envelope principal _ settled => exact (settled.apply envelope principal).1

/-- What a principal owes: each slot it sponsors, and each live entity there. -/
def owed (state : Snapshot α) (sponsors : PerSlot (Option Principal))
    (principal : Principal) : Nat :=
  skeletonCharge *
      ((List.finRange slotCount).countP fun slot => sponsors slot == some principal) +
    cubeCharge *
      ((List.finRange slotCount).countP fun slot =>
        sponsors slot == some principal && (liveAt state slot).isSome)

theorem sum_charges {β : Type} (sponsored live : β → Bool) (items : List β) :
    (items.map fun item =>
        if sponsored item = true then skeletonCharge + (if live item then cubeCharge else 0)
        else 0).sum =
      skeletonCharge * items.countP sponsored +
        cubeCharge * items.countP fun item => sponsored item && live item := by
  induction items with
  | nil => rfl
  | cons item rest inductionHypothesis =>
      rw [List.map_cons, List.sum_cons, inductionHypothesis]
      cases owned : sponsored item <;> cases alive : live item <;>
        simp [owned, alive, skeletonCharge, cubeCharge] <;> omega

omit [RoundedScalar α] in
theorem Accounted.owed {state : Snapshot α} {sponsors : PerSlot (Option Principal)}
    {live unplaced : PerSlot Bool} {retained : PerPrincipal Nat}
    (accounted : Accounted state sponsors live unplaced retained) (principal : Principal) :
    retained principal = owed state sponsors principal ∧
      retained principal ≤ (grants principal).retainedLimit := by
  obtain ⟨charged, limit⟩ := accounted.charged principal
  have summed :
      charge sponsors live principal = Policy.owed state sponsors principal := by
    have counted :=
      sum_charges (fun slot => sponsors slot == some principal) live
        (List.finRange slotCount)
    have sameLive : live = fun slot : Fin slotCount => (liveAt state slot).isSome :=
      funext accounted.alive
    simp only [beq_iff_eq] at counted
    rw [charge, counted, Policy.owed, sameLive]
  exact ⟨charged.trans summed, charged ▸ limit⟩

/-- A world and its ledger in agreement, with every cube in the region of its
one sponsor and every charge within its limit. -/
structure Isolated (world : LiveWorld α) (ledger : Ledger) : Prop where
  few : world.state.slots.length ≤ slotCount
  agree :
    ∀ place : Fin slotCount,
      ((ledger.sponsors place).isSome = true ↔ place.val < world.state.slots.length) ∧
        ledger.live place = (liveAt world.state place).isSome
  revision : ledger.usage.worldRevision = world.state.worldRevision
  owned :
    ∀ position slot entity,
      liveAt world.state position = some (slot, entity) →
      ∃ (place : Fin slotCount) (principal : Principal),
        place.val = position ∧ ledger.sponsors place = some principal ∧
          ∀ other, fits other entity.transform = true ↔ other = principal
  charged :
    ∀ principal,
      ledger.usage.retained principal = owed world.state ledger.sponsors principal ∧
        ledger.usage.retained principal ≤ (grants principal).retainedLimit

theorem Settled.isolated {world : LiveWorld α} {ledger : Ledger}
    (settled : Settled world ledger) : Isolated world ledger := by
  obtain ⟨accounted, revision⟩ := settled
  refine ⟨accounted.few, ?_, revision, ?_, fun principal => accounted.owed principal⟩
  · intro place
    exact ⟨accounted.sponsored place, accounted.alive place⟩
  · intro position slot entity live
    have present := (List.getElem?_eq_some_iff.mp (liveAt_eq_some.mp live).1).1
    have inside : position < slotCount := present.trans_le accounted.few
    obtain ⟨principal, owned, stands⟩ :=
      accounted.placed ⟨position, inside⟩ slot entity live rfl
    refine ⟨⟨position, inside⟩, principal, rfl, owned, fun other => ?_⟩
    constructor
    · intro also
      exact fits_unique also stands
    · intro same
      exact same ▸ stands

/-- In every reachable state the principals are isolated, a call leaves the live
slots of the other as they are, and no staged prefix charges beyond a limit. -/
theorem isolation {library : JsonLibrary α} {world : LiveWorld α} {ledger : Ledger}
    (reaches : Reaches library world ledger) :
    Isolated world ledger ∧
      (∀ envelope principal,
        Undisturbed world (apply library world envelope ledger principal).world ledger
          principal) ∧
      ∀ envelope principal count staging guard,
        Prefix world envelope ledger principal count staging guard →
        ∀ sponsor,
          guard.retained sponsor = owed staging.staged guard.sponsors sponsor ∧
            guard.retained sponsor ≤ (grants sponsor).retainedLimit := by
  have settled := reaches.settled
  refine ⟨settled.isolated, ?_, ?_⟩
  · intro envelope principal
    exact (settled.apply envelope principal).2
  · intro envelope principal count staging guard staged sponsor
    exact (settled.watched staged).1.accounted.owed sponsor

end Runs

def westCube : Envelope ℚ :=
  { sampleEnvelope 0
      [sampleCreate "a",
        .transformSet ⟨sampleName "a", ⟨-3, 0, 0⟩, ⟨0, 0, 0, 1⟩, ⟨1, 1, 1⟩⟩] with
    worldId := ascii "workshop" }

def westLibrary : JsonLibrary ℚ :=
  match operationsJson westCube.operations 0 with
  | .ok operations => remembering (envelopeJson westCube operations)
  | .error _ => remembering .null

def workshop : LiveWorld ℚ :=
  ⟨1, ⟨1, ascii "workshop", 7, 8, 0, []⟩⟩

def freshLedger : Ledger :=
  ⟨⟨fun _ => 0, fun _ => 0, fun _ => 0, 0, 0⟩, fun _ => none, fun _ => false, none, 2⟩

def westAnswer : Answered ℚ :=
  apply westLibrary workshop westCube freshLedger 0

theorem isolation_west :
    (∀ principal : Principal, principal.val = 0 →
        westAnswer.ledger.usage.retained principal = 384) ∧
      Isolated westAnswer.world westAnswer.ledger :=
  ⟨by decide +kernel,
    (isolation
      (Reaches.call westCube 0
        (@Reaches.fresh ℚ _ westLibrary 1 2 _ freshLedger rfl rfl))).1⟩

end Omniweft.Policy
