import Omniweft.PolicyRuns

/-!
# What a rejected call leaves behind

A rejected call gives its reservation back and publishes nothing. The one thing
it can leave is the binding of the ledger to the world, which `begin` writes
before the batch is known to commit.
-/

namespace Omniweft.Policy

open Omniweft.Outcome World Commands Transactions

section Rejections

variable {α : Type} [Scalar α]

/-- A call gets past `begin`: its fields and its admission are accepted, and the
world is the fixture of the ledger. -/
def Begins (world : LiveWorld α) (envelope : Envelope α) (ledger : Ledger)
    (principal : Nat) : Prop :=
  (∃ bytes taken,
      fieldBytes envelope = .ok bytes ∧ admitLease ledger principal bytes = .ok taken) ∧
    OnFixture world ledger

/-- An admission is a fresh lease and a reservation that a refund takes back. -/
theorem admitLease_spec {ledger admitted : Ledger} {principal bytes : Nat} {lease : Lease}
    (taken : admitLease ledger principal bytes = .ok (lease, admitted)) :
    lease.bytes = bytes ∧ lease.claimed = false ∧ admitted.world = ledger.world ∧
      ∀ world, refund { admitted with world := world } lease = { ledger with world := world } := by
  unfold admitLease at taken
  simp only [bind_eq_ok, pure_eq_ok, rejectIf_eq_ok, Prod.mk.injEq] at taken
  obtain ⟨known, _, charge, charged, _, _, _, _, sameLease, sameLedger⟩ := taken
  have reservation : charge = reserved bytes := by
    unfold workingCharge at charged
    split at charged
    · cases charged
    · exact (Except.ok.inj charged).symm
  subst sameLease sameLedger reservation
  refine ⟨rfl, rfl, rfl, fun world => ?_⟩
  simp [refund]

omit [Scalar α] in
theorem onFixture_admitted {world : LiveWorld α} {ledger admitted : Ledger}
    {principal bytes : Nat} {lease : Lease}
    (taken : admitLease ledger principal bytes = .ok (lease, admitted)) :
    OnFixture world admitted ↔ OnFixture world ledger := by
  obtain ⟨_, sponsors, live, _, revision⟩ := admitLease_eq_ok taken
  obtain ⟨_, _, bound, _⟩ := admitLease_spec taken
  have agree (slots : List (Slot α)) :
      accountsAgree admitted slots = accountsAgree ledger slots := by
    simp only [accountsAgree, sponsors, live]
  constructor
  · intro fixture
    exact ⟨fixture.format, fixture.flat, bound ▸ fixture.bound, fixture.named,
      fixture.seeded, fixture.capacity, fixture.few, fixture.revision.trans revision,
      agree _ ▸ fixture.agree⟩
  · intro fixture
    exact ⟨fixture.format, fixture.flat, bound ▸ fixture.bound, fixture.named,
      fixture.seeded, fixture.capacity, fixture.few, fixture.revision.trans revision.symm,
      (agree _).trans fixture.agree⟩

def rejected (result : Except Thrown Receipt) : Prop :=
  ∃ receipt, result = .ok receipt ∧ receipt.status = ascii "rejected"

/-- A rejected call leaves the world, and of the ledger all but the binding. -/
theorem rejected_cases (library : JsonLibrary α) (world : LiveWorld α)
    (envelope : Envelope α) (ledger : Ledger) (principal : Nat)
    (refused : rejected (apply library world envelope ledger principal).result) :
    (apply library world envelope ledger principal).world = world ∧
      ((¬ Begins world envelope ledger principal ∧
          (apply library world envelope ledger principal).ledger = ledger) ∨
        (Begins world envelope ledger principal ∧
          (apply library world envelope ledger principal).ledger =
            { ledger with world := some world.address })) := by
  cases counted : fieldBytes envelope with
  | error error =>
      have unbegun : ¬ Begins world envelope ledger principal := by
        intro begins
        obtain ⟨⟨bytes, _, known, _⟩, _⟩ := begins
        exact absurd (counted.symm.trans known) (by simp)
      simp only [Policy.apply, counted]
      exact ⟨trivial, Or.inl ⟨unbegun, trivial⟩⟩
  | ok bytes =>
      cases taken : admitLease ledger principal bytes with
      | error denied =>
          have unbegun : ¬ Begins world envelope ledger principal := by
            intro begins
            obtain ⟨⟨other, _, known, allowed⟩, _⟩ := begins
            rw [counted, Except.ok.injEq] at known
            subst known
            exact absurd (taken.symm.trans allowed) (by simp)
          simp only [Policy.apply, counted, taken]
          exact ⟨trivial, Or.inl ⟨unbegun, trivial⟩⟩
      | ok pair =>
          obtain ⟨lease, admitted⟩ := pair
          obtain ⟨declared, unclaimed, bound, restored⟩ := admitLease_spec taken
          rcases apply_cases library world envelope (some (hook : StagingGuard α Guard))
              (none : Option (CommitObserver α Unit)) none (Guard.create admitted lease) ()
            with ⟨_, _, _, _, _, _, _, _, _, answered⟩ | ⟨kept, _, left⟩
          · simp only [Policy.apply, counted, taken, applyAtBoundary, answered] at refused
            obtain ⟨receipt, same, status⟩ := refused
            rw [← Except.ok.inj same] at status
            exact absurd status (by simp only [committedReceipt]; decide)
          · simp only [Policy.apply, counted, taken, applyAtBoundary, kept]
            refine ⟨trivial, ?_⟩
            rcases left_ledger left with ⟨same, unbegun⟩ | ⟨started, same⟩
            · refine Or.inl ⟨?_, ?_⟩
              · intro begins
                exact unbegun _ (begin_eq_ok.mpr
                  ⟨rfl, unclaimed, ⟨bytes, counted, Nat.le_of_eq declared.symm⟩,
                    (onFixture_admitted taken).mpr begins.2, rfl⟩)
              · have whole : refund admitted lease = { ledger with world := admitted.world } :=
                  restored admitted.world
                rw [bound] at whole
                rw [same]
                exact whole
            · refine Or.inr ⟨?_, ?_⟩
              · obtain ⟨_, _, _, fixture, _⟩ := begin_eq_ok.mp started
                exact ⟨⟨bytes, _, counted, taken⟩, (onFixture_admitted taken).mp fixture⟩
              · rw [same]
                exact restored _

/-- A call on one of several worlds that share a ledger. -/
structure Call (α : Type) where
  world : Nat
  envelope : Envelope α
  principal : Nat

/-- The calls in order: their results, and the worlds and the ledger at the end. -/
def serve (library : JsonLibrary α) (worlds : Nat → LiveWorld α) (ledger : Ledger) :
    List (Call α) → List (Except Thrown Receipt) × (Nat → LiveWorld α) × Ledger
  | [] => ([], worlds, ledger)
  | call :: rest =>
      let answered := apply library (worlds call.world) call.envelope ledger call.principal
      let later :=
        serve library (Function.update worlds call.world answered.world) answered.ledger rest
      (answered.result :: later.1, later.2)

/-- Nothing tells that the call was made: the world and the complete ledger are
as before, and every later sequence of calls on any worlds goes the same way. -/
def LeavesNoTrace (library : JsonLibrary α) (worlds : Nat → LiveWorld α) (ledger : Ledger)
    (call : Call α) : Prop :=
  let answered := apply library (worlds call.world) call.envelope ledger call.principal
  answered.world = worlds call.world ∧ answered.ledger = ledger ∧
    ∀ later,
      serve library (Function.update worlds call.world answered.world) answered.ledger later =
        serve library worlds ledger later

/-- A rejected call leaves no trace exactly when the ledger was bound before, or
the call did not get past `begin`. -/
theorem rejected_no_trace (library : JsonLibrary α) (worlds : Nat → LiveWorld α)
    (ledger : Ledger) (call : Call α)
    (refused :
      rejected
        (apply library (worlds call.world) call.envelope ledger call.principal).result) :
    LeavesNoTrace library worlds ledger call ↔
      ledger.world.isSome = true ∨
        ¬ Begins (worlds call.world) call.envelope ledger call.principal := by
  obtain ⟨kept, traces⟩ :=
    rejected_cases library (worlds call.world) call.envelope ledger call.principal refused
  have noTrace
      (same :
        (apply library (worlds call.world) call.envelope ledger call.principal).ledger =
          ledger) :
      LeavesNoTrace library worlds ledger call := by
    refine ⟨kept, same, fun later => ?_⟩
    rw [kept, same, Function.update_eq_self]
  rcases traces with ⟨unbegun, same⟩ | ⟨begins, bound⟩
  · exact iff_of_true (noTrace same) (Or.inr unbegun)
  · constructor
    · intro traceless
      refine Or.inl ?_
      rw [← traceless.2.1, bound]
      rfl
    · intro condition
      have before := condition.resolve_right (fun unbegun => unbegun begins)
      obtain ⟨address, present⟩ := Option.isSome_iff_exists.mp before
      have here : address = (worlds call.world).address := begins.2.bound address present
      refine noTrace ?_
      rw [bound, ← here, ← present]

end Rejections

def workshopAt (address : Nat) : LiveWorld Halves :=
  ⟨address, ⟨1, ascii "workshop", 7, 8, 0, []⟩⟩

def workshopEnvelope (operations : List (Operation Halves)) : Envelope Halves :=
  { sampleEnvelope 0 operations with worldId := ascii "workshop" }

/-- Rejected by `finish`: the cube has no place. -/
def unplacedCreate : Call Halves :=
  ⟨1, workshopEnvelope [sampleCreate "a"], 0⟩

/-- The same fixture at another address, and a batch that places its cube. -/
def placedCreate : Call Halves :=
  let whole : Int → Halves := Scalar.ofInt
  ⟨2,
    workshopEnvelope
      [sampleCreate "a",
        .transformSet
          ⟨sampleName "a", ⟨whole (-3), whole 0, whole 0⟩,
            ⟨whole 0, whole 0, whole 0, whole 1⟩, ⟨whole 1, whole 1, whole 1⟩⟩],
    0⟩

def unplacedAnswer : Answered Halves :=
  apply JsonText.library (workshopAt 1) unplacedCreate.envelope freshLedger 0

def statuses (results : List (Except Thrown Receipt)) : List (Option Text) :=
  results.map fun result => result.toOption.map Receipt.status

set_option maxRecDepth 20000 in
theorem unplaced_rejected : rejected unplacedAnswer.result :=
  ⟨_, rfl, rfl⟩

set_option maxRecDepth 20000 in
/-- The rejected create binds the ledger: the next call, on another fixture that
matches, is refused though it would have committed. -/
theorem rejected_binds :
    Reaches JsonText.library (workshopAt 1) freshLedger ∧
      rejected unplacedAnswer.result ∧
      ¬ LeavesNoTrace JsonText.library workshopAt freshLedger unplacedCreate ∧
      statuses (serve JsonText.library workshopAt unplacedAnswer.ledger [placedCreate]).1 =
        [some (ascii "rejected")] ∧
      statuses (serve JsonText.library workshopAt freshLedger [placedCreate]).1 =
        [some (ascii "committed")] := by
  refine ⟨@Reaches.fresh Halves _ JsonText.library 1 2 _ _ rfl rfl, unplaced_rejected, ?_, rfl, rfl⟩
  intro traceless
  have world := congrArg Ledger.world traceless.2.1
  exact absurd world (by decide)

set_option maxRecDepth 20000 in
theorem rejected_no_trace_bound :
    LeavesNoTrace JsonText.library workshopAt unplacedAnswer.ledger unplacedCreate :=
  (rejected_no_trace JsonText.library workshopAt unplacedAnswer.ledger unplacedCreate
    ⟨_, rfl, rfl⟩).mpr (Or.inl rfl)

end Omniweft.Policy
