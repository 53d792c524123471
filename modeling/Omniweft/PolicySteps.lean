import Omniweft.PolicyRegions
import Omniweft.TransactionsRuns

/-!
# What the guard does at each step

One rule for each callback of the guard, and the simulation between its
accounts and the slots of the staged copy: which slots exist and are live, who
sponsors them, where their cubes stand and what they cost.
-/

namespace Omniweft.Policy

open Omniweft.Outcome World Commands Transactions

@[simp]
theorem verify_eq_ok {computation : Except Error Unit} {guard final : Guard}
    {value : Unit} :
    verify computation guard = .ok value final ↔
      computation = .ok value ∧ guard = final :=
  attempt_eq_ok

theorem index_eq_ok {slot : Nat} {place : Fin slotCount} {guard final : Guard} :
    index slot guard = .ok place final ↔ place.val = slot ∧ guard = final := by
  unfold index
  by_cases inside : slot < slotCount
  · rw [dif_pos inside, stateful_pure_eq_ok]
    constructor
    · intro both
      exact ⟨by rw [← both.1], both.2⟩
    · intro both
      exact ⟨Fin.ext both.1.symm, both.2⟩
  · rw [dif_neg inside]
    constructor
    · intro impossible
      cases impossible
    · intro both
      exact absurd (both.1 ▸ place.isLt) inside

theorem account_eq_ok {operation : Nat} {guard final : Guard} {value : Unit} :
    account operation guard = .ok value final ↔
      (∀ principal,
        charge guard.sponsors guard.live principal ≤ (grants principal).retainedLimit) ∧
        final = { guard with retained := charge guard.sponsors guard.live } := by
  unfold account
  simp only [stateful_bind_eq_ok, stateful_get_eq_ok, stateful_set_eq_ok, verify_eq_ok,
    rejectIf_eq_ok, List.any_eq_false, List.mem_finRange, true_implies,
    decide_eq_true_eq, not_lt]
  constructor
  · intro accounted
    obtain ⟨_, _, ⟨rfl, rfl⟩, _, _, rfl, limits, same⟩ := accounted
    exact ⟨limits, same.symm⟩
  · intro accounted
    obtain ⟨limits, same⟩ := accounted
    exact ⟨guard, guard, ⟨rfl, rfl⟩, (), _, rfl, limits, same.symm⟩

theorem create_eq_ok {slot operation : Nat} {guard final : Guard} :
    create slot operation guard = .ok () final ↔
      ∃ place : Fin slotCount,
        place.val = slot ∧
          ∃ sponsors live,
            sponsors =
                Function.update guard.sponsors place (some guard.lease.principal) ∧
              live = Function.update guard.live place true ∧
              (∀ principal,
                charge sponsors live principal ≤ (grants principal).retainedLimit) ∧
              final =
                { guard with
                  sponsors := sponsors
                  live := live
                  unplaced := Function.update guard.unplaced place true
                  retained := charge sponsors live } := by
  unfold create
  simp only [stateful_bind_eq_ok, stateful_modify_eq_ok, verify_eq_ok, index_eq_ok,
    account_eq_ok]
  constructor
  · intro created
    obtain ⟨_, _, ⟨_, rfl⟩, place, _, ⟨inside, rfl⟩, _, _, rfl, limits, same⟩ := created
    exact ⟨place, inside, _, _, rfl, rfl, limits, same⟩
  · intro created
    obtain ⟨place, inside, sponsors, live, rfl, rfl, limits, same⟩ := created
    refine ⟨(), guard, ⟨?_, rfl⟩, place, guard, ⟨inside, rfl⟩, (), _, rfl, limits, same⟩
    rw [rejectIf_eq_ok, decide_eq_false_iff_not, ← inside]
    exact Nat.not_le.mpr place.isLt

section Callbacks

variable {α : Type} [Scalar α]

theorem scope_eq_ok {transform : Transform α} {operation : Nat} {guard final : Guard}
    {value : Unit} :
    scope transform operation guard = .ok value final ↔
      fits guard.lease.principal transform = true ∧ guard = final := by
  unfold scope
  simp only [stateful_bind_eq_ok, stateful_get_eq_ok, verify_eq_ok, rejectIf_eq_ok,
    Bool.not_eq_false']
  constructor
  · intro allowedBy
    obtain ⟨_, _, ⟨rfl, rfl⟩, inside, same⟩ := allowedBy
    exact ⟨inside, same⟩
  · intro allowedBy
    exact ⟨guard, guard, ⟨rfl, rfl⟩, allowedBy⟩

theorem scopeBefore_eq_ok {place : Fin slotCount} {before : Transform α}
    {operation : Nat} {guard final : Guard} {value : Unit} :
    scopeBefore place before operation guard = .ok value final ↔
      (guard.unplaced place = true ∨ fits guard.lease.principal before = true) ∧
        guard = final := by
  unfold scopeBefore
  simp only [stateful_bind_eq_ok, stateful_get_eq_ok]
  constructor
  · intro allowedBy
    obtain ⟨_, _, ⟨rfl, rfl⟩, checked⟩ := allowedBy
    by_cases unplaced : guard.unplaced place = true
    · rw [if_pos unplaced, stateful_pure_eq_ok] at checked
      exact ⟨Or.inl unplaced, checked.2⟩
    · rw [if_neg unplaced, scope_eq_ok] at checked
      exact ⟨Or.inr checked.1, checked.2⟩
  · intro allowedBy
    obtain ⟨allowed, same⟩ := allowedBy
    refine ⟨guard, guard, ⟨rfl, rfl⟩, ?_⟩
    by_cases unplaced : guard.unplaced place = true
    · rw [if_pos unplaced, stateful_pure_eq_ok]
      exact ⟨rfl, same⟩
    · rw [if_neg unplaced, scope_eq_ok]
      exact ⟨allowed.resolve_left unplaced, same⟩

theorem transform_eq_ok {slot operation : Nat} {before after : Transform α}
    {guard final : Guard} :
    transform slot before after operation guard = .ok () final ↔
      ∃ place : Fin slotCount,
        place.val = slot ∧
          (guard.unplaced place = true ∨ fits guard.lease.principal before = true) ∧
          fits guard.lease.principal after = true ∧
          final =
            { guard with unplaced := Function.update guard.unplaced place false } := by
  unfold transform
  simp only [stateful_bind_eq_ok, stateful_modify_eq_ok, index_eq_ok, scope_eq_ok,
    scopeBefore_eq_ok]
  constructor
  · intro moved
    obtain ⟨place, _, ⟨inside, rfl⟩, _, _, ⟨allowed, rfl⟩, _, _, ⟨placed, rfl⟩, same⟩ := moved
    exact ⟨place, inside, allowed, placed, same.symm⟩
  · intro moved
    obtain ⟨place, inside, allowed, placed, same⟩ := moved
    exact ⟨place, guard, ⟨inside, rfl⟩, (), guard, ⟨allowed, rfl⟩, (), guard,
      ⟨placed, rfl⟩, same.symm⟩

theorem erase_eq_ok {slot operation : Nat} {before : Transform α} {guard final : Guard} :
    erase slot before operation guard = .ok () final ↔
      ∃ place : Fin slotCount,
        place.val = slot ∧
          (guard.unplaced place = true ∨ fits guard.lease.principal before = true) ∧
          ∃ live,
            live = Function.update guard.live place false ∧
              (∀ principal,
                charge guard.sponsors live principal ≤ (grants principal).retainedLimit) ∧
              final =
                { guard with
                  live := live
                  unplaced := Function.update guard.unplaced place false
                  retained := charge guard.sponsors live } := by
  unfold erase
  simp only [stateful_bind_eq_ok, stateful_modify_eq_ok, index_eq_ok, scopeBefore_eq_ok,
    account_eq_ok]
  constructor
  · intro erased
    obtain ⟨place, _, ⟨inside, rfl⟩, _, _, ⟨allowed, rfl⟩, _, _, rfl, limits, same⟩ := erased
    exact ⟨place, inside, allowed, _, rfl, limits, same⟩
  · intro erased
    obtain ⟨place, inside, allowed, live, rfl, limits, same⟩ := erased
    exact ⟨place, guard, ⟨inside, rfl⟩, (), guard, ⟨allowed, rfl⟩, (), _, rfl, limits, same⟩

omit [Scalar α] in
theorem finish_eq_ok {staged : Snapshot α} {guard final : Guard} :
    finish staged guard = .ok () final ↔
      (∀ place, guard.unplaced place = false) ∧
        final = { guard with finished := true } := by
  unfold finish
  simp only [stateful_bind_eq_ok, stateful_get_eq_ok, stateful_modify_eq_ok, verify_eq_ok,
    rejectIf_eq_ok, List.any_eq_false, List.mem_finRange, true_implies, Bool.not_eq_true]
  constructor
  · intro finished
    obtain ⟨_, _, ⟨rfl, rfl⟩, _, _, ⟨placed, rfl⟩, same⟩ := finished
    exact ⟨placed, same.symm⟩
  · intro finished
    obtain ⟨placed, same⟩ := finished
    exact ⟨guard, guard, ⟨rfl, rfl⟩, (), guard, ⟨placed, rfl⟩, same.symm⟩

/-- The world is the fixture the ledger keeps account of. -/
structure OnFixture (world : LiveWorld α) (ledger : Ledger) : Prop where
  format : world.state.formatVersion = 1
  flat : ∀ slot ∈ world.state.slots, hierarchical slot = false
  bound : ∀ bound, ledger.world = some bound → bound = world.address
  named : world.state.worldId = ascii "workshop"
  seeded : world.state.seed = 7
  capacity : world.state.maxSlots.toNat = slotCount
  few : world.state.slots.length ≤ slotCount
  revision : world.state.worldRevision = ledger.usage.worldRevision
  agree : accountsAgree ledger world.state.slots = true

/-- What a guard takes over from the ledger when it begins. -/
def begun (world : LiveWorld α) (guard : Guard) : Guard :=
  { guard with
    ledger := { guard.ledger with world := some world.address }
    lease := { guard.lease with claimed := true }
    sponsors := guard.ledger.sponsors
    live := guard.ledger.live
    retained := guard.ledger.usage.retained
    begun := true }

omit [Scalar α] in
theorem begin_eq_ok {world : LiveWorld α} {envelope : Envelope α} {guard final : Guard} :
    begin world envelope guard = .ok () final ↔
      guard.begun = false ∧ guard.lease.claimed = false ∧
        (∃ bytes, fieldBytes envelope = .ok bytes ∧ bytes ≤ guard.lease.bytes) ∧
        OnFixture world guard.ledger ∧ final = begun world guard := by
  have plain :
      (world.state.slots.any hierarchical) = false ↔
        ∀ slot ∈ world.state.slots, hierarchical slot = false := by
    simp [List.any_eq_false]
  have matching :
      guard.ledger.world.any (fun bound => bound != world.address) = false ↔
        ∀ bound, guard.ledger.world = some bound → bound = world.address := by
    cases guard.ledger.world <;> simp
  unfold begin
  simp only [stateful_bind_eq_ok, stateful_get_eq_ok, stateful_set_eq_ok,
    stateful_modify_eq_ok, verify_eq_ok, attempt_eq_ok, rejectIf_eq_ok,
    Bool.or_eq_false_iff, bne_eq_false_iff_eq, decide_eq_false_iff_not, not_lt,
    Bool.not_eq_false', plain]
  constructor
  · intro started
    obtain ⟨_, _, ⟨rfl, rfl⟩, _, _, ⟨⟨fresh, unclaimed⟩, rfl⟩, _, _, rfl, bytes, _,
      ⟨counted, rfl⟩, _, _, ⟨⟨format, flat⟩, rfl⟩, _, _, ⟨enough, rfl⟩, _, _,
      ⟨⟨⟨⟨⟨⟨bound, named⟩, seeded⟩, capacity⟩, few⟩, revision⟩, rfl⟩, _, _,
      ⟨agree, rfl⟩, same⟩ := started
    exact ⟨fresh, unclaimed, ⟨bytes, counted, enough⟩,
      ⟨format, flat, matching.mp bound, named, seeded, capacity, few, revision, agree⟩,
      same.symm⟩
  · intro allowed
    obtain ⟨fresh, unclaimed, ⟨bytes, counted, enough⟩, fixture, same⟩ := allowed
    exact ⟨guard, guard, ⟨rfl, rfl⟩, (), guard, ⟨⟨fresh, unclaimed⟩, rfl⟩, (), _, rfl,
      bytes, _, ⟨counted, rfl⟩, (), _, ⟨⟨fixture.format, fixture.flat⟩, rfl⟩, (), _,
      ⟨enough, rfl⟩, (), _,
      ⟨⟨⟨⟨⟨⟨matching.mpr fixture.bound, fixture.named⟩, fixture.seeded⟩,
        fixture.capacity⟩, fixture.few⟩, fixture.revision⟩, rfl⟩, (), _,
      ⟨fixture.agree, rfl⟩, same.symm⟩

omit [Scalar α] in
/-- A guard that refuses to begin has not touched the ledger. -/
theorem begin_spares (ledger : Ledger) (world : LiveWorld α) (envelope : Envelope α) :
    Spares (fun guard => guard.ledger = ledger) (begin world envelope) := by
  refine spares_get_bind fun guard same => ?_
  refine spares_bind (keeps_attempt _ _) fun _ => ?_
  refine spares_bind (keeps_set same) fun _ => ?_
  refine spares_bind (keeps_attempt _ _) fun _ => ?_
  refine spares_bind (keeps_attempt _ _) fun _ => ?_
  refine spares_bind (keeps_attempt _ _) fun _ => ?_
  refine spares_bind (keeps_attempt _ _) fun _ => ?_
  exact spares_bind (keeps_attempt _ _) fun _ => spares_modify _

/-- Between `begin` and `commit` the callbacks leave ledger and lease alone. -/
theorem hook_keeps_both (property : Ledger → Lease → Prop) :
    HookKeeps (hook : StagingGuard α Guard)
      (fun guard => property guard.ledger guard.lease) := by
  have accounts (operation : Nat) :
      Keeps (fun guard => property guard.ledger guard.lease) (account operation) :=
    keeps_get_bind fun guard same =>
      keeps_bind (keeps_set same) fun _ => keeps_attempt _ _
  have places (slot : Nat) :
      Keeps (fun guard => property guard.ledger guard.lease) (index slot) := by
    unfold index
    split
    · exact keeps_pure _
    · exact keeps_throw _
  have bounds (transform : Transform α) (operation : Nat) :
      Keeps (fun guard => property guard.ledger guard.lease) (scope transform operation) :=
    keeps_get_bind fun guard _ => keeps_attempt _ _
  have former (place : Fin slotCount) (before : Transform α) (operation : Nat) :
      Keeps (fun guard => property guard.ledger guard.lease)
        (scopeBefore place before operation) := by
    refine keeps_get_bind fun guard _ => ?_
    split
    · exact keeps_pure ()
    · exact bounds before operation
  constructor
  · intro slot operation
    refine keeps_bind (keeps_attempt _ _) fun _ => ?_
    refine keeps_bind (places slot) fun place => ?_
    exact keeps_bind (keeps_modify fun _ current => current) fun _ => accounts operation
  · intro slot before after operation
    refine keeps_bind (places slot) fun place => ?_
    refine keeps_bind (former place before operation) fun _ => ?_
    exact keeps_bind (bounds after operation) fun _ => keeps_modify fun _ current => current
  · intro slot before operation
    refine keeps_bind (places slot) fun place => ?_
    refine keeps_bind (former place before operation) fun _ => ?_
    exact keeps_bind (keeps_modify fun _ current => current) fun _ => accounts operation
  · intro staged
    refine keeps_get_bind fun guard _ => ?_
    exact keeps_bind (keeps_attempt _ _) fun _ => keeps_modify fun _ current => current

/-- After `begin` only `commit` writes the ledger. -/
theorem hook_keeps (ledger : Ledger) :
    HookKeeps (hook : StagingGuard α Guard) (fun guard => guard.ledger = ledger) :=
  hook_keeps_both fun held _ => held = ledger

/-- What a refused batch leaves of the ledger: nothing changed, or only bound to
the world when the guard had begun. -/
theorem left_ledger {world : LiveWorld α} {envelope : Envelope α} {guard after : Guard}
    (left :
      HookLeft (some (hook : StagingGuard α Guard)) (begin world envelope guard) after) :
    (after.ledger = guard.ledger ∧ ∀ final, begin world envelope guard ≠ .ok () final) ∨
      (begin world envelope guard = .ok () (begun world guard) ∧
        after.ledger = { guard.ledger with world := some world.address }) := by
  cases started : begin world envelope guard with
  | error raised refused =>
      rw [started] at left
      refine Or.inl ⟨?_, by simp⟩
      rw [left]
      exact begin_spares guard.ledger world envelope guard rfl raised refused started
  | ok value admitted =>
      obtain ⟨_, _, _, _, same⟩ := begin_eq_ok.mp started
      rw [started] at left
      refine Or.inr ⟨by rw [same], ?_⟩
      refine left (fun guard => guard.ledger = _) (fun other present => ?_) ?_
      · exact Option.some.inj present ▸ hook_keeps _
      · rw [same]
        rfl

end Callbacks
end Omniweft.Policy
