import Omniweft.PolicySteps

/-!
# Accounts and slots

The accounts of the guard simulate the staged copy: they say which slots exist,
which are live, who sponsors each and what it costs, and a placed cube stands in
the region of its sponsor. A batch of one principal touches no cube of another.
-/

namespace Omniweft.Policy

open Omniweft.Outcome World Commands Transactions

section Accounts

variable {α : Type} [Scalar α]

/-- The accounts agree with the slots of a snapshot. -/
structure Accounted (state : Snapshot α) (sponsors : PerSlot (Option Principal))
    (live unplaced : PerSlot Bool) (retained : PerPrincipal Nat) : Prop where
  few : state.slots.length ≤ slotCount
  flat : ∀ slot ∈ state.slots, hierarchical slot = false
  sponsored :
    ∀ place, (sponsors place).isSome = true ↔ place.val < state.slots.length
  alive : ∀ place : Fin slotCount, live place = (liveAt state place).isSome
  placed :
    ∀ (place : Fin slotCount) slot entity,
      liveAt state place = some (slot, entity) → unplaced place = false →
      ∃ principal,
        sponsors place = some principal ∧ fits principal entity.transform = true
  charged :
    ∀ principal,
      retained principal = charge sponsors live principal ∧
        charge sponsors live principal ≤ (grants principal).retainedLimit

omit [Scalar α] in
theorem flat_entity {state : Snapshot α} {position : Nat} {slot : Slot α}
    {entity : Entity α} (flat : ∀ slot ∈ state.slots, hierarchical slot = false)
    (live : liveAt state position = some (slot, entity)) :
    entity.parent = none ∧ entity.tags = [] := by
  obtain ⟨present, holds⟩ := liveAt_eq_some.mp live
  have plain := flat slot (List.mem_of_getElem? present)
  simpa [hierarchical, slotHasParent, slotHasTags, holds] using plain

omit [Scalar α] in
theorem flat_childless {state : Snapshot α}
    (flat : ∀ slot ∈ state.slots, hierarchical slot = false) (slot : Slot α) :
    hasChildren state slot = false := by
  refine List.any_eq_false.mpr fun child member => ?_
  have plain := flat child member
  cases holds : child.entity with
  | none => simp [childOf, holds]
  | some entity =>
      simp only [hierarchical, slotHasParent, slotHasTags, holds, Option.any_some,
        Bool.or_eq_false_iff, Option.isSome_eq_false_iff, Option.isNone_iff_eq_none]
        at plain
      simp [childOf, holds, plain.1]

/-- One slot is written and its account with it. -/
theorem Accounted.write {state next : Snapshot α}
    {sponsors : PerSlot (Option Principal)} {live unplaced : PerSlot Bool}
    {retained : PerPrincipal Nat}
    (accounted : Accounted state sponsors live unplaced retained)
    {place : Fin slotCount} {slot : Slot α} {sponsor : Principal} {pending : Bool}
    (here : next.slots[place.val]? = some slot)
    (elsewhere : ∀ other : Nat, other ≠ place → next.slots[other]? = state.slots[other]?)
    (length : next.slots.length = max state.slots.length (place + 1))
    (plain : hierarchical slot = false)
    (stands :
      ∀ entity, slot.entity = some entity → pending = false →
        fits sponsor entity.transform = true)
    (limits :
      ∀ principal,
        charge (Function.update sponsors place (some sponsor))
            (Function.update live place slot.entity.isSome) principal ≤
          (grants principal).retainedLimit) :
    Accounted next (Function.update sponsors place (some sponsor))
      (Function.update live place slot.entity.isSome)
      (Function.update unplaced place pending)
      (charge (Function.update sponsors place (some sponsor))
        (Function.update live place slot.entity.isSome)) := by
  have hereLive : liveAt next place = slot.entity.map fun entity => (slot, entity) := by
    simp only [liveAt, here]
  have otherLive (other : Fin slotCount) (different : other ≠ place) :
      liveAt next other = liveAt state other := by
    have apart : other.val ≠ place := fun same => different (Fin.ext same)
    simp only [liveAt, elsewhere other apart]
  refine ⟨?_, ?_, ?_, ?_, ?_, fun principal => ⟨rfl, limits principal⟩⟩
  · have few := accounted.few
    have inside := place.isLt
    omega
  · intro found member
    obtain ⟨position, present⟩ := List.mem_iff_getElem?.mp member
    by_cases same : position = place
    · rw [same, here, Option.some.injEq] at present
      exact present ▸ plain
    · rw [elsewhere position same] at present
      exact accounted.flat found (List.mem_of_getElem? present)
  · intro other
    by_cases same : other = place
    · subst same
      simp only [Function.update_self, Option.isSome_some, true_iff]
      omega
    · have apart : other.val ≠ place := fun equal => same (Fin.ext equal)
      rw [Function.update_of_ne same, accounted.sponsored other, length]
      have present : place.val ≤ state.slots.length ∨ state.slots.length < place.val := by
        omega
      rcases present with reached | beyond
      · omega
      · -- A slot between the end and the written place would be missing.
        have gap : next.slots[state.slots.length]? = none := by
          rw [elsewhere _ (Nat.ne_of_lt beyond)]
          exact List.getElem?_eq_none (Nat.le_refl _)
        have short := List.getElem?_eq_none_iff.mp gap
        omega
  · intro other
    by_cases same : other = place
    · subst same
      rw [Function.update_self, hereLive]
      cases slot.entity <;> rfl
    · rw [Function.update_of_ne same, otherLive other same]
      exact accounted.alive other
  · intro other found entity there settled
    by_cases same : other = place
    · subst same
      rw [hereLive, Option.map_eq_some_iff] at there
      obtain ⟨held, holds, pair⟩ := there
      obtain ⟨_, rfl⟩ := Prod.mk.inj pair
      rw [Function.update_self] at settled
      exact ⟨sponsor, Function.update_self _ _ _, stands held holds settled⟩
    · rw [otherLive other same] at there
      rw [Function.update_of_ne same] at settled ⊢
      exact accounted.placed other found entity there settled

/-- A staged copy under the eyes of a guard. -/
structure Watched (state : Snapshot α) (guard : Guard) : Prop where
  accounted : Accounted state guard.sponsors guard.live guard.unplaced guard.retained
  own :
    ∀ place,
      guard.unplaced place = true → guard.sponsors place = some guard.lease.principal

/-- The cubes another principal owned at the start are still there. -/
def Respects (start : Snapshot α) (owners : PerSlot (Option Principal))
    (state : Snapshot α) (guard : Guard) : Prop :=
  ∀ (place : Fin slotCount) slot entity owner,
    liveAt start place = some (slot, entity) → owners place = some owner →
    owner ≠ guard.lease.principal →
    state.slots[place.val]? = some slot ∧ guard.sponsors place = some owner ∧
      guard.unplaced place = false

omit [Scalar α] in
theorem Respects.start (state : Snapshot α) {guard : Guard}
    (settled : ∀ place, guard.unplaced place = false) :
    Respects state guard.sponsors state guard := by
  intro place slot entity owner live owned _
  exact ⟨(liveAt_eq_some.mp live).1, owned, settled place⟩

omit [Scalar α] in
/-- A write at a place nobody else owns. -/
theorem Respects.write {start state next : Snapshot α}
    {owners : PerSlot (Option Principal)} {guard final : Guard} {place : Fin slotCount}
    (respects : Respects start owners state guard)
    (elsewhere : ∀ other : Nat, other ≠ place → next.slots[other]? = state.slots[other]?)
    (free :
      ∀ slot entity owner,
        liveAt state place = some (slot, entity) → guard.sponsors place = some owner →
        guard.unplaced place = false → owner = guard.lease.principal)
    (lease : final.lease.principal = guard.lease.principal)
    (sponsors : ∀ other, other ≠ place → final.sponsors other = guard.sponsors other)
    (unplaced : ∀ other, other ≠ place → final.unplaced other = guard.unplaced other) :
    Respects start owners next final := by
  intro other slot entity owner live owned foreign
  rw [lease] at foreign
  obtain ⟨present, sponsored, settled⟩ := respects other slot entity owner live owned foreign
  have different : other ≠ place := by
    intro same
    subst same
    have held := (liveAt_eq_some.mp live).2
    exact foreign
      (free slot entity owner (liveAt_eq_some.mpr ⟨present, held⟩) sponsored settled)
  have apart : other.val ≠ place := fun equal => different (Fin.ext equal)
  rw [elsewhere other apart, sponsors other different, unplaced other different]
  exact ⟨present, sponsored, settled⟩

variable [RoundedScalar α]

/-- Whoever may touch a live slot is its sponsor. -/
theorem Watched.owner {state : Snapshot α} {guard : Guard} (watched : Watched state guard)
    {place : Fin slotCount} {slot : Slot α} {entity : Entity α}
    (live : liveAt state place = some (slot, entity))
    (allowed :
      guard.unplaced place = true ∨ fits guard.lease.principal entity.transform = true) :
    guard.sponsors place = some guard.lease.principal := by
  cases pending : guard.unplaced place with
  | true => exact watched.own place pending
  | false =>
      obtain ⟨sponsor, owned, stands⟩ := watched.accounted.placed place slot entity live pending
      have inside := allowed.resolve_left (by simp [pending])
      rw [owned, fits_unique stands inside]

omit [RoundedScalar α] in
/-- A write by the sponsor keeps the simulation. -/
theorem Watched.write {start state next : Snapshot α}
    {owners : PerSlot (Option Principal)} {guard final : Guard}
    (watched : Watched state guard) (respects : Respects start owners state guard)
    {place : Fin slotCount} {slot : Slot α} {pending : Bool}
    (here : next.slots[place.val]? = some slot)
    (elsewhere : ∀ other : Nat, other ≠ place → next.slots[other]? = state.slots[other]?)
    (length : next.slots.length = max state.slots.length (place + 1))
    (plain : hierarchical slot = false)
    (stands :
      ∀ entity, slot.entity = some entity → pending = false →
        fits guard.lease.principal entity.transform = true)
    (free :
      ∀ slot entity owner,
        liveAt state place = some (slot, entity) → guard.sponsors place = some owner →
        guard.unplaced place = false → owner = guard.lease.principal)
    (limits :
      ∀ principal, charge final.sponsors final.live principal ≤
        (grants principal).retainedLimit)
    (lease : final.lease = guard.lease)
    (sponsors :
      final.sponsors =
        Function.update guard.sponsors place (some guard.lease.principal))
    (live : final.live = Function.update guard.live place slot.entity.isSome)
    (unplaced : final.unplaced = Function.update guard.unplaced place pending)
    (retained : final.retained = charge final.sponsors final.live) :
    Watched next final ∧ Respects start owners next final := by
  rw [sponsors, live] at limits
  refine ⟨⟨?_, ?_⟩, ?_⟩
  · rw [retained, sponsors, live, unplaced]
    exact watched.accounted.write here elsewhere length plain stands limits
  · intro other waiting
    rw [lease, sponsors]
    rw [unplaced] at waiting
    by_cases same : other = place
    · subst same
      exact Function.update_self _ _ _
    · rw [Function.update_of_ne same] at waiting ⊢
      exact watched.own other waiting
  · refine respects.write elsewhere free (by rw [lease]) ?_ ?_
    · intro other different
      rw [sponsors, Function.update_of_ne different]
    · intro other different
      rw [unplaced, Function.update_of_ne different]

/-- The context of a batch the guard watches. -/
def watching (revision : UInt64) : Context α Guard :=
  ⟨some hook, none, revision⟩

omit [RoundedScalar α] in
theorem watched_create {start : Snapshot α} {owners : PerSlot (Option Principal)}
    {staging next : Staging α} {guard final : Guard} {revision : UInt64}
    {operation : EntityCreate} {index : Nat}
    (watched : Watched staging.staged guard)
    (respects : Respects start owners staging.staged guard)
    (applied :
      applyCreate (watching revision) operation index staging guard = .ok next final) :
    (Watched next.staged final ∧ Respects start owners next.staged final) ∧
      final.lease = guard.lease ∧ final.ledger = guard.ledger ∧
      final.begun = guard.begun := by
  obtain ⟨position, slot, base, _, _, allocated, allowed, _, same⟩ :=
    applyCreate_eq_ok.mp applied
  obtain ⟨place, rfl, sponsors, live, sponsorsSame, liveSame, limits, sameFinal⟩ :=
    create_eq_ok.mp allowed
  obtain ⟨vacant, here, elsewhere, length⟩ :=
    allocate_place allocated { slot with entity := some (freshEntity operation revision) }
  have staged :
      next.staged =
        setSlot base place { slot with entity := some (freshEntity operation revision) } := by
    rw [same]
    rfl
  rw [← staged] at here elsewhere length
  subst sameFinal
  have unplaced :
      Function.update guard.unplaced place true = Function.update guard.unplaced place true :=
    rfl
  refine ⟨watched.write respects here elsewhere length rfl ?_ ?_ limits rfl
    sponsorsSame liveSame unplaced rfl, rfl, rfl, rfl⟩
  · intro entity _ impossible
    exact absurd impossible (by decide)
  · intro found entity owner there _ _
    rw [vacant] at there
    exact absurd there (by simp)

theorem watched_transform {start : Snapshot α} {owners : PerSlot (Option Principal)}
    {staging next : Staging α} {guard final : Guard} {revision : UInt64}
    {operation : TransformSet α} {index : Nat}
    (watched : Watched staging.staged guard)
    (respects : Respects start owners staging.staged guard)
    (applied :
      applyTransform (watching revision) operation index staging guard = .ok next final) :
    (Watched next.staged final ∧ Respects start owners next.staged final) ∧
      final.lease = guard.lease ∧ final.ledger = guard.ledger ∧
      final.begun = guard.begun := by
  obtain ⟨replacement, position, slot, entity, localTransform, staged, _, resolved,
    allowed, _, _, spread, same⟩ := applyTransform_eq_ok.mp applied
  obtain ⟨place, rfl, scope, stands, sameFinal⟩ := transform_eq_ok.mp allowed
  obtain ⟨present, holds, _⟩ := resolve_live resolved
  have live := liveAt_eq_some.mpr ⟨present, holds⟩
  have inside := (List.getElem?_eq_some_iff.mp present).1
  have owned := watched.owner live scope
  obtain ⟨rootless, untagged⟩ := flat_entity watched.accounted.flat live
  -- Nobody has children, so the walk below the target only stamps it.
  have replacedFlat :
      ∀ other ∈ (setEntity staging.staged place
          { entity with transform := replacement, localTransform := localTransform }).slots,
        hierarchical other = false := by
    intro other member
    obtain ⟨at', found⟩ := List.mem_iff_getElem?.mp member
    by_cases here : place.val = at'
    · subst here
      rw [setEntity_same _ present, Option.some.injEq] at found
      subst found
      simp [hierarchical, slotHasParent, slotHasTags, rootless, untagged]
    · rw [setEntity_other _ _ here] at found
      exact watched.accounted.flat other (List.mem_of_getElem? found)
  rw [subtree_childless
    (liveAt_eq_some.mpr ⟨setEntity_same _ present, rfl⟩)
    (flat_childless replacedFlat _), setEntity_setEntity, Except.ok.injEq] at spread
  have stagedSame : next.staged = staged := by rw [same]
  have here := setEntity_same
    { entity with
      transform := replacement, localTransform := localTransform
      authoringRevision := (watching revision : Context α Guard).revision } present
  rw [spread, ← stagedSame] at here
  subst sameFinal
  have unplaced :
      Function.update guard.unplaced place false = Function.update guard.unplaced place false :=
    rfl
  refine ⟨watched.write respects here ?_ ?_ ?_ ?_ ?_ ?_ rfl ?_ ?_ unplaced ?_, rfl, rfl,
    rfl⟩
  · intro other different
    rw [stagedSame, ← spread, setEntity_other _ _ (Ne.symm different)]
  · rw [stagedSame, ← spread, setEntity_length]
    omega
  · simp [hierarchical, slotHasParent, slotHasTags, rootless, untagged]
  · intro moved there _
    rw [Option.some.injEq] at there
    rw [← there]
    exact stands
  · intro found other owner _ sponsored _
    exact Option.some.inj (sponsored.symm.trans owned)
  · intro principal
    exact (watched.accounted.charged principal).2
  · exact (Function.update_eq_self_iff.mpr owned.symm).symm
  · refine (Function.update_eq_self_iff.mpr ?_).symm
    rw [watched.accounted.alive place, live]
    rfl
  · funext principal
    exact (watched.accounted.charged principal).1

theorem watched_delete {start : Snapshot α} {owners : PerSlot (Option Principal)}
    {staging next : Staging α} {guard final : Guard} {revision : UInt64}
    {operation : EntityDelete} {index : Nat}
    (watched : Watched staging.staged guard)
    (respects : Respects start owners staging.staged guard)
    (applied :
      applyDelete (watching revision) operation index staging guard = .ok next final) :
    (Watched next.staged final ∧ Respects start owners next.staged final) ∧
      final.lease = guard.lease ∧ final.ledger = guard.ledger ∧
      final.begun = guard.begun := by
  obtain ⟨position, slot, entity, resolved, _, allowed, same⟩ := applyDelete_eq_ok.mp applied
  obtain ⟨place, rfl, scope, live, liveSame, limits, sameFinal⟩ := erase_eq_ok.mp allowed
  obtain ⟨present, holds, _⟩ := resolve_live resolved
  have there := liveAt_eq_some.mpr ⟨present, holds⟩
  have inside := (List.getElem?_eq_some_iff.mp present).1
  have owned := watched.owner there scope
  have empty : (emptied slot).entity = none := by
    unfold emptied
    split <;> rfl
  have here : next.staged.slots[place.val]? = some (emptied slot) := by
    rw [same]
    exact setSlot_same _ _ inside
  subst sameFinal
  have unplaced :
      Function.update guard.unplaced place false = Function.update guard.unplaced place false :=
    rfl
  refine ⟨watched.write respects here ?_ ?_ ?_ ?_ ?_ limits rfl ?_ ?_ unplaced rfl, rfl, rfl,
    rfl⟩
  · intro other different
    rw [same]
    exact setSlot_other _ _ (Ne.symm different)
  · rw [same]
    change (setSlot staging.staged place (emptied slot)).slots.length = _
    rw [setSlot_length]
    omega
  · simp [hierarchical, slotHasParent, slotHasTags, empty]
  · intro moved held _
    rw [empty] at held
    exact absurd held (by simp)
  · intro found other owner _ sponsored _
    exact Option.some.inj (sponsored.symm.trans owned)
  · exact (Function.update_eq_self_iff.mpr owned.symm).symm
  · rw [empty]
    exact liveSame

/-- One step of a watched batch. -/
theorem watched_step {start : Snapshot α} {owners : PerSlot (Option Principal)}
    {staging next : Staging α} {guard final : Guard} {revision : UInt64}
    {operation : Operation α} {index : Nat} (known : supported operation = true)
    (watched : Watched staging.staged guard)
    (respects : Respects start owners staging.staged guard)
    (applied :
      applyOperation (watching revision) operation index staging guard = .ok next final) :
    (Watched next.staged final ∧ Respects start owners next.staged final) ∧
      final.lease = guard.lease ∧ final.ledger = guard.ledger ∧
      final.begun = guard.begun := by
  cases operation with
  | entityCreate operation => exact watched_create watched respects applied
  | transformSet operation => exact watched_transform watched respects applied
  | entityDelete operation => exact watched_delete watched respects applied
  | entityReparent operation => exact absurd known (by simp [supported])
  | entityTagsSet operation => exact absurd known (by simp [supported])

end Accounts
end Omniweft.Policy
