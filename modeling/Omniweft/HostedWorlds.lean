import Omniweft.Handles
import Omniweft.PolicyAccounts
import Omniweft.CommandsValid
import Omniweft.SdkAnswers

/-!
# The worlds of the hosts

The control and the policy host admit creates, transforms and deletes only. Whatever
such calls reach from a fresh workshop world, the host can show it.
-/

namespace Omniweft.Control

open Omniweft.Outcome World Commands Transactions Policy
open Sdk (FiniteTransform ReadableBinding Showable ShowableEntity ShowableSlot)
open Python (uuidPattern)

variable {α : Type} [Scalar α]

/-- Only operations that the remote profiles have. -/
def Remote (envelope : Envelope α) : Prop :=
  ∀ operation ∈ envelope.operations, supported operation = true

/-- A world that a host may have: the fixture, and remote calls on it. -/
structure Hosted (library : JsonLibrary α) (world : LiveWorld α) : Prop where
  reached : ReachableBy library Remote world
  named : world.state.worldId = ascii "workshop"

/-- The slots of a staged copy, whose entities are stamped up to a revision. -/
structure Shown (revision : Nat) (slot : Slot α) : Prop where
  counted : slot.generation ≠ 0
  retired : slot.retired = true → slot.entity = none
  entity : ∀ entity, slot.entity = some entity → ShowableEntity revision entity

def AllShown (revision : Nat) (state : Snapshot α) : Prop :=
  ∀ slot ∈ state.slots, Shown revision slot

theorem Shown.flat {revision : Nat} {slot : Slot α} (shown : Shown revision slot) :
    hierarchical slot = false := by
  cases held : slot.entity with
  | none => simp [hierarchical, slotHasParent, slotHasTags, held]
  | some entity =>
      have cube := shown.entity entity held
      simp [hierarchical, slotHasParent, slotHasTags, held, cube.rootless, cube.untagged]

theorem Shown.later {revision later : Nat} {slot : Slot α} (shown : Shown revision slot)
    (le : revision ≤ later) : Shown later slot := by
  refine ⟨shown.counted, shown.retired, fun entity held => ?_⟩
  obtain ⟨cube, stamped, rootless, untagged, finite⟩ := shown.entity entity held
  exact ⟨cube, stamped.trans le, rootless, untagged, finite⟩

/-- One slot is written. -/
theorem allShown_write {revision : Nat} {state next : Snapshot α}
    (shown : AllShown revision state) {position : Nat} {slot : Slot α}
    (here : next.slots[position]? = some slot)
    (elsewhere :
      ∀ other : Nat, other ≠ position → next.slots[other]? = state.slots[other]?)
    (written : Shown revision slot) : AllShown revision next := by
  intro found member
  obtain ⟨other, present⟩ := List.mem_iff_getElem?.mp member
  by_cases same : other = position
  · rw [same, here, Option.some.injEq] at present
    exact present ▸ written
  · rw [elsewhere other same] at present
    exact shown found (List.mem_of_getElem? present)

section Finite

variable (small : ∀ number : Int, number.natAbs ≤ 2 ^ 53 →
  Scalar.isFinite (Scalar.ofInt number : α) = true)

include small

theorem finite_normalizeZero {value : α} (finite : Scalar.isFinite value = true) :
    Scalar.isFinite (Scalar.normalizeZero value) = true := by
  unfold Scalar.normalizeZero
  split
  · exact small 0 (by decide)
  · exact finite

theorem finite_normalizeTransform {transform : Transform α}
    (finite : FiniteTransform transform) :
    FiniteTransform (normalizeTransform transform) := by
  obtain ⟨⟨px, py, pz⟩, ⟨rx, ry, rz, rw⟩, ⟨sx, sy, sz⟩⟩ := finite
  have normal {value : α} (finite : Scalar.isFinite value = true) :=
    finite_normalizeZero small finite
  exact ⟨⟨normal px, normal py, normal pz⟩, ⟨normal rx, normal ry, normal rz, normal rw⟩,
    ⟨normal sx, normal sy, normal sz⟩⟩

theorem finite_default : FiniteTransform (Transform.default : Transform α) := by
  have zero := small 0 (by decide)
  have one := small 1 (by decide)
  exact ⟨⟨zero, zero, zero⟩, ⟨zero, zero, zero, one⟩, ⟨one, one, one⟩⟩

theorem shown_create {revision : UInt64} {operation : EntityCreate} {index : Nat}
    {staging next : Staging α} (shown : AllShown revision.toNat staging.staged)
    (applied :
      applyCreate (plainContext revision) operation index staging () = .ok next ()) :
    AllShown revision.toNat next.staged := by
  obtain ⟨position, slot, base, _, cube, allocated, _, _, same⟩ :=
    applyCreate_eq_ok.mp applied
  have fresh : slot.generation ≠ 0 ∧ slot.retired = false := by
    rcases allocate_eq_ok.mp allocated with ⟨found, _⟩ | ⟨_, _, _, sameSlot, _⟩
    · obtain ⟨present, free, _⟩ := locate_eq_some.mp found
      simp only [Bool.and_eq_true, Bool.not_eq_true'] at free
      exact ⟨(shown slot (List.mem_of_getElem? present)).counted, free.2⟩
    · rw [sameSlot]
      exact ⟨(by decide : (1 : UInt64) ≠ 0), rfl⟩
  obtain ⟨_, here, elsewhere, _⟩ := allocate_place allocated
    { slot with entity := some (freshEntity operation revision) }
  rw [same]
  refine allShown_write shown here elsewhere ⟨fresh.1, ?_, ?_⟩
  · intro retired
    exact absurd (fresh.2.symm.trans retired) (by decide)
  · intro entity held
    obtain rfl := Option.some.inj held
    exact ⟨cube, Nat.le_refl _, rfl, rfl, finite_default small⟩

theorem shown_transform {revision : UInt64} {operation : TransformSet α} {index : Nat}
    {staging next : Staging α} (shown : AllShown revision.toNat staging.staged)
    (valid : ValidOperation (.transformSet operation))
    (applied :
      applyTransform (plainContext revision) operation index staging () = .ok next ()) :
    AllShown revision.toNat next.staged := by
  obtain ⟨replacement, position, slot, entity, localTransform, staged, replaced, resolved,
    _, _, _, spread, same⟩ := applyTransform_eq_ok.mp applied
  obtain ⟨present, holds, awake⟩ := resolve_live resolved
  have before := shown slot (List.mem_of_getElem? present)
  obtain ⟨cube, _, rootless, untagged, _⟩ := before.entity entity holds
  have finite : FiniteTransform replacement := by
    obtain ⟨_, _, _, sameReplacement⟩ := transform_eq_ok.mp replaced
    rw [sameReplacement]
    exact finite_normalizeTransform small ⟨valid.2.1, valid.2.2.1, valid.2.2.2⟩
  have written (stamp : UInt64) (reached : stamp.toNat ≤ revision.toNat) :
      Shown revision.toNat
        { slot with
          entity := some
            { entity with
              transform := replacement, localTransform := localTransform
              authoringRevision := stamp } } := by
    refine ⟨before.counted, ?_, ?_⟩
    · intro retired
      exact absurd (awake.symm.trans retired) (by decide)
    · intro held same
      obtain rfl := Option.some.inj same
      exact ⟨cube, reached, rootless, untagged, finite⟩
  have replacedShown :
      AllShown revision.toNat
        (setEntity staging.staged position
          { entity with transform := replacement, localTransform := localTransform }) := by
    obtain ⟨_, stamped, _⟩ := before.entity entity holds
    exact allShown_write shown (setEntity_same _ present)
      (fun other different => setEntity_other _ _ (Ne.symm different))
      (written entity.authoringRevision stamped)
  have flat : ∀ slot ∈ (setEntity staging.staged position
      { entity with
        transform := replacement, localTransform := localTransform }).slots,
      hierarchical slot = false :=
    fun slot member => (replacedShown slot member).flat
  rw [subtree_childless (liveAt_eq_some.mpr ⟨setEntity_same _ present, rfl⟩)
    (flat_childless flat _), setEntity_setEntity, Except.ok.injEq] at spread
  rw [same, ← spread]
  exact allShown_write shown (setEntity_same _ present)
    (fun other different => setEntity_other _ _ (Ne.symm different))
    (written revision (Nat.le_refl _))

omit small in
theorem shown_delete {revision : UInt64} {operation : EntityDelete} {index : Nat}
    {staging next : Staging α} (shown : AllShown revision.toNat staging.staged)
    (applied :
      applyDelete (plainContext revision) operation index staging () = .ok next ()) :
    AllShown revision.toNat next.staged := by
  obtain ⟨position, slot, entity, resolved, _, _, same⟩ := applyDelete_eq_ok.mp applied
  obtain ⟨present, _, awake⟩ := resolve_live resolved
  have inside := (List.getElem?_eq_some_iff.mp present).1
  have counted := (shown slot (List.mem_of_getElem? present)).counted
  rw [same]
  refine allShown_write shown (setSlot_same _ _ inside)
    (fun other different => setSlot_other _ _ (Ne.symm different)) ?_
  unfold emptied
  split
  · refine ⟨counted, fun _ => rfl, fun entity held => ?_⟩
    exact absurd held (by simp)
  · rename_i more
    refine ⟨?_, fun _ => rfl, fun entity held => ?_⟩
    · intro wrapped
      refine more (UInt64.toNat_inj.mp ?_)
      have zero := congrArg UInt64.toNat wrapped
      have bound := slot.generation.toNat_lt
      rw [UInt64.toNat_add] at zero
      change (slot.generation.toNat + 1) % 2 ^ 64 = 0 at zero
      change slot.generation.toNat = 2 ^ 64 - 1
      omega
    · exact absurd held (by simp)

theorem shown_step {revision : UInt64} {operation : Operation α} {index : Nat}
    {staging next : Staging α} (shown : AllShown revision.toNat staging.staged)
    (known : supported operation = true) (valid : ValidOperation operation)
    (applied :
      applyOperation (plainContext revision) operation index staging () = .ok next ()) :
    AllShown revision.toNat next.staged := by
  cases operation with
  | entityCreate operation => exact shown_create small shown applied
  | transformSet operation => exact shown_transform small shown valid applied
  | entityDelete operation => exact shown_delete shown applied
  | entityReparent operation => exact absurd known (by simp [supported])
  | entityTagsSet operation => exact absurd known (by simp [supported])

end Finite

/-- What a batch of remote operations has staged so far. -/
structure Stages (revision : Nat) (seed maxSlots : UInt32) (staging : Staging α) : Prop where
  valid : SlotsValid (ascii "workshop") seed maxSlots staging.staged
  shown : AllShown revision staging.staged
  created : ∀ binding ∈ staging.created, ReadableBinding binding

section Batches

variable (small : ∀ number : Int, number.natAbs ≤ 2 ^ 53 →
  Scalar.isFinite (Scalar.ofInt number : α) = true)

include small

theorem stages_step {revision : UInt64} {seed maxSlots : UInt32} {operation : Operation α}
    {index : Nat} {staging next : Staging α}
    (stages : Stages revision.toNat seed maxSlots staging)
    (known : supported operation = true) (valid : ValidOperation operation)
    (applied :
      applyOperation (plainContext revision) operation index staging () = .ok next ()) :
    Stages revision.toNat seed maxSlots next := by
  refine ⟨(moment_step stages.valid applied).2, shown_step small stages.shown known valid
    applied, ?_⟩
  cases operation with
  | entityCreate operation =>
      obtain ⟨position, slot, base, _, _, allocated, _, _, same⟩ :=
        applyCreate_eq_ok.mp applied
      have issued : uuidPattern slot.entityUuid = true ∧ slot.generation ≠ 0 ∧
          base.worldId = ascii "workshop" := by
        rcases allocate_eq_ok.mp allocated with ⟨found, sameBase⟩ | ⟨_, _, _, sameSlot, sameBase⟩
        · obtain ⟨present, _, _⟩ := locate_eq_some.mp found
          refine ⟨?_, (stages.shown slot (List.mem_of_getElem? present)).counted, ?_⟩
          · rw [stages.valid.uuids position slot present]
            exact validUuid_uuid seed position
          · rw [sameBase]
            exact stages.valid.worldId_eq
        · rw [sameSlot, sameBase]
          exact ⟨validUuid_uuid _ _, (by decide : (1 : UInt64) ≠ 0), stages.valid.worldId_eq⟩
      rw [same]
      intro binding member
      rcases List.mem_append.mp member with before | last
      · exact stages.created binding before
      · obtain rfl := List.mem_singleton.mp last
        exact ⟨valid.1, issued.2.2, issued.1, issued.2.1⟩
  | transformSet operation =>
      obtain ⟨_, _, _, _, _, _, _, _, _, _, _, _, same⟩ := applyTransform_eq_ok.mp applied
      rw [same]
      exact stages.created
  | entityDelete operation =>
      obtain ⟨_, _, _, _, _, _, same⟩ := applyDelete_eq_ok.mp applied
      rw [same]
      exact stages.created
  | entityReparent operation => exact absurd known (by simp [supported])
  | entityTagsSet operation => exact absurd known (by simp [supported])

/-- A state between two calls of a host. -/
structure Settled (seed maxSlots : UInt32) (state : Snapshot α) : Prop where
  valid : SlotsValid (ascii "workshop") seed maxSlots state
  room : maxSlots ≠ 0
  format : state.formatVersion = 1
  shown : AllShown state.worldRevision.toNat state

omit small in
theorem stagedFormat_shown {revision : Nat} {state : Snapshot α}
    (shown : AllShown revision state) : stagedFormat state.slots = 1 := by
  have flat : ∀ slot ∈ state.slots, slotHasTags slot = false ∧ slotHasParent slot = false := by
    intro slot member
    have plain := (shown slot member).flat
    simp only [hierarchical, Bool.or_eq_false_iff] at plain
    exact ⟨plain.2, plain.1⟩
  have untagged : state.slots.any slotHasTags = false :=
    List.any_eq_false.mpr fun slot member => by simp [(flat slot member).1]
  have rootless : state.slots.any slotHasParent = false :=
    List.any_eq_false.mpr fun slot member => by simp [(flat slot member).2]
  simp [stagedFormat, untagged, rootless]

/-- A committed remote batch leaves a settled state and names it in its receipt. -/
theorem Settled.commits {library : JsonLibrary α} {seed maxSlots : UInt32}
    {state next : Snapshot α} {envelope : Envelope α} {created : List CreatedBinding}
    (settled : Settled seed maxSlots state) (remote : Remote envelope)
    (committed : Commits library state envelope next created) :
    Settled seed maxSlots next ∧ (∀ binding ∈ created, ReadableBinding binding) := by
  obtain ⟨raised, counted⟩ := committed.revision
  obtain ⟨admitted, staged, stagedOk, same⟩ := committed
  obtain ⟨⟨_, serialized⟩, _⟩ := admission_eq_ok.mp admitted
  have valid := (serialize_eq_ok serialized).1
  obtain ⟨last, _, run, _, _, sameStaged, sameCreated⟩ := stage_eq_ok.mp stagedOk
  have revision : (state.worldRevision + 1).toNat = state.worldRevision.toNat + 1 := by
    rw [← raised, counted]
  have first : Stages (state.worldRevision + 1).toNat seed maxSlots
      (⟨state, [], []⟩ : Staging α) := by
    refine ⟨settled.valid, fun slot member => ?_, by simp⟩
    exact (settled.shown slot member).later (by omega)
  have final : Stages (state.worldRevision + 1).toNat seed maxSlots last :=
    @applyOperations_invariant α _ Unit _
      (fun staging => Stages (state.worldRevision + 1).toNat seed maxSlots staging)
      envelope.operations
      (fun operation index staging following _ _ member current applied =>
        stages_step small current (remote operation member)
          (valid.operations operation member) applied)
      _ _ _ _ _ first run
  subst same sameStaged sameCreated
  refine ⟨⟨?_, settled.room, stagedFormat_shown final.shown, final.shown⟩, final.created⟩
  exact final.valid.of_uuids ⟨rfl, rfl, rfl⟩ rfl

theorem Hosted.settled {library : JsonLibrary α} {world : LiveWorld α}
    (hosted : Hosted library world) :
    ∃ seed maxSlots, Settled seed maxSlots world.state := by
  have general : ∃ worldId seed maxSlots,
      SlotsValid worldId seed maxSlots world.state ∧
        (worldId = ascii "workshop" → Settled seed maxSlots world.state) := by
    refine @ReachableBy.invariant α _ library Remote
      (fun state => ∃ worldId seed maxSlots,
        SlotsValid worldId seed maxSlots state ∧
          (worldId = ascii "workshop" → Settled seed maxSlots state)) ?_ ?_ world hosted.reached
    · intro worldId seed maxSlots state created
      obtain ⟨_, some_, few, same⟩ := create_eq_ok.mp created
      have capacity : maxSlots.toNat ≤ 1024 := few
      have valid : SlotsValid worldId seed maxSlots state := by
        rw [same]
        exact ⟨rfl, rfl, rfl, capacity, by simp, by simp⟩
      refine ⟨worldId, seed, maxSlots, valid, fun named => ?_⟩
      subst named
      refine ⟨valid, some_, by rw [same], ?_⟩
      rw [same]
      intro slot member
      exact absurd member (by simp)
    · intro state envelope next created remote held committed
      obtain ⟨worldId, seed, maxSlots, valid, settled⟩ := held
      refine ⟨worldId, seed, maxSlots, valid.commit committed, fun named => ?_⟩
      exact ((settled named).commits small remote committed).1
  obtain ⟨worldId, seed, maxSlots, valid, settled⟩ := general
  exact ⟨seed, maxSlots, settled (valid.worldId_eq.symm.trans hosted.named)⟩

omit small [Scalar α] in
theorem SlotsValid.unique {worldId : Text} {seed maxSlots : UInt32} {state : Snapshot α}
    (valid : SlotsValid worldId seed maxSlots state) :
    (state.slots.map Slot.entityUuid).Nodup := by
  rw [List.nodup_iff_injective_getElem]
  intro first second same
  have inside (position : Fin (state.slots.map Slot.entityUuid).length) :
      position.val < state.slots.length := by
    simpa using position.isLt
  have names (position : Fin (state.slots.map Slot.entityUuid).length) :
      (state.slots.map Slot.entityUuid)[position.val] = uuid seed position.val := by
    rw [List.getElem_map]
    exact valid.uuids position.val _ (List.getElem?_eq_getElem (inside position))
  have bounded := valid.bounded
  have small := valid.small
  have firstInside := inside first
  have secondInside := inside second
  have equal : uuid seed first.val = uuid seed second.val :=
    (names first).symm.trans (same.trans (names second))
  exact Fin.ext (uuid_injective (by omega) (by omega) equal)

/-- A host can show every world it may have. -/
theorem Hosted.showable {library : JsonLibrary α} {world : LiveWorld α}
    (hosted : Hosted library world) : Showable world.state := by
  obtain ⟨seed, maxSlots, settled⟩ := hosted.settled small
  have valid := settled.valid
  have positive : 1 ≤ maxSlots.toNat := by
    have nonzero : maxSlots.toNat ≠ 0 := fun zero => settled.room (UInt32.toNat_inj.mp zero)
    omega
  refine ⟨settled.format, valid.worldId_eq, ?_, ?_, SlotsValid.unique valid, ?_⟩
  · rw [valid.maxSlots_eq]
    exact ⟨positive, valid.small⟩
  · rw [valid.maxSlots_eq]
    exact valid.bounded
  · intro slot member
    obtain ⟨position, present⟩ := List.mem_iff_getElem?.mp member
    obtain ⟨counted, retired, entity⟩ := settled.shown slot member
    refine ⟨?_, counted, retired, entity⟩
    rw [valid.uuids position slot present]
    exact validUuid_uuid seed position

omit small in
theorem snapshotJson_showable {snapshot : Snapshot α} (showable : Showable snapshot) :
    snapshotJson snapshot = .ok (snapshotObject snapshot) := by
  have flat : snapshot.slots.any hierarchical = false := by
    refine List.any_eq_false.mpr fun slot member => ?_
    obtain ⟨_, counted, retired, entity⟩ := showable.slots slot member
    have shown : Shown snapshot.worldRevision.toNat slot := ⟨counted, retired, entity⟩
    simp [shown.flat]
  simp [snapshotJson, showable.format, flat, bind, Except.bind, pure, Except.pure]

omit small in
/-- A fresh workshop world is one that a host may have. -/
theorem Hosted.fresh {library : JsonLibrary α} {seed maxSlots : UInt32} {state : Snapshot α}
    (created : World.create (ascii "workshop") seed maxSlots = .ok state) (address : Nat) :
    Hosted library ⟨address, state⟩ := by
  refine ⟨.fresh created, ?_⟩
  obtain ⟨_, _, _, same⟩ := create_eq_ok.mp created
  rw [same]

/-- A remote call leaves a world that a host may have. -/
theorem Hosted.applied {σ τ : Type} {library : JsonLibrary α} {world : LiveWorld α}
    (hosted : Hosted library world) {envelope : Envelope α} (remote : Remote envelope)
    (guard : Option (StagingGuard α σ)) (observer : Option (CommitObserver α τ))
    (guardState : σ) (observerState : τ) :
    Hosted library
      (applyAtBoundary library world envelope guard observer guardState
        observerState).world := by
  refine ⟨.call envelope guard observer none guardState observerState remote hosted.reached, ?_⟩
  rcases apply_commits_or_keeps library world envelope guard observer none guardState
      observerState with
    ⟨next, created, committed, published, _⟩ | ⟨kept, _⟩
  · obtain ⟨seed, maxSlots, settled⟩ := hosted.settled small
    obtain ⟨after, _⟩ := settled.commits small remote committed
    rw [applyAtBoundary, published]
    exact after.valid.worldId_eq
  · rw [applyAtBoundary, kept]
    exact hosted.named

end Batches

end Omniweft.Control
