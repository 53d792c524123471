import Omniweft.HierarchyTransforms
import Mathlib.Data.List.Induction

/-!
# What a committed batch changes

Every operation leaves a slot alone, fills or empties it, or stamps its entity with
the revision of the batch. Over the batch each slot ends in one of the three cases,
and no entity changes without its stamp.
-/

namespace Omniweft.Transactions

open Omniweft.Outcome World Commands Relation

variable {α : Type} [Scalar α]

/-- The position that a target names when the operation runs. -/
def TargetAt (before : Staging α) (target : Target) (index root : Nat) : Prop :=
  ∃ slot entity,
    resolve before.staged target before.names (operationPath index ++ ascii "/target")
      index = .ok (root, slot, entity)

/-- The operation created an entity at the position or deleted the one there. -/
def Turns (operation : Operation α) (before after : Snapshot α) (position : Nat) : Prop :=
  match operation with
  | .entityCreate _ =>
      entityAt before position = none ∧ (entityAt after position).isSome = true
  | .entityDelete _ =>
      (entityAt before position).isSome = true ∧ entityAt after position = none
  | _ => False

/-- The operation named the entity, or moved it along with the entity it named. -/
def Touches (operation : Operation α) (index : Nat) (before after : Staging α)
    (position : Nat) : Prop :=
  match operation with
  | .transformSet change =>
      ∃ root, TargetAt before change.target index root ∧
        Forest.Above (Link after.staged) position root
  | .entityReparent change =>
      ∃ root, TargetAt before change.target index root ∧
        Forest.Above (Link after.staged) position root
  | .entityTagsSet change => TargetAt before change.target index position
  | _ => False

/-- The slot still holds the entity it held, now with the revision. -/
def Restamped (revision : UInt64) (before : Snapshot α) (position : Nat) (slot : Slot α) :
    Prop :=
  ∃ old oldEntity entity,
    before.slots[position]? = some old ∧ old.entity = some oldEntity ∧
      slot.entity = some entity ∧ entity.authoringRevision = revision ∧
      slot.entityUuid = old.entityUuid ∧ slot.generation = old.generation ∧
      slot.retired = old.retired ∧ entity.prefabId = oldEntity.prefabId

omit [Scalar α] in
theorem restamped_setEntity {revision : UInt64} {state : Snapshot α} {position : Nat}
    {slot : Slot α} {entity next : Entity α}
    (live : liveAt state position = some (slot, entity))
    (stamped : next.authoringRevision = revision)
    (samePrefab : next.prefabId = entity.prefabId) :
    ∃ after, (setEntity state position next).slots[position]? = some after ∧
      Restamped revision state position after := by
  obtain ⟨present, holds⟩ := liveAt_eq_some.mp live
  exact ⟨_, setEntity_same next present, slot, entity, next, present, holds, rfl, stamped,
    rfl, rfl, rfl, samePrefab⟩

/-- The walk below a rewritten entity stamps it and everything under it. -/
theorem walk_restamps {state next : Snapshot α} {root index : Nat} {revision : UInt64}
    {path : Text} {slot : Slot α} {entity rewritten : Entity α}
    (live : liveAt state root = some (slot, entity))
    (samePrefab : rewritten.prefabId = entity.prefabId)
    (linked : Linked (setEntity state root rewritten))
    (walked : subtree (setEntity state root rewritten) root revision path index = .ok next)
    (position : Nat) :
    next.slots[position]? = state.slots[position]? ∨
      (∃ after, next.slots[position]? = some after ∧
        Restamped revision state position after) ∧
        Forest.Above (Link next) position root := by
  have rootLive : (entityAt (setEntity state root rewritten) root).isSome = true := by
    simp [entityAt_setEntity_same rewritten (liveAt_eq_some.mp live).1]
  rcases @subtree_walk α _ _ root path index linked rootLive revision with
    ⟨found, queue, done, walk, members, stamped⟩ | ⟨_, failed, _⟩
  · rw [walked, Except.ok.injEq] at done
    subst done
    by_cases queued : position ∈ queue
    · refine Or.inr ⟨?_, ?_⟩
      · obtain ⟨base, baseThere⟩ := Option.isSome_iff_exists.mp (walk.live position queued)
        obtain ⟨baseSlot, basePresent, baseHolds⟩ := entityAt_eq_some.mp baseThere
        obtain ⟨after, afterPresent, same⟩ := walk.skeleton.slot basePresent
        obtain ⟨last, lastHolds, lastPrefab, _⟩ := skeleton_entity same baseHolds
        obtain ⟨sameUuid, sameGeneration, sameRetired, _⟩ := skeleton_fields same
        have revised : last.authoringRevision = revision :=
          stamped position queued last (entityAt_eq_some.mpr ⟨after, afterPresent, lastHolds⟩)
        refine ⟨after, afterPresent, ?_⟩
        by_cases here : root = position
        · subst here
          obtain ⟨present, holds⟩ := liveAt_eq_some.mp live
          rw [setEntity_same rewritten present, Option.some.injEq] at basePresent
          subst basePresent
          rw [Option.some.injEq] at baseHolds
          subst baseHolds
          exact ⟨slot, entity, last, present, holds, lastHolds, revised, sameUuid,
            sameGeneration, sameRetired, lastPrefab.trans samePrefab⟩
        · rw [setEntity_other state rewritten here] at basePresent
          exact ⟨baseSlot, base, last, basePresent, baseHolds, lastHolds, revised, sameUuid,
            sameGeneration, sameRetired, lastPrefab⟩
      · have above := (members position).mp queued
        exact ReflTransGen.mono (fun _ _ link => walk.skeleton.link.mpr link) _ _ above
    · refine Or.inl ?_
      have apart : root ≠ position := by
        intro here
        exact queued ((members position).mpr (here ▸ ReflTransGen.refl))
      rw [walk.outside position queued, setEntity_other state rewritten apart]
  · rw [walked] at failed
    exact absurd failed (by simp)

theorem reparent_rewrites {state moved : Snapshot α} {position : Nat} {entity : Entity α}
    {parent : Option (Nat × Slot α × Entity α)} {mode path : Text} {index : Nat}
    (movedOk : reparent state position entity parent mode path index = .ok moved) :
    ∃ next, moved = setEntity state position next ∧ next.prefabId = entity.prefabId := by
  rcases parent with _ | ⟨place, parentSlot, parentEntity⟩
  · exact ⟨_, reparent_none_eq_ok.mp movedOk, rfl⟩
  · obtain ⟨_, _, chosen⟩ := reparent_some_eq_ok.mp movedOk
    rcases chosen with ⟨_, _, _, same⟩ | ⟨_, _, _, same⟩
    · exact ⟨_, same, rfl⟩
    · exact ⟨_, same, rfl⟩

/-- One operation leaves a slot alone, fills or empties it, or stamps its entity. -/
theorem operation_effect {revision : UInt64} {operation : Operation α} {index : Nat}
    {staging next : Staging α} (sound : Sound staging.staged)
    (applied :
      applyOperation (plainContext revision) operation index staging () = .ok next ())
    (position : Nat) :
    next.staged.slots[position]? = staging.staged.slots[position]? ∨
      ((Turns operation staging.staged next.staged position ∧
          (next.staged.slots[position]?).isSome = true) ∧
        StampedAt revision next.staged position) ∨
      (∃ after, next.staged.slots[position]? = some after ∧
        Restamped revision staging.staged position after) ∧
        Touches operation index staging next position := by
  have hierarchy := sound.hierarchy
  cases operation with
  | entityCreate operation =>
      obtain ⟨place, slot, base, _, _, allocated, _, _, same⟩ :=
        applyCreate_eq_ok.mp applied
      obtain ⟨free, here, elsewhere, _⟩ :=
        allocate_place allocated
          { slot with entity := some (freshEntity operation revision) }
      have placed : next.staged = setSlot base place
          { slot with entity := some (freshEntity operation revision) } := by
        rw [same]
        rfl
      rw [← placed] at here elsewhere
      have filled : entityAt next.staged place = some (freshEntity operation revision) :=
        entityAt_eq_some.mpr ⟨_, here, rfl⟩
      by_cases apart : position = place
      · subst apart
        refine Or.inr (Or.inl ⟨⟨⟨?_, ?_⟩, ?_⟩, ?_⟩)
        · simp [entityAt, free]
        · simp [filled]
        · simp [here]
        · intro entity there
          rw [filled, Option.some.injEq] at there
          exact there ▸ rfl
      · exact Or.inl (elsewhere position apart)
  | transformSet operation =>
      obtain ⟨replacement, root, slot, entity, localTransform, staged, _, resolved, _, _,
        localOk, spread, same⟩ := applyTransform_eq_ok.mp applied
      obtain ⟨present, holds, _⟩ := resolve_live resolved
      have live := liveAt_eq_some.mpr ⟨present, holds⟩
      subst same
      have linked := (transform_almost hierarchy live localOk).toLinked
      rcases walk_restamps live (by rfl) linked spread position with
        unchanged | ⟨stamped, above⟩
      · exact Or.inl unchanged
      · exact Or.inr (Or.inr ⟨stamped, root, ⟨slot, entity, resolved⟩, above⟩)
  | entityTagsSet operation =>
      obtain ⟨root, slot, entity, resolved, _, same⟩ := applyTagsSet_eq_ok.mp applied
      obtain ⟨present, holds, _⟩ := resolve_live resolved
      have live := liveAt_eq_some.mpr ⟨present, holds⟩
      subst same
      by_cases here : root = position
      · subst here
        exact Or.inr (Or.inr ⟨restamped_setEntity live rfl rfl, slot, entity, resolved⟩)
      · exact Or.inl (setEntity_other _ _ here)
  | entityReparent operation =>
      obtain ⟨root, slot, entity, parent, moved, staged, resolved, parented, movedOk, spread,
        _, same⟩ := applyReparent_eq_ok.mp applied
      obtain ⟨present, holds, _⟩ := resolve_live resolved
      have live := liveAt_eq_some.mpr ⟨present, holds⟩
      have linked :=
        (reparent_almost hierarchy live (resolveParent_live parented) movedOk).1.toLinked
      obtain ⟨rewritten, rfl, samePrefab⟩ := reparent_rewrites movedOk
      subst same
      rcases walk_restamps live samePrefab linked spread position with
        unchanged | ⟨stamped, above⟩
      · exact Or.inl unchanged
      · exact Or.inr (Or.inr ⟨stamped, root, ⟨slot, entity, resolved⟩, above⟩)
  | entityDelete operation =>
      obtain ⟨root, slot, entity, resolved, _, _, same⟩ := applyDelete_eq_ok.mp applied
      obtain ⟨present, holds, _⟩ := resolve_live resolved
      have inside := (List.getElem?_eq_some_iff.mp present).1
      subst same
      by_cases here : root = position
      · subst here
        have empty : (emptied slot).entity = none := by
          unfold emptied
          split <;> rfl
        have gone : entityAt (setSlot staging.staged root (emptied slot)) root = none := by
          simp [entityAt, liveAt, setSlot_same staging.staged (emptied slot) inside, empty]
        refine Or.inr (Or.inl ⟨⟨⟨?_, gone⟩, ?_⟩, ?_⟩)
        · simp [entityAt, liveAt_eq_some.mpr ⟨present, holds⟩]
        · simp [setSlot_same staging.staged (emptied slot) inside]
        · intro found there
          rw [gone] at there
          exact absurd there (by simp)
      · exact Or.inl (setSlot_other _ _ here)

/-- One operation of a batch, between the staged copies it ran on. -/
structure Ran (revision : UInt64) (state : Snapshot α) (operations : List (Operation α))
    (operation : Operation α) (index : Nat) (before after : Staging α) : Prop where
  listed : operations[index]? = some operation
  reached :
    applyOperations (plainContext revision) (operations.take index) 0 ⟨state, [], []⟩ () =
      .ok before ()
  applied :
    applyOperation (plainContext revision) operation index before () = .ok after ()

theorem Ran.more {revision : UInt64} {state : Snapshot α} {operations : List (Operation α)}
    {operation : Operation α} {index : Nat} {before after : Staging α}
    (ran : Ran revision state operations operation index before after)
    (others : List (Operation α)) :
    Ran revision state (operations ++ others) operation index before after := by
  have inside := (List.getElem?_eq_some_iff.mp ran.listed).1
  refine ⟨?_, ?_, ran.applied⟩
  · rw [List.getElem?_append_left inside]
    exact ran.listed
  · rw [List.take_append_of_le_length (Nat.le_of_lt inside)]
    exact ran.reached

/-- What became of the slot at a position while the operations ran. -/
inductive Fate (revision : UInt64) (state : Snapshot α) (operations : List (Operation α))
    (current : Snapshot α) (position : Nat) : Prop where
  | kept (same : current.slots[position]? = state.slots[position]?)
  | turned (operation : Operation α) (index : Nat) (before after : Staging α)
      (ran : Ran revision state operations operation index before after)
      (turns : Turns operation before.staged after.staged position)
  | stamped (slot : Slot α) (present : current.slots[position]? = some slot)
      (restamped : Restamped revision state position slot)
      (operation : Operation α) (index : Nat) (before after : Staging α)
      (ran : Ran revision state operations operation index before after)
      (touches : Touches operation index before after position)

omit [Scalar α] in
theorem Restamped.again {revision : UInt64} {state middle : Snapshot α} {position : Nat}
    {first second : Slot α} (earlier : Restamped revision state position first)
    (present : middle.slots[position]? = some first)
    (later : Restamped revision middle position second) :
    Restamped revision state position second := by
  obtain ⟨old, oldEntity, entity, oldPresent, oldHolds, holds, _, sameUuid, sameGeneration,
    sameRetired, samePrefab⟩ := earlier
  obtain ⟨between, betweenEntity, last, betweenPresent, betweenHolds, lastHolds, stamped,
    lastUuid, lastGeneration, lastRetired, lastPrefab⟩ := later
  rw [present, Option.some.injEq] at betweenPresent
  subst betweenPresent
  rw [holds, Option.some.injEq] at betweenHolds
  subst betweenHolds
  exact ⟨old, oldEntity, last, oldPresent, oldHolds, lastHolds, stamped,
    lastUuid.trans sameUuid, lastGeneration.trans sameGeneration,
    lastRetired.trans sameRetired, lastPrefab.trans samePrefab⟩

theorem Fate.step {revision : UInt64} {state : Snapshot α} {operations : List (Operation α)}
    {operation : Operation α} {staging next : Staging α} {position : Nat}
    (fate : Fate revision state operations staging.staged position)
    (sound : Sound staging.staged)
    (reached :
      applyOperations (plainContext revision) operations 0 ⟨state, [], []⟩ () =
        .ok staging ())
    (applied :
      applyOperation (plainContext revision) operation operations.length staging () =
        .ok next ()) :
    Fate revision state (operations ++ [operation]) next.staged position := by
  have ran : Ran revision state (operations ++ [operation]) operation operations.length
      staging next := by
    refine ⟨by simp, ?_, applied⟩
    rw [List.take_left]
    exact reached
  rcases operation_effect sound applied position with
    unchanged | ⟨⟨turns, _⟩, _⟩ | ⟨⟨after, present, restamped⟩, touches⟩
  · cases fate with
    | kept same => exact .kept (unchanged.trans same)
    | turned operation index before after earlier turns =>
        exact .turned operation index before after (earlier.more _) turns
    | stamped slot present restamped operation index before after earlier touches =>
        exact .stamped slot (unchanged.trans present) restamped operation index before after
          (earlier.more _) touches
  · exact .turned operation operations.length staging next ran turns
  · cases fate with
    | kept same =>
        obtain ⟨old, oldEntity, entity, oldPresent, rest⟩ := restamped
        exact .stamped after present ⟨old, oldEntity, entity, same ▸ oldPresent, rest⟩
          operation operations.length staging next ran touches
    | turned operation index before after earlier turns =>
        exact .turned operation index before after (earlier.more _) turns
    | stamped slot earlierPresent earlierStamped =>
        exact .stamped after present (earlierStamped.again earlierPresent restamped)
          operation operations.length staging next ran touches

theorem fate_of_run {revision : UInt64} {state : Snapshot α} (sound : Sound state)
    (operations : List (Operation α)) :
    ∀ {last : Staging α},
      applyOperations (plainContext revision) operations 0 ⟨state, [], []⟩ () =
        .ok last () →
      Sound last.staged ∧
        ∀ position, Fate revision state operations last.staged position := by
  induction operations using List.reverseRecOn with
  | nil =>
      intro last applied
      obtain ⟨rfl, _⟩ := applyOperations_nil_eq_ok.mp applied
      exact ⟨sound, fun _ => .kept rfl⟩
  | append_singleton operations operation inductionHypothesis =>
      intro last applied
      obtain ⟨staging, _, reached, final⟩ := applyOperations_append.mp applied
      obtain ⟨next, _, stepped, done⟩ := applyOperations_cons_eq_ok.mp final
      obtain ⟨rfl, _⟩ := applyOperations_nil_eq_ok.mp done
      rw [Nat.zero_add] at stepped
      obtain ⟨stagedSound, fates⟩ := inductionHypothesis reached
      exact ⟨stagedSound.step stepped,
        fun position => (fates position).step stagedSound reached stepped⟩

/-- Every entity is the one that was there, or carries the revision. -/
def Marked (revision : UInt64) (state current : Snapshot α) : Prop :=
  ∀ position entity, entityAt current position = some entity →
    entityAt state position = some entity ∨ entity.authoringRevision = revision

theorem Marked.step {revision : UInt64} {state : Snapshot α} {operation : Operation α}
    {index : Nat} {staging next : Staging α} (marked : Marked revision state staging.staged)
    (sound : Sound staging.staged)
    (applied :
      applyOperation (plainContext revision) operation index staging () = .ok next ()) :
    Marked revision state next.staged := by
  intro position entity there
  rcases operation_effect sound applied position with
    unchanged | ⟨_, stamped⟩ | ⟨⟨after, present, restamped⟩, _⟩
  · refine marked position entity ?_
    rwa [entityAt, liveAt, unchanged] at there
  · exact Or.inr (stamped entity there)
  · obtain ⟨_, _, last, _, _, holds, stamped, _⟩ := restamped
    obtain ⟨slot, slotPresent, slotHolds⟩ := entityAt_eq_some.mp there
    rw [present, Option.some.injEq] at slotPresent
    subst slotPresent
    rw [holds, Option.some.injEq] at slotHolds
    exact Or.inr (slotHolds ▸ stamped)

theorem length_step {revision : UInt64} {operation : Operation α} {index : Nat}
    {staging next : Staging α} (sound : Sound staging.staged)
    (applied :
      applyOperation (plainContext revision) operation index staging () = .ok next ()) :
    staging.staged.slots.length ≤ next.staged.slots.length := by
  by_contra shorter
  have inside : next.staged.slots.length < staging.staged.slots.length := by omega
  have missing : next.staged.slots[next.staged.slots.length]? = none :=
    List.getElem?_eq_none (Nat.le_refl _)
  rcases operation_effect sound applied next.staged.slots.length with
    unchanged | ⟨⟨_, present⟩, _⟩ | ⟨⟨after, present, _⟩, _⟩
  · rw [missing, List.getElem?_eq_getElem inside] at unchanged
    exact absurd unchanged (by simp)
  · rw [missing] at present
    exact absurd present (by simp)
  · rw [missing] at present
    exact absurd present (by simp)

/-- The stamp of every entity is a revision that the world has had. -/
def StampsWithin (state : Snapshot α) : Prop :=
  ∀ position entity, entityAt state position = some entity →
    1 ≤ entity.authoringRevision ∧ entity.authoringRevision ≤ state.worldRevision

/-- What a committed batch makes of a world. -/
structure BatchFrame (state : Snapshot α) (operations : List (Operation α))
    (next : Snapshot α) : Prop where
  identity : next.worldId = state.worldId ∧ next.seed = state.seed ∧
    next.maxSlots = state.maxSlots
  revision : next.worldRevision.toNat = state.worldRevision.toNat + 1
  length : state.slots.length ≤ next.slots.length
  slots : ∀ position, Fate next.worldRevision state operations next position
  changed : ∀ position old entity,
    entityAt state position = some old → entityAt next position = some entity →
    entity ≠ old →
    entity.authoringRevision = next.worldRevision ∧
      entity.authoringRevision ≠ old.authoringRevision

theorem Fate.relabel {revision : UInt64} {state : Snapshot α}
    {operations : List (Operation α)} {current next : Snapshot α} {position : Nat}
    (fate : Fate revision state operations current position)
    (same : next.slots = current.slots) :
    Fate revision state operations next position := by
  cases fate with
  | kept kept => exact .kept (same ▸ kept)
  | turned operation index before after ran turns =>
      exact .turned operation index before after ran turns
  | stamped slot present restamped operation index before after ran touches =>
      exact .stamped slot (same ▸ present) restamped operation index before after ran touches

theorem Commits.marked {library : JsonLibrary α} {state next : Snapshot α}
    {envelope : Envelope α} {created : List CreatedBinding} (sound : Sound state)
    (committed : Commits library state envelope next created) :
    Marked next.worldRevision state next := by
  rw [committed.revision.1]
  refine (@Commits.invariant α _ library
    (fun current => Sound current ∧ Marked (state.worldRevision + 1) state current)
    state next envelope created ?_ ?_ ⟨sound, fun _ _ there => Or.inl there⟩ committed).2
  · intro operation index staging following _ current applied
    exact ⟨current.1.step applied, current.2.step current.1 applied⟩
  · intro staged formatVersion worldRevision current
    exact ⟨current.1.relabel formatVersion worldRevision, current.2⟩

theorem Commits.frame {library : JsonLibrary α} {state next : Snapshot α}
    {envelope : Envelope α} {created : List CreatedBinding} (sound : Sound state)
    (within : StampsWithin state)
    (committed : Commits library state envelope next created) :
    BatchFrame state envelope.operations next := by
  have raised := committed.revision
  have marked := committed.marked sound
  obtain ⟨worldId, seed, maxSlots, valid⟩ := sound.slots
  have nextValid := valid.commit committed
  refine ⟨⟨nextValid.worldId_eq.trans valid.worldId_eq.symm,
    nextValid.seed_eq.trans valid.seed_eq.symm,
    nextValid.maxSlots_eq.trans valid.maxSlots_eq.symm⟩, raised.2, ?_, ?_, ?_⟩
  · refine (@Commits.invariant α _ library
      (fun current => Sound current ∧ state.slots.length ≤ current.slots.length)
      state next envelope created ?_ ?_ ⟨sound, Nat.le_refl _⟩ committed).2
    · intro operation index staging following _ current applied
      exact ⟨current.1.step applied, current.2.trans (length_step current.1 applied)⟩
    · intro staged formatVersion worldRevision current
      exact ⟨current.1.relabel formatVersion worldRevision, current.2⟩
  · intro position
    obtain ⟨_, staged, stagedOk, same⟩ := committed
    obtain ⟨last, _, run, _, _, sameStaged, _⟩ := stage_eq_ok.mp stagedOk
    have fate := (fate_of_run sound envelope.operations run).2 position
    rw [raised.1]
    exact fate.relabel (by rw [same, sameStaged]; rfl)
  · intro position old entity oldThere there different
    have stamped : entity.authoringRevision = next.worldRevision := by
      rcases marked position entity there with unchanged | stamped
      · rw [oldThere, Option.some.injEq] at unchanged
        exact absurd unchanged.symm different
      · exact stamped
    refine ⟨stamped, ?_⟩
    intro same
    have bounded := UInt64.le_iff_toNat_le.mp (within position old oldThere).2
    rw [← same, stamped] at bounded
    omega

theorem reachable_stamps {library : JsonLibrary α} {allowed : Envelope α → Prop}
    {world : LiveWorld α} (reachable : ReachableBy library allowed world) :
    StampsWithin world.state := by
  refine (@ReachableBy.invariant α _ library allowed
    (fun state => Sound state ∧ StampsWithin state) ?_ ?_ world reachable).2
  · intro worldId seed maxSlots state created
    refine ⟨Sound.fresh created, ?_⟩
    intro position entity there
    obtain ⟨_, _, _, same⟩ := create_eq_ok.mp created
    obtain ⟨slot, present, _⟩ := entityAt_eq_some.mp there
    rw [same] at present
    exact absurd present (by simp)
  · intro state envelope next created _ holds committed
    obtain ⟨sound, within⟩ := holds
    have raised := committed.revision.2
    refine ⟨committed.invariant
      (fun _ _ _ _ _ current applied => current.step applied)
      (fun _ formatVersion worldRevision current =>
        current.relabel formatVersion worldRevision) sound, ?_⟩
    intro position entity there
    rcases committed.marked sound position entity there with unchanged | stamped
    · obtain ⟨positive, bounded⟩ := within position entity unchanged
      refine ⟨positive, ?_⟩
      rw [UInt64.le_iff_toNat_le] at bounded ⊢
      omega
    · rw [stamped]
      refine ⟨?_, UInt64.le_refl _⟩
      rw [UInt64.le_iff_toNat_le, raised]
      exact Nat.le_add_left 1 _

/-- In every reachable world every stamp is a revision the world has had. A call that
commits changes the slots that its operations fill, empty or stamp, and nothing else. -/
theorem change_stamping {library : JsonLibrary α} {world : LiveWorld α}
    (reachable : Reachable library world) :
    StampsWithin world.state ∧
      ∀ {σ τ : Type} (envelope : Envelope α) (guard : Option (StagingGuard α σ))
        (observer : Option (CommitObserver α τ)) (bindings : Option (List CreatedBinding))
        (guardState : σ) (observerState : τ) (receipt : Receipt),
        (apply library world envelope guard observer bindings guardState
            observerState).result = .ok receipt →
        receipt.status = ascii "committed" →
        BatchFrame world.state envelope.operations
          (apply library world envelope guard observer bindings guardState
            observerState).world.state := by
  refine ⟨reachable_stamps reachable, ?_⟩
  intro σ τ envelope guard observer bindings guardState observerState receipt answered status
  rcases apply_commits_or_keeps library world envelope guard observer bindings guardState
      observerState with ⟨next, created, committed, published, _⟩ | ⟨_, refused⟩
  · rw [published]
    exact committed.frame reachable.sound (reachable_stamps reachable)
  · have rejected := (refused receipt answered).1
    rw [status] at rejected
    exact absurd rejected (by decide)

set_option maxRecDepth 20000 in
/-- Two cubes are created and linked in an empty world. -/
theorem change_stamping_pair :
    StampsWithin sampleWorld.state ∧
      BatchFrame sampleWorld.state createPair.operations
        (sampleApply sampleWorld createPair).world.state := by
  have fresh : Reachable JsonText.library sampleWorld :=
    @ReachableBy.fresh Halves _ _ _ 1 (ascii "world") 7 4 sampleWorld.state rfl
  have committed : (sampleApply sampleWorld createPair).result.toOption.map Receipt.status =
      some (ascii "committed") := by decide +kernel
  obtain ⟨receipt, result, status⟩ := answered_status committed
  obtain ⟨within, frames⟩ := change_stamping fresh
  exact ⟨within, frames createPair none none none () () receipt result status⟩

end Omniweft.Transactions
