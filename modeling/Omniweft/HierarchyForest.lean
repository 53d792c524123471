import Omniweft.Handles
import Omniweft.Hierarchy

/-!
# Every reachable hierarchy is a forest

The operations of a batch keep the links live and acyclic, parents uniformly
scaled and roots without a local transform. What the source guards against in
`parent_of` and `subtree` therefore never happens, and a reparent is refused as
a cycle exactly when it would close one.
-/

namespace Omniweft.Transactions

open Omniweft.Outcome World Commands Relation

variable {α : Type} [Scalar α]

/-- A state whose links form a forest fit for composing transforms. -/
structure Hierarchy (state : Snapshot α) : Prop extends Linked state where
  uniform :
    ∀ child parent parentEntity,
      Link state child parent → entityAt state parent = some parentEntity →
      uniformScale parentEntity.transform = true
  roots :
    ∀ position entity,
      entityAt state position = some entity → entity.parent = none →
      entity.localTransform = Transform.default

/-- `Hierarchy` up to the scale of the entity at `root`, which is about to be
walked. -/
structure AlmostHierarchy (state : Snapshot α) (root : Nat) : Prop
    extends Linked state where
  uniform :
    ∀ child parent parentEntity,
      Link state child parent → parent ≠ root →
      entityAt state parent = some parentEntity →
      uniformScale parentEntity.transform = true
  roots :
    ∀ position entity,
      entityAt state position = some entity → entity.parent = none →
      entity.localTransform = Transform.default

theorem compose_uniform
    {parent localTransform world : Transform α} {path : Text} {index : Nat}
    (composed : compose parent localTransform path index = .ok world) :
    uniformScale parent = true := by
  simp only [compose, bind_eq_ok, parentScale, rejectIf_eq_ok,
    Bool.not_eq_false'] at composed
  exact composed.choose_spec.1

theorem SameSkeleton.entity
    {state next : Snapshot α} (same : SameSkeleton state next) {position : Nat}
    {entity : Entity α} (there : entityAt state position = some entity) :
    ∃ found,
      entityAt next position = some found ∧ found.prefabId = entity.prefabId ∧
        found.parent = entity.parent ∧
        found.localTransform = entity.localTransform ∧ found.tags = entity.tags := by
  obtain ⟨slot, present, live⟩ := entityAt_eq_some.mp there
  obtain ⟨other, otherPresent, sameSlot⟩ := same.slot present
  obtain ⟨found, foundLive, fields⟩ := skeleton_entity sameSlot live
  exact ⟨found, entityAt_eq_some.mpr ⟨other, otherPresent, foundLive⟩, fields⟩

theorem SameSkeleton.linked
    {state next : Snapshot α} (same : SameSkeleton state next) (linked : Linked state) :
    Linked next := by
  refine ⟨?_, ?_, ?_⟩
  · intro first second firstSlot secondSlot firstPresent secondPresent sameUuid
    obtain ⟨oldFirst, oldFirstPresent, firstSame⟩ := same.symm.slot firstPresent
    obtain ⟨oldSecond, oldSecondPresent, secondSame⟩ := same.symm.slot secondPresent
    refine linked.distinct first second oldFirst oldSecond oldFirstPresent
      oldSecondPresent ?_
    rw [(skeleton_fields firstSame).1, (skeleton_fields secondSame).1, sameUuid]
  · intro child childSlot childEntity link live named
    obtain ⟨present, holds⟩ := liveAt_eq_some.mp live
    obtain ⟨oldSlot, oldPresent, sameSlot⟩ := same.symm.slot present
    obtain ⟨oldEntity, oldLive, _, sameParent, _⟩ := skeleton_entity sameSlot holds
    obtain ⟨parent, parentSlot, parentEntity, parentLive, awake, sameUuid,
      sameGeneration⟩ :=
      linked.links child oldSlot oldEntity link
        (liveAt_eq_some.mpr ⟨oldPresent, oldLive⟩) (sameParent.trans named)
    obtain ⟨parentPresent, parentHolds⟩ := liveAt_eq_some.mp parentLive
    obtain ⟨newSlot, newPresent, sameParentSlot⟩ := same.slot parentPresent
    obtain ⟨newEntity, newLive, _⟩ := skeleton_entity sameParentSlot parentHolds
    obtain ⟨uuidEqual, generationEqual, retiredEqual, _⟩ :=
      skeleton_fields sameParentSlot
    exact ⟨parent, newSlot, newEntity, liveAt_eq_some.mpr ⟨newPresent, newLive⟩,
      retiredEqual.trans awake, uuidEqual.trans sameUuid,
      generationEqual.trans sameGeneration⟩
  · exact linked.acyclic.mono fun child parent link => same.link.mp link

/-- Walking the root repairs the one scale that was in doubt. -/
theorem subtree_hierarchy
    {base next : Snapshot α} {root index : Nat} {revision : UInt64} {path : Text}
    (almost : AlmostHierarchy base root)
    (live : (entityAt base root).isSome = true)
    (walked : subtree base root revision path index = .ok next) :
    Hierarchy next := by
  rcases @subtree_walk α _ base root path index almost.toLinked live revision with
    ⟨found, queue, done, walk, members, _⟩ | ⟨error, failed, _⟩
  · rw [walked, Except.ok.injEq] at done
    subst done
    refine ⟨walk.skeleton.linked almost.toLinked, ?_, ?_⟩
    · intro child parent parentEntity link parentThere
      have linkBase := walk.skeleton.link.mp link
      by_cases queued : parent ∈ queue
      · have childAbove : Forest.Above (Link base) child root :=
          ReflTransGen.head linkBase ((members parent).mp queued)
        have childNotRoot : child ≠ root := by
          intro here
          subst here
          exact almost.acyclic child
            (TransGen.head' linkBase ((members parent).mp queued))
        obtain ⟨childSlot, childEntity, childLive, _⟩ := link.child_live
        have coherent :=
          walk.coherent child ((members child).mpr childAbove) childNotRoot parent
            childEntity parentEntity link (by simp [entityAt, childLive]) parentThere
        exact compose_uniform coherent
      · have notRoot : parent ≠ root := by
          intro here
          exact queued ((members parent).mpr (here ▸ ReflTransGen.refl))
        have unchanged : entityAt base parent = entityAt next parent := by
          simp only [entityAt, liveAt, walk.outside parent queued]
        exact almost.uniform child parent parentEntity linkBase notRoot
          (unchanged.trans parentThere)
    · intro position entity there rootless
      obtain ⟨old, oldThere, _, sameParent, sameLocal, _⟩ :=
        walk.skeleton.symm.entity there
      rw [← sameLocal]
      exact almost.roots position old oldThere (sameParent.trans rootless)
  · rw [walked] at failed
    exact absurd failed (by simp)

/-! ## Writing one entity -/

section Rewrite

variable {state : Snapshot α} {position : Nat} {slot : Slot α}
  {entity next : Entity α}

omit [Scalar α] in
/-- Links after an entity was rewritten with the parent it had. -/
theorem setEntity_link_same
    (live : liveAt state position = some (slot, entity))
    (sameParent : next.parent = entity.parent) {child parent : Nat} :
    Link (setEntity state position next) child parent ↔ Link state child parent := by
  obtain ⟨present, holds⟩ := liveAt_eq_some.mp live
  have view {place : Nat} {found : Slot α} (there : state.slots[place]? = some found) :
      ∃ after,
        (setEntity state position next).slots[place]? = some after ∧
          after.entityUuid = found.entityUuid ∧
          after.generation = found.generation ∧
          after.entity.bind Entity.parent = found.entity.bind Entity.parent := by
    by_cases here : position = place
    · subst here
      rw [present, Option.some.injEq] at there
      subst there
      exact ⟨_, setEntity_same next present, rfl, rfl, by simp [holds, sameParent]⟩
    · exact ⟨found, (setEntity_other state next here).trans there, rfl, rfl, rfl⟩
  have back {place : Nat} {after : Slot α}
      (there : (setEntity state position next).slots[place]? = some after) :
      ∃ found, state.slots[place]? = some found := by
    by_cases here : position = place
    · exact ⟨slot, here ▸ present⟩
    · exact ⟨after, (setEntity_other state next here).symm.trans there⟩
  constructor
  · rintro ⟨childSlot, parentSlot, childPresent, parentPresent, isChild⟩
    obtain ⟨oldChild, oldChildPresent⟩ := back childPresent
    obtain ⟨oldParent, oldParentPresent⟩ := back parentPresent
    obtain ⟨_, childThere, _, _, childLink⟩ := view oldChildPresent
    obtain ⟨_, parentThere, parentUuid, parentGeneration, _⟩ := view oldParentPresent
    rw [childPresent, Option.some.injEq] at childThere
    rw [parentPresent, Option.some.injEq] at parentThere
    subst childThere parentThere
    refine ⟨oldChild, oldParent, oldChildPresent, oldParentPresent, ?_⟩
    rw [childOf_eq_true] at isChild ⊢
    rw [← childLink, isChild, parentUuid, parentGeneration]
  · rintro ⟨childSlot, parentSlot, childPresent, parentPresent, isChild⟩
    obtain ⟨newChild, childThere, _, _, childLink⟩ := view childPresent
    obtain ⟨newParent, parentThere, parentUuid, parentGeneration, _⟩ :=
      view parentPresent
    refine ⟨newChild, newParent, childThere, parentThere, ?_⟩
    rw [childOf_eq_true] at isChild ⊢
    rw [childLink, isChild, parentUuid, parentGeneration]

omit [Scalar α] in
/-- Slots after a rewrite: the same names and generations everywhere. -/
theorem setEntity_slot
    (live : liveAt state position = some (slot, entity)) {place : Nat} {after : Slot α}
    (there : (setEntity state position next).slots[place]? = some after) :
    ∃ found,
      state.slots[place]? = some found ∧ found.entityUuid = after.entityUuid ∧
        found.generation = after.generation ∧ found.retired = after.retired ∧
        (position ≠ place → found = after) := by
  obtain ⟨present, holds⟩ := liveAt_eq_some.mp live
  by_cases here : position = place
  · subst here
    rw [setEntity_same next present, Option.some.injEq] at there
    subst there
    exact ⟨slot, present, rfl, rfl, rfl, fun different => absurd rfl different⟩
  · rw [setEntity_other state next here] at there
    exact ⟨after, there, rfl, rfl, rfl, fun _ => rfl⟩

omit [Scalar α] in
theorem setEntity_distinct
    (live : liveAt state position = some (slot, entity)) (distinct : Distinct state) :
    Distinct (setEntity state position next) := by
  intro first second firstSlot secondSlot firstPresent secondPresent sameUuid
  obtain ⟨oldFirst, oldFirstPresent, firstUuid, _⟩ := setEntity_slot live firstPresent
  obtain ⟨oldSecond, oldSecondPresent, secondUuid, _⟩ :=
    setEntity_slot live secondPresent
  exact distinct first second oldFirst oldSecond oldFirstPresent oldSecondPresent
    (firstUuid.trans (sameUuid.trans secondUuid.symm))

omit [Scalar α] in
/-- A slot that is live stays live under its name when an entity is rewritten. -/
theorem setEntity_live
    (live : liveAt state position = some (slot, entity)) {place : Nat}
    {found : Slot α} {held : Entity α}
    (there : liveAt state place = some (found, held)) :
    ∃ after afterEntity,
      liveAt (setEntity state position next) place = some (after, afterEntity) ∧
        after.retired = found.retired ∧ after.entityUuid = found.entityUuid ∧
        after.generation = found.generation := by
  obtain ⟨present, holds⟩ := liveAt_eq_some.mp live
  obtain ⟨foundPresent, foundLive⟩ := liveAt_eq_some.mp there
  by_cases here : position = place
  · subst here
    rw [present, Option.some.injEq] at foundPresent
    subst foundPresent
    exact ⟨_, next, liveAt_eq_some.mpr ⟨setEntity_same next present, rfl⟩, rfl, rfl, rfl⟩
  · exact ⟨found, held, liveAt_eq_some.mpr
      ⟨(setEntity_other state next here).trans foundPresent, foundLive⟩, rfl, rfl, rfl⟩

omit [Scalar α] in
/-- Every link of the new state stays live when the rewritten entity's own link
names a live slot. -/
private theorem setEntity_links
    (live : liveAt state position = some (slot, entity)) (linked : Linked state)
    (named :
      ∀ link,
        next.parent = some link →
        ∃ parent parentSlot parentEntity,
          liveAt state parent = some (parentSlot, parentEntity) ∧
            parentSlot.retired = false ∧
            parentSlot.entityUuid = link.entityUuid ∧
            parentSlot.generation = link.generation) :
    ∀ child childSlot childEntity link,
      liveAt (setEntity state position next) child = some (childSlot, childEntity) →
      childEntity.parent = some link →
      ∃ parent parentSlot parentEntity,
        liveAt (setEntity state position next) parent =
            some (parentSlot, parentEntity) ∧
          parentSlot.retired = false ∧
          parentSlot.entityUuid = link.entityUuid ∧
          parentSlot.generation = link.generation := by
  intro child childSlot childEntity link childLive childNamed
  have old :
      ∃ parent parentSlot parentEntity,
        liveAt state parent = some (parentSlot, parentEntity) ∧
          parentSlot.retired = false ∧
          parentSlot.entityUuid = link.entityUuid ∧
          parentSlot.generation = link.generation := by
    obtain ⟨childPresent, childHolds⟩ := liveAt_eq_some.mp childLive
    by_cases here : position = child
    · subst here
      rw [setEntity_same next (liveAt_eq_some.mp live).1, Option.some.injEq]
        at childPresent
      rw [← childPresent, Option.some.injEq] at childHolds
      exact named link (childHolds ▸ childNamed)
    · rw [setEntity_other state next here] at childPresent
      exact linked.links child childSlot childEntity link
        (liveAt_eq_some.mpr ⟨childPresent, childHolds⟩) childNamed
  obtain ⟨parent, parentSlot, parentEntity, parentLive, awake, sameUuid,
    sameGeneration⟩ := old
  obtain ⟨after, afterEntity, afterLive, afterRetired, afterUuid, afterGeneration⟩ :=
    @setEntity_live α state position slot entity next live _ _ _ parentLive
  exact ⟨parent, after, afterEntity, afterLive, afterRetired.trans awake,
    afterUuid.trans sameUuid, afterGeneration.trans sameGeneration⟩

omit [Scalar α] in
/-- Rewriting an entity without touching its link keeps the links a forest. -/
theorem Linked.rewrite (linked : Linked state)
    (live : liveAt state position = some (slot, entity))
    (sameParent : next.parent = entity.parent) :
    Linked (setEntity state position next) where
  distinct := setEntity_distinct live linked.distinct
  links :=
    setEntity_links live linked fun link named =>
      linked.links position slot entity link live (sameParent ▸ named)
  acyclic :=
    linked.acyclic.mono fun _ _ link => (setEntity_link_same live sameParent).mp link

omit [Scalar α] in
/-- Links of the other entities are the old ones. -/
theorem setEntity_link_other
    (live : liveAt state position = some (slot, entity)) {child parent : Nat}
    (different : child ≠ position)
    (link : Link (setEntity state position next) child parent) :
    Link state child parent := by
  obtain ⟨childSlot, parentSlot, childPresent, parentPresent, isChild⟩ := link
  rw [setEntity_other state next (Ne.symm different)] at childPresent
  obtain ⟨oldParent, oldParentPresent, sameUuid, sameGeneration, _⟩ :=
    setEntity_slot live parentPresent
  refine ⟨childSlot, oldParent, childPresent, oldParentPresent, ?_⟩
  rw [childOf_eq_true] at isChild ⊢
  rw [isChild, sameUuid, sameGeneration]

omit [Scalar α] in
/-- The rewritten entity's link is the one it was given. -/
theorem setEntity_link_here
    (live : liveAt state position = some (slot, entity)) {parent : Nat}
    (link : Link (setEntity state position next) position parent) :
    ∃ parentSlot,
      state.slots[parent]? = some parentSlot ∧
        next.parent = some ⟨parentSlot.entityUuid, parentSlot.generation⟩ := by
  obtain ⟨childSlot, parentSlot, childPresent, parentPresent, isChild⟩ := link
  rw [setEntity_same next (liveAt_eq_some.mp live).1, Option.some.injEq]
    at childPresent
  obtain ⟨oldParent, oldParentPresent, sameUuid, sameGeneration, _⟩ :=
    setEntity_slot live parentPresent
  refine ⟨oldParent, oldParentPresent, ?_⟩
  rw [childOf_eq_true, ← childPresent, Option.bind_some] at isChild
  rw [isChild, sameUuid, sameGeneration]

omit [Scalar α] in
/-- Detaching an entity keeps the links a forest. -/
theorem Linked.unlink (linked : Linked state)
    (live : liveAt state position = some (slot, entity)) (detached : next.parent = none) :
    Linked (setEntity state position next) where
  distinct := setEntity_distinct live linked.distinct
  links :=
    setEntity_links live linked fun link named => by
      rw [detached] at named
      exact absurd named (by simp)
  acyclic := by
    refine linked.acyclic.mono fun child parent link => ?_
    by_cases here : child = position
    · subst here
      obtain ⟨_, _, named⟩ := setEntity_link_here live link
      rw [detached] at named
      exact absurd named (by simp)
    · exact setEntity_link_other live here link

omit [Scalar α] in
/-- Attaching an entity under one that is not below it keeps the links a
forest. -/
theorem Linked.relink (linked : Linked state)
    (live : liveAt state position = some (slot, entity))
    {parent : Nat} {parentSlot : Slot α} {parentEntity : Entity α}
    (parentLive : liveAt state parent = some (parentSlot, parentEntity))
    (awake : parentSlot.retired = false)
    (named : next.parent = some ⟨parentSlot.entityUuid, parentSlot.generation⟩)
    (apart : ¬ Forest.Above (Link state) parent position) :
    Linked (setEntity state position next) where
  distinct := setEntity_distinct live linked.distinct
  links :=
    setEntity_links live linked fun link sought => by
      rw [named, Option.some.injEq] at sought
      subst sought
      exact ⟨parent, parentSlot, parentEntity, parentLive, awake, rfl, rfl⟩
  acyclic := by
    refine @Forest.Acyclic.redirect Nat _ _ linked.acyclic
      (setEntity_distinct live linked.distinct).unique position
      (fun child found different link => setEntity_link_other live different link) ?_
    intro found link
    obtain ⟨foundSlot, foundPresent, foundNamed⟩ := setEntity_link_here live link
    rw [named, Option.some.injEq, ParentIdentity.mk.injEq] at foundNamed
    have here :=
      linked.distinct parent found parentSlot foundSlot
        (liveAt_eq_some.mp parentLive).1 foundPresent foundNamed.1
    exact here ▸ apart

end Rewrite

/-! ## Creating and deleting -/

/-- `next` is `state` but for the slot at `position`, which no child names and
which holds nothing or a neutral root. -/
structure Replaced (state next : Snapshot α) (position : Nat) : Prop where
  distinct : Distinct next
  unnamed : ∀ child, ¬ Link state child position
  neutral :
    ∀ entity,
      entityAt next position = some entity →
      entity.parent = none ∧ entity.transform = Transform.default ∧
        entity.localTransform = Transform.default
  elsewhere :
    ∀ other : Nat, other ≠ position → next.slots[other]? = state.slots[other]?

section Replacing

variable {state next : Snapshot α} {position : Nat}

theorem Replaced.liveAt (replaced : Replaced state next position) {other : Nat}
    (different : other ≠ position) :
    Transactions.liveAt next other = Transactions.liveAt state other := by
  simp only [Transactions.liveAt, replaced.elsewhere other different]

theorem Replaced.entityAt (replaced : Replaced state next position) {other : Nat}
    (different : other ≠ position) :
    Transactions.entityAt next other = Transactions.entityAt state other := by
  simp only [Transactions.entityAt, replaced.liveAt different]

/-- A child named its parent before, and the parent was live elsewhere. -/
private theorem Replaced.named (replaced : Replaced state next position)
    (linked : Linked state) {child : Nat} {childSlot : Slot α} {childEntity : Entity α}
    {link : ParentIdentity}
    (live : Transactions.liveAt next child = some (childSlot, childEntity))
    (named : childEntity.parent = some link) :
    child ≠ position ∧
      ∃ parent parentSlot parentEntity,
        parent ≠ position ∧
          Transactions.liveAt state parent = some (parentSlot, parentEntity) ∧
          parentSlot.retired = false ∧ parentSlot.entityUuid = link.entityUuid ∧
          parentSlot.generation = link.generation := by
  have different : child ≠ position := by
    intro same
    subst same
    have rootless :=
      (replaced.neutral childEntity (by simp [Transactions.entityAt, live])).1
    rw [rootless] at named
    exact absurd named (by simp)
  rw [replaced.liveAt different] at live
  obtain ⟨parent, parentSlot, parentEntity, parentLive, awake, sameUuid,
    sameGeneration⟩ := linked.links child childSlot childEntity link live named
  refine ⟨different, parent, parentSlot, parentEntity, ?_, parentLive, awake, sameUuid,
    sameGeneration⟩
  intro same
  subst same
  obtain ⟨childPresent, childHolds⟩ := liveAt_eq_some.mp live
  refine replaced.unnamed child
    ⟨childSlot, parentSlot, childPresent, (liveAt_eq_some.mp parentLive).1, ?_⟩
  rw [childOf_eq_true, childHolds, Option.bind_some, named, sameUuid, sameGeneration]

/-- Every link is an old one between other slots. -/
theorem Replaced.link (replaced : Replaced state next position)
    (linked : Linked state) {child parent : Nat} (link : Link next child parent) :
    child ≠ position ∧ parent ≠ position ∧ Link state child parent := by
  obtain ⟨childSlot, parentSlot, childPresent, parentPresent, isChild⟩ := link
  obtain ⟨childEntity, childHolds, childNamed⟩ :=
    Option.bind_eq_some_iff.mp (childOf_eq_true.mp isChild)
  obtain ⟨different, found, foundSlot, foundEntity, foundElsewhere, foundLive, _,
    sameUuid, _⟩ :=
    replaced.named linked (liveAt_eq_some.mpr ⟨childPresent, childHolds⟩) childNamed
  have foundNext := (replaced.liveAt foundElsewhere).trans foundLive
  have same :=
    replaced.distinct found parent foundSlot parentSlot
      (liveAt_eq_some.mp foundNext).1 parentPresent sameUuid
  subst same
  refine ⟨different, foundElsewhere, childSlot, parentSlot, ?_, ?_, isChild⟩
  · rw [← replaced.elsewhere child different]
    exact childPresent
  · rw [← replaced.elsewhere found foundElsewhere]
    exact parentPresent

theorem Replaced.hierarchy (replaced : Replaced state next position)
    (hierarchy : Hierarchy state) : Hierarchy next := by
  refine ⟨⟨replaced.distinct, ?_, ?_⟩, ?_, ?_⟩
  · intro child childSlot childEntity link live named
    obtain ⟨_, parent, parentSlot, parentEntity, different, parentLive, facts⟩ :=
      replaced.named hierarchy.toLinked live named
    exact ⟨parent, parentSlot, parentEntity,
      (replaced.liveAt different).trans parentLive, facts⟩
  · exact hierarchy.acyclic.mono fun child parent link =>
      (replaced.link hierarchy.toLinked link).2.2
  · intro child parent parentEntity link there
    obtain ⟨_, different, old⟩ := replaced.link hierarchy.toLinked link
    rw [replaced.entityAt different] at there
    exact hierarchy.uniform child parent parentEntity old there
  · intro other found there rootless
    by_cases same : other = position
    · subst same
      exact (replaced.neutral found there).2.2
    · rw [replaced.entityAt same] at there
      exact hierarchy.roots other found there rootless

end Replacing

omit [Scalar α] in
/-- A slot without a live entity has no children. -/
theorem Linked.unnamed_of_vacant {state : Snapshot α} (linked : Linked state)
    {position : Nat} (vacant : entityAt state position = none) (child : Nat) :
    ¬ Link state child position := by
  intro link
  obtain ⟨slot, entity, live, _⟩ := linked.parent_live link
  simp [entityAt, live] at vacant

omit [Scalar α] in
theorem unnamed_of_childless {state : Snapshot α} {position : Nat} {slot : Slot α}
    (present : state.slots[position]? = some slot)
    (childless : hasChildren state slot = false) (child : Nat) :
    ¬ Link state child position := by
  rintro ⟨childSlot, parentSlot, childPresent, parentPresent, isChild⟩
  rw [present, Option.some.injEq] at parentPresent
  subst parentPresent
  exact List.any_eq_false.mp childless childSlot (List.mem_of_getElem? childPresent)
    isChild

/-- A create fills a slot that held nothing. -/
theorem applyCreate_replaced
    {revision : UInt64} {operation : EntityCreate} {index : Nat}
    {staging next : Staging α} (linked : Linked staging.staged)
    (distinct : Distinct next.staged)
    (applied :
      applyCreate (plainContext revision) operation index staging () = .ok next ()) :
    ∃ position, entityAt staging.staged position = none ∧
      entityAt next.staged position = some (freshEntity operation revision) ∧
      Replaced staging.staged next.staged position := by
  obtain ⟨position, slot, base, _, _, allocated, _, _, same⟩ :=
    applyCreate_eq_ok.mp applied
  obtain ⟨free, here, elsewhere, _⟩ :=
    allocate_place allocated { slot with entity := some (freshEntity operation revision) }
  have vacant : entityAt staging.staged position = none := by simp [entityAt, free]
  have placed :
      next.staged =
        setSlot base position
          { slot with entity := some (freshEntity operation revision) } := by
    rw [same]
    rfl
  rw [← placed] at here elsewhere
  have filled : entityAt next.staged position = some (freshEntity operation revision) :=
    entityAt_eq_some.mpr ⟨_, here, rfl⟩
  refine ⟨position, vacant, filled, distinct, linked.unnamed_of_vacant vacant, ?_,
    elsewhere⟩
  intro entity there
  rw [filled, Option.some.injEq] at there
  subst there
  exact ⟨rfl, rfl, rfl⟩

/-- A delete empties a slot without children. -/
theorem applyDelete_replaced
    {revision : UInt64} {operation : EntityDelete} {index : Nat}
    {staging next : Staging α} (distinct : Distinct next.staged)
    (applied :
      applyDelete (plainContext revision) operation index staging () = .ok next ()) :
    ∃ position, entityAt next.staged position = none ∧
      Replaced staging.staged next.staged position := by
  obtain ⟨position, slot, entity, resolved, childless, _, same⟩ :=
    applyDelete_eq_ok.mp applied
  obtain ⟨present, _, _⟩ := resolve_live resolved
  have inside := (List.getElem?_eq_some_iff.mp present).1
  have empty : (emptied slot).entity = none := by
    unfold emptied
    split <;> rfl
  subst same
  have gone :
      entityAt (setSlot staging.staged position (emptied slot)) position = none := by
    simp [entityAt, liveAt, setSlot_same staging.staged (emptied slot) inside, empty]
  refine ⟨position, gone, distinct, unnamed_of_childless present childless, ?_, ?_⟩
  · intro found there
    rw [gone] at there
    exact absurd there (by simp)
  · intro other different
    exact setSlot_other _ _ (Ne.symm different)

/-! ## The operations -/

/-- A state of one world whose hierarchy is sound. -/
structure Sound (state : Snapshot α) : Prop where
  slots : ∃ worldId seed maxSlots, SlotsValid worldId seed maxSlots state
  hierarchy : Hierarchy state

omit [Scalar α] in
theorem SlotsValid.distinct {worldId : Text} {seed maxSlots : UInt32}
    {state : Snapshot α} (valid : SlotsValid worldId seed maxSlots state) :
    Distinct state := by
  intro first second firstSlot secondSlot firstPresent secondPresent sameUuid
  have firstInside := (List.getElem?_eq_some_iff.mp firstPresent).1
  have secondInside := (List.getElem?_eq_some_iff.mp secondPresent).1
  have small := valid.small
  have bounded := valid.bounded
  refine @uuid_injective seed first second (by omega) (by omega) ?_
  rw [← valid.uuids first firstSlot firstPresent,
    ← valid.uuids second secondSlot secondPresent]
  exact sameUuid

omit [Scalar α] in
theorem entityAt_of_live
    {state : Snapshot α} {position : Nat} {slot : Slot α} {entity : Entity α}
    (present : state.slots[position]? = some slot) (live : slot.entity = some entity) :
    entityAt state position = some entity :=
  entityAt_eq_some.mpr ⟨slot, present, live⟩

/-- The entity about to be walked is the only one whose scale is in doubt. -/
private theorem almost_of_rewrite
    {state : Snapshot α} (hierarchy : Hierarchy state) {position : Nat} {slot : Slot α}
    {entity next : Entity α} (live : liveAt state position = some (slot, entity))
    (linked : Linked (setEntity state position next))
    (neutral : next.parent = none → next.localTransform = Transform.default)
    (newParent :
      ∀ parent parentEntity,
        Link (setEntity state position next) position parent → parent ≠ position →
        entityAt state parent = some parentEntity →
        uniformScale parentEntity.transform = true) :
    AlmostHierarchy (setEntity state position next) position := by
  have present := (liveAt_eq_some.mp live).1
  refine ⟨linked, ?_, ?_⟩
  · intro child parent parentEntity link different there
    rw [entityAt_setEntity_other _ _ (Ne.symm different)] at there
    by_cases here : child = position
    · subst here
      exact newParent parent parentEntity link different there
    · exact hierarchy.uniform child parent parentEntity
        (setEntity_link_other live here link) there
  · intro other found there rootless
    by_cases here : position = other
    · subst here
      rw [entityAt_setEntity_same next present, Option.some.injEq] at there
      exact there ▸ neutral (there ▸ rootless)
    · rw [entityAt_setEntity_other _ _ here] at there
      exact hierarchy.roots other found there rootless

/-- `applyTransform` hands a fit state to the walk. -/
theorem transform_almost
    {state : Snapshot α} (hierarchy : Hierarchy state) {position : Nat} {slot : Slot α}
    {entity : Entity α} (live : liveAt state position = some (slot, entity))
    {replacement localTransform : Transform α} {path : Text} {index : Nat}
    (localOk :
      replacedLocal state slot entity replacement path index = .ok localTransform) :
    AlmostHierarchy
      (setEntity state position
        { entity with transform := replacement, localTransform := localTransform })
      position := by
  refine almost_of_rewrite hierarchy live
    (hierarchy.toLinked.rewrite live rfl) ?_ ?_
  · intro rootless
    rcases parentOf_linked hierarchy.toLinked live with
      ⟨none, _, _⟩ | ⟨parent, _, _, _, _, link⟩
    · simp only [replacedLocal, none, bind, Except.bind, Except.ok.injEq] at localOk
      rw [← localOk]
      exact hierarchy.roots position entity (by simp [entityAt, live]) rootless
    · obtain ⟨_, found, foundLive, some⟩ := link.child_live
      rw [live, Option.some.injEq, Prod.mk.injEq] at foundLive
      rw [← foundLive.2] at some
      change entity.parent = none at rootless
      rw [rootless] at some
      exact absurd some (by simp)
  · intro parent parentEntity link different there
    have old : Link state position parent := by
      refine (setEntity_link_same live ?_).mp link
      rfl
    exact hierarchy.uniform position parent parentEntity old there

/-- A reparent that succeeds names a parent that is not below the target. -/
theorem reparent_apart
    {state moved : Snapshot α} (linked : Linked state) {position place : Nat}
    {entity parentEntity : Entity α} {parentSlot : Slot α}
    (placeLive : liveAt state place = some (parentSlot, parentEntity))
    {mode path : Text} {index : Nat}
    (movedOk :
      reparent state position entity (some (place, parentSlot, parentEntity)) mode path
        index = .ok moved) :
    ¬ Forest.Above (Link state) place position := by
  have noCycle := (reparent_some_eq_ok.mp movedOk).1
  rcases @rejectCycle_linked α state linked position place parentSlot parentEntity
      path index placeLive with ⟨_, refused⟩ | ⟨apart, _⟩
  · rw [noCycle] at refused
    exact absurd refused (by simp)
  · exact apart

/-- `reparent` hands a fit state to the walk. -/
theorem reparent_almost
    {state moved : Snapshot α} (hierarchy : Hierarchy state) {position : Nat}
    {slot : Slot α} {entity : Entity α}
    (live : liveAt state position = some (slot, entity))
    {parent : Option (Nat × Slot α × Entity α)}
    (parentLive :
      ∀ place parentSlot parentEntity,
        parent = some (place, parentSlot, parentEntity) →
        liveAt state place = some (parentSlot, parentEntity) ∧
          parentSlot.retired = false)
    {mode path : Text} {index : Nat}
    (movedOk : reparent state position entity parent mode path index = .ok moved) :
    AlmostHierarchy moved position ∧ (entityAt moved position).isSome = true := by
  have present := (liveAt_eq_some.mp live).1
  rcases parent with _ | ⟨place, parentSlot, parentEntity⟩
  · have same := reparent_none_eq_ok.mp movedOk
    subst same
    refine ⟨almost_of_rewrite hierarchy live (hierarchy.toLinked.unlink live rfl)
      (fun _ => rfl) ?_, ?_⟩
    · intro found foundEntity link
      obtain ⟨_, _, named⟩ := setEntity_link_here live link
      exact absurd named (by simp)
    · simp [entityAt_setEntity_same _ present]
  · obtain ⟨placeLive, awake⟩ := parentLive place parentSlot parentEntity rfl
    have apart := reparent_apart hierarchy.toLinked placeLive movedOk
    obtain ⟨_, uniform, chosen⟩ := reparent_some_eq_ok.mp movedOk
    have fit {next : Entity α}
        (named :
          next.parent = some ⟨parentSlot.entityUuid, parentSlot.generation⟩) :
        AlmostHierarchy (setEntity state position next) position ∧
          (entityAt (setEntity state position next) position).isSome = true := by
      refine ⟨almost_of_rewrite hierarchy live
        (hierarchy.toLinked.relink live placeLive awake named apart) ?_ ?_, ?_⟩
      · intro rootless
        rw [named] at rootless
        exact absurd rootless (by simp)
      · intro found foundEntity link different there
        obtain ⟨foundSlot, foundPresent, foundNamed⟩ := setEntity_link_here live link
        rw [named, Option.some.injEq, ParentIdentity.mk.injEq] at foundNamed
        have here :=
          hierarchy.distinct place found parentSlot foundSlot
            (liveAt_eq_some.mp placeLive).1 foundPresent foundNamed.1
        subst here
        have same : foundEntity = parentEntity := by
          simpa [entityAt, placeLive] using there.symm
        exact same ▸ uniform
      · simp [entityAt_setEntity_same _ present]
    rcases chosen with ⟨_, _, _, same⟩ | ⟨_, _, _, same⟩
    · exact same ▸ fit rfl
    · exact same ▸ fit rfl

omit [Scalar α] in
theorem resolveParent_live
    {staged : Snapshot α} {operation : EntityReparent} {names : Names} {index : Nat}
    {parent : Option (Nat × Slot α × Entity α)}
    (resolved : resolveParent staged operation names index = .ok parent) :
    ∀ place parentSlot parentEntity,
      parent = some (place, parentSlot, parentEntity) →
      liveAt staged place = some (parentSlot, parentEntity) ∧
        parentSlot.retired = false := by
  intro place parentSlot parentEntity same
  subst same
  unfold resolveParent at resolved
  cases target : operation.parent with
  | none => simp [target] at resolved
  | some found =>
      simp only [target, map_eq_ok] at resolved
      obtain ⟨value, resolvedTarget, sameValue⟩ := resolved
      rw [Option.some.injEq] at sameValue
      subst sameValue
      obtain ⟨present, holds, awake⟩ := resolve_live resolvedTarget
      exact ⟨liveAt_eq_some.mpr ⟨present, holds⟩, awake⟩

/-! ## Refusals -/

/-- The texts of the two guards that a sound hierarchy never trips. -/
def brokenHierarchy : List Text :=
  [ascii "Parent generation is no longer live.", ascii "Hierarchy must be acyclic."]

/-- A computation whose errors are none of `messages`. -/
def Avoids {β : Type} (messages : List Text) (computation : Except Error β) : Prop :=
  ∀ error, computation = .error error → error.message ∉ messages

section Avoiding

variable {β γ : Type} {messages : List Text}

omit [Scalar α] in
theorem Avoids.bind {first : Except Error β} {next : β → Except Error γ}
    (before : Avoids messages first)
    (after : ∀ value, first = .ok value → Avoids messages (next value)) :
    Avoids messages (first >>= next) := by
  intro error raised
  rcases bind_eq_error.mp raised with early | ⟨value, done, late⟩
  · exact before error early
  · exact after value done error late

theorem Avoids.ok (value : β) : Avoids messages (.ok value) := by
  intro error raised
  exact absurd raised (by simp)

theorem Avoids.error {code message : String} {path : Text} {index : Option Nat}
    (outside : ascii message ∉ messages) :
    Avoids messages (.error (failure code path message index) : Except Error β) := by
  intro raised same
  rw [Except.error.injEq] at same
  exact same ▸ outside

theorem Avoids.rejectIf {condition : Bool} {code message : String} {path : Text}
    {index : Option Nat} (outside : ascii message ∉ messages) :
    Avoids messages (rejectIf condition (failure code path message index)) := by
  intro raised same
  exact (rejectIf_eq_error.mp same).2 ▸ outside

theorem Avoids.map {first : Except Error β} {next : β → γ}
    (before : Avoids messages first) :
    Avoids messages (next <$> first) := by
  intro error raised
  cases first with
  | error found =>
      cases raised
      exact before error rfl
  | ok value => cases raised

end Avoiding

/-- The texts no composition of transforms is refused with. -/
def hierarchyRefusals : List Text :=
  ascii "Reparenting must not create a cycle." :: brokenHierarchy

theorem parentScale_avoids (value : Transform α) (path : Text) (index : Nat) :
    Avoids hierarchyRefusals (parentScale value path index) :=
  Avoids.rejectIf (by decide)

theorem checked_avoids (value : Transform α) (path : Text) (index : Nat) :
    Avoids hierarchyRefusals (checked value path index) :=
  Avoids.bind (Avoids.rejectIf (by decide)) fun _ _ => Avoids.ok _

theorem compose_avoids (parent value : Transform α) (path : Text) (index : Nat) :
    Avoids hierarchyRefusals (compose parent value path index) :=
  Avoids.bind (parentScale_avoids parent path index) fun _ _ =>
    checked_avoids _ path index

theorem relative_avoids (parent value : Transform α) (path : Text) (index : Nat) :
    Avoids hierarchyRefusals (relative parent value path index) :=
  Avoids.bind (parentScale_avoids parent path index) fun _ _ =>
    checked_avoids _ path index

theorem subtree_avoids
    {base : Snapshot α} {root index : Nat} {path : Text} (linked : Linked base)
    (live : (entityAt base root).isSome = true) (revision : UInt64) :
    Avoids hierarchyRefusals (subtree base root revision path index) := by
  intro error raised
  rcases @subtree_walk α _ base root path index linked live revision with
    ⟨next, _, done, _⟩ | ⟨found, failed, parent, value, composed⟩
  · rw [raised] at done
    exact absurd done (by simp)
  · rw [raised, Except.error.injEq] at failed
    exact failed ▸ compose_avoids parent value path index found composed

theorem Avoids.mono {β : Type} {few many : List Text} {computation : Except Error β}
    (avoids : Avoids many computation)
    (fewer : ∀ message, message ∈ few → message ∈ many) :
    Avoids few computation :=
  fun error raised member => avoids error raised (fewer _ member)

private theorem sound_of_hierarchy {β : Type} {computation : Except Error β}
    (avoids : Avoids hierarchyRefusals computation) :
    Avoids brokenHierarchy computation :=
  avoids.mono fun _ member => List.mem_cons_of_mem _ member

theorem transform_avoids (operation : TransformSet α) (path : Text) (index : Nat) :
    Avoids brokenHierarchy (transform operation path index) :=
  Avoids.bind (Avoids.rejectIf (by decide)) fun _ _ =>
    Avoids.bind (Avoids.rejectIf (by decide)) fun _ _ => Avoids.ok _

omit [Scalar α] in
theorem resolve_avoids (staged : Snapshot α) (target : Target) (names : Names)
    (path : Text) (index : Nat) :
    Avoids brokenHierarchy (resolve staged target names path index) := by
  refine Avoids.bind ?_ fun pair _ => ?_
  · unfold identify
    split
    · split
      · exact Avoids.ok _
      · exact Avoids.error (by decide)
    · exact Avoids.ok _
  · refine Avoids.bind (Avoids.rejectIf (by decide)) fun _ _ => ?_
    split
    · exact Avoids.error (by decide)
    · dsimp only
      split
      · exact Avoids.error (by decide)
      · exact Avoids.bind (Avoids.rejectIf (by decide)) fun _ _ => Avoids.ok _

omit [Scalar α] in
theorem resolveParent_avoids (staged : Snapshot α) (operation : EntityReparent)
    (names : Names) (index : Nat) :
    Avoids brokenHierarchy (resolveParent staged operation names index) := by
  unfold resolveParent
  split
  · exact Avoids.ok _
  · exact Avoids.map (resolve_avoids _ _ _ _ _)

omit [Scalar α] in
theorem allocate_avoids (staged : Snapshot α) (path : Text) (index : Nat) :
    Avoids brokenHierarchy (allocate staged path index) := by
  unfold allocate
  split
  · exact Avoids.ok _
  · exact Avoids.bind (Avoids.rejectIf (by decide)) fun _ _ => Avoids.ok _

theorem matchBinding_avoids (bindings : Option (List CreatedBinding)) (count : Nat)
    (binding : CreatedBinding) (index : Nat) :
    Avoids brokenHierarchy (matchBinding bindings count binding index) := by
  unfold matchBinding
  split
  · exact Avoids.ok _
  · split
    · exact Avoids.error (by decide)
    · exact Avoids.rejectIf (by decide)

omit [Scalar α] in
theorem parentOf_avoids
    {state : Snapshot α} (linked : Linked state) {position : Nat} {slot : Slot α}
    {entity : Entity α} (live : liveAt state position = some (slot, entity))
    (messages : List Text) :
    Avoids messages (parentOf state slot) := by
  rcases parentOf_linked linked live with ⟨found, _⟩ | ⟨_, _, _, found, _⟩
  · exact found ▸ Avoids.ok _
  · exact found ▸ Avoids.ok _

theorem reparent_avoids
    {state : Snapshot α} {position : Nat} {entity : Entity α}
    {parent : Option (Nat × Slot α × Entity α)} {mode path : Text} {index : Nat}
    (acyclic :
      rejectCycle state position path index state.slots.length parent = .ok ()) :
    Avoids hierarchyRefusals
      (reparent state position entity parent mode path index) := by
  unfold reparent
  refine Avoids.bind (acyclic ▸ Avoids.ok _) fun _ _ => ?_
  rcases parent with _ | ⟨place, parentSlot, parentEntity⟩
  · exact Avoids.ok _
  · refine Avoids.bind (parentScale_avoids _ _ _) fun _ _ => ?_
    dsimp only
    split
    · exact Avoids.bind (relative_avoids _ _ _ _) fun _ _ => Avoids.ok _
    · exact Avoids.bind (compose_avoids _ _ _ _) fun _ _ => Avoids.ok _

/-- An exception one of the hook's staging callbacks can raise. -/
def StagingGuard.Raises {σ : Type} (hook : StagingGuard α σ) (thrown : Thrown) : Prop :=
  ∃ before after,
    (∃ position index, hook.create position index before = .error thrown after) ∨
      (∃ position old new index,
        hook.transform position old new index before = .error thrown after) ∨
      ∃ position old index, hook.erase position old index before = .error thrown after

/-- A stateful step whose own errors are none of `messages`; the hook's are
its own. -/
def Tame {β σ : Type} (messages : List Text) (guard : Option (StagingGuard α σ))
    (action : EStateM Thrown σ β) (state : σ) : Prop :=
  ∀ thrown final,
    action state = .error thrown final →
      (∃ hook, guard = some hook ∧ hook.Raises thrown) ∨
        ∀ error, thrown = .error error → error.message ∉ messages

section Taming

variable {β γ σ : Type} {messages : List Text} {guard : Option (StagingGuard α σ)}
  {state : σ}

omit [Scalar α] in
theorem Tame.bind {first : EStateM Thrown σ β} {next : β → EStateM Thrown σ γ}
    (before : Tame messages guard first state)
    (after :
      ∀ value middle,
        first state = .ok value middle → Tame messages guard (next value) middle) :
    Tame messages guard (first >>= next) state := by
  intro thrown final raised
  rcases stateful_bind_eq_error.mp raised with early | ⟨value, middle, done, late⟩
  · exact before thrown final early
  · exact after value middle done thrown final late

omit [Scalar α] in
theorem Tame.check {computation : Except Error β}
    (avoids : Avoids messages computation) :
    Tame messages guard (Transactions.check computation) state := by
  intro thrown final raised
  obtain ⟨⟨error, failed, same⟩, _⟩ := attempt_eq_error.mp raised
  refine Or.inr fun found wrapped => ?_
  rw [← same, Thrown.error.injEq] at wrapped
  exact wrapped ▸ avoids error failed

omit [Scalar α] in
theorem Tame.pure (value : β) :
    Tame messages guard (Pure.pure value : EStateM Thrown σ β) state := by
  intro thrown final raised
  cases raised

omit [Scalar α] in
theorem Tame.notify {context : Context α σ} {call : StagingGuard α σ → EStateM Thrown σ Unit}
    (raises :
      ∀ hook before after thrown,
        call hook before = .error thrown after → hook.Raises thrown) :
    Tame messages context.guard (context.notify call) state := by
  intro thrown final raised
  unfold Context.notify at raised
  cases present : context.guard with
  | none =>
      rw [present] at raised
      cases raised
  | some hook =>
      rw [present] at raised
      exact Or.inl ⟨hook, rfl, raises hook state final thrown raised⟩

end Taming

/-- No operation on a sound state trips the guards of `parent_of` and
`subtree`. -/
theorem applyOperation_tame
    {σ : Type} (context : Context α σ) (operation : Operation α) (index : Nat)
    {staging : Staging α} (hierarchy : Hierarchy staging.staged) (state : σ) :
    Tame brokenHierarchy context.guard
      (applyOperation context operation index staging) state := by
  cases operation with
  | entityCreate operation =>
      refine Tame.bind (Tame.check (Avoids.rejectIf (by decide))) fun _ _ _ => ?_
      refine Tame.bind (Tame.check (Avoids.rejectIf (by decide))) fun _ _ _ => ?_
      refine Tame.bind (Tame.check (allocate_avoids _ _ _)) fun _ _ _ => ?_
      refine Tame.bind (Tame.notify ?_) fun _ _ _ => ?_
      · intro hook before after thrown raised
        exact ⟨before, after, Or.inl ⟨_, _, raised⟩⟩
      refine Tame.bind (Tame.check (matchBinding_avoids _ _ _ _)) fun _ _ _ => ?_
      exact Tame.pure _
  | transformSet operation =>
      refine Tame.bind (Tame.check (transform_avoids _ _ _)) fun replacement _ _ => ?_
      refine Tame.bind (Tame.check (resolve_avoids _ _ _ _ _)) fun place _ found => ?_
      obtain ⟨position, slot, entity⟩ := place
      obtain ⟨present, holds, _⟩ := resolve_live (check_eq_ok.mp found).1
      have live := liveAt_eq_some.mpr ⟨present, holds⟩
      refine Tame.bind (Tame.notify ?_) fun _ _ _ => ?_
      · intro hook before after thrown raised
        exact ⟨before, after, Or.inr (Or.inl ⟨_, _, _, _, raised⟩)⟩
      refine Tame.bind (Tame.check ?_) fun _ _ _ => ?_
      · split
        · exact sound_of_hierarchy (parentScale_avoids _ _ _)
        · exact Avoids.ok _
      refine Tame.bind (Tame.check (parentOf_avoids hierarchy.toLinked live _))
        fun parent _ parented => ?_
      refine Tame.bind (Tame.check ?_) fun localTransform _ localOk => ?_
      · split
        · exact sound_of_hierarchy (relative_avoids _ _ _ _)
        · exact Avoids.ok _
      have localFound :
          replacedLocal staging.staged slot entity replacement (operationPath index)
            index = .ok localTransform := by
        rw [replacedLocal, bind_eq_ok]
        exact ⟨parent, (check_eq_ok.mp parented).1, (check_eq_ok.mp localOk).1⟩
      refine Tame.bind (Tame.check ?_) fun _ _ _ => Tame.pure _
      exact sound_of_hierarchy <|
        subtree_avoids (transform_almost hierarchy live localFound).toLinked
          (by simp [entityAt_setEntity_same _ present]) _
  | entityTagsSet operation =>
      exact Tame.bind (Tame.check (resolve_avoids _ _ _ _ _)) fun _ _ _ => Tame.pure _
  | entityReparent operation =>
      refine Tame.bind (Tame.check (resolve_avoids _ _ _ _ _)) fun place _ found => ?_
      obtain ⟨position, slot, entity⟩ := place
      obtain ⟨present, holds, _⟩ := resolve_live (check_eq_ok.mp found).1
      have live := liveAt_eq_some.mpr ⟨present, holds⟩
      refine Tame.bind (Tame.check (resolveParent_avoids _ _ _ _))
        fun parent _ parented => ?_
      have parentLive :=
        @resolveParent_live α staging.staged operation staging.names index parent
          (check_eq_ok.mp parented).1
      refine Tame.bind (Tame.check ?_) fun moved _ movedOk => ?_
      · cases acyclic :
            rejectCycle staging.staged position (operationPath index) index
              staging.staged.slots.length parent with
        | ok _ => exact sound_of_hierarchy (reparent_avoids acyclic)
        | error error =>
            have refused :
                reparent staging.staged position entity parent operation.mode
                  (operationPath index) index = .error error := by
              simp [reparent, acyclic, bind, Except.bind]
            rw [refused]
            rcases parent with _ | ⟨place, parentSlot, parentEntity⟩
            · cases length : staging.staged.slots.length <;>
                simp [length, rejectCycle] at acyclic
            · rcases @rejectCycle_linked α staging.staged hierarchy.toLinked position
                  place parentSlot parentEntity (operationPath index) index
                  (parentLive place parentSlot parentEntity rfl).1 with
                ⟨_, same⟩ | ⟨_, same⟩
              · rw [acyclic, Except.error.injEq] at same
                rw [same]
                exact Avoids.error (by decide)
              · rw [acyclic] at same
                exact absurd same (by simp)
      obtain ⟨almost, rootLive⟩ :=
        reparent_almost hierarchy live parentLive (check_eq_ok.mp movedOk).1
      refine Tame.bind (Tame.check ?_) fun _ _ _ => Tame.pure _
      exact sound_of_hierarchy (subtree_avoids almost.toLinked rootLive _)
  | entityDelete operation =>
      refine Tame.bind (Tame.check (resolve_avoids _ _ _ _ _)) fun place _ _ => ?_
      refine Tame.bind (Tame.check (Avoids.rejectIf (by decide))) fun _ _ _ => ?_
      refine Tame.bind (Tame.notify ?_) fun _ _ _ => Tame.pure _
      intro hook before after thrown raised
      exact ⟨before, after, Or.inr (Or.inr ⟨_, _, _, raised⟩)⟩

/-- Every operation keeps the hierarchy. -/
theorem Sound.step
    {revision : UInt64} {operation : Operation α} {index : Nat}
    {staging next : Staging α} (sound : Sound staging.staged)
    (applied :
      applyOperation (plainContext revision) operation index staging () =
        .ok next ()) :
    Sound next.staged := by
  obtain ⟨worldId, seed, maxSlots, valid⟩ := sound.slots
  have nextValid := (moment_step valid applied).2
  refine ⟨⟨worldId, seed, maxSlots, nextValid⟩, ?_⟩
  have hierarchy := sound.hierarchy
  cases operation with
  | entityCreate operation =>
      obtain ⟨_, _, _, replaced⟩ :=
        applyCreate_replaced hierarchy.toLinked nextValid.distinct applied
      exact replaced.hierarchy hierarchy
  | transformSet operation =>
      obtain ⟨replacement, position, slot, entity, localTransform, staged, _, resolved,
        _, _, localOk, spread, same⟩ := applyTransform_eq_ok.mp applied
      obtain ⟨present, holds, _⟩ := resolve_live resolved
      have live := liveAt_eq_some.mpr ⟨present, holds⟩
      subst same
      exact subtree_hierarchy (transform_almost hierarchy live localOk)
        (by simp [entityAt_setEntity_same _ present]) spread
  | entityDelete operation =>
      obtain ⟨_, _, replaced⟩ := applyDelete_replaced nextValid.distinct applied
      exact replaced.hierarchy hierarchy
  | entityReparent operation =>
      obtain ⟨position, slot, entity, parent, moved, staged, resolved, parented,
        movedOk, spread, _, same⟩ := applyReparent_eq_ok.mp applied
      obtain ⟨present, holds, _⟩ := resolve_live resolved
      have live := liveAt_eq_some.mpr ⟨present, holds⟩
      subst same
      obtain ⟨almost, rootLive⟩ :=
        reparent_almost hierarchy live (resolveParent_live parented) movedOk
      exact subtree_hierarchy almost rootLive spread
  | entityTagsSet operation =>
      obtain ⟨position, slot, entity, resolved, _, same⟩ :=
        applyTagsSet_eq_ok.mp applied
      obtain ⟨present, holds, _⟩ := resolve_live resolved
      have live := liveAt_eq_some.mpr ⟨present, holds⟩
      subst same
      have there : entityAt staging.staged position = some entity := by
        simp [entityAt, live]
      refine ⟨hierarchy.toLinked.rewrite live rfl, ?_, ?_⟩
      · intro child parent parentEntity link found
        have old : Link staging.staged child parent := by
          refine (setEntity_link_same live ?_).mp link
          rfl
        by_cases here : position = parent
        · subst here
          rw [entityAt_setEntity_same _ present, Option.some.injEq] at found
          subst found
          exact hierarchy.uniform child position entity old there
        · rw [entityAt_setEntity_other _ _ here] at found
          exact hierarchy.uniform child parent parentEntity old found
      · intro other found held rootless
        by_cases here : position = other
        · subst here
          rw [entityAt_setEntity_same _ present, Option.some.injEq] at held
          subst held
          exact hierarchy.roots position entity there rootless
        · rw [entityAt_setEntity_other _ _ here] at held
          exact hierarchy.roots other found held rootless

/-! ## Every batch on every reachable world -/

/-- A staging that the first operations of some batch reach from `state`, under
any hook and any recorded mapping. -/
def StagedFrom (state : Snapshot α) (staging : Staging α) : Prop :=
  ∃ (σ : Type) (context : Context α σ) (operations : List (Operation α))
    (before after : σ),
    applyOperations context operations 0 ⟨state, [], []⟩ before = .ok staging after

/-- What the hierarchy guarantees to the next operation of a batch. -/
structure SoundBatch (staging : Staging α) : Prop where
  hierarchy : Hierarchy staging.staged
  parents :
    ∀ position slot entity,
      liveAt staging.staged position = some (slot, entity) →
      ∃ parent, parentOf staging.staged slot = .ok parent
  /-- No operation reports a dead parent link or an exceeded traversal. -/
  tame :
    ∀ {σ : Type} (context : Context α σ) (operation : Operation α) (index : Nat)
      (state : σ),
      Tame brokenHierarchy context.guard
        (applyOperation context operation index staging) state
  /-- A resolved reparent is refused as a cycle exactly when it would be one. -/
  cycles :
    ∀ {σ : Type} (context : Context α σ) (operation : EntityReparent)
      (target : Target) (index : Nat) (state : σ) (position parent : Nat)
      (slot parentSlot : Slot α) (entity parentEntity : Entity α),
      resolve staging.staged operation.target staging.names
          (operationPath index ++ ascii "/target") index =
        .ok (position, slot, entity) →
      operation.parent = some target →
      resolve staging.staged target staging.names
          (operationPath index ++ ascii "/parent") index =
        .ok (parent, parentSlot, parentEntity) →
      (applyReparent context operation index staging state =
          .error (.error (cycleError (operationPath index) index)) state ↔
        Forest.Above (Link staging.staged) parent position)

theorem applyReparent_cycle
    {staging : Staging α} (hierarchy : Hierarchy staging.staged) {σ : Type}
    {context : Context α σ} {operation : EntityReparent} {target : Target}
    {index : Nat} {state : σ} {position parent : Nat} {slot parentSlot : Slot α}
    {entity parentEntity : Entity α}
    (resolved :
      resolve staging.staged operation.target staging.names
          (operationPath index ++ ascii "/target") index =
        .ok (position, slot, entity))
    (named : operation.parent = some target)
    (parentResolved :
      resolve staging.staged target staging.names
          (operationPath index ++ ascii "/parent") index =
        .ok (parent, parentSlot, parentEntity)) :
    applyReparent context operation index staging state =
        .error (.error (cycleError (operationPath index) index)) state ↔
      Forest.Above (Link staging.staged) parent position := by
  obtain ⟨present, holds, _⟩ := resolve_live resolved
  obtain ⟨parentPresent, parentHolds, _⟩ := resolve_live parentResolved
  have live := liveAt_eq_some.mpr ⟨present, holds⟩
  have parentLive := liveAt_eq_some.mpr ⟨parentPresent, parentHolds⟩
  have parentFound :
      resolveParent staging.staged operation staging.names index =
        .ok (some (parent, parentSlot, parentEntity)) := by
    simp only [resolveParent, named, parentResolved]
    rfl
  rcases @rejectCycle_linked α staging.staged hierarchy.toLinked position parent
      parentSlot parentEntity (operationPath index) index parentLive with
    ⟨above, refused⟩ | ⟨apart, acyclic⟩
  · refine iff_of_true ?_ above
    have stopped :
        reparent staging.staged position entity
            (some (parent, parentSlot, parentEntity)) operation.mode
            (operationPath index) index =
          .error (cycleError (operationPath index) index) := by
      simp [reparent, refused, bind, Except.bind]
    refine stateful_bind_eq_error.mpr (Or.inr ⟨(position, slot, entity), state,
      check_eq_ok.mpr ⟨resolved, rfl⟩, ?_⟩)
    refine stateful_bind_eq_error.mpr (Or.inr
      ⟨some (parent, parentSlot, parentEntity), state,
        check_eq_ok.mpr ⟨parentFound, rfl⟩, ?_⟩)
    exact stateful_bind_eq_error.mpr
      (Or.inl (attempt_eq_error.mpr ⟨⟨_, stopped, rfl⟩, rfl⟩))
  · refine iff_of_false ?_ apart
    have calm :
        Tame hierarchyRefusals (none : Option (StagingGuard α σ))
          (applyReparent context operation index staging) state := by
      refine Tame.bind (Tame.check (resolved ▸ Avoids.ok _)) fun place _ found => ?_
      have foundHere := (check_eq_ok.mp found).1
      rw [resolved, Except.ok.injEq] at foundHere
      subst foundHere
      refine Tame.bind (Tame.check (parentFound ▸ Avoids.ok _)) fun above _ found => ?_
      have aboveHere := (check_eq_ok.mp found).1
      rw [parentFound, Except.ok.injEq] at aboveHere
      subst aboveHere
      refine Tame.bind (Tame.check (reparent_avoids acyclic)) fun moved _ movedOk => ?_
      obtain ⟨almost, rootLive⟩ :=
        reparent_almost hierarchy live (resolveParent_live parentFound)
          (check_eq_ok.mp movedOk).1
      exact Tame.bind (Tame.check (subtree_avoids almost.toLinked rootLive _))
        fun _ _ _ => Tame.pure _
    intro refused
    rcases calm _ _ refused with ⟨_, absent, _⟩ | outside
    · exact absurd absent (by simp)
    · exact outside _ rfl (by simp [cycleError, failure, hierarchyRefusals])

theorem Sound.batch {staging : Staging α} (sound : Sound staging.staged) :
    SoundBatch staging where
  hierarchy := sound.hierarchy
  parents := by
    intro position slot entity live
    rcases parentOf_linked sound.hierarchy.toLinked live with
      ⟨found, _⟩ | ⟨_, _, _, found, _⟩
    · exact ⟨_, found⟩
    · exact ⟨_, found⟩
  tame context operation index state :=
    applyOperation_tame context operation index sound.hierarchy state
  cycles _ _ _ _ _ _ _ _ _ _ _ resolved named parentResolved :=
    applyReparent_cycle sound.hierarchy resolved named parentResolved

theorem Sound.fresh {worldId : Text} {seed maxSlots : UInt32} {state : Snapshot α}
    (created : create worldId seed maxSlots = .ok state) : Sound state := by
  obtain ⟨_, _, small, same⟩ := create_eq_ok.mp created
  have empty : state.slots = [] := by rw [same]
  have noSlot {position : Nat} {slot : Slot α} :
      ¬ state.slots[position]? = some slot := by
    rw [empty]
    simp
  refine ⟨⟨worldId, seed, maxSlots, ?_⟩, ⟨⟨?_, ?_, ?_⟩, ?_, ?_⟩⟩
  · refine ⟨by rw [same], by rw [same], by rw [same],
      UInt32.le_iff_toNat_le.mp small, by rw [empty]; exact Nat.zero_le _, ?_⟩
    intro position slot present
    exact absurd present noSlot
  · intro first second firstSlot secondSlot present
    exact absurd present noSlot
  · intro child childSlot childEntity link live
    exact absurd (liveAt_eq_some.mp live).1 noSlot
  · intro position cycle
    rcases TransGen.head'_iff.mp cycle with ⟨_, link, _⟩
    obtain ⟨_, _, present, _⟩ := link
    exact noSlot present
  · intro child parent parentEntity link
    obtain ⟨_, _, present, _⟩ := link
    exact absurd present noSlot
  · intro position entity there
    obtain ⟨_, present, _⟩ := entityAt_eq_some.mp there
    exact absurd present noSlot

/-- The format and the revision are no part of the hierarchy. -/
theorem Sound.relabel {state : Snapshot α} (sound : Sound state)
    (formatVersion : UInt32) (worldRevision : UInt64) :
    Sound
      { state with formatVersion := formatVersion, worldRevision := worldRevision } := by
  obtain ⟨⟨worldId, seed, maxSlots, valid⟩, hierarchy⟩ := sound
  refine ⟨⟨worldId, seed, maxSlots, valid.worldId_eq, valid.seed_eq,
    valid.maxSlots_eq, valid.small, valid.bounded, valid.uuids⟩,
    ⟨⟨hierarchy.distinct, hierarchy.links, hierarchy.acyclic⟩, hierarchy.uniform,
      hierarchy.roots⟩⟩

theorem ReachableBy.sound {library : JsonLibrary α} {allowed : Envelope α → Prop}
    {world : LiveWorld α} (reachable : ReachableBy library allowed world) :
    Sound world.state := by
  refine reachable.invariant (fun _ _ _ _ created => Sound.fresh created) ?_
  intro state envelope next created _ sound committed
  exact committed.invariant
    (fun _ _ _ _ _ current applied => current.step applied)
    (fun _ formatVersion worldRevision current =>
      current.relabel formatVersion worldRevision) sound

theorem StagedFrom.sound {state : Snapshot α} {staging : Staging α}
    (staged : StagedFrom state staging) (sound : Sound state) :
    Sound staging.staged := by
  obtain ⟨σ, context, operations, before, after, applied⟩ := staged
  exact @applyOperations_invariant α _ Unit (plainContext context.revision)
    (fun staging => Sound staging.staged) operations
    (fun operation index current next _ _ _ holds stepped => holds.step stepped)
    0 ⟨state, [], []⟩ staging () () sound (applyOperations_plain applied)

/-- In every reachable world the hierarchy is a forest, and every batch finds
it so at each of its operations. -/
theorem hierarchy_reachable {library : JsonLibrary α} {world : LiveWorld α}
    (reachable : Reachable library world) :
    Hierarchy world.state ∧
      ∀ staging, StagedFrom world.state staging → SoundBatch staging :=
  ⟨reachable.sound.hierarchy,
    fun _ staged => (staged.sound reachable.sound).batch⟩

/-- Two cubes, the second under the first. -/
def createPair : Envelope Halves :=
  sampleEnvelope 0
    [sampleCreate "a", sampleCreate "b",
      .entityReparent ⟨sampleName "b", some (sampleName "a"), ascii "preserve_world"⟩]

set_option maxRecDepth 20000 in
theorem hierarchy_reachable_pair :
    let world := (sampleApply sampleWorld createPair).world
    world.state.slots.map slotHasParent = [false, true] ∧ Hierarchy world.state ∧
      ∀ staging, StagedFrom world.state staging → SoundBatch staging :=
  ⟨rfl,
    @hierarchy_reachable Halves _ JsonText.library _
      (ReachableBy.call createPair none none none () () trivial
        (@ReachableBy.fresh Halves _ _ _ 1 (ascii "world") 7 4 sampleWorld.state rfl))⟩

end Omniweft.Transactions
