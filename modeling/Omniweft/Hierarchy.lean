import Omniweft.Library.Forest
import Omniweft.TransactionsSteps

/-!
# The hierarchy of a snapshot

Parent links between slot positions, the states whose links form a forest, and
what `parent_of`, the ancestor walk of `reparent` and the walk of `subtree` do
on them.
-/

namespace Omniweft.Transactions

open Omniweft.Outcome World Commands Relation

section Links

variable {α : Type}

theorem childOf_eq_true {child parent : Slot α} :
    childOf child parent = true ↔
      child.entity.bind Entity.parent =
        some ⟨parent.entityUuid, parent.generation⟩ := by
  unfold childOf
  cases child.entity with
  | none => simp
  | some entity =>
      cases named : entity.parent with
      | none => simp [named]
      | some link =>
          obtain ⟨entityUuid, generation⟩ := link
          simp [named]

/-- The slot at `child` names the slot at `parent`, generation included. -/
def Link (state : Snapshot α) (child parent : Nat) : Prop :=
  ∃ childSlot parentSlot,
    state.slots[child]? = some childSlot ∧ state.slots[parent]? = some parentSlot ∧
      childOf childSlot parentSlot = true

def Distinct (state : Snapshot α) : Prop :=
  ∀ (first second : Nat) (firstSlot secondSlot : Slot α),
    state.slots[first]? = some firstSlot → state.slots[second]? = some secondSlot →
    firstSlot.entityUuid = secondSlot.entityUuid → first = second

/-- Every parent link names a slot that is live at the recorded generation, and
no entity is its own ancestor. -/
structure Linked (state : Snapshot α) : Prop where
  distinct : Distinct state
  links :
    ∀ child childSlot childEntity link,
      liveAt state child = some (childSlot, childEntity) →
      childEntity.parent = some link →
      ∃ parent parentSlot parentEntity,
        liveAt state parent = some (parentSlot, parentEntity) ∧
          parentSlot.retired = false ∧
          parentSlot.entityUuid = link.entityUuid ∧
          parentSlot.generation = link.generation
  acyclic : Forest.Acyclic (Link state)

theorem Distinct.unique {state : Snapshot α} (distinct : Distinct state) :
    Forest.Unique (Link state) := by
  intro child first second firstLink secondLink
  obtain ⟨childSlot, firstSlot, childPresent, firstPresent, firstChild⟩ := firstLink
  obtain ⟨childSlot', secondSlot, childPresent', secondPresent, secondChild⟩ :=
    secondLink
  rw [childPresent, Option.some.injEq] at childPresent'
  subst childPresent'
  rw [childOf_eq_true] at firstChild secondChild
  rw [firstChild, Option.some.injEq, ParentIdentity.mk.injEq] at secondChild
  exact distinct first second firstSlot secondSlot firstPresent secondPresent
    secondChild.1

theorem Link.child_live {state : Snapshot α} {child parent : Nat}
    (link : Link state child parent) :
    ∃ slot entity,
      liveAt state child = some (slot, entity) ∧ entity.parent.isSome = true := by
  obtain ⟨childSlot, parentSlot, present, _, child⟩ := link
  rw [childOf_eq_true] at child
  obtain ⟨entity, live, named⟩ := Option.bind_eq_some_iff.mp child
  exact ⟨childSlot, entity, liveAt_eq_some.mpr ⟨present, live⟩, by simp [named]⟩

/-- The parent a link reaches is live. -/
theorem Linked.parent_live {state : Snapshot α} (linked : Linked state)
    {child parent : Nat} (link : Link state child parent) :
    ∃ slot entity,
      liveAt state parent = some (slot, entity) ∧ slot.retired = false := by
  obtain ⟨childSlot, parentSlot, childPresent, parentPresent, child⟩ := link
  rw [childOf_eq_true] at child
  obtain ⟨entity, live, named⟩ := Option.bind_eq_some_iff.mp child
  obtain ⟨found, foundSlot, foundEntity, foundLive, awake, sameUuid, _⟩ :=
    linked.links _ _ _ _ (liveAt_eq_some.mpr ⟨childPresent, live⟩) named
  have here :=
    linked.distinct found parent foundSlot parentSlot
      (liveAt_eq_some.mp foundLive).1 parentPresent sameUuid
  exact ⟨foundSlot, foundEntity, here ▸ foundLive, awake⟩

end Links

section Parents

variable {α : Type} [Scalar α]

omit [Scalar α] in
/-- On linked states `parent_of` finds the parent of every child. -/
theorem parentOf_linked
    {state : Snapshot α} (linked : Linked state) {child : Nat} {childSlot : Slot α}
    {childEntity : Entity α}
    (live : liveAt state child = some (childSlot, childEntity)) :
    (parentOf state childSlot = .ok none ∧ childEntity.parent = none ∧
        ∀ parent, ¬ Link state child parent) ∨
      ∃ parent parentSlot parentEntity,
        parentOf state childSlot = .ok (some (parent, parentSlot, parentEntity)) ∧
          liveAt state parent = some (parentSlot, parentEntity) ∧
          Link state child parent := by
  obtain ⟨present, holds⟩ := liveAt_eq_some.mp live
  cases named : childEntity.parent with
  | none =>
      refine Or.inl ⟨by simp [parentOf, holds, named], rfl, ?_⟩
      intro parent link
      obtain ⟨otherSlot, otherEntity, otherLive, some⟩ := link.child_live
      rw [live, Option.some.injEq, Prod.mk.injEq] at otherLive
      rw [← otherLive.2, named] at some
      exact absurd some (by simp)
  | some link =>
      obtain ⟨parent, parentSlot, parentEntity, parentLive, awake, sameUuid,
        sameGeneration⟩ := linked.links child childSlot childEntity link live named
      obtain ⟨parentPresent, parentHolds⟩ := liveAt_eq_some.mp parentLive
      have isChild : childOf childSlot parentSlot = true := by
        rw [childOf_eq_true, holds]
        simp [named, sameUuid, sameGeneration]
      have passes :
          (parentSlot.entity.isSome && !parentSlot.retired &&
            childOf childSlot parentSlot) = true := by
        simp [parentHolds, awake, isChild]
      refine Or.inr ⟨parent, parentSlot, parentEntity, ?_, parentLive,
        childSlot, parentSlot, present, parentPresent, isChild⟩
      have located :
          locate state.slots
              (fun parent =>
                parent.entity.isSome && !parent.retired && childOf childSlot parent) =
            some (parent, parentSlot) := by
        refine locate_eq_some.mpr ⟨parentPresent, passes, ?_⟩
        intro earlier other before otherPresent
        have stranger : childOf childSlot other = false := by
          cases another : childOf childSlot other with
          | false => rfl
          | true =>
              have same :=
                linked.distinct.unique child earlier parent
                  ⟨childSlot, other, present, otherPresent, another⟩
                  ⟨childSlot, parentSlot, present, parentPresent, isChild⟩
              omega
        simp [stranger]
      simp [parentOf, holds, named, located, parentHolds]

/-- The refusal of a reparent that would close a cycle. -/
def cycleError (path : Text) (index : Nat) : Error :=
  failure "INVALID_SCHEMA" (path ++ ascii "/parent")
    "Reparenting must not create a cycle." index

omit [Scalar α] in
/-- The ancestor walk refuses exactly when it meets `slot`; the bound on its
steps is never the reason. -/
theorem rejectCycle_linked
    {state : Snapshot α} (linked : Linked state) {slot start : Nat}
    {startSlot : Slot α} {startEntity : Entity α} {path : Text} {index : Nat}
    (live : liveAt state start = some (startSlot, startEntity)) :
    (Forest.Above (Link state) start slot ∧
        rejectCycle state slot path index state.slots.length
            (some (start, startSlot, startEntity)) = .error (cycleError path index)) ∨
      (¬ Forest.Above (Link state) start slot ∧
        rejectCycle state slot path index state.slots.length
            (some (start, startSlot, startEntity)) = .ok ()) := by
  have inside {position : Nat} {found : Slot α} {entity : Entity α}
      (live : liveAt state position = some (found, entity)) :
      position < state.slots.length :=
    (List.getElem?_eq_some_iff.mp (liveAt_eq_some.mp live).1).1
  have climbing :
      ∀ (remaining : Nat) (passed : List Nat) (current : Nat) (currentSlot : Slot α)
        (currentEntity : Entity α),
        Forest.Climb (Link state) passed current →
        (∀ item, item ∈ passed → item < state.slots.length) →
        passed.length + remaining = state.slots.length →
        liveAt state current = some (currentSlot, currentEntity) →
        (Forest.Above (Link state) current slot ∧
            rejectCycle state slot path index remaining
                (some (current, currentSlot, currentEntity)) =
              .error (cycleError path index)) ∨
          (¬ Forest.Above (Link state) current slot ∧
            rejectCycle state slot path index remaining
              (some (current, currentSlot, currentEntity)) = .ok ()) := by
    intro remaining
    induction remaining with
    | zero =>
        intro passed current currentSlot currentEntity climb bounded total live
        have short :=
          @Forest.Climb.length_lt _ linked.acyclic passed current state.slots.length
            climb (by
              intro item member
              rcases List.mem_cons.mp member with here | earlier
              · exact here ▸ inside live
              · exact bounded item earlier)
        omega
    | succ remaining inductionHypothesis =>
        intro passed current currentSlot currentEntity climb bounded total live
        by_cases here : current = slot
        · refine Or.inl ⟨here ▸ ReflTransGen.refl, ?_⟩
          simp [rejectCycle, here, cycleError]
        · rcases parentOf_linked linked live with
            ⟨none, _, rootless⟩ | ⟨parent, parentSlot, parentEntity, found, parentLive, link⟩
          · refine Or.inr ⟨?_, ?_⟩
            · intro above
              rcases ReflTransGen.cases_head above with same | ⟨next, step, _⟩
              · exact here same
              · exact rootless next step
            · cases remaining with
              | zero => simp [rejectCycle, here, none, bind, Except.bind]
              | succ remaining => simp [rejectCycle, here, none, bind, Except.bind]
          · have walked :
                rejectCycle state slot path index (remaining + 1)
                    (some (current, currentSlot, currentEntity)) =
                  rejectCycle state slot path index remaining
                    (some (parent, parentSlot, parentEntity)) := by
              simp [rejectCycle, here, found, bind, Except.bind]
            have through :
                Forest.Above (Link state) current slot ↔
                  Forest.Above (Link state) parent slot := by
              constructor
              · intro above
                rcases ReflTransGen.cases_head above with same | ⟨next, step, rest⟩
                · exact absurd same here
                · exact linked.distinct.unique current next parent step link ▸ rest
              · intro above
                exact ReflTransGen.head link above
            rw [walked, through]
            refine inductionHypothesis (current :: passed) parent parentSlot
              parentEntity (climb.next linked.acyclic link) ?_ ?_ parentLive
            · intro item member
              rcases List.mem_cons.mp member with same | earlier
              · exact same ▸ inside live
              · exact bounded item earlier
            · rw [List.length_cons]
              omega
  exact
    climbing state.slots.length [] start startSlot startEntity
      (Forest.Climb.start _ start) (by simp) (by simp) live

/-- A slot without the two fields the walk writes. -/
def skeleton (slot : Slot α) : Slot α :=
  { slot with
    entity := slot.entity.map fun entity =>
      { entity with authoringRevision := 0, transform := Transform.default } }

def entityAt (state : Snapshot α) (position : Nat) : Option (Entity α) :=
  (liveAt state position).map Prod.snd

omit [Scalar α] in
theorem entityAt_eq_some
    {state : Snapshot α} {position : Nat} {entity : Entity α} :
    entityAt state position = some entity ↔
      ∃ slot, state.slots[position]? = some slot ∧ slot.entity = some entity := by
  unfold entityAt
  rw [Option.map_eq_some_iff]
  constructor
  · rintro ⟨⟨slot, found⟩, live, same⟩
    exact ⟨slot, same ▸ liveAt_eq_some.mp live⟩
  · rintro ⟨slot, present, live⟩
    exact ⟨(slot, entity), liveAt_eq_some.mpr ⟨present, live⟩, rfl⟩

/-- A child's stored transform is its parent's composed with its own local one. -/
def Coherent (state : Snapshot α) (path : Text) (index child : Nat) : Prop :=
  ∀ parent childEntity parentEntity,
    Link state child parent →
    entityAt state child = some childEntity →
    entityAt state parent = some parentEntity →
    compose parentEntity.transform childEntity.localTransform path index =
      .ok childEntity.transform

/-- The same slots, up to transforms and revisions. -/
def SameSkeleton (state next : Snapshot α) : Prop :=
  next.slots.map skeleton = state.slots.map skeleton

theorem SameSkeleton.slot
    {state next : Snapshot α} (same : SameSkeleton state next) {position : Nat}
    {slot : Slot α} (present : state.slots[position]? = some slot) :
    ∃ other,
      next.slots[position]? = some other ∧ skeleton other = skeleton slot := by
  have places := congrArg (fun slots => slots[position]?) same
  simp only [List.getElem?_map, present, Option.map_some] at places
  exact Option.map_eq_some_iff.mp places

theorem SameSkeleton.symm {state next : Snapshot α} (same : SameSkeleton state next) :
    SameSkeleton next state :=
  Eq.symm same

theorem SameSkeleton.length {state next : Snapshot α}
    (same : SameSkeleton state next) :
    next.slots.length = state.slots.length := by
  simpa using congrArg List.length same

theorem skeleton_fields {slot other : Slot α} (same : skeleton other = skeleton slot) :
    other.entityUuid = slot.entityUuid ∧ other.generation = slot.generation ∧
      other.retired = slot.retired ∧
      other.entity.bind Entity.parent = slot.entity.bind Entity.parent := by
  obtain ⟨entityUuid, generation, retired, entity⟩ := slot
  obtain ⟨entityUuid', generation', retired', entity'⟩ := other
  simp only [skeleton, Slot.mk.injEq] at same
  obtain ⟨sameUuid, sameGeneration, sameRetired, sameEntity⟩ := same
  refine ⟨sameUuid, sameGeneration, sameRetired, ?_⟩
  cases entity with
  | none =>
      cases entity' with
      | none => rfl
      | some found => simp at sameEntity
  | some held =>
      cases entity' with
      | none => simp at sameEntity
      | some found =>
          simp only [Option.map_some, Option.some.injEq, Entity.mk.injEq] at sameEntity
          exact sameEntity.2.2.2.1

/-- The entity on the other side of a shared skeleton. -/
theorem skeleton_entity {slot other : Slot α} (same : skeleton other = skeleton slot)
    {entity : Entity α} (live : slot.entity = some entity) :
    ∃ found,
      other.entity = some found ∧ found.prefabId = entity.prefabId ∧
        found.parent = entity.parent ∧
        found.localTransform = entity.localTransform ∧ found.tags = entity.tags := by
  have sameEntity := congrArg Slot.entity same
  simp only [skeleton, live, Option.map_some] at sameEntity
  obtain ⟨found, foundLive, sameFields⟩ := Option.map_eq_some_iff.mp sameEntity
  rw [Entity.mk.injEq] at sameFields
  exact ⟨found, foundLive, sameFields.1, sameFields.2.2.2.1, sameFields.2.2.2.2.1,
    sameFields.2.2.2.2.2⟩

theorem SameSkeleton.link
    {state next : Snapshot α} (same : SameSkeleton state next) {child parent : Nat} :
    Link next child parent ↔ Link state child parent := by
  have one {first second : Snapshot α} (same : SameSkeleton first second)
      (link : Link first child parent) : Link second child parent := by
    obtain ⟨childSlot, parentSlot, childPresent, parentPresent, isChild⟩ := link
    obtain ⟨otherChild, childThere, childSame⟩ := same.slot childPresent
    obtain ⟨otherParent, parentThere, parentSame⟩ := same.slot parentPresent
    refine ⟨otherChild, otherParent, childThere, parentThere, ?_⟩
    rw [childOf_eq_true] at isChild ⊢
    obtain ⟨_, _, _, sameLink⟩ := skeleton_fields childSame
    obtain ⟨sameUuid, sameGeneration, _⟩ := skeleton_fields parentSame
    rw [sameLink, isChild, sameUuid, sameGeneration]
  exact ⟨one same.symm, one same⟩

omit [Scalar α] in
theorem link_iff_childOf
    {state : Snapshot α} {child parent : Nat} {childSlot parentSlot : Slot α}
    (childPresent : state.slots[child]? = some childSlot)
    (parentPresent : state.slots[parent]? = some parentSlot) :
    Link state child parent ↔ childOf childSlot parentSlot = true := by
  constructor
  · rintro ⟨childSlot', parentSlot', childPresent', parentPresent', isChild⟩
    rw [childPresent, Option.some.injEq] at childPresent'
    rw [parentPresent, Option.some.injEq] at parentPresent'
    exact childPresent' ▸ parentPresent' ▸ isChild
  · intro isChild
    exact ⟨childSlot, parentSlot, childPresent, parentPresent, isChild⟩

/-- What the walk below `root` has done to `base` when `queue` is queued. -/
structure Walk (base : Snapshot α) (root : Nat) (path : Text) (index : Nat)
    (queue : List Nat) (state : Snapshot α) : Prop where
  skeleton : SameSkeleton base state
  live : ∀ position, position ∈ queue → (entityAt base position).isSome = true
  outside :
    ∀ position : Nat, position ∉ queue → state.slots[position]? = base.slots[position]?
  rootTransform :
    (entityAt state root).map Entity.transform = (entityAt base root).map Entity.transform
  coherent :
    ∀ position, position ∈ queue → position ≠ root → Coherent state path index position

omit [Scalar α] in
theorem entityAt_setEntity_same
    {state : Snapshot α} {position : Nat} {slot : Slot α} (entity : Entity α)
    (present : state.slots[position]? = some slot) :
    entityAt (setEntity state position entity) position = some entity :=
  entityAt_eq_some.mpr ⟨_, setEntity_same entity present, rfl⟩

omit [Scalar α] in
theorem entityAt_setEntity_other
    (state : Snapshot α) {position other : Nat} (entity : Entity α)
    (different : position ≠ other) :
    entityAt (setEntity state position entity) other = entityAt state other := by
  simp only [entityAt, liveAt, setEntity_other state entity different]

/-- Rewriting a transform or a revision keeps the skeleton. -/
theorem setEntity_skeleton
    {state : Snapshot α} {position : Nat} {slot : Slot α} {entity : Entity α}
    (live : liveAt state position = some (slot, entity)) (revision : UInt64)
    (world : Transform α) :
    SameSkeleton state
      (setEntity state position
        { entity with authoringRevision := revision, transform := world }) := by
  obtain ⟨present, holds⟩ := liveAt_eq_some.mp live
  exact setEntity_map Transactions.skeleton present
    (by simp [Transactions.skeleton, holds])

section Walking

variable {base : Snapshot α} {root : Nat} {path : Text} {index : Nat}

theorem Walk.start (live : (entityAt base root).isSome = true) :
    Walk base root path index [root] base where
  skeleton := rfl
  live := by
    intro position member
    rw [List.mem_singleton] at member
    exact member ▸ live
  outside _ _ := rfl
  rootTransform := rfl
  coherent := by
    intro position member different
    rw [List.mem_singleton] at member
    exact absurd member different

/-- Stamping a queued entity with the revision changes nothing the walk is
about. -/
theorem Walk.stamp
    {queue : List Nat} {state : Snapshot α} (walk : Walk base root path index queue state)
    {position : Nat} {slot : Slot α} {entity : Entity α} (queued : position ∈ queue)
    (live : liveAt state position = some (slot, entity)) (revision : UInt64) :
    Walk base root path index queue
      (setEntity state position { entity with authoringRevision := revision }) := by
  have present := (liveAt_eq_some.mp live).1
  have same := setEntity_skeleton live revision entity.transform
  have before : entityAt state position = some entity := by simp [entityAt, live]
  have after := entityAt_setEntity_same
    { entity with authoringRevision := revision } present
  have unstamped {other : Nat} {found : Entity α}
      (there :
        entityAt (setEntity state position { entity with authoringRevision := revision })
          other = some found) :
      ∃ old,
        entityAt state other = some old ∧ old.transform = found.transform ∧
          old.localTransform = found.localTransform := by
    by_cases here : position = other
    · subst here
      rw [after, Option.some.injEq] at there
      exact ⟨entity, before, by rw [← there], by rw [← there]⟩
    · rw [entityAt_setEntity_other _ _ here] at there
      exact ⟨found, there, rfl, rfl⟩
  refine ⟨Eq.trans same walk.skeleton, walk.live, ?_, ?_, ?_⟩
  · intro other outside
    have different : position ≠ other := fun here => outside (here ▸ queued)
    rw [setEntity_other _ _ different]
    exact walk.outside other outside
  · rw [← walk.rootTransform]
    by_cases here : position = root
    · subst here
      rw [after, before]
      rfl
    · rw [entityAt_setEntity_other _ _ here]
  · intro other member different parent childEntity parentEntity link child above
    obtain ⟨oldChild, oldChildThere, childTransform, childLocal⟩ := unstamped child
    obtain ⟨oldParent, oldParentThere, parentTransform, _⟩ := unstamped above
    have coherent :=
      walk.coherent other member different parent oldChild oldParent
        ((SameSkeleton.link same).mp link) oldChildThere oldParentThere
    rwa [childTransform, childLocal, parentTransform] at coherent

/-- Composing a new child queues it coherently and disturbs no earlier one. -/
theorem Walk.push (unique : Forest.Unique (Link base))
    {visited queue : List Nat} {current : Nat} {seen : Nat → Prop} {state : Snapshot α}
    (walk : Walk base root path index queue state)
    (sweep : Forest.Sweep (Link base) root visited current seen queue)
    (known : ∀ item, item ∈ visited → item ∈ queue)
    {position : Nat} {slot parentSlot : Slot α} {entity parentEntity : Entity α}
    {world : Transform α} (step : Link base position current)
    (fresh : position ∉ queue)
    (live : liveAt state position = some (slot, entity))
    (parentLive : liveAt state current = some (parentSlot, parentEntity))
    (composed :
      compose parentEntity.transform entity.localTransform path index = .ok world) :
    Walk base root path index (queue ++ [position])
      (setEntity state position { entity with transform := world }) := by
  have present := (liveAt_eq_some.mp live).1
  have same := setEntity_skeleton live entity.authoringRevision world
  have after := entityAt_setEntity_same { entity with transform := world } present
  have apart {other : Nat} (member : other ∈ queue) : position ≠ other :=
    fun here => fresh (here ▸ member)
  refine ⟨Eq.trans same walk.skeleton, ?_, ?_, ?_, ?_⟩
  · intro other member
    rcases List.mem_append.mp member with old | new
    · exact walk.live other old
    · rw [List.mem_singleton] at new
      subst new
      obtain ⟨_, _, childLive, _⟩ := step.child_live
      simp [entityAt, childLive]
  · intro other outside
    simp only [List.mem_append, List.mem_singleton, not_or] at outside
    rw [setEntity_other _ _ (Ne.symm outside.2)]
    exact walk.outside other outside.1
  · rw [entityAt_setEntity_other _ _ (apart sweep.root_mem)]
    exact walk.rootTransform
  · intro other member different parent childEntity above link child parentThere
    have linkBase : Link base other parent :=
      walk.skeleton.link.mp ((SameSkeleton.link same).mp link)
    rcases List.mem_append.mp member with old | new
    · have parentQueued : parent ∈ queue := by
        rcases sweep.origin other old with here | ⟨origin, originMember, originStep⟩
        · exact absurd here different
        · rw [unique other parent origin linkBase originStep]
          rcases List.mem_append.mp originMember with before | now
          · exact known origin before
          · rw [List.mem_singleton] at now
            exact now ▸ sweep.current_mem
      rw [entityAt_setEntity_other _ _ (apart old)] at child
      rw [entityAt_setEntity_other _ _ (apart parentQueued)] at parentThere
      exact walk.coherent other old different parent childEntity above
        ((SameSkeleton.link same).mp link) child parentThere
    · rw [List.mem_singleton] at new
      subst new
      have here := unique other parent current linkBase step
      subst here
      rw [after, Option.some.injEq] at child
      rw [entityAt_setEntity_other _ _ (apart sweep.current_mem)] at parentThere
      have parentBefore : entityAt state parent = some parentEntity := by
        simp [entityAt, parentLive]
      rw [parentBefore, Option.some.injEq] at parentThere
      rw [← child, ← parentThere]
      exact composed

theorem Walk.length_le {queue : List Nat} {state : Snapshot α}
    (walk : Walk base root path index queue state) (nodup : queue.Nodup) :
    queue.length ≤ base.slots.length := by
  refine Forest.length_le_of_nodup_lt nodup fun position member => ?_
  obtain ⟨entity, there⟩ := Option.isSome_iff_exists.mp (walk.live position member)
  obtain ⟨slot, present, _⟩ := entityAt_eq_some.mp there
  exact (List.getElem?_eq_some_iff.mp present).1

theorem Walk.liveAt {queue : List Nat} {state : Snapshot α}
    (walk : Walk base root path index queue state) {position : Nat}
    (live : (entityAt base position).isSome = true) :
    ∃ slot entity, Transactions.liveAt state position = some (slot, entity) := by
  obtain ⟨entity, there⟩ := Option.isSome_iff_exists.mp live
  obtain ⟨slot, present, holds⟩ := entityAt_eq_some.mp there
  obtain ⟨other, otherPresent, same⟩ := walk.skeleton.slot present
  obtain ⟨found, foundLive, _⟩ := skeleton_entity same holds
  exact ⟨other, found, liveAt_eq_some.mpr ⟨otherPresent, foundLive⟩⟩

/-- An error that came from composing two transforms. -/
def ComposeFails (α : Type) [Scalar α] (path : Text) (index : Nat) (error : Error) :
    Prop :=
  ∃ parent localTransform : Transform α,
    compose parent localTransform path index = .error error

/-- One round of the walk: every child of `current` is queued, or a compose
failed. -/
theorem subtreeChildren_walk
    (unique : Forest.Unique (Link base))
    {visited : List Nat} {current : Nat} {positions : List Nat} :
    ∀ {queue : List Nat} {state : Snapshot α},
      positions.Nodup →
      (∀ item, item ∈ visited → item ∈ queue) →
      Walk base root path index queue state →
      Forest.Sweep (Link base) root visited current (· ∉ positions) queue →
      (∃ next longer,
        subtreeChildren current path index positions state queue = .ok (next, longer) ∧
          queue <+: longer ∧ Walk base root path index longer next ∧
          Forest.Sweep (Link base) root visited current (fun _ => True) longer) ∨
        ∃ error,
          subtreeChildren current path index positions state queue = .error error ∧
            ComposeFails α path index error := by
  induction positions with
  | nil =>
      intro queue state _ _ walk sweep
      exact Or.inl ⟨state, queue, rfl, List.prefix_rfl, walk,
        sweep.congr fun item _ => by simp⟩
  | cons position rest inductionHypothesis =>
      intro queue state nodup known walk sweep
      obtain ⟨unseen, restNodup⟩ := List.nodup_cons.mp nodup
      have grown {longer : List Nat}
          (next :
            Forest.Sweep (Link base) root visited current
              (fun other => other ∉ position :: rest ∨ other = position) longer) :
          Forest.Sweep (Link base) root visited current (· ∉ rest) longer := by
        refine next.congr fun item _ => ?_
        by_cases here : item = position
        · simp [here, unseen]
        · simp [here]
      obtain ⟨parentSlot, parentEntity, parentLive⟩ :=
        walk.liveAt (walk.live current sweep.current_mem)
      have parentPresent := (liveAt_eq_some.mp parentLive).1
      cases childLive : Transactions.liveAt state position with
      | none =>
          have stranger : ¬ Link base position current := by
            intro link
            obtain ⟨slot, entity, live, _⟩ :=
              (walk.skeleton.link.mpr link).child_live
            rw [childLive] at live
            exact absurd live (by simp)
          have same :
              subtreeChildren current path index (position :: rest) state queue =
                subtreeChildren current path index rest state queue := by
            rw [subtreeChildren, parentLive, childLive]
          rw [same]
          exact inductionHypothesis restNodup known walk (grown (sweep.skip stranger))
      | some found =>
          obtain ⟨childSlot, childEntity⟩ := found
          have childPresent := (liveAt_eq_some.mp childLive).1
          have linkIff := link_iff_childOf childPresent parentPresent
          rw [walk.skeleton.link] at linkIff
          by_cases isChild : childOf childSlot parentSlot = true
          · have step := linkIff.mpr isChild
            have fresh := sweep.fresh step (by simp)
            have pushed := sweep.push step (by simp)
            have room : decide (state.slots.length ≤ queue.length) = false := by
              have longer : (queue ++ [position]).length ≤ base.slots.length := by
                refine Forest.length_le_of_nodup_lt pushed.nodup fun item member => ?_
                rcases List.mem_append.mp member with old | new
                · obtain ⟨slot, entity, live⟩ := walk.liveAt (walk.live item old)
                  rw [← walk.skeleton.length]
                  exact (List.getElem?_eq_some_iff.mp (liveAt_eq_some.mp live).1).1
                · rw [List.mem_singleton] at new
                  rw [new, ← walk.skeleton.length]
                  exact (List.getElem?_eq_some_iff.mp childPresent).1
              rw [List.length_append, List.length_singleton,
                ← walk.skeleton.length] at longer
              rw [decide_eq_false_iff_not]
              omega
            cases composed :
                compose parentEntity.transform childEntity.localTransform path index with
            | error error =>
                refine Or.inr ⟨error, ?_, parentEntity.transform,
                  childEntity.localTransform, composed⟩
                simp [subtreeChildren, parentLive, childLive, isChild, room, composed,
                  bind, Except.bind]
            | ok world =>
                have same :
                    subtreeChildren current path index (position :: rest) state queue =
                      subtreeChildren current path index rest
                        (setEntity state position
                          { childEntity with transform := world })
                        (queue ++ [position]) := by
                  simp [subtreeChildren, parentLive, childLive, isChild, room, composed,
                    bind, Except.bind]
                have walked :=
                  walk.push unique sweep known step fresh childLive parentLive composed
                have knownLonger :
                    ∀ item, item ∈ visited → item ∈ queue ++ [position] :=
                  fun item member => List.mem_append_left _ (known item member)
                rw [same]
                rcases inductionHypothesis restNodup knownLonger walked (grown pushed)
                  with ⟨next, longer, done, extends', finished, swept⟩ | failed
                · exact Or.inl ⟨next, longer, done,
                    (List.prefix_append queue [position]).trans extends', finished,
                    swept⟩
                · exact Or.inr failed
          · have stranger : ¬ Link base position current :=
              fun link => isChild (linkIff.mp link)
            have same :
                subtreeChildren current path index (position :: rest) state queue =
                  subtreeChildren current path index rest state queue := by
              simp [subtreeChildren, parentLive, childLive, isChild]
            rw [same]
            exact
              inductionHypothesis restNodup known walk (grown (sweep.skip stranger))

/-- The entity at the position carries the revision, if there is one. -/
def StampedAt (revision : UInt64) (state : Snapshot α) (position : Nat) : Prop :=
  ∀ entity, entityAt state position = some entity → entity.authoringRevision = revision

omit [Scalar α] in
theorem StampedAt.write {revision : UInt64} {state : Snapshot α} {stamped position : Nat}
    (held : StampedAt revision state stamped) {slot : Slot α} {entity next : Entity α}
    (live : liveAt state position = some (slot, entity))
    (kept : next.authoringRevision = entity.authoringRevision ∨
      next.authoringRevision = revision) :
    StampedAt revision (setEntity state position next) stamped := by
  intro found there
  by_cases here : position = stamped
  · subst here
    rw [entityAt_setEntity_same next (liveAt_eq_some.mp live).1, Option.some.injEq] at there
    subst there
    rcases kept with same | same
    · rw [same]
      exact held entity (by simp [entityAt, live])
    · exact same
  · rw [entityAt_setEntity_other _ _ here] at there
    exact held found there

omit [Scalar α] in
theorem stampedAt_setEntity {revision : UInt64} {state : Snapshot α} {position : Nat}
    {slot : Slot α} {entity : Entity α} (next : Entity α)
    (live : liveAt state position = some (slot, entity))
    (stamped : next.authoringRevision = revision) :
    StampedAt revision (setEntity state position next) position := by
  intro found there
  rw [entityAt_setEntity_same next (liveAt_eq_some.mp live).1, Option.some.injEq] at there
  exact there ▸ stamped

/-- The queue loop: it ends with everything below the root visited and stamped, or a
compose failed. The visited items are those before the cursor. -/
theorem subtreeLoop_walk
    (unique : Forest.Unique (Link base)) (acyclic : Forest.Acyclic (Link base))
    (revision : UInt64) :
    ∀ (fuel cursor : Nat) (queue : List Nat) (state : Snapshot α),
      cursor + fuel = base.slots.length + 1 →
      cursor ≤ queue.length →
      Walk base root path index queue state →
      Forest.Frontier (Link base) root (queue.take cursor) queue →
      (∀ position ∈ queue.take cursor, StampedAt revision state position) →
      (∃ next longer,
        subtreeLoop revision path index fuel cursor state queue = .ok next ∧
          Walk base root path index longer next ∧
          Forest.Frontier (Link base) root longer longer ∧
          ∀ position ∈ longer, StampedAt revision next position) ∨
        ∃ error,
          subtreeLoop revision path index fuel cursor state queue = .error error ∧
            ComposeFails α path index error := by
  intro fuel
  induction fuel with
  | zero =>
      intro cursor queue state total passed walk frontier _
      have bounded := walk.length_le frontier.nodup
      omega
  | succ fuel inductionHypothesis =>
      intro cursor queue state total passed walk frontier visited
      cases waiting : queue[cursor]? with
      | none =>
          have atEnd : cursor = queue.length := by
            have beyond := List.getElem?_eq_none_iff.mp waiting
            omega
          subst atEnd
          rw [List.take_length] at frontier visited
          exact Or.inl
            ⟨state, queue, by simp [subtreeLoop], walk, frontier, visited⟩
      | some current =>
          obtain ⟨inside, here⟩ := List.getElem?_eq_some_iff.mp waiting
          have queued : current ∈ queue := List.mem_of_getElem? waiting
          have unvisited : current ∉ queue.take cursor := by
            intro member
            obtain ⟨place, placeInside, same⟩ := List.mem_take_iff_getElem.mp member
            have collision :=
              (List.Nodup.getElem_inj_iff frontier.nodup).mp (same.trans here.symm)
            omega
          obtain ⟨slot, entity, live⟩ := walk.liveAt (walk.live current queued)
          have stamped := walk.stamp queued live revision
          have opened := frontier.begin unique acyclic queued unvisited
          have unseen :
              Forest.Sweep (Link base) root (queue.take cursor) current
                (· ∉ List.range base.slots.length) queue := by
            refine opened.congr fun item step => ?_
            obtain ⟨childSlot, childEntity, childLive, _⟩ := step.child_live
            have bounded :=
              (List.getElem?_eq_some_iff.mp (liveAt_eq_some.mp childLive).1).1
            simp [bounded]
          have length :
              (setEntity state current
                { entity with authoringRevision := revision }).slots.length =
                base.slots.length := by
            rw [setEntity_length, walk.skeleton.length]
          rcases subtreeChildren_walk unique List.nodup_range
              (fun item member => List.mem_of_mem_take member) stamped unseen with
            ⟨next, longer, done, extends', walked, swept⟩ | ⟨error, failed, composed⟩
          · have longerLength := extends'.length_le
            have takeLonger :
                longer.take (cursor + 1) = queue.take cursor ++ [current] := by
              obtain ⟨more, same⟩ := extends'
              rw [← same, List.take_append_of_le_length (by omega), List.take_add_one,
                waiting]
              rfl
            have finished := swept.finish fun _ _ => trivial
            rw [← takeLonger] at finished
            have continued :
                subtreeLoop revision path index (fuel + 1) cursor state queue =
                  subtreeLoop revision path index fuel (cursor + 1) next longer := by
              simp only [subtreeLoop, waiting, live, length, done, bind, Except.bind]
            rw [continued]
            refine
              inductionHypothesis (cursor + 1) longer next (by omega) (by omega) walked
                finished ?_
            intro position member
            rw [takeLonger, List.mem_append, List.mem_singleton] at member
            have begun : StampedAt revision
                (setEntity state current { entity with authoringRevision := revision })
                position := by
              rcases member with earlier | here
              · exact (visited position earlier).write live (Or.inr rfl)
              · subst here
                exact stampedAt_setEntity _ live rfl
            have moved (state : Snapshot α) (other : Nat) (slot : Slot α)
                (entity : Entity α) (world : Transform α)
                (held : StampedAt revision state position)
                (there : Transactions.liveAt state other = some (slot, entity)) :
                StampedAt revision
                  (setEntity state other { entity with transform := world }) position :=
              held.write there (Or.inl rfl)
            exact subtreeChildren_invariant moved begun done
          · refine Or.inr ⟨error, ?_, composed⟩
            simp only [subtreeLoop, waiting, live, length, failed, bind, Except.bind]

/-- The whole walk below a live root: the error of its bound never occurs. -/
theorem subtree_walk (linked : Linked base)
    (live : (entityAt base root).isSome = true) (revision : UInt64) :
    (∃ next queue,
      subtree base root revision path index = .ok next ∧
        Walk base root path index queue next ∧
        (∀ position, position ∈ queue ↔ Forest.Above (Link base) position root) ∧
        ∀ position ∈ queue, StampedAt revision next position) ∨
      ∃ error,
        subtree base root revision path index = .error error ∧
          ComposeFails α path index error := by
  have begin :=
    subtreeLoop_walk linked.distinct.unique linked.acyclic revision
      (base.slots.length + 1) 0 [root] base (by omega) (by simp)
      (@Walk.start α _ base root path index live) (Forest.Frontier.start _ root)
      (by simp)
  rcases begin with ⟨next, queue, done, walk, frontier, stamped⟩ | failed
  · exact Or.inl ⟨next, queue, done, walk, fun position => frontier.mem_iff, stamped⟩
  · exact Or.inr failed

end Walking

end Parents
end Omniweft.Transactions
