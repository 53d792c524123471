import Mathlib.Algebra.Order.Ring.Rat
import Omniweft.HierarchyTransforms
import Omniweft.Placement

/-!
# The cached world transforms

A stored transform is the parent's composed with the local one. The operations
keep that in exact arithmetic, so a stored transform is the composition of the
local transforms along the path from its root, and a reparent moves what its
mode says and nothing else.
-/

namespace Omniweft.Transactions

open Omniweft.Outcome World Commands Relation

section Walks

variable {α : Type} [Scalar α]

/-- After the walk every child is coherent when, before it, those not directly
under the root were. -/
theorem subtree_coherent
    {base next : Snapshot α} {root index : Nat} {revision : UInt64} {path : Text}
    (linked : Linked base) (live : (entityAt base root).isSome = true)
    (almost :
      ∀ path index child, ¬ Link base child root → Coherent base path index child)
    (walked : subtree base root revision path index = .ok next) :
    ∀ path index child, Coherent next path index child := by
  rcases @subtree_walk α _ base root path index linked live revision with
    ⟨found, queue, done, walk, members, _⟩ | ⟨_, failed, _⟩
  · rw [walked, Except.ok.injEq] at done
    subst done
    intro path' index' child parent childEntity parentEntity link childThere parentThere
    have linkBase := walk.skeleton.link.mp link
    by_cases below : child ∈ queue ∧ child ≠ root
    · exact compose_anywhere
        (walk.coherent child below.1 below.2 parent childEntity parentEntity link
          childThere parentThere)
    · -- The parent is outside the walk: it is above the root or apart from it.
      have parentOutside : parent ∉ queue := by
        intro member
        have childAbove := ReflTransGen.head linkBase ((members parent).mp member)
        refine below ⟨(members child).mpr childAbove, ?_⟩
        intro same
        subst same
        exact linked.acyclic child (TransGen.head' linkBase ((members parent).mp member))
      have parentNotRoot : parent ≠ root := by
        intro same
        exact parentOutside ((members parent).mpr (same ▸ ReflTransGen.refl))
      have notUnder : ¬ Link base child root := fun direct =>
        parentNotRoot (linked.distinct.unique child parent root linkBase direct)
      rw [walk.entityAt_outside parentOutside] at parentThere
      obtain ⟨old, oldThere, _, _, sameLocal, _⟩ :=
        walk.skeleton.symm.entity childThere
      have kept : childEntity.transform = old.transform := by
        by_cases here : child = root
        · subst here
          have same := walk.rootTransform
          rw [childThere, oldThere, Option.map_some, Option.map_some,
            Option.some.injEq] at same
          exact same
        · have outside : child ∉ queue := fun member => below ⟨member, here⟩
          rw [walk.entityAt_outside outside, oldThere, Option.some.injEq] at childThere
          rw [childThere]
      rw [kept, ← sameLocal]
      exact almost path' index' child notUnder parent old parentEntity linkBase oldThere
        parentThere
  · rw [walked] at failed
    exact absurd failed (by simp)

/-- A walk over a coherent subtree changes no transform. -/
theorem subtree_settled
    {base next : Snapshot α} {root index : Nat} {revision : UInt64} {path : Text}
    (linked : Linked base) (live : (entityAt base root).isSome = true)
    (coherent : ∀ child, child ≠ root → Coherent base path index child)
    (walked : subtree base root revision path index = .ok next) (position : Nat) :
    transformAt next position = transformAt base position := by
  rcases @subtree_walk α _ base root path index linked live revision with
    ⟨found, queue, done, walk, members, _⟩ | ⟨_, failed, _⟩
  · rw [walked, Except.ok.injEq] at done
    subst done
    by_cases queued : position ∈ queue
    · have above := (members position).mp queued
      clear queued
      -- Downward from the root: a parent's unchanged transform composes to the
      -- child's old one.
      induction above using ReflTransGen.head_induction_on with
      | refl => exact walk.rootTransform
      | @head child parent link rest inductionHypothesis =>
          have childQueued := (members child).mpr (ReflTransGen.head link rest)
          by_cases here : child = root
          · exact here ▸ walk.rootTransform
          · obtain ⟨_, childEntity, childLive, _⟩ := link.child_live
            have childThere : entityAt base child = some childEntity := by
              simp [entityAt, childLive]
            obtain ⟨newChild, newChildThere, _, _, sameLocal, _⟩ :=
              walk.skeleton.entity childThere
            obtain ⟨_, parentEntity, parentLive, _⟩ := linked.parent_live link
            have parentThere : entityAt base parent = some parentEntity := by
              simp [entityAt, parentLive]
            obtain ⟨newParent, newParentThere, _⟩ := walk.skeleton.entity parentThere
            have before :=
              coherent child here parent childEntity parentEntity link childThere
                parentThere
            have after :=
              walk.coherent child childQueued here parent newChild newParent
                (walk.skeleton.link.mpr link) newChildThere newParentThere
            have sameParent : newParent.transform = parentEntity.transform := by
              simpa [transformAt, newParentThere, parentThere] using inductionHypothesis
            rw [sameParent, sameLocal, before, Except.ok.injEq] at after
            simp [transformAt, newChildThere, childThere, after]
    · rw [transformAt, walk.entityAt_outside queued, transformAt]
  · rw [walked] at failed
    exact absurd failed (by simp)

/-- The walk leaves every local transform alone. -/
theorem subtree_locals
    {base next : Snapshot α} {root index : Nat} {revision : UInt64} {path : Text}
    (linked : Linked base) (live : (entityAt base root).isSome = true)
    (walked : subtree base root revision path index = .ok next) (position : Nat) :
    localAt next position = localAt base position := by
  rcases @subtree_walk α _ base root path index linked live revision with
    ⟨found, _, done, walk, _⟩ | ⟨_, failed, _⟩
  · rw [walked, Except.ok.injEq] at done
    subst done
    cases there : entityAt base position with
    | some entity =>
        obtain ⟨found, foundThere, _, _, sameLocal, _⟩ := walk.skeleton.entity there
        simp [localAt, there, foundThere, sameLocal]
    | none =>
        cases after : entityAt next position with
        | none => simp [localAt, there, after]
        | some found =>
            obtain ⟨old, oldThere, _⟩ := walk.skeleton.symm.entity after
            rw [there] at oldThere
            exact absurd oldThere (by simp)
  · rw [walked] at failed
    exact absurd failed (by simp)

end Walks

section Paths

variable {α : Type} [Scalar α]

/-- The transform of the root above an entity, and the local transforms on the
way down from it. -/
inductive AncestorPath (state : Snapshot α) :
    Nat → Transform α → List (Transform α) → Prop
  | root {position : Nat} {entity : Entity α} :
      entityAt state position = some entity → entity.parent = none →
      AncestorPath state position entity.transform []
  | under {child parent : Nat} {entity : Entity α} {base : Transform α}
      {locals : List (Transform α)} :
      Link state child parent → entityAt state child = some entity →
      AncestorPath state parent base locals →
      AncestorPath state child base (locals ++ [entity.localTransform])

omit [Scalar α] in
theorem AncestorPath.exists {state : Snapshot α} (linked : Linked state)
    {position : Nat} (live : (entityAt state position).isSome = true) :
    ∃ base locals, AncestorPath state position base locals := by
  have inside {place : Nat} {slot : Slot α} {entity : Entity α}
      (live : liveAt state place = some (slot, entity)) : place < state.slots.length :=
    (List.getElem?_eq_some_iff.mp (liveAt_eq_some.mp live).1).1
  have bounded (child parent : Nat) (link : Link state child parent) :
      parent < state.slots.length := by
    obtain ⟨_, _, parentLive, _⟩ := linked.parent_live link
    exact inside parentLive
  obtain ⟨entity, there⟩ := Option.isSome_iff_exists.mp live
  obtain ⟨slot, present, _⟩ := entityAt_eq_some.mp there
  refine
    @Forest.Acyclic.upward _ linked.acyclic _ bounded
      (fun position =>
        (entityAt state position).isSome = true →
          ∃ base locals, AncestorPath state position base locals)
      ?_ position (List.getElem?_eq_some_iff.mp present).1 live
  intro item inherits itemLive
  obtain ⟨entity, there⟩ := Option.isSome_iff_exists.mp itemLive
  obtain ⟨slot, present, holds⟩ := entityAt_eq_some.mp there
  rcases parentOf_linked linked (liveAt_eq_some.mpr ⟨present, holds⟩) with
    ⟨_, rootless, _⟩ | ⟨parent, _, parentEntity, _, parentLive, link⟩
  · exact ⟨entity.transform, [], AncestorPath.root there rootless⟩
  · obtain ⟨base, locals, above⟩ :=
      inherits parent link (by simp [entityAt, parentLive])
    exact ⟨base, locals ++ [entity.localTransform], AncestorPath.under link there above⟩

/-- Along the path the local transforms compose to the stored one. -/
theorem AncestorPath.composes {state : Snapshot α}
    (coherent : ∀ path index child, Coherent state path index child) {position : Nat}
    {base : Transform α} {locals : List (Transform α)}
    (along : AncestorPath state position base locals) (path : Text) (index : Nat) :
    ∃ entity,
      entityAt state position = some entity ∧
        locals.foldlM
            (fun world localTransform => compose world localTransform path index)
            base =
          .ok entity.transform := by
  induction along with
  | root there _ => exact ⟨_, there, rfl⟩
  | @under child parent entity base locals link there _ inductionHypothesis =>
      obtain ⟨parentEntity, parentThere, folded⟩ := inductionHypothesis
      refine ⟨entity, there, ?_⟩
      rw [List.foldlM_append, folded]
      have last := coherent path index child parent entity parentEntity link there
        parentThere
      simp [bind, Except.bind, pure, Except.pure, last]

end Paths

section Exact

variable {F : Type} [Field F] [LinearOrder F] [IsStrictOrderedRing F] [ExactScalar F]

theorem rigid_closed : Closed (Rigid : Transform F → Prop) where
  default := rigid_default
  compose _ _ _ _ _ parentRigid localRigid composedHere := by
    obtain ⟨uniform, same⟩ := (compose_exact parentRigid localRigid).mp composedHere
    exact same ▸ parentRigid.composed localRigid uniform
  relative _ _ _ path index parentRigid valueRigid found :=
    (compose_relative parentRigid valueRigid found path index).1

/-- Every child is coherent and every transform rigid. -/
structure Cached (state : Snapshot F) : Prop where
  coherent : ∀ path index child, Coherent state path index child
  rigid : Everywhere Rigid state

/-- Coherent but for the children directly under `root`, which is about to be
walked. -/
def AlmostCoherent (state : Snapshot F) (root : Nat) : Prop :=
  ∀ path index child, ¬ Link state child root → Coherent state path index child

/-- Rewriting one entity leaves only its children in doubt. -/
theorem Cached.rewrite
    {state : Snapshot F} (cached : Cached state) {position : Nat} {slot : Slot F}
    {entity next : Entity F} (live : liveAt state position = some (slot, entity))
    (here :
      ∀ path index parent parentEntity,
        Link (setEntity state position next) position parent →
        entityAt state parent = some parentEntity →
        compose parentEntity.transform next.localTransform path index =
          .ok next.transform) :
    AlmostCoherent (setEntity state position next) position := by
  intro path index child notUnder parent childEntity parentEntity link childThere
    parentThere
  have elsewhere : parent ≠ position := fun same => notUnder (same ▸ link)
  rcases entityAt_setEntity live parentThere with ⟨same, _⟩ | ⟨_, oldParent⟩
  · exact absurd same elsewhere
  · rcases entityAt_setEntity live childThere with ⟨same, sameEntity⟩ | ⟨different, oldChild⟩
    · subst same sameEntity
      exact here path index parent parentEntity link oldParent
    · exact cached.coherent path index child parent childEntity parentEntity
        (setEntity_link_other live different link) oldChild oldParent

theorem Replaced.coherent {state next : Snapshot F} {position : Nat}
    (replaced : Replaced state next position) (linked : Linked state)
    (cached : Cached state) (path : Text) (index child : Nat) :
    Coherent next path index child := by
  intro parent childEntity parentEntity link childThere parentThere
  obtain ⟨childElsewhere, parentElsewhere, old⟩ := replaced.link linked link
  rw [replaced.entityAt childElsewhere] at childThere
  rw [replaced.entityAt parentElsewhere] at parentThere
  exact cached.coherent path index child parent childEntity parentEntity old childThere
    parentThere

/-- The rotations of a batch are of norm one exactly. -/
def UnitRotations (envelope : Envelope F) : Prop :=
  ∀ operation : TransformSet F,
    .transformSet operation ∈ envelope.operations → UnitRotation operation.rotationXyzw

theorem transform_rigid
    {operation : TransformSet F} {path : Text} {index : Nat} {replacement : Transform F}
    (rotation : UnitRotation operation.rotationXyzw)
    (accepted : transform operation path index = .ok replacement) :
    Rigid replacement := by
  obtain ⟨_, _, nonzero, same⟩ := transform_eq_ok.mp accepted
  rw [normalizeTransform_exact] at same
  subst same
  refine ⟨rotation, fun component member => ?_⟩
  simpa [eq_exact, ofInt_exact] using List.any_eq_false.mp nonzero component member

/-- A transform operation hands a fit state to the walk. -/
theorem transform_almostCoherent
    {state : Snapshot F} (hierarchy : Hierarchy state) (cached : Cached state)
    {position : Nat} {slot : Slot F} {entity : Entity F}
    (live : liveAt state position = some (slot, entity))
    {replacement localTransform : Transform F} {path : Text} {index : Nat}
    (rigid : Rigid replacement)
    (localOk :
      replacedLocal state slot entity replacement path index = .ok localTransform) :
    AlmostCoherent
      (setEntity state position
        { entity with transform := replacement, localTransform := localTransform })
      position := by
  have there : entityAt state position = some entity := by simp [entityAt, live]
  rcases parentOf_linked hierarchy.toLinked live with
    ⟨none, _, orphan⟩ | ⟨parent, parentSlot, parentEntity, found, parentLive, link⟩
  · simp only [replacedLocal, none, bind, Except.bind, Except.ok.injEq] at localOk
    subst localOk
    refine cached.rewrite live ?_
    intro _ _ parent _ link
    refine absurd ((setEntity_link_same live ?_).mp link) (orphan parent)
    rfl
  · simp only [replacedLocal, found, bind, Except.bind] at localOk
    have parentThere : entityAt state parent = some parentEntity := by
      simp [entityAt, parentLive]
    have parentRigid := (cached.rigid parent parentEntity parentThere).1
    refine cached.rewrite live ?_
    intro path' index' other otherEntity otherLink otherThere
    have old : Link state position other := by
      refine (setEntity_link_same live ?_).mp otherLink
      rfl
    have same := hierarchy.distinct.unique position other parent old link
    subst same
    rw [parentThere, Option.some.injEq] at otherThere
    subst otherThere
    exact (compose_relative parentRigid rigid localOk path' index').2

/-- A reparent hands a fit state to the walk. -/
theorem reparent_almostCoherent
    {state moved : Snapshot F} (hierarchy : Hierarchy state) (cached : Cached state)
    {position : Nat} {slot : Slot F} {entity : Entity F}
    (live : liveAt state position = some (slot, entity))
    {parent : Option (Nat × Slot F × Entity F)}
    (parentLive :
      ∀ place parentSlot parentEntity,
        parent = some (place, parentSlot, parentEntity) →
        liveAt state place = some (parentSlot, parentEntity) ∧
          parentSlot.retired = false)
    {mode path : Text} {index : Nat}
    (movedOk : reparent state position entity parent mode path index = .ok moved) :
    AlmostCoherent moved position := by
  have there : entityAt state position = some entity := by simp [entityAt, live]
  have entityRigid := cached.rigid position entity there
  rcases parent with _ | ⟨place, parentSlot, parentEntity⟩
  · have same := reparent_none_eq_ok.mp movedOk
    subst same
    refine cached.rewrite live ?_
    intro _ _ parent _ link
    obtain ⟨_, _, named⟩ := setEntity_link_here live link
    exact absurd named (by simp)
  · obtain ⟨placeLive, _⟩ := parentLive place parentSlot parentEntity rfl
    have placeThere : entityAt state place = some parentEntity := by
      simp [entityAt, placeLive]
    have parentRigid := (cached.rigid place parentEntity placeThere).1
    -- The only link from the moved entity is the one to `place`.
    have onlyParent {next : Entity F}
        (named : next.parent = some ⟨parentSlot.entityUuid, parentSlot.generation⟩)
        {other : Nat} {otherEntity : Entity F}
        (link : Link (setEntity state position next) position other)
        (otherThere : entityAt state other = some otherEntity) :
        otherEntity = parentEntity := by
      obtain ⟨otherSlot, otherPresent, otherNamed⟩ := setEntity_link_here live link
      rw [named, Option.some.injEq, ParentIdentity.mk.injEq] at otherNamed
      have same :=
        hierarchy.distinct place other parentSlot otherSlot
          (liveAt_eq_some.mp placeLive).1 otherPresent otherNamed.1
      subst same
      rw [placeThere, Option.some.injEq] at otherThere
      exact otherThere.symm
    obtain ⟨_, _, chosen⟩ := reparent_some_eq_ok.mp movedOk
    rcases chosen with ⟨_, localTransform, found, same⟩ | ⟨_, world, found, same⟩
    · subst same
      refine cached.rewrite live ?_
      intro path' index' other otherEntity link otherThere
      rw [onlyParent rfl link otherThere]
      exact (compose_relative parentRigid entityRigid.1 found path' index').2
    · subst same
      refine cached.rewrite live ?_
      intro path' index' other otherEntity link otherThere
      rw [onlyParent rfl link otherThere]
      exact compose_anywhere found

/-- Every operation with a unit rotation keeps the cache. -/
theorem Cached.step
    {revision : UInt64} {operation : Operation F} {index : Nat}
    {staging next : Staging F} (sound : Sound staging.staged)
    (cached : Cached staging.staged)
    (rotations :
      ∀ change : TransformSet F,
        operation = .transformSet change → UnitRotation change.rotationXyzw)
    (applied :
      applyOperation (plainContext revision) operation index staging () =
        .ok next ()) :
    Cached next.staged := by
  obtain ⟨_, _, _, valid⟩ := (sound.step applied).slots
  have hierarchy := sound.hierarchy
  refine ⟨?_, cached.rigid.step rigid_closed sound ?_ applied⟩
  · cases operation with
    | entityCreate operation =>
        obtain ⟨_, _, _, replaced⟩ :=
          applyCreate_replaced hierarchy.toLinked valid.distinct applied
        exact replaced.coherent hierarchy.toLinked cached
    | transformSet operation =>
        obtain ⟨replacement, position, slot, entity, localTransform, staged, accepted,
          resolved, _, _, localOk, spread, same⟩ := applyTransform_eq_ok.mp applied
        obtain ⟨present, holds, _⟩ := resolve_live resolved
        have live := liveAt_eq_some.mpr ⟨present, holds⟩
        subst same
        exact subtree_coherent (transform_almost hierarchy live localOk).toLinked
          (by simp [entityAt_setEntity_same _ present])
          (transform_almostCoherent hierarchy cached live
            (transform_rigid (rotations operation rfl) accepted) localOk) spread
    | entityDelete operation =>
        obtain ⟨_, _, replaced⟩ := applyDelete_replaced valid.distinct applied
        exact replaced.coherent hierarchy.toLinked cached
    | entityReparent operation =>
        obtain ⟨position, slot, entity, parent, moved, staged, resolved, parented,
          movedOk, spread, _, same⟩ := applyReparent_eq_ok.mp applied
        obtain ⟨present, holds, _⟩ := resolve_live resolved
        have live := liveAt_eq_some.mpr ⟨present, holds⟩
        subst same
        obtain ⟨almost, rootLive⟩ :=
          reparent_almost hierarchy live (resolveParent_live parented) movedOk
        exact subtree_coherent almost.toLinked rootLive
          (reparent_almostCoherent hierarchy cached live (resolveParent_live parented)
            movedOk) spread
    | entityTagsSet operation =>
        obtain ⟨position, slot, entity, resolved, _, same⟩ :=
          applyTagsSet_eq_ok.mp applied
        obtain ⟨present, holds, _⟩ := resolve_live resolved
        have live := liveAt_eq_some.mpr ⟨present, holds⟩
        have there : entityAt staging.staged position = some entity := by
          simp [entityAt, live]
        subst same
        -- A tagged entity has the transforms it had.
        have untagged {other : Nat} {found : Entity F}
            (foundThere :
              entityAt
                  (setEntity staging.staged position
                    { entity with
                      tags := sortTexts operation.tags
                      authoringRevision := revision })
                  other = some found) :
            ∃ old,
              entityAt staging.staged other = some old ∧
                old.transform = found.transform ∧
                old.localTransform = found.localTransform := by
          rcases entityAt_setEntity live foundThere with ⟨here, sameEntity⟩ | ⟨_, old⟩
          · exact ⟨entity, here ▸ there, by rw [sameEntity], by rw [sameEntity]⟩
          · exact ⟨found, old, rfl, rfl⟩
        intro path index child parent childEntity parentEntity link childThere
          parentThere
        obtain ⟨oldChild, oldChildThere, childTransform, childLocal⟩ :=
          untagged childThere
        obtain ⟨oldParent, oldParentThere, parentTransform, _⟩ := untagged parentThere
        have old : Link staging.staged child parent := by
          refine (setEntity_link_same live ?_).mp link
          rfl
        have coherent :=
          cached.coherent path index child parent oldChild oldParent old oldChildThere
            oldParentThere
        rwa [childTransform, childLocal, parentTransform] at coherent
  · intro change replacement same accepted
    exact transform_rigid (rotations change same) accepted

theorem Cached.fresh {worldId : Text} {seed maxSlots : UInt32} {state : Snapshot F}
    (created : create worldId seed maxSlots = .ok state) : Cached state := by
  obtain ⟨_, _, _, same⟩ := create_eq_ok.mp created
  have noEntity {position : Nat} {entity : Entity F} :
      ¬ entityAt state position = some entity := by
    intro there
    obtain ⟨slot, present, _⟩ := entityAt_eq_some.mp there
    rw [same] at present
    exact absurd present (by simp)
  refine ⟨?_, ?_⟩
  · intro _ _ child parent childEntity parentEntity _ childThere
    exact absurd childThere noEntity
  · intro position entity there
    exact absurd there noEntity

theorem Cached.relabel {state : Snapshot F} (cached : Cached state)
    (formatVersion : UInt32) (worldRevision : UInt64) :
    Cached
      { state with
        formatVersion := formatVersion, worldRevision := worldRevision } :=
  ⟨cached.coherent, cached.rigid⟩

/-- Unit rotations reach cached worlds only. -/
theorem ReachableBy.cached {library : JsonLibrary F} {world : LiveWorld F}
    (reachable : ReachableBy library UnitRotations world) :
    Sound world.state ∧ Cached world.state := by
  refine
    @ReachableBy.invariant F _ library UnitRotations
      (fun state => Sound state ∧ Cached state)
      (fun _ _ _ _ created => ⟨Sound.fresh created, Cached.fresh created⟩) ?_ world
      reachable
  intro state envelope next created rotations holds committed
  refine
    @Commits.invariant F _ library (fun state => Sound state ∧ Cached state)
      state next envelope created ?_ ?_ holds committed
  · intro operation index staging following member current applied
    refine ⟨current.1.step applied, current.2.step current.1 ?_ applied⟩
    intro transform same
    exact rotations transform (same ▸ member)
  · intro staged formatVersion worldRevision current
    exact ⟨current.1.relabel formatVersion worldRevision,
      current.2.relabel formatVersion worldRevision⟩

/-- The effect of a committed reparent on the stored and local transforms, from
the copy before it to the copy after it. -/
structure Reparented (operation : EntityReparent) (index : Nat)
    (before after : Staging F) (position : Nat) (entity : Entity F)
    (parent : Option (Nat × Slot F × Entity F)) : Prop where
  target :
    ∃ slot,
      resolve before.staged operation.target before.names
          (operationPath index ++ ascii "/target") index =
        .ok (position, slot, entity)
  resolved : resolveParent before.staged operation before.names index = .ok parent
  /-- In the world mode no stored transform moves. -/
  preserveWorld :
    operation.mode = ascii "preserve_world" →
      ∀ place, transformAt after.staged place = transformAt before.staged place
  /-- In the local mode no other entity's local transform moves. -/
  preserveLocal :
    operation.mode = ascii "preserve_local" →
      ∀ place, place ≠ position →
        localAt after.staged place = localAt before.staged place
  /-- And the target stands at its former placement under the new parent. -/
  attached :
    operation.mode = ascii "preserve_local" →
      ∀ place parentSlot parentEntity,
        parent = some (place, parentSlot, parentEntity) →
        ∃ parentWorld world,
          transformAt after.staged place = some parentWorld ∧
            transformAt after.staged position = some world ∧
            ∀ path index,
              compose parentWorld (former entity) path index = .ok world
  detached :
    operation.mode = ascii "preserve_local" → parent = none →
      transformAt after.staged position = some (former entity)

omit [Field F] [LinearOrder F] [IsStrictOrderedRing F] [ExactScalar F] in
theorem transformAt_setEntity
    {state : Snapshot F} {position : Nat} {slot : Slot F} {entity next : Entity F}
    (live : liveAt state position = some (slot, entity))
    (same : next.transform = entity.transform) (place : Nat) :
    transformAt (setEntity state position next) place = transformAt state place := by
  unfold transformAt
  by_cases here : position = place
  · subst here
    rw [entityAt_setEntity_same next (liveAt_eq_some.mp live).1]
    simp [entityAt, live, same]
  · rw [entityAt_setEntity_other state next here]

/-- Rewriting an entity without moving it leaves its children coherent. -/
theorem Cached.rewrite_in_place
    {state : Snapshot F} (cached : Cached state) {position : Nat} {slot : Slot F}
    {entity next : Entity F} (live : liveAt state position = some (slot, entity))
    (same : next.transform = entity.transform) (path : Text) (index : Nat) {child : Nat}
    (different : child ≠ position) :
    Coherent (setEntity state position next) path index child := by
  intro parent childEntity parentEntity link childThere parentThere
  have old := setEntity_link_other live different link
  rcases entityAt_setEntity live childThere with ⟨here, _⟩ | ⟨_, oldChild⟩
  · exact absurd here different
  · rcases entityAt_setEntity live parentThere with ⟨here, sameEntity⟩ | ⟨_, oldParent⟩
    · subst here sameEntity
      rw [same]
      exact cached.coherent path index child parent childEntity entity old oldChild
        (by simp [entityAt, live])
    · exact cached.coherent path index child parent childEntity parentEntity old
        oldChild oldParent

/-- A walk keeps the transform of its root and of everything above it. -/
theorem subtree_above
    {base next : Snapshot F} {root index : Nat} {revision : UInt64} {path : Text}
    (linked : Linked base) (live : (entityAt base root).isSome = true)
    (walked : subtree base root revision path index = .ok next) {place : Nat}
    (above : place = root ∨ ¬ Forest.Above (Link base) place root) :
    transformAt next place = transformAt base place := by
  rcases @subtree_walk F _ base root path index linked live revision with
    ⟨found, queue, done, walk, members, _⟩ | ⟨_, failed, _⟩
  · rw [walked, Except.ok.injEq] at done
    subst done
    rcases above with here | apart
    · exact here ▸ walk.rootTransform
    · have outside : place ∉ queue := fun member => apart ((members place).mp member)
      rw [transformAt, walk.entityAt_outside outside, transformAt]
  · rw [walked] at failed
    exact absurd failed (by simp)

/-- What a reparent writes: the target alone, at its place in the world mode and
at its former local placement in the local mode. -/
theorem reparent_writes
    {state moved : Snapshot F} {position : Nat} {entity : Entity F}
    {parent : Option (Nat × Slot F × Entity F)} {mode path : Text} {index : Nat}
    (movedOk : reparent state position entity parent mode path index = .ok moved) :
    ∃ next,
      moved = setEntity state position next ∧
        (mode = ascii "preserve_world" → next.transform = entity.transform) ∧
        (mode = ascii "preserve_local" →
          (parent = none → next.transform = former entity) ∧
            ∀ place parentSlot parentEntity,
              parent = some (place, parentSlot, parentEntity) →
              compose parentEntity.transform (former entity) path index =
                .ok next.transform) ∧
        next.parent =
          parent.map fun found => ⟨found.2.1.entityUuid, found.2.1.generation⟩ := by
  have apart : ascii "preserve_world" ≠ ascii "preserve_local" := by decide
  rcases parent with _ | ⟨place, parentSlot, parentEntity⟩
  · have same := reparent_none_eq_ok.mp movedOk
    refine ⟨_, same, ?_, ?_, rfl⟩
    · intro world
      have differs : ¬ (mode == ascii "preserve_local") = true := by
        rw [world, beq_iff_eq]
        exact apart
      exact if_neg differs
    · intro localMode
      have agrees : (mode == ascii "preserve_local") = true := by
        rw [localMode, beq_iff_eq]
      refine ⟨fun _ => if_pos agrees, ?_⟩
      intro _ _ _ impossible
      exact absurd impossible (by simp)
  · obtain ⟨_, _, chosen⟩ := reparent_some_eq_ok.mp movedOk
    rcases chosen with ⟨world, _, _, same⟩ | ⟨world, _, found, same⟩
    · refine ⟨_, same, fun _ => rfl, ?_, rfl⟩
      intro localMode
      exact absurd (world.symm.trans localMode) apart
    · refine ⟨_, same, fun worldMode => absurd worldMode world, ?_, rfl⟩
      intro _
      refine ⟨fun impossible => absurd impossible (by simp), ?_⟩
      intro _ _ _ chosen
      rw [Option.some.injEq, Prod.mk.injEq, Prod.mk.injEq] at chosen
      rw [← chosen.2.2]
      exact found

/-- The reparent operation on a cached copy. -/
theorem applyReparent_moves
    {revision : UInt64} {operation : EntityReparent} {index : Nat}
    {before after : Staging F} (hierarchy : Hierarchy before.staged)
    (cached : Cached before.staged)
    (applied :
      applyReparent (plainContext revision) operation index before () =
        .ok after ()) :
    ∃ position entity parent,
      Reparented operation index before after position entity parent := by
  obtain ⟨position, slot, entity, parent, moved, staged, resolved, parented, movedOk,
    spread, _, same⟩ := applyReparent_eq_ok.mp applied
  obtain ⟨present, holds, _⟩ := resolve_live resolved
  have live := liveAt_eq_some.mpr ⟨present, holds⟩
  obtain ⟨almost, rootLive⟩ :=
    reparent_almost hierarchy live (resolveParent_live parented) movedOk
  have linked := almost.toLinked
  obtain ⟨next, moves, inWorld, inLocal, named⟩ := reparent_writes movedOk
  subst same moves
  have targetThere := entityAt_setEntity_same next present
  refine ⟨position, entity, parent, ⟨slot, resolved⟩, parented, ?_, ?_, ?_, ?_⟩
  · intro world place
    have moved := inWorld world
    rw [← transformAt_setEntity live moved place]
    exact subtree_settled linked rootLive
      (fun child different =>
        cached.rewrite_in_place live moved (operationPath index) index different)
      spread place
  · intro _ place different
    refine (subtree_locals linked rootLive spread place).trans ?_
    rw [localAt, entityAt_setEntity_other _ _ (Ne.symm different), localAt]
  · intro mode place parentSlot parentEntity chosen
    have found := (inLocal mode).2 place parentSlot parentEntity chosen
    obtain ⟨placeLive, _⟩ := resolveParent_live parented place parentSlot parentEntity
      chosen
    subst chosen
    rw [Option.map_some] at named
    -- The new parent is above the target, so the walk does not reach it.
    have elsewhere : position ≠ place := by
      intro here
      subst here
      exact reparent_apart hierarchy.toLinked placeLive movedOk ReflTransGen.refl
    have link : Link (setEntity before.staged position next) position place :=
      ⟨_, parentSlot, setEntity_same next present,
        (setEntity_other _ _ elsewhere).trans (liveAt_eq_some.mp placeLive).1,
        childOf_eq_true.mpr (by simpa using named)⟩
    have outside :
        ¬ Forest.Above (Link (setEntity before.staged position next)) place position :=
      fun above => linked.acyclic position (TransGen.head' link above)
    refine ⟨parentEntity.transform, next.transform, ?_, ?_, ?_⟩
    · rw [subtree_above linked rootLive spread (Or.inr outside), transformAt,
        entityAt_setEntity_other _ _ elsewhere]
      simp [entityAt, placeLive]
    · rw [subtree_above linked rootLive spread (Or.inl rfl), transformAt, targetThere]
      rfl
    · intro path index
      exact compose_anywhere found
  · intro mode chosen
    rw [subtree_above linked rootLive spread (Or.inl rfl), transformAt, targetThere,
      Option.map_some, (inLocal mode).1 chosen]

/-- The operation at `index` of a committed batch, with the copies around it. -/
def CommittedStep (state : Snapshot F) (envelope : Envelope F) (next : Snapshot F)
    (index : Nat) (operation : Operation F) (before after : Staging F) : Prop :=
  let context : Context F Unit := plainContext (state.worldRevision + 1)
  applyOperations context (envelope.operations.take index) 0 ⟨state, [], []⟩ () =
      .ok before () ∧
    applyOperation context operation index before () = .ok after () ∧
    ∃ last,
      applyOperations context (envelope.operations.drop (index + 1)) (index + 1) after
          () = .ok last () ∧
        next = published (formatted last.staged) (state.worldRevision + 1)

theorem Commits.step {library : JsonLibrary F} {state next : Snapshot F}
    {envelope : Envelope F} {created : List CreatedBinding}
    (committed : Commits library state envelope next created) {index : Nat}
    {operation : Operation F} (present : envelope.operations[index]? = some operation) :
    ∃ before after, CommittedStep state envelope next index operation before after := by
  obtain ⟨_, staged, stagedOk, same⟩ := committed
  obtain ⟨last, _, run, _, _, sameStaged, _⟩ := stage_eq_ok.mp stagedOk
  obtain ⟨before, _, after, _, earlier, here, later⟩ :=
    applyOperations_split present run
  rw [Nat.zero_add] at here later
  exact ⟨before, after, earlier, here, last, later, by rw [same, sameStaged]⟩

/-- What exact arithmetic guarantees about the transforms of a world and about
every reparent committed on it. -/
structure CacheSafety (library : JsonLibrary F) (state : Snapshot F) : Prop where
  coherent : ∀ path index child, Coherent state path index child
  /-- At any depth the locals along the path compose to the stored transform. -/
  composed :
    ∀ position,
      (entityAt state position).isSome = true →
      ∃ base locals,
        AncestorPath state position base locals ∧
          ∀ path index,
            ∃ entity,
              entityAt state position = some entity ∧
                locals.foldlM
                    (fun world localTransform =>
                      compose world localTransform path index)
                    base =
                  .ok entity.transform
  reparented :
    ∀ envelope next created index operation,
      UnitRotations envelope → Commits library state envelope next created →
      envelope.operations[index]? = some (.entityReparent operation) →
      ∃ before after position entity parent,
        CommittedStep state envelope next index (.entityReparent operation) before
            after ∧
          Reparented operation index before after position entity parent

/-- In every world reached with unit rotations the stored transforms are the
compositions along the hierarchy, and a committed reparent moves what its mode
allows. -/
theorem cache_reachable {library : JsonLibrary F} {world : LiveWorld F}
    (reachable : ReachableBy library UnitRotations world) :
    CacheSafety library world.state := by
  obtain ⟨sound, cached⟩ := reachable.cached
  refine ⟨cached.coherent, ?_, ?_⟩
  · intro position live
    obtain ⟨base, locals, along⟩ := AncestorPath.exists sound.hierarchy.toLinked live
    exact ⟨base, locals, along, along.composes cached.coherent⟩
  · intro envelope next created index operation rotations committed present
    obtain ⟨before, after, earlier, here, rest⟩ := committed.step present
    have holds :=
      @applyOperations_invariant F _ Unit
        (plainContext (world.state.worldRevision + 1))
        (fun staging => Sound staging.staged ∧ Cached staging.staged)
        (envelope.operations.take index)
        (fun operation index staging following _ _ member current applied =>
          ⟨current.1.step applied,
            current.2.step current.1
              (fun transform same =>
                rotations transform (same ▸ List.mem_of_mem_take member)) applied⟩)
        0 ⟨world.state, [], []⟩ before () () ⟨sound, cached⟩ earlier
    obtain ⟨position, entity, parent, moves⟩ :=
      applyReparent_moves holds.1.hierarchy holds.2 here
    exact ⟨before, after, position, entity, parent, ⟨earlier, here, rest⟩, moves⟩

end Exact

/-- Two cubes, the second put under the turned and scaled first one. -/
def tiltPair : Envelope ℚ :=
  sampleEnvelope 0
    [sampleCreate "a", sampleCreate "b",
      .transformSet ⟨sampleName "a", ⟨1, 0, 0⟩, ⟨3 / 5, 0, 0, 4 / 5⟩, ⟨2, 2, 2⟩⟩,
      .entityReparent ⟨sampleName "b", some (sampleName "a"), ascii "preserve_local"⟩]

def tiltLibrary : JsonLibrary ℚ :=
  match operationsJson tiltPair.operations 0 with
  | .ok operations => remembering (envelopeJson tiltPair operations)
  | .error _ => remembering .null

def tiltedWorld : LiveWorld ℚ :=
  (applyAtBoundary tiltLibrary ⟨1, ⟨1, ascii "world", 7, 4, 0, []⟩⟩ tiltPair
    (none : Option (StagingGuard ℚ Unit)) (none : Option (CommitObserver ℚ Unit)) ()
    ()).world

theorem tiltPair_rotations : UnitRotations tiltPair := by
  intro operation member
  simp only [tiltPair, sampleEnvelope, sampleCreate, List.mem_cons, reduceCtorEq,
    Operation.transformSet.injEq, List.not_mem_nil, or_false, false_or] at member
  subst member
  unfold UnitRotation
  rw [squaredNorm_exact]
  norm_num

theorem cache_reachable_tilted :
    transformAt tiltedWorld.state 1 =
        some ⟨⟨1, 0, 0⟩, ⟨3 / 5, 0, 0, 4 / 5⟩, ⟨2, 2, 2⟩⟩ ∧
      CacheSafety tiltLibrary tiltedWorld.state :=
  ⟨by decide +kernel,
    cache_reachable
      (ReachableBy.call tiltPair none none none () () tiltPair_rotations
        (@ReachableBy.fresh ℚ _ _ _ 1 (ascii "world") 7 4 _ rfl))⟩

end Omniweft.Transactions
