import Omniweft.HierarchyForest

/-!
# What holds of every transform

Every stored or local transform is the default one, an accepted replacement, or
the result of a composition or of its inverse. A property closed under these
holds of all transforms of a world.
-/

namespace Omniweft.Transactions

open Omniweft.Outcome World Commands Relation

variable {α : Type} [Scalar α]

def transformAt (state : Snapshot α) (position : Nat) : Option (Transform α) :=
  (entityAt state position).map Entity.transform

def localAt (state : Snapshot α) (position : Nat) : Option (Transform α) :=
  (entityAt state position).map Entity.localTransform

theorem parentScale_anywhere {value : Transform α} {path path' : Text} {index index' : Nat}
    (accepted : parentScale value path index = .ok ()) :
    parentScale value path' index' = .ok () :=
  rejectIf_eq_ok.mpr (rejectIf_eq_ok.mp accepted)

theorem checked_anywhere {value result : Transform α} {path path' : Text}
    {index index' : Nat} (accepted : checked value path index = .ok result) :
    checked value path' index' = .ok result := by
  unfold checked at accepted ⊢
  obtain ⟨_, fine, same⟩ := bind_eq_ok.mp accepted
  exact bind_eq_ok.mpr ⟨(), rejectIf_eq_ok.mpr (rejectIf_eq_ok.mp fine), same⟩

/-- The path and the index only label the error of a composition. -/
theorem compose_anywhere {parent value result : Transform α} {path path' : Text}
    {index index' : Nat} (composed : compose parent value path index = .ok result) :
    compose parent value path' index' = .ok result := by
  unfold compose at composed ⊢
  obtain ⟨_, scaled, fine⟩ := bind_eq_ok.mp composed
  exact bind_eq_ok.mpr ⟨(), parentScale_anywhere scaled, checked_anywhere fine⟩

/-- Both transforms of every entity have the property. -/
def Everywhere (Good : Transform α → Prop) (state : Snapshot α) : Prop :=
  ∀ position entity,
    entityAt state position = some entity →
    Good entity.transform ∧ Good entity.localTransform

/-- A property of transforms that the arithmetic of the hierarchy keeps. -/
structure Closed (Good : Transform α → Prop) : Prop where
  default : Good Transform.default
  compose :
    ∀ parent localTransform world path index,
      Good parent → Good localTransform →
      compose parent localTransform path index = .ok world → Good world
  relative :
    ∀ parent value localTransform path index,
      Good parent → Good value →
      relative parent value path index = .ok localTransform → Good localTransform

omit [Scalar α] in
theorem entityAt_setEntity
    {state : Snapshot α} {position : Nat} {slot : Slot α} {entity next found : Entity α}
    (live : liveAt state position = some (slot, entity)) {other : Nat}
    (there : entityAt (setEntity state position next) other = some found) :
    (other = position ∧ found = next) ∨
      (other ≠ position ∧ entityAt state other = some found) := by
  by_cases here : position = other
  · subst here
    rw [entityAt_setEntity_same next (liveAt_eq_some.mp live).1, Option.some.injEq]
      at there
    exact Or.inl ⟨rfl, there.symm⟩
  · rw [entityAt_setEntity_other state next here] at there
    exact Or.inr ⟨Ne.symm here, there⟩

theorem Walk.entityAt_outside
    {base next : Snapshot α} {root : Nat} {path : Text} {index : Nat} {queue : List Nat}
    (walk : Walk base root path index queue next) {position : Nat}
    (outside : position ∉ queue) :
    entityAt next position = entityAt base position := by
  simp only [entityAt, Transactions.liveAt, walk.outside position outside]

theorem subtree_skeleton
    {base next : Snapshot α} {root index : Nat} {revision : UInt64} {path : Text}
    (linked : Linked base) (live : (entityAt base root).isSome = true)
    (walked : subtree base root revision path index = .ok next) :
    SameSkeleton base next := by
  rcases @subtree_walk α _ base root path index linked live revision with
    ⟨found, _, done, walk, _⟩ | ⟨_, failed, _⟩
  · rw [walked, Except.ok.injEq] at done
    subst done
    exact walk.skeleton
  · rw [walked] at failed
    exact absurd failed (by simp)

/-- The transform a reparent keeps in local terms. -/
def former (entity : Entity α) : Transform α :=
  if entity.parent.isSome then entity.localTransform else entity.transform

section Keeping

variable {Good : Transform α → Prop}

omit [Scalar α] in
theorem Everywhere.write
    {state : Snapshot α} (everywhere : Everywhere Good state) {position : Nat}
    {slot : Slot α} {entity next : Entity α}
    (live : liveAt state position = some (slot, entity))
    (good : Good next.transform ∧ Good next.localTransform) :
    Everywhere Good (setEntity state position next) := by
  intro other found there
  rcases entityAt_setEntity live there with ⟨_, same⟩ | ⟨_, old⟩
  · exact same ▸ good
  · exact everywhere other found old

omit [Scalar α] in
theorem Everywhere.former
    {state : Snapshot α} (everywhere : Everywhere Good state) {position : Nat}
    {entity : Entity α} (there : entityAt state position = some entity) :
    Good (former entity) := by
  unfold Transactions.former
  split
  · exact (everywhere position entity there).2
  · exact (everywhere position entity there).1

/-- The walk composes good transforms downward from its root. -/
theorem subtree_everywhere
    {base next : Snapshot α} {root index : Nat} {revision : UInt64} {path : Text}
    (closed : Closed Good) (linked : Linked base)
    (live : (entityAt base root).isSome = true) (everywhere : Everywhere Good base)
    (walked : subtree base root revision path index = .ok next) :
    Everywhere Good next := by
  rcases @subtree_walk α _ base root path index linked live revision with
    ⟨found, queue, done, walk, members, _⟩ | ⟨_, failed, _⟩
  · rw [walked, Except.ok.injEq] at done
    subst done
    have locals {position : Nat} {entity : Entity α}
        (there : entityAt next position = some entity) : Good entity.localTransform := by
      obtain ⟨old, oldThere, _, _, sameLocal, _⟩ := walk.skeleton.symm.entity there
      exact sameLocal ▸ (everywhere position old oldThere).2
    have below {position : Nat} (above : Forest.Above (Link base) position root) :
        ∀ entity, entityAt next position = some entity → Good entity.transform := by
      induction above using ReflTransGen.head_induction_on with
      | refl =>
          intro entity there
          obtain ⟨old, oldThere⟩ := Option.isSome_iff_exists.mp live
          have same := walk.rootTransform
          rw [there, oldThere, Option.map_some, Option.map_some,
            Option.some.injEq] at same
          exact same ▸ (everywhere root old oldThere).1
      | @head child parent link rest inductionHypothesis =>
          intro entity there
          by_cases here : child = root
          · subst here
            obtain ⟨old, oldThere⟩ := Option.isSome_iff_exists.mp live
            have same := walk.rootTransform
            rw [there, oldThere, Option.map_some, Option.map_some,
              Option.some.injEq] at same
            exact same ▸ (everywhere child old oldThere).1
          · have linkNext := walk.skeleton.link.mpr link
            obtain ⟨_, parentEntity, parentLive, _⟩ :=
              (walk.skeleton.linked linked).parent_live linkNext
            have parentThere : entityAt next parent = some parentEntity := by
              simp [entityAt, parentLive]
            have childQueued := (members child).mpr (ReflTransGen.head link rest)
            exact closed.compose _ _ _ path index
              (inductionHypothesis parentEntity parentThere) (locals there)
              (walk.coherent child childQueued here parent entity parentEntity linkNext
                there parentThere)
    intro position entity there
    refine ⟨?_, locals there⟩
    by_cases queued : position ∈ queue
    · exact below ((members position).mp queued) entity there
    · rw [walk.entityAt_outside queued] at there
      exact (everywhere position entity there).1
  · rw [walked] at failed
    exact absurd failed (by simp)

theorem Replaced.everywhere {state next : Snapshot α} {position : Nat}
    (closed : Closed Good) (replaced : Replaced state next position)
    (everywhere : Everywhere Good state) : Everywhere Good next := by
  intro other found there
  by_cases same : other = position
  · subst same
    obtain ⟨_, world, own⟩ := replaced.neutral found there
    exact ⟨world ▸ closed.default, own ▸ closed.default⟩
  · rw [replaced.entityAt same] at there
    exact everywhere other found there

theorem replacedLocal_good
    {state : Snapshot α} (closed : Closed Good) (hierarchy : Hierarchy state)
    (everywhere : Everywhere Good state) {position : Nat} {slot : Slot α}
    {entity : Entity α} (live : liveAt state position = some (slot, entity))
    {replacement localTransform : Transform α} {path : Text} {index : Nat}
    (good : Good replacement)
    (localOk :
      replacedLocal state slot entity replacement path index = .ok localTransform) :
    Good localTransform := by
  rcases parentOf_linked hierarchy.toLinked live with
    ⟨none, _, _⟩ | ⟨parent, _, parentEntity, found, parentLive, _⟩
  · simp only [replacedLocal, none, bind, Except.bind, Except.ok.injEq] at localOk
    exact localOk ▸ (everywhere position entity (by simp [entityAt, live])).2
  · simp only [replacedLocal, found, bind, Except.bind] at localOk
    exact closed.relative _ _ _ path index
      (everywhere parent parentEntity (by simp [entityAt, parentLive])).1 good localOk

theorem reparent_everywhere
    {state moved : Snapshot α} (closed : Closed Good) (everywhere : Everywhere Good state)
    {position : Nat} {slot : Slot α} {entity : Entity α}
    (live : liveAt state position = some (slot, entity))
    {parent : Option (Nat × Slot α × Entity α)}
    (parentLive :
      ∀ place parentSlot parentEntity,
        parent = some (place, parentSlot, parentEntity) →
        liveAt state place = some (parentSlot, parentEntity) ∧
          parentSlot.retired = false)
    {mode path : Text} {index : Nat}
    (movedOk : reparent state position entity parent mode path index = .ok moved) :
    Everywhere Good moved := by
  have there : entityAt state position = some entity := by simp [entityAt, live]
  have entityGood := everywhere position entity there
  rcases parent with _ | ⟨place, parentSlot, parentEntity⟩
  · rw [reparent_none_eq_ok.mp movedOk]
    refine everywhere.write live ⟨?_, closed.default⟩
    dsimp only
    split
    · exact everywhere.former there
    · exact entityGood.1
  · obtain ⟨placeLive, _⟩ := parentLive place parentSlot parentEntity rfl
    have placeGood :=
      (everywhere place parentEntity (by simp [entityAt, placeLive])).1
    obtain ⟨_, _, chosen⟩ := reparent_some_eq_ok.mp movedOk
    rcases chosen with ⟨_, localTransform, found, same⟩ | ⟨_, world, found, same⟩
    · subst same
      exact everywhere.write live
        ⟨entityGood.1, closed.relative _ _ _ path index placeGood entityGood.1 found⟩
    · subst same
      have formerGood := everywhere.former there
      exact everywhere.write live
        ⟨closed.compose _ _ _ path index placeGood formerGood found, formerGood⟩

/-- An operation whose replacements are good keeps all transforms good. -/
theorem Everywhere.step
    {revision : UInt64} {operation : Operation α} {index : Nat}
    {staging next : Staging α} (everywhere : Everywhere Good staging.staged)
    (closed : Closed Good) (sound : Sound staging.staged)
    (replacements :
      ∀ change replacement,
        operation = .transformSet change →
        transform change (operationPath index) index = .ok replacement →
        Good replacement)
    (applied :
      applyOperation (plainContext revision) operation index staging () =
        .ok next ()) :
    Everywhere Good next.staged := by
  obtain ⟨_, _, _, valid⟩ := (sound.step applied).slots
  have hierarchy := sound.hierarchy
  cases operation with
  | entityCreate operation =>
      obtain ⟨_, _, _, replaced⟩ :=
        applyCreate_replaced hierarchy.toLinked valid.distinct applied
      exact replaced.everywhere closed everywhere
  | transformSet operation =>
      obtain ⟨replacement, position, slot, entity, localTransform, staged, accepted,
        resolved, _, _, localOk, spread, same⟩ := applyTransform_eq_ok.mp applied
      obtain ⟨present, holds, _⟩ := resolve_live resolved
      have live := liveAt_eq_some.mpr ⟨present, holds⟩
      have good := replacements operation replacement rfl accepted
      subst same
      exact subtree_everywhere closed (transform_almost hierarchy live localOk).toLinked
        (by simp [entityAt_setEntity_same _ present])
        (everywhere.write live
          ⟨good, replacedLocal_good closed hierarchy everywhere live good localOk⟩)
        spread
  | entityDelete operation =>
      obtain ⟨_, _, replaced⟩ := applyDelete_replaced valid.distinct applied
      exact replaced.everywhere closed everywhere
  | entityReparent operation =>
      obtain ⟨position, slot, entity, parent, moved, staged, resolved, parented,
        movedOk, spread, _, same⟩ := applyReparent_eq_ok.mp applied
      obtain ⟨present, holds, _⟩ := resolve_live resolved
      have live := liveAt_eq_some.mpr ⟨present, holds⟩
      subst same
      obtain ⟨almost, rootLive⟩ :=
        reparent_almost hierarchy live (resolveParent_live parented) movedOk
      exact subtree_everywhere closed almost.toLinked rootLive
        (reparent_everywhere closed everywhere live (resolveParent_live parented)
          movedOk) spread
  | entityTagsSet operation =>
      obtain ⟨position, slot, entity, resolved, _, same⟩ :=
        applyTagsSet_eq_ok.mp applied
      obtain ⟨present, holds, _⟩ := resolve_live resolved
      have live := liveAt_eq_some.mpr ⟨present, holds⟩
      subst same
      exact everywhere.write live
        (everywhere position entity (by simp [entityAt, live]))

end Keeping

omit [Scalar α] in
theorem Everywhere.fresh (Good : Transform α → Prop) {worldId : Text}
    {seed maxSlots : UInt32} {state : Snapshot α}
    (created : create worldId seed maxSlots = .ok state) : Everywhere Good state := by
  obtain ⟨_, _, _, same⟩ := create_eq_ok.mp created
  intro position entity there
  obtain ⟨slot, present, _⟩ := entityAt_eq_some.mp there
  rw [same] at present
  exact absurd present (by simp)

/-- What closed properties hold of every transform of a reachable world. -/
theorem ReachableBy.everywhere {library : JsonLibrary α} {allowed : Envelope α → Prop}
    {Good : Transform α → Prop} (closed : Closed Good)
    (replacements :
      ∀ envelope change path index replacement,
        allowed envelope → (∃ bytes, serialize library envelope = .ok bytes) →
        .transformSet change ∈ envelope.operations →
        transform change path index = .ok replacement → Good replacement)
    {world : LiveWorld α} (reachable : ReachableBy library allowed world) :
    Everywhere Good world.state := by
  refine
    (@ReachableBy.invariant α _ library allowed
      (fun state => Sound state ∧ Everywhere Good state)
      (fun _ _ _ _ created => ⟨Sound.fresh created, Everywhere.fresh Good created⟩)
      ?_ world reachable).2
  intro state envelope next created allowed holds committed
  refine
    @Commits.invariant α _ library (fun state => Sound state ∧ Everywhere Good state)
      state next envelope created ?_ ?_ holds committed
  · intro operation index staging following member current applied
    refine ⟨current.1.step applied, current.2.step closed current.1 ?_ applied⟩
    intro change replacement same accepted
    have serialized := (admission_eq_ok.mp committed.1).1
    exact replacements envelope change _ _ replacement allowed serialized (same ▸ member)
      accepted
  · intro staged formatVersion worldRevision current
    exact ⟨current.1.relabel formatVersion worldRevision, current.2⟩

end Omniweft.Transactions
