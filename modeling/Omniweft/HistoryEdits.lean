import Omniweft.Content
import Omniweft.HierarchyTransforms
import Omniweft.History
import Omniweft.CommandsValid

/-!
# What a captured inverse restores

The edits a history accepts replace transforms of isolated entities and tags.
A batch of them leaves the rest of the content alone, and the captured inverse
puts back exactly the fields the batch touched.
-/

namespace Omniweft.Authoring

open Omniweft.Outcome World Commands Transactions

variable {α : Type} [Scalar α]

def Normal (value : Transform α) : Prop :=
  normalizeTransform value = value

theorem normalizeTransform_normal (value : Transform α) :
    Normal (normalizeTransform value) := by
  have once (component : α) :
      Scalar.normalizeZero (Scalar.normalizeZero component) =
        Scalar.normalizeZero component :=
    Scalar.normalizeZero_normal component
  simp [Normal, normalizeTransform, Vec3.map, Quat.map, once]

theorem checked_normal {value result : Transform α} {path : Text} {index : Nat}
    (accepted : checked value path index = .ok result) : Normal result := by
  simp only [checked, bind_eq_ok, rejectIf_eq_ok, pure_eq_ok] at accepted
  obtain ⟨_, _, same⟩ := accepted
  exact same ▸ normalizeTransform_normal value

theorem normal_closed : Closed (Normal : Transform α → Prop) where
  default := by
    have zero : Scalar.normalizeZero (Scalar.ofInt 0 : α) = Scalar.ofInt 0 :=
      Scalar.zero_normal
    have one : Scalar.normalizeZero (Scalar.ofInt 1 : α) = Scalar.ofInt 1 :=
      Scalar.one_normal
    simp [Normal, normalizeTransform, Transform.default, Vec3.map, Quat.map, zero, one]
  compose parent localTransform world path index _ _ composed := by
    simp only [compose, bind_eq_ok] at composed
    obtain ⟨_, _, accepted⟩ := composed
    exact checked_normal accepted
  relative parent value localTransform path index _ _ found := by
    simp only [relative, bind_eq_ok] at found
    obtain ⟨_, _, accepted⟩ := found
    exact checked_normal accepted

def tagsAt (state : Snapshot α) (position : Nat) : Option (List Text) :=
  (entityAt state position).map Entity.tags

def TagsSorted (state : Snapshot α) : Prop :=
  ∀ position entity,
    entityAt state position = some entity → sortTexts entity.tags = entity.tags

/-- Stored numbers are zero-normalised, stored tags sorted, and the format is
the one the slots need. -/
structure Tidy (state : Snapshot α) : Prop where
  normal : Everywhere Normal state
  sorted : TagsSorted state
  format : state.formatVersion = stagedFormat state.slots

/-- A property of the prefab and the tags of every entity. -/
def Labelled (Good : Text → List Text → Prop) (state : Snapshot α) : Prop :=
  ∀ position entity,
    entityAt state position = some entity → Good entity.prefabId entity.tags

omit [Scalar α] in
theorem Labelled.write {Good : Text → List Text → Prop}
    {state : Snapshot α} (labelled : Labelled Good state) {position : Nat} {slot : Slot α}
    {entity next : Entity α} (live : liveAt state position = some (slot, entity))
    (good : Good next.prefabId next.tags) :
    Labelled Good (setEntity state position next) := by
  intro other found there
  rcases entityAt_setEntity live there with ⟨_, same⟩ | ⟨_, old⟩
  · exact same ▸ good
  · exact labelled other found old

theorem Labelled.walk {Good : Text → List Text → Prop} {state next : Snapshot α}
    (labelled : Labelled Good state) (same : SameSkeleton state next) :
    Labelled Good next := by
  intro other found there
  obtain ⟨old, oldThere, samePrefab, _, _, sameTags⟩ := same.symm.entity there
  exact sameTags ▸ samePrefab ▸ labelled other old oldThere

theorem Labelled.step {Good : Text → List Text → Prop}
    {revision : UInt64} {operation : Operation α} {index : Nat}
    {staging next : Staging α} (sound : Sound staging.staged)
    (labelled : Labelled Good staging.staged)
    (fresh : Good (ascii "builtin.unit_cube") [])
    (tagged :
      ∀ change prefabId tags,
        operation = .entityTagsSet change → Good prefabId tags →
        Good prefabId (sortTexts change.tags))
    (applied :
      applyOperation (plainContext revision) operation index staging () =
        .ok next ()) :
    Labelled Good next.staged := by
  obtain ⟨_, _, _, valid⟩ := (sound.step applied).slots
  have hierarchy := sound.hierarchy
  cases operation with
  | entityCreate operation =>
      obtain ⟨_, _, _, _, builtin, _⟩ := applyCreate_eq_ok.mp applied
      obtain ⟨position, _, filled, replaced⟩ :=
        applyCreate_replaced hierarchy.toLinked valid.distinct applied
      intro other found there
      by_cases same : other = position
      · subst same
        rw [filled, Option.some.injEq] at there
        subst there
        rw [← builtin] at fresh
        exact fresh
      · rw [replaced.entityAt same] at there
        exact labelled other found there
  | transformSet operation =>
      obtain ⟨replacement, position, slot, entity, localTransform, staged, _, resolved,
        _, _, localOk, spread, same⟩ := applyTransform_eq_ok.mp applied
      obtain ⟨present, holds, _⟩ := resolve_live resolved
      have live := liveAt_eq_some.mpr ⟨present, holds⟩
      subst same
      have kept := labelled position entity (by simp [entityAt, live])
      have written :
          Labelled Good
            (setEntity staging.staged position
              { entity with
                transform := replacement, localTransform := localTransform }) :=
        labelled.write live kept
      exact written.walk
        (subtree_skeleton (transform_almost hierarchy live localOk).toLinked
          (by simp [entityAt_setEntity_same _ present]) spread)
  | entityDelete operation =>
      obtain ⟨position, gone, replaced⟩ :=
        applyDelete_replaced valid.distinct applied
      intro other found there
      by_cases same : other = position
      · subst same
        rw [gone] at there
        exact absurd there (by simp)
      · rw [replaced.entityAt same] at there
        exact labelled other found there
  | entityReparent operation =>
      obtain ⟨position, slot, entity, parent, moved, staged, resolved, parented,
        movedOk, spread, _, same⟩ := applyReparent_eq_ok.mp applied
      obtain ⟨present, holds, _⟩ := resolve_live resolved
      have live := liveAt_eq_some.mpr ⟨present, holds⟩
      subst same
      obtain ⟨almost, rootLive⟩ :=
        reparent_almost hierarchy live (resolveParent_live parented) movedOk
      have kept := labelled position entity (by simp [entityAt, live])
      refine Labelled.walk ?_ (subtree_skeleton almost.toLinked rootLive spread)
      rcases parent with _ | ⟨place, parentSlot, parentEntity⟩
      · rw [reparent_none_eq_ok.mp movedOk]
        exact labelled.write live kept
      · obtain ⟨_, _, chosen⟩ := reparent_some_eq_ok.mp movedOk
        rcases chosen with ⟨_, _, _, same⟩ | ⟨_, _, _, same⟩
        · exact same ▸ labelled.write live kept
        · exact same ▸ labelled.write live kept
  | entityTagsSet operation =>
      obtain ⟨position, slot, entity, resolved, _, same⟩ :=
        applyTagsSet_eq_ok.mp applied
      obtain ⟨present, holds, _⟩ := resolve_live resolved
      subst same
      exact labelled.write (liveAt_eq_some.mpr ⟨present, holds⟩)
        (tagged operation entity.prefabId entity.tags rfl
          (labelled position entity (entityAt_eq_some.mpr ⟨slot, present, holds⟩)))

theorem ReachableBy.labelled {library : JsonLibrary α} {allowed : Envelope α → Prop}
    {Good : Text → List Text → Prop} (fresh : Good (ascii "builtin.unit_cube") [])
    (tagged :
      ∀ (envelope : Envelope α) change prefabId tags,
        ValidEnvelope envelope → .entityTagsSet change ∈ envelope.operations →
        Good prefabId tags → Good prefabId (sortTexts change.tags))
    {world : LiveWorld α} (reachable : ReachableBy library allowed world) :
    Labelled Good world.state := by
  refine
    (@ReachableBy.invariant α _ library allowed
      (fun state => Sound state ∧ Labelled Good state) ?_ ?_ world reachable).2
  · intro worldId seed maxSlots state created
    refine ⟨Sound.fresh created, ?_⟩
    intro position entity there
    obtain ⟨_, _, _, same⟩ := create_eq_ok.mp created
    obtain ⟨slot, present, _⟩ := entityAt_eq_some.mp there
    rw [same] at present
    exact absurd present (by simp)
  · intro state envelope next created _ holds committed
    obtain ⟨⟨bytes, serialized⟩, _⟩ := admission_eq_ok.mp committed.1
    have valid := (serialize_eq_ok serialized).1
    refine
      @Commits.invariant α _ library (fun state => Sound state ∧ Labelled Good state)
        state next envelope created ?_ ?_ holds committed
    · intro operation index staging following member current applied
      refine ⟨current.1.step applied, current.2.step current.1 fresh ?_ applied⟩
      intro change prefabId tags same
      exact tagged envelope change prefabId tags valid (same ▸ member)
    · intro staged formatVersion worldRevision current
      exact ⟨current.1.relabel formatVersion worldRevision, current.2⟩

theorem reachable_tidy {library : JsonLibrary α} {allowed : Envelope α → Prop}
    {world : LiveWorld α} (reachable : ReachableBy library allowed world) :
    Tidy world.state := by
  refine ⟨?_, ?_, ?_⟩
  · refine reachable.everywhere normal_closed ?_
    intro _ change path index replacement _ _ _ accepted
    obtain ⟨_, _, _, same⟩ := transform_eq_ok.mp accepted
    exact same ▸ normalizeTransform_normal _
  · refine @ReachableBy.labelled α _ library allowed
      (fun _ tags => sortTexts tags = tags) rfl ?_ world reachable
    intro _ change _ _ _ _ _
    exact sortTexts_eq_self (sortTexts_sorted change.tags)
  · refine @ReachableBy.invariant α _ library allowed
      (fun state => state.formatVersion = stagedFormat state.slots) ?_ ?_ world reachable
    · intro worldId seed maxSlots state created
      obtain ⟨_, _, _, same⟩ := create_eq_ok.mp created
      rw [same]
      rfl
    · intro state envelope next created _ _ committed
      obtain ⟨_, staged, stagedOk, same⟩ := committed
      obtain ⟨last, _, _, _, _, sameStaged, _⟩ := stage_eq_ok.mp stagedOk
      rw [same, sameStaged]
      rfl

/-- A slot without the fields an edit writes. -/
def shape (slot : Slot α) : Slot α :=
  { slot with
    entity := slot.entity.map fun entity =>
      { entity with authoringRevision := 0, transform := Transform.default, tags := [] } }

/-- `state` is `base` but for revisions, the transforms of the `moved` slots and
the tags of the `tagged` ones. -/
structure Touched (base : Snapshot α) (moved tagged : Nat → Prop) (state : Snapshot α) :
    Prop where
  worldId : state.worldId = base.worldId
  seed : state.seed = base.seed
  maxSlots : state.maxSlots = base.maxSlots
  shapes : state.slots.map shape = base.slots.map shape
  transforms :
    ∀ position, ¬ moved position →
      transformAt state position = transformAt base position
  tags : ∀ position, ¬ tagged position → tagsAt state position = tagsAt base position

theorem Touched.start (base : Snapshot α) :
    Touched base (fun _ => False) (fun _ => False) base :=
  ⟨rfl, rfl, rfl, rfl, fun _ _ => rfl, fun _ _ => rfl⟩

theorem Touched.slot {base state : Snapshot α} {moved tagged : Nat → Prop}
    (touched : Touched base moved tagged state) {position : Nat} {slot : Slot α}
    (present : state.slots[position]? = some slot) :
    ∃ old, base.slots[position]? = some old ∧ shape slot = shape old := by
  have places := congrArg (fun slots => slots[position]?) touched.shapes
  simp only [List.getElem?_map, present, Option.map_some] at places
  obtain ⟨old, oldPresent, same⟩ := Option.map_eq_some_iff.mp places.symm
  exact ⟨old, oldPresent, same.symm⟩

theorem shape_childOf (child parent : Slot α) :
    childOf (shape child) (shape parent) = childOf child parent := by
  cases holds : child.entity with
  | none => simp [childOf, shape, holds]
  | some entity => simp [childOf, shape, holds]

/-- Edits do not change who is whose child. -/
theorem Touched.hasChildren {base state : Snapshot α} {moved tagged : Nat → Prop}
    (touched : Touched base moved tagged state) {slot old : Slot α}
    (same : shape slot = shape old) :
    Transactions.hasChildren state slot = Transactions.hasChildren base old := by
  have view (snapshot : Snapshot α) (parent : Slot α) :
      Transactions.hasChildren snapshot parent =
        (snapshot.slots.map shape).any fun child => childOf child (shape parent) := by
    unfold Transactions.hasChildren
    rw [List.any_map]
    congr 1
    funext child
    exact (shape_childOf child parent).symm
  rw [view, view, touched.shapes, same]

/-- With nothing left touched the contents agree. -/
theorem Touched.content_slots {base state : Snapshot α}
    (touched : Touched base (fun _ => False) (fun _ => False) state) :
    state.slots.map plainSlot = base.slots.map plainSlot := by
  apply List.ext_getElem?
  intro position
  rw [List.getElem?_map, List.getElem?_map]
  cases present : state.slots[position]? with
  | none =>
      have length := congrArg List.length touched.shapes
      rw [List.length_map, List.length_map] at length
      have outside := List.getElem?_eq_none_iff.mp present
      rw [List.getElem?_eq_none (by omega)]
  | some slot =>
      obtain ⟨old, oldPresent, same⟩ := touched.slot present
      have transforms := touched.transforms position id
      have tags := touched.tags position id
      rw [oldPresent, Option.map_some, Option.map_some, Option.some.injEq]
      simp only [transformAt, tagsAt, entityAt, liveAt, present, oldPresent]
        at transforms tags
      obtain ⟨entityUuid, generation, retired, entity⟩ := slot
      obtain ⟨oldUuid, oldGeneration, oldRetired, oldEntity⟩ := old
      simp only [shape, Slot.mk.injEq] at same
      obtain ⟨sameUuid, sameGeneration, sameRetired, sameEntity⟩ := same
      subst sameUuid sameGeneration sameRetired
      cases entity with
      | none =>
          cases oldEntity with
          | none => rfl
          | some held => simp at sameEntity
      | some found =>
          cases oldEntity with
          | none => simp at sameEntity
          | some held =>
              simp only [Option.map_some, Option.some.injEq, Entity.mk.injEq] at sameEntity
              simp only [Option.map_some, Option.some.injEq] at transforms tags
              simp [plainSlot, plainEntity, sameEntity, transforms, tags]

/-- One edit moves the touched sets: its own field is back at the base or now
among them. -/
theorem Touched.write {base state : Snapshot α} {moved tagged : Nat → Prop}
    (touched : Touched base moved tagged state) {position : Nat} {slot : Slot α}
    {entity next : Entity α} (live : liveAt state position = some (slot, entity))
    (samePrefab : next.prefabId = entity.prefabId)
    (sameParent : next.parent = entity.parent)
    (sameLocal : next.localTransform = entity.localTransform)
    {nextMoved nextTagged : Nat → Prop}
    (transforms :
      ∀ other, ¬ nextMoved other →
        (other = position → transformAt base position = some next.transform) ∧
          (other ≠ position → ¬ moved other))
    (tags :
      ∀ other, ¬ nextTagged other →
        (other = position → tagsAt base position = some next.tags) ∧
          (other ≠ position → ¬ tagged other)) :
    Touched base nextMoved nextTagged (setEntity state position next) := by
  obtain ⟨present, holds⟩ := liveAt_eq_some.mp live
  have here : entityAt (setEntity state position next) position = some next :=
    entityAt_setEntity_same next present
  refine ⟨touched.worldId, touched.seed, touched.maxSlots, ?_, ?_, ?_⟩
  · refine (setEntity_map shape present ?_).trans touched.shapes
    simp [shape, holds, samePrefab, sameParent, sameLocal]
  · intro other outside
    obtain ⟨own, others⟩ := transforms other outside
    by_cases same : other = position
    · subst same
      rw [own rfl, transformAt, here, Option.map_some]
    · rw [transformAt, entityAt_setEntity_other _ _ (Ne.symm same)]
      exact touched.transforms other (others same)
  · intro other outside
    obtain ⟨own, others⟩ := tags other outside
    by_cases same : other = position
    · subst same
      rw [own rfl, tagsAt, here, Option.map_some]
    · rw [tagsAt, entityAt_setEntity_other _ _ (Ne.symm same)]
      exact touched.tags other (others same)

/-- The slot of `base` a target names. -/
def Named (base : Snapshot α) (target : Target) (position : Nat) : Prop :=
  ∃ identity slot,
    target = .entity identity ∧ base.slots[position]? = some slot ∧
      slot.entityUuid = identity.entityUuid

omit [Scalar α] in
theorem Named.unique {base : Snapshot α} (distinct : Distinct base) {target : Target}
    {first second : Nat} (one : Named base target first)
    (two : Named base target second) : first = second := by
  obtain ⟨identity, slot, target, present, same⟩ := one
  obtain ⟨identity', slot', target', present', same'⟩ := two
  rw [target, Target.entity.injEq] at target'
  subst target'
  exact distinct first second slot slot' present present' (same.trans same'.symm)

/-- An edit the history accepts on `base`: tags of a live entity, or the
transform of an isolated one. -/
def Edit (base : Snapshot α) : Operation α → Prop
  | .transformSet change =>
      ∃ position slot entity,
        Named base change.target position ∧
          liveAt base position = some (slot, entity) ∧ entity.parent = none ∧
          hasChildren base slot = false
  | .entityTagsSet change => ∃ position, Named base change.target position
  | _ => False

/-- An edit that puts a field of `base` back. -/
def Restores (base : Snapshot α) : Operation α → Prop
  | .transformSet change =>
      ∃ position,
        Named base change.target position ∧
          transformAt base position =
            some ⟨change.positionM, change.rotationXyzw, change.scale⟩
  | .entityTagsSet change =>
      ∃ position,
        Named base change.target position ∧ tagsAt base position = some change.tags
  | _ => False

/-- The slots whose transform, and those whose tags, a batch of edits names. -/
def Moves (base : Snapshot α) (operations : List (Operation α)) (position : Nat) :
    Prop :=
  ∃ change, .transformSet change ∈ operations ∧ Named base change.target position

def Tags (base : Snapshot α) (operations : List (Operation α)) (position : Nat) : Prop :=
  ∃ change, .entityTagsSet change ∈ operations ∧ Named base change.target position

/-- The slot the coordinator finds in an edited copy is the one the target
names in the base. -/
theorem Touched.named {base state : Snapshot α} {moved tagged : Nat → Prop}
    (touched : Touched base moved tagged state) {target : Target}
    {names : Transactions.Names} {path : Text} {index position place : Nat}
    {slot : Slot α} {entity : Entity α} (named : Named base target place)
    (resolved :
      Transactions.resolve state target names path index =
        .ok (position, slot, entity)) :
    Named base target position ∧
      ∃ old, base.slots[position]? = some old ∧ shape slot = shape old := by
  obtain ⟨identity, _, sameTarget, _, _⟩ := named
  subst sameTarget
  obtain ⟨found, sameIdentity, _, located, _⟩ := resolve_eq_ok.mp resolved
  simp only [namedBy, Option.some.injEq] at sameIdentity
  subst sameIdentity
  obtain ⟨present, sameUuid, _⟩ := locate_eq_some.mp located
  obtain ⟨old, oldPresent, same⟩ := touched.slot present
  refine ⟨⟨identity, old, rfl, oldPresent, ?_⟩, old, oldPresent, same⟩
  have uuids := congrArg Slot.entityUuid same
  exact uuids.symm.trans (eq_of_beq sameUuid)

/-- A new transform for an entity that has no children in the base reaches no other. -/
theorem Touched.spreads {base state : Snapshot α} {moved tagged : Nat → Prop}
    (touched : Touched base moved tagged state) {position : Nat} {slot old : Slot α}
    {entity : Entity α} (live : liveAt state position = some (slot, entity))
    (same : shape slot = shape old)
    (childless : Transactions.hasChildren base old = false)
    (replacement : Transform α) (revision : UInt64) (path : Text) (index : Nat) :
    subtree (setEntity state position { entity with transform := replacement }) position
        revision path index =
      .ok (setEntity state position
        { entity with transform := replacement, authoringRevision := revision }) := by
  obtain ⟨present, holds⟩ := liveAt_eq_some.mp live
  set written : Entity α := { entity with transform := replacement } with writtenEqual
  have rewritten :
      Touched base (fun other => moved other ∨ other = position) tagged
        (setEntity state position written) := by
    refine @Touched.write α _ base state moved tagged touched position slot entity written
      live rfl rfl rfl _ _ ?_ ?_
    · intro other outside
      exact ⟨fun same => absurd (Or.inr same) outside,
        fun _ inside => outside (Or.inl inside)⟩
    · intro other outside
      refine ⟨fun same => ?_, fun _ => outside⟩
      rw [same] at outside
      rw [← touched.tags position outside]
      simp [tagsAt, entityAt, live, writtenEqual]
  have writtenLive :
      liveAt (setEntity state position written) position =
        some ({ slot with entity := some written }, written) :=
    liveAt_eq_some.mpr ⟨setEntity_same _ present, rfl⟩
  have sameWritten : shape { slot with entity := some written } = shape old := by
    rw [← same]
    simp [shape, holds, writtenEqual]
  rw [subtree_childless writtenLive ((rewritten.hasChildren sameWritten).trans childless),
    setEntity_setEntity]

/-- What an accepted edit writes. -/
theorem edit_writes
    {base : Snapshot α} {moved tagged : Nat → Prop} {revision : UInt64}
    {operation : Operation α} {index : Nat} {staging next : Staging α}
    (distinct : Distinct base) (touched : Touched base moved tagged staging.staged)
    (edit : Edit base operation)
    (applied :
      applyOperation (plainContext revision) operation index staging () =
        .ok next ()) :
    ∃ position slot entity written,
      liveAt staging.staged position = some (slot, entity) ∧
        next.staged = setEntity staging.staged position written ∧
        written.prefabId = entity.prefabId ∧ written.parent = entity.parent ∧
        written.localTransform = entity.localTransform ∧
        ((∃ change,
            operation = .transformSet change ∧ Named base change.target position ∧
              written.tags = entity.tags ∧
              written.transform =
                normalizeTransform
                  ⟨change.positionM, change.rotationXyzw, change.scale⟩) ∨
          ∃ change,
            operation = .entityTagsSet change ∧ Named base change.target position ∧
              written.transform = entity.transform ∧
              written.tags = sortTexts change.tags) := by
  cases operation with
  | entityCreate operation => exact absurd edit id
  | entityDelete operation => exact absurd edit id
  | entityReparent operation => exact absurd edit id
  | transformSet change =>
      obtain ⟨place, baseSlot, baseEntity, named, baseLive, rootless, childless⟩ := edit
      obtain ⟨replacement, position, slot, entity, localTransform, staged, accepted,
        resolved, _, _, localOk, spread, same⟩ := applyTransform_eq_ok.mp applied
      obtain ⟨present, holds, _⟩ := resolve_live resolved
      have live := liveAt_eq_some.mpr ⟨present, holds⟩
      obtain ⟨here, old, oldPresent, sameShape⟩ := touched.named named resolved
      have samePlace := here.unique distinct named
      subst samePlace
      obtain ⟨basePresent, baseHolds⟩ := liveAt_eq_some.mp baseLive
      rw [oldPresent, Option.some.injEq] at basePresent
      subst basePresent
      -- The copy's entity is as isolated as the base's.
      have sameParent : entity.parent = none := by
        have shapes := congrArg Slot.entity sameShape
        simp only [shape, holds, baseHolds, Option.map_some, Option.some.injEq,
          Entity.mk.injEq] at shapes
        exact shapes.2.2.2.1.trans rootless
      have orphan : parentOf staging.staged slot = .ok none := by
        simp [parentOf, holds, sameParent]
      simp only [replacedLocal, orphan, bind, Except.bind, Except.ok.injEq] at localOk
      subst localOk
      obtain ⟨_, _, _, sameReplacement⟩ := transform_eq_ok.mp accepted
      rw [touched.spreads live sameShape childless, Except.ok.injEq] at spread
      subst same
      refine ⟨position, slot, entity, _, live, spread.symm, rfl, rfl, rfl,
        Or.inl ⟨change, rfl, here, rfl, sameReplacement⟩⟩
  | entityTagsSet change =>
      obtain ⟨place, named⟩ := edit
      obtain ⟨position, slot, entity, resolved, _, same⟩ :=
        applyTagsSet_eq_ok.mp applied
      obtain ⟨present, holds, _⟩ := resolve_live resolved
      obtain ⟨here, _⟩ := touched.named named resolved
      subst same
      exact ⟨position, slot, entity, _, liveAt_eq_some.mpr ⟨present, holds⟩, rfl, rfl,
        rfl, rfl, Or.inr ⟨change, rfl, here, rfl, rfl⟩⟩

/-- An edit touches at most the field it names. -/
theorem Touched.edit
    {base : Snapshot α} {moved tagged : Nat → Prop} {revision : UInt64}
    {operation : Operation α} {index : Nat} {staging next : Staging α}
    (distinct : Distinct base) (touched : Touched base moved tagged staging.staged)
    (edit : Edit base operation)
    (applied :
      applyOperation (plainContext revision) operation index staging () =
        .ok next ()) :
    Touched base (fun position => moved position ∨ Moves base [operation] position)
      (fun position => tagged position ∨ Tags base [operation] position) next.staged := by
  obtain ⟨position, slot, entity, written, live, same, samePrefab, sameParent, sameLocal,
    kind⟩ := edit_writes distinct touched edit applied
  rw [same]
  have there : entityAt staging.staged position = some entity := by simp [entityAt, live]
  rcases kind with ⟨change, chosen, here, sameTags, _⟩ | ⟨change, chosen, here, sameMove, _⟩
  · subst chosen
    refine touched.write live samePrefab sameParent sameLocal ?_ ?_
    · intro other outside
      obtain ⟨untouched, unnamed⟩ := not_or.mp outside
      refine ⟨fun same => ?_, fun _ => untouched⟩
      exact absurd ⟨change, List.mem_singleton_self _, same ▸ here⟩ unnamed
    · intro other outside
      have untouched := (not_or.mp outside).1
      refine ⟨fun same => ?_, fun _ => untouched⟩
      subst same
      rw [← touched.tags other untouched, tagsAt, there, Option.map_some, sameTags]
  · subst chosen
    refine touched.write live samePrefab sameParent sameLocal ?_ ?_
    · intro other outside
      have untouched := (not_or.mp outside).1
      refine ⟨fun same => ?_, fun _ => untouched⟩
      subst same
      rw [← touched.transforms other untouched, transformAt, there, Option.map_some,
        sameMove]
    · intro other outside
      obtain ⟨untouched, unnamed⟩ := not_or.mp outside
      refine ⟨fun same => ?_, fun _ => untouched⟩
      exact absurd ⟨change, List.mem_singleton_self _, same ▸ here⟩ unnamed

/-- An edit that restores a field takes it out of the touched ones. -/
theorem Touched.restore
    {base : Snapshot α} {moved tagged : Nat → Prop} {revision : UInt64}
    {operation : Operation α} {index : Nat} {staging next : Staging α}
    (distinct : Distinct base) (tidy : Tidy base)
    (touched : Touched base moved tagged staging.staged) (edit : Edit base operation)
    (restores : Restores base operation)
    (applied :
      applyOperation (plainContext revision) operation index staging () =
        .ok next ()) :
    Touched base (fun position => moved position ∧ ¬ Moves base [operation] position)
      (fun position => tagged position ∧ ¬ Tags base [operation] position)
      next.staged := by
  obtain ⟨position, slot, entity, written, live, same, samePrefab, sameParent, sameLocal,
    kind⟩ := edit_writes distinct touched edit applied
  rw [same]
  have there : entityAt staging.staged position = some entity := by simp [entityAt, live]
  rcases kind with
    ⟨change, chosen, here, sameTags, replaced⟩ | ⟨change, chosen, here, sameMove, replaced⟩
  · subst chosen
    obtain ⟨place, named, old⟩ := restores
    have samePlace := named.unique distinct here
    subst samePlace
    have normal :
        written.transform = ⟨change.positionM, change.rotationXyzw, change.scale⟩ := by
      obtain ⟨baseEntity, baseThere, sameBase⟩ := Option.map_eq_some_iff.mp old
      rw [replaced, ← sameBase]
      exact (tidy.normal place baseEntity baseThere).1
    refine touched.write live samePrefab sameParent sameLocal ?_ ?_
    · intro other outside
      refine ⟨fun same => by rw [old, normal],
        fun different inside => outside ⟨inside, ?_⟩⟩
      rintro ⟨other', member, otherNamed⟩
      rw [List.mem_singleton, Operation.transformSet.injEq] at member
      subst member
      exact different (otherNamed.unique distinct named)
    · intro other outside
      have untouched : ¬ tagged other := fun inside => outside ⟨inside, by
        rintro ⟨_, member, _⟩
        exact absurd (List.mem_singleton.mp member) (by simp)⟩
      refine ⟨fun same => ?_, fun _ => untouched⟩
      subst same
      rw [← touched.tags other untouched, tagsAt, there, Option.map_some, sameTags]
  · subst chosen
    obtain ⟨place, named, old⟩ := restores
    have samePlace := named.unique distinct here
    subst samePlace
    have sorted : written.tags = change.tags := by
      obtain ⟨baseEntity, baseThere, sameBase⟩ := Option.map_eq_some_iff.mp old
      rw [replaced, ← sameBase]
      exact tidy.sorted place baseEntity baseThere
    refine touched.write live samePrefab sameParent sameLocal ?_ ?_
    · intro other outside
      have untouched : ¬ moved other := fun inside => outside ⟨inside, by
        rintro ⟨_, member, _⟩
        exact absurd (List.mem_singleton.mp member) (by simp)⟩
      refine ⟨fun same => ?_, fun _ => untouched⟩
      subst same
      rw [← touched.transforms other untouched, transformAt, there, Option.map_some,
        sameMove]
    · intro other outside
      refine ⟨fun same => by rw [old, sorted],
        fun different inside => outside ⟨inside, ?_⟩⟩
      rintro ⟨other', member, otherNamed⟩
      rw [List.mem_singleton, Operation.entityTagsSet.injEq] at member
      subst member
      exact different (otherNamed.unique distinct named)

theorem Touched.weaken {base state : Snapshot α} {moved tagged more also : Nat → Prop}
    (touched : Touched base moved tagged state)
    (moreMoved : ∀ position, moved position → more position)
    (alsoTagged : ∀ position, tagged position → also position) :
    Touched base more also state where
  worldId := touched.worldId
  seed := touched.seed
  maxSlots := touched.maxSlots
  shapes := touched.shapes
  transforms position outside :=
    touched.transforms position fun inside => outside (moreMoved position inside)
  tags position outside :=
    touched.tags position fun inside => outside (alsoTagged position inside)

theorem Touched.edits
    {base : Snapshot α} {revision : UInt64} {operations : List (Operation α)}
    (distinct : Distinct base)
    (edits : ∀ operation, operation ∈ operations → Edit base operation) :
    ∀ {moved tagged : Nat → Prop} {index : Nat} {staging last : Staging α},
      Touched base moved tagged staging.staged →
      applyOperations (plainContext revision) operations index staging () =
        .ok last () →
      Touched base (fun position => moved position ∨ Moves base operations position)
        (fun position => tagged position ∨ Tags base operations position)
        last.staged := by
  induction operations with
  | nil =>
      intro moved tagged index staging last touched applied
      rw [← (applyOperations_nil_eq_ok.mp applied).1]
      exact touched.weaken (fun _ => Or.inl) (fun _ => Or.inl)
  | cons operation rest inductionHypothesis =>
      intro moved tagged index staging last touched applied
      obtain ⟨next, _, first, others⟩ := applyOperations_cons_eq_ok.mp applied
      have once := touched.edit distinct (edits operation List.mem_cons_self) first
      have whole :=
        inductionHypothesis
          (fun later member => edits later (List.mem_cons_of_mem operation member)) once
          others
      refine whole.weaken ?_ ?_
      · intro position inside
        rcases inside with (before | ⟨change, member, named⟩) | ⟨change, member, named⟩
        · exact Or.inl before
        · exact Or.inr ⟨change,
            List.mem_cons.mpr (Or.inl (List.mem_singleton.mp member)), named⟩
        · exact Or.inr ⟨change, List.mem_cons_of_mem operation member, named⟩
      · intro position inside
        rcases inside with (before | ⟨change, member, named⟩) | ⟨change, member, named⟩
        · exact Or.inl before
        · exact Or.inr ⟨change,
            List.mem_cons.mpr (Or.inl (List.mem_singleton.mp member)), named⟩
        · exact Or.inr ⟨change, List.mem_cons_of_mem operation member, named⟩

theorem Touched.restored
    {base : Snapshot α} {revision : UInt64} {operations : List (Operation α)}
    (distinct : Distinct base) (tidy : Tidy base)
    (edits :
      ∀ operation, operation ∈ operations →
        Edit base operation ∧ Restores base operation) :
    ∀ {moved tagged : Nat → Prop} {index : Nat} {staging last : Staging α},
      Touched base moved tagged staging.staged →
      applyOperations (plainContext revision) operations index staging () =
        .ok last () →
      Touched base (fun position => moved position ∧ ¬ Moves base operations position)
        (fun position => tagged position ∧ ¬ Tags base operations position)
        last.staged := by
  induction operations with
  | nil =>
      intro moved tagged index staging last touched applied
      rw [← (applyOperations_nil_eq_ok.mp applied).1]
      refine touched.weaken (fun _ inside => ⟨inside, ?_⟩) (fun _ inside => ⟨inside, ?_⟩)
      · rintro ⟨_, member, _⟩
        exact absurd member (by simp)
      · rintro ⟨_, member, _⟩
        exact absurd member (by simp)
  | cons operation rest inductionHypothesis =>
      intro moved tagged index staging last touched applied
      obtain ⟨next, _, first, others⟩ := applyOperations_cons_eq_ok.mp applied
      obtain ⟨edit, restores⟩ := edits operation List.mem_cons_self
      have once := touched.restore distinct tidy edit restores first
      have whole :=
        inductionHypothesis
          (fun later member => edits later (List.mem_cons_of_mem operation member)) once
          others
      refine whole.weaken ?_ ?_
      · intro position ⟨⟨inside, notFirst⟩, notRest⟩
        refine ⟨inside, ?_⟩
        rintro ⟨change, member, named⟩
        rcases List.mem_cons.mp member with same | later
        · exact notFirst ⟨change, List.mem_singleton.mpr same, named⟩
        · exact notRest ⟨change, later, named⟩
      · intro position ⟨⟨inside, notFirst⟩, notRest⟩
        refine ⟨inside, ?_⟩
        rintro ⟨change, member, named⟩
        rcases List.mem_cons.mp member with same | later
        · exact notFirst ⟨change, List.mem_singleton.mpr same, named⟩
        · exact notRest ⟨change, later, named⟩

omit [Scalar α] in
/-- The slot the history resolves a target to. -/
theorem resolve_eq_some {base : Snapshot α} {target : Target} {slot : Slot α}
    {entity : Entity α} (resolved : resolve base target = some (slot, entity)) :
    ∃ identity position,
      target = .entity identity ∧ identity.worldId = base.worldId ∧
        liveAt base position = some (slot, entity) ∧
        slot.entityUuid = identity.entityUuid ∧ slot.generation = identity.generation ∧
        slot.retired = false := by
  cases target with
  | temporary reference => simp [resolve] at resolved
  | entity identity =>
      unfold resolve at resolved
      dsimp only at resolved
      split at resolved
      · exact absurd resolved (by simp)
      · rename_i here
        obtain ⟨found, located, held⟩ := Option.bind_eq_some_iff.mp resolved
        obtain ⟨holder, holds, same⟩ := Option.map_eq_some_iff.mp held
        rw [Prod.mk.injEq] at same
        obtain ⟨sameSlot, sameEntity⟩ := same
        subst sameSlot sameEntity
        have passes := List.find?_some located
        simp only [Bool.and_eq_true, beq_iff_eq, Bool.not_eq_true'] at passes
        obtain ⟨position, inside, there⟩ :=
          List.mem_iff_getElem.mp (List.mem_of_find?_eq_some located)
        have present : base.slots[position]? = some found := by
          rw [List.getElem?_eq_getElem inside, there]
        refine ⟨identity, position, rfl, ?_, liveAt_eq_some.mpr ⟨present, holds⟩,
          passes.1.1.1, passes.1.1.2, passes.2⟩
        simpa using here

omit [Scalar α] in
theorem resolve_named {base : Snapshot α} {target : Target} {slot : Slot α}
    {entity : Entity α} (resolved : resolve base target = some (slot, entity)) :
    ∃ position, Named base target position ∧ liveAt base position = some (slot, entity) := by
  obtain ⟨identity, position, same, _, live, uuid, _⟩ := resolve_eq_some resolved
  exact ⟨position, ⟨identity, slot, same, (liveAt_eq_some.mp live).1, uuid⟩, live⟩

omit [Scalar α] in
/-- What a captured operation says about its original. -/
theorem capture_eq_ok {base : Snapshot α} {operation inverse : Operation α}
    (captured : capture base operation = .ok inverse) :
    Edit base operation ∧ Edit base inverse ∧ Restores base inverse ∧
      (∀ position, Moves base [inverse] position ↔ Moves base [operation] position) ∧
      ∀ position, Tags base [inverse] position ↔ Tags base [operation] position := by
  cases operation with
  | entityCreate operation => simp [capture] at captured
  | entityDelete operation => simp [capture] at captured
  | entityReparent operation => simp [capture] at captured
  | transformSet change =>
      cases resolved : resolve base change.target with
      | none => simp [capture, resolved] at captured
      | some found =>
          obtain ⟨slot, entity⟩ := found
          cases alone : isolated base slot entity with
          | false => simp [capture, resolved, alone] at captured
          | true =>
              simp only [capture, resolved, alone, if_true, Except.ok.injEq] at captured
              subst captured
              obtain ⟨position, named, live⟩ := resolve_named resolved
              simp only [isolated, Bool.and_eq_true, Option.isNone_iff_eq_none,
                Bool.not_eq_true'] at alone
              refine ⟨⟨position, slot, entity, named, live, alone⟩,
                ⟨position, slot, entity, named, live, alone⟩,
                ⟨position, named, by simp [transformAt, entityAt, live]⟩, ?_, ?_⟩
              · intro position
                simp [Moves]
              · intro position
                simp [Tags]
  | entityTagsSet change =>
      cases resolved : resolve base change.target with
      | none => simp [capture, resolved] at captured
      | some found =>
          obtain ⟨slot, entity⟩ := found
          simp only [capture, resolved, Except.ok.injEq] at captured
          subst captured
          obtain ⟨position, named, live⟩ := resolve_named resolved
          refine ⟨⟨position, named⟩, ⟨position, named⟩,
            ⟨position, named, by simp [tagsAt, entityAt, live]⟩, ?_, ?_⟩
          · intro position
            simp [Moves]
          · intro position
            simp [Tags]

omit [Scalar α] in
theorem moves_cons {base : Snapshot α} {operation : Operation α}
    {rest : List (Operation α)} {position : Nat} :
    Moves base (operation :: rest) position ↔
      Moves base [operation] position ∨ Moves base rest position := by
  simp only [Moves, List.mem_cons, List.not_mem_nil, or_false, or_and_right, exists_or]

omit [Scalar α] in
theorem tags_cons {base : Snapshot α} {operation : Operation α}
    {rest : List (Operation α)} {position : Nat} :
    Tags base (operation :: rest) position ↔
      Tags base [operation] position ∨ Tags base rest position := by
  simp only [Tags, List.mem_cons, List.not_mem_nil, or_false, or_and_right, exists_or]

omit [Scalar α] in
theorem captureAll_eq_ok {base : Snapshot α} {operations : List (Operation α)} :
    ∀ {inverses : List (Operation α)},
      captureAll base operations = .ok inverses →
      (∀ operation, operation ∈ operations → Edit base operation) ∧
        (∀ inverse, inverse ∈ inverses → Edit base inverse ∧ Restores base inverse) ∧
        (∀ position, Moves base inverses position ↔ Moves base operations position) ∧
        ∀ position, Tags base inverses position ↔ Tags base operations position := by
  induction operations with
  | nil =>
      intro inverses captured
      simp only [captureAll, Except.ok.injEq] at captured
      subst captured
      simp
  | cons operation rest inductionHypothesis =>
      intro inverses captured
      simp only [captureAll, bind_eq_ok, pure_eq_ok] at captured
      obtain ⟨inverse, first, others, later, same⟩ := captured
      subst same
      obtain ⟨edit, inverseEdit, restores, moves, tags⟩ := capture_eq_ok first
      obtain ⟨restEdits, restRestores, restMoves, restTags⟩ := inductionHypothesis later
      refine ⟨?_, ?_, ?_, ?_⟩
      · intro other member
        rcases List.mem_cons.mp member with same | inside
        · exact same ▸ edit
        · exact restEdits other inside
      · intro other member
        rcases List.mem_cons.mp member with same | inside
        · exact same ▸ ⟨inverseEdit, restores⟩
        · exact restRestores other inside
      · intro position
        exact moves_cons.trans
          ((or_congr (moves position) (restMoves position)).trans moves_cons.symm)
      · intro position
        exact tags_cons.trans
          ((or_congr (tags position) (restTags position)).trans tags_cons.symm)

omit [Scalar α] in
theorem entityAt_content (state : Snapshot α) (position : Nat) :
    entityAt (content state) position = (entityAt state position).map plainEntity := by
  simp only [entityAt, liveAt_content, Option.map_map]
  rfl

/-- Revisions and the format are no part of what an edit touches. -/
theorem Touched.content {base state : Snapshot α} {moved tagged : Nat → Prop}
    (touched : Touched base moved tagged state) (formatVersion : UInt32)
    (worldRevision : UInt64) :
    Touched base moved tagged
      (Transactions.content
        { state with
          formatVersion := formatVersion, worldRevision := worldRevision }) := by
  have plain (slot : Slot α) : shape (plainSlot slot) = shape slot := by
    cases holds : slot.entity with
    | none => simp [shape, plainSlot, holds]
    | some entity => simp [shape, plainSlot, plainEntity, holds]
  refine ⟨touched.worldId, touched.seed, touched.maxSlots, ?_, ?_, ?_⟩
  · rw [← touched.shapes]
    simp only [Transactions.content, List.map_map]
    exact List.map_congr_left fun slot _ => plain slot
  · intro position outside
    rw [← touched.transforms position outside, transformAt, entityAt_content,
      Option.map_map]
    rfl
  · intro position outside
    rw [← touched.tags position outside, tagsAt, entityAt_content, Option.map_map]
    rfl

/-- What the operations of a batch make of a content is a content. -/
theorem applyOperations_of_content {operations : List (Operation α)}
    {state : Snapshot α} {last : Staging α}
    (applied :
      applyOperations (plainContext 0) operations 0 ⟨content state, [], []⟩ () =
        .ok last ()) :
    Transactions.content last.staged = last.staged := by
  have again := applyOperations_content applied
  simp only [Staging.content, content_content] at again
  rw [applied, EStateM.Result.ok.injEq] at again
  exact (congrArg Staging.staged again.1).symm

/-- A committed batch of edits and its captured inverse span the contents around
the commit. -/
theorem capture_spans
    {library : JsonLibrary α} {before after : Snapshot α} {envelope : Envelope α}
    {created : List CreatedBinding} {inverses : List (Operation α)} (sound : Sound before)
    (tidy : Tidy before)
    (captured : captureAll before envelope.operations = .ok inverses)
    (committed : Commits library before envelope after created) :
    Timeline.Spans applyBatch ⟨envelope.operations, inverses.reverse⟩ (content before)
      (content after) := by
  refine ⟨committed.content, fun back undone => ?_⟩
  obtain ⟨_, _, _, valid⟩ := sound.slots
  have distinct := valid.distinct
  obtain ⟨edits, restores, moves, tags⟩ := captureAll_eq_ok captured
  obtain ⟨_, staged, stagedOk, sameAfter⟩ := committed
  obtain ⟨last, _, run, _, _, sameStaged, _⟩ := stage_eq_ok.mp stagedOk
  obtain ⟨final, undoing, sameBack⟩ := applyBatch_eq_some.mp undone
  subst sameAfter sameStaged sameBack
  have reached :=
    ((Touched.start before).edits distinct edits run).content
      (stagedFormat last.staged.slots) (before.worldRevision + 1)
  have restored :=
    reached.restored distinct tidy
      (fun operation member => restores operation (List.mem_reverse.mp member)) undoing
  have whole : Touched before (fun _ => False) (fun _ => False) final.staged := by
    refine restored.weaken ?_ ?_
    · intro position ⟨inside, kept⟩
      rcases inside with impossible | named
      · exact impossible
      · obtain ⟨change, member, here⟩ := (moves position).mpr named
        exact kept ⟨change, List.mem_reverse.mpr member, here⟩
    · intro position ⟨inside, kept⟩
      rcases inside with impossible | named
      · exact impossible
      · obtain ⟨change, member, here⟩ := (tags position).mpr named
        exact kept ⟨change, List.mem_reverse.mpr member, here⟩
  have plain := applyOperations_of_content undoing
  have slots : final.staged.slots = before.slots.map plainSlot :=
    (congrArg Snapshot.slots plain).symm.trans whole.content_slots
  have revision : 0 = final.staged.worldRevision :=
    congrArg Snapshot.worldRevision plain
  have fields :
      formatted final.staged =
        ⟨stagedFormat final.staged.slots, final.staged.worldId, final.staged.seed,
          final.staged.maxSlots, final.staged.worldRevision, final.staged.slots⟩ := rfl
  rw [fields, slots, whole.worldId, whole.seed, whole.maxSlots, ← revision,
    stagedFormat_content, ← tidy.format]
  rfl

end Omniweft.Authoring
