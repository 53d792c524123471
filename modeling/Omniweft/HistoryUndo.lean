import Omniweft.BatchSplit
import Omniweft.HistoryRuns

/-!
# Undo and redo are never refused

A stored batch is checked again when a navigation sends it. Every check passes: the
forward batch applied on the same content before, and the inverse writes values that
some world held to entities that the forward batch resolved.
-/

namespace Omniweft.Authoring

open Omniweft.Outcome World Commands Transactions

variable {α : Type} [Scalar α]

/-- A rotation within the tolerance of a transform operation. -/
def UnitNorm (q : Quat α) : Prop :=
  Scalar.isFinite (squaredNorm q) = true ∧
    Scalar.lt Scalar.tolerance (Scalar.abs (squaredNorm q - Scalar.ofInt 1)) = false

/-- The arithmetic of zeros and of normalised rotations: a product of two rotations
within the tolerance, normalised as the hierarchy does it, is within the tolerance. -/
structure Normalises (α : Type) [Scalar α] : Prop where
  zero : Scalar.isFinite (Scalar.ofInt 0 : α) = true
  one : Scalar.isFinite (Scalar.ofInt 1 : α) = true
  zeros : ∀ value : α, Scalar.eq value (Scalar.ofInt 0) = true →
    value * value = Scalar.ofInt 0 * Scalar.ofInt 0
  identity : UnitNorm (Transform.default : Transform α).rotationXyzw
  product : ∀ a b : Quat α, UnitNorm a → UnitNorm b → UnitNorm (product (unit a) (unit b))
  quotient : ∀ a b : Quat α, UnitNorm a → UnitNorm b →
    UnitNorm
      (Transactions.product ⟨-(unit a).x, -(unit a).y, -(unit a).z, (unit a).w⟩ (unit b))

/-- A transform that a transform operation can write. -/
structure Accepted (value : Transform α) : Prop where
  positionM : FiniteVec3 value.positionM
  rotationXyzw : FiniteQuat value.rotationXyzw
  scale : FiniteVec3 value.scale
  norm : UnitNorm value.rotationXyzw
  nonzero : (value.scale.toList.any fun component =>
    Scalar.eq component (Scalar.ofInt 0)) = false

theorem normalizeZero_finite (arithmetic : Normalises α) {value : α}
    (finite : Scalar.isFinite value = true) :
    Scalar.isFinite (Scalar.normalizeZero value) = true := by
  unfold Scalar.normalizeZero
  by_cases zero : Scalar.eq value (Scalar.ofInt 0) = true
  · rw [if_pos zero]
    exact arithmetic.zero
  · rw [if_neg zero]
    exact finite

theorem normalizeZero_square (arithmetic : Normalises α) (value : α) :
    Scalar.normalizeZero value * Scalar.normalizeZero value = value * value := by
  unfold Scalar.normalizeZero
  by_cases zero : Scalar.eq value (Scalar.ofInt 0) = true
  · rw [if_pos zero, arithmetic.zeros value zero]
  · rw [if_neg zero]

theorem normalizeZero_nonzero {value : α}
    (nonzero : Scalar.eq value (Scalar.ofInt 0) = false) :
    Scalar.normalizeZero value = value := by
  simp [Scalar.normalizeZero, nonzero]

theorem Accepted.normalize (arithmetic : Normalises α) {value : Transform α}
    (accepted : Accepted value) : Accepted (normalizeTransform value) := by
  obtain ⟨⟨px, py, pz⟩, ⟨rx, ry, rz, rw⟩, ⟨sx, sy, sz⟩, norm, nonzero⟩ := accepted
  have finite {component : α} (known : Scalar.isFinite component = true) :=
    normalizeZero_finite arithmetic known
  simp only [Vec3.toList, List.any_cons, List.any_nil, Bool.or_false, Bool.or_eq_false_iff]
    at nonzero
  obtain ⟨x, y, z⟩ := nonzero
  refine ⟨⟨finite px, finite py, finite pz⟩, ⟨finite rx, finite ry, finite rz, finite rw⟩,
    ⟨finite sx, finite sy, finite sz⟩, ?_, ?_⟩
  · have same : squaredNorm (normalizeTransform value).rotationXyzw =
        squaredNorm value.rotationXyzw := by
      simp only [squaredNorm, normalizeTransform, Quat.toList, Quat.map, List.foldl_cons,
        List.foldl_nil, normalizeZero_square arithmetic]
    unfold UnitNorm
    rw [same]
    exact norm
  · simp [normalizeTransform, Vec3.map, Vec3.toList, normalizeZero_nonzero, x, y, z]

theorem checked_accepted (arithmetic : Normalises α) {value result : Transform α}
    {path : Text} {index : Nat} (norm : UnitNorm value.rotationXyzw)
    (fine : checked value path index = .ok result) : Accepted result := by
  unfold checked at fine
  obtain ⟨_, passed, same⟩ := bind_eq_ok.mp fine
  obtain ⟨finite, nonzero⟩ := Bool.or_eq_false_iff.mp (rejectIf_eq_ok.mp passed)
  rw [Bool.not_eq_false'] at finite
  simp only [finiteTransform, Vec3.toList, Quat.toList, List.all_cons, List.all_nil,
    Bool.and_true, Bool.and_eq_true] at finite
  obtain ⟨⟨⟨px, py, pz⟩, rx, ry, rz, rw⟩, sx, sy, sz⟩ := finite
  have accepted : Accepted value :=
    ⟨⟨px, py, pz⟩, ⟨rx, ry, rz, rw⟩, ⟨sx, sy, sz⟩, norm, nonzero⟩
  rw [← pure_eq_ok.mp same]
  exact accepted.normalize arithmetic

theorem accepted_closed (arithmetic : Normalises α) :
    Closed (Accepted : Transform α → Prop) where
  default :=
    { positionM := ⟨arithmetic.zero, arithmetic.zero, arithmetic.zero⟩
      rotationXyzw := ⟨arithmetic.zero, arithmetic.zero, arithmetic.zero, arithmetic.one⟩
      scale := ⟨arithmetic.one, arithmetic.one, arithmetic.one⟩
      norm := arithmetic.identity
      nonzero := by simp [Transform.default, Vec3.toList, Scalar.one_ne_zero] }
  compose parent value world path index parentGood good composed := by
    unfold compose at composed
    obtain ⟨_, _, fine⟩ := bind_eq_ok.mp composed
    exact checked_accepted arithmetic (arithmetic.product _ _ parentGood.norm good.norm) fine
  relative parent value result path index parentGood good divided := by
    unfold relative at divided
    obtain ⟨_, _, fine⟩ := bind_eq_ok.mp divided
    exact checked_accepted arithmetic (arithmetic.quotient _ _ parentGood.norm good.norm) fine

theorem reachable_accepted (arithmetic : Normalises α) {library : JsonLibrary α}
    {world : LiveWorld α} (reachable : Reachable library world) :
    Everywhere Accepted world.state := by
  refine reachable.everywhere (accepted_closed arithmetic) ?_
  intro envelope change path index replacement _ serialized member replaced
  obtain ⟨bytes, serialized⟩ := serialized
  obtain ⟨_, position, rotation, scale⟩ :=
    (serialize_eq_ok serialized).1.operations _ member
  obtain ⟨finite, near, nonzero, same⟩ := transform_eq_ok.mp replaced
  have accepted :
      Accepted (⟨change.positionM, change.rotationXyzw, change.scale⟩ : Transform α) :=
    ⟨position, rotation, scale, ⟨finite, near⟩, nonzero⟩
  rw [same]
  exact accepted.normalize arithmetic

/-- The history finds the target of the operation. -/
def Addressed (base : Snapshot α) : Operation α → Prop
  | .transformSet change => (resolve base change.target).isSome = true
  | .entityTagsSet change => (resolve base change.target).isSome = true
  | _ => False

omit [Scalar α] in
theorem capture_addressed {base : Snapshot α} {operation inverse : Operation α}
    (captured : capture base operation = .ok inverse) : Addressed base inverse := by
  cases operation with
  | entityCreate operation => simp [capture] at captured
  | entityDelete operation => simp [capture] at captured
  | entityReparent operation => simp [capture] at captured
  | transformSet change =>
      cases resolved : resolve base change.target with
      | none => simp [capture, resolved] at captured
      | some found =>
          obtain ⟨slot, entity⟩ := found
          cases alone : isolated base slot entity with
          | false => simp [capture, resolved, alone] at captured
          | true =>
              simp only [capture, resolved, alone, if_true, Except.ok.injEq] at captured
              subst captured
              simp [Addressed, resolved]
  | entityTagsSet change =>
      cases resolved : resolve base change.target with
      | none => simp [capture, resolved] at captured
      | some found =>
          simp only [capture, resolved, Except.ok.injEq] at captured
          subst captured
          simp [Addressed, resolved]

omit [Scalar α] in
theorem captureAll_addressed {base : Snapshot α} {operations : List (Operation α)} :
    ∀ {inverses : List (Operation α)},
      captureAll base operations = .ok inverses →
      ∀ inverse ∈ inverses, Addressed base inverse := by
  induction operations with
  | nil =>
      intro inverses captured inverse member
      rw [← Except.ok.inj captured] at member
      exact absurd member List.not_mem_nil
  | cons operation rest inductionHypothesis =>
      intro inverses captured inverse member
      simp only [captureAll, bind_eq_ok, pure_eq_ok] at captured
      obtain ⟨first, captured, others, later, same⟩ := captured
      rw [← same] at member
      rcases List.mem_cons.mp member with here | inside
      · exact here ▸ capture_addressed captured
      · exact inductionHypothesis later inverse inside

theorem shape_frame {slot old : Slot α} (same : shape slot = shape old) :
    slot.entityUuid = old.entityUuid ∧ slot.generation = old.generation ∧
      slot.retired = old.retired := by
  simp only [shape, Slot.mk.injEq] at same
  exact ⟨same.1, same.2.1, same.2.2.1⟩

/-- The coordinator finds in an edited copy what the history finds in the base. -/
theorem Touched.resolves {base state : Snapshot α} {moved tagged : Nat → Prop}
    (distinct : Distinct base) (touched : Touched base moved tagged state)
    {target : Target} {old : Slot α} {former : Entity α}
    (resolved : resolve base target = some (old, former)) (names : Transactions.Names)
    (path : Text) (index : Nat) :
    ∃ position slot entity,
      Transactions.resolve state target names path index = .ok (position, slot, entity) ∧
        liveAt base position = some (old, former) ∧ shape slot = shape old ∧
        entity.parent = former.parent := by
  obtain ⟨identity, position, rfl, sameWorld, baseLive, uuid, generation, retired⟩ :=
    resolve_eq_some resolved
  obtain ⟨basePresent, baseHolds⟩ := liveAt_eq_some.mp baseLive
  have places := congrArg (fun slots => slots[position]?) touched.shapes
  simp only [List.getElem?_map, basePresent, Option.map_some] at places
  obtain ⟨slot, present, sameShape⟩ := Option.map_eq_some_iff.mp places
  obtain ⟨sameUuid, sameGeneration, sameRetired⟩ := shape_frame sameShape
  have held := congrArg Slot.entity sameShape
  simp only [shape, baseHolds, Option.map_some] at held
  obtain ⟨entity, holds, sameEntity⟩ := Option.map_eq_some_iff.mp held
  have sameParent : entity.parent = former.parent := by
    simp only [Entity.mk.injEq] at sameEntity
    exact sameEntity.2.2.2.1
  refine ⟨position, slot, entity, resolve_eq_ok.mpr ⟨identity, rfl,
    sameWorld.trans touched.worldId.symm, locate_eq_some.mpr ⟨present, ?_, ?_⟩, holds,
    sameRetired.trans retired, sameGeneration.trans generation⟩, baseLive, sameShape,
    sameParent⟩
  · exact beq_iff_eq.mpr (sameUuid.trans uuid)
  · intro earlier other before there
    obtain ⟨oldOther, oldThere, otherShape⟩ := touched.slot there
    refine beq_eq_false_iff_ne.mpr fun named => ?_
    have place := distinct earlier position oldOther old oldThere basePresent
      ((shape_frame otherShape).1.symm.trans (named.trans uuid.symm))
    omega

/-- An edit that puts a field of the base back applies on every edited copy of it. -/
theorem Touched.applies {base : Snapshot α} {moved tagged : Nat → Prop}
    {operation : Operation α} {staging : Staging α} (distinct : Distinct base)
    (touched : Touched base moved tagged staging.staged)
    (everywhere : Everywhere Accepted base) (addressed : Addressed base operation)
    (edit : Edit base operation) (restores : Restores base operation) (revision : UInt64)
    (index : Nat) :
    ∃ next, applyOperation (plainContext revision) operation index staging () =
      .ok next () := by
  cases operation with
  | entityCreate operation => exact absurd edit id
  | entityDelete operation => exact absurd edit id
  | entityReparent operation => exact absurd edit id
  | transformSet change =>
      obtain ⟨place, baseSlot, baseEntity, named, baseLive, rootless, childless⟩ := edit
      obtain ⟨⟨old, former⟩, found⟩ := Option.isSome_iff_exists.mp addressed
      obtain ⟨position, slot, entity, resolved, live, sameShape, sameParent⟩ :=
        touched.resolves distinct found staging.names (operationPath index ++ ascii "/target")
          index
      -- The target of the edit and the target of the restoration are one slot.
      obtain ⟨place', named', baseLive'⟩ := resolve_named found
      obtain rfl := named'.unique distinct named
      rw [baseLive'] at baseLive
      obtain ⟨rfl, rfl⟩ := Prod.mk.inj (Option.some.inj baseLive)
      obtain ⟨_, held, value⟩ := restores
      obtain rfl := held.unique distinct named
      obtain ⟨there, inPlace, same⟩ := Option.map_eq_some_iff.mp value
      obtain ⟨_, _, _, norm, nonzero⟩ := (everywhere _ there inPlace).1
      rw [same] at norm nonzero
      have orphan : parentOf staging.staged slot = .ok none := by
        have holds := (resolve_live resolved).2.1
        simp [parentOf, holds, sameParent.trans rootless]
      obtain ⟨present, holds, _⟩ := resolve_live resolved
      refine ⟨_, applyTransform_eq_ok.mpr ⟨_, position, slot, entity, entity.localTransform,
        _, transform_eq_ok.mpr ⟨norm.1, norm.2, nonzero, rfl⟩, resolved, rfl, ?_, ?_,
        touched.spreads (liveAt_eq_some.mpr ⟨present, holds⟩) sameShape childless _ _ _ _,
        rfl⟩⟩
      · intro children
        rw [touched.hasChildren sameShape, childless] at children
        cases children
      · simp only [replacedLocal, orphan, bind, Except.bind]
  | entityTagsSet change =>
      obtain ⟨⟨old, former⟩, found⟩ := Option.isSome_iff_exists.mp addressed
      obtain ⟨position, slot, entity, resolved, _⟩ :=
        touched.resolves distinct found staging.names (operationPath index ++ ascii "/target")
          index
      exact ⟨_, applyTagsSet_eq_ok.mpr ⟨position, slot, entity, resolved, rfl, rfl⟩⟩

theorem Touched.applyAll {base : Snapshot α} {operations : List (Operation α)}
    (distinct : Distinct base) (everywhere : Everywhere Accepted base)
    (edits : ∀ operation ∈ operations,
      Addressed base operation ∧ Edit base operation ∧ Restores base operation) :
    ∀ {moved tagged : Nat → Prop} {index : Nat} {staging : Staging α},
      Touched base moved tagged staging.staged →
      ∃ last, applyOperations (plainContext 0) operations index staging () = .ok last () := by
  induction operations with
  | nil =>
      intro moved tagged index staging touched
      exact ⟨staging, rfl⟩
  | cons operation rest inductionHypothesis =>
      intro moved tagged index staging touched
      obtain ⟨addressed, edit, restores⟩ := edits operation List.mem_cons_self
      obtain ⟨next, first⟩ :=
        touched.applies distinct everywhere addressed edit restores 0 index
      obtain ⟨last, others⟩ := inductionHypothesis
        (fun other later => edits other (List.mem_cons_of_mem _ later))
        (touched.edit distinct edit first)
      exact ⟨last, applyOperations_cons_eq_ok.mpr ⟨next, (), first, others⟩⟩

/-- The captured inverse of a committed batch leads back to the content before it. -/
theorem capture_undoes {library : JsonLibrary α} {before after : Snapshot α}
    {envelope : Envelope α} {created : List CreatedBinding} {inverses : List (Operation α)}
    (sound : Sound before) (tidy : Tidy before) (everywhere : Everywhere Accepted before)
    (captured : captureAll before envelope.operations = .ok inverses)
    (committed : Commits library before envelope after created) :
    applyBatch inverses.reverse (content after) = some (content before) := by
  have spans := capture_spans sound tidy captured committed
  obtain ⟨_, _, _, valid⟩ := sound.slots
  have distinct := valid.distinct
  obtain ⟨edits, restores, _, _⟩ := captureAll_eq_ok captured
  obtain ⟨_, staged, stagedOk, sameAfter⟩ := committed
  obtain ⟨last, _, run, _, _, sameStaged, _⟩ := stage_eq_ok.mp stagedOk
  have reached :=
    ((Touched.start before).edits distinct edits run).content
      (stagedFormat last.staged.slots) (before.worldRevision + 1)
  have addressed := captureAll_addressed captured
  obtain ⟨final, undoing⟩ :=
    @Touched.applyAll _ _ _ inverses.reverse distinct everywhere
      (fun operation member =>
        have inside := List.mem_reverse.mp member
        ⟨addressed operation inside, restores operation inside⟩)
      _ _ 0 ⟨content after, [], []⟩ (by rw [sameAfter, sameStaged]; exact reached)
  have undone : applyBatch inverses.reverse (content after) = some (formatted final.staged) :=
    applyBatch_eq_some.mpr ⟨final, undoing, rfl⟩
  rw [undone, spans.inverse _ undone]

/-- A batch that a request within the bounds of the history can carry. -/
structure Sendable (operations : List (Operation α)) : Prop where
  nonempty : operations ≠ []
  few : operations.length ≤ operationLimit
  valid : ∀ operation ∈ operations, ValidOperation operation

theorem serialized_eq_ok {library : JsonLibrary α} {envelope : Envelope α}
    {malformed oversized : Text × Text} :
    serialized library envelope malformed oversized = .ok () ↔
      ∃ json, serialize library envelope = .ok json ∧ json.length ≤ envelopeLimit := by
  unfold serialized
  cases serialize library envelope with
  | error errors => simp
  | ok json => simp

theorem bounded_sendable {library : JsonLibrary α} {envelope : Envelope α}
    {malformed oversized : Text × Text} (small : bounded envelope = true)
    (written : serialized library envelope malformed oversized = .ok ()) :
    Sendable envelope.operations := by
  obtain ⟨json, serialized, _⟩ := serialized_eq_ok.mp written
  obtain ⟨valid, _⟩ := serialize_eq_ok serialized
  simp only [bounded, Bool.and_eq_true, decide_eq_true_eq] at small
  exact ⟨valid.nonempty, small.1.2, valid.operations⟩

theorem prepare_sendable {library : JsonLibrary α} {world : LiveWorld α}
    {history : History α} {envelope : Envelope α} {entry : Entry α}
    (prepared : prepare library world history envelope = .ok entry) :
    Sendable entry.forward ∧ Sendable entry.inverse := by
  simp only [prepare, bind_eq_ok, rejectIf_eq_ok, pure_eq_ok, exists_and_left,
    exists_const, Bool.not_eq_false'] at prepared
  obtain ⟨small, _, _, _, _, written, _, inverses, _, inverseSmall, _, inverseWritten,
    same⟩ := prepared
  rw [← same]
  exact ⟨bounded_sendable small written, bounded_sendable inverseSmall inverseWritten⟩

theorem committed_prepared {library : JsonLibrary α} {world : LiveWorld α}
    {history : History α} {envelope : Envelope α} {σ : Type}
    {guard : Option (StagingGuard α σ)} {guardState : σ}
    (accepted : committed
      (applyAtBoundary library world history envelope guard guardState).result = true) :
    ∃ entry, prepare library world history envelope = .ok entry := by
  unfold applyAtBoundary at accepted
  cases prepared : prepare library world history envelope with
  | error refusal =>
      obtain ⟨code, path⟩ := refusal
      simp only [prepared, denied_not_committed] at accepted
      cases accepted
  | ok entry => exact ⟨entry, rfl⟩

/-- The content that the first entries of a history lead to. -/
def contentAt (baseline : Snapshot α) (entries : List (Entry α)) (place : Nat) :
    Option (Snapshot α) :=
  (entries.take place).foldlM (fun state entry => applyBatch entry.forward state) baseline

/-- Both batches of every entry can be sent again, and the inverse applies where the
entry ends. -/
structure Recoverable (tracked : Tracked α) : Prop where
  sendable : ∀ entry ∈ tracked.session.history.live,
    Sendable entry.forward ∧ Sendable entry.inverse
  undoes : ∀ place entry before after,
    tracked.session.history.live[place]? = some entry →
    contentAt tracked.baseline tracked.session.history.live place = some before →
    applyBatch entry.forward before = some after →
    applyBatch entry.inverse after = some before

theorem recoverable_empty {tracked : Tracked α}
    (none : tracked.session.history.live = []) : Recoverable tracked := by
  refine ⟨?_, ?_⟩
  · intro entry member
    rw [none] at member
    exact absurd member List.not_mem_nil
  · intro place entry before after present
    rw [none] at present
    cases present

theorem Run.recoverable (arithmetic : Normalises α) {library : JsonLibrary α}
    {tracked : Tracked α} (run : Run library tracked) : Recoverable tracked := by
  induction run with
  | start reachable => exact recoverable_empty rfl
  | @apply session baseline foreign σ envelope guard guardState applied run same
      recoverable =>
      subst same
      have consistent := run.consistent
      rcases @apply_cases α _ σ library session.world session.history envelope guard
          guardState with
        ⟨inverses, next, created, current, room, captured, commits, accepted, _,
          recorded⟩ | ⟨_, _, unmoved⟩
      · have ours := consistent.ours current
        have content_eq := (consistent.own ours).2.past.forward
        have reachable := consistent.reachable
        obtain ⟨entry, prepared⟩ := committed_prepared accepted
        have sendable := prepare_sendable prepared
        obtain ⟨_, _, inverses', captured', same⟩ := prepare_eq_ok prepared
        rw [captured] at captured'
        obtain rfl := Except.ok.inj captured'
        have inside : session.history.state.cursor ≤ session.history.live.length := by
          rw [live_length consistent]
          exact consistent.inside
        have length : (session.history.live.take session.history.state.cursor).length =
            session.history.state.cursor := by
          rw [List.length_take, Nat.min_eq_left inside]
        have live : (record session.history ⟨envelope.operations, inverses.reverse⟩
              (session.world.state.worldRevision + 1)).live =
            session.history.live.take session.history.state.cursor ++ [entry] := by
          rw [same]
          exact record_live consistent room _ _
        refine ⟨?_, ?_⟩
        · intro other member
          rw [recorded] at member
          rw [live] at member
          rcases List.mem_append.mp member with before | last
          · exact recoverable.sendable other (List.mem_of_mem_take before)
          · rw [List.mem_singleton.mp last]
            exact sendable
        · intro place other before after present reached applies
          rw [recorded] at present reached
          rw [live] at present reached
          rcases Nat.lt_trichotomy place session.history.state.cursor with
            earlier | here | beyond
          · refine recoverable.undoes place other before after ?_ ?_ applies
            · rw [List.getElem?_append_left (by omega), List.getElem?_take,
                if_pos earlier] at present
              exact present
            · unfold contentAt at reached ⊢
              rw [List.take_append_of_le_length (by omega), List.take_take,
                Nat.min_eq_left earlier.le] at reached
              exact reached
          · subst here
            rw [List.getElem?_append_right (by omega), length, Nat.sub_self] at present
            obtain rfl := Option.some.inj present
            unfold contentAt at reached
            rw [List.take_append_of_le_length (by omega), List.take_take, Nat.min_self]
              at reached
            obtain rfl := Option.some.inj (reached.symm.trans content_eq)
            have committed := commits.content
            rw [same] at applies ⊢
            obtain rfl := Option.some.inj (applies.symm.trans committed)
            exact capture_undoes reachable.sound (reachable_tidy reachable)
              (reachable_accepted arithmetic reachable) captured commits
          · rw [List.getElem?_append_right (by omega), length] at present
            rw [List.getElem?_eq_none (by rw [List.length_singleton]; omega)] at present
            cases present
      · rw [unmoved]
        exact ⟨recoverable.sendable, recoverable.undoes⟩
  | @navigate session baseline foreign σ action request guard guardState applied _ same
      recoverable =>
      subst same
      rcases @navigate_cases α _ σ library session.world session.history action request
          guard guardState with
        ⟨_, _, _, _, _, _, _, _, moved⟩ | ⟨_, _, unmoved⟩
      · rw [moved]
        exact ⟨recoverable.sendable, recoverable.undoes⟩
      · rw [unmoved]
        exact ⟨recoverable.sendable, recoverable.undoes⟩
  | clear _ _ => exact recoverable_empty rfl
  | other envelope guard observer bindings guardState observerState applied _ _
      recoverable => exact ⟨recoverable.sendable, recoverable.undoes⟩

/-- The batch that a navigation selects applies to the content of the world. -/
theorem selected_applies (arithmetic : Normalises α) {library : JsonLibrary α}
    {tracked : Tracked α} (run : Run library tracked) (own : tracked.foreign = false)
    {action : Action} {place : Nat} (selects : Selects tracked.session.history action place)
    {entry : Entry α} (present : tracked.session.history.live[place]? = some entry) :
    ∃ next, applyBatch (Entry.batch entry action) (content tracked.session.world.state) =
      some next := by
  have here := (run.consistent.own own).2
  rcases selects with ⟨undo, cursor⟩ | ⟨redo, cursor, before⟩
  · subst undo
    have past := here.past
    rw [cursor, List.take_add_one, present, Option.toList_some] at past
    obtain ⟨middle, before, spans⟩ := past.split
    exact ⟨middle, (run.recoverable arithmetic).undoes place entry middle _ present
      before.forward spans.forward⟩
  · subst redo
    obtain ⟨last, future⟩ := here.future
    have inside := (List.getElem?_eq_some_iff.mp present).1
    rw [cursor, List.drop_eq_getElem_cons inside,
      (List.getElem?_eq_some_iff.mp present).2] at future
    cases future with
    | cons spans rest => exact ⟨_, spans.forward⟩

omit [Scalar α] in
theorem header_bounded {request : Envelope α} (header : ValidHeader request)
    (empty : request.operations = []) : bounded request = true := by
  have transactionId : request.transactionId.length = 36 := by
    have valid := header.transactionId
    simp only [validUuid, Bool.and_eq_true, decide_eq_true_eq] at valid
    exact valid.1
  have protocolVersion : (ascii "0.1").length ≤ 16 := by decide
  have mode : (ascii "next_tick").length ≤ 32 := by decide
  have worldId := validIdentifier_length header.worldId
  have epoch := validIdentifier_length header.epoch
  simp [bounded, empty, header.protocolVersion, header.mode, transactionId,
    protocolVersion, mode, worldId, epoch]

/-- A request within the bounds selects the stored batch. -/
theorem select_stored {library : JsonLibrary α} {world : LiveWorld α} {history : History α}
    {action : Action} {place : Nat} {request : Envelope α} {entry : Entry α}
    (header : ValidHeader request) (empty : request.operations = [])
    (revision : request.expectedWorldRevision = world.state.worldRevision)
    (current : history.state.expectedRevision = world.state.worldRevision)
    (selects : Selects history action place)
    (stored : history.entries[place]? = some entry)
    (budget : (Entry.batch entry action).length ≤ request.budget.maxOperations.toNat)
    (written : ∀ malformed oversized,
      serialized library { request with operations := Entry.batch entry action } malformed
        oversized = .ok ()) :
    select library world history action request = .ok (Entry.batch entry action) := by
  simp only [select, bind_eq_ok, rejectIf_eq_ok, pure_eq_ok, exists_and_left,
    exists_const, Bool.or_eq_false_iff, bne_eq_false_iff_eq]
  have small : (!bounded request) = false := by rw [header_bounded header empty]; rfl
  have nothing : (!request.operations.isEmpty) = false := by rw [empty]; rfl
  have enough : decide (request.budget.maxOperations.toNat <
      (Entry.batch entry action).length) = false := by simpa using budget
  have batch :
      (if (action == Action.undo) = true then
        (history.entries[if (action == Action.undo) = true then history.state.cursor - 1
          else history.state.cursor]?.getD Entry.empty).inverse
      else
        (history.entries[if (action == Action.undo) = true then history.state.cursor - 1
          else history.state.cursor]?.getD Entry.empty).forward) =
        Entry.batch entry action := by
    rcases selects with ⟨undo, cursor⟩ | ⟨redo, cursor, _⟩
    · simp [undo, cursor, stored, Entry.batch]
    · simp [redo, cursor, stored, Entry.batch]
  rw [batch]
  rcases selects with ⟨undo, cursor⟩ | ⟨redo, cursor, before⟩
  · refine ⟨small, nothing, ?_, ⟨revision, current⟩, ⟨?_, ?_⟩, enough, (), written _ _, rfl⟩
    · rw [undo]
      rfl
    · rw [cursor, Bool.and_eq_false_iff]
      exact Or.inr rfl
    · rw [undo]
      rfl
  · refine ⟨small, nothing, ?_, ⟨revision, current⟩, ⟨?_, ?_⟩, enough, (), written _ _, rfl⟩
    · rw [redo]
      rfl
    · rw [redo]
      rfl
    · rw [Bool.and_eq_false_iff]
      exact Or.inr (beq_eq_false_iff_ne.mpr before)

/-- While nobody else commits, every undo and every redo within the history commits. -/
theorem navigation_commits (arithmetic : Normalises α) {library : JsonLibrary α}
    (faithful : library.Faithful) {tracked : Tracked α} (run : Run library tracked)
    (own : tracked.foreign = false) {action : Action} {place : Nat}
    (selects : Selects tracked.session.history action place) {request : Envelope α}
    (header : ValidHeader request)
    (worldId : request.worldId = tracked.session.world.state.worldId)
    (revision :
      request.expectedWorldRevision = tracked.session.world.state.worldRevision)
    (finite : tracked.session.world.state.worldRevision ≠ maximum64)
    (empty : request.operations = [])
    (budget :
      (Entry.batch (tracked.session.history.entries[place]?.getD Entry.empty)
          action).length ≤ request.budget.maxOperations.toNat) :
    committed
      (navigateAtBoundary library tracked.session.world tracked.session.history action
        request (none : Option (StagingGuard α Unit)) ()).result = true := by
  have consistent := run.consistent
  obtain ⟨entry, present⟩ := selected_live consistent selects
  have stored : tracked.session.history.entries[place]? = some entry :=
    (live_getElem consistent selects).symm.trans present
  obtain ⟨next, applies⟩ := selected_applies arithmetic run own selects present
  have sendable : Sendable (Entry.batch entry action) := by
    obtain ⟨forward, inverse⟩ :=
      (run.recoverable arithmetic).sendable entry (List.mem_of_getElem? present)
    unfold Entry.batch
    split
    · exact inverse
    · exact forward
  rw [stored, Option.getD_some] at budget
  have valid : ValidEnvelope { request with operations := Entry.batch entry action } :=
    { header := { header with }
      nonempty := sendable.nonempty
      withinBudget := budget
      operations := sendable.valid }
  obtain ⟨json, serializes, size⟩ := serialize_valid faithful valid
  have short : json.length ≤ envelopeLimit := by
    have few := sendable.few
    have limits : operationLimit = 4 ∧ envelopeLimit = 16384 := ⟨rfl, rfl⟩
    change json.length ≤ 1000 + 1001 * (Entry.batch entry action).length at size
    omega
  have chosen := select_stored header empty revision (consistent.own own).1 selects stored
    budget fun malformed oversized => serialized_eq_ok.mpr ⟨json, serializes, short⟩
  obtain ⟨last, ran⟩ := applyBatch_applies applies
    (tracked.session.world.state.worldRevision + 1)
  have commits : Commits library tracked.session.world.state
      { request with operations := Entry.batch entry action } _ _ :=
    (commits_iff faithful valid).mpr ⟨worldId, revision, finite, last, ran, rfl, rfl⟩
  simp only [navigateAtBoundary, chosen]
  rcases @settle_cases α _ Unit library tracked.session.world tracked.session.history
      { request with operations := Entry.batch entry action } none ()
      (move tracked.session.history action) with
    ⟨_, _, _, accepted, _⟩ | ⟨_, kept, _⟩
  · exact accepted
  · have same := congrArg (fun world => world.state.worldRevision.toNat)
      (commits.published.symm.trans kept)
    exact absurd (commits.revision.2.symm.trans same) (Nat.succ_ne_self _)

/-- The numbers of the sample library, read as whole ones. Their rotations within the
tolerance are the eight unit quaternions with one component. -/
def Wholes : Type := Halves

namespace Wholes

def of (value : Int) : Wholes := Halves.saturate value

def value (number : Wholes) : Int := Halves.halves number

instance : DecidableEq Wholes := inferInstanceAs (DecidableEq Halves)

instance : Scalar Wholes where
  add left right := of (left.value + right.value)
  sub left right := of (left.value - right.value)
  mul left right := of (left.value * right.value)
  div left right := of (left.value / right.value)
  neg number := of (-number.value)
  ofInt number := of number
  half := of 0
  tolerance := of 0
  sqrt number := of (Nat.sqrt number.value.toNat)
  abs number := of (max number.value (-number.value))
  eq left right := left.value == right.value
  lt left right := decide (left.value < right.value)
  isFinite _ := true
  bits number := UInt64.ofInt number.value
  one_ne_zero := by decide

def library : JsonLibrary Wholes := JsonText.library

theorem library_faithful : library.Faithful where
  roundTrip value plain _ :=
    JsonText.library_roundTrip (Json.Plain.portable _ _ (fun _ _ => rfl) value plain)

def units : List (Quat Wholes) :=
  [⟨of 1, of 0, of 0, of 0⟩, ⟨of (-1), of 0, of 0, of 0⟩, ⟨of 0, of 1, of 0, of 0⟩,
    ⟨of 0, of (-1), of 0, of 0⟩, ⟨of 0, of 0, of 1, of 0⟩, ⟨of 0, of 0, of (-1), of 0⟩,
    ⟨of 0, of 0, of 0, of 1⟩, ⟨of 0, of 0, of 0, of (-1)⟩]

theorem of_value (number : Wholes) : of number.value = number := by
  obtain ⟨halves, low, high⟩ := number
  have inside : max (-1000000) (min 1000000 halves) = halves := by omega
  simp only [of, value, Halves.saturate, inside]
  rfl

theorem value_of (number : Int) : (of number).value = max (-1000000) (min 1000000 number) :=
  rfl

theorem value_bounded (number : Wholes) :
    -1000000 ≤ number.value ∧ number.value ≤ 1000000 :=
  Halves.bounded number

theorem small_square {number : Int} (small : number * number ≤ 1) :
    number ∈ [-1, 0, 1] := by
  have above : -2 < number := by nlinarith
  have below : number < 2 := by nlinarith
  simp only [List.mem_cons, List.not_mem_nil, or_false]
  omega

theorem unitNorm_value {q : Quat Wholes} (norm : UnitNorm q) :
    q.x.value * q.x.value + q.y.value * q.y.value + q.z.value * q.z.value +
      q.w.value * q.w.value = 1 := by
  have near := norm.2
  have x := mul_self_nonneg q.x.value
  have y := mul_self_nonneg q.y.value
  have z := mul_self_nonneg q.z.value
  have w := mul_self_nonneg q.w.value
  have shape : (squaredNorm q).value =
      (of ((of ((of ((of ((of 0).value + (of (q.x.value * q.x.value)).value)).value +
        (of (q.y.value * q.y.value)).value)).value +
        (of (q.z.value * q.z.value)).value)).value +
        (of (q.w.value * q.w.value)).value)).value := rfl
  have exactly : (squaredNorm q).value = 1 := by
    have apart : ¬ (of 0).value <
      (of (max (of ((squaredNorm q).value - (of 1).value)).value
        (-(of ((squaredNorm q).value - (of 1).value)).value))).value := of_decide_eq_false near
    have bounds := value_bounded (squaredNorm q)
    simp only [value_of] at apart
    omega
  simp only [value_of] at shape
  omega

theorem unitNorm_units {q : Quat Wholes} (norm : UnitNorm q) : q ∈ units := by
  have total := unitNorm_value norm
  have x := mul_self_nonneg q.x.value
  have y := mul_self_nonneg q.y.value
  have z := mul_self_nonneg q.z.value
  have w := mul_self_nonneg q.w.value
  have whole : q = ⟨of q.x.value, of q.y.value, of q.z.value, of q.w.value⟩ := by
    simp only [of_value]
  have all : ∀ x ∈ [-1, 0, 1], ∀ y ∈ [-1, 0, 1], ∀ z ∈ [-1, 0, 1], ∀ w ∈ [-1, 0, 1],
      x * x + y * y + z * z + w * w = (1 : Int) →
        (⟨of x, of y, of z, of w⟩ : Quat Wholes) ∈ units := by decide +kernel
  rw [whole]
  exact all _ (small_square (by omega)) _ (small_square (by omega)) _
    (small_square (by omega)) _ (small_square (by omega)) total

theorem normalises : Normalises Wholes where
  zero := rfl
  one := rfl
  zeros number zero := by
    have same : number.value = 0 := beq_iff_eq.mp zero
    rw [← of_value number, same]
    rfl
  identity := ⟨by decide, by decide⟩
  product a b aNorm bNorm := by
    have all : ∀ a ∈ units, ∀ b ∈ units, UnitNorm (product (unit a) (unit b)) := by
      unfold UnitNorm
      decide +kernel
    exact all a (unitNorm_units aNorm) b (unitNorm_units bNorm)
  quotient a b aNorm bNorm := by
    have all : ∀ a ∈ units, ∀ b ∈ units, UnitNorm
        (product ⟨-(unit a).x, -(unit a).y, -(unit a).z, (unit a).w⟩ (unit b)) := by
      unfold UnitNorm
      decide +kernel
    exact all a (unitNorm_units aNorm) b (unitNorm_units bNorm)

end Wholes

def wholeWorld : LiveWorld Wholes :=
  (call Wholes.library ⟨1, ⟨1, ascii "world", 7, 4, 0, []⟩⟩
    (sampleEnvelope 0 [sampleCreate "a"])).world

/-- A move and two tags for the only entity. -/
def wholeEdit : Envelope Wholes :=
  sampleEnvelope 1
    [.transformSet
        ⟨sampleSlot 0, ⟨.of 3, .of 0, .of 0⟩, ⟨.of 0, .of 1, .of 0, .of 0⟩,
          ⟨.of 1, .of 1, .of 1⟩⟩,
      .entityTagsSet ⟨sampleSlot 0, [ascii "b", ascii "a"]⟩]

def wholeEdited : Applied Wholes Unit :=
  applyAtBoundary Wholes.library wholeWorld (construct wholeWorld) wholeEdit none ()

omit [Scalar α] in
theorem sampleHeader_valid {operations : List (Operation α)} (revision : UInt64) :
    ValidHeader (sampleEnvelope revision operations) where
  protocolVersion := rfl
  worldId := (by decide : validIdentifier 128 (ascii "world") = true)
  transactionId :=
    (by decide : validUuid (ascii "00000000-0000-4000-8000-000000000001") = true)
  epoch := (by decide : validIdentifier 128 (ascii "epoch") = true)
  mode := rfl
  expires := (by decide : (1 : UInt64) ≠ 0 ∧ (1 : UInt64) ≤ 4294967295)
  budget := (by decide : (256 : UInt64) ≠ 0 ∧ (256 : UInt64).toNat ≤ maxOperations)

set_option maxRecDepth 20000 in
theorem navigation_commits_edit :
    wholeEdited.history.state = ⟨1, 1, 2⟩ ∧
      committed
        (navigateAtBoundary Wholes.library wholeEdited.world wholeEdited.history .undo
          (sampleEnvelope 2 []) none ()).result = true := by
  have state : wholeEdited.history.state = ⟨1, 1, 2⟩ := rfl
  have fresh : Reachable Wholes.library wholeWorld :=
    ReachableBy.call (sampleEnvelope 0 [sampleCreate "a"]) none none none () () trivial
      (@ReachableBy.fresh Wholes _ _ _ 1 (ascii "world") 7 4 _ rfl)
  have run : Run Wholes.library
      ⟨⟨wholeEdited.world, wholeEdited.history⟩, content wholeWorld.state, false⟩ :=
    Run.apply wholeEdit none () wholeEdited (Run.start fresh) rfl
  refine ⟨state, @navigation_commits Wholes _ Wholes.normalises Wholes.library
    Wholes.library_faithful _ run rfl .undo 0 ?_ _ (sampleHeader_valid 2) rfl rfl ?_ rfl ?_⟩
  · exact Or.inl ⟨rfl, congrArg State.cursor state⟩
  · decide +kernel
  · decide +kernel

end Omniweft.Authoring
