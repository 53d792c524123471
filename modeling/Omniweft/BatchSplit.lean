import Omniweft.CanonicalWorlds
import Omniweft.CommandsRoundTrip
import Omniweft.TransactionsReplay

/-!
# A batch is the sequence of its operations

A batch of operations and the same operations committed one at a time, every
temporary name replaced by the handle its create returned, take each other's
steps. What they work on differs in revisions, in the format of the snapshot
and in the operation's place in its batch, and no step reads any of the three.
-/

namespace Omniweft.Transactions

open Omniweft.Outcome World Commands

variable {α : Type} [Scalar α]

/-! ## Formats and error paths -/

def reformat (formatVersion : UInt32) (state : Snapshot α) : Snapshot α :=
  { state with formatVersion := formatVersion }

theorem relative_anywhere {parent value result : Transform α} {path path' : Text}
    {index index' : Nat} (divided : relative parent value path index = .ok result) :
    relative parent value path' index' = .ok result := by
  unfold relative at divided ⊢
  obtain ⟨_, scaled, fine⟩ := bind_eq_ok.mp divided
  exact bind_eq_ok.mpr ⟨(), parentScale_anywhere scaled, checked_anywhere fine⟩

omit [Scalar α] in
theorem resolve_anywhere {staged : Snapshot α} {target target' : Target}
    {names names' : Names} {path path' : Text} {index index' : Nat} {found : Placed α}
    (formatVersion : UInt32) (same : namedBy target names = namedBy target' names')
    (resolved : resolve staged target names path index = .ok found) :
    resolve (reformat formatVersion staged) target' names' path' index' = .ok found := by
  obtain ⟨position, slot, entity⟩ := found
  obtain ⟨identity, named, rest⟩ := resolve_eq_ok.mp resolved
  exact resolve_eq_ok.mpr ⟨identity, same ▸ named, rest⟩

theorem subtreeChildren_reformat {parent : Nat} {path path' : Text} {index index' : Nat}
    {formatVersion : UInt32} {positions : List Nat} :
    ∀ {state next : Snapshot α} {queue rest : List Nat},
      subtreeChildren parent path index positions state queue = .ok (next, rest) →
      subtreeChildren parent path' index' positions (reformat formatVersion state) queue =
        .ok (reformat formatVersion next, rest) := by
  induction positions with
  | nil =>
      intro state next queue rest walked
      simp only [subtreeChildren, Except.ok.injEq, Prod.mk.injEq] at walked ⊢
      exact ⟨congrArg (reformat formatVersion) walked.1, walked.2⟩
  | cons position positions inductionHypothesis =>
      intro state next queue rest walked
      have sameParent :
          liveAt (reformat formatVersion state) parent = liveAt state parent := rfl
      have sameChild :
          liveAt (reformat formatVersion state) position = liveAt state position := rfl
      unfold subtreeChildren at walked ⊢
      rw [sameParent, sameChild]
      split at walked
      · split at walked
        · rename_i linked
          rw [if_pos linked]
          obtain ⟨_, acyclic, continued⟩ := bind_eq_ok.mp walked
          obtain ⟨world, composed, others⟩ := bind_eq_ok.mp continued
          exact bind_eq_ok.mpr ⟨(), rejectIf_eq_ok.mpr (rejectIf_eq_ok.mp acyclic),
            bind_eq_ok.mpr ⟨world, compose_anywhere composed, inductionHypothesis others⟩⟩
        · rename_i unlinked
          rw [if_neg unlinked]
          exact inductionHypothesis walked
      · exact inductionHypothesis walked

theorem subtree_reformat {state next : Snapshot α} {root : Nat} {revision : UInt64}
    {path path' : Text} {index index' : Nat} (formatVersion : UInt32)
    (walked : subtree state root revision path index = .ok next) :
    subtree (reformat formatVersion state) root revision path' index' =
      .ok (reformat formatVersion next) := by
  have loop (fuel : Nat) :
      ∀ {cursor : Nat} {state next : Snapshot α} {queue : List Nat},
        subtreeLoop revision path index fuel cursor state queue = .ok next →
        subtreeLoop revision path' index' fuel cursor (reformat formatVersion state) queue =
          .ok (reformat formatVersion next) := by
    induction fuel with
    | zero =>
        intro cursor state next queue walked
        exact congrArg (Except.map (reformat formatVersion)) walked
    | succ fuel inductionHypothesis =>
        intro cursor state next queue walked
        unfold subtreeLoop at walked ⊢
        cases queued : queue[cursor]? with
        | none =>
            simp only [queued] at walked ⊢
            exact congrArg (Except.map (reformat formatVersion)) walked
        | some position =>
            have sameLive :
                liveAt (reformat formatVersion state) position = liveAt state position := rfl
            simp only [queued, sameLive] at walked ⊢
            cases live : liveAt state position with
            | none =>
                simp only [live] at walked ⊢
                exact congrArg (Except.map (reformat formatVersion)) walked
            | some found =>
                simp only [live] at walked ⊢
                obtain ⟨pair, children, continued⟩ := bind_eq_ok.mp walked
                exact bind_eq_ok.mpr ⟨(reformat formatVersion pair.1, pair.2),
                  subtreeChildren_reformat children, inductionHypothesis continued⟩
  exact loop _ walked

omit [Scalar α] in
theorem rejectCycle_reformat {slot : Nat} {path path' : Text} {index index' remaining : Nat}
    {state : Snapshot α} {formatVersion : UInt32} :
    ∀ {parent : Option (Placed α)},
      rejectCycle state slot path index remaining parent = .ok () →
      rejectCycle (reformat formatVersion state) slot path' index' remaining parent =
        .ok () := by
  induction remaining with
  | zero =>
      intro parent accepted
      cases parent with
      | none => rfl
      | some found => exact absurd accepted (by simp [rejectCycle])
  | succ remaining inductionHypothesis =>
      intro parent accepted
      cases parent with
      | none => rfl
      | some found =>
          obtain ⟨ancestor, ancestorSlot, ancestorEntity⟩ := found
          unfold rejectCycle at accepted ⊢
          by_cases here : ancestor = slot
          · rw [if_pos here] at accepted
            exact absurd accepted (by simp)
          · rw [if_neg here] at accepted ⊢
            obtain ⟨next, parented, others⟩ := bind_eq_ok.mp accepted
            exact bind_eq_ok.mpr ⟨next, parented, inductionHypothesis others⟩

theorem reparent_reformat {state moved : Snapshot α} {slot : Nat} {entity : Entity α}
    {parent : Option (Placed α)} {mode path path' : Text} {index index' : Nat}
    (formatVersion : UInt32)
    (accepted : reparent state slot entity parent mode path index = .ok moved) :
    reparent (reformat formatVersion state) slot entity parent mode path' index' =
      .ok (reformat formatVersion moved) := by
  cases parent with
  | none =>
      rw [reparent_none_eq_ok.mp accepted]
      exact reparent_none_eq_ok.mpr rfl
  | some found =>
      obtain ⟨place, parentSlot, parentEntity⟩ := found
      obtain ⟨acyclic, uniform, chosen⟩ := reparent_some_eq_ok.mp accepted
      refine reparent_some_eq_ok.mpr ⟨rejectCycle_reformat acyclic, uniform, ?_⟩
      rcases chosen with ⟨world, value, divided, same⟩ | ⟨other, value, composed, same⟩
      · exact Or.inl ⟨world, value, relative_anywhere divided, by rw [same]; rfl⟩
      · exact Or.inr ⟨other, value, compose_anywhere composed, by rw [same]; rfl⟩

theorem replacedLocal_anywhere {staged : Snapshot α} {slot : Slot α} {entity : Entity α}
    {replacement result : Transform α} {path path' : Text} {index index' : Nat}
    (accepted : replacedLocal staged slot entity replacement path index = .ok result) :
    replacedLocal staged slot entity replacement path' index' = .ok result := by
  unfold replacedLocal at accepted ⊢
  obtain ⟨parent, parented, chosen⟩ := bind_eq_ok.mp accepted
  refine bind_eq_ok.mpr ⟨parent, parented, ?_⟩
  cases parent with
  | none => exact chosen
  | some found => exact relative_anywhere chosen

omit [Scalar α] in
theorem allocate_reformat {staged base : Snapshot α} {path path' : Text}
    {index index' position : Nat} {slot : Slot α} (formatVersion : UInt32)
    (allocated : allocate staged path index = .ok (position, slot, base)) :
    allocate (reformat formatVersion staged) path' index' =
      .ok (position, slot, reformat formatVersion base) := by
  rcases allocate_eq_ok.mp allocated with
    ⟨found, same⟩ | ⟨full, room, samePosition, sameSlot, same⟩
  · exact allocate_eq_ok.mpr (Or.inl ⟨found, by rw [same]⟩)
  · exact allocate_eq_ok.mpr (Or.inr ⟨full, room, samePosition, sameSlot, by rw [same]; rfl⟩)

/-! ## Copies with the same content -/

/-- Equal but for the format, the world revision and the authoring revisions. -/
def Alike (state other : Snapshot α) : Prop :=
  reformat 0 (content state) = reformat 0 (content other)

omit [Scalar α] in
theorem Alike.symm {state other : Snapshot α} (alike : Alike state other) :
    Alike other state :=
  Eq.symm alike

omit [Scalar α] in
theorem Alike.content_eq {state other : Snapshot α} (alike : Alike state other) :
    content other = reformat other.formatVersion (content state) := by
  have formats := congrArg (reformat other.formatVersion) alike
  exact formats.symm

omit [Scalar α] in
theorem alike_of_content {state other : Snapshot α} {formatVersion : UInt32}
    (same : content other = reformat formatVersion (content state)) :
    Alike state other := by
  unfold Alike
  rw [same]
  rfl

omit [Scalar α] in
theorem plainEntity_eq {entity entity' : Entity α}
    (same : plainEntity entity' = plainEntity entity) :
    ∃ revision, entity' = { entity with authoringRevision := revision } := by
  refine ⟨entity'.authoringRevision, ?_⟩
  simp only [plainEntity, Entity.mk.injEq] at same
  cases entity'
  simp_all

omit [Scalar α] in
theorem plainSlot_frame {slot slot' : Slot α} (same : plainSlot slot' = plainSlot slot) :
    slot'.entityUuid = slot.entityUuid ∧ slot'.generation = slot.generation ∧
      slot'.retired = slot.retired := by
  simp only [plainSlot, Slot.mk.injEq] at same
  exact ⟨same.1, same.2.1, same.2.2.1⟩

omit [Scalar α] in
theorem Alike.setEntity {state other : Snapshot α} {position : Nat} {entity : Entity α}
    {entity' : Entity α} (alike : Alike state other)
    (same : plainEntity entity = plainEntity entity') :
    Alike (setEntity state position entity) (setEntity other position entity') := by
  refine @alike_of_content _ _ _ other.formatVersion ?_
  rw [setEntity_content, setEntity_content, alike.content_eq, same]
  rfl

omit [Scalar α] in
theorem Alike.setSlot {state other : Snapshot α} {position : Nat} {slot slot' : Slot α}
    (alike : Alike state other) (same : plainSlot slot = plainSlot slot') :
    Alike (setSlot state position slot) (setSlot other position slot') := by
  refine @alike_of_content _ _ _ other.formatVersion ?_
  rw [setSlot_content, setSlot_content, alike.content_eq, same]
  rfl

omit [Scalar α] in
theorem Alike.hasChildren {state other : Snapshot α} {slot slot' : Slot α}
    (alike : Alike state other) (same : plainSlot slot = plainSlot slot') :
    hasChildren state slot = hasChildren other slot' := by
  rw [← hasChildren_content state, ← hasChildren_content other, alike.content_eq, same]
  rfl

omit [Scalar α] in
theorem Alike.resolve {state other : Snapshot α} {target target' : Target}
    {names names' : Names} {path path' : Text} {index index' : Nat} {found : Placed α}
    (alike : Alike state other) (same : namedBy target names = namedBy target' names')
    (resolved : resolve state target names path index = .ok found) :
    ∃ found', resolve other target' names' path' index' = .ok found' ∧
      plainPlaced found' = plainPlaced found := by
  have plain : Transactions.resolve (content state) target names path index =
      .ok (plainPlaced found) := by
    rw [resolve_content, resolved]
    rfl
  have moved := @resolve_anywhere _ _ _ _ _ _ path path' index index' _
    other.formatVersion same plain
  rw [← alike.content_eq, resolve_content] at moved
  exact map_eq_ok.mp moved

omit [Scalar α] in
theorem Alike.allocate {state other base : Snapshot α} {path path' : Text}
    {index index' position : Nat} {slot : Slot α} (alike : Alike state other)
    (allocated : allocate state path index = .ok (position, slot, base)) :
    ∃ slot' base', allocate other path' index' = .ok (position, slot', base') ∧
      plainSlot slot' = plainSlot slot ∧ Alike base base' := by
  have plain : Transactions.allocate (content state) path index =
      .ok (position, plainSlot slot, content base) := by
    rw [allocate_content, allocated]
    rfl
  have moved := @allocate_reformat _ _ _ path path' index index' _ _ other.formatVersion plain
  rw [← alike.content_eq, allocate_content] at moved
  obtain ⟨⟨position', slot', base'⟩, taken, same⟩ := map_eq_ok.mp moved
  simp only [Prod.mk.injEq] at same
  obtain ⟨rfl, sameSlot, sameBase⟩ := same
  exact ⟨slot', base', taken, sameSlot, alike_of_content sameBase⟩

theorem Alike.subtree {state other next : Snapshot α} {root : Nat}
    {revision revision' : UInt64} {path path' : Text} {index index' : Nat}
    (alike : Alike state other)
    (walked : subtree state root revision path index = .ok next) :
    ∃ next', subtree other root revision' path' index' = .ok next' ∧ Alike next next' := by
  have plain : Transactions.subtree (content state) root 0 path index =
      .ok (content next) := by
    rw [subtree_content, walked]
    rfl
  have moved := @subtree_reformat _ _ _ _ _ _ path path' index index' other.formatVersion plain
  rw [← alike.content_eq, subtree_content] at moved
  obtain ⟨next', walked', same⟩ := map_eq_ok.mp moved
  exact ⟨next', walked', alike_of_content same⟩

theorem Alike.reparent {state other moved : Snapshot α} {slot : Nat}
    {entity entity' : Entity α} {parent parent' : Option (Placed α)} {mode path path' : Text}
    {index index' : Nat} (alike : Alike state other)
    (sameEntity : plainEntity entity' = plainEntity entity)
    (sameParent : parent'.map plainPlaced = parent.map plainPlaced)
    (accepted : reparent state slot entity parent mode path index = .ok moved) :
    ∃ moved', reparent other slot entity' parent' mode path' index' = .ok moved' ∧
      Alike moved moved' := by
  have plain : Transactions.reparent (content state) slot (plainEntity entity)
      (parent.map plainPlaced) mode path index = .ok (content moved) := by
    rw [reparent_content, accepted]
    rfl
  have changed :=
    @reparent_reformat _ _ _ _ _ _ _ _ path path' index index' other.formatVersion plain
  rw [← alike.content_eq, ← sameEntity, ← sameParent, reparent_content] at changed
  obtain ⟨moved', accepted', same⟩ := map_eq_ok.mp changed
  exact ⟨moved', accepted', alike_of_content same⟩

theorem Alike.replacedLocal {state other : Snapshot α} {slot slot' : Slot α}
    {entity entity' : Entity α} {replacement result : Transform α} {path path' : Text}
    {index index' : Nat} (alike : Alike state other)
    (sameSlot : plainSlot slot' = plainSlot slot)
    (sameEntity : plainEntity entity' = plainEntity entity)
    (accepted : replacedLocal state slot entity replacement path index = .ok result) :
    replacedLocal other slot' entity' replacement path' index' = .ok result := by
  rw [← replacedLocal_content] at accepted ⊢
  rw [alike.content_eq, sameSlot, sameEntity]
  exact replacedLocal_anywhere accepted

/-! ## One operation on two copies -/

/-- The operation with other targets. -/
def retarget (change : Target → Target) : Operation α → Operation α
  | .entityCreate operation => .entityCreate operation
  | .transformSet operation =>
      .transformSet { operation with target := change operation.target }
  | .entityTagsSet operation =>
      .entityTagsSet { operation with target := change operation.target }
  | .entityReparent operation =>
      .entityReparent
        { operation with
          target := change operation.target, parent := operation.parent.map change }
  | .entityDelete operation =>
      .entityDelete { operation with target := change operation.target }

omit [Scalar α] in
theorem retarget_id (operation : Operation α) : retarget id operation = operation := by
  cases operation with
  | entityReparent operation => simp [retarget]
  | _ => rfl

def temporaryId : Operation α → Option Text
  | .entityCreate operation => some operation.temporaryId
  | _ => none

/-- The temporary names of a batch, in the order of their creates. -/
def temporaryIds (operations : List (Operation α)) : List Text :=
  operations.filterMap temporaryId

/-- The names that the bindings of a receipt stand for, the newest first. -/
def handles (created : List CreatedBinding) : Names :=
  (created.map fun binding =>
    (binding.temporaryId,
      ⟨binding.worldId, binding.entityUuid, binding.generation⟩)).reverse

theorem handles_append (created issued : List CreatedBinding) :
    handles (created ++ issued) = handles issued ++ handles created := by
  simp [handles]

/-- What one operation issued on its copy. -/
structure Issues (operation : Operation α) (issued : List CreatedBinding)
    (staging next : Staging α) : Prop where
  created : next.created = staging.created ++ issued
  names : next.names = handles issued ++ staging.names
  named : issued.map CreatedBinding.temporaryId = temporaryIds [operation]

omit [Scalar α] in
theorem issues_nothing {operation : Operation α} {staging : Staging α}
    (unnamed : temporaryId operation = none) (staged : Snapshot α) :
    Issues operation [] staging { staging with staged := staged } where
  created := (List.append_nil _).symm
  names := rfl
  named := by simp [temporaryIds, unnamed]

omit [Scalar α] in
theorem resolveParent_alike {state other : Snapshot α} {operation : EntityReparent}
    {change change' : Target → Target} {names names' : Names} {index index' : Nat}
    {parent : Option (Placed α)} (alike : Alike state other)
    (same : ∀ target, namedBy (change target) names = namedBy (change' target) names')
    (resolved :
      resolveParent state { operation with parent := operation.parent.map change } names
        index = .ok parent) :
    ∃ parent',
      resolveParent other { operation with parent := operation.parent.map change' } names'
          index' = .ok parent' ∧
        parent'.map plainPlaced = parent.map plainPlaced := by
  cases named : operation.parent with
  | none =>
      rw [named] at resolved
      exact ⟨none, rfl, by rw [← Except.ok.inj resolved]⟩
  | some target =>
      rw [named] at resolved
      obtain ⟨found, foundOk, rfl⟩ := map_eq_ok.mp resolved
      obtain ⟨found', foundOk', plain⟩ :=
        @Alike.resolve _ _ _ _ _ _ _ _ (operationPath index' ++ ascii "/parent") _ index' _
          alike (same target) foundOk
      exact ⟨some found', map_eq_ok.mpr ⟨found', foundOk', rfl⟩, congrArg some plain⟩

/-- What an operation does to one copy, it does to every copy that is alike and in
which its targets name the same handles. -/
theorem applyOperation_alike {change change' : Target → Target}
    {revision revision' : UInt64} {operation : Operation α} {index index' : Nat}
    {staging other next : Staging α} (alike : Alike staging.staged other.staged)
    (same : ∀ target,
      namedBy (change target) staging.names = namedBy (change' target) other.names)
    (unused : ∀ name, temporaryId operation = some name → other.names.lookup name = none)
    (applied :
      applyOperation (plainContext revision) (retarget change operation) index staging () =
        .ok next ()) :
    ∃ following issued,
      applyOperation (plainContext revision') (retarget change' operation) index' other () =
          .ok following () ∧
        Alike next.staged following.staged ∧ Issues operation issued staging next ∧
        Issues operation issued other following := by
  cases operation with
  | entityCreate operation =>
      obtain ⟨position, slot, base, _, cube, allocated, _, _, rfl⟩ :=
        applyCreate_eq_ok.mp applied
      obtain ⟨slot', base', allocated', sameSlot, alikeBase⟩ :=
        @Alike.allocate _ _ _ _ _ (operationPath index') _ index' _ _ alike allocated
      obtain ⟨sameUuid, sameGeneration, sameRetired⟩ := plainSlot_frame sameSlot
      have sameWorld : base'.worldId = base.worldId :=
        (congrArg Snapshot.worldId alikeBase).symm
      have sameBinding : bindingOf operation base' slot' = bindingOf operation base slot := by
        simp only [bindingOf, sameWorld, sameUuid, sameGeneration]
      refine ⟨afterCreate revision' operation other position slot' base',
        [bindingOf operation base slot], applyCreate_eq_ok.mpr ⟨position, slot', base',
          unused _ rfl, cube, allocated', rfl, rfl, rfl⟩, ?_, ⟨rfl, rfl, rfl⟩, ?_, ?_, rfl⟩
      · refine alikeBase.setSlot ?_
        simp only [plainSlot, Option.map_some, sameUuid, sameGeneration, sameRetired]
        rfl
      · exact congrArg (fun binding => other.created ++ [binding]) sameBinding
      · exact congrArg (fun binding => handles [binding] ++ other.names) sameBinding
  | transformSet operation =>
      obtain ⟨replacement, position, slot, entity, localTransform, staged, replaced,
        resolved, _, scaled, localOk, spread, rfl⟩ := applyTransform_eq_ok.mp applied
      obtain ⟨⟨position', slot', entity'⟩, resolved', plain⟩ :=
        @Alike.resolve _ _ _ _ _ _ _ _ (operationPath index' ++ ascii "/target") _ index' _
          alike (same operation.target) resolved
      simp only [plainPlaced, Prod.mk.injEq] at plain
      obtain ⟨rfl, sameSlot, sameEntity⟩ := plain
      have written : Alike
          (setEntity staging.staged position'
            { entity with transform := replacement, localTransform := localTransform })
          (setEntity other.staged position'
            { entity' with transform := replacement, localTransform := localTransform }) := by
        refine alike.setEntity ?_
        obtain ⟨_, rfl⟩ := plainEntity_eq sameEntity
        rfl
      obtain ⟨staged', spread', alikeStaged⟩ :=
        @Alike.subtree _ _ _ _ _ _ _ revision' _ (operationPath index') _ index' written spread
      refine ⟨{ other with staged := staged' }, [], applyTransform_eq_ok.mpr
        ⟨replacement, position', slot', entity', localTransform, staged',
          transform_eq_ok.mpr (transform_eq_ok.mp replaced), resolved', rfl, ?_,
          alike.replacedLocal sameSlot sameEntity localOk, spread', rfl⟩,
        alikeStaged, issues_nothing rfl _, issues_nothing rfl _⟩
      intro children
      exact scaled ((alike.hasChildren sameSlot.symm).trans children)
  | entityTagsSet operation =>
      obtain ⟨position, slot, entity, resolved, _, rfl⟩ := applyTagsSet_eq_ok.mp applied
      obtain ⟨⟨position', slot', entity'⟩, resolved', plain⟩ :=
        @Alike.resolve _ _ _ _ _ _ _ _ (operationPath index' ++ ascii "/target") _ index' _
          alike (same operation.target) resolved
      simp only [plainPlaced, Prod.mk.injEq] at plain
      obtain ⟨rfl, _, sameEntity⟩ := plain
      refine ⟨_, [], applyTagsSet_eq_ok.mpr ⟨position', slot', entity', resolved', rfl, rfl⟩,
        alike.setEntity ?_, issues_nothing rfl _, issues_nothing rfl _⟩
      obtain ⟨_, rfl⟩ := plainEntity_eq sameEntity
      rfl
  | entityReparent operation =>
      obtain ⟨position, slot, entity, parent, moved, staged, resolved, parented, movedOk,
        spread, _, rfl⟩ := applyReparent_eq_ok.mp applied
      obtain ⟨⟨position', slot', entity'⟩, resolved', plain⟩ :=
        @Alike.resolve _ _ _ _ _ _ _ _ (operationPath index' ++ ascii "/target") _ index' _
          alike (same operation.target) resolved
      simp only [plainPlaced, Prod.mk.injEq] at plain
      obtain ⟨rfl, _, sameEntity⟩ := plain
      obtain ⟨parent', parented', sameParent⟩ :=
        @resolveParent_alike _ _ _ operation _ _ _ _ _ index' _ alike same parented
      obtain ⟨moved', movedOk', alikeMoved⟩ :=
        @Alike.reparent _ _ _ _ _ _ _ _ _ _ _ _ (operationPath index') _ index' alike
          sameEntity sameParent movedOk
      obtain ⟨staged', spread', alikeStaged⟩ :=
        @Alike.subtree _ _ _ _ _ _ _ revision' _ (operationPath index') _ index' alikeMoved
          spread
      exact ⟨{ other with staged := staged' }, [], applyReparent_eq_ok.mpr
        ⟨position', slot', entity', parent', moved', staged', resolved', parented', movedOk',
          spread', rfl, rfl⟩, alikeStaged, issues_nothing rfl _, issues_nothing rfl _⟩
  | entityDelete operation =>
      obtain ⟨position, slot, entity, resolved, childless, _, rfl⟩ :=
        applyDelete_eq_ok.mp applied
      obtain ⟨⟨position', slot', entity'⟩, resolved', plain⟩ :=
        @Alike.resolve _ _ _ _ _ _ _ _ (operationPath index' ++ ascii "/target") _ index' _
          alike (same operation.target) resolved
      simp only [plainPlaced, Prod.mk.injEq] at plain
      obtain ⟨rfl, sameSlot, _⟩ := plain
      refine ⟨_, [], applyDelete_eq_ok.mpr ⟨position', slot', entity', resolved',
        (alike.hasChildren sameSlot.symm).symm.trans childless, rfl, rfl⟩,
        alike.setSlot ?_, issues_nothing rfl _, issues_nothing rfl _⟩
      rw [emptied_plain, emptied_plain, sameSlot]

theorem applyOperations_alike {revision revision' : UInt64} {operations : List (Operation α)} :
    ∀ {index index' : Nat} {staging other last : Staging α},
      Alike staging.staged other.staged → staging.names = other.names →
      applyOperations (plainContext revision) operations index staging () = .ok last () →
      ∃ final,
        applyOperations (plainContext revision') operations index' other () = .ok final () ∧
          Alike last.staged final.staged := by
  induction operations with
  | nil =>
      intro index index' staging other last alike names applied
      obtain ⟨rfl, _⟩ := applyOperations_nil_eq_ok.mp applied
      exact ⟨other, rfl, alike⟩
  | cons operation rest inductionHypothesis =>
      intro index index' staging other last alike names applied
      obtain ⟨next, _, first, others⟩ := applyOperations_cons_eq_ok.mp applied
      have unused (name : Text) (named : temporaryId operation = some name) :
          other.names.lookup name = none := by
        cases operation with
        | entityCreate create =>
            obtain ⟨_, _, _, free, _⟩ := applyCreate_eq_ok.mp first
            rw [← names, ← Option.some.inj named]
            exact free
        | _ => cases named
      obtain ⟨following, issued, taken, alikeNext, left, right⟩ :=
        @applyOperation_alike _ _ id id _ revision' operation _ index' _ other _ alike
          (fun target => by rw [names]) unused (by rw [retarget_id]; exact first)
      rw [retarget_id] at taken
      obtain ⟨final, ran, ending⟩ := @inductionHypothesis _ (index' + 1) _ following _ alikeNext
        (by rw [left.names, right.names, names]) others
      exact ⟨final, applyOperations_cons_eq_ok.mpr ⟨following, (), taken, ran⟩, ending⟩

/-- What applies to the content of a world applies to the world. -/
theorem applyBatch_applies {operations : List (Operation α)} {state next : Snapshot α}
    (applied : applyBatch operations (content state) = some next) (revision : UInt64) :
    ∃ last, applyOperations (plainContext revision) operations 0 ⟨state, [], []⟩ () =
      .ok last () := by
  obtain ⟨last, ran, _⟩ := applyBatch_eq_some.mp applied
  have alike : Alike (content state) state := by
    refine @alike_of_content _ _ _ state.formatVersion ?_
    rw [content_content]
    rfl
  obtain ⟨final, moved, _⟩ :=
    @applyOperations_alike _ _ 0 revision operations 0 0 ⟨content state, [], []⟩
      ⟨state, [], []⟩ last alike rfl ran
  exact ⟨final, moved⟩

/-! ## One operation at a time -/

def settleTarget (names : Names) : Target → Target
  | .temporary reference =>
      match names.lookup reference.temporaryId with
      | some identity => .entity identity
      | none => .temporary reference
  | .entity identity => .entity identity

theorem namedBy_settleTarget (names : Names) (target : Target) :
    namedBy (settleTarget names target) [] = namedBy target names := by
  cases target with
  | entity identity => rfl
  | temporary reference =>
      cases looked : names.lookup reference.temporaryId with
      | none => simp [settleTarget, namedBy, looked]
      | some identity => simp [settleTarget, namedBy, looked]

/-- The operation with every reference to an earlier create of the batch replaced by
the handle that create returned. -/
def settle (created : List CreatedBinding) (operation : Operation α) : Operation α :=
  retarget (settleTarget (handles created)) operation

/-- What tells one request of a client from its others. -/
structure Label where
  transactionId : Text
  idempotency : Idempotency

def Label.Valid (label : Label) : Prop :=
  validUuid label.transactionId = true ∧ validIdentifier 128 label.idempotency.epoch = true

/-- One operation of a batch as a batch of its own. -/
def alone (envelope : Envelope α) (label : Label) (revision : UInt64)
    (operation : Operation α) : Envelope α :=
  { envelope with
    transactionId := label.transactionId
    idempotency := label.idempotency
    expectedWorldRevision := revision
    operations := [operation] }

/-- A boundary call with neither hook nor observer. -/
def call (library : JsonLibrary α) (world : LiveWorld α) (envelope : Envelope α) :
    Applied α Unit Unit :=
  applyAtBoundary library world envelope none none () ()

/-- The operations of a batch committed one at a time, each at the revision that the one
before it left, with the bindings of all their receipts. It stops at the first
operation that does not commit. -/
def oneByOne (library : JsonLibrary α) (envelope : Envelope α) (labels : Nat → Label) :
    List (Operation α) → Nat → List CreatedBinding → LiveWorld α →
      Option (LiveWorld α × List CreatedBinding)
  | [], _, created, world => some (world, created)
  | operation :: rest, count, created, world =>
      let applied := call library world <|
        alone envelope (labels count)
          (envelope.expectedWorldRevision + UInt64.ofNat count) (settle created operation)
      match applied.result with
      | .error _ => none
      | .ok receipt =>
          if receipt.status = ascii "committed" then
            oneByOne library envelope labels rest (count + 1) (created ++ receipt.created)
              applied.world
          else none

theorem call_cases (library : JsonLibrary α) (world : LiveWorld α) (envelope : Envelope α) :
    (∃ next created receipt,
      Commits library world.state envelope next created ∧
        (call library world envelope).world = { world with state := next } ∧
        (call library world envelope).result = .ok receipt ∧
        receipt.status = ascii "committed" ∧ receipt.created = created) ∨
      ((∀ next created, ¬ Commits library world.state envelope next created) ∧
        ¬ Committed (call library world envelope).result) := by
  rcases apply_hookless library world envelope none with
    ⟨staged, created, accepted, stagedOk, same⟩ | ⟨impossible, _, refused⟩
  · refine Or.inl ⟨published staged (world.state.worldRevision + 1), created,
      committedReceipt (initialReceipt false envelope world.state.worldRevision)
        (world.state.worldRevision + 1) created,
      ⟨accepted, staged, stagedOk, rfl⟩, ?_, ?_, rfl, rfl⟩
    · exact congrArg Applied.world same
    · exact congrArg Applied.result same
  · refine Or.inr ⟨?_, refused⟩
    intro next created committed
    obtain ⟨accepted, staged, stagedOk, _⟩ := committed
    exact impossible accepted (staged, created) stagedOk

/-- A valid batch commits when it is for this world at this revision and its operations
apply. -/
theorem commits_iff {library : JsonLibrary α} (faithful : library.Faithful)
    {state next : Snapshot α} {envelope : Envelope α} {created : List CreatedBinding}
    (valid : ValidEnvelope envelope) :
    Commits library state envelope next created ↔
      envelope.worldId = state.worldId ∧
        envelope.expectedWorldRevision = state.worldRevision ∧
        state.worldRevision ≠ maximum64 ∧
        ∃ last,
          applyOperations (plainContext (state.worldRevision + 1)) envelope.operations 0
              ⟨state, [], []⟩ () = .ok last () ∧
            next = published (formatted last.staged) (state.worldRevision + 1) ∧
            created = last.created := by
  obtain ⟨bytes, serialized, _⟩ := serialize_valid faithful valid
  constructor
  · intro committed
    obtain ⟨accepted, staged, stagedOk, same⟩ := committed
    obtain ⟨_, sameWorld, sameRevision, finite⟩ := admission_eq_ok.mp accepted
    obtain ⟨last, _, run, _, _, sameStaged, sameCreated⟩ := stage_eq_ok.mp stagedOk
    exact ⟨sameWorld, sameRevision, finite, last, run, by rw [same, sameStaged], sameCreated⟩
  · intro parts
    obtain ⟨sameWorld, sameRevision, finite, last, run, same, sameCreated⟩ := parts
    refine ⟨admission_eq_ok.mpr ⟨⟨bytes, serialized⟩, sameWorld, sameRevision, finite⟩,
      formatted last.staged, stage_eq_ok.mpr ⟨last, (), run, ?_, rfl, rfl, sameCreated⟩, same⟩
    intro recorded replayed
    cases replayed

theorem applyOperations_one {context : Context α Unit} {operation : Operation α}
    {index : Nat} {staging last : Staging α} :
    applyOperations context [operation] index staging () = .ok last () ↔
      applyOperation context operation index staging () = .ok last () := by
  rw [applyOperations_cons_eq_ok]
  constructor
  · intro run
    obtain ⟨_, _, first, others⟩ := run
    obtain ⟨rfl, _⟩ := applyOperations_nil_eq_ok.mp others
    exact first
  · intro first
    exact ⟨last, (), first, applyOperations_nil_eq_ok.mpr ⟨rfl, rfl⟩⟩

/-! ## Handles in requests -/

def ValidBinding (binding : CreatedBinding) : Prop :=
  validIdentifier 128 binding.worldId = true ∧ validUuid binding.entityUuid = true

theorem settleTarget_valid {created : List CreatedBinding} {target : Target}
    (bindings : ∀ binding ∈ created, ValidBinding binding) (valid : ValidTarget target) :
    ValidTarget (settleTarget (handles created) target) := by
  cases target with
  | entity identity => exact valid
  | temporary reference =>
      cases looked : (handles created).lookup reference.temporaryId with
      | none =>
          simp only [settleTarget, looked]
          exact valid
      | some identity =>
          simp only [settleTarget, looked]
          obtain ⟨front, back, split, _⟩ := List.lookup_eq_some_iff.mp looked
          have member : (reference.temporaryId, identity) ∈ handles created := by
            rw [split]
            simp
          obtain ⟨binding, present, same⟩ :=
            List.mem_map.mp (List.mem_reverse.mp member)
          obtain ⟨_, rfl⟩ := Prod.mk.inj same
          exact bindings binding present

theorem settle_valid {created : List CreatedBinding} {operation : Operation α}
    (bindings : ∀ binding ∈ created, ValidBinding binding)
    (valid : ValidOperation operation) : ValidOperation (settle created operation) := by
  cases operation with
  | entityCreate operation => exact valid
  | transformSet operation => exact ⟨settleTarget_valid bindings valid.1, valid.2⟩
  | entityTagsSet operation => exact ⟨settleTarget_valid bindings valid.1, valid.2⟩
  | entityDelete operation => exact ⟨settleTarget_valid bindings valid.1, valid.2⟩
  | entityReparent operation =>
      refine ⟨settleTarget_valid bindings valid.1, ?_, valid.2.2⟩
      intro parent named
      obtain ⟨target, given, rfl⟩ := Option.map_eq_some_iff.mp named
      exact settleTarget_valid bindings (valid.2.1 target given)

theorem alone_valid {envelope : Envelope α} (header : ValidHeader envelope)
    {label : Label} (labelled : label.Valid) (revision : UInt64) {operation : Operation α}
    (valid : ValidOperation operation) :
    ValidEnvelope (alone envelope label revision operation) where
  header := { header with transactionId := labelled.1, epoch := labelled.2 }
  nonempty := List.cons_ne_nil _ _
  withinBudget := by
    have positive : envelope.budget.maxOperations.toNat ≠ 0 := fun zero =>
      header.budget.1 (UInt64.toNat_inj.mp zero)
    change 1 ≤ envelope.budget.maxOperations.toNat
    omega
  operations := by
    intro other member
    rw [List.mem_singleton.mp member]
    exact valid

/-- The bindings that an operation issues on a valid world can be named in a request. -/
theorem issued_valid {seed maxSlots : UInt32} {state : Snapshot α} {worldId : Text}
    (valid : SlotsValid worldId seed maxSlots state)
    (named : validIdentifier 128 worldId = true) {revision : UInt64}
    {operation : Operation α} {last : Staging α}
    (applied :
      applyOperation (plainContext revision) operation 0 ⟨state, [], []⟩ () = .ok last ()) :
    ∀ binding ∈ last.created, ValidBinding binding := by
  have nothing (same : last.created = []) : ∀ binding ∈ last.created, ValidBinding binding := by
    rw [same]
    exact fun _ member => absurd member List.not_mem_nil
  cases operation with
  | entityCreate operation =>
      obtain ⟨position, slot, base, _, _, allocated, _, _, rfl⟩ :=
        applyCreate_eq_ok.mp applied
      intro binding member
      obtain rfl := List.mem_singleton.mp member
      rcases allocate_eq_ok.mp allocated with
        ⟨found, rfl⟩ | ⟨_, _, _, sameSlot, rfl⟩
      · refine ⟨(congrArg (validIdentifier 128) valid.worldId_eq).trans named, ?_⟩
        have identified := valid.uuids position slot (locate_eq_some.mp found).1
        exact (congrArg validUuid identified).trans (validUuid_uuid seed position)
      · refine ⟨(congrArg (validIdentifier 128) valid.worldId_eq).trans named, ?_⟩
        exact (congrArg (fun slot => validUuid (Slot.entityUuid slot)) sameSlot).trans
          (validUuid_uuid _ _)
  | transformSet operation =>
      obtain ⟨_, _, _, _, _, _, _, _, _, _, _, _, rfl⟩ := applyTransform_eq_ok.mp applied
      exact nothing rfl
  | entityTagsSet operation =>
      obtain ⟨_, _, _, _, _, rfl⟩ := applyTagsSet_eq_ok.mp applied
      exact nothing rfl
  | entityReparent operation =>
      obtain ⟨_, _, _, _, _, _, _, _, _, _, _, rfl⟩ := applyReparent_eq_ok.mp applied
      exact nothing rfl
  | entityDelete operation =>
      obtain ⟨_, _, _, _, _, _, rfl⟩ := applyDelete_eq_ok.mp applied
      exact nothing rfl

/-! ## The two runs -/

/-- A batch in the middle and the world that the operations before it made one at a
time. -/
structure Abreast (library : JsonLibrary α) (envelope : Envelope α)
    (pending : List (Operation α)) (count : Nat) (created : List CreatedBinding)
    (world : LiveWorld α) (staging : Staging α) : Prop where
  reachable : Reachable library world
  valid : ∀ operation ∈ pending, ValidOperation operation
  distinct : (created.map CreatedBinding.temporaryId ++ temporaryIds pending).Nodup
  bindings : ∀ binding ∈ created, ValidBinding binding
  worldId : envelope.worldId = world.state.worldId
  revision :
    world.state.worldRevision = envelope.expectedWorldRevision + UInt64.ofNat count
  room : world.state.worldRevision.toNat + pending.length < 2 ^ 64
  alike : Alike staging.staged world.state
  issued : staging.created = created
  names : staging.names = handles created

section Runs

variable {library : JsonLibrary α} {envelope : Envelope α}

/-- In one operation of the batch and the request made of it, the targets name the same. -/
theorem settle_names (created : List CreatedBinding) (target : Target) :
    namedBy (settleTarget (handles created) target) [] =
      namedBy (id target) (handles created) :=
  namedBy_settleTarget (handles created) target

theorem Abreast.unused {operation : Operation α} {rest : List (Operation α)} {count : Nat}
    {created : List CreatedBinding} {world : LiveWorld α} {staging : Staging α}
    (abreast : Abreast library envelope (operation :: rest) count created world staging)
    {name : Text} (named : temporaryId operation = some name) :
    staging.names.lookup name = none := by
  rw [abreast.names, List.lookup_eq_none_iff]
  intro entry member
  obtain ⟨binding, present, rfl⟩ := List.mem_map.mp (List.mem_reverse.mp member)
  have pending : name ∈ temporaryIds (operation :: rest) := by
    simp [temporaryIds, named]
  have apart := (List.nodup_append.mp abreast.distinct).2.2 binding.temporaryId
    (List.mem_map_of_mem present) name pending
  exact bne_iff_ne.mpr (Ne.symm apart)

/-- One operation of the batch commits alone exactly when the batch takes it. -/
theorem Abreast.step (faithful : library.Faithful) (header : ValidHeader envelope)
    {label : Label} (labelled : label.Valid) {operation : Operation α}
    {rest : List (Operation α)} {count index : Nat} {created : List CreatedBinding}
    {world : LiveWorld α} {staging : Staging α} {batchRevision : UInt64}
    (abreast : Abreast library envelope (operation :: rest) count created world staging) :
    (∀ next issued,
      Commits library world.state
        (alone envelope label (envelope.expectedWorldRevision + UInt64.ofNat count)
          (settle created operation)) next issued →
      ∃ following,
        applyOperation (plainContext batchRevision) operation index staging () =
            .ok following () ∧
          Abreast library envelope rest (count + 1) (created ++ issued)
            { world with state := next } following) ∧
      ∀ following,
        applyOperation (plainContext batchRevision) operation index staging () =
          .ok following () →
        ∃ next issued,
          Commits library world.state
            (alone envelope label (envelope.expectedWorldRevision + UInt64.ofNat count)
              (settle created operation)) next issued := by
  have member : operation ∈ operation :: rest := List.mem_cons_self
  have valid := alone_valid header labelled
    (envelope.expectedWorldRevision + UInt64.ofNat count)
    (settle_valid abreast.bindings (abreast.valid operation member))
  have room := abreast.room
  rw [List.length_cons] at room
  constructor
  · intro next issued committed
    obtain ⟨_, _, _, last, ran, same, sameIssued⟩ :=
      (commits_iff faithful valid).mp committed
    have applied := applyOperations_one.mp ran
    obtain ⟨following, bindings, taken, alike, single, batch⟩ :=
      @applyOperation_alike _ _ (settleTarget (handles created)) id _ batchRevision operation
        _ index ⟨world.state, [], []⟩ staging last abreast.alike.symm
        (fun target => by rw [abreast.names]; exact settle_names created target)
        (fun name named => abreast.unused named) applied
    rw [retarget_id] at taken
    have sameBindings : issued = bindings := by
      rw [sameIssued, single.created, List.nil_append]
    subst sameBindings
    obtain ⟨worldId, seed, maxSlots, identified, slots⟩ :=
      Authoring.reachable_slots abreast.reachable
    refine ⟨following, taken, ?_⟩
    refine
      { reachable := abreast.reachable.commit trivial committed
        valid := fun other later => abreast.valid other (List.mem_cons_of_mem _ later)
        distinct := ?_
        bindings := ?_
        worldId := ?_
        revision := ?_
        room := ?_
        alike := ?_
        issued := ?_
        names := ?_ }
    · have split : temporaryIds (operation :: rest) =
          issued.map CreatedBinding.temporaryId ++ temporaryIds rest := by
        rw [single.named]
        exact @List.filterMap_append _ _ [operation] rest temporaryId
      rw [List.map_append, List.append_assoc, ← split]
      exact abreast.distinct
    · intro binding present
      rcases List.mem_append.mp present with before | now
      · exact abreast.bindings binding before
      · rw [sameIssued] at now
        exact issued_valid slots identified applied binding now
    · exact (abreast.worldId.trans slots.worldId_eq).trans (slots.commit committed).worldId_eq.symm
    · rw [committed.revision.1, abreast.revision, UInt64.ofNat_add]
      exact UInt64.add_assoc _ _ _
    · change next.worldRevision.toNat + rest.length < 2 ^ 64
      rw [committed.revision.2]
      omega
    · rw [same]
      exact alike.symm
    · rw [batch.created, abreast.issued]
    · rw [batch.names, abreast.names, handles_append]
  · intro following taken
    obtain ⟨last, bindings, applied, _⟩ :=
      @applyOperation_alike _ _ id (settleTarget (handles created)) _
        (world.state.worldRevision + 1) operation index 0 staging ⟨world.state, [], []⟩
        following abreast.alike
        (fun target => by rw [abreast.names]; exact (settle_names created target).symm)
        (fun name named => rfl) (by rw [retarget_id]; exact taken)
    have finite : world.state.worldRevision ≠ maximum64 := by
      intro exhausted
      have last : world.state.worldRevision.toNat = 2 ^ 64 - 1 := by rw [exhausted]; rfl
      omega
    exact ⟨_, _, (commits_iff faithful valid).mpr ⟨abreast.worldId, abreast.revision.symm,
      finite, last, applyOperations_one.mpr applied, rfl, rfl⟩⟩

/-- Where the first operation does not commit, nothing does. -/
theorem oneByOne_first {labels : Nat → Label} {operation : Operation α}
    {rest : List (Operation α)} {count : Nat} {created : List CreatedBinding}
    {world : LiveWorld α}
    (never : ∀ next issued, ¬ Commits library world.state
      (alone envelope (labels count) (envelope.expectedWorldRevision + UInt64.ofNat count)
        (settle created operation)) next issued) :
    oneByOne library envelope labels (operation :: rest) count created world = none := by
  rcases call_cases library world
      (alone envelope (labels count) (envelope.expectedWorldRevision + UInt64.ofNat count)
        (settle created operation)) with
    ⟨next, issued, _, committed, _⟩ | ⟨_, refused⟩
  · exact absurd committed (never next issued)
  · simp only [oneByOne]
    split
    · rfl
    · rename_i receipt answered
      exact if_neg fun status => refused ⟨receipt, answered, status⟩

/-- From the same place, the rest of the batch applies exactly when its operations commit
one at a time, and to the same end. -/
theorem Abreast.run (faithful : library.Faithful) (header : ValidHeader envelope)
    {labels : Nat → Label} (labelled : ∀ count, (labels count).Valid)
    {batchRevision : UInt64} {pending : List (Operation α)} :
    ∀ {count index : Nat} {created : List CreatedBinding} {world : LiveWorld α}
      {staging : Staging α},
      Abreast library envelope pending count created world staging →
      match oneByOne library envelope labels pending count created world with
      | none =>
          ∀ final,
            applyOperations (plainContext batchRevision) pending index staging () ≠
              .ok final ()
      | some (last, issued) =>
          ∃ final,
            applyOperations (plainContext batchRevision) pending index staging () =
                .ok final () ∧
              Alike final.staged last.state ∧ final.created = issued ∧
              Reachable library last := by
  induction pending with
  | nil =>
      intro count index created world staging abreast
      exact ⟨staging, rfl, abreast.alike, abreast.issued, abreast.reachable⟩
  | cons operation rest inductionHypothesis =>
      intro count index created world staging abreast
      obtain ⟨taken, offered⟩ :=
        @Abreast.step _ _ _ _ faithful header _ (labelled count) _ _ _ index _ _ _
          batchRevision abreast
      rcases call_cases library world
          (alone envelope (labels count)
            (envelope.expectedWorldRevision + UInt64.ofNat count)
            (settle created operation)) with
        ⟨next, issued, receipt, committed, moved, answered, status, same⟩ | ⟨never, refused⟩
      · obtain ⟨following, applied, further⟩ := taken next issued committed
        have continued := @inductionHypothesis _ (index + 1) _ _ _ further
        simp only [oneByOne, answered, status, if_true, same, moved]
        cases ran :
            oneByOne library envelope labels rest (count + 1) (created ++ issued)
              { world with state := next } with
        | none =>
            simp only [ran] at continued ⊢
            intro final run
            obtain ⟨other, _, first, others⟩ := applyOperations_cons_eq_ok.mp run
            rw [applied] at first
            cases first
            exact continued final others
        | some result =>
            simp only [ran] at continued ⊢
            obtain ⟨final, run, ending⟩ := continued
            exact ⟨final,
              applyOperations_cons_eq_ok.mpr ⟨following, (), applied, run⟩, ending⟩
      · rw [oneByOne_first never]
        intro final run
        obtain ⟨following, _, first, _⟩ := applyOperations_cons_eq_ok.mp run
        obtain ⟨next, issued, committed⟩ := offered following first
        exact never next issued committed

theorem content_of_alike {staged : Snapshot α} {world : LiveWorld α}
    (reachable : Reachable library world) (alike : Alike staged world.state)
    (revision : UInt64) :
    content (published (formatted staged) revision) = content world.state := by
  have slots : staged.slots.map plainSlot = world.state.slots.map plainSlot :=
    congrArg Snapshot.slots alike
  have format : world.state.formatVersion = stagedFormat staged.slots := by
    rw [(Authoring.reachable_tidy reachable).format, ← stagedFormat_content,
      ← stagedFormat_content staged.slots, slots]
  rw [alike.content_eq, format]
  rfl

/-- What a batch of operations commits is what its operations commit one at a time: both
commit or neither does, and they leave the same content and issue the same handles. -/
theorem batch_is_sequence (faithful : library.Faithful) {world : LiveWorld α}
    (reachable : Reachable library world) (valid : ValidEnvelope envelope)
    (distinct : (temporaryIds envelope.operations).Nodup)
    (room : world.state.worldRevision.toNat + envelope.operations.length < 2 ^ 64)
    {labels : Nat → Label} (labelled : ∀ count, (labels count).Valid) :
    (Committed (call library world envelope).result ↔
      (oneByOne library envelope labels envelope.operations 0 [] world).isSome = true) ∧
      ∀ receipt last created,
        (call library world envelope).result = .ok receipt →
        oneByOne library envelope labels envelope.operations 0 [] world =
          some (last, created) →
        content (call library world envelope).world.state = content last.state ∧
          receipt.created = created := by
  by_cases placed : envelope.worldId = world.state.worldId ∧
      envelope.expectedWorldRevision = world.state.worldRevision
  · obtain ⟨sameWorld, sameRevision⟩ := placed
    have start : Abreast library envelope envelope.operations 0 [] world
        ⟨world.state, [], []⟩ :=
      { reachable := reachable
        valid := valid.operations
        distinct := distinct
        bindings := fun _ member => absurd member List.not_mem_nil
        worldId := sameWorld
        revision := by rw [sameRevision]; simp
        room := room
        alike := rfl
        issued := rfl
        names := rfl }
    have finite : world.state.worldRevision ≠ maximum64 := by
      intro exhausted
      have last : world.state.worldRevision.toNat = 2 ^ 64 - 1 := by rw [exhausted]; rfl
      have operations := List.length_pos_of_ne_nil valid.nonempty
      omega
    have ran := @Abreast.run _ _ _ _ faithful valid.header _ labelled
      (world.state.worldRevision + 1) _ _ 0 _ _ _ start
    rcases call_cases library world envelope with
      ⟨next, created, receipt, committed, moved, answered, status, same⟩ | ⟨never, refused⟩
    · obtain ⟨_, _, _, final, run, sameNext, sameCreated⟩ :=
        (commits_iff faithful valid).mp committed
      cases sequence : oneByOne library envelope labels envelope.operations 0 [] world with
      | none =>
          simp only [sequence] at ran
          exact absurd run (ran final)
      | some result =>
          simp only [sequence] at ran
          obtain ⟨other, run', alike, issued, last⟩ := ran
          rw [run] at run'
          cases run'
          refine ⟨⟨fun _ => rfl, fun _ => ⟨receipt, answered, status⟩⟩, ?_⟩
          intro receipt' last' created' answered' reached
          rw [answered] at answered'
          cases answered'
          cases reached
          rw [moved, sameNext]
          exact ⟨content_of_alike last alike _, same.trans (sameCreated.trans issued)⟩
    · cases sequence : oneByOne library envelope labels envelope.operations 0 [] world with
      | none =>
          refine ⟨⟨fun committed => absurd committed refused, fun some => by cases some⟩, ?_⟩
          intro _ _ _ _ reached
          cases reached
      | some result =>
          simp only [sequence] at ran
          obtain ⟨final, run, _⟩ := ran
          exact absurd ((commits_iff faithful valid).mpr
            ⟨sameWorld, sameRevision, finite, final, run, rfl, rfl⟩) (never _ _)
  · have refused : ¬ Committed (call library world envelope).result := by
      rcases call_cases library world envelope with ⟨next, created, _, committed, _⟩ | ⟨_, no⟩
      · obtain ⟨sameWorld, sameRevision, _⟩ := (commits_iff faithful valid).mp committed
        exact absurd ⟨sameWorld, sameRevision⟩ placed
      · exact no
    have stopped :
        oneByOne library envelope labels envelope.operations 0 [] world = none := by
      cases operations : envelope.operations with
      | nil => exact absurd operations valid.nonempty
      | cons operation rest =>
          refine oneByOne_first fun next issued committed => placed ?_
          have member : operation ∈ envelope.operations := by rw [operations]; simp
          have single := alone_valid valid.header (labelled 0)
            (envelope.expectedWorldRevision + UInt64.ofNat 0)
            (@settle_valid _ _ [] _ (fun _ none => absurd none List.not_mem_nil)
              (valid.operations operation member))
          obtain ⟨sameWorld, sameRevision, _⟩ :=
            (commits_iff faithful single).mp committed
          refine ⟨sameWorld, Eq.trans ?_ sameRevision⟩
          exact (UInt64.add_zero _).symm
    rw [stopped]
    refine ⟨⟨fun committed => absurd committed refused, fun some => by cases some⟩, ?_⟩
    intro _ _ _ _ reached
    cases reached

end Runs

def sampleLabel (count : Nat) : Label :=
  ⟨uuid 9 count, ⟨ascii "epoch", UInt64.ofNat count⟩⟩

/-- Two cubes, one of them attached to the other and tagged. -/
def sampleFamily : Envelope Halves :=
  sampleEnvelope 0
    [sampleCreate "parent", sampleCreate "child",
      .entityReparent
        ⟨sampleName "child", some (sampleName "parent"), ascii "preserve_world"⟩,
      .entityTagsSet ⟨sampleName "child", [ascii "red"]⟩]

set_option maxRecDepth 20000 in
/-- In an empty world both ways end with the family, under the same handles. -/
theorem batch_is_sequence_family :
    ∃ receipt last created,
      (call JsonText.library sampleWorld sampleFamily).result = .ok receipt ∧
        oneByOne JsonText.library sampleFamily sampleLabel sampleFamily.operations 0 []
            sampleWorld = some (last, created) ∧
        content (call JsonText.library sampleWorld sampleFamily).world.state =
            content last.state ∧
        receipt.created = created := by
  have fresh : Reachable JsonText.library sampleWorld :=
    @ReachableBy.fresh Halves _ _ _ 1 (ascii "world") 7 4 sampleWorld.state rfl
  have valid : ValidEnvelope sampleFamily :=
    (convert_value.mp (by rfl : convert (envelopeValue sampleFamily) = .ok sampleFamily)).1
  have labelled (count : Nat) : (sampleLabel count).Valid :=
    ⟨validUuid_uuid 9 count, (by decide : validIdentifier 128 (ascii "epoch") = true)⟩
  obtain ⟨agree, same⟩ := batch_is_sequence JsonText.library_faithful fresh valid
    (by decide) (by decide) labelled
  have committed :
      (call JsonText.library sampleWorld sampleFamily).result.toOption.map Receipt.status =
        some (ascii "committed") := by decide +kernel
  obtain ⟨receipt, result, status⟩ := answered_status committed
  obtain ⟨⟨last, created⟩, reached⟩ :=
    Option.isSome_iff_exists.mp (agree.mp ⟨receipt, result, status⟩)
  exact ⟨receipt, last, created, result, reached, same receipt last created result reached⟩

end Omniweft.Transactions
