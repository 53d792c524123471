import Omniweft.TransactionsRuns

/-!
# Content without revisions

The content of a world is its snapshot without the world revision and the
authoring revisions. No operation reads a revision, so what a batch does to the
content depends on the content alone.
-/

namespace Omniweft.Transactions

open Omniweft.Outcome World Commands

variable {α : Type}

def plainEntity (entity : Entity α) : Entity α :=
  { entity with authoringRevision := 0 }

def plainSlot (slot : Slot α) : Slot α :=
  { slot with entity := slot.entity.map plainEntity }

def content (state : Snapshot α) : Snapshot α :=
  { state with worldRevision := 0, slots := state.slots.map plainSlot }

abbrev Placed (α : Type) := Nat × Slot α × Entity α

def plainPlaced (found : Placed α) : Placed α :=
  (found.1, plainSlot found.2.1, plainEntity found.2.2)

@[simp]
theorem content_length (state : Snapshot α) :
    (content state).slots.length = state.slots.length := by
  simp [content]

theorem content_slot (state : Snapshot α) (position : Nat) :
    (content state).slots[position]? = state.slots[position]?.map plainSlot := by
  simp [content]

theorem content_content (state : Snapshot α) : content (content state) = content state := by
  have once (slot : Slot α) : plainSlot (plainSlot slot) = plainSlot slot := by
    unfold plainSlot
    cases slot.entity with
    | none => rfl
    | some entity => rfl
  simp [content, once]

theorem childOf_plain (child parent : Slot α) :
    childOf (plainSlot child) (plainSlot parent) = childOf child parent := by
  cases holds : child.entity with
  | none => simp [childOf, plainSlot, holds]
  | some entity => simp [childOf, plainSlot, plainEntity, holds]

theorem locate_plain (slots : List (Slot α)) {plainTest test : Slot α → Bool}
    (blind : ∀ slot, plainTest (plainSlot slot) = test slot) :
    locate (slots.map plainSlot) plainTest =
      (locate slots test).map fun found => (found.1, plainSlot found.2) := by
  have same : plainTest ∘ plainSlot = test := funext blind
  unfold locate
  rw [List.findIdx?_map, same]
  cases slots.findIdx? test with
  | none => rfl
  | some position =>
      simp only [List.getElem?_map, Option.map_map]
      rfl

theorem liveAt_content (state : Snapshot α) (position : Nat) :
    liveAt (content state) position =
      (liveAt state position).map fun found =>
        (plainSlot found.1, plainEntity found.2) := by
  unfold liveAt
  rw [content_slot]
  cases state.slots[position]? with
  | none => rfl
  | some slot =>
      cases holds : slot.entity with
      | none => simp [plainSlot, holds]
      | some entity => simp [plainSlot, holds]

theorem setEntity_content (state : Snapshot α) (position : Nat) (entity : Entity α) :
    content (setEntity state position entity) =
      setEntity (content state) position (plainEntity entity) := by
  have slots :
      (state.slots.modify position fun slot => { slot with entity := some entity }).map
          plainSlot =
        (state.slots.map plainSlot).modify position fun slot =>
          { slot with entity := some (plainEntity entity) } := by
    apply List.ext_getElem?
    intro place
    simp only [List.getElem?_map, List.getElem?_modify]
    by_cases here : position = place
    · subst here
      cases state.slots[position]? with
      | none => rfl
      | some slot => simp [plainSlot]
    · cases state.slots[place]? with
      | none => rfl
      | some slot => simp [here]
  simp only [content, setEntity, slots]

theorem setSlot_content (state : Snapshot α) (position : Nat) (slot : Slot α) :
    content (setSlot state position slot) =
      setSlot (content state) position (plainSlot slot) := by
  simp [content, setSlot, List.map_set]

theorem hasChildren_content (state : Snapshot α) (parent : Slot α) :
    hasChildren (content state) (plainSlot parent) = hasChildren state parent := by
  unfold hasChildren content
  rw [List.any_map]
  congr 1
  funext child
  exact childOf_plain child parent

theorem resolveIdentity_content (staged : Snapshot α) (identity : EntityTarget)
    (temporary : Bool) (path : Text) (index : Nat) :
    resolveIdentity (content staged) identity temporary path index =
      (resolveIdentity staged identity temporary path index).map plainPlaced := by
  have located :
      locate (staged.slots.map plainSlot)
          (fun slot => slot.entityUuid == identity.entityUuid) =
        (locate staged.slots fun slot => slot.entityUuid == identity.entityUuid).map
          fun found => (found.1, plainSlot found.2) :=
    locate_plain staged.slots fun _ => rfl
  unfold resolveIdentity
  have sameWorld : (content staged).worldId = staged.worldId := rfl
  have sameSlots : (content staged).slots = staged.slots.map plainSlot := rfl
  rw [sameWorld, sameSlots, located]
  cases identity.worldId != staged.worldId with
  | true => rfl
  | false =>
      cases locate staged.slots fun slot => slot.entityUuid == identity.entityUuid with
      | none => rfl
      | some found =>
          obtain ⟨position, slot⟩ := found
          cases holds : slot.entity with
          | none =>
              simp [plainSlot, holds, rejectIf, bind, Except.bind, Except.map]
          | some entity =>
              cases stale : slot.retired || slot.generation != identity.generation <;>
                simp [plainSlot, plainPlaced, holds, stale, rejectIf, bind, Except.bind,
                  Except.map, pure, Except.pure]

theorem resolve_content (staged : Snapshot α) (target : Target) (names : Names)
    (path : Text) (index : Nat) :
    resolve (content staged) target names path index =
      (resolve staged target names path index).map plainPlaced := by
  unfold resolve
  cases identify target names path index with
  | error error => rfl
  | ok found => exact resolveIdentity_content staged found.1 found.2 path index

theorem resolveParent_content (staged : Snapshot α) (operation : EntityReparent)
    (names : Names) (index : Nat) :
    resolveParent (content staged) operation names index =
      (resolveParent staged operation names index).map (Option.map plainPlaced) := by
  unfold resolveParent
  cases operation.parent with
  | none => rfl
  | some target =>
      simp only [resolve_content]
      cases
        resolve staged target names (operationPath index ++ ascii "/parent") index with
      | error error => rfl
      | ok found => rfl

theorem parentOf_content (state : Snapshot α) (child : Slot α) :
    parentOf (content state) (plainSlot child) =
      (parentOf state child).map (Option.map plainPlaced) := by
  have located :
      locate (state.slots.map plainSlot)
          (fun parent =>
            parent.entity.isSome && !parent.retired &&
              childOf (plainSlot child) parent) =
        (locate state.slots fun parent =>
            parent.entity.isSome && !parent.retired && childOf child parent).map
          fun found => (found.1, plainSlot found.2) := by
    refine locate_plain state.slots fun parent => ?_
    have live : (plainSlot parent).entity.isSome = parent.entity.isSome := by
      simp [plainSlot]
    rw [live, childOf_plain]
    rfl
  have sameLink :
      (plainSlot child).entity.bind Entity.parent = child.entity.bind Entity.parent := by
    cases holds : child.entity with
    | none => simp [plainSlot, holds]
    | some entity => simp [plainSlot, plainEntity, holds]
  have sameSlots : (content state).slots = state.slots.map plainSlot := rfl
  unfold parentOf
  rw [sameLink, sameSlots, located]
  cases child.entity.bind Entity.parent with
  | none => rfl
  | some link =>
      cases
        locate state.slots fun parent =>
          parent.entity.isSome && !parent.retired && childOf child parent with
      | none => rfl
      | some found =>
          obtain ⟨position, slot⟩ := found
          cases holds : slot.entity with
          | none => simp [plainSlot, holds, Except.map]
          | some entity => simp [plainSlot, plainPlaced, holds, Except.map]

section Walks

variable [Scalar α]

theorem subtreeChildren_content
    {parent : Nat} {path : Text} {index : Nat} {positions : List Nat} :
    ∀ {state : Snapshot α} {queue : List Nat},
      subtreeChildren parent path index positions (content state) queue =
        (subtreeChildren parent path index positions state queue).map
          fun found => (content found.1, found.2) := by
  induction positions with
  | nil =>
      intro state queue
      rfl
  | cons position rest inductionHypothesis =>
      intro state queue
      unfold subtreeChildren
      rw [liveAt_content, liveAt_content]
      cases liveAt state parent with
      | none => exact inductionHypothesis
      | some parentFound =>
          obtain ⟨parentSlot, parentEntity⟩ := parentFound
          cases liveAt state position with
          | none => exact inductionHypothesis
          | some childFound =>
              obtain ⟨childSlot, childEntity⟩ := childFound
              simp only [Option.map_some, childOf_plain, content_length]
              split
              · cases decide (state.slots.length ≤ queue.length) with
                | true => rfl
                | false =>
                    have sameParent :
                        (plainEntity parentEntity).transform =
                          parentEntity.transform := rfl
                    have sameChild :
                        (plainEntity childEntity).localTransform =
                          childEntity.localTransform := rfl
                    rw [sameParent, sameChild]
                    cases
                      compose parentEntity.transform childEntity.localTransform path
                        index with
                    | error error => rfl
                    | ok world =>
                        have written :=
                          setEntity_content state position
                            { childEntity with transform := world }
                        simp only [rejectIf_false, bind, Except.bind]
                        rw [← inductionHypothesis, written]
                        rfl
              · exact inductionHypothesis

theorem subtreeLoop_content
    {revision : UInt64} {path : Text} {index fuel : Nat} :
    ∀ {cursor : Nat} {state : Snapshot α} {queue : List Nat},
      subtreeLoop 0 path index fuel cursor (content state) queue =
        (subtreeLoop revision path index fuel cursor state queue).map content := by
  induction fuel with
  | zero =>
      intro cursor state queue
      rfl
  | succ fuel inductionHypothesis =>
      intro cursor state queue
      unfold subtreeLoop
      cases queue[cursor]? with
      | none => rfl
      | some position =>
          simp only [liveAt_content]
          cases liveAt state position with
          | none => rfl
          | some found =>
              obtain ⟨slot, entity⟩ := found
              have stamped :
                  setEntity (content state) position
                      { plainEntity entity with authoringRevision := 0 } =
                    content
                      (setEntity state position
                        { entity with authoringRevision := revision }) :=
                (setEntity_content state position
                  { entity with authoringRevision := revision }).symm
              simp only [Option.map_some, stamped, content_length,
                subtreeChildren_content]
              cases
                subtreeChildren position path index
                  (List.range
                    (setEntity state position
                      { entity with authoringRevision := revision }).slots.length)
                  (setEntity state position
                    { entity with authoringRevision := revision }) queue with
              | error error => rfl
              | ok pair => exact inductionHypothesis

theorem subtree_content (state : Snapshot α) (root : Nat) (revision : UInt64)
    (path : Text) (index : Nat) :
    subtree (content state) root 0 path index =
      (subtree state root revision path index).map content := by
  unfold subtree
  rw [content_length]
  exact subtreeLoop_content

omit [Scalar α] in
theorem rejectCycle_content
    {state : Snapshot α} {slot : Nat} {path : Text} {index remaining : Nat} :
    ∀ {parent : Option (Placed α)},
      rejectCycle (content state) slot path index remaining
          (parent.map plainPlaced) =
        rejectCycle state slot path index remaining parent := by
  induction remaining with
  | zero =>
      intro parent
      cases parent with
      | none => rfl
      | some found => rfl
  | succ remaining inductionHypothesis =>
      intro parent
      cases parent with
      | none => rfl
      | some found =>
          obtain ⟨ancestor, ancestorSlot, ancestorEntity⟩ := found
          simp only [Option.map_some, plainPlaced, rejectCycle, parentOf_content]
          split
          · rfl
          · cases parentOf state ancestorSlot with
            | error error => rfl
            | ok next => exact inductionHypothesis

theorem reparent_content (state : Snapshot α) (slot : Nat) (entity : Entity α)
    (parent : Option (Placed α)) (mode path : Text) (index : Nat) :
    reparent (content state) slot (plainEntity entity) (parent.map plainPlaced) mode path
        index =
      (reparent state slot entity parent mode path index).map content := by
  unfold reparent
  rw [content_length, rejectCycle_content]
  cases rejectCycle state slot path index state.slots.length parent with
  | error error => rfl
  | ok _ =>
      cases parent with
      | none =>
          simp only [Option.map_none, bind, Except.bind, pure, Except.pure, Except.map,
            setEntity_content]
          rfl
      | some found =>
          obtain ⟨place, parentSlot, parentEntity⟩ := found
          have sameFormer :
              (if (plainEntity entity).parent.isSome then
                  (plainEntity entity).localTransform
                else (plainEntity entity).transform) =
                if entity.parent.isSome then entity.localTransform
                else entity.transform := rfl
          have sameWorld : (plainEntity entity).transform = entity.transform := rfl
          have sameParent :
              (plainEntity parentEntity).transform = parentEntity.transform := rfl
          simp only [Option.map_some, plainPlaced, bind, Except.bind]
          rw [sameFormer, sameWorld, sameParent]
          cases parentScale parentEntity.transform (path ++ ascii "/parent") index with
          | error error => rfl
          | ok _ =>
              simp only
              split
              · cases relative parentEntity.transform entity.transform path index with
                | error error => rfl
                | ok localTransform =>
                    simp only [pure, Except.pure, Except.map, setEntity_content]
                    rfl
              · generalize
                  compose parentEntity.transform
                    (if entity.parent.isSome then entity.localTransform
                      else entity.transform) path index = composed
                cases composed with
                | error error => rfl
                | ok world =>
                    simp only [pure, Except.pure, Except.map, setEntity_content]
                    rfl

theorem replacedLocal_content (staged : Snapshot α) (slot : Slot α) (entity : Entity α)
    (replacement : Transform α) (path : Text) (index : Nat) :
    replacedLocal (content staged) (plainSlot slot) (plainEntity entity) replacement path
        index =
      replacedLocal staged slot entity replacement path index := by
  unfold replacedLocal
  rw [parentOf_content]
  cases parentOf staged slot with
  | error error => rfl
  | ok parent =>
      cases parent with
      | none => rfl
      | some found => rfl

omit [Scalar α] in
theorem allocate_content (staged : Snapshot α) (path : Text) (index : Nat) :
    allocate (content staged) path index =
      (allocate staged path index).map fun found =>
        (found.1, plainSlot found.2.1, content found.2.2) := by
  have located :
      locate (staged.slots.map plainSlot)
          (fun entry => entry.entity.isNone && !entry.retired) =
        (locate staged.slots fun entry => entry.entity.isNone && !entry.retired).map
          fun found => (found.1, plainSlot found.2) := by
    refine locate_plain staged.slots fun entry => ?_
    simp [plainSlot]
  have sameSlots : (content staged).slots = staged.slots.map plainSlot := rfl
  have sameBudget : (content staged).maxSlots = staged.maxSlots := rfl
  unfold allocate
  rw [content_length, sameBudget, sameSlots, located]
  cases locate staged.slots fun entry => entry.entity.isNone && !entry.retired with
  | some found => rfl
  | none =>
      simp only [Option.map_none]
      cases decide (staged.maxSlots.toNat ≤ staged.slots.length) with
      | true => rfl
      | false =>
          simp only [rejectIf_false, bind, Except.bind, pure, Except.pure, Except.map,
            content, List.map_append, List.map_cons, List.map_nil]
          rfl

omit [Scalar α] in
theorem emptied_plain (slot : Slot α) :
    plainSlot (emptied slot) = emptied (plainSlot slot) := by
  by_cases last : slot.generation = maximum64
  · have plainLast : (plainSlot slot).generation = maximum64 := last
    rw [emptied, if_pos last, emptied, if_pos plainLast]
    rfl
  · have plainLater : ¬ (plainSlot slot).generation = maximum64 := last
    rw [emptied, if_neg last, emptied, if_neg plainLater]
    rfl

def Staging.content (staging : Staging α) : Staging α :=
  { staging with staged := Transactions.content staging.staged }

/-- An operation does to the content what it does to the copy. -/
theorem applyOperation_content
    {revision : UInt64} {operation : Operation α} {index : Nat}
    {staging next : Staging α}
    (applied :
      applyOperation (plainContext revision) operation index staging () =
        .ok next ()) :
    applyOperation (plainContext 0) operation index staging.content () =
      .ok next.content () := by
  have resolves {target : Target} {names : Names} {path : Text} {found : Placed α}
      (resolved : resolve staging.staged target names path index = .ok found) :
      resolve (content staging.staged) target names path index =
        .ok (plainPlaced found) := by
    rw [resolve_content, resolved]
    rfl
  cases operation with
  | entityCreate operation =>
      obtain ⟨position, slot, base, unused, prefabOk, allocated, _, matched, same⟩ :=
        applyCreate_eq_ok.mp applied
      refine applyCreate_eq_ok.mpr
        ⟨position, plainSlot slot, content base, unused, prefabOk, ?_, rfl, rfl, ?_⟩
      · change allocate (content staging.staged) _ _ = _
        rw [allocate_content, allocated]
        rfl
      · subst same
        simp only [Staging.content, afterCreate, setSlot_content]
        rfl
  | transformSet operation =>
      obtain ⟨replacement, position, slot, entity, localTransform, staged, replaced,
        resolved, _, scaled, localOk, spread, same⟩ := applyTransform_eq_ok.mp applied
      refine applyTransform_eq_ok.mpr
        ⟨replacement, position, plainSlot slot, plainEntity entity, localTransform,
          content staged, replaced, resolves resolved, rfl, ?_, ?_, ?_, ?_⟩
      · change hasChildren (content staging.staged) _ = true → _
        rw [hasChildren_content]
        exact scaled
      · exact (replacedLocal_content _ _ _ _ _ _).trans localOk
      · have written :=
          setEntity_content staging.staged position
            { entity with transform := replacement, localTransform := localTransform }
        change subtree (setEntity (content staging.staged) position _) _ _ _ _ = _
        refine (congrArg (fun base => subtree base position 0 _ index) written).symm.trans
          ?_
        rw [subtree_content, spread]
        rfl
      · subst same
        rfl
  | entityDelete operation =>
      obtain ⟨position, slot, entity, resolved, childless, _, same⟩ :=
        applyDelete_eq_ok.mp applied
      refine applyDelete_eq_ok.mpr
        ⟨position, plainSlot slot, plainEntity entity, resolves resolved, ?_, rfl, ?_⟩
      · exact (hasChildren_content _ _).trans childless
      · subst same
        simp only [Staging.content, setSlot_content, emptied_plain]
  | entityReparent operation =>
      obtain ⟨position, slot, entity, parent, moved, staged, resolved, parented,
        movedOk, spread, _, same⟩ := applyReparent_eq_ok.mp applied
      refine applyReparent_eq_ok.mpr
        ⟨position, plainSlot slot, plainEntity entity, parent.map plainPlaced,
          content moved, content staged, resolves resolved, ?_, ?_, ?_, rfl, ?_⟩
      · change resolveParent (content staging.staged) _ _ _ = _
        rw [resolveParent_content]
        exact congrArg (Except.map (Option.map plainPlaced)) parented
      · change reparent (content staging.staged) _ _ _ _ _ _ = _
        rw [reparent_content, movedOk]
        rfl
      · change subtree (content moved) position 0 _ _ = _
        rw [subtree_content, spread]
        rfl
      · subst same
        rfl
  | entityTagsSet operation =>
      obtain ⟨position, slot, entity, resolved, _, same⟩ :=
        applyTagsSet_eq_ok.mp applied
      refine applyTagsSet_eq_ok.mpr
        ⟨position, plainSlot slot, plainEntity entity, resolves resolved, rfl, ?_⟩
      subst same
      simp only [Staging.content, setEntity_content]
      rfl

theorem applyOperations_content
    {revision : UInt64} {operations : List (Operation α)} :
    ∀ {index : Nat} {staging last : Staging α},
      applyOperations (plainContext revision) operations index staging () =
        .ok last () →
      applyOperations (plainContext 0) operations index staging.content () =
        .ok last.content () := by
  induction operations with
  | nil =>
      intro index staging last applied
      obtain ⟨same, _⟩ := applyOperations_nil_eq_ok.mp applied
      exact applyOperations_nil_eq_ok.mpr ⟨by rw [same], rfl⟩
  | cons operation rest inductionHypothesis =>
      intro index staging last applied
      obtain ⟨next, _, first, others⟩ := applyOperations_cons_eq_ok.mp applied
      exact applyOperations_cons_eq_ok.mpr
        ⟨next.content, (), applyOperation_content first, inductionHypothesis others⟩

/-- What a batch makes of a content, if it applies. -/
def applyBatch (operations : List (Operation α)) (state : Snapshot α) :
    Option (Snapshot α) :=
  match applyOperations (plainContext 0) operations 0 ⟨state, [], []⟩ () with
  | .ok last _ => some (formatted last.staged)
  | .error _ _ => none

theorem applyBatch_eq_some {operations : List (Operation α)} {state next : Snapshot α} :
    applyBatch operations state = some next ↔
      ∃ last,
        applyOperations (plainContext 0) operations 0 ⟨state, [], []⟩ () =
            .ok last () ∧
          next = formatted last.staged := by
  unfold applyBatch
  cases applied : applyOperations (plainContext 0) operations 0 ⟨state, [], []⟩ () with
  | error error final => simp
  | ok last final =>
      simp only [Option.some.injEq, EStateM.Result.ok.injEq]
      constructor
      · intro same
        exact ⟨last, ⟨rfl, trivial⟩, same.symm⟩
      · rintro ⟨other, ⟨same, _⟩, result⟩
        rw [result, same]

omit [Scalar α] in
theorem stagedFormat_content (slots : List (Slot α)) :
    stagedFormat (slots.map plainSlot) = stagedFormat slots := by
  have parents : slotHasParent ∘ plainSlot = (slotHasParent : Slot α → Bool) := by
    funext slot
    cases holds : slot.entity with
    | none => simp [slotHasParent, plainSlot, holds]
    | some entity => simp [slotHasParent, plainSlot, plainEntity, holds]
  have tags : slotHasTags ∘ plainSlot = (slotHasTags : Slot α → Bool) := by
    funext slot
    cases holds : slot.entity with
    | none => simp [slotHasTags, plainSlot, holds]
    | some entity => simp [slotHasTags, plainSlot, plainEntity, holds]
  unfold stagedFormat
  rw [List.any_map, List.any_map, parents, tags]

/-- A commit is its batch on contents. -/
theorem Commits.content
    {library : JsonLibrary α} {state next : Snapshot α} {envelope : Envelope α}
    {created : List CreatedBinding}
    (committed : Commits library state envelope next created) :
    applyBatch envelope.operations (content state) = some (content next) := by
  obtain ⟨_, staged, stagedOk, same⟩ := committed
  obtain ⟨last, _, run, _, _, sameStaged, _⟩ := stage_eq_ok.mp stagedOk
  refine applyBatch_eq_some.mpr ⟨last.content, applyOperations_content run, ?_⟩
  subst same sameStaged
  have sameFormat := stagedFormat_content last.staged.slots
  change _ = { Transactions.content last.staged with
    formatVersion := stagedFormat (last.staged.slots.map plainSlot) }
  rw [sameFormat]
  rfl

end Walks

end Omniweft.Transactions
