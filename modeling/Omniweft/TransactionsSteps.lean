import Omniweft.Transactions

/-!
# What a step of a transaction does

One inversion rule for each function of the coordinator. Later modules read
every invariant off these rules and never unfold the functions again. A hook
can only refuse: `applyOperation_plain` and `stage_plain` say that a step it
let pass is the step taken without it.
-/

namespace Omniweft.Transactions

open Outcome World Commands

section Slots

variable {α : Type}

/-! ## Slots by position -/

theorem locate_eq_some
    {slots : List (Slot α)} {test : Slot α → Bool} {position : Nat} {slot : Slot α} :
    locate slots test = some (position, slot) ↔
      slots[position]? = some slot ∧ test slot = true ∧
        ∀ earlier other,
          earlier < position → slots[earlier]? = some other → test other = false := by
  unfold locate
  cases found : slots.findIdx? test with
  | none =>
      rw [List.findIdx?_eq_none_iff] at found
      simp only [reduceCtorEq, false_iff]
      rintro ⟨present, passes, _⟩
      have fails := found slot (List.mem_of_getElem? present)
      rw [passes] at fails
      exact absurd fails (by decide)
  | some first =>
      rw [List.findIdx?_eq_some_iff_getElem] at found
      obtain ⟨inside, passes, before⟩ := found
      have firstSlot : slots[first]? = some slots[first] :=
        List.getElem?_eq_getElem inside
      simp only [firstSlot, Option.map_some, Option.some.injEq, Prod.mk.injEq]
      constructor
      · rintro ⟨samePosition, sameSlot⟩
        subst samePosition
        refine ⟨firstSlot.trans (congrArg some sameSlot), sameSlot ▸ passes, ?_⟩
        intro earlier other before' present
        have small : earlier < slots.length := before'.trans inside
        rw [List.getElem?_eq_getElem small, Option.some.injEq] at present
        have fails := before earlier before'
        rw [present] at fails
        simpa using fails
      · rintro ⟨present, passes', fresh⟩
        have same : first = position := by
          rcases Nat.lt_trichotomy first position with less | equal | greater
          · have fails := fresh first slots[first] less firstSlot
            rw [passes] at fails
            exact absurd fails (by decide)
          · exact equal
          · have fails := before position greater
            have small : position < slots.length := greater.trans inside
            rw [List.getElem?_eq_getElem small, Option.some.injEq] at present
            rw [present] at fails
            exact absurd passes' fails
        subst same
        rw [firstSlot, Option.some.injEq] at present
        exact ⟨rfl, present⟩

theorem liveAt_eq_some
    {state : Snapshot α} {position : Nat} {slot : Slot α} {entity : Entity α} :
    liveAt state position = some (slot, entity) ↔
      state.slots[position]? = some slot ∧ slot.entity = some entity := by
  unfold liveAt
  cases state.slots[position]? with
  | none => simp
  | some found =>
      simp only [Option.map_eq_some_iff, Prod.mk.injEq, Option.some.injEq]
      constructor
      · rintro ⟨other, holds, sameSlot, sameEntity⟩
        exact ⟨sameSlot, sameSlot ▸ sameEntity ▸ holds⟩
      · rintro ⟨sameSlot, holds⟩
        exact ⟨entity, sameSlot ▸ holds, sameSlot, rfl⟩

@[simp]
theorem setEntity_length (state : Snapshot α) (position : Nat) (entity : Entity α) :
    (setEntity state position entity).slots.length = state.slots.length := by
  simp [setEntity]

theorem setEntity_same
    {state : Snapshot α} {position : Nat} {slot : Slot α} (entity : Entity α)
    (present : state.slots[position]? = some slot) :
    (setEntity state position entity).slots[position]? =
      some { slot with entity := some entity } := by
  simp [setEntity, present]

theorem setEntity_other
    (state : Snapshot α) {position other : Nat} (entity : Entity α)
    (different : position ≠ other) :
    (setEntity state position entity).slots[other]? = state.slots[other]? := by
  simp [setEntity, different]

/-- A view of the slots that does not see the change stays the same. -/
theorem setEntity_map {β : Type}
    {state : Snapshot α} {position : Nat} {slot : Slot α} {entity : Entity α}
    (view : Slot α → β) (present : state.slots[position]? = some slot)
    (blind : view { slot with entity := some entity } = view slot) :
    (setEntity state position entity).slots.map view = state.slots.map view := by
  apply List.ext_getElem?
  intro place
  by_cases here : position = place
  · subst here
    simp [setEntity_same entity present, present, blind]
  · simp [setEntity_other state entity here]

@[simp]
theorem setSlot_length (state : Snapshot α) (position : Nat) (slot : Slot α) :
    (setSlot state position slot).slots.length = state.slots.length := by
  simp [setSlot]

theorem setSlot_same
    (state : Snapshot α) {position : Nat} (slot : Slot α)
    (inside : position < state.slots.length) :
    (setSlot state position slot).slots[position]? = some slot := by
  simp [setSlot, inside]

theorem setSlot_other
    (state : Snapshot α) {position other : Nat} (slot : Slot α)
    (different : position ≠ other) :
    (setSlot state position slot).slots[other]? = state.slots[other]? := by
  simp [setSlot, different]

/-! ## Targets -/

/-- The identity a target stands for in one batch. -/
def namedBy (target : Target) (names : Names) : Option EntityTarget :=
  match target with
  | .temporary reference => names.lookup reference.temporaryId
  | .entity identity => some identity

theorem identify_eq_ok
    {target : Target} {names : Names} {path : Text} {index : Nat}
    {identity : EntityTarget} :
    (∃ temporary, identify target names path index = .ok (identity, temporary)) ↔
      namedBy target names = some identity := by
  cases target with
  | entity reference => simp [identify, namedBy]
  | temporary reference =>
      cases looked : names.lookup reference.temporaryId with
      | none => simp [identify, namedBy, looked]
      | some found => simp [identify, namedBy, looked]

theorem resolveIdentity_eq_ok
    {staged : Snapshot α} {identity : EntityTarget} {temporary : Bool} {path : Text}
    {index position : Nat} {slot : Slot α} {entity : Entity α} :
    resolveIdentity staged identity temporary path index =
        .ok (position, slot, entity) ↔
      identity.worldId = staged.worldId ∧
        locate staged.slots (fun slot => slot.entityUuid == identity.entityUuid) =
          some (position, slot) ∧
        slot.entity = some entity ∧ slot.retired = false ∧
        slot.generation = identity.generation := by
  unfold resolveIdentity
  rw [bind_eq_ok]
  simp only [rejectIf_eq_ok, exists_and_left, bne_eq_false_iff_eq, exists_const]
  refine and_congr_right fun sameWorld => ?_
  cases found :
      locate staged.slots fun slot => slot.entityUuid == identity.entityUuid with
  | none => simp
  | some place =>
      obtain ⟨place, slot'⟩ := place
      cases holds : slot'.entity with
      | none =>
          simp only [holds, reduceCtorEq, Option.some.injEq, Prod.mk.injEq, false_iff]
          rintro ⟨⟨_, sameSlot⟩, live, _⟩
          rw [← sameSlot, holds] at live
          exact absurd live (by simp)
      | some entity' =>
          simp only [holds, bind_eq_ok, rejectIf_eq_ok, pure_eq_ok, exists_and_left,
            Bool.or_eq_false_iff, bne_eq_false_iff_eq, Prod.mk.injEq,
            Option.some.injEq, exists_const]
          constructor
          · rintro ⟨⟨awake, current⟩, samePosition, sameSlot, sameEntity⟩
            subst sameSlot
            exact ⟨⟨samePosition, rfl⟩, sameEntity ▸ holds, awake, current⟩
          · rintro ⟨⟨samePosition, sameSlot⟩, live, awake, current⟩
            subst sameSlot
            rw [holds, Option.some.injEq] at live
            exact ⟨⟨awake, current⟩, samePosition, rfl, live⟩

/-- What `resolve` accepts: the first slot with the uuid holds an entity, is
not retired and has the generation of the identity. -/
theorem resolve_eq_ok
    {staged : Snapshot α} {target : Target} {names : Names} {path : Text}
    {index position : Nat} {slot : Slot α} {entity : Entity α} :
    resolve staged target names path index = .ok (position, slot, entity) ↔
      ∃ identity,
        namedBy target names = some identity ∧ identity.worldId = staged.worldId ∧
          locate staged.slots (fun slot => slot.entityUuid == identity.entityUuid) =
            some (position, slot) ∧
          slot.entity = some entity ∧ slot.retired = false ∧
          slot.generation = identity.generation := by
  unfold resolve
  rw [bind_eq_ok]
  constructor
  · rintro ⟨⟨identity, temporary⟩, identified, found⟩
    exact ⟨identity, identify_eq_ok.mp ⟨temporary, identified⟩,
      resolveIdentity_eq_ok.mp found⟩
  · rintro ⟨identity, named, found⟩
    obtain ⟨temporary, identified⟩ := (@identify_eq_ok _ _ path index _).mpr named
    exact ⟨(identity, temporary), identified, resolveIdentity_eq_ok.mpr found⟩

theorem resolve_live
    {staged : Snapshot α} {target : Target} {names : Names} {path : Text}
    {index position : Nat} {slot : Slot α} {entity : Entity α}
    (resolved :
      resolve staged target names path index = .ok (position, slot, entity)) :
    staged.slots[position]? = some slot ∧ slot.entity = some entity ∧
      slot.retired = false := by
  obtain ⟨identity, _, _, found, live, awake, _⟩ := resolve_eq_ok.mp resolved
  exact ⟨(locate_eq_some.mp found).1, live, awake⟩

/-- What `allocate` hands out: a free slot of the world, or a new one. -/
theorem allocate_eq_ok
    {staged base : Snapshot α} {path : Text} {index position : Nat} {slot : Slot α} :
    allocate staged path index = .ok (position, slot, base) ↔
      (locate staged.slots (fun entry => entry.entity.isNone && !entry.retired) =
          some (position, slot) ∧ base = staged) ∨
        (locate staged.slots (fun entry => entry.entity.isNone && !entry.retired) =
            none ∧
          staged.slots.length < staged.maxSlots.toNat ∧
          position = staged.slots.length ∧
          slot = ⟨uuid staged.seed staged.slots.length, 1, false, none⟩ ∧
          base = { staged with slots := staged.slots ++ [slot] }) := by
  unfold allocate
  cases found :
      locate staged.slots fun entry => entry.entity.isNone && !entry.retired with
  | some place =>
      obtain ⟨at', slot'⟩ := place
      simp only [Except.ok.injEq, Prod.mk.injEq, Option.some.injEq, reduceCtorEq,
        false_and, or_false]
      constructor
      · rintro ⟨samePosition, sameSlot, sameBase⟩
        exact ⟨⟨samePosition, sameSlot⟩, sameBase.symm⟩
      · rintro ⟨⟨samePosition, sameSlot⟩, sameBase⟩
        exact ⟨samePosition, sameSlot, sameBase.symm⟩
  | none =>
      simp only [bind_eq_ok, rejectIf_eq_ok, decide_eq_false_iff_not, Nat.not_le,
        pure_eq_ok, Prod.mk.injEq, exists_and_left, exists_const, reduceCtorEq,
        false_and, false_or, true_and]
      refine and_congr_right fun _ => ?_
      constructor
      · rintro ⟨samePosition, sameSlot, sameBase⟩
        subst sameSlot
        exact ⟨samePosition.symm, rfl, sameBase.symm⟩
      · rintro ⟨samePosition, sameSlot, sameBase⟩
        subst sameSlot
        exact ⟨samePosition.symm, rfl, sameBase.symm⟩

/-- The slot a create takes was empty, and filling it changes no other. -/
theorem allocate_place
    {staged base : Snapshot α} {path : Text} {index position : Nat} {slot : Slot α}
    (allocated : allocate staged path index = .ok (position, slot, base))
    (filled : Slot α) :
    liveAt staged position = none ∧
      (setSlot base position filled).slots[position]? = some filled ∧
      (∀ other : Nat, other ≠ position →
        (setSlot base position filled).slots[other]? = staged.slots[other]?) ∧
      (setSlot base position filled).slots.length =
        max staged.slots.length (position + 1) := by
  rcases allocate_eq_ok.mp allocated with
    ⟨found, sameBase⟩ | ⟨_, _, samePosition, _, sameBase⟩
  · subst sameBase
    obtain ⟨present, free, _⟩ := locate_eq_some.mp found
    simp only [Bool.and_eq_true, Option.isNone_iff_eq_none] at free
    have inside := (List.getElem?_eq_some_iff.mp present).1
    refine ⟨?_, setSlot_same _ _ inside, ?_, ?_⟩
    · simp [liveAt, present, free.1]
    · intro other different
      exact setSlot_other _ _ (Ne.symm different)
    · rw [setSlot_length]
      omega
  · subst sameBase samePosition
    refine ⟨?_, setSlot_same _ _ (by simp), ?_, by simp⟩
    · simp [liveAt]
    · intro other different
      refine (setSlot_other _ _ (Ne.symm different)).trans ?_
      rcases Nat.lt_or_gt_of_ne different with before | beyond
      · exact List.getElem?_append_left before
      · rw [List.getElem?_eq_none (by simp; omega),
          List.getElem?_eq_none (Nat.le_of_lt beyond)]

end Slots

section Steps

variable {α : Type} [Scalar α]

theorem transform_eq_ok
    {operation : TransformSet α} {path : Text} {index : Nat}
    {replacement : Transform α} :
    transform operation path index = .ok replacement ↔
      Scalar.isFinite (squaredNorm operation.rotationXyzw) = true ∧
        Scalar.lt Scalar.tolerance
            (Scalar.abs
              (squaredNorm operation.rotationXyzw - Scalar.ofInt 1)) = false ∧
        (operation.scale.toList.any fun value =>
            Scalar.eq value (Scalar.ofInt 0)) = false ∧
        replacement =
          normalizeTransform
            ⟨operation.positionM, operation.rotationXyzw, operation.scale⟩ := by
  unfold transform
  simp only [bind_eq_ok, rejectIf_eq_ok, pure_eq_ok, exists_and_left, exists_const,
    Bool.or_eq_false_iff, Bool.not_eq_false', and_assoc]
  constructor
  · rintro ⟨finite, near, nonzero, same⟩
    exact ⟨finite, near, nonzero, same.symm⟩
  · rintro ⟨finite, near, nonzero, same⟩
    exact ⟨finite, near, nonzero, same.symm⟩

/-! ## The subtree walk -/

theorem subtreeChildren_invariant {Invariant : Snapshot α → Prop}
    (closed :
      ∀ state position slot entity world,
        Invariant state → liveAt state position = some (slot, entity) →
        Invariant (setEntity state position { entity with transform := world }))
    {parent : Nat} {path : Text} {index : Nat} {positions : List Nat} :
    ∀ {state next : Snapshot α} {queue rest : List Nat},
      Invariant state →
      subtreeChildren parent path index positions state queue = .ok (next, rest) →
      Invariant next := by
  induction positions with
  | nil =>
      intro state next queue rest holds walked
      simp only [subtreeChildren, Except.ok.injEq, Prod.mk.injEq] at walked
      exact walked.1 ▸ holds
  | cons position positions inductionHypothesis =>
      intro state next queue rest holds walked
      unfold subtreeChildren at walked
      split at walked
      · rename_i parentSlot parentEntity childSlot childEntity _ child
        split at walked
        · simp only [bind_eq_ok, rejectIf_eq_ok] at walked
          obtain ⟨_, _, world, _, continued⟩ := walked
          exact inductionHypothesis (closed _ _ _ _ _ holds child) continued
        · exact inductionHypothesis holds walked
      · exact inductionHypothesis holds walked

/-- The walk writes transforms and revisions of live entities, nothing else. -/
theorem subtree_invariant {Invariant : Snapshot α → Prop}
    (moved :
      ∀ state position slot entity world,
        Invariant state → liveAt state position = some (slot, entity) →
        Invariant (setEntity state position { entity with transform := world }))
    (stamped :
      ∀ state position slot entity revision,
        Invariant state → liveAt state position = some (slot, entity) →
        Invariant
          (setEntity state position { entity with authoringRevision := revision }))
    {state next : Snapshot α} {root index : Nat} {revision : UInt64} {path : Text}
    (holds : Invariant state)
    (walked : subtree state root revision path index = .ok next) :
    Invariant next := by
  have loop :
      ∀ (fuel cursor : Nat) (state next : Snapshot α) (queue : List Nat),
        Invariant state →
        subtreeLoop revision path index fuel cursor state queue = .ok next →
        Invariant next := by
    intro fuel
    induction fuel with
    | zero =>
        intro cursor state next queue holds walked
        simp only [subtreeLoop, Except.ok.injEq] at walked
        exact walked ▸ holds
    | succ fuel inductionHypothesis =>
        intro cursor state next queue holds walked
        unfold subtreeLoop at walked
        split at walked
        · exact Except.ok.inj walked ▸ holds
        · split at walked
          · exact Except.ok.inj walked ▸ holds
          · rename_i slot entity live
            simp only [bind_eq_ok] at walked
            obtain ⟨⟨middle, longer⟩, children, continued⟩ := walked
            have stampedHolds := stamped _ _ _ _ revision holds live
            exact inductionHypothesis _ _ _ _
              (subtreeChildren_invariant moved stampedHolds children) continued
  exact loop _ _ _ _ _ holds walked

/-- A view of the slots that sees neither transforms nor revisions sees
nothing of the walk. -/
theorem subtree_map {β : Type} (view : Slot α → β)
    (blindToMove :
      ∀ (slot : Slot α) (entity : Entity α) world,
        slot.entity = some entity →
        view { slot with entity := some { entity with transform := world } } =
          view slot)
    (blindToStamp :
      ∀ (slot : Slot α) (entity : Entity α) revision,
        slot.entity = some entity →
        view
            { slot with
              entity := some { entity with authoringRevision := revision } } =
          view slot)
    {state next : Snapshot α} {root index : Nat} {revision : UInt64} {path : Text}
    (walked : subtree state root revision path index = .ok next) :
    next.slots.map view = state.slots.map view := by
  have moved :
      ∀ (current : Snapshot α) position slot entity world,
        current.slots.map view = state.slots.map view →
        liveAt current position = some (slot, entity) →
        (setEntity current position { entity with transform := world }).slots.map
            view = state.slots.map view := by
    intro current position slot entity world same live
    obtain ⟨present, holds⟩ := liveAt_eq_some.mp live
    exact (setEntity_map view present (blindToMove slot entity world holds)).trans same
  have stamped :
      ∀ (current : Snapshot α) position slot entity revision,
        current.slots.map view = state.slots.map view →
        liveAt current position = some (slot, entity) →
        (setEntity current position
            { entity with authoringRevision := revision }).slots.map view =
          state.slots.map view := by
    intro current position slot entity revision same live
    obtain ⟨present, holds⟩ := liveAt_eq_some.mp live
    exact
      (setEntity_map view present (blindToStamp slot entity revision holds)).trans same
  exact
    @subtree_invariant α _ (fun current => current.slots.map view = state.slots.map view)
      moved stamped _ _ _ _ _ _ rfl walked

/-- What a snapshot fixes besides its slots. -/
def SameFrame (state next : Snapshot α) : Prop :=
  next.formatVersion = state.formatVersion ∧ next.worldId = state.worldId ∧
    next.seed = state.seed ∧ next.maxSlots = state.maxSlots ∧
    next.worldRevision = state.worldRevision

theorem subtree_frame
    {state next : Snapshot α} {root index : Nat} {revision : UInt64} {path : Text}
    (walked : subtree state root revision path index = .ok next) :
    SameFrame state next :=
  subtree_invariant (fun _ _ _ _ _ same _ => same) (fun _ _ _ _ _ same _ => same)
    ⟨rfl, rfl, rfl, rfl, rfl⟩ walked

/-- Walking below an entity without children only stamps it. -/
theorem subtree_childless
    {state : Snapshot α} {position : Nat} {slot : Slot α} {entity : Entity α}
    (live : liveAt state position = some (slot, entity))
    (childless : hasChildren state slot = false) (revision : UInt64) (path : Text)
    (index : Nat) :
    subtree state position revision path index =
      .ok (setEntity state position { entity with authoringRevision := revision }) := by
  have present := (liveAt_eq_some.mp live).1
  have stampedLive :
      liveAt (setEntity state position { entity with authoringRevision := revision })
          position =
        some ({ slot with entity := some { entity with authoringRevision := revision } },
          { entity with authoringRevision := revision }) :=
    liveAt_eq_some.mpr ⟨setEntity_same _ present, rfl⟩
  have none (place : Nat) (childSlot : Slot α) (childEntity : Entity α)
      (childLive :
        liveAt (setEntity state position { entity with authoringRevision := revision })
            place =
          some (childSlot, childEntity)) :
      childOf childSlot
          { slot with entity := some { entity with authoringRevision := revision } } =
        false := by
    have holds := (liveAt_eq_some.mp live).2
    have isOld : ∃ old, old ∈ state.slots ∧ childOf childSlot slot = childOf old slot := by
      obtain ⟨childPresent, childHolds⟩ := liveAt_eq_some.mp childLive
      by_cases here : position = place
      · subst here
        rw [setEntity_same _ present, Option.some.injEq] at childPresent
        refine ⟨slot, List.mem_of_getElem? present, ?_⟩
        subst childPresent
        simp [childOf, holds]
      · rw [setEntity_other _ _ here] at childPresent
        exact ⟨childSlot, List.mem_of_getElem? childPresent, rfl⟩
    obtain ⟨old, member, same⟩ := isOld
    have stranger := List.any_eq_false.mp childless old member
    rw [Bool.not_eq_true] at stranger
    exact same.trans stranger
  have children :
      ∀ positions : List Nat,
        subtreeChildren position path index positions
            (setEntity state position { entity with authoringRevision := revision })
            [position] =
          .ok
            (setEntity state position { entity with authoringRevision := revision },
              [position]) := by
    intro positions
    induction positions with
    | nil => rfl
    | cons place rest inductionHypothesis =>
        unfold subtreeChildren
        rw [stampedLive]
        split
        · rename_i parentSlot parentEntity childSlot childEntity parentSame childLive
          simp only [Option.some.injEq, Prod.mk.injEq] at parentSame
          rw [← parentSame.1, none place childSlot childEntity childLive]
          exact inductionHypothesis
        · exact inductionHypothesis
  have step :
      subtreeLoop revision path index (state.slots.length + 1) 0 state [position] =
        subtreeLoop revision path index state.slots.length 1
          (setEntity state position { entity with authoringRevision := revision })
          [position] := by
    simp only [subtreeLoop, List.getElem?_cons_zero, live, children, bind, Except.bind]
  rw [subtree, step]
  cases state.slots.length with
  | zero => rfl
  | succ fuel => rfl

omit [Scalar α] in
theorem setEntity_setEntity (state : Snapshot α) (position : Nat)
    (first second : Entity α) :
    setEntity (setEntity state position first) position second =
      setEntity state position second := by
  simp only [setEntity, List.modify_modify_eq]
  rfl

/-! ## Reparenting -/

theorem reparent_none_eq_ok
    {state moved : Snapshot α} {slot : Nat} {entity : Entity α} {mode path : Text}
    {index : Nat} :
    reparent state slot entity none mode path index = .ok moved ↔
      moved =
        setEntity state slot
          { entity with
            transform :=
              if mode == ascii "preserve_local" then
                if entity.parent.isSome then entity.localTransform
                else entity.transform
              else entity.transform
            parent := none
            localTransform := Transform.default } := by
  have free :
      rejectCycle state slot path index state.slots.length none = .ok () := by
    cases state.slots.length <;> rfl
  simp only [reparent, bind_eq_ok, free, exists_const, true_and, pure_eq_ok]
  exact eq_comm

theorem reparent_some_eq_ok
    {state moved : Snapshot α} {slot parent : Nat} {entity parentEntity : Entity α}
    {parentSlot : Slot α} {mode path : Text} {index : Nat} :
    reparent state slot entity (some (parent, parentSlot, parentEntity)) mode path
        index = .ok moved ↔
      rejectCycle state slot path index state.slots.length
          (some (parent, parentSlot, parentEntity)) = .ok () ∧
        uniformScale parentEntity.transform = true ∧
        ((mode = ascii "preserve_world" ∧
            ∃ localTransform,
              relative parentEntity.transform entity.transform path index =
                .ok localTransform ∧
              moved =
                setEntity state slot
                  { entity with
                    localTransform := localTransform
                    parent :=
                      some ⟨parentSlot.entityUuid, parentSlot.generation⟩ }) ∨
          (mode ≠ ascii "preserve_world" ∧
            ∃ world,
              compose parentEntity.transform
                  (if entity.parent.isSome then entity.localTransform
                    else entity.transform) path index = .ok world ∧
              moved =
                setEntity state slot
                  { entity with
                    localTransform :=
                      if entity.parent.isSome then entity.localTransform
                      else entity.transform
                    transform := world
                    parent :=
                      some ⟨parentSlot.entityUuid, parentSlot.generation⟩ })) := by
  unfold reparent
  simp only [bind_eq_ok, parentScale, rejectIf_eq_ok, Bool.not_eq_false']
  constructor
  · rintro ⟨_, acyclic, _, uniform, chosen⟩
    refine ⟨acyclic, uniform, ?_⟩
    by_cases world : mode = ascii "preserve_world"
    · simp only [world, beq_self_eq_true, if_true, bind_eq_ok, pure_eq_ok] at chosen
      obtain ⟨localTransform, found, same⟩ := chosen
      exact Or.inl ⟨world, localTransform, found, same.symm⟩
    · have differs : (mode == ascii "preserve_world") = false :=
        beq_eq_false_iff_ne.mpr world
      simp only [differs, Bool.false_eq_true, if_false, bind_eq_ok, pure_eq_ok]
        at chosen
      obtain ⟨transform, found, same⟩ := chosen
      exact Or.inr ⟨world, transform, found, same.symm⟩
  · rintro ⟨acyclic, uniform, chosen⟩
    refine ⟨(), acyclic, (), uniform, ?_⟩
    rcases chosen with ⟨world, localTransform, found, same⟩ | ⟨world, transform, found, same⟩
    · simp only [world, beq_self_eq_true, if_true, bind_eq_ok, pure_eq_ok]
      exact ⟨localTransform, found, same.symm⟩
    · have differs : (mode == ascii "preserve_world") = false :=
        beq_eq_false_iff_ne.mpr world
      simp only [differs, Bool.false_eq_true, if_false, bind_eq_ok, pure_eq_ok]
      exact ⟨transform, found, same.symm⟩

/-! ## Operations -/

variable {σ : Type}

@[simp]
theorem check_eq_ok
    {β : Type} {computation : Except Error β} {result : β} {state final : σ} :
    check computation state = .ok result final ↔
      computation = .ok result ∧ state = final :=
  attempt_eq_ok

/-- What a batch keeps of the context once its hook is taken away. -/
def plainContext (revision : UInt64) : Context α Unit :=
  ⟨none, none, revision⟩

def bindingOf (operation : EntityCreate) (base : Snapshot α) (slot : Slot α) :
    CreatedBinding :=
  ⟨operation.temporaryId, base.worldId, slot.entityUuid, slot.generation⟩

def freshEntity (operation : EntityCreate) (revision : UInt64) : Entity α :=
  ⟨operation.prefabId, revision, Transform.default, none, Transform.default, []⟩

/-- The staging after a create took `slot` at `position` of `base`. -/
def afterCreate (revision : UInt64) (operation : EntityCreate) (staging : Staging α)
    (position : Nat) (slot : Slot α) (base : Snapshot α) : Staging α where
  staged :=
    setSlot base position { slot with entity := some (freshEntity operation revision) }
  names :=
    (operation.temporaryId, ⟨base.worldId, slot.entityUuid, slot.generation⟩) ::
      staging.names
  created := staging.created ++ [bindingOf operation base slot]

/-- The slot a delete leaves: empty, and either one generation on or, at the
last generation, retired. -/
def emptied (slot : Slot α) : Slot α :=
  if slot.generation = maximum64 then { slot with entity := none, retired := true }
  else { slot with entity := none, generation := slot.generation + 1 }

omit [Scalar α] in
/-- The recorded identity is the one the slot has, or the replay is refused. -/
theorem restore_matched
    {bindings : Option (List CreatedBinding)} {count index : Nat}
    {operation : EntityCreate} {base : Snapshot α} {slot : Slot α}
    (matched : matchBinding bindings count (bindingOf operation base slot) index = .ok ()) :
    restore bindings count slot = slot := by
  cases bindings with
  | none => rfl
  | some recorded =>
      unfold matchBinding at matched
      unfold restore
      cases found : recorded[count]? with
      | none =>
          simp only [found] at matched
          exact absurd matched (by simp)
      | some binding =>
          simp only [found, rejectIf_eq_ok, bne_eq_false_iff_eq] at matched
          simp only [Option.bind_some, found, matched, bindingOf]

theorem applyCreate_eq_ok
    {context : Context α σ} {operation : EntityCreate} {index : Nat}
    {staging next : Staging α} {state final : σ} :
    applyCreate context operation index staging state = .ok next final ↔
      ∃ position slot base,
        staging.names.lookup operation.temporaryId = none ∧
          operation.prefabId = ascii "builtin.unit_cube" ∧
          allocate staging.staged (operationPath index) index =
            .ok (position, slot, base) ∧
          context.notify (fun guard => guard.create position index) state =
            .ok () final ∧
          matchBinding context.bindings staging.created.length
            (bindingOf operation base slot) index = .ok () ∧
          next = afterCreate context.revision operation staging position slot base := by
  unfold applyCreate
  simp only [stateful_bind_eq_ok, stateful_pure_eq_ok, check_eq_ok, rejectIf_eq_ok,
    Option.isSome_eq_false_iff, Option.isNone_iff_eq_none, bne_eq_false_iff_eq]
  constructor
  · rintro ⟨_, _, ⟨unused, rfl⟩, _, _, ⟨prefabOk, rfl⟩, ⟨position, slot, base⟩, _,
      ⟨allocated, rfl⟩, _, _, allowed, _, _, ⟨matched, rfl⟩, same, rfl⟩
    rw [restore_matched matched] at same
    exact ⟨position, slot, base, unused, prefabOk, allocated, allowed, matched,
      same.symm⟩
  · rintro ⟨position, slot, base, unused, prefabOk, allocated, allowed, matched, same⟩
    refine ⟨(), state, ⟨unused, rfl⟩, (), state, ⟨prefabOk, rfl⟩,
      (position, slot, base), state, ⟨allocated, rfl⟩, (), final, allowed, (), final,
      ⟨matched, rfl⟩, ?_, rfl⟩
    rw [restore_matched matched]
    exact same.symm

/-- The local transform a transform operation leaves on its target. -/
def replacedLocal (staged : Snapshot α) (slot : Slot α) (entity : Entity α)
    (replacement : Transform α) (path : Text) (index : Nat) :
    Except Error (Transform α) := do
  match ← parentOf staged slot with
  | some (_, _, parentEntity) =>
      relative parentEntity.transform replacement path index
  | none => .ok entity.localTransform

theorem applyTransform_eq_ok
    {context : Context α σ} {operation : TransformSet α} {index : Nat}
    {staging next : Staging α} {state final : σ} :
    applyTransform context operation index staging state = .ok next final ↔
      ∃ replacement position slot entity localTransform staged,
        transform operation (operationPath index) index = .ok replacement ∧
          resolve staging.staged operation.target staging.names
            (operationPath index ++ ascii "/target") index =
              .ok (position, slot, entity) ∧
          context.notify
            (fun guard =>
              guard.transform position entity.transform replacement index) state =
                .ok () final ∧
          (hasChildren staging.staged slot = true → uniformScale replacement = true) ∧
          replacedLocal staging.staged slot entity replacement
            (operationPath index) index = .ok localTransform ∧
          subtree
            (setEntity staging.staged position
              { entity with
                transform := replacement, localTransform := localTransform })
            position context.revision (operationPath index) index = .ok staged ∧
          next = { staging with staged := staged } := by
  unfold applyTransform replacedLocal
  simp only [stateful_bind_eq_ok, stateful_pure_eq_ok, check_eq_ok, bind_eq_ok]
  constructor
  · rintro ⟨replacement, _, ⟨replaced, rfl⟩, ⟨position, slot, entity⟩, _,
      ⟨resolved, rfl⟩, _, _, allowed, _, _, ⟨scaled, rfl⟩, parent, _,
      ⟨parented, rfl⟩, localTransform, _, ⟨localOk, rfl⟩, staged, _, ⟨spread, rfl⟩,
      same, rfl⟩
    refine ⟨replacement, position, slot, entity, localTransform, staged, replaced,
      resolved, allowed, ?_, ⟨parent, parented, ?_⟩, spread, same.symm⟩
    · intro children
      rw [if_pos children] at scaled
      simpa [parentScale] using scaled
    · rcases parent with _ | ⟨_, _, _⟩
      · exact localOk
      · exact localOk
  · rintro ⟨replacement, position, slot, entity, localTransform, staged, replaced,
      resolved, allowed, scaled, ⟨parent, parented, localOk⟩, spread, same⟩
    refine ⟨replacement, state, ⟨replaced, rfl⟩, (position, slot, entity), state,
      ⟨resolved, rfl⟩, (), final, allowed, (), final, ⟨?_, rfl⟩, parent, final,
      ⟨parented, rfl⟩, localTransform, final, ⟨?_, rfl⟩, staged, final, ⟨spread, rfl⟩,
      same.symm, rfl⟩
    · by_cases children : hasChildren staging.staged slot = true
      · simp [children, parentScale, scaled children]
      · simp [children]
    · rcases parent with _ | ⟨_, _, _⟩
      · exact localOk
      · exact localOk

omit [Scalar α] in
theorem applyTagsSet_eq_ok
    {context : Context α σ} {operation : EntityTagsSet} {index : Nat}
    {staging next : Staging α} {state final : σ} :
    applyTagsSet context operation index staging state = .ok next final ↔
      ∃ position slot entity,
        resolve staging.staged operation.target staging.names
            (operationPath index ++ ascii "/target") index =
              .ok (position, slot, entity) ∧
          state = final ∧
          next =
            { staging with
              staged :=
                setEntity staging.staged position
                  { entity with
                    tags := sortTexts operation.tags
                    authoringRevision := context.revision } } := by
  unfold applyTagsSet
  simp only [stateful_bind_eq_ok, stateful_pure_eq_ok, check_eq_ok]
  constructor
  · intro applied
    obtain ⟨⟨position, slot, entity⟩, _, ⟨resolved, rfl⟩, same, rfl⟩ := applied
    exact ⟨position, slot, entity, resolved, rfl, same.symm⟩
  · rintro ⟨position, slot, entity, resolved, unchanged, same⟩
    exact ⟨(position, slot, entity), state, ⟨resolved, rfl⟩, same.symm, unchanged⟩

theorem applyReparent_eq_ok
    {context : Context α σ} {operation : EntityReparent} {index : Nat}
    {staging next : Staging α} {state final : σ} :
    applyReparent context operation index staging state = .ok next final ↔
      ∃ position slot entity parent moved staged,
        resolve staging.staged operation.target staging.names
            (operationPath index ++ ascii "/target") index =
              .ok (position, slot, entity) ∧
          resolveParent staging.staged operation staging.names index = .ok parent ∧
          reparent staging.staged position entity parent operation.mode
            (operationPath index) index = .ok moved ∧
          subtree moved position context.revision (operationPath index) index =
            .ok staged ∧
          state = final ∧ next = { staging with staged := staged } := by
  unfold applyReparent
  simp only [stateful_bind_eq_ok, stateful_pure_eq_ok, check_eq_ok]
  constructor
  · intro applied
    obtain ⟨⟨position, slot, entity⟩, _, ⟨resolved, rfl⟩, parent, _, ⟨parented, rfl⟩,
      moved, _, ⟨movedOk, rfl⟩, staged, _, ⟨spread, rfl⟩, same, rfl⟩ := applied
    exact ⟨position, slot, entity, parent, moved, staged, resolved, parented, movedOk,
      spread, rfl, same.symm⟩
  · rintro ⟨position, slot, entity, parent, moved, staged, resolved, parented, movedOk,
      spread, unchanged, same⟩
    exact ⟨(position, slot, entity), state, ⟨resolved, rfl⟩, parent, state,
      ⟨parented, rfl⟩, moved, state, ⟨movedOk, rfl⟩, staged, state, ⟨spread, rfl⟩,
      same.symm, unchanged⟩

omit [Scalar α] in
theorem applyDelete_eq_ok
    {context : Context α σ} {operation : EntityDelete} {index : Nat}
    {staging next : Staging α} {state final : σ} :
    applyDelete context operation index staging state = .ok next final ↔
      ∃ position slot entity,
        resolve staging.staged operation.target staging.names
            (operationPath index ++ ascii "/target") index =
              .ok (position, slot, entity) ∧
          hasChildren staging.staged slot = false ∧
          context.notify
            (fun guard => guard.erase position entity.transform index) state =
              .ok () final ∧
          next =
            { staging with
              staged := setSlot staging.staged position (emptied slot) } := by
  unfold applyDelete emptied
  simp only [stateful_bind_eq_ok, stateful_pure_eq_ok, check_eq_ok, rejectIf_eq_ok]
  constructor
  · rintro ⟨⟨position, slot, entity⟩, _, ⟨resolved, rfl⟩, _, _, ⟨childless, rfl⟩, _, _,
      allowed, same, rfl⟩
    exact ⟨position, slot, entity, resolved, childless, allowed, same.symm⟩
  · rintro ⟨position, slot, entity, resolved, childless, allowed, same⟩
    exact ⟨(position, slot, entity), state, ⟨resolved, rfl⟩, (), state,
      ⟨childless, rfl⟩, (), final, allowed, same.symm, rfl⟩

/-! ## Taking the hook away -/

/-- An operation that a hook or a recorded mapping let pass does exactly what
it does without them. -/
theorem applyOperation_plain
    {context : Context α σ} {operation : Operation α} {index : Nat}
    {staging next : Staging α} {state final : σ}
    (applied : applyOperation context operation index staging state = .ok next final) :
    applyOperation (plainContext context.revision) operation index staging () =
      .ok next () := by
  cases operation with
  | entityCreate operation =>
      obtain ⟨position, slot, base, unused, prefabOk, allocated, _, _, same⟩ :=
        applyCreate_eq_ok.mp applied
      exact applyCreate_eq_ok.mpr
        ⟨position, slot, base, unused, prefabOk, allocated, rfl, rfl, same⟩
  | transformSet operation =>
      obtain ⟨replacement, position, slot, entity, localTransform, staged, replaced,
        resolved, _, scaled, localOk, spread, same⟩ :=
        applyTransform_eq_ok.mp applied
      exact applyTransform_eq_ok.mpr
        ⟨replacement, position, slot, entity, localTransform, staged, replaced,
          resolved, rfl, scaled, localOk, spread, same⟩
  | entityDelete operation =>
      obtain ⟨position, slot, entity, resolved, childless, _, same⟩ :=
        applyDelete_eq_ok.mp applied
      exact applyDelete_eq_ok.mpr
        ⟨position, slot, entity, resolved, childless, rfl, same⟩
  | entityReparent operation =>
      obtain ⟨position, slot, entity, parent, moved, staged, resolved, parented,
        movedOk, spread, _, same⟩ := applyReparent_eq_ok.mp applied
      exact applyReparent_eq_ok.mpr
        ⟨position, slot, entity, parent, moved, staged, resolved, parented, movedOk,
          spread, rfl, same⟩
  | entityTagsSet operation =>
      obtain ⟨position, slot, entity, resolved, _, same⟩ :=
        applyTagsSet_eq_ok.mp applied
      exact applyTagsSet_eq_ok.mpr ⟨position, slot, entity, resolved, rfl, same⟩

/-- An operation adds at most one creation binding. -/
theorem applyOperation_created
    {context : Context α σ} {operation : Operation α} {index : Nat}
    {staging next : Staging α} {state final : σ}
    (applied : applyOperation context operation index staging state = .ok next final) :
    ∃ bindings, bindings.length ≤ 1 ∧ next.created = staging.created ++ bindings := by
  cases operation with
  | entityCreate operation =>
      obtain ⟨_, slot, base, _, _, _, _, _, same⟩ := applyCreate_eq_ok.mp applied
      exact ⟨[bindingOf operation base slot], Nat.le_refl 1, by rw [same, afterCreate]⟩
  | transformSet operation =>
      obtain ⟨_, _, _, _, _, _, _, _, _, _, _, _, same⟩ :=
        applyTransform_eq_ok.mp applied
      exact ⟨[], Nat.zero_le 1, by simp [same]⟩
  | entityDelete operation =>
      obtain ⟨_, _, _, _, _, _, same⟩ := applyDelete_eq_ok.mp applied
      exact ⟨[], Nat.zero_le 1, by simp [same]⟩
  | entityReparent operation =>
      obtain ⟨_, _, _, _, _, _, _, _, _, _, _, same⟩ := applyReparent_eq_ok.mp applied
      exact ⟨[], Nat.zero_le 1, by simp [same]⟩
  | entityTagsSet operation =>
      obtain ⟨_, _, _, _, _, same⟩ := applyTagsSet_eq_ok.mp applied
      exact ⟨[], Nat.zero_le 1, by simp [same]⟩

theorem applyOperations_cons_eq_ok
    {context : Context α σ} {operation : Operation α} {rest : List (Operation α)}
    {index : Nat} {staging last : Staging α} {state final : σ} :
    applyOperations context (operation :: rest) index staging state = .ok last final ↔
      ∃ next middle,
        applyOperation context operation index staging state = .ok next middle ∧
          applyOperations context rest (index + 1) next middle = .ok last final := by
  rw [applyOperations, stateful_bind_eq_ok]

theorem applyOperations_nil_eq_ok
    {context : Context α σ} {index : Nat} {staging last : Staging α}
    {state final : σ} :
    applyOperations context [] index staging state = .ok last final ↔
      staging = last ∧ state = final := by
  rw [applyOperations, stateful_pure_eq_ok]

theorem applyOperations_created_le
    {context : Context α σ} {operations : List (Operation α)} :
    ∀ {index : Nat} {staging last : Staging α} {state final : σ},
      applyOperations context operations index staging state = .ok last final →
      last.created.length ≤ staging.created.length + operations.length := by
  induction operations with
  | nil =>
      intro index staging last state final applied
      exact (applyOperations_nil_eq_ok.mp applied).1 ▸ Nat.le_refl _
  | cons operation rest inductionHypothesis =>
      intro index staging last state final applied
      obtain ⟨next, middle, first, others⟩ := applyOperations_cons_eq_ok.mp applied
      obtain ⟨bindings, few, grown⟩ := applyOperation_created first
      have later := inductionHypothesis others
      rw [grown, List.length_append] at later
      rw [List.length_cons]
      omega

theorem applyOperations_plain
    {context : Context α σ} {operations : List (Operation α)} :
    ∀ {index : Nat} {staging last : Staging α} {state final : σ},
      applyOperations context operations index staging state = .ok last final →
      applyOperations (plainContext context.revision) operations index staging () =
        .ok last () := by
  induction operations with
  | nil =>
      intro index staging last state final applied
      exact applyOperations_nil_eq_ok.mpr
        ⟨(applyOperations_nil_eq_ok.mp applied).1, rfl⟩
  | cons operation rest inductionHypothesis =>
      intro index staging last state final applied
      obtain ⟨next, middle, first, others⟩ := applyOperations_cons_eq_ok.mp applied
      exact applyOperations_cons_eq_ok.mpr
        ⟨next, (), applyOperation_plain first, inductionHypothesis others⟩

/-- What a run of operations keeps, step by step. -/
theorem applyOperations_invariant
    {context : Context α σ} {Invariant : Staging α → Prop}
    {operations : List (Operation α)}
    (preserved :
      ∀ operation index staging next state final,
        operation ∈ operations → Invariant staging →
        applyOperation context operation index staging state = .ok next final →
        Invariant next) :
    ∀ {index : Nat} {staging last : Staging α} {state final : σ},
      Invariant staging →
      applyOperations context operations index staging state = .ok last final →
      Invariant last := by
  induction operations with
  | nil =>
      intro index staging last state final holds applied
      exact (applyOperations_nil_eq_ok.mp applied).1 ▸ holds
  | cons operation rest inductionHypothesis =>
      intro index staging last state final holds applied
      obtain ⟨next, middle, first, others⟩ := applyOperations_cons_eq_ok.mp applied
      refine inductionHypothesis ?_
        (preserved operation index staging next state middle List.mem_cons_self holds
          first) others
      intro later index staging next state final member
      exact preserved later index staging next state final
        (List.mem_cons_of_mem operation member)

/-- A run of operations cut in two. -/
theorem applyOperations_append
    {context : Context α σ} {front back : List (Operation α)} :
    ∀ {index : Nat} {staging last : Staging α} {state final : σ},
      applyOperations context (front ++ back) index staging state = .ok last final ↔
        ∃ middle inner,
          applyOperations context front index staging state = .ok middle inner ∧
            applyOperations context back (index + front.length) middle inner =
              .ok last final := by
  induction front with
  | nil =>
      intro index staging last state final
      constructor
      · intro applied
        exact ⟨staging, state, applyOperations_nil_eq_ok.mpr ⟨rfl, rfl⟩, applied⟩
      · intro cut
        obtain ⟨middle, inner, nothing, applied⟩ := cut
        obtain ⟨rfl, rfl⟩ := applyOperations_nil_eq_ok.mp nothing
        exact applied
  | cons operation rest inductionHypothesis =>
      intro index staging last state final
      have shifted : index + 1 + rest.length = index + (operation :: rest).length := by
        rw [List.length_cons]
        omega
      rw [List.cons_append, applyOperations_cons_eq_ok]
      constructor
      · intro applied
        obtain ⟨next, here, first, others⟩ := applied
        obtain ⟨middle, inner, run, later⟩ := inductionHypothesis.mp others
        rw [shifted] at later
        exact ⟨middle, inner, applyOperations_cons_eq_ok.mpr ⟨next, here, first, run⟩,
          later⟩
      · intro cut
        obtain ⟨middle, inner, run, later⟩ := cut
        obtain ⟨next, here, first, others⟩ := applyOperations_cons_eq_ok.mp run
        rw [← shifted] at later
        exact ⟨next, here, first, inductionHypothesis.mpr ⟨middle, inner, others, later⟩⟩

/-- A run of operations around one of them. -/
theorem applyOperations_split
    {context : Context α σ} {operations : List (Operation α)} :
    ∀ {position start : Nat} {operation : Operation α} {staging last : Staging α}
      {state final : σ},
      operations[position]? = some operation →
      applyOperations context operations start staging state = .ok last final →
      ∃ before middle after later,
        applyOperations context (operations.take position) start staging state =
            .ok before middle ∧
          applyOperation context operation (start + position) before middle =
            .ok after later ∧
          applyOperations context (operations.drop (position + 1))
            (start + position + 1) after later = .ok last final := by
  induction operations with
  | nil =>
      intro position start operation staging last state final present
      exact absurd present (by simp)
  | cons first rest inductionHypothesis =>
      intro position start operation staging last state final present applied
      obtain ⟨next, middle, stepped, others⟩ := applyOperations_cons_eq_ok.mp applied
      cases position with
      | zero =>
          rw [List.getElem?_cons_zero, Option.some.injEq] at present
          subst present
          exact ⟨staging, state, next, middle,
            applyOperations_nil_eq_ok.mpr ⟨rfl, rfl⟩, stepped, others⟩
      | succ position =>
          rw [List.getElem?_cons_succ] at present
          obtain ⟨before, inner, after, later, run, here, remaining⟩ :=
            inductionHypothesis present others
          have shifted : start + 1 + position = start + (position + 1) := by omega
          rw [shifted] at here remaining
          exact ⟨before, inner, after, later,
            applyOperations_cons_eq_ok.mpr ⟨next, middle, stepped, run⟩, here, remaining⟩

def formatted (state : Snapshot α) : Snapshot α :=
  { state with formatVersion := stagedFormat state.slots }

theorem stage_eq_ok
    {context : Context α σ} {world staged : Snapshot α}
    {operations : List (Operation α)} {created : List CreatedBinding}
    {state final : σ} :
    stage context world operations state = .ok (staged, created) final ↔
      ∃ last middle,
        applyOperations context operations 0 ⟨world, [], []⟩ state = .ok last middle ∧
          (∀ recorded, context.bindings = some recorded →
            last.created.length = recorded.length) ∧
          context.notify (fun guard => guard.finish (formatted last.staged)) middle =
            .ok () final ∧
          staged = formatted last.staged ∧ created = last.created := by
  unfold stage
  simp only [stateful_bind_eq_ok, stateful_pure_eq_ok, check_eq_ok, Prod.mk.injEq]
  constructor
  · rintro ⟨last, middle, applied, _, _, ⟨counted, rfl⟩, _, _, allowed,
      ⟨sameStaged, sameCreated⟩, rfl⟩
    refine ⟨last, middle, applied, ?_, allowed, sameStaged.symm, sameCreated.symm⟩
    intro recorded replayed
    simpa [replayed] using counted
  · rintro ⟨last, middle, applied, counted, allowed, sameStaged, sameCreated⟩
    refine ⟨last, middle, applied, (), middle, ⟨?_, rfl⟩, (), final, allowed,
      ⟨sameStaged.symm, sameCreated.symm⟩, rfl⟩
    cases replayed : context.bindings with
    | none => rfl
    | some recorded => simpa using counted recorded replayed

theorem stage_plain
    {context : Context α σ} {world staged : Snapshot α}
    {operations : List (Operation α)} {created : List CreatedBinding}
    {state final : σ}
    (applied :
      stage context world operations state = .ok (staged, created) final) :
    stage (plainContext context.revision) world operations () =
      .ok (staged, created) () := by
  obtain ⟨last, middle, run, _, _, sameStaged, sameCreated⟩ := stage_eq_ok.mp applied
  refine stage_eq_ok.mpr
    ⟨last, (), applyOperations_plain run, ?_, rfl, sameStaged, sameCreated⟩
  intro recorded replayed
  cases replayed

/-! ## What a hook keeps -/

/-- No callback of the hook after `begin` loses the property, whether it accepts
or refuses. -/
structure HookKeeps (hook : StagingGuard α σ) (Invariant : σ → Prop) : Prop where
  create : ∀ slot index, Keeps Invariant (hook.create slot index)
  transform :
    ∀ slot before after index, Keeps Invariant (hook.transform slot before after index)
  erase : ∀ slot before index, Keeps Invariant (hook.erase slot before index)
  finish : ∀ staged, Keeps Invariant (hook.finish staged)

omit [Scalar α] in
theorem notify_keeps {context : Context α σ} {Invariant : σ → Prop}
    {call : StagingGuard α σ → EStateM Thrown σ Unit}
    (kept : ∀ hook, context.guard = some hook → Keeps Invariant (call hook)) :
    Keeps Invariant (context.notify call) := by
  unfold Context.notify
  cases present : context.guard with
  | none => exact keeps_pure ()
  | some hook => exact kept hook present

theorem applyOperation_keeps {context : Context α σ} {Invariant : σ → Prop}
    (kept : ∀ hook, context.guard = some hook → HookKeeps hook Invariant)
    (operation : Operation α) (index : Nat) (staging : Staging α) :
    Keeps Invariant (applyOperation context operation index staging) := by
  cases operation with
  | entityCreate operation =>
      refine keeps_bind (keeps_attempt _ _) fun _ => ?_
      refine keeps_bind (keeps_attempt _ _) fun _ => ?_
      refine keeps_bind (keeps_attempt _ _) fun allocated => ?_
      refine keeps_bind
        (notify_keeps fun hook present => (kept hook present).create _ _) fun _ => ?_
      exact keeps_bind (keeps_attempt _ _) fun _ => keeps_pure _
  | transformSet operation =>
      refine keeps_bind (keeps_attempt _ _) fun replacement => ?_
      refine keeps_bind (keeps_attempt _ _) fun resolved => ?_
      refine keeps_bind
        (notify_keeps fun hook present => (kept hook present).transform _ _ _ _)
        fun _ => ?_
      refine keeps_bind (keeps_attempt _ _) fun _ => ?_
      refine keeps_bind (keeps_attempt _ _) fun _ => ?_
      refine keeps_bind (keeps_attempt _ _) fun _ => ?_
      exact keeps_bind (keeps_attempt _ _) fun _ => keeps_pure _
  | entityDelete operation =>
      refine keeps_bind (keeps_attempt _ _) fun resolved => ?_
      refine keeps_bind (keeps_attempt _ _) fun _ => ?_
      exact keeps_bind
        (notify_keeps fun hook present => (kept hook present).erase _ _ _)
        fun _ => keeps_pure _
  | entityReparent operation =>
      refine keeps_bind (keeps_attempt _ _) fun resolved => ?_
      refine keeps_bind (keeps_attempt _ _) fun _ => ?_
      refine keeps_bind (keeps_attempt _ _) fun _ => ?_
      exact keeps_bind (keeps_attempt _ _) fun _ => keeps_pure _
  | entityTagsSet operation =>
      exact keeps_bind (keeps_attempt _ _) fun resolved => keeps_pure _

theorem applyOperations_keeps {context : Context α σ} {Invariant : σ → Prop}
    (kept : ∀ hook, context.guard = some hook → HookKeeps hook Invariant)
    (operations : List (Operation α)) :
    ∀ index staging,
      Keeps Invariant (applyOperations context operations index staging) := by
  induction operations with
  | nil =>
      intro index staging
      exact keeps_pure staging
  | cons operation rest inductionHypothesis =>
      intro index staging
      exact keeps_bind (applyOperation_keeps kept operation index staging)
        fun next => inductionHypothesis (index + 1) next

theorem stage_keeps {context : Context α σ} {Invariant : σ → Prop}
    (kept : ∀ hook, context.guard = some hook → HookKeeps hook Invariant)
    (world : Snapshot α) (operations : List (Operation α)) :
    Keeps Invariant (stage context world operations) := by
  refine keeps_bind (applyOperations_keeps kept operations _ _) fun last => ?_
  refine keeps_bind (keeps_attempt _ _) fun _ => ?_
  exact keeps_bind
    (notify_keeps fun hook present => (kept hook present).finish _) fun _ => keeps_pure _

/-- What a run of operations keeps together with the state of the hook. -/
theorem applyOperations_together
    {context : Context α σ} {Together : Staging α → σ → Prop}
    {operations : List (Operation α)}
    (preserved :
      ∀ operation index staging next state final,
        operation ∈ operations → Together staging state →
        applyOperation context operation index staging state = .ok next final →
        Together next final) :
    ∀ {index : Nat} {staging last : Staging α} {state final : σ},
      Together staging state →
      applyOperations context operations index staging state = .ok last final →
      Together last final := by
  induction operations with
  | nil =>
      intro index staging last state final holds applied
      obtain ⟨sameStaging, sameState⟩ := applyOperations_nil_eq_ok.mp applied
      exact sameStaging ▸ sameState ▸ holds
  | cons operation rest inductionHypothesis =>
      intro index staging last state final holds applied
      obtain ⟨next, middle, first, others⟩ := applyOperations_cons_eq_ok.mp applied
      refine inductionHypothesis ?_
        (preserved operation index staging next state middle List.mem_cons_self holds
          first) others
      intro later index staging next state final member
      exact preserved later index staging next state final
        (List.mem_cons_of_mem operation member)

end Steps
end Omniweft.Transactions
