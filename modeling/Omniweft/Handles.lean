import Omniweft.Library.Arena
import Omniweft.TransactionsRuns

/-!
# Handles

A handle is a uuid with a generation. The slots of a world are a generational
arena, each operation of a committed batch is one step of it, and what holds of
arenas then holds of worlds: a handle is issued once and resolves exactly from
the create that issued it to the delete that ended it.
-/

namespace Omniweft.Transactions

open Omniweft.Outcome World Commands

abbrev Identity := Text × UInt64

def handleOf (identity : Identity) : Arena.Handle Text :=
  (identity.1, identity.2.toNat)

theorem handleOf_injective : Function.Injective handleOf := by
  intro first second same
  simp only [handleOf, Prod.mk.injEq] at same
  exact Prod.ext same.1 (UInt64.toNat_inj.mp same.2)

def lastGeneration : Nat := maximum64.toNat

/-- Positions that fit the twelve digits of a uuid have different uuids. -/
theorem uuid_injective {seed : UInt32} {first second : Nat}
    (firstFits : first + 1 < 16 ^ 12) (secondFits : second + 1 < 16 ^ 12)
    (same : uuid seed first = uuid seed second) :
    first = second := by
  unfold uuid at same
  have digits := List.append_cancel_left same
  have next := hex_injective firstFits secondFits digits
  omega

theorem hex_digits : ∀ value width : Nat, (hex value width).all (uuidByte 0) = true
  | _, 0 => rfl
  | value, width + 1 => by
      have digits : ∀ digit : Fin 16, uuidByte 0 (hexDigit digit) = true := by decide
      have last := digits ⟨value % 16, Nat.mod_lt value (by decide)⟩
      simp [hex, hex_digits (value / 16) width, last]

theorem uuidByte_digits {text : Text} {start : Nat} (digits : text.all (uuidByte 0) = true)
    (clear : ∀ index, start ≤ index → index < start + text.length →
      ¬ (index = 8 ∨ index = 13 ∨ index = 18 ∨ index = 23)) :
    (text.zipIdx start).all (fun entry => uuidByte entry.2 entry.1) = true := by
  rw [List.all_eq_true] at digits ⊢
  intro entry member
  obtain ⟨start', within, same⟩ := List.mem_zipIdx member
  have digit : uuidByte 0 entry.1 = true := by
    rw [same]
    exact digits _ (List.getElem_mem _)
  exact (if_neg (clear entry.2 start' within)).trans digit

/-- The uuid of every slot has the form that the codec demands of a target. -/
theorem validUuid_uuid (seed : UInt32) (index : Nat) :
    validUuid (uuid seed index) = true := by
  have middle : (ascii "-0000-4000-8000-").length = 16 := by decide
  have inner : ((ascii "-0000-4000-8000-").zipIdx 8).all
      (fun entry => uuidByte entry.2 entry.1) = true := by decide
  simp only [validUuid, uuid, List.zipIdx_append, List.all_append, List.length_append,
    hex_length, middle, Bool.and_eq_true, decide_eq_true_eq]
  refine ⟨trivial, ⟨uuidByte_digits (hex_digits _ _) ?_, inner⟩,
    uuidByte_digits (hex_digits _ _) ?_⟩
  · intro index _ below
    rw [hex_length] at below
    omega
  · intro index above _
    omega

section Cells

variable {α : Type}

def cellOf (slot : Slot α) : Arena.Cell Text :=
  ⟨slot.entityUuid, slot.generation.toNat, slot.entity.isSome, slot.retired⟩

def cells (state : Snapshot α) : List (Arena.Cell Text) :=
  state.slots.map cellOf

theorem cells_getElem?
    {state : Snapshot α} {position : Nat} {slot : Slot α}
    (present : state.slots[position]? = some slot) :
    (cells state)[position]? = some (cellOf slot) := by
  simp [cells, present]

theorem cells_setSlot (state : Snapshot α) (position : Nat) (slot : Slot α) :
    cells (setSlot state position slot) = (cells state).set position (cellOf slot) := by
  simp [cells, setSlot, List.map_set]

theorem cells_setEntity
    {state : Snapshot α} {position : Nat} {slot : Slot α} (entity : Entity α)
    (present : state.slots[position]? = some slot)
    (live : slot.entity.isSome = true) :
    cells (setEntity state position entity) = cells state :=
  setEntity_map cellOf present (by simp [cellOf, live])

/-- Deleting frees the cell. -/
theorem cellOf_emptied (slot : Slot α) :
    cellOf (emptied slot) = (cellOf slot).freed lastGeneration := by
  unfold emptied Arena.Cell.freed
  by_cases last : slot.generation = maximum64
  · simp [cellOf, last, lastGeneration]
  · have below : slot.generation.toNat ≠ lastGeneration := by
      intro same
      exact last (UInt64.toNat_inj.mp same)
    have fits : slot.generation.toNat + 1 < 2 ^ 64 := by
      have small := slot.generation.toNat_lt
      simp only [lastGeneration, maximum64] at below
      have value : (18446744073709551615 : UInt64).toNat = 18446744073709551615 := rfl
      omega
    have next : (slot.generation + 1).toNat = slot.generation.toNat + 1 := by
      rw [UInt64.toNat_add]
      exact Nat.mod_eq_of_lt fits
    simp [cellOf, last, below, next]

end Cells

/-- What one world fixes for all its states: identity, seed, capacity, and the
uuid of every slot. -/
structure SlotsValid {α : Type} (worldId : Text) (seed maxSlots : UInt32)
    (state : Snapshot α) : Prop where
  worldId_eq : state.worldId = worldId
  seed_eq : state.seed = seed
  maxSlots_eq : state.maxSlots = maxSlots
  small : maxSlots.toNat ≤ 1024
  bounded : state.slots.length ≤ maxSlots.toNat
  uuids :
    ∀ (position : Nat) (slot : Slot α),
      state.slots[position]? = some slot → slot.entityUuid = uuid seed position

section Steps

variable {α : Type}

/-- A change that keeps the frame and every slot's uuid keeps the slots valid. -/
theorem SlotsValid.of_uuids {worldId : Text} {seed maxSlots : UInt32}
    {state next : Snapshot α} (valid : SlotsValid worldId seed maxSlots state)
    (frame :
      next.worldId = state.worldId ∧ next.seed = state.seed ∧
        next.maxSlots = state.maxSlots)
    (same : next.slots.map Slot.entityUuid = state.slots.map Slot.entityUuid) :
    SlotsValid worldId seed maxSlots next := by
  have sameLength : next.slots.length = state.slots.length := by
    simpa using congrArg List.length same
  refine ⟨frame.1.trans valid.worldId_eq, frame.2.1.trans valid.seed_eq,
    frame.2.2.trans valid.maxSlots_eq, valid.small, sameLength ▸ valid.bounded, ?_⟩
  intro position slot present
  have names := congrArg (fun texts => texts[position]?) same
  simp only [List.getElem?_map, present, Option.map_some] at names
  obtain ⟨old, oldPresent, oldName⟩ := Option.map_eq_some_iff.mp names.symm
  exact oldName ▸ valid.uuids position old oldPresent

theorem SlotsValid.uuid_ne {worldId : Text} {seed maxSlots : UInt32}
    {state : Snapshot α} (valid : SlotsValid worldId seed maxSlots state)
    (cell : Arena.Cell Text) (member : cell ∈ cells state)
    (room : state.slots.length < maxSlots.toNat) :
    cell.name ≠ uuid seed state.slots.length := by
  obtain ⟨slot, slotMember, same⟩ := List.mem_map.mp member
  obtain ⟨position, present⟩ := List.mem_iff_getElem?.mp slotMember
  have inside := (List.getElem?_eq_some_iff.mp present).1
  have small := valid.small
  have name : cell.name = uuid seed position := by
    rw [← same, ← valid.uuids position slot present]
    rfl
  intro collision
  have equal :=
    uuid_injective (by omega) (by omega) (name.symm.trans collision)
  omega

theorem uuids_of_cells {state next : Snapshot α} (same : cells next = cells state) :
    next.slots.map Slot.entityUuid = state.slots.map Slot.entityUuid := by
  have names := congrArg (List.map Arena.Cell.name) same
  simpa [cells, Function.comp_def, cellOf] using names

variable [Scalar α]

theorem subtree_cells
    {state next : Snapshot α} {root index : Nat} {revision : UInt64} {path : Text}
    (walked : subtree state root revision path index = .ok next) :
    cells next = cells state :=
  subtree_map cellOf (fun slot entity world live => by simp [cellOf, live])
    (fun slot entity revision live => by simp [cellOf, live]) walked

/-- Reparenting rewrites one live entity, so it keeps the cells and the frame. -/
theorem reparent_cells
    {state moved : Snapshot α} {position : Nat} {slot : Slot α} {entity : Entity α}
    {parent : Option (Nat × Slot α × Entity α)} {mode path : Text} {index : Nat}
    (present : state.slots[position]? = some slot)
    (live : slot.entity = some entity)
    (movedOk : reparent state position entity parent mode path index = .ok moved) :
    cells moved = cells state ∧ SameFrame state moved := by
  have rewritten (next : Entity α) :
      cells (setEntity state position next) = cells state ∧
        SameFrame state (setEntity state position next) :=
    ⟨cells_setEntity next present (by simp [live]), rfl, rfl, rfl, rfl, rfl⟩
  rcases parent with _ | ⟨parent, parentSlot, parentEntity⟩
  · exact reparent_none_eq_ok.mp movedOk ▸ rewritten _
  · obtain ⟨_, _, chosen⟩ := reparent_some_eq_ok.mp movedOk
    rcases chosen with ⟨_, _, _, same⟩ | ⟨_, _, _, same⟩
    · exact same ▸ rewritten _
    · exact same ▸ rewritten _

/-- What one operation of a committed batch did to the handles, and the state
it left. -/
structure Moment (α : Type) where
  issued : List Identity
  ended : List Identity
  after : Snapshot α

/-- The identity a delete operation ends. -/
def endedBy (operation : Operation α) (index : Nat) (staging : Staging α) :
    List Identity :=
  match operation with
  | .entityDelete operation =>
      match
        resolve staging.staged operation.target staging.names
          (operationPath index ++ ascii "/target") index with
      | .ok (_, slot, _) => [(slot.entityUuid, slot.generation)]
      | .error _ => []
  | _ => []

def moment (operation : Operation α) (index : Nat) (staging next : Staging α) :
    Moment α where
  issued :=
    (next.created.drop staging.created.length).map fun binding =>
      (binding.entityUuid, binding.generation)
  ended := endedBy operation index staging
  after := next.staged

/-- The moments of a batch, operation by operation. -/
def moments (revision : UInt64) :
    List (Operation α) → Nat → Staging α → List (Moment α)
  | [], _, _ => []
  | operation :: rest, index, staging =>
      match applyOperation (plainContext revision) operation index staging () with
      | .ok next () =>
          moment operation index staging next ::
            moments revision rest (index + 1) next
      | .error _ _ => []

def stateAfter (first : Snapshot α) (log : List (Moment α)) : Snapshot α :=
  log.foldl (fun _ moment => moment.after) first

omit [Scalar α] in
theorem stateAfter_append (first : Snapshot α) (past future : List (Moment α)) :
    stateAfter first (past ++ future) = stateAfter (stateAfter first past) future :=
  List.foldl_append

omit [Scalar α] in
theorem stateAfter_slots
    {first second : Snapshot α} (log : List (Moment α))
    (same : first.slots = second.slots) :
    (stateAfter first log).slots = (stateAfter second log).slots := by
  cases log with
  | nil => exact same
  | cons moment rest => rfl

def issuedIn (log : List (Moment α)) : List Identity := log.flatMap Moment.issued

def endedIn (log : List (Moment α)) : List Identity := log.flatMap Moment.ended

def arenaMoment (moment : Moment α) : Arena.Moment Text :=
  ⟨moment.issued.map handleOf, moment.ended.map handleOf, cells moment.after⟩

omit [Scalar α] in
theorem cells_stateAfter (log : List (Moment α)) :
    ∀ first : Snapshot α,
      cells (stateAfter first log) =
        Arena.cellsAfter (cells first) (log.map arenaMoment) := by
  induction log with
  | nil =>
      intro first
      rfl
  | cons moment rest inductionHypothesis =>
      intro first
      exact inductionHypothesis moment.after

omit [Scalar α] in
theorem stateAfter_valid
    {worldId : Text} {seed maxSlots : UInt32} {log : List (Moment α)} :
    ∀ {first : Snapshot α},
      SlotsValid worldId seed maxSlots first →
      (∀ moment, moment ∈ log → SlotsValid worldId seed maxSlots moment.after) →
      SlotsValid worldId seed maxSlots (stateAfter first log) := by
  induction log with
  | nil =>
      intro first valid allValid
      exact valid
  | cons moment rest inductionHypothesis =>
      intro first valid allValid
      exact inductionHypothesis (allValid moment (by simp))
        (fun later member => allValid later (by simp [member]))

/-- One operation is one arena step, and leaves the slots valid. -/
def Steps (worldId : Text) (seed maxSlots : UInt32) (operation : Operation α) (index : Nat)
    (staging next : Staging α) : Prop :=
  let step := arenaMoment (moment operation index staging next)
  Arena.Step lastGeneration (cells staging.staged) step.issued step.ended step.after ∧
    SlotsValid worldId seed maxSlots next.staged

section Steps

variable {worldId : Text} {seed maxSlots : UInt32} {revision : UInt64} {index : Nat}
  {staging next : Staging α}

omit [Scalar α] in
/-- A change of the entities alone is no step at all. -/
theorem SlotsValid.quiet {before after : Snapshot α}
    (valid : SlotsValid worldId seed maxSlots before)
    (sameCells : cells after = cells before) (sameFrame : SameFrame before after) :
    Arena.Step lastGeneration (cells before) [] [] (cells after) ∧
      SlotsValid worldId seed maxSlots after := by
  obtain ⟨_, sameWorld, sameSeed, sameMax, _⟩ := sameFrame
  exact ⟨sameCells ▸ Arena.Step.stay _,
    valid.of_uuids ⟨sameWorld, sameSeed, sameMax⟩ (uuids_of_cells sameCells)⟩

theorem create_steps {operation : EntityCreate}
    (valid : SlotsValid worldId seed maxSlots staging.staged)
    (applied : applyOperation (plainContext revision) (.entityCreate operation) index staging () =
      .ok next ()) :
    Steps worldId seed maxSlots (.entityCreate operation) index staging next := by
  obtain ⟨position, slot, base, _, _, allocated, _, _, same⟩ :=
    applyCreate_eq_ok.mp applied
  subst same
  simp only [Steps, arenaMoment, moment, endedBy, afterCreate, bindingOf,
    List.drop_left, List.map_cons, List.map_nil]
  rcases allocate_eq_ok.mp allocated with
    ⟨found, sameBase⟩ | ⟨_, room, samePosition, sameSlot, sameBase⟩
  · subst sameBase
    obtain ⟨present, free, _⟩ := locate_eq_some.mp found
    simp only [Bool.and_eq_true, Option.isNone_iff_eq_none,
      Bool.not_eq_true'] at free
    obtain ⟨vacant, awake⟩ := free
    have step :=
      @Arena.Step.reuse Text lastGeneration _ _ _ (cells_getElem? present)
        (by simp [cellOf, vacant]) (by simp [cellOf, awake])
    refine ⟨?_, valid.of_uuids ⟨rfl, rfl, rfl⟩ ?_⟩
    · rw [cells_setSlot]
      exact step
    · apply List.ext_getElem?
      intro place
      by_cases here : position = place
      · subst here
        have inside := (List.getElem?_eq_some_iff.mp present).1
        simp [setSlot_same _ _ inside, present]
      · simp [setSlot_other _ _ here]
  · subst sameBase samePosition sameSlot
    have seedEqual := valid.seed_eq
    have maxEqual := valid.maxSlots_eq
    have fresh :
        ∀ cell, cell ∈ cells staging.staged →
          cell.name ≠ uuid staging.staged.seed staging.staged.slots.length := by
      intro cell member
      rw [seedEqual]
      exact valid.uuid_ne cell member (maxEqual ▸ room)
    have step := @Arena.Step.grow Text lastGeneration _ _ fresh
    have grown (slot other : Slot α) :
        setSlot { staging.staged with slots := staging.staged.slots ++ [slot] }
            staging.staged.slots.length other =
          { staging.staged with slots := staging.staged.slots ++ [other] } := by
      simp [setSlot]
    rw [grown]
    refine ⟨?_, ?_⟩
    · simpa [cells, cellOf, handleOf] using step
    · refine ⟨valid.worldId_eq, valid.seed_eq, valid.maxSlots_eq, valid.small,
        ?_, ?_⟩
      · rw [maxEqual] at room
        simpa using Nat.succ_le_of_lt room
      · intro position slot present
        rcases Nat.lt_trichotomy position staging.staged.slots.length with
          before | here | beyond
        · rw [List.getElem?_append_left before] at present
          exact valid.uuids position slot present
        · subst here
          simp only [List.getElem?_concat_length, Option.some.injEq] at present
          rw [← present, seedEqual]
        · rw [List.getElem?_eq_none (by simp; omega)] at present
          exact absurd present (by simp)

theorem transform_steps {operation : TransformSet α}
    (valid : SlotsValid worldId seed maxSlots staging.staged)
    (applied : applyOperation (plainContext revision) (.transformSet operation) index staging () =
      .ok next ()) :
    Steps worldId seed maxSlots (.transformSet operation) index staging next := by
  obtain ⟨replacement, position, slot, entity, localTransform, staged, _, resolved,
    _, _, _, spread, same⟩ := applyTransform_eq_ok.mp applied
  obtain ⟨present, live, _⟩ := resolve_live resolved
  subst same
  have walked := subtree_cells spread
  rw [cells_setEntity _ present (by simp [live])] at walked
  have frame := subtree_frame spread
  simpa [Steps, arenaMoment, moment, endedBy] using valid.quiet walked frame

theorem delete_steps {operation : EntityDelete}
    (valid : SlotsValid worldId seed maxSlots staging.staged)
    (applied : applyOperation (plainContext revision) (.entityDelete operation) index staging () =
      .ok next ()) :
    Steps worldId seed maxSlots (.entityDelete operation) index staging next := by
  obtain ⟨position, slot, entity, resolved, _, _, same⟩ :=
    applyDelete_eq_ok.mp applied
  obtain ⟨present, live, awake⟩ := resolve_live resolved
  subst same
  have step :=
    @Arena.Step.free Text lastGeneration _ _ _ (cells_getElem? present)
      (by simp [cellOf, live]) (by simp [cellOf, awake])
  refine ⟨?_, valid.of_uuids ⟨rfl, rfl, rfl⟩ ?_⟩
  · simp only [arenaMoment, moment, endedBy, resolved, cells_setSlot,
      cellOf_emptied, List.drop_length, List.map_nil, List.map_cons]
    exact step
  · have name : (emptied slot).entityUuid = slot.entityUuid := by
      unfold emptied
      split <;> rfl
    apply List.ext_getElem?
    intro place
    by_cases here : position = place
    · subst here
      have inside := (List.getElem?_eq_some_iff.mp present).1
      simp [setSlot_same _ _ inside, present, name]
    · simp [setSlot_other _ _ here]

theorem reparent_steps {operation : EntityReparent}
    (valid : SlotsValid worldId seed maxSlots staging.staged)
    (applied : applyOperation (plainContext revision) (.entityReparent operation) index staging () =
      .ok next ()) :
    Steps worldId seed maxSlots (.entityReparent operation) index staging next := by
  obtain ⟨position, slot, entity, parent, moved, staged, resolved, _, movedOk,
    spread, _, same⟩ := applyReparent_eq_ok.mp applied
  obtain ⟨present, live, _⟩ := resolve_live resolved
  subst same
  obtain ⟨movedCells, movedFrame⟩ := reparent_cells present live movedOk
  have walkedFrame := subtree_frame spread
  have frame : SameFrame staging.staged staged := by
    obtain ⟨first, second, third, fourth, fifth⟩ := movedFrame
    obtain ⟨first', second', third', fourth', fifth'⟩ := walkedFrame
    exact ⟨first'.trans first, second'.trans second, third'.trans third,
      fourth'.trans fourth, fifth'.trans fifth⟩
  simpa [Steps, arenaMoment, moment, endedBy] using
    valid.quiet ((subtree_cells spread).trans movedCells) frame

theorem tagsSet_steps {operation : EntityTagsSet}
    (valid : SlotsValid worldId seed maxSlots staging.staged)
    (applied : applyOperation (plainContext revision) (.entityTagsSet operation) index staging () =
      .ok next ()) :
    Steps worldId seed maxSlots (.entityTagsSet operation) index staging next := by
  obtain ⟨position, slot, entity, resolved, _, same⟩ :=
    applyTagsSet_eq_ok.mp applied
  obtain ⟨present, live, _⟩ := resolve_live resolved
  subst same
  simpa [Steps, arenaMoment, moment, endedBy] using
    @SlotsValid.quiet α worldId seed maxSlots staging.staged
      (setEntity staging.staged position _) valid
      (cells_setEntity _ present (by simp [live])) ⟨rfl, rfl, rfl, rfl, rfl⟩

/-- Every kind of operation is one arena step. -/
theorem moment_step {operation : Operation α}
    (valid : SlotsValid worldId seed maxSlots staging.staged)
    (applied :
      applyOperation (plainContext revision) operation index staging () =
        .ok next ()) :
    let step := arenaMoment (moment operation index staging next)
    Arena.Step lastGeneration (cells staging.staged) step.issued step.ended
        step.after ∧
      SlotsValid worldId seed maxSlots next.staged := by
  cases operation with
  | entityCreate operation => exact create_steps valid applied
  | transformSet operation => exact transform_steps valid applied
  | entityDelete operation => exact delete_steps valid applied
  | entityReparent operation => exact reparent_steps valid applied
  | entityTagsSet operation => exact tagsSet_steps valid applied

end Steps

/-- A commit keeps what a world fixes for all its states. -/
theorem SlotsValid.commit {library : JsonLibrary α} {worldId : Text} {seed maxSlots : UInt32}
    {state next : Snapshot α} {envelope : Envelope α} {created : List CreatedBinding}
    (valid : SlotsValid worldId seed maxSlots state)
    (committed : Commits library state envelope next created) :
    SlotsValid worldId seed maxSlots next := by
  refine committed.invariant ?_ ?_ valid
  · intro operation index staging following _ current applied
    exact (moment_step current applied).2
  · intro staged formatVersion worldRevision current
    exact current.of_uuids ⟨rfl, rfl, rfl⟩ rfl

omit [Scalar α] in
theorem SlotsValid.fresh {worldId : Text} {seed maxSlots : UInt32} {state : Snapshot α}
    (created : create worldId seed maxSlots = .ok state) :
    SlotsValid worldId seed maxSlots state := by
  obtain ⟨_, _, few, same⟩ := create_eq_ok.mp created
  have capacity : maxSlots.toNat ≤ 1024 := few
  rw [same]
  exact ⟨rfl, rfl, rfl, capacity, by simp, by simp⟩

/-- The moments of a batch are a run of the arena. -/
private theorem moments_run
    {worldId : Text} {seed maxSlots : UInt32} {revision : UInt64}
    {operations : List (Operation α)} :
    ∀ {index : Nat} {staging last : Staging α},
      SlotsValid worldId seed maxSlots staging.staged →
      applyOperations (plainContext revision) operations index staging () =
        .ok last () →
      Arena.Run lastGeneration (cells staging.staged)
          ((moments revision operations index staging).map arenaMoment) ∧
        (∀ moment, moment ∈ moments revision operations index staging →
          SlotsValid worldId seed maxSlots moment.after) ∧
        stateAfter staging.staged (moments revision operations index staging) =
          last.staged := by
  induction operations with
  | nil =>
      intro index staging last valid applied
      have same := (applyOperations_nil_eq_ok.mp applied).1
      subst same
      exact ⟨Arena.Run.nil _, by simp [moments], rfl⟩
  | cons operation rest inductionHypothesis =>
      intro index staging last valid applied
      obtain ⟨next, _, first, others⟩ := applyOperations_cons_eq_ok.mp applied
      obtain ⟨step, nextValid⟩ := moment_step valid first
      obtain ⟨run, allValid, final⟩ := inductionHypothesis nextValid others
      have unfolded :
          moments revision (operation :: rest) index staging =
            moment operation index staging next ::
              moments revision rest (index + 1) next := by
        rw [moments, first]
      rw [unfolded]
      refine ⟨Arena.Run.cons step run, ?_, final⟩
      intro later member
      rcases List.mem_cons.mp member with same | inRest
      · exact same ▸ nextValid
      · exact allValid later inRest

/-- The moments a boundary call adds: those of its batch, when it committed. -/
def committedMoments (world : LiveWorld α) (envelope : Envelope α)
    (result : Except Thrown Receipt) : List (Moment α) :=
  match result with
  | .ok receipt =>
      if receipt.status = ascii "committed" then
        moments (world.state.worldRevision + 1) envelope.operations 0
          ⟨world.state, [], []⟩
      else []
  | .error _ => []

/-- Boundary calls on one world, with every moment of their committed batches
in order. Calls may be refused, and any hooks and observers may stand by. -/
inductive History (library : JsonLibrary α) (start : LiveWorld α) :
    List (Moment α) → LiveWorld α → Prop
  | start : History library start [] start
  | call {log : List (Moment α)} {world : LiveWorld α} {σ τ : Type}
      (envelope : Envelope α) (guard : Option (StagingGuard α σ))
      (observer : Option (CommitObserver α τ)) (guardState : σ) (observerState : τ) :
      History library start log world →
      History library start
        (log ++
          committedMoments world envelope
            (applyAtBoundary library world envelope guard observer guardState
              observerState).result)
        (applyAtBoundary library world envelope guard observer guardState
          observerState).world

theorem committedMoments_refused
    {world : LiveWorld α} {envelope : Envelope α} {result : Except Thrown Receipt}
    {revision : UInt64} (refused : Refused revision result) :
    committedMoments world envelope result = [] := by
  unfold committedMoments
  split
  · rename_i receipt
    have status := (refused receipt rfl).1
    rw [status, if_neg (by decide)]
  · rfl

/-- A whole history is one run of the arena, and its last moment shows the
slots of the world. -/
theorem History.run {library : JsonLibrary α} {start world : LiveWorld α}
    {log : List (Moment α)} {worldId : Text} {seed maxSlots : UInt32}
    (startValid : SlotsValid worldId seed maxSlots start.state)
    (history : History library start log world) :
    Arena.Run lastGeneration (cells start.state) (log.map arenaMoment) ∧
      (∀ moment, moment ∈ log → SlotsValid worldId seed maxSlots moment.after) ∧
      SlotsValid worldId seed maxSlots world.state ∧
      world.state.slots = (stateAfter start.state log).slots := by
  induction history with
  | start => exact ⟨Arena.Run.nil _, by simp, startValid, rfl⟩
  | @call log world σ τ envelope guard observer guardState observerState past
      inductionHypothesis =>
      obtain ⟨run, allValid, valid, sameSlots⟩ := inductionHypothesis
      rcases apply_commits_or_keeps library world envelope guard observer none
          guardState observerState with
        ⟨next, created, ⟨_, staged, stagedOk, sameNext⟩, published, committed⟩ |
          ⟨kept, refused⟩
      · obtain ⟨last, _, applied, _, _, sameStaged, _⟩ := stage_eq_ok.mp stagedOk
        have batch :
            committedMoments world envelope
                (applyAtBoundary library world envelope guard observer guardState
                  observerState).result =
              moments (world.state.worldRevision + 1) envelope.operations 0
                ⟨world.state, [], []⟩ := by
          rw [applyAtBoundary, committed, committedMoments, committedReceipt,
            if_pos rfl]
        obtain ⟨batchRun, batchValid, final⟩ :=
          @moments_run α _ worldId seed maxSlots _ _ 0 ⟨world.state, [], []⟩ last valid
            applied
        have sameCells :
            cells world.state =
              Arena.cellsAfter (cells start.state) (log.map arenaMoment) := by
          rw [← cells_stateAfter, cells, cells, sameSlots]
        have nextSlots : next.slots = last.staged.slots := by
          rw [sameNext, sameStaged]
          rfl
        rw [batch]
        refine ⟨?_, ?_, ?_, ?_⟩
        · rw [List.map_append]
          exact Arena.run_append.mpr ⟨run, sameCells ▸ batchRun⟩
        · intro moment member
          rcases List.mem_append.mp member with earlier | now
          · exact allValid moment earlier
          · exact batchValid moment now
        · have lastValid : SlotsValid worldId seed maxSlots last.staged :=
            final ▸ stateAfter_valid valid batchValid
          rw [applyAtBoundary, published]
          refine lastValid.of_uuids ?_ (congrArg _ nextSlots)
          rw [sameNext, sameStaged]
          exact ⟨rfl, rfl, rfl⟩
        · rw [applyAtBoundary, published, stateAfter_append]
          refine nextSlots.trans ?_
          rw [← final]
          exact stateAfter_slots _ sameSlots
      · have nothing :
            committedMoments world envelope
                (applyAtBoundary library world envelope guard observer guardState
                  observerState).result = [] :=
          committedMoments_refused refused
        rw [nothing, List.append_nil, applyAtBoundary, kept]
        exact ⟨run, allValid, valid, sameSlots⟩

end Steps

section Safety

variable {α : Type}

/-- A target that names a handle of this world resolves exactly when the
handle is live in the arena of the slots. -/
theorem resolve_iff_live
    {worldId : Text} {seed maxSlots : UInt32} {state : Snapshot α}
    (valid : SlotsValid worldId seed maxSlots state)
    {target : Target} {names : Names} {identity : Identity}
    (named : namedBy target names = some ⟨worldId, identity.1, identity.2⟩)
    (path : Text) (index : Nat) :
    (∃ place, resolve state target names path index = .ok place) ↔
      Arena.Live (cells state) (handleOf identity) := by
  constructor
  · rintro ⟨⟨position, slot, entity⟩, resolved⟩
    obtain ⟨found, namedFound, _, located, live, awake, current⟩ :=
      resolve_eq_ok.mp resolved
    rw [named, Option.some.injEq] at namedFound
    subst namedFound
    obtain ⟨present, sameUuid, _⟩ := locate_eq_some.mp located
    refine ⟨cellOf slot, List.mem_map_of_mem (List.mem_of_getElem? present), ?_, ?_,
      awake⟩
    · have uuidEqual : slot.entityUuid = identity.1 := by simpa using sameUuid
      simp [Arena.Cell.handle, cellOf, handleOf, uuidEqual, current]
    · simp [cellOf, live]
  · rintro ⟨cell, member, same, occupied, awake⟩
    obtain ⟨slot, slotMember, sameCell⟩ := List.mem_map.mp member
    subst sameCell
    obtain ⟨position, present⟩ := List.mem_iff_getElem?.mp slotMember
    simp only [Arena.Cell.handle, cellOf, handleOf, Prod.mk.injEq] at same
    obtain ⟨sameUuid, sameGeneration⟩ := same
    obtain ⟨entity, live⟩ := Option.isSome_iff_exists.mp occupied
    have inside := (List.getElem?_eq_some_iff.mp present).1
    have few := valid.bounded
    have small := valid.small
    refine ⟨(position, slot, entity), resolve_eq_ok.mpr
      ⟨_, named, valid.worldId_eq.symm, locate_eq_some.mpr ⟨present, ?_, ?_⟩, live,
        awake, UInt64.toNat_inj.mp sameGeneration⟩⟩
    · simpa using sameUuid
    · intro earlier other before otherPresent
      have distinct : other.entityUuid ≠ identity.1 := by
        intro collision
        have samePosition :=
          uuid_injective (by omega) (by omega)
            ((valid.uuids earlier other otherPresent).symm.trans
              (collision.trans
                (sameUuid.symm.trans (valid.uuids position slot present))))
        omega
      simpa using distinct

/-- What handles promise over the whole life of a world: `log` holds every
operation of every committed batch, `final` is the world now. -/
structure HandleSafety (start : Snapshot α) (log : List (Moment α))
    (final : Snapshot α) : Prop where
  /-- Every slot's uuid is the one of its position, and capacity is respected. -/
  slots :
    ∀ past future,
      log = past ++ future →
      SlotsValid start.worldId start.seed start.maxSlots (stateAfter start past)
  distinct :
    ∀ past future,
      log = past ++ future →
      ((stateAfter start past).slots.map Slot.entityUuid).Nodup
  grows :
    ∀ past middle future,
      log = past ++ middle ++ future →
      (stateAfter start past).slots.map Slot.entityUuid <+:
        (stateAfter start (past ++ middle)).slots.map Slot.entityUuid
  issuedOnce : (issuedIn log).Nodup
  endedOnce : (endedIn log).Nodup
  endedAfterIssue :
    ∀ past future,
      log = past ++ future →
      ∀ identity, identity ∈ endedIn past → identity ∈ issuedIn past
  /-- Any target for the handle, in any state with the slots of that moment. -/
  resolves :
    ∀ past future,
      log = past ++ future →
      ∀ (state : Snapshot α) (identity : Identity) target names path index,
        state.slots = (stateAfter start past).slots →
        state.worldId = start.worldId →
        namedBy target names = some ⟨start.worldId, identity.1, identity.2⟩ →
        ((∃ place, resolve state target names path index = .ok place) ↔
          identity ∈ issuedIn past ∧ identity ∉ endedIn past)
  exhausted :
    ∀ past moment future,
      log = past ++ moment :: future →
      ∀ entityUuid,
        (entityUuid, maximum64) ∈ moment.ended →
        ∃ slot,
          slot ∈ moment.after.slots ∧ slot.entityUuid = entityUuid ∧
            slot.retired = true
  retired :
    ∀ past middle future,
      log = past ++ middle ++ future →
      ∀ (position : Nat) (slot : Slot α),
        (stateAfter start past).slots[position]? = some slot →
        slot.retired = true →
        slot.entity = none ∧
          ∃ later : Slot α,
            (stateAfter start (past ++ middle)).slots[position]? = some later ∧
              later.entityUuid = slot.entityUuid ∧ later.retired = true ∧
              later.entity = none
  final_slots : final.slots = (stateAfter start log).slots
  final_worldId : final.worldId = start.worldId

private theorem issuedIn_arena (log : List (Moment α)) :
    Arena.issuedIn (log.map arenaMoment) = (issuedIn log).map handleOf := by
  simp [Arena.issuedIn, issuedIn, List.flatMap_map, List.map_flatMap, arenaMoment]

private theorem endedIn_arena (log : List (Moment α)) :
    Arena.endedIn (log.map arenaMoment) = (endedIn log).map handleOf := by
  simp [Arena.endedIn, endedIn, List.flatMap_map, List.map_flatMap, arenaMoment]

private theorem mem_map_handleOf {identity : Identity} {identities : List Identity} :
    handleOf identity ∈ identities.map handleOf ↔ identity ∈ identities :=
  List.mem_map_of_injective handleOf_injective

variable [Scalar α]

/-- Handle safety: over any calls on a fresh world, each identity is issued at
most once and resolves exactly between its create and its delete. -/
theorem handles_safe
    {library : JsonLibrary α} {start world : LiveWorld α} {log : List (Moment α)}
    {worldId : Text} {seed maxSlots : UInt32}
    (fresh : create worldId seed maxSlots = .ok start.state)
    (history : History library start log world) :
    HandleSafety start.state log world.state := by
  obtain ⟨_, _, small, startState⟩ := create_eq_ok.mp fresh
  have startCells : cells start.state = [] := by
    rw [startState]
    rfl
  have startValid :
      SlotsValid start.state.worldId start.state.seed start.state.maxSlots
        start.state := by
    refine ⟨rfl, rfl, rfl, ?_, ?_, ?_⟩
    · rw [startState]
      exact UInt32.le_iff_toNat_le.mp small
    · rw [startState]
      exact Nat.zero_le _
    · rw [startState]
      intro position slot present
      exact absurd present (by simp)
  obtain ⟨run, allValid, valid, sameSlots⟩ := history.run startValid
  rw [startCells] at run
  have cut {past future : List (Moment α)} (split : log = past ++ future) :
      SlotsValid start.state.worldId start.state.seed start.state.maxSlots
          (stateAfter start.state past) ∧
        Arena.Accounts (cells (stateAfter start.state past))
          ((issuedIn past).map handleOf) ((endedIn past).map handleOf) ∧
        Arena.Run lastGeneration (cells (stateAfter start.state past))
          (future.map arenaMoment) := by
    subst split
    rw [List.map_append, Arena.run_append, ← startCells, ← cells_stateAfter] at run
    refine ⟨stateAfter_valid startValid fun moment member =>
      allValid moment (by simp [member]), ?_, run.2⟩
    have accounts := run.1.accounts (startCells ▸ Arena.Accounts.empty)
    rw [← cells_stateAfter, issuedIn_arena, endedIn_arena] at accounts
    simpa using accounts
  have kept {past middle future : List (Moment α)}
      (split : log = past ++ middle ++ future) :
      Arena.Keeps (cells (stateAfter start.state past))
        (cells (stateAfter start.state (past ++ middle))) := by
    obtain ⟨_, _, rest⟩ := cut (split.trans (List.append_assoc ..))
    rw [List.map_append, Arena.run_append] at rest
    have keeps := rest.1.keeps
    rw [← cells_stateAfter] at keeps
    rw [stateAfter_append]
    exact keeps
  have whole := (cut (List.append_nil log).symm).2.1
  refine
    { slots := fun past future split => (cut split).1
      distinct := ?_, grows := ?_
      issuedOnce := List.Nodup.of_map handleOf whole.issuedOnce
      endedOnce := List.Nodup.of_map handleOf whole.endedOnce
      endedAfterIssue := ?_, resolves := ?_, exhausted := ?_, retired := ?_
      final_slots := sameSlots
      final_worldId := valid.worldId_eq }
  · intro past future split
    have named := (cut split).2.1.named
    unfold Arena.Named at named
    simpa [cells, cellOf, Function.comp_def] using named
  · intro past middle future split
    have names := (kept split).names
    simpa [cells, cellOf, Function.comp_def] using names
  · intro past future split identity ended
    have accounts := (cut split).2.1
    have beyond := (accounts.ended_iff _ _).mp (mem_map_handleOf.mpr ended)
    obtain ⟨cell, member, name, positive, order⟩ := beyond
    refine mem_map_handleOf.mp ((accounts.issued_iff _ _).mpr
      ⟨cell, member, name, positive, ?_⟩)
    rcases order with less | ⟨same, retired⟩
    · exact Or.inl less
    · exact Or.inr ⟨same, Or.inr retired⟩
  · intro past future split state identity target names path index sameState
      sameWorld named
    obtain ⟨pastValid, accounts, _⟩ := cut split
    have sameCells : cells state = cells (stateAfter start.state past) := by
      rw [cells, cells, sameState]
    have stateValid :
        SlotsValid start.state.worldId start.state.seed start.state.maxSlots
          { state with
            seed := start.state.seed, maxSlots := start.state.maxSlots } :=
      ⟨sameWorld, rfl, rfl, pastValid.small, sameState ▸ pastValid.bounded,
        sameState ▸ pastValid.uuids⟩
    have live := resolve_iff_live stateValid named path index
    rw [show cells { state with
        seed := start.state.seed, maxSlots := start.state.maxSlots } =
          cells (stateAfter start.state past) from sameCells,
      accounts.live_iff, mem_map_handleOf, mem_map_handleOf] at live
    exact live
  · intro past moment future split entityUuid last
    obtain ⟨_, _, rest⟩ := cut split
    cases rest with
    | cons step _ =>
        have ended :
            (entityUuid, lastGeneration) ∈ (arenaMoment moment).ended :=
          List.mem_map.mpr ⟨(entityUuid, maximum64), last, rfl⟩
        obtain ⟨cell, member, name, retired⟩ := step.retires ended
        obtain ⟨slot, slotMember, sameCell⟩ := List.mem_map.mp member
        subst sameCell
        exact ⟨slot, slotMember, name, retired⟩
  · intro past middle future split position slot present retired
    have accounts := (cut (split.trans (List.append_assoc ..))).2.1
    have member : cellOf slot ∈ cells (stateAfter start.state past) :=
      List.mem_map_of_mem (List.mem_of_getElem? present)
    have vacant := (accounts.valid _ member).empty retired
    simp only [cellOf, Option.isSome_eq_false_iff, Option.isNone_iff_eq_none]
      at vacant
    obtain ⟨cell, cellPresent, _, _, unchanged⟩ :=
      kept split position (cellOf slot) (cells_getElem? present)
    rw [unchanged retired, cells, List.getElem?_map] at cellPresent
    obtain ⟨later, laterPresent, sameCell⟩ := Option.map_eq_some_iff.mp cellPresent
    simp only [cellOf, Arena.Cell.mk.injEq] at sameCell
    obtain ⟨sameName, _, sameOccupied, sameRetired⟩ := sameCell
    refine ⟨vacant, later, laterPresent, sameName, sameRetired.trans retired, ?_⟩
    rw [vacant] at sameOccupied
    simpa using sameOccupied

def createDelete : Envelope Halves :=
  sampleEnvelope 0
    [sampleCreate "a", .entityDelete ⟨sampleName "a", ascii "reject_if_children"⟩]

set_option maxRecDepth 20000 in
/-- A batch that creates an entity and deletes it again. -/
theorem handles_safe_createDelete :
    let applied := sampleApply sampleWorld createDelete
    let log := committedMoments sampleWorld createDelete applied.result
    issuedIn log = [(uuid 7 0, 1)] ∧ endedIn log = [(uuid 7 0, 1)] ∧
      HandleSafety sampleWorld.state log applied.world.state :=
  ⟨rfl, rfl,
    @handles_safe Halves _ JsonText.library sampleWorld _ _ (ascii "world") 7 4 rfl
      (@History.call Halves _ JsonText.library _ [] sampleWorld Unit Unit createDelete
        none none () () History.start)⟩

end Safety
end Omniweft.Transactions
