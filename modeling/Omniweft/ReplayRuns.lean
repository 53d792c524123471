import Mathlib.Data.List.Induction
import Omniweft.BatchSplit
import Omniweft.CanonicalWorlds
import Omniweft.Replay

/-!
# What a replay accepts

A list of records is a recording when each of them is a client's batch that was
committed on the world the ones before it made. The replay of a log accepts exactly
the recordings, and the recorder makes nothing else.
-/

namespace Omniweft.Replay

open Omniweft.Outcome World Commands Transactions

/-- A mapping that the checks of the replay pass. -/
structure Mapped (binding : CreatedBinding) : Prop where
  temporaryId : binding.temporaryId.length ≤ 64
  worldId : binding.worldId.length ≤ 128
  entityUuid : binding.entityUuid.length = 36
  generation : binding.generation ≠ 0

theorem malformedBinding_eq_false {binding : CreatedBinding} :
    malformedBinding binding = false ↔ Mapped binding := by
  unfold malformedBinding
  simp only [Bool.or_eq_false_iff, decide_eq_false_iff_not, Nat.not_lt, bne_eq_false_iff_eq,
    beq_eq_false_iff_ne]
  constructor
  · intro parts
    obtain ⟨⟨⟨temporaryId, worldId⟩, entityUuid⟩, generation⟩ := parts
    exact ⟨temporaryId, worldId, entityUuid, generation⟩
  · intro mapped
    exact ⟨⟨⟨mapped.temporaryId, mapped.worldId⟩, mapped.entityUuid⟩, mapped.generation⟩

section Issuing

variable {α : Type} [Scalar α]

/-- Slots in order, and no generation zero. -/
structure Numbered (worldId : Text) (seed maxSlots : UInt32) (state : Snapshot α) : Prop where
  slots : SlotsValid worldId seed maxSlots state
  positive : ∀ cell ∈ cells state, 1 ≤ cell.generation

variable {worldId : Text} {seed maxSlots : UInt32}

theorem uuid_length (seed : UInt32) (index : Nat) :
    (Transactions.uuid seed index).length = 36 := by
  simp [Transactions.uuid, ascii]

/-- What one operation issues is well formed, and it is one mapping at most. -/
theorem Numbered.step {revision : UInt64} {operation : Operation α} {index : Nat}
    {staging next : Staging α} (named : worldId.length ≤ 128)
    (numbered : Numbered worldId seed maxSlots staging.staged)
    (valid : ValidOperation operation)
    (applied :
      applyOperation (plainContext revision) operation index staging () = .ok next ()) :
    Numbered worldId seed maxSlots next.staged ∧
      ∃ issued, next.created = staging.created ++ issued ∧ issued.length ≤ 1 ∧
        ∀ binding ∈ issued, Mapped binding := by
  obtain ⟨stepped, slots⟩ := moment_step numbered.slots applied
  obtain ⟨positive, fresh⟩ := stepped.positive numbered.positive
  refine ⟨⟨slots, positive⟩, ?_⟩
  have nothing (same : next.created = staging.created) :
      ∃ issued, next.created = staging.created ++ issued ∧ issued.length ≤ 1 ∧
        ∀ binding ∈ issued, Mapped binding :=
    ⟨[], by rw [same, List.append_nil], Nat.zero_le 1,
      fun _ member => absurd member List.not_mem_nil⟩
  cases operation with
  | entityCreate operation =>
      obtain ⟨position, slot, base, _, _, allocated, _, _, rfl⟩ :=
        applyCreate_eq_ok.mp applied
      refine ⟨[bindingOf operation base slot], rfl, Nat.le_refl 1, ?_⟩
      intro binding member
      obtain rfl := List.mem_singleton.mp member
      have generation : slot.generation ≠ 0 := by
        have counted := fresh (handleOf (slot.entityUuid, slot.generation)) (by
          simp [arenaMoment, moment, afterCreate, bindingOf])
        intro zero
        rw [zero] at counted
        exact absurd counted (Nat.not_succ_le_zero 0)
      have world : base.worldId = worldId ∧ slot.entityUuid.length = 36 := by
        rcases allocate_eq_ok.mp allocated with
          ⟨found, rfl⟩ | ⟨_, _, _, sameSlot, rfl⟩
        · refine ⟨numbered.slots.worldId_eq, ?_⟩
          rw [numbered.slots.uuids position slot (locate_eq_some.mp found).1]
          exact uuid_length _ _
        · refine ⟨numbered.slots.worldId_eq, ?_⟩
          rw [sameSlot]
          exact uuid_length _ _
      refine ⟨validIdentifier_length valid.1, ?_, world.2, generation⟩
      rw [bindingOf, world.1]
      exact named
  | transformSet operation =>
      obtain ⟨_, _, _, _, _, _, _, _, _, _, _, _, rfl⟩ := applyTransform_eq_ok.mp applied
      exact nothing rfl
  | entityTagsSet operation =>
      obtain ⟨_, _, _, _, _, rfl⟩ := applyTagsSet_eq_ok.mp applied
      exact nothing rfl
  | entityReparent operation =>
      obtain ⟨_, _, _, _, _, _, _, _, _, _, _, rfl⟩ := applyReparent_eq_ok.mp applied
      exact nothing rfl
  | entityDelete operation =>
      obtain ⟨_, _, _, _, _, _, rfl⟩ := applyDelete_eq_ok.mp applied
      exact nothing rfl

theorem Numbered.run {revision : UInt64} {operations : List (Operation α)}
    (named : worldId.length ≤ 128) :
    ∀ {index : Nat} {staging last : Staging α},
      Numbered worldId seed maxSlots staging.staged →
      (∀ operation ∈ operations, ValidOperation operation) →
      applyOperations (plainContext revision) operations index staging () = .ok last () →
      Numbered worldId seed maxSlots last.staged ∧
        ∃ issued, last.created = staging.created ++ issued ∧
          issued.length ≤ operations.length ∧ ∀ binding ∈ issued, Mapped binding := by
  induction operations with
  | nil =>
      intro index staging last numbered _ applied
      obtain ⟨rfl, _⟩ := applyOperations_nil_eq_ok.mp applied
      exact ⟨numbered, [], (List.append_nil _).symm, Nat.le_refl 0,
        fun _ member => absurd member List.not_mem_nil⟩
  | cons operation rest inductionHypothesis =>
      intro index staging last numbered valid applied
      obtain ⟨next, _, first, others⟩ := applyOperations_cons_eq_ok.mp applied
      obtain ⟨numberedNext, front, grown, one, frontMapped⟩ :=
        numbered.step named (valid operation List.mem_cons_self) first
      obtain ⟨numberedLast, back, ends, few, backMapped⟩ := inductionHypothesis numberedNext
        (fun later member => valid later (List.mem_cons_of_mem _ member)) others
      refine ⟨numberedLast, front ++ back, ?_, ?_, ?_⟩
      · rw [ends, grown, List.append_assoc]
      · rw [List.length_append, List.length_cons]
        omega
      · intro binding member
        rcases List.mem_append.mp member with early | late
        · exact frontMapped binding early
        · exact backMapped binding late

omit [Scalar α] in
theorem Numbered.fresh {state : Snapshot α}
    (created : World.create worldId seed maxSlots = .ok state) :
    Numbered worldId seed maxSlots state := by
  refine ⟨SlotsValid.fresh created, ?_⟩
  obtain ⟨_, _, _, rfl⟩ := create_eq_ok.mp created
  simp [cells]

/-- What a committed batch issues. -/
theorem Numbered.commit {library : JsonLibrary α} (faithful : library.Faithful)
    {state next : Snapshot α} {envelope : Envelope α} {created : List CreatedBinding}
    (named : worldId.length ≤ 128) (numbered : Numbered worldId seed maxSlots state)
    (valid : ValidEnvelope envelope)
    (committed : Commits library state envelope next created) :
    Numbered worldId seed maxSlots next ∧
      created.length ≤ envelope.operations.length ∧
        ∀ binding ∈ created, Mapped binding := by
  obtain ⟨_, _, _, last, run, same, rfl⟩ := (commits_iff faithful valid).mp committed
  obtain ⟨numberedLast, issued, ends, few, mapped⟩ :=
    Numbered.run named numbered valid.operations run
  rw [List.nil_append] at ends
  refine ⟨⟨numbered.slots.commit committed, ?_⟩, ends ▸ few, ends ▸ mapped⟩
  rw [same]
  exact numberedLast.positive

end Issuing

section Checkpoints

open Authoring

variable {α : Type} [Scalar α]

theorem numbers_length (values : List α) : (numbers values).length = 8 * values.length := by
  simp [numbers, Nat.mul_comm]

theorem transformBytes_length (value : Transform α) : (transformBytes value).length = 80 := by
  simp [transformBytes, numbers_length, Vec3.toList, Quat.toList]

theorem flatMap_length_le {β : Type} {write : β → Bytes} {bound : Nat} {items : List β}
    (each : ∀ item ∈ items, (write item).length ≤ bound) :
    (items.flatMap write).length ≤ bound * items.length := by
  induction items with
  | nil => exact Nat.zero_le _
  | cons item rest inductionHypothesis =>
      have first := each item List.mem_cons_self
      have others := inductionHypothesis fun later member =>
        each later (List.mem_cons_of_mem _ member)
      rw [List.flatMap_cons, List.length_append, List.length_cons, Nat.mul_succ]
      omega

theorem tagBytes_length {tags : List Text} (few : tags.length ≤ 8)
    (short : ∀ tag ∈ tags, tag.length ≤ 32) : (tagBytes tags).length ≤ 292 := by
  have written : (tags.flatMap textBytes).length ≤ 36 * tags.length := by
    refine flatMap_length_le ?_
    intro tag member
    have bound := short tag member
    simp [textBytes]
    omega
  simp only [tagBytes, List.length_append, littleEndian_length]
  omega

theorem entityBytes_length {formatVersion : UInt32} {entity : Entity α}
    (labels : StoredLabels entity.prefabId entity.tags)
    (linked : ∀ link, entity.parent = some link → link.entityUuid.length = 36) :
    (entityBytes formatVersion entity).length ≤ 526 := by
  obtain ⟨builtin, _, few, short⟩ := labels
  have tags := tagBytes_length few short
  have parent : (parentBytes entity).length ≤ 125 := by
    cases held : entity.parent with
    | none => simp [parentBytes, held]
    | some link =>
        simp [parentBytes, held, transformBytes_length, linked link held]
  have cube : entity.prefabId.length = 17 := by
    rw [builtin]
    rfl
  simp only [entityBytes, List.length_append, textBytes, littleEndian_length,
    transformBytes_length, cube]
  have third : (if formatVersion = 3 then tagBytes entity.tags else []).length ≤ 292 := by
    split
    · exact tags
    · exact Nat.zero_le _
  have second : (if 2 ≤ formatVersion then parentBytes entity else []).length ≤ 125 := by
    split
    · exact parent
    · exact Nat.zero_le _
  omega

/-- A world of at most eight slots has a checkpoint far below the limit. -/
theorem checkpoint_fits {library : JsonLibrary α} {allowed : Envelope α → Prop}
    {world : LiveWorld α} (reachable : ReachableBy library allowed world)
    (few : world.state.slots.length ≤ 8) (named : world.state.worldId.length ≤ 128) :
    (canonicalBytes world.state).length ≤ checkpointLimit := by
  have encodable := reachable_encodable reachable
  have labels := reachable_labels reachable
  have slots : (world.state.slots.flatMap (slotBytes world.state.formatVersion)).length ≤
      572 * world.state.slots.length := by
    refine flatMap_length_le ?_
    intro slot member
    obtain ⟨position, present⟩ := List.mem_iff_getElem?.mp member
    have fits := encodable.slots slot member
    cases held : slot.entity with
    | none => simp [slotBytes, held, fits.entityUuid]
    | some entity =>
        have there : entityAt world.state position = some entity :=
          entityAt_eq_some.mpr ⟨slot, present, held⟩
        have inner := @entityBytes_length _ _ world.state.formatVersion entity
          (labels position entity there) (fits.entity entity held).parent
        simp [slotBytes, held, fits.entityUuid]
        omega
  simp only [canonicalBytes, List.length_append, formatMagic_length, textBytes,
    littleEndian_length]
  unfold checkpointLimit
  omega

end Checkpoints

section Recordings

variable {α : Type} [Scalar α] {library : JsonLibrary α}

/-- A client's batch that was committed on `state` and left `next`, as the record at the
position keeps it. -/
structure Recorded (library : JsonLibrary α) (position : Nat) (state : Snapshot α)
    (record : Record α) (next : Snapshot α) : Prop where
  sequence : record.sequence.toNat = position + 1
  expectedRevision : record.expectedRevision.toNat = position
  few : record.operations.length ≤ operationLimit
  checkpoint : record.checkpoint = canonicalBytes next
  batch :
    ∃ envelope, ValidEnvelope envelope ∧ envelope.budget = record.budget ∧
      envelope.operations = record.operations ∧
      Commits library state envelope next record.created

/-- The records of batches committed one after another, in ticks that never go back,
and the state they lead to. -/
inductive Recordings (library : JsonLibrary α) (fresh : Snapshot α) :
    List (Record α) → Snapshot α → Prop
  | none : Recordings library fresh [] fresh
  | more {records : List (Record α)} {state next : Snapshot α} {record : Record α} :
      Recordings library fresh records state →
      (∀ last, records.getLast? = some last → last.boundaryTick ≤ record.boundaryTick) →
      Recorded library records.length state record next →
      Recordings library fresh (records ++ [record]) next

theorem recordings_snoc {fresh next : Snapshot α} {records : List (Record α)}
    {record : Record α} :
    Recordings library fresh (records ++ [record]) next ↔
      ∃ state, Recordings library fresh records state ∧
        (∀ last, records.getLast? = some last → last.boundaryTick ≤ record.boundaryTick) ∧
        Recorded library records.length state record next := by
  constructor
  · intro recordings
    generalize joined : records ++ [record] = all at recordings
    cases recordings with
    | none => simp at joined
    | more before ordered recorded =>
        obtain ⟨rfl, same⟩ := List.append_inj' joined rfl
        obtain rfl := List.singleton_inj.mp same
        exact ⟨_, before, ordered, recorded⟩
  · intro parts
    obtain ⟨state, before, ordered, recorded⟩ := parts
    exact .more before ordered recorded

/-- What every recorded world has. -/
structure Fits (fresh : Snapshot α) (count : Nat) (library : JsonLibrary α)
    (state : Snapshot α) : Prop where
  reachable : Reachable library ⟨0, state⟩
  numbered : Numbered fresh.worldId fresh.seed fresh.maxSlots state
  revision : state.worldRevision.toNat = count

theorem Recordings.fits (faithful : library.Faithful) {worldId : Text}
    {seed maxSlots : UInt32} {fresh state : Snapshot α} {records : List (Record α)}
    (created : World.create worldId seed maxSlots = .ok fresh)
    (recordings : Recordings library fresh records state) :
    Fits fresh records.length library state := by
  obtain ⟨named, _, _, shape⟩ := create_eq_ok.mp created
  induction recordings with
  | none =>
      refine ⟨.fresh created, ?_, by rw [shape]; rfl⟩
      have numbered := Numbered.fresh created
      rw [shape] at numbered ⊢
      exact numbered
  | more before ordered recorded inductionHypothesis =>
      obtain ⟨reachable, numbered, revision⟩ := inductionHypothesis
      obtain ⟨envelope, valid, _, _, committed⟩ := recorded.batch
      have short : fresh.worldId.length ≤ 128 := by
        rw [shape]
        exact validIdentifier_length named
      have raised := committed.revision
      refine ⟨reachable.commit trivial committed,
        (numbered.commit faithful short valid committed).1, ?_⟩
      rw [raised.2, List.length_append, List.length_singleton, revision]

end Recordings

section Checks

variable {α : Type} [Scalar α] {library : JsonLibrary α}

theorem targetBounded_valid {target : Target} (valid : ValidTarget target) :
    Authoring.targetBounded target = true := by
  cases target with
  | temporary reference => exact decide_eq_true (validIdentifier_length valid)
  | entity reference =>
      simp only [Authoring.targetBounded, Bool.and_eq_true, decide_eq_true_eq]
      exact ⟨validIdentifier_length valid.1, (validUuid_length valid.2).le⟩

theorem operationBounded_valid {operation : Operation α} (valid : ValidOperation operation) :
    Authoring.operationBounded operation = true := by
  cases operation with
  | entityCreate operation =>
      simp only [Authoring.operationBounded, Bool.and_eq_true, decide_eq_true_eq]
      exact ⟨validIdentifier_length valid.1, validIdentifier_length valid.2⟩
  | transformSet operation => exact targetBounded_valid valid.1
  | entityTagsSet operation =>
      obtain ⟨target, few, labels, _⟩ := valid
      simp only [Authoring.operationBounded, Bool.and_eq_true, decide_eq_true_eq,
        List.all_eq_true]
      exact ⟨⟨targetBounded_valid target, few⟩,
        fun tag member => validIdentifier_length (labels tag member)⟩
  | entityReparent operation =>
      obtain ⟨target, parent, mode⟩ := valid
      simp only [Authoring.operationBounded, Bool.and_eq_true, decide_eq_true_eq,
        Option.all_eq_true]
      refine ⟨⟨targetBounded_valid target, ?_⟩,
        fun named given => targetBounded_valid (parent named given)⟩
      rcases mode with same | same <;> rw [same] <;> decide
  | entityDelete operation =>
      simp only [Authoring.operationBounded, Bool.and_eq_true, decide_eq_true_eq]
      refine ⟨targetBounded_valid valid.1, ?_⟩
      rw [valid.2]
      decide

/-- For a valid envelope the bounds of the replay are about the number of operations. -/
theorem bounded_valid {envelope : Envelope α} (valid : ValidEnvelope envelope) :
    bounded envelope = true ↔ envelope.operations.length ≤ operationLimit := by
  have header := valid.header
  have protocol : envelope.protocolVersion.length ≤ 16 := by
    rw [header.protocolVersion]
    decide
  have mode : envelope.applyAt.mode.length ≤ 32 := by
    rw [header.mode]
    decide
  have each : envelope.operations.all Authoring.operationBounded = true := by
    rw [List.all_eq_true]
    exact fun operation member => operationBounded_valid (valid.operations operation member)
  simp only [bounded, Authoring.bounded, protocol, validIdentifier_length header.worldId,
    (validUuid_length header.transactionId).le, validIdentifier_length header.epoch, mode,
    each, decide_true, Bool.true_and, Bool.and_true, decide_eq_true_eq]
  exact Iff.rfl

theorem operationsBounded_valid {operations : List (Operation α)}
    (valid : ∀ operation ∈ operations, ValidOperation operation)
    (few : operations.length ≤ operationLimit) : operationsBounded operations = true := by
  simp only [operationsBounded, few, decide_true, Bool.true_and, List.all_eq_true]
  exact fun operation member => operationBounded_valid (valid operation member)

/-- A batch that applies creates nothing but the built-in cube. -/
theorem applied_builtin {revision : UInt64} {operations : List (Operation α)} :
    ∀ {index : Nat} {staging last : Staging α},
      applyOperations (plainContext revision) operations index staging () = .ok last () →
      ∀ operation ∈ operations, foreignPrefab operation = false := by
  induction operations with
  | nil =>
      intro index staging last _ operation member
      cases member
  | cons first rest inductionHypothesis =>
      intro index staging last applied operation member
      obtain ⟨next, _, firstOk, others⟩ := applyOperations_cons_eq_ok.mp applied
      rcases List.mem_cons.mp member with rfl | later
      · cases operation with
        | entityCreate create =>
            obtain ⟨_, _, _, _, cube, _, _, _, _⟩ := applyCreate_eq_ok.mp firstOk
            simp [foreignPrefab, cube]
        | _ => rfl
      · exact inductionHypothesis others operation later

/-- The envelope of a replay is valid when the batch is. -/
theorem envelope_valid {log : Log α} {record : Record α}
    (named : validIdentifier 128 log.worldId = true)
    (numbered : record.sequence.toNat < 10) {client : Envelope α}
    (valid : ValidEnvelope client) (sameBudget : client.budget = record.budget)
    (sameOperations : client.operations = record.operations) :
    ValidEnvelope (envelope log record) where
  header :=
    { protocolVersion := rfl
      worldId := named
      transactionId := by
        change validUuid
          (ascii "018f7242-4387-7c98-a114-00000013000" ++ decimal record.sequence.toNat) = true
        generalize record.sequence.toNat = number at numbered
        interval_cases number <;> decide
      epoch := by
        change validIdentifier 128 (ascii "offline-replay-internal") = true
        decide
      mode := rfl
      expires :=
        ⟨(by decide : (120 : UInt64) ≠ 0), (by decide : (120 : UInt64) ≤ 4294967295)⟩
      budget := by
        change record.budget.maxOperations ≠ 0 ∧
          record.budget.maxOperations.toNat ≤ maxOperations
        rw [← sameBudget]
        exact valid.header.budget }
  nonempty := by
    change record.operations ≠ []
    exact sameOperations ▸ valid.nonempty
  withinBudget := by
    change record.operations.length ≤ record.budget.maxOperations.toNat
    rw [← sameOperations, ← sameBudget]
    exact valid.withinBudget
  operations := by
    change ∀ operation ∈ record.operations, ValidOperation operation
    rw [← sameOperations]
    exact valid.operations

theorem preflightRecord_eq_ok {log : Log α} {index : Nat} {tick : UInt64}
    {record : Record α} :
    preflightRecord library log index tick record = .ok () ↔
      record.sequence.toNat = index + 1 ∧ record.expectedRevision.toNat = index ∧
        tick ≤ record.boundaryTick ∧ record.checkpoint ≠ [] ∧
        record.checkpoint.length ≤ checkpointLimit ∧
        record.created.length ≤ operationLimit ∧ record.operations ≠ [] ∧
        operationsBounded record.operations = true ∧
        (∀ binding ∈ record.created, Mapped binding) ∧
        (∀ operation ∈ record.operations, foreignPrefab operation = false) ∧
        ∃ json, serialize library (envelope log record) = .ok json ∧
          json.length ≤ commandLimit := by
  unfold preflightRecord
  simp only [bind_eq_ok, rejectIf_eq_ok, exists_const, Bool.or_eq_false_iff,
    bne_eq_false_iff_eq, decide_eq_false_iff_not, UInt64.not_lt, Nat.not_lt,
    List.isEmpty_eq_false_iff, Bool.not_eq_false', List.any_eq_false, Bool.not_eq_true,
    malformedBinding_eq_false]
  cases serialized : serialize library (envelope log record) with
  | error errors => simp
  | ok json => simp [and_assoc]

/-- The tick after some records. -/
def tickAfter (tick : UInt64) (records : List (Record α)) : UInt64 :=
  (records.getLast?.map Record.boundaryTick).getD tick

theorem preflightRecords_snoc {log : Log α} {record : Record α} {records : List (Record α)} :
    ∀ {index : Nat} {tick : UInt64},
      preflightRecords library log index tick (records ++ [record]) = .ok () ↔
        preflightRecords library log index tick records = .ok () ∧
          preflightRecord library log (index + records.length) (tickAfter tick records)
            record = .ok () := by
  induction records with
  | nil =>
      intro index tick
      simp [preflightRecords, bind_eq_ok, tickAfter, Unique.exists_iff]
  | cons first rest inductionHypothesis =>
      intro index tick
      have sameTick : tickAfter tick (first :: rest) = tickAfter first.boundaryTick rest := by
        cases held : rest.getLast? with
        | none => simp [tickAfter, List.getLast?_cons, held]
        | some last => simp [tickAfter, List.getLast?_cons, held]
      have sameIndex : index + 1 + rest.length = index + (first :: rest).length := by
        rw [List.length_cons]
        omega
      rw [List.cons_append, preflightRecords, bind_eq_ok, preflightRecords, bind_eq_ok]
      simp only [Unique.exists_iff, inductionHypothesis, sameTick, sameIndex]
      exact and_assoc.symm

omit [Scalar α] in
theorem tickAfter_le {records : List (Record α)} {tick : UInt64} :
    tickAfter 0 records ≤ tick ↔
      ∀ last, records.getLast? = some last → last.boundaryTick ≤ tick := by
  cases held : records.getLast? with
  | none => simp [tickAfter, held]
  | some last => simp [tickAfter, held]

end Checks

section Replays

variable {α : Type} [Scalar α] {library : JsonLibrary α}

theorem replayRecord_eq_ok {log : Log α} {world final : LiveWorld α} {record : Record α} :
    replayRecord library log world record = .ok final ↔
      ∃ next, Commits library world.state (envelope log record) next record.created ∧
        record.checkpoint = canonicalBytes next ∧ final = { world with state := next } := by
  unfold replayRecord
  rcases apply_hookless library world (envelope log record) (some record.created) with
    ⟨staged, created, accepted, stagedOk, same⟩ | ⟨impossible, _, refused⟩
  · obtain ⟨plain, rfl⟩ := stage_replaying.mp stagedOk
    have committed : Commits library world.state (envelope log record)
        (published staged (world.state.worldRevision + 1)) record.created :=
      ⟨accepted, staged, plain, rfl⟩
    simp only [replayAtBoundary, same, committedReceipt, bne_self_eq_false, Bool.or_self,
      rejectIf_false, bind_eq_ok, rejectIf_eq_ok, bne_eq_false_iff_eq, exists_const,
      pure_eq_ok]
    constructor
    · intro agreed
      obtain ⟨_, checkpoint, replayed⟩ := agreed
      exact ⟨_, committed, checkpoint.symm, replayed.symm⟩
    · intro found
      obtain ⟨next, ⟨_, other, otherOk, rfl⟩, checkpoint, rfl⟩ := found
      have equal := otherOk.symm.trans plain
      simp only [EStateM.Result.ok.injEq, Prod.mk.injEq, and_true] at equal
      obtain rfl := equal
      exact ⟨trivial, checkpoint.symm, rfl⟩
  · constructor
    · intro replayed
      simp only [replayAtBoundary] at replayed
      cases answered : (apply library world (envelope log record)
          (none : Option (StagingGuard α Unit)) (none : Option (CommitObserver α Unit))
          (some record.created) () ()).result with
      | error thrown => simp [answered] at replayed
      | ok receipt =>
          simp only [answered, bind_eq_ok, rejectIf_eq_ok, Bool.or_eq_false_iff,
            bne_eq_false_iff_eq] at replayed
          obtain ⟨_, ⟨status, _⟩, _⟩ := replayed
          exact absurd ⟨receipt, answered, status⟩ refused
    · intro found
      obtain ⟨next, ⟨accepted, staged, stagedOk, _⟩, _⟩ := found
      exact absurd (stage_replaying.mpr ⟨stagedOk, rfl⟩) (impossible accepted _)

/-- Two valid envelopes for one world at one revision commit the same batch alike. -/
theorem commits_relabelled (faithful : library.Faithful) {state next : Snapshot α}
    {client internal : Envelope α} {created : List CreatedBinding}
    (valid : ValidEnvelope client) (internalValid : ValidEnvelope internal)
    (sameWorld : internal.worldId = state.worldId)
    (sameRevision : internal.expectedWorldRevision = state.worldRevision)
    (sameOperations : client.operations = internal.operations)
    (committed : Commits library state client next created) :
    Commits library state internal next created := by
  obtain ⟨_, _, below, applied⟩ := (commits_iff faithful valid).mp committed
  rw [sameOperations] at applied
  exact (commits_iff faithful internalValid).mpr ⟨sameWorld, sameRevision, below, applied⟩

/-- A recorded batch passes the checks and commits under the envelope of the replay. -/
theorem recorded_passes (faithful : library.Faithful) {log : Log α} {fresh : Snapshot α}
    (created : World.create log.worldId log.seed log.maxSlots = .ok fresh)
    (small : log.maxSlots ≤ 8) {records : List (Record α)} {record : Record α}
    {state next : Snapshot α} (few : records.length + 1 ≤ entryLimit)
    (recordings : Recordings library fresh records state)
    (ordered : ∀ last, records.getLast? = some last →
      last.boundaryTick ≤ record.boundaryTick)
    (recorded : Recorded library records.length state record next) :
    preflightRecord library log records.length (tickAfter 0 records) record = .ok () ∧
      Commits library state (envelope log record) next record.created := by
  obtain ⟨named, _, _, shape⟩ := create_eq_ok.mp created
  obtain ⟨client, valid, sameBudget, sameOperations, committed⟩ := recorded.batch
  have fits := recordings.fits faithful created
  have worldIds : fresh.worldId = log.worldId := by rw [shape]
  have single : record.sequence.toNat < 10 := by
    rw [recorded.sequence]
    unfold entryLimit at few
    omega
  have internalValid : ValidEnvelope (envelope log record) :=
    envelope_valid named single valid sameBudget sameOperations
  have sameRevision : record.expectedRevision = state.worldRevision := by
    apply UInt64.toNat_inj.mp
    rw [recorded.expectedRevision, fits.revision]
  have internal : Commits library state (envelope log record) next record.created :=
    commits_relabelled faithful valid internalValid
      (worldIds.symm.trans fits.numbered.slots.worldId_eq.symm) sameRevision
      sameOperations committed
  have short : fresh.worldId.length ≤ 128 := by
    rw [worldIds]
    exact validIdentifier_length named
  obtain ⟨numbered, issued, mapped⟩ :=
    fits.numbered.commit faithful short internalValid internal
  have reachable : Reachable library ⟨0, next⟩ := fits.reachable.commit trivial committed
  have checkpointFits : record.checkpoint.length ≤ checkpointLimit := by
    rw [recorded.checkpoint]
    refine @checkpoint_fits _ _ _ _ ⟨0, next⟩ reachable ?_ ?_
    · have room := numbered.slots.bounded
      rw [shape] at room
      exact room.trans small
    · have sameWorld : next.worldId = fresh.worldId := numbered.slots.worldId_eq
      exact sameWorld ▸ short
  obtain ⟨_, _, _, last, applied, _, _⟩ := (commits_iff faithful internalValid).mp internal
  obtain ⟨json, serialized, jsonFits⟩ := serialize_valid faithful internalValid
  have operationsFew : record.operations.length ≤ operationLimit := recorded.few
  refine ⟨preflightRecord_eq_ok.mpr ⟨recorded.sequence, recorded.expectedRevision,
    tickAfter_le.mpr ordered, ?_, checkpointFits, issued.trans operationsFew,
    internalValid.nonempty, operationsBounded_valid internalValid.operations operationsFew,
    mapped, applied_builtin applied, json, serialized, ?_⟩, internal⟩
  · rw [recorded.checkpoint]
    exact canonicalBytes_ne_nil _
  · change json.length ≤ 1000 + 1001 * record.operations.length at jsonFits
    unfold commandLimit
    unfold operationLimit at operationsFew
    omega

/-- The checks and the replay together accept exactly the recordings. -/
theorem replays_iff (faithful : library.Faithful) {log : Log α} {fresh : Snapshot α}
    (created : World.create log.worldId log.seed log.maxSlots = .ok fresh)
    (small : log.maxSlots ≤ 8) {records : List (Record α)} :
    ∀ {world : LiveWorld α}, records.length ≤ entryLimit →
      ((preflightRecords library log 0 0 records = .ok () ∧
          records.foldlM (replayRecord library log) ⟨0, fresh⟩ = .ok world) ↔
        Recordings library fresh records world.state ∧ world.address = 0) := by
  obtain ⟨named, _, _, shape⟩ := create_eq_ok.mp created
  induction records using List.reverseRecOn with
  | nil =>
      intro world _
      constructor
      · intro both
        obtain rfl := Except.ok.inj both.2
        exact ⟨.none, rfl⟩
      · intro both
        obtain ⟨address, state⟩ := world
        obtain ⟨recordings, same⟩ := both
        obtain rfl : address = 0 := same
        refine ⟨rfl, ?_⟩
        generalize empty : ([] : List (Record α)) = records at recordings
        cases recordings with
        | none => rfl
        | more before ordered recorded => simp at empty
  | append_singleton records record inductionHypothesis =>
      intro world few
      rw [List.length_append, List.length_singleton] at few
      have fewer : records.length ≤ entryLimit := by omega
      rw [preflightRecords_snoc, List.foldlM_append, bind_eq_ok, recordings_snoc]
      simp only [List.foldlM_cons, List.foldlM_nil, bind_pure, replayRecord_eq_ok,
        Nat.zero_add]
      constructor
      · intro both
        obtain ⟨⟨passed, recordPassed⟩, before, replayed, next, committed, checkpoint, rfl⟩ :=
          both
        obtain ⟨recordings, address⟩ := (inductionHypothesis fewer).mp ⟨passed, replayed⟩
        obtain ⟨sequence, expected, ordered, _, _, _, _, bounds, _, _, json, serialized, _⟩ :=
          preflightRecord_eq_ok.mp recordPassed
        simp only [operationsBounded, Bool.and_eq_true, decide_eq_true_eq] at bounds
        exact ⟨⟨before.state, recordings, tickAfter_le.mp ordered, sequence, expected,
          bounds.1, checkpoint, envelope log record, (serialize_eq_ok serialized).1, rfl, rfl,
          committed⟩, address⟩
      · intro both
        obtain ⟨⟨state, recordings, ordered, recorded⟩, address⟩ := both
        obtain ⟨passed, replayed⟩ :=
          (@inductionHypothesis ⟨0, state⟩ fewer).mpr ⟨recordings, rfl⟩
        obtain ⟨recordPassed, committed⟩ :=
          recorded_passes faithful created small few recordings ordered recorded
        exact ⟨⟨passed, recordPassed⟩, ⟨0, state⟩, replayed, world.state, committed,
          recorded.checkpoint, by rw [← address]⟩

/-- The logs that can be replayed. -/
structure Replayable (library : JsonLibrary α) (log : Log α) (available : List Asset)
    (state : Snapshot α) : Prop where
  shape : log = .of log.worldId log.seed log.maxSlots log.records
  small : log.maxSlots ≤ 8
  few : log.records.length ≤ entryLimit
  assets : available.length ≤ 8 ∧ Asset.builtin ∈ available
  recordings :
    ∃ fresh, World.create log.worldId log.seed log.maxSlots = .ok fresh ∧
      Recordings library fresh log.records state

theorem preflight_eq_ok {log : Log α} {available : List Asset} :
    preflight library log available = .ok () ↔
      log = .of log.worldId log.seed log.maxSlots log.records ∧
        (log.worldId ≠ [] ∧ log.worldId.length ≤ 128 ∧ log.maxSlots ≠ 0 ∧
          log.maxSlots ≤ 8 ∧ log.records.length ≤ entryLimit) ∧
        (available.length ≤ 8 ∧ Asset.builtin ∈ available) ∧
        preflightRecords library log 0 0 log.records = .ok () := by
  obtain ⟨schema, commandSchema, checkpointSchema, worldId, seed, maxSlots, assets, records⟩ :=
    log
  simp only [preflight, bind_eq_ok, rejectIf_eq_ok, exists_const, Bool.or_eq_false_iff,
    bne_eq_false_iff_eq, decide_eq_false_iff_not, Nat.not_lt, UInt32.not_lt,
    List.isEmpty_eq_false_iff, beq_eq_false_iff_ne, Bool.not_eq_false',
    List.contains_iff_mem, Log.of, Log.mk.injEq]
  tauto

theorem rebuild_eq_ok (faithful : library.Faithful) {log : Log α} {available : List Asset}
    {world : LiveWorld α} :
    rebuild library log available = .ok world ↔
      Replayable library log available world.state ∧ world.address = 0 := by
  unfold rebuild
  simp only [bind_eq_ok, mapError_eq_ok, Unique.exists_iff, PUnit.default_eq_unit]
  rw [preflight_eq_ok]
  constructor
  · intro rebuilt
    obtain ⟨⟨shape, ⟨_, _, _, small, few⟩, assets, checked⟩, fresh, created, replayed⟩ :=
      rebuilt
    obtain ⟨recordings, address⟩ :=
      (replays_iff faithful created small few).mp ⟨checked, replayed⟩
    exact ⟨⟨shape, small, few, assets, fresh, created, recordings⟩, address⟩
  · intro both
    obtain ⟨⟨shape, small, few, assets, fresh, created, recordings⟩, address⟩ := both
    obtain ⟨checked, replayed⟩ :=
      (replays_iff faithful created small few).mpr ⟨recordings, address⟩
    obtain ⟨named, positive, _, _⟩ := create_eq_ok.mp created
    refine ⟨⟨shape, ⟨?_, validIdentifier_length named, positive, small, few⟩, assets, checked⟩,
      fresh, created, replayed⟩
    intro empty
    rw [empty] at named
    exact absurd named (by decide)

/-- The replay gives the world of the recording, or one error and no world. -/
theorem reconstruct_cases (faithful : library.Faithful) (log : Log α)
    (available : List Asset) :
    (∃ state, Replayable library log available state ∧
        reconstruct library log available = .ok ⟨some ⟨0, state⟩, []⟩) ∨
      ((∀ state, ¬ Replayable library log available state) ∧
        ∀ world errors, reconstruct library log available ≠ .ok ⟨some world, errors⟩) := by
  unfold reconstruct
  cases rebuilt : rebuild library log available with
  | ok world =>
      obtain ⟨replayable, address⟩ := (rebuild_eq_ok faithful).mp rebuilt
      refine Or.inl ⟨world.state, replayable, ?_⟩
      rw [← address]
  | error thrown =>
      refine Or.inr ⟨?_, ?_⟩
      · intro state replayable
        have impossible := (@rebuild_eq_ok _ _ _ faithful _ _ ⟨0, state⟩).mpr
          ⟨replayable, rfl⟩
        rw [rebuilt] at impossible
        cases impossible
      · intro world errors
        cases thrown <;> simp

end Replays

end Omniweft.Replay
