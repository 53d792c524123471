import Omniweft.PersistenceCodec
import Omniweft.ReplayRecorder

/-!
# What the operations of a store do

A submission leaves the store as it was, or extends its package by one item and its
world by one commit. A failure in between seals the store and leaves a part of the new
frame behind the journal.
-/

namespace Omniweft.Persistence

open Omniweft.Outcome World Commands Transactions

section Commits

variable {α : Type} [Scalar α] {library : JsonLibrary α}

/-- The item of the next commit. -/
def nextItem (count : Nat) (tick : UInt64) (payload : Text) (envelope : Envelope α)
    (created : List CreatedBinding) (next : Snapshot α) : Item α where
  entry := ⟨UInt64.ofNat (count + 1), tick, payload, created, canonicalBytes next⟩
  envelope := envelope

/-- What `apply_await_durable` checks before it calls the coordinator. -/
structure Submittable (library : JsonLibrary α) (package : Package) (envelope : Envelope α)
    (tick : UInt64) (payload : Text) : Prop where
  sized : bounded envelope = true
  serialized : serialize library envelope = .ok payload
  epoch : envelope.idempotency.epoch = package.epoch
  sequence : envelope.idempotency.sequence.toNat = package.high + 1
  room : package.high < commitLimit
  ordered : ∀ last, package.entries.getLast? = some last → last.tick ≤ tick

variable {config : Config} {epoch : Text} {items : List (Item α)} {state : Snapshot α}

theorem Stored.fits (faithful : library.Faithful)
    (stored : Stored library config epoch items state) :
    state.worldRevision.toNat = items.length ∧ state.worldId = config.worldId ∧
      Reachable library ⟨0, state⟩ := by
  obtain ⟨fresh, created, recordings⟩ := stored.recordings
  obtain ⟨_, _, _, shape⟩ := World.create_eq_ok.mp created
  have fits := recordings.fits faithful created
  refine ⟨by rw [fits.revision, List.length_map], ?_, fits.reachable⟩
  rw [fits.numbered.slots.worldId_eq, shape]

/-- A submission that commits extends what is stored by its item. -/
theorem Stored.commit (faithful : library.Faithful)
    (stored : Stored library config epoch items state) {envelope : Envelope α}
    {tick : UInt64} {payload : Text} {next : Snapshot α} {created : List CreatedBinding}
    (submittable :
      Submittable library (packageOf config epoch items) envelope tick payload)
    (committed : Commits library state envelope next created) :
    Stored library config epoch
      (items ++ [nextItem items.length tick payload envelope created next]) next := by
  obtain ⟨sized, serialized, sameEpoch, sequence, room, ordered⟩ := submittable
  rw [packageOf_high] at sequence room
  have valid := (serialize_eq_ok serialized).1
  have small : (UInt64.ofNat (items.length + 1)).toNat = items.length + 1 := by
    refine UInt64.toNat_ofNat_of_lt' (Nat.lt_of_le_of_lt room (by decide))
  obtain ⟨revision, worldId, _⟩ := stored.fits faithful
  obtain ⟨sameWorld, sameRevision, _⟩ := (commits_iff faithful valid).mp committed
  have position : envelope.expectedWorldRevision.toNat = items.length := by
    rw [sameRevision, revision]
  have lasts : ∀ last, items.getLast? = some last → last.entry.tick ≤ tick := by
    intro last held
    refine ordered last.entry ?_
    change (items.map Item.entry).getLast? = _
    rw [List.getLast?_map, held]
    rfl
  refine ⟨stored.configured, stored.spelled, ?_, ?_, ?_⟩
  · rw [List.length_append, List.length_singleton]
    exact room
  · refine (Logs.each_snoc _ _).mpr ⟨stored.lawful, small, lasts, ?_⟩
    exact (storedCommand_eq_ok faithful).mpr ⟨serialized, sized, sameWorld.trans worldId,
      position, sequence, sameEpoch⟩
  · obtain ⟨fresh, made, recordings⟩ := stored.recordings
    refine ⟨fresh, made, ?_⟩
    rw [List.map_append, List.map_singleton]
    refine .more recordings ?_ ?_
    · intro last held
      rw [List.getLast?_map, Option.map_eq_some_iff] at held
      obtain ⟨item, found, rfl⟩ := held
      exact lasts item found
    · have few := sized
      simp only [bounded, Bool.and_eq_true] at few
      rw [List.length_map]
      exact ⟨small, position, (Replay.bounded_valid valid).mp few.1, rfl, envelope, valid, rfl,
        rfl, committed⟩

omit [Scalar α] in
/-- The package after one more item. -/
theorem packageOf_snoc (config : Config) (epoch : Text) (items : List (Item α))
    (item : Item α) :
    packageOf config epoch (items ++ [item]) =
      (packageOf config epoch items).extend item.entry item.receipt := by
  simp only [packageOf, Package.extend, List.map_append, List.map_singleton,
    List.length_append, List.length_singleton, List.length_map, List.length_drop,
    Package.mk.injEq, true_and]
  have limit : receiptLimit = 4 := rfl
  by_cases many : 4 < items.length
  · have before : lowWater items.length = items.length - 3 := by
      simp only [lowWater, limit, if_pos many]
      omega
    have afterwards : lowWater (items.length + 1) = items.length - 2 := by
      simp only [lowWater, limit, if_pos (show 4 < items.length + 1 by omega)]
      omega
    rw [before, afterwards, limit, if_pos (by omega), List.drop_append]
    have none : items.length - 2 - 1 - items.length = 0 := by omega
    have next : items.length - 2 - 1 = items.length - 3 - 1 + 1 := by omega
    rw [none, List.drop_zero, next, ← List.drop_drop, List.map_append, List.map_singleton,
      List.tail_append_of_ne_nil (by simp; omega), List.drop_one, List.map_tail]
  · have before : lowWater items.length = 1 := by
      simp only [lowWater, limit, if_neg many]
    rw [before, limit]
    by_cases full : items.length = 4
    · have afterwards : lowWater (items.length + 1) = 2 := by
        rw [full]
        rfl
      rw [afterwards, if_pos (by omega), List.drop_append]
      have none : 2 - 1 - items.length = 0 := by omega
      rw [none, List.drop_zero, List.map_append, List.map_singleton,
        List.tail_append_of_ne_nil (by simp; intro empty; simp [empty] at full)]
      simp
    · have afterwards : lowWater (items.length + 1) = 1 := by
        simp only [lowWater, limit, if_neg (show ¬ 4 < items.length + 1 by omega)]
      rw [afterwards, if_neg (by omega)]
      simp

end Commits

section Observing

variable {α : Type} [Scalar α] {sha256 : Bytes → Vector UInt8 32}

/-- The package that the observer prepares. -/
def preparedPackage (package : Package) (payload : Text) (tick : UInt64)
    (staged : Snapshot α) (receipt : Receipt) : Package :=
  package.extend
    ⟨UInt64.ofNat (package.high + 1), tick, payload, receipt.created, canonicalBytes staged⟩
    { receipt with durability := ascii "durable" }

/-- The answer that goes with it. -/
def preparedResult (append : Append) (prepared : Package) (receipt : Receipt) : Result :=
  { append.result with
    receipt := some { receipt with durability := ascii "durable" }
    durableRevision := prepared.high
    highWater := prepared.high
    lowWater := prepared.low }

/-- The observer's state when it comes to the files. -/
def Append.planned (append : Append) (prepared : Package) (receipt : Receipt) : Append :=
  { append with prepared := prepared, result := preparedResult append prepared receipt }

/-- The observer's state with the bytes behind the journal. -/
def Append.wrote (append : Append) (bytes : Bytes) : Append :=
  { append with
    touched := true
    disk := { append.disk with journal := append.disk.journal ++ bytes } }

theorem appendFrame_whole {bytes : Bytes} {stop : Option AppendStop} {append : Append}
    (whole : ∀ kept, stop ≠ some (.writing kept)) :
    appendFrame bytes stop append = .ok () (append.wrote bytes) := by
  cases stop with
  | none => rfl
  | some place =>
      cases place with
      | writing kept => exact absurd rfl (whole kept)
      | answering => rfl

theorem appendFrame_part (bytes : Bytes) (kept : Nat) (append : Append) :
    appendFrame bytes (some (.writing kept)) append =
      .error .other (append.wrote (bytes.take kept)) :=
  rfl

variable {payload : Text} {tick : UInt64} {staged : Snapshot α} {receipt : Receipt}
  {append : Append}

/-- What the observer asks for before it touches the files. -/
structure Reserved (sha256 : Bytes → Vector UInt8 32) (sizes : List Nat) (staged : Snapshot α)
    (prepared : Package) (bytes : Bytes) : Prop where
  small : (canonicalBytes staged).length ≤ Replay.checkpointLimit
  framed : frame sha256 prepared = .ok bytes
  room : quota sizes prepared bytes.length = .ok ()

theorem observer_writes {bytes : Bytes}
    (reserved : Reserved sha256 append.disk.sizes staged
      (preparedPackage append.package payload tick staged receipt) bytes)
    (stop : Option AppendStop) :
    (observer sha256 payload tick stop).prepare staged receipt append =
      appendFrame bytes stop
        (append.planned (preparedPackage append.package payload tick staged receipt)
          receipt) := by
  have allowed : rejectIf (decide (Replay.checkpointLimit < (canonicalBytes staged).length))
      (ascii "BUDGET_EXCEEDED") = .ok () :=
    rejectIf_eq_ok.mpr (decide_eq_false (Nat.not_lt.mpr reserved.small))
  unfold observer
  refine (stateful_bind_of_ok (stateful_get_eq_ok.mpr ⟨rfl, rfl⟩)).trans ?_
  refine (stateful_bind_of_ok (attempt_eq_ok.mpr ⟨allowed, rfl⟩)).trans ?_
  refine (stateful_bind_of_ok ((@stateful_modify_eq_ok _ _ _ _ _ ()).mpr rfl)).trans ?_
  refine (stateful_bind_of_ok (attempt_eq_ok.mpr ⟨reserved.framed, rfl⟩)).trans ?_
  exact stateful_bind_of_ok (attempt_eq_ok.mpr ⟨reserved.room, rfl⟩)

/-- A batch that the observer stops by itself has not touched the files. -/
theorem observer_refuses
    (never : ∀ bytes, ¬ Reserved sha256 append.disk.sizes staged
      (preparedPackage append.package payload tick staged receipt) bytes)
    (stop : Option AppendStop) :
    ∃ code final,
      (observer sha256 payload tick stop).prepare staged receipt append =
          .error (.failure code) final ∧
        final.disk = append.disk ∧ final.package = append.package ∧
        final.touched = append.touched := by
  by_cases small : (canonicalBytes staged).length ≤ Replay.checkpointLimit
  · have allowed : rejectIf (decide (Replay.checkpointLimit < (canonicalBytes staged).length))
        (ascii "BUDGET_EXCEEDED") = .ok () :=
      rejectIf_eq_ok.mpr (decide_eq_false (Nat.not_lt.mpr small))
    have later (code : Text)
        (stops : frame sha256 (preparedPackage append.package payload tick staged receipt) =
            .error code ∨
          ∃ bytes, frame sha256 (preparedPackage append.package payload tick staged receipt) =
              .ok bytes ∧
            quota append.disk.sizes
              (preparedPackage append.package payload tick staged receipt) bytes.length =
                .error code) :
        (observer sha256 payload tick stop).prepare staged receipt append =
          .error (.failure code)
            (append.planned (preparedPackage append.package payload tick staged receipt)
              receipt) := by
      unfold observer
      refine (stateful_bind_of_ok (stateful_get_eq_ok.mpr ⟨rfl, rfl⟩)).trans ?_
      refine (stateful_bind_of_ok (attempt_eq_ok.mpr ⟨allowed, rfl⟩)).trans ?_
      refine (stateful_bind_of_ok ((@stateful_modify_eq_ok _ _ _ _ _ ()).mpr rfl)).trans ?_
      rcases stops with unframed | ⟨bytes, framed, full⟩
      · exact stateful_bind_eq_error.mpr
          (Or.inl (attempt_eq_error.mpr ⟨⟨code, unframed, rfl⟩, rfl⟩))
      · refine (stateful_bind_of_ok (attempt_eq_ok.mpr ⟨framed, rfl⟩)).trans ?_
        exact stateful_bind_eq_error.mpr
          (Or.inl (attempt_eq_error.mpr ⟨⟨code, full, rfl⟩, rfl⟩))
    cases framed : frame sha256
        (preparedPackage append.package payload tick staged receipt) with
    | error code => exact ⟨code, _, later code (Or.inl framed), rfl, rfl, rfl⟩
    | ok bytes =>
        cases room : quota append.disk.sizes
            (preparedPackage append.package payload tick staged receipt) bytes.length with
        | error code => exact ⟨code, _, later code (Or.inr ⟨bytes, framed, room⟩), rfl, rfl, rfl⟩
        | ok done => exact absurd ⟨small, framed, room⟩ (never bytes)
  · refine ⟨ascii "BUDGET_EXCEEDED", append, ?_, rfl, rfl, rfl⟩
    unfold observer
    refine (stateful_bind_of_ok (stateful_get_eq_ok.mpr ⟨rfl, rfl⟩)).trans ?_
    exact stateful_bind_eq_error.mpr (Or.inl (attempt_eq_error.mpr
      ⟨⟨_, rejectIf_eq_error.mpr ⟨decide_eq_true (Nat.not_le.mp small), rfl⟩, rfl⟩, rfl⟩))

end Observing

end Omniweft.Persistence
