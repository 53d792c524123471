import Omniweft.PersistenceDisk

/-!
# Submissions to a store

A submission is refused, or its key is known, or it goes to the coordinator, which leaves
everything as it was or commits one more item. What a failure in between leaves is the old
store with a part of the new frame, or the new store without an answer.
-/

namespace Omniweft.Persistence

open Omniweft.Outcome World Commands Transactions

section Submitting

variable {α : Type} [Scalar α] {library : JsonLibrary α} {sha256 : Bytes → Vector UInt8 32}
  {config : Config} {epoch : Text} {items : List (Item α)} {state : Snapshot α}

/-- The store whose package and world are those of the items. -/
def storeOf (config : Config) (epoch : Text) (items : List (Item α)) (state : Snapshot α) :
    Store α :=
  ⟨packageOf config epoch items, ⟨0, state⟩, false⟩

/-- The frame that a commit appends to the journal. -/
def frameOf (sha256 : Bytes → Vector UInt8 32) (config : Config) (epoch : Text)
    (items : List (Item α)) : Bytes :=
  (Frame.of (packageOf config epoch items)).spelled sha256

/-- What a submission leaves that the coordinator commits: a part of the frame and a sealed
store, or the whole frame and the new store. -/
def written (sha256 : Bytes → Vector UInt8 32) (config : Config) (epoch : Text)
    (items : List (Item α)) (item : Item α) (state next : Snapshot α) (disk : Disk)
    (stop : Option AppendStop) : Answered α :=
  let bytes := frameOf sha256 config epoch (items ++ [item])
  let after := storeOf config epoch (items ++ [item]) next
  match stop with
  | some (.writing kept) =>
      .unknown (storeOf config epoch items state)
        { disk with journal := disk.journal ++ bytes.take kept }
  | some .answering => .unknown after { disk with journal := disk.journal ++ bytes }
  | none =>
      ⟨{ after.result [] with receipt := some item.receipt }, after,
        { disk with journal := disk.journal ++ bytes }⟩

omit [Scalar α] in
theorem storeOf_high : (storeOf config epoch items state).package.high = items.length :=
  packageOf_high config epoch items

omit [Scalar α] in
theorem storeOf_low : (storeOf config epoch items state).package.low = lowWater items.length := by
  rw [Package.low, storeOf_high]

omit [Scalar α] in
theorem result_storeOf (code : Text) :
    (storeOf config epoch items state).result code =
      ⟨none, false, items.length, items.length, lowWater items.length, false, code⟩ := by
  simp only [storeOf, Store.result, Package.low, packageOf_high]

/-- The receipt that the store keeps is the coordinator's, made durable. -/
theorem receipt_durable (faithful : library.Faithful)
    (stored : Stored library config epoch items state) (tick : UInt64) (payload : Text)
    (envelope : Envelope α) (created : List CreatedBinding) (next : Snapshot α) :
    ({ committedReceipt (initialReceipt false envelope state.worldRevision)
        (state.worldRevision + 1) created with durability := ascii "durable" } : Receipt) =
      (nextItem items.length tick payload envelope created next).receipt := by
  have revision := (stored.fits faithful).1
  have same : state.worldRevision + 1 = UInt64.ofNat (items.length + 1) := by
    rw [← revision, UInt64.ofNat_add, UInt64.ofNat_toNat]
    rfl
  rw [same]
  rfl

theorem preparedPackage_eq (payload : Text) (tick : UInt64) (staged : Snapshot α)
    (receipt : Receipt) (item : Item α)
    (entry : item.entry =
      ⟨UInt64.ofNat (items.length + 1), tick, payload, receipt.created, canonicalBytes staged⟩)
    (durable : { receipt with durability := ascii "durable" } = item.receipt) :
    preparedPackage (packageOf config epoch items) payload tick staged receipt =
      packageOf config epoch (items ++ [item]) := by
  rw [packageOf_snoc, preparedPackage, packageOf_high, entry, durable]

/-- The coordinator's part of a submission. -/
def coordinated (library : JsonLibrary α) (sha256 : Bytes → Vector UInt8 32) (store : Store α)
    (disk : Disk) (envelope : Envelope α) (payload : Text) (tick : UInt64)
    (stop : Option AppendStop) : Applied α Unit Append :=
  applyAtBoundary library store.world envelope (none : Option (StagingGuard α Unit))
    (some (observer sha256 payload tick stop)) () (.start store disk)

/-- The store that the coordinator leaves. -/
def Store.after (store : Store α) (applied : Applied α Unit Append) : Store α :=
  ⟨applied.observer.package, applied.world, store.isSealed⟩

section Endings

variable {store : Store α} {disk : Disk} {envelope : Envelope α} {payload : Text}
  {tick : UInt64} {stop : Option AppendStop} {applied : Applied α Unit Append}
  {receipt : Receipt}

theorem append_published
    (same : coordinated library sha256 store disk envelope payload tick stop = applied)
    (answered : applied.result = .ok receipt) (committed : receipt.status = ascii "committed") :
    store.append library sha256 disk envelope payload tick stop =
      if stop = some .answering then .unknown (store.after applied) applied.observer.disk
      else ⟨applied.observer.result, store.after applied, applied.observer.disk⟩ := by
  have passed : (receipt.status != ascii "committed") = false := by
    rw [committed, bne_self_eq_false]
  unfold coordinated at same
  unfold Store.append
  rw [same]
  dsimp only
  rw [answered]
  dsimp only
  rw [passed]
  rfl

theorem append_rejected
    (same : coordinated library sha256 store disk envelope payload tick stop = applied)
    (answered : applied.result = .ok receipt) (rejected : receipt.status ≠ ascii "committed") :
    let answered := store.append library sha256 disk envelope payload tick stop
    answered.store = store.after applied ∧ answered.disk = applied.observer.disk ∧
      answered.result.receipt = some receipt := by
  unfold coordinated at same
  unfold Store.append
  rw [same]
  dsimp only
  rw [answered]
  dsimp only
  rw [if_pos (bne_iff_ne.mpr rejected)]
  exact ⟨rfl, rfl, rfl⟩

theorem append_thrown {thrown : Thrown}
    (same : coordinated library sha256 store disk envelope payload tick stop = applied)
    (stopped : applied.result = .error thrown) :
    (applied.observer.touched = true →
        store.append library sha256 disk envelope payload tick stop =
          .unknown (store.after applied) applied.observer.disk) ∧
      (applied.observer.touched = false →
        let answered := store.append library sha256 disk envelope payload tick stop
        answered.store = store.after applied ∧ answered.disk = applied.observer.disk ∧
          answered.result.receipt = none) := by
  unfold coordinated at same
  unfold Store.append
  rw [same]
  dsimp only
  rw [stopped]
  dsimp only
  constructor
  · intro touched
    rw [if_pos touched]
    rfl
  · intro untouched
    rw [if_neg (Bool.eq_false_iff.mp untouched)]
    exact ⟨rfl, rfl, rfl⟩

end Endings

/-- A batch that commits, but not past its observer, is refused. -/
theorem applyAtBoundary_stops {τ : Type} {world : LiveWorld α} {envelope : Envelope α}
    {observer : CommitObserver α τ} {before stopped : τ} {thrown : Thrown}
    {next : Snapshot α} {created : List CreatedBinding}
    (committed : Commits library world.state envelope next created)
    (prepared :
      observer.prepare next
        (committedReceipt (initialReceipt false envelope world.state.worldRevision)
          (world.state.worldRevision + 1) created) before = .error thrown stopped) :
    applyAtBoundary library world envelope (none : Option (StagingGuard α Unit))
        (some observer) () before =
      refuse (initialReceipt false envelope world.state.worldRevision) world thrown () stopped := by
  obtain ⟨accepted, staged, stagedOk, rfl⟩ := committed
  have quiet : stage (⟨none, none, world.state.worldRevision + 1⟩ : Context α Unit) world.state
      envelope.operations () = .ok (staged, created) () := stagedOk
  simp only [applyAtBoundary, apply, Context.notify, accepted, quiet, Transactions.prepare,
    Option.isSome_none, prepared]
  rfl

/-- The coordinator commits the batch, and the observer writes its frame. -/
theorem append_writes (faithful : library.Faithful)
    (stored : Stored library config epoch items state) {envelope : Envelope α}
    {tick : UInt64} {payload : Text} {next : Snapshot α} {created : List CreatedBinding}
    (committed : Commits library state envelope next created) {disk : Disk} {bytes : Bytes}
    (reserved : Reserved sha256 disk.sizes next
      (packageOf config epoch
        (items ++ [nextItem items.length tick payload envelope created next])) bytes)
    (stop : Option AppendStop) :
    (storeOf config epoch items state).append library sha256 disk envelope payload tick stop =
      written sha256 config epoch items
        (nextItem items.length tick payload envelope created next) state next disk stop := by
  let store := storeOf config epoch items state
  let item := nextItem items.length tick payload envelope created next
  let receipt := committedReceipt (initialReceipt false envelope state.worldRevision)
    (state.worldRevision + 1) created
  have durable : { receipt with durability := ascii "durable" } = item.receipt :=
    receipt_durable faithful stored tick payload envelope created next
  have package : preparedPackage store.package payload tick next receipt =
      packageOf config epoch (items ++ [item]) :=
    preparedPackage_eq payload tick next receipt item rfl durable
  obtain ⟨_, rfl⟩ := frame_eq_ok.mp reserved.framed
  have room : Reserved sha256 disk.sizes next
      (preparedPackage store.package payload tick next receipt)
      (frameOf sha256 config epoch (items ++ [item])) := by
    rw [package]
    exact reserved
  have writes := @observer_writes _ _ sha256 payload tick next receipt (Append.start store disk) _
    room stop
  have whole (others : ∀ kept, stop ≠ some (.writing kept)) :
      coordinated library sha256 store disk envelope payload tick stop = _ :=
    @applyAtBoundary_commits _ _ _ library ⟨0, state⟩ envelope (observer sha256 payload tick stop)
      (Append.start store disk) _ next created committed
      (writes.trans (appendFrame_whole others))
  have left : (⟨preparedPackage store.package payload tick next receipt, ⟨0, next⟩, false⟩ :
      Store α) = storeOf config epoch (items ++ [item]) next := by
    rw [package]
    rfl
  cases stop with
  | none =>
      rw [append_published (whole fun _ => (Option.some_ne_none _).symm) rfl rfl,
        if_neg (Option.some_ne_none _).symm]
      change (⟨preparedResult (Append.start store disk)
        (preparedPackage store.package payload tick next receipt) receipt,
        ⟨preparedPackage store.package payload tick next receipt, ⟨0, next⟩, false⟩, _⟩ :
          Answered α) = _
      rw [left, package, preparedResult, durable, written, result_storeOf]
      simp only [Package.low, packageOf_high]
      rfl
  | some place =>
      cases place with
      | answering =>
          have others (kept : Nat) : some AppendStop.answering ≠ some (.writing kept) := by
            intro same
            cases same
          rw [append_published (whole others) rfl rfl, if_pos rfl]
          change Answered.unknown (⟨preparedPackage store.package payload tick next receipt,
            ⟨0, next⟩, false⟩ : Store α) _ = _
          rw [left]
          rfl
      | writing kept =>
          have ran : coordinated library sha256 store disk envelope payload tick
              (some (.writing kept)) = _ :=
            @applyAtBoundary_stops _ _ library _ ⟨0, state⟩ _ _ _ _ _ next created committed
              (writes.trans (appendFrame_part _ kept _))
          exact (append_thrown ran rfl).1 rfl

/-- A submission that reaches the coordinator changes nothing and answers no commit, or it
commits one more item; a failure decides only how much of that is left. -/
theorem append_cases (faithful : library.Faithful)
    (stored : Stored library config epoch items state) {envelope : Envelope α}
    {tick : UInt64} {payload : Text}
    (submittable :
      Submittable library (packageOf config epoch items) envelope tick payload) (disk : Disk) :
    (∀ stop,
      let answered := (storeOf config epoch items state).append library sha256 disk envelope
        payload tick stop
      answered.store = storeOf config epoch items state ∧ answered.disk = disk ∧
        ∀ receipt ∈ answered.result.receipt, receipt.status ≠ ascii "committed") ∨
      ∃ item next, Stored library config epoch (items ++ [item]) next ∧
        item.entry.payload = payload ∧ item.entry.tick = tick ∧
        Commits library state envelope next item.entry.created ∧
        disk.sizes.sum + (frameOf sha256 config epoch (items ++ [item])).length ≤
          config.byteQuota.toNat ∧
        ∀ stop,
          (storeOf config epoch items state).append library sha256 disk envelope payload tick
            stop = written sha256 config epoch items item state next disk stop := by
  let store := storeOf config epoch items state
  by_cases commits : ∃ next created, Commits library state envelope next created
  · obtain ⟨next, created, committed⟩ := commits
    let item := nextItem items.length tick payload envelope created next
    by_cases room : ∃ bytes, Reserved sha256 disk.sizes next
        (packageOf config epoch (items ++ [item])) bytes
    · obtain ⟨bytes, reserved⟩ := room
      obtain ⟨_, rfl⟩ := frame_eq_ok.mp reserved.framed
      exact Or.inr ⟨item, next, stored.commit faithful submittable committed, rfl, rfl,
        committed, (quota_eq_ok.mp reserved.room).2,
        append_writes faithful stored committed reserved⟩
    · left
      intro stop answered
      have package := @preparedPackage_eq _ _ config epoch items payload tick next
        (committedReceipt (initialReceipt false envelope state.worldRevision)
          (state.worldRevision + 1) created) item rfl
        (receipt_durable faithful stored tick payload envelope created next)
      rw [← package] at room
      obtain ⟨code, final, stopped, sameDisk, samePackage, untouched⟩ :=
        @observer_refuses _ _ sha256 payload tick next
          (committedReceipt (initialReceipt false envelope state.worldRevision)
            (state.worldRevision + 1) created) (Append.start store disk)
          (fun bytes reserved => room ⟨bytes, reserved⟩) stop
      have ran : coordinated library sha256 store disk envelope payload tick stop = _ :=
        @applyAtBoundary_stops _ _ library _ ⟨0, state⟩ _ _ _ _ _ next created committed stopped
      obtain ⟨left, disks, receipts⟩ := (append_thrown ran rfl).2 untouched
      refine ⟨left.trans ?_, disks.trans sameDisk, ?_⟩
      · change (⟨final.package, _, _⟩ : Store α) = _
        rw [samePackage]
        rfl
      · intro receipt answeredWith
        rw [receipts] at answeredWith
        cases answeredWith
  · left
    intro stop answered
    obtain ⟨applied, same⟩ : ∃ applied, coordinated library sha256 store disk envelope payload
        tick stop = applied := ⟨_, rfl⟩
    have endings := apply_observed library ⟨0, state⟩ envelope
      (none : Option (StagingGuard α Unit))
      (some (observer sha256 payload tick stop) : Option (CommitObserver α Append)) none ()
      (Append.start store disk)
    rw [show apply library ⟨0, state⟩ envelope (none : Option (StagingGuard α Unit))
        (some (observer sha256 payload tick stop) : Option (CommitObserver α Append)) none ()
        (Append.start store disk) = applied from same] at endings
    rcases endings with ⟨next, created, _, committed, _⟩ |
      ⟨next, created, _, _, _, committed, _⟩ | ⟨world, observed, refused⟩
    · exact absurd ⟨next, created, committed⟩ commits
    · exact absurd ⟨next, created, committed⟩ commits
    have kept : store.after applied = store := by
      rw [Store.after, observed, world]
      rfl
    have sameDisk : applied.observer.disk = disk := by
      rw [observed]
      rfl
    cases outcome : applied.result with
    | error thrown =>
        obtain ⟨left, disks, receipts⟩ := (append_thrown same outcome).2 (by rw [observed]; rfl)
        refine ⟨left.trans kept, disks.trans sameDisk, ?_⟩
        intro receipt answeredWith
        rw [receipts] at answeredWith
        cases answeredWith
    | ok receipt =>
        have rejected : receipt.status ≠ ascii "committed" := by
          rw [(refused receipt outcome).1]
          decide
        obtain ⟨left, disks, receipts⟩ := append_rejected same outcome rejected
        refine ⟨left.trans kept, disks.trans sameDisk, ?_⟩
        intro other answeredWith
        rw [receipts] at answeredWith
        cases answeredWith
        exact rejected

omit [Scalar α] in
theorem receipt_kept {sequence : Nat} {item : Item α}
    (low : lowWater items.length ≤ sequence) (found : items[sequence - 1]? = some item) :
    (storeOf config epoch items state).package.receipts[
      sequence - lowWater items.length]? = some item.receipt := by
  have positive := lowWater_positive items.length
  have place : lowWater items.length - 1 + (sequence - lowWater items.length) =
      sequence - 1 := by omega
  change ((items.drop (lowWater items.length - 1)).map Item.receipt)[_]? = _
  rw [List.getElem?_map, List.getElem?_drop, place, found]
  rfl

omit [Scalar α] in
/-- The receipt of a commit is found again until four more have followed. -/
theorem lookup_kept {sequence : Nat} {item : Item α}
    (low : lowWater items.length ≤ sequence) (high : sequence ≤ items.length)
    (found : items[sequence - 1]? = some item) :
    (storeOf config epoch items state).lookup sequence =
      { (storeOf config epoch items state).result [] with
        receipt := some item.receipt
        replayed := true } := by
  have kept := @receipt_kept _ config epoch items state sequence item low found
  have closed : (storeOf config epoch items state).isSealed = false := rfl
  unfold Store.lookup
  rw [closed, storeOf_low, storeOf_high, if_neg Bool.false_ne_true,
    if_neg (Nat.not_lt.mpr low), if_neg (Nat.not_lt.mpr high), kept]

omit [Scalar α] in
theorem resubmit_eq {sequence : Nat} {item : Item α} {payload : Text}
    (low : lowWater items.length ≤ sequence) (high : sequence ≤ items.length)
    (found : items[sequence - 1]? = some item) (disk : Disk) (stop : Option AppendStop) :
    let store := storeOf config epoch items state
    store.resubmit disk payload sequence stop =
      if item.entry.payload = payload then
        if stop = some .answering then .unknown store disk
        else .unchanged store disk
          { store.result [] with receipt := some item.receipt, replayed := true }
      else .unchanged store disk (store.result (ascii "IDEMPOTENCY_CONFLICT")) := by
  have entry : (storeOf config epoch items state).package.entries[sequence - 1]? =
      some item.entry := by
    change (items.map Item.entry)[_]? = _
    rw [List.getElem?_map, found]
    rfl
  dsimp only
  rw [← lookup_kept low high found]
  unfold Store.resubmit
  rw [entry, Option.map_some]
  by_cases same : item.entry.payload = payload
  · rw [if_pos same, same, bne_self_eq_false, if_neg Bool.false_ne_true]
  · rw [if_neg same, if_pos (by simpa using same)]

/-- A submission is refused, or its key is known, or it goes to the coordinator; a failure
on the way decides none of this. -/
theorem submission_cases (few : items.length ≤ commitLimit) (envelope : Envelope α)
    (tick : UInt64) (disk : Disk) :
    let store := storeOf config epoch items state
    let answered := store.applyAwaitDurable library sha256 disk envelope tick
    let sequence := envelope.idempotency.sequence.toNat
    (∃ code, ∀ stop, answered stop = .unchanged store disk (store.result code)) ∨
      (∃ payload item, serialize library envelope = .ok payload ∧
        lowWater items.length ≤ sequence ∧ sequence ≤ items.length ∧
        items[sequence - 1]? = some item ∧
        ∀ stop, answered stop = store.resubmit disk payload sequence stop) ∨
      ∃ payload, Submittable library (packageOf config epoch items) envelope tick payload ∧
        ∀ stop, answered stop =
          store.append library sha256 disk envelope payload tick stop := by
  intro store answered sequence
  have positive := lowWater_positive items.length
  have unfolded (stop : Option AppendStop) : answered stop =
      store.applyAwaitDurable library sha256 disk envelope tick stop := rfl
  have awake : ¬ store.isSealed = true := Bool.false_ne_true
  have high : store.package.high = items.length := storeOf_high
  have low : store.package.low = lowWater items.length := storeOf_low
  simp only [Store.applyAwaitDurable, if_neg awake, high, low] at unfolded
  by_cases sized : bounded envelope = true
  · simp only [sized, Bool.not_true, Bool.false_eq_true, if_false] at unfolded
    cases serialized : serialize library envelope with
    | error errors =>
        simp only [serialized] at unfolded
        exact Or.inl ⟨_, unfolded⟩
    | ok payload =>
        simp only [serialized] at unfolded
        by_cases long : Replay.commandLimit < payload.length
        · simp only [if_pos long] at unfolded
          exact Or.inl ⟨_, unfolded⟩
        by_cases otherEpoch : (envelope.idempotency.epoch != store.package.epoch) = true
        · simp only [if_neg long, if_pos otherEpoch] at unfolded
          exact Or.inl ⟨_, unfolded⟩
        by_cases old : envelope.idempotency.sequence.toNat < lowWater items.length
        · simp only [if_neg long, if_neg otherEpoch, if_pos old] at unfolded
          exact Or.inl ⟨_, unfolded⟩
        by_cases known : envelope.idempotency.sequence.toNat ≤ items.length
        · simp only [if_neg long, if_neg otherEpoch, if_neg old, if_pos known] at unfolded
          exact Or.inr (Or.inl ⟨payload, _, rfl, Nat.not_lt.mp old, known,
            List.getElem?_eq_getElem (by omega), unfolded⟩)
        simp only [if_neg long, if_neg otherEpoch, if_neg old, if_neg known] at unfolded
        by_cases gap : envelope.idempotency.sequence.toNat ≠ items.length + 1
        · simp only [if_pos gap] at unfolded
          exact Or.inl ⟨_, unfolded⟩
        by_cases full : items.length = commitLimit
        · simp only [if_neg gap, if_pos full] at unfolded
          exact Or.inl ⟨_, unfolded⟩
        by_cases early :
            (store.package.entries.getLast?.any fun last => decide (tick < last.tick)) = true
        · simp only [if_neg gap, if_neg full, if_pos early] at unfolded
          exact Or.inl ⟨_, unfolded⟩
        simp only [if_neg gap, if_neg full, if_neg early] at unfolded
        refine Or.inr (Or.inr ⟨payload, ⟨sized, serialized, ?_, ?_, ?_, ?_⟩, unfolded⟩)
        · have same : envelope.idempotency.epoch = store.package.epoch := by
            simpa using otherEpoch
          exact same
        · rw [packageOf_high]
          exact Decidable.not_not.mp gap
        · rw [packageOf_high]
          exact Nat.lt_of_le_of_ne few full
        · intro last held
          change store.package.entries.getLast? = _ at held
          rw [held] at early
          simpa using early
  · simp only [Bool.eq_false_iff.mpr sized, Bool.not_false, if_true] at unfolded
    exact Or.inl ⟨_, unfolded⟩

/-- A submission leaves the files alone, and the store too but for a seal, or it commits one
more item, of which a failure decides how much is left. -/
theorem submission_outcome (faithful : library.Faithful)
    (stored : Stored library config epoch items state) (disk : Disk) (envelope : Envelope α)
    (tick : UInt64) :
    let store := storeOf config epoch items state
    let answered := store.applyAwaitDurable library sha256 disk envelope tick
    (∀ stop, (answered stop).disk = disk ∧
        ((answered stop).store = store ∨ stop ≠ none ∧ (answered stop).store = store.sealUp)) ∨
      ∃ item next, Stored library config epoch (items ++ [item]) next ∧
        item.envelope = envelope ∧
        disk.sizes.sum + (frameOf sha256 config epoch (items ++ [item])).length ≤
          config.byteQuota.toNat ∧
        ∀ stop, answered stop = written sha256 config epoch items item state next disk stop := by
  intro store answered
  rcases @submission_cases _ _ library sha256 config epoch items state stored.few envelope tick
    disk with
    ⟨code, refused⟩ | ⟨payload, item, serialized, low, high, found, resubmitted⟩ |
      ⟨payload, submittable, appended⟩
  · refine Or.inl fun stop => ?_
    have run : answered stop = _ := refused stop
    rw [run]
    exact ⟨rfl, Or.inl rfl⟩
  · refine Or.inl fun stop => ?_
    have run : answered stop = _ :=
      (resubmitted stop).trans (resubmit_eq low high found disk stop)
    rw [run]
    by_cases same : item.entry.payload = payload
    · rw [if_pos same]
      by_cases stopped : stop = some .answering
      · rw [if_pos stopped, stopped]
        exact ⟨rfl, Or.inr ⟨Option.some_ne_none _, rfl⟩⟩
      · rw [if_neg stopped]
        exact ⟨rfl, Or.inl rfl⟩
    · rw [if_neg same]
      exact ⟨rfl, Or.inl rfl⟩
  rcases @append_cases _ _ _ sha256 _ _ _ _ faithful stored _ _ _ submittable disk with
    unchanged | ⟨item, next, further, spelled, _, _, room, commits⟩
  · refine Or.inl fun stop => ?_
    have run : answered stop = _ := appended stop
    obtain ⟨sameStore, sameDisk, _⟩ := unchanged stop
    rw [run]
    exact ⟨sameDisk, Or.inl sameStore⟩
  · refine Or.inr ⟨item, next, further, ?_, room,
      fun stop => (appended stop).trans (commits stop)⟩
    have member : item ∈ items ++ [item] := List.mem_append_right _ (List.mem_singleton_self item)
    obtain ⟨_, follows, _⟩ := further.lawful.member member
    exact serialize_injective faithful (spelled ▸ (follows.valid faithful).2.2.1)
      submittable.serialized

end Submitting

end Omniweft.Persistence
