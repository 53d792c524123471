import Omniweft.PersistenceMemory
import Omniweft.PersistenceTampering

/-!
# What a durable store promises

The promises of the store over any run: recovery after a failure at any place, commands
that are applied once, repairs that can be repeated, damage that is noticed, and packages
with one spelling.
-/

namespace Omniweft.Persistence

open Omniweft.Outcome World Commands Transactions

/-! ## Repairs -/

section Repairing

variable {α : Type} [Scalar α] {library : JsonLibrary α} {sha256 : Bytes → Vector UInt8 32}

/-- No whole frame is incomplete. -/
theorem Incomplete.not_spelled {torn : Bytes} (incomplete : Incomplete sha256 torn)
    {frame : Frame} (fits : frame.Fits) (rest : Bytes) :
    torn ≠ frame.spelled sha256 ++ rest := by
  intro same
  have ended := readFrame_eq_none.mpr incomplete
  rw [same, readFrame_spells.read_frame fits] at ended
  cases ended

/-- Whatever the files hold, the walk over the journal ends. An opening that finds a store
keeps the whole frames of the journal and cuts off one incomplete frame or nothing, and the
next opening finds the same store and has nothing to do. One that fails leaves the files. -/
theorem open_idempotent (disk : Disk) :
    (∀ selected : Package × LiveWorld α,
      walkJournal library sha256 selected.1 disk.journal (disk.journal.length + 1)
        ⟨selected, none, 0⟩ ≠ none) ∧
      (∀ store left, Store.open library sha256 disk none = ⟨.ok store, left⟩ →
        Store.open library sha256 left none = ⟨.ok store, left⟩ ∧
          left.checkpoint = disk.checkpoint ∧
          ∃ (frames : List Frame) (torn : Bytes), (∀ frame ∈ frames, frame.Fits) ∧
            left.journal = frames.flatMap (Frame.spelled sha256) ∧
            disk.journal = left.journal ++ torn ∧ Incomplete sha256 torn ∧
            ∀ (frame : Frame) (rest : Bytes), frame.Fits → torn ≠ frame.spelled sha256 ++ rest) ∧
      ∀ code left, Store.open library sha256 disk none = ⟨.error code, left⟩ →
        left.checkpoint = disk.checkpoint ∧ left.journal = disk.journal := by
  refine ⟨fun selected => walkJournal_ends selected disk.journal, ?_, ?_⟩
  · intro store left run
    rcases open_cases library sha256 disk with
      ⟨code, refused⟩ | ⟨frames, torn, selected, final, validated⟩
    · rw [refused] at run
      cases run
    rw [validated.open] at run
    cases run
    exact ⟨(validated.repaired (Or.inl rfl)).open, rfl, frames, torn, validated.fits, rfl,
      validated.split, validated.torn, fun _ rest fits => validated.torn.not_spelled fits rest⟩
  · intro code left run
    rcases open_cases library sha256 disk with
      ⟨other, refused⟩ | ⟨frames, torn, selected, final, validated⟩
    · rw [refused] at run
      cases run
      exact ⟨rfl, rfl⟩
    · rw [validated.open] at run
      cases run

end Repairing

/-! ## Packages -/

section Holding

variable {α : Type} [Scalar α] {library : JsonLibrary α} {sha256 : Bytes → Vector UInt8 32}
  {config : Config} {epoch : Text} {items : List (Item α)} {state : Snapshot α}

/-- A store with the package and the world of some items, sealed or not. -/
structure Holds (library : JsonLibrary α) (config : Config) (epoch : Text)
    (items : List (Item α)) (state : Snapshot α) (store : Store α) : Prop where
  stored : Stored library config epoch items state
  package : store.package = packageOf config epoch items
  world : store.world = ⟨0, state⟩

theorem Stored.holds (stored : Stored library config epoch items state) :
    Holds library config epoch items state (storeOf config epoch items state) :=
  ⟨stored, rfl, rfl⟩

theorem Holds.sealUp {store : Store α}
    (holds : Holds library config epoch items state store) :
    Holds library config epoch items state store.sealUp :=
  ⟨holds.stored, holds.package, holds.world⟩

theorem Holds.awake {store : Store α} (holds : Holds library config epoch items state store)
    (awake : store.isSealed = false) : store = storeOf config epoch items state := by
  obtain ⟨package, world, isSealed⟩ := store
  obtain ⟨_, rfl, rfl⟩ := holds
  obtain rfl : isSealed = false := awake
  rfl

/-- A submission, whatever becomes of it, leaves a store of that kind. -/
theorem Holds.submit (faithful : library.Faithful) {store : Store α}
    (holds : Holds library config epoch items state store) (disk : Disk)
    (envelope : Envelope α) (tick : UInt64) (stop : Option AppendStop) :
    ∃ later final, Holds library config epoch later final
      (store.applyAwaitDurable library sha256 disk envelope tick stop).store := by
  cases closed : store.isSealed with
  | true =>
      have refused : store.applyAwaitDurable library sha256 disk envelope tick stop =
          .unchanged store disk (store.result (ascii "RECOVERY_REQUIRED")) := if_pos closed
      rw [refused]
      exact ⟨items, state, holds⟩
  | false =>
      obtain rfl := holds.awake closed
      rcases @submission_outcome _ _ _ sha256 _ _ _ _ faithful holds.stored disk envelope tick
        with unchanged | ⟨item, next, further, _, _, commits⟩
      · rcases (unchanged stop).2 with same | ⟨_, same⟩
        · rw [same]
          exact ⟨items, state, holds⟩
        · rw [same]
          exact ⟨items, state, holds.sealUp⟩
      · rw [commits]
        cases stop with
        | none => exact ⟨_, next, further.holds⟩
        | some place =>
            cases place with
            | answering => exact ⟨_, next, further.holds.sealUp⟩
            | writing count => exact ⟨items, state, holds.sealUp⟩

theorem Holds.compact {store : Store α} (holds : Holds library config epoch items state store)
    (disk : Disk) (stop : Option CompactStop) :
    Holds library config epoch items state (store.compact sha256 disk stop).store := by
  unfold Store.compact
  dsimp only
  split
  · exact holds
  split
  · exact holds
  cases stop with
  | none => exact holds
  | some place => cases place <;> exact holds.sealUp

/-- What a process has open is such a store, in every state of a run. -/
theorem Recovers.run_holds (faithful : library.Faithful) {machine : Machine α}
    (recovers : Recovers library sha256 config epoch items state machine)
    (holds : ∀ live, machine.live = some live →
      ∃ later final, Holds library config epoch later final live)
    (actions : List (Action α)) :
    ∀ live, (machine.run library sha256 actions).live = some live →
      ∃ later final, Holds library config epoch later final live := by
  induction actions generalizing machine items state with
  | nil => exact holds
  | cons action rest inductionHypothesis =>
      obtain ⟨later, final, _, acted⟩ := recovers.act faithful action
      refine inductionHypothesis acted ?_
      obtain ⟨live, disk, acknowledged⟩ := machine
      intro other held
      cases action with
      | submit envelope tick stop =>
          cases live with
          | none => exact holds other held
          | some store =>
              cases held
              obtain ⟨_, _, before⟩ := holds store rfl
              exact before.submit faithful disk envelope tick stop
      | compact stop =>
          cases live with
          | none => exact holds other held
          | some store =>
              cases held
              obtain ⟨_, _, before⟩ := holds store rfl
              exact ⟨_, _, before.compact disk stop⟩
      | die => cases held
      | reopen stop =>
          cases live with
          | some store => exact holds other held
          | none =>
              obtain ⟨torn, kept, first, layout, _⟩ := recovers.layout
              obtain ⟨_, _, _, opens, fails⟩ := layout.open faithful recovers.stored stop
              change (Store.open library sha256 disk stop).result.toOption = some other at held
              by_cases whole : stop = none
              · rw [(opens whole).2] at held
                cases held
                exact ⟨items, state, recovers.stored.holds⟩
              · rw [fails whole] at held
                cases held

omit [Scalar α] in
theorem create_fresh {random : Vector UInt8 32} {store : Store α} {disk : Disk}
    (created : Store.create sha256 config random = .ok (store, disk)) :
    store.isSealed = false ∧ disk.journal = [] := by
  unfold Store.create at created
  obtain ⟨_, created⟩ := unit_bind_eq_ok.mp created
  obtain ⟨_, _, created⟩ := bind_eq_ok.mp created
  obtain ⟨_, _, created⟩ := bind_eq_ok.mp created
  obtain ⟨_, same⟩ := unit_bind_eq_ok.mp created
  rw [pure_eq_ok] at same
  cases same
  exact ⟨rfl, rfl⟩

/-- The package of every store that a run has open is encoded within the limit and decoded
to itself and the world of the store, and whatever bytes are decoded are what the package
they hold is encoded to. -/
theorem package_codec (faithful : library.Faithful) {random : Vector UInt8 32}
    {store : Store α} {disk : Disk}
    (created : Store.create sha256 config random = .ok (store, disk))
    (actions : List (Action α)) :
    (∀ live, ((Machine.fresh store disk).run library sha256 actions).live = some live →
      ∃ bytes, encode live.package = .ok bytes ∧ bytes.length ≤ 256 * 1024 ∧
        decode library bytes = .ok (live.package, live.world)) ∧
      ∀ (bytes : Bytes) (package : Package) (world : LiveWorld α),
        decode library bytes = .ok (package, world) → encode package = .ok bytes := by
  constructor
  · intro live held
    obtain ⟨epoch, fresh, recovers⟩ := @create_recovers _ _ library sha256 config _ _ _ created
    have start : ∀ other, (Machine.fresh store disk).live = some other →
        ∃ later final, Holds library config epoch later final other := by
      intro other same
      cases same
      obtain ⟨_, _, _, _, lives⟩ := recovers.layout
      rcases lives _ rfl with closed | ⟨same, _⟩
      · rw [(create_fresh created).1] at closed
        cases closed
      · rw [same]
        exact ⟨[], fresh, recovers.stored.holds⟩
    obtain ⟨items, state, holds⟩ := recovers.run_holds faithful start actions live held
    obtain ⟨small, decoded⟩ := holds.stored.decodes faithful
    rw [holds.package, holds.world]
    exact ⟨_, (holds.stored.legible faithful).encode, small, decoded⟩
  · intro bytes package world decoded
    obtain ⟨config, epoch, items, stored, _, rfl, rfl⟩ := (decode_eq_ok faithful).mp decoded
    exact (stored.legible faithful).encode

theorem package_codec_sample :
    let package := sampleAnswer.store.package
    package.entries.length = 1 ∧
      ∃ bytes, encode package = .ok bytes ∧ bytes.length ≤ 256 * 1024 ∧
        decode JsonText.library bytes = .ok (package, sampleAnswer.store.world) :=
  ⟨sample_commits.entries,
    (package_codec JsonText.library_faithful sample_created [.submit sampleSubmission 5 none]).1
      sampleAnswer.store (Machine.fresh_live sampleStore sampleDisk sampleSubmission 5)⟩

end Holding

/-! ## Crashes -/

section Crashing

variable {α : Type} [Scalar α] {library : JsonLibrary α} {sha256 : Bytes → Vector UInt8 32}
  {config : Config} {epoch : Text} {items : List (Item α)} {state : Snapshot α}

/-- The same action without a failure. -/
def Action.whole : Action α → Action α
  | .submit envelope tick _ => .submit envelope tick none
  | .compact _ => .compact none
  | .die => .die
  | .reopen _ => .reopen none

/-- An action that a failure stops anywhere leaves what was there before it or what the
whole action leaves. -/
theorem Recovers.act_opens (faithful : library.Faithful) {machine : Machine α}
    (recovers : Recovers library sha256 config epoch items state machine)
    (action : Action α) :
    ∃ after left, Store.open library sha256 (machine.act library sha256 action).disk none =
        ⟨.ok after, left⟩ ∧
      (after = storeOf config epoch items state ∨
        (machine.act library sha256 action.whole).live = some after) := by
  obtain ⟨live, disk, acknowledged⟩ := machine
  have unchanged {next : Machine α}
      (same : Recovers library sha256 config epoch items state next) :
      ∃ after left, Store.open library sha256 next.disk none = ⟨.ok after, left⟩ ∧
        (after = storeOf config epoch items state ∨
          (Machine.act library sha256 ⟨live, disk, acknowledged⟩ action.whole).live =
            some after) := by
    obtain ⟨left, opens⟩ := same.open faithful
    exact ⟨_, left, opens, Or.inl rfl⟩
  cases action with
  | die =>
      exact unchanged (recovers.keep (fun _ held => absurd held (Option.some_ne_none _).symm)
        fun _ _ member => Or.inl member)
  | reopen stop =>
      cases live with
      | none => exact unchanged (recovers.reopen faithful stop)
      | some store => exact unchanged recovers
  | compact stop =>
      cases live with
      | none => exact unchanged recovers
      | some store => exact unchanged (recovers.compact faithful stop)
  | submit envelope tick stop =>
      cases live with
      | none => exact unchanged recovers
      | some store =>
          obtain ⟨_, kept, first, layout, lives⟩ := recovers.layout
          rcases lives store rfl with closed | ⟨rfl, rfl, tidy⟩
          · have refused : Machine.act library sha256 ⟨some store, disk, acknowledged⟩
                (.submit envelope tick stop) = ⟨some store, disk, acknowledged ++ []⟩ := by
              change Machine.mk _ _ _ = _
              rw [show store.applyAwaitDurable library sha256 disk envelope tick stop =
                .unchanged store disk (store.result (ascii "RECOVERY_REQUIRED")) from
                  if_pos closed]
              rfl
            rw [refused, List.append_nil]
            exact unchanged recovers
          · have reopens := @submission_reopens _ _ _ sha256 _ _ _ _ faithful recovers.stored _ _
              disk layout tidy envelope tick stop []
            dsimp only at reopens
            split at reopens
            · exact ⟨_, _, reopens, Or.inr rfl⟩
            · exact ⟨_, _, reopens, Or.inl rfl⟩

/-- A commit that was answered is in the store for good. -/
theorem Recovers.keeps (faithful : library.Faithful) {machine : Machine α}
    (recovers : Recovers library sha256 config epoch items state machine)
    {envelope : Envelope α} {receipt : Receipt}
    (member : (envelope, receipt) ∈ machine.acknowledged) (more : List (Item α)) :
    ∃ entry, (packageOf config epoch (items ++ more)).entries[
        envelope.idempotency.sequence.toNat - 1]? = some entry ∧
      entry.sequence = envelope.idempotency.sequence ∧
      serialize library envelope = .ok entry.payload ∧
      receipt = durableReceipt envelope.transactionId entry := by
  obtain ⟨item, held, repeats, rfl⟩ := recovers.answered envelope receipt member
  obtain ⟨_, follows, _⟩ := recovers.stored.lawful.member held
  obtain rfl : item.envelope = envelope :=
    serialize_injective faithful (follows.valid faithful).2.2.1 repeats.payload
  obtain ⟨place, found⟩ := List.getElem?_of_mem held
  have inside : place < items.length := (List.getElem?_eq_some_iff.mp found).1
  refine ⟨item.entry, ?_, repeats.sequence, repeats.payload, rfl⟩
  change ((items ++ more).map Item.entry)[_]? = _
  rw [← repeats.sequence, recovers.stored.place found, Nat.add_sub_cancel, List.getElem?_map,
    List.getElem?_append_left inside, found]
  rfl

/-- After any run: files of a store that is not sealed open to exactly what the process
has, and need no repair. Whatever action follows, and wherever a failure stops it, what it
leaves opens, to what was there before or to what the whole action leaves. And a commit
that was answered is found, with the receipt that was given, wherever the run goes on. -/
theorem crash_recovery (faithful : library.Faithful) {random : Vector UInt8 32}
    {store : Store α} {disk : Disk}
    (created : Store.create sha256 config random = .ok (store, disk))
    (actions : List (Action α)) :
    let machine := (Machine.fresh store disk).run library sha256 actions
    (∀ live, machine.live = some live → live.isSealed = false →
      Store.open library sha256 machine.disk none = ⟨.ok live, machine.disk⟩) ∧
      (∃ before left, Store.open library sha256 machine.disk none = ⟨.ok before, left⟩ ∧
        ∀ action, ∃ after kept,
          Store.open library sha256 (machine.act library sha256 action).disk none =
              ⟨.ok after, kept⟩ ∧
            (after = before ∨
              (machine.act library sha256 action.whole).live = some after)) ∧
      ∀ envelope receipt, (envelope, receipt) ∈ machine.acknowledged →
        ∀ more, ∃ found kept,
          Store.open library sha256 (machine.run library sha256 more).disk none =
              ⟨.ok found, kept⟩ ∧
            ∃ entry, found.package.entries[envelope.idempotency.sequence.toNat - 1]? =
                some entry ∧
              entry.sequence = envelope.idempotency.sequence ∧
              serialize library envelope = .ok entry.payload ∧
              receipt = durableReceipt envelope.transactionId entry := by
  intro machine
  obtain ⟨epoch, fresh, recovers⟩ := @create_recovers _ _ library sha256 config _ _ _ created
  obtain ⟨items, state, recovered⟩ := recovers.run faithful actions
  rw [List.nil_append] at recovered
  change Recovers library sha256 config epoch items state machine at recovered
  clear_value machine
  refine ⟨fun live held awake => recovered.awake faithful held awake, ?_, ?_⟩
  · obtain ⟨left, opens⟩ := recovered.open faithful
    exact ⟨_, left, opens, recovered.act_opens faithful⟩
  · intro envelope receipt member more
    obtain ⟨rest, final, continued⟩ := recovered.run faithful more
    obtain ⟨kept, opens⟩ := continued.open faithful
    exact ⟨_, kept, opens, recovered.keeps faithful member rest⟩

/-- The first two submissions to a fresh machine. -/
theorem Machine.fresh_again (store : Store α) (disk : Disk) (envelope next : Envelope α)
    (tick later : UInt64) (stop : Option AppendStop) :
    let first := store.applyAwaitDurable library sha256 disk envelope tick none
    (((Machine.fresh store disk).run library sha256 [.submit envelope tick none]).act library
        sha256 (Action.submit next later stop).whole).live =
      some (first.store.applyAwaitDurable library sha256 first.disk next later none).store :=
  rfl

theorem crash_recovery_sample :
    let machine := (Machine.fresh sampleStore sampleDisk).run JsonText.library Sha256.digest
      [.submit sampleSubmission 5 none]
    ∃ before left, Store.open JsonText.library Sha256.digest machine.disk none =
        ⟨.ok before, left⟩ ∧
      ∃ after kept, Store.open JsonText.library Sha256.digest
          (machine.act JsonText.library Sha256.digest
            (.submit sampleSecond 6 (some (.writing 100)))).disk none = ⟨.ok after, kept⟩ ∧
        (after = before ∨ after = sampleAgain.store) := by
  intro machine
  obtain ⟨_, ⟨before, left, opens, atomic⟩, _⟩ := crash_recovery JsonText.library_faithful
    sample_created [.submit sampleSubmission 5 none]
  obtain ⟨after, kept, reopens, either⟩ :=
    atomic (.submit sampleSecond 6 (some (.writing 100)))
  refine ⟨before, left, opens, after, kept, reopens, either.imp id ?_⟩
  intro whole
  rw [Machine.fresh_again] at whole
  unfold sampleAgain sampleAnswer
  exact (Option.some.inj whole).symm

end Crashing

/-! ## Commands that are applied once -/

section Once

variable {α : Type} [Scalar α] {library : JsonLibrary α} {sha256 : Bytes → Vector UInt8 32}
  {config : Config} {epoch : Text} {items : List (Item α)} {state : Snapshot α}

theorem Stored.parsed (faithful : library.Faithful)
    (stored : Stored library config epoch items state) {item : Item α} (member : item ∈ items) :
    parse library item.entry.payload = .ok item.envelope := by
  obtain ⟨_, follows, _⟩ := stored.lawful.member member
  exact (parse_serialize faithful (follows.valid faithful).2.2.1).1

/-- A command that was committed is told its receipt again, at any tick. -/
theorem Stored.repeated (faithful : library.Faithful)
    (stored : Stored library config epoch items state) (disk : Disk) {envelope : Envelope α}
    {item : Item α}
    (low : lowWater items.length ≤ envelope.idempotency.sequence.toNat)
    (found : items[envelope.idempotency.sequence.toNat - 1]? = some item)
    (same : serialize library envelope = .ok item.entry.payload) (tick : UInt64) :
    let store := storeOf config epoch items state
    item.envelope = envelope ∧ store.applyAwaitDurable library sha256 disk envelope tick none =
      ⟨{ store.result [] with receipt := some item.receipt, replayed := true }, store, disk⟩ := by
  have member := List.mem_of_getElem? found
  obtain ⟨_, follows, _⟩ := stored.lawful.member member
  obtain rfl : item.envelope = envelope :=
    serialize_injective faithful (follows.valid faithful).2.2.1 same
  have positive := lowWater_positive items.length
  have run := @repeated_eq _ _ _ sha256 _ _ _ _ faithful stored item member tick disk none
  dsimp only at run
  rw [stored.place found, Nat.sub_add_cancel (positive.trans low), if_neg (Nat.not_lt.mpr low),
    if_neg (Option.some_ne_none _).symm] at run
  exact ⟨rfl, run⟩

theorem Stored.foreign (stored : Stored library config epoch items state) (disk : Disk)
    {envelope : Envelope α}
    (foreign : envelope.idempotency.sequence.toNat < lowWater items.length ∨
      items.length + 1 < envelope.idempotency.sequence.toNat ∨
      ∃ item, items[envelope.idempotency.sequence.toNat - 1]? = some item ∧
        serialize library envelope ≠ .ok item.entry.payload)
    (tick : UInt64) (stop : Option AppendStop) :
    let store := storeOf config epoch items state
    let answered := store.applyAwaitDurable library sha256 disk envelope tick stop
    answered.store = store ∧ answered.disk = disk ∧ answered.result.receipt = none := by
  intro store answered
  rcases @submission_cases _ _ library sha256 config epoch items state stored.few envelope tick
    disk with
    ⟨code, refused⟩ | ⟨payload, item, serialized, low, high, found, resubmitted⟩ |
      ⟨payload, submittable, appended⟩
  · have run : answered = _ := refused stop
    rw [run]
    exact ⟨rfl, rfl, rfl⟩
  · have run : answered = _ := (resubmitted stop).trans (resubmit_eq low high found disk stop)
    have unequal : item.entry.payload ≠ payload := by
      rintro rfl
      rcases foreign with old | new | ⟨other, there, differs⟩
      · exact absurd old (Nat.not_lt.mpr low)
      · omega
      · rw [found] at there
        cases there
        exact differs serialized
    rw [run, if_neg unequal]
    exact ⟨rfl, rfl, rfl⟩
  · have next := submittable.sequence
    have positive := lowWater_positive items.length
    rw [packageOf_high] at next
    rcases foreign with old | new | ⟨other, there, _⟩
    · have atMost := lowWater_le items.length
      omega
    · omega
    · have inside := (List.getElem?_eq_some_iff.mp there).1
      omega

theorem Stored.rejected (faithful : library.Faithful)
    (stored : Stored library config epoch items state) (disk : Disk) (envelope : Envelope α)
    (tick : UInt64) (stop : Option AppendStop) :
    let store := storeOf config epoch items state
    let answered := store.applyAwaitDurable library sha256 disk envelope tick stop
    answered.result.committed = none → answered.store.isSealed = false →
      answered.store = store ∧ answered.disk = disk := by
  intro store answered untold awake
  rcases @submission_outcome _ _ _ sha256 _ _ _ _ faithful stored disk envelope tick with
    unchanged | ⟨item, next, further, _, _, commits⟩
  · obtain ⟨sameDisk, same | ⟨_, closed⟩⟩ := unchanged stop
    · exact ⟨same, sameDisk⟩
    · rw [show answered.store = _ from closed] at awake
      cases awake
  · have run : answered = _ := commits stop
    rw [run] at untold awake
    cases stop with
    | none => cases untold
    | some place => cases place <;> cases awake

end Once

/-! ## Damage -/

section Damage

variable {α : Type} [Scalar α] {library : JsonLibrary α} {sha256 : Bytes → Vector UInt8 32}
  {config : Config}

/-- The first commit writes the first frame of the journal. -/
theorem first_frame (faithful : library.Faithful) {random : Vector UInt8 32}
    {store : Store α} {disk : Disk}
    (created : Store.create sha256 config random = .ok (store, disk)) (envelope : Envelope α)
    (tick : UInt64) :
    let answered := store.applyAwaitDurable library sha256 disk envelope tick none
    answered.store.package.entries ≠ [] →
      (Frame.of answered.store.package).Fits ∧
        answered.disk.journal = (Frame.of answered.store.package).spelled sha256 := by
  intro answered some
  obtain ⟨epoch, fresh, recovers⟩ := @create_recovers _ _ library sha256 config _ _ _ created
  obtain ⟨torn, kept, first, layout, lives⟩ := recovers.layout
  rcases lives store rfl with closed | ⟨rfl, _⟩
  · rw [(create_fresh created).1] at closed
    cases closed
  rcases @submission_outcome _ _ _ sha256 _ _ _ _ faithful recovers.stored disk envelope tick
    with unchanged | ⟨item, next, further, _, _, commits⟩
  · have same := (unchanged none).2.resolve_right fun stopped => stopped.1 rfl
    rw [show answered.store = _ from same] at some
    exact absurd rfl some
  · have run : answered = _ := commits none
    rw [run]
    refine ⟨further.fitting faithful, ?_⟩
    change disk.journal ++ _ = _
    rw [(create_fresh created).2]
    rfl

/-- Wherever a run has got to, when the journal is whole frames, and one field of one frame
of the journal or of the checkpoint is then changed at its length, and what is hashed of the
old and of the new frame does not collide, the store is corrupt: nothing is cut off, and no
older state is found. -/
theorem corruption_detected (faithful : library.Faithful) {random : Vector UInt8 32}
    {store : Store α} {disk : Disk}
    (created : Store.create sha256 config random = .ok (store, disk))
    (actions : List (Action α)) {frames : List Frame} (fits : ∀ frame ∈ frames, frame.Fits)
    {frame : Frame} {changed : Bytes} {altered : Disk}
    (collisionFree : ∀ count, count = 20 ∨ count = headerSize + frame.payload.length →
      sha256 (changed.take count) = sha256 ((frame.spelled sha256).take count) →
        changed.take count = (frame.spelled sha256).take count) :
    let machine := (Machine.fresh store disk).run library sha256 actions
    machine.disk.journal = frames.flatMap (Frame.spelled sha256) →
    Tampered sha256 frame changed machine.disk altered →
      Store.open library sha256 altered none = ⟨.error corrupt, altered⟩ := by
  intro machine complete tampered
  obtain ⟨epoch, start, recovers⟩ := @create_recovers _ _ library sha256 config _ _ _ created
  obtain ⟨items, state, recovered⟩ := recovers.run faithful actions
  rw [List.nil_append] at recovered
  obtain ⟨torn, kept, first, layout, _⟩ := recovered.layout
  obtain ⟨selected, final, validated, _⟩ := layout.validated faithful recovered.stored
  have split : (framesFrom config epoch items first).flatMap (Frame.spelled sha256) ++ torn =
      frames.flatMap (Frame.spelled sha256) ++ [] := by
    rw [List.append_nil]
    exact layout.journal.symm.trans complete
  obtain ⟨rfl, rfl⟩ := readFrame_spells.unique validated.fits fits
    (readFrame_eq_none.mpr validated.torn) readFrame_spells.ended split
  rcases validated.tampered complete.symm tampered none with
    rejected | ⟨count, hashed, differs, same⟩
  · exact rejected
  · exact absurd (collisionFree count hashed same) differs

/-- Another end mark is not hashed. -/
theorem take_of_end (frame : Frame) (mark : Bytes) {count : Nat}
    (hashed : count = 20 ∨ count = headerSize + frame.payload.length) :
    ((fields sha256 frame).set 5 mark).flatten.take count =
      (frame.spelled sha256).take count := by
  have split : ((fields sha256 frame).set 5 mark).flatten =
      opened sha256 frame.payload frame.high ++
        ((sha256 (opened sha256 frame.payload frame.high)).toList ++ mark) := by
    simp [fields, opened, frameHeader]
  have sized := @opened_length sha256 frame.payload frame.high
  have inside : count ≤ (opened sha256 frame.payload frame.high).length := by
    rw [sized]
    simp only [headerSize] at hashed ⊢
    omega
  rw [split, Frame.spelled, frameBytes_eq, List.append_assoc,
    List.take_append_of_le_length inside, List.take_append_of_le_length inside]

/-- The only frame of a journal with another end mark. -/
theorem Tampered.only {frame : Frame} (fits : frame.Fits) {disk : Disk}
    (journal : disk.journal = frame.spelled sha256) {mark : Bytes} (sized : mark.length = 8)
    (differs : mark ≠ endMagic) :
    Tampered sha256 frame ((fields sha256 frame).set 5 mark).flatten disk
      { disk with journal := ((fields sha256 frame).set 5 mark).flatten } := by
  have alone (other : Frame) (member : other ∈ [] ++ frame :: []) : other.Fits := by
    obtain rfl := List.mem_singleton.mp member
    exact fits
  have changes : Altered sha256 frame ((fields sha256 frame).set 5 mark).flatten :=
    ⟨5, endMagic, mark, rfl, sized, differs, rfl⟩
  have tampered := Tampered.journal [] [] alone (journal.trans (List.append_nil _).symm) changes
  simpa only [List.flatMap_nil, List.append_nil, List.nil_append] using tampered

theorem corruption_detected_sample :
    let frame := Frame.of sampleAnswer.store.package
    let altered := { sampleAnswer.disk with
      journal := ((fields Sha256.digest frame).set 5 (ascii "OWEND002")).flatten }
    Store.open JsonText.library Sha256.digest altered none = ⟨.error corrupt, altered⟩ := by
  have some : sampleAnswer.store.package.entries ≠ [] := by
    intro empty
    have one := sample_commits.entries
    rw [empty] at one
    cases one
  unfold sampleAnswer at *
  intro frame altered
  obtain ⟨fits, journal⟩ :=
    first_frame JsonText.library_faithful sample_created sampleSubmission 5 some
  change frame.Fits at fits
  change _ = frame.spelled Sha256.digest at journal
  have alone (other : Frame) (member : other ∈ [frame]) : other.Fits := by
    obtain rfl := List.mem_singleton.mp member
    exact fits
  have detected := @corruption_detected _ _ _ _ _ JsonText.library_faithful _ _ _ sample_created
    [.submit sampleSubmission 5 none] [frame] alone frame
    ((fields Sha256.digest frame).set 5 (ascii "OWEND002")).flatten altered
    (fun _ hashed _ => take_of_end frame _ hashed)
  dsimp only at detected
  rw [Machine.fresh_disk] at detected
  exact detected (journal.trans (List.append_nil _).symm)
    (.only fits journal (by decide) (by decide))

end Damage

end Omniweft.Persistence
