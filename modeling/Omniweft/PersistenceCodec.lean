import Omniweft.Library.Logs
import Omniweft.Persistence
import Omniweft.ReplayRuns

/-!
# The package codec

A package is what one store has committed: its configuration, its epoch and one item
for each commit. The reader accepts exactly the bytes that the writer gives for such a
package, and the replay then gives the world that the commits made.
-/

namespace Omniweft.Persistence

open Omniweft.Outcome Grammar World Commands Transactions

theorem check_eq_ok {value : Bool} {done : Unit} : check value = .ok done ↔ value = true := by
  simp [check]

theorem reads_check_bind {β : Type} {value : Bool} {next : Reader Text UInt8 β}
    {following : Language UInt8 β} (nextReads : Reads next following) :
    Reads (checked (check value) >>= fun _ => next) fun result piece =>
      value = true ∧ following result piece := by
  apply (reads_attempt_bind id _ fun _ => nextReads).congr
  intro result piece
  simp only [check_eq_ok, exists_const]

/-- What follows a check may count on it. -/
theorem reads_when {β : Type} {value : Bool} {next : Reader Text UInt8 β}
    {following : Language UInt8 β} (nextReads : value = true → Reads next following) :
    Reads (checked (check value) >>= fun _ => next) fun result piece =>
      value = true ∧ following result piece := by
  cases value with
  | true => exact reads_check_bind (nextReads rfl)
  | false =>
      intro input result rest
      rw [stateful_bind_eq_ok]
      constructor
      · intro found
        obtain ⟨_, _, passed, _⟩ := found
        cases passed
      · intro found
        obtain ⟨_, ⟨impossible, _⟩, _⟩ := found
        cases impossible

theorem reads_checked_bind {β γ : Type} (computation : Except Text β)
    {next : β → Reader Text UInt8 γ} {following : β → Language UInt8 γ}
    (nextReads : ∀ value, Reads (next value) (following value)) :
    Reads (checked computation >>= next) fun result piece =>
      ∃ value, computation = .ok value ∧ following value result piece :=
  reads_attempt_bind id computation nextReads

theorem reads_integer (size : Nat) :
    Reads (integer size) fun value piece =>
      value < 256 ^ size ∧ piece = littleEndian value size := by
  unfold integer
  refine (reads_bind_pure (reads_take corrupt size) fromLittleEndian).congr ?_
  intro value piece
  constructor
  · intro found
    obtain ⟨data, ⟨rfl, sized⟩, rfl⟩ := found
    have small := fromLittleEndian_lt piece
    have back := littleEndian_fromLittleEndian piece
    rw [sized] at small back
    exact ⟨small, back.symm⟩
  · intro both
    obtain ⟨small, rfl⟩ := both
    exact ⟨_, ⟨rfl, littleEndian_length value size⟩, fromLittleEndian_littleEndian small⟩

theorem reads_u64 : Reads u64 fun value piece => piece = littleEndian value.toNat 8 := by
  unfold u64
  refine (reads_bind_pure (reads_integer 8) UInt64.ofNat).congr ?_
  intro value piece
  constructor
  · intro found
    obtain ⟨number, ⟨small, rfl⟩, rfl⟩ := found
    rw [UInt64.toNat_ofNat_of_lt' small]
  · intro written
    exact ⟨value.toNat, ⟨value.toNat_lt, written⟩, UInt64.ofNat_toNat⟩

theorem reads_u32 : Reads u32 fun value piece => piece = littleEndian value.toNat 4 := by
  unfold u32
  refine (reads_bind_pure (reads_integer 4) UInt32.ofNat).congr ?_
  intro value piece
  constructor
  · intro found
    obtain ⟨number, ⟨small, rfl⟩, rfl⟩ := found
    rw [UInt32.toNat_ofNat_of_lt' small]
  · intro written
    exact ⟨value.toNat, ⟨value.toNat_lt, written⟩, UInt32.ofNat_toNat⟩

theorem reads_readText {maximum : Nat} (fits : maximum < 256 ^ 4) :
    Reads (readText maximum) fun value piece =>
      value.length ≤ maximum ∧ piece = text value := by
  unfold readText
  refine (reads_bind (reads_integer 4) fun length =>
    reads_check_bind (reads_take corrupt length)).congr ?_
  intro value piece
  simp only [decide_eq_true_eq]
  constructor
  · intro found
    obtain ⟨length, _, _, ⟨small, rfl⟩, ⟨within, rfl, sized⟩, rfl⟩ := found
    refine ⟨by omega, ?_⟩
    rw [text, textBytes, sized]
  · intro both
    obtain ⟨within, rfl⟩ := both
    exact ⟨value.length, _, _, ⟨by omega, rfl⟩, ⟨within, rfl, rfl⟩, rfl⟩

theorem reads_magic (value : Text) : Reads (magic value) fun _ piece => piece = value := by
  unfold magic
  refine (reads_bind (reads_take corrupt value.length) fun data =>
    reads_attempt id (check (data == value))).congr ?_
  intro done piece
  simp only [Language.andThen, Language.exactly, Language.free, check_eq_ok, beq_iff_eq]
  constructor
  · intro found
    obtain ⟨data, front, back, ⟨rfl, _⟩, ⟨rfl, rfl⟩, rfl⟩ := found
    exact List.append_nil _
  · intro same
    subst same
    exact ⟨piece, piece, [], ⟨rfl, rfl⟩, ⟨rfl, rfl⟩, (List.append_nil _).symm⟩

/-- A mapping whose texts the reader takes. -/
structure Readable (binding : CreatedBinding) : Prop where
  temporaryId : binding.temporaryId.length ≤ 64
  worldId : binding.worldId.length ≤ 128
  entityUuid : binding.entityUuid.length ≤ 36

theorem reads_readBinding (read : List CreatedBinding) :
    Reads (readBinding read) fun next piece =>
      ∃ binding, (Readable binding ∧ piece = bindingBytes binding) ∧
        next = read ++ [binding] := by
  unfold readBinding
  refine (reads_bind (@reads_readText 64 (by decide)) fun temporaryId =>
    reads_bind (@reads_readText 128 (by decide)) fun worldId =>
    reads_bind (@reads_readText 36 (by decide)) fun entityUuid =>
    reads_bind_pure reads_u64 fun generation =>
      read ++ [⟨temporaryId, worldId, entityUuid, generation⟩]).congr ?_
  intro next piece
  simp only [Language.andThen]
  constructor
  · intro found
    obtain ⟨temporaryId, _, _, ⟨first, rfl⟩, ⟨worldId, _, _, ⟨second, rfl⟩,
      ⟨entityUuid, _, _, ⟨third, rfl⟩, ⟨generation, rfl, rfl⟩, rfl⟩, rfl⟩, rfl⟩ := found
    refine ⟨⟨temporaryId, worldId, entityUuid, generation⟩, ⟨⟨first, second, third⟩, ?_⟩, rfl⟩
    simp only [bindingBytes, List.append_assoc]
  · intro found
    obtain ⟨binding, ⟨readable, rfl⟩, rfl⟩ := found
    refine ⟨binding.temporaryId, _, _, ⟨readable.temporaryId, rfl⟩,
      ⟨binding.worldId, _, _, ⟨readable.worldId, rfl⟩,
      ⟨binding.entityUuid, _, _, ⟨readable.entityUuid, rfl⟩,
      ⟨binding.generation, rfl, rfl⟩, rfl⟩, rfl⟩, ?_⟩
    simp only [bindingBytes, List.append_assoc]

/-- Mappings that the reader takes. -/
structure ReadableAll (values : List CreatedBinding) : Prop where
  few : values.length ≤ operationLimit
  each : ∀ binding ∈ values, Readable binding

theorem reads_readBindings :
    Reads readBindings fun values piece => ReadableAll values ∧ piece = bindings values := by
  have loop (count : Nat) : Reads (times readBinding count []) fun values piece =>
      values.length = count ∧ (∀ binding ∈ values, Readable binding) ∧
        piece = values.flatMap bindingBytes := by
    refine (reads_times reads_readBinding count []).congr ?_
    intro values piece
    refine (rounds_iff _ (fun binding piece => Readable binding ∧ piece = bindingBytes binding)
      id (fun _ => True) (fun _ _ _ => trivial) ?_ count [] values piece trivial).trans ?_
    · intro items next piece _
      simp only [id_eq, true_and]
    · simp only [sequence_written, List.nil_append, id_eq, true_and]
      constructor
      · intro found
        obtain ⟨items, sized, ⟨each, written⟩, rfl⟩ := found
        exact ⟨sized, each, written⟩
      · intro parts
        obtain ⟨sized, each, written⟩ := parts
        exact ⟨values, sized, ⟨each, written⟩, rfl⟩
  unfold readBindings
  refine (reads_bind (reads_integer 4) fun count => reads_check_bind (loop count)).congr ?_
  intro values piece
  simp only [Language.andThen, decide_eq_true_eq]
  constructor
  · intro found
    obtain ⟨count, _, _, ⟨_, rfl⟩, ⟨few, sized, each, rfl⟩, rfl⟩ := found
    refine ⟨⟨sized ▸ few, each⟩, ?_⟩
    rw [bindings, sized]
  · intro found
    obtain ⟨⟨few, each⟩, rfl⟩ := found
    refine ⟨values.length, _, _, ⟨?_, rfl⟩, ⟨few, rfl, each, rfl⟩, rfl⟩
    exact Nat.lt_of_le_of_lt few (by decide)

section Items

variable {α : Type} [Scalar α] {library : JsonLibrary α}

/-- One commit of a store: its entry and the envelope that the entry's payload spells. -/
structure Item (α : Type) where
  entry : Entry
  envelope : Envelope α

def Item.receipt (item : Item α) : Receipt :=
  durableReceipt item.envelope.transactionId item.entry

def Item.record (item : Item α) : Replay.Record α where
  sequence := item.entry.sequence
  boundaryTick := item.entry.tick
  expectedRevision := item.envelope.expectedWorldRevision
  budget := item.envelope.budget
  operations := item.envelope.operations
  created := item.entry.created
  checkpoint := item.entry.checkpoint

/-- What an item says of itself, after the items before it. -/
structure Follows (library : JsonLibrary α) (config : Config) (epoch : Text)
    (before : List (Item α)) (item : Item α) : Prop where
  sequence : item.entry.sequence.toNat = before.length + 1
  ordered : ∀ last, before.getLast? = some last → last.entry.tick ≤ item.entry.tick
  command : storedCommand library config epoch before.length item.entry.payload =
    .ok item.envelope

/-- The items of a store, one after another. -/
def Lawful (library : JsonLibrary α) (config : Config) (epoch : Text) :
    List (Item α) → Prop :=
  Logs.Each (Follows library config epoch)

/-- An entry whose texts and blobs the reader takes. -/
structure ReadableEntry (entry : Entry) : Prop where
  payload : entry.payload.length ≤ Replay.commandLimit
  created : ReadableAll entry.created
  checkpoint : entry.checkpoint.length ≤ Replay.checkpointLimit

/-- What the loop of `decode` has built after some items. -/
def decodedItems (low : Nat) (items : List (Item α)) : Decoding α where
  entries := items.map Item.entry
  records := items.map Item.record
  receipts :=
    (items.filter fun item => decide (low ≤ item.entry.sequence.toNat)).map Item.receipt

theorem storedCommand_eq_ok (faithful : library.Faithful) {config : Config} {epoch : Text}
    {index : Nat} {payload : Text} {envelope : Envelope α} :
    storedCommand library config epoch index payload = .ok envelope ↔
      serialize library envelope = .ok payload ∧ bounded envelope = true ∧
        envelope.worldId = config.worldId ∧
        envelope.expectedWorldRevision.toNat = index ∧
        envelope.idempotency.sequence.toNat = index + 1 ∧
        envelope.idempotency.epoch = epoch := by
  unfold storedCommand
  simp only [bind_eq_ok, mapError_eq_ok, check_eq_ok, Bool.and_eq_true, beq_iff_eq, pure_eq_ok,
    exists_const]
  constructor
  · intro found
    obtain ⟨parsed, _, ⟨⟨⟨⟨sized, worldId⟩, revision⟩, sequence⟩, epochs⟩, json, serialized,
      rfl, rfl⟩ := found
    exact ⟨serialized, sized, worldId, revision, sequence, epochs⟩
  · intro parts
    obtain ⟨serialized, sized, worldId, revision, sequence, epochs⟩ := parts
    exact ⟨envelope, (parse_serialize faithful serialized).1,
      ⟨⟨⟨⟨sized, worldId⟩, revision⟩, sequence⟩, epochs⟩, payload, serialized, rfl, rfl⟩

theorem reads_readEntry (config : Config) (epoch : Text) (low : Nat) (decoding : Decoding α) :
    Reads (readEntry library config epoch low decoding) fun next piece =>
      ∃ item : Item α, (ReadableEntry item.entry ∧ piece = entryBytes item.entry) ∧
        (item.entry.sequence.toNat = decoding.entries.length + 1 ∧
          (∀ last, decoding.entries.getLast? = some last → last.tick ≤ item.entry.tick) ∧
          storedCommand library config epoch decoding.entries.length item.entry.payload =
            .ok item.envelope) ∧
        next =
          ⟨decoding.entries ++ [item.entry],
            decoding.records ++ [{ item.record with
              expectedRevision := UInt64.ofNat decoding.entries.length }],
            if low ≤ item.entry.sequence.toNat then decoding.receipts ++ [item.receipt]
            else decoding.receipts⟩ := by
  unfold readEntry
  refine (reads_bind reads_u64 fun sequence =>
    reads_bind reads_u64 fun tick =>
    reads_bind (@reads_readText Replay.commandLimit (by decide)) fun payload =>
    reads_bind reads_readBindings fun created =>
    reads_bind (@reads_readText Replay.checkpointLimit (by decide)) fun checkpoint =>
    reads_check_bind <|
    reads_checked_bind (storedCommand library config epoch decoding.entries.length payload)
      fun envelope => reads_pure _).congr ?_
  intro next piece
  simp only [Language.andThen, Language.free, Bool.and_eq_true, beq_iff_eq,
    Option.all_eq_true, decide_eq_true_eq]
  constructor
  · intro found
    obtain ⟨sequence, _, _, rfl, ⟨tick, _, _, rfl, ⟨payload, _, _, ⟨payloadFits, rfl⟩,
      ⟨created, _, _, ⟨createdFits, rfl⟩, ⟨checkpoint, _, _, ⟨checkpointFits, rfl⟩,
      ⟨⟨numbered, ordered⟩, envelope, command, rfl, rfl⟩, rfl⟩, rfl⟩, rfl⟩, rfl⟩, rfl⟩ := found
    refine ⟨⟨⟨sequence, tick, payload, created, checkpoint⟩, envelope⟩,
      ⟨⟨payloadFits, createdFits, checkpointFits⟩, ?_⟩, ⟨numbered, ordered, command⟩, rfl⟩
    simp only [entryBytes, List.append_assoc, List.append_nil]
  · intro found
    obtain ⟨item, ⟨⟨payloadFits, createdFits, checkpointFits⟩, rfl⟩,
      ⟨numbered, ordered, command⟩, rfl⟩ := found
    refine ⟨item.entry.sequence, _, _, rfl, ⟨item.entry.tick, _, _, rfl,
      ⟨item.entry.payload, _, _, ⟨payloadFits, rfl⟩,
      ⟨item.entry.created, _, _, ⟨createdFits, rfl⟩,
      ⟨item.entry.checkpoint, _, _, ⟨checkpointFits, rfl⟩,
      ⟨⟨numbered, ordered⟩, item.envelope, command, rfl, rfl⟩, rfl⟩, rfl⟩, rfl⟩, rfl⟩, ?_⟩
    simp only [entryBytes, List.append_assoc, List.append_nil]

/-- The loop of `decode` reads items one after another. -/
theorem reads_entries (faithful : library.Faithful) (config : Config) (epoch : Text)
    (low count : Nat) :
    Reads (times (readEntry library config epoch low) count ⟨[], [], []⟩)
      fun decoding piece =>
        ∃ items : List (Item α), items.length = count ∧ Lawful library config epoch items ∧
          (∀ item ∈ items, ReadableEntry item.entry) ∧
          piece = items.flatMap (fun item => entryBytes item.entry) ∧
          decoding = decodedItems low items := by
  refine (reads_times (reads_readEntry config epoch low) count ⟨[], [], []⟩).congr ?_
  intro decoding piece
  refine (rounds_iff _
    (fun item piece => ReadableEntry (Item.entry item) ∧ piece = entryBytes item.entry)
    (decodedItems low) (Lawful library config epoch) (fun _ _ each => each.front) ?_ count []
    decoding piece Logs.Each.nil).trans ?_
  · intro items next piece lawful
    refine exists_congr fun item => and_congr_right fun _ => ?_
    have lasts : (∀ last, (items.map Item.entry).getLast? = some last →
          last.tick ≤ item.entry.tick) ↔
        ∀ last, items.getLast? = some last → last.entry.tick ≤ item.entry.tick := by
      rw [List.getLast?_map]
      simp
    have grown (follows : Follows library config epoch items item) :
        decodedItems low (items ++ [item]) =
          ⟨items.map Item.entry ++ [item.entry],
            items.map Item.record ++
              [{ item.record with expectedRevision := UInt64.ofNat items.length }],
            if low ≤ item.entry.sequence.toNat then
              (decodedItems low items).receipts ++ [item.receipt]
            else (decodedItems low items).receipts⟩ := by
      have revision : UInt64.ofNat items.length = item.envelope.expectedWorldRevision := by
        obtain ⟨_, _, _, same, _⟩ := (storedCommand_eq_ok faithful).mp follows.command
        rw [← same, UInt64.ofNat_toNat]
      by_cases kept : low ≤ item.entry.sequence.toNat
      · simp [decodedItems, kept, revision, Item.record]
      · simp [decodedItems, kept, revision, Item.record]
    simp only [Lawful, Logs.each_snoc]
    constructor
    · intro both
      obtain ⟨⟨numbered, ordered, command⟩, rfl⟩ := both
      simp only [decodedItems, List.length_map] at numbered command
      have follows : Follows library config epoch items item :=
        ⟨numbered, lasts.mp ordered, command⟩
      refine ⟨⟨lawful, follows⟩, ?_⟩
      rw [grown follows]
      simp only [decodedItems, List.length_map]
    · intro both
      obtain ⟨⟨_, follows⟩, rfl⟩ := both
      rw [grown follows]
      simp only [decodedItems, List.length_map]
      exact ⟨⟨follows.sequence, lasts.mpr follows.ordered, follows.command⟩, trivial⟩
  · simp only [@sequence_written _ _ (fun item : Item α => ReadableEntry item.entry)
      (fun item => entryBytes item.entry), List.nil_append]
    refine exists_congr fun items => ?_
    tauto

/-- A receipt whose texts the reader takes. -/
structure ReadableReceipt (receipt : Receipt) : Prop where
  status : receipt.status.length ≤ 16
  durability : receipt.durability.length ≤ 16
  transactionId : receipt.transactionId.length ≤ 36
  created : ReadableAll receipt.created
  errors : receipt.errors = []

theorem reads_readReceipt (expected read : List Receipt) :
    Reads (readReceipt expected read) fun next piece =>
      ∃ receipt, (ReadableReceipt receipt ∧ piece = receiptBytes receipt) ∧
        expected[read.length]? = some receipt ∧ next = read ++ [receipt] := by
  unfold readReceipt
  refine (reads_bind (@reads_readText 16 (by decide)) fun status =>
    reads_bind (@reads_readText 16 (by decide)) fun durability =>
    reads_bind (@reads_readText 36 (by decide)) fun transactionId =>
    reads_bind reads_u64 fun worldRevision =>
    reads_bind reads_readBindings fun created =>
    reads_bind (reads_integer 4) fun errors =>
    reads_check_bind <| reads_check_bind <| reads_pure _).congr ?_
  intro next piece
  simp only [Language.andThen, Language.free, beq_iff_eq]
  constructor
  · intro found
    obtain ⟨status, _, _, ⟨statusFits, rfl⟩, ⟨durability, _, _, ⟨durabilityFits, rfl⟩,
      ⟨transactionId, _, _, ⟨idFits, rfl⟩, ⟨worldRevision, _, _, rfl,
      ⟨created, _, _, ⟨createdFits, rfl⟩, ⟨_, _, _, ⟨_, rfl⟩, ⟨rfl, same, rfl, rfl⟩, rfl⟩,
      rfl⟩, rfl⟩, rfl⟩, rfl⟩, rfl⟩ := found
    refine ⟨⟨status, durability, transactionId, worldRevision, created, []⟩,
      ⟨⟨statusFits, durabilityFits, idFits, createdFits, rfl⟩, ?_⟩, same, rfl⟩
    simp only [receiptBytes, List.append_assoc, List.append_nil]
  · intro found
    obtain ⟨⟨status, durability, transactionId, worldRevision, created, errors⟩,
      ⟨⟨statusFits, durabilityFits, idFits, createdFits, none⟩, rfl⟩, same, rfl⟩ := found
    obtain rfl : errors = [] := none
    refine ⟨status, _, _, ⟨statusFits, rfl⟩, ⟨durability, _, _, ⟨durabilityFits, rfl⟩,
      ⟨transactionId, _, _, ⟨idFits, rfl⟩, ⟨worldRevision, _, _, rfl,
      ⟨created, _, _, ⟨createdFits, rfl⟩, ⟨0, _, _, ⟨by decide, rfl⟩, ⟨rfl, same, rfl, rfl⟩,
      rfl⟩, rfl⟩, rfl⟩, rfl⟩, rfl⟩, ?_⟩
    simp only [receiptBytes, List.append_assoc, List.append_nil]

/-- The receipts' loop reads back exactly the receipts that are expected. -/
theorem reads_receipts (expected : List Receipt) :
    Reads (times (readReceipt expected) expected.length []) fun receipts piece =>
      receipts = expected ∧ (∀ receipt ∈ expected, ReadableReceipt receipt) ∧
        piece = expected.flatMap receiptBytes := by
  refine (reads_times (reads_readReceipt expected) expected.length []).congr ?_
  intro receipts piece
  refine (rounds_iff _
    (fun receipt piece => ReadableReceipt receipt ∧ piece = receiptBytes receipt) id
    (fun items => items <+: expected) ?_ ?_ expected.length [] receipts piece
    List.nil_prefix).trans ?_
  · intro front back before
    exact (List.prefix_append front back).trans before
  · intro items next piece before
    simp only [id_eq, prefix_snoc_iff before]
  · simp only [sequence_written, List.nil_append, id_eq]
    constructor
    · intro found
      obtain ⟨items, sized, ⟨each, written⟩, before, rfl⟩ := found
      obtain rfl := before.eq_of_length sized
      exact ⟨rfl, each, written⟩
    · intro parts
      obtain ⟨rfl, each, written⟩ := parts
      exact ⟨receipts, rfl, ⟨each, written⟩, List.prefix_rfl, rfl⟩

end Items

section Packages

variable {α : Type} [Scalar α] {library : JsonLibrary α}

/-- The package that a store holds after some commits. -/
def packageOf (config : Config) (epoch : Text) (items : List (Item α)) : Package where
  config := config
  epoch := epoch
  entries := items.map Item.entry
  receipts := (items.drop (lowWater items.length - 1)).map Item.receipt

omit [Scalar α] in
theorem packageOf_high (config : Config) (epoch : Text) (items : List (Item α)) :
    (packageOf config epoch items).high = items.length := by
  simp [packageOf, Package.high]

theorem Lawful.retained {config : Config} {epoch : Text} {items : List (Item α)}
    (lawful : Lawful library config epoch items) (low : Nat) :
    (items.filter fun item => decide (low ≤ item.entry.sequence.toNat)) =
      items.drop (low - 1) := by
  induction items using List.reverseRecOn with
  | nil => simp
  | append_singleton items item inductionHypothesis =>
      obtain ⟨before, follows⟩ := (Logs.each_snoc items item).mp lawful
      rw [List.filter_append, inductionHypothesis before, List.drop_append]
      by_cases kept : low ≤ items.length + 1
      · have none : low - 1 - items.length = 0 := by omega
        simp [follows.sequence, kept, none]
      · have one : 1 ≤ low - 1 - items.length := by omega
        simp [follows.sequence, kept, one]

theorem lowWater_positive (high : Nat) : 1 ≤ lowWater high := by
  unfold lowWater
  split <;> omega

theorem lowWater_le (high : Nat) : lowWater high ≤ max high 1 := by
  unfold lowWater receiptLimit
  split <;> omega

theorem reads_readConfig :
    Reads readConfig fun config piece =>
      validConfig config = true ∧ piece = configBytes config := by
  unfold readConfig
  refine (reads_bind (@reads_readText 128 (by decide)) fun worldId =>
    reads_bind reads_u32 fun seed =>
    reads_bind reads_u32 fun maxSlots =>
    reads_bind reads_u64 fun byteQuota =>
    reads_check_bind <| reads_pure _).congr ?_
  intro config piece
  simp only [Language.andThen, Language.free]
  constructor
  · intro found
    obtain ⟨worldId, _, _, ⟨_, rfl⟩, ⟨seed, _, _, rfl, ⟨maxSlots, _, _, rfl,
      ⟨byteQuota, _, _, rfl, ⟨valid, rfl, rfl⟩, rfl⟩, rfl⟩, rfl⟩, rfl⟩ := found
    refine ⟨valid, ?_⟩
    simp only [configBytes, List.append_assoc, List.append_nil]
  · intro both
    obtain ⟨valid, rfl⟩ := both
    have parts := valid
    simp only [validConfig, Bool.and_eq_true, decide_eq_true_eq] at parts
    refine ⟨config.worldId, _, _, ⟨parts.1.1.1.2, rfl⟩, ⟨config.seed, _, _, rfl,
      ⟨config.maxSlots, _, _, rfl, ⟨config.byteQuota, _, _, rfl, ⟨valid, rfl, rfl⟩, rfl⟩, rfl⟩,
      rfl⟩, ?_⟩
    simp only [configBytes, List.append_assoc, List.append_nil]

/-- What the reader of a package takes in, before the replay. -/
structure Legible (library : JsonLibrary α) (config : Config) (epoch : Text)
    (items : List (Item α)) : Prop where
  configured : validConfig config = true
  spelled : Assets.validHash epoch = true
  few : items.length ≤ commitLimit
  lawful : Lawful library config epoch items
  entries : ∀ item ∈ items, ReadableEntry item.entry
  receipts : ∀ receipt ∈ (packageOf config epoch items).receipts, ReadableReceipt receipt

theorem manifest_fits : Replay.builtinManifest.length ≤ 4096 := by
  decide +kernel

theorem sha256_fits : Replay.builtinSha256.length ≤ 64 := by
  decide +kernel

theorem reads_readPackage (faithful : library.Faithful) :
    Reads (readPackage library) fun found piece =>
      ∃ config epoch items, Legible library config epoch items ∧
        piece = packageBytes (packageOf config epoch items) ∧
        found = (packageOf config epoch items,
          .of config.worldId config.seed config.maxSlots (items.map Item.record)) := by
  unfold readPackage
  refine (reads_bind (reads_magic packageMagic) fun _ =>
    reads_bind reads_readConfig fun config =>
    reads_bind (@reads_readText 64 (by decide)) fun epoch =>
    reads_check_bind <|
    reads_bind reads_u64 fun high =>
    reads_bind reads_u64 fun low =>
    reads_check_bind <|
    reads_bind (@reads_readText 4096 (by decide)) fun manifest =>
    reads_check_bind <|
    reads_bind (@reads_readText 64 (by decide)) fun sha256 =>
    reads_check_bind <|
    reads_bind (reads_integer 4) fun count =>
    reads_check_bind <|
    reads_bind (reads_entries faithful config epoch low.toNat count) fun decoding =>
    reads_bind (reads_integer 4) fun retained =>
    @reads_when _ _ _ (fun found piece =>
      (∀ receipt ∈ decoding.receipts, ReadableReceipt receipt) ∧
        piece = decoding.receipts.flatMap receiptBytes ∧
        found = ((⟨config, epoch, decoding.entries, decoding.receipts⟩ : Package),
          Replay.Log.of config.worldId config.seed config.maxSlots decoding.records))
      fun same => ?_).congr ?_
  · obtain rfl : retained = decoding.receipts.length := by simpa using same
    refine (reads_bind_pure (reads_receipts decoding.receipts) _).congr ?_
    intro found piece
    constructor
    · intro read
      obtain ⟨receipts, ⟨rfl, each, written⟩, rfl⟩ := read
      exact ⟨each, written, rfl⟩
    · intro parts
      obtain ⟨each, written, rfl⟩ := parts
      exact ⟨_, ⟨rfl, each, written⟩, rfl⟩
  · intro found piece
    simp only [Language.andThen, Bool.and_eq_true, beq_iff_eq, decide_eq_true_eq]
    constructor
    · intro read
      obtain ⟨_, _, _, rfl, read, rfl⟩ := read
      obtain ⟨config, _, _, ⟨configured, rfl⟩, read, rfl⟩ := read
      obtain ⟨epoch, _, _, ⟨_, rfl⟩, ⟨spelled, read⟩, rfl⟩ := read
      obtain ⟨high, _, _, rfl, read, rfl⟩ := read
      obtain ⟨low, _, _, rfl, ⟨⟨few, lowest⟩, read⟩, rfl⟩ := read
      obtain ⟨manifest, _, _, ⟨_, rfl⟩, ⟨rfl, read⟩, rfl⟩ := read
      obtain ⟨sha256, _, _, ⟨_, rfl⟩, ⟨rfl, read⟩, rfl⟩ := read
      obtain ⟨count, _, _, ⟨_, rfl⟩, ⟨counted, read⟩, rfl⟩ := read
      obtain ⟨decoding, _, _, ⟨items, sized, lawful, entries, rfl, rfl⟩, read, rfl⟩ := read
      obtain ⟨retained, _, _, ⟨_, rfl⟩, ⟨kept, readable, rfl, rfl⟩, rfl⟩ := read
      have length : high.toNat = items.length := by rw [sized, counted]
      have receipts : (decodedItems low.toNat items).receipts =
          (packageOf config epoch items).receipts := by
        rw [decodedItems, lawful.retained, lowest, length]
        rfl
      refine ⟨config, epoch, items, ⟨configured, spelled, length ▸ few, lawful, entries,
        receipts ▸ readable⟩, ?_, ?_⟩
      · rw [length] at lowest counted
        simp only [kept, receipts, packageBytes, packageOf_high, Package.low, ← lowest, length,
          counted, List.append_assoc]
        simp only [packageOf, List.length_map, List.flatMap_map]
      · rw [receipts]
        rfl
    · intro written
      obtain ⟨config, epoch, items, legible, rfl, rfl⟩ := written
      have few := legible.few
      have length : (UInt64.ofNat items.length).toNat = items.length :=
        UInt64.toNat_ofNat_of_lt' (Nat.lt_of_le_of_lt few (by decide))
      have lowest : (UInt64.ofNat (lowWater items.length)).toNat = lowWater items.length := by
        refine UInt64.toNat_ofNat_of_lt' (Nat.lt_of_le_of_lt ?_ (by decide : 8 < 2 ^ 64))
        unfold lowWater receiptLimit
        unfold commitLimit at few
        split <;> omega
      have receipts : (decodedItems (lowWater items.length) items).receipts =
          (packageOf config epoch items).receipts := by
        rw [decodedItems, legible.lawful.retained]
        rfl
      have retained : (packageOf config epoch items).receipts.length < 256 ^ 4 := by
        have bound : 8 < 256 ^ 4 := by decide
        simp only [packageOf, List.length_map, List.length_drop]
        unfold commitLimit at few
        omega
      have epochLength : epoch.length ≤ 64 := by
        have spelled := legible.spelled
        simp only [Assets.validHash, Bool.and_eq_true, beq_iff_eq] at spelled
        exact spelled.1.le
      refine ⟨(), _, _, rfl, ⟨config, _, _, ⟨legible.configured, rfl⟩, ⟨epoch, _, _,
        ⟨epochLength, rfl⟩, ⟨legible.spelled, UInt64.ofNat items.length, _, _, rfl,
        ⟨UInt64.ofNat (lowWater items.length), _, _, rfl, ⟨⟨length.symm ▸ few, ?_⟩,
        Replay.builtinManifest, _, _, ⟨manifest_fits, rfl⟩, ⟨rfl,
        Replay.builtinSha256, _, _, ⟨sha256_fits, rfl⟩, ⟨rfl,
        items.length, _, _, ⟨Nat.lt_of_le_of_lt few (by decide), rfl⟩, ⟨length.symm,
        decodedItems (lowWater items.length) items, _, _, ⟨items, rfl, legible.lawful,
          legible.entries, rfl, by rw [lowest]⟩,
        ⟨(packageOf config epoch items).receipts.length, _, _, ⟨retained, rfl⟩,
          ⟨by rw [receipts], ?_, rfl, ?_⟩, rfl⟩, rfl⟩, rfl⟩, rfl⟩,
        rfl⟩, rfl⟩, rfl⟩, rfl⟩, rfl⟩, ?_⟩
      · rw [length, lowest]
      · rw [receipts]
        exact legible.receipts
      · rw [receipts]
        rfl
      · simp only [receipts, packageBytes, packageOf_high, Package.low, lowest, length,
          List.append_assoc]
        simp only [packageOf, List.length_map, List.flatMap_map]

end Packages

section Stores

variable {α : Type} [Scalar α] {library : JsonLibrary α}

/-- The items were committed one after another on the world of the configuration, and
`state` is what they made of it. -/
structure Stored (library : JsonLibrary α) (config : Config) (epoch : Text)
    (items : List (Item α)) (state : Snapshot α) : Prop where
  configured : validConfig config = true
  spelled : Assets.validHash epoch = true
  few : items.length ≤ commitLimit
  lawful : Lawful library config epoch items
  recordings :
    ∃ fresh, World.create config.worldId config.seed config.maxSlots = .ok fresh ∧
      Replay.Recordings library fresh (items.map Item.record) state

/-- The log that `decode` replays. -/
def logOf (config : Config) (items : List (Item α)) : Replay.Log α :=
  .of config.worldId config.seed config.maxSlots (items.map Item.record)

theorem preflightRecords_each {log : Replay.Log α} {records : List (Replay.Record α)} :
    ∀ {index : Nat} {tick : UInt64},
      Replay.preflightRecords library log index tick records = .ok () →
      ∀ record ∈ records, ∃ place earlier,
        Replay.preflightRecord library log place earlier record = .ok () := by
  induction records with
  | nil =>
      intro index tick _ record member
      cases member
  | cons first rest inductionHypothesis =>
      intro index tick passed record member
      obtain ⟨_, firstOk, others⟩ := bind_eq_ok.mp passed
      rcases List.mem_cons.mp member with rfl | later
      · exact ⟨index, tick, firstOk⟩
      · exact inductionHypothesis others record later

theorem Lawful.member {config : Config} {epoch : Text} {items : List (Item α)}
    (lawful : Lawful library config epoch items) {item : Item α} (member : item ∈ items) :
    ∃ before, Follows library config epoch before item ∧ before.length < items.length := by
  obtain ⟨before, after, split, follows⟩ := Logs.Each.member lawful member
  refine ⟨before, follows, ?_⟩
  rw [split, List.length_append, List.length_cons]
  omega

/-- The command of an item is valid, short, and small enough for the store. -/
theorem Follows.valid (faithful : library.Faithful) {config : Config} {epoch : Text}
    {before : List (Item α)} {item : Item α}
    (follows : Follows library config epoch before item) :
    ValidEnvelope item.envelope ∧ item.envelope.operations.length ≤ operationLimit ∧
      serialize library item.envelope = .ok item.entry.payload ∧
      item.entry.payload.length ≤ Replay.commandLimit := by
  obtain ⟨serialized, sized, _⟩ := (storedCommand_eq_ok faithful).mp follows.command
  have valid := (serialize_eq_ok serialized).1
  have few : item.envelope.operations.length ≤ operationLimit := by
    simp only [bounded, Bool.and_eq_true] at sized
    exact (Replay.bounded_valid valid).mp sized.1
  refine ⟨valid, few, serialized, ?_⟩
  have short := (parse_serialize faithful serialized).2
  unfold Replay.commandLimit
  unfold operationLimit at few
  omega

theorem validConfig_iff {config : Config} :
    validConfig config = true ↔
      config.worldId ≠ [] ∧ config.worldId.length ≤ 128 ∧ 1 ≤ config.maxSlots ∧
        config.maxSlots ≤ 8 ∧ config.byteQuota.toNat ≤ maximumQuota := by
  simp only [validConfig, Bool.and_eq_true, decide_eq_true_eq, Bool.not_eq_true',
    List.isEmpty_eq_false_iff]
  tauto

theorem Stored.replayable {config : Config} {epoch : Text}
    {items : List (Item α)} {state : Snapshot α}
    (stored : Stored library config epoch items state) :
    Replay.Replayable library (logOf config items) [Replay.Asset.builtin] state where
  shape := rfl
  small := (validConfig_iff.mp stored.configured).2.2.2.1
  few := by
    change (items.map Item.record).length ≤ Replay.entryLimit
    rw [List.length_map]
    exact stored.few
  assets := ⟨Nat.le_of_ble_eq_true rfl, List.mem_singleton.mpr rfl⟩
  recordings := stored.recordings

theorem Stored.legible (faithful : library.Faithful) {config : Config} {epoch : Text}
    {items : List (Item α)} {state : Snapshot α}
    (stored : Stored library config epoch items state) :
    Legible library config epoch items := by
  obtain ⟨_, small, few, _, fresh, created, recordings⟩ := stored.replayable
  obtain ⟨checked, _⟩ := (@Replay.replays_iff _ _ _ faithful (logOf config items) _ created
    small _ ⟨0, state⟩ few).mpr ⟨recordings, rfl⟩
  have created {item : Item α} (member : item ∈ items) :
      ReadableAll item.entry.created ∧
        item.entry.checkpoint.length ≤ Replay.checkpointLimit := by
    obtain ⟨place, earlier, passed⟩ :=
      preflightRecords_each checked item.record (List.mem_map_of_mem member)
    obtain ⟨_, _, _, _, checkpoint, fewCreated, _, _, mapped, _⟩ :=
      Replay.preflightRecord_eq_ok.mp passed
    refine ⟨⟨fewCreated, ?_⟩, checkpoint⟩
    intro binding issued
    have good := mapped binding issued
    exact ⟨good.temporaryId, good.worldId, good.entityUuid.le⟩
  refine ⟨stored.configured, stored.spelled, stored.few, stored.lawful, ?_, ?_⟩
  · intro item member
    obtain ⟨before, follows, _⟩ := stored.lawful.member member
    exact ⟨(follows.valid faithful).2.2.2, (created member).1, (created member).2⟩
  · intro receipt member
    obtain ⟨item, kept, rfl⟩ := List.mem_map.mp member
    have held := List.mem_of_mem_drop kept
    obtain ⟨before, follows, _⟩ := stored.lawful.member held
    have valid := (follows.valid faithful).1
    exact ⟨(by decide : (ascii "committed").length ≤ 16),
      (by decide : (ascii "durable").length ≤ 16),
      (validUuid_length valid.header.transactionId).le, (created held).1, rfl⟩

/-- `decode` accepts the bytes of stored packages and nothing else. -/
theorem decode_eq_ok (faithful : library.Faithful) {bytes : Bytes} {package : Package}
    {world : LiveWorld α} :
    decode library bytes = .ok (package, world) ↔
      ∃ config epoch items, Stored library config epoch items world.state ∧
        world.address = 0 ∧ package = packageOf config epoch items ∧
        bytes = packageBytes package := by
  have read {found : Package × Replay.Log α} :=
    (reads_readPackage faithful).whole_eq_ok corrupt bytes found
  unfold decode
  rw [bind_eq_ok]
  constructor
  · intro decoded
    obtain ⟨⟨_, log⟩, taken, rebuilt⟩ := decoded
    obtain ⟨config, epoch, items, legible, written, same⟩ := read.mp taken
    obtain ⟨rfl, rfl⟩ := Prod.mk.inj same
    rcases Replay.reconstruct_cases faithful (logOf config items) [Replay.Asset.builtin] with
      ⟨state, replayable, found⟩ | ⟨_, never⟩
    · rw [logOf] at found
      dsimp only at rebuilt
      simp only [found, Except.ok.injEq, Prod.mk.injEq] at rebuilt
      obtain ⟨rfl, rfl⟩ := rebuilt
      exact ⟨config, epoch, items, ⟨legible.configured, legible.spelled, legible.few,
        legible.lawful, replayable.recordings⟩, rfl, rfl, written⟩
    · rw [logOf] at never
      dsimp only at rebuilt
      cases outcome : Replay.reconstruct library
          (.of config.worldId config.seed config.maxSlots (items.map Item.record))
          [Replay.Asset.builtin] with
      | error thrown => simp [outcome] at rebuilt
      | ok result =>
          obtain ⟨held, errors⟩ := result
          cases held with
          | none => simp [outcome] at rebuilt
          | some other => exact absurd outcome (never other errors)
  · intro found
    obtain ⟨config, epoch, items, stored, address, rfl, written⟩ := found
    refine ⟨_, read.mpr ⟨config, epoch, items, stored.legible faithful, written, rfl⟩, ?_⟩
    have replayable := stored.replayable
    rcases Replay.reconstruct_cases faithful (logOf config items) [Replay.Asset.builtin] with
      ⟨state, other, rebuilt⟩ | ⟨never, _⟩
    · have left := (@Replay.rebuild_eq_ok _ _ _ faithful _ _ ⟨0, state⟩).mpr ⟨other, rfl⟩
      have right := (@Replay.rebuild_eq_ok _ _ _ faithful _ _ world).mpr ⟨replayable, address⟩
      rw [left, Except.ok.injEq] at right
      rw [logOf] at rebuilt
      simp only [rebuilt, right]
    · exact absurd replayable (never world.state)

theorem text_length (value : Bytes) : (text value).length = 4 + value.length := by
  simp [text, textBytes]

theorem bindings_length {values : List CreatedBinding} (readable : ReadableAll values) :
    (bindings values).length ≤ 996 := by
  have each : (values.flatMap bindingBytes).length ≤ 248 * values.length := by
    refine Replay.flatMap_length_le ?_
    intro binding member
    obtain ⟨temporaryId, worldId, entityUuid⟩ := readable.each binding member
    simp only [bindingBytes, List.length_append, text_length, littleEndian_length]
    omega
  have few := readable.few
  unfold operationLimit at few
  simp only [bindings, List.length_append, littleEndian_length]
  omega

theorem entryBytes_length {entry : Entry} (readable : ReadableEntry entry) :
    (entryBytes entry).length ≤ 25596 := by
  have created := bindings_length readable.created
  have payload := readable.payload
  have checkpoint := readable.checkpoint
  unfold Replay.commandLimit at payload
  unfold Replay.checkpointLimit at checkpoint
  simp only [entryBytes, List.length_append, text_length, littleEndian_length]
  omega

theorem receiptBytes_length {receipt : Receipt} (readable : ReadableReceipt receipt) :
    (receiptBytes receipt).length ≤ 1088 := by
  have created := bindings_length readable.created
  have status := readable.status
  have durability := readable.durability
  have transactionId := readable.transactionId
  simp only [receiptBytes, List.length_append, text_length, littleEndian_length]
  omega

/-- Every stored package fits. -/
theorem Legible.encode {config : Config} {epoch : Text} {items : List (Item α)}
    (legible : Legible library config epoch items) :
    encode (packageOf config epoch items) =
      .ok (packageBytes (packageOf config epoch items)) := by
  have few := legible.few
  unfold commitLimit at few
  have entries : ((packageOf config epoch items).entries.flatMap entryBytes).length ≤
      25596 * (packageOf config epoch items).entries.length := by
    refine Replay.flatMap_length_le ?_
    intro entry member
    obtain ⟨item, held, rfl⟩ := List.mem_map.mp member
    exact entryBytes_length (legible.entries item held)
  have receipts : ((packageOf config epoch items).receipts.flatMap receiptBytes).length ≤
      1088 * (packageOf config epoch items).receipts.length :=
    Replay.flatMap_length_le fun receipt member =>
      receiptBytes_length (legible.receipts receipt member)
  have entryCount : (packageOf config epoch items).entries.length = items.length := by
    simp [packageOf]
  have receiptCount : (packageOf config epoch items).receipts.length ≤ items.length := by
    simp [packageOf]
  have configured := (validConfig_iff.mp legible.configured).2.1
  have epochs : epoch.length = 64 := by
    have spelled := legible.spelled
    simp only [Assets.validHash, Bool.and_eq_true, beq_iff_eq] at spelled
    exact spelled.1
  have manifest := manifest_fits
  have hash := sha256_fits
  have magicLength : packageMagic.length = 8 := rfl
  have fits : (packageBytes (packageOf config epoch items)).length ≤ packageLimit := by
    simp only [packageBytes, configBytes, List.length_append, text_length, littleEndian_length,
      magicLength]
    change _ + (4 + epoch.length) + _ + _ + _ + _ + _ + _ + _ + _ ≤ _
    unfold packageLimit
    have sameConfig : (packageOf config epoch items).config = config := rfl
    rw [sameConfig]
    omega
  simp only [Persistence.encode, decide_eq_false (Nat.not_lt.mpr fits), rejectIf_false]
  rfl

end Stores

end Omniweft.Persistence
