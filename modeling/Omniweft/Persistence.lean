import Omniweft.AssetsFormat
import Omniweft.Replay

/-!
# The durable store

`persistence.cpp`: every committed batch is appended to a journal as a frame that
holds the whole package, and a compaction replaces the checkpoint by the newest one.
The disk is the two files and the temporary file of a checkpoint; `sha256` is a
parameter. An operation can be stopped by a failure at each of its durable steps.
-/

namespace Omniweft.Persistence

open Omniweft.Outcome Grammar World Commands Transactions

def commitLimit : Nat := 8
def operationLimit : Nat := 4
def receiptLimit : Nat := 4
def maximumQuota : Nat := 8 * 1024 * 1024
def packageLimit : Nat := 256 * 1024
def headerSize : Nat := 52
def frameOverhead : Nat := 92
def journalLimit : Nat := commitLimit * (packageLimit + frameOverhead)

def frameMagic : Text := ascii "OWJRN001"
def endMagic : Text := ascii "OWEND001"
def packageMagic : Text := ascii "OWPKG001"

structure Config where
  worldId : Text
  seed : UInt32
  maxSlots : UInt32
  byteQuota : UInt64
  deriving DecidableEq, Repr

structure Entry where
  sequence : UInt64
  tick : UInt64
  payload : Text
  created : List CreatedBinding
  checkpoint : Bytes
  deriving DecidableEq, Repr

structure Package where
  config : Config
  epoch : Text
  entries : List Entry
  receipts : List Receipt
  deriving DecidableEq, Repr

def Package.high (package : Package) : Nat := package.entries.length

/-- The first sequence number whose receipt is kept. -/
def lowWater (high : Nat) : Nat :=
  if receiptLimit < high then high - receiptLimit + 1 else 1

def Package.low (package : Package) : Nat := lowWater package.high

structure Result where
  receipt : Option Receipt
  replayed : Bool
  durableRevision : Nat
  highWater : Nat
  lowWater : Nat
  recoveryRequired : Bool
  code : Text
  deriving DecidableEq, Repr

def corrupt : Text := ascii "CORRUPT_STORE"

def check (value : Bool) : Except Text Unit := rejectIf (!value) corrupt

/-- The bounds of the replay, and at least one operation. -/
def bounded {α : Type} (envelope : Envelope α) : Bool :=
  Authoring.bounded envelope && !envelope.operations.isEmpty

def validConfig (config : Config) : Bool :=
  !config.worldId.isEmpty && decide (config.worldId.length ≤ 128) &&
    decide (1 ≤ config.maxSlots) && decide (config.maxSlots ≤ 8) &&
    decide (config.byteQuota.toNat ≤ maximumQuota)

/-! ## Packages as bytes -/

/-- `text` and `blob`: a four-byte length and the bytes. -/
def text (value : Bytes) : Bytes := textBytes value

def bindingBytes (binding : CreatedBinding) : Bytes :=
  text binding.temporaryId ++ text binding.worldId ++ text binding.entityUuid ++
    littleEndian binding.generation.toNat 8

def bindings (values : List CreatedBinding) : Bytes :=
  littleEndian values.length 4 ++ values.flatMap bindingBytes

def entryBytes (entry : Entry) : Bytes :=
  littleEndian entry.sequence.toNat 8 ++ littleEndian entry.tick.toNat 8 ++
    text entry.payload ++ bindings entry.created ++ text entry.checkpoint

def receiptBytes (receipt : Receipt) : Bytes :=
  text receipt.status ++ text receipt.durability ++ text receipt.transactionId ++
    littleEndian receipt.worldRevision.toNat 8 ++ bindings receipt.created ++
    littleEndian 0 4

def configBytes (config : Config) : Bytes :=
  text config.worldId ++ littleEndian config.seed.toNat 4 ++
    littleEndian config.maxSlots.toNat 4 ++ littleEndian config.byteQuota.toNat 8

def packageBytes (package : Package) : Bytes :=
  packageMagic ++ configBytes package.config ++ text package.epoch ++
    littleEndian package.high 8 ++ littleEndian package.low 8 ++
    text Replay.builtinManifest ++ text Replay.builtinSha256 ++
    littleEndian package.entries.length 4 ++ package.entries.flatMap entryBytes ++
    littleEndian package.receipts.length 4 ++ package.receipts.flatMap receiptBytes

def encode (package : Package) : Except Text Bytes := do
  rejectIf (decide (packageLimit < (packageBytes package).length)) (ascii "BUDGET_EXCEEDED")
  return packageBytes package

/-- A check or a nested reader whose failure ends the reading. -/
def checked {β : Type} (computation : Except Text β) : Reader Text UInt8 β :=
  attempt id computation

/-- `integer`: the bytes, least significant first. -/
def integer (size : Nat) : Reader Text UInt8 Nat := do
  let data ← take corrupt size
  return fromLittleEndian data

def u64 : Reader Text UInt8 UInt64 := do
  let value ← integer 8
  return UInt64.ofNat value

def u32 : Reader Text UInt8 UInt32 := do
  let value ← integer 4
  return UInt32.ofNat value

/-- `text` and `blob` of the reader. -/
def readText (maximum : Nat) : Reader Text UInt8 Text := do
  let length ← integer 4
  checked (check (decide (length ≤ maximum)))
  take corrupt length

def magic (value : Text) : Reader Text UInt8 Unit := do
  let data ← take corrupt value.length
  checked (check (data == value))

/-- One round of the loop of the bindings' reader. -/
def readBinding (read : List CreatedBinding) : Reader Text UInt8 (List CreatedBinding) := do
  let temporaryId ← readText 64
  let worldId ← readText 128
  let entityUuid ← readText 36
  let generation ← u64
  return read ++ [⟨temporaryId, worldId, entityUuid, generation⟩]

def readBindings : Reader Text UInt8 (List CreatedBinding) := do
  let count ← integer 4
  checked (check (decide (count ≤ operationLimit)))
  times readBinding count []

/-- The receipt a stored entry stands for. -/
def durableReceipt (transactionId : Text) (entry : Entry) : Receipt where
  status := ascii "committed"
  durability := ascii "durable"
  transactionId := transactionId
  worldRevision := entry.sequence
  created := entry.created
  errors := []

section Decoding

variable {α : Type} [Scalar α] (library : JsonLibrary α)

/-- The envelope of a stored command, when it is the next one of its store. -/
def storedCommand (config : Config) (epoch : Text) (index : Nat) (payload : Text) :
    Except Text (Envelope α) := do
  let envelope ← (parse library payload).mapError fun _ => corrupt
  check <| bounded envelope && envelope.worldId == config.worldId &&
    envelope.expectedWorldRevision.toNat == index &&
    envelope.idempotency.sequence.toNat == index + 1 && envelope.idempotency.epoch == epoch
  let json ← (serialize library envelope).mapError fun _ => corrupt
  check (json == payload)
  return envelope

/-- What the loop of `decode` has built so far. -/
structure Decoding (α : Type) where
  entries : List Entry
  records : List (Replay.Record α)
  receipts : List Receipt

/-- One round of the loop of `decode`. -/
def readEntry (config : Config) (epoch : Text) (low : Nat) (decoding : Decoding α) :
    Reader Text UInt8 (Decoding α) := do
  let sequence ← u64
  let tick ← u64
  let payload ← readText Replay.commandLimit
  let created ← readBindings
  let checkpoint ← readText Replay.checkpointLimit
  let index := decoding.entries.length
  checked <| check <| sequence.toNat == index + 1 &&
    decoding.entries.getLast?.all fun last => decide (last.tick ≤ tick)
  let envelope ← checked (storedCommand library config epoch index payload)
  let entry : Entry := ⟨sequence, tick, payload, created, checkpoint⟩
  return {
    entries := decoding.entries ++ [entry]
    records := decoding.records ++
      [⟨sequence, tick, UInt64.ofNat index, envelope.budget, envelope.operations, created,
        checkpoint⟩]
    receipts :=
      if low ≤ sequence.toNat then
        decoding.receipts ++ [durableReceipt envelope.transactionId entry]
      else decoding.receipts }

/-- One round of the receipts' loop of `decode`. -/
def readReceipt (expected : List Receipt) (read : List Receipt) :
    Reader Text UInt8 (List Receipt) := do
  let status ← readText 16
  let durability ← readText 16
  let transactionId ← readText 36
  let worldRevision ← u64
  let created ← readBindings
  let errors ← integer 4
  checked (check (errors == 0))
  let receipt : Receipt := ⟨status, durability, transactionId, worldRevision, created, []⟩
  checked (check (expected[read.length]? == some receipt))
  return read ++ [receipt]

def readConfig : Reader Text UInt8 Config := do
  let worldId ← readText 128
  let seed ← u32
  let maxSlots ← u32
  let byteQuota ← u64
  let config : Config := ⟨worldId, seed, maxSlots, byteQuota⟩
  checked (check (validConfig config))
  return config

def readPackage : Reader Text UInt8 (Package × Replay.Log α) := do
  magic packageMagic
  let config ← readConfig
  let epoch ← readText 64
  checked (check (Assets.validHash epoch))
  let high ← u64
  let low ← u64
  checked <| check <|
    decide (high.toNat ≤ commitLimit) && low.toNat == lowWater high.toNat
  let manifest ← readText 4096
  checked (check (manifest == Replay.builtinManifest))
  let sha256 ← readText 64
  checked (check (sha256 == Replay.builtinSha256))
  let count ← integer 4
  checked (check (count == high.toNat))
  let decoding ← times (readEntry library config epoch low.toNat) count ⟨[], [], []⟩
  let retained ← integer 4
  checked (check (retained == decoding.receipts.length))
  let receipts ← times (readReceipt decoding.receipts) retained []
  return (⟨config, epoch, decoding.entries, receipts⟩,
    .of config.worldId config.seed config.maxSlots decoding.records)

/-- `decode`: the package and its world, built again. -/
def decode (bytes : Bytes) : Except Text (Package × LiveWorld α) := do
  let (package, log) ← whole corrupt (readPackage library) bytes
  match Replay.reconstruct library log [Replay.Asset.builtin] with
  | .ok ⟨some world, []⟩ => .ok (package, world)
  | .ok _ => .error corrupt
  | .error _ => .error (ascii "IO_ERROR")

end Decoding

/-! ## Frames -/

section Frames

variable (sha256 : Bytes → Vector UInt8 32)

def frameHeader (size high : Nat) : Bytes :=
  frameMagic ++ littleEndian size 4 ++ littleEndian high 8

/-- The bytes of a frame around a payload. -/
def frameBytes (payload : Bytes) (high : Nat) : Bytes :=
  let header := frameHeader payload.length high
  let opened := header ++ (sha256 header).toList ++ payload
  opened ++ (sha256 opened).toList ++ endMagic

def frame (package : Package) : Except Text Bytes := do
  let payload ← encode package
  return frameBytes sha256 payload package.high

structure Frame where
  payload : Bytes
  high : Nat
  deriving DecidableEq, Repr

/-- What less than a header must agree with. -/
def tornHeader (remaining : Bytes) : Except Text Unit := do
  check (remaining.take 8 == frameMagic.take remaining.length)
  if 20 < remaining.length then
    check (remaining.drop 20 ==
      (sha256 (remaining.take 20)).toList.take (remaining.length - 20))

/-- `read_frame` on the bytes from the cursor on: nothing for an incomplete frame,
else the frame and the bytes it takes. -/
def readFrame (remaining : Bytes) : Except Text (Option (Frame × Nat)) :=
  if remaining.length < headerSize then do
    tornHeader sha256 remaining
    return none
  else do
    check ((remaining.drop 20).take 32 == (sha256 (remaining.take 20)).toList)
    check (remaining.take 8 == frameMagic)
    let size := fromLittleEndian ((remaining.drop 8).take 4)
    check (decide (size ≤ packageLimit))
    let high := fromLittleEndian ((remaining.drop 12).take 8)
    check (decide (high ≤ commitLimit))
    if remaining.length < size + frameOverhead then return none
    else do
      let payload := (remaining.drop headerSize).take size
      check ((remaining.drop (headerSize + size)).take 32 ==
        (sha256 (remaining.take (headerSize + size))).toList)
      check ((remaining.drop (headerSize + size + 32)).take 8 == endMagic)
      return some (⟨payload, high⟩, size + frameOverhead)

end Frames

/-- `prefix`: the later package continues the earlier one. -/
def prefixed (earlier later : Package) : Except Text Unit := do
  check (earlier.config == later.config && earlier.epoch == later.epoch &&
    decide (earlier.high ≤ later.high))
  check (later.entries.take earlier.high == earlier.entries)

/-! ## The disk -/

/-- The files of a store. The lock file stays empty. -/
structure Disk where
  checkpoint : Bytes
  journal : Bytes
  scratch : Option Bytes
  deriving DecidableEq, Repr

def Disk.sizes (disk : Disk) : List Nat :=
  disk.checkpoint.length :: disk.journal.length :: (disk.scratch.map List.length).toList

def quotaExceeded : Text := ascii "QUOTA_EXCEEDED"

/-- One round of the loop of `bytes_used`. -/
def addSize (total size : Nat) : Except Text Nat := do
  rejectIf (decide (maximumQuota < size) || decide (maximumQuota - size < total))
    quotaExceeded
  return total + size

def bytesUsed (sizes : List Nat) : Except Text Nat :=
  sizes.foldlM addSize 0

def quota (sizes : List Nat) (package : Package) (added : Nat) : Except Text Unit := do
  let used ← bytesUsed sizes
  rejectIf
    (decide (package.config.byteQuota.toNat < used) ||
      decide (package.config.byteQuota.toNat - used < added))
    quotaExceeded

/-- The part of `io::read` that looks at the size of the file. -/
def readLimited (bytes : Bytes) (limit : Nat) : Except Text Bytes := do
  rejectIf (decide (limit < bytes.length)) corrupt
  return bytes

/-! ## Opening -/

section Opening

variable {α : Type} [Scalar α] (library : JsonLibrary α) (sha256 : Bytes → Vector UInt8 32)

/-- What the walk over the journal has found so far. -/
structure Walk (α : Type) where
  restored : Package × LiveWorld α
  prior : Option Package
  cursor : Nat

/-- What a package in the journal must agree with. -/
def consistent (selected : Package) (walk : Walk α) (candidate : Package) :
    Except Text Unit := do
  match walk.prior with
  | some prior => do
      check (candidate.high == prior.high + 1)
      prefixed prior candidate
  | none => check (decide (candidate.high ≤ selected.high + 1))
  if candidate.high ≤ selected.high then prefixed candidate selected
  else do
    check (candidate.high == walk.restored.1.high + 1)
    prefixed walk.restored.1 candidate

/-- One round of the walk: nothing at an incomplete frame. -/
def walkStep (selected : Package) (journal : Bytes) (walk : Walk α) :
    Except Text (Option (Walk α)) := do
  match ← readFrame sha256 (journal.drop walk.cursor) with
  | none => return none
  | some (found, size) => do
      let candidate ← decode library found.payload
      check (found.high == candidate.1.high && decide (0 < found.high))
      consistent selected walk candidate.1
      return some {
        restored := if walk.restored.1.high < candidate.1.high then candidate
          else walk.restored
        prior := some candidate.1
        cursor := walk.cursor + size }

/-- The walk over the journal, or nothing when the rounds run out. -/
def walkJournal (selected : Package) (journal : Bytes) :
    Nat → Walk α → Option (Except Text (Walk α))
  | 0, _ => none
  | fuel + 1, walk =>
      if walk.cursor < journal.length then
        match walkStep library sha256 selected journal walk with
        | .error code => some (.error code)
        | .ok none => some (.ok walk)
        | .ok (some next) => walkJournal selected journal fuel next
      else some (.ok walk)

/-- The package in `checkpoint.bin`. -/
def selectCheckpoint (bytes : Bytes) : Except Text (Package × LiveWorld α) := do
  let checkpoint ← readLimited bytes (packageLimit + frameOverhead)
  match ← readFrame sha256 checkpoint with
  | none => .error corrupt
  | some (selected, size) => do
      check (size == checkpoint.length)
      let restored ← decode library selected.payload
      check (restored.1.high == selected.high)
      return restored

/-- A live store: `Store::Impl` without its directory. -/
structure Store (α : Type) where
  package : Package
  world : LiveWorld α
  isSealed : Bool

/-- The validation of `open`: the store and the part of the journal to keep. -/
def validate (disk : Disk) : Except Text (Store α × Nat) := do
  let selected ← selectCheckpoint library sha256 disk.checkpoint
  let journal ← readLimited disk.journal journalLimit
  let walk ←
    match walkJournal library sha256 selected.1 journal (journal.length + 1)
        ⟨selected, none, 0⟩ with
    | none => .error (ascii "IO_ERROR")
    | some walked => walked
  let package := walk.restored.1
  let used ← bytesUsed disk.sizes
  rejectIf (decide (package.config.byteQuota.toNat < used)) quotaExceeded
  check (disk.scratch.all fun scratch => decide (scratch.length ≤ packageLimit + frameOverhead))
  return (⟨package, walk.restored.2, false⟩, walk.cursor)

/-- Where a failure stops an opening: before the repair, after the journal was cut, or
after the temporary file was removed. -/
inductive OpenStop where
  | reading
  | truncated
  | removed
  deriving DecidableEq, Repr

structure Opened (α : Type) where
  result : Except Text (Store α)
  disk : Disk

/-- `Store::open`. -/
def Store.open (disk : Disk) (stop : Option OpenStop) : Opened α :=
  match validate library sha256 disk with
  | .error code => ⟨.error code, disk⟩
  | .ok (store, kept) =>
      let ioError := .error (ascii "IO_ERROR")
      let truncated := { disk with journal := disk.journal.take kept }
      let repaired := { truncated with scratch := none }
      match stop with
      | some .reading => ⟨ioError, disk⟩
      | some .truncated => ⟨ioError, truncated⟩
      | some .removed => ⟨ioError, repaired⟩
      | none => ⟨.ok store, repaired⟩

/-- `Store::create` in a directory that it could make; the epoch is spelled from 32
random bytes. -/
def Store.create (config : Config) (random : Vector UInt8 32) :
    Except Text (Store α × Disk) := do
  rejectIf (!validConfig config) (ascii "INVALID_CONFIG")
  let fresh ← (World.create config.worldId config.seed config.maxSlots).mapError
    fun _ => ascii "IO_ERROR"
  let package : Package := ⟨config, Assets.hex random.toList, [], []⟩
  let bytes ← frame sha256 package
  quota [] package bytes.length
  return (⟨package, ⟨0, fresh⟩, false⟩, ⟨bytes, [], none⟩)

end Opening

/-! ## Operations -/

section Operations

variable {α : Type} [Scalar α] (library : JsonLibrary α) (sha256 : Bytes → Vector UInt8 32)

def Store.result (store : Store α) (code : Text) : Result where
  receipt := none
  replayed := false
  durableRevision := store.package.high
  highWater := store.package.high
  lowWater := store.package.low
  recoveryRequired := store.isSealed
  code := code

def Store.sealUp (store : Store α) : Store α := { store with isSealed := true }

/-- Where a failure stops an append: with some bytes of the frame written, or between
the commit and its answer. -/
inductive AppendStop where
  | writing (kept : Nat)
  | answering
  deriving DecidableEq, Repr

/-- The package after one more commit; only the last receipts are kept. -/
def Package.extend (package : Package) (entry : Entry) (receipt : Receipt) : Package :=
  let receipts := package.receipts ++ [receipt]
  { package with
    entries := package.entries ++ [entry]
    receipts := if receiptLimit < receipts.length then receipts.tail else receipts }

/-- What the observer works on: the files and the parts of the store that it may
change. -/
structure Append where
  disk : Disk
  package : Package
  prepared : Package
  result : Result
  touched : Bool

def Append.start {α : Type} (store : Store α) (disk : Disk) : Append :=
  ⟨disk, store.package, store.package,
    ⟨none, false, store.package.high, store.package.high, store.package.low, false, []⟩, false⟩

/-- Write the frame, or as much of it as the failure lets through. -/
def appendFrame (bytes : Bytes) (stop : Option AppendStop) : EStateM Thrown Append Unit := do
  modify fun append => { append with touched := true }
  match stop with
  | some (.writing kept) => do
      modify fun append =>
        { append with
          disk := { append.disk with journal := append.disk.journal ++ bytes.take kept } }
      throw .other
  | _ =>
      modify fun append =>
        { append with
          disk := { append.disk with journal := append.disk.journal ++ bytes } }

/-- `Observer`. -/
def observer (payload : Text) (tick : UInt64) (stop : Option AppendStop) :
    CommitObserver α Append where
  prepare staged receipt := do
    let append ← get
    let entry : Entry :=
      ⟨UInt64.ofNat (append.package.high + 1), tick, payload, receipt.created,
        canonicalBytes staged⟩
    attempt Thrown.failure <|
      rejectIf (decide (Replay.checkpointLimit < entry.checkpoint.length))
        (ascii "BUDGET_EXCEEDED")
    let durable := { receipt with durability := ascii "durable" }
    let prepared := append.package.extend entry durable
    modify fun append =>
      { append with
        prepared := prepared
        result :=
          { append.result with
            receipt := some durable
            durableRevision := prepared.high
            highWater := prepared.high
            lowWater := prepared.low } }
    let bytes ← attempt Thrown.failure (frame sha256 prepared)
    attempt Thrown.failure (quota append.disk.sizes prepared bytes.length)
    appendFrame bytes stop
  publish append := { append with package := append.prepared }

/-- What one operation leaves: its answer, the store and the files. -/
structure Answered (α : Type) where
  result : Result
  store : Store α
  disk : Disk

def Answered.unchanged (store : Store α) (disk : Disk) (result : Result) : Answered α :=
  ⟨result, store, disk⟩

/-- A failure after the files were touched seals the store. -/
def Answered.unknown (store : Store α) (disk : Disk) : Answered α :=
  ⟨store.sealUp.result (ascii "OUTCOME_UNKNOWN"), store.sealUp, disk⟩

/-- `Store::lookup`. -/
def Store.lookup (store : Store α) (sequence : Nat) : Result :=
  if store.isSealed then store.result (ascii "RECOVERY_REQUIRED")
  else if sequence < store.package.low then store.result (ascii "REQUIRES_RESYNC")
  else if store.package.high < sequence then store.result (ascii "NOT_FOUND")
  else
    { store.result [] with
      receipt := store.package.receipts[sequence - store.package.low]?
      replayed := true }

/-- The submission that `apply_await_durable` gives to the coordinator. -/
def Store.append (store : Store α) (disk : Disk) (envelope : Envelope α) (payload : Text)
    (tick : UInt64) (stop : Option AppendStop) : Answered α :=
  let applied :=
    applyAtBoundary library store.world envelope (none : Option (StagingGuard α Unit))
      (some (observer sha256 payload tick stop)) () (.start store disk)
  let left : Store α := ⟨applied.observer.package, applied.world, store.isSealed⟩
  match applied.result with
  | .ok receipt =>
      if receipt.status != ascii "committed" then
        let code :=
          match receipt.errors with
          | [] => ascii "INVALID_SCHEMA"
          | error :: _ => error.code
        ⟨{ left.result code with receipt := some receipt }, left, applied.observer.disk⟩
      else if stop = some .answering then .unknown left applied.observer.disk
      else ⟨applied.observer.result, left, applied.observer.disk⟩
  | .error thrown =>
      if applied.observer.touched then .unknown left applied.observer.disk
      else
        let code :=
          match thrown with
          | .failure code => code
          | _ => ascii "RESOURCE_EXHAUSTED"
        ⟨left.result code, left, applied.observer.disk⟩

/-- A key whose receipt is kept. -/
def Store.resubmit (store : Store α) (disk : Disk) (payload : Text) (sequence : Nat)
    (stop : Option AppendStop) : Answered α :=
  if store.package.entries[sequence - 1]?.map Entry.payload != some payload then
    .unchanged store disk (store.result (ascii "IDEMPOTENCY_CONFLICT"))
  else if stop = some .answering then .unknown store disk
  else .unchanged store disk (store.lookup sequence)

/-- `Store::apply_await_durable`. -/
def Store.applyAwaitDurable (store : Store α) (disk : Disk) (envelope : Envelope α)
    (tick : UInt64) (stop : Option AppendStop) : Answered α :=
  let refuse (code : String) := Answered.unchanged store disk (store.result (ascii code))
  if store.isSealed then refuse "RECOVERY_REQUIRED"
  else if !bounded envelope then refuse "BUDGET_EXCEEDED"
  else
    match serialize library envelope with
    | .error _ => refuse "INVALID_SCHEMA"
    | .ok payload =>
        let sequence := envelope.idempotency.sequence.toNat
        if Replay.commandLimit < payload.length then refuse "BUDGET_EXCEEDED"
        else if envelope.idempotency.epoch != store.package.epoch then
          refuse "EPOCH_MISMATCH"
        else if sequence < store.package.low then refuse "REQUIRES_RESYNC"
        else if sequence ≤ store.package.high then
          store.resubmit disk payload sequence stop
        else if sequence ≠ store.package.high + 1 then refuse "SEQUENCE_GAP"
        else if store.package.high = commitLimit then refuse "BUDGET_EXCEEDED"
        else if store.package.entries.getLast?.any fun last => decide (tick < last.tick) then
          refuse "INVALID_TICK"
        else store.append library sha256 disk envelope payload tick stop

/-- Where a failure stops a compaction: before the temporary file exists, with some
bytes of it written, after it replaced the checkpoint, or after the journal was
emptied. -/
inductive CompactStop where
  | starting
  | writing (kept : Nat)
  | replaced
  | reclaimed
  deriving DecidableEq, Repr

/-- `Store::compact`. -/
def Store.compact (store : Store α) (disk : Disk) (stop : Option CompactStop) : Answered α :=
  if store.isSealed then
    .unchanged store disk (store.result (ascii "RECOVERY_REQUIRED"))
  else
    let reserved : Except Text Bytes := do
      let bytes ← frame sha256 store.package
      quota disk.sizes store.package bytes.length
      return bytes
    match reserved with
    | .error code => .unchanged store disk (store.result code)
    | .ok bytes =>
        let replaced : Disk := ⟨bytes, disk.journal, none⟩
        let reclaimed : Disk := ⟨bytes, [], none⟩
        match stop with
        | some .starting => .unknown store disk
        | some (.writing kept) => .unknown store { disk with scratch := some (bytes.take kept) }
        | some .replaced => .unknown store replaced
        | some .reclaimed => .unknown store reclaimed
        | none => ⟨store.result [], store, reclaimed⟩

end Operations
end Omniweft.Persistence
