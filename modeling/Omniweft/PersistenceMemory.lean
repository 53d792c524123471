import Omniweft.BatchSplit
import Omniweft.PersistenceRuns

/-!
# A store and a world in memory

A durable store does what a world in memory does that is given the same commands, whatever
happened to the process and its files in between.
-/

namespace Omniweft.Persistence

open Omniweft.Outcome World Commands Transactions

section Memory

variable {α : Type} [Scalar α] {library : JsonLibrary α} {sha256 : Bytes → Vector UInt8 32}
  {config : Config} {epoch : Text} {items : List (Item α)} {state : Snapshot α}

/-- A world that is given commands one after another, with no store. -/
def inMemory (library : JsonLibrary α) (world : LiveWorld α)
    (commands : List (Envelope α)) : LiveWorld α :=
  commands.foldl (fun world command => (call library world command).world) world

theorem inMemory_snoc (world : LiveWorld α) (commands : List (Envelope α))
    (command : Envelope α) :
    inMemory library world (commands ++ [command]) =
      (call library (inMemory library world commands) command).world := by
  rw [inMemory, List.foldl_append]
  rfl

/-- The receipt of a store, for one of the coordinator. -/
def madeDurable (receipt : Receipt) : Receipt :=
  { receipt with durability := ascii "durable" }

/-- The entry of a store says what the coordinator makes of a command in memory. -/
structure Mirrors (library : JsonLibrary α) (before : LiveWorld α) (command : Envelope α)
    (entry : Entry) : Prop where
  payload : serialize library command = .ok entry.payload
  committed :
    ∃ receipt, (call library before command).result = .ok receipt ∧
      receipt.status = ascii "committed" ∧
      madeDurable receipt = durableReceipt command.transactionId entry
  checkpoint : entry.checkpoint = canonicalBytes (call library before command).world.state

theorem call_commits {world : LiveWorld α} {envelope : Envelope α} {next : Snapshot α}
    {created : List CreatedBinding}
    (committed : Commits library world.state envelope next created) :
    (call library world envelope).world = { world with state := next } ∧
      (call library world envelope).result =
        .ok (committedReceipt (initialReceipt false envelope world.state.worldRevision)
          (world.state.worldRevision + 1) created) := by
  obtain ⟨accepted, staged, stagedOk, rfl⟩ := committed
  rcases apply_hookless library world envelope none with
    ⟨other, bound, _, otherOk, same⟩ | ⟨impossible, _, _⟩
  · cases otherOk.symm.trans stagedOk
    exact ⟨congrArg Applied.world same, congrArg Applied.result same⟩
  · exact absurd stagedOk (impossible accepted (staged, created))

/-- The last item of a store is a commit of its own envelope, with no store. -/
theorem Stored.mirrors (faithful : library.Faithful) {item : Item α}
    (stored : Stored library config epoch (items ++ [item]) state) :
    ∃ earlier, Stored library config epoch items earlier ∧
      (call library ⟨0, earlier⟩ item.envelope).world = ⟨0, state⟩ ∧
      Mirrors library ⟨0, earlier⟩ item.envelope item.entry := by
  obtain ⟨fresh, made, recordings⟩ := stored.recordings
  rw [List.map_append, List.map_singleton] at recordings
  obtain ⟨earlier, before, _, recorded⟩ := Replay.recordings_snoc.mp recordings
  have few := stored.few
  rw [List.length_append] at few
  have shorter : Stored library config epoch items earlier :=
    { configured := stored.configured
      spelled := stored.spelled
      few := Nat.le_of_add_right_le few
      lawful := stored.lawful.front
      recordings := ⟨fresh, made, before⟩ }
  obtain ⟨revision, worldId, _⟩ := shorter.fits faithful
  have follows : Follows library config epoch items item := stored.lawful items item [] rfl
  obtain ⟨valid, _, serialized, _⟩ := follows.valid faithful
  obtain ⟨_, _, sameWorld, sameRevision, _, _⟩ :=
    (storedCommand_eq_ok faithful).mp follows.command
  -- The record was committed under some envelope; only its operations matter.
  have committed : Commits library earlier item.envelope state item.entry.created := by
    obtain ⟨other, otherValid, _, operations, otherCommitted⟩ := recorded.batch
    obtain ⟨_, _, finite, last, run, same, created⟩ :=
      (commits_iff faithful otherValid).mp otherCommitted
    rw [operations] at run
    refine (commits_iff faithful valid).mpr
      ⟨sameWorld.trans worldId.symm, ?_, finite, last, run, same, created⟩
    exact UInt64.toNat_inj.mp (sameRevision.trans revision.symm)
  obtain ⟨moved, told⟩ := @call_commits _ _ library ⟨0, earlier⟩ _ _ _ committed
  refine ⟨earlier, shorter, moved, serialized, ⟨_, told, rfl, ?_⟩, ?_⟩
  · have sequence : earlier.worldRevision + 1 = item.entry.sequence := by
      obtain ⟨raised, counted⟩ := committed.revision
      rw [← raised]
      refine UInt64.toNat_inj.mp ?_
      rw [counted, revision, follows.sequence]
    change madeDurable (committedReceipt (initialReceipt false item.envelope
      earlier.worldRevision) (earlier.worldRevision + 1) item.entry.created) = _
    rw [sequence]
    rfl
  · rw [moved]
    exact recorded.checkpoint

/-- Every item of a store is such a commit, after the ones before it. -/
theorem Stored.inMemory (faithful : library.Faithful) {fresh : Snapshot α}
    (made : World.create config.worldId config.seed config.maxSlots = .ok fresh)
    (stored : Stored library config epoch items state) :
    inMemory library ⟨0, fresh⟩ (items.map Item.envelope) = ⟨0, state⟩ ∧
      ∀ (place : Nat) (item : Item α), items[place]? = some item →
        Mirrors library
          (inMemory library ⟨0, fresh⟩ ((items.take place).map Item.envelope))
          item.envelope item.entry := by
  induction items using List.reverseRecOn generalizing state with
  | nil =>
      obtain ⟨start, begun, recordings⟩ := stored.recordings
      obtain rfl : fresh = start := Except.ok.inj (made.symm.trans begun)
      generalize none_ : ([] : List (Item α)).map Item.record = records at recordings
      cases recordings with
      | none => exact ⟨rfl, fun place item found => by simp at found⟩
      | more _ _ _ => simp at none_
  | append_singleton items last inductionHypothesis =>
      obtain ⟨earlier, shorter, moved, mirrors⟩ := stored.mirrors faithful
      obtain ⟨reached, each⟩ := inductionHypothesis shorter
      constructor
      · rw [List.map_append, List.map_singleton, inMemory_snoc, reached]
        exact moved
      · intro place item found
        by_cases inside : place < items.length
        · rw [List.getElem?_append_left inside] at found
          rw [List.take_append_of_le_length inside.le]
          exact each place item found
        · have bound := (List.getElem?_eq_some_iff.mp found).1
          rw [List.length_append, List.length_singleton] at bound
          obtain rfl : place = items.length := by omega
          rw [List.getElem?_concat_length] at found
          obtain rfl : last = item := Option.some.inj found
          rw [List.take_left' rfl, reached]
          exact mirrors

omit [Scalar α] in
theorem create_world {random : Vector UInt8 32} {store : Store α} {disk : Disk}
    (created : Store.create sha256 config random = .ok (store, disk)) :
    ∃ fresh, World.create config.worldId config.seed config.maxSlots = .ok fresh ∧
      store.world = ⟨0, fresh⟩ := by
  unfold Store.create at created
  obtain ⟨_, created⟩ := unit_bind_eq_ok.mp created
  obtain ⟨fresh, made, created⟩ := bind_eq_ok.mp created
  obtain ⟨_, _, created⟩ := bind_eq_ok.mp created
  obtain ⟨_, same⟩ := unit_bind_eq_ok.mp created
  rw [pure_eq_ok] at same
  cases same
  exact ⟨fresh, mapError_eq_ok.mp made, rfl⟩

/-- A store does what a world in memory does. Whatever happened to the process, its files
open to the world that the coordinator, with no store, makes of the commands in the journal,
and later ones to a world that it makes of more commands. Each entry says what was made of
its command, and what was ever answered is what the coordinator says of that command in
memory, but for the durability. -/
theorem run_refines (faithful : library.Faithful) {random : Vector UInt8 32}
    {store : Store α} {disk : Disk}
    (created : Store.create sha256 config random = .ok (store, disk))
    (actions more : List (Action α)) :
    let machine := (Machine.fresh store disk).run library sha256 actions
    let later := machine.run library sha256 more
    ∃ commands further found left newer kept,
      Store.open library sha256 machine.disk none = ⟨.ok found, left⟩ ∧
        Store.open library sha256 later.disk none = ⟨.ok newer, kept⟩ ∧
        found.world = inMemory library store.world commands ∧
        newer.world = inMemory library store.world (commands ++ further) ∧
        found.package.entries.length = commands.length ∧
        (∀ (place : Nat) (command : Envelope α) (entry : Entry),
          commands[place]? = some command → found.package.entries[place]? = some entry →
          Mirrors library (inMemory library store.world (commands.take place)) command entry) ∧
        ∀ envelope receipt, (envelope, receipt) ∈ machine.acknowledged →
          ∃ (place : Nat) (told : Receipt), commands[place]? = some envelope ∧
            (call library (inMemory library store.world (commands.take place))
              envelope).result = .ok told ∧
            receipt = madeDurable told := by
  intro machine later
  obtain ⟨fresh, made, world⟩ := create_world created
  obtain ⟨epoch, start, recovers⟩ := @create_recovers _ _ library sha256 config _ _ _ created
  obtain ⟨items, state, recovered⟩ := recovers.run faithful actions
  rw [List.nil_append] at recovered
  obtain ⟨rest, final, continued⟩ := recovered.run faithful more
  obtain ⟨left, opens⟩ := recovered.open faithful
  obtain ⟨kept, reopens⟩ := continued.open faithful
  obtain ⟨reached, each⟩ := recovered.stored.inMemory faithful made
  obtain ⟨goesOn, _⟩ := continued.stored.inMemory faithful made
  rw [world]
  refine ⟨items.map Item.envelope, rest.map Item.envelope, _, left, _, kept, opens, reopens,
    reached.symm, ?_, ?_, ?_, ?_⟩
  · rw [← List.map_append, goesOn]
    rfl
  · change (items.map Item.entry).length = _
    rw [List.length_map, List.length_map]
  · intro place command entry given held
    rw [List.getElem?_map, Option.map_eq_some_iff] at given
    obtain ⟨item, there, rfl⟩ := given
    change (items.map Item.entry)[place]? = _ at held
    rw [List.getElem?_map, there] at held
    obtain rfl : item.entry = entry := Option.some.inj held
    rw [← List.map_take]
    exact each place item there
  · intro envelope receipt member
    obtain ⟨item, held, repeats, rfl⟩ := recovered.answered envelope receipt member
    obtain ⟨_, follows, _⟩ := recovered.stored.lawful.member held
    obtain rfl : item.envelope = envelope :=
      serialize_injective faithful (follows.valid faithful).2.2.1 repeats.payload
    obtain ⟨place, there⟩ := List.getElem?_of_mem held
    obtain ⟨told, result, _, same⟩ := (each place item there).committed
    refine ⟨place, told, ?_, ?_, same.symm⟩
    · rw [List.getElem?_map, there]
      rfl
    · rw [← List.map_take]
      exact result

theorem run_refines_sample :
    let machine := (Machine.fresh sampleStore sampleDisk).run JsonText.library Sha256.digest
      [.submit sampleSubmission 5 none, .compact (some .replaced), .die]
    ∃ commands found left,
      Store.open JsonText.library Sha256.digest machine.disk none = ⟨.ok found, left⟩ ∧
        found.world = inMemory JsonText.library sampleStore.world commands := by
  intro machine
  obtain ⟨commands, _, found, left, _, _, opens, _, same, _⟩ :=
    run_refines JsonText.library_faithful sample_created
      [.submit sampleSubmission 5 none, .compact (some .replaced), .die] []
  exact ⟨commands, found, left, opens, same⟩

end Memory

end Omniweft.Persistence
