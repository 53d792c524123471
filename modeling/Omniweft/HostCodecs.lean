import Omniweft.CommandsAccepts
import Omniweft.HostedReceipts
import Omniweft.PolicyHostUsage
import Omniweft.SdkRequests

/-!
# The codecs of the hosts and of the SDK

A host answers in its own JSON and the SDK reads it with its own checks. Over every
world a host may have, what the SDK reads is what the host meant, and what the SDK
asks for is what the host reads.
-/

namespace Omniweft.Control

open Omniweft.Outcome World Commands Transactions Policy
open PolicyHost (Config Drawn Secrets Stable Steady after guardedCall principalName start
  statusJson)
open Python (Interpreter Raised Value uuidPattern)
open Sdk (Addressed Capabilities Client PreparedTransaction Recovers prepare
  readPolicyStatus readReceipt readSnapshot recovers_image requested transactBody
  validOperation wrapped)

variable {α : Type} [Scalar α]

/-- The receipts that a host's callback returns: the plain coordinator, the guarded one,
and `policy::apply`. -/
inductive Answers (library : JsonLibrary α) (world : LiveWorld α) (envelope : Envelope α) :
    Receipt → Prop where
  | plain {receipt : Receipt} :
      (applyAtBoundary library world envelope (none : Option (StagingGuard α Unit))
        (none : Option (CommitObserver α Unit)) () ()).result = .ok receipt →
      Answers library world envelope receipt
  | guarded (ledger : Ledger) (lease : Lease) {receipt : Receipt} :
      (applyAtBoundary library world envelope (some hook)
        (none : Option (CommitObserver α Unit)) (Guard.create ledger lease) ()).result =
          .ok receipt →
      Answers library world envelope receipt
  | policy (ledger : Ledger) (principal : Nat) {receipt : Receipt} :
      (Policy.apply library world envelope ledger principal).result = .ok receipt →
      Answers library world envelope receipt

/-- The data reaches the SDK, in the text of its JSON and in the frame of an answer. -/
def Carried {β : Type} (python : Interpreter α) (library : JsonLibrary α) (name : String)
    (json : Json α) (read : Value α → Except Raised β) (data : β) : Prop :=
  Recovers python library json read data ∧
    ∀ client epoch nextSequence, Addressed client epoch nextSequence →
      Recovers python library (response epoch nextSequence name json)
        (wrapped client name read) data

/-- The SDK recovers the snapshot of a world, and every receipt of a remote request. -/
structure Legible (python : Interpreter α) (library : JsonLibrary α) (world : LiveWorld α) :
    Prop where
  snapshot :
    ∃ json, snapshotJson world.state = .ok json ∧
      Carried python library "snapshot" json (readSnapshot python) (seenSnapshot world.state)
  receipts :
    ∀ bytes envelope, parse library bytes = .ok envelope → Remote envelope →
      ∀ receipt, Answers library world envelope receipt →
        Carried python library "receipt" (receiptJson receipt) readReceipt
          (seenReceipt receipt)

section Agreement

variable {python : Interpreter α} {library : JsonLibrary α}

theorem snapshot_carried (codecs : Codecs python library) {snapshot : Snapshot α}
    (showable : Sdk.Showable snapshot) :
    Carried python library "snapshot" (snapshotObject snapshot) (readSnapshot python)
      (seenSnapshot snapshot) := by
  refine ⟨?_, fun client epoch nextSequence addressed =>
    Sdk.snapshot_recovered codecs showable addressed⟩
  refine recovers_image codecs ((Sdk.snapshotObject_sendable showable).deeper (by decide)) ?_
    (Sdk.readSnapshot_image python showable)
  have light := Sdk.snapshotObject_weight showable
  unfold Sdk.maxResponse
  omega

theorem receipt_carried (codecs : Codecs python library) {receipt : Receipt}
    (readable : Sdk.ReadableReceipt receipt) :
    Carried python library "receipt" (receiptJson receipt) readReceipt
      (seenReceipt receipt) := by
  refine ⟨?_, fun client epoch nextSequence addressed =>
    Sdk.receipt_recovered codecs readable addressed⟩
  refine recovers_image codecs ((Sdk.receiptJson_sendable readable).deeper (by decide)) ?_
    (Sdk.readReceipt_image readable)
  have light := Sdk.receiptJson_weight (α := α) readable
  unfold Sdk.maxResponse
  omega

/-- A double holds the small integers, whatever the SDK compares them with. -/
theorem integers_finite (codecs : Codecs python library) (number : Int)
    (few : number.natAbs ≤ 2 ^ 53) : Scalar.isFinite (Scalar.ofInt number : α) = true :=
  (codecs.small number few).1

theorem Answers.readable (codecs : Codecs python library) {world : LiveWorld α}
    (hosted : Hosted library world) {envelope : Envelope α} (valid : ValidEnvelope envelope)
    (remote : Remote envelope) {receipt : Receipt}
    (answers : Answers library world envelope receipt) : Sdk.ReadableReceipt receipt := by
  have finite := integers_finite codecs
  cases answers with
  | plain answered =>
      refine coordinator_readable finite codecs.faithful hosted valid remote ?_ () answered
      intro held same
      cases same
  | guarded ledger lease answered =>
      exact coordinator_readable finite codecs.faithful hosted valid remote
        (fun held same => Option.some.inj same ▸ hook_speaks) _ answered
  | policy ledger principal answered =>
      exact policy_readable finite codecs.faithful hosted valid remote ledger principal
        answered

theorem Hosted.legible (codecs : Codecs python library) {world : LiveWorld α}
    (hosted : Hosted library world) : Legible python library world := by
  have showable := hosted.showable (integers_finite codecs)
  refine ⟨⟨snapshotObject world.state, snapshotJson_showable showable,
    snapshot_carried codecs showable⟩, ?_⟩
  intro bytes envelope parsed remote receipt answers
  exact receipt_carried codecs
    (answers.readable codecs hosted (parse_valid parsed) remote)

/-- The owner's callback of the policy host keeps the world one of a host. -/
theorem hosted_stable (codecs : Codecs python library) :
    Stable library (Hosted library : LiveWorld α → Prop) :=
  fun _ remote _ ledger lease hosted =>
    hosted.applied (integers_finite codecs) remote (some hook) none
      (Guard.create ledger lease) ()

/-- The SDK has no operation that the hosts' profiles lack. -/
theorem requested_remote (client : Client) (capabilities : Capabilities) (sequence : Int)
    (operations : List (Sdk.Operation α)) (expectedRevision : Int) (identifier : Text) :
    Remote (requested client capabilities sequence operations expectedRevision identifier) := by
  intro operation member
  obtain ⟨asked, _, rfl⟩ := List.mem_map.mp member
  cases asked with
  | createCube temporaryId => rfl
  | setTransform target transform => rfl
  | deleteEntity handle => rfl

end Agreement

/-! ## Two concrete libraries -/

section Compact

open Json (Portable PortableEntries PortableItems)

mutual

/-- The value that `json.dumps` writes for a value of the interpreter. -/
def literal : Value Halves → Json Halves
  | .none => .null
  | .boolean value => .boolean value
  | .integer value =>
      if value < 0 then .integer value else .unsigned (UInt64.ofNat value.toNat)
  | .float value => .float value
  | .str value => .string value
  | .list items => .array (literalItems items)
  | .dict entries => .object (literalEntries entries)

def literalItems : List (Value Halves) → List (Json Halves)
  | [] => []
  | item :: rest => literal item :: literalItems rest

def literalEntries : List (Text × Value Halves) → List (Text × Json Halves)
  | [] => []
  | (name, value) :: rest => (name, literal value) :: literalEntries rest

end

mutual

theorem literal_image :
    ∀ value : Json Halves, Portable value → literal value.image = value
  | .null, _ | .boolean _, _ | .float _, _ | .string _, _ => by simp [Json.image, literal]
  | .integer value, portable => by
      simp only [Portable] at portable
      simp [Json.image, literal, portable.2]
  | .unsigned value, _ => by
      have counted : ¬ (value.toNat : Int) < 0 := by omega
      simp [Json.image, literal, counted]
  | .array items, portable => by
      simp only [Portable] at portable
      simp [Json.image, literal, literalItems_image items portable]
  | .object entries, portable => by
      simp only [Portable] at portable
      simp [Json.image, literal, literalEntries_image entries portable.2]

theorem literalItems_image :
    ∀ items : List (Json Halves), PortableItems items →
      literalItems (Json.imageItems items) = items
  | [], _ => by simp [Json.imageItems, literalItems]
  | item :: rest, portable => by
      simp only [PortableItems] at portable
      simp [Json.imageItems, literalItems, literal_image item portable.1,
        literalItems_image rest portable.2]

theorem literalEntries_image :
    ∀ entries : List (Text × Json Halves), PortableEntries entries →
      literalEntries (Json.imageEntries entries) = entries
  | [], _ => by simp [Json.imageEntries, literalEntries]
  | (name, value) :: rest, portable => by
      simp only [PortableEntries] at portable
      simp [Json.imageEntries, literalEntries, literal_image value portable.2.1,
        literalEntries_image rest portable.2.2]

end

/-- An interpreter whose `json` module writes compact text. -/
def compactPython : Interpreter Halves where
  loads text := (JsonText.read text).map Json.image
  dumps value := some (JsonText.print (literal value))
  toFloat number := some (Scalar.ofInt number)
  equalsInt number value := (Scalar.ofInt number : Halves) == value

/-- A host's library that keeps objects in key order. -/
def compactHost : JsonLibrary Halves where
  dump := JsonText.library.dump
  events := JsonText.library.events
  document text := (JsonText.read text).map Json.arrange

theorem compact_codecs : Codecs compactPython compactHost where
  faithful :=
    { roundTrip := fun value plain _ => by
        have portable := Json.Plain.portable _ _ (fun _ finite => finite) value plain
        obtain ⟨bytes, written, short, clean, events, found⟩ :=
          JsonText.library_roundTrip portable
        refine ⟨bytes, written, short, clean, events, ?_⟩
        change (JsonText.library.document bytes).map Json.arrange = some value
        rw [found, Option.map_some, Json.arrange_ordered value (Json.Plain.ordered value plain)] }
  small number _ := ⟨rfl, beq_self_eq_true _⟩
  toSdk value portable _ _ := by
    obtain ⟨bytes, written, short, _, _, found⟩ := JsonText.library_roundTrip portable
    refine ⟨bytes, written, short, ?_⟩
    change (JsonText.library.document bytes).map Json.image = some value.image
    rw [found, Option.map_some]
  toHost value portable _ := by
    obtain ⟨bytes, written, short, clean, events, found⟩ := JsonText.library_roundTrip portable
    refine ⟨bytes, ?_, short, clean, events, ?_, ?_⟩
    · change some (JsonText.print (literal value.image)) = some bytes
      rw [literal_image value portable]
      exact written
    · change (JsonText.library.document bytes).map Json.arrange = some value.arrange
      rw [found, Option.map_some]
    · change (JsonText.library.document bytes).map Json.image = some value.image
      rw [found, Option.map_some]

end Compact

/-- Host and SDK agree on snapshots, receipts, policy status and requests. -/
theorem codecs_agree {python : Interpreter α} {library : JsonLibrary α}
    (codecs : Codecs python library) :
    (∀ world, Hosted library world → Legible python library world) ∧
    (∀ (config : Config) limit ledger address seed maxSlots state issues inputs,
      config.worldId = ascii "workshop" → Ledger.create limit = .ok ledger →
      World.create (ascii "workshop") seed maxSlots = .ok state →
      (∀ principal, Drawn (issues principal)) → Secrets inputs →
        let system :=
          after config library (guardedCall library)
            (start config ledger ⟨address, state⟩ issues) inputs
        Hosted library system.host.state ∧
          ∀ principal,
            Recovers python library (statusJson config system.host principal)
              (readPolicyStatus python (principalName principal))
              (PolicyHost.seenStatus system.host principal)) ∧
    (∀ (client later : Client) (capabilities : Capabilities)
      (operations : List (Sdk.Operation α)) expectedRevision transactionId generated,
      validIdentifier 128 capabilities.worldId = true →
      (∀ operation ∈ operations, validOperation operation = true) →
        (∀ bytes, uuidPattern generated = true →
          transactBody python capabilities operations expectedRevision transactionId
            generated client = .ok bytes later →
          ∃ sequence, client.next.map Sdk.Counter.value = some sequence ∧
            parse library bytes =
              .ok (requested client capabilities sequence operations expectedRevision
                (transactionId.getD generated))) ∧
        (∀ prepared : PreparedTransaction,
          prepare python capabilities operations expectedRevision transactionId generated
            client = .ok prepared later →
          client.next.map Sdk.Counter.value = some prepared.sequence ∧
            parse library prepared.body =
              .ok (requested client capabilities prepared.sequence operations
                expectedRevision (transactionId.getD generated))) ∧
        ∀ sequence,
          Remote (requested client capabilities sequence operations expectedRevision
            (transactionId.getD generated))) := by
  refine ⟨fun world hosted => hosted.legible codecs, ?_, ?_⟩
  · intro config limit ledger address seed maxSlots state issues inputs named made created
      drawn secrets system
    have steady : Steady (Hosted library) system :=
      (Steady.start made config (Hosted.fresh created address) drawn).run
        (hosted_stable codecs) config secrets
    refine ⟨steady.state, fun principal => ?_⟩
    obtain ⟨epoch, positive, _⟩ := steady.serves principal
    exact PolicyHost.status_recovered codecs named (steady.readable principal) epoch positive
  · intro client later capabilities operations expectedRevision transactionId generated
      world valid
    refine ⟨fun bytes identified built => ?_, fun prepared built => ?_, fun sequence => ?_⟩
    · exact Sdk.transactBody_parses codecs world identified valid built
    · exact Sdk.prepare_parses codecs world valid built
    · exact requested_remote client capabilities sequence operations expectedRevision _

def sampleEpoch : Text := PolicyHost.randomSecret (Vector.replicate 32 7)

def sampleToken : Text := PolicyHost.randomSecret (Vector.replicate 32 8)

def sampleIssues : PerPrincipal PolicyHost.Issue := fun principal =>
  ⟨if principal.val = 0 then sampleToken else ascii "other", sampleEpoch, 0⟩

def sampleClient : Client where
  info := ⟨sampleToken, sampleEpoch, 30000, by decide, by decide, by decide⟩
  capabilities := some ⟨ascii "workshop", 8⟩
  next := some ⟨1, by decide⟩
  uncertain := false
  owner := 0
  pending := none

def sampleOperations : List (Sdk.Operation Halves) :=
  [.createCube (ascii "cube"),
    .setTransform (.temporary (ascii "cube"))
      ⟨⟨⟨Scalar.ofInt (-3), Scalar.ofInt 0, Scalar.ofInt 0⟩,
        ⟨Scalar.ofInt 0, Scalar.ofInt 0, Scalar.ofInt 0, Scalar.ofInt 1⟩,
        ⟨Scalar.ofInt 1, Scalar.ofInt 1, Scalar.ofInt 1⟩⟩, rfl⟩]

def sampleIdentifier : Text := ascii "00000000-0000-4000-8000-000000000001"

/-- The transaction as the SDK builds it. -/
def sampleBuilt : EStateM.Result Raised Client Text :=
  transactBody compactPython ⟨ascii "workshop", 8⟩ sampleOperations 0 none sampleIdentifier
    sampleClient

/-- The body of a transaction that was built. -/
def sentBody : EStateM.Result Raised Client Text → Text
  | .ok body _ => body
  | .error _ _ => []

def sampleBody : Text := sentBody sampleBuilt

def sampleInputs : List PolicyHost.Input :=
  let moment : PolicyHost.Moment := ⟨1, 1, 1, false⟩
  [.accept
      { authorization := some (ascii "Bearer " ++ sampleToken)
        host := some (ascii "127.0.0.1:80")
        origin := none
        protocol := some (ascii "0.1")
        route := ascii "/v0/transactions"
        method := ascii "POST"
        contentLength := sampleBody.length
        body := sampleBody } 9 moment,
    .reserve 0, .transact 0 moment, .close 0]

def sampleSystem : PolicyHost.System (LiveWorld Halves) :=
  after ⟨ascii "workshop", 80, 30000, false⟩ compactHost (guardedCall compactHost)
    (start ⟨ascii "workshop", 80, 30000, false⟩ freshLedger
      ⟨1, ⟨1, ascii "workshop", 7, 8, 0, []⟩⟩ sampleIssues)
    sampleInputs

theorem sampleBody_ne_nil : sampleBody ≠ [] := by decide +kernel

/-- The policy host commits what the SDK asks for, and the SDK reads the world and the
status after it. -/
theorem codecs_agree_sample :
    (parse compactHost sampleBody =
        .ok (requested sampleClient ⟨ascii "workshop", 8⟩ 1 sampleOperations 0
          sampleIdentifier) ∧
      sampleSystem.host.state.state.worldRevision = 1) ∧
    Legible compactPython compactHost sampleSystem.host.state ∧
    ∀ principal,
      Recovers compactPython compactHost
        (statusJson ⟨ascii "workshop", 80, 30000, false⟩ sampleSystem.host principal)
        (readPolicyStatus compactPython (principalName principal))
        (PolicyHost.seenStatus sampleSystem.host principal) := by
  obtain ⟨legible, served, asked⟩ := codecs_agree compact_codecs
  have drawn : ∀ principal, Drawn (sampleIssues principal) := fun _ => ⟨_, rfl⟩
  have secrets : Secrets sampleInputs := by
    intro issues member
    simp [sampleInputs] at member
  obtain ⟨hosted, status⟩ :=
    served ⟨ascii "workshop", 80, 30000, false⟩ 2 freshLedger 1 7 8
      ⟨1, ascii "workshop", 7, 8, 0, []⟩ sampleIssues sampleInputs rfl rfl rfl drawn secrets
  have valid : ∀ operation ∈ sampleOperations, validOperation operation = true := by
    simp only [sampleOperations, List.forall_mem_cons]
    exact ⟨by decide, by decide, by simp⟩
  refine ⟨⟨?_, by decide +kernel⟩, legible _ hosted, status⟩
  cases built : sampleBuilt with
  | error raised later =>
      have empty : sampleBody = [] := congrArg sentBody built
      exact absurd empty sampleBody_ne_nil
  | ok body later =>
      have same : sampleBody = body := congrArg sentBody built
      obtain ⟨parses, _⟩ :=
        asked sampleClient later ⟨ascii "workshop", 8⟩ sampleOperations 0 none sampleIdentifier
          rfl valid
      obtain ⟨sequence, found, parsed⟩ := parses body rfl built
      obtain rfl : (1 : Int) = sequence := Option.some.inj found
      rw [same]
      exact parsed

end Omniweft.Control
