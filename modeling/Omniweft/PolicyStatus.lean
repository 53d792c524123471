import Omniweft.SdkAnswers
import Omniweft.PolicyHost

/-!
# The policy status

A principal may ask the policy host what its grant is and how much of it is in use.
The SDK knows both grants and refuses a status that differs from them or does not add up.
-/

namespace Omniweft

open Outcome Policy

/-! ## The host -/

namespace PolicyHost

variable {α σ : Type}

/-- `Grant::principal`. -/
def principalName (principal : Principal) : Text :=
  if principal.val = 0 then ascii "west" else ascii "east"

/-- `Grant::observation_limit`. -/
def observationLimit (principal : Principal) : Nat :=
  if principal.val = 0 then 512 else 4096

def countJson (count : Nat) : Json α := .unsigned (UInt64.ofNat count)

def boundJson [Scalar α] (bound : Vec3 Int) : Json α :=
  Commands.vectorJson (bound.toList.map fun component => Scalar.ofInt component)

def limitsJson (principal : Principal) : Json α :=
  .object
    [(ascii "global_requests", countJson 2), (ascii "max_body_bytes", countJson bodyLimit),
      (ascii "max_operations", countJson operationLimit),
      (ascii "observation_bytes", countJson (observationLimit principal)),
      (ascii "requests", countJson 1),
      (ascii "retained_bytes", countJson (grants principal).retainedLimit),
      (ascii "working_bytes", countJson (grants principal).workingLimit)]

def usageJson (usage : Usage) (principal : Principal) : Json α :=
  .object
    [(ascii "global_requests", countJson usage.globalRequests),
      (ascii "requests", countJson (usage.requests principal)),
      (ascii "retained_bytes", countJson (usage.retained principal)),
      (ascii "working_bytes", countJson (usage.working principal))]

def policyJson [Scalar α] (usage : Usage) (principal : Principal) : Json α :=
  .object
    [(ascii "limits", limitsJson principal),
      (ascii "memory_model", .string (ascii "charged-resource-bytes-v1")),
      (ascii "principal", .string (principalName principal)),
      (ascii "read_scope", .string (ascii "whole_world")),
      (ascii "schema_version", .unsigned 1),
      (ascii "usage", usageJson usage principal),
      (ascii "write_bounds_m", .object
        [(ascii "lower", boundJson (grants principal).lower),
          (ascii "upper", boundJson (grants principal).upper)])]

/-- The answer of the route `/v0/policy`. -/
def statusJson [Scalar α] (config : Config) (host : Host σ) (principal : Principal) : Json α :=
  let session := host.sessions principal
  let usage := host.ledger.usage
  .object
    [(ascii "epoch", .string session.epoch), (ascii "next_sequence", .unsigned session.sequence),
      (ascii "policy", policyJson usage principal),
      (ascii "protocol_version", .string (ascii "0.1")),
      (ascii "world_id", .string config.worldId),
      (ascii "world_revision", .unsigned usage.worldRevision)]

end PolicyHost

/-! ## The SDK -/

namespace Sdk

open Python

structure PolicyLimits where
  maxOperations : Int
  maxBodyBytes : Int
  retainedBytes : Int
  workingBytes : Int
  observationBytes : Int
  requests : Int
  globalRequests : Int
  deriving DecidableEq, Repr

structure PolicyUsage where
  retainedBytes : Int
  workingBytes : Int
  requests : Int
  globalRequests : Int
  deriving DecidableEq, Repr

/-- `read_scope` and `memory_model` are always the only ones there are. -/
structure PolicyStatus where
  principal : Text
  worldRevision : Int
  nextSequence : Int
  limits : PolicyLimits
  usage : PolicyUsage
  lower : Vec3 Int
  upper : Vec3 Int
  epoch : Text
  deriving DecidableEq

/-- What `from_dict` expects of the limits of a principal. -/
def expectedLimits (principal : Text) : PolicyLimits :=
  if principal = ascii "west" then ⟨4, 16384, 512, 98304, 512, 1, 2⟩
  else ⟨4, 16384, 2048, 262144, 4096, 1, 2⟩

def expectedBounds (principal : Text) : Vec3 Int × Vec3 Int :=
  if principal = ascii "west" then (⟨-8, -4, -4⟩, ⟨-1, 4, 4⟩)
  else (⟨1, -4, -4⟩, ⟨8, 4, 4⟩)

variable {α : Type}

def readLimits (value : Value α) (expected : PolicyLimits) : Except Raised PolicyLimits := do
  let entries ← fields value
    ["max_operations", "max_body_bytes", "retained_bytes", "working_bytes",
      "observation_bytes", "requests", "global_requests"]
  let exactly (name : String) (number : Int) : Except Raised Int :=
    integer (get entries name) number number
  pure
    { maxOperations := ← exactly "max_operations" expected.maxOperations
      maxBodyBytes := ← exactly "max_body_bytes" expected.maxBodyBytes
      retainedBytes := ← exactly "retained_bytes" expected.retainedBytes
      workingBytes := ← exactly "working_bytes" expected.workingBytes
      observationBytes := ← exactly "observation_bytes" expected.observationBytes
      requests := ← exactly "requests" expected.requests
      globalRequests := ← exactly "global_requests" expected.globalRequests }

/-- An `int` or a `float` that equals an `int`. -/
def equalsNumber (python : Interpreter α) (value : Value α) (expected : Int) : Bool :=
  match value with
  | .integer number => number == expected
  | .float number => python.equalsInt expected number
  | _ => false

def checkBound (python : Interpreter α) (value : Value α) (expected : Vec3 Int) :
    Except Raised Unit :=
  match value with
  | .list items =>
      rejectIf
        (items.length != 3 ||
          (items.zip expected.toList).any fun pair => !equalsNumber python pair.1 pair.2)
        .protocol
  | _ => .error .protocol

def readUsage (value : Value α) (limits : PolicyLimits) : Except Raised PolicyUsage := do
  let entries ← fields value ["retained_bytes", "working_bytes", "requests", "global_requests"]
  let usage : PolicyUsage :=
    { retainedBytes := ← integer (get entries "retained_bytes") 0 limits.retainedBytes
      workingBytes := ← integer (get entries "working_bytes") 0 limits.workingBytes
      requests := ← integer (get entries "requests") 0 limits.requests
      globalRequests := ← integer (get entries "global_requests") 0 limits.globalRequests }
  rejectIf
    (decide (usage.globalRequests < usage.requests) ||
      (usage.requests == 0 && usage.workingBytes != 0) ||
      (usage.requests == 1 && decide (usage.workingBytes < 73728)))
    .protocol
  pure usage

/-- `value == principal`. -/
def isText (value : Value α) (expected : Text) : Bool :=
  match value with
  | .str text => text == expected
  | _ => false

/-- `PolicyStatus.from_dict`. -/
def readPolicyStatus (python : Interpreter α) (principal : Text) (value : Value α) :
    Except Raised PolicyStatus := do
  let entries ← fields value
    ["protocol_version", "epoch", "next_sequence", "world_id", "world_revision", "policy"]
  let policy ← fields (get entries "policy")
    ["schema_version", "principal", "read_scope", "write_bounds_m", "memory_model", "limits",
      "usage"]
  rejectIf
    (!isLiteral (get entries "protocol_version") "0.1" ||
      !isLiteral (get entries "world_id") "workshop" ||
      (principal != ascii "west" && principal != ascii "east") ||
      !isText (get policy "principal") principal ||
      !isLiteral (get policy "read_scope") "whole_world" ||
      !isLiteral (get policy "memory_model") "charged-resource-bytes-v1")
    .protocol
  let _ ← integer (get policy "schema_version") 1 1
  let limits ← readLimits (get policy "limits") (expectedLimits principal)
  let bounds ← fields (get policy "write_bounds_m") ["lower", "upper"]
  let (lower, upper) := expectedBounds principal
  checkBound python (get bounds "lower") lower
  checkBound python (get bounds "upper") upper
  let usage ← readUsage (get policy "usage") limits
  pure
    { principal := principal
      worldRevision := ← integer (get entries "world_revision") 0 uint64Max
      nextSequence := ← integer (get entries "next_sequence") 1 uint64Max
      limits := limits
      usage := usage
      lower := lower
      upper := upper
      epoch := ← Python.epoch (get entries "epoch") }

end Sdk

/-! ## What the SDK makes of it -/

namespace PolicyHost

open Sdk Python

variable {α σ : Type}

def seenLimits (principal : Principal) : PolicyLimits where
  maxOperations := operationLimit
  maxBodyBytes := bodyLimit
  retainedBytes := (grants principal).retainedLimit
  workingBytes := (grants principal).workingLimit
  observationBytes := observationLimit principal
  requests := 1
  globalRequests := 2

def seenUsage (usage : Usage) (principal : Principal) : PolicyUsage where
  retainedBytes := usage.retained principal
  workingBytes := usage.working principal
  requests := usage.requests principal
  globalRequests := usage.globalRequests

def seenStatus (host : Host σ) (principal : Principal) : PolicyStatus where
  principal := principalName principal
  worldRevision := host.ledger.usage.worldRevision.toNat
  nextSequence := (host.sessions principal).sequence.toNat
  limits := seenLimits principal
  usage := seenUsage host.ledger.usage principal
  lower := (grants principal).lower
  upper := (grants principal).upper
  epoch := (host.sessions principal).epoch

/-- A usage that adds up for a principal. -/
structure ReadableUsage (usage : Usage) (principal : Principal) : Prop where
  retained : usage.retained principal ≤ (grants principal).retainedLimit
  working : usage.working principal ≤ (grants principal).workingLimit
  requests : usage.requests principal ≤ 1
  globalRequests : usage.globalRequests ≤ 2
  counted : usage.requests principal ≤ usage.globalRequests
  idle : usage.requests principal = 0 → usage.working principal = 0
  busy : usage.requests principal = 1 → 73728 ≤ usage.working principal

theorem count_image {count : Nat} (small : count < 2 ^ 64) :
    (countJson count : Json α).image = .integer count := by
  simp only [countJson, Json.image, UInt64.toNat_ofNat']
  rw [Nat.mod_eq_of_lt small]

theorem count_integer {count : Nat} {minimum maximum : Int} (small : count < 2 ^ 64)
    (within : minimum ≤ count ∧ (count : Int) ≤ maximum) :
    integer (countJson count : Json α).image minimum maximum = .ok (count : Int) :=
  integer_eq_ok.mpr ⟨count_image small, within⟩

theorem principalName_known : ∀ principal,
    (principalName principal != ascii "west" && principalName principal != ascii "east") =
      false := by
  decide

theorem expectedBounds_name : ∀ principal,
    expectedBounds (principalName principal) =
      ((grants principal).lower, (grants principal).upper) := by
  decide

theorem grants_small : ∀ principal,
    ∀ component ∈ (grants principal).lower.toList ++ (grants principal).upper.toList,
      component.natAbs ≤ 2 ^ 53 := by
  decide

theorem limits_image (principal : Principal) :
    readLimits (limitsJson principal : Json α).image (expectedLimits (principalName principal)) =
      .ok (seenLimits principal) := by
  obtain ⟨_ | _ | value, known⟩ := principal
  · rfl
  · rfl
  · exact absurd known (by simp [principalCount])

theorem usage_image {usage : Usage} {principal : Principal}
    (readable : ReadableUsage usage principal) :
    readUsage (usageJson usage principal : Json α).image (seenLimits principal) =
      .ok (seenUsage usage principal) := by
  obtain ⟨retained, working, requests, globalRequests, counted, idle, busy⟩ := readable
  have limits : ∀ principal, (grants principal).retainedLimit ≤ 2048 ∧
      (grants principal).workingLimit ≤ 262144 := by decide
  have bounds := limits principal
  let entries : Entries α :=
    [(ascii "global_requests", (countJson usage.globalRequests : Json α).image),
      (ascii "requests", (countJson (usage.requests principal) : Json α).image),
      (ascii "retained_bytes", (countJson (usage.retained principal) : Json α).image),
      (ascii "working_bytes", (countJson (usage.working principal) : Json α).image)]
  have shape : fields (usageJson usage principal : Json α).image
      ["retained_bytes", "working_bytes", "requests", "global_requests"] = .ok entries := rfl
  have retainedRead : integer (get entries "retained_bytes") 0
      (seenLimits principal).retainedBytes = .ok (usage.retained principal : Int) :=
    count_integer (by omega) ⟨by omega, Int.ofNat_le.mpr retained⟩
  have workingRead : integer (get entries "working_bytes") 0
      (seenLimits principal).workingBytes = .ok (usage.working principal : Int) :=
    count_integer (by omega) ⟨by omega, Int.ofNat_le.mpr working⟩
  have requestsRead : integer (get entries "requests") 0 (seenLimits principal).requests =
      .ok (usage.requests principal : Int) :=
    count_integer (by omega) ⟨by omega, Int.ofNat_le.mpr requests⟩
  have globalRead : integer (get entries "global_requests") 0
      (seenLimits principal).globalRequests = .ok (usage.globalRequests : Int) :=
    count_integer (by omega) ⟨by omega, Int.ofNat_le.mpr globalRequests⟩
  have adds : (decide ((usage.globalRequests : Int) < usage.requests principal) ||
      ((usage.requests principal : Int) == 0 && (usage.working principal : Int) != 0) ||
      ((usage.requests principal : Int) == 1 &&
        decide ((usage.working principal : Int) < 73728))) = false := by
    simp only [Bool.or_eq_false_iff, Bool.and_eq_false_iff, decide_eq_false_iff_not,
      beq_eq_false_iff_ne, bne_eq_false_iff_eq]
    omega
  simp only [readUsage, shape, retainedRead, workingRead, requestsRead, globalRead, adds,
    rejectIf_false, bind, Except.bind, pure, Except.pure]
  rfl

variable [Scalar α]

theorem bound_image {python : Interpreter α} (bound : Vec3 Int)
    (small : ∀ component ∈ bound.toList,
      python.equalsInt component (Scalar.ofInt component) = true) :
    checkBound python (boundJson bound : Json α).image bound = .ok () := by
  obtain ⟨x, y, z⟩ := bound
  simp only [Vec3.toList, List.mem_cons, List.not_mem_nil, or_false, forall_eq_or_imp,
    forall_eq] at small
  obtain ⟨first, second, third⟩ := small
  simp [checkBound, boundJson, Commands.vectorJson, Vec3.toList, Json.image, Json.imageItems,
    equalsNumber, first, second, third]

theorem status_image {python : Interpreter α}
    (small : ∀ number : Int, number.natAbs ≤ 2 ^ 53 →
      python.equalsInt number (Scalar.ofInt number : α) = true)
    {config : Config} (named : config.worldId = ascii "workshop") {host : Host σ}
    {principal : Principal} (readable : ReadableUsage host.ledger.usage principal)
    (epoch : hex64Pattern (host.sessions principal).epoch = true)
    (positive : (host.sessions principal).sequence ≠ 0) :
    readPolicyStatus python (principalName principal)
        (statusJson config host principal : Json α).image =
      .ok (seenStatus host principal) := by
  let usage := host.ledger.usage
  let entries : Entries α :=
    [(ascii "epoch", .str (host.sessions principal).epoch),
      (ascii "next_sequence", (Json.unsigned (host.sessions principal).sequence).image),
      (ascii "policy", (policyJson usage principal : Json α).image),
      (ascii "protocol_version", .str (ascii "0.1")), (ascii "world_id", .str config.worldId),
      (ascii "world_revision", (Json.unsigned usage.worldRevision).image)]
  let policy : Entries α :=
    [(ascii "limits", (limitsJson principal : Json α).image),
      (ascii "memory_model", .str (ascii "charged-resource-bytes-v1")),
      (ascii "principal", .str (principalName principal)),
      (ascii "read_scope", .str (ascii "whole_world")), (ascii "schema_version", .integer 1),
      (ascii "usage", (usageJson usage principal : Json α).image),
      (ascii "write_bounds_m", (Json.object
        [(ascii "lower", boundJson (grants principal).lower),
          (ascii "upper", boundJson (grants principal).upper)] : Json α).image)]
  let bounds : Entries α :=
    [(ascii "lower", (boundJson (grants principal).lower : Json α).image),
      (ascii "upper", (boundJson (grants principal).upper : Json α).image)]
  have shape : fields (statusJson config host principal : Json α).image
      ["protocol_version", "epoch", "next_sequence", "world_id", "world_revision", "policy"] =
        .ok entries := rfl
  have policyShape : fields (get entries "policy")
      ["schema_version", "principal", "read_scope", "write_bounds_m", "memory_model", "limits",
        "usage"] = .ok policy := rfl
  have boundsShape : fields (get policy "write_bounds_m") ["lower", "upper"] = .ok bounds := rfl
  have world : isLiteral (get entries "world_id") "workshop" = true := by
    change isLiteral (.str config.worldId : Value α) "workshop" = true
    rw [named]
    rfl
  have known := principalName_known principal
  have own : isText (get policy "principal") (principalName principal) = true :=
    beq_self_eq_true (principalName principal)
  have agreed : (!isLiteral (get entries "protocol_version") "0.1" ||
      !isLiteral (get entries "world_id") "workshop" ||
      (principalName principal != ascii "west" && principalName principal != ascii "east") ||
      !isText (get policy "principal") (principalName principal) ||
      !isLiteral (get policy "read_scope") "whole_world" ||
      !isLiteral (get policy "memory_model") "charged-resource-bytes-v1") = false := by
    rw [world, known, own]
    rfl
  have version : integer (get policy "schema_version") 1 1 = .ok 1 := rfl
  have limits : readLimits (get policy "limits") (expectedLimits (principalName principal)) =
      .ok (seenLimits principal) := limits_image principal
  have expected := expectedBounds_name principal
  have components := grants_small principal
  have lower : checkBound python (get bounds "lower") (grants principal).lower = .ok () :=
    bound_image _ fun component member =>
      small component (components component (List.mem_append_left _ member))
  have upper : checkBound python (get bounds "upper") (grants principal).upper = .ok () :=
    bound_image _ fun component member =>
      small component (components component (List.mem_append_right _ member))
  have used : readUsage (get policy "usage") (seenLimits principal) =
      .ok (seenUsage usage principal) := usage_image readable
  have revision : integer (get entries "world_revision") 0 uint64Max =
      .ok (usage.worldRevision.toNat : Int) := integer_unsigned (by omega)
  have next : integer (get entries "next_sequence") 1 uint64Max =
      .ok ((host.sessions principal).sequence.toNat : Int) := by
    have nonzero : (host.sessions principal).sequence.toNat ≠ 0 :=
      fun zero => positive (UInt64.toNat_inj.mp zero)
    exact integer_unsigned (by omega)
  have epochRead : Python.epoch (get entries "epoch") = .ok (host.sessions principal).epoch :=
    if_pos epoch
  simp only [readPolicyStatus, shape, policyShape, boundsShape, agreed, version, limits, expected,
    lower, upper, used, revision, next, epochRead, rejectIf_false, bind, Except.bind, pure,
    Except.pure]
  rfl

theorem boundJson_sendable
    (small : ∀ number : Int, number.natAbs ≤ 2 ^ 53 →
      Scalar.isFinite (Scalar.ofInt number : α) = true)
    {bound : Vec3 Int} (within : ∀ component ∈ bound.toList, component.natAbs ≤ 2 ^ 53) :
    Control.Sendable 1 (boundJson bound : Json α) := by
  refine Control.sendable_floats fun value member => ?_
  obtain ⟨component, held, same⟩ := List.mem_map.mp member
  exact same ▸ small component (within component held)

theorem policyJson_sendable
    (small : ∀ number : Int, number.natAbs ≤ 2 ^ 53 →
      Scalar.isFinite (Scalar.ofInt number : α) = true)
    (usage : Usage) (principal : Principal) :
    Control.Sendable 3 (policyJson usage principal : Json α) := by
  have count (count : Nat) : Control.Sendable 1 (countJson count : Json α) :=
    Control.sendable_unsigned _ _
  have components := grants_small principal
  have name : (principalName principal).all Json.printable = true := by
    unfold principalName
    split
    · rfl
    · rfl
  have limits : Control.Sendable 2 (limitsJson principal : Json α) :=
    Control.sendable_object rfl rfl
      ⟨count _, count _, count _, count _, count _, count _, count _⟩
  have used : Control.Sendable 2 (usageJson usage principal : Json α) :=
    Control.sendable_object rfl rfl ⟨count _, count _, count _, count _⟩
  have bounds : Control.Sendable 2 (.object
      [(ascii "lower", boundJson (grants principal).lower),
        (ascii "upper", boundJson (grants principal).upper)] : Json α) :=
    Control.sendable_object rfl rfl
      ⟨boundJson_sendable small fun component member =>
          components component (List.mem_append_left _ member),
        boundJson_sendable small fun component member =>
          components component (List.mem_append_right _ member)⟩
  exact Control.sendable_object rfl rfl
    ⟨limits, Control.sendable_string _ rfl, Control.sendable_string _ name,
      Control.sendable_string _ rfl, Control.sendable_unsigned _ _, used, bounds⟩

theorem policyJson_weight (usage : Usage) (principal : Principal) :
    (policyJson usage principal : Json α).weight ≤ 1000 := by
  have name : (principalName principal).length = 4 := by
    unfold principalName
    split
    · rfl
    · rfl
  simp [policyJson, limitsJson, usageJson, countJson, boundJson, Commands.vectorJson,
    Vec3.toList, Json.weight, Json.weightEntries, Json.weightItems, ascii, name]

/-- The SDK reads the status of a principal from the text of the host. -/
theorem status_recovered {python : Interpreter α} {library : JsonLibrary α}
    (codecs : Codecs python library) {config : Config}
    (named : config.worldId = ascii "workshop") {host : Host σ} {principal : Principal}
    (readable : ReadableUsage host.ledger.usage principal)
    (epoch : hex64Pattern (host.sessions principal).epoch = true)
    (positive : (host.sessions principal).sequence ≠ 0) :
    Recovers python library (statusJson config host principal)
      (readPolicyStatus python (principalName principal)) (seenStatus host principal) := by
  have letters := Json.printable_text (Commands.validIdentifier_bytes (hex64_identifier epoch))
  have world : config.worldId.all Json.printable = true := by
    rw [named]
    rfl
  have policy := policyJson_sendable (α := α) (fun number few => (codecs.small number few).1)
    host.ledger.usage principal
  have sent : Control.Sendable 4 (statusJson config host principal : Json α) :=
    Control.sendable_object rfl rfl
      ⟨Control.sendable_string _ letters, Control.sendable_unsigned _ _, policy,
        Control.sendable_string _ rfl, Control.sendable_string _ world,
        Control.sendable_unsigned _ _⟩
  refine recovers_image codecs (sent.deeper (by decide)) ?_
    (status_image (fun number few => (codecs.small number few).2) named readable epoch positive)
  have weight := policyJson_weight (α := α) host.ledger.usage principal
  have short : config.worldId.length = 8 := by
    rw [named]
    rfl
  have names :
      (ascii "epoch").length = 5 ∧ (ascii "next_sequence").length = 13 ∧
        (ascii "policy").length = 6 ∧ (ascii "protocol_version").length = 16 ∧
        (ascii "0.1").length = 3 ∧ (ascii "world_id").length = 8 ∧
        (ascii "world_revision").length = 14 := by decide
  obtain ⟨first, second, third, fourth, fifth, sixth, seventh⟩ := names
  simp only [hex64Pattern, Bool.and_eq_true, decide_eq_true_eq] at epoch
  simp only [statusJson, Json.weight, Json.weightEntries, maxResponse]
  omega

end PolicyHost

end Omniweft
