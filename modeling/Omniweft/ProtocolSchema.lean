import Omniweft.Schema
import Omniweft.CommandsAccepts

/-!
# The published schema of the envelope

`protocol-0.1.schema.json`, definition by definition, and its agreement with the
validator: `convert` accepts what the schema says is valid when every integer is an
unsigned token and the operations fit their own budget.
-/

namespace Omniweft.ProtocolSchema

open Commands Schema

section Document

/-- `[A-Za-z0-9]` -/
def firstCharacter : List (UInt8 × UInt8) := [(65, 90), (97, 122), (48, 57)]

/-- `[A-Za-z0-9._:-]` -/
def laterCharacter : List (UInt8 × UInt8) :=
  [(65, 90), (97, 122), (48, 57), (46, 46), (95, 95), (58, 58), (45, 45)]

/-- `^[A-Za-z0-9][A-Za-z0-9._:-]{0,more}$` -/
def identifierPattern (more : Nat) : List Piece :=
  [⟨firstCharacter, 1, 1⟩, ⟨laterCharacter, 0, more⟩]

/-- `[0-9a-f]` -/
def hexadecimal : List (UInt8 × UInt8) := [(48, 57), (97, 102)]

def hyphen : List (UInt8 × UInt8) := [(45, 45)]

/-- `^[0-9a-f]{8}-[0-9a-f]{4}-[0-9a-f]{4}-[0-9a-f]{4}-[0-9a-f]{12}$` -/
def uuidPattern : List Piece :=
  [⟨hexadecimal, 8, 8⟩, ⟨hyphen, 1, 1⟩, ⟨hexadecimal, 4, 4⟩, ⟨hyphen, 1, 1⟩,
    ⟨hexadecimal, 4, 4⟩, ⟨hyphen, 1, 1⟩, ⟨hexadecimal, 4, 4⟩, ⟨hyphen, 1, 1⟩,
    ⟨hexadecimal, 12, 12⟩]

variable {α : Type} [Scalar α]

def identifier : Schema α := .pattern (identifierPattern 127)

def temporaryId : Schema α := .pattern (identifierPattern 63)

def uuid : Schema α := .pattern uuidPattern

def uint64 : Schema α := .integer 0 18446744073709551615

/-- `largest` is the literal `1.7976931348623157e+308`. -/
def finiteNumber (largest : α) : Schema α := .number (-largest) largest

def vector3 (largest : α) : Schema α := .array 3 3 false (finiteNumber largest)

def quaternion (largest : α) : Schema α := .array 4 4 false (finiteNumber largest)

def temporaryTarget : Schema α :=
  .object [ascii "temporary_id"] [(ascii "temporary_id", temporaryId)]

def durableTarget : Schema α :=
  .object [ascii "world_id", ascii "entity_uuid", ascii "generation"]
    [(ascii "world_id", identifier), (ascii "entity_uuid", uuid),
      (ascii "generation", uint64)]

def create : Schema α :=
  .object [ascii "type", ascii "temporary_id", ascii "prefab"]
    [(ascii "type", .const (ascii "entity.create")),
      (ascii "temporary_id", temporaryId), (ascii "prefab", identifier)]

def transform (largest : α) : Schema α :=
  .object
    [ascii "type", ascii "target", ascii "position_m", ascii "rotation_xyzw",
      ascii "scale"]
    [(ascii "type", .const (ascii "transform.set")),
      (ascii "target", .oneOf [temporaryTarget, durableTarget]),
      (ascii "position_m", vector3 largest),
      (ascii "rotation_xyzw", quaternion largest), (ascii "scale", vector3 largest)]

def delete : Schema α :=
  .object [ascii "type", ascii "target", ascii "child_policy"]
    [(ascii "type", .const (ascii "entity.delete")),
      (ascii "target", .oneOf [temporaryTarget, durableTarget]),
      (ascii "child_policy", .const (ascii "reject_if_children"))]

def reparent : Schema α :=
  .object [ascii "type", ascii "target", ascii "parent", ascii "mode"]
    [(ascii "type", .const (ascii "entity.reparent")),
      (ascii "target", .oneOf [temporaryTarget, durableTarget]),
      (ascii "parent", .oneOf [.null, temporaryTarget, durableTarget]),
      (ascii "mode", .enum [ascii "preserve_world", ascii "preserve_local"])]

def tagsSet : Schema α :=
  .object [ascii "type", ascii "target", ascii "tags"]
    [(ascii "type", .const (ascii "entity.tags.set")),
      (ascii "target", .oneOf [temporaryTarget, durableTarget]),
      (ascii "tags", .array 0 8 true (.pattern (identifierPattern 31)))]

def idempotency : Schema α :=
  .object [ascii "epoch", ascii "sequence"]
    [(ascii "epoch", identifier), (ascii "sequence", uint64)]

def applyAt : Schema α :=
  .object [ascii "mode", ascii "expires_after_ticks"]
    [(ascii "mode", .const (ascii "next_tick")),
      (ascii "expires_after_ticks", .integer 1 4294967295)]

def budget : Schema α :=
  .object [ascii "max_operations", ascii "max_blob_bytes"]
    [(ascii "max_operations", .integer 1 256), (ascii "max_blob_bytes", uint64)]

def operations (largest : α) : Schema α :=
  .array 1 256 false
    (.oneOf [create, transform largest, delete, reparent, tagsSet])

/-- The envelope, the root of the document. -/
def envelope (largest : α) : Schema α :=
  .object
    [ascii "protocol_version", ascii "world_id", ascii "transaction_id",
      ascii "idempotency", ascii "expected_world_revision", ascii "apply_at",
      ascii "budget", ascii "operations"]
    [(ascii "protocol_version", .const (ascii "0.1")), (ascii "world_id", identifier),
      (ascii "transaction_id", uuid), (ascii "idempotency", idempotency),
      (ascii "expected_world_revision", uint64), (ascii "apply_at", applyAt),
      (ascii "budget", budget), (ascii "operations", operations largest)]

/-- The number of operations does not exceed `budget.max_operations`. -/
def withinBudget (value : Json α) : Bool :=
  match value.member (ascii "operations"),
    (value.member (ascii "budget")).member (ascii "max_operations") with
  | .array operations, .unsigned maximum => decide (operations.length ≤ maximum.toNat)
  | _, _ => false

end Document

theorem inRanges_first (character : UInt8) :
    inRanges firstCharacter character = alphanumeric character := by
  simp only [inRanges, firstCharacter, List.any_cons, List.any_nil, Bool.or_false,
    alphanumeric]
  rw [← Bool.or_assoc, Bool.or_comm (_ && _) (97 ≤ character && character ≤ 122)]

theorem inRanges_single (single character : UInt8) :
    (decide (single ≤ character) && decide (character ≤ single)) =
      (character == single) := by
  rw [Bool.eq_iff_iff]
  simp only [Bool.and_eq_true, decide_eq_true_eq, beq_iff_eq, UInt8.le_iff_toNat_le,
    ← UInt8.toNat_inj]
  omega

theorem inRanges_later (character : UInt8) :
    inRanges laterCharacter character = identifierByte character := by
  have first := inRanges_first character
  simp only [inRanges, firstCharacter, List.any_cons, List.any_nil, Bool.or_false] at first
  simp only [inRanges, laterCharacter, List.any_cons, List.any_nil, Bool.or_false,
    identifierByte, ← first, inRanges_single, Bool.or_assoc]

theorem identifier_matches {more : Nat} {text : Text} :
    matchesPattern (identifierPattern more) text = true ↔
      validIdentifier (more + 1) text = true := by
  unfold identifierPattern
  rw [matchesPattern_fixed, matchesPattern_last]
  cases text with
  | nil => simp [validIdentifier]
  | cons first rest =>
      simp only [List.length_cons, List.take_succ_cons, List.take_zero, List.all_cons,
        List.all_nil, Bool.and_true, List.drop_succ_cons, List.drop_zero, inRanges_first,
        funext inRanges_later, validIdentifier, Bool.and_eq_true, decide_eq_true_eq]
      constructor
      · intro matched
        obtain ⟨_, head, _, short, tail⟩ := matched
        refine ⟨⟨by omega, head⟩, ?_, tail⟩
        simp [identifierByte, head]
      · intro valid
        obtain ⟨⟨short, head⟩, _, tail⟩ := valid
        exact ⟨by omega, head, by omega, by omega, tail⟩

theorem uuid_matches {text : Text} :
    matchesPattern uuidPattern text = true ↔ validUuid text = true := by
  have kinds : expand uuidPattern = (List.range 36).map fun index =>
      if index = 8 ∨ index = 13 ∨ index = 18 ∨ index = 23 then hyphen else hexadecimal := by
    decide
  have fixed : ∀ piece ∈ uuidPattern, piece.minimum = piece.maximum := by decide
  have agrees (index : Nat) (character : UInt8) :
      inRanges (if index = 8 ∨ index = 13 ∨ index = 18 ∨ index = 23 then hyphen
        else hexadecimal) character = uuidByte index character := by
    unfold uuidByte
    split
    · simp [inRanges, hyphen, inRanges_single]
    · simp [inRanges, hexadecimal]
  rw [matchesPattern_expand fixed, kinds, List.forall₂_iff_get]
  simp only [List.length_map, List.length_range, List.get_eq_getElem, List.getElem_map,
    List.getElem_range, agrees, validUuid, Bool.and_eq_true, decide_eq_true_eq,
    List.all_eq_true]
  constructor
  · intro matched
    obtain ⟨length, each⟩ := matched
    refine ⟨length.symm, ?_⟩
    intro entry member
    obtain ⟨_, within, same⟩ := List.mem_zipIdx member
    rw [same]
    simp only [Nat.zero_add, Nat.sub_zero] at within ⊢
    exact each entry.2 (by omega) within
  · intro valid
    obtain ⟨length, each⟩ := valid
    refine ⟨length.symm, ?_⟩
    intro index _ within
    refine each (text[index], index) ?_
    rw [List.mem_zipIdx_iff_getElem?]
    simp [within]

section Agreement

variable {α : Type} [Scalar α] {integral : α → Option Int} {value : Json α}

theorem identifier_accepts {more : Nat} :
    Accepts integral (.pattern (identifierPattern more)) value ↔
      ∃ text, value = .string text ∧ validIdentifier (more + 1) text = true := by
  simp only [accepts_pattern, identifier_matches]

theorem uuid_accepts :
    Accepts integral uuid value ↔ ∃ text, value = .string text ∧ validUuid text = true := by
  simp only [uuid, accepts_pattern, uuid_matches]

theorem uint64_accepts :
    Accepts integral uint64 value ↔ ∃ token, value = .unsigned token := by
  rw [uint64, accepts_integer]
  constructor
  · intro accepted
    obtain ⟨token, same, _⟩ := accepted
    exact ⟨token, same⟩
  · intro held
    obtain ⟨token, same⟩ := held
    have small := token.toNat_lt
    exact ⟨token, same, by omega, by omega⟩

theorem temporaryTarget_accepts :
    Accepts integral temporaryTarget value ↔
      ∃ reference, IsTarget value (.temporary reference) ∧
        ValidTarget (.temporary reference) := by
  simp only [temporaryTarget, accepts_object, List.map_cons, List.map_nil,
    List.forall_mem_cons, List.not_mem_nil,
    false_imp_iff, implies_true, and_true, temporaryId, identifier_accepts, IsTarget,
    ValidTarget]
  constructor
  · intro accepted
    obtain ⟨closed, text, same, valid⟩ := accepted
    exact ⟨⟨text⟩, ⟨closed, same⟩, valid⟩
  · intro shape
    obtain ⟨reference, ⟨closed, same⟩, valid⟩ := shape
    exact ⟨closed, _, same, valid⟩

theorem durableTarget_accepts :
    Accepts integral durableTarget value ↔
      ∃ reference, IsTarget value (.entity reference) ∧
        ValidTarget (.entity reference) := by
  simp only [durableTarget, accepts_object, List.map_cons, List.map_nil,
    List.forall_mem_cons, List.not_mem_nil,
    false_imp_iff, implies_true, and_true, identifier, identifier_accepts, uuid_accepts,
    uint64_accepts, IsTarget, ValidTarget]
  constructor
  · intro accepted
    obtain ⟨closed, ⟨world, worldSame, worldValid⟩, ⟨uuid, uuidSame, uuidValid⟩,
      generation, generationSame⟩ := accepted
    exact ⟨⟨world, uuid, generation⟩, ⟨closed, worldSame, uuidSame, generationSame⟩,
      worldValid, uuidValid⟩
  · intro shape
    obtain ⟨reference, ⟨closed, worldSame, uuidSame, generationSame⟩, worldValid,
      uuidValid⟩ := shape
    exact ⟨closed, ⟨_, worldSame, worldValid⟩, ⟨_, uuidSame, uuidValid⟩, _,
      generationSame⟩

/-- No value is both forms of a target. -/
theorem targets_exclusive :
    ¬ (valid integral temporaryTarget value = true ∧
      valid integral durableTarget value = true) := by
  intro both
  have temporary := valid_closed both.1 rfl
  have durable := valid_closed both.2 rfl
  have named := (temporary.contains (ascii "temporary_id")).mpr (by decide)
  exact absurd ((durable.contains _).mp named) (by decide)

theorem null_exclusive {required : List Text} {properties : List (Text × Schema α)}
    (all : properties.map Prod.fst = required) :
    ¬ (valid integral .null value = true ∧
      valid integral (.object required properties) value = true) := by
  intro both
  obtain ⟨entries, same, _⟩ := valid_closed both.2 all
  rw [same] at both
  exact absurd both.1 (by simp [valid])

theorem target_accepts :
    Accepts integral (.oneOf [temporaryTarget, durableTarget]) value ↔
      ∃ target, IsTarget value target ∧ ValidTarget target := by
  rw [accepts_oneOf (by simpa using targets_exclusive)]
  simp only [List.exists_mem_cons_iff, List.not_mem_nil, false_and, exists_false, or_false,
    temporaryTarget_accepts, durableTarget_accepts]
  constructor
  · intro either
    rcases either with ⟨reference, both⟩ | ⟨reference, both⟩
    · exact ⟨.temporary reference, both⟩
    · exact ⟨.entity reference, both⟩
  · intro shape
    obtain ⟨target, both⟩ := shape
    cases target with
    | temporary reference => exact Or.inl ⟨reference, both⟩
    | entity reference => exact Or.inr ⟨reference, both⟩

theorem parent_accepts :
    Accepts integral (.oneOf [.null, temporaryTarget, durableTarget]) value ↔
      ∃ parent, IsParent value parent ∧
        ∀ target, parent = some target → ValidTarget target := by
  have exclusive : ([.null, temporaryTarget, durableTarget] : List (Schema α)).Pairwise
      fun left right =>
        ¬ (valid integral left value = true ∧ valid integral right value = true) := by
    simp only [List.pairwise_cons, List.forall_mem_cons, List.not_mem_nil, false_imp_iff,
      implies_true, and_true, List.Pairwise.nil]
    exact ⟨⟨null_exclusive rfl, null_exclusive rfl⟩, targets_exclusive⟩
  have targets := @target_accepts α _ integral value
  rw [accepts_oneOf (by simpa using targets_exclusive)] at targets
  rw [accepts_oneOf exclusive, List.exists_mem_cons_iff, accepts_null, targets]
  constructor
  · intro either
    rcases either with orphan | ⟨target, isTarget, valid⟩
    · exact ⟨none, orphan, by simp⟩
    · exact ⟨some target, isTarget, by simpa using valid⟩
  · intro shape
    obtain ⟨parent, isParent, valid⟩ := shape
    cases parent with
    | none => exact Or.inl isParent
    | some target => exact Or.inr ⟨target, isParent, valid target rfl⟩

/-- `largest` is the largest finite number. -/
def Widest (largest : α) : Prop :=
  ∀ number : α, Scalar.isFinite number = true →
    Scalar.lt number (-largest) = false ∧ Scalar.lt largest number = false

variable {largest : α}

theorem finiteNumber_accepts (widest : Widest largest) (finite : value.FiniteNumbers) :
    Accepts integral (finiteNumber largest) value ↔
      ∃ number, value.numeral = some number ∧ Scalar.isFinite number = true := by
  rw [finiteNumber, accepts_number]
  constructor
  · intro accepted
    obtain ⟨number, read, _⟩ := accepted
    exact ⟨number, read, finite.numeral read⟩
  · intro held
    obtain ⟨number, read, isFinite⟩ := held
    exact ⟨number, read, widest number isFinite⟩

theorem vector3_accepts (widest : Widest largest) (finite : value.FiniteNumbers) :
    Accepts integral (vector3 largest) value ↔
      ∃ result : Vec3 α, IsVector value result.toList ∧ FiniteVec3 result := by
  rw [vector3, accepts_array]
  constructor
  · intro accepted
    obtain ⟨values, rfl, low, high, _, each⟩ := accepted
    have numbers (item : Json α) (found : item ∈ values) :=
      (finiteNumber_accepts widest (Json.FiniteItems.item finite item found)).mp
        (each item found)
    match values, low, high with
    | [first, second, third], _, _ =>
        obtain ⟨x, xRead, xFinite⟩ := numbers first (by simp)
        obtain ⟨y, yRead, yFinite⟩ := numbers second (by simp)
        obtain ⟨z, zRead, zFinite⟩ := numbers third (by simp)
        exact ⟨⟨x, y, z⟩, ⟨_, rfl, by simp [Vec3.toList, xRead, yRead, zRead]⟩, xFinite,
          yFinite, zFinite⟩
  · intro shape
    obtain ⟨result, isVector, isFinite⟩ := shape
    obtain ⟨first, second, third, rfl, x, y, z, xFinite, yFinite, zFinite⟩ :=
      vector3_eq_ok.mp ((@vector3_shape α _ _ [] _).mpr ⟨isVector, isFinite⟩)
    refine ⟨_, rfl, by simp, by simp, by simp, ?_⟩
    intro item found
    have held := Json.FiniteItems.item finite item found
    rw [finiteNumber_accepts widest held]
    simp only [List.mem_cons, List.not_mem_nil, or_false] at found
    rcases found with rfl | rfl | rfl
    · exact ⟨_, x, xFinite⟩
    · exact ⟨_, y, yFinite⟩
    · exact ⟨_, z, zFinite⟩

theorem quaternion_accepts (widest : Widest largest) (finite : value.FiniteNumbers) :
    Accepts integral (quaternion largest) value ↔
      ∃ result : Quat α, IsVector value result.toList ∧ FiniteQuat result := by
  rw [quaternion, accepts_array]
  constructor
  · intro accepted
    obtain ⟨values, rfl, low, high, _, each⟩ := accepted
    have numbers (item : Json α) (found : item ∈ values) :=
      (finiteNumber_accepts widest (Json.FiniteItems.item finite item found)).mp
        (each item found)
    match values, low, high with
    | [first, second, third, fourth], _, _ =>
        obtain ⟨x, xRead, xFinite⟩ := numbers first (by simp)
        obtain ⟨y, yRead, yFinite⟩ := numbers second (by simp)
        obtain ⟨z, zRead, zFinite⟩ := numbers third (by simp)
        obtain ⟨w, wRead, wFinite⟩ := numbers fourth (by simp)
        exact ⟨⟨x, y, z, w⟩,
          ⟨_, rfl, by simp [Quat.toList, xRead, yRead, zRead, wRead]⟩, xFinite, yFinite,
          zFinite, wFinite⟩
  · intro shape
    obtain ⟨result, isVector, isFinite⟩ := shape
    obtain ⟨first, second, third, fourth, rfl, x, y, z, w, xFinite, yFinite, zFinite,
      wFinite⟩ :=
      vector4_eq_ok.mp ((@vector4_shape α _ _ [] _).mpr ⟨isVector, isFinite⟩)
    refine ⟨_, rfl, by simp, by simp, by simp, ?_⟩
    intro item found
    have held := Json.FiniteItems.item finite item found
    rw [finiteNumber_accepts widest held]
    simp only [List.mem_cons, List.not_mem_nil, or_false] at found
    rcases found with rfl | rfl | rfl | rfl
    · exact ⟨_, x, xFinite⟩
    · exact ⟨_, y, yFinite⟩
    · exact ⟨_, z, zFinite⟩
    · exact ⟨_, w, wFinite⟩

theorem tags_accept :
    Accepts integral (.array 0 8 true (.pattern (identifierPattern 31))) value ↔
      ∃ tags : List Text, value = .array (tags.map Json.string) ∧ tags.length ≤ 8 ∧
        (∀ tag ∈ tags, validIdentifier 32 tag = true) ∧ tags.Nodup := by
  rw [accepts_array]
  constructor
  · intro accepted
    obtain ⟨values, rfl, low, few, unique, each⟩ := accepted
    have strings : ∃ tags : List Text, values = tags.map Json.string ∧
        ∀ tag ∈ tags, validIdentifier 32 tag = true := by
      clear low few unique
      induction values with
      | nil => exact ⟨[], rfl, by simp⟩
      | cons item rest inductionHypothesis =>
          obtain ⟨tag, rfl, tagValid⟩ := identifier_accepts.mp (each item List.mem_cons_self)
          obtain ⟨tags, rfl, others⟩ := inductionHypothesis fun other found =>
            each other (List.mem_cons_of_mem _ found)
          exact ⟨tag :: tags, rfl, List.forall_mem_cons.mpr ⟨tagValid, others⟩⟩
    obtain ⟨tags, rfl, tagsValid⟩ := strings
    rw [List.length_map] at few
    exact ⟨tags, rfl, few, tagsValid, distinct_strings.mp (unique rfl)⟩
  · intro shape
    obtain ⟨tags, rfl, few, tagsValid, unique⟩ := shape
    refine ⟨_, rfl, Nat.zero_le _, by rwa [List.length_map],
      fun _ => distinct_strings.mpr unique, ?_⟩
    intro item found
    obtain ⟨tag, member, rfl⟩ := List.mem_map.mp found
    exact identifier_accepts.mpr ⟨tag, rfl, tagsValid tag member⟩

/-- The object of a valid operation of this type. -/
def Spells (value : Json α) (kind : String) : Prop :=
  ∃ operation : Operation α, operationType operation = kind ∧
    IsOperation value operation ∧ ValidOperation operation

theorem create_accepts : Accepts integral create value ↔ Spells value "entity.create" := by
  unfold Spells
  simp only [create, accepts_object, List.map_cons, List.map_nil, List.forall_mem_cons,
    List.not_mem_nil, false_imp_iff, implies_true, and_true, accepts_const, temporaryId,
    identifier, identifier_accepts]
  constructor
  · intro accepted
    obtain ⟨closed, typed, ⟨name, nameSame, nameValid⟩, prefab, prefabSame,
      prefabValid⟩ := accepted
    exact ⟨.entityCreate ⟨name, prefab⟩, rfl, ⟨closed, typed, nameSame, prefabSame⟩,
      nameValid, prefabValid⟩
  · intro shape
    obtain ⟨operation, kind, isOperation, isValid⟩ := shape
    cases operation with
    | entityCreate operation =>
        obtain ⟨closed, typed, nameSame, prefabSame⟩ := isOperation
        exact ⟨closed, typed, ⟨_, nameSame, isValid.1⟩, _, prefabSame, isValid.2⟩
    | _ => simp [operationType] at kind

theorem transform_accepts (widest : Widest largest) (finite : value.FiniteNumbers) :
    Accepts integral (transform largest) value ↔ Spells value "transform.set" := by
  unfold Spells
  simp only [transform, accepts_object, List.map_cons, List.map_nil, List.forall_mem_cons,
    List.not_mem_nil, false_imp_iff, implies_true, and_true, accepts_const, target_accepts,
    vector3_accepts widest (finite.member _), quaternion_accepts widest (finite.member _)]
  constructor
  · intro accepted
    obtain ⟨closed, typed, ⟨target, isTarget, isValid⟩, ⟨position, isPosition,
      positionFinite⟩, ⟨rotation, isRotation, rotationFinite⟩, scale, isScale,
      scaleFinite⟩ := accepted
    exact ⟨.transformSet ⟨target, position, rotation, scale⟩, rfl,
      ⟨closed, typed, isTarget, isPosition, isRotation, isScale⟩, isValid, positionFinite,
      rotationFinite, scaleFinite⟩
  · intro shape
    obtain ⟨operation, kind, isOperation, isValid⟩ := shape
    cases operation with
    | transformSet operation =>
        obtain ⟨closed, typed, isTarget, isPosition, isRotation, isScale⟩ := isOperation
        obtain ⟨targetValid, positionFinite, rotationFinite, scaleFinite⟩ := isValid
        exact ⟨closed, typed, ⟨_, isTarget, targetValid⟩, ⟨_, isPosition, positionFinite⟩,
          ⟨_, isRotation, rotationFinite⟩, _, isScale, scaleFinite⟩
    | _ => simp [operationType] at kind

theorem delete_accepts : Accepts integral delete value ↔ Spells value "entity.delete" := by
  unfold Spells
  simp only [delete, accepts_object, List.map_cons, List.map_nil, List.forall_mem_cons,
    List.not_mem_nil, false_imp_iff, implies_true, and_true, accepts_const, target_accepts]
  constructor
  · intro accepted
    obtain ⟨closed, typed, ⟨target, isTarget, isValid⟩, policy⟩ := accepted
    exact ⟨.entityDelete ⟨target, _⟩, rfl, ⟨closed, typed, isTarget, policy⟩, isValid, rfl⟩
  · intro shape
    obtain ⟨operation, kind, isOperation, isValid⟩ := shape
    cases operation with
    | entityDelete operation =>
        obtain ⟨closed, typed, isTarget, policy⟩ := isOperation
        exact ⟨closed, typed, ⟨_, isTarget, isValid.1⟩, isValid.2 ▸ policy⟩
    | _ => simp [operationType] at kind

theorem reparent_accepts : Accepts integral reparent value ↔ Spells value "entity.reparent" := by
  unfold Spells
  simp only [reparent, accepts_object, List.map_cons, List.map_nil, List.forall_mem_cons,
    List.not_mem_nil, false_imp_iff, implies_true, and_true, accepts_const, target_accepts,
    parent_accepts, accepts_enum, List.exists_mem_cons_iff, false_and, exists_false,
    or_false]
  constructor
  · intro accepted
    obtain ⟨closed, typed, ⟨target, isTarget, isValid⟩, ⟨parent, isParent, parentValid⟩,
      mode⟩ := accepted
    rcases mode with mode | mode
    · exact ⟨.entityReparent ⟨target, parent, _⟩, rfl,
        ⟨closed, typed, isTarget, isParent, mode⟩, isValid, parentValid, Or.inl rfl⟩
    · exact ⟨.entityReparent ⟨target, parent, _⟩, rfl,
        ⟨closed, typed, isTarget, isParent, mode⟩, isValid, parentValid, Or.inr rfl⟩
  · intro shape
    obtain ⟨operation, kind, isOperation, isValid⟩ := shape
    cases operation with
    | entityReparent operation =>
        obtain ⟨closed, typed, isTarget, isParent, mode⟩ := isOperation
        obtain ⟨targetValid, parentValid, modes⟩ := isValid
        refine ⟨closed, typed, ⟨_, isTarget, targetValid⟩, ⟨_, isParent, parentValid⟩, ?_⟩
        rcases modes with same | same
        · exact Or.inl (same ▸ mode)
        · exact Or.inr (same ▸ mode)
    | _ => simp [operationType] at kind

theorem tagsSet_accepts : Accepts integral tagsSet value ↔ Spells value "entity.tags.set" := by
  unfold Spells
  simp only [tagsSet, accepts_object, List.map_cons, List.map_nil, List.forall_mem_cons,
    List.not_mem_nil, false_imp_iff, implies_true, and_true, accepts_const, target_accepts,
    tags_accept]
  constructor
  · intro accepted
    obtain ⟨closed, typed, ⟨target, isTarget, isValid⟩, tags, same, few, tagsValid,
      unique⟩ := accepted
    exact ⟨.entityTagsSet ⟨target, tags⟩, rfl, ⟨closed, typed, isTarget, same⟩, isValid, few,
      tagsValid, unique⟩
  · intro shape
    obtain ⟨operation, kind, isOperation, isValid⟩ := shape
    cases operation with
    | entityTagsSet operation =>
        obtain ⟨closed, typed, isTarget, same⟩ := isOperation
        obtain ⟨targetValid, few, tagsValid, unique⟩ := isValid
        exact ⟨closed, typed, ⟨_, isTarget, targetValid⟩, _, same, few, tagsValid, unique⟩
    | _ => simp [operationType] at kind

theorem valid_typed {required : List Text} {properties : List (Text × Schema α)}
    {literal : Text} (all : properties.map Prod.fst = required)
    (found : (ascii "type", Schema.const literal) ∈ properties)
    (isValid : valid integral (.object required properties) value = true) :
    value.member (ascii "type") = .string literal :=
  valid_const.mp (((valid_object all).mp isValid).2 _ found)

/-- The types of the alternatives keep them apart. -/
theorem operations_exclusive :
    ([create, transform largest, delete, reparent, tagsSet] : List (Schema α)).Pairwise
      fun left right =>
        ¬ (valid integral left value = true ∧ valid integral right value = true) := by
  have apart {left right : Schema α} {leftType rightType : Text}
      (leftTyped : valid integral left value = true →
        value.member (ascii "type") = .string leftType)
      (rightTyped : valid integral right value = true →
        value.member (ascii "type") = .string rightType)
      (different : leftType ≠ rightType) :
      ¬ (valid integral left value = true ∧ valid integral right value = true) := by
    intro both
    have same := (leftTyped both.1).symm.trans (rightTyped both.2)
    exact different (Json.string.inj same)
  have created : valid integral create value = true → _ :=
    valid_typed rfl List.mem_cons_self
  have transformed : valid integral (transform largest) value = true → _ :=
    valid_typed rfl List.mem_cons_self
  have deleted : valid integral delete value = true → _ :=
    valid_typed rfl List.mem_cons_self
  have reparented : valid integral reparent value = true → _ :=
    valid_typed rfl List.mem_cons_self
  have tagged : valid integral tagsSet value = true → _ :=
    valid_typed rfl List.mem_cons_self
  simp only [List.pairwise_cons, List.forall_mem_cons, List.not_mem_nil, false_imp_iff,
    implies_true, and_true, List.Pairwise.nil]
  exact ⟨⟨apart created transformed (by decide), apart created deleted (by decide),
      apart created reparented (by decide), apart created tagged (by decide)⟩,
    ⟨apart transformed deleted (by decide), apart transformed reparented (by decide),
      apart transformed tagged (by decide)⟩,
    ⟨apart deleted reparented (by decide), apart deleted tagged (by decide)⟩,
    apart reparented tagged (by decide)⟩

theorem operation_accepts (widest : Widest largest) (finite : value.FiniteNumbers) :
    Accepts integral (.oneOf [create, transform largest, delete, reparent, tagsSet]) value ↔
      ∃ operation : Operation α, IsOperation value operation ∧ ValidOperation operation := by
  rw [accepts_oneOf operations_exclusive]
  simp only [List.exists_mem_cons_iff, List.not_mem_nil, false_and, exists_false, or_false]
  rw [create_accepts, transform_accepts widest finite, delete_accepts,
    reparent_accepts, tagsSet_accepts]
  constructor
  · intro either
    rcases either with found | found | found | found | found <;>
    · obtain ⟨operation, _, both⟩ := found
      exact ⟨operation, both⟩
  · intro shape
    obtain ⟨operation, both⟩ := shape
    cases operation with
    | entityCreate => exact Or.inl ⟨_, rfl, both⟩
    | transformSet => exact Or.inr (Or.inl ⟨_, rfl, both⟩)
    | entityDelete => exact Or.inr (Or.inr (Or.inl ⟨_, rfl, both⟩))
    | entityReparent => exact Or.inr (Or.inr (Or.inr (Or.inl ⟨_, rfl, both⟩)))
    | entityTagsSet => exact Or.inr (Or.inr (Or.inr (Or.inr ⟨_, rfl, both⟩)))

theorem operations_accept (widest : Widest largest) (finite : value.FiniteNumbers) :
    Accepts integral (operations largest) value ↔
      ∃ (items : List (Json α)) (operations : List (Operation α)), value = .array items ∧
        1 ≤ items.length ∧ items.length ≤ 256 ∧
        List.Forall₂ IsOperation items operations ∧
        ∀ operation ∈ operations, ValidOperation operation := by
  rw [operations, accepts_array]
  constructor
  · intro accepted
    obtain ⟨items, rfl, low, high, plain, each⟩ := accepted
    have itemsFinite : Json.FiniteItems items := finite
    clear finite
    refine ⟨items, ?_⟩
    have read : ∃ operations : List (Operation α), List.Forall₂ IsOperation items operations ∧
        ∀ operation ∈ operations, ValidOperation operation := by
      clear low high plain
      induction items with
      | nil => exact ⟨[], List.Forall₂.nil, by simp⟩
      | cons item rest inductionHypothesis =>
          obtain ⟨operation, isOperation, isValid⟩ :=
            (operation_accepts widest itemsFinite.1).mp (each item List.mem_cons_self)
          obtain ⟨operations, others, valids⟩ := inductionHypothesis
            (fun other found => each other (List.mem_cons_of_mem _ found)) itemsFinite.2
          exact ⟨operation :: operations, List.Forall₂.cons isOperation others,
            List.forall_mem_cons.mpr ⟨isValid, valids⟩⟩
    obtain ⟨operations, each, valids⟩ := read
    exact ⟨operations, rfl, low, high, each, valids⟩
  · intro shape
    obtain ⟨items, operations, rfl, low, high, each, valids⟩ := shape
    refine ⟨items, rfl, low, high, by simp, ?_⟩
    have itemsFinite : Json.FiniteItems items := finite
    clear finite low high
    induction each with
    | nil => simp
    | cons isOperation _ inductionHypothesis =>
        obtain ⟨isValid, others⟩ := List.forall_mem_cons.mp valids
        exact List.forall_mem_cons.mpr
          ⟨(operation_accepts widest itemsFinite.1).mpr ⟨_, isOperation, isValid⟩,
            inductionHypothesis others itemsFinite.2⟩

theorem small_integer {token : UInt64} {maximum : UInt64} :
    (1 ≤ (token.toNat : Int) ∧ (token.toNat : Int) ≤ maximum.toNat) ↔
      token ≠ 0 ∧ token ≤ maximum := by
  rw [UInt64.le_iff_toNat_le, ← UInt64.toNat_inj.ne, UInt64.toNat_zero]
  omega

/-- The validator accepts exactly the envelopes of the published schema whose integers
are unsigned tokens and whose operations fit their budget. -/
theorem convert_accepts_schema (integral : α → Option Int) (widest : Widest largest)
    (value : Json α) (finite : value.FiniteNumbers) :
    (∃ typed, convert value = .ok typed) ↔
      valid integral (envelope largest) value = true ∧
        tokens integral (envelope largest) value = true ∧ withinBudget value = true := by
  rw [← and_assoc]
  change _ ↔ Accepts integral (envelope largest) value ∧ _
  simp only [convert_eq_ok, envelope, accepts_object, List.map_cons, List.map_nil,
    List.forall_mem_cons, List.not_mem_nil, false_imp_iff, implies_true, and_true,
    accepts_const, identifier, identifier_accepts, uuid_accepts, uint64_accepts, idempotency,
    applyAt, budget, operations_accept widest (finite.member _), accepts_integer]
  constructor
  · intro converted
    obtain ⟨typed, ⟨closed, shape, items, member, each⟩, isValid⟩ := converted
    have header := isValid.header
    have lengths := each.length_eq
    have nonempty := List.length_pos_iff.mpr isValid.nonempty
    have within := isValid.withinBudget
    have few := isValid.length_le
    unfold maxOperations at few
    have expiresInteger : 1 ≤ (typed.applyAt.expiresAfterTicks.toNat : Int) ∧
        (typed.applyAt.expiresAfterTicks.toNat : Int) ≤ (4294967295 : UInt64).toNat :=
      small_integer.mpr header.expires
    refine ⟨⟨closed, header.protocolVersion ▸ shape.protocolVersion,
      ⟨_, shape.worldId, header.worldId⟩, ⟨_, shape.transactionId, header.transactionId⟩,
      ⟨shape.idempotency, ⟨_, shape.epoch, header.epoch⟩, _, shape.sequence⟩,
      ⟨_, shape.expectedWorldRevision⟩,
      ⟨shape.applyAt, header.mode ▸ shape.mode, _, shape.expires,
        expiresInteger⟩,
      ⟨shape.budget, ⟨_, shape.maximum, ?_⟩, _, shape.blob⟩,
      items, _, member, by omega, by omega, each, isValid.operations⟩, ?_⟩
    · obtain ⟨positive, small⟩ := header.budget
      rw [← UInt64.toNat_inj.ne, UInt64.toNat_zero] at positive
      unfold maxOperations at small
      omega
    · simp only [withinBudget, member, shape.maximum, decide_eq_true_eq]
      exact lengths ▸ within
  · intro both
    obtain ⟨⟨closed, version, ⟨world, isWorld, worldValid⟩, ⟨transaction, isTransaction,
      transactionValid⟩, ⟨idempotency, ⟨epoch, isEpoch, epochValid⟩, sequence,
      isSequence⟩, ⟨revision, isRevision⟩, ⟨applyAt, mode, expires, isExpires,
      expiresValid⟩, ⟨budget, ⟨maximum, isMaximum, maximumValid⟩, blob, isBlob⟩, items,
      operations, member, low, high, each, valids⟩, within⟩ := both
    simp only [withinBudget, member, isMaximum, decide_eq_true_eq] at within
    have lengths := each.length_eq
    refine ⟨⟨ascii "0.1", world, transaction, ⟨epoch, sequence⟩, revision,
      ⟨ascii "next_tick", expires⟩, ⟨maximum, blob⟩, operations⟩,
      ⟨closed, ⟨version, isWorld, isTransaction, idempotency, isEpoch, isSequence,
        isRevision, applyAt, mode, isExpires, budget, isMaximum, isBlob⟩, items, member,
        each⟩,
      ⟨rfl, worldValid, transactionValid, epochValid, rfl,
        small_integer.mp expiresValid, ?_⟩, ?_, lengths ▸ within, valids⟩
    · refine ⟨?_, ?_⟩
      · show maximum ≠ 0
        rw [← UInt64.toNat_inj.ne, UInt64.toNat_zero]
        omega
      · unfold maxOperations
        simp only
        omega
    · intro empty
      rw [show operations = [] from empty] at lengths
      simp only [List.length_nil] at lengths
      omega

end Agreement

theorem widest_million : Widest (Halves.saturate 1000000) := by
  intro number _
  have bounds := number.bounded
  have low : (-Halves.saturate 1000000 : Halves).halves = -1000000 := by decide
  have high : (Halves.saturate 1000000).halves = 1000000 := by decide
  refine ⟨?_, ?_⟩
  · show decide (number.halves < (-Halves.saturate 1000000 : Halves).halves) = false
    rw [low]
    exact decide_eq_false (by omega)
  · show decide ((Halves.saturate 1000000).halves < number.halves) = false
    rw [high]
    exact decide_eq_false (by omega)

/-- The create and detachment of the codec's sample are valid under the schema. -/
theorem convert_accepts_schema_move :
    valid (fun _ => none) (envelope (Halves.saturate 1000000))
        (envelopeValue sampleMove) = true ∧
      tokens (fun _ => none) (envelope (Halves.saturate 1000000))
        (envelopeValue sampleMove) = true ∧
      withinBudget (envelopeValue sampleMove) = true := by
  have finite : (envelopeValue sampleMove).FiniteNumbers := by
    simp [envelopeValue, envelopeJson, sampleMove, operationValue, targetJson,
      Json.FiniteNumbers, Json.FiniteEntries, Json.FiniteItems, Scalar.isFinite]
  have converted : (convert (envelopeValue sampleMove)).isOk = true := by decide +kernel
  refine (convert_accepts_schema (fun _ => none) widest_million _ finite).mp ?_
  cases read : convert (envelopeValue sampleMove) with
  | error errors => simp [read, Except.isOk, Except.toBool] at converted
  | ok typed => exact ⟨typed, rfl⟩

end Omniweft.ProtocolSchema
