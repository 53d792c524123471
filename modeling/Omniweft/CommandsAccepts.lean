import Omniweft.CommandsRoundTrip
import Omniweft.JsonText

/-!
# What the validator accepts

Every reader on an arbitrary value: the values it accepts and what it makes of them.
An envelope that was read is a valid one, so it can be written again.
-/

namespace Omniweft.Commands

open Omniweft.Outcome
open Json (Closed numeral)

variable {α : Type}

theorem identifier_eq_ok {value : Json α} {path result : Text} {maximum : Nat} :
    identifier value path maximum = .ok result ↔
      value = .string result ∧ validIdentifier maximum result = true := by
  cases value with
  | string text =>
      rw [identifier_string, Json.string.injEq]
      constructor
      · intro both
        exact ⟨both.2, both.2 ▸ both.1⟩
      · intro both
        exact ⟨both.1 ▸ both.2, both.1⟩
  | _ => simp [identifier, reject]

theorem uuid_eq_ok {value : Json α} {path result : Text} :
    uuid value path = .ok result ↔ value = .string result ∧ validUuid result = true := by
  cases value with
  | string text =>
      rw [uuid_string, Json.string.injEq]
      constructor
      · intro both
        exact ⟨both.2, both.2 ▸ both.1⟩
      · intro both
        exact ⟨both.1 ▸ both.2, both.1⟩
  | _ => simp [uuid, reject]

theorem unsignedInteger_eq_ok {value : Json α} {path : Text} {result : UInt64} :
    unsignedInteger value path = .ok result ↔ value = .unsigned result := by
  cases value <;> simp [unsignedInteger, reject]

theorem isLiteral_eq_true {value : Json α} {literal : String} :
    isLiteral value literal = true ↔ value = .string (ascii literal) := by
  cases value <;> simp [isLiteral]

theorem fields_eq_ok {value : Json α} {path : Text} {names : List Text} {result : Unit} :
    fields value path names = .ok result ↔ Closed names value := by
  cases value with
  | object entries =>
      simp only [fields, bind_eq_ok, forM_eq_ok, rejectIf_eq_ok, Bool.not_eq_false',
        List.contains_eq_mem, decide_eq_true_eq, exists_const, Closed, Json.object.injEq,
        exists_eq_left']
  | _ => simp [fields, reject, Closed]

section Numbers

variable [Scalar α]

theorem component_eq_ok {value : Json α} {path : Text} {result : α} :
    component value path = .ok result ↔
      numeral value = some result ∧ Scalar.isFinite result = true := by
  have finite (number : α) :
      (rejectIf (!Scalar.isFinite number)
          (validationError "NONFINITE_VALUE" path "Numbers must be finite.") >>=
        fun _ => (pure number : Except ValidationError α)) = .ok result ↔
        some number = some result ∧ Scalar.isFinite result = true := by
    rw [bind_eq_ok, Option.some.injEq]
    constructor
    · intro passed
      obtain ⟨_, kept, same⟩ := passed
      rw [pure_eq_ok] at same
      rw [rejectIf_eq_ok, Bool.not_eq_false'] at kept
      exact ⟨same, same ▸ kept⟩
    · intro both
      obtain ⟨rfl, kept⟩ := both
      exact ⟨(), rejectIf_eq_ok.mpr (by simp [kept]), rfl⟩
  cases value with
  | unsigned token => exact finite _
  | integer token => exact finite _
  | float token => exact finite token
  | _ =>
      have refused {message : String} :
          ((reject "INVALID_SCHEMA" path message : Except ValidationError α) >>=
            fun number => do
              rejectIf (!Scalar.isFinite number)
                (validationError "NONFINITE_VALUE" path "Numbers must be finite.")
              pure number) = .ok result ↔ False := by
        simp [reject, bind, Except.bind]
      simp only [component, numeral]
      exact refused.trans (by simp)

theorem vector3_eq_ok {value : Json α} {path : Text} {result : Vec3 α} :
    vector3 value path = .ok result ↔
      ∃ first second third, value = .array [first, second, third] ∧
        numeral first = some result.x ∧ numeral second = some result.y ∧
        numeral third = some result.z ∧ FiniteVec3 result := by
  unfold vector3
  split
  · rename_i first second third
    simp only [bind_eq_ok, component_eq_ok, pure_eq_ok]
    constructor
    · intro read
      obtain ⟨x, ⟨xRead, xFinite⟩, y, ⟨yRead, yFinite⟩, z, ⟨zRead, zFinite⟩, rfl⟩ := read
      exact ⟨first, second, third, rfl, xRead, yRead, zRead, xFinite, yFinite, zFinite⟩
    · intro shape
      obtain ⟨_, _, _, same, xRead, yRead, zRead, xFinite, yFinite, zFinite⟩ := shape
      simp only [Json.array.injEq, List.cons.injEq, and_true] at same
      obtain ⟨rfl, rfl, rfl⟩ := same
      exact ⟨_, ⟨xRead, xFinite⟩, _, ⟨yRead, yFinite⟩, _, ⟨zRead, zFinite⟩, rfl⟩
  · rename_i other
    simp only [reject, reduceCtorEq, false_iff]
    intro shape
    obtain ⟨first, second, third, same, _⟩ := shape
    exact other first second third same

theorem vector4_eq_ok {value : Json α} {path : Text} {result : Quat α} :
    vector4 value path = .ok result ↔
      ∃ first second third fourth, value = .array [first, second, third, fourth] ∧
        numeral first = some result.x ∧ numeral second = some result.y ∧
        numeral third = some result.z ∧ numeral fourth = some result.w ∧
        FiniteQuat result := by
  unfold vector4
  split
  · rename_i first second third fourth
    simp only [bind_eq_ok, component_eq_ok, pure_eq_ok]
    constructor
    · intro read
      obtain ⟨x, ⟨xRead, xFinite⟩, y, ⟨yRead, yFinite⟩, z, ⟨zRead, zFinite⟩, w,
        ⟨wRead, wFinite⟩, rfl⟩ := read
      exact ⟨first, second, third, fourth, rfl, xRead, yRead, zRead, wRead, xFinite,
        yFinite, zFinite, wFinite⟩
    · intro shape
      obtain ⟨_, _, _, _, same, xRead, yRead, zRead, wRead, xFinite, yFinite, zFinite,
        wFinite⟩ := shape
      simp only [Json.array.injEq, List.cons.injEq, and_true] at same
      obtain ⟨rfl, rfl, rfl, rfl⟩ := same
      exact ⟨_, ⟨xRead, xFinite⟩, _, ⟨yRead, yFinite⟩, _, ⟨zRead, zFinite⟩, _,
        ⟨wRead, wFinite⟩, rfl⟩
  · rename_i other
    simp only [reject, reduceCtorEq, false_iff]
    intro shape
    obtain ⟨first, second, third, fourth, same, _⟩ := shape
    exact other first second third fourth same

end Numbers

/-- The object of a target, member by member. -/
def IsTarget (value : Json α) : Target → Prop
  | .temporary reference =>
      Closed [ascii "temporary_id"] value ∧
        value.member (ascii "temporary_id") = .string reference.temporaryId
  | .entity reference =>
      Closed [ascii "world_id", ascii "entity_uuid", ascii "generation"] value ∧
        value.member (ascii "world_id") = .string reference.worldId ∧
        value.member (ascii "entity_uuid") = .string reference.entityUuid ∧
        value.member (ascii "generation") = .unsigned reference.generation

theorem targetValue_eq_ok {value : Json α} {path : Text} {target : Target} :
    targetValue value path = .ok target ↔ IsTarget value target ∧ ValidTarget target := by
  unfold targetValue
  by_cases temporary : value.contains (ascii "temporary_id")
  · rw [if_pos temporary]
    simp only [bind_eq_ok, fields_eq_ok, identifier_eq_ok, pure_eq_ok, exists_const]
    constructor
    · intro read
      obtain ⟨closed, name, ⟨same, valid⟩, rfl⟩ := read
      exact ⟨⟨closed, same⟩, valid⟩
    · intro shape
      cases target with
      | temporary reference =>
          exact ⟨shape.1.1, reference.temporaryId, ⟨shape.1.2, shape.2⟩, rfl⟩
      | entity reference =>
          have named := (shape.1.1.contains _).mp temporary
          exact absurd named (by decide)
  · rw [if_neg temporary]
    simp only [bind_eq_ok, fields_eq_ok, identifier_eq_ok, uuid_eq_ok,
      unsignedInteger_eq_ok, pure_eq_ok, exists_const]
    constructor
    · intro read
      obtain ⟨closed, world, ⟨worldSame, worldValid⟩, uuid, ⟨uuidSame, uuidValid⟩,
        generation, generationSame, rfl⟩ := read
      exact ⟨⟨closed, worldSame, uuidSame, generationSame⟩, worldValid, uuidValid⟩
    · intro shape
      cases target with
      | temporary reference =>
          exact absurd ((shape.1.1.contains _).mpr (by simp)) temporary
      | entity reference =>
          obtain ⟨⟨closed, worldSame, uuidSame, generationSame⟩, worldValid, uuidValid⟩ :=
            shape
          exact ⟨closed, _, ⟨worldSame, worldValid⟩, _, ⟨uuidSame, uuidValid⟩, _,
            generationSame, rfl⟩

theorem convertTags_eq_ok {path : Text} {labels : List (Json α)} {tags result : List Text}
    (unique : tags.Nodup) :
    convertTags path labels tags = .ok result ↔
      ∃ texts, labels = texts.map Json.string ∧
        (∀ tag ∈ texts, validIdentifier 32 tag = true) ∧ (tags ++ texts).Nodup ∧
        tags ++ texts = result := by
  constructor
  · intro read
    have strings : ∃ texts : List Text, labels = texts.map Json.string := by
      induction labels generalizing tags with
      | nil => exact ⟨[], rfl⟩
      | cons label rest inductionHypothesis =>
          simp only [convertTags, bind_eq_ok, identifier_eq_ok, rejectIf_eq_ok,
            List.contains_eq_mem, decide_eq_false_iff_not] at read
          obtain ⟨tag, ⟨rfl, _⟩, _, absent, later⟩ := read
          have grown : (tags ++ [tag]).Nodup :=
            List.nodup_append_comm.mp (List.nodup_cons.mpr ⟨absent, unique⟩)
          obtain ⟨texts, rfl⟩ := inductionHypothesis grown later
          exact ⟨tag :: texts, rfl⟩
    obtain ⟨texts, rfl⟩ := strings
    exact ⟨texts, rfl, (convertTags_strings unique).mp read⟩
  · intro shape
    obtain ⟨texts, rfl, kept⟩ := shape
    exact (convertTags_strings unique).mpr kept

section Operations

variable [Scalar α]

/-- An array of numbers, each read as a double. -/
def IsVector (value : Json α) (numbers : List α) : Prop :=
  ∃ items, value = .array items ∧ items.map numeral = numbers.map some

theorem vector3_shape {value : Json α} {path : Text} {result : Vec3 α} :
    vector3 value path = .ok result ↔
      IsVector value result.toList ∧ FiniteVec3 result := by
  rw [vector3_eq_ok]
  constructor
  · intro read
    obtain ⟨first, second, third, same, x, y, z, finite⟩ := read
    exact ⟨⟨_, same, by simp [Vec3.toList, x, y, z]⟩, finite⟩
  · intro shape
    obtain ⟨⟨items, same, numbers⟩, finite⟩ := shape
    simp only [Vec3.toList, List.map_cons, List.map_nil, List.map_eq_cons_iff,
      List.map_eq_nil_iff] at numbers
    obtain ⟨first, _, rfl, x, second, _, rfl, y, third, _, rfl, z, rfl⟩ := numbers
    exact ⟨first, second, third, same, x, y, z, finite⟩

theorem vector4_shape {value : Json α} {path : Text} {result : Quat α} :
    vector4 value path = .ok result ↔
      IsVector value result.toList ∧ FiniteQuat result := by
  rw [vector4_eq_ok]
  constructor
  · intro read
    obtain ⟨first, second, third, fourth, same, x, y, z, w, finite⟩ := read
    exact ⟨⟨_, same, by simp [Quat.toList, x, y, z, w]⟩, finite⟩
  · intro shape
    obtain ⟨⟨items, same, numbers⟩, finite⟩ := shape
    simp only [Quat.toList, List.map_cons, List.map_nil, List.map_eq_cons_iff,
      List.map_eq_nil_iff] at numbers
    obtain ⟨first, _, rfl, x, second, _, rfl, y, third, _, rfl, z, fourth, _, rfl, w,
      rfl⟩ := numbers
    exact ⟨first, second, third, fourth, same, x, y, z, w, finite⟩

/-- A parent reference or null. -/
def IsParent (value : Json α) : Option Target → Prop
  | none => value = .null
  | some parent => IsTarget value parent

/-- The object of an operation, member by member. -/
def IsOperation (value : Json α) : Operation α → Prop
  | .entityCreate operation =>
      Closed [ascii "type", ascii "temporary_id", ascii "prefab"] value ∧
        value.member (ascii "type") = .string (ascii "entity.create") ∧
        value.member (ascii "temporary_id") = .string operation.temporaryId ∧
        value.member (ascii "prefab") = .string operation.prefabId
  | .transformSet operation =>
      Closed
          [ascii "type", ascii "target", ascii "position_m", ascii "rotation_xyzw",
            ascii "scale"] value ∧
        value.member (ascii "type") = .string (ascii "transform.set") ∧
        IsTarget (value.member (ascii "target")) operation.target ∧
        IsVector (value.member (ascii "position_m")) operation.positionM.toList ∧
        IsVector (value.member (ascii "rotation_xyzw")) operation.rotationXyzw.toList ∧
        IsVector (value.member (ascii "scale")) operation.scale.toList
  | .entityDelete operation =>
      Closed [ascii "type", ascii "target", ascii "child_policy"] value ∧
        value.member (ascii "type") = .string (ascii "entity.delete") ∧
        IsTarget (value.member (ascii "target")) operation.target ∧
        value.member (ascii "child_policy") = .string operation.childPolicy
  | .entityReparent operation =>
      Closed [ascii "type", ascii "target", ascii "parent", ascii "mode"] value ∧
        value.member (ascii "type") = .string (ascii "entity.reparent") ∧
        IsTarget (value.member (ascii "target")) operation.target ∧
        IsParent (value.member (ascii "parent")) operation.parent ∧
        value.member (ascii "mode") = .string operation.mode
  | .entityTagsSet operation =>
      Closed [ascii "type", ascii "target", ascii "tags"] value ∧
        value.member (ascii "type") = .string (ascii "entity.tags.set") ∧
        IsTarget (value.member (ascii "target")) operation.target ∧
        value.member (ascii "tags") = .array (operation.tags.map Json.string)

theorem convertCreate_eq_ok {value : Json α} {path : Text} {operation : EntityCreate}
    (typed : value.member (ascii "type") = .string (ascii "entity.create")) :
    convertCreate value path = .ok operation ↔
      IsOperation value (.entityCreate operation) ∧
        ValidOperation (.entityCreate operation : Operation α) := by
  simp only [convertCreate, bind_eq_ok, fields_eq_ok, identifier_eq_ok, pure_eq_ok,
    exists_const, IsOperation, ValidOperation]
  constructor
  · intro read
    obtain ⟨closed, name, ⟨nameSame, nameValid⟩, prefab, ⟨prefabSame, prefabValid⟩,
      rfl⟩ := read
    exact ⟨⟨closed, typed, nameSame, prefabSame⟩, nameValid, prefabValid⟩
  · intro shape
    obtain ⟨⟨closed, _, nameSame, prefabSame⟩, nameValid, prefabValid⟩ := shape
    exact ⟨closed, _, ⟨nameSame, nameValid⟩, _, ⟨prefabSame, prefabValid⟩, rfl⟩

theorem convertTransform_eq_ok {value : Json α} {path : Text} {operation : TransformSet α}
    (typed : value.member (ascii "type") = .string (ascii "transform.set")) :
    convertTransform value path = .ok operation ↔
      IsOperation value (.transformSet operation) ∧
        ValidOperation (.transformSet operation) := by
  simp only [convertTransform, bind_eq_ok, fields_eq_ok, targetValue_eq_ok, vector3_shape,
    vector4_shape, pure_eq_ok, exists_const, IsOperation, ValidOperation]
  constructor
  · intro read
    obtain ⟨closed, target, ⟨isTarget, valid⟩, position, ⟨isPosition, positionFinite⟩,
      rotation, ⟨isRotation, rotationFinite⟩, scale, ⟨isScale, scaleFinite⟩, rfl⟩ := read
    exact ⟨⟨closed, typed, isTarget, isPosition, isRotation, isScale⟩, valid,
      positionFinite, rotationFinite, scaleFinite⟩
  · intro shape
    obtain ⟨⟨closed, _, isTarget, isPosition, isRotation, isScale⟩, valid,
      positionFinite, rotationFinite, scaleFinite⟩ := shape
    exact ⟨closed, _, ⟨isTarget, valid⟩, _, ⟨isPosition, positionFinite⟩, _,
      ⟨isRotation, rotationFinite⟩, _, ⟨isScale, scaleFinite⟩, rfl⟩

theorem convertTagsSet_eq_ok {value : Json α} {path : Text} {operation : EntityTagsSet}
    (typed : value.member (ascii "type") = .string (ascii "entity.tags.set")) :
    convertTagsSet value path = .ok operation ↔
      IsOperation value (.entityTagsSet operation) ∧
        ValidOperation (.entityTagsSet operation : Operation α) := by
  simp only [convertTagsSet, bind_eq_ok, fields_eq_ok, exists_const, IsOperation,
    ValidOperation]
  constructor
  · intro read
    obtain ⟨closed, rest⟩ := read
    split at rest
    · rename_i labels member
      simp only [bind_eq_ok, rejectIf_eq_ok, decide_eq_false_iff_not, Nat.not_lt,
        targetValue_eq_ok, convertTags_eq_ok List.nodup_nil, pure_eq_ok, List.nil_append,
        exists_const] at rest
      obtain ⟨few, target, ⟨isTarget, valid⟩, _, ⟨texts, rfl, tagsValid, unique, rfl⟩,
        rfl⟩ := rest
      rw [List.length_map] at few
      exact ⟨⟨closed, typed, isTarget, member⟩, valid, few, tagsValid, unique⟩
    · simp [reject] at rest
  · intro shape
    obtain ⟨⟨closed, _, isTarget, member⟩, valid, few, tagsValid, unique⟩ := shape
    refine ⟨closed, ?_⟩
    simp only [member, bind_eq_ok, rejectIf_eq_ok, decide_eq_false_iff_not, Nat.not_lt,
      targetValue_eq_ok, convertTags_eq_ok List.nodup_nil, pure_eq_ok, List.nil_append,
      exists_const, List.length_map]
    exact ⟨few, _, ⟨isTarget, valid⟩, _, ⟨_, rfl, tagsValid, unique, rfl⟩, rfl⟩

theorem convertReparent_eq_ok {value : Json α} {path : Text} {operation : EntityReparent}
    (typed : value.member (ascii "type") = .string (ascii "entity.reparent")) :
    convertReparent value path = .ok operation ↔
      IsOperation value (.entityReparent operation) ∧
        ValidOperation (.entityReparent operation : Operation α) := by
  simp only [convertReparent, bind_eq_ok, fields_eq_ok, exists_const, IsOperation,
    ValidOperation]
  constructor
  · intro read
    obtain ⟨closed, rest⟩ := read
    split at rest
    · rename_i mode member
      simp only [bind_eq_ok, rejectIf_eq_ok, targetValue_eq_ok, exists_const] at rest
      obtain ⟨known, target, ⟨isTarget, valid⟩, later⟩ := rest
      have modes : mode = ascii "preserve_world" ∨ mode = ascii "preserve_local" := by
        by_cases world : mode = ascii "preserve_world"
        · exact Or.inl world
        · exact Or.inr (by simpa [world] using known)
      split at later
      · rename_i orphan
        rw [pure_eq_ok] at later
        subst later
        exact ⟨⟨closed, typed, isTarget, orphan, member⟩, valid, by simp, modes⟩
      · simp only [bind_eq_ok, targetValue_eq_ok, pure_eq_ok] at later
        obtain ⟨parent, ⟨isParent, parentValid⟩, rfl⟩ := later
        exact ⟨⟨closed, typed, isTarget, isParent, member⟩, valid, by simpa using parentValid,
          modes⟩
    · simp [reject] at rest
  · intro shape
    obtain ⟨⟨closed, _, isTarget, isParent, member⟩, valid, parentValid, modes⟩ := shape
    refine ⟨closed, ?_⟩
    simp only [member, bind_eq_ok, rejectIf_eq_ok, targetValue_eq_ok, exists_const]
    refine ⟨by rcases modes with same | same <;> simp [same], _, ⟨isTarget, valid⟩, ?_⟩
    obtain ⟨target, parent, mode⟩ := operation
    cases parent with
    | none =>
        have orphan : value.member (ascii "parent") = .null := isParent
        rw [orphan]
        rfl
    | some parent =>
        have isTarget : IsTarget (value.member (ascii "parent")) parent := isParent
        have read : targetValue (value.member (ascii "parent"))
            (child path (ascii "parent")) = .ok parent :=
          targetValue_eq_ok.mpr ⟨isTarget, parentValid parent rfl⟩
        split
        · rename_i orphan
          rw [orphan] at read
          simp [targetValue, Json.contains, fields, reject, bind, Except.bind] at read
        · rw [read]
          rfl

theorem convertDelete_eq_ok {value : Json α} {path : Text} {operation : EntityDelete}
    (typed : value.member (ascii "type") = .string (ascii "entity.delete")) :
    convertDelete value path = .ok operation ↔
      IsOperation value (.entityDelete operation) ∧
        ValidOperation (.entityDelete operation : Operation α) := by
  simp only [convertDelete, bind_eq_ok, fields_eq_ok, rejectIf_eq_ok, Bool.not_eq_false',
    isLiteral_eq_true, targetValue_eq_ok, pure_eq_ok, exists_const, IsOperation,
    ValidOperation]
  constructor
  · intro read
    obtain ⟨closed, policy, target, ⟨isTarget, valid⟩, rfl⟩ := read
    exact ⟨⟨closed, typed, isTarget, policy⟩, valid, rfl⟩
  · intro shape
    obtain ⟨⟨closed, _, isTarget, policy⟩, valid, same⟩ := shape
    obtain ⟨target, childPolicy⟩ := operation
    simp only at same
    subst same
    exact ⟨closed, policy, _, ⟨isTarget, valid⟩, rfl⟩

/-- The text that names the kind of an operation. -/
def operationType : Operation α → String
  | .entityCreate _ => "entity.create"
  | .transformSet _ => "transform.set"
  | .entityDelete _ => "entity.delete"
  | .entityReparent _ => "entity.reparent"
  | .entityTagsSet _ => "entity.tags.set"

theorem IsOperation.closed {value : Json α} {operation : Operation α}
    (shape : IsOperation value operation) : ∃ names, Closed names value := by
  cases operation <;> exact ⟨_, shape.1⟩

theorem IsOperation.typed {value : Json α} {operation : Operation α}
    (shape : IsOperation value operation) :
    value.member (ascii "type") = .string (ascii (operationType operation)) := by
  cases operation <;> exact shape.2.1

theorem convertOperation_eq_ok {value : Json α} {index : Nat} {operation : Operation α} :
    convertOperation value index = .ok operation ↔
      IsOperation value operation ∧ ValidOperation operation := by
  constructor
  · intro read
    unfold convertOperation at read
    dsimp only at read
    split at read
    · rename_i entries
      simp only [bind_eq_ok] at read
      obtain ⟨_, _, read⟩ := read
      split_ifs at read with create transform tags reparent delete
      · obtain ⟨operation, converted, rfl⟩ := map_eq_ok.mp read
        exact (convertCreate_eq_ok (isLiteral_eq_true.mp create)).mp converted
      · obtain ⟨operation, converted, rfl⟩ := map_eq_ok.mp read
        exact (convertTransform_eq_ok (isLiteral_eq_true.mp transform)).mp converted
      · obtain ⟨operation, converted, rfl⟩ := map_eq_ok.mp read
        exact (convertTagsSet_eq_ok (isLiteral_eq_true.mp tags)).mp converted
      · obtain ⟨operation, converted, rfl⟩ := map_eq_ok.mp read
        exact (convertReparent_eq_ok (isLiteral_eq_true.mp reparent)).mp converted
      · obtain ⟨operation, converted, rfl⟩ := map_eq_ok.mp read
        exact (convertDelete_eq_ok (isLiteral_eq_true.mp delete)).mp converted
      · simp [reject] at read
    · simp [reject] at read
  · intro both
    have typed := both.1.typed
    obtain ⟨names, entries, rfl, _, _⟩ := both.1.closed
    have named : isString ((Json.object entries).member (ascii "type")) = true := by
      rw [typed]
      rfl
    simp only [convertOperation, bind_eq_ok, rejectIf_eq_ok, named, Bool.not_true,
      true_and, exists_const]
    cases operation with
    | entityCreate create =>
        have typed : (Json.object entries).member (ascii "type") =
          .string (ascii "entity.create") := typed
        rw [if_pos (isLiteral_eq_true.mpr typed)]
        exact map_eq_ok.mpr ⟨create, (convertCreate_eq_ok typed).mpr both, rfl⟩
    | transformSet transform =>
        have typed : (Json.object entries).member (ascii "type") =
          .string (ascii "transform.set") := typed
        rw [if_neg (by rw [typed]; exact Bool.false_ne_true),
          if_pos (isLiteral_eq_true.mpr typed)]
        exact map_eq_ok.mpr ⟨transform, (convertTransform_eq_ok typed).mpr both, rfl⟩
    | entityTagsSet tags =>
        have typed : (Json.object entries).member (ascii "type") =
          .string (ascii "entity.tags.set") := typed
        rw [if_neg (by rw [typed]; exact Bool.false_ne_true),
          if_neg (by rw [typed]; exact Bool.false_ne_true),
          if_pos (isLiteral_eq_true.mpr typed)]
        exact map_eq_ok.mpr ⟨tags, (convertTagsSet_eq_ok typed).mpr both, rfl⟩
    | entityReparent reparent =>
        have typed : (Json.object entries).member (ascii "type") =
          .string (ascii "entity.reparent") := typed
        rw [if_neg (by rw [typed]; exact Bool.false_ne_true),
          if_neg (by rw [typed]; exact Bool.false_ne_true),
          if_neg (by rw [typed]; exact Bool.false_ne_true),
          if_pos (isLiteral_eq_true.mpr typed)]
        exact map_eq_ok.mpr ⟨reparent, (convertReparent_eq_ok typed).mpr both, rfl⟩
    | entityDelete delete =>
        have typed : (Json.object entries).member (ascii "type") =
          .string (ascii "entity.delete") := typed
        rw [if_neg (by rw [typed]; exact Bool.false_ne_true),
          if_neg (by rw [typed]; exact Bool.false_ne_true),
          if_neg (by rw [typed]; exact Bool.false_ne_true),
          if_neg (by rw [typed]; exact Bool.false_ne_true),
          if_pos (isLiteral_eq_true.mpr typed)]
        exact map_eq_ok.mpr ⟨delete, (convertDelete_eq_ok typed).mpr both, rfl⟩

theorem convertOperations_eq_ok {values : List (Json α)} {index : Nat}
    {operations : List (Operation α)} :
    convertOperations values index = .ok operations ↔
      List.Forall₂ (fun value operation => IsOperation value operation ∧
        ValidOperation operation) values operations := by
  induction values generalizing index operations with
  | nil => cases operations <;> simp [convertOperations]
  | cons value rest inductionHypothesis =>
      simp only [convertOperations, bind_eq_ok, convertOperation_eq_ok, inductionHypothesis,
        pure_eq_ok]
      constructor
      · intro read
        obtain ⟨operation, both, others, later, rfl⟩ := read
        exact List.Forall₂.cons both later
      · intro read
        cases read with
        | cons both later => exact ⟨_, both, _, later, rfl⟩

private theorem forall₂_right {β γ : Type} {related : β → γ → Prop} {left : List β}
    {right : List γ} (each : List.Forall₂ related left right) {item : γ}
    (found : item ∈ right) : ∃ other, related other item := by
  induction each with
  | nil => exact absurd found List.not_mem_nil
  | cons head _ inductionHypothesis =>
      rcases List.mem_cons.mp found with rfl | later
      · exact ⟨_, head⟩
      · exact inductionHypothesis later

private theorem forall₂_and {β γ : Type} {related : β → γ → Prop} {kept : γ → Prop}
    {left : List β} {right : List γ} (each : List.Forall₂ related left right)
    (all : ∀ item ∈ right, kept item) :
    List.Forall₂ (fun other item => related other item ∧ kept item) left right := by
  induction each with
  | nil => exact List.Forall₂.nil
  | cons head _ inductionHypothesis =>
      exact List.Forall₂.cons ⟨head, all _ List.mem_cons_self⟩
        (inductionHypothesis fun item found => all item (List.mem_cons_of_mem _ found))

/-- The header members of an envelope object. -/
structure IsHeader (value : Json α) (envelope : Envelope α) : Prop where
  protocolVersion :
    value.member (ascii "protocol_version") = .string envelope.protocolVersion
  worldId : value.member (ascii "world_id") = .string envelope.worldId
  transactionId : value.member (ascii "transaction_id") = .string envelope.transactionId
  idempotency :
    Closed [ascii "epoch", ascii "sequence"] (value.member (ascii "idempotency"))
  epoch : (value.member (ascii "idempotency")).member (ascii "epoch") =
    .string envelope.idempotency.epoch
  sequence : (value.member (ascii "idempotency")).member (ascii "sequence") =
    .unsigned envelope.idempotency.sequence
  expectedWorldRevision : value.member (ascii "expected_world_revision") =
    .unsigned envelope.expectedWorldRevision
  applyAt :
    Closed [ascii "mode", ascii "expires_after_ticks"] (value.member (ascii "apply_at"))
  mode : (value.member (ascii "apply_at")).member (ascii "mode") =
    .string envelope.applyAt.mode
  expires : (value.member (ascii "apply_at")).member (ascii "expires_after_ticks") =
    .unsigned envelope.applyAt.expiresAfterTicks
  budget :
    Closed [ascii "max_operations", ascii "max_blob_bytes"] (value.member (ascii "budget"))
  maximum : (value.member (ascii "budget")).member (ascii "max_operations") =
    .unsigned envelope.budget.maxOperations
  blob : (value.member (ascii "budget")).member (ascii "max_blob_bytes") =
    .unsigned envelope.budget.maxBlobBytes

omit [Scalar α] in
theorem convertHeader_reads {value : Json α} {header : List (Operation α) → Envelope α}
    (read : convertHeader value = .ok header) (operations : List (Operation α)) :
    (header operations).operations = operations ∧ IsHeader value (header operations) ∧
      ValidHeader (header operations) := by
  simp only [convertHeader, bind_eq_ok, rejectIf_eq_ok, Bool.not_eq_false',
    isLiteral_eq_true, identifier_eq_ok, uuid_eq_ok, fields_eq_ok, unsignedInteger_eq_ok,
    Bool.or_eq_false_iff, beq_eq_false_iff_ne, decide_eq_false_iff_not, pure_eq_ok,
    exists_const] at read
  obtain ⟨text, version, world, ⟨isWorld, worldValid⟩, transaction, ⟨isTransaction,
    transactionValid⟩, idempotency, epoch, ⟨isEpoch, epochValid⟩, sequence, isSequence,
    revision, isRevision, applyAt, mode, expires, isExpires, expiresValid, budget,
    maximum, isMaximum, maximumValid, blob, isBlob, rfl⟩ := read
  exact ⟨rfl, ⟨version, isWorld, isTransaction, idempotency, isEpoch, isSequence,
    isRevision, applyAt, mode, isExpires, budget, isMaximum, isBlob⟩, rfl, worldValid,
    transactionValid, epochValid, rfl, ⟨expiresValid.1, UInt64.not_lt.mp expiresValid.2⟩,
    maximumValid.1, Nat.not_lt.mp maximumValid.2⟩

omit [Scalar α] in
theorem convertHeader_of_valid {value : Json α} {envelope : Envelope α}
    (shape : IsHeader value envelope) (valid : ValidHeader envelope) :
    convertHeader value =
      .ok fun operations => { envelope with operations := operations } := by
  simp only [convertHeader, bind_eq_ok, rejectIf_eq_ok, Bool.not_eq_false',
    isLiteral_eq_true, identifier_eq_ok, uuid_eq_ok, fields_eq_ok, unsignedInteger_eq_ok,
    Bool.or_eq_false_iff, beq_eq_false_iff_ne, decide_eq_false_iff_not, pure_eq_ok,
    exists_const]
  have version := shape.protocolVersion
  have mode := shape.mode
  rw [valid.protocolVersion] at version
  rw [valid.mode] at mode
  refine ⟨by rw [version]; rfl, version, _, ⟨shape.worldId, valid.worldId⟩, _,
    ⟨shape.transactionId, valid.transactionId⟩, shape.idempotency, _,
    ⟨shape.epoch, valid.epoch⟩, _, shape.sequence, _, shape.expectedWorldRevision,
    shape.applyAt, mode, _, shape.expires,
    ⟨valid.expires.1, UInt64.not_lt.mpr valid.expires.2⟩, shape.budget, _,
    shape.maximum, ⟨valid.budget.1, Nat.not_lt.mpr valid.budget.2⟩, _, shape.blob, ?_⟩
  rw [← valid.protocolVersion, ← valid.mode]

/-- The object of an envelope, member by member. -/
structure IsEnvelope (value : Json α) (envelope : Envelope α) : Prop where
  closed : Closed
    [ascii "protocol_version", ascii "world_id", ascii "transaction_id",
      ascii "idempotency", ascii "expected_world_revision", ascii "apply_at",
      ascii "budget", ascii "operations"] value
  header : IsHeader value envelope
  operations : ∃ items, value.member (ascii "operations") = .array items ∧
    List.Forall₂ IsOperation items envelope.operations

/-- The validator accepts exactly the objects that spell a valid envelope. -/
theorem convert_eq_ok {value : Json α} {envelope : Envelope α} :
    convert value = .ok envelope ↔ IsEnvelope value envelope ∧ ValidEnvelope envelope := by
  constructor
  · intro read
    simp only [convert, bind_eq_ok, fields_eq_ok, exists_const] at read
    obtain ⟨closed, header, headed, later⟩ := read
    split at later
    · rename_i items member
      simp only [bind_eq_ok, rejectIf_eq_ok, Bool.or_eq_false_iff,
        decide_eq_false_iff_not, Nat.not_lt, convertOperations_eq_ok, pure_eq_ok,
        exists_const] at later
      obtain ⟨⟨⟨nonempty, _⟩, within⟩, operations, each, rfl⟩ := later
      obtain ⟨kept, shape, valid⟩ := convertHeader_reads headed operations
      have budget : (header operations).budget = (header []).budget := by
        have left := shape.maximum
        have right := (convertHeader_reads headed []).2.1.maximum
        have leftBlob := shape.blob
        have rightBlob := (convertHeader_reads headed []).2.1.blob
        rw [left, Json.unsigned.injEq] at right
        rw [leftBlob, Json.unsigned.injEq] at rightBlob
        exact congrArg₂ Budget.mk right rightBlob
      have lengths : items.length = operations.length := each.length_eq
      refine ⟨⟨closed, shape, items, member, ?_⟩, valid, ?_, ?_, ?_⟩
      · rw [kept]
        exact each.imp fun _ _ both => both.1
      · rw [kept]
        intro empty
        rw [empty] at lengths
        rw [List.length_eq_zero_iff.mp lengths] at nonempty
        exact absurd nonempty (by simp)
      · rw [kept, budget, ← lengths]
        exact within
      · rw [kept]
        intro operation found
        obtain ⟨_, _, kept⟩ := forall₂_right each found
        exact kept
    · simp [reject] at later
  · intro both
    obtain ⟨⟨closed, shape, items, member, each⟩, valid⟩ := both
    have lengths : items.length = envelope.operations.length := each.length_eq
    have nonempty : items ≠ [] := by
      intro empty
      rw [empty] at lengths
      exact valid.nonempty (List.length_eq_zero_iff.mp lengths.symm)
    simp only [convert, bind_eq_ok, fields_eq_ok, exists_const,
      convertHeader_of_valid shape valid.header, member, rejectIf_eq_ok,
      Bool.or_eq_false_iff, decide_eq_false_iff_not, Nat.not_lt, convertOperations_eq_ok,
      pure_eq_ok, Except.ok.injEq, exists_eq_left', List.isEmpty_eq_false_iff]
    refine ⟨closed, ⟨⟨nonempty, lengths ▸ valid.length_le⟩,
      lengths ▸ valid.withinBudget⟩, envelope.operations, ?_, rfl⟩
    exact forall₂_and each valid.operations

/-- An accepted envelope is a valid one. -/
theorem convert_valid {value : Json α} {envelope : Envelope α}
    (accepted : convert value = .ok envelope) : ValidEnvelope envelope :=
  (convert_eq_ok.mp accepted).2

theorem parse_valid {library : JsonLibrary α} {bytes : Text} {envelope : Envelope α}
    (parsed : parse library bytes = .ok envelope) : ValidEnvelope envelope := by
  simp only [parse, single_eq_ok, bind_eq_ok] at parsed
  obtain ⟨_, _, _, decoded⟩ := parsed
  split at decoded
  · obtain ⟨_, _, _, converted⟩ := decoded
    exact convert_valid converted
  · simp [reject] at decoded

/-- What was written reads back as it was, and what was read can be written. -/
theorem codec_round_trip {library : JsonLibrary α} (faithful : library.Faithful) :
    (∀ (envelope : Envelope α) bytes, serialize library envelope = .ok bytes →
        parse library bytes = .ok envelope) ∧
      ∀ bytes (envelope : Envelope α), parse library bytes = .ok envelope →
        ∃ written, serialize library envelope = .ok written ∧
          written.length ≤ maxEnvelopeBytes ∧ parse library written = .ok envelope := by
  refine ⟨fun envelope bytes serialized => (parse_serialize faithful serialized).1, ?_⟩
  intro bytes envelope parsed
  have valid := parse_valid parsed
  obtain ⟨written, serialized, short⟩ := serialize_valid faithful valid
  have few := valid.length_le
  refine ⟨written, serialized, ?_, (parse_serialize faithful serialized).1⟩
  unfold maxOperations at few
  unfold maxEnvelopeBytes
  omega

end Operations

section Sample

open JsonText

def sampleMove : Envelope Halves where
  protocolVersion := ascii "0.1"
  worldId := ascii "w"
  transactionId := ascii "00000000-0000-4000-8000-000000000001"
  idempotency := ⟨ascii "e", 1⟩
  expectedWorldRevision := 0
  applyAt := ⟨ascii "next_tick", 1⟩
  budget := ⟨2, 0⟩
  operations :=
    [.entityCreate ⟨ascii "a", ascii "builtin.cube"⟩,
      .entityReparent ⟨.temporary ⟨ascii "a"⟩, none, ascii "preserve_world"⟩]

/-- A create and a detachment, written and read. -/
theorem codec_round_trip_move :
    ∃ bytes, serialize library sampleMove = .ok bytes ∧
      parse library bytes = .ok sampleMove ∧
      ∃ written, serialize library sampleMove = .ok written ∧
        written.length ≤ maxEnvelopeBytes ∧ parse library written = .ok sampleMove := by
  have written : (serialize library sampleMove).isOk = true := by decide +kernel
  cases serialized : serialize library sampleMove with
  | error errors => simp [serialized, Except.isOk, Except.toBool] at written
  | ok bytes =>
      have parsed := (codec_round_trip library_faithful).1 sampleMove bytes serialized
      refine ⟨bytes, rfl, parsed, ?_⟩
      rw [← serialized]
      exact (codec_round_trip library_faithful).2 bytes sampleMove parsed

end Sample

end Omniweft.Commands
