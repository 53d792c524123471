import Omniweft.HostJson
import Omniweft.SdkRequests

/-!
# The answers as the SDK reads them

`Recovers` says that a reader of the SDK accepts the text of an answer and returns
given data. A snapshot, a receipt and a policy status that satisfy what the readers
check are recovered.
-/

namespace Omniweft.Sdk

open Omniweft.Outcome Python

variable {α : Type} [Scalar α]

open Json in
mutual

theorem walk_image :
    ∀ (value : Json α) (level : Nat),
      Portable value → level + depth value ≤ 32 → walk level value.image = true
  | .null, _, _, _ | .boolean _, _, _, _ | .integer _, _, _, _ | .unsigned _, _, _, _
  | .string _, _, _, _ => by simp [image, walk]
  | .float value, _, portable, _ => by
      simp only [Portable] at portable
      simpa [image, walk] using portable
  | .array items, level, portable, fits => by
      simp only [Portable] at portable
      simp only [depth] at fits
      simpa [image, walk] using walkItems_image items level portable (by omega)
  | .object entries, level, portable, fits => by
      simp only [Portable] at portable
      simp only [depth] at fits
      simpa [image, walk] using walkEntries_image entries level portable.2 (by omega)

theorem walkItems_image :
    ∀ (items : List (Json α)) (level : Nat),
      PortableItems items → level + 1 + depthItems items ≤ 32 →
      walkItems level (imageItems items) = true
  | [], _, _, _ => rfl
  | item :: rest, level, portable, fits => by
      simp only [PortableItems] at portable
      simp only [depthItems] at fits
      have below : level < 32 := by omega
      simp [imageItems, walkItems, below,
        walk_image item (level + 1) portable.1 (by omega),
        walkItems_image rest level portable.2 (by omega)]

theorem walkEntries_image :
    ∀ (entries : List (Text × Json α)) (level : Nat),
      PortableEntries entries → level + 1 + depthEntries entries ≤ 32 →
      walkEntries level (imageEntries entries) = true
  | [], _, _, _ => rfl
  | (_, value) :: rest, level, portable, fits => by
      simp only [PortableEntries] at portable
      simp only [depthEntries] at fits
      have below : level < 32 := by omega
      simp [imageEntries, walkEntries, below,
        walk_image value (level + 1) portable.2.1 (by omega),
        walkEntries_image rest level portable.2.2 (by omega)]

end

/-- `MAX_RESPONSE`. -/
def maxResponse : Nat := 4194304

/-- The SDK reads the text of an answer and finds the data in it. -/
def Recovers {β : Type} (python : Interpreter α) (library : JsonLibrary α) (answer : Json α)
    (read : Value α → Except Raised β) (data : β) : Prop :=
  ∃ bytes value,
    library.dump answer = some bytes ∧ decode python bytes maxResponse = .ok value ∧
      read value = .ok data

theorem recovers_image {β : Type} {python : Interpreter α} {library : JsonLibrary α}
    (codecs : Codecs python library) {answer : Json α} (sent : Control.Sendable 32 answer)
    (light : answer.weight ≤ maxResponse) {read : Value α → Except Raised β} {data : β}
    (reads : read answer.image = .ok data) : Recovers python library answer read data := by
  obtain ⟨bytes, written, short, loaded⟩ :=
    codecs.toSdk answer sent.portable sent.ordered sent.shallow
  have walked := walk_image answer 0 sent.portable (by have := sent.shallow; omega)
  have fits : ¬ maxResponse < bytes.length := by omega
  refine ⟨bytes, answer.image, written, ?_, reads⟩
  simp [decode, fits, loaded, walked]

/-- `_wrapper`: the frame around a snapshot or a receipt. -/
def wrapper (client : Client) (value : Value α) (name : String) :
    Except Raised (Entries α) := do
  let entries ← fields value ["protocol_version", "epoch", "next_sequence", name]
  rejectIf (!isLiteral (get entries "protocol_version") "0.1") .protocol
  let named ← epoch (get entries "epoch")
  rejectIf (named != client.info.epoch) .protocol
  let next ← integer (get entries "next_sequence") 1 uint64Max
  rejectIf (client.next.any fun held => decide (next < held.value)) .protocol
  pure entries

/-- What a wrapped answer is read for, by a client that is at `epoch`. -/
def wrapped {β : Type} (client : Client) (name : String)
    (read : Value α → Except Raised β) (value : Value α) : Except Raised β := do
  let entries ← wrapper client value name
  read (get entries name)

/-- The answer is one of the session and of the time of a client. -/
structure Addressed (client : Client) (epoch : Text) (nextSequence : UInt64) : Prop where
  epoch : client.info.epoch = epoch
  positive : nextSequence ≠ 0
  forward : ∀ held, client.next = some held → held.value ≤ nextSequence.toNat

omit [Scalar α] in
theorem integer_unsigned {number : UInt64} {minimum : Int}
    (least : minimum ≤ number.toNat) :
    integer ((Json.unsigned number : Json α).image) minimum uint64Max =
      .ok (number.toNat : Int) := by
  have most : (number.toNat : Int) ≤ uint64Max := by
    have small := number.toNat_lt
    unfold uint64Max
    omega
  exact integer_eq_ok.mpr ⟨by simp [Json.image], least, most⟩

omit [Scalar α] in
theorem wrapper_response {client : Client} {epoch : Text} {nextSequence : UInt64}
    (addressed : Addressed client epoch nextSequence) {name : String}
    (named : name = "receipt" ∨ name = "snapshot") (value : Json α) :
    ∃ entries,
      wrapper client (Control.response epoch nextSequence name value).image name =
          .ok entries ∧
        get entries name = value.image := by
  obtain ⟨same, positive, forward⟩ := addressed
  have known : hex64Pattern epoch = true := same ▸ client.info.identified.2
  have most : 1 ≤ (nextSequence.toNat : Int) := by
    have nonzero : nextSequence.toNat ≠ 0 := fun zero => positive (UInt64.toNat_inj.mp zero)
    omega
  have counted := @integer_unsigned α nextSequence 1 most
  have later :
      (client.next.any fun held => decide ((nextSequence.toNat : Int) < held.value)) =
        false := by
    cases kept : client.next with
    | none => rfl
    | some held => simpa using forward held kept
  let entries : Entries α :=
    [(ascii "epoch", .str epoch), (ascii "next_sequence", (Json.unsigned nextSequence).image),
      (ascii "protocol_version", .str (ascii "0.1")), (ascii name, value.image)]
  refine ⟨entries, ?_, ?_⟩
  · have shape :
        fields (Control.response epoch nextSequence name value).image
          ["protocol_version", "epoch", "next_sequence", name] = .ok entries := by
      rcases named with rfl | rfl
      · rfl
      · rfl
    have version : isLiteral (get entries "protocol_version") "0.1" = true := rfl
    have epochRead : Python.epoch (get entries "epoch") = .ok epoch := if_pos known
    have nextRead : integer (get entries "next_sequence") 1 uint64Max =
        .ok (nextSequence.toNat : Int) := counted
    simp [wrapper, shape, version, epochRead, nextRead, later, same, bind, Except.bind, pure,
      Except.pure]
  · rcases named with rfl | rfl
    · rfl
    · rfl

omit [Scalar α] in
theorem wrapped_response {β : Type} {client : Client} {epoch : Text}
    {nextSequence : UInt64} (addressed : Addressed client epoch nextSequence) {name : String}
    (named : name = "receipt" ∨ name = "snapshot") {value : Json α}
    {read : Value α → Except Raised β} {data : β} (reads : read value.image = .ok data) :
    wrapped client name read (Control.response epoch nextSequence name value).image =
      .ok data := by
  obtain ⟨entries, framed, found⟩ := wrapper_response addressed named value
  simp [wrapped, framed, found, reads, bind, Except.bind]

section Snapshots

open World

structure FiniteTransform (transform : World.Transform α) : Prop where
  position : Commands.FiniteVec3 transform.positionM
  rotation : Commands.FiniteQuat transform.rotationXyzw
  scale : Commands.FiniteVec3 transform.scale

/-- An entity as the remote profiles can show it. -/
structure ShowableEntity (revision : Nat) (entity : World.Entity α) : Prop where
  cube : entity.prefabId = ascii "builtin.unit_cube"
  stamped : entity.authoringRevision.toNat ≤ revision
  rootless : entity.parent = none
  untagged : entity.tags = []
  finite : FiniteTransform entity.transform

structure ShowableSlot (revision : Nat) (slot : World.Slot α) : Prop where
  identified : uuidPattern slot.entityUuid = true
  counted : slot.generation ≠ 0
  retired : slot.retired = true → slot.entity = none
  entity : ∀ entity, slot.entity = some entity → ShowableEntity revision entity

structure Showable (snapshot : World.Snapshot α) : Prop where
  format : snapshot.formatVersion = 1
  named : snapshot.worldId = ascii "workshop"
  capacity : 1 ≤ snapshot.maxSlots.toNat ∧ snapshot.maxSlots.toNat ≤ 1024
  few : snapshot.slots.length ≤ snapshot.maxSlots.toNat
  unique : (snapshot.slots.map World.Slot.entityUuid).Nodup
  slots : ∀ slot ∈ snapshot.slots, ShowableSlot snapshot.worldRevision.toNat slot

theorem number_float {python : Interpreter α} {value : α}
    (finite : Scalar.isFinite value = true) : number python (.float value) = .ok value :=
  if_pos finite

theorem readTransform_image (python : Interpreter α) {transform : World.Transform α}
    (finite : FiniteTransform transform) :
    readTransform python (Control.transformJson transform).image = .ok transform := by
  obtain ⟨⟨px, py, pz⟩, ⟨rx, ry, rz, rw⟩, ⟨sx, sy, sz⟩⟩ := finite
  have position :
      vector3 python (Commands.vectorJson transform.positionM.toList).image =
        .ok transform.positionM := by
    simp [Commands.vectorJson, Vec3.toList, Json.image, Json.imageItems, vector3,
      number_float px, number_float py, number_float pz, bind, Except.bind, pure, Except.pure]
  have rotation :
      vector4 python (Commands.vectorJson transform.rotationXyzw.toList).image =
        .ok transform.rotationXyzw := by
    simp [Commands.vectorJson, Quat.toList, Json.image, Json.imageItems, vector4,
      number_float rx, number_float ry, number_float rz, number_float rw, bind, Except.bind,
      pure, Except.pure]
  have scale :
      vector3 python (Commands.vectorJson transform.scale.toList).image =
        .ok transform.scale := by
    simp [Commands.vectorJson, Vec3.toList, Json.image, Json.imageItems, vector3,
      number_float sx, number_float sy, number_float sz, bind, Except.bind, pure, Except.pure]
  let entries : Entries α :=
    [(ascii "position_m", (Commands.vectorJson transform.positionM.toList).image),
      (ascii "rotation_xyzw", (Commands.vectorJson transform.rotationXyzw.toList).image),
      (ascii "scale", (Commands.vectorJson transform.scale.toList).image)]
  have shape :
      fields (Control.transformJson transform).image
        ["position_m", "rotation_xyzw", "scale"] = .ok entries := rfl
  have first : vector3 python (get entries "position_m") = .ok transform.positionM := position
  have second : vector4 python (get entries "rotation_xyzw") = .ok transform.rotationXyzw :=
    rotation
  have third : vector3 python (get entries "scale") = .ok transform.scale := scale
  simp [readTransform, shape, first, second, third, bind, Except.bind, pure, Except.pure]

omit [Scalar α] in
theorem text_short {identifier : Text} {maximum : Nat} (nonempty : identifier ≠ [])
    (short : identifier.length ≤ maximum) :
    text (.str identifier : Value α) maximum = .ok identifier := by
  have few : characters identifier ≤ maximum := List.countP_le_length.trans short
  simp [text, nonempty, few]

theorem readEntity_image (python : Interpreter α) {revision : Nat} {entity : World.Entity α}
    (showable : ShowableEntity revision entity) :
    readEntity python (Control.entityJson (some entity)).image =
      .ok (Control.seenEntity entity) := by
  have cube : text (.str entity.prefabId : Value α) 256 = .ok entity.prefabId := by
    rw [showable.cube]
    rfl
  have stamped := @integer_unsigned α entity.authoringRevision 0 (by omega)
  let entries : Entries α :=
    [(ascii "authoring_revision", (Json.unsigned entity.authoringRevision).image),
      (ascii "prefab", .str entity.prefabId),
      (ascii "transform", (Control.transformJson entity.transform).image)]
  have shape :
      fields (Control.entityJson (some entity)).image
        ["prefab", "authoring_revision", "transform"] = .ok entries := rfl
  have first : text (get entries "prefab") 256 = .ok entity.prefabId := cube
  have second : integer (get entries "authoring_revision") 0 uint64Max =
      .ok (entity.authoringRevision.toNat : Int) := stamped
  have third : readTransform python (get entries "transform") = .ok entity.transform :=
    readTransform_image python showable.finite
  simp [readEntity, shape, first, second, third, Control.seenEntity, bind, Except.bind, pure,
    Except.pure]

theorem readSlot_image (python : Interpreter α) {revision : Nat} {slot : World.Slot α}
    (showable : ShowableSlot revision slot) :
    readSlot python (Control.slotJson slot).image = .ok (Control.seenSlot slot) := by
  have positive : 1 ≤ (slot.generation.toNat : Int) := by
    have nonzero : slot.generation.toNat ≠ 0 :=
      fun zero => showable.counted (UInt64.toNat_inj.mp zero)
    omega
  have counted := @integer_unsigned α slot.generation 1 positive
  let entries : Entries α :=
    [(ascii "entity", (Control.entityJson slot.entity).image),
      (ascii "entity_uuid", .str slot.entityUuid),
      (ascii "generation", (Json.unsigned slot.generation).image),
      (ascii "retired", .boolean slot.retired)]
  have shape :
      fields (Control.slotJson slot).image
        ["entity_uuid", "generation", "retired", "entity"] = .ok entries := rfl
  have flag : boolean (get entries "retired") = .ok slot.retired := rfl
  have named : uuid (get entries "entity_uuid") = .ok slot.entityUuid :=
    if_pos showable.identified
  have number : integer (get entries "generation") 1 uint64Max =
      .ok (slot.generation.toNat : Int) := counted
  have inner : get entries "entity" = (Control.entityJson slot.entity).image := rfl
  cases held : slot.entity with
  | none =>
      have absent : get entries "entity" = .none := by rw [inner, held]; rfl
      simp [readSlot, shape, flag, named, number, absent, Control.seenSlot, held, bind,
        Except.bind, pure, Except.pure]
  | some entity =>
      have live : slot.retired = false := by
        cases flagged : slot.retired with
        | false => rfl
        | true => exact absurd (held.symm.trans (showable.retired flagged)) (by simp)
      have read := readEntity_image python (showable.entity entity held)
      have present : get entries "entity" =
          .dict
            [(ascii "authoring_revision", (Json.unsigned entity.authoringRevision).image),
              (ascii "prefab", .str entity.prefabId),
              (ascii "transform", (Control.transformJson entity.transform).image)] := by
        rw [inner, held]
        rfl
      have same : (Control.entityJson (some entity)).image =
          .dict
            [(ascii "authoring_revision", (Json.unsigned entity.authoringRevision).image),
              (ascii "prefab", .str entity.prefabId),
              (ascii "transform", (Control.transformJson entity.transform).image)] := rfl
      rw [same] at read
      simp [readSlot, shape, flag, named, number, present, read, live, Control.seenSlot, held,
        bind, Except.bind, pure, Except.pure, Functor.map, Except.map]

omit [Scalar α] in
/-- Reading a list item by item. -/
theorem mapM_read {β γ : Type} {items : List β} {tokens : β → Json α}
    {read : Value α → Except Raised γ} {seen : β → γ}
    (each : ∀ item ∈ items, read (tokens item).image = .ok (seen item)) :
    ((items.map tokens).map Json.image).mapM read = .ok (items.map seen) := by
  induction items with
  | nil => rfl
  | cons item rest inductionHypothesis =>
      have others := inductionHypothesis fun later member =>
        each later (List.mem_cons_of_mem _ member)
      rw [List.map_cons, List.map_cons, List.mapM_cons, each item (List.mem_cons_self ..),
        others]
      rfl

omit [Scalar α] in
theorem seenSlots_unique {slots : List (World.Slot α)}
    (unique : (slots.map World.Slot.entityUuid).Nodup) :
    ((slots.map Control.seenSlot).map Slot.entityUuid).Nodup := by
  rw [List.map_map]
  exact unique

theorem seenSlots_stamped {revision : Nat} {slots : List (World.Slot α)}
    (showable : ∀ slot ∈ slots, ShowableSlot revision slot) :
    ((slots.map Control.seenSlot).any fun slot => slot.entity.any fun entity =>
        decide ((revision : Int) < entity.authoringRevision)) = false := by
  rw [List.any_eq_false]
  intro seen member
  obtain ⟨slot, present, rfl⟩ := List.mem_map.mp member
  cases held : slot.entity with
  | none => simp [Control.seenSlot, held]
  | some entity =>
      have stamped := ((showable slot present).entity entity held).stamped
      simp only [Control.seenSlot, held, Option.map_some, Option.any_some,
        Control.seenEntity, decide_eq_true_eq]
      omega

theorem readSnapshot_image (python : Interpreter α) {snapshot : World.Snapshot α}
    (showable : Showable snapshot) :
    readSnapshot python (Control.snapshotObject snapshot).image =
      .ok (Control.seenSnapshot snapshot) := by
  obtain ⟨format, named, ⟨some_, most⟩, few, unique, slots⟩ := showable
  let entries : Entries α :=
    [(ascii "format_version", (Json.unsigned snapshot.formatVersion.toUInt64).image),
      (ascii "max_slots", (Json.unsigned snapshot.maxSlots.toUInt64).image),
      (ascii "seed", (Json.unsigned snapshot.seed.toUInt64).image),
      (ascii "slots", (Json.array (snapshot.slots.map Control.slotJson)).image),
      (ascii "world_id", .str snapshot.worldId),
      (ascii "world_revision", (Json.unsigned snapshot.worldRevision).image)]
  have shape :
      fields (Control.snapshotObject snapshot).image
        ["format_version", "world_id", "seed", "max_slots", "world_revision", "slots"] =
          .ok entries := rfl
  have first : integer (get entries "format_version") 1 1 = .ok 1 := by
    have one : get entries "format_version" = .integer 1 := by
      change (Json.unsigned snapshot.formatVersion.toUInt64).image = _
      rw [format]
      rfl
    rw [one]
    rfl
  have count : integer (get entries "max_slots") 1 1024 =
      .ok (snapshot.maxSlots.toNat : Int) :=
    integer_eq_ok.mpr ⟨rfl, by omega, by omega⟩
  have raw : items (get entries "slots") =
      .ok ((snapshot.slots.map Control.slotJson).map Json.image) := by
    change items (Json.image (.array (snapshot.slots.map Control.slotJson))) = _
    rw [Json.image, Json.imageItems_map]
    rfl
  have read := mapM_read fun slot member => readSlot_image python (slots slot member)
  have revision : integer (get entries "world_revision") 0 uint64Max =
      .ok (snapshot.worldRevision.toNat : Int) := integer_unsigned (by omega)
  have world : text (get entries "world_id") 64 = .ok snapshot.worldId := by
    change text (.str snapshot.worldId : Value α) 64 = _
    rw [named]
    rfl
  have seed : integer (get entries "seed") 0 4294967295 = .ok (snapshot.seed.toNat : Int) := by
    have small := snapshot.seed.toNat_lt
    exact integer_eq_ok.mpr ⟨rfl, by omega, by omega⟩
  have within : decide ((snapshot.maxSlots.toNat : Int) <
      ((snapshot.slots.map Control.slotJson).map (Json.image (α := α))).length) = false := by
    simpa using few
  have apart : decide
      (¬ ((snapshot.slots.map Control.seenSlot).map Slot.entityUuid).Nodup) = false :=
    decide_eq_false fun broken => broken (seenSlots_unique unique)
  have stamped := seenSlots_stamped slots
  simp only [readSnapshot, shape, first, count, raw, read, revision, world, seed, within,
    apart, stamped, rejectIf_false, bind, Except.bind, pure, Except.pure]
  simp only [Control.seenSnapshot, format]
  rfl

theorem transformJson_sendable {transform : World.Transform α}
    (finite : FiniteTransform transform) :
    Control.Sendable 2 (Control.transformJson transform) := by
  obtain ⟨⟨px, py, pz⟩, ⟨rx, ry, rz, rw⟩, ⟨sx, sy, sz⟩⟩ := finite
  refine Control.sendable_object rfl rfl ⟨?_, ?_, ?_⟩
  · exact Control.sendable_floats (by simp [Vec3.toList, px, py, pz])
  · exact Control.sendable_floats (by simp [Quat.toList, rx, ry, rz, rw])
  · exact Control.sendable_floats (by simp [Vec3.toList, sx, sy, sz])

theorem uuid_printable {identifier : Text} (valid : uuidPattern identifier = true) :
    identifier.all Json.printable = true :=
  Json.printable_text (Commands.validUuid_bytes valid)

theorem slotJson_sendable {revision : Nat} {slot : World.Slot α}
    (showable : ShowableSlot revision slot) :
    Control.Sendable 4 (Control.slotJson slot) := by
  refine Control.sendable_object rfl rfl ⟨?_, ?_, ?_, ?_⟩
  · cases held : slot.entity with
    | none => exact Control.sendable_null _
    | some entity =>
        have cube := showable.entity entity held
        refine Control.sendable_object rfl rfl ⟨Control.sendable_unsigned _ _, ?_, ?_⟩
        · refine Control.sendable_string _ ?_
          rw [cube.cube]
          rfl
        · exact transformJson_sendable cube.finite
  · exact Control.sendable_string _ (uuid_printable showable.identified)
  · exact Control.sendable_unsigned _ _
  · exact Control.sendable_boolean _ _

theorem snapshotObject_sendable {snapshot : World.Snapshot α} (showable : Showable snapshot) :
    Control.Sendable 6 (Control.snapshotObject snapshot) := by
  have named : Control.Sendable 5 (.string snapshot.worldId : Json α) := by
    rw [showable.named]
    exact Control.sendable_string _ rfl
  have slots : Control.Sendable 5 (.array (snapshot.slots.map Control.slotJson)) := by
    refine Control.sendable_array fun item member => ?_
    obtain ⟨slot, present, rfl⟩ := List.mem_map.mp member
    exact slotJson_sendable (showable.slots slot present)
  exact Control.sendable_object rfl rfl
    ⟨Control.sendable_unsigned _ _, Control.sendable_unsigned _ _,
      Control.sendable_unsigned _ _, slots, named, Control.sendable_unsigned _ _⟩

theorem slotJson_weight {revision : Nat} {slot : World.Slot α}
    (showable : ShowableSlot revision slot) : (Control.slotJson slot).weight ≤ 600 := by
  have identified := Commands.validUuid_length showable.identified
  have entity : (Control.entityJson slot.entity).weight ≤ 480 := by
    cases held : slot.entity with
    | none => simp [Control.entityJson, Json.weight]
    | some entity =>
        have cube := congrArg List.length (showable.entity entity held).cube
        simp only [Control.entityJson, Control.transformJson, Commands.vectorJson, Vec3.toList,
          Quat.toList, List.map_cons, List.map_nil, Json.weight, Json.weightEntries,
          Json.weightItems, cube]
        decide
  simp only [Control.slotJson, Json.weight, Json.weightEntries, identified]
  have names :
      (ascii "entity").length = 6 ∧ (ascii "entity_uuid").length = 11 ∧
        (ascii "generation").length = 10 ∧ (ascii "retired").length = 7 := by decide
  obtain ⟨first, second, third, fourth⟩ := names
  omega

omit [Scalar α] in
theorem weightItems_le {bound : Nat} {items : List (Json α)}
    (each : ∀ item ∈ items, item.weight ≤ bound) :
    Json.weightItems items ≤ (bound + 1) * items.length := by
  induction items with
  | nil => exact Nat.zero_le _
  | cons item rest inductionHypothesis =>
      have first := each item (List.mem_cons_self ..)
      have others := inductionHypothesis fun later member =>
        each later (List.mem_cons_of_mem _ member)
      simp only [Json.weightItems, List.length_cons, Nat.mul_succ]
      omega

theorem snapshotObject_weight {snapshot : World.Snapshot α} (showable : Showable snapshot) :
    (Control.snapshotObject snapshot).weight ≤ 700000 := by
  have slots : Json.weightItems (snapshot.slots.map Control.slotJson) ≤ 601 * 1024 := by
    have each : ∀ item ∈ snapshot.slots.map Control.slotJson, item.weight ≤ 600 := by
      intro item member
      obtain ⟨slot, present, same⟩ := List.mem_map.mp member
      exact same ▸ slotJson_weight (showable.slots slot present)
    have total := weightItems_le each
    have few : snapshot.slots.length ≤ 1024 := showable.few.trans showable.capacity.2
    rw [List.length_map] at total
    omega
  have named : snapshot.worldId.length = 8 := by
    rw [showable.named]
    decide
  have names :
      (ascii "format_version").length = 14 ∧ (ascii "max_slots").length = 9 ∧
        (ascii "seed").length = 4 ∧ (ascii "slots").length = 5 ∧
        (ascii "world_id").length = 8 ∧ (ascii "world_revision").length = 14 := by decide
  obtain ⟨first, second, third, fourth, fifth, sixth⟩ := names
  simp only [Control.snapshotObject, Json.weight, Json.weightEntries, named]
  omega

end Snapshots

section Receipts

omit [Scalar α] in
theorem pathStep_printable {state next : PathState} {character : UInt8}
    (stepped : pathStep state character = some next) : Json.printable character = true := by
  have letters : character = 47 ∨ lower character = true ∨ character = 95 ∨
      digit character = true := by
    cases state with
    | between | opened | name | index =>
        simp only [pathStep] at stepped
        grind
  simp only [lower, digit, Bool.and_eq_true, decide_eq_true_eq] at letters
  simp only [Json.printable, Bool.and_eq_true, decide_eq_true_eq, bne_iff_ne]
  grind

theorem path_printable {path : Text} :
    ∀ {state last : PathState},
      path.foldlM pathStep state = some last → path.all Json.printable = true := by
  induction path with
  | nil =>
      intro state last walked
      rfl
  | cons character rest inductionHypothesis =>
      intro state last walked
      rw [List.foldlM_cons, Option.bind_eq_bind, Option.bind_eq_some_iff] at walked
      obtain ⟨next, stepped, others⟩ := walked
      rw [List.all_cons, pathStep_printable stepped, inductionHypothesis others]
      rfl

theorem pathPattern_printable {path : Text} (matched : pathPattern path = true) :
    path.all Json.printable = true := by
  unfold pathPattern at matched
  split at matched
  · exact absurd matched (by decide)
  · rename_i walked
    exact path_printable walked
  · exact absurd matched (by decide)

theorem codePattern_printable {code : Text} (matched : codePattern code = true) :
    code.all Json.printable = true ∧ code ≠ [] ∧ code.length ≤ 64 := by
  cases code with
  | nil => exact absurd matched (by decide)
  | cons first rest =>
      simp only [codePattern, Bool.and_eq_true, decide_eq_true_eq, List.all_eq_true,
        Bool.or_eq_true, beq_iff_eq] at matched
      obtain ⟨⟨letter, short⟩, letters⟩ := matched
      have shown {character : UInt8} (known : upper character = true ∨
          digit character = true ∨ character = 95) : Json.printable character = true := by
        simp only [upper, digit, Bool.and_eq_true, decide_eq_true_eq] at known
        simp only [Json.printable, Bool.and_eq_true, decide_eq_true_eq, bne_iff_ne]
        grind
      refine ⟨?_, List.cons_ne_nil first rest, Nat.succ_le_succ short⟩
      rw [List.all_eq_true]
      intro character member
      rcases List.mem_cons.mp member with same | later
      · exact same ▸ shown (Or.inl letter)
      · rcases letters character later with (upper | digit) | line
        · exact shown (Or.inl upper)
        · exact shown (Or.inr (Or.inl digit))
        · exact shown (Or.inr (Or.inr line))

/-- A binding that the receipt reader accepts. -/
structure ReadableBinding (binding : Transactions.CreatedBinding) : Prop where
  temporaryId : validIdentifier 64 binding.temporaryId = true
  worldId : binding.worldId = ascii "workshop"
  entityUuid : uuidPattern binding.entityUuid = true
  generation : binding.generation ≠ 0

/-- An error in the grammar of the receipt reader. -/
structure ReadableError (error : Transactions.Error) : Prop where
  code : codePattern error.code = true
  path : pathPattern error.path = true
  short : error.path.length ≤ 256
  said : error.message ≠ [] ∧ error.message.length ≤ 1024
  message : error.message.all Json.printable = true
  index : ∀ index, error.operationIndex = some index → index ≤ 255

structure ReadableReceipt (receipt : Transactions.Receipt) : Prop where
  transactionId : uuidPattern receipt.transactionId = true
  durability : receipt.durability = ascii "volatile"
  few : receipt.created.length ≤ 256 ∧ receipt.errors.length ≤ 256
  created : ∀ binding ∈ receipt.created, ReadableBinding binding
  errors : ∀ error ∈ receipt.errors, ReadableError error
  outcome :
    (receipt.status = ascii "committed" ∧ receipt.errors = []) ∨
      (receipt.status = ascii "rejected" ∧ receipt.created = [] ∧ receipt.errors ≠ [])

omit [Scalar α] in
theorem readBinding_image {binding : Transactions.CreatedBinding}
    (readable : ReadableBinding binding) :
    readBinding (Control.bindingJson binding : Json α).image =
      .ok (Control.seenBinding binding) := by
  obtain ⟨temporaryId, worldId, entityUuid, generation⟩ := readable
  have positive : 1 ≤ (binding.generation.toNat : Int) := by
    have nonzero : binding.generation.toNat ≠ 0 :=
      fun zero => generation (UInt64.toNat_inj.mp zero)
    omega
  let entries : Entries α :=
    [(ascii "entity_uuid", .str binding.entityUuid),
      (ascii "generation", (Json.unsigned binding.generation).image),
      (ascii "temporary_id", .str binding.temporaryId),
      (ascii "world_id", .str binding.worldId)]
  have shape :
      fields (Control.bindingJson binding : Json α).image
        ["temporary_id", "world_id", "entity_uuid", "generation"] = .ok entries := rfl
  have first : text (get entries "temporary_id") 64 = .ok binding.temporaryId :=
    text_of_identifier temporaryId
  have second : text (get entries "world_id") 64 = .ok binding.worldId := by
    change text (.str binding.worldId : Value α) 64 = _
    rw [worldId]
    rfl
  have third : uuid (get entries "entity_uuid") = .ok binding.entityUuid := if_pos entityUuid
  have fourth : integer (get entries "generation") 1 uint64Max =
      .ok (binding.generation.toNat : Int) := integer_unsigned positive
  simp [readBinding, shape, first, second, third, fourth, Control.seenBinding, bind,
    Except.bind, pure, Except.pure]

omit [Scalar α] in
theorem readError_image {error : Transactions.Error} (readable : ReadableError error) :
    readError (Control.errorJson error : Json α).image = .ok (Control.seenError error) := by
  obtain ⟨code, path, short, ⟨said, long⟩, _, index⟩ := readable
  obtain ⟨_, nonempty, brief⟩ := codePattern_printable code
  have few : characters error.path ≤ 256 := List.countP_le_length.trans short
  have codeText : text (.str error.code : Value α) 64 = .ok error.code :=
    text_short nonempty brief
  have messageText : text (.str error.message : Value α) 1024 = .ok error.message :=
    text_short said long
  have codeRead : patterned (.str error.code : Value α) codePattern = .ok error.code :=
    if_pos code
  have pathRead :
      patterned (.str error.path : Value α)
          (fun path => decide (characters path ≤ 256) && pathPattern path) =
        .ok error.path := by
    refine if_pos ?_
    simp [few, path]
  cases held : error.operationIndex with
  | none =>
      let entries : Entries α :=
        [(ascii "code", .str error.code), (ascii "message", .str error.message),
          (ascii "path", .str error.path)]
      have same : (Control.errorJson error : Json α).image = .dict entries := by
        simp [Control.errorJson, held, Json.image, Json.imageEntries, entries]
      have unindexed : hasKey (.dict entries) "operation_index" = false := rfl
      have shape : fields (.dict entries) ["code", "path", "message"] = .ok entries := rfl
      have first : get entries "code" = .str error.code := rfl
      have second : get entries "path" = .str error.path := rfl
      have third : get entries "message" = .str error.message := rfl
      simp [readError, same, unindexed, shape, first, second, third, codeRead, pathRead,
        codeText, messageText, Control.seenError, held, bind, Except.bind, pure, Except.pure]
  | some number =>
      have small := index number held
      have unwrapped : (UInt64.ofNat number).toNat = number :=
        UInt64.toNat_ofNat_of_lt' (small.trans_lt (by decide))
      let entries : Entries α :=
        [(ascii "code", .str error.code), (ascii "message", .str error.message),
          (ascii "operation_index", .integer number), (ascii "path", .str error.path)]
      have same : (Control.errorJson error : Json α).image = .dict entries := by
        simp [Control.errorJson, held, Json.image, Json.imageEntries, entries, unwrapped]
      have indexed : hasKey (.dict entries) "operation_index" = true := rfl
      have shape :
          fields (.dict entries) ["code", "path", "message", "operation_index"] =
            .ok entries := rfl
      have first : get entries "code" = .str error.code := rfl
      have second : get entries "path" = .str error.path := rfl
      have third : get entries "message" = .str error.message := rfl
      have fourth : integer (get entries "operation_index") 0 255 = .ok (number : Int) :=
        integer_eq_ok.mpr ⟨rfl, by omega, by omega⟩
      simp [readError, same, indexed, shape, first, second, third, fourth, codeRead, pathRead,
        codeText, messageText, Control.seenError, held, bind, Except.bind, pure, Except.pure,
        Functor.map, Except.map]

omit [Scalar α] in
theorem readReceipt_image {receipt : Transactions.Receipt}
    (readable : ReadableReceipt receipt) :
    readReceipt (Control.receiptJson receipt : Json α).image =
      .ok (Control.seenReceipt receipt) := by
  obtain ⟨transactionId, durability, ⟨fewCreated, fewErrors⟩, created, errors, outcome⟩ :=
    readable
  let entries : Entries α :=
    [(ascii "created", (Json.array (receipt.created.map Control.bindingJson)).image),
      (ascii "durability", .str receipt.durability),
      (ascii "errors", (Json.array (receipt.errors.map Control.errorJson)).image),
      (ascii "status", .str receipt.status),
      (ascii "transaction_id", .str receipt.transactionId),
      (ascii "world_revision", (Json.unsigned receipt.worldRevision).image)]
  have shape :
      fields (Control.receiptJson receipt : Json α).image
        ["status", "durability", "transaction_id", "world_revision", "created", "errors"] =
          .ok entries := rfl
  have volatile : isLiteral (get entries "durability") "volatile" = true := by
    change (receipt.durability == ascii "volatile") = true
    rw [durability]
    rfl
  have rawCreated : items (get entries "created") =
      .ok ((receipt.created.map Control.bindingJson).map Json.image) := by
    change items (Json.image (.array (receipt.created.map Control.bindingJson))) = _
    rw [Json.image, Json.imageItems_map]
    rfl
  have rawErrors : items (get entries "errors") =
      .ok ((receipt.errors.map Control.errorJson).map Json.image) := by
    change items (Json.image (.array (receipt.errors.map Control.errorJson))) = _
    rw [Json.image, Json.imageItems_map]
    rfl
  have within :
      (decide (256 <
          ((receipt.created.map Control.bindingJson).map (Json.image (α := α))).length) ||
        decide (256 <
          ((receipt.errors.map Control.errorJson).map (Json.image (α := α))).length)) =
        false := by
    simp only [List.length_map, Bool.or_eq_false_iff, decide_eq_false_iff_not]
    omega
  have readCreated := mapM_read (α := α) fun binding member =>
    readBinding_image (created binding member)
  have readErrors := mapM_read (α := α) fun error member =>
    readError_image (errors error member)
  have identifier : uuid (get entries "transaction_id") = .ok receipt.transactionId :=
    if_pos transactionId
  have revision : integer (get entries "world_revision") 0 uint64Max =
      .ok (receipt.worldRevision.toNat : Int) := integer_unsigned (by omega)
  have concluded :
      readStatus (get entries "status") = .ok (Control.seenStatus receipt.status) ∧
        (Control.seenStatus receipt.status = .committed →
          (receipt.errors.map Control.seenError).isEmpty = true) ∧
        (Control.seenStatus receipt.status = .rejected →
          (receipt.created.map Control.seenBinding).isEmpty = true ∧
            (receipt.errors.map Control.seenError).isEmpty = false) := by
    change readStatus (.str receipt.status) = _ ∧ _
    rcases outcome with ⟨status, clean⟩ | ⟨status, nothing, blamed⟩
    · have accepted : Control.seenStatus (ascii "committed") = .committed := by decide
      rw [status, clean, accepted]
      exact ⟨rfl, fun _ => rfl, fun other => absurd other (by decide)⟩
    · have refused : Control.seenStatus (ascii "rejected") = .rejected := by decide
      rw [status, nothing, refused]
      exact ⟨rfl, fun other => absurd other (by decide), fun _ => ⟨rfl, by simpa using blamed⟩⟩
  obtain ⟨read, accepted, refused⟩ := concluded
  have whole : Control.seenReceipt receipt =
      { status := Control.seenStatus receipt.status
        transactionId := receipt.transactionId
        worldRevision := receipt.worldRevision.toNat
        created := receipt.created.map Control.seenBinding
        errors := receipt.errors.map Control.seenError } := rfl
  rw [whole]
  cases outcome : Control.seenStatus receipt.status with
  | committed =>
      rw [outcome] at read
      simp only [readReceipt, shape, read, volatile, rawCreated, rawErrors, within,
        readCreated, readErrors, accepted outcome, identifier, revision, bind, Except.bind,
        pure, Except.pure, rejectIf_false, Bool.not_true]
  | rejected =>
      rw [outcome] at read
      obtain ⟨nothing, blamed⟩ := refused outcome
      simp only [readReceipt, shape, read, volatile, rawCreated, rawErrors, within,
        readCreated, readErrors, nothing, blamed, identifier, revision, bind, Except.bind,
        pure, Except.pure, rejectIf_false, Bool.not_true, Bool.or_self]

theorem errorJson_sendable {error : Transactions.Error} (readable : ReadableError error) :
    Control.Sendable 1 (Control.errorJson error : Json α) := by
  have code := Control.sendable_string (α := α) 0 (codePattern_printable readable.code).1
  have path := Control.sendable_string (α := α) 0 (pathPattern_printable readable.path)
  have message := Control.sendable_string (α := α) 0 readable.message
  unfold Control.errorJson
  cases error.operationIndex with
  | none => exact Control.sendable_object rfl rfl ⟨code, message, path⟩
  | some index =>
      exact Control.sendable_object rfl rfl
        ⟨code, message, Control.sendable_unsigned _ _, path⟩

theorem bindingJson_sendable {binding : Transactions.CreatedBinding}
    (readable : ReadableBinding binding) :
    Control.Sendable 1 (Control.bindingJson binding : Json α) := by
  have world : binding.worldId.all Json.printable = true := by
    rw [readable.worldId]
    rfl
  have temporary :=
    Json.printable_text (Commands.validIdentifier_bytes readable.temporaryId)
  exact Control.sendable_object rfl rfl
    ⟨Control.sendable_string _ (uuid_printable readable.entityUuid),
      Control.sendable_unsigned _ _, Control.sendable_string _ temporary,
      Control.sendable_string _ world⟩

theorem receiptJson_sendable {receipt : Transactions.Receipt}
    (readable : ReadableReceipt receipt) :
    Control.Sendable 3 (Control.receiptJson receipt : Json α) := by
  have created : Control.Sendable 2
      (.array (receipt.created.map Control.bindingJson) : Json α) := by
    refine Control.sendable_array fun item member => ?_
    obtain ⟨binding, present, rfl⟩ := List.mem_map.mp member
    exact bindingJson_sendable (readable.created binding present)
  have errors : Control.Sendable 2
      (.array (receipt.errors.map Control.errorJson) : Json α) := by
    refine Control.sendable_array fun item member => ?_
    obtain ⟨error, present, rfl⟩ := List.mem_map.mp member
    exact errorJson_sendable (readable.errors error present)
  have durability : receipt.durability.all Json.printable = true := by
    rw [readable.durability]
    rfl
  have status : receipt.status.all Json.printable = true := by
    rcases readable.outcome with ⟨same, _⟩ | ⟨same, _⟩
    · rw [same]
      rfl
    · rw [same]
      rfl
  exact Control.sendable_object rfl rfl
    ⟨created, Control.sendable_string _ durability, errors,
      Control.sendable_string _ status,
      Control.sendable_string _ (uuid_printable readable.transactionId),
      Control.sendable_unsigned _ _⟩

omit [Scalar α] in
theorem errorJson_weight {error : Transactions.Error} (readable : ReadableError error) :
    (Control.errorJson error : Json α).weight ≤ 1500 := by
  obtain ⟨_, _, brief⟩ := codePattern_printable readable.code
  have short := readable.short
  have long := readable.said.2
  have names :
      (ascii "code").length = 4 ∧ (ascii "message").length = 7 ∧
        (ascii "operation_index").length = 15 ∧ (ascii "path").length = 4 := by decide
  obtain ⟨first, second, third, fourth⟩ := names
  unfold Control.errorJson
  cases error.operationIndex with
  | none =>
      simp only [Option.toList_none, List.map_nil, List.append_nil, List.cons_append,
        List.nil_append, Json.weight, Json.weightEntries]
      omega
  | some index =>
      simp only [Option.toList_some, List.map_cons, List.map_nil, List.cons_append,
        List.nil_append, Json.weight, Json.weightEntries]
      omega

omit [Scalar α] in
theorem bindingJson_weight {binding : Transactions.CreatedBinding}
    (readable : ReadableBinding binding) :
    (Control.bindingJson binding : Json α).weight ≤ 300 := by
  have identified := Commands.validUuid_length readable.entityUuid
  have temporary := Commands.validIdentifier_length readable.temporaryId
  have world : binding.worldId.length = 8 := by
    rw [readable.worldId]
    decide
  have names :
      (ascii "entity_uuid").length = 11 ∧ (ascii "generation").length = 10 ∧
        (ascii "temporary_id").length = 12 ∧ (ascii "world_id").length = 8 := by decide
  obtain ⟨first, second, third, fourth⟩ := names
  simp only [Control.bindingJson, Json.weight, Json.weightEntries]
  omega

omit [Scalar α] in
theorem receiptJson_weight {receipt : Transactions.Receipt}
    (readable : ReadableReceipt receipt) :
    (Control.receiptJson receipt : Json α).weight ≤ 500000 := by
  have eachCreated :
      ∀ item ∈ receipt.created.map (Control.bindingJson (α := α)), item.weight ≤ 300 := by
    intro item member
    obtain ⟨binding, present, same⟩ := List.mem_map.mp member
    exact same ▸ bindingJson_weight (readable.created binding present)
  have eachError :
      ∀ item ∈ receipt.errors.map (Control.errorJson (α := α)), item.weight ≤ 1500 := by
    intro item member
    obtain ⟨error, present, same⟩ := List.mem_map.mp member
    exact same ▸ errorJson_weight (readable.errors error present)
  have created := weightItems_le eachCreated
  have errors := weightItems_le eachError
  rw [List.length_map] at created errors
  obtain ⟨fewCreated, fewErrors⟩ := readable.few
  have identified := Commands.validUuid_length readable.transactionId
  have durability : receipt.durability.length = 8 := by
    rw [readable.durability]
    decide
  have status : receipt.status.length ≤ 9 := by
    rcases readable.outcome with ⟨same, _⟩ | ⟨same, _⟩
    · rw [same]
      decide
    · rw [same]
      decide
  have names :
      (ascii "created").length = 7 ∧ (ascii "durability").length = 10 ∧
        (ascii "errors").length = 6 ∧ (ascii "status").length = 6 ∧
        (ascii "transaction_id").length = 14 ∧ (ascii "world_revision").length = 14 := by
    decide
  obtain ⟨first, second, third, fourth, fifth, sixth⟩ := names
  simp only [Control.receiptJson, Json.weight, Json.weightEntries]
  omega

end Receipts

theorem response_sendable {levels : Nat} {epoch : Text} (nextSequence : UInt64)
    (known : hex64Pattern epoch = true) {name : String}
    (named : name = "receipt" ∨ name = "snapshot") {value : Json α}
    (sendable : Control.Sendable levels value) :
    Control.Sendable (levels + 1) (Control.response epoch nextSequence name value) := by
  have letters := Json.printable_text (Commands.validIdentifier_bytes (hex64_identifier known))
  have version : (ascii "0.1").all Json.printable = true := rfl
  rcases named with rfl | rfl
  · exact Control.sendable_object rfl rfl
      ⟨Control.sendable_string _ letters, Control.sendable_unsigned _ _,
        Control.sendable_string _ version, sendable⟩
  · exact Control.sendable_object rfl rfl
      ⟨Control.sendable_string _ letters, Control.sendable_unsigned _ _,
        Control.sendable_string _ version, sendable⟩

omit [Scalar α] in
theorem response_weight {epoch : Text} (nextSequence : UInt64)
    (known : hex64Pattern epoch = true) {name : String}
    (named : name = "receipt" ∨ name = "snapshot") (value : Json α) :
    (Control.response epoch nextSequence name value).weight ≤ value.weight + 200 := by
  simp only [hex64Pattern, Bool.and_eq_true, decide_eq_true_eq] at known
  have names :
      (ascii "epoch").length = 5 ∧ (ascii "next_sequence").length = 13 ∧
        (ascii "protocol_version").length = 16 ∧ (ascii "0.1").length = 3 := by decide
  obtain ⟨first, second, third, fourth⟩ := names
  have short : (ascii name).length ≤ 8 := by
    rcases named with rfl | rfl
    · decide
    · decide
  simp only [Control.response, Json.weight, Json.weightEntries]
  omega

theorem snapshot_recovered {python : Interpreter α} {library : JsonLibrary α}
    (codecs : Codecs python library) {snapshot : World.Snapshot α}
    (showable : Showable snapshot) {client : Client} {epoch : Text} {nextSequence : UInt64}
    (addressed : Addressed client epoch nextSequence) :
    Recovers python library
      (Control.response epoch nextSequence "snapshot" (Control.snapshotObject snapshot))
      (wrapped client "snapshot" (readSnapshot python)) (Control.seenSnapshot snapshot) := by
  have known : hex64Pattern epoch = true := addressed.epoch ▸ client.info.identified.2
  have sent := response_sendable nextSequence known (Or.inr rfl)
    (snapshotObject_sendable showable)
  have light := response_weight nextSequence known (Or.inr rfl)
    (Control.snapshotObject snapshot)
  have small := snapshotObject_weight showable
  refine recovers_image codecs (sent.deeper (by decide)) ?_
    (wrapped_response addressed (Or.inr rfl) (readSnapshot_image python showable))
  unfold maxResponse
  omega

theorem receipt_recovered {python : Interpreter α} {library : JsonLibrary α}
    (codecs : Codecs python library) {receipt : Transactions.Receipt}
    (readable : ReadableReceipt receipt) {client : Client} {epoch : Text}
    {nextSequence : UInt64} (addressed : Addressed client epoch nextSequence) :
    Recovers python library
      (Control.response epoch nextSequence "receipt" (Control.receiptJson receipt))
      (wrapped client "receipt" readReceipt) (Control.seenReceipt receipt) := by
  have known : hex64Pattern epoch = true := addressed.epoch ▸ client.info.identified.2
  have sent := response_sendable (α := α) nextSequence known (Or.inl rfl)
    (receiptJson_sendable readable)
  have light := response_weight (α := α) nextSequence known (Or.inl rfl)
    (Control.receiptJson receipt)
  have small := receiptJson_weight (α := α) readable
  refine recovers_image codecs (sent.deeper (by decide)) ?_
    (wrapped_response addressed (Or.inl rfl) (readReceipt_image readable))
  unfold maxResponse
  omega

end Omniweft.Sdk
