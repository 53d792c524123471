import Omniweft.HistoryEdits
import Omniweft.Library.Delimited

/-!
# Canonical bytes identify the world

The encoding writes uuids without a length and leaves out what the format says is
absent. On the worlds that committed batches reach nothing is lost by that: the
format is the least one that the content needs, and every omitted field has its
default value.
-/

namespace Omniweft.World

variable {α : Type} [Scalar α]

theorem littleEndian_delimits (count : Nat) :
    Delimits (· < 256 ^ count) fun value => littleEndian value count := by
  refine Delimits.fixed (fun value _ => littleEndian_length value count) ?_
  intro left right leftFits rightFits same
  rw [← fromLittleEndian_littleEndian leftFits, same,
    fromLittleEndian_littleEndian rightFits]

theorem integer64_delimits :
    Delimits (fun _ => True) fun value : UInt64 => littleEndian value.toNat 8 :=
  (littleEndian_delimits 8).comap (fun value _ => value.toNat_lt)
    fun _ _ _ _ same => UInt64.toNat_inj.mp same

theorem integer32_delimits :
    Delimits (fun _ => True) fun value : UInt32 => littleEndian value.toNat 4 :=
  (littleEndian_delimits 4).comap (fun value _ => value.toNat_lt)
    fun _ _ _ _ same => UInt32.toNat_inj.mp same

def Short (text : Text) : Prop := text.length < 256 ^ 4

theorem textBytes_delimits : Delimits Short textBytes := by
  refine Delimits.append (littleEndian_delimits 4) (fun text short => short) ?_
  intro length
  exact Delimits.fixed (fun text both => both.2) fun left right _ _ same => same

theorem tagBytes_delimits :
    Delimits (fun tags : List Text => tags.length < 256 ^ 4 ∧ ∀ tag ∈ tags, Short tag)
      tagBytes :=
  Delimits.counted (littleEndian_delimits 4) textBytes_delimits

/-- Ten numbers that zero normalisation leaves alone. -/
def components (value : Transform α) : List α :=
  value.positionM.toList ++ value.rotationXyzw.toList ++ value.scale.toList

def ZeroNormalTransform (value : Transform α) : Prop :=
  ∀ number ∈ components value, Scalar.ZeroNormal number

/-- The bit pattern of a number tells which number it is. -/
def BitsInjective (α : Type) [Scalar α] : Prop :=
  ∀ left right : α, Scalar.bits left = Scalar.bits right → left = right

theorem transformBytes_delimits (bits : BitsInjective α) :
    Delimits ZeroNormalTransform (transformBytes : Transform α → Bytes) := by
  have number : Delimits Scalar.ZeroNormal fun value : α =>
      littleEndian (Scalar.bits (Scalar.normalizeZero value)).toNat 8 := by
    refine integer64_delimits.comap (fun _ _ => trivial) ?_
    intro left right leftNormal rightNormal same
    rw [leftNormal, rightNormal] at same
    exact bits left right same
  have written : (transformBytes : Transform α → Bytes) =
      fun value => numbers (components value) := by
    funext value
    simp [transformBytes, numbers, components]
  rw [written]
  refine (number.entries 10).comap (fun value normal => ⟨rfl, normal⟩) ?_
  intro left right _ _ same
  obtain ⟨⟨_, _, _⟩, ⟨_, _, _, _⟩, ⟨_, _, _⟩⟩ := left
  obtain ⟨⟨_, _, _⟩, ⟨_, _, _, _⟩, ⟨_, _, _⟩⟩ := right
  simpa [components, Vec3.toList, Quat.toList, and_assoc] using same

/-- What the encoding of an entity takes for granted. -/
structure EncodableEntity (formatVersion : UInt32) (entity : Entity α) : Prop where
  prefabId : Short entity.prefabId
  transform : ZeroNormalTransform entity.transform
  localTransform : ZeroNormalTransform entity.localTransform
  parent : ∀ link, entity.parent = some link → link.entityUuid.length = 36
  rooted : entity.parent = none → entity.localTransform = Transform.default
  parentless : formatVersion < 2 → entity.parent = none
  untagged : formatVersion ≠ 3 → entity.tags = []
  tags : entity.tags.length < 256 ^ 4 ∧ ∀ tag ∈ entity.tags, Short tag

theorem parentBytes_inj (bits : BitsInjective α) {formatVersion : UInt32}
    {left right : Entity α} (leftFits : EncodableEntity formatVersion left)
    (rightFits : EncodableEntity formatVersion right) {leftRest rightRest : Bytes}
    (same : parentBytes left ++ leftRest = parentBytes right ++ rightRest) :
    (left.parent = right.parent ∧ left.localTransform = right.localTransform) ∧
      leftRest = rightRest := by
  unfold parentBytes at same
  cases leftParent : left.parent with
  | none =>
      cases rightParent : right.parent with
      | none =>
          simp only [leftParent, rightParent, List.singleton_append, List.cons.injEq,
            true_and] at same
          exact ⟨⟨rfl, (leftFits.rooted leftParent).trans
            (rightFits.rooted rightParent).symm⟩, same⟩
      | some link => simp [leftParent, rightParent] at same
  | some leftLink =>
      cases rightParent : right.parent with
      | none => simp [leftParent, rightParent] at same
      | some rightLink =>
          simp only [leftParent, rightParent, List.cons_append, List.append_assoc,
            List.cons.injEq, true_and] at same
          have lengths : leftLink.entityUuid.length = rightLink.entityUuid.length := by
            rw [leftFits.parent leftLink leftParent, rightFits.parent rightLink rightParent]
          obtain ⟨uuids, same⟩ := List.append_inj same lengths
          obtain ⟨generations, same⟩ := integer64_delimits _ _ _ _ trivial trivial same
          obtain ⟨transforms, rest⟩ := transformBytes_delimits bits _ _ _ _
            leftFits.localTransform rightFits.localTransform same
          obtain ⟨_, _⟩ := leftLink
          obtain ⟨_, _⟩ := rightLink
          simp only at uuids generations
          exact ⟨⟨by rw [uuids, generations], transforms⟩, rest⟩

theorem entityBytes_delimits (bits : BitsInjective α) (formatVersion : UInt32) :
    Delimits (EncodableEntity formatVersion)
      (entityBytes formatVersion : Entity α → Bytes) := by
  intro left right leftRest rightRest leftFits rightFits same
  simp only [entityBytes, List.append_assoc] at same
  obtain ⟨prefabs, same⟩ := textBytes_delimits _ _ _ _ leftFits.prefabId rightFits.prefabId
    same
  obtain ⟨revisions, same⟩ := integer64_delimits _ _ _ _ trivial trivial same
  obtain ⟨transforms, same⟩ := transformBytes_delimits bits _ _ _ _ leftFits.transform
    rightFits.transform same
  have parented : (left.parent = right.parent ∧
      left.localTransform = right.localTransform) ∧
      (if formatVersion = 3 then tagBytes left.tags else []) ++ leftRest =
        (if formatVersion = 3 then tagBytes right.tags else []) ++ rightRest := by
    by_cases linked : 2 ≤ formatVersion
    · rw [if_pos linked, if_pos linked] at same
      exact parentBytes_inj bits leftFits rightFits same
    · rw [if_neg linked, if_neg linked] at same
      have early := UInt32.not_le.mp linked
      have leftRoot := leftFits.parentless early
      have rightRoot := rightFits.parentless early
      exact ⟨⟨leftRoot.trans rightRoot.symm,
        (leftFits.rooted leftRoot).trans (rightFits.rooted rightRoot).symm⟩, same⟩
  have tagged : left.tags = right.tags ∧ leftRest = rightRest := by
    by_cases third : formatVersion = 3
    · have rest := parented.2
      rw [if_pos third, if_pos third] at rest
      exact tagBytes_delimits _ _ _ _ leftFits.tags rightFits.tags rest
    · have rest := parented.2
      rw [if_neg third, if_neg third] at rest
      exact ⟨(leftFits.untagged third).trans (rightFits.untagged third).symm, rest⟩
  obtain ⟨⟨parents, locals⟩, _⟩ := parented
  cases left
  cases right
  simp only at prefabs revisions transforms parents locals tagged
  exact ⟨by rw [prefabs, revisions, transforms, parents, locals, tagged.1], tagged.2⟩

structure EncodableSlot (formatVersion : UInt32) (slot : Slot α) : Prop where
  entityUuid : slot.entityUuid.length = 36
  entity : ∀ entity, slot.entity = some entity → EncodableEntity formatVersion entity

theorem slotBytes_delimits (bits : BitsInjective α) (formatVersion : UInt32) :
    Delimits (EncodableSlot formatVersion) (slotBytes formatVersion : Slot α → Bytes) := by
  intro left right leftRest rightRest leftFits rightFits same
  simp only [slotBytes, List.append_assoc] at same
  obtain ⟨uuids, same⟩ :=
    List.append_inj same (leftFits.entityUuid.trans rightFits.entityUuid.symm)
  obtain ⟨generations, same⟩ := integer64_delimits _ _ _ _ trivial trivial same
  simp only [List.singleton_append, List.cons.injEq] at same
  obtain ⟨flags, same⟩ := same
  have retired : left.retired = right.retired := by
    cases leftFlag : left.retired <;> cases rightFlag : right.retired <;>
      simp [leftFlag, rightFlag] at flags ⊢
  have entities : left.entity = right.entity ∧ leftRest = rightRest := by
    cases leftEntity : left.entity with
    | none =>
        cases rightEntity : right.entity with
        | none => simpa [leftEntity, rightEntity] using same
        | some entity => simp [leftEntity, rightEntity] at same
    | some leftHeld =>
        cases rightEntity : right.entity with
        | none => simp [leftEntity, rightEntity] at same
        | some rightHeld =>
            simp only [leftEntity, rightEntity, List.cons_append, List.cons.injEq,
              true_and] at same
            obtain ⟨held, rest⟩ := entityBytes_delimits bits formatVersion _ _ _ _
              (leftFits.entity leftHeld leftEntity) (rightFits.entity rightHeld rightEntity)
              same
            exact ⟨congrArg some held, rest⟩
  cases left
  cases right
  simp only at uuids generations retired entities
  exact ⟨by rw [uuids, generations, retired, entities.1], entities.2⟩

structure Encodable (state : Snapshot α) : Prop where
  format : state.formatVersion = 1 ∨ state.formatVersion = 2 ∨ state.formatVersion = 3
  worldId : Short state.worldId
  count : state.slots.length < 256 ^ 4
  slots : ∀ slot ∈ state.slots, EncodableSlot state.formatVersion slot

theorem formatMagic_length (formatVersion : UInt32) :
    (formatMagic formatVersion).length = 8 := by
  unfold formatMagic
  split
  · rfl
  · split <;> rfl

theorem canonicalBytes_injective (bits : BitsInjective α) {left right : Snapshot α}
    (leftFits : Encodable left) (rightFits : Encodable right)
    (same : canonicalBytes left = canonicalBytes right) : left = right := by
  simp only [canonicalBytes, List.append_assoc] at same
  obtain ⟨magics, same⟩ := List.append_inj same
    ((formatMagic_length _).trans (formatMagic_length _).symm)
  have formats : left.formatVersion = right.formatVersion := by
    rcases leftFits.format with first | first | first <;>
    rcases rightFits.format with second | second | second <;>
    rw [first, second] at magics ⊢ <;>
    exact absurd magics (by decide)
  obtain ⟨worlds, same⟩ := textBytes_delimits _ _ _ _ leftFits.worldId rightFits.worldId same
  obtain ⟨seeds, same⟩ := integer32_delimits _ _ _ _ trivial trivial same
  obtain ⟨capacities, same⟩ := integer32_delimits _ _ _ _ trivial trivial same
  obtain ⟨revisions, same⟩ := integer64_delimits _ _ _ _ trivial trivial same
  have slots : left.slots = right.slots := by
    rw [← formats] at same
    have rightSlots := rightFits.slots
    rw [← formats] at rightSlots
    exact (Delimits.counted (littleEndian_delimits 4)
      (slotBytes_delimits bits left.formatVersion)).injective
      ⟨leftFits.count, leftFits.slots⟩ ⟨rightFits.count, rightSlots⟩ same
  cases left
  cases right
  simp only at formats worlds seeds capacities revisions slots
  rw [formats, worlds, seeds, capacities, revisions, slots]

end Omniweft.World

namespace Omniweft.Authoring

open World Commands Transactions

variable {α : Type} [Scalar α]

/-- What every reachable world says about its format and its omitted fields. -/
structure CanonicalForm (state : Snapshot α) : Prop where
  third : state.formatVersion = 3 ↔
    ∃ position entity, entityAt state position = some entity ∧ entity.tags ≠ []
  second : state.formatVersion = 2 ↔
    (∀ position entity, entityAt state position = some entity → entity.tags = []) ∧
      ∃ position entity, entityAt state position = some entity ∧ entity.parent ≠ none
  first : state.formatVersion = 1 ↔
    (∀ position entity, entityAt state position = some entity → entity.tags = []) ∧
      ∀ position entity, entityAt state position = some entity → entity.parent = none
  tags : ∀ position entity,
    entityAt state position = some entity → entity.tags.Pairwise (· < ·)
  numbers : ∀ position entity, entityAt state position = some entity →
    ZeroNormalTransform entity.transform ∧ ZeroNormalTransform entity.localTransform
  rooted : ∀ position entity, entityAt state position = some entity →
    entity.parent = none → entity.localTransform = Transform.default

omit [Scalar α] in
theorem any_slots {state : Snapshot α} {test : Entity α → Bool} :
    (state.slots.any fun slot => slot.entity.any test) = true ↔
      ∃ position entity, entityAt state position = some entity ∧ test entity = true := by
  simp only [List.any_eq_true, Option.any_eq_true]
  constructor
  · intro found
    obtain ⟨slot, member, entity, held, passed⟩ := found
    obtain ⟨position, present⟩ := List.mem_iff_getElem?.mp member
    exact ⟨position, entity, entityAt_eq_some.mpr ⟨slot, present, held⟩, passed⟩
  · intro found
    obtain ⟨position, entity, there, passed⟩ := found
    obtain ⟨slot, present, held⟩ := entityAt_eq_some.mp there
    exact ⟨slot, List.mem_of_getElem? present, entity, held, passed⟩

omit [Scalar α] in
theorem any_tags {state : Snapshot α} :
    state.slots.any slotHasTags = true ↔
      ∃ position entity, entityAt state position = some entity ∧ entity.tags ≠ [] := by
  refine Iff.trans any_slots ?_
  simp

omit [Scalar α] in
theorem any_parent {state : Snapshot α} :
    state.slots.any slotHasParent = true ↔
      ∃ position entity, entityAt state position = some entity ∧ entity.parent ≠ none := by
  refine Iff.trans any_slots ?_
  simp [Option.isSome_iff_ne_none]

theorem zeroNormal_of_normal {value : Transform α} (normal : Normal value) :
    ZeroNormalTransform value := by
  have parts : normalizeTransform value = value := normal
  obtain ⟨⟨px, py, pz⟩, ⟨rx, ry, rz, rw_⟩, ⟨sx, sy, sz⟩⟩ := value
  simp only [normalizeTransform, Vec3.map, Quat.map, Transform.mk.injEq, Vec3.mk.injEq,
    Quat.mk.injEq] at parts
  obtain ⟨⟨_, _, _⟩, ⟨_, _, _, _⟩, _, _, _⟩ := parts
  intro number member
  simp only [components, Vec3.toList, Quat.toList, List.cons_append, List.nil_append,
    List.mem_cons, List.not_mem_nil, or_false] at member
  rcases member with rfl | rfl | rfl | rfl | rfl | rfl | rfl | rfl | rfl | rfl <;>
  assumption

/-- The prefab and the tags of a stored entity. -/
def StoredLabels (prefabId : Text) (tags : List Text) : Prop :=
  prefabId = ascii "builtin.unit_cube" ∧ tags.Pairwise (· < ·) ∧ tags.length ≤ 8 ∧
    ∀ tag ∈ tags, tag.length ≤ 32

theorem storedLabels_tagged {prefabId : Text} {tags : List Text}
    (builtin : prefabId = ascii "builtin.unit_cube") (few : tags.length ≤ 8)
    (valid : ∀ tag ∈ tags, validIdentifier 32 tag = true) (unique : tags.Nodup) :
    StoredLabels prefabId (sortTexts tags) := by
  have permuted : (sortTexts tags).Perm tags := List.perm_insertionSort _ tags
  refine ⟨builtin, ?_, permuted.length_eq ▸ few, ?_⟩
  · have apart : (sortTexts tags).Nodup := permuted.nodup_iff.mpr unique
    refine ((sortTexts_sorted tags).and apart).imp ?_
    intro left right both
    exact (List.le_iff_lt_or_eq.mp both.1).resolve_right both.2
  · intro tag member
    exact validIdentifier_length (valid tag (permuted.mem_iff.mp member))

theorem reachable_labels {library : JsonLibrary α} {allowed : Envelope α → Prop}
    {world : LiveWorld α} (reachable : ReachableBy library allowed world) :
    Labelled StoredLabels world.state := by
  refine ReachableBy.labelled ⟨rfl, List.Pairwise.nil, by simp, by simp⟩ ?_ reachable
  intro envelope change prefabId tags valid member stored
  obtain ⟨_, few, identifiers, unique⟩ := valid.operations _ member
  exact storedLabels_tagged stored.1 few identifiers unique

/-- What a reachable world was created with. -/
theorem reachable_created {library : JsonLibrary α} {allowed : Envelope α → Prop}
    {world : LiveWorld α} (reachable : ReachableBy library allowed world) :
    ∃ worldId seed maxSlots, validIdentifier 128 worldId = true ∧ maxSlots ≠ 0 ∧
      SlotsValid worldId seed maxSlots world.state := by
  refine @ReachableBy.invariant α _ library allowed
    (fun state => ∃ worldId seed maxSlots, validIdentifier 128 worldId = true ∧ maxSlots ≠ 0 ∧
      SlotsValid worldId seed maxSlots state) ?_ ?_ world reachable
  · intro worldId seed maxSlots state created
    obtain ⟨named, positive, _, _⟩ := create_eq_ok.mp created
    exact ⟨worldId, seed, maxSlots, named, positive, SlotsValid.fresh created⟩
  · intro state envelope next created _ held committed
    obtain ⟨worldId, seed, maxSlots, named, positive, valid⟩ := held
    exact ⟨worldId, seed, maxSlots, named, positive, valid.commit committed⟩

theorem reachable_slots {library : JsonLibrary α} {allowed : Envelope α → Prop}
    {world : LiveWorld α} (reachable : ReachableBy library allowed world) :
    ∃ worldId seed maxSlots, validIdentifier 128 worldId = true ∧
      SlotsValid worldId seed maxSlots world.state := by
  obtain ⟨worldId, seed, maxSlots, named, _, valid⟩ := reachable_created reachable
  exact ⟨worldId, seed, maxSlots, named, valid⟩

omit [Scalar α] in
theorem stagedFormat_cases (slots : List (Slot α)) :
    (stagedFormat slots = 3 ∧ slots.any slotHasTags = true) ∨
      (stagedFormat slots = 2 ∧ slots.any slotHasTags = false ∧
        slots.any slotHasParent = true) ∨
      (stagedFormat slots = 1 ∧ slots.any slotHasTags = false ∧
        slots.any slotHasParent = false) := by
  unfold stagedFormat
  by_cases tagged : slots.any slotHasTags = true
  · exact Or.inl ⟨if_pos tagged, tagged⟩
  · have plain := Bool.eq_false_of_not_eq_true tagged
    rw [if_neg tagged]
    by_cases linked : slots.any slotHasParent = true
    · exact Or.inr (Or.inl ⟨if_pos linked, plain, linked⟩)
    · exact Or.inr (Or.inr ⟨if_neg linked, plain, Bool.eq_false_of_not_eq_true linked⟩)

omit [Scalar α] in
theorem no_tags {state : Snapshot α} :
    state.slots.any slotHasTags = false ↔
      ∀ position entity, entityAt state position = some entity → entity.tags = [] := by
  rw [← Bool.not_eq_true, any_tags]
  push Not
  rfl

omit [Scalar α] in
theorem no_parents {state : Snapshot α} :
    state.slots.any slotHasParent = false ↔
      ∀ position entity, entityAt state position = some entity → entity.parent = none := by
  rw [← Bool.not_eq_true, any_parent]
  push Not
  rfl

theorem reachable_canonical {library : JsonLibrary α} {allowed : Envelope α → Prop}
    {world : LiveWorld α} (reachable : ReachableBy library allowed world) :
    CanonicalForm world.state := by
  have tidy := reachable_tidy reachable
  have labels := reachable_labels reachable
  have formats := stagedFormat_cases world.state.slots
  rw [← tidy.format] at formats
  refine ⟨?_, ?_, ?_, fun position entity there => (labels position entity there).2.1, ?_,
    reachable.sound.hierarchy.roots⟩
  · rw [← any_tags]
    rcases formats with ⟨format, tagged⟩ | ⟨format, plain, _⟩ | ⟨format, plain, _⟩
    · simp [format, tagged]
    · simp [format, plain]
    · simp [format, plain]
  · rw [← no_tags, ← any_parent]
    rcases formats with ⟨format, tagged⟩ | ⟨format, plain, linked⟩ | ⟨format, plain, rooted⟩
    · simp [format, tagged]
    · simp [format, plain, linked]
    · simp [format, plain, rooted]
  · rw [← no_tags, ← no_parents]
    rcases formats with ⟨format, tagged⟩ | ⟨format, plain, linked⟩ | ⟨format, plain, rooted⟩
    · simp [format, tagged]
    · simp [format, plain, linked]
    · simp [format, plain, rooted]
  · intro position entity there
    obtain ⟨stored, attached⟩ := tidy.normal position entity there
    exact ⟨zeroNormal_of_normal stored, zeroNormal_of_normal attached⟩

theorem reachable_encodable {library : JsonLibrary α} {allowed : Envelope α → Prop}
    {world : LiveWorld α} (reachable : ReachableBy library allowed world) :
    Encodable world.state := by
  have canonical := reachable_canonical reachable
  have labels := reachable_labels reachable
  have formats := stagedFormat_cases world.state.slots
  rw [← (reachable_tidy reachable).format] at formats
  obtain ⟨worldId, seed, maxSlots, named, valid⟩ := reachable_slots reachable
  have small := valid.small
  have bounded := valid.bounded
  have uuidLength (position : Nat) (slot : Slot α)
      (present : world.state.slots[position]? = some slot) :
      slot.entityUuid.length = 36 := by
    rw [valid.uuids position slot present]
    simp [Transactions.uuid, ascii]
  have short {text : Text} {bound : Nat} (within : text.length ≤ bound)
      (fits : bound ≤ 1024) : Short text := by
    have least : 1024 < 256 ^ 4 := by decide
    exact Nat.lt_of_le_of_lt (within.trans fits) least
  refine ⟨?_, ?_, ?_, ?_⟩
  · rcases formats with ⟨format, _⟩ | ⟨format, _⟩ | ⟨format, _⟩ <;> simp [format]
  · rw [valid.worldId_eq]
    exact short (validIdentifier_length named) (by decide)
  · have least : 1024 < 256 ^ 4 := by decide
    omega
  · intro slot member
    obtain ⟨position, present⟩ := List.mem_iff_getElem?.mp member
    refine ⟨uuidLength position slot present, ?_⟩
    intro entity held
    have there : entityAt world.state position = some entity :=
      entityAt_eq_some.mpr ⟨slot, present, held⟩
    obtain ⟨builtin, _, few, tagsShort⟩ := labels position entity there
    obtain ⟨stored, attached⟩ := canonical.numbers position entity there
    refine ⟨?_, stored, attached, ?_, canonical.rooted position entity there, ?_, ?_, ?_⟩
    · rw [builtin]
      exact short (Nat.le_refl _) (by decide)
    · intro link linked
      have live := liveAt_eq_some.mpr ⟨present, held⟩
      obtain ⟨parent, parentSlot, _, parentLive, _, sameUuid, _⟩ :=
        reachable.sound.hierarchy.links position slot entity link live linked
      rw [← sameUuid]
      exact uuidLength parent parentSlot (liveAt_eq_some.mp parentLive).1
    · intro early
      refine (canonical.first.mp ?_).2 position entity there
      rcases formats with ⟨format, _⟩ | ⟨format, _⟩ | ⟨format, _⟩
      · rw [format] at early
        exact absurd early (by decide)
      · rw [format] at early
        exact absurd early (by decide)
      · exact format
    · intro other
      by_contra tagged
      exact other (canonical.third.mpr ⟨position, entity, there, tagged⟩)
    · refine ⟨?_, fun tag member => short (tagsShort tag member) (by decide)⟩
      have least : 8 < 256 ^ 4 := by decide
      omega

/-- Two reachable worlds have the same canonical bytes exactly when they are the same
world, and every reachable world has its canonical form. -/
theorem canonical_bytes_identify {library otherLibrary : JsonLibrary α}
    {world other : LiveWorld α} (bits : BitsInjective α)
    (reachable : Reachable library world) (otherReachable : Reachable otherLibrary other) :
    (canonicalBytes world.state = canonicalBytes other.state ↔
        world.state = other.state) ∧
      CanonicalForm world.state := by
  refine ⟨⟨?_, fun same => by rw [same]⟩, reachable_canonical reachable⟩
  exact canonicalBytes_injective bits (reachable_encodable reachable)
    (reachable_encodable otherReachable)

theorem halves_bits : BitsInjective Halves := by
  intro left right same
  have leftBound := left.bounded
  have rightBound := right.bounded
  have numbers := congrArg UInt64.toNat same
  simp only [Scalar.bits, UInt64.ofInt, UInt64.toNat_ofNat'] at numbers
  obtain ⟨leftHalves, _⟩ := left
  obtain ⟨rightHalves, _⟩ := right
  simp only [Halves.mk.injEq]
  simp only at leftBound rightBound numbers
  omega

set_option maxRecDepth 20000 in
/-- A pair of linked cubes and the empty world it grew from. -/
theorem canonical_bytes_identify_pair :
    let world := (sampleApply sampleWorld createPair).world
    (canonicalBytes world.state = canonicalBytes sampleWorld.state ↔
        world.state = sampleWorld.state) ∧
      CanonicalForm world.state := by
  have fresh : Reachable JsonText.library sampleWorld :=
    @ReachableBy.fresh Halves _ _ _ 1 (ascii "world") 7 4 sampleWorld.state rfl
  have reached : Reachable JsonText.library (sampleApply sampleWorld createPair).world :=
    ReachableBy.call createPair none none none () () trivial fresh
  exact canonical_bytes_identify halves_bits reached fresh

end Omniweft.Authoring
