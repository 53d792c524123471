import Mathlib.Tactic.IntervalCases
import Omniweft.CanonicalWorlds
import Omniweft.HierarchyCache
import Omniweft.Library.Blocks
import Omniweft.ObserveRuns
import Omniweft.PresentationBounds
import Omniweft.Stamping

/-!
# Reachable worlds are presented

`make_packet` checks again what the coordinator keeps over whole runs. In exact
arithmetic none of its checks stops a reachable world, and the packet shows the
live entities and nothing else.
-/

namespace Omniweft.Presentation

open Outcome World Transactions
open Commands (Envelope)
open Authoring (reachable_created reachable_labels reachable_tidy stagedFormat_cases)

section Slots

variable {α : Type} [Scalar α]

/-- No reachable slot has generation zero, and no retired one has an entity. -/
theorem reachable_cells {library : JsonLibrary α} {allowed : Envelope α → Prop}
    {world : LiveWorld α} (reachable : ReachableBy library allowed world) :
    ∀ cell ∈ cells world.state, cell.Valid := by
  refine (@ReachableBy.invariant α _ library allowed
    (fun state => (∃ worldId seed maxSlots, SlotsValid worldId seed maxSlots state) ∧
      ∀ cell ∈ cells state, cell.Valid) ?_ ?_ world reachable).2
  · intro worldId seed maxSlots state created
    refine ⟨⟨worldId, seed, maxSlots, SlotsValid.fresh created⟩, ?_⟩
    obtain ⟨_, _, _, same⟩ := create_eq_ok.mp created
    intro cell member
    rw [same] at member
    exact absurd member List.not_mem_nil
  · intro state envelope next created _ held committed
    refine @Commits.invariant α _ library
      (fun state => (∃ worldId seed maxSlots, SlotsValid worldId seed maxSlots state) ∧
        ∀ cell ∈ cells state, cell.Valid)
      state next envelope created ?_ ?_ held committed
    · intro operation index staging following _ current applied
      obtain ⟨⟨worldId, seed, maxSlots, slots⟩, valid⟩ := current
      obtain ⟨stepped, later⟩ := moment_step slots applied
      exact ⟨⟨worldId, seed, maxSlots, later⟩, stepped.valid valid⟩
    · intro staged formatVersion worldRevision current
      obtain ⟨⟨worldId, seed, maxSlots, slots⟩, valid⟩ := current
      exact ⟨⟨worldId, seed, maxSlots, slots.of_uuids ⟨rfl, rfl, rfl⟩ rfl⟩, valid⟩

theorem reachable_wellFormed {library : JsonLibrary α} {allowed : Envelope α → Prop}
    {world : LiveWorld α} (reachable : ReachableBy library allowed world) {slot : Slot α}
    (member : slot ∈ world.state.slots) : wellFormed slot = true := by
  obtain ⟨_, seed, _, _, _, slots⟩ := reachable_created reachable
  obtain ⟨position, present⟩ := List.mem_iff_getElem?.mp member
  have named : uuid slot.entityUuid = true := by
    rw [slots.uuids position slot present]
    exact validUuid_uuid seed position
  have cell := reachable_cells reachable (cellOf slot) (List.mem_map_of_mem member)
  have positive : 0 < slot.generation := UInt64.lt_iff_toNat_lt.mpr cell.positive
  have vacant : (slot.retired && slot.entity.isSome) = false := by
    by_cases retired : slot.retired = true
    · have empty : slot.entity.isSome = false := cell.empty retired
      rw [empty, Bool.and_false]
    · rw [Bool.eq_false_of_not_eq_true retired, Bool.false_and]
  simp [wellFormed, named, positive, vacant]

theorem reachable_framed {library : JsonLibrary α} {allowed : Envelope α → Prop}
    {world : LiveWorld α} (reachable : ReachableBy library allowed world) :
    (1 ≤ world.state.formatVersion ∧ world.state.formatVersion ≤ 3) ∧
      identifier world.state.worldId = true ∧ 0 < world.state.maxSlots ∧
      world.state.maxSlots ≤ 1024 ∧
      world.state.slots.length ≤ world.state.maxSlots.toNat := by
  obtain ⟨worldId, seed, maxSlots, named, positive, slots⟩ := reachable_created reachable
  have format : 1 ≤ world.state.formatVersion ∧ world.state.formatVersion ≤ 3 := by
    rw [(reachable_tidy reachable).format]
    rcases stagedFormat_cases world.state.slots with ⟨same, _⟩ | ⟨same, _⟩ | ⟨same, _⟩ <;>
    · rw [same]
      decide
  rw [slots.worldId_eq, slots.maxSlots_eq]
  exact ⟨format, named, UInt32.pos_iff_ne_zero.mpr positive,
    UInt32.le_iff_toNat_le.mpr slots.small, slots.bounded⟩

end Slots

section Exact

variable {F : Type} [Field F] [LinearOrder F] [IsStrictOrderedRing F] [ExactScalar F]
variable [SinglePrecision F]

/-- The clip coordinates of every corner are in the range of `float`. -/
def Representable (transform : Transform F) : Prop :=
  ∀ corner ∈ drawnCorners, ∀ axis,
    |component (clip Camera.default (transformed corner transform)) axis| ≤
      SinglePrecision.largest

/-- The vertex of a corner whose checks pass. -/
def cornerVertex (objectId : UInt32) (transform : Transform F) (color : Vector Nat 4)
    (corner : Vec3 F) : Vertex F :=
  let point := (clip Camera.default (transformed corner transform)).map SinglePrecision.narrow
  ⟨#v[point.x, point.y, point.z, 1], color.map channel, objectId⟩

/-- The indices of a face whose first vertex is `base`. -/
def triangles (base : Nat) : List UInt32 :=
  offsets.map fun offset => UInt32.ofNat base + offset

def faceVertices (objectId : UInt32) (transform : Transform F)
    (face : List (Vec3 F) × Vector Nat 4) : List (Vertex F) :=
  face.1.map (cornerVertex objectId transform face.2)

def objectVertices (objectId : UInt32) (transform : Transform F) : List (List (Vertex F)) :=
  (faces.zip colors).map (faceVertices objectId transform)

def objectIndices (start : Nat) : List (List UInt32) :=
  (List.range 6).map fun number => triangles (start + 4 * number)

theorem require_passes {condition : Bool} (holds : condition = true) :
    require condition = .ok () := by
  rw [holds]
  rfl

omit [SinglePrecision F] in
theorem finite_passes (values : List F) : finite values = .ok () := by
  apply require_passes
  simp [isFinite_exact]

omit [SinglePrecision F] in
theorem lessOrEqual_exact (left right : F) : lessOrEqual left right = true ↔ left ≤ right := by
  simp [lessOrEqual, lt_exact, eq_exact, le_iff_lt_or_eq]

theorem checkedFloat_passes {value : F} (small : |value| ≤ SinglePrecision.largest) :
    checkedFloat value = .ok (SinglePrecision.narrow value) := by
  have absolute : Scalar.abs value = |value| := rfl
  have inRange :
      (Scalar.isFinite value && lessOrEqual (Scalar.abs value) SinglePrecision.largest) = true := by
    simp [isFinite_exact, lessOrEqual_exact, absolute, small]
  simp only [checkedFloat, require_passes inRange, require_passes (isFinite_exact _),
    normalizeZero_exact]
  rfl

theorem drawCorner_passes {transform : Transform F} (representable : Representable transform)
    (objectId : UInt32) (color : Vector Nat 4) {packet : Packet F}
    (camera : packet.camera = Camera.default) {corner : Vec3 F}
    (listed : corner ∈ drawnCorners) :
    drawCorner objectId transform color packet corner =
      .ok { packet with
        vertices := packet.vertices ++ [cornerVertex objectId transform color corner] } := by
  have one : (Scalar.ofInt 1 : F) = 1 := by rw [ofInt_exact, Int.cast_one]
  set point := clip Camera.default (transformed corner transform) with clipped
  have x : |point.x| ≤ SinglePrecision.largest := representable corner listed 0
  have y : |point.y| ≤ SinglePrecision.largest := representable corner listed 1
  have z : |point.z| ≤ SinglePrecision.largest := representable corner listed 2
  simp only [drawCorner, finite_passes, camera, ← clipped, checkedFloat_passes x,
    checkedFloat_passes y, checkedFloat_passes z, one]
  rfl

theorem drawFace_passes {transform : Transform F} (representable : Representable transform)
    (objectId : UInt32) {packet : Packet F} (camera : packet.camera = Camera.default)
    {face : List (Vec3 F) × Vector Nat 4} (listed : ∀ corner ∈ face.1, corner ∈ drawnCorners) :
    drawFace objectId transform packet face =
      .ok { packet with
        vertices := packet.vertices ++ faceVertices objectId transform face
        indices := packet.indices ++ triangles packet.vertices.length } := by
  have drawn := @foldlM_builds (Packet F) (Vec3 F) Text
    (drawCorner objectId transform face.2)
    (fun done => { packet with
      vertices := packet.vertices ++ done.map (cornerVertex objectId transform face.2) })
    face.1 (by
      intro done corner rest split
      have member : corner ∈ face.1 := by
        rw [split]
        exact List.mem_append_right _ List.mem_cons_self
      have passes := @drawCorner_passes F _ _ _ _ _ transform representable objectId face.2
        { packet with
          vertices := packet.vertices ++ done.map (cornerVertex objectId transform face.2) }
        camera corner (listed corner member)
      rw [passes, List.map_append, List.append_assoc]
      rfl)
  rw [List.map_nil, List.append_nil] at drawn
  unfold drawFace
  rw [drawn]
  rfl

omit [SinglePrecision F] in
theorem zip_listed {face : List (Vec3 F) × Vector Nat 4} (member : face ∈ faces.zip colors) :
    face.1.length = 4 ∧ ∀ corner ∈ face.1, corner ∈ drawnCorners := by
  have inside : face.1 ∈ faces := (List.of_mem_zip member).1
  constructor
  · have four : ∀ listed ∈ (faces : List (List (Vec3 F))), listed.length = 4 := by
      simp [faces]
    exact four face.1 inside
  · intro corner listed
    exact List.mem_flatten.mpr ⟨face.1, inside, listed⟩

theorem drawFaces_passes {transform : Transform F} (representable : Representable transform)
    (objectId : UInt32) {packet : Packet F} (camera : packet.camera = Camera.default) :
    (faces.zip colors).foldlM (drawFace objectId transform) packet =
      .ok { packet with
        vertices := packet.vertices ++ (objectVertices objectId transform).flatten
        indices := packet.indices ++ (objectIndices packet.vertices.length).flatten } := by
  have drawn := @foldlM_builds (Packet F) (List (Vec3 F) × Vector Nat 4) Text
    (drawFace objectId transform)
    (fun done => { packet with
      vertices := packet.vertices ++ (done.map (faceVertices objectId transform)).flatten
      indices := packet.indices ++ ((List.range done.length).map fun number =>
        triangles (packet.vertices.length + 4 * number)).flatten })
    (faces.zip colors) (by
      intro done face rest split
      have member : face ∈ faces.zip colors := by
        rw [split]
        exact List.mem_append_right _ List.mem_cons_self
      have uniform :
          ∀ block ∈ done.map (faceVertices objectId transform), block.length = 4 := by
        intro block listed
        obtain ⟨before, earlier, rfl⟩ := List.mem_map.mp listed
        have known : before ∈ faces.zip colors := by
          rw [split]
          exact List.mem_append_left _ earlier
        rw [faceVertices, List.length_map]
        exact (zip_listed known).1
      have passes := @drawFace_passes F _ _ _ _ _ transform representable objectId
        { packet with
          vertices := packet.vertices ++ (done.map (faceVertices objectId transform)).flatten
          indices := packet.indices ++ ((List.range done.length).map fun number =>
            triangles (packet.vertices.length + 4 * number)).flatten }
        camera face (zip_listed member).2
      rw [passes]
      simp only [List.length_append, Blocks.length_flatten uniform, List.length_map,
        List.map_append, List.flatten_append, List.append_assoc, List.length_singleton,
        List.range_succ, List.map_cons, List.map_nil, List.flatten_cons, List.flatten_nil,
        List.append_nil])
  simp only [List.map_nil, List.flatten_nil, List.append_nil, List.length_nil,
    List.range_zero] at drawn
  exact drawn

/-- The entity of a slot, with the slot. -/
def liveEntity (slot : Slot F) : Option (Slot F × Entity F) :=
  slot.entity.map fun entity => (slot, entity)

def objectOf (position : Nat) (live : Slot F × Entity F) : Object F :=
  ⟨UInt32.ofNat position + 1, live.1.entityUuid, live.1.generation, live.2.authoringRevision,
    live.2.transform⟩

/-- The packet that shows these entities. -/
def picture (state : Snapshot F) (live : List (Slot F × Entity F)) : Packet F where
  worldId := state.worldId
  worldRevision := state.worldRevision
  camera := Camera.default
  objects := live.mapIdx objectOf
  vertices :=
    (live.mapIdx fun position shown =>
      (objectVertices (UInt32.ofNat position + 1) shown.2.transform).flatten).flatten
  indices := (live.mapIdx fun position _ => (objectIndices (24 * position)).flatten).flatten

theorem objectVertices_uniform (objectId : UInt32) (transform : Transform F) :
    ∀ block ∈ objectVertices objectId transform, block.length = 4 := by
  intro block member
  obtain ⟨face, listed, rfl⟩ := List.mem_map.mp member
  rw [faceVertices, List.length_map]
  exact (zip_listed listed).1

theorem objectVertices_length (objectId : UInt32) (transform : Transform F) :
    (objectVertices objectId transform).flatten.length = 24 := by
  rw [Blocks.length_flatten (objectVertices_uniform objectId transform)]
  rfl

theorem objectIndices_uniform (start : Nat) :
    ∀ block ∈ objectIndices start, block.length = 6 := by
  intro block member
  obtain ⟨number, _, rfl⟩ := List.mem_map.mp member
  rfl

theorem objectIndices_length (start : Nat) : (objectIndices start).flatten.length = 36 := by
  rw [Blocks.length_flatten (objectIndices_uniform start)]
  rfl

theorem picture_vertices_uniform (live : List (Slot F × Entity F)) :
    ∀ block ∈ live.mapIdx fun position shown =>
        (objectVertices (UInt32.ofNat position + 1) shown.2.transform).flatten,
      block.length = 24 := by
  intro block member
  obtain ⟨position, inside, rfl⟩ := List.mem_mapIdx.mp member
  exact objectVertices_length _ _

omit [Field F] [LinearOrder F]
  [IsStrictOrderedRing F] [ExactScalar F] [SinglePrecision F] in
theorem picture_indices_uniform (live : List (Slot F × Entity F)) :
    ∀ block ∈ live.mapIdx fun position _ => (objectIndices (24 * position)).flatten,
      block.length = 36 := by
  intro block member
  obtain ⟨position, inside, rfl⟩ := List.mem_mapIdx.mp member
  exact objectIndices_length _

theorem picture_vertices_length (state : Snapshot F) (live : List (Slot F × Entity F)) :
    (picture state live).vertices.length = 24 * live.length := by
  rw [picture, Blocks.length_flatten (picture_vertices_uniform live), List.length_mapIdx]

/-- One more entity. -/
theorem picture_append (state : Snapshot F) (live : List (Slot F × Entity F))
    (shown : Slot F × Entity F) :
    picture state (live ++ [shown]) =
      { picture state live with
        objects := (picture state live).objects ++ [objectOf live.length shown]
        vertices := (picture state live).vertices ++
          (objectVertices (UInt32.ofNat live.length + 1) shown.2.transform).flatten
        indices := (picture state live).indices ++
          (objectIndices (picture state live).vertices.length).flatten } := by
  rw [picture_vertices_length]
  simp [picture, List.mapIdx_append]

/-- What every entity of a reachable world passes. -/
structure Presentable (worldRevision : UInt64) (entity : Entity F) : Prop where
  prefabId : entity.prefabId = ascii "builtin.unit_cube"
  stamped : 1 ≤ entity.authoringRevision ∧ entity.authoringRevision ≤ worldRevision
  rigid : Rigid entity.transform

omit [SinglePrecision F] in
theorem Presentable.passes {worldRevision : UInt64} {entity : Entity F}
    (presented : Presentable worldRevision entity) :
    presentable worldRevision entity = .ok () := by
  obtain ⟨builtin, ⟨positive, bounded⟩, ⟨rotation, nonzero⟩⟩ := presented
  have stamped :
      (entity.prefabId == ascii "builtin.unit_cube" && decide (0 < entity.authoringRevision) &&
        decide (entity.authoringRevision ≤ worldRevision)) = true := by
    have counted : 0 < entity.authoringRevision := by
      rw [UInt64.lt_iff_toNat_lt]
      exact UInt64.le_iff_toNat_le.mp positive
    simp [builtin, counted, bounded]
  have turned :
      (Scalar.isFinite (squaredNorm entity.transform.rotationXyzw) &&
        lessOrEqual
          (Scalar.abs (squaredNorm entity.transform.rotationXyzw - Scalar.ofInt 1))
          Scalar.tolerance) = true := by
    have norm : squaredNorm entity.transform.rotationXyzw = 1 := rotation
    have near : Scalar.abs ((1 : F) - Scalar.ofInt 1) = 0 := by
      rw [ofInt_exact, Int.cast_one, sub_self]
      exact abs_zero
    have tolerant : (0 : F) ≤ Scalar.tolerance := by
      change (0 : F) ≤ 1 / 1000000000000
      positivity
    rw [norm, near, isFinite_exact, Bool.true_and, lessOrEqual_exact]
    exact tolerant
  have scaled :
      (entity.transform.scale.toList.all fun value => !Scalar.eq value (Scalar.ofInt 0)) =
        true := by
    rw [List.all_eq_true]
    intro value member
    have apart := nonzero value member
    simp [eq_exact, ofInt_exact, apart]
  simp only [presentable, require_passes stamped, finite_passes, require_passes turned,
    require_passes scaled]
  rfl

/-- The entities a loop has drawn when it has read these slots. -/
def progress (state : Snapshot F) (done : List (Slot F)) : Progress F where
  previous := (done.getLast?.map Slot.entityUuid).getD []
  packet := picture state (done.filterMap liveEntity)

theorem drawSlot_passes {state : Snapshot F} (done : List (Slot F)) {slot : Slot F}
    (apart : slot.entityUuid ≠ (progress state done).previous)
    (sound : ∀ entity, slot.entity = some entity →
      Presentable state.worldRevision entity ∧ Representable entity.transform) :
    drawSlot state.worldRevision (progress state done) slot =
      .ok (progress state (done ++ [slot])) := by
  have different : (slot.entityUuid != (progress state done).previous) = true := by
    simpa using apart
  cases held : slot.entity with
  | none =>
      have skipped : progress state (done ++ [slot]) =
          { progress state done with previous := slot.entityUuid } := by
        simp [progress, liveEntity, held]
      rw [skipped]
      simp only [drawSlot, require_passes different, held]
      rfl
  | some entity =>
      obtain ⟨presented, representable⟩ := sound entity held
      set live := done.filterMap liveEntity with shown
      have count : (progress state done).packet.objects.length = live.length := by
        simp [progress, picture, shown]
      have drawn :=
        @drawFaces_passes F _ _ _ _ _ entity.transform representable
          (UInt32.ofNat live.length + 1)
          { picture state live with
            objects := (picture state live).objects ++ [objectOf live.length (slot, entity)] }
          rfl
      have next : progress state (done ++ [slot]) =
          ⟨slot.entityUuid, picture state (live ++ [(slot, entity)])⟩ := by
        simp [progress, liveEntity, held, shown]
      simp only [drawSlot, require_passes different, held, presented.passes, count]
      change ((faces.zip colors).foldlM
        (drawFace (UInt32.ofNat live.length + 1) entity.transform)
        { picture state live with
          objects := (picture state live).objects ++ [objectOf live.length (slot, entity)] } >>=
        fun packet => (.ok ⟨slot.entityUuid, packet⟩ : Except Text (Progress F))) = _
      rw [drawn, next, picture_append]
      rfl

/-- The live entities of a world, in the order of their uuids. -/
def liveEntities (state : Snapshot F) : List (Slot F × Entity F) :=
  (Keyed.arrange Slot.entityUuid state.slots).filterMap liveEntity

omit [SinglePrecision F] in
theorem reachable_presentable {library : JsonLibrary F} {world : LiveWorld F}
    (reachable : ReachableBy library UnitRotations world) {slot : Slot F}
    (member : slot ∈ world.state.slots) {entity : Entity F} (held : slot.entity = some entity) :
    Presentable world.state.worldRevision entity := by
  obtain ⟨position, present⟩ := List.mem_iff_getElem?.mp member
  have there := entityAt_of_live present held
  exact ⟨(reachable_labels reachable position entity there).1,
    reachable_stamps reachable position entity there,
    (reachable.cached.2.rigid position entity there).1⟩

/-- The slot before another one in the sorted order has another uuid. -/
theorem previous_apart {state : Snapshot F} {slots done rest : List (Slot F)} {slot : Slot F}
    (ascending : Keyed.Ascending Slot.entityUuid slots) (named : slot.entityUuid ≠ [])
    (split : slots = done ++ slot :: rest) :
    slot.entityUuid ≠ (progress state done).previous := by
  intro same
  cases last : done.getLast? with
  | none =>
      rw [progress, last] at same
      exact named same
  | some before =>
      rw [progress, last] at same
      have member : before ∈ done := List.mem_of_getLast? last
      rw [split] at ascending
      have below := (List.pairwise_append.mp ascending).2.2 before member slot
        List.mem_cons_self
      rw [show slot.entityUuid = before.entityUuid from same] at below
      exact Std.lt_irrefl below

theorem makePacket_passes {library : JsonLibrary F} {world : LiveWorld F}
    (reachable : ReachableBy library UnitRotations world)
    (representable : ∀ slot ∈ world.state.slots, ∀ entity, slot.entity = some entity →
      Representable entity.transform) :
    makePacket world.state = .ok (picture world.state (liveEntities world.state)) := by
  obtain ⟨⟨first, last⟩, named, positive, small, few⟩ := reachable_framed reachable
  obtain ⟨_, _, _, _, _, slots⟩ := reachable_created reachable
  have formats :
      (decide (1 ≤ world.state.formatVersion) && decide (world.state.formatVersion ≤ 3) &&
        identifier world.state.worldId) = true := by
    simp [first, last, named]
  have capacity :
      (decide (0 < world.state.maxSlots) && decide (world.state.maxSlots ≤ 1024) &&
        decide (world.state.slots.length ≤ world.state.maxSlots.toNat)) = true := by
    simp [positive, small, few]
  have checked :
      (world.state.slots.forM fun slot => require (wellFormed slot)) = .ok () := by
    rw [forM_eq_ok]
    intro slot member
    exact require_passes (reachable_wellFormed reachable member)
  have ascending :=
    Keyed.arrange_ascending (Observe.slots_distinct slots)
  have drawn := @foldlM_builds (Progress F) (Slot F) Text (drawSlot world.state.worldRevision)
    (progress world.state) (Keyed.arrange Slot.entityUuid world.state.slots) (by
      intro done slot rest split
      have member : slot ∈ world.state.slots := by
        rw [← @Keyed.mem_arrange _ _ _ _ Slot.entityUuid, split]
        exact List.mem_append_right _ List.mem_cons_self
      have nonempty : slot.entityUuid ≠ [] := by
        intro empty
        have valid := reachable_wellFormed reachable member
        simp [wellFormed, uuid, Commands.validUuid, empty] at valid
      apply drawSlot_passes done (previous_apart ascending nonempty split)
      intro entity held
      exact ⟨reachable_presentable reachable member held,
        representable slot member entity held⟩)
  simp only [makePacket, require_passes formats, require_passes capacity, checked]
  change ((Keyed.arrange Slot.entityUuid world.state.slots).foldlM
    (drawSlot world.state.worldRevision) (progress world.state []) >>=
      fun drawn => (.ok drawn.packet : Except Text (Packet F))) = _
  rw [drawn]
  rfl

omit [Field F] [LinearOrder F]
  [IsStrictOrderedRing F] [ExactScalar F] [SinglePrecision F] in
theorem mem_liveEntities {state : Snapshot F} {slot : Slot F} {entity : Entity F} :
    (slot, entity) ∈ liveEntities state ↔ slot ∈ state.slots ∧ slot.entity = some entity := by
  simp only [liveEntities, List.mem_filterMap, Keyed.mem_arrange, liveEntity,
    Option.map_eq_some_iff, Prod.mk.injEq]
  constructor
  · rintro ⟨found, member, held, same, rfl, rfl⟩
    exact ⟨member, same⟩
  · rintro ⟨member, held⟩
    exact ⟨slot, member, entity, held, rfl, rfl⟩

/-- A packet that shows the live entities of a world. -/
structure Presented (state : Snapshot F) (packet : Packet F) : Prop where
  identity : packet.worldId = state.worldId ∧ packet.worldRevision = state.worldRevision ∧
    packet.camera = Camera.default
  numbered :
    ∀ position object, packet.objects[position]? = some object →
      object.objectId.toNat = position + 1
  ordered : packet.objects.Pairwise fun left right => left.entityUuid < right.entityUuid
  live :
    ∀ entityUuid generation authoringRevision transform,
      (∃ objectId, ⟨objectId, entityUuid, generation, authoringRevision, transform⟩ ∈
          packet.objects) ↔
        ∃ slot ∈ state.slots, ∃ entity, slot.entity = some entity ∧
          slot.entityUuid = entityUuid ∧ slot.generation = generation ∧
          entity.authoringRevision = authoringRevision ∧ entity.transform = transform
  counts : packet.vertices.length = 24 * packet.objects.length ∧
    packet.indices.length = 36 * packet.objects.length
  /-- Every index names a vertex of its own object. -/
  indexed :
    ∀ position object, packet.objects[position]? = some object → ∀ place, place < 36 →
      ∃ index vertex, packet.indices[36 * position + place]? = some index ∧
        packet.vertices[index.toNat]? = some vertex ∧ vertex.objectId = object.objectId
  /-- The four vertices of a face are its corners under the object's transform. -/
  corners :
    ∀ position object, packet.objects[position]? = some object →
      ∀ number face color, faces[number]? = some face → colors[number]? = some color →
        ∀ place corner, face[place]? = some corner →
          packet.vertices[24 * position + (4 * number + place)]? =
            some (cornerVertex object.objectId object.transform color corner)
  /-- Its two triangles share a diagonal and reach all four. -/
  covered :
    ∀ position object, packet.objects[position]? = some object → ∀ number, number < 6 →
      let base := 24 * position + 4 * number
      ∀ place, place < 6 →
        (packet.indices[36 * position + (6 * number + place)]?).map UInt32.toNat =
          [base, base + 1, base + 2, base + 2, base + 3, base][place]?

theorem picture_object {state : Snapshot F} {live : List (Slot F × Entity F)} {position : Nat}
    {object : Object F} (present : (picture state live).objects[position]? = some object) :
    ∃ shown, live[position]? = some shown ∧ object = objectOf position shown := by
  simp only [picture, List.getElem?_mapIdx, Option.map_eq_some_iff] at present
  obtain ⟨shown, there, same⟩ := present
  exact ⟨shown, there, same.symm⟩

theorem picture_vertex {state : Snapshot F} {live : List (Slot F × Entity F)} {position : Nat}
    {shown : Slot F × Entity F} (there : live[position]? = some shown) {number : Nat}
    {face : List (Vec3 F) × Vector Nat 4} (listed : (faces.zip colors)[number]? = some face)
    {place : Nat} {corner : Vec3 F} (inside : face.1[place]? = some corner) :
    (picture state live).vertices[24 * position + (4 * number + place)]? =
      some (cornerVertex (UInt32.ofNat position + 1) shown.2.transform face.2 corner) := by
  have four := (zip_listed (List.mem_of_getElem? listed)).1
  have within := (List.getElem?_eq_some_iff.mp inside).1
  have among : number < 6 := (List.getElem?_eq_some_iff.mp listed).1
  rw [picture, Blocks.getElem?_flatten (picture_vertices_uniform live) position (by omega),
    List.getElem?_mapIdx, there, Option.map_some, Option.bind_some,
    Blocks.getElem?_flatten (objectVertices_uniform _ _) number (by omega), objectVertices,
    List.getElem?_map, listed, Option.map_some, Option.bind_some, faceVertices,
    List.getElem?_map, inside]
  rfl

theorem picture_index {state : Snapshot F} {live : List (Slot F × Entity F)} {position : Nat}
    {shown : Slot F × Entity F} (there : live[position]? = some shown) {number place : Nat}
    (among : number < 6) (within : place < 6) :
    (picture state live).indices[36 * position + (6 * number + place)]? =
      (triangles (24 * position + 4 * number))[place]? := by
  rw [picture, Blocks.getElem?_flatten (picture_indices_uniform live) position (by omega),
    List.getElem?_mapIdx, there, Option.map_some, Option.bind_some,
    Blocks.getElem?_flatten (objectIndices_uniform _) number within, objectIndices,
    List.getElem?_map, List.getElem?_range among]
  rfl

/-- The triangles of a face, as numbers: no index of a packet wraps. -/
theorem triangles_toNat {base : Nat} (small : base + 3 < 2 ^ 32) :
    (triangles base).map UInt32.toNat =
      [base, base + 1, base + 2, base + 2, base + 3, base] := by
  have plain : (UInt32.ofNat base).toNat = base :=
    UInt32.toNat_ofNat_of_lt' (show base < 4294967296 by omega)
  have first : (1 : UInt32).toNat = 1 := rfl
  have second : (2 : UInt32).toNat = 2 := rfl
  have third : (3 : UInt32).toNat = 3 := rfl
  simp only [triangles, offsets, List.map_cons, List.map_nil, UInt32.toNat_add, plain,
    UInt32.toNat_zero, first, second, third, List.cons.injEq, and_true]
  omega

theorem triangle_corner {base place : Nat} (small : base + 3 < 2 ^ 32) (within : place < 6) :
    ∃ index offset, (triangles base)[place]? = some index ∧ offset < 4 ∧
      index.toNat = base + offset := by
  have entry : ∃ offset, offset < 4 ∧
      [base, base + 1, base + 2, base + 2, base + 3, base][place]? = some (base + offset) := by
    interval_cases place
    · exact ⟨0, by decide, rfl⟩
    · exact ⟨1, by decide, rfl⟩
    · exact ⟨2, by decide, rfl⟩
    · exact ⟨2, by decide, rfl⟩
    · exact ⟨3, by decide, rfl⟩
    · exact ⟨0, by decide, rfl⟩
  obtain ⟨offset, less, listed⟩ := entry
  rw [← triangles_toNat small, List.getElem?_map, Option.map_eq_some_iff] at listed
  obtain ⟨index, there, number⟩ := listed
  exact ⟨index, offset, there, less, number⟩

theorem picture_presented {state : Snapshot F} (few : state.slots.length ≤ 1024)
    (distinct : (state.slots.map Slot.entityUuid).Nodup) :
    Presented state (picture state (liveEntities state)) := by
  have bounded {position : Nat} {shown : Slot F × Entity F}
      (there : (liveEntities state)[position]? = some shown) : position < 1024 := by
    have inside := (List.getElem?_eq_some_iff.mp there).1
    have shorter : (liveEntities state).length ≤ state.slots.length := by
      rw [← @Keyed.arrange_length _ _ _ _ Slot.entityUuid state.slots]
      exact List.length_filterMap_le _ _
    omega
  have wrapless {position : Nat} {shown : Slot F × Entity F}
      (there : (liveEntities state)[position]? = some shown) {number : Nat} (among : number < 6) :
      24 * position + 4 * number + 3 < 2 ^ 32 := by
    have less := bounded there
    omega
  refine ⟨⟨rfl, rfl, rfl⟩, ?_, ?_, ?_, ⟨?_, ?_⟩, ?_, ?_, ?_⟩
  · intro position object present
    obtain ⟨shown, there, rfl⟩ := picture_object present
    have less := bounded there
    change (UInt32.ofNat position + 1).toNat = position + 1
    have one : (1 : UInt32).toNat = 1 := rfl
    rw [UInt32.toNat_add,
      UInt32.toNat_ofNat_of_lt' (show position < 4294967296 by omega), one]
    omega
  · have ascending := Keyed.arrange_ascending distinct
    have sorted : (liveEntities state).Pairwise fun left right =>
        left.1.entityUuid < right.1.entityUuid := by
      rw [liveEntities, List.pairwise_filterMap]
      refine ascending.imp ?_
      intro left right below leftShown leftSame rightShown rightSame
      simp only [liveEntity, Option.map_eq_some_iff] at leftSame rightSame
      obtain ⟨_, _, rfl⟩ := leftSame
      obtain ⟨_, _, rfl⟩ := rightSame
      exact below
    rw [List.pairwise_iff_getElem] at sorted ⊢
    intro first second firstInside secondInside order
    have inside := secondInside
    simp only [picture, List.length_mapIdx] at firstInside secondInside
    simpa [picture, objectOf] using sorted first second firstInside secondInside order
  · intro entityUuid generation authoringRevision transform
    constructor
    · rintro ⟨objectId, member⟩
      obtain ⟨position, present⟩ := List.mem_iff_getElem?.mp member
      obtain ⟨shown, there, same⟩ := picture_object present
      obtain ⟨slotMember, held⟩ := mem_liveEntities.mp (List.mem_of_getElem? there)
      simp only [objectOf, Object.mk.injEq] at same
      obtain ⟨_, rfl, rfl, rfl, rfl⟩ := same
      exact ⟨shown.1, slotMember, shown.2, held, rfl, rfl, rfl, rfl⟩
    · rintro ⟨slot, member, entity, held, rfl, rfl, rfl, rfl⟩
      obtain ⟨position, there⟩ := List.mem_iff_getElem?.mp (mem_liveEntities.mpr ⟨member, held⟩)
      refine ⟨UInt32.ofNat position + 1, List.mem_of_getElem? (i := position) ?_⟩
      simp [picture, there, objectOf]
  · rw [picture_vertices_length]
    simp [picture]
  · rw [picture, Blocks.length_flatten (picture_indices_uniform _)]
    simp
  · intro position object present place within
    obtain ⟨shown, there, rfl⟩ := picture_object present
    have among : place / 6 < 6 := by omega
    have split : place = 6 * (place / 6) + place % 6 := by omega
    have found := @picture_index F _ _ _ _ _ state _ position shown there (place / 6) (place % 6)
      among (Nat.mod_lt _ (by decide))
    rw [← split] at found
    obtain ⟨index, offset, listed, small, number⟩ :=
      triangle_corner (wrapless there among) (Nat.mod_lt place (by decide : 0 < 6))
    obtain ⟨face, drawn⟩ : ∃ face, (faces.zip colors : List (List (Vec3 F) × _))[place / 6]? =
        some face :=
      ⟨_, List.getElem?_eq_getElem among⟩
    have four := (zip_listed (List.mem_of_getElem? drawn)).1
    obtain ⟨corner, inside⟩ : ∃ corner, face.1[offset]? = some corner :=
      ⟨_, List.getElem?_eq_getElem (by rw [four]; exact small)⟩
    refine ⟨index, cornerVertex (UInt32.ofNat position + 1) shown.2.transform face.2 corner,
      found.trans listed, ?_, rfl⟩
    rw [number, Nat.add_assoc]
    exact picture_vertex there drawn inside
  · intro position object present number face color faceThere colorThere place corner inside
    obtain ⟨shown, there, rfl⟩ := picture_object present
    exact @picture_vertex F _ _ _ _ _ state _ position shown there number (face, color)
      (List.getElem?_zip_eq_some.mpr ⟨faceThere, colorThere⟩) place corner inside
  · intro position object present number among base place within
    obtain ⟨shown, there, rfl⟩ := picture_object present
    rw [picture_index there among within, ← triangles_toNat (wrapless there among),
      List.getElem?_map]

/-- Every reachable world with representable corners is presented as it is. -/
theorem every_world_presented {library : JsonLibrary F} {world : LiveWorld F}
    (reachable : ReachableBy library UnitRotations world)
    (representable : ∀ slot ∈ world.state.slots, ∀ entity, slot.entity = some entity →
      Representable entity.transform) :
    ∃ packet, makePacket world.state = .ok packet ∧ Presented world.state packet := by
  obtain ⟨_, _, _, _, _, slots⟩ := reachable_created reachable
  refine ⟨picture world.state (liveEntities world.state),
    makePacket_passes reachable representable, picture_presented ?_ (Observe.slots_distinct slots)⟩
  exact slots.bounded.trans slots.small

end Exact

/-- The transform of both cubes. -/
def tilted : Transform ℚ := ⟨⟨1, 0, 0⟩, ⟨3 / 5, 0, 0, 4 / 5⟩, ⟨2, 2, 2⟩⟩

set_option maxRecDepth 20000 in
theorem tilted_representable :
    ∀ slot ∈ tiltedWorld.state.slots, ∀ entity, slot.entity = some entity →
      Representable entity.transform := by
  have placed : tiltedWorld.state.slots.map (fun slot => slot.entity.map Entity.transform) =
      [some tilted, some tilted] := by decide +kernel
  intro slot member entity held
  have listed : some entity.transform ∈
      tiltedWorld.state.slots.map fun slot => slot.entity.map Entity.transform :=
    List.mem_map.mpr ⟨slot, member, by rw [held, Option.map_some]⟩
  have same : entity.transform = tilted := by simpa [placed] using listed
  have small : ∀ corner ∈ (faces.flatten : List (Vec3 ℚ)), ∀ axis,
      |component (clip Camera.default (transformed corner tilted)) axis| ≤
        SinglePrecision.largest := by decide +kernel
  rw [same]
  exact small

theorem every_world_presented_tilted :
    ∃ packet, makePacket tiltedWorld.state = .ok packet ∧
      Presented tiltedWorld.state packet :=
  every_world_presented
    (ReachableBy.call tiltPair none none none () () tiltPair_rotations
      (@ReachableBy.fresh ℚ _ _ _ 1 (ascii "world") 7 4 _ rfl))
    tilted_representable

end Omniweft.Presentation
