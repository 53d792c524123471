import Mathlib.Tactic.FinCases
import Omniweft.GltfNodes
import Omniweft.JsonText

/-!
# What the buffers of a GLB document give

Offsets, strides and counts come from the document and stand in one chain of
guarded subtractions. Once the chain has passed no address wraps, and the
elements an accessor decodes are the ones its layout names, inside its view.
-/

namespace Omniweft.Gltf

open Outcome

/-! ## Views -/

/-- A view that its buffer holds, before any accessor uses it. -/
structure View.Within (view : View) (length : Nat) : Prop where
  inside : view.offset.toNat + view.length.toNat ≤ length
  positive : 0 < view.length.toNat
  strided : view.stride = 0 ∨ (4 ≤ view.stride ∧ view.stride ≤ 252 ∧ view.stride % 4 = 0)
  target : view.target = 34963 → view.stride = 0
  unused : view.positions = 0 ∧ view.indices = 0

/-! ## Addresses -/

/-- Where element `number` starts, as a number. -/
def Layout.position (layout : Layout) (number : Nat) : Nat :=
  layout.base.toNat + layout.offset.toNat + number * layout.stride.toNat

/-- What the guards of a layout leave of its view. -/
structure Layout.Inside (layout : Layout) (view : View) : Prop where
  counted : 0 < layout.count.toNat
  stride : layout.kind.elementSize.toNat ≤ layout.stride.toNat
  last : layout.offset.toNat + (layout.count.toNat - 1) * layout.stride.toNat +
    layout.kind.elementSize.toNat ≤ view.length.toNat
  aligned : layout.offset.toNat % layout.kind.componentSize.toNat = 0 ∧
    (view.offset.toNat + layout.offset.toNat) % layout.kind.componentSize.toNat = 0 ∧
    layout.stride.toNat % layout.kind.componentSize.toNat = 0

theorem elementSize_positive (kind : Kind) : 0 < kind.elementSize.toNat := by
  cases kind <;> decide

/-- The sums and differences of the guards are those of the numbers. -/
structure Layout.Exact (layout : Layout) (view : View) : Prop where
  offset : layout.offset.toNat ≤ view.length.toNat
  rest : (view.length - layout.offset).toNat = view.length.toNat - layout.offset.toNat
  element : layout.kind.elementSize.toNat ≤ (view.length - layout.offset).toNat
  slack : (view.length - layout.offset - layout.kind.elementSize).toNat =
    (view.length - layout.offset).toNat - layout.kind.elementSize.toNat
  steps : (layout.count - 1).toNat + 1 = layout.count.toNat
  sum : (view.offset.toUInt64 + layout.offset.toUInt64).toNat =
    view.offset.toNat + layout.offset.toNat

/-- The guards are read in their order: none of the subtractions wraps, and the
division is by a positive stride. -/
theorem misplaced_eq_false {view : View} {layout : Layout} (counted : layout.count ≠ 0)
    (placed : misplaced view layout = false) : layout.Inside view ∧ layout.Exact view := by
  unfold misplaced at placed
  simp only [Bool.or_eq_false_iff, decide_eq_false_iff_not, UInt32.not_lt, bne_eq_false_iff_eq]
    at placed
  obtain ⟨⟨⟨⟨⟨⟨aligned, based⟩, stride⟩, strided⟩, offset⟩, element⟩, last⟩ := placed
  have one : 1 ≤ layout.count := by
    rw [UInt32.le_iff_toNat_le]
    have apart : layout.count.toNat ≠ 0 := fun zero =>
      counted (UInt32.toNat_inj.1 zero)
    change 1 ≤ layout.count.toNat
    omega
  have first : (view.length - layout.offset).toNat =
      view.length.toNat - layout.offset.toNat := UInt32.toNat_sub_of_le _ _ offset
  have second : (view.length - layout.offset - layout.kind.elementSize).toNat =
      view.length.toNat - layout.offset.toNat - layout.kind.elementSize.toNat := by
    rw [UInt32.toNat_sub_of_le _ _ element, first]
  have third : (layout.count - 1).toNat = layout.count.toNat - 1 :=
    UInt32.toNat_sub_of_le _ _ one
  have sum : (view.offset.toUInt64 + layout.offset.toUInt64).toNat =
      view.offset.toNat + layout.offset.toNat := by
    have viewSmall := view.offset.toNat_lt
    have layoutSmall := layout.offset.toNat_lt
    rw [UInt64.toNat_add, UInt32.toNat_toUInt64, UInt32.toNat_toUInt64]
    omega
  rw [UInt32.le_iff_toNat_le] at stride offset element one
  have sums : layout.Exact view :=
    { offset := offset
      rest := first
      element := element
      slack := by rw [second, first]
      steps := by
        change 1 ≤ layout.count.toNat at one
        omega
      sum := sum }
  refine ⟨?_, sums⟩
  have size := elementSize_positive layout.kind
  have quotient : layout.count.toNat - 1 ≤
      (view.length.toNat - layout.offset.toNat - layout.kind.elementSize.toNat) /
        layout.stride.toNat := by
    rw [← second, ← third, ← UInt32.toNat_div]
    exact UInt32.le_iff_toNat_le.mp last
  have product := (Nat.le_div_iff_mul_le (lt_of_lt_of_le size stride)).mp quotient
  rw [first] at element
  change 1 ≤ layout.count.toNat at one
  constructor
  · exact one
  · exact stride
  · omega
  · refine ⟨?_, ?_, ?_⟩
    · rw [← UInt32.toNat_mod, aligned]
      rfl
    · rw [← sum, ← UInt32.toNat_toUInt64, ← UInt64.toNat_mod, based]
      rfl
    · rw [← UInt32.toNat_mod, strided]
      rfl

/-- No address of an element or of a byte of it wraps or leaves the view. -/
theorem Layout.Inside.address {view : View} {layout : Layout} (inside : layout.Inside view)
    (base : layout.base = view.offset) {number : Nat} (counted : number < layout.count.toNat) :
    (layout.address (UInt32.ofNat number)).toNat = layout.position number ∧
      view.offset.toNat ≤ layout.position number ∧
      layout.position number + layout.kind.elementSize.toNat ≤
        view.offset.toNat + view.length.toNat := by
  have countSmall := layout.count.toNat_lt
  have viewSmall := view.offset.toNat_lt
  have lengthSmall := view.length.toNat_lt
  have numbered : (UInt32.ofNat number).toNat = number :=
    UInt32.toNat_ofNat_of_lt' (by change number < 4294967296; omega)
  have before : number * layout.stride.toNat ≤
      (layout.count.toNat - 1) * layout.stride.toNat :=
    Nat.mul_le_mul_right _ (by omega)
  have last := inside.last
  unfold Layout.position Layout.address
  rw [base]
  refine ⟨?_, by omega, by omega⟩
  simp only [UInt64.toNat_add, UInt64.toNat_mul, UInt32.toNat_toUInt64, numbered]
  rw [Nat.mod_eq_of_lt (show number * layout.stride.toNat < 2 ^ 64 by omega)]
  omega

section Scalars

variable {α : Type} [Scalar α] [Conversions α]

/-- A member that is not there leaves its default. -/
theorem optionalInteger_absent {value : Json α} {member : Text} {fallback found : UInt32}
    (absent : value.contains member = false)
    (read : optionalInteger value member fallback = .ok found) : found = fallback := by
  unfold optionalInteger optional at read
  rw [if_neg (by simp [absent])] at read
  cases read
  rfl

theorem view_within {length : Nat} {value : Json α} {found : View}
    (read : view length value = .ok found) : found.Within length := by
  unfold view at read
  simp only [bind_eq_ok, pure_eq_ok, rejectIf_eq_ok, Bool.or_eq_false_iff,
    decide_eq_false_iff_not, beq_eq_false_iff_ne, Bool.and_eq_false_iff, Nat.not_lt] at read
  obtain ⟨_, _, _, _, _, _, _, _, offset, _, byteLength, _, stride, strideRead, target, _,
    _, ⟨⟨positive, inside⟩, fits⟩, _, strided, _, _, _, apart, rfl⟩ := read
  constructor
  · change offset.toNat + byteLength.toNat ≤ length
    omega
  · change 0 < byteLength.toNat
    have apart : byteLength.toNat ≠ 0 := fun zero => positive (UInt32.toNat_inj.1 zero)
    omega
  · rcases strided with absent | ⟨⟨small, large⟩, whole⟩
    · exact Or.inl (optionalInteger_absent absent strideRead)
    · refine Or.inr ⟨UInt32.not_lt.mp small, UInt32.not_lt.mp large, ?_⟩
      simpa using whole
  · intro elements
    rcases apart with other | absent
    · exact absurd elements other
    · exact optionalInteger_absent absent strideRead
  · exact ⟨rfl, rfl⟩

/-! ## Elements -/

/-- The little-endian number that stands at a position. -/
def word (bin : Bytes) (position size : Nat) : UInt32 :=
  UInt32.ofNat (fromLittleEndian ((bin.drop position).take size))

/-- The coordinate that stands at a position as a `float`. -/
def coordinateAt (bin : Bytes) (position : Nat) : α :=
  Scalar.normalizeZero (Conversions.bitCast (word bin position 4))

def vertexAt (bin : Bytes) (position : Nat) : Vec3 α :=
  ⟨coordinateAt bin position, coordinateAt bin (position + 4), coordinateAt bin (position + 8)⟩

theorem coordinate_eq_ok {bin : Bytes} {address : UInt64} {found : α}
    (read : coordinate bin address = .ok found) : found = coordinateAt bin address.toNat := by
  unfold coordinate le32 at read
  simp only [bind_eq_ok, pure_eq_ok, rejectIf_eq_ok] at read
  obtain ⟨_, ⟨_, _, rfl⟩, _, _, _, _, rfl⟩ := read
  rfl

theorem readPosition_eq_ok {bin : Bytes} {address : UInt64} {found : Vec3 α}
    (whole : address.toNat + 12 < 2 ^ 64) (read : readPosition bin address = .ok found) :
    found = vertexAt bin address.toNat := by
  unfold readPosition at read
  simp only [bind_eq_ok, pure_eq_ok] at read
  obtain ⟨x, xRead, y, yRead, z, zRead, rfl⟩ := read
  have four : (address + 4).toNat = address.toNat + 4 := by
    rw [UInt64.toNat_add]
    exact Nat.mod_eq_of_lt (by change address.toNat + 4 < 2 ^ 64; omega)
  have eight : (address + 8).toNat = address.toNat + 8 := by
    rw [UInt64.toNat_add]
    exact Nat.mod_eq_of_lt (by change address.toNat + 8 < 2 ^ 64; omega)
  rw [coordinate_eq_ok xRead, coordinate_eq_ok yRead, coordinate_eq_ok zRead, four, eight]
  rfl

/-- The unchecked reads of an index stay inside. -/
theorem readBytes_eq {bin : Bytes} {count : Nat} :
    ∀ {address : UInt64}, address.toNat + count ≤ bin.length →
      address.toNat + count < 2 ^ 64 →
      readBytes bin address count = .ok ((bin.drop address.toNat).take count) := by
  induction count with
  | zero =>
      intro address _ _
      simp [readBytes]
  | succ count inductionHypothesis =>
      intro address fits whole
      have next : (address + 1).toNat = address.toNat + 1 := by
        rw [UInt64.toNat_add]
        exact Nat.mod_eq_of_lt (by change address.toNat + 1 < 2 ^ 64; omega)
      have inside : address.toNat < bin.length := by omega
      have rest := @inductionHypothesis (address + 1) (by omega) (by omega)
      have here : element bin address.toNat = .ok bin[address.toNat] := by
        simp [element, inside]
      rw [readBytes, here, rest, next, List.drop_eq_getElem_cons inside, List.take_succ_cons]
      rfl

theorem readIndex_eq_ok {kind : Kind} {bin : Bytes} {address : UInt64} {found : UInt32}
    (fits : address.toNat + kind.componentSize.toNat ≤ bin.length)
    (whole : address.toNat + kind.componentSize.toNat < 2 ^ 64)
    (read : readIndex kind bin address = .ok found) :
    found = word bin address.toNat kind.componentSize.toNat := by
  unfold readIndex at read
  rw [readBytes_eq fits whole, bind_eq_ok] at read
  obtain ⟨bytes, same, checked⟩ := read
  cases same
  simp only [bind_eq_ok, pure_eq_ok] at checked
  obtain ⟨_, _, rfl⟩ := checked
  rfl

/-- What the first elements of a layout decode to. -/
structure Decoded (bin : Bytes) (layout : Layout) (count : Nat) (decoded : Accessor α) :
    Prop where
  positions : decoded.positions =
    if layout.kind = .position then
      (List.range count).map fun number => vertexAt bin (layout.position number)
    else []
  indices : decoded.indices =
    if layout.kind = .position then []
    else (List.range count).map fun number =>
      word bin (layout.position number) layout.kind.componentSize.toNat

theorem componentSize_le (kind : Kind) :
    kind.componentSize.toNat ≤ kind.elementSize.toNat := by
  cases kind <;> decide

/-- One round of the element loop decodes the next element. -/
theorem Decoded.next {bin : Bytes} {view : View} {layout : Layout} {number : Nat}
    {before after : Accessor α} (inside : layout.Inside view) (base : layout.base = view.offset)
    (fits : view.offset.toNat + view.length.toNat ≤ bin.length)
    (counted : number < layout.count.toNat) (decoded : Decoded bin layout number before)
    (read : decodeElement layout bin before number = .ok after) :
    Decoded bin layout (number + 1) after := by
  obtain ⟨address, _, last⟩ := inside.address base counted
  have viewSmall := view.offset.toNat_lt
  have lengthSmall := view.length.toNat_lt
  have within := componentSize_le layout.kind
  unfold decodeElement at read
  cases kind : layout.kind with
  | position =>
      rw [kind] at read
      simp only [bind_eq_ok, pure_eq_ok] at read
      obtain ⟨position, positionRead, rfl⟩ := read
      have size : layout.kind.elementSize.toNat = 12 := by rw [kind]; rfl
      have vertex := readPosition_eq_ok (by rw [address]; omega) positionRead
      constructor
      · simp only [decoded.positions, kind, if_true, List.range_succ, List.map_append,
          List.map_cons, List.map_nil, vertex, address]
      · simp only [decoded.indices, kind, if_true]
  | byte | short | word =>
      rw [kind] at read
      simp only [bind_eq_ok, pure_eq_ok] at read
      obtain ⟨index, indexRead, rfl⟩ := read
      rw [← kind] at indexRead
      have vertex := readIndex_eq_ok (by rw [address]; omega) (by rw [address]; omega) indexRead
      constructor
      · simp [decoded.positions, kind]
      · rw [kind, address] at vertex
        simp only [decoded.indices, kind, List.range_succ, List.map_append, List.map_cons,
          List.map_nil, vertex]
        rfl

theorem decodeElements_decoded {bin : Bytes} {view : View} {layout : Layout}
    {decoded : Accessor α} (inside : layout.Inside view) (base : layout.base = view.offset)
    (fits : view.offset.toNat + view.length.toNat ≤ bin.length)
    (read : decodeElements layout bin = .ok decoded) :
    Decoded bin layout layout.count.toNat decoded := by
  have rounds (count : Nat) : count ≤ layout.count.toNat → ∀ found : Accessor α,
      (List.range count).foldlM (decodeElement layout bin) ⟨[], [], Bounds.zero⟩ = .ok found →
      Decoded bin layout count found := by
    induction count with
    | zero =>
        intro _ found run
        cases run
        constructor
        · simp
        · simp
    | succ count inductionHypothesis =>
        intro within found run
        rw [List.range_succ, List.foldlM_append, bind_eq_ok] at run
        obtain ⟨before, earlier, last⟩ := run
        rw [List.foldlM_cons, bind_eq_ok] at last
        obtain ⟨after, step, done⟩ := last
        cases done
        exact (inductionHypothesis (by omega) before earlier).next inside base fits
          (by omega) step
  exact rounds _ (Nat.le_refl _) decoded read

end Scalars

/-! ## Bounds -/

/-- The comparison of numbers is a strict order, as that of IEEE numbers is. -/
class ComparedScalar (α : Type) [Scalar α] : Prop where
  lt_irrefl : ∀ value : α, Scalar.lt value value = false
  lt_trans : ∀ first second third : α, Scalar.lt first second = true →
    Scalar.lt second third = true → Scalar.lt first third = true

/-- The coordinate of a vector along an axis. -/
def axis {α : Type} (vector : Vec3 α) : Fin 3 → α := ![vector.x, vector.y, vector.z]

/-- Along every axis some position has the smallest coordinate and none a smaller one, and
some position has the greatest and none a greater one. -/
structure Spans {α : Type} [Scalar α] (positions : List (Vec3 α)) (bounds : Bounds α) :
    Prop where
  attained : ∀ k, (∃ position ∈ positions, axis position k = axis bounds.minimum k) ∧
    ∃ position ∈ positions, axis position k = axis bounds.maximum k
  below : ∀ k, ∀ position ∈ positions,
    Scalar.lt (axis position k) (axis bounds.minimum k) = false
  above : ∀ k, ∀ position ∈ positions,
    Scalar.lt (axis bounds.maximum k) (axis position k) = false

section Bounds

variable {α : Type} [Scalar α]

theorem axis_add (bounds : Bounds α) (position : Vec3 α) (k : Fin 3) :
    axis (add bounds position).minimum k = least (axis bounds.minimum k) (axis position k) ∧
      axis (add bounds position).maximum k =
        greatest (axis bounds.maximum k) (axis position k) := by
  fin_cases k <;> exact ⟨rfl, rfl⟩

variable [ComparedScalar α]

theorem Spans.one (position : Vec3 α) : Spans [position] ⟨position, position⟩ where
  attained k := ⟨⟨position, List.mem_singleton_self _, rfl⟩,
    ⟨position, List.mem_singleton_self _, rfl⟩⟩
  below k other member := by
    rw [List.mem_singleton.mp member]
    exact ComparedScalar.lt_irrefl _
  above k other member := by
    rw [List.mem_singleton.mp member]
    exact ComparedScalar.lt_irrefl _

/-- What is not below the smaller of two is below neither. -/
theorem lt_least {value left right : α} (notLeft : Scalar.lt value left = false) :
    Scalar.lt value (least left right) = false := by
  unfold least
  by_cases smaller : Scalar.lt right left = true
  · rw [if_pos smaller]
    by_contra less
    rw [Bool.not_eq_false] at less
    rw [ComparedScalar.lt_trans _ _ _ less smaller] at notLeft
    cases notLeft
  · rw [if_neg smaller]
    exact notLeft

theorem least_lt (left right : α) : Scalar.lt right (least left right) = false := by
  unfold least
  by_cases smaller : Scalar.lt right left = true
  · rw [if_pos smaller]
    exact ComparedScalar.lt_irrefl _
  · rw [if_neg smaller]
    exact Bool.not_eq_true _ ▸ smaller

theorem greatest_lt {value left right : α} (notLeft : Scalar.lt left value = false) :
    Scalar.lt (greatest left right) value = false := by
  unfold greatest
  by_cases larger : Scalar.lt left right = true
  · rw [if_pos larger]
    by_contra less
    rw [Bool.not_eq_false] at less
    rw [ComparedScalar.lt_trans _ _ _ larger less] at notLeft
    cases notLeft
  · rw [if_neg larger]
    exact notLeft

theorem lt_greatest (left right : α) : Scalar.lt (greatest left right) right = false := by
  unfold greatest
  by_cases larger : Scalar.lt left right = true
  · rw [if_pos larger]
    exact ComparedScalar.lt_irrefl _
  · rw [if_neg larger]
    exact Bool.not_eq_true _ ▸ larger

theorem Spans.snoc {positions : List (Vec3 α)} {bounds : Bounds α}
    (spans : Spans positions bounds) (position : Vec3 α) :
    Spans (positions ++ [position]) (add bounds position) where
  attained k := by
    rw [(axis_add bounds position k).1, (axis_add bounds position k).2]
    obtain ⟨⟨low, lowMember, lowest⟩, ⟨high, highMember, highest⟩⟩ := spans.attained k
    have new : position ∈ positions ++ [position] :=
      List.mem_append_right _ (List.mem_singleton_self _)
    constructor
    · by_cases smaller : Scalar.lt (axis position k) (axis bounds.minimum k) = true
      · exact ⟨position, new, (if_pos smaller).symm⟩
      · exact ⟨low, List.mem_append_left _ lowMember, lowest.trans (if_neg smaller).symm⟩
    · by_cases larger : Scalar.lt (axis bounds.maximum k) (axis position k) = true
      · exact ⟨position, new, (if_pos larger).symm⟩
      · exact ⟨high, List.mem_append_left _ highMember, highest.trans (if_neg larger).symm⟩
  below k other member := by
    rw [(axis_add bounds position k).1]
    rcases List.mem_append.mp member with old | new
    · exact lt_least (spans.below k other old)
    · rw [List.mem_singleton.mp new]
      exact least_lt _ _
  above k other member := by
    rw [(axis_add bounds position k).2]
    rcases List.mem_append.mp member with old | new
    · exact greatest_lt (spans.above k other old)
    · rw [List.mem_singleton.mp new]
      exact lt_greatest _ _

/-- One round of the element loop keeps the bounds. -/
theorem Spans.next [Conversions α] {bin : Bytes} {layout : Layout} {number : Nat}
    {before after : Accessor α}
    (spans : before.positions ≠ [] → Spans before.positions before.bounds)
    (read : decodeElement layout bin before number = .ok after) :
    after.positions ≠ [] → Spans after.positions after.bounds := by
  intro some
  unfold decodeElement at read
  cases kind : layout.kind with
  | position =>
      rw [kind] at read
      simp only [bind_eq_ok, pure_eq_ok] at read
      obtain ⟨position, _, rfl⟩ := read
      by_cases first : before.positions = []
      · simp only [first, List.isEmpty_nil, if_true, List.nil_append, grow]
        exact Spans.one position
      · have later : before.positions.isEmpty = false := by simpa using first
        simp only [later, Bool.false_eq_true, if_false, grow]
        exact (spans first).snoc position
  | byte | short | word =>
      rw [kind] at read
      simp only [bind_eq_ok, pure_eq_ok] at read
      obtain ⟨index, _, rfl⟩ := read
      exact spans some

theorem decodeElements_spans [Conversions α] {bin : Bytes} {layout : Layout}
    {decoded : Accessor α} (read : decodeElements layout bin = .ok decoded) :
    decoded.positions ≠ [] → Spans decoded.positions decoded.bounds := by
  refine foldlM_invariant (fun current number next spans step => Spans.next spans step) _ ?_ read
  intro some
  exact absurd rfl some

end Bounds

/-! ## Accessors -/

/-- A view without the counts of its uses. -/
def View.bare (view : View) : View := { view with positions := 0, indices := 0 }

/-- What an accessor adds to the counts of its view. -/
theorem claim_spec {view used : View} {layout : Layout} (claimed : claim view layout = .ok used) :
    used.bare = view.bare ∧
      (view.positions ≤ used.positions ∧ view.indices ≤ used.indices) ∧
      (layout.kind = .position → used.positions ≠ 0) ∧
      (layout.kind ≠ .position → used.indices ≠ 0) ∧
      (used.positions = 0 ∨ used.indices = 0) := by
  unfold claim at claimed
  have apart {positions indices : Nat} (checked : (positions != 0 && indices != 0) = false) :
      positions = 0 ∨ indices = 0 := by
    simpa [or_iff_not_imp_left] using checked
  cases kind : layout.kind with
  | position =>
      rw [kind] at claimed
      simp only [bind_eq_ok, pure_eq_ok, rejectIf_eq_ok] at claimed
      obtain ⟨_, _, _, rfl, _, single, _, _, rfl⟩ := claimed
      refine ⟨rfl, ⟨Nat.le_succ _, Nat.le_refl _⟩, ?_, fun other => absurd rfl other, apart single⟩
      exact fun _ => Nat.succ_ne_zero _
  | byte | short | word =>
      rw [kind] at claimed
      simp only [bind_eq_ok, pure_eq_ok, rejectIf_eq_ok] at claimed
      obtain ⟨_, _, _, rfl, _, single, _, _, rfl⟩ := claimed
      refine ⟨rfl, ⟨Nat.le_refl _, Nat.le_succ _⟩, ?_, fun _ => Nat.succ_ne_zero _, apart single⟩
      exact fun other => by cases other

section Accessors

variable {α : Type} [Scalar α] [Conversions α]

/-- The layout that the members of an accessor declare, and the view it reads. -/
structure Laid (views : List View) (value : Json α) (number : Nat) (view : View)
    (layout : Layout) : Prop where
  viewed : ∃ found, index (value.member (ascii "bufferView")) views.length = .ok found ∧
    found.toNat = number
  held : views[number]? = some view
  kind : ∃ type component, text (value.member (ascii "type")) = .ok type ∧
    integer (value.member (ascii "componentType")) = .ok component ∧
    kindOf type component = .ok layout.kind
  base : layout.base = view.offset
  offset : optionalInteger value (ascii "byteOffset") 0 = .ok layout.offset
  stride : layout.stride = if view.stride == 0 then layout.kind.elementSize else view.stride
  count : integer (value.member (ascii "count")) = .ok layout.count

/-- The members determine the layout. -/
theorem Laid.unique {views : List View} {value : Json α} {first second : Nat}
    {left right : View} {one two : Layout} (laidOne : Laid views value first left one)
    (laidTwo : Laid views value second right two) :
    first = second ∧ left = right ∧ one = two := by
  obtain ⟨found, read, rfl⟩ := laidOne.viewed
  obtain ⟨again, readAgain, rfl⟩ := laidTwo.viewed
  rw [read] at readAgain
  injection readAgain with same
  subst same
  have sameView : left = right := Option.some.inj (laidOne.held.symm.trans laidTwo.held)
  subst sameView
  obtain ⟨_, _, typed, component, kinded⟩ := laidOne.kind
  obtain ⟨_, _, typedAgain, componentAgain, kindedAgain⟩ := laidTwo.kind
  rw [typed] at typedAgain
  rw [component] at componentAgain
  cases typedAgain
  cases componentAgain
  have sameKind : one.kind = two.kind := Except.ok.inj (kinded.symm.trans kindedAgain)
  have sameOffset : one.offset = two.offset :=
    Except.ok.inj (laidOne.offset.symm.trans laidTwo.offset)
  have sameCount : one.count = two.count := Except.ok.inj (laidOne.count.symm.trans laidTwo.count)
  have sameBase : one.base = two.base := laidOne.base.trans laidTwo.base.symm
  have sameStride : one.stride = two.stride := by
    rw [laidOne.stride, laidTwo.stride, sameKind]
  refine ⟨rfl, rfl, ?_⟩
  cases one
  cases two
  simp only at sameKind sameOffset sameCount sameBase sameStride
  rw [sameKind, sameOffset, sameCount, sameBase, sameStride]

/-- One round of the accessor loop. -/
theorem accessor_spec {bin : Bytes} {state next : Accessors α} {value : Json α}
    (step : accessor bin state value = .ok next) :
    ∃ number view layout used decoded, Laid state.views value number view layout ∧
      layout.count ≠ 0 ∧ misplaced view layout = false ∧ claim view layout = .ok used ∧
      decodeElements layout bin = .ok decoded ∧
      layout.count.toNat ≤ layout.kind.totalLimit - state.total layout.kind ∧
      next = { state.spend layout.kind layout.count.toNat with
        views := state.views.set number used, out := state.out ++ [decoded] } := by
  unfold accessor at step
  simp only [bind_eq_ok, pure_eq_ok, rejectIf_eq_ok, decide_eq_false_iff_not, Nat.not_lt,
    beq_eq_false_iff_ne] at step
  obtain ⟨_, _, _, _, _, _, _, _, number, viewed, view, held, component, componentRead, count,
    counted, type, typed, kind, kinded, _, positive, _, _, _, total, offset, offsetRead, _,
    placed, used, claimed, decoded, elements, _, _, rfl⟩ := step
  have found : state.views[number.toNat]? = some view := by
    unfold element at held
    cases there : state.views[number.toNat]? with
    | none =>
        rw [there] at held
        cases held
    | some other =>
        rw [there] at held
        cases held
        rfl
  have spent : (state.spend kind count.toNat).views = state.views ∧
      (state.spend kind count.toNat).out = state.out := by
    cases kind <;> exact ⟨rfl, rfl⟩
  refine ⟨number.toNat, view, ⟨kind, view.offset, offset,
    if view.stride == 0 then kind.elementSize else view.stride, count⟩, used, decoded, ?_,
    positive, placed, claimed, elements, total, ?_⟩
  · exact ⟨⟨number, viewed, rfl⟩, found, ⟨type, component, typed, componentRead, kinded⟩, rfl,
      offsetRead, rfl, counted⟩
  · rw [spent.1, spent.2]

/-- An accessor was decoded from its layout, inside its view. -/
structure Backed (views : List View) (bin : Bytes) (value : Json α) (accessor : Accessor α)
    (number : Nat) (view : View) (layout : Layout) : Prop where
  laid : Laid views value number view layout
  inside : layout.Inside view
  sums : layout.Exact view
  elements : Decoded bin layout layout.count.toNat accessor
  spans : layout.kind = .position → Spans accessor.positions accessor.bounds

/-- What the accessor loop has gathered from the values it has read. -/
structure Gathered (views : List View) (bin : Bytes) (done : List (Json α))
    (state : Accessors α) : Prop where
  bare : state.views.map View.bare = views.map View.bare
  placed : List.Forall₂ (fun value decoded => ∃ number view layout,
    Backed views bin value decoded number view layout) done state.out
  counted : ∀ value ∈ done, ∀ number view layout, Laid views value number view layout →
    ∃ now, state.views[number]? = some now ∧
      (layout.kind = .position → now.positions ≠ 0) ∧
      (layout.kind ≠ .position → now.indices ≠ 0)
  single : ∀ now ∈ state.views, now.positions = 0 ∨ now.indices = 0
  vertices : state.vertexTotal =
    (state.out.map fun decoded => decoded.positions.length).sum
  indices : state.indexTotal = (state.out.map fun decoded => decoded.indices.length).sum
  vertexCap : state.vertexTotal ≤ 1024
  indexCap : state.indexTotal ≤ 3072

theorem gathered_nil {views : List View} {bin : Bytes}
    (unused : ∀ view ∈ views, view.positions = 0 ∧ view.indices = 0) :
    @Gathered α _ _ views bin [] ⟨views, [], 0, 0⟩ where
  bare := rfl
  placed := List.Forall₂.nil
  counted := by
    intro value member
    cases member
  single now member := Or.inl (unused now member).1
  vertices := rfl
  indices := rfl
  vertexCap := Nat.zero_le _
  indexCap := Nat.zero_le _

/-- The counts of the views do not matter to a layout. -/
theorem Gathered.laid {views : List View} {bin : Bytes} {done : List (Json α)}
    {state : Accessors α} (gathered : Gathered views bin done state)
    (unused : ∀ view ∈ views, view.positions = 0 ∧ view.indices = 0) {value : Json α}
    {number : Nat} {view : View} {layout : Layout}
    (laid : Laid state.views value number view layout) :
    Laid views value number view.bare layout := by
  have sized : state.views.length = views.length := by
    rw [← List.length_map (f := View.bare), gathered.bare, List.length_map]
  have there : (state.views.map View.bare)[number]? = some view.bare := by
    rw [List.getElem?_map, laid.held]
    rfl
  rw [gathered.bare, List.getElem?_map] at there
  cases held : views[number]? with
  | none =>
      rw [held] at there
      cases there
  | some old =>
      rw [held] at there
      have empty := unused old (List.mem_of_getElem? held)
      have plain : old.bare = old := by
        cases old
        simp only [View.bare, View.mk.injEq, true_and] at empty ⊢
        exact ⟨empty.1.symm, empty.2.symm⟩
      have same : old = view.bare := plain.symm.trans (Option.some.inj there)
      obtain ⟨found, read, numbered⟩ := laid.viewed
      rw [sized] at read
      exact
        { viewed := ⟨found, read, numbered⟩
          held := held.trans (congrArg some same)
          kind := laid.kind
          base := laid.base
          offset := laid.offset
          stride := laid.stride
          count := laid.count }

theorem Decoded.lengths {bin : Bytes} {layout : Layout} {count : Nat} {decoded : Accessor α}
    (found : Decoded bin layout count decoded) :
    decoded.positions.length = (if layout.kind = .position then count else 0) ∧
      decoded.indices.length = if layout.kind = .position then 0 else count := by
  rw [found.positions, found.indices]
  by_cases kind : layout.kind = .position
  · simp [kind]
  · simp [kind]

omit [Scalar α] [Conversions α] in
theorem spend_totals (state : Accessors α) (kind : Kind) (count : Nat) :
    (state.spend kind count).vertexTotal =
        state.vertexTotal + (if kind = .position then count else 0) ∧
      (state.spend kind count).indexTotal =
        state.indexTotal + if kind = .position then 0 else count := by
  cases kind <;> exact ⟨rfl, rfl⟩

omit [Scalar α] [Conversions α] in
/-- The check of a count against its total keeps both caps. -/
theorem spend_caps {state : Accessors α} {kind : Kind} {count : Nat}
    (vertices : state.vertexTotal ≤ 1024) (indices : state.indexTotal ≤ 3072)
    (total : count ≤ kind.totalLimit - state.total kind) :
    (state.spend kind count).vertexTotal ≤ 1024 ∧ (state.spend kind count).indexTotal ≤ 3072 := by
  cases kind with
  | position =>
      change count ≤ 1024 - state.vertexTotal at total
      exact ⟨show state.vertexTotal + count ≤ 1024 by omega, indices⟩
  | byte | short | word =>
      change count ≤ 3072 - state.indexTotal at total
      exact ⟨vertices, show state.indexTotal + count ≤ 3072 by omega⟩

variable [ComparedScalar α]

/-- One round of the loop. -/
theorem Gathered.next {views : List View} {bin : Bytes} {done : List (Json α)}
    {state after : Accessors α} (gathered : Gathered views bin done state)
    (within : ∀ view ∈ views, view.Within bin.length) {value : Json α}
    (step : accessor bin state value = .ok after) :
    Gathered views bin (done ++ [value]) after := by
  have unused : ∀ view ∈ views, view.positions = 0 ∧ view.indices = 0 :=
    fun view member => (within view member).unused
  obtain ⟨number, view, layout, used, decoded, laid, counted, placed, claimed, elements, total,
    rfl⟩ := accessor_spec step
  obtain ⟨bare, grows, asPositions, asIndices, single⟩ := claim_spec claimed
  have plain := gathered.laid unused laid
  have fits := (within _ (List.mem_of_getElem? plain.held)).inside
  obtain ⟨inside, sums⟩ := misplaced_eq_false counted placed
  have read := decodeElements_decoded inside laid.base fits elements
  have lengths := read.lengths
  have spent := spend_totals state layout.kind layout.count.toNat
  have caps := spend_caps gathered.vertexCap gathered.indexCap total
  have numbered : number < state.views.length := (List.getElem?_eq_some_iff.mp laid.held).1
  have here : (state.views.set number used)[number]? = some used := by
    rw [List.getElem?_set_self numbered]
  constructor
  · change (state.views.set number used).map View.bare = _
    rw [← gathered.bare, List.map_set, bare]
    refine List.ext_getElem? fun other => ?_
    by_cases same : number = other
    · rw [← same, List.getElem?_set_self (by rw [List.length_map]; exact numbered),
        List.getElem?_map, laid.held]
      rfl
    · rw [List.getElem?_set_ne same]
  · refine List.rel_append gathered.placed (List.Forall₂.cons ?_ List.Forall₂.nil)
    refine ⟨number, view.bare, layout, plain, ⟨inside.counted, inside.stride, inside.last,
      inside.aligned⟩, ⟨sums.offset, sums.rest, sums.element, sums.slack, sums.steps, sums.sum⟩,
      read, fun kind => decodeElements_spans elements fun none => ?_⟩
    have some := lengths.1
    rw [if_pos kind, none, List.length_nil] at some
    exact absurd some.symm (Nat.ne_of_gt inside.counted)
  · intro earlier member other otherView otherLayout otherLaid
    rcases List.mem_append.mp member with old | new
    · obtain ⟨now, there, positions, indices⟩ :=
        gathered.counted earlier old other otherView otherLayout otherLaid
      by_cases same : number = other
      · subst same
        have sameView : now = view := Option.some.inj (there.symm.trans laid.held)
        rw [sameView] at positions indices
        refine ⟨used, here, fun kind => ?_, fun kind => ?_⟩
        · have before := positions kind
          omega
        · have before := indices kind
          omega
      · exact ⟨now, (List.getElem?_set_ne same).trans there, positions, indices⟩
    · rw [List.mem_singleton.mp new] at otherLaid
      obtain ⟨rfl, _, rfl⟩ := otherLaid.unique plain
      exact ⟨used, here, asPositions, asIndices⟩
  · intro now member
    rcases List.mem_or_eq_of_mem_set member with old | rfl
    · exact gathered.single now old
    · exact single
  · change (state.spend layout.kind layout.count.toNat).vertexTotal = _
    rw [spent.1, gathered.vertices, List.map_append, List.sum_append, ← lengths.1]
    rfl
  · change (state.spend layout.kind layout.count.toNat).indexTotal = _
    rw [spent.2, gathered.indices, List.map_append, List.sum_append, ← lengths.2]
    rfl
  · exact caps.1
  · exact caps.2

theorem accessors_gathered {views : List View} {bin : Bytes}
    (within : ∀ view ∈ views, view.Within bin.length) {input : Json α} {decoded : Accessors α}
    (read : accessors input views bin = .ok decoded) :
    ∃ values, array input 8 true = .ok values ∧ Gathered views bin values decoded := by
  unfold accessors at read
  rw [bind_eq_ok] at read
  obtain ⟨values, listed, run⟩ := read
  have rounds (rest : List (Json α)) : ∀ (done : List (Json α)) (state : Accessors α),
      Gathered views bin done state → rest.foldlM (accessor bin) state = .ok decoded →
      Gathered views bin (done ++ rest) decoded := by
    induction rest with
    | nil =>
        intro done state gathered ended
        cases ended
        rw [List.append_nil]
        exact gathered
    | cons value rest inductionHypothesis =>
        intro done state gathered continued
        rw [List.foldlM_cons, bind_eq_ok] at continued
        obtain ⟨next, step, remaining⟩ := continued
        have later := inductionHypothesis _ next (gathered.next within step) remaining
        rw [List.append_assoc] at later
        exact later
  refine ⟨values, listed, ?_⟩
  exact rounds values [] _ (gathered_nil fun view member => (within view member).unused) run

omit [ComparedScalar α] in
/-- No view serves both positions and indices. -/
theorem Gathered.apart {views : List View} {bin : Bytes} {done : List (Json α)}
    {state : Accessors α} (gathered : Gathered views bin done state) {first second : Json α}
    (firstIn : first ∈ done) (secondIn : second ∈ done) {number : Nat} {left right : View}
    {one two : Layout} (laidOne : Laid views first number left one)
    (laidTwo : Laid views second number right two) (positions : one.kind = .position) :
    two.kind = .position := by
  obtain ⟨now, there, asPositions, _⟩ := gathered.counted first firstIn number left one laidOne
  obtain ⟨again, thereAgain, _, asIndices⟩ :=
    gathered.counted second secondIn number right two laidTwo
  have same : now = again := Option.some.inj (there.symm.trans thereAgain)
  by_contra other
  rcases gathered.single now (List.mem_of_getElem? there) with none | none
  · exact asPositions positions none
  · exact asIndices other (same ▸ none)

end Accessors

/-! ## Meshes -/

section Meshes

variable {α : Type} [Scalar α] [Conversions α]

/-- A primitive whose references are valid. -/
structure Drawable (decoded : List (Accessor α)) (materialCount : Nat)
    (primitive : Primitive α) : Prop where
  positions : ∃ accessor ∈ decoded, primitive.positions = accessor.positions ∧
    primitive.bounds = accessor.bounds
  indices : ∃ accessor ∈ decoded, primitive.indices = accessor.indices
  drawn : primitive.positions ≠ [] ∧ primitive.indices ≠ []
  triangles : primitive.indices.length % 3 = 0
  vertices : ∀ vertex ∈ primitive.indices, vertex.toNat < primitive.positions.length
  material : ∀ number, primitive.material = some number → number.toNat < materialCount

/-- The counters of `meshes` count all primitives, and stay within the caps. -/
structure Summed (primitives : List (Primitive α)) (totals : Totals) : Prop where
  count : totals.primitives = primitives.length
  vertices : totals.vertices =
    (primitives.map fun primitive => primitive.positions.length).sum
  indices : totals.indices = (primitives.map fun primitive => primitive.indices.length).sum
  countCap : totals.primitives ≤ 4
  vertexCap : totals.vertices ≤ 1024
  indexCap : totals.indices ≤ 3072

theorem index_lt {value : Json α} {count : Nat} {found : UInt32}
    (read : index value count = .ok found) : found.toNat < count := by
  unfold index at read
  simp only [bind_eq_ok, pure_eq_ok, rejectIf_eq_ok, decide_eq_false_iff_not, Nat.not_le] at read
  obtain ⟨_, _, _, inside, rfl⟩ := read
  exact inside

omit [Scalar α] [Conversions α] in
theorem optional_eq_some {β : Type} {value : Json α} {member : Text}
    {read : Json α → Except Text β} {found : β}
    (there : optional value member read = .ok (some found)) :
    read (value.member member) = .ok found := by
  unfold optional at there
  by_cases contained : value.contains member = true
  · rw [if_pos contained] at there
    simp only [bind_eq_ok, pure_eq_ok, Option.some.injEq] at there
    obtain ⟨_, read, rfl⟩ := there
    exact read
  · rw [if_neg contained] at there
    cases there

theorem element_mem {β : Type} {items : List β} {position : Nat} {item : β}
    (read : element items position = .ok item) : items[position]? = some item := by
  unfold element at read
  cases there : items[position]? with
  | none =>
      rw [there] at read
      cases read
  | some other =>
      rw [there] at read
      cases read
      rfl

/-- One round of the inner loop. -/
theorem primitive_next {decoded : List (Accessor α)} {materialCount : Nat} {totals after : Totals}
    {before : List (Primitive α)} {out next : List (Primitive α)} {value : Json α}
    (summed : Summed (before ++ out) totals)
    (step : primitive decoded materialCount (totals, out) value = .ok (after, next)) :
    ∃ new, next = out ++ [new] ∧ Drawable decoded materialCount new ∧
      Summed (before ++ next) after := by
  unfold primitive at step
  simp only [bind_eq_ok, pure_eq_ok, rejectIf_eq_ok, decide_eq_false_iff_not, Nat.not_lt,
    Bool.or_eq_false_iff, List.isEmpty_eq_false_iff, bne_eq_false_iff_eq, Prod.mk.injEq,
    List.any_eq_false, decide_eq_true_eq, Nat.not_le] at step
  obtain ⟨_, few, _, _, _, _, _, _, _, _, _, _, _, _, p, pRead, _, _, i, iRead, _,
    ⟨⟨positions, indices⟩, triangles⟩, _, inside, _, ⟨vertices, corners⟩, material, materialRead,
    rfl, rfl⟩ := step
  have countCap := summed.countCap
  have vertexCap := summed.vertexCap
  have indexCap := summed.indexCap
  refine ⟨_, rfl, ?_, ?_⟩
  · exact
      { positions := ⟨p, List.mem_of_getElem? (element_mem pRead), rfl, rfl⟩
        indices := ⟨i, List.mem_of_getElem? (element_mem iRead), rfl⟩
        drawn := ⟨positions, indices⟩
        triangles := triangles
        vertices := inside
        material := by
          intro number some
          change material = _ at some
          rw [some] at materialRead
          exact index_lt (optional_eq_some materialRead) }
  · rw [← List.append_assoc]
    constructor
    · simp only [summed.count, List.length_append, List.length_singleton]
    · simp only [summed.vertices, List.map_append, List.sum_append, List.map_cons, List.map_nil,
        List.sum_cons, List.sum_nil, Nat.add_zero]
    · simp only [summed.indices, List.map_append, List.sum_append, List.map_cons, List.map_nil,
        List.sum_cons, List.sum_nil, Nat.add_zero]
    · exact few
    · change totals.vertices + _ ≤ 1024
      omega
    · change totals.indices + _ ≤ 3072
      omega

theorem primitives_loop {decoded : List (Accessor α)} {materialCount : Nat}
    {before : List (Primitive α)} (values : List (Json α)) :
    ∀ {totals after : Totals} {out final : List (Primitive α)},
      Summed (before ++ out) totals → (∀ one ∈ out, Drawable decoded materialCount one) →
      values.foldlM (primitive decoded materialCount) (totals, out) = .ok (after, final) →
      Summed (before ++ final) after ∧ (∀ one ∈ final, Drawable decoded materialCount one) ∧
        final.length = out.length + values.length := by
  induction values with
  | nil =>
      intro totals after out final summed drawable ended
      cases ended
      exact ⟨summed, drawable, rfl⟩
  | cons value rest inductionHypothesis =>
      intro totals after out final summed drawable run
      rw [List.foldlM_cons, bind_eq_ok] at run
      obtain ⟨⟨middle, next⟩, step, continued⟩ := run
      obtain ⟨new, rfl, drawn, counted⟩ := primitive_next summed step
      have each : ∀ one ∈ out ++ [new], Drawable decoded materialCount one := by
        intro one member
        rcases List.mem_append.mp member with old | last
        · exact drawable one old
        · exact List.mem_singleton.mp last ▸ drawn
      obtain ⟨total, all, length⟩ := inductionHypothesis counted each continued
      refine ⟨total, all, ?_⟩
      rw [length, List.length_append, List.length_singleton, List.length_cons]
      omega

/-- The meshes of a document: what they draw is valid, and each draws something. -/
structure Meshed (decoded : List (Accessor α)) (materialCount : Nat) (out : List (Mesh α)) :
    Prop where
  drawable : ∀ mesh ∈ out, ∀ one ∈ mesh.primitives, Drawable decoded materialCount one
  filled : ∀ mesh ∈ out, mesh.primitives ≠ []
  count : (out.flatMap Mesh.primitives).length ≤ 4
  vertices : ((out.flatMap Mesh.primitives).map fun one => one.positions.length).sum ≤ 1024
  indices : ((out.flatMap Mesh.primitives).map fun one => one.indices.length).sum ≤ 3072

omit [Scalar α] [Conversions α] in
theorem array_nonempty {value : Json α} {maximum : Nat} {items : List (Json α)}
    (read : array value maximum true = .ok items) : items ≠ [] ∧ items.length ≤ maximum := by
  unfold array at read
  cases value with
  | array entries =>
      simp only [bind_eq_ok, pure_eq_ok, rejectIf_eq_ok, Bool.true_and,
        List.isEmpty_eq_false_iff, decide_eq_false_iff_not, Nat.not_lt] at read
      obtain ⟨_, some, _, short, rfl⟩ := read
      exact ⟨some, short⟩
  | _ => cases read

theorem meshes_meshed {input : Json α} {decoded : List (Accessor α)} {materialCount : Nat}
    {out : List (Mesh α)} (read : meshes input decoded materialCount = .ok out) :
    Meshed decoded materialCount out := by
  unfold meshes at read
  simp only [bind_eq_ok, pure_eq_ok] at read
  obtain ⟨values, _, ⟨totals, _⟩, run, rfl⟩ := read
  have kept := @foldlM_invariant _ _ _ (mesh decoded materialCount)
    (fun state => Summed (state.2.flatMap Mesh.primitives) state.1 ∧
      ∀ mesh ∈ state.2, mesh.primitives ≠ [] ∧
        ∀ one ∈ mesh.primitives, Drawable decoded materialCount one) ?_ values _ _ ?_ run
  · obtain ⟨summed, each⟩ := kept
    refine ⟨fun mesh member => (each mesh member).2, fun mesh member => (each mesh member).1,
      ?_, ?_, ?_⟩
    · exact summed.count ▸ summed.countCap
    · exact summed.vertices ▸ summed.vertexCap
    · exact summed.indices ▸ summed.indexCap
  · rintro ⟨before, out⟩ value ⟨after, next⟩ ⟨summed, each⟩ step
    unfold mesh at step
    simp only [bind_eq_ok, pure_eq_ok, Prod.mk.injEq] at step
    obtain ⟨_, _, _, _, items, listed, ⟨counted, primitives⟩, inner, rfl, rfl⟩ := step
    obtain ⟨total, all, length⟩ := @primitives_loop α _ _ decoded materialCount
      (out.flatMap Mesh.primitives) items _ _ _ _ (by simpa using summed) (by simp) inner
    have some := (array_nonempty listed).1
    refine ⟨by simpa using total, ?_⟩
    intro mesh member
    rcases List.mem_append.mp member with old | new
    · exact each mesh old
    · rw [List.mem_singleton.mp new]
      refine ⟨?_, all⟩
      intro none
      have positive := List.length_pos_iff.mpr some
      change primitives = [] at none
      rw [none] at length
      simp only [List.length_nil] at length
      omega
  · refine ⟨⟨rfl, rfl, rfl, ?_, ?_, ?_⟩, ?_⟩ <;> simp

/-- Every mesh that is read has positions. -/
theorem meshes_filled {input : Json α} {decoded : List (Accessor α)} {materialCount : Nat}
    {out : List (Mesh α)} (read : meshes input decoded materialCount = .ok out) :
    ∀ mesh ∈ out, mesh.positions ≠ [] := by
  intro mesh member
  have meshed := meshes_meshed read
  obtain ⟨primitive, drawn⟩ := List.exists_mem_of_ne_nil _ (meshed.filled mesh member)
  have some := (meshed.drawable mesh member primitive drawn).drawn.1
  obtain ⟨position, there⟩ := List.exists_mem_of_ne_nil _ some
  exact List.ne_nil_of_mem (List.mem_flatMap.mpr ⟨primitive, drawn, there⟩)

end Meshes

/-! ## The whole document -/

section Safety

variable {α : Type} [Scalar α] [Conversions α]

/-- Every byte that an accessor reads has an address that does not wrap, in its view and in
the declared buffer. -/
def Reads (layout : Layout) (view : View) (length : Nat) : Prop :=
  ∀ number byte, number < layout.count.toNat → byte < layout.kind.elementSize.toNat →
    (layout.address (UInt32.ofNat number) + UInt64.ofNat byte).toNat =
        view.offset.toNat + layout.offset.toNat + number * layout.stride.toNat + byte ∧
      view.offset.toNat ≤ layout.position number + byte ∧
      layout.position number + byte < view.offset.toNat + view.length.toNat ∧
      layout.position number + byte < length

theorem Backed.reads {views : List View} {bin : Bytes} {value : Json α} {accessor : Accessor α}
    {number : Nat} {view : View} {layout : Layout}
    (backed : Backed views bin value accessor number view layout) {length : Nat}
    (within : view.Within length) : Reads layout view length := by
  intro element byte counted small
  obtain ⟨address, first, last⟩ := backed.inside.address backed.laid.base counted
  have inside := within.inside
  have viewSmall := view.offset.toNat_lt
  have lengthSmall := view.length.toNat_lt
  refine ⟨?_, by omega, by omega, by omega⟩
  have byteSmall : (UInt64.ofNat byte).toNat = byte :=
    UInt64.toNat_ofNat_of_lt' (by change byte < 18446744073709551616; omega)
  rw [UInt64.toNat_add, address, byteSmall, Nat.mod_eq_of_lt (by omega)]
  unfold Layout.position
  rw [backed.laid.base]

/-- What the buffers of a document give once it is read. -/
structure BufferSafe (document : Json α) (bin : Bytes) (length : Nat) (bufferViews : List View)
    (decoded : Accessors α) (materialCount : Nat) (meshList : List (Mesh α)) : Prop where
  declared : length ≤ bin.length
  views : ∀ view ∈ bufferViews, view.Within length
  accessors : ∃ values, array (document.member (ascii "accessors")) 8 true = .ok values ∧
    List.Forall₂ (fun value accessor => ∃ number view layout,
      Laid bufferViews value number view layout ∧ Reads layout view length ∧
        layout.Exact view ∧ Decoded (bin.take length) layout layout.count.toNat accessor ∧
        (layout.kind = .position → Spans accessor.positions accessor.bounds)) values decoded.out ∧
    ∀ first ∈ values, ∀ second ∈ values, ∀ number left right one two,
      Laid bufferViews first number left one → Laid bufferViews second number right two →
      one.kind = .position → two.kind = .position
  vertices : (decoded.out.map fun accessor => accessor.positions.length).sum ≤ 1024
  indices : (decoded.out.map fun accessor => accessor.indices.length).sum ≤ 3072
  meshes : Meshed decoded.out materialCount meshList

theorem views_within {input : Json α} {length : Nat} {found : List View}
    (read : views input length = .ok found) : ∀ view ∈ found, view.Within length := by
  unfold views at read
  rw [bind_eq_ok] at read
  obtain ⟨values, -, run⟩ := read
  induction values generalizing found with
  | nil =>
      cases run
      intro view member
      cases member
  | cons value rest inductionHypothesis =>
      rw [List.mapM_cons] at run
      simp only [bind_eq_ok, pure_eq_ok] at run
      obtain ⟨first, firstRead, others, othersRead, rfl⟩ := run
      intro view member
      rcases List.mem_cons.mp member with here | there
      · exact here ▸ view_within firstRead
      · exact inductionHypothesis othersRead view there

/-- The buffers of a document that reads: every byte lies in its view and in the declared
buffer, every element is the one its layout names, and every reference is valid. -/
theorem buffer_safety [ComparedScalar α] {document : Json α} {bin : Bytes} {length : UInt32}
    {bufferViews : List View} {decoded : Accessors α} {materialCount : Nat}
    {meshList : List (Mesh α)}
    (lengthRead : bufferLength (document.member (ascii "buffers")) bin = .ok length)
    (viewsRead : views (document.member (ascii "bufferViews")) length.toNat = .ok bufferViews)
    (accessorsRead : accessors (document.member (ascii "accessors")) bufferViews
      (bin.take length.toNat) = .ok decoded)
    (meshesRead : meshes (document.member (ascii "meshes")) decoded.out materialCount =
      .ok meshList) :
    BufferSafe document bin length.toNat bufferViews decoded materialCount meshList := by
  have declared : length.toNat ≤ bin.length := by
    unfold bufferLength at lengthRead
    simp only [bind_eq_ok, pure_eq_ok, rejectIf_eq_ok, Bool.or_eq_false_iff,
      decide_eq_false_iff_not, Nat.not_lt] at lengthRead
    obtain ⟨_, _, _, _, _, _, _, _, _, _, _, ⟨⟨_, inside⟩, _⟩, _, _, rfl⟩ := lengthRead
    exact inside
  have sized : (bin.take length.toNat).length = length.toNat := by
    rw [List.length_take]
    omega
  have within := views_within viewsRead
  obtain ⟨values, listed, gathered⟩ :=
    accessors_gathered (by rw [sized]; exact within) accessorsRead
  refine ⟨declared, within, ⟨values, listed, ?_, ?_⟩, ?_, ?_, meshes_meshed meshesRead⟩
  · refine gathered.placed.imp fun value accessor => ?_
    rintro ⟨number, view, layout, backed⟩
    exact ⟨number, view, layout, backed.laid,
      backed.reads (within view (List.mem_of_getElem? backed.laid.held)), backed.sums,
      backed.elements, backed.spans⟩
  · intro first firstIn second secondIn number left right one two laidOne laidTwo positions
    exact gathered.apart firstIn secondIn laidOne laidTwo positions
  · exact gathered.vertices ▸ gathered.vertexCap
  · exact gathered.indices ▸ gathered.indexCap

end Safety

/-! ## A document -/

section Sample

variable {α : Type}

/-- The document of one triangle, which three nodes place twice. -/
def triangleDocument : Json α :=
  let position : Json α := .object
    [(ascii "bufferView", .unsigned 0), (ascii "componentType", .unsigned 5126),
      (ascii "count", .unsigned 3),
      (ascii "max", .array [.unsigned 1, .unsigned 2, .unsigned 0]),
      (ascii "min", .array [.integer (-1), .unsigned 0, .unsigned 0]),
      (ascii "type", .string (ascii "VEC3"))]
  let corners : Json α := .object
    [(ascii "bufferView", .unsigned 1), (ascii "componentType", .unsigned 5123),
      (ascii "count", .unsigned 3), (ascii "type", .string (ascii "SCALAR"))]
  let positionView : Json α := .object
    [(ascii "buffer", .unsigned 0), (ascii "byteLength", .unsigned 36),
      (ascii "target", .unsigned 34962)]
  let cornerView : Json α := .object
    [(ascii "buffer", .unsigned 0), (ascii "byteLength", .unsigned 6),
      (ascii "byteOffset", .unsigned 36), (ascii "target", .unsigned 34963)]
  let triangle : Json α := .object
    [(ascii "attributes", .object [(ascii "POSITION", .unsigned 0)]),
      (ascii "indices", .unsigned 1)]
  let parent : Json α := .object
    [(ascii "children", .array [.unsigned 1]),
      (ascii "scale", .array [.unsigned 2, .unsigned 1, .unsigned 1]),
      (ascii "translation", .array [.unsigned 4, .unsigned 1, .unsigned 0])]
  let child : Json α := .object
    [(ascii "mesh", .unsigned 0),
      (ascii "rotation", .array [.unsigned 0, .unsigned 0, .unsigned 1, .unsigned 0]),
      (ascii "translation", .array [.unsigned 1, .unsigned 0, .unsigned 0])]
  let apart : Json α := .object
    [(ascii "mesh", .unsigned 0),
      (ascii "translation", .array [.unsigned 100, .unsigned 0, .unsigned 0])]
  .object
    [(ascii "accessors", .array [position, corners]),
      (ascii "asset", .object [(ascii "version", .string (ascii "2.0"))]),
      (ascii "bufferViews", .array [positionView, cornerView]),
      (ascii "buffers", .array [.object [(ascii "byteLength", .unsigned 42)]]),
      (ascii "meshes", .array [.object [(ascii "primitives", .array [triangle])]]),
      (ascii "nodes", .array [parent, child, apart]),
      (ascii "scene", .unsigned 0),
      (ascii "scenes", .array [.object [(ascii "nodes", .array [.unsigned 0])]])]

/-- Its buffer: the positions -1, 0, 0; 1, 0, 0; 0, 2, 0 as `float` and three indices. -/
def triangleBuffer : Bytes :=
  [0xbf800000, 0, 0, 0x3f800000, 0, 0, 0, 0x40000000, 0].flatMap (littleEndian · 4) ++
    [0, 0, 1, 0, 2, 0]

mutual

/-- The callbacks of a document. -/
def events : Json α → List (Event α)
  | .null => [.null]
  | .boolean _ => [.boolean]
  | .integer _ => [.numberInteger]
  | .unsigned _ => [.numberUnsigned]
  | .float value => [.numberFloat value]
  | .string value => [.string value]
  | .array items => .startArray :: (itemEvents items ++ [.endArray])
  | .object entries => .startObject :: (entryEvents entries ++ [.endObject])

def itemEvents : List (Json α) → List (Event α)
  | [] => []
  | item :: rest => events item ++ itemEvents rest

def entryEvents : List (Text × Json α) → List (Event α)
  | [] => []
  | (name, value) :: rest => .key name :: (events value ++ entryEvents rest)

end

end Sample

instance : ComparedScalar Halves where
  lt_irrefl value := by
    change decide (value.halves < value.halves) = false
    simp
  lt_trans first second third one two := by
    change decide (first.halves < third.halves) = true
    have less : first.halves < second.halves := of_decide_eq_true one
    have more : second.halves < third.halves := of_decide_eq_true two
    exact decide_eq_true (less.trans more)

/-- The chunk of the buffer, with two bytes of padding. -/
def triangleChunk : Bytes := triangleBuffer ++ [0, 0]

set_option maxRecDepth 20000 in
theorem triangle_reads :
    (do
      let bufferViews ← views ((triangleDocument : Json Halves).member (ascii "bufferViews")) 42
      let decoded : Accessors Halves ←
        accessors (triangleDocument.member (ascii "accessors")) bufferViews
          (triangleChunk.take 42)
      meshes (triangleDocument.member (ascii "meshes")) decoded.out 0 :
        Except Text (List (Mesh Halves))).toBool = true := by
  decide +kernel

/-- The triangle's buffers. -/
theorem buffer_safety_triangle :
    ∃ (bufferViews : List View) (decoded : Accessors Halves) (meshList : List (Mesh Halves)),
      meshes (triangleDocument.member (ascii "meshes")) decoded.out 0 = .ok meshList ∧
        BufferSafe triangleDocument triangleChunk 42 bufferViews decoded 0 meshList := by
  have passes := triangle_reads
  have lengthRead : bufferLength ((triangleDocument : Json Halves).member (ascii "buffers"))
      triangleChunk = .ok 42 := by decide +kernel
  cases viewsRead :
      views ((triangleDocument : Json Halves).member (ascii "bufferViews")) 42 with
  | error code =>
      rw [viewsRead] at passes
      cases passes
  | ok bufferViews =>
      rw [viewsRead] at passes
      change (do
        let decoded : Accessors Halves ←
          accessors (triangleDocument.member (ascii "accessors")) bufferViews
          (triangleChunk.take 42)
        meshes (triangleDocument.member (ascii "meshes")) decoded.out 0 :
          Except Text (List (Mesh Halves))).toBool = true at passes
      cases accessorsRead : accessors ((triangleDocument : Json Halves).member
          (ascii "accessors")) bufferViews (triangleChunk.take 42) with
      | error code =>
          rw [accessorsRead] at passes
          cases passes
      | ok decoded =>
          rw [accessorsRead] at passes
          change (meshes (triangleDocument.member (ascii "meshes")) decoded.out 0 :
            Except Text (List (Mesh Halves))).toBool = true at passes
          cases meshesRead : meshes ((triangleDocument : Json Halves).member
              (ascii "meshes")) decoded.out 0 with
          | error code =>
              rw [meshesRead] at passes
              cases passes
          | ok meshList =>
              exact ⟨bufferViews, decoded, meshList, meshesRead,
                buffer_safety lengthRead viewsRead accessorsRead meshesRead⟩

end Omniweft.Gltf
