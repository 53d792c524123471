import Mathlib.Data.Matrix.Mul
import Mathlib.Order.Bounds.Basic
import Omniweft.GltfScene
import Omniweft.Placement

/-!
# The node graph of a GLB document

In exact arithmetic a node is placed by the product of the matrices above it, and the scene
lies within the bounds of what its roots reach.
-/

namespace Omniweft.Gltf

open Outcome

section Lineages

variable {α : Type}

/-- The nodes from the topmost ancestor of a node down to it. -/
inductive Lineage (declared : List (Node α)) : Nat → List (Node α) → Prop
  | top {id : Nat} {node : Node α} : declared[id]? = some node →
      (∀ parent, ¬Up declared id parent) → Lineage declared id [node]
  | under {id parent : Nat} {node : Node α} {path : List (Node α)} :
      declared[id]? = some node → Up declared id parent → Lineage declared parent path →
      Lineage declared id (path ++ [node])

theorem Lineage.unique {declared : List (Node α)} (once : (listed declared).Nodup) {id : Nat}
    {left right : List (Node α)} (one : Lineage declared id left)
    (two : Lineage declared id right) : left = right := by
  induction one generalizing right with
  | top there noParent =>
      cases two with
      | top again _ => rw [Option.some.inj (there.symm.trans again)]
      | under _ up _ => exact absurd up (noParent _)
  | under there up _ inductionHypothesis =>
      cases two with
      | top _ noParent => exact absurd up (noParent _)
      | under again upAgain above =>
          rw [up_unique once _ _ _ upAgain up] at above
          rw [inductionHypothesis above, Option.some.inj (there.symm.trans again)]

/-- The vertices of a node's mesh. -/
def verticesOf (meshes : List (Mesh α)) (node : Node α) : List (Vec3 α) :=
  match node.mesh with
  | none => []
  | some number => (meshes[number.toNat]?.map Mesh.positions).getD []

theorem vertices_eq_ok {meshes : List (Mesh α)} {node : Node α} {positions : List (Vec3 α)}
    (read : vertices meshes node = .ok positions) : positions = verticesOf meshes node := by
  unfold vertices at read
  unfold verticesOf
  cases mesh : node.mesh with
  | none =>
      rw [mesh] at read
      cases read
      rfl
  | some number =>
      rw [mesh] at read
      simp only [bind_eq_ok, pure_eq_ok] at read
      obtain ⟨found, there, rfl⟩ := read
      change found.positions = (meshes[number.toNat]?.map Mesh.positions).getD []
      rw [element_mem there]
      rfl

theorem vertices_passes {meshes : List (Mesh α)} {node : Node α}
    (meshed : ∀ number, node.mesh = some number → number.toNat < meshes.length) :
    vertices meshes node = .ok (verticesOf meshes node) := by
  unfold vertices verticesOf
  cases mesh : node.mesh with
  | none => rfl
  | some number =>
      have there := List.getElem?_eq_getElem (meshed number mesh)
      change (do
        let mesh ← element meshes number.toNat
        return mesh.positions) =
          .ok ((meshes[number.toNat]?.map Mesh.positions).getD [])
      rw [element_eq_ok there, there]
      rfl

end Lineages

section Exact

variable {F : Type} [Field F] [LinearOrder F] [IsStrictOrderedRing F] [ExactScalar F]

/-- The array of a matrix stores its columns. -/
def asMatrix (matrix : Mat4 F) : Matrix (Fin 4) (Fin 4) F :=
  Matrix.of fun row column => matrix column row

theorem multiply_exact (left right : Mat4 F) :
    ∃ out, multiply left right = .ok out ∧ asMatrix out = asMatrix left * asMatrix right := by
  refine ⟨_, rfl, ?_⟩
  ext row column
  rw [Matrix.mul_apply, Fin.sum_univ_four]
  change ((0 : Int) : F) + left 0 row * right column 0 + left 1 row * right column 1 +
    left 2 row * right column 2 + left 3 row * right column 3 = _
  rw [Int.cast_zero, zero_add]
  rfl

/-- The numerals of a point and its bound, whose proofs a definition names. -/
local instance fourNumeral : NeZero 4 := ⟨by decide⟩

local instance limitNumeral : Nat.AtLeastTwo 1000000000000 := ⟨by decide⟩

/-- The image of a point under a matrix. -/
def image (matrix : Matrix (Fin 4) (Fin 4) F) (point : Vec3 F) : Vec3 F :=
  let out := matrix.mulVec ![point.x, point.y, point.z, 1]
  ⟨out 0, out 1, out 2⟩

/-- No coordinate is out of range. -/
def InRange (point : Vec3 F) : Prop := ∀ k, |axis point k| ≤ 1000000000000

theorem moved_exact {matrix : Mat4 F} {point : Vec3 F} {row : Fin 4} {out : F} :
    moved matrix point row = .ok out ↔
      out = (asMatrix matrix).mulVec ![point.x, point.y, point.z, 1] row ∧
        |out| ≤ 1000000000000 := by
  have value : matrix 3 row + matrix 0 row * point.x + matrix 1 row * point.y +
      matrix 2 row * point.z = (asMatrix matrix).mulVec ![point.x, point.y, point.z, 1] row := by
    rw [Matrix.mulVec, dotProduct, Fin.sum_univ_four]
    change _ = matrix 0 row * point.x + matrix 1 row * point.y + matrix 2 row * point.z +
      matrix 3 row * 1
    ring
  have bound : exceeds 1000000000000 out = false ↔ |out| ≤ 1000000000000 := by
    change decide (((1000000000000 : Int) : F) < |out|) = false ↔ _
    rw [decide_eq_false_iff_not, not_lt]
    norm_num
  unfold moved
  simp only [bind_eq_ok, pure_eq_ok, rejectIf_eq_ok]
  rw [value]
  constructor
  · rintro ⟨_, _, _, small, rfl⟩
    exact ⟨rfl, bound.mp small⟩
  · rintro ⟨same, small⟩
    exact ⟨(), rfl, (), same ▸ bound.mpr small, same.symm⟩

theorem transform_exact {matrix : Mat4 F} {point moved : Vec3 F} :
    transform matrix point = .ok moved ↔
      moved = image (asMatrix matrix) point ∧ InRange (image (asMatrix matrix) point) := by
  unfold transform
  simp only [bind_eq_ok, pure_eq_ok, moved_exact]
  constructor
  · rintro ⟨_, ⟨rfl, x⟩, _, ⟨rfl, y⟩, _, ⟨rfl, z⟩, rfl⟩
    refine ⟨rfl, fun k => ?_⟩
    fin_cases k
    · exact x
    · exact y
    · exact z
  · rintro ⟨rfl, small⟩
    exact ⟨_, ⟨rfl, small 0⟩, _, ⟨rfl, small 1⟩, _, ⟨rfl, small 2⟩, rfl⟩

/-- Bounds are the componentwise extremes of a set of points; there are none of no points. -/
def Hull (points : Set (Vec3 F)) : Option (Bounds F) → Prop
  | none => points = ∅
  | some bounds => ∀ k, IsLeast ((axis · k) '' points) (axis bounds.minimum k) ∧
      IsGreatest ((axis · k) '' points) (axis bounds.maximum k)

theorem least_exact (left right : F) : least left right = min left right := by
  unfold least
  change (if decide (right < left) = true then right else left) = _
  by_cases smaller : right < left
  · rw [if_pos (decide_eq_true smaller), min_eq_right smaller.le]
  · rw [if_neg (by simpa using smaller), min_eq_left (not_lt.mp smaller)]

theorem greatest_exact (left right : F) : greatest left right = max left right := by
  unfold greatest
  change (if decide (left < right) = true then right else left) = _
  by_cases larger : left < right
  · rw [if_pos (decide_eq_true larger), max_eq_right larger.le]
  · rw [if_neg (by simpa using larger), max_eq_left (not_lt.mp larger)]

theorem Hull.grow {points : Set (Vec3 F)} {bounds : Option (Bounds F)} (hull : Hull points bounds)
    (point : Vec3 F) : Hull (points ∪ {point}) (some (grow bounds point)) := by
  intro k
  cases bounds with
  | none =>
      have none : points = ∅ := hull
      rw [none, Set.empty_union, Set.image_singleton]
      exact ⟨isLeast_singleton, isGreatest_singleton⟩
  | some bounds =>
      have before := hull k
      change IsLeast _ (axis (add bounds point).minimum k) ∧
        IsGreatest _ (axis (add bounds point).maximum k)
      rw [(axis_add bounds point k).1, (axis_add bounds point k).2, least_exact, greatest_exact,
        Set.image_union, Set.image_singleton]
      exact ⟨before.1.union isLeast_singleton, before.2.union isGreatest_singleton⟩

theorem Hull.merge {points others : Set (Vec3 F)} {bounds : Option (Bounds F)} {value : Bounds F}
    (hull : Hull points bounds) (other : Hull others (some value)) :
    Hull (points ∪ others) (some (merge bounds value)) := by
  cases bounds with
  | none =>
      have none : points = ∅ := hull
      rw [none, Set.empty_union]
      exact other
  | some bounds =>
      intro k
      have before := hull k
      have next := other k
      have ordered : axis value.minimum k ≤ axis value.maximum k := next.1.2 next.2.1
      change IsLeast _ (axis (add (add bounds value.minimum) value.maximum).minimum k) ∧
        IsGreatest _ (axis (add (add bounds value.minimum) value.maximum).maximum k)
      rw [(axis_add _ value.maximum k).1, (axis_add _ value.maximum k).2,
        (axis_add bounds value.minimum k).1, (axis_add bounds value.minimum k).2, least_exact,
        least_exact, greatest_exact, greatest_exact, min_assoc, max_assoc,
        min_eq_left ordered, max_eq_right ordered, Set.image_union]
      exact ⟨before.1.union next.1, before.2.union next.2⟩

/-- The loop over the vertices of a node. -/
theorem extend_spec {matrix : Mat4 F} (positions : List (Vec3 F)) :
    ∀ {points : Set (Vec3 F)} {bounds result : Option (Bounds F)}, Hull points bounds →
      positions.foldlM (extend matrix) bounds = .ok result →
      Hull (points ∪ image (asMatrix matrix) '' {vertex | vertex ∈ positions}) result ∧
        ∀ vertex ∈ positions, InRange (image (asMatrix matrix) vertex) := by
  induction positions with
  | nil =>
      intro points bounds result hull ended
      cases ended
      simpa using hull
  | cons vertex rest inductionHypothesis =>
      intro points bounds result hull run
      rw [List.foldlM_cons, bind_eq_ok] at run
      obtain ⟨next, step, continued⟩ := run
      unfold extend at step
      simp only [bind_eq_ok, pure_eq_ok] at step
      obtain ⟨moved, transformed, rfl⟩ := step
      obtain ⟨rfl, small⟩ := transform_exact.mp transformed
      obtain ⟨whole, inRange⟩ := inductionHypothesis (hull.grow _) continued
      constructor
      · have split : {other | other ∈ vertex :: rest} = {vertex} ∪ {other | other ∈ rest} := by
          ext other
          simp
        rw [split, Set.image_union, Set.image_singleton, ← Set.union_assoc]
        exact whole
      · intro other member
        rcases List.mem_cons.mp member with here | later
        · exact here ▸ small
        · exact inRange other later

theorem extend_passes {matrix : Mat4 F} {positions : List (Vec3 F)}
    (inRange : ∀ vertex ∈ positions, InRange (image (asMatrix matrix) vertex)) :
    ∀ bounds, ∃ result, positions.foldlM (extend matrix) bounds = .ok result := by
  refine foldlM_passes fun vertex member bounds => ?_
  refine ⟨some (grow bounds (image (asMatrix matrix) vertex)), ?_⟩
  unfold extend
  rw [transform_exact.mpr ⟨rfl, inRange vertex member⟩]
  rfl

/-- The origin. -/
def origin : Vec3 F := ⟨0, 0, 0⟩

theorem placeable_exact {meshes : List (Mesh F)} {node : Node F} {matrix : Mat4 F}
    {bounds : Option (Bounds F)} (placeable : Placeable meshes node matrix bounds) :
    (∀ point ∈ origin :: verticesOf meshes node, InRange (image (asMatrix matrix) point)) ∧
      Hull (image (asMatrix matrix) '' {vertex | vertex ∈ verticesOf meshes node}) bounds := by
  obtain ⟨⟨point, moved⟩, positions, read, drawn⟩ := placeable
  have zero : (⟨Scalar.ofInt 0, Scalar.ofInt 0, Scalar.ofInt 0⟩ : Vec3 F) = origin := by
    change (⟨((0 : Int) : F), ((0 : Int) : F), ((0 : Int) : F)⟩ : Vec3 F) = ⟨0, 0, 0⟩
    rw [Int.cast_zero]
  rw [zero] at moved
  rw [vertices_eq_ok read] at drawn
  obtain ⟨hull, inRange⟩ := extend_spec (verticesOf meshes node)
    (show Hull (∅ : Set (Vec3 F)) none from rfl) drawn
  rw [Set.empty_union] at hull
  refine ⟨?_, hull⟩
  intro other member
  rcases List.mem_cons.mp member with here | vertex
  · exact here ▸ (transform_exact.mp moved).2
  · exact inRange other vertex

theorem placeable_passes {meshes : List (Mesh F)} {node : Node F} {matrix : Mat4 F}
    (meshed : ∀ number, node.mesh = some number → number.toNat < meshes.length)
    (inRange : ∀ point ∈ origin :: verticesOf meshes node,
      InRange (image (asMatrix matrix) point)) :
    ∃ bounds, Placeable meshes node matrix bounds := by
  obtain ⟨bounds, drawn⟩ := extend_passes
    (fun vertex member => inRange vertex (List.mem_cons_of_mem _ member)) none
  have zero : (⟨Scalar.ofInt 0, Scalar.ofInt 0, Scalar.ofInt 0⟩ : Vec3 F) = origin := by
    change (⟨((0 : Int) : F), ((0 : Int) : F), ((0 : Int) : F)⟩ : Vec3 F) = ⟨0, 0, 0⟩
    rw [Int.cast_zero]
  refine ⟨bounds, ⟨image (asMatrix matrix) origin, ?_⟩, _, vertices_passes meshed, drawn⟩
  rw [zero]
  exact transform_exact.mpr ⟨rfl, inRange origin List.mem_cons_self⟩

/-- The product of the matrices along a path. -/
def along (path : List (Node F)) : Matrix (Fin 4) (Fin 4) F :=
  (path.map fun node => asMatrix node.localMatrix).prod

theorem along_snoc (path : List (Node F)) (node : Node F) :
    along (path ++ [node]) = along path * asMatrix node.localMatrix := by
  simp [along]

variable {meshes : List (Mesh F)} {declared : List (Node F)} {parents : Parents}

/-- A world matrix is the product along the lineage. -/
theorem World.lineage (linked : Linked parents = Up declared) {id : Nat} {matrix : Mat4 F}
    (world : World declared parents id matrix) :
    ∃ path, Lineage declared id path ∧ asMatrix matrix = along path := by
  induction world with
  | top there noParent =>
      refine ⟨_, Lineage.top there fun parent up => ?_, by simp [along]⟩
      rw [← linked, Linked, noParent] at up
      cases up
  | @child id parent node above matrix there parent world product inductionHypothesis =>
      obtain ⟨path, lineage, same⟩ := inductionHypothesis
      refine ⟨path ++ [node], Lineage.under there (linked ▸ parent) lineage, ?_⟩
      obtain ⟨out, multiplied, shape⟩ := multiply_exact above node.localMatrix
      rw [along_snoc, ← same, ← shape, Except.ok.inj (product.symm.trans multiplied)]

/-- Where the vertices of a node come to stand. -/
def drawnAt (meshes : List (Mesh F)) (declared : List (Node F)) (id : Nat) : Set (Vec3 F) :=
  {point | ∃ node path, declared[id]? = some node ∧ Lineage declared id path ∧
    ∃ vertex ∈ verticesOf meshes node, point = image (along path) vertex}

/-- What a node is after the walks. -/
structure WorldNode (meshes : List (Mesh F)) (declared : List (Node F)) (id : Nat)
    (result : Node F) : Prop where
  placed : ∃ node path, declared[id]? = some node ∧ Lineage declared id path ∧
    asMatrix result.worldMatrix = along path ∧
    result = { node with
      worldMatrix := result.worldMatrix, worldBounds := result.worldBounds }
  bounds : Hull (drawnAt meshes declared id) result.worldBounds

theorem Settled.worldNode {count : Nat} (adopted : Adopted count declared parents) {id : Nat}
    {result : Node F} (settled : Settled meshes declared parents id result) :
    WorldNode meshes declared id result := by
  obtain ⟨node, matrix, bounds, there, world, placeable, rfl⟩ := settled
  obtain ⟨path, lineage, same⟩ := world.lineage adopted.linked
  have hull := (placeable_exact placeable).2
  have drawn : image (asMatrix matrix) '' {vertex | vertex ∈ verticesOf meshes node} =
      drawnAt meshes declared id := by
    ext point
    constructor
    · rintro ⟨vertex, member, rfl⟩
      exact ⟨node, path, there, lineage, vertex, member, by rw [same]⟩
    · rintro ⟨other, otherPath, again, otherLineage, vertex, member, rfl⟩
      rw [otherLineage.unique adopted.once lineage, ← same]
      rw [← Option.some.inj (there.symm.trans again)] at member
      exact ⟨vertex, member, rfl⟩
  rw [drawn] at hull
  exact ⟨⟨node, path, there, lineage, same, rfl⟩, hull⟩

/-- Where the vertices of a node and of everything below it come to stand. -/
def drawnUnder (meshes : List (Mesh F)) (declared : List (Node F)) (root : Nat) :
    Set (Vec3 F) :=
  {point | ∃ id, Forest.Above (Up declared) id root ∧ point ∈ drawnAt meshes declared id}

theorem mem_drawnUnder (meshes : List (Mesh F)) (declared : List (Node F)) (root : Nat)
    (point : Vec3 F) : point ∈ drawnUnder meshes declared root ↔
      point ∈ drawnAt meshes declared root ∨
        ∃ child, Up declared child root ∧ point ∈ drawnUnder meshes declared child := by
  constructor
  · rintro ⟨id, above, drawn⟩
    rcases Relation.ReflTransGen.cases_tail above with same | ⟨child, path, up⟩
    · exact Or.inl (same ▸ drawn)
    · exact Or.inr ⟨child, up, id, path, drawn⟩
  · rintro (drawn | ⟨child, up, id, path, drawn⟩)
    · exact ⟨root, Relation.ReflTransGen.refl, drawn⟩
    · exact ⟨id, Relation.ReflTransGen.tail path up, drawn⟩

omit [Field F] [IsStrictOrderedRing F] [ExactScalar F] in
/-- A loop whose every round adds points adds them all. -/
theorem hull_loop {step : Option (Bounds F) → UInt32 → Except Text (Option (Bounds F))}
    {drawn : UInt32 → Set (Vec3 F)}
    (adds : ∀ {points : Set (Vec3 F)} {aggregate result : Option (Bounds F)} {id : UInt32},
      Hull points aggregate → step aggregate id = .ok result → Hull (points ∪ drawn id) result)
    (ids : List UInt32) :
    ∀ {points : Set (Vec3 F)} {aggregate result : Option (Bounds F)}, Hull points aggregate →
      ids.foldlM step aggregate = .ok result →
      Hull (points ∪ {point | ∃ id ∈ ids, point ∈ drawn id}) result := by
  induction ids with
  | nil =>
      intro points aggregate result hull ended
      cases ended
      simpa using hull
  | cons id rest inductionHypothesis =>
      intro points aggregate result hull run
      rw [List.foldlM_cons, bind_eq_ok] at run
      obtain ⟨next, stepped, continued⟩ := run
      have whole := inductionHypothesis (adds hull stepped) continued
      have split : {point | ∃ other ∈ id :: rest, point ∈ drawn other} =
          drawn id ∪ {point | ∃ other ∈ rest, point ∈ drawn other} := by
        ext point
        simp
      rw [split, ← Set.union_assoc]
      exact whole

/-- The descent from a node adds everything below it. -/
theorem aggregateNode_spec {nodes : List (Node F)}
    (up : ∀ child parent, Up nodes child parent ↔ Up declared child parent)
    (bounded : ∀ (id : Nat) result, nodes[id]? = some result →
      Hull (drawnAt meshes declared id) result.worldBounds) (depth : Nat) :
    ∀ {id : UInt32} {points : Set (Vec3 F)} {aggregate result : Option (Bounds F)},
      Hull points aggregate → aggregateNode nodes depth aggregate id = .ok result →
      Hull (points ∪ drawnUnder meshes declared id.toNat) result := by
  induction depth with
  | zero =>
      intro id points aggregate result _ run
      cases run
  | succ depth inductionHypothesis =>
      intro id points aggregate result hull run
      unfold aggregateNode at run
      rw [bind_eq_ok] at run
      obtain ⟨node, read, loop⟩ := run
      have there := element_mem read
      have own := bounded id.toNat node there
      have merged : Hull (points ∪ drawnAt meshes declared id.toNat)
          (match node.worldBounds with
            | none => aggregate
            | some bounds => some (merge aggregate bounds)) := by
        cases bounds : node.worldBounds with
        | none =>
            rw [bounds] at own
            have none : drawnAt meshes declared id.toNat = ∅ := own
            rw [none, Set.union_empty]
            exact hull
        | some value =>
            rw [bounds] at own
            exact hull.merge own
      have below := @hull_loop F _ (aggregateNode nodes depth)
        (fun child => drawnUnder meshes declared child.toNat)
        (fun hull step => inductionHypothesis hull step) node.children _ _ _ merged loop
      rw [Set.union_assoc] at below
      have split : drawnUnder meshes declared id.toNat =
          drawnAt meshes declared id.toNat ∪ {point | ∃ child ∈ node.children,
            point ∈ drawnUnder meshes declared child.toNat} := by
        ext point
        rw [mem_drawnUnder]
        refine or_congr_right ?_
        constructor
        · rintro ⟨child, link, drawn⟩
          obtain ⟨other, again, found, member, rfl⟩ := (up child id.toNat).mpr link
          rw [Option.some.inj (again.symm.trans there)] at member
          exact ⟨found, member, drawn⟩
        · rintro ⟨child, member, drawn⟩
          exact ⟨child.toNat, (up _ _).mp ⟨node, there, child, member, rfl⟩, drawn⟩
      rw [split]
      exact below

variable [Conversions F]

/-- The conditions on the declared nodes and the listed roots. -/
structure Accepted (meshes : List (Mesh F)) (declared : List (Node F)) (wanted : List UInt32) :
    Prop where
  once : (listed declared).Nodup
  acyclic : Forest.Acyclic (Up declared)
  distinct : wanted.Nodup
  parentless : ∀ root ∈ wanted, ∀ parent, ¬Up declared root.toNat parent
  drawn : ∃ root ∈ wanted, ∃ id node, Forest.Above (Up declared) id root.toNat ∧
    declared[id]? = some node ∧ node.mesh ≠ none
  inRange : ∀ (id : Nat) node path, declared[id]? = some node → Lineage declared id path →
    ∀ point ∈ origin :: verticesOf meshes node, InRange (image (along path) point)

/-- The scene that the nodes and roots describe. -/
structure Described (meshes : List (Mesh F)) (declared : List (Node F)) (wanted : List UInt32)
    (placed : Placed F) : Prop where
  roots : placed.roots = wanted
  sized : placed.nodes.length = declared.length
  nodes : ∀ (id : Nat) result, placed.nodes[id]? = some result →
    WorldNode meshes declared id result
  bounds : Hull {point | ∃ root ∈ wanted, point ∈ drawnUnder meshes declared root.toNat}
    (some placed.worldBounds)

omit [Conversions F] in
theorem AllSettled.hull {nodes : List (Node F)} {wanted : List UInt32}
    {aggregate : Option (Bounds F)} (adopted : Adopted declared.length declared parents)
    (settled : AllSettled meshes declared parents nodes)
    (aggregated : wanted.foldlM (aggregateNode nodes nodes.length) none = .ok aggregate) :
    Hull {point | ∃ root ∈ wanted, point ∈ drawnUnder meshes declared root.toNat}
      aggregate := by
  have start : Hull (∅ : Set (Vec3 F)) none := rfl
  have whole := @hull_loop F _ _ (fun root => drawnUnder meshes declared root.toNat)
    (fun hull step => aggregateNode_spec settled.up
      (fun id result there => ((settled.settled id result there).worldNode adopted).bounds) _
      hull step) wanted _ _ _ start aggregated
  rw [Set.empty_union] at whole
  exact whole

omit [Conversions F] in
theorem Established.described {placed : Placed F}
    (established : Established meshes declared parents placed) :
    Described meshes declared placed.roots placed where
  roots := rfl
  sized := established.settled.sized
  nodes id result there :=
    (established.settled.settled id result there).worldNode established.adopted
  bounds := established.settled.hull established.adopted established.aggregated

omit [Conversions F] in
theorem Established.accepted {placed : Placed F}
    (established : Established meshes declared parents placed) :
    Accepted meshes declared placed.roots where
  once := established.adopted.once
  acyclic := established.settled.acyclic established.adopted
  distinct := established.once
  parentless root member parent up := by
    have found := (established.adopted.parent _ _).mpr up
    rw [established.tops root member] at found
    cases found
  drawn := by
    obtain ⟨_, ⟨root, rootIn, id, above, node, path, there, _, vertex, member, _⟩, _⟩ :=
      (established.described.bounds 0).1.1
    refine ⟨root, rootIn, id, node, above, there, fun none => ?_⟩
    unfold verticesOf at member
    rw [none] at member
    cases member
  inRange id node path there lineage := by
    have settled := established.settled
    have inside : id < placed.nodes.length := by
      rw [settled.sized]
      exact (List.getElem?_eq_some_iff.mp there).1
    obtain ⟨other, matrix, bounds, again, world, placeable, _⟩ :=
      settled.settled id _ (List.getElem?_eq_getElem inside)
    obtain ⟨otherPath, otherLineage, same⟩ := world.lineage established.adopted.linked
    rw [← otherLineage.unique established.adopted.once lineage, ← same,
      Option.some.inj (there.symm.trans again)]
    exact (placeable_exact placeable).1

omit [Conversions F] in
/-- Accepted nodes can be placed. -/
theorem Accepted.passable {wanted : List UInt32} (accepted : Accepted meshes declared wanted)
    (meshed : ∀ node ∈ declared, ∀ number, node.mesh = some number →
      number.toNat < meshes.length) (linked : Linked parents = Up declared) :
    Passable meshes declared parents where
  inside child parent link := by
    rw [linked] at link
    exact link.inside
  product _ node _ above _ _ _ := by
    obtain ⟨out, multiplied, _⟩ := multiply_exact above node.localMatrix
    exact ⟨out, multiplied⟩
  placed id node matrix there world := by
    obtain ⟨path, lineage, same⟩ := world.lineage linked
    refine placeable_passes (meshed node (List.mem_of_getElem? there)) ?_
    rw [same]
    exact accepted.inRange id node path there lineage

/-- The node graph: `nodes` accepts the forests whose roots draw something in range, comes to
an end on every input, and gives every node the product of the matrices above it and the
scene the bounds of what its roots reach. The meshes are `filled`, as those that `meshes`
reads are, by `meshes_filled`. -/
theorem node_graph {input roots : Json F} {values items : List (Json F)} {wanted : List UInt32}
    (filled : ∀ mesh ∈ meshes, mesh.positions ≠ [])
    (listing : array input 8 true = .ok values)
    (reads : values.mapM (describeAlone values.length meshes.length) = .ok declared)
    (rootsListed : array roots 8 true = .ok items)
    (indices : items.mapM (fun root => index root values.length) = .ok wanted) :
    ((∃ placed, nodes meshes input roots = .ok placed) ↔ Accepted meshes declared wanted) ∧
      (∀ placed, nodes meshes input roots = .ok placed →
        Described meshes declared wanted placed) ∧
      ∀ anyInput anyRoots : Json F, nodes meshes anyInput anyRoots ≠ .error outOfRange := by
  have same {placed : Placed F} (run : nodes meshes input roots = .ok placed) :
      placed.roots = wanted ∧ ∃ parents, Established meshes declared parents placed := by
    obtain ⟨otherValues, otherDeclared, parents, otherItems, listingAgain, readsAgain,
      rootsAgain, indicesAgain, established⟩ := nodes_spec run
    rw [listing] at listingAgain
    cases listingAgain
    rw [reads] at readsAgain
    cases readsAgain
    rw [rootsListed] at rootsAgain
    cases rootsAgain
    exact ⟨Except.ok.inj (indicesAgain.symm.trans indices), parents, established⟩
  refine ⟨⟨?_, ?_⟩, ?_, ?_⟩
  · rintro ⟨placed, run⟩
    obtain ⟨rfl, parents, established⟩ := same run
    exact established.accepted
  · intro accepted
    obtain ⟨_, _, meshed⟩ := describeAlone_all values reads
    obtain ⟨parents, final, aggregate, adopted, settled, aggregated, shape⟩ :=
      nodes_pass listing reads rootsListed indices accepted.once accepted.acyclic
        accepted.distinct accepted.parentless fun parents linked =>
          accepted.passable meshed linked
    have hull := settled.hull adopted aggregated
    cases aggregate with
    | some bounds => exact ⟨_, shape⟩
    | none =>
        obtain ⟨root, rootIn, id, node, above, there, some⟩ := accepted.drawn
        have empty : {point | ∃ root ∈ wanted,
          point ∈ drawnUnder meshes declared root.toNat} = ∅ := hull
        have inside : id < final.length := by
          rw [settled.sized]
          exact (List.getElem?_eq_some_iff.mp there).1
        obtain ⟨_, _, _, _, world, _, _⟩ :=
          settled.settled id _ (List.getElem?_eq_getElem inside)
        obtain ⟨path, lineage, _⟩ := world.lineage adopted.linked
        obtain ⟨vertex, member⟩ : ∃ vertex, vertex ∈ verticesOf meshes node := by
          cases mesh : node.mesh with
          | none => exact absurd mesh some
          | some number =>
              have within := meshed node (List.mem_of_getElem? there) number mesh
              obtain ⟨vertex, member⟩ := List.exists_mem_of_ne_nil _
                (filled _ (List.getElem_mem within))
              refine ⟨vertex, ?_⟩
              unfold verticesOf
              simp only [mesh, List.getElem?_eq_getElem within, Option.map_some,
                Option.getD_some]
              exact member
        have drawn : image (along path) vertex ∈ {point | ∃ root ∈ wanted,
            point ∈ drawnUnder meshes declared root.toNat} :=
          ⟨root, rootIn, id, above, node, path, there, lineage, vertex, member, rfl⟩
        rw [empty] at drawn
        cases drawn
  · intro placed run
    obtain ⟨rfl, parents, established⟩ := same run
    exact established.described
  · intro anyInput anyRoots stopped
    exact nodes_coded meshes anyInput anyRoots outOfRange stopped rfl

end Exact

/-- The mesh of the triangle. -/
def triangleMeshes : List (Mesh ℚ) :=
  [⟨[⟨[⟨-1, 0, 0⟩, ⟨1, 0, 0⟩, ⟨0, 2, 0⟩], [0, 1, 2], none, ⟨⟨-1, 0, 0⟩, ⟨1, 2, 0⟩⟩⟩]⟩]

/-- The three nodes of the document. -/
def triangleNodes : List (Json ℚ) :=
  match triangleDocument.member (ascii "nodes") with
  | .array values => values
  | _ => []

set_option maxRecDepth 20000 in
theorem triangle_described :
    (triangleNodes.mapM (describeAlone 3 triangleMeshes.length)).toBool = true := by
  decide +kernel

set_option maxRecDepth 20000 in
theorem triangle_placed :
    (nodes triangleMeshes (.array triangleNodes) (.array [.unsigned 0])).toBool = true := by
  decide +kernel

/-- The triangle's nodes are placed from their one root. -/
theorem node_graph_triangle :
    ∃ (declared : List (Node ℚ)) (placed : Placed ℚ),
      nodes triangleMeshes (.array triangleNodes) (.array [.unsigned 0]) = .ok placed ∧
        Accepted triangleMeshes declared [0] ∧ Described triangleMeshes declared [0] placed := by
  have filled : ∀ mesh ∈ triangleMeshes, mesh.positions ≠ [] := by
    intro mesh member
    rw [List.mem_singleton.mp member]
    decide
  have passes := triangle_described
  have accepted := triangle_placed
  cases reads : triangleNodes.mapM (describeAlone 3 triangleMeshes.length) with
  | error code =>
      rw [reads] at passes
      cases passes
  | ok declared =>
      cases run : nodes triangleMeshes (.array triangleNodes) (.array [.unsigned 0]) with
      | error code =>
          rw [run] at accepted
          cases accepted
      | ok placed =>
          have listing : array (.array triangleNodes) 8 true = .ok triangleNodes := rfl
          have rootsListed : array (.array [Json.unsigned 0] : Json ℚ) 8 true =
              .ok [.unsigned 0] := rfl
          have indices : [(.unsigned 0 : Json ℚ)].mapM
              (fun root => index root triangleNodes.length) = .ok [0] := rfl
          obtain ⟨accepts, describes, _⟩ := node_graph filled listing reads rootsListed indices
          exact ⟨declared, placed, rfl, accepts.mp ⟨placed, run⟩, describes placed run⟩

end Omniweft.Gltf
