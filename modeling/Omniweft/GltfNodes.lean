import Mathlib.Data.Fin.VecNotation
import Mathlib.Data.Fintype.Pi
import Omniweft.Assets
import Omniweft.Gltf

/-!
# Nodes and the import of a GLB document

The last part of `gltf.cpp`: the node graph with its two recursive walks, the
whole decoder, and the import of a decoded document into the asset catalog.
-/

namespace Omniweft.Gltf

open Outcome

/-- Entry `column * 4 + row` of the array stands at `column` and `row`. -/
abbrev Mat4 (α : Type) := Fin 4 → Fin 4 → α

structure Node (α : Type) where
  mesh : Option UInt32
  children : List UInt32
  translation : Vec3 α
  rotation : Quat α
  scale : Vec3 α
  localMatrix : Mat4 α
  worldMatrix : Mat4 α
  worldBounds : Option (Bounds α)
  deriving DecidableEq

structure Scene (α : Type) where
  profile : UInt32
  sourceAsset : Assets.Asset
  roots : List UInt32
  meshes : List (Mesh α)
  nodes : List (Node α)
  materials : List (Material α)
  worldBounds : Bounds α
  deriving DecidableEq

section Scalars

variable {α : Type} [Scalar α]

def exceeds (limit : Int) (value : α) : Bool :=
  Scalar.lt (Scalar.ofInt limit) (Scalar.abs value)

/-- `local`: the node with its rotation normalised, and its matrix. -/
def localOf (node : Node α) : Except Text (Node α) := do
  rejectIf (node.translation.toList.any (exceeds 1000000)) (ascii "INVALID_TRANSFORM")
  rejectIf (node.scale.toList.any (exceeds 1000)) (ascii "INVALID_TRANSFORM")
  let norm := node.rotation.toList.foldl (fun total value => total + value * value)
    (Scalar.ofInt 0)
  rejectIf
    (!Scalar.isFinite norm ||
      Scalar.lt (Scalar.ofInt 1 / Scalar.ofInt 1000000)
        (Scalar.abs (norm - Scalar.ofInt 1)))
    (ascii "INVALID_TRANSFORM")
  let divisor := Scalar.sqrt norm
  let rotation := node.rotation.map fun value => value / divisor
  let ⟨x, y, z, w⟩ := rotation
  let scale := node.scale
  let zero : α := Scalar.ofInt 0
  let one : α := Scalar.ofInt 1
  let two : α := Scalar.ofInt 2
  let matrix : Mat4 α :=
    ![![(one - two * (y * y + z * z)) * scale.x, (two * (x * y + z * w)) * scale.x,
        (two * (x * z - y * w)) * scale.x, zero],
      ![(two * (x * y - z * w)) * scale.y, (one - two * (x * x + z * z)) * scale.y,
        (two * (y * z + x * w)) * scale.y, zero],
      ![(two * (x * z + y * w)) * scale.z, (two * (y * z - x * w)) * scale.z,
        (one - two * (x * x + y * y)) * scale.z, zero],
      ![node.translation.x, node.translation.y, node.translation.z, one]]
  return { node with rotation := rotation, localMatrix := matrix }

def multiply (a b : Mat4 α) : Except Text (Mat4 α) := do
  let out : Mat4 α := fun column row =>
    Scalar.ofInt 0 + a 0 row * b column 0 + a 1 row * b column 1 + a 2 row * b column 2 +
      a 3 row * b column 3
  rejectIf
    ((List.finRange 4).any fun column =>
      (List.finRange 4).any fun row => !Scalar.isFinite (out column row))
    (ascii "NONFINITE_VALUE")
  return out

/-- One row of `transform`. -/
def moved (matrix : Mat4 α) (value : Vec3 α) (row : Fin 4) : Except Text α := do
  let out := matrix 3 row + matrix 0 row * value.x + matrix 1 row * value.y +
    matrix 2 row * value.z
  rejectIf (!Scalar.isFinite out) (ascii "NONFINITE_VALUE")
  rejectIf (exceeds 1000000000000 out) (ascii "INVALID_TRANSFORM")
  return out

def transform (matrix : Mat4 α) (value : Vec3 α) : Except Text (Vec3 α) := do
  let x ← moved matrix value 0
  let y ← moved matrix value 1
  let z ← moved matrix value 2
  return ⟨x, y, z⟩

variable [Conversions α]

/-- The values `Node{}` has. -/
def Node.default : Node α :=
  let zero : α := Scalar.ofInt 0
  let one : α := Scalar.ofInt 1
  { mesh := none
    children := []
    translation := ⟨zero, zero, zero⟩
    rotation := ⟨zero, zero, zero, one⟩
    scale := ⟨one, one, one⟩
    localMatrix := fun _ _ => zero
    worldMatrix := fun _ _ => zero
    worldBounds := none }

/-- A node as its members describe it, up to its children. -/
def describe (meshCount : Nat) (value : Json α) : Except Text (Node α) := do
  fields value
    [ascii "mesh", ascii "children", ascii "translation", ascii "rotation", ascii "scale",
      ascii "name"] []
  name value
  let mesh ← optional value (ascii "mesh") fun found => index found meshCount
  let translation ← optional value (ascii "translation") vector3
  let rotation ← optional value (ascii "rotation") vector4
  let scale ← optional value (ascii "scale") vector3
  localOf { Node.default with
    mesh := mesh
    translation := translation.getD Node.default.translation
    rotation := rotation.getD Node.default.rotation
    scale := scale.getD Node.default.scale }

/-- The parents found so far; `none` stands for `-1`. -/
abbrev Parents := List (Option Nat)

def Parents.of (parents : Parents) (id : Nat) : Option Nat := parents[id]?.join

/-- One child of the node `number`. -/
def adopt (count number : Nat) (state : Parents × List UInt32) (child : Json α) :
    Except Text (Parents × List UInt32) := do
  let id ← index child count
  rejectIf (state.1.of id.toNat).isSome (ascii "INVALID_SCHEMA")
  return (state.1.set id.toNat (some number), state.2 ++ [id])

def childItems (value : Json α) : Except Text (List (Json α)) := do
  let found ← optional value (ascii "children") fun children => array children 8 true
  return found.getD []

structure Graph (α : Type) where
  parents : Parents
  nodes : List (Node α)

/-- One round of the loop over the declarations. -/
def declare (count meshCount : Nat) (graph : Graph α) (value : Json α) :
    Except Text (Graph α) := do
  let node ← describe meshCount value
  let items ← childItems value
  let (parents, children) ← items.foldlM (adopt count graph.nodes.length) (graph.parents, [])
  return ⟨parents, graph.nodes ++ [{ node with children := children }]⟩

/-- The states 0, 1 and 2 of a node. -/
inductive Mark where
  | fresh
  | open
  | done
  deriving DecidableEq, Repr

structure Walk (α : Type) where
  marks : List Mark
  nodes : List (Node α)

/-- A vertex moved and added to the bounds. -/
def extend (matrix : Mat4 α) (bounds : Option (Bounds α)) (vertex : Vec3 α) :
    Except Text (Option (Bounds α)) := do
  let p ← transform matrix vertex
  return some (grow bounds p)

def Mesh.positions (mesh : Mesh α) : List (Vec3 α) :=
  mesh.primitives.flatMap Primitive.positions

/-- The positions of a node's mesh, when it has one. -/
def vertices (meshes : List (Mesh α)) (node : Node α) : Except Text (List (Vec3 α)) :=
  match node.mesh with
  | none => .ok []
  | some number => do
      let mesh ← element meshes number.toNat
      return mesh.positions

/-- The end of `visit`: the node gets its matrix and its bounds. -/
def settle (meshes : List (Mesh α)) (id : Nat) (matrix : Mat4 α) (walk : Walk α) :
    Except Text (Walk α) := do
  let node ← element walk.nodes id
  let zero : α := Scalar.ofInt 0
  let _ ← transform matrix ⟨zero, zero, zero⟩
  let positions ← vertices meshes node
  let bounds ← positions.foldlM (extend matrix) node.worldBounds
  return {
    marks := walk.marks.set id .done
    nodes := walk.nodes.set id { node with worldMatrix := matrix, worldBounds := bounds } }

theorem count_fresh_set {marks : List Mark} {id : Nat} (fresh : marks[id]? = some .fresh) :
    (marks.set id .open).count .fresh < marks.count .fresh := by
  induction marks generalizing id with
  | nil => simp at fresh
  | cons mark rest inductionHypothesis =>
      cases id with
      | zero =>
          simp only [List.getElem?_cons_zero, Option.some.injEq] at fresh
          simp [fresh]
      | succ id =>
          simp only [List.getElem?_cons_succ] at fresh
          have less := inductionHypothesis fresh
          simp only [List.set_cons_succ, List.count_cons]
          omega

/-- `visit`. Each call opens a fresh node before it climbs to the parent. -/
def visit (parents : Parents) (meshes : List (Mesh α)) (id : Nat) (walk : Walk α) :
    Except Text (Walk α) :=
  match _found : walk.marks[id]? with
  | none => .error outOfRange
  | some .open => .error (ascii "INVALID_SCHEMA")
  | some .done => .ok walk
  | some .fresh =>
      let opened := { walk with marks := walk.marks.set id .open }
      match parents.of id with
      | none => do
          let node ← element opened.nodes id
          settle meshes id node.localMatrix opened
      | some parent => do
          let climbed ← visit parents meshes parent opened
          let node ← element climbed.nodes id
          let above ← element climbed.nodes parent
          let matrix ← multiply above.worldMatrix node.localMatrix
          settle meshes id matrix climbed
termination_by walk.marks.count .fresh
decreasing_by exact count_fresh_set _found

/-- One of the listed roots; `selected` is a set. -/
def selectRoot (parents : Parents) (count : Nat) (selected : List UInt32) (root : Json α) :
    Except Text (List UInt32) := do
  let id ← index root count
  rejectIf ((parents.of id.toNat).isSome || selected.contains id) (ascii "INVALID_SCHEMA")
  return selected ++ [id]

/-- `aggregate_node`, to a depth. The source recurses without a bound. -/
def aggregateNode (nodes : List (Node α)) :
    Nat → Option (Bounds α) → UInt32 → Except Text (Option (Bounds α))
  | 0, _, _ => .error outOfRange
  | depth + 1, aggregate, id => do
      let node ← element nodes id.toNat
      let merged :=
        match node.worldBounds with
        | none => aggregate
        | some bounds => some (merge aggregate bounds)
      node.children.foldlM (aggregateNode nodes depth) merged

/-- What `nodes` adds to a scene. -/
structure Placed (α : Type) where
  nodes : List (Node α)
  roots : List UInt32
  worldBounds : Bounds α

def nodes (meshes : List (Mesh α)) (input roots : Json α) : Except Text (Placed α) := do
  let values ← array input 8 true
  let graph ← values.foldlM (declare values.length meshes.length)
    ⟨List.replicate values.length none, []⟩
  let walk ← (List.range graph.nodes.length).foldlM
    (fun walk id => visit graph.parents meshes id walk)
    ⟨List.replicate values.length .fresh, graph.nodes⟩
  let listed ← array roots 8 true
  let selected ← listed.foldlM (selectRoot graph.parents walk.nodes.length) []
  let aggregate ← selected.foldlM (aggregateNode walk.nodes walk.nodes.length) none
  match aggregate with
  | none => .error (ascii "UNSUPPORTED_PROFILE")
  | some bounds => .ok ⟨walk.nodes, selected, bounds⟩

/-- One entry of an extension list; `unique` is a set. -/
def uniqueText (unique : List Text) (entry : Json α) : Except Text (List Text) := do
  let found ← text entry
  rejectIf (unique.contains found) (ascii "INVALID_SCHEMA")
  return found :: unique

/-- The first look at the required extensions, before the members are checked. -/
def requiredExtensions (value : Json α) : Except Text Unit := do
  if value.contains (ascii "extensionsRequired") then
    let required ← array (value.member (ascii "extensionsRequired")) 4096 false
    required.forM fun entry => discard (text entry)
    rejectIf (!required.isEmpty) (ascii "UNSUPPORTED_REQUIRED_EXTENSION")

def extensions (value : Json α) (key : Text) : Except Text Unit := do
  if value.contains key then
    let list ← array (value.member key) 4096 false
    let _ ← list.foldlM uniqueText []
    rejectIf (key == ascii "extensionsRequired" && !list.isEmpty)
      (ascii "UNSUPPORTED_REQUIRED_EXTENSION")

def assetMember (value : Json α) : Except Text Unit := do
  fields value
    [ascii "version", ascii "minVersion", ascii "generator", ascii "copyright"]
    [ascii "version"]
  let version ← text (value.member (ascii "version"))
  rejectIf (version != ascii "2.0") (ascii "UNSUPPORTED_PROFILE")
  let _ ← optional value (ascii "generator") text
  let _ ← optional value (ascii "copyright") text
  let minVersion ← optional value (ascii "minVersion") text
  rejectIf (minVersion.any fun found => found != ascii "2.0") (ascii "UNSUPPORTED_PROFILE")

/-- The declared length of the one buffer, which the chunk pads with zeros. -/
def bufferLength (value : Json α) (bin : Bytes) : Except Text UInt32 := do
  let buffers ← array value 1 true
  let buffer ← element buffers 0
  fields buffer [ascii "byteLength", ascii "name"] [ascii "byteLength"]
  name buffer
  let length ← integer (buffer.member (ascii "byteLength"))
  rejectIf
    (length == 0 || decide (bin.length < length.toNat) ||
      decide (3 < bin.length - length.toNat))
    (ascii "INVALID_GLB")
  rejectIf ((bin.drop length.toNat).any fun pad => pad != 0) (ascii "INVALID_GLB")
  return length

/-- The nodes of the one scene. -/
def sceneRoots (value : Json α) : Except Text (Json α) := do
  let scenes ← array (value.member (ascii "scenes")) 1 true
  let scene ← element scenes 0
  fields scene [ascii "nodes", ascii "name"] [ascii "nodes"]
  name scene
  let _ ← optional value (ascii "scene") fun found => index found 1
  return scene.member (ascii "nodes")

/-- The asset `Scene{}` has, until the import names it. -/
def unnamedAsset : Assets.Asset := ⟨[], ⟨1, [], 0, [], [], []⟩⟩

def decode (parser : Parser α) (bytes : Bytes) : Except Text (Scene α) := do
  let data ← container parser bytes
  let value := data.json
  requiredExtensions value
  fields value
    [ascii "asset", ascii "buffers", ascii "bufferViews", ascii "accessors", ascii "meshes",
      ascii "nodes", ascii "materials", ascii "scenes", ascii "scene",
      ascii "extensionsUsed", ascii "extensionsRequired"]
    [ascii "asset", ascii "buffers", ascii "bufferViews", ascii "accessors", ascii "meshes",
      ascii "nodes", ascii "scenes"]
  extensions value (ascii "extensionsUsed")
  extensions value (ascii "extensionsRequired")
  assetMember (value.member (ascii "asset"))
  let length ← bufferLength (value.member (ascii "buffers")) data.bin
  let bufferViews ← views (value.member (ascii "bufferViews")) length.toNat
  let decoded ← accessors (value.member (ascii "accessors")) bufferViews
    (data.bin.take length.toNat)
  let materialList ← optional value (ascii "materials") materials
  let materialList := materialList.getD []
  let meshList ← meshes (value.member (ascii "meshes")) decoded.out materialList.length
  let roots ← sceneRoots value
  let placed ← nodes meshList (value.member (ascii "nodes")) roots
  return {
    profile := 1
    sourceAsset := unnamedAsset
    roots := placed.roots
    meshes := meshList
    nodes := placed.nodes
    materials := materialList
    worldBounds := placed.worldBounds }

structure ImportRequest where
  glb : Bytes
  source : Text
  license : Text
  expectedRevision : UInt64
  deriving DecidableEq, Repr

structure ImportResult (α : Type) where
  receipt : Assets.Receipt
  scene : Option (Scene α)
  deriving DecidableEq

/-- `digest`: the bytes that a hexadecimal text spells. -/
def digest (value : Text) : Bytes := Assets.nibblePairs value

/-- `bundle`: the bundle of one asset and its blob. -/
def bundle (asset : Assets.Asset) (glb : Bytes) : Except Text Bytes := do
  let manifest ← Assets.canonicalManifest asset.manifest
  let path := ascii "blobs/" ++ asset.manifest.contentHash
  return ascii "OWASB001" ++ littleEndian 1 4 ++ littleEndian 1 4 ++ littleEndian 1 4 ++
    digest asset.id ++ littleEndian manifest.length 4 ++ manifest ++
    ([70, 0] ++ path ++ [0]) ++ littleEndian glb.length 4 ++ littleEndian glb.length 4 ++ glb

/-- The check of a provenance string. -/
def provenance (value : Text) (limit : Nat) : Except Text Unit :=
  rejectIf
    (value.isEmpty || decide (limit < value.length) ||
      !value.all fun character => 32 ≤ character && character ≤ 126)
    (ascii "INVALID_MANIFEST")

/-- What is staged before the commit: the named scene and its bundle. -/
def prepare (parser : Parser α) (sha256 : Bytes → Vector UInt8 32) (request : ImportRequest) :
    Except Text (Scene α × Bytes) := do
  provenance request.source 128
  provenance request.license 64
  let scene ← decode parser request.glb
  let hash ← Assets.contentHash sha256 request.glb
  let manifest : Assets.Manifest :=
    ⟨1, hash, UInt32.ofNat request.glb.length, ascii "model/gltf-binary", request.source,
      request.license⟩
  let id ← Assets.assetId sha256 manifest
  let bytes ← bundle ⟨id, manifest⟩ request.glb
  return ({ scene with sourceAsset := ⟨id, manifest⟩ }, bytes)

/-- `import_glb`: its result and the catalog left behind. -/
def importGlb (parser : Parser α) (sha256 : Bytes → Vector UInt8 32) (request : ImportRequest)
    (catalog : Assets.Snapshot) : ImportResult α × Assets.Snapshot :=
  let receipt := Assets.Receipt.initial catalog.revision
  if request.expectedRevision != catalog.revision then
    (⟨{ receipt with code := ascii "REVISION_CONFLICT" }, none⟩, catalog)
  else
    match prepare parser sha256 request with
    | .error code => (⟨{ receipt with code := code }, none⟩, catalog)
    | .ok (scene, bytes) =>
        let applied :=
          Assets.apply sha256 (.importBundle bytes) request.expectedRevision catalog
        (⟨applied.1, if applied.1.status != ascii "committed" then none else some scene⟩,
          applied.2)

end Scalars

end Omniweft.Gltf
