import Omniweft.Json

/-!
# Reading GLB documents

The first part of `gltf.cpp`: the container of a GLB file, the bounded handler
its JSON chunk goes through, and the readers of JSON members. An error is the
code of the `assets::Failure` the source throws.
-/

namespace Omniweft.Gltf

open Outcome

def fileCap : Nat := 65536

def jsonCap : Nat := 16384

/-- What reading outside a container stands for. The source does not check such
an index, and no check has the empty code. -/
def outOfRange : Text := []

def element {β : Type} (items : List β) (position : Nat) : Except Text β :=
  match items[position]? with
  | none => .error outOfRange
  | some item => .ok item

/-- The callbacks of `nlohmann::json_sax`, with what this handler reads of them. -/
inductive Event (α : Type) where
  | null
  | boolean
  | numberInteger
  | numberUnsigned
  | numberFloat (value : α)
  | string (value : Text)
  | binary
  | startObject
  | key (name : Text)
  | endObject
  | startArray
  | endArray
  | parseError (exceptionId : Nat)

/-- The vendored parser: the callbacks of a text, and its document, when it is one. -/
structure Parser (α : Type) where
  events : Bytes → List (Event α)
  parse : Bytes → Option (Json α)

namespace Sax

structure Frame where
  object : Bool
  keys : List Text

/-- The handler's members; the innermost frame stands first. -/
structure State where
  stack : List Frame
  events : Nat

def event (state : State) : Except Text State :=
  if state.events + 1 ≤ 4096 then .ok { state with events := state.events + 1 }
  else .error (ascii "BUDGET_EXCEEDED")

/-- `open`. -/
def openFrame (object : Bool) (state : State) : Except Text State := do
  let counted ← event state
  rejectIf (counted.stack.length == 16) (ascii "BUDGET_EXCEEDED")
  return { counted with stack := ⟨object, []⟩ :: counted.stack }

def key (name : Text) (state : State) : Except Text State := do
  let counted ← event state
  rejectIf (decide (256 < name.length)) (ascii "BUDGET_EXCEEDED")
  match counted.stack with
  | [] => .error (ascii "INVALID_SCHEMA")
  | frame :: outer =>
      rejectIf (!frame.object || frame.keys.contains name) (ascii "INVALID_SCHEMA")
      return { counted with stack := { frame with keys := name :: frame.keys } :: outer }

variable {α : Type} [Scalar α]

def step (state : State) : Event α → Except Text State
  | .numberFloat value =>
      if Scalar.isFinite value then event state else .error (ascii "NONFINITE_VALUE")
  | .string value =>
      if value.length ≤ 256 then event state else .error (ascii "BUDGET_EXCEEDED")
  | .binary => .error (ascii "INVALID_SCHEMA")
  | .startObject => openFrame true state
  | .startArray => openFrame false state
  | .key name => key name state
  | .endObject => event { state with stack := state.stack.tail }
  | .endArray => event { state with stack := state.stack.tail }
  | .parseError exceptionId =>
      if exceptionId = 406 then .error (ascii "NONFINITE_VALUE")
      else .error (ascii "INVALID_SCHEMA")
  | _ => event state

end Sax

def le32 (bytes : Bytes) (position : Nat) : Except Text UInt32 := do
  rejectIf (decide (bytes.length < position) || decide (bytes.length - position < 4))
    (ascii "INVALID_GLB")
  return UInt32.ofNat (fromLittleEndian ((bytes.drop position).take 4))

/-- The chunks that the loop of `container` has seen. -/
structure Chunks where
  json : Option Bytes
  bin : Option Bytes
  deriving DecidableEq, Repr

/-- What one chunk adds to them; chunks of unknown types are skipped. -/
def place (ordinal : Nat) (type : UInt32) (data : Bytes) (seen : Chunks) :
    Except Text Chunks := do
  rejectIf (ordinal == 0 && type != 0x4e4f534a) (ascii "INVALID_GLB")
  if type == 0x4e4f534a then
    rejectIf (seen.json.isSome || ordinal != 0) (ascii "INVALID_GLB")
    return { seen with json := some data }
  else if type == 0x004e4942 then
    rejectIf (seen.bin.isSome || ordinal != 1) (ascii "INVALID_GLB")
    return { seen with bin := some data }
  else return seen

def chunks (bytes : Bytes) (offset ordinal : Nat) (seen : Chunks) : Except Text Chunks :=
  if _inside : offset < bytes.length then do
    rejectIf (decide (bytes.length - offset < 8)) (ascii "INVALID_GLB")
    let length ← le32 bytes offset
    let type ← le32 bytes (offset + 4)
    rejectIf (length % 4 != 0 || decide (bytes.length - (offset + 8) < length.toNat))
      (ascii "INVALID_GLB")
    let data := (bytes.drop (offset + 8)).take length.toNat
    let seen ← place ordinal type data seen
    chunks bytes (offset + 8 + length.toNat) (ordinal + 1) seen
  else .ok seen
termination_by bytes.length - offset

section Documents

variable {α : Type} [Scalar α]

structure Container (α : Type) where
  json : Json α
  bin : Bytes

def byteOrderMark : Bytes := [0xef, 0xbb, 0xbf]

def container (parser : Parser α) (bytes : Bytes) : Except Text (Container α) := do
  rejectIf (decide (fileCap < bytes.length)) (ascii "BUDGET_EXCEEDED")
  rejectIf (decide (bytes.length < 12)) (ascii "INVALID_GLB")
  let magic ← le32 bytes 0
  let version ← le32 bytes 4
  let length ← le32 bytes 8
  rejectIf (magic != 0x46546c67 || version != 2 || length.toNat != bytes.length)
    (ascii "INVALID_GLB")
  let seen ← chunks bytes 12 0 ⟨none, none⟩
  match seen.json, seen.bin with
  | some json, some bin => do
      rejectIf (decide (jsonCap < json.length)) (ascii "BUDGET_EXCEEDED")
      rejectIf (json.isEmpty || json.contains 0 || json.take 3 == byteOrderMark)
        (ascii "INVALID_SCHEMA")
      let _ ← (parser.events json).foldlM Sax.step ⟨[], 0⟩
      match parser.parse json with
      | none => .error (ascii "INVALID_SCHEMA")
      | some document => .ok ⟨document, bin⟩
  | _, _ => .error (ascii "INVALID_GLB")

/-- One member in the loop of `fields`. -/
def field (allowed : List Text) (entry : Text × Json α) : Except Text Unit :=
  if entry.1 == ascii "extras" then .ok ()
  else if entry.1 == ascii "extensions" then
    match entry.2 with
    | .object extensions => rejectIf (!extensions.isEmpty) (ascii "UNSUPPORTED_PROFILE")
    | _ => .error (ascii "INVALID_SCHEMA")
  else rejectIf (!allowed.contains entry.1) (ascii "UNSUPPORTED_PROFILE")

def fields (value : Json α) (allowed required : List Text) : Except Text Unit :=
  match value with
  | .object entries => do
      entries.forM (field allowed)
      rejectIf (required.any fun name => !value.contains name) (ascii "INVALID_SCHEMA")
  | _ => .error (ascii "INVALID_SCHEMA")

def text (value : Json α) : Except Text Text :=
  match value with
  | .string characters => do
      rejectIf (decide (256 < characters.length)) (ascii "BUDGET_EXCEEDED")
      return characters
  | _ => .error (ascii "INVALID_SCHEMA")

/-- A member that is read when the object has it. -/
def optional {β : Type} (value : Json α) (member : Text) (read : Json α → Except Text β) :
    Except Text (Option β) :=
  if value.contains member then do
    let found ← read (value.member member)
    return some found
  else return none

def name (value : Json α) : Except Text Unit := do
  let _ ← optional value (ascii "name") text

def boolean (value : Json α) : Except Text Bool :=
  match value with
  | .boolean truth => .ok truth
  | _ => .error (ascii "INVALID_SCHEMA")

def array (value : Json α) (maximum : Nat) (nonempty : Bool) :
    Except Text (List (Json α)) :=
  match value with
  | .array items => do
      rejectIf (nonempty && items.isEmpty) (ascii "INVALID_SCHEMA")
      rejectIf (decide (maximum < items.length)) (ascii "BUDGET_EXCEEDED")
      return items
  | _ => .error (ascii "INVALID_SCHEMA")

def number (value : Json α) : Except Text α :=
  match value.numeral with
  | none => .error (ascii "INVALID_SCHEMA")
  | some result => do
      rejectIf (!Scalar.isFinite result) (ascii "NONFINITE_VALUE")
      return Scalar.normalizeZero result

def vector1 (value : Json α) : Except Text α :=
  match value with
  | .array [x] => number x
  | _ => .error (ascii "INVALID_SCHEMA")

def vector3 (value : Json α) : Except Text (Vec3 α) :=
  match value with
  | .array [x, y, z] => do
      let x ← number x
      let y ← number y
      let z ← number z
      return ⟨x, y, z⟩
  | _ => .error (ascii "INVALID_SCHEMA")

def vector4 (value : Json α) : Except Text (Quat α) :=
  match value with
  | .array [x, y, z, w] => do
      let x ← number x
      let y ← number y
      let z ← number z
      let w ← number w
      return ⟨x, y, z, w⟩
  | _ => .error (ascii "INVALID_SCHEMA")

variable [Conversions α]

def integer (value : Json α) : Except Text UInt32 :=
  match value with
  | .unsigned number => do
      rejectIf (decide (4294967295 < number.toNat)) (ascii "INVALID_SCHEMA")
      return number.toUInt32
  | _ =>
      match value.numeral with
      | none => .error (ascii "INVALID_SCHEMA")
      | some number => do
          rejectIf (!Scalar.isFinite number) (ascii "NONFINITE_VALUE")
          rejectIf
            (Scalar.lt number (Scalar.ofInt 0) ||
              Scalar.lt (Scalar.ofInt 4294967295) number ||
              !Scalar.eq (Conversions.floor number) number)
            (ascii "INVALID_SCHEMA")
          return Conversions.toUnsigned number

def optionalInteger (value : Json α) (member : Text) (fallback : UInt32) :
    Except Text UInt32 := do
  let found ← optional value member integer
  return found.getD fallback

def index (value : Json α) (count : Nat) : Except Text UInt32 := do
  let result ← integer value
  rejectIf (decide (count ≤ result.toNat)) (ascii "INVALID_SCHEMA")
  return result

/-- One component of `position_extrema`. -/
def extremum (component : α) : Except Text α := do
  rejectIf (Scalar.lt SinglePrecision.largest (Scalar.abs component)) (ascii "NONFINITE_VALUE")
  let rounded := SinglePrecision.narrow component
  rejectIf (!Scalar.isFinite rounded) (ascii "NONFINITE_VALUE")
  return rounded

def positionExtrema (value : Json α) : Except Text (Vec3 α) := do
  let out ← vector3 value
  let x ← extremum out.x
  let y ← extremum out.y
  let z ← extremum out.z
  return ⟨x, y, z⟩

end Documents

end Omniweft.Gltf
