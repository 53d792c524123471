import Omniweft.Library.Keyed
import Omniweft.Policy

/-!
# Observation sessions

A session reads a world under a grant: `start` captures the rows the grant and
the query let through and returns the first page, `next` returns the later ones
from what was captured. Each call is given the clock readings it makes.
-/

namespace Omniweft.Observe

open Outcome World

structure Bounds (α : Type) where
  lower : Vec3 α
  upper : Vec3 α
  deriving DecidableEq, Repr

structure ReadIdentity where
  entityUuid : Text
  generation : UInt64
  deriving DecidableEq, Repr

/-- The lifetimes are in milliseconds. -/
structure ReadGrant (α : Type) where
  wholeWorld : Bool
  entities : List ReadIdentity
  region : Option (Bounds α)
  responseBytes : Nat
  retainedBytes : Nat
  lifetime : Int
  snapshotLifetime : Int
  deriving DecidableEq, Repr

structure Query (α : Type) where
  allTags : List Text
  intersects : Option (Bounds α)
  pageSize : Nat
  responseBytes : Nat
  deriving DecidableEq, Repr

/-- A native handle; `owner` is what the weak pointer locks to. -/
structure Cursor where
  owner : Option Nat
  snapshot : UInt64
  offset : Nat
  deriving DecidableEq, Repr

structure Page where
  json : Text
  next : Option Cursor
  deriving DecidableEq, Repr

structure Result where
  page : Option Page
  code : Text
  deriving DecidableEq, Repr

def error (code : String) : Result := ⟨none, ascii code⟩

/-- What a start retains for its later pages. -/
structure Snapshot where
  rows : List Text
  opening : Text
  pageSize : Nat
  responseBytes : Nat
  deadline : Int
  deriving DecidableEq, Repr

/-- `identity` is the address of the session's identity token. -/
structure Session (α : Type) where
  grant : ReadGrant α
  identity : Option Nat
  expires : Int
  snapshot : Option Snapshot
  serial : UInt64
  closed : Bool
  deriving DecidableEq, Repr

def nanoseconds (milliseconds : Int) : Int := milliseconds * 1000000

section Geometry

variable {α : Type} [Scalar α]

def axisValid (lower upper : α) : Bool :=
  Scalar.isFinite lower && Scalar.isFinite upper && !Scalar.lt upper lower

def validBounds (value : Bounds α) : Bool :=
  axisValid value.lower.x value.upper.x && axisValid value.lower.y value.upper.y &&
    axisValid value.lower.z value.upper.z

def identifier (value : Text) : Bool := validIdentifier 32 value

def uuid (value : Text) : Bool := Commands.validUuid value

/-- `checked_grant`. The error is the exception's text. -/
def checkedGrant (grant : ReadGrant α) : Except Text (ReadGrant α) := do
  rejectIf
    (decide (1024 < grant.entities.length) || (grant.wholeWorld && !grant.entities.isEmpty) ||
      grant.responseBytes == 0 || decide (4096 < grant.responseBytes) ||
      grant.retainedBytes == 0 || decide (1048576 < grant.retainedBytes) ||
      decide (grant.lifetime < 1) || decide (300000 < grant.lifetime) ||
      decide (grant.snapshotLifetime < 1) || decide (30000 < grant.snapshotLifetime) ||
      grant.region.any fun region => !validBounds region)
    (ascii "INVALID_READ_GRANT")
  rejectIf (grant.entities.any fun id => !uuid id.entityUuid || id.generation == 0)
    (ascii "INVALID_READ_GRANT")
  return grant

def validQuery (query : Query α) : Bool :=
  !(decide (4 < query.allTags.length) || query.pageSize == 0 || decide (64 < query.pageSize) ||
      query.responseBytes == 0 || decide (4096 < query.responseBytes) ||
      query.intersects.any fun region => !validBounds region) &&
    query.allTags.all identifier && decide query.allTags.Nodup

/-- The extent of a turned and scaled unit cube along an axis. -/
def extent (row scale : Vec3 α) : α :=
  Scalar.ofInt 0 + Scalar.abs row.x * (Scalar.half * Scalar.abs scale.x) +
    Scalar.abs row.y * (Scalar.half * Scalar.abs scale.y) +
    Scalar.abs row.z * (Scalar.half * Scalar.abs scale.z)

/-- `bounds`: the cube's bounds, when they are finite. -/
def bounds (transform : Transform α) : Option (Bounds α) :=
  let rows := Policy.rotation transform.rotationXyzw
  let x := extent rows.x transform.scale
  let y := extent rows.y transform.scale
  let z := extent rows.z transform.scale
  let centre := transform.positionM
  let value : Bounds α :=
    ⟨⟨centre.x - x, centre.y - y, centre.z - z⟩, ⟨centre.x + x, centre.y + y, centre.z + z⟩⟩
  if validBounds value then some value else none

def axisContains (outerLower outerUpper innerLower innerUpper : α) : Bool :=
  !(Scalar.lt innerLower outerLower || Scalar.lt outerUpper innerUpper)

def contains (outer inner : Bounds α) : Bool :=
  axisContains outer.lower.x outer.upper.x inner.lower.x inner.upper.x &&
    axisContains outer.lower.y outer.upper.y inner.lower.y inner.upper.y &&
    axisContains outer.lower.z outer.upper.z inner.lower.z inner.upper.z

def axisOverlaps (lower upper otherLower otherUpper : α) : Bool :=
  !(Scalar.lt upper otherLower || Scalar.lt otherUpper lower)

def overlaps (left right : Bounds α) : Bool :=
  axisOverlaps left.lower.x left.upper.x right.lower.x right.upper.x &&
    axisOverlaps left.lower.y left.upper.y right.lower.y right.upper.y &&
    axisOverlaps left.lower.z left.upper.z right.lower.z right.upper.z

def permitted (grant : ReadGrant α) (slot : Slot α) : Bool :=
  grant.wholeWorld ||
    grant.entities.any fun id =>
      id.entityUuid == slot.entityUuid && id.generation == slot.generation

/-- The region test: with a region, only a finite cube inside it passes. -/
def outside (grant : ReadGrant α) (box : Option (Bounds α)) : Bool :=
  match grant.region with
  | none => false
  | some region =>
      match box with
      | none => true
      | some box => !contains region box

end Geometry

section Sessions

variable {α : Type} [Scalar α]

def Session.create (grant : ReadGrant α) (identity : Nat) (now : Int) :
    Except Text (Session α) := do
  let grant ← checkedGrant grant
  return ⟨grant, some identity, now + nanoseconds grant.lifetime, none, 0, false⟩

def close (session : Session α) : Session α :=
  { session with snapshot := none, closed := true, identity := none }

/-- `expire`: the session after it; what it returns is the session's `closed`. -/
def expire (now : Int) (session : Session α) : Session α :=
  if session.expires ≤ now then close session
  else if session.snapshot.any fun data => decide (data.deadline ≤ now) then
    { session with snapshot := none }
  else session

def suffix (more : Bool) : Text :=
  if more then ascii "],\"has_more\":true\x7d" else ascii "],\"has_more\":false\x7d"

/-- The loop of `page`: how many of the remaining rows fit, and their bytes
with the commas between them. -/
def fill (data : Snapshot) : Nat → Nat → List Text → Nat × Nat
  | taken, payload, [] => (taken, payload)
  | taken, payload, row :: rest =>
      let candidate := payload + (if 0 < taken then 1 else 0) + row.length
      if taken < data.pageSize then
        if data.responseBytes <
            data.opening.length + candidate + (suffix (!rest.isEmpty)).length then
          (taken, payload)
        else fill data (taken + 1) candidate rest
      else (taken, payload)

def page (identity : Option Nat) (data : Snapshot) (offset : Nat) (serial : UInt64) : Result :=
  let rows := data.rows.drop offset
  let filled := fill data 0 0 rows
  let ended := offset + filled.1
  let more := decide (ended < data.rows.length)
  let count := data.opening.length + filled.2 + (suffix more).length
  if (filled.1 == 0 && more) || decide (data.responseBytes < count) then
    error "BUDGET_EXCEEDED"
  else
    { page := some
        { json := data.opening ++ List.intercalate [44] (rows.take filled.1) ++ suffix more
          next := if more then some ⟨identity, serial, ended⟩ else none }
      code := [] }

/-- What stops a capture: a rejection, or an exception of the JSON library. -/
inductive Stop where
  | reject (code : Text)
  | thrown
  deriving DecidableEq, Repr

def dumped (library : JsonLibrary α) (value : Json α) : Except Stop Text :=
  match library.dump value with
  | none => .error .thrown
  | some bytes => .ok bytes

/-- The row of an entity, with its members in key order. -/
def item (slot : Slot α) (entity : Entity α) (box : Bounds α) : Json α :=
  .object
    [(ascii "authoring_revision", .unsigned entity.authoringRevision),
      (ascii "bounds",
        .object
          [(ascii "lower", Commands.vectorJson box.lower.toList),
            (ascii "upper", Commands.vectorJson box.upper.toList)]),
      (ascii "entity_uuid", .string slot.entityUuid),
      (ascii "generation", .unsigned slot.generation),
      (ascii "tags", .array (entity.tags.map .string)),
      (ascii "transform",
        .object
          [(ascii "position_m", Commands.vectorJson entity.transform.positionM.toList),
            (ascii "rotation_xyzw",
              Commands.vectorJson entity.transform.rotationXyzw.toList),
            (ascii "scale", Commands.vectorJson entity.transform.scale.toList)])]

structure Gathered where
  retained : Nat
  rows : List Text
  deriving DecidableEq, Repr

/-- One round of the row loop of `start`. -/
def gather (library : JsonLibrary α) (grant : ReadGrant α) (query : Query α)
    (state : Gathered) (slot : Slot α) : Except Stop Gathered :=
  match slot.entity with
  | none => .ok state
  | some entity =>
      let box := bounds entity.transform
      if outside grant box then .ok state
      else if !query.allTags.all fun tag => Keyed.binarySearch entity.tags tag then .ok state
      else
        match box with
        | none => .error (.reject (ascii "INVALID_STATE"))
        | some box =>
            if query.intersects.any fun region => !overlaps region box then .ok state
            else do
              let row ← dumped library (item slot entity box)
              rejectIf (decide (grant.retainedBytes - state.retained < row.length))
                (.reject (ascii "BUDGET_EXCEEDED"))
              return ⟨state.retained + row.length, state.rows ++ [row]⟩

/-- A live slot the grant permits. -/
def visible (grant : ReadGrant α) (slot : Slot α) : Bool :=
  slot.entity.isSome && !slot.retired && permitted grant slot

/-- The capture of `start`, from the copy of the world to the rows. -/
def capture (library : JsonLibrary α) (session : Session α) (query : Query α)
    (now : Int) (world : World.Snapshot α) : Except Stop Snapshot := do
  let grant := session.grant
  let worldId ← dumped library (.string world.worldId)
  let opening := ascii "\x7b\"schema_version\":1,\"world_id\":" ++ worldId ++
    ascii ",\"world_revision\":" ++ decimal world.worldRevision.toNat ++ ascii ",\"items\":["
  let ordered := Keyed.arrange Slot.entityUuid (world.slots.filter (visible grant))
  rejectIf (decide (grant.retainedBytes < opening.length)) (.reject (ascii "BUDGET_EXCEEDED"))
  let gathered ← ordered.foldlM (gather library grant query) ⟨opening.length, []⟩
  return {
    rows := gathered.rows
    opening := opening
    pageSize := query.pageSize
    responseBytes := min query.responseBytes grant.responseBytes
    deadline := min session.expires (now + nanoseconds grant.snapshotLifetime) }

/-- What the clock shows on entry, at the capture, before the page is handed
out, and in the `expire` after a late page. -/
structure Readings where
  entry : Int
  capture : Int
  publish : Int
  late : Int
  deriving DecidableEq, Repr

/-- The outcome of a call: its result, or an exception that leaves it. -/
inductive Reply where
  | result (result : Result)
  | thrown
  deriving DecidableEq, Repr

def lastSerial : UInt64 := 18446744073709551615

/-- The end of `start`: a page that fits is handed out unless it is late. -/
def publish (clock : Readings) (staged : Snapshot) (session : Session α) :
    Reply × Session α :=
  let result := page session.identity staged 0 (session.serial + 1)
  if result.page.isNone then (.result result, session)
  else if staged.deadline ≤ clock.publish then
    (.result (error "REQUIRES_RESYNC"), expire clock.late session)
  else
    (.result result, { session with snapshot := some staged, serial := session.serial + 1 })

/-- `start` after its call of `expire`. -/
def startOpen (library : JsonLibrary α) (clock : Readings) (query : Query α)
    (world : World.Snapshot α) (session : Session α) : Reply × Session α :=
  if session.closed then (.result (error "NOT_AUTHORIZED"), session)
  else if !validQuery query then (.result (error "INVALID_SCHEMA"), session)
  else if session.serial == lastSerial then (.result (error "BUDGET_EXCEEDED"), session)
  else
    match capture library session query clock.capture world with
    | .error .thrown => (.thrown, session)
    | .error (.reject code) => (.result ⟨none, code⟩, session)
    | .ok staged => publish clock staged session

def start (library : JsonLibrary α) (clock : Readings) (query : Query α)
    (world : World.Snapshot α) (session : Session α) : Reply × Session α :=
  startOpen library clock query world (expire clock.entry session)

/-- `next` after its call of `expire`. -/
def nextOpen (clock : Readings) (cursor : Cursor) (session : Session α) : Reply × Session α :=
  match session.snapshot with
  | none => (.result (error "REQUIRES_RESYNC"), session)
  | some data =>
      if session.closed || cursor.owner != session.identity ||
          cursor.snapshot != session.serial || decide (data.rows.length ≤ cursor.offset) then
        (.result (error "REQUIRES_RESYNC"), session)
      else if data.deadline ≤ clock.publish then
        (.result (error "REQUIRES_RESYNC"), expire clock.late session)
      else (.result (page session.identity data cursor.offset session.serial), session)

def next (clock : Readings) (cursor : Cursor) (session : Session α) : Reply × Session α :=
  nextOpen clock cursor (expire clock.entry session)

/-- A cursor a client can hold: one that an earlier reply handed out, or one
that this session never made. -/
inductive Handle where
  | returned (reply : Nat)
  | foreign (snapshot : UInt64) (offset : Nat)
  deriving DecidableEq, Repr

inductive Call (α : Type) where
  | start (query : Query α)
  | next (handle : Handle)
  deriving DecidableEq, Repr

def Reply.cursor : Reply → Option Cursor
  | .result answer => answer.page.bind Page.next
  | .thrown => none

/-- The cursor a handle stands for; `Cursor{}` when the reply handed out none. -/
def Handle.cursor (replies : List Reply) : Handle → Cursor
  | .returned reply => (replies[reply]?.bind Reply.cursor).getD ⟨none, 0, 0⟩
  | .foreign snapshot offset => ⟨none, snapshot, offset⟩

def perform (library : JsonLibrary α) (world : World.Snapshot α) (replies : List Reply)
    (session : Session α) (clock : Readings) : Call α → Reply × Session α
  | .start query => start library clock query world session
  | .next handle => next clock (handle.cursor replies) session

/-- The replies to a sequence of calls. The world may change between calls:
`worlds` gives it at each of them. -/
def replies (library : JsonLibrary α) (worlds : Nat → World.Snapshot α) :
    Session α → List Reply → List (Call α × Readings) → List Reply
  | _, past, [] => past
  | session, past, (call, clock) :: rest =>
      let answered := perform library (worlds past.length) past session clock call
      replies library worlds answered.2 (past ++ [answered.1]) rest

/-- All replies of a new session, or why the grant was refused. -/
def run (library : JsonLibrary α) (grant : ReadGrant α) (identity : Nat) (now : Int)
    (worlds : Nat → World.Snapshot α) (calls : List (Call α × Readings)) :
    Except Text (List Reply) := do
  let session ← Session.create grant identity now
  return replies library worlds session [] calls

/-- What a client sees of a reply: the page, whether there is a next cursor,
and the code; or that the call threw. -/
def Reply.seen : Reply → Option (Option (Text × Bool) × Text)
  | .result answer =>
      some (answer.page.map fun page => (page.json, page.next.isSome), answer.code)
  | .thrown => none

end Sessions

end Omniweft.Observe
