import Omniweft.Library.Grammar
import Omniweft.Library.Keyed
import Omniweft.Text

/-!
# The asset catalog

`assets.cpp`: the canonical manifest and the bundle format with their readers
and writers, and the catalog's five commands. `sha256` is a parameter with
32 bytes of output; running out of memory is not modelled.
-/

namespace Omniweft.Assets

open Outcome Grammar

abbrev AssetId := Text

abbrev BlobId := Text

def manifestLimit : Nat := 8

def blobLimit : Nat := 8

def historyLimit : Nat := 4

def rootsLimit : Nat := 8

def blobByteLimit : Nat := 65536

def decodedByteLimit : Nat := 262144

def bundleByteLimit : Nat := 524288

def canonicalLimit : Nat := 310

def manifestMagic : Text := ascii "OWAMNF01"

def bundleMagic : Text := ascii "OWASB001"

def maximumRevision : UInt64 := 18446744073709551615

structure Manifest where
  formatVersion : UInt32
  contentHash : BlobId
  decodedLength : UInt32
  mediaType : Text
  source : Text
  license : Text
  deriving DecidableEq, Repr

structure Asset where
  id : AssetId
  manifest : Manifest
  deriving DecidableEq, Repr

structure Blob where
  hash : BlobId
  bytes : Bytes
  deriving DecidableEq, Repr

structure HistoryRoots where
  name : Text
  assetIds : List AssetId
  deriving DecidableEq, Repr

structure Snapshot where
  formatVersion : UInt32
  revision : UInt64
  assets : List Asset
  blobs : List Blob
  currentRoots : List AssetId
  historyRoots : List HistoryRoots
  deriving DecidableEq, Repr

def Snapshot.fresh : Snapshot := ⟨1, 0, [], [], [], []⟩

structure AssetRetention where
  id : AssetId
  contentHash : BlobId
  currentRoot : Bool
  historyRoots : List Text
  deriving DecidableEq, Repr

structure BlobRetention where
  hash : BlobId
  referencingAssets : List AssetId
  retainingAssets : List AssetId
  deriving DecidableEq, Repr

structure RetentionReport where
  formatVersion : UInt32
  currentRoots : List AssetId
  historyRoots : List HistoryRoots
  assets : List AssetRetention
  blobs : List BlobRetention
  removableAssets : List AssetId
  removableBlobs : List BlobId
  deriving DecidableEq, Repr

structure RetentionResult where
  status : Text
  code : Text
  revision : UInt64
  report : Option RetentionReport
  deriving DecidableEq, Repr

inductive Command where
  | importBundle (bundle : Bytes)
  | setCurrentRoots (assetIds : List AssetId)
  | setHistoryRoots (name : Text) (assetIds : List AssetId)
  | removeHistoryRoots (name : Text)
  | collect
  deriving DecidableEq, Repr

structure Receipt where
  status : Text
  revision : UInt64
  code : Text
  imported : List AssetId
  manifestsRemoved : UInt32
  blobsRemoved : UInt32
  deriving DecidableEq, Repr

/-- The members `Receipt{}` starts with. -/
def Receipt.initial (revision : UInt64) : Receipt :=
  ⟨ascii "rejected", revision, [], [], 0, 0⟩

def lowercaseHex (value : UInt8) : Bool :=
  (48 ≤ value && value ≤ 57) || (97 ≤ value && value ≤ 102)

def validHash (value : Text) : Bool :=
  value.length == 64 && value.all lowercaseHex

def hex (bytes : Bytes) : Text :=
  bytes.flatMap fun byte => [hexDigit (byte.toNat / 16), hexDigit (byte.toNat % 16)]

def nibble (value : UInt8) : UInt8 :=
  if value ≤ 57 then value - 48 else value - 97 + 10

def nibblePairs : Text → Bytes
  | high :: low :: rest => ((nibble high <<< 4) ||| nibble low) :: nibblePairs rest
  | _ => []

def digestBytes (value : Text) : Except Text Bytes := do
  rejectIf (!validHash value) (ascii "INVALID_MANIFEST")
  return nibblePairs value

def asciiText (value : Text) (limit : Nat) : Bool :=
  !value.isEmpty && decide (value.length ≤ limit) &&
    value.all fun character => 32 ≤ character && character ≤ 126

def manifestValid (value : Manifest) : Except Text Unit := do
  rejectIf (value.formatVersion != 1) (ascii "UNSUPPORTED_VERSION")
  rejectIf (decide (blobByteLimit < value.decodedLength.toNat)) (ascii "BUDGET_EXCEEDED")
  rejectIf
    (!validHash value.contentHash || !asciiText value.mediaType 64 ||
      !asciiText value.source 128 || !asciiText value.license 64)
    (ascii "INVALID_MANIFEST")

/-- `text`: a two-byte length and the characters. -/
def text (value : Text) : Bytes :=
  littleEndian value.length 2 ++ value

def canonicalManifest (value : Manifest) : Except Text Bytes := do
  manifestValid value
  let digest ← digestBytes value.contentHash
  return manifestMagic ++ littleEndian value.formatVersion.toNat 4 ++ digest ++
    littleEndian value.decodedLength.toNat 4 ++ text value.mediaType ++
    text value.source ++ text value.license

section Hashes

variable (sha256 : Bytes → Vector UInt8 32)

def contentHash (input : Bytes) : Except Text BlobId := do
  rejectIf (decide (blobByteLimit < input.length)) (ascii "BUDGET_EXCEEDED")
  return hex (sha256 input).toList

def assetId (value : Manifest) : Except Text AssetId := do
  let bytes ← canonicalManifest value
  contentHash sha256 bytes

end Hashes

/-- A check or a nested reader whose failure ends the reading. -/
def checked {β : Type} (computation : Except Text β) : Reader Text UInt8 β :=
  attempt id computation

section Reading

variable (code : Text)

def byte : Reader Text UInt8 UInt8 := do
  let data ← take code 1
  return data.headD 0

def read16 : Reader Text UInt8 Nat := do
  let data ← take code 2
  return fromLittleEndian data

def read32 : Reader Text UInt8 UInt32 := do
  let data ← take code 4
  return UInt32.ofNat (fromLittleEndian data)

def readText (limit : Nat) (limitCode : Text) : Reader Text UInt8 Text := do
  let length ← read16 code
  checked (rejectIf (decide (limit < length)) limitCode)
  take code length

def magic (expected : Text) : Reader Text UInt8 Unit := do
  let value ← take code expected.length
  checked (rejectIf (value != expected) code)

end Reading

def manifestFields : Reader Text UInt8 Manifest := do
  let code := ascii "INVALID_MANIFEST"
  magic code manifestMagic
  let formatVersion ← read32 code
  checked (rejectIf (formatVersion != 1) (ascii "UNSUPPORTED_VERSION"))
  let digest ← take code 32
  let decodedLength ← read32 code
  let mediaType ← readText code 64 code
  let source ← readText code 128 code
  let license ← readText code 64 code
  return ⟨formatVersion, hex digest, decodedLength, mediaType, source, license⟩

def readManifest (bytes : Bytes) : Except Text Manifest := do
  rejectIf (decide (canonicalLimit < bytes.length)) (ascii "INVALID_MANIFEST")
  let value ← whole (ascii "INVALID_MANIFEST") manifestFields bytes
  manifestValid value
  return value

def findAsset (assets : List Asset) (id : AssetId) : Option Asset :=
  Keyed.find Asset.id assets id

def findBlob (blobs : List Blob) (hash : BlobId) : Option Blob :=
  Keyed.find Blob.hash blobs hash

def sortEntries (state : Snapshot) : Snapshot :=
  { state with
    assets := Keyed.arrange Asset.id state.assets
    blobs := Keyed.arrange Blob.hash state.blobs }

/-- One round of the loop in `quota`. -/
def spend (total : Nat) (blob : Blob) : Except Text Nat := do
  rejectIf
    (decide (blobByteLimit < blob.bytes.length) ||
      decide (decodedByteLimit - total < blob.bytes.length))
    (ascii "BUDGET_EXCEEDED")
  return total + blob.bytes.length

def quota (state : Snapshot) : Except Text Unit := do
  rejectIf
    (decide (manifestLimit < state.assets.length) || decide (blobLimit < state.blobs.length))
    (ascii "BUDGET_EXCEEDED")
  let _ ← state.blobs.foldlM spend 0

/-- The count and value pairs of an RLE8 payload. -/
def pairs : Bytes → List (UInt8 × UInt8)
  | count :: value :: rest => (count, value) :: pairs rest
  | _ => []

/-- The length a payload expands to, checked before anything is expanded. -/
def expandedLength (decodedLength : Nat) :
    Nat → List (UInt8 × UInt8) → Except Text Nat
  | expanded, [] => .ok expanded
  | expanded, (count, _) :: rest => do
      rejectIf (count == 0 || decide (decodedLength - expanded < count.toNat))
        (ascii "DECOMPRESSION_ERROR")
      expandedLength decodedLength (expanded + count.toNat) rest

def expand (runs : List (UInt8 × UInt8)) : Bytes :=
  runs.flatMap fun run => List.replicate run.1.toNat run.2

/-- The bytes an entry's payload stands for under its codec. -/
def decodePayload (codec : UInt8) (decodedLength : Nat) (encoded : Bytes) :
    Except Text Bytes :=
  if codec == 0 then do
    rejectIf (encoded.length != decodedLength) (ascii "SIZE_MISMATCH")
    return encoded
  else do
    rejectIf (encoded.length % 2 != 0) (ascii "DECOMPRESSION_ERROR")
    let expanded ← expandedLength decodedLength 0 (pairs encoded)
    rejectIf (expanded != decodedLength) (ascii "SIZE_MISMATCH")
    return expand (pairs encoded)

section Bundles

variable (sha256 : Bytes → Vector UInt8 32)

def invalidBundle : Text := ascii "INVALID_BUNDLE"

/-- One round of the asset loop of `decode_bundle`. -/
def readAsset (decoded : List Asset) : Reader Text UInt8 (List Asset) := do
  let digest ← take invalidBundle 32
  let length ← read32 invalidBundle
  checked (rejectIf (decide (canonicalLimit < length.toNat)) (ascii "INVALID_MANIFEST"))
  let bytes ← take invalidBundle length.toNat
  let manifest ← checked (readManifest bytes)
  let expected ← checked (assetId sha256 manifest)
  checked (rejectIf (expected != hex digest) (ascii "HASH_MISMATCH"))
  checked (rejectIf (findAsset decoded (hex digest)).isSome (ascii "DUPLICATE_ENTRY"))
  return decoded ++ [⟨hex digest, manifest⟩]

def blobPrefix : Text := ascii "blobs/"

def validPath (path : Text) : Bool :=
  path.length == 70 && path.take 6 == blobPrefix && validHash (path.drop 6)

structure DecodedBlobs where
  blobs : List Blob
  total : Nat
  deriving DecidableEq, Repr

/-- One round of the blob loop of `decode_bundle`. -/
def readBlob (decoded : DecodedBlobs) : Reader Text UInt8 DecodedBlobs := do
  let path ← readText invalidBundle 70 (ascii "INVALID_PATH")
  checked (rejectIf (!validPath path) (ascii "INVALID_PATH"))
  let hash := path.drop 6
  checked (rejectIf (findBlob decoded.blobs hash).isSome (ascii "DUPLICATE_ENTRY"))
  let codec ← byte invalidBundle
  let decodedLength ← read32 invalidBundle
  let encodedLength ← read32 invalidBundle
  checked <| rejectIf
    (decide (blobByteLimit < decodedLength.toNat) ||
      decide (decodedByteLimit - decoded.total < decodedLength.toNat) ||
      decide (blobByteLimit * 2 < encodedLength.toNat))
    (ascii "BUDGET_EXCEEDED")
  checked (rejectIf (decide (1 < codec)) invalidBundle)
  let encoded ← take invalidBundle encodedLength.toNat
  let bytes ← checked (decodePayload codec decodedLength.toNat encoded)
  let expected ← checked (contentHash sha256 bytes)
  checked (rejectIf (expected != hash) (ascii "HASH_MISMATCH"))
  return ⟨decoded.blobs ++ [⟨hash, bytes⟩], decoded.total + decodedLength.toNat⟩

def bundleEntries : Reader Text UInt8 (List Asset × DecodedBlobs) := do
  magic invalidBundle bundleMagic
  let version ← read32 invalidBundle
  checked (rejectIf (version != 1) (ascii "UNSUPPORTED_VERSION"))
  let assetCount ← read32 invalidBundle
  let blobCount ← read32 invalidBundle
  checked <| rejectIf
    (decide (manifestLimit < assetCount.toNat) || decide (blobLimit < blobCount.toNat))
    (ascii "BUDGET_EXCEEDED")
  let assets ← times (readAsset sha256) assetCount.toNat []
  let blobs ← times (readBlob sha256) blobCount.toNat ⟨[], 0⟩
  return (assets, blobs)

/-- One round of the reference check; `referenced` is a set. -/
def reference (blobs : List Blob) (referenced : List BlobId) (asset : Asset) :
    Except Text (List BlobId) :=
  match findBlob blobs asset.manifest.contentHash with
  | none => .error (ascii "MISSING_BLOB")
  | some blob => do
      rejectIf (blob.bytes.length != asset.manifest.decodedLength.toNat) (ascii "SIZE_MISMATCH")
      return referenced.insert blob.hash

def decodeBundle (bytes : Bytes) : Except Text Snapshot := do
  rejectIf (decide (bundleByteLimit < bytes.length)) (ascii "BUDGET_EXCEEDED")
  let (assets, decoded) ← whole invalidBundle (bundleEntries sha256) bytes
  let referenced ← assets.foldlM (reference decoded.blobs) []
  rejectIf (referenced.length != decoded.blobs.length) (ascii "EXTRA_BLOB")
  return sortEntries { Snapshot.fresh with assets := assets, blobs := decoded.blobs }

/-- One round of the first loop of `import_bundle`. -/
def importAsset : List Asset → Asset → Except Text (List Asset) :=
  Keyed.enter Asset.id Asset.manifest manifestLimit (ascii "BUDGET_EXCEEDED")
    (ascii "HASH_MISMATCH")

/-- One round of the second loop of `import_bundle`. -/
def importBlob : List Blob → Blob → Except Text (List Blob) :=
  Keyed.enter Blob.hash Blob.bytes blobLimit (ascii "BUDGET_EXCEEDED")
    (ascii "HASH_MISMATCH")

def importBundle (state : Snapshot) (bundle : Bytes) (receipt : Receipt) :
    Except Text (Snapshot × Receipt) := do
  let incoming ← decodeBundle sha256 bundle
  let assets ← incoming.assets.foldlM importAsset state.assets
  let blobs ← incoming.blobs.foldlM importBlob state.blobs
  let merged := { state with assets := assets, blobs := blobs }
  quota merged
  return (sortEntries merged, { receipt with imported := incoming.assets.map Asset.id })

/-- One round of the loop of `roots`. -/
def knownRoot (state : Snapshot) (id : AssetId) : Except Text Unit := do
  rejectIf (!validHash id) (ascii "INVALID_ROOT")
  rejectIf (findAsset state.assets id).isNone (ascii "UNKNOWN_ASSET")

def adjacentEqual : List AssetId → Bool
  | first :: second :: rest => first == second || adjacentEqual (second :: rest)
  | _ => false

def roots (state : Snapshot) (values : List AssetId) : Except Text (List AssetId) := do
  rejectIf (decide (rootsLimit < values.length)) (ascii "BUDGET_EXCEEDED")
  values.forM (knownRoot state)
  rejectIf (adjacentEqual (sortTexts values)) (ascii "DUPLICATE_ENTRY")
  return sortTexts values

def letter (value : UInt8) : Bool :=
  (97 ≤ value && value ≤ 122) || (65 ≤ value && value ≤ 90)

def rootNameByte (value : UInt8) : Bool :=
  letter value || (48 ≤ value && value ≤ 57) || value == 95 || value == 46 || value == 45

def rootName (name : Text) : Except Text Unit := do
  rejectIf (name.isEmpty || decide (32 < name.length) || !letter (name.headD 0))
    (ascii "INVALID_ROOT")
  rejectIf (!name.all rootNameByte) (ascii "INVALID_ROOT")

/-- Give the first set with the name its new members. -/
def assignRoots (name : Text) (assetIds : List AssetId) :
    List HistoryRoots → List HistoryRoots
  | [] => []
  | entry :: rest =>
      if entry.name == name then { entry with assetIds := assetIds } :: rest
      else entry :: assignRoots name assetIds rest

def setHistoryRoots (state : Snapshot) (name : Text) (assetIds : List AssetId) :
    Except Text Snapshot := do
  rootName name
  let validRoots ← roots state assetIds
  if state.historyRoots.any fun entry => entry.name == name then
    return { state with
      historyRoots := Keyed.arrange HistoryRoots.name
        (assignRoots name validRoots state.historyRoots) }
  else do
    rejectIf (state.historyRoots.length == historyLimit) (ascii "BUDGET_EXCEEDED")
    return { state with
      historyRoots := Keyed.arrange HistoryRoots.name
        (state.historyRoots ++ [⟨name, validRoots⟩]) }

def retained (state : Snapshot) : List AssetId :=
  state.currentRoots ++ state.historyRoots.flatMap HistoryRoots.assetIds

def collect (state : Snapshot) (receipt : Receipt) : Snapshot × Receipt :=
  let assets := state.assets.filter fun value => (retained state).contains value.id
  let reachable := assets.map fun value => value.manifest.contentHash
  let blobs := state.blobs.filter fun value => reachable.contains value.hash
  ({ state with assets := assets, blobs := blobs },
    { receipt with
      manifestsRemoved := UInt32.ofNat (state.assets.length - assets.length)
      blobsRemoved := UInt32.ofNat (state.blobs.length - blobs.length) })

/-- What a command makes of the staged copy. -/
def stage (command : Command) (state : Snapshot) (receipt : Receipt) :
    Except Text (Snapshot × Receipt) :=
  match command with
  | .importBundle bundle => importBundle sha256 state bundle receipt
  | .setCurrentRoots assetIds => do
      let currentRoots ← roots state assetIds
      return ({ state with currentRoots := currentRoots }, receipt)
  | .setHistoryRoots name assetIds => do
      let staged ← setHistoryRoots state name assetIds
      return (staged, receipt)
  | .removeHistoryRoots name => do
      rootName name
      return ({ state with
        historyRoots := state.historyRoots.filter fun entry => entry.name != name }, receipt)
  | .collect => .ok (collect state receipt)

/-- `Catalog::apply`: the receipt and the state left behind. -/
def apply (command : Command) (expectedRevision : UInt64) (state : Snapshot) :
    Receipt × Snapshot :=
  let receipt := Receipt.initial state.revision
  if expectedRevision != state.revision then
    ({ receipt with code := ascii "REVISION_CONFLICT" }, state)
  else if state.revision == maximumRevision then
    ({ receipt with code := ascii "REVISION_EXHAUSTED" }, state)
  else
    match stage sha256 command state receipt with
    | .error code => ({ receipt with code := code }, state)
    | .ok (staged, answered) =>
        ({ answered with status := ascii "committed", revision := staged.revision + 1 },
          { staged with revision := staged.revision + 1 })

/-- The commands a catalog was sent, each with the revision it expects. -/
abbrev Calls := List (Command × UInt64)

/-- The catalog after a sequence of commands. -/
def run (calls : Calls) : Snapshot :=
  calls.foldl (fun state call => (apply sha256 call.1 call.2 state).2) Snapshot.fresh

end Bundles

def assetRetention (state : Snapshot) (asset : Asset) : AssetRetention where
  id := asset.id
  contentHash := asset.manifest.contentHash
  currentRoot := Keyed.binarySearch state.currentRoots asset.id
  historyRoots :=
    (state.historyRoots.filter fun roots =>
      Keyed.binarySearch roots.assetIds asset.id).map HistoryRoots.name

def AssetRetention.rooted (row : AssetRetention) : Bool :=
  row.currentRoot || !row.historyRoots.isEmpty

def blobRetention (rows : List AssetRetention) (blob : Blob) : BlobRetention :=
  let referencing := rows.filter fun row => row.contentHash == blob.hash
  { hash := blob.hash
    referencingAssets := referencing.map AssetRetention.id
    retainingAssets := (referencing.filter AssetRetention.rooted).map AssetRetention.id }

def retentionReport (state : Snapshot) : RetentionReport :=
  let rows := state.assets.map (assetRetention state)
  let blobs := state.blobs.map (blobRetention rows)
  { formatVersion := 1
    currentRoots := state.currentRoots
    historyRoots := state.historyRoots
    assets := rows
    blobs := blobs
    removableAssets := (rows.filter fun row => !row.rooted).map AssetRetention.id
    removableBlobs :=
      (blobs.filter fun row => row.retainingAssets.isEmpty).map BlobRetention.hash }

def inspectRetention (expectedRevision : UInt64) (state : Snapshot) : RetentionResult :=
  if expectedRevision != state.revision then
    ⟨ascii "rejected", ascii "REVISION_CONFLICT", state.revision, none⟩
  else ⟨ascii "ok", [], state.revision, some (retentionReport state)⟩

/-- One asset of `export_bundle`. -/
def exportAsset (asset : Asset) : Except Text Bytes := do
  let digest ← digestBytes asset.id
  let manifest ← canonicalManifest asset.manifest
  return digest ++ littleEndian manifest.length 4 ++ manifest

/-- One blob of `export_bundle`, always raw. -/
def exportBlob (blob : Blob) : Bytes :=
  text (blobPrefix ++ blob.hash) ++ [0] ++ littleEndian blob.bytes.length 4 ++
    littleEndian blob.bytes.length 4 ++ blob.bytes

def exportBundle (state : Snapshot) : Except Text Bytes := do
  let assets ← state.assets.mapM exportAsset
  let bytes := bundleMagic ++ littleEndian 1 4 ++ littleEndian state.assets.length 4 ++
    littleEndian state.blobs.length 4 ++ assets.flatten ++ state.blobs.flatMap exportBlob
  rejectIf (decide (bundleByteLimit < bytes.length)) (ascii "BUDGET_EXCEEDED")
  return bytes

end Omniweft.Assets
