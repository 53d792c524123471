import Omniweft.AssetsExport
import Omniweft.AssetsImports
import Omniweft.GltfBuffers
import Omniweft.GltfNodes
import Omniweft.Sha256

/-!
# The import of a GLB document

`import_glb` writes its own bundle. The bundle is the export of a catalog with
one asset and one blob, so the catalog's decoder takes it, and only the limits
of the catalog are left to stop the import.
-/

namespace Omniweft.Gltf

open Outcome Assets

section Records

variable {sha256 : Bytes → Vector UInt8 32}

/-- A catalog of one asset and its blob. -/
def single (asset : Asset) (glb : Bytes) : Snapshot :=
  { Snapshot.fresh with assets := [asset], blobs := [⟨asset.manifest.contentHash, glb⟩] }

/-- An asset that names these bytes. -/
structure Names (sha256 : Bytes → Vector UInt8 32) (asset : Asset) (glb : Bytes) : Prop where
  identified : assetId sha256 asset.manifest = .ok asset.id
  hashed : contentHash sha256 glb = .ok asset.manifest.contentHash
  sized : asset.manifest.decodedLength.toNat = glb.length

theorem Names.small {asset : Asset} {glb : Bytes} (names : Names sha256 asset glb) :
    glb.length ≤ blobByteLimit :=
  (contentHash_eq_ok.mp names.hashed).1

theorem Names.stocked {asset : Asset} {glb : Bytes} (names : Names sha256 asset glb) :
    Stocked sha256 (single asset glb).assets (single asset glb).blobs where
  assetsAscending := List.pairwise_singleton _ _
  blobsAscending := List.pairwise_singleton _ _
  identified := by
    intro other member
    rw [List.mem_singleton.mp member]
    exact names.identified
  hashed := by
    intro other member
    rw [List.mem_singleton.mp member]
    exact names.hashed
  closed := by
    refine ⟨?_, ?_⟩
    · intro other member
      rw [List.mem_singleton.mp member]
      exact ⟨_, List.mem_singleton_self _, rfl, names.sized.symm⟩
    · intro other member
      rw [List.mem_singleton.mp member]
      exact ⟨asset, List.mem_singleton_self _, rfl⟩
  assetCount := by simp [single, manifestLimit]
  blobCount := by simp [single, blobLimit]
  total := by
    have small := names.small
    simp only [single, blobBytes, List.map_cons, List.map_nil, List.sum_cons, List.sum_nil]
    simp only [blobByteLimit, decodedByteLimit] at *
    omega

/-- The bundle that the import writes is the export of that catalog. -/
theorem bundle_eq_export {asset : Asset} {glb bytes : Bytes} (names : Names sha256 asset glb)
    (exported : exportBundle (single asset glb) = .ok bytes) : bundle asset glb = .ok bytes := by
  have pathLength : (blobPrefix ++ asset.manifest.contentHash).length = 70 := by
    have valid := contentHash_valid names.hashed
    simp only [validHash, Bool.and_eq_true, beq_iff_eq] at valid
    rw [List.length_append, valid.1]
    rfl
  have sized : littleEndian 70 2 = [70, 0] := by decide
  unfold exportBundle at exported
  simp only [bind_eq_ok, pure_eq_ok, single, List.mapM_cons, List.mapM_nil, exportAsset,
    rejectIf_eq_ok, digestBytes] at exported
  obtain ⟨_, ⟨_, ⟨_, ⟨_, _, rfl⟩, manifest, written, rfl⟩, _, rfl, rfl⟩, _, _, rfl⟩ := exported
  unfold bundle
  rw [written]
  simp only [List.flatMap_cons, List.flatMap_nil, exportBlob, Assets.text, pathLength, sized]
  simp [bind, Except.bind, pure, Except.pure, bundleMagic, blobPrefix, digest]

theorem bundle_encodes {asset : Asset} {glb : Bytes} (names : Names sha256 asset glb) :
    ∃ bytes, bundle asset glb = .ok bytes ∧
      decodeBundle sha256 bytes = .ok (single asset glb) := by
  obtain ⟨bytes, exported, encodes⟩ := exportBundle_encodes names.stocked
  exact ⟨bytes, bundle_eq_export names exported, (decodeBundle_eq_ok sha256).mpr encodes⟩

/-- What the catalog's limits have against one more asset with its blob. -/
def NoRoom (catalog : Snapshot) (asset : Asset) (glb : Bytes) : Prop :=
  (asset.id ∉ catalog.assets.map Asset.id ∧ catalog.assets.length = manifestLimit) ∨
    asset.manifest.contentHash ∉ catalog.blobs.map Blob.hash ∧
      (catalog.blobs.length = blobLimit ∨
        decodedByteLimit < blobBytes catalog.blobs + glb.length)

theorem room_fresh {asset : Asset} {glb : Bytes} (small : glb.length ≤ blobByteLimit) :
    ¬NoRoom Snapshot.fresh asset glb := by
  rintro (⟨_, full⟩ | ⟨_, full | beyond⟩)
  · exact absurd full (by decide)
  · exact absurd full (by decide)
  · change decodedByteLimit < 0 + glb.length at beyond
    simp only [decodedByteLimit, blobByteLimit] at *
    omega

theorem quota_fails (state : Snapshot) :
    Fails (fun code => code = ascii "BUDGET_EXCEEDED") (quota state) := by
  unfold quota
  refine fails_bind (fails_rejectIf _ rfl) fun _ => ?_
  refine fails_bind (fails_foldlM ?_ _ _) fun _ => fails_pure _
  intro total blob
  exact fails_bind (fails_rejectIf _ rfl) fun _ => fails_pure _

/-- The record under the asset's id, or under the blob's hash, is the one that comes. -/
theorem records_agree {catalog : Snapshot} (consistent : Consistent sha256 catalog)
    {asset : Asset} {glb : Bytes} (names : Names sha256 asset glb)
    (apart : Set.InjOn sha256 (hashedBytes catalog ∪ hashedBytes (single asset glb))) :
    (∀ found ∈ catalog.assets, found.id = asset.id → found = asset) ∧
      ∀ found ∈ catalog.blobs, found.hash = asset.manifest.contentHash → found.bytes = glb := by
  constructor
  · intro found member same
    refine asset_apart apart same (consistent.stocked.identified found member) names.identified
      ?_ ?_
    · intro bytes written
      exact Or.inl (Or.inl ⟨found, member, written⟩)
    · intro bytes written
      exact Or.inr (Or.inl ⟨asset, List.mem_singleton_self _, written⟩)
  · intro found member same
    have hashed := consistent.stocked.hashed found member
    rw [same] at hashed
    refine contentHash_apart apart (Or.inl (Or.inr ⟨found, member, rfl⟩)) ?_ hashed names.hashed
    exact Or.inr (Or.inr ⟨_, List.mem_singleton_self _, rfl⟩)

/-- The end of an import whose counts fit: the total of the bytes decides. -/
theorem merged_cases {merged : Snapshot} (few : merged.assets.length ≤ manifestLimit)
    (fewBlobs : merged.blobs.length ≤ blobLimit)
    (small : ∀ blob ∈ merged.blobs, blob.bytes.length ≤ blobByteLimit) (answered : Receipt) :
    (decodedByteLimit < blobBytes merged.blobs →
        (do
          quota merged
          return (sortEntries merged, answered)) = .error (ascii "BUDGET_EXCEEDED")) ∧
      (blobBytes merged.blobs ≤ decodedByteLimit →
        (do
          quota merged
          return (sortEntries merged, answered) : Except Text (Snapshot × Receipt)) =
          .ok (sortEntries merged, answered)) := by
  constructor
  · intro beyond
    cases checked : quota merged with
    | error code =>
        rw [quota_fails merged code checked]
        rfl
    | ok done =>
        have within := (quota_eq_ok.mp checked).2.2.2
        omega
  · intro within
    rw [(@quota_eq_ok merged ()).mpr ⟨few, fewBlobs, small, within⟩]
    rfl

/-- Without collisions, only the limits decide whether the asset and its blob are taken. -/
theorem importBundle_single {catalog : Snapshot} (consistent : Consistent sha256 catalog)
    {asset : Asset} {glb bytes : Bytes} (names : Names sha256 asset glb)
    (decoded : decodeBundle sha256 bytes = .ok (single asset glb))
    (apart : Set.InjOn sha256 (hashedBytes catalog ∪ hashedBytes (single asset glb)))
    (receipt : Receipt) :
    (NoRoom catalog asset glb →
        importBundle sha256 catalog bytes receipt = .error (ascii "BUDGET_EXCEEDED")) ∧
      (¬NoRoom catalog asset glb →
        ∃ staged answered, importBundle sha256 catalog bytes receipt = .ok (staged, answered)) := by
  obtain ⟨sameAsset, sameBlob⟩ := records_agree consistent names apart
  have stocked := consistent.stocked
  set blob : Blob := ⟨asset.manifest.contentHash, glb⟩ with blobEqual
  have assetEntered := @Keyed.enter_agreeing Text Asset AssetId Manifest _ _ Asset.id
    Asset.manifest manifestLimit (ascii "BUDGET_EXCEEDED") (ascii "HASH_MISMATCH")
    catalog.assets asset fun found member same => by rw [sameAsset found member same]
  have blobEntered := @Keyed.enter_agreeing Text Blob BlobId Bytes _ _ Blob.hash
    Blob.bytes blobLimit (ascii "BUDGET_EXCEEDED") (ascii "HASH_MISMATCH")
    catalog.blobs blob fun found member same => sameBlob found member same
  have shape : importBundle sha256 catalog bytes receipt = (do
      let assets ← importAsset catalog.assets asset
      let blobs ← importBlob catalog.blobs blob
      let merged := { catalog with assets := assets, blobs := blobs }
      quota merged
      return (sortEntries merged, { receipt with imported := [asset.id] })) := by
    unfold importBundle
    rw [decoded]
    change (do
      let assets ← [asset].foldlM importAsset catalog.assets
      let blobs ← [blob].foldlM importBlob catalog.blobs
      let merged := { catalog with assets := assets, blobs := blobs }
      quota merged
      return (sortEntries merged, { receipt with imported := [asset.id] })) = _
    simp only [List.foldlM_cons, List.foldlM_nil, bind_pure]
  rw [shape]
  by_cases assetFull : asset.id ∉ catalog.assets.map Asset.id ∧
      catalog.assets.length = manifestLimit
  · rw [importAsset, assetEntered, if_neg assetFull.1, if_pos assetFull.2]
    exact ⟨fun _ => rfl, fun room => absurd (Or.inl assetFull) room⟩
  obtain ⟨assets, assetsEntered, few⟩ : ∃ assets : List Asset,
      importAsset catalog.assets asset = .ok assets ∧ assets.length ≤ manifestLimit := by
    have within := stocked.assetCount
    rw [importAsset, assetEntered]
    by_cases there : asset.id ∈ catalog.assets.map Asset.id
    · exact ⟨_, if_pos there, within⟩
    · have room : catalog.assets.length ≠ manifestLimit := fun full => assetFull ⟨there, full⟩
      refine ⟨_, (if_neg there).trans (if_neg room), ?_⟩
      rw [List.length_append, List.length_singleton]
      omega
  rw [assetsEntered, importBlob, blobEntered]
  have sizes : ∀ other ∈ catalog.blobs, other.bytes.length ≤ blobByteLimit :=
    fun other member => (contentHash_eq_ok.mp (stocked.hashed other member)).1
  by_cases blobThere : asset.manifest.contentHash ∈ catalog.blobs.map Blob.hash
  · have room : ¬NoRoom catalog asset glb := by
      rintro (full | ⟨absent, _⟩)
      · exact assetFull full
      · exact absent blobThere
    rw [if_pos blobThere]
    have ended := (@merged_cases { catalog with assets := assets } few stocked.blobCount sizes
      { receipt with imported := [asset.id] }).2 stocked.total
    exact ⟨fun full => absurd full room, fun _ => ⟨_, _, ended⟩⟩
  by_cases blobFull : catalog.blobs.length = blobLimit
  · rw [if_neg blobThere, if_pos blobFull]
    exact ⟨fun _ => rfl, fun room => absurd (Or.inr ⟨blobThere, Or.inl blobFull⟩) room⟩
  rw [if_neg blobThere, if_neg blobFull]
  have fewBlobs : (catalog.blobs ++ [blob]).length ≤ blobLimit := by
    have within := stocked.blobCount
    rw [List.length_append, List.length_singleton]
    omega
  have allSizes : ∀ other ∈ catalog.blobs ++ [blob], other.bytes.length ≤ blobByteLimit := by
    intro other member
    rcases List.mem_append.mp member with old | new
    · exact sizes other old
    · rw [List.mem_singleton.mp new]
      exact names.small
  have total : blobBytes (catalog.blobs ++ [blob]) = blobBytes catalog.blobs + glb.length := by
    rw [blobBytes_append]
    simp [blobBytes, blobEqual]
  have ended := @merged_cases { catalog with assets := assets, blobs := catalog.blobs ++ [blob] }
    few fewBlobs allSizes { receipt with imported := [asset.id] }
  constructor
  · rintro (full | ⟨_, full | beyond⟩)
    · exact absurd full assetFull
    · exact absurd full blobFull
    · exact ended.1 (total ▸ beyond)
  · intro room
    have within : blobBytes (catalog.blobs ++ [blob]) ≤ decodedByteLimit := by
      rw [total]
      by_contra beyond
      exact room (Or.inr ⟨blobThere, Or.inr (by omega)⟩)
    exact ⟨_, _, ended.2 within⟩

end Records

section Imports

variable {α : Type} [Scalar α] [Conversions α]
variable {parser : Parser α} {sha256 : Bytes → Vector UInt8 32}

/-- A decoded file is no longer than a blob may be. -/
theorem decode_small {bytes : Bytes} {scene : Scene α}
    (decoded : decode parser bytes = .ok scene) : bytes.length ≤ blobByteLimit := by
  unfold decode at decoded
  rw [bind_eq_ok] at decoded
  obtain ⟨data, contained, _⟩ := decoded
  unfold container at contained
  simp only [bind_eq_ok, rejectIf_eq_ok, decide_eq_false_iff_not, Nat.not_lt] at contained
  obtain ⟨_, small, _⟩ := contained
  exact small

/-- Both modules have one rule for provenance. -/
theorem provenance_eq_ok {value : Text} {limit : Nat} :
    provenance value limit = .ok () ↔ asciiText value limit = true := by
  simp only [provenance, rejectIf_eq_ok, asciiText, Bool.or_eq_false_iff, Bool.not_eq_false',
    decide_eq_false_iff_not, Nat.not_lt, Bool.and_eq_true, Bool.not_eq_true',
    decide_eq_true_eq]

/-- The manifest that the import gives a file. -/
def manifestOf (sha256 : Bytes → Vector UInt8 32) (request : ImportRequest) : Manifest :=
  ⟨1, Assets.hex (sha256 request.glb).toList, UInt32.ofNat request.glb.length,
    ascii "model/gltf-binary", request.source, request.license⟩

theorem manifestOf_hash (request : ImportRequest)
    (small : request.glb.length ≤ blobByteLimit) :
    contentHash sha256 request.glb = .ok (manifestOf sha256 request).contentHash :=
  contentHash_eq_ok.mpr ⟨small, rfl⟩

theorem manifestOf_length (request : ImportRequest)
    (small : request.glb.length ≤ blobByteLimit) :
    (manifestOf sha256 request).decodedLength.toNat = request.glb.length := by
  simp only [blobByteLimit] at small
  exact UInt32.toNat_ofNat_of_lt' (show request.glb.length < 4294967296 by omega)

theorem manifestOf_valid {request : ImportRequest}
    (small : request.glb.length ≤ blobByteLimit)
    (source : provenance request.source 128 = .ok ())
    (license : provenance request.license 64 = .ok ()) :
    (manifestOf sha256 request).Valid where
  version := rfl
  bounded := by
    rw [manifestOf_length request small]
    exact small
  hash := contentHash_valid (manifestOf_hash request small)
  mediaType := by
    change asciiText (ascii "model/gltf-binary") 64 = true
    decide
  source := provenance_eq_ok.mp source
  license := provenance_eq_ok.mp license

/-- A valid manifest has an id. -/
theorem assetId_exists {manifest : Manifest} (valid : manifest.Valid) :
    ∃ id, assetId sha256 manifest = .ok id := by
  obtain ⟨inner, sized, spelled⟩ := validHash_iff.mp valid.hash
  have written := canonicalManifest_eq_ok.mpr ⟨valid, inner, sized, spelled, rfl⟩
  have short := manifestBytes_length valid sized
  refine ⟨Assets.hex (sha256 (manifestBytes manifest inner)).toList, ?_⟩
  unfold assetId
  rw [written]
  refine contentHash_eq_ok.mpr ⟨?_, rfl⟩
  simp only [canonicalLimit, blobByteLimit] at *
  omega

/-- A decoded file with valid provenance is staged. -/
theorem prepare_passes {request : ImportRequest} {scene : Scene α}
    (decoded : decode parser request.glb = .ok scene)
    (source : provenance request.source 128 = .ok ())
    (license : provenance request.license 64 = .ok ()) :
    ∃ asset bytes, asset.manifest = manifestOf sha256 request ∧
      Names sha256 asset request.glb ∧ bundle asset request.glb = .ok bytes ∧
      prepare parser sha256 request = .ok ({ scene with sourceAsset := asset }, bytes) ∧
      decodeBundle sha256 bytes = .ok (single asset request.glb) := by
  have small := decode_small decoded
  obtain ⟨id, identified⟩ :=
    @assetId_exists sha256 (manifestOf sha256 request) (manifestOf_valid small source license)
  have names : Names sha256 ⟨id, manifestOf sha256 request⟩ request.glb :=
    ⟨identified, manifestOf_hash request small, manifestOf_length request small⟩
  obtain ⟨bytes, written, taken⟩ := bundle_encodes names
  refine ⟨_, bytes, rfl, names, written, ?_, taken⟩
  unfold prepare
  rw [source, license, decoded, manifestOf_hash request small]
  change (do
    let id ← assetId sha256 (manifestOf sha256 request)
    let bytes ← bundle ⟨id, manifestOf sha256 request⟩ request.glb
    return ({ scene with sourceAsset := ⟨id, manifestOf sha256 request⟩ }, bytes)) = _
  rw [identified]
  change (do
    let bytes ← bundle ⟨id, manifestOf sha256 request⟩ request.glb
    return ({ scene with sourceAsset := ⟨id, manifestOf sha256 request⟩ }, bytes)) = _
  rw [written]
  rfl

/-- Whatever is staged, its bundle holds the asset of the scene and the file. -/
theorem prepare_spec {request : ImportRequest} {scene : Scene α} {bytes : Bytes}
    (prepared : prepare parser sha256 request = .ok (scene, bytes)) :
    ∃ plain, decode parser request.glb = .ok plain ∧
      scene = { plain with sourceAsset := scene.sourceAsset } ∧
      provenance request.source 128 = .ok () ∧ provenance request.license 64 = .ok () := by
  unfold prepare at prepared
  simp only [bind_eq_ok, pure_eq_ok, Prod.mk.injEq] at prepared
  obtain ⟨_, source, _, license, plain, decoded, _, _, _, _, _, _, rfl, _⟩ := prepared
  exact ⟨plain, decoded, rfl, source, license⟩

/-- A catalog that commands and imports reach. -/
inductive Reached (parser : Parser α) (sha256 : Bytes → Vector UInt8 32) : Snapshot → Prop
  | fresh : Reached parser sha256 Snapshot.fresh
  | command {catalog : Snapshot} (command : Command) (expectedRevision : UInt64) :
      Reached parser sha256 catalog →
      Reached parser sha256 (apply sha256 command expectedRevision catalog).2
  | imported {catalog : Snapshot} (request : ImportRequest) :
      Reached parser sha256 catalog →
      Reached parser sha256 (importGlb parser sha256 request catalog).2

/-- What an import can do to a catalog. -/
theorem importGlb_cases (request : ImportRequest) (catalog : Snapshot) :
    (∃ code, importGlb parser sha256 request catalog =
        (⟨{ Receipt.initial catalog.revision with code := code }, none⟩, catalog) ∧
      (request.expectedRevision ≠ catalog.revision → code = ascii "REVISION_CONFLICT") ∧
      (request.expectedRevision = catalog.revision →
        prepare parser sha256 request = .error code)) ∨
      (request.expectedRevision = catalog.revision ∧ ∃ scene bytes,
        prepare parser sha256 request = .ok (scene, bytes) ∧
        importGlb parser sha256 request catalog =
          (⟨(apply sha256 (.importBundle bytes) catalog.revision catalog).1,
            if (apply sha256 (.importBundle bytes) catalog.revision catalog).1.status !=
              ascii "committed" then none else some scene⟩,
            (apply sha256 (.importBundle bytes) catalog.revision catalog).2)) := by
  unfold importGlb
  by_cases conflict : request.expectedRevision = catalog.revision
  · cases staged : prepare parser sha256 request with
    | error code =>
        refine Or.inl ⟨code, ?_, fun different => absurd conflict different, fun _ => rfl⟩
        simp [conflict]
    | ok prepared =>
        refine Or.inr ⟨conflict, prepared.1, prepared.2, rfl, ?_⟩
        simp [conflict]
  · refine Or.inl ⟨_, ?_, fun _ => rfl, fun same => absurd same conflict⟩
    simp [conflict]

theorem Reached.consistent {catalog : Snapshot} (reached : Reached parser sha256 catalog) :
    Consistent sha256 catalog := by
  induction reached with
  | fresh => exact consistent_fresh
  | command command expectedRevision _ consistent =>
      exact apply_consistent consistent command expectedRevision
  | imported request _ consistent =>
      rcases @importGlb_cases α _ _ parser sha256 request _ with
        ⟨code, refused, _⟩ | ⟨_, scene, bytes, _, applied⟩
      · rw [refused]
        exact consistent
      · rw [applied]
        exact apply_consistent consistent _ _

/-- What a commit leaves: the one asset and the file, and one revision more. -/
structure Committed (sha256 : Bytes → Vector UInt8 32) (request : ImportRequest)
    (catalog after : Snapshot) (receipt : Receipt) (asset : Asset) : Prop where
  expected : request.expectedRevision = catalog.revision
  status : receipt.status = ascii "committed"
  revision : receipt.revision.toNat = catalog.revision.toNat + 1
  imported : receipt.imported = [asset.id]
  manifest : asset.manifest = manifestOf sha256 request
  advanced : after.revision = receipt.revision
  assets : ∀ other, other ∈ after.assets ↔ other ∈ catalog.assets ∨ other = asset
  blobs : ∀ other, other ∈ after.blobs ↔
    other ∈ catalog.blobs ∨ other = ⟨asset.manifest.contentHash, request.glb⟩
  currentRoots : after.currentRoots = catalog.currentRoots
  historyRoots : after.historyRoots = catalog.historyRoots

/-- What a refusal leaves: no scene and the catalog as it was. -/
structure Refused (catalog : Snapshot) (outcome : ImportResult α × Snapshot) : Prop where
  noScene : outcome.1.scene = none
  status : outcome.1.receipt.status = ascii "rejected"
  revision : outcome.1.receipt.revision = catalog.revision
  imported : outcome.1.receipt.imported = []
  unchanged : outcome.2 = catalog

/-- A staged import is decoded, and its bundle holds the asset of its scene and the file. -/
theorem prepared_bundle {request : ImportRequest} {scene : Scene α} {bytes : Bytes}
    (prepared : prepare parser sha256 request = .ok (scene, bytes)) :
    scene.sourceAsset.manifest = manifestOf sha256 request ∧
      decodeBundle sha256 bytes = .ok (single scene.sourceAsset request.glb) := by
  obtain ⟨plain, decoded, _, source, license⟩ := prepare_spec prepared
  obtain ⟨asset, written, manifest, _, _, again, taken⟩ :=
    @prepare_passes α _ _ parser sha256 request plain decoded source license
  rw [prepared] at again
  injection again with same
  injection same with sameScene sameBytes
  rw [sameScene, sameBytes]
  exact ⟨manifest, taken⟩

/-- A staged import of the expected revision commits as a whole or not at all. -/
theorem staged_outcome {catalog : Snapshot} (consistent : Consistent sha256 catalog)
    {request : ImportRequest} (expected : request.expectedRevision = catalog.revision)
    {scene : Scene α} {bytes : Bytes}
    (prepared : prepare parser sha256 request = .ok (scene, bytes)) :
    let applied := apply sha256 (.importBundle bytes) catalog.revision catalog
    (applied.1.status = ascii "committed" ∧
        Committed sha256 request catalog applied.2 applied.1 scene.sourceAsset) ∨
      (applied.1.status = ascii "rejected" ∧ applied.1.revision = catalog.revision ∧
        applied.1.imported = [] ∧ applied.2 = catalog) := by
  intro applied
  rcases @apply_cases sha256 (.importBundle bytes) catalog.revision catalog with
    ⟨code, refused⟩ | ⟨_, notLast, staged, answered, stagedOk, done⟩
  · have shape : applied = _ := refused
    rw [shape]
    exact Or.inr ⟨rfl, rfl, rfl, rfl⟩
  · obtain ⟨manifest, taken⟩ := prepared_bundle prepared
    obtain ⟨incoming, decoded, imported, _, receipt⟩ :=
      importBundle_spec consistent.stocked stagedOk
    rw [taken] at decoded
    injection decoded with same
    rw [← same] at imported receipt
    have stagedRevision : staged.revision = catalog.revision := by rw [imported.others]
    have shape : applied = _ := done
    rw [shape]
    refine Or.inl ⟨rfl, ?_⟩
    exact
      { expected := expected
        status := rfl
        revision := by
          change (staged.revision + 1).toNat = _
          rw [stagedRevision]
          exact next_revision notLast
        imported := by
          change answered.imported = _
          rw [receipt]
          rfl
        manifest := manifest
        advanced := rfl
        assets := by
          intro other
          rw [show other = scene.sourceAsset ↔ other ∈ [scene.sourceAsset] from
            List.mem_singleton.symm]
          exact imported.assets other
        blobs := by
          intro other
          rw [← List.mem_singleton]
          exact imported.blobs other
        currentRoots := by
          change staged.currentRoots = _
          rw [imported.others]
        historyRoots := by
          change staged.historyRoots = _
          rw [imported.others] }

/-- Every import commits one asset and its file, or leaves everything as it was. -/
theorem importGlb_outcome {catalog : Snapshot} (consistent : Consistent sha256 catalog)
    (request : ImportRequest) :
    (∃ plain scene, decode parser request.glb = .ok plain ∧
        scene = { plain with sourceAsset := scene.sourceAsset } ∧
        (importGlb parser sha256 request catalog).1.scene = some scene ∧
        Committed sha256 request catalog (importGlb parser sha256 request catalog).2
          (importGlb parser sha256 request catalog).1.receipt scene.sourceAsset) ∨
      Refused catalog (importGlb parser sha256 request catalog) := by
  rcases @importGlb_cases α _ _ parser sha256 request catalog with
    ⟨code, refused, _⟩ | ⟨expected, scene, bytes, prepared, applied⟩
  · rw [refused]
    exact Or.inr ⟨rfl, rfl, rfl, rfl, rfl⟩
  · obtain ⟨plain, decoded, named, _⟩ := prepare_spec prepared
    rw [applied]
    rcases staged_outcome consistent expected prepared with
      ⟨status, committed⟩ | ⟨status, revision, imported, unchanged⟩
    · refine Or.inl ⟨plain, scene, decoded, named, ?_, committed⟩
      simp [status]
    · have apart : ascii "rejected" ≠ ascii "committed" := by decide
      refine Or.inr ⟨?_, status, revision, imported, unchanged⟩
      simp [status, apart]

/-- Without collisions, only the revisions and the limits stop a decoded file. -/
theorem staged_decided {catalog : Snapshot} (consistent : Consistent sha256 catalog)
    {request : ImportRequest} {asset : Asset} {bytes : Bytes} {scene : Scene α}
    (names : Names sha256 asset request.glb)
    (prepared : prepare parser sha256 request = .ok (scene, bytes))
    (taken : decodeBundle sha256 bytes = .ok (single asset request.glb))
    (apart : Set.InjOn sha256 (hashedBytes catalog ∪ hashedBytes (single asset request.glb))) :
    let answer := (importGlb parser sha256 request catalog).1
    (request.expectedRevision ≠ catalog.revision →
        answer.receipt.code = ascii "REVISION_CONFLICT") ∧
      (request.expectedRevision = catalog.revision →
        (catalog.revision = maximumRevision →
            answer.receipt.code = ascii "REVISION_EXHAUSTED") ∧
          (catalog.revision ≠ maximumRevision →
            (NoRoom catalog asset request.glb →
                answer.receipt.code = ascii "BUDGET_EXCEEDED") ∧
              (¬NoRoom catalog asset request.glb → answer.scene = some scene))) := by
  intro answer
  have decided := importBundle_single consistent names taken apart
    (Receipt.initial catalog.revision)
  rcases @importGlb_cases α _ _ parser sha256 request catalog with
    ⟨code, refused, conflict, failed⟩ | ⟨expected, staged, written, again, applied⟩
  · have shape : answer = _ := congrArg Prod.fst refused
    constructor
    · intro different
      rw [shape]
      exact conflict different
    · intro same
      have failure := failed same
      rw [prepared] at failure
      cases failure
  · rw [prepared] at again
    injection again with same
    injection same with sameScene sameBytes
    subst sameScene sameBytes
    have shape : answer = _ := congrArg Prod.fst applied
    rw [shape]
    refine ⟨fun different => absurd expected different, fun _ => ⟨?_, ?_⟩⟩
    · intro last
      simp [apply, last]
    intro notLast
    constructor
    · intro full
      have staged := decided.1 full
      simp [apply, stage, staged, notLast]
    · intro room
      have committed := import_commits notLast (decided.2 room)
      simp [committed]

variable (parser sha256) in
/-- An import is one commit: it commits the asset of the scene with its file or leaves the
catalog as it was, and once a file decodes under valid provenance its bundle is taken, so
that only the revisions and the limits of the catalog can refuse it. -/
theorem import_one_commit {catalog : Snapshot} (reached : Reached parser sha256 catalog)
    (request : ImportRequest) :
    ((∃ plain scene, decode parser request.glb = .ok plain ∧
        scene = { plain with sourceAsset := scene.sourceAsset } ∧
        (importGlb parser sha256 request catalog).1.scene = some scene ∧
        Committed sha256 request catalog (importGlb parser sha256 request catalog).2
          (importGlb parser sha256 request catalog).1.receipt scene.sourceAsset) ∨
      Refused catalog (importGlb parser sha256 request catalog)) ∧
    ∀ plain, decode parser request.glb = .ok plain →
      provenance request.source 128 = .ok () → provenance request.license 64 = .ok () →
      ∃ asset bytes, asset.manifest = manifestOf sha256 request ∧
        bundle asset request.glb = .ok bytes ∧
        decodeBundle sha256 bytes = .ok (single asset request.glb) ∧
        (Set.InjOn sha256 (hashedBytes catalog ∪ hashedBytes (single asset request.glb)) →
          let answer := (importGlb parser sha256 request catalog).1
          (request.expectedRevision ≠ catalog.revision →
              answer.receipt.code = ascii "REVISION_CONFLICT") ∧
            (request.expectedRevision = catalog.revision →
              (catalog.revision = maximumRevision →
                  answer.receipt.code = ascii "REVISION_EXHAUSTED") ∧
                (catalog.revision ≠ maximumRevision →
                  (NoRoom catalog asset request.glb →
                      answer.receipt.code = ascii "BUDGET_EXCEEDED") ∧
                    (¬NoRoom catalog asset request.glb →
                      answer.scene = some { plain with sourceAsset := asset })))) := by
  refine ⟨importGlb_outcome reached.consistent request, ?_⟩
  intro plain decoded source license
  obtain ⟨asset, bytes, manifest, names, written, prepared, taken⟩ :=
    @prepare_passes α _ _ parser sha256 request plain decoded source license
  refine ⟨asset, bytes, manifest, written, taken, ?_⟩
  intro apart
  exact staged_decided reached.consistent names prepared taken apart

end Imports

/-- The text of the document, filled up with spaces. -/
def triangleText : Bytes :=
  let printed := JsonText.print triangleDocument
  printed ++ List.replicate (3 - (printed.length + 3) % 4) 32

/-- The file: a header and two chunks. -/
def triangleFile : Bytes :=
  littleEndian 0x46546c67 4 ++ littleEndian 2 4 ++
    littleEndian (28 + triangleText.length + 44) 4 ++
    littleEndian triangleText.length 4 ++ littleEndian 0x4e4f534a 4 ++ triangleText ++
    littleEndian 44 4 ++ littleEndian 0x004e4942 4 ++ triangleBuffer ++ [0, 0]

/-- A parser of compact text that spaces may follow. -/
def compactParser : Parser Halves where
  parse bytes := JsonText.read (bytes.reverse.dropWhile (· == 32)).reverse
  events bytes :=
    match JsonText.read (bytes.reverse.dropWhile (· == 32)).reverse with
    | none => [.parseError 101]
    | some document => events document

def triangleRequest : ImportRequest :=
  ⟨triangleFile, ascii "generated:unit/triangle", ascii "Apache-2.0", 0⟩

set_option maxRecDepth 20000 in
theorem decode_triangle :
    (decode compactParser triangleFile).toBool = true := by decide +kernel

/-- The file and the manifest of its asset do not hash alike. -/
def distinguishes (sha256 : Bytes → Vector UInt8 32) (request : ImportRequest) : Bool :=
  match canonicalManifest (manifestOf sha256 request) with
  | .ok bytes => sha256 bytes != sha256 request.glb
  | .error _ => false

set_option maxRecDepth 20000 in
theorem triangle_distinguished : distinguishes Sha256.digest triangleRequest = true := by
  rw [Sha256.digest_eq]
  decide +kernel

theorem distinguishes_apart {sha256 : Bytes → Vector UInt8 32} {request : ImportRequest}
    (told : distinguishes sha256 request = true) {asset : Asset}
    (manifest : asset.manifest = manifestOf sha256 request) :
    Set.InjOn sha256
      (hashedBytes Snapshot.fresh ∪ hashedBytes (single asset request.glb)) := by
  unfold distinguishes at told
  rw [← manifest] at told
  have hashed : ∀ bytes ∈ hashedBytes Snapshot.fresh ∪ hashedBytes (single asset request.glb),
      canonicalManifest asset.manifest = .ok bytes ∨ bytes = request.glb := by
    rintro bytes ((⟨_, none, _⟩ | ⟨_, none, _⟩) | ⟨_, one, written⟩ | ⟨_, one, rfl⟩)
    · cases none
    · cases none
    · rw [List.mem_singleton.mp one] at written
      exact Or.inl written
    · rw [List.mem_singleton.mp one]
      exact Or.inr rfl
  have differ {bytes : Bytes} (written : canonicalManifest asset.manifest = .ok bytes) :
      sha256 bytes ≠ sha256 request.glb := by
    rw [written] at told
    exact bne_iff_ne.mp told
  intro left leftHashed right rightHashed same
  rcases hashed left leftHashed with leftWritten | leftFile
  · rcases hashed right rightHashed with rightWritten | rightFile
    · rw [leftWritten] at rightWritten
      injection rightWritten
    · exact absurd (rightFile ▸ same) (differ leftWritten)
  · rcases hashed right rightHashed with rightWritten | rightFile
    · exact absurd (leftFile ▸ same.symm) (differ rightWritten)
    · rw [leftFile, rightFile]

/-- The triangle is imported into a new catalog. -/
theorem import_one_commit_triangle :
    ∃ plain asset bytes, decode compactParser triangleFile = .ok plain ∧
      decodeBundle Sha256.digest bytes = .ok (single asset triangleFile) ∧
      (importGlb compactParser Sha256.digest triangleRequest Snapshot.fresh).1.scene =
        some { plain with sourceAsset := asset } := by
  cases decoded : decode compactParser triangleFile with
  | error code =>
      have passes := decode_triangle
      rw [decoded] at passes
      cases passes
  | ok plain =>
      obtain ⟨asset, bytes, manifest, _, taken, decided⟩ :=
        (import_one_commit compactParser Sha256.digest Reached.fresh triangleRequest).2 plain
          decoded (by decide) (by decide)
      refine ⟨plain, asset, bytes, rfl, taken, ?_⟩
      exact (((decided (distinguishes_apart triangle_distinguished manifest)).2 rfl).2
        (by decide)).2 (room_fresh (decode_small decoded))
end Omniweft.Gltf
