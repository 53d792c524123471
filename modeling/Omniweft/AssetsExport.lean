import Omniweft.AssetsRuns

/-!
# Exports

The export of a consistent catalog is an encoding of its assets and blobs, so
the decoder gives them back: into a fresh catalog they are all entered, into
the catalog they came from nothing is.
-/

namespace Omniweft.Assets

open Outcome Grammar

theorem exportAsset_eq_ok {asset : Asset} {piece : Bytes} :
    exportAsset asset = .ok piece ↔ AssetEntry asset piece := by
  unfold exportAsset AssetEntry
  simp only [bind_eq_ok, digestBytes_eq_ok, pure_eq_ok]
  constructor
  · rintro ⟨digest, ⟨sized, spelled⟩, manifest, written, rfl⟩
    exact ⟨digest, manifest, sized, spelled, written, rfl⟩
  · rintro ⟨digest, manifest, sized, spelled, written, rfl⟩
    exact ⟨digest, ⟨sized, spelled⟩, manifest, written, rfl⟩

theorem exportBlob_entry (blob : Blob) : BlobEntry blob (exportBlob blob) :=
  ⟨0, blob.bytes, Or.inl ⟨rfl, rfl⟩, rfl⟩

/-- The assets' pieces are exported when each asset has an entry. -/
theorem exportAssets {assets : List Asset}
    (each : ∀ asset ∈ assets, ∃ piece, AssetEntry asset piece) :
    ∃ pieces, assets.mapM exportAsset = .ok pieces ∧
      Sequence AssetEntry assets pieces.flatten := by
  induction assets with
  | nil => exact ⟨[], rfl, .nil⟩
  | cons asset rest inductionHypothesis =>
      obtain ⟨piece, entry⟩ := each asset (List.mem_cons_self ..)
      obtain ⟨pieces, exported, sequence⟩ :=
        inductionHypothesis fun other member => each other (List.mem_cons_of_mem _ member)
      refine ⟨piece :: pieces, ?_, .cons entry sequence⟩
      rw [List.mapM_cons]
      simp only [bind_eq_ok, pure_eq_ok]
      exact ⟨piece, exportAsset_eq_ok.2 entry, pieces, exported, rfl⟩

theorem assetEntry_length {asset : Asset} {piece : Bytes} (entry : AssetEntry asset piece) :
    piece.length ≤ 36 + canonicalLimit := by
  obtain ⟨digest, manifest, sized, _, written, rfl⟩ := entry
  obtain ⟨valid, inner, innerSized, _, rfl⟩ := canonicalManifest_eq_ok.1 written
  have short := manifestBytes_length valid innerSized
  simp only [List.length_append, littleEndian_length, sized]
  omega

theorem assetEntries_length {assets : List Asset} {piece : Bytes}
    (sequence : Sequence AssetEntry assets piece) :
    piece.length ≤ assets.length * (36 + canonicalLimit) := by
  induction sequence with
  | nil => exact Nat.zero_le _
  | cons one rest inductionHypothesis =>
      have first := assetEntry_length one
      rw [List.length_append, List.length_cons, Nat.succ_mul]
      omega

theorem exportBlobs_length {blobs : List Blob}
    (hashes : ∀ blob ∈ blobs, blob.hash.length = 64) :
    (blobs.flatMap exportBlob).length = blobs.length * 81 + blobBytes blobs := by
  induction blobs with
  | nil => rfl
  | cons blob rest inductionHypothesis =>
      have sized := hashes blob (List.mem_cons_self ..)
      have six : blobPrefix.length = 6 := rfl
      have later := inductionHypothesis fun other member =>
        hashes other (List.mem_cons_of_mem _ member)
      have sum : blobBytes (blob :: rest) = blob.bytes.length + blobBytes rest := by
        simp only [blobBytes, List.map_cons, List.sum_cons]
      rw [List.flatMap_cons, List.length_append, later, sum, List.length_cons]
      simp only [exportBlob, text, List.length_append, littleEndian_length, List.length_cons,
        List.length_nil, six, sized]
      omega

section Exchange

variable {sha256 : Bytes → Vector UInt8 32}

theorem assetId_valid {manifest : Manifest} {id : AssetId}
    (identified : assetId sha256 manifest = .ok id) :
    ∃ digest bytes, digest.length = 32 ∧ hex digest = id ∧
      canonicalManifest manifest = .ok bytes := by
  unfold assetId at identified
  rw [bind_eq_ok] at identified
  obtain ⟨bytes, written, hashed⟩ := identified
  obtain ⟨digest, sized, spelled⟩ := validHash_iff.1 (contentHash_valid hashed)
  exact ⟨digest, bytes, sized, spelled, written⟩

/-- What the catalog holds, as the decoder gives it. -/
def contents (state : Snapshot) : Snapshot :=
  { Snapshot.fresh with assets := state.assets, blobs := state.blobs }

/-- A stocked catalog is exported, and its export is an encoding. -/
theorem exportBundle_encodes {state : Snapshot}
    (stocked : Stocked sha256 state.assets state.blobs) :
    ∃ bytes, exportBundle state = .ok bytes ∧ Encodes sha256 bytes (contents state) := by
  obtain ⟨pieces, exported, sequence⟩ := exportAssets fun asset member => by
    obtain ⟨digest, manifest, sized, spelled, written⟩ :=
      assetId_valid (stocked.identified asset member)
    exact ⟨_, digest, manifest, sized, spelled, written, rfl⟩
  have hashes : ∀ blob ∈ state.blobs, blob.hash.length = 64 := by
    intro blob member
    have valid := contentHash_valid (stocked.hashed blob member)
    simp only [validHash, Bool.and_eq_true, beq_iff_eq] at valid
    exact valid.1
  have blobSequence : Sequence BlobEntry state.blobs (state.blobs.flatMap exportBlob) :=
    sequence_flatMap fun blob _ => exportBlob_entry blob
  have size : (bundleHeader state.assets.length state.blobs.length ++ pieces.flatten ++
      state.blobs.flatMap exportBlob).length ≤ bundleByteLimit := by
    have assetsSize := assetEntries_length sequence
    have blobsSize := exportBlobs_length hashes
    have fewAssets := stocked.assetCount
    have fewBlobs := stocked.blobCount
    have total := stocked.total
    have start : bundleMagic.length = 8 := rfl
    simp only [List.length_append, bundleHeader, littleEndian_length, start, blobsSize]
    simp only [manifestLimit, blobLimit, canonicalLimit, decodedByteLimit, bundleByteLimit]
      at *
    omega
  refine ⟨_, ?_, size, ⟨state.assets, state.blobs, _, _, .refl _, .refl _, sequence,
    blobSequence, rfl⟩, stocked, rfl⟩
  unfold exportBundle
  simp only [bind_eq_ok, rejectIf_eq_ok, exists_const, decide_eq_false_iff_not, Nat.not_lt,
    pure_eq_ok]
  exact ⟨pieces, exported, size, rfl⟩

/-- Importing an encoding into a catalog that holds none of it enters it all. -/
theorem importBundle_fresh {state : Snapshot} {bytes : Bytes} (receipt : Receipt)
    (encodes : Encodes sha256 bytes (contents state)) :
    importBundle sha256 Snapshot.fresh bytes receipt =
      .ok (contents state, { receipt with imported := state.assets.map Asset.id }) := by
  have stocked : Stocked sha256 state.assets state.blobs := encodes.stocked
  unfold importBundle
  simp only [bind_eq_ok, pure_eq_ok]
  refine ⟨_, (decodeBundle_eq_ok sha256).2 encodes, state.assets, ?_, state.blobs, ?_, (), ?_, ?_⟩
  · exact Keyed.enter_fresh stocked.assetsAscending.distinct stocked.assetCount
  · exact Keyed.enter_fresh stocked.blobsAscending.distinct stocked.blobCount
  · exact Stocked.quota stocked
  · simp only [sortEntries, stocked.assetsAscending.arrange_eq, stocked.blobsAscending.arrange_eq]
    rfl

/-- Importing what the catalog holds already changes nothing. -/
theorem importBundle_present {state : Snapshot} {bytes : Bytes} (receipt : Receipt)
    (encodes : Encodes sha256 bytes (contents state)) :
    importBundle sha256 state bytes receipt =
      .ok (state, { receipt with imported := state.assets.map Asset.id }) := by
  have stocked : Stocked sha256 state.assets state.blobs := encodes.stocked
  unfold importBundle
  simp only [bind_eq_ok, pure_eq_ok]
  refine ⟨_, (decodeBundle_eq_ok sha256).2 encodes, state.assets, ?_, state.blobs, ?_, (), ?_, ?_⟩
  · exact Keyed.enter_present stocked.assetsAscending.distinct (List.Subset.refl _)
  · exact Keyed.enter_present stocked.blobsAscending.distinct (List.Subset.refl _)
  · exact Stocked.quota stocked
  · simp only [sortEntries, stocked.assetsAscending.arrange_eq, stocked.blobsAscending.arrange_eq]
    rfl

variable (sha256) in
/-- Whatever commands a catalog was sent, it is exported; a fresh catalog takes
the export and then holds the same assets and blobs and exports the same bytes;
the catalog itself keeps its assets, blobs and roots when it takes it. -/
theorem exchange (calls : Calls) :
    ∃ bytes, exportBundle (run sha256 calls) = .ok bytes ∧
      (apply sha256 (.importBundle bytes) 0 Snapshot.fresh).1.status = ascii "committed" ∧
      (apply sha256 (.importBundle bytes) 0 Snapshot.fresh).2.assets =
        (run sha256 calls).assets ∧
      (apply sha256 (.importBundle bytes) 0 Snapshot.fresh).2.blobs =
        (run sha256 calls).blobs ∧
      exportBundle (apply sha256 (.importBundle bytes) 0 Snapshot.fresh).2 = .ok bytes ∧
      ∀ expectedRevision,
        (apply sha256 (.importBundle bytes) expectedRevision (run sha256 calls)).2 =
          { run sha256 calls with
            revision :=
              (apply sha256 (.importBundle bytes) expectedRevision
                (run sha256 calls)).2.revision } := by
  have stocked := (@run_consistent sha256 calls).stocked
  obtain ⟨bytes, exported, encodes⟩ := exportBundle_encodes stocked
  have intoFresh : apply sha256 (.importBundle bytes) 0 Snapshot.fresh =
      (⟨ascii "committed", 1, [], (run sha256 calls).assets.map Asset.id, 0, 0⟩,
        { contents (run sha256 calls) with revision := 1 }) := by
    unfold apply
    simp only [Snapshot.fresh, stage]
    rw [show (⟨1, 0, [], [], [], []⟩ : Snapshot) = Snapshot.fresh from rfl,
      importBundle_fresh _ encodes]
    rfl
  refine ⟨bytes, exported, ?_, ?_, ?_, ?_, ?_⟩
  · rw [intoFresh]
  · rw [intoFresh]
    rfl
  · rw [intoFresh]
    rfl
  · rw [intoFresh]
    exact exported
  · intro expectedRevision
    rcases @apply_cases sha256 (.importBundle bytes) expectedRevision (run sha256 calls) with
      ⟨code, refused⟩ | ⟨_, _, staged, answered, stagedOk, committed⟩
    · rw [refused]
    · rw [committed]
      simp only [stage, importBundle_present _ encodes, Except.ok.injEq, Prod.mk.injEq] at stagedOk
      rw [← stagedOk.1]

end Exchange

end Omniweft.Assets
