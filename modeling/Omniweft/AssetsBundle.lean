import Omniweft.AssetsFormat

/-!
# What the bundle decoder accepts

An encoding of a snapshot is a header and one entry for each asset and for each
blob, in any order and with either codec; `decode_bundle` accepts the encodings
of well-formed snapshots and nothing else.
-/

namespace Omniweft.Assets

open Outcome Grammar

/-- Run-length pairs with counts other than zero, and what they expand to. -/
inductive Expands : Bytes → Bytes → Prop where
  | nil : Expands [] []
  | run {count value : UInt8} {encoded bytes : Bytes}
      (counted : count ≠ 0) (rest : Expands encoded bytes) :
      Expands (count :: value :: encoded) (List.replicate count.toNat value ++ bytes)

/-- The two codecs: raw bytes, or run-length pairs. -/
def Payload (codec : UInt8) (encoded bytes : Bytes) : Prop :=
  (codec = 0 ∧ encoded = bytes) ∨ (codec = 1 ∧ Expands encoded bytes)

theorem expands_iff :
    ∀ {encoded bytes : Bytes},
      Expands encoded bytes ↔
        encoded.length % 2 = 0 ∧ (∀ run ∈ pairs encoded, run.1 ≠ 0) ∧
          bytes = expand (pairs encoded)
  | [], bytes => by
      constructor
      · intro expands
        cases expands
        exact ⟨rfl, by simp [pairs], rfl⟩
      · rintro ⟨_, _, rfl⟩
        exact .nil
  | [_], bytes => by
      constructor
      · intro expands
        cases expands
      · rintro ⟨odd, _, _⟩
        simp at odd
  | count :: value :: rest, bytes => by
      have even : (count :: value :: rest).length % 2 = rest.length % 2 := by
        simp only [List.length_cons]
        omega
      have split : expand (pairs (count :: value :: rest)) =
          List.replicate count.toNat value ++ expand (pairs rest) := rfl
      rw [even, split]
      constructor
      · intro expands
        cases expands with
        | run counted later =>
            obtain ⟨restEven, restCounted, rfl⟩ := expands_iff.1 later
            refine ⟨restEven, ?_, rfl⟩
            intro run member
            rcases List.mem_cons.1 member with rfl | inRest
            · exact counted
            · exact restCounted run inRest
      · rintro ⟨restEven, counted, rfl⟩
        apply Expands.run (counted (count, value) (List.mem_cons_self ..))
        apply expands_iff.2
        exact ⟨restEven, fun run member => counted run (List.mem_cons_of_mem _ member), rfl⟩

theorem Expands.length_le {encoded bytes : Bytes} (expands : Expands encoded bytes) :
    encoded.length ≤ 2 * bytes.length := by
  induction expands with
  | nil => exact Nat.le_refl _
  | @run count value encoded bytes counted rest inductionHypothesis =>
      have positive : 0 < count.toNat := by
        rw [Nat.pos_iff_ne_zero]
        intro zero
        exact counted (UInt8.toNat_inj.1 zero)
      simp only [List.length_cons, List.length_append, List.length_replicate]
      omega

/-- The check before the expansion: every count is positive and the sum fits. -/
theorem expandedLength_eq_ok {decodedLength : Nat} :
    ∀ {runs : List (UInt8 × UInt8)} {expanded total : Nat},
      expanded ≤ decodedLength →
      (expandedLength decodedLength expanded runs = .ok total ↔
        (∀ run ∈ runs, run.1 ≠ 0) ∧ total = expanded + (expand runs).length ∧
          total ≤ decodedLength)
  | [], expanded, total, within => by
      simp only [expandedLength, Except.ok.injEq, expand, List.flatMap_nil, List.length_nil]
      constructor
      · rintro rfl
        exact ⟨by simp, rfl, within⟩
      · rintro ⟨_, rfl, _⟩
        rfl
  | (count, value) :: rest, expanded, total, within => by
      have length : (expand ((count, value) :: rest)).length =
          count.toNat + (expand rest).length := by
        simp [expand]
      have zero : (count == 0) = false ↔ count ≠ 0 := by simp
      rw [length]
      simp only [expandedLength, bind_eq_ok, rejectIf_eq_ok, exists_const, Bool.or_eq_false_iff,
        decide_eq_false_iff_not, Nat.not_lt, zero]
      constructor
      · rintro ⟨⟨counted, fits⟩, later⟩
        obtain ⟨restCounted, rfl, final⟩ :=
          (expandedLength_eq_ok (by omega)).1 later
        refine ⟨?_, by omega, final⟩
        intro run member
        rcases List.mem_cons.1 member with rfl | inRest
        · exact counted
        · exact restCounted run inRest
      · rintro ⟨counted, rfl, final⟩
        refine ⟨⟨counted (count, value) (List.mem_cons_self ..), by omega⟩, ?_⟩
        apply (expandedLength_eq_ok (by omega)).2
        exact ⟨fun run member => counted run (List.mem_cons_of_mem _ member), by omega, by omega⟩

/-- A payload is decoded to exactly the bytes it stands for. -/
theorem decodePayload_eq_ok {codec : UInt8} {decodedLength : Nat} {encoded bytes : Bytes}
    (known : codec ≤ 1) :
    decodePayload codec decodedLength encoded = .ok bytes ↔
      bytes.length = decodedLength ∧ Payload codec encoded bytes := by
  have codecs : codec = 0 ∨ codec = 1 := by
    rcases Nat.le_one_iff_eq_zero_or_eq_one.1 (UInt8.le_iff_toNat_le.1 known) with zero | one
    · exact Or.inl (UInt8.toNat_inj.1 zero)
    · exact Or.inr (UInt8.toNat_inj.1 one)
  rcases codecs with rfl | rfl
  · have raw : Payload 0 encoded bytes ↔ encoded = bytes := by simp [Payload]
    rw [raw]
    simp only [decodePayload, beq_self_eq_true, if_true, bind_eq_ok, rejectIf_eq_ok,
      exists_const, bne_eq_false_iff_eq, pure_eq_ok]
    constructor
    · rintro ⟨sized, rfl⟩
      exact ⟨sized, rfl⟩
    · rintro ⟨sized, rfl⟩
      exact ⟨sized, rfl⟩
  · have runs : Payload 1 encoded bytes ↔ Expands encoded bytes := by simp [Payload]
    have other : ((1 : UInt8) == 0) = false := rfl
    rw [runs, expands_iff]
    simp only [decodePayload, other, Bool.false_eq_true, if_false, bind_eq_ok, rejectIf_eq_ok,
      exists_const, bne_eq_false_iff_eq, pure_eq_ok, expandedLength_eq_ok (Nat.zero_le _)]
    constructor
    · rintro ⟨even, total, ⟨counted, rfl, _⟩, sized, rfl⟩
      exact ⟨by omega, even, counted, rfl⟩
    · rintro ⟨sized, even, counted, rfl⟩
      exact ⟨even, _, ⟨counted, rfl, by omega⟩, by omega, rfl⟩

/-- The bytes of an asset's entry. -/
def AssetEntry : Language UInt8 Asset :=
  fun asset piece =>
    ∃ digest manifest, digest.length = 32 ∧ hex digest = asset.id ∧
      canonicalManifest asset.manifest = .ok manifest ∧
      piece = digest ++ littleEndian manifest.length 4 ++ manifest

/-- The bytes of a blob's entry under either codec. -/
def BlobEntry : Language UInt8 Blob :=
  fun blob piece =>
    ∃ codec encoded, Payload codec encoded blob.bytes ∧
      piece = text (blobPrefix ++ blob.hash) ++ [codec] ++
        littleEndian blob.bytes.length 4 ++ littleEndian encoded.length 4 ++ encoded

section Reading

variable (sha256 : Bytes → Vector UInt8 32)

variable {sha256} in
theorem contentHash_eq_ok {input : Bytes} {hash : BlobId} :
    contentHash sha256 input = .ok hash ↔
      input.length ≤ blobByteLimit ∧ hex (sha256 input).toList = hash := by
  unfold contentHash
  simp only [bind_eq_ok, rejectIf_eq_ok, exists_const, decide_eq_false_iff_not, Nat.not_lt,
    pure_eq_ok]

variable {sha256} in
theorem contentHash_valid {input : Bytes} {hash : BlobId}
    (hashed : contentHash sha256 input = .ok hash) :
    validHash hash = true :=
  validHash_iff.2 ⟨_, Vector.length_toList, (contentHash_eq_ok.1 hashed).2⟩

def assetRound (decoded : List Asset) : Language UInt8 (List Asset) :=
  fun next piece =>
    ∃ asset, (AssetEntry asset piece ∧ assetId sha256 asset.manifest = .ok asset.id) ∧
      asset.id ∉ decoded.map Asset.id ∧ next = decoded ++ [asset]

theorem reads_readAsset (decoded : List Asset) :
    Reads (readAsset sha256 decoded) (assetRound sha256 decoded) := by
  unfold readAsset
  refine (reads_bind (reads_take _ 32) fun digest =>
    reads_bind (reads_read32 _) fun length =>
    reads_check_bind <|
    reads_bind (reads_take _ length.toNat) fun bytes =>
    reads_attempt_bind id _ fun manifest =>
    reads_attempt_bind id _ fun expected =>
    reads_check_bind <|
    reads_check_bind <|
    reads_pure _).congr ?_
  intro next piece
  simp only [Language.andThen, Language.exactly, Language.free, bne_eq_false_iff_eq,
    decide_eq_false_iff_not, Nat.not_lt]
  constructor
  · rintro ⟨_, digest, _, ⟨rfl, sized⟩, ⟨length, _, _, rfl, ⟨_, _, bytes, _, ⟨rfl, counted⟩,
      ⟨manifest, read, _, identified, rfl, absent, rfl, rfl⟩, rfl⟩, rfl⟩, rfl⟩
    refine ⟨⟨hex digest, manifest⟩, ⟨⟨digest, bytes, sized, rfl, readManifest_eq_ok.1 read, ?_⟩,
      identified⟩, ?_, rfl⟩
    · simp only [counted, List.append_nil, List.append_assoc]
    · rw [← Keyed.find_isSome, ← findAsset, absent]
      exact Bool.false_ne_true
  · rintro ⟨asset, ⟨⟨digest, manifest, sized, spelled, written, rfl⟩, identified⟩, absent, rfl⟩
    have read := readManifest_eq_ok.2 written
    have short : manifest.length ≤ canonicalLimit := by
      obtain ⟨valid, inner, innerSized, _, rfl⟩ := canonicalManifest_eq_ok.1 written
      exact manifestBytes_length valid innerSized
    have counted : (UInt32.ofNat manifest.length).toNat = manifest.length :=
      UInt32.toNat_ofNat_of_lt' (Nat.lt_of_le_of_lt short (by decide))
    have unused : (findAsset decoded (hex digest)).isSome = false := by
      rw [← Bool.not_eq_true, findAsset, Keyed.find_isSome, spelled]
      exact absent
    refine ⟨digest, _, _, ⟨rfl, sized⟩, ⟨UInt32.ofNat manifest.length, _, _, rfl,
      ⟨by rwa [counted], manifest, _, _, ⟨rfl, counted.symm⟩,
      ⟨asset.manifest, read, asset.id, identified, spelled.symm, unused, by rw [spelled], rfl⟩,
      rfl⟩, rfl⟩, ?_⟩
    simp only [counted, List.append_nil, List.append_assoc]

def blobRound (decoded : DecodedBlobs) : Language UInt8 DecodedBlobs :=
  fun next piece =>
    ∃ blob, (BlobEntry blob piece ∧ contentHash sha256 blob.bytes = .ok blob.hash) ∧
      (blob.hash ∉ decoded.blobs.map Blob.hash ∧
        blob.bytes.length ≤ decodedByteLimit - decoded.total) ∧
      next = ⟨decoded.blobs ++ [blob], decoded.total + blob.bytes.length⟩

theorem validPath_iff {path : Text} :
    validPath path = true ↔ ∃ hash, validHash hash = true ∧ path = blobPrefix ++ hash := by
  unfold validPath
  simp only [Bool.and_eq_true, beq_iff_eq]
  constructor
  · rintro ⟨⟨sized, start⟩, valid⟩
    refine ⟨path.drop 6, valid, ?_⟩
    rw [← start, List.take_append_drop]
  · rintro ⟨hash, valid, rfl⟩
    have sized : hash.length = 64 := by
      simp only [validHash, Bool.and_eq_true, beq_iff_eq] at valid
      exact valid.1
    have six : blobPrefix.length = 6 := rfl
    refine ⟨⟨by rw [List.length_append, six, sized], List.take_left' six⟩, ?_⟩
    rw [List.drop_left' six]
    exact valid

theorem reads_readBlob (decoded : DecodedBlobs) :
    Reads (readBlob sha256 decoded) (blobRound sha256 decoded) := by
  unfold readBlob
  refine (reads_bind (reads_readText _ _ (by decide)) fun path =>
    reads_check_bind <|
    reads_check_bind <|
    reads_bind (reads_byte _) fun codec =>
    reads_bind (reads_read32 _) fun decodedLength =>
    reads_bind (reads_read32 _) fun encodedLength =>
    reads_check_bind <|
    reads_check_bind <|
    reads_bind (reads_take _ encodedLength.toNat) fun encoded =>
    reads_attempt_bind id _ fun bytes =>
    reads_attempt_bind id _ fun expected =>
    reads_check_bind <|
    reads_pure _).congr ?_
  intro next piece
  have six : blobPrefix.length = 6 := rfl
  simp only [Language.andThen, Language.exactly, Language.free, bne_eq_false_iff_eq,
    decide_eq_false_iff_not, Nat.not_lt, Bool.or_eq_false_iff, Bool.not_eq_false']
  constructor
  · rintro ⟨path, _, _, ⟨_, rfl⟩, ⟨valid, absent, codec, _, _, rfl,
      ⟨decodedLength, _, _, rfl, ⟨encodedLength, _, _, rfl,
      ⟨⟨⟨small, fits⟩, _⟩, known, _, encoded, _, ⟨rfl, counted⟩,
      ⟨bytes, decodedOk, _, hashed, rfl, rfl, rfl⟩, rfl⟩, rfl⟩, rfl⟩, rfl⟩, rfl⟩
    obtain ⟨hash, _, rfl⟩ := validPath_iff.1 valid
    rw [List.drop_left' six] at hashed absent
    rw [List.drop_left' six]
    obtain ⟨sized, payload⟩ :=
      (decodePayload_eq_ok (UInt8.le_iff_toNat_le.2 (Nat.not_lt.1
        fun more => known (UInt8.lt_iff_toNat_lt.2 more)))).1 decodedOk
    refine ⟨⟨hash, bytes⟩, ⟨⟨codec, encoded, payload, ?_⟩, hashed⟩, ⟨?_, ?_⟩, ?_⟩
    · simp only [sized, counted, List.append_nil, List.append_assoc]
    · rw [← Keyed.find_isSome, ← findBlob, absent]
      exact Bool.false_ne_true
    · rw [sized]
      exact fits
    · rw [sized]
  · rintro ⟨blob, ⟨⟨codec, encoded, payload, rfl⟩, hashed⟩, ⟨absent, fits⟩, rfl⟩
    have valid := contentHash_valid hashed
    have small : blob.bytes.length ≤ blobByteLimit := (contentHash_eq_ok.1 hashed).1
    have hashSized : blob.hash.length = 64 := by
      simp only [validHash, Bool.and_eq_true, beq_iff_eq] at valid
      exact valid.1
    have known : codec ≤ 1 := by
      rcases payload with ⟨rfl, _⟩ | ⟨rfl, _⟩ <;> decide
    have notMore : ¬ 1 < codec := fun more =>
      absurd (UInt8.lt_iff_toNat_lt.1 more) (Nat.not_lt.2 (UInt8.le_iff_toNat_le.1 known))
    have encodedSmall : encoded.length ≤ blobByteLimit * 2 := by
      rcases payload with ⟨_, rfl⟩ | ⟨_, expands⟩
      · omega
      · have twice := expands.length_le
        omega
    have bound : blobByteLimit * 2 < 2 ^ 32 := by decide
    have sized : (UInt32.ofNat blob.bytes.length).toNat = blob.bytes.length :=
      UInt32.toNat_ofNat_of_lt' (show _ < 2 ^ 32 by omega)
    have counted : (UInt32.ofNat encoded.length).toNat = encoded.length :=
      UInt32.toNat_ofNat_of_lt' (show _ < 2 ^ 32 by omega)
    have dropped : (blobPrefix ++ blob.hash).drop 6 = blob.hash := List.drop_left' six
    have unused : (findBlob decoded.blobs ((blobPrefix ++ blob.hash).drop 6)).isSome = false := by
      rw [← Bool.not_eq_true, findBlob, Keyed.find_isSome, dropped]
      exact absent
    refine ⟨blobPrefix ++ blob.hash, _, _,
      ⟨by rw [List.length_append, six, hashSized], rfl⟩,
      ⟨validPath_iff.2 ⟨_, valid, rfl⟩, unused, codec, _, _, rfl,
      ⟨UInt32.ofNat blob.bytes.length, _, _, rfl, ⟨UInt32.ofNat encoded.length, _, _, rfl,
      ⟨⟨⟨by rwa [sized], by rwa [sized]⟩, by rwa [counted]⟩, notMore,
      encoded, _, _, ⟨rfl, counted.symm⟩,
      ⟨blob.bytes, (decodePayload_eq_ok known).2 ⟨sized.symm, payload⟩, blob.hash, hashed,
      dropped.symm, ?_, rfl⟩, rfl⟩, rfl⟩, rfl⟩, rfl⟩, ?_⟩
    · rw [dropped, sized]
    · simp only [sized, counted, List.append_nil, List.append_assoc]

def blobBytes (blobs : List Blob) : Nat :=
  (blobs.map fun blob => blob.bytes.length).sum

theorem blobBytes_append (left right : List Blob) :
    blobBytes (left ++ right) = blobBytes left + blobBytes right := by
  simp [blobBytes]

theorem blobBytes_perm {left right : List Blob} (same : left.Perm right) :
    blobBytes left = blobBytes right :=
  (same.map _).sum_nat

def IdentifiedEntry : Language UInt8 Asset :=
  fun asset piece => AssetEntry asset piece ∧ assetId sha256 asset.manifest = .ok asset.id

def HashedEntry : Language UInt8 Blob :=
  fun blob piece => BlobEntry blob piece ∧ contentHash sha256 blob.bytes = .ok blob.hash

/-- The asset loop reads entries of distinct assets. -/
theorem reads_assets (count : Nat) :
    Reads (times (readAsset sha256) count []) fun assets piece =>
      assets.length = count ∧ Sequence (IdentifiedEntry sha256) assets piece ∧
        (assets.map Asset.id).Nodup := by
  apply (reads_times (reads_readAsset sha256) count []).congr
  intro assets piece
  have collected := rounds_iff (assetRound sha256) (IdentifiedEntry sha256)
    id (fun items => (items.map Asset.id).Nodup) ?_ ?_ count [] assets piece List.nodup_nil
  · refine collected.trans ?_
    simp only [List.nil_append, id_eq]
    constructor
    · rintro ⟨items, sized, sequence, distinct, rfl⟩
      exact ⟨sized, sequence, distinct⟩
    · rintro ⟨sized, sequence, distinct⟩
      exact ⟨assets, sized, sequence, distinct, rfl⟩
  · intro front back distinct
    rw [List.map_append] at distinct
    exact distinct.of_append_left
  · intro items next piece distinct
    simp only [id_eq, assetRound, IdentifiedEntry, Keyed.distinct_concat distinct]

/-- The blob loop reads entries of distinct blobs within the decoded budget. -/
theorem reads_blobs (count : Nat) :
    Reads (times (readBlob sha256) count ⟨[], 0⟩) fun decoded piece =>
      decoded.blobs.length = count ∧ Sequence (HashedEntry sha256) decoded.blobs piece ∧
        (decoded.blobs.map Blob.hash).Nodup ∧ decoded.total = blobBytes decoded.blobs ∧
        blobBytes decoded.blobs ≤ decodedByteLimit := by
  apply (reads_times (reads_readBlob sha256) count ⟨[], 0⟩).congr
  intro decoded piece
  have collected := rounds_iff (blobRound sha256) (HashedEntry sha256)
    (fun blobs => ⟨blobs, blobBytes blobs⟩)
    (fun items => (items.map Blob.hash).Nodup ∧ blobBytes items ≤ decodedByteLimit)
    ?_ ?_ count [] decoded piece ⟨List.nodup_nil, Nat.zero_le _⟩
  · refine collected.trans ?_
    simp only [List.nil_append]
    constructor
    · rintro ⟨items, sized, sequence, ⟨distinct, within⟩, rfl⟩
      exact ⟨sized, sequence, distinct, rfl, within⟩
    · rintro ⟨sized, sequence, distinct, total, within⟩
      obtain ⟨blobs, sum⟩ := decoded
      exact ⟨blobs, sized, sequence, ⟨distinct, within⟩, by rw [← total]⟩
  · rintro front back ⟨distinct, within⟩
    rw [List.map_append] at distinct
    rw [blobBytes_append] at within
    exact ⟨distinct.of_append_left, by omega⟩
  · rintro items next piece ⟨distinct, within⟩
    have sum : ∀ blob : Blob,
        blobBytes (items ++ [blob]) = blobBytes items + blob.bytes.length := by
      intro blob
      rw [blobBytes_append]
      simp [blobBytes]
    have fits : ∀ blob : Blob,
        blobBytes items + blob.bytes.length ≤ decodedByteLimit ↔
          blob.bytes.length ≤ decodedByteLimit - blobBytes items := by
      intro blob
      omega
    simp only [blobRound, HashedEntry, Keyed.distinct_concat distinct, sum, fits]

def bundleHeader (assetCount blobCount : Nat) : Bytes :=
  bundleMagic ++ littleEndian 1 4 ++ littleEndian assetCount 4 ++ littleEndian blobCount 4

/-- What the two loops take in, before the references are checked. -/
structure Entries (assets : List Asset) (blobs : List Blob) (piece : Bytes) : Prop where
  assetCount : assets.length ≤ manifestLimit
  blobCount : blobs.length ≤ blobLimit
  assetsDistinct : (assets.map Asset.id).Nodup
  blobsDistinct : (blobs.map Blob.hash).Nodup
  total : blobBytes blobs ≤ decodedByteLimit
  spelled : ∃ front back,
    Sequence (IdentifiedEntry sha256) assets front ∧ Sequence (HashedEntry sha256) blobs back ∧
      piece = bundleHeader assets.length blobs.length ++ front ++ back

theorem reads_bundleEntries :
    Reads (bundleEntries sha256) fun entries piece =>
      Entries sha256 entries.1 entries.2.blobs piece ∧
        entries.2.total = blobBytes entries.2.blobs := by
  unfold bundleEntries
  refine (reads_bind (reads_magic _ _) fun _ =>
    reads_bind (reads_read32 _) fun version =>
    reads_check_bind <|
    reads_bind (reads_read32 _) fun assetCount =>
    reads_bind (reads_read32 _) fun blobCount =>
    reads_check_bind <|
    reads_bind (reads_assets sha256 assetCount.toNat) fun assets =>
    reads_bind (reads_blobs sha256 blobCount.toNat) fun blobs =>
    reads_pure _).congr ?_
  intro entries piece
  have one : (1 : UInt32).toNat = 1 := rfl
  simp only [Language.andThen, Language.free, bne_eq_false_iff_eq,
    decide_eq_false_iff_not, Nat.not_lt, Bool.or_eq_false_iff]
  constructor
  · rintro ⟨_, _, _, rfl, ⟨_, _, _, rfl, ⟨rfl, assetCount, _, _, rfl,
      ⟨blobCount, _, _, rfl, ⟨⟨fewAssets, fewBlobs⟩,
      assets, front, _, ⟨assetSized, assetSequence, assetDistinct⟩,
      ⟨decoded, back, _, ⟨blobSized, blobSequence, blobDistinct, total, within⟩,
      ⟨rfl, rfl⟩, rfl⟩, rfl⟩, rfl⟩, rfl⟩, rfl⟩, rfl⟩
    refine ⟨⟨?_, ?_, assetDistinct, blobDistinct, within, front, back, assetSequence,
      blobSequence, ?_⟩, total⟩
    · rw [assetSized]
      exact fewAssets
    · rw [blobSized]
      exact fewBlobs
    · simp only [bundleHeader, assetSized, blobSized, one, List.append_nil, List.append_assoc]
  · obtain ⟨assets, decoded⟩ := entries
    rintro ⟨⟨fewAssets, fewBlobs, assetDistinct, blobDistinct, within, front, back,
      assetSequence, blobSequence, rfl⟩, total⟩
    have assetSized : (UInt32.ofNat assets.length).toNat = assets.length :=
      UInt32.toNat_ofNat_of_lt' (Nat.lt_of_le_of_lt fewAssets (by decide))
    have blobSized : (UInt32.ofNat decoded.blobs.length).toNat = decoded.blobs.length :=
      UInt32.toNat_ofNat_of_lt' (Nat.lt_of_le_of_lt fewBlobs (by decide))
    refine ⟨(), _, _, rfl, ⟨1, _, _, rfl, ⟨rfl,
      UInt32.ofNat assets.length, _, _, rfl, ⟨UInt32.ofNat decoded.blobs.length, _, _, rfl,
      ⟨⟨by rwa [assetSized], by rwa [blobSized]⟩,
      assets, front, _, ⟨assetSized.symm, assetSequence, assetDistinct⟩,
      ⟨decoded, back, _, ⟨blobSized.symm, blobSequence, blobDistinct, total, within⟩,
      ⟨rfl, rfl⟩, rfl⟩, rfl⟩, rfl⟩, rfl⟩, rfl⟩, ?_⟩
    simp only [bundleHeader, assetSized, blobSized, one, List.append_nil, List.append_assoc]

end Reading

/-- Every asset has its blob at the declared length, and no blob is idle. -/
structure Closed (assets : List Asset) (blobs : List Blob) : Prop where
  supplied : ∀ asset ∈ assets, ∃ blob ∈ blobs,
    blob.hash = asset.manifest.contentHash ∧
      blob.bytes.length = asset.manifest.decodedLength.toNat
  referenced : ∀ blob ∈ blobs, ∃ asset ∈ assets, asset.manifest.contentHash = blob.hash

/-- The set of hashes the reference loop ends with. -/
def referencedHashes (assets : List Asset) (before : List BlobId) : List BlobId :=
  assets.foldl (fun referenced asset => referenced.insert asset.manifest.contentHash) before

theorem mem_referencedHashes {hash : BlobId} :
    ∀ {assets : List Asset} {before : List BlobId},
      hash ∈ referencedHashes assets before ↔
        hash ∈ before ∨ ∃ asset ∈ assets, asset.manifest.contentHash = hash
  | [], before => by simp [referencedHashes]
  | asset :: rest, before => by
      have step : referencedHashes (asset :: rest) before =
          referencedHashes rest (before.insert asset.manifest.contentHash) := rfl
      rw [step, mem_referencedHashes, List.mem_insert_iff]
      simp only [List.mem_cons, exists_eq_or_imp]
      constructor
      · rintro ((same | old) | later)
        · exact Or.inr (Or.inl same.symm)
        · exact Or.inl old
        · exact Or.inr (Or.inr later)
      · rintro (old | same | later)
        · exact Or.inl (Or.inr old)
        · exact Or.inl (Or.inl same.symm)
        · exact Or.inr later

theorem referencedHashes_nodup :
    ∀ {assets : List Asset} {before : List BlobId},
      before.Nodup → (referencedHashes assets before).Nodup
  | [], _, distinct => distinct
  | _ :: rest, _, distinct => @referencedHashes_nodup rest _ distinct.insert

theorem reference_eq_ok {blobs : List Blob} (distinct : (blobs.map Blob.hash).Nodup)
    {before after : List BlobId} {asset : Asset} :
    reference blobs before asset = .ok after ↔
      (∃ blob ∈ blobs, blob.hash = asset.manifest.contentHash ∧
        blob.bytes.length = asset.manifest.decodedLength.toNat) ∧
        after = before.insert asset.manifest.contentHash := by
  unfold reference
  cases found : findBlob blobs asset.manifest.contentHash with
  | none =>
      constructor
      · intro impossible
        cases impossible
      · rintro ⟨⟨blob, member, same, _⟩, _⟩
        rw [findBlob, (Keyed.find_eq_some distinct).2 ⟨member, same⟩] at found
        cases found
  | some blob =>
      obtain ⟨member, same⟩ := (Keyed.find_eq_some distinct).1 found
      simp only [bind_eq_ok, rejectIf_eq_ok, exists_const, bne_eq_false_iff_eq, pure_eq_ok]
      constructor
      · rintro ⟨sized, rfl⟩
        exact ⟨⟨blob, member, same, sized⟩, by rw [same]⟩
      · rintro ⟨⟨other, otherMember, otherSame, sized⟩, rfl⟩
        have equal : other = blob :=
          List.inj_on_of_nodup_map distinct otherMember member (otherSame.trans same.symm)
        rw [equal] at sized
        exact ⟨sized, by rw [same]⟩

theorem references_eq_ok {blobs : List Blob} (distinct : (blobs.map Blob.hash).Nodup) :
    ∀ {assets : List Asset} {before after : List BlobId},
      assets.foldlM (reference blobs) before = .ok after ↔
        (∀ asset ∈ assets, ∃ blob ∈ blobs, blob.hash = asset.manifest.contentHash ∧
          blob.bytes.length = asset.manifest.decodedLength.toNat) ∧
          after = referencedHashes assets before
  | [], before, after => by
      simp only [List.foldlM_nil, pure_eq_ok, List.not_mem_nil, false_imp_iff, implies_true,
        true_and]
      exact eq_comm
  | asset :: rest, before, after => by
      rw [List.foldlM_cons, bind_eq_ok]
      simp only [reference_eq_ok distinct, references_eq_ok distinct, List.forall_mem_cons]
      constructor
      · rintro ⟨_, ⟨first, rfl⟩, later, rfl⟩
        exact ⟨⟨first, later⟩, rfl⟩
      · rintro ⟨⟨first, later⟩, rfl⟩
        exact ⟨_, ⟨first, rfl⟩, later, rfl⟩

/-- The reference loop and the count after it say that the lists are closed. -/
theorem references_closed {assets : List Asset} {blobs : List Blob}
    (distinct : (blobs.map Blob.hash).Nodup) :
    (∃ after, assets.foldlM (reference blobs) [] = .ok after ∧ after.length = blobs.length) ↔
      Closed assets blobs := by
  simp only [references_eq_ok distinct]
  have inside : (∀ asset ∈ assets, ∃ blob ∈ blobs, blob.hash = asset.manifest.contentHash ∧
      blob.bytes.length = asset.manifest.decodedLength.toNat) →
      referencedHashes assets [] ⊆ blobs.map Blob.hash := by
    intro supplied hash member
    rcases mem_referencedHashes.1 member with impossible | ⟨asset, assetMember, rfl⟩
    · cases impossible
    · obtain ⟨blob, blobMember, same, _⟩ := supplied asset assetMember
      exact List.mem_map.2 ⟨blob, blobMember, same⟩
  constructor
  · rintro ⟨_, ⟨supplied, rfl⟩, counted⟩
    refine ⟨supplied, ?_⟩
    intro blob member
    have all : (referencedHashes assets []).Perm (blobs.map Blob.hash) := by
      apply (List.subperm_of_subset (referencedHashes_nodup List.nodup_nil)
        (inside supplied)).perm_of_length_le
      rw [List.length_map, counted]
    rcases mem_referencedHashes.1 (all.mem_iff.2 (List.mem_map_of_mem member))
      with impossible | found
    · cases impossible
    · exact found
  · intro closed
    refine ⟨_, ⟨closed.supplied, rfl⟩, ?_⟩
    rw [← @List.length_map _ _ blobs Blob.hash]
    apply List.Perm.length_eq
    rw [List.perm_ext_iff_of_nodup (referencedHashes_nodup List.nodup_nil) distinct]
    intro hash
    constructor
    · exact fun member => inside closed.supplied member
    · intro member
      obtain ⟨blob, blobMember, rfl⟩ := List.mem_map.1 member
      exact mem_referencedHashes.2 (Or.inr (closed.referenced blob blobMember))

section Encodings

variable (sha256 : Bytes → Vector UInt8 32)

/-- Assets and blobs as a catalog may hold them. -/
structure Stocked (assets : List Asset) (blobs : List Blob) : Prop where
  assetsAscending : Keyed.Ascending Asset.id assets
  blobsAscending : Keyed.Ascending Blob.hash blobs
  identified : ∀ asset ∈ assets, assetId sha256 asset.manifest = .ok asset.id
  hashed : ∀ blob ∈ blobs, contentHash sha256 blob.bytes = .ok blob.hash
  closed : Closed assets blobs
  assetCount : assets.length ≤ manifestLimit
  blobCount : blobs.length ≤ blobLimit
  total : blobBytes blobs ≤ decodedByteLimit

/-- The bytes are a header, the entries of the assets in some order, and the
entries of the blobs in some order. -/
def Spells (bytes : Bytes) (assets : List Asset) (blobs : List Blob) : Prop :=
  ∃ (assetOrder : List Asset) (blobOrder : List Blob) (front back : Bytes),
    assetOrder.Perm assets ∧ blobOrder.Perm blobs ∧
      Sequence AssetEntry assetOrder front ∧ Sequence BlobEntry blobOrder back ∧
      bytes = bundleHeader assets.length blobs.length ++ front ++ back

/-- The bytes encode the snapshot. -/
structure Encodes (bytes : Bytes) (state : Snapshot) : Prop where
  size : bytes.length ≤ bundleByteLimit
  spelled : Spells bytes state.assets state.blobs
  stocked : Stocked sha256 state.assets state.blobs
  plain : state = { Snapshot.fresh with assets := state.assets, blobs := state.blobs }

theorem Closed.of_perm {assets otherAssets : List Asset} {blobs otherBlobs : List Blob}
    (closed : Closed assets blobs) (sameAssets : assets.Perm otherAssets)
    (sameBlobs : blobs.Perm otherBlobs) :
    Closed otherAssets otherBlobs where
  supplied asset member := by
    obtain ⟨blob, blobMember, supplied⟩ := closed.supplied asset (sameAssets.mem_iff.2 member)
    exact ⟨blob, sameBlobs.mem_iff.1 blobMember, supplied⟩
  referenced blob member := by
    obtain ⟨asset, assetMember, same⟩ := closed.referenced blob (sameBlobs.mem_iff.2 member)
    exact ⟨asset, sameAssets.mem_iff.1 assetMember, same⟩

/-- The decoder accepts the encodings of a snapshot and nothing else. -/
theorem decodeBundle_eq_ok {bytes : Bytes} {state : Snapshot} :
    decodeBundle sha256 bytes = .ok state ↔ Encodes sha256 bytes state := by
  unfold decodeBundle
  simp only [bind_eq_ok, rejectIf_eq_ok, exists_const, decide_eq_false_iff_not, Nat.not_lt,
    (reads_bundleEntries sha256).whole_eq_ok, bne_eq_false_iff_eq, pure_eq_ok]
  constructor
  · rintro ⟨size, ⟨assets, decoded⟩, ⟨entries, _⟩, after, references, counted, rfl⟩
    have closed := (references_closed entries.blobsDistinct).1 ⟨after, references, counted⟩
    have assetsPerm : (Keyed.arrange Asset.id assets).Perm assets := Keyed.arrange_perm assets
    have blobsPerm : (Keyed.arrange Blob.hash decoded.blobs).Perm decoded.blobs :=
      Keyed.arrange_perm decoded.blobs
    obtain ⟨front, back, assetSequence, blobSequence, rfl⟩ := entries.spelled
    refine ⟨size, ⟨assets, decoded.blobs, front, back, assetsPerm.symm, blobsPerm.symm,
      assetSequence.imp fun _ _ _ entry => entry.1, blobSequence.imp fun _ _ _ entry => entry.1,
      ?_⟩, ?_, rfl⟩
    · simp only [sortEntries, Keyed.arrange_length]
    · constructor
      · exact Keyed.arrange_ascending entries.assetsDistinct
      · exact Keyed.arrange_ascending entries.blobsDistinct
      · intro asset member
        exact assetSequence.forall (fun _ _ entry => entry.2) asset (Keyed.mem_arrange.1 member)
      · intro blob member
        exact blobSequence.forall (fun _ _ entry => entry.2) blob (Keyed.mem_arrange.1 member)
      · exact closed.of_perm assetsPerm.symm blobsPerm.symm
      · exact assetsPerm.length_eq.le.trans entries.assetCount
      · exact blobsPerm.length_eq.le.trans entries.blobCount
      · exact (blobBytes_perm blobsPerm).le.trans entries.total
  · rintro ⟨size, ⟨assets, blobs, front, back, assetsPerm, blobsPerm, assetSequence,
      blobSequence, rfl⟩, stocked, plain⟩
    have assetsDistinct : (assets.map Asset.id).Nodup :=
      (assetsPerm.map _).nodup_iff.2 stocked.assetsAscending.distinct
    have blobsDistinct : (blobs.map Blob.hash).Nodup :=
      (blobsPerm.map _).nodup_iff.2 stocked.blobsAscending.distinct
    have closed := stocked.closed.of_perm assetsPerm.symm blobsPerm.symm
    obtain ⟨after, references, counted⟩ := (references_closed blobsDistinct).2 closed
    refine ⟨size, (assets, ⟨blobs, blobBytes blobs⟩), ⟨⟨?_, ?_, assetsDistinct, blobsDistinct,
      ?_, front, back, ?_, ?_, ?_⟩, rfl⟩, after, references, counted, ?_⟩
    · exact assetsPerm.length_eq.le.trans stocked.assetCount
    · exact blobsPerm.length_eq.le.trans stocked.blobCount
    · exact (blobBytes_perm blobsPerm).le.trans stocked.total
    · exact assetSequence.imp fun asset member _ entry =>
        ⟨entry, stocked.identified asset (assetsPerm.mem_iff.1 member)⟩
    · exact blobSequence.imp fun blob member _ entry =>
        ⟨entry, stocked.hashed blob (blobsPerm.mem_iff.1 member)⟩
    · rw [assetsPerm.length_eq, blobsPerm.length_eq]
    · rw [plain]
      simp only [sortEntries, stocked.assetsAscending.arrange_of_perm assetsPerm,
        stocked.blobsAscending.arrange_of_perm blobsPerm]

/-- The decoder is exact: it accepts the encodings of a snapshot and nothing
else, whatever the order of the entries and the codec of each blob. The manifest
reader and the canonical writer are inverse to each other. -/
theorem decoder_exact :
    (∀ (bytes : Bytes) (state : Snapshot),
      decodeBundle sha256 bytes = .ok state ↔ Encodes sha256 bytes state) ∧
    (∀ (bytes other : Bytes) (state : Snapshot),
      Encodes sha256 bytes state → Encodes sha256 other state →
        decodeBundle sha256 bytes = decodeBundle sha256 other) ∧
    (∀ (bytes : Bytes) (value : Manifest),
      readManifest bytes = .ok value ↔ canonicalManifest value = .ok bytes) := by
  refine ⟨fun _ _ => decodeBundle_eq_ok sha256, ?_, fun _ _ => readManifest_eq_ok⟩
  intro bytes other state first second
  rw [(decodeBundle_eq_ok sha256).2 first, (decodeBundle_eq_ok sha256).2 second]

end Encodings

end Omniweft.Assets
