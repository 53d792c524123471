import Omniweft.AssetsRetention

/-!
# Imports in any order

An import merges two sorted lists under their keys. What it takes is decided by what it
would leave: the records have to agree under their keys and the union has to fit the
limits, whatever the order in which two bundles come.
-/

namespace Omniweft.Assets

open Outcome

section Imports

variable {sha256 : Bytes → Vector UInt8 32}

/-- A bundle whose records a stocked catalog holds next to those that are there already is
taken. -/
theorem importBundle_into {state incoming wider : Snapshot} {bundle : Bytes}
    (decoded : decodeBundle sha256 bundle = .ok incoming)
    (stocked : Stocked sha256 state.assets state.blobs)
    (wide : Stocked sha256 wider.assets wider.blobs)
    (assets : state.assets ⊆ wider.assets) (moreAssets : incoming.assets ⊆ wider.assets)
    (blobs : state.blobs ⊆ wider.blobs) (moreBlobs : incoming.blobs ⊆ wider.blobs)
    (receipt : Receipt) :
    ∃ staged answered, importBundle sha256 state bundle receipt = .ok (staged, answered) := by
  have enteredAssets : ∃ after, incoming.assets.foldlM importAsset state.assets = .ok after :=
    Keyed.enter_into wide.assetsAscending.distinct wide.assetCount
      stocked.assetsAscending.distinct assets moreAssets
  have enteredBlobs : ∃ after, incoming.blobs.foldlM importBlob state.blobs = .ok after :=
    Keyed.enter_into wide.blobsAscending.distinct wide.blobCount
      stocked.blobsAscending.distinct blobs moreBlobs
  obtain ⟨assetsAfter, assetsEntered⟩ := enteredAssets
  obtain ⟨blobsAfter, blobsEntered⟩ := enteredBlobs
  obtain ⟨assetsDistinct, assetsMembers, assetsFit⟩ :=
    Keyed.enter_all assets_determined stocked.assetsAscending.distinct assetsEntered
  obtain ⟨blobsDistinct, blobsMembers, blobsFit⟩ :=
    Keyed.enter_all blobs_determined stocked.blobsAscending.distinct blobsEntered
  have inside : blobsAfter ⊆ wider.blobs := by
    intro blob member
    rcases (blobsMembers blob).1 member with old | new
    · exact blobs old
    · exact moreBlobs new
  have bytes : blobBytes blobsAfter ≤ blobBytes wider.blobs := by
    obtain ⟨sorted, perm, sublist⟩ :=
      List.subperm_of_subset (blobsDistinct.of_map Blob.hash) inside
    exact (blobBytes_perm perm).symm.le.trans (blobBytes_sublist sublist)
  have passed : quota { state with assets := assetsAfter, blobs := blobsAfter } = .ok () :=
    quota_eq_ok.2 ⟨assetsFit stocked.assetCount, blobsFit stocked.blobCount,
      fun blob member => (contentHash_eq_ok.1 (wide.hashed blob (inside member))).1,
      bytes.trans wide.total⟩
  unfold importBundle
  simp only [bind_eq_ok, pure_eq_ok]
  exact ⟨_, _, incoming, decoded, assetsAfter, assetsEntered, blobsAfter, blobsEntered, (),
    passed, rfl⟩

/-- What a committed import does. -/
theorem import_committed {state : Snapshot} (consistent : Consistent sha256 state)
    {bundle : Bytes} {expectedRevision : UInt64}
    (committed : (apply sha256 (.importBundle bundle) expectedRevision state).1.status =
      ascii "committed") :
    state.revision ≠ maximumRevision ∧ ∃ incoming staged,
      decodeBundle sha256 bundle = .ok incoming ∧ Imported state incoming staged ∧
      Stocked sha256 staged.assets staged.blobs ∧
      (apply sha256 (.importBundle bundle) expectedRevision state).2 =
        { staged with revision := state.revision + 1 } := by
  rcases @apply_cases sha256 (.importBundle bundle) expectedRevision state with
    ⟨code, refused⟩ | ⟨_, notLast, staged, answered, stagedOk, done⟩
  · rw [refused] at committed
    have apart : ascii "rejected" ≠ ascii "committed" := by decide
    exact absurd committed apart
  · obtain ⟨incoming, decoded, imported, stocked, _⟩ :=
      importBundle_spec consistent.stocked stagedOk
    refine ⟨notLast, incoming, staged, decoded, imported, stocked, ?_⟩
    have revision : staged.revision = state.revision := by rw [imported.others]
    rw [done]
    simp only [revision]

/-- A staged import commits. -/
theorem import_commits {state : Snapshot} {bundle : Bytes}
    (notLast : state.revision ≠ maximumRevision)
    (staged : ∃ staged answered, importBundle sha256 state bundle
      (Receipt.initial state.revision) = .ok (staged, answered)) :
    (apply sha256 (.importBundle bundle) state.revision state).1.status =
      ascii "committed" := by
  obtain ⟨after, answered, stagedOk⟩ := staged
  unfold apply
  rw [if_neg (by simp), if_neg (by simpa using notLast)]
  simp only [stage, stagedOk]

/-- Merging into one catalog in two ways that give the same records gives one catalog. -/
theorem imported_eq {state left right incomingLeft incomingRight stagedLeft stagedRight : Snapshot}
    (intoLeft : Imported left incomingLeft stagedLeft)
    (intoRight : Imported right incomingRight stagedRight)
    (leftOthers : left = { state with
      revision := left.revision, assets := left.assets, blobs := left.blobs })
    (rightOthers : right = { state with
      revision := right.revision, assets := right.assets, blobs := right.blobs })
    (leftStocked : Stocked sha256 stagedLeft.assets stagedLeft.blobs)
    (rightStocked : Stocked sha256 stagedRight.assets stagedRight.blobs)
    (assets : ∀ asset, asset ∈ stagedLeft.assets ↔ asset ∈ stagedRight.assets)
    (blobs : ∀ blob, blob ∈ stagedLeft.blobs ↔ blob ∈ stagedRight.blobs) (revision : UInt64) :
    { stagedLeft with revision := revision } = { stagedRight with revision := revision } := by
  have sameAssets := leftStocked.assetsAscending.eq_of_mem_iff rightStocked.assetsAscending assets
  have sameBlobs := leftStocked.blobsAscending.eq_of_mem_iff rightStocked.blobsAscending blobs
  rw [intoLeft.others, intoRight.others, leftOthers, rightOthers, sameAssets, sameBlobs]

/-- Two imports that commit in one order commit in the other, and leave the same catalog. -/
theorem imports_swap {state : Snapshot} (consistent : Consistent sha256 state)
    {first second : Bytes}
    (one : (apply sha256 (.importBundle first) state.revision state).1.status =
      ascii "committed")
    (two : (apply sha256 (.importBundle second)
      (apply sha256 (.importBundle first) state.revision state).2.revision
      (apply sha256 (.importBundle first) state.revision state).2).1.status =
      ascii "committed") :
    let other := (apply sha256 (.importBundle second) state.revision state).2
    (apply sha256 (.importBundle second) state.revision state).1.status = ascii "committed" ∧
      (apply sha256 (.importBundle first) other.revision other).1.status = ascii "committed" ∧
      (apply sha256 (.importBundle first) other.revision other).2 =
        (apply sha256 (.importBundle second)
          (apply sha256 (.importBundle first) state.revision state).2.revision
          (apply sha256 (.importBundle first) state.revision state).2).2 := by
  intro other
  have consistentOne := apply_consistent consistent (.importBundle first) state.revision
  have consistentOther := apply_consistent consistent (.importBundle second) state.revision
  obtain ⟨notLast, incomingFirst, stagedOne, decodedFirst, importedOne, stockedOne, afterOne⟩ :=
    import_committed consistent one
  obtain ⟨notLastOne, incomingSecond, stagedTwo, decodedSecond, importedTwo, stockedTwo,
    afterTwo⟩ := import_committed consistentOne two
  have inOne : ∀ asset, asset ∈ (apply sha256 (.importBundle first) state.revision state).2.assets ↔
      asset ∈ state.assets ∨ asset ∈ incomingFirst.assets := by
    rw [afterOne]
    exact importedOne.assets
  have inOneBlobs : ∀ blob,
      blob ∈ (apply sha256 (.importBundle first) state.revision state).2.blobs ↔
      blob ∈ state.blobs ∨ blob ∈ incomingFirst.blobs := by
    rw [afterOne]
    exact importedOne.blobs
  have stateAssets : state.assets ⊆ stagedTwo.assets := fun asset member =>
    (importedTwo.assets asset).2 (Or.inl ((inOne asset).2 (Or.inl member)))
  have stateBlobs : state.blobs ⊆ stagedTwo.blobs := fun blob member =>
    (importedTwo.blobs blob).2 (Or.inl ((inOneBlobs blob).2 (Or.inl member)))
  have firstAssets : incomingFirst.assets ⊆ stagedTwo.assets := fun asset member =>
    (importedTwo.assets asset).2 (Or.inl ((inOne asset).2 (Or.inr member)))
  have firstBlobs : incomingFirst.blobs ⊆ stagedTwo.blobs := fun blob member =>
    (importedTwo.blobs blob).2 (Or.inl ((inOneBlobs blob).2 (Or.inr member)))
  have secondAssets : incomingSecond.assets ⊆ stagedTwo.assets := fun asset member =>
    (importedTwo.assets asset).2 (Or.inr member)
  have secondBlobs : incomingSecond.blobs ⊆ stagedTwo.blobs := fun blob member =>
    (importedTwo.blobs blob).2 (Or.inr member)
  -- The second bundle alone fits, since it fits next to the first.
  have alone := import_commits notLast
    (importBundle_into decodedSecond consistent.stocked stockedTwo stateAssets secondAssets
      stateBlobs secondBlobs (Receipt.initial state.revision))
  obtain ⟨_, incomingAgain, stagedOther, decodedAgain, importedOther, stockedOther, afterOther⟩ :=
    import_committed consistent alone
  obtain rfl : incomingSecond = incomingAgain :=
    Except.ok.inj (decodedSecond.symm.trans decodedAgain)
  have revisions : other.revision =
      (apply sha256 (.importBundle first) state.revision state).2.revision := by
    change (apply sha256 (.importBundle second) state.revision state).2.revision = _
    rw [afterOther, afterOne]
  have otherAssets : other.assets ⊆ stagedTwo.assets := by
    intro asset member
    change asset ∈ (apply sha256 (.importBundle second) state.revision state).2.assets at member
    rw [afterOther] at member
    rcases (importedOther.assets asset).1 member with old | new
    · exact stateAssets old
    · exact secondAssets new
  have otherBlobs : other.blobs ⊆ stagedTwo.blobs := by
    intro blob member
    change blob ∈ (apply sha256 (.importBundle second) state.revision state).2.blobs at member
    rw [afterOther] at member
    rcases (importedOther.blobs blob).1 member with old | new
    · exact stateBlobs old
    · exact secondBlobs new
  have last := import_commits (revisions ▸ notLastOne)
    (importBundle_into decodedFirst consistentOther.stocked stockedTwo otherAssets firstAssets
      otherBlobs firstBlobs (Receipt.initial other.revision))
  refine ⟨alone, last, ?_⟩
  obtain ⟨_, incomingLast, stagedLast, decodedLast, importedLast, stockedLast, afterLast⟩ :=
    import_committed consistentOther last
  obtain rfl : incomingFirst = incomingLast :=
    Except.ok.inj (decodedFirst.symm.trans decodedLast)
  rw [afterLast, afterTwo, revisions]
  refine @imported_eq sha256 state _ _ _ _ _ _ importedLast importedTwo ?_ ?_ stockedLast
    stockedTwo ?_ ?_ _
  · rw [afterOther, importedOther.others]
  · rw [afterOne, importedOne.others]
  · intro asset
    rw [importedLast.assets, importedTwo.assets, inOne]
    rw [afterOther, importedOther.assets]
    tauto
  · intro blob
    rw [importedLast.blobs, importedTwo.blobs, inOneBlobs]
    rw [afterOther, importedOther.blobs]
    tauto

/-- The bytes whose hashes name the records of a catalog. -/
def hashedBytes (state : Snapshot) : Set Bytes :=
  { bytes | (∃ asset ∈ state.assets, canonicalManifest asset.manifest = .ok bytes) ∨
      ∃ blob ∈ state.blobs, blob.bytes = bytes }

/-- Without collisions, records with one content hash hold the same bytes. -/
theorem contentHash_apart {hashed : Set Bytes} (apart : Set.InjOn sha256 hashed)
    {left right : Bytes} (leftIn : left ∈ hashed) (rightIn : right ∈ hashed) {hash : BlobId}
    (leftHash : contentHash sha256 left = .ok hash)
    (rightHash : contentHash sha256 right = .ok hash) : left = right := by
  apply apart leftIn rightIn
  have same := (contentHash_eq_ok.1 leftHash).2.trans (contentHash_eq_ok.1 rightHash).2.symm
  exact Vector.toList_inj.1 (hex_inj same)

/-- Without collisions, assets under one id are one asset. -/
theorem asset_apart {hashed : Set Bytes} (apart : Set.InjOn sha256 hashed)
    {left right : Asset} (same : left.id = right.id)
    (leftId : assetId sha256 left.manifest = .ok left.id)
    (rightId : assetId sha256 right.manifest = .ok right.id)
    (leftIn : ∀ bytes, canonicalManifest left.manifest = .ok bytes → bytes ∈ hashed)
    (rightIn : ∀ bytes, canonicalManifest right.manifest = .ok bytes → bytes ∈ hashed) :
    left = right := by
  unfold assetId at leftId rightId
  rw [bind_eq_ok] at leftId rightId
  obtain ⟨leftBytes, leftWritten, leftHash⟩ := leftId
  obtain ⟨rightBytes, rightWritten, rightHash⟩ := rightId
  rw [← same] at rightHash
  have bytes := contentHash_apart apart (leftIn _ leftWritten) (rightIn _ rightWritten) leftHash
    rightHash
  rw [bytes] at leftWritten
  have manifests := (readManifest_eq_ok.2 leftWritten).symm.trans
    (readManifest_eq_ok.2 rightWritten)
  exact assets_determined left right same (Except.ok.inj manifests)

/-- A bundle of present assets brings nothing. -/
theorem importBundle_within {state incoming : Snapshot} {bundle : Bytes}
    (stocked : Stocked sha256 state.assets state.blobs)
    (decoded : decodeBundle sha256 bundle = .ok incoming)
    (present : ∀ asset ∈ incoming.assets, asset.id ∈ state.assets.map Asset.id)
    (apart : Set.InjOn sha256 (hashedBytes state ∪ hashedBytes incoming)) (receipt : Receipt) :
    importBundle sha256 state bundle receipt =
      .ok (state, { receipt with imported := incoming.assets.map Asset.id }) := by
  have incomingStocked := ((decodeBundle_eq_ok sha256).1 decoded).stocked
  have assets : incoming.assets ⊆ state.assets := by
    intro asset member
    obtain ⟨held, heldMember, same⟩ := List.mem_map.1 (present asset member)
    have equal := asset_apart apart same (stocked.identified held heldMember)
      (incomingStocked.identified asset member)
      (fun bytes written => Or.inl (Or.inl ⟨held, heldMember, written⟩))
      (fun bytes written => Or.inr (Or.inl ⟨asset, member, written⟩))
    rw [← equal]
    exact heldMember
  have blobs : incoming.blobs ⊆ state.blobs := by
    intro blob member
    obtain ⟨asset, assetMember, named⟩ := incomingStocked.closed.referenced blob member
    obtain ⟨held, heldMember, same, _⟩ := stocked.closed.supplied asset (assets assetMember)
    have hashes : held.hash = blob.hash := same.trans named
    have heldHash := stocked.hashed held heldMember
    rw [hashes] at heldHash
    have bytes := contentHash_apart apart (Or.inl (Or.inr ⟨held, heldMember, rfl⟩))
      (Or.inr (Or.inr ⟨blob, member, rfl⟩)) heldHash (incomingStocked.hashed blob member)
    rw [← blobs_determined held blob hashes bytes]
    exact heldMember
  unfold importBundle
  simp only [bind_eq_ok, pure_eq_ok]
  refine ⟨_, decoded, state.assets, ?_, state.blobs, ?_, (), ?_, ?_⟩
  · exact Keyed.enter_present stocked.assetsAscending.distinct assets
  · exact Keyed.enter_present stocked.blobsAscending.distinct blobs
  · exact Stocked.quota stocked
  · simp only [sortEntries, stocked.assetsAscending.arrange_eq, stocked.blobsAscending.arrange_eq]

/-- An import leaves the records and the roots that are there as they are. -/
structure Preserves (before after : Snapshot) : Prop where
  assets : ∀ asset ∈ before.assets,
    asset ∈ after.assets ∧ ∀ other ∈ after.assets, other.id = asset.id → other = asset
  blobs : ∀ blob ∈ before.blobs,
    blob ∈ after.blobs ∧ ∀ other ∈ after.blobs, other.hash = blob.hash → other = blob
  currentRoots : after.currentRoots = before.currentRoots
  historyRoots : after.historyRoots = before.historyRoots

theorem Preserves.of_subset {before after : Snapshot}
    (stocked : Stocked sha256 after.assets after.blobs)
    (assets : before.assets ⊆ after.assets) (blobs : before.blobs ⊆ after.blobs)
    (currentRoots : after.currentRoots = before.currentRoots)
    (historyRoots : after.historyRoots = before.historyRoots) : Preserves before after where
  assets := by
    intro asset member
    refine ⟨assets member, ?_⟩
    intro other inside same
    exact stocked.assetsAscending.unique inside (assets member) same
  blobs := by
    intro blob member
    refine ⟨blobs member, ?_⟩
    intro other inside same
    exact stocked.blobsAscending.unique inside (blobs member) same
  currentRoots := currentRoots
  historyRoots := historyRoots

theorem import_preserves {state : Snapshot} (consistent : Consistent sha256 state)
    (bundle : Bytes) (expectedRevision : UInt64) :
    Preserves state (apply sha256 (.importBundle bundle) expectedRevision state).2 := by
  rcases @apply_cases sha256 (.importBundle bundle) expectedRevision state with
    ⟨code, refused⟩ | ⟨_, _, staged, answered, stagedOk, done⟩
  · rw [refused]
    exact Preserves.of_subset consistent.stocked (List.Subset.refl _) (List.Subset.refl _) rfl rfl
  · obtain ⟨incoming, decoded, imported, stocked, _⟩ :=
      importBundle_spec consistent.stocked stagedOk
    rw [done]
    refine Preserves.of_subset stocked ?_ ?_ ?_ ?_
    · exact fun asset member => (imported.assets asset).2 (Or.inl member)
    · exact fun blob member => (imported.blobs blob).2 (Or.inl member)
    · rw [imported.others]
    · rw [imported.others]

variable (sha256) in
/-- Imports that commit in one order commit in the other and leave the same catalog. A
bundle of present assets commits and changes nothing but the revision, unless hashes
collide, and no import touches what is there. -/
theorem imports_commute (calls : Calls) :
    let state := run sha256 calls
    (∀ first second : Bytes,
      let one := apply sha256 (.importBundle first) state.revision state
      let two := apply sha256 (.importBundle second) one.2.revision one.2
      one.1.status = ascii "committed" → two.1.status = ascii "committed" →
      let other := apply sha256 (.importBundle second) state.revision state
      let both := apply sha256 (.importBundle first) other.2.revision other.2
      other.1.status = ascii "committed" ∧ both.1.status = ascii "committed" ∧
        both.2 = two.2) ∧
      (∀ bundle incoming, decodeBundle sha256 bundle = .ok incoming →
        (∀ asset ∈ incoming.assets, asset.id ∈ state.assets.map Asset.id) →
        Set.InjOn sha256 (hashedBytes state ∪ hashedBytes incoming) →
        state.revision ≠ maximumRevision →
        let again := apply sha256 (.importBundle bundle) state.revision state
        again.1.status = ascii "committed" ∧
          again.2 = { state with revision := state.revision + 1 }) ∧
      ∀ bundle expectedRevision,
        Preserves state (apply sha256 (.importBundle bundle) expectedRevision state).2 := by
  intro state
  have consistent : Consistent sha256 state := run_consistent calls
  refine ⟨?_, ?_, import_preserves consistent⟩
  · intro first second one two committedOne committedTwo
    exact imports_swap consistent committedOne committedTwo
  · intro bundle incoming decoded present apart notLast again
    have stagedOk := importBundle_within consistent.stocked decoded present apart
      (Receipt.initial state.revision)
    have shape : again = ({ Receipt.initial state.revision with
        imported := incoming.assets.map Asset.id
        status := ascii "committed"
        revision := state.revision + 1 },
        { state with revision := state.revision + 1 }) := by
      change apply sha256 (.importBundle bundle) state.revision state = _
      unfold apply
      rw [if_neg (by simp), if_neg (by simpa using notLast)]
      simp only [stage, stagedOk]
    rw [shape]
    exact ⟨rfl, rfl⟩

end Imports

end Omniweft.Assets
