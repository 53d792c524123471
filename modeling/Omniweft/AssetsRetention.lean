import Omniweft.AssetsExport
import Omniweft.Sha256

/-!
# Retention

The report of `inspect_retention` is computed by bisection on the root lists
and by joining rows, the collection by set membership and erasure. On a
consistent catalog both come to the same: an asset is removable when no root
set names it, a blob when every asset that needs it is.
-/

namespace Omniweft.Assets

open Outcome

section Rows

variable {sha256 : Bytes → Vector UInt8 32} {state : Snapshot}

theorem currentRoot_iff (consistent : Consistent sha256 state) (asset : Asset) :
    (assetRetention state asset).currentRoot = true ↔ asset.id ∈ state.currentRoots :=
  Keyed.binarySearch_eq consistent.currentRoots.ascending asset.id

theorem historyRoots_eq (consistent : Consistent sha256 state) (asset : Asset) :
    (assetRetention state asset).historyRoots =
      (state.historyRoots.filter fun entry => entry.assetIds.contains asset.id).map
        HistoryRoots.name := by
  have searched : ∀ entry ∈ state.historyRoots,
      Keyed.binarySearch entry.assetIds asset.id = entry.assetIds.contains asset.id := by
    intro entry member
    rw [Bool.eq_iff_iff, Keyed.binarySearch_eq (consistent.historyRoots entry member).ascending,
      List.contains_iff_mem]
  unfold assetRetention
  rw [List.filter_congr searched]

/-- An asset is rooted in the report when some root set names it. -/
theorem rooted_iff (consistent : Consistent sha256 state) (asset : Asset) :
    (assetRetention state asset).rooted = true ↔ asset.id ∈ retained state := by
  unfold AssetRetention.rooted
  rw [Bool.or_eq_true, currentRoot_iff consistent, historyRoots_eq consistent, mem_retained]
  simp

end Rows

/-- The rows say which root sets name an asset, and which assets need a blob. -/
structure Explains (state : Snapshot) (report : RetentionReport) : Prop where
  currentRoots : report.currentRoots = state.currentRoots
  historyRoots : report.historyRoots = state.historyRoots
  assets : report.assets = state.assets.map fun asset =>
    { id := asset.id
      contentHash := asset.manifest.contentHash
      currentRoot := decide (asset.id ∈ state.currentRoots)
      historyRoots :=
        (state.historyRoots.filter fun entry => decide (asset.id ∈ entry.assetIds)).map
          HistoryRoots.name }
  blobs : report.blobs = state.blobs.map fun blob =>
    { hash := blob.hash
      referencingAssets :=
        (state.assets.filter fun asset =>
          decide (asset.manifest.contentHash = blob.hash)).map Asset.id
      retainingAssets :=
        (state.assets.filter fun asset =>
          decide (asset.manifest.contentHash = blob.hash) &&
            decide (asset.id ∈ retained state)).map Asset.id }

/-- The removable entries are those a collection takes away, and it counts them. -/
structure Predicts (state : Snapshot) (report : RetentionReport) (receipt : Receipt)
    (next : Snapshot) : Prop where
  assets : report.removableAssets =
    (state.assets.filter fun asset => decide (asset ∉ next.assets)).map Asset.id
  blobs : report.removableBlobs =
    (state.blobs.filter fun blob => decide (blob ∉ next.blobs)).map Blob.hash
  assetsRemoved : receipt.manifestsRemoved.toNat = report.removableAssets.length
  blobsRemoved : receipt.blobsRemoved.toNat = report.removableBlobs.length
  -- Nothing new appears, and the roots stay.
  assetsLeft : next.assets.Sublist state.assets
  blobsLeft : next.blobs.Sublist state.blobs
  roots : next.currentRoots = state.currentRoots ∧ next.historyRoots = state.historyRoots

/-- A collection keeps what the root sets name and the blobs those assets need. -/
def KeepsRooted (state next : Snapshot) : Prop :=
  ∀ asset ∈ state.assets, asset.id ∈ retained state →
    asset ∈ next.assets ∧
      ∀ blob ∈ state.blobs, blob.hash = asset.manifest.contentHash → blob ∈ next.blobs

section Collection

variable {sha256 : Bytes → Vector UInt8 32} {state : Snapshot}

theorem report_explains (consistent : Consistent sha256 state) :
    Explains state (retentionReport state) := by
  have current : ∀ asset : Asset,
      (assetRetention state asset).currentRoot = decide (asset.id ∈ state.currentRoots) := by
    intro asset
    rw [Bool.eq_iff_iff, currentRoot_iff consistent, decide_eq_true_iff]
  have rows : ∀ asset : Asset, assetRetention state asset =
      { id := asset.id
        contentHash := asset.manifest.contentHash
        currentRoot := decide (asset.id ∈ state.currentRoots)
        historyRoots :=
          (state.historyRoots.filter fun entry => decide (asset.id ∈ entry.assetIds)).map
            HistoryRoots.name } := by
    intro asset
    have history := historyRoots_eq consistent asset
    simp only [List.contains_eq_mem] at history
    rw [← current asset, ← history]
    rfl
  refine ⟨rfl, rfl, List.map_congr_left fun asset _ => rows asset, ?_⟩
  apply List.map_congr_left
  intro blob _
  have rooted : ∀ asset : Asset,
      (assetRetention state asset).rooted = decide (asset.id ∈ retained state) := by
    intro asset
    rw [Bool.eq_iff_iff, rooted_iff consistent, decide_eq_true_iff]
  have needs : ∀ asset : Asset,
      ((assetRetention state asset).contentHash == blob.hash) =
        decide (asset.manifest.contentHash = blob.hash) := by
    intro asset
    rw [Bool.eq_iff_iff, beq_iff_eq, decide_eq_true_iff]
    rfl
  simp only [blobRetention, List.filter_map, List.map_map, List.filter_filter, Function.comp_def,
    needs, rooted, Bool.and_comm]
  rfl

theorem filter_removed {τ : Type} {items kept : List τ} [DecidableEq τ] {keep : τ → Bool}
    (left : kept = items.filter keep) :
    (items.filter fun item => decide (item ∉ kept)) = items.filter fun item => !keep item := by
  apply List.filter_congr
  intro item member
  have stays : item ∈ kept ↔ keep item = true := by
    rw [left, List.mem_filter]
    exact and_iff_right member
  rw [Bool.eq_iff_iff, decide_eq_true_iff, stays]
  simp

theorem filter_removed_length {τ : Type} (items : List τ) (keep : τ → Bool) :
    items.length - (items.filter keep).length = (items.filter fun item => !keep item).length := by
  induction items with
  | nil => rfl
  | cons item rest inductionHypothesis =>
      have short := List.length_filter_le keep rest
      cases kept : keep item with
      | true =>
          simp only [List.filter_cons, kept, if_true, List.length_cons, Bool.not_true,
            Bool.false_eq_true, if_false]
          omega
      | false =>
          simp only [List.filter_cons, kept, if_true, List.length_cons, Bool.not_false,
            Bool.false_eq_true, if_false]
          omega

theorem removableAssets_eq (consistent : Consistent sha256 state) :
    (retentionReport state).removableAssets =
      (state.assets.filter fun asset => !(retained state).contains asset.id).map Asset.id := by
  have rooted : ∀ asset : Asset,
      (assetRetention state asset).rooted = (retained state).contains asset.id := by
    intro asset
    rw [Bool.eq_iff_iff, rooted_iff consistent, List.contains_iff_mem]
  simp only [retentionReport, List.filter_map, List.map_map, Function.comp_def, rooted]
  rfl

/-- A blob is removable when no rooted asset needs it, and then it is not
reachable from the assets that are left. -/
theorem removableBlobs_eq (consistent : Consistent sha256 state) (receipt : Receipt) :
    (retentionReport state).removableBlobs =
      (state.blobs.filter fun blob =>
        !(((collect state receipt).1.assets.map fun asset =>
          asset.manifest.contentHash).contains blob.hash)).map Blob.hash := by
  have explains := (report_explains consistent).blobs
  have unneeded : ∀ blob : Blob,
      (((state.assets.filter fun asset =>
        decide (asset.manifest.contentHash = blob.hash) &&
          decide (asset.id ∈ retained state)).map Asset.id).isEmpty) =
      !(((collect state receipt).1.assets.map fun asset =>
          asset.manifest.contentHash).contains blob.hash) := by
    intro blob
    rw [Bool.eq_iff_iff, List.isEmpty_iff, List.map_eq_nil_iff, List.filter_eq_nil_iff,
      Bool.not_eq_true', ← Bool.not_eq_true, List.contains_iff_mem, List.mem_map]
    simp only [Bool.and_eq_true, decide_eq_true_iff, collect_assets]
    constructor
    · intro none
      rintro ⟨asset, ⟨member, rooted⟩, same⟩
      exact none asset member ⟨same, rooted⟩
    · intro none asset member
      rintro ⟨same, rooted⟩
      exact none ⟨asset, ⟨member, rooted⟩, same⟩
  have shape : (retentionReport state).removableBlobs =
      ((retentionReport state).blobs.filter fun row => row.retainingAssets.isEmpty).map
        BlobRetention.hash := rfl
  rw [shape, explains, List.filter_map, List.map_map]
  simp only [Function.comp_def, unneeded]

theorem collect_predicted (consistent : Consistent sha256 state) (receipt : Receipt) :
    Predicts state (retentionReport state) (collect state receipt).2 (collect state receipt).1 := by
  have stocked := consistent.stocked
  have assetsLeft : (collect state receipt).1.assets =
      state.assets.filter fun asset => (retained state).contains asset.id := rfl
  have blobsLeft : (collect state receipt).1.blobs =
      state.blobs.filter fun blob =>
        ((collect state receipt).1.assets.map fun asset =>
          asset.manifest.contentHash).contains blob.hash := rfl
  have assetsRemoved : (retentionReport state).removableAssets.length =
      state.assets.length - (collect state receipt).1.assets.length := by
    rw [removableAssets_eq consistent, List.length_map, assetsLeft, filter_removed_length]
  have blobsRemoved : (retentionReport state).removableBlobs.length =
      state.blobs.length - (collect state receipt).1.blobs.length := by
    rw [removableBlobs_eq consistent receipt, List.length_map, blobsLeft, filter_removed_length]
  have fewAssets : state.assets.length < 2 ^ 32 :=
    Nat.lt_of_le_of_lt stocked.assetCount (by decide)
  have fewBlobs : state.blobs.length < 2 ^ 32 :=
    Nat.lt_of_le_of_lt stocked.blobCount (by decide)
  refine ⟨?_, ?_, ?_, ?_, List.filter_sublist, List.filter_sublist, rfl, rfl⟩
  · rw [removableAssets_eq consistent, filter_removed assetsLeft]
  · rw [removableBlobs_eq consistent receipt, filter_removed blobsLeft]
  · rw [assetsRemoved]
    exact UInt32.toNat_ofNat_of_lt' (Nat.lt_of_le_of_lt (Nat.sub_le _ _) fewAssets)
  · rw [blobsRemoved]
    exact UInt32.toNat_ofNat_of_lt' (Nat.lt_of_le_of_lt (Nat.sub_le _ _) fewBlobs)

theorem collect_keepsRooted (receipt : Receipt) :
    KeepsRooted state (collect state receipt).1 := by
  intro asset member rooted
  have kept : asset ∈ (collect state receipt).1.assets := collect_assets.2 ⟨member, rooted⟩
  refine ⟨kept, ?_⟩
  intro blob blobMember same
  exact collect_blobs.2 ⟨blobMember, asset, kept, same.symm⟩

/-- Nothing is left to collect. -/
structure Swept (state : Snapshot) : Prop where
  assets : ∀ asset ∈ state.assets, asset.id ∈ retained state
  blobs : ∀ blob ∈ state.blobs, ∃ asset ∈ state.assets,
    asset.manifest.contentHash = blob.hash

theorem collect_swept (receipt : Receipt) : Swept (collect state receipt).1 where
  assets _ member := (collect_assets.1 member).2
  blobs _ member := (collect_blobs.1 member).2

theorem Swept.collect (swept : Swept state) (receipt : Receipt) :
    collect state receipt =
      (state, { receipt with manifestsRemoved := 0, blobsRemoved := 0 }) := by
  have assets : (state.assets.filter fun asset => (retained state).contains asset.id) =
      state.assets := by
    rw [List.filter_eq_self]
    intro asset member
    exact List.contains_iff_mem.2 (swept.assets asset member)
  have blobs : (state.blobs.filter fun blob =>
      (state.assets.map fun asset => asset.manifest.contentHash).contains blob.hash) =
      state.blobs := by
    rw [List.filter_eq_self]
    intro blob member
    obtain ⟨asset, assetMember, same⟩ := swept.blobs blob member
    exact List.contains_iff_mem.2 (List.mem_map.2 ⟨asset, assetMember, same⟩)
  unfold Assets.collect
  simp only [assets, blobs, Nat.sub_self]
  rfl

end Collection

section Runs

variable (sha256 : Bytes → Vector UInt8 32)

/-- The report at the catalog's revision and a collection at that revision. -/
def Predicted (calls : Calls) : Prop :=
  Predicts (run sha256 calls) (retentionReport (run sha256 calls))
    (apply sha256 .collect (run sha256 calls).revision (run sha256 calls)).1
    (apply sha256 .collect (run sha256 calls).revision (run sha256 calls)).2

variable {sha256} in
theorem apply_collect {state : Snapshot} (notLast : state.revision ≠ maximumRevision) :
    apply sha256 .collect state.revision state =
      ({ (collect state (Receipt.initial state.revision)).2 with
          status := ascii "committed", revision := state.revision + 1 },
        { (collect state (Receipt.initial state.revision)).1 with
          revision := state.revision + 1 }) := by
  unfold apply
  rw [if_neg (by simp), if_neg (by simpa using notLast)]
  rfl

/-- The report explains the roots and the references of every catalog that can
be reached. Unless the revisions are used up, a collection at the reported
revision commits and takes away exactly the removable entries. No collection
takes away what the root sets name, and a second one takes away nothing. -/
theorem retention (calls : Calls) :
    inspectRetention (run sha256 calls).revision (run sha256 calls) =
        ⟨ascii "ok", [], (run sha256 calls).revision, some (retentionReport (run sha256 calls))⟩ ∧
      Explains (run sha256 calls) (retentionReport (run sha256 calls)) ∧
      ((run sha256 calls).revision ≠ maximumRevision →
        (apply sha256 .collect (run sha256 calls).revision (run sha256 calls)).1.status =
            ascii "committed" ∧
          Predicted sha256 calls) ∧
      ∀ (first second : UInt64),
        KeepsRooted (run sha256 calls) (apply sha256 .collect first (run sha256 calls)).2 ∧
        ((apply sha256 .collect first (run sha256 calls)).1.status = ascii "committed" →
          (apply sha256 .collect second
              (apply sha256 .collect first (run sha256 calls)).2).2.assets =
              (apply sha256 .collect first (run sha256 calls)).2.assets ∧
            (apply sha256 .collect second
              (apply sha256 .collect first (run sha256 calls)).2).2.blobs =
              (apply sha256 .collect first (run sha256 calls)).2.blobs ∧
            (apply sha256 .collect second
              (apply sha256 .collect first (run sha256 calls)).2).1.manifestsRemoved = 0 ∧
            (apply sha256 .collect second
              (apply sha256 .collect first (run sha256 calls)).2).1.blobsRemoved = 0) := by
  have consistent := @run_consistent sha256 calls
  generalize reached : run sha256 calls = state at consistent
  refine ⟨?_, report_explains consistent, ?_, ?_⟩
  · unfold inspectRetention
    rw [if_neg (by simp)]
  · intro notLast
    have predicted := collect_predicted consistent (Receipt.initial state.revision)
    unfold Predicted
    rw [reached, apply_collect notLast]
    exact ⟨rfl, predicted.assets, predicted.blobs, predicted.assetsRemoved,
      predicted.blobsRemoved, predicted.assetsLeft, predicted.blobsLeft, predicted.roots⟩
  · intro first second
    rcases @apply_cases sha256 .collect first state with
      ⟨code, refused⟩ | ⟨_, _, staged, answered, stagedOk, committed⟩
    · rw [refused]
      refine ⟨?_, ?_⟩
      · intro asset member _
        exact ⟨member, fun blob blobMember _ => blobMember⟩
      · intro committed
        have rejected : ascii "rejected" ≠ ascii "committed" := by decide
        exact absurd committed rejected
    · rw [committed]
      have collected : collect state (Receipt.initial state.revision) = (staged, answered) :=
        Except.ok.inj stagedOk
      have left : (collect state (Receipt.initial state.revision)).1 = staged := by
        rw [collected]
      refine ⟨?_, ?_⟩
      · have kept : KeepsRooted state (collect state (Receipt.initial state.revision)).1 :=
          collect_keepsRooted _
        rw [left] at kept
        exact kept
      · intro _
        have swept : Swept (collect state (Receipt.initial state.revision)).1 := collect_swept _
        rw [left] at swept
        have revised : Swept { staged with revision := staged.revision + 1 } :=
          ⟨swept.assets, swept.blobs⟩
        rcases @apply_cases sha256 .collect second { staged with revision := staged.revision + 1 }
          with ⟨code, refused⟩ | ⟨_, _, again, reply, againOk, recommitted⟩
        · rw [refused]
          exact ⟨rfl, rfl, rfl, rfl⟩
        · rw [recommitted]
          simp only [stage, revised.collect, Except.ok.injEq, Prod.mk.injEq] at againOk
          obtain ⟨rfl, rfl⟩ := againOk
          exact ⟨rfl, rfl, rfl, rfl⟩

/-- Emptying the empty current roots does nothing but advance the revision. -/
theorem idle_call {state : Snapshot} (noRoots : state.currentRoots = [])
    (notLast : state.revision ≠ maximumRevision) :
    (apply sha256 (.setCurrentRoots []) state.revision state).2 =
      { state with revision := state.revision + 1 } := by
  have none : roots state [] = .ok [] := rfl
  unfold apply
  rw [if_neg (by simp), if_neg (by simpa using notLast)]
  simp only [stage, none]
  rw [← noRoots]
  rfl

/-- Enough of them use the revisions up. -/
theorem idle_calls :
    ∀ (count : Nat) {state : Snapshot},
      state.currentRoots = [] →
      state.revision.toNat + count = maximumRevision.toNat →
      ∃ calls : Calls,
        calls.foldl (fun state call => (apply sha256 call.1 call.2 state).2) state =
          { state with revision := maximumRevision }
  | 0, state, _, spent => by
      refine ⟨[], ?_⟩
      have last : state.revision = maximumRevision := UInt64.toNat_inj.1 spent
      rw [← last]
      rfl
  | count + 1, state, noRoots, left => by
      have notLast : state.revision ≠ maximumRevision := by
        intro last
        rw [last] at left
        omega
      have advanced := next_revision notLast
      obtain ⟨calls, reached⟩ :=
        @idle_calls count { state with revision := state.revision + 1 } noRoots (by
          simp only [advanced]
          omega)
      refine ⟨(.setCurrentRoots [], state.revision) :: calls, ?_⟩
      rw [List.foldl_cons, idle_call sha256 noRoots notLast, reached]

/-- A catalog of one asset whose blob is empty, and which no root set names. -/
def loneAsset : Snapshot :=
  let empty := hex (sha256 []).toList
  let manifest : Manifest := ⟨1, empty, 0, ascii "a", ascii "b", ascii "c"⟩
  { Snapshot.fresh with
    assets := [⟨hex (sha256 (manifestBytes manifest (sha256 []).toList)).toList, manifest⟩]
    blobs := [⟨empty, []⟩] }

theorem loneAsset_stocked :
    Stocked sha256 (loneAsset sha256).assets (loneAsset sha256).blobs := by
  have digest : (sha256 []).toList.length = 32 := Vector.length_toList
  have valid : Manifest.Valid
      ⟨1, hex (sha256 []).toList, 0, ascii "a", ascii "b", ascii "c"⟩ :=
    ⟨rfl, Nat.zero_le _, validHash_iff.2 ⟨_, digest, rfl⟩, rfl, rfl, rfl⟩
  refine ⟨List.pairwise_singleton _ _, List.pairwise_singleton _ _, ?_, ?_, ⟨?_, ?_⟩,
    Nat.le_add_left 1 7, Nat.le_add_left 1 7, Nat.zero_le _⟩
  · intro asset member
    obtain rfl := List.mem_singleton.1 member
    have written := canonicalManifest_eq_ok.2 ⟨valid, _, digest, rfl, rfl⟩
    have short := manifestBytes_length valid digest
    unfold assetId
    rw [bind_eq_ok]
    refine ⟨_, written, contentHash_eq_ok.2 ⟨?_, rfl⟩⟩
    exact short.trans (by decide)
  · intro blob member
    obtain rfl := List.mem_singleton.1 member
    exact contentHash_eq_ok.2 ⟨Nat.zero_le _, rfl⟩
  · intro asset member
    obtain rfl := List.mem_singleton.1 member
    exact ⟨_, List.mem_singleton.2 rfl, rfl, rfl⟩
  · intro blob member
    obtain rfl := List.mem_singleton.1 member
    exact ⟨_, List.mem_singleton.2 rfl, rfl⟩

theorem import_loneAsset :
    ∃ bytes, (apply sha256 (.importBundle bytes) 0 Snapshot.fresh).2 =
      { loneAsset sha256 with revision := 1 } := by
  obtain ⟨bytes, _, encodes⟩ := exportBundle_encodes (loneAsset_stocked sha256)
  refine ⟨bytes, ?_⟩
  unfold apply
  simp only [Snapshot.fresh, stage]
  rw [show (⟨1, 0, [], [], [], []⟩ : Snapshot) = Snapshot.fresh from rfl,
    importBundle_fresh _ encodes]
  rfl

/-- At the last revision the report still lists what no root set names, while a
collection is refused: whatever the digest, not every reachable catalog is
predicted. -/
theorem exhausted_unpredicted :
    ¬ ∃ sha256 : Bytes → Vector UInt8 32, ∀ calls : Calls, Predicted sha256 calls := by
  rintro ⟨sha256, predicted⟩
  obtain ⟨bytes, imported⟩ := import_loneAsset sha256
  have spent : (1 : UInt64).toNat + (maximumRevision.toNat - 1) = maximumRevision.toNat := by
    decide
  obtain ⟨calls, reached⟩ := idle_calls sha256 (maximumRevision.toNat - 1)
    (show ({ loneAsset sha256 with revision := 1 } : Snapshot).currentRoots = [] from rfl) spent
  have exhausted : run sha256 ((.importBundle bytes, 0) :: calls) =
      { loneAsset sha256 with revision := maximumRevision } := by
    unfold run
    rw [List.foldl_cons, imported, reached]
  have claimed := (predicted ((.importBundle bytes, 0) :: calls)).assetsRemoved
  have lists : (retentionReport (run sha256 ((.importBundle bytes, 0) :: calls))).removableAssets =
      (loneAsset sha256).assets.map Asset.id := by
    rw [exhausted]
    rfl
  have refused : (apply sha256 .collect (run sha256 ((.importBundle bytes, 0) :: calls)).revision
      (run sha256 ((.importBundle bytes, 0) :: calls))).1.manifestsRemoved = 0 := by
    rw [exhausted]
    rfl
  rw [lists, refused] at claimed
  exact Nat.zero_ne_one claimed

end Runs

/-- One import and nothing else: the asset is listed and a collection takes it. -/
theorem retention_loneAsset :
    ∃ calls : Calls,
      (retentionReport (run Sha256.digest calls)).removableAssets.length = 1 ∧
        Predicted Sha256.digest calls := by
  obtain ⟨bytes, imported⟩ := import_loneAsset Sha256.digest
  have reached : run Sha256.digest [(.importBundle bytes, 0)] =
      { loneAsset Sha256.digest with revision := 1 } := imported
  have notLast : (run Sha256.digest
      [(.importBundle bytes, 0)]).revision ≠ maximumRevision := by
    rw [reached]
    exact (by decide : (1 : UInt64) ≠ maximumRevision)
  refine ⟨[(.importBundle bytes, 0)], ?_,
    ((retention Sha256.digest [(.importBundle bytes, 0)]).2.2.1 notLast).2⟩
  rw [reached]
  rfl

end Omniweft.Assets
