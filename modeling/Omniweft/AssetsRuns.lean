import Omniweft.AssetsBundle

/-!
# What every command keeps

The catalog's lists are sorted, closed under reference and within their limits.
A command either is refused and changes nothing, or commits a catalog of the
same kind under the next revision.
-/

namespace Omniweft.Assets

open Outcome

/-- A set of roots: ascending, of present assets, and not too long. -/
structure RootSet (assets : List Asset) (ids : List AssetId) : Prop where
  ascending : Keyed.Ascending id ids
  known : ∀ root ∈ ids, ∃ asset ∈ assets, asset.id = root
  bounded : ids.length ≤ rootsLimit

theorem RootSet.mono {assets more : List Asset} {ids : List AssetId}
    (rootSet : RootSet assets ids)
    (kept : ∀ asset ∈ assets, asset.id ∈ ids → asset ∈ more) :
    RootSet more ids where
  ascending := rootSet.ascending
  known root member := by
    obtain ⟨asset, assetMember, rfl⟩ := rootSet.known root member
    exact ⟨asset, kept asset assetMember member, rfl⟩
  bounded := rootSet.bounded

theorem rootSet_nil (assets : List Asset) : RootSet assets [] where
  ascending := List.Pairwise.nil
  known root impossible := by cases impossible
  bounded := Nat.zero_le _

theorem ascending_of_adjacent :
    ∀ {ids : List AssetId},
      ids.Pairwise (· ≤ ·) →
      adjacentEqual ids = false →
      Keyed.Ascending id ids
  | [], _, _ => List.Pairwise.nil
  | [_], _, _ => List.pairwise_singleton _ _
  | first :: second :: rest, sorted, distinct => by
      simp only [adjacentEqual, Bool.or_eq_false_iff, beq_eq_false_iff_ne] at distinct
      obtain ⟨firstLeast, later⟩ := List.pairwise_cons.1 sorted
      have restAscending : Keyed.Ascending id (second :: rest) :=
        ascending_of_adjacent later distinct.2
      have below : first < second :=
        Std.lt_of_le_of_ne (firstLeast second (List.mem_cons_self ..)) distinct.1
      apply List.Pairwise.cons _ restAscending
      intro other member
      rcases List.mem_cons.1 member with rfl | inRest
      · exact below
      · exact Std.lt_trans below (List.rel_of_pairwise_cons restAscending inRest)

theorem knownRoots_eq_ok {state : Snapshot} {done : PUnit} :
    ∀ {values : List AssetId},
      values.forM (knownRoot state) = .ok done →
      ∀ root ∈ values, ∃ asset ∈ state.assets, asset.id = root
  | [], _, root, impossible => by cases impossible
  | value :: rest, checkedAll, root, member => by
      change (knownRoot state value >>= fun _ => rest.forM (knownRoot state)) = .ok done
        at checkedAll
      rw [bind_eq_ok] at checkedAll
      obtain ⟨_, first, later⟩ := checkedAll
      rcases List.mem_cons.1 member with rfl | inRest
      · simp only [knownRoot, bind_eq_ok, rejectIf_eq_ok, exists_const] at first
        have present : (findAsset state.assets root).isSome = true := by
          rw [← Option.not_isNone, first.2]
          rfl
        rw [findAsset, Keyed.find_isSome] at present
        obtain ⟨asset, assetMember, same⟩ := List.mem_map.1 present
        exact ⟨asset, assetMember, same⟩
      · exact knownRoots_eq_ok later root inRest

theorem roots_spec {state : Snapshot} {values ids : List AssetId}
    (validated : roots state values = .ok ids) :
    RootSet state.assets ids := by
  unfold roots at validated
  simp only [bind_eq_ok, rejectIf_eq_ok, exists_const, decide_eq_false_iff_not, Nat.not_lt,
    pure_eq_ok] at validated
  obtain ⟨short, _, known, distinct, rfl⟩ := validated
  have perm : (sortTexts values).Perm values := List.perm_insertionSort _ values
  refine ⟨ascending_of_adjacent (sortTexts_sorted values) distinct, ?_, ?_⟩
  · intro root member
    exact knownRoots_eq_ok known root (perm.mem_iff.1 member)
  · rw [perm.length_eq]
    exact short

theorem assignRoots_names (name : Text) (ids : List AssetId) :
    ∀ entries : List HistoryRoots,
      (assignRoots name ids entries).map HistoryRoots.name = entries.map HistoryRoots.name
  | [] => rfl
  | entry :: rest => by
      unfold assignRoots
      by_cases same : entry.name == name
      · rw [if_pos same]
        rfl
      · rw [if_neg same, List.map_cons, assignRoots_names, List.map_cons]

theorem assignRoots_mem {name : Text} {ids : List AssetId} {entry : HistoryRoots} :
    ∀ {entries : List HistoryRoots},
      entry ∈ assignRoots name ids entries → entry ∈ entries ∨ entry.assetIds = ids
  | [], impossible => by cases impossible
  | first :: rest, member => by
      unfold assignRoots at member
      by_cases same : first.name == name
      · rw [if_pos same] at member
        rcases List.mem_cons.1 member with rfl | inRest
        · exact Or.inr rfl
        · exact Or.inl (List.mem_cons_of_mem _ inRest)
      · rw [if_neg same] at member
        rcases List.mem_cons.1 member with rfl | inRest
        · exact Or.inl (List.mem_cons_self ..)
        · rcases assignRoots_mem inRest with old | new
          · exact Or.inl (List.mem_cons_of_mem _ old)
          · exact Or.inr new

section Runs

variable (sha256 : Bytes → Vector UInt8 32)

/-- The representation of a catalog. -/
structure Consistent (state : Snapshot) : Prop where
  stocked : Stocked sha256 state.assets state.blobs
  currentRoots : RootSet state.assets state.currentRoots
  historyAscending : Keyed.Ascending HistoryRoots.name state.historyRoots
  historyCount : state.historyRoots.length ≤ historyLimit
  historyRoots : ∀ entry ∈ state.historyRoots, RootSet state.assets entry.assetIds

variable {sha256}

theorem consistent_fresh : Consistent sha256 Snapshot.fresh where
  stocked :=
    { assetsAscending := List.Pairwise.nil
      blobsAscending := List.Pairwise.nil
      identified := fun _ impossible => by cases impossible
      hashed := fun _ impossible => by cases impossible
      closed :=
        ⟨fun _ impossible => (by cases impossible), fun _ impossible => (by cases impossible)⟩
      assetCount := Nat.zero_le _
      blobCount := Nat.zero_le _
      total := Nat.zero_le _ }
  currentRoots := rootSet_nil _
  historyAscending := List.Pairwise.nil
  historyCount := Nat.zero_le _
  historyRoots := fun _ impossible => by cases impossible

theorem spends_eq_ok :
    ∀ {blobs : List Blob} {before total : Nat},
      before ≤ decodedByteLimit →
      (blobs.foldlM spend before = .ok total ↔
        (∀ blob ∈ blobs, blob.bytes.length ≤ blobByteLimit) ∧
          total = before + blobBytes blobs ∧ total ≤ decodedByteLimit)
  | [], before, total, within => by
      simp only [List.foldlM_nil, pure_eq_ok, List.not_mem_nil, false_imp_iff, implies_true,
        true_and, blobBytes, List.map_nil, List.sum_nil, Nat.add_zero]
      constructor
      · rintro rfl
        exact ⟨rfl, within⟩
      · rintro ⟨rfl, _⟩
        rfl
  | blob :: rest, before, total, within => by
      have sum : blobBytes (blob :: rest) = blob.bytes.length + blobBytes rest := by
        simp only [blobBytes, List.map_cons, List.sum_cons]
      rw [List.foldlM_cons, bind_eq_ok, sum]
      simp only [spend, bind_eq_ok, rejectIf_eq_ok, exists_const, Bool.or_eq_false_iff,
        decide_eq_false_iff_not, Nat.not_lt, pure_eq_ok, List.forall_mem_cons]
      constructor
      · rintro ⟨_, ⟨⟨small, fits⟩, rfl⟩, later⟩
        obtain ⟨restSmall, rfl, final⟩ := (spends_eq_ok (by omega)).1 later
        exact ⟨⟨small, restSmall⟩, by omega, final⟩
      · rintro ⟨⟨small, restSmall⟩, rfl, final⟩
        refine ⟨_, ⟨⟨small, by omega⟩, rfl⟩, ?_⟩
        exact (spends_eq_ok (by omega)).2 ⟨restSmall, by omega, final⟩

theorem quota_eq_ok {state : Snapshot} {done : Unit} :
    quota state = .ok done ↔
      state.assets.length ≤ manifestLimit ∧ state.blobs.length ≤ blobLimit ∧
        (∀ blob ∈ state.blobs, blob.bytes.length ≤ blobByteLimit) ∧
        blobBytes state.blobs ≤ decodedByteLimit := by
  unfold quota
  simp only [bind_eq_ok, rejectIf_eq_ok, exists_const, Bool.or_eq_false_iff,
    decide_eq_false_iff_not, Nat.not_lt, pure_eq_ok, spends_eq_ok (Nat.zero_le decodedByteLimit)]
  constructor
  · rintro ⟨⟨fewAssets, fewBlobs⟩, total, ⟨small, rfl, within⟩, _⟩
    exact ⟨fewAssets, fewBlobs, small, by omega⟩
  · rintro ⟨fewAssets, fewBlobs, small, within⟩
    exact ⟨⟨fewAssets, fewBlobs⟩, _, ⟨small, rfl, by omega⟩, trivial⟩

theorem Stocked.quota {state : Snapshot} (stocked : Stocked sha256 state.assets state.blobs) :
    quota state = .ok () :=
  quota_eq_ok.2 ⟨stocked.assetCount, stocked.blobCount,
    fun blob member => (contentHash_eq_ok.1 (stocked.hashed blob member)).1, stocked.total⟩

/-- An import merges the assets and the blobs and touches nothing else. -/
structure Imported (state incoming staged : Snapshot) : Prop where
  assets : ∀ asset, asset ∈ staged.assets ↔ asset ∈ state.assets ∨ asset ∈ incoming.assets
  blobs : ∀ blob, blob ∈ staged.blobs ↔ blob ∈ state.blobs ∨ blob ∈ incoming.blobs
  others : staged = { state with assets := staged.assets, blobs := staged.blobs }

theorem assets_determined (left right : Asset) (sameId : left.id = right.id)
    (sameManifest : left.manifest = right.manifest) : left = right := by
  cases left
  cases right
  simp_all

theorem blobs_determined (left right : Blob) (sameHash : left.hash = right.hash)
    (sameBytes : left.bytes = right.bytes) : left = right := by
  cases left
  cases right
  simp_all

theorem importBundle_spec {state staged : Snapshot} {bundle : Bytes} {receipt answered : Receipt}
    (stocked : Stocked sha256 state.assets state.blobs)
    (imported : importBundle sha256 state bundle receipt = .ok (staged, answered)) :
    ∃ incoming, decodeBundle sha256 bundle = .ok incoming ∧ Imported state incoming staged ∧
      Stocked sha256 staged.assets staged.blobs ∧
      answered = { receipt with imported := incoming.assets.map Asset.id } := by
  unfold importBundle at imported
  simp only [bind_eq_ok, pure_eq_ok, Prod.mk.injEq] at imported
  obtain ⟨incoming, decoded, assets, assetsEntered, blobs, blobsEntered, _, passed, rfl, rfl⟩ :=
    imported
  obtain ⟨assetsDistinct, assetsMembers, assetsFit⟩ :=
    Keyed.enter_all assets_determined stocked.assetsAscending.distinct assetsEntered
  obtain ⟨blobsDistinct, blobsMembers, blobsFit⟩ :=
    Keyed.enter_all blobs_determined stocked.blobsAscending.distinct blobsEntered
  have incomingStocked := ((decodeBundle_eq_ok sha256).1 decoded).stocked
  obtain ⟨_, _, _, total⟩ := quota_eq_ok.1 passed
  have assetsPerm : (Keyed.arrange Asset.id assets).Perm assets := Keyed.arrange_perm assets
  have blobsPerm : (Keyed.arrange Blob.hash blobs).Perm blobs := Keyed.arrange_perm blobs
  have closed : Closed assets blobs := by
    constructor
    · intro asset member
      rcases (assetsMembers asset).1 member with old | new
      · obtain ⟨blob, blobMember, supplied⟩ := stocked.closed.supplied asset old
        exact ⟨blob, (blobsMembers blob).2 (Or.inl blobMember), supplied⟩
      · obtain ⟨blob, blobMember, supplied⟩ := incomingStocked.closed.supplied asset new
        exact ⟨blob, (blobsMembers blob).2 (Or.inr blobMember), supplied⟩
    · intro blob member
      rcases (blobsMembers blob).1 member with old | new
      · obtain ⟨asset, assetMember, same⟩ := stocked.closed.referenced blob old
        exact ⟨asset, (assetsMembers asset).2 (Or.inl assetMember), same⟩
      · obtain ⟨asset, assetMember, same⟩ := incomingStocked.closed.referenced blob new
        exact ⟨asset, (assetsMembers asset).2 (Or.inr assetMember), same⟩
  refine ⟨incoming, decoded, ⟨?_, ?_, rfl⟩, ⟨?_, ?_, ?_, ?_, ?_, ?_, ?_, ?_⟩, rfl⟩
  · intro asset
    exact Keyed.mem_arrange.trans (assetsMembers asset)
  · intro blob
    exact Keyed.mem_arrange.trans (blobsMembers blob)
  · exact Keyed.arrange_ascending assetsDistinct
  · exact Keyed.arrange_ascending blobsDistinct
  · intro asset member
    rcases (assetsMembers asset).1 (Keyed.mem_arrange.1 member) with old | new
    · exact stocked.identified asset old
    · exact incomingStocked.identified asset new
  · intro blob member
    rcases (blobsMembers blob).1 (Keyed.mem_arrange.1 member) with old | new
    · exact stocked.hashed blob old
    · exact incomingStocked.hashed blob new
  · exact closed.of_perm assetsPerm.symm blobsPerm.symm
  · exact assetsPerm.length_eq.le.trans (assetsFit stocked.assetCount)
  · exact blobsPerm.length_eq.le.trans (blobsFit stocked.blobCount)
  · exact (blobBytes_perm blobsPerm).le.trans total

theorem mem_retained {state : Snapshot} {id : AssetId} :
    id ∈ retained state ↔
      id ∈ state.currentRoots ∨ ∃ entry ∈ state.historyRoots, id ∈ entry.assetIds := by
  simp [retained]

theorem blobBytes_sublist {left right : List Blob} (sublist : left.Sublist right) :
    blobBytes left ≤ blobBytes right := by
  induction sublist with
  | slnil => exact Nat.le_refl _
  | cons blob _ inductionHypothesis =>
      simp only [blobBytes, List.map_cons, List.sum_cons] at inductionHypothesis ⊢
      omega
  | cons_cons blob _ inductionHypothesis =>
      simp only [blobBytes, List.map_cons, List.sum_cons] at inductionHypothesis ⊢
      omega

theorem collect_assets {state : Snapshot} {receipt : Receipt} {asset : Asset} :
    asset ∈ (collect state receipt).1.assets ↔
      asset ∈ state.assets ∧ asset.id ∈ retained state := by
  simp [collect]

theorem collect_blobs {state : Snapshot} {receipt : Receipt} {blob : Blob} :
    blob ∈ (collect state receipt).1.blobs ↔
      blob ∈ state.blobs ∧
        ∃ asset ∈ (collect state receipt).1.assets, asset.manifest.contentHash = blob.hash := by
  simp [collect]

theorem collect_consistent {state : Snapshot} (consistent : Consistent sha256 state)
    (receipt : Receipt) :
    Consistent sha256 (collect state receipt).1 := by
  have stocked := consistent.stocked
  have assetsSublist : (collect state receipt).1.assets.Sublist state.assets :=
    List.filter_sublist
  have blobsSublist : (collect state receipt).1.blobs.Sublist state.blobs :=
    List.filter_sublist
  refine ⟨⟨?_, ?_, ?_, ?_, ⟨?_, ?_⟩, ?_, ?_, ?_⟩, ?_, consistent.historyAscending,
    consistent.historyCount, ?_⟩
  · exact stocked.assetsAscending.sublist assetsSublist
  · exact stocked.blobsAscending.sublist blobsSublist
  · intro asset member
    exact stocked.identified asset (assetsSublist.subset member)
  · intro blob member
    exact stocked.hashed blob (blobsSublist.subset member)
  · intro asset member
    obtain ⟨blob, blobMember, same, sized⟩ :=
      stocked.closed.supplied asset (assetsSublist.subset member)
    exact ⟨blob, collect_blobs.2 ⟨blobMember, asset, member, same.symm⟩, same, sized⟩
  · intro blob member
    exact (collect_blobs.1 member).2
  · exact assetsSublist.length_le.trans stocked.assetCount
  · exact blobsSublist.length_le.trans stocked.blobCount
  · exact (blobBytes_sublist blobsSublist).trans stocked.total
  · apply consistent.currentRoots.mono
    intro asset member rooted
    exact collect_assets.2 ⟨member, mem_retained.2 (Or.inl rooted)⟩
  · intro entry entryMember
    apply (consistent.historyRoots entry entryMember).mono
    intro asset member rooted
    exact collect_assets.2 ⟨member, mem_retained.2 (Or.inr ⟨entry, entryMember, rooted⟩)⟩

theorem setHistoryRoots_spec {state staged : Snapshot} {name : Text} {values : List AssetId}
    (consistent : Consistent sha256 state)
    (assigned : setHistoryRoots state name values = .ok staged) :
    Consistent sha256 staged ∧ staged.revision = state.revision := by
  unfold setHistoryRoots at assigned
  simp only [bind_eq_ok] at assigned
  obtain ⟨_, _, ids, validated, written⟩ := assigned
  have rootSet := roots_spec validated
  by_cases known : (state.historyRoots.any fun entry => entry.name == name) = true
  · rw [if_pos known, pure_eq_ok] at written
    subst written
    have names := assignRoots_names name ids state.historyRoots
    refine ⟨⟨consistent.stocked, consistent.currentRoots, ?_, ?_, ?_⟩, rfl⟩
    · apply Keyed.arrange_ascending
      rw [names]
      exact consistent.historyAscending.distinct
    · have sized := congrArg List.length names
      rw [List.length_map, List.length_map] at sized
      rw [Keyed.arrange_length, sized]
      exact consistent.historyCount
    · intro entry member
      rcases assignRoots_mem (Keyed.mem_arrange.1 member) with old | new
      · exact consistent.historyRoots entry old
      · rw [new]
        exact rootSet
  · rw [if_neg known, bind_eq_ok] at written
    obtain ⟨_, room, written⟩ := written
    rw [rejectIf_eq_ok] at room
    rw [pure_eq_ok] at written
    subst written
    refine ⟨⟨consistent.stocked, consistent.currentRoots, ?_, ?_, ?_⟩, rfl⟩
    · apply Keyed.arrange_ascending
      apply (Keyed.distinct_concat consistent.historyAscending.distinct _).2
      intro taken
      apply known
      obtain ⟨entry, member, same⟩ := List.mem_map.1 taken
      exact List.any_eq_true.2 ⟨entry, member, by simpa using same⟩
    · have notFull : state.historyRoots.length ≠ historyLimit := by simpa using room
      have within := consistent.historyCount
      rw [Keyed.arrange_length, List.length_append, List.length_singleton]
      omega
    · intro entry member
      rcases List.mem_append.1 (Keyed.mem_arrange.1 member) with old | new
      · exact consistent.historyRoots entry old
      · rw [List.mem_singleton.1 new]
        exact rootSet

/-- Every command stages a consistent catalog under the same revision. -/
theorem stage_spec {command : Command} {state staged : Snapshot} {receipt answered : Receipt}
    (consistent : Consistent sha256 state)
    (stagedOk : stage sha256 command state receipt = .ok (staged, answered)) :
    Consistent sha256 staged ∧ staged.revision = state.revision := by
  cases command with
  | importBundle bundle =>
      obtain ⟨incoming, _, imported, stocked, _⟩ := importBundle_spec consistent.stocked stagedOk
      have kept : ∀ asset ∈ state.assets, asset ∈ staged.assets := fun asset member =>
        (imported.assets asset).2 (Or.inl member)
      have others := imported.others
      rw [others]
      refine ⟨⟨stocked, consistent.currentRoots.mono fun asset member _ => kept asset member,
        consistent.historyAscending, consistent.historyCount, ?_⟩, rfl⟩
      intro entry member
      exact (consistent.historyRoots entry member).mono fun asset present _ => kept asset present
  | setCurrentRoots assetIds =>
      simp only [stage, bind_eq_ok, pure_eq_ok, Prod.mk.injEq] at stagedOk
      obtain ⟨ids, validated, rfl, _⟩ := stagedOk
      exact ⟨⟨consistent.stocked, roots_spec validated, consistent.historyAscending,
        consistent.historyCount, consistent.historyRoots⟩, rfl⟩
  | setHistoryRoots name assetIds =>
      simp only [stage, bind_eq_ok, pure_eq_ok, Prod.mk.injEq] at stagedOk
      obtain ⟨_, assigned, rfl, _⟩ := stagedOk
      exact setHistoryRoots_spec consistent assigned
  | removeHistoryRoots name =>
      simp only [stage, bind_eq_ok, pure_eq_ok, Prod.mk.injEq] at stagedOk
      obtain ⟨_, _, rfl, _⟩ := stagedOk
      refine ⟨⟨consistent.stocked, consistent.currentRoots, consistent.historyAscending.filter _,
        (List.length_filter_le _ _).trans consistent.historyCount, ?_⟩, rfl⟩
      intro entry member
      exact consistent.historyRoots entry (List.mem_of_mem_filter member)
  | collect =>
      simp only [stage, Except.ok.injEq] at stagedOk
      have kept := collect_consistent consistent receipt
      rw [stagedOk] at kept
      refine ⟨kept, ?_⟩
      rw [← show (collect state receipt).1 = staged from congrArg Prod.fst stagedOk]
      rfl

/-- What a call to the catalog can do: refuse and leave the catalog as it was,
or commit a staged catalog under the next revision. -/
theorem apply_cases (command : Command) (expectedRevision : UInt64) (state : Snapshot) :
    (∃ code, apply sha256 command expectedRevision state =
      ({ Receipt.initial state.revision with code := code }, state)) ∨
    (expectedRevision = state.revision ∧ state.revision ≠ maximumRevision ∧
      ∃ staged answered,
        stage sha256 command state (Receipt.initial state.revision) = .ok (staged, answered) ∧
        apply sha256 command expectedRevision state =
          ({ answered with status := ascii "committed", revision := staged.revision + 1 },
            { staged with revision := staged.revision + 1 })) := by
  unfold apply
  by_cases conflict : (expectedRevision != state.revision) = true
  · rw [if_pos conflict]
    exact Or.inl ⟨_, rfl⟩
  rw [if_neg conflict]
  by_cases last : (state.revision == maximumRevision) = true
  · rw [if_pos last]
    exact Or.inl ⟨_, rfl⟩
  rw [if_neg last]
  cases outcome : stage sha256 command state (Receipt.initial state.revision) with
  | error code => exact Or.inl ⟨code, rfl⟩
  | ok result =>
      obtain ⟨staged, answered⟩ := result
      refine Or.inr ⟨by simpa using conflict, by simpa using last, staged, answered, rfl, rfl⟩

theorem Consistent.revise {state : Snapshot} (consistent : Consistent sha256 state)
    (revision : UInt64) :
    Consistent sha256 { state with revision := revision } :=
  ⟨consistent.stocked, consistent.currentRoots, consistent.historyAscending,
    consistent.historyCount, consistent.historyRoots⟩

theorem apply_consistent {state : Snapshot} (consistent : Consistent sha256 state)
    (command : Command) (expectedRevision : UInt64) :
    Consistent sha256 (apply sha256 command expectedRevision state).2 := by
  rcases @apply_cases sha256 command expectedRevision state with
    ⟨code, refused⟩ | ⟨_, _, staged, answered, stagedOk, committed⟩
  · rw [refused]
    exact consistent
  · rw [committed]
    exact (stage_spec consistent stagedOk).1.revise _

theorem foldl_consistent (calls : Calls) :
    ∀ {state : Snapshot},
      Consistent sha256 state →
      Consistent sha256
        (calls.foldl (fun state call => (apply sha256 call.1 call.2 state).2) state) := by
  induction calls with
  | nil => exact id
  | cons call rest inductionHypothesis =>
      intro state consistent
      exact inductionHypothesis (apply_consistent consistent call.1 call.2)

theorem run_consistent (calls : Calls) : Consistent sha256 (run sha256 calls) :=
  foldl_consistent calls consistent_fresh

theorem next_revision {revision : UInt64} (notLast : revision ≠ maximumRevision) :
    (revision + 1).toNat = revision.toNat + 1 := by
  have small : revision.toNat < 2 ^ 64 := revision.toNat_lt
  have apart : revision.toNat ≠ maximumRevision.toNat := fun same =>
    notLast (UInt64.toNat_inj.1 same)
  have last : maximumRevision.toNat = 2 ^ 64 - 1 := rfl
  rw [UInt64.toNat_add]
  have one : (1 : UInt64).toNat = 1 := rfl
  omega

/-- Whatever commands a catalog was sent, it is consistent; the next command
either commits and advances the revision by one, or is refused and leaves the
catalog exactly as it was. -/
theorem representation (calls : Calls) :
    Consistent sha256 (run sha256 calls) ∧
      ∀ (command : Command) (expectedRevision : UInt64),
        (((apply sha256 command expectedRevision (run sha256 calls)).1.status =
            ascii "committed" ∧
          (apply sha256 command expectedRevision (run sha256 calls)).2.revision.toNat =
            (run sha256 calls).revision.toNat + 1) ∨
        ((apply sha256 command expectedRevision (run sha256 calls)).1.status =
            ascii "rejected" ∧
          (apply sha256 command expectedRevision (run sha256 calls)).2 = run sha256 calls)) := by
  refine ⟨run_consistent calls, ?_⟩
  intro command expectedRevision
  rcases @apply_cases sha256 command expectedRevision (run sha256 calls) with
    ⟨code, refused⟩ | ⟨_, notLast, staged, answered, stagedOk, committed⟩
  · rw [refused]
    exact Or.inr ⟨rfl, rfl⟩
  · rw [committed]
    refine Or.inl ⟨rfl, ?_⟩
    rw [(stage_spec (run_consistent calls) stagedOk).2]
    exact next_revision notLast

end Runs

end Omniweft.Assets
