import Omniweft.PersistenceOpen
import Omniweft.PersistenceSteps

/-!
# What a store leaves on its disk

The checkpoint holds a package of the store's past, and the journal the packages from some
later point on, one for each commit, and maybe the beginning of the next. Opening such a
disk finds the newest package, whatever the checkpoint holds and wherever the journal
starts.
-/

namespace Omniweft.Persistence

open Omniweft.Outcome World Commands Transactions

section Writing

variable {sha256 : Bytes → Vector UInt8 32}

/-- The frame of a package. -/
def Frame.of (package : Package) : Frame := ⟨packageBytes package, package.high⟩

theorem frame_eq_ok {package : Package} {bytes : Bytes} :
    frame sha256 package = .ok bytes ↔
      (packageBytes package).length ≤ packageLimit ∧
        bytes = (Frame.of package).spelled sha256 := by
  unfold frame encode
  simp only [bind_eq_ok, rejectIf_eq_ok, pure_eq_ok, decide_eq_false_iff_not, Nat.not_lt,
    exists_const]
  constructor
  · intro framed
    obtain ⟨_, ⟨small, rfl⟩, rfl⟩ := framed
    exact ⟨small, rfl⟩
  · intro framed
    obtain ⟨small, rfl⟩ := framed
    exact ⟨_, ⟨small, rfl⟩, rfl⟩

theorem quota_eq_ok {sizes : List Nat} {package : Package} {added : Nat} {done : Unit} :
    quota sizes package added = .ok done ↔
      sizes.sum ≤ maximumQuota ∧ sizes.sum + added ≤ package.config.byteQuota.toNat := by
  unfold quota
  simp only [bind_eq_ok, bytesUsed_eq_ok, rejectIf_eq_ok, Bool.or_eq_false_iff,
    decide_eq_false_iff_not, Nat.not_lt]
  constructor
  · intro reserved
    obtain ⟨_, ⟨rfl, most⟩, room, added⟩ := reserved
    omega
  · intro reserved
    exact ⟨_, ⟨rfl, reserved.1⟩, by omega, by omega⟩

/-- A frame that is not written to its end is incomplete. -/
theorem incomplete_of_part {frame : Frame} (fits : frame.Fits) {part rest : Bytes}
    (split : frame.spelled sha256 = part ++ rest) (missing : rest ≠ []) :
    Incomplete sha256 part := by
  have positive := List.length_pos_iff.mpr missing
  have sized := @spelled_length sha256 frame
  rw [split, List.length_append] at sized
  have headed := @spelled_headed sha256 frame fits []
  rw [List.append_nil, split] at headed
  obtain ⟨front, _⟩ := headed.take_header
  have header := frameHeader_length frame.payload.length frame.high
  have taken : (part ++ rest).take part.length = part := List.take_left' rfl
  by_cases short : part.length < headerSize
  · refine Or.inl ⟨short, ?_, ?_⟩
    · obtain ⟨magic, _, _⟩ := @header_reads frame.payload.length frame.high fits.1 fits.2
        ((sha256 (frameHeader frame.payload.length frame.high)).toList ++
          (frame.payload ++ ((sha256 (opened sha256 frame.payload frame.high)).toList ++
            (endMagic ++ []))))
      rw [← List.append_assoc, ← headed.split] at magic
      have both := congrArg (List.take part.length) magic
      rw [List.take_take, Nat.min_comm, ← List.take_take, taken] at both
      exact both
    · intro long
      have start : part.take 20 = frameHeader frame.payload.length frame.high := by
        have both := congrArg (List.take 20) headed.split
        rw [List.append_assoc, List.take_left' header,
          List.take_append_of_le_length (by omega)] at both
        exact both
      rw [start]
      have both := congrArg (fun bytes => (bytes.drop 20).take (part.length - 20)) front
      rw [List.drop_left' header, List.drop_take, List.take_take,
        Nat.min_eq_left (by omega), List.drop_append_of_le_length (by omega),
        List.take_left' (by rw [List.length_drop])] at both
      exact both
  · have long : headerSize ≤ part.length := Nat.not_lt.mp short
    rw [List.take_append_of_le_length long] at front
    refine Or.inr ⟨frame.payload.length, frame.high, part.drop headerSize,
      ⟨fits.1, fits.2, ?_⟩, by omega⟩
    rw [← front, List.take_append_drop]

end Writing

section Cuts

variable {α : Type} [Scalar α] {library : JsonLibrary α} {config : Config} {epoch : Text}
  {items : List (Item α)} {state : Snapshot α}

/-- The package after the first commits. -/
def cut (config : Config) (epoch : Text) (items : List (Item α)) (count : Nat) : Package :=
  packageOf config epoch (items.take count)

omit [Scalar α] in
theorem cut_high {count : Nat} (within : count ≤ items.length) :
    (cut config epoch items count).high = count := by
  rw [cut, packageOf_high, List.length_take, Nat.min_eq_left within]

omit [Scalar α] in
theorem cut_all : cut config epoch items items.length = packageOf config epoch items := by
  rw [cut, List.take_length]

omit [Scalar α] in
theorem cut_append {count : Nat} (within : count ≤ items.length) (more : List (Item α)) :
    cut config epoch (items ++ more) count = cut config epoch items count := by
  rw [cut, cut, List.take_append_of_le_length within]

omit [Scalar α] in
theorem prefixed_cut {earlier later : Nat} (order : earlier ≤ later)
    (within : later ≤ items.length) :
    prefixed (cut config epoch items earlier) (cut config epoch items later) = .ok () := by
  have sameEntries :
      (cut config epoch items later).entries.take earlier =
        (cut config epoch items earlier).entries := by
    simp only [cut, packageOf]
    rw [← List.map_take, List.take_take, Nat.min_eq_left order]
  unfold prefixed
  rw [cut_high (order.trans within), cut_high within, sameEntries]
  simp [cut, packageOf, check, order]
  rfl

/-- What was stored before the last commits was stored. -/
theorem Stored.front {front back : List (Item α)}
    (stored : Stored library config epoch (front ++ back) state) :
    ∃ earlier, Stored library config epoch front earlier := by
  induction back using List.reverseRecOn generalizing state with
  | nil => exact ⟨state, List.append_nil front ▸ stored⟩
  | append_singleton back item inductionHypothesis =>
      obtain ⟨fresh, created, recordings⟩ := stored.recordings
      rw [← List.append_assoc, List.map_append, List.map_singleton] at recordings
      obtain ⟨earlier, before, _, _⟩ := Replay.recordings_snoc.mp recordings
      have few := stored.few
      have lawful := stored.lawful
      rw [← List.append_assoc] at few lawful
      rw [List.length_append] at few
      exact inductionHypothesis
        { configured := stored.configured
          spelled := stored.spelled
          few := Nat.le_of_add_right_le few
          lawful := lawful.front
          recordings := ⟨fresh, created, before⟩ }

theorem Stored.cut (stored : Stored library config epoch items state) (count : Nat) :
    ∃ earlier, Stored library config epoch (items.take count) earlier :=
  @Stored.front _ _ _ _ _ _ _ (items.drop count) ((List.take_append_drop count items).symm ▸ stored)

/-- The package of stored items fits a frame and is read back. -/
theorem Stored.decodes (faithful : library.Faithful)
    (stored : Stored library config epoch items state) :
    (packageBytes (packageOf config epoch items)).length ≤ packageLimit ∧
      decode library (packageBytes (packageOf config epoch items)) =
        .ok (packageOf config epoch items, ⟨0, state⟩) := by
  have encoded := (stored.legible faithful).encode
  unfold encode at encoded
  simp only [bind_eq_ok, rejectIf_eq_ok, decide_eq_false_iff_not, Nat.not_lt,
    exists_const] at encoded
  exact ⟨encoded.1, (@decode_eq_ok _ _ _ faithful _ _ ⟨0, state⟩).mpr
    ⟨config, epoch, items, stored, rfl, rfl, rfl⟩⟩

theorem Stored.fitting (faithful : library.Faithful)
    (stored : Stored library config epoch items state) :
    (Frame.of (packageOf config epoch items)).Fits := by
  refine ⟨(stored.decodes faithful).1, ?_⟩
  change (packageOf config epoch items).high ≤ commitLimit
  rw [packageOf_high]
  exact stored.few

theorem Stored.cut_decodes (faithful : library.Faithful)
    (stored : Stored library config epoch items state) (count : Nat) :
    (Frame.of (Persistence.cut config epoch items count)).Fits ∧
      ∃ world, decode library (packageBytes (Persistence.cut config epoch items count)) =
        .ok (Persistence.cut config epoch items count, world) := by
  obtain ⟨earlier, before⟩ := stored.cut count
  exact ⟨before.fitting faithful, ⟨0, earlier⟩, (before.decodes faithful).2⟩

end Cuts

section Layouts

variable {α : Type} [Scalar α] {library : JsonLibrary α} {sha256 : Bytes → Vector UInt8 32}
  {config : Config} {epoch : Text} {items : List (Item α)} {state : Snapshot α}

/-- The frames of the journal, from the one of a commit on. -/
def framesFrom (config : Config) (epoch : Text) (items : List (Item α)) (first : Nat) :
    List Frame :=
  (List.range' first (items.length + 1 - first)).map fun count =>
    Frame.of (cut config epoch items count)

/-- The beginning of the frame of the next commit. -/
def Unfinished (sha256 : Bytes → Vector UInt8 32) (count : Nat) (torn : Bytes) : Prop :=
  torn = [] ∨ ∃ (frame : Frame) (rest : Bytes), frame.Fits ∧ frame.high = count + 1 ∧
    frame.spelled sha256 = torn ++ rest ∧ rest ≠ []

/-- The checkpoint holds the package of the first `kept` commits, and the journal those
from the `first` on. -/
structure Layout (sha256 : Bytes → Vector UInt8 32) (config : Config) (epoch : Text)
    (items : List (Item α)) (torn : Bytes) (kept first : Nat) (disk : Disk) : Prop where
  checkpoint : disk.checkpoint = (Frame.of (cut config epoch items kept)).spelled sha256
  journal :
    disk.journal =
      (framesFrom config epoch items first).flatMap (Frame.spelled sha256) ++ torn
  within : kept ≤ items.length
  positive : 1 ≤ first
  reaches : first ≤ kept + 1
  unfinished : Unfinished sha256 items.length torn
  quota : disk.sizes.sum ≤ config.byteQuota.toNat
  scratch : ∀ scratch ∈ disk.scratch, scratch.length ≤ packageLimit + frameOverhead

theorem Stored.framesFrom_fit (faithful : library.Faithful)
    (stored : Stored library config epoch items state) (first : Nat) :
    ∀ frame ∈ framesFrom config epoch items first, frame.Fits := by
  intro frame member
  obtain ⟨count, _, rfl⟩ := List.mem_map.mp member
  exact (stored.cut_decodes faithful count).1

/-- A frame of the next package is accepted, whether the checkpoint holds it or not. -/
theorem accept_cut {world : Nat → LiveWorld α}
    (decodes : ∀ count, decode library (packageBytes (cut config epoch items count)) =
      .ok (cut config epoch items count, world count))
    {kept first count : Nat} (within : kept ≤ items.length) (positive : 1 ≤ first)
    (reaches : first ≤ kept + 1) (inside : first + count ≤ items.length) (cursor : Nat) :
    ∃ after,
      accept library (cut config epoch items kept)
          ⟨(cut config epoch items (max kept (first + count - 1)),
              world (max kept (first + count - 1))),
            if count = 0 then none else some (cut config epoch items (first + count - 1)),
            cursor⟩
          (Frame.of (cut config epoch items (first + count))) =
        .ok ⟨(cut config epoch items (max kept (first + count)),
            world (max kept (first + count))),
          some (cut config epoch items (first + count)), after⟩ := by
  have high := @cut_high _ config epoch items (first + count) inside
  have keptHigh := @cut_high _ config epoch items kept within
  have lastHigh := @cut_high _ config epoch items (first + count - 1) (by omega)
  have restoredHigh :=
    @cut_high _ config epoch items (max kept (first + count - 1)) (by omega)
  refine ⟨cursor + ((Frame.of (cut config epoch items (first + count))).payload.length +
    frameOverhead), accept_eq_ok.mpr ⟨_, decodes (first + count), rfl, ?_, ?_, ?_⟩⟩
  · change 0 < (cut config epoch items (first + count)).high
    omega
  · refine consistent_eq_ok.mpr ⟨?_, ?_, ?_, ?_⟩
    · intro prior held
      by_cases start : count = 0
      · rw [if_pos start] at held
        cases held
      · rw [if_neg start] at held
        cases held
        refine ⟨?_, prefixed_cut (by omega) inside⟩
        rw [high, lastHigh]
        omega
    · intro empty
      by_cases start : count = 0
      · rw [high, keptHigh]
        omega
      · rw [if_neg start] at empty
        cases empty
    · intro old
      rw [high, keptHigh] at old
      exact prefixed_cut old within
    · intro newer
      rw [high, keptHigh] at newer
      have last : max kept (first + count - 1) = first + count - 1 := by omega
      dsimp only
      rw [last] at restoredHigh ⊢
      refine ⟨?_, prefixed_cut (by omega) inside⟩
      rw [high, restoredHigh]
      omega
  · by_cases newer : max kept (first + count - 1) < first + count
    · have reached : max kept (first + count) = first + count := by omega
      rw [restoredHigh, high, if_pos newer, reached]
    · have stays : max kept (first + count) = max kept (first + count - 1) := by omega
      rw [restoredHigh, high, if_neg newer, stays]

/-- The walk over the first frames of the journal finds the newest package so far. -/
theorem accepts_cuts {world : Nat → LiveWorld α}
    (decodes : ∀ count, decode library (packageBytes (cut config epoch items count)) =
      .ok (cut config epoch items count, world count))
    {kept first : Nat} (within : kept ≤ items.length) (positive : 1 ≤ first)
    (reaches : first ≤ kept + 1) :
    ∀ count, first + count ≤ items.length + 1 →
      ∃ cursor,
        ((List.range' first count).map fun count =>
            Frame.of (cut config epoch items count)).foldlM
          (accept library (cut config epoch items kept))
          ⟨(cut config epoch items kept, world kept), none, 0⟩ =
        .ok ⟨(cut config epoch items (max kept (first + count - 1)),
            world (max kept (first + count - 1))),
          if count = 0 then none else some (cut config epoch items (first + count - 1)),
          cursor⟩ := by
  intro count
  induction count with
  | zero =>
      intro _
      have start : max kept (first + 0 - 1) = kept := by omega
      refine ⟨0, ?_⟩
      rw [start]
      rfl
  | succ count inductionHypothesis =>
      intro inside
      obtain ⟨cursor, folded⟩ := inductionHypothesis (by omega)
      obtain ⟨after, accepted⟩ := @accept_cut _ _ _ config epoch items world decodes kept first
        count within positive reaches (by omega) cursor
      refine ⟨after, ?_⟩
      have same : first + (count + 1) - 1 = first + count := by omega
      rw [List.range'_concat, List.map_append, List.map_singleton, List.foldlM_append,
        Nat.one_mul, if_neg (Nat.succ_ne_zero count), same]
      refine bind_eq_ok.mpr ⟨_, folded, ?_⟩
      rw [List.foldlM_cons]
      exact bind_eq_ok.mpr ⟨_, accepted, rfl⟩

omit [Scalar α] in
/-- The frames of a journal and the unfinished one are no more than the commits of a store. -/
theorem journal_fits {first : Nat} (positive : 1 ≤ first) {torn : Bytes}
    (fitting : ∀ frame ∈ framesFrom config epoch items first, frame.Fits)
    (few : items.length ≤ commitLimit) (unfinished : Unfinished sha256 items.length torn) :
    ((framesFrom config epoch items first).flatMap (Frame.spelled sha256) ++ torn).length ≤
      journalLimit := by
  have bound : ((framesFrom config epoch items first).flatMap (Frame.spelled sha256)).length ≤
      items.length * (packageLimit + frameOverhead) := by
    have each := @Replay.flatMap_length_le _ (Frame.spelled sha256)
      (packageLimit + frameOverhead) (framesFrom config epoch items first) (by
        intro frame member
        rw [spelled_length]
        exact Nat.add_le_add_right (fitting frame member).1 frameOverhead)
    refine each.trans ?_
    rw [Nat.mul_comm]
    refine Nat.mul_le_mul_right _ ?_
    rw [framesFrom, List.length_map, List.length_range']
    omega
  have limit : journalLimit = 8 * (packageLimit + frameOverhead) := rfl
  have atMost : items.length ≤ 8 := few
  rw [List.length_append]
  rcases unfinished with rfl | ⟨frame, rest, fits, next, split, _⟩
  · rw [limit, List.length_nil, Nat.add_zero]
    exact bound.trans (Nat.mul_le_mul_right _ atMost)
  · have less : torn.length ≤ packageLimit + frameOverhead := by
      have whole := @spelled_length sha256 frame
      rw [split, List.length_append] at whole
      have small := fits.1
      omega
    have room : items.length + 1 ≤ 8 := next ▸ fits.2
    have product := Nat.mul_le_mul_right (packageLimit + frameOverhead) room
    rw [Nat.succ_mul] at product
    rw [limit]
    omega

omit [Scalar α] in
theorem Unfinished.incomplete {count : Nat} {torn : Bytes}
    (unfinished : Unfinished sha256 count torn) : Incomplete sha256 torn := by
  rcases unfinished with rfl | ⟨frame, rest, fits, _, split, missing⟩
  · exact readFrame_eq_none.mp readFrame_spells.ended
  · exact incomplete_of_part fits split missing

theorem selectCheckpoint_spelled {package : Package} {world : LiveWorld α}
    (fits : (Frame.of package).Fits)
    (decoded : decode library (packageBytes package) = .ok (package, world)) :
    selectCheckpoint library sha256 ((Frame.of package).spelled sha256) =
      .ok (package, world) := by
  have length := @spelled_length sha256 (Frame.of package)
  have small := fits.1
  unfold selectCheckpoint readLimited
  simp only [bind_eq_ok, rejectIf_eq_ok, pure_eq_ok, decide_eq_false_iff_not, Nat.not_lt,
    exists_const]
  refine ⟨_, ⟨by omega, rfl⟩, some (Frame.of package, _), readFrame_eq_some.mpr
    ⟨fits, rfl, [], (List.append_nil _).symm⟩, ?_⟩
  refine unit_bind_eq_ok.mpr ⟨check_eq_ok.mpr (beq_self_eq_true _), ?_⟩
  refine bind_eq_ok.mpr ⟨_, decoded, ?_⟩
  exact unit_bind_eq_ok.mpr ⟨check_eq_ok.mpr (beq_self_eq_true _), rfl⟩

/-- Opening what a store has left finds the package and the world of all its commits. -/
theorem Layout.validated (faithful : library.Faithful)
    (stored : Stored library config epoch items state) {torn : Bytes} {kept first : Nat}
    {disk : Disk} (layout : Layout sha256 config epoch items torn kept first disk) :
    ∃ selected final,
      Validated library sha256 disk (framesFrom config epoch items first) torn selected final ∧
        final.restored = (packageOf config epoch items, ⟨0, state⟩) := by
  choose world decodes using fun count => (stored.cut_decodes faithful count).2
  have last : world items.length = ⟨0, state⟩ := by
    have whole := (stored.decodes faithful).2
    rw [← cut_all, decodes items.length] at whole
    exact (Prod.mk.inj (Except.ok.inj whole)).2
  obtain ⟨cursor, folded⟩ := @accepts_cuts _ _ _ config epoch items world decodes kept first
    layout.within layout.positive layout.reaches (items.length + 1 - first) (by
      have reaches := layout.reaches
      have within := layout.within
      omega)
  have fitting := stored.framesFrom_fit faithful first
  have newest : max kept (first + (items.length + 1 - first) - 1) = items.length := by
    have reaches := layout.reaches
    have within := layout.within
    omega
  rw [newest, cut_all, last] at folded
  have quota := layout.quota
  have most := (validConfig_iff.mp stored.configured).2.2.2.2
  refine ⟨(cut config epoch items kept, world kept), _,
    { selects := ?_
      small := ?_
      fits := fitting
      split := layout.journal
      accepted := folded
      torn := layout.unfinished.incomplete
      quota := ⟨quota.trans most, quota⟩
      scratch := layout.scratch }, rfl⟩
  · rw [layout.checkpoint]
    exact selectCheckpoint_spelled (stored.cut_decodes faithful kept).1 (decodes kept)
  · rw [layout.journal]
    exact journal_fits layout.positive fitting stored.few layout.unfinished

/-- What an opening leaves behind, wherever a failure stops it. -/
theorem Layout.open (faithful : library.Faithful)
    (stored : Stored library config epoch items state) {torn : Bytes} {kept first : Nat}
    {disk : Disk} (layout : Layout sha256 config epoch items torn kept first disk)
    (stop : Option OpenStop) :
    ∃ rest, Layout sha256 config epoch items rest kept first
        (Store.open library sha256 disk stop).disk ∧
      (Store.open library sha256 disk stop).disk.checkpoint = disk.checkpoint ∧
      (stop = none →
        rest = [] ∧ Store.open library sha256 disk stop =
          ⟨.ok ⟨packageOf config epoch items, ⟨0, state⟩, false⟩,
            ⟨disk.checkpoint,
              (framesFrom config epoch items first).flatMap (Frame.spelled sha256), none⟩⟩) ∧
      (stop ≠ none → (Store.open library sha256 disk stop).result =
        .error (ascii "IO_ERROR")) := by
  obtain ⟨selected, final, validated, same⟩ := layout.validated faithful stored
  have valid := validate_eq_ok.mpr ⟨_, _, _, _, validated, rfl, rfl⟩
  rw [same] at valid
  have front : disk.journal.take
      ((framesFrom config epoch items first).flatMap (Frame.spelled sha256)).length =
        (framesFrom config epoch items first).flatMap (Frame.spelled sha256) := by
    rw [layout.journal, List.take_left' rfl]
  have shorter : ((framesFrom config epoch items first).flatMap
      (Frame.spelled sha256)).length ≤ disk.journal.length := by
    rw [layout.journal, List.length_append]
    omega
  have quota := layout.quota
  simp only [Disk.sizes, List.sum_cons] at quota
  have truncated : Layout sha256 config epoch items [] kept first
      { disk with
        journal := (framesFrom config epoch items first).flatMap (Frame.spelled sha256) } :=
    { layout with
      journal := (List.append_nil _).symm
      unfinished := Or.inl rfl
      quota := by
        simp only [Disk.sizes, List.sum_cons]
        omega }
  have repaired : Layout sha256 config epoch items [] kept first
      { disk with
        journal := (framesFrom config epoch items first).flatMap (Frame.spelled sha256)
        scratch := none } :=
    { truncated with
      quota := by
        simp only [Disk.sizes, List.sum_cons, Option.map_none, Option.toList_none, List.sum_nil]
        omega
      scratch := fun _ present => absurd present (Option.some_ne_none _).symm }
  unfold Store.open
  rw [valid]
  dsimp only
  rw [front]
  cases stop with
  | none => exact ⟨[], repaired, rfl, fun _ => ⟨rfl, rfl⟩, fun absent => absurd rfl absent⟩
  | some place =>
      have stopped : some place ≠ none := Option.some_ne_none place
      cases place with
      | reading => exact ⟨torn, layout, rfl, fun absent => absurd absent stopped, fun _ => rfl⟩
      | truncated => exact ⟨[], truncated, rfl, fun absent => absurd absent stopped, fun _ => rfl⟩
      | removed => exact ⟨[], repaired, rfl, fun absent => absurd absent stopped, fun _ => rfl⟩

end Layouts

end Omniweft.Persistence
