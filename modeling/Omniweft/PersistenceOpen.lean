import Omniweft.Library.Frames
import Omniweft.Persistence

/-!
# Opening a store

What the frame reader finds is a frame that was spelled, and what it takes for incomplete
is the beginning of one. The walk over a journal is the walk over such frames, so opening
cuts off one incomplete frame and no more, and opening again finds the same.
-/

namespace Omniweft.Persistence

open Omniweft.Outcome World Commands Transactions

section Frames

variable {sha256 : Bytes → Vector UInt8 32}

/-- A frame within the limits of its header. -/
def Frame.Fits (frame : Frame) : Prop :=
  frame.payload.length ≤ packageLimit ∧ frame.high ≤ commitLimit

def Frame.spelled (sha256 : Bytes → Vector UInt8 32) (frame : Frame) : Bytes :=
  frameBytes sha256 frame.payload frame.high

theorem frameHeader_length (size high : Nat) : (frameHeader size high).length = 20 := by
  simp only [frameHeader, List.length_append, littleEndian_length]
  rfl

/-- The bytes that the last digest of a frame is about. -/
def opened (sha256 : Bytes → Vector UInt8 32) (payload : Bytes) (high : Nat) : Bytes :=
  frameHeader payload.length high ++ (sha256 (frameHeader payload.length high)).toList ++
    payload

theorem opened_length (payload : Bytes) (high : Nat) :
    (opened sha256 payload high).length = headerSize + payload.length := by
  simp only [opened, List.length_append, frameHeader_length, Vector.length_toList]
  rfl

theorem frameBytes_eq (payload : Bytes) (high : Nat) :
    frameBytes sha256 payload high =
      opened sha256 payload high ++ (sha256 (opened sha256 payload high)).toList ++ endMagic :=
  rfl

theorem frameBytes_length (payload : Bytes) (high : Nat) :
    (frameBytes sha256 payload high).length = payload.length + frameOverhead := by
  rw [frameBytes_eq]
  simp only [List.length_append, opened_length, Vector.length_toList]
  change headerSize + payload.length + 32 + 8 = _
  simp only [headerSize, frameOverhead]
  omega

/-- What the reader checks of the first bytes of a whole header. -/
theorem header_eq {bytes : Bytes} (long : headerSize ≤ bytes.length)
    (magic : bytes.take 8 = frameMagic) :
    bytes.take 20 =
      frameHeader (fromLittleEndian ((bytes.drop 8).take 4))
        (fromLittleEndian ((bytes.drop 12).take 8)) := by
  have enough : 52 ≤ bytes.length := long
  have size : ((bytes.drop 8).take 4).length = 4 := by
    rw [List.length_take, List.length_drop]
    omega
  have high : ((bytes.drop 12).take 8).length = 8 := by
    rw [List.length_take, List.length_drop]
    omega
  have sizeBytes := littleEndian_fromLittleEndian ((bytes.drop 8).take 4)
  have highBytes := littleEndian_fromLittleEndian ((bytes.drop 12).take 8)
  rw [size] at sizeBytes
  rw [high] at highBytes
  rw [frameHeader, sizeBytes, highBytes, ← magic, List.append_assoc]
  have tail : (bytes.drop 8).take 12 =
      (bytes.drop 8).take 4 ++ (bytes.drop 12).take 8 := by
    rw [show 12 = 4 + 8 from rfl, List.take_add, List.drop_drop]
  rw [← tail, show 20 = 8 + 12 from rfl, List.take_add]

theorem header_reads {size high : Nat} (small : size ≤ packageLimit) (few : high ≤ commitLimit)
    (rest : Bytes) :
    (frameHeader size high ++ rest).take 8 = frameMagic ∧
      fromLittleEndian (((frameHeader size high ++ rest).drop 8).take 4) = size ∧
      fromLittleEndian (((frameHeader size high ++ rest).drop 12).take 8) = high := by
  have magicLength : frameMagic.length = 8 := rfl
  have fits : size < 256 ^ 4 := Nat.lt_of_le_of_lt small (by decide)
  have allowed : high < 256 ^ 8 := Nat.lt_of_le_of_lt few (by decide)
  have split : frameHeader size high ++ rest =
      frameMagic ++ (littleEndian size 4 ++ (littleEndian high 8 ++ rest)) := by
    simp only [frameHeader, List.append_assoc]
  have after : (frameHeader size high ++ rest).drop 8 =
      littleEndian size 4 ++ (littleEndian high 8 ++ rest) := by
    rw [split, List.drop_left' magicLength]
  refine ⟨by rw [split, List.take_left' magicLength], ?_, ?_⟩
  · rw [after, List.take_left' (littleEndian_length size 4),
      fromLittleEndian_littleEndian fits]
  · rw [show 12 = 8 + 4 from rfl, ← List.drop_drop, after,
      List.drop_left' (littleEndian_length size 4),
      List.take_left' (littleEndian_length high 8), fromLittleEndian_littleEndian allowed]

/-- Bytes that begin with a header the reader takes. -/
structure Headed (sha256 : Bytes → Vector UInt8 32) (bytes : Bytes) (size high : Nat)
    (rest : Bytes) : Prop where
  small : size ≤ packageLimit
  few : high ≤ commitLimit
  split : bytes = frameHeader size high ++ (sha256 (frameHeader size high)).toList ++ rest

/-- The rest of the reader, after the header. -/
def readBody (sha256 : Bytes → Vector UInt8 32) (bytes : Bytes) (size high : Nat) :
    Except Text (Option (Frame × Nat)) :=
  if bytes.length < size + frameOverhead then return none
  else do
    let payload := (bytes.drop headerSize).take size
    check ((bytes.drop (headerSize + size)).take 32 ==
      (sha256 (bytes.take (headerSize + size))).toList)
    check ((bytes.drop (headerSize + size + 32)).take 8 == endMagic)
    return some (⟨payload, high⟩, size + frameOverhead)

theorem readFrame_headed {bytes rest : Bytes} {size high : Nat}
    (headed : Headed sha256 bytes size high rest) :
    readFrame sha256 bytes = readBody sha256 bytes size high := by
  obtain ⟨small, few, rfl⟩ := headed
  have length := frameHeader_length size high
  have digest := (sha256 (frameHeader size high)).length_toList
  have long : ¬ (frameHeader size high ++ (sha256 (frameHeader size high)).toList ++
      rest).length < headerSize := by
    simp only [List.length_append, length, digest, headerSize]
    omega
  unfold readFrame
  rw [if_neg long]
  rw [List.append_assoc]
  obtain ⟨magic, sizeRead, highRead⟩ := @header_reads size high small few
    ((sha256 (frameHeader size high)).toList ++ rest)
  rw [magic, sizeRead, highRead, List.take_left' length, List.drop_left' length,
    List.take_left' digest]
  simp only [check, beq_self_eq_true, Bool.not_true, rejectIf_false, small, few, decide_true]
  rfl

/-- Every header that the reader takes is one. -/
theorem headed_of_checks {bytes : Bytes} (long : headerSize ≤ bytes.length)
    (digest : (bytes.drop 20).take 32 = (sha256 (bytes.take 20)).toList)
    (magic : bytes.take 8 = frameMagic)
    (small : fromLittleEndian ((bytes.drop 8).take 4) ≤ packageLimit)
    (few : fromLittleEndian ((bytes.drop 12).take 8) ≤ commitLimit) :
    ∃ size high, Headed sha256 bytes size high (bytes.drop headerSize) := by
  have header := header_eq long magic
  refine ⟨_, _, small, few, ?_⟩
  rw [← header, ← digest]
  have whole := (List.take_append_drop headerSize bytes).symm
  rw [show bytes.take headerSize = bytes.take 20 ++ (bytes.drop 20).take 32 by
    rw [show headerSize = 20 + 32 from rfl, List.take_add]] at whole
  exact whole

/-- What the reader makes of bytes that are long enough for a header. -/
theorem readFrame_long {bytes : Bytes} (long : headerSize ≤ bytes.length)
    {outcome : Option (Frame × Nat)} (found : readFrame sha256 bytes = .ok outcome) :
    ∃ size high, Headed sha256 bytes size high (bytes.drop headerSize) ∧
      readBody sha256 bytes size high = .ok outcome := by
  have again := found
  unfold readFrame at again
  rw [if_neg (Nat.not_lt.mpr long)] at again
  simp only [bind_eq_ok, check, rejectIf_eq_ok, Bool.not_eq_false', beq_iff_eq,
    decide_eq_true_eq, exists_const] at again
  obtain ⟨digest, magic, small, few, rest⟩ := again
  obtain ⟨size, high, headed⟩ := headed_of_checks long digest magic small few
  exact ⟨size, high, headed, readFrame_headed headed ▸ found⟩

theorem Headed.take_header {bytes rest : Bytes} {size high : Nat}
    (headed : Headed sha256 bytes size high rest) :
    bytes.take headerSize =
        frameHeader size high ++ (sha256 (frameHeader size high)).toList ∧
      bytes.drop headerSize = rest := by
  have length : (frameHeader size high ++ (sha256 (frameHeader size high)).toList).length =
      headerSize := by
    rw [List.length_append, frameHeader_length, Vector.length_toList]
    rfl
  constructor
  · rw [headed.split, List.take_left' length]
  · rw [headed.split, List.drop_left' length]

theorem Headed.take_opened {bytes rest : Bytes} {size high : Nat}
    (headed : Headed sha256 bytes size high rest) (enough : size ≤ rest.length) :
    bytes.take (headerSize + size) = opened sha256 (rest.take size) high := by
  obtain ⟨front, after⟩ := headed.take_header
  rw [List.take_add, front, after, opened, List.length_take, Nat.min_eq_left enough]

theorem spelled_headed {frame : Frame} (fits : frame.Fits) (rest : Bytes) :
    Headed sha256 (frame.spelled sha256 ++ rest) frame.payload.length frame.high
      (frame.payload ++ ((sha256 (opened sha256 frame.payload frame.high)).toList ++
        (endMagic ++ rest))) := by
  refine ⟨fits.1, fits.2, ?_⟩
  simp only [Frame.spelled, frameBytes_eq, opened, List.append_assoc]

theorem spelled_length (frame : Frame) :
    (frame.spelled sha256).length = frame.payload.length + frameOverhead :=
  frameBytes_length frame.payload frame.high

/-- The reader finds exactly the frames that are spelled in full. -/
theorem readFrame_eq_some {bytes : Bytes} {frame : Frame} {taken : Nat} :
    readFrame sha256 bytes = .ok (some (frame, taken)) ↔
      frame.Fits ∧ taken = (frame.spelled sha256).length ∧
        ∃ rest, bytes = frame.spelled sha256 ++ rest := by
  constructor
  · intro found
    have long : headerSize ≤ bytes.length := by
      by_contra short
      unfold readFrame at found
      rw [if_pos (Nat.not_le.mp short)] at found
      obtain ⟨_, _, ended⟩ := bind_eq_ok.mp found
      cases ended
    obtain ⟨size, high, headed, body⟩ := readFrame_long long found
    unfold readBody at body
    split at body
    · cases body
    · rename_i whole
      simp only [bind_eq_ok, check, rejectIf_eq_ok, Bool.not_eq_false', beq_iff_eq,
        exists_const, pure_eq_ok, Option.some.injEq, Prod.mk.injEq] at body
      obtain ⟨digest, magic, rfl, rfl⟩ := body
      have enough : size ≤ (bytes.drop headerSize).length := by
        rw [List.length_drop]
        simp only [frameOverhead, headerSize] at whole ⊢
        omega
      have held : ((bytes.drop headerSize).take size).length = size := by
        rw [List.length_take, Nat.min_eq_left enough]
      have start := headed.take_opened enough
      rw [start] at digest
      refine ⟨⟨?_, headed.few⟩, ?_, bytes.drop (headerSize + size + 32 + 8), ?_⟩
      · rw [held]
        exact headed.small
      · rw [spelled_length, held]
      · have front : bytes.take (headerSize + size + 32 + 8) =
            frameBytes sha256 ((bytes.drop headerSize).take size) high := by
          rw [List.take_add, List.take_add, start, digest, magic, frameBytes_eq]
        rw [Frame.spelled, ← front, List.take_append_drop]
  · intro spelled
    obtain ⟨fits, rfl, rest, rfl⟩ := spelled
    rw [readFrame_headed (spelled_headed fits rest)]
    obtain ⟨_, after⟩ := (@spelled_headed sha256 frame fits rest).take_header
    have start := (@spelled_headed sha256 frame fits rest).take_opened (by simp)
    rw [List.take_left' rfl] at start
    have long : ¬ (frame.spelled sha256 ++ rest).length <
        frame.payload.length + frameOverhead := by
      rw [List.length_append, spelled_length]
      omega
    have behind : (frame.spelled sha256 ++ rest).drop (headerSize + frame.payload.length) =
        (sha256 (opened sha256 frame.payload frame.high)).toList ++ (endMagic ++ rest) := by
      rw [← List.drop_drop, after, List.drop_left' rfl]
    have digestLength :=
      (sha256 (opened sha256 frame.payload frame.high)).length_toList
    have last : (frame.spelled sha256 ++ rest).drop
        (headerSize + frame.payload.length + 32) = endMagic ++ rest := by
      rw [← List.drop_drop, behind, List.drop_left' digestLength]
    have magicLength : endMagic.length = 8 := rfl
    unfold readBody
    rw [if_neg long, start, behind, List.take_left' digestLength, last,
      List.take_left' magicLength, after, List.take_left' rfl]
    simp only [check, beq_self_eq_true, Bool.not_true, rejectIf_false, spelled_length]
    rfl

/-- The beginning of a frame: not even a whole header, or a header and less than it
declares. -/
def Incomplete (sha256 : Bytes → Vector UInt8 32) (bytes : Bytes) : Prop :=
  (bytes.length < headerSize ∧ bytes.take 8 = frameMagic.take bytes.length ∧
      (20 < bytes.length →
        bytes.drop 20 = (sha256 (bytes.take 20)).toList.take (bytes.length - 20))) ∨
    ∃ size high rest, Headed sha256 bytes size high rest ∧
      bytes.length < size + frameOverhead

/-- What the reader takes for the end of a journal is incomplete. -/
theorem readFrame_eq_none {bytes : Bytes} :
    readFrame sha256 bytes = .ok none ↔ Incomplete sha256 bytes := by
  constructor
  · intro found
    by_cases short : bytes.length < headerSize
    · refine Or.inl ⟨short, ?_⟩
      unfold readFrame tornHeader at found
      rw [if_pos short] at found
      by_cases digested : 20 < bytes.length
      · simp only [if_pos digested, bind_eq_ok, check, rejectIf_eq_ok, Bool.not_eq_false',
          beq_iff_eq, exists_const] at found
        exact ⟨found.1.1, fun _ => found.1.2⟩
      · simp only [if_neg digested, bind_eq_ok, check, rejectIf_eq_ok, Bool.not_eq_false',
          beq_iff_eq, exists_const] at found
        obtain ⟨_, ⟨magic, _⟩, _⟩ := found
        exact ⟨magic, fun long => absurd long digested⟩
    · obtain ⟨size, high, headed, body⟩ := readFrame_long (Nat.not_lt.mp short) found
      refine Or.inr ⟨size, high, _, headed, ?_⟩
      by_contra whole
      unfold readBody at body
      rw [if_neg whole] at body
      simp only [bind_eq_ok] at body
      obtain ⟨_, _, _, _, ended⟩ := body
      cases ended
  · intro torn
    rcases torn with ⟨short, magic, digest⟩ | ⟨size, high, rest, headed, less⟩
    · unfold readFrame tornHeader
      rw [if_pos short, magic]
      by_cases digested : 20 < bytes.length
      · rw [if_pos digested, digest digested]
        simp only [check, beq_self_eq_true, Bool.not_true, rejectIf_false]
        rfl
      · rw [if_neg digested]
        simp only [check, beq_self_eq_true, Bool.not_true, rejectIf_false]
        rfl
    · rw [readFrame_headed headed, readBody, if_pos less]
      rfl

theorem readFrame_spells :
    Frames.Spells (readFrame sha256) Frame.Fits (Frame.spelled sha256) where
  found _ _ _ := readFrame_eq_some
  visible frame _ := by
    intro empty
    have length := @spelled_length sha256 frame
    rw [empty] at length
    simp [frameOverhead] at length
  ended := rfl

end Frames

theorem addSize_eq_ok {total size next : Nat} :
    addSize total size = .ok next ↔ next = total + size ∧ next ≤ maximumQuota := by
  unfold addSize
  simp only [bind_eq_ok, rejectIf_eq_ok, Bool.or_eq_false_iff, decide_eq_false_iff_not,
    exists_const, pure_eq_ok]
  omega

/-- The files count as long as they fit the largest quota. -/
theorem bytesUsed_eq_ok {sizes : List Nat} {used : Nat} :
    bytesUsed sizes = .ok used ↔ used = sizes.sum ∧ used ≤ maximumQuota := by
  have from_ (start : Nat) (allowed : start ≤ maximumQuota) :
      sizes.foldlM addSize start = .ok used ↔
        used = start + sizes.sum ∧ used ≤ maximumQuota := by
    induction sizes generalizing start with
    | nil =>
        rw [List.foldlM_nil, pure_eq_ok, List.sum_nil]
        omega
    | cons size rest inductionHypothesis =>
        rw [List.foldlM_cons, bind_eq_ok, List.sum_cons]
        simp only [addSize_eq_ok]
        constructor
        · intro run
          obtain ⟨next, ⟨same, less⟩, continued⟩ := run
          have later := (inductionHypothesis next less).mp continued
          omega
        · intro both
          obtain ⟨same, less⟩ := both
          have here : start + size ≤ maximumQuota := by omega
          exact ⟨start + size, ⟨rfl, here⟩,
            (inductionHypothesis (start + size) here).mpr (by omega)⟩
  have whole := from_ 0 (Nat.zero_le _)
  rw [Nat.zero_add] at whole
  exact whole

section Walking

variable {α : Type} [Scalar α] {library : JsonLibrary α} {sha256 : Bytes → Vector UInt8 32}

/-- What the walk makes of a frame that it has found. -/
def accept (library : JsonLibrary α) (selected : Package) (walk : Walk α) (found : Frame) :
    Except Text (Walk α) := do
  let candidate ← decode library found.payload
  check (found.high == candidate.1.high && decide (0 < found.high))
  consistent selected walk candidate.1
  return {
    restored := if walk.restored.1.high < candidate.1.high then candidate else walk.restored
    prior := some candidate.1
    cursor := walk.cursor + (found.payload.length + frameOverhead) }

omit [Scalar α] in
theorem consistent_eq_ok {selected candidate : Package} {walk : Walk α} {done : Unit} :
    consistent selected walk candidate = .ok done ↔
      (∀ prior, walk.prior = some prior →
          candidate.high = prior.high + 1 ∧ prefixed prior candidate = .ok ()) ∧
        (walk.prior = none → candidate.high ≤ selected.high + 1) ∧
        (candidate.high ≤ selected.high → prefixed candidate selected = .ok ()) ∧
        (selected.high < candidate.high →
          candidate.high = walk.restored.1.high + 1 ∧
            prefixed walk.restored.1 candidate = .ok ()) := by
  unfold consistent
  by_cases old : candidate.high ≤ selected.high
  · cases walk.prior with
    | none => simp [bind_eq_ok, check, old]
    | some prior => simp [unit_bind_eq_ok, check, old, and_assoc]
  · have newer := Nat.not_le.mp old
    cases walk.prior with
    | none => simp [bind_eq_ok, check, old, newer]
    | some prior => simp [unit_bind_eq_ok, check, old, newer, and_assoc]

theorem accept_eq_ok {selected : Package} {walk next : Walk α} {found : Frame} :
    accept library selected walk found = .ok next ↔
      ∃ candidate, decode library found.payload = .ok candidate ∧
        found.high = candidate.1.high ∧ 0 < found.high ∧
        consistent selected walk candidate.1 = .ok () ∧
        next =
          { restored := if walk.restored.1.high < candidate.1.high then candidate
              else walk.restored
            prior := some candidate.1
            cursor := walk.cursor + (found.payload.length + frameOverhead) } := by
  unfold accept
  rw [bind_eq_ok]
  simp only [unit_bind_eq_ok, pure_eq_ok, check, rejectIf_eq_ok, Bool.not_eq_false',
    Bool.and_eq_true, beq_iff_eq, decide_eq_true_eq, and_assoc, @eq_comm _ _ next]

theorem walkStep_eq (selected : Package) (journal : Bytes) (walk : Walk α) :
    walkStep library sha256 selected journal walk =
      match readFrame sha256 (journal.drop walk.cursor) with
      | .error code => .error code
      | .ok none => .ok none
      | .ok (some (found, _)) => some <$> accept library selected walk found := by
  unfold walkStep
  cases read : readFrame sha256 (journal.drop walk.cursor) with
  | error code => rfl
  | ok first =>
      cases first with
      | none => rfl
      | some pair =>
          obtain ⟨found, size⟩ := pair
          obtain ⟨_, rfl, _⟩ := readFrame_eq_some.mp read
          rw [spelled_length]
          simp only [accept, map_bind, map_pure]
          rfl

/-- The walk over the journal is the walk over its frames. -/
theorem walkJournal_eq (selected : Package) (journal : Bytes) (fuel : Nat) (walk : Walk α) :
    walkJournal library sha256 selected journal fuel walk =
      (Frames.walk (readFrame sha256) (accept library selected) fuel walk
        (journal.drop walk.cursor)).map (Except.map Prod.fst) := by
  induction fuel generalizing walk with
  | zero => rfl
  | succ fuel inductionHypothesis =>
      rw [walkJournal, Frames.walk]
      by_cases inside : walk.cursor < journal.length
      · rw [if_pos inside, walkStep_eq]
        cases read : readFrame sha256 (journal.drop walk.cursor) with
        | error code => rfl
        | ok first =>
            cases first with
            | none => rfl
            | some pair =>
                obtain ⟨found, size⟩ := pair
                obtain ⟨_, sized, _⟩ := readFrame_eq_some.mp read
                dsimp only
                cases accepted : accept library selected walk found with
                | error code => rfl
                | ok next =>
                    have moved : next.cursor = walk.cursor + size := by
                      unfold accept at accepted
                      simp only [bind_eq_ok, pure_eq_ok] at accepted
                      obtain ⟨_, _, _, _, _, _, rfl⟩ := accepted
                      rw [sized, spelled_length]
                    change walkJournal library sha256 selected journal fuel next = _
                    rw [inductionHypothesis next, moved, List.drop_drop]
      · rw [if_neg inside, List.drop_eq_nil_of_le (Nat.not_lt.mp inside),
          readFrame_spells.ended]
        rfl

theorem accept_cursor {selected : Package} {walk next : Walk α} {found : Frame}
    (accepted : accept library selected walk found = .ok next) :
    next.cursor = walk.cursor + (found.spelled sha256).length := by
  unfold accept at accepted
  simp only [bind_eq_ok, pure_eq_ok] at accepted
  obtain ⟨_, _, _, _, _, _, rfl⟩ := accepted
  rw [spelled_length]

/-- The cursor stands behind the frames that were accepted. -/
theorem accepted_cursor {selected : Package} {frames : List Frame} :
    ∀ {walk final : Walk α}, frames.foldlM (accept library selected) walk = .ok final →
      final.cursor = walk.cursor + (frames.flatMap (Frame.spelled sha256)).length := by
  induction frames with
  | nil =>
      intro walk final folded
      rw [List.foldlM_nil, pure_eq_ok] at folded
      rw [← folded]
      rfl
  | cons frame rest inductionHypothesis =>
      intro walk final folded
      rw [List.foldlM_cons, bind_eq_ok] at folded
      obtain ⟨next, accepted, continued⟩ := folded
      rw [inductionHypothesis continued, @accept_cursor _ _ _ sha256 _ _ _ _ accepted,
        List.flatMap_cons, List.length_append, Nat.add_assoc]

end Walking

section Opening

variable {α : Type} [Scalar α] (library : JsonLibrary α) (sha256 : Bytes → Vector UInt8 32)

/-- The journal is frames that continue the checkpoint, and an incomplete one. -/
structure Validated (disk : Disk) (frames : List Frame) (torn : Bytes)
    (selected : Package × LiveWorld α) (final : Walk α) : Prop where
  selects : selectCheckpoint library sha256 disk.checkpoint = .ok selected
  small : disk.journal.length ≤ journalLimit
  fits : ∀ frame ∈ frames, frame.Fits
  split : disk.journal = frames.flatMap (Frame.spelled sha256) ++ torn
  accepted : frames.foldlM (accept library selected.1) ⟨selected, none, 0⟩ = .ok final
  torn : Incomplete sha256 torn
  quota : disk.sizes.sum ≤ maximumQuota ∧
    disk.sizes.sum ≤ final.restored.1.config.byteQuota.toNat
  scratch : ∀ scratch ∈ disk.scratch, scratch.length ≤ packageLimit + frameOverhead

variable {library sha256}

theorem walked_iff {journal : Bytes} {selected : Package × LiveWorld α} {final : Walk α} :
    walkJournal library sha256 selected.1 journal (journal.length + 1) ⟨selected, none, 0⟩ =
        some (.ok final) ↔
      ∃ (frames : List Frame) (torn : Bytes), (∀ frame ∈ frames, frame.Fits) ∧
        journal = frames.flatMap (Frame.spelled sha256) ++ torn ∧
        frames.foldlM (accept library selected.1) ⟨selected, none, 0⟩ = .ok final ∧
        Incomplete sha256 torn := by
  have splits (torn : Bytes) :=
    @Frames.Spells.walk_eq_ok _ _ _ _ _ _ _ (accept library selected.1)
      (@readFrame_spells sha256) (journal.length + 1) ⟨selected, none, 0⟩ final
      journal torn (Nat.lt_succ_self _)
  rw [walkJournal_eq, List.drop_zero]
  constructor
  · intro walked
    obtain ⟨outcome, found, same⟩ := Option.map_eq_some_iff.mp walked
    cases outcome with
    | error code => cases same
    | ok pair =>
        obtain ⟨reached, torn⟩ := pair
        cases same
        obtain ⟨frames, fits, split, folded, ended⟩ := (splits torn).mp found
        exact ⟨frames, torn, fits, split, folded, readFrame_eq_none.mp ended⟩
  · intro split
    obtain ⟨frames, torn, fits, same, folded, ended⟩ := split
    rw [(splits torn).mpr ⟨frames, fits, same, folded, readFrame_eq_none.mpr ended⟩]
    rfl

/-- What the validation of `open` lets through. -/
theorem validate_eq_ok {disk : Disk} {store : Store α} {kept : Nat} :
    validate library sha256 disk = .ok (store, kept) ↔
      ∃ frames torn selected final, Validated library sha256 disk frames torn selected final ∧
        store = ⟨final.restored.1, final.restored.2, false⟩ ∧
        kept = (frames.flatMap (Frame.spelled sha256)).length := by
  unfold validate readLimited
  simp only [bind_eq_ok, rejectIf_eq_ok, pure_eq_ok, decide_eq_false_iff_not, Nat.not_lt,
    exists_const]
  constructor
  · intro valid
    obtain ⟨selected, selects, journal, ⟨small, rfl⟩, rest⟩ := valid
    split at rest
    · obtain ⟨_, stopped, _⟩ := bind_eq_ok.mp rest
      cases stopped
    · rename_i outcome found
      simp only [bind_eq_ok, check, rejectIf_eq_ok, pure_eq_ok, bytesUsed_eq_ok,
        decide_eq_false_iff_not, Nat.not_lt, exists_const, Bool.not_eq_false',
        Prod.mk.injEq] at rest
      obtain ⟨final, rfl, used, ⟨rfl, most⟩, quota, scratch, rfl, rfl⟩ := rest
      obtain ⟨frames, torn, fits, split, folded, incomplete⟩ := walked_iff.mp found
      refine ⟨frames, torn, selected, final,
        ⟨selects, small, fits, split, folded, incomplete, ⟨most, quota⟩, ?_⟩, rfl, ?_⟩
      · intro held present
        rw [Option.mem_def] at present
        rw [present] at scratch
        simpa using scratch
      · rw [@accepted_cursor _ _ _ sha256 _ _ _ _ folded]
        exact Nat.zero_add _
  · intro valid
    obtain ⟨frames, torn, selected, final, validated, rfl, rfl⟩ := valid
    have walked := walked_iff.mpr ⟨frames, torn, validated.fits, validated.split,
      validated.accepted, validated.torn⟩
    refine ⟨selected, validated.selects, disk.journal, ⟨validated.small, rfl⟩, ?_⟩
    rw [walked]
    simp only [bind_eq_ok, check, rejectIf_eq_ok, pure_eq_ok, bytesUsed_eq_ok,
      decide_eq_false_iff_not, Nat.not_lt, exists_const, Bool.not_eq_false', Prod.mk.injEq]
    refine ⟨final, rfl, disk.sizes.sum, ⟨rfl, validated.quota.1⟩, validated.quota.2, ?_, rfl, ?_⟩
    · cases held : disk.scratch with
      | none => rfl
      | some scratch => simpa using validated.scratch scratch held
    · rw [@accepted_cursor _ _ _ sha256 _ _ _ _ validated.accepted]
      exact Nat.zero_add _

/-- The files without the incomplete frame, and perhaps without the temporary file. -/
theorem Validated.repaired {disk : Disk} {frames : List Frame} {torn : Bytes}
    {selected : Package × LiveWorld α} {final : Walk α}
    (validated : Validated library sha256 disk frames torn selected final)
    {scratch : Option Bytes} (removed : scratch = none ∨ scratch = disk.scratch) :
    Validated library sha256
      { disk with journal := frames.flatMap (Frame.spelled sha256), scratch := scratch } frames []
      selected final := by
  have shorter : (frames.flatMap (Frame.spelled sha256)).length ≤ disk.journal.length := by
    rw [validated.split, List.length_append]
    omega
  have less : ({ disk with
      journal := frames.flatMap (Frame.spelled sha256), scratch := scratch } : Disk).sizes.sum ≤
        disk.sizes.sum := by
    rcases removed with rfl | rfl
    · simp only [Disk.sizes, List.sum_cons, Option.map_none, Option.toList_none, List.sum_nil]
      omega
    · simp only [Disk.sizes, List.sum_cons]
      omega
  exact
    { selects := validated.selects
      small := shorter.trans validated.small
      fits := validated.fits
      split := (List.append_nil _).symm
      accepted := validated.accepted
      torn := readFrame_eq_none.mp readFrame_spells.ended
      quota := ⟨less.trans validated.quota.1, less.trans validated.quota.2⟩
      scratch := by
        rcases removed with rfl | rfl
        · exact fun _ present => absurd present (Option.some_ne_none _).symm
        · exact validated.scratch }

/-- The store that an opening finds in the files. -/
def Walk.store (final : Walk α) : Store α := ⟨final.restored.1, final.restored.2, false⟩

theorem Validated.valid {disk : Disk} {frames : List Frame} {torn : Bytes}
    {selected : Package × LiveWorld α} {final : Walk α}
    (validated : Validated library sha256 disk frames torn selected final) :
    validate library sha256 disk =
      .ok (final.store, (frames.flatMap (Frame.spelled sha256)).length) :=
  validate_eq_ok.mpr ⟨frames, torn, selected, final, validated, rfl, rfl⟩

theorem Validated.cut {disk : Disk} {frames : List Frame} {torn : Bytes}
    {selected : Package × LiveWorld α} {final : Walk α}
    (validated : Validated library sha256 disk frames torn selected final) :
    disk.journal.take (frames.flatMap (Frame.spelled sha256)).length =
      frames.flatMap (Frame.spelled sha256) := by
  rw [validated.split, List.take_left' rfl]

theorem Validated.open {disk : Disk} {frames : List Frame} {torn : Bytes}
    {selected : Package × LiveWorld α} {final : Walk α}
    (validated : Validated library sha256 disk frames torn selected final) :
    Store.open library sha256 disk none =
      ⟨.ok final.store,
        { disk with journal := frames.flatMap (Frame.spelled sha256), scratch := none }⟩ := by
  unfold Store.open
  rw [validated.valid]
  dsimp only
  rw [validated.cut]

theorem open_error {disk : Disk} {code : Text}
    (rejected : validate library sha256 disk = .error code) (stop : Option OpenStop) :
    Store.open library sha256 disk stop = ⟨.error code, disk⟩ := by
  unfold Store.open
  rw [rejected]

/-- An opening is refused, or finds frames and an incomplete one. -/
theorem open_cases (library : JsonLibrary α) (sha256 : Bytes → Vector UInt8 32) (disk : Disk) :
    (∃ code, ∀ stop, Store.open library sha256 disk stop = ⟨.error code, disk⟩) ∨
      ∃ frames torn selected final,
        Validated library sha256 disk frames torn selected final := by
  cases valid : validate library sha256 disk with
  | error code => exact Or.inl ⟨code, open_error valid⟩
  | ok pair =>
      obtain ⟨_, _⟩ := pair
      obtain ⟨frames, torn, selected, final, validated, _, _⟩ := validate_eq_ok.mp valid
      exact Or.inr ⟨frames, torn, selected, final, validated⟩

/-- The files after openings that a failure has stopped. -/
def interrupted (library : JsonLibrary α) (sha256 : Bytes → Vector UInt8 32) (disk : Disk)
    (stops : List OpenStop) : Disk :=
  stops.foldl (fun disk stop => (Store.open library sha256 disk (some stop)).disk) disk

/-- A failure in an opening leaves the next one the same to find and to repair. -/
theorem open_stopped (disk : Disk) (stop : OpenStop) :
    Store.open library sha256 (Store.open library sha256 disk (some stop)).disk none =
      Store.open library sha256 disk none := by
  rcases open_cases library sha256 disk with
    ⟨code, refused⟩ | ⟨frames, torn, selected, final, validated⟩
  · rw [refused, refused]
  have left : (Store.open library sha256 disk (some stop)).disk = disk ∨
      ∃ scratch, (scratch = none ∨ scratch = disk.scratch) ∧
        (Store.open library sha256 disk (some stop)).disk =
          { disk with
            journal := frames.flatMap (Frame.spelled sha256), scratch := scratch } := by
    unfold Store.open
    rw [validated.valid]
    dsimp only
    rw [validated.cut]
    cases stop with
    | reading => exact Or.inl rfl
    | truncated => exact Or.inr ⟨disk.scratch, Or.inr rfl, rfl⟩
    | removed => exact Or.inr ⟨none, Or.inl rfl, rfl⟩
  rcases left with untouched | ⟨scratch, kept, repaired⟩
  · rw [untouched]
  · rw [repaired, (validated.repaired kept).open, validated.open]

theorem open_interrupted (stops : List OpenStop) (disk : Disk) :
    Store.open library sha256 (interrupted library sha256 disk stops) none =
      Store.open library sha256 disk none := by
  induction stops generalizing disk with
  | nil => rfl
  | cons stop rest inductionHypothesis =>
      exact (inductionHypothesis _).trans (open_stopped disk stop)

/-- The walk over a journal always stops. -/
theorem walkJournal_ends (selected : Package × LiveWorld α) (journal : Bytes) :
    walkJournal library sha256 selected.1 journal (journal.length + 1) ⟨selected, none, 0⟩ ≠
      none := by
  rw [walkJournal_eq, List.drop_zero, Ne, Option.map_eq_none_iff]
  exact readFrame_spells.walk_ends _ _ _ (Nat.lt_succ_self _)

/-- Opening any disk ends. When it succeeds it has cut one incomplete frame off the
journal, and opening what it left finds the same store and changes nothing; when it does
not, it has changed nothing. Openings that were stopped before it make no difference. -/
theorem open_repairs (disk : Disk) :
    (∀ selected : Package × LiveWorld α,
      walkJournal library sha256 selected.1 disk.journal (disk.journal.length + 1)
        ⟨selected, none, 0⟩ ≠ none) ∧
      (∀ store left, Store.open library sha256 disk none = ⟨.ok store, left⟩ →
        left.checkpoint = disk.checkpoint ∧ left.scratch = none ∧
          (∃ torn, disk.journal = left.journal ++ torn ∧ Incomplete sha256 torn) ∧
          Store.open library sha256 left none = ⟨.ok store, left⟩) ∧
      (∀ code left, Store.open library sha256 disk none = ⟨.error code, left⟩ → left = disk) ∧
      ∀ stops, Store.open library sha256 (interrupted library sha256 disk stops) none =
        Store.open library sha256 disk none := by
  refine ⟨fun selected => walkJournal_ends selected disk.journal, ?_, ?_,
    fun stops => open_interrupted stops disk⟩
  · intro store left run
    rcases open_cases library sha256 disk with
      ⟨code, refused⟩ | ⟨frames, torn, selected, final, validated⟩
    · rw [refused] at run
      cases run
    rw [validated.open] at run
    cases run
    exact ⟨rfl, rfl, ⟨torn, validated.split, validated.torn⟩,
      (validated.repaired (Or.inl rfl)).open⟩
  · intro code left run
    rcases open_cases library sha256 disk with
      ⟨code, refused⟩ | ⟨frames, torn, selected, final, validated⟩
    · rw [refused] at run
      cases run
      rfl
    · rw [validated.open] at run
      cases run

end Opening

end Omniweft.Persistence
