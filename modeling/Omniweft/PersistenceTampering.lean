import Omniweft.PersistenceRuns

/-!
# Altered files

A frame is six fields, and each of them is checked. Changing one field of one frame, in the
checkpoint or anywhere in the journal, makes the store corrupt rather than shorter, unless
the changed bytes have the digest of the old ones.
-/

namespace Omniweft.Persistence

open Omniweft.Outcome World Commands Transactions

section Fields

variable {sha256 : Bytes → Vector UInt8 32}

/-- The fields of a frame, in their order. -/
def fields (sha256 : Bytes → Vector UInt8 32) (frame : Frame) : List Bytes :=
  [frameMagic, littleEndian frame.payload.length 4 ++ littleEndian frame.high 8,
    (sha256 (frameHeader frame.payload.length frame.high)).toList, frame.payload,
    (sha256 (opened sha256 frame.payload frame.high)).toList, endMagic]

theorem fields_flatten (frame : Frame) : (fields sha256 frame).flatten = frame.spelled sha256 := by
  simp [fields, Frame.spelled, frameBytes_eq, opened, frameHeader]

/-- The bytes of a frame with one field changed, at its length. -/
def Altered (sha256 : Bytes → Vector UInt8 32) (frame : Frame) (changed : Bytes) : Prop :=
  ∃ (index : Nat) (field other : Bytes), (fields sha256 frame)[index]? = some field ∧
    other.length = field.length ∧ other ≠ field ∧
    changed = ((fields sha256 frame).set index other).flatten

/-- A front of the bytes was changed, and has the digest of the old one. -/
def Forged (sha256 : Bytes → Vector UInt8 32) (original changed : Bytes) : Prop :=
  ∃ count, changed.take count ≠ original.take count ∧
    sha256 (changed.take count) = sha256 (original.take count)

/-- What is hashed of the changed frame, its header or all up to the end of its payload, has
the digest that it had before. -/
def Collides (sha256 : Bytes → Vector UInt8 32) (frame : Frame) (changed : Bytes) : Prop :=
  ∃ count, (count = 20 ∨ count = headerSize + frame.payload.length) ∧
    changed.take count ≠ (frame.spelled sha256).take count ∧
    sha256 (changed.take count) = sha256 ((frame.spelled sha256).take count)

theorem Collides.forged {frame : Frame} {changed : Bytes}
    (collides : Collides sha256 frame changed) :
    Forged sha256 (frame.spelled sha256) changed := by
  obtain ⟨count, _, differs, same⟩ := collides
  exact ⟨count, differs, same⟩

theorem readFrame_bad_digest {bytes : Bytes} (long : headerSize ≤ bytes.length)
    (bad : (bytes.drop 20).take 32 ≠ (sha256 (bytes.take 20)).toList) :
    readFrame sha256 bytes = .error corrupt := by
  have failed : ((bytes.drop 20).take 32 == (sha256 (bytes.take 20)).toList) = false :=
    beq_eq_false_iff_ne.mpr bad
  unfold readFrame
  rw [if_neg (Nat.not_lt.mpr long), failed]
  rfl

/-- The header was left alone: the last digest and the end mark are checked. -/
theorem readFrame_bad_body {bytes rest : Bytes} {size high : Nat}
    (headed : Headed sha256 bytes size high rest) (whole : size + frameOverhead ≤ bytes.length)
    (bad : (bytes.drop (headerSize + size)).take 32 ≠
        (sha256 (bytes.take (headerSize + size))).toList ∨
      (bytes.drop (headerSize + size + 32)).take 8 ≠ endMagic) :
    readFrame sha256 bytes = .error corrupt := by
  rw [readFrame_headed headed]
  unfold readBody
  rw [if_neg (Nat.not_lt.mpr whole)]
  by_cases digested : (bytes.drop (headerSize + size)).take 32 =
      (sha256 (bytes.take (headerSize + size))).toList
  · have passed : ((bytes.drop (headerSize + size)).take 32 ==
        (sha256 (bytes.take (headerSize + size))).toList) = true := beq_iff_eq.mpr digested
    have failed : ((bytes.drop (headerSize + size + 32)).take 8 == endMagic) = false :=
      beq_eq_false_iff_ne.mpr (bad.resolve_left fun unequal => unequal digested)
    dsimp only
    rw [passed, failed]
    rfl
  · have failed : ((bytes.drop (headerSize + size)).take 32 ==
        (sha256 (bytes.take (headerSize + size))).toList) = false :=
      beq_eq_false_iff_ne.mpr digested
    dsimp only
    rw [failed]
    rfl

/-- A header is refused unless it has the digest that follows it. -/
theorem altered_header {frame : Frame} {header rest tail : Bytes}
    (sized : header.length = 20)
    (same : rest = (sha256 (frameHeader frame.payload.length frame.high)).toList ++ tail) :
    readFrame sha256 (header ++ rest) = .error corrupt ∨
      sha256 header = sha256 (frameHeader frame.payload.length frame.high) := by
  have digest := (sha256 (frameHeader frame.payload.length frame.high)).length_toList
  by_cases forged : sha256 header = sha256 (frameHeader frame.payload.length frame.high)
  · exact Or.inr forged
  · refine Or.inl (readFrame_bad_digest ?_ ?_)
    · rw [same]
      simp only [List.length_append, digest, sized, headerSize]
      omega
    · rw [List.drop_left' sized, List.take_left' sized, same, List.take_left' digest]
      intro equal
      exact forged (Vector.toList_inj.mp equal).symm

/-- The header is followed by its digest, the payload, and the digest of all that. -/
theorem spelled_eq (frame : Frame) :
    frame.spelled sha256 =
      frameHeader frame.payload.length frame.high ++
        ((sha256 (frameHeader frame.payload.length frame.high)).toList ++
          (frame.payload ++
            ((sha256 (opened sha256 frame.payload frame.high)).toList ++ endMagic))) := by
  simp only [Frame.spelled, frameBytes_eq, opened, List.append_assoc]

/-- Changing the first or the second field. -/
theorem altered_header_rejected {frame : Frame} {header : Bytes}
    (sized : header.length = 20)
    (unlike : header ≠ frameHeader frame.payload.length frame.high) (tail rest : Bytes) :
    let changed := header ++
      ((sha256 (frameHeader frame.payload.length frame.high)).toList ++ tail)
    readFrame sha256 (changed ++ rest) = .error corrupt ∨
      Collides sha256 frame changed := by
  intro changed
  have length := frameHeader_length frame.payload.length frame.high
  have split : changed ++ rest = header ++
      ((sha256 (frameHeader frame.payload.length frame.high)).toList ++ (tail ++ rest)) := by
    simp only [changed, List.append_assoc]
  rw [split]
  rcases altered_header sized rfl with rejected | same
  · exact Or.inl rejected
  · refine Or.inr ⟨20, Or.inl rfl, ?_⟩
    rw [List.take_left' sized, spelled_eq, List.take_left' length]
    exact ⟨unlike, same⟩

/-- Changing the payload or what follows it. -/
theorem altered_body_rejected {frame : Frame} (fits : frame.Fits) {payload digest mark : Bytes}
    (payloadSized : payload.length = frame.payload.length) (digestSized : digest.length = 32)
    (markSized : mark.length = 8)
    (bad : digest ≠ (sha256 (opened sha256 payload frame.high)).toList ∨ mark ≠ endMagic)
    (rest : Bytes) :
    readFrame sha256 (frameHeader frame.payload.length frame.high ++
        ((sha256 (frameHeader frame.payload.length frame.high)).toList ++
          (payload ++ (digest ++ mark))) ++ rest) = .error corrupt := by
  have headed : Headed sha256 (frameHeader frame.payload.length frame.high ++
      ((sha256 (frameHeader frame.payload.length frame.high)).toList ++
        (payload ++ (digest ++ mark))) ++ rest) frame.payload.length frame.high
      (payload ++ (digest ++ (mark ++ rest))) := by
    refine ⟨fits.1, fits.2, ?_⟩
    simp only [List.append_assoc]
  obtain ⟨_, after⟩ := headed.take_header
  have front := headed.take_opened (by
    rw [List.length_append, payloadSized]
    omega)
  rw [List.take_left' payloadSized] at front
  have behind (count : Nat) : (frameHeader frame.payload.length frame.high ++
      ((sha256 (frameHeader frame.payload.length frame.high)).toList ++
        (payload ++ (digest ++ mark))) ++ rest).drop (headerSize + frame.payload.length + count) =
      (digest ++ (mark ++ rest)).drop count := by
    rw [← List.drop_drop, ← List.drop_drop, after, List.drop_left' payloadSized]
  refine readFrame_bad_body headed ?_ ?_
  · rw [headed.split]
    simp only [List.length_append, frameHeader_length, Vector.length_toList, payloadSized,
      digestSized, markSized, frameOverhead]
    omega
  · have plain := behind 0
    rw [Nat.add_zero, List.drop_zero] at plain
    rw [plain, behind 32, front, List.take_left' digestSized, List.drop_left' digestSized,
      List.take_left' markSized]
    exact bad

/-- The reader rejects a frame with a changed field. -/
theorem altered_rejected {frame : Frame} (fits : frame.Fits) {changed : Bytes}
    (altered : Altered sha256 frame changed) (rest : Bytes) :
    readFrame sha256 (changed ++ rest) = .error corrupt ∨
      Collides sha256 frame changed := by
  obtain ⟨index, field, other, found, sized, unlike, rfl⟩ := altered
  have six : (fields sha256 frame).length = 6 := rfl
  have inside := (List.getElem?_eq_some_iff.mp found).1
  rw [six] at inside
  have payloadDigest := (sha256 (opened sha256 frame.payload frame.high)).length_toList
  have markLength : endMagic.length = 8 := rfl
  have magicLength : frameMagic.length = 8 := rfl
  have countsLength :
      (littleEndian frame.payload.length 4 ++ littleEndian frame.high 8).length = 12 := by
    rw [List.length_append, littleEndian_length, littleEndian_length]
  have headerDigest := (sha256 (frameHeader frame.payload.length frame.high)).length_toList
  interval_cases index
  · cases found
    have header : (other ++ (littleEndian frame.payload.length 4 ++
        littleEndian frame.high 8)).length = 20 := by
      rw [List.length_append, sized, countsLength, magicLength]
    have differs : other ++ (littleEndian frame.payload.length 4 ++
        littleEndian frame.high 8) ≠ frameHeader frame.payload.length frame.high := by
      rw [frameHeader, List.append_assoc]
      intro same
      exact unlike (List.append_inj_left' same rfl)
    have rejected := @altered_header_rejected sha256 frame _ header differs
      (frame.payload ++ ((sha256 (opened sha256 frame.payload frame.high)).toList ++ endMagic))
      rest
    simpa [fields] using rejected
  · cases found
    have header : (frameMagic ++ other).length = 20 := by
      rw [List.length_append, sized, countsLength, magicLength]
    have differs : frameMagic ++ other ≠ frameHeader frame.payload.length frame.high := by
      rw [frameHeader, List.append_assoc]
      intro same
      exact unlike (List.append_cancel_left same)
    have rejected := @altered_header_rejected sha256 frame _ header differs
      (frame.payload ++ ((sha256 (opened sha256 frame.payload frame.high)).toList ++ endMagic))
      rest
    simpa [fields] using rejected
  · cases found
    have spelled : ((fields sha256 frame).set 2 other).flatten =
        frameHeader frame.payload.length frame.high ++
          (other ++ (frame.payload ++
            ((sha256 (opened sha256 frame.payload frame.high)).toList ++ endMagic))) := by
      simp [fields, frameHeader]
    have header := frameHeader_length frame.payload.length frame.high
    rw [headerDigest] at sized
    rw [spelled, List.append_assoc]
    refine Or.inl (readFrame_bad_digest ?_ ?_)
    · simp only [List.length_append, header, sized, headerSize]
      omega
    · rw [List.drop_left' header, List.take_left' header, List.append_assoc,
        List.take_left' sized]
      exact unlike
  · cases found
    have spelled : ((fields sha256 frame).set 3 other).flatten =
        frameHeader frame.payload.length frame.high ++
          ((sha256 (frameHeader frame.payload.length frame.high)).toList ++
            (other ++ ((sha256 (opened sha256 frame.payload frame.high)).toList ++
              endMagic))) := by
      simp [fields, frameHeader]
    by_cases forged : sha256 (opened sha256 other frame.high) =
        sha256 (opened sha256 frame.payload frame.high)
    · have front : opened sha256 other frame.high =
          frameHeader frame.payload.length frame.high ++
            (sha256 (frameHeader frame.payload.length frame.high)).toList ++ other := by
        rw [opened, sized]
      refine Or.inr ⟨headerSize + frame.payload.length, Or.inr rfl, ?_⟩
      have oldFront : (frame.spelled sha256).take (headerSize + frame.payload.length) =
          opened sha256 frame.payload frame.high := by
        rw [Frame.spelled, frameBytes_eq, List.append_assoc,
          List.take_left' (opened_length frame.payload frame.high)]
      have newFront : ((fields sha256 frame).set 3 other).flatten.take
          (headerSize + frame.payload.length) = opened sha256 other frame.high := by
        have joined : ((fields sha256 frame).set 3 other).flatten =
            opened sha256 other frame.high ++
              ((sha256 (opened sha256 frame.payload frame.high)).toList ++ endMagic) := by
          rw [spelled, front]
          simp only [List.append_assoc]
        rw [joined, ← sized, List.take_left' (opened_length other frame.high)]
      rw [oldFront, newFront]
      refine ⟨?_, forged⟩
      intro same
      rw [front, opened] at same
      exact unlike (List.append_cancel_left same)
    · rw [spelled]
      refine Or.inl (altered_body_rejected fits sized payloadDigest markLength ?_ rest)
      exact Or.inl fun same => forged (Vector.toList_inj.mp same).symm
  · cases found
    have spelled : ((fields sha256 frame).set 4 other).flatten =
        frameHeader frame.payload.length frame.high ++
          ((sha256 (frameHeader frame.payload.length frame.high)).toList ++
            (frame.payload ++ (other ++ endMagic))) := by
      simp [fields, frameHeader]
    rw [spelled]
    exact Or.inl (altered_body_rejected fits rfl (sized.trans payloadDigest) markLength
      (Or.inl unlike) rest)
  · cases found
    have spelled : ((fields sha256 frame).set 5 other).flatten =
        frameHeader frame.payload.length frame.high ++
          ((sha256 (frameHeader frame.payload.length frame.high)).toList ++
            (frame.payload ++
              ((sha256 (opened sha256 frame.payload frame.high)).toList ++ other))) := by
      simp [fields, frameHeader]
    rw [spelled]
    exact Or.inl (altered_body_rejected fits rfl payloadDigest sized (Or.inr unlike) rest)

end Fields

section Files

variable {α : Type} [Scalar α] {library : JsonLibrary α} {sha256 : Bytes → Vector UInt8 32}

theorem Altered.length {frame : Frame} {changed : Bytes}
    (altered : Altered sha256 frame changed) :
    changed.length = (frame.spelled sha256).length := by
  obtain ⟨index, field, other, found, sized, _, rfl⟩ := altered
  obtain ⟨inside, same⟩ := List.getElem?_eq_some_iff.mp found
  have lengths : ((fields sha256 frame).set index other).map List.length =
      (fields sha256 frame).map List.length := by
    rw [List.map_set, sized, ← same]
    refine List.ext_getElem (by simp) ?_
    intro place left right
    rw [List.getElem_set]
    split
    · rename_i equal
      subst equal
      rw [List.getElem_map]
    · rfl
  rw [← fields_flatten, List.length_flatten, List.length_flatten, lengths]

/-- One field of one frame of the files is changed. -/
inductive Tampered (sha256 : Bytes → Vector UInt8 32) (frame : Frame) (changed : Bytes)
    (disk : Disk) : Disk → Prop where
  | checkpoint (fits : frame.Fits) (spelled : disk.checkpoint = frame.spelled sha256)
      (altered : Altered sha256 frame changed) :
      Tampered sha256 frame changed disk { disk with checkpoint := changed }
  | journal (front back : List Frame) (fits : ∀ other ∈ front ++ frame :: back, other.Fits)
      (spelled : disk.journal = (front ++ frame :: back).flatMap (Frame.spelled sha256))
      (altered : Altered sha256 frame changed) :
      Tampered sha256 frame changed disk
        { disk with
          journal := front.flatMap (Frame.spelled sha256) ++
            (changed ++ back.flatMap (Frame.spelled sha256)) }

theorem validate_checkpoint_error {disk : Disk} {code : Text}
    (rejected : selectCheckpoint library sha256 disk.checkpoint = .error code) :
    validate library sha256 disk = .error code := by
  unfold validate
  exact bind_eq_error.mpr (Or.inl rejected)

theorem validate_journal_error {disk : Disk} {selected : Package × LiveWorld α} {code : Text}
    (selects : selectCheckpoint library sha256 disk.checkpoint = .ok selected)
    (small : disk.journal.length ≤ journalLimit)
    (rejected : walkJournal library sha256 selected.1 disk.journal (disk.journal.length + 1)
      ⟨selected, none, 0⟩ = some (.error code)) :
    validate library sha256 disk = .error code := by
  unfold validate
  refine bind_eq_error.mpr (Or.inr ⟨selected, selects, ?_⟩)
  refine bind_eq_error.mpr (Or.inr ⟨disk.journal, ?_, ?_⟩)
  · exact unit_bind_eq_ok.mpr ⟨rejectIf_eq_ok.mpr (decide_eq_false (Nat.not_lt.mpr small)), rfl⟩
  · rw [rejected]
    exact bind_eq_error.mpr (Or.inl rfl)

/-- Valid files with no incomplete frame, of which one field of one frame is changed. -/
theorem Validated.tampered {disk : Disk} {frames : List Frame} {torn : Bytes}
    {selected : Package × LiveWorld α} {final : Walk α}
    (validated : Validated library sha256 disk frames torn selected final)
    (whole : frames.flatMap (Frame.spelled sha256) = disk.journal) {frame : Frame}
    {changed : Bytes} {altered : Disk} (tampered : Tampered sha256 frame changed disk altered)
    (stop : Option OpenStop) :
    Store.open library sha256 altered stop = ⟨.error corrupt, altered⟩ ∨
      Collides sha256 frame changed := by
  cases tampered with
  | checkpoint fits spelled changes =>
      rcases altered_rejected fits changes [] with rejected | collides
      · refine Or.inl (open_error (validate_checkpoint_error ?_) stop)
        -- The checkpoint is as long as before, so it is read.
        have before := validated.selects
        rw [spelled] at before
        unfold selectCheckpoint readLimited at before ⊢
        obtain ⟨_, small, _⟩ := bind_eq_ok.mp before
        obtain ⟨limited, _⟩ := unit_bind_eq_ok.mp small
        rw [← changes.length] at limited
        rw [List.append_nil] at rejected
        refine bind_eq_error.mpr (Or.inr ⟨changed, ?_, ?_⟩)
        · exact unit_bind_eq_ok.mpr ⟨limited, rfl⟩
        · exact bind_eq_error.mpr (Or.inl rejected)
      · exact Or.inr collides
  | journal front back fits spelled changes =>
      obtain ⟨rfl, _⟩ : frames = front ++ frame :: back ∧ [] = [] :=
        readFrame_spells.unique validated.fits fits readFrame_spells.ended
          readFrame_spells.ended (by rw [whole, spelled])
      rcases altered_rejected (fits frame (by simp)) changes
        (back.flatMap (Frame.spelled sha256)) with rejected | collides
      · have small := validated.small
        rw [spelled, List.flatMap_append, List.flatMap_cons, List.length_append,
          List.length_append] at small
        have rest : front.length ≤ (front.flatMap (Frame.spelled sha256)).length :=
          readFrame_spells.length_le fun other member =>
            fits other (List.mem_append_left _ member)
        have accepted := validated.accepted
        rw [List.foldlM_append, bind_eq_ok] at accepted
        obtain ⟨middle, folded, _⟩ := accepted
        have sized := changes.length
        refine Or.inl (open_error ?_ stop)
        refine @validate_journal_error _ _ _ _ _ selected _ validated.selects ?_ ?_
        · simp only [List.length_append]
          omega
        · rw [walkJournal_eq, List.drop_zero, readFrame_spells.walk_error
            (fun other member => fits other (List.mem_append_left _ member)) folded rejected
            (by
              simp only [List.length_append]
              omega)]
          rfl
      · exact Or.inr collides

/-- Files that open with nothing cut off, and then have one field of one frame changed, are
corrupt: nothing is cut off and no older state is found. -/
theorem tampering_detected {disk left : Disk} {store : Store α}
    (opens : Store.open library sha256 disk none = ⟨.ok store, left⟩)
    (complete : left.journal = disk.journal) {frame : Frame} {changed : Bytes} {altered : Disk}
    (tampered : Tampered sha256 frame changed disk altered) (stop : Option OpenStop) :
    Store.open library sha256 altered stop = ⟨.error corrupt, altered⟩ ∨
      Forged sha256 (frame.spelled sha256) changed := by
  rcases open_cases library sha256 disk with
    ⟨code, refused⟩ | ⟨frames, torn, selected, final, validated⟩
  · rw [refused] at opens
    cases opens
  rw [validated.open] at opens
  cases opens
  exact (validated.tampered complete tampered stop).imp id Collides.forged

theorem tampering_detected_sample :
    let altered := { sampleDisk with
      checkpoint := ((fields Sha256.digest (Frame.of sampleStore.package)).set 5
        (ascii "tampered")).flatten }
    Store.open JsonText.library Sha256.digest altered none = ⟨.error corrupt, altered⟩ ∨
      Forged Sha256.digest ((Frame.of sampleStore.package).spelled Sha256.digest)
        altered.checkpoint := by
  intro altered
  obtain ⟨epoch, fresh, recovers⟩ :=
    @create_recovers _ _ JsonText.library _ _ _ _ _ sample_created
  have opens := recovers.awake JsonText.library_faithful rfl rfl
  have fits : (Frame.of sampleStore.package).Fits := by
    obtain ⟨_, _, _, _, lives⟩ := recovers.layout
    rcases lives sampleStore rfl with closed | same
    · cases closed
    · rw [same.1]
      exact recovers.stored.fitting JsonText.library_faithful
  have changes : Altered Sha256.digest (Frame.of sampleStore.package) altered.checkpoint :=
    ⟨5, endMagic, ascii "tampered", rfl, by decide, by decide, rfl⟩
  exact tampering_detected opens rfl (.checkpoint fits rfl changes) none

end Files

end Omniweft.Persistence
