import Omniweft.Assets
import Mathlib.Tactic.IntervalCases

/-!
# The languages of the manifest and bundle readers

Each reader is shown to accept exactly the pieces its writer can produce. A
hash is the lowercase spelling of exactly one digest, so the manifest reader
and the canonical writer are inverse to each other.
-/

namespace Omniweft.Assets

open Outcome Grammar

@[simp]
theorem hex_length (bytes : Bytes) :
    (hex bytes).length = 2 * bytes.length := by
  induction bytes with
  | nil => rfl
  | cons byte rest inductionHypothesis =>
      have cons : hex (byte :: rest) =
          hexDigit (byte.toNat / 16) :: hexDigit (byte.toNat % 16) :: hex rest := rfl
      rw [cons]
      simp only [List.length_cons, inductionHypothesis]
      omega

theorem hexDigit_lowercase {value : Nat} (small : value < 16) :
    lowercaseHex (hexDigit value) = true := by
  interval_cases value <;> rfl

theorem nibble_hexDigit {value : Nat} (small : value < 16) :
    nibble (hexDigit value) = UInt8.ofNat value := by
  interval_cases value <;> rfl

theorem hexDigit_nibble :
    ∀ character : UInt8,
      lowercaseHex character = true →
      (nibble character).toNat < 16 ∧ hexDigit (nibble character).toNat = character := by
  have all : ∀ number : Fin 256,
      lowercaseHex (UInt8.ofNat number.val) = true →
        (nibble (UInt8.ofNat number.val)).toNat < 16 ∧
          hexDigit (nibble (UInt8.ofNat number.val)).toNat = UInt8.ofNat number.val := by
    decide +kernel
  intro character valid
  have back : UInt8.ofNat character.toNat = character := UInt8.ofNat_toNat
  have checkedByte := all ⟨character.toNat, character.toNat_lt⟩
  simp only [back] at checkedByte
  exact checkedByte valid

theorem joined_nibbles :
    ∀ byte : UInt8,
      (UInt8.ofNat (byte.toNat / 16) <<< 4) ||| UInt8.ofNat (byte.toNat % 16) = byte := by
  have all : ∀ number : Fin 256,
      (UInt8.ofNat (number.val / 16) <<< 4) ||| UInt8.ofNat (number.val % 16) =
        UInt8.ofNat number.val := by
    decide +kernel
  intro byte
  have checkedByte := all ⟨byte.toNat, byte.toNat_lt⟩
  simp only [UInt8.ofNat_toNat] at checkedByte
  exact checkedByte

theorem split_nibbles :
    ∀ high low : Fin 16,
      ((UInt8.ofNat high.val <<< 4) ||| UInt8.ofNat low.val).toNat / 16 = high.val ∧
        ((UInt8.ofNat high.val <<< 4) ||| UInt8.ofNat low.val).toNat % 16 = low.val := by
  decide

theorem nibblePairs_hex (bytes : Bytes) :
    nibblePairs (hex bytes) = bytes := by
  induction bytes with
  | nil => rfl
  | cons byte rest inductionHypothesis =>
      have cons : hex (byte :: rest) =
          hexDigit (byte.toNat / 16) :: hexDigit (byte.toNat % 16) :: hex rest := rfl
      have small : byte.toNat < 256 := byte.toNat_lt
      rw [cons, nibblePairs, nibble_hexDigit (by omega), nibble_hexDigit (by omega),
        joined_nibbles, inductionHypothesis]

theorem hex_nibblePairs :
    ∀ {value : Text},
      value.length % 2 = 0 →
      value.all lowercaseHex = true →
      hex (nibblePairs value) = value
  | [], _, _ => rfl
  | [_], odd, _ => by simp at odd
  | high :: low :: rest, even, valid => by
      simp only [List.all_cons, Bool.and_eq_true] at valid
      obtain ⟨highSmall, highBack⟩ := hexDigit_nibble high valid.1
      obtain ⟨lowSmall, lowBack⟩ := hexDigit_nibble low valid.2.1
      have restBack : hex (nibblePairs rest) = rest :=
        hex_nibblePairs (by simp only [List.length_cons] at even; omega) valid.2.2
      have parts := split_nibbles ⟨_, highSmall⟩ ⟨_, lowSmall⟩
      simp only [UInt8.ofNat_toNat] at parts
      have cons : hex (nibblePairs (high :: low :: rest)) =
          hexDigit (((nibble high <<< 4) ||| nibble low).toNat / 16) ::
            hexDigit (((nibble high <<< 4) ||| nibble low).toNat % 16) ::
              hex (nibblePairs rest) := rfl
      rw [cons, parts.1, parts.2, highBack, lowBack, restBack]

theorem hex_all_lowercase (bytes : Bytes) :
    (hex bytes).all lowercaseHex = true := by
  induction bytes with
  | nil => rfl
  | cons byte rest inductionHypothesis =>
      have cons : hex (byte :: rest) =
          hexDigit (byte.toNat / 16) :: hexDigit (byte.toNat % 16) :: hex rest := rfl
      have small : byte.toNat < 256 := byte.toNat_lt
      rw [cons, List.all_cons, List.all_cons, inductionHypothesis,
        hexDigit_lowercase (by omega), hexDigit_lowercase (by omega)]
      rfl

theorem validHash_iff {value : Text} :
    validHash value = true ↔ ∃ digest : Bytes, digest.length = 32 ∧ hex digest = value := by
  unfold validHash
  simp only [Bool.and_eq_true, beq_iff_eq]
  constructor
  · rintro ⟨sized, valid⟩
    have back := hex_nibblePairs (by omega) valid
    have doubled := congrArg List.length back
    rw [hex_length] at doubled
    exact ⟨nibblePairs value, by omega, back⟩
  · rintro ⟨digest, sized, rfl⟩
    exact ⟨by rw [hex_length]; omega, hex_all_lowercase digest⟩

/-- The digest of a hash text is the one whose spelling it is. -/
theorem digestBytes_eq_ok {value : Text} {digest : Bytes} :
    digestBytes value = .ok digest ↔ digest.length = 32 ∧ hex digest = value := by
  unfold digestBytes
  simp only [bind_eq_ok, rejectIf_eq_ok, pure_eq_ok, Bool.not_eq_false', exists_and_left,
    exists_const, validHash_iff]
  constructor
  · rintro ⟨⟨other, sized, rfl⟩, rfl⟩
    rw [nibblePairs_hex]
    exact ⟨sized, rfl⟩
  · rintro ⟨sized, rfl⟩
    exact ⟨⟨digest, sized, rfl⟩, nibblePairs_hex digest⟩

theorem hex_inj {left right : Bytes} (same : hex left = hex right) :
    left = right := by
  rw [← nibblePairs_hex left, same, nibblePairs_hex]

theorem reads_checked {condition : Bool} {code : Text} :
    Reads (checked (rejectIf condition code))
      (Language.free fun _ : Unit => condition = false) :=
  (reads_attempt id _).congr fun _ _ => by
    simp only [Language.free, rejectIf_eq_ok]

theorem reads_check_bind {β : Type} {condition : Bool} {code : Text}
    {next : Reader Text UInt8 β} {following : Language UInt8 β}
    (nextReads : Reads next following) :
    Reads (checked (rejectIf condition code) >>= fun _ => next) fun result piece =>
      condition = false ∧ following result piece := by
  apply (reads_attempt_bind id _ fun _ => nextReads).congr
  intro result piece
  simp only [rejectIf_eq_ok, exists_const]

theorem reads_byte (code : Text) :
    Reads (byte code) fun value piece => piece = [value] := by
  unfold byte
  refine (reads_bind_pure (reads_take code 1) fun data => data.headD 0).congr ?_
  intro value piece
  constructor
  · rintro ⟨data, ⟨rfl, sized⟩, rfl⟩
    obtain ⟨only, rfl⟩ := List.length_eq_one_iff.1 sized
    rfl
  · rintro rfl
    exact ⟨[value], ⟨rfl, rfl⟩, rfl⟩

theorem reads_read16 (code : Text) :
    Reads (read16 code) fun value piece => value < 65536 ∧ piece = littleEndian value 2 := by
  unfold read16
  refine (reads_bind_pure (reads_take code 2) fromLittleEndian).congr ?_
  intro value piece
  constructor
  · rintro ⟨data, ⟨rfl, sized⟩, rfl⟩
    have small := fromLittleEndian_lt piece
    have back := littleEndian_fromLittleEndian piece
    rw [sized] at small back
    exact ⟨small, back.symm⟩
  · rintro ⟨small, rfl⟩
    have fits : value < 256 ^ 2 := small
    exact ⟨_, ⟨rfl, littleEndian_length value 2⟩, fromLittleEndian_littleEndian fits⟩

theorem reads_read32 (code : Text) :
    Reads (read32 code) fun value piece => piece = littleEndian value.toNat 4 := by
  unfold read32
  refine (reads_bind_pure (reads_take code 4) fun data =>
    UInt32.ofNat (fromLittleEndian data)).congr ?_
  intro value piece
  constructor
  · rintro ⟨data, ⟨rfl, sized⟩, rfl⟩
    have small := fromLittleEndian_lt piece
    have back := littleEndian_fromLittleEndian piece
    rw [sized] at small back
    rw [UInt32.toNat_ofNat_of_lt' small, back]
  · rintro rfl
    have small : value.toNat < 256 ^ 4 := value.toNat_lt
    refine ⟨_, ⟨rfl, littleEndian_length _ 4⟩, ?_⟩
    rw [fromLittleEndian_littleEndian small]
    exact UInt32.ofNat_toNat

theorem reads_readText (code limitCode : Text) {limit : Nat} (fits : limit < 65536) :
    Reads (readText code limit limitCode) fun value piece =>
      value.length ≤ limit ∧ piece = text value := by
  unfold readText
  refine (reads_bind (reads_read16 code) fun length =>
    reads_check_bind (reads_take code length)).congr ?_
  intro value piece
  simp only [decide_eq_false_iff_not, Nat.not_lt]
  constructor
  · rintro ⟨length, _, _, ⟨small, rfl⟩, ⟨within, rfl, sized⟩, rfl⟩
    refine ⟨by omega, ?_⟩
    rw [text, sized]
  · rintro ⟨within, rfl⟩
    exact ⟨value.length, _, _, ⟨by omega, rfl⟩, ⟨within, rfl, rfl⟩, rfl⟩

theorem reads_magic (code expected : Text) :
    Reads (magic code expected) fun _ piece => piece = expected := by
  unfold magic
  refine (reads_bind (reads_take code expected.length) fun value => reads_checked).congr ?_
  intro value piece
  simp only [Language.andThen, Language.exactly, Language.free]
  constructor
  · rintro ⟨data, _, _, ⟨rfl, _⟩, ⟨same, rfl⟩, rfl⟩
    rw [List.append_nil]
    simpa using same
  · rintro rfl
    exact ⟨piece, piece, [], ⟨rfl, rfl⟩, ⟨by simp, rfl⟩, (List.append_nil _).symm⟩

/-- What `manifest_valid` asks for. -/
structure Manifest.Valid (value : Manifest) : Prop where
  version : value.formatVersion = 1
  bounded : value.decodedLength.toNat ≤ blobByteLimit
  hash : validHash value.contentHash = true
  mediaType : asciiText value.mediaType 64 = true
  source : asciiText value.source 128 = true
  license : asciiText value.license 64 = true

theorem manifestValid_eq_ok {value : Manifest} {done : Unit} :
    manifestValid value = .ok done ↔ value.Valid := by
  unfold manifestValid
  simp only [bind_eq_ok, rejectIf_eq_ok, exists_const, Bool.or_eq_false_iff,
    Bool.not_eq_false', bne_eq_false_iff_eq, decide_eq_false_iff_not, Nat.not_lt]
  constructor
  · rintro ⟨version, bounded, ⟨⟨hash, mediaType⟩, source⟩, license⟩
    exact ⟨version, bounded, hash, mediaType, source, license⟩
  · intro valid
    exact ⟨valid.version, valid.bounded,
      ⟨⟨valid.hash, valid.mediaType⟩, valid.source⟩, valid.license⟩

/-- The bytes of a manifest whose content hash spells the digest. -/
def manifestBytes (value : Manifest) (digest : Bytes) : Bytes :=
  manifestMagic ++ littleEndian value.formatVersion.toNat 4 ++ digest ++
    littleEndian value.decodedLength.toNat 4 ++ text value.mediaType ++
    text value.source ++ text value.license

theorem canonicalManifest_eq_ok {value : Manifest} {bytes : Bytes} :
    canonicalManifest value = .ok bytes ↔
      value.Valid ∧ ∃ digest, digest.length = 32 ∧ hex digest = value.contentHash ∧
        bytes = manifestBytes value digest := by
  unfold canonicalManifest
  simp only [bind_eq_ok, manifestValid_eq_ok, exists_const, digestBytes_eq_ok, pure_eq_ok]
  constructor
  · rintro ⟨valid, digest, ⟨sized, spelled⟩, rfl⟩
    exact ⟨valid, digest, sized, spelled, rfl⟩
  · rintro ⟨valid, digest, sized, spelled, rfl⟩
    exact ⟨valid, digest, ⟨sized, spelled⟩, rfl⟩

theorem asciiText_length {value : Text} {limit : Nat} (valid : asciiText value limit = true) :
    value.length ≤ limit := by
  simp only [asciiText, Bool.and_eq_true, decide_eq_true_eq] at valid
  exact valid.1.2

theorem manifestBytes_length {value : Manifest} (valid : value.Valid) {digest : Bytes}
    (sized : digest.length = 32) :
    (manifestBytes value digest).length ≤ canonicalLimit := by
  have mediaType := asciiText_length valid.mediaType
  have source := asciiText_length valid.source
  have license := asciiText_length valid.license
  have header : manifestMagic.length = 8 := rfl
  simp only [manifestBytes, text, List.length_append, littleEndian_length, sized, header,
    canonicalLimit]
  omega

/-- The pieces the fields of a manifest spell, before the manifest is checked. -/
def manifestLanguage : Language UInt8 Manifest :=
  fun value piece =>
    value.formatVersion = 1 ∧ value.mediaType.length ≤ 64 ∧ value.source.length ≤ 128 ∧
      value.license.length ≤ 64 ∧
      ∃ digest, digest.length = 32 ∧ hex digest = value.contentHash ∧
        piece = manifestBytes value digest

theorem reads_manifestFields : Reads manifestFields manifestLanguage := by
  unfold manifestFields
  refine (reads_bind (reads_magic _ _) fun _ =>
    reads_bind (reads_read32 _) fun formatVersion =>
    reads_check_bind <|
    reads_bind (reads_take _ 32) fun digest =>
    reads_bind (reads_read32 _) fun decodedLength =>
    reads_bind (reads_readText _ _ (by decide)) fun mediaType =>
    reads_bind (reads_readText _ _ (by decide)) fun source =>
    reads_bind_pure (reads_readText _ _ (by decide)) _).congr ?_
  intro value piece
  simp only [Language.andThen, Language.exactly, bne_eq_false_iff_eq]
  constructor
  · rintro ⟨_, _, _, rfl, ⟨_, _, _, rfl, ⟨rfl, _, digest, _, ⟨rfl, sized⟩,
      ⟨decodedLength, _, _, rfl, ⟨mediaType, _, _, ⟨mediaFits, rfl⟩,
      ⟨source, _, _, ⟨sourceFits, rfl⟩, ⟨license, ⟨licenseFits, rfl⟩, rfl⟩,
      rfl⟩, rfl⟩, rfl⟩, rfl⟩, rfl⟩, rfl⟩
    refine ⟨rfl, mediaFits, sourceFits, licenseFits, digest, sized, rfl, ?_⟩
    simp only [manifestBytes, List.append_assoc]
  · rintro ⟨version, mediaFits, sourceFits, licenseFits, digest, sized, spelled, rfl⟩
    refine ⟨(), _, _, rfl, ⟨value.formatVersion, _, _, rfl, ⟨version,
      digest, _, _, ⟨rfl, sized⟩, ⟨value.decodedLength, _, _, rfl,
      ⟨value.mediaType, _, _, ⟨mediaFits, rfl⟩, ⟨value.source, _, _, ⟨sourceFits, rfl⟩,
      ⟨value.license, ⟨licenseFits, rfl⟩, ?_⟩, rfl⟩, rfl⟩, rfl⟩, rfl⟩, rfl⟩, ?_⟩
    · rw [spelled]
    · simp only [manifestBytes, List.append_assoc]

/-- The reader takes exactly the bytes the canonical writer gives. -/
theorem readManifest_eq_ok {bytes : Bytes} {value : Manifest} :
    readManifest bytes = .ok value ↔ canonicalManifest value = .ok bytes := by
  rw [canonicalManifest_eq_ok]
  unfold readManifest
  simp only [bind_eq_ok, rejectIf_eq_ok, exists_const, decide_eq_false_iff_not, Nat.not_lt,
    reads_manifestFields.whole_eq_ok, manifestValid_eq_ok, pure_eq_ok]
  constructor
  · rintro ⟨_, read, ⟨_, _, _, _, digest, sized, spelled, rfl⟩, valid, rfl⟩
    exact ⟨valid, digest, sized, spelled, rfl⟩
  · rintro ⟨valid, digest, sized, spelled, rfl⟩
    exact ⟨manifestBytes_length valid sized, value,
      ⟨valid.version, asciiText_length valid.mediaType, asciiText_length valid.source,
        asciiText_length valid.license, digest, sized, spelled, rfl⟩, valid, rfl⟩

end Omniweft.Assets
