import Omniweft.Library.IteratedHash
import Omniweft.Assets

/-!
# The digest of the store and the assets

`persistence_io.cpp`, `sha256`: the message is padded with its length, and its blocks of 64
bytes are mixed into eight words one after another.
-/

namespace Omniweft.Sha256

open Omniweft.Outcome Grammar

/-- `std::rotr`. -/
def rotr (value : UInt32) (count : UInt32) : UInt32 :=
  value >>> count ||| value <<< (32 - count)

/-- The loop that shifts four bytes into a word. -/
def wordOf (data : Bytes) : UInt32 :=
  data.foldl (fun word byte => word <<< 8 ||| byte.toUInt32) 0

/-- The four bytes of a word, the highest first. -/
def bytesOf (word : UInt32) : Bytes :=
  [(word >>> 24).toUInt8, (word >>> 16).toUInt8, (word >>> 8).toUInt8, word.toUInt8]

/-- The table `k`. -/
def constants : List UInt32 :=
  [0x428a2f98, 0x71374491, 0xb5c0fbcf, 0xe9b5dba5, 0x3956c25b, 0x59f111f1, 0x923f82a4,
    0xab1c5ed5, 0xd807aa98, 0x12835b01, 0x243185be, 0x550c7dc3, 0x72be5d74, 0x80deb1fe,
    0x9bdc06a7, 0xc19bf174, 0xe49b69c1, 0xefbe4786, 0x0fc19dc6, 0x240ca1cc, 0x2de92c6f,
    0x4a7484aa, 0x5cb0a9dc, 0x76f988da, 0x983e5152, 0xa831c66d, 0xb00327c8, 0xbf597fc7,
    0xc6e00bf3, 0xd5a79147, 0x06ca6351, 0x14292967, 0x27b70a85, 0x2e1b2138, 0x4d2c6dfc,
    0x53380d13, 0x650a7354, 0x766a0abb, 0x81c2c92e, 0x92722c85, 0xa2bfe8a1, 0xa81a664b,
    0xc24b8b70, 0xc76c51a3, 0xd192e819, 0xd6990624, 0xf40e3585, 0x106aa070, 0x19a4c116,
    0x1e376c08, 0x2748774c, 0x34b0bcb5, 0x391c0cb3, 0x4ed8aa4a, 0x5b9cca4f, 0x682e6ff3,
    0x748f82ee, 0x78a5636f, 0x84c87814, 0x8cc70208, 0x90befffa, 0xa4506ceb, 0xbef9a3f7,
    0xc67178f2]

/-- The eight words, `h` of the source and `a` to `v` of its rounds. -/
structure Words where
  a : UInt32
  b : UInt32
  c : UInt32
  d : UInt32
  e : UInt32
  f : UInt32
  g : UInt32
  v : UInt32
  deriving DecidableEq, Repr

def initial : Words :=
  ⟨0x6a09e667, 0xbb67ae85, 0x3c6ef372, 0xa54ff53a, 0x510e527f, 0x9b05688c, 0x1f83d9ab,
    0x5be0cd19⟩

/-- One round of the loop that extends the sixteen words of a block. -/
def extend (words : List UInt32) : List UInt32 :=
  let at_ (back : Nat) := words.getD (words.length - back) 0
  let a := at_ 15
  let b := at_ 2
  words ++ [at_ 16 + (rotr a 7 ^^^ rotr a 18 ^^^ a >>> 3) + at_ 7 +
    (rotr b 17 ^^^ rotr b 19 ^^^ b >>> 10)]

/-- The sixty-four words `w` of a block. -/
def schedule (block : Bytes) : List UInt32 :=
  (extend^[48]) ((List.range 16).map fun index => wordOf ((block.drop (4 * index)).take 4))

/-- One round of the mixing. -/
def round (words : Words) (constant word : UInt32) : Words :=
  let t1 := words.v + (rotr words.e 6 ^^^ rotr words.e 11 ^^^ rotr words.e 25) +
    (words.e &&& words.f ^^^ ~~~words.e &&& words.g) + constant + word
  let t2 := (rotr words.a 2 ^^^ rotr words.a 13 ^^^ rotr words.a 22) +
    (words.a &&& words.b ^^^ words.a &&& words.c ^^^ words.b &&& words.c)
  ⟨t1 + t2, words.a, words.b, words.c, words.d + t1, words.e, words.f, words.g⟩

/-- The words after a block. -/
def compress (words : Words) (block : Bytes) : Words :=
  let mixed := (constants.zip (schedule block)).foldl
    (fun mixed pair => round mixed pair.1 pair.2) words
  ⟨words.a + mixed.a, words.b + mixed.b, words.c + mixed.c, words.d + mixed.d,
    words.e + mixed.e, words.f + mixed.f, words.g + mixed.g, words.v + mixed.v⟩

/-- The loop that fills the last block up to the length. -/
def fill : Nat → Bytes → Bytes
  | 0, data => data
  | fuel + 1, data => if data.length % 64 = 56 then data else fill fuel (data ++ [0])

/-- The length in bits, the highest byte first. -/
def lengthBytes (bits : Nat) : Bytes :=
  (List.range 8).map fun index => UInt8.ofNat (bits / 256 ^ (7 - index))

def pad (input : Bytes) : Bytes :=
  fill 64 (input ++ [0x80]) ++ lengthBytes (input.length * 8)

/-- The blocks that the loop takes one after another. -/
def messageBlocks (input : Bytes) : List Bytes := IteratedHash.blocks 64 (pad input)

def wordList (words : Words) : List UInt32 :=
  [words.a, words.b, words.c, words.d, words.e, words.f, words.g, words.v]

def output (words : Words) : Vector UInt8 32 :=
  ⟨((wordList words).flatMap bytesOf).toArray, rfl⟩

def digest (input : Bytes) : Vector UInt8 32 :=
  output ((messageBlocks input).foldl compress initial)

/-- The longest message whose length in bits fits its eight bytes. -/
def maximumLength : Nat := (2 ^ 64 - 1) / 8

def sha256 (input : Bytes) : Except Text (Vector UInt8 32) :=
  if maximumLength < input.length then .error (ascii "BUDGET_EXCEEDED") else .ok (digest input)

example : Assets.hex (digest (ascii "abc")).toList =
    ascii "ba7816bf8f01cfea414140de5dae2223b00361a396177a9cb410ff61f20015ad" := by
  decide +kernel

/-! ## The schedule by windows -/

/-- The word that follows a window of sixteen. -/
def upcoming (window : List UInt32) : UInt32 :=
  let a := window.getD 1 0
  let b := window.getD 14 0
  window.getD 0 0 + (rotr a 7 ^^^ rotr a 18 ^^^ a >>> 3) + window.getD 9 0 +
    (rotr b 17 ^^^ rotr b 19 ^^^ b >>> 10)

/-- The words that a window passes, and those that it ends on. -/
def slide : Nat → List UInt32 → List UInt32
  | _, [] => []
  | 0, window => window
  | count + 1, word :: rest => word :: slide count (rest ++ [upcoming (word :: rest)])

/-- `compress`, with a schedule that is not searched from its start for each word. -/
def compressWindows (words : Words) (block : Bytes) : Words :=
  let extended := slide 48
    ((List.range 16).map fun index => wordOf ((block.drop (4 * index)).take 4))
  let mixed := (constants.zip extended).foldl
    (fun mixed pair => round mixed pair.1 pair.2) words
  ⟨words.a + mixed.a, words.b + mixed.b, words.c + mixed.c, words.d + mixed.d,
    words.e + mixed.e, words.f + mixed.f, words.g + mixed.g, words.v + mixed.v⟩

theorem extend_window (front : List UInt32) {window : List UInt32}
    (sixteen : window.length = 16) :
    extend (front ++ window) = front ++ window ++ [upcoming window] := by
  have reads (back : Nat) (inside : back ≤ 16) :
      (front ++ window).getD ((front ++ window).length - back) 0 =
        window.getD (16 - back) 0 := by
    rw [List.length_append, sixteen, List.getD_append_right _ _ _ _ (by omega)]
    congr 1
    omega
  unfold extend upcoming
  dsimp only
  rw [reads 15 (by decide), reads 2 (by decide), reads 16 (by decide), reads 7 (by decide)]

theorem extend_slide : ∀ (count : Nat) (front window : List UInt32), window.length = 16 →
    (extend^[count]) (front ++ window) = front ++ slide count window := by
  intro count
  induction count with
  | zero =>
      intro front window _
      cases window with
      | nil => rfl
      | cons word rest => rfl
  | succ count inductionHypothesis =>
      intro front window sixteen
      cases window with
      | nil => cases sixteen
      | cons word rest =>
          have moved : front ++ word :: rest ++ [upcoming (word :: rest)] =
              (front ++ [word]) ++ (rest ++ [upcoming (word :: rest)]) := by
            simp
          have next : (rest ++ [upcoming (word :: rest)]).length = 16 := by
            rw [List.length_append, List.length_singleton]
            exact sixteen
          rw [Function.iterate_succ_apply, extend_window front sixteen, moved,
            inductionHypothesis _ _ next, slide, List.append_assoc, List.singleton_append]

/-- The digest, as it is evaluated faster. -/
theorem digest_eq :
    digest = fun input => output ((messageBlocks input).foldl compressWindows initial) := by
  have same : compress = compressWindows := by
    funext words block
    have windows : schedule block = slide 48
        ((List.range 16).map fun index => wordOf ((block.drop (4 * index)).take 4)) :=
      extend_slide 48 [] _ rfl
    rw [compress, windows, compressWindows]
  rw [← same]
  rfl

/-! ## Collisions -/

/-- The zeros that fill a message of the length. -/
def zeros (length : Nat) : Nat := (120 - length % 64) % 64

theorem fill_eq : ∀ (fuel : Nat) (data : Bytes), zeros data.length < fuel →
    fill fuel data = data ++ List.replicate (zeros data.length) 0 := by
  intro fuel
  induction fuel with
  | zero => exact fun _ enough => absurd enough (Nat.not_lt_zero _)
  | succ fuel inductionHypothesis =>
      intro data enough
      unfold zeros at enough
      rw [fill]
      by_cases full : data.length % 64 = 56
      · have none : zeros data.length = 0 := by
          rw [zeros, full]
        rw [if_pos full, none, List.replicate_zero, List.append_nil]
      · have length : (data ++ [(0 : UInt8)]).length = data.length + 1 := by
          rw [List.length_append, List.length_singleton]
        have fewer : zeros data.length = zeros (data ++ [(0 : UInt8)]).length + 1 := by
          rw [length]
          unfold zeros
          omega
        have rest := inductionHypothesis (data ++ [0]) (by
          unfold zeros at fewer ⊢
          omega)
        rw [if_neg full, rest, fewer, List.replicate_succ, List.append_assoc]
        rfl

/-- The part of a padded message before its length. -/
def body (input : Bytes) : Bytes :=
  input ++ 0x80 :: List.replicate (zeros (input.length + 1)) 0

theorem pad_eq (input : Bytes) : pad input = body input ++ lengthBytes (input.length * 8) := by
  have length : (input ++ [(0x80 : UInt8)]).length = input.length + 1 := by
    rw [List.length_append, List.length_singleton]
  have bounded : zeros (input ++ [(0x80 : UInt8)]).length < 64 := Nat.mod_lt _ (by decide)
  rw [pad, fill_eq 64 _ bounded, length, body, List.append_assoc input, List.singleton_append]

theorem body_length (input : Bytes) :
    (body input).length = input.length + 1 + zeros (input.length + 1) := by
  rw [body, List.length_append, List.length_cons, List.length_replicate]
  omega

theorem pad_length (input : Bytes) : 64 ∣ (pad input).length := by
  have bits : (lengthBytes (input.length * 8)).length = 8 := rfl
  rw [pad_eq, List.length_append, body_length, bits]
  unfold zeros
  omega

theorem lengthBytes_eq (bits : Nat) : lengthBytes bits = (littleEndian bits 8).reverse := by
  simp [lengthBytes, littleEndian, List.range_succ, Nat.div_div_eq_div_mul]

theorem lengthBytes_injective {left right : Nat} (leftSmall : left < 256 ^ 8)
    (rightSmall : right < 256 ^ 8) (same : lengthBytes left = lengthBytes right) :
    left = right := by
  rw [lengthBytes_eq, lengthBytes_eq, List.reverse_inj] at same
  rw [← fromLittleEndian_littleEndian leftSmall, same, fromLittleEndian_littleEndian rightSmall]

/-- No padded message ends another one. -/
theorem pad_suffix {left right : Bytes} (leftSmall : left.length ≤ maximumLength)
    (rightSmall : right.length ≤ maximumLength)
    (suffix : messageBlocks left <:+ messageBlocks right) :
    left = right := by
  obtain ⟨front, split⟩ := suffix
  have whole := congrArg List.flatten split
  rw [List.flatten_append, messageBlocks, messageBlocks,
    IteratedHash.flatten_blocks (pad_length left),
    IteratedHash.flatten_blocks (pad_length right)] at whole
  have ends : pad left <:+ pad right := ⟨front.flatten, whole⟩
  rw [pad_eq, pad_eq] at ends
  have sized : (lengthBytes (left.length * 8)).length = (lengthBytes (right.length * 8)).length :=
    rfl
  obtain ⟨bodies, lengths⟩ := (List.suffix_append_inj_of_length_eq sized).mp ends
  have maximum : maximumLength = 2305843009213693951 := rfl
  have bits := lengthBytes_injective (by omega) (by omega) lengths
  have sameLength : left.length = right.length := by omega
  have same : body left = body right := by
    refine bodies.eq_of_length ?_
    rw [body_length, body_length, sameLength]
  unfold body at same
  exact (List.append_inj same sameLength).1

theorem bytesOf_injective {left right : UInt32} (same : bytesOf left = bytesOf right) :
    left = right := by
  simp only [bytesOf, List.cons.injEq, and_true, ← UInt8.toNat_inj, UInt32.toNat_toUInt8,
    UInt32.toNat_shiftRight, UInt32.reduceToNat, Nat.reduceMod, Nat.shiftRight_eq_div_pow,
    Nat.reducePow] at same
  have leftSmall := left.toNat_lt
  have rightSmall := right.toNat_lt
  refine UInt32.toNat_inj.mp ?_
  omega

theorem bytes_injective : ∀ {left right : List UInt32},
    left.flatMap bytesOf = right.flatMap bytesOf → left = right := by
  intro left
  induction left with
  | nil =>
      intro right same
      cases right with
      | nil => rfl
      | cons word rest => cases same
  | cons word rest inductionHypothesis =>
      intro right same
      cases right with
      | nil => cases same
      | cons other more =>
          rw [List.flatMap_cons, List.flatMap_cons] at same
          obtain ⟨first, others⟩ := List.append_inj same rfl
          rw [bytesOf_injective first, inductionHypothesis others]

theorem output_injective {left right : Words} (same : output left = output right) :
    left = right := by
  have bytes := congrArg Vector.toList same
  change (wordList left).flatMap bytesOf = (wordList right).flatMap bytesOf at bytes
  have words := bytes_injective bytes
  cases left
  cases right
  simpa [wordList] using words

/-- Two messages have one digest only where the mixing, somewhere along their blocks, takes
two different inputs to one value. -/
theorem sha256_collision {left right : Bytes} {value : Vector UInt8 32}
    (leftDigest : sha256 left = .ok value) (rightDigest : sha256 right = .ok value) :
    left = right ∨
      IteratedHash.Meet compress initial (messageBlocks left) (messageBlocks right) := by
  have short {input : Bytes} (hashed : sha256 input = .ok value) :
      input.length ≤ maximumLength ∧ digest input = value := by
    unfold sha256 at hashed
    split at hashed
    · cases hashed
    · rename_i small
      exact ⟨Nat.not_lt.mp small, Except.ok.inj hashed⟩
  obtain ⟨leftSmall, rfl⟩ := short leftDigest
  obtain ⟨rightSmall, same⟩ := short rightDigest
  by_cases equal : left = right
  · exact Or.inl equal
  · refine Or.inr (IteratedHash.meet_of_fold initial ?_ ?_ (output_injective same.symm))
    · exact fun suffix => equal (pad_suffix leftSmall rightSmall suffix)
    · exact fun suffix => equal (pad_suffix rightSmall leftSmall suffix).symm

theorem sha256_collision_abc :
    ascii "abc" = ascii "abc" ∨
      IteratedHash.Meet compress initial (messageBlocks (ascii "abc"))
        (messageBlocks (ascii "abc")) :=
  @sha256_collision (ascii "abc") (ascii "abc") (digest (ascii "abc")) rfl rfl

end Omniweft.Sha256
