import Omniweft.Json
import Mathlib.Algebra.Order.Group.Unbundled.Int

/-!
# A concrete JSON library

A reader and a writer of compact JSON text without escapes, over a number type
whose values all have a short exact text. It is one library the results about
`JsonLibrary.Faithful` speak of.
-/

namespace Omniweft

/-- Saturating multiples of one half, up to a million halves. -/
structure Halves where
  halves : Int
  bounded : -1000000 ≤ halves ∧ halves ≤ 1000000
  deriving DecidableEq

namespace Halves

def saturate (halves : Int) : Halves :=
  ⟨max (-1000000) (min 1000000 halves), by omega⟩

instance : Scalar Halves where
  add left right := saturate (left.halves + right.halves)
  sub left right := saturate (left.halves - right.halves)
  mul left right := saturate (left.halves * right.halves / 2)
  div left right := saturate (2 * left.halves / right.halves)
  neg value := saturate (-value.halves)
  ofInt value := saturate (2 * value)
  half := saturate 1
  tolerance := saturate 0
  sqrt value := saturate (Nat.sqrt (2 * value.halves.toNat))
  abs value := saturate value.halves.natAbs
  eq left right := left.halves == right.halves
  lt left right := decide (left.halves < right.halves)
  isFinite _ := true
  bits value := UInt64.ofInt value.halves
  one_ne_zero := by decide

instance : Conversions Halves where
  narrow value := value
  largest := saturate 1000000
  floor value := saturate (value.halves / 2 * 2)
  toUnsigned value := UInt32.ofNat (value.halves / 2).toNat
  bitCast pattern := saturate (binary32 pattern / 2 ^ 149)

end Halves

namespace JsonText

def digitByte (value : UInt8) : Bool := 48 ≤ value && value ≤ 57

def number (digits : Text) : Nat :=
  digits.foldl (fun total digit => 10 * total + (digit.toNat - 48)) 0

private theorem digitChar_byte {digit : Nat} (small : digit < 10) :
    digitByte (UInt8.ofNat digit.digitChar.toNat) = true ∧
      (UInt8.ofNat digit.digitChar.toNat).toNat - 48 = digit := by
  interval_cases digit <;> decide

private theorem decimal_step (value : Nat) :
    decimal value =
      if value < 10 then [UInt8.ofNat value.digitChar.toNat]
      else decimal (value / 10) ++ [UInt8.ofNat (value % 10).digitChar.toNat] := by
  unfold decimal
  rw [Nat.toDigits_eq_if (by decide)]
  split
  · rfl
  · simp

theorem decimal_digits (value : Nat) :
    ∀ byte, byte ∈ decimal value → digitByte byte = true := by
  induction value using Nat.strongRecOn with
  | ind value inductionHypothesis =>
      rw [decimal_step]
      by_cases small : value < 10
      · simp only [small, if_true, List.mem_singleton, forall_eq]
        exact (digitChar_byte small).1
      · simp only [small, if_false, List.mem_append, List.mem_singleton]
        intro byte member
        rcases member with earlier | last
        · exact inductionHypothesis (value / 10) (by omega) byte earlier
        · exact last ▸ (digitChar_byte (Nat.mod_lt value (by decide))).1

theorem number_decimal (value : Nat) : number (decimal value) = value := by
  induction value using Nat.strongRecOn with
  | ind value inductionHypothesis =>
      rw [decimal_step]
      by_cases small : value < 10
      · simp only [small, if_true, number, List.foldl_cons, List.foldl_nil]
        have digit := (digitChar_byte small).2
        omega
      · have front := inductionHypothesis (value / 10) (by omega)
        have digit := (digitChar_byte (Nat.mod_lt value (by decide : 0 < 10))).2
        simp only [number] at front
        simp only [small, if_false, number, List.foldl_append, List.foldl_cons,
          List.foldl_nil, front, digit]
        omega

theorem decimal_ne_nil (value : Nat) : decimal value ≠ [] := by
  simp [decimal]

theorem decimal_length {value count : Nat} (positive : 0 < count)
    (fits : value < 10 ^ count) :
    (decimal value).length ≤ count := by
  rw [decimal, List.length_map]
  exact (Nat.length_toDigits_le_iff (by decide) positive).mpr fits

def signed (negative : Bool) (text : Text) : Text :=
  if negative then 45 :: text else text

def floatText (value : Halves) : Text :=
  signed (decide (value.halves < 0)) <|
    decimal (value.halves.natAbs / 2) ++
      [46, if value.halves.natAbs % 2 = 0 then 48 else 53]

def quoted (text : Text) : Text := 34 :: (text ++ [34])

mutual

def print : Json Halves → Text
  | .null => ascii "null"
  | .boolean true => ascii "true"
  | .boolean false => ascii "false"
  | .integer value => signed (decide (value < 0)) (decimal value.natAbs)
  | .unsigned value => decimal value.toNat
  | .float value => floatText value
  | .string text => quoted text
  | .array items => 91 :: (printItems items ++ [93])
  | .object entries => 123 :: (printEntries entries ++ [125])

def printItems : List (Json Halves) → Text
  | [] => []
  | item :: rest => print item ++ printMoreItems rest

def printMoreItems : List (Json Halves) → Text
  | [] => []
  | item :: rest => 44 :: (print item ++ printMoreItems rest)

def printEntries : List (Text × Json Halves) → Text
  | [] => []
  | (name, value) :: rest =>
      quoted name ++ 58 :: (print value ++ printMoreEntries rest)

def printMoreEntries : List (Text × Json Halves) → Text
  | [] => []
  | (name, value) :: rest =>
      44 :: (quoted name ++ 58 :: (print value ++ printMoreEntries rest))

end

/-- The value of a number token after its sign and digits: a fraction makes it
a float. -/
def numberToken (negative : Bool) (value : Nat) (rest : Text) :
    Option (Json Halves × Text) :=
  match rest with
  | 46 :: fraction :: rest =>
      let halves : Int := 2 * value + if fraction = 48 then 0 else 1
      some (.float (Halves.saturate (if negative then -halves else halves)), rest)
  | rest =>
      if negative then some (.integer (-value), rest)
      else some (.unsigned (UInt64.ofNat value), rest)

def readNumber (text : Text) : Option (Json Halves × Text) :=
  let negative := text.head? == some 45
  let body := if negative then text.tail else text
  let digits := body.takeWhile digitByte
  if digits.isEmpty then none
  else numberToken negative (number digits) (body.dropWhile digitByte)

/-- The rest of a string whose opening quote was read. -/
def readString (text : Text) : Option (Text × Text) :=
  match text.dropWhile (· != 34) with
  | [] => none
  | _ :: rest => some (text.takeWhile (· != 34), rest)

mutual

def readValue : Nat → Text → Option (Json Halves × Text)
  | 0, _ => none
  | fuel + 1, text =>
      match text with
      | 110 :: 117 :: 108 :: 108 :: rest => some (.null, rest)
      | 116 :: 114 :: 117 :: 101 :: rest => some (.boolean true, rest)
      | 102 :: 97 :: 108 :: 115 :: 101 :: rest => some (.boolean false, rest)
      | 34 :: rest => (readString rest).map fun (text, rest) => (.string text, rest)
      | 91 :: 93 :: rest => some (.array [], rest)
      | 91 :: rest => do
          let (item, rest) ← readValue fuel rest
          let (items, rest) ← readMoreItems fuel rest
          some (.array (item :: items), rest)
      | 123 :: 125 :: rest => some (.object [], rest)
      | 123 :: rest => do
          let (name, value, rest) ← readEntry fuel rest
          let (entries, rest) ← readMoreEntries fuel rest
          some (.object ((name, value) :: entries), rest)
      | text => readNumber text

def readMoreItems : Nat → Text → Option (List (Json Halves) × Text)
  | 0, _ => none
  | fuel + 1, text =>
      match text with
      | 93 :: rest => some ([], rest)
      | 44 :: rest => do
          let (item, rest) ← readValue fuel rest
          let (items, rest) ← readMoreItems fuel rest
          some (item :: items, rest)
      | _ => none

def readEntry : Nat → Text → Option (Text × Json Halves × Text)
  | 0, _ => none
  | fuel + 1, text =>
      match text with
      | 34 :: rest => do
          let (name, rest) ← readString rest
          match rest with
          | 58 :: rest => do
              let (value, rest) ← readValue fuel rest
              some (name, value, rest)
          | _ => none
      | _ => none

def readMoreEntries : Nat → Text → Option (List (Text × Json Halves) × Text)
  | 0, _ => none
  | fuel + 1, text =>
      match text with
      | 125 :: rest => some ([], rest)
      | 44 :: rest => do
          let (name, value, rest) ← readEntry fuel rest
          let (entries, rest) ← readMoreEntries fuel rest
          some ((name, value) :: entries, rest)
      | _ => none

end

def read (text : Text) : Option (Json Halves) :=
  match readValue (25 * text.length) text with
  | some (value, []) => some value
  | _ => none

/-- The library: compact text out, the same text in. -/
def library : JsonLibrary Halves where
  dump value := some (print value)
  events text :=
    match read text with
    | some value => value.saxEvents
    | none => [.parseError 101]
  document := read

/-- Text that can follow a value: no digit and no point. -/
def Ends (rest : Text) : Prop :=
  ∀ byte tail, rest = byte :: tail → digitByte byte = false ∧ byte ≠ 46

theorem ends_cons {byte : UInt8} (tail : Text) (notDigit : digitByte byte = false)
    (notPoint : byte ≠ 46) :
    Ends (byte :: tail) := by
  intro first rest same
  rw [List.cons.injEq] at same
  exact same.1 ▸ ⟨notDigit, notPoint⟩

theorem ends_nil : Ends [] := by
  intro byte tail same
  exact absurd same (by simp)

private theorem takeWhile_decimal {value : Nat} {rest : Text}
    (stops : ∀ byte tail, rest = byte :: tail → digitByte byte = false) :
    (decimal value ++ rest).takeWhile digitByte = decimal value ∧
      (decimal value ++ rest).dropWhile digitByte = rest := by
  have all := decimal_digits value
  rw [List.takeWhile_append_of_pos all, List.dropWhile_append_of_pos all]
  cases rest with
  | nil => simp
  | cons byte tail => simp [stops byte tail rfl]

private theorem decimal_head (value : Nat) (rest : Text) :
    ∃ byte tail, decimal value ++ rest = byte :: tail ∧ digitByte byte = true := by
  cases digits : decimal value with
  | nil => exact absurd digits (decimal_ne_nil value)
  | cons byte tail =>
      exact ⟨byte, tail ++ rest, rfl, decimal_digits value byte (by simp [digits])⟩

private theorem digit_ne_minus {byte : UInt8} (digit : digitByte byte = true) :
    byte ≠ 45 := by
  intro minus
  rw [minus] at digit
  exact absurd digit (by decide)

private theorem readNumber_signed {negative : Bool} {value : Nat} {rest : Text}
    (stops : ∀ byte tail, rest = byte :: tail → digitByte byte = false) :
    readNumber (signed negative (decimal value) ++ rest) =
      numberToken negative value rest := by
  obtain ⟨taken, dropped⟩ := @takeWhile_decimal value rest stops
  have someDigits : (decimal value).isEmpty = false := by
    simp [decimal_ne_nil]
  cases negative with
  | true =>
      simp only [readNumber, signed, if_true, List.cons_append, List.head?_cons,
        BEq.rfl, List.tail_cons, taken, dropped, someDigits, Bool.false_eq_true,
        if_false, number_decimal]
  | false =>
      obtain ⟨byte, tail, shape, digit⟩ := decimal_head value rest
      have notMinus : ((decimal value ++ rest).head? == some 45) = false := by
        simp [shape, digit_ne_minus digit]
      simp only [readNumber, signed, Bool.false_eq_true, if_false, notMinus, taken,
        dropped, someDigits, number_decimal]

private theorem numberToken_ends {rest : Text} (ends : Ends rest) (negative : Bool)
    (value : Nat) :
    numberToken negative value rest =
      if negative then some (.integer (-value), rest)
      else some (.unsigned (UInt64.ofNat value), rest) := by
  unfold numberToken
  split
  · rename_i fraction more
    exact absurd rfl (ends 46 (fraction :: more) rfl).2
  · rfl

private theorem readString_text {text rest : Text}
    (portable : text.all Json.printable = true) :
    readString (text ++ 34 :: rest) = some (text, rest) := by
  have noQuote : ∀ byte, byte ∈ text → (byte != 34) = true := by
    intro byte member
    have allowed := List.all_eq_true.mp portable byte member
    rw [bne_iff_ne]
    intro quote
    rw [quote] at allowed
    exact absurd allowed (by decide)
  have taken : (text ++ 34 :: rest).takeWhile (· != 34) = text := by
    rw [List.takeWhile_append_of_pos noQuote]
    simp
  have dropped : (text ++ 34 :: rest).dropWhile (· != 34) = 34 :: rest := by
    rw [List.dropWhile_append_of_pos noQuote]
    simp
  simp only [readString, taken, dropped]

/-- A value that starts like a number is read as one. -/
private theorem readValue_number {byte : UInt8} (tail : Text) (fuel : Nat)
    (starts : digitByte byte = true ∨ byte = 45) :
    readValue (fuel + 1) (byte :: tail) = readNumber (byte :: tail) := by
  unfold readValue
  split <;> simp_all [digitByte]

private theorem readValue_array {byte : UInt8} (tail : Text) (fuel : Nat)
    (notEnd : byte ≠ 93) :
    readValue (fuel + 1) (91 :: byte :: tail) =
      (readValue fuel (byte :: tail)).bind fun (item, rest) =>
        (readMoreItems fuel rest).bind fun (items, rest) =>
          some (.array (item :: items), rest) := by
  conv_lhs => unfold readValue
  split <;> simp_all

private theorem readValue_object (tail : Text) (fuel : Nat) :
    readValue (fuel + 1) (123 :: 34 :: tail) =
      (readEntry fuel (34 :: tail)).bind fun (name, value, rest) =>
        (readMoreEntries fuel rest).bind fun (entries, rest) =>
          some (.object ((name, value) :: entries), rest) := by
  conv_lhs => unfold readValue
  split <;> simp_all

private theorem print_head (value : Json Halves) (rest : Text) :
    ∃ byte tail, print value ++ rest = byte :: tail ∧ byte ≠ 93 := by
  have fromDecimal (negative : Bool) (number : Nat) (more : Text) :
      ∃ byte tail,
        signed negative (decimal number ++ more) ++ rest = byte :: tail ∧
          byte ≠ 93 := by
    cases negative with
    | true => exact ⟨45, _, rfl, by decide⟩
    | false =>
        obtain ⟨byte, tail, shape, digit⟩ := decimal_head number (more ++ rest)
        refine ⟨byte, tail, by simpa [signed] using shape, ?_⟩
        intro bracket
        rw [bracket] at digit
        exact absurd digit (by decide)
  cases value with
  | null => exact ⟨110, _, rfl, by decide⟩
  | boolean flag =>
      cases flag with
      | true => exact ⟨116, _, rfl, by decide⟩
      | false => exact ⟨102, _, rfl, by decide⟩
  | integer value =>
      simpa [print] using fromDecimal (decide (value < 0)) value.natAbs []
  | unsigned value => simpa [print, signed] using fromDecimal false value.toNat []
  | float value => exact fromDecimal _ _ _
  | string text => exact ⟨34, _, rfl, by decide⟩
  | array items => exact ⟨91, _, rfl, by decide⟩
  | object entries => exact ⟨123, _, rfl, by decide⟩

open Json

private theorem weight_pos (value : Json Halves) : 0 < value.weight := by
  cases value <;> simp [Json.weight]

private theorem halves_float (value : Halves) :
    Halves.saturate
        (if decide (value.halves < 0) then
          -(2 * ((value.halves.natAbs / 2 : Nat) : Int) +
            if (if value.halves.natAbs % 2 = 0 then (48 : UInt8) else 53) = 48 then 0
            else 1)
        else
          2 * ((value.halves.natAbs / 2 : Nat) : Int) +
            if (if value.halves.natAbs % 2 = 0 then (48 : UInt8) else 53) = 48 then 0
            else 1) = value := by
  obtain ⟨halves, bounded⟩ := value
  have parity :
      (if (if halves.natAbs % 2 = 0 then (48 : UInt8) else 53) = 48 then (0 : Int)
        else 1) = ((halves.natAbs % 2 : Nat) : Int) := by
    by_cases even : halves.natAbs % 2 = 0
    · simp [even]
    · have odd : halves.natAbs % 2 = 1 := by omega
      simp [odd]
  simp only [parity, Halves.saturate, Halves.mk.injEq, decide_eq_true_eq]
  split <;> omega

mutual

/-- What a portable value prints is read back, whatever ends it. -/
theorem readValue_print :
    ∀ (value : Json Halves) (rest : Text) (fuel : Nat),
      Portable value → Ends rest → value.weight ≤ fuel →
      readValue fuel (print value ++ rest) = some (value, rest)
  | value, rest, 0, _, _, enough => by
      have positive := weight_pos value
      omega
  | .null, rest, fuel + 1, _, _, _ => rfl
  | .boolean true, rest, fuel + 1, _, _, _ => rfl
  | .boolean false, rest, fuel + 1, _, _, _ => rfl
  | .integer value, rest, fuel + 1, portable, ends, _ => by
      have negative : value < 0 := by
        simp only [Portable] at portable
        exact portable.2
      have stops := fun byte tail same => (ends byte tail same).1
      have printed : print (.integer value) ++ rest =
          45 :: (decimal value.natAbs ++ rest) := by
        simp [print, signed, negative]
      have token := @readNumber_signed true value.natAbs rest stops
      simp only [signed, if_true, List.cons_append] at token
      have back : (-(value.natAbs : Int)) = value := by omega
      rw [printed, readValue_number _ _ (Or.inr rfl), token, numberToken_ends ends,
        back]
      rfl
  | .unsigned value, rest, fuel + 1, _, ends, _ => by
      have stops := fun byte tail same => (ends byte tail same).1
      obtain ⟨byte, tail, shape, digit⟩ := decimal_head value.toNat rest
      have token := @readNumber_signed false value.toNat rest stops
      simp only [signed, Bool.false_eq_true, if_false] at token
      have printed : print (.unsigned value) ++ rest = byte :: tail := by
        simpa [print] using shape
      rw [printed, readValue_number _ _ (Or.inl digit), ← shape, token,
        numberToken_ends ends]
      simp
  | .float value, rest, fuel + 1, _, _, _ => by
      let fraction : UInt8 := if value.halves.natAbs % 2 = 0 then 48 else 53
      have printed :
          print (.float value) ++ rest =
            signed (decide (value.halves < 0)) (decimal (value.halves.natAbs / 2)) ++
              46 :: fraction :: rest := by
        simp only [print, floatText, signed]
        split <;> simp [fraction]
      have token :=
        @readNumber_signed (decide (value.halves < 0)) (value.halves.natAbs / 2)
          (46 :: fraction :: rest) (by
            intro byte tail same
            rw [List.cons.injEq] at same
            exact same.1 ▸ by decide)
      obtain ⟨byte, tail, shape, starts⟩ :
          ∃ byte tail,
            signed (decide (value.halves < 0)) (decimal (value.halves.natAbs / 2)) ++
                46 :: fraction :: rest = byte :: tail ∧
              (digitByte byte = true ∨ byte = 45) := by
        cases decide (value.halves < 0) with
        | true => exact ⟨45, _, rfl, Or.inr rfl⟩
        | false =>
            obtain ⟨byte, tail, shape, digit⟩ :=
              decimal_head (value.halves.natAbs / 2) (46 :: fraction :: rest)
            exact ⟨byte, tail, shape, Or.inl digit⟩
      rw [printed, shape, readValue_number _ _ starts, ← shape, token]
      exact congrArg (fun value => some (Json.float value, rest)) (halves_float value)
  | .string text, rest, fuel + 1, portable, _, _ => by
      have letters : text.all printable = true := by
        simpa only [Portable] using portable
      have printed :
          print (.string text) ++ rest = 34 :: (text ++ 34 :: rest) := by
        simp [print, quoted]
      rw [printed]
      simp [readValue, readString_text letters]
  | .array [], rest, fuel + 1, _, _, _ => rfl
  | .array (item :: items), rest, fuel + 1, portable, _, enough => by
      have parts : Portable item ∧ PortableItems items := by
        simpa only [Portable, PortableItems] using portable
      simp only [Json.weight, weightItems] at enough
      have printed :
          print (.array (item :: items)) ++ rest =
            91 :: (print item ++ (printMoreItems items ++ 93 :: rest)) := by
        simp [print, printItems]
      obtain ⟨byte, tail, shape, notEnd⟩ :=
        print_head item (printMoreItems items ++ 93 :: rest)
      have ends : Ends (printMoreItems items ++ 93 :: rest) := by
        cases items with
        | nil => exact ends_cons _ (by decide) (by decide)
        | cons next others => exact ends_cons _ (by decide) (by decide)
      rw [printed, shape, readValue_array _ _ notEnd, ← shape,
        readValue_print item _ fuel parts.1 ends (by omega)]
      simp [readMoreItems_print items rest fuel parts.2 (by omega)]
  | .object [], rest, fuel + 1, _, _, _ => rfl
  | .object ((name, value) :: entries), rest, fuel + 1, portable, _, enough => by
      have parts :
          name.all printable = true ∧ Portable value ∧ PortableEntries entries := by
        have both := portable
        simp only [Portable, PortableEntries] at both
        exact both.2
      simp only [Json.weight, weightEntries] at enough
      have printed :
          print (.object ((name, value) :: entries)) ++ rest =
            123 :: (quoted name ++ 58 ::
              (print value ++ (printMoreEntries entries ++ 125 :: rest))) := by
        simp [print, printEntries]
      rw [printed, quoted, List.cons_append, readValue_object, ← List.cons_append,
        ← quoted,
        readEntry_print name value entries rest fuel parts.1 parts.2.1 (by omega)]
      simp [readMoreEntries_print entries rest fuel parts.2.2 (by omega)]

theorem readMoreItems_print :
    ∀ (items : List (Json Halves)) (rest : Text) (fuel : Nat),
      PortableItems items → weightItems items + 1 ≤ fuel →
      readMoreItems fuel (printMoreItems items ++ 93 :: rest) = some (items, rest)
  | items, rest, 0, _, enough => by omega
  | [], rest, fuel + 1, _, _ => rfl
  | item :: items, rest, fuel + 1, portable, enough => by
      have parts : Portable item ∧ PortableItems items := by
        simpa only [PortableItems] using portable
      simp only [weightItems] at enough
      have printed :
          printMoreItems (item :: items) ++ 93 :: rest =
            44 :: (print item ++ (printMoreItems items ++ 93 :: rest)) := by
        simp [printMoreItems]
      have ends : Ends (printMoreItems items ++ 93 :: rest) := by
        cases items with
        | nil => exact ends_cons _ (by decide) (by decide)
        | cons next others => exact ends_cons _ (by decide) (by decide)
      rw [printed]
      simp [readMoreItems, readValue_print item _ fuel parts.1 ends (by omega),
        readMoreItems_print items rest fuel parts.2 (by omega)]

theorem readEntry_print :
    ∀ (name : Text) (value : Json Halves) (entries : List (Text × Json Halves))
      (rest : Text) (fuel : Nat),
      name.all printable = true → Portable value → value.weight + 1 ≤ fuel →
      readEntry fuel
          (quoted name ++ 58 :: (print value ++ (printMoreEntries entries ++
            125 :: rest))) =
        some (name, value, printMoreEntries entries ++ 125 :: rest)
  | name, value, entries, rest, 0, _, _, enough => by omega
  | name, value, entries, rest, fuel + 1, letters, portable, enough => by
      have ends : Ends (printMoreEntries entries ++ 125 :: rest) := by
        cases entries with
        | nil => exact ends_cons _ (by decide) (by decide)
        | cons next others => exact ends_cons _ (by decide) (by decide)
      have shape (more : Text) :
          quoted name ++ 58 :: more = 34 :: (name ++ 34 :: 58 :: more) := by
        simp [quoted]
      rw [shape]
      simp [readEntry, readString_text letters,
        readValue_print value _ fuel portable ends (by omega)]

theorem readMoreEntries_print :
    ∀ (entries : List (Text × Json Halves)) (rest : Text) (fuel : Nat),
      PortableEntries entries → weightEntries entries + 1 ≤ fuel →
      readMoreEntries fuel (printMoreEntries entries ++ 125 :: rest) =
        some (entries, rest)
  | entries, rest, 0, _, enough => by omega
  | [], rest, fuel + 1, _, _ => rfl
  | (name, value) :: entries, rest, fuel + 1, portable, enough => by
      have parts :
          name.all printable = true ∧ Portable value ∧ PortableEntries entries := by
        simpa only [PortableEntries] using portable
      simp only [weightEntries] at enough
      have printed :
          printMoreEntries ((name, value) :: entries) ++ 125 :: rest =
            44 :: (quoted name ++ 58 ::
              (print value ++ (printMoreEntries entries ++ 125 :: rest))) := by
        simp [printMoreEntries]
      rw [printed]
      simp [readMoreEntries,
        readEntry_print name value entries rest fuel parts.1 parts.2.1 (by omega),
        readMoreEntries_print entries rest fuel parts.2.2 (by omega)]

end

/-- The text of a value against its weight, and free of NUL. -/
structure Sized (text : Text) (weight slack : Nat) : Prop where
  short : text.length ≤ weight
  long : weight ≤ 25 * text.length + slack
  clean : 0 ∉ text

private theorem decimal_clean (value : Nat) : 0 ∉ decimal value := by
  intro member
  exact absurd (decimal_digits value 0 member) (by decide)

private theorem decimal_pos (value : Nat) : 0 < (decimal value).length :=
  List.length_pos_of_ne_nil (decimal_ne_nil value)

private theorem signed_sized {negative : Bool} {text : Text} {count : Nat}
    (nonempty : 0 < text.length) (short : text.length + 1 ≤ count) (clean : 0 ∉ text)
    (small : count ≤ 25) :
    Sized (signed negative text) count 0 := by
  cases negative with
  | true =>
      refine ⟨by simpa [signed] using short, ?_, by simp [signed, clean]⟩
      simp only [signed, if_true, List.length_cons]
      omega
  | false =>
      refine ⟨?_, ?_, by simpa [signed] using clean⟩
      · simp only [signed, Bool.false_eq_true, if_false]
        omega
      · simp only [signed, Bool.false_eq_true, if_false]
        omega

private theorem letters_clean {text : Text} (letters : text.all printable = true) :
    0 ∉ text := by
  intro member
  exact absurd (List.all_eq_true.mp letters 0 member) (by decide)

mutual

theorem print_sized :
    ∀ value : Json Halves, Portable value → Sized (print value) value.weight 0
  | .null, _ => ⟨by decide, by decide, by decide⟩
  | .boolean true, _ => ⟨by decide, by decide, by decide⟩
  | .boolean false, _ => ⟨by decide, by decide, by decide⟩
  | .integer value, portable => by
      simp only [Portable] at portable
      have short := @decimal_length value.natAbs 19 (by decide) (by omega)
      exact @signed_sized _ _ 20 (decimal_pos _) (by omega) (decimal_clean _) (by decide)
  | .unsigned value, _ => by
      have fits := value.toNat_lt
      have short := @decimal_length value.toNat 20 (by decide) (by omega)
      have long := decimal_pos value.toNat
      exact ⟨short, by simp only [print, Json.weight]; omega, decimal_clean _⟩
  | .float value, _ => by
      have bounded := value.bounded
      have short := @decimal_length (value.halves.natAbs / 2) 7 (by decide) (by omega)
      refine @signed_sized _ _ 25 (by simp) ?_ ?_ (by decide)
      · simp only [List.length_append, List.length_cons, List.length_nil]
        omega
      · have clean := decimal_clean (value.halves.natAbs / 2)
        simp only [List.mem_append, List.mem_cons, List.not_mem_nil, or_false, not_or]
        refine ⟨clean, by decide, ?_⟩
        split <;> decide
  | .string text, portable => by
      have letters : text.all printable = true := by
        simpa only [Portable] using portable
      have clean := letters_clean letters
      refine ⟨?_, ?_, ?_⟩
      · simp [print, quoted, Json.weight]
      · simp only [print, quoted, Json.weight, List.length_cons, List.length_append,
          List.length_nil]
        omega
      · simp [print, quoted, clean]
  | .array items, portable => by
      have inner := printItems_sized items (by simpa only [Portable] using portable)
      have short := inner.short
      have long := inner.long
      have clean := inner.clean
      refine ⟨?_, ?_, by simp [print, clean]⟩
      · simp only [print, Json.weight, List.length_cons, List.length_append,
          List.length_nil]
        omega
      · simp only [print, Json.weight, List.length_cons, List.length_append,
          List.length_nil]
        omega
  | .object entries, portable => by
      have parts : (keys entries).Nodup ∧ PortableEntries entries := by
        simpa only [Portable] using portable
      have inner := printEntries_sized entries parts.2
      have short := inner.short
      have long := inner.long
      have clean := inner.clean
      refine ⟨?_, ?_, by simp [print, clean]⟩
      · simp only [print, Json.weight, List.length_cons, List.length_append,
          List.length_nil]
        omega
      · simp only [print, Json.weight, List.length_cons, List.length_append,
          List.length_nil]
        omega

theorem printItems_sized :
    ∀ items : List (Json Halves),
      PortableItems items → Sized (printItems items) (weightItems items) 1
  | [], _ => ⟨by decide, by decide, by decide⟩
  | item :: rest, portable => by
      have parts : Portable item ∧ PortableItems rest := by
        simpa only [PortableItems] using portable
      obtain ⟨short, long, clean⟩ := print_sized item parts.1
      obtain ⟨restShort, restLong, restClean⟩ := printMoreItems_sized rest parts.2
      refine ⟨?_, ?_, by simp [printItems, clean, restClean]⟩
      · simp only [printItems, weightItems, List.length_append]
        omega
      · simp only [printItems, weightItems, List.length_append]
        omega

theorem printMoreItems_sized :
    ∀ items : List (Json Halves),
      PortableItems items → Sized (printMoreItems items) (weightItems items) 0
  | [], _ => ⟨by decide, by decide, by decide⟩
  | item :: rest, portable => by
      have parts : Portable item ∧ PortableItems rest := by
        simpa only [PortableItems] using portable
      obtain ⟨short, long, clean⟩ := print_sized item parts.1
      obtain ⟨restShort, restLong, restClean⟩ := printMoreItems_sized rest parts.2
      refine ⟨?_, ?_, by simp [printMoreItems, clean, restClean]⟩
      · simp only [printMoreItems, weightItems, List.length_cons, List.length_append]
        omega
      · simp only [printMoreItems, weightItems, List.length_cons, List.length_append]
        omega

theorem printEntries_sized :
    ∀ entries : List (Text × Json Halves),
      PortableEntries entries → Sized (printEntries entries) (weightEntries entries) 1
  | [], _ => ⟨by decide, by decide, by decide⟩
  | (name, value) :: rest, portable => by
      have parts :
          name.all printable = true ∧ Portable value ∧ PortableEntries rest := by
        simpa only [PortableEntries] using portable
      obtain ⟨short, long, clean⟩ := print_sized value parts.2.1
      obtain ⟨restShort, restLong, restClean⟩ := printMoreEntries_sized rest parts.2.2
      have nameClean := letters_clean parts.1
      refine ⟨?_, ?_, by simp [printEntries, quoted, clean, restClean, nameClean]⟩
      · simp only [printEntries, quoted, weightEntries, List.length_cons,
          List.length_append, List.length_nil]
        omega
      · simp only [printEntries, quoted, weightEntries, List.length_cons,
          List.length_append, List.length_nil]
        omega

theorem printMoreEntries_sized :
    ∀ entries : List (Text × Json Halves),
      PortableEntries entries → Sized (printMoreEntries entries) (weightEntries entries) 0
  | [], _ => ⟨by decide, by decide, by decide⟩
  | (name, value) :: rest, portable => by
      have parts :
          name.all printable = true ∧ Portable value ∧ PortableEntries rest := by
        simpa only [PortableEntries] using portable
      obtain ⟨short, long, clean⟩ := print_sized value parts.2.1
      obtain ⟨restShort, restLong, restClean⟩ := printMoreEntries_sized rest parts.2.2
      have nameClean := letters_clean parts.1
      refine ⟨?_, ?_, by simp [printMoreEntries, quoted, clean, restClean, nameClean]⟩
      · simp only [printMoreEntries, quoted, weightEntries, List.length_cons,
          List.length_append, List.length_nil]
        omega
      · simp only [printMoreEntries, quoted, weightEntries, List.length_cons,
          List.length_append, List.length_nil]
        omega

end

theorem read_print {value : Json Halves} (portable : Portable value) :
    read (print value) = some value := by
  have enough := (print_sized value portable).long
  have back := readValue_print value [] (25 * (print value).length) portable ends_nil enough
  rw [List.append_nil] at back
  simp [read, back]

theorem library_roundTrip {value : Json Halves} (portable : Portable value) :
    ∃ bytes,
      library.dump value = some bytes ∧ bytes.length ≤ value.weight ∧ 0 ∉ bytes ∧
        library.events bytes = value.saxEvents ∧ library.document bytes = some value := by
  obtain ⟨short, _, clean⟩ := print_sized value portable
  refine ⟨print value, rfl, short, clean, ?_, read_print portable⟩
  simp [library, read_print portable]

/-- This library does what the codec relies on. -/
theorem library_faithful : library.Faithful where
  roundTrip value plain _ :=
    library_roundTrip (Plain.portable _ _ (fun _ finite => finite) value plain)

end JsonText
end Omniweft
