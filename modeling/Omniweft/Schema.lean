import Omniweft.Json

/-!
# JSON Schema

The keywords that the published schemas use: types, `const`, `enum`, anchored
patterns, ranges, closed objects, item rules and `oneOf`. `valid` is what a
schema says of a value; `tokens` is the extra reading of the schema's comment,
by which an integer field holds an unsigned integer token.
-/

namespace Omniweft

namespace Json

variable {α : Type} [Scalar α]

mutual

/-- Equality of JSON values. Numbers are compared as numbers; the entries of an
object stand in key order. -/
def same : Json α → Json α → Bool
  | .null, .null => true
  | .boolean left, .boolean right => left == right
  | .string left, .string right => left == right
  | .array left, .array right => sameItems left right
  | .object left, .object right => sameEntries left right
  | left, right =>
      match left.numeral, right.numeral with
      | some left, some right => Scalar.eq left right
      | _, _ => false

def sameItems : List (Json α) → List (Json α) → Bool
  | [], [] => true
  | left :: lefts, right :: rights => same left right && sameItems lefts rights
  | _, _ => false

def sameEntries : List (Text × Json α) → List (Text × Json α) → Bool
  | [], [] => true
  | (leftKey, left) :: lefts, (rightKey, right) :: rights =>
      leftKey == rightKey && same left right && sameEntries lefts rights
  | _, _ => false

end

/-- `uniqueItems`. -/
def distinct : List (Json α) → Bool
  | [] => true
  | item :: rest => rest.all (fun other => !same item other) && distinct rest

end Json

/-- A character class of a pattern and how often it may stand in a row. -/
structure Piece where
  ranges : List (UInt8 × UInt8)
  minimum : Nat
  maximum : Nat

def inRanges (ranges : List (UInt8 × UInt8)) (character : UInt8) : Bool :=
  ranges.any fun range => range.1 ≤ character && character ≤ range.2

/-- The pieces of an anchored pattern match the whole text. -/
def matchesPattern : List Piece → Text → Bool
  | [], text => text.isEmpty
  | piece :: rest, text =>
      (List.range (text.length + 1)).any fun size =>
        decide (piece.minimum ≤ size) && decide (size ≤ piece.maximum) &&
          (text.take size).all (inRanges piece.ranges) &&
          matchesPattern rest (text.drop size)

/-- A schema. Objects are closed: `additionalProperties` is false. -/
inductive Schema (α : Type) where
  | null
  | const (literal : Text)
  | enum (literals : List Text)
  | pattern (pieces : List Piece)
  | integer (minimum maximum : Int)
  | number (minimum maximum : α)
  | array (minItems maxItems : Nat) (uniqueItems : Bool) (items : Schema α)
  | object (required : List Text) (properties : List (Text × Schema α))
  | oneOf (alternatives : List (Schema α))

namespace Schema

variable {α : Type} [Scalar α]

/-- The integer that a number is: `integral` tells it of a double. -/
def integer? (integral : α → Option Int) : Json α → Option Int
  | .unsigned token => some token.toNat
  | .integer token => some token
  | .float token => integral token
  | _ => none

mutual

/-- The value is valid under the schema. -/
def valid (integral : α → Option Int) : Schema α → Json α → Bool
  | .null, value =>
      match value with
      | .null => true
      | _ => false
  | .const literal, value =>
      match value with
      | .string text => text == literal
      | _ => false
  | .enum literals, value =>
      match value with
      | .string text => literals.contains text
      | _ => false
  | .pattern pieces, value =>
      match value with
      | .string text => matchesPattern pieces text
      | _ => false
  | .integer minimum maximum, value =>
      match integer? integral value with
      | some held => decide (minimum ≤ held) && decide (held ≤ maximum)
      | none => false
  | .number minimum maximum, value =>
      match value.numeral with
      | some held => !Scalar.lt held minimum && !Scalar.lt maximum held
      | none => false
  | .array minItems maxItems uniqueItems items, value =>
      match value with
      | .array values =>
          decide (minItems ≤ values.length) && decide (values.length ≤ maxItems) &&
            values.all (valid integral items) && (!uniqueItems || Json.distinct values)
      | _ => false
  | .object required properties, value =>
      match value with
      | .object entries =>
          required.all (Json.keys entries).contains &&
            (Json.keys entries).all (properties.map Prod.fst).contains &&
            validProperties integral properties value
      | _ => false
  | .oneOf alternatives, value => validCount integral alternatives value == 1

/-- Every property that the value has is valid. -/
def validProperties (integral : α → Option Int) :
    List (Text × Schema α) → Json α → Bool
  | [], _ => true
  | (name, schema) :: rest, value =>
      (!value.contains name || valid integral schema (value.member name)) &&
        validProperties integral rest value

/-- How many of the alternatives the value is valid under. -/
def validCount (integral : α → Option Int) : List (Schema α) → Json α → Nat
  | [], _ => 0
  | schema :: rest, value =>
      (if valid integral schema value then 1 else 0) + validCount integral rest value

end

mutual

/-- Every integer field that the schema describes is an unsigned integer token. -/
def tokens (integral : α → Option Int) : Schema α → Json α → Bool
  | .integer _ _, value =>
      match value with
      | .unsigned _ => true
      | _ => false
  | .array _ _ _ items, value =>
      match value with
      | .array values => values.all (tokens integral items)
      | _ => true
  | .object _ properties, value => tokenProperties integral properties value
  | .oneOf alternatives, value => tokenAlternatives integral alternatives value
  | _, _ => true

def tokenProperties (integral : α → Option Int) :
    List (Text × Schema α) → Json α → Bool
  | [], _ => true
  | (name, schema) :: rest, value =>
      (!value.contains name || tokens integral schema (value.member name)) &&
        tokenProperties integral rest value

/-- The alternative that the value is valid under describes its fields. -/
def tokenAlternatives (integral : α → Option Int) : List (Schema α) → Json α → Bool
  | [], _ => true
  | schema :: rest, value =>
      (!valid integral schema value || tokens integral schema value) &&
        tokenAlternatives integral rest value

end

/-- Valid, with unsigned tokens for the integers. -/
def Accepts (integral : α → Option Int) (schema : Schema α) (value : Json α) : Prop :=
  valid integral schema value = true ∧ tokens integral schema value = true

variable {integral : α → Option Int} {value : Json α}

section Leaves

attribute [local simp] Accepts valid tokens

theorem accepts_pattern {pieces : List Piece} :
    Accepts integral (.pattern pieces) value ↔
      ∃ text, value = .string text ∧ matchesPattern pieces text = true := by
  cases value <;> simp

theorem valid_const {literal : Text} :
    valid integral (.const literal) value = true ↔ value = .string literal := by
  cases value <;> simp

theorem accepts_const {literal : Text} :
    Accepts integral (.const literal) value ↔ value = .string literal := by
  cases value <;> simp

theorem accepts_enum {literals : List Text} :
    Accepts integral (.enum literals) value ↔
      ∃ text ∈ literals, value = .string text := by
  cases value <;> simp

theorem accepts_null : Accepts integral .null value ↔ value = .null := by
  cases value <;> simp

theorem accepts_integer {minimum maximum : Int} :
    Accepts integral (.integer minimum maximum) value ↔
      ∃ token : UInt64, value = .unsigned token ∧ minimum ≤ token.toNat ∧
        token.toNat ≤ maximum := by
  cases value <;> simp [integer?]

theorem accepts_number {minimum maximum : α} :
    Accepts integral (.number minimum maximum) value ↔
      ∃ held, value.numeral = some held ∧ Scalar.lt held minimum = false ∧
        Scalar.lt maximum held = false := by
  cases value <;> simp [Json.numeral]

end Leaves

theorem validProperties_eq_true {properties : List (Text × Schema α)} :
    validProperties integral properties value = true ↔
      ∀ entry ∈ properties, value.contains entry.1 = true →
        valid integral entry.2 (value.member entry.1) = true := by
  induction properties with
  | nil => simp [validProperties]
  | cons entry rest inductionHypothesis =>
      simp only [validProperties, Bool.and_eq_true, Bool.or_eq_true,
        Bool.not_eq_true', inductionHypothesis, List.forall_mem_cons]
      refine and_congr_left' ?_
      cases value.contains entry.1 <;> simp

theorem tokenProperties_eq_true {properties : List (Text × Schema α)} :
    tokenProperties integral properties value = true ↔
      ∀ entry ∈ properties, value.contains entry.1 = true →
        tokens integral entry.2 (value.member entry.1) = true := by
  induction properties with
  | nil => simp [tokenProperties]
  | cons entry rest inductionHypothesis =>
      simp only [tokenProperties, Bool.and_eq_true, Bool.or_eq_true,
        Bool.not_eq_true', inductionHypothesis, List.forall_mem_cons]
      refine and_congr_left' ?_
      cases value.contains entry.1 <;> simp

theorem valid_object {required : List Text} {properties : List (Text × Schema α)}
    (all : properties.map Prod.fst = required) :
    valid integral (.object required properties) value = true ↔
      Json.Closed required value ∧
        ∀ entry ∈ properties, valid integral entry.2 (value.member entry.1) = true := by
  subst all
  constructor
  · intro isValid
    cases value with
    | object entries =>
        simp only [valid, Bool.and_eq_true, List.all_eq_true, List.contains_eq_mem,
          decide_eq_true_eq] at isValid
        obtain ⟨⟨required, closed⟩, properly⟩ := isValid
        refine ⟨⟨entries, rfl, closed, required⟩, ?_⟩
        intro entry found
        refine validProperties_eq_true.mp properly entry found ?_
        simpa [Json.contains] using required entry.1 (List.mem_map_of_mem found)
    | _ => simp [valid] at isValid
  · intro both
    obtain ⟨⟨entries, rfl, closed, required⟩, each⟩ := both
    simp only [valid, Bool.and_eq_true, List.all_eq_true, List.contains_eq_mem,
      decide_eq_true_eq]
    exact ⟨⟨required, closed⟩,
      validProperties_eq_true.mpr fun entry found _ => each entry found⟩

theorem valid_closed {required : List Text} {properties : List (Text × Schema α)}
    (isValid : valid integral (.object required properties) value = true)
    (all : properties.map Prod.fst = required) : Json.Closed required value :=
  ((valid_object all).mp isValid).1

/-- An object that requires all its properties. -/
theorem accepts_object {required : List Text} {properties : List (Text × Schema α)}
    (all : properties.map Prod.fst = required) :
    Accepts integral (.object required properties) value ↔
      Json.Closed required value ∧
        ∀ entry ∈ properties, Accepts integral entry.2 (value.member entry.1) := by
  subst all
  constructor
  · intro accepted
    obtain ⟨isValid, token⟩ := accepted
    obtain ⟨closed, each⟩ := (valid_object rfl).mp isValid
    refine ⟨closed, fun entry found => ⟨each entry found, ?_⟩⟩
    exact tokenProperties_eq_true.mp token entry found
      ((closed.contains entry.1).mpr (List.mem_map_of_mem found))
  · intro both
    obtain ⟨closed, each⟩ := both
    exact ⟨(valid_object rfl).mpr ⟨closed, fun entry found => (each entry found).1⟩,
      tokenProperties_eq_true.mpr fun entry found _ => (each entry found).2⟩

/-- Alternatives of which no two hold together. -/
theorem accepts_oneOf {alternatives : List (Schema α)}
    (exclusive : alternatives.Pairwise fun left right =>
      ¬ (valid integral left value = true ∧ valid integral right value = true)) :
    Accepts integral (.oneOf alternatives) value ↔
      ∃ schema ∈ alternatives, Accepts integral schema value := by
  have none {schemas : List (Schema α)}
      (refused : ∀ schema ∈ schemas, valid integral schema value = false) :
      validCount integral schemas value = 0 ∧
        tokenAlternatives integral schemas value = true := by
    induction schemas with
    | nil => exact ⟨rfl, rfl⟩
    | cons schema rest inductionHypothesis =>
        have here := refused schema List.mem_cons_self
        have later := inductionHypothesis fun other found =>
          refused other (List.mem_cons_of_mem _ found)
        simp [validCount, tokenAlternatives, here, later]
  simp only [Accepts, valid, tokens, beq_iff_eq]
  induction alternatives with
  | nil => simp [validCount]
  | cons schema rest inductionHypothesis =>
      obtain ⟨apart, others⟩ := List.pairwise_cons.mp exclusive
      by_cases here : valid integral schema value = true
      · have refused : ∀ other ∈ rest, valid integral other value = false := by
          intro other found
          rw [← Bool.not_eq_true]
          exact fun also => apart other found ⟨here, also⟩
        obtain ⟨count, token⟩ := none refused
        simp only [validCount, here, if_true, count, tokenAlternatives, token,
          Bool.not_true, Bool.false_or, Bool.and_true, List.exists_mem_cons_iff]
        constructor
        · intro both
          exact Or.inl ⟨trivial, both.2⟩
        · intro either
          rcases either with both | later
          · exact ⟨trivial, both.2⟩
          · obtain ⟨other, found, both⟩ := later
            exact absurd both.1 (by simp [refused other found])
      · simp [validCount, here, tokenAlternatives, inductionHypothesis others]

theorem accepts_array {minItems maxItems : Nat} {uniqueItems : Bool} {items : Schema α} :
    Accepts integral (.array minItems maxItems uniqueItems items) value ↔
      ∃ values, value = .array values ∧ minItems ≤ values.length ∧
        values.length ≤ maxItems ∧ (uniqueItems = true → Json.distinct values = true) ∧
        ∀ item ∈ values, Accepts integral items item := by
  cases value with
  | array values =>
      simp only [Accepts, valid, tokens, Bool.and_eq_true, decide_eq_true_eq,
        List.all_eq_true, Bool.or_eq_true, Bool.not_eq_true', Json.array.injEq,
        exists_eq_left']
      cases uniqueItems <;> simp <;> grind
  | _ => simp [Accepts, valid]

/-- Strings are distinct when their texts are. -/
theorem distinct_strings {texts : List Text} :
    Json.distinct (texts.map Json.string : List (Json α)) = true ↔ texts.Nodup := by
  induction texts with
  | nil => simp [Json.distinct]
  | cons text rest inductionHypothesis =>
      simp only [List.map_cons, Json.distinct, Bool.and_eq_true, List.all_eq_true,
        List.mem_map, inductionHypothesis, List.nodup_cons]
      refine and_congr_left' ?_
      constructor
      · intro apart found
        have differs := apart (.string text) ⟨text, found, rfl⟩
        simp [Json.same] at differs
      · intro absent other found
        obtain ⟨label, member, rfl⟩ := found
        have different : text ≠ label := fun same => absent (same ▸ member)
        simp [Json.same, different]

end Schema

/-- A class with a fixed count matches that many characters. -/
theorem matchesPattern_fixed {ranges : List (UInt8 × UInt8)} {count : Nat}
    {rest : List Piece} {text : Text} :
    matchesPattern (⟨ranges, count, count⟩ :: rest) text = true ↔
      count ≤ text.length ∧ (text.take count).all (inRanges ranges) = true ∧
        matchesPattern rest (text.drop count) = true := by
  simp only [matchesPattern, List.any_eq_true, List.mem_range, Bool.and_eq_true,
    decide_eq_true_eq]
  constructor
  · intro found
    obtain ⟨size, within, ⟨⟨low, high⟩, all⟩, later⟩ := found
    have same : size = count := Nat.le_antisymm high low
    subst same
    exact ⟨by omega, all, later⟩
  · intro both
    obtain ⟨within, all, later⟩ := both
    exact ⟨count, by omega, ⟨⟨Nat.le_refl _, Nat.le_refl _⟩, all⟩, later⟩

/-- A last class matches all the characters that remain. -/
theorem matchesPattern_last {piece : Piece} {text : Text} :
    matchesPattern [piece] text = true ↔
      piece.minimum ≤ text.length ∧ text.length ≤ piece.maximum ∧
        text.all (inRanges piece.ranges) = true := by
  simp only [matchesPattern, List.any_eq_true, List.mem_range, Bool.and_eq_true,
    decide_eq_true_eq, List.isEmpty_iff, List.drop_eq_nil_iff]
  constructor
  · intro found
    obtain ⟨size, within, ⟨⟨low, high⟩, all⟩, done⟩ := found
    have same : size = text.length := by omega
    subst same
    rw [List.take_length] at all
    exact ⟨low, high, all⟩
  · intro both
    obtain ⟨low, high, all⟩ := both
    exact ⟨text.length, by omega, ⟨⟨low, high⟩, by rwa [List.take_length]⟩,
      Nat.le_refl _⟩

/-- The classes of a pattern of fixed counts, one for each character. -/
def expand (pieces : List Piece) : List (List (UInt8 × UInt8)) :=
  pieces.flatMap fun piece => List.replicate piece.minimum piece.ranges

/-- A pattern of fixed counts matches character by character. -/
theorem matchesPattern_expand {pieces : List Piece}
    (fixed : ∀ piece ∈ pieces, piece.minimum = piece.maximum) {text : Text} :
    matchesPattern pieces text = true ↔
      List.Forall₂ (fun ranges character => inRanges ranges character = true)
        (expand pieces) text := by
  induction pieces generalizing text with
  | nil => simp [matchesPattern, expand]
  | cons piece rest inductionHypothesis =>
      have same := fixed piece List.mem_cons_self
      obtain ⟨ranges, minimum, maximum⟩ := piece
      simp only at same
      subst same
      rw [matchesPattern_fixed, inductionHypothesis fun other found =>
        fixed other (List.mem_cons_of_mem _ found)]
      have repeated {count : Nat} {characters : Text} :
          List.Forall₂ (fun ranges character => inRanges ranges character = true)
              (List.replicate count ranges) characters ↔
            characters.length = count ∧ characters.all (inRanges ranges) = true := by
        induction count generalizing characters with
        | zero => cases characters <;> simp
        | succ count countHypothesis =>
            cases characters with
            | nil => simp [List.replicate_succ]
            | cons character others =>
                simp [List.replicate_succ, countHypothesis, and_left_comm]
      constructor
      · intro both
        obtain ⟨within, all, later⟩ := both
        have first := repeated.mpr ⟨List.length_take_of_le within, all⟩
        have joined := List.rel_append first later
        rw [← List.take_append_drop minimum text]
        exact joined
      · intro matched
        have first := List.forall₂_take_append text _ (expand rest) matched.flip
        have later := List.forall₂_drop_append text _ (expand rest) matched.flip
        rw [List.length_replicate] at first later
        obtain ⟨length, all⟩ := repeated.mp first.flip
        rw [List.length_take] at length
        exact ⟨min_eq_left_iff.mp length, all, later.flip⟩

end Omniweft
