import Omniweft.Library.Outcome
import Omniweft.World

/-!
# JSON values and the JSON library

The repository vendors its JSON library; the model takes the library as a
parameter. `JsonLibrary` is what the command codec calls: `dump`, the event
stream of `sax_parse`, and the document of `parse`. `JsonLibrary.Faithful` is
the part of its documented behaviour the round trips rely on. The bounded
event handler is the repository's own and is modelled here.
-/

namespace Omniweft

/-- A JSON document. Object entries stand in key order, as in `std::map`;
`integer` holds only the tokens that are not unsigned. -/
inductive Json (α : Type) where
  | null
  | boolean (value : Bool)
  | integer (value : Int)
  | unsigned (value : UInt64)
  | float (value : α)
  | string (value : Text)
  | array (items : List (Json α))
  | object (entries : List (Text × Json α))

/-- The callbacks of `nlohmann::json_sax`. -/
inductive SaxEvent (α : Type) where
  | null
  | boolean
  | numberInteger
  | numberUnsigned
  | numberFloat (value : α)
  | string
  | binary
  | startObject
  | key (name : Text)
  | endObject
  | startArray
  | endArray
  | parseError (exceptionId : Nat)

namespace Json

variable {α : Type}

def keys (entries : List (Text × Json α)) : List Text :=
  entries.map Prod.fst

/-- `contains`: only objects have members. -/
def contains (value : Json α) (name : Text) : Bool :=
  match value with
  | .object entries => (keys entries).contains name
  | _ => false

/-- `operator[]` on an object that has the member. -/
def member (value : Json α) (name : Text) : Json α :=
  match value with
  | .object entries => (entries.lookup name).getD .null
  | _ => .null

/-- The value is an object with exactly these members. -/
def Closed (names : List Text) (value : Json α) : Prop :=
  ∃ entries, value = .object entries ∧ (∀ key ∈ Json.keys entries, key ∈ names) ∧
    ∀ name ∈ names, name ∈ Json.keys entries

theorem Closed.contains {names : List Text} {value : Json α} (closed : Closed names value)
    (name : Text) : value.contains name = true ↔ name ∈ names := by
  obtain ⟨entries, rfl, known, present⟩ := closed
  simp only [Json.contains, List.contains_eq_mem, decide_eq_true_eq]
  exact ⟨known name, present name⟩

/-- The number that a number token stands for. -/
def numeral [Scalar α] : Json α → Option α
  | .unsigned token => some (Scalar.ofInt token.toNat)
  | .integer token => some (Scalar.ofInt token)
  | .float token => some token
  | _ => none

mutual

/-- Every number token of a value converts to a finite number. -/
def FiniteNumbers [Scalar α] : Json α → Prop
  | .unsigned token => Scalar.isFinite (Scalar.ofInt token.toNat : α) = true
  | .integer token => Scalar.isFinite (Scalar.ofInt token : α) = true
  | .float token => Scalar.isFinite token = true
  | .array items => FiniteItems items
  | .object entries => FiniteEntries entries
  | _ => True

def FiniteItems [Scalar α] : List (Json α) → Prop
  | [] => True
  | item :: rest => FiniteNumbers item ∧ FiniteItems rest

def FiniteEntries [Scalar α] : List (Text × Json α) → Prop
  | [] => True
  | (_, value) :: rest => FiniteNumbers value ∧ FiniteEntries rest

end

theorem FiniteItems.item [Scalar α] :
    ∀ {items : List (Json α)}, FiniteItems items → ∀ item ∈ items, FiniteNumbers item
  | [], _, item, found => absurd found List.not_mem_nil
  | head :: rest, finite, item, found => by
      rcases List.mem_cons.mp found with rfl | later
      · exact finite.1
      · exact FiniteItems.item finite.2 item later

theorem FiniteNumbers.member [Scalar α] {value : Json α} (finite : FiniteNumbers value)
    (name : Text) : FiniteNumbers (value.member name) := by
  cases value with
  | object entries =>
      have entriesFinite : FiniteEntries entries := finite
      show FiniteNumbers ((entries.lookup name).getD .null)
      clear finite
      induction entries with
      | nil => trivial
      | cons entry rest inductionHypothesis =>
          rw [List.lookup_cons]
          by_cases here : (name == entry.1) = true
          · simpa [here] using entriesFinite.1
          · simpa [here] using inductionHypothesis entriesFinite.2
  | _ => trivial

theorem FiniteNumbers.numeral [Scalar α] {value : Json α} (finite : FiniteNumbers value)
    {number : α} (read : numeral value = some number) : Scalar.isFinite number = true := by
  cases value with
  | unsigned token =>
      rw [← Option.some.inj read]
      exact finite
  | integer token =>
      rw [← Option.some.inj read]
      exact finite
  | float token =>
      rw [← Option.some.inj read]
      exact finite
  | _ => simp [Json.numeral] at read

mutual

/-- The event stream a reader of the value's text sees. -/
def saxEvents : Json α → List (SaxEvent α)
  | .null => [.null]
  | .boolean _ => [.boolean]
  | .integer _ => [.numberInteger]
  | .unsigned _ => [.numberUnsigned]
  | .float value => [.numberFloat value]
  | .string _ => [.string]
  | .array items => .startArray :: (saxItems items ++ [.endArray])
  | .object entries => .startObject :: (saxEntries entries ++ [.endObject])

def saxItems : List (Json α) → List (SaxEvent α)
  | [] => []
  | item :: rest => saxEvents item ++ saxItems rest

def saxEntries : List (Text × Json α) → List (SaxEvent α)
  | [] => []
  | (name, value) :: rest => .key name :: (saxEvents value ++ saxEntries rest)

end

mutual

/-- How deep the containers of a value nest. -/
def depth : Json α → Nat
  | .array items => depthItems items + 1
  | .object entries => depthEntries entries + 1
  | _ => 0

def depthItems : List (Json α) → Nat
  | [] => 0
  | item :: rest => max (depth item) (depthItems rest)

def depthEntries : List (Text × Json α) → Nat
  | [] => 0
  | (_, value) :: rest => max (depth value) (depthEntries rest)

end

mutual

/-- A bound on the compact text of a value without escapes: 20 digits for an
integer, 25 characters for a double, quotes, separators and brackets. -/
def weight : Json α → Nat
  | .null => 4
  | .boolean _ => 5
  | .integer _ => 20
  | .unsigned _ => 20
  | .float _ => 25
  | .string value => value.length + 2
  | .array items => weightItems items + 2
  | .object entries => weightEntries entries + 2

def weightItems : List (Json α) → Nat
  | [] => 0
  | item :: rest => weight item + 1 + weightItems rest

def weightEntries : List (Text × Json α) → Nat
  | [] => 0
  | (name, value) :: rest =>
      name.length + 3 + weight value + 1 + weightEntries rest

end

mutual

/-- A value whose text needs no escapes and loses nothing: 64-bit and finite
numbers, identifier characters only, and every object's keys in strict order. -/
def Plain [Scalar α] : Json α → Prop
  | .integer value => -9223372036854775808 ≤ value ∧ value < 0
  | .float value => Scalar.isFinite value = true
  | .string value => value.all identifierByte = true
  | .array items => PlainItems items
  | .object entries =>
      (keys entries).Pairwise (· < ·) ∧ PlainEntries entries
  | _ => True

def PlainItems [Scalar α] : List (Json α) → Prop
  | [] => True
  | item :: rest => Plain item ∧ PlainItems rest

def PlainEntries [Scalar α] : List (Text × Json α) → Prop
  | [] => True
  | (name, value) :: rest =>
      name.all identifierByte = true ∧ Plain value ∧ PlainEntries rest

end

/-- The ASCII characters that a text shows without an escape. -/
def printable (character : UInt8) : Bool :=
  32 ≤ character && character ≤ 126 && character != 34 && character != 92

mutual

/-- As `Plain`, but strings may hold any printable text, and the keys of an object
stand in any order. -/
def Portable [Scalar α] : Json α → Prop
  | .integer value => -9223372036854775808 ≤ value ∧ value < 0
  | .float value => Scalar.isFinite value = true
  | .string value => value.all printable = true
  | .array items => PortableItems items
  | .object entries => (keys entries).Nodup ∧ PortableEntries entries
  | _ => True

def PortableItems [Scalar α] : List (Json α) → Prop
  | [] => True
  | item :: rest => Portable item ∧ PortableItems rest

def PortableEntries [Scalar α] : List (Text × Json α) → Prop
  | [] => True
  | (name, value) :: rest =>
      name.all printable = true ∧ Portable value ∧ PortableEntries rest

end

theorem printable_of_identifierByte {character : UInt8}
    (letter : identifierByte character = true) : printable character = true := by
  simp only [identifierByte, alphanumeric, Bool.or_eq_true, Bool.and_eq_true,
    decide_eq_true_eq, beq_iff_eq] at letter
  simp only [printable, Bool.and_eq_true, decide_eq_true_eq, bne_iff_ne]
  grind

theorem printable_text {text : Text} (letters : text.all identifierByte = true) :
    text.all printable = true := by
  rw [List.all_eq_true] at letters ⊢
  intro character member
  exact printable_of_identifierByte (letters character member)

mutual

/-- What is plain in one arithmetic is portable in every other that finds the same
numbers finite. -/
theorem Plain.portable (one two : Scalar α)
    (finite : ∀ number, one.isFinite number = true → two.isFinite number = true) :
    ∀ value : Json α, @Plain α one value → @Portable α two value
  | .null, _ | .boolean _, _ | .unsigned _, _ => by simp [Portable]
  | .integer value, plain => by simpa only [Plain, Portable] using plain
  | .float value, plain => by
      simp only [Plain] at plain
      simpa only [Portable] using finite value plain
  | .string value, plain => by
      simp only [Plain] at plain
      simpa only [Portable] using printable_text plain
  | .array items, plain => by
      simp only [Plain] at plain
      simpa only [Portable] using Plain.portableItems one two finite items plain
  | .object entries, plain => by
      simp only [Plain] at plain
      simp only [Portable]
      refine ⟨plain.1.imp ?_, Plain.portableEntries one two finite entries plain.2⟩
      intro first second less same
      exact List.lt_irrefl second (same ▸ less)

theorem Plain.portableItems (one two : Scalar α)
    (finite : ∀ number, one.isFinite number = true → two.isFinite number = true) :
    ∀ items : List (Json α), @PlainItems α one items → @PortableItems α two items
  | [], _ => by simp [PortableItems]
  | item :: rest, plain => by
      simp only [PlainItems] at plain
      exact ⟨Plain.portable one two finite item plain.1,
        Plain.portableItems one two finite rest plain.2⟩

theorem Plain.portableEntries (one two : Scalar α)
    (finite : ∀ number, one.isFinite number = true → two.isFinite number = true) :
    ∀ entries : List (Text × Json α),
      @PlainEntries α one entries → @PortableEntries α two entries
  | [], _ => by simp [PortableEntries]
  | (name, value) :: rest, plain => by
      simp only [PlainEntries] at plain
      exact ⟨printable_text plain.1, Plain.portable one two finite value plain.2.1,
        Plain.portableEntries one two finite rest plain.2.2⟩

end

end Json

/-- The vendored JSON library, as far as the command codec calls it. `dump`
fails on text that is not UTF-8; `document` fails on input that is not one
strict JSON value. -/
structure JsonLibrary (α : Type) where
  dump : Json α → Option Text
  events : Text → List (SaxEvent α)
  document : Text → Option (Json α)

/-- Dumping a plain value gives a text without NUL that is no longer than the
value's weight, and reading that text gives the value back. -/
structure JsonLibrary.Faithful {α : Type} [Scalar α]
    (library : JsonLibrary α) : Prop where
  roundTrip :
    ∀ value : Json α, value.Plain → value.depth ≤ 32 →
      ∃ bytes,
        library.dump value = some bytes ∧ bytes.length ≤ value.weight ∧
          0 ∉ bytes ∧ library.events bytes = value.saxEvents ∧
          library.document bytes = some value

namespace Commands

structure ValidationError where
  code : Text
  path : Text
  message : Text
  deriving DecidableEq, Repr

def reject {β : Type} (code : String) (path : Text) (message : String) :
    Except ValidationError β :=
  .error ⟨ascii code, path, ascii message⟩

def maxNestingDepth : Nat := 32

namespace BoundedSax

/-- One open container: its keys so far, when it is an object. -/
structure Frame where
  object : Bool
  keys : List Text

/-- `open`: one more container, within the depth bound. -/
def openFrame (object : Bool) (frames : List Frame) :
    Except ValidationError (List Frame) :=
  if maxNestingDepth ≤ frames.length then
    reject "BUDGET_EXCEEDED" [] "JSON container nesting exceeds depth 32."
  else
    .ok (⟨object, []⟩ :: frames)

/-- The handler's reaction to one event; the innermost frame stands first. -/
def step {α : Type} [Scalar α] (frames : List Frame) :
    SaxEvent α → Except ValidationError (List Frame)
  | .numberFloat value =>
      if Scalar.isFinite value then .ok frames
      else reject "NONFINITE_VALUE" [] "Numbers must be finite."
  | .binary => reject "INVALID_SCHEMA" [] "Binary values are not JSON."
  | .startObject => openFrame true frames
  | .startArray => openFrame false frames
  | .key name =>
      match frames with
      | [] => reject "INVALID_SCHEMA" [] "Object key outside an object."
      | frame :: outer =>
          if !frame.object then
            reject "INVALID_SCHEMA" [] "Object key outside an object."
          else if frame.keys.contains name then
            reject "INVALID_SCHEMA" [] "Decoded object keys must be unique."
          else
            .ok ({ frame with keys := name :: frame.keys } :: outer)
  | .endObject => .ok frames.tail
  | .endArray => .ok frames.tail
  | .parseError exceptionId =>
      if exceptionId = 406 then
        reject "NONFINITE_VALUE" [] "Numbers must fit a finite double."
      else
        reject "INVALID_SCHEMA" [] "Input must be one strict UTF-8 JSON value."
  | _ => .ok frames

/-- `sax_parse` with the bounded handler: the first refusal stops the pass. -/
def run {α : Type} [Scalar α] (events : List (SaxEvent α)) (frames : List Frame) :
    Except ValidationError (List Frame) :=
  events.foldlM step frames

theorem run_append_ok {α : Type} [Scalar α]
    {first : List (SaxEvent α)} {frames middle : List Frame}
    (accepted : run first frames = .ok middle) (second : List (SaxEvent α)) :
    run (first ++ second) frames = run second middle := by
  unfold run at accepted ⊢
  rw [List.foldlM_append, accepted]
  rfl

theorem run_cons_ok {α : Type} [Scalar α]
    {event : SaxEvent α} {frames middle : List Frame}
    (accepted : step frames event = .ok middle) (rest : List (SaxEvent α)) :
    run (event :: rest) frames = run rest middle := by
  unfold run
  rw [List.foldlM_cons, accepted]
  rfl

section Accepts

variable {α : Type} [Scalar α]

open Json

private theorem openFrame_ok
    {frames : List Frame} {inner : Nat} (object : Bool)
    (fits : frames.length + (inner + 1) ≤ 32) :
    openFrame object frames = .ok (⟨object, []⟩ :: frames) := by
  have notFull : ¬ maxNestingDepth ≤ frames.length := by
    unfold maxNestingDepth
    omega
  simp [openFrame, notFull]

mutual

/-- A portable value passes the bounded handler wherever its depth still fits,
and leaves the open containers as they were. -/
theorem accepts_value :
    ∀ (value : Json α) (frames : List Frame),
      Portable value →
      frames.length + depth value ≤ 32 →
      run (saxEvents value) frames = .ok frames
  | .null, frames, _, _ => rfl
  | .boolean _, frames, _, _ => rfl
  | .integer _, frames, _, _ => rfl
  | .unsigned _, frames, _, _ => rfl
  | .float value, frames, portable, _ => by
      have finite : Scalar.isFinite value = true := by
        simpa only [Portable] using portable
      have stepped : step frames (.numberFloat value) = .ok frames := by
        simp [step, finite]
      rw [saxEvents, run_cons_ok stepped]
      rfl
  | .string _, frames, _, _ => rfl
  | .array items, frames, portable, fits => by
      have inner : (⟨false, []⟩ :: frames : List Frame).length +
          depthItems items ≤ 32 := by
        simp only [depth] at fits
        simp only [List.length_cons]
        omega
      have opened :
          step frames (.startArray : SaxEvent α) =
            .ok (⟨false, []⟩ :: frames) :=
        openFrame_ok false (by simpa only [depth] using fits)
      have accepted :=
        accepts_items items (⟨false, []⟩ :: frames)
          (by simpa only [Portable] using portable) inner
      rw [saxEvents, run_cons_ok opened, run_append_ok accepted]
      rfl
  | .object entries, frames, portable, fits => by
      have parts : (keys entries).Nodup ∧ PortableEntries entries := by
        simpa only [Portable] using portable
      have inner : (⟨true, []⟩ :: frames : List Frame).length +
          depthEntries entries ≤ 32 := by
        simp only [depth] at fits
        simp only [List.length_cons]
        omega
      have opened :
          step frames (.startObject : SaxEvent α) =
            .ok (⟨true, []⟩ :: frames) :=
        openFrame_ok true (by simpa only [depth] using fits)
      obtain ⟨seen, accepted⟩ :=
        accepts_entries entries [] frames parts.1 (by simp) parts.2 inner
      rw [saxEvents, run_cons_ok opened, run_append_ok accepted]
      rfl

theorem accepts_items :
    ∀ (items : List (Json α)) (frames : List Frame),
      PortableItems items →
      frames.length + depthItems items ≤ 32 →
      run (saxItems items) frames = .ok frames
  | [], frames, _, _ => rfl
  | item :: rest, frames, portable, fits => by
      have parts : Portable item ∧ PortableItems rest := by
        simpa only [PortableItems] using portable
      simp only [depthItems] at fits
      have first := accepts_value item frames parts.1 (by omega)
      have others := accepts_items rest frames parts.2 (by omega)
      rw [saxItems, run_append_ok first, others]

theorem accepts_entries :
    ∀ (entries : List (Text × Json α)) (seen : List Text) (outer : List Frame),
      (keys entries).Nodup →
      (∀ name, name ∈ keys entries → name ∉ seen) →
      PortableEntries entries →
      outer.length + 1 + depthEntries entries ≤ 32 →
      ∃ names,
        run (saxEntries entries) (⟨true, seen⟩ :: outer) =
          .ok (⟨true, names⟩ :: outer)
  | [], seen, outer, _, _, _, _ => ⟨seen, rfl⟩
  | (name, value) :: rest, seen, outer, apart, fresh, portable, fits => by
      have parts :
          name.all printable = true ∧ Portable value ∧ PortableEntries rest := by
        simpa only [PortableEntries] using portable
      simp only [depthEntries] at fits
      have apartParts : name ∉ keys rest ∧ (keys rest).Nodup := by
        simpa [keys] using apart
      have nameFresh : name ∉ seen := fresh name (by simp [keys])
      have first :=
        accepts_value value (⟨true, name :: seen⟩ :: outer) parts.2.1
          (by simp only [List.length_cons]; omega)
      have restFresh :
          ∀ later, later ∈ keys rest → later ∉ name :: seen := by
        intro later member found
        rcases List.mem_cons.mp found with same | earlier
        · exact apartParts.1 (same ▸ member)
        · exact fresh later (by
            simp only [keys, List.map_cons, List.mem_cons]
            exact Or.inr member) earlier
      obtain ⟨names, others⟩ :=
        accepts_entries rest (name :: seen) outer apartParts.2 restFresh
          parts.2.2 (by omega)
      have stepped :
          step (⟨true, seen⟩ :: outer) (.key name : SaxEvent α) =
            .ok (⟨true, name :: seen⟩ :: outer) := by
        simp [step, nameFresh]
      refine ⟨names, ?_⟩
      rw [saxEntries, run_cons_ok stepped, run_append_ok first, others]

end

end Accepts

end BoundedSax
end Commands
end Omniweft
