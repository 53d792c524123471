import Omniweft.Library.Outcome

/-!
# Readers and the languages they accept

A reader takes a value off the front of its input or stops with an error. Its
language relates each value to the pieces of input that spell it; a reader
reads a language when it succeeds exactly on the inputs that begin with a piece
of it and then leaves what follows the piece.
-/

namespace Omniweft.Grammar

open Outcome

variable {ε ε' τ β γ : Type}

abbrev Reader (ε τ β : Type) := EStateM ε (List τ) β

/-- Which pieces spell which value. -/
abbrev Language (τ β : Type) := β → List τ → Prop

def Reads (reader : Reader ε τ β) (language : Language τ β) : Prop :=
  ∀ (input : List τ) (value : β) (rest : List τ),
    reader input = .ok value rest ↔ ∃ piece, language value piece ∧ input = piece ++ rest

namespace Language

/-- Nothing is read; the values are those of the predicate. -/
def free (holds : β → Prop) : Language τ β :=
  fun value piece => holds value ∧ piece = []

/-- Any piece of the given size spells itself. -/
def exactly (size : Nat) : Language τ (List τ) :=
  fun value piece => piece = value ∧ value.length = size

def andThen (first : Language τ β) (next : β → Language τ γ) : Language τ γ :=
  fun result piece =>
    ∃ value front back, first value front ∧ next value result back ∧ piece = front ++ back

end Language

/-- Take the next `size` items. -/
def take (code : ε) (size : Nat) : Reader ε τ (List τ) :=
  fun remaining =>
    if remaining.length < size then .error code remaining
    else .ok (remaining.take size) (remaining.drop size)

/-- A counted loop that carries a state. -/
def times (step : β → Reader ε τ β) : Nat → β → Reader ε τ β
  | 0, state => pure state
  | count + 1, state => do
      let next ← step state
      times step count next

/-- Read the whole input; anything left over is an error. -/
def whole (code : ε) (reader : Reader ε τ β) (input : List τ) : Except ε β :=
  match reader input with
  | .error raised _ => .error raised
  | .ok value rest => if rest.isEmpty then .ok value else .error code

/-- The pieces a counted loop reads, one after the other. -/
inductive Rounds (round : β → Language τ β) : Nat → β → β → List τ → Prop where
  | done (state : β) : Rounds round 0 state state []
  | more {count : Nat} {state next final : β} {front back : List τ}
      (one : round state next front) (rest : Rounds round count next final back) :
      Rounds round (count + 1) state final (front ++ back)

/-- Entries spelled one after the other. -/
inductive Sequence (entry : Language τ β) : List β → List τ → Prop where
  | nil : Sequence entry [] []
  | cons {item : β} {items : List β} {front back : List τ}
      (one : entry item front) (rest : Sequence entry items back) :
      Sequence entry (item :: items) (front ++ back)

theorem Reads.congr {reader : Reader ε τ β} {language other : Language τ β}
    (reads : Reads reader language)
    (same : ∀ value piece, language value piece ↔ other value piece) :
    Reads reader other := by
  intro input value rest
  rw [reads input value rest]
  exact exists_congr fun piece => and_congr_left' (same value piece)

theorem reads_pure (value : β) :
    Reads (pure value : Reader ε τ β) (Language.free fun result => value = result) := by
  intro input result rest
  rw [stateful_pure_eq_ok]
  constructor
  · intro ended
    exact ⟨[], ⟨ended.1, rfl⟩, ended.2⟩
  · rintro ⟨piece, ⟨same, rfl⟩, split⟩
    exact ⟨same, split⟩

theorem reads_bind {first : Reader ε τ β} {next : β → Reader ε τ γ}
    {language : Language τ β} {following : β → Language τ γ}
    (firstReads : Reads first language)
    (nextReads : ∀ value, Reads (next value) (following value)) :
    Reads (first >>= next) (language.andThen following) := by
  intro input result rest
  rw [stateful_bind_eq_ok]
  constructor
  · rintro ⟨value, middle, firstOk, nextOk⟩
    obtain ⟨front, spelled, rfl⟩ := (firstReads _ _ _).1 firstOk
    obtain ⟨back, followed, rfl⟩ := (nextReads value _ _ _).1 nextOk
    exact ⟨front ++ back, ⟨value, front, back, spelled, followed, rfl⟩,
      (List.append_assoc front back rest).symm⟩
  · rintro ⟨piece, ⟨value, front, back, spelled, followed, rfl⟩, rfl⟩
    exact ⟨value, back ++ rest,
      (firstReads _ _ _).2 ⟨front, spelled, List.append_assoc front back rest⟩,
      (nextReads value _ _ _).2 ⟨back, followed, rfl⟩⟩

/-- A check between two readings reads nothing. -/
theorem reads_attempt (wrap : ε' → ε) (computation : Except ε' β) :
    Reads (attempt wrap computation : Reader ε τ β)
      (Language.free fun value => computation = .ok value) := by
  intro input value rest
  rw [attempt_eq_ok]
  constructor
  · intro passed
    exact ⟨[], ⟨passed.1, rfl⟩, passed.2⟩
  · rintro ⟨piece, ⟨passed, rfl⟩, split⟩
    exact ⟨passed, split⟩

/-- A check in front of a reader adds its outcome to the language. -/
theorem reads_attempt_bind (wrap : ε' → ε) (computation : Except ε' β)
    {next : β → Reader ε τ γ} {following : β → Language τ γ}
    (nextReads : ∀ value, Reads (next value) (following value)) :
    Reads (attempt wrap computation >>= next) fun result piece =>
      ∃ value, computation = .ok value ∧ following value result piece := by
  apply (reads_bind (reads_attempt wrap computation) nextReads).congr
  intro result piece
  constructor
  · rintro ⟨value, _, back, ⟨passed, rfl⟩, followed, rfl⟩
    exact ⟨value, passed, followed⟩
  · rintro ⟨value, passed, followed⟩
    exact ⟨value, [], piece, ⟨passed, rfl⟩, followed, rfl⟩

/-- A last step that only computes the result. -/
theorem reads_bind_pure {first : Reader ε τ β} {language : Language τ β}
    (firstReads : Reads first language) (finish : β → γ) :
    Reads (do let value ← first; pure (finish value)) fun result piece =>
      ∃ value, language value piece ∧ finish value = result := by
  apply (reads_bind firstReads fun value => reads_pure (finish value)).congr
  intro result piece
  constructor
  · rintro ⟨value, front, _, spelled, ⟨same, rfl⟩, rfl⟩
    exact ⟨value, by rwa [List.append_nil], same⟩
  · rintro ⟨value, spelled, same⟩
    exact ⟨value, piece, [], spelled, ⟨same, rfl⟩, (List.append_nil piece).symm⟩

theorem reads_take (code : ε) (size : Nat) :
    Reads (take code size : Reader ε τ (List τ)) (Language.exactly size) := by
  intro input value rest
  unfold take
  by_cases short : input.length < size
  · rw [if_pos short]
    constructor
    · intro impossible
      cases impossible
    · rintro ⟨piece, ⟨rfl, sized⟩, rfl⟩
      rw [List.length_append] at short
      omega
  · rw [if_neg short]
    constructor
    · intro taken
      cases taken
      exact ⟨input.take size, ⟨rfl, by rw [List.length_take]; omega⟩,
        (List.take_append_drop size input).symm⟩
    · rintro ⟨piece, ⟨rfl, sized⟩, rfl⟩
      rw [List.take_left' sized, List.drop_left' sized]

theorem reads_times {step : β → Reader ε τ β} {round : β → Language τ β}
    (stepReads : ∀ state, Reads (step state) (round state)) :
    ∀ (count : Nat) (state : β),
      Reads (times step count state) (Rounds round count state)
  | 0, state => by
      apply (reads_pure state).congr
      intro value piece
      constructor
      · rintro ⟨rfl, rfl⟩
        exact .done state
      · intro rounds
        cases rounds
        exact ⟨rfl, rfl⟩
  | count + 1, state => by
      apply (reads_bind (stepReads state) (reads_times stepReads count)).congr
      intro value piece
      constructor
      · rintro ⟨next, front, back, one, rest, rfl⟩
        exact .more one rest
      · intro rounds
        cases rounds with
        | more one rest => exact ⟨_, _, _, one, rest, rfl⟩

/-- Reading to the end of the input. -/
theorem Reads.whole_eq_ok {reader : Reader ε τ β} {language : Language τ β}
    (reads : Reads reader language) (code : ε) (input : List τ) (value : β) :
    whole code reader input = .ok value ↔ language value input := by
  have exact : reader input = .ok value [] ↔ language value input := by
    rw [reads input value []]
    constructor
    · rintro ⟨piece, spelled, rfl⟩
      rw [List.append_nil]
      exact spelled
    · intro spelled
      exact ⟨input, spelled, (List.append_nil input).symm⟩
  rw [← exact]
  unfold whole
  cases reader input with
  | error raised rest => simp
  | ok result rest => cases rest <;> simp

theorem Sequence.imp {entry other : Language τ β} {items : List β} {piece : List τ}
    (sequence : Sequence entry items piece)
    (weaker : ∀ item ∈ items, ∀ piece, entry item piece → other item piece) :
    Sequence other items piece := by
  induction sequence with
  | nil => exact .nil
  | cons one rest inductionHypothesis =>
      apply Sequence.cons (weaker _ (List.mem_cons_self ..) _ one)
      apply inductionHypothesis
      intro item member
      exact weaker item (List.mem_cons_of_mem _ member)

/-- What every entry of a sequence satisfies. -/
theorem Sequence.forall {entry : Language τ β} {items : List β} {piece : List τ}
    (sequence : Sequence entry items piece) {property : β → Prop}
    (each : ∀ item piece, entry item piece → property item) :
    ∀ item ∈ items, property item := by
  induction sequence with
  | nil =>
      intro item impossible
      cases impossible
  | cons one rest inductionHypothesis =>
      intro item member
      rcases List.mem_cons.1 member with rfl | later
      · exact each _ _ one
      · exact inductionHypothesis item later

/-- A writer for each entry writes the sequence. -/
theorem sequence_flatMap {entry : Language τ β} {write : β → List τ} {items : List β}
    (written : ∀ item ∈ items, entry item (write item)) :
    Sequence entry items (items.flatMap write) := by
  induction items with
  | nil => exact .nil
  | cons item items inductionHypothesis =>
      rw [List.flatMap_cons]
      apply Sequence.cons (written item (List.mem_cons_self ..))
      apply inductionHypothesis
      intro other member
      exact written other (List.mem_cons_of_mem _ member)

/-- Entries that a writer determines are read off what it writes. -/
theorem sequence_written {holds : β → Prop} {write : β → List τ} {items : List β}
    {piece : List τ} :
    Sequence (fun item piece => holds item ∧ piece = write item) items piece ↔
      (∀ item ∈ items, holds item) ∧ piece = items.flatMap write := by
  constructor
  · intro sequence
    refine ⟨sequence.forall fun _ _ both => both.1, ?_⟩
    induction sequence with
    | nil => rfl
    | cons one rest inductionHypothesis =>
        rw [List.flatMap_cons, ← one.2, ← inductionHypothesis]
  · intro both
    obtain ⟨each, rfl⟩ := both
    exact sequence_flatMap fun item member => ⟨each item member, rfl⟩

/-- A counted loop whose state is a function of the entries read so far reads a
sequence of entries. `good` is what the loop has checked of them, and holds of
the first entries whenever it holds of them all. -/
theorem rounds_iff {σ : Type} (round : σ → Language τ σ) (entry : Language τ β)
    (view : List β → σ) (good : List β → Prop)
    (initial : ∀ front back, good (front ++ back) → good front)
    (step : ∀ (items : List β) (next : σ) (piece : List τ),
      good items →
      (round (view items) next piece ↔
        ∃ item, entry item piece ∧ good (items ++ [item]) ∧ next = view (items ++ [item]))) :
    ∀ (count : Nat) (before : List β) (final : σ) (piece : List τ),
      good before →
      (Rounds round count (view before) final piece ↔
        ∃ items, items.length = count ∧ Sequence entry items piece ∧
          good (before ++ items) ∧ final = view (before ++ items))
  | 0, before, final, piece, goodBefore => by
      constructor
      · intro rounds
        cases rounds
        exact ⟨[], rfl, .nil, by rwa [List.append_nil], by rw [List.append_nil]⟩
      · rintro ⟨items, none, sequence, _, rfl⟩
        obtain rfl := List.length_eq_zero_iff.1 none
        cases sequence
        rw [List.append_nil]
        exact .done _
  | count + 1, before, final, piece, goodBefore => by
      constructor
      · intro rounds
        cases rounds with
        | more one rest =>
            obtain ⟨item, spelled, goodNext, rfl⟩ := (step before _ _ goodBefore).1 one
            obtain ⟨items, sized, sequence, goodAll, rfl⟩ :=
              (rounds_iff round entry view good initial step count _ _ _ goodNext).1 rest
            rw [List.append_assoc, List.singleton_append] at goodAll
            refine ⟨item :: items, by rw [List.length_cons, sized], .cons spelled sequence,
              goodAll, ?_⟩
            rw [List.append_assoc, List.singleton_append]
      · rintro ⟨items, sized, sequence, goodAll, rfl⟩
        cases sequence with
        | nil => cases sized
        | @cons item items front back spelled rest =>
            have split : before ++ item :: items = (before ++ [item]) ++ items := by
              rw [List.append_assoc, List.singleton_append]
            rw [split] at goodAll ⊢
            have goodNext := initial _ _ goodAll
            apply Rounds.more ((step before _ _ goodBefore).2 ⟨item, spelled, goodNext, rfl⟩)
            exact (rounds_iff round entry view good initial step count _ _ _ goodNext).2
              ⟨items, Nat.succ.inj sized, rest, goodAll, rfl⟩

end Omniweft.Grammar
