import Mathlib.Data.List.Basic

/-!
# Logs of frames

A log spells each of its records as one frame and may end in a part of the next one. A
reader takes the first frame off, or sees that it is incomplete; a walk runs a step over
the records until it comes to the part that is left.
-/

namespace Omniweft.Frames

variable {β ρ ε σ : Type}

/-- The reader finds exactly the valid records that the bytes begin with. -/
structure Spells (read : List β → Except ε (Option (ρ × Nat))) (valid : ρ → Prop)
    (spell : ρ → List β) : Prop where
  found :
    ∀ bytes record size,
      read bytes = .ok (some (record, size)) ↔
        valid record ∧ size = (spell record).length ∧ ∃ rest, bytes = spell record ++ rest
  visible : ∀ record, valid record → spell record ≠ []
  ended : read [] = .ok none

/-- Run the step over the records of the log; what is left is the incomplete frame. -/
def walk (read : List β → Except ε (Option (ρ × Nat))) (step : σ → ρ → Except ε σ) :
    Nat → σ → List β → Option (Except ε (σ × List β))
  | 0, _, _ => none
  | fuel + 1, state, bytes =>
      match read bytes with
      | .error raised => some (.error raised)
      | .ok none => some (.ok (state, bytes))
      | .ok (some (record, size)) =>
          match step state record with
          | .error raised => some (.error raised)
          | .ok next => walk read step fuel next (bytes.drop size)

section Walking

variable {read : List β → Except ε (Option (ρ × Nat))} {valid : ρ → Prop}
  {spell : ρ → List β} {step : σ → ρ → Except ε σ}

theorem Spells.read_frame (spells : Spells read valid spell) {record : ρ} (isValid : valid record)
    (rest : List β) :
    read (spell record ++ rest) = .ok (some (record, (spell record).length)) :=
  (spells.found _ _ _).mpr ⟨isValid, rfl, rest, rfl⟩

/-- A frame takes at least one byte. -/
theorem Spells.shorter (spells : Spells read valid spell) {bytes : List β} {record : ρ}
    {size : Nat} (found : read bytes = .ok (some (record, size))) :
    (bytes.drop size).length < bytes.length := by
  obtain ⟨isValid, rfl, rest, rfl⟩ := (spells.found _ _ _).mp found
  have positive := List.length_pos_iff.mpr (spells.visible record isValid)
  rw [List.drop_left, List.length_append]
  omega

/-- Frames of valid records are walked over one by one. -/
theorem Spells.walk_records (spells : Spells read valid spell) {records : List ρ}
    (valids : ∀ record ∈ records, valid record) (rest : List β) :
    ∀ (fuel : Nat) (state : σ), records.length ≤ fuel →
      walk read step fuel state (records.flatMap spell ++ rest) =
        match records.foldlM step state with
        | .error raised => some (.error raised)
        | .ok next => walk read step (fuel - records.length) next rest := by
  induction records with
  | nil => exact fun fuel state _ => rfl
  | cons record more inductionHypothesis =>
      intro fuel state enough
      cases fuel with
      | zero => exact absurd enough (Nat.not_succ_le_zero _)
      | succ fuel =>
          have isValid := valids record List.mem_cons_self
          rw [List.flatMap_cons, List.append_assoc, walk, spells.read_frame isValid,
            List.foldlM_cons]
          dsimp only
          rw [List.drop_left]
          cases step state record with
          | error raised => rfl
          | ok next =>
              have later := inductionHypothesis
                (fun other member => valids other (List.mem_cons_of_mem _ member)) fuel next
                (Nat.le_of_succ_le_succ enough)
              rw [List.length_cons, Nat.add_sub_add_right]
              exact later

/-- A walk takes no more rounds than there are bytes, and one. -/
theorem Spells.walk_ends (spells : Spells read valid spell) :
    ∀ (fuel : Nat) (state : σ) (bytes : List β), bytes.length < fuel →
      walk read step fuel state bytes ≠ none := by
  intro fuel
  induction fuel with
  | zero => exact fun _ _ enough => absurd enough (Nat.not_lt_zero _)
  | succ fuel inductionHypothesis =>
      intro state bytes enough
      rw [walk]
      cases found : read bytes with
      | error raised => exact Option.some_ne_none _
      | ok first =>
          cases first with
          | none => exact Option.some_ne_none _
          | some pair =>
              dsimp only
              cases step state pair.1 with
              | error raised => exact Option.some_ne_none _
              | ok next =>
                  have smaller := spells.shorter found
                  exact inductionHypothesis next (bytes.drop pair.2) (by omega)

/-- The walk splits the bytes in one way: frames of valid records that the step accepts,
and an incomplete frame. -/
theorem Spells.walk_eq_ok (spells : Spells read valid spell) :
    ∀ (fuel : Nat) (state final : σ) (bytes tail : List β), bytes.length < fuel →
      (walk read step fuel state bytes = some (.ok (final, tail)) ↔
        ∃ records : List ρ, (∀ record ∈ records, valid record) ∧
          bytes = records.flatMap spell ++ tail ∧ records.foldlM step state = .ok final ∧
            read tail = .ok none) := by
  intro fuel
  induction fuel with
  | zero => exact fun _ _ _ _ enough => absurd enough (Nat.not_lt_zero _)
  | succ fuel inductionHypothesis =>
      intro state final bytes tail enough
      rw [walk]
      constructor
      · intro walked
        cases found : read bytes with
        | error raised =>
            rw [found] at walked
            cases walked
        | ok first =>
            cases first with
            | none =>
                rw [found] at walked
                cases walked
                exact ⟨[], fun _ member => absurd member List.not_mem_nil, rfl, rfl, found⟩
            | some pair =>
                obtain ⟨record, size⟩ := pair
                have smaller := spells.shorter found
                rw [found] at walked
                dsimp only at walked
                cases stepped : step state record with
                | error raised =>
                    rw [stepped] at walked
                    cases walked
                | ok next =>
                    rw [stepped] at walked
                    obtain ⟨records, valids, split, folded, torn⟩ :=
                      (inductionHypothesis next final _ tail (by omega)).mp walked
                    obtain ⟨isValid, sized, rest, rfl⟩ := (spells.found _ _ _).mp found
                    rw [sized, List.drop_left] at split
                    refine ⟨record :: records, List.forall_mem_cons.mpr ⟨isValid, valids⟩, ?_,
                      ?_, torn⟩
                    · rw [List.flatMap_cons, List.append_assoc, split]
                    · rw [List.foldlM_cons, stepped]
                      exact folded
      · intro split
        obtain ⟨records, valids, same, folded, torn⟩ := split
        cases records with
        | nil =>
            cases folded
            rw [same, List.flatMap_nil, List.nil_append, torn]
        | cons record more =>
            obtain ⟨isValid, others⟩ := List.forall_mem_cons.mp valids
            rw [List.flatMap_cons, List.append_assoc] at same
            rw [List.foldlM_cons] at folded
            have found := spells.read_frame isValid (more.flatMap spell ++ tail)
            have smaller := spells.shorter found
            rw [List.drop_left, ← same] at smaller
            rw [same, found]
            dsimp only
            rw [List.drop_left]
            cases stepped : step state record with
            | error raised =>
                rw [stepped] at folded
                cases folded
            | ok next =>
                rw [stepped] at folded
                exact (inductionHypothesis next final _ tail (by omega)).mpr
                  ⟨more, others, rfl, folded, torn⟩

/-- A frame that the reader rejects ends the walk, wherever it stands. -/
theorem Spells.walk_error (spells : Spells read valid spell) {records : List ρ}
    (valids : ∀ record ∈ records, valid record) {state next : σ}
    (folded : records.foldlM step state = .ok next) {rest : List β} {raised : ε}
    (rejected : read rest = .error raised) {fuel : Nat} (enough : records.length < fuel) :
    walk read step fuel state (records.flatMap spell ++ rest) = some (.error raised) := by
  rw [spells.walk_records valids rest fuel state (Nat.le_of_lt enough), folded]
  dsimp only
  obtain ⟨more, same⟩ : ∃ more, fuel - records.length = more + 1 :=
    ⟨fuel - records.length - 1, by omega⟩
  rw [same, walk, rejected]

/-- A log is frames of valid records and an incomplete one in only one way. -/
theorem Spells.unique (spells : Spells read valid spell) {left : List ρ} :
    ∀ {right : List ρ} {tail rest : List β}, (∀ record ∈ left, valid record) →
      (∀ record ∈ right, valid record) → read tail = .ok none → read rest = .ok none →
      left.flatMap spell ++ tail = right.flatMap spell ++ rest →
        left = right ∧ tail = rest := by
  -- What is incomplete does not begin with a whole frame.
  have whole {record : ρ} (isValid : valid record) {more tail : List β}
      (torn : read tail = .ok none) : tail ≠ spell record ++ more := by
    rintro rfl
    rw [spells.read_frame isValid] at torn
    cases torn
  induction left with
  | nil =>
      intro right tail rest _ valids torn _ same
      cases right with
      | nil => exact ⟨rfl, same⟩
      | cons record more =>
          rw [List.flatMap_nil, List.nil_append, List.flatMap_cons, List.append_assoc] at same
          exact absurd same (whole (valids record List.mem_cons_self) torn)
  | cons record more inductionHypothesis =>
      intro right tail rest leftValid rightValid torn ended same
      obtain ⟨isValid, moreValid⟩ := List.forall_mem_cons.mp leftValid
      rw [List.flatMap_cons, List.append_assoc] at same
      cases right with
      | nil => exact absurd same.symm (whole isValid ended)
      | cons other others =>
          obtain ⟨otherValid, othersValid⟩ := List.forall_mem_cons.mp rightValid
          rw [List.flatMap_cons, List.append_assoc] at same
          have found := spells.read_frame isValid (more.flatMap spell ++ tail)
          rw [same, spells.read_frame otherValid (others.flatMap spell ++ rest)] at found
          obtain ⟨rfl, _⟩ := Prod.mk.inj (Option.some.inj (Except.ok.inj found))
          obtain ⟨rfl, rfl⟩ := inductionHypothesis moreValid othersValid torn ended
            (List.append_cancel_left same)
          exact ⟨rfl, rfl⟩

theorem Spells.length_le (spells : Spells read valid spell) {records : List ρ}
    (valids : ∀ record ∈ records, valid record) :
    records.length ≤ (records.flatMap spell).length := by
  induction records with
  | nil => exact Nat.zero_le _
  | cons record more inductionHypothesis =>
      obtain ⟨isValid, others⟩ := List.forall_mem_cons.mp valids
      have positive := List.length_pos_iff.mpr (spells.visible record isValid)
      have later := inductionHypothesis others
      rw [List.flatMap_cons, List.length_append, List.length_cons]
      omega

end Walking

end Omniweft.Frames
