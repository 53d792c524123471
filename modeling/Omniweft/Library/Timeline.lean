import Mathlib.Data.List.Basic

/-!
# Linear histories

A linear history is a list of entries, each with a forward and an inverse
batch, and a cursor into it. Batches act on contents by a partial function. An
entry spans two contents when its forward batch leads from the first to the
second and its inverse, if it applies there at all, leads back. The rules say
what recording, undoing and redoing do to the place the cursor marks.
-/

namespace Omniweft.Timeline

variable {Content Batch : Type}

structure Entry (Batch : Type) where
  forward : Batch
  inverse : Batch
  deriving DecidableEq

variable (run : Batch → Content → Option Content)

structure Spans (entry : Entry Batch) (before after : Content) : Prop where
  forward : run entry.forward before = some after
  inverse : ∀ back, run entry.inverse after = some back → back = before

/-- The entries lead from one content to another. -/
inductive Path : Content → List (Entry Batch) → Content → Prop
  | nil (content : Content) : Path content [] content
  | cons {before middle after : Content} {entry : Entry Batch}
      {rest : List (Entry Batch)} :
      Spans run entry before middle → Path middle rest after →
      Path before (entry :: rest) after

variable {run}

theorem Path.append {first middle last : Content} {front back : List (Entry Batch)}
    (before : Path run first front middle) (after : Path run middle back last) :
    Path run first (front ++ back) last := by
  induction before with
  | nil content => exact after
  | cons spans _ inductionHypothesis => exact Path.cons spans (inductionHypothesis after)

/-- A path is the forward batches applied in order. -/
theorem Path.forward {first last : Content} {entries : List (Entry Batch)}
    (path : Path run first entries last) :
    entries.foldlM (fun content entry => run entry.forward content) first = some last := by
  induction path with
  | nil content => rfl
  | cons spans _ inductionHypothesis =>
      rw [List.foldlM_cons, spans.forward]
      exact inductionHypothesis

theorem Path.unique {first last other : Content} {entries : List (Entry Batch)}
    (path : Path run first entries last) (second : Path run first entries other) :
    last = other := by
  have same := path.forward.symm.trans second.forward
  exact Option.some.inj same

theorem Path.split {first last : Content} {front : List (Entry Batch)}
    {entry : Entry Batch} (path : Path run first (front ++ [entry]) last) :
    ∃ middle, Path run first front middle ∧ Spans run entry middle last := by
  induction front generalizing first with
  | nil =>
      cases path with
      | cons spans rest =>
          cases rest with
          | nil _ => exact ⟨first, Path.nil first, spans⟩
  | cons head tail inductionHypothesis =>
      cases path with
      | cons spans rest =>
          obtain ⟨middle, before, last⟩ := inductionHypothesis rest
          exact ⟨middle, Path.cons spans before, last⟩

/-- The content at the cursor of a history that began at `baseline`. -/
structure At (run : Batch → Content → Option Content) (baseline : Content)
    (entries : List (Entry Batch)) (cursor : Nat) (content : Content) : Prop where
  inside : cursor ≤ entries.length
  past : Path run baseline (entries.take cursor) content
  future : ∃ last, Path run content (entries.drop cursor) last

theorem At.start (content : Content) : At run content [] 0 content where
  inside := Nat.le_refl 0
  past := Path.nil content
  future := ⟨content, Path.nil content⟩

variable {baseline content next : Content} {entries : List (Entry Batch)} {cursor : Nat}

/-- Recording drops what lies after the cursor. -/
theorem At.record (here : At run baseline entries cursor content) {entry : Entry Batch}
    (spans : Spans run entry content next) :
    At run baseline (entries.take cursor ++ [entry]) (cursor + 1) next := by
  have length : (entries.take cursor ++ [entry]).length = cursor + 1 := by
    simp [Nat.min_eq_left here.inside]
  refine ⟨Nat.le_of_eq length.symm, ?_, next, ?_⟩
  · rw [List.take_of_length_le (Nat.le_of_eq length)]
    exact here.past.append (Path.cons spans (Path.nil next))
  · rw [List.drop_of_length_le (Nat.le_of_eq length)]
    exact Path.nil next

theorem At.undo (here : At run baseline entries (cursor + 1) content)
    {entry : Entry Batch} (present : entries[cursor]? = some entry) {back : Content}
    (undone : run entry.inverse content = some back) :
    At run baseline entries cursor back := by
  obtain ⟨last, future⟩ := here.future
  have past := here.past
  rw [List.take_add_one, present, Option.toList_some] at past
  obtain ⟨middle, before, spans⟩ := past.split
  have same := spans.inverse back undone
  subst same
  have inside := (List.getElem?_eq_some_iff.mp present).1
  refine ⟨Nat.le_of_lt inside, before, last, ?_⟩
  rw [List.drop_eq_getElem_cons inside, (List.getElem?_eq_some_iff.mp present).2]
  exact Path.cons spans future

theorem At.redo (here : At run baseline entries cursor content)
    {entry : Entry Batch} (present : entries[cursor]? = some entry)
    (redone : run entry.forward content = some next) :
    At run baseline entries (cursor + 1) next := by
  obtain ⟨last, future⟩ := here.future
  have inside := (List.getElem?_eq_some_iff.mp present).1
  rw [List.drop_eq_getElem_cons inside, (List.getElem?_eq_some_iff.mp present).2]
    at future
  cases future with
  | cons spans rest =>
      have same := spans.forward.symm.trans redone
      rw [Option.some.injEq] at same
      subst same
      refine ⟨inside, ?_, last, rest⟩
      rw [List.take_add_one, present, Option.toList_some]
      exact here.past.append (Path.cons spans (Path.nil _))

/-- The place of the cursor determines the content. -/
theorem At.unique (here : At run baseline entries cursor content)
    (there : At run baseline entries cursor next) :
    content = next :=
  here.past.unique there.past

end Omniweft.Timeline
