import Mathlib.Data.List.Basic
import Mathlib.Data.List.Infix

/-!
# Iterated hashes

A compression function is folded along the blocks of a message. When the blocks of no message
end those of another one, the runs of two messages to one value meet: there the compression
function takes two inputs to one value.
-/

namespace Omniweft.IteratedHash

section Blocks

variable {β : Type}

/-- The blocks of the given size, one after another; a shorter rest is left out. -/
def blocks (size : Nat) (data : List β) : List (List β) :=
  (List.range (data.length / size)).map fun index => (data.drop (size * index)).take size

theorem flatten_front (size : Nat) (data : List β) :
    ∀ count, ((List.range count).map fun index =>
      (data.drop (size * index)).take size).flatten = data.take (size * count) := by
  intro count
  induction count with
  | zero => simp
  | succ count inductionHypothesis =>
      rw [List.range_succ, List.map_append, List.flatten_append, inductionHypothesis,
        List.map_singleton, List.flatten_singleton, Nat.mul_succ, List.take_add]

/-- Blocks that leave nothing out are the whole data. -/
theorem flatten_blocks {size : Nat} {data : List β} (whole : size ∣ data.length) :
    (blocks size data).flatten = data := by
  rw [blocks, flatten_front, Nat.mul_div_cancel' whole, List.take_length]

end Blocks

section Collisions

variable {σ β : Type} {compress : σ → β → σ}

/-- The inputs of the compression function along the blocks. -/
def inputs (compress : σ → β → σ) : σ → List β → List (σ × β)
  | _, [] => []
  | state, block :: rest => (state, block) :: inputs compress (compress state block) rest

theorem inputs_append (front back : List β) :
    ∀ state : σ, inputs compress state (front ++ back) =
      inputs compress state front ++ inputs compress (front.foldl compress state) back := by
  induction front with
  | nil => exact fun _ => rfl
  | cons block rest inductionHypothesis =>
      intro state
      rw [List.cons_append, inputs, inductionHypothesis, inputs, List.cons_append,
        List.foldl_cons]

/-- Two runs meet: an input of the one and another input of the other have one value. -/
def Meet (compress : σ → β → σ) (initial : σ) (left right : List β) : Prop :=
  ∃ first ∈ inputs compress initial left, ∃ second ∈ inputs compress initial right,
    first ≠ second ∧ compress first.1 first.2 = compress second.1 second.2

/-- Runs to one value meet, unless the blocks of one end the other. -/
theorem meet_of_fold (initial : σ) {left right : List β} (apart : ¬ left <:+ right)
    (unlike : ¬ right <:+ left)
    (same : left.foldl compress initial = right.foldl compress initial) :
    Meet compress initial left right := by
  induction left using List.reverseRecOn generalizing right with
  | nil => exact absurd List.nil_suffix apart
  | append_singleton left block inductionHypothesis =>
      rcases List.eq_nil_or_concat right with rfl | ⟨rest, other, rfl⟩
      · exact absurd List.nil_suffix unlike
      rw [List.concat_eq_append] at apart unlike same ⊢
      rw [List.foldl_append, List.foldl_append, List.foldl_cons, List.foldl_cons, List.foldl_nil,
        List.foldl_nil] at same
      unfold Meet
      rw [inputs_append, inputs_append]
      by_cases equal : (left.foldl compress initial, block) =
          (rest.foldl compress initial, other)
      · -- The last inputs agree, so the fronts must differ.
        obtain ⟨states, rfl⟩ := Prod.mk.inj equal
        obtain ⟨first, early, second, earlier, differ, meet⟩ :=
          inductionHypothesis (fun suffix => apart (List.suffix_append_self_iff.mpr suffix))
            (fun suffix => unlike (List.suffix_append_self_iff.mpr suffix)) states
        exact ⟨first, List.mem_append_left _ early, second, List.mem_append_left _ earlier,
          differ, meet⟩
      · exact ⟨_, List.mem_append_right _ List.mem_cons_self, _,
          List.mem_append_right _ List.mem_cons_self, equal, same⟩

end Collisions

end Omniweft.IteratedHash
