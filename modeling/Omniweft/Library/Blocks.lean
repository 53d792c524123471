import Mathlib.Data.List.Basic

/-!
# Blocks of one width

A list made of blocks of equal width is indexed by the block and the place in it.
-/

namespace Omniweft.Blocks

variable {β : Type} {width : Nat} {blocks : List (List β)}

theorem length_flatten (uniform : ∀ block ∈ blocks, block.length = width) :
    blocks.flatten.length = width * blocks.length := by
  induction blocks with
  | nil => simp
  | cons block rest inductionHypothesis =>
      have here := uniform block List.mem_cons_self
      have later := inductionHypothesis fun other member =>
        uniform other (List.mem_cons_of_mem _ member)
      rw [List.flatten_cons, List.length_append, here, later, List.length_cons, Nat.mul_succ,
        Nat.add_comm]

theorem getElem?_flatten (uniform : ∀ block ∈ blocks, block.length = width) (number : Nat)
    {place : Nat} (inside : place < width) :
    blocks.flatten[width * number + place]? = blocks[number]?.bind (·[place]?) := by
  induction blocks generalizing number with
  | nil => simp
  | cons block rest inductionHypothesis =>
      have here := uniform block List.mem_cons_self
      rw [List.flatten_cons]
      cases number with
      | zero =>
          rw [Nat.mul_zero, Nat.zero_add, List.getElem?_append_left (here ▸ inside)]
          rfl
      | succ number =>
          have beyond : block.length ≤ width * (number + 1) + place := by
            rw [here, Nat.mul_succ]
            omega
          have shifted : width * (number + 1) + place - block.length = width * number + place := by
            rw [here, Nat.mul_succ]
            omega
          rw [List.getElem?_append_right beyond, shifted]
          exact inductionHypothesis
            (fun other member => uniform other (List.mem_cons_of_mem _ member)) number

end Omniweft.Blocks
