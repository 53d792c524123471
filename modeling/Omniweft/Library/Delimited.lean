import Mathlib.Data.List.Basic

/-!
# Self-delimiting writers

A writer delimits its values when a text that begins with one of them begins with no
other, so that both the value and what follows it can be read back. Writers of one
size delimit, and so do the parts of a record written one after the other and the
entries of a counted list.
-/

namespace Omniweft

variable {τ β γ : Type}

/-- Two good values whose texts begin the same input are equal, and so is the rest. -/
def Delimits (good : β → Prop) (write : β → List τ) : Prop :=
  ∀ left right leftRest rightRest, good left → good right →
    write left ++ leftRest = write right ++ rightRest →
    left = right ∧ leftRest = rightRest

namespace Delimits

variable {good : β → Prop} {write : β → List τ}

theorem injective (delimits : Delimits good write) {left right : β} (leftGood : good left)
    (rightGood : good right) (same : write left = write right) : left = right :=
  (delimits left right [] [] leftGood rightGood (by rw [same])).1

/-- A writer whose texts all have one size. -/
theorem fixed {size : Nat} (sized : ∀ value, good value → (write value).length = size)
    (injective : ∀ left right, good left → good right → write left = write right →
      left = right) :
    Delimits good write := by
  intro left right leftRest rightRest leftGood rightGood same
  have lengths : (write left).length = (write right).length := by
    rw [sized left leftGood, sized right rightGood]
  obtain ⟨front, back⟩ := List.append_inj same lengths
  exact ⟨injective left right leftGood rightGood front, back⟩

theorem weaken {better : β → Prop} (delimits : Delimits good write)
    (stronger : ∀ value, better value → good value) : Delimits better write :=
  fun left right leftRest rightRest leftGood rightGood =>
    delimits left right leftRest rightRest (stronger left leftGood) (stronger right rightGood)

/-- Values that a delimited key determines. -/
theorem comap (delimits : Delimits good write) {key : γ → β} {fine : γ → Prop}
    (keyed : ∀ value, fine value → good (key value))
    (determined : ∀ left right, fine left → fine right → key left = key right →
      left = right) :
    Delimits fine fun value => write (key value) := by
  intro left right leftRest rightRest leftFine rightFine same
  obtain ⟨keys, rest⟩ := delimits (key left) (key right) leftRest rightRest
    (keyed left leftFine) (keyed right rightFine) same
  exact ⟨determined left right leftFine rightFine keys, rest⟩

/-- Two parts one after the other; what the second means may depend on the first. -/
theorem append {first : γ → List τ} {key : β → γ} {keyGood : γ → Prop}
    {second : β → List τ} (front : Delimits keyGood first)
    (keyed : ∀ value, good value → keyGood (key value))
    (back : ∀ shared, Delimits (fun value => good value ∧ key value = shared) second) :
    Delimits good fun value => first (key value) ++ second value := by
  intro left right leftRest rightRest leftGood rightGood same
  rw [List.append_assoc, List.append_assoc] at same
  obtain ⟨keys, later⟩ := front (key left) (key right) _ _ (keyed left leftGood)
    (keyed right rightGood) same
  exact back (key right) left right leftRest rightRest ⟨leftGood, keys⟩ ⟨rightGood, rfl⟩
    later

/-- As many entries on both sides. -/
theorem entries (delimits : Delimits good write) (count : Nat) :
    Delimits (fun items : List β => items.length = count ∧ ∀ item ∈ items, good item)
      fun items => items.flatMap write := by
  induction count with
  | zero =>
      intro left right leftRest rightRest leftGood rightGood same
      obtain rfl := List.length_eq_zero_iff.mp leftGood.1
      obtain rfl := List.length_eq_zero_iff.mp rightGood.1
      exact ⟨rfl, same⟩
  | succ count inductionHypothesis =>
      intro left right leftRest rightRest leftGood rightGood same
      obtain ⟨leftLength, leftEach⟩ := leftGood
      obtain ⟨rightLength, rightEach⟩ := rightGood
      cases left with
      | nil => cases leftLength
      | cons leftHead leftTail =>
          cases right with
          | nil => cases rightLength
          | cons rightHead rightTail =>
              rw [List.forall_mem_cons] at leftEach rightEach
              rw [List.length_cons, Nat.succ.injEq] at leftLength rightLength
              simp only [List.flatMap_cons, List.append_assoc] at same
              obtain ⟨rfl, later⟩ := delimits leftHead rightHead _ _ leftEach.1
                rightEach.1 same
              obtain ⟨rfl, rest⟩ := inductionHypothesis leftTail rightTail _ _
                ⟨leftLength, leftEach.2⟩ ⟨rightLength, rightEach.2⟩ later
              exact ⟨rfl, rest⟩

/-- A list behind its count. -/
theorem counted {counter : Nat → List τ} {small : Nat → Prop} (counts : Delimits small counter)
    (delimits : Delimits good write) :
    Delimits (fun items : List β => small items.length ∧ ∀ item ∈ items, good item)
      fun items => counter items.length ++ items.flatMap write := by
  refine append counts (fun items both => both.1) ?_
  intro count
  exact (entries delimits count).weaken fun items both => ⟨both.2, both.1.2⟩

end Delimits
end Omniweft
