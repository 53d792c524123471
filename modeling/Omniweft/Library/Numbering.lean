import Mathlib.Data.List.Basic
import Mathlib.Data.List.Nodup
import Mathlib.Data.List.Range

/-!
# Numbered executions

Events happen one after another; some of them run something and carry a
number. The numbering is tight when each one that runs carries the count of
those before it plus one: then the numbers are one, two, three and so on, and
no number runs twice.
-/

namespace Omniweft.Numbering

variable {Event : Type} (ran : Event → Bool) (number : Event → Nat)

def Tight (events : List Event) : Prop :=
  ∀ before event after, events = before ++ event :: after → ran event = true →
    number event = before.countP ran + 1

variable {ran number}

theorem Tight.nil : Tight ran number [] := by
  intro before event after split _
  simp at split

theorem tight_snoc (events : List Event) (event : Event) :
    Tight ran number (events ++ [event]) ↔
      Tight ran number events ∧
        (ran event = true → number event = events.countP ran + 1) := by
  constructor
  · intro tight
    refine ⟨?_, fun runs => tight events event [] rfl runs⟩
    intro before inner after split runs
    refine tight before inner (after ++ [event]) ?_ runs
    rw [split, List.append_assoc, List.cons_append]
  · intro both before inner after split runs
    obtain ⟨tight, last⟩ := both
    rcases List.eq_nil_or_concat after with empty | ⟨rest, final, ends⟩
    · rw [empty] at split
      obtain ⟨same, equal⟩ := List.append_inj' split rfl
      obtain rfl : event = inner := by simpa using equal
      rw [← same]
      exact last runs
    · rw [ends, List.concat_eq_append, ← List.cons_append, ← List.append_assoc] at split
      obtain ⟨same, _⟩ := List.append_inj' split rfl
      exact tight before inner rest same runs

/-- The numbers run through are one, two, three and so on. -/
theorem Tight.numbers {events : List Event} (tight : Tight ran number events) :
    (events.filter ran).map number = List.range' 1 (events.countP ran) := by
  induction events using List.reverseRecOn with
  | nil => rfl
  | append_singleton events event inductionHypothesis =>
      obtain ⟨before, last⟩ := (tight_snoc events event).mp tight
      rw [List.filter_append, List.map_append, inductionHypothesis before,
        List.countP_append]
      cases runs : ran event with
      | false => simp [runs]
      | true => simp [runs, last runs, List.range'_concat, Nat.add_comm]

/-- No number runs twice. -/
theorem Tight.unique {events : List Event} {first second : Event}
    (tight : Tight ran number events)
    (firstMember : first ∈ events) (firstRuns : ran first = true)
    (secondMember : second ∈ events) (secondRuns : ran second = true)
    (same : number first = number second) :
    first = second := by
  have distinct : ((events.filter ran).map number).Nodup := by
    rw [tight.numbers]
    exact List.nodup_range'
  exact List.inj_on_of_nodup_map distinct
    (List.mem_filter.mpr ⟨firstMember, firstRuns⟩)
    (List.mem_filter.mpr ⟨secondMember, secondRuns⟩) same

end Omniweft.Numbering
