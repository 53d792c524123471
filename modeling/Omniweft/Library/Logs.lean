import Mathlib.Data.List.Basic

/-!
# Lawful logs

A law says what an event may be, given the events before it. A log is lawful
when each of its events is; it then grows event by event.
-/

namespace Omniweft.Logs

variable {Event : Type}

def Each (law : List Event → Event → Prop) (log : List Event) : Prop :=
  ∀ before event after, log = before ++ event :: after → law before event

variable {law : List Event → Event → Prop}

theorem Each.nil : Each law [] := by
  intro before event after split
  simp at split

theorem each_snoc (log : List Event) (event : Event) :
    Each law (log ++ [event]) ↔ Each law log ∧ law log event := by
  constructor
  · intro each
    refine ⟨?_, each log event [] rfl⟩
    intro before inner after split
    refine each before inner (after ++ [event]) ?_
    rw [split, List.append_assoc, List.cons_append]
  · intro both before inner after split
    obtain ⟨each, last⟩ := both
    rcases List.eq_nil_or_concat after with empty | ⟨rest, final, ends⟩
    · rw [empty] at split
      obtain ⟨same, equal⟩ := List.append_inj' split rfl
      obtain rfl : event = inner := by simpa using equal
      rw [← same]
      exact last
    · rw [ends, List.concat_eq_append, ← List.cons_append, ← List.append_assoc] at split
      obtain ⟨same, _⟩ := List.append_inj' split rfl
      exact each before inner rest same

/-- The events so far are lawful whatever comes after them. -/
theorem Each.front {front back : List Event} (each : Each law (front ++ back)) :
    Each law front := by
  intro before event after split
  refine each before event (after ++ back) ?_
  rw [split, List.append_assoc, List.cons_append]

/-- A step that logs at most one event. -/
theorem each_option (log : List Event) (event : Option Event) :
    Each law (log ++ event.toList) ↔
      Each law log ∧ ∀ logged, event = some logged → law log logged := by
  cases event with
  | none => simp
  | some logged => simp [each_snoc]

theorem Each.member {log : List Event} (each : Each law log) {event : Event}
    (member : event ∈ log) : ∃ before after, log = before ++ event :: after ∧ law before event := by
  obtain ⟨before, after, split⟩ := List.append_of_mem member
  exact ⟨before, after, split, each before event after split⟩

end Omniweft.Logs
