import Omniweft.Retry
import Omniweft.Library.Numbering

/-!
# At most once

Over any calls between two resets the window runs callbacks for one, two, three
and so on, each once. What it keeps about a number is what the one execution of
that number left.
-/

namespace Omniweft.Retry

open Transactions

variable {σ : Type}

/-- The number the window would admit next, or none once it is exhausted. -/
def Admits (window : Window) (sequence : UInt64) : Prop :=
  window.exhausted = false ∧ window.next = sequence ∧ sequence ≠ 0

def Fitting (canonical : Text) : Prop :=
  canonical ≠ [] ∧ canonical.length ≤ payloadLimit

/-- The receipt a window keeps from what a callback did. -/
def kept (outcome : Except Thrown Receipt) : Option Receipt :=
  match outcome with
  | .error _ => none
  | .ok receipt => if bounded receipt then some receipt else none

/-- What a callback did. -/
def outcome (callback : EStateM Thrown σ Receipt) (state : σ) :
    Except Thrown Receipt × σ :=
  match callback state with
  | .error thrown after => (.error thrown, after)
  | .ok receipt after => (.ok receipt, after)

theorem expire_member {now : Nat} {window : Window} {entry : Entry}
    (member : entry ∈ (expire now window).entries) (used : entry.sequence ≠ 0) :
    entry ∈ window.entries ∧ now < entry.deadline := by
  simp only [expire, Vector.mem_map] at member
  obtain ⟨old, oldMember, same⟩ := member
  split at same
  · rw [← same] at used
    exact absurd rfl used
  · rename_i live
    rw [← same] at used ⊢
    simp only [Bool.and_eq_true, bne_iff_ne, decide_eq_true_eq, not_and, not_le] at live
    exact ⟨oldMember, live used⟩

/-- A second look at a later time sees only the later time. -/
theorem expire_expire {first second : Nat} (window : Window) (ordered : first ≤ second) :
    expire second (expire first window) = expire second window := by
  simp only [expire, Vector.map_map]
  congr 1
  apply Vector.map_congr_left
  intro entry _
  simp only [Function.comp_apply]
  split
  · rename_i past
    simp only [Bool.and_eq_true, bne_iff_ne, decide_eq_true_eq] at past
    have later : entry.deadline ≤ second := past.2.trans ordered
    simp [past.1, later, Entry.empty]
  · rfl

theorem store_member {window : Window} {entry kept : Entry}
    (member : kept ∈ (store window entry).entries) :
    kept = entry ∨ kept ∈ window.entries := by
  rcases @Vector.mem_or_eq_of_mem_set _ _ _ _ _ _ (slot entry.sequence).isLt member
    with old | new
  · exact Or.inr old
  · exact Or.inl new

/-- Storing the receipt overwrites the entry that reserved the slot. -/
theorem store_reserved (window : Window) {reserved entry : Entry}
    (same : reserved.sequence = entry.sequence) :
    store (consume (store window reserved)) entry = consume (store window entry) := by
  unfold consume
  split <;> rename_i last <;> simp only [store, same, Vector.set_set] at last ⊢ <;>
    simp [last]

@[simp]
theorem consume_entries (window : Window) : (consume window).entries = window.entries := by
  unfold consume
  split <;> rfl

/-- The entry an execution leaves for its number. -/
def entryOf (now : Nat) (sequence : UInt64) (canonical : Text)
    (outcome : Except Thrown Receipt) : Entry :=
  ⟨sequence, canonical, kept outcome, now + receiptLifetime⟩

theorem perform_spec
    (now : Nat) (sequence : UInt64) (canonical : Text)
    (callback : EStateM Thrown σ Receipt) (window : Window) (state : σ) :
    let done := perform now sequence canonical callback window state
    done.ran = some (outcome callback state).1 ∧
      done.state = (outcome callback state).2 ∧
      done.result.receipt = kept (outcome callback state).1 ∧
      done.result.replayed = false ∧
      done.window =
        consume
          (store window (entryOf now sequence canonical (outcome callback state).1)) := by
  unfold perform outcome entryOf
  cases callback state with
  | error thrown after => exact ⟨rfl, rfl, rfl, rfl, rfl⟩
  | ok receipt after =>
      cases small : bounded receipt with
      | false => simp [kept, small]
      | true =>
          simp only [kept, small, if_true, true_and]
          exact store_reserved window rfl

theorem replay_receipt {window : Window} {sequence : UInt64} {canonical : Text}
    {receipt : Receipt}
    (answered : (replay window sequence canonical).receipt = some receipt) :
    (replay window sequence canonical).replayed = true ∧
      ∃ entry ∈ window.entries,
        entry.sequence = sequence ∧ entry.payload = canonical ∧
          entry.receipt = some receipt := by
  unfold replay at answered ⊢
  cases found : window.entries.toList.find? fun entry => entry.sequence == sequence with
  | none => simp [found] at answered
  | some entry =>
      have member := List.mem_of_find?_eq_some found
      have key := List.find?_some found
      simp only [found] at answered ⊢
      by_cases same : entry.payload = canonical
      · simp only [same, bne_self_eq_false, Bool.false_eq_true, if_false] at answered ⊢
        cases held : entry.receipt with
        | none => simp [held] at answered
        | some old =>
            simp only [held, Option.some.injEq] at answered ⊢
            refine ⟨trivial, entry, by simpa using member, ?_, same, ?_⟩
            · simpa using key
            · rw [held, answered]
      · simp [same] at answered

theorem replay_replayed {window : Window} {sequence : UInt64} {canonical : Text}
    (replayed : (replay window sequence canonical).replayed = true) :
    ∃ receipt, (replay window sequence canonical).receipt = some receipt := by
  unfold replay at replayed ⊢
  split at replayed
  · simp at replayed
  · split at replayed
    · simp at replayed
    · split at replayed
      · simp at replayed
      · simp_all

/-- A call runs the callback of the number to admit and keeps what it left, or
runs nothing and answers from what is kept. -/
theorem execute_cases
    (now : Nat) (sequence : UInt64) (canonical : Text)
    (apply : Option (EStateM Thrown σ Receipt)) (before : Window) (state : σ) :
    let done := execute now sequence canonical apply before state
    (∃ callback,
      apply = some callback ∧ Admits before sequence ∧ Fitting canonical ∧
        done = perform now sequence canonical callback (expire now before) state) ∨
      (done.ran = none ∧ done.state = state ∧ done.window = expire now before ∧
        (∀ receipt, done.result.receipt = some receipt →
          done.result.replayed = true ∧ sequence ≠ 0 ∧
            ∃ entry ∈ (expire now before).entries,
              entry.sequence = sequence ∧ entry.payload = canonical ∧
                entry.receipt = some receipt) ∧
        (done.result.replayed = true → ∃ receipt, done.result.receipt = some receipt) ∧
        (Admits before sequence → Fitting canonical → apply = none)) := by
  intro done
  by_cases early :
      (sequence == 0 || (!before.exhausted && decide (before.next < sequence))) = true
  · have answered : done =
        ⟨⟨none, ascii "REQUIRES_RESYNC", false⟩, expire now before, state, none⟩ :=
      if_pos early
    rw [answered]
    refine Or.inr ⟨rfl, rfl, rfl, by simp, by simp, ?_⟩
    intro admits _
    obtain ⟨unspent, next, nonzero⟩ := admits
    simp [unspent, next, nonzero] at early
  by_cases consumed : (decide (sequence < before.next) || before.exhausted) = true
  · have answered : done =
        ⟨replay (expire now before) sequence canonical, expire now before, state, none⟩ :=
      (if_neg early).trans (if_pos consumed)
    rw [answered]
    have nonzero : sequence ≠ 0 := by
      intro zero
      simp [zero] at early
    refine Or.inr ⟨rfl, rfl, rfl, fun receipt given => ?_, replay_replayed, ?_⟩
    · obtain ⟨replayed, held⟩ := replay_receipt given
      exact ⟨replayed, nonzero, held⟩
    intro admits _
    obtain ⟨unspent, next, _⟩ := admits
    simp [unspent, next] at consumed
  have admits : Admits before sequence := by
    simp only [Bool.or_eq_true, beq_iff_eq, Bool.and_eq_true, Bool.not_eq_true',
      decide_eq_true_eq, not_or, not_and, UInt64.not_lt, Bool.not_eq_true] at early consumed
    obtain ⟨nonzero, within⟩ := early
    obtain ⟨reached, unspent⟩ := consumed
    exact ⟨unspent, UInt64.le_antisymm reached (within unspent), nonzero⟩
  by_cases oversized : (canonical.isEmpty || decide (payloadLimit < canonical.length)) = true
  · have answered : done =
        ⟨⟨none, ascii "BUDGET_EXCEEDED", false⟩, expire now before, state, none⟩ :=
      ((if_neg early).trans (if_neg consumed)).trans (if_pos oversized)
    rw [answered]
    refine Or.inr ⟨rfl, rfl, rfl, by simp, by simp, ?_⟩
    intro _ fits
    obtain ⟨nonempty, short⟩ := fits
    simp only [Bool.or_eq_true, List.isEmpty_iff, nonempty, decide_eq_true_eq,
      false_or] at oversized
    omega
  have fits : Fitting canonical := by
    simp only [Bool.or_eq_true, List.isEmpty_iff, decide_eq_true_eq, not_or,
      not_lt] at oversized
    exact oversized
  cases present : apply with
  | none =>
      have answered : done =
          ⟨⟨none, ascii "BUDGET_EXCEEDED", false⟩, expire now before, state, none⟩ := by
        subst present
        exact ((if_neg early).trans (if_neg consumed)).trans (if_neg oversized)
      rw [answered]
      exact Or.inr ⟨rfl, rfl, rfl, by simp, by simp, fun _ _ => rfl⟩
  | some callback =>
      refine Or.inl ⟨callback, rfl, admits, fits, ?_⟩
      subst present
      exact ((if_neg early).trans (if_neg consumed)).trans (if_neg oversized)

/-- A call that was made: what it asked, what it was told, and what the
callback did if it ran. -/
structure Event where
  now : Nat
  sequence : UInt64
  canonical : Text
  callable : Bool
  result : Result
  ran : Option (Except Thrown Receipt)

def Event.executed (event : Event) : Bool :=
  event.ran.isSome

def Event.number (event : Event) : Nat :=
  event.sequence.toNat

/-- What a window knows of the calls since its reset. -/
structure Tracks (window : Window) (events : List Event) : Prop where
  tight : Numbering.Tight Event.executed Event.number events
  counter :
    (window.exhausted = false ∧
        window.next.toNat = events.countP Event.executed + 1) ∨
      (window.exhausted = true ∧ events.countP Event.executed + 1 = 2 ^ 64)
  recorded :
    ∀ entry ∈ window.entries, entry.sequence ≠ 0 →
      ∃ event ∈ events, ∃ outcome,
        event.ran = some outcome ∧
          entry = entryOf event.now event.sequence event.canonical outcome

/-- What a call may do, given the calls before it. -/
structure Lawful (before : List Event) (event : Event) : Prop where
  admitted :
    event.executed = true ↔
      event.sequence.toNat = before.countP Event.executed + 1 ∧
        Fitting event.canonical ∧ event.callable = true
  replayed :
    event.result.replayed = true →
      event.ran = none ∧
        ∃ first ∈ before, ∃ receipt,
          first.ran = some (.ok receipt) ∧ bounded receipt = true ∧
            event.result.receipt = some receipt ∧
            first.sequence = event.sequence ∧ first.canonical = event.canonical ∧
            event.now < first.now + receiptLifetime
  received :
    ∀ receipt, event.result.receipt = some receipt →
      event.result.replayed = true ∨
        event.ran = some (.ok receipt) ∧ bounded receipt = true

def eventOf (now : Nat) (sequence : UInt64) (canonical : Text)
    (apply : Option (EStateM Thrown σ Receipt)) (done : Executed σ) : Event :=
  ⟨now, sequence, canonical, apply.isSome, done.result, done.ran⟩

theorem tracks_reset (window : Window) : Tracks (reset window) [] := by
  refine ⟨Numbering.Tight.nil, Or.inl ⟨rfl, rfl⟩, ?_⟩
  intro entry member used
  have blank : entry = Entry.empty := by
    simpa [reset] using (Vector.mem_replicate.mp member).2
  rw [blank] at used
  exact absurd rfl used

theorem Tracks.admits {window : Window} {events : List Event}
    (tracks : Tracks window events) (sequence : UInt64) :
    Admits window sequence ↔ sequence.toNat = events.countP Event.executed + 1 := by
  have below := sequence.toNat_lt
  rcases tracks.counter with ⟨unspent, next⟩ | ⟨spent, full⟩
  · constructor
    · intro admits
      rw [← admits.2.1, next]
    · intro same
      refine ⟨unspent, UInt64.toNat_inj.mp (next.trans same.symm), ?_⟩
      intro zero
      rw [zero] at same
      exact absurd same (by simp)
  · constructor
    · intro admits
      have unspent := admits.1
      rw [spent] at unspent
      exact absurd unspent (by decide)
    · intro same
      omega

theorem kept_eq_some {outcome : Except Thrown Receipt} {receipt : Receipt} :
    kept outcome = some receipt ↔ outcome = .ok receipt ∧ bounded receipt = true := by
  cases outcome with
  | error thrown => simp [kept]
  | ok returned =>
      simp only [kept]
      split
      · rename_i small
        constructor
        · intro same
          obtain rfl : returned = receipt := by simpa using same
          exact ⟨rfl, small⟩
        · intro both
          rw [both.1.symm |> Except.ok.inj]
      · rename_i large
        constructor
        · intro same
          exact absurd same (by simp)
        · intro both
          obtain ⟨same, small⟩ := both
          rw [Except.ok.inj same] at large
          exact absurd small large

theorem consume_counter {window : Window} {sequence : UInt64} {count : Nat}
    (admits : Admits window sequence) (same : sequence.toNat = count + 1) :
    ((consume window).exhausted = false ∧ (consume window).next.toNat = count + 1 + 1) ∨
      ((consume window).exhausted = true ∧ count + 1 + 1 = 2 ^ 64) := by
  obtain ⟨unspent, next, _⟩ := admits
  unfold consume
  by_cases last : window.next = maximum64
  · rw [if_pos (by simpa using last)]
    refine Or.inr ⟨rfl, ?_⟩
    have value : sequence.toNat = 18446744073709551615 := by
      rw [← next, last]
      rfl
    omega
  · rw [if_neg (by simpa using last)]
    refine Or.inl ⟨unspent, ?_⟩
    have below := window.next.toNat_lt
    have notLast : window.next.toNat ≠ 18446744073709551615 := by
      intro value
      exact last (UInt64.toNat_inj.mp value)
    have advanced : (window.next + 1).toNat = window.next.toNat + 1 := by
      rw [UInt64.toNat_add, UInt64.toNat_one]
      omega
    rw [advanced, next, same]

/-- One call keeps what the window knows, and is lawful. -/
theorem Tracks.execute {window : Window} {events : List Event}
    (tracks : Tracks window events)
    (now : Nat) (sequence : UInt64) (canonical : Text)
    (apply : Option (EStateM Thrown σ Receipt)) (state : σ) :
    let done := execute now sequence canonical apply window state
    let event := eventOf now sequence canonical apply done
    Tracks done.window (events ++ [event]) ∧ Lawful events event := by
  intro done event
  rcases execute_cases now sequence canonical apply window state with
    ⟨callback, present, admits, fits, performed⟩ |
    ⟨idle, _, emptied, answered, replays, refused⟩
  · obtain ⟨ran, _, received, fresh, stored⟩ :=
      perform_spec now sequence canonical callback (expire now window) state
    rw [← performed] at ran received fresh stored
    have number := (tracks.admits sequence).mp admits
    have runs : event.executed = true := by
      simp [event, eventOf, Event.executed, done, ran]
    refine ⟨⟨?_, ?_, ?_⟩, ⟨?_, ?_, ?_⟩⟩
    · exact (Numbering.tight_snoc events event).mpr ⟨tracks.tight, fun _ => number⟩
    · rw [List.countP_append, List.countP_singleton, if_pos runs]
      rw [stored]
      exact consume_counter admits number
    · intro entry member used
      rw [stored, consume_entries] at member
      rcases store_member member with new | old
      · refine ⟨event, List.mem_append_right events (List.mem_singleton_self event), ?_⟩
        exact ⟨(outcome callback state).1, ran, new⟩
      · obtain ⟨past, _⟩ := expire_member old used
        obtain ⟨first, firstMember, recorded⟩ := tracks.recorded entry past used
        exact ⟨first, List.mem_append_left _ firstMember, recorded⟩
    · refine iff_of_true runs ⟨number, fits, ?_⟩
      simp [event, eventOf, present]
    · intro replayed
      exact absurd (replayed.symm.trans fresh) (by decide)
    · intro receipt given
      obtain ⟨returned, small⟩ := kept_eq_some.mp (received.symm.trans given)
      exact Or.inr ⟨ran.trans (congrArg some returned), small⟩
  · have still : event.executed = false := by
      simp [event, eventOf, Event.executed, done, idle]
    refine ⟨⟨?_, ?_, ?_⟩, ⟨?_, ?_, ?_⟩⟩
    · refine (Numbering.tight_snoc events event).mpr ⟨tracks.tight, fun runs => ?_⟩
      exact absurd (runs.symm.trans still) (by decide)
    · rw [List.countP_append, List.countP_singleton, if_neg (by simp [still]), emptied]
      exact tracks.counter
    · intro entry member used
      rw [emptied] at member
      obtain ⟨past, _⟩ := expire_member member used
      obtain ⟨first, firstMember, recorded⟩ := tracks.recorded entry past used
      exact ⟨first, List.mem_append_left _ firstMember, recorded⟩
    · refine iff_of_false (by simp [still]) ?_
      intro allowed
      obtain ⟨number, fits, callable⟩ := allowed
      have absent := refused ((tracks.admits sequence).mpr number) fits
      simp [event, eventOf, absent] at callable
    · intro replayed
      refine ⟨idle, ?_⟩
      obtain ⟨receipt, given⟩ := replays replayed
      obtain ⟨_, nonzero, entry, member, key, payload, held⟩ := answered receipt given
      have used : entry.sequence ≠ 0 := by
        rw [key]
        exact nonzero
      obtain ⟨past, live⟩ := expire_member member used
      obtain ⟨first, firstMember, outcome, ran, recorded⟩ := tracks.recorded entry past used
      rw [recorded] at key payload held live
      obtain ⟨returned, small⟩ := kept_eq_some.mp held
      exact ⟨first, firstMember, receipt, ran.trans (congrArg some returned), small,
        given, key, payload, live⟩
    · intro receipt given
      exact Or.inl (answered receipt given).1

structure Call (σ : Type) where
  now : Nat
  sequence : UInt64
  canonical : Text
  apply : Option (EStateM Thrown σ Receipt)

/-- The calls in order on one window and one state. -/
def run (window : Window) (state : σ) : List (Call σ) → List Event
  | [] => []
  | call :: rest =>
      let done := execute call.now call.sequence call.canonical call.apply window state
      eventOf call.now call.sequence call.canonical call.apply done ::
        run done.window done.state rest

/-- The numbers run are one, two, three and so on; whatever else is answered
comes from the one execution of that number. -/
structure AtMostOnce (events : List Event) : Prop where
  lawful :
    ∀ before event after, events = before ++ event :: after → Lawful before event
  numbers :
    (events.filter Event.executed).map Event.number =
      List.range' 1 (events.countP Event.executed)
  exhausted :
    ∀ before event after, events = before ++ event :: after →
      event.executed = true → event.sequence = maximum64 →
      ∀ later ∈ after, later.executed = false
  spent :
    ∀ first ∈ events, ∀ outcome, first.ran = some outcome →
      (∀ receipt, outcome = .ok receipt → bounded receipt = false) →
      ∀ event ∈ events, event.sequence = first.sequence → event.result.receipt = none

theorem Tracks.run {window : Window} {past : List Event}
    (tracks : Tracks window past) (state : σ) (calls : List (Call σ)) :
    Numbering.Tight Event.executed Event.number (past ++ run window state calls) ∧
      ∀ before event after, run window state calls = before ++ event :: after →
        Lawful (past ++ before) event := by
  induction calls generalizing window past state with
  | nil =>
      refine ⟨?_, ?_⟩
      · rw [Retry.run, List.append_nil]
        exact tracks.tight
      · intro before event after split
        exact absurd split (by simp [Retry.run])
  | cons call rest inductionHypothesis =>
      obtain ⟨next, lawful⟩ :=
        tracks.execute call.now call.sequence call.canonical call.apply state
      obtain ⟨tight, later⟩ := inductionHypothesis next
        (Retry.execute call.now call.sequence call.canonical call.apply window state).state
      refine ⟨?_, ?_⟩
      · rw [Retry.run, List.append_cons]
        exact tight
      · intro before event after split
        rw [Retry.run] at split
        cases before with
        | nil =>
            obtain ⟨same, _⟩ := List.cons_eq_cons.mp split
            rw [← same, List.append_nil]
            exact lawful
        | cons head tail =>
            obtain ⟨same, others⟩ := List.cons_eq_cons.mp split
            rw [← same, List.append_cons]
            exact later tail event after others

/-- The last number of all is the last that runs. -/
theorem last_number {events before after : List Event} {event later : Event}
    (tight : Numbering.Tight Event.executed Event.number events)
    (split : events = before ++ event :: after) (runs : event.executed = true)
    (last : event.sequence = maximum64) (member : later ∈ after) :
    later.executed = false := by
  rw [Bool.eq_false_iff]
  intro again
  have number := tight before event after split runs
  obtain ⟨middle, rest, inside⟩ := List.append_of_mem member
  have numbered := tight (before ++ event :: middle) later rest
    (by rw [split, inside, List.append_assoc, List.cons_append]) again
  rw [List.countP_append, List.countP_cons_of_pos runs] at numbered
  have below := later.sequence.toNat_lt
  have value : event.number = 18446744073709551615 := by
    rw [Event.number, last]
    rfl
  simp only [Event.number] at number numbered value
  omega

/-- A number whose execution left no receipt to keep never yields one. -/
theorem spent_number {events : List Event}
    (tight : Numbering.Tight Event.executed Event.number events)
    (lawful : ∀ before event after, events = before ++ event :: after →
      Lawful before event)
    {first event : Event} {outcome : Except Thrown Receipt}
    (firstMember : first ∈ events) (ran : first.ran = some outcome)
    (unkept : ∀ receipt, outcome = .ok receipt → bounded receipt = false)
    (member : event ∈ events) (same : event.sequence = first.sequence) :
    event.result.receipt = none := by
  rw [Option.eq_none_iff_forall_ne_some]
  intro receipt given
  have only : ∀ other ∈ events, other.ran = some (.ok receipt) →
      bounded receipt = true → other.sequence = event.sequence → False := by
    intro other otherMember otherRan small key
    have equal : other = first :=
      tight.unique otherMember (by simp [Event.executed, otherRan])
        firstMember (by simp [Event.executed, ran])
        (congrArg UInt64.toNat (key.trans same))
    rw [equal, ran] at otherRan
    have large := unkept receipt (Option.some.inj otherRan)
    exact absurd (small.symm.trans large) (by decide)
  obtain ⟨before, after, split⟩ := List.append_of_mem member
  have law := lawful before event after split
  rcases law.received receipt given with replayed | ⟨own, small⟩
  · obtain ⟨_, origin, past, kept, originRan, small, held, key, _⟩ := law.replayed replayed
    obtain rfl : kept = receipt := Option.some.inj (held.symm.trans given)
    exact only origin (by rw [split]; exact List.mem_append_left _ past) originRan small key
  · exact only event member own small rfl

theorem execute_expire {first second : Nat} (sequence : UInt64) (canonical : Text)
    (apply : Option (EStateM Thrown σ Receipt)) (window : Window) (state : σ)
    (ordered : first ≤ second) :
    execute second sequence canonical apply (expire first window) state =
      execute second sequence canonical apply window state := by
  unfold execute
  rw [expire_expire window ordered]

/-- A call that ran nothing leaves every other call as it would be without it. -/
theorem run_without (window : Window) (state : σ) (before after : List (Call σ))
    (call : Call σ)
    (ordered :
      (before ++ call :: after).Pairwise fun first second => first.now ≤ second.now)
    (idle : ∀ event, (run window state (before ++ call :: after))[before.length]? =
      some event → event.ran = none) :
    run window state (before ++ after) =
      (run window state (before ++ call :: after)).eraseIdx before.length := by
  induction before generalizing window state with
  | nil =>
      have still := idle _ rfl
      rcases execute_cases call.now call.sequence call.canonical call.apply window state with
        ⟨callback, _, _, _, performed⟩ | ⟨_, kept, emptied, _⟩
      · obtain ⟨ran, _⟩ :=
          perform_spec call.now call.sequence call.canonical callback
            (expire call.now window) state
        rw [← performed] at ran
        exact absurd (ran.symm.trans still) (by simp)
      · change run window state after = run _ _ after
        rw [kept, emptied]
        cases after with
        | nil => rfl
        | cons next rest =>
            have later : call.now ≤ next.now := by
              have first := (List.pairwise_cons.mp ordered).1
              exact first next List.mem_cons_self
            simp only [run, execute_expire _ _ _ _ _ later]
  | cons head tail inductionHypothesis =>
      have rest := (List.pairwise_cons.mp ordered).2
      have shorter := inductionHypothesis
        (execute head.now head.sequence head.canonical head.apply window state).window
        (execute head.now head.sequence head.canonical head.apply window state).state
        rest (fun event found => idle event found)
      simp only [List.cons_append, run, shorter]
      rfl

/-- Between two resets the window runs each number at most once, in order, and
hands out only what that execution returned; a refused call changes nothing for
the others. -/
theorem at_most_once (window : Window) (state : σ) (calls : List (Call σ))
    (ordered : calls.Pairwise fun first second => first.now ≤ second.now) :
    AtMostOnce (run (reset window) state calls) ∧
      ∀ before call after, calls = before ++ call :: after →
        (∀ event, (run (reset window) state calls)[before.length]? = some event →
          event.ran = none) →
        run (reset window) state (before ++ after) =
          (run (reset window) state calls).eraseIdx before.length := by
  obtain ⟨tight, lawful⟩ := (tracks_reset window).run state calls
  rw [List.nil_append] at tight
  refine ⟨⟨?_, tight.numbers, ?_, ?_⟩, ?_⟩
  · intro before event after split
    exact lawful before event after split
  · intro before event after split runs last later member
    exact last_number tight split runs last member
  · intro first firstMember outcome ran unkept event member same
    exact spent_number tight lawful firstMember ran unkept member same
  · intro before call after split idle
    subst split
    exact run_without (reset window) state before after call ordered idle

/-- A returned receipt, the same call again, an oversized receipt and a throw. -/
def sampleCalls : List (Call Nat) :=
  let count : EStateM Thrown Nat Receipt := fun total =>
    .ok ⟨ascii "committed", ascii "volatile", [], total.toUInt64, [], []⟩ (total + 1)
  let oversized : EStateM Thrown Nat Receipt := fun total =>
    .ok ⟨ascii "committed", ascii "durable", [], 0, [], []⟩ total
  let throwing : EStateM Thrown Nat Receipt := fun total => .error .other total
  [⟨0, 2, ascii "p", some count⟩, ⟨0, 1, [], some count⟩, ⟨0, 1, ascii "p", some count⟩,
    ⟨1100000000, 1, ascii "p", some count⟩, ⟨1100000000, 2, ascii "p", some oversized⟩,
    ⟨1100000000, 3, ascii "p", some throwing⟩, ⟨2000000000, 1, ascii "p", none⟩]

theorem at_most_once_sample :
    (run (reset ⟨Vector.replicate windowSize Entry.empty, 9, true⟩) 0 sampleCalls).map
        (fun event => (event.result.receipt.isSome, event.result.replayed)) =
      [(false, false), (false, false), (true, false), (true, true), (false, false),
        (false, false), (false, false)] ∧
      AtMostOnce (run (reset ⟨Vector.replicate windowSize Entry.empty, 9, true⟩) 0
        sampleCalls) :=
  ⟨by decide +kernel, (at_most_once _ 0 sampleCalls (by decide)).1⟩

end Omniweft.Retry
