import Omniweft.HistoryEdits

/-!
# Linear undo and redo

A run of a history interleaves its own calls with calls of others on the same
world. While nobody else commits, the content is the baseline with the entries
before the cursor applied; once somebody does, every call is refused until the
history is cleared.
-/

namespace Omniweft.Authoring

open Omniweft.Outcome World Commands Transactions

variable {α : Type} [Scalar α]

def committed (result : Except Thrown Receipt) : Bool :=
  match result with
  | .ok receipt => receipt.status == ascii "committed"
  | .error _ => false

/-- The entries in use, in order. -/
def History.live (history : History α) : List (Entry α) :=
  history.entries.take history.state.entries

section Calls

variable {σ : Type} {library : JsonLibrary α} {world : LiveWorld α} {history : History α}

omit [Scalar α] in
theorem refused_not_committed {revision : UInt64} {result : Except Thrown Receipt}
    (refused : Refused revision result) : committed result = false := by
  cases result with
  | error thrown => rfl
  | ok receipt =>
      obtain ⟨status, _⟩ := refused receipt rfl
      simp only [committed, status]
      decide

/-- The coordinator's answer is a commit that advances the history, or nothing
changes. -/
theorem settle_cases
    (envelope : Envelope α) (guard : Option (StagingGuard α σ)) (guardState : σ)
    (advance : UInt64 → History α) :
    let applied :=
      settle
        (Transactions.applyAtBoundary library world envelope guard
          (none : Option (CommitObserver α Unit)) guardState ())
        history advance
    (∃ next created,
      Commits library world.state envelope next created ∧
        committed applied.result = true ∧
        applied.world = { world with state := next } ∧
        applied.history = advance (world.state.worldRevision + 1)) ∨
      (committed applied.result = false ∧ applied.world = world ∧
        applied.history = history) := by
  rcases apply_commits_or_keeps library world envelope guard
      (none : Option (CommitObserver α Unit)) none guardState () with
    ⟨next, created, commits, published, answered⟩ | ⟨kept, refused⟩
  · refine Or.inl ⟨next, created, commits, ?_, published, ?_⟩
    · simp only [settle, Transactions.applyAtBoundary, answered]
      rfl
    · simp only [settle, Transactions.applyAtBoundary, answered]
      rfl
  · have still := refused_not_committed refused
    refine Or.inr ⟨still, kept, ?_⟩
    unfold committed at still
    simp only [settle, Transactions.applyAtBoundary]
    cases answered :
        (Transactions.apply library world envelope guard
          (none : Option (CommitObserver α Unit)) none guardState ()).result with
    | error thrown => rfl
    | ok receipt =>
        rw [answered] at still
        simp only at still
        simp [still]

omit [Scalar α] in
theorem denied_not_committed (envelope : Envelope α) (revision : UInt64)
    (code path : Text) :
    committed (.ok (rejected envelope revision code path)) = false := by
  change (ascii "rejected" == ascii "committed") = false
  decide

theorem prepare_eq_ok {envelope : Envelope α} {entry : Entry α}
    (prepared : prepare library world history envelope = .ok entry) :
    history.state.expectedRevision = world.state.worldRevision ∧
      history.state.cursor ≠ capacity ∧
      ∃ inverses,
        captureAll world.state envelope.operations = .ok inverses ∧
          entry = ⟨envelope.operations, inverses.reverse⟩ := by
  simp only [prepare, bind_eq_ok, rejectIf_eq_ok, pure_eq_ok, exists_and_left,
    exists_const, Bool.or_eq_false_iff, bne_eq_false_iff_eq, beq_eq_false_iff_ne]
    at prepared
  obtain ⟨_, ⟨_, current⟩, _, _, _, _, room, inverses, captured, _, _, _, same⟩ :=
    prepared
  exact ⟨current, room, inverses, captured, same.symm⟩

/-- An apply commits a captured batch on the state the history expects, or
changes nothing. -/
theorem apply_cases
    (envelope : Envelope α) (guard : Option (StagingGuard α σ)) (guardState : σ) :
    let applied := applyAtBoundary library world history envelope guard guardState
    (∃ inverses next created,
      history.state.expectedRevision = world.state.worldRevision ∧
        history.state.cursor ≠ capacity ∧
        captureAll world.state envelope.operations = .ok inverses ∧
        Commits library world.state envelope next created ∧
        committed applied.result = true ∧
        applied.world = { world with state := next } ∧
        applied.history =
          record history ⟨envelope.operations, inverses.reverse⟩
            (world.state.worldRevision + 1)) ∨
      (committed applied.result = false ∧ applied.world = world ∧
        applied.history = history) := by
  unfold applyAtBoundary
  cases prepared : prepare library world history envelope with
  | error refusal =>
      obtain ⟨code, path⟩ := refusal
      exact Or.inr ⟨denied_not_committed envelope _ code path, rfl, rfl⟩
  | ok entry =>
      obtain ⟨current, room, inverses, captured, same⟩ := prepare_eq_ok prepared
      subst same
      rcases @settle_cases α _ σ library world history envelope guard guardState
          (record history ⟨envelope.operations, inverses.reverse⟩) with
        ⟨next, created, commits, accepted, published, recorded⟩ | kept
      · exact Or.inl ⟨inverses, next, created, current, room, captured, commits, accepted,
          published, recorded⟩
      · exact Or.inr kept

/-- The direction of a navigation and the place of the entry it sends. -/
def Selects (history : History α) (action : Action) (place : Nat) : Prop :=
  (action = .undo ∧ history.state.cursor = place + 1) ∨
    (action = .redo ∧ history.state.cursor = place ∧
      history.state.cursor ≠ history.state.entries)

def Entry.batch (entry : Entry α) (action : Action) : List (Operation α) :=
  if action == .undo then entry.inverse else entry.forward

theorem select_eq_ok {action : Action} {request : Envelope α}
    {operations : List (Operation α)}
    (selected : select library world history action request = .ok operations) :
    history.state.expectedRevision = world.state.worldRevision ∧
      ∃ place,
        Selects history action place ∧
          operations =
            Entry.batch (history.entries[place]?.getD Entry.empty) action := by
  simp only [select, bind_eq_ok, rejectIf_eq_ok, pure_eq_ok, exists_and_left,
    exists_const, Bool.or_eq_false_iff, bne_eq_false_iff_eq] at selected
  obtain ⟨_, _, known, ⟨_, current⟩, ⟨undoable, redoable⟩, _, _, same⟩ := selected
  refine ⟨current, ?_⟩
  cases action with
  | undo =>
      have positive : history.state.cursor ≠ 0 := by simpa using undoable
      exact ⟨history.state.cursor - 1, Or.inl ⟨rfl, by omega⟩, same.2.symm⟩
  | redo =>
      have before : history.state.cursor ≠ history.state.entries := by
        simpa using redoable
      exact ⟨history.state.cursor, Or.inr ⟨rfl, rfl, before⟩, same.2.symm⟩
  | rewindSimulation => exact absurd known (by decide)
  | unlisted => exact absurd known (by decide)

/-- A navigation commits the stored batch at its place on the state the history
expects, or changes nothing. -/
theorem navigate_cases
    (action : Action) (request : Envelope α) (guard : Option (StagingGuard α σ))
    (guardState : σ) :
    let applied :=
      navigateAtBoundary library world history action request guard guardState
    (∃ place next created,
      history.state.expectedRevision = world.state.worldRevision ∧
        Selects history action place ∧
        Commits library world.state
          { request with
            operations :=
              Entry.batch (history.entries[place]?.getD Entry.empty) action }
          next created ∧
        committed applied.result = true ∧
        applied.world = { world with state := next } ∧
        applied.history = move history action (world.state.worldRevision + 1)) ∨
      (committed applied.result = false ∧ applied.world = world ∧
        applied.history = history) := by
  unfold navigateAtBoundary
  cases selected : select library world history action request with
  | error refusal =>
      obtain ⟨code, path⟩ := refusal
      exact Or.inr ⟨denied_not_committed request _ code path, rfl, rfl⟩
  | ok operations =>
      obtain ⟨current, place, selects, same⟩ := select_eq_ok selected
      subst same
      rcases @settle_cases α _ σ library world history
          { request with
            operations :=
              Entry.batch (history.entries[place]?.getD Entry.empty) action }
          guard guardState (move history action) with
        ⟨next, created, commits, accepted, published, moved⟩ | kept
      · exact Or.inl ⟨place, next, created, current, selects, commits, accepted,
          published, moved⟩
      · exact Or.inr kept

end Calls

/-- A world with the history on it. -/
structure Session (α : Type) where
  world : LiveWorld α
  history : History α

/-- A session with what its run is judged by: the content when the history was
constructed or last cleared, and whether anybody else committed since. -/
structure Tracked (α : Type) where
  session : Session α
  baseline : Snapshot α
  foreign : Bool

inductive Run (library : JsonLibrary α) : Tracked α → Prop
  | start {world : LiveWorld α} :
      Reachable library world →
      Run library ⟨⟨world, construct world⟩, content world.state, false⟩
  | apply {session : Session α} {baseline : Snapshot α} {foreign : Bool} {σ : Type}
      (envelope : Envelope α) (guard : Option (StagingGuard α σ)) (guardState : σ)
      (applied : Applied α σ) :
      Run library ⟨session, baseline, foreign⟩ →
      applyAtBoundary library session.world session.history envelope guard guardState =
        applied →
      Run library ⟨⟨applied.world, applied.history⟩, baseline, foreign⟩
  | navigate {session : Session α} {baseline : Snapshot α} {foreign : Bool} {σ : Type}
      (action : Action) (request : Envelope α) (guard : Option (StagingGuard α σ))
      (guardState : σ) (applied : Applied α σ) :
      Run library ⟨session, baseline, foreign⟩ →
      navigateAtBoundary library session.world session.history action request guard
          guardState = applied →
      Run library ⟨⟨applied.world, applied.history⟩, baseline, foreign⟩
  | clear {session : Session α} {baseline : Snapshot α} {foreign : Bool} :
      Run library ⟨session, baseline, foreign⟩ →
      Run library
        ⟨⟨session.world, clearAtBoundary session.world⟩, content session.world.state,
          false⟩
  | other {session : Session α} {baseline : Snapshot α} {foreign : Bool} {σ τ : Type}
      (envelope : Envelope α) (guard : Option (StagingGuard α σ))
      (observer : Option (CommitObserver α τ)) (bindings : Option (List CreatedBinding))
      (guardState : σ) (observerState : τ) (applied : Transactions.Applied α σ τ) :
      Run library ⟨session, baseline, foreign⟩ →
      Transactions.apply library session.world envelope guard observer bindings
          guardState observerState = applied →
      Run library
        ⟨⟨applied.world, session.history⟩, baseline,
          foreign || committed applied.result⟩

/-- What every state of a run satisfies. -/
structure Consistent (library : JsonLibrary α) (tracked : Tracked α) : Prop where
  reachable : Reachable library tracked.session.world
  length : tracked.session.history.entries.length = capacity
  full : tracked.session.history.state.entries ≤ capacity
  inside :
    tracked.session.history.state.cursor ≤ tracked.session.history.state.entries
  own :
    tracked.foreign = false →
      tracked.session.history.state.expectedRevision =
          tracked.session.world.state.worldRevision ∧
        Timeline.At applyBatch tracked.baseline tracked.session.history.live
          tracked.session.history.state.cursor (content tracked.session.world.state)
  stale :
    tracked.foreign = true →
      tracked.session.history.state.expectedRevision <
        tracked.session.world.state.worldRevision

theorem Consistent.ours {library : JsonLibrary α} {tracked : Tracked α}
    (consistent : Consistent library tracked)
    (current :
      tracked.session.history.state.expectedRevision =
        tracked.session.world.state.worldRevision) :
    tracked.foreign = false := by
  cases foreign : tracked.foreign with
  | false => rfl
  | true =>
      have stale := consistent.stale foreign
      rw [current] at stale
      exact absurd stale (UInt64.lt_irrefl _)

theorem live_length {library : JsonLibrary α} {tracked : Tracked α}
    (consistent : Consistent library tracked) :
    tracked.session.history.live.length = tracked.session.history.state.entries := by
  rw [History.live, List.length_take, consistent.length]
  exact Nat.min_eq_left consistent.full

theorem record_live {library : JsonLibrary α} {tracked : Tracked α}
    (consistent : Consistent library tracked)
    (room : tracked.session.history.state.cursor ≠ capacity) (entry : Entry α)
    (revision : UInt64) :
    (record tracked.session.history entry revision).live =
      tracked.session.history.live.take tracked.session.history.state.cursor ++
        [entry] := by
  have inside := consistent.inside
  have full := consistent.full
  have length := consistent.length
  have below : tracked.session.history.state.cursor < capacity := by omega
  apply List.ext_getElem?
  intro place
  simp only [History.live, record, List.take_take, Nat.min_eq_left inside,
    List.getElem?_take, List.getElem?_mapIdx, List.getElem?_append, List.length_take,
    length, Nat.min_eq_left below.le]
  rcases Nat.lt_trichotomy place tracked.session.history.state.cursor with
    before | here | beyond
  · have kept : ¬ tracked.session.history.state.cursor + 1 ≤ place := by omega
    have early : place < tracked.session.history.state.cursor + 1 := by omega
    simp only [before, early, kept, if_true, false_and, if_false]
    rw [List.getElem?_set_ne (by omega), Option.map_id']
  · subst here
    have kept : ¬ tracked.session.history.state.cursor + 1 ≤
        tracked.session.history.state.cursor := by omega
    simp [kept, length, below]
  · have late : ¬ place < tracked.session.history.state.cursor + 1 := by omega
    have after : ¬ place < tracked.session.history.state.cursor := by omega
    have last : place - tracked.session.history.state.cursor ≠ 0 := by omega
    simp [late, after, last]

/-- A batch of the history keeps the run consistent with the place the cursor
moves to. -/
theorem Consistent.advance {library : JsonLibrary α} {tracked : Tracked α}
    (consistent : Consistent library tracked) (foreign : tracked.foreign = false)
    {envelope : Envelope α} {next : Snapshot α} {created : List CreatedBinding}
    (commits : Commits library tracked.session.world.state envelope next created)
    {history : History α} (length : history.entries.length = capacity)
    (full : history.state.entries ≤ capacity)
    (inside : history.state.cursor ≤ history.state.entries)
    (revision :
      history.state.expectedRevision = tracked.session.world.state.worldRevision + 1)
    (here :
      Timeline.At applyBatch tracked.baseline history.live history.state.cursor
        (content next)) :
    Consistent library
      ⟨⟨{ tracked.session.world with state := next }, history⟩, tracked.baseline,
        tracked.foreign⟩ := by
  obtain ⟨_, staged, _, same⟩ := id commits
  refine ⟨consistent.reachable.commit trivial commits, length, full, inside,
    fun _ => ⟨?_, here⟩, fun impossible => ?_⟩
  · rw [revision, same]
    rfl
  · rw [foreign] at impossible
    exact absurd impossible (by simp)

/-- The entry a navigation selects is in use. -/
theorem live_getElem {library : JsonLibrary α} {tracked : Tracked α}
    (consistent : Consistent library tracked) {action : Action} {place : Nat}
    (selects : Selects tracked.session.history action place) :
    tracked.session.history.live[place]? =
      tracked.session.history.entries[place]? := by
  have inside := consistent.inside
  rw [History.live, List.getElem?_take, if_pos]
  rcases selects with ⟨_, cursor⟩ | ⟨_, cursor, before⟩
  · omega
  · omega

theorem selected_live {library : JsonLibrary α} {tracked : Tracked α}
    (consistent : Consistent library tracked) {action : Action} {place : Nat}
    (selects : Selects tracked.session.history action place) :
    ∃ entry, tracked.session.history.live[place]? = some entry := by
  have inside := consistent.inside
  have full := consistent.full
  have length := consistent.length
  have small : place < tracked.session.history.entries.length := by
    rcases selects with ⟨_, cursor⟩ | ⟨_, cursor, before⟩
    · omega
    · omega
  exact ⟨_, (live_getElem consistent selects).trans (List.getElem?_eq_getElem small)⟩

theorem Run.consistent {library : JsonLibrary α} {tracked : Tracked α}
    (run : Run library tracked) : Consistent library tracked := by
  induction run with
  | @start world reachable =>
      refine ⟨reachable, by simp [construct], by simp [construct],
        by simp [construct], fun _ => ⟨rfl, ?_⟩, fun impossible => absurd impossible (by simp)⟩
      exact Timeline.At.start (content world.state)
  | @apply session baseline foreign σ envelope guard guardState applied _ same
      consistent =>
      subst same
      rcases @apply_cases α _ σ library session.world session.history envelope guard
          guardState with
        ⟨inverses, next, created, current, room, captured, commits, _, published,
          recorded⟩ | ⟨_, kept, unmoved⟩
      · have ours := consistent.ours current
        have sound := consistent.reachable.sound
        have spans :=
          capture_spans sound (reachable_tidy consistent.reachable) captured commits
        have here := (consistent.own ours).2.record spans
        have inside := consistent.inside
        have full := consistent.full
        rw [published, recorded]
        refine consistent.advance ours commits ?_ ?_ (Nat.le_refl _) rfl ?_
        · simpa [record] using consistent.length
        · change session.history.state.cursor + 1 ≤ capacity
          change session.history.state.cursor ≤ session.history.state.entries at inside
          change session.history.state.entries ≤ capacity at full
          omega
        · rw [record_live consistent room]
          exact here
      · rw [kept, unmoved]
        exact consistent
  | @navigate session baseline foreign σ action request guard guardState applied _ same
      consistent =>
      subst same
      rcases @navigate_cases α _ σ library session.world session.history action request
          guard guardState with
        ⟨place, next, created, current, selects, commits, _, published, moved⟩ |
          ⟨_, kept, unmoved⟩
      · have ours := consistent.ours current
        have inside := consistent.inside
        have full := consistent.full
        have here := (consistent.own ours).2
        have applies := commits.content
        obtain ⟨entry, present⟩ := selected_live consistent selects
        have stored : session.history.entries[place]? = some entry :=
          (live_getElem consistent selects).symm.trans present
        rw [stored, Option.getD_some] at applies
        rw [published, moved]
        rcases selects with ⟨undo, cursor⟩ | ⟨redo, cursor, before⟩
        · subst undo
          change session.history.state.cursor ≤ session.history.state.entries at inside
          change
            Timeline.At applyBatch baseline session.history.live
              session.history.state.cursor (content session.world.state) at here
          rw [cursor] at here
          have back : session.history.state.cursor - 1 = place := by omega
          refine consistent.advance ours commits consistent.length full ?_ rfl ?_
          · change session.history.state.cursor - 1 ≤ session.history.state.entries
            omega
          · change
              Timeline.At applyBatch baseline session.history.live
                (session.history.state.cursor - 1) (content next)
            rw [back]
            exact here.undo present applies
        · subst redo cursor
          change session.history.state.cursor ≤ session.history.state.entries at inside
          refine consistent.advance ours commits consistent.length full ?_ rfl ?_
          · change session.history.state.cursor + 1 ≤ session.history.state.entries
            omega
          · exact here.redo present applies
      · rw [kept, unmoved]
        exact consistent
  | @clear session baseline foreign _ consistent =>
      refine ⟨consistent.reachable, by simp [clearAtBoundary], by simp [clearAtBoundary],
        by simp [clearAtBoundary], fun _ => ⟨rfl, ?_⟩,
        fun impossible => absurd impossible (by simp)⟩
      exact Timeline.At.start (content session.world.state)
  | @other session baseline foreign σ τ envelope guard observer bindings guardState
      observerState applied _ same consistent =>
      subst same
      rcases apply_commits_or_keeps library session.world envelope guard observer bindings
          guardState observerState with
        ⟨next, created, commits, published, answered⟩ | ⟨kept, refused⟩
      · have accepted :
            committed
                (Transactions.apply library session.world envelope guard observer bindings
                  guardState observerState).result = true := by
          rw [answered]
          rfl
        rw [published, accepted, Bool.or_true]
        refine ⟨consistent.reachable.commit trivial commits, consistent.length,
          consistent.full, consistent.inside, fun impossible => absurd impossible (by simp),
          fun _ => ?_⟩
        have raised := commits.revision.2
        change session.history.state.expectedRevision < next.worldRevision
        rw [UInt64.lt_iff_toNat_lt, raised]
        cases foreign with
        | false =>
            have current := (consistent.own rfl).1
            change
              session.history.state.expectedRevision =
                session.world.state.worldRevision at current
            rw [current]
            omega
        | true =>
            have stale := consistent.stale rfl
            change
              session.history.state.expectedRevision <
                session.world.state.worldRevision at stale
            rw [UInt64.lt_iff_toNat_lt] at stale
            omega
      · rw [kept, refused_not_committed refused, Bool.or_false]
        exact ⟨consistent.reachable, consistent.length, consistent.full,
          consistent.inside, consistent.own, consistent.stale⟩

/-- `count` accepted navigations in one direction. -/
inductive Navigations (library : JsonLibrary α) (action : Action) :
    Nat → Session α → Session α → Prop
  | done (session : Session α) : Navigations library action 0 session session
  | step {count : Nat} {session last : Session α} {σ : Type} (request : Envelope α)
      (guard : Option (StagingGuard α σ)) (guardState : σ) (applied : Applied α σ) :
      navigateAtBoundary library session.world session.history action request guard
          guardState = applied →
      committed applied.result = true →
      Navigations library action count ⟨applied.world, applied.history⟩ last →
      Navigations library action (count + 1) session last

/-- Where the cursor stands after a navigation at `place`. -/
def landing (action : Action) (place : Nat) : Nat :=
  if action == .undo then place else place + 1

/-- What holds of a session in the course of a run. -/
structure LinearHistory (library : JsonLibrary α) (tracked : Tracked α) : Prop where
  bounds :
    tracked.session.history.state.cursor ≤ tracked.session.history.state.entries ∧
      tracked.session.history.state.entries ≤ capacity
  /-- The content is the baseline with the entries before the cursor applied. -/
  linear :
    tracked.foreign = false →
      (tracked.session.history.live.take
            tracked.session.history.state.cursor).foldlM
          (fun state entry => applyBatch entry.forward state) tracked.baseline =
        some (content tracked.session.world.state)
  /-- An accepted apply replaces the redo tail by its batch; nothing is accepted
  once somebody else committed; a rejected apply changes nothing. -/
  applies :
    ∀ {σ : Type} (envelope : Envelope α) (guard : Option (StagingGuard α σ))
      (guardState : σ),
      let applied :=
        applyAtBoundary library tracked.session.world tracked.session.history envelope
          guard guardState
      (committed applied.result = true ∧ tracked.foreign = false ∧
          (∃ inverse,
            applied.history.live =
              tracked.session.history.live.take tracked.session.history.state.cursor ++
                [⟨envelope.operations, inverse⟩]) ∧
          applied.history.state.cursor = tracked.session.history.state.cursor + 1) ∨
        (committed applied.result = false ∧
          applied.world = tracked.session.world ∧
          applied.history = tracked.session.history)
  navigates :
    ∀ {σ : Type} (action : Action) (request : Envelope α)
      (guard : Option (StagingGuard α σ)) (guardState : σ),
      let applied :=
        navigateAtBoundary library tracked.session.world tracked.session.history action
          request guard guardState
      (committed applied.result = true ∧ tracked.foreign = false ∧
          applied.history.live = tracked.session.history.live ∧
          ∃ place,
            Selects tracked.session.history action place ∧
              applied.history.state.cursor = landing action place) ∨
        (committed applied.result = false ∧
          applied.world = tracked.session.world ∧
          applied.history = tracked.session.history)
  /-- As many redos as undos lead back. -/
  returns :
    tracked.foreign = false →
      ∀ count middle last,
        Navigations library .undo count tracked.session middle →
        Navigations library .redo count middle last →
        content last.world.state = content tracked.session.world.state ∧
          last.history.live = tracked.session.history.live ∧
          last.history.state.cursor = tracked.session.history.state.cursor

omit [Scalar α] in
theorem move_cursor {history : History α} {action : Action} {place : Nat}
    (selects : Selects history action place) (revision : UInt64) :
    (move history action revision).state.cursor = landing action place := by
  rcases selects with ⟨undo, cursor⟩ | ⟨redo, cursor, _⟩
  · subst undo
    change history.state.cursor - 1 = place
    omega
  · subst redo cursor
    rfl

/-- Accepted navigations stay within one run and count the cursor. -/
theorem Navigations.run {library : JsonLibrary α} {action : Action} {count : Nat}
    {first last : Session α} (moves : Navigations library action count first last)
    {baseline : Snapshot α} (begun : Run library ⟨first, baseline, false⟩) :
    Run library ⟨last, baseline, false⟩ ∧ last.history.live = first.history.live ∧
      (action = .undo → last.history.state.cursor + count = first.history.state.cursor) ∧
      (action = .redo →
        last.history.state.cursor = first.history.state.cursor + count) := by
  induction moves with
  | done session => exact ⟨begun, rfl, fun _ => rfl, fun _ => rfl⟩
  | @step count session last σ request guard guardState applied same accepted _
      inductionHypothesis =>
      have next := Run.navigate action request guard guardState applied begun same
      obtain ⟨run, sameLive, undone, redone⟩ := inductionHypothesis next
      subst same
      rcases @navigate_cases α _ σ library session.world session.history action request
          guard guardState with
        ⟨place, _, _, _, selects, _, _, _, moved⟩ | ⟨refused, _⟩
      · refine ⟨run, ?_, ?_, ?_⟩
        · rw [sameLive, moved]
          rfl
        · intro undo
          have total := undone undo
          rw [moved, move_cursor selects, undo] at total
          rcases selects with ⟨_, cursor⟩ | ⟨redo, _⟩
          · change _ = place at total
            omega
          · rw [undo] at redo
            exact absurd redo (by simp)
        · intro redo
          have total := redone redo
          rw [moved, move_cursor selects, redo] at total
          rcases selects with ⟨undo, _⟩ | ⟨_, cursor, _⟩
          · rw [redo] at undo
            exact absurd undo (by simp)
          · change _ = place + 1 + count at total
            omega
      · rw [accepted] at refused
        exact absurd refused (by simp)

/-- Every run of a history is linear. -/
theorem linear_history {library : JsonLibrary α} {tracked : Tracked α}
    (run : Run library tracked) : LinearHistory library tracked := by
  have consistent := run.consistent
  refine ⟨⟨consistent.inside, consistent.full⟩, ?_, ?_, ?_, ?_⟩
  · intro foreign
    exact (consistent.own foreign).2.past.forward
  · intro σ envelope guard guardState
    rcases @apply_cases α _ σ library tracked.session.world tracked.session.history
        envelope guard guardState with
      ⟨inverses, _, _, current, room, _, _, accepted, _, recorded⟩ | kept
    · refine Or.inl ⟨accepted, consistent.ours current, ⟨inverses.reverse, ?_⟩, ?_⟩
      · rw [recorded, record_live consistent room]
      · rw [recorded]
        rfl
    · exact Or.inr kept
  · intro σ action request guard guardState
    rcases @navigate_cases α _ σ library tracked.session.world tracked.session.history
        action request guard guardState with
      ⟨place, _, _, current, selects, _, accepted, _, moved⟩ | kept
    · refine Or.inl ⟨accepted, consistent.ours current, ?_, place, selects, ?_⟩
      · rw [moved]
        rfl
      · rw [moved, move_cursor selects]
    · exact Or.inr kept
  · intro foreign count middle last back forth
    obtain ⟨session, baseline, others⟩ := tracked
    subst foreign
    obtain ⟨atMiddle, middleLive, undone, _⟩ := back.run run
    obtain ⟨atLast, lastLive, _, redone⟩ := forth.run atMiddle
    have sameLive := lastLive.trans middleLive
    have sameCursor : last.history.state.cursor = session.history.state.cursor := by
      have down :
          middle.history.state.cursor + count = session.history.state.cursor := undone rfl
      have up := redone rfl
      omega
    have here := (consistent.own rfl).2
    have there := (atLast.consistent.own rfl).2
    change Timeline.At applyBatch baseline last.history.live last.history.state.cursor
      (content last.world.state) at there
    rw [sameLive, sameCursor] at there
    exact ⟨there.unique here, sameLive, sameCursor⟩

def sampleAuthored : LiveWorld Halves :=
  (sampleApply sampleWorld (sampleEnvelope 0 [sampleCreate "a"])).world

def sampleEdit : Envelope Halves :=
  sampleEnvelope 1
    [.transformSet
        ⟨sampleSlot 0, ⟨Scalar.ofInt 3, Scalar.ofInt 0, Scalar.ofInt 0⟩,
          ⟨Scalar.ofInt 0, Scalar.ofInt 0, Scalar.ofInt 0, Scalar.ofInt 1⟩,
          ⟨Scalar.ofInt 1, Scalar.ofInt 1, Scalar.ofInt 1⟩⟩,
      .entityTagsSet ⟨sampleSlot 0, [ascii "b", ascii "a"]⟩]

def sampleEdited : Applied Halves Unit :=
  applyAtBoundary JsonText.library sampleAuthored (construct sampleAuthored) sampleEdit
    none ()

def sampleUndone : Applied Halves Unit :=
  navigateAtBoundary JsonText.library sampleEdited.world sampleEdited.history .undo
    (sampleEnvelope 2 []) none ()

def sampleTracked : Tracked Halves :=
  ⟨⟨sampleUndone.world, sampleUndone.history⟩, content sampleAuthored.state, false⟩

set_option maxRecDepth 20000 in
theorem linear_history_undone :
    sampleUndone.history.state = ⟨1, 0, 3⟩ ∧
      LinearHistory JsonText.library sampleTracked := by
  refine ⟨rfl, linear_history ?_⟩
  refine @Run.navigate Halves _ JsonText.library
    ⟨sampleEdited.world, sampleEdited.history⟩ (content sampleAuthored.state) false Unit
    .undo (sampleEnvelope 2 []) none () sampleUndone ?_ rfl
  exact Run.apply sampleEdit none () sampleEdited
    (Run.start
      (ReachableBy.call (sampleEnvelope 0 [sampleCreate "a"]) none none none () () trivial
        (@ReachableBy.fresh Halves _ _ _ 1 (ascii "world") 7 4 sampleWorld.state rfl)))
    rfl

end Omniweft.Authoring
