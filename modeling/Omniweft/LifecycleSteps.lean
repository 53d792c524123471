import Omniweft.Lifecycle

/-!
# Sections of the supervisor

The invariant of the supervisor and what keeps it. Every section changes at most one
record that is not over yet; `Inv.alter` says once what such a change has to leave in
order.
-/

namespace Omniweft.Lifecycle

open Outcome Python Sdk

variable {α π τ : Type} [Scalar α]

/-- The states in which a mutation may have been sent. -/
def State.released : State → Bool
  | .committed | .rejected | .reconciled => true
  | state => state.busy

def Event.owner : Event π → Nat
  | .submitted id _ => id
  | .accepted id _ _ => id

def Event.submission (id : Nat) : Event π → Option (Option π)
  | .submitted other prepared => if other = id then some prepared else none
  | .accepted _ _ _ => none

/-- The transactions that the client was told to submit for a request. -/
def submissions (id : Nat) (log : List (Event π)) : List (Option π) :=
  log.filterMap (Event.submission id)

/-- The frame was produced for exactly this request. -/
structure Produced (python : Interpreter α) (request : Request α τ) (raw : Text) : Prop where
  matched :
    ∃ entries,
      decode python raw frameLimit = .ok (.dict entries) ∧
        get entries "request_id" = .integer request.requestId ∧
        get entries "generation" = .integer request.generation ∧
        get entries "expected_revision" = .integer request.expectedRevision ∧
        ∃ proposal expected,
          operations request.goal = .ok proposal ∧
            proposal.mapM operationDict = .ok expected ∧
            sameTyped python (get entries "operations") (.list expected) = true

structure Fits (supervisor : Supervisor α π τ) (log : List (Event π)) (id : Nat)
    (record : Record α π τ) : Prop where
  named : record.request.requestId = id
  counted : 1 ≤ id ∧ id ≤ supervisor.count
  live : record.state.final = false → supervisor.active = some id
  current :
    record.state.preSubmit = true → record.request.generation = supervisor.generation
  busy : record.state.busy = true ↔ supervisor.blocked = some id
  released : submissions id log ≠ [] → record.state.released = true
  held : record.state.busy = true → ∀ sent ∈ submissions id log, sent = record.prepared
  same : ∀ first ∈ submissions id log, ∀ second ∈ submissions id log, first = second
  present : ∀ sent ∈ submissions id log, sent.isSome = true
  proposed :
    record.proposal.isSome = true →
      ∃ raw, .accepted id record.request.generation raw ∈ log

/-- What the record of a mutation thread is like. -/
def Stands (log : List (Event π)) (id : Nat) (record : Record α π τ) :
    MutationStage π → Prop
  | .checking | .expiring | .preparing | .storing _ =>
      record.state = .submitting ∧ submissions id log = []
  | .arming =>
      record.state = .submitting ∧ submissions id log = [] ∧ record.prepared.isSome = true
  | .sending | .awaiting | .receiving _ =>
      record.state = .submitting ∧ record.prepared.isSome = true
  | .failing _ => record.state = .submitting
  | .resyncing | .reconciled | .unreconciled => record.state = .reconciling

structure Inv (python : Interpreter α) (supervisor : Supervisor α π τ)
    (log : List (Event π)) : Prop where
  fits : ∀ id record, supervisor.records id = some record → Fits supervisor log id record
  blocked : ∀ id, supervisor.blocked = some id → (supervisor.records id).isSome = true
  unknown : ∀ id, supervisor.records id = none → submissions id log = []
  accepted :
    ∀ id generation raw, .accepted id generation raw ∈ log →
      ∃ record, supervisor.records id = some record ∧
        generation = record.request.generation ∧ Produced python record.request raw
  alone : supervisor.mutations.length ≤ 1
  stands :
    ∀ id stage, (id, stage) ∈ supervisor.mutations →
      ∃ record, supervisor.records id = some record ∧ Stands log id record stage

/-- No record goes away or changes its request, and a state that is over stays. -/
def Lasting (supervisor next : Supervisor α π τ) : Prop :=
  ∀ id record, supervisor.records id = some record →
    ∃ later, next.records id = some later ∧ later.request = record.request ∧
      (record.state.final = true → later.state = record.state)

theorem Lasting.refl (supervisor : Supervisor α π τ) : Lasting supervisor supervisor := by
  intro id record found
  exact ⟨record, found, rfl, fun _ => rfl⟩

theorem Lasting.trans {first second third : Supervisor α π τ}
    (one : Lasting first second) (two : Lasting second third) : Lasting first third := by
  intro id record found
  obtain ⟨middle, kept, request, finished⟩ := one id record found
  obtain ⟨later, still, again, ended⟩ := two id middle kept
  refine ⟨later, still, again.trans request, ?_⟩
  intro final
  have same := finished final
  rw [← same] at final
  exact (ended final).trans same

/-- The invariant holds after a change in which every record lasts. -/
def Kept (python : Interpreter α) (supervisor next : Supervisor α π τ)
    (log : List (Event π)) : Prop :=
  Inv python next log ∧ Lasting supervisor next

variable {python : Interpreter α} {supervisor next : Supervisor α π τ}
  {log : List (Event π)} {id : Nat} {record edited : Record α π τ}

theorem Inv.kept (inv : Inv python supervisor log) : Kept python supervisor supervisor log :=
  ⟨inv, .refl supervisor⟩

theorem Kept.trans {third : Supervisor α π τ} (kept : Kept python supervisor next log)
    (later : Kept python next third log) : Kept python supervisor third log :=
  ⟨later.1, kept.2.trans later.2⟩

theorem final_iff (state : State) :
    state.final = true ↔ state.preSubmit = false ∧ state.busy = false := by
  simp [State.final]

theorem not_released_of_preSubmit {state : State} (pre : state.preSubmit = true) :
    state.released = false := by
  cases state <;> simp_all [State.preSubmit, State.released, State.busy]

theorem not_busy_of_preSubmit {state : State} (pre : state.preSubmit = true) :
    state.busy = false := by
  cases state <;> simp_all [State.preSubmit, State.busy]

theorem released_of_busy {state : State} (busy : state.busy = true) :
    state.released = true := by
  cases state <;> simp_all [State.released, State.busy]

theorem submissions_append (id : Nat) (front back : List (Event π)) :
    submissions id (front ++ back) = submissions id front ++ submissions id back :=
  List.filterMap_append

theorem submissions_other {event : Option (Event π)} {other : Nat}
    (owner : ∀ logged, event = some logged → logged.owner = id) (differs : other ≠ id) :
    submissions other (log ++ event.toList) = submissions other log := by
  rw [submissions_append]
  cases event with
  | none => exact List.append_nil _
  | some logged =>
      have own := owner logged rfl
      cases logged with
      | accepted _ _ _ => exact List.append_nil _
      | submitted sender prepared =>
          have apart : sender ≠ other := by
            intro same
            exact differs (same.symm.trans own)
          simp [submissions, Event.submission, apart]

theorem submissions_submitted (log : List (Event π)) (id : Nat) (prepared : Option π) :
    submissions id (log ++ [.submitted id prepared]) = submissions id log ++ [prepared] := by
  simp [submissions, Event.submission]

theorem submissions_accepted (log : List (Event π)) (id owner generation : Nat) (raw : Text) :
    submissions id (log ++ [.accepted owner generation raw]) = submissions id log := by
  simp [submissions, Event.submission]

theorem change_found (edit : Record α π τ → Record α π τ)
    (found : supervisor.records id = some record) :
    (change supervisor id edit).records id = some (edit record) := by
  simp [change, found]

theorem change_other (edit : Record α π τ → Record α π τ) {other : Nat}
    (differs : other ≠ id) :
    (change supervisor id edit).records other = supervisor.records other := by
  simp [change, differs]

theorem change_id (supervisor : Supervisor α π τ) (id : Nat) :
    (change supervisor id fun record => record).records = supervisor.records := by
  funext other
  by_cases same : other = id
  · simp [change, same]
  · simp [change]

theorem change_change (supervisor : Supervisor α π τ) (id : Nat)
    (first second : Record α π τ → Record α π τ) :
    (change (change supervisor id first) id second).records =
      (change supervisor id fun record => second (first record)).records := by
  funext other
  by_cases same : other = id
  · simp [change, same, Function.comp_def]
  · simp [change, same]

theorem Fits.other {event : Option (Event π)} (fits : Fits supervisor log id record)
    (count : supervisor.count ≤ next.count)
    (generation :
      record.state.preSubmit = true → next.generation = supervisor.generation)
    (active :
      record.state.final = false → supervisor.active = some id → next.active = some id)
    (blocked : next.blocked = some id ↔ supervisor.blocked = some id)
    (quiet : submissions id (log ++ event.toList) = submissions id log) :
    Fits next (log ++ event.toList) id record where
  named := fits.named
  counted := ⟨fits.counted.1, fits.counted.2.trans count⟩
  live unfinished := active unfinished (fits.live unfinished)
  current pre := (fits.current pre).trans (generation pre).symm
  busy := fits.busy.trans blocked.symm
  released := by
    rw [quiet]
    exact fits.released
  held := by
    rw [quiet]
    exact fits.held
  same := by
    rw [quiet]
    exact fits.same
  present := by
    rw [quiet]
    exact fits.present
  proposed proposal := by
    obtain ⟨raw, member⟩ := fits.proposed proposal
    exact ⟨raw, List.mem_append_left _ member⟩

theorem Stands.quiet {event : Option (Event π)} {stage : MutationStage π}
    (stands : Stands log id record stage)
    (quiet : submissions id (log ++ event.toList) = submissions id log) :
    Stands (log ++ event.toList) id record stage := by
  cases stage with
  | checking | expiring | preparing | storing _ | arming =>
      simp only [Stands, quiet] at stands ⊢
      exact stands
  | _ => exact stands

/-- A section that changes one record keeps the invariant when what it leaves of that
record fits, and nothing else moves. -/
theorem Inv.alter (inv : Inv python supervisor log)
    (found : supervisor.records id = some record) (edit : Record α π τ → Record α π τ)
    (event : Option (Event π)) (next : Supervisor α π τ)
    (records : next.records = (change supervisor id edit).records)
    (count : next.count = supervisor.count)
    (generation : next.generation = supervisor.generation)
    (active : ∀ other, other ≠ id → supervisor.active = some other → next.active = some other)
    (blocked :
      ∀ other, other ≠ id → (next.blocked = some other ↔ supervisor.blocked = some other))
    (owner : ∀ logged, event = some logged → logged.owner = id)
    (request : (edit record).request = record.request)
    (final : record.state.final = true → (edit record).state = record.state)
    (fits : Fits next (log ++ event.toList) id (edit record))
    (accepted :
      ∀ sender made raw, event = some (.accepted sender made raw) →
        made = record.request.generation ∧ Produced python record.request raw)
    (alone : next.mutations.length ≤ 1)
    (stands :
      ∀ other stage, (other, stage) ∈ next.mutations →
        (other ≠ id ∧ (other, stage) ∈ supervisor.mutations) ∨
          (other = id ∧ Stands (log ++ event.toList) id (edit record) stage)) :
    Kept python supervisor next (log ++ event.toList) := by
  have here : next.records id = some (edit record) := by
    rw [records, change_found edit found]
  have elsewhere : ∀ other, other ≠ id → next.records other = supervisor.records other := by
    intro other differs
    rw [records, change_other edit differs]
  have quiet : ∀ other, other ≠ id →
      submissions other (log ++ event.toList) = submissions other log :=
    fun other differs => submissions_other owner differs
  refine ⟨⟨?_, ?_, ?_, ?_, alone, ?_⟩, ?_⟩
  · intro other held same
    by_cases own : other = id
    · subst own
      rw [here, Option.some.injEq] at same
      rw [← same]
      exact fits
    · rw [elsewhere other own] at same
      exact (inv.fits other held same).other (le_of_eq count.symm) (fun _ => generation)
        (fun _ => active other own) (blocked other own) (quiet other own)
  · intro other busy
    by_cases own : other = id
    · rw [own, here]
      rfl
    · rw [elsewhere other own]
      exact inv.blocked other ((blocked other own).mp busy)
  · intro other absent
    by_cases own : other = id
    · rw [own, here] at absent
      exact absurd absent (by simp)
    · rw [quiet other own]
      rw [elsewhere other own] at absent
      exact inv.unknown other absent
  · intro other made raw member
    rcases List.mem_append.mp member with old | new
    · obtain ⟨held, same, rest⟩ := inv.accepted other made raw old
      by_cases own : other = id
      · rw [own, found, Option.some.injEq] at same
        rw [own]
        refine ⟨edit record, here, ?_⟩
        rw [request, same]
        exact rest
      · exact ⟨held, (elsewhere other own).trans same, rest⟩
    · have logged : event = some (.accepted other made raw) := by
        simpa [eq_comm] using new
      have own : other = id := owner _ logged
      rw [own]
      refine ⟨edit record, here, ?_⟩
      rw [request]
      exact accepted _ made raw logged
  · intro other stage member
    rcases stands other stage member with ⟨differs, old⟩ | ⟨own, fine⟩
    · obtain ⟨held, same, before⟩ := inv.stands other stage old
      exact ⟨held, (elsewhere other differs).trans same, before.quiet (quiet other differs)⟩
    · rw [own]
      exact ⟨edit record, here, fine⟩
  · intro other held same
    by_cases own : other = id
    · rw [own, found, Option.some.injEq] at same
      rw [own, ← same]
      exact ⟨edit record, here, request, final⟩
    · exact ⟨held, (elsewhere other own).trans same, rfl, fun _ => rfl⟩

/-- A change of nothing that the invariant is about. -/
theorem Inv.frame (inv : Inv python supervisor log) (next : Supervisor α π τ)
    (records : next.records = supervisor.records) (count : next.count = supervisor.count)
    (generation : next.generation = supervisor.generation)
    (active : next.active = supervisor.active) (blocked : next.blocked = supervisor.blocked)
    (mutations : next.mutations = supervisor.mutations) :
    Kept python supervisor next log := by
  refine ⟨⟨?_, ?_, ?_, ?_, ?_, ?_⟩, ?_⟩
  · intro id record found
    rw [records] at found
    have fits : Fits next (log ++ (none : Option (Event π)).toList) id record :=
      (inv.fits id record found).other (le_of_eq count.symm) (fun _ => generation)
        (fun _ held => active.trans held) (by rw [blocked]) (by simp)
    simpa using fits
  · rw [blocked, records]
    exact inv.blocked
  · rw [records]
    exact inv.unknown
  · rw [records]
    exact inv.accepted
  · rw [mutations]
    exact inv.alone
  · rw [mutations, records]
    exact inv.stands
  · intro id record found
    exact ⟨record, records ▸ found, rfl, fun _ => rfl⟩

/-- The record is over after the change. -/
theorem Fits.finish (fits : Fits supervisor log id record)
    (request : edited.request = record.request) (proposal : edited.proposal = record.proposal)
    (count : next.count = supervisor.count) (finished : edited.state.final = true)
    (blocked : next.blocked ≠ some id)
    (released : submissions id log ≠ [] → edited.state.released = true) :
    Fits next log id edited := by
  obtain ⟨settled, idle⟩ := (final_iff _).mp finished
  exact
    { named := by rw [request]; exact fits.named
      counted := by rw [count]; exact fits.counted
      live := by simp [finished]
      current := by simp [settled]
      busy := by simp [idle, blocked]
      released := released
      held := by simp [idle]
      same := fits.same
      present := fits.present
      proposed := by
        rw [proposal, request]
        exact fits.proposed }

/-- The record is busy before and after the change. -/
theorem Fits.carry (fits : Fits supervisor log id record)
    (request : edited.request = record.request) (proposal : edited.proposal = record.proposal)
    (count : next.count = supervisor.count) (active : next.active = supervisor.active)
    (blocked : next.blocked = supervisor.blocked) (was : record.state.busy = true)
    (busy : edited.state.busy = true)
    (prepared : submissions id log = [] ∨ edited.prepared = record.prepared) :
    Fits next log id edited where
  named := by rw [request]; exact fits.named
  counted := by rw [count]; exact fits.counted
  live _ := active.trans (fits.live (by simp [State.final, was]))
  current pre := by
    rw [not_busy_of_preSubmit pre] at busy
    exact absurd busy (by simp)
  busy := by
    rw [blocked, fits.busy.mp was]
    simp [busy]
  released _ := released_of_busy busy
  held _ sent member := by
    rcases prepared with none | same
    · rw [none] at member
      exact absurd member (by simp)
    · rw [same]
      exact fits.held was sent member
  same := fits.same
  present := fits.present
  proposed := by
    rw [proposal, request]
    exact fits.proposed

/-- Nothing that the invariant reads is changed. -/
theorem Fits.quiet (fits : Fits supervisor log id record)
    (request : edited.request = record.request) (proposal : edited.proposal = record.proposal)
    (state : edited.state = record.state) (prepared : edited.prepared = record.prepared)
    (count : next.count = supervisor.count)
    (generation : next.generation = supervisor.generation)
    (active : next.active = supervisor.active) (blocked : next.blocked = supervisor.blocked) :
    Fits next log id edited where
  named := by rw [request]; exact fits.named
  counted := by rw [count]; exact fits.counted
  live := by rw [state, active]; exact fits.live
  current := by rw [state, request, generation]; exact fits.current
  busy := by rw [state, blocked]; exact fits.busy
  released := by rw [state]; exact fits.released
  held := by rw [state, prepared]; exact fits.held
  same := fits.same
  present := fits.present
  proposed := by rw [proposal, request]; exact fits.proposed

theorem Fits.unsent (fits : Fits supervisor log id record)
    (pre : record.state.preSubmit = true) : submissions id log = [] := by
  by_contra sent
  have released := fits.released sent
  rw [not_released_of_preSubmit pre] at released
  exact absurd released (by simp)

theorem Fits.unblocked (fits : Fits supervisor log id record)
    (pre : record.state.preSubmit = true) : supervisor.blocked ≠ some id := by
  intro held
  have busy := fits.busy.mpr held
  rw [not_busy_of_preSubmit pre] at busy
  exact absurd busy (by simp)

theorem Stands.busy {stage : MutationStage π} (stands : Stands log id record stage) :
    record.state.busy = true := by
  cases stage with
  | checking | expiring | preparing | storing _ | arming | sending | awaiting | receiving _ =>
      simp only [Stands] at stands
      simp [stands.1, State.busy]
  | _ =>
      simp only [Stands] at stands
      simp [stands, State.busy]

/-- No mutation thread works on a record that is not busy. -/
theorem Inv.idle (inv : Inv python supervisor log)
    (found : supervisor.records id = some record) (idle : record.state.busy = false)
    {other : Nat} {stage : MutationStage π} (member : (other, stage) ∈ supervisor.mutations) :
    other ≠ id := by
  intro own
  obtain ⟨held, same, stands⟩ := inv.stands other stage member
  rw [own, found, Option.some.injEq] at same
  have busy := stands.busy
  rw [← same, idle] at busy
  exact absurd busy (by simp)

theorem terminal_active {other : Nat} (differs : other ≠ id) (state : State)
    (code : Option Text) (active : supervisor.active = some other) :
    (terminal supervisor id state code).active = some other := by
  have apart : supervisor.active ≠ some id := by
    rw [active]
    simpa using differs
  simp only [terminal, apart, if_false]
  exact active

/-- A record that was not submitted yet ends. -/
theorem Inv.settle (inv : Inv python supervisor log)
    (found : supervisor.records id = some record) (pre : record.state.preSubmit = true)
    (state : State) (code : Option Text) (finished : state.final = true) :
    Kept python supervisor (terminal supervisor id state code) log := by
  have fits := inv.fits id record found
  have idle := not_busy_of_preSubmit pre
  have final : record.state.final ≠ true := by simp [State.final, pre]
  have kept := inv.alter found (coded · state code) none (terminal supervisor id state code)
    rfl rfl rfl (fun other differs active => terminal_active differs state code active)
    (fun _ _ => Iff.rfl) (by simp) rfl (fun ended => absurd ended final)
    (by
      simp only [Option.toList_none, List.append_nil]
      exact fits.finish rfl rfl rfl finished (fits.unblocked pre)
        (fun sent => absurd (fits.unsent pre) sent))
    (by simp) inv.alone
    (fun other stage member => Or.inl ⟨inv.idle found idle member, member⟩)
  simpa using kept

/-- A change of what the invariant does not read. -/
theorem Inv.edit (inv : Inv python supervisor log) (id : Nat)
    (edit : Record α π τ → Record α π τ)
    (request : ∀ record, (edit record).request = record.request)
    (proposal : ∀ record, (edit record).proposal = record.proposal)
    (state : ∀ record, (edit record).state = record.state)
    (prepared : ∀ record, (edit record).prepared = record.prepared) :
    Kept python supervisor (change supervisor id edit) log := by
  cases found : supervisor.records id with
  | none =>
      have same : (change supervisor id edit).records = supervisor.records := by
        funext other
        by_cases own : other = id
        · simp [change, own, found]
        · simp [change, own]
      exact inv.frame _ same rfl rfl rfl rfl rfl
  | some record =>
      have fits := inv.fits id record found
      have kept := inv.alter found edit none (change supervisor id edit) rfl rfl rfl
        (fun _ _ active => active) (fun _ _ => Iff.rfl) (by simp) (request record)
        (fun _ => state record)
        (by
          simp only [Option.toList_none, List.append_nil]
          exact fits.quiet (request record) (proposal record) (state record) (prepared record)
            rfl rfl rfl rfl)
        (by simp) inv.alone
        (by
          intro other stage member
          by_cases own : other = id
          · refine Or.inr ⟨own, ?_⟩
            obtain ⟨held, same, stands⟩ := inv.stands other stage member
            rw [own, found, Option.some.injEq] at same
            rw [own, ← same] at stands
            simp only [Option.toList_none, List.append_nil]
            cases stage <;> simp only [Stands, state, prepared] at stands ⊢ <;> exact stands
          · exact Or.inl ⟨own, member⟩)
      simpa using kept

variable {clock : Clock τ}

theorem Inv.expire (clock : Clock τ) (inv : Inv python supervisor log) (now : τ) (id : Nat) :
    Kept python supervisor (expire clock now supervisor id) log := by
  unfold Lifecycle.expire
  split
  · rename_i record found
    split
    · rename_i late
      rw [Bool.and_eq_true] at late
      exact inv.settle found late.1 .timedOut _ rfl
    · exact inv.kept
  · exact inv.kept

theorem replaceable_iff (id : Nat) :
    replaceable supervisor (some id) = true ↔
      ∃ record, supervisor.records id = some record ∧ record.state.preSubmit = true := by
  cases found : supervisor.records id <;> simp [replaceable, stateAt, found]

theorem Inv.replace (inv : Inv python supervisor log) (id : Nat) (state : State)
    (code : Option Text) (finished : state.final = true) :
    Kept python supervisor
      (if replaceable supervisor (some id) then terminal supervisor id state code
        else supervisor)
      log := by
  split
  · rename_i pre
    obtain ⟨record, found, waiting⟩ := (replaceable_iff id).mp pre
    exact inv.settle found waiting state code finished
  · exact inv.kept

theorem Inv.failRunning (inv : Inv python supervisor log) (id : Nat) (state : State)
    (code : Text) (finished : state.final = true) :
    Kept python supervisor (failRunning supervisor id state code) log := by
  unfold Lifecycle.failRunning
  split
  · rename_i running
    obtain ⟨record, found, same⟩ := Option.map_eq_some_iff.mp running
    exact inv.settle found (by rw [same]; rfl) state _ finished
  · exact inv.kept

end Omniweft.Lifecycle
