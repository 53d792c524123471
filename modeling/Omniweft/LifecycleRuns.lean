import Omniweft.LifecycleCalls
import Omniweft.JsonText

/-!
# Runs of the supervisor

The worker and mutation threads step by step, and what holds after any run. There
is never more than one mutation thread, and its record is the blocked one.
-/

namespace Omniweft.Lifecycle

open Outcome Python Sdk

variable {α π τ : Type} [Scalar α] {python : Interpreter α} {clock : Clock τ}
  {supervisor next : Supervisor α π τ} {log : List (Event π)} {id : Nat}
  {record : Record α π τ}

theorem Inv.moveWorker (inv : Inv python supervisor log) (index : Nat) (stage : WorkerStage) :
    Kept python supervisor (moveWorker supervisor index stage) log :=
  inv.frame _ rfl rfl rfl rfl rfl rfl

theorem Kept.moveWorker (kept : Kept python supervisor next log) (index : Nat)
    (stage : WorkerStage) :
    Kept python supervisor (moveWorker next index stage) log :=
  kept.trans (kept.1.moveWorker index stage)

/-- A frame that passes the checks of `_accept` was produced for the request. -/
theorem proposed_produced {request : Request α τ} {raw : Text}
    {proposal : List (Operation α)} (found : proposed python request raw = .ok proposal) :
    Produced python request raw := by
  unfold proposed at found
  simp only [bind_eq_ok, rejectIf_eq_ok, pure_eq_ok, decide_eq_false_iff_not, ne_eq,
    Decidable.not_not, Bool.not_eq_false'] at found
  obtain ⟨value, decoded, entries, read, _, _, number, named, _, sameId, generation, made, _,
    sameGeneration, revision, based, _, sameRevision, operations, goal, expected, dicts, _,
    typed, _⟩ := found
  rw [fields_dict read] at decoded
  have id := (integer_eq_ok.mp named).1
  have generation := (integer_eq_ok.mp made).1
  have revision := (integer_eq_ok.mp based).1
  rw [sameId] at id
  rw [sameGeneration] at generation
  rw [sameRevision] at revision
  exact ⟨entries, decoded, id, generation, revision, operations, expected, goal, dicts, typed⟩

/-- A running record of the current generation gets its proposal. -/
theorem Inv.propose (inv : Inv python supervisor log)
    (found : supervisor.records id = some record) (running : record.state = .running)
    (generation : record.request.generation = supervisor.generation) {raw : Text}
    (produced : Produced python record.request raw) (operations : List (Operation α)) :
    Kept python supervisor
      (change supervisor id fun record =>
        { record with proposal := some operations, state := .proposalReady })
      (log ++ [.accepted id supervisor.generation raw]) := by
  have fits := inv.fits id record found
  have pre : record.state.preSubmit = true := by rw [running]; rfl
  have idle := not_busy_of_preSubmit pre
  exact inv.alter found
    (fun record => { record with proposal := some operations, state := .proposalReady })
    (some (.accepted id supervisor.generation raw)) _ rfl rfl rfl
    (fun _ _ active => active) (fun _ _ => Iff.rfl)
    (fun _ logged => by rw [← Option.some.inj logged]; rfl) rfl
    (fun finished => by simp [State.final, pre] at finished)
    (by
      have silent :
          submissions id (log ++ (some (Event.accepted id supervisor.generation raw)).toList) =
            [] :=
        (submissions_accepted log id id _ raw).trans (fits.unsent pre)
      exact
        { named := fits.named
          counted := fits.counted
          live := fun _ => fits.live (by simp [State.final, pre])
          current := fun _ => generation
          busy := by
            have apart := fits.unblocked pre
            simp only [change]
            simp [State.busy, apart]
          released := fun sent => absurd silent sent
          held := by simp [State.busy]
          same := by rw [silent]; simp
          present := by rw [silent]; simp
          proposed := fun _ => ⟨raw, by simp [generation]⟩ })
    (by
      intro sender made frame logged
      simp only [Option.some.injEq, Event.accepted.injEq] at logged
      obtain ⟨_, rfl, rfl⟩ := logged
      exact ⟨generation.symm, produced⟩)
    inv.alone
    (fun other stage member => Or.inl ⟨inv.idle found idle member, member⟩)

theorem expire_request {later : Record α π τ} (now : τ)
    (found : supervisor.records id = some record)
    (after : (expire clock now supervisor id).records id = some later) :
    later.request = record.request := by
  unfold expire at after
  simp only [found] at after
  split at after
  · simp only [terminal, change_found _ found, Option.some.injEq] at after
    rw [← after]
    rfl
  · rw [found, Option.some.injEq] at after
    rw [after]

theorem Inv.accept (clock : Clock τ) (inv : Inv python supervisor log) (now : τ)
    (found : supervisor.records id = some record) {raw : Text}
    (produced : Produced python record.request raw) (operations : List (Operation α)) :
    let done := accept clock now supervisor id raw operations
    Kept python supervisor done.1 (log ++ done.2.toList) := by
  have expired := inv.expire clock now id
  unfold Lifecycle.accept
  dsimp only
  split
  · simpa using expired
  rename_i current held
  have request := expire_request now found held
  split
  · have edited := expired.1.edit id
      (fun record => { record with lateResults := record.lateResults + 1 })
      (fun _ => rfl) (fun _ => rfl) (fun _ => rfl) (fun _ => rfl)
    simpa using expired.trans edited
  · rename_i allowed
    have running : current.state = .running := by
      by_contra other
      exact allowed (by simp [other])
    have generation : current.request.generation =
        (Lifecycle.expire clock now supervisor id).generation := by
      by_contra other
      exact allowed (by simp [other])
    rw [← request] at produced
    have proposed := expired.1.propose held running generation produced operations
    exact ⟨proposed.1, expired.2.trans proposed.2⟩

theorem Inv.cleanUp (inv : Inv python supervisor log) (id : Nat) (cleaned : Bool) :
    Kept python supervisor (cleanUp supervisor id cleaned) log := by
  have marked := inv.edit id (fun record => { record with workerCleaned := cleaned })
    (fun _ => rfl) (fun _ => rfl) (fun _ => rfl) (fun _ => rfl)
  unfold Lifecycle.cleanUp
  dsimp only
  split
  · exact marked.trans (marked.1.frame _ rfl rfl rfl rfl rfl rfl)
  · exact marked.trans (marked.1.replace id .workerFailed _ rfl)

theorem Inv.work (inv : Inv python supervisor log)
    (found : supervisor.records id = some record) (now later : τ) (index : Nat)
    (outside : Outside) (stage : WorkerStage) :
    let done := work clock python now later supervisor index id record outside stage
    Kept python supervisor done.1 (log ++ done.2.toList) := by
  have silent : ∀ {next : Supervisor α π τ}, Kept python supervisor next log →
      Kept python supervisor next (log ++ (none : Option (Event π)).toList) := by
    intro next kept
    simpa using kept
  cases stage with
  | entering =>
      simp only [Lifecycle.work]
      split
      · exact silent ((inv.expire clock later id).moveWorker index .cleaning)
      · exact silent (inv.moveWorker index .working)
  | working => exact silent (inv.moveWorker index _)
  | judging exchange => exact silent ((inv.expire clock now id).moveWorker index _)
  | accepting raw =>
      simp only [Lifecycle.work]
      split
      · exact silent (inv.moveWorker index _)
      · rename_i operations passed
        have accepted := inv.accept clock now found (proposed_produced passed) operations
        exact accepted.moveWorker index .cleaning
  | crashing code invalid =>
      simp only [Lifecycle.work]
      refine silent (Kept.moveWorker ?_ index .cleaning)
      split
      · exact inv.failRunning id .crashed _ rfl
      · exact inv.failRunning id .workerFailed _ rfl
  | excepting isProtocol =>
      exact silent ((inv.failRunning id .workerFailed _ rfl).moveWorker index .cleaning)
  | cleaning =>
      have cleaned := inv.cleanUp id outside.cleaned
      exact silent (cleaned.trans (cleaned.1.frame _ rfl rfl rfl rfl rfl rfl))

theorem Inv.only (inv : Inv python supervisor log) {index : Nat} {stage : MutationStage π}
    (here : supervisor.mutations[index]? = some (id, stage)) :
    index = 0 ∧ supervisor.mutations = [(id, stage)] := by
  have alone := inv.alone
  match listed : supervisor.mutations with
  | [] => simp [listed] at here
  | [thread] =>
      rw [listed, List.getElem?_singleton] at here
      split at here
      · rename_i first
        rw [Option.some.injEq] at here
        exact ⟨first, by rw [here]⟩
      · exact absurd here (by simp)
  | _ :: _ :: _ =>
      rw [listed] at alone
      simp at alone

theorem moveMutation_only {stage : MutationStage π}
    (only : supervisor.mutations = [(id, stage)]) (later : MutationStage π) :
    (moveMutation supervisor 0 later).mutations = [(id, later)] := by
  rw [moveMutation, only]
  rfl

/-- A thread that leaves its record busy. -/
theorem Inv.carry (inv : Inv python supervisor log)
    (found : supervisor.records id = some record) {stage : MutationStage π}
    (stands : Stands log id record stage)
    (edit : Record α π τ → Record α π τ) (next : Supervisor α π τ)
    (records : next.records = (change supervisor id edit).records)
    (count : next.count = supervisor.count)
    (generation : next.generation = supervisor.generation)
    (active : next.active = supervisor.active) (blocked : next.blocked = supervisor.blocked)
    (request : (edit record).request = record.request)
    (proposal : (edit record).proposal = record.proposal)
    (busy : (edit record).state.busy = true)
    (prepared : submissions id log = [] ∨ (edit record).prepared = record.prepared)
    (staged :
      next.mutations = [] ∨
        ∃ later, next.mutations = [(id, later)] ∧ Stands log id (edit record) later) :
    Kept python supervisor next log := by
  have was := stands.busy
  have fits := inv.fits id record found
  have kept := inv.alter found edit none next records count generation
    (fun _ _ held => active.trans held) (fun _ _ => by rw [blocked]) (by simp) request
    (fun finished => by simp [State.final, was] at finished)
    (by
      simp only [Option.toList_none, List.append_nil]
      exact fits.carry request proposal count active blocked was busy prepared)
    (by simp)
    (by
      rcases staged with bare | ⟨later, one, _⟩
      · simp [bare]
      · simp [one])
    (by
      intro other later member
      rcases staged with bare | ⟨next, one, fine⟩
      · simp [bare] at member
      · simp only [one, List.mem_singleton, Prod.mk.injEq] at member
        refine Or.inr ⟨member.1, ?_⟩
        rw [member.2]
        simpa using fine)
  simpa using kept

/-- A thread whose record is over. -/
theorem Inv.release (inv : Inv python supervisor log)
    (found : supervisor.records id = some record) {stage : MutationStage π}
    (only : supervisor.mutations = [(id, stage)]) (stands : Stands log id record stage)
    (edit : Record α π τ → Record α π τ) (state : State) (code : Option Text)
    (request : ∀ record, (edit record).request = record.request)
    (proposal : ∀ record, (edit record).proposal = record.proposal)
    (finished : state.final = true)
    (released : submissions id log ≠ [] → state.released = true) :
    Kept python supervisor
      (endMutation (terminal { change supervisor id edit with blocked := none } id state code) 0)
      log := by
  have was := stands.busy
  have fits := inv.fits id record found
  have blocked := fits.busy.mp was
  have kept := inv.alter found (fun record => coded (edit record) state code) none
    (endMutation (terminal { change supervisor id edit with blocked := none } id state code) 0)
    (change_change _ id _ _) rfl rfl
    (fun other differs active =>
      terminal_active differs state code active)
    (by
      intro other differs
      have apart : supervisor.blocked ≠ some other := by
        rw [blocked]
        simpa using Ne.symm differs
      simp [endMutation, terminal, change, apart])
    (by simp) (request record) (fun ended => by simp [State.final, was] at ended)
    (by
      simp only [Option.toList_none, List.append_nil]
      exact fits.finish (request record) (proposal record) rfl finished
        (by simp [endMutation, terminal, change]) released)
    (by simp)
    (by simp [endMutation, terminal, change, only])
    (by
      intro other later member
      simp [endMutation, terminal, change, only] at member)
  simpa using kept

/-- The client is told to submit the prepared transaction. -/
theorem Inv.send (inv : Inv python supervisor log)
    (found : supervisor.records id = some record)
    (only : supervisor.mutations = [(id, .sending)])
    (stands : Stands log id record .sending) :
    Kept python supervisor (moveMutation supervisor 0 .awaiting)
      (log ++ [.submitted id record.prepared]) := by
  have fits := inv.fits id record found
  have was := stands.busy
  obtain ⟨submitting, prepared⟩ := stands
  have sent := submissions_submitted log id record.prepared
  exact inv.alter found (fun record => record) (some (.submitted id record.prepared)) _
    (change_id supervisor id).symm rfl rfl (fun _ _ active => active) (fun _ _ => Iff.rfl)
    (fun _ logged => by rw [← Option.some.inj logged]; rfl) rfl (fun _ => rfl)
    (by
      simp only [Option.toList_some]
      have earlier := fits.held was
      have each : ∀ one ∈ submissions id (log ++ [.submitted id record.prepared]),
          one = record.prepared := by
        intro one member
        rw [sent, List.mem_append, List.mem_singleton] at member
        exact member.elim (earlier one) fun last => last
      exact
        { named := fits.named
          counted := fits.counted
          live := fits.live
          current := fits.current
          busy := fits.busy
          released := fun _ => released_of_busy was
          held := fun _ => each
          same := fun first one second two => (each first one).trans (each second two).symm
          present := fun one member => by rw [each one member, prepared]
          proposed := fun proposal => by
            obtain ⟨raw, member⟩ := fits.proposed proposal
            exact ⟨raw, List.mem_append_left _ member⟩ })
    (by simp)
    (by simp [moveMutation_only only])
    (by
      intro other later member
      rw [moveMutation_only only, List.mem_singleton, Prod.mk.injEq] at member
      refine Or.inr ⟨member.1, ?_⟩
      rw [member.2]
      exact ⟨submitting, prepared⟩)

/-- A thread that only moves on. -/
theorem Inv.pass (inv : Inv python supervisor log)
    (found : supervisor.records id = some record) {stage : MutationStage π}
    (only : supervisor.mutations = [(id, stage)]) (stands : Stands log id record stage)
    (later : MutationStage π) (fine : Stands log id record later) :
    Kept python supervisor (moveMutation supervisor 0 later) log :=
  inv.carry found stands (fun record => record) _ (change_id supervisor id).symm rfl rfl
    rfl rfl rfl rfl stands.busy (Or.inr rfl) (Or.inr ⟨later, moveMutation_only only later, fine⟩)

/-- A thread that ends with the outcome unknown. -/
theorem Inv.lose (inv : Inv python supervisor log)
    (found : supervisor.records id = some record) {stage : MutationStage π}
    (only : supervisor.mutations = [(id, stage)]) (stands : Stands log id record stage)
    (code : Option Text) :
    Kept python supervisor
      (endMutation (change supervisor id (coded · .outcomeUnknown code)) 0) log :=
  inv.carry found stands (coded · .outcomeUnknown code) _ rfl rfl rfl rfl rfl rfl rfl rfl
    (Or.inr rfl) (Or.inl (by simp [endMutation, change, only]))

theorem Inv.mutate (inv : Inv python supervisor log)
    (found : supervisor.records id = some record) {stage : MutationStage π}
    (only : supervisor.mutations = [(id, stage)]) (stands : Stands log id record stage)
    (now : τ) (result : Result π) :
    let done := mutate clock now supervisor 0 id record result stage
    Kept python supervisor done.1 (log ++ done.2.toList) := by
  have silent : ∀ {next : Supervisor α π τ}, Kept python supervisor next log →
      Kept python supervisor next (log ++ (none : Option (Event π)).toList) := by
    intro next kept
    simpa using kept
  have pass := inv.pass found only stands
  have lose := inv.lose found only stands
  cases stage with
  | checking =>
      simp only [Lifecycle.mutate]
      split
      · exact silent (pass .expiring stands)
      · exact silent (pass .preparing stands)
  | expiring =>
      have released := inv.release found only stands (fun record => record) .timedOut
        (some (ascii "DEADLINE_EXPIRED")) (fun _ => rfl) (fun _ => rfl) rfl
        (fun sent => absurd stands.2 sent)
      have same := change_change supervisor id (fun record => record)
        (coded · .timedOut (some (ascii "DEADLINE_EXPIRED")))
      exact silent (released.trans
        (released.1.frame _ same.symm rfl rfl rfl rfl rfl))
  | preparing =>
      simp only [Lifecycle.mutate]
      split
      · exact silent (pass (.storing _) stands)
      · exact silent (pass (.failing _) stands.1)
  | storing prepared =>
      exact silent (inv.carry found stands
        (fun record => { record with prepared := some prepared }) _ rfl rfl rfl rfl rfl rfl rfl
        stands.busy (Or.inl stands.2)
        (Or.inr ⟨.arming, moveMutation_only only .arming, stands.1, stands.2, rfl⟩))
  | arming =>
      simp only [Lifecycle.mutate]
      split
      · exact silent (lose _)
      · exact silent (inv.carry found stands
          (fun record => { record with firstSubmissionStarted := true }) _ rfl rfl rfl rfl rfl rfl
          rfl stands.busy (Or.inr rfl)
          (Or.inr ⟨.sending, moveMutation_only only .sending, stands.1, stands.2.2⟩))
  | sending => exact inv.send found only stands
  | awaiting =>
      simp only [Lifecycle.mutate]
      split
      · exact silent (pass (.receiving _) stands)
      · exact silent (pass (.failing _) stands.1)
  | receiving receipt =>
      refine silent (inv.release found only stands
        (fun record => { record with receipt := some receipt, prepared := none })
        (stateOf receipt.status) none (fun _ => rfl) (fun _ => rfl) ?_ (fun _ => ?_))
      · cases receipt.status <;> rfl
      · cases receipt.status <;> rfl
  | failing code => exact silent (lose _)
  | resyncing =>
      simp only [Lifecycle.mutate]
      split
      · exact silent (pass .reconciled stands)
      · exact silent (pass .unreconciled stands)
  | reconciled =>
      exact silent (inv.release found only stands
        (fun record => { record with prepared := none }) .reconciled none (fun _ => rfl)
        (fun _ => rfl) rfl (fun _ => rfl))
  | unreconciled => exact silent (lose _)

theorem Inv.step (clock : Clock τ) (inv : Inv python supervisor log) (input : Input α π τ) :
    let next := step clock python supervisor input
    Kept python supervisor next.1 (log ++ next.2.toList) := by
  have silent : ∀ {next : Supervisor α π τ}, Kept python supervisor next log →
      Kept python supervisor next (log ++ (none : Option (Event π)).toList) := by
    intro next kept
    simpa using kept
  cases input with
  | status now id => exact silent (inv.status now id)
  | start now later arguments supersede started =>
      exact silent (inv.start now later arguments supersede started)
  | cancel now id => exact silent (inv.cancel now id)
  | restart now => exact silent (inv.restart now)
  | submit now id started => exact silent (inv.submit now id started)
  | retry id started => exact silent (inv.retry id started)
  | reconcile id started => exact silent (inv.reconcile id started)
  | close => exact silent inv.close
  | worker index now later outside =>
      simp only [Lifecycle.step, threaded]
      split
      · split
        · rename_i record found
          exact inv.work found now later index outside _
        · exact silent inv.kept
      · exact silent inv.kept
  | mutation index now result =>
      simp only [Lifecycle.step, threaded]
      split
      · rename_i id stage here
        split
        · rename_i record found
          obtain ⟨first, only⟩ := inv.only here
          obtain ⟨held, same, stands⟩ := inv.stands id stage (by simp [only])
          rw [found, Option.some.injEq] at same
          rw [first]
          rw [← same] at stands
          exact inv.mutate found only stands now result
        · exact silent inv.kept
      · exact silent inv.kept

theorem inv_fresh (python : Interpreter α) :
    Inv python (fresh : Supervisor α π τ) [] where
  fits := by simp [fresh]
  blocked := by simp [fresh]
  unknown := by simp [submissions]
  accepted := by simp
  alone := by simp [fresh]
  stands := by simp [fresh]

theorem Inv.run (clock : Clock τ) (inv : Inv python supervisor log) (inputs : List (Input α π τ)) :
    let done := run clock python supervisor inputs
    Kept python supervisor done.1 (log ++ done.2) := by
  induction inputs generalizing supervisor log with
  | nil =>
      simp only [Lifecycle.run, List.append_nil]
      exact inv.kept
  | cons input rest inductionHypothesis =>
      have stepped := inv.step clock input
      have later := inductionHypothesis stepped.1
      simp only [Lifecycle.run]
      rw [← List.append_assoc]
      exact ⟨later.1, stepped.2.trans later.2⟩

/-- What the owner and its threads agree on after a run. -/
structure Supervised (python : Interpreter α) (supervisor : Supervisor α π τ)
    (log : List (Event π)) : Prop where
  single :
    ∀ id record, supervisor.records id = some record → record.state.final = false →
      supervisor.active = some id ∧
        ∀ other held, supervisor.records other = some held → held.state.final = false →
          other = id
  current :
    ∀ id record, supervisor.records id = some record → record.state.preSubmit = true →
      record.request.generation = supervisor.generation
  blocked :
    ∀ id, supervisor.blocked = some id ↔
      ∃ record, supervisor.records id = some record ∧ record.state.busy = true
  silent :
    ∀ id record, supervisor.records id = some record →
      record.state ∈ [.cancelled, .superseded, .timedOut] → submissions id log = []
  same :
    ∀ id, ∀ first ∈ submissions id log, ∀ second ∈ submissions id log,
      first = second ∧ first.isSome = true
  proposed :
    ∀ id record, supervisor.records id = some record → record.proposal.isSome = true →
      ∃ raw, .accepted id record.request.generation raw ∈ log
  accepted :
    ∀ id generation raw, .accepted id generation raw ∈ log →
      ∃ record, supervisor.records id = some record ∧ record.request.requestId = id ∧
        record.request.generation = generation ∧ Produced python record.request raw

theorem Inv.supervised (inv : Inv python supervisor log) :
    Supervised python supervisor log where
  single := by
    intro id record found unfinished
    have active := (inv.fits id record found).live unfinished
    refine ⟨active, ?_⟩
    intro other held also alive
    have again := (inv.fits other held also).live alive
    rw [active, Option.some.injEq] at again
    exact again.symm
  current := by
    intro id record found
    exact (inv.fits id record found).current
  blocked := by
    intro id
    constructor
    · intro blocked
      obtain ⟨record, found⟩ := Option.isSome_iff_exists.mp (inv.blocked id blocked)
      exact ⟨record, found, (inv.fits id record found).busy.mpr blocked⟩
    · intro held
      obtain ⟨record, found, busy⟩ := held
      exact (inv.fits id record found).busy.mp busy
  silent := by
    intro id record found ended
    by_contra sent
    have released := (inv.fits id record found).released sent
    simp only [List.mem_cons, List.not_mem_nil, or_false] at ended
    rcases ended with cancelled | superseded | timedOut
    · simp [cancelled, State.released, State.busy] at released
    · simp [superseded, State.released, State.busy] at released
    · simp [timedOut, State.released, State.busy] at released
  same := by
    intro id first one second two
    cases found : supervisor.records id with
    | none =>
        rw [inv.unknown id found] at one
        exact absurd one (by simp)
    | some record =>
        have fits := inv.fits id record found
        exact ⟨fits.same first one second two, fits.present first one⟩
  proposed := by
    intro id record found
    exact (inv.fits id record found).proposed
  accepted := by
    intro id generation raw member
    obtain ⟨record, found, made, produced⟩ := inv.accepted id generation raw member
    exact ⟨record, found, (inv.fits id record found).named, made.symm, produced⟩

/-- Over any interleaving of the owner's calls with the sections of the worker and
mutation threads, whatever the worker processes, the client and the clock answer. -/
theorem supervision (clock : Clock τ) (python : Interpreter α)
    (earlier later : List (Input α π τ)) :
    let first := run clock python (fresh : Supervisor α π τ) earlier
    let second := run clock python first.1 later
    Supervised python second.1 (first.2 ++ second.2) ∧ Lasting first.1 second.1 := by
  have first := (inv_fresh python).run clock earlier
  dsimp only at first
  rw [List.nil_append] at first
  have second := first.1.run clock later
  exact ⟨second.1.supervised, second.2⟩

/-- A cube is proposed, submitted with its outcome unknown, and retried. -/
example :
    let goal : CubeGoal Halves := ⟨.create (ascii "cube"), Scalar.ofInt 1, rfl, rfl⟩
    let proposal : Value Halves :=
      match (operations goal).bind fun proposal => proposal.mapM operationDict with
      | .ok dicts => .list dicts
      | .error _ => .none
    let python : Interpreter Halves :=
      { loads := fun _ => some (.dict
          [(ascii "schema_version", .integer 1), (ascii "request_id", .integer 1),
            (ascii "generation", .integer 1), (ascii "expected_revision", .integer 0),
            (ascii "operations", proposal)])
        dumps := fun _ => some (ascii "{}")
        toFloat := fun number => some (Scalar.ofInt number)
        equalsInt := fun _ _ => false }
    let clock : Clock Nat :=
      ⟨fun deadline now => decide (deadline ≤ now), fun now ms => now + ms.toNat⟩
    let outside : Outside := ⟨none, some (ascii "frame"), 0, false, true⟩
    let inputs : List (Input Halves Nat Nat) :=
      [.start 0 0 ⟨goal, 0, 1000, ascii "normal", 0, none⟩ false true,
        .worker 0 1 1 outside, .worker 0 2 2 outside, .worker 0 3 3 outside,
        .worker 0 4 4 outside, .worker 0 5 5 outside, .submit 6 1 true,
        .mutation 0 7 .other, .mutation 0 8 (.prepared 7), .mutation 0 9 .other,
        .mutation 0 10 .other, .mutation 0 11 .other, .mutation 0 12 .other,
        .mutation 0 13 .other, .retry 1 true, .mutation 0 14 .other,
        .mutation 0 15 (.receipt ⟨.committed, [], 1, [], []⟩), .mutation 0 16 .other]
    let done := run clock python fresh inputs
    done.2.map Event.owner = [1, 1, 1] ∧ submissions 1 done.2 = [some 7, some 7] ∧
      (done.1.records 1).map Record.state = some .committed := by
  decide +kernel

end Omniweft.Lifecycle
