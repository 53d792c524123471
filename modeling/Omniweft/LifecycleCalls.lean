import Omniweft.LifecycleSteps

/-!
# Calls of the owner and worker threads

A new request is enrolled only when every other one is over, so the active request
is the one that is alive. A worker's frame changes a record only while that record
is running in the current generation.
-/

namespace Omniweft.Lifecycle

open Outcome Python Sdk

variable {α π τ : Type} [Scalar α] {python : Interpreter α} {clock : Clock τ}
  {supervisor next : Supervisor α π τ} {log : List (Event π)} {id : Nat}

/-- No request waits for its submission. -/
def Vacant (supervisor : Supervisor α π τ) : Prop :=
  ∀ id record, supervisor.records id = some record → record.state.preSubmit = false

/-- Only the request `old` may still wait for its submission. -/
def Covered (supervisor : Supervisor α π τ) (old : Option Nat) : Prop :=
  ∀ id record, supervisor.records id = some record → record.state.preSubmit = true →
    old = some id

theorem Inv.covered (inv : Inv python supervisor log) :
    Covered supervisor supervisor.active := by
  intro id record found pre
  exact (inv.fits id record found).live (by simp [State.final, pre])

theorem Covered.vacant {old : Option Nat} (covered : Covered supervisor old)
    (none : replaceable supervisor old = false) : Vacant supervisor := by
  intro id record found
  by_contra pre
  rw [Bool.not_eq_false] at pre
  rw [covered id record found pre] at none
  have some := (replaceable_iff id).mpr ⟨record, found, pre⟩
  rw [none] at some
  exact absurd some (by simp)

theorem expireActive_active (now : τ) (id : Nat)
    (active : (expireActive clock now supervisor).active = some id) :
    supervisor.active = some id := by
  unfold expireActive at active
  split at active
  · unfold Lifecycle.expire at active
    split at active
    · split at active
      · simp only [terminal] at active
        split at active <;> simp_all
      · exact active
    · exact active
  · exact active

theorem expireActive_blocked (now : τ) :
    (expireActive clock now supervisor).blocked = supervisor.blocked := by
  unfold expireActive
  split
  · unfold Lifecycle.expire
    split
    · split <;> rfl
    · rfl
  · rfl

theorem Inv.expireActive (clock : Clock τ) (inv : Inv python supervisor log) (now : τ) :
    Kept python supervisor (expireActive clock now supervisor) log := by
  unfold Lifecycle.expireActive
  split
  · exact inv.expire clock now _
  · exact inv.kept

/-- With nothing waiting the generation may move on. -/
theorem Inv.bump (inv : Inv python supervisor log) (vacant : Vacant supervisor) :
    Kept python supervisor { supervisor with generation := supervisor.generation + 1 } log := by
  refine ⟨⟨?_, inv.blocked, inv.unknown, inv.accepted, inv.alone, inv.stands⟩, .refl _⟩
  intro id record found
  have waiting : record.state.preSubmit = true → False := by
    intro pre
    rw [vacant id record found] at pre
    exact absurd pre (by simp)
  have fits :
      Fits { supervisor with generation := supervisor.generation + 1 }
        (log ++ (none : Option (Event π)).toList) id record :=
    (inv.fits id record found).other (Nat.le_refl _) (fun pre => (waiting pre).elim)
      (fun _ active => active) Iff.rfl (by simp)
  simpa using fits

theorem terminal_vacant {old : Nat} (covered : Covered supervisor (some old)) (state : State)
    (code : Option Text) (finished : state.final = true) :
    Vacant (terminal supervisor old state code) := by
  intro id record found
  by_cases own : id = old
  · subst own
    have changed : (supervisor.records id).map (coded · state code) = some record := by
      simpa [terminal, change] using found
    obtain ⟨before, _, same⟩ := Option.map_eq_some_iff.mp changed
    rw [← same]
    exact ((final_iff state).mp finished).1
  · by_contra pre
    rw [Bool.not_eq_false] at pre
    have same : supervisor.records id = some record := by
      simpa [terminal, change, own] using found
    have old := covered id record same pre
    exact own (Option.some.inj old).symm

theorem Inv.advance (inv : Inv python supervisor log) {old : Option Nat}
    (covered : Covered supervisor old) (code : Text) :
    Kept python supervisor (advance supervisor old code) log ∧
      Vacant (advance supervisor old code) := by
  cases waiting : replaceable supervisor old with
  | false =>
      have same :
          Lifecycle.advance supervisor old code =
            { supervisor with generation := supervisor.generation + 1 } := by
        unfold Lifecycle.advance
        cases old with
        | none => rfl
        | some old => simp only [waiting, Bool.false_eq_true, if_false]
      have vacant := covered.vacant waiting
      rw [same]
      exact ⟨inv.bump vacant, vacant⟩
  | true =>
      cases old with
      | none => exact absurd waiting (by simp [replaceable])
      | some old =>
          obtain ⟨record, found, pre⟩ := (replaceable_iff old).mp waiting
          have ended := inv.settle found pre .superseded (some code) rfl
          have vacant := terminal_vacant covered .superseded (some code) rfl
          have bumped := ended.1.bump vacant
          have same :
              Lifecycle.advance supervisor (some old) code =
                { terminal supervisor old .superseded (some code) with
                  generation :=
                    (terminal supervisor old .superseded (some code)).generation + 1 } := by
            simp only [Lifecycle.advance, waiting, if_true]
            rfl
          rw [same]
          exact ⟨ended.trans bumped, vacant⟩

theorem advance_blocked (old : Option Nat) (code : Text) :
    (advance supervisor old code).blocked = supervisor.blocked := by
  unfold Lifecycle.advance
  cases old with
  | none => rfl
  | some old => dsimp only; split <;> rfl

theorem Inv.enroll (clock : Clock τ) (inv : Inv python supervisor log) (vacant : Vacant supervisor)
    (unblocked : supervisor.blocked = none) (later : τ) (arguments : Arguments α) :
    Kept python supervisor (enroll clock later supervisor arguments) log := by
  have unused : supervisor.records (supervisor.count + 1) = none := by
    by_contra used
    obtain ⟨record, found⟩ := Option.ne_none_iff_exists'.mp used
    have counted := (inv.fits _ record found).counted.2
    omega
  have elsewhere : ∀ other record, supervisor.records other = some record →
      (Lifecycle.enroll clock later supervisor arguments).records other = some record := by
    intro other record found
    have apart : other ≠ supervisor.count + 1 := by
      intro same
      rw [same, unused] at found
      exact absurd found (by simp)
    simp only [Lifecycle.enroll, apart, if_false]
    exact found
  refine ⟨⟨?_, ?_, ?_, ?_, inv.alone, ?_⟩, ?_⟩
  · intro other record found
    by_cases own : other = supervisor.count + 1
    · subst own
      have silent := inv.unknown _ unused
      simp only [Lifecycle.enroll, if_true, Option.some.injEq] at found
      subst found
      exact
        { named := rfl
          counted := ⟨Nat.le_add_left 1 _, Nat.le_refl _⟩
          live := fun _ => rfl
          current := fun _ => rfl
          busy := by simp [State.busy, Lifecycle.enroll, unblocked]
          released := fun sent => absurd silent sent
          held := by simp [State.busy]
          same := by simp [silent]
          present := by simp [silent]
          proposed := by simp }
    · have before : supervisor.records other = some record := by
        simpa [Lifecycle.enroll, own] using found
      have fits := inv.fits other record before
      have ended : record.state.final = true := by
        refine (final_iff _).mpr ⟨vacant other record before, ?_⟩
        by_contra busy
        rw [Bool.not_eq_false, fits.busy, unblocked] at busy
        exact absurd busy (by simp)
      have kept :
          Fits (Lifecycle.enroll clock later supervisor arguments)
            (log ++ (none : Option (Event π)).toList) other record :=
        fits.other (Nat.le_add_right _ 1) (fun _ => rfl)
          (fun unfinished => by rw [ended] at unfinished; exact absurd unfinished (by simp))
          Iff.rfl (by simp)
      simpa using kept
  · intro other blocked
    change supervisor.blocked = some other at blocked
    rw [unblocked] at blocked
    exact absurd blocked (by simp)
  · intro other absent
    refine inv.unknown other ?_
    by_contra used
    obtain ⟨record, found⟩ := Option.ne_none_iff_exists'.mp used
    rw [elsewhere other record found] at absent
    exact absurd absent (by simp)
  · intro other generation raw member
    obtain ⟨record, found, rest⟩ := inv.accepted other generation raw member
    exact ⟨record, elsewhere other record found, rest⟩
  · intro other stage member
    obtain ⟨record, found, rest⟩ := inv.stands other stage member
    exact ⟨record, elsewhere other record found, rest⟩
  · intro other record found
    exact ⟨record, elsewhere other record found, rfl, fun _ => rfl⟩

theorem enroll_found (later : τ) (arguments : Arguments α) :
    ∃ record,
      (enroll clock later supervisor arguments).records
          (enroll clock later supervisor arguments).count = some record ∧
        record.state.preSubmit = true := by
  refine ⟨_, if_pos rfl, rfl⟩

/-- The worker thread of a new request could not be started. -/
theorem Inv.unstarted (inv : Inv python supervisor log) {record : Record α π τ}
    (found : supervisor.records id = some record) (waiting : record.state.preSubmit = true) :
    Kept python supervisor
      (terminal
        (change { supervisor with workers := supervisor.workers - 1 } id fun record =>
          { record with workerCleaned := true })
        id .workerFailed (some (ascii "WORKER_START_FAILED")))
      log := by
  have idle : Kept python supervisor { supervisor with workers := supervisor.workers - 1 } log :=
    inv.frame _ rfl rfl rfl rfl rfl rfl
  have cleaned := idle.1.edit id (fun record => { record with workerCleaned := true })
    (fun _ => rfl) (fun _ => rfl) (fun _ => rfl) (fun _ => rfl)
  have ended := cleaned.1.settle (change_found _ found) waiting .workerFailed
    (some (ascii "WORKER_START_FAILED")) rfl
  exact (idle.trans cleaned).trans ended

theorem viewed_fst (supervisor : Supervisor α π τ) (id : Nat) :
    (viewed supervisor id).1 = supervisor := by
  unfold viewed withRecord
  split <;> rfl

theorem Inv.withRecord (inv : Inv python supervisor log) (id : Nat)
    (body : Record α π τ → Supervisor α π τ × Except Raised Reply)
    (each :
      ∀ record, supervisor.records id = some record →
        Kept python supervisor (body record).1 log) :
    Kept python supervisor (withRecord supervisor id body).1 log := by
  unfold Lifecycle.withRecord
  split
  · rename_i record _ found
    exact each record found
  · exact inv.kept

theorem Inv.start (inv : Inv python supervisor log) (now later : τ)
    (arguments : Arguments α) (supersede started : Bool) :
    Kept python supervisor (start clock now later supervisor arguments supersede started).1
      log := by
  unfold Lifecycle.start
  split
  · exact inv.kept
  split
  · exact inv.kept
  split
  · exact inv.kept
  rename_i unblocked
  rw [Option.not_isSome_iff_eq_none] at unblocked
  split
  · exact inv.kept
  dsimp only
  have expired := inv.expireActive clock now
  split
  · exact expired
  rename_i free
  have covered : Covered (Lifecycle.expireActive clock now supervisor) supervisor.active := by
    intro id record found pre
    exact expireActive_active now id (expired.1.covered id record found pre)
  have cleared :
      let cleared :=
        if supersede then
          Lifecycle.advance (Lifecycle.expireActive clock now supervisor) supervisor.active
            (ascii "SUPERSEDED")
        else Lifecycle.expireActive clock now supervisor
      Kept python supervisor cleared log ∧ Vacant cleared ∧ cleared.blocked = none := by
    have none : (Lifecycle.expireActive clock now supervisor).blocked = none := by
      rw [expireActive_blocked, unblocked]
    cases supersede with
    | true =>
        obtain ⟨advanced, vacant⟩ := expired.1.advance covered (ascii "SUPERSEDED")
        exact ⟨expired.trans advanced, vacant, by rw [if_pos rfl, advance_blocked, none]⟩
    | false =>
        have vacant := covered.vacant (by simpa using free)
        exact ⟨expired, vacant, none⟩
  dsimp only at cleared
  obtain ⟨kept, vacant, none⟩ := cleared
  have enrolled := kept.trans (kept.1.enroll clock vacant none later arguments)
  cases started with
  | true =>
      rw [if_pos rfl, viewed_fst]
      exact enrolled.trans (enrolled.1.frame _ rfl rfl rfl rfl rfl rfl)
  | false =>
      rw [if_neg (by simp), viewed_fst]
      obtain ⟨record, found, waiting⟩ := enroll_found later arguments
      exact enrolled.trans (enrolled.1.unstarted found waiting)

theorem Inv.status (inv : Inv python supervisor log) (now : τ) (id : Nat) :
    Kept python supervisor (status clock now supervisor id).1 log := by
  refine inv.withRecord id _ ?_
  intro record found
  rw [viewed_fst]
  exact inv.expire clock now id

theorem Inv.cancel (inv : Inv python supervisor log) (now : τ) (id : Nat) :
    Kept python supervisor (cancel clock now supervisor id).1 log := by
  refine inv.withRecord id _ ?_
  intro _ _
  have expired := inv.expire clock now id
  refine expired.trans (expired.1.withRecord id _ ?_)
  intro record found
  split
  · exact expired.1.kept
  split
  · exact expired.1.kept
  rename_i waiting
  exact expired.1.settle found (by simpa using waiting) .cancelled _ rfl

theorem Inv.restart (inv : Inv python supervisor log) (now : τ) :
    Kept python supervisor (restart clock now supervisor).1 log := by
  unfold Lifecycle.restart
  split
  · exact inv.kept
  have expired := inv.expireActive clock now
  have covered : Covered (Lifecycle.expireActive clock now supervisor) supervisor.active := by
    intro id record found pre
    exact expireActive_active now id (expired.1.covered id record found pre)
  exact expired.trans (expired.1.advance covered _).1

theorem Inv.mutation_blocked (inv : Inv python supervisor log) {stage : MutationStage π}
    (member : (id, stage) ∈ supervisor.mutations) : supervisor.blocked = some id := by
  obtain ⟨record, found, stands⟩ := inv.stands id stage member
  exact (inv.fits id record found).busy.mp stands.busy

theorem Inv.unthreaded (inv : Inv python supervisor log)
    (unblocked : supervisor.blocked = none) : supervisor.mutations = [] := by
  rw [List.eq_nil_iff_forall_not_mem]
  rintro ⟨id, stage⟩ member
  rw [inv.mutation_blocked member] at unblocked
  exact absurd unblocked (by simp)

theorem Stands.not_unknown {record : Record α π τ} {stage : MutationStage π}
    (stands : Stands log id record stage) : record.state ≠ .outcomeUnknown := by
  intro unknown
  cases stage <;> simp [Stands, unknown] at stands

theorem Inv.rested (inv : Inv python supervisor log) {record : Record α π τ}
    (found : supervisor.records id = some record) (unknown : record.state = .outcomeUnknown) :
    supervisor.mutations = [] := by
  have blocked := (inv.fits id record found).busy.mp (by rw [unknown]; rfl)
  rw [List.eq_nil_iff_forall_not_mem]
  rintro ⟨other, stage⟩ member
  have same := inv.mutation_blocked member
  rw [blocked, Option.some.injEq] at same
  obtain ⟨held, again, stands⟩ := inv.stands other stage member
  rw [← same, found, Option.some.injEq] at again
  rw [← again] at stands
  exact stands.not_unknown unknown

/-- A proposal goes to its mutation thread. -/
theorem Inv.launch (inv : Inv python supervisor log) {record : Record α π τ}
    (found : supervisor.records id = some record) (ready : record.state = .proposalReady)
    (unblocked : supervisor.blocked = none) :
    Kept python supervisor
      { change supervisor id fun record => { record with state := .submitting } with
        blocked := some id
        mutations := supervisor.mutations ++ [(id, .checking)] }
      log := by
  have fits := inv.fits id record found
  have pre : record.state.preSubmit = true := by rw [ready]; rfl
  have silent := fits.unsent pre
  have bare := inv.unthreaded unblocked
  have kept := inv.alter found (fun record => { record with state := .submitting }) none
    { change supervisor id fun record => { record with state := .submitting } with
      blocked := some id
      mutations := supervisor.mutations ++ [(id, .checking)] }
    rfl rfl rfl (fun _ _ active => active)
    (by
      intro other differs
      simp [unblocked, Ne.symm differs])
    (by simp) rfl (fun finished => by simp [ready, State.final, State.preSubmit] at finished)
    (by
      simp only [Option.toList_none, List.append_nil]
      exact
        { named := fits.named
          counted := fits.counted
          live := fun _ => fits.live (by simp [State.final, pre])
          current := by simp [State.preSubmit]
          busy := by simp [State.busy]
          released := fun sent => absurd silent sent
          held := by simp [silent]
          same := fits.same
          present := fits.present
          proposed := fits.proposed })
    (by simp) (by simp [bare])
    (by
      intro other stage member
      simp only [bare, List.nil_append, List.mem_singleton, Prod.mk.injEq] at member
      refine Or.inr ⟨member.1, ?_⟩
      rw [member.2]
      simp [Stands, silent])
  simpa using kept

theorem Inv.submit (inv : Inv python supervisor log) (now : τ) (id : Nat) (started : Bool) :
    Kept python supervisor (submit clock now supervisor id started).1 log := by
  refine inv.withRecord id _ ?_
  intro _ _
  have expired := inv.expire clock now id
  refine expired.trans (expired.1.withRecord id _ ?_)
  intro record found
  split
  · exact expired.1.kept
  split
  · exact expired.1.kept
  rename_i allowed
  split
  · exact expired.1.kept
  rename_i unblocked
  rw [Option.not_isSome_iff_eq_none] at unblocked
  have ready : record.state = .proposalReady := by
    by_contra other
    exact allowed (by simp [other])
  cases started with
  | true =>
      rw [if_pos rfl, viewed_fst]
      exact expired.1.launch found ready unblocked
  | false =>
      rw [if_neg (by simp), viewed_fst]
      have ended := expired.1.settle found (by rw [ready]; rfl) .workerFailed
        (some (ascii "SUBMIT_START_FAILED")) rfl
      refine ended.trans (ended.1.frame _ ?_ rfl rfl rfl unblocked.symm rfl)
      exact change_change _ id _ _

/-- A record whose outcome is unknown goes to a mutation thread again. -/
theorem Inv.resume (inv : Inv python supervisor log) {record : Record α π τ}
    (found : supervisor.records id = some record) (unknown : record.state = .outcomeUnknown)
    (state : State) (busy : state.busy = true) (stage : MutationStage π)
    (stands : Stands log id (coded record state none) stage) :
    Kept python supervisor
      { change supervisor id (coded · state none) with
        mutations := supervisor.mutations ++ [(id, stage)] }
      log := by
  have fits := inv.fits id record found
  have was : record.state.busy = true := by rw [unknown]; rfl
  have bare := inv.rested found unknown
  have kept := inv.alter found (coded · state none) none
    { change supervisor id (coded · state none) with
      mutations := supervisor.mutations ++ [(id, stage)] }
    rfl rfl rfl (fun _ _ active => active) (fun _ _ => Iff.rfl) (by simp) rfl
    (fun finished => by simp [unknown, State.final, State.busy] at finished)
    (by
      simp only [Option.toList_none, List.append_nil]
      exact fits.carry rfl rfl rfl rfl rfl was busy (Or.inr rfl))
    (by simp) (by simp [bare])
    (by
      intro other staged member
      simp only [bare, List.nil_append, List.mem_singleton, Prod.mk.injEq] at member
      refine Or.inr ⟨member.1, ?_⟩
      rw [member.2]
      simpa using stands)
  simpa using kept

/-- A thread that could not be started leaves the outcome unknown. -/
theorem Inv.remark (inv : Inv python supervisor log) {record : Record α π τ}
    (found : supervisor.records id = some record) (unknown : record.state = .outcomeUnknown)
    (code : Option Text) :
    Kept python supervisor (change supervisor id (coded · .outcomeUnknown code)) log := by
  have same :
      (change supervisor id fun record => { record with errorCode := code }).records =
        (change supervisor id (coded · .outcomeUnknown code)).records := by
    funext other
    by_cases own : other = id
    · simp [change, own, found, coded, unknown]
    · simp [change, own]
  have edited := inv.edit id (fun record => { record with errorCode := code }) (fun _ => rfl)
    (fun _ => rfl) (fun _ => rfl) (fun _ => rfl)
  exact edited.trans (edited.1.frame _ same.symm rfl rfl rfl rfl rfl)

theorem Inv.retry (inv : Inv python supervisor log) (id : Nat) (started : Bool) :
    Kept python supervisor (retry supervisor id started).1 log := by
  refine inv.withRecord id _ ?_
  intro record found
  split
  · exact inv.kept
  rename_i allowed
  have unknown : record.state = .outcomeUnknown := by
    by_contra other
    exact allowed (by simp [other])
  have prepared : record.prepared.isSome = true := by
    by_contra missing
    exact allowed (by simp [Option.not_isSome_iff_eq_none.mp missing])
  split
  · rw [viewed_fst]
    exact inv.resume found unknown .submitting rfl .sending ⟨rfl, prepared⟩
  · rw [viewed_fst]
    exact inv.remark found unknown _

theorem Inv.reconcile (inv : Inv python supervisor log) (id : Nat) (started : Bool) :
    Kept python supervisor (reconcile supervisor id started).1 log := by
  refine inv.withRecord id _ ?_
  intro record found
  split
  · exact inv.kept
  rename_i allowed
  have unknown : record.state = .outcomeUnknown := by
    by_contra other
    exact allowed (by simp [other])
  split
  · rw [viewed_fst]
    exact inv.resume found unknown .reconciling rfl .resyncing rfl
  · rw [viewed_fst]
    exact inv.remark found unknown _

theorem Inv.sweeps (inv : Inv python supervisor log) (ids : List Nat) :
    Kept python supervisor (ids.foldl sweep supervisor) log := by
  induction ids generalizing supervisor with
  | nil => exact inv.kept
  | cons id rest inductionHypothesis =>
      have swept := inv.replace id .cancelled (some (ascii "SUPERVISOR_CLOSED")) rfl
      exact swept.trans (inductionHypothesis swept.1)

theorem Inv.close (inv : Inv python supervisor log) :
    Kept python supervisor (close supervisor) log := by
  have closed : Kept python supervisor { supervisor with closed := true } log :=
    inv.frame _ rfl rfl rfl rfl rfl rfl
  exact closed.trans (closed.1.sweeps _)

end Omniweft.Lifecycle
