import Omniweft.OwnerSteps
import Mathlib.Data.List.Induction

/-!
# Dispatch and execution agree

Whatever the threads do in between, the answer of `dispatch` tells whether its task
ran: one lemma for each section of a gateway thread and of the owner, and from them
the law of the whole log.
-/

namespace Omniweft.Owner

open Transactions Simulation

variable {κ σ ν : Type} {pool : Backlog κ} {snapshot : σ → ν}
  {system : System κ σ ν} {log : List (Event ν)}

/-! ## The sections of the gateway threads -/

/-- A section that leaves the owner thread where it is. -/
theorem Inv.aside (inv : Inv pool snapshot system log) {next : System κ σ ν}
    (event : Option (Event ν)) (phase : next.phase = system.phase)
    (world : next.world = system.world) (batches : next.batches = system.batches)
    (jobs : Jobs (pool.jobs next.backlog) system.phase.busy next.jobs log)
    (kept : ∀ (other : Nat) job, system.jobs[other]? = some job → job.state = .running →
      next.jobs[other]? = some job)
    (drained : stopping system = true → pool.jobs system.backlog = [] →
      pool.jobs next.backlog = [])
    (stops : stopping system = true → stopping next = true)
    (answers : ∀ logged, event = some logged → ∃ index answer,
      logged = .returned index answer ∧
        ∃ job, next.jobs[index]? = some job ∧ job.answer = some answer) :
    Inv pool snapshot next (log ++ event.toList) := by
  have member : ∀ other, (∀ index answer, other ≠ .returned index answer) →
      other ∈ log ++ event.toList → other ∈ log := by
    intro other different member
    rcases List.mem_append.mp member with old | new
    · exact old
    · obtain ⟨index, answer, same, _⟩ := answers other (Option.mem_toList.mp new)
      exact absurd same (different index answer)
  refine ⟨?_, ?_, ?_, ?_, ?_⟩
  · rw [phase]
    cases event with
    | none =>
        rw [Option.toList_none, List.append_nil]
        exact jobs
    | some logged =>
        obtain ⟨index, answer, same, job, found, given⟩ := answers logged rfl
        refine jobs.snoc logged ?_ ?_
        · intro run equal
          exact absurd (same.symm.trans equal) (by simp)
        · intro other last equal
          obtain ⟨rfl, rfl⟩ := Event.returned.inj (same.symm.trans equal)
          exact ⟨job, found, given⟩
  · rw [phase, world, batches]
    refine inv.stands.extend kept drained stops event ?_
    intro run equal
    obtain ⟨index, answer, same, _⟩ := answers _ equal
    exact absurd same (by simp)
  · rw [phase, ← inv.closing]
    exact ⟨member .over (by simp), List.mem_append_left _⟩
  · rw [batches]
    intro run logged
    exact inv.ordinals run (member _ (by simp) logged)
  · rw [batches]
    intro ordinal steps logged
    exact inv.begun ordinal steps (member _ (by simp) logged)

theorem Inv.unanswered (inv : Inv pool snapshot system log) {index : Nat} {job : Job σ}
    (found : system.jobs[index]? = some job) (waiting : job.answer = none) :
    ∀ answer, .returned index answer ∉ log := by
  intro answer member
  obtain ⟨held, heldFound, given⟩ := inv.jobs.returned index answer member
  obtain rfl : job = held := Option.some.inj (found.symm.trans heldFound)
  exact absurd (waiting.symm.trans given) (by simp)

theorem Inv.enter (inv : Inv pool snapshot system log) (task : EStateM Thrown σ Unit)
    (deadline : Nat) (authoring : Bool) :
    let done := Owner.enter pool system task deadline authoring
    Inv pool snapshot done.1 (log ++ done.2.toList) ∧
      ∀ logged, done.2 = some logged → Law log logged := by
  have inside : ∀ index ∈ pool.jobs system.backlog, index < system.jobs.length := by
    intro index member
    obtain ⟨held, found, _⟩ := inv.jobs.queued index member
    exact (List.getElem?_eq_some_iff.mp found).1
  have kept : ∀ (job : Job σ) (other : Nat) held, system.jobs[other]? = some held →
      held.state = .running → (system.jobs ++ [job])[other]? = some held := by
    intro job other held found _
    rw [List.getElem?_append_left (List.getElem?_eq_some_iff.mp found).1]
    exact found
  unfold Owner.enter
  dsimp only
  by_cases refused : (stopping system || pool.full system.backlog ||
      decide (min deadline system.deadline ≤ system.now)) = true
  · rw [if_pos refused]
    refine ⟨inv.aside _ rfl rfl rfl ?_ (kept _) (fun _ empty => empty) id ?_, ?_⟩
    · refine inv.jobs.enter _ rfl rfl inv.jobs.nodup (fun _ _ => Iff.rfl)
        (fun index member => Nat.le_of_lt (inside index member)) (Or.inr ⟨rfl, ?_⟩)
      intro member
      exact absurd (inside _ member) (Nat.lt_irrefl _)
    · intro logged same
      exact ⟨_, _, (Option.some.inj same).symm, _, List.getElem?_concat_length, rfl⟩
    · intro logged same
      obtain rfl := Option.some.inj same
      refine ⟨fun answer member => ?_, ?_⟩
      · obtain ⟨held, found, _⟩ := inv.jobs.returned _ _ member
        exact absurd (List.getElem?_eq_some_iff.mp found).1 (Nat.lt_irrefl _)
      · rw [List.eq_nil_iff_forall_not_mem]
        intro run member
        obtain ⟨ran, named⟩ := mem_runsOf.mp member
        exact absurd (inv.jobs.known run ran) (by omega)
  · rw [if_neg refused]
    simp only [Bool.or_eq_true, not_or, Bool.not_eq_true] at refused
    obtain ⟨⟨going, room⟩, _⟩ := refused
    have pushed := pool.jobs_push system.backlog system.jobs.length room
    refine ⟨inv.aside none rfl rfl rfl ?_ (kept _) ?_ id (by simp), by simp⟩
    · dsimp only
      rw [pushed]
      refine inv.jobs.enter _ rfl rfl ?_ ?_ ?_ (Or.inl ⟨rfl, by simp⟩)
      · refine List.nodup_append.mpr ⟨inv.jobs.nodup, by simp, ?_⟩
        intro index member other last
        rw [List.mem_singleton.mp last]
        exact Nat.ne_of_lt (inside index member)
      · intro index below
        simp [Nat.ne_of_lt below]
      · intro index member
        rcases List.mem_append.mp member with old | new
        · exact Nat.le_of_lt (inside index old)
        · exact Nat.le_of_eq (List.mem_singleton.mp new)
    · intro stopped
      exact absurd (going.symm.trans stopped) (by decide)

theorem change_kept (system : System κ σ ν) {index : Nat} {job : Job σ}
    (edit : Job σ → Job σ) (found : system.jobs[index]? = some job)
    (idle : job.state ≠ .running) (other : Nat) (held : Job σ)
    (heldFound : system.jobs[other]? = some held) (state : held.state = .running) :
    (change system (· == index) edit).jobs[other]? = some held := by
  simp only [change, List.getElem?_mapIdx, heldFound, Option.map_some]
  rw [if_neg]
  intro same
  rw [beq_iff_eq] at same
  rw [same, found] at heldFound
  rw [Option.some.inj heldFound] at idle
  exact idle state

theorem Inv.timeOut (inv : Inv pool snapshot system log) (index : Nat) :
    let done := Owner.timeOut pool system index
    Inv pool snapshot done.1 (log ++ done.2.toList) ∧
      ∀ logged, done.2 = some logged → Law log logged := by
  have still : Inv pool snapshot system (log ++ (none : Option (Event ν)).toList) := by
    rw [Option.toList_none, List.append_nil]
    exact inv
  unfold Owner.timeOut
  dsimp only
  cases found : system.jobs[index]? with
  | none => exact ⟨still, by simp⟩
  | some job =>
      dsimp only
      split
      · rename_i late
        simp only [Bool.and_eq_true, Option.isNone_iff_eq_none, decide_eq_true_eq] at late
        obtain ⟨⟨waiting, state⟩, _⟩ := late
        have fits := inv.jobs.fits index job found
        unfold Fits at fits
        rw [state] at fits
        refine ⟨inv.aside _ rfl rfl rfl ?_ ?_ ?_ id ?_, ?_⟩
        · rw [pool.jobs_erase]
          exact inv.jobs.timeOut found state waiting
        · exact change_kept system _ found (by rw [state]; decide)
        · intro _ empty
          dsimp only
          rw [pool.jobs_erase, empty]
          rfl
        · intro logged same
          refine ⟨_, _, (Option.some.inj same).symm,
            { job with state := .canceled, answer := some .refused }, ?_, rfl⟩
          simp only [change, List.getElem?_mapIdx, found, Option.map_some,
            beq_self_eq_true, if_true]
        · intro logged same
          obtain rfl := Option.some.inj same
          exact ⟨inv.unanswered found waiting, fits.2.1⟩
      · exact ⟨still, by simp⟩

theorem Inv.wake (inv : Inv pool snapshot system log) (index : Nat) :
    let done := Owner.wake system index
    Inv pool snapshot done.1 (log ++ done.2.toList) ∧
      ∀ logged, done.2 = some logged → Law log logged := by
  have still : Inv pool snapshot system (log ++ (none : Option (Event ν)).toList) := by
    rw [Option.toList_none, List.append_nil]
    exact inv
  unfold Owner.wake
  dsimp only
  cases found : system.jobs[index]? with
  | none => exact ⟨still, by simp⟩
  | some job =>
      dsimp only
      split
      · rename_i answer waiting settled
        have fits := inv.jobs.fits index job found
        have idle : job.state ≠ .running := by
          intro state
          simp [outcome, state] at settled
        refine ⟨inv.aside _ rfl rfl rfl (inv.jobs.wake found waiting settled)
          (change_kept system _ found idle) (fun _ empty => empty) id ?_, ?_⟩
        · intro logged same
          refine ⟨_, _, (Option.some.inj same).symm, { job with answer := some answer },
            ?_, rfl⟩
          simp only [change, List.getElem?_mapIdx, found, Option.map_some,
            beq_self_eq_true, if_true]
        · intro logged same
          obtain rfl := Option.some.inj same
          refine ⟨inv.unanswered found waiting, ?_⟩
          unfold Fits at fits
          unfold outcome at settled
          cases state : job.state with
          | pending => simp [state] at settled
          | running => simp [state] at settled
          | canceled =>
              simp only [state, Option.some.injEq] at settled fits
              rw [← settled]
              exact fits.1
          | completed =>
              simp only [state] at settled fits
              obtain ⟨_, ⟨run, runs, stored⟩, _⟩ := fits
              cases failure : job.failure with
              | none =>
                  simp only [failure, Option.some.injEq] at settled
                  rw [← settled]
                  exact ⟨run, runs, stored failure⟩
              | some exception =>
                  simp only [failure, Option.some.injEq] at settled
                  rw [← settled]
                  exact ⟨run, runs⟩
      · exact ⟨still, by simp⟩

/-! ## The sections of the owner -/

/-- What the container does with the pending jobs. -/
def claimAt (pool : Backlog κ) (system : System κ σ ν) (tick overloaded : Bool) : Claimed κ :=
  pool.claim
    (fun index => stopping system || decide (deadlineAt system index ≤ system.now))
    (fun index => !authoringAt system index || (tick && !overloaded))
    system.backlog

theorem executeJob_jobs (pool : Backlog κ) (system : System κ σ ν) (tick overloaded : Bool) :
    (executeJob pool system tick overloaded).2.jobs =
      system.jobs.mapIdx fun index job =>
        if (claimAt pool system tick overloaded).job == some index then
          { job with state := .running }
        else if (claimAt pool system tick overloaded).canceled.contains index then
          { job with state := .canceled }
        else job := by
  let claimed := claimAt pool system tick overloaded
  change (change
    (change system claimed.canceled.contains fun job => { job with state := .canceled })
    (claimed.job == some ·) fun job => { job with state := .running }).jobs = _
  simp only [Owner.change, List.mapIdx_mapIdx]
  congr 1
  funext index job
  dsimp only [Function.comp_apply]
  split
  · split <;> rfl
  · rfl

theorem claimAt_spec (pool : Backlog κ) (system : System κ σ ν) (tick overloaded : Bool) :
    ∃ rest,
      pool.jobs system.backlog = (claimAt pool system tick overloaded).canceled ++ rest ∧
        (∀ job, (claimAt pool system tick overloaded).job = some job →
          job ∈ rest ∧ (!authoringAt system job || (tick && !overloaded)) = true) ∧
        pool.jobs (claimAt pool system tick overloaded).backlog =
          (claimAt pool system tick overloaded).job.elim rest rest.erase :=
  pool.jobs_claim _ _ _

/-- The section that claims a job, while the owner holds none. -/
theorem executeJob_spec (all : Jobs (pool.jobs system.backlog) none system.jobs log)
    (tick overloaded : Bool) :
    let done := executeJob pool system tick overloaded
    Jobs (pool.jobs done.2.backlog) done.1 done.2.jobs log ∧
      ∀ job, done.1 = some job →
        Claims done.2.jobs log job fun held =>
          held.authoring = true → tick = true ∧ overloaded = false := by
  intro done
  let claimed := claimAt pool system tick overloaded
  obtain ⟨rest, split, inside, left⟩ := claimAt_spec pool system tick overloaded
  have jobs := executeJob_jobs pool system tick overloaded
  refine ⟨?_, ?_⟩
  · rw [jobs]
    change Jobs (pool.jobs claimed.backlog) claimed.job _ log
    rw [left]
    exact all.claim split fun job same => (inside job same).1
  · intro job same
    obtain ⟨member, may⟩ := inside job same
    have waiting : job ∈ pool.jobs system.backlog := by
      rw [split]
      exact List.mem_append_right _ member
    obtain ⟨held, found, _, _, _, fresh⟩ := all.pending waiting
    refine ⟨{ held with state := .running }, ?_, rfl, fresh, ?_⟩
    · rw [jobs, List.getElem?_mapIdx, found, Option.map_some]
      rw [if_pos]
      exact beq_iff_eq.mpr same
    · intro authoring
      have ours : authoringAt system job = true := by
        simp only [authoringAt, found, Option.any_some]
        exact authoring
      simpa [ours] using may

/-- The task of a claimed job runs. -/
theorem perform_spec {queue : List Nat} {index : Nat}
    (all : Jobs queue (some index) system.jobs log) {may : Job σ → Prop}
    (claims : Claims system.jobs log index may) (inside : Option (Nat × StepBatch)) :
    let done := perform snapshot system index inside
    ∃ run,
      done.2 = .ran run ∧ run.job = index ∧ run.inside = inside ∧
        run.left = snapshot done.1.world ∧ runsOf index log = [] ∧
        (∀ answer, .returned index answer ∉ log) ∧
        (∃ held, may held ∧ run.authoring = held.authoring) ∧
        done.1.backlog = system.backlog ∧ done.1.batches = system.batches ∧
        stopping done.1 = stopping system ∧
        Jobs queue (some index) done.1.jobs (log ++ [.ran run]) ∧
        ∀ keeps : Run ν → Prop, keeps run →
          Holds done.1.jobs (log ++ [.ran run]) index keeps := by
  obtain ⟨held, found, state, fresh, allowed⟩ := claims
  intro done
  have fits := all.fits index held found
  unfold Fits at fits
  simp only [state] at fits
  let failure := (runTask system index).1
  have only : ∀ other, (other == index) = true ↔ other = index := fun other => beq_iff_eq
  have failed := all.fail found state only failure
  have present : ({ held with failure := failure } : Job σ).state = .running := state
  have jobs : done.1.jobs = system.jobs.mapIdx fun other job =>
      if other == index then { job with failure := failure } else job := by
    simp only [done, perform, failure, runTask, found]
    rfl
  have foundAfter : done.1.jobs[index]? = some { held with failure := failure } := by
    rw [jobs, List.getElem?_mapIdx, found, Option.map_some, beq_self_eq_true, if_pos rfl]
  have authoring : authoringAt system index = held.authoring := by
    simp only [authoringAt, found, Option.any_some]
  refine ⟨_, rfl, rfl, rfl, rfl, fresh, ?_, ⟨held, allowed, authoring⟩, ?_, ?_, ?_, ?_, ?_⟩
  · intro answer member
    obtain ⟨other, otherFound, given⟩ := all.returned index answer member
    obtain rfl : held = other := Option.some.inj (found.symm.trans otherFound)
    exact absurd (fits.1.symm.trans given) (by simp)
  · simp only [done, perform, runTask, found]
    rfl
  · simp only [done, perform, runTask, found]
    rfl
  · simp only [done, perform, runTask, found]
    rfl
  · rw [← jobs] at failed
    exact failed.ran foundAfter present rfl
  · intro keeps kept
    refine ⟨{ held with failure := failure }, _, foundAfter, present, ?_, rfl, kept⟩
    rw [runsOf_snoc, fresh]
    simp [Event.runOf]

theorem nobody_changed (system : System κ σ ν) (edit : Job σ → Job σ) :
    (change system (none == some ·) edit).jobs = system.jobs := by
  refine List.ext_getElem? fun index => ?_
  simp [change, List.getElem?_mapIdx]

theorem held_only {index : Nat} (other : Nat) :
    (some index == some other) = true ↔ other = index := by
  rw [beq_iff_eq, Option.some.injEq, eq_comm]

theorem finish_spec {queue : List Nat} {completed : Option Nat}
    (all : Jobs queue completed system.jobs log) {keeps : Run ν → Prop}
    (holds : ∀ job, completed = some job → Holds system.jobs log job keeps)
    (stored : ∀ job held run, completed = some job → system.jobs[job]? = some held →
      keeps run → held.failure = none → run.authoring = true → Stored log run) :
    Jobs queue none (finish system completed).jobs log := by
  cases completed with
  | none =>
      rw [finish, nobody_changed]
      exact all
  | some index =>
      obtain ⟨held, run, found, state, runs, failure, kept⟩ := holds index rfl
      refine all.finish found state held_only runs ?_
      intro clean
      exact ⟨failure.trans clean, stored index held run rfl found kept clean⟩

/-- The owner moves on without an event. -/
theorem Inv.place (inv : Inv pool snapshot system log) {next : System κ σ ν}
    (batches : next.batches = system.batches)
    (ending : next.phase.ending = system.phase.ending)
    (jobs : Jobs (pool.jobs next.backlog) next.phase.busy next.jobs log)
    (stands :
      Stands (snapshot next.world) next.jobs next.batches (pool.jobs next.backlog)
        (stopping next) log next.phase) :
    Inv pool snapshot next log := by
  refine ⟨jobs, stands, ?_, ?_, ?_⟩
  · rw [ending]
    exact inv.closing
  · rw [batches]
    exact inv.ordinals
  · rw [batches]
    exact inv.begun

/-- The owner moves on with an event that is neither a run nor an answer. -/
theorem Inv.logged (inv : Inv pool snapshot system log) {next : System κ σ ν}
    (event : Event ν) (unrun : ∀ run, event ≠ .ran run)
    (unanswered : ∀ index answer, event ≠ .returned index answer)
    (jobs : Jobs (pool.jobs next.backlog) next.phase.busy next.jobs log)
    (stands :
      Stands (snapshot next.world) next.jobs next.batches (pool.jobs next.backlog)
        (stopping next) (log ++ [event]) next.phase)
    (closing :
      next.phase.ending = true ↔ event = .over ∨ system.phase.ending = true)
    (batches : system.batches ≤ next.batches)
    (begun : ∀ ordinal steps, event = .began ordinal steps → ordinal < next.batches) :
    Inv pool snapshot next (log ++ [event]) := by
  refine ⟨?_, stands, ?_, ?_, ?_⟩
  · refine jobs.snoc event unrun ?_
    intro index answer same
    exact absurd same (unanswered index answer)
  · rw [closing, ← inv.closing, List.mem_append, List.mem_singleton, or_comm, eq_comm]
  · intro run member ordinal steps inside
    rcases List.mem_append.mp member with old | new
    · exact (inv.ordinals run old ordinal steps inside).trans_le batches
    · exact absurd (List.mem_singleton.mp new).symm (unrun run)
  · intro ordinal steps member
    rcases List.mem_append.mp member with old | new
    · exact (inv.begun ordinal steps old).trans_le batches
    · exact begun ordinal steps (List.mem_singleton.mp new).symm

theorem Inv.turn (inv : Inv pool snapshot system log) (phase : system.phase = .turning) :
    let done := Owner.turn system
    Inv pool snapshot done.1 (log ++ done.2.toList) ∧
      ∀ logged, done.2 = some logged → Law log logged := by
  have jobs := inv.jobs
  rw [phase] at jobs
  have going : system.phase.ending = false := by
    rw [phase]
    rfl
  have open_ : .over ∉ log := by
    rw [inv.closing, going]
    decide
  have lawful : ∀ logged : Event ν, some Event.over = some logged → Law log logged := by
    intro logged same
    rw [← Option.some.inj same]
    exact open_
  unfold Owner.turn
  dsimp only
  by_cases stopped : stopping system = true
  · rw [if_pos stopped]
    refine ⟨inv.logged .over (by simp) (by simp) jobs stopped ?_ (Nat.le_refl _) (by simp),
      lawful⟩
    exact iff_of_true rfl (Or.inl rfl)
  · rw [if_neg stopped]
    split
    · refine ⟨inv.logged .over (by simp) (by simp) jobs ?_ ?_ (Nat.le_refl _) (by simp),
        lawful⟩
      · intro job none
        exact absurd none (by simp)
      · exact iff_of_true rfl (Or.inl rfl)
    · refine ⟨inv.logged _ (by simp) (by simp) jobs ?_ ?_ (Nat.le_succ _) ?_, ?_⟩
      · refine ⟨⟨rfl, by simp, rfl⟩, fun _ run member steps => ?_, by simp⟩
        rcases List.mem_append.mp member with old | new
        · intro inside
          exact absurd (inv.ordinals run old _ steps inside) (Nat.lt_irrefl _)
        · exact absurd (List.mem_singleton.mp new) (by simp)
      · rw [going]
        exact iff_of_false (by simp [Phase.ending]) (by simp)
      · intro ordinal steps same
        obtain ⟨rfl, _⟩ := Event.began.inj same
        exact Nat.lt_succ_self _
      · intro logged same
        rw [← Option.some.inj same]
        trivial

theorem Inv.tick (inv : Inv pool snapshot system log) {batch : Batch}
    {completed : Option Nat} (phase : system.phase = .ticking batch completed) :
    Inv pool snapshot (Owner.tick pool system batch completed) log := by
  have jobs := inv.jobs
  have stands := inv.stands
  rw [phase] at jobs stands
  obtain ⟨current, unused, holds⟩ := stands
  have going : system.phase.ending = false := by
    rw [phase]
    rfl
  unfold Owner.tick
  split
  · cases completed with
    | some job =>
        refine inv.place rfl going.symm jobs ⟨current, by simp, fun other same => ?_⟩
        exact (holds other same).extend (fun _ _ found _ => found) rfl fun _ => Or.inr
    | none =>
        obtain ⟨after, claims⟩ := executeJob_spec jobs true batch.overloaded
        dsimp only
        cases claimed : (executeJob pool system true batch.overloaded).1 with
        | none =>
            rw [claimed] at after
            exact inv.place rfl going.symm after ⟨current, fun _ => unused rfl, by simp⟩
        | some job =>
            rw [claimed] at after
            refine inv.place rfl going.symm after ⟨current, unused rfl, ?_⟩
            obtain ⟨held, found, state, fresh, may⟩ := claims job claimed
            refine ⟨held, found, state, fresh, fun authoring => ?_⟩
            rw [← current.agrees]
            exact (may authoring).2
  · exact inv.place rfl going.symm jobs holds

theorem Inv.publish (inv : Inv pool snapshot system log) {batch : Batch}
    {completed : Option Nat} (phase : system.phase = .publishing batch completed)
    (fails : Bool) :
    let done := Owner.publish snapshot system batch completed fails
    Inv pool snapshot done.1 (log ++ done.2.toList) ∧
      ∀ logged, done.2 = some logged → Law log logged := by
  have jobs := inv.jobs
  have stands := inv.stands
  rw [phase] at jobs stands
  obtain ⟨current, unused, holds⟩ := stands
  have going : system.phase.ending = false := by
    rw [phase]
    rfl
  have same : ∀ (event : Event ν), (∀ run, event ≠ .ran run) → ∀ index,
      runsOf index (log ++ [event]) = runsOf index log :=
    fun event unrun index => runsOf_other unrun index
  unfold Owner.publish
  dsimp only
  split
  · refine ⟨inv.logged .over (by simp) (by simp) jobs ?_ ?_ (Nat.le_refl _) (by simp), ?_⟩
    · intro job held
      exact (holds job held).extend (fun _ _ found _ => found) (same _ (by simp) job)
        fun _ _ => trivial
    · exact iff_of_true rfl (Or.inl rfl)
    · intro logged equal
      rw [← Option.some.inj equal]
      change .over ∉ log
      rw [inv.closing, going]
      decide
  · refine ⟨inv.logged _ (by simp) (by simp) jobs ⟨?_, ?_, ?_⟩ ?_ (Nat.le_refl _) (by simp),
      ?_⟩
    · exact ⟨current.last, List.mem_append_left _ current.began, current.agrees⟩
    · intro none
      exact (unused none).snoc (by simp)
    · intro job held
      obtain ⟨inner, run, found, state, runs, failure, kept⟩ := holds job held
      refine ⟨inner, run, found, state, (same _ (by simp) job).trans runs, failure, ?_⟩
      rcases kept with left | stored
      · have member : run ∈ runsOf job log := by
          rw [runs]
          exact List.mem_singleton_self run
        exact stored_publish (mem_runsOf.mp member).1 left.symm
      · exact stored.snoc _
    · rw [going]
      exact iff_of_false (by simp [Phase.ending]) (by simp)
    · intro logged equal
      rw [← Option.some.inj equal]
      trivial

/-- The task of a claimed job runs, inside a tick or between the batches. -/
theorem Inv.perform (inv : Inv pool snapshot system log) {index : Nat}
    {may : Job σ → Prop} (inside : Option (Nat × StepBatch)) (next : Phase)
    (busy : system.phase.busy = some index)
    (claims : Claims system.jobs log index may)
    (going : system.phase.ending = false) (steady : next.ending = false)
    (still : next.busy = some index)
    (authoring : ∀ held : Job σ, may held → held.authoring = true →
      ∃ ordinal steps, inside = some (ordinal, steps) ∧ steps.overloaded = false)
    (current : ∀ ordinal steps, inside = some (ordinal, steps) →
      .began ordinal steps ∈ log ∧ ordinal + 1 = system.batches ∧
        ∀ earlier, .ran earlier ∈ log → ∀ batch, earlier.inside ≠ some (ordinal, batch))
    (stands : ∀ (jobs : List (Job σ)) (world : σ) (run : Run ν) (held : Job σ),
      run.left = snapshot world → may held → run.authoring = held.authoring →
      (∀ keeps : Run ν → Prop, keeps run → Holds jobs (log ++ [.ran run]) index keeps) →
      Stands (snapshot world) jobs system.batches (pool.jobs system.backlog)
        (stopping system) (log ++ [.ran run]) next) :
    let done := Owner.perform snapshot system index inside
    Inv pool snapshot (moved done.1 next) (log ++ [done.2]) ∧ Law log done.2 := by
  have jobs := inv.jobs
  rw [busy] at jobs
  obtain ⟨run, event, own, place, left, fresh, unanswered, ⟨held, allowed, ours⟩, backlog,
      batches, stops, after, holds⟩ := perform_spec jobs claims inside
  intro done
  have ending : .over ∉ log := by
    rw [inv.closing, going]
    decide
  rw [show done.2 = .ran run from event]
  refine ⟨⟨?_, ?_, ?_, ?_, ?_⟩, ?_⟩
  · change Jobs (pool.jobs done.1.backlog) next.busy done.1.jobs _
    rw [still, backlog]
    exact after
  · change Stands _ _ done.1.batches (pool.jobs done.1.backlog) (stopping done.1) _ next
    rw [batches, backlog, stops]
    exact stands _ _ run held left allowed ours holds
  · change _ ↔ next.ending = true
    rw [steady]
    refine iff_of_false ?_ (by decide)
    intro member
    rcases List.mem_append.mp member with old | new
    · exact ending old
    · exact absurd (List.mem_singleton.mp new) (by simp)
  · change ∀ run, _ → ∀ ordinal steps, _ → ordinal < done.1.batches
    rw [batches]
    intro other member ordinal steps equal
    rcases List.mem_append.mp member with old | new
    · exact inv.ordinals other old ordinal steps equal
    · obtain rfl : other = run := Event.ran.inj (List.mem_singleton.mp new)
      have last := (current ordinal steps (place.symm.trans equal)).2.1
      omega
  · change ∀ ordinal steps, _ → ordinal < done.1.batches
    rw [batches]
    intro ordinal steps member
    rcases List.mem_append.mp member with old | new
    · exact inv.begun ordinal steps old
    · exact absurd (List.mem_singleton.mp new) (by simp)
  · refine ⟨by rw [own]; exact fresh, by rw [own]; exact unanswered, ending, ?_, ?_⟩
    · intro wrote
      rw [place]
      exact authoring held allowed (ours.symm.trans wrote)
    · intro ordinal steps equal
      obtain ⟨began, last, alone⟩ := current ordinal steps (place.symm.trans equal)
      refine ⟨began, ?_, alone⟩
      intro other batch member
      have below := inv.begun other batch member
      omega

/-- The next section or task of the owner thread. -/
theorem Inv.proceed (inv : Inv pool snapshot system log) (fails : Bool) :
    let done := Owner.proceed pool snapshot system fails
    Inv pool snapshot done.1 (log ++ done.2.toList) ∧
      ∀ logged, done.2 = some logged → Law log logged := by
  have quiet : ∀ {next : System κ σ ν}, Inv pool snapshot next log →
      Inv pool snapshot next (log ++ (none : Option (Event ν)).toList) ∧
        ∀ logged, (none : Option (Event ν)) = some logged → Law log logged := by
    intro next kept
    rw [Option.toList_none, List.append_nil]
    exact ⟨kept, by simp⟩
  have jobs := inv.jobs
  have stands := inv.stands
  unfold Owner.proceed
  cases phase : system.phase with
  | turning => exact inv.turn phase
  | ticking batch completed => exact quiet (inv.tick phase)
  | working batch job =>
      rw [phase] at stands
      obtain ⟨current, unused, claims⟩ := stands
      have busy : system.phase.busy = some job := by
        rw [phase]
        rfl
      have going : system.phase.ending = false := by
        rw [phase]
        rfl
      have performed := inv.perform (some (batch.ordinal, batch.steps))
        (.publishing batch (some job)) busy claims going rfl rfl
        (fun held allowed authoring => ⟨_, _, rfl, allowed authoring⟩)
        (fun ordinal steps same => by
          obtain ⟨rfl, rfl⟩ := Prod.mk.inj (Option.some.inj same)
          exact ⟨current.began, current.last, unused⟩)
        (fun later world run held left _ _ holds =>
          ⟨current.snoc _, by simp, fun other same =>
            Option.some.inj same ▸ holds _ (Or.inl left)⟩)
      exact ⟨performed.1, fun logged same => Option.some.inj same ▸ performed.2⟩
  | publishing batch completed => exact inv.publish phase fails
  | settling completed =>
      rw [phase] at jobs stands
      refine quiet (inv.place rfl (by rw [phase]; rfl) (finish_spec jobs stands ?_) trivial)
      intro _ _ _ _ _ stored _ _
      exact stored
  | polling =>
      rw [phase] at jobs
      obtain ⟨after, claims⟩ := executeJob_spec jobs false false
      dsimp only
      cases claimed : (executeJob pool system false false).1 with
      | none =>
          rw [claimed] at after
          exact quiet (inv.place rfl (by rw [phase]; rfl) after trivial)
      | some job =>
          rw [claimed] at after
          refine quiet (inv.place rfl (by rw [phase]; rfl) after ?_)
          obtain ⟨held, found, state, fresh, may⟩ := claims job claimed
          refine ⟨held, found, state, fresh, Bool.eq_false_iff.mpr fun authoring => ?_⟩
          exact absurd (may authoring).1 (by decide)
  | serving job =>
      rw [phase] at stands
      have busy : system.phase.busy = some job := by
        rw [phase]
        rfl
      have going : system.phase.ending = false := by
        rw [phase]
        rfl
      have performed := inv.perform none (.finishing job) busy stands going rfl rfl
        (fun held reads authoring => absurd (reads.symm.trans authoring) (by decide))
        (by simp)
        (fun later world run held _ reads ours holds => holds _ (ours.trans reads))
      exact ⟨performed.1, fun logged same => Option.some.inj same ▸ performed.2⟩
  | finishing job =>
      rw [phase] at jobs stands
      refine quiet (inv.place rfl (by rw [phase]; rfl)
        (finish_spec jobs (fun other same => Option.some.inj same ▸ stands) ?_) trivial)
      intro _ _ _ _ _ reads _ authoring
      exact absurd (reads.symm.trans authoring) (by decide)
  | failing exception completed =>
      rw [phase] at jobs stands
      exact quiet (inv.place rfl (by rw [phase]; rfl) jobs ⟨rfl, stands⟩)
  | notifying exception completed =>
      rw [phase] at jobs stands
      obtain ⟨stopped, holds⟩ := stands
      refine quiet (inv.place rfl (by rw [phase]; rfl) ?_ stopped)
      cases completed with
      | none =>
          change Jobs _ none (finish (change system _ _) none).jobs log
          rw [finish, nobody_changed, nobody_changed]
          exact jobs
      | some index =>
          obtain ⟨held, run, found, state, runs, _⟩ := holds index rfl
          have failed := jobs.fail found state held_only (some exception)
          have foundAfter : (system.jobs.mapIdx fun other job =>
              if some index == some other then { job with failure := some exception }
              else job)[index]? = some { held with failure := some exception } := by
            rw [List.getElem?_mapIdx, found, Option.map_some, if_pos (held_only _ |>.mpr rfl)]
          exact failed.finish foundAfter state held_only runs
            fun clean => absurd clean (by simp)
  | canceling =>
      rw [phase] at jobs stands
      refine quiet (inv.place rfl (by rw [phase]; rfl) ?_ ⟨stands, pool.jobs_empty⟩)
      change Jobs (pool.jobs pool.empty) none _ log
      rw [pool.jobs_empty]
      exact jobs.cancel
  | ended => exact quiet inv

/-- One step, on any input. -/
theorem Inv.step (inv : Inv pool snapshot system log) (input : Input σ) :
    let done := Owner.step pool snapshot system input
    Inv pool snapshot done.1 (log ++ done.2.toList) ∧
      ∀ logged, done.2 = some logged → Law log logged := by
  cases input with
  | elapse nanoseconds =>
      refine ⟨inv.aside none rfl rfl rfl inv.jobs (fun _ _ found _ => found)
        (fun _ empty => empty) ?_ (by simp), by simp [Owner.step]⟩
      intro stopped
      change (system.stop || decide (system.deadline ≤ system.now + nanoseconds)) = true
      simp only [stopping, Bool.or_eq_true, decide_eq_true_eq] at stopped ⊢
      exact stopped.imp_right fun late => late.trans (Nat.le_add_right _ _)
  | requestStop =>
      refine ⟨inv.aside none rfl rfl rfl inv.jobs (fun _ _ found _ => found)
        (fun _ empty => empty) (fun _ => ?_) (by simp), by simp [Owner.step]⟩
      simp [stopping, Owner.step]
  | dispatch task deadline authoring => exact inv.enter task deadline authoring
  | timeOut job => exact inv.timeOut job
  | wake job => exact inv.wake job
  | owner fails => exact inv.proceed fails

/-! ## Runs -/

theorem inv_start (pool : Backlog κ) (snapshot : σ → ν) (world : σ) (now deadline : Nat) :
    Inv pool snapshot (start pool snapshot world now deadline) [] where
  jobs := by
    have empty : pool.jobs pool.empty = [] := pool.jobs_empty
    refine ⟨by simp [start], ?_, ?_, by simp, by simp⟩
    · change (pool.jobs pool.empty).Nodup
      rw [empty]
      exact List.nodup_nil
    · change ∀ index ∈ pool.jobs pool.empty, _
      rw [empty]
      simp
  stands := trivial
  closing := by simp [start, Phase.ending]
  ordinals := by simp
  begun := by simp

theorem Inv.run (inv : Inv pool snapshot system log) (lawful : Logs.Each Law log)
    (inputs : List (Input σ)) :
    let done := Owner.run pool snapshot system inputs
    Inv pool snapshot done.1 (log ++ done.2) ∧ Logs.Each Law (log ++ done.2) := by
  induction inputs generalizing system log with
  | nil =>
      simp only [Owner.run, List.append_nil]
      exact ⟨inv, lawful⟩
  | cons input rest inductionHypothesis =>
      obtain ⟨next, law⟩ := inv.step input
      have extended := (Logs.each_option log _).mpr ⟨lawful, law⟩
      have later := inductionHypothesis next extended
      simp only [Owner.run]
      rw [← List.append_assoc]
      exact later

theorem runsOf_append (job : Nat) (front back : List (Event ν)) :
    runsOf job (front ++ back) = runsOf job front ++ runsOf job back :=
  List.filterMap_append

/-- Nothing runs for a job whose dispatch has returned. -/
theorem answered_idle {before after : List (Event ν)} {job : Nat} {answer : Answer}
    (lawful : Logs.Each Law (before ++ .returned job answer :: after)) :
    runsOf job after = [] := by
  rw [List.eq_nil_iff_forall_not_mem]
  intro run member
  obtain ⟨logged, own⟩ := mem_runsOf.mp member
  obtain ⟨middle, rest, split⟩ := List.append_of_mem logged
  have law := lawful (before ++ .returned job answer :: middle) (.ran run) rest
    (by rw [split, List.append_assoc, List.cons_append])
  refine law.2.1 answer ?_
  rw [own]
  simp

theorem runs_once {log : List (Event ν)} (lawful : Logs.Each Law log) (job : Nat) :
    (runsOf job log).length ≤ 1 := by
  induction log using List.reverseRecOn with
  | nil => simp [runsOf]
  | append_singleton log event inductionHypothesis =>
      obtain ⟨before, law⟩ := (Logs.each_snoc log event).mp lawful
      rw [runsOf_snoc]
      cases found : event.runOf job with
      | none => simpa using inductionHypothesis before
      | some run =>
          have logged : run ∈ runsOf job [event] := by
            simp [runsOf, found]
          obtain ⟨same, own⟩ := mem_runsOf.mp logged
          rw [← List.mem_singleton.mp same] at law
          have fresh := law.1
          rw [own] at fresh
          simp [fresh]

/-- A run inside the ticks of one batch. -/
def Event.insideOf (ordinal : Nat) : Event ν → Bool
  | .ran run =>
      match run.inside with
      | some (batch, _) => batch == ordinal
      | none => false
  | _ => false

theorem insideOf_iff {ordinal : Nat} {event : Event ν} :
    event.insideOf ordinal = true ↔
      ∃ run steps, event = .ran run ∧ run.inside = some (ordinal, steps) := by
  cases event with
  | ran run =>
      cases place : run.inside with
      | none => simp [Event.insideOf, place]
      | some both => simp [Event.insideOf, place, Prod.ext_iff]
  | _ => simp [Event.insideOf]

theorem batch_once {log : List (Event ν)} (lawful : Logs.Each Law log) (ordinal : Nat) :
    log.countP (Event.insideOf ordinal) ≤ 1 := by
  induction log using List.reverseRecOn with
  | nil => simp
  | append_singleton log event inductionHypothesis =>
      obtain ⟨before, law⟩ := (Logs.each_snoc log event).mp lawful
      rw [List.countP_append, List.countP_singleton]
      split
      · rename_i inside
        obtain ⟨run, steps, rfl, place⟩ := insideOf_iff.mp inside
        have alone := (law.2.2.2.2 ordinal steps place).2.2
        have none : log.countP (Event.insideOf ordinal) = 0 := by
          rw [List.countP_eq_zero]
          intro earlier member also
          obtain ⟨other, batch, rfl, same⟩ := insideOf_iff.mp also
          exact alone other member batch same
        rw [none]
      · simpa using inductionHypothesis before

/-- The answers of `dispatch` tell what the owner did. -/
structure Agreement (pool : Backlog κ) (snapshot : σ → ν) (system : System κ σ ν)
    (log : List (Event ν)) : Prop where
  refused : ∀ job, .returned job .refused ∈ log → runsOf job log = []
  accepted :
    ∀ before job after, log = before ++ .returned job .done :: after →
      ∃ run, runsOf job before = [run] ∧ run.failure = none ∧
        (run.authoring = true → Stored before run)
  once : ∀ job, (runsOf job log).length ≤ 1
  afterwards :
    ∀ before job answer after, log = before ++ .returned job answer :: after →
      runsOf job after = []
  authoring :
    ∀ before run after, log = before ++ .ran run :: after → run.authoring = true →
      ∃ ordinal steps, run.inside = some (ordinal, steps) ∧ steps.overloaded = false ∧
        .began ordinal steps ∈ before ∧
        ∀ other batch, .began other batch ∈ before → other ≤ ordinal
  single : ∀ ordinal, log.countP (Event.insideOf ordinal) ≤ 1
  closes :
    ∀ before after, log = before ++ .over :: after →
      (∀ run, .ran run ∉ after) ∧
        ∀ job answer, .returned job answer ∈ after → runsOf job before = [] →
          answer = .refused
  settles :
    system.phase.ending = true →
      (run pool snapshot system (List.replicate 3 (.owner false))).1.phase = .ended
  ended :
    system.phase = .ended →
      (∀ task deadline authoring, ∃ job,
        (enter pool system task deadline authoring).2 = some (.returned job .refused)) ∧
      ∀ index job, system.jobs[index]? = some job → job.answer = none →
        ∃ answer, (wake system index).2 = some (.returned index answer) ∧
          (runsOf index log = [] → answer = .refused)

theorem Inv.ended (inv : Inv pool snapshot system log) (phase : system.phase = .ended) :
    (∀ task deadline authoring, ∃ job,
        (Owner.enter pool system task deadline authoring).2 =
          some (.returned job .refused)) ∧
      ∀ index job, system.jobs[index]? = some job → job.answer = none →
        ∃ answer, (Owner.wake system index).2 = some (.returned index answer) ∧
          (runsOf index log = [] → answer = .refused) := by
  have stands := inv.stands
  rw [phase] at stands
  obtain ⟨stopped, drained⟩ := stands
  refine ⟨?_, ?_⟩
  · intro task deadline authoring
    refine ⟨system.jobs.length, ?_⟩
    simp [Owner.enter, stopped]
  · intro index job found waiting
    have fits := inv.jobs.fits index job found
    unfold Fits at fits
    unfold Owner.wake
    cases state : job.state with
    | pending =>
        simp only [state, waiting, drained] at fits
        simp at fits
    | running =>
        simp only [state, phase] at fits
        exact absurd fits.2.2 (by simp [Phase.busy])
    | canceled => simp [found, waiting, outcome, state]
    | completed =>
        simp only [state] at fits
        obtain ⟨_, ⟨run, runs, _⟩, _⟩ := fits
        cases failure : job.failure <;> simp [found, waiting, outcome, state, failure, runs]

theorem ending_ends (pool : Backlog κ) (snapshot : σ → ν) (system : System κ σ ν)
    (ending : system.phase.ending = true) :
    (Owner.run pool snapshot system (List.replicate 3 (.owner false))).1.phase = .ended := by
  cases phase : system.phase with
  | failing exception completed =>
      simp [List.replicate, Owner.run, Owner.step, Owner.proceed, phase, moved,
        cancelPending, finish, change]
  | notifying exception completed =>
      simp [List.replicate, Owner.run, Owner.step, Owner.proceed, phase, moved,
        cancelPending, finish, change]
  | canceling =>
      simp [List.replicate, Owner.run, Owner.step, Owner.proceed, phase, moved,
        cancelPending, change]
  | ended => simp [List.replicate, Owner.run, Owner.step, Owner.proceed, phase]
  | _ =>
      rw [phase] at ending
      exact absurd ending (by simp [Phase.ending])

theorem Inv.agreement (inv : Inv pool snapshot system log) (lawful : Logs.Each Law log) :
    Agreement pool snapshot system log where
  refused := by
    intro job member
    obtain ⟨before, after, split⟩ := List.append_of_mem member
    have law := lawful before _ after split
    rw [split] at lawful
    rw [split, runsOf_append, law.2, List.nil_append]
    change runsOf job after = []
    exact answered_idle lawful
  accepted := by
    intro before job after split
    exact (lawful before _ after split).2
  once := runs_once lawful
  afterwards := by
    intro before job answer after split
    rw [split] at lawful
    exact answered_idle lawful
  authoring := by
    intro before run after split wrote
    obtain ⟨_, _, _, inside, current⟩ := lawful before _ after split
    obtain ⟨ordinal, steps, place, calm⟩ := inside wrote
    obtain ⟨began, last, _⟩ := current ordinal steps place
    exact ⟨ordinal, steps, place, calm, began, last⟩
  single := batch_once lawful
  closes := by
    intro before after split
    have idle : ∀ run, .ran run ∉ after := by
      intro run member
      obtain ⟨middle, rest, inner⟩ := List.append_of_mem member
      have law := lawful (before ++ .over :: middle) (.ran run) rest
        (by rw [split, inner, List.append_assoc, List.cons_append])
      exact law.2.2.1 (by simp)
    refine ⟨idle, ?_⟩
    intro job answer member fresh
    obtain ⟨middle, rest, inner⟩ := List.append_of_mem member
    have law := lawful (before ++ .over :: middle) (.returned job answer) rest
      (by rw [split, inner, List.append_assoc, List.cons_append])
    have none : runsOf job (before ++ .over :: middle) = [] := by
      rw [List.eq_nil_iff_forall_not_mem]
      intro run ran
      obtain ⟨logged, own⟩ := mem_runsOf.mp ran
      rcases List.mem_append.mp logged with old | new
      · have also := mem_runsOf.mpr ⟨old, own⟩
        rw [fresh] at also
        exact absurd also (by simp)
      · rcases List.mem_cons.mp new with end_ | later
        · exact absurd end_ (by simp)
        · exact idle run (by rw [inner]; exact List.mem_append_left _ later)
    cases answer with
    | refused => rfl
    | done =>
        obtain ⟨_, run, runs, _⟩ := law
        exact absurd (none.symm.trans runs) (by simp)
    | threw exception =>
        obtain ⟨_, run, runs⟩ := law
        exact absurd (none.symm.trans runs) (by simp)
  settles := ending_ends pool snapshot system
  ended := inv.ended

/-- Both owners, over any interleaving of the sections of any number of gateway threads
with those of the owner, the tasks, stop requests and failed publications. -/
theorem dispatch_agrees (snapshot : σ → ν) (world : σ) (now deadline : Nat)
    (inputs : List (Input σ)) :
    let policy := run policyBacklog snapshot
      (start policyBacklog snapshot world now deadline) inputs
    let agents := run agentsBacklog snapshot
      (start agentsBacklog snapshot world now deadline) inputs
    Agreement policyBacklog snapshot policy.1 policy.2 ∧
      Agreement agentsBacklog snapshot agents.1 agents.2 := by
  have general : ∀ {κ : Type} (pool : Backlog κ),
      let done := run pool snapshot (start pool snapshot world now deadline) inputs
      Agreement pool snapshot done.1 done.2 := by
    intro κ pool
    obtain ⟨inv, lawful⟩ :=
      (inv_start pool snapshot world now deadline).run Logs.Each.nil inputs
    rw [List.nil_append] at inv lawful
    exact inv.agreement lawful
  exact ⟨general policyBacklog, general agentsBacklog⟩

/-- An authoring task waits for a tick that is due, and is answered after the
publication of it. -/
example :
    let count : EStateM Thrown Nat Unit := fun total => .ok () (total + 1)
    let inputs : List (Input Nat) :=
      [.dispatch count 50000000 true, .owner false, .owner false, .owner false, .owner false,
        .elapse 20000000, .owner false, .owner false, .owner false, .owner false, .owner false,
        .owner false, .wake 0]
    (run agentsBacklog id (start agentsBacklog id 0 0 90000000) inputs).2 =
      [.began 0 ⟨0, 0, 0, 0, false⟩, .began 1 ⟨1, 1, 0, 200000000, false⟩,
        .ran ⟨0, true, some (1, ⟨1, 1, 0, 200000000, false⟩), none, 1⟩,
        .published ⟨⟨1, 0, 0, 200000000⟩, 1⟩, .returned 0 .done] := by
  decide +kernel

end Omniweft.Owner
