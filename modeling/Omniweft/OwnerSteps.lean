import Omniweft.Owner
import Omniweft.Library.Logs

/-!
# Jobs and the owner thread

A job that is pending has not run and nobody was answered; the one job that runs
belongs to the phase the owner is in; a completed job ran once. One lemma for each
thing a section does to the jobs.
-/

namespace Omniweft.Owner

open Transactions Simulation

variable {κ σ ν : Type}

def Event.runOf (job : Nat) : Event ν → Option (Run ν)
  | .ran run => if run.job = job then some run else none
  | _ => none

/-- The runs of one job. -/
def runsOf (job : Nat) (log : List (Event ν)) : List (Run ν) :=
  log.filterMap (Event.runOf job)

/-- A publication after the run holds the world it left. -/
def Stored (log : List (Event ν)) (run : Run ν) : Prop :=
  ∃ before after entry,
    log = before ++ .ran run :: after ∧ .published entry ∈ after ∧
      entry.snapshot = run.left

theorem runsOf_snoc (job : Nat) (log : List (Event ν)) (event : Event ν) :
    runsOf job (log ++ [event]) = runsOf job log ++ (event.runOf job).toList := by
  unfold runsOf
  rw [List.filterMap_append]
  cases found : event.runOf job <;> simp [found]

theorem mem_runsOf {job : Nat} {log : List (Event ν)} {run : Run ν} :
    run ∈ runsOf job log ↔ .ran run ∈ log ∧ run.job = job := by
  unfold runsOf
  rw [List.mem_filterMap]
  constructor
  · intro found
    obtain ⟨event, member, same⟩ := found
    unfold Event.runOf at same
    split at same
    · split at same
      · rename_i inner named
        obtain rfl : inner = run := Option.some.inj same
        exact ⟨member, named⟩
      · exact absurd same (by simp)
    · exact absurd same (by simp)
  · intro both
    exact ⟨.ran run, both.1, if_pos both.2⟩

theorem Stored.snoc {log : List (Event ν)} {run : Run ν} (stored : Stored log run)
    (event : Event ν) : Stored (log ++ [event]) run := by
  obtain ⟨before, after, entry, split, member, same⟩ := stored
  refine ⟨before, after ++ [event], entry, ?_, List.mem_append_left _ member, same⟩
  rw [split, List.append_assoc, List.cons_append]

theorem stored_publish {log : List (Event ν)} {run : Run ν} {entry : Published ν}
    (member : .ran run ∈ log) (same : entry.snapshot = run.left) :
    Stored (log ++ [.published entry]) run := by
  obtain ⟨before, after, split⟩ := List.append_of_mem member
  refine ⟨before, after ++ [.published entry], entry, ?_, by simp, same⟩
  rw [split, List.append_assoc, List.cons_append]

/-- What is known of a job in each of its states. -/
def Fits (queue : List Nat) (busy : Option Nat) (log : List (Event ν)) (index : Nat)
    (job : Job σ) : Prop :=
  match job.state with
  | .pending =>
      job.failure = none ∧ runsOf index log = [] ∧
        (job.answer = none ∧ index ∈ queue ∨
          job.answer = some .refused ∧ index ∉ queue)
  | .running => job.answer = none ∧ index ∉ queue ∧ busy = some index
  | .canceled =>
      runsOf index log = [] ∧ index ∉ queue ∧
        (job.answer = none ∨ job.answer = some .refused)
  | .completed =>
      index ∉ queue ∧
        (∃ run, runsOf index log = [run] ∧
          (job.failure = none →
            run.failure = none ∧ (run.authoring = true → Stored log run))) ∧
        (job.answer = none ∨ job.answer = outcome job)

structure Jobs (queue : List Nat) (busy : Option Nat) (jobs : List (Job σ))
    (log : List (Event ν)) : Prop where
  fits : ∀ index job, jobs[index]? = some job → Fits queue busy log index job
  nodup : queue.Nodup
  queued : ∀ index ∈ queue, ∃ job, jobs[index]? = some job ∧ job.state = .pending
  known : ∀ run, .ran run ∈ log → run.job < jobs.length
  returned :
    ∀ index answer, .returned index answer ∈ log →
      ∃ job, jobs[index]? = some job ∧ job.answer = some answer

theorem Fits.snoc {queue : List Nat} {busy : Option Nat} {log : List (Event ν)}
    {index : Nat} {job : Job σ} (fits : Fits queue busy log index job) {event : Event ν}
    (other : event.runOf index = none) : Fits queue busy (log ++ [event]) index job := by
  have same : runsOf index (log ++ [event]) = runsOf index log := by
    rw [runsOf_snoc, other, Option.toList_none, List.append_nil]
  unfold Fits at fits ⊢
  rw [same]
  split at fits
  · exact fits
  · exact fits
  · exact fits
  · obtain ⟨outside, ⟨run, runs, stored⟩, answered⟩ := fits
    refine ⟨outside, ⟨run, runs, fun clean => ?_⟩, answered⟩
    obtain ⟨quiet, kept⟩ := stored clean
    exact ⟨quiet, fun authored => (kept authored).snoc event⟩

theorem Fits.requeue {queue next : List Nat} {busy : Option Nat} {log : List (Event ν)}
    {index : Nat} {job : Job σ} (fits : Fits queue busy log index job)
    (same : index ∈ next ↔ index ∈ queue) : Fits next busy log index job := by
  unfold Fits at fits ⊢
  rw [same]
  exact fits

theorem Jobs.pending {queue : List Nat} {busy : Option Nat} {jobs : List (Job σ)}
    {log : List (Event ν)} (all : Jobs queue busy jobs log) {index : Nat}
    (member : index ∈ queue) :
    ∃ job, jobs[index]? = some job ∧ job.state = .pending ∧ job.failure = none ∧
      job.answer = none ∧ runsOf index log = [] := by
  obtain ⟨job, found, state⟩ := all.queued index member
  have fits := all.fits index job found
  unfold Fits at fits
  rw [state] at fits
  obtain ⟨clean, fresh, ⟨waiting, _⟩ | ⟨_, outside⟩⟩ := fits
  · exact ⟨job, found, state, clean, waiting, fresh⟩
  · exact absurd member outside

/-- An event that is not a run; an answer is that of its job. -/
theorem Jobs.snoc {queue : List Nat} {busy : Option Nat} {jobs : List (Job σ)}
    {log : List (Event ν)} (all : Jobs queue busy jobs log) (event : Event ν)
    (unrun : ∀ run, event ≠ .ran run)
    (answered : ∀ index answer, event = .returned index answer →
      ∃ job, jobs[index]? = some job ∧ job.answer = some answer) :
    Jobs queue busy jobs (log ++ [event]) := by
  have other : ∀ index, event.runOf index = none := by
    intro index
    cases event with
    | ran run => exact absurd rfl (unrun run)
    | _ => rfl
  refine ⟨fun index job found => (all.fits index job found).snoc (other index), all.nodup,
    all.queued, ?_, ?_⟩
  · intro run member
    rcases List.mem_append.mp member with old | new
    · exact all.known run old
    · exact absurd (List.mem_singleton.mp new).symm (unrun run)
  · intro index answer member
    rcases List.mem_append.mp member with old | new
    · exact all.returned index answer old
    · exact answered index answer (List.mem_singleton.mp new).symm

/-- One more call of `dispatch`, whose job is queued or refused. -/
theorem Jobs.enter {queue next : List Nat} {busy : Option Nat} {jobs : List (Job σ)}
    {log : List (Event ν)} (all : Jobs queue busy jobs log) (job : Job σ)
    (state : job.state = .pending) (clean : job.failure = none) (nodup : next.Nodup)
    (same : ∀ index, index < jobs.length → (index ∈ next ↔ index ∈ queue))
    (bounded : ∀ index ∈ next, index ≤ jobs.length)
    (answered :
      job.answer = none ∧ jobs.length ∈ next ∨
        job.answer = some .refused ∧ jobs.length ∉ next) :
    Jobs next busy (jobs ++ [job]) log := by
  have fresh : runsOf jobs.length log = [] := by
    rw [List.eq_nil_iff_forall_not_mem]
    intro run member
    obtain ⟨logged, named⟩ := mem_runsOf.mp member
    exact absurd (all.known run logged) (by omega)
  have older : ∀ (index : Nat) (held : Job σ), jobs[index]? = some held →
      (jobs ++ [job])[index]? = some held := by
    intro index held found
    rw [List.getElem?_append_left (List.getElem?_eq_some_iff.mp found).1]
    exact found
  refine ⟨?_, nodup, ?_, ?_, ?_⟩
  · intro index held found
    rcases Nat.lt_trichotomy index jobs.length with below | here | above
    · rw [List.getElem?_append_left below] at found
      exact (all.fits index held found).requeue (same index below)
    · rw [here, List.getElem?_concat_length] at found
      obtain rfl : job = held := Option.some.inj found
      unfold Fits
      rw [state, here]
      exact ⟨clean, fresh, answered⟩
    · have past : (jobs ++ [job]).length ≤ index := by
        rw [List.length_append, List.length_singleton]
        omega
      rw [List.getElem?_eq_none past] at found
      exact absurd found (by simp)
  · intro index member
    rcases Nat.lt_or_eq_of_le (bounded index member) with below | here
    · obtain ⟨held, found, pending⟩ := all.queued index ((same index below).mp member)
      exact ⟨held, older index held found, pending⟩
    · rw [here]
      exact ⟨job, List.getElem?_concat_length, state⟩
  · intro run member
    have below := all.known run member
    rw [List.length_append, List.length_singleton]
    omega
  · intro index answer member
    obtain ⟨held, found, given⟩ := all.returned index answer member
    exact ⟨held, older index held found, given⟩

/-- Some jobs change; each of them still fits, and none gets another answer. -/
theorem Jobs.change {queue next : List Nat} {busy later : Option Nat}
    {jobs : List (Job σ)} {log : List (Event ν)} (all : Jobs queue busy jobs log)
    (edit : Nat → Job σ → Job σ) (nodup : next.Nodup)
    (fits : ∀ index job, jobs[index]? = some job → Fits queue busy log index job →
      Fits next later log index (edit index job))
    (queued : ∀ index ∈ next, index ∈ queue ∧
      ∀ job : Job σ, job.state = .pending → (edit index job).state = .pending)
    (answers : ∀ index job answer, jobs[index]? = some job → job.answer = some answer →
      (edit index job).answer = some answer) :
    Jobs next later (jobs.mapIdx edit) log := by
  refine ⟨?_, nodup, ?_, ?_, ?_⟩
  · intro index job found
    rw [List.getElem?_mapIdx] at found
    obtain ⟨old, oldFound, same⟩ := Option.map_eq_some_iff.mp found
    rw [← same]
    exact fits index old oldFound (all.fits index old oldFound)
  · intro index member
    obtain ⟨old, kept⟩ := queued index member
    obtain ⟨job, found, pending⟩ := all.queued index old
    exact ⟨edit index job, by rw [List.getElem?_mapIdx, found]; rfl, kept job pending⟩
  · intro run member
    rw [List.length_mapIdx]
    exact all.known run member
  · intro index answer member
    obtain ⟨job, found, given⟩ := all.returned index answer member
    exact ⟨edit index job, by rw [List.getElem?_mapIdx, found]; rfl,
      answers index job answer found given⟩

/-- A job that is still pending is withdrawn by its waiter. -/
theorem Jobs.timeOut {queue : List Nat} {busy : Option Nat} {jobs : List (Job σ)}
    {log : List (Event ν)} (all : Jobs queue busy jobs log) {index : Nat} {job : Job σ}
    (found : jobs[index]? = some job) (state : job.state = .pending)
    (waiting : job.answer = none) :
    Jobs (queue.erase index) busy
      (jobs.mapIdx fun other job =>
        if other == index then { job with state := .canceled, answer := some .refused }
        else job)
      log := by
  have withdrawn : ∀ other, other ∈ queue.erase index ↔ other ≠ index ∧ other ∈ queue :=
    fun other => all.nodup.mem_erase_iff
  refine all.change _ (all.nodup.erase index) ?_ ?_ ?_
  · intro other held heldFound fits
    by_cases same : other = index
    · rw [same] at heldFound fits ⊢
      obtain rfl : job = held := Option.some.inj (found.symm.trans heldFound)
      unfold Fits at fits
      rw [state] at fits
      simp only [beq_self_eq_true, if_true]
      exact ⟨fits.2.1, by simp [withdrawn], Or.inr rfl⟩
    · rw [if_neg (by simpa using same)]
      exact fits.requeue (by simp [withdrawn, same])
  · intro other member
    obtain ⟨different, old⟩ := (withdrawn other).mp member
    refine ⟨old, fun held pending => ?_⟩
    rw [if_neg (by simpa using different)]
    exact pending
  · intro other held answer heldFound answered
    by_cases same : other = index
    · rw [same] at heldFound
      obtain rfl : job = held := Option.some.inj (found.symm.trans heldFound)
      exact absurd (waiting.symm.trans answered) (by simp)
    · rw [if_neg (by simpa using same)]
      exact answered

/-- A waiter takes the answer of a job that is over. -/
theorem Jobs.wake {queue : List Nat} {busy : Option Nat} {jobs : List (Job σ)}
    {log : List (Event ν)} (all : Jobs queue busy jobs log) {index : Nat} {job : Job σ}
    {answer : Answer} (found : jobs[index]? = some job) (waiting : job.answer = none)
    (settled : outcome job = some answer) :
    Jobs queue busy
      (jobs.mapIdx fun other job =>
        if other == index then { job with answer := some answer } else job)
      log := by
  refine all.change _ all.nodup ?_ ?_ ?_
  · intro other held heldFound fits
    by_cases same : other = index
    · rw [same] at heldFound fits ⊢
      obtain rfl : job = held := Option.some.inj (found.symm.trans heldFound)
      simp only [beq_self_eq_true, if_true]
      unfold Fits at fits ⊢
      cases state : job.state with
      | pending => simp [outcome, state] at settled
      | running => simp [outcome, state] at settled
      | canceled =>
          simp only [state] at fits ⊢
          simp only [outcome, state, Option.some.injEq] at settled
          exact ⟨fits.1, fits.2.1, Or.inr (congrArg some settled.symm)⟩
      | completed =>
          simp only [state] at fits ⊢
          refine ⟨fits.1, fits.2.1, Or.inr ?_⟩
          simpa [outcome, state] using settled.symm
    · rw [if_neg (by simpa using same)]
      exact fits
  · intro other member
    refine ⟨member, fun held pending => ?_⟩
    split <;> exact pending
  · intro other held given heldFound answered
    by_cases same : other = index
    · rw [same] at heldFound
      obtain rfl : job = held := Option.some.inj (found.symm.trans heldFound)
      exact absurd (waiting.symm.trans answered) (by simp)
    · rw [if_neg (by simpa using same)]
      exact answered

/-- The owner cancels the expired and claims a job, while it holds none. -/
theorem Jobs.claim {queue rest canceled : List Nat} {claimed : Option Nat}
    {jobs : List (Job σ)} {log : List (Event ν)} (all : Jobs queue none jobs log)
    (split : queue = canceled ++ rest) (inside : ∀ job, claimed = some job → job ∈ rest) :
    Jobs (claimed.elim rest rest.erase) claimed
      (jobs.mapIdx fun index job =>
        if claimed == some index then { job with state := .running }
        else if canceled.contains index then { job with state := .canceled } else job)
      log := by
  have parts := List.nodup_append.mp (split ▸ all.nodup)
  obtain ⟨_, restNodup, apart⟩ := parts
  have left : ∀ index, index ∈ claimed.elim rest rest.erase ↔
      claimed ≠ some index ∧ index ∈ rest := by
    intro index
    cases claimed with
    | none => simp
    | some job => simp [restNodup.mem_erase_iff, eq_comm]
  have queued : ∀ index, index ∈ queue ↔ index ∈ canceled ∨ index ∈ rest := by
    intro index
    rw [split, List.mem_append]
  refine all.change _ ?_ ?_ ?_ ?_
  · cases claimed with
    | none => exact restNodup
    | some job => exact restNodup.erase job
  · intro index job found fits
    by_cases own : claimed = some index
    · have member : index ∈ queue := (queued index).mpr (Or.inr (inside index own))
      obtain ⟨held, heldFound, state, clean, waiting, fresh⟩ := all.pending member
      obtain rfl : job = held := Option.some.inj (found.symm.trans heldFound)
      rw [if_pos (by simpa using own)]
      exact ⟨waiting, fun again => ((left index).mp again).1 own, own⟩
    · rw [if_neg (by simpa using own)]
      by_cases late : index ∈ canceled
      · have member : index ∈ queue := (queued index).mpr (Or.inl late)
        obtain ⟨held, heldFound, state, clean, waiting, fresh⟩ := all.pending member
        obtain rfl : job = held := Option.some.inj (found.symm.trans heldFound)
        rw [if_pos (by simpa using late)]
        have gone : index ∉ rest := fun also => apart index late index also rfl
        exact ⟨fresh, by simp [left, gone], Or.inl waiting⟩
      · rw [if_neg (by simpa using late)]
        have same : index ∈ claimed.elim rest rest.erase ↔ index ∈ queue := by
          simp [left, queued, own, late]
        have moved := fits.requeue same
        unfold Fits at moved ⊢
        split at moved
        · exact moved
        · exact absurd moved.2.2 (by simp)
        · exact moved
        · exact moved
  · intro index member
    obtain ⟨unclaimed, stays⟩ := (left index).mp member
    have alive : index ∉ canceled := fun also => apart index also index stays rfl
    refine ⟨(queued index).mpr (Or.inr stays), fun job pending => ?_⟩
    rw [if_neg (by simpa using unclaimed), if_neg (by simpa using alive)]
    exact pending
  · intro index job answer found answered
    split
    · exact answered
    · split <;> exact answered

/-- The task of the job that the owner holds has run. -/
theorem Jobs.ran {queue : List Nat} {busy : Nat} {jobs : List (Job σ)}
    {log : List (Event ν)} (all : Jobs queue (some busy) jobs log) {job : Job σ}
    (found : jobs[busy]? = some job) (state : job.state = .running) {run : Run ν}
    (own : run.job = busy) : Jobs queue (some busy) jobs (log ++ [.ran run]) := by
  refine ⟨?_, all.nodup, all.queued, ?_, ?_⟩
  · intro index held heldFound
    have fits := all.fits index held heldFound
    by_cases same : index = busy
    · rw [same] at heldFound fits ⊢
      obtain rfl : job = held := Option.some.inj (found.symm.trans heldFound)
      unfold Fits at fits ⊢
      rw [state] at fits ⊢
      exact fits
    · refine fits.snoc ?_
      have different : run.job ≠ index := by
        rw [own]
        exact fun equal => same equal.symm
      exact if_neg different
  · intro other member
    rcases List.mem_append.mp member with old | new
    · exact all.known other old
    · obtain rfl : other = run := Event.ran.inj (List.mem_singleton.mp new)
      rw [own]
      exact (List.getElem?_eq_some_iff.mp found).1
  · intro index answer member
    rcases List.mem_append.mp member with old | new
    · exact all.returned index answer old
    · exact absurd (List.mem_singleton.mp new) (by simp)

/-- Where the failure of a running job is noted, nothing else is known of it yet. -/
theorem Jobs.fail {queue : List Nat} {busy : Nat} {jobs : List (Job σ)}
    {log : List (Event ν)} (all : Jobs queue (some busy) jobs log) {job : Job σ}
    (found : jobs[busy]? = some job) (state : job.state = .running)
    {which : Nat → Bool} (only : ∀ index, which index = true ↔ index = busy)
    (failure : Option Thrown) :
    Jobs queue (some busy)
      (jobs.mapIdx fun index job =>
        if which index then { job with failure := failure } else job)
      log := by
  refine all.change _ all.nodup ?_ ?_ ?_
  · intro index held heldFound fits
    by_cases same : index = busy
    · rw [same] at heldFound fits ⊢
      obtain rfl : job = held := Option.some.inj (found.symm.trans heldFound)
      rw [if_pos ((only busy).mpr rfl)]
      unfold Fits at fits ⊢
      simp only [state] at fits ⊢
      exact fits
    · rw [if_neg fun also => same ((only index).mp also)]
      exact fits
  · intro index member
    refine ⟨member, fun held pending => ?_⟩
    split <;> exact pending
  · intro index held answer _ answered
    split <;> exact answered

/-- The owner lets go of the job it holds. -/
theorem Jobs.finish {queue : List Nat} {busy : Nat} {jobs : List (Job σ)}
    {log : List (Event ν)} (all : Jobs queue (some busy) jobs log) {job : Job σ}
    (found : jobs[busy]? = some job) (state : job.state = .running)
    {which : Nat → Bool} (only : ∀ index, which index = true ↔ index = busy) {run : Run ν}
    (runs : runsOf busy log = [run])
    (stored : job.failure = none →
      run.failure = none ∧ (run.authoring = true → Stored log run)) :
    Jobs queue none
      (jobs.mapIdx fun index job =>
        if which index then { job with state := .completed } else job)
      log := by
  refine all.change _ all.nodup ?_ ?_ ?_
  · intro index held heldFound fits
    by_cases same : index = busy
    · rw [same] at heldFound fits ⊢
      obtain rfl : job = held := Option.some.inj (found.symm.trans heldFound)
      rw [if_pos ((only busy).mpr rfl)]
      unfold Fits at fits
      simp only [state] at fits
      exact ⟨fits.2.1, ⟨run, runs, stored⟩, Or.inl fits.1⟩
    · rw [if_neg fun also => same ((only index).mp also)]
      unfold Fits at fits ⊢
      split at fits
      · exact fits
      · exact absurd (Option.some.inj fits.2.2).symm same
      · exact fits
      · exact fits
  · intro index member
    refine ⟨member, fun held pending => ?_⟩
    obtain ⟨other, otherFound, waiting⟩ := all.queued index member
    have different : index ≠ busy := by
      intro same
      rw [same, found] at otherFound
      rw [← Option.some.inj otherFound, state] at waiting
      exact absurd waiting (by decide)
    rw [if_neg fun also => different ((only index).mp also)]
    exact pending
  · intro index held answer _ answered
    split <;> exact answered

/-- Every job that is still pending is canceled. -/
theorem Jobs.cancel {queue : List Nat} {busy : Option Nat} {jobs : List (Job σ)}
    {log : List (Event ν)} (all : Jobs queue busy jobs log) :
    Jobs [] busy
      (jobs.mapIdx fun index job =>
        if queue.contains index then { job with state := .canceled } else job)
      log := by
  refine all.change _ List.nodup_nil ?_ (fun index member => absurd member (by simp)) ?_
  · intro index job found fits
    by_cases waiting : index ∈ queue
    · obtain ⟨held, heldFound, _, _, unanswered, fresh⟩ := all.pending waiting
      obtain rfl : job = held := Option.some.inj (found.symm.trans heldFound)
      rw [if_pos (by simpa using waiting)]
      exact ⟨fresh, by simp, Or.inl unanswered⟩
    · rw [if_neg (by simpa using waiting)]
      exact fits.requeue (by simp [waiting])
  · intro index job answer _ answered
    split <;> exact answered

/-- The job the owner thread holds. -/
def Phase.busy : Phase → Option Nat
  | .ticking _ completed => completed
  | .working _ job => some job
  | .publishing _ completed => completed
  | .settling completed => completed
  | .serving job => some job
  | .finishing job => some job
  | .failing _ completed => completed
  | .notifying _ completed => completed
  | _ => none

/-- The loop is over. -/
def Phase.ending : Phase → Bool
  | .failing _ _ => true
  | .notifying _ _ => true
  | .canceling => true
  | .ended => true
  | _ => false

/-- A claimed job whose task has not run. -/
def Claims (jobs : List (Job σ)) (log : List (Event ν)) (index : Nat)
    (may : Job σ → Prop) : Prop :=
  ∃ job, jobs[index]? = some job ∧ job.state = .running ∧ runsOf index log = [] ∧ may job

/-- A job whose task ran and that nobody was told about. -/
def Holds (jobs : List (Job σ)) (log : List (Event ν)) (index : Nat)
    (keeps : Run ν → Prop) : Prop :=
  ∃ job run, jobs[index]? = some job ∧ job.state = .running ∧
    runsOf index log = [run] ∧ run.failure = job.failure ∧ keeps run

structure Current (batches : Nat) (log : List (Event ν)) (batch : Batch) : Prop where
  last : batch.ordinal + 1 = batches
  began : .began batch.ordinal batch.steps ∈ log
  agrees : batch.overloaded = batch.steps.overloaded

/-- No task ran in the batch so far. -/
def Unused (log : List (Event ν)) (batch : Batch) : Prop :=
  ∀ run, .ran run ∈ log → ∀ steps, run.inside ≠ some (batch.ordinal, steps)

/-- What holds where the owner thread stands. -/
def Stands (world : ν) (jobs : List (Job σ)) (batches : Nat) (queue : List Nat)
    (stopped : Bool) (log : List (Event ν)) : Phase → Prop
  | .turning => True
  | .ticking batch completed =>
      Current batches log batch ∧ (completed = none → Unused log batch) ∧
        ∀ job, completed = some job → Holds jobs log job (Stored log)
  | .working batch job =>
      Current batches log batch ∧ Unused log batch ∧
        Claims jobs log job fun held =>
          held.authoring = true → batch.steps.overloaded = false
  | .publishing batch completed =>
      Current batches log batch ∧ (completed = none → Unused log batch) ∧
        ∀ job, completed = some job →
          Holds jobs log job fun run => run.left = world ∨ Stored log run
  | .settling completed =>
      ∀ job, completed = some job → Holds jobs log job (Stored log)
  | .polling => True
  | .serving job => Claims jobs log job fun held => held.authoring = false
  | .finishing job => Holds jobs log job fun run => run.authoring = false
  | .failing _ completed =>
      ∀ job, completed = some job → Holds jobs log job fun _ => True
  | .notifying _ completed =>
      stopped = true ∧ ∀ job, completed = some job → Holds jobs log job fun _ => True
  | .canceling => stopped = true
  | .ended => stopped = true ∧ queue = []

structure Inv (pool : Backlog κ) (snapshot : σ → ν) (system : System κ σ ν)
    (log : List (Event ν)) : Prop where
  jobs : Jobs (pool.jobs system.backlog) system.phase.busy system.jobs log
  stands :
    Stands (snapshot system.world) system.jobs system.batches (pool.jobs system.backlog)
      (stopping system) log system.phase
  closing : .over ∈ log ↔ system.phase.ending = true
  ordinals :
    ∀ run, .ran run ∈ log → ∀ ordinal steps, run.inside = some (ordinal, steps) →
      ordinal < system.batches
  begun : ∀ ordinal steps, .began ordinal steps ∈ log → ordinal < system.batches

/-- What an event may be, given the events before it. -/
def Law (before : List (Event ν)) : Event ν → Prop
  | .returned job answer =>
      (∀ earlier, .returned job earlier ∉ before) ∧
        match answer with
        | .refused => runsOf job before = []
        | .done =>
            ∃ run, runsOf job before = [run] ∧ run.failure = none ∧
              (run.authoring = true → Stored before run)
        | .threw _ => ∃ run, runsOf job before = [run]
  | .ran run =>
      runsOf run.job before = [] ∧ (∀ answer, .returned run.job answer ∉ before) ∧
        .over ∉ before ∧
        (run.authoring = true →
          ∃ ordinal steps, run.inside = some (ordinal, steps) ∧ steps.overloaded = false) ∧
        ∀ ordinal steps, run.inside = some (ordinal, steps) →
          .began ordinal steps ∈ before ∧
            (∀ other batch, .began other batch ∈ before → other ≤ ordinal) ∧
            ∀ earlier, .ran earlier ∈ before → ∀ batch,
              earlier.inside ≠ some (ordinal, batch)
  | .over => .over ∉ before
  | _ => True

theorem Claims.extend {jobs later : List (Job σ)} {log more : List (Event ν)}
    {index : Nat} {may : Job σ → Prop} (claims : Claims jobs log index may)
    (kept : ∀ (other : Nat) job, jobs[other]? = some job → job.state = .running →
      later[other]? = some job)
    (same : runsOf index more = runsOf index log) : Claims later more index may := by
  obtain ⟨job, found, state, fresh, allowed⟩ := claims
  exact ⟨job, kept index job found state, state, same.trans fresh, allowed⟩

theorem Holds.extend {jobs later : List (Job σ)} {log more : List (Event ν)}
    {index : Nat} {keeps known : Run ν → Prop} (holds : Holds jobs log index keeps)
    (kept : ∀ (other : Nat) job, jobs[other]? = some job → job.state = .running →
      later[other]? = some job)
    (same : runsOf index more = runsOf index log) (goes : ∀ run, keeps run → known run) :
    Holds later more index known := by
  obtain ⟨job, run, found, state, runs, failure, held⟩ := holds
  exact ⟨job, run, kept index job found state, state, same.trans runs, failure,
    goes run held⟩

theorem runsOf_other {log : List (Event ν)} {event : Event ν}
    (unrun : ∀ run, event ≠ .ran run) (index : Nat) :
    runsOf index (log ++ [event]) = runsOf index log := by
  rw [runsOf_snoc]
  cases event with
  | ran run => exact absurd rfl (unrun run)
  | _ => exact List.append_nil _

theorem Unused.snoc {log : List (Event ν)} {batch : Batch} (unused : Unused log batch)
    {event : Event ν} (unrun : ∀ run, event ≠ .ran run) :
    Unused (log ++ [event]) batch := by
  intro run member
  rcases List.mem_append.mp member with old | new
  · exact unused run old
  · exact absurd (List.mem_singleton.mp new).symm (unrun run)

theorem Current.snoc {batches : Nat} {log : List (Event ν)} {batch : Batch}
    (current : Current batches log batch) (event : Event ν) :
    Current batches (log ++ [event]) batch :=
  ⟨current.last, List.mem_append_left _ current.began, current.agrees⟩

/-- The place of the owner survives an event that is not a run, and changes of jobs
that do not run. -/
theorem Stands.extend {world : ν} {jobs later : List (Job σ)} {batches : Nat}
    {queue next : List Nat} {stopped halted : Bool} {log : List (Event ν)} {phase : Phase}
    (stands : Stands world jobs batches queue stopped log phase)
    (kept : ∀ (other : Nat) job, jobs[other]? = some job → job.state = .running →
      later[other]? = some job)
    (drained : stopped = true → queue = [] → next = []) (stops : stopped = true → halted = true)
    (event : Option (Event ν)) (unrun : ∀ run, event ≠ some (.ran run)) :
    Stands world later batches next halted (log ++ event.toList) phase := by
  have same : ∀ index, runsOf index (log ++ event.toList) = runsOf index log := by
    intro index
    cases event with
    | none => rw [Option.toList_none, List.append_nil]
    | some logged =>
        exact runsOf_other (fun run equal => unrun run (congrArg some equal)) index
  have current : ∀ batch, Current batches log batch →
      Current batches (log ++ event.toList) batch := by
    intro batch current
    cases event with
    | none =>
        rw [Option.toList_none, List.append_nil]
        exact current
    | some logged => exact current.snoc logged
  have unused : ∀ batch, Unused log batch → Unused (log ++ event.toList) batch := by
    intro batch unused
    cases event with
    | none =>
        rw [Option.toList_none, List.append_nil]
        exact unused
    | some logged => exact unused.snoc fun run equal => unrun run (congrArg some equal)
  have stored : ∀ run, Stored log run → Stored (log ++ event.toList) run := by
    intro run stored
    cases event with
    | none =>
        rw [Option.toList_none, List.append_nil]
        exact stored
    | some logged => exact stored.snoc logged
  cases phase with
  | turning => trivial
  | ticking batch completed =>
      obtain ⟨now, idle, holds⟩ := stands
      exact ⟨current batch now, fun none => unused batch (idle none),
        fun job held => (holds job held).extend kept (same job) stored⟩
  | working batch job =>
      obtain ⟨now, idle, claims⟩ := stands
      exact ⟨current batch now, unused batch idle, claims.extend kept (same job)⟩
  | publishing batch completed =>
      obtain ⟨now, idle, holds⟩ := stands
      exact ⟨current batch now, fun none => unused batch (idle none),
        fun job held => (holds job held).extend kept (same job) fun run =>
          Or.imp_right (stored run)⟩
  | settling completed =>
      exact fun job held => (stands job held).extend kept (same job) stored
  | polling => trivial
  | serving job => exact Claims.extend stands kept (same job)
  | finishing job => exact Holds.extend stands kept (same job) fun _ read => read
  | failing exception completed =>
      exact fun job held => (stands job held).extend kept (same job) fun _ _ => trivial
  | notifying exception completed =>
      exact ⟨stops stands.1,
        fun job held => (stands.2 job held).extend kept (same job) fun _ _ => trivial⟩
  | canceling => exact stops stands
  | ended => exact ⟨stops stands.1, drained stands.1 stands.2⟩

end Omniweft.Owner
