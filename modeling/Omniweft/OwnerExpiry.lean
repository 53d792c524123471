import Omniweft.OwnerRuns
import Mathlib.Data.List.TakeWhile

/-!
# Deadlines of pending jobs

`execute_job` cancels expired jobs before it claims one. The slot of the agents owner
is looked at whole. The queue of the policy owner is looked at from its front, and only
up to the first job that has time left; the job it claims may stand behind that one.
-/

namespace Omniweft.Owner

open Simulation

variable {κ σ ν : Type} {pool : Backlog κ} {snapshot : σ → ν} {system : System κ σ ν}
  {log : List (Event ν)}

/-- The deadline of a job has passed. -/
def late (system : System κ σ ν) (index : Nat) : Bool :=
  decide (deadlineAt system index ≤ system.now)

/-- What `execute_job` owes the pending jobs: one that it moves to running has time left
and the owner was not stopping, and one whose deadline has passed is canceled. -/
structure Punctual (pool : Backlog κ) (system : System κ σ ν) (tick overloaded : Bool) :
    Prop where
  claims :
    ∀ (index : Nat) (before after : Job σ),
      system.jobs[index]? = some before →
        (executeJob pool system tick overloaded).2.jobs[index]? = some after →
          before.state = .pending → after.state = .running →
            system.now < before.deadline ∧ stopping system = false
  cancels :
    ∀ index ∈ pool.jobs system.backlog, ∀ before : Job σ,
      system.jobs[index]? = some before → before.deadline ≤ system.now →
        ∃ after,
          (executeJob pool system tick overloaded).2.jobs[index]? = some after ∧
            after.state = .canceled

theorem deadlineAt_found {index : Nat} {job : Job σ} (found : system.jobs[index]? = some job) :
    deadlineAt system index = job.deadline := by
  rw [deadlineAt, found, Option.elim_some]

/-- The section is punctual exactly when the container sorts its jobs by their deadlines. -/
theorem punctual_iff {busy : Option Nat}
    (all : Jobs (pool.jobs system.backlog) busy system.jobs log) (tick overloaded : Bool) :
    Punctual pool system tick overloaded ↔
      (∀ index, (claimAt pool system tick overloaded).job = some index →
        late system index = false ∧ stopping system = false) ∧
      ∀ index ∈ pool.jobs system.backlog, late system index = true →
        index ∈ (claimAt pool system tick overloaded).canceled := by
  obtain ⟨rest, split, inside, _⟩ := claimAt_spec pool system tick overloaded
  have jobs := executeJob_jobs pool system tick overloaded
  obtain ⟨_, _, apart⟩ := List.nodup_append.mp (split ▸ all.nodup)
  have waits : ∀ index, (claimAt pool system tick overloaded).job = some index →
      index ∈ pool.jobs system.backlog := by
    intro index claimed
    rw [split]
    exact List.mem_append_right _ (inside index claimed).1
  constructor
  · intro punctual
    constructor
    · intro index claimed
      obtain ⟨job, found, pending⟩ := all.queued index (waits index claimed)
      have running := punctual.claims index job { job with state := .running } found
        (by
          rw [jobs, List.getElem?_mapIdx, found, Option.map_some, claimed, beq_self_eq_true,
            if_pos rfl])
        pending rfl
      refine ⟨decide_eq_false ?_, running.2⟩
      rw [deadlineAt_found found, Nat.not_le]
      exact running.1
    · intro index member passed
      obtain ⟨job, found, pending⟩ := all.queued index member
      have expired := of_decide_eq_true passed
      rw [deadlineAt_found found] at expired
      obtain ⟨after, moved, canceled⟩ := punctual.cancels index member job found expired
      rw [jobs, List.getElem?_mapIdx, found, Option.map_some] at moved
      by_cases own : (claimAt pool system tick overloaded).job == some index
      · rw [if_pos own] at moved
        rw [← Option.some.inj moved] at canceled
        cases canceled
      · rw [if_neg own] at moved
        by_cases gone : (claimAt pool system tick overloaded).canceled.contains index
        · exact List.contains_iff_mem.mp gone
        · rw [if_neg gone] at moved
          rw [← Option.some.inj moved, pending] at canceled
          cases canceled
  · intro sorts
    constructor
    · intro index before after found moved pending running
      rw [jobs, List.getElem?_mapIdx, found, Option.map_some] at moved
      by_cases own : (claimAt pool system tick overloaded).job == some index
      · obtain ⟨alive, going⟩ := sorts.1 index (beq_iff_eq.mp own)
        have time := of_decide_eq_false alive
        rw [deadlineAt_found found, Nat.not_le] at time
        exact ⟨time, going⟩
      · rw [if_neg own] at moved
        by_cases gone : (claimAt pool system tick overloaded).canceled.contains index
        · rw [if_pos gone] at moved
          rw [← Option.some.inj moved] at running
          cases running
        · rw [if_neg gone] at moved
          rw [← Option.some.inj moved, pending] at running
          cases running
    · intro index member before found expired
      have passed : late system index = true := by
        refine decide_eq_true ?_
        rw [deadlineAt_found found]
        exact expired
      have gone := sorts.2 index member passed
      have other : ¬ ((claimAt pool system tick overloaded).job == some index) = true := by
        intro own
        exact apart index gone index (inside index (beq_iff_eq.mp own)).1 rfl
      refine ⟨{ before with state := .canceled }, ?_, rfl⟩
      rw [jobs, List.getElem?_mapIdx, found, Option.map_some, if_neg other,
        if_pos (List.contains_iff_mem.mpr gone)]

/-- The slot of the agents owner holds one job, which the section looks at. -/
theorem claimSlot_sorts {ν : Type} (system : System (Option Nat) σ ν) (tick overloaded : Bool) :
    (∀ index, (claimAt agentsBacklog system tick overloaded).job = some index →
        late system index = false ∧ stopping system = false) ∧
      ∀ index ∈ agentsBacklog.jobs system.backlog, late system index = true →
        index ∈ (claimAt agentsBacklog system tick overloaded).canceled := by
  cases held : system.backlog with
  | none => simp [claimAt, agentsBacklog, claimSlot, held]
  | some job =>
      cases stopped : stopping system with
      | true => simp [claimAt, agentsBacklog, claimSlot, held, stopped]
      | false =>
          cases expired : late system job with
          | true =>
              have passed : decide (deadlineAt system job ≤ system.now) = true := expired
              simp [claimAt, agentsBacklog, claimSlot, held, stopped, passed]
          | false =>
              have alive : decide (deadlineAt system job ≤ system.now) = false := expired
              constructor
              · intro index claimed
                simp only [claimAt, agentsBacklog, claimSlot, held, stopped, alive,
                  Bool.or_self, Bool.false_eq_true, if_false] at claimed
                split at claimed
                · exact ⟨Option.some.inj claimed ▸ expired, rfl⟩
                · cases claimed
              · intro index member passed
                have same : index = job := by simpa [agentsBacklog] using member
                rw [same, expired] at passed
                cases passed

/-- No job whose deadline has passed stands behind one that has time left. -/
def Sorted (system : System (List Nat) σ ν) : Prop :=
  system.backlog.Pairwise fun front behind =>
    late system behind = true → late system front = true

/-- The queue is sorted when what is behind its first live job is alive. -/
theorem sorted_iff (system : System (List Nat) σ ν) :
    Sorted system ↔
      ∀ index ∈ system.backlog.dropWhile (late system), late system index = false := by
  unfold Sorted
  generalize system.backlog = queue
  induction queue with
  | nil => simp
  | cons front rest continues =>
      rw [List.pairwise_cons, continues]
      cases passed : late system front with
      | true => simp [passed]
      | false =>
          simp only [List.dropWhile_cons, passed, Bool.false_eq_true, if_false, imp_false,
            Bool.not_eq_true, List.mem_cons, forall_eq_or_imp, true_and, and_iff_left_iff_imp]
          intro alive index member
          exact alive index ((List.dropWhile_sublist _).mem member)

/-- Everything in the queue is looked at when the owner stops. -/
theorem claimQueue_stopping (system : System (List Nat) σ ν) (tick overloaded : Bool)
    (stopped : stopping system = true) :
    (claimAt policyBacklog system tick overloaded).canceled = system.backlog ∧
      (claimAt policyBacklog system tick overloaded).job = none := by
  have all : (fun index => true || decide (deadlineAt system index ≤ system.now)) =
      fun _ => true := rfl
  have kept : system.backlog.takeWhile (fun _ => true) = system.backlog :=
    List.takeWhile_eq_self_iff.mpr fun _ _ => rfl
  have left : system.backlog.dropWhile (fun _ => true) = [] :=
    List.dropWhile_eq_nil_iff.mpr fun _ _ => rfl
  simp only [claimAt, policyBacklog, claimQueue, stopped, all, kept, left, List.find?_nil]
  trivial

theorem claimQueue_going (system : System (List Nat) σ ν) (tick overloaded : Bool)
    (going : stopping system = false) :
    (claimAt policyBacklog system tick overloaded).canceled =
        system.backlog.takeWhile (late system) ∧
      (claimAt policyBacklog system tick overloaded).job =
        (system.backlog.dropWhile (late system)).find? fun index =>
          !authoringAt system index || (tick && !overloaded) := by
  have same : (fun index => decide (deadlineAt system index ≤ system.now)) = late system := rfl
  simp only [claimAt, policyBacklog, claimQueue, going, Bool.false_or, same]
  cases found : (system.backlog.dropWhile (late system)).find? fun index =>
      !authoringAt system index || (tick && !overloaded) with
  | none => exact ⟨rfl, rfl⟩
  | some job => exact ⟨rfl, rfl⟩

theorem claimQueue_sorts_iff (system : System (List Nat) σ ν) (nodup : system.backlog.Nodup)
    (tick overloaded : Bool) :
    ((∀ index, (claimAt policyBacklog system tick overloaded).job = some index →
          late system index = false ∧ stopping system = false) ∧
        ∀ index ∈ policyBacklog.jobs system.backlog, late system index = true →
          index ∈ (claimAt policyBacklog system tick overloaded).canceled) ↔
      stopping system = true ∨ Sorted system := by
  cases stopped : stopping system with
  | true =>
      obtain ⟨canceled, claimed⟩ := claimQueue_stopping system tick overloaded stopped
      rw [canceled, claimed]
      refine iff_of_true ⟨?_, ?_⟩ (Or.inl rfl)
      · intro index impossible
        cases impossible
      · intro index member _
        exact member
  | false =>
      obtain ⟨canceled, claimed⟩ := claimQueue_going system tick overloaded stopped
      rw [canceled, claimed, sorted_iff]
      have parts := List.takeWhile_append_dropWhile (p := late system) (l := system.backlog)
      constructor
      · intro sorts
        refine Or.inr fun index behind => ?_
        rw [← Bool.not_eq_true]
        intro passed
        have member : index ∈ system.backlog := (List.dropWhile_sublist _).mem behind
        have front := sorts.2 index member passed
        rw [← parts] at nodup
        exact (List.nodup_append.mp nodup).2.2 index front index behind rfl
      · intro either
        have alive := either.resolve_left (by simp)
        constructor
        · intro index found
          exact ⟨alive index (List.mem_of_find?_eq_some found), rfl⟩
        · intro index member passed
          change index ∈ system.backlog at member
          rw [← parts, List.mem_append] at member
          rcases member with front | behind
          · exact front
          · rw [alive index behind] at passed
            cases passed

/-- In every state that a run reaches, and for every call of `execute_job` there, the
agents owner is punctual, and the policy owner is exactly when it is stopping or its
queue is sorted. -/
theorem claims_punctual (snapshot : σ → ν) (world : σ) (now deadline : Nat)
    (inputs : List (Input σ)) (tick overloaded : Bool) :
    let agents := (run agentsBacklog snapshot
      (start agentsBacklog snapshot world now deadline) inputs).1
    let policy := (run policyBacklog snapshot
      (start policyBacklog snapshot world now deadline) inputs).1
    Punctual agentsBacklog agents tick overloaded ∧
      (Punctual policyBacklog policy tick overloaded ↔
        stopping policy = true ∨ Sorted policy) := by
  intro agents policy
  have agentsInv : Inv agentsBacklog snapshot agents _ :=
    ((inv_start agentsBacklog snapshot world now deadline).run Logs.Each.nil inputs).1
  have policyInv : Inv policyBacklog snapshot policy _ :=
    ((inv_start policyBacklog snapshot world now deadline).run Logs.Each.nil inputs).1
  constructor
  · rw [punctual_iff agentsInv.jobs]
    exact claimSlot_sorts agents tick overloaded
  · rw [punctual_iff policyInv.jobs]
    exact claimQueue_sorts_iff policy policyInv.jobs.nodup tick overloaded

/-- A read with a short deadline waits behind an authoring job with a long one. The owner
polls after the short deadline and claims the read. -/
theorem claims_expired :
    let read : EStateM Transactions.Thrown Nat Unit := pure ()
    let inputs : List (Input Nat) :=
      [.dispatch read 50000000 true, .dispatch read 5000000 false, .owner false,
        .owner false, .owner false, .elapse 6000000]
    let policy := (run policyBacklog id (start policyBacklog id 0 0 90000000) inputs).1
    ((step policyBacklog id policy (.owner false)).1.jobs[1]?).map Job.state = some .running ∧
      deadlineAt policy 1 ≤ policy.now ∧ ¬ Punctual policyBacklog policy false false := by
  intro read inputs policy
  refine ⟨by decide +kernel, by decide +kernel, ?_⟩
  intro punctual
  have inv := ((inv_start policyBacklog id 0 0 90000000).run Logs.Each.nil inputs).1
  have claimed : (claimAt policyBacklog policy false false).job = some 1 := by decide +kernel
  have expired : late policy 1 = true := by decide +kernel
  have alive := (((punctual_iff inv.jobs false false).mp punctual).1 1 claimed).1
  exact absurd (expired.symm.trans alive) (by decide)

end Omniweft.Owner
