import Omniweft.OwnerRuns
import Omniweft.Stepper

/-!
# The publication stream

The owner works out for itself what the clock will say at the end of a batch, and
publishes that with every tick before the clock says so. The two agree, the ticks of
the publications are counted without a gap, and their snapshots only grow newer.
-/

namespace Omniweft.Owner

open Simulation

variable {κ σ ν : Type}

def Event.publication : Event ν → Option (Published ν)
  | .published entry => some entry
  | _ => none

def publications (log : List (Event ν)) : List (Published ν) := log.filterMap Event.publication

/-- The publications of a log after a first one, and the last of them. -/
structure Stream (revision : ν → Nat) (first last : Published ν) (log : List (Event ν)) :
    Prop where
  ticks :
    (publications log).map (fun entry => entry.clock.simulationTick.toNat) =
      List.range' 1 last.clock.simulationTick.toNat
  order :
    ((first :: publications log).map fun entry => revision entry.snapshot).Pairwise (· ≤ ·)
  behind :
    ∀ entry ∈ first :: publications log,
      revision entry.snapshot ≤ revision last.snapshot ∧
        entry.clock.simulationTick.toNat ≤ last.clock.simulationTick.toNat
  last : (publications log).getLastD first = last

variable {revision : ν → Nat} {first last : Published ν} {log : List (Event ν)}

theorem Stream.quiet (stream : Stream revision first last log) {event : Event ν}
    (quiet : event.publication = none) : Stream revision first last (log ++ [event]) := by
  have same : publications (log ++ [event]) = publications log := by
    simp [publications, quiet]
  obtain ⟨ticks, order, behind, newest⟩ := stream
  constructor <;> rw [same] <;> assumption

theorem Stream.snoc (stream : Stream revision first last log) {entry : Published ν}
    (next : entry.clock.simulationTick.toNat = last.clock.simulationTick.toNat + 1)
    (newer : revision last.snapshot ≤ revision entry.snapshot) :
    Stream revision first entry (log ++ [.published entry]) := by
  have longer : publications (log ++ [.published entry]) = publications log ++ [entry] := by
    simp [publications, Event.publication]
  constructor
  · rw [longer, List.map_append, stream.ticks, next, List.range'_concat, Nat.one_mul,
      Nat.add_comm 1]
    simp [next]
  · rw [longer, ← List.cons_append, List.map_append, List.pairwise_append]
    refine ⟨stream.order, by simp, ?_⟩
    intro earlier member later new
    obtain ⟨old, present, rfl⟩ := List.mem_map.mp member
    have same : later = revision entry.snapshot := by simpa using new
    rw [same]
    exact (stream.behind old present).1.trans newer
  · intro other member
    rw [longer, ← List.cons_append, List.mem_append] at member
    rcases member with old | new
    · have before := stream.behind other old
      exact ⟨before.1.trans newer, by omega⟩
    · rw [List.mem_singleton.mp new]
      exact ⟨Nat.le_refl _, Nat.le_refl _⟩
  · rw [longer]
    simp

/-- What is published later is newer. -/
theorem Stream.later (stream : Stream revision first last log) {newer : Published ν}
    {more : List (Event ν)} (next : Stream revision first newer (log ++ more)) :
    revision last.snapshot ≤ revision newer.snapshot ∧
      last.clock.simulationTick.toNat ≤ newer.clock.simulationTick.toNat := by
  refine next.behind last ?_
  have kept : publications (log ++ more) = publications log ++ publications more :=
    List.filterMap_append
  rw [kept, ← stream.last]
  cases entries : publications log with
  | nil => simp
  | cons head rest =>
      have member : (head :: rest).getLastD first ∈ head :: rest := by
        rw [List.getLastD_cons]
        exact List.getLastD_mem_cons
      exact List.mem_cons_of_mem _ (List.mem_append_left _ member)

/-- `steady_clock` counts nanoseconds in 63 bits. -/
def clockEnd : Nat := 2 ^ 63

/-- More was dropped than there were overloads, and less than a tick is carried. -/
def Sound (clock : StepStats) : Prop :=
  clock.overloadCount.toNat ≤ clock.droppedTicks.toNat ∧ Carried clock

/-- A task that does not take the world back. -/
def Advances (snapshot : σ → ν) (revision : ν → Nat)
    (task : EStateM Transactions.Thrown σ Unit) : Prop :=
  ∀ world next,
    (∃ result, task world = .ok result next) ∨ (∃ exception, task world = .error exception next) →
      revision (snapshot world) ≤ revision (snapshot next)

/-- The counters between two batches. -/
structure Rests (start : Nat) (system : System κ σ ν) : Prop where
  accounts : Accounts system.stats (system.previous - start)
  overloads : system.stats.overloadCount.toNat ≤ system.stats.droppedTicks.toNat

/-- The counters within a batch, after some of its callbacks. -/
structure Runs (start : Nat) (system : System κ σ ν) (batch : Batch) (elapsed : UInt64)
    (sum : Nat) : Prop where
  total : sum + elapsed.toNat = system.previous - start
  accounts : Accounts batch.prior sum
  overloads : batch.prior.overloadCount.toNat ≤ batch.prior.droppedTicks.toNat
  due : batch.due = dueAfter batch.prior elapsed
  phase : batch.phase = phaseAfter batch.prior elapsed
  overloaded : batch.overloaded = decide (4 < batch.due)
  steps : batch.steps = batchAfter batch.prior elapsed
  room : Room batch.prior batch.steps
  stats :
    system.stats =
      { batch.prior with simulationTick := batch.prior.simulationTick + batch.index }
  index : batch.index.toNat ≤ batch.steps.executedTicks.toNat
  shown : 0 < batch.index.toNat → system.published.clock = closed system.stats batch.steps

/-- Where the counters stand in each phase. -/
def Paced (start : Nat) (snapshot : σ → ν) (system : System κ σ ν) : Phase → Prop
  | .turning => Rests start system
  | .ticking batch _ =>
      (∃ elapsed sum, Runs start system batch elapsed sum) ∧
        (0 < batch.index.toNat → system.published.snapshot = snapshot system.world)
  | .working batch _ =>
      (∃ elapsed sum, Runs start system batch elapsed sum) ∧
        batch.index < batch.steps.executedTicks
  | .publishing batch _ =>
      (∃ elapsed sum, Runs start system batch elapsed sum) ∧
        batch.index < batch.steps.executedTicks
  | .settling _ => Rests start system
  | .polling => Rests start system
  | .serving _ => Rests start system
  | .finishing _ => Rests start system
  | _ => True

/-- What holds of the owner, its clock, its world and its publications. -/
structure Flow (start : Nat) (snapshot : σ → ν) (revision : ν → Nat) (first : Published ν)
    (system : System κ σ ν) (log : List (Event ν)) : Prop where
  tasks : ∀ job ∈ system.jobs, Advances snapshot revision job.task
  began : start ≤ system.previous
  past : system.previous ≤ system.now
  within : system.now < clockEnd
  paced : Paced start snapshot system system.phase
  tick : system.published.clock.simulationTick = system.stats.simulationTick
  sound : Sound system.published.clock
  bound : system.stats.simulationTick.toNat ≤ 60 * (system.previous - start) / 1000000000
  shown : revision system.published.snapshot ≤ revision (snapshot system.world)
  stream : Stream revision first system.published log

section Steps

variable {start : Nat} {pool : Backlog κ} {snapshot : σ → ν} {system : System κ σ ν}

theorem change_tasks {property : EStateM Transactions.Thrown σ Unit → Prop}
    (tasks : ∀ job ∈ system.jobs, property job.task) (which : Nat → Bool)
    {edit : Job σ → Job σ} (kept : ∀ job, (edit job).task = job.task) :
    ∀ job ∈ (change system which edit).jobs, property job.task := by
  intro job member
  simp only [change, List.mem_mapIdx] at member
  obtain ⟨index, present, rfl⟩ := member
  split
  · rw [kept]
    exact tasks _ (List.getElem_mem present)
  · exact tasks _ (List.getElem_mem present)

/-- A step that leaves clock, world and publications as they are. -/
theorem Flow.aside (flow : Flow start snapshot revision first system log)
    {next : System κ σ ν} (tasks : ∀ job ∈ next.jobs, Advances snapshot revision job.task)
    (previous : next.previous = system.previous) (now : system.now ≤ next.now)
    (within : next.now < clockEnd) (stats : next.stats = system.stats)
    (published : next.published = system.published) (world : next.world = system.world)
    (paced : Paced start snapshot next next.phase) {event : Option (Event ν)}
    (quiet : ∀ logged, event = some logged → logged.publication = none) :
    Flow start snapshot revision first next (log ++ event.toList) where
  tasks := tasks
  began := previous ▸ flow.began
  past := previous ▸ flow.past.trans now
  within := within
  paced := paced
  tick := by
    rw [published, stats]
    exact flow.tick
  sound := published ▸ flow.sound
  bound := by
    rw [stats, previous]
    exact flow.bound
  shown := by
    rw [published, world]
    exact flow.shown
  stream := by
    rw [published]
    cases event with
    | none => simpa using flow.stream
    | some logged => exact flow.stream.quiet (quiet logged rfl)

/-- The phase looks at the counters, the publication and the world only. -/
theorem paced_congr {next : System κ σ ν} {phase : Phase}
    (paced : Paced start snapshot system phase) (previous : next.previous = system.previous)
    (stats : next.stats = system.stats) (published : next.published = system.published)
    (world : next.world = system.world) : Paced start snapshot next phase := by
  have rests : Rests start system → Rests start next := by
    intro rests
    refine ⟨?_, ?_⟩
    · rw [stats, previous]
      exact rests.accounts
    · rw [stats]
      exact rests.overloads
  have runs : ∀ {batch : Batch} {elapsed : UInt64} {sum : Nat},
      Runs start system batch elapsed sum → Runs start next batch elapsed sum := by
    intro batch elapsed sum runs
    exact
      { total := previous ▸ runs.total
        accounts := runs.accounts
        overloads := runs.overloads
        due := runs.due
        phase := runs.phase
        overloaded := runs.overloaded
        steps := runs.steps
        room := runs.room
        stats := stats ▸ runs.stats
        index := runs.index
        shown := by
          rw [published, stats]
          exact runs.shown }
  cases phase with
  | turning => exact rests paced
  | ticking batch completed =>
      obtain ⟨⟨elapsed, sum, held⟩, live⟩ := paced
      refine ⟨⟨elapsed, sum, runs held⟩, ?_⟩
      rw [published, world]
      exact live
  | working batch job =>
      obtain ⟨⟨elapsed, sum, held⟩, more⟩ := paced
      exact ⟨⟨elapsed, sum, runs held⟩, more⟩
  | publishing batch completed =>
      obtain ⟨⟨elapsed, sum, held⟩, more⟩ := paced
      exact ⟨⟨elapsed, sum, runs held⟩, more⟩
  | settling completed => exact rests paced
  | polling => exact rests paced
  | serving job => exact rests paced
  | finishing job => exact rests paced
  | failing exception completed => trivial
  | notifying exception completed => trivial
  | canceling => trivial
  | ended => trivial

/-- The owner thread moves on, and only jobs have changed. -/
theorem Flow.place (flow : Flow start snapshot revision first system log)
    (base : System κ σ ν) (phase : Phase)
    (tasks : ∀ job ∈ base.jobs, Advances snapshot revision job.task)
    (previous : base.previous = system.previous) (now : base.now = system.now)
    (stats : base.stats = system.stats) (published : base.published = system.published)
    (world : base.world = system.world) (paced : Paced start snapshot system phase)
    {event : Option (Event ν)}
    (quiet : ∀ logged, event = some logged → logged.publication = none) :
    Flow start snapshot revision first (moved base phase) (log ++ event.toList) :=
  @Flow.aside _ _ _ _ _ _ _ _ _ flow (moved base phase) tasks previous now.ge
    (now ▸ flow.within) stats published world
    (paced_congr paced previous stats published world) event quiet

/-- The same without an event. -/
theorem Flow.goes (flow : Flow start snapshot revision first system log)
    (base : System κ σ ν) (phase : Phase)
    (tasks : ∀ job ∈ base.jobs, Advances snapshot revision job.task)
    (previous : base.previous = system.previous) (now : base.now = system.now)
    (stats : base.stats = system.stats) (published : base.published = system.published)
    (world : base.world = system.world) (paced : Paced start snapshot system phase) :
    Flow start snapshot revision first (moved base phase) log := by
  have nothing : ∀ logged : Event ν, none = some logged → logged.publication = none := by
    intro logged impossible
    cases impossible
  have placed := flow.place base phase tasks previous now stats published world paced nothing
  rwa [Option.toList_none, List.append_nil] at placed

theorem quiet_over (logged : Event ν) (same : some Event.over = some logged) :
    logged.publication = none := by
  rw [← Option.some.inj same]
  rfl

theorem executeJob_tasks (pool : Backlog κ)
    (flow : Flow start snapshot revision first system log) (tick overloaded : Bool) :
    ∀ job ∈ (executeJob pool system tick overloaded).2.jobs,
      Advances snapshot revision job.task := by
  let cancel : Job σ → Job σ := fun job => { job with state := .canceled }
  have canceled : ∀ job ∈ (change system (claimAt pool system tick overloaded).canceled.contains
      cancel).jobs, Advances snapshot revision job.task :=
    change_tasks flow.tasks _ fun _ => rfl
  exact change_tasks canceled ((claimAt pool system tick overloaded).job == some ·) fun _ => rfl

/-- A task moves the world on and leaves the clock and the publications. -/
theorem perform_advances (flow : Flow start snapshot revision first system log) (index : Nat)
    (inside : Option (Nat × StepBatch)) :
    let next := (perform snapshot system index inside).1
    (∀ job ∈ next.jobs, Advances snapshot revision job.task) ∧
      next.previous = system.previous ∧ next.now = system.now ∧
      next.stats = system.stats ∧ next.published = system.published ∧
      revision (snapshot system.world) ≤ revision (snapshot next.world) := by
  simp only [perform, runTask]
  cases found : system.jobs[index]? with
  | none => exact ⟨flow.tasks, rfl, rfl, rfl, rfl, Nat.le_refl _⟩
  | some job =>
      have member : job ∈ system.jobs := List.mem_of_getElem? found
      refine ⟨change_tasks flow.tasks _ fun _ => rfl, rfl, rfl, rfl, rfl, ?_⟩
      have advances := flow.tasks job member system.world
      dsimp only
      cases ran : job.task system.world with
      | ok result world => exact advances world (Or.inl ⟨result, ran⟩)
      | error exception world => exact advances world (Or.inr ⟨exception, ran⟩)

/-- The section around a task. -/
theorem Flow.perform (flow : Flow start snapshot revision first system log) (index : Nat)
    (inside : Option (Nat × StepBatch)) (phase : Phase)
    (paced : Paced start snapshot
      (moved (Owner.perform snapshot system index inside).1 phase) phase) :
    Flow start snapshot revision first
      (moved (Owner.perform snapshot system index inside).1 phase)
      (log ++ [(Owner.perform snapshot system index inside).2]) := by
  obtain ⟨tasks, previous, now, stats, published, newer⟩ :=
    perform_advances flow index inside
  exact
    { tasks := tasks
      began := previous ▸ flow.began
      past := by
        change (Owner.perform snapshot system index inside).1.previous ≤
          (Owner.perform snapshot system index inside).1.now
        rw [previous, now]
        exact flow.past
      within := by
        change (Owner.perform snapshot system index inside).1.now < clockEnd
        rw [now]
        exact flow.within
      paced := paced
      tick := by
        change (Owner.perform snapshot system index inside).1.published.clock.simulationTick =
          (Owner.perform snapshot system index inside).1.stats.simulationTick
        rw [published, stats]
        exact flow.tick
      sound := published ▸ flow.sound
      bound := by
        change (Owner.perform snapshot system index inside).1.stats.simulationTick.toNat ≤
          60 * ((Owner.perform snapshot system index inside).1.previous - start) / 1000000000
        rw [stats, previous]
        exact flow.bound
      shown := by
        change revision (Owner.perform snapshot system index inside).1.published.snapshot ≤ _
        rw [published]
        exact flow.shown.trans newer
      stream := by
        change Stream revision first (Owner.perform snapshot system index inside).1.published _
        rw [published]
        exact flow.stream.quiet rfl }

/-- The owner's own reckoning is the counters' end of the batch. -/
theorem published_clock (prior : StepStats) (elapsed ticks : UInt64) :
    (⟨ticks,
        prior.overloadCount + (if decide (4 < dueAfter prior elapsed) then 1 else 0),
        prior.droppedTicks +
          (if decide (4 < dueAfter prior elapsed) then dueAfter prior elapsed - 4 else 0),
        phaseAfter prior elapsed % 1000000000⟩ : StepStats) =
      closed { prior with simulationTick := ticks } (batchAfter prior elapsed) := by
  have overloaded :
      (batchAfter prior elapsed).overloaded = decide (4 < dueAfter prior elapsed) := rfl
  have dropped : (batchAfter prior elapsed).droppedTicks =
      if decide (4 < dueAfter prior elapsed) then dueAfter prior elapsed - 4 else 0 := by
    by_cases late : 4 < dueAfter prior elapsed
    · exact (if_pos late).trans (if_pos (decide_eq_true late)).symm
    · exact (if_neg late).trans (if_neg (by simpa using late)).symm
  rw [closed, overloaded, dropped]
  rfl

/-- The head of the loop begins a batch with the elapsed time. -/
theorem Flow.turn (flow : Flow start snapshot revision first system log)
    (phase : system.phase = .turning) :
    Flow start snapshot revision first (Owner.turn system).1
      (log ++ (Owner.turn system).2.toList) := by
  have rests : Rests start system := by
    have paced := flow.paced
    rw [phase] at paced
    exact paced
  have began := flow.began
  have past := flow.past
  have within := flow.within
  have longer : 60 * (system.previous - start) / 1000000000 ≤
      60 * (system.now - start) / 1000000000 :=
    Nat.div_le_div_right (by omega)
  unfold Owner.turn
  dsimp only
  by_cases stopped : stopping system = true
  · rw [if_pos stopped]
    exact flow.place system .canceling flow.tasks rfl rfl rfl rfl rfl trivial quiet_over
  · rw [if_neg stopped]
    let elapsed := (system.now - system.previous).toUInt64
    have exact : elapsed.toNat = system.now - system.previous := by
      simp only [elapsed, Nat.toUInt64_eq, UInt64.toNat_ofNat']
      rw [clockEnd] at within
      omega
    by_cases full : exhausts system.stats (batchAfter system.stats elapsed) = true
    · rw [if_pos full]
      exact
        { tasks := flow.tasks
          began := began.trans past
          past := Nat.le_refl _
          within := within
          paced := trivial
          tick := flow.tick
          sound := flow.sound
          bound := flow.bound.trans longer
          shown := flow.shown
          stream := flow.stream.quiet rfl }
    · rw [if_neg full]
      have room := (exhausts_iff _ _).mp (Bool.not_eq_true _ ▸ full)
      refine
        { tasks := flow.tasks
          began := began.trans past
          past := Nat.le_refl _
          within := within
          paced := ⟨⟨elapsed, system.previous - start, ?_⟩, fun impossible => ?_⟩
          tick := flow.tick
          sound := flow.sound
          bound := flow.bound.trans longer
          shown := flow.shown
          stream := flow.stream.quiet rfl }
      · exact
          { total := by
              change system.previous - start + elapsed.toNat = system.now - start
              omega
            accounts := rests.accounts
            overloads := rests.overloads
            due := rfl
            phase := rfl
            overloaded := rfl
            steps := rfl
            room := room
            stats := by
              change system.stats = _
              simp
            index := Nat.zero_le _
            shown := fun impossible => absurd impossible (Nat.lt_irrefl 0) }
      · exact absurd impossible (Nat.lt_irrefl 0)

/-- A callback more fits the batch, and the counter. -/
theorem Runs.next {batch : Batch} {elapsed : UInt64} {sum : Nat}
    (runs : Runs start system batch elapsed sum)
    (more : batch.index < batch.steps.executedTicks) :
    (batch.index + 1).toNat = batch.index.toNat + 1 ∧
      batch.index.toNat + 1 ≤ batch.steps.executedTicks.toNat ∧
      system.stats.simulationTick.toNat =
        batch.prior.simulationTick.toNat + batch.index.toNat ∧
      (system.stats.simulationTick + 1).toNat = system.stats.simulationTick.toNat + 1 ∧
      batch.prior.simulationTick.toNat + batch.steps.executedTicks.toNat ≤
        60 * (system.previous - start) / 1000000000 := by
  have below := UInt64.lt_iff_toNat_lt.mp more
  have room := runs.room.ticks
  have index : (batch.index + 1).toNat = batch.index.toNat + 1 := by
    rw [UInt64.toNat_add]
    exact Nat.mod_eq_of_lt (by simp only [UInt64.reduceToNat]; omega)
  have tick : system.stats.simulationTick.toNat =
      batch.prior.simulationTick.toNat + batch.index.toNat := by
    rw [runs.stats, UInt64.toNat_add]
    exact Nat.mod_eq_of_lt (by omega)
  refine ⟨index, below, tick, ?_, ?_⟩
  · rw [UInt64.toNat_add]
    exact Nat.mod_eq_of_lt (by simp only [UInt64.reduceToNat]; omega)
  · have beyond := (runs.accounts.completed (runs.steps ▸ runs.room)).ticks
    rw [runs.total, (completed_toNat (runs.steps ▸ runs.room)).1, ← runs.steps] at beyond
    omega

/-- The counters that a batch ends with are sound. -/
theorem Runs.sound {batch : Batch} {elapsed : UInt64} {sum : Nat}
    (runs : Runs start system batch elapsed sum) (ticks : UInt64) :
    Sound (closed { batch.prior with simulationTick := ticks } batch.steps) := by
  obtain ⟨_, dropped, overloads⟩ := completed_toNat runs.room
  have before := runs.overloads
  have carried : Carried (Simulation.completed batch.prior batch.steps) := by
    rw [runs.steps]
    exact (runs.accounts.completed (runs.steps ▸ runs.room)).carried
  refine ⟨?_, carried⟩
  change (Simulation.completed batch.prior batch.steps).overloadCount.toNat ≤
    (Simulation.completed batch.prior batch.steps).droppedTicks.toNat
  rw [dropped, overloads]
  cases late : batch.steps.overloaded with
  | false =>
      simp only [Bool.false_eq_true, if_false]
      omega
  | true =>
      have more : 4 < (dueAfter batch.prior elapsed).toNat := by
        rw [runs.steps] at late
        exact UInt64.lt_iff_toNat_lt.mp (of_decide_eq_true late)
      have dropped_ := dropped_toNat batch.prior elapsed
      rw [← runs.steps] at dropped_
      simp only [if_true]
      omega

/-- A batch whose callbacks are all over is added to the counters as a whole. -/
theorem Runs.ends {batch : Batch} {elapsed : UInt64} {sum : Nat}
    (runs : Runs start system batch elapsed sum)
    (beyond : ¬ batch.index < batch.steps.executedTicks) :
    closed system.stats batch.steps = Simulation.completed batch.prior batch.steps := by
  have same : batch.index = batch.steps.executedTicks := by
    have index := runs.index
    rw [UInt64.lt_iff_toNat_lt] at beyond
    rw [← UInt64.toNat_inj]
    omega
  rw [runs.stats, same, Simulation.completed]

/-- The end of `advance`. -/
theorem Flow.close (flow : Flow start snapshot revision first system log) {batch : Batch}
    {completed : Option Nat} (phase : system.phase = .ticking batch completed)
    (beyond : ¬ batch.index < batch.steps.executedTicks) :
    Flow start snapshot revision first (Owner.tick pool system batch completed) log ∧
      (0 < batch.steps.executedTicks.toNat →
        (Owner.tick pool system batch completed).published =
          ⟨(Owner.tick pool system batch completed).stats,
            snapshot (Owner.tick pool system batch completed).world⟩) := by
  have paced := flow.paced
  rw [phase] at paced
  obtain ⟨⟨elapsed, sum, runs⟩, live⟩ := paced
  have ends := runs.ends beyond
  have moves : Owner.tick pool system batch completed =
      moved { system with stats := closed system.stats batch.steps } (.settling completed) :=
    if_neg beyond
  rw [moves]
  have index := runs.index
  rw [UInt64.lt_iff_toNat_lt] at beyond
  constructor
  · refine
      { tasks := flow.tasks
        began := flow.began
        past := flow.past
        within := flow.within
        paced := ⟨?_, ?_⟩
        tick := flow.tick
        sound := flow.sound
        bound := flow.bound
        shown := flow.shown
        stream := flow.stream }
    · change Accounts (closed system.stats batch.steps) (system.previous - start)
      rw [ends, ← runs.total, runs.steps]
      exact runs.accounts.completed (runs.steps ▸ runs.room)
    · change (closed system.stats batch.steps).overloadCount.toNat ≤ _
      rw [runs.stats]
      exact (runs.sound _).1
  · intro some
    have begun : 0 < batch.index.toNat := by omega
    change system.published = ⟨closed system.stats batch.steps, snapshot system.world⟩
    rw [← runs.shown begun, ← live begun]

/-- A callback is due: a job may be claimed. -/
theorem Flow.claim (flow : Flow start snapshot revision first system log) {batch : Batch}
    {completed : Option Nat} (phase : system.phase = .ticking batch completed)
    (more : batch.index < batch.steps.executedTicks) :
    Flow start snapshot revision first (Owner.tick pool system batch completed) log := by
  have paced := flow.paced
  rw [phase] at paced
  unfold Owner.tick
  rw [if_pos more]
  cases completed with
  | some job =>
      exact flow.goes system (.publishing batch (some job)) flow.tasks rfl rfl rfl rfl rfl
        ⟨paced.1, more⟩
  | none =>
      have tasks := executeJob_tasks pool flow true batch.overloaded
      dsimp only
      cases claimed : (executeJob pool system true batch.overloaded).1 with
      | some job =>
          exact flow.goes _ (.working batch job) tasks rfl rfl rfl rfl rfl ⟨paced.1, more⟩
      | none =>
          exact flow.goes _ (.publishing batch none) tasks rfl rfl rfl rfl rfl ⟨paced.1, more⟩

/-- A tick is published. -/
theorem Flow.publish (flow : Flow start snapshot revision first system log) {batch : Batch}
    {completed : Option Nat} (phase : system.phase = .publishing batch completed)
    (fails : Bool) :
    Flow start snapshot revision first
      (Owner.publish snapshot system batch completed fails).1
      (log ++ (Owner.publish snapshot system batch completed fails).2.toList) := by
  have paced := flow.paced
  rw [phase] at paced
  obtain ⟨⟨elapsed, sum, runs⟩, more⟩ := paced
  unfold Owner.publish
  cases fails with
  | true =>
      rw [if_pos rfl]
      exact flow.place system (.failing .other completed) flow.tasks rfl rfl rfl rfl rfl trivial
        quiet_over
  | false =>
      obtain ⟨index, fits, tick, ticked, bound⟩ := runs.next more
      have clock :
          (⟨system.stats.simulationTick + 1,
              batch.prior.overloadCount + (if batch.overloaded then 1 else 0),
              batch.prior.droppedTicks + (if batch.overloaded then batch.due - 4 else 0),
              batch.phase % 1000000000⟩ : StepStats) =
            closed { system.stats with simulationTick := system.stats.simulationTick + 1 }
              batch.steps := by
        rw [runs.stats, runs.steps, runs.overloaded, runs.due, runs.phase]
        exact published_clock _ _ _
      have sound := runs.sound (system.stats.simulationTick + 1)
      have same : closed { batch.prior with simulationTick := system.stats.simulationTick + 1 }
            batch.steps =
          closed { system.stats with simulationTick := system.stats.simulationTick + 1 }
            batch.steps := by
        rw [runs.stats]
      rw [same] at sound
      simp only [Bool.false_eq_true, if_false, clock]
      refine
        { tasks := flow.tasks
          began := flow.began
          past := flow.past
          within := flow.within
          paced := ⟨⟨elapsed, sum, ?_⟩, fun _ => rfl⟩
          tick := rfl
          sound := sound
          bound := ?_
          shown := Nat.le_refl _
          stream := flow.stream.snoc ?_ flow.shown }
      · exact
          { total := runs.total
            accounts := runs.accounts
            overloads := runs.overloads
            due := runs.due
            phase := runs.phase
            overloaded := runs.overloaded
            steps := runs.steps
            room := runs.room
            stats := by
              simp only [runs.stats, UInt64.add_assoc]
            index := by
              change (batch.index + 1).toNat ≤ batch.steps.executedTicks.toNat
              rw [index]
              exact fits
            shown := fun _ => rfl }
      · change (system.stats.simulationTick + 1).toNat ≤
          60 * (system.previous - start) / 1000000000
        omega
      · change (system.stats.simulationTick + 1).toNat =
          system.published.clock.simulationTick.toNat + 1
        rw [flow.tick]
        exact ticked

theorem Flow.proceed (flow : Flow start snapshot revision first system log) (fails : Bool) :
    let done := Owner.proceed pool snapshot system fails
    Flow start snapshot revision first done.1 (log ++ done.2.toList) := by
  have paced := flow.paced
  have same : log ++ (none : Option (Event ν)).toList = log := by simp
  cases phase : system.phase with
  | turning =>
      simp only [Owner.proceed, phase]
      exact flow.turn phase
  | ticking batch completed =>
      simp only [Owner.proceed, phase]
      rw [same]
      by_cases more : batch.index < batch.steps.executedTicks
      · exact flow.claim phase more
      · exact (flow.close phase more).1
  | working batch job =>
      rw [phase] at paced
      obtain ⟨_, previous, _, stats, published, _⟩ :=
        perform_advances flow job (some (batch.ordinal, batch.steps))
      simp only [Owner.proceed, phase]
      refine flow.perform job _ (.publishing batch (some job)) ?_
      obtain ⟨⟨elapsed, sum, runs⟩, more⟩ := paced
      exact
        ⟨⟨elapsed, sum,
            { total := by
                change _ = (Owner.perform snapshot system job _).1.previous - start
                rw [previous]
                exact runs.total
              accounts := runs.accounts
              overloads := runs.overloads
              due := runs.due
              phase := runs.phase
              overloaded := runs.overloaded
              steps := runs.steps
              room := runs.room
              stats := stats.trans runs.stats
              index := runs.index
              shown := by
                intro begun
                change (Owner.perform snapshot system job _).1.published.clock =
                  closed (Owner.perform snapshot system job _).1.stats batch.steps
                rw [published, stats]
                exact runs.shown begun }⟩,
          more⟩
  | publishing batch completed =>
      simp only [Owner.proceed, phase]
      exact flow.publish phase fails
  | settling completed =>
      rw [phase] at paced
      simp only [Owner.proceed, phase]
      rw [same]
      exact flow.goes (finish system completed) .polling
        (change_tasks flow.tasks _ fun _ => rfl) rfl rfl rfl rfl rfl paced
  | polling =>
      rw [phase] at paced
      have tasks := executeJob_tasks pool flow false false
      simp only [Owner.proceed, phase]
      cases claimed : (executeJob pool system false false).1 with
      | some job =>
          simp only
          rw [same]
          exact flow.goes _ (.serving job) tasks rfl rfl rfl rfl rfl paced
      | none =>
          simp only
          rw [same]
          exact flow.goes _ .turning tasks rfl rfl rfl rfl rfl paced
  | serving job =>
      rw [phase] at paced
      obtain ⟨_, previous, _, stats, _, _⟩ := perform_advances flow job none
      simp only [Owner.proceed, phase]
      refine flow.perform job none (.finishing job) ⟨?_, ?_⟩
      · change Accounts (Owner.perform snapshot system job none).1.stats
          ((Owner.perform snapshot system job none).1.previous - start)
        rw [stats, previous]
        exact paced.accounts
      · change (Owner.perform snapshot system job none).1.stats.overloadCount.toNat ≤
          (Owner.perform snapshot system job none).1.stats.droppedTicks.toNat
        rw [stats]
        exact paced.overloads
  | finishing job =>
      rw [phase] at paced
      simp only [Owner.proceed, phase]
      rw [same]
      exact flow.goes (finish system (some job)) .turning
        (change_tasks flow.tasks _ fun _ => rfl) rfl rfl rfl rfl rfl paced
  | failing exception completed =>
      simp only [Owner.proceed, phase]
      rw [same]
      exact flow.goes { system with failed := true, stop := true }
        (.notifying exception completed) flow.tasks rfl rfl rfl rfl rfl trivial
  | notifying exception completed =>
      simp only [Owner.proceed, phase]
      rw [same]
      refine flow.goes _ .canceling ?_ rfl rfl rfl rfl rfl trivial
      refine change_tasks ?_ _ fun _ => rfl
      exact change_tasks flow.tasks _ fun _ => rfl
  | canceling =>
      simp only [Owner.proceed, phase]
      rw [same]
      exact flow.goes (cancelPending pool system) .ended
        (change_tasks flow.tasks _ fun _ => rfl) rfl rfl rfl rfl rfl trivial
  | ended =>
      simp only [Owner.proceed, phase]
      rw [same]
      exact flow

/-- An input whose task does not take the world back, while the clock can still be read. -/
def Sane (snapshot : σ → ν) (revision : ν → Nat) (system : System κ σ ν) : Input σ → Prop
  | .elapse nanoseconds => system.now + nanoseconds < clockEnd
  | .dispatch task _ _ => Advances snapshot revision task
  | _ => True

/-- Jobs change, or nothing at all. -/
theorem Flow.besides (flow : Flow start snapshot revision first system log)
    {next : System κ σ ν} (tasks : ∀ job ∈ next.jobs, Advances snapshot revision job.task)
    (previous : next.previous = system.previous) (now : next.now = system.now)
    (stats : next.stats = system.stats) (published : next.published = system.published)
    (world : next.world = system.world) (phase : next.phase = system.phase)
    {event : Option (Event ν)}
    (quiet : ∀ logged, event = some logged → logged.publication = none) :
    Flow start snapshot revision first next (log ++ event.toList) :=
  flow.aside tasks previous now.ge (now ▸ flow.within) stats published world
    (phase ▸ paced_congr flow.paced previous stats published world) quiet

theorem Flow.step (flow : Flow start snapshot revision first system log) (input : Input σ)
    (sane : Sane snapshot revision system input) :
    let done := Owner.step pool snapshot system input
    Flow start snapshot revision first done.1 (log ++ done.2.toList) := by
  have nothing : ∀ logged : Event ν, none = some logged → logged.publication = none := by
    intro logged impossible
    cases impossible
  have answered : ∀ (index : Nat) (answer : Answer) (logged : Event ν),
      some (.returned index answer) = some logged → logged.publication = none := by
    intro index answer logged same
    rw [← Option.some.inj same]
    rfl
  cases input with
  | elapse nanoseconds =>
      intro done
      exact @Flow.aside _ _ _ _ _ _ _ _ _ flow done.1 flow.tasks rfl (Nat.le_add_right _ _) sane
        rfl rfl rfl (paced_congr flow.paced rfl rfl rfl rfl) none nothing
  | requestStop =>
      intro done
      exact @Flow.besides _ _ _ _ _ _ _ _ _ flow done.1 flow.tasks rfl rfl rfl rfl rfl rfl none
        nothing
  | dispatch task deadline authoring =>
      have longer : ∀ job : Job σ, job.task = task →
          ∀ held ∈ system.jobs ++ [job], Advances snapshot revision held.task := by
        intro job own held member
        rcases List.mem_append.mp member with old | new
        · exact flow.tasks held old
        · rw [List.mem_singleton.mp new, own]
          exact sane
      simp only [Owner.step, enter]
      split
      · refine flow.besides ?_ ?_ ?_ ?_ ?_ ?_ ?_ (answered _ _)
        · exact longer _ rfl
        all_goals rfl
      · refine @Flow.besides _ _ _ _ _ _ _ _ _ flow _ ?_ ?_ ?_ ?_ ?_ ?_ ?_ none nothing
        · exact longer _ rfl
        all_goals rfl
  | timeOut index =>
      simp only [Owner.step, timeOut]
      split
      · split
        · refine flow.besides ?_ ?_ ?_ ?_ ?_ ?_ ?_ (answered _ _)
          · exact change_tasks flow.tasks _ fun _ => rfl
          all_goals rfl
        · exact @Flow.besides _ _ _ _ _ _ _ _ _ flow _ flow.tasks rfl rfl rfl rfl rfl rfl none
            nothing
      · exact @Flow.besides _ _ _ _ _ _ _ _ _ flow _ flow.tasks rfl rfl rfl rfl rfl rfl none
          nothing
  | wake index =>
      simp only [Owner.step, Owner.wake]
      split
      · split
        · refine flow.besides ?_ ?_ ?_ ?_ ?_ ?_ ?_ (answered _ _)
          · exact change_tasks flow.tasks _ fun _ => rfl
          all_goals rfl
        · exact @Flow.besides _ _ _ _ _ _ _ _ _ flow _ flow.tasks rfl rfl rfl rfl rfl rfl none
            nothing
      · exact @Flow.besides _ _ _ _ _ _ _ _ _ flow _ flow.tasks rfl rfl rfl rfl rfl rfl none
          nothing
  | owner fails => exact flow.proceed fails

end Steps

theorem flow_start (pool : Backlog κ) (snapshot : σ → ν) (revision : ν → Nat) (world : σ)
    {now : Nat} (within : now < clockEnd) (deadline : Nat) :
    Flow now snapshot revision ⟨fresh, snapshot world⟩ (start pool snapshot world now deadline)
      [] where
  tasks := by simp [start]
  began := Nat.le_refl now
  past := Nat.le_refl now
  within := within
  paced := by
    refine ⟨⟨?_, ?_⟩, Nat.le_refl _⟩ <;> simp [start]
  tick := rfl
  sound := ⟨Nat.le_refl _, by simp [start, Carried]⟩
  bound := by simp [start]
  shown := Nat.le_refl _
  stream := by
    refine ⟨?_, ?_, ?_, ?_⟩ <;> simp [publications, start, fresh]

end Omniweft.Owner
