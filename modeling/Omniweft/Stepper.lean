import Omniweft.Owner

/-!
# The fixed-step clock over a run

`advance` turns elapsed nanoseconds into callbacks at 60 Hz. It works with a whole
number of seconds and a rest, carries the fraction of a tick from call to call and
drops what is over its cap; the counters still add up to the exact quotient.
-/

namespace Omniweft.Simulation

variable {ε σ : Type}

/-- What `advance` throws, or lets through from its callback. -/
inductive Halted (ε : Type) where
  | required
  | exhausted
  | callback (exception : ε)
  deriving DecidableEq, Repr

/-- The callbacks of a batch; each is counted when it has returned. -/
def callbacks (onStep : UInt64 → EStateM ε σ Unit) :
    Nat → EStateM (Halted ε) (StepStats × σ) Unit
  | 0, state => .ok () state
  | count + 1, (stats, world) =>
      match onStep (stats.simulationTick + 1) world with
      | .error exception world => .error (.callback exception) (stats, world)
      | .ok _ world =>
          callbacks onStep count
            ({ stats with simulationTick := stats.simulationTick + 1 }, world)

/-- `FixedStepper::advance`; the callback may be empty. -/
def advance (onStep : Option (UInt64 → EStateM ε σ Unit)) (elapsed : UInt64) :
    EStateM (Halted ε) (StepStats × σ) StepBatch := fun state =>
  match onStep with
  | none => .error .required state
  | some onStep =>
      let batch := batchAfter state.1 elapsed
      if exhausts state.1 batch then .error .exhausted state
      else
        match callbacks onStep batch.executedTicks.toNat state with
        | .error halted state => .error halted state
        | .ok _ (stats, world) => .ok batch (closed stats batch, world)

/-- The fraction that is carried is less than a tick. -/
def Carried (stats : StepStats) : Prop := stats.remainderUnits.toNat < 1000000000

theorem phaseAfter_toNat {stats : StepStats} (carried : Carried stats) (elapsed : UInt64) :
    (phaseAfter stats elapsed).toNat =
      stats.remainderUnits.toNat + elapsed.toNat % 1000000000 * 60 := by
  have rest : elapsed.toNat % 1000000000 < 1000000000 := Nat.mod_lt _ (by decide)
  unfold Carried at carried
  simp only [phaseAfter, phaseUnits, UInt64.toNat_add, UInt64.toNat_mul, UInt64.toNat_mod,
    UInt64.reduceToNat]
  omega

theorem dueAfter_toNat {stats : StepStats} (carried : Carried stats) (elapsed : UInt64) :
    (dueAfter stats elapsed).toNat =
      elapsed.toNat / 1000000000 * 60 + (phaseAfter stats elapsed).toNat / 1000000000 := by
  have phase := phaseAfter_toNat carried elapsed
  have small := elapsed.toNat_lt
  unfold Carried at carried
  simp only [dueAfter, phaseUnits, UInt64.toNat_add, UInt64.toNat_mul, UInt64.toNat_div,
    UInt64.reduceToNat]
  omega

theorem executed_toNat (stats : StepStats) (elapsed : UInt64) :
    (batchAfter stats elapsed).executedTicks.toNat = min (dueAfter stats elapsed).toNat 4 := by
  have capped :
      (batchAfter stats elapsed).executedTicks =
        if dueAfter stats elapsed ≤ catchUpCap then dueAfter stats elapsed else catchUpCap := rfl
  have cap : catchUpCap.toNat = 4 := rfl
  rw [capped, apply_ite UInt64.toNat, cap]
  by_cases small : dueAfter stats elapsed ≤ catchUpCap
  · have below := UInt64.le_iff_toNat_le.mp small
    rw [if_pos small, min_eq_left (cap ▸ below)]
  · have above := mt UInt64.le_iff_toNat_le.mpr small
    rw [if_neg small]
    omega

theorem dropped_toNat (stats : StepStats) (elapsed : UInt64) :
    (batchAfter stats elapsed).droppedTicks.toNat = (dueAfter stats elapsed).toNat - 4 := by
  have cap : catchUpCap.toNat = 4 := rfl
  simp only [batchAfter]
  by_cases large : catchUpCap < dueAfter stats elapsed
  · rw [if_pos large, UInt64.toNat_sub_of_le _ _ (UInt64.le_of_lt large), cap]
  · have below := mt UInt64.lt_iff_toNat_lt.mpr large
    have none : (0 : UInt64).toNat = 0 := rfl
    rw [if_neg large, none]
    omega

/-- The batch covers every tick that is due. -/
theorem batch_covers (stats : StepStats) (elapsed : UInt64) :
    (batchAfter stats elapsed).executedTicks.toNat +
      (batchAfter stats elapsed).droppedTicks.toNat = (dueAfter stats elapsed).toNat := by
  rw [executed_toNat, dropped_toNat]
  omega

/-- A counter has room for an addend. -/
theorem room_iff (counter addend : UInt64) :
    ¬ Transactions.maximum64 - addend < counter ↔ counter.toNat + addend.toNat < 2 ^ 64 := by
  have small := addend.toNat_lt
  rw [UInt64.lt_iff_toNat_lt, UInt64.toNat_sub_of_le _ _ (by
    rw [UInt64.le_iff_toNat_le]
    simp only [Transactions.maximum64, UInt64.reduceToNat]
    omega)]
  simp only [Transactions.maximum64, UInt64.reduceToNat]
  omega

/-- The counters have room for a batch. -/
structure Room (stats : StepStats) (batch : StepBatch) : Prop where
  ticks : stats.simulationTick.toNat + batch.executedTicks.toNat < 2 ^ 64
  dropped : stats.droppedTicks.toNat + batch.droppedTicks.toNat < 2 ^ 64
  overloads : stats.overloadCount.toNat + (if batch.overloaded then 1 else 0) < 2 ^ 64

theorem exhausts_iff (stats : StepStats) (batch : StepBatch) :
    exhausts stats batch = false ↔ Room stats batch := by
  have overloads :
      (batch.overloaded && stats.overloadCount == Transactions.maximum64) = false ↔
        stats.overloadCount.toNat + (if batch.overloaded then 1 else 0) < 2 ^ 64 := by
    have small := stats.overloadCount.toNat_lt
    cases batch.overloaded with
    | false => simpa using small
    | true =>
        simp only [Bool.true_and, if_true, beq_eq_false_iff_ne, ne_eq, ← UInt64.toNat_inj,
          Transactions.maximum64, UInt64.reduceToNat]
        omega
  unfold exhausts
  rw [Bool.or_eq_false_iff, Bool.or_eq_false_iff, decide_eq_false_iff_not,
    decide_eq_false_iff_not, room_iff, room_iff, overloads]
  constructor
  · intro all
    exact ⟨all.1.1, all.1.2, all.2⟩
  · intro room
    exact ⟨⟨room.ticks, room.dropped⟩, room.overloads⟩

/-- The counters when a whole batch is over. -/
def completed (stats : StepStats) (batch : StepBatch) : StepStats :=
  closed { stats with simulationTick := stats.simulationTick + batch.executedTicks } batch

/-- With room for the batch, no counter wraps. -/
theorem completed_toNat {stats : StepStats} {batch : StepBatch} (room : Room stats batch) :
    (completed stats batch).simulationTick.toNat =
        stats.simulationTick.toNat + batch.executedTicks.toNat ∧
      (completed stats batch).droppedTicks.toNat =
        stats.droppedTicks.toNat + batch.droppedTicks.toNat ∧
      (completed stats batch).overloadCount.toNat =
        stats.overloadCount.toNat + (if batch.overloaded then 1 else 0) := by
  refine ⟨?_, ?_, ?_⟩
  · simp only [completed, closed, UInt64.toNat_add]
    exact Nat.mod_eq_of_lt room.ticks
  · simp only [completed, closed, UInt64.toNat_add]
    exact Nat.mod_eq_of_lt room.dropped
  · have overloads := room.overloads
    simp only [completed, closed, UInt64.toNat_add]
    cases overloaded : batch.overloaded with
    | false => simp
    | true =>
        rw [overloaded] at overloads
        simpa using overloads

theorem completed_phase (stats : StepStats) (elapsed : UInt64) :
    (completed stats (batchAfter stats elapsed)).remainderUnits.toNat =
      (phaseAfter stats elapsed).toNat % 1000000000 := by
  simp only [completed, closed, batchAfter, phaseUnits, UInt64.toNat_mod, UInt64.reduceToNat]

/-- The counters account for a total of nanoseconds. -/
structure Accounts (stats : StepStats) (sum : Nat) : Prop where
  ticks : stats.simulationTick.toNat + stats.droppedTicks.toNat = 60 * sum / 1000000000
  phase : stats.remainderUnits.toNat = 60 * sum % 1000000000

theorem Accounts.carried {stats : StepStats} {sum : Nat} (accounts : Accounts stats sum) :
    Carried stats := by
  rw [Carried, accounts.phase]
  exact Nat.mod_lt _ (by decide)

/-- A whole batch adds its elapsed value to the total. -/
theorem Accounts.completed {stats : StepStats} {sum : Nat} (accounts : Accounts stats sum)
    {elapsed : UInt64} (room : Room stats (batchAfter stats elapsed)) :
    Accounts (completed stats (batchAfter stats elapsed)) (sum + elapsed.toNat) := by
  obtain ⟨ticks, dropped, _⟩ := completed_toNat room
  have carry := accounts.phase
  have before := accounts.ticks
  have covers := batch_covers stats elapsed
  have phase := phaseAfter_toNat accounts.carried elapsed
  have due := dueAfter_toNat accounts.carried elapsed
  constructor
  · rw [ticks, dropped]
    omega
  · rw [completed_phase, phase]
    omega

/-- A callback that returns whatever it is called with. -/
def Returns (onStep : UInt64 → EStateM ε σ Unit) : Prop :=
  ∀ ordinal world, ∃ next, onStep ordinal world = .ok () next

/-- The ordinals of the next callbacks. -/
def ordinals (stats : StepStats) : Nat → List UInt64
  | 0 => []
  | count + 1 =>
      (stats.simulationTick + 1) ::
        ordinals { stats with simulationTick := stats.simulationTick + 1 } count

theorem ordinals_toNat (stats : StepStats) {count : Nat}
    (room : stats.simulationTick.toNat + count < 2 ^ 64) :
    (ordinals stats count).map UInt64.toNat =
      List.range' (stats.simulationTick.toNat + 1) count := by
  induction count generalizing stats with
  | zero => rfl
  | succ count continues =>
      have next : (stats.simulationTick + 1).toNat = stats.simulationTick.toNat + 1 := by
        rw [UInt64.toNat_add]
        exact Nat.mod_eq_of_lt (by simp only [UInt64.reduceToNat]; omega)
      rw [ordinals, List.map_cons, next, List.range'_succ,
        continues _ (by simp only [next]; omega), next]

/-- Returning callbacks are all run, in order, and counted. -/
theorem callbacks_return {onStep : UInt64 → EStateM ε σ Unit} (returns : Returns onStep)
    (count : Nat) (stats : StepStats) (world : σ) :
    ∃ next,
      (forM (ordinals stats count) onStep).run world = .ok () next ∧
        callbacks onStep count (stats, world) =
          .ok ()
            ({ stats with simulationTick := stats.simulationTick + count.toUInt64 }, next) := by
  induction count generalizing stats world with
  | zero => exact ⟨world, rfl, by simp [callbacks]⟩
  | succ count continues =>
      obtain ⟨first, called⟩ := returns (stats.simulationTick + 1) world
      obtain ⟨next, performed, counted⟩ :=
        continues { stats with simulationTick := stats.simulationTick + 1 } first
      refine ⟨next, ?_, ?_⟩
      · rw [ordinals, List.forM_cons]
        simp only [EStateM.run, bind, EStateM.bind, called]
        exact performed
      · simp only [callbacks, called, counted]
        congr 3
        simp only [Nat.toUInt64_eq, UInt64.ofNat_add, UInt64.add_assoc]
        rw [UInt64.add_comm 1]
        rfl

/-- A call of `advance` with a callback of its own. -/
structure Call (ε σ : Type) where
  elapsed : UInt64
  onStep : UInt64 → EStateM ε σ Unit

/-- A call from given counters, in whole numbers: nothing wraps; the call is refused as
a whole, or it runs the callbacks that its batch says and adds the batch to the counters. -/
structure Exact (stats : StepStats) (world : σ) (call : Call ε σ) : Prop where
  phase :
    (phaseAfter stats call.elapsed).toNat =
      stats.remainderUnits.toNat + call.elapsed.toNat % 1000000000 * 60
  due :
    (dueAfter stats call.elapsed).toNat =
      call.elapsed.toNat / 1000000000 * 60 +
        (phaseAfter stats call.elapsed).toNat / 1000000000
  executed :
    (batchAfter stats call.elapsed).executedTicks.toNat =
      min (dueAfter stats call.elapsed).toNat 4
  dropped :
    (batchAfter stats call.elapsed).droppedTicks.toNat =
      (dueAfter stats call.elapsed).toNat - 4
  refused :
    ¬ Room stats (batchAfter stats call.elapsed) →
      advance (some call.onStep) call.elapsed (stats, world) = .error .exhausted (stats, world)
  accepted :
    let batch := batchAfter stats call.elapsed
    Room stats batch →
      ∃ (called : List UInt64) (next : σ) (after : StepStats),
        advance (some call.onStep) call.elapsed (stats, world) = .ok batch (after, next) ∧
          (forM called call.onStep).run world = .ok () next ∧
          called.map UInt64.toNat =
            List.range' (stats.simulationTick.toNat + 1) batch.executedTicks.toNat ∧
          after.simulationTick.toNat =
            stats.simulationTick.toNat + batch.executedTicks.toNat ∧
          after.droppedTicks.toNat = stats.droppedTicks.toNat + batch.droppedTicks.toNat ∧
          after.overloadCount.toNat =
            stats.overloadCount.toNat + (if batch.overloaded then 1 else 0) ∧
          after.remainderUnits.toNat =
            (phaseAfter stats call.elapsed).toNat % 1000000000

theorem advance_refuses {stats : StepStats} {world : σ} {call : Call ε σ}
    (full : ¬ Room stats (batchAfter stats call.elapsed)) :
    advance (some call.onStep) call.elapsed (stats, world) =
      .error .exhausted (stats, world) := by
  have exhausted : exhausts stats (batchAfter stats call.elapsed) = true := by
    rw [← Bool.not_eq_false, exhausts_iff]
    exact full
  simp only [advance, exhausted, if_true]

theorem advance_performs {stats : StepStats} {call : Call ε σ}
    (room : Room stats (batchAfter stats call.elapsed)) (world : σ)
    (returns : Returns call.onStep) :
    let batch := batchAfter stats call.elapsed
    ∃ next,
      (forM (ordinals stats batch.executedTicks.toNat) call.onStep).run world = .ok () next ∧
        advance (some call.onStep) call.elapsed (stats, world) =
          .ok batch (completed stats batch, next) := by
  intro batch
  obtain ⟨next, performed, counted⟩ :=
    callbacks_return returns batch.executedTicks.toNat stats world
  refine ⟨next, performed, ?_⟩
  have same : batch.executedTicks.toNat.toUInt64 = batch.executedTicks := by
    rw [Nat.toUInt64_eq, UInt64.ofNat_toNat]
  rw [same] at counted
  simp only [advance, (exhausts_iff _ _).mpr room, Bool.false_eq_true, if_false, batch,
    counted, completed]

theorem advance_exact {stats : StepStats} (carried : Carried stats) (world : σ)
    (call : Call ε σ) (returns : Returns call.onStep) : Exact stats world call where
  phase := phaseAfter_toNat carried call.elapsed
  due := dueAfter_toNat carried call.elapsed
  executed := executed_toNat stats call.elapsed
  dropped := dropped_toNat stats call.elapsed
  refused := advance_refuses
  accepted := by
    intro batch room
    obtain ⟨next, performed, done⟩ := advance_performs room world returns
    obtain ⟨ticks, dropped, overloads⟩ := completed_toNat room
    exact ⟨_, next, completed stats batch, done, performed, ordinals_toNat stats room.ticks,
      ticks, dropped, overloads, completed_phase stats call.elapsed⟩

def fresh : StepStats := ⟨0, 0, 0, 0⟩

/-- A clock in use: its counters, what its callbacks have made, and the elapsed values
of the calls that were accepted. -/
structure Driven (σ : Type) where
  stats : StepStats
  world : σ
  accepted : List UInt64

def Driven.after (driven : Driven σ) (elapsed : UInt64) :
    EStateM.Result (Halted ε) (StepStats × σ) StepBatch → Driven σ
  | .ok _ (stats, world) => ⟨stats, world, driven.accepted ++ [elapsed]⟩
  | .error _ (stats, world) => { driven with stats := stats, world := world }

def Driven.call (driven : Driven σ) (call : Call ε σ) : Driven σ :=
  driven.after call.elapsed
    (advance (some call.onStep) call.elapsed (driven.stats, driven.world))

/-- A fresh clock after calls one after another. -/
def drive (world : σ) (calls : List (Call ε σ)) : Driven σ :=
  calls.foldl Driven.call ⟨fresh, world, []⟩

/-- The exact total of the accepted values. -/
def Driven.total (driven : Driven σ) : Nat := (driven.accepted.map UInt64.toNat).sum

/-- An accepted call adds its elapsed value to the total, a refused one nothing. -/
theorem accounts_call {driven : Driven σ} (accounts : Accounts driven.stats driven.total)
    {call : Call ε σ} (returns : Returns call.onStep) :
    Accounts (driven.call call).stats (driven.call call).total := by
  by_cases room : Room driven.stats (batchAfter driven.stats call.elapsed)
  · obtain ⟨next, _, done⟩ := advance_performs room driven.world returns
    have called :
        driven.call call =
          ⟨completed driven.stats (batchAfter driven.stats call.elapsed), next,
            driven.accepted ++ [call.elapsed]⟩ := by
      rw [Driven.call, done, Driven.after]
    have sum : (driven.call call).total = driven.total + call.elapsed.toNat := by
      rw [called]
      simp [Driven.total]
    rw [sum, called]
    exact accounts.completed room
  · have called : driven.call call = driven := by
      rw [Driven.call, advance_refuses room, Driven.after]
    rw [called]
    exact accounts

theorem drive_accounts (world : σ) (calls : List (Call ε σ))
    (returns : ∀ call ∈ calls, Returns call.onStep) :
    Accounts (drive world calls).stats (drive world calls).total := by
  have general : ∀ driven : Driven σ, Accounts driven.stats driven.total →
      Accounts (calls.foldl Driven.call driven).stats
        (calls.foldl Driven.call driven).total := by
    induction calls with
    | nil =>
        intro driven accounts
        exact accounts
    | cons call rest continues =>
        intro driven accounts
        exact continues (fun other member => returns other (List.mem_cons_of_mem call member)) _
          (accounts_call accounts (returns call List.mem_cons_self))
  exact general _ ⟨by simp [fresh, Driven.total], by simp [fresh, Driven.total]⟩

/-- After any calls with callbacks that return, refused ones among them, the counters
are the exact quotient and rest of what was accepted; the next call is exact again; and
another division of the same total ends with the same sum of ticks and the same rest. -/
theorem clock_exact (world : σ) (calls : List (Call ε σ))
    (returns : ∀ call ∈ calls, Returns call.onStep) :
    let done := drive world calls
    Accounts done.stats done.total ∧
      (∀ call : Call ε σ, Returns call.onStep → Exact done.stats done.world call) ∧
      ∀ (elsewhere : σ) (others : List (Call ε σ)),
        (∀ call ∈ others, Returns call.onStep) →
          let again := drive elsewhere others
          again.total = done.total →
            again.stats.simulationTick.toNat + again.stats.droppedTicks.toNat =
                done.stats.simulationTick.toNat + done.stats.droppedTicks.toNat ∧
              again.stats.remainderUnits = done.stats.remainderUnits := by
  intro done
  have accounts : Accounts done.stats done.total := drive_accounts world calls returns
  refine ⟨accounts, ?_, ?_⟩
  · intro call returning
    exact advance_exact accounts.carried done.world call returning
  · intro elsewhere others othersReturn again same
    have elsewhere : Accounts again.stats again.total :=
      drive_accounts elsewhere others othersReturn
    constructor
    · rw [elsewhere.ticks, accounts.ticks, same]
    · rw [← UInt64.toNat_inj, elsewhere.phase, accounts.phase, same]

/-- A second in two parts, both over the cap. -/
theorem clock_exact_second :
    let count : UInt64 → EStateM Unit Nat Unit := fun _ world => .ok () (world + 1)
    let done := drive 0 [⟨333333337, count⟩, ⟨666666663, count⟩]
    Accounts done.stats done.total ∧ done.stats = ⟨8, 2, 52, 0⟩ ∧ done.world = 8 := by
  intro count done
  have returns :
      ∀ call ∈ ([⟨333333337, count⟩, ⟨666666663, count⟩] : List (Call Unit Nat)),
        Returns call.onStep := by
    intro call member ordinal world
    have same : call.onStep = count := by
      rcases List.mem_pair.mp member with first | second
      · rw [first]
      · rw [second]
    exact ⟨world + 1, by rw [same]⟩
  exact ⟨(clock_exact 0 _ returns).1, by decide +kernel, by decide +kernel⟩

end Omniweft.Simulation
