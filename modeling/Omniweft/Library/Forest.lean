import Mathlib.Data.List.Nodup
import Mathlib.Data.List.Perm.Subperm
import Mathlib.Logic.Relation

/-!
# Forests of upward links

A forest is a relation `up` from each item to its parent: at most one parent,
no cycle. Two walks over a forest are described here by the invariants their
loops keep: the climb from an item through its ancestors, and the sweep that
collects an item and everything below it breadth first.
-/

namespace Omniweft.Forest

open Relation

variable {ι : Type}

def Unique (up : ι → ι → Prop) : Prop :=
  ∀ child first second, up child first → up child second → first = second

def Acyclic (up : ι → ι → Prop) : Prop :=
  ∀ item, ¬ TransGen up item item

/-- `high` is `low` or one of its ancestors. -/
def Above (up : ι → ι → Prop) (low high : ι) : Prop :=
  ReflTransGen up low high

/-- On a path of single steps a cycle travels upward. -/
theorem cycle_above {up : ι → ι → Prop} (unique : Unique up) {low high : ι}
    (above : Above up low high) (cycle : TransGen up low low) :
    TransGen up high high := by
  induction above with
  | refl => exact cycle
  | @tail middle high _ step inductionHypothesis =>
      rcases TransGen.head'_iff.mp inductionHypothesis with ⟨next, first, back⟩
      have same := unique middle next high first step
      subst same
      exact TransGen.tail' back step

/-- Pointing one item at a new parent that is not below it keeps a forest
acyclic; so does making it a root. -/
theorem Acyclic.redirect {up next : ι → ι → Prop} (acyclic : Acyclic up)
    (unique : Unique next) {item : ι}
    (others : ∀ child parent, child ≠ item → next child parent → up child parent)
    (apart : ∀ parent, next item parent → ¬ Above up parent item) :
    Acyclic next := by
  have toItem : ∀ {low : ι}, Above next low item → Above up low item := by
    intro low above
    induction above using ReflTransGen.head_induction_on with
    | refl => exact ReflTransGen.refl
    | @head low middle step _ inductionHypothesis =>
        by_cases here : low = item
        · exact here ▸ ReflTransGen.refl
        · exact ReflTransGen.head (others low middle here step) inductionHypothesis
  have split :
      ∀ {low high : ι},
        TransGen next low high → TransGen up low high ∨ Above next low item := by
    intro low high path
    induction path using TransGen.head_induction_on with
    | @single low step =>
        by_cases here : low = item
        · exact Or.inr (here ▸ ReflTransGen.refl)
        · exact Or.inl (TransGen.single (others low high here step))
    | @head low middle step _ inductionHypothesis =>
        by_cases here : low = item
        · exact Or.inr (here ▸ ReflTransGen.refl)
        · rcases inductionHypothesis with old | reaches
          · exact Or.inl (TransGen.head (others low middle here step) old)
          · exact Or.inr (ReflTransGen.head step reaches)
  intro start cycle
  rcases split cycle with old | reaches
  · exact acyclic start old
  · have atItem := cycle_above unique reaches cycle
    rcases TransGen.head'_iff.mp atItem with ⟨parent, step, back⟩
    exact apart parent step (toItem back)

theorem Acyclic.mono {up next : ι → ι → Prop} (acyclic : Acyclic up)
    (weaker : ∀ child parent, next child parent → up child parent) :
    Acyclic next :=
  fun item cycle => acyclic item (TransGen.mono weaker item item cycle)

/-- Distinct numbers below a bound are no more than the bound. -/
theorem length_le_of_nodup_lt {items : List Nat} {bound : Nat} (nodup : items.Nodup)
    (below : ∀ item, item ∈ items → item < bound) :
    items.length ≤ bound := by
  have inside : items ⊆ List.range bound :=
    fun item member => List.mem_range.mpr (below item member)
  simpa using (List.subperm_of_subset nodup inside).length_le

/-- The items a climb has passed on its way to `current`. -/
structure Climb (up : ι → ι → Prop) (passed : List ι) (current : ι) : Prop where
  nodup : passed.Nodup
  below : ∀ item, item ∈ passed → TransGen up item current

theorem Climb.start (up : ι → ι → Prop) (current : ι) : Climb up [] current where
  nodup := List.nodup_nil
  below := by simp

theorem Climb.fresh {up : ι → ι → Prop} (acyclic : Acyclic up) {passed : List ι}
    {current : ι} (climb : Climb up passed current) :
    current ∉ passed :=
  fun member => acyclic current (climb.below current member)

theorem Climb.next {up : ι → ι → Prop} (acyclic : Acyclic up) {passed : List ι}
    {current parent : ι} (climb : Climb up passed current) (step : up current parent) :
    Climb up (current :: passed) parent where
  nodup := List.nodup_cons.mpr ⟨climb.fresh acyclic, climb.nodup⟩
  below := by
    intro item member
    rcases List.mem_cons.mp member with here | earlier
    · exact here ▸ TransGen.single step
    · exact (climb.below item earlier).tail step

/-- A climb through items below a bound passes fewer than the bound. -/
theorem Climb.length_lt {up : Nat → Nat → Prop} (acyclic : Acyclic up)
    {passed : List Nat} {current bound : Nat} (climb : Climb up passed current)
    (below : ∀ item, item ∈ current :: passed → item < bound) :
    passed.length < bound := by
  have nodup : (current :: passed).Nodup :=
    List.nodup_cons.mpr ⟨climb.fresh acyclic, climb.nodup⟩
  have bounded := length_le_of_nodup_lt nodup below
  rw [List.length_cons] at bounded
  exact bounded

/-- Among items below a bound every climb ends, so what an item inherits from
its parent holds of all of them. -/
theorem Acyclic.upward {up : Nat → Nat → Prop} (acyclic : Acyclic up) {bound : Nat}
    (bounded : ∀ child parent, up child parent → parent < bound) {motive : Nat → Prop}
    (inherits : ∀ item, (∀ parent, up item parent → motive parent) → motive item)
    {start : Nat} (inside : start < bound) :
    motive start := by
  have climbing :
      ∀ (remaining : Nat) (passed : List Nat) (current : Nat),
        Climb up passed current →
        (∀ item, item ∈ current :: passed → item < bound) →
        passed.length + remaining = bound → motive current := by
    intro remaining
    induction remaining with
    | zero =>
        intro passed current climb below total
        have short := climb.length_lt acyclic below
        omega
    | succ remaining inductionHypothesis =>
        intro passed current climb below total
        refine inherits current fun parent step => ?_
        refine inductionHypothesis (current :: passed) parent (climb.next acyclic step)
          ?_ ?_
        · intro item member
          rcases List.mem_cons.mp member with here | earlier
          · exact here ▸ bounded current parent step
          · exact below item earlier
        · rw [List.length_cons]
          omega
  refine climbing bound [] start (Climb.start up start) ?_ (by simp)
  intro item member
  rw [List.mem_singleton] at member
  exact member ▸ inside

/-- Between two rounds of a sweep: `visited` items have all their children in
the queue, and every queued item but the root came from a visited parent. -/
structure Frontier (up : ι → ι → Prop) (root : ι) (visited queue : List ι) : Prop where
  nodup : queue.Nodup
  root_mem : root ∈ queue
  below : ∀ item, item ∈ queue → Above up item root
  origin :
    ∀ item, item ∈ queue → item = root ∨ ∃ parent, parent ∈ visited ∧ up item parent
  closed : ∀ parent, parent ∈ visited → ∀ item, up item parent → item ∈ queue

/-- Inside the round of `current`: the children already `seen` are queued. -/
structure Sweep (up : ι → ι → Prop) (root : ι) (visited : List ι) (current : ι)
    (seen : ι → Prop) (queue : List ι) : Prop where
  nodup : queue.Nodup
  root_mem : root ∈ queue
  current_mem : current ∈ queue
  below : ∀ item, item ∈ queue → Above up item root
  origin :
    ∀ item,
      item ∈ queue →
      item = root ∨ ∃ parent, parent ∈ visited ++ [current] ∧ up item parent
  closed : ∀ parent, parent ∈ visited → ∀ item, up item parent → item ∈ queue
  queued : ∀ item, up item current → (item ∈ queue ↔ seen item)

theorem Frontier.start (up : ι → ι → Prop) (root : ι) :
    Frontier up root [] [root] where
  nodup := by simp
  root_mem := by simp
  below := by
    intro item member
    rw [List.mem_singleton] at member
    exact member ▸ ReflTransGen.refl
  origin := by simp
  closed := by simp

/-- No child of an item that waits in the queue is queued yet. -/
theorem Frontier.begin {up : ι → ι → Prop} (unique : Unique up)
    (acyclic : Acyclic up) {root current : ι} {visited queue : List ι}
    (frontier : Frontier up root visited queue) (waiting : current ∈ queue)
    (unvisited : current ∉ visited) :
    Sweep up root visited current (fun _ => False) queue where
  nodup := frontier.nodup
  root_mem := frontier.root_mem
  current_mem := waiting
  below := frontier.below
  origin := by
    intro item member
    rcases frontier.origin item member with here | ⟨parent, parentMember, step⟩
    · exact Or.inl here
    · exact Or.inr ⟨parent, List.mem_append_left _ parentMember, step⟩
  closed := frontier.closed
  queued := by
    intro item step
    rw [iff_false]
    intro member
    rcases frontier.origin item member with here | ⟨parent, parentMember, other⟩
    · subst here
      exact acyclic item (TransGen.head' step (frontier.below current waiting))
    · have same := unique item current parent step other
      exact unvisited (same ▸ parentMember)

theorem Sweep.congr {up : ι → ι → Prop} {root current : ι} {visited queue : List ι}
    {seen other : ι → Prop} (sweep : Sweep up root visited current seen queue)
    (same : ∀ item, up item current → (seen item ↔ other item)) :
    Sweep up root visited current other queue where
  nodup := sweep.nodup
  root_mem := sweep.root_mem
  current_mem := sweep.current_mem
  below := sweep.below
  origin := sweep.origin
  closed := sweep.closed
  queued item step := (sweep.queued item step).trans (same item step)

theorem Sweep.skip {up : ι → ι → Prop} {root current : ι} {visited queue : List ι}
    {seen : ι → Prop} (sweep : Sweep up root visited current seen queue) {item : ι}
    (stranger : ¬ up item current) :
    Sweep up root visited current (fun other => seen other ∨ other = item) queue where
  nodup := sweep.nodup
  root_mem := sweep.root_mem
  current_mem := sweep.current_mem
  below := sweep.below
  origin := sweep.origin
  closed := sweep.closed
  queued := by
    intro other step
    have different : other ≠ item := fun same => stranger (same ▸ step)
    simp [sweep.queued other step, different]

theorem Sweep.fresh {up : ι → ι → Prop} {root current : ι} {visited queue : List ι}
    {seen : ι → Prop} (sweep : Sweep up root visited current seen queue) {item : ι}
    (step : up item current) (unseen : ¬ seen item) :
    item ∉ queue :=
  fun member => unseen ((sweep.queued item step).mp member)

theorem Sweep.push {up : ι → ι → Prop} {root current : ι} {visited queue : List ι}
    {seen : ι → Prop} (sweep : Sweep up root visited current seen queue) {item : ι}
    (step : up item current) (unseen : ¬ seen item) :
    Sweep up root visited current (fun other => seen other ∨ other = item)
      (queue ++ [item]) where
  nodup := by
    rw [List.nodup_append]
    refine ⟨sweep.nodup, by simp, ?_⟩
    intro old oldMember new newMember same
    rw [List.mem_singleton] at newMember
    exact sweep.fresh step unseen (newMember ▸ same ▸ oldMember)
  root_mem := List.mem_append_left _ sweep.root_mem
  current_mem := List.mem_append_left _ sweep.current_mem
  below := by
    intro other member
    rcases List.mem_append.mp member with old | new
    · exact sweep.below other old
    · rw [List.mem_singleton] at new
      exact new ▸ ReflTransGen.head step (sweep.below current sweep.current_mem)
  origin := by
    intro other member
    rcases List.mem_append.mp member with old | new
    · exact sweep.origin other old
    · rw [List.mem_singleton] at new
      exact Or.inr ⟨current, by simp, new ▸ step⟩
  closed := by
    intro parent parentMember other childStep
    exact List.mem_append_left _ (sweep.closed parent parentMember other childStep)
  queued := by
    intro other childStep
    simp [sweep.queued other childStep]

theorem Sweep.finish {up : ι → ι → Prop} {root current : ι} {visited queue : List ι}
    {seen : ι → Prop} (sweep : Sweep up root visited current seen queue)
    (all : ∀ item, up item current → seen item) :
    Frontier up root (visited ++ [current]) queue where
  nodup := sweep.nodup
  root_mem := sweep.root_mem
  below := sweep.below
  origin := sweep.origin
  closed := by
    intro parent parentMember item step
    rcases List.mem_append.mp parentMember with old | new
    · exact sweep.closed parent old item step
    · rw [List.mem_singleton] at new
      subst new
      exact (sweep.queued item step).mpr (all item step)

/-- When every queued item was visited, the queue is the root with everything
below it. -/
theorem Frontier.mem_iff {up : ι → ι → Prop} {root : ι} {queue : List ι}
    (frontier : Frontier up root queue queue) {item : ι} :
    item ∈ queue ↔ Above up item root := by
  constructor
  · exact frontier.below item
  · intro above
    induction above using ReflTransGen.head_induction_on with
    | refl => exact frontier.root_mem
    | @head low middle step _ inductionHypothesis =>
        exact frontier.closed middle inductionHypothesis low step

end Omniweft.Forest
