import Mathlib.Data.List.Nodup
import Mathlib.Data.List.Basic
import Mathlib.Logic.Relation

/-!
# Generational arenas

An arena hands out cells again and again. A cell keeps its name; its
generation grows each time it is freed, and a cell freed at the last
generation is retired. A handle is a name with a generation. Over any run of
steps a handle is issued at most once and is live exactly between the step
that issued it and the step that ended it.
-/

namespace Omniweft.Arena

variable {ν : Type}

structure Cell (ν : Type) where
  name : ν
  generation : Nat
  occupied : Bool
  retired : Bool

abbrev Handle (ν : Type) := ν × Nat

namespace Cell

def handle (cell : Cell ν) : Handle ν := (cell.name, cell.generation)

/-- The cell after its occupant left. -/
def freed (limit : Nat) (cell : Cell ν) : Cell ν :=
  if cell.generation = limit then { cell with occupied := false, retired := true }
  else { cell with occupied := false, generation := cell.generation + 1 }

/-- The generations of this cell that were handed out so far. -/
def HandedOut (cell : Cell ν) (generation : Nat) : Prop :=
  1 ≤ generation ∧
    (generation < cell.generation ∨
      generation = cell.generation ∧ (cell.occupied = true ∨ cell.retired = true))

/-- The generations of this cell that are over. -/
def Over (cell : Cell ν) (generation : Nat) : Prop :=
  1 ≤ generation ∧
    (generation < cell.generation ∨
      generation = cell.generation ∧ cell.retired = true)

structure Valid (cell : Cell ν) : Prop where
  positive : 1 ≤ cell.generation
  empty : cell.retired = true → cell.occupied = false

end Cell

/-- One step of an arena, with the handles it issues and the handles it ends. -/
inductive Step (limit : Nat) :
    List (Cell ν) → List (Handle ν) → List (Handle ν) → List (Cell ν) → Prop
  | stay (cells : List (Cell ν)) : Step limit cells [] [] cells
  | reuse {cells : List (Cell ν)} {position : Nat} {cell : Cell ν} :
      cells[position]? = some cell →
      cell.occupied = false →
      cell.retired = false →
      Step limit cells [cell.handle] []
        (cells.set position { cell with occupied := true })
  | grow {cells : List (Cell ν)} {name : ν} :
      (∀ cell, cell ∈ cells → cell.name ≠ name) →
      Step limit cells [(name, 1)] [] (cells ++ [⟨name, 1, true, false⟩])
  | free {cells : List (Cell ν)} {position : Nat} {cell : Cell ν} :
      cells[position]? = some cell →
      cell.occupied = true →
      cell.retired = false →
      Step limit cells [] [cell.handle] (cells.set position (cell.freed limit))

/-- Generations start at one and never fall back to zero. -/
theorem Step.positive {limit : Nat} {cells after : List (Cell ν)}
    {issued ended : List (Handle ν)} (step : Step limit cells issued ended after)
    (positive : ∀ cell ∈ cells, 1 ≤ cell.generation) :
    (∀ cell ∈ after, 1 ≤ cell.generation) ∧ ∀ handle ∈ issued, 1 ≤ handle.2 := by
  cases step with
  | stay => exact ⟨positive, by simp⟩
  | @reuse position cell present _ _ =>
      have counted := positive cell (List.mem_of_getElem? present)
      refine ⟨?_, by simpa [Cell.handle] using counted⟩
      intro other member
      rcases List.mem_or_eq_of_mem_set member with old | new
      · exact positive other old
      · exact new ▸ counted
  | grow =>
      refine ⟨?_, by simp⟩
      intro other member
      rcases List.mem_append.mp member with old | new
      · exact positive other old
      · exact (List.mem_singleton.mp new) ▸ Nat.le_refl 1
  | @free position cell present _ _ =>
      have counted := positive cell (List.mem_of_getElem? present)
      refine ⟨?_, by simp⟩
      intro other member
      rcases List.mem_or_eq_of_mem_set member with old | new
      · exact positive other old
      · rw [new, Cell.freed]
        split
        · exact counted
        · exact Nat.le_add_left 1 _

/-- Cells stay valid. -/
theorem Step.valid {limit : Nat} {cells after : List (Cell ν)}
    {issued ended : List (Handle ν)} (step : Step limit cells issued ended after)
    (valid : ∀ cell ∈ cells, cell.Valid) : ∀ cell ∈ after, cell.Valid := by
  have counted := (step.positive fun cell member => (valid cell member).positive).1
  intro cell member
  refine ⟨counted cell member, ?_⟩
  cases step with
  | stay => exact (valid cell member).empty
  | @reuse position old present _ awake =>
      rcases List.mem_or_eq_of_mem_set member with before | new
      · exact (valid cell before).empty
      · intro retired
        rw [new] at retired
        exact absurd (awake.symm.trans retired) (by decide)
  | grow =>
      rcases List.mem_append.mp member with before | new
      · exact (valid cell before).empty
      · intro retired
        rw [List.mem_singleton.mp new] at retired
        exact absurd retired Bool.false_ne_true
  | @free position old present _ _ =>
      rcases List.mem_or_eq_of_mem_set member with before | new
      · exact (valid cell before).empty
      · intro _
        rw [new, Cell.freed]
        split <;> rfl

/-- A handle is live while its cell is occupied at its generation. -/
def Live (cells : List (Cell ν)) (handle : Handle ν) : Prop :=
  ∃ cell, cell ∈ cells ∧ cell.handle = handle ∧ cell.occupied = true ∧
    cell.retired = false

def Named (cells : List (Cell ν)) : Prop :=
  (cells.map Cell.name).Nodup

theorem Named.eq_of_name {cells : List (Cell ν)} (named : Named cells)
    {first second : Cell ν} (firstMember : first ∈ cells)
    (secondMember : second ∈ cells) (sameName : first.name = second.name) :
    first = second :=
  List.inj_on_of_nodup_map named firstMember secondMember sameName

/-- With distinct names, a question about the cell of a name is a question
about that cell. -/
theorem Named.exists_iff {cells : List (Cell ν)} (named : Named cells)
    {cell : Cell ν} (member : cell ∈ cells) {property : Cell ν → Prop} :
    (∃ other, other ∈ cells ∧ other.name = cell.name ∧ property other) ↔
      property cell := by
  constructor
  · rintro ⟨other, otherMember, sameName, holds⟩
    have same := named.eq_of_name otherMember member sameName
    exact same ▸ holds
  · intro holds
    exact ⟨cell, member, rfl, holds⟩

theorem map_name_set {cells : List (Cell ν)} {position : Nat} {cell next : Cell ν}
    (present : cells[position]? = some cell) (sameName : next.name = cell.name) :
    (cells.set position next).map Cell.name = cells.map Cell.name := by
  rw [List.map_set, sameName]
  apply List.ext_getElem?
  intro place
  by_cases here : position = place
  · subst here
    obtain ⟨inside, found⟩ := List.getElem?_eq_some_iff.mp present
    simp [inside, found]
  · simp [here]

/-- Replacing one cell by a cell of the same name changes the answer for that
name only. -/
theorem exists_set_iff {cells : List (Cell ν)} (named : Named cells)
    {position : Nat} {cell next : Cell ν}
    (present : cells[position]? = some cell) (sameName : next.name = cell.name)
    {name : ν} {property : Cell ν → Prop} :
    (∃ other, other ∈ cells.set position next ∧ other.name = name ∧
        property other) ↔
      (name = cell.name ∧ property next) ∨
        (name ≠ cell.name ∧
          ∃ other, other ∈ cells ∧ other.name = name ∧ property other) := by
  have inside := (List.getElem?_eq_some_iff.mp present).1
  have namedSet : Named (cells.set position next) := by
    unfold Named
    rw [map_name_set present sameName]
    exact named
  have nextMember : next ∈ cells.set position next :=
    List.mem_set inside next
  by_cases sought : name = cell.name
  · subst sought
    rw [← sameName, namedSet.exists_iff nextMember]
    simp
  · have elsewhere (other : Cell ν) (otherName : other.name = name) :
        other ∈ cells.set position next ↔ other ∈ cells := by
      constructor
      · intro member
        rcases List.mem_or_eq_of_mem_set member with old | new
        · exact old
        · exact absurd (otherName.symm.trans (new ▸ sameName)) sought
      · intro member
        obtain ⟨place, found⟩ := List.mem_iff_getElem?.mp member
        have apart : position ≠ place := by
          intro same
          rw [← same, present, Option.some.injEq] at found
          exact sought (otherName.symm.trans (found ▸ rfl))
        exact List.mem_iff_getElem?.mpr ⟨place, by simpa [apart] using found⟩
    simp only [sought, false_and, ne_eq, not_false_eq_true, true_and, false_or]
    constructor
    · rintro ⟨other, member, otherName, holds⟩
      exact ⟨other, (elsewhere other otherName).mp member, otherName, holds⟩
    · rintro ⟨other, member, otherName, holds⟩
      exact ⟨other, (elsewhere other otherName).mpr member, otherName, holds⟩

/-- The handles issued and ended so far are exactly those the cells tell. -/
structure Accounts (cells : List (Cell ν)) (issued ended : List (Handle ν)) : Prop where
  named : Named cells
  valid : ∀ cell, cell ∈ cells → cell.Valid
  issued_iff :
    ∀ name generation,
      (name, generation) ∈ issued ↔
        ∃ cell, cell ∈ cells ∧ cell.name = name ∧ cell.HandedOut generation
  ended_iff :
    ∀ name generation,
      (name, generation) ∈ ended ↔
        ∃ cell, cell ∈ cells ∧ cell.name = name ∧ cell.Over generation
  issuedOnce : issued.Nodup
  endedOnce : ended.Nodup

theorem Accounts.empty : Accounts ([] : List (Cell ν)) [] [] where
  named := List.nodup_nil
  valid := by simp
  issued_iff := by simp
  ended_iff := by simp
  issuedOnce := List.nodup_nil
  endedOnce := List.nodup_nil

/-- A handle is live exactly when it was issued and has not ended. -/
theorem Accounts.live_iff {cells : List (Cell ν)} {issued ended : List (Handle ν)}
    (accounts : Accounts cells issued ended) (handle : Handle ν) :
    Live cells handle ↔ handle ∈ issued ∧ handle ∉ ended := by
  obtain ⟨name, generation⟩ := handle
  rw [accounts.issued_iff, accounts.ended_iff]
  constructor
  · rintro ⟨cell, member, same, occupied, awake⟩
    simp only [Cell.handle, Prod.mk.injEq] at same
    obtain ⟨sameName, sameGeneration⟩ := same
    subst sameName sameGeneration
    have positive := (accounts.valid cell member).positive
    refine ⟨⟨cell, member, rfl, positive, Or.inr ⟨rfl, Or.inl occupied⟩⟩, ?_⟩
    rw [accounts.named.exists_iff member]
    rintro ⟨_, beyond⟩
    rcases beyond with less | ⟨_, retired⟩
    · exact absurd less (Nat.lt_irrefl _)
    · rw [awake] at retired
      exact absurd retired (by decide)
  · rintro ⟨⟨cell, member, sameName, positive, out⟩, notOver⟩
    subst sameName
    rw [accounts.named.exists_iff member] at notOver
    rcases out with less | ⟨same, occupiedOrRetired⟩
    · exact absurd ⟨positive, Or.inl less⟩ notOver
    · have awake : cell.retired = false := by
        cases retired : cell.retired with
        | false => rfl
        | true => exact absurd ⟨positive, Or.inr ⟨same, retired⟩⟩ notOver
      have occupied : cell.occupied = true := by
        rcases occupiedOrRetired with occupied | retired
        · exact occupied
        · rw [awake] at retired
          exact absurd retired (by decide)
      exact ⟨cell, member, by rw [Cell.handle, same], occupied, awake⟩

private theorem Accounts.replace
    {cells : List (Cell ν)} {issued ended newIssued newEnded : List (Handle ν)}
    (accounts : Accounts cells issued ended)
    {position : Nat} {cell next : Cell ν}
    (present : cells[position]? = some cell) (sameName : next.name = cell.name)
    (valid : next.Valid)
    (issues :
      ∀ generation,
        next.HandedOut generation ↔
          cell.HandedOut generation ∨ (cell.name, generation) ∈ newIssued)
    (ends :
      ∀ generation,
        next.Over generation ↔
          cell.Over generation ∨ (cell.name, generation) ∈ newEnded)
    (issuedHere : ∀ handle, handle ∈ newIssued → handle.1 = cell.name)
    (endedHere : ∀ handle, handle ∈ newEnded → handle.1 = cell.name)
    (issuedOnce : (issued ++ newIssued).Nodup)
    (endedOnce : (ended ++ newEnded).Nodup) :
    Accounts (cells.set position next) (issued ++ newIssued) (ended ++ newEnded) := by
  have member : cell ∈ cells := List.mem_of_getElem? present
  refine ⟨?_, ?_, ?_, ?_, issuedOnce, endedOnce⟩
  · unfold Named
    rw [map_name_set present sameName]
    exact accounts.named
  · intro other otherMember
    rcases List.mem_or_eq_of_mem_set otherMember with old | new
    · exact accounts.valid other old
    · exact new ▸ valid
  · intro name generation
    rw [exists_set_iff accounts.named present sameName, List.mem_append,
      accounts.issued_iff]
    by_cases sought : name = cell.name
    · subst sought
      rw [accounts.named.exists_iff member, issues]
      simp
    · have absent : (name, generation) ∉ newIssued := by
        intro issuedNow
        exact sought (issuedHere _ issuedNow)
      simp [sought, absent]
  · intro name generation
    rw [exists_set_iff accounts.named present sameName, List.mem_append,
      accounts.ended_iff]
    by_cases sought : name = cell.name
    · subst sought
      rw [accounts.named.exists_iff member, ends]
      simp
    · have absent : (name, generation) ∉ newEnded := by
        intro endedNow
        exact sought (endedHere _ endedNow)
      simp [sought, absent]

/-- Every step keeps the books. -/
theorem Accounts.step {limit : Nat} {cells next : List (Cell ν)}
    {issued ended newIssued newEnded : List (Handle ν)}
    (accounts : Accounts cells issued ended)
    (step : Step limit cells newIssued newEnded next) :
    Accounts next (issued ++ newIssued) (ended ++ newEnded) := by
  cases step with
  | stay => simpa using accounts
  | @reuse position cell present vacant awake =>
      have member : cell ∈ cells := List.mem_of_getElem? present
      have valid := accounts.valid cell member
      have fresh : cell.handle ∉ issued := by
        unfold Cell.handle
        rw [accounts.issued_iff, accounts.named.exists_iff member]
        rintro ⟨_, out⟩
        rcases out with less | ⟨_, occupied | retired⟩
        · exact absurd less (Nat.lt_irrefl _)
        · rw [vacant] at occupied
          exact absurd occupied (by decide)
        · rw [awake] at retired
          exact absurd retired (by decide)
      refine accounts.replace present rfl ⟨valid.positive, ?_⟩ ?_ ?_ ?_ ?_
        (by simpa only [List.concat_eq_append] using List.Nodup.concat fresh accounts.issuedOnce)
        (by simpa using accounts.endedOnce)
      · intro retired
        rw [awake] at retired
        exact absurd retired (by decide)
      · intro generation
        have positive := valid.positive
        simp only [Cell.HandedOut, Cell.handle, vacant, awake, List.mem_singleton,
          Prod.mk.injEq, true_and]
        simp
        omega
      · intro generation
        simp [Cell.Over, awake]
      · intro handle issuedNow
        rw [List.mem_singleton] at issuedNow
        exact issuedNow ▸ rfl
      · simp
  | @grow name fresh =>
      have unissued : (name, 1) ∉ issued := by
        rw [accounts.issued_iff]
        rintro ⟨cell, member, sameName, _⟩
        exact fresh cell member sameName
      refine ⟨?_, ?_, ?_, ?_, ?_, by simpa using accounts.endedOnce⟩
      · unfold Named
        rw [List.map_append, List.nodup_append]
        refine ⟨accounts.named, by simp, ?_⟩
        intro old oldMember new newMember same
        obtain ⟨cell, member, cellName⟩ := List.mem_map.mp oldMember
        simp only [List.map_cons, List.map_nil, List.mem_singleton] at newMember
        exact fresh cell member (cellName.trans (same.trans newMember))
      · intro cell member
        rcases List.mem_append.mp member with old | new
        · exact accounts.valid cell old
        · rw [List.mem_singleton] at new
          subst new
          exact ⟨Nat.le_refl 1, fun retired => Bool.noConfusion retired⟩
      · intro other generation
        simp only [List.mem_append, accounts.issued_iff, List.mem_singleton,
          Prod.mk.injEq, or_and_right, exists_or, exists_eq_left]
        refine or_congr Iff.rfl ?_
        simp only [Cell.HandedOut, true_or, and_true]
        constructor
        · rintro ⟨sameName, one⟩
          exact ⟨sameName.symm, by omega, Or.inr one⟩
        · rintro ⟨sameName, positive, atMost⟩
          exact ⟨sameName.symm, by omega⟩
      · intro other generation
        simp only [List.append_nil, List.mem_append, accounts.ended_iff,
          List.mem_singleton, or_and_right, exists_or, exists_eq_left]
        have notOver : ¬ (Cell.mk name 1 true false).Over generation := by
          rintro ⟨positive, beyond⟩
          simp only [Bool.false_eq_true, and_false, or_false] at beyond
          omega
        simp [notOver]
      · simpa only [List.concat_eq_append] using List.Nodup.concat unissued accounts.issuedOnce
  | @free position cell present occupied awake =>
      have member : cell ∈ cells := List.mem_of_getElem? present
      have valid := accounts.valid cell member
      have fresh : cell.handle ∉ ended := by
        unfold Cell.handle
        rw [accounts.ended_iff, accounts.named.exists_iff member]
        rintro ⟨_, beyond⟩
        rcases beyond with less | ⟨_, retired⟩
        · exact absurd less (Nat.lt_irrefl _)
        · rw [awake] at retired
          exact absurd retired (by decide)
      have sameName : (cell.freed limit).name = cell.name := by
        unfold Cell.freed
        split <;> rfl
      have positive := valid.positive
      refine accounts.replace present sameName ?_ ?_ ?_ ?_ ?_
        (by simpa using accounts.issuedOnce)
        (by simpa only [List.concat_eq_append] using List.Nodup.concat fresh accounts.endedOnce)
      · unfold Cell.freed
        split
        · exact ⟨positive, fun _ => rfl⟩
        · exact ⟨Nat.le_succ_of_le positive, fun _ => rfl⟩
      · intro generation
        unfold Cell.freed
        by_cases last : cell.generation = limit
        · simp [Cell.HandedOut, last, occupied]
        · simp [Cell.HandedOut, last, occupied, awake]
          omega
      · intro generation
        unfold Cell.freed
        by_cases last : cell.generation = limit
        · simp [Cell.Over, Cell.handle, last, awake]
          omega
        · simp [Cell.Over, Cell.handle, last, awake]
          omega
      · simp
      · intro handle endedNow
        rw [List.mem_singleton] at endedNow
        exact endedNow ▸ rfl

/-- `later` holds every cell of `earlier` in its place, no younger and never
woken from retirement. -/
def Keeps (earlier later : List (Cell ν)) : Prop :=
  ∀ (position : Nat) (cell : Cell ν),
    earlier[position]? = some cell →
      ∃ kept : Cell ν,
        later[position]? = some kept ∧ kept.name = cell.name ∧
          cell.generation ≤ kept.generation ∧
          (cell.retired = true → kept = cell)

theorem Keeps.refl (cells : List (Cell ν)) : Keeps cells cells :=
  fun _ cell present => ⟨cell, present, rfl, Nat.le_refl _, fun _ => rfl⟩

theorem Keeps.trans {first second third : List (Cell ν)}
    (early : Keeps first second) (late : Keeps second third) :
    Keeps first third := by
  intro position cell present
  obtain ⟨middle, presentMiddle, middleName, middleGeneration, middleRetired⟩ :=
    early position cell present
  obtain ⟨kept, presentKept, keptName, keptGeneration, keptRetired⟩ :=
    late position middle presentMiddle
  refine ⟨kept, presentKept, keptName.trans middleName,
    Nat.le_trans middleGeneration keptGeneration, ?_⟩
  intro retired
  have same := middleRetired retired
  exact (keptRetired (same ▸ retired)).trans same

theorem Keeps.names {earlier later : List (Cell ν)} (keeps : Keeps earlier later) :
    earlier.map Cell.name <+: later.map Cell.name := by
  rw [List.prefix_iff_getElem?]
  intro position inside
  have small : position < earlier.length := by simpa using inside
  obtain ⟨kept, present, name, _⟩ :=
    keeps position earlier[position] (List.getElem?_eq_getElem small)
  simp [present, name]

private theorem keeps_set {cells : List (Cell ν)} {position : Nat}
    {cell next : Cell ν} (present : cells[position]? = some cell)
    (sameName : next.name = cell.name) (older : cell.generation ≤ next.generation)
    (awake : cell.retired = false) :
    Keeps cells (cells.set position next) := by
  have inside := (List.getElem?_eq_some_iff.mp present).1
  intro place found foundHere
  by_cases here : position = place
  · subst here
    rw [present, Option.some.injEq] at foundHere
    subst foundHere
    refine ⟨next, by simp [inside], sameName, older, ?_⟩
    intro retired
    rw [awake] at retired
    exact absurd retired (by decide)
  · exact ⟨found, by simpa [here] using foundHere, rfl, Nat.le_refl _, fun _ => rfl⟩

theorem Step.keeps {limit : Nat} {cells next : List (Cell ν)}
    {issued ended : List (Handle ν)} (step : Step limit cells issued ended next) :
    Keeps cells next := by
  cases step with
  | stay => exact Keeps.refl cells
  | reuse present vacant awake =>
      exact keeps_set present rfl (Nat.le_refl _) awake
  | grow fresh =>
      intro position cell present
      have inside := (List.getElem?_eq_some_iff.mp present).1
      exact ⟨cell, by rw [List.getElem?_append_left inside]; exact present, rfl,
        Nat.le_refl _, fun _ => rfl⟩
  | @free position cell present occupied awake =>
      refine keeps_set present ?_ ?_ awake
      · unfold Cell.freed
        split <;> rfl
      · unfold Cell.freed
        split
        · exact Nat.le_refl _
        · exact Nat.le_succ _

/-- A step that ends a handle of the last generation retires its cell. -/
theorem Step.retires {limit : Nat} {cells next : List (Cell ν)}
    {issued ended : List (Handle ν)} (step : Step limit cells issued ended next)
    {name : ν} (last : (name, limit) ∈ ended) :
    ∃ cell, cell ∈ next ∧ cell.name = name ∧ cell.retired = true := by
  cases step with
  | stay => simp at last
  | reuse present vacant awake => simp at last
  | grow fresh => simp at last
  | @free position cell present occupied awake =>
      have inside := (List.getElem?_eq_some_iff.mp present).1
      simp only [Cell.handle, List.mem_singleton, Prod.mk.injEq] at last
      refine ⟨cell.freed limit, List.mem_set inside _, ?_, ?_⟩
      · unfold Cell.freed
        split <;> exact last.1.symm
      · unfold Cell.freed
        simp [last.2]

/-- One step of a run: what it issued, what it ended and the cells it left. -/
structure Moment (ν : Type) where
  issued : List (Handle ν)
  ended : List (Handle ν)
  after : List (Cell ν)

def cellsAfter (first : List (Cell ν)) (log : List (Moment ν)) : List (Cell ν) :=
  log.foldl (fun _ moment => moment.after) first

def issuedIn (log : List (Moment ν)) : List (Handle ν) := log.flatMap Moment.issued

def endedIn (log : List (Moment ν)) : List (Handle ν) := log.flatMap Moment.ended

inductive Run (limit : Nat) : List (Cell ν) → List (Moment ν) → Prop
  | nil (cells : List (Cell ν)) : Run limit cells []
  | cons {cells : List (Cell ν)} {moment : Moment ν} {rest : List (Moment ν)} :
      Step limit cells moment.issued moment.ended moment.after →
      Run limit moment.after rest →
      Run limit cells (moment :: rest)

theorem run_append {limit : Nat} {past future : List (Moment ν)} :
    ∀ {cells : List (Cell ν)},
      Run limit cells (past ++ future) ↔
        Run limit cells past ∧ Run limit (cellsAfter cells past) future := by
  induction past with
  | nil =>
      intro cells
      simp [cellsAfter, Run.nil]
  | cons moment rest inductionHypothesis =>
      intro cells
      constructor
      · intro run
        cases run with
        | cons step continued =>
            have parts := inductionHypothesis.mp continued
            exact ⟨Run.cons step parts.1, parts.2⟩
      · rintro ⟨run, continued⟩
        cases run with
        | cons step others =>
            exact Run.cons step (inductionHypothesis.mpr ⟨others, continued⟩)

theorem Run.accounts {limit : Nat} {cells : List (Cell ν)} {log : List (Moment ν)}
    (run : Run limit cells log) :
    ∀ {issued ended : List (Handle ν)},
      Accounts cells issued ended →
      Accounts (cellsAfter cells log) (issued ++ issuedIn log)
        (ended ++ endedIn log) := by
  induction run with
  | nil cells =>
      intro issued ended accounts
      simpa [cellsAfter, issuedIn, endedIn] using accounts
  | cons step continued inductionHypothesis =>
      intro issued ended accounts
      have kept := inductionHypothesis (accounts.step step)
      simpa [cellsAfter, issuedIn, endedIn, List.append_assoc] using kept

theorem Run.keeps {limit : Nat} {cells : List (Cell ν)} {log : List (Moment ν)}
    (run : Run limit cells log) :
    Keeps cells (cellsAfter cells log) := by
  induction run with
  | nil cells => exact Keeps.refl cells
  | cons step continued inductionHypothesis =>
      exact step.keeps.trans inductionHypothesis

end Omniweft.Arena
