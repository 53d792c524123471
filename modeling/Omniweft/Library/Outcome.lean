import Mathlib.Logic.Basic

/-!
# Successful outcomes of fallible computations

A check that stops a computation, a computation that is run inside a stateful
one, and the inversion rules that take a successful run apart step by step.
Every rule is an equivalence, so the same rule reads a success off a
hypothesis and rebuilds it in a goal.
-/

namespace Omniweft.Outcome

variable {ε ε' σ β γ : Type}

/-- Stop with `error` when the condition holds. -/
def rejectIf (condition : Bool) (error : ε) : Except ε Unit :=
  if condition then .error error else .ok ()

/-- Run a stateless computation inside a stateful one. -/
def attempt (wrap : ε → ε') (computation : Except ε β) : EStateM ε' σ β :=
  fun state =>
    match computation with
    | .ok value => .ok value state
    | .error error => .error (wrap error) state

@[simp]
theorem rejectIf_eq_ok {condition : Bool} {error : ε} {value : Unit} :
    rejectIf condition error = .ok value ↔ condition = false := by
  cases condition <;> simp [rejectIf]

@[simp]
theorem rejectIf_false (error : ε) :
    rejectIf false error = .ok () :=
  rfl

@[simp]
theorem rejectIf_true (error : ε) :
    rejectIf true error = .error error :=
  rfl

theorem rejectIf_eq_error {condition : Bool} {error raised : ε} :
    rejectIf condition error = .error raised ↔
      condition = true ∧ error = raised := by
  cases condition <;> simp [rejectIf]

theorem bind_eq_ok
    {first : Except ε β} {next : β → Except ε γ} {result : γ} :
    (first >>= next) = .ok result ↔
      ∃ value, first = .ok value ∧ next value = .ok result := by
  cases first with
  | error raised => simp [bind, Except.bind]
  | ok value => simp [bind, Except.bind]

/-- A check that passes is followed by the rest. -/
theorem unit_bind_eq_ok
    {first : Except ε Unit} {next : Unit → Except ε γ} {result : γ} :
    (first >>= next) = .ok result ↔
      first = .ok () ∧ next () = .ok result := by
  rw [bind_eq_ok]
  constructor
  · intro run
    obtain ⟨_, passed, continued⟩ := run
    exact ⟨passed, continued⟩
  · intro both
    exact ⟨(), both⟩

theorem pure_eq_ok {value result : β} :
    (pure value : Except ε β) = .ok result ↔ value = result := by
  simp [pure, Except.pure]

theorem map_eq_ok
    {first : Except ε β} {next : β → γ} {result : γ} :
    (next <$> first) = .ok result ↔
      ∃ value, first = .ok value ∧ next value = result := by
  cases first with
  | error raised => simp [Functor.map, Except.map]
  | ok value => simp [Functor.map, Except.map]

theorem mapError_eq_ok {wrap : ε → ε'} {computation : Except ε β} {value : β} :
    computation.mapError wrap = .ok value ↔ computation = .ok value := by
  cases computation with
  | error raised =>
      change Except.error (wrap raised) = .ok value ↔ _
      simp
  | ok result =>
      change Except.ok result = Except.ok value ↔ _
      simp

theorem bind_eq_error
    {first : Except ε β} {next : β → Except ε γ} {raised : ε} :
    (first >>= next) = .error raised ↔
      first = .error raised ∨
        ∃ value, first = .ok value ∧ next value = .error raised := by
  cases first with
  | error error => simp [bind, Except.bind]
  | ok value => simp [bind, Except.bind]

theorem stateful_bind_eq_ok
    {first : EStateM ε σ β} {next : β → EStateM ε σ γ}
    {state final : σ} {result : γ} :
    (first >>= next) state = .ok result final ↔
      ∃ value middle,
        first state = .ok value middle ∧ next value middle = .ok result final := by
  change EStateM.bind first next state = .ok result final ↔ _
  unfold EStateM.bind
  cases first state with
  | ok value middle =>
      constructor
      · intro continued
        exact ⟨value, middle, rfl, continued⟩
      · rintro ⟨other, later, same, continued⟩
        cases same
        exact continued
  | error raised middle => simp

theorem stateful_bind_eq_error
    {first : EStateM ε σ β} {next : β → EStateM ε σ γ}
    {state final : σ} {raised : ε} :
    (first >>= next) state = .error raised final ↔
      first state = .error raised final ∨
        ∃ value middle,
          first state = .ok value middle ∧
            next value middle = .error raised final := by
  change EStateM.bind first next state = .error raised final ↔ _
  unfold EStateM.bind
  cases first state with
  | ok value middle =>
      constructor
      · intro continued
        exact Or.inr ⟨value, middle, rfl, continued⟩
      · intro stopped
        rcases stopped with impossible | ⟨other, later, same, continued⟩
        · cases impossible
        · cases same
          exact continued
  | error error middle => simp

theorem stateful_bind_of_ok
    {first : EStateM ε σ β} {next : β → EStateM ε σ γ}
    {state middle : σ} {value : β} (passed : first state = .ok value middle) :
    (first >>= next) state = next value middle := by
  change EStateM.bind first next state = _
  rw [EStateM.bind, passed]

theorem attempt_eq_error
    {wrap : ε → ε'} {computation : Except ε β} {state final : σ} {raised : ε'} :
    attempt wrap computation state = .error raised final ↔
      (∃ error, computation = .error error ∧ wrap error = raised) ∧
        state = final := by
  unfold attempt
  cases computation with
  | ok value => simp
  | error error => simp

theorem stateful_pure_eq_ok {value result : β} {state final : σ} :
    (pure value : EStateM ε σ β) state = .ok result final ↔
      value = result ∧ state = final := by
  change EStateM.Result.ok value state = .ok result final ↔ _
  simp

theorem attempt_eq_ok
    {wrap : ε → ε'} {computation : Except ε β}
    {state final : σ} {result : β} :
    attempt wrap computation state = .ok result final ↔
      computation = .ok result ∧ state = final := by
  unfold attempt
  cases computation with
  | ok value => simp
  | error raised => simp

theorem stateful_get_eq_ok {state final value : σ} :
    (get : EStateM ε σ σ) state = .ok value final ↔ state = value ∧ state = final := by
  change EStateM.Result.ok state state = .ok value final ↔ _
  simp

theorem stateful_set_eq_ok {state final next : σ} {value : PUnit} :
    (set next : EStateM ε σ PUnit) state = .ok value final ↔ next = final := by
  change EStateM.Result.ok PUnit.unit next = .ok value final ↔ _
  simp

theorem stateful_modify_eq_ok {state final : σ} {change : σ → σ} {value : PUnit} :
    (modify change : EStateM ε σ PUnit) state = .ok value final ↔ change state = final := by
  change EStateM.Result.ok PUnit.unit (change state) = .ok value final ↔ _
  simp

/-- Whether it succeeds or fails, the computation leaves a state that still has
the property. -/
def Keeps (Invariant : σ → Prop) (computation : EStateM ε σ β) : Prop :=
  ∀ state, Invariant state →
    (∀ value final, computation state = .ok value final → Invariant final) ∧
      ∀ raised final, computation state = .error raised final → Invariant final

section Keeps

variable {Invariant : σ → Prop}

theorem keeps_pure (value : β) : Keeps Invariant (pure value : EStateM ε σ β) := by
  intro state holds
  refine ⟨?_, ?_⟩
  · intro _ final same
    exact (stateful_pure_eq_ok.mp same).2 ▸ holds
  · intro _ final impossible
    cases impossible

theorem keeps_throw (raised : ε) :
    Keeps Invariant (throw raised : EStateM ε σ β) := by
  intro state holds
  refine ⟨?_, ?_⟩
  · intro _ final impossible
    cases impossible
  · intro _ final same
    cases same
    exact holds

theorem keeps_get_bind {next : σ → EStateM ε σ γ}
    (nextKeeps : ∀ state, Invariant state → Keeps Invariant (next state)) :
    Keeps Invariant (get >>= next) := by
  intro state holds
  exact nextKeeps state holds state holds

theorem keeps_set {next : σ} (holds : Invariant next) :
    Keeps Invariant (set next : EStateM ε σ PUnit) := by
  intro state _
  refine ⟨?_, ?_⟩
  · intro _ final same
    exact stateful_set_eq_ok.mp same ▸ holds
  · intro _ final impossible
    cases impossible

theorem keeps_modify {change : σ → σ}
    (kept : ∀ state, Invariant state → Invariant (change state)) :
    Keeps Invariant (modify change : EStateM ε σ PUnit) := by
  intro state holds
  refine ⟨?_, ?_⟩
  · intro _ final same
    exact stateful_modify_eq_ok.mp same ▸ kept state holds
  · intro _ final impossible
    cases impossible

theorem keeps_attempt (wrap : ε → ε') (computation : Except ε β) :
    Keeps Invariant (attempt wrap computation : EStateM ε' σ β) := by
  intro state holds
  refine ⟨?_, ?_⟩
  · intro _ final same
    exact (attempt_eq_ok.mp same).2 ▸ holds
  · intro _ final stopped
    exact (attempt_eq_error.mp stopped).2 ▸ holds

theorem keeps_bind {first : EStateM ε σ β} {next : β → EStateM ε σ γ}
    (firstKeeps : Keeps Invariant first) (nextKeeps : ∀ value, Keeps Invariant (next value)) :
    Keeps Invariant (first >>= next) := by
  intro state holds
  refine ⟨?_, ?_⟩
  · intro _ final continued
    obtain ⟨value, middle, before, after⟩ := stateful_bind_eq_ok.mp continued
    exact (nextKeeps value middle ((firstKeeps state holds).1 _ _ before)).1 _ _ after
  · intro _ final stopped
    rcases stateful_bind_eq_error.mp stopped with early | ⟨value, middle, before, after⟩
    · exact (firstKeeps state holds).2 _ _ early
    · exact (nextKeeps value middle ((firstKeeps state holds).1 _ _ before)).2 _ _ after

/-- Where it fails, the computation leaves a state that still has the property. -/
def Spares (Invariant : σ → Prop) (computation : EStateM ε σ β) : Prop :=
  ∀ state, Invariant state →
    ∀ raised final, computation state = .error raised final → Invariant final

theorem spares_modify (change : σ → σ) :
    Spares Invariant (modify change : EStateM ε σ PUnit) := by
  intro state _ raised final impossible
  cases impossible

theorem spares_bind {first : EStateM ε σ β} {next : β → EStateM ε σ γ}
    (firstKeeps : Keeps Invariant first)
    (nextSpares : ∀ value, Spares Invariant (next value)) :
    Spares Invariant (first >>= next) := by
  intro state holds raised final stopped
  rcases stateful_bind_eq_error.mp stopped with early | ⟨value, middle, before, after⟩
  · exact (firstKeeps state holds).2 _ _ early
  · exact nextSpares value middle ((firstKeeps state holds).1 _ _ before) _ _ after

theorem spares_get_bind {next : σ → EStateM ε σ γ}
    (nextSpares : ∀ state, Invariant state → Spares Invariant (next state)) :
    Spares Invariant (get >>= next) := by
  intro state holds
  exact nextSpares state holds state holds

end Keeps

/-- Every error of the computation has the property. -/
def Fails (Property : ε → Prop) (computation : Except ε β) : Prop :=
  ∀ raised, computation = .error raised → Property raised

/-- Whatever the state it starts from, every error has the property. -/
def Raises (Property : ε → Prop) (computation : EStateM ε σ β) : Prop :=
  ∀ state raised final, computation state = .error raised final → Property raised

section Failures

variable {Property : ε → Prop}

theorem fails_ok (value : β) : Fails Property (.ok value : Except ε β) := by
  intro raised impossible
  cases impossible

theorem fails_pure (value : β) : Fails Property (pure value : Except ε β) :=
  fails_ok value

theorem fails_error {raised : ε} (holds : Property raised) :
    Fails Property (.error raised : Except ε β) := by
  intro other same
  cases same
  exact holds

theorem fails_rejectIf {raised : ε} (condition : Bool) (holds : Property raised) :
    Fails Property (rejectIf condition raised) := by
  intro other stopped
  exact (rejectIf_eq_error.mp stopped).2 ▸ holds

theorem fails_bind_ok {first : Except ε β} {next : β → Except ε γ}
    (firstFails : Fails Property first)
    (nextFails : ∀ value, first = .ok value → Fails Property (next value)) :
    Fails Property (first >>= next) := by
  intro raised stopped
  rcases bind_eq_error.mp stopped with early | ⟨value, passed, late⟩
  · exact firstFails raised early
  · exact nextFails value passed raised late

theorem fails_bind {first : Except ε β} {next : β → Except ε γ}
    (firstFails : Fails Property first) (nextFails : ∀ value, Fails Property (next value)) :
    Fails Property (first >>= next) :=
  fails_bind_ok firstFails fun value _ => nextFails value

theorem fails_foldlM {step : γ → β → Except ε γ}
    (fails : ∀ state item, Fails Property (step state item)) (items : List β) (state : γ) :
    Fails Property (items.foldlM step state) := by
  induction items generalizing state with
  | nil => exact fails_ok state
  | cons item rest inductionHypothesis =>
      rw [List.foldlM_cons]
      exact fails_bind (fails state item) inductionHypothesis

theorem fails_forM {check : β → Except ε PUnit} {items : List β}
    (fails : ∀ item ∈ items, Fails Property (check item)) :
    Fails Property (items.forM check) := by
  induction items with
  | nil => exact fails_pure _
  | cons item rest inductionHypothesis =>
      refine fails_bind (fails item List.mem_cons_self) fun _ => ?_
      exact inductionHypothesis fun other member => fails other (List.mem_cons_of_mem _ member)

theorem fails_map {computation : Except ε β} (change : β → γ)
    (fails : Fails Property computation) : Fails Property (change <$> computation) := by
  intro raised stopped
  cases computation with
  | ok value => cases stopped
  | error error =>
      cases stopped
      exact fails raised rfl

theorem raises_pure (value : β) : Raises Property (pure value : EStateM ε σ β) := by
  intro state raised final impossible
  cases impossible

theorem raises_throw {raised : ε} (holds : Property raised) :
    Raises Property (throw raised : EStateM ε σ β) := by
  intro state other final same
  cases same
  exact holds

theorem raises_get : Raises Property (get : EStateM ε σ σ) := by
  intro state raised final impossible
  cases impossible

theorem raises_set (next : σ) : Raises Property (set next : EStateM ε σ PUnit) := by
  intro state raised final impossible
  cases impossible

theorem raises_modify (change : σ → σ) :
    Raises Property (modify change : EStateM ε σ PUnit) := by
  intro state raised final impossible
  cases impossible

theorem raises_attempt {wrap : ε' → ε} {computation : Except ε' β}
    (fails : Fails (fun error => Property (wrap error)) computation) :
    Raises Property (attempt wrap computation : EStateM ε σ β) := by
  intro state raised final stopped
  obtain ⟨⟨error, failed, same⟩, _⟩ := attempt_eq_error.mp stopped
  exact same ▸ fails error failed

theorem raises_bind {first : EStateM ε σ β} {next : β → EStateM ε σ γ}
    (firstRaises : Raises Property first) (nextRaises : ∀ value, Raises Property (next value)) :
    Raises Property (first >>= next) := by
  intro state raised final stopped
  rcases stateful_bind_eq_error.mp stopped with early | ⟨value, middle, _, late⟩
  · exact firstRaises state raised final early
  · exact nextRaises value middle raised final late

end Failures

theorem forM_eq_ok
    {check : β → Except ε Unit} {items : List β} {value : Unit} :
    items.forM check = .ok value ↔
      ∀ item, item ∈ items → check item = .ok () := by
  induction items with
  | nil =>
      simp [pure, Except.pure]
  | cons head tail inductionHypothesis =>
      change (check head >>= fun _ => tail.forM check) = .ok value ↔ _
      rw [bind_eq_ok]
      simp only [List.forall_mem_cons]
      constructor
      · rintro ⟨_, headOk, tailOk⟩
        exact ⟨headOk, inductionHypothesis.mp tailOk⟩
      · rintro ⟨headOk, tailOk⟩
        exact ⟨(), headOk, inductionHypothesis.mpr tailOk⟩

/-- A fold that succeeds keeps every invariant its steps keep. -/
theorem foldlM_invariant
    {step : γ → β → Except ε γ} {Invariant : γ → Prop}
    (preserved :
      ∀ current item next,
        Invariant current → step current item = .ok next → Invariant next) :
    ∀ (items : List β) {initial final : γ},
      Invariant initial →
      items.foldlM step initial = .ok final →
      Invariant final
  | [], initial, final, holds, run => by
      rw [List.foldlM_nil, pure_eq_ok] at run
      exact run ▸ holds
  | item :: rest, initial, final, holds, run => by
      rw [List.foldlM_cons, bind_eq_ok] at run
      obtain ⟨next, stepped, continued⟩ := run
      exact
        foldlM_invariant preserved rest
          (preserved initial item next holds stepped) continued

/-- A fold whose steps pass in every state passes. -/
theorem foldlM_passes {σ β ε : Type} {step : σ → β → Except ε σ} {items : List β}
    (passes : ∀ item ∈ items, ∀ state, ∃ next, step state item = .ok next) :
    ∀ state, ∃ final, items.foldlM step state = .ok final := by
  induction items with
  | nil => exact fun state => ⟨state, rfl⟩
  | cons item rest inductionHypothesis =>
      intro state
      obtain ⟨next, stepped⟩ := passes item List.mem_cons_self state
      obtain ⟨final, run⟩ := inductionHypothesis
        (fun other member => passes other (List.mem_cons_of_mem _ member)) next
      refine ⟨final, ?_⟩
      rw [List.foldlM_cons, stepped]
      exact run

/-- A loop whose state is a function of the items it has read. -/
theorem foldlM_builds {σ β ε : Type} {step : σ → β → Except ε σ} {build : List β → σ}
    {items : List β}
    (passes :
      ∀ done item rest, items = done ++ item :: rest →
        step (build done) item = .ok (build (done ++ [item]))) :
    items.foldlM step (build []) = .ok (build items) := by
  have whole (rest : List β) :
      ∀ done, items = done ++ rest → rest.foldlM step (build done) = .ok (build items) := by
    induction rest with
    | nil =>
        intro done split
        rw [split, List.append_nil]
        rfl
    | cons item rest inductionHypothesis =>
        intro done split
        rw [List.foldlM_cons, passes done item rest split]
        exact inductionHypothesis (done ++ [item]) (by rw [split, List.append_assoc]; rfl)
  exact whole items [] rfl

end Omniweft.Outcome
