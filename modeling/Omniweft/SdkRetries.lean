import Omniweft.SdkExchanges

/-!
# What an unknown outcome pins

From a POST whose outcome is unknown to a resync, or to the receipt of that POST, a
client has one handle pending, and `submit` posts nothing but its body. This is a fact
about the client alone: it holds whatever the host and the network answer.
-/

namespace Omniweft.Sdk

open Outcome Python

/-- The client knows again where it stands. -/
def Notice.settles : Notice → Bool
  | .returned _ _ => true
  | .resynced => true
  | _ => false

/-- The caller has reconciled. -/
def Notice.resyncs : Notice → Bool
  | .resynced => true
  | _ => false

/-- After an unknown outcome every body that goes out is the one whose outcome is
unknown, until something releases it. -/
def HeldUntil (releases : Notice → Bool) (notices : List Notice) : Prop :=
  ∀ before body middle next after,
    notices = before ++ .unknown body :: middle ++ .posted next :: after →
      (∀ notice ∈ middle, releases notice = false) → next = body

section Clients

variable {α : Type} [Scalar α] {python : Interpreter α}

/-- The pending handle of a client. -/
def Pends (pending : Option PreparedTransaction) (client : Client) : Prop :=
  client.pending = pending

variable {pending : Option PreparedTransaction}

theorem exchange_keeps (mutating : Bool) (arrival : Arrival) :
    Keeps (Pends pending) (exchange python mutating arrival) := by
  refine keeps_get_bind fun client _ => ?_
  unfold remembered
  split
  · exact keeps_pure _
  · exact keeps_bind (keeps_modify fun _ holds => holds) fun _ => keeps_throw _
  · split
    · exact keeps_bind (keeps_modify fun _ holds => holds) fun _ => keeps_throw _
    · exact keeps_throw _

omit [Scalar α] in
theorem remembered_eq_ok {mutating : Bool} {outcome : Except Raised (Value α)}
    {client after : Client} {value : Value α}
    (passed : remembered mutating outcome client = .ok value after) :
    outcome = .ok value ∧ client = after := by
  cases outcome with
  | ok found =>
      obtain ⟨rfl, rfl⟩ := stateful_pure_eq_ok.mp passed
      exact ⟨rfl, rfl⟩
  | error raised =>
      have thrown {error : Raised} {before : EStateM Raised Client PUnit} :
          (before >>= fun _ => (throw error : EStateM Raised Client (Value α))) client ≠
            .ok value after := by
        intro impossible
        obtain ⟨_, _, _, impossible⟩ := stateful_bind_eq_ok.mp impossible
        cases impossible
      cases raised with
      | api code status => exact absurd passed thrown
      | protocol =>
          cases mutating with
          | true => exact absurd passed thrown
          | false => cases passed
      | unknown =>
          cases mutating with
          | true => exact absurd passed thrown
          | false => cases passed

theorem exchange_eq_ok {mutating : Bool} {arrival : Arrival} {client after : Client}
    {value : Value α} (passed : exchange python mutating arrival client = .ok value after) :
    arrived python client.info arrival = .ok value ∧ client = after := by
  obtain ⟨_, _, known, passed⟩ := stateful_bind_eq_ok.mp passed
  obtain ⟨rfl, rfl⟩ := stateful_get_eq_ok.mp known
  exact remembered_eq_ok passed

theorem negotiated_keeps (arrival : Arrival) :
    Keeps (Pends pending) (negotiated python arrival) :=
  keeps_bind (exchange_keeps false arrival) fun _ =>
    keeps_bind (keeps_attempt _ _) fun _ =>
      keeps_get_bind fun _ holds =>
        keeps_bind (keeps_attempt _ _) fun _ =>
          keeps_bind (keeps_set holds) fun _ => keeps_pure _

omit [Scalar α] in
theorem consulted_keeps {β : Type} (name : String) (read : Value α → Except Raised β)
    (agrees : β → Bool) (value : Value α) :
    Keeps (Pends pending) (consulted name read agrees value) :=
  keeps_get_bind fun _ _ =>
    keeps_bind (keeps_attempt _ _) fun _ =>
      keeps_bind (keeps_attempt _ _) fun _ =>
        keeps_bind (keeps_attempt _ _) fun _ =>
          keeps_bind (keeps_attempt _ _) fun _ => keeps_modify fun _ holds => holds

theorem observed_keeps (capabilities : Capabilities) (arrival : Arrival) :
    Keeps (Pends pending) (observed python capabilities arrival) :=
  keeps_bind (exchange_keeps false arrival) fun _ => consulted_keeps _ _ _ _

theorem runtimeTold_keeps (capabilities : Capabilities) (arrival : Arrival) :
    Keeps (Pends pending) (runtimeTold python capabilities arrival) :=
  keeps_bind (exchange_keeps false arrival) fun _ => consulted_keeps _ _ _ _

theorem statusTold_keeps (principal : Text) (arrival : Arrival) :
    Keeps (Pends pending) (statusTold python principal arrival) :=
  keeps_bind (exchange_keeps false arrival) fun _ =>
    keeps_bind (keeps_attempt _ _) fun _ =>
      keeps_get_bind fun _ holds =>
        keeps_bind (keeps_attempt _ _) fun _ =>
          keeps_bind (keeps_attempt _ _) fun _ => keeps_set holds

/-- A receipt that `submit` returns was read from an answer, and nothing is pending
after it. -/
theorem submitted_eq_ok {capabilities : Capabilities} {prepared : PreparedTransaction}
    {arrival : Arrival} {client after : Client} {receipt : Receipt}
    (returned : submitted python capabilities prepared arrival client = .ok receipt after) :
    after.pending = none ∧
      ∃ value next,
        arrived python client.info arrival = .ok value ∧
          readSubmitted client capabilities prepared value = .ok (receipt, next) := by
  obtain ⟨value, middle, exchanged, returned⟩ := stateful_bind_eq_ok.mp returned
  obtain ⟨passed, rfl⟩ := exchange_eq_ok exchanged
  obtain ⟨_, _, known, returned⟩ := stateful_bind_eq_ok.mp returned
  obtain ⟨rfl, rfl⟩ := stateful_get_eq_ok.mp known
  cases accepted : readSubmitted client capabilities prepared value with
  | error raised =>
      rw [accepted] at returned
      obtain ⟨_, _, _, impossible⟩ := stateful_bind_eq_ok.mp returned
      cases impossible
  | ok both =>
      rw [accepted] at returned
      obtain ⟨_, _, stored, returned⟩ := stateful_bind_eq_ok.mp returned
      obtain ⟨rfl, rfl⟩ := stateful_pure_eq_ok.mp returned
      rw [← stateful_set_eq_ok.mp stored]
      exact ⟨rfl, value, both.2, passed, accepted⟩

theorem submitted_spares (capabilities : Capabilities) (prepared : PreparedTransaction)
    (arrival : Arrival) :
    Spares (Pends pending) (submitted python capabilities prepared arrival) := by
  refine spares_bind (exchange_keeps true arrival) fun value => ?_
  refine spares_get_bind fun client holds => ?_
  split
  · intro state _ raised final impossible
    cases impossible
  · intro state before
    have doubting : Pends pending { client with uncertain := true } := holds
    exact (keeps_bind (keeps_set doubting) (fun _ => keeps_throw Raised.unknown) state before).2

theorem nextSequence_keeps : Keeps (Pends pending) nextSequence := by
  have doubts {value : Type} (raised : Raised) :
      Keeps (Pends pending)
        (do
          modify fun client => { client with uncertain := true }
          throw raised : EStateM Raised Client value) :=
    keeps_bind (keeps_modify fun _ holds => holds) fun _ => keeps_throw _
  refine keeps_get_bind fun client _ => ?_
  split
  · split
    · exact doubts _
    · exact keeps_pure _
  · exact doubts _

theorem drafted_keeps (capabilities : Capabilities) (limit : Nat)
    (operations : List (Operation α)) (expectedRevision : Int)
    (identifier : Except Raised Text) :
    Keeps (Pends pending)
      (drafted capabilities limit operations expectedRevision identifier) :=
  keeps_bind (keeps_attempt _ _) fun _ =>
    keeps_bind (keeps_attempt _ _) fun _ =>
      keeps_bind nextSequence_keeps fun _ =>
        keeps_bind (keeps_attempt _ _) fun _ => keeps_get_bind fun _ _ => keeps_pure _

theorem prepare_spares (capabilities : Capabilities) (operations : List (Operation α))
    (expectedRevision : Int) (transactionId : Option Text) (generated : Text) :
    Spares (Pends pending)
      (prepare python capabilities operations expectedRevision transactionId generated) := by
  refine spares_get_bind fun client _ => ?_
  refine spares_bind (keeps_attempt _ _) fun _ => ?_
  refine spares_bind (drafted_keeps _ _ _ _ _) fun _ => ?_
  refine spares_bind (keeps_attempt _ _) fun _ => ?_
  refine spares_bind (keeps_attempt _ _) fun _ => ?_
  intro state _ raised final impossible
  cases impossible

/-- A handle is only made where none is pending. -/
theorem prepare_pending {capabilities : Capabilities} {operations : List (Operation α)}
    {expectedRevision : Int} {transactionId : Option Text} {generated : Text}
    {client after : Client} {prepared : PreparedTransaction}
    (built :
      prepare python capabilities operations expectedRevision transactionId generated client =
        .ok prepared after) :
    client.pending = none ∧ after.pending = some prepared := by
  unfold prepare at built
  simp only [stateful_bind_eq_ok, attempt_eq_ok, rejectIf_eq_ok, stateful_get_eq_ok,
    stateful_modify_eq_ok, stateful_pure_eq_ok] at built
  obtain ⟨_, _, ⟨rfl, rfl⟩, _, _, ⟨free, rfl⟩, _, _, _, _, _, _, _, _, _, _, _, rfl, rfl,
    rfl⟩ := built
  refine ⟨?_, rfl⟩
  simpa using (Bool.or_eq_false_iff.mp free).2

end Clients

section Parties

variable {α : Type} [Scalar α] {python : Interpreter α}

/-- The handle that is pending is one that `submit` posts as `body`. -/
def Pinned (python : Interpreter α) (party : Party α) (body : Text) : Prop :=
  ∃ number prepared,
    party.held = some number ∧ party.handles[number]? = some prepared ∧
      posted python prepared = .ok body

theorem Pinned.unique {party : Party α} {first second : Text}
    (one : Pinned python party first) (other : Pinned python party second) :
    first = second := by
  obtain ⟨number, prepared, held, found, body⟩ := one
  obtain ⟨number', prepared', held', found', body'⟩ := other
  obtain rfl : number = number' := Option.some.inj (held.symm.trans held')
  obtain rfl : prepared = prepared' := Option.some.inj (found.symm.trans found')
  exact Except.ok.inj (body.symm.trans body')

/-- What a client keeps between two of its requests. -/
structure Upright (python : Interpreter α) (party : Party α) : Prop where
  pending : party.held.isSome = true → party.client.pending.isSome = true
  submitting :
    ∀ number post body capabilities,
      party.errand = some (.submission number post body capabilities) →
        party.held = some number ∧ Pinned python party body
  awaiting :
    ∀ number, party.errand = some (.capabilities (some (.submit number))) →
      ∀ other, party.held = some other → other = number

/-- What a step makes of the pinned body. -/
inductive Handled (python : Interpreter α) (party : Party α) (turn : Turn α) : Prop where
  | quiet :
      turn.notices = [] →
      (∀ body, Pinned python party body → Pinned python turn.party body) →
      Handled python party turn
  | posted (body : Text) :
      turn.notices = [.posted body] →
      Pinned python turn.party body →
      (∀ other, Pinned python party other → Pinned python turn.party other) →
      Handled python party turn
  | unknown (body : Text) :
      turn.notices = [.unknown body] →
      Pinned python turn.party body →
      (∀ other, Pinned python party other → Pinned python turn.party other) →
      Handled python party turn
  | settled (notice : Notice) :
      turn.notices = [notice] → notice.settles = true → Handled python party turn

/-- A step that keeps a client upright, with what it makes of the pinned body and of the
POST it waits for. -/
structure Orderly (python : Interpreter α) (post : Nat) (party : Party α) (turn : Turn α) :
    Prop where
  upright : Upright python turn.party
  handled : Handled python party turn
  waiting :
    ∀ number other body capabilities,
      turn.party.errand = some (.submission number other body capabilities) →
        party.errand = turn.party.errand ∨ (other = post ∧ turn.post = some body)

theorem Upright.over {party : Party α} (upright : Upright python party) (post : Nat)
    {client : Client} (same : client.pending = party.client.pending) :
    Orderly python post party (party.over client) := by
  refine ⟨⟨?_, ?_, ?_⟩, .quiet rfl fun _ pinned => pinned, ?_⟩
  · intro held
    change client.pending.isSome = true
    rw [same]
    exact upright.pending held
  · intro _ _ _ _ waiting
    cases waiting
  · intro _ waiting
    cases waiting
  · intro _ _ _ _ waiting
    cases waiting

/-- The client waits for an answer that is not the one to a POST of a transaction. -/
theorem Upright.waits {party : Party α} (upright : Upright python party) (post : Nat)
    {errand : Errand α} (reading : ∀ number post body capabilities,
      errand ≠ .submission number post body capabilities)
    (awaiting : ∀ number, errand = .capabilities (some (.submit number)) →
      ∀ other, party.held = some other → other = number) :
    Orderly python post party (party.waits errand) := by
  refine ⟨⟨upright.pending, ?_, ?_⟩, .quiet rfl fun _ pinned => pinned, ?_⟩
  · intro number post body capabilities waiting
    exact absurd (Option.some.inj waiting) (reading number post body capabilities)
  · intro number waiting
    exact awaiting number (Option.some.inj waiting)
  · intro number post body capabilities waiting
    exact absurd (Option.some.inj waiting) (reading number post body capabilities)

theorem Upright.proceed {party : Party α} (upright : Upright python party) (post : Nat)
    (capabilities : Capabilities) (purpose : Purpose α)
    (awaiting : ∀ number, purpose = .submit number →
      ∀ other, party.held = some other → other = number) :
    Orderly python post party (party.proceed python post capabilities purpose) := by
  cases purpose with
  | observe resync =>
      exact upright.waits post (fun _ _ _ _ impossible => by cases impossible)
        (fun _ impossible => by cases impossible)
  | runtime =>
      exact upright.waits post (fun _ _ _ _ impossible => by cases impossible)
        (fun _ impossible => by cases impossible)
  | status =>
      exact upright.waits post (fun _ _ _ _ impossible => by cases impossible)
        (fun _ impossible => by cases impossible)
  | prepare operations expectedRevision transactionId generated =>
      unfold Party.proceed
      dsimp only
      split
      · rename_i prepared client built
        obtain ⟨free, pending⟩ := prepare_pending built
        refine ⟨⟨?_, ?_, ?_⟩, .quiet rfl ?_, ?_⟩
        · intro _
          change client.pending.isSome = true
          rw [pending]
          rfl
        · intro _ _ _ _ waiting
          cases waiting
        · intro _ waiting
          cases waiting
        · intro body pinned
          obtain ⟨number, _, held, _⟩ := pinned
          have some_ := upright.pending (by rw [held]; rfl)
          rw [free] at some_
          cases some_
        · intro _ _ _ _ waiting
          cases waiting
      · rename_i raised client stopped
        exact upright.over post (prepare_spares _ _ _ _ _ party.client rfl raised client stopped)
  | submit number =>
      have kept {turn : Turn α} (held : turn.party.held = some number)
          (handles : turn.party.handles = party.handles) :
          ∀ other, Pinned python party other → Pinned python turn.party other := by
        intro other pinned
        obtain ⟨pending, prepared, holds, found, body⟩ := pinned
        obtain rfl := awaiting number rfl pending holds
        exact ⟨pending, prepared, held, handles ▸ found, body⟩
      unfold Party.proceed
      dsimp only
      split
      · exact upright.over post rfl
      · rename_i prepared found
        split
        · refine ⟨⟨fun _ => rfl, ?_, ?_⟩, .quiet rfl (kept rfl rfl), ?_⟩
          · intro _ _ _ _ waiting
            cases waiting
          · intro _ waiting
            cases waiting
          · intro _ _ _ _ waiting
            cases waiting
        · rename_i body built
          refine ⟨⟨fun _ => rfl, ?_, ?_⟩,
            .posted body rfl ⟨number, prepared, rfl, found, built⟩ (kept rfl rfl), ?_⟩
          · intro other post' body' capabilities' waiting
            cases waiting
            exact ⟨rfl, number, prepared, rfl, found, built⟩
          · intro _ waiting
            cases waiting
          · intro other post' body' capabilities' waiting
            cases waiting
            exact Or.inr ⟨rfl, rfl⟩

theorem Upright.ensure {party : Party α} (upright : Upright python party) (post : Nat)
    (purpose : Purpose α)
    (awaiting : ∀ number, purpose = .submit number →
      ∀ other, party.held = some other → other = number) :
    Orderly python post party (party.ensure python post purpose) := by
  unfold Party.ensure
  split
  · exact upright.proceed post _ purpose awaiting
  · refine upright.waits post (fun _ _ _ _ impossible => by cases impossible) ?_
    intro number same
    exact awaiting number (Option.some.inj (Errand.capabilities.inj same))

theorem Upright.begin {party : Party α} (upright : Upright python party) (post : Nat)
    (method : Method α) : Orderly python post party (party.begin python post method) := by
  have reads (errand : Errand α)
      (reading : ∀ number post body capabilities,
        errand ≠ .submission number post body capabilities)
      (other : ∀ number, errand ≠ .capabilities (some (.submit number))) :
      Orderly python post party (party.waits errand) :=
    upright.waits post reading fun number same => absurd same (other number)
  cases method with
  | capabilities => exact reads _ (by simp) (by simp)
  | observe => exact upright.ensure post _ (by simp)
  | runtime => exact upright.ensure post _ (by simp)
  | policyStatus => exact reads _ (by simp) (by simp)
  | resync => exact reads _ (by simp) (by simp)
  | resyncPolicy => exact reads _ (by simp) (by simp)
  | prepare operations expectedRevision transactionId generated =>
      unfold Party.begin
      dsimp only
      split
      · exact upright.over post rfl
      · exact upright.ensure post _ (by simp)
  | submit owner number =>
      unfold Party.begin
      dsimp only
      split
      · exact upright.over post rfl
      · rename_i free
        refine upright.ensure post _ fun same known other held => ?_
        cases known
        simp only [Bool.or_eq_true, not_or, Bool.not_eq_true] at free
        simpa [held] using free.2

theorem Upright.told {party : Party α} (upright : Upright python party) (post : Nat)
    (resync : Bool)
    {computation : EStateM Raised Client Unit}
    (keeps : Keeps (Pends party.client.pending) computation) :
    Orderly python post party (party.told resync (computation party.client)) := by
  obtain ⟨passes, stops⟩ := keeps party.client rfl
  cases result : computation party.client with
  | error raised client => exact upright.over post (stops raised client result)
  | ok value client =>
      unfold Party.told
      dsimp only
      split
      · refine ⟨⟨?_, ?_, ?_⟩, .settled .resynced rfl rfl, ?_⟩
        · intro held
          cases held
        · intro _ _ _ _ waiting
          cases waiting
        · intro _ waiting
          cases waiting
        · intro _ _ _ _ waiting
          cases waiting
      · exact upright.over post (passes value client result)

theorem Upright.read {party : Party α} (upright : Upright python party) (post : Nat)
    (arrival : Arrival) : Orderly python post party (party.read python post arrival) := by
  unfold Party.read
  split
  · rename_i purpose waiting
    obtain ⟨passes, stops⟩ := @negotiated_keeps _ _ python _ arrival party.client rfl
    split
    · rename_i raised client stopped
      exact upright.over post (stops raised client stopped)
    · rename_i capabilities client passed
      have same := passes capabilities client passed
      split
      · exact upright.over post same
      · rename_i purpose
        have begun : Upright python { party with client := client, errand := none } := by
          refine ⟨?_, ?_, ?_⟩
          · intro held
            change client.pending.isSome = true
            rw [same]
            exact upright.pending held
          · intro _ _ _ _ impossible
            cases impossible
          · intro _ impossible
            cases impossible
        obtain ⟨final, handled, posts⟩ := begun.proceed post capabilities purpose
          fun number known => upright.awaiting number (known ▸ waiting)
        refine ⟨final, ?_, ?_⟩
        · cases handled with
          | quiet none kept => exact .quiet none kept
          | posted body one pinned kept => exact .posted body one pinned kept
          | unknown body one pinned kept => exact .unknown body one pinned kept
          | settled notice one settles => exact .settled notice one settles
        · intro number other body capabilities' waits
          rcases posts number other body capabilities' waits with same | posted
          · rw [waits] at same
            cases same
          · exact Or.inr posted
  · exact upright.told post _ (observed_keeps _ _)
  · exact upright.told post _ (runtimeTold_keeps _ _)
  · exact upright.told post _ (statusTold_keeps _ _)
  · exact ⟨upright, .quiet rfl fun _ pinned => pinned, fun _ _ _ _ _ => Or.inl rfl⟩

theorem Upright.finish {party : Party α} (upright : Upright python party) (post : Nat)
    (arrival : Arrival) : Orderly python post party (party.finish python arrival) := by
  unfold Party.finish
  split
  · rename_i number other body capabilities waiting
    obtain ⟨held, pinned⟩ := upright.submitting number other body capabilities waiting
    split
    · exact ⟨upright, .quiet rfl fun _ pinned => pinned, fun _ _ _ _ _ => Or.inl rfl⟩
    · rename_i prepared found
      have spares :=
        @submitted_spares _ _ python _ capabilities prepared arrival party.client rfl
      split
      · refine ⟨⟨?_, ?_, ?_⟩, .settled _ rfl rfl, ?_⟩
        · intro impossible
          cases impossible
        · intro _ _ _ _ impossible
          cases impossible
        · intro _ impossible
          cases impossible
        · intro _ _ _ _ impossible
          cases impossible
      · rename_i client stopped
        have ended := upright.over post (spares _ client stopped)
        exact ⟨ended.upright, .unknown body rfl pinned fun _ pinned => pinned, ended.waiting⟩
      · rename_i raised client _ stopped
        exact upright.over post (spares raised client stopped)
  · exact ⟨upright, .quiet rfl fun _ pinned => pinned, fun _ _ _ _ _ => Or.inl rfl⟩

/-- One step of a client. -/
theorem Upright.act {party : Party α} (upright : Upright python party) (post : Nat)
    (event : Event α) : Orderly python post party (party.act python post event) := by
  cases event with
  | called method =>
      unfold Party.act
      dsimp only
      split
      · exact ⟨upright, .quiet rfl fun _ pinned => pinned, fun _ _ _ _ _ => Or.inl rfl⟩
      · exact upright.begin post method
  | read arrival => exact upright.read post arrival
  | finished arrival => exact upright.finish post arrival

/-- What is known of a client and of all it has told. -/
structure Guarded (python : Interpreter α) (notices : List Notice) (party : Party α) :
    Prop where
  upright : Upright python party
  pinned :
    ∀ before body middle, notices = before ++ .unknown body :: middle →
      (∀ notice ∈ middle, notice.settles = false) → Pinned python party body
  held : HeldUntil Notice.settles notices

theorem Guarded.fresh {party : Party α} (fresh : party.Fresh) :
    Guarded python [] party := by
  obtain ⟨_, _, free, idle⟩ := fresh
  refine ⟨⟨?_, ?_, ?_⟩, ?_, ?_⟩
  · intro held
    rw [free] at held
    cases held
  · intro _ _ _ _ waiting
    rw [idle] at waiting
    cases waiting
  · intro _ waiting
    rw [idle] at waiting
    cases waiting
  · intro before body middle split
    exact absurd split (by simp)
  · intro before body middle next after split
    exact absurd split (by simp)

/-- The last of a list, seen from an entry of it. -/
theorem split_last {γ : Type} {items before rest : List γ} {last entry : γ}
    (split : items ++ [last] = before ++ entry :: rest) :
    (rest = [] ∧ last = entry ∧ items = before) ∨
      ∃ front, rest = front ++ [last] ∧ items = before ++ entry :: front := by
  rcases List.eq_nil_or_concat rest with rfl | ⟨front, final, rfl⟩
  · obtain ⟨same, ends⟩ := List.append_inj' split rfl
    exact Or.inl ⟨rfl, List.singleton_inj.mp ends, same⟩
  · rw [List.concat_eq_append, ← List.cons_append, ← List.append_assoc] at split
    obtain ⟨same, ends⟩ := List.append_inj' split rfl
    refine Or.inr ⟨front, ?_, same⟩
    rw [List.concat_eq_append, List.singleton_inj.mp ends]

/-- What a client has told grows by one notice. -/
theorem Guarded.snoc {notices : List Notice} {party next : Party α}
    (guarded : Guarded python notices party) (upright : Upright python next)
    (notice : Notice)
    (kept : notice.settles = false →
      ∀ body, Pinned python party body → Pinned python next body)
    (posted : ∀ body, notice = .posted body → Pinned python next body)
    (unknown : ∀ body, notice = .unknown body → Pinned python next body) :
    Guarded python (notices ++ [notice]) next := by
  refine ⟨upright, ?_, ?_⟩
  · intro before body middle split quiet
    rcases split_last split with ⟨_, last, _⟩ | ⟨front, rfl, earlier⟩
    · exact unknown body last
    · have still := quiet notice (by simp)
      exact kept still body (guarded.pinned before body front earlier fun other member =>
        quiet other (List.mem_append_left _ member))
  · intro before body middle next' after split quiet
    rcases split_last split with ⟨_, last, earlier⟩ | ⟨front, _, earlier⟩
    · have still : notice.settles = false := by rw [last]; rfl
      exact (posted next' last).unique
        (kept still body (guarded.pinned before body middle earlier quiet))
    · exact guarded.held before body middle next' front earlier quiet

theorem Guarded.turn {notices : List Notice} {party : Party α} {post : Nat} {turn : Turn α}
    (guarded : Guarded python notices party) (orderly : Orderly python post party turn) :
    Guarded python (notices ++ turn.notices) turn.party := by
  obtain ⟨upright, handled, _⟩ := orderly
  cases handled with
  | quiet none kept =>
      rw [none, List.append_nil]
      refine ⟨upright, ?_, guarded.held⟩
      intro before body middle split quiet
      exact kept body (guarded.pinned before body middle split quiet)
  | posted body one pinned kept =>
      rw [one]
      refine guarded.snoc upright _ (fun _ => kept) ?_ (fun _ impossible => by cases impossible)
      intro other same
      cases same
      exact pinned
  | unknown body one pinned kept =>
      rw [one]
      refine guarded.snoc upright _ (fun _ => kept) (fun _ impossible => by cases impossible) ?_
      intro other same
      cases same
      exact pinned
  | settled notice one settles =>
      rw [one]
      refine guarded.snoc upright _ ?_ ?_ ?_
      · intro still
        rw [settles] at still
        cases still
      · intro body same
        rw [same] at settles
        cases settles
      · intro body same
        rw [same] at settles
        cases settles

/-- A method returns no receipt before its POST has ended. -/
theorem proceed_returns {party : Party α} {post : Nat} {capabilities : Capabilities}
    {purpose : Purpose α} {prepared : PreparedTransaction} {receipt : Receipt} :
    .returned prepared receipt ∉
      (party.proceed python post capabilities purpose).notices := by
  cases purpose with
  | observe resync => simp [Party.proceed, Party.waits]
  | runtime => simp [Party.proceed, Party.waits]
  | status => simp [Party.proceed, Party.waits]
  | prepare operations expectedRevision transactionId generated =>
      unfold Party.proceed
      dsimp only
      split
      · simp
      · simp [Party.over]
  | submit number =>
      unfold Party.proceed
      dsimp only
      split
      · simp [Party.over]
      · split
        · simp
        · simp

theorem ensure_returns {party : Party α} {post : Nat} {purpose : Purpose α}
    {prepared : PreparedTransaction} {receipt : Receipt} :
    .returned prepared receipt ∉ (party.ensure python post purpose).notices := by
  unfold Party.ensure
  split
  · exact proceed_returns
  · simp [Party.waits]

theorem begin_returns {party : Party α} {post : Nat} {method : Method α}
    {prepared : PreparedTransaction} {receipt : Receipt} :
    .returned prepared receipt ∉ (party.begin python post method).notices := by
  cases method with
  | capabilities => simp [Party.begin, Party.waits]
  | observe => exact ensure_returns
  | runtime => exact ensure_returns
  | policyStatus => simp [Party.begin, Party.waits]
  | resync => simp [Party.begin, Party.waits]
  | resyncPolicy => simp [Party.begin, Party.waits]
  | prepare operations expectedRevision transactionId generated =>
      unfold Party.begin
      dsimp only
      split
      · simp [Party.over]
      · exact ensure_returns
  | submit owner number =>
      unfold Party.begin
      dsimp only
      split
      · simp [Party.over]
      · exact ensure_returns

theorem told_returns {party : Party α} {resync : Bool}
    {result : EStateM.Result Raised Client Unit} {prepared : PreparedTransaction}
    {receipt : Receipt} :
    .returned prepared receipt ∉ (party.told resync result).notices := by
  cases result with
  | error raised client => simp [Party.told, Party.over]
  | ok value client =>
      unfold Party.told
      dsimp only
      split
      · simp
      · simp [Party.over]

theorem read_returns {party : Party α} {post : Nat} {arrival : Arrival}
    {prepared : PreparedTransaction} {receipt : Receipt} :
    .returned prepared receipt ∉ (party.read python post arrival).notices := by
  unfold Party.read
  split
  · split
    · simp [Party.over]
    · split
      · simp [Party.over]
      · exact proceed_returns
  · exact told_returns
  · exact told_returns
  · exact told_returns
  · simp

/-- A receipt is returned by the end of the POST that the client waits for. -/
theorem act_returns {party : Party α} {post : Nat} {event : Event α}
    {prepared : PreparedTransaction} {receipt : Receipt}
    (told : .returned prepared receipt ∈ (party.act python post event).notices) :
    ∃ arrival number other body capabilities after,
      event = .finished arrival ∧
        party.errand = some (.submission number other body capabilities) ∧
        party.handles[number]? = some prepared ∧
        submitted python capabilities prepared arrival party.client = .ok receipt after := by
  cases event with
  | called method =>
      unfold Party.act at told
      dsimp only at told
      split at told
      · cases told
      · exact absurd told begin_returns
  | read arrival => exact absurd told read_returns
  | finished arrival =>
      unfold Party.act Party.finish at told
      dsimp only at told
      split at told
      · rename_i number other body capabilities waiting
        split at told
        · cases told
        · rename_i handle found
          split at told
          · rename_i returned after passed
            simp only [List.mem_singleton, Notice.returned.injEq] at told
            obtain ⟨rfl, rfl⟩ := told
            exact ⟨arrival, number, other, body, capabilities, after, rfl, waiting, found,
              passed⟩
          · simp at told
          · simp [Party.over] at told
      · cases told

end Parties

end Omniweft.Sdk
