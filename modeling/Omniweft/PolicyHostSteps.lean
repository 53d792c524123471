import Omniweft.PolicyHost

/-!
# The sections of the policy host

What the authentication of a connection records, and what a transaction section does
with the counter and the retry window of the session it finds.
-/

namespace Omniweft.PolicyHost

open Outcome Commands Transactions Policy

variable {α σ : Type}

theorem foldl_or_eq_zero (bytes : List UInt8) (seed : UInt8) :
    bytes.foldl (· ||| ·) seed = 0 ↔ seed = 0 ∧ ∀ byte ∈ bytes, byte = 0 := by
  induction bytes generalizing seed with
  | nil => simp
  | cons head tail inductionHypothesis =>
      rw [List.foldl_cons, inductionHypothesis, UInt8.or_eq_zero_iff,
        List.forall_mem_cons, and_assoc]

theorem sameSecret_iff {supplied expected : Text} :
    sameSecret supplied expected = true ↔ supplied = expected := by
  unfold sameSecret
  by_cases length : supplied.length = expected.length
  · rw [if_neg (by simpa using length), beq_iff_eq, foldl_or_eq_zero]
    induction supplied generalizing expected with
    | nil =>
        have empty : expected = [] := List.length_eq_zero_iff.mp length.symm
        simp [empty]
    | cons head tail inductionHypothesis =>
        cases expected with
        | nil => simp at length
        | cons first rest =>
            have shorter := inductionHypothesis (by simpa using length)
            simp only [true_and] at shorter
            rw [List.zipWith_cons_cons, List.forall_mem_cons, shorter,
              UInt8.xor_eq_zero_iff, List.cons.injEq]
            simp
  · rw [if_pos (by simpa using length)]
    refine iff_of_false (by decide) ?_
    intro same
    exact length (congrArg List.length same)

theorem current_eq_ok {sessions : PerPrincipal Session} {principal : Principal}
    {epoch : Text} {deadline : Nat} {moment : Moment} {done : Unit}
    (passed : current sessions principal epoch deadline moment = .ok done) :
    (sessions principal).epoch = epoch ∧
      moment.compared < (sessions principal).expires := by
  unfold current at passed
  obtain ⟨_, _, passed⟩ := bind_eq_ok.mp passed
  obtain ⟨_, same, live⟩ := bind_eq_ok.mp passed
  simp only [rejectIf_eq_ok, Bool.not_eq_false', decide_eq_false_iff_not, not_le,
    sameSecret_iff] at same live
  exact ⟨same, live⟩

theorem matching_eq_some {sessions : PerPrincipal Session} {supplied : Text}
    {principal : Principal} (found : matching sessions supplied = some principal) :
    supplied = (sessions principal).token := by
  have loop : ∀ (principals : List Principal) (seed : Option Principal),
      (∀ earlier, seed = some earlier → supplied = (sessions earlier).token) →
      ∀ last,
        principals.foldl
            (fun found principal =>
              if sameSecret supplied (sessions principal).token then some principal
              else found)
            seed =
          some last →
        supplied = (sessions last).token := by
    intro principals
    induction principals with
    | nil =>
        intro seed known last same
        exact known last same
    | cons head tail inductionHypothesis =>
        intro seed known
        refine inductionHypothesis _ ?_
        intro earlier same
        dsimp only at same
        split at same
        · rename_i equal
          obtain rfl : head = earlier := Option.some.inj same
          exact sameSecret_iff.mp equal
        · exact known earlier same
  exact loop _ none (by simp) principal found

/-- A connection carries the token and the epoch of one session. -/
theorem authenticate_eq_ok {config : Config} {sessions : PerPrincipal Session}
    {request : Request} {deadline : Nat} {moment : Moment} {connection : Connection}
    (accepted :
      authenticate config sessions request deadline moment = .ok connection) :
    bearer connection.request = some (sessions connection.principal).token ∧
      connection.epoch = (sessions connection.principal).epoch := by
  unfold authenticate at accepted
  obtain ⟨principal, known, accepted⟩ := bind_eq_ok.mp accepted
  obtain ⟨_, _, accepted⟩ := bind_eq_ok.mp accepted
  obtain ⟨route, _, accepted⟩ := bind_eq_ok.mp accepted
  rw [← pure_eq_ok.mp accepted]
  refine ⟨?_, rfl⟩
  unfold authenticated at known
  split at known
  · rename_i found same
    obtain rfl : found = principal := Except.ok.inj known
    obtain ⟨supplied, presented, matched⟩ := Option.bind_eq_some_iff.mp same
    rw [presented, matching_eq_some matched]
  · exact absurd known (by simp)

def Attempt.epoch (attempt : Attempt α) : Text :=
  attempt.envelope.idempotency.epoch

def Attempt.sequence (attempt : Attempt α) : UInt64 :=
  attempt.envelope.idempotency.sequence

/-- What the callback did, if it ran. -/
def Attempt.ran (attempt : Attempt α) : Option (Except Thrown Receipt) :=
  attempt.call.bind Retry.Event.ran

def Event.callIn (epoch : Text) (event : Event α) : Option Retry.Event :=
  match event.act with
  | .attempted attempt => if attempt.epoch = epoch then attempt.call else none
  | _ => none

/-- What reached the counter of an epoch. -/
def calls (epoch : Text) (log : List (Event α)) : List Retry.Event :=
  log.filterMap (Event.callIn epoch)

/-- The session knows how many callbacks ran in its epoch. -/
structure Counts (config : Config) (session : Session) (past : List Retry.Event) :
    Prop where
  tight : Numbering.Tight Retry.Event.executed Retry.Event.number past
  retained :
    config.retainedRetries = true →
      Retry.Tracks session.retries past ∧ session.sequence = session.retries.next
  volatile :
    config.retainedRetries = false →
      (session.exhausted = false ∧
          session.sequence.toNat = past.countP Retry.Event.executed + 1) ∨
        (session.exhausted = true ∧ past.countP Retry.Event.executed + 1 = 2 ^ 64)

theorem counts_renewed (config : Config) (session : Session) (issue : Issue) :
    Counts config (renewed config session issue) [] where
  tight := Numbering.Tight.nil
  retained := fun _ => ⟨Retry.tracks_reset session.retries, rfl⟩
  volatile := fun _ => Or.inl ⟨rfl, rfl⟩

/-- A session that was not used: the counters stand, and of what it retains only
the expired goes. -/
structure Kept (now : Nat) (before after : Session) : Prop where
  token : after.token = before.token
  epoch : after.epoch = before.epoch
  expires : after.expires = before.expires
  sequence : after.sequence = before.sequence
  exhausted : after.exhausted = before.exhausted
  next : after.retries.next = before.retries.next
  spent : after.retries.exhausted = before.retries.exhausted
  entries :
    ∀ entry ∈ before.retries.entries, now < entry.deadline →
      entry ∈ after.retries.entries

theorem Kept.refl (now : Nat) (session : Session) : Kept now session session :=
  ⟨rfl, rfl, rfl, rfl, rfl, rfl, rfl, fun _ member _ => member⟩

theorem expire_keeps {now : Nat} {window : Retry.Window} {entry : Retry.Entry}
    (member : entry ∈ window.entries) (live : now < entry.deadline) :
    entry ∈ (Retry.expire now window).entries := by
  simp only [Retry.expire, Vector.mem_map]
  refine ⟨entry, member, if_neg ?_⟩
  simp only [Bool.and_eq_true, decide_eq_true_eq, not_and, not_le]
  exact fun _ => live

/-- What a transaction that reached the counter of its session did. -/
structure Served (config : Config) (host : Host σ) (principal : Principal)
    (sequence : UInt64) (moment : Moment) (past : List Retry.Event)
    (done : Transacted σ) (call : Retry.Event) : Prop where
  called : done.call = some call
  named : call.sequence = sequence
  others :
    ∀ other, other ≠ principal → done.host.sessions other = host.sessions other
  token : (done.host.sessions principal).token = (host.sessions principal).token
  epoch : (done.host.sessions principal).epoch = (host.sessions principal).epoch
  counts : Counts config (done.host.sessions principal) (past ++ [call])
  kept :
    call.ran = none →
      Kept moment.executed (host.sessions principal) (done.host.sessions principal)
  replayed :
    ∀ reply, done.reply = .ok reply → call.ran = none →
      config.retainedRetries = true ∧ ∃ first ∈ past, ∃ receipt,
        first.ran = some (.ok receipt) ∧ reply.receipt = some receipt ∧
          first.sequence = sequence ∧ first.canonical = call.canonical

theorem retained_served {config : Config} {host : Host σ} {principal : Principal}
    {past : List Retry.Event} (retaining : config.retainedRetries = true)
    (counts : Counts config (host.sessions principal) past)
    (sequence : UInt64) (canonical : Text)
    (callback : EStateM Thrown (Ledger × σ) Receipt) (moment : Moment) :
    ∃ call,
      Served config host principal sequence moment past
          (PolicyHost.retained host principal sequence canonical callback moment) call ∧
        call.canonical = canonical := by
  obtain ⟨tracks, same⟩ := counts.retained retaining
  obtain ⟨after, lawful⟩ := tracks.execute moment.executed sequence canonical
    (some callback) (host.ledger, host.state)
  refine ⟨_, ⟨rfl, rfl, ?_, ?_, ?_, ?_, ?_, ?_⟩, rfl⟩
  · intro other different
    exact Function.update_of_ne different _ _
  · simp [PolicyHost.retained, settle]
  · simp [PolicyHost.retained, settle]
  · refine ⟨after.tight, fun _ => ?_, fun never => ?_⟩
    · simp only [PolicyHost.retained, settle, Function.update_self]
      exact ⟨after, trivial⟩
    · exact absurd (retaining.symm.trans never) (by decide)
  · intro idle
    simp only [PolicyHost.retained, settle, Function.update_self]
    rcases Retry.execute_cases moment.executed sequence canonical (some callback)
        (host.sessions principal).retries (host.ledger, host.state) with
      ⟨called, _, _, _, performed⟩ | ⟨_, _, emptied, _⟩
    · obtain ⟨ran, _⟩ :=
        Retry.perform_spec moment.executed sequence canonical called
          (Retry.expire moment.executed (host.sessions principal).retries)
          (host.ledger, host.state)
      rw [← performed] at ran
      exact absurd (ran.symm.trans idle) (by simp)
    · rw [emptied]
      refine ⟨rfl, rfl, rfl, same.symm, rfl, rfl, rfl, ?_⟩
      intro entry member live
      exact expire_keeps member live
  · intro reply answered idle
    simp only [PolicyHost.retained] at answered
    split at answered
    · rename_i receipt given
      obtain rfl := Except.ok.inj answered
      rcases lawful.received receipt given with again | ⟨own, _⟩
      · obtain ⟨_, first, member, old, ran, _, held, key, payload, _⟩ :=
          lawful.replayed again
        obtain rfl : receipt = old := Option.some.inj (given.symm.trans held)
        exact ⟨retaining, first, member, receipt, ran, rfl, key, payload⟩
      · exact absurd (own.symm.trans idle) (by simp)
    · exact absurd answered (by simp)

/-- The counter of a session counts as the window's does. -/
theorem consumed_counts {session : Session} {count : Nat}
    (unspent : session.exhausted = false)
    (stands : session.sequence.toNat = count + 1) :
    ((consumed session).exhausted = false ∧
        (consumed session).sequence.toNat = count + 1 + 1) ∨
      ((consumed session).exhausted = true ∧ count + 1 + 1 = 2 ^ 64) := by
  have nonzero : session.sequence ≠ 0 := by
    intro zero
    rw [zero] at stands
    exact absurd stands (by simp)
  let window : Retry.Window :=
    ⟨session.retries.entries, session.sequence, session.exhausted⟩
  have counted : ((Retry.consume window).exhausted = false ∧
        (Retry.consume window).next.toNat = count + 1 + 1) ∨
      ((Retry.consume window).exhausted = true ∧ count + 1 + 1 = 2 ^ 64) :=
    @Retry.consume_counter window session.sequence count ⟨unspent, rfl, nonzero⟩ stands
  unfold consumed
  unfold Retry.consume at counted
  by_cases last : session.sequence == maximum64
  · rw [if_pos last] at counted ⊢
    exact counted
  · rw [if_neg last] at counted ⊢
    exact counted

@[simp]
theorem consumed_token (session : Session) : (consumed session).token = session.token := by
  unfold consumed
  split <;> rfl

@[simp]
theorem consumed_epoch (session : Session) : (consumed session).epoch = session.epoch := by
  unfold consumed
  split <;> rfl

theorem Counts.volatile_snoc {config : Config} {before after : Session}
    {past : List Retry.Event} (counts : Counts config before past)
    (counting : config.retainedRetries = false) (call : Retry.Event)
    (number : call.executed = true →
      call.number = past.countP Retry.Event.executed + 1)
    (advanced : after = if call.executed then consumed before else before)
    (unspent : call.executed = true → before.exhausted = false) :
    Counts config after (past ++ [call]) := by
  refine ⟨(Numbering.tight_snoc past call).mpr ⟨counts.tight, number⟩,
    fun always => ?_, fun _ => ?_⟩
  · exact absurd (always.symm.trans counting) (by decide)
  · rw [List.countP_append, List.countP_singleton, advanced]
    cases runs : call.executed with
    | false => exact counts.volatile counting
    | true =>
        rcases counts.volatile counting with ⟨open_, stands⟩ | ⟨spent, _⟩
        · exact consumed_counts open_ stands
        · exact absurd (spent.symm.trans (unspent runs)) (by decide)

theorem volatile_served {config : Config} {host : Host σ} {principal : Principal}
    {past : List Retry.Event} (counting : config.retainedRetries = false)
    (counts : Counts config (host.sessions principal) past)
    (sequence : UInt64) (callback : EStateM Thrown (Ledger × σ) Receipt)
    (moment : Moment) :
    ∃ call,
      Served config host principal sequence moment past
        (PolicyHost.volatile host principal sequence callback moment) call := by
  unfold PolicyHost.volatile
  by_cases other : ((host.sessions principal).exhausted ||
      sequence != (host.sessions principal).sequence) = true
  · simp only [other, if_true]
    refine ⟨_, ⟨rfl, rfl, fun _ _ => rfl, rfl, rfl, ?_, fun _ => Kept.refl _ _, ?_⟩⟩
    · exact counts.volatile_snoc counting _ (by simp [Retry.Event.executed])
        (by simp [Retry.Event.executed]) (by simp [Retry.Event.executed])
    · intro reply answered
      exact absurd answered (by simp)
  · simp only [other]
    simp only [Bool.or_eq_true, bne_iff_ne, ne_eq, not_or, Bool.not_eq_true,
      not_not] at other
    obtain ⟨unspent, same⟩ := other
    have number : sequence.toNat = past.countP Retry.Event.executed + 1 := by
      rcases counts.volatile counting with ⟨_, stands⟩ | ⟨spent, _⟩
      · rw [same, stands]
      · exact absurd (spent.symm.trans unspent) (by decide)
    cases callback (host.ledger, host.state) with
    | ok receipt after =>
        refine ⟨_, ⟨rfl, rfl, ?_, ?_, ?_, ?_, ?_, ?_⟩⟩
        · intro principal different
          exact Function.update_of_ne different _ _
        · simp [settle]
        · simp [settle]
        · exact counts.volatile_snoc counting _ (fun _ => number)
            (by simp [settle, Retry.Event.executed]) (fun _ => unspent)
        · intro idle
          exact absurd idle (by simp)
        · intro _ _ idle
          exact absurd idle (by simp)
    | error exception after =>
        refine ⟨_, ⟨rfl, rfl, ?_, ?_, ?_, ?_, ?_, ?_⟩⟩
        · intro principal different
          exact Function.update_of_ne different _ _
        · simp [settle]
        · simp [settle]
        · exact counts.volatile_snoc counting _ (fun _ => number)
            (by simp [settle, Retry.Event.executed]) (fun _ => unspent)
        · intro idle
          exact absurd idle (by simp)
        · intro _ answered
          exact absurd answered (by simp)

section Transactions

variable [Scalar α]

/-- A section that did not reach the counter changed nothing; one that did found
its own session current and served the request there. -/
theorem transact_cases {config : Config} (library : JsonLibrary α)
    (apply : Callback α σ) {host : Host σ} {connection : Connection} (envelope : Envelope α)
    (lease : Lease) (moment : Moment) {past : List Retry.Event}
    (counts : Counts config (host.sessions connection.principal) past) :
    let done := transact config library apply host connection envelope lease moment
    (done.call = none ∧ done.host = host ∧ ∃ halt, done.reply = .error halt) ∨
      ∃ call,
        Served config host connection.principal envelope.idempotency.sequence moment past
            done call ∧
          (host.sessions connection.principal).epoch = connection.epoch ∧
          envelope.idempotency.epoch = connection.epoch ∧
          moment.compared < (host.sessions connection.principal).expires ∧
          (config.retainedRetries = true →
            serialize library envelope = .ok call.canonical) := by
  intro done
  cases passed : current host.sessions connection.principal connection.epoch
      connection.deadline moment with
  | error halt =>
      have same : done = refused host halt := by
        simp only [done, transact, passed]
      rw [same]
      exact Or.inl ⟨rfl, rfl, halt, rfl⟩
  | ok _ =>
      obtain ⟨stands, live⟩ := current_eq_ok passed
      by_cases named :
          sameSecret envelope.idempotency.epoch
            (host.sessions connection.principal).epoch = true
      · have epoch := sameSecret_iff.mp named
        cases retaining : config.retainedRetries with
        | true =>
            cases written : serialize library envelope with
            | error errors =>
                have same :
                    done = refused host (rejection 400 "INVALID_SCHEMA" "/operations") := by
                  simp [done, transact, passed, named, retaining, written]
                rw [same]
                exact Or.inl ⟨rfl, rfl, _, rfl⟩
            | ok canonical =>
                have same : done =
                    PolicyHost.retained host connection.principal
                      envelope.idempotency.sequence canonical (apply envelope lease)
                      moment := by
                  simp [done, transact, passed, named, retaining, written]
                rw [same]
                obtain ⟨call, served, payload⟩ :=
                  retained_served retaining counts envelope.idempotency.sequence canonical
                    (apply envelope lease) moment
                exact Or.inr ⟨call, served, stands, epoch.trans stands, live,
                  fun _ => congrArg Except.ok payload.symm⟩
        | false =>
            have same : done =
                PolicyHost.volatile host connection.principal
                  envelope.idempotency.sequence (apply envelope lease) moment := by
              simp [done, transact, passed, named, retaining]
            rw [same]
            obtain ⟨call, served⟩ :=
              volatile_served retaining counts envelope.idempotency.sequence
                (apply envelope lease) moment
            exact Or.inr ⟨call, served, stands, epoch.trans stands, live,
              fun always => absurd always (by decide)⟩
      · have same :
            done = refused host (rejection 409 "REQUIRES_RESYNC" "/idempotency/epoch") := by
          simp [done, transact, passed, named]
        rw [same]
        exact Or.inl ⟨rfl, rfl, _, rfl⟩

end Transactions

end Omniweft.PolicyHost
