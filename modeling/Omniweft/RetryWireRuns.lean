import Omniweft.HostCodecs
import Omniweft.RetryWire
import Mathlib.Data.List.InsertIdx

/-!
# At most once, end to end

What carries a run over: the host's log is a run of the host, an answer to a POST stems
from an attempt with that POST's body, and a client waits for the answer to what it has
posted. The window and the epochs of the host do the rest.
-/

namespace Omniweft

open Outcome Commands Transactions Policy

/-! ## What the host answers -/

namespace PolicyHost

variable {α σ : Type}

/-- A rejection is not told with the status of a success. -/
def Refuses (halt : Halt) : Prop :=
  ∀ rejection, halt = .rejected rejection → rejection.status ≠ 200

theorem refuses_closed : Refuses .closed := by
  intro rejection same
  cases same

theorem refuses_thrown (thrown : Thrown) : Refuses (.thrown thrown) := by
  intro rejection same
  cases same

theorem refuses_status {status : Nat} (other : status ≠ 200) (code path : Text) :
    Refuses (.rejected ⟨status, code, path⟩) := by
  intro rejection same
  cases same
  exact other

theorem current_refuses (sessions : PerPrincipal Session) (principal : Principal)
    (epoch : Text) (deadline : Nat) (moment : Moment) :
    Fails Refuses (current sessions principal epoch deadline moment) :=
  fails_bind (fails_rejectIf _ refuses_closed) fun _ =>
    fails_bind (fails_rejectIf _ (refuses_status (by decide) _ _)) fun _ =>
      fails_rejectIf _ (refuses_status (by decide) _ _)

theorem routed_refuses (config : Config) (request : Request) :
    Fails Refuses (routed config request) := by
  refine fails_bind (fails_rejectIf _ (refuses_status (by decide) _ _)) fun _ => ?_
  refine fails_bind (fails_rejectIf _ (refuses_status (by decide) _ _)) fun _ => ?_
  split
  · exact fails_error (refuses_status (by decide) _ _)
  · exact
      fails_bind (fails_rejectIf _ (refuses_status (by decide) _ _)) fun _ =>
        fails_bind (fails_rejectIf _ (refuses_status (by decide) _ _)) fun _ => fails_pure _

theorem authenticate_refuses (config : Config) (sessions : PerPrincipal Session)
    (request : Request) (deadline : Nat) (moment : Moment) :
    Fails Refuses (authenticate config sessions request deadline moment) := by
  refine fails_bind ?_ fun _ =>
    fails_bind (current_refuses _ _ _ _ _) fun _ =>
      fails_bind (routed_refuses _ _) fun _ => fails_pure _
  unfold authenticated
  split
  · exact fails_ok _
  · exact fails_error (refuses_status (by decide) _ _)

theorem validateObserve_refuses [Scalar α] (library : JsonLibrary α) (body worldId : Text) :
    Fails Refuses (validateObserve library body worldId) := by
  have schema {β : Type} (path : String) :
      Fails Refuses (.error (rejection 400 "INVALID_SCHEMA" path) : Except Halt β) :=
    fails_error (refuses_status (by decide) _ _)
  unfold validateObserve
  split
  · split
    · exact fails_error (refuses_status (by decide) _ _)
    · exact schema ""
  · refine fails_bind (fails_rejectIf _ (refuses_status (by decide) _ _)) fun _ => ?_
    split
    · refine fails_bind (fails_rejectIf _ (refuses_status (by decide) _ _)) fun _ => ?_
      dsimp only
      split
      · refine fails_bind (fails_rejectIf _ (refuses_status (by decide) _ _)) fun _ => ?_
        split
        · exact fails_rejectIf _ (refuses_status (by decide) _ _)
        · exact schema _
      · refine fails_bind (schema _) fun _ => ?_
        split
        · exact fails_rejectIf _ (refuses_status (by decide) _ _)
        · exact schema _
    · exact schema ""
    · exact fails_error (refuses_thrown _)

theorem commandRejection_refuses (error : ValidationError) :
    Refuses (commandRejection error) := by
  unfold commandRejection
  dsimp only
  split
  · exact refuses_status (by decide) _ _
  · split
    · exact refuses_status (by decide) _ _
    · split
      · exact refuses_status (by decide) _ _
      · exact refuses_status (by decide) _ _

theorem received_refuses [Scalar α] (config : Config) (library : JsonLibrary α)
    (body : Text) : Fails Refuses (received config library body) := by
  unfold received
  split
  · exact fails_error (refuses_status (by decide) _ _)
  · exact fails_error (commandRejection_refuses _)
  · refine fails_bind ?_ fun _ => fails_pure _
    exact
      fails_bind (fails_rejectIf _ (refuses_status (by decide) _ _)) fun _ =>
        fails_bind (fails_rejectIf _ (refuses_status (by decide) _ _)) fun _ =>
          fails_bind (fails_rejectIf _ (refuses_status (by decide) _ _)) fun _ =>
            fails_rejectIf _ (refuses_status (by decide) _ _)

theorem received_parses [Scalar α] {config : Config} {library : JsonLibrary α} {body : Text}
    {envelope : Envelope α} (screened : received config library body = .ok envelope) :
    parse library body = .ok envelope := by
  unfold received at screened
  split at screened
  · cases screened
  · cases screened
  · rename_i parsed found
    obtain ⟨_, _, same⟩ := bind_eq_ok.mp screened
    rw [← pure_eq_ok.mp same]
    exact found

/-- What a reply says: a refusal, or the receipt of the call that was made, or one that
is kept from an earlier call. -/
structure Replies (ran : Option (Except Thrown Receipt)) (reply : Except Halt Reply) : Prop where
  refuses : ∀ halt, reply = .error halt → Refuses halt
  tells :
    ∀ told receipt, reply = .ok told → told.receipt = some receipt →
      ran = none ∨ ran = some (.ok receipt)

theorem replies_error {ran : Option (Except Thrown Receipt)} {halt : Halt}
    (refuses : Refuses halt) : Replies ran (.error halt) := by
  refine ⟨?_, ?_⟩
  · intro other same
    cases same
    exact refuses
  · intro told receipt impossible
    cases impossible

theorem replies_receipt {session : Session} {receipt : Receipt}
    {ran : Option (Except Thrown Receipt)} (own : ran = none ∨ ran = some (.ok receipt)) :
    Replies ran (.ok (answer session receipt)) := by
  refine ⟨?_, ?_⟩
  · intro halt impossible
    cases impossible
  · intro told found same given
    cases same
    cases given
    exact own

theorem retained_replies {host : Host σ} (principal : Principal) (sequence : UInt64)
    (canonical : Text) (callback : EStateM Thrown (Ledger × σ) Receipt) (moment : Moment) :
    let done := retained host principal sequence canonical callback moment
    Replies (done.call.bind Retry.Event.ran) done.reply := by
  intro done
  let result := Retry.execute moment.executed sequence canonical (some callback)
    (host.sessions principal).retries (host.ledger, host.state)
  have own : ∀ receipt, result.result.receipt = some receipt →
      result.ran = none ∨ result.ran = some (.ok receipt) := by
    intro receipt given
    rcases Retry.execute_cases moment.executed sequence canonical (some callback)
        (host.sessions principal).retries (host.ledger, host.state) with
      ⟨called, _, _, _, performed⟩ | ⟨idle, _⟩
    · right
      change result = _ at performed
      rw [performed] at given ⊢
      unfold Retry.perform at given ⊢
      dsimp only at given ⊢
      split at given
      · cases given
      · rename_i found after passed
        split at given
        · rename_i small
          rw [if_pos small]
          exact congrArg (fun receipt => some (Except.ok receipt)) (Option.some.inj given)
        · cases given
    · exact Or.inl idle
  change Replies result.ran _
  simp only [done, retained]
  split
  · rename_i receipt given
    exact replies_receipt (own receipt given)
  · refine replies_error (refuses_status ?_ _ _)
    split
    · decide
    · decide

theorem volatile_replies {host : Host σ} (principal : Principal) (sequence : UInt64)
    (callback : EStateM Thrown (Ledger × σ) Receipt) (moment : Moment) :
    let done := volatile host principal sequence callback moment
    Replies (done.call.bind Retry.Event.ran) done.reply := by
  intro done
  simp only [done, volatile]
  split
  · exact replies_error (refuses_status (by decide) _ _)
  · split
    · exact replies_receipt (Or.inr rfl)
    · exact replies_error (refuses_thrown _)

theorem transact_replies [Scalar α] (config : Config) (library : JsonLibrary α)
    (apply : Callback α σ) (host : Host σ) (connection : Connection)
    (envelope : Envelope α) (lease : Lease) (moment : Moment) :
    let done := transact config library apply host connection envelope lease moment
    Replies (done.call.bind Retry.Event.ran) done.reply := by
  intro done
  simp only [done, transact]
  split
  · rename_i halt stopped
    exact replies_error (current_refuses _ _ _ _ _ halt stopped)
  · split
    · exact replies_error (refuses_status (by decide) _ _)
    · split
      · split
        · exact replies_error (refuses_status (by decide) _ _)
        · exact retained_replies _ _ _ _ _
      · exact volatile_replies _ _ _ _

/-- The requests of the open connections. -/
def requests (system : System σ) : List Request :=
  system.connections.map Connection.request

theorem requests_set {system : System σ} {index : Nat} {connection : Connection}
    (found : system.connections[index]? = some connection) (host : Host σ)
    {other : Connection} (same : other.request = connection.request) :
    requests (withConnection (withHost system host) index other) = requests system := by
  obtain ⟨inside, rfl⟩ := List.getElem?_eq_some_iff.mp found
  change (system.connections.set index other).map Connection.request = _
  rw [List.map_set, same, ← List.getElem_map Connection.request]
  · exact List.set_getElem_self _
  · simpa using inside

theorem reserveAt_requests {system : System σ} {index : Nat} {connection : Connection}
    (found : system.connections[index]? = some connection) :
    requests (reserveAt system index connection : System σ × Act α).1 = requests system := by
  unfold reserveAt
  dsimp only
  split
  · exact requests_set found system.host rfl
  · exact requests_set found _ rfl

theorem transactAt_requests [Scalar α] {config : Config} {library : JsonLibrary α}
    {apply : Callback α σ} {system : System σ} {index : Nat} {connection : Connection}
    (found : system.connections[index]? = some connection) (lease : Lease)
    (moment : Moment) :
    requests (transactAt config library apply system index connection lease moment).1 =
      requests system := by
  unfold transactAt
  dsimp only
  split
  · exact requests_set found system.host rfl
  · exact requests_set found _ rfl

/-- What a step makes of the requests of the connections. -/
structure Carries (system next : System σ) (input : Input) : Prop where
  accepted :
    ∀ request deadline moment, input = .accept request deadline moment →
      requests next = requests system ∨ requests next = requests system ++ [request]
  closed :
    ∀ index, input = .close index → requests next = (requests system).eraseIdx index
  stays :
    (∀ request deadline moment, input ≠ .accept request deadline moment) →
      (∀ index, input ≠ .close index) → requests next = requests system

theorem carries_same {system next : System σ} {input : Input}
    (same : requests next = requests system)
    (open_ : ∀ index, input ≠ .close index) : Carries system next input :=
  ⟨fun _ _ _ _ => Or.inl same, fun index close => absurd close (open_ index),
    fun _ _ => same⟩

theorem step_carries [Scalar α] (config : Config) (library : JsonLibrary α)
    (apply : Callback α σ) (system : System σ) (input : Input) :
    Carries system (step config library apply system input).1 input := by
  have inside {index : Nat} {connection : Connection}
      (found : pendingAt system index = some connection) :
      system.connections[index]? = some connection :=
    (Option.filter_eq_some_iff.mp found).1
  cases input with
  | renew issues => exact carries_same rfl (by simp)
  | accept request deadline moment =>
      refine ⟨?_, by simp, fun other => absurd rfl (other request deadline moment)⟩
      intro _ _ _ same
      cases same
      unfold step
      dsimp only
      split
      · exact Or.inl rfl
      · rename_i connection accepted
        right
        have own : connection.request = request := by
          unfold authenticate at accepted
          obtain ⟨_, _, accepted⟩ := bind_eq_ok.mp accepted
          obtain ⟨_, _, accepted⟩ := bind_eq_ok.mp accepted
          obtain ⟨_, _, accepted⟩ := bind_eq_ok.mp accepted
          rw [← pure_eq_ok.mp accepted]
        simp [requests, own]
  | reserve index =>
      refine carries_same ?_ (by simp)
      unfold step
      dsimp only
      split
      · rename_i connection found
        split
        · rfl
        · exact reserveAt_requests (inside found)
      · rfl
  | consult index moment =>
      refine carries_same ?_ (by simp)
      unfold step
      dsimp only
      split
      · rename_i connection found
        split
        · rfl
        · exact requests_set (inside found) system.host rfl
      · rfl
  | transact index moment =>
      refine carries_same ?_ (by simp)
      unfold step
      dsimp only
      split
      · rename_i connection found
        split
        · exact transactAt_requests (inside found) _ moment
        · rfl
      · rfl
  | close index =>
      refine ⟨by simp, ?_, fun _ other => absurd rfl (other index)⟩
      intro _ same
      cases same
      simp [requests, step, closeConnection, List.eraseIdx_map]

end PolicyHost

namespace Wire

open PolicyHost (Act Attempt Callback Carries Config Halt Input Issue Moment Refuses Reply
  Request Replies System requests)
open Sdk (Notice Party)

variable {α σ : Type} [Scalar α]

/-- What a reply of the host stands for. -/
structure Spoken (library : JsonLibrary α) (system : System σ) (input : Input) (act : Act α)
    (reply : Except Halt Reply) : Prop where
  refuses : ∀ halt, reply = .error halt → Refuses halt
  attempted :
    ∀ told receipt, reply = .ok told → told.receipt = some receipt →
      ∃ index moment attempt,
        input = .transact index moment ∧ act = .attempted attempt ∧
          system.connections[index]? = some attempt.connection ∧ attempt.reply = .ok told ∧
          parse library attempt.connection.request.body = .ok attempt.envelope ∧
          (attempt.ran = none ∨ attempt.ran = some (.ok receipt))

theorem spoken_refusal {library : JsonLibrary α} {system : System σ} {input : Input}
    {act : Act α} {halt : Halt} (refuses : Refuses halt) :
    Spoken library system input act (.error halt) := by
  refine ⟨?_, ?_⟩
  · intro other same
    cases same
    exact refuses
  · intro told receipt impossible
    cases impossible

theorem consultAt_spoken {config : Config} {library : JsonLibrary α} {system : System σ}
    {index : Nat} {connection : PolicyHost.Connection} {moment : Moment} {input : Input}
    {reply : Except Halt Reply}
    (replied :
      replyOf (PolicyHost.consultAt config library system index connection moment).2 =
        some reply) :
    Spoken library system input
      (PolicyHost.consultAt config library system index connection moment).2 reply := by
  have refuses : Fails Refuses reply := by
    rw [← Option.some.inj replied]
    refine fails_bind ?_ fun _ =>
      fails_bind (PolicyHost.current_refuses _ _ _ _ _) fun _ => fails_pure _
    split
    · exact PolicyHost.validateObserve_refuses _ _ _
    · exact fails_ok _
  refine ⟨refuses, fun told receipt same given => ?_⟩
  rw [← Option.some.inj replied] at same
  obtain ⟨_, _, consulted⟩ := bind_eq_ok.mp same
  obtain ⟨_, _, consulted⟩ := bind_eq_ok.mp consulted
  rw [← pure_eq_ok.mp consulted] at given
  cases given

theorem step_spoken {config : Config} {library : JsonLibrary α} {apply : Callback α σ}
    {system : System σ} {input : Input} {reply : Except Halt Reply}
    (replied : replyOf (PolicyHost.step config library apply system input).2 = some reply) :
    Spoken library system input (PolicyHost.step config library apply system input).2
      reply := by
  cases input with
  | renew issues => cases replied
  | close index => cases replied
  | accept request deadline moment =>
      unfold PolicyHost.step at replied ⊢
      dsimp only at replied ⊢
      split at replied
      · rename_i halt stopped
        cases replied
        exact spoken_refusal (PolicyHost.authenticate_refuses _ _ _ _ _ halt stopped)
      · cases replied
  | reserve index =>
      unfold PolicyHost.step at replied ⊢
      dsimp only at replied ⊢
      split at replied
      · rename_i connection found
        split at replied
        · cases replied
        · unfold PolicyHost.reserveAt at replied
          dsimp only at replied
          split at replied
          · cases replied
            exact spoken_refusal (PolicyHost.refuses_status (by decide) _ _)
          · cases replied
      · cases replied
  | consult index moment =>
      unfold PolicyHost.step at replied ⊢
      dsimp only at replied ⊢
      split at replied
      · rename_i connection found
        split at replied
        · cases replied
        · rename_i reads
          rw [if_neg reads]
          exact consultAt_spoken replied
      · cases replied
  | transact index moment =>
      unfold PolicyHost.step at replied ⊢
      dsimp only at replied ⊢
      split at replied
      · rename_i connection found
        have inside := (Option.filter_eq_some_iff.mp found).1
        split at replied
        · rename_i lease route held
          unfold PolicyHost.transactAt at replied ⊢
          dsimp only at replied ⊢
          split at replied
          · rename_i halt stopped
            cases replied
            exact spoken_refusal (PolicyHost.received_refuses _ _ _ halt stopped)
          · rename_i envelope screened
            have own := PolicyHost.transact_replies config library apply system.host connection
              envelope lease moment
            obtain rfl := Option.some.inj replied
            refine ⟨own.refuses, fun told receipt same given => ?_⟩
            exact ⟨index, moment, _, rfl, rfl, inside, same,
              PolicyHost.received_parses screened, own.tells told receipt same given⟩
        · cases replied
      · cases replied

/-! ## What carries over a run -/

/-- A transaction reached its section. -/
def Attempted (facts : List (Fact α)) (attempt : Attempt α) : Prop :=
  ∃ event ∈ hostLog facts, event.act = .attempted attempt

/-- The reply stems from an attempt with the body of the request. -/
def Answered (library : JsonLibrary α) (facts : List (Fact α)) (request : Request)
    (told : Reply) (original : Receipt) : Prop :=
  ∃ attempt,
    Attempted facts attempt ∧ attempt.connection.request = request ∧
      attempt.reply = .ok told ∧ parse library request.body = .ok attempt.envelope ∧
      (attempt.ran = none ∨ attempt.ran = some (.ok original))

/-- A client reads the receipt from the text of an answer with the original one. -/
def Reads (python : Python.Interpreter α) (library : JsonLibrary α) (original : Receipt)
    (receipt : Sdk.Receipt) : Prop :=
  ∃ client epoch nextSequence bytes value,
    library.dump
        (Control.response epoch nextSequence "receipt" (Control.receiptJson original)) =
      some bytes ∧
    Python.decode python bytes Sdk.maxResponse = .ok value ∧
    Sdk.wrapped client "receipt" Sdk.readReceipt value = .ok receipt

/-- Where a receipt that `submit` returns comes from. -/
def Returned (python : Python.Interpreter α) (library : JsonLibrary α)
    (facts : List (Fact α)) (prepared : Sdk.PreparedTransaction) (receipt : Sdk.Receipt) :
    Prop :=
  ∃ request told original,
    Sdk.posted python prepared = .ok request.body ∧ told.receipt = some original ∧
      Answered library facts request told original ∧ Reads python library original receipt

/-- What an answer on the wire stands for. -/
structure Stems (library : JsonLibrary α) (facts : List (Fact α)) (posts : List Request)
    (post : Nat) (reply : Except Halt Reply) : Prop where
  refuses : ∀ halt, reply = .error halt → Refuses halt
  answered :
    ∀ told original, reply = .ok told → told.receipt = some original →
      ∃ request, posts[post]? = some request ∧ Answered library facts request told original

/-- What holds of the clients, the wire and the host after the facts. -/
structure Sound (python : Python.Interpreter α) (library : JsonLibrary α) (net : Net α σ)
    (facts : List (Fact α)) : Prop where
  guarded :
    ∀ (who : Nat) (party : Party α), net.parties[who]? = some party →
      Sdk.Guarded python (notices who facts) party
  waiting :
    ∀ (who : Nat) (party : Party α) number post body capabilities, net.parties[who]? = some party →
      party.errand = some (.submission number post body capabilities) →
        ∃ request : Request, net.posts[post]? = some request ∧ request.body = body
  aligned : net.carried.length = (requests net.system).length
  bodies :
    ∀ index post : Nat, net.carried[index]? = some (some post) →
      ∃ request, (requests net.system)[index]? = some request ∧
        net.posts[post]? = some request
  answers : ∀ post reply, (post, reply) ∈ net.answers → Stems library facts net.posts post reply
  absent : ∀ who : Nat, net.parties[who]? = none → notices who facts = []
  returned :
    ∀ who prepared receipt, .client who (.returned prepared receipt) ∈ facts →
      Returned python library facts prepared receipt

omit [Scalar α] in
theorem hostLog_append (first second : List (Fact α)) :
    hostLog (first ++ second) = hostLog first ++ hostLog second := by
  simp [hostLog, sections]

omit [Scalar α] in
theorem notices_append (who : Nat) (first second : List (Fact α)) :
    notices who (first ++ second) = notices who first ++ notices who second := by
  simp [notices]

omit [Scalar α] in
theorem notices_own (who : Nat) (told : List Notice) :
    notices who (told.map (.client who) : List (Fact α)) = told := by
  simp [notices, Fact.notice?, Function.comp_def]

omit [Scalar α] in
theorem notices_other {who other : Nat} (different : other ≠ who) (told : List Notice) :
    notices who (told.map (.client other) : List (Fact α)) = [] := by
  simp [notices, Fact.notice?, different]

theorem Answered.later {library : JsonLibrary α} {facts : List (Fact α)} {request : Request}
    {told : Reply} {original : Receipt}
    (answered : Answered library facts request told original) (more : List (Fact α)) :
    Answered library (facts ++ more) request told original := by
  obtain ⟨attempt, ⟨event, member, acted⟩, rest⟩ := answered
  refine ⟨attempt, ⟨event, ?_, acted⟩, rest⟩
  rw [hostLog_append]
  exact List.mem_append_left _ member

theorem Returned.later {python : Python.Interpreter α} {library : JsonLibrary α}
    {facts : List (Fact α)} {prepared : Sdk.PreparedTransaction} {receipt : Sdk.Receipt}
    (returned : Returned python library facts prepared receipt) (more : List (Fact α)) :
    Returned python library (facts ++ more) prepared receipt := by
  obtain ⟨request, told, original, posted, given, answered, reads⟩ := returned
  exact ⟨request, told, original, posted, given, answered.later more, reads⟩

/-- What was posted keeps its number. -/
theorem post_later {γ : Type} {items : List γ} {index : Nat} {item : γ}
    (found : items[index]? = some item) (more : List γ) :
    (items ++ more)[index]? = some item := by
  obtain ⟨inside, _⟩ := List.getElem?_eq_some_iff.mp found
  rw [List.getElem?_append_left inside]
  exact found

theorem Stems.later {library : JsonLibrary α} {facts : List (Fact α)} {posts : List Request}
    {post : Nat} {reply : Except Halt Reply} (stems : Stems library facts posts post reply)
    (more : List (Fact α)) (others : List Request) :
    Stems library (facts ++ more) (posts ++ others) post reply := by
  refine ⟨stems.refuses, fun told original same given => ?_⟩
  obtain ⟨request, found, answered⟩ := stems.answered told original same given
  exact ⟨request, post_later found others, answered.later more⟩

/-- A step of a client. What it returns is a hypothesis here. -/
theorem Sound.client {python : Python.Interpreter α} {library : JsonLibrary α}
    {net : Net α σ} {facts : List (Fact α)} (sound : Sound python library net facts)
    (config : Config) (who : Nat) (event : Sdk.Event α)
    (returns : ∀ (party : Party α) prepared receipt, net.parties[who]? = some party →
      .returned prepared receipt ∈ (party.act python net.posts.length event).notices →
        Returned python library facts prepared receipt) :
    let done := clientStep python config net who event
    Sound python library done.1 (facts ++ done.2) := by
  unfold clientStep
  dsimp only
  cases found : net.parties[who]? with
  | none =>
      dsimp only
      rw [List.append_nil]
      exact sound
  | some party =>
      dsimp only
      have guarded := sound.guarded who party found
      have orderly := guarded.upright.act net.posts.length event
      generalize turned : party.act python net.posts.length event = turn at orderly
      have inside : who < net.parties.length := (List.getElem?_eq_some_iff.mp found).1
      have own : (net.parties.set who turn.party)[who]? = some turn.party :=
        List.getElem?_set_self inside
      refine ⟨?_, ?_, sound.aligned, ?_, ?_, ?_, ?_⟩
      · intro other next present
        rw [notices_append]
        by_cases same : who = other
        · subst same
          rw [own, Option.some.injEq] at present
          rw [notices_own, ← present]
          exact guarded.turn orderly
        · rw [List.getElem?_set_ne same] at present
          rw [notices_other same, List.append_nil]
          exact sound.guarded other next present
      · intro other next number post body capabilities present waits
        by_cases same : who = other
        · subst same
          rw [own, Option.some.injEq] at present
          rw [← present] at waits
          rcases orderly.waiting number post body capabilities waits with before | ⟨new, posted⟩
          · obtain ⟨request, posted, content⟩ :=
              sound.waiting who party number post body capabilities found (before.trans waits)
            exact ⟨request, post_later posted _, content⟩
          · refine ⟨requestOf config party.client.info body, ?_, rfl⟩
            rw [new, posted]
            simp
        · rw [List.getElem?_set_ne same] at present
          obtain ⟨request, posted, content⟩ :=
            sound.waiting other next number post body capabilities present waits
          exact ⟨request, post_later posted _, content⟩
      · intro index post carried
        obtain ⟨request, open_, posted⟩ := sound.bodies index post carried
        exact ⟨request, open_, post_later posted _⟩
      · intro post reply member
        exact (sound.answers post reply member).later _ _
      · intro other missing
        by_cases same : who = other
        · subst same
          rw [own] at missing
          cases missing
        · rw [List.getElem?_set_ne same] at missing
          rw [notices_append, notices_other same, List.append_nil]
          exact sound.absent other missing
      · intro other prepared receipt member
        rcases List.mem_append.mp member with old | new
        · exact (sound.returned other prepared receipt old).later _
        · obtain ⟨notice, told, same⟩ := List.mem_map.mp new
          obtain ⟨_, rfl⟩ := Fact.client.inj same
          rw [← turned] at told
          exact (returns party prepared receipt found told).later _

/-- The connections of the host and what they carry stay side by side. -/
theorem carriedAfter_bodies {net : Net α σ} {next : System σ} {post : Option Nat}
    {input : Input} (aligned : net.carried.length = (requests net.system).length)
    (bodies : ∀ index number : Nat, net.carried[index]? = some (some number) →
      ∃ request, (requests net.system)[index]? = some request ∧
        net.posts[number]? = some request)
    (carries : Carries net.system next input)
    (owned : ∀ number request deadline moment, post = some number →
      input = .accept request deadline moment → net.posts[number]? = some request) :
    (carriedAfter net post next input).length = (requests next).length ∧
      ∀ index number : Nat,
        (carriedAfter net post next input)[index]? = some (some number) →
          ∃ request, (requests next)[index]? = some request ∧
            net.posts[number]? = some request := by
  have counted (system : System σ) :
      system.connections.length = (requests system).length := by
    simp [requests]
  have quiet (stays : requests next = requests net.system)
      (same : carriedAfter net post next input = net.carried) :
      (carriedAfter net post next input).length = (requests next).length ∧
        ∀ index number : Nat,
          (carriedAfter net post next input)[index]? = some (some number) →
            ∃ request, (requests next)[index]? = some request ∧
              net.posts[number]? = some request := by
    rw [stays, same]
    exact ⟨aligned, bodies⟩
  cases input with
  | accept request deadline moment =>
      rcases carries.accepted request deadline moment rfl with same | grown
      · refine quiet same (if_neg ?_)
        rw [counted, counted, same]
        omega
      · have longer : net.system.connections.length < next.connections.length := by
          rw [counted, counted, grown, List.length_append, List.length_singleton]
          omega
        have shape : carriedAfter net post next (.accept request deadline moment) =
            net.carried ++ [post] := if_pos longer
        rw [shape, grown]
        refine ⟨by simp [aligned], fun index number found => ?_⟩
        by_cases early : index < net.carried.length
        · rw [List.getElem?_append_left early] at found
          obtain ⟨own, open_, posted⟩ := bodies index number found
          exact ⟨own, post_later open_ _, posted⟩
        · rw [List.getElem?_append_right (by omega)] at found
          obtain ⟨last, held⟩ := List.getElem?_eq_some_iff.mp found
          rw [List.length_singleton] at last
          have place : index = (requests net.system).length := by omega
          rw [List.getElem_singleton] at held
          refine ⟨request, ?_, owned number request deadline moment held rfl⟩
          rw [place]
          simp
  | close index =>
      have closed := carries.closed index rfl
      have shape : carriedAfter net post next (.close index) = net.carried.eraseIdx index := rfl
      rw [shape, closed]
      refine ⟨by simp [List.length_eraseIdx, aligned], fun place number found => ?_⟩
      rw [List.getElem?_eraseIdx] at found ⊢
      split at found
      · rename_i before
        rw [if_pos before]
        exact bodies place number found
      · rename_i after
        rw [if_neg after]
        exact bodies (place + 1) number found
  | renew issues => exact quiet (carries.stays (by simp) (by simp)) rfl
  | reserve index => exact quiet (carries.stays (by simp) (by simp)) rfl
  | consult index moment => exact quiet (carries.stays (by simp) (by simp)) rfl
  | transact index moment => exact quiet (carries.stays (by simp) (by simp)) rfl

/-- A section of the host. -/
theorem Sound.host {python : Python.Interpreter α} {library : JsonLibrary α}
    {net : Net α σ} {facts : List (Fact α)} (sound : Sound python library net facts)
    (config : Config) (apply : Callback α σ) (post : Option Nat) (input : Input)
    (owned : ∀ number request deadline moment, post = some number →
      input = .accept request deadline moment → net.posts[number]? = some request) :
    let done := hostStep config library apply net post input
    Sound python library done.1 (facts ++ done.2) := by
  intro done
  obtain ⟨aligned, bodies⟩ := carriedAfter_bodies sound.aligned sound.bodies
    (PolicyHost.step_carries config library apply net.system input) owned
  have same (who : Nat) : notices who (facts ++ done.2) = notices who facts := by
    rw [notices_append]
    simp [notices, done, hostStep, Fact.notice?]
  refine ⟨?_, sound.waiting, aligned, bodies, ?_, ?_, ?_⟩
  · intro who party present
    rw [same]
    exact sound.guarded who party present
  · intro number reply member
    have old : (number, reply) ∈ net.answers →
        Stems library (facts ++ done.2) net.posts number reply := by
      intro earlier
      have stems := (sound.answers number reply earlier).later done.2 []
      rwa [List.append_nil] at stems
    simp only [done, hostStep] at member
    split at member
    · rename_i owner spoken owns replied
      rcases List.mem_append.mp member with earlier | new
      · exact old earlier
      · obtain ⟨rfl, rfl⟩ := Prod.mk.inj (List.mem_singleton.mp new)
        have said := step_spoken replied
        refine ⟨said.refuses, fun told original same given => ?_⟩
        obtain ⟨index, moment, attempt, rfl, acted, connected, own, parsed, ran⟩ :=
          said.attempted told original same given
        have carried : net.carried[index]? = some (some number) :=
          Option.join_eq_some_iff.mp owns
        obtain ⟨request, open_, posted⟩ := sound.bodies index number carried
        have content : attempt.connection.request = request := by
          simpa [requests, connected] using open_
        refine ⟨request, posted, attempt, ?_, content, own, content ▸ parsed, ran⟩
        refine ⟨⟨net.system.host.sessions, done.1.system.host.sessions, _⟩, ?_, acted⟩
        rw [hostLog_append]
        exact List.mem_append_right _ (List.mem_singleton_self _)
    · exact old member
  · intro who missing
    rw [same]
    exact sound.absent who missing
  · intro who prepared receipt member
    rcases List.mem_append.mp member with earlier | new
    · exact (sound.returned who prepared receipt earlier).later _
    · simp [done, hostStep] at new

/-- Only the text of an answer with status 200 is read further. -/
theorem arrived_eq_ok {python : Python.Interpreter α} {info : Sdk.ConnectionInfo}
    {arrival : Sdk.Arrival} {value : Python.Value α}
    (passed : Sdk.arrived python info arrival = .ok value) :
    ∃ bytes,
      arrival = .response 200 bytes ∧
        Python.decode python bytes Sdk.maxResponse = .ok value := by
  cases arrival with
  | lost => cases passed
  | response status bytes =>
      obtain ⟨found, decoded, passed⟩ := bind_eq_ok.mp passed
      obtain ⟨_, _, passed⟩ := bind_eq_ok.mp passed
      by_cases fine : status = 200
      · rw [if_pos fine] at passed
        split at passed
        · rw [← pure_eq_ok.mp passed, fine]
          exact ⟨bytes, rfl, decoded⟩
        · cases passed
      · rw [if_neg fine] at passed
        obtain ⟨_, _, impossible⟩ := bind_eq_ok.mp passed
        cases impossible

omit [Scalar α] in
theorem sent_eq {status told : Nat} {text : Option Text} {bytes : Text}
    (same : sent status text = .response told bytes) : status = told ∧ text = some bytes := by
  cases text with
  | none => cases same
  | some body =>
      cases same
      exact ⟨rfl, rfl⟩

omit [Scalar α] in
/-- An answer that arrives with status 200 has a receipt. -/
theorem arrivalOf_response {library : JsonLibrary α} {reply : Except Halt Reply}
    {bytes : Text} (refuses : ∀ halt, reply = .error halt → Refuses halt)
    (arrives : arrivalOf library reply = .response 200 bytes) :
    ∃ told original,
      reply = .ok told ∧ told.receipt = some original ∧
        library.dump
            (Control.response told.epoch told.nextSequence "receipt"
              (Control.receiptJson original)) =
          some bytes := by
  cases reply with
  | ok told =>
      unfold arrivalOf at arrives
      dsimp only at arrives
      split at arrives
      · rename_i original given
        exact ⟨told, original, rfl, given, (sent_eq arrives).2⟩
      · cases arrives
  | error halt =>
      cases halt with
      | closed => cases arrives
      | thrown exception => cases arrives
      | rejected rejection =>
          exact absurd (sent_eq arrives).1 (refuses _ rfl rejection rfl)

/-- The client receives an answer to the POST it waits for. -/
theorem Sound.receive {python : Python.Interpreter α} {library : JsonLibrary α}
    {net : Net α σ} {facts : List (Fact α)} (sound : Sound python library net facts)
    (config : Config) {who position : Nat} {reply : Except Halt Reply}
    (answer : answerFor net who position = some reply) :
    let done := clientStep python config net who (.finished (arrivalOf library reply))
    Sound python library done.1 (facts ++ done.2) := by
  refine sound.client config who _ ?_
  intro party prepared receipt found told
  obtain ⟨arrival, number, post, body, capabilities, after, same, waits, handle, passed⟩ :=
    Sdk.act_returns told
  cases same
  obtain ⟨_, value, next, arrived, accepted⟩ := Sdk.submitted_eq_ok passed
  obtain ⟨bytes, arrives, decoded⟩ := arrived_eq_ok arrived
  have member : (post, reply) ∈ net.answers := by
    unfold answerFor at answer
    rw [found, Option.bind_some, waits] at answer
    split at answer
    · rename_i expecting answers
      cases expecting
      split at answer
      · rename_i own
        cases answer
        rw [← own]
        exact List.mem_of_getElem? answers
      · cases answer
    · cases answer
  have stems := sound.answers post reply member
  obtain ⟨answered, original, replied, given, written⟩ :=
    arrivalOf_response stems.refuses arrives
  obtain ⟨request, posted, stemmed⟩ := stems.answered answered original replied given
  obtain ⟨request', posted', content⟩ :=
    sound.waiting who party number post body capabilities found waits
  obtain rfl : request = request' := Option.some.inj (posted.symm.trans posted')
  obtain ⟨held, number', prepared', held', handle', built⟩ :=
    (sound.guarded who party found).upright.submitting number post body capabilities waits
  obtain rfl : number = number' := Option.some.inj (held.symm.trans held')
  obtain rfl : prepared = prepared' := Option.some.inj (handle.symm.trans handle')
  obtain ⟨entries, framed, accepted⟩ := bind_eq_ok.mp accepted
  obtain ⟨found', read, accepted⟩ := bind_eq_ok.mp accepted
  obtain ⟨counter, _, accepted⟩ := bind_eq_ok.mp accepted
  obtain ⟨_, _, accepted⟩ := bind_eq_ok.mp accepted
  obtain ⟨rfl, _⟩ := Prod.mk.inj (pure_eq_ok.mp accepted)
  refine ⟨request, answered, original, content ▸ built, given, stemmed, party.client,
    answered.epoch, answered.nextSequence, bytes, value, written, decoded, ?_⟩
  exact bind_eq_ok.mpr ⟨entries, framed, read⟩

/-- A client that is not at the end of a POST returns nothing. -/
theorem Sound.aside {python : Python.Interpreter α} {library : JsonLibrary α}
    {net : Net α σ} {facts : List (Fact α)} (sound : Sound python library net facts)
    (config : Config) (who : Nat) {event : Sdk.Event α}
    (other : ∀ bytes, event ≠ .finished (.response 200 bytes)) :
    let done := clientStep python config net who event
    Sound python library done.1 (facts ++ done.2) := by
  refine sound.client config who _ ?_
  intro party prepared receipt _ told
  obtain ⟨arrival, _, _, _, _, _, same, _, _, passed⟩ := Sdk.act_returns told
  obtain ⟨_, _, _, arrived, _⟩ := Sdk.submitted_eq_ok passed
  obtain ⟨bytes, arrives, _⟩ := arrived_eq_ok arrived
  exact absurd (same.trans (congrArg Sdk.Event.finished arrives)) (other bytes)

/-- One move. -/
theorem Sound.step {python : Python.Interpreter α} {library : JsonLibrary α}
    {net : Net α σ} {facts : List (Fact α)} (sound : Sound python library net facts)
    (config : Config) (apply : Callback α σ) (move : Move α) :
    let done := Wire.step python config library apply net move
    Sound python library done.1 (facts ++ done.2) := by
  cases move with
  | call who method => exact sound.aside config who (by simp)
  | read who arrival => exact sound.aside config who (by simp)
  | lose who => exact sound.aside config who (by simp)
  | host input =>
      exact sound.host config apply none input fun _ _ _ _ impossible => by cases impossible
  | deliver post deadline moment =>
      unfold Wire.step
      dsimp only
      split
      · rw [List.append_nil]
        exact sound
      · rename_i request found
        refine sound.host config apply (some post) _ ?_
        intro number other deadline' moment' same accepted
        cases same
        cases accepted
        exact found
  | receive who position =>
      unfold Wire.step
      dsimp only
      split
      · rw [List.append_nil]
        exact sound
      · rename_i reply answer
        exact sound.receive config answer

/-- A whole run. -/
theorem Sound.run {python : Python.Interpreter α} {library : JsonLibrary α}
    {net : Net α σ} {facts : List (Fact α)} (sound : Sound python library net facts)
    (config : Config) (apply : Callback α σ) (moves : List (Move α)) :
    ∃ last : Net α σ,
      Sound python library last (facts ++ Wire.run python config library apply net moves) := by
  induction moves generalizing net facts with
  | nil => exact ⟨net, by rwa [Wire.run, List.append_nil]⟩
  | cons move rest inductionHypothesis =>
      obtain ⟨last, final⟩ := inductionHypothesis (sound.step config apply move)
      refine ⟨last, ?_⟩
      rw [Wire.run, ← List.append_assoc]
      exact final

theorem sound_start (python : Python.Interpreter α) (library : JsonLibrary α)
    (config : Config) (ledger : Ledger) (state : σ) (issues : PerPrincipal Issue)
    {parties : List (Party α)} (fresh : ∀ party ∈ parties, party.Fresh) :
    Sound python library (start config ledger state issues parties : Net α σ) [] where
  guarded := fun _ party found => Sdk.Guarded.fresh (fresh party (List.mem_of_getElem? found))
  waiting := by
    intro who party number post body capabilities found waits
    obtain ⟨_, _, _, idle⟩ := fresh party (List.mem_of_getElem? found)
    rw [idle] at waits
    cases waits
  aligned := rfl
  bodies := fun _ _ found => by cases found
  answers := fun _ _ member => by cases member
  absent := fun _ _ => rfl
  returned := fun _ _ _ member => by cases member

/-! ## The log of the host -/

/-- The inputs of the host in a run. -/
def inputs (facts : List (Fact α)) : List Input :=
  (sections facts).map Prod.fst

/-- A move is no section of the host, or one. -/
theorem step_sections (python : Python.Interpreter α) (config : Config)
    (library : JsonLibrary α) (apply : Callback α σ) (net : Net α σ) (move : Move α) :
    let done := Wire.step python config library apply net move
    (sections done.2 = [] ∧ done.1.system = net.system ∧ issuesOf move = []) ∨
      ∃ input,
        let next := PolicyHost.step config library apply net.system input
        sections done.2 = [(input, ⟨net.system.host.sessions, next.1.host.sessions, next.2⟩)] ∧
          done.1.system = next.1 ∧ PolicyHost.issuesOf input = issuesOf move := by
  have client (who : Nat) (event : Sdk.Event α) :
      sections (clientStep python config net who event).2 = [] ∧
        (clientStep python config net who event).1.system = net.system := by
    unfold clientStep
    dsimp only
    split
    · exact ⟨rfl, rfl⟩
    · exact ⟨by simp [sections, Fact.section?], rfl⟩
  cases move with
  | call who method =>
      obtain ⟨none, same⟩ := client who (.called method)
      exact Or.inl ⟨none, same, rfl⟩
  | read who arrival =>
      obtain ⟨none, same⟩ := client who (.read arrival)
      exact Or.inl ⟨none, same, rfl⟩
  | lose who =>
      obtain ⟨none, same⟩ := client who (.finished .lost)
      exact Or.inl ⟨none, same, rfl⟩
  | host input => exact Or.inr ⟨input, rfl, rfl, rfl⟩
  | deliver post deadline moment =>
      unfold Wire.step
      dsimp only
      split
      · exact Or.inl ⟨rfl, rfl, rfl⟩
      · exact Or.inr ⟨_, rfl, rfl, rfl⟩
  | receive who position =>
      unfold Wire.step
      dsimp only
      split
      · exact Or.inl ⟨rfl, rfl, rfl⟩
      · rename_i reply _
        obtain ⟨none, same⟩ := client who (.finished (arrivalOf library reply))
        exact Or.inl ⟨none, same, rfl⟩

omit [Scalar α] in
theorem sections_append (first second : List (Fact α)) :
    sections (first ++ second) = sections first ++ sections second := by
  simp [sections]

/-- What a run shows of the host is a run of the host. -/
theorem run_hostLog (python : Python.Interpreter α) (config : Config)
    (library : JsonLibrary α) (apply : Callback α σ) (net : Net α σ)
    (moves : List (Move α)) :
    let facts := Wire.run python config library apply net moves
    hostLog facts = PolicyHost.run config library apply net.system (inputs facts) ∧
      (inputs facts).flatMap PolicyHost.issuesOf = moves.flatMap issuesOf := by
  induction moves generalizing net with
  | nil => exact ⟨rfl, rfl⟩
  | cons move rest inductionHypothesis =>
      intro facts
      have shape : facts =
          (Wire.step python config library apply net move).2 ++
            Wire.run python config library apply
              (Wire.step python config library apply net move).1 rest := rfl
      obtain ⟨log, issued⟩ :=
        inductionHypothesis (Wire.step python config library apply net move).1
      rw [List.flatMap_cons, shape, hostLog_append, inputs, sections_append, log]
      rcases step_sections python config library apply net move with
        ⟨none, same, idle⟩ | ⟨input, one, same, issues⟩
      · rw [hostLog, none, same, idle]
        exact ⟨rfl, issued⟩
      · rw [hostLog, one, same, ← issues]
        exact ⟨rfl, congrArg (PolicyHost.issuesOf input ++ ·) issued⟩

/-- A receipt that `submit` returns is read from the one that the callback returned for
the posted body, or for one with the same canonical text under the same key. -/
def OwnReceipt (python : Python.Interpreter α) (library : JsonLibrary α)
    (log : List (PolicyHost.Event α)) (prepared : Sdk.PreparedTransaction)
    (receipt : Sdk.Receipt) : Prop :=
  ∃ body envelope event attempt original,
    Sdk.posted python prepared = .ok body ∧ parse library body = .ok envelope ∧
      event ∈ log ∧ event.act = .attempted attempt ∧ attempt.ran = some (.ok original) ∧
      attempt.epoch = envelope.idempotency.epoch ∧
      attempt.sequence = envelope.idempotency.sequence ∧
      serialize library attempt.envelope = serialize library envelope ∧
      Reads python library original receipt

theorem Returned.own {python : Python.Interpreter α} {library : JsonLibrary α}
    {facts : List (Fact α)} {prepared : Sdk.PreparedTransaction} {receipt : Sdk.Receipt}
    (returned : Returned python library facts prepared receipt)
    (admission : PolicyHost.Admission library (hostLog facts)) :
    OwnReceipt python library (hostLog facts) prepared receipt := by
  obtain ⟨request, told, original, posted, given, ⟨attempt, ⟨event, member, acted⟩, _, replied,
    parsed, ran⟩, reads⟩ := returned
  rcases ran with idle | own
  · obtain ⟨past, after, split⟩ := List.append_of_mem member
    have admitted := admission.admitted past event after attempt split acted
    obtain ⟨earlier, inside, first, kept, firstActed, _, epoch, sequence, canonical, run,
      held⟩ := admitted.replayed told replied idle
    obtain rfl : original = kept := Option.some.inj (given.symm.trans held)
    refine ⟨request.body, attempt.envelope, earlier, first, original, posted, parsed, ?_,
      firstActed, run, epoch, sequence, canonical, reads⟩
    rw [split]
    exact List.mem_append_left _ inside
  · exact ⟨request.body, attempt.envelope, event, attempt, original, posted, parsed, member,
      acted, own, rfl, rfl, rfl, reads⟩

omit [Scalar α] in
theorem notice?_eq_some {who : Nat} {fact : Fact α} {notice : Notice}
    (told : fact.notice? who = some notice) : fact = .client who notice := by
  cases fact with
  | host input event => cases told
  | client other shown =>
      by_cases same : other = who
      · rw [Fact.notice?, if_pos same] at told
        rw [same, Option.some.inj told]
      · rw [Fact.notice?, if_neg same] at told
        cases told

/-- Over any interleaving of the clients, the wire and the host, as long as no two epochs
that were issued agree: the callback runs at most once for a key, a receipt that `submit`
returns belongs to the body that it posts, and a body whose outcome is unknown is the only
one its client posts until a resync or its receipt. -/
theorem retries_once (python : Python.Interpreter α) (config : Config)
    (library : JsonLibrary α) (apply : Callback α σ) (ledger : Ledger) (state : σ)
    (issues : PerPrincipal Issue) {parties : List (Party α)}
    (fresh : ∀ party ∈ parties, party.Fresh) (moves : List (Move α))
    (distinct :
      PolicyHost.Distinct (PolicyHost.issuesOf (.renew issues) ++ moves.flatMap issuesOf)) :
    let facts := run python config library apply
      (start config ledger state issues parties) moves
    (∀ epoch, (PolicyHost.executions epoch (hostLog facts)).Nodup) ∧
    (∀ who prepared receipt, .returned prepared receipt ∈ notices who facts →
      OwnReceipt python library (hostLog facts) prepared receipt) ∧
    ∀ who, Sdk.HeldUntil Notice.settles (notices who facts) := by
  intro facts
  obtain ⟨log, issued⟩ := run_hostLog python config library apply
    (start config ledger state issues parties) moves
  have admission : PolicyHost.Admission library (hostLog facts) := by
    rw [log]
    refine PolicyHost.admission config library apply ledger state issues _ ?_
    rw [List.flatMap_cons, issued]
    exact distinct
  obtain ⟨last, sound⟩ :=
    (sound_start python library config ledger state issues fresh).run config apply moves
  rw [List.nil_append] at sound
  refine ⟨fun epoch => ?_, fun who prepared receipt told => ?_, fun who => ?_⟩
  · have numbers := admission.consecutive epoch
    have apart : (List.range' 1
        (PolicyHost.executions epoch (hostLog facts)).length).Nodup := List.nodup_range'
    rw [← numbers] at apart
    exact apart.of_map
  · obtain ⟨fact, member, told⟩ := List.mem_filterMap.mp told
    rw [notice?_eq_some told] at member
    exact (sound.returned who prepared receipt member).own admission
  · cases found : last.parties[who]? with
    | none =>
        rw [sound.absent who found]
        intro before body middle next after split
        exact absurd split (by simp)
    | some party => exact (sound.guarded who party found).held

open PolicyHost (guardedCall)
open Control (compactHost compactPython sampleClient sampleEpoch sampleIdentifier sampleOperations
  sampleToken)

def sampleIssues : PerPrincipal Issue := fun principal =>
  if principal.val = 0 then ⟨sampleToken, sampleEpoch, 0⟩
  else ⟨ascii "other", ascii "elsewhere", 0⟩

/-- A client that has negotiated. -/
def sampleParties : List (Party Halves) :=
  [⟨ascii "west", sampleClient, [], none, none⟩]

/-- The answer to the first POST is lost; the same handle is submitted again, is told the
receipt, and the client goes on to another transaction. -/
def sampleMoves : List (Move Halves) :=
  let moment : Moment := ⟨1, 1, 1, false⟩
  let serve (post : Nat) : List (Move Halves) :=
    [.deliver post 9 moment, .host (.reserve 0), .host (.transact 0 moment), .host (.close 0)]
  [.call 0 (.prepare sampleOperations 0 none sampleIdentifier), .call 0 (.submit 0 0)] ++
    serve 0 ++ [.lose 0, .call 0 (.submit 0 0)] ++ serve 1 ++
    [.receive 0 1, .call 0 (.prepare sampleOperations 1 none sampleIdentifier),
      .call 0 (.submit 0 1)]

def sampleFacts : List (Fact Halves) :=
  run compactPython ⟨ascii "workshop", 80, 30000, true⟩ compactHost (guardedCall compactHost)
    (start ⟨ascii "workshop", 80, 30000, true⟩ freshLedger
      ⟨1, ⟨1, ascii "workshop", 7, 8, 0, []⟩⟩ sampleIssues sampleParties)
    sampleMoves

/-- The body that a client posted, or does not know the outcome of. -/
def bodyAt (told : List Notice) (position : Nat) : Text :=
  match told[position]? with
  | some (.posted body) => body
  | some (.unknown body) => body
  | _ => []

/-- What the run shows: the second transaction is another one, its client was told the
receipt of the first but has not resynced, and the callback ran once. -/
structure SampleRun : Prop where
  told :
    notices 0 sampleFacts =
      (notices 0 sampleFacts).take 1 ++ .unknown (bodyAt (notices 0 sampleFacts) 1) ::
          ((notices 0 sampleFacts).drop 2).take 2 ++
        .posted (bodyAt (notices 0 sampleFacts) 4) :: []
  quiet : ∀ notice ∈ ((notices 0 sampleFacts).drop 2).take 2, notice.resyncs = false
  apart : bodyAt (notices 0 sampleFacts) 4 ≠ bodyAt (notices 0 sampleFacts) 1
  settles :
    (notices 0 sampleFacts).map Notice.settles = [false, false, false, true, false]
  executed : PolicyHost.executions sampleEpoch (hostLog sampleFacts) = [1]

set_option maxRecDepth 100000 in
theorem sampleFacts_run : SampleRun := by
  have all :
      (notices 0 sampleFacts =
          (notices 0 sampleFacts).take 1 ++ .unknown (bodyAt (notices 0 sampleFacts) 1) ::
              ((notices 0 sampleFacts).drop 2).take 2 ++
            .posted (bodyAt (notices 0 sampleFacts) 4) :: [] ∧
        (∀ notice ∈ ((notices 0 sampleFacts).drop 2).take 2, notice.resyncs = false) ∧
        bodyAt (notices 0 sampleFacts) 4 ≠ bodyAt (notices 0 sampleFacts) 1) ∧
      (notices 0 sampleFacts).map Notice.settles = [false, false, false, true, false] ∧
        PolicyHost.executions sampleEpoch (hostLog sampleFacts) = [1] := by
    decide +kernel
  obtain ⟨⟨told, quiet, apart⟩, settles, executed⟩ := all
  exact ⟨told, quiet, apart, settles, executed⟩

theorem sampleIssues_distinct :
    PolicyHost.Distinct
      (PolicyHost.issuesOf (.renew sampleIssues) ++ sampleMoves.flatMap issuesOf) := by
  unfold PolicyHost.Distinct
  decide +kernel

theorem sampleParties_fresh : ∀ party ∈ sampleParties, party.Fresh := by
  intro party member
  obtain rfl := List.mem_singleton.mp member
  exact ⟨rfl, rfl, rfl, rfl⟩

/-- A receipt releases a client as well as a resync does: after one it posts another body,
with no resync since the outcome was unknown. -/
theorem receipt_releases :
    (∀ party ∈ sampleParties, party.Fresh) ∧
      PolicyHost.Distinct
        (PolicyHost.issuesOf (.renew sampleIssues) ++ sampleMoves.flatMap issuesOf) ∧
      ¬ Sdk.HeldUntil Notice.resyncs (notices 0 sampleFacts) := by
  refine ⟨sampleParties_fresh, sampleIssues_distinct, fun held => ?_⟩
  exact sampleFacts_run.apart (held _ _ _ _ _ sampleFacts_run.told sampleFacts_run.quiet)

theorem retries_once_sample :
    (PolicyHost.executions sampleEpoch (hostLog sampleFacts) = [1] ∧
      (notices 0 sampleFacts).map Notice.settles = [false, false, false, true, false]) ∧
    (∀ epoch, (PolicyHost.executions epoch (hostLog sampleFacts)).Nodup) ∧
    (∀ who prepared receipt, .returned prepared receipt ∈ notices who sampleFacts →
      OwnReceipt compactPython compactHost (hostLog sampleFacts) prepared receipt) ∧
    ∀ who, Sdk.HeldUntil Notice.settles (notices who sampleFacts) :=
  ⟨⟨sampleFacts_run.executed, sampleFacts_run.settles⟩,
    retries_once compactPython _ compactHost _ _ _ _ sampleParties_fresh _ sampleIssues_distinct⟩

end Wire

end Omniweft
