import Omniweft.AssetsFormat
import Omniweft.PolicyLeases
import Omniweft.PolicyHostSteps
import Omniweft.PolicyStatus

/-!
# What the policy host has in use

The owner's callback runs the coordinator under a guard. Over any interleaving of
connections, renewals and transactions the ledger of the host counts the leases of the
open connections, and no principal retains more than its grant allows.
-/

namespace Omniweft.Policy

open Omniweft.Outcome World Commands Transactions

variable {α : Type} [Scalar α]

/-- No principal retains more than its grant allows. -/
def WithinGrants (retained : PerPrincipal Nat) : Prop :=
  ∀ principal, retained principal ≤ (grants principal).retainedLimit

/-- An operation that the guard lets pass leaves every principal within its grant. -/
theorem within_step {revision : UInt64} {operation : Operation α} {index : Nat}
    {staging next : Staging α} {guard final : Guard} (within : WithinGrants guard.retained)
    (applied :
      applyOperation (watching revision) operation index staging guard = .ok next final) :
    WithinGrants final.retained ∧ final.ledger = guard.ledger := by
  cases operation with
  | entityCreate operation =>
      obtain ⟨_, _, _, _, _, _, allowed, _⟩ := applyCreate_eq_ok.mp applied
      obtain ⟨_, _, _, _, _, _, limits, same⟩ := create_eq_ok.mp allowed
      rw [same]
      exact ⟨limits, rfl⟩
  | transformSet operation =>
      obtain ⟨_, _, _, _, _, _, _, _, allowed, _⟩ := applyTransform_eq_ok.mp applied
      obtain ⟨_, _, _, _, same⟩ := transform_eq_ok.mp allowed
      rw [same]
      exact ⟨within, rfl⟩
  | entityDelete operation =>
      obtain ⟨_, _, _, _, _, allowed, _⟩ := applyDelete_eq_ok.mp applied
      obtain ⟨_, _, _, _, _, limits, same⟩ := erase_eq_ok.mp allowed
      rw [same]
      exact ⟨limits, rfl⟩
  | entityReparent operation =>
      obtain ⟨_, _, _, _, _, _, _, _, _, _, same, _⟩ := applyReparent_eq_ok.mp applied
      rw [← same]
      exact ⟨within, rfl⟩
  | entityTagsSet operation =>
      obtain ⟨_, _, _, _, same, _⟩ := applyTagsSet_eq_ok.mp applied
      rw [← same]
      exact ⟨within, rfl⟩

/-- A guarded call, committed or not, leaves every principal within its grant. -/
theorem guarded_within (library : JsonLibrary α) (world : LiveWorld α)
    (envelope : Envelope α) {ledger : Ledger} (lease : Lease)
    (within : WithinGrants ledger.usage.retained) :
    WithinGrants
      (applyAtBoundary library world envelope (some hook)
        (none : Option (CommitObserver α Unit)) (Guard.create ledger lease)
          ()).guard.ledger.usage.retained := by
  rcases apply_cases library world envelope (some (hook : StagingGuard α Guard))
      (none : Option (CommitObserver α Unit)) none (Guard.create ledger lease) () with
    ⟨begun, staged, created, final, _, started, _, stagedOk, _, answered⟩ | ⟨_, _, left⟩
  · obtain ⟨_, _, _, _, beginning⟩ := begin_eq_ok.mp started
    obtain ⟨last, middle, run, _, finished, _⟩ := stage_eq_ok.mp stagedOk
    obtain ⟨_, sameFinal⟩ := (@finish_eq_ok α (formatted last.staged) middle final).mp finished
    have first : WithinGrants begun.retained ∧ WithinGrants begun.ledger.usage.retained := by
      rw [beginning]
      exact ⟨within, within⟩
    have kept :=
      @applyOperations_together α _ Guard (watching (world.state.worldRevision + 1))
        (fun _ guard => WithinGrants guard.retained ∧ guard.ledger = begun.ledger)
        envelope.operations
        (fun operation index staging next state final _ holds applied => by
          obtain ⟨passed, same⟩ := within_step holds.1 applied
          exact ⟨passed, same.trans holds.2⟩)
        0 ⟨world.state, [], []⟩ last begun middle ⟨first.1, rfl⟩ run
    have committed : WithinGrants (commit final).ledger.usage.retained := by
      unfold commit
      split
      · rw [sameFinal]
        exact kept.1
      · rw [sameFinal]
        change WithinGrants middle.ledger.usage.retained
        rw [kept.2]
        exact first.2
    rw [applyAtBoundary, answered]
    exact committed
  · have same := left_accounts left
    rw [applyAtBoundary, same.retained]
    exact within

end Omniweft.Policy

namespace Omniweft.PolicyHost

open Outcome World Commands Transactions Policy
open Python (hex64Pattern)

/-! ## The sections of a host -/

/-- `random_secret`: the text of 32 random bytes. -/
def randomSecret (random : Vector UInt8 32) : Text :=
  Assets.hex random.toList

/-- An epoch that `random_secret` can have returned. -/
def Drawn (issue : Issue) : Prop :=
  ∃ random, issue.epoch = randomSecret random

theorem secret_pattern (random : Vector UInt8 32) :
    hex64Pattern (randomSecret random) = true := by
  have letters := Assets.hex_all_lowercase random.toList
  have length : (randomSecret random).length = 64 := by simp [randomSecret]
  simp only [hex64Pattern, Bool.and_eq_true, decide_eq_true_eq]
  exact ⟨length, letters⟩

/-- A session that the host can tell of. -/
structure Serves (session : Session) : Prop where
  epoch : hex64Pattern session.epoch = true
  sequence : session.sequence ≠ 0
  window : session.retries.next ≠ 0

theorem next_ne_zero {number : UInt64} (more : ¬ (number == maximum64) = true) :
    number + 1 ≠ 0 := by
  intro zero
  refine more (beq_iff_eq.mpr (UInt64.toNat_inj.mp ?_))
  have wrapped := congrArg UInt64.toNat zero
  have bound := number.toNat_lt
  rw [UInt64.toNat_add] at wrapped
  change (number.toNat + 1) % 2 ^ 64 = 0 at wrapped
  change number.toNat = 2 ^ 64 - 1
  omega

theorem consume_next {window : Retry.Window} (positive : window.next ≠ 0) :
    (Retry.consume window).next ≠ 0 := by
  unfold Retry.consume
  split
  · exact positive
  · rename_i more
    exact next_ne_zero more

theorem Serves.consumed {session : Session} (serves : Serves session) :
    Serves (consumed session) := by
  obtain ⟨epoch, sequence, window⟩ := serves
  unfold PolicyHost.consumed
  split
  · exact ⟨epoch, sequence, window⟩
  · rename_i more
    exact ⟨epoch, next_ne_zero more, window⟩

section Sections

variable {α σ : Type} {Property : Ledger × σ → Prop}

/-- What a call of the window keeps of the state behind it. -/
theorem execute_keeps {callback : EStateM Thrown (Ledger × σ) Receipt}
    (keeps : Keeps Property callback) {state : Ledger × σ} (holds : Property state)
    {window : Retry.Window} (positive : window.next ≠ 0) (now : Nat) (sequence : UInt64)
    (canonical : Text) :
    let done := Retry.execute now sequence canonical (some callback) window state
    Property done.state ∧ done.window.next ≠ 0 := by
  intro done
  rcases Retry.execute_cases now sequence canonical (some callback) window state with
    ⟨called, same, _, _, performed⟩ | ⟨_, unchanged, emptied, _⟩
  · obtain rfl := Option.some.inj same
    obtain ⟨_, left, _, _, stored⟩ :=
      Retry.perform_spec now sequence canonical callback (Retry.expire now window) state
    rw [← performed] at left stored
    refine ⟨?_, ?_⟩
    · rw [left]
      unfold Retry.outcome
      split
      · rename_i thrown after stopped
        exact (keeps state holds).2 thrown after stopped
      · rename_i receipt after passed
        exact (keeps state holds).1 receipt after passed
    · rw [stored]
      exact consume_next positive
  · exact ⟨unchanged.symm ▸ holds, emptied.symm ▸ positive⟩

/-- The state behind a host has the property, and its sessions serve. -/
structure Standing (Property : Ledger × σ → Prop) (host : Host σ) : Prop where
  state : Property (host.ledger, host.state)
  serves : ∀ principal, Serves (host.sessions principal)

theorem Standing.settle {host : Host σ} (standing : Standing Property host)
    {principal : Principal} {session : Session} (served : Serves session)
    {left : Ledger × σ} (kept : Property left) :
    Standing Property (PolicyHost.settle host principal session left) := by
  refine ⟨kept, fun other => ?_⟩
  simp only [PolicyHost.settle]
  by_cases same : other = principal
  · rw [same, Function.update_self]
    exact served
  · rw [Function.update_of_ne same]
    exact standing.serves other

theorem Standing.volatile {host : Host σ} (standing : Standing Property host)
    {callback : EStateM Thrown (Ledger × σ) Receipt} (keeps : Keeps Property callback)
    (principal : Principal) (sequence : UInt64) (moment : Moment) :
    Standing Property (PolicyHost.volatile host principal sequence callback moment).host := by
  have own := (standing.serves principal).consumed
  unfold PolicyHost.volatile
  dsimp only
  split
  · exact standing
  · split
    · rename_i receipt left passed
      exact standing.settle own ((keeps _ standing.state).1 _ _ passed)
    · rename_i thrown left stopped
      exact standing.settle own ((keeps _ standing.state).2 _ _ stopped)

theorem Standing.retained {host : Host σ} (standing : Standing Property host)
    {callback : EStateM Thrown (Ledger × σ) Receipt} (keeps : Keeps Property callback)
    (principal : Principal) (sequence : UInt64) (canonical : Text) (moment : Moment) :
    Standing Property
      (PolicyHost.retained host principal sequence canonical callback moment).host := by
  have own := standing.serves principal
  obtain ⟨kept, positive⟩ :=
    execute_keeps keeps standing.state own.window moment.executed sequence canonical
  let done := Retry.execute moment.executed sequence canonical (some callback)
    (host.sessions principal).retries (host.ledger, host.state)
  have served : Serves
      { host.sessions principal with retries := done.window, sequence := done.window.next } :=
    ⟨own.epoch, positive, positive⟩
  exact standing.settle served kept

/-- A transaction section keeps what its callback keeps, and the sessions serve on. -/
theorem Standing.transact [Scalar α] {apply : Callback α σ} {envelope : Envelope α}
    {lease : Lease} (keeps : Keeps Property (apply envelope lease)) {host : Host σ}
    (standing : Standing Property host) (config : Config) (library : JsonLibrary α)
    (connection : Connection) (moment : Moment) :
    Standing Property
      (PolicyHost.transact config library apply host connection envelope lease moment).host := by
  unfold PolicyHost.transact
  dsimp only
  split
  · exact standing
  · split
    · exact standing
    · split
      · split
        · exact standing
        · exact standing.retained keeps _ _ _ moment
      · exact standing.volatile keeps _ _ moment

end Sections

/-! ## The owner's callback -/

section Guarded

variable {α : Type} [Scalar α]

/-- The callback that `policy_main` installs. -/
def guardedCall (library : JsonLibrary α) : Callback α (LiveWorld α) :=
  fun envelope lease both =>
    let applied :=
      applyAtBoundary library both.2 envelope (some hook)
        (none : Option (CommitObserver α Unit)) (Guard.create both.1 lease) ()
    let left := (applied.guard.ledger, applied.world)
    match applied.result with
    | .ok receipt => .ok receipt left
    | .error thrown => .error thrown left

/-- The reservations of a ledger stand, and no principal is over its grant. -/
structure Upheld (ledger other : Ledger) : Prop where
  working : other.usage.working = ledger.usage.working
  requests : other.usage.requests = ledger.usage.requests
  globalRequests : other.usage.globalRequests = ledger.usage.globalRequests
  globalLimit : other.globalLimit = ledger.globalLimit
  within : WithinGrants other.usage.retained

theorem guardedCall_keeps {library : JsonLibrary α} {ledger : Ledger}
    {Property : LiveWorld α → Prop} {envelope : Envelope α} {lease : Lease}
    (called : ∀ world ledger, Property world →
      Property (applyAtBoundary library world envelope (some hook)
        (none : Option (CommitObserver α Unit)) (Guard.create ledger lease) ()).world) :
    Keeps (fun both => Upheld ledger both.1 ∧ Property both.2)
      (guardedCall library envelope lease) := by
  intro both holds
  obtain ⟨upheld, standing⟩ := holds
  have reserve := guarded_reserve library both.2 envelope both.1 lease
  have left : Upheld ledger
      (applyAtBoundary library both.2 envelope (some hook)
        (none : Option (CommitObserver α Unit)) (Guard.create both.1 lease) ()).guard.ledger :=
    ⟨reserve.working.trans upheld.working, reserve.requests.trans upheld.requests,
      reserve.globalRequests.trans upheld.globalRequests,
      reserve.globalLimit.trans upheld.globalLimit,
      guarded_within library both.2 envelope lease upheld.within⟩
  have world := called both.2 both.1 standing
  refine ⟨?_, ?_⟩
  · intro receipt final passed
    unfold guardedCall at passed
    dsimp only at passed
    split at passed
    · cases passed
      exact ⟨left, world⟩
    · cases passed
  · intro thrown final stopped
    unfold guardedCall at stopped
    dsimp only at stopped
    split at stopped
    · cases stopped
    · cases stopped
      exact ⟨left, world⟩

end Guarded

/-! ## Whole runs -/

section Systems

variable {α σ : Type}

/-- The leases of the open connections as the books of the ledger. -/
def booksOf (system : System σ) : Books where
  ledger := system.host.ledger
  objects := system.connections.map fun connection =>
    connection.lease.map fun lease => ⟨true, lease, 0⟩
  admissions := 0

theorem tally_erase {objects : List (Option LeaseObject)} {index : Nat}
    {old : Option LeaseObject} (found : objects[index]? = some old)
    (measure : LeaseObject → Nat) :
    tally measure (objects.eraseIdx index) + tally measure [old] = tally measure objects := by
  obtain ⟨inside, same⟩ := List.getElem?_eq_some_iff.mp found
  have whole : objects = objects.take index ++ [old] ++ objects.drop (index + 1) := by
    rw [← same, List.append_assoc, List.singleton_append, List.cons_getElem_drop_succ,
      List.take_append_drop]
  have shape : tally measure objects =
      tally measure (objects.take index) + tally measure [old] +
        tally measure (objects.drop (index + 1)) := by
    conv_lhs => rw [whole]
    rw [tally_append, tally_append]
  rw [shape, List.eraseIdx_eq_take_drop_succ, tally_append]
  omega

theorem pendingAt_found {system : System σ} {index : Nat} {connection : Connection}
    (found : pendingAt system index = some connection) :
    system.connections[index]? = some connection :=
  (Option.filter_eq_some_iff.mp found).1

theorem booksOf_found {system : System σ} {index : Nat} {connection : Connection}
    (found : system.connections[index]? = some connection) :
    (booksOf system).objects[index]? =
      some (connection.lease.map fun lease => ⟨true, lease, 0⟩) := by
  simp [booksOf, found]

/-- What the host of a run keeps: its ledger counts the leases of its connections, every
session serves, and the owner's state has the property. -/
structure Steady (Property : σ → Prop) (system : System σ) : Prop where
  balanced : Balanced (booksOf system)
  limit : system.host.ledger.globalLimit ≤ 2
  within : WithinGrants system.host.ledger.usage.retained
  serves : ∀ principal, Serves (system.host.sessions principal)
  state : Property system.host.state

variable {Property : σ → Prop}

/-- Nothing but the sessions, the claim of a lease or an unleased connection is new. -/
theorem Steady.same {system next : System σ} (steady : Steady Property system)
    (ledger : next.host.ledger = system.host.ledger)
    (tallies : ∀ measure, tally measure (booksOf next).objects =
      tally measure (booksOf system).objects)
    (serves : ∀ principal, Serves (next.host.sessions principal))
    (state : next.host.state = system.host.state) : Steady Property next := by
  refine ⟨?_, ledger ▸ steady.limit, ledger ▸ steady.within, serves, state ▸ steady.state⟩
  exact steady.balanced.same (fun measure _ => tallies measure)
    (congrArg (fun ledger => ledger.usage.working) ledger)
    (congrArg (fun ledger => ledger.usage.requests) ledger)
    (congrArg (fun ledger => ledger.usage.globalRequests) ledger)
    (congrArg Ledger.globalLimit ledger)

/-- A connection is replaced by one with the same lease. -/
theorem answered_tally {system : System σ} {index : Nat} {connection : Connection}
    (found : system.connections[index]? = some connection) (host : Host σ)
    {other : Connection} (same : other.lease = connection.lease) (measure : LeaseObject → Nat) :
    tally measure (booksOf (withConnection (withHost system host) index other)).objects =
      tally measure (booksOf system).objects := by
  have moved := tally_set (booksOf_found found)
    (other.lease.map fun lease => ⟨true, lease, 0⟩) measure
  rw [same] at moved
  have shape : (booksOf (withConnection (withHost system host) index other)).objects =
      (booksOf system).objects.set index (connection.lease.map fun lease => ⟨true, lease, 0⟩) := by
    simp [booksOf, withConnection, withHost, same]
  rw [shape]
  exact Nat.add_right_cancel moved

theorem Steady.reserve {system : System σ} (steady : Steady Property system) {index : Nat}
    {connection : Connection} (found : system.connections[index]? = some connection)
    (unleased : connection.lease = none) :
    Steady Property (reserveAt system index connection : System σ × Act α).1 := by
  unfold reserveAt
  dsimp only
  split
  · exact steady.same rfl (answered_tally found system.host rfl) steady.serves rfl
  · rename_i lease ledger taken
    obtain ⟨_, _, _, _, _, limit, _⟩ := admitLease_cases taken
    obtain ⟨_, accounts⟩ := admitLease_eq_ok taken
    have admitted := steady.balanced.admitted connection.principal.val
      connection.request.contentLength
    rw [@admission_ok (booksOf system) _ _ _ _ taken] at admitted
    refine ⟨admitted.same ?_ rfl rfl rfl rfl, limit.le.trans steady.limit, ?_, steady.serves,
      steady.state⟩
    · intro measure _
      have moved := tally_set (booksOf_found found) (some ⟨true, lease, 0⟩) measure
      rw [unleased] at moved
      have shape : (booksOf (withConnection
          (withHost system { system.host with ledger := ledger }) index
            { connection with lease := some lease })).objects =
          (booksOf system).objects.set index (some ⟨true, lease, 0⟩) := by
        simp [booksOf, withConnection, withHost]
      rw [shape, tally_append]
      exact moved
    · change WithinGrants ledger.usage.retained
      rw [accounts.retained]
      exact steady.within

theorem Steady.close {system : System σ} (steady : Steady Property system) (index : Nat) :
    Steady Property (closeConnection system index) := by
  unfold closeConnection
  dsimp only
  cases found : system.connections[index]? with
  | none =>
      have whole := List.eraseIdx_of_length_le (List.getElem?_eq_none_iff.mp found)
      rw [whole]
      exact steady
  | some connection =>
      have erased := tally_erase (booksOf_found found)
      have shape (host : Host σ) :
          (booksOf ⟨host, system.connections.eraseIdx index⟩).objects =
            (booksOf system).objects.eraseIdx index := by
        simp [booksOf, List.eraseIdx_map]
      cases held : connection.lease with
      | none =>
          rw [held] at erased
          refine steady.same ?_ ?_ steady.serves rfl
          · simp [held]
          · intro measure
            rw [shape]
            exact erased measure
      | some lease =>
          rw [held] at erased
          have present : (booksOf system).object index = some ⟨true, lease, 0⟩ := by
            simp [Books.object, booksOf_found found, held]
          have destroyed := steady.balanced.destroy index
          unfold Books.destroy at destroyed
          rw [present] at destroyed
          simp only [if_true] at destroyed
          have ledger : ((some connection).bind Connection.lease).elim system.host.ledger
              (refund system.host.ledger) = refund system.host.ledger lease := by
            simp [held]
          rw [ledger]
          refine ⟨destroyed.same ?_ rfl rfl rfl rfl, steady.limit, steady.within,
            steady.serves, steady.state⟩
          intro measure _
          have emptied := tally_set (booksOf_found found) none measure
          rw [held] at emptied
          rw [shape]
          refine Nat.add_right_cancel ((erased measure).trans ?_)
          rw [tally_none, Nat.add_zero] at emptied
          exact emptied.symm

theorem authenticate_unleased {config : Config} {sessions : PerPrincipal Session}
    {request : Request} {deadline : Nat} {moment : Moment} {connection : Connection}
    (accepted : authenticate config sessions request deadline moment = .ok connection) :
    connection.lease = none := by
  unfold authenticate at accepted
  obtain ⟨_, _, accepted⟩ := bind_eq_ok.mp accepted
  obtain ⟨_, _, accepted⟩ := bind_eq_ok.mp accepted
  obtain ⟨_, _, accepted⟩ := bind_eq_ok.mp accepted
  rw [← pure_eq_ok.mp accepted]

theorem Steady.start {limit : Nat} {ledger : Ledger}
    (made : Ledger.create limit = .ok ledger) (config : Config) {state : σ}
    (holds : Property state) {issues : PerPrincipal Issue}
    (drawn : ∀ principal, Drawn (issues principal)) :
    Steady Property (start config ledger state issues) := by
  have balanced := Balanced.fresh made
  have fresh : ledger.globalLimit ≤ 2 ∧ WithinGrants ledger.usage.retained := by
    unfold Ledger.create at made
    split at made
    · cases made
    · rename_i within
      cases made
      refine ⟨?_, fun _ => Nat.zero_le _⟩
      change limit ≤ 2
      omega
  refine ⟨balanced.same (fun _ _ => rfl) rfl rfl rfl rfl, fresh.1, fresh.2,
    fun principal => ?_, holds⟩
  obtain ⟨random, secret⟩ := drawn principal
  refine ⟨?_, (by decide : (1 : UInt64) ≠ 0), (by decide : (1 : UInt64) ≠ 0)⟩
  change hex64Pattern (issues principal).epoch = true
  rw [secret]
  exact secret_pattern random

theorem received_supported {α : Type} [Scalar α] {config : Config} {library : JsonLibrary α}
    {body : Text} {envelope : Envelope α}
    (screened : received config library body = .ok envelope) :
    ∀ operation ∈ envelope.operations, supported operation = true := by
  unfold received at screened
  split at screened
  · cases screened
  · cases screened
  · rename_i parsed _
    obtain ⟨_, passed, same⟩ := bind_eq_ok.mp screened
    rw [← pure_eq_ok.mp same]
    obtain ⟨_, _, passed⟩ := bind_eq_ok.mp passed
    obtain ⟨_, known, _⟩ := bind_eq_ok.mp passed
    intro operation member
    have plain := List.any_eq_false.mp (rejectIf_eq_ok.mp known) operation member
    simpa using plain

section Worlds

variable {α : Type} [Scalar α] {library : JsonLibrary α} {Property : LiveWorld α → Prop}

/-- A guarded call with remote operations keeps a property of the world. -/
def Stable (library : JsonLibrary α) (Property : LiveWorld α → Prop) : Prop :=
  ∀ envelope, (∀ operation ∈ envelope.operations, supported operation = true) →
    ∀ world ledger lease, Property world →
      Property (applyAtBoundary library world envelope (some hook)
        (none : Option (CommitObserver α Unit)) (Guard.create ledger lease) ()).world

theorem Steady.transact (stable : Stable library Property) {system : System (LiveWorld α)}
    (steady : Steady Property system) {index : Nat} {connection : Connection}
    (found : system.connections[index]? = some connection) (config : Config) (lease : Lease)
    (moment : Moment) :
    Steady Property (transactAt config library (guardedCall library) system index connection
      lease moment).1 := by
  unfold transactAt
  dsimp only
  split
  · exact steady.same rfl (answered_tally found system.host rfl) steady.serves rfl
  · rename_i envelope screened
    have standing :
        Standing (fun both => Upheld system.host.ledger both.1 ∧ Property both.2) system.host :=
      ⟨⟨⟨rfl, rfl, rfl, rfl, steady.within⟩, steady.state⟩, steady.serves⟩
    have left := standing.transact
      (guardedCall_keeps fun world ledger =>
        stable envelope (received_supported screened) world ledger lease)
      config library connection moment
    obtain ⟨⟨working, requests, globalRequests, globalLimit, within⟩, state⟩ := left.state
    refine ⟨steady.balanced.same ?_ working requests globalRequests globalLimit,
      globalLimit.le.trans steady.limit, within, left.serves, state⟩
    intro measure _
    exact @answered_tally _ system index connection found _ { connection with answered := true }
      rfl measure

/-- One step of the host. What a renewal draws are secrets. -/
theorem Steady.step (stable : Stable library Property) {system : System (LiveWorld α)}
    (steady : Steady Property system) (config : Config) (input : Input)
    (drawn : ∀ issues, input = .renew issues → ∀ principal, Drawn (issues principal)) :
    Steady Property (step config library (guardedCall library) system input).1 := by
  cases input with
  | renew issues =>
      refine steady.same rfl (fun _ => rfl) (fun principal => ?_) rfl
      obtain ⟨random, secret⟩ := drawn issues rfl principal
      refine ⟨?_, (by decide : (1 : UInt64) ≠ 0), (by decide : (1 : UInt64) ≠ 0)⟩
      change hex64Pattern (issues principal).epoch = true
      rw [secret]
      exact secret_pattern random
  | accept request deadline moment =>
      unfold PolicyHost.step
      dsimp only
      split
      · exact steady
      · rename_i connection accepted
        refine steady.same rfl (fun measure => ?_) steady.serves rfl
        have shape : (booksOf ⟨system.host, system.connections ++ [connection]⟩).objects =
            (booksOf system).objects ++ [none] := by
          simp [booksOf, authenticate_unleased accepted]
        rw [shape, tally_append, tally_none, Nat.add_zero]
  | reserve index =>
      unfold PolicyHost.step
      dsimp only
      split
      · rename_i connection pending
        split
        · exact steady
        · rename_i free
          have unleased : connection.lease = none := by
            simp only [Bool.or_eq_true, not_or, Bool.not_eq_true, Option.isSome_eq_false_iff,
              Option.isNone_iff_eq_none] at free
            exact free.2
          exact steady.reserve (pendingAt_found pending) unleased
      · exact steady
  | consult index moment =>
      unfold PolicyHost.step
      dsimp only
      split
      · rename_i connection pending
        split
        · exact steady
        · exact steady.same rfl (answered_tally (pendingAt_found pending) system.host rfl)
            steady.serves rfl
      · exact steady
  | transact index moment =>
      unfold PolicyHost.step
      dsimp only
      split
      · rename_i connection pending
        split
        · exact steady.transact stable (pendingAt_found pending) config _ moment
        · exact steady
      · exact steady
  | close index => exact steady.close index

/-- The system after some inputs. -/
def after {σ : Type} (config : Config) (library : JsonLibrary α) (apply : Callback α σ)
    (system : System σ) (inputs : List Input) : System σ :=
  inputs.foldl (fun system input => (step config library apply system input).1) system

/-- Every renewal among the inputs draws secrets. -/
def Secrets (inputs : List Input) : Prop :=
  ∀ issues, .renew issues ∈ inputs → ∀ principal, Drawn (issues principal)

theorem Steady.run (stable : Stable library Property) {system : System (LiveWorld α)}
    (steady : Steady Property system) (config : Config) {inputs : List Input}
    (secrets : Secrets inputs) :
    Steady Property (after config library (guardedCall library) system inputs) := by
  induction inputs generalizing system with
  | nil => exact steady
  | cons input rest inductionHypothesis =>
      have stepped := steady.step stable config input fun issues same =>
        secrets issues (List.mem_cons.mpr (Or.inl same.symm))
      exact inductionHypothesis stepped fun issues member =>
        secrets issues (List.mem_cons_of_mem _ member)

end Worlds

/-- What the ledger of a run counts for a principal adds up. -/
theorem Steady.readable {system : System σ} (steady : Steady Property system)
    (principal : Principal) :
    ReadableUsage system.host.ledger.usage principal := by
  have balanced := steady.balanced
  have requests : system.host.ledger.usage.requests principal =
      ((booksOf system).held principal).length := balanced.requests principal
  have working : system.host.ledger.usage.working principal =
      (((booksOf system).held principal).map fun object => reserved object.lease.bytes).sum :=
    balanced.working principal
  have global : system.host.ledger.usage.globalRequests = (booksOf system).live.length :=
    balanced.global
  refine ⟨steady.within principal, balanced.allowed principal, balanced.single principal,
    balanced.limited.trans steady.limit, ?_, ?_, ?_⟩
  · rw [requests, global]
    exact List.length_filter_le _ _
  · intro idle
    rw [requests, List.length_eq_zero_iff] at idle
    rw [working, idle]
    rfl
  · intro busy
    rw [requests, List.length_eq_one_iff] at busy
    obtain ⟨object, only⟩ := busy
    rw [working, only, List.map_singleton, List.sum_singleton, reserved, slotCount]
    omega

end Systems

end Omniweft.PolicyHost
