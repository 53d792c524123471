import Omniweft.PolicyHostSteps
import Omniweft.JsonText

/-!
# Admission across renewals

The callback runs only for a request whose bearer and epoch are those of the
session that is current when it runs, and within one epoch it runs for the numbers
one, two, three and so on. What carries this over a run is that no two epochs
agree: an epoch then names one principal and one token.
-/

namespace Omniweft.PolicyHost

open Outcome Commands Transactions Policy

variable {α σ : Type}

def Event.executionIn (epoch : Text) (event : Event α) : Option UInt64 :=
  match event.act with
  | .attempted attempt =>
      if attempt.epoch = epoch ∧ attempt.ran.isSome then some attempt.sequence else none
  | _ => none

/-- The numbers the callback ran for in an epoch. -/
def executions (epoch : Text) (log : List (Event α)) : List UInt64 :=
  log.filterMap (Event.executionIn epoch)

section Laws

variable [Scalar α]

/-- What a transaction may do, given the log before it. -/
structure Admitted (library : JsonLibrary α) (past : List (Event α)) (event : Event α)
    (attempt : Attempt α) : Prop where
  current :
    attempt.ran.isSome = true →
      let session := event.before attempt.connection.principal
      bearer attempt.connection.request = some session.token ∧
        attempt.epoch = session.epoch ∧ attempt.moment.compared < session.expires
  separate :
    ∀ other, other ≠ attempt.connection.principal → event.after other = event.before other
  replayed :
    ∀ reply, attempt.reply = .ok reply → attempt.ran = none →
      ∃ earlier ∈ past, ∃ first receipt,
        earlier.act = .attempted first ∧
          first.connection.principal = attempt.connection.principal ∧
          first.epoch = attempt.epoch ∧ first.sequence = attempt.sequence ∧
          serialize library first.envelope = serialize library attempt.envelope ∧
          first.ran = some (.ok receipt) ∧ reply.receipt = some receipt
  kept :
    attempt.ran = none →
      ∀ principal,
        Kept attempt.moment.executed (event.before principal) (event.after principal)

/-- What admission promises of a whole log. -/
structure Admission (library : JsonLibrary α) (log : List (Event α)) : Prop where
  admitted :
    ∀ past event after attempt, log = past ++ event :: after →
      event.act = .attempted attempt → Admitted library past event attempt
  consecutive :
    ∀ epoch,
      (executions epoch log).map UInt64.toNat =
        List.range' 1 (executions epoch log).length
  idle :
    ∀ event ∈ log,
      (∀ attempt, event.act ≠ .attempted attempt) →
        (∀ issues, event.act ≠ .renewed issues) → event.after = event.before

end Laws

def issuesOf : Input → List (Principal × Issue)
  | .renew issues =>
      (List.finRange principalCount).map fun principal => (principal, issues principal)
  | _ => []

/-- No two epochs agree. -/
def Distinct (issued : List (Principal × Issue)) : Prop :=
  (issued.map fun entry => entry.2.epoch).Nodup

theorem Distinct.same {issued : List (Principal × Issue)} (distinct : Distinct issued)
    {first second : Principal × Issue} (firstMember : first ∈ issued)
    (secondMember : second ∈ issued) (agree : first.2.epoch = second.2.epoch) :
    first = second :=
  List.inj_on_of_nodup_map distinct firstMember secondMember agree

theorem Distinct.fresh {past new : List (Principal × Issue)}
    (distinct : Distinct (past ++ new)) {first second : Principal × Issue}
    (firstMember : first ∈ past) (secondMember : second ∈ new) :
    first.2.epoch ≠ second.2.epoch := by
  unfold Distinct at distinct
  rw [List.map_append] at distinct
  exact (List.nodup_append.mp distinct).2.2 _ (List.mem_map_of_mem firstMember) _
    (List.mem_map_of_mem secondMember)

/-- The epoch of a call was issued to the principal it was made for. -/
structure Origin [Scalar α] (config : Config) (library : JsonLibrary α)
    (issued : List (Principal × Issue)) (attempt : Attempt α) (call : Retry.Event) :
    Prop where
  named : call.sequence = attempt.sequence
  written :
    config.retainedRetries = true → serialize library attempt.envelope = .ok call.canonical
  issued :
    ∃ issue, (attempt.connection.principal, issue) ∈ issued ∧ issue.epoch = attempt.epoch

/-- The bearer and the epoch of a connection were issued together, to its principal. -/
def Bound (issued : List (Principal × Issue)) (connection : Connection) : Prop :=
  ∃ issue,
    (connection.principal, issue) ∈ issued ∧
      bearer connection.request = some issue.token ∧ connection.epoch = issue.epoch

structure Inv [Scalar α] (config : Config) (library : JsonLibrary α)
    (issued : List (Principal × Issue)) (system : System σ) (log : List (Event α)) :
    Prop where
  sessions :
    ∀ principal, ∃ issue,
      (principal, issue) ∈ issued ∧
        (system.host.sessions principal).token = issue.token ∧
        (system.host.sessions principal).epoch = issue.epoch
  connections : ∀ connection ∈ system.connections, Bound issued connection
  counts :
    ∀ principal,
      Counts config (system.host.sessions principal)
        (calls (system.host.sessions principal).epoch log)
  tight :
    ∀ epoch, Numbering.Tight Retry.Event.executed Retry.Event.number (calls epoch log)
  origins :
    ∀ event ∈ log, ∀ attempt call, event.act = .attempted attempt →
      attempt.call = some call → Origin config library issued attempt call

theorem calls_snoc (epoch : Text) (log : List (Event α)) (event : Event α) :
    calls epoch (log ++ [event]) = calls epoch log ++ (event.callIn epoch).toList := by
  unfold calls
  rw [List.filterMap_append]
  cases found : event.callIn epoch <;> simp [found]

theorem callIn_none {event : Event α} (epoch : Text)
    (quiet : ∀ attempt, event.act = .attempted attempt → attempt.call = none) :
    event.callIn epoch = none := by
  unfold Event.callIn
  split
  · rename_i attempt same
    rw [quiet attempt same, ite_self]
  · rfl

theorem mem_calls {epoch : Text} {log : List (Event α)} {call : Retry.Event}
    (member : call ∈ calls epoch log) :
    ∃ event ∈ log, ∃ attempt,
      event.act = .attempted attempt ∧ attempt.epoch = epoch ∧
        attempt.call = some call := by
  obtain ⟨event, inside, found⟩ := List.mem_filterMap.mp member
  unfold Event.callIn at found
  split at found
  · rename_i attempt same
    split at found
    · rename_i named
      exact ⟨event, inside, attempt, same, named, found⟩
    · exact absurd found (by simp)
  · exact absurd found (by simp)

section Steps

variable [Scalar α]

/-- The numbers of an epoch are those of its calls that ran. -/
theorem Inv.executions {config : Config} {library : JsonLibrary α}
    {issued : List (Principal × Issue)} {system : System σ} {log : List (Event α)}
    (inv : Inv config library issued system log) (epoch : Text) :
    (executions epoch log).map UInt64.toNat =
      ((calls epoch log).filter Retry.Event.executed).map Retry.Event.number := by
  have origins := inv.origins
  clear inv
  induction log with
  | nil => rfl
  | cons event rest inductionHypothesis =>
      have tail := inductionHypothesis fun later member =>
        origins later (List.mem_cons_of_mem event member)
      have head := origins event List.mem_cons_self
      unfold PolicyHost.executions calls at tail ⊢
      cases acted : event.act with
      | attempted attempt =>
          by_cases named : attempt.epoch = epoch
          · cases reached : attempt.call with
            | none =>
                simpa [Event.executionIn, Event.callIn, acted, named, reached,
                  Attempt.ran] using tail
            | some call =>
                have same := (head attempt call acted reached).named
                cases ran : call.ran with
                | none =>
                    simpa [Event.executionIn, Event.callIn, acted, named, reached,
                      Attempt.ran, ran, Retry.Event.executed] using tail
                | some outcome =>
                    simpa [Event.executionIn, Event.callIn, acted, named, reached,
                      Attempt.ran, ran, Retry.Event.executed, Retry.Event.number, same]
                      using tail
          · simpa [Event.executionIn, Event.callIn, acted, named] using tail
      | renewed issues => simpa [Event.executionIn, Event.callIn, acted] using tail
      | answered reply => simpa [Event.executionIn, Event.callIn, acted] using tail
      | silent => simpa [Event.executionIn, Event.callIn, acted] using tail

theorem Inv.consecutive {config : Config} {library : JsonLibrary α}
    {issued : List (Principal × Issue)} {system : System σ} {log : List (Event α)}
    (inv : Inv config library issued system log) (epoch : Text) :
    (PolicyHost.executions epoch log).map UInt64.toNat =
      List.range' 1 (PolicyHost.executions epoch log).length := by
  have same := inv.executions epoch
  have numbers := (inv.tight epoch).numbers
  rw [same, numbers]
  congr 1
  have lengths := congrArg List.length (same.trans numbers)
  rw [List.length_map, List.length_range'] at lengths
  exact lengths.symm

/-- A step that touches no session and calls nothing. -/
theorem Inv.quiet {config : Config} {library : JsonLibrary α}
    {issued : List (Principal × Issue)} {system next : System σ} {log : List (Event α)}
    (inv : Inv config library issued system log) (event : Event α)
    (sessions : next.host.sessions = system.host.sessions)
    (connections : ∀ connection ∈ next.connections, Bound issued connection)
    (still : ∀ attempt, event.act = .attempted attempt → attempt.call = none) :
    Inv config library issued next (log ++ [event]) := by
  have same : ∀ epoch, calls epoch (log ++ [event]) = calls epoch log := by
    intro epoch
    rw [calls_snoc, callIn_none epoch still, Option.toList_none, List.append_nil]
  refine ⟨?_, connections, ?_, ?_, ?_⟩
  · rw [sessions]
    exact inv.sessions
  · intro principal
    rw [sessions, same]
    exact inv.counts principal
  · intro epoch
    rw [same]
    exact inv.tight epoch
  · intro earlier member attempt call acted reached
    rcases List.mem_append.mp member with old | new
    · exact inv.origins earlier old attempt call acted reached
    · rw [List.mem_singleton.mp new] at acted
      exact absurd (reached.symm.trans (still attempt acted)) (by simp)

/-- A renewal starts both principals on epochs that nothing was called in. -/
theorem Inv.renewed {config : Config} {library : JsonLibrary α}
    {issued : List (Principal × Issue)} {system : System σ} {log : List (Event α)}
    (inv : Inv config library issued system log) (issues : PerPrincipal Issue)
    (distinct : Distinct (issued ++ issuesOf (.renew issues)))
    (event : Event α) (act : event.act = .renewed issues) :
    Inv config library (issued ++ issuesOf (.renew issues))
      (withHost system (PolicyHost.renew config system.host issues)) (log ++ [event]) := by
  have still : ∀ attempt, event.act = .attempted attempt → attempt.call = none := by
    intro attempt attempted
    rw [act] at attempted
    exact absurd attempted (by simp)
  have same : ∀ epoch, calls epoch (log ++ [event]) = calls epoch log := by
    intro epoch
    rw [calls_snoc, callIn_none epoch still, Option.toList_none, List.append_nil]
  have drawn : ∀ principal, (principal, issues principal) ∈ issuesOf (.renew issues) :=
    fun principal => List.mem_map_of_mem (List.mem_finRange principal)
  refine ⟨?_, ?_, ?_, ?_, ?_⟩
  · intro principal
    exact ⟨issues principal, List.mem_append_right issued (drawn principal), rfl, rfl⟩
  · intro connection member
    obtain ⟨issue, known, presented, epoch⟩ := inv.connections connection member
    exact ⟨issue, List.mem_append_left _ known, presented, epoch⟩
  · intro principal
    have blank : calls (issues principal).epoch log = [] := by
      rw [List.eq_nil_iff_forall_not_mem]
      intro call member
      obtain ⟨earlier, inside, attempt, acted, named, reached⟩ := mem_calls member
      obtain ⟨issue, known, epoch⟩ :=
        (inv.origins earlier inside attempt call acted reached).issued
      exact distinct.fresh known (drawn principal) (epoch.trans named)
    change Counts config (PolicyHost.renewed config _ (issues principal))
      (calls (issues principal).epoch (log ++ [event]))
    rw [same, blank]
    exact counts_renewed config _ (issues principal)
  · intro epoch
    rw [same]
    exact inv.tight epoch
  · intro earlier member attempt call acted reached
    rcases List.mem_append.mp member with old | new
    · obtain ⟨named, written, issue, known, epoch⟩ :=
        inv.origins earlier old attempt call acted reached
      exact ⟨named, written, issue, List.mem_append_left _ known, epoch⟩
    · rw [List.mem_singleton.mp new] at acted
      exact absurd (reached.symm.trans (still attempt acted)) (by simp)

/-- What one event promises, given the log before it. -/
structure Lawful (library : JsonLibrary α) (log : List (Event α)) (event : Event α) :
    Prop where
  admitted :
    ∀ attempt, event.act = .attempted attempt → Admitted library log event attempt
  idle :
    (∀ attempt, event.act ≠ .attempted attempt) →
      (∀ issues, event.act ≠ .renewed issues) → event.after = event.before

theorem lawful_quiet {library : JsonLibrary α} {log : List (Event α)} {event : Event α}
    (same : event.after = event.before)
    (quiet : ∀ attempt, event.act ≠ .attempted attempt) :
    Lawful library log event :=
  ⟨fun attempt acted => absurd acted (quiet attempt), fun _ _ => same⟩

/-- The section of a transaction, on the connection it was bound to. -/
theorem Inv.transacted {config : Config} {library : JsonLibrary α}
    {apply : Callback α σ} {issued : List (Principal × Issue)} {system next : System σ}
    {log : List (Event α)} (inv : Inv config library issued system log)
    (distinct : Distinct issued) {connection : Connection}
    (bound : Bound issued connection) (envelope : Envelope α) (lease : Lease)
    (moment : Moment)
    (sessions :
      next.host.sessions =
        (PolicyHost.transact config library apply system.host connection envelope lease
          moment).host.sessions)
    (connections : ∀ connection ∈ next.connections, Bound issued connection) :
    let done := PolicyHost.transact config library apply system.host connection envelope
      lease moment
    let event : Event α :=
      ⟨system.host.sessions, next.host.sessions,
        .attempted ⟨connection, envelope, moment, done.call, done.reply⟩⟩
    Inv config library issued next (log ++ [event]) ∧ Lawful library log event := by
  intro done event
  have counts := inv.counts connection.principal
  rcases transact_cases library apply envelope lease moment counts with
    ⟨uncalled, unchanged, halt, refusal⟩ | ⟨call, served, stands, named, live, written⟩
  · have same : next.host.sessions = system.host.sessions := by
      rw [sessions, unchanged]
    refine ⟨inv.quiet event same connections ?_, ?_, fun other => absurd rfl (other _)⟩
    · intro attempt acted
      rw [← Act.attempted.inj acted]
      exact uncalled
    · intro attempt acted
      have idle : (done.call.bind Retry.Event.ran).isSome = false := by
        rw [uncalled]
        rfl
      rw [← Act.attempted.inj acted]
      refine ⟨fun runs => ?_, fun other _ => ?_, fun reply answered => ?_,
        fun _ principal => ?_⟩
      · exact absurd (runs.symm.trans idle) (by decide)
      · exact congrFun same other
      · exact absurd (answered.symm.trans refusal) (by simp)
      · rw [show event.after = event.before from same]
        exact Kept.refl _ _
  · obtain ⟨issue, known, presented, epoch⟩ := bound
    obtain ⟨issued', known', token, epoch'⟩ := inv.sessions connection.principal
    have agree : issued' = issue := by
      have entries := distinct.same known' known
        (epoch'.symm.trans (stands.trans epoch))
      exact (Prod.mk.inj entries).2
    have foreign : ∀ other, other ≠ connection.principal →
        (system.host.sessions other).epoch ≠ connection.epoch := by
      intro other different same
      obtain ⟨theirs, theirsKnown, _, theirEpoch⟩ := inv.sessions other
      have entries := distinct.same theirsKnown known
        (theirEpoch.symm.trans (same.trans epoch))
      exact different (Prod.mk.inj entries).1
    have reached : event.callIn connection.epoch = some call := by
      simp only [event, Event.callIn, Attempt.epoch, named, if_true]
      exact served.called
    have passed : ∀ other, other ≠ connection.epoch → event.callIn other = none := by
      intro other different
      simp only [event, Event.callIn, Attempt.epoch, named, if_neg different.symm]
    have after : next.host.sessions = done.host.sessions := sessions
    refine ⟨⟨?_, connections, ?_, ?_, ?_⟩, ?_, fun other => absurd rfl (other _)⟩
    · intro principal
      rw [after]
      by_cases own : principal = connection.principal
      · rw [own, served.token, served.epoch]
        exact inv.sessions connection.principal
      · rw [served.others principal own]
        exact inv.sessions principal
    · intro principal
      rw [after, calls_snoc]
      by_cases own : principal = connection.principal
      · rw [own, served.epoch, stands, reached, ← stands]
        exact served.counts
      · rw [served.others principal own, passed _ (foreign principal own),
          Option.toList_none, List.append_nil]
        exact inv.counts principal
    · intro any
      rw [calls_snoc]
      by_cases own : any = connection.epoch
      · rw [own, reached, ← stands]
        exact served.counts.tight
      · rw [passed any own, Option.toList_none, List.append_nil]
        exact inv.tight any
    · intro earlier member attempt inner acted called
      rcases List.mem_append.mp member with old | new
      · exact inv.origins earlier old attempt inner acted called
      · rw [List.mem_singleton.mp new] at acted
        rw [← Act.attempted.inj acted] at called ⊢
        obtain rfl : call = inner := Option.some.inj (served.called.symm.trans called)
        exact ⟨served.named, written, issue, known, epoch.symm.trans named.symm⟩
    · intro attempt acted
      have ran : done.call.bind Retry.Event.ran = call.ran := by
        rw [served.called]
        rfl
      rw [← Act.attempted.inj acted]
      refine ⟨fun _ => ⟨?_, named.trans stands.symm, live⟩, fun other different => ?_,
        fun reply answered idle => ?_, fun idle principal => ?_⟩
      · change bearer connection.request = some (system.host.sessions _).token
        rw [presented, token, agree]
      · change next.host.sessions other = system.host.sessions other
        rw [after]
        exact served.others other different
      · obtain ⟨retaining, first, member, receipt, returned, given, key, payload⟩ :=
          served.replayed reply answered (ran.symm.trans idle)
        obtain ⟨earlier, inside, past, pastActed, pastNamed, pastCalled⟩ :=
          mem_calls member
        obtain ⟨pastKey, pastWritten, theirs, theirsKnown, theirEpoch⟩ :=
          inv.origins earlier inside past first pastActed pastCalled
        have entries := distinct.same theirsKnown known
          (theirEpoch.trans (pastNamed.trans (stands.trans epoch)))
        refine ⟨earlier, inside, past, receipt, pastActed, (Prod.mk.inj entries).1,
          pastNamed.trans (stands.trans named.symm), pastKey.symm.trans key, ?_, ?_, given⟩
        · rw [pastWritten retaining, payload]
          exact (written retaining).symm
        · rw [Attempt.ran, pastCalled]
          exact returned
      · change Kept _ (system.host.sessions principal) (next.host.sessions principal)
        rw [after]
        by_cases own : principal = connection.principal
        · rw [own]
          exact served.kept (ran.symm.trans idle)
        · rw [served.others principal own]
          exact Kept.refl _ _

omit [Scalar α] in
theorem bound_set {issued : List (Principal × Issue)} {connections : List Connection}
    {index : Nat} {connection : Connection}
    (all : ∀ other ∈ connections, Bound issued other) (bound : Bound issued connection) :
    ∀ other ∈ connections.set index connection, Bound issued other := by
  intro other member
  rcases List.mem_or_eq_of_mem_set member with old | new
  · exact all other old
  · rw [new]
    exact bound

theorem Inv.pending {config : Config} {library : JsonLibrary α}
    {issued : List (Principal × Issue)} {system : System σ} {log : List (Event α)}
    (inv : Inv config library issued system log) {index : Nat} {connection : Connection}
    (found : pendingAt system index = some connection) : Bound issued connection := by
  have inside := (Option.filter_eq_some_iff.mp found).1
  exact inv.connections connection (List.mem_of_getElem? inside)

/-- A connection that its first section accepted is bound to the session it saw. -/
theorem Inv.accepted {config : Config} {library : JsonLibrary α}
    {issued : List (Principal × Issue)} {system : System σ} {log : List (Event α)}
    (inv : Inv config library issued system log) {request : Request} {deadline : Nat}
    {moment : Moment} {connection : Connection}
    (accepted :
      authenticate config system.host.sessions request deadline moment = .ok connection) :
    Bound issued connection := by
  obtain ⟨presented, epoch⟩ := authenticate_eq_ok accepted
  obtain ⟨issue, known, token, drawn⟩ := inv.sessions connection.principal
  exact ⟨issue, known, by rw [presented, token], epoch.trans drawn⟩

/-- One step, on any input. -/
theorem Inv.step {config : Config} {library : JsonLibrary α}
    {issued : List (Principal × Issue)} {system : System σ} {log : List (Event α)}
    (inv : Inv config library issued system log) (apply : Callback α σ) (input : Input)
    (distinct : Distinct (issued ++ issuesOf input)) :
    let done := PolicyHost.step config library apply system input
    let event : Event α := ⟨system.host.sessions, done.1.host.sessions, done.2⟩
    Inv config library (issued ++ issuesOf input) done.1 (log ++ [event]) ∧
      Lawful library log event := by
  cases input with
  | renew issues =>
      refine ⟨inv.renewed issues distinct _ rfl, ?_, ?_⟩
      · intro attempt acted
        exact absurd acted (by simp [PolicyHost.step])
      · intro _ other
        exact absurd rfl (other issues)
  | accept request deadline moment =>
      simp only [issuesOf, List.append_nil, PolicyHost.step]
      cases accepted :
          authenticate config system.host.sessions request deadline moment with
      | error halt =>
          exact ⟨inv.quiet _ rfl inv.connections (by simp), lawful_quiet rfl (by simp)⟩
      | ok connection =>
          refine ⟨inv.quiet _ rfl ?_ (by simp), lawful_quiet rfl (by simp)⟩
          intro other member
          rcases List.mem_append.mp member with old | new
          · exact inv.connections other old
          · rw [List.mem_singleton.mp new]
            exact inv.accepted accepted
  | reserve index =>
      simp only [issuesOf, List.append_nil, PolicyHost.step]
      cases found : pendingAt system index with
      | none => exact ⟨inv.quiet _ rfl inv.connections (by simp), lawful_quiet rfl (by simp)⟩
      | some connection =>
          have bound := inv.pending found
          dsimp only
          split
          · exact ⟨inv.quiet _ rfl inv.connections (by simp), lawful_quiet rfl (by simp)⟩
          · unfold reserveAt
            dsimp only
            split
            · exact ⟨inv.quiet _ rfl (bound_set inv.connections bound) (by simp),
                lawful_quiet rfl (by simp)⟩
            · exact ⟨inv.quiet _ rfl (bound_set inv.connections bound) (by simp),
                lawful_quiet rfl (by simp)⟩
  | consult index moment =>
      simp only [issuesOf, List.append_nil, PolicyHost.step]
      cases found : pendingAt system index with
      | none => exact ⟨inv.quiet _ rfl inv.connections (by simp), lawful_quiet rfl (by simp)⟩
      | some connection =>
          have bound := inv.pending found
          dsimp only
          split
          · exact ⟨inv.quiet _ rfl inv.connections (by simp), lawful_quiet rfl (by simp)⟩
          · exact ⟨inv.quiet _ rfl (bound_set inv.connections bound) (by simp [consultAt]),
              lawful_quiet rfl (by simp [consultAt])⟩
  | transact index moment =>
      simp only [issuesOf, List.append_nil] at distinct ⊢
      simp only [PolicyHost.step]
      cases found : pendingAt system index with
      | none => exact ⟨inv.quiet _ rfl inv.connections (by simp), lawful_quiet rfl (by simp)⟩
      | some connection =>
          have bound := inv.pending found
          dsimp only
          split
          · unfold transactAt
            dsimp only
            split
            · exact ⟨inv.quiet _ rfl (bound_set inv.connections bound) (by simp),
                lawful_quiet rfl (by simp)⟩
            · exact inv.transacted distinct bound _ _ moment rfl
                (bound_set inv.connections bound)
          · exact ⟨inv.quiet _ rfl inv.connections (by simp), lawful_quiet rfl (by simp)⟩
  | close index =>
      simp only [issuesOf, List.append_nil, PolicyHost.step]
      refine ⟨inv.quiet _ rfl ?_ (by simp), lawful_quiet rfl (by simp)⟩
      intro other member
      exact inv.connections other (List.mem_of_mem_eraseIdx member)

end Steps

section Runs

variable [Scalar α]

theorem Inv.run {config : Config} {library : JsonLibrary α}
    {issued : List (Principal × Issue)} {system : System σ} {past : List (Event α)}
    (inv : Inv config library issued system past) (apply : Callback α σ)
    (inputs : List Input)
    (distinct : Distinct (issued ++ inputs.flatMap issuesOf)) :
    (∃ last : System σ, Inv config library (issued ++ inputs.flatMap issuesOf) last
        (past ++ PolicyHost.run config library apply system inputs)) ∧
      ∀ before event after,
        PolicyHost.run config library apply system inputs = before ++ event :: after →
          Lawful library (past ++ before) event := by
  induction inputs generalizing issued system past with
  | nil =>
      refine ⟨⟨system, ?_⟩, ?_⟩
      · simpa [PolicyHost.run] using inv
      · intro before event after split
        exact absurd split (by simp [PolicyHost.run])
  | cons input rest inductionHypothesis =>
      rw [List.flatMap_cons, ← List.append_assoc] at distinct
      have first : Distinct (issued ++ issuesOf input) := by
        unfold Distinct at distinct ⊢
        rw [List.map_append] at distinct
        exact (List.nodup_append.mp distinct).1
      obtain ⟨next, lawful⟩ := inv.step apply input first
      obtain ⟨kept, later⟩ := inductionHypothesis next distinct
      refine ⟨?_, ?_⟩
      · rw [List.flatMap_cons, ← List.append_assoc, PolicyHost.run, List.append_cons]
        exact kept
      · intro before event after split
        rw [PolicyHost.run] at split
        cases before with
        | nil =>
            obtain ⟨same, _⟩ := List.cons_eq_cons.mp split
            rw [← same, List.append_nil]
            exact lawful
        | cons head tail =>
            obtain ⟨same, others⟩ := List.cons_eq_cons.mp split
            rw [← same, List.append_cons]
            exact later tail event after others

theorem inv_start (config : Config) (library : JsonLibrary α) (ledger : Ledger)
    (state : σ) (issues : PerPrincipal Issue) :
    Inv config library (issuesOf (.renew issues)) (start config ledger state issues) [] where
  sessions := fun principal =>
    ⟨issues principal, List.mem_map_of_mem (List.mem_finRange principal), rfl, rfl⟩
  connections := fun _ member => absurd member (by simp [start])
  counts := fun principal => counts_renewed config Session.empty (issues principal)
  tight := fun _ => Numbering.Tight.nil
  origins := fun _ member => absurd member (by simp)

/-- Admission across renewals: over any interleaving of the sections, as long as
no two epochs that were issued agree. -/
theorem admission (config : Config) (library : JsonLibrary α) (apply : Callback α σ)
    (ledger : Ledger) (state : σ) (issues : PerPrincipal Issue) (inputs : List Input)
    (distinct : Distinct ((Input.renew issues :: inputs).flatMap issuesOf)) :
    Admission library
      (run config library apply (start config ledger state issues) inputs) := by
  rw [List.flatMap_cons] at distinct
  obtain ⟨⟨last, inv⟩, lawful⟩ :=
    (inv_start config library ledger state issues).run apply inputs distinct
  rw [List.nil_append] at inv
  refine ⟨?_, inv.consecutive, ?_⟩
  · intro past event after attempt split acted
    exact (lawful past event after split).admitted attempt acted
  · intro event member quiet steady
    obtain ⟨past, after, split⟩ := List.append_of_mem member
    exact (lawful past event after split).idle quiet steady

end Runs

def sampleIssues (round : UInt8) : PerPrincipal Issue := fun principal =>
  ⟨[116, round, 97 + principal.val.toUInt8], [101, round, 97 + principal.val.toUInt8], 0⟩

def sampleConfig : Config := ⟨ascii "workshop", 80, 30000, true⟩

def sampleTransaction (round : UInt8) : Envelope Halves where
  protocolVersion := ascii "0.1"
  worldId := ascii "workshop"
  transactionId := ascii "00000000-0000-4000-8000-000000000001"
  idempotency := ⟨[101, round, 97], 1⟩
  expectedWorldRevision := 0
  applyAt := ⟨ascii "next_tick", 1⟩
  budget := ⟨1, 0⟩
  operations := [.entityCreate ⟨ascii "cube", ascii "core:cube"⟩]

def sampleRequest (round : UInt8) : Request where
  authorization := some (ascii "Bearer " ++ [116, round, 97])
  host := some (ascii "127.0.0.1:80")
  origin := none
  protocol := some (ascii "0.1")
  route := ascii "/v0/transactions"
  method := ascii "POST"
  contentLength := 500
  body :=
    match serialize JsonText.library (sampleTransaction round) with
    | .ok bytes => bytes
    | .error _ => []

def sampleLedger : Ledger :=
  ⟨⟨fun _ => 0, fun _ => 0, fun _ => 0, 0, 0⟩, fun _ => none, fun _ => false, none, 2⟩

def sampleApply : Callback Halves Nat := fun _ _ both =>
  .ok ⟨ascii "committed", ascii "volatile", [], both.2.toUInt64, [], []⟩ (both.1, both.2 + 1)

/-- Both connections are accepted before the renewal; only the first is served
before it, and a third starts over. -/
def sampleInputs : List Input :=
  let moment : Moment := ⟨1, 1, 1, false⟩
  [.accept (sampleRequest 48) 9 moment, .reserve 0, .transact 0 moment, .close 0,
    .accept (sampleRequest 48) 9 moment, .reserve 0, .renew (sampleIssues 49),
    .transact 0 moment, .close 0,
    .accept (sampleRequest 49) 9 moment, .reserve 0, .transact 0 moment]

def sampleLog : List (Event Halves) :=
  run sampleConfig JsonText.library sampleApply
    (start sampleConfig sampleLedger 0 (sampleIssues 48)) sampleInputs

theorem admission_renewed :
    (executions [101, 48, 97] sampleLog = [1] ∧ executions [101, 49, 97] sampleLog = [1]) ∧
      Admission JsonText.library sampleLog :=
  ⟨by decide +kernel,
    admission sampleConfig JsonText.library sampleApply sampleLedger 0 (sampleIssues 48)
      sampleInputs (by unfold Distinct; decide)⟩

end Omniweft.PolicyHost
