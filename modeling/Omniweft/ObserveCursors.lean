import Omniweft.ObservePages

/-!
# Cursors over time

A session keeps the rows of its latest successful start. A cursor carries the number of
the start it belongs to, so that it is refused once a later start succeeds, a deadline
passes or the session is closed, and it stays refused.
-/

namespace Omniweft.Observe

open Outcome World

variable {α : Type} [Scalar α]

/-- A call of a session. A start reads the world as it is at that moment. -/
inductive Event (α : Type) where
  | start (query : Query α) (world : World.Snapshot α) (clock : Readings)
  | next (cursor : Cursor) (clock : Readings)
  | close

def Session.event (library : JsonLibrary α) (session : Session α) :
    Event α → Option Reply × Session α
  | .start query world clock =>
      let answered := start library clock query world session
      (some answered.1, answered.2)
  | .next cursor clock =>
      let answered := next clock cursor session
      (some answered.1, answered.2)
  | .close => (none, close session)

/-- A call with its reply. -/
structure Entry (α : Type) where
  event : Event α
  reply : Option Reply

def Entry.cursor (entry : Entry α) : Option Cursor :=
  entry.reply.bind Reply.cursor

def Reply.paged : Reply → Bool
  | .result answer => answer.page.isSome
  | .thrown => false

/-- A start that handed out a page. -/
def Entry.started (entry : Entry α) : Bool :=
  match entry.event with
  | .start .. => entry.reply.any Reply.paged
  | _ => false

/-- A cursor is handed out by the session, or it is none of the session's own: one of
another session, or one that was never filled. -/
def Event.Possible (identity : Nat) (past : List (Entry α)) : Event α → Prop
  | .next cursor _ =>
      cursor.owner ≠ some identity ∨ ∃ entry ∈ past, entry.cursor = some cursor
  | _ => True

/-- The clock does not run backwards between the readings of a call. -/
def Event.Steady : Event α → Prop
  | .start _ _ clock => clock.publish ≤ clock.late
  | .next _ clock => clock.publish ≤ clock.late
  | .close => True

/-- The calls of a session so far, and what they leave of it. -/
inductive Runs (library : JsonLibrary α) (grant : ReadGrant α) (identity : Nat) (now : Int) :
    List (Entry α) → Session α → Prop
  | created {session : Session α} :
      Session.create grant identity now = .ok session →
      Runs library grant identity now [] session
  | event {past : List (Entry α)} {session : Session α} (event : Event α) :
      Runs library grant identity now past session →
      event.Possible identity past → event.Steady →
      Runs library grant identity now
        (past ++ [⟨event, (session.event library event).1⟩]) (session.event library event).2

/-- Nothing but the retained rows is lost, or all of it at a close. -/
structure Fades (before after : Session α) : Prop where
  grant : after.grant = before.grant
  expires : after.expires = before.expires
  serial : after.serial = before.serial
  opened : after.closed = false → before.closed = false ∧ after.identity = before.identity
  kept : after.snapshot = none ∨ after = before

omit [Scalar α] in
theorem Fades.refl (session : Session α) : Fades session session :=
  ⟨rfl, rfl, rfl, fun opened => ⟨opened, rfl⟩, Or.inr rfl⟩

omit [Scalar α] in
theorem Fades.trans {first second third : Session α} (one : Fades first second)
    (two : Fades second third) : Fades first third where
  grant := two.grant.trans one.grant
  expires := two.expires.trans one.expires
  serial := two.serial.trans one.serial
  opened := by
    intro opened
    obtain ⟨middle, same⟩ := two.opened opened
    obtain ⟨start, equal⟩ := one.opened middle
    exact ⟨start, same.trans equal⟩
  kept := by
    rcases two.kept with gone | same
    · exact Or.inl gone
    · rw [same]
      exact one.kept

omit [Scalar α] in
theorem close_fades (session : Session α) : Fades session (close session) :=
  ⟨rfl, rfl, rfl, fun opened => (by cases opened), Or.inl rfl⟩

omit [Scalar α] in
theorem expire_fades (now : Int) (session : Session α) : Fades session (expire now session) := by
  unfold expire
  split
  · exact close_fades session
  split
  · exact ⟨rfl, rfl, rfl, fun opened => ⟨opened, rfl⟩, Or.inl rfl⟩
  · exact Fades.refl session

omit [Scalar α] in
/-- A session whose deadlines lie ahead does not expire. -/
theorem expire_early {now : Int} {session : Session α} (lively : now < session.expires)
    (retained : ∀ data, session.snapshot = some data → now < data.deadline) :
    expire now session = session := by
  unfold expire
  rw [if_neg (not_le.mpr lively)]
  cases kept : session.snapshot with
  | none => simp
  | some data => simp [retained data kept]

/-- What a start does: it keeps a capture and hands out its first page, or it hands out
nothing and the session is as it was but for its deadlines. -/
theorem start_cases (library : JsonLibrary α) (clock : Readings) (query : Query α)
    (world : World.Snapshot α) (session : Session α) :
    (∃ data first opened,
        Fades session opened ∧ opened.closed = false ∧ opened.serial ≠ lastSerial ∧
        capture library opened query clock.capture world = .ok data ∧
        validQuery query = true ∧
        page opened.identity data 0 (opened.serial + 1) = ⟨some first, []⟩ ∧
        start library clock query world session =
          (.result ⟨some first, []⟩,
            { opened with snapshot := some data, serial := opened.serial + 1 })) ∨
      ((start library clock query world session).1.paged = false ∧
        Fades session (start library clock query world session).2 ∧
        ((start library clock query world session).2 = expire clock.entry session ∨
          (start library clock query world session).2 =
            expire clock.late (expire clock.entry session))) := by
  have faded := expire_fades clock.entry session
  unfold start startOpen
  split
  · exact Or.inr ⟨rfl, faded, Or.inl rfl⟩
  rename_i opened
  split
  · exact Or.inr ⟨rfl, faded, Or.inl rfl⟩
  rename_i queried
  split
  · exact Or.inr ⟨rfl, faded, Or.inl rfl⟩
  rename_i counted
  cases captured : capture library (expire clock.entry session) query clock.capture world with
  | error stop =>
      cases stop with
      | reject code => exact Or.inr ⟨rfl, faded, Or.inl rfl⟩
      | thrown => exact Or.inr ⟨rfl, faded, Or.inl rfl⟩
  | ok data =>
      have positive : 0 < data.pageSize := by
        rw [(capture_limits captured).1]
        exact validQuery_sized (by simpa using queried)
      simp only [publish]
      rcases page_cases positive (expire clock.entry session).identity
        ((expire clock.entry session).serial + 1) (Nat.zero_le data.rows.length) with
        ⟨_, refused⟩ | ⟨chosen, left, _, _, _, shown⟩
      · rw [refused]
        exact Or.inr ⟨rfl, faded, Or.inl rfl⟩
      · rw [shown]
        simp only [Option.isNone_some, Bool.false_eq_true, if_false]
        split
        · exact Or.inr ⟨rfl, faded.trans (expire_fades _ _), Or.inr rfl⟩
        · exact Or.inl ⟨data, _, expire clock.entry session, faded,
            Bool.eq_false_of_not_eq_true opened, by simpa using counted, captured,
            by simpa using queried, shown, rfl⟩

omit [Scalar α] in
/-- What a next does: it gives the page of the retained rows, or it asks for a resync. -/
theorem next_cases (clock : Readings) (cursor : Cursor) (session : Session α) :
    (∃ data,
        session.snapshot = some data ∧ session.closed = false ∧
        cursor.owner = session.identity ∧ cursor.snapshot = session.serial ∧
        cursor.offset < data.rows.length ∧ clock.entry < data.deadline ∧
        clock.entry < session.expires ∧ clock.publish < data.deadline ∧
        next clock cursor session =
          (.result (page session.identity data cursor.offset session.serial), session)) ∨
      ((next clock cursor session).1 = .result (error "REQUIRES_RESYNC") ∧
        Fades session (next clock cursor session).2) := by
  have faded := expire_fades clock.entry session
  unfold next nextOpen
  cases retained : (expire clock.entry session).snapshot with
  | none => exact Or.inr ⟨rfl, faded⟩
  | some data =>
      have same : expire clock.entry session = session := by
        rcases faded.kept with gone | same
        · rw [gone] at retained
          cases retained
        · exact same
      rw [same] at retained
      dsimp only
      rw [same]
      by_cases valid : session.closed = false ∧ cursor.owner = session.identity ∧
        cursor.snapshot = session.serial ∧ cursor.offset < data.rows.length
      · obtain ⟨opened, owned, current, inside⟩ := valid
        have accepted : (session.closed || cursor.owner != session.identity ||
            cursor.snapshot != session.serial || decide (data.rows.length ≤ cursor.offset)) =
            false := by
          simp [opened, owned, current, inside]
        rw [if_neg (by rw [accepted]; exact Bool.false_ne_true)]
        by_cases late : data.deadline ≤ clock.publish
        · rw [if_pos late]
          exact Or.inr ⟨rfl, expire_fades _ _⟩
        · rw [if_neg late]
          have lively : clock.entry < session.expires := by
            by_contra passed
            have shut : expire clock.entry session = close session := by
              rw [expire, if_pos (not_lt.mp passed)]
            rw [shut] at same
            rw [← same] at retained
            cases retained
          have fresh : clock.entry < data.deadline := by
            by_contra passed
            have dropped : expire clock.entry session = { session with snapshot := none } := by
              rw [expire, if_neg (not_le.mpr lively), retained]
              simp [not_lt.mp passed]
            rw [dropped] at same
            rw [← same] at retained
            cases retained
          exact Or.inl ⟨data, retained, opened, owned, current, inside, fresh, lively,
            not_le.mp late, rfl⟩
      · have refused : (session.closed || cursor.owner != session.identity ||
            cursor.snapshot != session.serial || decide (data.rows.length ≤ cursor.offset)) =
            true := by
          by_contra accepted
          simp only [Bool.not_eq_true, Bool.or_eq_false_iff, bne_eq_false_iff_eq,
            decide_eq_false_iff_not, not_le] at accepted
          exact valid ⟨accepted.1.1.1, accepted.1.1.2, accepted.1.2, accepted.2⟩
        rw [if_pos refused]
        exact Or.inr ⟨rfl, Fades.refl session⟩

theorem page_cursor {identity : Option Nat} {data : Snapshot} {offset : Nat} {serial : UInt64}
    {cursor : Cursor}
    (handed : (Reply.result (page identity data offset serial)).cursor = some cursor) :
    cursor.owner = identity ∧ cursor.snapshot = serial ∧ cursor.offset < data.rows.length := by
  unfold page at handed
  dsimp only at handed
  split at handed
  · cases handed
  · simp only [Reply.cursor, Option.bind_some] at handed
    split at handed
    · rename_i more
      cases handed
      exact ⟨rfl, rfl, by simpa using more⟩
    · cases handed

/-- The rows a start captured, with the cursors to them: those that this start and the
calls after it handed out. -/
structure Captured (library : JsonLibrary α) (grant : ReadGrant α) (expires : Int)
    (serial : UInt64) (data : Snapshot) (earlier : List (Entry α)) (query : Query α)
    (world : World.Snapshot α) (clock : Readings) (first : Page) (between : List (Entry α)) :
    Prop where
  quiet : ∀ entry ∈ between, entry.started = false ∧ entry.event ≠ .close
  capture : ∃ opened : Session α, opened.grant = grant ∧ opened.expires = expires ∧
    Observe.capture library opened query clock.capture world = .ok data
  valid : validQuery query = true
  older : ∀ entry ∈ earlier, ∀ cursor, entry.cursor = some cursor →
    cursor.snapshot.toNat < serial.toNat
  own :
    ∀ entry ∈ ⟨.start query world clock, some (.result ⟨some first, []⟩)⟩ :: between,
      ∀ cursor, entry.cursor = some cursor →
        cursor.snapshot = serial ∧ cursor.offset < data.rows.length

/-- What holds of a session after any calls. -/
structure Kept (library : JsonLibrary α) (grant : ReadGrant α) (identity : Nat) (expires : Int)
    (past : List (Entry α)) (session : Session α) : Prop where
  granted : session.grant = grant
  lasting : session.expires = expires
  opened : session.closed = false →
    session.identity = some identity ∧ ∀ entry ∈ past, entry.event ≠ .close
  issued : ∀ entry ∈ past, ∀ cursor, entry.cursor = some cursor →
    cursor.owner = some identity ∧ cursor.snapshot.toNat ≤ session.serial.toNat
  current : ∀ data, session.snapshot = some data →
    session.closed = false ∧
    ∃ earlier query world clock first between,
      past = earlier ++
        ⟨.start query world clock, some (.result ⟨some first, []⟩)⟩ :: between ∧
      Captured library grant expires session.serial data earlier query world clock first between

theorem mem_snoc {β : Type} {items : List β} {item last : β} :
    item ∈ items ++ [last] ↔ item ∈ items ∨ item = last := by
  rw [List.mem_append, List.mem_singleton]

section Steps

variable {library : JsonLibrary α} {grant : ReadGrant α} {identity : Nat} {expires : Int}
  {past : List (Entry α)} {session after : Session α}

/-- A call that hands out nothing. -/
theorem Kept.quiet (kept : Kept library grant identity expires past session)
    (fades : Fades session after) {entry : Entry α} (nothing : entry.cursor = none)
    (silent : entry.started = false)
    (closes : after.closed = false → entry.event ≠ .close) :
    Kept library grant identity expires (past ++ [entry]) after where
  granted := fades.grant.trans kept.granted
  lasting := fades.expires.trans kept.lasting
  opened := by
    intro opened
    obtain ⟨before, same⟩ := fades.opened opened
    obtain ⟨token, others⟩ := kept.opened before
    refine ⟨same.trans token, ?_⟩
    intro other member
    rcases mem_snoc.mp member with old | new
    · exact others other old
    · rw [new]
      exact closes opened
  issued := by
    intro other member cursor handed
    rcases mem_snoc.mp member with old | new
    · rw [fades.serial]
      exact kept.issued other old cursor handed
    · rw [new, nothing] at handed
      cases handed
  current := by
    intro data retained
    rcases fades.kept with gone | same
    · rw [gone] at retained
      cases retained
    · rw [same] at retained ⊢
      obtain ⟨opened, earlier, query, world, clock, first, between, whole, captured⟩ :=
        kept.current data retained
      refine ⟨opened, earlier, query, world, clock, first, between ++ [entry],
        by rw [whole, List.append_assoc, List.cons_append], ?_⟩
      refine { captured with quiet := ?_, own := ?_ }
      · intro other member
        rcases mem_snoc.mp member with old | new
        · exact captured.quiet other old
        · rw [new]
          exact ⟨silent, closes (same ▸ opened)⟩
      · intro other member cursor handed
        rw [← List.cons_append, mem_snoc] at member
        rcases member with old | new
        · exact captured.own other old cursor handed
        · rw [new, nothing] at handed
          cases handed

/-- A page of the retained rows. -/
theorem Kept.turned (kept : Kept library grant identity expires past session)
    {data : Snapshot} (retained : session.snapshot = some data) {cursor : Cursor}
    {clock : Readings} :
    Kept library grant identity expires
      (past ++ [⟨.next cursor clock,
        some (.result (page session.identity data cursor.offset session.serial))⟩]) session where
  granted := kept.granted
  lasting := kept.lasting
  opened := by
    intro opened
    obtain ⟨token, others⟩ := kept.opened opened
    refine ⟨token, ?_⟩
    intro other member
    rcases mem_snoc.mp member with old | new
    · exact others other old
    · rw [new]
      exact fun impossible => by cases impossible
  issued := by
    intro other member handle handed
    rcases mem_snoc.mp member with old | new
    · exact kept.issued other old handle handed
    · rw [new] at handed
      obtain ⟨owner, number, _⟩ := page_cursor handed
      obtain ⟨opened, _⟩ := kept.current data retained
      rw [owner, number]
      exact ⟨(kept.opened opened).1, Nat.le_refl _⟩
  current := by
    intro other retainedOther
    obtain rfl : data = other := Option.some.inj (retained.symm.trans retainedOther)
    obtain ⟨opened, earlier, query, world, start, first, between, whole, captured⟩ :=
      kept.current data retained
    refine ⟨opened, earlier, query, world, start, first, _,
      by rw [whole, List.append_assoc, List.cons_append], ?_⟩
    refine { captured with quiet := ?_, own := ?_ }
    · intro entry member
      rcases mem_snoc.mp member with old | new
      · exact captured.quiet entry old
      · rw [new]
        exact ⟨rfl, fun impossible => by cases impossible⟩
    · intro entry member handle handed
      rw [← List.cons_append, mem_snoc] at member
      rcases member with old | new
      · exact captured.own entry old handle handed
      · rw [new] at handed
        exact (page_cursor handed).2

/-- A start that succeeds. -/
theorem Kept.started (kept : Kept library grant identity expires past session)
    (fades : Fades session after) (opened : after.closed = false)
    (counted : after.serial ≠ lastSerial) {query : Query α} {world : World.Snapshot α}
    {clock : Readings} {data : Snapshot} {first : Page} (valid : validQuery query = true)
    (captured : capture library after query clock.capture world = .ok data)
    (shown : page after.identity data 0 (after.serial + 1) = ⟨some first, []⟩) :
    Kept library grant identity expires
      (past ++ [⟨.start query world clock, some (.result ⟨some first, []⟩)⟩])
      { after with snapshot := some data, serial := after.serial + 1 } := by
  have next : (after.serial + 1).toNat = session.serial.toNat + 1 := by
    have below : after.serial.toNat ≠ lastSerial.toNat := fun same =>
      counted (UInt64.toNat_inj.mp same)
    have last : lastSerial.toNat = 18446744073709551615 := rfl
    have bound := after.serial.toNat_lt
    rw [UInt64.toNat_add, UInt64.toNat_one, Nat.mod_eq_of_lt (by omega), fades.serial]
  obtain ⟨before, same⟩ := fades.opened opened
  obtain ⟨token, others⟩ := kept.opened before
  have owner : after.identity = some identity := same.trans token
  constructor
  · exact fades.grant.trans kept.granted
  · exact fades.expires.trans kept.lasting
  · intro _
    refine ⟨owner, ?_⟩
    intro entry member
    rcases mem_snoc.mp member with old | new
    · exact others entry old
    · rw [new]
      exact fun impossible => by cases impossible
  · intro entry member cursor handed
    rcases mem_snoc.mp member with old | new
    · obtain ⟨owned, number⟩ := kept.issued entry old cursor handed
      refine ⟨owned, ?_⟩
      change cursor.snapshot.toNat ≤ (after.serial + 1).toNat
      omega
    · rw [new] at handed
      change (Reply.result ⟨some first, []⟩).cursor = some cursor at handed
      rw [← shown] at handed
      obtain ⟨owned, number, _⟩ := page_cursor handed
      rw [owned, number]
      exact ⟨owner, Nat.le_refl _⟩
  · intro other retained
    obtain rfl : data = other := Option.some.inj retained
    refine ⟨opened, past, query, world, clock, first, [], rfl, ?_, ?_, valid, ?_, ?_⟩
    · intro entry member
      cases member
    · exact ⟨after, fades.grant.trans kept.granted, fades.expires.trans kept.lasting, captured⟩
    · intro entry member cursor handed
      have number := (kept.issued entry member cursor handed).2
      change cursor.snapshot.toNat < (after.serial + 1).toNat
      omega
    · intro entry member cursor handed
      rw [List.mem_singleton.mp member] at handed
      change (Reply.result ⟨some first, []⟩).cursor = some cursor at handed
      rw [← shown] at handed
      exact (page_cursor handed).2

theorem paged_cursor {reply : Reply} (unpaged : reply.paged = false) : reply.cursor = none := by
  cases reply with
  | thrown => rfl
  | result answer =>
      have nothing : answer.page = none := Option.isNone_iff_eq_none.mp (by
        simpa [Reply.paged] using unpaged)
      rw [Reply.cursor, nothing]
      rfl

theorem Kept.event (kept : Kept library grant identity expires past session)
    (event : Event α) :
    Kept library grant identity expires
      (past ++ [⟨event, (session.event library event).1⟩]) (session.event library event).2 := by
  cases event with
  | start query world clock =>
      rcases start_cases library clock query world session with
        ⟨data, first, opened, fades, open_, counted, captured, valid, shown, same⟩ |
          ⟨unpaged, fades, _⟩
      · simp only [Session.event, same]
        exact kept.started fades open_ counted valid captured shown
      · exact kept.quiet fades (paged_cursor unpaged) unpaged
          fun _ impossible => by cases impossible
  | next cursor clock =>
      rcases next_cases clock cursor session with
        ⟨data, retained, _, _, _, _, _, _, _, same⟩ | ⟨refused, fades⟩
      · simp only [Session.event, same]
        exact kept.turned retained
      · refine kept.quiet fades ?_ rfl fun _ impossible => by cases impossible
        simp only [Session.event, Entry.cursor, refused]
        rfl
  | close =>
      exact kept.quiet (close_fades session) rfl rfl fun opened => by cases opened

theorem create_eq {grant : ReadGrant α} {identity : Nat} {now : Int} {session : Session α}
    (created : Session.create grant identity now = .ok session) :
    session = ⟨grant, some identity, now + nanoseconds grant.lifetime, none, 0, false⟩ := by
  unfold Session.create checkedGrant at created
  simp only [bind_eq_ok, pure_eq_ok] at created
  obtain ⟨_, ⟨_, _, _, _, same⟩, made⟩ := created
  rw [← made, same]

theorem Runs.kept {now : Int} (runs : Runs library grant identity now past session) :
    Kept library grant identity (now + nanoseconds grant.lifetime) past session := by
  induction runs with
  | created created =>
      rw [create_eq created]
      refine ⟨rfl, rfl, fun _ => ⟨rfl, ?_⟩, ?_, ?_⟩
      · intro entry member
        cases member
      · intro entry member
        cases member
      · intro data retained
        cases retained
  | event event _ _ _ kept => exact kept.event event

/-- A cursor that the session no longer takes. -/
def Dead (identity : Nat) (cursor : Cursor) (session : Session α) : Prop :=
  cursor.owner ≠ some identity ∨ session.closed = true ∨
    cursor.snapshot.toNat < session.serial.toNat ∨
      cursor.snapshot = session.serial ∧ session.snapshot = none

theorem Dead.refused {cursor : Cursor} (dead : Dead identity cursor session)
    (kept : Kept library grant identity expires past session) (clock : Readings) :
    (next clock cursor session).1 = .result (error "REQUIRES_RESYNC") := by
  rcases next_cases clock cursor session with
    ⟨data, retained, opened, owner, current, _⟩ | ⟨refused, _⟩
  · exfalso
    rcases dead with other | shut | old | ⟨_, gone⟩
    · exact other (owner.trans (kept.opened opened).1)
    · rw [opened] at shut
      cases shut
    · rw [current] at old
      exact Nat.lt_irrefl _ old
    · rw [retained] at gone
      cases gone
  · exact refused

omit [Scalar α] in
theorem Dead.fades {cursor : Cursor} (dead : Dead identity cursor session)
    (fades : Fades session after) : Dead identity cursor after := by
  rcases dead with other | shut | old | ⟨current, gone⟩
  · exact Or.inl other
  · cases opened : after.closed with
    | true => exact Or.inr (Or.inl opened)
    | false =>
        rw [(fades.opened opened).1] at shut
        cases shut
  · rw [← fades.serial] at old
    exact Or.inr (Or.inr (Or.inl old))
  · refine Or.inr (Or.inr (Or.inr ⟨current.trans fades.serial.symm, ?_⟩))
    rcases fades.kept with none_ | same
    · exact none_
    · rw [same]
      exact gone

theorem Dead.event {cursor : Cursor} (dead : Dead identity cursor session) (event : Event α) :
    Dead identity cursor (session.event library event).2 := by
  cases event with
  | start query world clock =>
      rcases start_cases library clock query world session with
        ⟨data, first, opened, fades, open_, counted, _, _, _, same⟩ | ⟨_, fades, _⟩
      · have next : (opened.serial + 1).toNat = opened.serial.toNat + 1 := by
          have below : opened.serial.toNat ≠ lastSerial.toNat := fun equal =>
            counted (UInt64.toNat_inj.mp equal)
          have last : lastSerial.toNat = 18446744073709551615 := rfl
          have bound := opened.serial.toNat_lt
          rw [UInt64.toNat_add, UInt64.toNat_one, Nat.mod_eq_of_lt (by omega)]
        simp only [Session.event, same]
        rcases dead.fades fades with other | shut | old | ⟨current, _⟩
        · exact Or.inl other
        · rw [open_] at shut
          cases shut
        · refine Or.inr (Or.inr (Or.inl ?_))
          change cursor.snapshot.toNat < (opened.serial + 1).toNat
          omega
        · refine Or.inr (Or.inr (Or.inl ?_))
          change cursor.snapshot.toNat < (opened.serial + 1).toNat
          rw [current, next]
          exact Nat.lt_succ_self _
      · exact dead.fades fades
  | next handle clock =>
      rcases next_cases clock handle session with
        ⟨_, _, _, _, _, _, _, _, _, same⟩ | ⟨_, fades⟩
      · simp only [Session.event, same]
        exact dead
      · exact dead.fades fades
  | close => exact dead.fades (close_fades session)

omit [Scalar α] in
theorem expire_late {now : Int} {data : Snapshot} (retained : session.snapshot = some data)
    (late : data.deadline ≤ now) : (expire now session).snapshot = none := by
  unfold expire
  split
  · rfl
  · rw [retained]
    simp [late]

theorem page_codes (identity : Option Nat) (data : Snapshot) (offset : Nat) (serial : UInt64) :
    page identity data offset serial ≠ error "REQUIRES_RESYNC" := by
  unfold page
  dsimp only
  split
  · decide
  · intro same
    cases congrArg Result.page same

omit [Scalar α] in
/-- A cursor to the retained rows is asked to resync only as they are dropped. -/
theorem next_spent {data : Snapshot} {cursor : Cursor} {clock : Readings}
    (retained : session.snapshot = some data) (opened : session.closed = false)
    (owner : cursor.owner = session.identity) (current : cursor.snapshot = session.serial)
    (inside : cursor.offset < data.rows.length) (steady : clock.publish ≤ clock.late)
    (refused : (next clock cursor session).1 = .result (error "REQUIRES_RESYNC")) :
    (next clock cursor session).2.snapshot = none := by
  rcases (expire_fades clock.entry session).kept with gone | same
  · rw [next, nextOpen, gone]
    exact gone
  · have accepted : (session.closed || cursor.owner != session.identity ||
        cursor.snapshot != session.serial || decide (data.rows.length ≤ cursor.offset)) =
        false := by
      simp [opened, owner, current, inside]
    rw [next, same, nextOpen, retained] at refused ⊢
    dsimp only at refused ⊢
    rw [accepted] at refused ⊢
    simp only [Bool.false_eq_true, if_false] at refused ⊢
    by_cases late : data.deadline ≤ clock.publish
    · rw [if_pos late]
      exact expire_late retained (late.trans steady)
    · rw [if_neg late] at refused
      exact absurd (Reply.result.inj refused) (page_codes _ _ _ _)

omit [Scalar α] in
theorem next_fades (clock : Readings) (cursor : Cursor) (session : Session α) :
    Fades session (next clock cursor session).2 := by
  rcases next_cases clock cursor session with ⟨_, _, _, _, _, _, _, _, _, same⟩ | ⟨_, fades⟩
  · rw [same]
    exact Fades.refl session
  · exact fades

/-- A possible cursor that is asked to resync is dead from then on. -/
theorem Kept.dies (kept : Kept library grant identity expires past session) {cursor : Cursor}
    {clock : Readings} (possible : (Event.next cursor clock).Possible identity past)
    (steady : clock.publish ≤ clock.late)
    (refused : (next clock cursor session).1 = .result (error "REQUIRES_RESYNC")) :
    Dead identity cursor (next clock cursor session).2 := by
  have fades := next_fades clock cursor session
  rcases possible with foreign | ⟨entry, member, handed⟩
  · exact Or.inl foreign
  obtain ⟨owner, number⟩ := kept.issued entry member cursor handed
  by_cases old : cursor.snapshot.toNat < session.serial.toNat
  · exact Dead.fades (Or.inr (Or.inr (Or.inl old))) fades
  have current : cursor.snapshot = session.serial :=
    UInt64.toNat_inj.mp (Nat.le_antisymm number (not_lt.mp old))
  cases retained : session.snapshot with
  | none => exact Dead.fades (Or.inr (Or.inr (Or.inr ⟨current, retained⟩))) fades
  | some data =>
      obtain ⟨opened, earlier, query, world, start, first, between, whole, captured⟩ :=
        kept.current data retained
      have inside : cursor.offset < data.rows.length := by
        rw [whole] at member
        rcases List.mem_append.mp member with before | since
        · have below := captured.older entry before cursor handed
          exact absurd below old
        · exact (captured.own entry since cursor handed).2
      have spent := next_spent retained opened
        (owner.trans (kept.opened opened).1.symm) current inside steady refused
      exact Or.inr (Or.inr (Or.inr ⟨current.trans fades.serial.symm, spent⟩))

/-- Every cursor that was asked to resync is dead. -/
theorem Runs.dead {now : Int} (runs : Runs library grant identity now past session)
    {cursor : Cursor} {clock : Readings}
    (refused : ⟨.next cursor clock, some (.result (error "REQUIRES_RESYNC"))⟩ ∈ past) :
    Dead identity cursor session := by
  induction runs with
  | created _ => cases refused
  | event event runs possible steady dead =>
      rcases mem_snoc.mp refused with old | new
      · exact (dead old).event event
      · obtain ⟨called, replied⟩ := Entry.mk.inj new
        rw [← called] at possible steady replied ⊢
        exact runs.kept.dies possible steady (Option.some.inj replied).symm

end Steps

/-- A cursor gives a page only after the start that it belongs to, with no later
successful start, no close and no deadline in between, and the page is one of the rows of
that start. A start that fails changes nothing but what a deadline takes, and a cursor
that was once too old stays so. -/
theorem cursor_freshness (library : JsonLibrary α) (grant : ReadGrant α) (identity : Nat)
    (now : Int) {past : List (Entry α)} {session : Session α}
    (runs : Runs library grant identity now past session) :
    (∀ cursor clock shown code after,
      (Event.next cursor clock : Event α).Possible identity past →
      next clock cursor session = (.result ⟨some shown, code⟩, after) →
      ∃ earlier query world start first between data,
        past = earlier ++
          ⟨.start query world start, some (.result ⟨some first, []⟩)⟩ :: between ∧
        (∀ entry ∈ between, entry.started = false) ∧
        (∀ entry ∈ past, entry.event ≠ .close) ∧
        (∃ entry ∈ ⟨.start query world start, some (.result ⟨some first, []⟩)⟩ :: between,
          entry.cursor = some cursor) ∧
        (∃ opened : Session α, opened.grant = grant ∧
          capture library opened query start.capture world = .ok data) ∧
        data.deadline ≤ now + nanoseconds grant.lifetime ∧
        clock.entry < data.deadline ∧ clock.publish < data.deadline ∧
        ∃ chosen left, data.rows.drop cursor.offset = chosen ++ left ∧
          shown = data.shown (some identity) cursor.snapshot cursor.offset chosen left) ∧
      (∀ query world clock,
        (start library clock query world session).1.paged = false →
        let after := (start library clock query world session).2
        (clock.entry < session.expires → clock.late < session.expires →
          (∀ data, session.snapshot = some data →
            clock.entry < data.deadline ∧ clock.late < data.deadline) →
          after = session) ∧
        ∀ cursor later,
          (next later cursor session).1 = .result (error "REQUIRES_RESYNC") →
          (next later cursor after).1 = .result (error "REQUIRES_RESYNC")) ∧
      ∀ cursor clock,
        ⟨.next cursor clock, some (.result (error "REQUIRES_RESYNC"))⟩ ∈ past →
        ∀ later, (next later cursor session).1 = .result (error "REQUIRES_RESYNC") := by
  have kept := runs.kept
  refine ⟨?_, ?_, ?_⟩
  · intro cursor clock shown code after possible answered
    rcases next_cases clock cursor session with
      ⟨data, retained, opened, owner, current, inside, entry, _, publish, same⟩ | ⟨refused, _⟩
    · obtain ⟨_, earlier, query, world, start, first, between, whole, captured⟩ :=
        kept.current data retained
      obtain ⟨token, unclosed⟩ := kept.opened opened
      obtain ⟨before, granted, lasting, taken⟩ := captured.capture
      have positive : 0 < data.pageSize := by
        obtain ⟨sized, _⟩ := capture_limits taken
        rw [sized]
        exact validQuery_sized captured.valid
      have deadline : data.deadline ≤ now + nanoseconds grant.lifetime := by
        obtain ⟨_, _, deadline⟩ := capture_limits taken
        rw [deadline, lasting]
        exact min_le_left _ _
      have page_ :
          page session.identity data cursor.offset session.serial = ⟨some shown, code⟩ := by
        rw [same] at answered
        exact Reply.result.inj (Prod.mk.inj answered).1
      have handed : ∃ entry ∈ ⟨.start query world start, some (.result ⟨some first, []⟩)⟩ ::
          between, entry.cursor = some cursor := by
        rcases possible with foreign | ⟨entry, member, handed⟩
        · exact absurd (owner.trans token) foreign
        · rw [whole] at member
          rcases List.mem_append.mp member with old | since
          · have below := captured.older entry old cursor handed
            rw [current] at below
            exact absurd below (Nat.lt_irrefl _)
          · exact ⟨entry, since, handed⟩
      refine ⟨earlier, query, world, start, first, between, data, whole,
        fun entry member => (captured.quiet entry member).1, unclosed, handed,
        ⟨before, granted, taken⟩, deadline, entry, publish, ?_⟩
      rcases page_cases positive session.identity session.serial inside.le with
        ⟨_, refused⟩ | ⟨chosen, left, split, _, _, answer⟩
      · rw [refused] at page_
        cases page_
      · rw [answer] at page_
        refine ⟨chosen, left, split, ?_⟩
        rw [current, ← token]
        exact (Option.some.inj (Result.mk.inj page_).1).symm
    · rw [answered] at refused
      cases refused
  · intro query world clock unpaged
    rcases start_cases library clock query world session with
      ⟨_, _, _, _, _, _, _, _, _, same⟩ | ⟨_, fades, left⟩
    · rw [same] at unpaged
      cases unpaged
    · refine ⟨?_, ?_⟩
      · intro entry late retained
        have early := expire_early entry fun data held => (retained data held).1
        rcases left with same | same
        · rw [same, early]
        · rw [same, early, expire_early late fun data held => (retained data held).2]
      · intro cursor later refused
        rcases fades.kept with gone | same
        · rcases next_cases later cursor (start library clock query world session).2 with
            ⟨data, retained, _⟩ | ⟨still, _⟩
          · rw [gone] at retained
            cases retained
          · exact still
        · rw [same]
          exact refused
  · intro cursor clock refused later
    exact (runs.dead refused).refused kept later

def cubeCursor : Cursor :=
  cubePage.next.getD ⟨none, 0, 0⟩

def closedCubes : Session Halves :=
  (next ⟨2, 2, 2, 2⟩ cubeCursor (close cubeStart.2)).2

set_option maxRecDepth 20000 in
theorem cursor_freshness_closed :
    ((next ⟨2, 2, 2, 2⟩ cubeCursor cubeStart.2).1.paged = true) ∧
      ∀ later, (next later cubeCursor closedCubes).1 = .result (error "REQUIRES_RESYNC") := by
  refine ⟨by decide +kernel, ?_⟩
  have created : Session.create cubeSession.grant 1 0 = .ok cubeSession := by decide +kernel
  have started := @Runs.event Halves _ JsonText.library _ _ _ _ _
    (.start ⟨[], none, 1, 4096⟩ twoCubes.state ⟨1, 1, 1, 1⟩) (.created created) trivial
    (Int.le_refl 1)
  have closed := Runs.event .close started trivial trivial
  have handed : cubeStart.1.cursor = some cubeCursor := by decide +kernel
  have refused := Runs.event (.next cubeCursor ⟨2, 2, 2, 2⟩) closed
    (Or.inr ⟨_, List.mem_append_left _ (List.mem_append_right _ (List.mem_singleton_self _)),
      handed⟩) (Int.le_refl 2)
  have answered : (next ⟨2, 2, 2, 2⟩ cubeCursor (close cubeStart.2)).1 =
      .result (error "REQUIRES_RESYNC") := by
    decide +kernel
  refine (cursor_freshness JsonText.library cubeSession.grant 1 0 refused).2.2 cubeCursor
    ⟨2, 2, 2, 2⟩ ?_
  refine List.mem_append_right _ (List.mem_singleton.mpr ?_)
  change _ = Entry.mk _ (some (next ⟨2, 2, 2, 2⟩ cubeCursor (close cubeStart.2)).1)
  rw [answered]

end Omniweft.Observe
