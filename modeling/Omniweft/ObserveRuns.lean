import Omniweft.Handles
import Omniweft.JsonText
import Omniweft.Observe

/-!
# What a session lets through

The rows of a capture depend only on the slots the grant authorizes: the slots
it does not authorize are skipped before any predicate or budget looks at them,
and sorting does not move the others. Two worlds that agree on the authorized
slots therefore look the same through any sequence of calls.
-/

namespace Omniweft.Observe

open Outcome World

variable {α : Type} [Scalar α]

/-- A live slot that the grant permits, with its cube inside the granted region. -/
def authorized (grant : ReadGrant α) (slot : Slot α) : Bool :=
  visible grant slot &&
    slot.entity.any fun entity => !outside grant (bounds entity.transform)

/-- The worlds carry the same names and agree on every authorized slot. -/
structure Agree (grant : ReadGrant α) (left right : World.Snapshot α) : Prop where
  worldId : left.worldId = right.worldId
  worldRevision : left.worldRevision = right.worldRevision
  slots : ∀ slot, authorized grant slot = true → (slot ∈ left.slots ↔ slot ∈ right.slots)

omit [Scalar α] in
/-- The slots of a world have uuids of their own. -/
theorem slots_distinct {worldId : Text} {seed maxSlots : UInt32} {state : World.Snapshot α}
    (valid : Transactions.SlotsValid worldId seed maxSlots state) :
    (state.slots.map Slot.entityUuid).Nodup := by
  rw [List.Nodup, List.pairwise_map, List.pairwise_iff_getElem]
  intro first second firstInside secondInside order same
  have few := valid.bounded
  have small := valid.small
  have firstUuid := valid.uuids first _ (List.getElem?_eq_getElem firstInside)
  have secondUuid := valid.uuids second _ (List.getElem?_eq_getElem secondInside)
  rw [firstUuid, secondUuid] at same
  have equal := Transactions.uuid_injective (by omega) (by omega) same
  omega

/-- A world whose slots have uuids of their own, as every world has. -/
structure Observed (α : Type) where
  state : World.Snapshot α
  distinct : (state.slots.map Slot.entityUuid).Nodup

def Observed.ofSlots {worldId : Text} {seed maxSlots : UInt32} (state : World.Snapshot α)
    (valid : Transactions.SlotsValid worldId seed maxSlots state) : Observed α where
  state := state
  distinct := slots_distinct valid

/-- The row loop skips what the grant does not authorize. -/
theorem gather_filter (library : JsonLibrary α) (grant : ReadGrant α) (query : Query α)
    (slots : List (Slot α)) (seen : ∀ slot ∈ slots, visible grant slot = true)
    (state : Gathered) :
    slots.foldlM (gather library grant query) state =
      (slots.filter (authorized grant)).foldlM (gather library grant query) state := by
  induction slots generalizing state with
  | nil => rfl
  | cons slot rest inductionHypothesis =>
      have later := inductionHypothesis fun other member =>
        seen other (List.mem_cons_of_mem _ member)
      have here := seen slot (List.mem_cons_self ..)
      by_cases allowed : authorized grant slot = true
      · rw [List.filter_cons_of_pos allowed, List.foldlM_cons, List.foldlM_cons]
        exact bind_congr fun next => later next
      · have skipped : gather library grant query state slot = .ok state := by
          unfold gather
          cases present : slot.entity with
          | none => rfl
          | some entity =>
              have outsideRegion : outside grant (bounds entity.transform) = true := by
                simpa [authorized, here, present] using allowed
              simp only [outsideRegion, if_true]
        rw [List.filter_cons_of_neg allowed, List.foldlM_cons, skipped]
        exact later state

theorem authorized_agree {grant : ReadGrant α} {left right : Observed α}
    (agree : Agree grant left.state right.state) :
    Keyed.arrange Slot.entityUuid (left.state.slots.filter (authorized grant)) =
      Keyed.arrange Slot.entityUuid (right.state.slots.filter (authorized grant)) := by
  apply (Keyed.arrange_ascending (Keyed.distinct_filter left.distinct _)).eq_of_mem_iff
    (Keyed.arrange_ascending (Keyed.distinct_filter right.distinct _))
  intro slot
  rw [Keyed.mem_arrange, Keyed.mem_arrange, List.mem_filter, List.mem_filter]
  constructor
  · rintro ⟨member, allowed⟩
    exact ⟨(agree.slots slot allowed).1 member, allowed⟩
  · rintro ⟨member, allowed⟩
    exact ⟨(agree.slots slot allowed).2 member, allowed⟩

/-- The rows come from the authorized slots alone. -/
theorem gathered_authorized (library : JsonLibrary α) (grant : ReadGrant α) (query : Query α)
    (world : Observed α) (state : Gathered) :
    (Keyed.arrange Slot.entityUuid (world.state.slots.filter (visible grant))).foldlM
        (gather library grant query) state =
      (Keyed.arrange Slot.entityUuid (world.state.slots.filter (authorized grant))).foldlM
        (gather library grant query) state := by
  have visibleDistinct := Keyed.distinct_filter world.distinct (visible grant)
  have seen : ∀ slot ∈ Keyed.arrange Slot.entityUuid (world.state.slots.filter (visible grant)),
      visible grant slot = true := by
    intro slot member
    exact (List.mem_filter.1 (Keyed.mem_arrange.1 member)).2
  have narrowed : (world.state.slots.filter (visible grant)).filter (authorized grant) =
      world.state.slots.filter (authorized grant) := by
    rw [List.filter_filter]
    apply List.filter_congr
    intro slot _
    unfold authorized
    rw [Bool.and_comm, Bool.and_left_comm, Bool.and_self_left]
  rw [gather_filter library grant query _ seen, Keyed.arrange_filter visibleDistinct, narrowed]

theorem capture_agree (library : JsonLibrary α) {session : Session α} (query : Query α)
    (now : Int) {left right : Observed α}
    (agree : Agree session.grant left.state right.state) :
    capture library session query now left.state =
      capture library session query now right.state := by
  unfold capture
  simp only [agree.worldId, agree.worldRevision, gathered_authorized, authorized_agree agree]

omit [Scalar α] in
theorem expire_grant (now : Int) (session : Session α) :
    (expire now session).grant = session.grant := by
  unfold expire
  split
  · rfl
  · split <;> rfl

theorem start_agree (library : JsonLibrary α) (clock : Readings) (query : Query α)
    {session : Session α} {left right : Observed α}
    (agree : Agree session.grant left.state right.state) :
    start library clock query left.state session =
      start library clock query right.state session := by
  have expired : Agree (expire clock.entry session).grant left.state right.state := by
    rwa [expire_grant]
  unfold start startOpen
  rw [capture_agree library query clock.capture expired]

omit [Scalar α] in
theorem publish_grant (clock : Readings) (staged : Snapshot) (session : Session α) :
    (publish clock staged session).2.grant = session.grant := by
  unfold publish
  dsimp only
  split
  · rfl
  split
  · exact expire_grant clock.late session
  · rfl

theorem startOpen_grant (library : JsonLibrary α) (clock : Readings) (query : Query α)
    (world : World.Snapshot α) (session : Session α) :
    (startOpen library clock query world session).2.grant = session.grant := by
  unfold startOpen
  split
  · rfl
  split
  · rfl
  split
  · rfl
  cases capture library session query clock.capture world with
  | error stop => cases stop <;> rfl
  | ok staged => exact publish_grant clock staged session

omit [Scalar α] in
theorem nextOpen_grant (clock : Readings) (cursor : Cursor) (session : Session α) :
    (nextOpen clock cursor session).2.grant = session.grant := by
  unfold nextOpen
  cases session.snapshot with
  | none => rfl
  | some data =>
      dsimp only
      split
      · rfl
      split
      · exact expire_grant clock.late session
      · rfl

theorem perform_grant (library : JsonLibrary α) (world : World.Snapshot α)
    (past : List Reply) (session : Session α) (clock : Readings) (call : Call α) :
    (perform library world past session clock call).2.grant = session.grant := by
  cases call with
  | start query => exact (startOpen_grant library clock query world _).trans (expire_grant _ _)
  | next handle => exact (nextOpen_grant clock _ _).trans (expire_grant _ _)

/-- The replies depend on the worlds only through what the grant authorizes. -/
theorem replies_agree (library : JsonLibrary α) {left right : Nat → Observed α} :
    ∀ (calls : List (Call α × Readings)) (session : Session α) (past : List Reply),
      (∀ moment, Agree session.grant (left moment).state (right moment).state) →
      replies library (fun moment => (left moment).state) session past calls =
        replies library (fun moment => (right moment).state) session past calls
  | [], session, past, _ => rfl
  | (call, clock) :: rest, session, past, agree => by
      have same : perform library (left past.length).state past session clock call =
          perform library (right past.length).state past session clock call := by
        cases call with
        | start query => exact start_agree library clock query (agree past.length)
        | next handle => rfl
      unfold replies
      simp only [same]
      apply replies_agree library rest
      rw [perform_grant]
      exact agree

def Cursor.under (identity : Nat) (cursor : Cursor) : Cursor :=
  { cursor with owner := cursor.owner.map fun _ => identity }

def Result.under (identity : Nat) (result : Result) : Result :=
  { result with
    page :=
      result.page.map fun page => { page with next := page.next.map (Cursor.under identity) } }

def Reply.under (identity : Nat) : Reply → Reply
  | .result answer => .result (answer.under identity)
  | .thrown => .thrown

/-- The same session with another identity token. -/
def Session.under (identity : Nat) (session : Session α) : Session α :=
  { session with identity := session.identity.map fun _ => identity }

omit [Scalar α] in
theorem expire_under (now : Int) (identity : Nat) (session : Session α) :
    expire now (session.under identity) = (expire now session).under identity := by
  unfold expire
  have expires : (session.under identity).expires = session.expires := rfl
  have snapshot : (session.under identity).snapshot = session.snapshot := rfl
  rw [expires, snapshot]
  split
  · rfl
  · split <;> rfl

theorem page_under (identity : Nat) (owner : Option Nat) (data : Snapshot) (offset : Nat)
    (serial : UInt64) :
    page (owner.map fun _ => identity) data offset serial =
      (page owner data offset serial).under identity := by
  unfold page
  simp only []
  split
  · rfl
  · split <;> rfl

omit [Scalar α] in
theorem publish_under (clock : Readings) (staged : Snapshot) (identity : Nat)
    (session : Session α) :
    publish clock staged (session.under identity) =
      ((publish clock staged session).1.under identity,
        (publish clock staged session).2.under identity) := by
  have named : page (session.under identity).identity staged 0
        ((session.under identity).serial + 1) =
      (page session.identity staged 0 (session.serial + 1)).under identity :=
    page_under identity session.identity staged 0 (session.serial + 1)
  have same : ∀ result : Result, (result.under identity).page.isNone = result.page.isNone :=
    fun result => Option.isNone_map
  unfold publish
  dsimp only
  rw [named, same]
  split
  · rfl
  split
  · rw [expire_under]
    rfl
  · rfl

theorem startOpen_under (library : JsonLibrary α) (clock : Readings) (query : Query α)
    (world : World.Snapshot α) (identity : Nat) (session : Session α) :
    startOpen library clock query world (session.under identity) =
      ((startOpen library clock query world session).1.under identity,
        (startOpen library clock query world session).2.under identity) := by
  have captured : capture library (session.under identity) query clock.capture world =
      capture library session query clock.capture world := rfl
  have closed : (session.under identity).closed = session.closed := rfl
  have serial : (session.under identity).serial = session.serial := rfl
  unfold startOpen
  rw [captured, closed, serial]
  split
  · rfl
  split
  · rfl
  split
  · rfl
  cases capture library session query clock.capture world with
  | error stop => cases stop <;> rfl
  | ok staged => exact publish_under clock staged identity session

/-- An owner is the session's own token or none at all. -/
def Own (identity : Nat) (owner : Option Nat) : Prop :=
  ∀ token, owner = some token → token = identity

omit [Scalar α] in
theorem nextOpen_under (clock : Readings) {original : Nat} (identity : Nat) {cursor : Cursor}
    {session : Session α} (ownCursor : Own original cursor.owner)
    (ownSession : Own original session.identity) :
    nextOpen clock (cursor.under identity) (session.under identity) =
      ((nextOpen clock cursor session).1.under identity,
        (nextOpen clock cursor session).2.under identity) := by
  have snapshot : (session.under identity).snapshot = session.snapshot := rfl
  have closed : (session.under identity).closed = session.closed := rfl
  have serial : (session.under identity).serial = session.serial := rfl
  have offset : (cursor.under identity).offset = cursor.offset := rfl
  have taken : (cursor.under identity).snapshot = cursor.snapshot := rfl
  have owners : ((cursor.under identity).owner != (session.under identity).identity) =
      (cursor.owner != session.identity) := by
    simp only [Cursor.under, Session.under]
    cases held : cursor.owner with
    | none => cases session.identity <;> rfl
    | some token =>
        cases named : session.identity with
        | none => rfl
        | some other => simp [ownCursor token held, ownSession other named]
  unfold nextOpen
  rw [snapshot]
  cases session.snapshot with
  | none => rfl
  | some data =>
      dsimp only
      rw [closed, owners, taken, serial, offset]
      split
      · rfl
      split
      · rw [expire_under]
        rfl
      · have named : page (session.under identity).identity data cursor.offset session.serial =
            (page session.identity data cursor.offset session.serial).under identity :=
          page_under identity session.identity data cursor.offset session.serial
        rw [named]
        rfl

/-- Every cursor a reply hands out is the session's own. -/
def Reply.Own (identity : Nat) (reply : Reply) : Prop :=
  ∀ cursor, reply.cursor = some cursor → Observe.Own identity cursor.owner

omit [Scalar α] in
theorem expire_own {original : Nat} {session : Session α} (own : Own original session.identity)
    (now : Int) :
    Own original (expire now session).identity := by
  unfold expire
  split
  · intro token impossible
    cases impossible
  split
  · exact own
  · exact own

theorem page_own {original : Nat} {owner : Option Nat} (own : Own original owner)
    (data : Snapshot) (offset : Nat) (serial : UInt64) :
    (Reply.result (page owner data offset serial)).Own original := by
  unfold page
  dsimp only
  split
  · intro cursor impossible
    cases impossible
  · intro cursor handed
    simp only [Reply.cursor, Option.bind_some] at handed
    split at handed
    · cases handed
      exact own
    · cases handed

theorem error_own (original : Nat) (code : Text) : (Reply.result ⟨none, code⟩).Own original := by
  intro cursor impossible
  cases impossible

omit [Scalar α] in
theorem publish_own {original : Nat} (clock : Readings) (staged : Snapshot)
    {session : Session α} (own : Own original session.identity) :
    (publish clock staged session).1.Own original ∧
      Own original (publish clock staged session).2.identity := by
  unfold publish
  dsimp only
  split
  · exact ⟨page_own own _ _ _, own⟩
  split
  · exact ⟨error_own _ _, expire_own own _⟩
  · exact ⟨page_own own _ _ _, own⟩

theorem startOpen_own {original : Nat} (library : JsonLibrary α) (clock : Readings)
    (query : Query α) (world : World.Snapshot α) {session : Session α}
    (own : Own original session.identity) :
    (startOpen library clock query world session).1.Own original ∧
      Own original (startOpen library clock query world session).2.identity := by
  unfold startOpen
  split
  · exact ⟨error_own _ _, own⟩
  split
  · exact ⟨error_own _ _, own⟩
  split
  · exact ⟨error_own _ _, own⟩
  cases capture library session query clock.capture world with
  | error stop =>
      cases stop with
      | reject code => exact ⟨error_own _ _, own⟩
      | thrown =>
          refine ⟨?_, own⟩
          intro cursor impossible
          cases impossible
  | ok staged => exact publish_own clock staged own

omit [Scalar α] in
theorem nextOpen_own {original : Nat} (clock : Readings) (cursor : Cursor)
    {session : Session α} (own : Own original session.identity) :
    (nextOpen clock cursor session).1.Own original ∧
      Own original (nextOpen clock cursor session).2.identity := by
  unfold nextOpen
  cases session.snapshot with
  | none => exact ⟨error_own _ _, own⟩
  | some data =>
      dsimp only
      split
      · exact ⟨error_own _ _, own⟩
      split
      · exact ⟨error_own _ _, expire_own own _⟩
      · exact ⟨page_own own _ _ _, own⟩

theorem perform_own {original : Nat} (library : JsonLibrary α) (world : World.Snapshot α)
    (past : List Reply) {session : Session α} (clock : Readings) (call : Call α)
    (own : Own original session.identity) :
    (perform library world past session clock call).1.Own original ∧
      Own original (perform library world past session clock call).2.identity := by
  cases call with
  | start query => exact startOpen_own library clock query world (expire_own own _)
  | next handle => exact nextOpen_own clock _ (expire_own own _)

theorem reply_cursor_under (identity : Nat) (reply : Reply) :
    (reply.under identity).cursor = reply.cursor.map (Cursor.under identity) := by
  cases reply with
  | thrown => rfl
  | result answer =>
      cases answer with
      | mk page code => cases page <;> rfl

theorem handle_cursor_under (identity : Nat) (past : List Reply) (handle : Handle) :
    handle.cursor (past.map (Reply.under identity)) =
      (handle.cursor past).under identity := by
  cases handle with
  | foreign snapshot offset => rfl
  | returned index =>
      simp only [Handle.cursor, List.getElem?_map]
      cases past[index]? with
      | none => rfl
      | some reply =>
          simp only [Option.map_some, Option.bind_some, reply_cursor_under]
          cases reply.cursor <;> rfl

theorem handle_own {original : Nat} {past : List Reply}
    (own : ∀ reply ∈ past, reply.Own original) (handle : Handle) :
    Own original (handle.cursor past).owner := by
  cases handle with
  | foreign snapshot offset =>
      intro token impossible
      cases impossible
  | returned index =>
      simp only [Handle.cursor]
      cases found : past[index]? with
      | none =>
          intro token impossible
          cases impossible
      | some reply =>
          simp only [Option.bind_some]
          cases handed : reply.cursor with
          | none =>
              intro token impossible
              cases impossible
          | some cursor => exact own reply (List.mem_of_getElem? found) cursor handed

/-- The identity token of a session changes nothing but the owners of its cursors. -/
theorem replies_under (library : JsonLibrary α) (worlds : Nat → World.Snapshot α)
    (original identity : Nat) :
    ∀ (calls : List (Call α × Readings)) (session : Session α) (past : List Reply),
      Own original session.identity →
      (∀ reply ∈ past, reply.Own original) →
      replies library worlds (session.under identity) (past.map (Reply.under identity)) calls =
        (replies library worlds session past calls).map (Reply.under identity)
  | [], session, past, _, _ => rfl
  | (call, clock) :: rest, session, past, ownSession, ownPast => by
      have step : perform library (worlds past.length) (past.map (Reply.under identity))
            (session.under identity) clock call =
          ((perform library (worlds past.length) past session clock call).1.under identity,
            (perform library (worlds past.length) past session clock call).2.under identity) := by
        cases call with
        | start query =>
            change startOpen _ _ _ _ (expire _ _) = _
            rw [expire_under, startOpen_under]
            rfl
        | next handle =>
            change nextOpen _ _ (expire _ _) = _
            rw [expire_under, handle_cursor_under]
            exact nextOpen_under clock identity (handle_own ownPast handle)
              (expire_own ownSession _)
      have owned := perform_own library (worlds past.length) past clock call ownSession
      have ownNext : ∀ reply ∈
          past ++ [(perform library (worlds past.length) past session clock call).1],
          reply.Own original := by
        intro reply member
        rcases List.mem_append.1 member with old | new
        · exact ownPast reply old
        · rw [List.mem_singleton.1 new]
          exact owned.1
      have later := replies_under library worlds original identity rest _ _ owned.2 ownNext
      unfold replies
      simp only [List.length_map, step]
      rw [← later, List.map_append, List.map_singleton]

theorem seen_under (identity : Nat) (reply : Reply) :
    (reply.under identity).seen = reply.seen := by
  cases reply with
  | thrown => rfl
  | result answer =>
      obtain ⟨page, code⟩ := answer
      cases page with
      | none => rfl
      | some page =>
          obtain ⟨json, cursor⟩ := page
          cases cursor <;> rfl

/-- Sessions with one grant over worlds that agree on what it authorizes give
the same pages, the same availability of next cursors and the same codes, for
any calls under the same clock readings. -/
theorem noninterference (library : JsonLibrary α) (grant : ReadGrant α)
    (left right : Nat → Observed α)
    (agree : ∀ moment, Agree grant (left moment).state (right moment).state)
    (leftIdentity rightIdentity : Nat) (now : Int) (calls : List (Call α × Readings)) :
    (run library grant leftIdentity now (fun moment => (left moment).state) calls).map
        (List.map Reply.seen) =
      (run library grant rightIdentity now (fun moment => (right moment).state) calls).map
        (List.map Reply.seen) := by
  unfold run Session.create
  cases accepted : checkedGrant grant with
  | error raised => rfl
  | ok checkedOut =>
      have same : checkedOut = grant := by
        unfold checkedGrant at accepted
        simp only [bind_eq_ok, pure_eq_ok] at accepted
        obtain ⟨_, _, _, _, same⟩ := accepted
        exact same.symm
      subst same
      have rebased := replies_under library (fun moment => (right moment).state) leftIdentity
        rightIdentity calls
        (⟨checkedOut, some leftIdentity, now + nanoseconds checkedOut.lifetime, none, 0, false⟩)
        [] (fun token named => (Option.some.inj named).symm)
        (fun reply impossible => by cases impossible)
      have agreed := replies_agree library calls
        (⟨checkedOut, some leftIdentity, now + nanoseconds checkedOut.lifetime, none, 0, false⟩)
        [] agree
      have stripped : ∀ answers : List Reply,
          (answers.map (Reply.under rightIdentity)).map Reply.seen = answers.map Reply.seen := by
        intro answers
        rw [List.map_map]
        exact List.map_congr_left fun reply _ => seen_under rightIdentity reply
      change Except.ok _ = Except.ok _
      rw [agreed, ← stripped, ← rebased]
      rfl

def cube (number : Nat) (tags : List Text) : Slot Halves where
  entityUuid := Transactions.uuid 7 number
  generation := 1
  retired := false
  entity := some ⟨ascii "builtin.unit_cube", 1, Transform.default, none, Transform.default, tags⟩

def observedCubes (hidden : List Text) : Observed Halves where
  state := ⟨1, ascii "workshop", 7, 8, 1, [cube 0 [], cube 1 hidden]⟩
  distinct := (by decide : [Transactions.uuid 7 0, Transactions.uuid 7 1].Nodup)

def firstCube : ReadGrant Halves :=
  ⟨false, [⟨Transactions.uuid 7 0, 1⟩], none, 4096, 1048576, 60000, 30000⟩

theorem observedCubes_agree (hidden other : List Text) :
    Agree firstCube (observedCubes hidden).state (observedCubes other).state := by
  have unseen : ∀ tags, authorized firstCube (cube 1 tags) = false := fun _ => rfl
  refine ⟨rfl, rfl, ?_⟩
  intro slot allowed
  have only : ∀ tags, slot ∈ (observedCubes tags).state.slots ↔ slot = cube 0 [] := by
    intro tags
    constructor
    · intro member
      rcases List.mem_cons.1 member with first | later
      · exact first
      · rw [List.mem_singleton.1 later, unseen] at allowed
        cases allowed
    · rintro rfl
      exact List.mem_cons_self ..
  rw [only, only]

set_option maxRecDepth 20000 in
theorem noninterference_cubes :
    observedCubes [ascii "red"] ≠ observedCubes [] ∧
      (run JsonText.library firstCube 1 0 (fun _ => (observedCubes [ascii "red"]).state)
          [(.start ⟨[], none, 16, 4096⟩, ⟨1, 1, 1, 1⟩)]).map (List.map Reply.seen) =
        (run JsonText.library firstCube 2 0 (fun _ => (observedCubes []).state)
          [(.start ⟨[], none, 16, 4096⟩, ⟨1, 1, 1, 1⟩)]).map (List.map Reply.seen) ∧
      ∃ json, (run JsonText.library firstCube 1 0 (fun _ => (observedCubes [ascii "red"]).state)
          [(.start ⟨[], none, 16, 4096⟩, ⟨1, 1, 1, 1⟩)]).map (List.map Reply.seen) =
        .ok [some (some (json, false), [])] := by
  refine ⟨?_, noninterference JsonText.library firstCube _ _
    (fun _ => observedCubes_agree [ascii "red"] []) 1 2 0 _, _, rfl⟩
  intro same
  have tags := congrArg (fun world : Observed Halves =>
    world.state.slots.map fun slot => slot.entity.map Entity.tags) same
  exact absurd tags (by decide)

end Omniweft.Observe
