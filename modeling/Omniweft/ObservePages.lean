import Omniweft.CanonicalWorlds
import Omniweft.ObserveRuns
import Mathlib.Data.List.Induction

/-!
# Pages

A page takes rows while they fit. The end of a page says whether rows are left, in one
byte more when none are, so the test of a row depends on whether another follows it.
Following the cursors nevertheless splits the captured rows into consecutive pages, each
as long as the limits let it be.
-/

namespace Omniweft.Observe

open Outcome World

/-- The bytes of rows with the commas between them. -/
def weight (rows : List Text) : Nat :=
  (List.intercalate [44] rows).length

/-- The bytes of a page with these rows, of which more are left or not. -/
def Snapshot.size (data : Snapshot) (rows : List Text) (more : Bool) : Nat :=
  data.opening.length + weight rows + (suffix more).length

theorem suffix_least (more : Bool) : (suffix true).length ≤ (suffix more).length := by
  cases more with
  | false => decide
  | true => exact Nat.le_refl _

theorem weight_snoc (rows : List Text) (row : Text) :
    weight (rows ++ [row]) = weight rows + (if 0 < rows.length then 1 else 0) + row.length := by
  induction rows with
  | nil => simp [weight]
  | cons first rest continues =>
      cases rest with
      | nil =>
          simp [weight, List.intercalate]
          omega
      | cons second others =>
          have shape : ∀ tail : List Text, weight (first :: second :: tail) =
              first.length + (1 + weight (second :: tail)) := by
            intro tail
            simp [weight, List.intercalate]
            omega
          have later : weight ((second :: others) ++ [row]) =
              weight (second :: others) + 1 + row.length := by
            simpa using continues
          rw [List.cons_append, List.cons_append, shape, shape, ← List.cons_append, later]
          simp
          omega

theorem weight_append_le (front back : List Text) : weight front ≤ weight (front ++ back) := by
  induction back using List.reverseRecOn with
  | nil => rw [List.append_nil]
  | append_singleton rest row continues =>
      rw [← List.append_assoc, weight_snoc]
      omega

theorem Snapshot.size_mono {data : Snapshot} (front back : List Text) (more : Bool) :
    data.size front true ≤ data.size (front ++ back) more := by
  have heavier := weight_append_le front back
  have longer := suffix_least more
  unfold Snapshot.size
  omega

/-- What stops a page before the rows run out: its number of rows, or the next row. -/
def Snapshot.Stops (data : Snapshot) (chosen rest : List Text) : Prop :=
  chosen.length = data.pageSize ∨
    ∃ row later, rest = row :: later ∧
      data.responseBytes < data.size (chosen ++ [row]) (!later.isEmpty)

/-- The loop takes the first of the remaining rows, each of which fitted when it was the
last of the page. -/
theorem fill_spec (data : Snapshot) (rest : List Text) :
    ∀ chosen : List Text, chosen.length ≤ data.pageSize →
      ∃ front back, rest = front ++ back ∧
        fill data chosen.length (weight chosen) rest =
          (chosen.length + front.length, weight (chosen ++ front)) ∧
        chosen.length + front.length ≤ data.pageSize ∧
        (front ≠ [] → data.size (chosen ++ front) (!back.isEmpty) ≤ data.responseBytes) ∧
        (back ≠ [] → data.Stops (chosen ++ front) back) := by
  induction rest with
  | nil =>
      intro chosen room
      exact ⟨[], [], rfl, by simp [fill], room, by simp, by simp⟩
  | cons row rest continues =>
      intro chosen room
      have candidate : weight chosen + (if 0 < chosen.length then 1 else 0) + row.length =
          weight (chosen ++ [row]) := (weight_snoc chosen row).symm
      by_cases short : chosen.length < data.pageSize
      · by_cases large : data.responseBytes < data.size (chosen ++ [row]) (!rest.isEmpty)
        · refine ⟨[], row :: rest, rfl, ?_, room, by simp, ?_⟩
          · rw [fill, candidate, if_pos short]
            rw [Snapshot.size] at large
            simp [large]
          · intro _
            rw [List.append_nil]
            exact Or.inr ⟨row, rest, rfl, large⟩
        · obtain ⟨front, back, whole, filled, within, fitted, stopped⟩ :=
            continues (chosen ++ [row]) (by simpa using Nat.succ_le_of_lt short)
          rw [List.append_assoc, List.singleton_append] at filled fitted stopped
          refine ⟨row :: front, back, by rw [whole, List.cons_append], ?_, ?_, ?_, stopped⟩
          · rw [fill, candidate, if_pos short]
            rw [Snapshot.size] at large
            rw [List.length_append, List.length_singleton] at filled
            rw [if_neg large, filled, List.length_cons]
            congr 1
            omega
          · rw [List.length_append, List.length_singleton] at within
            rw [List.length_cons]
            omega
          · intro _
            cases front with
            | nil =>
                rw [List.nil_append] at whole
                rw [← whole]
                exact Nat.le_of_not_lt large
            | cons second others => exact fitted (by simp)
      · refine ⟨[], row :: rest, rfl, ?_, room, by simp, ?_⟩
        · rw [fill, if_neg short]
          simp
        · intro _
          rw [List.append_nil]
          exact Or.inl (Nat.le_antisymm room (Nat.le_of_not_lt short))

/-- Rows of which not even the first fits on a page. -/
def Snapshot.Refuses (data : Snapshot) : List Text → Prop
  | [] => data.responseBytes < data.size [] false
  | row :: rest => data.responseBytes < data.size [row] (!rest.isEmpty)

/-- The page of chosen rows, before those that are left. -/
def Snapshot.shown (data : Snapshot) (identity : Option Nat) (serial : UInt64)
    (offset : Nat) (chosen left : List Text) : Page where
  json := data.opening ++ List.intercalate [44] chosen ++ suffix (!left.isEmpty)
  next := if left.isEmpty then none else some ⟨identity, serial, offset + chosen.length⟩

/-- A page holds the first of the remaining rows, as many as the limits allow. -/
structure Snapshot.Full (data : Snapshot) (chosen left : List Text) : Prop where
  counted : chosen.length ≤ data.pageSize
  fits : data.size chosen (!left.isEmpty) ≤ data.responseBytes
  progress : left ≠ [] → chosen ≠ []
  longest :
    ∀ more rest, left = more ++ rest → more ≠ [] →
      chosen.length + more.length ≤ data.pageSize →
      data.responseBytes < data.size (chosen ++ more) (!rest.isEmpty)

theorem Snapshot.Stops.longest {data : Snapshot} {chosen left : List Text}
    (stops : data.Stops chosen left) {more rest : List Text} (whole : left = more ++ rest)
    (longer : more ≠ []) (within : chosen.length + more.length ≤ data.pageSize) :
    data.responseBytes < data.size (chosen ++ more) (!rest.isEmpty) := by
  obtain ⟨next, others, shape⟩ := List.exists_cons_of_ne_nil longer
  rw [shape] at whole within ⊢
  rw [List.length_cons] at within
  rcases stops with counted | ⟨row, later, first, large⟩
  · omega
  · rw [whole, List.cons_append] at first
    obtain ⟨same, tail⟩ := List.cons.inj first
    rw [← same, ← tail] at large
    cases others with
    | nil => exact large
    | cons second remaining =>
        have least := @Snapshot.size_mono data (chosen ++ [next]) (second :: remaining)
          (!rest.isEmpty)
        rw [List.append_assoc, List.singleton_append] at least
        exact Nat.lt_of_lt_of_le large least

/-- A page is refused only when its first row alone does not fit, or when there is none
and the empty page does not. -/
theorem page_cases {data : Snapshot} (sized : 0 < data.pageSize) (identity : Option Nat)
    (serial : UInt64) {offset : Nat} (inside : offset ≤ data.rows.length) :
    (data.Refuses (data.rows.drop offset) ∧
        page identity data offset serial = error "BUDGET_EXCEEDED") ∨
      ∃ chosen left, data.rows.drop offset = chosen ++ left ∧
        ¬ data.Refuses (data.rows.drop offset) ∧ data.Full chosen left ∧
        page identity data offset serial =
          ⟨some (data.shown identity serial offset chosen left), []⟩ := by
  obtain ⟨chosen, left, whole, filled, counted, fitted, stopped⟩ :=
    fill_spec data (data.rows.drop offset) [] (Nat.zero_le _)
  simp only [List.length_nil, Nat.zero_add, List.nil_append] at filled counted fitted stopped
  have measured : data.rows.length = offset + (chosen.length + left.length) := by
    have lengths := congrArg List.length whole
    rw [List.length_drop, List.length_append] at lengths
    omega
  have more : decide (offset + chosen.length < data.rows.length) = !left.isEmpty := by
    rw [measured]
    cases left with
    | nil => simp
    | cons row rest => simp
  have start : fill data 0 0 (data.rows.drop offset) = (chosen.length, weight chosen) := filled
  have pageShape : page identity data offset serial =
      if (chosen.length == 0 && !left.isEmpty) ||
          decide (data.responseBytes < data.size chosen (!left.isEmpty)) then
        error "BUDGET_EXCEEDED"
      else ⟨some (data.shown identity serial offset chosen left), []⟩ := by
    unfold page
    dsimp only
    rw [start]
    dsimp only
    rw [more, whole, List.take_left]
    unfold Snapshot.shown Snapshot.size
    cases left <;> rfl
  cases chosen with
  | nil =>
      rw [List.nil_append] at whole
      cases left with
      | nil =>
          rw [whole]
          by_cases large : data.responseBytes < data.size [] false
          · left
            refine ⟨large, ?_⟩
            rw [pageShape]
            simp [large]
          · right
            refine ⟨[], [], rfl, large, ⟨counted, Nat.le_of_not_lt large, by simp, ?_⟩, ?_⟩
            · intro more rest shape longer
              exact absurd (List.append_eq_nil_iff.mp shape.symm).1 longer
            · rw [pageShape]
              simp [large]
      | cons row rest =>
          rcases stopped (by simp) with full | ⟨first, later, shape, large⟩
          · rw [List.length_nil] at full
            omega
          · left
            obtain ⟨same, tail⟩ := List.cons.inj shape
            rw [← same, ← tail, List.nil_append] at large
            rw [whole]
            exact ⟨large, by rw [pageShape]; simp⟩
  | cons row others =>
      right
      have within := fitted (by simp)
      refine ⟨row :: others, left, whole, ?_, ⟨counted, within, by simp, ?_⟩, ?_⟩
      · rw [whole]
        intro refuses
        have least : data.size [row] (!(others ++ left).isEmpty) ≤
            data.size (row :: others) (!left.isEmpty) := by
          cases others with
          | nil => exact Nat.le_refl _
          | cons second remaining =>
              exact Snapshot.size_mono [row] (second :: remaining) (!left.isEmpty)
        exact absurd (Nat.lt_of_lt_of_le refuses least) (Nat.not_lt.mpr within)
      · intro more rest shape longer room
        refine (stopped ?_).longest shape longer room
        rw [shape]
        simp [longer]
      · rw [pageShape]
        simp [Nat.not_lt.mpr within]

section Follow

variable {α : Type}

/-- The replies to following the cursors from a reply on, one call for each reading. -/
def follow (session : Session α) (reply : Reply) : List Readings → List Reply
  | [] => [reply]
  | clock :: clocks =>
      match reply.cursor with
      | none => [reply]
      | some cursor =>
          let answered := next clock cursor session
          reply :: follow answered.2 answered.1 clocks

/-- The readings of a call before a deadline. -/
structure Readings.Before (clock : Readings) (deadline : Int) : Prop where
  entry : clock.entry < deadline
  publish : clock.publish < deadline

/-- A session that holds captured rows and is open. -/
structure Session.Holds (session : Session α) (data : Snapshot) : Prop where
  snapshot : session.snapshot = some data
  opened : session.closed = false
  sized : 0 < data.pageSize
  lasting : data.deadline ≤ session.expires

/-- In time, a cursor of the session gives the page at its offset and leaves the session. -/
theorem next_page {session : Session α} {data : Snapshot} (holds : session.Holds data)
    {clock : Readings} (early : clock.Before data.deadline) {offset : Nat}
    (inside : offset < data.rows.length) :
    next clock ⟨session.identity, session.serial, offset⟩ session =
      (.result (page session.identity data offset session.serial), session) := by
  have lively : ¬ session.expires ≤ clock.entry := by
    have entry := early.entry
    have lasting := holds.lasting
    omega
  have kept : expire clock.entry session = session := by
    unfold expire
    rw [if_neg lively, holds.snapshot]
    simp [early.entry]
  have published : ¬ data.deadline ≤ clock.publish := not_le.mpr early.publish
  rw [next, kept, nextOpen, holds.snapshot]
  simp [holds.opened, inside, published]

/-- The replies that show the chunks one after the other. -/
def Snapshot.replies (data : Snapshot) (identity : Option Nat) (serial : UInt64) :
    Nat → List (List Text) → List Reply
  | _, [] => []
  | offset, chunk :: later =>
      .result ⟨some (data.shown identity serial offset chunk later.flatten), []⟩ ::
        data.replies identity serial (offset + chunk.length) later

/-- Following the cursors splits the remaining rows into full pages. -/
theorem follow_spec {session : Session α} {data : Snapshot} (holds : session.Holds data)
    (each : ∀ row rest, (row :: rest) <:+ data.rows → ¬ data.Refuses (row :: rest))
    (clocks : List Readings) :
    ∀ offset, offset ≤ data.rows.length → ¬ data.Refuses (data.rows.drop offset) →
      (∀ clock ∈ clocks, clock.Before data.deadline) →
      (data.rows.drop offset).length ≤ clocks.length →
      ∃ chunks, chunks.flatten = data.rows.drop offset ∧ chunks ≠ [] ∧
        (∀ front chunk back, chunks = front ++ chunk :: back →
          data.Full chunk back.flatten ∧ (back ≠ [] → back.flatten ≠ [])) ∧
        follow session (.result (page session.identity data offset session.serial)) clocks =
          data.replies session.identity session.serial offset chunks := by
  induction clocks with
  | nil =>
      intro offset inside accepted early enough
      have none_left : data.rows.drop offset = [] := List.eq_nil_of_length_eq_zero
        (Nat.le_zero.mp enough)
      rcases page_cases holds.sized session.identity session.serial inside with
        ⟨refused, _⟩ | ⟨chosen, left, whole, _, full, shown⟩
      · exact absurd refused accepted
      · rw [none_left] at whole
        obtain ⟨noChosen, noLeft⟩ := List.append_eq_nil_iff.mp whole.symm
        subst noChosen noLeft
        refine ⟨[[]], by rw [none_left]; rfl, by simp, ?_, ?_⟩
        · intro front chunk back shape
          have only : front = [] ∧ chunk = [] ∧ back = [] := by
            cases front with
            | nil => simpa using shape
            | cons first others => simp at shape
          obtain ⟨_, rfl, rfl⟩ := only
          exact ⟨full, fun impossible => absurd rfl impossible⟩
        · rw [follow, shown]
          rfl
  | cons clock clocks continues =>
      intro offset inside accepted early enough
      rcases page_cases holds.sized session.identity session.serial inside with
        ⟨refused, _⟩ | ⟨chosen, left, whole, _, full, shown⟩
      · exact absurd refused accepted
      · have rest : left = data.rows.drop (offset + chosen.length) := by
          rw [← List.drop_drop, whole, List.drop_left]
        cases left with
        | nil =>
            refine ⟨[chosen], by rw [whole]; simp, by simp, ?_, ?_⟩
            · intro front chunk back shape
              have only : front = [] ∧ chunk = chosen ∧ back = [] := by
                cases front with
                | nil =>
                    obtain ⟨same, none_⟩ := List.cons.inj shape
                    exact ⟨rfl, same.symm, none_.symm⟩
                | cons first others => simp at shape
              obtain ⟨_, rfl, rfl⟩ := only
              exact ⟨full, fun impossible => absurd rfl impossible⟩
            · rw [follow, shown]
              rfl
        | cons row others =>
            have advanced : offset + chosen.length < data.rows.length := by
              have lengths := congrArg List.length rest
              rw [List.length_drop, List.length_cons] at lengths
              omega
            have taken : 0 < chosen.length :=
              List.length_pos_iff.mpr (full.progress (by simp))
            have fewer : (data.rows.drop (offset + chosen.length)).length ≤ clocks.length := by
              rw [List.length_drop] at enough ⊢
              rw [List.length_cons] at enough
              omega
            have fitting : ¬ data.Refuses (data.rows.drop (offset + chosen.length)) := by
              rw [← rest]
              exact each row others (rest ▸ List.drop_suffix _ _)
            obtain ⟨chunks, joined, some_, fulls, answered⟩ :=
              continues (offset + chosen.length) advanced.le fitting
                (fun later member => early later (List.mem_cons_of_mem _ member)) fewer
            rw [← rest] at joined
            refine ⟨chosen :: chunks, by rw [whole, List.flatten_cons, joined], by simp, ?_, ?_⟩
            · intro front chunk back shape
              cases front with
              | nil =>
                  obtain ⟨same, tail⟩ := List.cons.inj shape
                  rw [← same, ← tail, joined]
                  exact ⟨full, fun _ => by simp⟩
              | cons first before =>
                  exact fulls before chunk back (List.cons.inj shape).2
            · have called := next_page holds (early clock (List.mem_cons_self ..)) advanced
              rw [follow, shown]
              simp only [Reply.cursor, Option.bind_some, Snapshot.shown, List.isEmpty_cons,
                Bool.false_eq_true, if_false, called, Snapshot.replies, joined]
              rw [answered]

end Follow

section Rows

variable {α : Type} [Scalar α]

/-- A world as boundary calls leave it, with the tags of every entity in order. -/
structure Catalogued (α : Type) extends Observed α where
  tagged : ∀ slot ∈ state.slots, ∀ entity, slot.entity = some entity →
    entity.tags.Pairwise (· < ·)

def Catalogued.ofReachable {library : JsonLibrary α} {allowed : Commands.Envelope α → Prop}
    {world : LiveWorld α} (reachable : Transactions.ReachableBy library allowed world) :
    Catalogued α where
  state := world.state
  distinct := by
    obtain ⟨worldId, seed, maxSlots, _, valid⟩ := Authoring.reachable_slots reachable
    exact slots_distinct valid
  tagged := by
    intro slot member entity there
    obtain ⟨position, present⟩ := List.mem_iff_getElem?.mp member
    exact (Authoring.reachable_canonical reachable).tags position entity
      (Transactions.entityAt_eq_some.mpr ⟨slot, present, there⟩)

/-- An authorized entity with all the tags of the query, whose cube meets its region. -/
def matching (grant : ReadGrant α) (query : Query α) (slot : Slot α) : Bool :=
  authorized grant slot && slot.entity.any fun entity =>
    query.allTags.all (fun tag => entity.tags.contains tag) &&
      (bounds entity.transform).any fun box =>
        !query.intersects.any fun region => !overlaps region box

/-- The bytes of a slot's row. -/
def Row (library : JsonLibrary α) (slot : Slot α) (row : Text) : Prop :=
  ∃ entity box, slot.entity = some entity ∧ bounds entity.transform = some box ∧
    library.dump (item slot entity box) = some row

omit [Scalar α] in
theorem dumped_eq_ok {library : JsonLibrary α} {value : Json α} {bytes : Text} :
    dumped library value = .ok bytes ↔ library.dump value = some bytes := by
  unfold dumped
  cases library.dump value <;> simp

/-- One round of the row loop adds the row of a matching entity, and only that. -/
theorem gather_cases {library : JsonLibrary α} {grant : ReadGrant α} {query : Query α}
    {state next : Gathered} {slot : Slot α} (allowed : authorized grant slot = true)
    (tagged : ∀ entity, slot.entity = some entity → entity.tags.Pairwise (· < ·))
    (gathered : gather library grant query state slot = .ok next) :
    (matching grant query slot = false ∧ next.rows = state.rows) ∨
      ∃ row, matching grant query slot = true ∧ Row library slot row ∧
        next.rows = state.rows ++ [row] := by
  cases there : slot.entity with
  | none =>
      simp [authorized, there] at allowed
  | some entity =>
      have inRegion : outside grant (bounds entity.transform) = false := by
        simpa [authorized, there] using (Bool.and_eq_true_iff.mp allowed).2
      have found : (query.allTags.all fun tag => Keyed.binarySearch entity.tags tag) =
          query.allTags.all fun tag => entity.tags.contains tag := by
        have each : (fun tag => Keyed.binarySearch entity.tags tag) =
            fun tag => entity.tags.contains tag := by
          funext tag
          rw [Bool.eq_iff_iff, Keyed.binarySearch_eq (tagged entity there), List.contains_iff_mem]
        rw [each]
      unfold gather at gathered
      simp only [there, inRegion, Bool.false_eq_true, if_false, found] at gathered
      unfold matching
      rw [allowed, there, Option.any_some, Bool.true_and]
      cases tags : query.allTags.all fun tag => entity.tags.contains tag with
      | false =>
          simp only [tags, Bool.not_false, if_true, Except.ok.injEq] at gathered
          exact Or.inl ⟨rfl, by rw [gathered]⟩
      | true =>
          simp only [tags, Bool.not_true, Bool.false_eq_true, if_false] at gathered
          cases boxed : bounds entity.transform with
          | none =>
              rw [boxed] at gathered
              cases gathered
          | some box =>
              simp only [boxed] at gathered
              cases apart : query.intersects.any fun region => !overlaps region box with
              | true =>
                  simp only [apart, if_true, Except.ok.injEq] at gathered
                  exact Or.inl ⟨by simp [apart], by rw [gathered]⟩
              | false =>
                  simp only [apart, Bool.false_eq_true, if_false, bind_eq_ok, pure_eq_ok,
                    dumped_eq_ok] at gathered
                  obtain ⟨row, printed, _, _, same⟩ := gathered
                  exact Or.inr ⟨row, by simp [apart], ⟨entity, box, there, boxed, printed⟩,
                    by rw [← same]⟩

theorem gather_rows {library : JsonLibrary α} {grant : ReadGrant α} {query : Query α}
    (slots : List (Slot α)) (allowed : ∀ slot ∈ slots, authorized grant slot = true)
    (tagged : ∀ slot ∈ slots, ∀ entity, slot.entity = some entity →
      entity.tags.Pairwise (· < ·)) :
    ∀ state done : Gathered, slots.foldlM (gather library grant query) state = .ok done →
      ∃ rows, done.rows = state.rows ++ rows ∧
        List.Forall₂ (Row library) (slots.filter (matching grant query)) rows := by
  induction slots with
  | nil =>
      intro state done gathered
      cases gathered
      exact ⟨[], by simp, .nil⟩
  | cons slot rest continues =>
      intro state done gathered
      rw [List.foldlM_cons, bind_eq_ok] at gathered
      obtain ⟨next, first, later⟩ := gathered
      obtain ⟨rows, joined, each⟩ := continues
        (fun other member => allowed other (List.mem_cons_of_mem _ member))
        (fun other member => tagged other (List.mem_cons_of_mem _ member)) next done later
      rcases gather_cases (allowed slot (List.mem_cons_self ..))
        (tagged slot (List.mem_cons_self ..)) first with
        ⟨unmatched, same⟩ | ⟨row, matched, printed, same⟩
      · rw [List.filter_cons_of_neg (by simp [unmatched])]
        exact ⟨rows, by rw [joined, same], each⟩
      · rw [List.filter_cons_of_pos matched]
        exact ⟨row :: rows, by rw [joined, same]; simp, .cons printed each⟩

theorem capture_limits {library : JsonLibrary α} {session : Session α} {query : Query α}
    {now : Int} {world : World.Snapshot α} {data : Snapshot}
    (captured : capture library session query now world = .ok data) :
    data.pageSize = query.pageSize ∧
      data.responseBytes = min query.responseBytes session.grant.responseBytes ∧
      data.deadline = min session.expires (now + nanoseconds session.grant.snapshotLifetime) := by
  unfold capture at captured
  simp only [bind_eq_ok, pure_eq_ok] at captured
  obtain ⟨_, _, _, _, _, _, same⟩ := captured
  rw [← same]
  exact ⟨rfl, rfl, rfl⟩

/-- A capture holds the rows of the matching entities in the order of their uuids. -/
theorem capture_rows {library : JsonLibrary α} {session : Session α} {query : Query α}
    {now : Int} (world : Catalogued α) {data : Snapshot}
    (captured : capture library session query now world.state = .ok data) :
    ∃ slots, Keyed.Ascending Slot.entityUuid slots ∧
      (∀ slot, slot ∈ slots ↔
        slot ∈ world.state.slots ∧ matching session.grant query slot = true) ∧
      List.Forall₂ (Row library) slots data.rows := by
  unfold capture at captured
  simp only [bind_eq_ok, pure_eq_ok] at captured
  obtain ⟨worldId, _, _, _, gathered, taken, same⟩ := captured
  rw [gathered_authorized library session.grant query world.toObserved] at taken
  have distinct := Keyed.distinct_filter world.distinct (authorized session.grant)
  obtain ⟨rows, joined, each⟩ := gather_rows _
    (fun slot member => (List.mem_filter.mp (Keyed.mem_arrange.mp member)).2)
    (fun slot member => world.tagged slot (List.mem_filter.mp (Keyed.mem_arrange.mp member)).1)
    _ _ taken
  rw [← same]
  refine ⟨_, (Keyed.arrange_ascending distinct).filter (matching session.grant query), ?_, ?_⟩
  · intro slot
    rw [List.mem_filter, Keyed.mem_arrange, List.mem_filter]
    constructor
    · intro member
      exact ⟨member.1.1, member.2⟩
    · intro member
      exact ⟨⟨member.1, (Bool.and_eq_true_iff.mp member.2).1⟩, member.2⟩
  · rw [joined]
    exact each

/-- A start that hands out a page keeps the capture whose first page it is. -/
theorem start_page {library : JsonLibrary α} {clock : Readings} {query : Query α}
    {world : World.Snapshot α} {session after : Session α} {first : Page}
    (started : start library clock query world session = (.result ⟨some first, []⟩, after)) :
    ∃ data, capture library (expire clock.entry session) query clock.capture world = .ok data ∧
      after.snapshot = some data ∧ after.closed = false ∧ validQuery query = true ∧
      after.expires = (expire clock.entry session).expires ∧
      page after.identity data 0 after.serial = ⟨some first, []⟩ := by
  unfold start startOpen at started
  split at started
  · cases started
  rename_i opened
  split at started
  · cases started
  rename_i queried
  split at started
  · cases started
  cases captured : capture library (expire clock.entry session) query clock.capture world with
  | error stop =>
      rw [captured] at started
      cases stop <;> cases started
  | ok data =>
      rw [captured] at started
      simp only [publish] at started
      split at started
      · rename_i unpaged
        obtain ⟨answered, _⟩ := Prod.mk.inj started
        rw [Reply.result.inj answered] at unpaged
        cases unpaged
      split at started
      · cases started
      obtain ⟨answered, same⟩ := Prod.mk.inj started
      rw [← same]
      exact ⟨data, rfl, rfl, Bool.eq_false_of_not_eq_true opened,
        by simpa using queried, rfl, Reply.result.inj answered⟩

theorem validQuery_sized {query : Query α} (valid : validQuery query = true) :
    0 < query.pageSize := by
  unfold validQuery at valid
  simp only [Bool.and_eq_true, Bool.not_eq_true', Bool.or_eq_false_iff, beq_eq_false_iff_ne]
    at valid
  exact Nat.pos_of_ne_zero valid.1.1.1.1.1.1.2

theorem shown_length (data : Snapshot) (identity : Option Nat) (serial : UInt64)
    (offset : Nat) (chosen left : List Text) :
    (data.shown identity serial offset chosen left).json.length =
      data.size chosen (!left.isEmpty) := by
  simp [Snapshot.shown, Snapshot.size, weight, Nat.add_assoc]

theorem shown_next (data : Snapshot) (identity : Option Nat) (serial : UInt64)
    (offset : Nat) (chosen left : List Text) :
    (data.shown identity serial offset chosen left).next.isSome = !left.isEmpty := by
  cases left <;> rfl

/-- Every row fits together with the opening and the end that follows it. -/
def Snapshot.Fits (data : Snapshot) : Prop :=
  ∀ row rest, (row :: rest) <:+ data.rows →
    data.opening.length + row.length + (suffix (!rest.isEmpty)).length ≤ data.responseBytes

/-- The pages of a successful start, in turn: the chunks of its rows, each within the
limits, and each but the last with rows, with a cursor, and too full for more. -/
structure Snapshot.Partitioned (data : Snapshot) (chunks : List (List Text)) : Prop where
  whole : chunks.flatten = data.rows
  some_ : chunks ≠ []
  counted : ∀ chunk ∈ chunks, chunk.length ≤ data.pageSize
  fits :
    ∀ front chunk back, chunks = front ++ chunk :: back →
      data.size chunk (!back.isEmpty) ≤ data.responseBytes
  progress :
    ∀ front chunk back, chunks = front ++ chunk :: back → back ≠ [] →
      chunk ≠ [] ∧ back.flatten ≠ []
  longest :
    ∀ front chunk back more rest, chunks = front ++ chunk :: back →
      back.flatten = more ++ rest → more ≠ [] → chunk.length + more.length ≤ data.pageSize →
      data.responseBytes < data.size (chunk ++ more) (!rest.isEmpty)

theorem Snapshot.Fits.each {data : Snapshot} (fits : data.Fits) {row : Text}
    {rest : List Text} (last : (row :: rest) <:+ data.rows) :
    ¬ data.Refuses (row :: rest) := by
  have room := fits row rest last
  have alone : weight [row] = row.length := by simp [weight]
  rw [Snapshot.Refuses, Snapshot.size, alone]
  exact Nat.not_lt.mpr room

theorem replies_length {data : Snapshot} {identity : Option Nat} {serial : UInt64}
    (chunks : List (List Text)) :
    ∀ offset, (data.replies identity serial offset chunks).length = chunks.length := by
  induction chunks with
  | nil => exact fun _ => rfl
  | cons chunk later continues =>
      intro offset
      rw [Snapshot.replies, List.length_cons, List.length_cons, continues]

/-- Each reply shows one of the chunks. -/
theorem replies_split {data : Snapshot} {identity : Option Nat} {serial : UInt64}
    (chunks : List (List Text)) :
    ∀ offset front reply back,
      data.replies identity serial offset chunks = front ++ reply :: back →
      ∃ before chunk after start, chunks = before ++ chunk :: after ∧
        back.length = after.length ∧
        reply = .result ⟨some (data.shown identity serial start chunk after.flatten), []⟩ := by
  induction chunks with
  | nil =>
      intro offset front reply back shape
      cases front <;> cases shape
  | cons chunk later continues =>
      intro offset front reply back shape
      cases front with
      | nil =>
          obtain ⟨same, rest⟩ := List.cons.inj shape
          refine ⟨[], chunk, later, offset, rfl, ?_, same.symm⟩
          rw [← rest]
          exact replies_length later _
      | cons first others =>
          obtain ⟨before, inner, after, start, whole, counted, shown⟩ :=
            continues _ others reply back (List.cons.inj shape).2
          exact ⟨chunk :: before, inner, after, start, by rw [whole, List.cons_append], counted,
            shown⟩

/-- After a successful start, following the cursors in time shows every matching entity
once, in the order of the uuids, on pages that are as full as the limits allow. A page is
refused only if its first row alone, or the empty page, does not fit. -/
theorem pagination (library : JsonLibrary α) (clock : Readings) (query : Query α)
    (world : Catalogued α) (session : Session α) :
    (∀ first after,
      start library clock query world.state session = (.result ⟨some first, []⟩, after) →
      ∃ data slots,
        after.snapshot = some data ∧
        Keyed.Ascending Slot.entityUuid slots ∧
        (∀ slot, slot ∈ slots ↔
          slot ∈ world.state.slots ∧ matching session.grant query slot = true) ∧
        List.Forall₂ (Row library) slots data.rows ∧
        data.pageSize = query.pageSize ∧
        data.responseBytes = min query.responseBytes session.grant.responseBytes ∧
        ∀ clocks, (∀ clock ∈ clocks, clock.Before data.deadline) →
          data.rows.length ≤ clocks.length → data.Fits →
          (∃ chunks, data.Partitioned chunks ∧
            follow after (.result ⟨some first, []⟩) clocks =
              data.replies after.identity after.serial 0 chunks) ∧
          ∀ front reply back,
            follow after (.result ⟨some first, []⟩) clocks = front ++ reply :: back →
            ∃ shown, reply = .result ⟨some shown, []⟩ ∧
              shown.json.length ≤ query.responseBytes ∧
              shown.next.isSome = !back.isEmpty) ∧
      ∀ data, capture library (expire clock.entry session) query clock.capture world.state =
          .ok data → validQuery query = true →
        ∀ identity serial offset, offset ≤ data.rows.length →
          ((page identity data offset serial).page = none ↔
            data.Refuses (data.rows.drop offset)) := by
  constructor
  · intro first after started
    obtain ⟨data, captured, kept, opened, queried, lasting, shown⟩ := start_page started
    obtain ⟨slots, ascending, members, rows⟩ := capture_rows world captured
    obtain ⟨sized, bytes, deadline⟩ := capture_limits captured
    rw [expire_grant] at members bytes
    refine ⟨data, slots, kept, ascending, members, rows, sized, bytes, ?_⟩
    intro clocks early enough fits
    have holds : after.Holds data :=
      ⟨kept, opened, sized ▸ validQuery_sized queried, by
        rw [deadline, lasting]
        exact min_le_left _ _⟩
    have accepted : ¬ data.Refuses (data.rows.drop 0) := by
      rcases page_cases holds.sized after.identity after.serial (Nat.zero_le _) with
        ⟨_, refused⟩ | ⟨_, _, _, accepted, _⟩
      · rw [shown] at refused
        cases refused
      · exact accepted
    obtain ⟨chunks, whole, some_, fulls, followed⟩ :=
      follow_spec holds (fun row rest last => fits.each last) clocks 0 (Nat.zero_le _) accepted
        early (by simpa using enough)
    rw [shown] at followed
    have ends : ∀ front chunk back, chunks = front ++ chunk :: back →
        back.flatten.isEmpty = back.isEmpty := by
      intro front chunk back shape
      cases back with
      | nil => rfl
      | cons next others =>
          have more := (fulls front chunk _ shape).2 (by simp)
          rw [List.isEmpty_cons, List.isEmpty_eq_false_iff]
          exact more
    have partitioned : data.Partitioned chunks := by
      refine ⟨whole, some_, ?_, ?_, ?_, ?_⟩
      · intro chunk member
        obtain ⟨front, back, shape⟩ := List.append_of_mem member
        exact (fulls front chunk back shape).1.counted
      · intro front chunk back shape
        rw [← ends front chunk back shape]
        exact (fulls front chunk back shape).1.fits
      · intro front chunk back shape more
        have full := fulls front chunk back shape
        exact ⟨full.1.progress (full.2 more), full.2 more⟩
      · intro front chunk back more rest shape split longer room
        exact (fulls front chunk back shape).1.longest more rest split longer room
    refine ⟨⟨chunks, partitioned, followed⟩, ?_⟩
    intro front reply back shape
    rw [followed] at shape
    obtain ⟨before, chunk, later, start, split, counted, replied⟩ :=
      replies_split chunks _ _ _ _ shape
    have same : back.isEmpty = later.isEmpty := by
      rw [Bool.eq_iff_iff, List.isEmpty_iff_length_eq_zero, List.isEmpty_iff_length_eq_zero,
        counted]
    refine ⟨_, replied, ?_, ?_⟩
    · rw [shown_length, ends before chunk later split]
      have room := partitioned.fits before chunk later split
      rw [bytes] at room
      exact room.trans (min_le_left _ _)
    · rw [shown_next, ends before chunk later split, same]
  · intro data captured queried identity serial offset inside
    obtain ⟨sized, _⟩ := capture_limits captured
    have pages : 0 < data.pageSize := sized ▸ validQuery_sized queried
    rcases page_cases pages identity serial inside with
      ⟨refused, answered⟩ | ⟨chosen, left, _, accepted, _, answered⟩
    · rw [answered]
      exact ⟨fun _ => refused, fun _ => rfl⟩
    · rw [answered]
      constructor
      · intro impossible
        cases impossible
      · intro refused
        exact absurd refused accepted

end Rows

def twoCubes : Catalogued Halves where
  toObserved := observedCubes [ascii "red"]
  tagged := by
    intro slot member entity there
    have either : slot = cube 0 [] ∨ slot = cube 1 [ascii "red"] := by
      simpa [observedCubes] using member
    rcases either with rfl | rfl
    · cases there
      exact List.Pairwise.nil
    · cases there
      exact List.pairwise_singleton _ _

def cubeSession : Session Halves :=
  ⟨⟨true, [], none, 4096, 1048576, 60000, 30000⟩, some 1, 60000000000, none, 0, false⟩

def cubeStart : Reply × Session Halves :=
  start JsonText.library ⟨1, 1, 1, 1⟩ ⟨[], none, 1, 4096⟩ twoCubes.state cubeSession

def cubeRows : Snapshot :=
  cubeStart.2.snapshot.getD ⟨[], [], 0, 0, 0⟩

def cubePage : Page :=
  match cubeStart.1 with
  | .result ⟨some first, _⟩ => first
  | _ => ⟨[], none⟩

theorem cubeRows_fits : cubeRows.Fits := by
  intro row rest last
  obtain ⟨front, whole⟩ := last
  have dropped : cubeRows.rows.drop front.length = row :: rest := by
    rw [← whole, List.drop_left]
  have few : front.length < 2 := by
    have lengths := congrArg List.length whole
    have two : cubeRows.rows.length = 2 := by decide +kernel
    rw [List.length_append, List.length_cons, two] at lengths
    omega
  have each : ∀ count < 2, ((cubeRows.rows.drop count).head?.all fun row =>
      decide (cubeRows.opening.length + row.length +
        (suffix (!(cubeRows.rows.drop count).tail.isEmpty)).length ≤
          cubeRows.responseBytes)) = true := by
    decide +kernel
  simpa [dropped] using each front.length few

theorem pagination_cubes :
    (follow cubeStart.2 cubeStart.1 [⟨2, 2, 2, 2⟩, ⟨3, 3, 3, 3⟩]).length = 2 ∧
      ∃ chunks, cubeRows.Partitioned chunks ∧
        follow cubeStart.2 cubeStart.1 [⟨2, 2, 2, 2⟩, ⟨3, 3, 3, 3⟩] =
          cubeRows.replies cubeStart.2.identity cubeStart.2.serial 0 chunks := by
  refine ⟨by decide +kernel, ?_⟩
  have started : cubeStart = (.result ⟨some cubePage, []⟩, cubeStart.2) := by decide +kernel
  obtain ⟨data, _, kept, _, _, _, _, _, follows⟩ :=
    (pagination JsonText.library ⟨1, 1, 1, 1⟩ ⟨[], none, 1, 4096⟩ twoCubes cubeSession).1
      cubePage cubeStart.2 started
  have same : cubeRows = data := by
    rw [cubeRows, kept]
    rfl
  subst same
  have first : cubeStart.1 = .result ⟨some cubePage, []⟩ := congrArg Prod.fst started
  rw [first]
  refine (follows [⟨2, 2, 2, 2⟩, ⟨3, 3, 3, 3⟩] ?_ ?_ cubeRows_fits).1
  · intro clock member
    have either : clock = ⟨2, 2, 2, 2⟩ ∨ clock = ⟨3, 3, 3, 3⟩ := by simpa using member
    have late : 3 < cubeRows.deadline := by decide +kernel
    rcases either with rfl | rfl
    · exact ⟨by change 2 < _; omega, by change 2 < _; omega⟩
    · exact ⟨late, late⟩
  · decide +kernel

end Omniweft.Observe
