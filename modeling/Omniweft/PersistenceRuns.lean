import Omniweft.PersistenceSubmissions
import Omniweft.Sha256

/-!
# Runs of a store

A process may submit, compact, be stopped in the middle of either, and be started again,
in any order. Whatever it has left on its disk opens, to a store that holds every commit
it ever answered.
-/

namespace Omniweft.Persistence

open Omniweft.Outcome World Commands Transactions

/-! ## Machines -/

section Machines

variable {α : Type} [Scalar α]

/-- A process that has the store open, or none, its files, and the submissions that were
answered as committed. -/
structure Machine (α : Type) where
  live : Option (Store α)
  disk : Disk
  acknowledged : List (Envelope α × Receipt)

/-- What can happen to a machine. -/
inductive Action (α : Type) where
  | submit (envelope : Envelope α) (tick : UInt64) (stop : Option AppendStop)
  | compact (stop : Option CompactStop)
  | die
  | reopen (stop : Option OpenStop)

/-- The receipt of an answer that tells of a commit. -/
def Result.committed (result : Result) : Option Receipt :=
  result.receipt.filter fun receipt => receipt.status == ascii "committed"

/-- One action; a process without the store does nothing, and only one opens it. -/
def Machine.act (library : JsonLibrary α) (sha256 : Bytes → Vector UInt8 32)
    (machine : Machine α) (action : Action α) : Machine α :=
  match action, machine.live with
  | .submit envelope tick stop, some store =>
      let answered := store.applyAwaitDurable library sha256 machine.disk envelope tick stop
      { live := some answered.store
        disk := answered.disk
        acknowledged := machine.acknowledged ++
          (answered.result.committed.map fun receipt => (envelope, receipt)).toList }
  | .compact stop, some store =>
      let answered := store.compact sha256 machine.disk stop
      { machine with live := some answered.store, disk := answered.disk }
  | .die, _ => { machine with live := none }
  | .reopen stop, none =>
      let opened := Store.open library sha256 machine.disk stop
      { machine with live := opened.result.toOption, disk := opened.disk }
  | _, _ => machine

def Machine.run (library : JsonLibrary α) (sha256 : Bytes → Vector UInt8 32)
    (machine : Machine α) (actions : List (Action α)) : Machine α :=
  actions.foldl (Machine.act library sha256) machine

end Machines

/-! ## What a machine can recover -/

section Recovering

variable {α : Type} [Scalar α] {library : JsonLibrary α} {sha256 : Bytes → Vector UInt8 32}
  {config : Config} {epoch : Text} {items : List (Item α)} {state : Snapshot α}

/-- The submission is the one that was committed as the item. -/
structure Repeats (library : JsonLibrary α) (envelope : Envelope α) (item : Item α) : Prop where
  sequence : item.entry.sequence = envelope.idempotency.sequence
  payload : serialize library envelope = .ok item.entry.payload

/-- The files hold the items, and so does the process, unless it has sealed its store;
every answered commit is one of them. -/
structure Recovers (library : JsonLibrary α) (sha256 : Bytes → Vector UInt8 32) (config : Config)
    (epoch : Text) (items : List (Item α)) (state : Snapshot α) (machine : Machine α) :
    Prop where
  stored : Stored library config epoch items state
  layout :
    ∃ torn kept first, Layout sha256 config epoch items torn kept first machine.disk ∧
      ∀ store, machine.live = some store →
        store.isSealed = true ∨
          store = storeOf config epoch items state ∧ torn = [] ∧ machine.disk.scratch = none
  answered :
    ∀ envelope receipt, (envelope, receipt) ∈ machine.acknowledged →
      ∃ item ∈ items, Repeats library envelope item ∧ receipt = item.receipt

omit [Scalar α] in
theorem framesFrom_snoc {first : Nat} (reaches : first ≤ items.length + 1) (item : Item α) :
    framesFrom config epoch (items ++ [item]) first =
      framesFrom config epoch items first ++
        [Frame.of (packageOf config epoch (items ++ [item]))] := by
  have count : (items ++ [item]).length + 1 - first = items.length + 1 - first + 1 := by
    rw [List.length_append, List.length_singleton]
    omega
  have last : first + (items.length + 1 - first) = (items ++ [item]).length := by
    rw [List.length_append, List.length_singleton]
    omega
  rw [framesFrom, framesFrom, count, List.range'_concat, List.map_append, List.map_singleton,
    Nat.one_mul, last, cut_all]
  have earlier : (List.range' first (items.length + 1 - first)).map
        (fun count => Frame.of (cut config epoch (items ++ [item]) count)) =
      (List.range' first (items.length + 1 - first)).map
        fun count => Frame.of (cut config epoch items count) := by
    refine List.map_congr_left ?_
    intro place member
    have within := List.mem_range'_1.mp member
    rw [cut_append (by omega)]
  rw [earlier]

omit [Scalar α] in
/-- The journal after the whole frame of the next commit. -/
theorem Layout.append {kept first : Nat} {disk : Disk}
    (layout : Layout sha256 config epoch items [] kept first disk) (item : Item α)
    (room : disk.sizes.sum + (frameOf sha256 config epoch (items ++ [item])).length ≤
      config.byteQuota.toNat) :
    Layout sha256 config epoch (items ++ [item]) [] kept first
      { disk with
        journal := disk.journal ++ frameOf sha256 config epoch (items ++ [item]) } := by
  have reaches := layout.reaches
  have within := layout.within
  refine
    { layout with
      checkpoint := ?_
      journal := ?_
      within := ?_
      unfinished := Or.inl rfl
      quota := ?_ }
  · rw [layout.checkpoint, cut_append within]
  · rw [framesFrom_snoc (by omega), List.flatMap_append, List.append_nil, layout.journal,
      List.append_nil, List.flatMap_singleton]
    rfl
  · rw [List.length_append]
    omega
  · simp only [Disk.sizes, List.sum_cons, List.length_append] at room ⊢
    omega

omit [Scalar α] in
/-- The journal after a part of it. -/
theorem Layout.tear {kept first : Nat} {disk : Disk}
    (layout : Layout sha256 config epoch items [] kept first disk) {item : Item α}
    (fits : (Frame.of (packageOf config epoch (items ++ [item]))).Fits)
    (room : disk.sizes.sum + (frameOf sha256 config epoch (items ++ [item])).length ≤
      config.byteQuota.toNat)
    {count : Nat} (less : count < (frameOf sha256 config epoch (items ++ [item])).length) :
    Layout sha256 config epoch items
      ((frameOf sha256 config epoch (items ++ [item])).take count) kept first
      { disk with
        journal := disk.journal ++
          (frameOf sha256 config epoch (items ++ [item])).take count } := by
  refine
    { layout with
      journal := ?_
      unfinished := Or.inr ⟨_, (frameOf sha256 config epoch (items ++ [item])).drop count, fits,
        ?_, (List.take_append_drop _ _).symm, ?_⟩
      quota := ?_ }
  · rw [layout.journal, List.append_nil]
  · change (packageOf config epoch (items ++ [item])).high = _
    rw [packageOf_high, List.length_append, List.length_singleton]
  · rw [Ne, List.drop_eq_nil_iff]
    omega
  · simp only [Disk.sizes, List.sum_cons, List.length_append, List.length_take] at room ⊢
    omega

/-! ## Steps -/

theorem Repeats.append {envelope : Envelope α} {receipt : Receipt} (item : Item α)
    (answered : ∃ item ∈ items, Repeats library envelope item ∧ receipt = item.receipt) :
    ∃ other ∈ items ++ [item], Repeats library envelope other ∧ receipt = other.receipt := by
  obtain ⟨held, member, repeats⟩ := answered
  exact ⟨held, List.mem_append_left _ member, repeats⟩

/-- Nothing is written, and the store stays or is sealed. -/
theorem Recovers.keep {machine : Machine α}
    (recovers : Recovers library sha256 config epoch items state machine)
    {live : Option (Store α)} {acknowledged : List (Envelope α × Receipt)}
    (same : ∀ store, live = some store → store.isSealed = true ∨ machine.live = some store)
    (answered :
      ∀ envelope receipt, (envelope, receipt) ∈ acknowledged →
        (envelope, receipt) ∈ machine.acknowledged ∨
          ∃ item ∈ items, Repeats library envelope item ∧ receipt = item.receipt) :
    Recovers library sha256 config epoch items state ⟨live, machine.disk, acknowledged⟩ := by
  obtain ⟨stored, ⟨torn, kept, first, layout, lives⟩, answers⟩ := recovers
  refine ⟨stored, ⟨torn, kept, first, layout, ?_⟩, ?_⟩
  · intro store held
    rcases same store held with closed | before
    · exact Or.inl closed
    · exact lives store before
  · intro envelope receipt member
    rcases answered envelope receipt member with before | new
    · exact answers envelope receipt before
    · exact new

/-- The coordinator has committed the item of a submission. -/
theorem Recovers.write (faithful : library.Faithful) {disk : Disk}
    {acknowledged : List (Envelope α × Receipt)}
    (recovers : Recovers library sha256 config epoch items state
      ⟨some (storeOf config epoch items state), disk, acknowledged⟩)
    {envelope : Envelope α} {item : Item α} {next : Snapshot α}
    (stored : Stored library config epoch (items ++ [item]) next)
    (repeats : Repeats library envelope item)
    (room : disk.sizes.sum + (frameOf sha256 config epoch (items ++ [item])).length ≤
      config.byteQuota.toNat)
    (stop : Option AppendStop) :
    let answered := written sha256 config epoch items item state next disk stop
    ∃ later final, (later = items ∨ later = items ++ [item]) ∧
      Recovers library sha256 config epoch later final
        ⟨some answered.store, answered.disk, acknowledged ++
          (answered.result.committed.map fun receipt => (envelope, receipt)).toList⟩ := by
  obtain ⟨before, ⟨torn, kept, first, layout, lives⟩, answers⟩ := recovers
  obtain ⟨rfl, clean⟩ : torn = [] ∧ disk.scratch = none := by
    rcases lives _ rfl with closed | awake
    · cases closed
    · exact awake.2
  have appended := layout.append item room
  have answersAppended (known : Envelope α) (receipt : Receipt)
      (member : (known, receipt) ∈ acknowledged) :=
    Repeats.append item (answers known receipt member)
  have unanswered (pair : Envelope α × Receipt) (member : pair ∈ acknowledged ++ []) :
      pair ∈ acknowledged := by
    rwa [List.append_nil] at member
  cases stop with
  | none =>
      refine ⟨items ++ [item], next, Or.inr rfl, stored,
        ⟨[], kept, first, appended, fun store held => ?_⟩, ?_⟩
      · cases held
        exact Or.inr ⟨rfl, rfl, clean⟩
      · intro known receipt member
        rcases List.mem_append.mp member with old | new
        · exact answersAppended known receipt old
        · have committed : (item.receipt.status == ascii "committed") = true :=
            beq_self_eq_true _
          simp only [written, Result.committed, Option.filter_some, committed, if_true,
            Option.map_some, Option.toList_some, List.mem_singleton, Prod.mk.injEq] at new
          obtain ⟨rfl, rfl⟩ := new
          exact ⟨item, List.mem_append_right _ (List.mem_singleton_self item), repeats, rfl⟩
  | some place =>
      cases place with
      | answering =>
          refine ⟨items ++ [item], next, Or.inr rfl, stored,
            ⟨[], kept, first, appended, fun store held => ?_⟩, ?_⟩
          · cases held
            exact Or.inl rfl
          · intro known receipt member
            exact answersAppended known receipt (unanswered _ member)
      | writing count =>
          by_cases less : count < (frameOf sha256 config epoch (items ++ [item])).length
          · refine ⟨items, state, Or.inl rfl, before,
              ⟨_, kept, first, layout.tear (stored.fitting faithful) room less,
                fun store held => ?_⟩, ?_⟩
            · cases held
              exact Or.inl rfl
            · intro known receipt member
              exact answers known receipt (unanswered _ member)
          · refine ⟨items ++ [item], next, Or.inr rfl, stored,
              ⟨[], kept, first, ?_, fun store held => ?_⟩, ?_⟩
            · rw [written]
              change Layout sha256 config epoch (items ++ [item]) [] kept first
                { disk with
                  journal := disk.journal ++
                    (frameOf sha256 config epoch (items ++ [item])).take count }
              rw [List.take_of_length_le (Nat.not_lt.mp less)]
              exact appended
            · cases held
              exact Or.inl rfl
            · intro known receipt member
              exact answersAppended known receipt (unanswered _ member)

theorem Stored.place (stored : Stored library config epoch items state) {place : Nat}
    {item : Item α} (found : items[place]? = some item) :
    item.entry.sequence.toNat = place + 1 := by
  obtain ⟨inside, same⟩ := List.getElem?_eq_some_iff.mp found
  have split : items = items.take place ++ item :: items.drop (place + 1) := by
    rw [← same, ← List.drop_eq_getElem_cons inside, List.take_append_drop]
  have follows := stored.lawful _ _ _ split
  rw [follows.sequence, List.length_take, Nat.min_eq_left inside.le]

/-- A submission changes nothing that can be recovered, or adds one commit to it. -/
theorem Recovers.submit (faithful : library.Faithful) {store : Store α} {disk : Disk}
    {acknowledged : List (Envelope α × Receipt)}
    (recovers : Recovers library sha256 config epoch items state
      ⟨some store, disk, acknowledged⟩)
    (envelope : Envelope α) (tick : UInt64) (stop : Option AppendStop) :
    let answered := store.applyAwaitDurable library sha256 disk envelope tick stop
    ∃ later final, (later = items ∨ ∃ item, later = items ++ [item]) ∧
      Recovers library sha256 config epoch later final
        ⟨some answered.store, answered.disk, acknowledged ++
          (answered.result.committed.map fun receipt => (envelope, receipt)).toList⟩ := by
  intro answered
  obtain ⟨_, _, _, _, lives⟩ := recovers.layout
  -- What leaves the files alone and tells of nothing new.
  have kept (same : answered.disk = disk)
      (stays : answered.store.isSealed = true ∨ answered.store = store)
      (tells : ∀ receipt ∈ answered.result.committed,
        ∃ item ∈ items, Repeats library envelope item ∧ receipt = item.receipt) :
      ∃ later final, (later = items ∨ ∃ item, later = items ++ [item]) ∧
        Recovers library sha256 config epoch later final
          ⟨some answered.store, answered.disk, acknowledged ++
            (answered.result.committed.map fun receipt => (envelope, receipt)).toList⟩ := by
    refine ⟨items, state, Or.inl rfl, ?_⟩
    rw [same]
    refine recovers.keep ?_ ?_
    · intro other held
      cases held
      exact stays.imp id (congrArg some ∘ Eq.symm)
    · intro known receipt member
      rcases List.mem_append.mp member with old | new
      · exact Or.inl old
      · rw [Option.mem_toList, Option.map_eq_some_iff] at new
        obtain ⟨told, committed, pair⟩ := new
        cases pair
        exact Or.inr (tells receipt committed)
  rcases lives store rfl with closed | ⟨rfl, _⟩
  · have refused : answered = .unchanged store disk (store.result (ascii "RECOVERY_REQUIRED")) :=
      if_pos closed
    rw [refused] at kept ⊢
    exact kept rfl (Or.inr rfl) fun _ told => absurd told (Option.some_ne_none _).symm
  · rcases @submission_cases _ _ library sha256 config epoch items state recovers.stored.few
      envelope tick disk with
      ⟨code, refused⟩ | ⟨payload, item, serialized, low, high, found, resubmitted⟩ |
        ⟨payload, submittable, appended⟩
    · have same : answered = _ := refused stop
      rw [same] at kept ⊢
      exact kept rfl (Or.inr rfl) fun _ told => absurd told (Option.some_ne_none _).symm
    · have same : answered = _ :=
        (resubmitted stop).trans (resubmit_eq low high found disk stop)
      by_cases equal : item.entry.payload = payload
      · rw [if_pos equal] at same
        by_cases stopped : stop = some .answering
        · rw [if_pos stopped] at same
          rw [same] at kept ⊢
          exact kept rfl (Or.inl rfl) fun _ told => absurd told (Option.some_ne_none _).symm
        · rw [if_neg stopped] at same
          rw [same] at kept ⊢
          refine kept rfl (Or.inr rfl) ?_
          intro receipt told
          have given : item.receipt = receipt :=
            Option.some.inj (Option.filter_eq_some_iff.mp told).1
          have positive := lowWater_positive items.length
          have sequence : item.entry.sequence = envelope.idempotency.sequence := by
            refine UInt64.toNat_inj.mp ?_
            rw [recovers.stored.place found]
            omega
          exact ⟨item, List.mem_of_getElem? found, ⟨sequence, equal ▸ serialized⟩, given.symm⟩
      · rw [if_neg equal] at same
        rw [same] at kept ⊢
        exact kept rfl (Or.inr rfl) fun _ told => absurd told (Option.some_ne_none _).symm
    · rcases @append_cases _ _ _ sha256 _ _ _ _ faithful recovers.stored _ _ _ submittable disk with
        unchanged | ⟨item, next, stored, spelled, _, _, room, commits⟩
      · obtain ⟨sameStore, sameDisk, rejected⟩ := unchanged stop
        have same : answered = _ := appended stop
        rw [← same] at sameStore sameDisk rejected
        refine kept sameDisk (Or.inr sameStore) ?_
        intro receipt told
        obtain ⟨given, status⟩ := Option.filter_eq_some_iff.mp told
        exact absurd (beq_iff_eq.mp status) (rejected receipt given)
      · have same : answered = _ := (appended stop).trans (commits stop)
        have sequence : item.entry.sequence = envelope.idempotency.sequence := by
          have place := stored.place (List.getElem?_concat_length)
          have next := submittable.sequence
          rw [packageOf_high] at next
          exact UInt64.toNat_inj.mp (place.trans next.symm)
        have repeats : Repeats library envelope item :=
          ⟨sequence, spelled ▸ submittable.serialized⟩
        obtain ⟨later, final, either, continued⟩ :=
          recovers.write faithful stored repeats room stop
        rw [same]
        exact ⟨later, final, either.imp id fun more => ⟨item, more⟩, continued⟩

/-- A compaction replaces the checkpoint by the newest package, and then the journal may
go. -/
theorem Recovers.compact (faithful : library.Faithful) {store : Store α} {disk : Disk}
    {acknowledged : List (Envelope α × Receipt)}
    (recovers : Recovers library sha256 config epoch items state
      ⟨some store, disk, acknowledged⟩) (stop : Option CompactStop) :
    let answered := store.compact sha256 disk stop
    Recovers library sha256 config epoch items state
      ⟨some answered.store, answered.disk, acknowledged⟩ := by
  intro answered
  obtain ⟨stored, ⟨torn, kept, first, layout, lives⟩, answers⟩ := recovers
  have unfolded : answered = store.compact sha256 disk stop := rfl
  unfold Store.compact at unfolded
  rcases lives store rfl with closed | ⟨rfl, rfl, clean⟩
  · rw [if_pos closed] at unfolded
    rw [unfolded]
    exact ⟨stored, ⟨torn, kept, first, layout, lives⟩, answers⟩
  have awake : ¬ (storeOf config epoch items state).isSealed = true := Bool.false_ne_true
  rw [if_neg awake] at unfolded
  dsimp only at unfolded
  split at unfolded
  · rw [unfolded]
    exact ⟨stored, ⟨[], kept, first, layout, lives⟩, answers⟩
  rename_i bytes reserved
  obtain ⟨_, framed, reserved⟩ := bind_eq_ok.mp reserved
  obtain ⟨room, same⟩ := unit_bind_eq_ok.mp reserved
  rw [pure_eq_ok] at same
  obtain ⟨small, rfl⟩ := frame_eq_ok.mp framed
  subst same
  have room := (quota_eq_ok.mp room).2
  change disk.sizes.sum + (frameOf sha256 config epoch items).length ≤
    config.byteQuota.toNat at room
  have within := layout.within
  have reaches := layout.reaches
  simp only [Disk.sizes, List.sum_cons] at room
  have replaced : Layout sha256 config epoch items [] items.length first
      ⟨frameOf sha256 config epoch items, disk.journal, none⟩ :=
    { layout with
      checkpoint := by rw [cut_all, frameOf]
      within := Nat.le_refl _
      reaches := by omega
      quota := by
        simp only [Disk.sizes, List.sum_cons, Option.map_none, Option.toList_none, List.sum_nil]
        omega
      scratch := fun _ present => absurd present (Option.some_ne_none _).symm }
  have reclaimed : Layout sha256 config epoch items [] items.length (items.length + 1)
      ⟨frameOf sha256 config epoch items, [], none⟩ :=
    { replaced with
      journal := by simp [framesFrom]
      positive := Nat.le_add_left _ _
      reaches := Nat.le_refl _
      quota := by
        simp only [Disk.sizes, List.sum_cons, Option.map_none, Option.toList_none, List.sum_nil,
          List.length_nil]
        omega }
  have begun (count : Nat) : Layout sha256 config epoch items [] kept first
      { disk with scratch := some ((frameOf sha256 config epoch items).take count) } :=
    { layout with
      quota := by
        simp only [Disk.sizes, List.sum_cons, Option.map_some, Option.toList_some,
          List.sum_nil, List.length_take]
        omega
      scratch := by
        intro scratch present
        cases present
        have sized : (frameOf sha256 config epoch items).length = _ := spelled_length _
        have fits : (packageBytes (packageOf config epoch items)).length ≤ packageLimit :=
          (stored.fitting faithful).1
        rw [List.length_take, sized]
        exact (Nat.min_le_right _ _).trans (Nat.add_le_add_right fits frameOverhead) }
  have closes (other : Store α) (held : some ((storeOf config epoch items state).sealUp) =
      some other) : other.isSealed = true := by
    cases held
    rfl
  rw [unfolded]
  cases stop with
  | none =>
      refine ⟨stored, ⟨[], _, _, reclaimed, fun other held => ?_⟩, answers⟩
      cases held
      exact Or.inr ⟨rfl, rfl, rfl⟩
  | some place =>
      cases place with
      | starting =>
          exact ⟨stored, ⟨[], _, _, layout, fun other held => Or.inl (closes other held)⟩,
            answers⟩
      | writing count =>
          exact ⟨stored, ⟨[], _, _, begun count, fun other held => Or.inl (closes other held)⟩,
            answers⟩
      | replaced =>
          exact ⟨stored, ⟨[], _, _, replaced, fun other held => Or.inl (closes other held)⟩,
            answers⟩
      | reclaimed =>
          exact ⟨stored, ⟨[], _, _, reclaimed, fun other held => Or.inl (closes other held)⟩,
            answers⟩

/-- An opening that succeeds has the items; one that is stopped leaves them for the next. -/
theorem Recovers.reopen (faithful : library.Faithful) {disk : Disk}
    {acknowledged : List (Envelope α × Receipt)}
    (recovers : Recovers library sha256 config epoch items state ⟨none, disk, acknowledged⟩)
    (stop : Option OpenStop) :
    let opened := Store.open library sha256 disk stop
    Recovers library sha256 config epoch items state
      ⟨opened.result.toOption, opened.disk, acknowledged⟩ := by
  intro opened
  obtain ⟨stored, ⟨torn, kept, first, layout, _⟩, answers⟩ := recovers
  obtain ⟨rest, after, _, opens, fails⟩ := layout.open faithful stored stop
  refine ⟨stored, ⟨rest, kept, first, after, ?_⟩, answers⟩
  intro store held
  change opened.result.toOption = some store at held
  by_cases whole : stop = none
  · obtain ⟨rfl, run⟩ := opens whole
    have same : opened = _ := run
    rw [same] at held
    cases held
    refine Or.inr ⟨rfl, rfl, ?_⟩
    change opened.disk.scratch = none
    rw [same]
  · have same : opened.result = _ := fails whole
    rw [same] at held
    cases held

theorem Recovers.act (faithful : library.Faithful) {machine : Machine α}
    (recovers : Recovers library sha256 config epoch items state machine)
    (action : Action α) :
    ∃ later final, (later = items ∨ ∃ item, later = items ++ [item]) ∧
      Recovers library sha256 config epoch later final (machine.act library sha256 action) := by
  obtain ⟨live, disk, acknowledged⟩ := machine
  have kept (same : Recovers library sha256 config epoch items state
      (Machine.act library sha256 ⟨live, disk, acknowledged⟩ action)) :
      ∃ later final, (later = items ∨ ∃ item, later = items ++ [item]) ∧
        Recovers library sha256 config epoch later final
          (Machine.act library sha256 ⟨live, disk, acknowledged⟩ action) :=
    ⟨items, state, Or.inl rfl, same⟩
  cases action with
  | submit envelope tick stop =>
      cases live with
      | none => exact kept recovers
      | some store => exact recovers.submit faithful envelope tick stop
  | compact stop =>
      cases live with
      | none => exact kept recovers
      | some store => exact kept (recovers.compact faithful stop)
  | die => exact kept (recovers.keep (fun _ held => absurd held (Option.some_ne_none _).symm)
      fun _ _ member => Or.inl member)
  | reopen stop =>
      cases live with
      | none => exact kept (recovers.reopen faithful stop)
      | some store => exact kept recovers

/-- Along a run the items only grow. -/
theorem Recovers.run (faithful : library.Faithful) {machine : Machine α}
    (recovers : Recovers library sha256 config epoch items state machine)
    (actions : List (Action α)) :
    ∃ more final, Recovers library sha256 config epoch (items ++ more) final
      (machine.run library sha256 actions) := by
  induction actions generalizing machine items state with
  | nil => exact ⟨[], state, (List.append_nil items).symm ▸ recovers⟩
  | cons action rest inductionHypothesis =>
      obtain ⟨later, middle, grown, acted⟩ := recovers.act faithful action
      obtain ⟨more, final, ran⟩ := inductionHypothesis acted
      rcases grown with rfl | ⟨item, rfl⟩
      · exact ⟨more, final, ran⟩
      · refine ⟨item :: more, final, ?_⟩
        rw [List.append_cons]
        exact ran

/-- A fresh store. -/
theorem create_recovers {random : Vector UInt8 32} {store : Store α} {disk : Disk}
    (created : Store.create sha256 config random = .ok (store, disk)) :
    ∃ epoch fresh, Recovers library sha256 config epoch ([] : List (Item α)) fresh
      ⟨some store, disk, []⟩ := by
  unfold Store.create at created
  obtain ⟨valid, created⟩ := unit_bind_eq_ok.mp created
  obtain ⟨fresh, made, created⟩ := bind_eq_ok.mp created
  obtain ⟨bytes, framed, created⟩ := bind_eq_ok.mp created
  obtain ⟨room, same⟩ := unit_bind_eq_ok.mp created
  rw [pure_eq_ok] at same
  cases same
  obtain ⟨_, rfl⟩ := frame_eq_ok.mp framed
  have room := (quota_eq_ok.mp room).2
  refine ⟨Assets.hex random.toList, fresh,
    { configured := ?_
      spelled := Assets.validHash_iff.mpr ⟨_, random.length_toList, rfl⟩
      few := Nat.zero_le _
      lawful := Logs.Each.nil
      recordings := ⟨fresh, mapError_eq_ok.mp made, .none⟩ },
    ⟨[], 0, 1, ?_, ?_⟩, fun _ _ member => absurd member List.not_mem_nil⟩
  · simpa using valid
  · exact
      { checkpoint := rfl
        journal := rfl
        within := Nat.le_refl _
        positive := Nat.le_refl _
        reaches := Nat.le_refl _
        unfinished := Or.inl rfl
        quota := by simpa [Disk.sizes] using room
        scratch := fun _ present => absurd present (Option.some_ne_none _).symm }
  · intro other held
    cases held
    exact Or.inr ⟨rfl, rfl, rfl⟩

/-- The machine of a fresh store. -/
def Machine.fresh (store : Store α) (disk : Disk) : Machine α := ⟨some store, disk, []⟩

/-- What opening the files finds. -/
theorem Recovers.open (faithful : library.Faithful) {machine : Machine α}
    (recovers : Recovers library sha256 config epoch items state machine) :
    ∃ left, Store.open library sha256 machine.disk none =
      ⟨.ok (storeOf config epoch items state), left⟩ := by
  obtain ⟨torn, kept, first, layout, _⟩ := recovers.layout
  obtain ⟨_, _, _, opens, _⟩ := layout.open faithful recovers.stored none
  exact ⟨_, (opens rfl).2⟩

/-- A quota with room for any package has room for the first. -/
theorem create_fits (library : JsonLibrary α) {random : Vector UInt8 32} {fresh : Snapshot α}
    (configured : validConfig config = true)
    (made : World.create config.worldId config.seed config.maxSlots = .ok fresh)
    (allowed : packageLimit + frameOverhead ≤ config.byteQuota.toNat) :
    Store.create sha256 config random =
      .ok (storeOf config (Assets.hex random.toList) [] fresh,
        ⟨frameOf sha256 config (Assets.hex random.toList) ([] : List (Item α)), [], none⟩) := by
  have legible : Legible library config (Assets.hex random.toList) [] :=
    { configured := configured
      spelled := Assets.validHash_iff.mpr ⟨_, random.length_toList, rfl⟩
      few := Nat.zero_le _
      lawful := Logs.Each.nil
      entries := fun _ member => absurd member List.not_mem_nil
      receipts := fun _ member => absurd member List.not_mem_nil }
  obtain ⟨_, fits, _⟩ := bind_eq_ok.mp legible.encode
  have small := Nat.not_lt.mp (of_decide_eq_false (rejectIf_eq_ok.mp fits))
  unfold Store.create
  refine unit_bind_eq_ok.mpr ⟨by rw [configured]; rfl, bind_eq_ok.mpr ⟨_, mapError_eq_ok.mpr made,
    bind_eq_ok.mpr ⟨_, frame_eq_ok.mpr ⟨small, rfl⟩, unit_bind_eq_ok.mpr ⟨?_, rfl⟩⟩⟩⟩
  rw [quota_eq_ok, spelled_length, List.sum_nil, Nat.zero_add]
  exact ⟨Nat.zero_le _, (Nat.add_le_add_right small frameOverhead).trans allowed⟩

/-- The first submission to a fresh machine. -/
theorem Machine.fresh_live (store : Store α) (disk : Disk) (envelope : Envelope α)
    (tick : UInt64) :
    ((Machine.fresh store disk).run library sha256 [.submit envelope tick none]).live =
      some (store.applyAwaitDurable library sha256 disk envelope tick none).store :=
  rfl

theorem Machine.fresh_disk (store : Store α) (disk : Disk) (envelope : Envelope α)
    (tick : UInt64) :
    ((Machine.fresh store disk).run library sha256 [.submit envelope tick none]).disk =
      (store.applyAwaitDurable library sha256 disk envelope tick none).disk :=
  rfl

theorem Machine.fresh_submit {store : Store α} {disk : Disk} {envelope : Envelope α}
    {tick : UInt64} {receipt : Receipt}
    (told : (store.applyAwaitDurable library sha256 disk envelope tick none).result.committed =
      some receipt) :
    (envelope, receipt) ∈ ((Machine.fresh store disk).run library sha256
      [.submit envelope tick none]).acknowledged := by
  change (envelope, receipt) ∈ [] ++ ((store.applyAwaitDurable library sha256 disk envelope tick
    none).result.committed.map fun receipt => (envelope, receipt)).toList
  rw [told]
  exact List.mem_singleton_self _

omit [Scalar α] in
/-- Files without an unfinished frame and without a temporary file. -/
theorem Layout.clean {kept first : Nat} {disk : Disk}
    (layout : Layout sha256 config epoch items [] kept first disk) (tidy : disk.scratch = none) :
    disk = ⟨disk.checkpoint,
      (framesFrom config epoch items first).flatMap (Frame.spelled sha256), none⟩ := by
  have journal := layout.journal
  rw [List.append_nil] at journal
  rw [← journal, ← tidy]

/-- The files of a process that has not sealed its store need no repair. -/
theorem Recovers.awake (faithful : library.Faithful) {machine : Machine α} {live : Store α}
    (recovers : Recovers library sha256 config epoch items state machine)
    (held : machine.live = some live) (awake : live.isSealed = false) :
    Store.open library sha256 machine.disk none = ⟨.ok live, machine.disk⟩ := by
  obtain ⟨torn, kept, first, layout, lives⟩ := recovers.layout
  rcases lives live held with closed | same
  · rw [awake] at closed
    cases closed
  · obtain ⟨rfl, rfl, tidy⟩ := same
    obtain ⟨_, _, _, opens, _⟩ := layout.open faithful recovers.stored none
    rw [(opens rfl).2, ← layout.clean tidy]
    rfl

/-- Whatever happened to a store, its files open. What is found is what the process had,
unless it had sealed the store; it can be read off its own bytes; its commits are numbered
one by one, and every commit that was ever answered is among them; and it is continued by
whatever is found later. -/
theorem run_recovers (faithful : library.Faithful) {random : Vector UInt8 32}
    {store : Store α} {disk : Disk}
    (created : Store.create sha256 config random = .ok (store, disk))
    (actions more : List (Action α)) :
    let machine := (Machine.fresh store disk).run library sha256 actions
    let later := machine.run library sha256 more
    ∃ found left newer kept,
      Store.open library sha256 machine.disk none = ⟨.ok found, left⟩ ∧
        Store.open library sha256 later.disk none = ⟨.ok newer, kept⟩ ∧
        (∀ live, machine.live = some live → live.isSealed = false → live = found) ∧
        decode library (packageBytes found.package) = .ok (found.package, found.world) ∧
        (∀ (place : Nat) (entry : Entry), found.package.entries[place]? = some entry →
          entry.sequence.toNat = place + 1) ∧
        (∀ envelope receipt, (envelope, receipt) ∈ machine.acknowledged →
          ∃ entry ∈ found.package.entries,
            entry.sequence = envelope.idempotency.sequence ∧
              serialize library envelope = .ok entry.payload ∧
              receipt = durableReceipt envelope.transactionId entry) ∧
        prefixed found.package newer.package = .ok () := by
  intro machine later
  obtain ⟨epoch, fresh, recovers⟩ := @create_recovers _ _ library sha256 config _ _ _ created
  obtain ⟨items, state, recovered⟩ := recovers.run faithful actions
  rw [List.nil_append] at recovered
  obtain ⟨rest, final, continued⟩ := recovered.run faithful more
  obtain ⟨left, opens⟩ := recovered.open faithful
  obtain ⟨kept, reopens⟩ := continued.open faithful
  refine ⟨_, left, _, kept, opens, reopens, ?_, (recovered.stored.decodes faithful).2, ?_, ?_, ?_⟩
  · intro live held awake
    obtain ⟨_, _, _, _, lives⟩ := recovered.layout
    rcases lives live held with closed | ⟨same, _⟩
    · rw [awake] at closed
      cases closed
    · exact same
  · intro place entry found
    change (items.map Item.entry)[place]? = _ at found
    rw [List.getElem?_map, Option.map_eq_some_iff] at found
    obtain ⟨item, held, rfl⟩ := found
    exact recovered.stored.place held
  · intro envelope receipt member
    obtain ⟨item, held, repeats, rfl⟩ := recovered.answered envelope receipt member
    obtain ⟨_, follows, _⟩ := recovered.stored.lawful.member held
    have spelled := (follows.valid faithful).2.2.1
    have same := serialize_injective faithful spelled repeats.payload
    exact ⟨item.entry, List.mem_map_of_mem held, repeats.sequence, repeats.payload,
      congrArg (fun known : Envelope α => durableReceipt known.transactionId item.entry) same⟩
  · have cuts := @prefixed_cut _ config epoch (items ++ rest) items.length
      (items ++ rest).length (by simp) (Nat.le_refl _)
    rw [cut_append (Nat.le_refl _), cut_all, cut_all] at cuts
    exact cuts

def sampleConfig : Config := ⟨ascii "world", 7, 4, 8388608⟩

def sampleEpoch : Text := Assets.hex (Vector.replicate 32 (7 : UInt8)).toList

def sampleStore : Store Halves :=
  storeOf sampleConfig sampleEpoch [] sampleWorld.state

def sampleDisk : Disk :=
  ⟨frameOf Sha256.digest sampleConfig sampleEpoch ([] : List (Item Halves)), [], none⟩

def sampleSubmission : Envelope Halves :=
  { sampleEnvelope 0 [sampleCreate "box"] with idempotency := ⟨sampleEpoch, 1⟩ }

theorem sample_created :
    Store.create Sha256.digest sampleConfig (Vector.replicate 32 7) =
      .ok (sampleStore, sampleDisk) :=
  create_fits JsonText.library (by decide) (by decide) (by decide)

theorem run_recovers_sample :
    let machine := (Machine.fresh sampleStore sampleDisk).run JsonText.library Sha256.digest
      [.submit sampleSubmission 5 none, .compact (some .replaced), .die]
    let later := machine.run JsonText.library Sha256.digest [.reopen none]
    ∃ found left newer kept,
      Store.open JsonText.library Sha256.digest machine.disk none = ⟨.ok found, left⟩ ∧
        Store.open JsonText.library Sha256.digest later.disk none = ⟨.ok newer, kept⟩ ∧
        prefixed found.package newer.package = .ok () := by
  intro machine later
  obtain ⟨found, left, newer, kept, opens, reopens, _, _, _, _, continued⟩ :=
    run_recovers JsonText.library_faithful sample_created
      [.submit sampleSubmission 5 none, .compact (some .replaced), .die] [.reopen none]
  exact ⟨found, left, newer, kept, opens, reopens, continued⟩

/-- Files that openings were stopped on, in any number, open to the same store. -/
theorem Layout.interrupted (faithful : library.Faithful)
    (stored : Stored library config epoch items state) {torn : Bytes} {kept first : Nat}
    {disk : Disk} (layout : Layout sha256 config epoch items torn kept first disk)
    (stops : List OpenStop) :
    Store.open library sha256 (Persistence.interrupted library sha256 disk stops) none =
      ⟨.ok (storeOf config epoch items state),
        ⟨disk.checkpoint,
          (framesFrom config epoch items first).flatMap (Frame.spelled sha256), none⟩⟩ := by
  rw [open_interrupted]
  obtain ⟨_, _, _, opens, _⟩ := layout.open faithful stored none
  exact (opens rfl).2

/-- What opening finds after a submission that a failure has stopped. -/
theorem submission_reopens (faithful : library.Faithful)
    (stored : Stored library config epoch items state) {kept first : Nat} {disk : Disk}
    (layout : Layout sha256 config epoch items [] kept first disk) (tidy : disk.scratch = none)
    (envelope : Envelope α) (tick : UInt64) (stop : Option AppendStop)
    (stops : List OpenStop) :
    let store := storeOf config epoch items state
    let whole := store.applyAwaitDurable library sha256 disk envelope tick none
    let failed := store.applyAwaitDurable library sha256 disk envelope tick stop
    Store.open library sha256 (interrupted library sha256 failed.disk stops) none =
      if whole.disk.journal.length ≤ failed.disk.journal.length then
        ⟨.ok whole.store, whole.disk⟩
      else ⟨.ok store, disk⟩ := by
  intro store whole failed
  have old : Store.open library sha256 (interrupted library sha256 disk stops) none =
      ⟨.ok store, disk⟩ := by
    rw [layout.interrupted faithful stored stops, ← layout.clean tidy]
  -- Nothing was written, so the openings find the old store.
  have unwritten (wholeDisk : whole.disk = disk) (failedDisk : failed.disk = disk)
      (wholeStore : whole.store = store) :
      Store.open library sha256 (interrupted library sha256 failed.disk stops) none =
        if whole.disk.journal.length ≤ failed.disk.journal.length then
          ⟨.ok whole.store, whole.disk⟩
        else ⟨.ok store, disk⟩ := by
    rw [wholeDisk, failedDisk, wholeStore, ite_self]
    exact old
  rcases @submission_outcome _ _ _ sha256 _ _ _ _ faithful stored disk envelope tick with
    unchanged | ⟨item, next, further, _, room, commits⟩
  · exact unwritten (unchanged none).1 (unchanged stop).1
      ((unchanged none).2.resolve_right fun stopped => stopped.1 rfl)
  · have wholly : whole = _ := commits none
    have partly : failed = _ := commits stop
    have appendedLayout := layout.append item room
    have newer := appendedLayout.interrupted faithful further stops
    rw [← appendedLayout.clean tidy] at newer
    rw [wholly, partly]
    cases stop with
    | none =>
        rw [if_pos (Nat.le_refl _)]
        exact newer
    | some place =>
        cases place with
        | answering =>
            simp only [written, Answered.unknown, Nat.le_refl, if_true]
            exact newer
        | writing count =>
            by_cases less : count < (frameOf sha256 config epoch (items ++ [item])).length
            · have missing : ¬ (written sha256 config epoch items item state next disk
                  none).disk.journal.length ≤ (written sha256 config epoch items item state next
                    disk (some (.writing count))).disk.journal.length := by
                simp only [written, Answered.unknown, List.length_append, List.length_take]
                omega
              have older := (layout.tear (further.fitting faithful) room less).interrupted faithful
                stored stops
              dsimp only at older
              rw [← layout.clean tidy] at older
              rw [if_neg missing]
              exact older
            · have full : (frameOf sha256 config epoch (items ++ [item])).take count =
                  frameOf sha256 config epoch (items ++ [item]) :=
                List.take_of_length_le (Nat.not_lt.mp less)
              simp only [written, Answered.unknown, full, Nat.le_refl, if_true]
              exact newer

/-- A submission that was committed is answered from the store, as long as its receipt is
kept. -/
theorem repeated_eq (faithful : library.Faithful)
    (stored : Stored library config epoch items state) {item : Item α} (member : item ∈ items)
    (tick : UInt64) (disk : Disk) (stop : Option AppendStop) :
    let store := storeOf config epoch items state
    store.applyAwaitDurable library sha256 disk item.envelope tick stop =
      if item.entry.sequence.toNat < lowWater items.length then
        .unchanged store disk (store.result (ascii "REQUIRES_RESYNC"))
      else if stop = some .answering then .unknown store disk
      else .unchanged store disk
        { store.result [] with receipt := some item.receipt, replayed := true } := by
  intro store
  obtain ⟨place, found⟩ := List.getElem?_of_mem member
  have inside : place < items.length := (List.getElem?_eq_some_iff.mp found).1
  obtain ⟨_, follows, _⟩ := stored.lawful.member member
  obtain ⟨_, _, spelled, short⟩ := follows.valid faithful
  obtain ⟨_, sized, _, _, sequence, sameEpoch⟩ :=
    (storedCommand_eq_ok faithful).mp follows.command
  have numbered : item.envelope.idempotency.sequence.toNat = item.entry.sequence.toNat :=
    sequence.trans follows.sequence.symm
  have position : item.entry.sequence.toNat = place + 1 := stored.place found
  have awake : ¬ store.isSealed = true := Bool.false_ne_true
  have high : store.package.high = items.length := storeOf_high
  have low : store.package.low = lowWater items.length := storeOf_low
  have otherEpoch : (item.envelope.idempotency.epoch != store.package.epoch) = false := by
    rw [sameEpoch]
    exact bne_eq_false_iff_eq.mpr rfl
  simp only [Store.applyAwaitDurable, if_neg awake, sized, Bool.not_true, Bool.false_eq_true,
    if_false, spelled, if_neg (Nat.not_lt.mpr short), otherEpoch, numbered, low, high]
  by_cases old : item.entry.sequence.toNat < lowWater items.length
  · rw [if_pos old, if_pos old]
  · have known : item.entry.sequence.toNat ≤ items.length := by omega
    have kept : items[item.entry.sequence.toNat - 1]? = some item := by
      rw [position, Nat.add_sub_cancel]
      exact found
    rw [if_neg old, if_neg old, if_pos known,
      resubmit_eq (Nat.not_lt.mp old) known kept disk stop, if_pos rfl]

/-- A submission that is made again is answered as before and changes nothing more. -/
theorem submission_repeats (faithful : library.Faithful)
    (stored : Stored library config epoch items state) (disk : Disk) (envelope : Envelope α)
    (tick : UInt64) :
    let whole := (storeOf config epoch items state).applyAwaitDurable library sha256 disk
      envelope tick none
    let again := whole.store.applyAwaitDurable library sha256 whole.disk envelope tick none
    again.store = whole.store ∧ again.disk = whole.disk ∧
      again.result.receipt = whole.result.receipt := by
  intro whole again
  -- Nothing was changed, so the second call is the first.
  have unchanged (sameDisk : whole.disk = disk)
      (sameStore : whole.store = storeOf config epoch items state) :
      again.store = whole.store ∧ again.disk = whole.disk ∧
        again.result.receipt = whole.result.receipt := by
    have same : again = whole := by
      have run : again = whole.store.applyAwaitDurable library sha256 whole.disk envelope tick
        none := rfl
      rw [run, sameDisk, sameStore]
    rw [same]
    exact ⟨rfl, rfl, rfl⟩
  rcases @submission_outcome _ _ _ sha256 _ _ _ _ faithful stored disk envelope tick with
    kept | ⟨item, next, further, rfl, _, commits⟩
  · exact unchanged (kept none).1 ((kept none).2.resolve_right fun stopped => stopped.1 rfl)
  · have wholly : whole = _ := commits none
    have member : item ∈ items ++ [item] := List.mem_append_right _ (List.mem_singleton_self item)
    have position := further.place (List.getElem?_concat_length)
    have retained : ¬ item.entry.sequence.toNat < lowWater (items ++ [item]).length := by
      have atMost := lowWater_le (items ++ [item]).length
      rw [List.length_append, List.length_singleton] at atMost ⊢
      omega
    have second := @repeated_eq _ _ library sha256 _ _ _ _ faithful further item member tick
      whole.disk none
    dsimp only at second
    rw [if_neg retained, if_neg (Option.some_ne_none _).symm] at second
    have first : whole.store = storeOf config epoch (items ++ [item]) next := by
      rw [wholly]
      rfl
    have run := (congrArg (fun store : Store α => store.applyAwaitDurable library sha256
      whole.disk item.envelope tick none) first).trans second
    change again = _ at run
    rw [run, wholly]
    exact ⟨rfl, rfl, rfl⟩

/-! ## Failures -/

/-- A failure in a submission, and any number of openings that fail in turn, leave what was
there or what the whole submission would have left, by whether the whole frame is in the
journal. Either way, making the submission again ends as the whole one would have: the same
store, the same files, and the same receipt. A failure in a compaction leaves the store. -/
theorem failure_is_atomic (faithful : library.Faithful) {random : Vector UInt8 32}
    {store live : Store α} {disk : Disk}
    (created : Store.create sha256 config random = .ok (store, disk))
    (actions : List (Action α)) (stops : List OpenStop) :
    let machine := (Machine.fresh store disk).run library sha256 actions
    machine.live = some live → live.isSealed = false →
      (∀ envelope tick stop,
        let whole := live.applyAwaitDurable library sha256 machine.disk envelope tick none
        let failed := live.applyAwaitDurable library sha256 machine.disk envelope tick stop
        ∃ found left,
          Store.open library sha256 (interrupted library sha256 failed.disk stops) none =
              ⟨.ok found, left⟩ ∧
            (if whole.disk.journal.length ≤ failed.disk.journal.length then
              found = whole.store ∧ left = whole.disk
            else found = live ∧ left = machine.disk) ∧
            let again := found.applyAwaitDurable library sha256 left envelope tick none
            again.store = whole.store ∧ again.disk = whole.disk ∧
              again.result.receipt = whole.result.receipt) ∧
        ∀ stop,
          let failed := live.compact sha256 machine.disk stop
          (Store.open library sha256 (interrupted library sha256 failed.disk stops) none).result =
            .ok live := by
  intro machine held awake
  obtain ⟨epoch, fresh, recovers⟩ := @create_recovers _ _ library sha256 config _ _ _ created
  obtain ⟨items, state, recovered⟩ := recovers.run faithful actions
  rw [List.nil_append] at recovered
  change Recovers library sha256 config epoch items state machine at recovered
  clear_value machine
  obtain ⟨torn, kept, first, layout, lives⟩ := recovered.layout
  obtain ⟨rfl, rfl, tidy⟩ : live = storeOf config epoch items state ∧ torn = [] ∧
      machine.disk.scratch = none := by
    rcases lives live held with closed | same
    · rw [awake] at closed
      cases closed
    · exact same
  constructor
  · intro envelope tick stop
    have reopens :=
      submission_reopens faithful recovered.stored layout tidy envelope tick stop stops
    have repeats := @submission_repeats _ _ _ sha256 _ _ _ _ faithful recovered.stored
      machine.disk envelope tick
    dsimp only at reopens repeats ⊢
    split at reopens
    · rename_i whole
      refine ⟨_, _, reopens, ?_, repeats⟩
      rw [if_pos whole]
      exact ⟨rfl, rfl⟩
    · rename_i part
      refine ⟨_, _, reopens, ?_, rfl, rfl, rfl⟩
      rw [if_neg part]
      exact ⟨rfl, rfl⟩
  · intro stop
    have shaped : Recovers library sha256 config epoch items state
        ⟨some (storeOf config epoch items state), machine.disk, machine.acknowledged⟩ := by
      rw [← held]
      exact recovered
    obtain ⟨torn, kept, first, after, _⟩ := (shaped.compact faithful stop).layout
    dsimp only at after ⊢
    rw [after.interrupted faithful recovered.stored stops]

theorem failure_is_atomic_sample :
    let failed := sampleStore.applyAwaitDurable JsonText.library Sha256.digest sampleDisk
      sampleSubmission 5 (some (.writing 100))
    ∃ found left,
      Store.open JsonText.library Sha256.digest
          (interrupted JsonText.library Sha256.digest failed.disk [.reading]) none =
        ⟨.ok found, left⟩ := by
  have start : (Machine.fresh sampleStore sampleDisk).run JsonText.library Sha256.digest [] =
      Machine.fresh sampleStore sampleDisk := rfl
  obtain ⟨atomic, _⟩ :=
    failure_is_atomic JsonText.library_faithful sample_created [] [.reading] rfl rfl
  obtain ⟨found, left, opens, _⟩ := atomic sampleSubmission 5 (some (.writing 100))
  rw [start] at opens
  exact ⟨found, left, opens⟩

/-- The key of a commit that was answered never commits again, in any process that has the
store open, with whatever command: the same command is told the same receipt, until that is
no longer kept, and another one is told of no commit. -/
theorem acknowledged_once (faithful : library.Faithful) {random : Vector UInt8 32}
    {store live : Store α} {disk : Disk}
    (created : Store.create sha256 config random = .ok (store, disk))
    (actions : List (Action α)) {envelope : Envelope α} {receipt : Receipt} :
    let machine := (Machine.fresh store disk).run library sha256 actions
    machine.live = some live → (envelope, receipt) ∈ machine.acknowledged →
      ∀ (other : Envelope α) (tick : UInt64) (stop : Option AppendStop),
        other.idempotency.sequence = envelope.idempotency.sequence →
        let answered := live.applyAwaitDurable library sha256 machine.disk other tick stop
        answered.disk = machine.disk ∧ answered.store.package = live.package ∧
          answered.store.world = live.world ∧
          (other ≠ envelope → answered.result.receipt = none) ∧
          (other = envelope → live.isSealed = false → stop ≠ some .answering →
            answered.result =
              if envelope.idempotency.sequence.toNat < live.package.low then
                live.result (ascii "REQUIRES_RESYNC")
              else { live.result [] with receipt := some receipt, replayed := true }) := by
  intro machine held member other tick stop sameKey answered
  obtain ⟨epoch, fresh, recovers⟩ := @create_recovers _ _ library sha256 config _ _ _ created
  obtain ⟨items, state, recovered⟩ := recovers.run faithful actions
  rw [List.nil_append] at recovered
  change Recovers library sha256 config epoch items state machine at recovered
  clear_value machine
  obtain ⟨item, kept, repeats, rfl⟩ := recovered.answered envelope receipt member
  obtain ⟨_, follows, _⟩ := recovered.stored.lawful.member kept
  obtain rfl : item.envelope = envelope :=
    serialize_injective faithful (follows.valid faithful).2.2.1 repeats.payload
  obtain ⟨place, found⟩ := List.getElem?_of_mem kept
  have inside : place < items.length := (List.getElem?_eq_some_iff.mp found).1
  have position : item.entry.sequence.toNat = place + 1 := recovered.stored.place found
  obtain ⟨_, _, _, _, lives⟩ := recovered.layout
  rcases lives live held with closed | ⟨rfl, _⟩
  · have refused : answered =
        .unchanged live machine.disk (live.result (ascii "RECOVERY_REQUIRED")) := if_pos closed
    rw [refused]
    refine ⟨rfl, rfl, rfl, fun _ => rfl, ?_⟩
    intro _ awake
    rw [closed] at awake
    cases awake
  by_cases same : other = item.envelope
  · subst same
    have run : answered = _ := repeated_eq faithful recovered.stored kept tick machine.disk stop
    rw [run, storeOf_low, ← repeats.sequence]
    by_cases old : item.entry.sequence.toNat < lowWater items.length
    · rw [if_pos old, if_pos old]
      exact ⟨rfl, rfl, rfl, fun differs => absurd rfl differs, fun _ _ _ => rfl⟩
    · rw [if_neg old, if_neg old]
      by_cases stopped : stop = some .answering
      · rw [if_pos stopped]
        exact ⟨rfl, rfl, rfl, fun differs => absurd rfl differs,
          fun _ _ whole => absurd stopped whole⟩
      · rw [if_neg stopped]
        exact ⟨rfl, rfl, rfl, fun differs => absurd rfl differs, fun _ _ _ => rfl⟩
  · have differs (equal : other = item.envelope) {conclusion : Prop} : conclusion :=
      absurd equal same
    rcases @submission_cases _ _ library sha256 config epoch items state recovered.stored.few
      other tick machine.disk with
      ⟨code, refused⟩ | ⟨payload, repeated, serialized, low, high, there, resubmitted⟩ |
        ⟨payload, submittable, _⟩
    · have run : answered = _ := refused stop
      rw [run]
      exact ⟨rfl, rfl, rfl, fun _ => rfl, fun equal => differs equal⟩
    · have run : answered = _ :=
        (resubmitted stop).trans (resubmit_eq low high there machine.disk stop)
      rw [sameKey, ← repeats.sequence, position, Nat.add_sub_cancel, found] at there
      obtain rfl := Option.some.inj there
      have unequal : item.entry.payload ≠ payload := by
        intro equal
        exact same (serialize_injective faithful serialized (equal ▸ repeats.payload))
      rw [run, if_neg unequal]
      exact ⟨rfl, rfl, rfl, fun _ => rfl, fun equal => differs equal⟩
    · have next := submittable.sequence
      rw [packageOf_high, sameKey, ← repeats.sequence] at next
      omega

/-- What is left of the first submission. -/
def sampleAnswer : Answered Halves :=
  sampleStore.applyAwaitDurable JsonText.library Sha256.digest sampleDisk sampleSubmission 5 none

def sampleSecond : Envelope Halves :=
  { sampleEnvelope 1 [sampleCreate "lid"] with idempotency := ⟨sampleEpoch, 2⟩ }

def sampleAgain : Answered Halves :=
  sampleAnswer.store.applyAwaitDurable JsonText.library Sha256.digest sampleAnswer.disk
    sampleSecond 6 none

/-- Both submissions commit. -/
structure SampleCommits : Prop where
  answered : sampleAnswer.result.committed.isSome = true
  awake : sampleAnswer.store.isSealed = false
  entries : sampleAnswer.store.package.entries.length = 1
  receipts : sampleAnswer.store.package.receipts.length = 1
  again : sampleAgain.result.committed.isSome = true
  fresh : sampleAgain.result.replayed = false

set_option maxRecDepth 100000 in
theorem sample_commits : SampleCommits := by
  have all : (sampleAnswer.result.committed.isSome && !sampleAnswer.store.isSealed &&
      sampleAnswer.store.package.entries.length == 1 &&
      sampleAnswer.store.package.receipts.length == 1 &&
      sampleAgain.result.committed.isSome && !sampleAgain.result.replayed) = true := by
    decide +kernel
  simp only [Bool.and_eq_true, Bool.not_eq_true', beq_iff_eq] at all
  obtain ⟨⟨⟨⟨⟨answered, awake⟩, entries⟩, receipts⟩, again⟩, fresh⟩ := all
  exact ⟨answered, awake, entries, receipts, again, fresh⟩

theorem acknowledged_once_sample :
    let machine := (Machine.fresh sampleStore sampleDisk).run JsonText.library Sha256.digest
      [.submit sampleSubmission 5 none]
    ∃ live receipt, machine.live = some live ∧
      (sampleSubmission, receipt) ∈ machine.acknowledged ∧
        let again := live.applyAwaitDurable JsonText.library Sha256.digest machine.disk
          sampleSubmission 6 none
        again.disk = machine.disk ∧ again.store.package = live.package := by
  obtain ⟨receipt, told⟩ := Option.isSome_iff_exists.mp sample_commits.answered
  have member := Machine.fresh_submit told
  have once := acknowledged_once JsonText.library_faithful sample_created
    [.submit sampleSubmission 5 none] rfl member sampleSubmission 6 none rfl
  exact ⟨_, receipt, rfl, member, once.1, once.2.1⟩

/-- An answer without a failure tells what happened: nothing, though the receipt of an
earlier commit may be told again; or the coordinator has committed the batch, once, and the
store has one entry more, which the answer's receipt is about. -/
theorem answer_tells (faithful : library.Faithful) {random : Vector UInt8 32}
    {store live : Store α} {disk : Disk}
    (created : Store.create sha256 config random = .ok (store, disk))
    (actions : List (Action α)) :
    let machine := (Machine.fresh store disk).run library sha256 actions
    machine.live = some live → live.isSealed = false →
      ∀ envelope tick,
        let answered := live.applyAwaitDurable library sha256 machine.disk envelope tick none
        live.world.state.worldRevision.toNat = live.package.high ∧
          (answered.store = live ∧ answered.disk = machine.disk ∧
              (∀ receipt, answered.result.committed = some receipt →
                answered.result.replayed = true) ∨
            ∃ entry, entry.tick = tick ∧ serialize library envelope = .ok entry.payload ∧
              Commits library live.world.state envelope answered.store.world.state
                entry.created ∧
              answered.store.package =
                live.package.extend entry (durableReceipt envelope.transactionId entry) ∧
              answered.result =
                { answered.store.result [] with
                  receipt := some (durableReceipt envelope.transactionId entry) }) := by
  intro machine held awake envelope tick answered
  obtain ⟨epoch, fresh, recovers⟩ := @create_recovers _ _ library sha256 config _ _ _ created
  obtain ⟨items, state, recovered⟩ := recovers.run faithful actions
  rw [List.nil_append] at recovered
  change Recovers library sha256 config epoch items state machine at recovered
  clear_value machine
  have stored := recovered.stored
  obtain ⟨torn, kept, first, layout, lives⟩ := recovered.layout
  obtain ⟨rfl, rfl, tidy⟩ : live = storeOf config epoch items state ∧ torn = [] ∧
      machine.disk.scratch = none := by
    rcases lives live held with closed | same
    · rw [awake] at closed
      cases closed
    · exact same
  refine ⟨(stored.fits faithful).1.trans storeOf_high.symm, ?_⟩
  rcases @submission_cases _ _ library sha256 config epoch items state stored.few envelope tick
    machine.disk with
    ⟨code, refused⟩ | ⟨payload, item, serialized, low, high, found, resubmitted⟩ |
      ⟨payload, submittable, appended⟩
  · have run : answered = _ := refused none
    rw [run]
    exact Or.inl ⟨rfl, rfl, fun _ told => absurd told (Option.some_ne_none _).symm⟩
  · have run : answered = _ :=
      (resubmitted none).trans (resubmit_eq low high found machine.disk none)
    by_cases same : item.entry.payload = payload
    · rw [if_pos same, if_neg (Option.some_ne_none _).symm] at run
      rw [run]
      exact Or.inl ⟨rfl, rfl, fun _ _ => rfl⟩
    · rw [if_neg same] at run
      rw [run]
      exact Or.inl ⟨rfl, rfl, fun _ told => absurd told (Option.some_ne_none _).symm⟩
  rcases @append_cases _ _ _ sha256 _ _ _ _ faithful stored _ _ _ submittable machine.disk with
    unchanged | ⟨item, next, further, spelled, ticked, committed, _, commits⟩
  · have before := unchanged none
    dsimp only at before
    rw [← appended] at before
    refine Or.inl ⟨before.1, before.2.1, ?_⟩
    intro receipt told
    obtain ⟨given, status⟩ := Option.filter_eq_some_iff.mp told
    exact absurd (beq_iff_eq.mp status) (before.2.2 receipt given)
  · have run : answered = _ := (appended none).trans (commits none)
    have member : item ∈ items ++ [item] := List.mem_append_right _ (List.mem_singleton_self item)
    obtain ⟨_, follows, _⟩ := further.lawful.member member
    obtain rfl : item.envelope = envelope :=
      serialize_injective faithful (spelled ▸ (follows.valid faithful).2.2.1)
        submittable.serialized
    refine Or.inr ⟨item.entry, ticked, spelled ▸ submittable.serialized, ?_⟩
    rw [run]
    exact ⟨committed, packageOf_snoc config epoch items item, rfl⟩

theorem answer_tells_sample :
    ∃ entry, entry.tick = 6 ∧
      Commits JsonText.library sampleAnswer.store.world.state sampleSecond
        sampleAgain.store.world.state entry.created ∧
      sampleAgain.store.package = sampleAnswer.store.package.extend entry
        (durableReceipt sampleSecond.transactionId entry) := by
  have awake := sample_commits.awake
  have commits := sample_commits.again
  have fresh := sample_commits.fresh
  unfold sampleAgain sampleAnswer at *
  have told := answer_tells JsonText.library_faithful sample_created
    [.submit sampleSubmission 5 none] (Machine.fresh_live sampleStore sampleDisk _ _)
    awake sampleSecond 6
  rw [Machine.fresh_disk] at told
  obtain ⟨_, unchanged | happened⟩ := told
  · obtain ⟨receipt, given⟩ := Option.isSome_iff_exists.mp commits
    rw [unchanged.2.2 receipt given] at fresh
    cases fresh
  · obtain ⟨entry, ticked, _, committed, extended, _⟩ := happened
    exact ⟨entry, ticked, committed, extended⟩

/-- A package has one spelling: what `decode` accepts is what `encode` writes. -/
theorem decode_canonical (faithful : library.Faithful) {bytes : Bytes} {package : Package}
    {world : LiveWorld α} (decoded : decode library bytes = .ok (package, world)) :
    encode package = .ok bytes ∧ bytes.length ≤ packageLimit ∧
      world.state.worldRevision.toNat = package.high ∧
      ∀ other found, decode library other = .ok (package, found) →
        other = bytes ∧ found = world := by
  obtain ⟨config, epoch, items, stored, address, rfl, rfl⟩ := (decode_eq_ok faithful).mp decoded
  have fits := (stored.decodes faithful).1
  refine ⟨(stored.legible faithful).encode, fits, ?_, ?_⟩
  · rw [packageOf_high]
    exact (stored.fits faithful).1
  · intro other found again
    obtain ⟨_, _, _, _, _, _, rfl⟩ := (decode_eq_ok faithful).mp again
    rw [decoded] at again
    exact ⟨rfl, (Prod.mk.inj (Except.ok.inj again)).2.symm⟩

theorem decode_canonical_sample :
    let package := sampleAnswer.store.package
    package.entries.length = 1 ∧ package.receipts.length = 1 ∧
      encode package = .ok (packageBytes package) := by
  change sampleAnswer.store.package.entries.length = 1 ∧
    sampleAnswer.store.package.receipts.length = 1 ∧
      encode sampleAnswer.store.package = .ok (packageBytes sampleAnswer.store.package)
  obtain ⟨found, _, _, _, _, _, same, decoded, _⟩ :=
    run_recovers JsonText.library_faithful sample_created [.submit sampleSubmission 5 none] []
  rw [← same sampleAnswer.store rfl sample_commits.awake] at decoded
  exact ⟨sample_commits.entries, sample_commits.receipts,
    (decode_canonical JsonText.library_faithful decoded).1⟩

end Recovering

end Omniweft.Persistence
