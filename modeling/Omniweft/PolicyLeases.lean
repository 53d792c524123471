import Omniweft.PolicyRuns
import Mathlib.Data.List.ReduceOption

/-!
# Leases

A lease object refers to the ledger until it is moved from. Its destructor gives the
reservation back, from the size it was made with; a moved-from object gives nothing
back. Over any order of admissions, moves, guarded calls and destructions the ledger
counts exactly the objects that still refer to it.
-/

namespace Omniweft.Policy

open Omniweft.Outcome World Commands Transactions

/-! ## Objects -/

/-- A `Lease` in memory. `attached` is whether `ledger_` is set; `admission` is the
admission that made the first of the objects it was moved along, which the source does
not keep. -/
structure LeaseObject where
  attached : Bool
  lease : Lease
  admission : Nat

/-- What is charged, and what is given back. -/
inductive Entry where
  | charged (admission : Nat) (principal : Principal) (amount : Nat)
  | denied (error : Denied)
  | refunded (admission : Nat) (principal : Principal) (amount : Nat)
  deriving DecidableEq

/-- A ledger with its lease objects, of which a destroyed one leaves its place empty. -/
structure Books where
  ledger : Ledger
  objects : List (Option LeaseObject)
  admissions : Nat

inductive LeaseAct (α : Type) where
  | admission (principal bytes : Nat)
  | move (object : Nat)
  | commit (object : Nat) (world : LiveWorld α) (envelope : Envelope α)
  | call (principal : Nat) (world : LiveWorld α) (envelope : Envelope α)
  | destroy (object : Nat)

section Acts

variable {α : Type} [Scalar α]

omit [Scalar α] in
/-- The object at an address that has not been destroyed. -/
def Books.object (books : Books) (index : Nat) : Option LeaseObject :=
  books.objects[index]?.join

omit [Scalar α] in
def Books.put (books : Books) (index : Nat) (object : Option LeaseObject) : Books :=
  { books with objects := books.objects.set index object }

omit [Scalar α] in
/-- `Ledger::admit`. -/
def Books.admission (books : Books) (principal bytes : Nat) : Books × List Entry :=
  match admitLease books.ledger principal bytes with
  | .error denied => (books, [.denied denied])
  | .ok (lease, ledger) =>
      ({ ledger := ledger
         objects := books.objects ++ [some ⟨true, lease, books.admissions⟩]
         admissions := books.admissions + 1 },
        [.charged books.admissions lease.principal (reserved lease.bytes)])

omit [Scalar α] in
/-- `Lease::Lease(Lease&&)`: the new object takes the reference of the old one. -/
def Books.move (books : Books) (index : Nat) : Books :=
  match books.object index with
  | none => books
  | some object =>
      let left := books.put index (some { object with attached := false })
      { left with objects := left.objects ++ [some object] }

/-- The coordinator under a guard that holds the lease. Without a ledger `Guard::begin`
refuses before it touches anything. -/
def Books.commit (library : JsonLibrary α) (books : Books) (index : Nat)
    (world : LiveWorld α) (envelope : Envelope α) : Books :=
  match books.object index with
  | none => books
  | some object =>
      if object.attached then
        let guard :=
          (applyAtBoundary library world envelope (some hook)
            (none : Option (CommitObserver α Unit))
            (Guard.create books.ledger object.lease) ()).guard
        { books.put index (some { object with lease := guard.lease }) with
          ledger := guard.ledger }
      else books

omit [Scalar α] in
/-- `Lease::~Lease`. -/
def Books.destroy (books : Books) (index : Nat) : Books × List Entry :=
  match books.object index with
  | none => (books, [])
  | some object =>
      let gone := books.put index none
      if object.attached then
        ({ gone with ledger := refund books.ledger object.lease },
          [.refunded object.admission object.lease.principal (reserved object.lease.bytes)])
      else (gone, [])

/-- `policy::apply`: a lease of its own, a guarded call, and its destruction. -/
def Books.call (library : JsonLibrary α) (books : Books) (principal : Nat)
    (world : LiveWorld α) (envelope : Envelope α) : Books × List Entry :=
  match fieldBytes envelope with
  | .error _ => (books, [])
  | .ok bytes =>
      let admitted := books.admission principal bytes
      let held := admitted.1.commit library books.objects.length world envelope
      let left := held.destroy books.objects.length
      (left.1, admitted.2 ++ left.2)

def Books.act (library : JsonLibrary α) (books : Books) : LeaseAct α → Books × List Entry
  | .admission principal bytes => books.admission principal bytes
  | .move index => (books.move index, [])
  | .commit index world envelope => (books.commit library index world envelope, [])
  | .call principal world envelope => books.call library principal world envelope
  | .destroy index => books.destroy index

def Books.run (library : JsonLibrary α) (books : Books) :
    List (LeaseAct α) → Books × List Entry
  | [] => (books, [])
  | act :: rest =>
      let done := books.act library act
      let later := done.1.run library rest
      (later.1, done.2 ++ later.2)

/-- A fresh ledger without leases. -/
def Books.fresh (ledger : Ledger) : Books := ⟨ledger, [], 0⟩

end Acts

/-! ## Guarded calls -/

/-- The reservations of two ledgers, and the leases, agree. -/
structure SameReserve (ledger : Ledger) (lease : Lease) (other : Ledger) (held : Lease) :
    Prop where
  working : other.usage.working = ledger.usage.working
  requests : other.usage.requests = ledger.usage.requests
  globalRequests : other.usage.globalRequests = ledger.usage.globalRequests
  globalLimit : other.globalLimit = ledger.globalLimit
  principal : held.principal = lease.principal
  bytes : held.bytes = lease.bytes

section Guarded

variable {α : Type} [Scalar α] {ledger : Ledger} {lease : Lease}

omit [Scalar α] in
theorem begin_reserve (world : LiveWorld α) (envelope : Envelope α) :
    Keeps (fun guard => SameReserve ledger lease guard.ledger guard.lease)
      (begin world envelope) := by
  refine keeps_get_bind fun guard same => ?_
  refine keeps_bind (keeps_attempt _ _) fun _ => ?_
  refine keeps_bind (keeps_set ?_) fun _ => ?_
  · exact { same with principal := same.principal, bytes := same.bytes }
  refine keeps_bind (keeps_attempt _ _) fun _ => ?_
  refine keeps_bind (keeps_attempt _ _) fun _ => ?_
  refine keeps_bind (keeps_attempt _ _) fun _ => ?_
  refine keeps_bind (keeps_attempt _ _) fun _ => ?_
  refine keeps_bind (keeps_attempt _ _) fun _ => keeps_modify fun current holds => ?_
  exact
    { working := holds.working
      requests := holds.requests
      globalRequests := holds.globalRequests
      globalLimit := holds.globalLimit
      principal := holds.principal
      bytes := holds.bytes }

theorem commit_reserve {guard : Guard}
    (same : SameReserve ledger lease guard.ledger guard.lease) :
    SameReserve ledger lease (commit guard).ledger (commit guard).lease := by
  unfold commit
  split
  · exact
      { working := same.working
        requests := same.requests
        globalRequests := same.globalRequests
        globalLimit := same.globalLimit
        principal := same.principal
        bytes := same.bytes }
  · exact same

/-- A guarded call, committed or not, leaves every reservation alone. -/
theorem guarded_reserve (library : JsonLibrary α) (world : LiveWorld α) (envelope : Envelope α)
    (ledger : Ledger) (lease : Lease) :
    let guard :=
      (applyAtBoundary library world envelope (some hook)
        (none : Option (CommitObserver α Unit)) (Guard.create ledger lease) ()).guard
    SameReserve ledger lease guard.ledger guard.lease := by
  intro guard
  let property : Guard → Prop := fun guard =>
    SameReserve ledger lease guard.ledger guard.lease
  have first : property (Guard.create ledger lease) := ⟨rfl, rfl, rfl, rfl, rfl, rfl⟩
  have hooks : ∀ held, some (hook : StagingGuard α Guard) = some held →
      HookKeeps held property := by
    intro held same
    exact Option.some.inj same ▸ hook_keeps_both (SameReserve ledger lease)
  have begins := begin_reserve world envelope (Guard.create ledger lease) first
  rcases apply_cases library world envelope (some (hook : StagingGuard α Guard))
      (none : Option (CommitObserver α Unit)) none (Guard.create ledger lease) () with
    ⟨admitted, staged, created, final, _, started, _, stagedOk, _, answered⟩ | ⟨_, _, left⟩
  · have staged_ : property final :=
      (stage_keeps hooks world.state envelope.operations admitted
        (begins.1 () admitted started)).1 _ _ stagedOk
    have same : guard = commit final := by
      simp only [guard, applyAtBoundary, answered]
      rfl
    rw [same]
    exact commit_reserve staged_
  · change property guard
    unfold HookLeft at left
    split at left
    · rename_i raised refused started
      have same : guard = refused := left
      rw [same]
      exact begins.2 raised refused started
    · rename_i value admitted started
      exact left property hooks (begins.1 value admitted started)

end Guarded
/-! ## Live leases -/

/-- The leases that refer to the ledger. -/
def liveIn (objects : List (Option LeaseObject)) : List LeaseObject :=
  objects.reduceOption.filter LeaseObject.attached

def Books.live (books : Books) : List LeaseObject := liveIn books.objects

/-- The live leases of a principal. -/
def Books.held (books : Books) (principal : Principal) : List LeaseObject :=
  books.live.filter fun object => object.lease.principal = principal

/-- A quantity summed over the live leases. -/
def tally (measure : LeaseObject → Nat) (objects : List (Option LeaseObject)) : Nat :=
  ((liveIn objects).map measure).sum

theorem tally_append (measure : LeaseObject → Nat) (front back : List (Option LeaseObject)) :
    tally measure (front ++ back) = tally measure front + tally measure back := by
  simp [tally, liveIn, List.reduceOption_append]

theorem tally_one (measure : LeaseObject → Nat) (object : LeaseObject) :
    tally measure [some object] = if object.attached then measure object else 0 := by
  cases attached : object.attached <;> simp [tally, liveIn, List.reduceOption, attached]

theorem tally_none (measure : LeaseObject → Nat) : tally measure [none] = 0 := rfl

/-- A place of the list, and the list with something else there. -/
theorem split_at {β : Type} {items : List β} {index : Nat} {item : β}
    (found : items[index]? = some item) :
    ∃ front back, items = front ++ item :: back ∧
      ∀ other, items.set index other = front ++ other :: back := by
  obtain ⟨inside, same⟩ := List.getElem?_eq_some_iff.mp found
  refine ⟨items.take index, items.drop (index + 1), ?_, ?_⟩
  · rw [← same, List.cons_getElem_drop_succ, List.take_append_drop]
  · intro other
    rw [List.set_eq_take_append_cons_drop, if_pos inside]

theorem object_found {books : Books} {index : Nat} {object : LeaseObject}
    (found : books.object index = some object) :
    books.objects[index]? = some (some object) := by
  simpa [Books.object, Option.join_eq_some_iff] using found

/-- Replacing an object moves a tally by what the object and its place weigh. -/
theorem tally_set {objects : List (Option LeaseObject)} {index : Nat}
    {old : Option LeaseObject} (found : objects[index]? = some old)
    (new : Option LeaseObject) (measure : LeaseObject → Nat) :
    tally measure (objects.set index new) + tally measure [old] =
      tally measure objects + tally measure [new] := by
  obtain ⟨front, back, whole, changed⟩ := split_at found
  have cons : ∀ item, front ++ item :: back = front ++ [item] ++ back := by simp
  rw [changed, whole, cons, cons, tally_append, tally_append, tally_append, tally_append]
  omega

theorem tally_put {books : Books} {index : Nat} {object : LeaseObject}
    (found : books.object index = some object) (other : Option LeaseObject)
    (measure : LeaseObject → Nat) :
    tally measure (books.put index other).objects + tally measure [some object] =
      tally measure books.objects + tally measure [other] :=
  tally_set (object_found found) other measure

/-- A quantity that a move and a guarded call leave alone. -/
def Fair (measure : LeaseObject → Nat) : Prop :=
  ∀ object other : LeaseObject,
    other.lease.principal = object.lease.principal → other.lease.bytes = object.lease.bytes →
      other.admission = object.admission → measure other = measure object

/-- One for each lease of a principal. -/
def ofPrincipal (principal : Principal) (object : LeaseObject) : Nat :=
  if object.lease.principal = principal then 1 else 0

/-- The charge of each lease of a principal. -/
def chargeOf (principal : Principal) (object : LeaseObject) : Nat :=
  if object.lease.principal = principal then reserved object.lease.bytes else 0

/-- One for each object of an admission. -/
def ofAdmission (admission : Nat) (object : LeaseObject) : Nat :=
  if object.admission = admission then 1 else 0

theorem fair_ofPrincipal (principal : Principal) : Fair (ofPrincipal principal) := by
  intro object other same _ _
  rw [ofPrincipal, ofPrincipal, same]

theorem fair_chargeOf (principal : Principal) : Fair (chargeOf principal) := by
  intro object other same bytes _
  rw [chargeOf, chargeOf, same, bytes]

theorem fair_ofAdmission (admission : Nat) : Fair (ofAdmission admission) := by
  intro object other _ _ same
  rw [ofAdmission, ofAdmission, same]

theorem fair_one : Fair fun _ => 1 := fun _ _ _ _ _ => rfl

theorem sum_filter (measure : LeaseObject → Nat) (test : LeaseObject → Bool)
    (objects : List LeaseObject) :
    ((objects.filter test).map measure).sum =
      (objects.map fun object => if test object then measure object else 0).sum := by
  induction objects with
  | nil => rfl
  | cons object rest continues =>
      cases passed : test object <;> simp [passed, continues]

theorem length_filter (test : LeaseObject → Bool) (objects : List LeaseObject) :
    (objects.filter test).length =
      (objects.map fun object => if test object then 1 else 0).sum := by
  have counted := sum_filter (fun _ => 1) test objects
  simpa using counted

theorem held_length (books : Books) (principal : Principal) :
    (books.held principal).length = tally (ofPrincipal principal) books.objects := by
  have counted := length_filter (fun object => object.lease.principal = principal) books.live
  simp only [decide_eq_true_eq] at counted
  exact counted

theorem held_charges (books : Books) (principal : Principal) :
    ((books.held principal).map fun object => reserved object.lease.bytes).sum =
      tally (chargeOf principal) books.objects := by
  have summed := sum_filter (fun object => reserved object.lease.bytes)
    (fun object => object.lease.principal = principal) books.live
  simp only [decide_eq_true_eq] at summed
  exact summed

theorem admission_length (books : Books) (admission : Nat) :
    (books.live.filter fun object => object.admission = admission).length =
      tally (ofAdmission admission) books.objects := by
  have counted := length_filter (fun object => object.admission = admission) books.live
  simp only [decide_eq_true_eq] at counted
  exact counted

theorem live_length (books : Books) : books.live.length = tally (fun _ => 1) books.objects := by
  simp [tally, Books.live]

/-! ## The acts -/

theorem mem_liveIn {objects : List (Option LeaseObject)} {object : LeaseObject} :
    object ∈ liveIn objects ↔ some object ∈ objects ∧ object.attached = true := by
  rw [liveIn, List.mem_filter, List.reduceOption_mem_iff]

theorem move_tally (books : Books) (index : Nat) (measure : LeaseObject → Nat) :
    tally measure (books.move index).objects = tally measure books.objects := by
  unfold Books.move
  cases found : books.object index with
  | none => rfl
  | some object =>
      have moved := tally_put found (some { object with attached := false }) measure
      have detached : tally measure [some { object with attached := false }] = 0 :=
        tally_one measure _
      rw [detached, Nat.add_zero] at moved
      dsimp only
      rw [tally_append]
      exact moved

theorem move_live {books : Books} {index : Nat} {object : LeaseObject}
    (live : object ∈ (books.move index).live) : object ∈ books.live := by
  unfold Books.move at live
  cases found : books.object index with
  | none =>
      rw [found] at live
      exact live
  | some held =>
      rw [found] at live
      obtain ⟨member, attached⟩ := mem_liveIn.mp live
      rcases List.mem_append.mp member with old | new
      · rcases List.mem_or_eq_of_mem_set old with kept | left
        · exact mem_liveIn.mpr ⟨kept, attached⟩
        · rw [Option.some.inj left] at attached
          cases attached
      · have same : object = held := by simpa using new
        rw [same] at attached ⊢
        exact mem_liveIn.mpr ⟨List.mem_of_getElem? (object_found found), attached⟩

/-- What `admit` grants. -/
theorem admitLease_cases {ledger admitted : Ledger} {principal bytes : Nat} {lease : Lease}
    (taken : admitLease ledger principal bytes = .ok (lease, admitted)) :
    lease.bytes = bytes ∧ lease.claimed = false ∧
      ledger.usage.requests lease.principal = 0 ∧
      ledger.usage.globalRequests < ledger.globalLimit ∧
      reserved bytes ≤
        (grants lease.principal).workingLimit - ledger.usage.working lease.principal ∧
      admitted.globalLimit = ledger.globalLimit ∧
      admitted.usage.working =
        Function.update ledger.usage.working lease.principal
          (ledger.usage.working lease.principal + reserved bytes) ∧
      admitted.usage.requests =
        Function.update ledger.usage.requests lease.principal
          (ledger.usage.requests lease.principal + 1) ∧
      admitted.usage.globalRequests = ledger.usage.globalRequests + 1 := by
  unfold admitLease at taken
  simp only [bind_eq_ok, pure_eq_ok, rejectIf_eq_ok, Prod.mk.injEq, Bool.or_eq_false_iff,
    decide_eq_false_iff_not, not_le, not_lt] at taken
  obtain ⟨known, _, charge, charged, _, ⟨idle, room⟩, _, fits, sameLease, sameLedger⟩ := taken
  have amount : charge = reserved bytes := by
    unfold workingCharge at charged
    split at charged
    · cases charged
    · exact (Except.ok.inj charged).symm
  subst sameLease sameLedger amount
  exact ⟨rfl, rfl, Nat.lt_one_iff.mp idle, room, fits, rfl, rfl, rfl, rfl⟩

theorem admission_error {books : Books} {principal bytes : Nat} {denied : Denied}
    (refused : admitLease books.ledger principal bytes = .error denied) :
    books.admission principal bytes = (books, [.denied denied]) := by
  rw [Books.admission, refused]

theorem admission_ok {books : Books} {principal bytes : Nat} {lease : Lease} {ledger : Ledger}
    (taken : admitLease books.ledger principal bytes = .ok (lease, ledger)) :
    books.admission principal bytes =
      (⟨ledger, books.objects ++ [some ⟨true, lease, books.admissions⟩], books.admissions + 1⟩,
        [.charged books.admissions lease.principal (reserved lease.bytes)]) := by
  rw [Books.admission, taken]

section Guarded

variable {α : Type} [Scalar α] {library : JsonLibrary α}

/-- A guarded call changes no reservation and no lease but for its claim. -/
theorem commit_cases (library : JsonLibrary α) (books : Books) (index : Nat)
    (world : LiveWorld α) (envelope : Envelope α) :
    books.commit library index world envelope = books ∨
      ∃ object lease ledger,
        books.object index = some object ∧ object.attached = true ∧
          SameReserve books.ledger object.lease ledger lease ∧
          books.commit library index world envelope =
            { books.put index (some { object with lease := lease }) with ledger := ledger } := by
  unfold Books.commit
  cases found : books.object index with
  | none => exact Or.inl rfl
  | some object =>
      cases attached : object.attached with
      | false => exact Or.inl (by simp [attached])
      | true =>
          refine Or.inr ⟨object, _, _, rfl, attached,
            guarded_reserve library world envelope books.ledger object.lease, ?_⟩
          simp only [attached, if_true]

theorem commit_tally (books : Books) (index : Nat) (world : LiveWorld α)
    (envelope : Envelope α) {measure : LeaseObject → Nat} (fair : Fair measure) :
    tally measure (books.commit library index world envelope).objects =
      tally measure books.objects := by
  rcases commit_cases library books index world envelope with
    same | ⟨object, lease, ledger, found, attached, reserve, same⟩
  · rw [same]
  · have moved := tally_put found (some { object with lease := lease }) measure
    rw [tally_one, tally_one, if_pos attached, if_pos attached,
      fair object { object with lease := lease } reserve.principal reserve.bytes rfl] at moved
    rw [same]
    exact Nat.add_right_cancel moved

theorem commit_ledger (books : Books) (index : Nat) (world : LiveWorld α)
    (envelope : Envelope α) :
    let next := (books.commit library index world envelope).ledger
    next.usage.working = books.ledger.usage.working ∧
      next.usage.requests = books.ledger.usage.requests ∧
      next.usage.globalRequests = books.ledger.usage.globalRequests ∧
      next.globalLimit = books.ledger.globalLimit := by
  rcases commit_cases library books index world envelope with
    same | ⟨object, lease, ledger, found, attached, reserve, same⟩
  · rw [same]
    exact ⟨rfl, rfl, rfl, rfl⟩
  · rw [same]
    exact ⟨reserve.working, reserve.requests, reserve.globalRequests, reserve.globalLimit⟩

/-- A live lease after a guarded call was one before, but for its claim. -/
theorem commit_live {books : Books} {index : Nat} {world : LiveWorld α} {envelope : Envelope α}
    {object : LeaseObject} (live : object ∈ (books.commit library index world envelope).live) :
    ∃ before ∈ books.live, object.lease.principal = before.lease.principal ∧
      object.lease.bytes = before.lease.bytes ∧ object.admission = before.admission := by
  rcases commit_cases library books index world envelope with
    same | ⟨held, lease, ledger, found, attached, reserve, same⟩
  · rw [same] at live
    exact ⟨object, live, rfl, rfl, rfl⟩
  · rw [same] at live
    obtain ⟨member, referring⟩ := mem_liveIn.mp live
    rcases List.mem_or_eq_of_mem_set member with kept | changed
    · exact ⟨object, mem_liveIn.mpr ⟨kept, referring⟩, rfl, rfl, rfl⟩
    · have was : held ∈ books.live :=
        mem_liveIn.mpr ⟨List.mem_of_getElem? (object_found found), attached⟩
      rw [Option.some.inj changed]
      exact ⟨held, was, reserve.principal, reserve.bytes, rfl⟩

end Guarded

/-- A destruction gives back a live lease, or nothing. -/
theorem destroy_cases (books : Books) (index : Nat) :
    ((books.destroy index).2 = [] ∧ (books.destroy index).1.ledger = books.ledger ∧
        (books.destroy index).1.admissions = books.admissions ∧
        (∀ measure, tally measure (books.destroy index).1.objects =
          tally measure books.objects) ∧
        ∀ object ∈ (books.destroy index).1.live, object ∈ books.live) ∨
      ∃ object ∈ books.live,
        books.destroy index =
          ({ books.put index none with ledger := refund books.ledger object.lease },
            [.refunded object.admission object.lease.principal
              (reserved object.lease.bytes)]) ∧
          (∀ measure, tally measure (books.put index none).objects + measure object =
            tally measure books.objects) ∧
          ∀ other ∈ (books.put index none).live, other ∈ books.live := by
  have kept : ∀ other ∈ (books.put index none).live, other ∈ books.live := by
    intro other live
    obtain ⟨member, attached⟩ := mem_liveIn.mp live
    rcases List.mem_or_eq_of_mem_set member with old | impossible
    · exact mem_liveIn.mpr ⟨old, attached⟩
    · cases impossible
  unfold Books.destroy
  cases found : books.object index with
  | none => exact Or.inl ⟨rfl, rfl, rfl, fun _ => rfl, fun _ live => live⟩
  | some object =>
      have moved := fun measure => tally_put found none measure
      simp only [tally_one, tally_none, Nat.add_zero] at moved
      cases attached : object.attached with
      | false =>
          simp only [attached, Bool.false_eq_true, if_false, Nat.add_zero] at moved ⊢
          exact Or.inl ⟨trivial, rfl, rfl, moved, kept⟩
      | true =>
          simp only [attached, if_true] at moved ⊢
          exact Or.inr ⟨object,
            mem_liveIn.mpr ⟨List.mem_of_getElem? (object_found found), attached⟩, rfl, moved,
            kept⟩

/-! ## The balance -/

/-- The ledger counts its live leases and keeps to its limits. -/
structure Balanced (books : Books) : Prop where
  requests : ∀ principal, books.ledger.usage.requests principal = (books.held principal).length
  single : ∀ principal, books.ledger.usage.requests principal ≤ 1
  global : books.ledger.usage.globalRequests = books.live.length
  limited : books.ledger.usage.globalRequests ≤ books.ledger.globalLimit
  working :
    ∀ principal, books.ledger.usage.working principal =
      ((books.held principal).map fun object => reserved object.lease.bytes).sum
  allowed : ∀ principal, books.ledger.usage.working principal ≤ (grants principal).workingLimit

/-- A live lease can be given back without an underflow. -/
theorem Balanced.covers {books : Books} (balanced : Balanced books) {object : LeaseObject}
    (live : object ∈ books.live) :
    reserved object.lease.bytes ≤ books.ledger.usage.working object.lease.principal ∧
      1 ≤ books.ledger.usage.requests object.lease.principal ∧
      1 ≤ books.ledger.usage.globalRequests := by
  have held : object ∈ books.held object.lease.principal := by
    simpa [Books.held] using live
  refine ⟨?_, ?_, ?_⟩
  · rw [balanced.working]
    exact List.single_le_sum (by simp) _ (List.mem_map_of_mem held)
  · rw [balanced.requests]
    exact List.length_pos_of_mem held
  · rw [balanced.global]
    exact List.length_pos_of_mem live

/-- Other books with the same tallies and reservations. -/
theorem Balanced.same {books next : Books} (balanced : Balanced books)
    (tallies : ∀ measure, Fair measure → tally measure next.objects = tally measure books.objects)
    (working : next.ledger.usage.working = books.ledger.usage.working)
    (requests : next.ledger.usage.requests = books.ledger.usage.requests)
    (global : next.ledger.usage.globalRequests = books.ledger.usage.globalRequests)
    (limit : next.ledger.globalLimit = books.ledger.globalLimit) : Balanced next where
  requests := by
    intro principal
    rw [requests, balanced.requests, held_length, held_length,
      tallies _ (fair_ofPrincipal principal)]
  single := requests ▸ balanced.single
  global := by
    rw [global, balanced.global, live_length, live_length, tallies _ fair_one]
  limited := by
    rw [global, limit]
    exact balanced.limited
  working := by
    intro principal
    rw [working, balanced.working, held_charges, held_charges,
      tallies _ (fair_chargeOf principal)]
  allowed := working ▸ balanced.allowed

theorem Balanced.admitted {books : Books} (balanced : Balanced books) (principal bytes : Nat) :
    Balanced (books.admission principal bytes).1 := by
  cases taken : admitLease books.ledger principal bytes with
  | error denied =>
      rw [admission_error taken]
      exact balanced
  | ok pair =>
      obtain ⟨lease, ledger⟩ := pair
      obtain ⟨size, _, idle, room, fits, limit, working, requests, global⟩ :=
        admitLease_cases taken
      rw [admission_ok taken]
      have tallies : ∀ measure,
          tally measure (books.objects ++ [some ⟨true, lease, books.admissions⟩]) =
            tally measure books.objects + measure ⟨true, lease, books.admissions⟩ := by
        intro measure
        rw [tally_append, tally_one, if_pos rfl]
      constructor
      · intro other
        change ledger.usage.requests other = _
        have before := balanced.requests other
        rw [held_length] at before
        rw [held_length, tallies, requests, ofPrincipal]
        by_cases own : lease.principal = other
        · rw [if_pos own, ← own, Function.update_self, own, before]
        · rw [if_neg own, Function.update_of_ne (Ne.symm own), before, Nat.add_zero]
      · intro other
        change ledger.usage.requests other ≤ 1
        rw [requests]
        by_cases own : other = lease.principal
        · rw [own, Function.update_self, idle]
        · rw [Function.update_of_ne own]
          exact balanced.single other
      · change ledger.usage.globalRequests = _
        have before := balanced.global
        rw [live_length] at before
        rw [live_length, tallies, global, before]
      · change ledger.usage.globalRequests ≤ ledger.globalLimit
        rw [global, limit]
        exact room
      · intro other
        change ledger.usage.working other = _
        have before := balanced.working other
        rw [held_charges] at before
        rw [held_charges, tallies, working, chargeOf, size]
        by_cases own : lease.principal = other
        · rw [if_pos own, ← own, Function.update_self, own, before]
        · rw [if_neg own, Function.update_of_ne (Ne.symm own), before, Nat.add_zero]
      · intro other
        change ledger.usage.working other ≤ _
        rw [working]
        by_cases own : other = lease.principal
        · have before := balanced.allowed lease.principal
          rw [own, Function.update_self]
          omega
        · rw [Function.update_of_ne own]
          exact balanced.allowed other

theorem Balanced.destroy {books : Books} (balanced : Balanced books) (index : Nat) :
    Balanced (books.destroy index).1 := by
  rcases destroy_cases books index with
    ⟨_, ledger, _, tallies, _⟩ | ⟨object, live, same, tallies, _⟩
  · exact balanced.same (fun measure _ => tallies measure) (by rw [ledger]) (by rw [ledger])
      (by rw [ledger]) (by rw [ledger])
  · obtain ⟨charged, counted, global⟩ := balanced.covers live
    rw [same]
    constructor
    · intro other
      have before := balanced.requests other
      have moved := tallies (ofPrincipal other)
      rw [held_length] at before
      rw [held_length]
      change Function.update _ _ _ other = _
      rw [ofPrincipal] at moved
      by_cases own : object.lease.principal = other
      · rw [if_pos own] at moved
        rw [← own, Function.update_self, own, before]
        exact Nat.sub_eq_of_eq_add moved.symm
      · rw [if_neg own] at moved
        rw [Function.update_of_ne (Ne.symm own), before]
        exact moved.symm
    · intro other
      change (refund books.ledger object.lease).usage.requests other ≤ 1
      simp only [refund]
      by_cases own : other = object.lease.principal
      · rw [own, Function.update_self]
        exact (Nat.sub_le _ _).trans (balanced.single _)
      · rw [Function.update_of_ne own]
        exact balanced.single other
    · have before := balanced.global
      have moved := tallies fun _ => 1
      rw [live_length] at before ⊢
      change books.ledger.usage.globalRequests - 1 = _
      rw [before]
      exact Nat.sub_eq_of_eq_add moved.symm
    · exact (Nat.sub_le _ _).trans balanced.limited
    · intro other
      have before := balanced.working other
      have moved := tallies (chargeOf other)
      rw [held_charges] at before
      rw [held_charges]
      change Function.update _ _ _ other = _
      rw [chargeOf] at moved
      by_cases own : object.lease.principal = other
      · rw [if_pos own] at moved
        rw [← own, Function.update_self, own, before]
        exact Nat.sub_eq_of_eq_add moved.symm
      · rw [if_neg own] at moved
        rw [Function.update_of_ne (Ne.symm own), before]
        exact moved.symm
    · intro other
      change (refund books.ledger object.lease).usage.working other ≤ _
      simp only [refund]
      by_cases own : other = object.lease.principal
      · rw [own, Function.update_self]
        exact (Nat.sub_le _ _).trans (balanced.allowed _)
      · rw [Function.update_of_ne own]
        exact balanced.allowed other

section Runs

variable {α : Type} [Scalar α] {library : JsonLibrary α}

theorem Balanced.commit {books : Books} (balanced : Balanced books) (index : Nat)
    (world : LiveWorld α) (envelope : Envelope α) :
    Balanced (books.commit library index world envelope) := by
  obtain ⟨working, requests, global, limit⟩ :=
    @commit_ledger α _ library books index world envelope
  exact balanced.same (fun measure fair => commit_tally books index world envelope fair) working
    requests global limit

omit [Scalar α] in
theorem move_ledger (books : Books) (index : Nat) :
    (books.move index).ledger = books.ledger := by
  unfold Books.move
  cases books.object index <;> rfl

theorem Balanced.move {books : Books} (balanced : Balanced books) (index : Nat) :
    Balanced (books.move index) := by
  have ledger := move_ledger books index
  exact balanced.same (fun measure _ => move_tally books index measure) (by rw [ledger])
    (by rw [ledger]) (by rw [ledger]) (by rw [ledger])

theorem Balanced.fresh {limit : Nat} {ledger : Ledger}
    (made : Ledger.create limit = .ok ledger) : Balanced (Books.fresh ledger) := by
  unfold Ledger.create at made
  split at made
  · cases made
  · cases made
    exact ⟨fun _ => rfl, fun _ => Nat.zero_le _, rfl, Nat.zero_le _, fun _ => rfl,
      fun _ => Nat.zero_le _⟩

/-! ## Refunds -/

def charges (admission : Nat) (log : List Entry) : Nat :=
  log.countP fun
    | .charged number _ _ => number = admission
    | _ => false

def refunds (admission : Nat) (log : List Entry) : Nat :=
  log.countP fun
    | .refunded number _ _ => number = admission
    | _ => false

/-- Every admission was charged once, and is given back or still referred to. -/
structure Repaid (books : Books) (log : List Entry) : Prop where
  charged : ∀ admission, charges admission log = if admission < books.admissions then 1 else 0
  once :
    ∀ admission, refunds admission log + tally (ofAdmission admission) books.objects =
      charges admission log
  equal :
    ∀ admission principal amount, Entry.refunded admission principal amount ∈ log →
      Entry.charged admission principal amount ∈ log
  live :
    ∀ object ∈ books.live,
      Entry.charged object.admission object.lease.principal (reserved object.lease.bytes) ∈ log

/-- Books with the same objects but for their claims, and nothing in the log. -/
theorem Repaid.same {books next : Books} {log : List Entry} (repaid : Repaid books log)
    (admissions : next.admissions = books.admissions)
    (tallies : ∀ admission, tally (ofAdmission admission) next.objects =
      tally (ofAdmission admission) books.objects)
    (live : ∀ object ∈ next.live, ∃ before ∈ books.live,
      object.lease.principal = before.lease.principal ∧
        object.lease.bytes = before.lease.bytes ∧ object.admission = before.admission) :
    Repaid next log where
  charged := admissions ▸ repaid.charged
  once := by
    intro admission
    rw [tallies, repaid.once]
  equal := repaid.equal
  live := by
    intro object member
    obtain ⟨before, held, principal, bytes, number⟩ := live object member
    rw [principal, bytes, number]
    exact repaid.live before held

theorem Repaid.admitted {books : Books} {log : List Entry} (repaid : Repaid books log)
    (principal bytes : Nat) :
    Repaid (books.admission principal bytes).1 (log ++ (books.admission principal bytes).2) := by
  cases taken : admitLease books.ledger principal bytes with
  | error denied =>
      rw [admission_error taken]
      constructor
      · intro admission
        rw [← repaid.charged admission]
        simp [charges]
      · intro admission
        have before := repaid.once admission
        simpa [charges, refunds] using before
      · intro admission owner amount refunded
        have old : Entry.refunded admission owner amount ∈ log := by simpa using refunded
        exact List.mem_append_left _ (repaid.equal _ _ _ old)
      · intro object live
        exact List.mem_append_left _ (repaid.live object live)
  | ok pair =>
      obtain ⟨lease, ledger⟩ := pair
      rw [admission_ok taken]
      constructor
      · intro admission
        have before := repaid.charged admission
        rw [charges] at before
        rw [charges, List.countP_append, before]
        by_cases newest : books.admissions = admission
        · simp [newest]
        · have order : (admission < books.admissions + 1) = (admission < books.admissions) :=
            propext ⟨fun below => by omega, fun below => by omega⟩
          simp [newest, order]
      · intro admission
        have before := repaid.once admission
        have shape : tally (ofAdmission admission)
            (books.objects ++ [some ⟨true, lease, books.admissions⟩]) =
              tally (ofAdmission admission) books.objects +
                if books.admissions = admission then 1 else 0 := by
          rw [tally_append, tally_one, if_pos rfl]
          rfl
        rw [charges, refunds] at before
        rw [shape, charges, refunds, List.countP_append, List.countP_append, ← before]
        by_cases newest : books.admissions = admission
        · simp [newest]
          omega
        · simp [newest]
      · intro admission owner amount refunded
        have old : Entry.refunded admission owner amount ∈ log := by simpa using refunded
        exact List.mem_append_left _ (repaid.equal _ _ _ old)
      · intro object live
        obtain ⟨member, attached⟩ := mem_liveIn.mp live
        rcases List.mem_append.mp member with old | new
        · exact List.mem_append_left _ (repaid.live object (mem_liveIn.mpr ⟨old, attached⟩))
        · have same : object = ⟨true, lease, books.admissions⟩ := by simpa using new
          rw [same]
          exact List.mem_append_right _ (List.mem_singleton.mpr rfl)

theorem Repaid.move {books : Books} {log : List Entry} (repaid : Repaid books log)
    (index : Nat) : Repaid (books.move index) log := by
  have admissions : (books.move index).admissions = books.admissions := by
    unfold Books.move
    cases books.object index <;> rfl
  exact repaid.same admissions
    (fun _ => move_tally books index _)
    fun object live => ⟨object, move_live live, rfl, rfl, rfl⟩

theorem Repaid.commit {books : Books} {log : List Entry} (repaid : Repaid books log)
    (index : Nat) (world : LiveWorld α) (envelope : Envelope α) :
    Repaid (books.commit library index world envelope) log := by
  have admissions : (books.commit library index world envelope).admissions =
      books.admissions := by
    rcases commit_cases library books index world envelope with
      same | ⟨_, _, _, _, _, _, same⟩
    · rw [same]
    · rw [same]
      rfl
  exact repaid.same admissions
    (fun admission => commit_tally books index world envelope (fair_ofAdmission admission))
    fun object live => commit_live live

theorem Repaid.destroy {books : Books} {log : List Entry} (repaid : Repaid books log)
    (index : Nat) : Repaid (books.destroy index).1 (log ++ (books.destroy index).2) := by
  rcases destroy_cases books index with
    ⟨silent, _, admissions, tallies, kept⟩ | ⟨object, live, same, tallies, kept⟩
  · rw [silent, List.append_nil]
    exact repaid.same admissions (fun admission => tallies _)
      fun object live => ⟨object, kept object live, rfl, rfl, rfl⟩
  · have was := repaid.live object live
    rw [same]
    constructor
    · intro admission
      change charges admission (log ++ [_]) = if admission < books.admissions then 1 else 0
      rw [← repaid.charged admission]
      simp [charges]
    · intro admission
      have before := repaid.once admission
      have moved := tallies (ofAdmission admission)
      rw [ofAdmission] at moved
      rw [← moved, charges, refunds] at before
      rw [charges, refunds, List.countP_append, List.countP_append, ← before]
      by_cases own : object.admission = admission
      · simp [own]
        omega
      · simp [own]
    · intro admission owner amount refunded
      rcases List.mem_append.mp refunded with old | new
      · exact List.mem_append_left _ (repaid.equal _ _ _ old)
      · obtain ⟨number, holder, size⟩ := Entry.refunded.inj (List.mem_singleton.mp new)
        rw [number, holder, size]
        exact List.mem_append_left _ was
    · intro other member
      exact List.mem_append_left _ (repaid.live other (kept other member))

theorem Repaid.fresh (ledger : Ledger) : Repaid (Books.fresh ledger) [] where
  charged := fun _ => rfl
  once := fun _ => rfl
  equal := by
    intro _ _ _ refunded
    cases refunded
  live := by
    intro _ live
    cases live

/-! ## Runs -/

/-- A call is an admission, a guarded commit and a destruction. -/
theorem call_run (books : Books) (principal : Nat) (world : LiveWorld α)
    (envelope : Envelope α) :
    books.call library principal world envelope = (books, []) ∨
      ∃ bytes, books.call library principal world envelope =
        books.run library
          [.admission principal bytes, .commit books.objects.length world envelope,
            .destroy books.objects.length] := by
  unfold Books.call
  cases fieldBytes envelope with
  | error error => exact Or.inl rfl
  | ok bytes => exact Or.inr ⟨bytes, by simp [Books.run, Books.act]⟩

/-- What every single act keeps, with the log, a run keeps. -/
theorem run_keeps {property : Books → List Entry → Prop}
    (admission : ∀ books log principal bytes, property books log →
      property (books.admission principal bytes).1 (log ++ (books.admission principal bytes).2))
    (move : ∀ books log index, property books log → property (books.move index) log)
    (commit : ∀ books log index world (envelope : Envelope α), property books log →
      property (books.commit library index world envelope) log)
    (destroy : ∀ books log index, property books log →
      property (books.destroy index).1 (log ++ (books.destroy index).2))
    (acts : List (LeaseAct α)) :
    ∀ books log, property books log →
      property (books.run library acts).1 (log ++ (books.run library acts).2) := by
  have single : ∀ (act : LeaseAct α) books log, property books log →
      property (books.act library act).1 (log ++ (books.act library act).2) := by
    intro act books log holds
    cases act with
    | admission principal bytes => exact admission books log principal bytes holds
    | move index => simpa [Books.act] using move books log index holds
    | commit index world envelope =>
        simpa [Books.act] using commit books log index world envelope holds
    | destroy index => exact destroy books log index holds
    | call principal world envelope =>
        change property (books.call library principal world envelope).1 _
        rcases @call_run α _ library books principal world envelope with
          same | ⟨bytes, same⟩
        · rw [Books.act, same, List.append_nil]
          exact holds
        · rw [Books.act, same]
          have taken := admission books log principal bytes holds
          have held := commit _ _ books.objects.length world envelope taken
          simpa [Books.run, Books.act] using destroy _ _ books.objects.length held
  induction acts with
  | nil =>
      intro books log holds
      simpa [Books.run] using holds
  | cons act rest continues =>
      intro books log holds
      have later := continues _ _ (single act books log holds)
      rwa [List.append_assoc] at later

/-- A destruction denies nothing. -/
theorem destroy_allows (books : Books) (index : Nat) (denied : Denied) :
    Entry.denied denied ∉ (books.destroy index).2 := by
  rcases destroy_cases books index with ⟨silent, _⟩ | ⟨object, _, same, _⟩
  · rw [silent]
    exact List.not_mem_nil
  · rw [same]
    intro refused
    cases List.mem_singleton.mp refused

/-- A denial leaves the books as they were. -/
theorem denied_unchanged (books : Books) (act : LeaseAct α) {denied : Denied}
    (refused : Entry.denied denied ∈ (books.act library act).2) :
    (books.act library act).1 = books := by
  cases act with
  | admission principal bytes =>
      rw [Books.act] at refused ⊢
      cases taken : admitLease books.ledger principal bytes with
      | error _ => rw [admission_error taken]
      | ok pair =>
          rw [admission_ok taken] at refused
          cases List.mem_singleton.mp refused
  | move index => cases refused
  | commit index world envelope => cases refused
  | destroy index => exact absurd refused (destroy_allows books index denied)
  | call principal world envelope =>
      rw [Books.act, Books.call] at refused ⊢
      cases sized : fieldBytes envelope with
      | error _ => rfl
      | ok bytes =>
          simp only [sized] at refused ⊢
          cases taken : admitLease books.ledger principal bytes with
          | error _ =>
              have missing : books.object books.objects.length = none := by
                simp [Books.object]
              simp only [admission_error taken, Books.commit, Books.destroy, missing]
          | ok pair =>
              rw [admission_ok taken] at refused
              rcases List.mem_append.mp refused with charged | destroyed
              · cases List.mem_singleton.mp charged
              · exact absurd destroyed (destroy_allows _ _ denied)

/-- The whole account of a run, under the limit its ledger was made with. -/
structure Reconciled (limit : Nat) (books : Books) (log : List Entry) : Prop where
  balanced : Balanced books
  repaid : Repaid books log
  limit : books.ledger.globalLimit = limit

theorem Reconciled.run {limit : Nat} {books : Books} {log : List Entry}
    (reconciled : Reconciled limit books log) (acts : List (LeaseAct α)) :
    Reconciled limit (books.run library acts).1 (log ++ (books.run library acts).2) := by
  refine @run_keeps α _ library (Reconciled limit) ?_ ?_ ?_ ?_ acts books log reconciled
  · intro books log principal bytes held
    refine ⟨held.balanced.admitted principal bytes, held.repaid.admitted principal bytes, ?_⟩
    cases taken : admitLease books.ledger principal bytes with
    | error denied =>
        rw [admission_error taken]
        exact held.limit
    | ok pair =>
        obtain ⟨lease, ledger⟩ := pair
        obtain ⟨_, _, _, _, _, limit, _⟩ := admitLease_cases taken
        rw [admission_ok taken]
        exact limit.trans held.limit
  · intro books log index held
    refine ⟨held.balanced.move index, held.repaid.move index, ?_⟩
    rw [move_ledger]
    exact held.limit
  · intro books log index world envelope held
    obtain ⟨_, _, _, limit⟩ := @commit_ledger α _ library books index world envelope
    exact ⟨held.balanced.commit index world envelope,
      held.repaid.commit index world envelope, limit.trans held.limit⟩
  · intro books log index held
    refine ⟨held.balanced.destroy index, held.repaid.destroy index, ?_⟩
    rcases destroy_cases books index with ⟨_, ledger, _⟩ | ⟨object, _, same, _⟩
    · rw [ledger]
      exact held.limit
    · rw [same]
      exact held.limit

theorem Reconciled.fresh {limit : Nat} {ledger : Ledger}
    (made : Ledger.create limit = .ok ledger) : Reconciled limit (Books.fresh ledger) [] := by
  refine ⟨Balanced.fresh made, Repaid.fresh ledger, ?_⟩
  unfold Ledger.create at made
  split at made
  · cases made
  · cases made
    rfl

end Runs

/-! ## Every order of acts -/

/-- The ledger counts exactly the leases that refer to it, within its limits. Every charge
is given back once, however often its lease was moved, and no subtraction underflows. -/
theorem leases_balance {α : Type} [Scalar α] (library : JsonLibrary α) {limit : Nat}
    {ledger : Ledger} (made : Ledger.create limit = .ok ledger) (acts : List (LeaseAct α)) :
    let books := ((Books.fresh ledger).run library acts).1
    let log := ((Books.fresh ledger).run library acts).2
    let usage := books.ledger.usage
    (∀ principal,
      usage.requests principal = (books.held principal).length ∧
        usage.requests principal ≤ 1 ∧
        usage.working principal =
          ((books.held principal).map fun object => reserved object.lease.bytes).sum ∧
        usage.working principal ≤ (grants principal).workingLimit) ∧
      usage.globalRequests = books.live.length ∧
      usage.globalRequests ≤ limit ∧
      (∀ admission,
        charges admission log = (if admission < books.admissions then 1 else 0) ∧
          refunds admission log +
              (books.live.filter fun object => object.admission = admission).length =
            charges admission log) ∧
      (∀ admission principal amount, Entry.refunded admission principal amount ∈ log →
        Entry.charged admission principal amount ∈ log) ∧
      (∀ object ∈ books.live,
        reserved object.lease.bytes ≤ usage.working object.lease.principal ∧
          1 ≤ usage.requests object.lease.principal ∧ 1 ≤ usage.globalRequests) ∧
      ∀ act denied, Entry.denied denied ∈ (books.act library act).2 →
        (books.act library act).1 = books := by
  intro books log usage
  have reconciled : Reconciled limit books log := (Reconciled.fresh made).run acts
  have balanced := reconciled.balanced
  have repaid := reconciled.repaid
  refine ⟨?_, balanced.global, reconciled.limit ▸ balanced.limited, ?_, repaid.equal, ?_, ?_⟩
  · intro principal
    exact ⟨balanced.requests principal, balanced.single principal, balanced.working principal,
      balanced.allowed principal⟩
  · intro admission
    refine ⟨repaid.charged admission, ?_⟩
    rw [admission_length]
    exact repaid.once admission
  · intro object live
    exact balanced.covers live
  · intro act denied refused
    exact denied_unchanged books act refused

/-- A lease moved once and destroyed twice, a guarded call and a denied admission. -/
def leaseActs : List (LeaseAct ℚ) :=
  [.admission 0 100, .move 0, .destroy 0, .admission 0 5, .destroy 1, .call 0 workshop westCube,
    .admission 1 200, .admission 7 1]

theorem leases_balance_moved :
    refunds 0 ((Books.fresh freshLedger).run westLibrary leaseActs).2 = 1 ∧
      refunds 0 ((Books.fresh freshLedger).run westLibrary leaseActs).2 +
          (((Books.fresh freshLedger).run westLibrary leaseActs).1.live.filter
            fun object => object.admission = 0).length =
        charges 0 ((Books.fresh freshLedger).run westLibrary leaseActs).2 :=
  ⟨by decide +kernel,
    ((@leases_balance ℚ _ westLibrary 2 freshLedger rfl leaseActs).2.2.2.1 0).2⟩

end Omniweft.Policy
