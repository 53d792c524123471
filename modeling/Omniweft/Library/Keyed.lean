import Mathlib.Data.List.Sort
import Omniweft.Library.Outcome

/-!
# Lists kept in the order of a key

Records with a key are stored as a list in ascending order of the key. The
first part is about looking a key up and entering records under new keys, the
second about sorting such a list and about its being determined by its members,
the third is bisection on a list that is sorted already.
-/

namespace Omniweft.Keyed

open Outcome

section Lookup

variable {ε τ κ ρ : Type} [DecidableEq κ] [DecidableEq ρ]

/-- The first record under a key. -/
def find (key : τ → κ) (items : List τ) (value : κ) : Option τ :=
  items.find? fun item => key item == value

/-- Enter a record unless its key is taken; a record under the same key must
have the same payload. -/
def enter (key : τ → κ) (payload : τ → ρ) (limit : Nat) (full clash : ε)
    (present : List τ) (item : τ) : Except ε (List τ) :=
  match find key present (key item) with
  | none => do
      rejectIf (present.length == limit) full
      return present ++ [item]
  | some found => do
      rejectIf (payload found != payload item) clash
      return present

variable {key : τ → κ} {payload : τ → ρ} {limit : Nat} {full clash : ε}

theorem find_isSome {items : List τ} {value : κ} :
    (find key items value).isSome = true ↔ value ∈ items.map key := by
  simp [find]

theorem find_eq_some {items : List τ} (distinct : (items.map key).Nodup)
    {value : κ} {item : τ} :
    find key items value = some item ↔ item ∈ items ∧ key item = value := by
  constructor
  · intro found
    exact ⟨List.mem_of_find?_eq_some found, by simpa using List.find?_some found⟩
  · rintro ⟨member, rfl⟩
    cases found : find key items (key item) with
    | none =>
        have absent := List.find?_eq_none.1 found item member
        simp at absent
    | some other =>
        have same : key other = key item := by simpa using List.find?_some found
        rw [List.inj_on_of_nodup_map distinct (List.mem_of_find?_eq_some found) member same]

omit [DecidableEq κ] in
theorem distinct_concat {items : List τ} (distinct : (items.map key).Nodup) (item : τ) :
    ((items ++ [item]).map key).Nodup ↔ key item ∉ items.map key := by
  rw [List.map_append, List.map_singleton, ← List.concat_eq_append, List.nodup_concat]
  exact and_iff_left distinct

/-- Entering a record that agrees with the one under its key, when there is one. -/
theorem enter_agreeing {present : List τ} {item : τ}
    (agrees : ∀ found ∈ present, key found = key item → payload found = payload item) :
    enter key payload limit full clash present item =
      if key item ∈ present.map key then .ok present
      else if present.length = limit then .error full
      else .ok (present ++ [item]) := by
  unfold enter
  cases found : find key present (key item) with
  | none =>
      have absent : key item ∉ present.map key := by
        rw [← find_isSome, found]
        exact Bool.false_ne_true
      rw [if_neg absent]
      by_cases room : present.length = limit
      · rw [if_pos room, beq_iff_eq.mpr room]
        rfl
      · rw [if_neg room, beq_eq_false_iff_ne.mpr room]
        rfl
  | some old =>
      have there : key item ∈ present.map key := by
        rw [← find_isSome, found]
        rfl
      have same : key old = key item := by simpa using List.find?_some found
      have payloads := agrees old (List.mem_of_find?_eq_some found) same
      rw [if_pos there]
      simp only [payloads, bne_self_eq_false]
      rfl

/-- What entering a record leaves: the same records and the new one, with keys
that still differ, within the limit. -/
theorem enter_spec {present next : List τ} {item : τ}
    (determined : ∀ left right, key left = key right → payload left = payload right → left = right)
    (distinct : (present.map key).Nodup)
    (entered : enter key payload limit full clash present item = .ok next) :
    (next.map key).Nodup ∧ (∀ other, other ∈ next ↔ other ∈ present ∨ other = item) ∧
      (present.length ≤ limit → next.length ≤ limit) := by
  unfold enter at entered
  cases found : find key present (key item) with
  | none =>
      rw [found] at entered
      simp only [bind_eq_ok, rejectIf_eq_ok, exists_const, pure_eq_ok] at entered
      obtain ⟨room, rfl⟩ := entered
      have absent : key item ∉ present.map key := by
        rw [← find_isSome, found]
        exact Bool.false_ne_true
      refine ⟨(distinct_concat distinct item).2 absent, ?_, ?_⟩
      · intro other
        rw [List.mem_append, List.mem_singleton]
      · intro within
        have notFull : present.length ≠ limit := by simpa using room
        rw [List.length_append, List.length_singleton]
        omega
  | some old =>
      rw [found] at entered
      simp only [bind_eq_ok, rejectIf_eq_ok, exists_const, pure_eq_ok,
        bne_eq_false_iff_eq] at entered
      obtain ⟨agrees, rfl⟩ := entered
      obtain ⟨member, same⟩ := (find_eq_some distinct).1 found
      have equal := determined old item same agrees
      refine ⟨distinct, ?_, id⟩
      intro other
      constructor
      · exact Or.inl
      · rintro (old | rfl)
        · exact old
        · rwa [← equal]

/-- Entering records one after the other. -/
theorem enter_all
    (determined : ∀ left right,
      key left = key right → payload left = payload right → left = right) :
    ∀ {items present final : List τ},
      (present.map key).Nodup →
      items.foldlM (enter key payload limit full clash) present = .ok final →
      (final.map key).Nodup ∧ (∀ other, other ∈ final ↔ other ∈ present ∨ other ∈ items) ∧
        (present.length ≤ limit → final.length ≤ limit)
  | [], present, final, distinct, entered => by
      rw [List.foldlM_nil, pure_eq_ok] at entered
      subst entered
      exact ⟨distinct, by simp, id⟩
  | item :: items, present, final, distinct, entered => by
      rw [List.foldlM_cons, bind_eq_ok] at entered
      obtain ⟨next, first, later⟩ := entered
      obtain ⟨nextDistinct, nextMembers, nextFits⟩ := enter_spec determined distinct first
      obtain ⟨finalDistinct, finalMembers, finalFits⟩ := enter_all determined nextDistinct later
      refine ⟨finalDistinct, ?_, fun within => finalFits (nextFits within)⟩
      intro other
      rw [finalMembers, nextMembers, List.mem_cons, or_assoc]

/-- Records under fresh keys are all entered when there is room for them. -/
theorem enter_fresh :
    ∀ {items present : List τ},
      ((present ++ items).map key).Nodup →
      (present ++ items).length ≤ limit →
      items.foldlM (enter key payload limit full clash) present = .ok (present ++ items)
  | [], present, _, _ => by rw [List.append_nil]; rfl
  | item :: items, present, distinct, within => by
      have split : present ++ item :: items = (present ++ [item]) ++ items := by
        rw [List.append_assoc, List.singleton_append]
      rw [split] at distinct within ⊢
      have headDistinct : ((present ++ [item]).map key).Nodup := by
        rw [List.map_append] at distinct
        exact distinct.of_append_left
      have presentDistinct : (present.map key).Nodup := by
        rw [List.map_append] at headDistinct
        exact headDistinct.of_append_left
      have absent : find key present (key item) = none := by
        rw [← Option.not_isSome_iff_eq_none, find_isSome]
        exact (distinct_concat presentDistinct item).1 headDistinct
      have room : (present.length == limit) = false := by
        simp only [List.length_append, List.length_singleton] at within
        rw [beq_eq_false_iff_ne]
        omega
      rw [List.foldlM_cons, bind_eq_ok]
      refine ⟨present ++ [item], ?_, enter_fresh distinct within⟩
      unfold enter
      rw [absent]
      simp only [room]
      rfl

/-- Records that stand there already change nothing. -/
theorem enter_present {present : List τ} (distinct : (present.map key).Nodup) :
    ∀ {items : List τ},
      items ⊆ present →
      items.foldlM (enter key payload limit full clash) present = .ok present
  | [], _ => rfl
  | item :: items, inside => by
      have found : find key present (key item) = some item :=
        (find_eq_some distinct).2 ⟨inside (List.mem_cons_self ..), rfl⟩
      rw [List.foldlM_cons, bind_eq_ok]
      refine ⟨present, ?_, enter_present distinct fun other member =>
        inside (List.mem_cons_of_mem _ member)⟩
      unfold enter
      rw [found]
      simp only [bne_self_eq_false]
      rfl

/-- Records of a list that has room for all of them, under keys of their own, are entered in
any order. -/
theorem enter_into {wider : List τ} (wideDistinct : (wider.map key).Nodup)
    (within : wider.length ≤ limit) :
    ∀ {items present : List τ},
      (present.map key).Nodup → present ⊆ wider → items ⊆ wider →
      ∃ final, items.foldlM (enter key payload limit full clash) present = .ok final
  | [], present, _, _, _ => ⟨present, rfl⟩
  | item :: items, present, distinct, inside, incoming => by
      have itemInside : item ∈ wider := incoming (List.mem_cons_self ..)
      have later : items ⊆ wider := fun other member =>
        incoming (List.mem_cons_of_mem _ member)
      cases found : find key present (key item) with
      | none =>
          have absent : key item ∉ present.map key := by
            rw [← find_isSome, found]
            exact Bool.false_ne_true
          have longerDistinct := (distinct_concat distinct item).2 absent
          have longerInside : present ++ [item] ⊆ wider := by
            intro other member
            rcases List.mem_append.1 member with old | new
            · exact inside old
            · rw [List.mem_singleton.1 new]
              exact itemInside
          have counted :=
            (List.subperm_of_subset (longerDistinct.of_map key) longerInside).length_le
          rw [List.length_append, List.length_singleton] at counted
          have room : (present.length == limit) = false := by
            rw [beq_eq_false_iff_ne]
            omega
          obtain ⟨final, entered⟩ :=
            enter_into wideDistinct within longerDistinct longerInside later
          refine ⟨final, ?_⟩
          rw [List.foldlM_cons, bind_eq_ok]
          refine ⟨present ++ [item], ?_, entered⟩
          unfold enter
          rw [found]
          simp only [room]
          rfl
      | some old =>
          obtain ⟨member, same⟩ := (find_eq_some distinct).1 found
          obtain rfl := List.inj_on_of_nodup_map wideDistinct (inside member) itemInside same
          obtain ⟨final, entered⟩ := enter_into wideDistinct within distinct inside later
          refine ⟨final, ?_⟩
          rw [List.foldlM_cons, bind_eq_ok]
          refine ⟨present, ?_, entered⟩
          unfold enter
          rw [found]
          simp only [bne_self_eq_false]
          rfl

end Lookup

section Ascending

variable {τ κ : Type} [LT κ] (key : τ → κ)

/-- No two records share a key, and the keys ascend. -/
def Ascending (items : List τ) : Prop :=
  items.Pairwise fun left right => key left < key right

variable {key}

theorem Ascending.filter {items : List τ} (ascending : Ascending key items)
    (keep : τ → Bool) :
    Ascending key (items.filter keep) :=
  List.Pairwise.filter keep ascending

variable [LE κ] [Std.LawfulOrderLT κ]

theorem Ascending.distinct {items : List τ} (ascending : Ascending key items) :
    (items.map key).Nodup := by
  rw [List.Nodup, List.pairwise_map]
  apply ascending.imp
  intro left right below same
  rw [same] at below
  exact Std.lt_irrefl below

theorem Ascending.unique {items : List τ} (ascending : Ascending key items)
    {left right : τ} (leftMember : left ∈ items) (rightMember : right ∈ items)
    (same : key left = key right) :
    left = right :=
  List.inj_on_of_nodup_map ascending.distinct leftMember rightMember same

theorem Ascending.nodup {items : List τ} (ascending : Ascending key items) :
    items.Nodup :=
  ascending.distinct.of_map key

variable [Std.IsLinearOrder κ]

/-- The members alone determine an ascending list. -/
theorem Ascending.eq_of_perm {left right : List τ}
    (leftAscending : Ascending key left) (rightAscending : Ascending key right)
    (same : left.Perm right) :
    left = right := by
  refine List.Perm.eq_of_pairwise ?_ leftAscending rightAscending same
  intro first second _ _ below above
  exact absurd (Std.lt_trans below above) Std.lt_irrefl

theorem Ascending.eq_of_mem_iff {left right : List τ}
    (leftAscending : Ascending key left) (rightAscending : Ascending key right)
    (same : ∀ item, item ∈ left ↔ item ∈ right) :
    left = right :=
  leftAscending.eq_of_perm rightAscending
    ((List.perm_ext_iff_of_nodup leftAscending.nodup rightAscending.nodup).2 same)

end Ascending

theorem distinct_filter {τ κ : Type} {key : τ → κ} {items : List τ}
    (distinct : (items.map key).Nodup) (keep : τ → Bool) :
    ((items.filter keep).map key).Nodup :=
  distinct.sublist (List.filter_sublist.map key)

section Arrangement

variable {τ κ : Type} [LE κ] [DecidableLE κ] (key : τ → κ)

/-- The records in ascending order of their keys. -/
def arrange (items : List τ) : List τ :=
  items.insertionSort fun left right => key left ≤ key right

variable {key}

theorem arrange_perm (items : List τ) :
    (arrange key items).Perm items :=
  List.perm_insertionSort _ items

@[simp]
theorem mem_arrange {items : List τ} {item : τ} :
    item ∈ arrange key items ↔ item ∈ items :=
  (arrange_perm items).mem_iff

@[simp]
theorem arrange_length (items : List τ) :
    (arrange key items).length = items.length :=
  (arrange_perm items).length_eq

theorem arrange_pairwise [Std.IsLinearOrder κ] (items : List τ) :
    (arrange key items).Pairwise fun left right => key left ≤ key right := by
  have total : Std.Total fun left right : τ => key left ≤ key right :=
    ⟨fun left right => Std.le_total⟩
  have transitive : IsTrans τ fun left right => key left ≤ key right :=
    ⟨fun _ _ _ first second => Std.le_trans first second⟩
  exact List.pairwise_insertionSort _ items

variable [LT κ] [Std.LawfulOrderLT κ]

theorem Ascending.arrange_eq {items : List τ} (ascending : Ascending key items) :
    arrange key items = items := by
  apply List.Pairwise.insertionSort_eq
  apply ascending.imp
  intro left right below
  exact Std.le_of_lt below

variable [Std.IsLinearOrder κ]

/-- Sorting records whose keys differ leaves no two of them level. -/
theorem arrange_ascending {items : List τ} (distinct : (items.map key).Nodup) :
    Ascending key (arrange key items) := by
  have apart : (arrange key items).Pairwise fun left right => key left ≠ key right := by
    have shuffled : (arrange key items).Perm items := arrange_perm items
    have kept := (shuffled.map key).nodup_iff.2 distinct
    rw [List.Nodup, List.pairwise_map] at kept
    exact kept
  apply (List.Pairwise.and (arrange_pairwise items) apart).imp
  intro left right ordered
  exact Std.lt_of_le_of_ne ordered.1 ordered.2

/-- Sorting undoes any shuffling of an ascending list. -/
theorem Ascending.arrange_of_perm {items shuffled : List τ}
    (ascending : Ascending key items) (same : shuffled.Perm items) :
    arrange key shuffled = items := by
  have distinct : (shuffled.map key).Nodup :=
    (same.map key).nodup_iff.2 ascending.distinct
  exact (arrange_ascending distinct).eq_of_perm ascending ((arrange_perm shuffled).trans same)

/-- Selecting before or after the sorting gives the same list. -/
theorem arrange_filter {items : List τ} (distinct : (items.map key).Nodup)
    (keep : τ → Bool) :
    (arrange key items).filter keep = arrange key (items.filter keep) := by
  apply ((arrange_ascending distinct).filter keep).eq_of_mem_iff
    (arrange_ascending (distinct_filter distinct keep))
  intro item
  rw [List.mem_filter, mem_arrange, mem_arrange, List.mem_filter]

end Arrangement

section Bisection

variable {κ : Type} [LT κ] [DecidableLT κ]

/-- The loop of `std::lower_bound` on the range of `length` items from `first`;
`fuel` bounds the rounds. -/
def lowerBound (items : List κ) (value : κ) : Nat → Nat → Nat → Nat
  | 0, first, _ => first
  | fuel + 1, first, length =>
      if length = 0 then first
      else
        match items[first + length / 2]? with
        | none => first
        | some middle =>
            if middle < value then
              lowerBound items value fuel (first + length / 2 + 1) (length - length / 2 - 1)
            else lowerBound items value fuel first (length / 2)

/-- `std::binary_search`: the item at the lower bound, if any, is not above the
value. -/
def binarySearch (items : List κ) (value : κ) : Bool :=
  match items[lowerBound items value items.length 0 items.length]? with
  | none => false
  | some found => !decide (value < found)

variable [LE κ] [Std.IsLinearOrder κ] [Std.LawfulOrderLT κ]

/-- The items before `position` are below the value and the others are not. -/
def Splits (items : List κ) (value : κ) (position : Nat) : Prop :=
  ∀ (index : Nat) (item : κ), items[index]? = some item → (item < value ↔ index < position)

/-- A sorted list splits somewhere in the remaining range, whatever was compared
so far. -/
theorem lowerBound_splits {items : List κ} {value : κ}
    (sorted : items.Pairwise (· < ·)) :
    ∀ {fuel first length : Nat},
      length ≤ fuel →
      first + length ≤ items.length →
      (∀ (index : Nat) (item : κ), items[index]? = some item → index < first → item < value) →
      (∀ (index : Nat) (item : κ),
        items[index]? = some item → first + length ≤ index → ¬ item < value) →
      Splits items value (lowerBound items value fuel first length)
  | 0, first, length, enough, inside, before, after => by
      have none : length = 0 := by omega
      subst none
      intro index item found
      rw [lowerBound]
      constructor
      · intro below
        by_contra notBefore
        exact after index item found (by omega) below
      · exact before index item found
  | fuel + 1, first, length, enough, inside, before, after => by
      unfold lowerBound
      by_cases empty : length = 0
      · rw [if_pos empty]
        subst empty
        intro index item found
        constructor
        · intro below
          by_contra notBefore
          exact after index item found (by omega) below
        · exact before index item found
      · rw [if_neg empty]
        have within : first + length / 2 < items.length := by omega
        have found : items[first + length / 2]? = some items[first + length / 2] :=
          List.getElem?_eq_getElem within
        rw [found]
        have ascending : ∀ {left right : Nat} {leftItem rightItem : κ},
            items[left]? = some leftItem → items[right]? = some rightItem →
            left < right → leftItem < rightItem := by
          intro left right leftItem rightItem leftFound rightFound order
          obtain ⟨leftInside, rfl⟩ := List.getElem?_eq_some_iff.1 leftFound
          obtain ⟨rightInside, rfl⟩ := List.getElem?_eq_some_iff.1 rightFound
          exact List.pairwise_iff_getElem.1 sorted left right leftInside rightInside order
        by_cases below : items[first + length / 2] < value
        · simp only [below, if_true]
          apply lowerBound_splits sorted (by omega) (by omega)
          · intro index item at_ early
            rcases Nat.lt_or_ge index (first + length / 2) with lower | upper
            · exact Std.lt_trans (ascending at_ found lower) below
            · have same : index = first + length / 2 := by omega
              subst same
              rw [found] at at_
              cases at_
              exact below
          · intro index item at_ late
            exact after index item at_ (by omega)
        · simp only [below, if_false]
          apply lowerBound_splits sorted (by omega) (by omega) before
          intro index item at_ late
          rcases Nat.eq_or_lt_of_le late with same | upper
          · subst same
            rw [found] at at_
            cases at_
            exact below
          · intro small
            exact below (Std.lt_trans (ascending found at_ upper) small)

/-- On an ascending list bisection is membership. -/
theorem binarySearch_eq {items : List κ} (sorted : items.Pairwise (· < ·)) (value : κ) :
    binarySearch items value = true ↔ value ∈ items := by
  have splits : Splits items value (lowerBound items value items.length 0 items.length) := by
    apply lowerBound_splits sorted (Nat.le_refl _) (by omega)
    · intro index item _ impossible
      exact absurd impossible (Nat.not_lt_zero _)
    · intro index item found late
      have bound := (List.getElem?_eq_some_iff.1 found).1
      omega
  unfold binarySearch
  generalize lowerBound items value items.length 0 items.length = position at splits
  cases found : items[position]? with
  | none =>
      simp only [Bool.false_eq_true, false_iff]
      intro member
      obtain ⟨index, stands⟩ := List.mem_iff_getElem?.1 member
      have notBelow := (splits index value stands).not.1 Std.lt_irrefl
      have beyond := List.getElem?_eq_none_iff.1 found
      have inside := (List.getElem?_eq_some_iff.1 stands).1
      omega
  | some item =>
      have notBelow : ¬ item < value := by
        rw [splits position item found]
        omega
      simp only [Bool.not_eq_true', decide_eq_false_iff_not]
      constructor
      · intro notAbove
        have same : item = value :=
          Std.le_antisymm (Std.not_lt.1 notAbove) (Std.not_lt.1 notBelow)
        rw [← same]
        exact List.mem_of_getElem? found
      · intro member above
        obtain ⟨index, stands⟩ := List.mem_iff_getElem?.1 member
        have late := (splits index value stands).not.1 Std.lt_irrefl
        rcases Nat.eq_or_lt_of_le (Nat.not_lt.1 late) with same | upper
        · subst same
          rw [found] at stands
          cases stands
          exact Std.lt_irrefl above
        · obtain ⟨leftInside, rfl⟩ := List.getElem?_eq_some_iff.1 found
          obtain ⟨rightInside, rfl⟩ := List.getElem?_eq_some_iff.1 stands
          have order :=
            List.pairwise_iff_getElem.1 sorted position index leftInside rightInside upper
          exact Std.lt_irrefl (Std.lt_trans above order)

end Bisection

end Omniweft.Keyed
