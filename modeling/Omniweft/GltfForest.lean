import Omniweft.GltfBuffers
import Omniweft.Library.Forest

/-!
# The nodes of a GLB document

What `nodes` refuses, by its codes, and the declarations that it reads: the children that
the nodes list are a relation, and the array of parents is the same relation when every
node is listed once.
-/

namespace Omniweft.Gltf

open Outcome

/-- The computation stops with a code of the source, or not at all. -/
abbrev Coded {β : Type} (computation : Except Text β) : Prop :=
  Fails (· ≠ outOfRange) computation

section Codes

variable {α : Type} [Scalar α]

theorem coded_reject {code : Text} (condition : Bool) (some : code ≠ outOfRange) :
    Coded (rejectIf condition code) :=
  fails_rejectIf condition some

theorem coded_error {β : Type} {code : Text} (some : code ≠ outOfRange) :
    Coded (.error code : Except Text β) :=
  fails_error some

omit [Scalar α] in
theorem coded_text (value : Json α) : Coded (text value) := by
  unfold text
  cases value with
  | string characters =>
      exact fails_bind (coded_reject _ (by decide)) fun _ => fails_pure _
  | _ => exact coded_error (by decide)

omit [Scalar α] in
theorem coded_optional {β : Type} {value : Json α} {member : Text}
    {read : Json α → Except Text β} (coded : ∀ found, Coded (read found)) :
    Coded (optional value member read) := by
  unfold optional
  by_cases there : value.contains member = true
  · rw [if_pos there]
    exact fails_bind (coded _) fun _ => fails_pure _
  · rw [if_neg there]
    exact fails_pure _

omit [Scalar α] in
theorem coded_name (value : Json α) : Coded (name value) :=
  fails_bind (coded_optional coded_text) fun _ => fails_pure _

omit [Scalar α] in
theorem coded_fields (value : Json α) (allowed required : List Text) :
    Coded (fields value allowed required) := by
  unfold fields
  cases value with
  | object entries =>
      refine fails_bind (fails_forM fun entry _ => ?_) fun _ => coded_reject _ (by decide)
      unfold field
      by_cases extras : (entry.1 == ascii "extras") = true
      · rw [if_pos extras]
        exact fails_ok _
      rw [if_neg extras]
      by_cases extensions : (entry.1 == ascii "extensions") = true
      · rw [if_pos extensions]
        cases entry.2 with
        | object found => exact coded_reject _ (by decide)
        | _ => exact coded_error (by decide)
      · rw [if_neg extensions]
        exact coded_reject _ (by decide)
  | _ => exact coded_error (by decide)

omit [Scalar α] in
theorem coded_array (value : Json α) (maximum : Nat) (nonempty : Bool) :
    Coded (array value maximum nonempty) := by
  unfold array
  cases value with
  | array items =>
      exact fails_bind (coded_reject _ (by decide)) fun _ =>
        fails_bind (coded_reject _ (by decide)) fun _ => fails_pure _
  | _ => exact coded_error (by decide)

theorem coded_number (value : Json α) : Coded (number value) := by
  unfold number
  cases value.numeral with
  | none => exact coded_error (by decide)
  | some result => exact fails_bind (coded_reject _ (by decide)) fun _ => fails_pure _

theorem coded_vector3 (value : Json α) : Coded (vector3 value) := by
  unfold vector3
  split
  · exact fails_bind (coded_number _) fun _ => fails_bind (coded_number _) fun _ =>
      fails_bind (coded_number _) fun _ => fails_pure _
  · exact coded_error (by decide)

theorem coded_vector4 (value : Json α) : Coded (vector4 value) := by
  unfold vector4
  split
  · exact fails_bind (coded_number _) fun _ => fails_bind (coded_number _) fun _ =>
      fails_bind (coded_number _) fun _ => fails_bind (coded_number _) fun _ => fails_pure _
  · exact coded_error (by decide)

theorem coded_localOf (node : Node α) : Coded (localOf node) :=
  fails_bind (coded_reject _ (by decide)) fun _ =>
    fails_bind (coded_reject _ (by decide)) fun _ =>
      fails_bind (coded_reject _ (by decide)) fun _ => fails_pure _

theorem coded_multiply (left right : Mat4 α) : Coded (multiply left right) :=
  fails_bind (coded_reject _ (by decide)) fun _ => fails_pure _

theorem coded_transform (matrix : Mat4 α) (value : Vec3 α) : Coded (transform matrix value) := by
  have each (row : Fin 4) : Coded (moved matrix value row) :=
    fails_bind (coded_reject _ (by decide)) fun _ =>
      fails_bind (coded_reject _ (by decide)) fun _ => fails_pure _
  exact fails_bind (each 0) fun _ => fails_bind (each 1) fun _ =>
    fails_bind (each 2) fun _ => fails_pure _

theorem coded_extend (matrix : Mat4 α) (bounds : Option (Bounds α)) (vertex : Vec3 α) :
    Coded (extend matrix bounds vertex) :=
  fails_bind (coded_transform _ _) fun _ => fails_pure _

variable [Conversions α]

theorem coded_integer (value : Json α) : Coded (integer value) := by
  unfold integer
  split
  · exact fails_bind (coded_reject _ (by decide)) fun _ => fails_pure _
  · cases value.numeral with
    | none => exact coded_error (by decide)
    | some number =>
        exact fails_bind (coded_reject _ (by decide)) fun _ =>
          fails_bind (coded_reject _ (by decide)) fun _ => fails_pure _

theorem coded_index (value : Json α) (count : Nat) : Coded (index value count) :=
  fails_bind (coded_integer _) fun _ =>
    fails_bind (coded_reject _ (by decide)) fun _ => fails_pure _

theorem coded_describe (meshCount : Nat) (value : Json α) : Coded (describe meshCount value) :=
  fails_bind (coded_fields _ _ _) fun _ => fails_bind (coded_name _) fun _ =>
    fails_bind (coded_optional fun _ => coded_index _ _) fun _ =>
      fails_bind (coded_optional coded_vector3) fun _ =>
        fails_bind (coded_optional coded_vector4) fun _ =>
          fails_bind (coded_optional coded_vector3) fun _ => coded_localOf _

theorem coded_declare (count meshCount : Nat) (graph : Graph α) (value : Json α) :
    Coded (declare count meshCount graph value) := by
  refine fails_bind (coded_describe _ _) fun _ => fails_bind ?_ fun _ =>
    fails_bind (fails_foldlM (fun state item => ?_) _ _) fun _ => fails_pure _
  · exact fails_bind (coded_optional fun _ => coded_array _ _ _) fun _ => fails_pure _
  · exact fails_bind (coded_index _ _) fun _ =>
      fails_bind (coded_reject _ (by decide)) fun _ => fails_pure _

theorem coded_selectRoot (parents : Parents) (count : Nat) (selected : List UInt32)
    (root : Json α) : Coded (selectRoot parents count selected root) :=
  fails_bind (coded_index _ _) fun _ =>
    fails_bind (coded_reject _ (by decide)) fun _ => fails_pure _

end Codes

section Declarations

variable {α : Type}

/-- `child` stands among the children of `parent`. -/
def Up (declared : List (Node α)) (child parent : Nat) : Prop :=
  ∃ node, declared[parent]? = some node ∧ ∃ id ∈ node.children, id.toNat = child

/-- All children, in the order they are listed. -/
def listed (declared : List (Node α)) : List UInt32 := declared.flatMap Node.children

theorem up_unique {declared : List (Node α)} (once : (listed declared).Nodup) :
    Forest.Unique (Up declared) := by
  induction declared with
  | nil =>
      rintro child first second ⟨node, there, _⟩
      simp at there
  | cons head rest inductionHypothesis =>
      have split : (head.children ++ listed rest).Nodup := once
      obtain ⟨_, restOnce, apart⟩ := List.nodup_append.mp split
      rintro child first second ⟨one, oneThere, id, idIn, idNamed⟩
        ⟨two, twoThere, other, otherIn, otherNamed⟩
      have same : id = other := UInt32.toNat_inj.1 (idNamed.trans otherNamed.symm)
      subst same
      cases first with
      | zero =>
          rw [List.getElem?_cons_zero, Option.some.injEq] at oneThere
          cases second with
          | zero => rfl
          | succ second =>
              rw [List.getElem?_cons_succ] at twoThere
              have below : id ∈ listed rest :=
                List.mem_flatMap.mpr ⟨two, List.mem_of_getElem? twoThere, otherIn⟩
              exact absurd rfl (apart id (oneThere ▸ idIn) id below)
      | succ first =>
          rw [List.getElem?_cons_succ] at oneThere
          have below : id ∈ listed rest :=
            List.mem_flatMap.mpr ⟨one, List.mem_of_getElem? oneThere, idIn⟩
          cases second with
          | zero =>
              rw [List.getElem?_cons_zero, Option.some.injEq] at twoThere
              exact absurd rfl (apart id (twoThere ▸ otherIn) id below)
          | succ second =>
              rw [List.getElem?_cons_succ] at twoThere
              exact congrArg Nat.succ (inductionHypothesis restOnce child first second
                ⟨one, oneThere, id, idIn, idNamed⟩ ⟨two, twoThere, id, otherIn, otherNamed⟩)

theorem up_snoc (declared : List (Node α)) (node : Node α) (child parent : Nat) :
    Up (declared ++ [node]) child parent ↔
      Up declared child parent ∨
        parent = declared.length ∧ ∃ id ∈ node.children, id.toNat = child := by
  constructor
  · rintro ⟨found, there, childIn⟩
    by_cases old : parent < declared.length
    · rw [List.getElem?_append_left old] at there
      exact Or.inl ⟨found, there, childIn⟩
    · have last : parent = declared.length := by
        have short := (List.getElem?_eq_some_iff.mp there).1
        rw [List.length_append, List.length_singleton] at short
        omega
      rw [last, List.getElem?_concat_length, Option.some.injEq] at there
      exact Or.inr ⟨last, there ▸ childIn⟩
  · rintro (⟨found, there, childIn⟩ | ⟨rfl, childIn⟩)
    · refine ⟨found, ?_, childIn⟩
      rw [List.getElem?_append_left (List.getElem?_eq_some_iff.mp there).1]
      exact there
    · exact ⟨node, List.getElem?_concat_length, childIn⟩

/-- The parents that the loop over the declarations has found. -/
structure Adopted (count : Nat) (declared : List (Node α)) (parents : Parents) : Prop where
  sized : parents.length = count
  parent : ∀ child parent, parents.of child = some parent ↔ Up declared child parent
  once : (listed declared).Nodup
  below : ∀ id ∈ listed declared, id.toNat < count

theorem Adopted.isSome {count : Nat} {declared : List (Node α)} {parents : Parents}
    (adopted : Adopted count declared parents) (id : UInt32) :
    (parents.of id.toNat).isSome = true ↔ id ∈ listed declared := by
  rw [Option.isSome_iff_exists]
  constructor
  · rintro ⟨parent, found⟩
    obtain ⟨node, there, other, otherIn, same⟩ := (adopted.parent _ _).mp found
    rw [← UInt32.toNat_inj.1 same]
    exact List.mem_flatMap.mpr ⟨node, List.mem_of_getElem? there, otherIn⟩
  · intro member
    obtain ⟨node, nodeIn, idIn⟩ := List.mem_flatMap.mp member
    obtain ⟨parent, there⟩ := List.getElem?_of_mem nodeIn
    exact ⟨parent, (adopted.parent _ _).mpr ⟨node, there, id, idIn, rfl⟩⟩

theorem adopted_nil (count : Nat) : @Adopted α count [] (List.replicate count none) where
  sized := List.length_replicate
  parent child parent := by
    constructor
    · intro found
      unfold Parents.of at found
      rw [List.getElem?_replicate] at found
      by_cases inside : child < count
      · simp [inside] at found
      · simp [inside] at found
    · rintro ⟨node, there, _⟩
      simp at there
  once := List.nodup_nil
  below id member := by cases member

theorem listed_snoc (declared : List (Node α)) (node : Node α) :
    listed (declared ++ [node]) = listed declared ++ node.children := by
  simp [listed]

theorem Adopted.childless {count : Nat} {declared : List (Node α)} {parents : Parents}
    (adopted : Adopted count declared parents) {node : Node α} (none : node.children = []) :
    Adopted count (declared ++ [node]) parents where
  sized := adopted.sized
  parent child parent := by
    rw [adopted.parent, up_snoc, none]
    simp
  once := by
    rw [listed_snoc, none, List.append_nil]
    exact adopted.once
  below := by
    rw [listed_snoc, none, List.append_nil]
    exact adopted.below

/-- One more child of the last node. -/
theorem Adopted.next {count : Nat} {declared : List (Node α)} {parents : Parents}
    {node : Node α} {children : List UInt32} {id : UInt32}
    (adopted : Adopted count (declared ++ [{ node with children := children }]) parents)
    (inside : id.toNat < count)
    (fresh : id ∉ listed (declared ++ [{ node with children := children }])) :
    Adopted count (declared ++ [{ node with children := children ++ [id] }])
      (parents.set id.toNat (some declared.length)) where
  sized := by
    rw [List.length_set]
    exact adopted.sized
  parent child parent := by
    have old := adopted.parent child parent
    rw [up_snoc] at old ⊢
    have set : Parents.of (parents.set id.toNat (some declared.length)) child =
        if id.toNat = child then some declared.length else parents.of child := by
      unfold Parents.of
      rw [List.getElem?_set]
      by_cases here : id.toNat = child
      · have within : id.toNat < parents.length := by
          rw [adopted.sized]
          exact inside
        simp [here, here ▸ within]
      · simp [here]
    rw [set]
    by_cases here : id.toNat = child
    · rw [if_pos here, Option.some.injEq]
      constructor
      · intro same
        exact Or.inr ⟨same.symm, id, List.mem_append_right _ (List.mem_singleton_self _), here⟩
      · rintro (⟨found, there, other, otherIn, same⟩ | ⟨last, _⟩)
        · refine absurd ?_ fresh
          rw [listed_snoc, ← UInt32.toNat_inj.1 (same.trans here.symm)]
          exact List.mem_append_left _
            (List.mem_flatMap.mpr ⟨found, List.mem_of_getElem? there, otherIn⟩)
        · exact last.symm
    · rw [if_neg here, old]
      refine or_congr_right (and_congr_right fun _ => ?_)
      constructor
      · rintro ⟨other, otherIn, same⟩
        exact ⟨other, List.mem_append_left _ otherIn, same⟩
      · rintro ⟨other, otherIn, same⟩
        rcases List.mem_append.mp otherIn with earlier | last
        · exact ⟨other, earlier, same⟩
        · exact absurd (List.mem_singleton.mp last ▸ same) here
  once := by
    have before := adopted.once
    rw [listed_snoc] at before fresh ⊢
    change (listed declared ++ (children ++ [id])).Nodup
    rw [← List.append_assoc]
    exact List.nodup_append.mpr ⟨before, List.nodup_singleton _, fun other member last one => by
      rw [List.mem_singleton.mp one]
      rintro rfl
      exact fresh member⟩
  below := by
    intro other member
    rw [listed_snoc] at member
    change other ∈ listed declared ++ (children ++ [id]) at member
    rw [← List.append_assoc] at member
    rcases List.mem_append.mp member with earlier | last
    · refine adopted.below other ?_
      rw [listed_snoc]
      exact earlier
    · exact List.mem_singleton.mp last ▸ inside

/-- The links of the parents. -/
def Linked (parents : Parents) (child parent : Nat) : Prop := parents.of child = some parent

theorem linked_unique (parents : Parents) : Forest.Unique (Linked parents) :=
  fun _ _ _ one two => Option.some.inj (Eq.trans (Eq.symm one) two)

theorem Adopted.linked {count : Nat} {declared : List (Node α)} {parents : Parents}
    (adopted : Adopted count declared parents) : Linked parents = Up declared :=
  funext fun child => funext fun parent => propext (adopted.parent child parent)

theorem Up.inside {declared : List (Node α)} {child parent : Nat}
    (up : Up declared child parent) : parent < declared.length := by
  obtain ⟨_, there, _⟩ := up
  exact (List.getElem?_eq_some_iff.mp there).1

theorem Adopted.child_lt {count : Nat} {declared : List (Node α)} {parents : Parents}
    (adopted : Adopted count declared parents) {child parent : Nat}
    (up : Up declared child parent) : child < count := by
  obtain ⟨node, there, id, member, rfl⟩ := up
  exact adopted.below id (List.mem_flatMap.mpr ⟨node, List.mem_of_getElem? there, member⟩)

end Declarations

section Declaring

variable {α : Type} [Scalar α] [Conversions α]

/-- A node as its own members describe it, with its children. -/
def describeAlone (count meshCount : Nat) (value : Json α) : Except Text (Node α) := do
  let node ← describe meshCount value
  let items ← childItems value
  let children ← items.mapM fun child => index child count
  return { node with children := children }

/-- The inner loop keeps the children, each of which is adopted for the first time. -/
theorem adopt_loop {count : Nat} {declared : List (Node α)} {node : Node α}
    (items : List (Json α)) :
    ∀ {children all : List UInt32} {parents after : Parents},
      Adopted count (declared ++ [{ node with children := children }]) parents →
      items.foldlM (adopt count declared.length) (parents, children) = .ok (after, all) →
      ∃ ids, items.mapM (fun child => index child count) = .ok ids ∧ all = children ++ ids ∧
        Adopted count (declared ++ [{ node with children := all }]) after := by
  induction items with
  | nil =>
      intro children all parents after adopted ended
      cases ended
      exact ⟨[], rfl, (List.append_nil _).symm, adopted⟩
  | cons item rest inductionHypothesis =>
      intro children all parents after adopted run
      rw [List.foldlM_cons, bind_eq_ok] at run
      obtain ⟨next, step, continued⟩ := run
      unfold adopt at step
      simp only [bind_eq_ok, pure_eq_ok, rejectIf_eq_ok] at step
      obtain ⟨id, read, _, free, rfl⟩ := step
      have fresh : id ∉ listed (declared ++ [{ node with children := children }]) := by
        intro member
        rw [(adopted.isSome id).mpr member] at free
        cases free
      obtain ⟨ids, reads, rfl, ended⟩ :=
        inductionHypothesis (adopted.next (index_lt read) fresh) continued
      refine ⟨id :: ids, ?_, by simp, ended⟩
      rw [List.mapM_cons, read, reads]
      rfl

/-- Children that nobody has listed are adopted. -/
theorem adopt_passes {count : Nat} {declared : List (Node α)} {node : Node α}
    (items : List (Json α)) :
    ∀ {children ids : List UInt32} {parents : Parents},
      Adopted count (declared ++ [{ node with children := children }]) parents →
      items.mapM (fun child => index child count) = .ok ids →
      (listed declared ++ (children ++ ids)).Nodup →
      ∃ after, items.foldlM (adopt count declared.length) (parents, children) =
        .ok (after, children ++ ids) := by
  induction items with
  | nil =>
      intro children ids parents adopted read _
      have none : ids = [] := by
        cases read
        rfl
      rw [none, List.append_nil]
      exact ⟨parents, rfl⟩
  | cons item rest inductionHypothesis =>
      intro children ids parents adopted read once
      rw [List.mapM_cons] at read
      simp only [bind_eq_ok, pure_eq_ok] at read
      obtain ⟨id, first, others, reads, rfl⟩ := read
      have fresh : id ∉ listed (declared ++ [{ node with children := children }]) := by
        rw [listed_snoc]
        change id ∉ listed declared ++ children
        rw [← List.append_assoc] at once
        exact fun member => (List.nodup_append.mp once).2.2 id member id List.mem_cons_self rfl
      have free : (parents.of id.toNat).isSome = false := by
        by_contra taken
        rw [Bool.not_eq_false] at taken
        exact fresh ((adopted.isSome id).mp taken)
      have split : children ++ id :: others = (children ++ [id]) ++ others := by simp
      rw [split] at once ⊢
      obtain ⟨after, run⟩ :=
        inductionHypothesis (adopted.next (index_lt first) fresh) reads once
      refine ⟨after, ?_⟩
      rw [List.foldlM_cons]
      have step : adopt count declared.length (parents, children) item =
          .ok (parents.set id.toNat (some declared.length), children ++ [id]) := by
        unfold adopt
        rw [first]
        change (do
          rejectIf (parents.of id.toNat).isSome (ascii "INVALID_SCHEMA")
          return (parents.set id.toNat (some declared.length), children ++ [id])) = _
        rw [free]
        rfl
      rw [step]
      exact run

omit [Scalar α] [Conversions α] in
theorem listed_append (left right : List (Node α)) :
    listed (left ++ right) = listed left ++ listed right := by
  simp [listed]

theorem describe_childless {meshCount : Nat} {value : Json α} {node : Node α}
    (read : describe meshCount value = .ok node) :
    node.children = [] ∧ node.worldBounds = none ∧
      ∀ number, node.mesh = some number → number.toNat < meshCount := by
  unfold describe localOf at read
  simp only [bind_eq_ok, pure_eq_ok] at read
  obtain ⟨_, _, _, _, mesh, meshRead, _, _, _, _, _, _, _, _, _, _, _, _, rfl⟩ := read
  refine ⟨rfl, rfl, ?_⟩
  intro number some
  change mesh = _ at some
  rw [some] at meshRead
  exact index_lt (optional_eq_some meshRead)

/-- What the loop over the declarations has read. -/
theorem declare_loop {count meshCount : Nat} (values : List (Json α)) :
    ∀ {graph final : Graph α}, Adopted count graph.nodes graph.parents →
      values.foldlM (declare count meshCount) graph = .ok final →
      ∃ after, values.mapM (describeAlone count meshCount) = .ok after ∧
        final.nodes = graph.nodes ++ after ∧ Adopted count final.nodes final.parents := by
  induction values with
  | nil =>
      intro graph final adopted ended
      cases ended
      exact ⟨[], rfl, (List.append_nil _).symm, adopted⟩
  | cons value rest inductionHypothesis =>
      intro graph final adopted run
      rw [List.foldlM_cons, bind_eq_ok] at run
      obtain ⟨next, step, continued⟩ := run
      unfold declare at step
      simp only [bind_eq_ok, pure_eq_ok] at step
      obtain ⟨node, described, items, itemsRead, ⟨parents, children⟩, loop, rfl⟩ := step
      have start : Adopted count (graph.nodes ++ [{ node with children := [] }]) graph.parents :=
        adopted.childless rfl
      obtain ⟨ids, reads, same, ended⟩ := adopt_loop items start loop
      rw [List.nil_append] at same
      subst same
      obtain ⟨after, others, shape, last⟩ := inductionHypothesis ended continued
      refine ⟨{ node with children := children } :: after, ?_, ?_, last⟩
      · rw [List.mapM_cons, others]
        have alone : describeAlone count meshCount value =
            .ok { node with children := children } := by
          unfold describeAlone
          rw [described, itemsRead]
          change (do
            let children ← items.mapM fun child => index child count
            return { node with children := children }) = _
          rw [reads]
          rfl
        rw [alone]
        rfl
      · rw [shape]
        simp

theorem declare_passes {count meshCount : Nat} (values : List (Json α)) :
    ∀ {graph : Graph α} {after : List (Node α)}, Adopted count graph.nodes graph.parents →
      values.mapM (describeAlone count meshCount) = .ok after →
      (listed (graph.nodes ++ after)).Nodup →
      ∃ final, values.foldlM (declare count meshCount) graph = .ok final := by
  induction values with
  | nil =>
      intro graph after _ _ _
      exact ⟨graph, rfl⟩
  | cons value rest inductionHypothesis =>
      intro graph after adopted read once
      rw [List.mapM_cons] at read
      simp only [bind_eq_ok, pure_eq_ok] at read
      obtain ⟨first, alone, others, reads, rfl⟩ := read
      unfold describeAlone at alone
      simp only [bind_eq_ok, pure_eq_ok] at alone
      obtain ⟨node, described, items, itemsRead, ids, idsRead, rfl⟩ := alone
      have start : Adopted count (graph.nodes ++ [{ node with children := [] }]) graph.parents :=
        adopted.childless rfl
      have part : (listed graph.nodes ++ ([] ++ ids)).Nodup := by
        rw [listed_append] at once
        change (listed graph.nodes ++ (ids ++ listed others)).Nodup at once
        rw [← List.append_assoc] at once
        exact (List.nodup_append.mp once).1
      obtain ⟨parents, run⟩ := adopt_passes items start idsRead part
      obtain ⟨_, idsAgain, _, ended⟩ := adopt_loop items start run
      rw [List.nil_append] at ended run
      have split : graph.nodes ++ { node with children := ids } :: others =
          (graph.nodes ++ [{ node with children := ids }]) ++ others := by simp
      rw [split] at once
      obtain ⟨final, whole⟩ := @inductionHypothesis
        ⟨parents, graph.nodes ++ [{ node with children := ids }]⟩ others ended reads once
      refine ⟨final, ?_⟩
      rw [List.foldlM_cons]
      have step : declare count meshCount graph value =
          .ok ⟨parents, graph.nodes ++ [{ node with children := ids }]⟩ := by
        unfold declare
        exact bind_eq_ok.mpr ⟨node, described,
          bind_eq_ok.mpr ⟨items, itemsRead, bind_eq_ok.mpr ⟨(parents, ids), run, rfl⟩⟩⟩
      rw [step]
      exact whole

end Declaring

end Omniweft.Gltf
