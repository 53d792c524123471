import Omniweft.GltfWalk

/-!
# The scene of a GLB document

The roots are checked behind the walk over the nodes, and the bounds of the scene come from
a second walk that descends to the children. It checks nothing, and comes to an end since
the children are a forest.
-/

namespace Omniweft.Gltf

open Outcome

section Roots

variable {α : Type} [Scalar α] [Conversions α]

theorem roots_loop {parents : Parents} {count : Nat} (items : List (Json α)) :
    ∀ {selected all : List UInt32}, selected.Nodup →
      (∀ id ∈ selected, parents.of id.toNat = none) →
      items.foldlM (selectRoot parents count) selected = .ok all →
      ∃ ids, items.mapM (fun root => index root count) = .ok ids ∧ all = selected ++ ids ∧
        all.Nodup ∧ ∀ id ∈ all, parents.of id.toNat = none := by
  induction items with
  | nil =>
      intro selected all once tops ended
      cases ended
      exact ⟨[], rfl, (List.append_nil _).symm, once, tops⟩
  | cons item rest inductionHypothesis =>
      intro selected all once tops run
      rw [List.foldlM_cons, bind_eq_ok] at run
      obtain ⟨next, step, continued⟩ := run
      unfold selectRoot at step
      simp only [bind_eq_ok, pure_eq_ok, rejectIf_eq_ok, Bool.or_eq_false_iff,
        Option.isSome_eq_false_iff, Option.isNone_iff_eq_none] at step
      obtain ⟨id, read, _, ⟨top, fresh⟩, rfl⟩ := step
      have absent : id ∉ selected := by simpa using fresh
      have onceMore : (selected ++ [id]).Nodup :=
        List.nodup_append.mpr ⟨once, List.nodup_singleton _, fun other member last one => by
          rw [List.mem_singleton.mp one]
          rintro rfl
          exact absent member⟩
      have topsMore : ∀ other ∈ selected ++ [id], parents.of other.toNat = none := by
        intro other member
        rcases List.mem_append.mp member with old | new
        · exact tops other old
        · exact List.mem_singleton.mp new ▸ top
      obtain ⟨ids, reads, rfl, distinct, parentless⟩ :=
        inductionHypothesis onceMore topsMore continued
      refine ⟨id :: ids, ?_, by simp, distinct, parentless⟩
      rw [List.mapM_cons, read, reads]
      rfl

theorem roots_pass {parents : Parents} {count : Nat} (items : List (Json α)) :
    ∀ {selected ids : List UInt32}, items.mapM (fun root => index root count) = .ok ids →
      (selected ++ ids).Nodup → (∀ id ∈ ids, parents.of id.toNat = none) →
      items.foldlM (selectRoot parents count) selected = .ok (selected ++ ids) := by
  induction items with
  | nil =>
      intro selected ids read _ _
      have none : ids = [] := by
        cases read
        rfl
      rw [none, List.append_nil]
      rfl
  | cons item rest inductionHypothesis =>
      intro selected ids read once tops
      rw [List.mapM_cons] at read
      simp only [bind_eq_ok, pure_eq_ok] at read
      obtain ⟨id, first, others, reads, rfl⟩ := read
      have fresh : id ∉ selected := fun member =>
        (List.nodup_append.mp once).2.2 id member id List.mem_cons_self rfl
      have top := tops id List.mem_cons_self
      have step : selectRoot parents count selected item = .ok (selected ++ [id]) := by
        unfold selectRoot
        rw [first]
        change (do
          rejectIf ((parents.of id.toNat).isSome || selected.contains id)
            (ascii "INVALID_SCHEMA")
          return selected ++ [id]) = _
        rw [top, show selected.contains id = false by simpa using fresh]
        rfl
      have split : selected ++ id :: others = (selected ++ [id]) ++ others := by simp
      rw [split] at once ⊢
      rw [List.foldlM_cons, step]
      exact inductionHypothesis reads once fun other member =>
        tops other (List.mem_cons_of_mem _ member)

end Roots

section Descending

variable {α : Type} [Scalar α]

/-- The links from the parents to their children. -/
def Down (nodes : List (Node α)) (parent child : Nat) : Prop := Up nodes child parent

omit [Scalar α] in
theorem down_acyclic {nodes : List (Node α)} (acyclic : Forest.Acyclic (Up nodes)) :
    Forest.Acyclic (Down nodes) :=
  fun id cycle => acyclic id (Relation.transGen_swap.mp cycle)

/-- Without cycles a descent visits every node at most once, so its depth suffices. -/
theorem aggregateNode_passes {nodes : List (Node α)} (acyclic : Forest.Acyclic (Up nodes))
    (below : ∀ child parent, Up nodes child parent → child < nodes.length) (depth : Nat) :
    ∀ {passed : List Nat} {id : UInt32} (aggregate : Option (Bounds α)),
      Forest.Climb (Down nodes) passed id.toNat →
      (∀ item ∈ id.toNat :: passed, item < nodes.length) →
      passed.length + depth = nodes.length →
      ∃ result, aggregateNode nodes depth aggregate id = .ok result := by
  induction depth with
  | zero =>
      intro passed id aggregate descent inside total
      have short := descent.length_lt (down_acyclic acyclic) inside
      omega
  | succ depth inductionHypothesis =>
      intro passed id aggregate descent inside total
      have within : id.toNat < nodes.length := inside _ List.mem_cons_self
      have there : nodes[id.toNat]? = some nodes[id.toNat] := List.getElem?_eq_getElem within
      unfold aggregateNode
      rw [element_eq_ok there]
      refine foldlM_passes (fun child member state => ?_) _
      have link : Up nodes child.toNat id.toNat := ⟨_, there, child, member, rfl⟩
      refine inductionHypothesis state (descent.next (down_acyclic acyclic) link) ?_ ?_
      · intro item itemIn
        rcases List.mem_cons.mp itemIn with here | earlier
        · exact here ▸ below _ _ link
        · exact inside item earlier
      · rw [List.length_cons]
        omega

theorem aggregate_passes {nodes : List (Node α)} (acyclic : Forest.Acyclic (Up nodes))
    (below : ∀ child parent, Up nodes child parent → child < nodes.length)
    {roots : List UInt32} (inside : ∀ root ∈ roots, root.toNat < nodes.length) :
    ∃ result, roots.foldlM (aggregateNode nodes nodes.length) none = .ok result := by
  refine foldlM_passes (fun root member state => ?_) _
  refine aggregateNode_passes acyclic below _ state (Forest.Climb.start _ root.toNat) ?_ ?_
  · intro item itemIn
    rw [List.mem_singleton.mp itemIn]
    exact inside root member
  · exact Nat.zero_add _

end Descending

section Whole

variable {α : Type} [Scalar α] [Conversions α]

/-- What the declarations of the nodes give. -/
theorem describeAlone_all {count meshCount : Nat} (values : List (Json α)) :
    ∀ {declared : List (Node α)},
      values.mapM (describeAlone count meshCount) = .ok declared →
      declared.length = values.length ∧
        (∀ node ∈ declared, node.worldBounds = none) ∧
        ∀ node ∈ declared, ∀ number, node.mesh = some number → number.toNat < meshCount := by
  induction values with
  | nil =>
      intro declared read
      have none : declared = [] := by
        cases read
        rfl
      rw [none]
      simp
  | cons value rest inductionHypothesis =>
      intro declared read
      rw [List.mapM_cons] at read
      simp only [bind_eq_ok, pure_eq_ok] at read
      obtain ⟨first, alone, others, reads, rfl⟩ := read
      unfold describeAlone at alone
      simp only [bind_eq_ok, pure_eq_ok] at alone
      obtain ⟨node, described, _, _, _, _, rfl⟩ := alone
      obtain ⟨_, unbounded, meshed⟩ := describe_childless described
      obtain ⟨length, allUnbounded, allMeshed⟩ := inductionHypothesis reads
      refine ⟨congrArg Nat.succ length, ?_, ?_⟩
      · intro other member
        rcases List.mem_cons.mp member with here | later
        · exact here ▸ unbounded
        · exact allUnbounded other later
      · intro other member
        rcases List.mem_cons.mp member with here | later
        · exact here ▸ meshed
        · exact allMeshed other later

theorem indices_inside {count : Nat} (items : List (Json α)) :
    ∀ {ids : List UInt32}, items.mapM (fun item => index item count) = .ok ids →
      ∀ id ∈ ids, id.toNat < count := by
  induction items with
  | nil =>
      intro ids read id member
      cases read
      cases member
  | cons item rest inductionHypothesis =>
      intro ids read id member
      rw [List.mapM_cons] at read
      simp only [bind_eq_ok, pure_eq_ok] at read
      obtain ⟨first, firstRead, others, reads, rfl⟩ := read
      rcases List.mem_cons.mp member with here | later
      · exact here ▸ index_lt firstRead
      · exact inductionHypothesis reads id later

variable {meshes : List (Mesh α)}

/-- Every node has its matrix and its bounds. -/
structure AllSettled (meshes : List (Mesh α)) (declared : List (Node α)) (parents : Parents)
    (nodes : List (Node α)) : Prop where
  sized : nodes.length = declared.length
  settled : ∀ (id : Nat) result, nodes[id]? = some result →
    Settled meshes declared parents id result

omit [Conversions α] in
theorem Walked.allSettled {declared : List (Node α)} {parents : Parents} {walk : Walk α}
    (walked : Walked meshes declared parents walk)
    (all : ∀ id ∈ List.range declared.length, walk.marks[id]? = some .done) :
    AllSettled meshes declared parents walk.nodes where
  sized := walked.sized
  settled id result there := by
    have inside : id < declared.length := by
      rw [← walked.sized]
      exact (List.getElem?_eq_some_iff.mp there).1
    obtain ⟨other, found, settled⟩ := walked.done id (all id (List.mem_range.mpr inside))
    rw [Option.some.inj (there.symm.trans found)]
    exact settled

omit [Conversions α] in
theorem AllSettled.up {declared : List (Node α)} {parents : Parents} {nodes : List (Node α)}
    (settled : AllSettled meshes declared parents nodes) (child parent : Nat) :
    Up nodes child parent ↔ Up declared child parent := by
  constructor
  · rintro ⟨result, there, member⟩
    obtain ⟨node, _, _, found, _, _, shape⟩ := settled.settled parent result there
    rw [shape] at member
    exact ⟨node, found, member⟩
  · rintro ⟨node, there, member⟩
    have inside : parent < nodes.length := by
      rw [settled.sized]
      exact (List.getElem?_eq_some_iff.mp there).1
    have here := List.getElem?_eq_getElem inside
    obtain ⟨other, _, _, found, _, _, shape⟩ := settled.settled parent _ here
    refine ⟨_, here, ?_⟩
    rw [shape, ← Option.some.inj (there.symm.trans found)]
    exact member

omit [Conversions α] in
/-- Once all nodes are settled, the children are a forest. -/
theorem AllSettled.acyclic {declared : List (Node α)} {parents : Parents}
    {nodes : List (Node α)} (settled : AllSettled meshes declared parents nodes)
    (adopted : Adopted declared.length declared parents) : Forest.Acyclic (Up declared) := by
  intro id cycle
  obtain ⟨parent, link, _⟩ := Relation.TransGen.head'_iff.mp cycle
  have inside : id < nodes.length := by
    rw [settled.sized]
    exact adopted.child_lt link
  obtain ⟨_, _, _, _, world, _, _⟩ := settled.settled id _ (List.getElem?_eq_getElem inside)
  rw [← adopted.linked] at cycle
  exact world.acyclic cycle

/-- What `nodes` has established when it returns. -/
structure Established (meshes : List (Mesh α)) (declared : List (Node α)) (parents : Parents)
    (placed : Placed α) : Prop where
  adopted : Adopted declared.length declared parents
  settled : AllSettled meshes declared parents placed.nodes
  once : placed.roots.Nodup
  tops : ∀ root ∈ placed.roots, parents.of root.toNat = none
  inside : ∀ root ∈ placed.roots, root.toNat < declared.length
  aggregated : placed.roots.foldlM (aggregateNode placed.nodes placed.nodes.length) none =
    .ok (some placed.worldBounds)

theorem nodes_spec {input roots : Json α} {placed : Placed α}
    (run : nodes meshes input roots = .ok placed) :
    ∃ values declared parents items, array input 8 true = .ok values ∧
      values.mapM (describeAlone values.length meshes.length) = .ok declared ∧
      array roots 8 true = .ok items ∧
      items.mapM (fun root => index root values.length) = .ok placed.roots ∧
      Established meshes declared parents placed := by
  unfold nodes at run
  simp only [bind_eq_ok] at run
  obtain ⟨values, listed, graph, loop, walk, visits, items, rootsListed, selected, selects,
    aggregate, aggregated, ended⟩ := run
  obtain ⟨declared, reads, shape, adopted⟩ := declare_loop values (adopted_nil _) loop
  change graph.nodes = [] ++ declared at shape
  rw [List.nil_append] at shape
  obtain ⟨sized, unbounded, _⟩ := describeAlone_all values reads
  rw [shape] at adopted visits
  rw [← sized] at visits adopted
  obtain ⟨walked, all, _⟩ := visits_spec unbounded _ (walked_start meshes declared _) visits
  have settled := walked.allSettled all
  rw [walked.sized] at selects
  obtain ⟨ids, indices, rfl, once, tops⟩ :=
    roots_loop items List.nodup_nil (fun _ member => absurd member List.not_mem_nil) selects
  cases aggregate with
  | none => cases ended
  | some bounds =>
      cases ended
      refine ⟨values, declared, graph.parents, items, listed, reads, rootsListed, ?_, ?_⟩
      · rw [← sized]
        exact indices
      · exact ⟨adopted, settled, once, tops, indices_inside items indices, aggregated⟩

/-- The walks of `nodes` come to an end, and it reads nothing that is not there. -/
theorem nodes_coded (meshes : List (Mesh α)) (input roots : Json α) :
    Coded (nodes meshes input roots) := by
  unfold nodes
  refine fails_bind_ok (coded_array _ _ _) fun values _ => ?_
  refine fails_bind_ok (fails_foldlM (coded_declare _ _) _ _) fun graph loop => ?_
  obtain ⟨declared, reads, shape, adopted⟩ := declare_loop values (adopted_nil _) loop
  change graph.nodes = [] ++ declared at shape
  rw [List.nil_append] at shape
  obtain ⟨sized, unbounded, meshed⟩ := describeAlone_all values reads
  rw [shape, ← sized] at adopted ⊢
  have links : ∀ child parent, Linked graph.parents child parent → parent < declared.length := by
    intro child parent link
    rw [adopted.linked] at link
    exact link.inside
  have start := walked_start meshes declared graph.parents
  refine fails_bind_ok (visits_coded unbounded links meshed _
    (fun id member => List.mem_range.mp member) start) fun walk visits => ?_
  obtain ⟨walked, all, _⟩ := visits_spec unbounded _ start visits
  have settled := walked.allSettled all
  refine fails_bind_ok (coded_array _ _ _) fun items _ => ?_
  refine fails_bind_ok (fails_foldlM (coded_selectRoot _ _) _ _) fun selected selects => ?_
  obtain ⟨ids, indices, rfl, _, _⟩ :=
    roots_loop items List.nodup_nil (fun _ member => absurd member List.not_mem_nil) selects
  have acyclic : Forest.Acyclic (Up walk.nodes) :=
    (settled.acyclic adopted).mono fun child parent => (settled.up child parent).mp
  have below (child parent : Nat) (up : Up walk.nodes child parent) :
      child < walk.nodes.length := by
    rw [settled.sized]
    exact adopted.child_lt ((settled.up child parent).mp up)
  obtain ⟨aggregate, aggregated⟩ :=
    aggregate_passes acyclic below (indices_inside items indices)
  rw [aggregated]
  cases aggregate with
  | none => exact coded_error (by decide)
  | some bounds => exact fails_ok _

/-- In a forest whose nodes can be placed only a scene without bounds is refused. -/
theorem nodes_pass {input roots : Json α} {values items : List (Json α)}
    {declared : List (Node α)} {wanted : List UInt32} (listing : array input 8 true = .ok values)
    (reads : values.mapM (describeAlone values.length meshes.length) = .ok declared)
    (rootsListed : array roots 8 true = .ok items)
    (indices : items.mapM (fun root => index root values.length) = .ok wanted)
    (once : (listed declared).Nodup) (acyclic : Forest.Acyclic (Up declared))
    (distinct : wanted.Nodup) (tops : ∀ root ∈ wanted, ∀ parent, ¬Up declared root.toNat parent)
    (passable : ∀ parents, Linked parents = Up declared → Passable meshes declared parents) :
    ∃ parents nodes aggregate, Adopted declared.length declared parents ∧
      AllSettled meshes declared parents nodes ∧
      wanted.foldlM (aggregateNode nodes nodes.length) none = .ok aggregate ∧
      Gltf.nodes meshes input roots =
        match aggregate with
        | none => .error (ascii "UNSUPPORTED_PROFILE")
        | some bounds => .ok ⟨nodes, wanted, bounds⟩ := by
  obtain ⟨sized, unbounded, _⟩ := describeAlone_all values reads
  obtain ⟨graph, loop⟩ := @declare_passes α _ _ values.length meshes.length values
    ⟨List.replicate values.length none, []⟩ declared (adopted_nil _) reads once
  obtain ⟨again, readsAgain, shape, adopted⟩ := declare_loop values (adopted_nil _) loop
  rw [reads] at readsAgain
  cases readsAgain
  change graph.nodes = [] ++ declared at shape
  rw [List.nil_append] at shape
  rw [shape, ← sized] at adopted
  have linked := adopted.linked
  have start := walked_start meshes declared graph.parents
  have unopened (other : Nat) :
      (List.replicate declared.length Mark.fresh)[other]? ≠ some .open := by
    rw [List.getElem?_replicate]
    by_cases inside : other < declared.length
    · simp [inside]
    · simp [inside]
  obtain ⟨walk, visits⟩ := visits_pass unbounded (linked ▸ acyclic)
    (passable graph.parents linked) (List.range declared.length)
    (fun id member => List.mem_range.mp member) start unopened
  obtain ⟨walked, all, _⟩ := visits_spec unbounded _ start visits
  have settled := walked.allSettled all
  have parentless : ∀ id ∈ wanted, graph.parents.of id.toNat = none := by
    intro id member
    cases found : graph.parents.of id.toNat with
    | none => rfl
    | some parent => exact absurd ((adopted.parent _ _).mp found) (tops id member parent)
  have selects := @roots_pass α _ _ graph.parents values.length items [] wanted indices distinct
    parentless
  have acyclicNodes : Forest.Acyclic (Up walk.nodes) :=
    acyclic.mono fun child parent => (settled.up child parent).mp
  have below (child parent : Nat) (up : Up walk.nodes child parent) :
      child < walk.nodes.length := by
    rw [settled.sized]
    exact adopted.child_lt ((settled.up child parent).mp up)
  have inside : ∀ root ∈ wanted, root.toNat < walk.nodes.length := by
    rw [settled.sized, sized]
    exact indices_inside items indices
  obtain ⟨aggregate, aggregated⟩ := aggregate_passes acyclicNodes below inside
  refine ⟨graph.parents, walk.nodes, aggregate, adopted, settled, aggregated, ?_⟩
  unfold nodes
  rw [listing]
  change (do
    let graph ← values.foldlM (declare values.length meshes.length)
      ⟨List.replicate values.length none, []⟩
    let walk ← (List.range graph.nodes.length).foldlM
      (fun walk id => visit graph.parents meshes id walk)
      ⟨List.replicate values.length .fresh, graph.nodes⟩
    let listed ← array roots 8 true
    let selected ← listed.foldlM (selectRoot graph.parents walk.nodes.length) []
    let aggregate ← selected.foldlM (aggregateNode walk.nodes walk.nodes.length) none
    match aggregate with
    | none => .error (ascii "UNSUPPORTED_PROFILE")
    | some bounds => .ok (⟨walk.nodes, selected, bounds⟩ : Placed α)) = _
  rw [loop]
  change (do
    let walk ← (List.range graph.nodes.length).foldlM
      (fun walk id => visit graph.parents meshes id walk)
      ⟨List.replicate values.length .fresh, graph.nodes⟩
    let listed ← array roots 8 true
    let selected ← listed.foldlM (selectRoot graph.parents walk.nodes.length) []
    let aggregate ← selected.foldlM (aggregateNode walk.nodes walk.nodes.length) none
    match aggregate with
    | none => .error (ascii "UNSUPPORTED_PROFILE")
    | some bounds => .ok (⟨walk.nodes, selected, bounds⟩ : Placed α)) = _
  rw [shape, ← sized, visits, rootsListed]
  change (do
    let selected ← items.foldlM (selectRoot graph.parents walk.nodes.length) []
    let aggregate ← selected.foldlM (aggregateNode walk.nodes walk.nodes.length) none
    match aggregate with
    | none => .error (ascii "UNSUPPORTED_PROFILE")
    | some bounds => .ok (⟨walk.nodes, selected, bounds⟩ : Placed α)) = _
  rw [walked.sized, sized, selects, List.nil_append]
  change (do
    let aggregate ← wanted.foldlM (aggregateNode walk.nodes _) none
    match aggregate with
    | none => .error (ascii "UNSUPPORTED_PROFILE")
    | some bounds => .ok (⟨walk.nodes, wanted, bounds⟩ : Placed α)) = _
  rw [settled.sized, sized] at aggregated
  rw [aggregated]
  rfl

end Whole

end Omniweft.Gltf
