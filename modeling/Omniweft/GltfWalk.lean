import Omniweft.GltfForest

/-!
# The walk over the nodes

World matrices come from a walk that climbs to the parents. It finds the cycles, so that
behind it the children are a forest.
-/

namespace Omniweft.Gltf

open Outcome

section Climbing

variable {α : Type} [Scalar α]

/-- A walk whose node is open. -/
def Walk.opened (walk : Walk α) (id : Nat) : Walk α :=
  { walk with marks := walk.marks.set id .open }

theorem visit_done (parents : Parents) (meshes : List (Mesh α)) {id : Nat} {walk : Walk α}
    (done : walk.marks[id]? = some .done) : visit parents meshes id walk = .ok walk := by
  rw [visit]
  split
  · rename_i mark
    rw [done] at mark
    cases mark
  · rename_i mark
    rw [done] at mark
    cases mark
  · rfl
  · rename_i mark
    rw [done] at mark
    cases mark

theorem visit_open (parents : Parents) (meshes : List (Mesh α)) {id : Nat} {walk : Walk α}
    (opened : walk.marks[id]? = some .open) :
    visit parents meshes id walk = .error (ascii "INVALID_SCHEMA") := by
  rw [visit]
  split
  · rename_i mark
    rw [opened] at mark
    cases mark
  · rfl
  · rename_i mark
    rw [opened] at mark
    cases mark
  · rename_i mark
    rw [opened] at mark
    cases mark

/-- A fresh node without a parent. -/
theorem visit_top {parents : Parents} (meshes : List (Mesh α)) {id : Nat} {walk : Walk α}
    (fresh : walk.marks[id]? = some .fresh) (top : parents.of id = none) :
    visit parents meshes id walk = (do
      let node ← element walk.nodes id
      settle meshes id node.localMatrix (walk.opened id)) := by
  rw [visit]
  split
  · rename_i mark
    rw [fresh] at mark
    cases mark
  · rename_i mark
    rw [fresh] at mark
    cases mark
  · rename_i mark
    rw [fresh] at mark
    cases mark
  · simp only [top]
    rfl

/-- A fresh node below a parent. -/
theorem visit_below {parents : Parents} (meshes : List (Mesh α)) {id parent : Nat}
    {walk : Walk α} (fresh : walk.marks[id]? = some .fresh)
    (below : parents.of id = some parent) :
    visit parents meshes id walk = (do
      let climbed ← visit parents meshes parent (walk.opened id)
      let node ← element climbed.nodes id
      let above ← element climbed.nodes parent
      let matrix ← multiply above.worldMatrix node.localMatrix
      settle meshes id matrix climbed) := by
  rw [visit]
  split
  · rename_i mark
    rw [fresh] at mark
    cases mark
  · rename_i mark
    rw [fresh] at mark
    cases mark
  · rename_i mark
    rw [fresh] at mark
    cases mark
  · simp only [below]
    rfl

/-- The world matrix that a node has from the nodes above it. -/
inductive World (declared : List (Node α)) (parents : Parents) : Nat → Mat4 α → Prop
  | top {id : Nat} {node : Node α} : declared[id]? = some node → parents.of id = none →
      World declared parents id node.localMatrix
  | child {id parent : Nat} {node : Node α} {above matrix : Mat4 α} :
      declared[id]? = some node → parents.of id = some parent →
      World declared parents parent above → multiply above node.localMatrix = .ok matrix →
      World declared parents id matrix

variable {declared : List (Node α)} {parents : Parents}

/-- What `settle` asks of a node and its matrix. -/
structure Placeable (meshes : List (Mesh α)) (node : Node α) (matrix : Mat4 α)
    (bounds : Option (Bounds α)) : Prop where
  origin : ∃ point,
    transform matrix ⟨Scalar.ofInt 0, Scalar.ofInt 0, Scalar.ofInt 0⟩ = .ok point
  drawn : ∃ positions, vertices meshes node = .ok positions ∧
    positions.foldlM (extend matrix) none = .ok bounds

/-- A node that has its matrix and its bounds. -/
def Settled (meshes : List (Mesh α)) (declared : List (Node α)) (parents : Parents) (id : Nat)
    (result : Node α) : Prop :=
  ∃ node matrix bounds, declared[id]? = some node ∧ World declared parents id matrix ∧
    Placeable meshes node matrix bounds ∧
    result = { node with worldMatrix := matrix, worldBounds := bounds }

/-- What the walk keeps: nodes that are done are settled, and the others are as declared. -/
structure Walked (meshes : List (Mesh α)) (declared : List (Node α)) (parents : Parents)
    (walk : Walk α) : Prop where
  marked : walk.marks.length = declared.length
  sized : walk.nodes.length = declared.length
  done : ∀ id : Nat, walk.marks[id]? = some .done →
    ∃ result, walk.nodes[id]? = some result ∧ Settled meshes declared parents id result
  rest : ∀ (id : Nat) mark, walk.marks[id]? = some mark → mark ≠ .done →
    walk.nodes[id]? = declared[id]?

variable {meshes : List (Mesh α)}

theorem Walked.opened {walk : Walk α} (walked : Walked meshes declared parents walk) {id : Nat}
    (fresh : walk.marks[id]? = some .fresh) :
    Walked meshes declared parents (walk.opened id) where
  marked := by
    change (walk.marks.set id .open).length = _
    rw [List.length_set]
    exact walked.marked
  sized := walked.sized
  done := by
    intro other done
    change (walk.marks.set id .open)[other]? = some .done at done
    by_cases here : id = other
    · rw [← here, List.getElem?_set_self (List.getElem?_eq_some_iff.mp fresh).1] at done
      cases done
    · rw [List.getElem?_set_ne here] at done
      exact walked.done other done
  rest := by
    intro other mark marked notDone
    change (walk.marks.set id .open)[other]? = some mark at marked
    by_cases here : id = other
    · subst here
      exact walked.rest id .fresh fresh (by decide)
    · rw [List.getElem?_set_ne here] at marked
      exact walked.rest other mark marked notDone

/-- The end of a visit settles its node. -/
theorem settle_spec {walk after : Walk α} (walked : Walked meshes declared parents walk)
    (unbounded : ∀ node ∈ declared, node.worldBounds = none) {id : Nat} {matrix : Mat4 α}
    (opened : walk.marks[id]? = some .open) (world : World declared parents id matrix)
    (run : settle meshes id matrix walk = .ok after) :
    Walked meshes declared parents after ∧ after.marks = walk.marks.set id .done := by
  unfold settle at run
  simp only [bind_eq_ok, pure_eq_ok] at run
  obtain ⟨node, read, origin, moved, positions, found, bounds, drawn, rfl⟩ := run
  have here : walk.nodes[id]? = some node := element_mem read
  have there : declared[id]? = some node := by
    rw [← walked.rest id .open opened (by decide)]
    exact here
  have inside : id < walk.marks.length := (List.getElem?_eq_some_iff.mp opened).1
  have insideNodes : id < walk.nodes.length := (List.getElem?_eq_some_iff.mp here).1
  rw [unbounded node (List.mem_of_getElem? there)] at drawn
  refine ⟨⟨?_, ?_, ?_, ?_⟩, rfl⟩
  · change (walk.marks.set id .done).length = _
    rw [List.length_set]
    exact walked.marked
  · change (walk.nodes.set id _).length = _
    rw [List.length_set]
    exact walked.sized
  · intro other done
    change (walk.marks.set id .done)[other]? = some .done at done
    change ∃ result, (walk.nodes.set id _)[other]? = some result ∧ _
    by_cases same : id = other
    · subst same
      refine ⟨_, List.getElem?_set_self insideNodes, node, matrix, bounds, there, world, ?_, rfl⟩
      exact ⟨⟨origin, moved⟩, positions, found, drawn⟩
    · rw [List.getElem?_set_ne same] at done ⊢
      exact walked.done other done
  · intro other mark marked notDone
    change (walk.marks.set id .done)[other]? = some mark at marked
    change (walk.nodes.set id _)[other]? = _
    by_cases same : id = other
    · subst same
      rw [List.getElem?_set_self inside] at marked
      exact absurd (Option.some.inj marked).symm notDone
    · rw [List.getElem?_set_ne same] at marked ⊢
      exact walked.rest other mark marked notDone

/-- What a visit does to the marks: its node is done, what was done stays, and the open
nodes are the same. -/
structure Visited (before after : List Mark) (id : Nat) : Prop where
  here : after[id]? = some .done
  done : ∀ other : Nat, before[other]? = some .done → after[other]? = some .done
  opened : ∀ other : Nat, after[other]? = some .open ↔ before[other]? = some .open

/-- Closing the node that the visit has opened. -/
theorem Visited.closed {marks middle : List Mark} {id : Nat} (fresh : marks[id]? = some .fresh)
    (inside : id < middle.length)
    (done : ∀ other : Nat, (marks.set id .open)[other]? = some .done → middle[other]? = some .done)
    (opened : ∀ other : Nat,
      middle[other]? = some .open ↔ (marks.set id .open)[other]? = some .open) :
    Visited marks (middle.set id .done) id where
  here := List.getElem?_set_self inside
  done := by
    intro other before
    by_cases same : id = other
    · subst same
      rw [fresh] at before
      cases before
    · rw [List.getElem?_set_ne same]
      exact done other ((List.getElem?_set_ne same).trans before)
  opened := by
    intro other
    by_cases same : id = other
    · subst same
      rw [List.getElem?_set_self inside, fresh]
      simp
    · have same' := opened other
      rw [List.getElem?_set_ne same] at same'
      rw [List.getElem?_set_ne same]
      exact same'

/-- A visit that succeeds. -/
theorem visit_spec (unbounded : ∀ node ∈ declared, node.worldBounds = none) {id : Nat}
    {walk : Walk α} : ∀ {after : Walk α}, Walked meshes declared parents walk →
    visit parents meshes id walk = .ok after →
    Walked meshes declared parents after ∧ Visited walk.marks after.marks id := by
  induction id, walk using visit.induct parents with
  | case1 id walk missing =>
      intro after _ run
      rw [visit] at run
      split at run
      · cases run
      all_goals
        rename_i mark
        rw [missing] at mark
        cases mark
  | case2 id walk opened =>
      intro after _ run
      rw [visit_open parents meshes opened] at run
      cases run
  | case3 id walk done =>
      intro after walked run
      rw [visit_done parents meshes done] at run
      cases run
      exact ⟨walked, done, fun _ before => before, fun _ => Iff.rfl⟩
  | case4 id walk fresh top =>
      intro after walked run
      rw [visit_top meshes fresh top, bind_eq_ok] at run
      obtain ⟨node, read, settled⟩ := run
      have inside : id < walk.marks.length := (List.getElem?_eq_some_iff.mp fresh).1
      have there : declared[id]? = some node := by
        rw [← walked.rest id .fresh fresh (by decide)]
        exact element_mem read
      have opened : (walk.opened id).marks[id]? = some .open := List.getElem?_set_self inside
      obtain ⟨next, marks⟩ :=
        settle_spec (walked.opened fresh) unbounded opened (World.top there top) settled
      rw [marks]
      refine ⟨next, Visited.closed fresh ?_ (fun _ before => before) fun _ => Iff.rfl⟩
      change id < (walk.marks.set id .open).length
      rw [List.length_set]
      exact inside
  | case5 id walk fresh opening parent below =>
      rename_i inductionHypothesis
      intro after walked run
      rw [visit_below meshes fresh below] at run
      simp only [bind_eq_ok] at run
      obtain ⟨climbed, climb, node, read, above, aboveRead, matrix, product, settled⟩ := run
      have inside : id < walk.marks.length := (List.getElem?_eq_some_iff.mp fresh).1
      have opened : (walk.opened id).marks[id]? = some .open := List.getElem?_set_self inside
      obtain ⟨middle, visited⟩ := inductionHypothesis (walked.opened fresh) climb
      have still : climbed.marks[id]? = some .open := (visited.opened id).mpr opened
      have there : declared[id]? = some node := by
        rw [← middle.rest id .open still (by decide)]
        exact element_mem read
      obtain ⟨result, found, owner, aboveMatrix, _, _, world, _, rfl⟩ :=
        middle.done parent visited.here
      have same := Option.some.inj ((element_mem aboveRead).symm.trans found)
      rw [same] at product
      obtain ⟨next, marks⟩ := settle_spec middle unbounded still
        (World.child there below world product) settled
      rw [marks]
      refine ⟨next, Visited.closed fresh ?_ visited.done visited.opened⟩
      exact (List.getElem?_eq_some_iff.mp still).1

/-- A node with a world matrix is not its own ancestor. -/
theorem World.acyclic {id : Nat} {matrix : Mat4 α} (world : World declared parents id matrix) :
    ¬Relation.TransGen (Linked parents) id id := by
  induction world with
  | top _ noParent =>
      intro cycle
      obtain ⟨parent, link, _⟩ := Relation.TransGen.head'_iff.mp cycle
      rw [Linked, noParent] at link
      cases link
  | child _ parent _ _ inductionHypothesis =>
      intro cycle
      exact inductionHypothesis (Forest.cycle_above (linked_unique parents)
        (Relation.ReflTransGen.single parent) cycle)

/-- What lets every visit pass: products exist and every node can be placed. -/
structure Passable (meshes : List (Mesh α)) (declared : List (Node α)) (parents : Parents) :
    Prop where
  inside : ∀ child parent, Linked parents child parent → parent < declared.length
  product : ∀ id node parent above, declared[id]? = some node → Linked parents id parent →
    World declared parents parent above → ∃ matrix, multiply above node.localMatrix = .ok matrix
  placed : ∀ id node matrix, declared[id]? = some node → World declared parents id matrix →
    ∃ bounds, Placeable meshes node matrix bounds

theorem element_eq_ok {β : Type} {items : List β} {position : Nat} {item : β}
    (there : items[position]? = some item) : element items position = .ok item := by
  unfold element
  rw [there]

theorem settle_passes {walk : Walk α} (walked : Walked meshes declared parents walk)
    (unbounded : ∀ node ∈ declared, node.worldBounds = none) {id : Nat} {node : Node α}
    {matrix : Mat4 α} {bounds : Option (Bounds α)} (opened : walk.marks[id]? = some .open)
    (there : declared[id]? = some node) (placeable : Placeable meshes node matrix bounds) :
    ∃ after, settle meshes id matrix walk = .ok after := by
  obtain ⟨⟨origin, moved⟩, positions, found, drawn⟩ := placeable
  have here : walk.nodes[id]? = some node := by
    rw [walked.rest id .open opened (by decide)]
    exact there
  unfold settle
  rw [element_eq_ok here]
  change ∃ after, (do
    let _ ← transform matrix ⟨Scalar.ofInt 0, Scalar.ofInt 0, Scalar.ofInt 0⟩
    let positions ← vertices meshes node
    let bounds ← positions.foldlM (extend matrix) node.worldBounds
    return (⟨walk.marks.set id .done,
      walk.nodes.set id { node with worldMatrix := matrix, worldBounds := bounds }⟩ :
      Walk α)) = .ok after
  rw [moved, found, unbounded node (List.mem_of_getElem? there)]
  change ∃ after, (do
    let bounds ← positions.foldlM (extend matrix) none
    return (⟨walk.marks.set id .done,
      walk.nodes.set id { node with worldMatrix := matrix, worldBounds := bounds }⟩ :
      Walk α)) = .ok after
  rw [drawn]
  exact ⟨_, rfl⟩

/-- In a forest a visit passes when no node above it is open. -/
theorem visit_passes (unbounded : ∀ node ∈ declared, node.worldBounds = none)
    (acyclic : Forest.Acyclic (Linked parents)) (passable : Passable meshes declared parents)
    {id : Nat} {walk : Walk α} : Walked meshes declared parents walk → id < declared.length →
    (∀ other : Nat, walk.marks[other]? = some .open →
      ¬Forest.Above (Linked parents) id other) →
    ∃ after, visit parents meshes id walk = .ok after := by
  induction id, walk using visit.induct parents with
  | case1 id walk missing =>
      intro walked inside _
      rw [List.getElem?_eq_none_iff, walked.marked] at missing
      omega
  | case2 id walk opened =>
      intro _ _ apart
      exact absurd Relation.ReflTransGen.refl (apart id opened)
  | case3 id walk done =>
      intro _ _ _
      exact ⟨walk, visit_done parents meshes done⟩
  | case4 id walk fresh top =>
      intro walked inside _
      have there : declared[id]? = some declared[id] := List.getElem?_eq_getElem inside
      have here : walk.nodes[id]? = some declared[id] := by
        rw [walked.rest id .fresh fresh (by decide)]
        exact there
      have opened : (walk.opened id).marks[id]? = some .open :=
        List.getElem?_set_self (List.getElem?_eq_some_iff.mp fresh).1
      obtain ⟨bounds, placeable⟩ := passable.placed id _ _ there (World.top there top)
      rw [visit_top meshes fresh top, element_eq_ok here]
      exact settle_passes (walked.opened fresh) unbounded opened there placeable
  | case5 id walk fresh opening parent below =>
      rename_i inductionHypothesis
      intro walked inside apart
      have there : declared[id]? = some declared[id] := List.getElem?_eq_getElem inside
      have opened : (walk.opened id).marks[id]? = some .open :=
        List.getElem?_set_self (List.getElem?_eq_some_iff.mp fresh).1
      have above (other : Nat) (open' : (walk.opened id).marks[other]? = some .open) :
          ¬Forest.Above (Linked parents) parent other := by
        intro path
        by_cases here : id = other
        · exact acyclic id (Relation.TransGen.head' below (here ▸ path))
        · have before : walk.marks[other]? = some .open :=
            (List.getElem?_set_ne here).symm.trans open'
          exact apart other before (Relation.ReflTransGen.head below path)
      obtain ⟨climbed, climb⟩ := inductionHypothesis (walked.opened fresh)
        (passable.inside id parent below) above
      obtain ⟨middle, visited⟩ := visit_spec unbounded (walked.opened fresh) climb
      have still : climbed.marks[id]? = some .open := (visited.opened id).mpr opened
      have here : climbed.nodes[id]? = some declared[id] := by
        rw [middle.rest id .open still (by decide)]
        exact there
      obtain ⟨result, found, owner, aboveMatrix, _, _, world, _, shape⟩ :=
        middle.done parent visited.here
      obtain ⟨matrix, product⟩ := passable.product id _ parent aboveMatrix there below world
      obtain ⟨bounds, placeable⟩ :=
        passable.placed id _ matrix there (World.child there below world product)
      obtain ⟨after, settled⟩ := settle_passes middle unbounded still there placeable
      refine ⟨after, ?_⟩
      rw [visit_below meshes fresh below]
      have climb' : visit parents meshes parent (walk.opened id) = .ok climbed := climb
      rw [climb', bind_eq_ok]
      refine ⟨climbed, rfl, ?_⟩
      rw [element_eq_ok here, element_eq_ok found, shape]
      change (do
        let matrix ← multiply aboveMatrix (declared[id]).localMatrix
        settle meshes id matrix climbed) = _
      rw [product]
      exact settled

omit [Scalar α] in
theorem vertices_coded {node : Node α}
    (meshed : ∀ number, node.mesh = some number → number.toNat < meshes.length) :
    Coded (vertices meshes node) := by
  unfold vertices
  cases mesh : node.mesh with
  | none => exact fails_ok _
  | some number =>
      have there := List.getElem?_eq_getElem (meshed number mesh)
      change Coded (do
        let mesh ← element meshes number.toNat
        return mesh.positions)
      rw [element_eq_ok there]
      exact fails_ok _

theorem settle_coded {walk : Walk α} (walked : Walked meshes declared parents walk)
    (meshed : ∀ node ∈ declared, ∀ number, node.mesh = some number →
      number.toNat < meshes.length)
    {id : Nat} (matrix : Mat4 α) (inside : id < declared.length)
    (opened : walk.marks[id]? = some .open) : Coded (settle meshes id matrix walk) := by
  have there : declared[id]? = some declared[id] := List.getElem?_eq_getElem inside
  have here : walk.nodes[id]? = some declared[id] := by
    rw [walked.rest id .open opened (by decide)]
    exact there
  unfold settle
  rw [element_eq_ok here]
  change Coded (do
    let _ ← transform matrix ⟨Scalar.ofInt 0, Scalar.ofInt 0, Scalar.ofInt 0⟩
    let positions ← vertices meshes declared[id]
    let bounds ← positions.foldlM (extend matrix) (declared[id]).worldBounds
    return (⟨walk.marks.set id .done,
      walk.nodes.set id { declared[id] with worldMatrix := matrix, worldBounds := bounds }⟩ :
      Walk α))
  have drawn := vertices_coded (meshed _ (List.getElem_mem inside))
  exact fails_bind (coded_transform _ _) fun _ => fails_bind drawn fun _ =>
    fails_bind (fails_foldlM (coded_extend matrix) _ _) fun _ => fails_pure _

/-- The source reads no node and no mesh that is not there. -/
theorem visit_coded (unbounded : ∀ node ∈ declared, node.worldBounds = none)
    (inside : ∀ child parent, Linked parents child parent → parent < declared.length)
    (meshed : ∀ node ∈ declared, ∀ number, node.mesh = some number →
      number.toNat < meshes.length)
    {id : Nat} {walk : Walk α} : Walked meshes declared parents walk → id < declared.length →
    Coded (visit parents meshes id walk) := by
  induction id, walk using visit.induct parents with
  | case1 id walk missing =>
      intro walked within
      rw [List.getElem?_eq_none_iff, walked.marked] at missing
      omega
  | case2 id walk opened =>
      intro _ _
      rw [visit_open parents meshes opened]
      exact coded_error (by decide)
  | case3 id walk done =>
      intro _ _
      rw [visit_done parents meshes done]
      exact fails_ok _
  | case4 id walk fresh top =>
      intro walked within
      have here : walk.nodes[id]? = some declared[id] := by
        rw [walked.rest id .fresh fresh (by decide)]
        exact List.getElem?_eq_getElem within
      have opened : (walk.opened id).marks[id]? = some .open :=
        List.getElem?_set_self (List.getElem?_eq_some_iff.mp fresh).1
      rw [visit_top meshes fresh top, element_eq_ok here]
      exact settle_coded (walked.opened fresh) meshed _ within opened
  | case5 id walk fresh opening parent below =>
      rename_i inductionHypothesis
      intro walked within
      have opened : (walk.opened id).marks[id]? = some .open :=
        List.getElem?_set_self (List.getElem?_eq_some_iff.mp fresh).1
      have climbs := inductionHypothesis (walked.opened fresh) (inside id parent below)
      rw [visit_below meshes fresh below]
      cases climb : visit parents meshes parent (walk.opened id) with
      | error code => exact coded_error (climbs code climb)
      | ok climbed =>
          obtain ⟨middle, visited⟩ := visit_spec unbounded (walked.opened fresh) climb
          have still : climbed.marks[id]? = some .open := (visited.opened id).mpr opened
          have here : climbed.nodes[id]? = some declared[id] := by
            rw [middle.rest id .open still (by decide)]
            exact List.getElem?_eq_getElem within
          obtain ⟨result, found, _⟩ := middle.done parent visited.here
          change Coded (do
            let node ← element climbed.nodes id
            let above ← element climbed.nodes parent
            let matrix ← multiply above.worldMatrix node.localMatrix
            settle meshes id matrix climbed)
          rw [element_eq_ok here, element_eq_ok found]
          change Coded (do
            let matrix ← multiply result.worldMatrix (declared[id]).localMatrix
            settle meshes id matrix climbed)
          exact fails_bind (coded_multiply _ _) fun matrix =>
            settle_coded middle meshed matrix within still

theorem walked_start (meshes : List (Mesh α)) (declared : List (Node α)) (parents : Parents) :
    Walked meshes declared parents ⟨List.replicate declared.length .fresh, declared⟩ where
  marked := List.length_replicate
  sized := rfl
  done id done := by
    rw [List.getElem?_replicate] at done
    by_cases inside : id < declared.length
    · simp [inside] at done
    · simp [inside] at done
  rest _ _ _ _ := rfl

/-- The loop over the nodes settles them. -/
theorem visits_spec (unbounded : ∀ node ∈ declared, node.worldBounds = none) (ids : List Nat) :
    ∀ {walk after : Walk α}, Walked meshes declared parents walk →
      ids.foldlM (fun walk id => visit parents meshes id walk) walk = .ok after →
      Walked meshes declared parents after ∧
        (∀ id ∈ ids, after.marks[id]? = some .done) ∧
        ∀ other : Nat, walk.marks[other]? = some .done → after.marks[other]? = some .done := by
  induction ids with
  | nil =>
      intro walk after walked ended
      cases ended
      exact ⟨walked, by simp, fun _ done => done⟩
  | cons id rest inductionHypothesis =>
      intro walk after walked run
      rw [List.foldlM_cons, bind_eq_ok] at run
      obtain ⟨next, visit, continued⟩ := run
      obtain ⟨middle, visited⟩ := visit_spec unbounded walked visit
      obtain ⟨last, all, kept⟩ := inductionHypothesis middle continued
      refine ⟨last, ?_, fun other done => kept other (visited.done other done)⟩
      intro other member
      rcases List.mem_cons.mp member with here | later
      · exact here ▸ kept id visited.here
      · exact all other later

theorem visits_pass (unbounded : ∀ node ∈ declared, node.worldBounds = none)
    (acyclic : Forest.Acyclic (Linked parents)) (passable : Passable meshes declared parents)
    (ids : List Nat) (inside : ∀ id ∈ ids, id < declared.length) :
    ∀ {walk : Walk α}, Walked meshes declared parents walk →
      (∀ other : Nat, walk.marks[other]? ≠ some .open) →
      ∃ after, ids.foldlM (fun walk id => visit parents meshes id walk) walk = .ok after := by
  induction ids with
  | nil =>
      intro walk _ _
      exact ⟨walk, rfl⟩
  | cons id rest inductionHypothesis =>
      intro walk walked closed
      obtain ⟨next, visit⟩ := visit_passes unbounded acyclic passable walked
        (inside id List.mem_cons_self) fun other opened => absurd opened (closed other)
      obtain ⟨middle, visited⟩ := visit_spec unbounded walked visit
      obtain ⟨after, run⟩ :=
        inductionHypothesis (fun other member => inside other (List.mem_cons_of_mem _ member))
          middle fun other opened => closed other ((visited.opened other).mp opened)
      refine ⟨after, ?_⟩
      rw [List.foldlM_cons, visit]
      exact run

theorem visits_coded (unbounded : ∀ node ∈ declared, node.worldBounds = none)
    (links : ∀ child parent, Linked parents child parent → parent < declared.length)
    (meshed : ∀ node ∈ declared, ∀ number, node.mesh = some number →
      number.toNat < meshes.length)
    (ids : List Nat) (inside : ∀ id ∈ ids, id < declared.length) :
    ∀ {walk : Walk α}, Walked meshes declared parents walk →
      Coded (ids.foldlM (fun walk id => visit parents meshes id walk) walk) := by
  induction ids with
  | nil =>
      intro walk _
      exact fails_ok _
  | cons id rest inductionHypothesis =>
      intro walk walked
      have first := visit_coded unbounded links meshed walked (inside id List.mem_cons_self)
      rw [List.foldlM_cons]
      cases visit : visit parents meshes id walk with
      | error code => exact coded_error (first code visit)
      | ok next =>
          exact inductionHypothesis
            (fun other member => inside other (List.mem_cons_of_mem _ member))
            (visit_spec unbounded walked visit).1

end Climbing

end Omniweft.Gltf
