import Swarm.Domain.Splitting
import Swarm.Domain.Orders

namespace Swarm.TaskGraph
variable {g : TaskGraph} {toposort : DiGraph TaskId → Except Nat (List Nat)}

theorem addDependency_keeps {task dependsOn id : TaskId} (present : (g.get id).isSome = true) :
    ((g.addDependency toposort task dependsOn).2.get id).isSome = true := by
  unfold addDependency
  split
  · exact present
  · exact present
  · split
    · exact present
    · split
      · exact present
      · dsimp only
        split
        · exact present
        · rw [get_update]
          split
          · rename_i same
            subst same
            rw [Option.isSome_map]
            exact present
          · exact present

/-- No task is lost while children are taken in. -/
theorem adoptChildren_keeps (toposort : DiGraph TaskId → Except Nat (List Nat)) (task : TaskId)
    (inherited : List TaskId) (children : List TaskNode) (childIds : List TaskId) {g : TaskGraph} {id : TaskId}
    (present : (g.get id).isSome = true) :
    ((g.adoptChildren toposort task inherited children childIds).2.get id).isSome = true := by
  induction children generalizing g childIds with
  | nil => exact present
  | cons child rest ih =>
    unfold adoptChildren
    cases inserted : g.insert { child with dependencies := inherited } with
    | error err => exact present
    | ok result =>
      obtain ⟨childId, placed⟩ := result
      have there : (placed.get id).isSome = true := by
        unfold TaskGraph.insert at inserted
        split at inserted
        · cases inserted
        · split at inserted
          · cases inserted
          · cases inserted
            rw [get_place]
            split
            · rfl
            · exact present
      have after : ((placed.addDependency toposort task childId).2.get id).isSome = true := addDependency_keeps there
      simp only
      cases added : placed.addDependency toposort task childId with
      | mk outcome next =>
        rw [added] at after
        cases outcome with
        | error err => exact after
        | ok _ => exact ih (childIds ++ [childId]) after

/-- Taking a task without dependencies off its dependencies changes nothing. -/
theorem unlink_free (agrees : g.Agrees 0) {task : TaskId} {taskIndex : Nat}
    (goal : g.index.get? task = some taskIndex) (free : g.dependencies task = []) (id : TaskId) :
    (g.unlink task taskIndex).get id = g.get id ∧
      (g.unlink task taskIndex).dependencies id = g.dependencies id ∧
      (g.unlink task taskIndex).dependents id = g.dependents id := by
  have none : g.graph.incomingEdges taskIndex = [] := by
    rw [← List.length_eq_zero_iff, ← agrees.length_dependencies goal, free]
    rfl
  have graph : (g.unlink task taskIndex).graph = g.graph := by
    unfold unlink
    rw [none]
    rfl
  have index : (g.unlink task taskIndex).index = g.index := rfl
  refine ⟨?_, ?_, ?_⟩
  · rw [get_unlink]
    by_cases same : id = task
    · subst same
      obtain ⟨node, found⟩ := agrees.get_of_index goal
      have record : node.dependencies = [] :=
        List.nil_perm.mp (free ▸ (agrees.dependencies_perm goal).trans (agrees.fields found goal))
      rw [if_pos rfl, found, Option.map_some, ← record]
    · rw [if_neg same]
  · unfold dependencies
    rw [graph, index]
  · unfold dependents
    rw [graph, index]

/-- A refused split leaves everything as it was exactly where it stops before the task is detached,
or has nothing to detach and stops at the first child. -/
theorem Built.split_atomic_iff (detects : Detects toposort) (built : Built toposort g) {task : TaskId}
    {children : List TaskNode} {err : SwarmError} (failed : (g.split toposort task children).1 = .error err) :
    (∀ id, (g.split toposort task children).2.get id = g.get id ∧
      (g.split toposort task children).2.dependencies id = g.dependencies id ∧
      (g.split toposort task children).2.dependents id = g.dependents id) ↔
    children = [] ∨ g.get task = none ∨
      (g.dependencies task = [] ∧ ∃ child rest, children = child :: rest ∧ (g.get child.id).isSome = true) := by
  have agrees := built.agrees detects
  unfold TaskGraph.split at failed ⊢
  cases children with
  | nil => exact iff_of_true (fun _ => ⟨rfl, rfl, rfl⟩) (Or.inl rfl)
  | cons child rest =>
    cases there : g.index.get? task with
    | none =>
      have absent : g.get task = none := by
        have same := agrees.known task
        rw [there] at same
        exact Option.not_isSome_iff_eq_none.mp (by rw [← same]; exact Bool.false_ne_true)
      simp only [List.isEmpty_cons, Bool.false_eq_true, if_false, indexOf, there]
      exact iff_of_true (fun _ => ⟨trivial, trivial, trivial⟩) (Or.inr (Or.inl absent))
    | some taskIndex =>
      simp only [List.isEmpty_cons, Bool.false_eq_true, if_false, indexOf, there] at failed ⊢
      obtain ⟨node, found⟩ := agrees.get_of_index there
      have detached := agrees.unlink there
      have present : (g.unlink task taskIndex).get task = some { node with dependencies := [] } := by
        rw [get_unlink, if_pos rfl, found]
        rfl
      have known' : ∀ id, ((g.unlink task taskIndex).get id).isSome = (g.get id).isSome := by
        intro id
        rw [get_unlink]
        split
        · rename_i same
          rw [same, Option.isSome_map]
        · rfl
      cases first : g.get child.id with
      | some other =>
        -- the first child stops the split, after the task has been detached
        have refused : ∃ err, (g.unlink task taskIndex).insert { child with dependencies := g.dependencies task } =
            .error err := by
          have taken : ((g.unlink task taskIndex).get child.id).isSome = true := by rw [known', first]; rfl
          unfold TaskGraph.insert
          rw [if_pos taken]
          exact ⟨_, rfl⟩
        obtain ⟨err', refused⟩ := refused
        unfold adoptChildren
        simp only [refused]
        constructor
        · intro same
          have record := (same task).1
          rw [present, found] at record
          have free : node.dependencies = [] := (congrArg TaskNode.dependencies (Option.some.inj record)).symm
          have none : g.dependencies task = [] :=
            List.perm_nil.mp (free ▸ (agrees.dependencies_perm there).trans (agrees.fields found there))
          exact Or.inr (Or.inr ⟨none, child, rest, rfl, by rw [first]; rfl⟩)
        · rintro (empty | absent | ⟨free, _⟩)
          · cases empty
          · rw [found] at absent
            cases absent
          · exact unlink_free agrees there free
      | none =>
        -- the first child is taken in and stays
        refine iff_of_false ?_ ?_
        · intro same
          have fresh : (g.unlink task taskIndex).get child.id = none := by
            rw [← Option.not_isSome_iff_eq_none, known', first]
            exact Bool.false_ne_true
          obtain ⟨next, run, _, records, _⟩ :=
            adopt_step detects { child with dependencies := g.dependencies task } detached
            le_rfl present (inherited_known agrees there) (inherited_apart agrees there) fresh
          have inserted : (g.unlink task taskIndex).insert { child with dependencies := g.dependencies task } =
              .ok (child.id, (g.unlink task taskIndex).place { child with dependencies := g.dependencies task }) :=
            insert_fresh fresh (inherited_known agrees there)
          have there' : (next.get child.id).isSome = true := by
            rw [records]
            split
            · rfl
            · rw [if_pos rfl]
              rfl
          have kept := adoptChildren_keeps toposort task (g.dependencies task) rest ([] ++ [child.id]) there'
          have record := (same child.id).1
          unfold adoptChildren at record
          rw [inserted] at record
          simp only [run] at record
          rw [record, first] at kept
          cases kept
        · rintro (empty | absent | ⟨_, other, others, split, taken⟩)
          · cases empty
          · rw [found] at absent
            cases absent
          · cases split
            rw [first] at taken
            cases taken

/-- The task would wait for two others; a child with a known id stops the split, and the task waits for nothing. -/
theorem split_detached :
    (∃ err, (Built.joined.split DiGraph.sort ⟨3⟩ [Built.joining ⟨0⟩ 1 []]).1 = .error err) ∧
    Built.joined.dependencies ⟨3⟩ = [⟨2⟩, ⟨1⟩] ∧
    (Built.joined.split DiGraph.sort ⟨3⟩ [Built.joining ⟨0⟩ 1 []]).2.dependencies ⟨3⟩ = [] :=
  ⟨⟨_, rfl⟩, rfl, rfl⟩

theorem split_atomic_childless :
    (Built.joined.split DiGraph.sort ⟨3⟩ []).2.get ⟨3⟩ = Built.joined.get ⟨3⟩ :=
  ((Built.split_atomic_iff detects_sort (Built.built_joined DiGraph.sort) rfl).mpr (Or.inl rfl) ⟨3⟩).1

/-- No reader of the graphs can tell the one from the other. -/
structure Alike (toposort : DiGraph TaskId → Except Nat (List Nat)) (g next : TaskGraph) : Prop where
  len : next.len = g.len
  get : ∀ id, next.get id = g.get id
  dependencies : ∀ id, next.dependencies id = g.dependencies id
  dependents : ∀ id, next.dependents id = g.dependents id
  order : (next.topologicalOrder toposort).map (fun order => {task | task ∈ order}) =
    (g.topologicalOrder toposort).map (fun order => {task | task ∈ order})
  layers : next.layers toposort = g.layers toposort
  ready : next.ready = g.ready
  counts : next.counts = g.counts
  blockedByAbandoned : next.blockedByAbandoned = g.blockedByAbandoned

theorem Alike.refl (g : TaskGraph) : Alike toposort g g :=
  ⟨rfl, fun _ => rfl, fun _ => rfl, fun _ => rfl, rfl, rfl, rfl, rfl, rfl⟩

theorem removeEdge_subset {graph : DiGraph TaskId} {index : Nat} {edge : Nat × Nat}
    (member : edge ∈ (graph.removeEdge index).edges) :
    edge ∈ graph.edges := by
  cases found : graph.edges[index]? with
  | none =>
    have outside : ¬ index < graph.edges.length := Nat.not_lt.mpr (List.getElem?_eq_none_iff.mp found)
    unfold DiGraph.removeEdge at member
    rw [if_neg outside] at member
    exact member
  | some ends => exact (DiGraph.removeEdge_edges found).mem_iff.mpr (List.mem_cons_of_mem _ member)

/-- Taking dependencies back leaves the nodes and no more edges. -/
theorem removeDependency_shrinks (g : TaskGraph) (task dependsOn : TaskId) :
    (g.removeDependency task dependsOn).graph.weights = g.graph.weights ∧
      ∀ edge ∈ (g.removeDependency task dependsOn).graph.edges, edge ∈ g.graph.edges := by
  unfold removeDependency
  split
  · simp only [TaskGraph.update]
    cases g.graph.findEdge _ _ with
    | none => exact ⟨rfl, fun _ member => member⟩
    | some edge => exact ⟨DiGraph.removeEdge_weights edge, fun _ member => removeEdge_subset member⟩
  · exact ⟨rfl, fun _ member => member⟩

theorem rollBack_shrinks (g : TaskGraph) (id : TaskId) (earlier : List TaskId) :
    (g.rollBack id earlier).graph.weights = g.graph.weights ∧ ∀ edge ∈ (g.rollBack id earlier).graph.edges,
      edge ∈ g.graph.edges := by
  unfold rollBack
  simp only
  induction earlier generalizing g with
  | nil => exact ⟨rfl, fun _ member => member⟩
  | cons task rest ih =>
    obtain ⟨weights, edges⟩ := removeDependency_shrinks g task id
    obtain ⟨weights', edges'⟩ := ih (g.removeDependency task id)
    exact ⟨weights'.trans weights, fun edge member => edges edge (edges' edge member)⟩

/-- The node of a task that is attached stays in the topology, whatever comes of it. -/
theorem attach_nodes (detects : Detects toposort) (id : TaskId) (dependents rest : List TaskId)
    {slack : Nat} {g : TaskGraph} (agrees : g.Agrees slack) :
    (g.attach toposort id dependents rest).2.graph.weights = g.graph.weights ∧
      (g.attach toposort id dependents rest).2.graph.Valid := by
  induction rest generalizing g with
  | nil => exact ⟨rfl, agrees.valid⟩
  | cons dependent rest ih =>
    obtain ⟨weights, _⟩ := addDependency_nodes toposort g dependent id
    have step := (agrees.addDependency detects dependent id).1
    unfold attach
    cases added : g.addDependency toposort dependent id with
    | mk outcome next =>
      rw [added] at weights step
      cases outcome with
      | error err =>
        obtain ⟨weights', edges⟩ := rollBack_shrinks next id (dependents.takeWhile (· != dependent))
        refine ⟨weights'.trans weights, ?_⟩
        intro edge member
        have valid := step.valid edge (edges edge member)
        rw [← weights'] at valid
        exact valid
      | ok _ => exact ⟨(ih step).1.trans weights, (ih step).2⟩

/-- A refused insertion cannot be seen exactly where the new task itself is refused: once it has been placed,
its id stays in the topological order. -/
theorem Built.insertDynamic_atomic_iff (linearizes : Linearizes toposort) (built : Built toposort g) {node : TaskNode}
    {dependents : List TaskId} {err : SwarmError}
    (_failed : (g.insertDynamic toposort node dependents).1 = .error err) :
    Alike toposort g (g.insertDynamic toposort node dependents).2 ↔
      (g.get node.id).isSome = true ∨ ∃ dependency ∈ node.dependencies, g.get dependency = none := by
  have agrees := built.agrees linearizes.detects
  unfold TaskGraph.insertDynamic
  by_cases refused : (g.get node.id).isSome = true ∨ ∃ dependency ∈ node.dependencies, g.get dependency = none
  · have stopped : ∃ err, g.insert node = .error err := by
      unfold TaskGraph.insert
      by_cases present : (g.get node.id).isSome = true
      · exact ⟨_, if_pos present⟩
      · obtain ⟨dependency, depends, absent⟩ := refused.resolve_left present
        rw [if_neg present]
        cases found : node.dependencies.find? (fun dependency => (g.get dependency).isNone) with
        | none =>
          have known := List.find?_eq_none.mp found dependency depends
          rw [absent] at known
          exact absurd rfl known
        | some other => exact ⟨_, rfl⟩
    obtain ⟨err', stopped⟩ := stopped
    rw [stopped]
    exact iff_of_true (Alike.refl g) refused
  · have fresh : g.get node.id = none := Option.not_isSome_iff_eq_none.mp (fun present => refused (Or.inl present))
    have known : ∀ dependency ∈ node.dependencies, (g.get dependency).isSome = true := by
      intro dependency depends
      by_contra absent
      exact refused (Or.inr ⟨dependency, depends, Option.not_isSome_iff_eq_none.mp absent⟩)
    have placed := agrees.place (fun present => refused (Or.inl present)) known
    rw [insert_fresh fresh known]
    simp only
    obtain ⟨weights, valid⟩ := attach_nodes linearizes.detects node.id dependents dependents placed
    generalize (g.place node).attach toposort node.id dependents dependents = result at weights valid ⊢
    refine iff_of_false ?_ refused
    intro alike
    obtain ⟨order, run, _, listed, _⟩ := topologicalOrder_ok linearizes agrees (built.tight linearizes.detects)
    have orders := alike.order
    rw [run] at orders
    unfold topologicalOrder at orders
    cases sorted : toposort result.2.graph with
    | error culprit =>
      rw [sorted] at orders
      cases orders
    | ok indices =>
      rw [sorted] at orders
      have sets := Except.ok.inj orders
      have last : (g.place node).graph.weights[g.graph.weights.length]? = some node.id := by
        rw [Agrees.place_weights]
        simp
      have inside : g.graph.weights.length ∈ indices := by
        refine (linearizes.all _ valid indices sorted).mem_iff.mpr (List.mem_range.mpr ?_)
        rw [weights]
        exact (List.getElem?_eq_some_iff.mp last).1
      have stays : node.id ∈ indices.filterMap (fun index => result.2.graph.weights[index]?) := by
        refine List.mem_filterMap.mpr ⟨_, inside, ?_⟩
        rw [weights]
        exact last
      have old : node.id ∈ order := (Set.ext_iff.mp sets node.id).mp stays
      have present := (listed node.id).mp old
      rw [fresh] at present
      cases present

/-- A task whose one dependent does not exist is refused, and is among the dependents of what it waits for. -/
theorem insertDynamic_haunted :
    (∃ err, (Built.joined.insertDynamic DiGraph.sort (Built.joining ⟨0⟩ 4 [⟨1⟩]) [⟨9⟩]).1 = .error err) ∧
    (⟨4⟩ : TaskId) ∉ Built.joined.dependents ⟨1⟩ ∧
    (⟨4⟩ : TaskId) ∈ (Built.joined.insertDynamic DiGraph.sort (Built.joining ⟨0⟩ 4 [⟨1⟩]) [⟨9⟩]).2.dependents ⟨1⟩ ∧
    (Built.joined.topologicalOrder DiGraph.sort).toOption = some [⟨1⟩, ⟨2⟩, ⟨3⟩] ∧
    ((Built.joined.insertDynamic DiGraph.sort (Built.joining ⟨0⟩ 4 [⟨1⟩]) [⟨9⟩]).2.topologicalOrder
      DiGraph.sort).toOption =
      some [⟨1⟩, ⟨2⟩, ⟨3⟩, ⟨4⟩] := by
  refine ⟨⟨_, rfl⟩, ?_⟩
  decide +kernel

theorem insertDynamic_atomic_known :
    Alike DiGraph.sort Built.joined (Built.joined.insertDynamic DiGraph.sort (Built.joining ⟨0⟩ 3 []) []).2 :=
  (Built.insertDynamic_atomic_iff linearizes_sort (Built.built_joined DiGraph.sort) rfl).mpr (Or.inl rfl)

end Swarm.TaskGraph
