import Swarm.Domain.Graph

namespace Swarm

/-- A task as it was planned, without what happens to it later. -/
def TaskNode.blank (node : TaskNode) : TaskNode := { node with state := .created, attempt := 0 }

@[simp] theorem TaskNode.blank_id (node : TaskNode) : node.blank.id = node.id := rfl

@[simp] theorem TaskNode.blank_dependencies (node : TaskNode) : node.blank.dependencies = node.dependencies := rfl

@[simp] theorem TaskNode.blank_idempotencyKey (node : TaskNode) :
    node.blank.idempotencyKey = node.idempotencyKey := rfl

/-- The ids of a plan. -/
def planIds (plan : List TaskNode) : List TaskId := plan.map TaskNode.id

/-- Each task has an id of its own and comes after its dependencies. -/
inductive InOrder : List TaskNode → Prop
  | nil : InOrder []
  | snoc {plan : List TaskNode} {node : TaskNode} : InOrder plan → node.id ∉ planIds plan →
      (∀ dependency ∈ node.dependencies, dependency ∈ planIds plan) → InOrder (plan ++ [node])

namespace InOrder

theorem nodup {plan : List TaskNode} (ordered : InOrder plan) : (planIds plan).Nodup := by
  induction ordered with
  | nil => exact List.nodup_nil
  | snoc _ fresh _ ih =>
    rw [planIds, List.map_append, List.nodup_append]
    refine ⟨ih, List.nodup_singleton _, ?_⟩
    rintro a old b member rfl
    rw [List.map_cons, List.map_nil, List.mem_singleton] at member
    exact fresh (member ▸ old)

/-- Nothing outside the plan is depended on. -/
theorem closed {plan : List TaskNode} (ordered : InOrder plan) {node : TaskNode} (member : node ∈ plan)
    {dependency : TaskId} (depends : dependency ∈ node.dependencies) : dependency ∈ planIds plan := by
  induction ordered with
  | nil => cases member
  | snoc _ _ known ih =>
    rw [planIds, List.map_append, List.mem_append]
    rcases List.mem_append.mp member with old | new
    · exact Or.inl (ih old)
    · rw [List.mem_singleton.mp new] at depends
      exact Or.inl (known dependency depends)

/-- In a non-empty part of a plan some task has no dependency in that part. -/
theorem exists_first {plan : List TaskNode} (ordered : InOrder plan) (part : TaskId → Prop)
    (inhabited : ∃ node ∈ plan, part node.id) :
    ∃ node ∈ plan, part node.id ∧ ∀ dependency ∈ node.dependencies, ¬ part dependency := by
  induction ordered with
  | nil =>
    obtain ⟨node, member, _⟩ := inhabited
    cases member
  | @snoc plan node ordered _ known ih =>
    by_cases earlier : ∃ node ∈ plan, part node.id
    · obtain ⟨first, member, inside, free⟩ := ih earlier
      exact ⟨first, List.mem_append_left _ member, inside, free⟩
    · obtain ⟨first, member, inside⟩ := inhabited
      rcases List.mem_append.mp member with old | new
      · exact absurd ⟨first, old, inside⟩ earlier
      · rw [List.mem_singleton.mp new] at inside
        refine ⟨node, by simp, inside, ?_⟩
        intro dependency depends outside
        obtain ⟨upstream, present, rfl⟩ := List.mem_map.mp (known dependency depends)
        exact earlier ⟨upstream, present, outside⟩

end InOrder

namespace TaskGraph

theorem addEdges_spec (index : Dict TaskId Nat) (nodeIndex : Nat) (graph : DiGraph TaskId)
    (dependencies : List TaskId) :
    (addEdges index nodeIndex graph dependencies).weights = graph.weights ∧
      (addEdges index nodeIndex graph dependencies).edges =
        graph.edges ++ dependencies.filterMap (fun dependency => (index.get? dependency).map (·, nodeIndex)) ∧
      (graph.Indexed → (addEdges index nodeIndex graph dependencies).Indexed) := by
  unfold addEdges
  induction dependencies generalizing graph with
  | nil => exact ⟨rfl, by simp, id⟩
  | cons dependency rest ih =>
    rw [List.foldl_cons]
    cases found : index.get? dependency with
    | none =>
      obtain ⟨weights, edges, complete⟩ := ih graph
      exact ⟨weights, edges.trans (by simp [found]), complete⟩
    | some dependencyIndex =>
      obtain ⟨weights, edges, complete⟩ := ih (graph.addEdge dependencyIndex nodeIndex).2
      exact ⟨weights, edges.trans (by simp [found, DiGraph.addEdge]), fun indexed =>
        complete (indexed.addEdge dependencyIndex nodeIndex)⟩

/-- The graph holds exactly the tasks of the plan, in whatever states, and its
edges are their dependencies. -/
structure Shaped (g : TaskGraph) (plan : List TaskNode) : Prop where
  ordered : InOrder plan
  weights : g.graph.weights = planIds plan
  index : ∀ task i, g.index.get? task = some i ↔ g.graph.weights[i]? = some task
  edges : ∀ a b, (a, b) ∈ g.graph.edges ↔
    ∃ node ∈ plan, ∃ dependency ∈ node.dependencies, g.index.get? dependency = some a ∧ g.index.get? node.id = some b
  upward : ∀ edge ∈ g.graph.edges, edge.1 < edge.2
  indexed : g.graph.Indexed
  nodes : (g.nodes.entries.map (fun entry => (entry.1, entry.2.blank))).Perm
    (plan.map (fun node => (node.id, node.blank)))

theorem shaped_new (jobId : JobId) : Shaped (new jobId) [] where
  ordered := .nil
  weights := rfl
  index := by simp [new, DiGraph.new]
  edges := by simp [new, DiGraph.new]
  upward := by simp [new, DiGraph.new]
  indexed := DiGraph.indexed_new
  nodes := .refl _

namespace Shaped
variable {g : TaskGraph} {plan : List TaskNode}

theorem get_some (shaped : g.Shaped plan) {task : TaskId} {node : TaskNode} (found : g.get task = some node) :
    node.id = task ∧ ∃ planned ∈ plan, planned.blank = node.blank := by
  have member := List.mem_map_of_mem (f := fun entry : TaskId × TaskNode => (entry.1, entry.2.blank))
    (Dict.get?_eq_some.mp found)
  obtain ⟨planned, inside, same⟩ := List.mem_map.mp (shaped.nodes.mem_iff.mp member)
  obtain ⟨ids, blanks⟩ := Prod.mk.inj same
  refine ⟨?_, planned, inside, blanks⟩
  have same := congrArg TaskNode.id blanks
  exact same.symm.trans ids

theorem get_of_mem (shaped : g.Shaped plan) {planned : TaskNode} (member : planned ∈ plan) :
    ∃ node, g.get planned.id = some node ∧ node.blank = planned.blank := by
  have inside := List.mem_map_of_mem (f := fun node : TaskNode => (node.id, node.blank)) member
  obtain ⟨⟨task, node⟩, present, same⟩ := List.mem_map.mp (shaped.nodes.mem_iff.mpr inside)
  obtain ⟨rfl, blanks⟩ := Prod.mk.inj same
  exact ⟨node, Dict.get?_eq_some.mpr present, blanks⟩

theorem get_isSome (shaped : g.Shaped plan) {task : TaskId} : (g.get task).isSome ↔ task ∈ planIds plan := by
  constructor
  · intro present
    obtain ⟨node, found⟩ := Option.isSome_iff_exists.mp present
    obtain ⟨rfl, planned, member, blanks⟩ := shaped.get_some found
    have same := congrArg TaskNode.id blanks
    exact List.mem_map.mpr ⟨planned, member, same⟩
  · intro present
    obtain ⟨planned, member, rfl⟩ := List.mem_map.mp present
    obtain ⟨node, found, _⟩ := shaped.get_of_mem member
    rw [found]
    rfl

theorem index_isSome (shaped : g.Shaped plan) {task : TaskId} (member : task ∈ planIds plan) :
    ∃ i, g.index.get? task = some i ∧ i < plan.length := by
  rw [← shaped.weights] at member
  obtain ⟨i, bound, found⟩ := List.getElem_of_mem member
  refine ⟨i, (shaped.index task i).mpr (by rw [List.getElem?_eq_getElem bound, found]), ?_⟩
  rw [shaped.weights, planIds, List.length_map] at bound
  exact bound

theorem insert_eq (shaped : g.Shaped plan) {node : TaskNode} (fresh : node.id ∉ planIds plan)
    (known : ∀ dependency ∈ node.dependencies, dependency ∈ planIds plan) :
    g.insert node = .ok (node.id, g.place node) := by
  have absent : ¬ (g.get node.id).isSome := fun present => fresh (shaped.get_isSome.mp present)
  have complete : node.dependencies.find? (fun dependency => (g.get dependency).isNone) = none := by
    rw [List.find?_eq_none]
    intro dependency member
    have present := shaped.get_isSome.mpr (known dependency member)
    simpa using Option.isSome_iff_ne_none.mp present
  simp [insert, absent, complete]

theorem place (shaped : g.Shaped plan) {node : TaskNode} (fresh : node.id ∉ planIds plan)
    (known : ∀ dependency ∈ node.dependencies, dependency ∈ planIds plan) :
    (g.place node).Shaped (plan ++ [node]) := by
  obtain ⟨weights, edges, complete⟩ := addEdges_spec (g.index.insert node.id g.graph.weights.length)
    g.graph.weights.length (g.graph.addNode node.id).2 node.dependencies
  have other : ∀ task ∈ planIds plan, (g.index.insert node.id g.graph.weights.length).get? task = g.index.get? task :=
    fun task member => Dict.get?_insert_of_ne (fun same => fresh (same ▸ member))
  have bound : ∀ task i, g.index.get? task = some i → i < g.graph.weights.length := by
    intro task i found
    exact (List.getElem?_eq_some_iff.mp ((shaped.index task i).mp found)).1
  refine ⟨.snoc shaped.ordered fresh known, ?_, ?_, ?_, ?_, complete shaped.indexed, ?_⟩
  · simp only [TaskGraph.place, DiGraph.addNode] at weights ⊢
    rw [weights, shaped.weights]
    simp [planIds]
  · intro task i
    simp only [TaskGraph.place, DiGraph.addNode] at weights ⊢
    rw [weights, Dict.get?_insert, List.getElem?_append]
    have absent : node.id ∉ g.graph.weights := by rw [shaped.weights]; exact fresh
    split <;> rename_i same
    · subst same
      split <;> rename_i small
      · constructor
        · intro equal
          cases equal
          exact absurd small (Nat.lt_irrefl _)
        · intro found
          exact absurd (List.mem_of_getElem? found) absent
      · rw [List.getElem?_singleton]
        constructor
        · intro equal
          cases equal
          simp
        · intro found
          have zero : i - g.graph.weights.length = 0 := by
            by_contra positive
            rw [if_neg positive] at found
            cases found
          rw [show i = g.graph.weights.length by omega]
    · rw [shaped.index]
      split <;> rename_i small
      · rfl
      · rw [List.getElem?_singleton, List.getElem?_eq_none (by omega)]
        split <;> simp [Ne.symm same]
  · intro a b
    simp only [TaskGraph.place, DiGraph.addNode] at edges ⊢
    rw [edges, List.mem_append, shaped.edges, List.mem_filterMap]
    constructor
    · rintro (⟨planned, member, dependency, depends, source, target⟩ | ⟨dependency, depends, found⟩)
      · refine ⟨planned, List.mem_append_left _ member, dependency, depends, ?_, ?_⟩
        · rw [other _ (shaped.ordered.closed member depends), source]
        · rw [other _ (List.mem_map_of_mem member), target]
      · obtain ⟨i, source, equal⟩ := Option.map_eq_some_iff.mp found
        cases equal
        exact ⟨node, by simp, dependency, depends, source, Dict.get?_insert_self⟩
    · rintro ⟨planned, member, dependency, depends, source, target⟩
      rcases List.mem_append.mp member with old | new
      · rw [other _ (shaped.ordered.closed old depends)] at source
        rw [other _ (List.mem_map_of_mem old)] at target
        exact Or.inl ⟨planned, old, dependency, depends, source, target⟩
      · rw [List.mem_singleton.mp new] at depends target
        rw [Dict.get?_insert_self] at target
        cases target
        exact Or.inr ⟨dependency, depends, by rw [source]; rfl⟩
  · simp only [TaskGraph.place, DiGraph.addNode] at edges ⊢
    intro edge member
    rw [edges] at member
    rcases List.mem_append.mp member with old | new
    · exact shaped.upward edge old
    · obtain ⟨dependency, depends, found⟩ := List.mem_filterMap.mp new
      obtain ⟨i, source, equal⟩ := Option.map_eq_some_iff.mp found
      cases equal
      rw [other _ (known dependency depends)] at source
      exact bound dependency i source
  · have absent : node.id ∉ g.nodes.keys := by
      rw [← Dict.get?_eq_none]
      cases found : g.nodes.get? node.id with
      | none => rfl
      | some old => exact absurd (shaped.get_isSome.mp (by rw [get, found]; rfl)) fresh
    simp only [TaskGraph.place, Dict.insert_entries_of_absent absent, List.map_append]
    exact shaped.nodes.append_right _

theorem of_insert (shaped : g.Shaped plan) {node : TaskNode} {id : TaskId} {g' : TaskGraph}
    (run : g.insert node = .ok (id, g')) :
    id = node.id ∧ g' = g.place node ∧ node.id ∉ planIds plan ∧
      ∀ dependency ∈ node.dependencies, dependency ∈ planIds plan := by
  unfold insert at run
  split at run
  · cases run
  · rename_i absent
    split at run
    · cases run
    · rename_i complete
      cases run
      refine ⟨rfl, rfl, fun present => absent (shaped.get_isSome.mpr present), ?_⟩
      intro dependency member
      have present := List.find?_eq_none.mp complete dependency member
      exact shaped.get_isSome.mp (by simpa [Option.isSome_iff_ne_none] using present)

/-- Changes of states and attempts keep the shape. -/
theorem update (shaped : g.Shaped plan) (task : TaskId) {change : TaskNode → TaskNode}
    (blanks : ∀ node, (change node).blank = node.blank) : (g.update task change).Shaped plan where
  ordered := shaped.ordered
  weights := shaped.weights
  index := shaped.index
  edges := shaped.edges
  upward := shaped.upward
  indexed := shaped.indexed
  nodes := by
    have same : (g.nodes.modify task change).entries.map (fun entry => (entry.1, entry.2.blank)) =
        g.nodes.entries.map (fun entry => (entry.1, entry.2.blank)) := by
      simp only [Dict.modify, List.map_map]
      refine List.map_congr_left ?_
      intro entry _
      simp only [Function.comp_apply]
      split <;> simp [blanks]
    simp only [TaskGraph.update, same]
    exact shaped.nodes

theorem rehash (shaped : g.Shaped plan) {nodes : Dict TaskId TaskNode} (moved : g.nodes.Rehash nodes) :
    Shaped { g with nodes := nodes } plan :=
  { shaped with nodes := (List.Perm.map _ (List.Perm.symm moved)).trans shaped.nodes }

theorem valid (shaped : g.Shaped plan) : g.graph.Valid := by
  rintro ⟨a, b⟩ edge
  obtain ⟨_, _, _, _, source, target⟩ := (shaped.edges a b).mp edge
  exact ⟨(List.getElem?_eq_some_iff.mp ((shaped.index _ _).mp source)).1,
    (List.getElem?_eq_some_iff.mp ((shaped.index _ _).mp target)).1⟩

theorem acyclic (shaped : g.Shaped plan) : g.graph.Acyclic := DiGraph.acyclic_of_rank id shaped.upward

theorem mem_dependents (shaped : g.Shaped plan) {planned : TaskNode} (member : planned ∈ plan) {dependency : TaskId}
    (depends : dependency ∈ planned.dependencies) : planned.id ∈ g.dependents dependency := by
  obtain ⟨a, source, _⟩ := shaped.index_isSome (shaped.ordered.closed member depends)
  obtain ⟨b, target, _⟩ := shaped.index_isSome (List.mem_map_of_mem member)
  have edge := (shaped.edges a b).mpr ⟨planned, member, dependency, depends, source, target⟩
  unfold dependents
  rw [source, List.mem_filterMap]
  exact ⟨b, shaped.indexed.mem_outgoing.mpr edge, (shaped.index _ _).mp target⟩

end Shaped

end TaskGraph

end Swarm
