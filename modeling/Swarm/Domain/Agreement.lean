import Swarm.Domain.Plan
import Swarm.Domain.Rewire

namespace Swarm

/-- petgraph's `toposort` fails exactly on the graphs with a cycle. -/
def Detects (toposort : DiGraph TaskId → Except Nat (List Nat)) : Prop :=
  ∀ g : DiGraph TaskId, g.Valid → ((∃ order, toposort g = .ok order) ↔ g.Acyclic)

theorem detects_sort : Detects DiGraph.sort := by
  intro g valid
  constructor
  · rintro ⟨order, run⟩
    exact DiGraph.sort_acyclic valid run
  · exact DiGraph.sort_ok

namespace TaskGraph

/-- The tasks whose edges come into the node at `index`. -/
def sources (g : TaskGraph) (index : Nat) : List TaskId :=
  (g.graph.edges.filter (fun edge => edge.2 == index)).filterMap (fun edge => g.graph.weights[edge.1]?)

/-- The topology and the task records say the same. The edges into each node
stand in an order that lets `split` take them out under their old indices, up
to a `slack` that is made up for before `split` returns. -/
structure Agrees (g : TaskGraph) (slack : Nat) : Prop where
  complete : g.graph.Complete
  named : ∀ {task index}, g.index.get? task = some index → g.graph.weights[index]? = some task
  known : ∀ task, (g.index.get? task).isSome = (g.get task).isSome
  ends : ∀ {edge}, edge ∈ g.graph.edges →
    ∃ source target, g.index.get? source = some edge.1 ∧ g.index.get? target = some edge.2
  fields : ∀ {task node index}, g.get task = some node → g.index.get? task = some index →
    (g.sources index).Perm node.dependencies
  ordered : ∀ index, g.graph.OrderedAt slack index
  acyclic : g.graph.Acyclic

theorem agrees_new (jobId : JobId) : (new jobId).Agrees 0 where
  complete := DiGraph.complete_new
  named := by
    intro task index found
    cases found
  known := fun _ => rfl
  ends := by
    intro edge member
    cases member
  fields := by
    intro task node index found
    cases found
  ordered := DiGraph.ordered_new
  acyclic := DiGraph.acyclic_of_rank id (fun edge member => by cases member)

namespace Agrees
variable {g : TaskGraph} {slack : Nat}

theorem inside (agrees : g.Agrees slack) {task : TaskId} {index : Nat} (found : g.index.get? task = some index) :
    index < g.graph.weights.length := (List.getElem?_eq_some_iff.mp (agrees.named found)).1

theorem task_unique (agrees : g.Agrees slack) {left right : TaskId} {index : Nat}
    (first : g.index.get? left = some index) (second : g.index.get? right = some index) : left = right :=
  Option.some.inj ((agrees.named first).symm.trans (agrees.named second))

theorem valid (agrees : g.Agrees slack) : g.graph.Valid := by
  intro edge member
  obtain ⟨source, target, first, second⟩ := agrees.ends member
  exact ⟨agrees.inside first, agrees.inside second⟩

theorem index_of_get (agrees : g.Agrees slack) {task : TaskId} (present : (g.get task).isSome) :
    ∃ index, g.index.get? task = some index := by
  rw [← agrees.known] at present
  exact Option.isSome_iff_exists.mp present

theorem get_of_index (agrees : g.Agrees slack) {task : TaskId} {index : Nat}
    (found : g.index.get? task = some index) :
    ∃ node, g.get task = some node := by
  have present : (g.get task).isSome := by rw [← agrees.known, found]; rfl
  exact Option.isSome_iff_exists.mp present

/-- What petgraph answers about the dependencies is what the edges say. -/
theorem dependencies_perm (agrees : g.Agrees slack) {task : TaskId} {index : Nat}
    (found : g.index.get? task = some index) :
    (g.dependencies task).Perm (g.sources index) := by
  have visits := (agrees.complete.visited_perm.filter (fun edge => edge.2 == index)).filterMap
    (fun edge => g.graph.weights[edge.1]?)
  simp only [dependencies, found, DiGraph.incoming, List.filterMap_map]
  exact visits

/-- Every edge into the node is one of the dependencies. -/
theorem length_dependencies (agrees : g.Agrees slack) {task : TaskId} {index : Nat}
    (found : g.index.get? task = some index) :
    (g.dependencies task).length = (g.graph.incomingEdges index).length := by
  have weighed : ((g.graph.incoming index).filterMap (fun neighbour => g.graph.weights[neighbour]?)).length =
      (g.graph.incoming index).length := by
    rw [List.filterMap_length_eq_length]
    intro neighbour member
    obtain ⟨edge, visited, rfl⟩ := List.mem_map.mp member
    have old := agrees.complete.visited_perm.mem_iff.mp (List.mem_filter.mp visited).1
    rw [List.getElem?_eq_getElem (agrees.valid edge old).1]
    rfl
  simp only [dependencies, found]
  rw [weighed, agrees.complete.length_incoming]

theorem mem_sources (agrees : g.Agrees slack) {source : TaskId} {index : Nat} :
    source ∈ g.sources index ↔ ∃ a, g.index.get? source = some a ∧ (a, index) ∈ g.graph.edges := by
  simp only [sources, List.mem_filterMap, List.mem_filter, beq_iff_eq]
  constructor
  · rintro ⟨⟨a, b⟩, ⟨member, rfl⟩, weight⟩
    obtain ⟨first, _, origin, _⟩ := agrees.ends member
    have same : first = source := Option.some.inj ((agrees.named origin).symm.trans weight)
    rw [same] at origin
    exact ⟨a, origin, member⟩
  · rintro ⟨a, origin, member⟩
    exact ⟨(a, index), ⟨member, rfl⟩, agrees.named origin⟩

theorem mem_dependents (agrees : g.Agrees slack) {task dependent : TaskId} :
    dependent ∈ g.dependents task ↔ ∃ node, g.get dependent = some node ∧ task ∈ node.dependencies := by
  have visits := agrees.complete.visited_perm
  constructor
  · intro member
    unfold dependents at member
    split at member
    · cases member
    · rename_i a origin
      obtain ⟨b, outgoing, weight⟩ := List.mem_filterMap.mp member
      obtain ⟨edge, filtered, rfl⟩ := List.mem_map.mp outgoing
      obtain ⟨visited, start⟩ := List.mem_filter.mp filtered
      have old := visits.mem_iff.mp visited
      obtain ⟨_, target, _, there⟩ := agrees.ends old
      have same : target = dependent := Option.some.inj ((agrees.named there).symm.trans weight)
      rw [same] at there
      obtain ⟨node, found⟩ := agrees.get_of_index there
      rw [beq_iff_eq] at start
      have edge' : (a, edge.2) ∈ g.graph.edges := by
        rw [← start]
        exact old
      exact ⟨node, found, (agrees.fields found there).mem_iff.mp (agrees.mem_sources.mpr ⟨a, origin, edge'⟩)⟩
  · rintro ⟨node, found, depends⟩
    obtain ⟨b, there⟩ := agrees.index_of_get (by rw [found]; rfl)
    obtain ⟨a, origin, edge⟩ := agrees.mem_sources.mp ((agrees.fields found there).mem_iff.mpr depends)
    simp only [dependents, origin, DiGraph.outgoing, List.mem_filterMap, List.mem_map, List.mem_filter, beq_iff_eq]
    exact ⟨b, ⟨(a, b), ⟨visits.mem_iff.mpr edge, rfl⟩, rfl⟩, agrees.named there⟩

/-- Changes of states keep the agreement. -/
theorem update (agrees : g.Agrees slack) (task : TaskId) {change : TaskNode → TaskNode}
    (keeps : ∀ node, (change node).dependencies = node.dependencies) : (g.update task change).Agrees slack where
  complete := agrees.complete
  named := agrees.named
  known := by
    intro other
    have known := agrees.known other
    simp only [TaskGraph.update, get, Dict.get?_modify] at known ⊢
    split
    · rename_i same
      rw [known, same, Option.isSome_map]
    · exact known
  ends := agrees.ends
  fields := by
    intro other node index found origin
    simp only [TaskGraph.update, get, Dict.get?_modify] at found
    split at found
    · rename_i same
      obtain ⟨old, before, rfl⟩ := Option.map_eq_some_iff.mp found
      rw [keeps]
      rw [← same] at before
      exact agrees.fields before origin
    · exact agrees.fields found origin
  ordered := agrees.ordered
  acyclic := agrees.acyclic

end Agrees

end TaskGraph

end Swarm
