import Swarm.Domain.Navigation
import Swarm.Lib.Rewiring

namespace Swarm

/-- A new edge is visited first. -/
theorem DiGraph.Complete.visited_addEdge {W : Type} {g : DiGraph W} (complete : g.Complete) (source target : Nat) :
    (g.addEdge source target).2.visited = (source, target) :: g.visited := by
  have last : (g.edges ++ [(source, target)])[g.edges.length]? = some (source, target) := by simp
  simp only [DiGraph.visited, DiGraph.addEdge, List.filterMap_cons, last]
  refine congrArg (List.cons _) (List.filterMap_congr ?_)
  intro index member
  exact List.getElem?_append_left (complete.mem_iff.mp member)

namespace TaskGraph
variable {g : TaskGraph} {slack : Nat}

/-- An edge from a dependency to its dependent. -/
def Feeds (g : TaskGraph) (dependency task : TaskId) : Prop := dependency ∈ g.dependencies task

namespace Agrees

theorem feeds_iff (agrees : g.Agrees slack) {dependency task : TaskId} :
    g.Feeds dependency task ↔ ∃ a b, g.index.get? dependency = some a ∧ g.index.get? task = some b ∧
      (a, b) ∈ g.graph.edges := by
  unfold Feeds
  constructor
  · intro member
    cases found : g.index.get? task with
    | none =>
      simp only [dependencies, found] at member
      cases member
    | some b =>
      obtain ⟨a, origin, edge⟩ := agrees.mem_sources.mp ((agrees.dependencies_perm found).mem_iff.mp member)
      exact ⟨a, b, origin, rfl, edge⟩
  · rintro ⟨a, b, origin, found, edge⟩
    exact (agrees.dependencies_perm found).mem_iff.mpr (agrees.mem_sources.mpr ⟨a, origin, edge⟩)

theorem feeds_record (agrees : g.Agrees slack) {task : TaskId} {node : TaskNode} (found : g.get task = some node)
    {dependency : TaskId} : g.Feeds dependency task ↔ dependency ∈ node.dependencies := by
  obtain ⟨index, there⟩ := agrees.index_of_get (by rw [found]; rfl)
  exact ((agrees.dependencies_perm there).trans (agrees.fields found there)).mem_iff

theorem feeds_dependents (agrees : g.Agrees slack) {dependency task : TaskId} :
    g.Feeds dependency task ↔ task ∈ g.dependents dependency := by
  rw [agrees.mem_dependents]
  constructor
  · intro feeds
    obtain ⟨_, _, _, there, _⟩ := agrees.feeds_iff.mp feeds
    obtain ⟨node, found⟩ := agrees.get_of_index there
    exact ⟨node, found, (agrees.feeds_record found).mp feeds⟩
  · rintro ⟨node, found, depends⟩
    exact (agrees.feeds_record found).mpr depends

/-- Paths between tasks are paths between their nodes. -/
theorem path_iff (agrees : g.Agrees slack) {source target : TaskId} {a b : Nat}
    (origin : g.index.get? source = some a) (goal : g.index.get? target = some b) :
    Relation.TransGen g.Feeds source target ↔ Relation.TransGen g.graph.Adjacent a b := by
  constructor
  · intro path
    induction path generalizing b with
    | single feeds =>
      obtain ⟨_, _, first, second, edge⟩ := agrees.feeds_iff.mp feeds
      rw [Option.some.inj (origin.symm.trans first), Option.some.inj (goal.symm.trans second)]
      exact .single edge
    | tail _ feeds ih =>
      obtain ⟨middle, _, first, second, edge⟩ := agrees.feeds_iff.mp feeds
      rw [Option.some.inj (goal.symm.trans second)]
      exact .tail (ih first) edge
  · intro path
    induction path generalizing target with
    | single edge => exact .single (agrees.feeds_iff.mpr ⟨_, _, origin, goal, edge⟩)
    | tail _ edge ih =>
      obtain ⟨middle, _, first, _⟩ := agrees.ends edge
      exact .tail (ih first) (agrees.feeds_iff.mpr ⟨_, _, first, goal, edge⟩)

/-- No task is behind itself. -/
theorem acyclic_feeds (agrees : g.Agrees slack) (task : TaskId) : ¬ Relation.TransGen g.Feeds task task := by
  intro path
  obtain ⟨_, feeds, _⟩ := Relation.TransGen.head'_iff.mp path
  obtain ⟨a, _, origin, _⟩ := agrees.feeds_iff.mp feeds
  exact agrees.acyclic a ((agrees.path_iff origin origin).mp path)

end Agrees

end TaskGraph

/-- A new edge closes a cycle exactly where its source is behind its target. -/
theorem DiGraph.Acyclic.addEdge_iff {W : Type} {g : DiGraph W} (acyclic : g.Acyclic) {source target : Nat}
    (other : source ≠ target) :
    (g.addEdge source target).2.Acyclic ↔ ¬ Relation.TransGen g.Adjacent target source := by
  have within : ∀ a b, g.Adjacent a b → (g.addEdge source target).2.Adjacent a b :=
    fun a b edge => List.mem_append_left _ edge
  have new : (g.addEdge source target).2.Adjacent source target := List.mem_append_right _ (List.mem_singleton_self _)
  constructor
  · intro still path
    exact still target (Relation.TransGen.tail (Relation.TransGen.mono within _ _ path) new)
  · intro free
    have splits : ∀ a b, (g.addEdge source target).2.Adjacent a b → g.Adjacent a b ∨ (a = source ∧ b = target) := by
      intro a b edge
      rcases List.mem_append.mp edge with old | last
      · exact Or.inl old
      · cases List.mem_singleton.mp last
        exact Or.inr ⟨rfl, rfl⟩
    intro node path
    rcases Rewiring.transGen_add splits path with old | ⟨there, back⟩
    · exact acyclic node old
    · rcases Relation.reflTransGen_iff_eq_or_transGen.mp (back.trans there) with same | round
      · exact other same
      · exact free round

namespace TaskGraph
variable {g : TaskGraph}

/-- The graph after `add_dependency` has accepted a new edge. -/
def linked (g : TaskGraph) (task dependsOn : TaskId) (taskIndex dependencyIndex : Nat) : TaskGraph :=
  TaskGraph.update { g with graph := (g.graph.addEdge dependencyIndex taskIndex).2 } task
    (fun node => { node with dependencies := node.dependencies ++ [dependsOn] })

/-- The ways through `add_dependency` for two tasks of the graph. -/
theorem Agrees.addDependency_cases {slack : Nat} (agrees : g.Agrees slack)
    {toposort : DiGraph TaskId → Except Nat (List Nat)} (detects : Detects toposort) {task dependsOn : TaskId}
    {taskIndex dependencyIndex : Nat} {node : TaskNode} (found : g.get task = some node)
    (goal : g.index.get? task = some taskIndex) (origin : g.index.get? dependsOn = some dependencyIndex) :
    ((task = dependsOn ∨ Relation.TransGen g.Feeds task dependsOn) ∧
      ∃ name, g.addDependency toposort task dependsOn = (.error (.cyclicGraph name), g)) ∨
    (¬ (task = dependsOn ∨ Relation.TransGen g.Feeds task dependsOn) ∧ dependsOn ∈ node.dependencies ∧
      g.addDependency toposort task dependsOn = (.ok (), g)) ∨
    (¬ (task = dependsOn ∨ Relation.TransGen g.Feeds task dependsOn) ∧ dependsOn ∉ node.dependencies ∧
      g.addDependency toposort task dependsOn = (.ok (), g.linked task dependsOn taskIndex dependencyIndex)) := by
  unfold TaskGraph.addDependency
  simp only [indexOf, goal, origin, found, Option.any_some, List.contains_eq_mem, decide_eq_true_eq]
  by_cases same : task = dependsOn
  · rw [if_pos same]
    exact Or.inl ⟨Or.inl same, _, rfl⟩
  rw [if_neg same]
  by_cases listed : dependsOn ∈ node.dependencies
  · rw [if_pos listed]
    refine Or.inr (Or.inl ⟨?_, listed, rfl⟩)
    rintro (equal | path)
    · exact same equal
    · exact agrees.acyclic_feeds task (path.tail ((agrees.feeds_record found).mpr listed))
  rw [if_neg listed]
  have apart : dependencyIndex ≠ taskIndex := by
    rintro rfl
    exact same (agrees.task_unique goal origin)
  have closes := agrees.acyclic.addEdge_iff apart
  have path := agrees.path_iff goal origin
  have sorted := detects _ (agrees.valid_addEdge goal origin)
  unfold assertAcyclic
  cases order : toposort (g.graph.addEdge dependencyIndex taskIndex).2 with
  | ok sequence =>
    have free := closes.mp (sorted.mp ⟨sequence, order⟩)
    refine Or.inr (Or.inr ⟨?_, listed, rfl⟩)
    rintro (equal | cycle)
    · exact same equal
    · exact free (path.mp cycle)
  | error culprit =>
    have undone : (g.graph.addEdge dependencyIndex taskIndex).2.removeEdge
      (g.graph.addEdge dependencyIndex taskIndex).1 = g.graph :=
      DiGraph.removeEdge_addEdge agrees.complete _ _
    have cycle : Relation.TransGen g.Feeds task dependsOn := by
      by_contra free
      obtain ⟨sequence, run⟩ := sorted.mpr (closes.mpr (fun walk => free (path.mpr walk)))
      rw [order] at run
      cases run
    simp only [undone]
    exact Or.inl ⟨Or.inr cycle, _, rfl⟩

section
variable {slack : Nat} (agrees : g.Agrees slack) {task dependsOn : TaskId} {taskIndex dependencyIndex : Nat}
  (goal : g.index.get? task = some taskIndex) (origin : g.index.get? dependsOn = some dependencyIndex)

theorem get_linked (other : TaskId) : (g.linked task dependsOn taskIndex dependencyIndex).get other =
    if other = task then (g.get task).map (fun node => { node with dependencies := node.dependencies ++ [dependsOn] })
    else g.get other := get_update

include agrees goal origin

theorem dependencies_linked (other : TaskId) :
    (g.linked task dependsOn taskIndex dependencyIndex).dependencies other =
    if other = task then dependsOn :: g.dependencies task else g.dependencies other := by
  have visited := agrees.complete.visited_addEdge dependencyIndex taskIndex
  have weights : (g.linked task dependsOn taskIndex dependencyIndex).graph.weights = g.graph.weights := rfl
  have index : (g.linked task dependsOn taskIndex dependencyIndex).index = g.index := rfl
  have seen : (g.linked task dependsOn taskIndex dependencyIndex).graph.visited = _ := visited
  unfold dependencies DiGraph.incoming
  rw [weights, index, seen]
  by_cases same : other = task
  · subst same
    simp [goal, agrees.named origin]
  · rw [if_neg same]
    cases there : g.index.get? other with
    | none => rfl
    | some i =>
      have elsewhere : taskIndex ≠ i := by
        rintro rfl
        exact same (agrees.task_unique there goal)
      simp [elsewhere]

theorem dependents_linked (other : TaskId) : (g.linked task dependsOn taskIndex dependencyIndex).dependents other =
    if other = dependsOn then task :: g.dependents dependsOn else g.dependents other := by
  have visited := agrees.complete.visited_addEdge dependencyIndex taskIndex
  have weights : (g.linked task dependsOn taskIndex dependencyIndex).graph.weights = g.graph.weights := rfl
  have index : (g.linked task dependsOn taskIndex dependencyIndex).index = g.index := rfl
  have seen : (g.linked task dependsOn taskIndex dependencyIndex).graph.visited = _ := visited
  unfold dependents DiGraph.outgoing
  rw [weights, index, seen]
  by_cases same : other = dependsOn
  · subst same
    simp [origin, agrees.named goal]
  · rw [if_neg same]
    cases there : g.index.get? other with
    | none => rfl
    | some i =>
      have elsewhere : dependencyIndex ≠ i := by
        rintro rfl
        exact same (agrees.task_unique there origin)
      simp [elsewhere]

end

/-- A new dependency is refused exactly where it would close a cycle, and then nothing changes;
otherwise it is among the dependencies of its task, and nothing else changes. -/
theorem Built.addDependency_exact {toposort : DiGraph TaskId → Except Nat (List Nat)} (detects : Detects toposort)
    (built : Built toposort g) {task dependsOn : TaskId} {node : TaskNode} (found : g.get task = some node)
    (known : (g.get dependsOn).isSome = true) :
    ((∃ name, (g.addDependency toposort task dependsOn).1 = .error (.cyclicGraph name)) ↔
      task = dependsOn ∨ Relation.TransGen g.Feeds task dependsOn) ∧
    (task = dependsOn ∨ Relation.TransGen g.Feeds task dependsOn → (g.addDependency toposort task dependsOn).2 = g) ∧
    (¬ (task = dependsOn ∨ Relation.TransGen g.Feeds task dependsOn) →
      (g.addDependency toposort task dependsOn).1 = .ok () ∧
      (dependsOn ∈ g.dependencies task → (g.addDependency toposort task dependsOn).2 = g) ∧
      (dependsOn ∉ g.dependencies task → ∀ other,
        (g.addDependency toposort task dependsOn).2.get other =
          (if other = task then some { node with dependencies := node.dependencies ++ [dependsOn] }
          else g.get other) ∧
        (g.addDependency toposort task dependsOn).2.dependencies other =
          (if other = task then dependsOn :: g.dependencies task else g.dependencies other) ∧
        (g.addDependency toposort task dependsOn).2.dependents other =
          (if other = dependsOn then task :: g.dependents dependsOn else g.dependents other))) := by
  have agrees := built.agrees detects
  have present : (g.get task).isSome = true := by rw [found]; rfl
  obtain ⟨taskIndex, goal⟩ := agrees.index_of_get present
  obtain ⟨dependencyIndex, origin⟩ := agrees.index_of_get known
  have listed : dependsOn ∈ g.dependencies task ↔ dependsOn ∈ node.dependencies := agrees.feeds_record found
  rcases agrees.addDependency_cases detects found goal origin with ⟨refused, name, run⟩ | ⟨free, there, run⟩
    | ⟨free, absent, run⟩
  · rw [run]
    exact ⟨⟨fun _ => refused, fun _ => ⟨name, rfl⟩⟩, fun _ => rfl, fun free => absurd refused free⟩
  · rw [run]
    refine ⟨⟨?_, fun refused => absurd refused free⟩, fun _ => rfl, fun _ => ⟨rfl, fun _ => rfl, ?_⟩⟩
    · rintro ⟨name, failed⟩
      cases failed
    · exact fun absent => absurd (listed.mpr there) absent
  · rw [run]
    refine ⟨⟨?_, fun refused => absurd refused free⟩, fun refused => absurd refused free, fun _ => ⟨rfl, ?_, ?_⟩⟩
    · rintro ⟨name, failed⟩
      cases failed
    · exact fun there => absurd (listed.mp there) absent
    · intro _ other
      refine ⟨?_, dependencies_linked agrees goal origin other, dependents_linked agrees goal origin other⟩
      rw [get_linked, found]
      rfl

/-- The first of three tasks in a row cannot wait for the last. -/
theorem addDependency_refused :
    ∃ name, (Built.joined.addDependency DiGraph.sort ⟨1⟩ ⟨3⟩).1 = .error (.cyclicGraph name) := by
  have found : Built.joined.get ⟨1⟩ = some (Built.joining ⟨0⟩ 1 []) := rfl
  have known : (Built.joined.get ⟨3⟩).isSome = true := rfl
  refine (Built.addDependency_exact detects_sort (Built.built_joined DiGraph.sort) found known).1.mpr
    (Or.inr (.single ?_))
  change (⟨1⟩ : TaskId) ∈ Built.joined.dependencies ⟨3⟩
  decide +kernel

end TaskGraph

end Swarm
