import Swarm.Domain.Agreement

namespace Swarm

namespace TaskGraph

/-- Each dependency of a new task adds an edge, which makes up for one that is missing elsewhere. -/
theorem addEdges_ordered {index : Dict TaskId Nat} {nodeIndex : Nat} {dependencies : List TaskId}
    (known : ∀ dependency ∈ dependencies, (index.get? dependency).isSome) {graph : DiGraph TaskId}
    (complete : graph.Complete) :
    (addEdges index nodeIndex graph dependencies).Complete ∧
      ∀ slack node, graph.OrderedAt slack node → (addEdges index nodeIndex graph dependencies).OrderedAt
        (if node = nodeIndex then slack else slack - dependencies.length) node := by
  unfold addEdges
  induction dependencies generalizing graph with
  | nil =>
    refine ⟨complete, ?_⟩
    intro slack node ordered
    refine ordered.mono ?_
    split <;> simp
  | cons dependency rest ih =>
    obtain ⟨i, found⟩ := Option.isSome_iff_exists.mp (known dependency List.mem_cons_self)
    have others : ∀ other ∈ rest, (index.get? other).isSome :=
      fun other member => known other (List.mem_cons_of_mem _ member)
    rw [List.foldl_cons]
    simp only [found]
    obtain ⟨complete', ordered'⟩ := ih others (complete.addEdge i nodeIndex)
    refine ⟨complete', ?_⟩
    intro slack node ordered
    by_cases same : node = nodeIndex
    · have kept := ordered' slack node (ordered.addEdge complete i nodeIndex)
      rw [if_pos same] at kept ⊢
      exact kept
    · have kept := ordered' (slack - 1) node (ordered.addEdge_other complete i same)
      rw [if_neg same] at kept ⊢
      refine kept.mono ?_
      rw [List.length_cons]
      omega

namespace Agrees
variable {g : TaskGraph} {slack : Nat}

/-- Nothing joins a node that is not there yet. -/
theorem ordered_fresh (agrees : g.Agrees slack) : g.graph.OrderedAt 0 g.graph.weights.length := by
  intro m index found
  obtain ⟨source, edge⟩ := agrees.complete.mem_incomingEdges.mp (List.mem_of_getElem? found)
  have bound := (agrees.valid _ (List.mem_of_getElem? edge)).2
  exact absurd bound (Nat.lt_irrefl _)

section
variable {node : TaskNode}

theorem place_weights : (g.place node).graph.weights = g.graph.weights ++ [node.id] := by
  obtain ⟨weights, _, _⟩ := addEdges_spec (g.index.insert node.id g.graph.weights.length) g.graph.weights.length
    (g.graph.addNode node.id).2 node.dependencies
  exact weights

variable (agrees : g.Agrees slack) (fresh : ¬ (g.get node.id).isSome)
  (known : ∀ dependency ∈ node.dependencies, (g.get dependency).isSome)

include agrees fresh in
theorem other_of_index {task : TaskId} {index : Nat} (found : g.index.get? task = some index) : task ≠ node.id := by
  rintro rfl
  have present := agrees.known node.id
  rw [found] at present
  exact fresh present.symm

include fresh known in
theorem other_of_depends {dependency : TaskId} (depends : dependency ∈ node.dependencies) : dependency ≠ node.id := by
  rintro rfl
  exact fresh (known _ depends)

include fresh known in
/-- The edges of a new task come from the nodes of its dependencies. -/
theorem place_edges : (g.place node).graph.edges = g.graph.edges ++ node.dependencies.filterMap
    (fun dependency => (g.index.get? dependency).map (·, g.graph.weights.length)) := by
  obtain ⟨_, edges, _⟩ := addEdges_spec (g.index.insert node.id g.graph.weights.length) g.graph.weights.length
    (g.graph.addNode node.id).2 node.dependencies
  refine edges.trans (congrArg (g.graph.edges ++ ·) (List.filterMap_congr ?_))
  intro dependency depends
  rw [Dict.get?_insert_of_ne (other_of_depends fresh known depends)]

include agrees fresh known in
theorem place_ordered : (g.place node).graph.Complete ∧
    ∀ index, (g.place node).graph.OrderedAt (slack - node.dependencies.length) index := by
  have indexed : ∀ dependency ∈ node.dependencies,
      ((g.index.insert node.id g.graph.weights.length).get? dependency).isSome := by
    intro dependency depends
    rw [Dict.get?_insert_of_ne (other_of_depends fresh known depends), agrees.known]
    exact known _ depends
  have result : (g.place node).graph.Complete ∧ ∀ slack index, g.graph.OrderedAt slack index →
      (g.place node).graph.OrderedAt
        (if index = g.graph.weights.length then slack else slack - node.dependencies.length) index :=
    addEdges_ordered indexed agrees.complete
  obtain ⟨complete, ordered⟩ := result
  refine ⟨complete, ?_⟩
  intro index
  by_cases new : index = g.graph.weights.length
  · have start := ordered 0 index (by rw [new]; exact agrees.ordered_fresh)
    rw [if_pos new] at start
    exact start.mono (Nat.zero_le _)
  · have kept := ordered slack index (agrees.ordered index)
    rw [if_neg new] at kept
    exact kept

include agrees in
/-- The new edges lead into the new node, out of old ones. -/
theorem mem_newEdges {edge : Nat × Nat} (member : edge ∈ node.dependencies.filterMap
    (fun dependency => (g.index.get? dependency).map (·, g.graph.weights.length))) :
    edge.2 = g.graph.weights.length ∧ edge.1 < g.graph.weights.length ∧
      ∃ source, g.index.get? source = some edge.1 := by
  obtain ⟨dependency, _, found⟩ := List.mem_filterMap.mp member
  obtain ⟨i, origin, rfl⟩ := Option.map_eq_some_iff.mp found
  exact ⟨rfl, agrees.inside origin, dependency, origin⟩

include agrees fresh known in
theorem place_sources_new : (g.place node).sources g.graph.weights.length = node.dependencies := by
  have none : g.graph.edges.filter (fun edge => edge.2 == g.graph.weights.length) = [] := by
    refine List.filter_eq_nil_iff.mpr ?_
    intro edge member
    have bound := (agrees.valid edge member).2
    rw [beq_iff_eq]
    omega
  have all : (node.dependencies.filterMap
      (fun dependency => (g.index.get? dependency).map (·, g.graph.weights.length))).filter
      (fun edge => edge.2 == g.graph.weights.length) =
      node.dependencies.filterMap (fun dependency => (g.index.get? dependency).map (·, g.graph.weights.length)) := by
    refine List.filter_eq_self.mpr ?_
    intro edge member
    rw [beq_iff_eq]
    exact (agrees.mem_newEdges member).1
  rw [sources, place_edges fresh known, place_weights, List.filter_append, none, all, List.nil_append,
    List.filterMap_filterMap]
  refine (List.filterMap_congr ?_).trans (List.filterMap_some)
  intro dependency depends
  obtain ⟨i, origin⟩ := agrees.index_of_get (known _ depends)
  rw [origin, Option.map_some, Option.bind_some, List.getElem?_append_left (agrees.inside origin)]
  exact agrees.named origin

include agrees fresh known in
theorem place_sources_old {index : Nat} (bound : index < g.graph.weights.length) :
    (g.place node).sources index = g.sources index := by
  have none : (node.dependencies.filterMap
      (fun dependency => (g.index.get? dependency).map (·, g.graph.weights.length))).filter
      (fun edge => edge.2 == index) = [] := by
    refine List.filter_eq_nil_iff.mpr ?_
    intro edge member
    have new := (agrees.mem_newEdges member).1
    rw [beq_iff_eq]
    omega
  rw [sources, place_edges fresh known, place_weights, List.filter_append, none, List.append_nil]
  refine List.filterMap_congr ?_
  intro edge member
  exact List.getElem?_append_left (agrees.valid edge (List.mem_filter.mp member).1).1

include agrees fresh known in
theorem place : (g.place node).Agrees (slack - node.dependencies.length) := by
  obtain ⟨complete, ordered⟩ := agrees.place_ordered fresh known
  have index_eq : ∀ task, (g.place node).index.get? task =
      if task = node.id then some g.graph.weights.length else g.index.get? task := fun task => Dict.get?_insert
  have get_eq : ∀ task, (g.place node).get task = if task = node.id then some node else g.get task :=
    fun task => Dict.get?_insert
  have kept : ∀ {task index}, g.index.get? task = some index → (g.place node).index.get? task = some index := by
    intro task index found
    rw [index_eq, if_neg (agrees.other_of_index fresh found)]
    exact found
  refine ⟨complete, ?_, ?_, ?_, ?_, ordered, ?_⟩
  · intro task index found
    rw [index_eq] at found
    rw [place_weights]
    split at found
    · rename_i same
      rw [← Option.some.inj found, same]
      simp
    · rw [List.getElem?_append_left (agrees.inside found)]
      exact agrees.named found
  · intro task
    rw [index_eq, get_eq]
    split
    · rfl
    · exact agrees.known task
  · intro edge member
    rw [place_edges fresh known, List.mem_append] at member
    rcases member with old | new
    · obtain ⟨source, target, origin, goal⟩ := agrees.ends old
      exact ⟨source, target, kept origin, kept goal⟩
    · obtain ⟨goal, _, source, origin⟩ := agrees.mem_newEdges new
      exact ⟨source, node.id, kept origin, by rw [index_eq, if_pos rfl, goal]⟩
  · intro task found index present goal
    rw [index_eq] at goal
    rw [get_eq] at present
    split at goal
    · rename_i same
      rw [if_pos same] at present
      rw [← Option.some.inj goal, ← Option.some.inj present, agrees.place_sources_new fresh known]
    · rename_i other
      rw [if_neg other] at present
      rw [agrees.place_sources_old fresh known (agrees.inside goal)]
      exact agrees.fields present goal
  · have into : ∀ edge ∈ (g.place node).graph.edges, edge ∈ g.graph.edges ∨ edge.2 = g.graph.weights.length := by
      intro edge member
      rw [place_edges fresh known, List.mem_append] at member
      exact member.imp_right (fun new => (agrees.mem_newEdges new).1)
    have last : ∀ edge ∈ (g.place node).graph.edges, edge.1 ≠ g.graph.weights.length := by
      intro edge member
      rw [place_edges fresh known, List.mem_append] at member
      rcases member with old | new
      · exact Nat.ne_of_lt (agrees.valid edge old).1
      · exact Nat.ne_of_lt (agrees.mem_newEdges new).2.1
    exact agrees.acyclic.sink into last

end

theorem insert (agrees : g.Agrees slack) {node : TaskNode} {id : TaskId} {next : TaskGraph}
    (run : g.insert node = .ok (id, next)) : next.Agrees (slack - node.dependencies.length) := by
  unfold TaskGraph.insert at run
  split at run
  · cases run
  · rename_i fresh
    split at run
    · cases run
    · rename_i complete
      cases run
      refine agrees.place fresh ?_
      intro dependency depends
      have present := List.find?_eq_none.mp complete dependency depends
      simpa [Option.isSome_iff_ne_none] using present

/-- An edge that closes no cycle, and the record of it. -/
theorem link (agrees : g.Agrees slack) {task dependsOn : TaskId} {taskIndex dependencyIndex : Nat}
    (goal : g.index.get? task = some taskIndex) (origin : g.index.get? dependsOn = some dependencyIndex)
    (acyclic : (g.graph.addEdge dependencyIndex taskIndex).2.Acyclic) :
    (TaskGraph.update { g with graph := (g.graph.addEdge dependencyIndex taskIndex).2 } task
      (fun node => { node with dependencies := node.dependencies ++ [dependsOn] })).Agrees slack := by
  have edges : (g.graph.addEdge dependencyIndex taskIndex).2.edges = g.graph.edges ++
    [(dependencyIndex, taskIndex)] := rfl
  refine ⟨agrees.complete.addEdge _ _, agrees.named, ?_, ?_, ?_, ?_, acyclic⟩
  · intro other
    have known := agrees.known other
    simp only [TaskGraph.update, get, Dict.get?_modify] at known ⊢
    split
    · rename_i same
      rw [known, same, Option.isSome_map]
    · exact known
  · intro edge member
    rcases List.mem_append.mp member with old | new
    · exact agrees.ends old
    · rw [List.mem_singleton.mp new]
      exact ⟨dependsOn, task, origin, goal⟩
  · intro other node index found there
    have sources_eq : (TaskGraph.update { g with graph := (g.graph.addEdge dependencyIndex taskIndex).2 } task
        (fun node => { node with dependencies := node.dependencies ++ [dependsOn] })).sources index =
        g.sources index ++ if taskIndex = index then [dependsOn] else [] := by
      simp only [sources, TaskGraph.update, edges, List.filter_append, List.filterMap_append]
      by_cases same : taskIndex = index
      · simp [same, DiGraph.addEdge, agrees.named origin]
      · simp [same, DiGraph.addEdge]
    rw [sources_eq]
    simp only [TaskGraph.update, get, Dict.get?_modify] at found
    by_cases same : other = task
    · subst same
      rw [if_pos rfl] at found
      obtain ⟨before, present, rfl⟩ := Option.map_eq_some_iff.mp found
      have here : taskIndex = index := Option.some.inj (goal.symm.trans there)
      rw [if_pos here]
      exact (agrees.fields present there).append_right _
    · have elsewhere : taskIndex ≠ index := by
        rintro rfl
        exact same (agrees.task_unique there goal)
      rw [if_neg same] at found
      rw [if_neg elsewhere, List.append_nil]
      exact agrees.fields found there
  · intro index
    exact (agrees.ordered index).addEdge agrees.complete _ _

theorem valid_addEdge (agrees : g.Agrees slack) {task dependsOn : TaskId} {taskIndex dependencyIndex : Nat}
    (goal : g.index.get? task = some taskIndex) (origin : g.index.get? dependsOn = some dependencyIndex) :
    (g.graph.addEdge dependencyIndex taskIndex).2.Valid := by
  intro edge member
  rcases List.mem_append.mp member with old | new
  · exact agrees.valid edge old
  · rw [List.mem_singleton.mp new]
    exact ⟨agrees.inside origin, agrees.inside goal⟩

theorem indexOf_ok {task : TaskId} {index : Nat} (run : g.indexOf task = .ok index) :
    g.index.get? task = some index := by
  unfold indexOf at run
  split at run
  · rename_i found
    rw [found, Except.ok.inj run]
  · cases run

/-- A refused dependency leaves the graph as it was. -/
theorem addDependency {toposort : DiGraph TaskId → Except Nat (List Nat)} (agrees : g.Agrees slack)
    (detects : Detects toposort) (task dependsOn : TaskId) :
    (g.addDependency toposort task dependsOn).2.Agrees slack ∧
      ∀ err, (g.addDependency toposort task dependsOn).1 = .error err →
        (g.addDependency toposort task dependsOn).2 = g := by
  unfold TaskGraph.addDependency
  split
  · exact ⟨agrees, fun _ _ => rfl⟩
  · exact ⟨agrees, fun _ _ => rfl⟩
  · rename_i taskIndex dependencyIndex goal origin
    split
    · exact ⟨agrees, fun _ _ => rfl⟩
    · split
      · exact ⟨agrees, fun _ _ => rfl⟩
      · have undone : (g.graph.addEdge dependencyIndex taskIndex).2.removeEdge g.graph.edges.length = g.graph :=
          DiGraph.removeEdge_addEdge agrees.complete _ _
        have given : (g.graph.addEdge dependencyIndex taskIndex).1 = g.graph.edges.length := rfl
        dsimp only
        split
        · rw [given, undone]
          exact ⟨agrees, fun _ _ => rfl⟩
        · rename_i accepted
          have sorted : ∃ order, toposort (g.graph.addEdge dependencyIndex taskIndex).2 = .ok order := by
            unfold assertAcyclic at accepted
            split at accepted
            · rename_i order run
              exact ⟨order, run⟩
            · cases accepted
          have valid := agrees.valid_addEdge (indexOf_ok goal) (indexOf_ok origin)
          refine ⟨agrees.link (indexOf_ok goal) (indexOf_ok origin) ((detects _ valid).mp sorted), ?_⟩
          intro err failed
          cases failed

/-- Taking a task off its dependencies leaves one edge less for each of them. -/
theorem unlink (agrees : g.Agrees 0) {task : TaskId} {taskIndex : Nat} (goal : g.index.get? task = some taskIndex) :
    (g.unlink task taskIndex).Agrees (g.dependencies task).length := by
  obtain ⟨complete, weights, edges, ordered⟩ :=
    DiGraph.detach taskIndex (g.graph.incomingEdges taskIndex) agrees.complete rfl
    (agrees.ordered taskIndex) agrees.ordered
  rw [agrees.length_dependencies goal]
  have old : ∀ edge ∈ (g.unlink task taskIndex).graph.edges, edge ∈ g.graph.edges := by
    intro edge member
    exact (List.mem_filter.mp (edges.mem_iff.mp member)).1
  have sources_perm : ∀ index, ((g.unlink task taskIndex).sources index).Perm
      (if index = taskIndex then [] else g.sources index) := by
    intro index
    have filtered := (edges.filter (fun edge => edge.2 == index)).filterMap (fun edge => g.graph.weights[edge.1]?)
    rw [List.filter_filter] at filtered
    simp only [sources, TaskGraph.unlink, TaskGraph.update, weights]
    refine filtered.trans (List.Perm.of_eq ?_)
    by_cases same : index = taskIndex
    · rw [if_pos same]
      have none : g.graph.edges.filter (fun edge => edge.2 == index && edge.2 != taskIndex) = [] := by
        refine List.filter_eq_nil_iff.mpr ?_
        intro edge _
        simp [same]
      rw [none, List.filterMap_nil]
    · rw [if_neg same]
      refine congrArg (List.filterMap _) (List.filter_congr ?_)
      intro edge _
      by_cases there : edge.2 = index
      · simp [there, same]
      · simp [there]
  refine ⟨complete, ?_, ?_, ?_, ?_, ?_, agrees.acyclic.of_subset old⟩
  · intro other index found
    simp only [TaskGraph.unlink, TaskGraph.update, weights]
    exact agrees.named found
  · intro other
    have known := agrees.known other
    simp only [TaskGraph.unlink, TaskGraph.update, get, Dict.get?_modify] at known ⊢
    split
    · rename_i same
      rw [known, same, Option.isSome_map]
    · exact known
  · intro edge member
    exact agrees.ends (old edge member)
  · intro other node index found there
    refine (sources_perm index).trans ?_
    simp only [TaskGraph.unlink, TaskGraph.update, get, Dict.get?_modify] at found
    by_cases same : other = task
    · subst same
      rw [if_pos rfl] at found
      obtain ⟨before, _, rfl⟩ := Option.map_eq_some_iff.mp found
      rw [if_pos (Option.some.inj (there.symm.trans goal))]
    · have elsewhere : index ≠ taskIndex := by
        rintro rfl
        exact same (agrees.task_unique there goal)
      rw [if_neg same] at found
      rw [if_neg elsewhere]
      exact agrees.fields found there
  · intro index
    have result := ordered index
    rw [Nat.zero_add] at result
    exact result

section
variable {toposort : DiGraph TaskId → Except Nat (List Nat)} (detects : Detects toposort)
include detects

theorem attach {id : TaskId} {dependents : List TaskId} (rest : List TaskId) {g : TaskGraph} (agrees : g.Agrees slack)
    {result : TaskId} (run : (TaskGraph.attach toposort id dependents rest g).1 = .ok result) :
    (TaskGraph.attach toposort id dependents rest g).2.Agrees slack := by
  induction rest generalizing g with
  | nil => exact agrees
  | cons dependent rest ih =>
    have step := (agrees.addDependency detects dependent id).1
    unfold TaskGraph.attach at run ⊢
    cases added : g.addDependency toposort dependent id with
    | mk outcome next =>
      rw [added] at run step
      cases outcome with
      | error err => cases run
      | ok _ => exact ih step run

theorem insertDynamic (agrees : g.Agrees 0) {node : TaskNode} {dependents : List TaskId} {result : TaskId}
    (run : (g.insertDynamic toposort node dependents).1 = .ok result) :
    (g.insertDynamic toposort node dependents).2.Agrees 0 := by
  unfold TaskGraph.insertDynamic at run ⊢
  cases inserted : g.insert node with
  | error err =>
    rw [inserted] at run
    cases run
  | ok placed =>
    rw [inserted] at run
    have here := agrees.insert inserted
    rw [Nat.zero_sub] at here
    exact attach detects dependents here run

/-- Each child takes over every dependency, so no slack is left after the first. -/
theorem adoptChildren {task : TaskId} {inherited : List TaskId} (children : List TaskNode)
    {childIds : List TaskId} {slack : Nat} {g : TaskGraph} (agrees : g.Agrees slack)
    (enough : slack ≤ inherited.length) {result : List TaskId}
    (run : (TaskGraph.adoptChildren toposort task inherited children childIds g).1 = .ok result) :
    (TaskGraph.adoptChildren toposort task inherited children childIds g).2.Agrees
      (if children.isEmpty then slack else 0) := by
  induction children generalizing g childIds slack with
  | nil => exact agrees
  | cons child rest ih =>
    unfold TaskGraph.adoptChildren at run ⊢
    cases inserted : g.insert { child with dependencies := inherited } with
    | error err =>
      rw [inserted] at run
      cases run
    | ok placed =>
      obtain ⟨childId, placed⟩ := placed
      have here := agrees.insert inserted
      rw [Nat.sub_eq_zero_of_le enough] at here
      have step := (here.addDependency detects task childId).1
      rw [inserted] at run
      dsimp only at run ⊢
      cases added : placed.addDependency toposort task childId with
      | mk outcome next =>
        rw [added] at run step
        cases outcome with
        | error err => cases run
        | ok _ =>
          have rest' := ih step (Nat.zero_le _) run
          rw [ite_self] at rest'
          exact rest'

theorem split (agrees : g.Agrees 0) {task : TaskId} {children : List TaskNode} {result : List TaskId}
    (run : (g.split toposort task children).1 = .ok result) : (g.split toposort task children).2.Agrees 0 := by
  unfold TaskGraph.split at run ⊢
  by_cases empty : children.isEmpty
  · rw [if_pos empty] at run
    cases run
  · rw [if_neg empty] at run ⊢
    cases found : g.indexOf task with
    | error err =>
      rw [found] at run
      cases run
    | ok taskIndex =>
      rw [found] at run
      have here := agrees.unlink (indexOf_ok found)
      have result := adoptChildren detects children here (Nat.le_refl _) run
      rw [if_neg empty] at result
      exact result

end

theorem setState (agrees : g.Agrees slack) {task : TaskId} {target : TaskState} {actor : String}
    {reason : Option String} {correlationId : CorrelationId} {now : DateTime} {transition : Transition TaskState}
    {next : TaskGraph} (run : g.setState task target actor reason correlationId now = .ok (transition, next)) :
    next.Agrees slack := by
  unfold TaskGraph.setState at run
  split at run
  · cases run
  · rename_i node found
    cases moved : applyTransition node.state target actor reason correlationId now with
    | error err =>
      rw [moved] at run
      cases run
    | ok result =>
      rw [moved] at run
      cases run
      exact agrees.update task (fun _ => rfl)

theorem restoreState (agrees : g.Agrees slack) {task : TaskId} {state : TaskState} {next : TaskGraph}
    (run : g.restoreState task state = .ok next) : next.Agrees slack := by
  unfold TaskGraph.restoreState at run
  split at run
  · cases run
  · cases run
    exact agrees.update task (fun _ => rfl)

end Agrees

section
variable (toposort : DiGraph TaskId → Except Nat (List Nat))

/-- The graphs that calls of these methods lead to. Only `add_dependency` may be refused. -/
inductive Built : TaskGraph → Prop
  | new (jobId : JobId) : Built (new jobId)
  | insert {g next : TaskGraph} {node : TaskNode} {id : TaskId} :
      Built g → g.insert node = .ok (id, next) → Built next
  | addDependency {g : TaskGraph} (task dependsOn : TaskId) :
      Built g → Built (g.addDependency toposort task dependsOn).2
  | insertDynamic {g : TaskGraph} {node : TaskNode} {dependents : List TaskId} {id : TaskId} : Built g →
      (g.insertDynamic toposort node dependents).1 = .ok id → Built (g.insertDynamic toposort node dependents).2
  | split {g : TaskGraph} {task : TaskId} {children : List TaskNode} {ids : List TaskId} : Built g →
      (g.split toposort task children).1 = .ok ids → Built (g.split toposort task children).2
  | setState {g next : TaskGraph} {task : TaskId} {target : TaskState} {actor : String} {reason : Option String}
      {correlationId : CorrelationId} {now : DateTime} {transition : Transition TaskState} : Built g →
      g.setState task target actor reason correlationId now = .ok (transition, next) → Built next
  | restoreState {g next : TaskGraph} {task : TaskId} {state : TaskState} : Built g →
      g.restoreState task state = .ok next → Built next

end

namespace Built
variable {toposort : DiGraph TaskId → Except Nat (List Nat)} {g : TaskGraph}

theorem agrees (detects : Detects toposort) (built : Built toposort g) : g.Agrees 0 := by
  induction built with
  | new jobId => exact agrees_new jobId
  | insert _ run ih =>
    have next := ih.insert run
    rw [Nat.zero_sub] at next
    exact next
  | addDependency task dependsOn _ ih => exact (ih.addDependency detects task dependsOn).1
  | insertDynamic _ run ih => exact Agrees.insertDynamic detects ih run
  | split _ run ih => exact Agrees.split detects ih run
  | setState _ run ih => exact ih.setState run
  | restoreState _ run ih => exact ih.restoreState run

/-- However a graph was built, petgraph and the task records agree, and no
edges form a cycle. -/
theorem representations_agree (detects : Detects toposort) (built : Built toposort g) :
    (∀ task, task ∈ g.index.keys ↔ task ∈ g.nodes.keys) ∧
      (∀ task index, g.index.get? task = some index → g.graph.weights[index]? = some task) ∧
      (∀ task node, g.get task = some node → (g.dependencies task).Perm node.dependencies) ∧
      (∀ task dependent, dependent ∈ g.dependents task ↔
        ∃ node, g.get dependent = some node ∧ task ∈ node.dependencies) ∧
      g.graph.Acyclic := by
  have agrees := built.agrees detects
  refine ⟨?_, ?_, ?_, ?_, agrees.acyclic⟩
  · intro task
    have same := agrees.known task
    rw [← not_iff_not, ← Dict.get?_eq_none, ← Dict.get?_eq_none, ← Option.not_isSome_iff_eq_none,
      ← Option.not_isSome_iff_eq_none, same]
    rfl
  · intro task index found
    exact agrees.named found
  · intro task node found
    obtain ⟨index, there⟩ := agrees.index_of_get (by rw [found]; rfl)
    exact (agrees.dependencies_perm there).trans (agrees.fields found there)
  · intro task dependent
    exact agrees.mem_dependents

/-- A task that joins two others. -/
def joining (job : JobId) (number : Nat) (dependencies : List TaskId) : TaskNode :=
  { TaskNode.new ⟨number⟩ job .work "join" "join what came before" 0 with dependencies := dependencies }

def joined : TaskGraph :=
  (((TaskGraph.new ⟨0⟩).place (joining ⟨0⟩ 1 [])).place (joining ⟨0⟩ 2 [⟨1⟩])).place (joining ⟨0⟩ 3 [⟨1⟩, ⟨2⟩])

theorem built_joined (toposort : DiGraph TaskId → Except Nat (List Nat)) : Built toposort joined := by
  have first : (TaskGraph.new ⟨0⟩).insert (joining ⟨0⟩ 1 []) =
    .ok (⟨1⟩, (TaskGraph.new ⟨0⟩).place (joining ⟨0⟩ 1 [])) := rfl
  have second : ((TaskGraph.new ⟨0⟩).place (joining ⟨0⟩ 1 [])).insert (joining ⟨0⟩ 2 [⟨1⟩]) =
      .ok (⟨2⟩, ((TaskGraph.new ⟨0⟩).place (joining ⟨0⟩ 1 [])).place (joining ⟨0⟩ 2 [⟨1⟩])) := rfl
  have third : (((TaskGraph.new ⟨0⟩).place (joining ⟨0⟩ 1 [])).place (joining ⟨0⟩ 2 [⟨1⟩])).insert
      (joining ⟨0⟩ 3 [⟨1⟩, ⟨2⟩]) =
      .ok (⟨3⟩, joined) := rfl
  exact .insert (.insert (.insert (.new ⟨0⟩) first) second) third

/-- A task with two dependencies is split in two. -/
theorem representations_agree_split :
    ∃ node, (joined.split DiGraph.sort ⟨3⟩ [joining ⟨0⟩ 4 [], joining ⟨0⟩ 5 []]).2.get ⟨3⟩ = some node ∧
      node.dependencies = [⟨4⟩, ⟨5⟩] ∧
      ((joined.split DiGraph.sort ⟨3⟩ [joining ⟨0⟩ 4 [], joining ⟨0⟩ 5 []]).2.dependencies ⟨3⟩).Perm [⟨4⟩, ⟨5⟩] ∧
      (joined.split DiGraph.sort ⟨3⟩ [joining ⟨0⟩ 4 [], joining ⟨0⟩ 5 []]).2.graph.Acyclic := by
  have run : (joined.split DiGraph.sort ⟨3⟩ [joining ⟨0⟩ 4 [], joining ⟨0⟩ 5 []]).1 = .ok [⟨4⟩, ⟨5⟩] := rfl
  have built := (built_joined DiGraph.sort).split run
  obtain ⟨_, _, fields, _, acyclic⟩ := representations_agree detects_sort built
  have found : ∃ node, (joined.split DiGraph.sort ⟨3⟩ [joining ⟨0⟩ 4 [], joining ⟨0⟩ 5 []]).2.get ⟨3⟩ = some node ∧
      node.dependencies = [⟨4⟩, ⟨5⟩] := ⟨_, rfl, rfl⟩
  obtain ⟨node, present, same⟩ := found
  have agreed := fields ⟨3⟩ node present
  rw [same] at agreed
  exact ⟨node, present, same, agreed, acyclic⟩

end Built

end TaskGraph

end Swarm
