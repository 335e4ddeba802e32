import Swarm.Domain.Paths

namespace Swarm

/-- What petgraph's `toposort` is for: it fails exactly on the graphs with a cycle, and otherwise
lists each node once, after the nodes it has edges from. -/
structure Linearizes (toposort : DiGraph TaskId → Except Nat (List Nat)) : Prop where
  detects : Detects toposort
  all : ∀ g : DiGraph TaskId, g.Valid → ∀ order, toposort g = .ok order → order.Perm (List.range g.weights.length)
  forward : ∀ g : DiGraph TaskId, g.Valid → ∀ order, toposort g = .ok order →
    ∀ front node rest, order = front ++ node :: rest →
    ∀ source, (source, node) ∈ g.edges → source ∈ front

namespace DiGraph
variable {W : Type}

theorem sortFrom_forward {edges : List (Nat × Nat)} (fuel : Nat) (left out : List Nat) {order : List Nat}
    (run : sortFrom edges fuel left out = .ok order) : ∃ tail, order = out.reverse ++ tail ∧ tail.Perm left ∧
      ∀ front node rest, tail = front ++ node :: rest → ∀ source, (source, node) ∈ edges → source ∈ left →
        source ∈ front := by
  induction fuel generalizing left out with
  | zero =>
    cases left with
    | nil =>
      cases run
      exact ⟨[], by simp, List.Perm.refl _, fun front node rest split => by simp at split⟩
    | cons first rest => cases run
  | succ fuel ih =>
    cases left with
    | nil =>
      cases run
      exact ⟨[], by simp, List.Perm.refl _, fun front node rest split => by simp at split⟩
    | cons first rest =>
      unfold sortFrom at run
      cases found : (first :: rest).find?
        (fun v => edges.all (fun edge => edge.2 != v || !(first :: rest).contains edge.1)) with
      | none =>
        rw [found] at run
        cases run
      | some v =>
        rw [found] at run
        have member := List.mem_of_find?_eq_some found
        have free := List.find?_some found
        rw [List.all_eq_true] at free
        have source_free : ∀ a, (a, v) ∈ edges → a ∉ first :: rest := by
          intro a edge inside
          have clear := free (a, v) edge
          simp [inside] at clear
        obtain ⟨tail, whole, perm, forward⟩ := ih _ _ run
        refine ⟨v :: tail, by rw [whole, List.reverse_cons, List.append_assoc]; rfl, ?_, ?_⟩
        · exact (perm.cons v).trans (List.perm_cons_erase member).symm
        · intro front node after split source edge inside
          cases front with
          | nil =>
            cases split
            exact absurd inside (source_free source edge)
          | cons head front =>
            obtain ⟨rfl, later⟩ := List.cons.inj split
            by_cases same : source = v
            · exact same ▸ List.mem_cons_self
            · exact List.mem_cons_of_mem _
                (forward front node after later source edge ((List.mem_erase_of_ne same).mpr inside))

end DiGraph

theorem linearizes_sort : Linearizes DiGraph.sort := by
  refine ⟨detects_sort, ?_, ?_⟩
  · intro g _ order run
    obtain ⟨tail, whole, perm, _⟩ := DiGraph.sortFrom_forward _ _ _ run
    rw [List.reverse_nil, List.nil_append] at whole
    rw [whole]
    exact perm
  · intro g valid order run front node rest split source edge
    obtain ⟨tail, whole, perm, forward⟩ := DiGraph.sortFrom_forward _ _ _ run
    rw [List.reverse_nil, List.nil_append] at whole
    exact forward front node rest (whole.symm.trans split) source edge (List.mem_range.mpr (valid _ edge).1)

namespace TaskGraph
variable {g : TaskGraph} {toposort : DiGraph TaskId → Except Nat (List Nat)}

/-- Every node of the topology is a task. -/
def Tight (g : TaskGraph) : Prop := ∀ index task, g.graph.weights[index]? = some task → g.index.get? task = some index

theorem Tight.congr {next : TaskGraph} (tight : g.Tight) (weights : next.graph.weights = g.graph.weights)
    (index : next.index = g.index) : next.Tight := by
  intro i task found
  rw [weights] at found
  rw [index]
  exact tight _ _ found

theorem addDependency_nodes (toposort : DiGraph TaskId → Except Nat (List Nat)) (g : TaskGraph)
    (task dependsOn : TaskId) :
    (g.addDependency toposort task dependsOn).2.graph.weights = g.graph.weights ∧
      (g.addDependency toposort task dependsOn).2.index = g.index := by
  unfold addDependency
  split
  · exact ⟨rfl, rfl⟩
  · exact ⟨rfl, rfl⟩
  · split
    · exact ⟨rfl, rfl⟩
    · split
      · exact ⟨rfl, rfl⟩
      · dsimp only
        split
        · exact ⟨DiGraph.removeEdge_weights _, rfl⟩
        · exact ⟨rfl, rfl⟩

theorem Tight.insert (tight : g.Tight) {slack : Nat} (agrees : g.Agrees slack) {node : TaskNode} {id : TaskId}
    {next : TaskGraph} (run : g.insert node = .ok (id, next)) : next.Tight := by
  unfold TaskGraph.insert at run
  split at run
  · cases run
  · rename_i fresh
    split at run
    · cases run
    · cases run
      intro index task found
      rw [Agrees.place_weights] at found
      have inserted : (g.place node).index.get? task = if task = node.id then some g.graph.weights.length
        else g.index.get? task :=
        Dict.get?_insert
      rw [inserted]
      by_cases last : index = g.graph.weights.length
      · subst last
        simp only [List.getElem?_append_right (Nat.le_refl _), Nat.sub_self, List.getElem?_cons_zero,
          Option.some.injEq] at found
        rw [if_pos found.symm]
      · have bound : index < g.graph.weights.length := by
          have inside := (List.getElem?_eq_some_iff.mp found).1
          simp only [List.length_append, List.length_singleton] at inside
          omega
        rw [List.getElem?_append_left bound] at found
        have there := tight _ _ found
        rw [if_neg (agrees.other_of_index fresh there), there]

theorem Tight.attach {id : TaskId} {dependents : List TaskId} (rest : List TaskId) {g : TaskGraph} (tight : g.Tight)
    {result : TaskId} (run : (g.attach toposort id dependents rest).1 = .ok result) :
    (g.attach toposort id dependents rest).2.Tight := by
  induction rest generalizing g with
  | nil => exact tight
  | cons dependent rest ih =>
    obtain ⟨weights, index⟩ := addDependency_nodes toposort g dependent id
    unfold TaskGraph.attach at run ⊢
    cases added : g.addDependency toposort dependent id with
    | mk outcome next =>
      rw [added] at run weights index
      cases outcome with
      | error err => cases run
      | ok _ => exact ih (tight.congr weights index) run

theorem removeEdges_weights (edges : List Nat) (graph : DiGraph TaskId) :
    (edges.foldl DiGraph.removeEdge graph).weights = graph.weights := by
  induction edges generalizing graph with
  | nil => rfl
  | cons edge rest ih => rw [List.foldl_cons, ih, DiGraph.removeEdge_weights]

theorem Tight.adoptChildren (detects : Detects toposort) {task : TaskId} {inherited : List TaskId}
    (children : List TaskNode) {childIds : List TaskId} {slack : Nat} {g : TaskGraph} (tight : g.Tight)
    (agrees : g.Agrees slack) {result : List TaskId}
    (run : (g.adoptChildren toposort task inherited children childIds).1 = .ok result) :
    (g.adoptChildren toposort task inherited children childIds).2.Tight := by
  induction children generalizing g childIds slack with
  | nil => exact tight
  | cons child rest ih =>
    unfold TaskGraph.adoptChildren at run ⊢
    cases inserted : g.insert { child with dependencies := inherited } with
    | error err =>
      rw [inserted] at run
      cases run
    | ok result =>
      obtain ⟨childId, placed⟩ := result
      have here := tight.insert agrees inserted
      have agreed := agrees.insert inserted
      obtain ⟨weights, index⟩ := addDependency_nodes toposort placed task childId
      have step := (agreed.addDependency detects task childId).1
      rw [inserted] at run
      dsimp only at run ⊢
      cases added : placed.addDependency toposort task childId with
      | mk outcome next =>
        rw [added] at run weights index step
        cases outcome with
        | error err => cases run
        | ok _ => exact ih (here.congr weights index) step run

theorem Built.tight (detects : Detects toposort) (built : Built toposort g) : g.Tight := by
  induction built with
  | new jobId =>
    intro index task found
    simp [TaskGraph.new, DiGraph.new] at found
  | insert before run ih => exact ih.insert (before.agrees detects) run
  | addDependency task dependsOn _ ih =>
    obtain ⟨weights, index⟩ := addDependency_nodes toposort _ task dependsOn
    exact ih.congr weights index
  | @insertDynamic g node dependents id before run ih =>
    unfold TaskGraph.insertDynamic at run ⊢
    cases inserted : g.insert node with
    | error err =>
      rw [inserted] at run
      cases run
    | ok placed =>
      rw [inserted] at run
      exact (ih.insert (before.agrees detects) inserted).attach dependents run
  | @split g task children ids before run ih =>
    unfold TaskGraph.split at run ⊢
    by_cases empty : children.isEmpty
    · rw [if_pos empty] at run
      cases run
    · rw [if_neg empty] at run ⊢
      cases found : g.indexOf task with
      | error err =>
        rw [found] at run
        cases run
      | ok taskIndex =>
        rw [found] at run
        have goal := Agrees.indexOf_ok found
        have detached : (g.unlink task taskIndex).Tight := ih.congr (removeEdges_weights _ _) rfl
        exact detached.adoptChildren detects children ((before.agrees detects).unlink goal) run
  | setState _ run ih =>
    unfold TaskGraph.setState at run
    split at run
    · cases run
    · rename_i node _
      cases moved : applyTransition node.state _ _ _ _ _ with
      | error err =>
        rw [moved] at run
        cases run
      | ok result =>
        rw [moved] at run
        cases run
        exact ih.congr rfl rfl
  | restoreState _ run ih =>
    unfold TaskGraph.restoreState at run
    split at run <;> cases run
    exact ih.congr rfl rfl

/-- Each task is listed once, after what it waits for. -/
theorem topologicalOrder_ok (linearizes : Linearizes toposort) {slack : Nat} (agrees : g.Agrees slack)
    (tight : g.Tight) :
    ∃ order, g.topologicalOrder toposort = .ok order ∧ order.Nodup ∧
      (∀ task, task ∈ order ↔ (g.get task).isSome = true) ∧
      ∀ front task rest, order = front ++ task :: rest → ∀ dependency, g.Feeds dependency task →
        dependency ∈ front := by
  obtain ⟨order, run⟩ := (linearizes.detects g.graph agrees.valid).mpr agrees.acyclic
  have all := linearizes.all g.graph agrees.valid order run
  have unique : ∀ i j task, g.graph.weights[i]? = some task → g.graph.weights[j]? = some task → i = j :=
    fun i j task first second => Option.some.inj ((tight i task first).symm.trans (tight j task second))
  refine ⟨order.filterMap (fun index => g.graph.weights[index]?), ?_, ?_, ?_, ?_⟩
  · unfold topologicalOrder
    rw [run]
  · refine List.Nodup.filterMap ?_ (all.nodup_iff.mpr List.nodup_range)
    intro i j task first second
    exact unique i j task first second
  · intro task
    rw [List.mem_filterMap, ← agrees.known]
    constructor
    · rintro ⟨index, _, weight⟩
      rw [tight index task weight]
      rfl
    · intro present
      obtain ⟨index, there⟩ := Option.isSome_iff_exists.mp present
      exact ⟨index, all.mem_iff.mpr (List.mem_range.mpr (agrees.inside there)), agrees.named there⟩
  · intro front task rest split dependency feeds
    obtain ⟨before, after, whole, first, second⟩ := List.filterMap_eq_append_iff.mp split
    obtain ⟨skipped, index, later, tail, none, weight, _⟩ := List.filterMap_eq_cons_iff.mp second
    obtain ⟨a, b, origin, goal, edge⟩ := agrees.feeds_iff.mp feeds
    have here : index = b := unique index b task weight (agrees.named goal)
    subst here
    have position : order = (before ++ skipped) ++ index :: later := by rw [whole, tail, List.append_assoc]
    have earlier := linearizes.forward g.graph agrees.valid order run _ _ _ position a edge
    rcases List.mem_append.mp earlier with inside | missing
    · rw [← first]
      exact List.mem_filterMap.mpr ⟨a, inside, agrees.named origin⟩
    · have weighed := agrees.named origin
      rw [none a missing] at weighed
      cases weighed

end TaskGraph

end Swarm
