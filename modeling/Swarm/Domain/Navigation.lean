import Swarm.Domain.Built
import Swarm.Domain.Readiness

namespace Swarm.TaskGraph

/-- Tasks stand under their ids. -/
def Keyed (g : TaskGraph) : Prop := ∀ task node, g.get task = some node → node.id = task

section
variable {g : TaskGraph}

theorem Keyed.update (keyed : g.Keyed) {graph : DiGraph TaskId} (task : TaskId) {change : TaskNode → TaskNode}
    (keeps : ∀ node, (change node).id = node.id) :
    (TaskGraph.update { g with graph := graph } task change).Keyed := by
  intro other node found
  rw [get_update] at found
  split at found
  · rename_i same
    obtain ⟨old, known, rfl⟩ := Option.map_eq_some_iff.mp found
    rw [keeps, same]
    exact keyed _ _ known
  · exact keyed other node found

theorem Keyed.insert (keyed : g.Keyed) {node : TaskNode} {id : TaskId} {next : TaskGraph}
    (run : g.insert node = .ok (id, next)) : next.Keyed := by
  unfold TaskGraph.insert at run
  split at run
  · cases run
  · split at run
    · cases run
    · cases run
      intro other current found
      change (g.nodes.insert node.id node).get? other = some current at found
      rw [Dict.get?_insert] at found
      split at found
      · rename_i same
        cases found
        exact same.symm
      · exact keyed other current found

theorem Keyed.addDependency (keyed : g.Keyed) (toposort : DiGraph TaskId → Except Nat (List Nat))
    (task dependsOn : TaskId) :
    (g.addDependency toposort task dependsOn).2.Keyed := by
  unfold TaskGraph.addDependency
  split
  · exact keyed
  · exact keyed
  · split
    · exact keyed
    · split
      · exact keyed
      · dsimp only
        split
        · exact keyed
        · exact keyed.update task (fun _ => rfl)

theorem Keyed.attach {toposort : DiGraph TaskId → Except Nat (List Nat)} {id : TaskId} {dependents : List TaskId}
    (rest : List TaskId) {g : TaskGraph} (keyed : g.Keyed) {result : TaskId}
    (run : (TaskGraph.attach toposort id dependents rest g).1 = .ok result) :
    (TaskGraph.attach toposort id dependents rest g).2.Keyed := by
  induction rest generalizing g with
  | nil => exact keyed
  | cons dependent rest ih =>
    have step := keyed.addDependency toposort dependent id
    unfold TaskGraph.attach at run ⊢
    cases added : g.addDependency toposort dependent id with
    | mk outcome next =>
      rw [added] at run step
      cases outcome with
      | error err => cases run
      | ok _ => exact ih step run

theorem Keyed.adoptChildren {toposort : DiGraph TaskId → Except Nat (List Nat)} {task : TaskId}
    {inherited : List TaskId} (children : List TaskNode) {childIds : List TaskId} {g : TaskGraph} (keyed : g.Keyed) :
    (TaskGraph.adoptChildren toposort task inherited children childIds g).2.Keyed := by
  induction children generalizing g childIds with
  | nil => exact keyed
  | cons child rest ih =>
    unfold TaskGraph.adoptChildren
    cases inserted : g.insert { child with dependencies := inherited } with
    | error err => exact keyed
    | ok placed =>
      obtain ⟨childId, placed⟩ := placed
      have step := (keyed.insert inserted).addDependency toposort task childId
      dsimp only
      cases added : placed.addDependency toposort task childId with
      | mk outcome next =>
        rw [added] at step
        cases outcome with
        | error err => exact step
        | ok _ => exact ih step

theorem Built.keyed {toposort : DiGraph TaskId → Except Nat (List Nat)} (built : Built toposort g) : g.Keyed := by
  induction built with
  | new jobId =>
    intro task node found
    cases found
  | insert _ run ih => exact ih.insert run
  | addDependency task dependsOn _ ih => exact ih.addDependency toposort task dependsOn
  | @insertDynamic g node dependents id _ run ih =>
    unfold TaskGraph.insertDynamic at run ⊢
    cases inserted : g.insert node with
    | error err => exact ih
    | ok placed =>
      rw [inserted] at run
      exact (ih.insert inserted).attach dependents run
  | @split g task children ids _ run ih =>
    unfold TaskGraph.split
    split
    · exact ih
    · split
      · exact ih
      · rename_i index _
        have unlinked : (g.unlink task index).Keyed := ih.update task (fun _ => rfl)
        exact unlinked.adoptChildren children
  | setState _ run ih =>
    obtain ⟨_, _, _, _, _, rfl⟩ := setState_ok run
    exact ih.update _ (fun _ => rfl)
  | restoreState _ run ih =>
    unfold TaskGraph.restoreState at run
    split at run <;> cases run
    exact ih.update _ (fun _ => rfl)

/-- A topology without cycles that the records agree with can be scheduled. -/
theorem Agrees.navigable {slack : Nat} (agrees : g.Agrees slack) (keyed : g.Keyed) : g.Navigable := by
  have origin : ∀ {task node dependency}, g.get task = some node → dependency ∈ node.dependencies →
      ∃ a b, g.index.get? dependency = some a ∧ g.index.get? task = some b ∧ (a, b) ∈ g.graph.edges := by
    intro task node dependency found depends
    obtain ⟨b, there⟩ := agrees.index_of_get (by rw [found]; rfl)
    obtain ⟨a, known, edge⟩ := agrees.mem_sources.mp ((agrees.fields found there).mem_iff.mpr depends)
    exact ⟨a, b, known, there, edge⟩
  refine ⟨fun found => keyed _ _ found, ?_, ?_, ?_⟩
  · intro task node dependency found depends
    obtain ⟨a, _, known, _⟩ := origin found depends
    rw [← agrees.known, known]
    rfl
  · exact fun found depends => agrees.mem_dependents.mpr ⟨_, found, depends⟩
  · -- the nodes of the part have a first one along the edges
    classical
    rintro part ⟨task, node, found, inside⟩
    let inPart : Nat → Prop := fun index => ∃ task, g.index.get? task = some index ∧ part task
    let indices := (List.range g.graph.weights.length).filter (fun index => inPart index)
    have mem_indices : ∀ {task index}, g.index.get? task = some index → part task → index ∈ indices := by
      intro task index there inside
      refine List.mem_filter.mpr ⟨List.mem_range.mpr (agrees.inside there), decide_eq_true ?_⟩
      exact ⟨task, there, inside⟩
    have present : (g.get task).isSome := by rw [found]; rfl
    obtain ⟨index, there⟩ := agrees.index_of_get present
    obtain ⟨first, member, free⟩ :=
      DiGraph.exists_source agrees.acyclic (List.ne_nil_of_mem (mem_indices there inside))
    obtain ⟨source, known, inside'⟩ := of_decide_eq_true (List.mem_filter.mp member).2
    obtain ⟨current, present⟩ := agrees.get_of_index known
    refine ⟨source, current, present, inside', ?_⟩
    intro dependency depends within
    obtain ⟨a, b, before, same, edge⟩ := origin present depends
    rw [known] at same
    cases same
    exact free a (mem_indices before within) edge

theorem Built.navigable {toposort : DiGraph TaskId → Except Nat (List Nat)} (detects : Detects toposort)
    (built : Built toposort g) : g.Navigable := (built.agrees detects).navigable built.keyed

end

end Swarm.TaskGraph
