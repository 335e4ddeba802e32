import Swarm.Domain.Readiness

namespace Swarm.TaskGraph
variable {g : TaskGraph}

theorem length_withState (g : TaskGraph) (wanted : TaskState → Bool) :
    (g.withState wanted).length = g.nodes.values.countP (fun node => wanted node.state) := by
  rw [withState, List.length_map, List.countP_eq_length_filter]

/-- Every task counts as one. -/
theorem count_all (g : TaskGraph) : (g.withState (fun _ => true)).length = g.len := by
  simp [length_withState, len, Dict.values]

/-- A task that changes its state leaves one count and enters another. -/
theorem count_update_state {task : TaskId} {node : TaskNode} (found : g.get task = some node) (target : TaskState)
    (wanted : TaskState → Bool) :
    ((g.update task (fun node => { node with state := target })).withState wanted).length +
      (wanted node.state).toNat =
      (g.withState wanted).length + (wanted target).toNat := by
  rw [length_withState, length_withState]
  exact Dict.countP_modify found (fun node => { node with state := target }) (fun node => wanted node.state)

theorem count_update_attempt (g : TaskGraph) (task : TaskId) (attempt : Nat) (wanted : TaskState → Bool) :
    ((g.update task (fun node => { node with attempt := attempt })).withState wanted).length =
      (g.withState wanted).length := by
  rw [length_withState, length_withState]
  cases found : g.nodes.get? task with
  | none =>
    have same : g.nodes.modify task (fun node => { node with attempt := attempt }) = g.nodes :=
      Dict.modify_of_fixed (fun _ known => by rw [found] at known; cases known)
    simp only [update, same]
  | some node =>
    have counted :=
      Dict.countP_modify found (fun node => { node with attempt := attempt }) (fun node => wanted node.state)
    exact Nat.add_right_cancel counted

theorem count_rehash {nodes : Dict TaskId TaskNode} (moved : g.nodes.Rehash nodes) (wanted : TaskState → Bool) :
    (withState { g with nodes := nodes } wanted).length = (g.withState wanted).length := by
  rw [length_withState, length_withState]
  exact ((moved.map Prod.snd).countP_eq _).symm

theorem total_counts (g : TaskGraph) : g.counts.total = g.len := by
  have keeps : ∀ nodes : List TaskNode, ∀ counts : GraphCounts, (nodes.foldl countTask counts).total =
      counts.total := by
    intro nodes
    induction nodes with
    | nil => exact fun _ => rfl
    | cons node rest ih =>
      intro counts
      rw [List.foldl_cons, ih, countTask]
      split <;> rfl
  exact keeps g.nodes.values { total := g.len }

/-- A terminal task is completed, or it was given up. -/
theorem count_terminal (terminal : ∀ node ∈ g.nodes.values, node.isTerminal = true) :
    (g.withState (· == .completed)).length + (g.withState isAbandoned).length = g.len := by
  have either : ∀ node ∈ g.nodes.values, (node.state == .completed) = true ↔ (!isAbandoned node.state) = true := by
    intro node member
    have here := terminal node member
    cases state : node.state <;> simp [state, TaskNode.isTerminal, TaskState.isTerminal, isAbandoned] at here ⊢
  have size : g.len = g.nodes.values.length := by simp [Dict.values, len]
  rw [length_withState, length_withState, List.countP_congr either, size,
    List.length_eq_countP_add_countP (fun node => isAbandoned node.state), Nat.add_comm]
  simp

end Swarm.TaskGraph
