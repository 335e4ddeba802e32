import Swarm.Domain.Plan

namespace Swarm.TaskGraph

def stateOf (g : TaskGraph) (task : TaskId) : Option TaskState := (g.get task).map TaskNode.state

theorem get_update {g : TaskGraph} {task other : TaskId} {change : TaskNode → TaskNode} :
    (g.update task change).get other = if other = task then (g.get task).map change else g.get other :=
  Dict.get?_modify

theorem stateOf_update_state {g : TaskGraph} {task other : TaskId} {node : TaskNode} (found : g.get task = some node)
    (state : TaskState) :
    (g.update task (fun node => { node with state := state })).stateOf other =
      if other = task then some state else g.stateOf other := by
  unfold stateOf
  rw [get_update]
  split <;> simp [found]

theorem stateOf_update_attempt {g : TaskGraph} {task other : TaskId} (attempt : Nat) :
    (g.update task (fun node => { node with attempt := attempt })).stateOf other = g.stateOf other := by
  unfold stateOf
  rw [get_update]
  split
  · rename_i same
    rw [same, Option.map_map]
    rfl
  · rfl

theorem stateOf_rehash {g : TaskGraph} {nodes : Dict TaskId TaskNode} (moved : g.nodes.Rehash nodes) (task : TaskId) :
    stateOf { g with nodes := nodes } task = g.stateOf task := by
  unfold stateOf get
  rw [moved.get?]

theorem setState_ok {g g' : TaskGraph} {task : TaskId} {target : TaskState} {actor : String} {reason : Option String}
    {correlationId : CorrelationId} {now : DateTime} {transition : Transition TaskState}
    (run : g.setState task target actor reason correlationId now = .ok (transition, g')) :
    ∃ node, g.get task = some node ∧ target ∈ StateMachine.allowed node.state ∧ transition.target = target ∧
      transition.source = some node.state ∧ g' = g.update task (fun node => { node with state := target }) := by
  unfold setState at run
  cases found : g.get task with
  | none => rw [found] at run; cases run
  | some node =>
    rw [found] at run
    cases moved : applyTransition node.state target actor reason correlationId now with
    | error e => simp [moved, bind, Except.bind] at run
    | ok answer =>
      obtain ⟨next, record⟩ := answer
      obtain ⟨rfl, legal, source, same⟩ := applyTransition_ok moved
      simp only [moved, bind, Except.bind, pure, Except.pure] at run
      cases run
      exact ⟨node, rfl, legal, same, source, rfl⟩

theorem setState_of_allowed {g : TaskGraph} {task : TaskId} {target : TaskState} {node : TaskNode}
    (found : g.get task = some node) (legal : target ∈ StateMachine.allowed node.state) (actor : String)
    (reason : Option String) (correlationId : CorrelationId) (now : DateTime) :
    ∃ transition, g.setState task target actor reason correlationId now =
      .ok (transition, g.update task (fun node => { node with state := target })) := by
  simp only [setState, applyTransition, found, StateMachine.transition_of_mem legal]
  exact ⟨_, rfl⟩

/-- Every dependency of the task is complete. -/
def Unblocked (g : TaskGraph) (node : TaskNode) : Prop :=
  ∀ dependency ∈ node.dependencies, g.stateOf dependency = some .completed

/-- What scheduling relies on: tasks stand under their ids, dependencies are known
from both sides, and any part of the tasks has a first one. -/
structure Navigable (g : TaskGraph) : Prop where
  keyed : ∀ {task node}, g.get task = some node → node.id = task
  closed : ∀ {task node dependency}, g.get task = some node → dependency ∈ node.dependencies →
    (g.get dependency).isSome = true
  dependents : ∀ {task node dependency}, g.get task = some node → dependency ∈ node.dependencies →
    task ∈ g.dependents dependency
  first : ∀ part : TaskId → Prop, (∃ task node, g.get task = some node ∧ part task) →
    ∃ task node, g.get task = some node ∧ part task ∧ ∀ dependency ∈ node.dependencies, ¬ part dependency

theorem Shaped.navigable {g : TaskGraph} {plan : List TaskNode} (shaped : g.Shaped plan) : g.Navigable := by
  have planned : ∀ {task node}, g.get task = some node →
      ∃ original ∈ plan, original.id = task ∧ original.dependencies = node.dependencies := by
    intro task node found
    obtain ⟨rfl, original, member, blanks⟩ := shaped.get_some found
    have sameId := congrArg TaskNode.id blanks
    have sameDependencies := congrArg TaskNode.dependencies blanks
    exact ⟨original, member, sameId, sameDependencies⟩
  refine ⟨fun found => (shaped.get_some found).1, ?_, ?_, ?_⟩
  · intro task node dependency found depends
    obtain ⟨original, member, _, same⟩ := planned found
    exact shaped.get_isSome.mpr (shaped.ordered.closed member (same ▸ depends))
  · intro task node dependency found depends
    obtain ⟨original, member, id, same⟩ := planned found
    rw [← id]
    exact shaped.mem_dependents member (same ▸ depends)
  · rintro part ⟨task, node, found, inside⟩
    obtain ⟨original, member, id, _⟩ := planned found
    obtain ⟨first, there, inside', free⟩ := shaped.ordered.exists_first part ⟨original, member, id ▸ inside⟩
    obtain ⟨current, known, blanks⟩ := shaped.get_of_mem there
    have same : current.dependencies = first.dependencies := by simpa using congrArg TaskNode.dependencies blanks
    exact ⟨first.id, current, known, inside', by rw [same]; exact free⟩

namespace Navigable
variable {g : TaskGraph}

/-- A change that leaves the topology and the plans of the tasks alone. -/
theorem regraph (navigable : g.Navigable) {g' : TaskGraph}
    (dependents : ∀ task, g'.dependents task = g.dependents task)
    (blanks : ∀ task, (g'.get task).map TaskNode.blank = (g.get task).map TaskNode.blank) : g'.Navigable := by
  have back : ∀ {task node}, g'.get task = some node →
      ∃ old, g.get task = some old ∧ old.id = node.id ∧ old.dependencies = node.dependencies := by
    intro task node found
    have same := blanks task
    rw [found] at same
    obtain ⟨old, known, equal⟩ := Option.map_eq_some_iff.mp same.symm
    have sameId := congrArg TaskNode.id equal
    have sameDependencies := congrArg TaskNode.dependencies equal
    exact ⟨old, known, sameId, sameDependencies⟩
  have isSome : ∀ task, (g'.get task).isSome = (g.get task).isSome := by
    intro task
    have same := congrArg Option.isSome (blanks task)
    simpa using same
  refine ⟨?_, ?_, ?_, ?_⟩
  · intro task node found
    obtain ⟨old, known, id, _⟩ := back found
    exact id ▸ navigable.keyed known
  · intro task node dependency found depends
    obtain ⟨old, known, _, same⟩ := back found
    rw [isSome]
    exact navigable.closed known (same ▸ depends)
  · intro task node dependency found depends
    obtain ⟨old, known, _, same⟩ := back found
    rw [dependents]
    exact navigable.dependents known (same ▸ depends)
  · rintro part ⟨task, node, found, inside⟩
    obtain ⟨old, known, _, _⟩ := back found
    obtain ⟨first, original, there, inside', free⟩ := navigable.first part ⟨task, old, known, inside⟩
    have present := isSome first
    rw [there] at present
    obtain ⟨current, here⟩ := Option.isSome_iff_exists.mp present
    obtain ⟨twin, again, _, same⟩ := back here
    rw [there] at again
    cases again
    exact ⟨first, current, here, inside', by rw [← same]; exact free⟩

theorem mem_withState (navigable : g.Navigable) {wanted : TaskState → Bool} {task : TaskId} :
    task ∈ g.withState wanted ↔ ∃ state, g.stateOf task = some state ∧ wanted state = true := by
  simp only [withState, List.mem_map, List.mem_filter, Dict.mem_values, stateOf]
  constructor
  · rintro ⟨node, ⟨⟨key, member⟩, fits⟩, rfl⟩
    have found : g.get key = some node := Dict.get?_eq_some.mpr member
    rw [navigable.keyed found]
    exact ⟨node.state, by rw [found]; rfl, fits⟩
  · rintro ⟨state, known, fits⟩
    obtain ⟨node, found, rfl⟩ := Option.map_eq_some_iff.mp known
    exact ⟨node, ⟨⟨task, Dict.get?_eq_some.mp found⟩, fits⟩, navigable.keyed found⟩

theorem isReady_iff (navigable : g.Navigable) {node : TaskNode} :
    g.isReady node = true ↔ (node.state = .created ∨ node.state = .waitingForDependency) ∧ g.Unblocked node := by
  have completed : ∀ task, task ∈ g.withState (· == .completed) ↔ g.stateOf task = some .completed := by
    intro task
    rw [navigable.mem_withState]
    constructor
    · rintro ⟨state, found, fits⟩
      rw [found, eq_of_beq fits]
    · intro found
      exact ⟨_, found, rfl⟩
  simp only [isReady, TaskNode.dependenciesSatisfied, Bool.and_eq_true, Bool.or_eq_true, beq_iff_eq, List.all_eq_true,
    List.contains_iff_mem, completed, Unblocked]

theorem mem_ready (navigable : g.Navigable) {task : TaskId} :
    task ∈ g.ready ↔ ∃ node, g.get task = some node ∧
      (node.state = .created ∨ node.state = .waitingForDependency) ∧ g.Unblocked node := by
  simp only [ready, List.mem_map, List.mem_insertionSort, List.mem_filter, Dict.mem_values, navigable.isReady_iff]
  constructor
  · rintro ⟨node, ⟨⟨key, member⟩, fits⟩, rfl⟩
    have found : g.get key = some node := Dict.get?_eq_some.mpr member
    exact ⟨node, by rw [navigable.keyed found]; exact found, fits⟩
  · rintro ⟨node, found, fits⟩
    exact ⟨node, ⟨⟨task, Dict.get?_eq_some.mp found⟩, fits⟩, navigable.keyed found⟩

/-- No two tasks in the map have the same id. -/
theorem nodup_ids (navigable : g.Navigable) : (g.nodes.values.map TaskNode.id).Nodup := by
  have same : g.nodes.values.map TaskNode.id = g.nodes.entries.map Prod.fst := by
    rw [Dict.values, List.map_map]
    refine List.map_congr_left ?_
    intro entry member
    exact navigable.keyed (Dict.get?_eq_some.mpr member)
  rw [same]
  exact g.nodes.nodup

theorem nodup_ready (navigable : g.Navigable) : g.ready.Nodup := by
  have part : ((g.nodes.values.filter g.isReady).map TaskNode.id).Nodup :=
    navigable.nodup_ids.sublist (List.filter_sublist.map TaskNode.id)
  exact ((List.perm_insertionSort _ _).map TaskNode.id).nodup_iff.mpr part

end Navigable

theorem visits_blocked {g : TaskGraph} (dependents : List TaskId) {walk : Walk} (found : walk.blocked ≠ []) :
    (dependents.foldl g.visit walk).blocked ≠ [] := by
  induction dependents generalizing walk with
  | nil => exact found
  | cons dependent rest ih =>
    refine ih ?_
    unfold visit
    split
    · exact found
    · split
      · simp
      · exact found

theorem walkForward_blocked {g : TaskGraph} (fuel : Nat) {walk : Walk} (found : walk.blocked ≠ []) :
    (g.walkForward fuel walk).blocked ≠ [] := by
  induction fuel generalizing walk with
  | zero => exact found
  | succ fuel ih =>
    unfold walkForward
    split
    · exact found
    · exact ih (visits_blocked _ found)

/-- A round either blocks a task or passes by every task that is not terminal. -/
theorem visits_pass {g : TaskGraph} {task : TaskId}
    (unfinished : (g.get task).any (fun node => !node.isTerminal) = true) (dependents : List TaskId) {walk : Walk}
    (unseen : task ∉ walk.seen) :
    (dependents.foldl g.visit walk).blocked ≠ [] ∨
      task ∉ (dependents.foldl g.visit walk).seen ∧ (dependents.foldl g.visit walk).frontier = walk.frontier ∧
        task ∉ dependents := by
  induction dependents generalizing walk with
  | nil => exact Or.inr ⟨unseen, rfl, List.not_mem_nil⟩
  | cons dependent rest ih =>
    rw [List.foldl_cons]
    by_cases seen : dependent ∈ walk.seen
    · have same : g.visit walk dependent = walk := if_pos seen
      have different : task ≠ dependent := fun equal => unseen (equal ▸ seen)
      rw [same]
      simpa [different] using ih unseen
    · by_cases waits : (g.get dependent).any (fun node => !node.isTerminal) = true
      · refine Or.inl (visits_blocked rest ?_)
        rw [visit, if_neg seen, if_pos waits]
        simp
      · have step : g.visit walk dependent = { walk with seen := dependent :: walk.seen } := by
          rw [visit, if_neg seen, if_neg waits]
        have different : task ≠ dependent := fun equal => waits (equal ▸ unfinished)
        rw [step]
        have later : task ∉ { walk with seen := dependent :: walk.seen }.seen := by simp [different, unseen]
        simpa [different] using ih later

theorem walkForward_reaches {g : TaskGraph} {abandoned task : TaskId}
    (unfinished : (g.get task).any (fun node => !node.isTerminal) = true) (depends : task ∈ g.dependents abandoned)
    (fuel : Nat) {walk : Walk} (unseen : task ∉ walk.seen) (waiting : abandoned ∈ walk.frontier)
    (enough : walk.frontier.length ≤ fuel) : (g.walkForward fuel walk).blocked ≠ [] := by
  induction fuel generalizing walk with
  | zero =>
    rw [List.length_eq_zero_iff.mp (Nat.le_zero.mp enough)] at waiting
    cases waiting
  | succ fuel ih =>
    unfold walkForward
    split
    · rename_i empty
      rw [empty] at waiting
      cases waiting
    · rename_i first rest split
      have before : task ∉ { walk with frontier := rest }.seen := unseen
      rcases visits_pass unfinished (g.dependents first) before with
        found | ⟨still, same, free⟩
      · exact walkForward_blocked fuel found
      · rw [split] at waiting enough
        have later : abandoned ∈ rest := by
          rcases List.mem_cons.mp waiting with here | later
          · exact absurd (here ▸ depends) free
          · exact later
        refine ih still (by rw [same]; exact later) ?_
        rw [same]
        exact Nat.le_of_succ_le_succ enough

/-- A task that waits behind an abandoned one is found. -/
theorem Navigable.blockedByAbandoned_ne_nil {g : TaskGraph} (navigable : g.Navigable) {abandoned task : TaskId}
    {state : TaskState} (gone : g.stateOf abandoned = some state) (isGone : isAbandoned state = true)
    {node : TaskNode} (found : g.get task = some node) (depends : abandoned ∈ node.dependencies)
    (unfinished : node.state.isTerminal = false) :
    g.blockedByAbandoned ≠ [] := by
  have isOpen : (g.get task).any (fun node => !node.isTerminal) = true := by
    simp [found, TaskNode.isTerminal, unfinished]
  have listed := navigable.mem_withState.mpr ⟨state, gone, isGone⟩
  refine walkForward_reaches isOpen (navigable.dependents found depends) _ ?_ (List.mem_reverse.mpr listed) ?_
  · intro inside
    obtain ⟨other, same, isGone⟩ := navigable.mem_withState.mp inside
    simp only [stateOf, found, Option.map_some, Option.some.injEq] at same
    subst same
    cases waiting : node.state <;> simp [waiting, isAbandoned, TaskState.isTerminal] at isGone unfinished
  · simp only [withState, List.length_reverse, List.length_map, len]
    exact (List.length_filter_le _ _).trans (by simp [Dict.values])

/-- When nothing is in flight, a graph with an unfinished task has a task to
queue or a task to give up. -/
theorem Navigable.ready_or_blocked {g : TaskGraph} (navigable : g.Navigable)
    (settled : ∀ task state, g.stateOf task = some state → state.isFresh = true ∨ state.isTerminal = true)
    (unfinished : ∃ task state, g.stateOf task = some state ∧ state.isTerminal = false) :
    g.ready ≠ [] ∨ g.blockedByAbandoned ≠ [] := by
  have waits : ∃ task node, g.get task = some node ∧ ∃ state, g.stateOf task = some state ∧ state.isFresh = true := by
    obtain ⟨task, state, known, running⟩ := unfinished
    obtain ⟨node, found, _⟩ := Option.map_eq_some_iff.mp known
    rcases settled task state known with fresh | terminal
    · exact ⟨task, node, found, state, known, fresh⟩
    · exact absurd (running.symm.trans terminal) (by simp)
  obtain ⟨task, node, found, ⟨state, known, fresh⟩, free⟩ :=
    navigable.first (fun task => ∃ state, g.stateOf task = some state ∧ state.isFresh = true) waits
  have same : node.state = state := by simpa [stateOf, found] using known
  subst same
  by_cases complete : g.Unblocked node
  · have waiting : node.state = .created ∨ node.state = .waitingForDependency := by
      cases here : node.state <;> simp [here, TaskState.isFresh] at fresh ⊢
    exact Or.inl (List.ne_nil_of_mem (navigable.mem_ready.mpr ⟨node, found, waiting, complete⟩))
  · unfold Unblocked at complete
    push Not at complete
    obtain ⟨dependency, depends, incomplete⟩ := complete
    obtain ⟨upstream, present⟩ := Option.isSome_iff_exists.mp (navigable.closed found depends)
    have upstreamState : g.stateOf dependency = some upstream.state := by simp [stateOf, present]
    have gone : isAbandoned upstream.state = true := by
      rcases settled _ _ upstreamState with waiting | terminal
      · exact absurd ⟨_, upstreamState, waiting⟩ (free dependency depends)
      · rw [upstreamState] at incomplete
        cases other : upstream.state <;> simp [other, TaskState.isTerminal, isAbandoned] at terminal incomplete ⊢
    have unfinished' : node.state.isTerminal = false := by
      cases here : node.state <;> simp [here, TaskState.isFresh, TaskState.isTerminal] at fresh ⊢
    exact Or.inr (navigable.blockedByAbandoned_ne_nil upstreamState gone found depends unfinished')

/-- An incomplete graph with tasks has an unfinished one. -/
theorem exists_unfinished {g : TaskGraph} (inhabited : g.nodes.entries ≠ []) (incomplete : g.isComplete = false) :
    ∃ task state, g.stateOf task = some state ∧ state.isTerminal = false := by
  simp only [isComplete, List.isEmpty_eq_false_iff.mpr inhabited, Bool.not_false, Bool.true_and, List.all_eq_false,
    Dict.mem_values] at incomplete
  obtain ⟨node, ⟨task, member⟩, running⟩ := incomplete
  have found : g.get task = some node := Dict.get?_eq_some.mpr member
  exact ⟨task, node.state, by simp [stateOf, found], by simpa [TaskNode.isTerminal] using running⟩

end Swarm.TaskGraph
