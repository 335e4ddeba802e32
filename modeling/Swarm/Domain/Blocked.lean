import Swarm.Domain.Stranded

namespace Swarm.TaskGraph
open Relation
variable {g : TaskGraph}

theorem not_unfinished_of_abandoned {task : TaskId} (gone : g.Abandoned task) : ¬ g.Unfinished task := by
  obtain ⟨state, there, isGone⟩ := gone
  rintro ⟨node, found, isOpen⟩
  have same : node.state = state := by simpa [stateOf, found] using there
  subst same
  cases here : node.state <;> simp [here, isAbandoned, TaskNode.isTerminal, TaskState.isTerminal] at isGone isOpen

namespace Coherent
variable (coherent : g.Coherent)
include coherent

theorem mem_abandoned {task : TaskId} : task ∈ g.withState isAbandoned ↔ g.Abandoned task :=
  coherent.navigable.mem_withState

/-- The walk starts with everything it needs. -/
theorem walking_start : g.Walking ⟨[], (g.withState isAbandoned).reverse, g.withState isAbandoned⟩ := by
  refine ⟨List.nodup_nil, ?_, by simp, ?_⟩
  · intro task isOpen
    refine ⟨fun inside => absurd isOpen (not_unfinished_of_abandoned (coherent.mem_abandoned.mp inside)), ?_⟩
    intro inside
    cases inside
  · exact fun task inside => Or.inl (coherent.mem_abandoned.mp (List.mem_reverse.mp inside))

theorem covered_start : g.Covered ⟨[], (g.withState isAbandoned).reverse, g.withState isAbandoned⟩ := by
  rintro task (gone | inside)
  · exact Or.inl (List.mem_reverse.mpr (coherent.mem_abandoned.mpr gone))
  · cases inside

theorem budget_start : g.budget ⟨[], (g.withState isAbandoned).reverse, g.withState isAbandoned⟩ ≤ g.len := by
  have unique : (g.withState isAbandoned ++ g.unmet (g.withState isAbandoned)).Nodup := by
    refine List.nodup_append.mpr ⟨?_, List.Nodup.filter _ g.nodes.nodup, ?_⟩
    · exact coherent.navigable.nodup_ids.sublist (List.filter_sublist.map TaskNode.id)
    · rintro task first _ second rfl
      exact of_decide_eq_true (List.mem_filter.mp second).2 first
  have inside : g.withState isAbandoned ++ g.unmet (g.withState isAbandoned) ⊆ g.nodes.entries.map Prod.fst := by
    intro task member
    rcases List.mem_append.mp member with first | second
    · obtain ⟨_, there, _⟩ := coherent.mem_abandoned.mp first
      obtain ⟨node, found, _⟩ := Option.map_eq_some_iff.mp there
      exact List.mem_map.mpr ⟨(task, node), Dict.get?_eq_some.mp found, rfl⟩
    · exact (List.mem_filter.mp second).1
  have shorter := (unique.subperm inside).length_le
  rw [List.length_append, List.length_map] at shorter
  unfold budget
  rw [List.length_reverse]
  exact shorter

/-- Of the tasks that wait, one without an abandoned task behind it would be ready. -/
theorem stranded_of_stuck (fresh : ∀ task node, g.get task = some node → node.isTerminal = false →
    node.state = .created ∨ node.state = .waitingForDependency) (stuck : g.ready = []) {task : TaskId}
    (unfinished : g.Unfinished task) : g.Stranded task := by
  have navigable := coherent.navigable
  by_contra free
  obtain ⟨node, found, isOpen⟩ := unfinished
  obtain ⟨first, current, here, ⟨⟨_, again, waits⟩, clear⟩, before⟩ := navigable.first
    (fun task => g.Unfinished task ∧ ¬ g.Stranded task) ⟨task, node, found, ⟨node, found, isOpen⟩, free⟩
  cases here.symm.trans again
  have blocked : ¬ g.Unblocked current := by
    intro unblocked
    have ready := navigable.mem_ready.mpr ⟨current, here, fresh first current here waits, unblocked⟩
    rw [stuck] at ready
    cases ready
  unfold Unblocked at blocked
  push Not at blocked
  obtain ⟨dependency, depends, incomplete⟩ := blocked
  have step : g.Strands dependency first := ⟨⟨current, here, depends⟩, current, here, waits⟩
  obtain ⟨upstream, present⟩ := Option.isSome_iff_exists.mp (navigable.closed here depends)
  have known : g.stateOf dependency = some upstream.state := by simp [stateOf, present]
  by_cases isOpen : upstream.isTerminal = false
  · have stranded : g.Stranded dependency := by
      by_contra free
      exact before dependency depends ⟨⟨upstream, present, isOpen⟩, free⟩
    obtain ⟨origin, gone, path⟩ := stranded
    exact clear ⟨origin, gone, path.tail step⟩
  · have gone : isAbandoned upstream.state = true := by
      rw [known] at incomplete
      cases other : upstream.state <;>
        simp [other, TaskNode.isTerminal, TaskState.isTerminal, isAbandoned] at isOpen incomplete ⊢
    exact clear ⟨dependency, ⟨_, known, gone⟩, .single step⟩

end Coherent

section
variable (actor : String) (reason : Option String) (correlationId : CorrelationId) (now : DateTime)

/-- Cancel one task after the other. -/
def cancelTasks (g : TaskGraph) (tasks : List TaskId) : Except SwarmError TaskGraph :=
  tasks.foldlM (fun g task => (g.setState task .cancelled actor reason correlationId now).map Prod.snd) g

/-- Tasks that wait can be cancelled. -/
theorem cancelTasks_ok (tasks : List TaskId) {g : TaskGraph} (unique : tasks.Nodup)
    (waiting : ∀ task ∈ tasks, ∃ node, g.get task = some node ∧
      (node.state = .created ∨ node.state = .waitingForDependency)) :
    ∃ next, g.cancelTasks actor reason correlationId now tasks = .ok next ∧
      ∀ task, next.stateOf task = if task ∈ tasks then some .cancelled else g.stateOf task := by
  induction tasks generalizing g with
  | nil => exact ⟨g, rfl, fun task => by simp⟩
  | cons first rest ih =>
    obtain ⟨other, later⟩ := List.nodup_cons.mp unique
    obtain ⟨node, found, waits⟩ := waiting first List.mem_cons_self
    have legal : TaskState.cancelled ∈ StateMachine.allowed node.state := by
      rcases waits with state | state <;> rw [state] <;> decide
    obtain ⟨transition, run⟩ := setState_of_allowed found legal actor reason correlationId now
    have state : ∀ task, (g.update first (fun node => { node with state := .cancelled })).stateOf task =
        if task = first then some .cancelled else g.stateOf task := fun task => stateOf_update_state found .cancelled
    have untouched : ∀ task ∈ rest, ∃ node, (g.update first (fun node => { node with state := .cancelled })).get
      task = some node ∧
        (node.state = .created ∨ node.state = .waitingForDependency) := by
      intro task inside
      obtain ⟨current, there, waits⟩ := waiting task (List.mem_cons_of_mem _ inside)
      have different : task ≠ first := fun same => other (same ▸ inside)
      exact ⟨current, by rw [get_update, if_neg different, there], waits⟩
    obtain ⟨next, ok, states⟩ := ih later untouched
    refine ⟨next, ?_, ?_⟩
    · unfold cancelTasks at ok ⊢
      rw [List.foldlM_cons, run]
      exact ok
    · intro task
      rw [states, state]
      by_cases same : task = first
      · simp [same]
      · simp [same]

/-- The tasks that are given up are exactly the open ones behind an abandoned task. If no task is ready while all
open ones wait, then they are all given up, and the graph is complete without them. -/
theorem Coherent.blockedByAbandoned_exact (coherent : g.Coherent) :
    (g.walkForward g.len ⟨[], (g.withState isAbandoned).reverse, g.withState isAbandoned⟩).frontier = [] ∧
    g.blockedByAbandoned.Nodup ∧ (∀ task, task ∈ g.blockedByAbandoned ↔ g.Unfinished task ∧ g.Stranded task) ∧
    ((∀ task node, g.get task = some node → node.isTerminal = false → node.state = .created ∨
      node.state = .waitingForDependency) →
      g.ready = [] → (∀ task, task ∈ g.blockedByAbandoned ↔ g.Unfinished task) ∧
        (g.len ≠ 0 → ∃ next, g.cancelTasks actor reason correlationId now g.blockedByAbandoned = .ok next ∧
          next.isComplete = true)) := by
  obtain ⟨walking, covered, emptied⟩ :=
    coherent.walkForward_done g.len coherent.walking_start coherent.covered_start coherent.budget_start
  have reached : ∀ origin task, g.Abandoned origin → TransGen g.Strands origin task →
      task ∈ g.blockedByAbandoned := by
    intro origin task gone path
    have closed : ∀ task, g.Abandoned task ∨ task ∈ g.blockedByAbandoned → ∀ dependent, g.Strands task dependent →
        dependent ∈ g.blockedByAbandoned := by
      intro task inside
      rcases covered task inside with waiting | closed
      · rw [emptied] at waiting
        cases waiting
      · exact closed
    induction path with
    | single step => exact closed _ (Or.inl gone) _ step
    | tail _ step ih => exact closed _ (Or.inr ih) _ step
  have exact : ∀ task, task ∈ g.blockedByAbandoned ↔ g.Unfinished task ∧ g.Stranded task :=
    fun task => ⟨walking.stranded task, fun ⟨_, origin, gone, path⟩ => reached origin task gone path⟩
  refine ⟨emptied, walking.unique, exact, ?_⟩
  intro fresh stuck
  have all : ∀ task, task ∈ g.blockedByAbandoned ↔ g.Unfinished task :=
    fun task => (exact task).trans (and_iff_left_of_imp (coherent.stranded_of_stuck fresh stuck))
  refine ⟨all, ?_⟩
  intro inhabited
  obtain ⟨next, run, states⟩ := cancelTasks_ok actor reason correlationId now g.blockedByAbandoned walking.unique (by
    intro task inside
    obtain ⟨node, found, isOpen⟩ := (all task).mp inside
    exact ⟨node, found, fresh task node found isOpen⟩)
  refine ⟨next, run, ?_⟩
  have terminal : ∀ task state, next.stateOf task = some state → state.isTerminal = true := by
    intro task state there
    rw [states] at there
    split at there
    · cases there
      rfl
    · rename_i outside
      obtain ⟨node, found, rfl⟩ := Option.map_eq_some_iff.mp there
      by_contra isOpen
      exact outside ((all task).mpr ⟨node, found, by simpa [TaskNode.isTerminal] using isOpen⟩)
  by_contra incomplete
  have entries : next.nodes.entries ≠ [] := by
    obtain ⟨⟨task, node⟩, entry⟩ :=
      List.exists_mem_of_ne_nil g.nodes.entries (fun none => inhabited (by simp [len, none]))
    have known : (next.stateOf task).isSome = true := by
      rw [states]
      split
      · rfl
      · have found : g.get task = some node := Dict.get?_eq_some.mpr entry
        simp [stateOf, found]
    obtain ⟨state, there⟩ := Option.isSome_iff_exists.mp known
    obtain ⟨last, present, _⟩ := Option.map_eq_some_iff.mp there
    exact List.ne_nil_of_mem (Dict.get?_eq_some.mp present)
  obtain ⟨task, state, there, isOpen⟩ := exists_unfinished entries (by simpa using incomplete)
  rw [terminal task state there] at isOpen
  cases isOpen

end

/-- Three tasks in a row, the first of which was abandoned. -/
def orphaned : TaskGraph := Built.joined.update ⟨1⟩ (fun node => { node with state := .deadLettered })

theorem blockedByAbandoned_orphaned :
    ∃ next, orphaned.cancelTasks "coordinator" none ⟨0⟩ 0 orphaned.blockedByAbandoned = .ok next ∧
      next.isComplete = true := by
  have run : Built.joined.restoreState ⟨1⟩ .deadLettered = .ok orphaned := rfl
  have coherent := (Built.restoreState (Built.built_joined DiGraph.sort) run).coherent detects_sort
  refine ((coherent.blockedByAbandoned_exact "coordinator" none ⟨0⟩ 0).2.2.2 ?_ rfl).2 (by decide)
  have settled : ∀ node ∈ orphaned.nodes.values, node.isTerminal = true ∨ node.state = .created := by decide
  intro task node found isOpen
  rcases settled node (Dict.mem_values.mpr ⟨task, Dict.get?_eq_some.mp found⟩) with terminal | created
  · rw [isOpen] at terminal
    cases terminal
  · exact Or.inl created

end Swarm.TaskGraph
