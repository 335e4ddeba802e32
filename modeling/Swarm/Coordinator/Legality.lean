import Swarm.Coordinator.Steps

namespace Swarm
open JobHandle Act

/-- One task is in a new state, the others and the job are as before. -/
structure Sets (h h' : JobHandle) (task : TaskId) (state : TaskState) : Prop where
  job : h'.job = h.job
  states : ∀ other, h'.graph.stateOf other = if other = task then some state else h.graph.stateOf other

theorem Sets.trans {h h' h'' : JobHandle} {task : TaskId} {state state' : TaskState} (first : Sets h h' task state)
    (second : Sets h' h'' task state') : Sets h h'' task state' where
  job := second.job.trans first.job
  states other := by
    rw [second.states, first.states]
    split <;> rfl

theorem Sets.self {h h' : JobHandle} {task : TaskId} {state : TaskState} (sets : Sets h h' task state) :
    h'.graph.stateOf task = some state := by
  rw [sets.states, if_pos rfl]

/-- No task is in the middle of a step. -/
def TaskGraph.Resting (g : TaskGraph) : Prop := ∀ task state, g.stateOf task = some state → state.isResting = true

theorem Sets.resting {h h' : JobHandle} {task : TaskId} {state : TaskState} (sets : Sets h h' task state)
    (rests : state.isResting = true) (resting : h.graph.Resting) : h'.graph.Resting := by
  intro other current found
  rw [sets.states] at found
  split at found
  · cases found
    exact rests
  · exact resting other current found

/-- The state `apply_outcome` leaves the task in. -/
def settledState (queue : InMemoryQueue) (dispatch : Dispatch) (outcome : Outcome) (now : DateTime) : TaskState :=
  let retryable := dispatch.lease.task.retry.allowsRetry dispatch.lease.task.attempt
  let failing (retryable : Bool) : TaskState := if retryable then .retryScheduled else .deadLettered
  match outcome with
  | .returned (.ok result) =>
    if result.passedValidation then
      match (queue.acknowledge dispatch.lease.leaseId now).1 with
      | .ok () => .completed
      | .error _ => failing retryable
    else failing retryable
  | .returned (.error e) => failing (retryable && e.isRetryable)
  | .elapsed => failing retryable

theorem settledState_cases (queue : InMemoryQueue) (dispatch : Dispatch) (outcome : Outcome) (now : DateTime) :
    settledState queue dispatch outcome now = .completed ∨ settledState queue dispatch outcome now = .retryScheduled ∨
      settledState queue dispatch outcome now = .deadLettered := by
  have failing : ∀ retryable : Bool, (if retryable then TaskState.retryScheduled else .deadLettered) = .completed ∨
      (if retryable then TaskState.retryScheduled else .deadLettered) = .retryScheduled ∨
      (if retryable then TaskState.retryScheduled else .deadLettered) = .deadLettered := by decide
  unfold settledState
  split
  · split
    · split
      · exact Or.inl rfl
      · exact failing _
    · exact failing _
  · exact failing _
  · exact failing _

theorem settledState_ne_running (queue : InMemoryQueue) (dispatch : Dispatch) (outcome : Outcome) (now : DateTime) :
    settledState queue dispatch outcome now ≠ .running := by
  rcases settledState_cases queue dispatch outcome now with same | same | same <;> rw [same] <;> simp

theorem settledState_resting (queue : InMemoryQueue) (dispatch : Dispatch) (outcome : Outcome) (now : DateTime) :
    (settledState queue dispatch outcome now).isResting = true := by
  rcases settledState_cases queue dispatch outcome now with same | same | same <;> rw [same] <;> rfl

theorem TaskState.isResting_of_terminal {state : TaskState} (terminal : state.isTerminal = true) :
    state.isResting = true := by
  cases state <;> simp_all [isTerminal, isResting]

theorem TaskState.cancelled_allowed {state : TaskState} (resting : state.isResting = true)
    (unfinished : state.isTerminal = false) : .cancelled ∈ StateMachine.allowed state := by
  cases state <;> simp_all [isResting, isTerminal, StateMachine.allowed]

namespace Engine
variable {h : JobHandle} {config : CoordinatorConfig}

/-- An edge of the state machine can be taken. -/
theorem advance_sets {task : TaskId} {state target : TaskState} {reason : String} {stamp : Stamp}
    (known : h.graph.stateOf task = some state) (legal : target ∈ StateMachine.allowed state) :
    Succeeds (advance task target reason stamp) h (fun _ h' => Sets h h' task target) := by
  obtain ⟨node, found, rfl⟩ := Option.map_eq_some_iff.mp known
  obtain ⟨transition, moved⟩ :=
    TaskGraph.setState_of_allowed found legal stamp.actor (some reason) stamp.correlationId stamp.now
  simp only [advance, ensures_bind, ensures_get, ensures_liftExcept, ensures_set, moved]
  refine ⟨?_, fun e absurd => by cases absurd⟩
  rintro _ ⟨⟩
  exact ⟨rfl, fun _ => TaskGraph.stateOf_update_state found target⟩

theorem promote_sets {task : TaskId} {state : TaskState} {now : DateTime} (known : h.graph.stateOf task = some state)
    (fresh : state.isFresh = true) :
    Succeeds (promote config task now) h (fun _ h' => Sets h h' task .queued) := by
  have legal : .queued ∈ StateMachine.allowed state := by
    cases state <;> simp_all [TaskState.isFresh, StateMachine.allowed]
  simp only [promote, ensures_bind, ensures_get]
  refine (advance_sets known legal).mono ?_ (fun _ _ never => never)
  intro _ h' sets
  obtain ⟨node, found, _⟩ := Option.map_eq_some_iff.mp sets.self
  simp only [found, ensures_pure]
  exact sets

theorem handOver_sets {lease : TaskLease} {agent : AgentDescriptor} {now : DateTime}
    (queued : h.graph.stateOf lease.task.payload.id = some .queued) :
    Succeeds (handOver config lease agent now) h (fun _ h' => Sets h h' lease.task.payload.id .running) := by
  simp only [handOver, ensures_bind, ensures_get]
  refine (advance_sets queued (by decide)).mono ?_ (fun _ _ never => never)
  intro _ h₁ leased
  refine (advance_sets leased.self (by decide)).mono ?_ (fun _ _ never => never)
  intro _ h₂ running
  simp only [emit, ensures_modify, ensures_pure]
  have both := leased.trans running
  exact ⟨both.job, both.states⟩

/-- A task that can be leased can be started. -/
theorem startTask_sets {lease : TaskLease} {agent : AgentDescriptor} {now : DateTime}
    (leasable : (h.graph.stateOf lease.task.payload.id).any TaskState.isLeasable = true) :
    Succeeds (startTask config lease agent now) h (fun _ h' => Sets h h' lease.task.payload.id .running) := by
  let h₀ : JobHandle := { h with
    graph := h.graph.update lease.task.payload.id (fun node => { node with attempt := lease.task.attempt }) }
  have states : ∀ other, h₀.graph.stateOf other = h.graph.stateOf other := fun _ => TaskGraph.stateOf_update_attempt _
  have lift : ∀ h', Sets h₀ h' lease.task.payload.id .running → Sets h h' lease.task.payload.id .running := by
    intro h' sets
    refine ⟨sets.job, ?_⟩
    intro other
    rw [sets.states, states]
  simp only [startTask, ensures_bind, ensures_modify, ensures_get]
  split
  · rename_i retrying
    rw [ensures_bind]
    refine (advance_sets retrying (by decide)).mono ?_ (fun _ _ never => never)
    intro _ h₁ queued
    refine (handOver_sets queued.self).mono ?_ (fun _ _ never => never)
    intro _ h₂ running
    exact lift h₂ (queued.trans running)
  · rename_i other
    obtain ⟨state, known, leases⟩ := (Option.any_eq_true _ _).mp leasable
    have queued : h₀.graph.stateOf lease.task.payload.id = some .queued := by
      rw [states, known]
      change ¬ h₀.graph.stateOf lease.task.payload.id = some .retryScheduled at other
      rw [states, known] at other
      cases state <;> simp_all [TaskState.isLeasable]
    refine (handOver_sets queued).mono ?_ (fun _ _ never => never)
    exact fun _ h' sets => lift h' sets

theorem failTask_sets {task : TaskNode} {failureState : TaskState} {errorKind errorMessage : String}
    {retryable : Bool} {validationFailures : List String} {stamp : Stamp}
    (running : h.graph.stateOf task.id = some .running)
    (failure : failureState = .failed ∨ failureState = .timedOut) :
    Succeeds (failTask task failureState errorKind errorMessage retryable validationFailures stamp) h
      (fun _ h' => Sets h h' task.id (if retryable then .retryScheduled else .deadLettered)) := by
  unfold failTask Succeeds
  rw [ensures_bind]
  refine (advance_sets running (by rcases failure with rfl | rfl <;> decide)).mono ?_ (fun _ _ never => never)
  intro _ h₁ first
  simp only [ensures_bind]
  refine (advance_sets first.self ?_).mono ?_ (fun _ _ never => never)
  · rcases failure with rfl | rfl <;> cases retryable <;> decide
  · intro _ h₂ second
    simp only [ensures_modify, emit]
    have both := first.trans second
    exact ⟨both.job, both.states⟩

/-- Every outcome of a running task can be applied. -/
theorem applyOutcome_sets {queue : InMemoryQueue} {dispatch : Dispatch} {outcome : Outcome} {now : DateTime}
    (running : h.graph.stateOf dispatch.task.id = some .running) :
    Succeeds (applyOutcome config queue h dispatch outcome now).2 h
      (fun _ h' => Sets h h' dispatch.task.id (settledState queue dispatch outcome now)) := by
  have failing : ∀ (latencyMs : Nat) (failureState : TaskState) (errorKind errorMessage : String) (retryable : Bool)
      (validationFailures : List String), failureState = .failed ∨ failureState = .timedOut →
      Succeeds (do
          releaseAgent dispatch.agent false latencyMs now
          failTask dispatch.task failureState errorKind errorMessage retryable validationFailures
            (stamp config h now)) h
        (fun _ h' => Sets h h' dispatch.task.id (if retryable then .retryScheduled else .deadLettered)) := by
    intro latencyMs failureState errorKind errorMessage retryable validationFailures failure
    unfold Succeeds
    rw [ensures_bind]
    refine releaseAgent_ensures ?_
    intro agents
    have running' : (JobHandle.graph { h with agents := agents }).stateOf dispatch.task.id = some .running := running
    refine (failTask_sets running' failure).mono ?_ (fun _ _ never => never)
    exact fun _ h' sets => ⟨sets.job, sets.states⟩
  unfold applyOutcome settledState
  split
  · dsimp only
    split
    · split
      · rename_i done
        simp only [done, ensures_bind]
        refine (advance_sets running (by decide)).mono ?_ (fun _ _ never => never)
        intro _ h' sets
        simp only [recordSuccess, releaseAgent, emit, ensures_bind, ensures_modify]
        exact ⟨sets.job, sets.states⟩
      · rename_i lost
        simp only [lost]
        exact failing _ _ _ _ _ _ (Or.inl rfl)
    · exact failing _ _ _ _ _ _ (Or.inl rfl)
  · exact failing _ _ _ _ _ _ (Or.inl rfl)
  · exact failing _ _ _ _ _ _ (Or.inr rfl)

/-- The tasks of a list are apart and none of them is over. -/
def Unsettled (g : TaskGraph) (tasks : List TaskId) : Prop :=
  tasks.Nodup ∧ ∀ task ∈ tasks, ∃ state, g.stateOf task = some state ∧ state.isTerminal = false

theorem Unsettled.tail {h h' : JobHandle} {task : TaskId} {rest : List TaskId} {state : TaskState}
    (unsettled : Unsettled h.graph (task :: rest)) (sets : Sets h h' task state) : Unsettled h'.graph rest := by
  obtain ⟨distinct, unfinished⟩ := unsettled
  obtain ⟨apart, rest⟩ := List.nodup_cons.mp distinct
  refine ⟨rest, ?_⟩
  intro other member
  have different : other ≠ task := fun same => apart (same ▸ member)
  rw [sets.states, if_neg different]
  exact unfinished other (List.mem_cons_of_mem _ member)

/-- What a round of the walk keeps: the tasks found are apart, seen and not over. -/
def Found (g : TaskGraph) (walk : TaskGraph.Walk) : Prop :=
  Unsettled g walk.blocked ∧ ∀ task ∈ walk.blocked, task ∈ walk.seen

theorem visit_found {g : TaskGraph} {walk : TaskGraph.Walk} (found : Found g walk) (dependent : TaskId) :
    Found g (g.visit walk dependent) := by
  obtain ⟨⟨distinct, unfinished⟩, seen⟩ := found
  unfold TaskGraph.visit
  split
  · exact ⟨⟨distinct, unfinished⟩, seen⟩
  · rename_i unseen
    split
    · rename_i waits
      obtain ⟨node, known, running⟩ := (Option.any_eq_true _ _).mp waits
      refine ⟨⟨?_, ?_⟩, ?_⟩
      · refine List.nodup_append.mpr ⟨distinct, List.nodup_singleton _, ?_⟩
        rintro task member _ last rfl
        rw [List.mem_singleton.mp last] at member
        exact unseen (seen _ member)
      · intro task member
        rcases List.mem_append.mp member with old | new
        · exact unfinished task old
        · rw [List.mem_singleton.mp new]
          exact ⟨node.state, by simp [TaskGraph.stateOf, known], by simpa [TaskNode.isTerminal] using running⟩
      · intro task member
        rcases List.mem_append.mp member with old | new
        · exact List.mem_cons_of_mem _ (seen task old)
        · rw [List.mem_singleton.mp new]
          exact List.mem_cons_self
    · exact ⟨⟨distinct, unfinished⟩, fun task member => List.mem_cons_of_mem _ (seen task member)⟩

theorem visits_found {g : TaskGraph} (dependents : List TaskId) {walk : TaskGraph.Walk} (found : Found g walk) :
    Found g (dependents.foldl g.visit walk) := by
  induction dependents generalizing walk with
  | nil => exact found
  | cons dependent rest ih => exact ih (visit_found found dependent)

theorem walkForward_found {g : TaskGraph} (fuel : Nat) {walk : TaskGraph.Walk} (found : Found g walk) :
    Found g (g.walkForward fuel walk) := by
  induction fuel generalizing walk with
  | zero => exact found
  | succ fuel ih =>
    unfold TaskGraph.walkForward
    split
    · exact found
    · rename_i task rest _
      have popped : Found g { walk with frontier := rest } := found
      exact ih (visits_found (g.dependents task) popped)

theorem blockedByAbandoned_unsettled (g : TaskGraph) : Unsettled g g.blockedByAbandoned := by
  have start : Found g ⟨[], (g.withState TaskGraph.isAbandoned).reverse, g.withState TaskGraph.isAbandoned⟩ :=
    ⟨⟨List.nodup_nil, by simp⟩, by simp⟩
  exact (walkForward_found g.len start).1

theorem pending_unsettled {g : TaskGraph} (navigable : g.Navigable) :
    Unsettled g ((g.nodes.values.filter (fun node => !node.isTerminal)).map TaskNode.id) := by
  refine ⟨navigable.nodup_ids.sublist (List.filter_sublist.map TaskNode.id), ?_⟩
  intro task member
  obtain ⟨node, inside, rfl⟩ := List.mem_map.mp member
  obtain ⟨present, running⟩ := List.mem_filter.mp inside
  obtain ⟨key, entry⟩ := Dict.mem_values.mp present
  have found : g.get key = some node := Dict.get?_eq_some.mpr entry
  rw [navigable.keyed found]
  exact ⟨node.state, by simp [TaskGraph.stateOf, found], by simpa [TaskNode.isTerminal] using running⟩

/-- Giving tasks up for good: the rest of the job is as it was. -/
structure Ends (h h' : JobHandle) : Prop where
  job : h'.job = h.job
  states : ∀ task, h'.graph.stateOf task = h.graph.stateOf task ∨
    ∃ state, h'.graph.stateOf task = some state ∧ state.isTerminal = true

theorem Ends.sets {h h' h'' : JobHandle} {task : TaskId} {state : TaskState} (ends : Ends h h')
    (sets : Sets h' h'' task state) (gone : state.isTerminal = true) : Ends h h'' where
  job := sets.job.trans ends.job
  states other := by
    rw [sets.states]
    split
    · exact Or.inr ⟨state, rfl, gone⟩
    · exact ends.states other

theorem Ends.resting {h h' : JobHandle} (ends : Ends h h') (resting : h.graph.Resting) : h'.graph.Resting := by
  intro task state found
  rcases ends.states task with same | ⟨final, known, terminal⟩
  · exact resting task state (same ▸ found)
  · rw [known] at found
    cases found
    exact TaskState.isResting_of_terminal terminal

/-- Stranded tasks can be given up. -/
theorem abandonStranded_ends (resting : h.graph.Resting) {now : DateTime} :
    Succeeds (abandonStranded config now) h (fun pc h' => Ends h h' ∧
      (h.graph.blockedByAbandoned = [] ∧ pc = .finishing false ∨ h.graph.blockedByAbandoned ≠ [] ∧ pc = .top)) := by
  have start : Ends h h := ⟨rfl, fun _ => Or.inl rfl⟩
  simp only [abandonStranded, ensures_bind, ensures_get]
  split
  · rename_i none
    simp only [ensures_pure]
    exact ⟨start, Or.inl ⟨List.isEmpty_iff.mp none, trivial⟩⟩
  · rename_i some
    simp only [ensures_bind]
    refine (ensures_forM (fun rest h' => Ends h h' ∧ Unsettled h'.graph rest) ?_
      ⟨start, blockedByAbandoned_unsettled h.graph⟩).mono ?_ (fun _ _ never => never)
    · rintro task rest h' ⟨ends, unsettled⟩
      obtain ⟨state, known, unfinished⟩ := unsettled.2 task List.mem_cons_self
      rw [ensures_bind]
      refine (advance_sets known
        (TaskState.cancelled_allowed (ends.resting resting task state known) unfinished)).mono ?_
        (fun _ _ never => never)
      intro _ h'' sets
      simp only [emit, ensures_modify]
      have more := ends.sets sets rfl
      exact ⟨⟨more.job, more.states⟩, unsettled.tail sets⟩
    · rintro _ h' ⟨ends, _⟩
      simp only [ensures_pure]
      exact ⟨ends, Or.inr ⟨fun empty => some (List.isEmpty_iff.mpr empty), trivial⟩⟩

theorem cancelTask_ends {task : TaskId} {state : TaskState} {stamp : Stamp} (resting : h.graph.Resting)
    (known : h.graph.stateOf task = some state) (unfinished : state.isTerminal = false) :
    Succeeds (cancelTask stamp task) h (fun _ h' => ∃ final : TaskState, final.isTerminal = true ∧
      Sets h h' task final) := by
  simp only [cancelTask, ensures_bind, ensures_get]
  split
  · rename_i running
    rw [ensures_bind]
    refine (advance_sets running (by decide)).mono ?_ (fun _ _ never => never)
    intro _ h₁ failed
    refine (advance_sets failed.self (by decide)).mono ?_ (fun _ _ never => never)
    intro _ h₂ dead
    exact ⟨.deadLettered, rfl, failed.trans dead⟩
  · refine (advance_sets known (TaskState.cancelled_allowed (resting task state known) unfinished)).mono ?_
      (fun _ _ never => never)
    intro _ h' sets
    exact ⟨.cancelled, rfl, sets⟩

/-- Every task of a cancelled job can be brought to an end. -/
theorem cancelPending_ends (resting : h.graph.Resting) (navigable : h.graph.Navigable) {now : DateTime} :
    Succeeds (cancelPending config now) h (fun _ h' => Ends h h' ∧
      ∀ task state, h'.graph.stateOf task = some state → state.isTerminal = true) := by
  let kept : List TaskId → JobHandle → Prop := fun rest h' => Ends h h' ∧ Unsettled h'.graph rest ∧
    ∀ task state, h'.graph.stateOf task = some state → state.isTerminal = true ∨ task ∈ rest
  simp only [cancelPending, ensures_bind, ensures_get]
  refine (ensures_forM kept ?_ ?_).mono ?_ (fun _ _ never => never)
  · rintro task rest h' ⟨ends, unsettled, others⟩
    obtain ⟨state, known, unfinished⟩ := unsettled.2 task List.mem_cons_self
    refine (cancelTask_ends (ends.resting resting) known unfinished).mono ?_ (fun _ _ never => never)
    rintro _ h'' ⟨final, terminal, sets⟩
    refine ⟨ends.sets sets terminal, unsettled.tail sets, ?_⟩
    intro other current found
    rw [sets.states] at found
    split at found
    · cases found
      exact Or.inl terminal
    · rename_i different
      rcases others other current found with gone | later
      · exact Or.inl gone
      · exact Or.inr ((List.mem_cons.mp later).resolve_left different)
  · refine ⟨⟨rfl, fun _ => Or.inl rfl⟩, pending_unsettled navigable, ?_⟩
    intro task state found
    obtain ⟨node, known, rfl⟩ := Option.map_eq_some_iff.mp found
    cases terminal : node.state.isTerminal with
    | true => exact Or.inl rfl
    | false =>
      refine Or.inr (List.mem_map.mpr ⟨node, List.mem_filter.mpr ⟨?_, ?_⟩, navigable.keyed known⟩)
      · exact Dict.mem_values.mpr ⟨task, Dict.get?_eq_some.mp known⟩
      · simp [TaskNode.isTerminal, terminal]
  · rintro _ h' ⟨ends, _, others⟩
    refine ⟨ends, ?_⟩
    intro task state found
    exact (others task state found).resolve_right List.not_mem_nil

end Engine

end Swarm
