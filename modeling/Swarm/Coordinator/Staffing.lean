import Swarm.Coordinator.Specs
import Swarm.Domain.Spend

namespace Swarm
open JobHandle Act

namespace Engine
variable {config : CoordinatorConfig}

/-- A part of the handle that only the work on agents and on results changes. -/
structure Aside {τ : Type} (view : JobHandle → τ) : Prop where
  status : ∀ h job journal, view { h with job := job, journal := journal } = view h
  graph : ∀ h graph, view { h with graph := graph } = view h
  task : ∀ h graph journal transitions,
    view { h with graph := graph, journal := journal, transitions := transitions } = view h
  failure : ∀ h journal failures statistics, statistics.spend = h.statistics.spend →
    view { h with journal := journal, failures := failures, statistics := statistics } = view h
  counts : ∀ h statistics, statistics.spend = h.statistics.spend → view { h with statistics := statistics } = view h
  result : ∀ h journal finalResult, view { h with journal := journal, finalResult := finalResult } = view h

theorem agents_aside : Aside JobHandle.agents :=
  ⟨fun _ _ _ => rfl, fun _ _ => rfl, fun _ _ _ _ => rfl, fun _ _ _ _ _ => rfl, fun _ _ _ => rfl, fun _ _ _ => rfl⟩

theorem spend_aside : Aside (fun h => h.statistics.spend) :=
  ⟨fun _ _ _ => rfl, fun _ _ => rfl, fun _ _ _ _ => rfl, fun _ _ _ _ same => same, fun _ _ same => same,
    fun _ _ _ => rfl⟩

section
variable {τ : Type} {view : JobHandle → τ} (aside : Aside view)
include aside

theorem setStatus_keeps (target : JobStatus) (reason : Option String) (now : DateTime) :
    Keeps view (setStatus target reason now) := fun _ =>
  setStatus_ensures (fun _ => aside.status _ _ _) (fun _ => rfl)

theorem emit_keeps : Keeps view emit := .modify (fun _ => aside.counts _ _ rfl)

theorem advance_keeps (task : TaskId) (target : TaskState) (reason : String) (stamp : Stamp) :
    Keeps view (advance task target reason stamp) := by
  intro h
  simp only [advance, ensures_bind, ensures_get, ensures_liftExcept, ensures_set]
  exact ⟨fun _ _ => aside.task _ _ _ _, fun _ _ => trivial⟩

theorem enter_keeps (toposort : DiGraph TaskId → Except Nat (List Nat)) (now : DateTime) :
    Keeps view (enter toposort now) :=
  (setStatus_keeps aside _ _ _).bind (fun _ => .bind .get (fun _ => .liftExcept _))

theorem planTick_keeps (now : DateTime) : Keeps view (planTick now) :=
  .bind .get (fun _ => .ite ((emit_keeps aside).bind (fun _ => .pure _)) (.pure _))

theorem beginTick_keeps (paused : Bool) (now : DateTime) : Keeps view (beginTick paused now) := by
  unfold beginTick
  cases paused with
  | true => exact (setStatus_keeps aside _ _ _).bind (fun _ => planTick_keeps aside now)
  | false => exact planTick_keeps aside now

theorem promote_keeps (task : TaskId) (now : DateTime) : Keeps view (promote config task now) := by
  refine .bind .get (fun h => (advance_keeps aside _ _ _ _).bind (fun _ => .bind .get (fun h' => ?_)))
  split
  · exact .throw _
  · exact .pure _

theorem handOver_keeps (lease : TaskLease) (agent : AgentDescriptor) (now : DateTime) :
    Keeps view (handOver config lease agent now) :=
  .bind .get (fun _ => (advance_keeps aside _ _ _ _).bind (fun _ => (advance_keeps aside _ _ _ _).bind (fun _ =>
    .bind .get (fun _ => (emit_keeps aside).bind (fun _ => .pure _)))))

theorem startTask_keeps (lease : TaskLease) (agent : AgentDescriptor) (now : DateTime) :
    Keeps view (startTask config lease agent now) := by
  refine .bind (.modify (fun _ => aside.graph _ _)) (fun _ => .bind .get (fun h => ?_))
  split
  · exact (advance_keeps aside _ _ _ _).bind (fun _ => handOver_keeps aside lease agent now)
  · exact handOver_keeps aside lease agent now

theorem failTask_keeps (task : TaskNode) (failureState : TaskState) (errorKind errorMessage : String)
    (retryable : Bool) (validationFailures : List String) (stamp : Stamp) :
    Keeps view (failTask task failureState errorKind errorMessage retryable validationFailures stamp) := by
  refine (advance_keeps aside _ _ _ _).bind (fun _ => (advance_keeps aside _ _ _ _).bind (fun _ =>
    .bind (.modify (fun _ => ?_)) (fun _ => emit_keeps aside)))
  exact aside.failure _ _ _ _ rfl

theorem abandonStranded_keeps (now : DateTime) : Keeps view (abandonStranded config now) :=
  .bind .get (fun _ => .ite (.pure _)
    (.bind (.forM (fun _ => (advance_keeps aside _ _ _ _).bind (fun _ => emit_keeps aside))) (fun _ => .pure _)))

theorem cancelTask_keeps (stamp : Stamp) (task : TaskId) : Keeps view (cancelTask stamp task) :=
  .bind .get (fun _ => .ite ((advance_keeps aside _ _ _ _).bind (fun _ => advance_keeps aside _ _ _ _))
    (advance_keeps aside _ _ _ _))

theorem cancelPending_keeps (now : DateTime) : Keeps view (cancelPending config now) :=
  .bind .get (fun _ => .forM (fun task => cancelTask_keeps aside _ task))

theorem conclude_keeps (status : JobStatus) (input : EngineInput) : Keeps view (conclude status input) := by
  refine .bind .get (fun _ => (setStatus_keeps aside _ _ _).bind (fun _ => .bind (.modify (fun _ => ?_)) (fun _ =>
    (emit_keeps aside).bind (fun _ => .pure _))))
  exact aside.result _ _ _

theorem finish_keeps (cancelled : Bool) (spawned : Nat) (input : EngineInput) :
    Keeps view (finish cancelled spawned input) := by
  refine .bind .get (fun h => .bind (.modify (fun _ => ?_)) (fun _ => ?_))
  · exact aside.counts _ _ (ExecutionStatistics.setLatencyPercentiles_spend _ _)
  · cases cancelled with
    | true => exact conclude_keeps aside _ input
    | false => exact (setStatus_keeps aside _ _ _).bind (fun _ => conclude_keeps aside _ input)

end

/-- Work that does not touch the pool of agents. -/
abbrev KeepsAgents {α : Type} (act : HandleAct α) : Prop := Keeps JobHandle.agents act

/-- The agent of a dispatch is settled, and the others are as they were. -/
theorem applyOutcome_agents (queue : InMemoryQueue) (h : JobHandle) (dispatch : Dispatch) (outcome : Outcome)
    (now : DateTime) : Ensures (applyOutcome config queue h dispatch outcome now).2 h
      (fun _ h' => ∃ succeeded latencyMs, h'.agents =
        Vec.modifyFirst (fun pooled => pooled.id == dispatch.agent.id) (settleAgent succeeded latencyMs now) h.agents)
      (fun _ h' => h'.agents = h.agents ∨ ∃ succeeded latencyMs, h'.agents =
        Vec.modifyFirst (fun pooled => pooled.id == dispatch.agent.id)
          (settleAgent succeeded latencyMs now) h.agents) := by
  have failing : ∀ (latencyMs : Nat) (failureState : TaskState) (errorKind errorMessage : String) (retryable : Bool)
      (validationFailures : List String) (stamp : Stamp),
      Ensures (do
          releaseAgent dispatch.agent false latencyMs now
          failTask dispatch.task failureState errorKind errorMessage retryable validationFailures stamp) h
        (fun _ h' => ∃ succeeded latencyMs, h'.agents =
          Vec.modifyFirst (fun pooled => pooled.id == dispatch.agent.id)
            (settleAgent succeeded latencyMs now) h.agents)
        (fun _ h' => h'.agents = h.agents ∨ ∃ succeeded latencyMs, h'.agents =
          Vec.modifyFirst (fun pooled => pooled.id == dispatch.agent.id)
            (settleAgent succeeded latencyMs now) h.agents) := by
    intro latencyMs failureState errorKind errorMessage retryable validationFailures stamp
    rw [ensures_bind, releaseAgent, ensures_modify]
    exact (failTask_keeps agents_aside _ _ _ _ _ _ _ _).mono (fun _ _ same => ⟨false, latencyMs, same⟩)
      (fun _ _ same => Or.inr ⟨false, latencyMs, same⟩)
  unfold applyOutcome
  split
  · dsimp only
    split
    · split
      · rw [ensures_bind]
        refine (advance_keeps agents_aside _ _ _ _ h).mono ?_ (fun _ _ same => Or.inl same)
        intro _ h' same
        simp only [recordSuccess, releaseAgent, emit, ensures_bind, ensures_modify]
        exact ⟨true, _, by rw [same]⟩
      · exact failing _ _ _ _ _ _ _
    · exact failing _ _ _ _ _ _ _
  · exact failing _ _ _ _ _ _ _
  · exact failing _ _ _ _ _ _ _

/-- An agent that has just come into the pool. -/
def freshAgent (config : CoordinatorConfig) (id : AgentId) (agentType : AgentType) (jobId : JobId) (now : DateTime) :
    AgentDescriptor :=
  { AgentDescriptor.new id agentType config.nodeId .default now with jobId := some jobId, status := .idle }

theorem idleAgent_eq (id : AgentId) (agentType : AgentType) (jobId : JobId) (now : DateTime) :
    idleAgent config id agentType jobId now = .ok (freshAgent config id agentType jobId now) := rfl

variable {h : JobHandle}

/-- The new pool has the agents that were claimed. -/
theorem spawnAgents_pool {ids : Nat → AgentId} {target : Nat} {now : DateTime} :
    Succeeds (spawnAgents config ids target now) h (fun _ h' => ∃ types : Nat → AgentType, h'.agents =
      (List.range target).map (fun index => freshAgent config (ids index) (types index) h.job.id now)) := by
  simp only [spawnAgents, ensures_bind, ensures_get, ensures_liftExcept, ensures_modify]
  rw [mapM_ok (fun index => idleAgent_eq (ids index) _ h.job.id now)]
  refine ⟨?_, fun e failed => (by cases failed)⟩
  rintro _ ⟨⟩
  exact ⟨_, rfl⟩

theorem growPool_pool {id : AgentId} {agentType : AgentType} {now : DateTime} :
    Succeeds (growPool config id agentType now) h (fun _ h' =>
      h'.agents = h.agents ++ [freshAgent config id agentType h.job.id now]) := by
  simp only [growPool, ensures_bind, ensures_get, ensures_liftExcept, ensures_modify, emit, idleAgent_eq]
  refine ⟨?_, fun e failed => (by cases failed)⟩
  rintro _ ⟨⟩
  rfl

/-- Every round of reclaiming takes one agent from the pool, and the last one stays. -/
theorem reclaim_length (cutoff : DateTime) (fuel : Nat) (agents : List AgentDescriptor) :
    (reclaim cutoff fuel agents).1.length + (reclaim cutoff fuel agents).2 = agents.length := by
  induction fuel generalizing agents with
  | zero => rfl
  | succ fuel ih =>
    unfold reclaim
    split
    · rename_i several
      split
      · rfl
      · rename_i index stale
        have shorter := ih (agents.eraseIdx index)
        obtain ⟨inside, _⟩ := List.findIdx?_eq_some_iff_findIdx_eq.mp stale
        rw [List.length_eraseIdx_of_lt inside] at shorter
        simp only
        omega
    · rfl

theorem assign_length {preference : List AgentDescriptor → Nat} {now : DateTime} {task : TaskNode}
    {agents agents' : List AgentDescriptor} {agent : AgentDescriptor}
    (assigned : assign preference now task agents = some (agent, agents')) : agents'.length = agents.length := by
  simp only [assign, Option.bind_eq_bind, Option.bind_eq_some_iff] at assigned
  obtain ⟨_, _, _, _, _, _, _, _, same⟩ := assigned
  cases same
  exact Vec.length_modifyFirst _ _ _

/-- The first available agent gives way to a fresh one. -/
theorem respecialise_eq (id : AgentId) (now : DateTime) (jobId : JobId) (task : TaskNode)
    (agents : List AgentDescriptor) :
    respecialise config id now jobId task agents = (agents.findIdx? AgentDescriptor.isAvailable).map
      (fun index => agents.set index (freshAgent config id (agentTypeFor task.kind) jobId now)) := by
  unfold respecialise
  cases agents.findIdx? AgentDescriptor.isAvailable <;> rfl

theorem acquireAgent_length (config : CoordinatorConfig) (preference : List AgentDescriptor → Nat) (id : AgentId)
    (now : DateTime) (jobId : JobId) (task : TaskNode) (agents : List AgentDescriptor) :
    (acquireAgent config preference id now jobId task agents).2.length = agents.length := by
  unfold acquireAgent
  split
  · rename_i assigned
    exact assign_length assigned
  · split
    · rfl
    · rename_i replaced respecialised
      have same : replaced.length = agents.length := by
        rw [respecialise_eq] at respecialised
        obtain ⟨index, _, rfl⟩ := Option.map_eq_some_iff.mp respecialised
        exact List.length_set
      split
      · rename_i assigned
        exact (assign_length assigned).trans same
      · exact same

/-- The number of agents claimed is at least one and within the job's own limit. -/
theorem agentTarget_bounds {toposort : DiGraph TaskId → Except Nat (List Nat)} {target : Nat}
    (run : agentTarget toposort h = .ok target) : 1 ≤ target ∧ target ≤ max 1 h.job.request.maxAgents := by
  simp only [agentTarget, bind, Except.bind] at run
  split at run
  · cases run
  · cases run
    omega

theorem enter_target (toposort : DiGraph TaskId → Except Nat (List Nat)) (now : DateTime) :
    Ensures (enter toposort now) h (fun target _ => 1 ≤ target ∧ target ≤ max 1 h.job.request.maxAgents)
      (fun _ _ => True) := by
  unfold enter
  rw [ensures_bind]
  refine setStatus_ensures (fun _ => ?_) (fun _ => trivial)
  simp only [ensures_bind, ensures_get, ensures_liftExcept]
  exact ⟨fun target run => agentTarget_bounds run, fun _ _ => trivial⟩

end Engine

end Swarm
