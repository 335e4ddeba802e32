import Mathlib.Data.List.Sort
import Swarm.Coordinator.Handle

namespace Swarm.Engine
open JobHandle

/-- Agents that are both free and capable of running `task`. -/
def candidates (task : TaskNode) (agents : List AgentDescriptor) : List AgentDescriptor :=
  agents.filter (fun agent => agent.isAvailable && agent.supports task.requiredCapabilities)

/-- `Scheduler::select`. Every strategy picks one of the candidates, if there
is any; `preference` says which. -/
def select (preference : List AgentDescriptor → Nat) (task : TaskNode) (agents : List AgentDescriptor) :
    Option AgentId :=
  let candidates := candidates task agents
  (candidates[preference candidates % candidates.length]?).map AgentDescriptor.id

/-- A new agent in the idle state. -/
def idleAgent (config : CoordinatorConfig) (id : AgentId) (agentType : AgentType) (jobId : JobId) (now : DateTime) :
    Except SwarmError AgentDescriptor := do
  let agent := AgentDescriptor.new id agentType config.nodeId .default now
  let announced ← StateMachine.transition agent.status .registered
  let warm ← StateMachine.transition announced .idle
  pure { agent with jobId := some jobId, status := warm }

def addDemand (demand : Dict AgentType Nat) (agentType : AgentType) : Dict AgentType Nat :=
  demand.insert agentType ((demand.get? agentType).getD 0 + 1)

/-- The agent types a job needs, the most needed one first. -/
def neededTypes (h : JobHandle) : List (AgentType × Nat) :=
  let demand := h.graph.nodes.values.foldl (fun demand node => addDemand demand (agentTypeFor node.kind)) .empty
  let demand := h.job.request.requiredCapabilities.foldl (fun demand capability =>
    let agentType := AgentType.forCapability capability
    if (demand.get? agentType).isSome then demand else demand.insert agentType 1) demand
  demand.entries.insertionSort (fun left right =>
    right.2 < left.2 || (left.2 == right.2 && left.1.asStr ≤ right.1.asStr))

/-- How many agents a job starts with. -/
def agentTarget (toposort : DiGraph TaskId → Except Nat (List Nat)) (h : JobHandle) : Except SwarmError Nat := do
  let layers ← h.graph.layers toposort
  let widest := ((layers.map List.length).max?).getD 1
  pure (max (min (max widest (neededTypes h).length) h.job.request.maxAgents) 1)

/-- Create the agents of a job, whose number has been claimed from the cluster. -/
def spawnAgents (config : CoordinatorConfig) (ids : Nat → AgentId) (target : Nat) (now : DateTime) :
    HandleAct Unit := do
  let h ← get
  let types := neededTypes h
  let agents ← Act.liftExcept ((List.range target).mapM (fun index =>
    idleAgent config (ids index) ((types.getD (index % types.length) (.general, 0)).1) h.job.id now))
  modify (fun h => { h with
    agents := agents
    statistics := { h.statistics with
      messagesSent := h.statistics.messagesSent + agents.length
      agentsSpawned := agents.length } })

/-- The agent type most in demand among tasks waiting to run. -/
def mostNeededType (h : JobHandle) : Option AgentType :=
  let waiting := h.graph.nodes.values.filter (fun node => node.state.isLeasable)
  let demand :=
    waiting.foldl (fun demand node => addDemand demand (agentTypeFor node.kind)) (Dict.empty : Dict AgentType Nat)
  (Vec.maxBy (fun left right : AgentType × Nat =>
    right.2 < left.2 || (left.2 == right.2 && left.1.asStr < right.1.asStr)) demand.entries).map Prod.fst

/-- Grow the pool by one agent. -/
def growPool (config : CoordinatorConfig) (id : AgentId) (agentType : AgentType) (now : DateTime) :
    HandleAct Unit := do
  let h ← get
  let agent ← Act.liftExcept (idleAgent config id agentType h.job.id now)
  emit
  modify (fun h => { h with
    agents := h.agents ++ [agent]
    statistics := { h.statistics with agentsSpawned := h.statistics.agentsSpawned + 1 } })

/-- Remove stale agents one after another, keeping at least one. Returns the
pool and how many were removed; every round removes one. -/
def reclaim (cutoff : DateTime) : Nat → List AgentDescriptor → List AgentDescriptor × Nat
  | 0, agents => (agents, 0)
  | fuel + 1, agents =>
    if 1 < agents.length then
      match agents.findIdx? (fun agent => agent.isAvailable && agent.lastActiveAt < cutoff) with
      | none => (agents, 0)
      | some index =>
        let (agents, removed) := reclaim cutoff fuel (agents.eraseIdx index)
        (agents, removed + 1)
    else (agents, 0)

/-- Ask the scheduler for an agent and mark it busy. -/
def assign (preference : List AgentDescriptor → Nat) (now : DateTime) (task : TaskNode)
    (agents : List AgentDescriptor) :
    Option (AgentDescriptor × List AgentDescriptor) := do
  let chosen ← select preference task agents
  let pooled ← agents.find? (fun agent => agent.id == chosen)
  let picked ← (StateMachine.transition pooled.status .assigned).toOption
  let started ← (StateMachine.transition picked AgentStatus.running).toOption
  let busy := { pooled with status := started, currentTask := some task.id, currentLoad := 1, lastActiveAt := now }
  some (busy, Vec.modifyFirst (fun agent => agent.id == chosen) (fun _ => busy) agents)

/-- Replace an idle agent with one of the type this task needs. -/
def respecialise (config : CoordinatorConfig) (id : AgentId) (now : DateTime) (jobId : JobId) (task : TaskNode)
    (agents : List AgentDescriptor) : Option (List AgentDescriptor) := do
  let index ← agents.findIdx? AgentDescriptor.isAvailable
  let replacement ← (idleAgent config id (agentTypeFor task.kind) jobId now).toOption
  some (agents.set index replacement)

/-- Find an agent for `task`, re-specialising an idle one if nothing fits. The
pool is given back even when no agent was found. -/
def acquireAgent (config : CoordinatorConfig) (preference : List AgentDescriptor → Nat) (id : AgentId)
    (now : DateTime) (jobId : JobId) (task : TaskNode) (agents : List AgentDescriptor) :
    Option AgentDescriptor × List AgentDescriptor :=
  match assign preference now task agents with
  | some (agent, agents) => (some agent, agents)
  | none =>
    match respecialise config id now jobId task agents with
    | none => (none, agents)
    | some agents =>
      match assign preference now task agents with
      | some (agent, agents) => (some agent, agents)
      | none => (none, agents)

end Swarm.Engine
