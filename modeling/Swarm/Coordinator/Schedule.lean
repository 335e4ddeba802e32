import Swarm.Agent.Output
import Swarm.Coordinator.Pool

namespace Swarm

/-- Relative importance of each placement signal. Weights and scores are exact. -/
structure Weights where
  load : Rat
  reliability : Rat
  latency : Rat
  specificity : Rat
  deriving DecidableEq, Repr

def Weights.default : Weights := ⟨1, 1, 1 / 2, 1 / 2⟩

/-- Score an agent for a task under `weights`. Higher is better. -/
def score (agent : AgentDescriptor) (task : TaskNode) (weights : Weights) : Rat :=
  let idleness := 1 - clampUnit agent.currentLoad
  let speed : Rat := 1000 / (1000 + agent.averageLatencyMs)
  let extra := agent.capabilities.length - task.requiredCapabilities.length
  let specificity : Rat := 1 / (1 + extra)
  weights.load * idleness + weights.reliability * clampUnit agent.successRate + weights.latency * speed +
    weights.specificity * specificity

/-- What actually happened after a placement, fed back to adaptive strategies. -/
structure SchedulingOutcome where
  agentId : AgentId
  succeeded : Bool
  latencyMs : Nat
  queueWaitMs : Nat

/-- Which scheduling strategy a coordinator runs. -/
inductive SchedulerKind where
  | roundRobin | leastLoaded | capabilityWeighted | adaptive
  deriving DecidableEq, Repr

/-- A strategy with its mutable state. -/
inductive Scheduler where
  | roundRobin (next : Nat)
  | leastLoaded
  | capabilityWeighted (weights : Weights)
  | adaptive (weights : Weights) (observedSuccess observedQueueWaitMs : Rat)
  deriving DecidableEq, Repr

def SchedulerKind.build : SchedulerKind → Scheduler
  | roundRobin => .roundRobin 0
  | leastLoaded => .leastLoaded
  | capabilityWeighted => .capabilityWeighted .default
  | adaptive => .adaptive .default 1 0

namespace Scheduler

/-- Strategy name, for metrics and reports. -/
def name : Scheduler → String
  | roundRobin _ => "round_robin"
  | leastLoaded => "least_loaded"
  | capabilityWeighted _ => "capability_weighted"
  | adaptive _ _ _ => "adaptive"

/-- Pick an agent for `task`, or none of `agents` can take it. The counter of the rotation wraps. -/
def select (scheduler : Scheduler) (task : TaskNode) (agents : List AgentDescriptor) : Option AgentId × Scheduler :=
  let candidates := Engine.candidates task agents
  match scheduler with
  | roundRobin next =>
    if candidates.isEmpty then (none, scheduler)
    else ((candidates[next % candidates.length]?).map AgentDescriptor.id, roundRobin ((next + 1) % 2 ^ 64))
  | leastLoaded =>
    ((Vec.minBy (fun left right => right.currentLoad < left.currentLoad ||
      (left.currentLoad == right.currentLoad && right.averageLatencyMs < left.averageLatencyMs)) candidates).map
        AgentDescriptor.id, scheduler)
  | capabilityWeighted weights =>
    ((Vec.maxBy (fun left right => score right task weights < score left task weights) candidates).map
      AgentDescriptor.id,
      scheduler)
  | adaptive weights _ _ =>
    ((Vec.maxBy (fun left right => score right task weights < score left task weights) candidates).map
      AgentDescriptor.id,
      scheduler)

/-- Learn from a completed placement. -/
def observe (scheduler : Scheduler) (outcome : SchedulingOutcome) : Scheduler :=
  match scheduler with
  | adaptive weights observedSuccess observedQueueWaitMs =>
    let successRate := 4 / 5 * observedSuccess + 1 / 5 * (if outcome.succeeded then 1 else 0)
    let queueWait := 4 / 5 * observedQueueWaitMs + 1 / 5 * outcome.queueWaitMs
    adaptive
      { weights with
        reliability := 1 + (1 - successRate) * 3
        load := 1 + min (queueWait / 1000) 2
        latency := 1 / 2 + min (1 - successRate) (1 / 2) }
      successRate queueWait
  | other => other

/-- The states a scheduler comes to, whatever it has placed and seen. -/
inductive Known (kind : SchedulerKind) : Scheduler → Prop
  | build : Known kind kind.build
  | select {scheduler : Scheduler} (task : TaskNode) (agents : List AgentDescriptor) :
      Known kind scheduler → Known kind (scheduler.select task agents).2
  | observe {scheduler : Scheduler} (outcome : SchedulingOutcome) :
      Known kind scheduler → Known kind (scheduler.observe outcome)

/-- Placing and learning keep the strategy. -/
theorem Known.name {kind : SchedulerKind} {scheduler : Scheduler} (known : Known kind scheduler) :
    scheduler.name = kind.build.name := by
  induction known with
  | build => rfl
  | @select scheduler task agents _ ih =>
    rw [← ih]
    cases scheduler with
    | roundRobin next =>
      simp only [Scheduler.select]
      split <;> rfl
    | _ => rfl
  | @observe scheduler outcome _ ih =>
    rw [← ih]
    cases scheduler <;> rfl

/-- A choice of one of the candidates is the choice of a position. -/
theorem exists_preference {choose : List AgentDescriptor → Option AgentDescriptor}
    (among : ∀ candidates agent, choose candidates = some agent → agent ∈ candidates)
    (decides : ∀ candidates, choose candidates = none → candidates = []) :
    ∃ preference : List AgentDescriptor → Nat, ∀ candidates,
      choose candidates = candidates[preference candidates % candidates.length]? := by
  refine ⟨fun candidates => (choose candidates).elim 0 (fun agent => candidates.idxOf agent), ?_⟩
  intro candidates
  show choose candidates =
    candidates[(choose candidates).elim 0 (fun agent => candidates.idxOf agent) % candidates.length]?
  cases chosen : choose candidates with
  | none =>
    rw [decides candidates chosen]
    rfl
  | some agent =>
    have member := among candidates agent chosen
    rw [Option.elim_some, Nat.mod_eq_of_lt (List.idxOf_lt_length_of_mem member), List.getElem?_idxOf member]

/-- Whatever a strategy has learned, it picks one of the candidates if there is any. -/
theorem select_preference (scheduler : Scheduler) (task : TaskNode) : ∃ preference : List AgentDescriptor → Nat,
    ∀ agents, (scheduler.select task agents).1 = Engine.select preference task agents := by
  cases scheduler with
  | roundRobin next =>
    refine ⟨fun _ => next, ?_⟩
    intro agents
    unfold select Engine.select
    simp only
    split
    · rename_i empty
      rw [List.isEmpty_iff.mp empty]
      rfl
    · rfl
  | leastLoaded =>
    obtain ⟨preference, same⟩ := exists_preference (fun _ _ => Vec.minBy_mem) (fun _ => Vec.minBy_eq_none.mp)
    exact ⟨preference, fun agents => congrArg (Option.map AgentDescriptor.id) (same (Engine.candidates task agents))⟩
  | capabilityWeighted weights =>
    obtain ⟨preference, same⟩ := exists_preference (fun _ _ => Vec.maxBy_mem) (fun _ => Vec.maxBy_eq_none.mp)
    exact ⟨preference, fun agents => congrArg (Option.map AgentDescriptor.id) (same (Engine.candidates task agents))⟩
  | adaptive weights _ _ =>
    obtain ⟨preference, same⟩ := exists_preference (fun _ _ => Vec.maxBy_mem) (fun _ => Vec.maxBy_eq_none.mp)
    exact ⟨preference, fun agents => congrArg (Option.map AgentDescriptor.id) (same (Engine.candidates task agents))⟩

end Scheduler

end Swarm
