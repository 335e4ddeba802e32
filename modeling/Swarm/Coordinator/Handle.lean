import Swarm.Domain.Agent
import Swarm.Domain.Job
import Swarm.Domain.Readiness
import Swarm.Lib.Act
import Swarm.Persistence.Record
import Swarm.Queue.Model

namespace Swarm

structure CoordinatorConfig where
  nodeId : NodeId
  maxClusterAgents : Nat := 512
  leaseMs : Nat := 60000
  maxTicks : Nat := 100000
  agentIdleTimeoutMs : Nat := 30000

inductive Control where
  | running | paused | cancelled
  deriving DecidableEq, Repr

/-- Everything the engine changes while a job runs. `journal` lists the records
of this job in the order they were appended; the event stream is left out but
for the count of its messages. -/
structure JobHandle where
  job : Job
  graph : TaskGraph
  agents : List AgentDescriptor
  results : List TaskResult
  failures : List TaskFailure
  transitions : List (Transition TaskState)
  statistics : ExecutionStatistics
  latencies : List Nat
  finalResult : Option FinalResult
  control : Control
  journal : List JournalRecord

def JobHandle.new (job : Job) (graph : TaskGraph) (journal : List JournalRecord) : JobHandle where
  job := job
  graph := graph
  agents := []
  results := []
  failures := []
  transitions := []
  statistics := {}
  latencies := []
  finalResult := none
  control := .running
  journal := journal

/-- Who moves a task, on whose behalf and when. -/
structure Stamp where
  actor : String
  correlationId : CorrelationId
  now : DateTime

abbrev HandleAct (α : Type) := Act SwarmError JobHandle α

namespace JobHandle

/-- Publish an event: only the count of messages is kept. -/
def emit : HandleAct Unit :=
  modify (fun h => { h with statistics := { h.statistics with messagesSent := h.statistics.messagesSent + 1 } })

/-- The fields of the job that follow its status. -/
def withStatus (job : Job) (next : JobStatus) (reason : Option String) (now : DateTime) : Job :=
  { job with
    status := next
    statusReason := reason
    startedAt := if next = .running ∧ job.startedAt = none then some now else job.startedAt
    finishedAt := if next.isFinished then some now else job.finishedAt }

/-- Move the job to a new status, recording the reason. -/
def setStatus (target : JobStatus) (reason : Option String) (now : DateTime) : HandleAct Unit := do
  let h ← get
  let next ← Act.liftExcept (StateMachine.transition h.job.status target)
  set { h with
    job := withStatus h.job next reason now
    journal := h.journal ++ [JournalRecord.jobStatusChanged h.job.id next reason now] }

end JobHandle

namespace Engine
open JobHandle

/-- Record a task state change, keeping the audit trail complete. -/
def advance (task : TaskId) (target : TaskState) (reason : String) (stamp : Stamp) : HandleAct Unit := do
  let h ← get
  let moved ← Act.liftExcept
    (h.graph.setState task target stamp.actor (some reason) stamp.correlationId stamp.now)
  set { h with
    graph := moved.2
    journal := h.journal ++
      [JournalRecord.taskTransitioned moved.2.jobId moved.1 task ((moved.2.get task).elim 0 TaskNode.attempt)]
    transitions := h.transitions ++ [moved.1] }

/-- Return an agent to the idle pool. The scheduler's own learning is not modelled. -/
def settleAgent (succeeded : Bool) (latencyMs : Nat) (now : DateTime) (agent : AgentDescriptor) : AgentDescriptor :=
  let attempt (status target : AgentStatus) : AgentStatus :=
    match StateMachine.transition status target with
    | .ok next => next
    | .error _ => status
  let status := attempt (attempt agent.status (if succeeded then .completed else .failed)) .idle
  { agent with status := status, currentTask := none, currentLoad := 0 }.recordAttempt succeeded latencyMs now

def releaseAgent (agent : AgentDescriptor) (succeeded : Bool) (latencyMs : Nat) (now : DateTime) : HandleAct Unit :=
  modify (fun h => { h with
    agents := Vec.modifyFirst (fun pooled => pooled.id == agent.id) (settleAgent succeeded latencyMs now) h.agents })

/-- Store a successful result and update everything that learns from it. -/
def recordSuccess (agent : AgentDescriptor) (result : TaskResult) (queueWaitMs : Nat) (now : DateTime) :
    HandleAct Unit := do
  releaseAgent agent true result.durationMs now
  modify (fun h => { h with
    statistics := { h.statistics with
      tasksSucceeded := h.statistics.tasksSucceeded + 1
      tokensIn := h.statistics.tokensIn + result.tokensIn
      tokensOut := h.statistics.tokensOut + result.tokensOut
      costUsd := h.statistics.costUsd + result.costUsd
      queueWaitMsTotal := h.statistics.queueWaitMsTotal + queueWaitMs
      schedulingDecisions := h.statistics.schedulingDecisions + 1
      modelCacheHits := h.statistics.modelCacheHits + (if result.deduplicated then 1 else 0)
      modelRequests := h.statistics.modelRequests + (if result.deduplicated then 0 else 1) }
    latencies := h.latencies ++ [result.durationMs]
    results := h.results ++ [result]
    journal := h.journal ++ [.taskCompleted result.jobId result] })

/-- Move a failed task to its next state and record the failure. -/
def failTask (task : TaskNode) (failureState : TaskState) (errorKind errorMessage : String) (retryable : Bool)
    (validationFailures : List String) (stamp : Stamp) : HandleAct Unit := do
  advance task.id failureState errorKind stamp
  let next : TaskState := if retryable then .retryScheduled else .deadLettered
  advance task.id next errorKind stamp
  let failure : TaskFailure :=
    ⟨task.id, task.title, task.attempt, errorKind, errorMessage, next == .deadLettered, validationFailures, stamp.now⟩
  modify (fun h => { h with
    journal := h.journal ++ [.taskFailed task.jobId failure]
    failures := h.failures ++ [failure]
    statistics := { h.statistics with
      modelRequests := h.statistics.modelRequests + 1
      tasksRetried := h.statistics.tasksRetried + (if retryable then 1 else 0)
      tasksFailed := h.statistics.tasksFailed + (if retryable then 0 else 1) } })
  emit

end Engine

end Swarm
