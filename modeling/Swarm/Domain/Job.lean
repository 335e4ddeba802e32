import Mathlib.Data.List.Sort
import Swarm.Domain.Task
import Swarm.Lib.Lines

namespace Swarm

inductive Priority where
  | low | normal | high | critical
  deriving DecidableEq, Repr

/-- The derived order of `Priority`, as the numeric weight the queue compares. -/
def Priority.weight : Priority → Nat
  | .low => 0
  | .normal => 1
  | .high => 2
  | .critical => 3

inductive ExecutionStrategy where
  | sequential | parallel | hierarchical | debate | mapReduce | plannerExecutor | supervisorWorker | consensus
  | adaptive
  deriving DecidableEq, Repr

def maxAgentsPerJob : Nat := 1000

def maxObjectiveLen : Nat := 8192

structure JobRequest where
  objective : String
  context : Option String
  priority : Priority
  deadline : Option DateTime
  maxAgents : Nat
  maxCost : Option Rat
  maxRuntimeSeconds : Option Nat
  requiredCapabilities : List Capability
  executionStrategy : ExecutionStrategy
  idempotencyKey : Option String
  deriving DecidableEq, Repr

namespace JobRequest

def new (objective : String) : JobRequest where
  objective := objective
  context := none
  priority := .normal
  deadline := none
  maxAgents := 8
  maxCost := none
  maxRuntimeSeconds := none
  requiredCapabilities := []
  executionStrategy := .parallel
  idempotencyKey := none

/-- Refuse requests that cannot be executed. A cost that is not finite has no
counterpart here: `maxCost` is an exact number. -/
def validate (request : JobRequest) : Except SwarmError Unit := do
  if isBlank request.objective.toList then
    throw (.validation "objective must not be empty")
  if maxObjectiveLen < (Utf8.encode request.objective.toList).length then
    throw (.validation
      s!"objective is {(Utf8.encode request.objective.toList).length} bytes, limit is {maxObjectiveLen}")
  if request.maxAgents = 0 then
    throw (.validation "max_agents must be at least 1")
  if maxAgentsPerJob < request.maxAgents then
    throw (.quotaExceeded s!"max_agents {request.maxAgents} exceeds the per-job ceiling of {maxAgentsPerJob}")
  if request.maxCost.any (fun cost => cost ≤ 0) then
    throw (.validation "max_cost must be a positive, finite number of USD")
  if request.maxRuntimeSeconds = some 0 then
    throw (.validation "max_runtime_seconds must be greater than zero")
  if request.idempotencyKey.any (fun key => isBlank key.toList || 256 < (Utf8.encode key.toList).length) then
    throw (.validation "idempotency_key must be 1..=256 non-blank characters")

end JobRequest

structure Job where
  id : JobId
  request : JobRequest
  status : JobStatus
  correlationId : CorrelationId
  createdAt : DateTime
  startedAt : Option DateTime
  finishedAt : Option DateTime
  statusReason : Option String
  deriving DecidableEq, Repr

namespace Job

def new (id : JobId) (correlationId : CorrelationId) (request : JobRequest) (now : DateTime) : Job where
  id := id
  request := request
  status := .submitted
  correlationId := correlationId
  createdAt := now
  startedAt := none
  finishedAt := none
  statusReason := none

/-- Whether the deadline or the runtime budget has passed. -/
def isPastDeadline (job : Job) (now : DateTime) : Bool :=
  job.request.deadline.any (fun deadline => deadline ≤ now) ||
    match job.request.maxRuntimeSeconds, job.startedAt with
    | some limit, some started =>
      let elapsed := numSeconds (now - started)
      0 ≤ elapsed && limit ≤ elapsed.toNat
    | _, _ => false

end Job

structure StructuredOutput where
  taskId : TaskId
  kind : String
  title : String
  content : String
  data : Json
  confidence : Rat
  deriving Repr

structure Conflict where
  description : String
  claims : List String
  taskIds : List TaskId
  attemptedResolution : String
  deriving DecidableEq, Repr

structure ExecutionStatistics where
  wallClockMs : Nat := 0
  tasksTotal : Nat := 0
  tasksSucceeded : Nat := 0
  tasksFailed : Nat := 0
  tasksRetried : Nat := 0
  agentsSpawned : Nat := 0
  modelRequests : Nat := 0
  modelCacheHits : Nat := 0
  tokensIn : Nat := 0
  tokensOut : Nat := 0
  costUsd : Rat := 0
  medianTaskLatencyMs : Nat := 0
  p95TaskLatencyMs : Nat := 0
  p99TaskLatencyMs : Nat := 0
  queueWaitMsTotal : Nat := 0
  schedulingDecisions : Nat := 0
  messagesSent : Nat := 0
  deriving DecidableEq, Repr

/-- Nearest-rank percentile of a sorted list, at `percent` parts of a hundred. -/
def percentile (sorted : List Nat) (percent : Nat) : Nat :=
  let rank := (percent * sorted.length + 99) / 100
  sorted.getD (min (rank - 1) (sorted.length - 1)) 0

def ExecutionStatistics.setLatencyPercentiles (statistics : ExecutionStatistics) (latenciesMs : List Nat) :
    ExecutionStatistics :=
  if latenciesMs.isEmpty then statistics
  else
    let sorted := latenciesMs.insertionSort (· ≤ ·)
    { statistics with
      medianTaskLatencyMs := percentile sorted 50
      p95TaskLatencyMs := percentile sorted 95
      p99TaskLatencyMs := percentile sorted 99 }

structure FinalResult where
  jobId : JobId
  status : JobStatus
  summary : String
  outputs : List StructuredOutput
  supportingEvidence : List Evidence
  confidenceScore : Rat
  unresolvedConflicts : List Conflict
  executionStatistics : ExecutionStatistics
  deriving Repr

end Swarm
