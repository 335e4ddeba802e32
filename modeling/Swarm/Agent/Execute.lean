import Swarm.Agent.Output
import Swarm.Gateway.Request
import Swarm.Memory.Store

namespace Swarm

structure Checkpoint where
  taskId : TaskId
  attempt : Nat
  seq : Nat
  label : String
  state : Json
  createdAt : DateTime

/-- The JSON values agents keep in shared memory, as the data they encode. -/
inductive MemoryValue where
  | execution (agentId : AgentId) (taskId : TaskId) (attempt : Nat) (claimedAt : DateTime)
  | checkpoint (checkpoint : Checkpoint)
  | result (result : TaskResult)

/-- `MemoryRecord::parse::<TaskResult>`. Neither of the other objects has the fields of a result. -/
def MemoryRecord.parseResult (record : MemoryRecord MemoryValue) : Except SwarmError TaskResult :=
  match record.value with
  | .result result => .ok result
  | _ => .error (.memory s!"record {record.nspace}/{record.key} does not deserialize: missing field `job_id`")

/-- Where an execution of `Agent::execute` stands: each point is the next await
on shared memory or on the gateway. -/
inductive ExecutePoint where
  | lookup
  | claimAttempt
  | recheck
  | started
  | call
  | responded (response : CompletionResponse)
  | publish (result : TaskResult)
  | reread (result : TaskResult)
  | completed (result : TaskResult)
  | returned (answer : Except SwarmError TaskResult)

/-- One call of `Agent::execute` by `agentId` on a delivered task. -/
structure Execution where
  agentId : AgentId
  task : TaskNode
  point : ExecutePoint

/-- What the outside world supplies to one step: the clock, a record
identifier, the time since the execution started and the gateway's answer. -/
structure StepInput where
  now : DateTime
  id : MemoryId
  elapsedMs : Nat
  completion : Except SwarmError CompletionResponse

namespace Execution
variable (tools : TextTools)

def actor (e : Execution) : String := s!"agent:{e.agentId.display}"

def resultsKey (e : Execution) : RecordKey := (Ns.results e.task.jobId, e.task.id.display)

def executionsKey (e : Execution) : RecordKey := (Ns.executions e.task.jobId, e.task.attemptKey)

def storedResult (e : Execution) (store : InMemoryStore MemoryValue) (now : DateTime) :
    Except SwarmError (Option TaskResult) :=
  match store.get e.resultsKey now with
  | none => .ok none
  | some record => record.parseResult.map some

def writeCheckpoint (e : Execution) (store : InMemoryStore MemoryValue) (seq : Nat) (label : String) (state : Json)
    (input : StepInput) : InMemoryStore MemoryValue :=
  let checkpoint : Checkpoint := ⟨e.task.id, e.task.attempt, seq, label, state, input.now⟩
  (store.put ((MemoryWrite.new (Ns.checkpoints e.task.jobId) s!"{e.task.id.display}/{e.task.attempt}/{seq}"
    (.checkpoint checkpoint) e.actor).forJob e.task.jobId) input.now input.id).2

def claimWrite (e : Execution) (now : DateTime) : MemoryWrite MemoryValue :=
  (MemoryWrite.new (Ns.executions e.task.jobId) e.task.attemptKey
    (.execution e.agentId e.task.id e.task.attempt now) e.actor).forJob e.task.jobId

def publishWrite (e : Execution) (result : TaskResult) : MemoryWrite MemoryValue :=
  (MemoryWrite.new (Ns.results e.task.jobId) e.task.id.display (.result result) e.actor).forJob e.task.jobId

/-- The result an execution builds from the gateway's answer. -/
def buildResult (e : Execution) (response : CompletionResponse) (input : StepInput) : TaskResult :=
  let parsed := ParsedOutput.fromText tools response.text
  { taskId := e.task.id
    jobId := e.task.jobId
    agentId := e.agentId
    attempt := e.task.attempt
    kind := e.task.kind
    title := e.task.title
    output := parsed.displayText
    structured := parsed.structured
    evidence := parsed.evidence
    reasoningSummary := parsed.reasoningSummary
    confidence := parsed.confidence
    validationFailures := validateOutput tools response.text e.task.validation
    tokensIn := response.tokensIn
    tokensOut := response.tokensOut
    costUsd := response.costUsd
    durationMs := input.elapsedMs
    deduplicated := false
    finishedAt := input.now }

/-- One await of `Agent::execute`. Only a validated result is published. -/
def step (e : Execution) (store : InMemoryStore MemoryValue) (input : StepInput) :
    InMemoryStore MemoryValue × ExecutePoint :=
  match e.point with
  | .lookup =>
    match e.storedResult store input.now with
    | .error err => (store, .returned (.error err))
    | .ok (some existing) => (store, .returned (.ok { existing with deduplicated := true }))
    | .ok none => (store, .claimAttempt)
  | .claimAttempt =>
    match store.claim (e.claimWrite input.now) input.now input.id with
    | (.error err, store) => (store, .returned (.error err))
    | (.ok (some _), store) => (store, .started)
    | (.ok none, store) => (store, .recheck)
  | .recheck =>
    match e.storedResult store input.now with
    | .error err => (store, .returned (.error err))
    | .ok (some existing) => (store, .returned (.ok { existing with deduplicated := true }))
    | .ok none =>
      (store, .returned (.error (.internal
        s!"attempt {e.task.attempt} of task {e.task.id.display} is already being executed elsewhere")))
  | .started =>
    (e.writeCheckpoint store 0 "started" (.object [("agent_id", .string e.agentId.display)]) input, .call)
  | .call =>
    match input.completion with
    | .error err => (store, .returned (.error err))
    | .ok response => (store, .responded response)
  | .responded response =>
    let store :=
      e.writeCheckpoint store 1 "model_responded" (.object [("tokens_out", .number response.tokensOut)]) input
    let result := e.buildResult tools response input
    if result.passedValidation then (store, .publish result) else (store, .completed result)
  | .publish result =>
    match store.claim (e.publishWrite result) input.now input.id with
    | (.error err, store) => (store, .returned (.error err))
    | (.ok (some _), store) => (store, .completed result)
    | (.ok none, store) => (store, .reread result)
  | .reread result =>
    match e.storedResult store input.now with
    | .error err => (store, .returned (.error err))
    | .ok (some winner) => (store, .returned (.ok { winner with deduplicated := true }))
    | .ok none => (store, .completed result)
  | .completed result =>
    (e.writeCheckpoint store 2 "completed" (.object [("validated", .bool result.passedValidation)]) input,
      .returned (.ok result))
  | .returned answer => (store, .returned answer)

end Execution

end Swarm
