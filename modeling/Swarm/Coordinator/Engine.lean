import Swarm.Coordinator.Pool

namespace Swarm

structure UpstreamOutput where
  taskId : TaskId
  title : String
  output : String
  deriving DecidableEq, Repr

structure TaskContext where
  objective : String
  context : Option String
  upstream : List UpstreamOutput
  allowedTools : List String
  deriving DecidableEq, Repr

/-- One task, matched with the agent that will run it. -/
structure Dispatch where
  lease : TaskLease
  agent : AgentDescriptor
  task : TaskNode
  context : TaskContext
  queueWaitMs : Nat

/-- What became of an execution: an answer within the task's timeout, or none. -/
inductive Outcome where
  | returned (answer : Except SwarmError TaskResult)
  | elapsed

/-- Where the engine of a job stands. Each point is the next operation on what
the jobs share: the queue, the count of cluster agents, the operator's control. -/
inductive Pc where
  | idle
  | refunding (claimed target : Nat)
  | top
  | waiting
  | promoting (todo : List TaskId) (queued : Nat)
  | maintaining (promoted : Nat)
  | scaling (promoted depth : Nat)
  | growing (agentType : AgentType) (promoted depth : Nat)
  | reclaiming (promoted depth : Nat)
  | collecting (left : Nat) (dispatches : List Dispatch) (promoted : Nat)
  | dropping (leaseId : LeaseId) (left : Nat) (dispatches : List Dispatch) (promoted : Nat)
  | releasing (leaseId : LeaseId) (dispatches : List Dispatch) (promoted : Nat)
  | deciding
  | executing (dispatches : List Dispatch)
  | applying (todo : List (Dispatch × Outcome))
  | cancelling
  | finishing (cancelled : Bool)
  | returned (answer : Except SwarmError FinalResult)

/-- A job and its engine: the locals of `run_job` next to the handle. -/
structure JobRun where
  handle : JobHandle
  pc : Pc
  ticks : Nat
  paused : Bool
  spawned : Nat

def JobRun.new (handle : JobHandle) : JobRun := ⟨handle, .idle, 0, false, 0⟩

/-- What the engines of one coordinator share. -/
structure Shared where
  queue : InMemoryQueue
  clusterAgents : Nat

/-- What `aggregate` makes of the results, apart from the fields it copies. -/
structure Merged where
  summary : String
  outputs : List StructuredOutput
  supportingEvidence : List Evidence
  confidenceScore : Rat
  unresolvedConflicts : List Conflict

/-- What the outside world supplies to one step of an engine. -/
structure EngineInput where
  now : DateTime
  leaseId : LeaseId
  agentIds : Nat → AgentId
  preference : List AgentDescriptor → Nat
  outcomes : Option (List Outcome)
  merged : Merged
  elapsedMs : Nat

namespace Engine
open JobHandle

section
variable (config : CoordinatorConfig) (toposort : DiGraph TaskId → Except Nat (List Nat))

def worker : String := s!"coordinator:{displayUuid config.nodeId.uuid}"

def stamp (h : JobHandle) (now : DateTime) : Stamp := ⟨worker config, h.job.correlationId, now⟩

/-- Run local work to its next point; an error ends the run. -/
def exec (run : JobRun) (work : HandleAct Pc) : JobRun :=
  match work run.handle with
  | .ok pc handle => { run with handle := handle, pc := pc }
  | .error e handle => { run with handle := handle, pc := .returned (.error e) }

/-- What `run_job` does before it claims agents. -/
def enter (now : DateTime) : HandleAct Nat := do
  setStatus .running none now
  Act.liftExcept (agentTarget toposort (← get))

/-- The deadline check, and the ready tasks of the tick. -/
def planTick (now : DateTime) : HandleAct Pc := do
  let h ← get
  if h.job.isPastDeadline now then do
    emit
    pure (.finishing false)
  else pure (.promoting h.graph.ready 0)

/-- The start of a tick when control says to run. -/
def beginTick (paused : Bool) (now : DateTime) : HandleAct Pc := do
  if paused then setStatus .running none now
  planTick now

/-- Move one ready task into the queue: the local part of a round of `promote_ready`. -/
def promote (task : TaskId) (now : DateTime) : HandleAct TaskNode := do
  let h ← get
  advance task .queued "dependencies_satisfied" (stamp config h now)
  match (← get).graph.get task with
  | none => throw (TaskGraph.notFound task)
  | some node => pure node

/-- Outputs of the tasks this one depends on. -/
def upstreamOutputs (h : JobHandle) (task : TaskNode) : List UpstreamOutput :=
  (h.graph.dependencies task.id).filterMap (fun dependency =>
    (h.results.find? (fun result => result.taskId == dependency)).map (fun result =>
      ⟨result.taskId, result.title, result.output⟩))

/-- Hand a queued task over to its agent. -/
def handOver (lease : TaskLease) (agent : AgentDescriptor) (now : DateTime) : HandleAct Dispatch := do
  let task := lease.task.payload
  let h ← get
  advance task.id .leased "leased_to_agent" (stamp config h now)
  advance task.id .running "agent_started" (stamp config h now)
  let task := { task with attempt := lease.task.attempt }
  let h ← get
  emit
  pure
    { lease := lease
      agent := agent
      task := task
      context := ⟨h.job.request.objective, h.job.request.context, upstreamOutputs h task, []⟩
      queueWaitMs := (max (numMilliseconds (lease.grantedAt - lease.task.enqueuedAt)) 0).toNat }

/-- Start a leased task. The queue's count of attempts is the one that counts. -/
def startTask (lease : TaskLease) (agent : AgentDescriptor) (now : DateTime) : HandleAct Dispatch := do
  let task := lease.task.payload
  modify (fun h => { h with
    graph := h.graph.update task.id (fun node => { node with attempt := lease.task.attempt }) })
  let h ← get
  if h.graph.stateOf task.id = some .retryScheduled then
    advance task.id .queued "backoff_elapsed" (stamp config h now)
  handOver config lease agent now

/-- Where the loop goes once no more work is leased. -/
def collected (h : JobHandle) (dispatches : List Dispatch) (promoted : Nat) : Pc :=
  if dispatches.isEmpty then
    if h.graph.isComplete then .finishing false else if promoted = 0 then .deciding else .top
  else .executing dispatches

/-- What to do with a lease the queue has granted. -/
def receive (input : EngineInput) (run : JobRun) (lease : TaskLease) (left : Nat) (dispatches : List Dispatch)
    (promoted : Nat) : JobRun :=
  let h := run.handle
  let task := lease.task.payload
  if ((h.graph.stateOf task.id).any TaskState.isLeasable) then
    match acquireAgent config input.preference (input.agentIds 0) input.now h.job.id task h.agents with
    | (none, agents) =>
      { run with handle := { h with agents := agents }, pc := .releasing lease.leaseId dispatches promoted }
    | (some agent, agents) =>
      exec { run with handle := { h with agents := agents } } (do
        let dispatch ← startTask config lease agent input.now
        pure (.collecting left (dispatches ++ [dispatch]) promoted))
  else { run with pc := .dropping lease.leaseId left dispatches promoted }

/-- Apply one execution outcome: the queue after the lease was acknowledged or
rejected, and what is left to do on the handle. -/
def applyOutcome (queue : InMemoryQueue) (h : JobHandle) (dispatch : Dispatch) (outcome : Outcome) (now : DateTime) :
    InMemoryQueue × HandleAct Unit :=
  let task := dispatch.task
  let leaseId := dispatch.lease.leaseId
  let retryable := dispatch.lease.task.retry.allowsRetry dispatch.lease.task.attempt
  let stamp := stamp config h now
  match outcome with
  | .returned (.ok result) =>
    if result.passedValidation then
      match queue.acknowledge leaseId now with
      | (.ok (), queue) => (queue, do
        advance task.id .completed "validated" stamp
        recordSuccess dispatch.agent result dispatch.queueWaitMs now
        emit)
      | (.error e, queue) => (queue, do
        releaseAgent dispatch.agent false result.durationMs now
        failTask task .failed "lease_lost" e.display retryable [] stamp)
    else
      let detail := String.intercalate "; " result.validationFailures
      ((queue.reject leaseId s!"validation failed: {detail}" now).2, do
        releaseAgent dispatch.agent false result.durationMs now
        failTask task .failed "validation_failed" detail retryable result.validationFailures stamp)
  | .returned (.error e) =>
    ((queue.reject leaseId e.display now).2, do
      releaseAgent dispatch.agent false 0 now
      failTask task .failed e.kind e.display (retryable && e.isRetryable) [] stamp)
  | .elapsed =>
    let timeoutMs := task.timeoutSeconds * 1000
    ((queue.reject leaseId s!"timed out after {timeoutMs}ms" now).2, do
      releaseAgent dispatch.agent false timeoutMs now
      failTask task .timedOut "timeout" s!"exceeded {task.timeoutSeconds}s" retryable [] stamp)

/-- The last part of `make_progress_possible`: give up the tasks behind an abandoned one. -/
def abandonStranded (now : DateTime) : HandleAct Pc := do
  let h ← get
  let stranded := h.graph.blockedByAbandoned
  if stranded.isEmpty then pure (.finishing false)
  else do
    stranded.forM (fun task => do
      advance task .cancelled "upstream_abandoned" (stamp config h now)
      emit)
    pure .top

/-- Abandon one task of a cancelled job. A running task steps through a failure state. -/
def cancelTask (stamp : Stamp) (task : TaskId) : HandleAct Unit := do
  let h ← get
  if h.graph.stateOf task = some .running then do
    advance task .failed "job_cancelled" stamp
    advance task .deadLettered "job_cancelled" stamp
  else advance task .cancelled "job_cancelled" stamp

def cancelPending (now : DateTime) : HandleAct Unit := do
  let h ← get
  let pending := (h.graph.nodes.values.filter (fun node => !node.isTerminal)).map TaskNode.id
  pending.forM (cancelTask (stamp config h now))

def finalStatus (cancelled : Bool) (counts : GraphCounts) : JobStatus :=
  if cancelled then .cancelled
  else if counts.abandoned = 0 ∧ counts.completed = counts.total then .completed
  else if 0 < counts.completed then .partiallyCompleted
  else .failed

def aggregate (job : Job) (status : JobStatus) (statistics : ExecutionStatistics) (merged : Merged) :
    FinalResult where
  jobId := job.id
  status := status
  summary := merged.summary
  outputs := merged.outputs
  supportingEvidence := merged.supportingEvidence
  confidenceScore := merged.confidenceScore
  unresolvedConflicts := merged.unresolvedConflicts
  executionStatistics := statistics

/-- Take the final status and publish the final result. -/
def conclude (status : JobStatus) (input : EngineInput) : HandleAct Pc := do
  let h ← get
  let result := aggregate h.job status h.statistics input.merged
  let conflicts := result.unresolvedConflicts.length
  setStatus status (if conflicts = 0 then none else some s!"{conflicts} unresolved conflicts") input.now
  modify (fun h => { h with
    journal := h.journal ++ [.jobFinished result.jobId result]
    finalResult := some result })
  emit
  pure (.returned (.ok result))

/-- Bring the job to a terminal state and produce the final result. -/
def finish (cancelled : Bool) (spawned : Nat) (input : EngineInput) : HandleAct Pc := do
  let counts := (← get).graph.counts
  modify (fun h => { h with
    statistics := { h.statistics with
      wallClockMs := input.elapsedMs
      tasksTotal := counts.total
      agentsSpawned := max h.statistics.agentsSpawned spawned }.setLatencyPercentiles h.latencies })
  if !cancelled then setStatus .aggregating none input.now
  conclude (finalStatus cancelled counts) input

/-- `usize` counters wrap. -/
def fetchAdd (counter amount : Nat) : Nat := (counter + amount) % 2 ^ 64

def fetchSub (counter amount : Nat) : Nat := (counter + 2 ^ 64 - amount) % 2 ^ 64

/-- The start of `run_job`. -/
def stepIdle (input : EngineInput) (run : JobRun) (shared : Shared) : JobRun × Shared :=
  let job := run.handle.job
  if job.status.isFinished then
    match run.handle.finalResult with
    | some result => ({ run with pc := .returned (.ok result) }, shared)
    | none =>
      ({ run with pc := .returned (.error (.internal s!"job {job.id.display} finished without a result")) }, shared)
  else
    match enter toposort input.now run.handle with
    | .error e handle => ({ run with handle := handle, pc := .returned (.error e) }, shared)
    | .ok target handle =>
      let claimed := shared.clusterAgents
      let shared := { shared with clusterAgents := fetchAdd claimed target }
      if config.maxClusterAgents < claimed + target then
        ({ run with handle := handle, pc := .refunding claimed target }, shared)
      else
        (exec { run with handle := handle, ticks := 0, paused := false, spawned := target } (do
          spawnAgents config input.agentIds target input.now
          pure .top), shared)

/-- The top of the loop: the tick budget, the operator's control and the deadline. -/
def stepTop (input : EngineInput) (run : JobRun) : JobRun :=
  let run := { run with ticks := run.ticks + 1 }
  if config.maxTicks < run.ticks then
    { run with pc := .returned (.error (.internal
      s!"job {run.handle.job.id.display} exceeded its scheduling tick budget")) }
  else
    match run.handle.control with
    | .cancelled => { run with pc := .cancelling }
    | .paused =>
      if run.paused then { run with pc := .waiting }
      else
        exec { run with paused := true } (do
          setStatus .paused (some "operator paused") input.now
          pure .waiting)
    | .running => exec { run with paused := false } (beginTick run.paused input.now)

/-- One step of the engine of a job, up to and with its next operation on what is shared. -/
def step (input : EngineInput) (run : JobRun) (shared : Shared) : JobRun × Shared :=
  match run.pc with
  | .idle | .returned _ => stepIdle config toposort input run shared
  | .refunding claimed target =>
    ({ run with pc := .returned (.error (.quotaExceeded
        s!"cluster has {claimed} of {config.maxClusterAgents} agents in use; job needs {target} more")) },
      { shared with clusterAgents := fetchSub shared.clusterAgents target })
  | .top => (stepTop config input run, shared)
  | .waiting =>
    match run.handle.control with
    | .paused => (run, shared)
    | .running => ({ run with pc := .top }, shared)
    | .cancelled => ({ run with pc := .cancelling }, shared)
  | .promoting (task :: rest) queued =>
    match promote config task input.now run.handle with
    | .error e handle => ({ run with handle := handle, pc := .returned (.error e) }, shared)
    | .ok node handle =>
      let entry := QueuedTask.fromTask node handle.job.request.priority config.leaseMs input.now
      (exec { run with handle := handle } (do
        emit
        pure (.promoting rest (queued + 1))), { shared with queue := shared.queue.enqueue entry })
  | .promoting [] queued =>
    ({ run with pc := .maintaining queued }, { shared with queue := (shared.queue.requeueExpired input.now).2 })
  | .maintaining promoted =>
    let stats := shared.queue.statistics input.now
    let idle := run.handle.agents.countP AgentDescriptor.isAvailable
    if idle < stats.ready ∧ run.handle.agents.length < run.handle.job.request.maxAgents then
      ({ run with pc := .scaling promoted stats.depth }, shared)
    else ({ run with pc := .reclaiming promoted stats.depth }, shared)
  | .scaling promoted depth =>
    if shared.clusterAgents < config.maxClusterAgents then
      match mostNeededType run.handle with
      | some agentType => ({ run with pc := .growing agentType promoted depth }, shared)
      | none => ({ run with pc := .reclaiming promoted depth }, shared)
    else ({ run with pc := .reclaiming promoted depth }, shared)
  | .growing agentType promoted depth =>
    (exec run (do
      growPool config (input.agentIds 0) agentType input.now
      pure (.reclaiming promoted depth)),
      { shared with clusterAgents := fetchAdd shared.clusterAgents 1 })
  | .reclaiming promoted depth =>
    let cutoff := input.now - milliseconds (asI64 config.agentIdleTimeoutMs)
    let (agents, reclaimed) :=
      if depth = 0 then reclaim cutoff run.handle.agents.length run.handle.agents else (run.handle.agents, 0)
    (exec { run with handle := { run.handle with agents := agents } } (do
      if 0 < reclaimed then emit
      pure (.collecting (agents.countP AgentDescriptor.isAvailable) [] promoted)),
      { shared with clusterAgents := fetchSub shared.clusterAgents reclaimed })
  | .collecting 0 dispatches promoted => ({ run with pc := collected run.handle dispatches promoted }, shared)
  | .collecting (left + 1) dispatches promoted =>
    match shared.queue.dequeueFrom (worker config) [] [] input.now input.leaseId with
    | (none, queue) => ({ run with pc := collected run.handle dispatches promoted }, { shared with queue := queue })
    | (some lease, queue) =>
      (receive config input run lease left dispatches promoted, { shared with queue := queue })
  | .dropping leaseId left dispatches promoted =>
    ({ run with pc := .collecting left dispatches promoted },
      { shared with queue := (shared.queue.acknowledge leaseId input.now).2 })
  | .releasing leaseId dispatches promoted =>
    match shared.queue.release leaseId input.now with
    | (.error e, queue) => ({ run with pc := .returned (.error e) }, { shared with queue := queue })
    | (.ok (), queue) =>
      ({ run with pc := collected run.handle dispatches promoted }, { shared with queue := queue })
  | .deciding =>
    if 0 < (shared.queue.statistics input.now).depth then ({ run with pc := .top }, shared)
    else (exec run (abandonStranded config input.now), shared)
  | .executing dispatches =>
    match input.outcomes with
    | some outcomes => ({ run with pc := .applying (dispatches.zip outcomes) }, shared)
    | none => if run.handle.control = .cancelled then ({ run with pc := .cancelling }, shared) else (run, shared)
  | .applying [] =>
    ({ run with pc := if run.handle.graph.isComplete then .finishing false else .top }, shared)
  | .applying ((dispatch, outcome) :: rest) =>
    let (queue, work) := applyOutcome config shared.queue run.handle dispatch outcome input.now
    (exec run (do
      work
      pure (.applying rest)), { shared with queue := queue })
  | .cancelling =>
    match cancelPending config input.now run.handle with
    | .error e handle => ({ run with handle := handle, pc := .returned (.error e) }, shared)
    | .ok () handle =>
      ({ run with handle := handle, pc := .finishing true },
        { shared with queue := (shared.queue.purgeJob handle.job.id).2 })
  | .finishing cancelled =>
    match finish cancelled run.spawned input run.handle with
    | .error e handle => ({ run with handle := handle, pc := .returned (.error e) }, shared)
    | .ok pc handle =>
      ({ run with handle := handle, pc := pc },
        { shared with clusterAgents := shared.clusterAgents - handle.agents.length })

end

end Engine

end Swarm
