import Swarm.Coordinator.Handle

namespace Swarm

/-- Everything replay has learned about one job so far. -/
structure Recovering where
  job : Option Job := none
  tasks : List TaskNode := []
  taskStates : Dict TaskId TaskState := .empty
  attempts : Dict TaskId Nat := .empty
  transitions : List (Transition TaskState) := []
  results : List TaskResult := []
  failures : List TaskFailure := []
  finalResult : Option FinalResult := none

namespace Recovery

/-- Fold one record into the accumulator of its job. -/
def absorb (entry : Recovering) (record : JournalRecord) : Recovering :=
  match record with
  | .jobPlanned job tasks => { entry with job := some job, tasks := tasks }
  | .jobStatusChanged _ status reason _ =>
    { entry with job := entry.job.map (fun job => { job with status := status, statusReason := reason }) }
  | .taskTransitioned _ transition taskId attempt =>
    { entry with
      taskStates := entry.taskStates.insert taskId transition.target
      attempts := entry.attempts.insert taskId attempt
      transitions := entry.transitions ++ [transition] }
  | .taskCompleted _ result => { entry with results := entry.results ++ [result] }
  | .taskFailed _ failure => { entry with failures := entry.failures ++ [failure] }
  | .jobFinished _ result => { entry with finalResult := some result }

/-- Fold one journal record into the per-job accumulators. -/
def apply (jobs : Dict JobId Recovering) (record : JournalRecord) : Dict JobId Recovering :=
  jobs.insert record.jobId (absorb ((jobs.get? record.jobId).getD {}) record)

/-- Insert a task if everything it depends on is in the graph, or defer it. -/
def insertOrDefer (kept : TaskGraph × List TaskNode) (task : TaskNode) :
    Except SwarmError (TaskGraph × List TaskNode) :=
  if task.dependencies.all (fun dependency => (kept.1.get dependency).isSome) then do
    let inserted ← kept.1.insert task
    pure (inserted.2, kept.2)
  else pure (kept.1, kept.2 ++ [task])

/-- The loop of `rebuild_graph`. A round that defers every task ends it, so as
many rounds as there are tasks are enough. -/
def insertRounds (jobId : JobId) : Nat → TaskGraph → List TaskNode → Except SwarmError TaskGraph
  | _, graph, [] => .ok graph
  | 0, _, pending => .error (.internal
      s!"journal for job {jobId.display} references {pending.length} tasks whose dependencies are missing")
  | fuel + 1, graph, pending => do
    let round ← pending.foldlM insertOrDefer (graph, [])
    if round.2.length = pending.length then
      throw (.internal
        s!"journal for job {jobId.display} references {round.2.length} tasks whose dependencies are missing")
    insertRounds jobId fuel round.1 round.2

/-- Insert tasks in dependency order, whatever order the journal has them in. -/
def rebuildGraph (toposort : DiGraph TaskId → Except Nat (List Nat)) (jobId : JobId) (tasks : List TaskNode) :
    Except SwarmError TaskGraph := do
  let graph ← insertRounds jobId tasks.length (.new jobId) tasks
  graph.assertAcyclic toposort
  pure graph

/-- A task that was in flight goes back to the ready set. -/
def restored (state : TaskState) : TaskState := if state.isTerminal then state else .created

/-- Restore one task; the second component counts the tasks that are re-queued. -/
def restoreTask (attempts : Dict TaskId Nat) (kept : TaskGraph × Nat) (entry : TaskId × TaskState) :
    Except SwarmError (TaskGraph × Nat) := do
  let graph ← kept.1.restoreState entry.1 (restored entry.2)
  let graph := match attempts.get? entry.1 with
    | some attempt => graph.update entry.1 (fun node => { node with attempt := attempt })
    | none => graph
  pure (graph, if entry.2.isTerminal then kept.2 else kept.2 + 1)

/-- Rebuild the counters that are derivable from what actually happened. -/
def recomputeStatistics (results : List TaskResult) (failures : List TaskFailure) (tasksTotal : Nat) :
    ExecutionStatistics :=
  { tasksTotal := tasksTotal
    tasksSucceeded := results.length
    tasksFailed := failures.countP TaskFailure.deadLettered
    tasksRetried := failures.countP (fun failure => !failure.deadLettered)
    modelRequests := results.countP (fun result => !result.deduplicated)
    modelCacheHits := results.countP TaskResult.deduplicated
    tokensIn := (results.map TaskResult.tokensIn).sum
    tokensOut := (results.map TaskResult.tokensOut).sum
    costUsd := (results.map TaskResult.costUsd).sum : ExecutionStatistics }.setLatencyPercentiles
    (results.map TaskResult.durationMs)

/-- A job that was running is rewound to `Planning`, from where the engine can start it again. -/
def rewound (job : Job) (resumed : Nat) : Job :=
  if job.status.isFinished then job
  else { job with status := .planning, statusReason := some s!"recovered from journal, {resumed} tasks re-queued" }

/-- Turn the accumulated records into a live job handle. `journal` are the
records the job already has in the log. -/
def build (toposort : DiGraph TaskId → Except Nat (List Nat)) (journal : List JournalRecord) (state : Recovering) :
    Except SwarmError JobHandle :=
  match state.job with
  | none => .error (.internal "journal has records for a job it never planned; log is truncated at the head")
  | some job => do
    let graph ← rebuildGraph toposort job.id state.tasks
    let kept ← state.taskStates.entries.foldlM (restoreTask state.attempts) (graph, 0)
    pure
      { job := rewound job kept.2
        graph := kept.1
        agents := []
        results := state.results
        failures := state.failures
        transitions := state.transitions
        statistics := recomputeStatistics state.results state.failures kept.1.counts.total
        latencies := state.results.map TaskResult.durationMs
        finalResult := state.finalResult
        control := .running
        journal := journal }

/-- The records of one job, in the order of the log. -/
def own (jobId : JobId) (journal : List JournalRecord) : List JournalRecord :=
  journal.filter (fun record => record.jobId == jobId)

/-- What `recover` makes of one job of the log. -/
def rebuild (toposort : DiGraph TaskId → Except Nat (List Nat)) (journal : List JournalRecord) (jobId : JobId) :
    Option (Except SwarmError JobHandle) :=
  ((journal.foldl apply .empty).get? jobId).map (build toposort (own jobId journal))

/-- Take a rebuilt job over. One unrecoverable job does not stop the others. -/
def adopt (toposort : DiGraph TaskId → Except Nat (List Nat)) (journal : List JournalRecord)
    (jobs : Dict JobId JobHandle) (entry : JobId × Recovering) : Dict JobId JobHandle :=
  match build toposort (own entry.1 journal) entry.2 with
  | .ok handle => jobs.insert entry.1 handle
  | .error _ => jobs

/-- Rebuild the jobs of a log. -/
def recover (toposort : DiGraph TaskId → Except Nat (List Nat)) (journal : List JournalRecord) :
    Dict JobId JobHandle :=
  (journal.foldl apply .empty).entries.foldl (adopt toposort journal) .empty

end Recovery

end Swarm
