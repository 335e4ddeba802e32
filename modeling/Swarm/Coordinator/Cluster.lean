import Swarm.Agent.Answers
import Swarm.Coordinator.Decompose
import Swarm.Coordinator.Restart
import Swarm.Coordinator.Steps

namespace Swarm
open JobHandle

namespace JobHandle

/-- Pause or resume. A cancelled job is past both. -/
def steer (target : Control) : HandleAct Unit := do
  let h ← get
  if h.control = .cancelled then throw (.cancelled s!"job {h.job.id.display} is cancelled")
  set { h with control := target }
  emit

def pause : HandleAct Unit := steer .paused

def resume : HandleAct Unit := steer .running

/-- The local part of `cancel`: the purge of the queue is a step of its own. -/
def cancel : HandleAct Unit := do
  modify (fun h => { h with control := .cancelled })
  emit

end JobHandle

/-- A request with the identifiers drawn for its job and the tasks of its plan. -/
structure Submission where
  request : JobRequest
  jobId : JobId
  correlationId : CorrelationId
  taskIds : Nat → TaskId
  now : DateTime

/-- The part of `submit` before anything is journaled: validate, admit and plan. The build is a release build. -/
def Submission.plan (config : CoordinatorConfig) (tools : TextTools)
    (toposort : DiGraph TaskId → Except Nat (List Nat)) (submission : Submission) :
    Except Halt (Job × TaskGraph) := do
  submission.request.validate.mapError .failed
  let job := Job.new submission.jobId submission.correlationId submission.request submission.now
  if config.maxClusterAgents < job.request.maxAgents then
    throw (.failed (.quotaExceeded
      s!"job asks for {job.request.maxAgents} agents; this cluster allows {config.maxClusterAgents}"))
  let accepted ← (StateMachine.transition job.status .admitted).mapError .failed
  let planned ← (StateMachine.transition accepted .planning).mapError .failed
  let job := { job with status := planned }
  let graph ← decompose .wraps tools submission.taskIds job toposort
  pure (job, graph)

/-- The handle of a planned job. Its first record is the plan; `JobAdmitted` and
`JobPlanned` have been published. -/
def JobHandle.planned (job : Job) (graph : TaskGraph) : JobHandle :=
  { JobHandle.new job graph [.jobPlanned job graph.nodes.values] with statistics := { messagesSent := 2 } }

/-- One coordinator process: its jobs with their engines, and what they share. -/
structure Cluster where
  jobs : Dict JobId JobRun
  shared : Shared

/-- What can happen next. `submit` and `rehash` name the order in which the map
of tasks is iterated from then on, `restart` the journal that is left. -/
inductive Event where
  | submit (submission : Submission) (nodes : Dict TaskId TaskNode)
  | engine (jobId : JobId) (input : EngineInput)
  | pause (jobId : JobId)
  | resume (jobId : JobId)
  | cancel (jobId : JobId)
  | purge (jobId : JobId)
  | rehash (jobId : JobId) (nodes : Dict TaskId TaskNode)
  | rehashLeases (leases : Dict LeaseId TaskLease)
  | restart (journal : List JournalRecord)

namespace Cluster

def new : Cluster := ⟨.empty, ⟨.new, 0⟩⟩

/-- Work on the handle of a job. The caller sees an error, the handle stays as it was left. -/
def act (c : Cluster) (jobId : JobId) (work : HandleAct Unit) : Cluster :=
  match c.jobs.get? jobId with
  | none => c
  | some run =>
    match work run.handle with
    | .ok _ handle => { c with jobs := c.jobs.insert jobId { run with handle := handle } }
    | .error _ handle => { c with jobs := c.jobs.insert jobId { run with handle := handle } }

section
variable (config : CoordinatorConfig) (tools : TextTools) (toposort : DiGraph TaskId → Except Nat (List Nat))

/-- Plan a job, journal the plan and make the job known. -/
def submit (c : Cluster) (submission : Submission) (nodes : Dict TaskId TaskNode) : Cluster :=
  match submission.plan config tools toposort with
  | .error _ => c
  | .ok (job, graph) =>
    { c with jobs := c.jobs.insert job.id (.new (.planned job { graph with nodes := nodes })) }

/-- The engine of one job takes its next step. -/
def engine (c : Cluster) (jobId : JobId) (input : EngineInput) : Cluster :=
  match c.jobs.get? jobId with
  | none => c
  | some run =>
    let (run, shared) := Engine.step config toposort input run c.shared
    ⟨c.jobs.insert jobId run, shared⟩

/-- A new process over an old journal: the queue and the count of agents start from nothing. -/
def restart (journal : List JournalRecord) : Cluster :=
  ⟨(Recovery.recover toposort journal).mapValues JobRun.new, ⟨.new, 0⟩⟩

def apply (c : Cluster) : Event → Cluster
  | .submit submission nodes => c.submit config tools toposort submission nodes
  | .engine jobId input => c.engine config toposort jobId input
  | .pause jobId => c.act jobId JobHandle.pause
  | .resume jobId => c.act jobId JobHandle.resume
  | .cancel jobId => c.act jobId JobHandle.cancel
  | .purge jobId => { c with shared := { c.shared with queue := (c.shared.queue.purgeJob jobId).2 } }
  | .rehash jobId nodes =>
    c.act jobId (modify (fun h => { h with graph := { h.graph with nodes := nodes } }))
  | .rehashLeases leases =>
    { c with shared := { c.shared with queue := { c.shared.queue with leases := leases } } }
  | .restart journal => restart toposort journal

end

/-- A journal this process can leave behind: of each job's records, in any
interleaving, an initial part. -/
def Leaves (c : Cluster) (journal : List JournalRecord) : Prop :=
  ∀ jobId, match c.jobs.get? jobId with
    | none => Recovery.own jobId journal = []
    | some run => Recovery.own jobId journal <+: run.handle.journal

/-- An outcome of a dispatch is what an execution of its task by its agent came to. -/
def Answers (tools : TextTools) (dispatch : Dispatch) (outcome : Outcome) : Prop :=
  ∀ answer, outcome = .returned answer → ∃ f, Fleet.Reach tools dispatch.task.jobId dispatch.task.id f ∧
    ∃ d ∈ f.deliveries, d.execution.agentId = dispatch.agent.id ∧ d.execution.task = dispatch.task ∧
      d.execution.point = .returned answer

/-- What the outside world guarantees: new identifiers are new, every dispatched
task gets an answer of its own, and only a cancelled job is purged. -/
def Possible (config : CoordinatorConfig) (tools : TextTools) (toposort : DiGraph TaskId → Except Nat (List Nat))
    (c : Cluster) : Event → Prop
  | .submit submission nodes =>
    c.jobs.get? submission.jobId = none ∧
      (∀ jobId run k, c.jobs.get? jobId = some run → run.handle.graph.get (submission.taskIds k) = none) ∧
      ∀ job graph, submission.plan config tools toposort = .ok (job, graph) → graph.nodes.Rehash nodes
  | .engine jobId input => ∀ run dispatches outcomes, c.jobs.get? jobId = some run → run.pc = .executing dispatches →
      input.outcomes = some outcomes → List.Forall₂ (Answers tools) dispatches outcomes
  | .purge jobId => ∀ run, c.jobs.get? jobId = some run → run.handle.control = .cancelled
  | .rehash jobId nodes => ∀ run, c.jobs.get? jobId = some run → run.handle.graph.nodes.Rehash nodes
  | .rehashLeases leases => c.shared.queue.leases.Rehash leases
  | .restart journal => c.Leaves journal
  | _ => True

/-- The runs from one state to another in which every event is of the given kind. -/
inductive Runs (config : CoordinatorConfig) (tools : TextTools) (toposort : DiGraph TaskId → Except Nat (List Nat))
    (kind : Cluster → Event → Prop) (first : Cluster) : Cluster → Prop
  | start : Runs config tools toposort kind first first
  | next {c : Cluster} {event : Event} : Runs config tools toposort kind first c →
      c.Possible config tools toposort event → kind c event →
      Runs config tools toposort kind first (c.apply config tools toposort event)

/-- The states that any run of a coordinator reaches, over any number of lifetimes. -/
abbrev Reach (config : CoordinatorConfig) (tools : TextTools) (toposort : DiGraph TaskId → Except Nat (List Nat)) :
    Cluster → Prop :=
  Runs config tools toposort (fun _ _ => True) new

end Cluster

end Swarm
