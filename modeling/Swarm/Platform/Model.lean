import Swarm.Agent.Execute
import Swarm.Coordinator.Cluster
import Swarm.Gateway.Polling
import Swarm.Platform.Prompt

namespace Swarm

/-- An execution that the engine of a job waits for, and how far its call of the gateway has come. -/
structure Flight where
  dispatch : Dispatch
  point : ExecutePoint
  call : CompletePoint

namespace Flight

def start (dispatch : Dispatch) : Flight := ⟨dispatch, .lookup, .asked⟩

def execution (flight : Flight) : Execution := ⟨flight.dispatch.agent.id, flight.dispatch.task, flight.point⟩

/-- What the timeout around the execution comes to. -/
def outcome (flight : Flight) : Outcome :=
  match flight.point with
  | .returned answer => .returned answer
  | _ => .elapsed

/-- One await of an execution. While it calls the gateway the await is one of that call, and
`input` has what a provider answers. -/
def advance (tools : TextTools) (flight : Flight) (store : InMemoryStore MemoryValue) (gateway : Gateway UInt64)
    (clock : Nat) (input : StepInput) : Flight × InMemoryStore MemoryValue × Gateway UInt64 :=
  match flight.point with
  | .call =>
    let request := flight.dispatch.request
    let (gateway, call) := gateway.poll request request.cacheKey clock input.completion flight.call
    match call.answer with
    | none => ({ flight with call := call }, store, gateway)
    | some completion =>
      let (store, point) := flight.execution.step tools store { input with completion := completion }
      ({ flight with point := point, call := call }, store, gateway)
  | _ =>
    let (store, point) := flight.execution.step tools store input
    ({ flight with point := point }, store, gateway)

end Flight

/-- The executions under way after a step of an engine: they start together, and are dropped
when the engine no longer waits for them. -/
def Pc.manifest (before after : Pc) (flights : List Flight) : List Flight :=
  match before, after with
  | .executing _, .executing _ => flights
  | _, .executing dispatches => dispatches.map Flight.start
  | _, _ => []

/-- Identifiers are drawn as UUIDs. -/
def Submission.Numbered (submission : Submission) : Prop :=
  submission.jobId.uuid < 2 ^ 128 ∧ ∀ k, (submission.taskIds k).uuid < 2 ^ 128

/-- A coordinator with the agents that run its tasks, their shared memory and their gateway. -/
structure Platform where
  cluster : Cluster
  store : InMemoryStore MemoryValue
  gateway : Gateway UInt64
  flights : Dict JobId (List Flight)

/-- What can happen next: an event of the coordinator, or an await of one execution. -/
inductive Activity where
  | cluster (event : Event)
  | execute (jobId : JobId) (index clock : Nat) (input : StepInput)

/-- Whether it is a step of an engine or of an execution. -/
def Activity.isStep : Activity → Bool
  | .cluster (.engine _ _) | .execute _ _ _ _ => true
  | _ => false

namespace Platform

def new (config : GatewayConfig) (providers : List Provider) : Platform :=
  ⟨.new, .new, .withProviders config providers, .empty⟩

def flightsOf (p : Platform) (jobId : JobId) : List Flight := (p.flights.get? jobId).getD []

/-- The outcomes that an engine collects are those of its executions. -/
def joined (p : Platform) (jobId : JobId) (input : EngineInput) : EngineInput :=
  { input with outcomes := input.outcomes.map (fun _ => (p.flightsOf jobId).map Flight.outcome) }

section
variable (config : CoordinatorConfig) (tools : TextTools) (toposort : DiGraph TaskId → Except Nat (List Nat))

/-- The engine of one job takes its next step. -/
def engine (p : Platform) (jobId : JobId) (input : EngineInput) : Platform :=
  match p.cluster.jobs.get? jobId with
  | none => p
  | some run =>
    let (run', shared) := Engine.step config toposort (p.joined jobId input) run p.cluster.shared
    { p with
      cluster := ⟨p.cluster.jobs.insert jobId run', shared⟩
      flights := p.flights.insert jobId (run.pc.manifest run'.pc (p.flightsOf jobId)) }

/-- One execution of a job takes its next step. -/
def execute (p : Platform) (jobId : JobId) (index clock : Nat) (input : StepInput) : Platform :=
  match (p.flightsOf jobId)[index]? with
  | none => p
  | some flight =>
    let (flight, store, gateway) := flight.advance tools p.store p.gateway clock input
    { p with
      store := store
      gateway := gateway
      flights := p.flights.insert jobId ((p.flightsOf jobId).set index flight) }

/-- A new process over the journal that is left. Memory and gateway were part of the old one. -/
def restart (p : Platform) (journal : List JournalRecord) : Platform :=
  ⟨.restart toposort journal, .new, .withProviders p.gateway.config p.gateway.providers, .empty⟩

def apply (p : Platform) : Activity → Platform
  | .cluster (.engine jobId input) => p.engine config toposort jobId input
  | .cluster (.restart journal) => p.restart toposort journal
  | .cluster event => { p with cluster := p.cluster.apply config tools toposort event }
  | .execute jobId index clock input => p.execute tools jobId index clock input

/-- What the outside world guarantees: what it does for the coordinator, and identifiers as
wide as UUIDs. What the engines collect is up to the executions. -/
def Possible (p : Platform) : Activity → Prop
  | .cluster (.engine _ _) => True
  | .cluster (.submit submission nodes) =>
    p.cluster.Possible config tools toposort (.submit submission nodes) ∧ submission.Numbered
  | .cluster event => p.cluster.Possible config tools toposort event
  | .execute _ _ _ _ => True

end

/-- The runs from one state to another in which every activity is of the given kind. -/
inductive Runs (config : CoordinatorConfig) (tools : TextTools) (toposort : DiGraph TaskId → Except Nat (List Nat))
    (kind : Platform → Activity → Prop) (first : Platform) : Platform → Prop
  | start : Runs config tools toposort kind first first
  | next {p : Platform} {activity : Activity} : Runs config tools toposort kind first p →
      p.Possible config tools toposort activity → kind p activity →
      Runs config tools toposort kind first (p.apply config tools toposort activity)

/-- The states that any run of the platform reaches, over any number of lifetimes. -/
abbrev Reach (config : CoordinatorConfig) (tools : TextTools) (toposort : DiGraph TaskId → Except Nat (List Nat))
    (limits : GatewayConfig) (providers : List Provider) : Platform → Prop :=
  Runs config tools toposort (fun _ _ => True) (new limits providers)

end Platform

end Swarm
