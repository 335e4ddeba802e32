import Mathlib.Data.List.Sort
import Swarm.Domain.Task
import Swarm.Lib.Dict
import Swarm.Lib.Digraph

namespace Swarm

structure GraphCounts where
  total : Nat := 0
  pending : Nat := 0
  queued : Nat := 0
  inFlight : Nat := 0
  completed : Nat := 0
  retrying : Nat := 0
  abandoned : Nat := 0
  deriving DecidableEq, Repr

/-- A job's tasks and the dependencies between them. Edges point from a
dependency to its dependent. -/
structure TaskGraph where
  jobId : JobId
  graph : DiGraph TaskId
  index : Dict TaskId Nat
  nodes : Dict TaskId TaskNode

namespace TaskGraph

def new (jobId : JobId) : TaskGraph := ⟨jobId, .new, .empty, .empty⟩

def len (g : TaskGraph) : Nat := g.nodes.entries.length

def get (g : TaskGraph) (id : TaskId) : Option TaskNode := g.nodes.get? id

/-- `get_mut`, for the fields outside the lifecycle. -/
def update (g : TaskGraph) (id : TaskId) (change : TaskNode → TaskNode) : TaskGraph :=
  { g with nodes := g.nodes.modify id change }

/-- Add an edge for each dependency that has an index. -/
def addEdges (index : Dict TaskId Nat) (nodeIndex : Nat) (graph : DiGraph TaskId) (dependencies : List TaskId) :
    DiGraph TaskId :=
  dependencies.foldl (fun graph dependency =>
    match index.get? dependency with
    | some dependencyIndex => (graph.addEdge dependencyIndex nodeIndex).2
    | none => graph) graph

/-- What `insert` does once its checks have passed. -/
def place (g : TaskGraph) (node : TaskNode) : TaskGraph :=
  let (nodeIndex, graph) := g.graph.addNode node.id
  let index := g.index.insert node.id nodeIndex
  { g with
    graph := addEdges index nodeIndex graph node.dependencies
    index := index
    nodes := g.nodes.insert node.id node }

/-- Add a task. Every dependency must already be present. -/
def insert (g : TaskGraph) (node : TaskNode) : Except SwarmError (TaskId × TaskGraph) :=
  if (g.get node.id).isSome then .error (.internal s!"task {node.id.display} is already in the graph")
  else
    match node.dependencies.find? (fun dependency => (g.get dependency).isNone) with
    | some dependency => .error (.unknownDependency node.id.display dependency.display)
    | none => .ok (node.id, g.place node)

def dependencies (g : TaskGraph) (task : TaskId) : List TaskId :=
  match g.index.get? task with
  | none => []
  | some index => (g.graph.incoming index).filterMap (fun neighbour => g.graph.weights[neighbour]?)

def dependents (g : TaskGraph) (task : TaskId) : List TaskId :=
  match g.index.get? task with
  | none => []
  | some index => (g.graph.outgoing index).filterMap (fun neighbour => g.graph.weights[neighbour]?)

section
variable (toposort : DiGraph TaskId → Except Nat (List Nat))

def cycleError (g : TaskGraph) (node : Nat) : SwarmError :=
  .cyclicGraph ((g.graph.weights[node]?).elim "" TaskId.display)

def assertAcyclic (g : TaskGraph) : Except SwarmError Unit :=
  match toposort g.graph with
  | .ok _ => .ok ()
  | .error node => .error (g.cycleError node)

def topologicalOrder (g : TaskGraph) : Except SwarmError (List TaskId) :=
  match toposort g.graph with
  | .ok order => .ok (order.filterMap (fun index => g.graph.weights[index]?))
  | .error node => .error (g.cycleError node)

/-- File one task under the length of its longest dependency chain. -/
def layerTask (g : TaskGraph) (filed : Dict TaskId Nat × List (List TaskId)) (task : TaskId) :
    Dict TaskId Nat × List (List TaskId) :=
  let (depth, layers) := filed
  let taskDepth := (((g.dependencies task).filterMap depth.get?).max?).elim 0 (· + 1)
  let layers := layers ++ List.replicate (taskDepth + 1 - layers.length) []
  (depth.insert task taskDepth, layers.modify taskDepth (· ++ [task]))

def layers (g : TaskGraph) : Except SwarmError (List (List TaskId)) := do
  let order ← g.topologicalOrder toposort
  pure (order.foldl g.layerTask (.empty, [])).2

end

/-- The ids of the tasks in one of the given states, in the order of the map. -/
def withState (g : TaskGraph) (wanted : TaskState → Bool) : List TaskId :=
  (g.nodes.values.filter (fun node => wanted node.state)).map TaskNode.id

def isReady (g : TaskGraph) (node : TaskNode) : Bool :=
  (node.state == .created || node.state == .waitingForDependency) &&
    node.dependenciesSatisfied (g.withState (· == .completed))

/-- The order of `ready`: by stage, then by id. -/
def before (left right : TaskNode) : Bool :=
  left.stage < right.stage || (left.stage == right.stage && left.id.uuid ≤ right.id.uuid)

/-- Tasks whose dependencies are all complete and which wait to be queued. -/
def ready (g : TaskGraph) : List TaskId :=
  ((g.nodes.values.filter g.isReady).insertionSort (before · ·)).map TaskNode.id

/-- The state of the walk in `blocked_by_abandoned`. The top of the stack
`frontier` is its head. -/
structure Walk where
  blocked : List TaskId
  frontier : List TaskId
  seen : List TaskId

def visit (g : TaskGraph) (walk : Walk) (dependent : TaskId) : Walk :=
  if dependent ∈ walk.seen then walk
  else if (g.get dependent).any (fun node => !node.isTerminal) then
    ⟨walk.blocked ++ [dependent], dependent :: walk.frontier, dependent :: walk.seen⟩
  else { walk with seen := dependent :: walk.seen }

/-- The loop of `blocked_by_abandoned`. A task enters the stack once, so as
many rounds as there are tasks are enough. -/
def walkForward (g : TaskGraph) : Nat → Walk → Walk
  | 0, walk => walk
  | fuel + 1, walk =>
    match walk.frontier with
    | [] => walk
    | task :: rest => walkForward g fuel ((g.dependents task).foldl g.visit { walk with frontier := rest })

def isAbandoned (state : TaskState) : Bool := state == .deadLettered || state == .cancelled

/-- Tasks that can never run because an upstream task was abandoned. -/
def blockedByAbandoned (g : TaskGraph) : List TaskId :=
  let abandoned := g.withState isAbandoned
  (g.walkForward g.len ⟨[], abandoned.reverse, abandoned⟩).blocked

def notFound (task : TaskId) : SwarmError := .notFound "task" task.display

/-- Move `task` to `target`, validating the edge and giving the audit record. -/
def setState (g : TaskGraph) (task : TaskId) (target : TaskState) (actor : String) (reason : Option String)
    (correlationId : CorrelationId) (now : DateTime) : Except SwarmError (Transition TaskState × TaskGraph) :=
  match g.get task with
  | none => .error (notFound task)
  | some node => do
    let (next, transition) ← applyTransition node.state target actor reason correlationId now
    pure (transition, g.update task (fun node => { node with state := next }))

/-- Set a task's state during replay, without validating the edge. -/
def restoreState (g : TaskGraph) (task : TaskId) (state : TaskState) : Except SwarmError TaskGraph :=
  match g.get task with
  | none => .error (notFound task)
  | some _ => .ok (g.update task (fun node => { node with state := state }))

def countTask (counts : GraphCounts) (node : TaskNode) : GraphCounts :=
  match node.state with
  | .created | .waitingForDependency | .preempted => { counts with pending := counts.pending + 1 }
  | .queued => { counts with queued := counts.queued + 1 }
  | .leased | .running => { counts with inFlight := counts.inFlight + 1 }
  | .completed => { counts with completed := counts.completed + 1 }
  | .failed | .timedOut | .retryScheduled => { counts with retrying := counts.retrying + 1 }
  | .cancelled | .deadLettered => { counts with abandoned := counts.abandoned + 1 }

def counts (g : TaskGraph) : GraphCounts := g.nodes.values.foldl countTask { total := g.len }

/-- Whether every task has reached a terminal state. -/
def isComplete (g : TaskGraph) : Bool := !g.nodes.entries.isEmpty && g.nodes.values.all TaskNode.isTerminal

end TaskGraph

end Swarm
