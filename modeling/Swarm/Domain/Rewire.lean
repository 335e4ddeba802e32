import Swarm.Domain.Graph
import Swarm.Lib.EdgeOrder

namespace Swarm

namespace TaskGraph

def indexOf (g : TaskGraph) (task : TaskId) : Except SwarmError Nat :=
  match g.index.get? task with
  | some index => .ok index
  | none => .error (notFound task)

def removeDependency (g : TaskGraph) (task dependsOn : TaskId) : TaskGraph :=
  match g.indexOf task, g.indexOf dependsOn with
  | .ok taskIndex, .ok dependencyIndex =>
    let graph := (g.graph.findEdge dependencyIndex taskIndex).elim g.graph g.graph.removeEdge
    TaskGraph.update { g with graph := graph } task
      (fun node => { node with dependencies := node.dependencies.filter (· != dependsOn) })
  | _, _ => g

section
variable (toposort : DiGraph TaskId → Except Nat (List Nat))

/-- Make `task` depend on `dependsOn`. An edge that would close a cycle is
taken back before the error is returned. -/
def addDependency (g : TaskGraph) (task dependsOn : TaskId) : Except SwarmError Unit × TaskGraph :=
  match g.indexOf task, g.indexOf dependsOn with
  | .error err, _ => (.error err, g)
  | .ok _, .error err => (.error err, g)
  | .ok taskIndex, .ok dependencyIndex =>
    if task = dependsOn then (.error (.cyclicGraph task.display), g)
    else if (g.get task).any (fun node => node.dependencies.contains dependsOn) then (.ok (), g)
    else
      let (edge, graph) := g.graph.addEdge dependencyIndex taskIndex
      match assertAcyclic toposort { g with graph := graph } with
      | .error err => (.error err, { g with graph := graph.removeEdge edge })
      | .ok _ =>
        (.ok (), TaskGraph.update { g with graph := graph } task
          (fun node => { node with dependencies := node.dependencies ++ [dependsOn] }))

/-- What `insert_dynamic` does about a refused edge. The petgraph node stays. -/
def rollBack (g : TaskGraph) (id : TaskId) (earlier : List TaskId) : TaskGraph :=
  let g := earlier.foldl (fun g task => g.removeDependency task id) g
  { g with nodes := g.nodes.erase id, index := g.index.erase id }

/-- The loop of `insert_dynamic` over the rest of the `dependents`. -/
def attach (id : TaskId) (dependents : List TaskId) : List TaskId → TaskGraph → Except SwarmError TaskId × TaskGraph
  | [], g => (.ok id, g)
  | dependent :: rest, g =>
    match g.addDependency toposort dependent id with
    | (.ok _, next) => attach id dependents rest next
    | (.error err, next) => (.error err, next.rollBack id (dependents.takeWhile (· != dependent)))

/-- Insert `node` and make each task in `dependents` wait for it. -/
def insertDynamic (g : TaskGraph) (node : TaskNode) (dependents : List TaskId) :
    Except SwarmError TaskId × TaskGraph :=
  match g.insert node with
  | .error err => (.error err, g)
  | .ok (id, next) => attach toposort id dependents dependents next

/-- Take `task` off its dependencies, edge by edge under the indices the edges
had before the first removal. -/
def unlink (g : TaskGraph) (task : TaskId) (taskIndex : Nat) : TaskGraph :=
  TaskGraph.update { g with graph := (g.graph.incomingEdges taskIndex).foldl DiGraph.removeEdge g.graph } task
    (fun node => { node with dependencies := [] })

/-- The loop of `split` over the children. -/
def adoptChildren (task : TaskId) (inherited : List TaskId) :
    List TaskNode → List TaskId → TaskGraph → Except SwarmError (List TaskId) × TaskGraph
  | [], childIds, g => (.ok childIds, g)
  | child :: rest, childIds, g =>
    match g.insert { child with dependencies := inherited } with
    | .error err => (.error err, g)
    | .ok (childId, placed) =>
      match placed.addDependency toposort task childId with
      | (.error err, next) => (.error err, next)
      | (.ok _, next) => adoptChildren task inherited rest (childIds ++ [childId]) next

/-- Replace the work of `task` with `children` and make it their join point. -/
def split (g : TaskGraph) (task : TaskId) (children : List TaskNode) : Except SwarmError (List TaskId) × TaskGraph :=
  if children.isEmpty then (.error (.validation "splitting a task requires at least one child"), g)
  else
    match g.indexOf task with
    | .error err => (.error err, g)
    | .ok taskIndex => adoptChildren toposort task (g.dependencies task) children [] (g.unlink task taskIndex)

end

end TaskGraph

end Swarm
