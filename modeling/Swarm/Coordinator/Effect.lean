import Swarm.Coordinator.Specs

namespace Swarm
open JobHandle Act

/-- The tasks an engine has handed to its agents and not settled yet. -/
def Pc.dispatches : Pc → List Dispatch
  | .collecting _ dispatches _ | .dropping _ _ dispatches _ | .releasing _ dispatches _ | .executing dispatches =>
      dispatches
  | .applying todo => todo.map Prod.fst
  | _ => []

/-- The lease an engine is about to give away without having dispatched its task. -/
def Pc.pending : Pc → Option LeaseId
  | .dropping leaseId _ _ _ | .releasing leaseId _ _ => some leaseId
  | _ => none

def Pc.isActive : Pc → Bool
  | .idle | .returned _ => false
  | _ => true

/-- Past the checks at the top of the loop and before its end. -/
def Pc.isTicking : Pc → Bool
  | .promoting .. | .maintaining _ | .scaling .. | .growing .. | .reclaiming .. | .collecting .. | .dropping ..
  | .releasing .. | .deciding | .executing _ | .applying _ => true
  | _ => false

def Pc.isTop : Pc → Bool
  | .top => true
  | _ => false

theorem Pc.isTop_iff {pc : Pc} : pc.isTop = true ↔ pc = .top := by cases pc <;> simp [Pc.isTop]

/-- Nothing stands in the way of queueing the task, or it is queued. -/
def TaskGraph.Promotable (g : TaskGraph) (task : TaskId) : Prop :=
  ∀ node, g.get task = some node → g.Unblocked node ∧ (node.state.isFresh = true ∨ node.state = .queued)

/-- What holds between two steps of an engine. -/
structure JobRun.Sound (run : JobRun) : Prop where
  live : run.pc.isActive = true → run.handle.Live
  ticking : run.pc.isTicking = true → run.paused = false ∧ run.handle.job.status = .running
  top : run.pc = .top → run.paused = false → run.handle.job.status = .running
  waiting : run.pc = .waiting → run.paused = true
  todo : ∀ todo queued, run.pc = .promoting todo queued → ∀ task ∈ todo, run.handle.graph.Promotable task
  dispatched : ∀ dispatch ∈ run.pc.dispatches, run.handle.graph.stateOf dispatch.task.id = some .running ∧
    dispatch.task.jobId = run.handle.graph.jobId ∧ dispatch.task.id = dispatch.lease.task.payload.id
  distinct : (run.pc.dispatches.map (fun dispatch => dispatch.task.id)).Nodup
  fits : ∀ todo, run.pc = .applying todo → ∀ entry ∈ todo, entry.2.Fits entry.1

/-- What one step of an engine does to the queue. -/
inductive QueueStep (input : EngineInput) (run run' : JobRun) (q : InMemoryQueue) : InMemoryQueue → Prop
  | same : QueueStep input run run' q q
  | enqueued {task : TaskId} {earlier node : TaskNode} (priority : Priority) (leaseMs : Nat) :
      run'.handle.graph.get task = some node → node.state.isFresh = false → run.handle.graph.get task = some earlier →
      earlier.state.isFresh = true → node = { earlier with state := .queued } → run.handle.Live →
      QueueStep input run run' q (q.enqueue (.fromTask node priority leaseMs input.now))
  | swept : QueueStep input run run' q (q.requeueExpired input.now).2
  | polled {worker : String} {lease : TaskLease} {q' : InMemoryQueue} {left : Nat} {dispatches : List Dispatch}
      {promoted : Nat} : run.pc = .collecting (left + 1) dispatches promoted →
      q.dequeueFrom worker [] [] input.now input.leaseId = (some lease, q') → QueueStep input run run' q q'
  | dropped {leaseId : LeaseId} {left : Nat} {dispatches : List Dispatch} {promoted : Nat} :
      run.pc = .dropping leaseId left dispatches promoted →
      QueueStep input run run' q (q.acknowledge leaseId input.now).2
  | released {leaseId : LeaseId} {dispatches : List Dispatch} {promoted : Nat} :
      run.pc = .releasing leaseId dispatches promoted → QueueStep input run run' q (q.release leaseId input.now).2
  | settled {dispatch : Dispatch} {outcome : Outcome} {rest : List (Dispatch × Outcome)} {acknowledged : Bool}
      {q' : InMemoryQueue} : run.pc = .applying ((dispatch, outcome) :: rest) →
      Settles q dispatch.lease.leaseId input.now acknowledged q' → QueueStep input run run' q q'
  | purged : run.pc = .cancelling → QueueStep input run run' q (q.purgeJob run.handle.job.id).2

/-- What one step of an engine does to the tasks of its job, next to what it does to the queue. -/
inductive Effect (input : EngineInput) (run run' : JobRun) (q : InMemoryQueue) : InMemoryQueue → Prop
  | steady {q' : InMemoryQueue} : q' = q ∨ q' = (q.requeueExpired input.now).2 ∧ run'.pc.dispatches = [] →
      run'.handle.graph = run.handle.graph →
      run'.pc.dispatches.Sublist run.pc.dispatches → run.pc.pending = none → run'.pc.pending = none →
      Effect input run run' q q'
  | stopped {q' : InMemoryQueue} {answer : Except SwarmError FinalResult} : run.handle.job.status = .running →
      run'.handle.job = run.handle.job → run'.pc = .returned answer → Effect input run run' q q'
  | promoted {task : TaskId} {rest : List TaskId} {queued : Nat} {node : TaskNode} {old : TaskState}
      (priority : Priority) (leaseMs : Nat) :
      run.pc = .promoting (task :: rest) queued → run'.pc = .promoting rest (queued + 1) →
      Touches run.handle run'.handle task .queued → run'.handle.graph.get task = some node →
      run.handle.graph.stateOf task = some old → old.isFresh = true →
      Effect input run run' q (q.enqueue (.fromTask node priority leaseMs input.now))
  | started {worker : String} {lease : TaskLease} {q' : InMemoryQueue} {left : Nat} {dispatches : List Dispatch}
      {dispatch : Dispatch} {promoted : Nat} : run.pc = .collecting (left + 1) dispatches promoted →
      q.dequeueFrom worker [] [] input.now input.leaseId = (some lease, q') →
      (run.handle.graph.stateOf lease.task.payload.id).any TaskState.isLeasable = true →
      Touches run.handle run'.handle lease.task.payload.id .running → dispatch.lease = lease →
      run'.pc = .collecting left (dispatches ++ [dispatch]) promoted →
      dispatch.task = { lease.task.payload with attempt := lease.task.attempt } →
      dispatch.context.upstream = Engine.upstreamOutputs run'.handle dispatch.task → Effect input run run' q q'
  | refused {worker : String} {lease : TaskLease} {q' : InMemoryQueue} {left : Nat} {dispatches : List Dispatch}
      {promoted : Nat} : run.pc = .collecting (left + 1) dispatches promoted →
      q.dequeueFrom worker [] [] input.now input.leaseId = (some lease, q') →
      (run.handle.graph.stateOf lease.task.payload.id).any TaskState.isLeasable = true →
      run'.handle.graph = run.handle.graph → run'.pc = .releasing lease.leaseId dispatches promoted →
      Effect input run run' q q'
  | declined {worker : String} {lease : TaskLease} {q' : InMemoryQueue} {left : Nat} {dispatches : List Dispatch}
      {promoted : Nat} : run.pc = .collecting (left + 1) dispatches promoted →
      q.dequeueFrom worker [] [] input.now input.leaseId = (some lease, q') →
      (run.handle.graph.stateOf lease.task.payload.id).any TaskState.isLeasable = false →
      run'.handle = run.handle → run'.pc = .dropping lease.leaseId left dispatches promoted →
        Effect input run run' q q'
  | dropped {leaseId : LeaseId} {left : Nat} {dispatches : List Dispatch} {promoted : Nat} :
      run.pc = .dropping leaseId left dispatches promoted → run'.handle = run.handle →
      run'.pc = .collecting left dispatches promoted → Effect input run run' q (q.acknowledge leaseId input.now).2
  | released {leaseId : LeaseId} {dispatches : List Dispatch} {promoted : Nat} {q' : InMemoryQueue} :
      run.pc = .releasing leaseId dispatches promoted → q.release leaseId input.now = (.ok (), q') →
      run'.handle = run.handle → run'.pc = Engine.collected run.handle dispatches promoted →
        Effect input run run' q q'
  | applied {dispatch : Dispatch} {outcome : Outcome} {rest : List (Dispatch × Outcome)} {acknowledged : Bool}
      {state : TaskState} {q' : InMemoryQueue} : run.pc = .applying ((dispatch, outcome) :: rest) →
      run'.pc = .applying rest → Settles q dispatch.lease.leaseId input.now acknowledged q' →
      Touches run.handle run'.handle dispatch.task.id state →
      (state.isLeasable = true → acknowledged = false ∧
        dispatch.lease.task.retry.allowsRetry dispatch.lease.task.attempt = true) → Effect input run run' q q'
  | retired : run.pc = .deciding → Retires run.handle run'.handle → run'.pc = .finishing false ∨ run'.pc = .top →
      Effect input run run' q q
  | cancelled {q' : InMemoryQueue} : run.pc = .cancelling → run'.pc.dispatches = [] → Effect input run run' q q'

/-- One step of an engine, and what it leaves. -/
structure Stepped (input : EngineInput) (run : JobRun) (q : InMemoryQueue) (run' : JobRun) (q' : InMemoryQueue) :
    Prop where
  moves : Moves run.handle run'.handle
  sound : run'.Sound
  queue : QueueStep input run run' q q'
  effect : Effect input run run' q q'
  cancelling : run'.pc = .cancelling → run.pc = .cancelling ∨ run.handle.control = .cancelled

namespace JobRun

theorem sound_of_returned {run : JobRun} {answer : Except SwarmError FinalResult}
    (ended : run.pc = .returned answer) :
    run.Sound := by
  refine ⟨?_, ?_, ?_, ?_, ?_, ?_, ?_, ?_⟩ <;> rw [ended] <;> simp [Pc.isActive, Pc.isTicking, Pc.dispatches]

/-- The points of the loop at which the engine has nothing in hand. -/
theorem sound_of_empty {run : JobRun} (live : run.handle.Live) (empty : run.pc.dispatches = [])
    (ticking : run.pc.isTicking = true → run.paused = false ∧ run.handle.job.status = .running)
    (top : run.pc = .top → run.paused = false → run.handle.job.status = .running)
    (waiting : run.pc = .waiting → run.paused = true)
    (todo : ∀ todo queued, run.pc = .promoting todo queued → ∀ task ∈ todo, run.handle.graph.Promotable task) :
    run.Sound where
  live _ := live
  ticking := ticking
  top := top
  waiting := waiting
  todo := todo
  dispatched := by simp [empty]
  distinct := by simp [empty]
  fits := by
    intro todo applying entry member
    rw [applying] at empty
    rw [List.map_eq_nil_iff.mp empty] at member
    cases member

theorem live_of_running {h : JobHandle} (running : h.job.status = .running) : h.Live := by
  unfold JobHandle.Live
  rw [running]
  rfl

end JobRun

end Swarm
