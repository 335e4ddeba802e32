import Swarm.Domain.Job
import Swarm.Lib.Dict
import Swarm.Lib.Vec

namespace Swarm

def defaultQueue : String := "default"

/-- A task as it sits in the queue. The payload is the decoded task: encoding
a node and decoding it again gives the node back. -/
structure QueuedTask where
  taskId : TaskId
  jobId : JobId
  queue : String
  priority : Priority
  payload : TaskNode
  idempotencyKey : String
  attempt : Nat
  retry : RetryPolicy
  requiredCapabilities : List Capability
  enqueuedAt : DateTime
  availableAt : DateTime
  leaseDurationMs : Nat
  deriving DecidableEq, Repr

namespace QueuedTask

def fromTask (task : TaskNode) (priority : Priority) (leaseDurationMs : Nat) (now : DateTime) : QueuedTask where
  taskId := task.id
  jobId := task.jobId
  queue := defaultQueue
  priority := priority
  payload := task
  idempotencyKey := task.attemptKey
  attempt := task.attempt
  retry := task.retryPolicy
  requiredCapabilities := task.requiredCapabilities
  enqueuedAt := now
  availableAt := now
  leaseDurationMs := leaseDurationMs

def isVisible (task : QueuedTask) (now : DateTime) : Bool := task.availableAt ≤ now

/-- An empty offer means no filter. -/
def matchesCapabilities (task : QueuedTask) (capabilities : List Capability) : Bool :=
  capabilities.isEmpty || task.requiredCapabilities.all (fun required => capabilities.contains required)

/-- The comparison of `pick` answers `Greater`: a higher priority, or an equal
one that has waited longer. -/
def greater (left right : QueuedTask) : Bool :=
  right.priority.weight < left.priority.weight ||
    (left.priority.weight == right.priority.weight && left.enqueuedAt < right.enqueuedAt)

end QueuedTask

structure TaskLease where
  leaseId : LeaseId
  task : QueuedTask
  worker : String
  grantedAt : DateTime
  expiresAt : DateTime
  state : LeaseState
  deriving DecidableEq, Repr

def TaskLease.isExpired (lease : TaskLease) (now : DateTime) : Bool := lease.expiresAt ≤ now

structure DeadLetter where
  task : QueuedTask
  attempts : Nat
  lastError : String
  time : DateTime
  deriving DecidableEq, Repr

structure QueueStats where
  ready : Nat := 0
  delayed : Nat := 0
  leased : Nat := 0
  deadLettered : Nat := 0
  enqueuedTotal : Nat := 0
  dequeuedTotal : Nat := 0
  acknowledgedTotal : Nat := 0
  retriedTotal : Nat := 0
  expiredTotal : Nat := 0
  deduplicatedTotal : Nat := 0
  deriving DecidableEq, Repr

def QueueStats.depth (stats : QueueStats) : Nat := stats.ready + stats.delayed + stats.leased

/-- The state behind the queue's lock. `stats` only uses the six totals. -/
structure InMemoryQueue where
  ready : List QueuedTask
  leases : Dict LeaseId TaskLease
  seen : List String
  dead : List DeadLetter
  stats : QueueStats

namespace InMemoryQueue

def new : InMemoryQueue := ⟨[], .empty, [], [], {}⟩

def eligible (now : DateTime) (queues : List String) (capabilities : List Capability) (task : QueuedTask) : Bool :=
  task.isVisible now && (queues.isEmpty || queues.contains task.queue) && task.matchesCapabilities capabilities

/-- Where the entry that `pick` takes stands among the ready ones. -/
def position (q : InMemoryQueue) (now : DateTime) (queues : List String) (capabilities : List Capability) :
    Option Nat :=
  (Vec.maxBy (fun left right => left.1.greater right.1)
    (q.ready.zipIdx.filter (fun entry => eligible now queues capabilities entry.1))).map Prod.snd

def pick (q : InMemoryQueue) (now : DateTime) (queues : List String) (capabilities : List Capability) :
    Option (QueuedTask × InMemoryQueue) := do
  let position ← q.position now queues capabilities
  let task ← q.ready[position]?
  some (task, { q with ready := Vec.swapRemove q.ready position })

/-- Send a failed task back for another attempt, or park it if the budget is spent. This is the
call while the retry falls in the calendar; `Timed.retryOrPark` has the panic past it as well. -/
def retryOrPark (q : InMemoryQueue) (task : QueuedTask) (reason : String) (now : DateTime) : InMemoryQueue :=
  if task.retry.allowsRetry task.attempt then
    let backoff := task.retry.backoffMs task.attempt (subsecNanos now)
    { q with
      ready := q.ready ++ [{ task with availableAt := now + milliseconds (asI64 backoff) }]
      stats := { q.stats with retriedTotal := q.stats.retriedTotal + 1 } }
  else { q with dead := q.dead ++ [⟨task, task.attempt, reason, now⟩] }

def takeLease (q : InMemoryQueue) (leaseId : LeaseId) : Except SwarmError (TaskLease × InMemoryQueue) :=
  match q.leases.get? leaseId with
  | none => .error (.queue s!"unknown or already-settled lease {leaseId.display}")
  | some lease => .ok (lease, { q with leases := q.leases.erase leaseId })

def enqueue (q : InMemoryQueue) (task : QueuedTask) : InMemoryQueue :=
  if q.seen.contains task.idempotencyKey then
    { q with stats := { q.stats with deduplicatedTotal := q.stats.deduplicatedTotal + 1 } }
  else
    { q with
      seen := task.idempotencyKey :: q.seen
      ready := q.ready ++ [task]
      stats := { q.stats with enqueuedTotal := q.stats.enqueuedTotal + 1 } }

/-- A granted lease is the start of an attempt; attempts are counted modulo `2 ^ 32`. This is the
call while the lease ends in the calendar; `Timed.dequeueFrom` has the panic past it as well. -/
def dequeueFrom (q : InMemoryQueue) (worker : String) (queues : List String) (capabilities : List Capability)
    (now : DateTime) (leaseId : LeaseId) : Option TaskLease × InMemoryQueue :=
  match q.pick now queues capabilities with
  | none => (none, q)
  | some (task, rest) =>
    let task := { task with attempt := (task.attempt + 1) % 2 ^ 32 }
    let lease : TaskLease :=
      ⟨leaseId, task, worker, now, now + milliseconds (asI64 task.leaseDurationMs), .held⟩
    (some lease,
      { rest with
        leases := rest.leases.insert leaseId lease
        stats := { rest.stats with dequeuedTotal := rest.stats.dequeuedTotal + 1 } })

def acknowledge (q : InMemoryQueue) (leaseId : LeaseId) (now : DateTime) : Except SwarmError Unit × InMemoryQueue :=
  match q.takeLease leaseId with
  | .error e => (.error e, q)
  | .ok (held, q) =>
    if held.isExpired now then
      let q := { q with stats := { q.stats with expiredTotal := q.stats.expiredTotal + 1 } }
      (.error (.queue s!"lease {leaseId.display} expired at {displayDateTime held.expiresAt}; task was requeued"),
        q.retryOrPark held.task "lease expired before acknowledgement" now)
    else
      match StateMachine.transition held.state LeaseState.released with
      | .error e => (.error e, q)
      | .ok _ => (.ok (), { q with stats := { q.stats with acknowledgedTotal := q.stats.acknowledgedTotal + 1 } })

def reject (q : InMemoryQueue) (leaseId : LeaseId) (reason : String) (now : DateTime) :
    Except SwarmError Unit × InMemoryQueue :=
  match q.takeLease leaseId with
  | .error e => (.error e, q)
  | .ok (held, q) =>
    match StateMachine.transition held.state LeaseState.rejected with
    | .error e => (.error e, q)
    | .ok _ => (.ok (), q.retryOrPark held.task reason now)

/-- Nothing was executed, so the attempt is handed back. -/
def release (q : InMemoryQueue) (leaseId : LeaseId) (now : DateTime) : Except SwarmError Unit × InMemoryQueue :=
  match q.takeLease leaseId with
  | .error e => (.error e, q)
  | .ok (held, q) =>
    (.ok (), { q with ready := q.ready ++ [{ held.task with attempt := held.task.attempt - 1, availableAt := now }] })

/-- `millis` is `duration.as_millis()`. The state moves before the size of the
extension is checked. For an extension past the calendar see `Timed.extendLease`. -/
def extendLease (q : InMemoryQueue) (leaseId : LeaseId) (millis : Nat) (now : DateTime) :
    Except SwarmError Unit × InMemoryQueue :=
  match q.leases.get? leaseId with
  | none => (.error (.queue s!"unknown lease {leaseId.display}"), q)
  | some held =>
    if held.isExpired now then
      (.error (.queue s!"lease {leaseId.display} already expired at {displayDateTime held.expiresAt}"), q)
    else
      match StateMachine.transition held.state LeaseState.extended with
      | .error e => (.error e, q)
      | .ok next =>
        if 2 ^ 63 ≤ millis then
          (.error (.queue "lease extension does not fit in i64 ms"),
            { q with leases := q.leases.modify leaseId (fun lease => { lease with state := next }) })
        else
          (.ok (), { q with leases := q.leases.modify leaseId (fun lease =>
            { lease with state := next, expiresAt := now + milliseconds millis }) })

/-- One round of the sweep. -/
def requeueLease (now : DateTime) (q : InMemoryQueue) (leaseId : LeaseId) : InMemoryQueue :=
  match q.leases.get? leaseId with
  | none => q
  | some lease =>
    retryOrPark
      { q with
        leases := q.leases.erase leaseId
        stats := { q.stats with expiredTotal := q.stats.expiredTotal + 1 } }
      lease.task "lease expired" now

def requeueExpired (q : InMemoryQueue) (now : DateTime) : Nat × InMemoryQueue :=
  let expired := (q.leases.values.filter (fun lease => lease.isExpired now)).map TaskLease.leaseId
  (expired.length, expired.foldl (requeueLease now) q)

def statistics (q : InMemoryQueue) (now : DateTime) : QueueStats :=
  let ready := q.ready.countP (fun task => task.isVisible now)
  { q.stats with
    ready := ready
    delayed := q.ready.length - ready
    leased := q.leases.entries.length
    deadLettered := q.dead.length }

/-- The attempt key is already in `seen`, so the entry is pushed directly. -/
def replayDeadLetter (q : InMemoryQueue) (taskId : TaskId) (now : DateTime) : Bool × InMemoryQueue :=
  match q.dead.findIdx? (fun letter => letter.task.taskId == taskId) with
  | none => (false, q)
  | some position =>
    match q.dead[position]? with
    | none => (false, q)
    | some letter =>
      (true, { q with
        dead := q.dead.eraseIdx position
        ready := q.ready ++ [{ letter.task with availableAt := now }]
        stats := { q.stats with enqueuedTotal := q.stats.enqueuedTotal + 1 } })

def purgeJob (q : InMemoryQueue) (jobId : JobId) : Nat × InMemoryQueue :=
  let before := q.ready.length + q.leases.entries.length
  let ready := q.ready.filter (fun task => task.jobId != jobId)
  let leases := q.leases.retain (fun _ lease => lease.task.jobId != jobId)
  (before - (ready.length + leases.entries.length), { q with ready := ready, leases := leases })

end InMemoryQueue

end Swarm
