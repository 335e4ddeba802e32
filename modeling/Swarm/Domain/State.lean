import Swarm.Domain.Basic

namespace Swarm

inductive LeaseState where
  | held | extended | released | rejected | expired
  deriving DecidableEq, Repr

def LeaseState.isActive : LeaseState → Bool
  | .held | .extended => true
  | _ => false

instance : StateMachine LeaseState where
  entity := "lease"
  allowed
    | .held | .extended => [.extended, .released, .rejected, .expired]
    | .released | .rejected | .expired => []
  debug
    | .held => "Held"
    | .extended => "Extended"
    | .released => "Released"
    | .rejected => "Rejected"
    | .expired => "Expired"

theorem LeaseState.active_allows {state target : LeaseState} (active : state.isActive = true)
    (settled : target = .extended ∨ target = .released ∨ target = .rejected) :
    target ∈ StateMachine.allowed state := by
  cases state <;> simp only [isActive, Bool.false_eq_true] at active <;>
    rcases settled with rfl | rfl | rfl <;> decide

inductive TaskState where
  | created | waitingForDependency | queued | leased | running | completed | failed | timedOut
  | retryScheduled | preempted | cancelled | deadLettered
  deriving DecidableEq, Repr

namespace TaskState

/-- The states a task never leaves. -/
def isTerminal : TaskState → Bool
  | completed | cancelled | deadLettered => true
  | _ => false

/-- The states a task can only reach once its dependencies are complete,
together with the failure states behind them. -/
def isPromoted : TaskState → Bool
  | queued | leased | running | failed | timedOut | retryScheduled | completed | deadLettered => true
  | _ => false

/-- The states a queue entry is accepted for. -/
def isLeasable : TaskState → Bool
  | queued | retryScheduled => true
  | _ => false

/-- The states of a task that was never queued. -/
def isFresh : TaskState → Bool
  | created | waitingForDependency => true
  | _ => false

/-- The states a task can have between two steps of its engine. -/
def isResting : TaskState → Bool
  | leased | failed | timedOut | preempted => false
  | _ => true

def isInFlight : TaskState → Bool
  | leased | running => true
  | _ => false

end TaskState

instance : StateMachine TaskState where
  entity := "task"
  allowed
    | .created => [.queued, .waitingForDependency, .cancelled]
    | .waitingForDependency => [.queued, .cancelled]
    | .queued => [.leased, .cancelled, .preempted]
    | .leased => [.running, .queued, .cancelled]
    | .running => [.completed, .failed, .timedOut, .waitingForDependency, .cancelled]
    | .failed | .timedOut => [.retryScheduled, .deadLettered]
    | .retryScheduled | .preempted => [.queued, .cancelled]
    | .completed | .cancelled | .deadLettered => []
  debug
    | .created => "Created"
    | .waitingForDependency => "WaitingForDependency"
    | .queued => "Queued"
    | .leased => "Leased"
    | .running => "Running"
    | .completed => "Completed"
    | .failed => "Failed"
    | .timedOut => "TimedOut"
    | .retryScheduled => "RetryScheduled"
    | .preempted => "Preempted"
    | .cancelled => "Cancelled"
    | .deadLettered => "DeadLettered"

/-- Terminal means no outgoing edge, so a legal move starts elsewhere. -/
theorem TaskState.not_terminal_of_allowed {state target : TaskState}
    (legal : target ∈ StateMachine.allowed state) : state.isTerminal = false := by
  cases state <;> first | rfl | simp [StateMachine.allowed] at legal

theorem TaskState.running_of_completed_allowed {state : TaskState}
    (legal : TaskState.completed ∈ StateMachine.allowed state) : state = .running := by
  cases state <;> first | rfl | simp [StateMachine.allowed] at legal

inductive JobStatus where
  | submitted | admitted | rejected | planning | running | paused | aggregating | completed
  | partiallyCompleted | failed | cancelled
  deriving DecidableEq, Repr

/-- Whether a job in this state has produced everything it ever will. -/
def JobStatus.isFinished : JobStatus → Bool
  | .completed | .partiallyCompleted | .failed | .cancelled | .rejected => true
  | _ => false

instance : StateMachine JobStatus where
  entity := "job"
  allowed
    | .submitted => [.admitted, .rejected, .cancelled]
    | .admitted => [.planning, .failed, .cancelled]
    | .planning => [.running, .failed, .cancelled]
    | .running => [.paused, .aggregating, .failed, .cancelled]
    | .paused => [.running, .cancelled]
    | .aggregating => [.completed, .partiallyCompleted, .failed, .cancelled]
    | .failed | .partiallyCompleted => [.running, .cancelled]
    | .completed | .cancelled | .rejected => []
  debug
    | .submitted => "Submitted"
    | .admitted => "Admitted"
    | .rejected => "Rejected"
    | .planning => "Planning"
    | .running => "Running"
    | .paused => "Paused"
    | .aggregating => "Aggregating"
    | .completed => "Completed"
    | .partiallyCompleted => "PartiallyCompleted"
    | .failed => "Failed"
    | .cancelled => "Cancelled"

inductive AgentStatus where
  | created | registered | idle | assigned | running | waiting | completed | failed | retrying | terminated
  deriving DecidableEq, Repr

instance : StateMachine AgentStatus where
  entity := "agent"
  allowed
    | .created => [.registered, .terminated]
    | .registered => [.idle, .assigned, .terminated]
    | .idle => [.assigned, .terminated]
    | .assigned => [.running, .idle, .terminated]
    | .running => [.waiting, .completed, .failed, .terminated]
    | .waiting => [.running, .failed, .terminated]
    | .completed => [.idle, .terminated]
    | .failed => [.retrying, .idle, .terminated]
    | .retrying => [.running, .failed, .terminated]
    | .terminated => []
  debug
    | .created => "Created"
    | .registered => "Registered"
    | .idle => "Idle"
    | .assigned => "Assigned"
    | .running => "Running"
    | .waiting => "Waiting"
    | .completed => "Completed"
    | .failed => "Failed"
    | .retrying => "Retrying"
    | .terminated => "Terminated"

end Swarm
