import Swarm.Domain.Job

namespace Swarm

/-- One durable fact about a job. -/
inductive JournalRecord where
  | jobPlanned (job : Job) (tasks : List TaskNode)
  | jobStatusChanged (jobId : JobId) (status : JobStatus) (reason : Option String) (time : DateTime)
  | taskTransitioned (jobId : JobId) (transition : Transition TaskState) (taskId : TaskId) (attempt : Nat)
  | taskCompleted (jobId : JobId) (result : TaskResult)
  | taskFailed (jobId : JobId) (failure : TaskFailure)
  | jobFinished (jobId : JobId) (result : FinalResult)

/-- The job a record belongs to. -/
def JournalRecord.jobId : JournalRecord → JobId
  | jobPlanned job _ => job.id
  | jobStatusChanged jobId .. | taskTransitioned jobId .. | taskCompleted jobId _ | taskFailed jobId _
  | jobFinished jobId _ => jobId

end Swarm
