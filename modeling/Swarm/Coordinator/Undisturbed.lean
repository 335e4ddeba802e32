import Swarm.Coordinator.Ledger
import Swarm.Coordinator.Safety

namespace Swarm
open JobHandle Act

namespace Cluster
variable {config : CoordinatorConfig} {tools : TextTools} {toposort : DiGraph TaskId → Except Nat (List Nat)}
  {c c' : Cluster}

/-- Where the engine of a job stands, if there is the job. -/
def pcOf (c : Cluster) (jobId : JobId) : Pc := ((c.jobs.get? jobId).map JobRun.pc).getD .idle

/-- What the jobs have been billed for and what they are still to be billed for. -/
def ledgers (c : Cluster) : Spend := (c.jobs.values.map JobRun.ledger).sum

theorem pcOf_insert {jobId : JobId} {run : JobRun} {shared : Shared} (other : JobId) :
    (Cluster.pcOf ⟨c.jobs.insert jobId run, shared⟩ other) = if other = jobId then run.pc else c.pcOf other := by
  unfold pcOf
  rw [Dict.get?_insert]
  split <;> rfl

/-- A job goes on, or there is a new one with nothing due. -/
theorem ledgers_insert (c : Cluster) (jobId : JobId) (run : JobRun) (shared : Shared) :
    (Cluster.ledgers ⟨c.jobs.insert jobId run, shared⟩) + (c.jobs.get? jobId).elim 0 JobRun.ledger =
      c.ledgers + run.ledger :=
  c.jobs.sum_put jobId run JobRun.ledger

/-- Nothing has been billed, and every engine stands where it stood. -/
structure Undisturbed (c c' : Cluster) : Prop where
  pcs : ∀ jobId, c'.pcOf jobId = c.pcOf jobId
  ledgers : c'.ledgers = c.ledgers

theorem Undisturbed.of_jobs (same : c'.jobs = c.jobs) : Undisturbed c c' :=
  ⟨fun _ => by rw [pcOf, same, pcOf], by rw [Cluster.ledgers, same, Cluster.ledgers]⟩

/-- Work on a handle that bills nothing. -/
theorem act_undisturbed (c : Cluster) (jobId : JobId) {work : HandleAct Unit}
    (keeps : Act.Keeps (fun h => h.statistics.spend) work) : Undisturbed c (c.act jobId work) := by
  unfold act
  cases found : c.jobs.get? jobId with
  | none => exact .of_jobs rfl
  | some run =>
    have quiet : ∀ h : JobHandle, h.statistics.spend = run.handle.statistics.spend →
        Undisturbed c { c with jobs := c.jobs.insert jobId { run with handle := h } } := by
      intro h same
      refine ⟨fun other => ?_, ?_⟩
      · rw [pcOf_insert]
        split
        · rename_i here
          rw [here, pcOf, found]
          rfl
        · rfl
      · have parts := c.ledgers_insert jobId { run with handle := h } c.shared
        have ledger : ({ run with handle := h } : JobRun).ledger = run.ledger := by
          rw [JobRun.ledger, JobRun.ledger, same]
        rw [found, Option.elim_some, ledger] at parts
        exact add_right_cancel parts
    rcases (keeps run.handle).cases with ⟨_, h, done, same⟩ | ⟨e, h, failed, same⟩
    · simp only [done]
      exact quiet h same
    · simp only [failed]
      exact quiet h same

theorem submit_undisturbed {submission : Submission} {nodes : Dict TaskId TaskNode}
    (fresh : c.jobs.get? submission.jobId = none) :
    Undisturbed c (c.submit config tools toposort submission nodes) := by
  unfold Cluster.submit
  split
  · exact .of_jobs rfl
  · rename_i job graph planned
    rw [← (submission.plan_ok planned).1] at fresh
    refine ⟨fun other => ?_, ?_⟩
    · rw [pcOf_insert]
      split
      · rename_i here
        rw [here, pcOf, fresh]
        rfl
      · rfl
    · have parts := c.ledgers_insert job.id (.new (.planned job { graph with nodes := nodes })) c.shared
      have nothing : (JobRun.new (.planned job { graph with nodes := nodes })).ledger = 0 := add_zero _
      rw [fresh, Option.elim_none, nothing, add_zero, add_zero] at parts
      exact parts

theorem steer_spend (target : Control) : Act.Keeps (fun h => h.statistics.spend) (steer target) := by
  intro h
  simp only [steer, ensures_bind, ensures_get]
  split
  · simp only [ensures_bind, ensures_throw]
  · simp only [ensures_bind, ensures_set, emit, ensures_modify]
    exact rfl

theorem cancel_spend : Act.Keeps (fun h => h.statistics.spend) JobHandle.cancel :=
  .bind (.modify (fun _ => rfl)) (fun _ => Engine.emit_keeps Engine.spend_aside)

theorem rehash_spend (nodes : Dict TaskId TaskNode) : Act.Keeps (fun h => h.statistics.spend)
    (modify (fun h : JobHandle => { h with graph := { h.graph with nodes := nodes } }) : HandleAct Unit) :=
  .modify (fun _ => rfl)

/-- Only the engines bill anything. -/
theorem apply_undisturbed {event : Event} (possible : c.Possible config tools toposort event)
    (still : ∀ jobId input, event ≠ .engine jobId input) (alive : ∀ journal, event ≠ .restart journal) :
    Undisturbed c (c.apply config tools toposort event) := by
  cases event with
  | submit submission nodes => exact submit_undisturbed possible.1
  | engine jobId input => exact absurd rfl (still jobId input)
  | pause jobId => exact act_undisturbed c jobId (steer_spend .paused)
  | resume jobId => exact act_undisturbed c jobId (steer_spend .running)
  | cancel jobId => exact act_undisturbed c jobId cancel_spend
  | purge jobId => exact .of_jobs rfl
  | rehash jobId nodes => exact act_undisturbed c jobId (rehash_spend nodes)
  | rehashLeases leases => exact .of_jobs rfl
  | restart journal => exact absurd rfl (alive journal)

end Cluster

end Swarm
