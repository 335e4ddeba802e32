import Swarm.Coordinator.Steps

namespace Swarm
open InMemoryQueue

/-- A finished job stays as it is. -/
theorem finished_moves {h h' : JobHandle} (moves : Moves h h') (finished : h.job.status.isFinished = true) :
    h'.job.status.isFinished = true := by
  induction moves with
  | refl => exact finished
  | tail _ last ih =>
    have dead : ∀ {h : JobHandle}, h.job.status.isFinished = true → ¬ h.Live :=
      fun done live => absurd (live.symm.trans done) (by simp)
    cases last with
    | quiet same => rw [same.job]; exact ih
    | attempt => exact ih
    | rehash => exact ih
    | advance _ live => exact absurd live (dead ih)
    | complete _ live => exact absurd live (dead ih)
    | failed _ live => exact absurd live (dead ih)
    | status _ _ live => exact absurd live (dead ih)
    | finish _ _ live => exact absurd live (dead ih)

/-- The lease an engine is about to give back. -/
def Pc.returning : Pc → Option LeaseId
  | .releasing leaseId _ _ => some leaseId
  | _ => none

/-- The lease that the next step acknowledges or rejects. -/
def Pc.settling : Pc → Option LeaseId
  | .dropping leaseId _ _ _ => some leaseId
  | .applying ((dispatch, _) :: _) => some dispatch.lease.leaseId
  | _ => none

/-- Every lease an engine still refers to. -/
def Pc.leaseIds (pc : Pc) : List LeaseId :=
  pc.dispatches.map (fun dispatch => dispatch.lease.leaseId) ++ pc.pending.toList

/-- The queue entry of a task in hand: its lease is there, or it was lost and the
entry is ready again as long as its budget allows. -/
def Dispatch.Backed (q : InMemoryQueue) (dispatch : Dispatch) : Prop :=
  q.leases.get? dispatch.lease.leaseId = some dispatch.lease ∨
    q.leases.get? dispatch.lease.leaseId = none ∧
      (dispatch.lease.task.retry.allowsRetry dispatch.lease.task.attempt = true → q.HasReady dispatch.task.id)

def TaskGraph.isLeasable (g : TaskGraph) (task : TaskId) : Bool := (g.stateOf task).any TaskState.isLeasable

namespace JobRun

/-- The job never comes to another tick: it has finished, its run ended with an
error and cannot be started again, or it is about to. -/
inductive Excused (q : InMemoryQueue) (run : JobRun) : Prop
  | finished : run.handle.job.status.isFinished = true → Excused q run
  | ended {answer : Except SwarmError FinalResult} : run.pc = .returned answer → run.handle.job.status = .running →
      Excused q run
  | ending {leaseId : LeaseId} : run.pc.returning = some leaseId → q.leases.get? leaseId = none → Excused q run

/-- Every task that waits for a lease has a ready entry, or its entry is about to become one. -/
def Covers (q : InMemoryQueue) (run : JobRun) : Prop :=
  ∀ task, run.handle.graph.isLeasable task = true → q.HasReady task ∨
    ∃ leaseId lease, run.pc.returning = some leaseId ∧ q.leases.get? leaseId = some lease ∧
      lease.task.payload.id = task

/-- What the queue holds for a job. -/
structure Kept (q : InMemoryQueue) (run : JobRun) : Prop where
  covered : run.Excused q ∨ run.Covers q
  backed : ∀ dispatch ∈ run.pc.dispatches, dispatch.Backed q

theorem known_of_leasable {run : JobRun} {task : TaskId} (leasable : run.handle.graph.isLeasable task = true) :
    (run.handle.graph.get task).isSome = true := by
  unfold TaskGraph.isLeasable TaskGraph.stateOf at leasable
  cases found : run.handle.graph.get task with
  | none =>
    rw [found] at leasable
    cases leasable
  | some node => rfl

theorem Sound.known {run : JobRun} (sound : run.Sound) {dispatch : Dispatch} (member : dispatch ∈ run.pc.dispatches) :
    (run.handle.graph.get dispatch.task.id).isSome = true := by
  obtain ⟨node, found, _⟩ := Option.map_eq_some_iff.mp (sound.dispatched dispatch member).1
  rw [found]
  rfl

theorem Sound.not_leasable {run : JobRun} (sound : run.Sound) {dispatch : Dispatch}
    (member : dispatch ∈ run.pc.dispatches) :
    run.handle.graph.isLeasable dispatch.task.id = false := by
  unfold TaskGraph.isLeasable
  rw [(sound.dispatched dispatch member).1]
  rfl

/-- A finished job has nothing in hand. -/
theorem Sound.empty_of_finished {run : JobRun} (sound : run.Sound)
    (finished : run.handle.job.status.isFinished = true) :
    run.pc.dispatches = [] ∧ run.pc.pending = none := by
  have inactive : run.pc.isActive = false := by
    cases active : run.pc.isActive with
    | false => rfl
    | true => exact absurd ((sound.live active).symm.trans finished) (by simp)
  cases here : run.pc <;> rw [here] at inactive <;> simp_all [Pc.isActive, Pc.dispatches, Pc.pending]

theorem kept_of_finished {run : JobRun} (sound : run.Sound) (finished : run.handle.job.status.isFinished = true)
    (q : InMemoryQueue) : run.Kept q :=
  ⟨Or.inl (.finished finished), by simp [(sound.empty_of_finished finished).1]⟩

theorem pending_of_returning {pc : Pc} {leaseId : LeaseId} (returning : pc.returning = some leaseId) :
    pc.pending = some leaseId := by
  cases pc <;> simp_all [Pc.returning, Pc.pending]

end JobRun

theorem Dispatch.Backed.passes {q q' : InMemoryQueue} {lost : TaskId → Prop} {granted : Option LeaseId}
    {dispatch : Dispatch} (backed : dispatch.Backed q) (passes : Passes lost granted q q')
    (same : dispatch.task.id = dispatch.lease.task.payload.id) (kept : ¬ lost dispatch.task.id)
    (other : granted ≠ some dispatch.lease.leaseId) : dispatch.Backed q' := by
  rcases backed with held | ⟨gone, requeued⟩
  · rcases passes.leases _ _ held (same ▸ kept) with stays | ⟨gone, requeued⟩
    · exact Or.inl stays
    · exact Or.inr ⟨gone, same ▸ requeued⟩
  · exact Or.inr ⟨passes.gone gone other, fun allowed => passes.ready _ kept (requeued allowed)⟩

namespace JobRun

theorem Covers.passes {q q' : InMemoryQueue} {run : JobRun} {lost : TaskId → Prop} {granted : Option LeaseId}
    (covers : run.Covers q) (passes : Passes lost granted q q')
    (kept : ∀ task, run.handle.graph.isLeasable task = true → ¬ lost task) :
    run.Excused q' ∨ run.Covers q' := by
  by_cases vanished : ∃ leaseId, run.pc.returning = some leaseId ∧ q'.leases.get? leaseId = none
  · obtain ⟨leaseId, returning, gone⟩ := vanished
    exact Or.inl (.ending returning gone)
  · refine Or.inr ?_
    intro task leasable
    rcases covers task leasable with ready | ⟨leaseId, lease, returning, found, same⟩
    · exact Or.inl (passes.ready task (kept task leasable) ready)
    · rcases passes.leases leaseId lease found (same ▸ kept task leasable) with stays | ⟨gone, _⟩
      · exact Or.inr ⟨leaseId, lease, returning, stays, same⟩
      · exact absurd ⟨leaseId, returning, gone⟩ vanished

/-- What another job does to the queue: it loses nothing of this job. -/
theorem Kept.passes {q q' : InMemoryQueue} {run : JobRun} {lost : TaskId → Prop} {granted : Option LeaseId}
    (kept : run.Kept q) (sound : run.Sound) (passes : Passes lost granted q q')
    (mine : ∀ task, (run.handle.graph.get task).isSome = true → ¬ lost task)
    (other : ∀ leaseId ∈ run.pc.leaseIds, granted ≠ some leaseId) : run.Kept q' := by
  refine ⟨?_, ?_⟩
  · rcases kept.covered with excused | covers
    · refine Or.inl ?_
      cases excused with
      | finished done => exact .finished done
      | ended here running => exact .ended here running
      | @ending leaseId returning gone =>
        refine .ending returning (passes.gone gone (other leaseId ?_))
        simp [Pc.leaseIds, pending_of_returning returning]
    · exact covers.passes passes (fun task leasable => mine task (known_of_leasable leasable))
  · intro dispatch member
    refine (kept.backed dispatch member).passes passes (sound.dispatched dispatch member).2.2
      (mine _ (sound.known member)) ?_
    refine other _ (List.mem_append_left _ (List.mem_map.mpr ⟨dispatch, member, rfl⟩))

/-- Between two ticks and within one, all that waits for a lease is ready. -/
theorem Kept.ready {q : InMemoryQueue} {run : JobRun} (kept : run.Kept q) (sound : run.Sound)
    (active : run.pc.isActive = true) (plain : run.pc.returning = none) {task : TaskId}
    (leasable : run.handle.graph.isLeasable task = true) : q.HasReady task := by
  rcases kept.covered with excused | covers
  · cases excused with
    | finished done => exact absurd ((sound.live active).symm.trans done) (by simp)
    | ended here _ =>
      rw [here] at active
      cases active
    | ending returning _ =>
      rw [plain] at returning
      cases returning
  · rcases covers task leasable with ready | ⟨_, _, returning, _⟩
    · exact ready
    · rw [plain] at returning
      cases returning

end JobRun

section
variable {q q' : InMemoryQueue} {leaseId : LeaseId} {now : DateTime} {acknowledged : Bool}

theorem Settles.live (settles : Settles q leaseId now acknowledged q') (live : q.LeasesLive) : q'.LeasesLive := by
  cases settles with
  | acknowledged run =>
    rcases acknowledge_cases live leaseId now with ⟨_, same⟩ | ⟨_, _, _, _, same⟩ | ⟨_, _, _, same⟩ <;>
      rw [same] at run <;> cases run
    exact live.erase leaseId
  | lost run =>
    rcases acknowledge_cases live leaseId now with ⟨_, same⟩ | ⟨_, _, found, _, same⟩ | ⟨_, _, _, same⟩ <;>
      rw [same] at run <;> cases run
    · exact live
    · unfold LeasesLive
      rw [retryOrPark_leases]
      exact live.erase leaseId
  | rejected reason => exact (moves_reject live leaseId reason now).live live

/-- Settling a lease loses at most the entry under it. -/
theorem Settles.passes (settles : Settles q leaseId now acknowledged q') (live : q.LeasesLive) :
    Passes (fun task => ∃ held, q.leases.get? leaseId = some held ∧ held.task.payload.id = task) none q q' := by
  cases settles with
  | acknowledged run =>
    have passes := passes_acknowledge live leaseId now
    rw [run] at passes
    exact passes
  | lost run => exact (passes_acknowledge_error live run).weaken
  | rejected reason => exact (passes_reject live leaseId reason now).weaken

/-- A lease that is settled without success goes back to the queue as long as its budget allows. -/
theorem Settles.requeued (settles : Settles q leaseId now false q') (live : q.LeasesLive) {held : TaskLease}
    (found : q.leases.get? leaseId = some held) (allowed : held.task.retry.allowsRetry held.task.attempt = true) :
    q'.HasReady held.task.payload.id := by
  have pushed : ∀ (rest : InMemoryQueue) (reason : String),
      (rest.retryOrPark held.task reason now).HasReady held.task.payload.id := by
    intro rest reason
    unfold retryOrPark
    rw [if_pos allowed]
    exact ⟨_, List.mem_append_right _ (List.mem_singleton_self _), rfl⟩
  cases settles with
  | lost run =>
    rcases acknowledge_cases live leaseId now with ⟨absent, _⟩ | ⟨other, _, here, _, same⟩ | ⟨_, _, _, same⟩
    · rw [found] at absent
      cases absent
    · rw [found] at here
      cases here
      rw [same] at run
      cases run
      exact pushed _ _
    · rw [same] at run
      cases run
  | rejected reason =>
    rcases reject_cases live leaseId reason now with ⟨absent, _⟩ | ⟨other, here, same⟩
    · rw [found] at absent
      cases absent
    · rw [found] at here
      cases here
      rw [same]
      exact pushed _ _

end

end Swarm
