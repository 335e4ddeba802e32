import Swarm.Coordinator.Keeping
import Swarm.Coordinator.Safety

namespace Swarm
open InMemoryQueue

section
variable {input : EngineInput} {run run' : JobRun} {q q' : InMemoryQueue}

theorem QueueStep.live (step : QueueStep input run run' q q') (live : q.LeasesLive)
    (fresh : q.leases.get? input.leaseId = none) : q'.LeasesLive := by
  cases step with
  | same => exact live
  | enqueued priority leaseMs found _ _ _ _ _ =>
    unfold enqueue
    split <;> exact live
  | swept => exact (moves_requeueExpired q _).live live
  | @polled worker lease _ _ _ _ _ polled =>
    have moves := moves_dequeueFrom (q := q) worker [] [] input.now (Dict.get?_eq_none.mp fresh)
    rw [polled] at moves
    exact moves.live live
  | @dropped leaseId =>
    rcases acknowledge_cases live leaseId input.now with ⟨_, same⟩ | ⟨_, _, _, _, same⟩
      | ⟨_, _, _, same⟩ <;> rw [same]
    · exact live
    · unfold LeasesLive
      rw [retryOrPark_leases]
      exact live.erase leaseId
    · exact live.erase leaseId
  | @released leaseId => exact (moves_release q leaseId _).live live
  | settled _ settles => exact settles.live live
  | purged => exact fun entry member => live entry (List.mem_of_mem_filter member)

theorem Settles.seen {leaseId : LeaseId} {now : DateTime} {acknowledged : Bool}
    (settles : Settles q leaseId now acknowledged q') (live : q.LeasesLive) : q'.seen = q.seen := by
  have acknowledge : ∀ answer, q.acknowledge leaseId now = (answer, q') → q'.seen = q.seen := by
    intro answer run
    rcases acknowledge_cases live leaseId now with ⟨_, same⟩ | ⟨_, _, _, _, same⟩ | ⟨_, _, _, same⟩ <;>
      rw [same] at run <;> cases run
    · rfl
    · rw [retryOrPark_seen]
    · rfl
  cases settles with
  | acknowledged run => exact acknowledge _ run
  | lost run => exact acknowledge _ run
  | rejected reason => exact (moves_reject live leaseId reason now).seen

/-- Only a task that has just been queued leaves its key behind. -/
theorem QueueStep.seen (step : QueueStep input run run' q q') (live : q.LeasesLive) {key : String}
    (member : key ∈ q'.seen) :
    key ∈ q.seen ∨ ∃ task node, run'.handle.graph.get task = some node ∧ node.state.isFresh = false ∧
      key = node.attemptKey := by
  cases step with
  | same => exact Or.inl member
  | @enqueued task earlier node priority leaseMs found queued _ _ _ _ =>
    unfold enqueue at member
    split at member
    · exact Or.inl member
    · rcases List.mem_cons.mp member with rfl | old
      · exact Or.inr ⟨task, node, found, queued, rfl⟩
      · exact Or.inl old
  | swept => exact Or.inl ((moves_requeueExpired q _).seen ▸ member)
  | polled _ polled =>
    obtain ⟨_, _, _, _, _, _, _, _, same⟩ := dequeueFrom_some polled
    exact Or.inl (same ▸ member)
  | @dropped leaseId =>
    refine Or.inl ?_
    rcases acknowledge_cases live leaseId input.now with ⟨_, same⟩ | ⟨_, _, _, _, same⟩ | ⟨_, _, _, same⟩ <;>
      rw [same] at member
    · exact member
    · rw [retryOrPark_seen] at member
      exact member
    · exact member
  | @released leaseId => exact Or.inl ((moves_release q leaseId _).seen ▸ member)
  | settled _ settles => exact Or.inl (settles.seen live ▸ member)
  | purged => exact Or.inl member

/-- The tasks whose entries a step may take out of the queue: the one polled, or
the one whose lease is settled. -/
inductive Loses (input : EngineInput) (run : JobRun) (q : InMemoryQueue) : TaskId → Prop
  | polled {left : Nat} {dispatches : List Dispatch} {promoted : Nat} {entry : QueuedTask} {rest : InMemoryQueue} :
      run.pc = .collecting (left + 1) dispatches promoted → q.pick input.now [] [] = some (entry, rest) →
      Loses input run q entry.payload.id
  | settled {leaseId : LeaseId} {lease : TaskLease} : run.pc.settling = some leaseId →
      q.leases.get? leaseId = some lease → Loses input run q lease.task.payload.id

theorem Passes.mono {lost lost' : TaskId → Prop} {granted granted' : Option LeaseId}
    (passes : Passes lost granted q q') (more : ∀ task, lost task → lost' task)
    (other : ∀ leaseId, granted' ≠ some leaseId → granted ≠ some leaseId) : Passes lost' granted' q q' where
  ready task kept := passes.ready task (fun gone => kept (more task gone))
  leases leaseId lease found kept := passes.leases leaseId lease found (fun gone => kept (more _ gone))
  old leaseId lease found different := passes.old leaseId lease found (other leaseId different)

theorem QueueStep.passes (step : QueueStep input run run' q q') (calm : run.pc ≠ .cancelling) (live : q.LeasesLive)
    (fresh : q.leases.get? input.leaseId = none) : Passes (Loses input run q) (some input.leaseId) q q' := by
  cases step with
  | same => exact (Passes.refl q).weaken
  | enqueued => exact (passes_enqueue q _).weaken
  | swept => exact (passes_requeueExpired q _).weaken
  | @polled worker lease _ _ _ _ collecting polled =>
    refine Passes.mono (passes_dequeueFrom polled fresh) ?_ (fun _ different => different)
    obtain ⟨entry, rest, picked, _, _, task, _⟩ := dequeueFrom_some polled
    have loses := Loses.polled collecting picked
    rintro _ rfl
    rw [task]
    exact loses
  | @dropped leaseId _ _ _ dropping =>
    refine Passes.mono (passes_acknowledge live leaseId input.now) ?_ (by simp)
    rintro _ ⟨held, found, rfl⟩
    exact .settled (by rw [dropping]; rfl) found
  | released => exact (passes_release q _ _).weaken
  | settled applying settles =>
    refine Passes.mono (settles.passes live) ?_ (by simp)
    rintro _ ⟨held, found, rfl⟩
    exact .settled (by rw [applying]; rfl) found
  | purged cancelling => exact absurd cancelling calm

end

/-- A job whose run has ended while its status says running cannot be run again. -/
theorem Engine.step_ended {config : CoordinatorConfig} {toposort : DiGraph TaskId → Except Nat (List Nat)}
    {input : EngineInput} {run : JobRun} {answer : Except SwarmError FinalResult} (ended : run.pc = .returned answer)
    (running : run.handle.job.status = .running) (shared : Shared) :
    (∃ answer, (step config toposort input run shared).1.pc = .returned answer) ∧
      (step config toposort input run shared).1.handle.job.status = .running := by
  have unfinished : run.handle.job.status.isFinished = false := by rw [running]; rfl
  have refused : Act.Ensures (enter toposort input.now) run.handle (fun _ _ => False)
      (fun _ h => h = run.handle) := by
    simp only [enter, Act.ensures_bind]
    refine setStatus_ensures ?_ (fun _ => rfl)
    intro legal
    rw [running] at legal
    simp [StateMachine.allowed] at legal
  simp only [step, ended, stepIdle, unfinished, Bool.false_eq_true, if_false]
  rcases refused.cases with ⟨_, _, _, impossible⟩ | ⟨e, h, failed, rfl⟩
  · exact impossible.elim
  · rw [failed]
    exact ⟨⟨_, rfl⟩, running⟩

/-- A task that was queued once is never new again. -/
theorem queued_moves {h h' : JobHandle} (moves : Moves h h') {task : TaskId} {node : TaskNode}
    (found : h.graph.get task = some node) (queued : node.state.isFresh = false) :
    ∃ node', h'.graph.get task = some node' ∧ node'.state.isFresh = false ∧ node'.blank = node.blank := by
  have update : ∀ {g : TaskGraph} {node : TaskNode} (changed : TaskId) (change : TaskNode → TaskNode),
      g.get task = some node → (∀ node, (change node).blank = node.blank) →
      (changed = task → node.state.isFresh = false → (change node).state.isFresh = false) →
        node.state.isFresh = false →
      ∃ node', (g.update changed change).get task = some node' ∧ node'.state.isFresh = false ∧
        node'.blank = node.blank := by
    intro g node changed change known blanks stays old
    rw [TaskGraph.get_update]
    split
    · rename_i same
      rw [← same, known]
      exact ⟨change node, rfl, stays same.symm old, blanks node⟩
    · exact ⟨node, known, old, rfl⟩
  induction moves with
  | refl => exact ⟨node, found, queued, rfl⟩
  | tail _ last ih =>
    obtain ⟨now, known, old, same⟩ := ih
    rw [← same]
    cases last with
    | quiet core => exact ⟨now, by rw [core.graph]; exact known, old, rfl⟩
    | attempt changed attempt => exact update changed _ known (fun _ => rfl) (fun _ old => old) old
    | rehash moved => exact ⟨now, (moved.get? task).symm.trans known, old, rfl⟩
    | @advance changed target other _ _ _ got legal plain _ _ =>
      refine update changed _ known (fun _ => rfl) ?_ old
      rintro rfl _
      rw [known] at got
      cases got
      revert legal plain old
      cases now.state <;> cases target <;> simp [StateMachine.allowed, TaskState.isFresh]
    | complete => exact update _ _ known (fun _ => rfl) (fun _ _ => rfl) old
    | failed => exact ⟨now, known, old, rfl⟩
    | status => exact ⟨now, known, old, rfl⟩
    | finish => exact ⟨now, known, old, rfl⟩

end Swarm
