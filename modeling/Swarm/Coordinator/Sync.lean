import Swarm.Coordinator.Cuts
import Swarm.Coordinator.Specs

namespace Swarm
open Recovery

/-- A journaled plan: tasks of one job that nothing has happened to, in some order. -/
structure PlanOk (job : Job) (tasks : List TaskNode) : Prop where
  status : job.status.isFinished = false
  ordered : ∃ plan, InOrder plan ∧ tasks.Perm plan
  inhabited : tasks ≠ []
  blanks : ∀ node ∈ tasks, node.blank = node
  own : ∀ node ∈ tasks, node.jobId = job.id

/-- The graph and the journal agree on whether a task is over and how. -/
def Agrees (last : Option TaskState) (state : TaskState) : Prop :=
  if state.isTerminal then last = some state else ∀ before, last = some before → before.isTerminal = false

/-- A live handle and the log it has written. -/
structure Sync (job : Job) (tasks : List TaskNode) (h : JobHandle) : Prop where
  plan : PlanOk job tasks
  legal : Legal job tasks h.journal
  id : h.job.id = job.id
  jobId : h.graph.jobId = job.id
  shaped : ∃ plan, plan.Perm tasks ∧ h.graph.Shaped plan
  states : ∀ task state, h.graph.stateOf task = some state → Agrees (lastState h.journal task) state
  promoted : ∀ task node, h.graph.get task = some node → node.state.isPromoted = true → h.graph.Unblocked node
  status : ∃ status, lastStatus h.journal = some status ∧ status.isFinished = h.job.status.isFinished
  results : (replay h.journal).results = h.results
  finalResult : (replay h.journal).finalResult = h.finalResult

theorem Agrees.completed {last : Option TaskState} (agrees : Agrees last .completed) :
    last = some .completed := agrees

theorem Agrees.unfinished {last : Option TaskState} {state : TaskState} (agrees : Agrees last state)
    (running : state.isTerminal = false) : ∀ before, last = some before → before.isTerminal = false := by
  unfold Agrees at agrees
  rw [running] at agrees
  exact agrees

theorem agrees_self (state : TaskState) : Agrees (some state) state := by
  unfold Agrees
  split
  · rfl
  · rename_i running
    intro before same
    cases same
    simpa using running

/-- A task is promoted by queueing it, or it was promoted already. -/
theorem TaskState.queued_of_promoted {state target : TaskState} (legal : target ∈ StateMachine.allowed state)
    (promoted : target.isPromoted = true) (before : state.isPromoted = false) : target = .queued := by
  cases state <;> simp [StateMachine.allowed, isPromoted] at legal before <;>
    rcases legal with rfl | rfl | rfl <;> simp_all [isPromoted]

namespace Sync
variable {job : Job} {tasks : List TaskNode} {h h' : JobHandle}

theorem isOpen (sync : Sync job tasks h) (live : h.Live) : Open h.journal := by
  intro status found
  obtain ⟨last, known, same⟩ := sync.status
  rw [found] at known
  cases known
  rw [same]
  exact live

/-- The planned task behind a node. -/
theorem planned (sync : Sync job tasks h) {task : TaskId} {node : TaskNode} (found : h.graph.get task = some node) :
    ∃ planned ∈ tasks, planned.id = task ∧ planned.dependencies = node.dependencies ∧ planned.blank = node.blank := by
  obtain ⟨plan, order, shaped⟩ := sync.shaped
  obtain ⟨rfl, planned, member, blanks⟩ := shaped.get_some found
  have same := congrArg TaskNode.id blanks
  have dependencies := congrArg TaskNode.dependencies blanks
  exact ⟨planned, order.mem_iff.mp member, same, dependencies, blanks⟩

/-- A job writes only its own records. -/
theorem own_journal (sync : Sync job tasks h) : own job.id h.journal = h.journal :=
  List.filter_eq_self.mpr (fun record member => beq_iff_eq.mpr (sync.legal.jobId_eq record member))

theorem quiet (sync : Sync job tasks h) (same : JobHandle.SameCore h h') : Sync job tasks h' where
  plan := sync.plan
  legal := by rw [same.journal]; exact sync.legal
  id := by rw [same.job]; exact sync.id
  jobId := by rw [same.graph]; exact sync.jobId
  shaped := by rw [same.graph]; exact sync.shaped
  states := by rw [same.graph, same.journal]; exact sync.states
  promoted := by rw [same.graph]; exact sync.promoted
  status := by rw [same.journal, same.job]; exact sync.status
  results := by rw [same.journal, same.results]; exact sync.results
  finalResult := by rw [same.journal, same.finalResult]; exact sync.finalResult

/-- A change of the graph that no state notices. -/
theorem regraph (sync : Sync job tasks h) {graph : TaskGraph} (jobId : graph.jobId = h.graph.jobId)
    (shaped : ∀ plan, h.graph.Shaped plan → graph.Shaped plan)
    (states : ∀ task, graph.stateOf task = h.graph.stateOf task)
    (nodes : ∀ task node, graph.get task = some node →
      ∃ old, h.graph.get task = some old ∧ old.state = node.state ∧ old.dependencies = node.dependencies) :
    Sync job tasks { h with graph := graph } where
  plan := sync.plan
  legal := sync.legal
  id := sync.id
  jobId := jobId.trans sync.jobId
  shaped := by
    obtain ⟨plan, order, before⟩ := sync.shaped
    exact ⟨plan, order, shaped plan before⟩
  states task state found := sync.states task state (states task ▸ found)
  promoted task node found isPromoted := by
    obtain ⟨old, known, state, dependencies⟩ := nodes task node found
    have unblocked := sync.promoted task old known (state ▸ isPromoted)
    intro dependency depends
    rw [states]
    exact unblocked dependency (dependencies ▸ depends)
  status := sync.status
  results := sync.results
  finalResult := sync.finalResult

/-- An edge of the task state machine, with its record. -/
theorem transition (sync : Sync job tasks h) (live : h.Live) {task : TaskId} {target : TaskState} {node : TaskNode}
    {transition : Transition TaskState} (attempt : Nat) (found : h.graph.get task = some node)
    (legal : target ∈ StateMachine.allowed node.state) (same : transition.target = target)
    (unblocked : node.state.isPromoted = false → target = .queued → h.graph.Unblocked node) :
    Sync job tasks { h with
      graph := h.graph.update task (fun node => { node with state := target })
      journal := h.journal ++ [.taskTransitioned h.graph.jobId transition task attempt] } := by
  have running := TaskState.not_terminal_of_allowed legal
  have nodeState : h.graph.stateOf task = some node.state := by simp [TaskGraph.stateOf, found]
  have states : ∀ other, (h.graph.update task (fun node => { node with state := target })).stateOf other =
      if other = task then some target else h.graph.stateOf other :=
    fun other => TaskGraph.stateOf_update_state found target
  have ready : target.isPromoted = true → h.graph.Unblocked node := by
    intro isPromoted
    cases before : node.state.isPromoted with
    | true => exact sync.promoted task node found before
    | false => exact unblocked before (TaskState.queued_of_promoted legal isPromoted before)
  have stays : ∀ other, h.graph.Unblocked other →
      (h.graph.update task (fun node => { node with state := target })).Unblocked other := by
    intro other complete dependency depends
    have done := complete dependency depends
    rw [states, if_neg]
    · exact done
    · rintro rfl
      rw [nodeState] at done
      rw [Option.some.inj done] at running
      cases running
  have follows : Follows job.id tasks h.journal (.taskTransitioned h.graph.jobId transition task attempt) := by
    obtain ⟨planned, member, rfl, dependencies, _⟩ := sync.planned found
    rw [sync.jobId]
    refine .transition attempt (sync.isOpen live) member ((sync.states _ _ nodeState).unfinished running) ?_
    intro isPromoted dependency depends
    rw [same] at isPromoted
    rw [dependencies] at depends
    exact (sync.states _ _ (ready isPromoted dependency depends)).completed
  have plain : ∀ (R : Recovering),
      (absorb R (.taskTransitioned h.graph.jobId transition task attempt)).results = R.results ∧
      (absorb R (.taskTransitioned h.graph.jobId transition task attempt)).finalResult = R.finalResult :=
        fun _ => ⟨rfl, rfl⟩
  refine ⟨sync.plan, .next sync.legal follows, sync.id, sync.jobId, ?_, ?_, ?_, ?_, ?_, ?_⟩
  · obtain ⟨plan, order, shaped⟩ := sync.shaped
    exact ⟨plan, order, shaped.update task (fun _ => rfl)⟩
  · intro other state known
    change (h.graph.update task _).stateOf other = some state at known
    rw [states] at known
    rw [lastState_snoc]
    simp only
    split at known
    · rename_i here
      cases known
      rw [if_pos here, same]
      exact agrees_self target
    · rename_i elsewhere
      rw [if_neg elsewhere]
      exact sync.states other state known
  · intro other current known isPromoted
    change (h.graph.update task _).get other = some current at known
    rw [TaskGraph.get_update] at known
    split at known
    · rw [found] at known
      cases known
      exact stays node (ready isPromoted)
    · exact stays current (sync.promoted other current known isPromoted)
  · obtain ⟨status, known, finished⟩ := sync.status
    exact ⟨status, by rw [lastStatus_snoc]; exact known, finished⟩
  · rw [replay_snoc, (plain _).1]
    exact sync.results
  · rw [replay_snoc, (plain _).2]
    exact sync.finalResult

/-- A record that moves no task. -/
theorem record (sync : Sync job tasks h) (entry : JournalRecord) (current : Job)
    (follows : Follows job.id tasks h.journal entry)
    (still : ∀ task, lastState (h.journal ++ [entry]) task = lastState h.journal task) (id : current.id = h.job.id)
    (status : ∃ status, lastStatus (h.journal ++ [entry]) = some status ∧
      status.isFinished = current.status.isFinished) :
    Sync job tasks { h with
      job := current
      journal := h.journal ++ [entry]
      results := (absorb (replay h.journal) entry).results
      finalResult := (absorb (replay h.journal) entry).finalResult } where
  plan := sync.plan
  legal := .next sync.legal follows
  id := id.trans sync.id
  jobId := sync.jobId
  shaped := sync.shaped
  states task state found := by
    rw [still]
    exact sync.states task state found
  promoted := sync.promoted
  status := status
  results := by rw [replay_snoc]
  finalResult := by rw [replay_snoc]

theorem lastStatus_some (sync : Sync job tasks h) (status : JobStatus) :
    (lastStatus h.journal).map (fun _ => status) = some status := by
  obtain ⟨last, known, _⟩ := sync.status
  rw [known]
  rfl

/-- A new status of the job. -/
theorem setStatus (sync : Sync job tasks h) (live : h.Live) (target : JobStatus) (reason : Option String)
    (now : DateTime) :
    Sync job tasks { h with
      job := JobHandle.withStatus h.job target reason now
      journal := h.journal ++ [.jobStatusChanged h.job.id target reason now] } := by
  have step :=
    sync.record (.jobStatusChanged h.job.id target reason now) (JobHandle.withStatus h.job target reason now)
    (by rw [sync.id]; exact .status target reason now (sync.isOpen live)) (fun _ => lastState_snoc _ _ _) rfl
    ⟨target, by rw [lastStatus_snoc]; exact sync.lastStatus_some target, rfl⟩
  exact step.quiet ⟨rfl, rfl, sync.results.symm, sync.finalResult.symm, rfl⟩

/-- A completion, with its record and the record of its result. -/
theorem complete (sync : Sync job tasks h) (live : h.Live) {node : TaskNode} {transition : Transition TaskState}
    (attempt : Nat) {result : TaskResult} (found : h.graph.get result.taskId = some node)
    (legal : .completed ∈ StateMachine.allowed node.state) (same : transition.target = .completed)
    (jobId : result.jobId = h.graph.jobId) :
    Sync job tasks { h with
      graph := h.graph.update result.taskId (fun node => { node with state := .completed })
      journal := h.journal ++ [.taskTransitioned h.graph.jobId transition result.taskId attempt,
        .taskCompleted result.jobId result]
      results := h.results ++ [result] } := by
  have first := sync.transition live attempt found legal same (fun _ queued => by cases queued)
  have isOpen : Open (h.journal ++ [.taskTransitioned h.graph.jobId transition result.taskId attempt]) :=
    first.isOpen live
  have last : (h.journal ++
      [JournalRecord.taskTransitioned h.graph.jobId transition result.taskId attempt]).getLast? =
      some (.taskTransitioned job.id transition result.taskId attempt) := by
    rw [List.getLast?_concat, sync.jobId]
  have follows : Follows job.id tasks _ _ := .completed isOpen last same
  have second := first.record (.taskCompleted result.jobId result) h.job
    (by rw [jobId.trans sync.jobId]; exact follows) (fun _ => lastState_snoc _ _ _) rfl
    (by
      obtain ⟨status, known, finished⟩ := first.status
      exact ⟨status, by rw [lastStatus_snoc]; exact known, finished⟩)
  refine second.quiet ⟨rfl, rfl, ?_, first.finalResult.symm, by simp⟩
  simp only [absorb, first.results]

/-- The final status, with its record and the record of the final result. -/
theorem finish (sync : Sync job tasks h) (live : h.Live) {target : JobStatus} (reason : Option String)
    (now : DateTime) {result : FinalResult} (finished : target.isFinished = true) (jobId : result.jobId = h.job.id) :
    Sync job tasks { h with
      job := JobHandle.withStatus h.job target reason now
      journal := h.journal ++ [.jobStatusChanged h.job.id target reason now, .jobFinished result.jobId result]
      finalResult := some result } := by
  have first := sync.setStatus live target reason now
  have last : (h.journal ++ [JournalRecord.jobStatusChanged h.job.id target reason now]).getLast? =
      some (.jobStatusChanged job.id target reason now) := by
    rw [List.getLast?_concat, sync.id]
  have follows : Follows job.id tasks _ _ := .finished result last finished
  have second := first.record (.jobFinished result.jobId result) (JobHandle.withStatus h.job target reason now)
    (by rw [jobId.trans sync.id]; exact follows) (fun _ => lastState_snoc _ _ _) rfl
    (by
      obtain ⟨status, known, same⟩ := first.status
      exact ⟨status, by rw [lastStatus_snoc]; exact known, same⟩)
  exact second.quiet ⟨rfl, rfl, first.results.symm, rfl, by simp⟩

/-- One move of a handle keeps it in step with its log. -/
theorem move (sync : Sync job tasks h) (move : Move h h') : Sync job tasks h' := by
  cases move with
  | quiet same => exact sync.quiet same
  | attempt task attempt =>
    refine sync.regraph rfl (fun _ shaped => shaped.update task (fun _ => rfl))
      (fun _ => TaskGraph.stateOf_update_attempt attempt) ?_
    intro other node found
    rw [TaskGraph.get_update] at found
    split at found
    · rename_i same
      obtain ⟨old, known, rfl⟩ := Option.map_eq_some_iff.mp found
      exact ⟨old, same ▸ known, rfl, rfl⟩
    · exact ⟨node, found, rfl, rfl⟩
  | rehash moved =>
    refine sync.regraph rfl (fun _ shaped => shaped.rehash moved) (TaskGraph.stateOf_rehash moved) ?_
    intro task node found
    exact ⟨node, by rw [← found]; exact moved.get? task, rfl, rfl⟩
  | advance attempt live found legal _ same unblocked => exact sync.transition live attempt found legal same unblocked
  | @complete task node transition attempt result live found legal same taskId jobId =>
    subst taskId
    exact sync.complete live attempt found legal same jobId
  | failed failure live =>
    have step := sync.record (.taskFailed h.graph.jobId failure) h.job
      (by rw [sync.jobId]; exact .failed failure (sync.isOpen live)) (fun _ => lastState_snoc _ _ _) rfl
      (by
        obtain ⟨status, known, finished⟩ := sync.status
        exact ⟨status, by rw [lastStatus_snoc]; exact known, finished⟩)
    exact step.quiet ⟨rfl, rfl, sync.results.symm, sync.finalResult.symm, rfl⟩
  | status reason now live _ => exact sync.setStatus live _ reason now
  | @finish target reason now result live finished jobId =>
    exact sync.finish live reason now finished jobId

theorem moves (sync : Sync job tasks h) (moves : Moves h h') : Sync job tasks h' := by
  induction moves with
  | refl => exact sync
  | tail _ last ih => exact ih.move last

end Sync

end Swarm
