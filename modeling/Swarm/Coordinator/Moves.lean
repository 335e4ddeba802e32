import Swarm.Coordinator.Engine

namespace Swarm
open JobHandle Act

/-- The parts of a handle that the journal speaks about. -/
structure JobHandle.SameCore (h h' : JobHandle) : Prop where
  job : h'.job = h.job
  graph : h'.graph = h.graph
  results : h'.results = h.results
  finalResult : h'.finalResult = h.finalResult
  journal : h'.journal = h.journal

/-- A job that has not finished. -/
def JobHandle.Live (h : JobHandle) : Prop := h.job.status.isFinished = false

/-- Everything that ever happens to a handle, with the records it leaves. -/
inductive Move (h : JobHandle) : JobHandle → Prop
  | quiet {h' : JobHandle} : SameCore h h' → Move h h'
  | attempt (task : TaskId) (attempt : Nat) : (h.graph.stateOf task).any TaskState.isLeasable = true →
      Move h { h with graph := h.graph.update task (fun node => { node with attempt := attempt }) }
  | rehash {nodes : Dict TaskId TaskNode} : h.graph.nodes.Rehash nodes →
      Move h { h with graph := { h.graph with nodes := nodes } }
  | advance {task : TaskId} {target : TaskState} {node : TaskNode} {transition : Transition TaskState}
      (attempt : Nat) :
      h.Live → h.graph.get task = some node → target ∈ StateMachine.allowed node.state →
      target ≠ .completed ∧ target ≠ .waitingForDependency → transition.target = target →
      (node.state.isPromoted = false → target = .queued → h.graph.Unblocked node) →
      transition.source = some node.state →
      Move h { h with
        graph := h.graph.update task (fun node => { node with state := target })
        journal := h.journal ++ [.taskTransitioned h.graph.jobId transition task attempt] }
  | complete {task : TaskId} {node : TaskNode} {transition : Transition TaskState} (attempt : Nat)
      {result : TaskResult} :
      h.Live → h.graph.get task = some node → .completed ∈ StateMachine.allowed node.state →
      transition.target = .completed → result.taskId = task → result.jobId = h.graph.jobId →
      transition.source = some node.state → result.passedValidation = true →
      Move h { h with
        graph := h.graph.update task (fun node => { node with state := .completed })
        journal := h.journal ++ [.taskTransitioned h.graph.jobId transition task attempt,
          .taskCompleted result.jobId result]
        results := h.results ++ [result] }
  | failed (failure : TaskFailure) :
      h.Live → Move h { h with journal := h.journal ++ [.taskFailed h.graph.jobId failure] }
  | status {target : JobStatus} (reason : Option String) (now : DateTime) :
      h.Live → target.isFinished = false → target ∈ StateMachine.allowed h.job.status →
      Move h { h with
        job := withStatus h.job target reason now
        journal := h.journal ++ [.jobStatusChanged h.job.id target reason now] }
  | finish {target : JobStatus} (reason : Option String) (now : DateTime) {result : FinalResult} :
      h.Live → target.isFinished = true → result.jobId = h.job.id → target ∈ StateMachine.allowed h.job.status →
      Move h { h with
        job := withStatus h.job target reason now
        journal := h.journal ++ [.jobStatusChanged h.job.id target reason now, .jobFinished result.jobId result]
        finalResult := some result }

/-- Any number of moves. -/
abbrev Moves : JobHandle → JobHandle → Prop := Relation.ReflTransGen Move

theorem JobHandle.SameCore.moves {h h' : JobHandle} (same : SameCore h h') : Moves h h' := .single (.quiet same)

/-- Work on one task: everything else stays as it is. -/
structure Touches (h h' : JobHandle) (task : TaskId) (state : TaskState) : Prop where
  moves : Moves h h'
  job : h'.job = h.job
  jobId : h'.graph.jobId = h.graph.jobId
  unfinished : ∃ old, h.graph.stateOf task = some old ∧ old.isTerminal = false
  states : ∀ other, h'.graph.stateOf other = if other = task then some state else h.graph.stateOf other
  blanks : ∀ other, (h'.graph.get other).map TaskNode.blank = (h.graph.get other).map TaskNode.blank

/-- Work that stopped half way. -/
structure Stops (h h' : JobHandle) : Prop where
  moves : Moves h h'
  job : h'.job = h.job

theorem Touches.stops {h h' : JobHandle} {task : TaskId} {state : TaskState} (touches : Touches h h' task state) :
    Stops h h' := ⟨touches.moves, touches.job⟩

theorem Stops.live {h h' : JobHandle} (stops : Stops h h') (live : h.Live) : h'.Live := by
  unfold JobHandle.Live
  rw [stops.job]
  exact live

theorem Stops.refl (h : JobHandle) : Stops h h := ⟨.refl, rfl⟩

theorem Stops.trans {h h' h'' : JobHandle} (first : Stops h h') (second : Stops h' h'') : Stops h h'' :=
  ⟨first.moves.trans second.moves, second.job.trans first.job⟩

theorem Touches.trans {h h' h'' : JobHandle} {task : TaskId} {state state' : TaskState}
    (first : Touches h h' task state) (second : Touches h' h'' task state') : Touches h h'' task state' where
  moves := first.moves.trans second.moves
  job := second.job.trans first.job
  jobId := second.jobId.trans first.jobId
  unfinished := first.unfinished
  states other := by
    rw [second.states, first.states]
    split <;> rfl
  blanks other := (second.blanks other).trans (first.blanks other)

theorem Touches.of_same {h h' h'' : JobHandle} {task : TaskId} {state : TaskState} (first : Stops h h')
    (jobId : h'.graph.jobId = h.graph.jobId) (states : ∀ other, h'.graph.stateOf other = h.graph.stateOf other)
    (blanks : ∀ other, (h'.graph.get other).map TaskNode.blank = (h.graph.get other).map TaskNode.blank)
    (second : Touches h' h'' task state) : Touches h h'' task state where
  moves := first.moves.trans second.moves
  job := second.job.trans first.job
  jobId := second.jobId.trans jobId
  unfinished := by rw [← states]; exact second.unfinished
  states other := by rw [second.states, states]
  blanks other := (second.blanks other).trans (blanks other)

theorem Touches.quiet {h h' h'' : JobHandle} {task : TaskId} {state : TaskState} (first : Touches h h' task state)
    (same : SameCore h' h'') : Touches h h'' task state where
  moves := first.moves.trans same.moves
  job := same.job.trans first.job
  jobId := by rw [same.graph]; exact first.jobId
  unfinished := first.unfinished
  states other := by rw [same.graph]; exact first.states other
  blanks other := by rw [same.graph]; exact first.blanks other

/-- What is complete stays complete. -/
theorem Touches.unblocked {h h' : JobHandle} {task : TaskId} {state : TaskState} (touches : Touches h h' task state)
    {node : TaskNode} (unblocked : h.graph.Unblocked node) : h'.graph.Unblocked node := by
  intro dependency depends
  have complete := unblocked dependency depends
  rw [touches.states]
  split
  · rename_i same
    obtain ⟨old, found, unfinished⟩ := touches.unfinished
    rw [← same, complete] at found
    cases found
    cases unfinished
  · exact complete

theorem stateOf_update_blank {g : TaskGraph} {task : TaskId} {change : TaskNode → TaskNode}
    (blanks : ∀ node, (change node).blank = node.blank) (other : TaskId) :
    ((g.update task change).get other).map TaskNode.blank = (g.get other).map TaskNode.blank := by
  rw [TaskGraph.get_update]
  split
  · rename_i same
    rw [same, Option.map_map]
    exact congrArg (fun f => (g.get task).map f) (funext blanks)
  · rfl

namespace Engine
variable {h : JobHandle} {fail : SwarmError → JobHandle → Prop}

/-- `advance` takes an edge of the state machine and journals it, or does nothing. -/
theorem advance_ensures {task : TaskId} {target : TaskState} {reason : String} {stamp : Stamp}
    {post : PUnit → JobHandle → Prop}
    (moved : ∀ node transition attempt, h.graph.get task = some node → target ∈ StateMachine.allowed node.state →
      transition.target = target → transition.source = some node.state →
      post ⟨⟩ { h with
        graph := h.graph.update task (fun node => { node with state := target })
        journal := h.journal ++ [.taskTransitioned h.graph.jobId transition task attempt]
        transitions := h.transitions ++ [transition] })
    (failed : ∀ e, fail e h) : Ensures (advance task target reason stamp) h post fail := by
  simp only [advance, ensures_bind, ensures_get, ensures_liftExcept, ensures_set]
  refine ⟨?_, fun e _ => failed e⟩
  rintro ⟨transition, graph⟩ run
  obtain ⟨node, found, legal, same, source, rfl⟩ := TaskGraph.setState_ok run
  exact moved node transition _ found legal same source

/-- A step that does not complete the task and does not queue it for the first time. -/
theorem advance_touches (live : h.Live) {task : TaskId} {target : TaskState} {reason : String} {stamp : Stamp}
    (unfinished : target ≠ .completed ∧ target ≠ .waitingForDependency)
    (unblocked : ∀ node, h.graph.get task = some node → node.state.isPromoted = false → target = .queued →
      h.graph.Unblocked node) :
    Ensures (advance task target reason stamp) h (fun _ h' => Touches h h' task target) (fun _ h' => Stops h h') := by
  refine advance_ensures ?_ (fun _ => .refl h)
  intro node transition attempt found legal same source
  have move := Move.advance attempt live found legal unfinished same (unblocked node found) source
  refine ⟨.tail (.single move) (.quiet ⟨rfl, rfl, rfl, rfl, rfl⟩), rfl, rfl, ?_, ?_,
    stateOf_update_blank (fun _ => rfl)⟩
  · exact ⟨node.state, by simp [TaskGraph.stateOf, found], TaskState.not_terminal_of_allowed legal⟩
  · exact fun other => TaskGraph.stateOf_update_state found target

theorem releaseAgent_ensures {agent : AgentDescriptor} {succeeded : Bool} {latencyMs : Nat} {now : DateTime}
    {post : PUnit → JobHandle → Prop} (done : ∀ agents, post ⟨⟩ { h with agents := agents }) :
    Ensures (releaseAgent agent succeeded latencyMs now) h post fail := by
  simp only [releaseAgent, ensures_modify]
  exact done _

/-- A failed task ends up waiting for a retry or dead-lettered. -/
theorem failTask_touches (live : h.Live) {task : TaskNode} (own : task.jobId = h.graph.jobId)
    {failureState : TaskState}
    (failure : (failureState ≠ .completed ∧ failureState ≠ .waitingForDependency) ∧ failureState ≠ .queued)
    {errorKind errorMessage : String} {retryable : Bool} {validationFailures : List String} {stamp : Stamp} :
    Ensures (failTask task failureState errorKind errorMessage retryable validationFailures stamp) h
      (fun _ h' => Touches h h' task.id (if retryable then .retryScheduled else .deadLettered))
      (fun _ h' => Stops h h') := by
  unfold failTask
  rw [ensures_bind]
  refine (advance_touches live failure.1 (fun _ _ _ queued => absurd queued failure.2)).mono ?_
    (fun _ _ stops => stops)
  intro _ h₁ first
  have live₁ := first.stops.live live
  simp only [ensures_bind]
  refine (advance_touches live₁ ?_ ?_).mono ?_ (fun _ _ stops => first.stops.trans stops)
  · cases retryable <;> simp
  · intro _ _ _ queued
    cases retryable <;> simp at queued
  · intro _ h₂ second
    simp only [ensures_modify, emit]
    have both := first.trans second
    have live₂ := both.stops.live live
    rw [own, ← both.jobId]
    exact { both with moves := both.moves.tail (.failed _ live₂) |>.tail (.quiet ⟨rfl, rfl, rfl, rfl, rfl⟩) }

/-- A validated result is journaled right behind the transition it belongs to. -/
theorem complete_touches (live : h.Live) {task : TaskId} {reason : String} {stamp : Stamp} {agent : AgentDescriptor}
    {result : TaskResult} (fits : result.taskId = task ∧ result.jobId = h.graph.jobId)
    (passed : result.passedValidation = true) {queueWaitMs : Nat} {now : DateTime} :
    Ensures (do
        advance task .completed reason stamp
        recordSuccess agent result queueWaitMs now
        emit) h
      (fun _ h' => Touches h h' task .completed) (fun _ h' => Stops h h') := by
  rw [ensures_bind]
  refine advance_ensures ?_ (fun _ => .refl h)
  intro node transition attempt found legal same source
  simp only [recordSuccess, releaseAgent, emit, ensures_bind, ensures_modify]
  have move := Move.complete attempt live found legal same fits.1 fits.2 source passed
  refine ⟨.tail (.single move) (.quiet ⟨rfl, rfl, rfl, rfl, by simp⟩), rfl, rfl, ?_, ?_,
    stateOf_update_blank (fun _ => rfl)⟩
  · exact ⟨node.state, by simp [TaskGraph.stateOf, found], TaskState.not_terminal_of_allowed legal⟩
  · exact fun other => TaskGraph.stateOf_update_state found .completed

end Engine

end Swarm
