import Swarm.Coordinator.Moves

namespace Swarm
open JobHandle Act

/-- An answer of an execution is about the task that was dispatched. -/
def Outcome.Fits (dispatch : Dispatch) (outcome : Outcome) : Prop :=
  ∀ result, outcome = .returned (.ok result) →
    result.taskId = dispatch.task.id ∧ result.jobId = dispatch.task.jobId

/-- How a lease is settled: acknowledged, or not. -/
inductive Settles (q : InMemoryQueue) (leaseId : LeaseId) (now : DateTime) : Bool → InMemoryQueue → Prop
  | acknowledged {q' : InMemoryQueue} : q.acknowledge leaseId now = (.ok (), q') → Settles q leaseId now true q'
  | lost {e : SwarmError} {q' : InMemoryQueue} : q.acknowledge leaseId now = (.error e, q') →
      Settles q leaseId now false q'
  | rejected (reason : String) : Settles q leaseId now false (q.reject leaseId reason now).2

/-- Work that leaves every task alone or gives it up for good. -/
structure Retires (h h' : JobHandle) : Prop where
  stops : Stops h h'
  states : ∀ task, h'.graph.stateOf task = h.graph.stateOf task ∨
    ∃ state, h'.graph.stateOf task = some state ∧ state.isTerminal = true

theorem Retires.trans {h h' h'' : JobHandle} (first : Retires h h') (second : Retires h' h'') : Retires h h'' where
  stops := first.stops.trans second.stops
  states task := by
    rcases second.states task with same | gone
    · rw [same]
      exact first.states task
    · exact Or.inr gone

/-- Work that does not touch the tasks. -/
structure Relabels (h h' : JobHandle) : Prop where
  moves : Moves h h'
  graph : h'.graph = h.graph
  id : h'.job.id = h.job.id

theorem Relabels.refl (h : JobHandle) : Relabels h h := ⟨.refl, rfl, rfl⟩

theorem Relabels.trans {h h' h'' : JobHandle} (first : Relabels h h') (second : Relabels h' h'') : Relabels h h'' :=
  ⟨first.moves.trans second.moves, second.graph.trans first.graph, second.id.trans first.id⟩

theorem JobHandle.SameCore.relabels {h h' : JobHandle} (same : SameCore h h') : Relabels h h' :=
  ⟨same.moves, same.graph, by rw [same.job]⟩

namespace Engine
variable {h : JobHandle} {fail : SwarmError → JobHandle → Prop} {config : CoordinatorConfig}

theorem setStatus_ensures {target : JobStatus} {reason : Option String} {now : DateTime}
    {post : PUnit → JobHandle → Prop}
    (moved : target ∈ StateMachine.allowed h.job.status →
      post ⟨⟩ { h with
        job := withStatus h.job target reason now
        journal := h.journal ++ [.jobStatusChanged h.job.id target reason now] })
    (failed : ∀ e, fail e h) : Ensures (setStatus target reason now) h post fail := by
  simp only [setStatus, ensures_bind, ensures_get, ensures_liftExcept, ensures_set]
  refine ⟨?_, fun e _ => failed e⟩
  intro next run
  obtain ⟨rfl, legal⟩ := StateMachine.transition_ok run
  exact moved legal

/-- A status in the middle of a run. -/
theorem setStatus_relabels (live : h.Live) {target : JobStatus} (unfinished : target.isFinished = false)
    {reason : Option String} {now : DateTime} :
    Ensures (setStatus target reason now) h (fun _ h' => Relabels h h' ∧ h'.job.status = target)
      (fun _ h' => h' = h) :=
  setStatus_ensures (fun legal => ⟨⟨.single (.status reason now live unfinished legal), rfl, rfl⟩, rfl⟩)
    (fun _ => rfl)

theorem enter_relabels (live : h.Live) {toposort : DiGraph TaskId → Except Nat (List Nat)} {now : DateTime} :
    Ensures (enter toposort now) h (fun _ h' => Relabels h h' ∧ h'.job.status = .running)
      (fun _ h' => h' = h ∨ Relabels h h' ∧ h'.job.status = .running) := by
  unfold enter
  rw [ensures_bind]
  refine (setStatus_relabels live rfl).mono ?_ (fun _ _ same => Or.inl same)
  intro _ h' done
  simp only [ensures_bind, ensures_get, ensures_liftExcept]
  exact ⟨fun _ _ => done, fun _ _ => Or.inr done⟩

theorem planTick_relabels {now : DateTime} :
    Ensures (planTick now) h
      (fun pc h' => SameCore h h' ∧ (pc = .finishing false ∨ pc = .promoting h.graph.ready 0)) fail := by
  simp only [planTick, ensures_bind, ensures_get]
  split
  · simp only [emit, ensures_bind, ensures_modify, ensures_pure]
    exact ⟨⟨rfl, rfl, rfl, rfl, rfl⟩, Or.inl trivial⟩
  · simp only [ensures_pure]
    exact ⟨⟨rfl, rfl, rfl, rfl, rfl⟩, Or.inr trivial⟩

theorem beginTick_relabels (live : h.Live) {paused : Bool} {now : DateTime} :
    Ensures (beginTick paused now) h
      (fun pc h' => Relabels h h' ∧ (h'.job.status = .running ∨ paused = false ∧ h'.job = h.job) ∧
        (pc = .finishing false ∨ pc = .promoting h.graph.ready 0))
      (fun _ h' => h' = h) := by
  unfold beginTick
  cases paused with
  | true =>
    simp only [if_true, ensures_bind]
    refine (setStatus_relabels live rfl).mono ?_ (fun _ _ same => same)
    intro _ h' done
    refine planTick_relabels.mono ?_ (fun _ _ same => same)
    rintro pc h'' ⟨same, next⟩
    rw [done.1.graph] at next
    exact ⟨done.1.trans same.relabels, Or.inl (by rw [same.job]; exact done.2), next⟩
  | false =>
    refine planTick_relabels.mono ?_ (fun _ _ same => same)
    rintro pc h' ⟨same, next⟩
    exact ⟨same.relabels, Or.inr ⟨rfl, same.job⟩, next⟩

/-- A ready task is queued; the entry is made from the task as it stands then. -/
theorem promote_touches (live : h.Live) {task : TaskId} {now : DateTime}
    (unblocked : ∀ node, h.graph.get task = some node → h.graph.Unblocked node) :
    Ensures (promote config task now) h
      (fun node h' => Touches h h' task .queued ∧ h'.graph.get task = some node ∧
        ∃ earlier, h.graph.get task = some earlier ∧ node = { earlier with state := .queued } ∧
          .queued ∈ StateMachine.allowed earlier.state)
      (fun _ h' => Stops h h') := by
  unfold promote
  simp only [ensures_bind, ensures_get]
  refine advance_ensures ?_ (fun _ => .refl h)
  intro node transition attempt found legal same source
  have move := Move.advance attempt live found legal (by simp) same (fun _ _ => unblocked node found) source
  have got : (h.graph.update task (fun node => { node with state := .queued })).get task =
      some { node with state := .queued } := by
    rw [TaskGraph.get_update, if_pos rfl, found]
    rfl
  simp only [got, ensures_pure]
  refine ⟨⟨.tail (.single move) (.quiet ⟨rfl, rfl, rfl, rfl, rfl⟩), rfl, rfl, ?_, ?_,
    stateOf_update_blank (fun _ => rfl)⟩, trivial, node, found, rfl, legal⟩
  · exact ⟨node.state, by simp [TaskGraph.stateOf, found], TaskState.not_terminal_of_allowed legal⟩
  · exact fun other => TaskGraph.stateOf_update_state found .queued

theorem handOver_touches (live : h.Live) {lease : TaskLease} {agent : AgentDescriptor} {now : DateTime} :
    Ensures (handOver config lease agent now) h
      (fun dispatch h' => Touches h h' lease.task.payload.id .running ∧ dispatch.lease = lease ∧
        dispatch.task = { lease.task.payload with attempt := lease.task.attempt } ∧
        dispatch.context.upstream = upstreamOutputs h' dispatch.task)
      (fun _ h' => Stops h h') := by
  simp only [handOver, ensures_bind, ensures_get]
  refine (advance_touches live (by simp) (by simp)).mono ?_ (fun _ _ more => more)
  intro _ h₁ leased
  refine (advance_touches (leased.stops.live live) (by simp) (by simp)).mono ?_
    (fun _ _ more => leased.stops.trans more)
  intro _ h₂ running
  simp only [emit, ensures_modify, ensures_pure]
  exact ⟨(leased.trans running).quiet ⟨rfl, rfl, rfl, rfl, rfl⟩, trivial, trivial, rfl⟩

/-- A leased task goes to an agent. -/
theorem startTask_touches (live : h.Live) {lease : TaskLease}
    (leasable : (h.graph.stateOf lease.task.payload.id).any TaskState.isLeasable = true) {agent : AgentDescriptor}
    {now : DateTime} :
    Ensures (startTask config lease agent now) h
      (fun dispatch h' => Touches h h' lease.task.payload.id .running ∧ dispatch.lease = lease ∧
        dispatch.task = { lease.task.payload with attempt := lease.task.attempt } ∧
        dispatch.context.upstream = upstreamOutputs h' dispatch.task)
      (fun _ h' => Stops h h') := by
  let h₀ : JobHandle := { h with
    graph := h.graph.update lease.task.payload.id (fun node => { node with attempt := lease.task.attempt }) }
  have first : Stops h h₀ := ⟨.single (.attempt _ _ leasable), rfl⟩
  have live₀ : h₀.Live := live
  have lift : ∀ h', Touches h₀ h' lease.task.payload.id .running → Touches h h' lease.task.payload.id .running :=
    fun h' touches => .of_same first rfl (fun _ => TaskGraph.stateOf_update_attempt _)
      (stateOf_update_blank (fun _ => rfl)) touches
  simp only [startTask, ensures_bind, ensures_modify, ensures_get]
  split
  · rename_i retrying
    rw [ensures_bind]
    refine (advance_touches live₀ (by simp) ?_).mono ?_ (fun _ _ more => first.trans more)
    · intro node found unpromoted _
      rw [TaskGraph.stateOf, found] at retrying
      simp only [Option.map_some, Option.some.injEq] at retrying
      rw [retrying] at unpromoted
      cases unpromoted
    · intro _ h₁ queued
      refine (handOver_touches (queued.stops.live live₀)).mono ?_
        (fun _ _ more => first.trans (queued.stops.trans more))
      intro _ _ done
      exact ⟨lift _ (queued.trans done.1), done.2⟩
  · refine (handOver_touches live₀).mono ?_ (fun _ _ more => first.trans more)
    intro _ _ done
    exact ⟨lift _ done.1, done.2⟩

/-- The lease is settled first. A failure is retried by the graph only if the
lease was not acknowledged and its own budget allows it. -/
theorem applyOutcome_touches (live : h.Live) {queue : InMemoryQueue} {dispatch : Dispatch} {outcome : Outcome}
    {now : DateTime} (fits : outcome.Fits dispatch) (own : dispatch.task.jobId = h.graph.jobId) :
    ∃ acknowledged, Settles queue dispatch.lease.leaseId now acknowledged
        (applyOutcome config queue h dispatch outcome now).1 ∧
      Ensures (applyOutcome config queue h dispatch outcome now).2 h
        (fun _ h' => ∃ state, Touches h h' dispatch.task.id state ∧
          (state.isLeasable = true → acknowledged = false ∧
            dispatch.lease.task.retry.allowsRetry dispatch.lease.task.attempt = true))
        (fun _ h' => Stops h h') := by
  have failing : ∀ (latencyMs : Nat) (failureState : TaskState) (errorKind errorMessage : String) (retryable : Bool)
      (validationFailures : List String),
      (failureState ≠ .completed ∧ failureState ≠ .waitingForDependency) ∧ failureState ≠ .queued →
      (retryable = true → dispatch.lease.task.retry.allowsRetry dispatch.lease.task.attempt = true) →
      Ensures (do
          releaseAgent dispatch.agent false latencyMs now
          failTask dispatch.task failureState errorKind errorMessage retryable validationFailures
            (stamp config h now)) h
        (fun _ h' => ∃ state, Touches h h' dispatch.task.id state ∧
          (state.isLeasable = true → false = false ∧
            dispatch.lease.task.retry.allowsRetry dispatch.lease.task.attempt = true))
        (fun _ h' => Stops h h') := by
    intro latencyMs failureState errorKind errorMessage retryable validationFailures failure allowed
    rw [ensures_bind]
    refine releaseAgent_ensures ?_
    intro agents
    have first : Stops h { h with agents := agents } := ⟨.single (.quiet ⟨rfl, rfl, rfl, rfl, rfl⟩), rfl⟩
    refine (failTask_touches (first.live live) own failure).mono ?_ (fun _ _ more => first.trans more)
    intro _ h' touches
    refine ⟨_, .of_same first rfl (fun _ => rfl) (fun _ => rfl) touches, ?_⟩
    cases retryable with
    | true => exact fun _ => ⟨rfl, allowed rfl⟩
    | false => exact fun leasable => absurd leasable (by decide)
  unfold applyOutcome
  split
  · rename_i result
    obtain ⟨taskId, jobId⟩ := fits result rfl
    split
    · rename_i passed
      dsimp only
      split
      · rename_i done
        refine ⟨true, .acknowledged done,
          (complete_touches live ⟨taskId, jobId.trans own⟩ passed).mono ?_ (fun _ _ more => more)⟩
        intro _ h' touches
        exact ⟨_, touches, fun leasable => absurd leasable (by decide)⟩
      · rename_i lost
        exact ⟨false, .lost lost, failing _ _ _ _ _ _ (by simp) id⟩
    · exact ⟨false, .rejected _, failing _ _ _ _ _ _ (by simp) id⟩
  · exact ⟨false, .rejected _, failing _ _ _ _ _ _ (by simp) (fun both => (Bool.and_eq_true_iff.mp both).1)⟩
  · exact ⟨false, .rejected _, failing _ _ _ _ _ _ (by simp) id⟩

theorem advance_retires (live : h.Live) {task : TaskId} {target : TaskState} {reason : String} {stamp : Stamp}
    (terminal : target = .cancelled ∨ target = .deadLettered) :
    Ensures (advance task target reason stamp) h (fun _ h' => Retires h h') (fun _ h' => Stops h h') := by
  have other : (target ≠ .completed ∧ target ≠ .waitingForDependency) ∧ target ≠ .queued := by
    rcases terminal with rfl | rfl <;> simp
  refine (advance_touches live other.1 (fun _ _ _ queued => absurd queued other.2)).mono ?_ (fun _ _ more => more)
  intro _ h' touches
  refine ⟨touches.stops, ?_⟩
  intro some
  rw [touches.states]
  split
  · exact Or.inr ⟨target, rfl, by rcases terminal with rfl | rfl <;> rfl⟩
  · exact Or.inl rfl

theorem abandonStranded_retires (live : h.Live) {now : DateTime} :
    Ensures (abandonStranded config now) h
      (fun pc h' => Retires h h' ∧ (pc = .finishing false ∨ pc = .top)) (fun _ h' => Stops h h') := by
  have start : Retires h h := ⟨.refl h, fun _ => Or.inl rfl⟩
  simp only [abandonStranded, ensures_bind, ensures_get]
  split
  · simp only [ensures_pure]
    exact ⟨start, Or.inl trivial⟩
  · simp only [ensures_bind]
    refine (ensures_forM (fun _ h' => Retires h h') ?_ start).mono ?_ (fun _ _ more => more)
    · intro task rest h' retires
      rw [ensures_bind]
      refine (advance_retires (retires.stops.live live) (Or.inl rfl)).mono ?_
        (fun _ _ more => retires.stops.trans more)
      intro _ h'' more
      simp only [emit, ensures_modify]
      exact retires.trans (more.trans ⟨⟨.single (.quiet ⟨rfl, rfl, rfl, rfl, rfl⟩), rfl⟩, fun _ => Or.inl rfl⟩)
    · intro _ h' retires
      simp only [ensures_pure]
      exact ⟨retires, Or.inr trivial⟩

theorem cancelPending_stops (live : h.Live) {now : DateTime} :
    Ensures (cancelPending config now) h (fun _ h' => Stops h h') (fun _ h' => Stops h h') := by
  simp only [cancelPending, ensures_bind, ensures_get]
  refine (ensures_forM (fun _ h' => Stops h h') ?_ (.refl h)).mono (fun _ _ more => more) (fun _ _ more => more)
  intro task rest h' stops
  have live' := stops.live live
  simp only [cancelTask, ensures_bind, ensures_get]
  split
  · rw [ensures_bind]
    refine (advance_touches live' (by simp) (by simp)).mono ?_ (fun _ _ more => stops.trans more)
    intro _ h'' touches
    refine (advance_touches (touches.stops.live live') (by simp) (by simp)).mono ?_
      (fun _ _ more => stops.trans (touches.stops.trans more))
    exact fun _ _ more => stops.trans (touches.stops.trans more.stops)
  · exact (advance_touches live' (by simp) (by simp)).mono (fun _ _ more => stops.trans more.stops)
      (fun _ _ more => stops.trans more)

theorem finalStatus_finished (cancelled : Bool) (counts : GraphCounts) :
    (finalStatus cancelled counts).isFinished = true := by
  unfold finalStatus
  split
  · rfl
  · split
    · rfl
    · split <;> rfl

/-- The final status and the final result are journaled one right behind the other. -/
theorem conclude_relabels (live : h.Live) {status : JobStatus} (finished : status.isFinished = true)
    {input : EngineInput} :
    Ensures (conclude status input) h
      (fun pc h' => Relabels h h' ∧ h'.job.status.isFinished = true ∧ ∃ result, pc = .returned (.ok result))
      (fun _ h' => h' = h) := by
  simp only [conclude, ensures_bind, ensures_get]
  refine setStatus_ensures ?_ (fun _ => rfl)
  intro legal
  simp only [emit, ensures_modify, ensures_pure]
  refine ⟨⟨.tail (.single (.finish _ input.now live finished rfl legal)) (.quiet ⟨rfl, rfl, rfl, rfl, ?_⟩), rfl, rfl⟩,
    finished, _, rfl⟩
  simp

theorem finish_relabels (live : h.Live) {cancelled : Bool} {spawned : Nat} {input : EngineInput} :
    Ensures (finish cancelled spawned input) h
      (fun pc h' => Relabels h h' ∧ h'.job.status.isFinished = true ∧ ∃ result, pc = .returned (.ok result))
      (fun _ h' => Relabels h h') := by
  have finished := finalStatus_finished cancelled h.graph.counts
  simp only [finish, ensures_bind, ensures_get, ensures_modify]
  generalize same : ({ h with statistics := _ } : JobHandle) = h₁
  have first : Relabels h h₁ := by
    subst same
    exact SameCore.relabels ⟨rfl, rfl, rfl, rfl, rfl⟩
  have live₁ : h₁.Live := by
    subst same
    exact live
  have rest : ∀ h₂, Relabels h h₂ → h₂.Live → Ensures (conclude (finalStatus cancelled h.graph.counts) input) h₂
      (fun pc h' => Relabels h h' ∧ h'.job.status.isFinished = true ∧ ∃ result, pc = .returned (.ok result))
      (fun _ h' => Relabels h h') := by
    intro h₂ relabels live₂
    refine (conclude_relabels live₂ finished).mono ?_ ?_
    · exact fun _ _ done => ⟨relabels.trans done.1, done.2⟩
    · rintro _ _ rfl
      exact relabels
  cases cancelled with
  | true => exact rest h₁ first live₁
  | false =>
    simp only [Bool.not_false, if_true, ensures_bind]
    refine (setStatus_relabels live₁ rfl).mono ?_ ?_
    · intro _ h₂ done
      refine rest h₂ (first.trans done.1) ?_
      unfold JobHandle.Live
      rw [done.2]
      rfl
    · rintro _ _ rfl
      exact first

end Engine

end Swarm
