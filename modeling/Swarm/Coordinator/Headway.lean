import Swarm.Coordinator.Thriving

namespace Swarm
open InMemoryQueue JobHandle Act

/-- What a step in which nothing goes wrong gets from the outside world. -/
structure Engine.Favours (input : EngineInput) (run : JobRun) (q : InMemoryQueue) : Prop where
  running : run.handle.control = .running
  draws : Engine.Draws input run.handle.agents
  answered : Engine.Answered input run.pc
  fresh : q.leases.get? input.leaseId = none ∧ input.leaseId ∉ run.pc.leaseIds
  valid : ∀ dispatches outcomes, run.pc = .executing dispatches → input.outcomes = some outcomes →
    ∀ outcome ∈ outcomes, outcome.isValid = true
  timely : ∀ dispatch outcome rest, run.pc = .applying ((dispatch, outcome) :: rest) →
    input.now < dispatch.lease.expiresAt

namespace Engine
variable {config : CoordinatorConfig} {toposort : DiGraph TaskId → Except Nat (List Nat)} {input : EngineInput}
  {run : JobRun} {shared : Shared} {jobId : JobId} {size : Nat}

/-- The step leaves the job well, on course and under way. -/
structure Goes (config : CoordinatorConfig) (toposort : DiGraph TaskId → Except Nat (List Nat)) (input : EngineInput)
    (after : JobRun × Shared) : Prop where
  well : after.1.Well input.now after.2.queue
  course : after.1.OnCourse config toposort after.2
  begun : after.1.pc ≠ .idle

/-- A planned job for which the cluster has room comes to the top of the loop. -/
theorem stepIdle_goes (well : run.Well input.now shared.queue) (idle : run.pc = .idle)
    (course : run.OnCourse config toposort shared) :
    Goes config toposort input (stepIdle config toposort input run shared) := by
  simp only [JobRun.OnCourse, idle] at course
  obtain ⟨planned, acyclic, undone, room⟩ := course
  have entered : ∃ target h', enter toposort input.now run.handle = .ok target h' ∧ h'.graph = run.handle.graph ∧
      target ≤ max 1 run.handle.job.request.maxAgents := by
    rcases enter_cases (Or.inl planned) input.now with
      ⟨_, target, h', done, graph, _⟩ | ⟨running, _⟩ | ⟨node, _, cyclic, _⟩
    · have bounds := enter_target (h := run.handle) toposort input.now
      rw [Ensures, done] at bounds
      exact ⟨target, h', done, graph, bounds.2⟩
    · rw [planned] at running
      cases running
    · exact absurd cyclic (acyclic node)
  obtain ⟨target, h', done, graph, within⟩ := entered
  have enough : ¬ config.maxClusterAgents < shared.clusterAgents + target := by omega
  have spawned : Succeeds (do
      spawnAgents config input.agentIds target input.now
      pure Pc.top) h' (fun pc h'' => pc = .top ∧ SameCore h' h'') := by
    unfold Succeeds
    rw [ensures_bind]
    exact spawnAgents_succeeds.mono (fun _ _ same => ⟨rfl, same⟩) (fun _ _ never => never)
  unfold stepIdle
  simp only [planned, JobStatus.isFinished, Bool.false_eq_true, if_false, done, if_neg enough]
  rcases exec_cases { run with handle := h', ticks := 0, paused := false, spawned := target } spawned with
    ⟨pc, h'', ran, rfl, same⟩ | ⟨e, h'', ran, never⟩
  · have graph' : h''.graph = run.handle.graph := same.graph.trans graph
    rw [ran]
    refine ⟨well.calm graph' (by rw [idle]; rfl), ⟨Nat.zero_le _, rfl, ?_⟩, fun absurd => by cases absurd⟩
    rw [graph']
    exact undone
  · exact never.elim

/-- A tick is begun: fewer tasks are complete than there are, so the budget is not spent. -/
theorem stepTop_goes (diligent : run.Diligent jobId shared.queue) (well : run.Well input.now shared.queue)
    (within : run.handle.graph.len ≤ config.maxTicks) (running : run.handle.control = .running)
    (atTop : run.pc = .top) (course : run.OnCourse config toposort shared) :
    Goes config toposort input (stepTop config input run, shared) := by
  simp only [JobRun.OnCourse, atTop] at course
  obtain ⟨ticks, unpaused, undone⟩ := course
  have fewer := diligent.navigable.done_lt undone
  have affordable : ¬ config.maxTicks < run.ticks + 1 := by omega
  have begun : Succeeds (beginTick run.paused input.now) run.handle
      (fun pc h' => h'.graph = run.handle.graph ∧ pc = .promoting run.handle.graph.ready 0) := by
    rw [unpaused]
    exact planTick_plans diligent.unlimited
  unfold stepTop
  simp only [if_neg affordable, running]
  rcases exec_cases { run with ticks := run.ticks + 1, paused := false } begun with
    ⟨pc, h', ran, graph, rfl⟩ | ⟨e, h', ran, never⟩
  · rw [ran]
    refine ⟨well.calm graph (by rw [atTop]; rfl), ?_, fun absurd => by cases absurd⟩
    simp only [JobRun.OnCourse]
    rw [graph]
    refine ⟨Nat.succ_le_succ ticks, diligent.navigable.workable well.states ?_ undone⟩
    intro task busy
    obtain ⟨dispatch, member, _⟩ := diligent.inHand task busy
    rw [atTop] at member
    cases member
  · exact never.elim

/-- A ready task is queued. -/
theorem promoting_goes (diligent : run.Diligent jobId shared.queue) (well : run.Well input.now shared.queue)
    (exact : run.handle.graph.Exact) {task : TaskId} {rest : List TaskId} {queued : Nat}
    (promoting : run.pc = .promoting (task :: rest) queued) (course : run.OnCourse config toposort shared) :
    Goes config toposort input (step config toposort input run shared) := by
  simp only [JobRun.OnCourse, promoting] at course
  have live := diligent.sound.live (by rw [promoting]; rfl)
  obtain ⟨state, known, fresh⟩ := (diligent.lawful.todo _ _ promoting).2 task List.mem_cons_self
  have promotable := diligent.sound.todo _ _ promoting task List.mem_cons_self
  have promotes : Ensures (promote config task input.now) run.handle _ _ :=
    (promote_touches live (fun node found => (promotable node found).1)).and (promote_sets known fresh)
  rcases promotes.cases with ⟨node, h', done, ⟨touches, _, earlier, before, same, _⟩, _⟩ | ⟨_, _, _, _, never⟩
  · have keyed : earlier.id = task := diligent.navigable.keyed before
    have id : node.id = task := by rw [same]; exact keyed
    have exactly : node.requiredCapabilities = node.kind.requiredCapabilities := by
      rw [same]
      exact exact task earlier before
    have emits : Succeeds (do
        emit
        pure (Pc.promoting rest (queued + 1))) h' (fun pc h'' => pc = .promoting rest (queued + 1) ∧
          h''.graph = h'.graph) :=
      ⟨rfl, rfl⟩
    simp only [step, promoting, done]
    rcases exec_cases { run with handle := h', pc := .promoting (task :: rest) queued } emits with
      ⟨pc, h'', ran, rfl, graph⟩ | ⟨e, h'', ran, never⟩
    · rw [ran]
      have states : ∀ other, h''.graph.stateOf other =
          if other = task then some .queued else run.handle.graph.stateOf other := by
        rw [graph]
        exact touches.states
      refine ⟨well.promoted (by rw [promoting]; rfl) rfl id exactly states _ _, ?_, fun absurd => by cases absurd⟩
      refine ⟨Nat.le_trans course.1 (Nat.succ_le_succ ?_), Or.inr ⟨task, by rw [states, if_pos rfl]⟩⟩
      refine diligent.navigable.done_mono ?_ ?_
      · change h''.graph.Navigable
        rw [graph]
        exact moves_navigable touches.moves diligent.navigable
      · intro other complete
        have apart : other ≠ task := by
          rintro rfl
          rw [known] at complete
          cases complete
          cases fresh
        change h''.graph.stateOf other = _
        rw [states, if_neg apart]
        exact complete
    · exact never.elim
  · exact never.elim

/-- A crew with nothing in hand is free. -/
theorem available_of_crew {agents : List AgentDescriptor} (crew : Crew agents []) (some : agents ≠ []) :
    0 < agents.countP AgentDescriptor.isAvailable := by
  obtain ⟨agent, member⟩ := List.exists_mem_of_ne_nil agents some
  refine List.countP_pos_iff.mpr ⟨agent, member, ?_⟩
  rcases crew.resting agent member with ⟨idle, _⟩ | ⟨_, absurd, _⟩
  · simp [AgentDescriptor.isAvailable, idle]
  · cases absurd

/-- Idle agents beyond the first are reclaimed, and what is left has room for a task. -/
theorem reclaiming_goes (well : run.Well input.now shared.queue) (orderly : run.Orderly) {promoted depth : Nat}
    (reclaiming : run.pc = .reclaiming promoted depth) (course : run.OnCourse config toposort shared)
    {agents : List AgentDescriptor} {reclaimed : Nat}
    (same : (if depth = 0 then
      reclaim (input.now - milliseconds (asI64 config.agentIdleTimeoutMs)) run.handle.agents.length run.handle.agents
      else (run.handle.agents, 0)) = (agents, reclaimed)) (left : Nat) :
    Goes config toposort input (exec { run with handle := { run.handle with agents := agents } } (do
      if 0 < reclaimed then emit
      pure (.collecting (agents.countP AgentDescriptor.isAvailable) [] promoted)),
      { shared with clusterAgents := left }) := by
  simp only [JobRun.OnCourse, reclaiming] at course
  have crew := orderly.crew (by rw [reclaiming]; rfl)
  have some := orderly.inhabited (by rw [reclaiming]; rfl)
  rw [reclaiming] at crew
  have remains : Crew agents [] ∧ agents ≠ [] := by
    split at same
    · obtain ⟨crew', some'⟩ := reclaim_crew (input.now - milliseconds (asI64 config.agentIdleTimeoutMs))
        run.handle.agents.length crew
      rw [same] at crew' some'
      exact ⟨crew', some' some⟩
    · cases same
      exact ⟨crew, some⟩
  rcases exec_cases { run with handle := { run.handle with agents := agents } }
      (announced reclaimed { run.handle with agents := agents }
        (.collecting (agents.countP AgentDescriptor.isAvailable) [] promoted)) with
    ⟨pc, h, ran, ⟨_, graph⟩, rfl⟩ | ⟨e, h, ran, never⟩
  · rw [ran]
    have graph : h.graph = run.handle.graph := graph
    refine ⟨well.calm graph (by rw [reclaiming]; rfl), ?_, fun absurd => by cases absurd⟩
    simp only [JobRun.OnCourse]
    rw [graph]
    exact ⟨course.1, fun _ => ⟨available_of_crew remains.1 remains.2, course.2⟩⟩
  · exact never.elim

/-- With something in hand the loop goes on to the executions. -/
theorem collected_goes (well : run.Well input.now shared.queue) {left : Nat} {dispatches : List Dispatch}
    {promoted : Nat} (collecting : run.pc = .collecting left dispatches promoted)
    (course : run.OnCourse config toposort shared) (inHand : dispatches ≠ []) :
    Goes config toposort input ({ run with pc := collected run.handle dispatches promoted }, shared) := by
  simp only [JobRun.OnCourse, collecting] at course
  have on : collected run.handle dispatches promoted = .executing dispatches := by
    rw [collected, if_neg (by simpa using inHand)]
  rw [on]
  exact ⟨well.calm rfl (by rw [collecting]; rfl), ⟨course.1, inHand⟩, fun absurd => by cases absurd⟩

/-- What waits to be leased is ready and visible, so a poll comes to something. -/
theorem polls_stocked (diligent : run.Diligent jobId shared.queue)
    (well : run.Well input.now shared.queue) {left : Nat} {dispatches : List Dispatch} {promoted : Nat}
    (collecting : run.pc = .collecting left dispatches promoted) (stocked : run.handle.graph.Stocked)
    (worker : String) :
    (shared.queue.dequeueFrom worker [] [] input.now input.leaseId).1 ≠ none := by
  obtain ⟨task, queued⟩ := stocked
  have ready : shared.queue.HasReady task := by
    refine diligent.kept.ready diligent.sound (by rw [collecting]; rfl) (by rw [collecting]; rfl) ?_
    simp [TaskGraph.isLeasable, queued, TaskState.isLeasable]
  exact polls_ready ready well.visible worker input.leaseId

/-- Every entry the queue delivers is started. -/
theorem receive_goes (diligent : run.Diligent jobId shared.queue) (well : run.Well input.now shared.queue)
    (orderly : run.Orderly) (favours : Favours input run shared.queue) {left : Nat} {dispatches : List Dispatch}
    {promoted : Nat} (collecting : run.pc = .collecting (left + 1) dispatches promoted)
    (course : run.OnCourse config toposort shared) {lease : TaskLease} {q : InMemoryQueue}
    (polled : shared.queue.dequeueFrom (worker config) [] [] input.now input.leaseId = (some lease, q)) :
    Goes config toposort input (receive config input run lease left dispatches promoted,
      { shared with queue := q }) := by
  simp only [JobRun.OnCourse, collecting] at course
  obtain ⟨entry, _, _, taken, _, task, _⟩ := dequeueFrom_some polled
  have payload : lease.task.payload = entry.payload := by rw [task]
  have member : entry ∈ shared.queue.ready := taken.mem_iff.mpr List.mem_cons_self
  have queued : run.handle.graph.stateOf lease.task.payload.id = some .queued := by
    rw [payload]
    exact well.waiting entry member
  have leasable : (run.handle.graph.stateOf lease.task.payload.id).any TaskState.isLeasable = true := by
    rw [queued]
    rfl
  have exactly : lease.task.payload.requiredCapabilities = lease.task.payload.kind.requiredCapabilities := by
    rw [payload]
    exact well.fitted entry member
  have crew := orderly.crew (by rw [collecting]; rfl)
  have enough := orderly.enough
  rw [collecting] at enough
  obtain ⟨found, agents, acquires, acquired⟩ :=
    crew.acquire config input.preference (favours.draws.2 0) input.now run.handle.job.id lease.task.payload
  obtain ⟨agent, rfl⟩ := Option.isSome_iff_exists.mp
    (acquired.succeeds exactly (Nat.lt_of_lt_of_le (Nat.succ_pos left) enough))
  have live : JobHandle.Live { run.handle with agents := agents } := diligent.sound.live (by rw [collecting]; rfl)
  have starts : Succeeds (do
      let dispatch ← startTask config lease agent input.now
      pure (Pc.collecting left (dispatches ++ [dispatch]) promoted)) { run.handle with agents := agents }
      (fun pc h' => ∃ dispatch, pc = .collecting left (dispatches ++ [dispatch]) promoted ∧ dispatch.lease = lease ∧
        Touches { run.handle with agents := agents } h' lease.task.payload.id .running) := by
    unfold Succeeds
    rw [ensures_bind]
    have started : Ensures (startTask config lease agent input.now) { run.handle with agents := agents } _ _ :=
      (startTask_touches live leasable).and (startTask_sets leasable)
    exact started.mono (fun dispatch _ both => ⟨dispatch, rfl, both.1.2.1, both.1.1⟩) (fun _ _ both => both.2)
  unfold receive
  simp only [leasable, if_true, acquires]
  rcases exec_cases { run with handle := { run.handle with agents := agents } } starts with
    ⟨pc, h', ran, dispatch, rfl, sameLease, touches⟩ | ⟨e, h', ran, never⟩
  · rw [ran]
    have apart : input.leaseId ∉ run.pc.dispatches.map (fun dispatch => dispatch.lease.leaseId) :=
      fun absurd => favours.fresh.2 (List.mem_append_left _ absurd)
    refine ⟨well.started diligent.solo.single polled apart sameLease (by rw [collecting]; rfl) touches.states, ?_,
      fun absurd => by cases absurd⟩
    refine ⟨Nat.le_trans course.1 (Nat.succ_le_succ ?_), fun empty => absurd empty (by simp)⟩
    have moves : Moves run.handle h' :=
      (Relation.ReflTransGen.single (.quiet ⟨rfl, rfl, rfl, rfl, rfl⟩)).trans touches.moves
    refine diligent.navigable.done_mono (moves_navigable moves diligent.navigable) ?_
    intro other complete
    change h'.graph.stateOf other = _
    rw [touches.states, if_neg]
    · exact complete
    · rintro rfl
      rw [queued] at complete
      cases complete
  · exact never.elim

/-- A valid result in time completes its task. -/
theorem applying_goes (diligent : run.Diligent jobId shared.queue) (well : run.Well input.now shared.queue)
    {dispatch : Dispatch} {outcome : Outcome} {rest : List (Dispatch × Outcome)}
    (applying : run.pc = .applying ((dispatch, outcome) :: rest)) (timely : input.now < dispatch.lease.expiresAt)
    (course : run.OnCourse config toposort shared) :
    Goes config toposort input (step config toposort input run shared) := by
  simp only [JobRun.OnCourse, applying] at course
  obtain ⟨ticks, _, valid⟩ := course
  have inHand : dispatch ∈ run.pc.dispatches := by
    rw [applying]
    exact List.mem_cons_self
  have running := (diligent.sound.dispatched dispatch inHand).1
  have held := well.held dispatch inHand
  have early : dispatch.lease.isExpired input.now = false := by
    unfold TaskLease.isExpired
    exact decide_eq_false (not_le.mpr timely)
  obtain ⟨h', stepped, sets⟩ := step_applying config toposort input shared diligent.sound applying
  have acknowledged : ∃ stats, shared.queue.acknowledge dispatch.lease.leaseId input.now =
      (.ok (), { shared.queue with leases := shared.queue.leases.erase dispatch.lease.leaseId, stats := stats }) := by
    rcases acknowledge_cases diligent.solo.live dispatch.lease.leaseId input.now with
      ⟨absent, _⟩ | ⟨lease, _, found, expired, _⟩ | ⟨_, _, _, same⟩
    · rw [held] at absent
      cases absent
    · rw [held] at found
      cases found
      rw [early] at expired
      cases expired
    · exact ⟨_, same⟩
  obtain ⟨stats, done⟩ := acknowledged
  have good := valid (dispatch, outcome) List.mem_cons_self
  obtain ⟨result, rfl, passed⟩ : ∃ result, outcome = .returned (.ok result) ∧ result.passedValidation = true := by
    cases outcome with
    | returned answer =>
      cases answer with
      | ok result => exact ⟨result, rfl, good⟩
      | error e => cases good
    | elapsed => cases good
  have state : settledState shared.queue dispatch (.returned (.ok result)) input.now = .completed := by
    simp only [settledState, passed, if_true, done]
  have queue : (applyOutcome config shared.queue run.handle dispatch (.returned (.ok result)) input.now).1 =
      { shared.queue with leases := shared.queue.leases.erase dispatch.lease.leaseId, stats := stats } := by
    simp only [applyOutcome, passed, if_true, done]
  rw [state] at sets
  have stepped' : Stepped input run shared.queue (step config toposort input run shared).1
      (step config toposort input run shared).2.queue :=
    step_stepped diligent.sound diligent.navigable diligent.owned (by rw [applying]; rintro _ _ ⟨⟩)
  rw [stepped] at stepped' ⊢
  have more : run.handle.graph.done + 1 ≤ h'.graph.done := by
    refine diligent.navigable.done_succ (moves_navigable stepped'.moves diligent.navigable) ?_ sets.states
    rw [running]
    simp
  have enough : run.ticks ≤ h'.graph.done := Nat.le_trans ticks more
  refine ⟨well.settled (by rw [applying]; rfl) rfl diligent.solo.ids running ?_ ?_ sets.states, ?_,
    fun absurd => by cases absurd⟩
  · simp only [queue]
  · simp only [queue]
  · exact ⟨Nat.le_succ_of_le enough, fun _ => enough, fun entry member => valid entry (List.mem_cons_of_mem _ member)⟩

/-- Every task of a well job that is over is complete. -/
theorem finished_of_isComplete (well : run.Well input.now shared.queue)
    (complete : run.handle.graph.isComplete = true) :
    run.handle.graph.Finished := by
  simp only [TaskGraph.isComplete, Bool.and_eq_true, List.all_eq_true] at complete
  intro task state found
  obtain ⟨node, known, rfl⟩ := Option.map_eq_some_iff.mp found
  have terminal : node.state.isTerminal = true :=
    complete.2 node (Dict.mem_values.mpr ⟨task, Dict.get?_eq_some.mp known⟩)
  rcases TaskState.isWell_cases (well.states task node.state found) with (here | here) | here | here | here
  · rw [here] at terminal
    cases terminal
  · rw [here] at terminal
    cases terminal
  · rw [here] at terminal
    cases terminal
  · rw [here] at terminal
    cases terminal
  · exact here

/-- The outcomes of all executions are applied next. -/
theorem executing_goes (well : run.Well input.now shared.queue) (favours : Favours input run shared.queue)
    {dispatches : List Dispatch} (executing : run.pc = .executing dispatches)
    (course : run.OnCourse config toposort shared) :
    Goes config toposort input (step config toposort input run shared) := by
  have stays := course
  simp only [JobRun.OnCourse, executing] at course
  simp only [step, executing]
  split
  · rename_i outcomes known
    obtain ⟨same, _⟩ := zip_fst (favours.answered dispatches outcomes executing known)
    have inHand : dispatches.zip outcomes ≠ [] := by
      intro none
      rw [none] at same
      exact course.2 same.symm
    refine ⟨well.calm rfl (by rw [executing]; exact same), ⟨course.1, fun none => absurd none inHand, ?_⟩,
      fun absurd => by cases absurd⟩
    exact fun entry member => favours.valid dispatches outcomes executing known entry.2 (List.of_mem_zip member).2
  · rw [if_neg (by rw [favours.running]; simp)]
    exact ⟨well, stays, by rw [executing]; exact fun absurd => by cases absurd⟩

theorem applied_goes (diligent : run.Diligent jobId shared.queue) (well : run.Well input.now shared.queue)
    (inhabited : run.handle.graph.nodes.entries ≠ []) (applying : run.pc = .applying [])
    (course : run.OnCourse config toposort shared) :
    Goes config toposort input (step config toposort input run shared) := by
  simp only [JobRun.OnCourse, applying] at course
  have ticks := course.2.1 trivial
  have unpaused := (diligent.sound.ticking (by rw [applying]; rfl)).1
  simp only [step, applying]
  cases complete : run.handle.graph.isComplete with
  | true =>
    rw [if_pos rfl]
    have finished := finished_of_isComplete well complete
    exact ⟨well.calm rfl (by rw [applying]; rfl), ⟨ticks, rfl, finished⟩,
      fun absurd => by cases absurd⟩
  | false =>
    rw [if_neg (by simp)]
    obtain ⟨task, state, found, unfinished⟩ := TaskGraph.exists_unfinished inhabited complete
    refine ⟨well.calm rfl (by rw [applying]; rfl), ⟨ticks, unpaused, task, state, found, ?_⟩,
      fun absurd => by cases absurd⟩
    rintro rfl
    cases unfinished

/-- With every task complete the job is, and its final result says so. -/
theorem finishing_goes (diligent : run.Diligent jobId shared.queue) (well : run.Well input.now shared.queue)
    {cancelled : Bool} (finishing : run.pc = .finishing cancelled) (course : run.OnCourse config toposort shared) :
    Goes config toposort input (step config toposort input run shared) := by
  simp only [JobRun.OnCourse, finishing] at course
  obtain ⟨ticks, rfl, complete⟩ := course
  have suits := diligent.lawful.suits
  rw [finishing] at suits
  have finishes : Succeeds (finish false run.spawned input) run.handle _ := finish_succeeds suits
  obtain ⟨pc, h', done, ⟨result, rfl, same, final⟩, graph, status⟩ := finishes.ok
  have completed : h'.job.status = .completed := by
    rw [status, finalStatus, if_neg (by simp), if_pos complete.counts]
  simp only [step, finishing, done]
  refine ⟨well.calm graph (by rw [finishing]; rfl), ?_, fun absurd => by cases absurd⟩
  simp only [JobRun.OnCourse]
  rw [graph]
  exact ⟨ticks, complete, completed, result, rfl, same.trans completed, final⟩

/-- A completed job gives its result again. -/
theorem returned_goes (well : run.Well input.now shared.queue) {answer : Except SwarmError FinalResult}
    (returned : run.pc = .returned answer) (course : run.OnCourse config toposort shared) :
    Goes config toposort input (stepIdle config toposort input run shared) := by
  simp only [JobRun.OnCourse, returned] at course
  obtain ⟨ticks, complete, completed, result, _, same, final⟩ := course
  simp only [stepIdle, completed, JobStatus.isFinished, if_true, final]
  exact ⟨well.calm rfl (by rw [returned]; rfl), ⟨ticks, complete, completed, result, rfl, same, final⟩,
    fun absurd => by cases absurd⟩

/-- A step within a tick that only moves on. -/
theorem goes_stocked (well : run.Well input.now shared.queue) (empty : run.pc.dispatches = []) {pc : Pc}
    (next : (∃ promoted, pc = .maintaining promoted) ∨ (∃ promoted depth, pc = .scaling promoted depth) ∨
      (∃ agentType promoted depth, pc = .growing agentType promoted depth) ∨
      ∃ promoted depth, pc = .reclaiming promoted depth)
    (ticks : run.ticks ≤ run.handle.graph.done + 1) (stocked : run.handle.graph.Stocked) :
    Goes config toposort input ({ run with pc := pc }, shared) := by
  rcases next with ⟨_, rfl⟩ | ⟨_, _, rfl⟩ | ⟨_, _, _, rfl⟩ | ⟨_, _, rfl⟩ <;>
    exact ⟨well.calm rfl empty.symm, ⟨ticks, stocked⟩, fun absurd => by cases absurd⟩

theorem growing_goes (well : run.Well input.now shared.queue) {agentType : AgentType} {promoted depth : Nat}
    (growing : run.pc = .growing agentType promoted depth) (course : run.OnCourse config toposort shared) :
    Goes config toposort input (step config toposort input run shared) := by
  simp only [JobRun.OnCourse, growing] at course
  have grows : Succeeds (do
      growPool config (input.agentIds 0) agentType input.now
      pure (Pc.reclaiming promoted depth)) run.handle
      (fun pc h' => pc = .reclaiming promoted depth ∧ SameCore run.handle h') := by
    unfold Succeeds
    rw [ensures_bind]
    exact growPool_succeeds.mono (fun _ _ same => ⟨rfl, same⟩) (fun _ _ never => never)
  simp only [step, growing]
  rcases exec_cases run grows with ⟨pc, h', ran, rfl, same⟩ | ⟨e, h', ran, never⟩
  · rw [ran]
    refine ⟨well.calm same.graph (by rw [growing]; rfl), ?_, fun absurd => by cases absurd⟩
    simp only [JobRun.OnCourse]
    rw [same.graph]
    exact course
  · exact never.elim

end Engine

/-- A job that nothing goes wrong with, on a queue of its own. -/
structure JobRun.Thriving (config : CoordinatorConfig)
    (toposort : DiGraph TaskId → Except Nat (List Nat)) (jobId : JobId) (size : Nat) (clock : DateTime)
    (shared : Shared) (run : JobRun) : Prop where
  diligent : run.Diligent jobId shared.queue
  orderly : run.Orderly
  exact : run.handle.graph.Exact
  inhabited : run.handle.graph.nodes.entries ≠ []
  within : run.handle.graph.len ≤ size
  well : run.Well clock shared.queue
  course : run.OnCourse config toposort shared

namespace Engine
variable {config : CoordinatorConfig} {toposort : DiGraph TaskId → Except Nat (List Nat)} {input : EngineInput}
  {run : JobRun} {shared : Shared} {jobId : JobId} {size : Nat} {clock : DateTime}

/-- Every step of the engine of a thriving job leaves the job well and on course. -/
theorem step_goes (thriving : run.Thriving config toposort jobId size clock shared)
    (affordable : size ≤ config.maxTicks) (onwards : clock ≤ input.now) (favours : Favours input run shared.queue) :
    Goes config toposort input (step config toposort input run shared) := by
  have course := thriving.course
  have diligent := thriving.diligent
  have orderly := thriving.orderly
  have well := thriving.well.later onwards
  cases here : run.pc with
  | idle =>
    simp only [step, here]
    exact stepIdle_goes well here course
  | returned answer =>
    simp only [step, here]
    exact returned_goes well here course
  | top =>
    simp only [step, here]
    exact stepTop_goes diligent well (Nat.le_trans thriving.within affordable) favours.running here course
  | promoting todo queued =>
    cases todo with
    | cons task rest => exact promoting_goes diligent well thriving.exact here course
    | nil =>
      simp only [JobRun.OnCourse, here] at course
      have empty : run.pc.dispatches = [] := by rw [here]; rfl
      simp only [step, here, requeueExpired_of_none (well.unleased empty)]
      exact goes_stocked well empty (Or.inl ⟨_, rfl⟩) course.1 (course.2.resolve_left (fun absurd => absurd rfl))
  | maintaining promoted =>
    simp only [JobRun.OnCourse, here] at course
    have empty : run.pc.dispatches = [] := by rw [here]; rfl
    simp only [step, here]
    split
    · exact goes_stocked well empty (Or.inr (Or.inl ⟨_, _, rfl⟩)) course.1 course.2
    · exact goes_stocked well empty (Or.inr (Or.inr (Or.inr ⟨_, _, rfl⟩))) course.1 course.2
  | scaling promoted depth =>
    simp only [JobRun.OnCourse, here] at course
    have empty : run.pc.dispatches = [] := by rw [here]; rfl
    simp only [step, here]
    split
    · split
      · exact goes_stocked well empty (Or.inr (Or.inr (Or.inl ⟨_, _, _, rfl⟩))) course.1 course.2
      · exact goes_stocked well empty (Or.inr (Or.inr (Or.inr ⟨_, _, rfl⟩))) course.1 course.2
    · exact goes_stocked well empty (Or.inr (Or.inr (Or.inr ⟨_, _, rfl⟩))) course.1 course.2
  | growing agentType promoted depth => exact growing_goes well here course
  | reclaiming promoted depth =>
    unfold step
    rw [here]
    simp only
    generalize same : (if depth = 0 then
      reclaim (input.now - milliseconds (asI64 config.agentIdleTimeoutMs)) run.handle.agents.length run.handle.agents
      else (run.handle.agents, 0)) = pool
    obtain ⟨agents, reclaimed⟩ := pool
    have goes : Goes config toposort input _ :=
      reclaiming_goes well orderly here course same (fetchSub shared.clusterAgents reclaimed)
    rw [here] at goes
    exact goes
  | collecting left dispatches promoted =>
    have stocked := course
    simp only [JobRun.OnCourse, here] at stocked
    cases left with
    | zero =>
      simp only [step, here]
      refine collected_goes well here course ?_
      intro none
      exact absurd (stocked.2 none).1 (Nat.lt_irrefl 0)
    | succ left =>
      simp only [step, here]
      split
      · rename_i q polled
        rw [dequeueFrom_none polled]
        refine collected_goes well here course ?_
        intro none
        refine polls_stocked diligent well here (stocked.2 none).2 (worker config) ?_
        rw [polled]
      · rename_i lease q polled
        exact receive_goes diligent well orderly favours here course polled
  | executing dispatches => exact executing_goes well favours here course
  | applying todo =>
    cases todo with
    | nil => exact applied_goes diligent well thriving.inhabited here course
    | cons first rest => exact applying_goes diligent well here (favours.timely _ _ _ here) course
  | finishing cancelled => exact finishing_goes diligent well here course
  | refunding | waiting | dropping | releasing | deciding | cancelling =>
    simp only [JobRun.OnCourse, here] at course

end Engine

end Swarm
