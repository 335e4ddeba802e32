import Swarm.Coordinator.Legality

namespace Swarm
open JobHandle Act

/-- The job statuses that go with a point of the engine. -/
def Pc.Suits (pc : Pc) (paused : Bool) (status : JobStatus) : Prop :=
  match pc with
  | .idle => status = .planning ∨ status.isFinished = true
  | .top => status = if paused then .paused else .running
  | .waiting => paused = true ∧ status = .paused
  | .cancelling | .finishing true => status = .running ∨ status = .paused
  | .returned (.ok _) => status.isFinished = true
  | .returned (.error _) => status = .running ∨ status = .paused ∨ status.isFinished = true
  | _ => status = .running

/-- What makes every move of an engine legal. -/
structure JobRun.Lawful (run : JobRun) : Prop where
  resting : run.handle.graph.Resting
  suits : run.pc.Suits run.paused run.handle.job.status
  todo : ∀ todo queued, run.pc = .promoting todo queued → todo.Nodup ∧
    ∀ task ∈ todo, ∃ state, run.handle.graph.stateOf task = some state ∧ state.isFresh = true

/-- The statuses in which `run_job` can find a job. -/
theorem JobRun.Lawful.startable {run : JobRun} (lawful : run.Lawful) (inactive : run.pc.isActive = false) :
    run.handle.job.status.isFinished = true ∨ run.handle.job.status = .planning ∨
      run.handle.job.status = .running ∨ run.handle.job.status = .paused := by
  have suits := lawful.suits
  cases here : run.pc with
  | idle =>
    rw [here] at suits
    rcases suits with planned | finished
    · exact Or.inr (Or.inl planned)
    · exact Or.inl finished
  | returned answer =>
    rw [here] at suits
    cases answer with
    | ok result => exact Or.inl suits
    | error e =>
      rcases suits with running | paused | finished
      · exact Or.inr (Or.inr (Or.inl running))
      · exact Or.inr (Or.inr (Or.inr paused))
      · exact Or.inl finished
  | _ => rw [here] at inactive; cases inactive

/-- The ways in which `run_job` can end with an error. -/
inductive Exit (config : CoordinatorConfig) (toposort : DiGraph TaskId → Except Nat (List Nat)) (input : EngineInput)
    (run : JobRun) (shared : Shared) : SwarmError → Prop
  | unanswered : run.pc.isActive = false → run.handle.job.status.isFinished = true → run.handle.finalResult = none →
      Exit config toposort input run shared
        (.internal s!"job {run.handle.job.id.display} finished without a result")
  | barred : run.pc.isActive = false → run.handle.job.status = .running →
      Exit config toposort input run shared (.invalidTransition "job" "Running" "Running")
  | cyclic {node : Nat} : run.pc.isActive = false → toposort run.handle.graph.graph = .error node →
      Exit config toposort input run shared (run.handle.graph.cycleError node)
  | refused {claimed target : Nat} : run.pc = .refunding claimed target →
      Exit config toposort input run shared (.quotaExceeded
        s!"cluster has {claimed} of {config.maxClusterAgents} agents in use; job needs {target} more")
  | exhausted : run.pc = .top → config.maxTicks ≤ run.ticks →
      Exit config toposort input run shared (.internal
        s!"job {run.handle.job.id.display} exceeded its scheduling tick budget")
  | lost {leaseId : LeaseId} {dispatches : List Dispatch} {promoted : Nat} :
      run.pc = .releasing leaseId dispatches promoted → shared.queue.leases.get? leaseId = none →
      Exit config toposort input run shared (.queue s!"unknown or already-settled lease {leaseId.display}")

/-- A step that is lawful, and fails in one of the known ways if it fails. -/
structure Proceeds (config : CoordinatorConfig) (toposort : DiGraph TaskId → Except Nat (List Nat))
    (input : EngineInput) (run : JobRun) (shared : Shared) (run' : JobRun) : Prop where
  lawful : run'.Lawful
  exits : ∀ e, run'.pc = .returned (.error e) → Exit config toposort input run shared e

namespace Engine
variable {config : CoordinatorConfig} {toposort : DiGraph TaskId → Except Nat (List Nat)} {input : EngineInput}
  {run run' : JobRun} {shared : Shared} {h : JobHandle}

theorem setStatus_succeeds {target : JobStatus} (legal : target ∈ StateMachine.allowed h.job.status)
    (reason : Option String) (now : DateTime) :
    Succeeds (setStatus target reason now) h (fun _ h' => h' = { h with
      job := withStatus h.job target reason now
      journal := h.journal ++ [.jobStatusChanged h.job.id target reason now] }) := by
  simp only [setStatus, ensures_bind, ensures_get, ensures_liftExcept, ensures_set,
    StateMachine.transition_of_mem legal]
  refine ⟨?_, fun e absurd => by cases absurd⟩
  rintro _ ⟨⟩
  rfl

theorem idleAgent_ok (id : AgentId) (agentType : AgentType) (jobId : JobId) (now : DateTime) :
    ∃ agent, idleAgent config id agentType jobId now = .ok agent := ⟨_, rfl⟩

theorem spawnAgents_succeeds {ids : Nat → AgentId} {target : Nat} {now : DateTime} :
    Succeeds (spawnAgents config ids target now) h (fun _ h' => SameCore h h') := by
  simp only [spawnAgents, ensures_bind, ensures_get, ensures_liftExcept, ensures_modify]
  refine ⟨fun _ _ => ⟨rfl, rfl, rfl, rfl, rfl⟩, ?_⟩
  intro e failed
  obtain ⟨index, _, wrong⟩ := mapM_error failed
  obtain ⟨agent, right⟩ := idleAgent_ok (ids index) _ h.job.id now
  rw [right] at wrong
  cases wrong

theorem agentTarget_error {e : SwarmError} (failed : agentTarget toposort h = .error e) :
    ∃ node, toposort h.graph.graph = .error node ∧ e = h.graph.cycleError node := by
  simp only [agentTarget, TaskGraph.layers, TaskGraph.topologicalOrder] at failed
  cases sorted : toposort h.graph.graph with
  | ok order => simp [sorted, bind, Except.bind, pure, Except.pure] at failed
  | error node =>
    simp only [sorted, bind, Except.bind] at failed
    cases failed
    exact ⟨node, rfl, rfl⟩

/-- A step that touches no task and does not plan a tick. -/
theorem proceeds_calm (lawful : run.Lawful) (graph : run'.handle.graph = run.handle.graph)
    (suits : run'.pc.Suits run'.paused run'.handle.job.status)
    (plain : ∀ todo queued, run'.pc ≠ .promoting todo queued)
    (exits : ∀ e, run'.pc = .returned (.error e) → Exit config toposort input run shared e) :
    Proceeds config toposort input run shared run' where
  lawful := ⟨by rw [graph]; exact lawful.resting, suits, fun todo queued here => absurd here (plain todo queued)⟩
  exits := exits

theorem setStatus_barred {target : JobStatus} (illegal : target ∉ StateMachine.allowed h.job.status)
    (reason : Option String) (now : DateTime) :
    setStatus target reason now h = .error
      (.invalidTransition "job" (StateMachine.debug h.job.status) (StateMachine.debug target)) h := by
  have refused : StateMachine.transition h.job.status target =
      .error (.invalidTransition "job" (StateMachine.debug h.job.status) (StateMachine.debug target)) :=
        if_neg illegal
  rw [setStatus, Act.get_bind, refused]
  rfl

/-- A run may start from a planned or a paused job; a job that is left running cannot be run again. -/
theorem enter_cases (suits : h.job.status = .planning ∨ h.job.status = .running ∨ h.job.status = .paused)
    (now : DateTime) :
    (h.job.status ≠ .running ∧ ∃ target h', enter toposort now h = .ok target h' ∧ h'.graph = h.graph ∧
      h'.job.status = .running) ∨
      (h.job.status = .running ∧ enter toposort now h = .error (.invalidTransition "job" "Running" "Running") h) ∨
      ∃ node h', toposort h.graph.graph = .error node ∧ enter toposort now h = .error (h.graph.cycleError node) h' ∧
        h'.graph = h.graph ∧ h'.job.status = .running := by
  by_cases running : h.job.status = .running
  · have illegal : JobStatus.running ∉ StateMachine.allowed h.job.status := by rw [running]; decide
    refine Or.inr (Or.inl ⟨running, ?_⟩)
    have barred := setStatus_barred illegal none now
    simp only [enter, bind, EStateM.bind, barred, running]
    rfl
  · have legal : JobStatus.running ∈ StateMachine.allowed h.job.status := by
      rcases suits with same | same | same
      · rw [same]; decide
      · exact absurd same running
      · rw [same]; decide
    have entered : Ensures (enter toposort now) h
        (fun _ h' => h'.graph = h.graph ∧ h'.job.status = .running)
        (fun e h' => ∃ node, toposort h.graph.graph = .error node ∧ e = h.graph.cycleError node ∧
          h'.graph = h.graph ∧ h'.job.status = .running) := by
      unfold enter
      rw [ensures_bind]
      refine (setStatus_succeeds legal none now).mono ?_ (fun _ _ never => never.elim)
      rintro _ _ rfl
      simp only [ensures_bind, ensures_get, ensures_liftExcept]
      refine ⟨fun _ _ => ⟨trivial, rfl⟩, ?_⟩
      intro e failed
      obtain ⟨node, cyclic, same⟩ := agentTarget_error failed
      exact ⟨node, cyclic, same, trivial, rfl⟩
    rcases entered.cases with ⟨target, h', done, stays⟩ | ⟨e, h', failed, node, cyclic, rfl, stays⟩
    · exact Or.inl ⟨running, target, h', done, stays⟩
    · exact Or.inr (Or.inr ⟨node, h', cyclic, failed, stays⟩)

/-- The start of a run. -/
theorem stepIdle_proceeds (lawful : run.Lawful) (inactive : run.pc.isActive = false) :
    Proceeds config toposort input run shared (stepIdle config toposort input run shared).1 := by
  unfold stepIdle
  simp only
  split
  · rename_i finished
    split
    · exact proceeds_calm lawful rfl finished (by simp) (by simp)
    · rename_i none
      refine proceeds_calm lawful rfl (Or.inr (Or.inr finished)) (by simp) ?_
      rintro e ⟨⟩
      exact .unanswered inactive finished none
  · rename_i unfinished
    rcases enter_cases ((lawful.startable inactive).resolve_left unfinished) input.now with
      ⟨_, target, h', entered, graph, running⟩ | ⟨running, entered⟩ | ⟨node, h', cyclic, entered, graph, running⟩
    · rw [entered]
      simp only
      split
      · exact proceeds_calm lawful graph running (by simp) (by simp)
      · have spawned : Succeeds (do
            spawnAgents config input.agentIds target input.now
            pure Pc.top) h' (fun pc h'' => pc = .top ∧ SameCore h' h'') := by
          unfold Succeeds
          rw [ensures_bind]
          exact spawnAgents_succeeds.mono (fun _ _ same => ⟨rfl, same⟩) (fun _ _ never => never)
        rcases exec_cases { run with handle := h', ticks := 0, paused := false, spawned := target } spawned with
          ⟨pc, h'', ran, rfl, same⟩ | ⟨e, h'', ran, never⟩
        · rw [ran]
          refine proceeds_calm lawful (same.graph.trans graph) ?_ (by simp) (by simp)
          change h''.job.status = .running
          rw [same.job]
          exact running
        · exact never.elim
    · rw [entered]
      refine proceeds_calm lawful rfl (Or.inl running) (by simp) ?_
      rintro e ⟨⟩
      exact .barred inactive running
    · rw [entered]
      refine proceeds_calm lawful graph (Or.inl running) (by simp) ?_
      rintro e ⟨⟩
      exact .cyclic inactive cyclic

/-- The top of the loop. -/
theorem stepTop_proceeds (lawful : run.Lawful) (navigable : run.handle.graph.Navigable) (atTop : run.pc = .top) :
    Proceeds config toposort input run shared (stepTop config input run) := by
  have status : run.handle.job.status = if run.paused then .paused else .running := by
    have suits := lawful.suits
    rw [atTop] at suits
    exact suits
  unfold stepTop
  simp only
  split
  · rename_i spent
    refine proceeds_calm lawful rfl ?_ (by simp) ?_
    · change run.handle.job.status = .running ∨ run.handle.job.status = .paused ∨ _
      cases paused : run.paused <;> simp [status, paused]
    · rintro e ⟨⟩
      exact .exhausted atTop (Nat.le_of_lt_succ spent)
  · split
    · refine proceeds_calm lawful rfl ?_ (by simp) (by simp)
      change run.handle.job.status = .running ∨ run.handle.job.status = .paused
      cases paused : run.paused <;> simp [status, paused]
    · split
      · rename_i paused
        refine proceeds_calm lawful rfl ?_ (by simp) (by simp)
        exact ⟨paused, by rw [status, paused]; rfl⟩
      · rename_i unpaused
        have running : run.handle.job.status = .running := by
          rw [status]
          exact if_neg unpaused
        have pauses : Succeeds (do
            setStatus .paused (some "operator paused") input.now
            pure Pc.waiting) run.handle
            (fun pc h' => pc = .waiting ∧ h'.graph = run.handle.graph ∧ h'.job.status = .paused) := by
          unfold Succeeds
          rw [ensures_bind]
          refine (setStatus_succeeds (by rw [running]; decide) _ _).mono ?_ (fun _ _ never => never)
          rintro _ _ rfl
          exact ⟨rfl, rfl, rfl⟩
        rcases exec_cases { run with ticks := run.ticks + 1, paused := true } pauses with
          ⟨pc, h', ran, rfl, graph, paused⟩ | ⟨e, h', ran, never⟩
        · rw [ran]
          exact proceeds_calm lawful graph ⟨rfl, paused⟩ (by simp) (by simp)
        · exact never.elim
    · have begins : Succeeds (beginTick run.paused input.now) run.handle
          (fun pc h' => h'.graph = run.handle.graph ∧ h'.job.status = .running ∧
            (pc = .finishing false ∨ pc = .promoting run.handle.graph.ready 0)) := by
        unfold beginTick
        cases paused : run.paused with
        | true =>
          have legal : JobStatus.running ∈ StateMachine.allowed run.handle.job.status := by
            rw [status, paused]
            decide
          simp only [if_true, ensures_bind]
          refine (setStatus_succeeds legal _ _).mono ?_ (fun _ _ never => never)
          rintro _ _ rfl
          refine planTick_relabels.mono ?_ (fun _ _ never => never)
          rintro pc h' ⟨same, next⟩
          exact ⟨same.graph, by rw [same.job]; rfl, next⟩
        | false =>
          refine planTick_relabels.mono ?_ (fun _ _ never => never)
          rintro pc h' ⟨same, next⟩
          refine ⟨same.graph, ?_, next⟩
          rw [same.job, status, paused]
          rfl
      rcases exec_cases { run with ticks := run.ticks + 1, paused := false } begins with
        ⟨pc, h', ran, graph, running, next⟩ | ⟨e, h', ran, never⟩
      · rw [ran]
        rcases next with rfl | rfl
        · exact proceeds_calm lawful graph running (by simp) (by simp)
        · refine ⟨⟨by rw [graph]; exact lawful.resting, running, ?_⟩, by simp⟩
          rintro todo queued ⟨⟩
          refine ⟨navigable.nodup_ready, ?_⟩
          intro task member
          obtain ⟨node, found, waits, _⟩ := navigable.mem_ready.mp member
          refine ⟨node.state, by rw [graph]; simp [TaskGraph.stateOf, found], ?_⟩
          rcases waits with same | same <;> rw [same] <;> rfl
      · exact never.elim

/-- Work on one task. -/
theorem proceeds_sets (lawful : run.Lawful) {task : TaskId} {state : TaskState}
    (sets : Sets run.handle run'.handle task state) (rests : state.isResting = true)
    (suits : run'.pc.Suits run'.paused run'.handle.job.status)
    (plain : ∀ todo queued, run'.pc ≠ .promoting todo queued) (going : ∀ answer, run'.pc ≠ .returned answer) :
    Proceeds config toposort input run shared run' where
  lawful := ⟨sets.resting rests lawful.resting, suits, fun todo queued here => absurd here (plain todo queued)⟩
  exits _ here := absurd here (going _)

theorem promoting_proceeds (sound : run.Sound) (lawful : run.Lawful) {task : TaskId}
    {rest : List TaskId} {queued : Nat} (promoting : run.pc = .promoting (task :: rest) queued) :
    Proceeds config toposort input run shared (step config toposort input run shared).1 := by
  have running := (sound.ticking (by rw [promoting]; rfl)).2
  obtain ⟨distinct, fresh⟩ := lawful.todo _ _ promoting
  obtain ⟨apart, others⟩ := List.nodup_cons.mp distinct
  obtain ⟨state, known, waits⟩ := fresh task List.mem_cons_self
  have promotes : Succeeds (promote config task input.now) run.handle _ := promote_sets known waits
  obtain ⟨node, h', done, sets⟩ := promotes.ok
  simp only [step, promoting, done]
  refine ⟨⟨?_, ?_, ?_⟩, ?_⟩
  · exact sets.resting rfl lawful.resting
  · change h'.job.status = .running
    rw [sets.job]
    exact running
  · rintro todo count ⟨⟩
    refine ⟨others, ?_⟩
    intro other member
    have different : other ≠ task := fun same => apart (same ▸ member)
    obtain ⟨state, known, waits⟩ := fresh other (List.mem_cons_of_mem _ member)
    refine ⟨state, ?_, waits⟩
    change h'.graph.stateOf other = some state
    rw [sets.states, if_neg different]
    exact known
  · exact fun _ absurd => by cases absurd

theorem receive_proceeds (sound : run.Sound) (lawful : run.Lawful) {lease : TaskLease} {left : Nat}
    {dispatches : List Dispatch} {promoted : Nat} (ticking : run.pc.isTicking = true) :
    Proceeds config toposort input run shared (receive config input run lease left dispatches promoted) := by
  have running := (sound.ticking ticking).2
  unfold receive
  simp only
  split
  · rename_i leasable
    split
    · exact proceeds_calm lawful rfl running (by simp) (by simp)
    · rename_i agent agents _
      have starts : Succeeds (do
          let dispatch ← startTask config lease agent input.now
          pure (Pc.collecting left (dispatches ++ [dispatch]) promoted)) { run.handle with agents := agents }
          (fun pc h' => (∃ dispatch, pc = .collecting left (dispatches ++ [dispatch]) promoted) ∧
            Sets run.handle h' lease.task.payload.id .running) := by
        unfold Succeeds
        rw [ensures_bind]
        have started : Succeeds (startTask config lease agent input.now) { run.handle with agents := agents } _ :=
          startTask_sets leasable
        refine started.mono ?_ (fun _ _ never => never)
        intro dispatch h' sets
        exact ⟨⟨dispatch, rfl⟩, sets.job, sets.states⟩
      rcases exec_cases { run with handle := { run.handle with agents := agents } } starts with
        ⟨pc, h', ran, ⟨dispatch, rfl⟩, sets⟩ | ⟨e, h', ran, never⟩
      · rw [ran]
        refine proceeds_sets lawful sets rfl ?_ (by simp) (by simp)
        change h'.job.status = .running
        rw [sets.job]
        exact running
      · exact never.elim
  · exact proceeds_calm lawful rfl running (by simp) (by simp)

/-- An outcome is always applied. -/
theorem step_applying (config : CoordinatorConfig) (toposort : DiGraph TaskId → Except Nat (List Nat))
    (input : EngineInput) (shared : Shared) (sound : run.Sound) {dispatch : Dispatch} {outcome : Outcome}
    {rest : List (Dispatch × Outcome)} (applying : run.pc = .applying ((dispatch, outcome) :: rest)) :
    ∃ h', step config toposort input run shared = ({ run with handle := h', pc := .applying rest },
        { shared with queue := (applyOutcome config shared.queue run.handle dispatch outcome input.now).1 }) ∧
      Sets run.handle h' dispatch.task.id (settledState shared.queue dispatch outcome input.now) := by
  have inHand : dispatch ∈ run.pc.dispatches := by
    rw [applying]
    exact List.mem_cons_self
  have applies : Succeeds (applyOutcome config shared.queue run.handle dispatch outcome input.now).2 run.handle _ :=
    applyOutcome_sets (sound.dispatched dispatch inHand).1
  obtain ⟨_, h', done, sets⟩ := applies.ok
  refine ⟨h', ?_, sets⟩
  simp only [step, applying, exec, bind, EStateM.bind, done]
  rfl

theorem applying_proceeds (sound : run.Sound) (lawful : run.Lawful) {dispatch : Dispatch} {outcome : Outcome}
    {rest : List (Dispatch × Outcome)} (applying : run.pc = .applying ((dispatch, outcome) :: rest)) :
    Proceeds config toposort input run shared (step config toposort input run shared).1 := by
  have running := (sound.ticking (by rw [applying]; rfl)).2
  obtain ⟨h', stepped, sets⟩ := step_applying config toposort input shared sound applying
  rw [stepped]
  refine proceeds_sets lawful sets (settledState_resting _ _ _ _) ?_ (by simp) (by simp)
  change h'.job.status = .running
  rw [sets.job]
  exact running

theorem finalStatus_allowed (counts : GraphCounts) :
    finalStatus false counts ∈ StateMachine.allowed JobStatus.aggregating := by
  unfold finalStatus
  simp only [Bool.false_eq_true, if_false]
  split
  · decide
  · split <;> decide

theorem conclude_succeeds {status : JobStatus} (legal : status ∈ StateMachine.allowed h.job.status) :
    Succeeds (conclude status input) h (fun pc h' => (∃ result, pc = .returned (.ok result) ∧ result.status = status ∧
      h'.finalResult = some result) ∧ h'.graph = h.graph ∧ h'.job.status = status) := by
  simp only [conclude, ensures_bind, ensures_get]
  refine (setStatus_succeeds legal _ _).mono ?_ (fun _ _ never => never)
  rintro _ _ rfl
  simp only [emit, ensures_modify, ensures_pure]
  exact ⟨⟨_, rfl, rfl, rfl⟩, trivial, rfl⟩

/-- A job can be brought to its final status. -/
theorem finish_succeeds {cancelled : Bool} {spawned : Nat}
    (suits : (Pc.finishing cancelled).Suits run.paused h.job.status) :
    Succeeds (finish cancelled spawned input) h (fun pc h' => (∃ result, pc = .returned (.ok result) ∧
      result.status = h'.job.status ∧ h'.finalResult = some result) ∧ h'.graph = h.graph ∧
      h'.job.status = finalStatus cancelled h.graph.counts) := by
  simp only [finish, ensures_bind, ensures_get, ensures_modify]
  generalize same : ({ h with statistics := _ } : JobHandle) = h₁
  have job : h₁.job = h.job := by rw [← same]
  have before : h₁.graph = h.graph := by rw [← same]
  rw [← job] at suits
  cases cancelled with
  | true =>
    have legal : JobStatus.cancelled ∈ StateMachine.allowed h₁.job.status := by
      rcases suits with status | status <;> rw [status] <;> decide
    have final : finalStatus true h.graph.counts = .cancelled := rfl
    simp only [final, Bool.not_true, Bool.false_eq_true, if_false]
    refine (conclude_succeeds legal).mono ?_ (fun _ _ never => never)
    rintro pc h' ⟨answered, graph, status⟩
    rw [← status] at answered
    exact ⟨answered, graph.trans before, status⟩
  | false =>
    have running : h₁.job.status = .running := suits
    have legal : JobStatus.aggregating ∈ StateMachine.allowed h₁.job.status := by
      rw [running]
      decide
    simp only [Bool.not_false, if_true, ensures_bind]
    refine (setStatus_succeeds legal _ _).mono ?_ (fun _ _ never => never)
    rintro _ _ rfl
    refine (conclude_succeeds (finalStatus_allowed _)).mono ?_ (fun _ _ never => never)
    rintro pc h' ⟨answered, graph, status⟩
    rw [← status] at answered
    exact ⟨answered, graph.trans before, status⟩

theorem growPool_succeeds {id : AgentId} {agentType : AgentType} {now : DateTime} :
    Succeeds (growPool config id agentType now) h (fun _ h' => SameCore h h') := by
  obtain ⟨agent, idle⟩ : ∃ agent, idleAgent config id agentType h.job.id now = .ok agent := idleAgent_ok _ _ _ _
  simp only [growPool, emit, ensures_bind, ensures_get, ensures_liftExcept, ensures_modify, idle]
  exact ⟨fun _ _ => ⟨rfl, rfl, rfl, rfl, rfl⟩, fun _ absurd => by cases absurd⟩

theorem growing_proceeds (sound : run.Sound) (lawful : run.Lawful) {agentType : AgentType} {promoted depth : Nat}
    (growing : run.pc = .growing agentType promoted depth) :
    Proceeds config toposort input run shared (step config toposort input run shared).1 := by
  have grows : Succeeds (do
      growPool config (input.agentIds 0) agentType input.now
      pure (Pc.reclaiming promoted depth)) run.handle
      (fun pc h' => pc = .reclaiming promoted depth ∧ SameCore run.handle h') := by
    unfold Succeeds
    rw [ensures_bind]
    exact growPool_succeeds.mono (fun _ _ same => ⟨rfl, same⟩) (fun _ _ never => never)
  simp only [step, growing]
  rcases exec_cases run grows with ⟨pc, h', ran, rfl, same⟩ | ⟨e, h', ran, never⟩
  · rw [ran]
    refine proceeds_calm lawful same.graph ?_ (by simp) (by simp)
    change h'.job.status = .running
    rw [same.job]
    exact (sound.ticking (by rw [growing]; rfl)).2
  · exact never.elim

theorem reclaiming_proceeds (sound : run.Sound) (lawful : run.Lawful) {promoted depth : Nat}
    (reclaiming : run.pc = .reclaiming promoted depth) :
    Proceeds config toposort input run shared (step config toposort input run shared).1 := by
  have running : run.handle.job.status = .running := (sound.ticking (by rw [reclaiming]; rfl)).2
  simp only [step, reclaiming]
  generalize (if depth = 0 then reclaim _ _ run.handle.agents else (run.handle.agents, 0)) = pool
  obtain ⟨agents, reclaimed⟩ := pool
  simp only
  split <;> exact proceeds_calm lawful rfl running (fun _ _ absurd => by cases absurd)
    (fun _ absurd => by cases absurd)

theorem collected_suits (h : JobHandle) (dispatches : List Dispatch) (promoted : Nat)
    (running : h.job.status = .running) :
    (collected h dispatches promoted).Suits false h.job.status ∧
      ∀ answer, collected h dispatches promoted ≠ .returned answer := by
  unfold collected
  split
  · split
    · exact ⟨running, by simp⟩
    · split <;> exact ⟨running, by simp⟩
  · exact ⟨running, by simp⟩

/-- No more work is leased in this tick. -/
theorem collected_proceeds (sound : run.Sound) (lawful : run.Lawful) (ticking : run.pc.isTicking = true)
    (dispatches : List Dispatch) (promoted : Nat) :
    Proceeds config toposort input run shared { run with pc := collected run.handle dispatches promoted } := by
  obtain ⟨unpaused, running⟩ := sound.ticking ticking
  obtain ⟨suits, going⟩ := collected_suits run.handle dispatches promoted running
  refine proceeds_calm lawful rfl ?_ (collected_dispatches run.handle dispatches promoted).2.2.2.1 ?_
  · rw [unpaused]
    exact suits
  · exact fun _ here => absurd here (going _)

/-- Every step of an engine is lawful, and fails in one of the known ways if it fails. -/
theorem step_proceeds (sound : run.Sound) (lawful : run.Lawful) (navigable : run.handle.graph.Navigable) :
    Proceeds config toposort input run shared (step config toposort input run shared).1 := by
  have suits := lawful.suits
  have running : run.pc.isTicking = true → run.handle.job.status = .running :=
    fun ticking => (sound.ticking ticking).2
  cases here : run.pc with
  | idle =>
    simp only [step, here]
    exact stepIdle_proceeds lawful (by rw [here]; rfl)
  | returned answer =>
    simp only [step, here]
    exact stepIdle_proceeds lawful (by rw [here]; rfl)
  | refunding claimed target =>
    rw [here] at suits
    simp only [step, here]
    refine proceeds_calm lawful rfl (Or.inl suits) (by simp) ?_
    rintro e ⟨⟩
    exact .refused here
  | top =>
    simp only [step, here]
    exact stepTop_proceeds lawful navigable here
  | waiting =>
    have waits := suits
    rw [here] at waits
    simp only [step, here]
    split
    · refine proceeds_calm lawful rfl suits ?_ ?_ <;> rw [here] <;> simp
    · refine proceeds_calm lawful rfl ?_ (by simp) (by simp)
      change run.handle.job.status = if run.paused then .paused else .running
      rw [waits.1]
      exact waits.2
    · exact proceeds_calm lawful rfl (Or.inr waits.2) (by simp) (by simp)
  | promoting todo queued =>
    cases todo with
    | cons task rest => exact promoting_proceeds sound lawful here
    | nil =>
      simp only [step, here]
      exact proceeds_calm lawful rfl (running (by rw [here]; rfl)) (by simp) (by simp)
  | maintaining promoted =>
    simp only [step, here]
    split <;> exact proceeds_calm lawful rfl (running (by rw [here]; rfl)) (by simp) (by simp)
  | scaling promoted depth =>
    simp only [step, here]
    split
    · split <;> exact proceeds_calm lawful rfl (running (by rw [here]; rfl)) (by simp) (by simp)
    · exact proceeds_calm lawful rfl (running (by rw [here]; rfl)) (by simp) (by simp)
  | growing agentType promoted depth =>
    exact growing_proceeds sound lawful here
  | reclaiming promoted depth =>
    exact reclaiming_proceeds sound lawful here
  | collecting left dispatches promoted =>
    have ticking : run.pc.isTicking = true := by rw [here]; rfl
    cases left with
    | zero =>
      simp only [step, here]
      exact collected_proceeds sound lawful ticking dispatches promoted
    | succ left =>
      simp only [step, here]
      split
      · exact collected_proceeds sound lawful ticking dispatches promoted
      · exact receive_proceeds sound lawful ticking
  | dropping leaseId left dispatches promoted =>
    simp only [step, here]
    exact proceeds_calm lawful rfl (running (by rw [here]; rfl)) (by simp) (by simp)
  | releasing leaseId dispatches promoted =>
    have ticking : run.pc.isTicking = true := by rw [here]; rfl
    simp only [step, here]
    split
    · rename_i e q failed
      refine proceeds_calm lawful rfl (Or.inl (running ticking)) (by simp) ?_
      rintro _ ⟨⟩
      simp only [InMemoryQueue.release, InMemoryQueue.takeLease] at failed
      cases held : shared.queue.leases.get? leaseId with
      | none =>
        rw [held] at failed
        cases failed
        exact .lost here held
      | some lease =>
        rw [held] at failed
        cases failed
    · exact collected_proceeds sound lawful ticking dispatches promoted
  | deciding =>
    have ticking := running (by rw [here]; rfl)
    have unpaused := (sound.ticking (by rw [here]; rfl)).1
    simp only [step, here]
    split
    · refine proceeds_calm lawful rfl ?_ (by simp) (by simp)
      change run.handle.job.status = if run.paused then .paused else .running
      rw [unpaused]
      exact ticking
    · have abandons : Succeeds (abandonStranded config input.now) run.handle _ := abandonStranded_ends lawful.resting
      rcases exec_cases run abandons with ⟨pc, h', ran, ends, next⟩ | ⟨e, h', ran, never⟩
      · rw [ran]
        have status : h'.job.status = .running := by rw [ends.job]; exact ticking
        rcases next with ⟨_, rfl⟩ | ⟨_, rfl⟩
        · exact ⟨⟨ends.resting lawful.resting, status, by simp⟩, by simp⟩
        · refine ⟨⟨ends.resting lawful.resting, ?_, by simp⟩, by simp⟩
          change h'.job.status = if run.paused then .paused else .running
          rw [unpaused]
          exact status
      · exact never.elim
  | executing dispatches =>
    have ticking := running (by rw [here]; rfl)
    simp only [step, here]
    split
    · exact proceeds_calm lawful rfl ticking (by simp) (by simp)
    · split
      · exact proceeds_calm lawful rfl (Or.inl ticking) (by simp) (by simp)
      · refine proceeds_calm lawful rfl suits ?_ ?_ <;> rw [here] <;> simp
  | applying todo =>
    cases todo with
    | cons first rest => exact applying_proceeds sound lawful here
    | nil =>
      have ticking := running (by rw [here]; rfl)
      have unpaused := (sound.ticking (by rw [here]; rfl)).1
      simp only [step, here]
      split
      · exact proceeds_calm lawful rfl ticking (by simp) (by simp)
      · refine proceeds_calm lawful rfl ?_ (by simp) (by simp)
        change run.handle.job.status = if run.paused then .paused else .running
        rw [unpaused]
        exact ticking
  | cancelling =>
    rw [here] at suits
    have cancels : Succeeds (cancelPending config input.now) run.handle _ :=
      cancelPending_ends lawful.resting navigable
    obtain ⟨_, h', done, ends, _⟩ := cancels.ok
    simp only [step, here, done]
    refine ⟨⟨ends.resting lawful.resting, ?_, by simp⟩, by simp⟩
    change h'.job.status = .running ∨ h'.job.status = .paused
    rw [ends.job]
    exact suits
  | finishing cancelled =>
    rw [here] at suits
    have finishes : Succeeds (finish cancelled run.spawned input) run.handle _ := finish_succeeds suits
    obtain ⟨pc, h', done, ⟨result, rfl, _, _⟩, graph, status⟩ := finishes.ok
    have finished : h'.job.status.isFinished = true := by
      rw [status]
      exact finalStatus_finished _ _
    simp only [step, here, done]
    exact proceeds_calm lawful graph finished (by simp) (by simp)

end Engine

end Swarm
