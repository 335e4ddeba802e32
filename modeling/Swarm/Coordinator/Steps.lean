import Swarm.Coordinator.Effect
import Swarm.Queue.Entries

namespace Swarm.Engine
open JobHandle Act

variable {config : CoordinatorConfig} {toposort : DiGraph TaskId → Except Nat (List Nat)} {input : EngineInput}
  {run : JobRun} {shared : Shared}

/-- Local work ends at its next point or ends the run. -/
theorem exec_cases (run : JobRun) {work : HandleAct Pc} {post : Pc → JobHandle → Prop}
    {fail : SwarmError → JobHandle → Prop} (ensures : Ensures work run.handle post fail) :
    (∃ pc h, exec run work = { run with handle := h, pc := pc } ∧ post pc h) ∨
      ∃ e h, exec run work = { run with handle := h, pc := .returned (.error e) } ∧ fail e h := by
  rcases ensures.cases with ⟨pc, h, done, holds⟩ | ⟨e, h, failed, holds⟩
  · exact Or.inl ⟨pc, h, by rw [exec, done], holds⟩
  · exact Or.inr ⟨e, h, by rw [exec, failed], holds⟩

/-- A run that ends here has nothing in hand. -/
theorem stepped_returned {q : InMemoryQueue} {h : JobHandle} (moves : Moves run.handle h)
    (graph : h.graph = run.handle.graph) (pending : run.pc.pending = none) (answer : Except SwarmError FinalResult) :
    Stepped input run q { run with handle := h, pc := .returned answer } q where
  moves := moves
  sound := JobRun.sound_of_returned rfl
  queue := .same
  effect := .steady (Or.inl rfl) graph (List.nil_sublist _) pending rfl
  cancelling := by simp

/-- A run that stops in the middle of its work on a task. -/
theorem stepped_stopped {q q' : InMemoryQueue} {h : JobHandle} (stops : Stops run.handle h)
    (running : run.handle.job.status = .running) {e : SwarmError}
    (queue : QueueStep input run { run with handle := h, pc := .returned (.error e) } q q') :
    Stepped input run q { run with handle := h, pc := .returned (.error e) } q' where
  moves := stops.moves
  sound := JobRun.sound_of_returned rfl
  queue := queue
  effect := .stopped running stops.job rfl
  cancelling := by simp

theorem spawnAgents_ensures {h : JobHandle} {ids : Nat → AgentId} {target : Nat} {now : DateTime} :
    Ensures (spawnAgents config ids target now) h (fun _ h' => SameCore h h') (fun _ h' => h' = h) := by
  simp only [spawnAgents, ensures_bind, ensures_get, ensures_liftExcept, ensures_modify]
  exact ⟨fun _ _ => ⟨rfl, rfl, rfl, rfl, rfl⟩, fun _ _ => trivial⟩

theorem growPool_ensures {h : JobHandle} {id : AgentId} {agentType : AgentType} {now : DateTime} :
    Ensures (growPool config id agentType now) h (fun _ h' => SameCore h h') (fun _ h' => h' = h) := by
  simp only [growPool, emit, ensures_bind, ensures_get, ensures_liftExcept, ensures_modify]
  exact ⟨fun _ _ => ⟨rfl, rfl, rfl, rfl, rfl⟩, fun _ _ => trivial⟩

/-- A step that touches no task and keeps nothing in hand. -/
theorem stepped_empty {q : InMemoryQueue} {run' : JobRun} (relabels : Relabels run.handle run'.handle)
    (pending : run.pc.pending = none) (empty : run'.pc.dispatches = [] ∧ run'.pc.pending = none) (sound : run'.Sound)
    (calm : run'.pc ≠ .cancelling ∨ run.handle.control = .cancelled) : Stepped input run q run' q where
  moves := relabels.moves
  sound := sound
  queue := .same
  effect := .steady (Or.inl rfl) relabels.graph (by rw [empty.1]; exact List.nil_sublist _) pending empty.2
  cancelling here := Or.inr (calm.resolve_left (fun other => other here))

/-- The start of a run claims agents and comes to the top of the loop, or ends. -/
theorem stepIdle_stepped (outside : run.pc.pending = none) :
    Stepped input run shared.queue (stepIdle config toposort input run shared).1
      (stepIdle config toposort input run shared).2.queue := by
  unfold stepIdle
  simp only
  split
  · split <;> exact stepped_returned .refl rfl outside _
  · rename_i unfinished
    have live : run.handle.Live := by simpa [JobHandle.Live] using unfinished
    have entered : Ensures (enter toposort input.now) run.handle _ _ := enter_relabels live
    rcases entered.cases with ⟨target, h, done, relabels, running⟩ | ⟨e, h, failed, stays⟩
    · rw [done]
      simp only
      have liveAfter := JobRun.live_of_running running
      split
      · exact stepped_empty relabels outside ⟨rfl, rfl⟩
          (JobRun.sound_of_empty liveAfter rfl (by simp [Pc.isTicking]) (by simp) (by simp) (by simp))
            (Or.inl (by simp))
      · have spawned : Ensures (do
            spawnAgents config input.agentIds target input.now
            pure Pc.top) h (fun pc h' => pc = .top ∧ SameCore h h') (fun _ h' => h' = h) := by
          rw [ensures_bind]
          exact spawnAgents_ensures.mono (fun _ _ same => ⟨rfl, same⟩) (fun _ _ same => same)
        rcases exec_cases { run with handle := h, ticks := 0, paused := false, spawned := target } spawned with
          ⟨pc, h', ran, rfl, same⟩ | ⟨e, h', ran, rfl⟩
        · rw [ran]
          have running' : h'.job.status = .running := by rw [same.job]; exact running
          exact stepped_empty (relabels.trans same.relabels) outside ⟨rfl, rfl⟩
            (JobRun.sound_of_empty (JobRun.live_of_running running') rfl (by simp [Pc.isTicking])
              (fun _ _ => running')
              (by simp) (by simp)) (Or.inl (by simp))
        · rw [ran]
          exact stepped_empty relabels outside ⟨rfl, rfl⟩ (JobRun.sound_of_returned rfl) (Or.inl (by simp))
    · rw [failed]
      rcases stays with rfl | ⟨relabels, _⟩
      · exact stepped_returned .refl rfl outside _
      · exact stepped_returned relabels.moves relabels.graph outside _

/-- The top of the loop. -/
theorem stepTop_stepped (sound : run.Sound) (atTop : run.pc = .top)
    (navigable : run.handle.graph.Navigable) {q : InMemoryQueue} :
    Stepped input run q (stepTop config input run) q := by
  have live := sound.live (by rw [atTop]; rfl)
  have outside : run.pc.pending = none := by rw [atTop]; rfl
  unfold stepTop
  simp only
  split
  · exact stepped_empty (.refl _) outside ⟨rfl, rfl⟩ (JobRun.sound_of_returned rfl) (Or.inl (by simp))
  · split
    · rename_i cancelled
      exact stepped_empty (.refl _) outside ⟨rfl, rfl⟩
        (JobRun.sound_of_empty live rfl (by simp [Pc.isTicking]) (by simp) (by simp) (by simp)) (Or.inr cancelled)
    · split
      · rename_i waits
        exact stepped_empty (.refl _) outside ⟨rfl, rfl⟩
          (JobRun.sound_of_empty live rfl (by simp [Pc.isTicking]) (by simp) (fun _ => waits) (by simp))
            (Or.inl (by simp))
      · have paused : Ensures (do
            setStatus .paused (some "operator paused") input.now
            pure Pc.waiting) run.handle
            (fun pc h' => pc = .waiting ∧ Relabels run.handle h' ∧ h'.job.status = .paused)
            (fun _ h' => h' = run.handle) := by
          rw [ensures_bind]
          exact (setStatus_relabels live rfl).mono (fun _ _ done => ⟨rfl, done⟩) (fun _ _ same => same)
        rcases exec_cases { run with ticks := run.ticks + 1, paused := true } paused with
          ⟨pc, h', ran, rfl, relabels, status⟩ | ⟨e, h', ran, rfl⟩
        · rw [ran]
          have live' : h'.Live := by
            unfold JobHandle.Live
            rw [status]
            rfl
          exact stepped_empty relabels outside ⟨rfl, rfl⟩
            (JobRun.sound_of_empty live' rfl (by simp [Pc.isTicking]) (by simp) (by simp) (by simp))
              (Or.inl (by simp))
        · rw [ran]
          exact stepped_empty (.refl _) outside ⟨rfl, rfl⟩ (JobRun.sound_of_returned rfl) (Or.inl (by simp))
    · have begun : Ensures (beginTick run.paused input.now) run.handle _ _ := beginTick_relabels live
      rcases exec_cases { run with ticks := run.ticks + 1, paused := false } begun with
        ⟨pc, h', ran, relabels, status, next⟩ | ⟨e, h', ran, rfl⟩
      · rw [ran]
        have running : h'.job.status = .running := by
          rcases status with running | ⟨unpaused, same⟩
          · exact running
          · rw [same]
            exact sound.top atTop unpaused
        have live' := JobRun.live_of_running running
        rcases next with rfl | rfl
        · exact stepped_empty relabels outside ⟨rfl, rfl⟩
            (JobRun.sound_of_empty live' rfl (by simp [Pc.isTicking]) (by simp) (by simp) (by simp))
              (Or.inl (by simp))
        · refine stepped_empty relabels outside ⟨rfl, rfl⟩
            (JobRun.sound_of_empty live' rfl (fun _ => ⟨rfl, running⟩) (by simp) (by simp) ?_) (Or.inl (by simp))
          intro todo queued same task member node found
          cases same
          obtain ⟨ready, known, fresh, unblocked⟩ := navigable.mem_ready.mp member
          rw [relabels.graph] at found ⊢
          rw [known] at found
          cases found
          exact ⟨unblocked, Or.inl (by rcases fresh with fresh | fresh <;> rw [fresh] <;> rfl)⟩
      · rw [ran]
        exact stepped_empty (.refl _) outside ⟨rfl, rfl⟩ (JobRun.sound_of_returned rfl) (Or.inl (by simp))

/-- The engine moves on with the same tasks in hand. -/
theorem sound_hand_on {run' : JobRun} (sound : run.Sound) (ticking : run.pc.isTicking = true)
    (graph : run'.handle.graph = run.handle.graph) (job : run'.handle.job = run.handle.job)
    (paused : run'.paused = run.paused) (same : run'.pc.dispatches = run.pc.dispatches)
    (plain : (∀ todo queued, run'.pc ≠ .promoting todo queued) ∧ (∀ todo, run'.pc ≠ .applying todo) ∧
      run'.pc ≠ .waiting) :
    run'.Sound := by
  obtain ⟨unpaused, running⟩ := sound.ticking ticking
  have running' : run'.handle.job.status = .running := by rw [job]; exact running
  refine ⟨fun _ => JobRun.live_of_running running', fun _ => ⟨paused.trans unpaused, running'⟩, fun _ _ => running',
    fun here => absurd here plain.2.2, ?_, ?_, ?_, ?_⟩
  · exact fun todo queued here => absurd here (plain.1 todo queued)
  · rw [same, graph]
    exact sound.dispatched
  · rw [same]
    exact sound.distinct
  · exact fun todo here => absurd here (plain.2.1 todo)

theorem collected_dispatches (h : JobHandle) (dispatches : List Dispatch) (promoted : Nat) :
    (collected h dispatches promoted).dispatches = dispatches ∧ (collected h dispatches promoted).pending = none ∧
      collected h dispatches promoted ≠ .cancelling ∧
      (∀ todo queued, collected h dispatches promoted ≠ .promoting todo queued) ∧
      (∀ todo, collected h dispatches promoted ≠ .applying todo) ∧ collected h dispatches promoted ≠ .waiting := by
  unfold collected
  split
  · rename_i empty
    rw [List.isEmpty_iff.mp empty]
    split
    · simp [Pc.dispatches, Pc.pending]
    · split <;> simp [Pc.dispatches, Pc.pending]
  · simp [Pc.dispatches, Pc.pending]

/-- Nothing more is leased in this tick. -/
theorem collected_stepped (sound : run.Sound) {left : Nat} {dispatches : List Dispatch} {promoted : Nat}
    (collecting : run.pc = .collecting left dispatches promoted) {q : InMemoryQueue} :
    Stepped input run q { run with pc := collected run.handle dispatches promoted } q := by
  obtain ⟨same, pending, calm, plain⟩ := collected_dispatches run.handle dispatches promoted
  have kept : (collected run.handle dispatches promoted).dispatches = run.pc.dispatches := by
    rw [same, collecting]; rfl
  refine ⟨.refl, sound_hand_on sound (by rw [collecting]; rfl) rfl rfl rfl kept plain, .same, ?_,
    fun here => absurd here calm⟩
  exact .steady (Or.inl rfl) rfl (by rw [kept]) (by rw [collecting]; rfl) pending

/-- A delivered entry is started, given back or dropped. -/
theorem receive_stepped (sound : run.Sound) {left : Nat} {dispatches : List Dispatch} {promoted : Nat}
    (collecting : run.pc = .collecting (left + 1) dispatches promoted) {q q' : InMemoryQueue} {worker : String}
    {lease : TaskLease} (polled : q.dequeueFrom worker [] [] input.now input.leaseId = (some lease, q'))
    (owned : (run.handle.graph.get lease.task.payload.id).isSome = true →
      lease.task.payload.jobId = run.handle.graph.jobId) :
    Stepped input run q (receive config input run lease left dispatches promoted) q' := by
  have isTicking : run.pc.isTicking = true := by rw [collecting]; rfl
  have inHand : run.pc.dispatches = dispatches := by rw [collecting]; rfl
  have running := (sound.ticking isTicking).2
  have queue : ∀ run', QueueStep input run run' q q' := fun _ => .polled collecting polled
  unfold receive
  simp only
  split
  · rename_i leasable
    split
    · exact ⟨.single (.quiet ⟨rfl, rfl, rfl, rfl, rfl⟩),
        sound_hand_on sound isTicking rfl rfl rfl inHand.symm (by simp), queue _,
        .refused collecting polled leasable rfl rfl, by simp⟩
    · rename_i agent agents _
      have same : SameCore run.handle { run.handle with agents := agents } := ⟨rfl, rfl, rfl, rfl, rfl⟩
      have live : JobHandle.Live { run.handle with agents := agents } := JobRun.live_of_running running
      have starting : Ensures (do
          let dispatch ← startTask config lease agent input.now
          pure (Pc.collecting left (dispatches ++ [dispatch]) promoted)) { run.handle with agents := agents }
          (fun pc h' => ∃ dispatch, pc = .collecting left (dispatches ++ [dispatch]) promoted ∧
            Touches { run.handle with agents := agents } h' lease.task.payload.id .running ∧ dispatch.lease = lease ∧
            dispatch.task = { lease.task.payload with attempt := lease.task.attempt } ∧
            dispatch.context.upstream = upstreamOutputs h' dispatch.task)
          (fun _ h' => Stops { run.handle with agents := agents } h') := by
        rw [ensures_bind]
        exact (startTask_touches live leasable).mono (fun dispatch _ done => ⟨dispatch, rfl, done⟩)
          (fun _ _ stops => stops)
      rcases exec_cases { run with handle := { run.handle with agents := agents } } starting with
        ⟨pc, h', ran, dispatch, rfl, started, sameLease, sameTask, upstream⟩ | ⟨e, h', ran, stops⟩
      · rw [ran]
        have touches : Touches run.handle h' lease.task.payload.id .running :=
          .of_same ⟨same.moves, rfl⟩ rfl (fun _ => rfl) (fun _ => rfl) started
        have taskId : dispatch.task.id = lease.task.payload.id := by rw [sameTask]
        have other : ∀ earlier ∈ dispatches, earlier.task.id ≠ lease.task.payload.id := by
          intro earlier member equal
          have state := (sound.dispatched earlier (inHand ▸ member)).1
          rw [equal] at state
          rw [state] at leasable
          cases leasable
        have running' : h'.job.status = .running := by rw [touches.job]; exact running
        refine ⟨touches.moves, ⟨fun _ => JobRun.live_of_running running',
          fun _ => ⟨(sound.ticking isTicking).1, running'⟩, by simp, by simp, by simp, ?_, ?_, by simp⟩, queue _,
          .started collecting polled leasable touches sameLease rfl sameTask upstream, by simp⟩
        · intro any member
          simp only
          rw [touches.jobId]
          rcases List.mem_append.mp member with earlier | new
          · obtain ⟨state, own, id⟩ := sound.dispatched any (inHand ▸ earlier)
            exact ⟨by rw [touches.states, if_neg (other any earlier)]; exact state, own, id⟩
          · rw [List.mem_singleton.mp new, taskId, sameLease]
            refine ⟨by rw [touches.states, if_pos rfl], ?_, rfl⟩
            rw [sameTask]
            refine owned ?_
            obtain ⟨old, known, _⟩ := touches.unfinished
            obtain ⟨node, found, _⟩ := Option.map_eq_some_iff.mp known
            rw [found]
            rfl
        · simp only [Pc.dispatches, List.map_append, List.map_cons, List.map_nil]
          rw [List.nodup_append]
          refine ⟨by rw [← inHand]; exact sound.distinct, List.nodup_singleton _, ?_⟩
          rintro task early _ late rfl
          obtain ⟨earlier, member, rfl⟩ := List.mem_map.mp early
          exact other earlier member ((List.mem_singleton.mp late).trans taskId)
      · rw [ran]
        exact stepped_stopped (Stops.trans ⟨same.moves, rfl⟩ stops) running (queue _)
  · rename_i useless
    exact ⟨.refl, sound_hand_on sound isTicking rfl rfl rfl inHand.symm (by simp), queue _,
      .declined collecting polled (by simpa using useless) rfl rfl, by simp⟩

/-- Queueing a task leaves the others as promotable as they were. -/
theorem promotable_touched {h h' : JobHandle} {task other : TaskId} (touches : Touches h h' task .queued)
    (promotable : h.graph.Promotable other) : h'.graph.Promotable other := by
  intro node found
  have blanks := touches.blanks other
  rw [found] at blanks
  obtain ⟨earlier, known, same⟩ := Option.map_eq_some_iff.mp blanks.symm
  have dependencies : earlier.dependencies = node.dependencies := by
    simpa using congrArg TaskNode.dependencies same
  obtain ⟨unblocked, state⟩ := promotable earlier known
  refine ⟨fun dependency depends => touches.unblocked unblocked dependency (dependencies ▸ depends), ?_⟩
  have now := touches.states other
  simp only [TaskGraph.stateOf, found, known, Option.map_some] at now
  split at now
  · exact Or.inr (Option.some.inj now)
  · rw [Option.some.inj now]
    exact state

/-- A ready task goes into the queue. -/
theorem promoting_stepped (sound : run.Sound) {task : TaskId} {rest : List TaskId} {queued : Nat}
    (promoting : run.pc = .promoting (task :: rest) queued) :
    Stepped input run shared.queue (step config toposort input run shared).1
      (step config toposort input run shared).2.queue := by
  obtain ⟨unpaused, running⟩ := sound.ticking (by rw [promoting]; rfl)
  have live := JobRun.live_of_running running
  have promotable := sound.todo _ _ promoting
  have promotes : Ensures (promote config task input.now) run.handle _ _ :=
    promote_touches live (fun node found => (promotable task List.mem_cons_self node found).1)
  simp only [step, promoting]
  rcases promotes.cases with ⟨node, h, done, touches, found, earlier, known, changed, legal⟩ | ⟨e, h, failed, stops⟩
  · rw [done]
    simp only
    have same : SameCore h
      { h with statistics := { h.statistics with messagesSent := h.statistics.messagesSent + 1 } } :=
      ⟨rfl, rfl, rfl, rfl, rfl⟩
    have running' : h.job.status = .running := by rw [touches.job]; exact running
    have fresh : earlier.state.isFresh = true := by
      rcases (promotable task List.mem_cons_self earlier known).2 with fresh | again
      · exact fresh
      · rw [again] at legal
        simp [StateMachine.allowed] at legal
    have before : run.handle.graph.stateOf task = some earlier.state := by rw [TaskGraph.stateOf, known]; rfl
    have queuedNow : node.state.isFresh = false := by rw [changed]; rfl
    refine ⟨touches.moves.trans same.moves, ?_, .enqueued _ _ found queuedNow known fresh changed live,
      .promoted _ _ promoting rfl (touches.quiet same) found before fresh, fun here => by cases here⟩
    refine JobRun.sound_of_empty (JobRun.live_of_running running') rfl (fun _ => ⟨unpaused, running'⟩)
      (fun here => by cases here) (fun here => by cases here) ?_
    intro todo count here other member
    cases here
    exact promotable_touched (touches.quiet same) (promotable other (List.mem_cons_of_mem _ member))
  · rw [failed]
    exact stepped_stopped stops running .same

/-- The next outcome is applied. -/
theorem applying_stepped (sound : run.Sound) {dispatch : Dispatch} {outcome : Outcome}
    {rest : List (Dispatch × Outcome)} (applying : run.pc = .applying ((dispatch, outcome) :: rest)) :
    Stepped input run shared.queue (step config toposort input run shared).1
      (step config toposort input run shared).2.queue := by
  obtain ⟨unpaused, running⟩ := sound.ticking (by rw [applying]; rfl)
  have inHand : run.pc.dispatches = dispatch :: rest.map Prod.fst := by rw [applying]; rfl
  have fits := sound.fits _ applying
  obtain ⟨acknowledged, settles, work⟩ : ∃ acknowledged,
    Settles shared.queue dispatch.lease.leaseId input.now acknowledged
      (applyOutcome config shared.queue run.handle dispatch outcome input.now).1 ∧ _ :=
    applyOutcome_touches (JobRun.live_of_running running) (fits _ List.mem_cons_self)
      (sound.dispatched dispatch (by rw [inHand]; exact List.mem_cons_self)).2.1
  have distinct := sound.distinct
  rw [inHand, List.map_cons, List.nodup_cons] at distinct
  simp only [step, applying]
  have applies : Ensures (do
      (applyOutcome config shared.queue run.handle dispatch outcome input.now).2
      pure (Pc.applying rest)) run.handle
      (fun pc h' => pc = .applying rest ∧ ∃ state, Touches run.handle h' dispatch.task.id state ∧
        (state.isLeasable = true → acknowledged = false ∧
          dispatch.lease.task.retry.allowsRetry dispatch.lease.task.attempt = true))
      (fun _ h' => Stops run.handle h') := by
    rw [ensures_bind]
    exact work.mono (fun _ _ done => ⟨rfl, done⟩) (fun _ _ stops => stops)
  rcases exec_cases run applies with ⟨pc, h', ran, rfl, state, touches, retried⟩ | ⟨e, h', ran, stops⟩
  · rw [ran]
    have running' : h'.job.status = .running := by rw [touches.job]; exact running
    refine ⟨touches.moves, ⟨fun _ => JobRun.live_of_running running', fun _ => ⟨unpaused, running'⟩,
      by simp, by simp, by simp,
      ?_, distinct.2, ?_⟩, .settled applying settles, .applied applying rfl settles touches retried, by simp⟩
    · intro later member
      obtain ⟨state, own, id⟩ := sound.dispatched later (by rw [inHand]; exact List.mem_cons_of_mem _ member)
      have other : later.task.id ≠ dispatch.task.id := by
        intro same
        exact distinct.1 (same ▸ List.mem_map_of_mem member)
      exact ⟨by rw [touches.states, if_neg other]; exact state, own.trans touches.jobId.symm, id⟩
    · intro todo here entry member
      cases here
      exact fits entry (List.mem_cons_of_mem _ member)
  · rw [ran]
    exact stepped_stopped stops running (.settled applying settles)

/-- An answer for each of the dispatched tasks, about that task. -/
def Answered (input : EngineInput) (pc : Pc) : Prop :=
  ∀ dispatches outcomes, pc = .executing dispatches → input.outcomes = some outcomes →
    List.Forall₂ (fun dispatch outcome => outcome.Fits dispatch) dispatches outcomes

theorem zip_fst {dispatches : List Dispatch} {outcomes : List Outcome}
    (answered : List.Forall₂ (fun dispatch outcome => outcome.Fits dispatch) dispatches outcomes) :
    (dispatches.zip outcomes).map Prod.fst = dispatches ∧
      ∀ entry ∈ dispatches.zip outcomes, entry.2.Fits entry.1 := by
  induction answered with
  | nil => exact ⟨rfl, by simp⟩
  | cons fits _ ih =>
    refine ⟨by rw [List.zip_cons_cons, List.map_cons, ih.1], ?_⟩
    intro entry member
    rcases List.mem_cons.mp member with rfl | later
    · exact fits
    · exact ih.2 entry later

/-- Every step of an engine is one of the listed effects and leaves the engine sound. -/
theorem step_stepped (sound : run.Sound) (navigable : run.handle.graph.Navigable)
    (owned : shared.queue.Carries (fun entry => (run.handle.graph.get entry.payload.id).isSome = true →
      entry.payload.jobId = run.handle.graph.jobId)) (answered : Answered input run.pc) :
    Stepped input run shared.queue (step config toposort input run shared).1
      (step config toposort input run shared).2.queue := by
  cases here : run.pc with
  | idle =>
    simp only [step, here]
    exact stepIdle_stepped (by rw [here]; rfl)
  | returned answer =>
    simp only [step, here]
    exact stepIdle_stepped (by rw [here]; rfl)
  | refunding claimed target =>
    simp only [step, here]
    exact stepped_returned .refl rfl (by rw [here]; rfl) _
  | top =>
    simp only [step, here]
    exact stepTop_stepped sound here navigable
  | waiting =>
    have live := sound.live (by rw [here]; rfl)
    have paused := sound.waiting here
    have outside : run.pc.pending = none := by rw [here]; rfl
    simp only [step, here]
    split
    · exact stepped_empty (.refl _) outside (by rw [here]; exact ⟨rfl, rfl⟩) sound (Or.inl (by rw [here]; simp))
    · exact stepped_empty (.refl _) outside ⟨rfl, rfl⟩ (JobRun.sound_of_empty live rfl (by simp [Pc.isTicking])
        (fun _ unpaused => absurd (paused.symm.trans unpaused) (by simp)) (by simp) (by simp)) (Or.inl (by simp))
    · rename_i cancelled
      exact stepped_empty (.refl _) outside ⟨rfl, rfl⟩
        (JobRun.sound_of_empty live rfl (by simp [Pc.isTicking]) (by simp) (by simp) (by simp)) (Or.inr cancelled)
  | promoting todo queued =>
    cases todo with
    | cons task rest => exact promoting_stepped sound here
    | nil =>
      simp only [step, here]
      exact ⟨.refl, sound_hand_on sound (by rw [here]; rfl) rfl rfl rfl (by rw [here]; rfl) (by simp), .swept,
        .steady (Or.inr ⟨rfl, rfl⟩) rfl (List.nil_sublist _) (by rw [here]; rfl) rfl, by simp⟩
  | maintaining promoted =>
    simp only [step, here]
    split <;> exact stepped_empty (.refl _) (by rw [here]; rfl) ⟨rfl, rfl⟩
      (sound_hand_on sound (by rw [here]; rfl) rfl rfl rfl (by rw [here]; rfl) (by simp)) (Or.inl (by simp))
  | scaling promoted depth =>
    simp only [step, here]
    split
    · split <;> exact stepped_empty (.refl _) (by rw [here]; rfl) ⟨rfl, rfl⟩
        (sound_hand_on sound (by rw [here]; rfl) rfl rfl rfl (by rw [here]; rfl) (by simp)) (Or.inl (by simp))
    · exact stepped_empty (.refl _) (by rw [here]; rfl) ⟨rfl, rfl⟩
        (sound_hand_on sound (by rw [here]; rfl) rfl rfl rfl (by rw [here]; rfl) (by simp)) (Or.inl (by simp))
  | growing agentType promoted depth =>
    have grows : Ensures (do
        growPool config (input.agentIds 0) agentType input.now
        pure (Pc.reclaiming promoted depth)) run.handle
        (fun pc h' => pc = .reclaiming promoted depth ∧ SameCore run.handle h') (fun _ h' => h' = run.handle) := by
      rw [ensures_bind]
      exact growPool_ensures.mono (fun _ _ same => ⟨rfl, same⟩) (fun _ _ same => same)
    simp only [step, here]
    rcases exec_cases run grows with ⟨pc, h', ran, rfl, same⟩ | ⟨e, h', ran, rfl⟩
    · rw [ran]
      exact stepped_empty same.relabels (by rw [here]; rfl) ⟨rfl, rfl⟩
        (sound_hand_on sound (by rw [here]; rfl) same.graph same.job rfl (by rw [here]; rfl) (by simp))
          (Or.inl (by simp))
    · rw [ran]
      exact stepped_returned .refl rfl (by rw [here]; rfl) _
  | reclaiming promoted depth =>
    simp only [step, here]
    generalize (if depth = 0 then reclaim _ _ run.handle.agents else (run.handle.agents, 0)) = pool
    obtain ⟨agents, reclaimed⟩ := pool
    let work : HandleAct Pc := do
      if 0 < reclaimed then emit
      pure (.collecting (agents.countP AgentDescriptor.isAvailable) [] promoted)
    have quiet : Ensures work { run.handle with agents := agents }
        (fun pc h' => (∃ left, pc = .collecting left [] promoted) ∧ SameCore run.handle h') (fun _ _ => False) := by
      simp only [work]
      split <;> simp only [emit, ensures_bind, ensures_modify, ensures_pure] <;>
        exact ⟨⟨_, rfl⟩, rfl, rfl, rfl, rfl, rfl⟩
    rcases exec_cases
      { run with handle := { run.handle with agents := agents }, pc := .reclaiming promoted depth } quiet with
      ⟨pc, h', ran, ⟨left, rfl⟩, same⟩ | ⟨e, h', ran, never⟩
    · change Stepped input run shared.queue (exec _ work) shared.queue
      rw [ran]
      exact stepped_empty same.relabels (by rw [here]; rfl) ⟨rfl, rfl⟩
        (sound_hand_on sound (by rw [here]; rfl) same.graph same.job rfl (by rw [here]; rfl) (by simp))
          (Or.inl (by simp))
    · exact never.elim
  | collecting left dispatches promoted =>
    cases left with
    | zero =>
      simp only [step, here]
      exact collected_stepped sound here
    | succ left =>
      simp only [step, here]
      split
      · rename_i q polled
        rw [InMemoryQueue.dequeueFrom_none polled]
        exact collected_stepped sound here
      · rename_i lease q polled
        exact receive_stepped sound here polled (owned.polled (fun _ _ _ holds => holds) polled).2
  | dropping leaseId left dispatches promoted =>
    simp only [step, here]
    exact ⟨.refl, sound_hand_on sound (by rw [here]; rfl) rfl rfl rfl (by rw [here]; rfl) (by simp), .dropped here,
      .dropped here rfl rfl, by simp⟩
  | releasing leaseId dispatches promoted =>
    have running := (sound.ticking (by rw [here]; rfl)).2
    simp only [step, here]
    split
    · rename_i e q failed
      have queue : QueueStep input run { run with pc := .returned (.error e) } shared.queue
        (shared.queue.release leaseId input.now).2 := .released here
      rw [failed] at queue
      exact stepped_stopped (.refl _) running queue
    · rename_i q released
      obtain ⟨same, pending, calm, plain⟩ := collected_dispatches run.handle dispatches promoted
      have queue : QueueStep input run { run with pc := collected run.handle dispatches promoted } shared.queue
        (shared.queue.release leaseId input.now).2 := .released here
      rw [released] at queue
      exact ⟨.refl, sound_hand_on sound (by rw [here]; rfl) rfl rfl rfl (by rw [same, here]; rfl) plain, queue,
        .released here released rfl rfl, fun cancelling => absurd cancelling calm⟩
  | deciding =>
    have running := (sound.ticking (by rw [here]; rfl)).2
    have unpaused := (sound.ticking (by rw [here]; rfl)).1
    simp only [step, here]
    split
    · exact stepped_empty (.refl _) (by rw [here]; rfl) ⟨rfl, rfl⟩
        (sound_hand_on sound (by rw [here]; rfl) rfl rfl rfl (by rw [here]; rfl) (by simp)) (Or.inl (by simp))
    · have abandons : Ensures (abandonStranded config input.now) run.handle _ _ :=
        abandonStranded_retires (JobRun.live_of_running running)
      rcases exec_cases run abandons with ⟨pc, h', ran, retires, next⟩ | ⟨e, h', ran, stops⟩
      · rw [ran]
        have running' : h'.job.status = .running := by rw [retires.stops.job]; exact running
        have live := JobRun.live_of_running running'
        refine ⟨retires.stops.moves, ?_, .same, .retired here retires next, ?_⟩ <;> rcases next with rfl | rfl
        · exact JobRun.sound_of_empty live rfl (by simp [Pc.isTicking]) (by simp) (by simp) (by simp)
        · exact JobRun.sound_of_empty live rfl (by simp [Pc.isTicking]) (fun _ _ => running') (by simp) (by simp)
        · simp
        · simp
      · rw [ran]
        exact stepped_stopped stops running .same
  | executing dispatches =>
    obtain ⟨unpaused, running⟩ := sound.ticking (by rw [here]; rfl)
    have live := JobRun.live_of_running running
    have inHand : run.pc.dispatches = dispatches := by rw [here]; rfl
    simp only [step, here]
    split
    · rename_i outcomes known
      obtain ⟨same, fits⟩ := zip_fst (answered dispatches outcomes here known)
      have kept : (Pc.applying (dispatches.zip outcomes)).dispatches = run.pc.dispatches := same.trans inHand.symm
      refine ⟨.refl, ⟨fun _ => live, fun _ => ⟨unpaused, running⟩, by simp, by simp, by simp, ?_, ?_, ?_⟩, .same,
        .steady (Or.inl rfl) rfl (by rw [kept]) (by rw [here]; rfl) rfl, by simp⟩
      · simp only
        rw [kept]
        exact sound.dispatched
      · simp only
        rw [kept]
        exact sound.distinct
      · intro todo same
        cases same
        exact fits
    · split
      · rename_i cancelled
        exact stepped_empty (.refl _) (by rw [here]; rfl) ⟨rfl, rfl⟩
          (JobRun.sound_of_empty live rfl (by simp [Pc.isTicking]) (by simp) (by simp) (by simp)) (Or.inr cancelled)
      · exact ⟨.refl, sound, .same, .steady (Or.inl rfl) rfl (List.Sublist.refl _) (by rw [here]; rfl)
          (by rw [here]; rfl), by rw [here]; simp⟩
  | applying todo =>
    cases todo with
    | cons first rest => exact applying_stepped sound here
    | nil =>
      have running := (sound.ticking (by rw [here]; rfl)).2
      simp only [step, here]
      refine stepped_empty (.refl _) (by rw [here]; rfl) ?_ ?_ (Or.inl ?_) <;> split
      · exact ⟨rfl, rfl⟩
      · exact ⟨rfl, rfl⟩
      · exact sound_hand_on sound (by rw [here]; rfl) rfl rfl rfl (by rw [here]; rfl) (by simp)
      · exact sound_hand_on sound (by rw [here]; rfl) rfl rfl rfl (by rw [here]; rfl) (by simp)
      · simp
      · simp
  | cancelling =>
    have live := sound.live (by rw [here]; rfl)
    have cancels : Ensures (cancelPending config input.now) run.handle _ _ := cancelPending_stops live
    simp only [step, here]
    rcases cancels.cases with ⟨_, h', done, stops⟩ | ⟨e, h', failed, stops⟩
    · rw [done]
      simp only
      rw [stops.job]
      exact ⟨stops.moves,
        JobRun.sound_of_empty (stops.live live) rfl (by simp [Pc.isTicking]) (by simp) (by simp) (by simp),
        .purged here, .cancelled here rfl, by simp⟩
    · rw [failed]
      exact ⟨stops.moves, JobRun.sound_of_returned rfl, .same, .cancelled here rfl, by simp⟩
  | finishing cancelled =>
    have finishes : Ensures (finish cancelled run.spawned input) run.handle _ _ :=
      finish_relabels (sound.live (by rw [here]; rfl))
    simp only [step, here]
    rcases finishes.cases with ⟨pc, h', done, relabels, _, result, rfl⟩ | ⟨e, h', failed, relabels⟩
    · rw [done]
      exact stepped_returned relabels.moves relabels.graph (by rw [here]; rfl) _
    · rw [failed]
      exact stepped_returned relabels.moves relabels.graph (by rw [here]; rfl) _

end Swarm.Engine
