import Swarm.Coordinator.Charges
import Swarm.Coordinator.Crew
import Swarm.Coordinator.Diligence

namespace Swarm
open Recovery JobHandle Act

/-- How many more entries the engine may poll in this tick. -/
def Pc.left : Pc → Nat
  | .collecting left _ _ | .dropping _ left _ _ => left
  | _ => 0

/-- The engine has found that its pool may grow. -/
def Pc.vacancies : Pc → Nat
  | .scaling _ _ | .growing _ _ _ => 1
  | _ => 0

/-- The next point asks no more of the pool than the one before. -/
structure Pc.Follows (pc pc' : Pc) : Prop where
  looping : pc'.isLooping = true → pc.isLooping = true ∧ pc'.dispatches = pc.dispatches
  vacancies : pc'.vacancies ≤ pc.vacancies
  left : pc'.left ≤ pc.left

theorem Pc.follows_refl (pc : Pc) : pc.Follows pc := ⟨fun looping => ⟨looping, rfl⟩, Nat.le_refl _, Nat.le_refl _⟩

theorem Pc.follows_returned {pc : Pc} (answer : Except SwarmError FinalResult) : pc.Follows (.returned answer) :=
  ⟨fun absurd => (by cases absurd), Nat.zero_le _, Nat.zero_le _⟩

/-- The pool of a job that may have `limit` agents. -/
structure JobRun.Manned (limit : Nat) (run : JobRun) : Prop where
  crew : run.pc.isLooping = true → Crew run.handle.agents run.pc.dispatches
  inhabited : run.pc.isLooping = true → run.handle.agents ≠ []
  ceiling : run.handle.agents.length + run.pc.vacancies ≤ limit
  enough : run.pc.left ≤ run.handle.agents.countP AgentDescriptor.isAvailable

/-- A step keeps the pool in order, and does not empty it. -/
structure Mans (limit : Nat) (run run' : JobRun) : Prop where
  manned : run'.Manned limit
  stays : run.handle.agents ≠ [] → run'.handle.agents ≠ []

namespace Engine
variable {config : CoordinatorConfig} {toposort : DiGraph TaskId → Except Nat (List Nat)} {input : EngineInput}
  {run run' : JobRun} {shared : Shared} {limit : Nat}

/-- A step that leaves the pool alone. -/
theorem mans_kept (manned : run.Manned limit) (agents : run'.handle.agents = run.handle.agents)
    (follows : run.pc.Follows run'.pc) : Mans limit run run' := by
  refine ⟨⟨?_, ?_, ?_, ?_⟩, fun some => by rw [agents]; exact some⟩
  · intro looping
    obtain ⟨before, same⟩ := follows.looping looping
    rw [agents, same]
    exact manned.crew before
  · intro looping
    rw [agents]
    exact manned.inhabited (follows.looping looping).1
  · rw [agents]
    exact Nat.le_trans (Nat.add_le_add_left follows.vacancies _) manned.ceiling
  · rw [agents]
    exact Nat.le_trans follows.left manned.enough

/-- A run that has left the loop keeps as many agents as it had. -/
theorem mans_returned (manned : run.Manned limit) (size : run'.handle.agents.length = run.handle.agents.length)
    {answer : Except SwarmError FinalResult} (ended : run'.pc = .returned answer) : Mans limit run run' := by
  refine ⟨⟨?_, ?_, ?_, ?_⟩, ?_⟩
  · rw [ended]
    exact fun absurd => by cases absurd
  · rw [ended]
    exact fun absurd => by cases absurd
  · rw [ended, size]
    exact Nat.le_trans (Nat.le_add_right _ _) manned.ceiling
  · rw [ended]
    exact Nat.zero_le _
  · intro some none
    rw [none] at size
    exact some (List.length_eq_zero_iff.mp size.symm)

/-- Local work that leaves the pool alone. -/
theorem mans_exec (manned : run.Manned limit) {work : HandleAct Pc} (start : JobRun)
    (same : start.handle.agents = run.handle.agents) (agents : KeepsAgents work)
    (points : Ensures work start.handle (fun pc _ => run.pc.Follows pc) (fun _ _ => True)) :
    Mans limit run (exec start work) := by
  rcases exec_cases start ((agents start.handle).and points) with ⟨pc, h, ran, kept, follows⟩ | ⟨e, h, ran, kept, _⟩
  · rw [ran]
    exact mans_kept manned (kept.trans same) follows
  · rw [ran]
    exact mans_kept manned (kept.trans same) (Pc.follows_returned _)

/-- The identifiers drawn for agents are new to the pool. -/
def Draws (input : EngineInput) (agents : List AgentDescriptor) : Prop :=
  Function.Injective input.agentIds ∧ ∀ k, ∀ agent ∈ agents, agent.id ≠ input.agentIds k

theorem stepIdle_mans (manned : run.Manned limit) (draws : Draws input run.handle.agents)
    (most : limit = max 1 run.handle.job.request.maxAgents) :
    Mans limit run (stepIdle config toposort input run shared).1 := by
  unfold stepIdle
  simp only
  split
  · split <;> exact mans_kept manned rfl (Pc.follows_returned _)
  · have entered : Ensures (enter toposort input.now) run.handle _ _ :=
      ((enter_keeps agents_aside toposort input.now) run.handle).and (enter_target toposort input.now)
    rcases entered.cases with ⟨target, h, done, same, positive, within⟩ | ⟨e, h, failed, same, _⟩
    · rw [done]
      simp only
      split
      · refine mans_kept manned same ⟨fun absurd => (by cases absurd), Nat.zero_le _, Nat.zero_le _⟩
      · have spawned : Succeeds (do
            spawnAgents config input.agentIds target input.now
            pure Pc.top) h (fun pc h' => pc = .top ∧ ∃ types : Nat → AgentType, h'.agents = (List.range target).map
              (fun index => freshAgent config (input.agentIds index) (types index) h.job.id input.now)) := by
          unfold Succeeds
          rw [ensures_bind]
          exact spawnAgents_pool.mono (fun _ _ pool => ⟨rfl, pool⟩) (fun _ _ never => never)
        rcases exec_cases { run with handle := h, ticks := 0, paused := false, spawned := target } spawned with
          ⟨pc, h', ran, rfl, types, agents⟩ | ⟨e, h', ran, never⟩
        · rw [ran]
          have size : h'.agents.length = target := by rw [agents, List.length_map, List.length_range]
          have some : h'.agents ≠ [] := by
            intro none
            rw [none, List.length_nil] at size
            omega
          refine ⟨⟨fun _ => ?_, fun _ => some, ?_, Nat.zero_le _⟩, fun _ => some⟩
          · refine ⟨?_, fun _ absurd => (by cases absurd), List.nodup_nil, ?_⟩
            · rw [agents, List.map_map]
              exact List.nodup_range.map draws.1
            · intro agent member
              rw [agents] at member
              obtain ⟨index, _, rfl⟩ := List.mem_map.mp member
              exact Or.inl ⟨rfl, rfl⟩
          · rw [size, most]
            exact within
        · exact never.elim
    · rw [failed]
      exact mans_kept manned same (Pc.follows_returned _)

/-- The loop goes on with nothing in hand. -/
theorem follows_empty {pc pc' : Pc} (looping : pc.isLooping = true) (empty : pc.dispatches = [])
    (empty' : pc'.dispatches = []) (plain : pc'.vacancies = 0) (done : pc'.left = 0) : pc.Follows pc' :=
  ⟨fun _ => ⟨looping, empty'.trans empty.symm⟩, by rw [plain]; exact Nat.zero_le _, by rw [done]; exact Nat.zero_le _⟩

theorem stepTop_mans (manned : run.Manned limit) (live : run.handle.Live) (atTop : run.pc = .top) :
    Mans limit run (stepTop config input run) := by
  have looping : run.pc.isLooping = true := by rw [atTop]; rfl
  have empty : run.pc.dispatches = [] := by rw [atTop]; rfl
  unfold stepTop
  simp only
  split
  · exact mans_kept manned rfl (Pc.follows_returned _)
  · split
    · exact mans_kept manned rfl (follows_empty looping empty rfl rfl rfl)
    · split
      · exact mans_kept manned rfl (follows_empty looping empty rfl rfl rfl)
      · refine mans_exec manned { run with ticks := run.ticks + 1, paused := true } rfl
          ((setStatus_keeps agents_aside _ _ _).bind (fun _ => .pure _)) ?_
        rw [ensures_bind]
        exact setStatus_ensures (fun _ => follows_empty looping empty rfl rfl rfl) (fun _ => trivial)
    · refine mans_exec manned { run with ticks := run.ticks + 1, paused := false } rfl
        (beginTick_keeps agents_aside _ _)
        ((beginTick_relabels live).mono ?_ (fun _ _ _ => trivial))
      rintro pc _ ⟨_, _, rfl | rfl⟩ <;> exact follows_empty looping empty rfl rfl rfl

theorem collected_follows {dispatches : List Dispatch} {promoted : Nat} {pc : Pc} (looping : pc.isLooping = true)
    (same : pc.dispatches = dispatches) (h : JobHandle) : pc.Follows (collected h dispatches promoted) := by
  have kept := (collected_dispatches h dispatches promoted).1
  refine ⟨fun _ => ⟨looping, kept.trans same.symm⟩, ?_, ?_⟩
  · unfold collected
    repeat' split
    all_goals exact Nat.zero_le _
  · unfold collected
    repeat' split
    all_goals exact Nat.zero_le _

theorem startTask_serves (lease : TaskLease) (agent : AgentDescriptor) (now : DateTime) (h : JobHandle) :
    Ensures (startTask config lease agent now) h
      (fun dispatch _ => dispatch.agent = agent ∧ dispatch.task =
        { lease.task.payload with attempt := lease.task.attempt })
      (fun _ _ => True) := by
  have hands : ∀ h, Ensures (handOver config lease agent now) h
      (fun dispatch _ => dispatch.agent = agent ∧ dispatch.task =
        { lease.task.payload with attempt := lease.task.attempt })
      (fun _ _ => True) := by
    intro h
    simp only [handOver, ensures_bind, ensures_get]
    refine (advance_keeps agents_aside _ _ _ _ h).mono (fun _ h' _ => ?_) (fun _ _ _ => trivial)
    refine (advance_keeps agents_aside _ _ _ _ h').mono (fun _ h'' _ => ?_) (fun _ _ _ => trivial)
    simp only [emit, ensures_modify, ensures_pure, and_self]
  simp only [startTask, ensures_bind, ensures_modify, ensures_get]
  split
  · rw [ensures_bind]
    exact (advance_keeps agents_aside _ _ _ _ _).mono (fun _ h' _ => hands h') (fun _ _ _ => trivial)
  · exact hands _

/-- A granted lease goes to an agent of its own, or the pool stays as good as it was. -/
theorem receive_mans (manned : run.Manned limit) (draws : Draws input run.handle.agents)
    {lease : TaskLease} {left : Nat} {dispatches : List Dispatch} {promoted : Nat}
    (collecting : run.pc = .collecting (left + 1) dispatches promoted) :
    Mans limit run (receive config input run lease left dispatches promoted) := by
  have looping : run.pc.isLooping = true := by rw [collecting]; rfl
  have crew := manned.crew looping
  have some := manned.inhabited looping
  have ceiling := manned.ceiling
  have enough := manned.enough
  rw [collecting] at crew ceiling enough
  unfold receive
  simp only
  split
  · have size := acquireAgent_length config input.preference (input.agentIds 0) input.now run.handle.job.id
      lease.task.payload run.handle.agents
    obtain ⟨found, agents, acquires, acquired⟩ :=
      crew.acquire config input.preference (draws.2 0) input.now run.handle.job.id lease.task.payload
    rw [acquires] at size ⊢
    have some' : agents ≠ [] := by
      intro none
      rw [none] at size
      exact some (List.length_eq_zero_iff.mp size.symm)
    cases found with
    | none =>
      exact ⟨⟨fun _ => acquired.unserved rfl, fun _ => some', by rw [size]; exact ceiling, Nat.zero_le _⟩,
        fun _ => some'⟩
    | some agent =>
      have starts : KeepsAgents (do
          let dispatch ← startTask config lease agent input.now
          pure (Pc.collecting left (dispatches ++ [dispatch]) promoted)) :=
        (startTask_keeps agents_aside lease agent input.now).bind (fun _ => .pure _)
      have serves : Ensures (do
          let dispatch ← startTask config lease agent input.now
          pure (Pc.collecting left (dispatches ++ [dispatch]) promoted)) { run.handle with agents := agents }
          (fun pc _ => ∃ dispatch : Dispatch, pc = .collecting left (dispatches ++ [dispatch]) promoted ∧
            dispatch.agent = agent ∧ dispatch.task = { lease.task.payload with attempt := lease.task.attempt })
          (fun _ _ => True) := by
        rw [ensures_bind]
        exact (startTask_serves lease agent input.now _).mono (fun dispatch _ serves => ⟨dispatch, rfl, serves⟩)
          (fun _ _ _ => trivial)
      rcases exec_cases { run with handle := { run.handle with agents := agents } } ((starts _).and serves) with
        ⟨pc, h, ran, kept, dispatch, rfl, served, task⟩ | ⟨e, h, ran, kept, _⟩
      · simp only [ran]
        have crew' := acquired.served agent rfl dispatch served (by rw [task]) (by rw [task])
        refine ⟨⟨fun _ => ?_, fun _ => ?_, ?_, ?_⟩, fun _ => ?_⟩
        · rw [kept]
          exact crew'
        · rw [kept]
          exact some'
        · rw [kept]
          change agents.length + 0 ≤ limit
          rw [size]
          exact ceiling
        · rw [kept]
          exact Nat.le_of_succ_le_succ (Nat.le_trans enough acquired.fewer)
        · rw [kept]
          exact some'
      · simp only [ran]
        exact mans_returned manned (by rw [kept]; exact size) rfl
  · refine mans_kept manned rfl ⟨fun _ => ⟨looping, by rw [collecting]; rfl⟩, Nat.zero_le _, ?_⟩
    rw [collecting]
    exact Nat.le_succ _

/-- The agents of applied outcomes come back one after another. -/
theorem applying_mans (manned : run.Manned limit) {dispatch : Dispatch} {outcome : Outcome}
    {rest : List (Dispatch × Outcome)} (applying : run.pc = .applying ((dispatch, outcome) :: rest))
    {q : InMemoryQueue} :
    Mans limit run (exec run (do
      (applyOutcome config q run.handle dispatch outcome input.now).2
      pure (Pc.applying rest))) := by
  have looping : run.pc.isLooping = true := by rw [applying]; rfl
  have crew := manned.crew looping
  have ceiling := manned.ceiling
  rw [applying] at crew ceiling
  have applied : Ensures (do
      (applyOutcome config q run.handle dispatch outcome input.now).2
      pure (Pc.applying rest)) run.handle
      (fun pc h => pc = .applying rest ∧ ∃ succeeded latencyMs, h.agents = Vec.modifyFirst
        (fun pooled => pooled.id == dispatch.agent.id) (settleAgent succeeded latencyMs input.now) run.handle.agents)
      (fun _ h => h.agents.length = run.handle.agents.length) := by
    rw [ensures_bind]
    refine (applyOutcome_agents q run.handle dispatch outcome input.now).mono (fun _ _ settled => ⟨rfl, settled⟩) ?_
    rintro e h (same | ⟨succeeded, latencyMs, agents⟩)
    · rw [same]
    · rw [agents, Vec.length_modifyFirst]
  rcases exec_cases run applied with ⟨pc, h, ran, rfl, succeeded, latencyMs, agents⟩ | ⟨e, h, ran, size⟩
  · rw [ran]
    have size : h.agents.length = run.handle.agents.length := by rw [agents, Vec.length_modifyFirst]
    have stays : run.handle.agents ≠ [] → h.agents ≠ [] := by
      intro some none
      rw [none] at size
      exact some (List.length_eq_zero_iff.mp size.symm)
    refine ⟨⟨fun _ => ?_, fun _ => stays (manned.inhabited looping), by rw [size]; exact ceiling, Nat.zero_le _⟩,
      stays⟩
    rw [agents]
    exact crew.settle succeeded latencyMs input.now
  · rw [ran]
    exact mans_returned manned size rfl

theorem reclaiming_mans (manned : run.Manned limit) {promoted depth : Nat}
    (reclaiming : run.pc = .reclaiming promoted depth) {agents : List AgentDescriptor} {reclaimed : Nat}
    (same : (if depth = 0 then
      reclaim (input.now - milliseconds (asI64 config.agentIdleTimeoutMs)) run.handle.agents.length run.handle.agents
      else (run.handle.agents, 0)) = (agents, reclaimed)) :
    Mans limit run (exec { run with handle := { run.handle with agents := agents } } (do
      if 0 < reclaimed then emit
      pure (.collecting (agents.countP AgentDescriptor.isAvailable) [] promoted))) := by
  have looping : run.pc.isLooping = true := by rw [reclaiming]; rfl
  have crew := manned.crew looping
  have some := manned.inhabited looping
  have ceiling := manned.ceiling
  rw [reclaiming] at crew ceiling
  have left : Crew agents [] ∧ agents ≠ [] ∧ agents.length ≤ run.handle.agents.length := by
    split at same
    · obtain ⟨crew', some'⟩ := reclaim_crew (input.now - milliseconds (asI64 config.agentIdleTimeoutMs))
        run.handle.agents.length crew
      have size := reclaim_length (input.now - milliseconds (asI64 config.agentIdleTimeoutMs))
        run.handle.agents.length run.handle.agents
      rw [same] at crew' some' size
      exact ⟨crew', some' some, by simp only at size; omega⟩
    · cases same
      exact ⟨crew, some, Nat.le_refl _⟩
  obtain ⟨crew', some', size⟩ := left
  rcases exec_cases { run with handle := { run.handle with agents := agents } }
      (announced reclaimed { run.handle with agents := agents }
        (.collecting (agents.countP AgentDescriptor.isAvailable) [] promoted)) with
    ⟨pc, h, ran, ⟨kept, _⟩, rfl⟩ | ⟨e, h, ran, never⟩
  · rw [ran]
    have kept : h.agents = agents := kept
    refine ⟨⟨fun _ => ?_, fun _ => ?_, ?_, ?_⟩, fun _ => ?_⟩
    · rw [kept]
      exact crew'
    · rw [kept]
      exact some'
    · rw [kept]
      exact Nat.le_trans size ceiling
    · rw [kept]
      exact Nat.le_refl _
    · rw [kept]
      exact some'
  · exact never.elim

theorem growing_mans (manned : run.Manned limit) (draws : Draws input run.handle.agents) {agentType : AgentType}
    {promoted depth : Nat} (growing : run.pc = .growing agentType promoted depth) :
    Mans limit run (exec run (do
      growPool config (input.agentIds 0) agentType input.now
      pure (Pc.reclaiming promoted depth))) := by
  have looping : run.pc.isLooping = true := by rw [growing]; rfl
  have crew := manned.crew looping
  have ceiling := manned.ceiling
  rw [growing] at crew ceiling
  have grows : Succeeds (do
      growPool config (input.agentIds 0) agentType input.now
      pure (Pc.reclaiming promoted depth)) run.handle
      (fun pc h => pc = .reclaiming promoted depth ∧ h.agents =
        run.handle.agents ++ [freshAgent config (input.agentIds 0) agentType run.handle.job.id input.now]) := by
    unfold Succeeds
    rw [ensures_bind]
    exact growPool_pool.mono (fun _ _ agents => ⟨rfl, agents⟩) (fun _ _ never => never)
  rcases exec_cases run grows with ⟨pc, h, ran, rfl, agents⟩ | ⟨e, h, ran, never⟩
  · rw [ran]
    have some : h.agents ≠ [] := by
      rw [agents]
      exact List.append_ne_nil_of_right_ne_nil _ (List.cons_ne_nil _ _)
    refine ⟨⟨fun _ => ?_, fun _ => some, ?_, Nat.zero_le _⟩, fun _ => some⟩
    · rw [agents]
      exact (crew.hire (draws.2 0) ⟨rfl, rfl⟩).perm (List.perm_append_singleton _ _).symm
    · rw [agents, List.length_append]
      exact ceiling
  · exact never.elim

/-- Every step of an engine keeps its pool in order. -/
theorem step_mans (manned : run.Manned limit) (sound : run.Sound) (draws : Draws input run.handle.agents)
    (most : limit = max 1 run.handle.job.request.maxAgents) (answered : Answered input run.pc) :
    Mans limit run (step config toposort input run shared).1 := by
  unfold step
  cases here : run.pc with
  | idle => exact stepIdle_mans manned draws most
  | returned answer => exact stepIdle_mans manned draws most
  | refunding claimed target => exact mans_kept manned rfl (Pc.follows_returned _)
  | top => exact stepTop_mans manned (sound.live (by rw [here]; rfl)) here
  | waiting =>
    have follows : run.pc.Follows .top ∧ run.pc.Follows .cancelling := by
      rw [here]
      exact ⟨follows_empty rfl rfl rfl rfl rfl, follows_empty rfl rfl rfl rfl rfl⟩
    simp only
    split
    · exact mans_kept manned rfl (Pc.follows_refl _)
    · exact mans_kept manned rfl follows.1
    · exact mans_kept manned rfl follows.2
  | promoting todo queued =>
    have follows : ∀ pc : Pc, pc.dispatches = [] → pc.vacancies = 0 → pc.left = 0 → run.pc.Follows pc := by
      rw [here]
      exact fun pc empty plain done => follows_empty rfl rfl empty plain done
    cases todo with
    | nil => exact mans_kept manned rfl (follows _ rfl rfl rfl)
    | cons task rest =>
      simp only
      have promoted : KeepsAgents (promote config task input.now) := promote_keeps agents_aside task input.now
      rcases (promoted run.handle).cases with ⟨node, h, done, same⟩ | ⟨e, h, failed, same⟩
      · rw [done]
        simp only
        refine mans_exec manned { run with handle := h } same ((emit_keeps agents_aside).bind (fun _ => .pure _)) ?_
        simp only [emit, ensures_bind, ensures_modify, ensures_pure]
        exact follows _ rfl rfl rfl
      · rw [failed]
        exact mans_kept manned same (Pc.follows_returned _)
  | maintaining promoted =>
    have crew := manned.crew
    have inhabited := manned.inhabited
    rw [here] at crew inhabited
    simp only
    split
    · rename_i room
      refine ⟨⟨fun _ => crew rfl, fun _ => inhabited rfl, ?_, Nat.zero_le _⟩, fun some => some⟩
      have within := room.2
      change run.handle.agents.length + 1 ≤ limit
      omega
    · refine mans_kept manned rfl ?_
      rw [here]
      exact follows_empty rfl rfl rfl rfl rfl
  | scaling promoted depth =>
    have follows : (∀ agentType, run.pc.Follows (.growing agentType promoted depth)) ∧
        run.pc.Follows (.reclaiming promoted depth) := by
      rw [here]
      exact ⟨fun _ => ⟨fun _ => ⟨rfl, rfl⟩, Nat.le_refl _, Nat.le_refl _⟩, follows_empty rfl rfl rfl rfl rfl⟩
    simp only
    split
    · split
      · exact mans_kept manned rfl (follows.1 _)
      · exact mans_kept manned rfl follows.2
    · exact mans_kept manned rfl follows.2
  | growing agentType promoted depth => exact growing_mans manned draws here
  | reclaiming promoted depth =>
    simp only
    generalize same : (if depth = 0 then
      reclaim (input.now - milliseconds (asI64 config.agentIdleTimeoutMs)) run.handle.agents.length run.handle.agents
      else (run.handle.agents, 0)) = reclaimed
    obtain ⟨agents, gone⟩ := reclaimed
    have kept := reclaiming_mans manned here same
    rw [here] at kept
    exact kept
  | collecting left dispatches promoted =>
    have looping : run.pc.isLooping = true := by rw [here]; rfl
    have inHand : run.pc.dispatches = dispatches := by rw [here]; rfl
    cases left with
    | zero => exact mans_kept manned rfl (collected_follows looping inHand _)
    | succ left =>
      simp only
      split
      · exact mans_kept manned rfl (collected_follows looping inHand _)
      · exact receive_mans manned draws here
  | dropping leaseId left dispatches promoted =>
    refine mans_kept manned rfl ?_
    rw [here]
    exact ⟨fun _ => ⟨rfl, rfl⟩, Nat.le_refl _, Nat.le_refl _⟩
  | releasing leaseId dispatches promoted =>
    have looping : run.pc.isLooping = true := by rw [here]; rfl
    have inHand : run.pc.dispatches = dispatches := by rw [here]; rfl
    simp only
    split
    · exact mans_kept manned rfl (Pc.follows_returned _)
    · exact mans_kept manned rfl (collected_follows looping inHand _)
  | deciding =>
    have live := sound.live (by rw [here]; rfl)
    have follows : run.pc.Follows .top ∧ run.pc.Follows (.finishing false) := by
      rw [here]
      exact ⟨follows_empty rfl rfl rfl rfl rfl, follows_empty rfl rfl rfl rfl rfl⟩
    simp only
    split
    · exact mans_kept manned rfl follows.1
    · refine mans_exec manned run rfl (abandonStranded_keeps agents_aside _)
        ((abandonStranded_retires live).mono ?_ (fun _ _ _ => trivial))
      rintro pc _ ⟨_, rfl | rfl⟩
      · exact follows.2
      · exact follows.1
  | executing dispatches =>
    simp only
    split
    · rename_i outcomes answers
      refine mans_kept manned rfl ?_
      rw [here]
      refine ⟨fun _ => ⟨rfl, ?_⟩, Nat.le_refl _, Nat.le_refl _⟩
      exact (zip_fst (answered dispatches outcomes here answers)).1
    · split
      · refine mans_kept manned rfl ?_
        rw [here]
        exact ⟨fun absurd => (by cases absurd), Nat.le_refl _, Nat.le_refl _⟩
      · exact mans_kept manned rfl (Pc.follows_refl _)
  | applying todo =>
    cases todo with
    | nil =>
      refine mans_kept manned rfl ?_
      rw [here]
      simp only
      split <;> exact follows_empty rfl rfl rfl rfl rfl
    | cons entry rest =>
      obtain ⟨dispatch, outcome⟩ := entry
      exact applying_mans manned here
  | cancelling =>
    simp only
    have settled : KeepsAgents (cancelPending config input.now) := cancelPending_keeps agents_aside input.now
    rcases (settled run.handle).cases with ⟨_, h, done, same⟩ | ⟨e, h, failed, same⟩
    · rw [done]
      refine mans_kept manned same ⟨fun absurd => (by cases absurd), Nat.zero_le _, Nat.zero_le _⟩
    · rw [failed]
      exact mans_kept manned same (Pc.follows_returned _)
  | finishing cancelled =>
    have finishes : Ensures (finish cancelled run.spawned input) run.handle _ _ :=
      ((finish_keeps agents_aside cancelled run.spawned input) run.handle).and
        (finish_relabels (sound.live (by rw [here]; rfl)))
    simp only
    rcases finishes.cases with ⟨pc, h, done, same, _, _, result, rfl⟩ | ⟨e, h, failed, same, _⟩
    · rw [done]
      exact mans_kept manned same (Pc.follows_returned _)
    · rw [failed]
      exact mans_kept manned same (Pc.follows_returned _)

/-- An entry for which an agent is found is not given back. -/
theorem receive_keeps {lease : TaskLease} {left : Nat} {dispatches : List Dispatch} {promoted : Nat}
    (served : (run.handle.graph.stateOf lease.task.payload.id).any TaskState.isLeasable = true →
      (acquireAgent config input.preference (input.agentIds 0) input.now run.handle.job.id lease.task.payload
        run.handle.agents).1.isSome = true) (leaseId : LeaseId) (inHand : List Dispatch) (count : Nat) :
    (receive config input run lease left dispatches promoted).pc ≠ .releasing leaseId inHand count := by
  intro releasing
  unfold receive at releasing
  simp only at releasing
  split at releasing
  · rename_i leasable
    have found := served leasable
    generalize acquireAgent config input.preference (input.agentIds 0) input.now run.handle.job.id lease.task.payload
      run.handle.agents = acquired at found releasing
    obtain ⟨agent, agents⟩ := acquired
    cases agent with
    | none => cases found
    | some agent =>
      have starts : Ensures (do
          let dispatch ← startTask config lease agent input.now
          pure (Pc.collecting left (dispatches ++ [dispatch]) promoted)) { run.handle with agents := agents }
          (fun pc _ => ∃ dispatch, pc = .collecting left (dispatches ++ [dispatch]) promoted) (fun _ _ => True) := by
        rw [ensures_bind]
        exact (startTask_serves lease agent input.now _).mono (fun dispatch _ _ => ⟨dispatch, rfl⟩)
          (fun _ _ _ => trivial)
      rcases exec_cases { run with handle := { run.handle with agents := agents } } starts with
        ⟨pc, h, ran, dispatch, rfl⟩ | ⟨e, h, ran, _⟩
      · simp only [ran] at releasing
        cases releasing
      · simp only [ran] at releasing
        cases releasing
  · cases releasing

/-- An entry is given back only after it has been polled. -/
theorem polled_of_releasing {q q' : InMemoryQueue} (effect : Effect input run run' q q') (calm : run.pc ≠ .cancelling)
    {leaseId : LeaseId} {inHand : List Dispatch} {count : Nat}
    (releasing : run'.pc = .releasing leaseId inHand count) :
    ∃ left dispatches promoted, run.pc = .collecting (left + 1) dispatches promoted := by
  cases effect with
  | started collecting => exact ⟨_, _, _, collecting⟩
  | refused collecting => exact ⟨_, _, _, collecting⟩
  | declined collecting => exact ⟨_, _, _, collecting⟩
  | steady _ _ _ _ after =>
    rw [releasing] at after
    cases after
  | @released _ dispatches promoted _ _ _ _ next =>
    have pending := (collected_dispatches run.handle dispatches promoted).2.1
    rw [← next, releasing] at pending
    cases pending
  | retired _ _ next => rcases next with here | here <;> rw [releasing] at here <;> cases here
  | cancelled cancelling => exact absurd cancelling calm
  | stopped _ _ next => rw [releasing] at next; cases next
  | promoted _ _ _ next => rw [releasing] at next; cases next
  | dropped _ _ next => rw [releasing] at next; cases next
  | applied _ next => rw [releasing] at next; cases next

end Engine

end Swarm
