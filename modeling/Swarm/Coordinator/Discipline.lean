import Swarm.Coordinator.Ceiling
import Swarm.Coordinator.Manning
import Swarm.Coordinator.Schedule

namespace Swarm
open Recovery JobHandle

/-- The pool is in order for the limit that the job sets. -/
def JobRun.Orderly (run : JobRun) : Prop := run.Manned (max 1 run.handle.job.request.maxAgents)

theorem orderly_new {h : JobHandle} (empty : h.agents = []) : (JobRun.new h).Orderly := by
  refine ⟨fun absurd => (by cases absurd), fun absurd => (by cases absurd), ?_, Nat.zero_le _⟩
  simp only [JobRun.new, empty, List.length_nil, Nat.zero_add, Pc.vacancies]
  exact Nat.zero_le _

/-- Every task needs what its kind needs. -/
def TaskGraph.Exact (g : TaskGraph) : Prop :=
  ∀ task node, g.get task = some node → node.requiredCapabilities = node.kind.requiredCapabilities

namespace Cluster
variable {config : CoordinatorConfig} {tools : TextTools} {toposort : DiGraph TaskId → Except Nat (List Nat)}

/-- The process goes on, and the identifiers an engine draws for agents are new to its pool. -/
def Draws (c : Cluster) (event : Event) : Prop :=
  c.Alive event ∧ ∀ jobId input run, event = .engine jobId input → c.jobs.get? jobId = some run →
    Engine.Draws input run.handle.agents

theorem Sound.mans {c : Cluster} (sound : c.Sound) {jobId : JobId} {run : JobRun} {input : EngineInput}
    (found : c.jobs.get? jobId = some run) (possible : c.Possible config tools toposort (.engine jobId input))
    (draws : c.Draws (.engine jobId input)) (orderly : run.Orderly) :
    (Engine.step config toposort input run c.shared).1.Orderly ∧
      (run.handle.agents ≠ [] → (Engine.step config toposort input run c.shared).1.handle.agents ≠ []) := by
  have mans : Mans _ run (Engine.step config toposort input run c.shared).1 :=
    Engine.step_mans orderly (sound.engines jobId run found) (draws.2 jobId input run rfl found) rfl
      (answered_of_possible possible found)
  have same := moves_request (sound.stepped found possible).moves
  refine ⟨?_, mans.stays⟩
  unfold JobRun.Orderly
  rw [same]
  exact mans.manned

theorem Steers.orderly {run : JobRun} {h : JobHandle} (steers : Steers run.handle h) (orderly : run.Orderly) :
    { run with handle := h }.Orderly := by
  have mans : Mans _ run { run with handle := h } := Engine.mans_kept orderly steers.agents (Pc.follows_refl _)
  unfold JobRun.Orderly
  rw [steers.job]
  exact mans.manned

theorem carried_orderly : Carried config tools toposort Draws JobRun.Orderly where
  alive := And.left
  submitted _ _ := orderly_new rfl
  steered _ steers orderly := steers.orderly orderly
  engine sound found possible draws orderly := (sound.mans found possible draws orderly).1

theorem Boots.orderly {first : Cluster} (boots : Boots config tools toposort first) {jobId : JobId} {run : JobRun}
    (found : first.jobs.get? jobId = some run) : run.Orderly := by
  cases boots with
  | new => cases found
  | restart _ _ =>
    obtain ⟨_, h, rebuilt, rfl⟩ := restart_get? found
    obtain ⟨state, _, built⟩ := Option.map_eq_some_iff.mp rebuilt
    exact orderly_new (build_agents built)

/-- A pool that has agents has agents for good. -/
theorem Runs.stays_manned (sorts : Sorts toposort) {c later : Cluster} (sound : c.Sound)
    {jobId : JobId} {run : JobRun} (found : c.jobs.get? jobId = some run) (orderly : run.Orderly)
    (staffed : run.handle.agents ≠ []) (runs : Runs config tools toposort Draws c later) :
    ∃ run', later.jobs.get? jobId = some run' ∧
      run'.handle.job.request = run.handle.job.request ∧ run'.Orderly ∧ run'.handle.agents ≠ [] := by
  induction runs with
  | start => exact ⟨run, found, rfl, orderly, staffed⟩
  | @next c event runs possible draws ih =>
    obtain ⟨middle, known, same, orderly, staffed⟩ := ih
    have sound := runs.redelivers.sound sorts sound
    obtain ⟨after, there, moves⟩ := sound.goes_on possible draws.1 known
    refine ⟨after, there, (moves_request moves).trans same, ?_⟩
    cases apply_job possible draws.1 there with
    | kept still =>
      rw [known] at still
      cases still
      exact ⟨orderly, staffed⟩
    | submitted absent =>
      rw [known] at absent
      cases absent
    | steered still steers same =>
      rw [known] at still
      cases still
      subst same
      exact ⟨steers.orderly orderly, by rw [steers.agents]; exact staffed⟩
    | engine isEngine still same =>
      rw [known] at still
      cases still
      subst isEngine same
      obtain ⟨orderly', stays⟩ := sound.mans known possible draws orderly
      exact ⟨orderly', stays staffed⟩

/-- The payload of the entry is a task of its job, in some earlier state. -/
def Posted (c : Cluster) (entry : QueuedTask) : Prop :=
  ∃ run node, c.jobs.get? entry.payload.jobId = some run ∧ run.handle.graph.get entry.payload.id = some node ∧
    entry.payload.blank = node.blank

/-- Within one lifetime of the process every entry keeps its task. -/
theorem Sound.posted {c : Cluster} (sound : c.Sound) {event : Event}
    (possible : c.Possible config tools toposort event) (alive : c.Alive event) {entry : QueuedTask}
    (posted : c.Posted entry) :
    (c.apply config tools toposort event).Posted entry := by
  obtain ⟨run, node, found, known, same⟩ := posted
  obtain ⟨after, there, moves⟩ := sound.goes_on possible alive found
  have blanks := (moves_extends moves).blanks entry.payload.id
  rw [known, Option.map_some] at blanks
  obtain ⟨current, present, blank⟩ := Option.map_eq_some_iff.mp blanks
  exact ⟨after, current, there, present, same.trans blank.symm⟩

/-- What is true of every entry of the queue, and of every entry that an engine makes, stays so. -/
theorem Sound.carries_apply {c : Cluster} (sound : c.Sound) {event : Event}
    (possible : c.Possible config tools toposort event) (alive : c.Alive event) {property : QueuedTask → Prop}
    (stable : QueuedTask.Stable property) (carries : c.shared.queue.Carries property)
    (fresh : ∀ jobId input run task node priority leaseMs, event = .engine jobId input →
      c.jobs.get? jobId = some run →
      (Engine.step config toposort input run c.shared).1.handle.graph.get task = some node →
      property (.fromTask node priority leaseMs input.now)) :
    (c.apply config tools toposort event).shared.queue.Carries property := by
  have steered : ∀ {jobId : JobId}, Steered c (c.apply config tools toposort event) jobId →
      (c.apply config tools toposort event).shared.queue = c.shared.queue := by
    rintro jobId (same | ⟨_, _, _, _, same⟩) <;> rw [same]
  cases event with
  | submit submission nodes =>
    have same : (c.apply config tools toposort (.submit submission nodes)).shared.queue = c.shared.queue := by
      simp only [Cluster.apply, Cluster.submit]
      split <;> rfl
    rw [same]
    exact carries
  | engine jobId input =>
    cases found : c.jobs.get? jobId with
    | none =>
      simp only [Cluster.apply, Cluster.engine, found]
      exact carries
    | some run =>
      simp only [Cluster.apply, Cluster.engine, found]
      exact (sound.stepped found possible).queue.carries stable carries
        (fun task node priority leaseMs => fresh jobId input run task node priority leaseMs rfl found)
  | pause jobId =>
    rw [steered (apply_steered possible (Or.inl rfl))]
    exact carries
  | resume jobId =>
    rw [steered (apply_steered possible (Or.inr (Or.inl rfl)))]
    exact carries
  | cancel jobId =>
    rw [steered (apply_steered possible (Or.inr (Or.inr (Or.inl rfl))))]
    exact carries
  | purge jobId => exact carries.purgeJob jobId
  | rehash jobId nodes =>
    rw [steered (apply_steered possible (Or.inr (Or.inr (Or.inr ⟨nodes, rfl⟩))))]
    exact carries
  | rehashLeases leases =>
    refine ⟨carries.ready, ?_⟩
    intro leaseId lease found
    exact carries.leases leaseId lease ((Dict.Rehash.get? possible leaseId).trans found)
  | restart journal => exact absurd rfl (alive journal)

/-- Every payload in the queue of a lifetime is a task of its job. -/
theorem Runs.posted (sorts : Sorts toposort) {first c : Cluster} (boots : Boots config tools toposort first)
    {kind : Cluster → Event → Prop} (alive : ∀ c event, kind c event → c.Alive event)
    (runs : Runs config tools toposort kind first c) : c.shared.queue.Carries c.Posted := by
  induction runs with
  | start =>
    have empty : first.shared.queue = .new := by cases boots <;> rfl
    rw [empty]
    refine ⟨?_, ?_⟩
    · intro _ member
      cases member
    · intro _ _ found
      cases found
  | @next c event runs possible allowed ih =>
    have sound := runs.redelivers.sound sorts (boots.sound sorts)
    refine sound.carries_apply possible (alive c event allowed) (fun _ _ _ posted => posted)
      (carries_mono ih (fun _ => sound.posted possible (alive c event allowed))) ?_
    rintro jobId input run task node priority leaseMs rfl found known
    obtain ⟨job, tasks, id, sync⟩ := sound.synced jobId run found
    obtain ⟨nodeId, nodeJob⟩ := (sync.moves (sound.stepped found possible).moves).node_own known
    refine ⟨(Engine.step config toposort input run c.shared).1, node, ?_, ?_, rfl⟩
    · change ((c.engine config toposort jobId input).jobs).get? node.jobId = _
      rw [nodeJob, id]
      exact (engine_insert config toposort found input).1
    · change TaskGraph.get _ node.id = some node
      rw [nodeId]
      exact known

/-- An engine that polls an entry for a task of its own job finds an agent. -/
theorem Sound.acquires {c : Cluster} (sound : c.Sound) (posted : c.shared.queue.Carries c.Posted)
    {jobId : JobId} {run : JobRun} (found : c.jobs.get? jobId = some run) (orderly : run.Orderly)
    (exact : run.handle.graph.Exact) {input : EngineInput} (draws : Engine.Draws input run.handle.agents)
    {left : Nat} {dispatches : List Dispatch} {promoted : Nat}
    (collecting : run.pc = .collecting (left + 1) dispatches promoted) {worker : String} {lease : TaskLease}
    {q : InMemoryQueue} (polled : c.shared.queue.dequeueFrom worker [] [] input.now input.leaseId = (some lease, q))
    (leasable : (run.handle.graph.stateOf lease.task.payload.id).any TaskState.isLeasable = true) :
    (Engine.acquireAgent config input.preference (input.agentIds 0) input.now run.handle.job.id lease.task.payload
      run.handle.agents).1.isSome = true := by
  have genuine := (sound.queue.polled (genuine_stable c) polled).2
  obtain ⟨owner, node, present, there, blank⟩ := (posted.polled (fun _ _ _ holds => holds) polled).2
  have known : (run.handle.graph.get lease.task.payload.id).isSome = true := by
    obtain ⟨state, stands, _⟩ := (Option.any_eq_true _ _).mp leasable
    obtain ⟨node, known, _⟩ := Option.map_eq_some_iff.mp stands
    rw [known]
    rfl
  rw [sound.owned found genuine known, found] at present
  cases present
  have kind : lease.task.payload.blank.kind = node.blank.kind := congrArg TaskNode.kind blank
  have needs : lease.task.payload.blank.requiredCapabilities = node.blank.requiredCapabilities :=
    congrArg TaskNode.requiredCapabilities blank
  have exactly : lease.task.payload.requiredCapabilities = lease.task.payload.kind.requiredCapabilities :=
    needs.trans ((exact _ _ there).trans (congrArg TaskKind.requiredCapabilities kind.symm))
  have crew := orderly.crew (by rw [collecting]; rfl)
  have enough := orderly.enough
  rw [collecting] at enough
  obtain ⟨agent, agents, acquires, acquired⟩ :=
    crew.acquire config input.preference (draws.2 0) input.now run.handle.job.id lease.task.payload
  rw [acquires]
  exact acquired.succeeds exactly (Nat.lt_of_lt_of_le (Nat.succ_pos left) enough)

/-- Only an entry for which no agent was found is given back. -/
theorem Sound.keeps_lease {c : Cluster} (sound : c.Sound) (posted : c.shared.queue.Carries c.Posted) {jobId : JobId}
    {run : JobRun} (found : c.jobs.get? jobId = some run) (orderly : run.Orderly) (exact : run.handle.graph.Exact)
    {input : EngineInput} (possible : c.Possible config tools toposort (.engine jobId input))
    (draws : Engine.Draws input run.handle.agents) (leaseId : LeaseId) (dispatches : List Dispatch) (promoted : Nat) :
    (Engine.step config toposort input run c.shared).1.pc ≠ .releasing leaseId dispatches promoted := by
  intro releasing
  by_cases cancelling : run.pc = .cancelling
  · simp only [Engine.step, cancelling] at releasing
    split at releasing <;> cases releasing
  · obtain ⟨left, inHand, count, collecting⟩ :=
      Engine.polled_of_releasing (sound.stepped found possible).effect cancelling releasing
    simp only [Engine.step, collecting] at releasing
    split at releasing
    · have pending := (Engine.collected_dispatches run.handle inHand count).2.1
      have here : Engine.collected run.handle inHand count = .releasing leaseId dispatches promoted := releasing
      rw [here] at pending
      cases pending
    · rename_i lease q polled
      exact Engine.receive_keeps (sound.acquires posted found orderly exact draws collecting polled) _ _ _ releasing

theorem exact_of_moves {h h' : JobHandle} (moves : Moves h h') (exact : h'.graph.Exact) : h.graph.Exact := by
  intro task node known
  have blanks := (moves_extends moves).blanks task
  rw [known, Option.map_some] at blanks
  obtain ⟨current, present, blank⟩ := Option.map_eq_some_iff.mp blanks
  have kind : current.blank.kind = node.blank.kind := congrArg TaskNode.kind blank
  have needs : current.blank.requiredCapabilities = node.blank.requiredCapabilities :=
    congrArg TaskNode.requiredCapabilities blank
  exact needs.symm.trans ((exact task current present).trans (congrArg TaskKind.requiredCapabilities kind))

/-- No entry of an exact job is ever given back. -/
theorem Runs.never_releases (sorts : Sorts toposort) {first c : Cluster} (boots : Boots config tools toposort first)
    (runs : Runs config tools toposort Draws first c) {jobId : JobId} {run : JobRun}
    (found : c.jobs.get? jobId = some run) (exact : run.handle.graph.Exact) (leaseId : LeaseId)
    (dispatches : List Dispatch) (promoted : Nat) :
    run.pc ≠ .releasing leaseId dispatches promoted := by
  induction runs generalizing run with
  | start =>
    obtain ⟨h, rfl, _⟩ := boots.begun sorts found
    exact fun absurd => by cases absurd
  | @next c event runs possible draws ih =>
    have sound := runs.redelivers.sound sorts (boots.sound sorts)
    cases apply_job possible draws.1 found with
    | kept known => exact ih known exact
    | submitted _ _ _ _ same =>
      subst same
      exact fun absurd => by cases absurd
    | steered known steers same =>
      subst same
      have before := ih known (exact_of_moves steers.moves exact)
      exact before
    | @engine before input isEngine known same =>
      subst isEngine same
      have orderly := runs.redelivers.carried carried_orderly sorts (boots.sound sorts)
        (fun _ known => boots.orderly known) before known
      exact sound.keeps_lease (runs.posted sorts boots (fun _ _ draws => draws.1)) known orderly
        (exact_of_moves (sound.stepped known possible).moves exact) possible
          (draws.2 jobId input before rfl known) _ _ _

end Cluster

theorem Pc.dispatches_outside {pc : Pc} (outside : ¬ pc.isLooping = true) : pc.dispatches = [] := by
  cases pc <;> first | rfl | exact absurd rfl outside

/-- Every task in hand has an agent of its own that can run it, and between two ticks all agents are at rest. -/
structure JobRun.Disciplined (run : JobRun) : Prop where
  apart : (run.pc.dispatches.map (fun dispatch => dispatch.agent.id)).Nodup
  capable : ∀ dispatch ∈ run.pc.dispatches, dispatch.agent.supports dispatch.task.requiredCapabilities = true
  serving : ∀ dispatch ∈ run.pc.dispatches, dispatch.agent ∈ run.handle.agents ∧ dispatch.agent.status = .running ∧
    dispatch.agent.currentTask = some dispatch.task.id
  resting : run.pc = .top → ∀ agent ∈ run.handle.agents, agent.status = .idle ∧ agent.currentTask = none

theorem JobRun.Orderly.disciplined {run : JobRun} (orderly : run.Orderly) : run.Disciplined := by
  by_cases looping : run.pc.isLooping = true
  · have crew := orderly.crew looping
    refine ⟨crew.apart, fun dispatch member => (crew.serving dispatch member).2.2.2, ?_, ?_⟩
    · intro dispatch member
      obtain ⟨pooled, running, current, _⟩ := crew.serving dispatch member
      exact ⟨pooled, running, current⟩
    · intro atTop agent member
      rw [atTop] at crew
      rcases crew.resting agent member with rests | ⟨_, absurd, _⟩
      · exact rests
      · cases absurd
  · have none := Pc.dispatches_outside looping
    refine ⟨?_, ?_, ?_, ?_⟩
    · rw [none]
      exact List.nodup_nil
    · rw [none]
      exact fun _ absurd => by cases absurd
    · rw [none]
      exact fun _ absurd => by cases absurd
    · intro atTop
      rw [atTop] at looping
      exact absurd rfl looping

namespace Cluster
variable {config : CoordinatorConfig} {tools : TextTools} {toposort : DiGraph TaskId → Except Nat (List Nat)}

/-- Whatever strategy places the tasks, and whatever it has learned: the pool of a job keeps
within its bounds once it has been filled, agents and tasks in hand go together one by one,
and a task that is polled always finds an agent, so no lease is given back. -/
theorem Runs.pool_discipline (sorts : Sorts toposort) {first c : Cluster} (boots : Boots config tools toposort first)
    (runs : Runs config tools toposort Draws first c) {jobId : JobId} {run : JobRun}
    (found : c.jobs.get? jobId = some run) (exact : run.handle.graph.Exact)
    (positive : 1 ≤ run.handle.job.request.maxAgents) :
    (∀ kind scheduler, Scheduler.Known kind scheduler → scheduler.name = kind.build.name ∧
      ∀ task, ∃ preference : List AgentDescriptor → Nat, ∀ agents, (scheduler.select task agents).1 =
        Engine.select preference task agents) ∧
    (run.pc.isLooping = true → ∀ later, Runs config tools toposort Draws c later →
      ∃ run', later.jobs.get? jobId = some run' ∧ 1 ≤ run'.handle.agents.length ∧
        run'.handle.agents.length ≤ run.handle.job.request.maxAgents) ∧
    run.Disciplined ∧
    (∀ input left dispatches promoted lease q, Engine.Draws input run.handle.agents →
      run.pc = .collecting (left + 1) dispatches promoted →
      c.shared.queue.dequeueFrom (Engine.worker config) [] [] input.now input.leaseId = (some lease, q) →
      (run.handle.graph.stateOf lease.task.payload.id).any TaskState.isLeasable = true →
      (Engine.acquireAgent config input.preference (input.agentIds 0) input.now run.handle.job.id lease.task.payload
        run.handle.agents).1.isSome = true) ∧
    ∀ leaseId dispatches promoted, run.pc ≠ .releasing leaseId dispatches promoted := by
  have start := boots.sound sorts
  have sound := runs.redelivers.sound sorts start
  have orderly := runs.redelivers.carried carried_orderly sorts start (fun _ known => boots.orderly known) run found
  refine ⟨fun _ scheduler known => ⟨known.name, scheduler.select_preference⟩, ?_, orderly.disciplined, ?_,
    runs.never_releases sorts boots found exact⟩
  · intro looping later onwards
    obtain ⟨run', there, same, orderly', staffed⟩ :=
      Runs.stays_manned sorts sound found orderly (orderly.inhabited looping) onwards
    refine ⟨run', there, List.length_pos_iff.mpr staffed, ?_⟩
    have ceiling := orderly'.ceiling
    rw [same] at ceiling
    omega
  · intro input left dispatches promoted lease q draws collecting polled leasable
    exact sound.acquires (runs.posted sorts boots (fun _ _ draws => draws.1)) found orderly exact draws
      collecting polled leasable

/-- The identifiers drawn at this time are greater than all in the pool. -/
def drawsAt (c : Cluster) (turn : Nat × Nat) : Bool :=
  (c.jobs.get? ⟨turn.1⟩).all (fun run => run.handle.agents.all (fun agent => agent.id.uuid < 100 * turn.2))

/-- A test that holds before every turn of a schedule. -/
def drawsAll : Cluster → List (Nat × Nat) → Bool
  | _, [] => true
  | c, turn :: rest => c.drawsAt turn && (c.turns [turn]).drawsAll rest

theorem draws_of_drawsAt {c : Cluster} {turn : Nat × Nat} (checked : c.drawsAt turn = true) :
    c.Draws (.engine ⟨turn.1⟩ (crowdedInput turn.2)) := by
  refine ⟨fun _ absurd => (by cases absurd), ?_⟩
  rintro _ _ run ⟨⟩ found
  simp only [drawsAt, found, Option.all_some, List.all_eq_true, decide_eq_true_eq] at checked
  refine ⟨?_, ?_⟩
  · intro k k' same
    have uuids : 100 * turn.2 + k = 100 * turn.2 + k' := congrArg AgentId.uuid same
    omega
  · rintro k agent member same
    have below := checked agent member
    have uuid : agent.id.uuid = 100 * turn.2 + k := congrArg AgentId.uuid same
    omega

theorem runs_drawn {c : Cluster} (runs : Runs crowdedConfig sampleReader DiGraph.sort Draws new c)
    (schedule : List (Nat × Nat)) (checked : c.drawsAll schedule = true) :
    Runs crowdedConfig sampleReader DiGraph.sort Draws new (c.turns schedule) := by
  induction schedule generalizing c with
  | nil => exact runs
  | cons turn rest ih =>
    simp only [drawsAll, Bool.and_eq_true] at checked
    have step : Runs crowdedConfig sampleReader DiGraph.sort Draws new
        (c.apply crowdedConfig sampleReader DiGraph.sort (.engine ⟨turn.1⟩ (crowdedInput turn.2))) :=
      .next runs (fun _ _ _ _ _ answered => by cases answered) (draws_of_drawsAt checked.1)
    exact ih step checked.2

/-- A job with one agent. -/
def lonely : Cluster := new.seated (crowdedSubmission 1 1 .consensus)

/-- Its agent works on the first task. -/
def lonelySteps : List (Nat × Nat) := [(1, 1), (1, 2), (1, 3), (1, 4), (1, 5), (1, 6), (1, 7), (1, 8)]

theorem pool_discipline_lonely : ∃ run, (lonely.turns lonelySteps).jobs.get? ⟨1⟩ = some run ∧
    run.pc.dispatches.length = 1 ∧ run.Disciplined ∧ run.handle.agents.length = 1 := by
  have checked : new.admits 1 = true ∧ lonely.drawsAll lonelySteps = true ∧
      ((lonely.turns lonelySteps).jobs.get? ⟨1⟩).any (fun run => run.pc.isLooping &&
        (run.handle.graph.nodes.values.all (fun node => node.requiredCapabilities = node.kind.requiredCapabilities) &&
        (run.handle.job.request.maxAgents == 1 && run.pc.dispatches.length == 1))) = true := by decide +kernel
  obtain ⟨admitted, drawn, state⟩ := checked
  obtain ⟨run, found, here⟩ := (Option.any_eq_true _ _).mp state
  simp only [Bool.and_eq_true, List.all_eq_true, decide_eq_true_eq, beq_iff_eq] at here
  obtain ⟨looping, exact, limit, inHand⟩ := here
  have submits : ∀ c submission nodes, Draws c (.submit submission nodes) :=
    fun _ _ _ => ⟨fun _ absurd => (by cases absurd), fun _ _ _ absurd => (by cases absurd)⟩
  have runs : Runs crowdedConfig sampleReader DiGraph.sort Draws new (lonely.turns lonelySteps) :=
    runs_drawn (runs_seated submits .start admitted 1 .consensus) lonelySteps drawn
  have disciplined := Runs.pool_discipline sample_sorts .new runs found
    (fun _ node known => exact node (Dict.mem_values.mpr ⟨_, Dict.get?_eq_some.mp known⟩)) (Nat.le_of_eq limit.symm)
  obtain ⟨run', there, least, most⟩ := disciplined.2.1 looping _ .start
  rw [found] at there
  cases there
  exact ⟨run, found, inHand, disciplined.2.2.1, Nat.le_antisymm (limit ▸ most) least⟩

end Cluster

end Swarm
