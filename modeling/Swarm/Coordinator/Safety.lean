import Swarm.Coordinator.Cluster

namespace Swarm
open JobHandle Act Recovery

/-- What no move of a handle changes, and the journal that only grows. -/
structure JobHandle.Extends (h h' : JobHandle) : Prop where
  blanks : ∀ task, (h'.graph.get task).map TaskNode.blank = (h.graph.get task).map TaskNode.blank
  jobId : h'.graph.jobId = h.graph.jobId
  id : h'.job.id = h.job.id
  journal : h.journal <+: h'.journal

theorem JobHandle.Extends.refl (h : JobHandle) : Extends h h := ⟨fun _ => rfl, rfl, rfl, List.prefix_refl _⟩

theorem JobHandle.Extends.trans {h h' h'' : JobHandle} (first : Extends h h') (second : Extends h' h'') :
    Extends h h'' where
  blanks task := (second.blanks task).trans (first.blanks task)
  jobId := second.jobId.trans first.jobId
  id := second.id.trans first.id
  journal := first.journal.trans second.journal

theorem Move.extends {h h' : JobHandle} (move : Move h h') : Extends h h' := by
  cases move with
  | quiet same => exact ⟨fun _ => by rw [same.graph], by rw [same.graph], by rw [same.job], by rw [same.journal]⟩
  | attempt task attempt => exact ⟨stateOf_update_blank (fun _ => rfl), rfl, rfl, List.prefix_refl _⟩
  | rehash moved =>
    refine ⟨fun task => ?_, rfl, rfl, List.prefix_refl _⟩
    exact congrArg (Option.map TaskNode.blank) (moved.get? task).symm
  | advance => exact ⟨stateOf_update_blank (fun _ => rfl), rfl, rfl, List.prefix_append _ _⟩
  | complete => exact ⟨stateOf_update_blank (fun _ => rfl), rfl, rfl, List.prefix_append _ _⟩
  | failed => exact ⟨fun _ => rfl, rfl, rfl, List.prefix_append _ _⟩
  | status => exact ⟨fun _ => rfl, rfl, rfl, List.prefix_append _ _⟩
  | finish => exact ⟨fun _ => rfl, rfl, rfl, List.prefix_append _ _⟩

theorem moves_extends {h h' : JobHandle} (moves : Moves h h') : Extends h h' := by
  induction moves with
  | refl => exact .refl h
  | tail _ last ih => exact ih.trans last.extends

theorem JobHandle.Extends.isSome {h h' : JobHandle} (extends_ : Extends h h') (task : TaskId) :
    (h'.graph.get task).isSome = (h.graph.get task).isSome := by
  have same := congrArg Option.isSome (extends_.blanks task)
  simpa using same

/-- The tasks of a job are those of its plan. -/
theorem Sync.isSome_iff {job : Job} {tasks : List TaskNode} {h : JobHandle} (sync : Sync job tasks h)
    {task : TaskId} :
    (h.graph.get task).isSome = true ↔ task ∈ planIds tasks := by
  obtain ⟨plan, order, shaped⟩ := sync.shaped
  rw [shaped.get_isSome]
  exact planIds_perm order

/-- The nodes of a job carry its id and stand under their own. -/
theorem Sync.node_own {job : Job} {tasks : List TaskNode} {h : JobHandle} (sync : Sync job tasks h) {task : TaskId}
    {node : TaskNode} (found : h.graph.get task = some node) : node.id = task ∧ node.jobId = job.id := by
  obtain ⟨plan, _, shaped⟩ := sync.shaped
  obtain ⟨planned, member, _, _, blanks⟩ := sync.planned found
  have same : planned.blank.jobId = node.blank.jobId := congrArg TaskNode.jobId blanks
  change planned.jobId = node.jobId at same
  exact ⟨(shaped.get_some found).1, same ▸ sync.plan.own planned member⟩

/-- What a step does to the queue, for a pair of properties that go with the way of an entry. -/
theorem QueueStep.holds {input : EngineInput} {run run' : JobRun} {q q' : InMemoryQueue}
    (step : QueueStep input run run' q q') {waiting granted : QueuedTask → Prop}
    (cycle : InMemoryQueue.Cycle waiting granted) (holds : q.Houses waiting granted)
    (fresh : ∀ task earlier node priority leaseMs, run.handle.graph.get task = some earlier →
      earlier.state.isFresh = true →
      node = { earlier with state := .queued } → run'.handle.graph.get task = some node → run.handle.Live →
      waiting (.fromTask node priority leaseMs input.now)) : q'.Houses waiting granted := by
  cases step with
  | same => exact holds
  | enqueued priority leaseMs found _ known was same live =>
    exact holds.enqueue (fresh _ _ _ priority leaseMs known was same found live)
  | swept => exact holds.requeueExpired cycle _
  | polled _ polled => exact (holds.polled cycle polled).1
  | dropped => exact holds.acknowledge cycle _ _
  | released => exact holds.release cycle _ _
  | @settled dispatch _ _ _ _ _ settles =>
    have settled := holds.acknowledge cycle dispatch.lease.leaseId input.now
    cases settles with
    | acknowledged run =>
      rw [run] at settled
      exact settled
    | lost run =>
      rw [run] at settled
      exact settled
    | rejected reason => exact holds.reject cycle _ reason _
  | purged => exact holds.purgeJob _

theorem QueueStep.carries {input : EngineInput} {run run' : JobRun} {q q' : InMemoryQueue}
    (step : QueueStep input run run' q q') {property : QueuedTask → Prop} (stable : QueuedTask.Stable property)
    (carries : q.Carries property)
    (fresh : ∀ task node priority leaseMs, run'.handle.graph.get task = some node →
      property (.fromTask node priority leaseMs input.now)) : q'.Carries property := by
  rw [InMemoryQueue.carries_iff] at carries ⊢
  refine step.holds (InMemoryQueue.cycle_of_stable stable) carries ?_
  intro task _ node priority leaseMs _ _ _ found _
  exact fresh task node priority leaseMs found

namespace Cluster
variable {config : CoordinatorConfig} {tools : TextTools} {toposort : DiGraph TaskId → Except Nat (List Nat)}

/-- The entry is of a task that its job has. -/
def Genuine (c : Cluster) (entry : QueuedTask) : Prop :=
  entry.jobId = entry.payload.jobId ∧ ∃ run, c.jobs.get? entry.payload.jobId = some run ∧
    (run.handle.graph.get entry.payload.id).isSome = true

theorem genuine_stable (c : Cluster) : QueuedTask.Stable c.Genuine := fun _ _ _ genuine => genuine

/-- Every job is in step with its log, jobs share no task, and the queue holds only tasks of jobs. -/
structure Sound (c : Cluster) : Prop where
  engines : ∀ jobId run, c.jobs.get? jobId = some run → run.Sound
  synced : ∀ jobId run, c.jobs.get? jobId = some run → ∃ job tasks, job.id = jobId ∧ Sync job tasks run.handle
  apart : ∀ jobId jobId' run run' task, c.jobs.get? jobId = some run → c.jobs.get? jobId' = some run' →
    (run.handle.graph.get task).isSome = true → (run'.handle.graph.get task).isSome = true → jobId = jobId'
  queue : c.shared.queue.Carries c.Genuine

theorem sound_new : new.Sound := by
  refine ⟨?_, ?_, ?_, ?_, ?_⟩
  · intro _ _ found
    cases found
  · intro _ _ found
    cases found
  · intro _ _ _ _ _ found
    cases found
  · intro entry member
    cases member
  · intro _ _ found
    cases found

/-- Whatever is delivered to a job and known to it is its own. -/
theorem Sound.owned {c : Cluster} (sound : c.Sound) {jobId : JobId} {run : JobRun}
    (found : c.jobs.get? jobId = some run) {entry : QueuedTask} (genuine : c.Genuine entry)
    (known : (run.handle.graph.get entry.payload.id).isSome = true) : entry.payload.jobId = jobId := by
  obtain ⟨_, owner, present, holds⟩ := genuine
  exact sound.apart _ _ owner run _ present found holds known

theorem carries_mono {q : InMemoryQueue} {property property' : QueuedTask → Prop} (carries : q.Carries property)
    (more : ∀ entry, property entry → property' entry) : q.Carries property' :=
  ⟨fun entry member => more entry (carries.ready entry member),
    fun leaseId lease found => more lease.task (carries.leases leaseId lease found)⟩

/-- A job goes on: its tasks and their owner stay the same. -/
theorem Sound.replace {c : Cluster} (sound : c.Sound) {jobId : JobId} {run run' : JobRun}
    (found : c.jobs.get? jobId = some run) (moves : Moves run.handle run'.handle) (engine : run'.Sound)
    {shared : Shared} (queue : shared.queue.Carries (Genuine ⟨c.jobs.insert jobId run', shared⟩)) :
    Sound ⟨c.jobs.insert jobId run', shared⟩ := by
  have extends_ := moves_extends moves
  have lookup : ∀ other current, (c.jobs.insert jobId run').get? other = some current →
      ∃ before, c.jobs.get? other = some before ∧
        (∀ task, (current.handle.graph.get task).isSome = (before.handle.graph.get task).isSome) ∧
        Moves before.handle current.handle ∧ (before.Sound → current.Sound) := by
    intro other current present
    rw [Dict.get?_insert] at present
    split at present
    · rename_i same
      cases present
      exact ⟨run, same ▸ found, extends_.isSome, moves, fun _ => engine⟩
    · exact ⟨current, present, fun _ => rfl, .refl, id⟩
  refine ⟨?_, ?_, ?_, queue⟩
  · intro other current present
    obtain ⟨before, known, _, _, kept⟩ := lookup other current present
    exact kept (sound.engines other before known)
  · intro other current present
    obtain ⟨before, known, _, moved, _⟩ := lookup other current present
    obtain ⟨job, tasks, id, sync⟩ := sound.synced other before known
    exact ⟨job, tasks, id, sync.moves moved⟩
  · intro left right current current' task present present' inside inside'
    obtain ⟨before, known, tasks, _⟩ := lookup left current present
    obtain ⟨before', known', tasks', _⟩ := lookup right current' present'
    rw [tasks] at inside
    rw [tasks'] at inside'
    exact sound.apart left right before before' task known known' inside inside'

/-- Entries stay genuine when a job goes on. -/
theorem genuine_replace {c : Cluster} {jobId : JobId} {run run' : JobRun} (found : c.jobs.get? jobId = some run)
    (moves : Moves run.handle run'.handle) {shared : Shared} {entry : QueuedTask} (genuine : c.Genuine entry) :
    Genuine ⟨c.jobs.insert jobId run', shared⟩ entry := by
  obtain ⟨own, owner, present, holds⟩ := genuine
  refine ⟨own, ?_⟩
  by_cases same : entry.payload.jobId = jobId
  · rw [same, found] at present
    cases present
    refine ⟨run', ?_, ?_⟩
    · rw [same]
      exact Dict.get?_insert_self
    · rw [(moves_extends moves).isSome]
      exact holds
  · exact ⟨owner, by rw [Dict.get?_insert_of_ne same]; exact present, holds⟩

/-- The answers that executions come to are about their tasks. -/
theorem answered_of_possible {c : Cluster} {jobId : JobId} {input : EngineInput}
    (possible : c.Possible config tools toposort (.engine jobId input))
    {run : JobRun} (found : c.jobs.get? jobId = some run) : Engine.Answered input run.pc := by
  intro dispatches outcomes executing answered
  refine (possible run dispatches outcomes found executing answered).imp ?_
  intro dispatch outcome answers result returned
  obtain ⟨f, reach, d, member, _, _, answer⟩ := answers _ returned
  exact reach.answer_about member answer

/-- A step of the engine of a job that is answered about what it asked. -/
theorem Sound.steps {c : Cluster} (sound : c.Sound) {jobId : JobId} {run : JobRun}
    (found : c.jobs.get? jobId = some run) {input : EngineInput} (answered : Engine.Answered input run.pc) :
    Stepped input run c.shared.queue (Engine.step config toposort input run c.shared).1
      (Engine.step config toposort input run c.shared).2.queue := by
  obtain ⟨job, tasks, id, sync⟩ := sound.synced jobId run found
  obtain ⟨plan, _, shaped⟩ := sync.shaped
  refine Engine.step_stepped (sound.engines jobId run found) shaped.navigable ?_ answered
  refine carries_mono sound.queue ?_
  intro entry genuine known
  rw [sound.owned found genuine known, sync.jobId, id]

theorem Sound.engine_steps {c : Cluster} (sound : c.Sound) {jobId : JobId} {input : EngineInput}
    (answered : ∀ run, c.jobs.get? jobId = some run → Engine.Answered input run.pc) :
    (c.engine config toposort jobId input).Sound := by
  unfold Cluster.engine
  cases found : c.jobs.get? jobId with
  | none => exact sound
  | some run =>
    have stepped : Stepped input run c.shared.queue (Engine.step config toposort input run c.shared).1
        (Engine.step config toposort input run c.shared).2.queue := sound.steps found (answered run found)
    simp only
    generalize Engine.step config toposort input run c.shared = after at stepped
    obtain ⟨run', shared⟩ := after
    obtain ⟨job, tasks, id, sync⟩ := sound.synced jobId run found
    have sync' := sync.moves stepped.moves
    refine sound.replace found stepped.moves stepped.sound ?_
    refine stepped.queue.carries (genuine_stable _)
      (carries_mono sound.queue (fun _ genuine => genuine_replace found stepped.moves genuine)) ?_
    intro task node priority leaseMs present
    obtain ⟨nodeId, nodeJob⟩ := sync'.node_own present
    refine ⟨rfl, run', ?_, ?_⟩
    · change (c.jobs.insert jobId run').get? node.jobId = some run'
      rw [nodeJob, id]
      exact Dict.get?_insert_self
    · change (run'.handle.graph.get node.id).isSome = true
      rw [nodeId, present]
      rfl

/-- A step of the engine of a job. -/
theorem Sound.stepped {c : Cluster} (sound : c.Sound) {jobId : JobId} {run : JobRun}
    (found : c.jobs.get? jobId = some run) {input : EngineInput}
    (possible : c.Possible config tools toposort (.engine jobId input)) :
    Stepped input run c.shared.queue (Engine.step config toposort input run c.shared).1
      (Engine.step config toposort input run c.shared).2.queue :=
  sound.steps found (answered_of_possible possible found)

theorem Sound.engine {c : Cluster} (sound : c.Sound) {jobId : JobId} {input : EngineInput}
    (possible : c.Possible config tools toposort (.engine jobId input)) :
    (c.engine config toposort jobId input).Sound :=
  sound.engine_steps (fun _ found => answered_of_possible possible found)

/-- What the operator or the order of a map does to a handle: nothing the engine relies on. -/
structure Steers (h h' : JobHandle) : Prop where
  moves : Moves h h'
  job : h'.job = h.job
  jobId : h'.graph.jobId = h.graph.jobId
  nodes : ∀ task, h'.graph.get task = h.graph.get task
  agents : h'.agents = h.agents

theorem Steers.states {h h' : JobHandle} (steers : Steers h h') (task : TaskId) :
    h'.graph.stateOf task = h.graph.stateOf task := by
  unfold TaskGraph.stateOf
  rw [steers.nodes]

theorem Steers.sound {run : JobRun} {h : JobHandle} (steers : Steers run.handle h) (sound : run.Sound) :
    { run with handle := h }.Sound := by
  refine ⟨?_, ?_, ?_, sound.waiting, ?_, ?_, sound.distinct, sound.fits⟩
  · intro active
    unfold JobHandle.Live
    rw [steers.job]
    exact sound.live active
  · simp only [steers.job]
    exact sound.ticking
  · simp only [steers.job]
    exact sound.top
  · intro todo queued here task member node found
    rw [steers.nodes] at found
    obtain ⟨unblocked, state⟩ := sound.todo todo queued here task member node found
    exact ⟨fun dependency depends => by rw [steers.states]; exact unblocked dependency depends, state⟩
  · intro dispatch member
    simp only [steers.states, steers.jobId]
    exact sound.dispatched dispatch member

theorem steer_steers {h : JobHandle} (target : Control) :
    Ensures (steer target) h (fun _ h' => Steers h h') (fun _ h' => Steers h h') := by
  simp only [steer, ensures_bind, ensures_get]
  split
  · simp only [ensures_bind, ensures_throw]
    exact ⟨.refl, rfl, rfl, fun _ => rfl, rfl⟩
  · simp only [ensures_bind, ensures_set, emit, ensures_modify]
    exact ⟨.single (.quiet ⟨rfl, rfl, rfl, rfl, rfl⟩), rfl, rfl, fun _ => rfl, rfl⟩

theorem cancel_steers {h : JobHandle} :
    Ensures JobHandle.cancel h (fun _ h' => Steers h h') (fun _ h' => Steers h h') := by
  simp only [JobHandle.cancel, emit, ensures_bind, ensures_modify]
  exact ⟨.single (.quiet ⟨rfl, rfl, rfl, rfl, rfl⟩), rfl, rfl, fun _ => rfl, rfl⟩

theorem rehash_steers {h : JobHandle} {nodes : Dict TaskId TaskNode} (moved : h.graph.nodes.Rehash nodes) :
    Ensures (modify (fun h : JobHandle => { h with graph := { h.graph with nodes := nodes } }) : HandleAct Unit) h
      (fun _ h' => Steers h h') (fun _ h' => Steers h h') := by
  simp only [ensures_modify]
  exact ⟨.single (.rehash moved), rfl, rfl, fun task => (moved.get? task).symm, rfl⟩

/-- At most the handle of one job has been steered. -/
def Steered (c c' : Cluster) (jobId : JobId) : Prop :=
  c' = c ∨ ∃ run h, c.jobs.get? jobId = some run ∧ Steers run.handle h ∧
    c' = { c with jobs := c.jobs.insert jobId { run with handle := h } }

theorem act_steered {c : Cluster} {jobId : JobId} {work : HandleAct Unit}
    (steers : ∀ run, c.jobs.get? jobId = some run →
      Ensures work run.handle (fun _ h => Steers run.handle h) (fun _ h => Steers run.handle h)) :
    Steered c (c.act jobId work) jobId := by
  unfold Cluster.act
  cases found : c.jobs.get? jobId with
  | none => exact Or.inl rfl
  | some run =>
    rcases (steers run found).cases with ⟨_, h, done, kept⟩ | ⟨e, h, failed, kept⟩
    · exact Or.inr ⟨run, h, found, kept, by simp only [done]⟩
    · exact Or.inr ⟨run, h, found, kept, by simp only [failed]⟩

/-- Pausing, resuming, cancelling and rehashing are work on one handle. -/
theorem apply_steered {c : Cluster} {event : Event}
    (possible : c.Possible config tools toposort event) {jobId : JobId}
    (local_ : event = .pause jobId ∨ event = .resume jobId ∨ event = .cancel jobId ∨
    ∃ nodes, event = .rehash jobId nodes) :
    Steered c (c.apply config tools toposort event) jobId := by
  rcases local_ with rfl | rfl | rfl | ⟨nodes, rfl⟩
  · exact act_steered (fun _ _ => steer_steers _)
  · exact act_steered (fun _ _ => steer_steers _)
  · exact act_steered (fun _ _ => cancel_steers)
  · exact act_steered (fun run found => rehash_steers (possible run found))

/-- Work on a handle that the log does not notice. -/
theorem Sound.steered {c c' : Cluster} (sound : c.Sound) {jobId : JobId}
    (steered : Steered c c' jobId) : c'.Sound := by
  rcases steered with rfl | ⟨run, h, found, steers, rfl⟩
  · exact sound
  · exact sound.replace found steers.moves (steers.sound (sound.engines jobId run found))
      (carries_mono sound.queue (fun _ genuine => genuine_replace found steers.moves genuine))

end Cluster

/-- A submission that is planned: its job is new and its graph compiled. -/
theorem Submission.plan_decompose {config : CoordinatorConfig} {tools : TextTools}
    {toposort : DiGraph TaskId → Except Nat (List Nat)} {submission : Submission} {job : Job} {graph : TaskGraph}
    (run : submission.plan config tools toposort = .ok (job, graph)) :
    job.id = submission.jobId ∧ job.status = .planning ∧
      decompose .wraps tools submission.taskIds job toposort = .ok graph := by
  unfold Submission.plan at run
  have admits : StateMachine.transition
      (Job.new submission.jobId submission.correlationId submission.request submission.now).status
        JobStatus.admitted =
        .ok .admitted := rfl
  have plans : StateMachine.transition JobStatus.admitted JobStatus.planning = .ok .planning := rfl
  simp only [bind, Except.bind, admits, plans, Except.mapError] at run
  split at run
  · cases run
  · split at run
    · cases run
    · split at run
      · cases run
      · rename_i decomposed
        cases run
        exact ⟨rfl, rfl, decomposed⟩

theorem Submission.plan_ok {config : CoordinatorConfig} {tools : TextTools}
    {toposort : DiGraph TaskId → Except Nat (List Nat)} {submission : Submission} {job : Job} {graph : TaskGraph}
    (run : submission.plan config tools toposort = .ok (job, graph)) :
    job.id = submission.jobId ∧ job.status = .planning ∧ graph.Untouched job.id submission.taskIds ∧
      graph.nodes.entries ≠ [] := by
  obtain ⟨id, status, decomposed⟩ := plan_decompose run
  obtain ⟨untouched, inhabited⟩ := decompose_untouched decomposed
  exact ⟨id, status, untouched, inhabited⟩

/-- A freshly planned job is in step with its one record. -/
theorem sync_planned {job : Job} {graph : TaskGraph} {ids : Nat → TaskId} (status : job.status = .planning)
    (untouched : graph.Untouched job.id ids) (inhabited : graph.nodes.entries ≠ []) {nodes : Dict TaskId TaskNode}
    (moved : graph.nodes.Rehash nodes) : Sync job nodes.values (.planned job { graph with nodes := nodes }) := by
  obtain ⟨plan, shaped, blanks⟩ := untouched.shaped
  have shaped' := shaped.rehash moved
  have fresh : ∀ node ∈ nodes.values, node.blank = node ∧ node.jobId = job.id := by
    intro node member
    obtain ⟨key, present⟩ := Dict.mem_values.mp member
    have before := untouched.tasks node (Dict.mem_values.mpr ⟨key, (List.Perm.mem_iff moved).mpr present⟩)
    exact ⟨before.1, before.2.1⟩
  have order : plan.Perm nodes.values := by
    have same := shaped'.nodes.map Prod.snd
    simp only [List.map_map] at same
    have left : nodes.entries.map (Prod.snd ∘ fun entry => (entry.1, entry.2.blank)) = nodes.values := by
      refine List.map_congr_left ?_
      intro entry member
      exact (fresh entry.2 (Dict.mem_values.mpr ⟨entry.1, member⟩)).1
    have right : plan.map (Prod.snd ∘ fun node => (node.id, node.blank)) = plan :=
      (List.map_congr_left (g := id) blanks).trans (List.map_id plan)
    rw [left, right] at same
    exact same.symm
  have created : ∀ task node, TaskGraph.get { graph with nodes := nodes } task = some node →
      node.state = .created := by
    intro task node found
    have member := Dict.mem_values.mpr ⟨task, Dict.get?_eq_some.mp found⟩
    rw [← (fresh node member).1]
    rfl
  refine ⟨⟨by rw [status]; rfl, ⟨plan, shaped'.ordered, order.symm⟩, ?_, fun node member => (fresh node member).1,
    fun node member => (fresh node member).2⟩, .planned, rfl, untouched.own, ⟨plan, order, shaped'⟩, ?_, ?_,
    ⟨job.status, rfl, rfl⟩, rfl, rfl⟩
  · intro empty
    refine inhabited (List.length_eq_zero_iff.mp ?_)
    rw [List.Perm.length_eq moved]
    simpa [Dict.values] using congrArg List.length empty
  · intro task state found
    obtain ⟨node, got, rfl⟩ := Option.map_eq_some_iff.mp found
    rw [created task node got]
    exact fun before impossible => by cases impossible
  · intro task node found promoted
    rw [created task node found] at promoted
    cases promoted

theorem sound_idle (h : JobHandle) : (JobRun.new h).Sound := by
  refine ⟨?_, ?_, ?_, ?_, ?_, ?_, ?_, ?_⟩ <;> simp [JobRun.new, Pc.isActive, Pc.isTicking, Pc.dispatches]

namespace Cluster
variable {config : CoordinatorConfig} {tools : TextTools} {toposort : DiGraph TaskId → Except Nat (List Nat)}

theorem Sound.submit {c : Cluster} (sound : c.Sound) {submission : Submission} {nodes : Dict TaskId TaskNode}
    (possible : c.Possible config tools toposort (.submit submission nodes)) :
    (c.submit config tools toposort submission nodes).Sound := by
  obtain ⟨fresh, apart, rehash⟩ := possible
  unfold Cluster.submit
  split
  · exact sound
  · rename_i job graph planned
    obtain ⟨id, status, untouched, inhabited⟩ := submission.plan_ok planned
    have moved := rehash job graph planned
    have sync := sync_planned status untouched inhabited moved
    rw [← id] at fresh
    have mine : ∀ task, (TaskGraph.get { graph with nodes := nodes } task).isSome = true →
        ∀ other run, c.jobs.get? other = some run → (run.handle.graph.get task).isSome = true → False := by
      intro task known other run present holds
      obtain ⟨node, found⟩ := Option.isSome_iff_exists.mp known
      have member := Dict.mem_values.mpr ⟨task, Dict.get?_eq_some.mp ((moved.get? task).trans found)⟩
      obtain ⟨_, _, k, drawn⟩ := untouched.tasks node member
      rw [← (sync.node_own found).1, drawn, apart other run k present] at holds
      cases holds
    refine ⟨?_, ?_, ?_, ?_⟩
    · intro other run present
      simp only [Dict.get?_insert] at present
      split at present
      · cases present
        exact sound_idle _
      · exact sound.engines other run present
    · intro other run present
      simp only [Dict.get?_insert] at present
      split at present
      · rename_i same
        cases present
        exact ⟨job, nodes.values, same.symm, sync⟩
      · exact sound.synced other run present
    · intro left right run run' task present present' holds holds'
      simp only [Dict.get?_insert] at present present'
      split at present <;> split at present'
      · rename_i same same'
        exact same.trans same'.symm
      · cases present
        exact (mine task holds right run' present' holds').elim
      · cases present'
        exact (mine task holds' left run present holds).elim
      · exact sound.apart left right run run' task present present' holds holds'
    · refine carries_mono sound.queue ?_
      rintro entry ⟨own, run, present, holds⟩
      refine ⟨own, run, ?_, holds⟩
      rw [Dict.get?_insert_of_ne]
      · exact present
      · intro same
        rw [same, fresh] at present
        cases present

/-- Every job with a record left is rebuilt, in step with the records that are left. -/
theorem Sound.rebuilt {c : Cluster} (sound : c.Sound) (sorts : Sorts toposort) {journal : List JournalRecord}
    (leaves : c.Leaves journal) {jobId : JobId} (present : own jobId journal ≠ []) :
    ∃ run job tasks h current, c.jobs.get? jobId = some run ∧ job.id = jobId ∧ Sync job tasks run.handle ∧
      Legal job tasks (own jobId journal) ∧ rebuild toposort journal jobId = some (.ok h) ∧
      (replay (own jobId journal)).job = some current ∧
      Rebuilt (replay (own jobId journal)) current (own jobId journal) h ∧ Sync job tasks h := by
  have kept := leaves jobId
  cases found : c.jobs.get? jobId with
  | none =>
    rw [found] at kept
    exact absurd kept present
  | some run =>
    rw [found] at kept
    obtain ⟨job, tasks, id, sync⟩ := sound.synced jobId run found
    have legal := sync.legal.cut kept present
    obtain ⟨h, current, built, planned, rebuilt, synced⟩ := legal.rebuilt sorts sync.plan
    exact ⟨run, job, tasks, h, current, rfl, id, sync, legal,
      by rw [rebuild_eq present, built], planned, rebuilt, synced⟩

theorem restart_get? {journal : List JournalRecord} {jobId : JobId} {run : JobRun}
    (found : (restart toposort journal).jobs.get? jobId = some run) :
    own jobId journal ≠ [] ∧ ∃ h, rebuild toposort journal jobId = some (.ok h) ∧ run = .new h := by
  simp only [restart, Dict.get?_mapValues, recover_get?] at found
  obtain ⟨h, rebuilt, rfl⟩ := Option.map_eq_some_iff.mp found
  obtain ⟨answer, built, ok⟩ := Option.bind_eq_some_iff.mp rebuilt
  cases answer with
  | error e => cases ok
  | ok handle =>
    cases ok
    refine ⟨?_, h, built, rfl⟩
    intro nothing
    unfold rebuild at built
    rw [accumulated, if_pos nothing] at built
    cases built

theorem restart_of_rebuilt {journal : List JournalRecord} {jobId : JobId} {h : JobHandle}
    (rebuilt : rebuild toposort journal jobId = some (.ok h)) :
    (restart toposort journal).jobs.get? jobId = some (.new h) := by
  simp only [restart, Dict.get?_mapValues, recover_get?, rebuilt]
  rfl

/-- Every job of a new process was there before, with the same tasks. -/
theorem Sound.back {c : Cluster} (sound : c.Sound) (sorts : Sorts toposort) {journal : List JournalRecord}
    (leaves : c.Leaves journal) {jobId : JobId} {run : JobRun}
    (found : (Cluster.restart toposort journal).jobs.get? jobId = some run) :
    ∃ old job tasks h, c.jobs.get? jobId = some old ∧ job.id = jobId ∧ Sync job tasks old.handle ∧
      Sync job tasks h ∧ run = .new h := by
  obtain ⟨present, h, rebuilt, rfl⟩ := restart_get? found
  obtain ⟨old, job, tasks, h', _, known, id, sync, _, again, _, _, synced⟩ := sound.rebuilt sorts leaves present
  rw [rebuilt] at again
  cases again
  exact ⟨old, job, tasks, h, known, id, sync, synced, rfl⟩

theorem Sound.restart {c : Cluster} (sound : c.Sound) (sorts : Sorts toposort) {journal : List JournalRecord}
    (leaves : c.Leaves journal) : (restart toposort journal).Sound := by
  refine ⟨?_, ?_, ?_, ?_, ?_⟩
  · intro jobId run found
    obtain ⟨_, _, _, h, _, _, _, _, rfl⟩ := sound.back sorts leaves found
    exact sound_idle h
  · intro jobId run found
    obtain ⟨_, job, tasks, h, _, id, _, synced, rfl⟩ := sound.back sorts leaves found
    exact ⟨job, tasks, id, synced⟩
  · intro jobId jobId' run run' task found found' holds holds'
    obtain ⟨old, job, tasks, h, known, _, sync, synced, rfl⟩ := sound.back sorts leaves found
    obtain ⟨old', job', tasks', h', known', _, sync', synced', rfl⟩ := sound.back sorts leaves found'
    exact sound.apart jobId jobId' old old' task known known' (sync.isSome_iff.mpr (synced.isSome_iff.mp holds))
      (sync'.isSome_iff.mpr (synced'.isSome_iff.mp holds'))
  · intro entry member
    cases member
  · intro _ _ found
    cases found

/-- Every event keeps a coordinator sound. -/
theorem Sound.apply {c : Cluster} (sound : c.Sound) (sorts : Sorts toposort) {event : Event}
    (possible : c.Possible config tools toposort event) : (c.apply config tools toposort event).Sound := by
  cases event with
  | submit submission nodes => exact sound.submit possible
  | engine jobId input => exact sound.engine possible
  | pause jobId => exact sound.steered (apply_steered possible (Or.inl rfl))
  | resume jobId => exact sound.steered (apply_steered possible (Or.inr (Or.inl rfl)))
  | cancel jobId => exact sound.steered (apply_steered possible (Or.inr (Or.inr (Or.inl rfl))))
  | purge jobId => exact ⟨sound.engines, sound.synced, sound.apart, sound.queue.purgeJob jobId⟩
  | rehash jobId nodes => exact sound.steered (apply_steered possible (Or.inr (Or.inr (Or.inr ⟨nodes, rfl⟩))))
  | rehashLeases leases =>
    refine ⟨sound.engines, sound.synced, sound.apart, sound.queue.ready, ?_⟩
    intro leaseId lease found
    exact sound.queue.leases leaseId lease ((Dict.Rehash.get? possible leaseId).trans found)
  | restart journal => exact sound.restart sorts possible

theorem goes_on_insert {c : Cluster} {jobId other : JobId} {run run' before : JobRun}
    (found : c.jobs.get? other = some run) (moves : Moves run.handle run'.handle)
    (known : c.jobs.get? jobId = some before) :
    ∃ after, (c.jobs.insert other run').get? jobId = some after ∧ Moves before.handle after.handle := by
  rw [Dict.get?_insert]
  split
  · rename_i same
    rw [same, found] at known
    cases known
    exact ⟨run', rfl, moves⟩
  · exact ⟨before, known, .refl⟩

theorem goes_on_steered {c c' : Cluster} {jobId other : JobId} {before : JobRun} (steered : Steered c c' other)
    (known : c.jobs.get? jobId = some before) :
    ∃ after, c'.jobs.get? jobId = some after ∧ Moves before.handle after.handle := by
  rcases steered with rfl | ⟨run, h, found, steers, rfl⟩
  · exact ⟨before, known, .refl⟩
  · exact goes_on_insert found steers.moves known

/-- Within one lifetime of the process no job disappears, and each only moves. -/
theorem Sound.goes_on {c : Cluster} (sound : c.Sound) {event : Event}
    (possible : c.Possible config tools toposort event) (alive : ∀ journal, event ≠ .restart journal)
    {jobId : JobId} {before : JobRun} (known : c.jobs.get? jobId = some before) :
    ∃ after, (c.apply config tools toposort event).jobs.get? jobId = some after ∧
      Moves before.handle after.handle := by
  cases event with
  | submit submission nodes =>
    obtain ⟨fresh, _, _⟩ := possible
    simp only [Cluster.apply, Cluster.submit]
    split
    · exact ⟨before, known, .refl⟩
    · rename_i job graph planned
      refine ⟨before, ?_, .refl⟩
      simp only [Dict.get?_insert]
      rw [if_neg]
      · exact known
      · rintro rfl
        rw [(submission.plan_ok planned).1, fresh] at known
        cases known
  | engine other input =>
    simp only [Cluster.apply, Cluster.engine]
    cases found : c.jobs.get? other with
    | none => exact ⟨before, known, .refl⟩
    | some run => exact goes_on_insert found (sound.stepped found possible).moves known
  | pause other => exact goes_on_steered (apply_steered possible (Or.inl rfl)) known
  | resume other => exact goes_on_steered (apply_steered possible (Or.inr (Or.inl rfl))) known
  | cancel other => exact goes_on_steered (apply_steered possible (Or.inr (Or.inr (Or.inl rfl)))) known
  | purge other => exact ⟨before, known, .refl⟩
  | rehash other nodes => exact goes_on_steered (apply_steered possible (Or.inr (Or.inr (Or.inr ⟨nodes, rfl⟩)))) known
  | rehashLeases leases => exact ⟨before, known, .refl⟩
  | restart journal => exact absurd rfl (alive journal)

theorem Runs.sound {kind : Cluster → Event → Prop} {first c : Cluster} (sorts : Sorts toposort) (start : first.Sound)
    (runs : Runs config tools toposort kind first c) : c.Sound := by
  induction runs with
  | start => exact start
  | next _ possible _ ih => exact ih.apply sorts possible

end Cluster

end Swarm
