import Swarm.Coordinator.Safety

namespace Swarm
open Recovery

namespace Recovery

/-- Where the last transition of a task in the journal leads to. -/
def lastTransition (journal : List JournalRecord) (jobId : JobId) (task : TaskId) : Option TaskState :=
  (journal.filterMap (fun record =>
    match record with
    | .taskTransitioned owner transition moved _ =>
      if owner = jobId ∧ moved = task then some transition.target else none
    | _ => none)).getLast?

theorem lastTransition_eq (journal : List JournalRecord) (jobId : JobId) (task : TaskId) :
    lastTransition journal jobId task = lastState (own jobId journal) task := by
  induction journal using List.reverseRecOn with
  | nil => rfl
  | append_singleton journal record ih =>
    unfold lastTransition at ih ⊢
    rw [List.filterMap_append, own_snoc]
    by_cases mine : record.jobId = jobId
    · rw [if_pos mine, lastState_snoc]
      cases record with
      | taskTransitioned owner transition moved attempt =>
        change owner = jobId at mine
        subst mine
        by_cases here : moved = task
        · simp [here]
        · simpa [here, Ne.symm here] using ih
      | _ =>
        rw [List.filterMap_cons_none rfl, List.filterMap_nil, List.append_nil]
        exact ih
    · rw [if_neg mine]
      cases record with
      | taskTransitioned owner transition moved attempt =>
        change owner ≠ jobId at mine
        simpa [mine] using ih
      | _ =>
        rw [List.filterMap_cons_none rfl, List.filterMap_nil, List.append_nil]
        exact ih

/-- A job is planned once. -/
theorem Legal.planned_unique {job job' : Job} {tasks tasks' : List TaskNode} {log : List JournalRecord}
    (legal : Legal job tasks log) (member : JournalRecord.jobPlanned job' tasks' ∈ log) :
    job' = job ∧ tasks' = tasks := by
  induction legal with
  | planned =>
    cases List.mem_singleton.mp member
    exact ⟨rfl, rfl⟩
  | next _ follows ih =>
    rcases List.mem_append.mp member with old | new
    · exact ih old
    · cases List.mem_singleton.mp new
      cases follows

end Recovery

namespace Cluster
variable {config : CoordinatorConfig} {tools : TextTools}
  {toposort : DiGraph TaskId → Except Nat (List Nat)} {c : Cluster} {journal : List JournalRecord} {job : Job}
  {tasks : List TaskNode}

/-- What is left of a planned job: its log, cut somewhere, and the job rebuilt from it. -/
theorem Sound.remains (sound : c.Sound) (sorts : Sorts toposort) (leaves : c.Leaves journal)
    (planned : .jobPlanned job tasks ∈ journal) :
    ∃ h current, rebuild toposort journal job.id = some (.ok h) ∧ Legal job tasks (own job.id journal) ∧
      (replay (own job.id journal)).job = some current ∧
      Rebuilt (replay (own job.id journal)) current (own job.id journal) h ∧ Sync job tasks h := by
  have mine : JournalRecord.jobPlanned job tasks ∈ own job.id journal :=
    List.mem_filter.mpr ⟨planned, by simp [JournalRecord.jobId]⟩
  obtain ⟨_, job', tasks', h, current, _, _, _, legal, run, known, rebuilt, sync⟩ :=
    sound.rebuilt sorts leaves (List.ne_nil_of_mem mine)
  obtain ⟨rfl, rfl⟩ := legal.planned_unique mine
  exact ⟨h, current, run, legal, known, rebuilt, sync⟩

/-- The states of the rebuilt tasks, read off the last transitions. -/
theorem rebuilt_states {h : JobHandle} {current : Job} (legal : Legal job tasks (own job.id journal))
    (rebuilt : Rebuilt (replay (own job.id journal)) current (own job.id journal) h) {task : TaskId}
    (member : task ∈ planIds tasks) :
    h.graph.stateOf task = some ((lastTransition journal job.id task).elim .created restored) := by
  rw [lastTransition_eq]
  exact rebuilt.states task (by rw [legal.planned_job.1]; exact member)

/-- A task is restored as completed exactly when its last transition completed it. -/
theorem rebuilt_completed {h : JobHandle} {current : Job} (legal : Legal job tasks (own job.id journal))
    (rebuilt : Rebuilt (replay (own job.id journal)) current (own job.id journal) h) (sync : Sync job tasks h)
    {task : TaskId} :
    h.graph.stateOf task = some .completed ↔ lastState (own job.id journal) task = some .completed := by
  constructor
  · intro state
    have agrees := sync.states task .completed state
    rw [rebuilt.journal] at agrees
    exact agrees.completed
  · intro last
    rw [rebuilt_states legal rebuilt (legal.lastState_planned last), lastTransition_eq, last]
    rfl

/-- The log of a job that was there at some point is still there, and has only grown. -/
def Keeps (jobId : JobId) (log : List JournalRecord) (c : Cluster) : Prop :=
  ∃ run, c.jobs.get? jobId = some run ∧ log <+: run.handle.journal

/-- A later lifetime that starts from no less than the journal `base`. -/
def KeepsJournal (base : List JournalRecord) (event : Event) : Prop :=
  ∀ later, event = .restart later → base <+: later

theorem own_prefix {jobId : JobId} {base later : List JournalRecord} (start : base <+: later) :
    own jobId base <+: own jobId later := List.IsPrefix.filter _ start

theorem Sound.keeps_apply (sound : c.Sound) (sorts : Sorts toposort) {event : Event}
    (possible : c.Possible config tools toposort event) (kept : KeepsJournal journal event) {jobId : JobId}
    (present : own jobId journal ≠ []) (keeps : Keeps jobId (own jobId journal) c) :
    Keeps jobId (own jobId journal) (c.apply config tools toposort event) := by
  by_cases restarts : ∃ later, event = .restart later
  · obtain ⟨later, rfl⟩ := restarts
    have start : own jobId journal <+: own jobId later := own_prefix (kept later rfl)
    have still : own jobId later ≠ [] := by
      intro nothing
      rw [nothing, List.prefix_nil] at start
      exact present start
    obtain ⟨_, _, _, h, _, _, _, _, _, rebuilt, _, remains, _⟩ := sound.rebuilt sorts possible still
    refine ⟨.new h, restart_of_rebuilt rebuilt, ?_⟩
    change _ <+: h.journal
    rw [remains.journal]
    exact start
  · obtain ⟨before, known, start⟩ := keeps
    obtain ⟨after, now, moves⟩ := sound.goes_on possible (fun later same => restarts ⟨later, same⟩) known
    exact ⟨after, now, start.trans (moves_extends moves).journal⟩

theorem Runs.keeps {first : Cluster} (sorts : Sorts toposort) (start : first.Sound) {jobId : JobId}
    (present : own jobId journal ≠ []) (keeps : Keeps jobId (own jobId journal) first)
    (runs : Runs config tools toposort (fun _ event => KeepsJournal journal event) first c) :
    Keeps jobId (own jobId journal) c := by
  induction runs with
  | start => exact keeps
  | next runs possible kept ih => exact (runs.sound sorts start).keeps_apply sorts possible kept present ih

/-- What the log of a job says is completed is dispatched by no engine. -/
theorem Sound.not_dispatched (sound : c.Sound) {jobId owner : JobId} {log : List JournalRecord}
    (present : log ≠ []) (keeps : Keeps jobId log c) {run : JobRun} (found : c.jobs.get? owner = some run)
    {dispatch : Dispatch} (member : dispatch ∈ run.pc.dispatches)
    (completed : lastState log dispatch.task.id = some .completed) : False := by
  obtain ⟨mine, known, start⟩ := keeps
  obtain ⟨job, tasks, id, sync⟩ := sound.synced jobId mine known
  have last := sync.legal.terminal_persists start present completed rfl
  have running := ((sound.engines owner run found).dispatched dispatch member).1
  have holds : (run.handle.graph.get dispatch.task.id).isSome = true := by
    obtain ⟨node, got, _⟩ := Option.map_eq_some_iff.mp running
    rw [got]
    rfl
  have same :=
    sound.apart owner jobId run mine _ found known holds (sync.isSome_iff.mpr (sync.legal.lastState_planned last))
  rw [same, known] at found
  cases found
  have unfinished := (sync.states _ _ running).unfinished rfl _ last
  cases unfinished

/-- Recovery gives a legal state from which the job goes on, wherever the
journal was cut: the plan is rebuilt, from the job's own records alone, finished
tasks keep their last state and the others start over, completed tasks stand on
completed ones, there is something to do unless all is done, and what was
completed is dispatched by no engine of any later lifetime. -/
theorem Reach.recovery_resumable (sorts : Sorts toposort) (reach : Reach config tools toposort c)
    (leaves : c.Leaves journal) (planned : .jobPlanned job tasks ∈ journal) :
    ∃ h, rebuild toposort journal job.id = some (.ok h) ∧
      rebuild toposort (own job.id journal) job.id = some (.ok h) ∧
      (∀ task, (h.graph.get task).isSome = true ↔ task ∈ planIds tasks) ∧
      (∀ task ∈ planIds tasks, ∃ state, h.graph.stateOf task = some state ∧
        (∀ final, final.isTerminal = true → (state = final ↔ lastTransition journal job.id task = some final)) ∧
        (state.isTerminal = false → state = .created)) ∧
      (∀ task node, h.graph.get task = some node → node.state = .completed →
        ∀ dependency ∈ node.dependencies, h.graph.stateOf dependency = some .completed) ∧
      (h.graph.isComplete = false → h.graph.ready ≠ [] ∨ h.graph.blockedByAbandoned ≠ []) ∧
      ∀ later, Runs config tools toposort (fun _ event => KeepsJournal journal event)
        (restart toposort journal) later →
        ∀ jobId run, later.jobs.get? jobId = some run → ∀ dispatch ∈ run.pc.dispatches,
          h.graph.stateOf dispatch.task.id ≠ some .completed := by
  have sound := Runs.sound sorts sound_new reach
  obtain ⟨h, current, run, legal, known, rebuilt, sync⟩ := sound.remains sorts leaves planned
  have states : ∀ task ∈ planIds tasks, ∃ state, h.graph.stateOf task = some state ∧
      (∀ final, final.isTerminal = true → (state = final ↔ lastTransition journal job.id task = some final)) ∧
      (state.isTerminal = false → state = .created) := by
    intro task member
    exact ⟨_, rebuilt_states legal rebuilt member, restored_says _⟩
  refine ⟨h, run, by rw [rebuild_own]; exact run, fun _ => sync.isSome_iff, states, ?_, ?_, ?_⟩
  · intro task node found completed
    exact sync.promoted task node found (by rw [completed]; rfl)
  · intro incomplete
    obtain ⟨plan, order, shaped⟩ := sync.shaped
    refine shaped.navigable.ready_or_blocked ?_ (TaskGraph.exists_unfinished ?_ incomplete)
    · intro task state found
      obtain ⟨node, got, _⟩ := Option.map_eq_some_iff.mp found
      obtain ⟨other, same, _, reset⟩ := states task (sync.isSome_iff.mp (by rw [got]; rfl))
      rw [found] at same
      cases same
      cases terminal : state.isTerminal with
      | true => exact Or.inr rfl
      | false =>
        rw [reset terminal]
        exact Or.inl rfl
    · intro empty
      have lengths := shaped.nodes.length_eq
      simp only [List.length_map, empty, List.length_nil] at lengths
      rw [List.length_eq_zero_iff.mp lengths.symm] at order
      exact sync.plan.inhabited (List.Perm.nil_eq order).symm
  · intro later runs jobId current found dispatch member completed
    have present := legal.ne_nil
    have keeps : Keeps job.id (own job.id journal) (restart toposort journal) :=
      ⟨.new h, restart_of_rebuilt run, by change _ <+: h.journal; rw [rebuilt.journal]⟩
    have start := sound.restart sorts leaves
    exact (runs.sound sorts start).not_dispatched present (runs.keeps sorts start present keeps) found member
      ((rebuilt_completed legal rebuilt sync).mp completed)

end Cluster

/-- A sample to run: one agent, three tasks in a row, a gateway that answers well. -/
def sampleConfig : CoordinatorConfig := { nodeId := ⟨0⟩ }

def sampleAnswer : String :=
  "\x7b\"summary\":\"1 2 3 4 5 6 7 8 9 10 11 12 13 14 15\",\"confidence\":1\x7d"

def sampleReader : TextTools where
  fromStr text :=
    if text = sampleAnswer then
      .ok (.object [("summary", .string "1 2 3 4 5 6 7 8 9 10 11 12 13 14 15"), ("confidence", .number 1)])
    else .error "expected value at line 1 column 1"
  toLowercase := id

def sampleSubmission : Submission where
  request := { JobRequest.new "do it" with maxAgents := 1, executionStrategy := .adaptive }
  jobId := ⟨1⟩
  correlationId := ⟨0⟩
  taskIds k := ⟨10 + k⟩
  now := 0

/-- The input of a step at which nothing but the clock matters. -/
def plainInput (now : Nat) : EngineInput where
  now := now
  leaseId := ⟨now⟩
  agentIds k := ⟨20 + k⟩
  preference _ := 0
  outcomes := none
  merged := ⟨"", [], [], 0, []⟩
  elapsedMs := 0

namespace Cluster

/-- The tasks of a plan in the order they were inserted. -/
def planned (submission : Submission) : Dict TaskId TaskNode :=
  match submission.plan sampleConfig sampleReader DiGraph.sort with
  | .ok plan => plan.2.nodes
  | .error _ => .empty

def submitted (c : Cluster) (submission : Submission) : Cluster :=
  c.submit sampleConfig sampleReader DiGraph.sort submission (planned submission)

/-- The engine of a job takes steps at the given times. -/
def drive (c : Cluster) (jobId : JobId) (times : List Nat) : Cluster :=
  times.foldl (fun c now => c.engine sampleConfig DiGraph.sort jobId (plainInput now)) c

theorem reach_drive {c : Cluster} {kind : Cluster → Event → Prop}
    (reach : Runs sampleConfig sampleReader DiGraph.sort kind new c) (jobId : JobId) (times : List Nat)
    (allowed : ∀ c now, kind c (.engine jobId (plainInput now))) :
    Runs sampleConfig sampleReader DiGraph.sort kind new (c.drive jobId times) := by
  induction times generalizing c with
  | nil => exact reach
  | cons now rest ih =>
    have step : Runs sampleConfig sampleReader DiGraph.sort kind new
        (c.apply sampleConfig sampleReader DiGraph.sort (.engine jobId (plainInput now))) :=
      .next reach (fun _ _ _ _ _ answered => by cases answered) (allowed c now)
    exact ih step

theorem sample_sorts : Sorts DiGraph.sort := fun _ _ acyclic => DiGraph.sort_ok acyclic

theorem runs_submitted {c : Cluster} {kind : Cluster → Event → Prop}
    (runs : Runs sampleConfig sampleReader DiGraph.sort kind new c) {submission : Submission}
    (fresh : c.jobs.get? submission.jobId = none)
    (apart : ∀ jobId run k, c.jobs.get? jobId = some run → run.handle.graph.get (submission.taskIds k) = none)
    (allowed : kind c (.submit submission (planned submission))) :
    Runs sampleConfig sampleReader DiGraph.sort kind new (c.submitted submission) := by
  have possible : c.Possible sampleConfig sampleReader DiGraph.sort (.submit submission (planned submission)) := by
    refine ⟨fresh, apart, ?_⟩
    intro job graph run
    unfold planned
    rw [run]
    exact List.Perm.refl _
  exact .next runs possible allowed

theorem reach_submitted (submission : Submission) :
    Reach sampleConfig sampleReader DiGraph.sort (submitted new submission) :=
  runs_submitted .start rfl (fun _ _ _ found => (by cases found)) trivial

/-- Any cut through the log of the only job is a journal that may be left. -/
theorem Sound.leaves_take {c : Cluster} (sound : c.Sound) {jobId : JobId} {run : JobRun}
    (found : c.jobs.get? jobId = some run) (count : Nat) : c.Leaves (run.handle.journal.take count) := by
  obtain ⟨job, tasks, id, sync⟩ := sound.synced jobId run found
  have mine : ∀ record ∈ run.handle.journal.take count, record.jobId = jobId := fun record member =>
    (sync.legal.jobId_eq record (List.mem_of_mem_take member)).trans id
  intro other
  by_cases same : other = jobId
  · subst same
    rw [found]
    have whole : own other (run.handle.journal.take count) = run.handle.journal.take count :=
      List.filter_eq_self.mpr (fun record member => by simp [mine record member])
    simp only [whole]
    exact List.take_prefix _ _
  · have nothing : own other (run.handle.journal.take count) = [] :=
      List.filter_eq_nil_iff.mpr (fun record member => by simp [mine record member, Ne.symm same])
    rw [nothing]
    cases c.jobs.get? other with
    | none => rfl
    | some run => exact List.nil_prefix

/-- The first `count` records of a job. -/
def cut (c : Cluster) (jobId : JobId) (count : Nat) : List JournalRecord :=
  ((c.jobs.get? jobId).elim [] (fun run => run.handle.journal)).take count

/-- A planned job is rebuilt from every cut through its log. -/
theorem rebuilt_cut {c : Cluster} (reach : Reach sampleConfig sampleReader DiGraph.sort c) (jobId : JobId)
    (known : (c.jobs.get? jobId).isSome = true) (count : Nat) :
    c.Leaves (c.cut jobId (count + 1)) ∧ ∃ job tasks h, .jobPlanned job tasks ∈ c.cut jobId (count + 1) ∧
      job.id = jobId ∧ rebuild DiGraph.sort (c.cut jobId (count + 1)) jobId = some (.ok h) := by
  have sound := Runs.sound sample_sorts sound_new reach
  obtain ⟨run, found⟩ := Option.isSome_iff_exists.mp known
  obtain ⟨job, tasks, id, sync⟩ := sound.synced jobId run found
  simp only [cut, found, Option.elim_some]
  have leaves := sound.leaves_take found (count + 1)
  have planned : JournalRecord.jobPlanned job tasks ∈ run.handle.journal.take (count + 1) :=
    List.mem_of_getElem? ((List.getElem?_take_of_lt (Nat.succ_pos count)).trans sync.legal.first)
  obtain ⟨h, _, rebuilt, _⟩ := sound.remains sample_sorts leaves planned
  exact ⟨leaves, job, tasks, h, planned, id, id ▸ rebuilt⟩

end Cluster

/-- The sample job up to the execution of its first task. -/
def started : Cluster := (Cluster.submitted .new sampleSubmission).drive ⟨1⟩ [1, 2, 3, 4, 5, 6, 7, 8]

/-- The run up to there, of whatever kind allows its events. -/
theorem runs_started (kind : Cluster → Event → Prop)
    (submits : kind .new (.submit sampleSubmission (Cluster.planned sampleSubmission)))
    (steps : ∀ c input, kind c (.engine ⟨1⟩ input)) :
    Cluster.Runs sampleConfig sampleReader DiGraph.sort kind .new started :=
  Cluster.reach_drive (Cluster.runs_submitted .start rfl (fun _ _ _ found => (by cases found)) submits) ⟨1⟩ _
    (fun c now => steps c _)

def dispatchesOf (c : Cluster) (jobId : JobId) : List Dispatch :=
  (c.jobs.get? jobId).elim [] (fun run => run.pc.dispatches)

/-- What the gateway and the clock supply to the steps of an execution. -/
def gatewayInput (now : Nat) : StepInput :=
  ⟨now, ⟨now⟩, 5, .ok ⟨sampleAnswer, "mock", "mock-small", 3, 4, 0, 1, false, "stop"⟩⟩

/-- One execution of a dispatched task by its agent, from start to end. -/
def executed (dispatch : Dispatch) : Fleet :=
  [1, 2, 3, 4, 5, 6, 7].foldl (fun f now => f.advanceAt sampleReader 0 (gatewayInput now))
    (Fleet.new.deliver dispatch.agent.id dispatch.task)

/-- What the execution came to. -/
def outcomeOf (dispatch : Dispatch) : Outcome :=
  match (executed dispatch).deliveries.head? with
  | some delivery =>
    match delivery.execution.point with
    | .returned answer => .returned answer
    | _ => .elapsed
  | none => .elapsed

def answered : Cluster :=
  started.engine sampleConfig DiGraph.sort ⟨1⟩
    { plainInput 9 with outcomes := some ((dispatchesOf started ⟨1⟩).map outcomeOf) }

/-- The first task is completed. -/
def completed : Cluster := answered.drive ⟨1⟩ [10]

/-- Along the steps of an execution its agent and its task stay the same. -/
theorem executed_same (supply : Nat → StepInput) (dispatch : Dispatch) (times : List Nat) {f : Fleet}
    (one : ∃ d, f.deliveries = [d] ∧ d.execution.agentId = dispatch.agent.id ∧ d.execution.task = dispatch.task)
    (reach : Fleet.Reach sampleReader dispatch.task.jobId dispatch.task.id f) :
    Fleet.Reach sampleReader dispatch.task.jobId dispatch.task.id
        (times.foldl (fun f now => f.advanceAt sampleReader 0 (supply now)) f) ∧
      ∃ d, (times.foldl (fun f now => f.advanceAt sampleReader 0 (supply now)) f).deliveries = [d] ∧
        d.execution.agentId = dispatch.agent.id ∧ d.execution.task = dispatch.task := by
  induction times generalizing f with
  | nil => exact ⟨reach, one⟩
  | cons now rest ih =>
    refine ih ?_ (reach.advanceAt 0 _)
    obtain ⟨d, single, agent, task⟩ := one
    refine ⟨{ d with execution := { d.execution with point := (d.execution.step sampleReader f.store
      (supply now)).2 } }, ?_, agent, task⟩
    simp [Fleet.advanceAt, single, Fleet.advance]

theorem outcomeOf_answers (dispatch : Dispatch) : Cluster.Answers sampleReader dispatch (outcomeOf dispatch) := by
  obtain ⟨reach, d, single, agent, task⟩ := executed_same gatewayInput dispatch [1, 2, 3, 4, 5, 6, 7]
    ⟨⟨⟨dispatch.agent.id, dispatch.task, .lookup⟩, _⟩, rfl, rfl, rfl⟩ (.deliver .start rfl rfl)
  change (executed dispatch).deliveries = [d] at single
  intro answer returned
  refine ⟨_, reach, d, by rw [← executed, single]; exact List.mem_singleton_self d, agent, task, ?_⟩
  unfold outcomeOf at returned
  rw [single] at returned
  simp only [List.head?_cons] at returned
  split at returned
  · rename_i reply here
    cases returned
    exact here
  · cases returned

/-- Every dispatched task gets what its execution came to. -/
theorem possible_answers (c : Cluster) (now : Nat) : c.Possible sampleConfig sampleReader DiGraph.sort (.engine ⟨1⟩
    { plainInput now with outcomes := some ((dispatchesOf c ⟨1⟩).map outcomeOf) }) := by
  intro run dispatches outcomes found executing same
  cases same
  have inHand : dispatchesOf c ⟨1⟩ = dispatches := by
    simp only [dispatchesOf, found, executing, Option.elim_some]
    rfl
  rw [inHand, List.forall₂_map_right_iff]
  exact List.forall₂_same.mpr (fun dispatch _ => outcomeOf_answers dispatch)

theorem runs_completed {kind : Cluster → Event → Prop}
    (submits : kind .new (.submit sampleSubmission (Cluster.planned sampleSubmission)))
    (steps : ∀ c input, kind c (.engine ⟨1⟩ input)) :
    Cluster.Runs sampleConfig sampleReader DiGraph.sort kind .new completed := by
  refine Cluster.reach_drive ?_ ⟨1⟩ [10] (fun c now => steps c _)
  exact .next (runs_started kind submits steps) (possible_answers started 9) (steps _ _)

theorem reach_completed : Cluster.Reach sampleConfig sampleReader DiGraph.sort completed :=
  runs_completed trivial (fun _ _ => trivial)

/-- The first task is completed by seven records; the last of them has its result. -/
theorem completed_checked : (completed.jobs.get? ⟨1⟩).isSome = true ∧
    (rebuild DiGraph.sort (completed.cut ⟨1⟩ 7) ⟨1⟩).any (fun answer => answer.toOption.any (fun h =>
      h.graph.stateOf ⟨10⟩ == some .completed && h.results.length == 1)) = true ∧
    (rebuild DiGraph.sort (completed.cut ⟨1⟩ 6) ⟨1⟩).any (fun answer => answer.toOption.any (fun h =>
      h.graph.stateOf ⟨10⟩ == some .completed && h.results.isEmpty)) = true := by decide +kernel

theorem recovery_resumable_completed :
    ∃ job tasks h, JournalRecord.jobPlanned job tasks ∈ completed.cut ⟨1⟩ 7 ∧
      rebuild DiGraph.sort (completed.cut ⟨1⟩ 7) job.id = some (.ok h) ∧
      h.graph.stateOf ⟨10⟩ = some .completed ∧
      (∀ later, Cluster.Runs sampleConfig sampleReader DiGraph.sort
          (fun _ event => Cluster.KeepsJournal (completed.cut ⟨1⟩ 7) event)
          (Cluster.restart DiGraph.sort (completed.cut ⟨1⟩ 7)) later →
        ∀ jobId run, later.jobs.get? jobId = some run → ∀ dispatch ∈ run.pc.dispatches, dispatch.task.id ≠ ⟨10⟩) := by
  obtain ⟨leaves, job, tasks, h, planned, id, rebuilt⟩ :=
    Cluster.rebuilt_cut reach_completed ⟨1⟩ completed_checked.1 6
  obtain ⟨h', again, resumable⟩ :=
    Cluster.Reach.recovery_resumable Cluster.sample_sorts reach_completed leaves planned
  have same : h' = h := by
    rw [id, rebuilt] at again
    cases again
    rfl
  subst same
  have done := completed_checked.2.1
  rw [rebuilt] at done
  simp only [Option.any_some, Except.toOption, Bool.and_eq_true, beq_iff_eq] at done
  refine ⟨job, tasks, h', planned, again, done.1, ?_⟩
  rintro later runs jobId run found dispatch member same
  exact resumable.2.2.2.2.2 later runs jobId run found dispatch member (by rw [same]; exact done.1)

end Swarm
