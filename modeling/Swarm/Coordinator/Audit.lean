import Swarm.Coordinator.Holdings
import Swarm.Coordinator.Lawful
import Swarm.Coordinator.Lifetimes

namespace Swarm
open Recovery JobHandle

section
variable {R S : Type} [StateMachine S] {leaves : R → S → Prop} {target : R → S}

/-- The records are a walk in the state machine from `start` to `final`: each leaves
the state that the one before led to, along an edge. -/
def Walks (leaves : R → S → Prop) (target : R → S) (start : S) : List R → S → Prop
  | [], final => final = start
  | record :: rest, final =>
    leaves record start ∧ target record ∈ StateMachine.allowed start ∧ Walks leaves target (target record) rest final

theorem Walks.snoc {start middle : S} {records : List R} {record : R}
    (walks : Walks leaves target start records middle) (leaving : leaves record middle)
    (legal : target record ∈ StateMachine.allowed middle) :
    Walks leaves target start (records ++ [record]) (target record) := by
  induction records generalizing start with
  | nil =>
    cases walks
    exact ⟨leaving, legal, rfl⟩
  | cons first rest ih =>
    obtain ⟨here, edge, later⟩ := walks
    exact ⟨here, edge, ih later⟩

end

/-- A walk of task transitions, by their `from` and `to`. -/
abbrev TaskWalk (start : TaskState) (records : List (Transition TaskState)) (final : TaskState) : Prop :=
  Walks (fun transition state => transition.source = some state) Transition.target start records final

/-- A walk of job statuses, of which only the targets are recorded. -/
abbrev StatusWalk (start : JobStatus) (records : List JobStatus) (final : JobStatus) : Prop :=
  Walks (fun _ _ => True) id start records final

/-- The transition of a task that a record is about. -/
def JournalRecord.transitionOf (task : TaskId) : JournalRecord → Option (Transition TaskState)
  | .taskTransitioned _ transition other _ => if other = task then some transition else none
  | _ => none

def JournalRecord.statusOf : JournalRecord → Option JobStatus
  | .jobStatusChanged _ status _ _ => some status
  | _ => none

/-- The `TaskTransitioned` records of one task. -/
def transitionsOf (task : TaskId) (records : List JournalRecord) : List (Transition TaskState) :=
  records.filterMap (JournalRecord.transitionOf task)

/-- The `JobStatusChanged` records. -/
def statusesOf (records : List JournalRecord) : List JobStatus := records.filterMap JournalRecord.statusOf

@[simp] theorem transitionsOf_append (task : TaskId) (records more : List JournalRecord) :
    transitionsOf task (records ++ more) = transitionsOf task records ++ transitionsOf task more :=
      List.filterMap_append

@[simp] theorem statusesOf_append (records more : List JournalRecord) :
    statusesOf (records ++ more) = statusesOf records ++ statusesOf more := List.filterMap_append

/-- The records written since a handle was as `origin` account for all that has changed. -/
structure JobHandle.Audited (origin h : JobHandle) (records : List JournalRecord) : Prop where
  journal : h.journal = origin.journal ++ records
  known : ∀ task, (origin.graph.stateOf task).isSome = (h.graph.stateOf task).isSome
  tasks : ∀ task first state, origin.graph.stateOf task = some first → h.graph.stateOf task = some state →
    TaskWalk first (transitionsOf task records) state
  statuses : StatusWalk origin.job.status (statusesOf records) h.job.status
  live : statusesOf records ≠ [] → origin.Live

namespace JobHandle.Audited
variable {origin h h' : JobHandle} {records : List JournalRecord}

theorem refl (h : JobHandle) : Audited h h [] where
  journal := (List.append_nil _).symm
  known _ := rfl
  tasks _ _ _ before now := Option.some.inj (now.symm.trans before)
  statuses := rfl
  live absurd := (absurd rfl).elim

/-- Work that leaves no record about a state. -/
theorem silent (audited : Audited origin h records) {more : List JournalRecord}
    (journal : h'.journal = h.journal ++ more) (states : ∀ task, h'.graph.stateOf task = h.graph.stateOf task)
    (job : h'.job = h.job) (untouched : ∀ task, transitionsOf task more = []) (unchanged : statusesOf more = []) :
    Audited origin h' (records ++ more) where
  journal := by rw [journal, audited.journal, List.append_assoc]
  known task := by rw [states]; exact audited.known task
  tasks task first state before now := by
    rw [transitionsOf_append, untouched, List.append_nil]
    exact audited.tasks task first state before (states task ▸ now)
  statuses := by
    rw [statusesOf_append, unchanged, List.append_nil, job]
    exact audited.statuses
  live := by
    rw [statusesOf_append, unchanged, List.append_nil]
    exact audited.live

/-- An edge of the task state machine with its record. -/
theorem transition (audited : Audited origin h records) {task : TaskId} {node : TaskNode} {target : TaskState}
    {step : Transition TaskState} {more : List JournalRecord} (journal : h'.journal = h.journal ++ more)
    (graph : h'.graph = h.graph.update task (fun node => { node with state := target })) (job : h'.job = h.job)
    (found : h.graph.get task = some node) (legal : target ∈ StateMachine.allowed node.state)
    (source : step.source = some node.state) (same : step.target = target)
    (touched : ∀ other, transitionsOf other more = if task = other then [step] else [])
    (unchanged : statusesOf more = []) :
    Audited origin h' (records ++ more) where
  journal := by rw [journal, audited.journal, List.append_assoc]
  known other := by
    rw [audited.known, graph, TaskGraph.stateOf_update_state found]
    split
    · rename_i equal
      simp [equal, TaskGraph.stateOf, found]
    · rfl
  tasks other first state before now := by
    rw [graph, TaskGraph.stateOf_update_state found] at now
    rw [transitionsOf_append, touched]
    split at now
    · rename_i equal
      subst equal
      cases now
      have walked := audited.tasks other first node.state before (by simp [TaskGraph.stateOf, found])
      rw [if_pos rfl, ← same]
      exact walked.snoc source (by rw [same]; exact legal)
    · rename_i different
      rw [if_neg (fun equal => different equal.symm), List.append_nil]
      exact audited.tasks other first state before now
  statuses := by
    rw [statusesOf_append, unchanged, List.append_nil, job]
    exact audited.statuses
  live := by
    rw [statusesOf_append, unchanged, List.append_nil]
    exact audited.live

/-- An edge of the job state machine with its record. -/
theorem status (audited : Audited origin h records) {target : JobStatus} {more : List JournalRecord}
    (alive : origin.Live) (journal : h'.journal = h.journal ++ more) (graph : h'.graph = h.graph)
    (status : h'.job.status = target) (legal : target ∈ StateMachine.allowed h.job.status)
    (untouched : ∀ task, transitionsOf task more = []) (changed : statusesOf more = [target]) :
    Audited origin h' (records ++ more) where
  journal := by rw [journal, audited.journal, List.append_assoc]
  known task := by rw [graph]; exact audited.known task
  tasks task first state before now := by
    rw [transitionsOf_append, untouched, List.append_nil]
    exact audited.tasks task first state before (graph ▸ now)
  statuses := by
    rw [statusesOf_append, changed, status]
    exact audited.statuses.snoc trivial legal
  live _ := alive

end JobHandle.Audited

theorem live_of_moves {h h' : JobHandle} (moves : Moves h h') (live : h'.Live) : h.Live := by
  cases finished : h.job.status.isFinished with
  | false => exact finished
  | true => exact absurd (live.symm.trans (finished_moves moves finished)) (by simp)

/-- Every move is on the record. -/
theorem moves_audited {origin h : JobHandle} (moves : Moves origin h) :
    ∃ records, JobHandle.Audited origin h records := by
  induction moves with
  | refl => exact ⟨[], .refl origin⟩
  | @tail h h' earlier last ih =>
    obtain ⟨records, audited⟩ := ih
    cases last with
    | quiet same =>
      exact ⟨_, audited.silent (by rw [same.journal, List.append_nil]) (fun _ => by rw [same.graph]) same.job
        (fun _ => rfl) rfl⟩
    | attempt task attempt _ =>
      exact ⟨_, audited.silent (List.append_nil _).symm (fun _ => TaskGraph.stateOf_update_attempt attempt) rfl
        (fun _ => rfl) rfl⟩
    | rehash moved =>
      exact ⟨_, audited.silent (List.append_nil _).symm (TaskGraph.stateOf_rehash moved) rfl (fun _ => rfl) rfl⟩
    | @advance task target node step attempt _ found legal _ same _ source =>
      refine ⟨_, audited.transition rfl rfl rfl found legal source same ?_ rfl⟩
      intro other
      by_cases equal : task = other <;> simp [transitionsOf, JournalRecord.transitionOf, equal]
    | @complete task node step attempt result _ found legal same _ _ source _ =>
      refine ⟨_, audited.transition rfl rfl rfl found legal source same ?_ rfl⟩
      intro other
      by_cases equal : task = other <;> simp [transitionsOf, JournalRecord.transitionOf, equal]
    | failed failure _ => exact ⟨_, audited.silent rfl (fun _ => rfl) rfl (fun _ => rfl) rfl⟩
    | status reason now live _ legal =>
      exact ⟨_, audited.status (live_of_moves earlier live) rfl rfl rfl legal (fun _ => rfl) rfl⟩
    | finish reason now live _ _ legal =>
      exact ⟨_, audited.status (live_of_moves earlier live) rfl rfl rfl legal (fun _ => rfl) rfl⟩

/-- A run does not end with an illegal transition. -/
def JobRun.Legal (run : JobRun) : Prop :=
  ∀ entity source target, run.pc ≠ .returned (.error (.invalidTransition entity source target))

theorem lawful_begun {h : JobHandle} (begun : h.Begun) : (JobRun.new h).Lawful := by
  refine ⟨?_, begun.status, ?_⟩
  · intro task state found
    rcases begun.states task state found with rfl | terminal
    · rfl
    · exact TaskState.isResting_of_terminal terminal
  · rintro todo queued ⟨⟩

/-- Only a job that has been left running can be refused by its state machine. -/
theorem Exit.legal {config : CoordinatorConfig} {toposort : DiGraph TaskId → Except Nat (List Nat)}
    {input : EngineInput} {run : JobRun} {shared : Shared} {e : SwarmError}
    (exit : Exit config toposort input run shared e) (lawful : run.Lawful)
    (once : ∀ e, run.pc ≠ .returned (.error e)) (entity source target : String) :
    e ≠ .invalidTransition entity source target := by
  cases exit with
  | unanswered _ _ _ => simp
  | barred inactive running =>
    have suits := lawful.suits
    cases here : run.pc with
    | idle =>
      rw [here, running] at suits
      rcases suits with planned | finished
      · cases planned
      · cases finished
    | returned answer =>
      cases answer with
      | ok result =>
        rw [here, running] at suits
        cases suits
      | error e => exact absurd here (once e)
    | _ => rw [here] at inactive; cases inactive
  | cyclic _ _ => simp [TaskGraph.cycleError]
  | refused _ => simp
  | exhausted _ _ => simp
  | lost _ _ => simp

namespace Cluster
variable {config : CoordinatorConfig} {tools : TextTools} {toposort : DiGraph TaskId → Except Nat (List Nat)}

/-- Within one lifetime, a job is not run again after its run has failed. -/
def Once (c : Cluster) (event : Event) : Prop :=
  c.Alive event ∧ ∀ jobId input, event = .engine jobId input →
    ∀ run e, c.jobs.get? jobId = some run → run.pc ≠ .returned (.error e)

theorem Sound.navigable {c : Cluster} (sound : c.Sound) {jobId : JobId} {run : JobRun}
    (found : c.jobs.get? jobId = some run) :
    run.handle.graph.Navigable := by
  obtain ⟨_, _, _, sync⟩ := sound.synced jobId run found
  obtain ⟨_, _, shaped⟩ := sync.shaped
  exact shaped.navigable

theorem Sound.proceeds {c : Cluster} (sound : c.Sound) {jobId : JobId} {run : JobRun}
    (found : c.jobs.get? jobId = some run) (lawful : run.Lawful) (input : EngineInput) :
    Proceeds config toposort input run c.shared (Engine.step config toposort input run c.shared).1 :=
  Engine.step_proceeds (sound.engines jobId run found) lawful (sound.navigable found)

theorem lawful_steered {run : JobRun} {h : JobHandle} (steers : Steers run.handle h) (lawful : run.Lawful) :
    JobRun.Lawful { run with handle := h } := by
  refine ⟨?_, ?_, ?_⟩
  · intro task state found
    exact lawful.resting task state ((steers.states task).symm.trans found)
  · rw [steers.job]
    exact lawful.suits
  · intro todo queued promoting
    obtain ⟨distinct, fresh⟩ := lawful.todo todo queued promoting
    refine ⟨distinct, ?_⟩
    intro task member
    rw [steers.states]
    exact fresh task member

/-- Whatever happens within a lifetime, an engine stays lawful. -/
theorem carried_lawful : Carried config tools toposort Alive JobRun.Lawful where
  alive := id
  submitted planned moved := lawful_begun (begun_planned planned moved)
  steered _ steers lawful := lawful_steered steers lawful
  engine sound found _ _ lawful := (sound.proceeds found lawful _).lawful

theorem Boots.lawful (sorts : Sorts toposort) {first : Cluster}
    (boots : Boots config tools toposort first) {jobId : JobId} {run : JobRun}
    (found : first.jobs.get? jobId = some run) : run.Lawful := by
  obtain ⟨h, rfl, begun⟩ := boots.begun sorts found
  exact lawful_begun begun

theorem Redelivers.lawful (sorts : Sorts toposort) {first c : Cluster} (boots : Boots config tools toposort first)
    (runs : Redelivers config tools toposort Alive first c) {jobId : JobId} {run : JobRun}
    (found : c.jobs.get? jobId = some run) : run.Lawful :=
  runs.carried carried_lawful sorts (boots.sound sorts) (fun _ known => boots.lawful sorts known) run found

theorem carried_legal : Carried config tools toposort Once (fun run => run.Lawful ∧ run.Legal) where
  alive := And.left
  submitted planned moved := ⟨lawful_begun (begun_planned planned moved), fun _ _ _ absurd => by cases absurd⟩
  steered _ steers := fun ⟨lawful, legal⟩ => ⟨lawful_steered steers lawful, legal⟩
  engine := by
    rintro c jobId run input sound found _ ⟨_, once⟩ ⟨lawful, _⟩
    have proceeds : Proceeds config toposort input run c.shared _ := sound.proceeds found lawful input
    refine ⟨proceeds.lawful, ?_⟩
    intro entity source target ended
    exact (proceeds.exits _ ended).legal lawful (fun e => once jobId input rfl run e found) entity source target rfl

/-- A handle as a submission makes it. -/
structure Fresh (h : JobHandle) : Prop where
  journal : ∃ job tasks, h.journal = [.jobPlanned job tasks]
  status : h.job.status = .planning
  states : ∀ task state, h.graph.stateOf task = some state → state = .created

theorem fresh_planned {submission : Submission} {job : Job} {graph : TaskGraph} {nodes : Dict TaskId TaskNode}
    (planned : submission.plan config tools toposort = .ok (job, graph)) (moved : graph.nodes.Rehash nodes) :
    Fresh (.planned job { graph with nodes := nodes }) := by
  obtain ⟨_, status, untouched, _⟩ := submission.plan_ok planned
  refine ⟨⟨job, nodes.values, rfl⟩, status, ?_⟩
  intro task state found
  obtain ⟨node, known, rfl⟩ := Option.map_eq_some_iff.mp found
  have member := Dict.mem_values.mpr ⟨task, Dict.get?_eq_some.mp ((moved.get? task).trans known)⟩
  rw [← (untouched.tasks node member).1]
  rfl

theorem carried_moves {kind : Cluster → Event → Prop} (alive : ∀ c event, kind c event → c.Alive event) :
    Carried config tools toposort kind (fun run => ∃ origin, Fresh origin ∧ Moves origin run.handle) where
  alive := alive _ _
  submitted planned moved := ⟨_, fresh_planned planned moved, .refl⟩
  steered _ steers := fun ⟨origin, fresh, moves⟩ => ⟨origin, fresh, moves.trans steers.moves⟩
  engine sound found possible _ := fun ⟨origin, fresh, moves⟩ =>
    ⟨origin, fresh, moves.trans (sound.stepped found possible).moves⟩

/-- What a job was like when the lifetime found it or took it in. -/
theorem Redelivers.origin {kind : Cluster → Event → Prop} (alive : ∀ c event, kind c event → c.Alive event)
    (sorts : Sorts toposort) {first c : Cluster} (boots : Boots config tools toposort first)
    {jobId : JobId} {run : JobRun} (runs : Redelivers config tools toposort kind first c)
    (found : c.jobs.get? jobId = some run) :
    ∃ origin, Moves origin run.handle ∧
      (first.jobs.get? jobId = some (.new origin) ∧ origin.Begun ∨ first.jobs.get? jobId = none ∧ Fresh origin) := by
  have start := boots.sound sorts
  cases before : first.jobs.get? jobId with
  | some earlier =>
    obtain ⟨origin, rfl, begun⟩ := boots.begun sorts before
    obtain ⟨after, there, moves⟩ := runs.moves alive sorts start before
    rw [found] at there
    cases there
    exact ⟨origin, moves, Or.inl ⟨rfl, begun⟩⟩
  | none =>
    have absent : ∀ run, first.jobs.get? jobId = some run → ∃ origin, Fresh origin ∧ Moves origin run.handle := by
      intro run known
      rw [before] at known
      cases known
    obtain ⟨origin, fresh, moves⟩ := runs.carried (carried_moves alive) sorts start absent run found
    exact ⟨origin, moves, Or.inr ⟨rfl, fresh⟩⟩

theorem TaskWalk.of_terminal {start final : TaskState} {records : List (Transition TaskState)}
    (walks : TaskWalk start records final) (terminal : start.isTerminal = true) : records = [] ∧ final = start := by
  cases records with
  | nil => exact ⟨rfl, walks⟩
  | cons record rest =>
    have running := TaskState.not_terminal_of_allowed walks.2.1
    exact absurd (running.symm.trans terminal) (by simp)

/-- Every move of an engine is legal, and the records of a lifetime are a walk of each
task from `Created`, and of the job from `Planning`, to where they are now. -/
theorem Redelivers.audit_walk (sorts : Sorts toposort) {first c : Cluster} (boots : Boots config tools toposort first)
    (runs : Redelivers config tools toposort Once first c) {jobId : JobId} {run : JobRun}
    (found : c.jobs.get? jobId = some run) :
    (∀ entity source target, run.pc ≠ .returned (.error (.invalidTransition entity source target))) ∧
      ∃ records, run.handle.journal = (first.jobs.get? jobId).elim [] (fun before => before.handle.journal) ++
        records ∧
        (∀ task state, run.handle.graph.stateOf task = some state →
          TaskWalk .created (transitionsOf task records) state ∨
            transitionsOf task records = [] ∧ state.isTerminal = true ∧
              ∃ before, first.jobs.get? jobId = some before ∧ before.handle.graph.stateOf task = some state) ∧
        (StatusWalk .planning (statusesOf records) run.handle.job.status ∨
          statusesOf records = [] ∧ run.handle.job.status.isFinished = true ∧
            ∃ before, first.jobs.get? jobId = some before ∧ before.handle.job.status = run.handle.job.status) := by
  have start := boots.sound sorts
  have alive : ∀ c event, Once c event → c.Alive event := fun _ _ once => once.1
  have lawful : ∀ run, first.jobs.get? jobId = some run → run.Lawful ∧ run.Legal := by
    intro run known
    refine ⟨boots.lawful sorts known, ?_⟩
    obtain ⟨h, rfl, _⟩ := boots.begun sorts known
    exact fun _ _ _ absurd => by cases absurd
  refine ⟨(runs.carried carried_legal sorts start lawful run found).2, ?_⟩
  obtain ⟨origin, moves, place⟩ := runs.origin alive sorts boots found
  obtain ⟨records, audited⟩ := moves_audited moves
  have walked : ∀ task state, run.handle.graph.stateOf task = some state →
      ∃ first, origin.graph.stateOf task = some first ∧ TaskWalk first (transitionsOf task records) state := by
    intro task state known
    have present := audited.known task
    rw [known] at present
    obtain ⟨first, before⟩ := Option.isSome_iff_exists.mp present
    exact ⟨first, before, audited.tasks task first state before known⟩
  rcases place with ⟨known, begun⟩ | ⟨absent, fresh⟩
  · refine ⟨records, by rw [known]; exact audited.journal, ?_, ?_⟩
    · intro task state now
      obtain ⟨first, before, walks⟩ := walked task state now
      rcases begun.states task first before with rfl | terminal
      · exact Or.inl walks
      · obtain ⟨none, rfl⟩ := TaskWalk.of_terminal walks terminal
        exact Or.inr ⟨none, terminal, .new origin, known, before⟩
    · rcases begun.status with planned | finished
      · rw [← planned]
        exact Or.inl audited.statuses
      · have none : statusesOf records = [] := by
          by_contra some
          have live := audited.live some
          exact absurd (live.symm.trans finished) (by simp)
        have same := audited.statuses
        rw [none] at same
        have same : run.handle.job.status = origin.job.status := same
        exact Or.inr ⟨none, by rw [same]; exact finished, .new origin, known, same.symm⟩
  · obtain ⟨job, tasks, journal⟩ := fresh.journal
    refine ⟨.jobPlanned job tasks :: records, ?_, ?_, ?_⟩
    · rw [absent, audited.journal, journal]
      rfl
    · intro task state now
      obtain ⟨first, before, walks⟩ := walked task state now
      rw [fresh.states task first before] at walks
      exact Or.inl walks
    · have walks := audited.statuses
      rw [fresh.status] at walks
      exact Or.inl walks

end Cluster

/-- Whether a run has ended with an error. -/
def Pc.hasFailed : Pc → Bool
  | .returned (.error _) => true
  | _ => false

/-- Steps of an engine that does not fail on the way. -/
theorem once_drive {first c : Cluster}
    (runs : Cluster.Redelivers sampleConfig sampleReader DiGraph.sort Cluster.Once first c) (jobId : JobId)
    (times : List Nat) (going : ∀ k < times.length,
      ((c.drive jobId (times.take k)).jobs.get? jobId).all (fun run => !run.pc.hasFailed) = true) :
    Cluster.Redelivers sampleConfig sampleReader DiGraph.sort Cluster.Once first (c.drive jobId times) := by
  induction times generalizing c with
  | nil => exact runs
  | cons now rest ih =>
    have once : c.Once (.engine jobId (plainInput now)) := by
      refine ⟨fun _ same => (by cases same), ?_⟩
      rintro _ _ ⟨⟩ run e found failed
      have here := going 0 (Nat.succ_pos _)
      change (c.jobs.get? jobId).all (fun run => !run.pc.hasFailed) = true at here
      rw [found, Option.all_some, failed] at here
      cases here
    have step : Cluster.Redelivers sampleConfig sampleReader DiGraph.sort Cluster.Once first
        (c.apply sampleConfig sampleReader DiGraph.sort (.engine jobId (plainInput now))) :=
      .next runs (fun _ _ _ _ _ answered => by cases answered) once
    refine ih step ?_
    intro k short
    exact going (k + 1) (Nat.succ_lt_succ short)

/-- The first task of the sample is on its way: three records lead from `Created` to `Running`. -/
theorem audit_walk_started : ∃ run records, started.jobs.get? ⟨1⟩ = some run ∧ run.handle.journal = records ∧
    (transitionsOf ⟨10⟩ records).length = 3 ∧ TaskWalk .created (transitionsOf ⟨10⟩ records) .running ∧
    StatusWalk .planning (statusesOf records) .running := by
  have there : (started.jobs.get? ⟨1⟩).any (fun run => run.handle.graph.stateOf ⟨10⟩ == some .running &&
      (transitionsOf ⟨10⟩ run.handle.journal).length == 3 && run.handle.job.status == .running) = true := by
    decide +kernel
  obtain ⟨run, found, here⟩ := (Option.any_eq_true _ _).mp there
  simp only [Bool.and_eq_true, beq_iff_eq] at here
  obtain ⟨⟨state, three⟩, status⟩ := here
  have submits : Cluster.Redelivers sampleConfig sampleReader DiGraph.sort Cluster.Once .new
      (Cluster.submitted .new sampleSubmission) :=
    (Cluster.runs_submitted .start rfl (fun _ _ _ found => (by cases found))
      ⟨fun _ same => (by cases same), fun _ _ same => (by cases same)⟩).redelivers
  have runs := once_drive submits ⟨1⟩ [1, 2, 3, 4, 5, 6, 7, 8] (by decide +kernel)
  obtain ⟨_, records, journal, tasks, statuses⟩ :=
    Cluster.Redelivers.audit_walk Cluster.sample_sorts .new runs found
  have journal : run.handle.journal = records := journal
  subst journal
  refine ⟨run, _, found, rfl, three, ?_, ?_⟩
  · rcases tasks ⟨10⟩ .running state with walks | ⟨_, terminal, _⟩
    · exact walks
    · cases terminal
  · rw [← status]
    rcases statuses with walks | ⟨_, finished, _⟩
    · exact walks
    · rw [status] at finished
      cases finished

end Swarm
