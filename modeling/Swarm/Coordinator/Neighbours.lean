import Swarm.Coordinator.Sharing

namespace Swarm
open InMemoryQueue Recovery

namespace Cluster
variable {config : CoordinatorConfig} {tools : TextTools}
  {toposort : DiGraph TaskId → Except Nat (List Nat)} {c : Cluster}

theorem Isolated.tasksHeld (isolated : c.Isolated) : c.TasksHeld := by
  intro jobId run task found top leasable
  have sound := isolated.sound.engines jobId run found
  obtain ⟨entry, member, rfl⟩ :=
    (isolated.kept jobId run found).ready sound (by rw [top]; rfl) (by rw [top]; rfl) leasable
  have genuine := isolated.sound.queue.ready entry member
  exact Or.inl ⟨entry, member,
    genuine.1.trans (isolated.sound.owned found genuine (JobRun.known_of_leasable leasable)), rfl⟩

theorem Runs.isolated (sorts : Sorts toposort)
    (runs : Runs config tools toposort (fun c event => c.Assumed event ∧ c.PollsOwn event) new c) : c.Isolated := by
  induction runs with
  | start => exact isolated_new
  | next _ possible kind ih => exact ih.apply sorts possible kind.1 kind.2

/-- Jobs share the queue without disturbing each other, in every run in which no
engine polls an entry of another unfinished job or of a task it has in flight. -/
theorem Runs.tasks_held (sorts : Sorts toposort)
    (runs : Runs config tools toposort (fun c event => c.Assumed event ∧ c.PollsOwn event) new c) :
    c.TasksHeld ∧ c.SettlesOwn :=
  ⟨(Runs.isolated sorts runs).tasksHeld, (Runs.isolated sorts runs).settlesOwn⟩

end Cluster

def Outcome.isElapsed : Outcome → Bool
  | .elapsed => true
  | _ => false

namespace Cluster

/-- The keys of all tasks. -/
def taskKeys (c : Cluster) : List (TaskId × String) :=
  c.jobs.values.flatMap (fun run => run.handle.graph.nodes.entries.map
    (fun entry => (entry.1, entry.2.idempotencyKey)))

theorem mem_taskKeys {c : Cluster} {jobId : JobId} {run : JobRun} {task : TaskId} {node : TaskNode}
    (found : c.jobs.get? jobId = some run) (known : run.handle.graph.get task = some node) :
    (task, node.idempotencyKey) ∈ c.taskKeys := by
  refine List.mem_flatMap.mpr ⟨run, Dict.mem_values.mpr ⟨jobId, Dict.get?_eq_some.mp found⟩, ?_⟩
  exact List.mem_map.mpr ⟨(task, node), Dict.get?_eq_some.mp known, rfl⟩

theorem keysApart_of_taskKeys {c : Cluster}
    (apart : ∀ left ∈ c.taskKeys, ∀ right ∈ c.taskKeys, left.1 ≠ right.1 → left.2 ≠ right.2) : c.KeysApart := by
  intro jobId jobId' run run' task task' node node' attempt attempt' found found' known known' different same
  have keys := attemptKey_inj same
  exact apart _ (mem_taskKeys found known) _ (mem_taskKeys found' known') different keys

/-- The keys of the tasks do not change while an engine works. -/
theorem KeysApart.engine {config : CoordinatorConfig} {tools : TextTools}
    {toposort : DiGraph TaskId → Except Nat (List Nat)} {c : Cluster} (keys : c.KeysApart) (sound : c.Sound)
    {jobId : JobId} {input : EngineInput} (possible : c.Possible config tools toposort (.engine jobId input)) :
    (c.engine config toposort jobId input).KeysApart := by
  have back : ∀ {other run task node}, (c.engine config toposort jobId input).jobs.get? other = some run →
      run.handle.graph.get task = some node → ∃ before old, c.jobs.get? other = some before ∧
        before.handle.graph.get task = some old ∧ old.idempotencyKey = node.idempotencyKey := by
    intro other run task node present known
    unfold Cluster.engine at present
    cases found : c.jobs.get? jobId with
    | none =>
      rw [found] at present
      exact ⟨run, node, present, known, rfl⟩
    | some current =>
      rw [found] at present
      simp only [Dict.get?_insert] at present
      split at present
      · rename_i same
        cases present
        have blanks := (moves_extends (sound.stepped found possible).moves).blanks task
        rw [known] at blanks
        obtain ⟨old, there, sameBlank⟩ := Option.map_eq_some_iff.mp blanks.symm
        exact ⟨current, old, same ▸ found, there, by simpa using congrArg TaskNode.idempotencyKey sameBlank⟩
      · exact ⟨run, node, present, known, rfl⟩
  intro left right run run' task task' node node' attempt attempt' found found' known known' different
  obtain ⟨before, old, present, there, same⟩ := back found known
  obtain ⟨before', old', present', there', same'⟩ := back found' known'
  have apart :=
    keys left right before before' task task' old old' attempt attempt' present present' there there' different
  unfold TaskNode.attemptKey at apart ⊢
  rw [← same, ← same']
  exact apart

/-- Engines take steps one after another. -/
def schedule (c : Cluster) (steps : List (JobId × EngineInput)) : Cluster :=
  steps.foldl (fun c step => c.engine sampleConfig DiGraph.sort step.1 step.2) c

/-- No execution has answered, or all have timed out. -/
def suits (c : Cluster) (jobId : JobId) (input : EngineInput) : Bool :=
  match input.outcomes with
  | none => true
  | some outcomes => outcomes.length == (dispatchesOf c jobId).length && outcomes.all Outcome.isElapsed

theorem possible_of_suits {c : Cluster} {jobId : JobId} {input : EngineInput} (fits : c.suits jobId input = true) :
    c.Possible sampleConfig sampleReader DiGraph.sort (.engine jobId input) := by
  intro run dispatches outcomes found executing answered
  unfold suits at fits
  have inHand : dispatchesOf c jobId = dispatches := by
    simp only [dispatchesOf, found, executing, Option.elim_some]
    rfl
  rw [answered, inHand] at fits
  simp only [Bool.and_eq_true, beq_iff_eq, List.all_eq_true] at fits
  refine List.forall₂_iff_get.mpr ⟨fits.1.symm, ?_⟩
  intro index _ bound answer returned
  have elapsed := fits.2 (outcomes.get ⟨index, bound⟩) (List.get_mem _ _)
  rw [returned] at elapsed
  cases elapsed

/-- No job is cancelled and the lease identifier is fresh. -/
def permits (c : Cluster) (jobId : JobId) (input : EngineInput) : Bool :=
  c.jobs.values.all (fun run => run.handle.control != .cancelled && !run.pc.leaseIds.contains input.leaseId) &&
    (c.shared.queue.leases.get? input.leaseId).isNone && c.suits jobId input

theorem assumed_of_permits {c : Cluster} (keys : c.KeysApart) {jobId : JobId} {input : EngineInput}
    (permitted : c.permits jobId input = true) : c.Assumed (.engine jobId input) := by
  simp only [permits, Bool.and_eq_true, List.all_eq_true, Dict.mem_values, bne_iff_ne, Option.isNone_iff_eq_none,
    Bool.not_eq_true', List.contains_eq_mem, decide_eq_false_iff_not] at permitted
  refine ⟨?_, keys, ?_⟩
  · intro other run found
    exact (permitted.1.1 run ⟨other, Dict.get?_eq_some.mp found⟩).1
  · rintro _ _ same
    cases same
    refine ⟨permitted.1.2, ?_⟩
    intro other run found
    exact (permitted.1.1 run ⟨other, Dict.get?_eq_some.mp found⟩).2

/-- The entry polled next, if any, is of this job and not in flight. -/
def pollsMine (c : Cluster) (jobId : JobId) (input : EngineInput) : Bool :=
  (c.jobs.get? jobId).all (fun run =>
    match run.pc with
    | .collecting (_ + 1) _ _ =>
      (c.shared.queue.pick input.now [] []).all (fun picked => picked.1.jobId == jobId &&
        !(run.handle.graph.stateOf picked.1.payload.id).any TaskState.isInFlight)
    | _ => true)

theorem pollsOwn_of_pollsMine {c : Cluster} {jobId : JobId} {input : EngineInput}
    (mine : c.pollsMine jobId input = true) : c.PollsOwn (.engine jobId input) := by
  intro _ _ run left dispatches promoted entry rest same found collecting picked
  cases same
  simp only [pollsMine, found, collecting, picked, Option.all_some, Bool.and_eq_true, beq_iff_eq,
    Bool.not_eq_true'] at mine
  exact Or.inl mine

/-- The conditions along a schedule. -/
def checks (check : Cluster → JobId → EngineInput → Bool) (c : Cluster) : List (JobId × EngineInput) → Bool
  | [] => true
  | (jobId, input) :: rest =>
    c.suits jobId input && check c jobId input && checks check (c.engine sampleConfig DiGraph.sort jobId input) rest

theorem runs_schedule {kind : Cluster → Event → Prop} {check : Cluster → JobId → EngineInput → Bool}
    (allows : ∀ c jobId input, c.KeysApart → check c jobId input = true → kind c (.engine jobId input)) {c : Cluster}
    (runs : Runs sampleConfig sampleReader DiGraph.sort kind new c) (keys : c.KeysApart)
    (steps : List (JobId × EngineInput)) (checked : checks check c steps = true) :
    Runs sampleConfig sampleReader DiGraph.sort kind new (c.schedule steps) := by
  induction steps generalizing c with
  | nil => exact runs
  | cons step rest ih =>
    obtain ⟨jobId, input⟩ := step
    simp only [checks, Bool.and_eq_true] at checked
    have possible := possible_of_suits checked.1.1
    exact ih (.next runs possible (allows c jobId input keys checked.1.2))
      (keys.engine (Runs.sound sample_sorts sound_new runs) possible) checked.2

end Cluster

/-- The sample job once more, for a neighbour of the first one. -/
def otherSubmission : Submission := { sampleSubmission with jobId := ⟨2⟩, taskIds := fun k => ⟨100 + k⟩ }

/-- Two jobs on one coordinator. -/
def neighbours : Cluster := (Cluster.submitted .new sampleSubmission).submitted otherSubmission

/-- Keys that tell tasks apart. -/
abbrev Cluster.TellsApart (c : Cluster) : Prop :=
  ∀ left ∈ c.taskKeys, ∀ right ∈ c.taskKeys, left.1 ≠ right.1 → left.2 ≠ right.2

theorem neighbours_planned : neighbours.TellsApart ∧ (Cluster.submitted .new sampleSubmission).TellsApart ∧
    (Cluster.submitted .new sampleSubmission).jobs.values.all (fun run => run.handle.control != .cancelled) = true ∧
    ((Cluster.submitted .new sampleSubmission).jobs.get? otherSubmission.jobId).isNone = true ∧
    ∀ entry ∈ (Cluster.submitted .new sampleSubmission).taskKeys, entry.1.uuid < 100 := by decide +kernel

theorem neighbours_keys : neighbours.KeysApart := Cluster.keysApart_of_taskKeys neighbours_planned.1

theorem assumed_neighbours :
    (Cluster.new.Assumed (.submit sampleSubmission (Cluster.planned sampleSubmission)) ∧
      Cluster.new.PollsOwn (.submit sampleSubmission (Cluster.planned sampleSubmission))) ∧
    (Cluster.submitted .new sampleSubmission).Assumed (.submit otherSubmission (Cluster.planned otherSubmission)) ∧
      (Cluster.submitted .new sampleSubmission).PollsOwn
        (.submit otherSubmission (Cluster.planned otherSubmission)) := by
  refine ⟨⟨⟨?_, ?_, fun _ _ same => by cases same⟩, fun _ _ _ _ _ _ _ _ same => by cases same⟩,
    ⟨?_, ?_, fun _ _ same => by cases same⟩, fun _ _ _ _ _ _ _ _ same => by cases same⟩
  · intro jobId run found
    cases found
  · intro jobId _ run _ _ _ _ _ _ _ found
    cases found
  · obtain ⟨_, _, running, _⟩ := neighbours_planned
    intro jobId run found
    exact bne_iff_ne.mp (List.all_eq_true.mp running run (Dict.mem_values.mpr ⟨jobId, Dict.get?_eq_some.mp found⟩))
  · exact Cluster.keysApart_of_taskKeys neighbours_planned.2.1

theorem runs_neighbours {kind : Cluster → Event → Prop}
    (first : kind .new (.submit sampleSubmission (Cluster.planned sampleSubmission)))
    (second : kind (Cluster.submitted .new sampleSubmission)
      (.submit otherSubmission (Cluster.planned otherSubmission))) :
    Cluster.Runs sampleConfig sampleReader DiGraph.sort kind .new neighbours := by
  refine Cluster.runs_submitted
    (Cluster.runs_submitted .start rfl (fun _ _ _ found => (by cases found)) first) ?_ ?_ second
  · obtain ⟨_, _, _, absent, _⟩ := neighbours_planned
    exact Option.isNone_iff_eq_none.mp absent
  · obtain ⟨_, _, _, _, small⟩ := neighbours_planned
    intro jobId run k found
    cases known : run.handle.graph.get (otherSubmission.taskIds k) with
    | none => rfl
    | some node =>
      have bound : 100 + k < 100 := small _ (Cluster.mem_taskKeys found known)
      omega

/-- The engines of the jobs take their steps at the given times. -/
def steps (jobId : Nat) (times : List Nat) : List (JobId × EngineInput) :=
  times.map (fun now => (⟨jobId⟩, plainInput now))

def retrySteps : List (JobId × EngineInput) :=
  steps 1 [1, 2, 3, 4, 5, 6, 7, 8] ++ [(⟨1⟩, { plainInput 9 with outcomes := some [.elapsed] })] ++ steps 1 [10, 11]

/-- The first job runs its first task into a timeout while the second one waits. -/
def retried : Cluster := neighbours.schedule retrySteps

theorem retried_checked :
    Cluster.checks (fun c jobId input => c.permits jobId input && c.pollsMine jobId input) neighbours retrySteps =
      true ∧
      (retried.jobs.get? ⟨1⟩).any (fun run =>
        run.pc.isTop && run.handle.graph.stateOf ⟨10⟩ == some .retryScheduled) = true := by decide +kernel

theorem runs_retried : Cluster.Runs sampleConfig sampleReader DiGraph.sort
    (fun c event => c.Assumed event ∧ c.PollsOwn event) .new retried := by
  have checked := retried_checked.1
  refine Cluster.runs_schedule ?_ (runs_neighbours assumed_neighbours.1 assumed_neighbours.2)
    neighbours_keys _ checked
  intro c jobId input keys checked
  rw [Bool.and_eq_true] at checked
  exact ⟨Cluster.assumed_of_permits keys checked.1, Cluster.pollsOwn_of_pollsMine checked.2⟩

theorem Cluster.tasks_held_retried : ∃ run, retried.jobs.get? ⟨1⟩ = some run ∧ run.pc = .top ∧
    run.handle.graph.stateOf ⟨10⟩ = some .retryScheduled ∧ retried.shared.queue.Holds ⟨1⟩ ⟨10⟩ ∧
      retried.SettlesOwn := by
  obtain ⟨run, found, here⟩ := (Option.any_eq_true _ _).mp retried_checked.2
  simp only [Bool.and_eq_true, beq_iff_eq] at here
  have top := Pc.isTop_iff.mp here.1
  obtain ⟨held, own⟩ := Runs.tasks_held sample_sorts runs_retried
  refine ⟨run, found, top, here.2, held ⟨1⟩ run ⟨10⟩ found top ?_, own⟩
  unfold TaskGraph.isLeasable
  rw [here.2]
  rfl

def trespassSteps : List (JobId × EngineInput) :=
  steps 1 [1, 2, 3] ++ steps 2 [4, 5, 6, 7, 8, 9, 10, 11, 12] ++ steps 1 [13, 14, 15, 16, 17, 18]

/-- The first job queues its task; the second one takes the entry for a duplicate
delivery and acknowledges it, and the first one then does the same to the entry
of the second. -/
def trespassed : Cluster := neighbours.schedule trespassSteps

/-- The first job comes to a tick with a queued task and nothing in the queue. -/
theorem neighbour_takes_entry :
    Cluster.Runs sampleConfig sampleReader DiGraph.sort Cluster.Assumed .new trespassed ∧ ¬ trespassed.TasksHeld := by
  have facts : Cluster.checks Cluster.permits neighbours trespassSteps = true ∧
      (trespassed.jobs.get? ⟨1⟩).any (fun run => run.pc.isTop && run.handle.graph.isLeasable ⟨10⟩) = true ∧
      trespassed.shared.queue.ready.isEmpty = true ∧ trespassed.shared.queue.leases.entries.isEmpty = true := by
        decide +kernel
  obtain ⟨checked, waits⟩ := facts
  refine ⟨?_, ?_⟩
  · exact Cluster.runs_schedule (fun _ _ _ keys checked => Cluster.assumed_of_permits keys checked)
      (runs_neighbours assumed_neighbours.1.1 assumed_neighbours.2.1) neighbours_keys _ checked
  · obtain ⟨run, found, here⟩ := (Option.any_eq_true _ _).mp waits.1
    rw [Bool.and_eq_true] at here
    intro held
    rcases held ⟨1⟩ run ⟨10⟩ found (Pc.isTop_iff.mp here.1) here.2 with ⟨entry, member, _⟩
      | ⟨leaseId, lease, present, _⟩
    · rw [List.isEmpty_iff.mp waits.2.1] at member
      cases member
    · have inside := Dict.get?_eq_some.mp present
      rw [List.isEmpty_iff.mp waits.2.2] at inside
      cases inside

end Swarm
