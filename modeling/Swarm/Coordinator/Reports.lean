import Swarm.Coordinator.Durability
import Swarm.Coordinator.Fates
import Swarm.Coordinator.Postings

namespace Swarm
open Recovery JobHandle

/-- The statistics count the tasks that ended as the graph has them. -/
structure JobHandle.Counted (h : JobHandle) : Prop where
  succeeded : h.statistics.tasksSucceeded = (h.graph.withState (· == .completed)).length
  failed : h.statistics.tasksFailed = (h.graph.withState TaskGraph.isAbandoned).length

namespace JobHandle.Counted
variable {h h' : JobHandle}

theorem same (counted : h.Counted) (entries : SameEntries h h')
    (tasks : ∀ wanted, (h'.graph.withState wanted).length = (h.graph.withState wanted).length) : h'.Counted where
  succeeded := by rw [entries.counts.tasksSucceeded, tasks]; exact counted.succeeded
  failed := by rw [entries.counts.tasksFailed, tasks]; exact counted.failed

/-- An open task is in neither count. -/
theorem open_apart {state : TaskState} (isOpen : state.isTerminal = false) :
    (state == .completed) = false ∧ TaskGraph.isAbandoned state = false := by
  cases state <;> simp [TaskState.isTerminal] at isOpen <;> exact ⟨rfl, rfl⟩

/-- A task that is moved enters the counts that its new state is in. -/
theorem moved {task : TaskId} {node : TaskNode} {target : TaskState} (found : h.graph.get task = some node)
    (isOpen : node.state.isTerminal = false)
    (graph : h'.graph = h.graph.update task (fun node => { node with state := target })) :
    (h'.graph.withState (· == .completed)).length = (h.graph.withState (· == .completed)).length +
      (target == .completed).toNat ∧
      (h'.graph.withState TaskGraph.isAbandoned).length =
        (h.graph.withState TaskGraph.isAbandoned).length + (TaskGraph.isAbandoned target).toNat := by
  obtain ⟨incomplete, kept⟩ := open_apart isOpen
  have completed := TaskGraph.count_update_state found target (· == .completed)
  have abandoned := TaskGraph.count_update_state found target TaskGraph.isAbandoned
  simp only [incomplete, Bool.toNat_false, Nat.add_zero] at completed
  simp only [kept, Bool.toNat_false, Nat.add_zero] at abandoned
  rw [graph]
  exact ⟨completed, abandoned⟩

theorem post (counted : h.Counted) (post : Post False h h') : h'.Counted := by
  cases post with
  | quiet silent => exact counted.same silent.entries silent.tasks
  | moved found isOpen unbooked graph entries _ =>
    obtain ⟨incomplete, kept⟩ := open_apart (unbooked.resolve_right (fun lost => lost.1))
    obtain ⟨completed, abandoned⟩ := moved found isOpen graph
    rw [incomplete] at completed
    rw [kept] at abandoned
    refine ⟨?_, ?_⟩
    · rw [entries.counts.tasksSucceeded, completed]
      exact counted.succeeded
    · rw [entries.counts.tasksFailed, abandoned]
      exact counted.failed
  | succeeded result found isOpen graph _ _ _ counts _ =>
    obtain ⟨completed, abandoned⟩ := moved found isOpen graph
    refine ⟨?_, ?_⟩
    · rw [counts.tasksSucceeded, completed, ← counted.succeeded]
      rfl
    · rw [counts.tasksFailed, abandoned, ← counted.failed]
      rfl
  | failed failure found isOpen graph _ _ _ counts _ =>
    obtain ⟨completed, abandoned⟩ := moved found isOpen graph
    refine ⟨?_, ?_⟩
    · rw [counts.tasksSucceeded, completed, ← counted.succeeded]
      cases failure.deadLettered <;> rfl
    · rw [counts.tasksFailed, abandoned, ← counted.failed, ExecutionStatistics.debit]
      cases failure.deadLettered <;> rfl

theorem posts {loses : Prop} (kept : ¬ loses) (counted : h.Counted) (posts : Posts loses h h') : h'.Counted := by
  have none : loses = False := eq_false kept
  subst none
  induction posts with
  | refl => exact counted
  | tail _ last ih => exact ih.post last

end JobHandle.Counted

/-- The final result reports the tasks of the graph. -/
structure FinalResult.Reports (result : FinalResult) (g : TaskGraph) : Prop where
  total : result.executionStatistics.tasksTotal = g.len
  succeeded : result.executionStatistics.tasksSucceeded = (g.withState (· == .completed)).length
  failed : result.executionStatistics.tasksFailed = (g.withState TaskGraph.isAbandoned).length

theorem FinalResult.Reports.sum {result : FinalResult} {g : TaskGraph} (reports : result.Reports g)
    (terminal : ∀ node ∈ g.nodes.values, node.isTerminal = true) :
    result.executionStatistics.tasksSucceeded + result.executionStatistics.tasksFailed =
      result.executionStatistics.tasksTotal := by
  rw [reports.succeeded, reports.failed, reports.total]
  exact TaskGraph.count_terminal terminal

/-- The counters of a job are right, and so is what it has published of them. -/
structure JobHandle.Reported (h : JobHandle) : Prop where
  counted : h.Counted
  final : ∀ result, h.finalResult = some result → result.Reports h.graph

namespace Cluster
variable {config : CoordinatorConfig} {tools : TextTools} {toposort : DiGraph TaskId → Except Nat (List Nat)}

/-- The process goes on, and the engine of the job gives no task up without an entry. -/
def Accounts (jobId : JobId) (c : Cluster) (event : Event) : Prop :=
  c.Alive event ∧ ∀ input run, event = .engine jobId input → c.jobs.get? jobId = some run →
    ¬ run.GivesUp c.shared.queue input.now

theorem reported_planned {submission : Submission} {job : Job} {graph : TaskGraph} {nodes : Dict TaskId TaskNode}
    (planned : submission.plan config tools toposort = .ok (job, graph)) (moved : graph.nodes.Rehash nodes) :
    (JobHandle.planned job { graph with nodes := nodes }).Reported := by
  obtain ⟨_, _, untouched, _⟩ := submission.plan_ok planned
  have none : ∀ wanted : TaskState → Bool, wanted .created = false → (graph.withState wanted).length = 0 := by
    intro wanted apart
    rw [TaskGraph.length_withState, List.countP_eq_zero]
    intro node member
    rw [← (untouched.tasks node member).1]
    exact fun counts => absurd (apart.symm.trans counts) (by simp)
  refine ⟨⟨?_, ?_⟩, fun result present => by cases present⟩
  · exact ((TaskGraph.count_rehash moved _).trans (none _ rfl)).symm
  · exact ((TaskGraph.count_rehash moved _).trans (none _ rfl)).symm

/-- Where every task that is given up has its entry, the counters of a job stay right. -/
theorem Redelivers.reported (sorts : Sorts toposort) {first c : Cluster} (start : first.Sound) {jobId : JobId}
    (right : ∀ run, first.jobs.get? jobId = some run → run.handle.Reported)
    (runs : Redelivers config tools toposort (Accounts jobId) first c) :
    ∀ run, c.jobs.get? jobId = some run → run.handle.Reported := by
  induction runs with
  | start => exact right
  | redeliver _ _ ih => exact ih
  | @next c event runs possible accounts ih =>
    obtain ⟨alive, keeps⟩ := accounts
    intro run' found
    have sound := runs.sound sorts start
    cases known : c.jobs.get? jobId with
    | none =>
      cases apply_job possible alive found with
      | kept same => rw [known] at same; cases same
      | submitted _ planned _ moved same => rw [same]; exact reported_planned planned moved
      | steered same => rw [known] at same; cases same
      | engine _ same => rw [known] at same; cases same
    | some run =>
      obtain ⟨counted, final⟩ := ih run known
      cases sound.books possible alive known found with
      | posted loses gives posts silent =>
        have kept : ¬ loses := by
          intro lost
          obtain ⟨input, same, givesUp⟩ := gives lost
          exact keeps input run same known givesUp
        refine ⟨counted.posts kept posts, ?_⟩
        intro result present
        rw [posts.finalResult] at present
        have quiet := silent (by rw [present]; simp)
        obtain ⟨total, succeeded, failed⟩ := final result present
        refine ⟨?_, succeeded.trans (quiet.tasks _).symm, failed.trans (quiet.tasks _).symm⟩
        rw [total, ← TaskGraph.count_all, ← TaskGraph.count_all]
        exact (quiet.tasks _).symm
      | closed graph entries published counts total =>
        refine ⟨counted.same entries (fun _ => by rw [graph]), ?_⟩
        intro result present
        rw [published] at present
        cases present
        rw [graph]
        exact ⟨total, counts.tasksSucceeded.trans counted.succeeded, counts.tasksFailed.trans counted.failed⟩

/-- A job that is new, or whose counters were right at the start: in every run in which its engine
gives no task up without an entry, its final result counts the tasks as its graph does. -/
theorem Redelivers.reports (sorts : Sorts toposort) {first c : Cluster}
    (history : Redelivers config tools toposort (fun _ _ => True) new first) {jobId : JobId}
    (right : ∀ run, first.jobs.get? jobId = some run → run.handle.Reported)
    (runs : Redelivers config tools toposort (Accounts jobId) first c) {run : JobRun}
    (found : c.jobs.get? jobId = some run) {result : FinalResult} (final : run.handle.finalResult = some result) :
    result.Reports run.handle.graph ∧ ((∀ node ∈ run.handle.graph.nodes.values, node.isTerminal = true) →
      result.executionStatistics.tasksSucceeded + result.executionStatistics.tasksFailed =
        result.executionStatistics.tasksTotal) := by
  have reports := (runs.reported sorts (history.sound sorts sound_new) right run found).final result final
  exact ⟨reports, reports.sum⟩

end Cluster

/-- What the executions of the sample job come to when the gateway declines the last task. -/
def lastDeclined (dispatch : Dispatch) : Outcome :=
  if dispatch.task.id = ⟨12⟩ then refusal else outcomeOf dispatch

/-- A step before which every execution in hand has come to its end. -/
def declining (c : Cluster) (now : Nat) : EngineInput :=
  { plainInput now with outcomes := some ((dispatchesOf c ⟨1⟩).map lastDeclined) }

/-- The engine of the sample job takes steps at the given times. -/
def Cluster.wound (c : Cluster) (times : List Nat) : Cluster :=
  times.foldl (fun c now => c.apply sampleConfig sampleReader DiGraph.sort (.engine ⟨1⟩ (declining c now))) c

/-- The sample job from its submission to its end. -/
def concluded : Cluster := (Cluster.submitted .new sampleSubmission).wound (List.range 40)

theorem possible_declining (c : Cluster) (now : Nat) :
    c.Possible sampleConfig sampleReader DiGraph.sort (.engine ⟨1⟩ (declining c now)) := by
  intro run dispatches outcomes found executing same
  cases same
  have inHand : dispatchesOf c ⟨1⟩ = dispatches := by
    simp only [dispatchesOf, found, executing, Option.elim_some]
    rfl
  rw [inHand, List.forall₂_map_right_iff]
  refine List.forall₂_same.mpr ?_
  intro dispatch _
  unfold lastDeclined
  split
  · exact refusal_answers dispatch
  · exact outcomeOf_answers dispatch

/-- The engine is not about to give a task up without an entry. -/
def Cluster.accounted (c : Cluster) : Bool :=
  (c.jobs.get? ⟨1⟩).all (fun run => match run.pc with
    | .deciding => run.handle.graph.blockedByAbandoned.isEmpty
    | .cancelling => false
    | _ => true)

def Cluster.accountedAlong (c : Cluster) : List Nat → Bool
  | [] => true
  | now :: rest => c.accounted &&
      (c.apply sampleConfig sampleReader DiGraph.sort (.engine ⟨1⟩ (declining c now))).accountedAlong rest

theorem Cluster.accounts_of_accounted {c : Cluster} (accounted : c.accounted = true) (input : EngineInput) :
    c.Accounts ⟨1⟩ (.engine ⟨1⟩ input) := by
  refine ⟨fun _ same => (by cases same), ?_⟩
  intro input' run _ found
  rw [Cluster.accounted, found, Option.all_some] at accounted
  rintro (⟨deciding, _, blocked⟩ | ⟨cancelling, _⟩)
  · rw [deciding] at accounted
    exact blocked (List.isEmpty_iff.mp accounted)
  · rw [cancelling] at accounted
    cases accounted

theorem redelivers_wound {first c : Cluster}
    (runs : Cluster.Redelivers sampleConfig sampleReader DiGraph.sort (Cluster.Accounts ⟨1⟩) first c)
    (times : List Nat) (accounted : c.accountedAlong times = true) :
    Cluster.Redelivers sampleConfig sampleReader DiGraph.sort (Cluster.Accounts ⟨1⟩) first (c.wound times) := by
  induction times generalizing c with
  | nil => exact runs
  | cons now rest ih =>
    simp only [Cluster.accountedAlong, Bool.and_eq_true] at accounted
    exact ih (.next runs (possible_declining c now) (Cluster.accounts_of_accounted accounted.1 _)) accounted.2

/-- A whole run of the sample job: two tasks succeed, the last one is dead-lettered, and the
counters of the final result add up to the three. -/
theorem reports_concluded :
    ∃ run result, concluded.jobs.get? ⟨1⟩ = some run ∧ run.handle.finalResult = some result ∧
      run.handle.graph.stateOf ⟨11⟩ = some .completed ∧ run.handle.graph.stateOf ⟨12⟩ = some .deadLettered ∧
      result.Reports run.handle.graph ∧
      result.executionStatistics.tasksSucceeded + result.executionStatistics.tasksFailed =
        result.executionStatistics.tasksTotal ∧
      result.executionStatistics.tasksFailed = 1 ∧ result.executionStatistics.tasksTotal = 3 := by
  have checked : (Cluster.submitted .new sampleSubmission).accountedAlong (List.range 40) = true ∧
      (concluded.jobs.get? ⟨1⟩).any (fun run => run.handle.finalResult.any (fun result =>
        run.handle.graph.nodes.values.all TaskNode.isTerminal &&
        run.handle.graph.stateOf ⟨11⟩ == some .completed && run.handle.graph.stateOf ⟨12⟩ == some .deadLettered &&
        result.executionStatistics.tasksFailed == 1 && result.executionStatistics.tasksTotal == 3)) = true := by
    decide +kernel
  have submitted : Cluster.Redelivers sampleConfig sampleReader DiGraph.sort (Cluster.Accounts ⟨1⟩) .new
      (.submitted .new sampleSubmission) :=
    (Cluster.runs_submitted .start rfl (fun _ _ _ found => (by cases found))
      ⟨fun _ same => (by cases same), fun _ _ same => (by cases same)⟩).redelivers
  have runs := redelivers_wound submitted _ checked.1
  obtain ⟨run, found, published⟩ := (Option.any_eq_true _ _).mp checked.2
  obtain ⟨result, final, here⟩ := (Option.any_eq_true _ _).mp published
  simp only [Bool.and_eq_true, List.all_eq_true, beq_iff_eq] at here
  obtain ⟨⟨⟨⟨terminal, succeeded⟩, dead⟩, failed⟩, total⟩ := here
  obtain ⟨reports, sum⟩ :=
    Cluster.Redelivers.reports Cluster.sample_sorts .start (fun _ absurd => by cases absurd) runs found final
  exact ⟨run, result, found, final, succeeded, dead, reports, sum terminal, failed, total⟩

/-- A job that is cancelled ends with every task given up, and its final result says that none failed. -/
theorem abandoned_uncounted :
    Cluster.Redelivers sampleConfig sampleReader DiGraph.sort (fun _ _ => True) .new withdrawn ∧
    ∃ run result, withdrawn.jobs.get? ⟨1⟩ = some run ∧ run.handle.finalResult = some result ∧
      (∀ node ∈ run.handle.graph.nodes.values, node.isTerminal = true) ∧
      (run.handle.graph.withState TaskGraph.isAbandoned).length = 3 ∧
      result.executionStatistics.tasksTotal = 3 ∧ result.executionStatistics.tasksSucceeded = 0 ∧
      result.executionStatistics.tasksFailed = 0 := by
  have checked : (withdrawn.jobs.get? ⟨1⟩).any (fun run => run.handle.finalResult.any (fun result =>
      run.handle.graph.nodes.values.all TaskNode.isTerminal &&
      (run.handle.graph.withState TaskGraph.isAbandoned).length == 3 &&
      result.executionStatistics.tasksTotal == 3 && result.executionStatistics.tasksSucceeded == 0 &&
      result.executionStatistics.tasksFailed == 0)) = true := by decide +kernel
  obtain ⟨run, found, published⟩ := (Option.any_eq_true _ _).mp checked
  obtain ⟨result, final, here⟩ := (Option.any_eq_true _ _).mp published
  simp only [Bool.and_eq_true, beq_iff_eq, List.all_eq_true] at here
  obtain ⟨⟨⟨⟨terminal, abandoned⟩, total⟩, succeeded⟩, failed⟩ := here
  refine ⟨redelivers_drive ?_ ⟨1⟩ [9, 10, 11] (fun _ _ => trivial), run, result, found, final, terminal, abandoned,
    total, succeeded, failed⟩
  have cancels : Cluster.Redelivers sampleConfig sampleReader DiGraph.sort (fun _ _ => True) .new signalled :=
    .next revoked_runs.1 trivial trivial
  refine .next cancels ?_ trivial
  intro run there
  have cancelled := revoked_checked.2.1
  rw [there, Option.all_some] at cancelled
  exact beq_iff_eq.mp cancelled

end Swarm
