import Swarm.Coordinator.Resume

namespace Swarm
open Recovery

/-- Every completed task of a rebuilt job has exactly one result, and every
result is of a completed task. -/
def JobHandle.ResultsMatch (h : JobHandle) : Prop :=
  (∀ task, h.graph.stateOf task = some .completed →
    (h.results.filter (fun result => result.taskId = task)).length = 1) ∧
    ∀ result ∈ h.results, h.graph.stateOf result.taskId = some .completed

namespace Cluster
variable {config : CoordinatorConfig} {tools : TextTools}
  {toposort : DiGraph TaskId → Except Nat (List Nat)} {c : Cluster} {journal : List JournalRecord} {job : Job}
  {tasks : List TaskNode}

/-- Every completed task comes back with its one result exactly when every
completion in the job's records is followed by its result. -/
theorem Reach.results_match_iff (sorts : Sorts toposort) (reach : Reach config tools toposort c)
    (leaves : c.Leaves journal) (planned : .jobPlanned job tasks ∈ journal) :
    ∃ h, rebuild toposort journal job.id = some (.ok h) ∧ (h.ResultsMatch ↔ Paired (own job.id journal)) := by
  obtain ⟨h, current, run, legal, _, rebuilt, sync⟩ :=
    (Runs.sound sorts sound_new reach).remains sorts leaves planned
  refine ⟨h, run, ?_⟩
  rw [← legal.results_iff]
  unfold JobHandle.ResultsMatch
  simp only [rebuilt_completed legal rebuilt sync, rebuilt.results]
  constructor
  · rintro ⟨once, _⟩ task completed
    obtain ⟨result, member⟩ :=
      List.exists_mem_of_length_pos (Nat.lt_of_lt_of_eq Nat.zero_lt_one (once task completed).symm)
    obtain ⟨inside, same⟩ := List.mem_filter.mp member
    exact ⟨result, inside, of_decide_eq_true same⟩
  · intro complete
    refine ⟨?_, legal.results_completed⟩
    intro task completed
    obtain ⟨result, inside, same⟩ := complete task completed
    rw [← same]
    exact Vec.length_filter_key legal.results_nodup inside

theorem results_match_iff_completed :
    ∃ job tasks h, JournalRecord.jobPlanned job tasks ∈ completed.cut ⟨1⟩ 7 ∧
      rebuild DiGraph.sort (completed.cut ⟨1⟩ 7) job.id = some (.ok h) ∧ h.results.length = 1 ∧
      (h.ResultsMatch ↔ Paired (own job.id (completed.cut ⟨1⟩ 7))) := by
  obtain ⟨leaves, job, tasks, h, planned, id, rebuilt⟩ := rebuilt_cut reach_completed ⟨1⟩ completed_checked.1 6
  obtain ⟨h', again, fit⟩ := Reach.results_match_iff sample_sorts reach_completed leaves planned
  have same : h' = h := by
    rw [id, rebuilt] at again
    cases again
    rfl
  subst same
  have one := completed_checked.2.1
  rw [rebuilt] at one
  simp only [Option.any_some, Except.toOption, Bool.and_eq_true, beq_iff_eq] at one
  exact ⟨job, tasks, h', planned, again, one.2, fit⟩

end Cluster

/-- The crash between a completion and its result: the rebuilt job has a
completed task and no result. -/
theorem completed_without_result :
    Cluster.Reach sampleConfig sampleReader DiGraph.sort completed ∧ completed.Leaves (completed.cut ⟨1⟩ 6) ∧
      ∃ job tasks h, .jobPlanned job tasks ∈ completed.cut ⟨1⟩ 6 ∧
        rebuild DiGraph.sort (completed.cut ⟨1⟩ 6) job.id = some (.ok h) ∧ ¬ h.ResultsMatch := by
  obtain ⟨leaves, job, tasks, h, planned, id, rebuilt⟩ :=
    Cluster.rebuilt_cut reach_completed ⟨1⟩ completed_checked.1 5
  have broken := completed_checked.2.2
  rw [rebuilt] at broken
  simp only [Option.any_some, Except.toOption, Bool.and_eq_true, beq_iff_eq, List.isEmpty_iff] at broken
  refine ⟨reach_completed, leaves, job, tasks, h, planned, id ▸ rebuilt, ?_⟩
  intro fit
  have once := fit.1 ⟨10⟩ broken.1
  rw [broken.2] at once
  cases once

namespace Engine
open JobHandle Act

theorem transition_error {S : Type} [DecidableEq S] [StateMachine S] {current target : S} {e : SwarmError}
    (failed : StateMachine.transition current target = .error e) (detail : String) : e ≠ .internal detail := by
  unfold StateMachine.transition at failed
  split at failed <;> cases failed
  simp

theorem enter_error {h : JobHandle} {toposort : DiGraph TaskId → Except Nat (List Nat)} {now : DateTime} :
    Ensures (enter toposort now) h (fun _ _ => True) (fun e _ => ∀ detail, e ≠ .internal detail) := by
  simp only [enter, setStatus, ensures_bind, ensures_get, ensures_liftExcept, ensures_set]
  refine ⟨fun _ _ => ⟨fun _ _ => trivial, ?_⟩, fun e failed => transition_error failed⟩
  intro e failed detail
  simp only [agentTarget, TaskGraph.layers, TaskGraph.topologicalOrder, bind, Except.bind] at failed
  cases sorted : toposort h.graph.graph with
  | ok order => simp [sorted, pure, Except.pure] at failed
  | error node =>
    simp only [sorted, TaskGraph.cycleError] at failed
    cases failed
    simp

theorem spawnAgents_ok {config : CoordinatorConfig} {h : JobHandle} {ids : Nat → AgentId} {target : Nat}
    {now : DateTime} :
    Ensures (spawnAgents config ids target now) h (fun _ _ => True) (fun _ _ => False) := by
  simp only [spawnAgents, ensures_bind, ensures_get, ensures_liftExcept, ensures_modify]
  refine ⟨fun _ _ => trivial, ?_⟩
  intro e failed
  obtain ⟨index, _, impossible⟩ := mapM_error failed
  cases impossible

theorem stepIdle_unfinished {config : CoordinatorConfig}
    {toposort : DiGraph TaskId → Except Nat (List Nat)} {h : JobHandle}
    (unfinished : h.job.status.isFinished = false) (input : EngineInput) (shared : Shared) (detail : String) :
    (step config toposort input (.new h) shared).1.pc ≠ .returned (.error (.internal detail)) := by
  simp only [step, JobRun.new, stepIdle, unfinished, Bool.false_eq_true, if_false]
  have entered : Ensures (enter toposort input.now) h _ _ := enter_error
  rcases entered.cases with ⟨target, h', done, _⟩ | ⟨e, h', failed, other⟩
  · rw [done]
    simp only
    split
    · simp
    · have spawned : Ensures (do
          spawnAgents config input.agentIds target input.now
          pure Pc.top) h' (fun pc _ => pc = .top) (fun _ _ => False) := by
        rw [ensures_bind]
        exact spawnAgents_ok.mono (fun _ _ _ => rfl) (fun _ _ never => never)
      rcases exec_cases { (JobRun.new h) with handle := h', spawned := target } spawned with
        ⟨pc, h'', ran, rfl⟩ | ⟨e, h'', ran, never⟩
      · simp only [JobRun.new] at ran
        rw [ran]
        simp
      · exact never.elim
  · rw [failed]
    intro same
    cases same
    exact other detail rfl

/-- A finished job is not run again: the start gives its final result, or fails for want of one. -/
theorem stepIdle_finished {config : CoordinatorConfig}
    {toposort : DiGraph TaskId → Except Nat (List Nat)} {h : JobHandle} (finished : h.job.status.isFinished = true)
    (input : EngineInput) (shared : Shared) :
    (step config toposort input (.new h) shared).1.pc = .returned (match h.finalResult with
      | some result => .ok result
      | none => .error (.internal s!"job {h.job.id.display} finished without a result")) := by
  simp only [step, JobRun.new, stepIdle, finished, if_true]
  cases h.finalResult <;> rfl

end Engine

/-- The sample job with a deadline that has passed. -/
def lateSubmission : Submission :=
  { sampleSubmission with request := { sampleSubmission.request with deadline := some 0 } }

def late : Cluster := (Cluster.submitted .new lateSubmission).drive ⟨1⟩ [1, 2, 3]

theorem reach_late : Cluster.Reach sampleConfig sampleReader DiGraph.sort late :=
  Cluster.reach_drive (Cluster.reach_submitted lateSubmission) ⟨1⟩ [1, 2, 3] (fun _ _ => trivial)

/-- The job fails by five records; the last of them has its final result. -/
theorem late_checked : (late.jobs.get? ⟨1⟩).isSome = true ∧
    (rebuild DiGraph.sort (late.cut ⟨1⟩ 5) ⟨1⟩).any (fun answer =>
      answer.toOption.any (fun h => h.job.status == .failed)) = true ∧
    (rebuild DiGraph.sort (late.cut ⟨1⟩ 4) ⟨1⟩).any (fun answer =>
      answer.toOption.any (fun h => h.job.status.isFinished && h.finalResult.isNone)) = true := by decide +kernel

/-- A rebuilt job can be driven on or has its final result, and a new run does not fail for want of one. -/
structure JobHandle.HasOutcome (config : CoordinatorConfig) (toposort : DiGraph TaskId → Except Nat (List Nat))
    (h : JobHandle) : Prop where
  result : h.job.status.isFinished = false ∨ h.job.status.isFinished = true ∧ h.finalResult.isSome = true
  run : ∀ input shared, (Engine.step config toposort input (.new h) shared).1.pc ≠
    .returned (.error (.internal s!"job {h.job.id.display} finished without a result"))

theorem JobHandle.hasOutcome_iff {config : CoordinatorConfig} {toposort : DiGraph TaskId → Except Nat (List Nat)}
    {h : JobHandle} : h.HasOutcome config toposort ↔ (h.job.status.isFinished = true → h.finalResult ≠ none) := by
  constructor
  · intro outcome finished missing
    rcases outcome.result with unfinished | ⟨_, present⟩
    · rw [unfinished] at finished
      cases finished
    · rw [missing] at present
      cases present
  · intro complete
    cases finished : h.job.status.isFinished with
    | false => exact ⟨Or.inl finished, fun input shared => Engine.stepIdle_unfinished finished input shared _⟩
    | true =>
      obtain ⟨result, present⟩ := Option.ne_none_iff_exists'.mp (complete finished)
      refine ⟨Or.inr ⟨finished, by rw [present]; rfl⟩, fun input shared => ?_⟩
      rw [Engine.stepIdle_finished finished, present]
      simp

namespace Cluster
variable {config : CoordinatorConfig} {tools : TextTools}
  {toposort : DiGraph TaskId → Except Nat (List Nat)} {c : Cluster} {journal : List JournalRecord} {job : Job}
  {tasks : List TaskNode}

/-- A rebuilt job is unfinished or has its final result exactly when its records
do not end in the one of a final status. -/
theorem Reach.outcome_iff (sorts : Sorts toposort) (reach : Reach config tools toposort c)
    (leaves : c.Leaves journal) (planned : .jobPlanned job tasks ∈ journal) :
    ∃ h, rebuild toposort journal job.id = some (.ok h) ∧
      (h.HasOutcome config toposort ↔ Concluded (own job.id journal)) := by
  obtain ⟨h, current, run, legal, known, rebuilt, sync⟩ :=
    (Runs.sound sorts sound_new reach).remains sorts leaves planned
  refine ⟨h, run, ?_⟩
  obtain ⟨status, last, same⟩ := sync.status
  rw [rebuilt.journal] at last
  rw [JobHandle.hasOutcome_iff, ← legal.hasFinal_iff sync.plan.status, rebuilt.finalResult, ← same]
  unfold HasFinal
  rw [last]
  simp

theorem outcome_iff_late :
    ∃ job tasks h, JournalRecord.jobPlanned job tasks ∈ late.cut ⟨1⟩ 5 ∧
      rebuild DiGraph.sort (late.cut ⟨1⟩ 5) job.id = some (.ok h) ∧ h.job.status = .failed ∧
      (h.HasOutcome sampleConfig DiGraph.sort ↔ Concluded (own job.id (late.cut ⟨1⟩ 5))) := by
  obtain ⟨leaves, job, tasks, h, planned, id, rebuilt⟩ := rebuilt_cut reach_late ⟨1⟩ late_checked.1 4
  obtain ⟨h', again, outcome⟩ := Reach.outcome_iff sample_sorts reach_late leaves planned
  have same : h' = h := by
    rw [id, rebuilt] at again
    cases again
    rfl
  subst same
  have failed := late_checked.2.1
  rw [rebuilt] at failed
  simp only [Option.any_some, Except.toOption, beq_iff_eq] at failed
  exact ⟨job, tasks, h', planned, again, failed, outcome⟩

end Cluster

/-- The crash between the final status and the final result: the rebuilt job is
finished, has no result, and every further run of it fails. -/
theorem finished_without_result :
    Cluster.Reach sampleConfig sampleReader DiGraph.sort late ∧ late.Leaves (late.cut ⟨1⟩ 4) ∧
      ∃ job tasks h, .jobPlanned job tasks ∈ late.cut ⟨1⟩ 4 ∧
        rebuild DiGraph.sort (late.cut ⟨1⟩ 4) job.id = some (.ok h) ∧ ¬ h.HasOutcome sampleConfig DiGraph.sort := by
  obtain ⟨leaves, job, tasks, h, planned, id, rebuilt⟩ := Cluster.rebuilt_cut reach_late ⟨1⟩ late_checked.1 3
  have broken := late_checked.2.2
  rw [rebuilt] at broken
  simp only [Option.any_some, Except.toOption, Bool.and_eq_true, Option.isNone_iff_eq_none] at broken
  exact ⟨reach_late, leaves, job, tasks, h, planned, id ▸ rebuilt,
    fun outcome => JobHandle.hasOutcome_iff.mp outcome broken.1 broken.2⟩

end Swarm
