import Swarm.Coordinator.Neighbours
import Swarm.Coordinator.Postings

namespace Swarm
open Recovery JobHandle

/-- The counters follow from the results and the failures, and every failure is on record. -/
structure JobHandle.Booked (h : JobHandle) : Prop where
  tasksSucceeded : h.statistics.tasksSucceeded = h.results.length
  tasksFailed : h.statistics.tasksFailed = h.failures.countP TaskFailure.deadLettered
  tasksRetried : h.statistics.tasksRetried = h.failures.countP (fun failure => !failure.deadLettered)
  modelRequests : h.statistics.modelRequests = h.results.countP (fun result => !result.deduplicated) +
    h.failures.length
  modelCacheHits : h.statistics.modelCacheHits = h.results.countP TaskResult.deduplicated
  tokensIn : h.statistics.tokensIn = (h.results.map TaskResult.tokensIn).sum
  tokensOut : h.statistics.tokensOut = (h.results.map TaskResult.tokensOut).sum
  logged : failuresOf h.journal = h.failures

namespace JobHandle.Booked
variable {h h' : JobHandle}

theorem entries (booked : h.Booked) (same : SameEntries h h') : h'.Booked where
  tasksSucceeded := by rw [same.counts.tasksSucceeded, same.results]; exact booked.tasksSucceeded
  tasksFailed := by rw [same.counts.tasksFailed, same.failures]; exact booked.tasksFailed
  tasksRetried := by rw [same.counts.tasksRetried, same.failures]; exact booked.tasksRetried
  modelRequests := by rw [same.counts.modelRequests, same.results, same.failures]; exact booked.modelRequests
  modelCacheHits := by rw [same.counts.modelCacheHits, same.results]; exact booked.modelCacheHits
  tokensIn := by rw [same.counts.tokensIn, same.results]; exact booked.tokensIn
  tokensOut := by rw [same.counts.tokensOut, same.results]; exact booked.tokensOut
  logged := by rw [same.logged, same.failures]; exact booked.logged

theorem post {loses : Prop} (booked : h.Booked) (post : Post loses h h') : h'.Booked := by
  cases post with
  | quiet silent => exact booked.entries silent.entries
  | moved _ _ _ _ same _ => exact booked.entries same
  | succeeded result _ _ _ results failures logged counts _ =>
    refine ⟨?_, ?_, ?_, ?_, ?_, ?_, ?_, by rw [logged, failures]; exact booked.logged⟩
    · rw [counts.tasksSucceeded, results, List.length_append, ← booked.tasksSucceeded]
      rfl
    · rw [counts.tasksFailed, failures]
      exact booked.tasksFailed
    · rw [counts.tasksRetried, failures]
      exact booked.tasksRetried
    · rw [counts.modelRequests, results, failures, List.countP_append, Nat.add_right_comm, ← booked.modelRequests]
      cases deduplicated : result.deduplicated <;> simp [ExecutionStatistics.credit, deduplicated]
    · rw [counts.modelCacheHits, results, List.countP_append, ← booked.modelCacheHits]
      cases deduplicated : result.deduplicated <;> simp [ExecutionStatistics.credit, deduplicated]
    · rw [counts.tokensIn, results, List.map_append, List.sum_append, ← booked.tokensIn]
      simp [ExecutionStatistics.credit]
    · rw [counts.tokensOut, results, List.map_append, List.sum_append, ← booked.tokensOut]
      simp [ExecutionStatistics.credit]
  | failed failure _ _ _ results failures logged counts _ =>
    refine ⟨?_, ?_, ?_, ?_, ?_, ?_, ?_, by rw [logged, failures, booked.logged]⟩
    · rw [counts.tasksSucceeded, results]
      exact booked.tasksSucceeded
    · rw [counts.tasksFailed, failures, List.countP_append, ← booked.tasksFailed]
      cases dead : failure.deadLettered <;> simp [ExecutionStatistics.debit, dead]
    · rw [counts.tasksRetried, failures, List.countP_append, ← booked.tasksRetried]
      cases dead : failure.deadLettered <;> simp [ExecutionStatistics.debit, dead]
    · rw [counts.modelRequests, results, failures, List.length_append, ← Nat.add_assoc, ← booked.modelRequests]
      rfl
    · rw [counts.modelCacheHits, results]
      exact booked.modelCacheHits
    · rw [counts.tokensIn, results]
      exact booked.tokensIn
    · rw [counts.tokensOut, results]
      exact booked.tokensOut

theorem posts {loses : Prop} (booked : h.Booked) (posts : Posts loses h h') : h'.Booked := by
  induction posts with
  | refl => exact booked
  | tail _ last ih => exact ih.post last

end JobHandle.Booked

theorem booked_planned (job : Job) (graph : TaskGraph) : (JobHandle.planned job graph).Booked :=
  ⟨rfl, rfl, rfl, rfl, rfl, rfl, rfl, rfl⟩

/-- What replay collects of the failures are the records of them. -/
theorem replay_failures (log : List JournalRecord) : (replay log).failures = failuresOf log := by
  induction log using List.reverseRecOn with
  | nil => rfl
  | append_singleton log record ih =>
    rw [replay_snoc, failuresOf_append, ← ih]
    cases record <;> first | exact (List.append_nil _).symm | rfl

/-- Replay counts as the engine does, but for a model request of each failure. -/
theorem JobHandle.Booked.recounts_iff {h : JobHandle} (booked : h.Booked) (tasksTotal : Nat) :
    h.statistics.SameCounts (recomputeStatistics h.results h.failures tasksTotal) ↔ h.failures = [] := by
  have counts := (Engine.setLatencyPercentiles_counts
    { tasksTotal := tasksTotal
      tasksSucceeded := h.results.length
      tasksFailed := h.failures.countP TaskFailure.deadLettered
      tasksRetried := h.failures.countP (fun failure => !failure.deadLettered)
      modelRequests := h.results.countP (fun result => !result.deduplicated)
      modelCacheHits := h.results.countP TaskResult.deduplicated
      tokensIn := (h.results.map TaskResult.tokensIn).sum
      tokensOut := (h.results.map TaskResult.tokensOut).sum
      costUsd := (h.results.map TaskResult.costUsd).sum } (h.results.map TaskResult.durationMs)).1
  constructor
  · intro same
    have requests := counts.modelRequests.symm.trans (same.modelRequests.trans booked.modelRequests)
    simp only at requests
    exact List.length_eq_zero_iff.mp (by omega)
  · intro none
    refine .trans ⟨booked.tasksSucceeded.symm, booked.tasksFailed.symm, booked.tasksRetried.symm, ?_,
      booked.modelCacheHits.symm, booked.tokensIn.symm, booked.tokensOut.symm⟩ counts
    rw [booked.modelRequests, none]
    rfl

namespace Cluster
variable {config : CoordinatorConfig} {tools : TextTools} {toposort : DiGraph TaskId → Except Nat (List Nat)}

/-- The books of a job that is submitted in this lifetime follow from its results and failures. -/
theorem Redelivers.booked (sorts : Sorts toposort) {first c : Cluster} (start : first.Sound) {jobId : JobId}
    (fresh : first.jobs.get? jobId = none) (runs : Redelivers config tools toposort Alive first c) :
    ∀ run, c.jobs.get? jobId = some run → run.handle.Booked := by
  induction runs with
  | start =>
    intro run found
    rw [fresh] at found
    cases found
  | redeliver _ _ ih => exact ih
  | @next c event runs possible alive ih =>
    intro run' found
    have sound := runs.sound sorts start
    cases known : c.jobs.get? jobId with
    | none =>
      cases apply_job possible alive found with
      | kept same => rw [known] at same; cases same
      | submitted _ _ _ _ same => rw [same]; exact booked_planned _ _
      | steered same => rw [known] at same; cases same
      | engine _ same => rw [known] at same; cases same
    | some run =>
      cases sound.books possible alive known found with
      | posted loses _ posts _ => exact (ih run known).posts posts
      | closed _ entries _ _ _ => exact (ih run known).entries entries

/-- Whatever the log of a job that was submitted in this lifetime is mixed with: replay recovers the
counters of the running job exactly if no attempt at one of its tasks has failed. -/
theorem Redelivers.recount_iff (sorts : Sorts toposort) {first c : Cluster}
    (history : Redelivers config tools toposort (fun _ _ => True) new first) {jobId : JobId}
    (fresh : first.jobs.get? jobId = none) (runs : Redelivers config tools toposort Alive first c) {run : JobRun}
    (found : c.jobs.get? jobId = some run) {journal : List JournalRecord}
    (written : own jobId journal = run.handle.journal) :
    ∃ recovered, (journal.foldl Recovery.apply .empty).get? jobId = some recovered ∧ ∀ tasksTotal,
      (run.handle.statistics.SameCounts (recomputeStatistics recovered.results recovered.failures tasksTotal) ↔
        run.handle.failures = []) := by
  have start := history.sound sorts sound_new
  obtain ⟨job, tasks, _, sync⟩ := (runs.sound sorts start).synced jobId run found
  have booked := runs.booked sorts start fresh run found
  refine ⟨replay run.handle.journal, ?_, ?_⟩
  · rw [accumulated, written, if_neg sync.legal.ne_nil]
  · intro tasksTotal
    rw [sync.results, replay_failures, booked.logged]
    exact booked.recounts_iff tasksTotal

end Cluster

/-- After the first result nothing has failed, and replay has all the counters. -/
theorem recount_completed :
    ∃ run recovered, completed.jobs.get? ⟨1⟩ = some run ∧ run.handle.statistics.tasksSucceeded = 1 ∧
    (run.handle.journal.foldl Recovery.apply .empty).get? ⟨1⟩ = some recovered ∧
    run.handle.statistics.SameCounts (recomputeStatistics recovered.results recovered.failures 2) := by
  have booked : (completed.jobs.get? ⟨1⟩).any (fun run => run.handle.failures.isEmpty &&
      run.handle.statistics.tasksSucceeded == 1) = true := by decide +kernel
  obtain ⟨run, found, here⟩ := (Option.any_eq_true _ _).mp booked
  rw [Bool.and_eq_true, List.isEmpty_iff, beq_iff_eq] at here
  have runs : Cluster.Redelivers sampleConfig sampleReader DiGraph.sort Cluster.Alive .new completed :=
    (runs_completed (fun _ same => by cases same) (fun _ _ _ same => by cases same)).redelivers
  obtain ⟨job, tasks, id, sync⟩ := (runs.sound Cluster.sample_sorts Cluster.sound_new).synced _ run found
  have written : own ⟨1⟩ run.handle.journal = run.handle.journal := by
    rw [← id]
    exact sync.own_journal
  obtain ⟨recovered, replayed, recounts⟩ :=
    Cluster.Redelivers.recount_iff Cluster.sample_sorts .start rfl runs found written
  exact ⟨run, recovered, found, here.2, replayed, (recounts 2).mpr here.1⟩

/-- After a timeout the engine has counted a model request that replay knows nothing of. -/
theorem request_forgotten : Cluster.Redelivers sampleConfig sampleReader DiGraph.sort Cluster.Alive .new retried ∧
    ∃ run recovered, retried.jobs.get? ⟨1⟩ = some run ∧ run.pc = .top ∧
      own ⟨1⟩ run.handle.journal = run.handle.journal ∧
      (run.handle.journal.foldl Recovery.apply .empty).get? ⟨1⟩ = some recovered ∧
      run.handle.statistics.modelRequests = 1 ∧
      (recomputeStatistics recovered.results recovered.failures 2).modelRequests = 0 := by
  have counted : (retried.jobs.get? ⟨1⟩).any (fun run => run.pc.isTop && run.handle.statistics.modelRequests == 1 &&
      (own ⟨1⟩ run.handle.journal).length == run.handle.journal.length &&
      ((run.handle.journal.foldl Recovery.apply .empty).get? ⟨1⟩).any (fun recovered =>
        (recomputeStatistics recovered.results recovered.failures 2).modelRequests == 0)) = true := by decide +kernel
  have runs : Cluster.Runs sampleConfig sampleReader DiGraph.sort Cluster.Alive .new retried :=
    Cluster.runs_schedule (fun _ _ _ _ _ _ same => by cases same)
      (runs_neighbours (fun _ same => by cases same) (fun _ same => by cases same)) neighbours_keys _
        retried_checked.1
  obtain ⟨run, found, here⟩ := (Option.any_eq_true _ _).mp counted
  simp only [Bool.and_eq_true, beq_iff_eq] at here
  obtain ⟨⟨⟨top, requests⟩, whole⟩, replayed⟩ := here
  obtain ⟨recovered, known, none⟩ := (Option.any_eq_true _ _).mp replayed
  exact ⟨runs.redelivers, run, recovered, found, Pc.isTop_iff.mp top, List.filter_sublist.eq_of_length whole,
    known, requests,
    beq_iff_eq.mp none⟩

end Swarm
