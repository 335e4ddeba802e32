import Swarm.Coordinator.Audit

namespace Swarm
open Recovery JobHandle

/-- No task of a job can ever be started again: each is over or waits behind one that is not complete. -/
def JobHandle.Stuck (h : JobHandle) : Prop :=
  ∀ task node, h.graph.get task = some node → node.state.isTerminal = true ∨
    node.state.isFresh = true ∧ ∃ dependency ∈ node.dependencies, h.graph.stateOf dependency ≠ some .completed

namespace JobHandle.Stuck
variable {h h' : JobHandle}

theorem not_leasable (stuck : h.Stuck) (task : TaskId) : (h.graph.stateOf task).any TaskState.isLeasable = false := by
  cases found : h.graph.get task with
  | none => simp [TaskGraph.stateOf, found]
  | some node =>
    have state := stuck task node found
    simp only [TaskGraph.stateOf, found, Option.map_some, Option.any_some]
    cases here : node.state <;> simp [here, TaskState.isTerminal, TaskState.isFresh, TaskState.isLeasable] at state ⊢

theorem not_running (stuck : h.Stuck) (task : TaskId) : h.graph.stateOf task ≠ some .running := by
  intro running
  obtain ⟨node, found, state⟩ := Option.map_eq_some_iff.mp running
  rcases stuck task node found with terminal | ⟨fresh, _⟩
  · rw [state] at terminal
    cases terminal
  · rw [state] at fresh
    cases fresh

/-- The only move left to a task is to be given up. -/
theorem cancelled (stuck : h.Stuck) {task : TaskId} {node : TaskNode} {target : TaskState}
    (found : h.graph.get task = some node) (legal : target ∈ StateMachine.allowed node.state)
    (other : target ≠ .waitingForDependency)
    (unblocked : node.state.isPromoted = false → target = .queued → h.graph.Unblocked node) :
    target = .cancelled := by
  rcases stuck task node found with terminal | ⟨fresh, dependency, depends, incomplete⟩
  · exact absurd ((TaskState.not_terminal_of_allowed legal).symm.trans terminal) (by simp)
  · have unpromoted : node.state.isPromoted = false := by
      cases here : node.state <;> simp [here, TaskState.isFresh, TaskState.isPromoted] at fresh ⊢
    have unqueued : target ≠ .queued := fun queued => incomplete (unblocked unpromoted queued dependency depends)
    cases here : node.state <;> simp [here, TaskState.isFresh] at fresh <;> rw [here] at legal <;>
      simp [StateMachine.allowed] at legal <;> tauto

theorem update (stuck : h.Stuck) {task : TaskId} {node : TaskNode} (found : h.graph.get task = some node)
    (graph : h'.graph = h.graph.update task (fun node => { node with state := .cancelled })) : h'.Stuck := by
  have states : ∀ other, h.graph.stateOf other ≠ some .completed → h'.graph.stateOf other ≠ some .completed := by
    intro other incomplete
    rw [graph, TaskGraph.stateOf_update_state found]
    split
    · simp
    · exact incomplete
  intro other current known
  rw [graph, TaskGraph.get_update] at known
  split at known
  · obtain ⟨old, _, rfl⟩ := Option.map_eq_some_iff.mp known
    exact Or.inl rfl
  · rcases stuck other current known with terminal | ⟨fresh, dependency, depends, incomplete⟩
    · exact Or.inl terminal
    · exact Or.inr ⟨fresh, dependency, depends, states dependency incomplete⟩

theorem regraph (stuck : h.Stuck) (nodes : ∀ task, h'.graph.get task = h.graph.get task) : h'.Stuck := by
  intro task node found
  rw [nodes] at found
  simp only [TaskGraph.stateOf, nodes]
  exact stuck task node found

theorem move (stuck : h.Stuck) (move : Move h h') : h'.Stuck := by
  cases move with
  | quiet same => exact stuck.regraph (fun _ => by rw [same.graph])
  | attempt task attempt leasable =>
    rw [stuck.not_leasable task] at leasable
    cases leasable
  | rehash moved => exact stuck.regraph (fun task => (moved.get? task).symm)
  | @advance task target node transition attempt _ found legal other same unblocked _ =>
    cases stuck.cancelled found legal other.2 unblocked
    exact stuck.update found rfl
  | @complete task node transition attempt result _ found legal _ _ _ _ _ =>
    have running := TaskState.running_of_completed_allowed legal
    exact absurd (by simp [TaskGraph.stateOf, found, running]) (stuck.not_running task)
  | failed _ _ => exact stuck.regraph (fun _ => rfl)
  | status _ _ _ _ _ => exact stuck.regraph (fun _ => rfl)
  | finish _ _ _ _ _ _ => exact stuck.regraph (fun _ => rfl)

theorem moves (stuck : h.Stuck) (moves : Moves h h') : h'.Stuck := by
  induction moves with
  | refl => exact stuck
  | tail _ last ih => exact ih.move last

end JobHandle.Stuck

/-- The records of a job that are left say how it ended, or leave none of its tasks to be
started: each is over or depends on one that is not complete. -/
def Concluded (jobId : JobId) (journal : List JournalRecord) : Prop :=
  (∃ status, lastStatus (own jobId journal) = some status ∧ status.isFinished = true) ∨
    ∀ job tasks, .jobPlanned job tasks ∈ own jobId journal → ∀ node ∈ tasks,
      (∃ state, lastTransition journal jobId node.id = some state ∧ state.isTerminal = true) ∨
        ∃ dependency ∈ node.dependencies, lastTransition journal jobId dependency ≠ some .completed

namespace Cluster
variable {config : CoordinatorConfig} {tools : TextTools} {toposort : DiGraph TaskId → Except Nat (List Nat)}

/-- A job that is rebuilt from such records is finished, or stuck. -/
theorem Sound.concluded {c : Cluster} (sound : c.Sound) (sorts : Sorts toposort) {journal : List JournalRecord}
    (leaves : c.Leaves journal) {jobId : JobId} (concluded : Concluded jobId journal) {run : JobRun}
    (found : (Cluster.restart toposort journal).jobs.get? jobId = some run) :
    run.handle.job.status.isFinished = true ∨ run.handle.Stuck := by
  obtain ⟨present, h, built, rfl⟩ := restart_get? found
  obtain ⟨_, job, tasks, h', current, _, rfl, _, legal, again, planned, rebuilt, sync⟩ :=
    sound.rebuilt sorts leaves present
  rw [built] at again
  cases again
  rcases concluded with ⟨status, last, finished⟩ | settled
  · refine Or.inl ?_
    obtain ⟨resumed, same⟩ := rebuilt.job
    simp only [lastStatus, planned, Option.map_some, Option.some.injEq] at last
    change h.job.status.isFinished = true
    rw [same, rewound, last, if_pos finished, last]
    exact finished
  · refine Or.inr ?_
    have plan : JournalRecord.jobPlanned job tasks ∈ own job.id journal := List.mem_of_getElem? legal.first
    intro task node known
    change h.graph.get task = some node at known
    obtain ⟨original, member, id, dependencies, _⟩ := sync.planned known
    have state := rebuilt_states legal rebuilt (sync.isSome_iff.mp (by rw [known]; rfl))
    simp only [TaskGraph.stateOf, known, Option.map_some, Option.some.injEq] at state
    rcases settled job tasks plan original member with ⟨final, last, terminal⟩ | ⟨dependency, depends, incomplete⟩
    · refine Or.inl ?_
      rw [id] at last
      rw [state, last, Option.elim_some, restored, if_pos terminal]
      exact terminal
    · cases terminal : node.state.isTerminal with
      | true => exact Or.inl rfl
      | false =>
        obtain ⟨_, fresh⟩ := restored_says (lastTransition journal job.id task)
        rw [state] at terminal
        refine Or.inr ⟨?_, dependency, dependencies ▸ depends, ?_⟩
        · rw [state, fresh terminal]
          rfl
        · intro completed
          exact incomplete ((lastTransition_eq _ _ _).trans ((rebuilt_completed legal rebuilt sync).mp completed))

/-- An acknowledged cancellation outlives a crash if the records that are left conclude the job. -/
theorem Redelivers.cancel_durable (sorts : Sorts toposort) {first c later : Cluster}
    (history : Redelivers config tools toposort (fun _ _ => True) new first) {jobId : JobId} {before : JobRun}
    (known : first.jobs.get? jobId = some before)
    (runs : Redelivers config tools toposort Alive (first.apply config tools toposort (.cancel jobId)) c)
    {journal : List JournalRecord} (leaves : c.Leaves journal) (written : before.handle.journal <+: own jobId journal)
    (concluded : Concluded jobId journal)
    (resumes : Redelivers config tools toposort Alive (restart toposort journal) later) {run : JobRun}
    (found : later.jobs.get? jobId = some run) : run.pc.dispatches = [] := by
  have sound := history.sound sorts sound_new
  have cancels : first.Possible config tools toposort (.cancel jobId) := trivial
  have soundLater := runs.sound sorts (sound.apply sorts cancels)
  have start := soundLater.restart sorts leaves
  have present : own jobId journal ≠ [] := by
    intro empty
    obtain ⟨_, _, _, sync⟩ := sound.synced jobId before known
    rw [empty] at written
    exact sync.legal.ne_nil (List.prefix_nil.mp written)
  obtain ⟨_, _, _, h, _, _, _, _, _, rebuilt, _⟩ := soundLater.rebuilt sorts leaves present
  have there := restart_of_rebuilt rebuilt
  obtain ⟨after, same, moves⟩ := resumes.moves (fun _ _ alive => alive) sorts start there
  rw [found] at same
  cases same
  have engine := (resumes.sound sorts start).engines jobId run found
  rcases soundLater.concluded sorts leaves concluded there with finished | stuck
  · exact (engine.empty_of_finished (finished_moves moves finished)).1
  · refine List.eq_nil_iff_forall_not_mem.mpr ?_
    intro dispatch member
    exact (stuck.moves moves).not_running _ (engine.dispatched dispatch member).1

end Cluster

/-- The operator cancels the sample job while its first task runs. -/
def signalled : Cluster := started.apply sampleConfig sampleReader DiGraph.sort (.cancel ⟨1⟩)

/-- The queued work is purged, and `cancel` returns. -/
def revoked : Cluster := signalled.apply sampleConfig sampleReader DiGraph.sort (.purge ⟨1⟩)

/-- All that the sample job has written so far. -/
def Cluster.written (c : Cluster) : List JournalRecord := (c.jobs.get? ⟨1⟩).elim [] (fun run => run.handle.journal)

/-- A new process takes the sample job over and runs it. -/
def Cluster.revived (c : Cluster) : Cluster :=
  (Cluster.restart DiGraph.sort c.written).drive ⟨1⟩ [21, 22, 23, 24, 25, 26, 27, 28]

theorem leaves_written {c : Cluster} (sound : c.Sound) : c.Leaves c.written := by
  unfold Cluster.written
  cases found : c.jobs.get? ⟨1⟩ with
  | none =>
    intro other
    cases c.jobs.get? other with
    | none => rfl
    | some run => exact List.nil_prefix
  | some run =>
    have leaves := sound.leaves_take found run.handle.journal.length
    rw [List.take_length] at leaves
    exact leaves

theorem own_written {c : Cluster} (sound : c.Sound) : own ⟨1⟩ c.written = c.written := by
  unfold Cluster.written
  cases found : c.jobs.get? ⟨1⟩ with
  | none => rfl
  | some run =>
    obtain ⟨job, tasks, id, sync⟩ := sound.synced _ run found
    rw [← id]
    exact sync.own_journal

theorem alive_engine (c : Cluster) (now : Nat) : c.Alive (.engine ⟨1⟩ (plainInput now)) := fun _ same => by cases same

/-- A cancellation leaves nothing in the journal. -/
theorem signalled_get? {earlier : JobRun} (known : started.jobs.get? ⟨1⟩ = some earlier) :
    ∃ run, signalled.jobs.get? ⟨1⟩ = some run ∧ run.handle.journal = earlier.handle.journal := by
  simp only [signalled, Cluster.apply, Cluster.act, known]
  exact ⟨_, Dict.get?_insert_self, rfl⟩

theorem alive_purge {first c : Cluster}
    (runs : Cluster.Redelivers sampleConfig sampleReader DiGraph.sort Cluster.Alive first c)
    (cancelled : ∀ run, c.jobs.get? ⟨1⟩ = some run → run.handle.control = .cancelled) :
    Cluster.Redelivers sampleConfig sampleReader DiGraph.sort Cluster.Alive first
      (c.apply sampleConfig sampleReader DiGraph.sort (.purge ⟨1⟩)) :=
  .next runs cancelled (fun _ same => by cases same)

/-- The engine of the cancelled job gets to its end. -/
def withdrawn : Cluster := revoked.drive ⟨1⟩ [9, 10, 11]

/-- A job that is cancelled runs again in the next lifetime if its end is not written. -/
theorem revoked_checked : (started.jobs.get? ⟨1⟩).any (fun run => !run.handle.job.status.isFinished) = true ∧
    (signalled.jobs.get? ⟨1⟩).all (fun run => run.handle.control == .cancelled) = true ∧
    (revoked.revived.jobs.get? ⟨1⟩).any (fun run =>
      run.pc.dispatches.map (fun dispatch => dispatch.task.id) == [⟨10⟩]) = true ∧
    (withdrawn.revived.jobs.get? ⟨1⟩).isSome = true ∧
    (lastStatus (own ⟨1⟩ withdrawn.written)).any JobStatus.isFinished = true := by decide +kernel

/-- The sample job up to the cancellation, and from there to its return. -/
theorem revoked_runs : Cluster.Redelivers sampleConfig sampleReader DiGraph.sort (fun _ _ => True) .new started ∧
    Cluster.Redelivers sampleConfig sampleReader DiGraph.sort Cluster.Alive signalled revoked := by
  have cancelled := revoked_checked.2.1
  refine ⟨(runs_started _ trivial (fun _ _ => trivial)).redelivers, alive_purge .start ?_⟩
  intro run found
  rw [found, Option.all_some] at cancelled
  exact beq_iff_eq.mp cancelled

theorem sound_revoked : revoked.Sound := by
  obtain ⟨history, runs⟩ := revoked_runs
  have sound := history.sound Cluster.sample_sorts Cluster.sound_new
  have cancels : started.Possible sampleConfig sampleReader DiGraph.sort (.cancel ⟨1⟩) := trivial
  exact runs.sound Cluster.sample_sorts (sound.apply Cluster.sample_sorts cancels)

theorem redelivers_revived (c : Cluster) : Cluster.Redelivers sampleConfig sampleReader DiGraph.sort Cluster.Alive
    (.restart DiGraph.sort c.written) c.revived := redelivers_drive .start ⟨1⟩ _ alive_engine

/-- The job is cancelled, the process dies, and the next one starts the task again. -/
theorem cancel_forgotten : ∃ before run, started.jobs.get? ⟨1⟩ = some before ∧
    before.handle.job.status.isFinished = false ∧
    Cluster.Redelivers sampleConfig sampleReader DiGraph.sort Cluster.Alive signalled revoked ∧
    revoked.Leaves revoked.written ∧ revoked.written = before.handle.journal ∧
    Cluster.Redelivers sampleConfig sampleReader DiGraph.sort Cluster.Alive
      (.restart DiGraph.sort revoked.written) revoked.revived ∧
    revoked.revived.jobs.get? ⟨1⟩ = some run ∧ run.pc.dispatches.map (fun dispatch => dispatch.task.id) = [⟨10⟩] := by
  obtain ⟨before, _, after, _⟩ := revoked_checked
  obtain ⟨earlier, known, unfinished⟩ := (Option.any_eq_true _ _).mp before
  obtain ⟨run, found, again⟩ := (Option.any_eq_true _ _).mp after
  obtain ⟨signal, there, journal⟩ := signalled_get? known
  have same : revoked.written = earlier.handle.journal := by
    have kept : revoked.jobs.get? ⟨1⟩ = some signal := there
    simp only [Cluster.written, kept, Option.elim_some]
    exact journal
  exact ⟨earlier, run, known, by simpa using unfinished, revoked_runs.2, leaves_written sound_revoked, same,
    redelivers_revived revoked, found, beq_iff_eq.mp again⟩

/-- The engine of the cancelled job gets to its end before the process dies: the next one leaves the job alone. -/
theorem cancel_durable_concluded : ∃ run, withdrawn.revived.jobs.get? ⟨1⟩ = some run ∧
    run.pc.dispatches = [] := by
  obtain ⟨before, _, _, after, final⟩ := revoked_checked
  obtain ⟨earlier, known, _⟩ := (Option.any_eq_true _ _).mp before
  obtain ⟨run, found⟩ := Option.isSome_iff_exists.mp after
  have runs : Cluster.Redelivers sampleConfig sampleReader DiGraph.sort Cluster.Alive signalled withdrawn :=
    redelivers_drive revoked_runs.2 ⟨1⟩ [9, 10, 11] alive_engine
  -- from here on only what is known of the run matters, not its steps
  generalize withdrawn = ended at runs found final ⊢
  have start := revoked_runs.1.sound Cluster.sample_sorts Cluster.sound_new
  have cancels : started.Possible sampleConfig sampleReader DiGraph.sort (.cancel ⟨1⟩) := trivial
  have sound := runs.sound Cluster.sample_sorts (start.apply Cluster.sample_sorts cancels)
  have goesOn : ∃ after, ended.jobs.get? ⟨1⟩ = some after ∧
      earlier.handle.journal <+: after.handle.journal := by
    obtain ⟨signal, here, journal⟩ := signalled_get? known
    obtain ⟨after, there, moves⟩ := runs.moves (fun _ _ alive => alive) Cluster.sample_sorts
      (start.apply Cluster.sample_sorts cancels) here
    exact ⟨after, there, journal ▸ (moves_extends moves).journal⟩
  obtain ⟨after, there, grown⟩ := goesOn
  have written : earlier.handle.journal <+: own ⟨1⟩ ended.written := by
    rw [own_written sound]
    simp only [Cluster.written, there, Option.elim_some]
    exact grown
  obtain ⟨status, last, finished⟩ := (Option.any_eq_true _ _).mp final
  exact ⟨run, found, Cluster.Redelivers.cancel_durable Cluster.sample_sorts revoked_runs.1 known runs
    (leaves_written sound) written (Or.inl ⟨status, last, finished⟩) (redelivers_revived _) found⟩

end Swarm
