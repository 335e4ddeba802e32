import Swarm.Coordinator.Audit

namespace Swarm
open Recovery JobHandle

/-- No move takes a task out of a terminal state. -/
theorem moves_terminal {h h' : JobHandle} (moves : Moves h h') {task : TaskId} {state : TaskState}
    (found : h.graph.stateOf task = some state) (terminal : state.isTerminal = true) :
    h'.graph.stateOf task = some state := by
  obtain ⟨records, audited⟩ := moves_audited moves
  have known := audited.known task
  rw [found, Option.isSome_some] at known
  obtain ⟨final, now⟩ := Option.isSome_iff_exists.mp known.symm
  obtain ⟨_, same⟩ := Cluster.TaskWalk.of_terminal (audited.tasks task state final found now) terminal
  rw [now, same]

/-- Every task has been brought to an end, and those that were complete stay so. -/
structure TornDown (h h' : JobHandle) : Prop where
  known : ∀ task, (h'.graph.stateOf task).isSome = (h.graph.stateOf task).isSome
  ended : ∀ task state, h'.graph.stateOf task = some state → state.isTerminal = true
  completed : ∀ task, h.graph.stateOf task = some .completed → h'.graph.stateOf task = some .completed

theorem TornDown.trans {h h' h'' : JobHandle} (torn : TornDown h h') (moves : Moves h' h'') : TornDown h h'' where
  known task := by
    obtain ⟨records, audited⟩ := moves_audited moves
    rw [← audited.known, torn.known]
  ended task state found := by
    obtain ⟨records, audited⟩ := moves_audited moves
    have known := audited.known task
    rw [found, Option.isSome_some] at known
    obtain ⟨before, there⟩ := Option.isSome_iff_exists.mp known
    have terminal := torn.ended task before there
    have same := (moves_terminal moves there terminal).symm.trans found
    rwa [Option.some.inj same] at terminal
  completed task found := moves_terminal moves (torn.completed task found) rfl

/-- Nothing of the job is ready or leased, and what belongs to other jobs is as it was. -/
structure InMemoryQueue.Rid (q q' : InMemoryQueue) (jobId : JobId) : Prop where
  ready : ∀ entry ∈ q'.ready, entry.jobId ≠ jobId
  leases : ∀ leaseId lease, q'.leases.get? leaseId = some lease → lease.task.jobId ≠ jobId
  others : q'.ready = q.ready.filter (fun entry => entry.jobId != jobId)
  otherLeases : ∀ leaseId lease, lease.task.jobId ≠ jobId →
    (q'.leases.get? leaseId = some lease ↔ q.leases.get? leaseId = some lease)
  dead : q'.dead = q.dead

theorem InMemoryQueue.purgeJob_rid (q : InMemoryQueue) (jobId : JobId) : q.Rid (q.purgeJob jobId).2 jobId where
  ready entry member := by simpa using (List.mem_filter.mp member).2
  leases leaseId lease found := by
    simp only [purgeJob, Dict.get?_retain, Option.filter_eq_some_iff] at found
    simpa using found.2
  others := rfl
  otherLeases leaseId lease other := by
    simp only [purgeJob, Dict.get?_retain, Option.filter_eq_some_iff, bne_iff_ne, ne_eq, other,
      not_false_iff, and_true]
  dead := rfl

namespace Engine
variable (config : CoordinatorConfig) (toposort : DiGraph TaskId → Except Nat (List Nat)) {run : JobRun}

/-- The teardown of a cancelled run does not stop halfway. -/
theorem step_cancelling (resting : run.handle.graph.Resting) (navigable : run.handle.graph.Navigable)
    (here : run.pc = .cancelling) (input : EngineInput) (shared : Shared) : ∃ h,
      step config toposort input run shared = ({ run with handle := h, pc := .finishing true },
        { shared with queue := (shared.queue.purgeJob run.handle.job.id).2 }) ∧
      h.job = run.handle.job ∧ ∀ task state, h.graph.stateOf task = some state → state.isTerminal = true := by
  have ends : Act.Succeeds (cancelPending config input.now) run.handle _ := cancelPending_ends resting navigable
  obtain ⟨_, h, done, ends, ended⟩ := ends.ok
  refine ⟨h, ?_, ends.job, ended⟩
  simp only [step, here, done, ends.job]

/-- The end of a cancelled run. -/
theorem step_finishing (suits : run.handle.job.status = .running ∨ run.handle.job.status = .paused)
    (here : run.pc = .finishing true) (input : EngineInput) (shared : Shared) : ∃ result,
      (step config toposort input run shared).1.pc = .returned (.ok result) ∧ result.status = .cancelled ∧
      (step config toposort input run shared).1.handle.finalResult = some result ∧
      (step config toposort input run shared).1.handle.job.status = .cancelled := by
  have fits : (Pc.finishing true).Suits run.paused run.handle.job.status := suits
  have finishes : Act.Succeeds (finish true run.spawned input) run.handle _ := finish_succeeds fits
  obtain ⟨pc, h, done, ⟨result, answered, same, kept⟩, _, status⟩ := finishes.ok
  have cancelled : h.job.status = .cancelled := status
  simp only [step, here, done]
  exact ⟨result, answered, same.trans cancelled, kept, cancelled⟩

end Engine

namespace Cluster
variable {config : CoordinatorConfig} {tools : TextTools} {toposort : DiGraph TaskId → Except Nat (List Nat)}

/-- Anything can happen but a step of the engine of the job. -/
def Elsewhere (jobId : JobId) (c : Cluster) (event : Event) : Prop :=
  c.Alive event ∧ ∀ input, event ≠ .engine jobId input

/-- While its engine does not step, a run stays where it is and its job keeps its status. -/
theorem Redelivers.stays (sorts : Sorts toposort) {first c : Cluster} (start : first.Sound)
    {jobId : JobId} {run : JobRun} (found : first.jobs.get? jobId = some run)
    (runs : Redelivers config tools toposort (Elsewhere jobId) first c) :
    ∃ h, c.jobs.get? jobId = some { run with handle := h } ∧ Moves run.handle h ∧ h.job = run.handle.job := by
  induction runs with
  | start => exact ⟨run.handle, found, .refl, rfl⟩
  | redeliver _ _ ih => exact ih
  | @next c event runs possible allowed ih =>
    obtain ⟨alive, elsewhere⟩ := allowed
    obtain ⟨h, there, moves, job⟩ := ih
    obtain ⟨after, present, more⟩ := (runs.sound sorts start).goes_on possible alive there
    cases apply_job possible alive present with
    | kept known =>
      rw [there] at known
      cases known
      exact ⟨h, present, moves, job⟩
    | submitted absent =>
      rw [there] at absent
      cases absent
    | steered known steers same =>
      rw [there] at known
      cases known
      subst same
      exact ⟨_, present, moves.trans steers.moves, steers.job.trans job⟩
    | engine isEngine _ _ => exact absurd isEngine (elsewhere _)

theorem engine_insert (config : CoordinatorConfig) (toposort : DiGraph TaskId → Except Nat (List Nat)) {c : Cluster}
    {jobId : JobId} {run : JobRun} (found : c.jobs.get? jobId = some run) (input : EngineInput) :
    (c.engine config toposort jobId input).jobs.get? jobId = some (Engine.step config toposort input run c.shared).1 ∧
    (c.engine config toposort jobId input).shared = (Engine.step config toposort input run c.shared).2 := by
  simp only [Cluster.engine, found, Dict.get?_insert_self, and_self]

theorem possible_outside {c : Cluster} {jobId : JobId} {run : JobRun} (found : c.jobs.get? jobId = some run)
    (outside : ∀ dispatches, run.pc ≠ .executing dispatches) (input : EngineInput) :
    c.Possible config tools toposort (.engine jobId input) := by
  intro run' dispatches outcomes present executing
  rw [found] at present
  cases present
  exact absurd executing (outside dispatches)

/-- A cancelled run brings every task of its job to an end and rids the queue of the job; then, whatever happens in
between, it finishes with the job cancelled. -/
theorem Redelivers.teardown (sorts : Sorts toposort) {first c : Cluster} (boots : Boots config tools toposort first)
    (runs : Redelivers config tools toposort Alive first c) {jobId : JobId} {run : JobRun}
    (found : c.jobs.get? jobId = some run) (cancelling : run.pc = .cancelling) (input : EngineInput) :
    ∃ run', (c.engine config toposort jobId input).jobs.get? jobId = some run' ∧ run'.pc = .finishing true ∧
      TornDown run.handle run'.handle ∧
      c.shared.queue.Rid (c.engine config toposort jobId input).shared.queue jobId ∧
      ∀ later, Redelivers config tools toposort (Elsewhere jobId) (c.engine config toposort jobId input) later →
        ∀ last, ∃ run'' result, (later.engine config toposort jobId last).jobs.get? jobId = some run'' ∧
          run''.pc = .returned (.ok result) ∧ result.status = .cancelled ∧ run''.handle.finalResult = some result ∧
          run''.handle.job.status = .cancelled ∧ TornDown run.handle run''.handle := by
  have start := boots.sound sorts
  have sound := runs.sound sorts start
  have lawful := runs.lawful sorts boots found
  have suits : run.handle.job.status = .running ∨ run.handle.job.status = .paused := by
    have suits := lawful.suits
    rwa [cancelling] at suits
  have possible : c.Possible config tools toposort (.engine jobId input) :=
    possible_outside found (by rw [cancelling]; simp) input
  obtain ⟨job, tasks, id, sync⟩ := sound.synced jobId run found
  obtain ⟨h, stepped, same, ended⟩ := Engine.step_cancelling config toposort lawful.resting (sound.navigable found)
    cancelling input c.shared
  have moves := (sound.stepped found possible).moves
  obtain ⟨there, shared⟩ := engine_insert config toposort found input
  rw [stepped] at moves there shared
  have torn : TornDown run.handle h := by
    obtain ⟨records, audited⟩ := moves_audited moves
    exact ⟨fun task => (audited.known task).symm, ended, fun task complete => moves_terminal moves complete rfl⟩
  refine ⟨_, there, rfl, torn, ?_, ?_⟩
  · rw [shared, sync.id, id]
    exact c.shared.queue.purgeJob_rid jobId
  · intro later runs' last
    have sound' := sound.engine possible
    obtain ⟨h', present, moves', job'⟩ := runs'.stays sorts sound' there
    have sound'' := runs'.sound sorts sound'
    have possible' : later.Possible config tools toposort (.engine jobId last) :=
      possible_outside present (by simp) last
    obtain ⟨inserted, _⟩ := engine_insert config toposort present last
    have moves'' := (sound''.stepped present possible').moves
    rw [← same, ← job'] at suits
    let run'' : JobRun := { run with handle := h', pc := .finishing true }
    have here : run''.pc = .finishing true := rfl
    obtain ⟨result, answered, status, kept, cancelled⟩ :=
      Engine.step_finishing config toposort suits here last later.shared
    exact ⟨_, result, inserted, answered, status, kept, cancelled, (torn.trans moves').trans moves''⟩

end Cluster

/-- The sample job is cancelled while its first task is executed. -/
def halted : Cluster := (started.apply sampleConfig sampleReader DiGraph.sort (.cancel ⟨1⟩)).drive ⟨1⟩ [9]

theorem teardown_halted : ∃ run result, (halted.drive ⟨1⟩ [10, 11]).jobs.get? ⟨1⟩ = some run ∧
    run.pc = .returned (.ok result) ∧ result.status = .cancelled ∧
    (∀ task state, run.handle.graph.stateOf task = some state → state.isTerminal = true) ∧
    ∀ leaseId lease, (halted.drive ⟨1⟩ [10]).shared.queue.leases.get? leaseId = some lease →
      lease.task.jobId ≠ ⟨1⟩ := by
  have there : (halted.jobs.get? ⟨1⟩).any (fun run => match run.pc with | .cancelling => true | _ => false) =
      true := by
    decide +kernel
  obtain ⟨run, found, here⟩ := (Option.any_eq_true _ _).mp there
  have cancelling : run.pc = .cancelling := by
    split at here
    · assumption
    · cases here
  have alive : ∀ c input, Cluster.Alive c (.engine ⟨1⟩ input) := fun _ _ _ same => by cases same
  have before := (runs_started Cluster.Alive (fun _ same => by cases same) alive).redelivers
  have signalled : Cluster.Redelivers sampleConfig sampleReader DiGraph.sort Cluster.Alive .new
      (started.apply sampleConfig sampleReader DiGraph.sort (.cancel ⟨1⟩)) :=
    .next before trivial (fun _ same => by cases same)
  have runs : Cluster.Redelivers sampleConfig sampleReader DiGraph.sort Cluster.Alive .new halted :=
    redelivers_drive signalled ⟨1⟩ [9] (fun c now => alive c _)
  clear there
  -- the steps that led here play no part any more
  generalize halted = c at found runs ⊢
  obtain ⟨_, _, _, _, rid, ends⟩ :=
    Cluster.Redelivers.teardown Cluster.sample_sorts .new runs found cancelling (plainInput 10)
  obtain ⟨last, result, present, answered, status, _, _, torn⟩ := ends _ .start (plainInput 11)
  exact ⟨last, result, present, answered, status, torn.ended, rid.leases⟩

end Swarm
