import Swarm.Coordinator.Cleanup
import Swarm.Coordinator.Teardown

namespace Swarm
open Recovery JobHandle

/-- Every task of the job is over. -/
def JobHandle.AllOver (h : JobHandle) : Prop :=
  ∀ task state, h.graph.stateOf task = some state → state.isTerminal = true

/-- The queue has no ready entry and no lease of the job. -/
def InMemoryQueue.Lacks (q : InMemoryQueue) (jobId : JobId) : Prop := q.Carries (fun entry => entry.jobId ≠ jobId)

theorem lacks_stable (jobId : JobId) : QueuedTask.Stable (fun entry => entry.jobId ≠ jobId) :=
  fun _ _ _ other => other

namespace Engine
open Act
variable {config : CoordinatorConfig} {toposort : DiGraph TaskId → Except Nat (List Nat)} {input : EngineInput}
  {run : JobRun} {shared : Shared} {h : JobHandle}

/-- At the top of a tick no task changes. -/
theorem stepTop_graph : (stepTop config input run).handle.graph = run.handle.graph := by
  unfold stepTop
  simp only
  split
  · rfl
  · split
    · rfl
    · split
      · rfl
      · have paused : Ensures (do
            setStatus .paused (some "operator paused") input.now
            pure Pc.waiting) run.handle (fun _ h' => h'.graph = run.handle.graph)
            (fun _ h' => h'.graph = run.handle.graph) := by
          rw [ensures_bind]
          exact setStatus_ensures (fun _ => rfl) (fun _ => rfl)
        rcases exec_cases { run with ticks := run.ticks + 1, paused := true } paused with
          ⟨_, _, ran, graph⟩ | ⟨_, _, ran, graph⟩ <;> rw [ran] <;> exact graph
    · have begun : Ensures (beginTick run.paused input.now) run.handle (fun _ h' => h'.graph = run.handle.graph)
          (fun _ h' => h'.graph = run.handle.graph) := by
        unfold beginTick
        split
        · rw [ensures_bind]
          refine setStatus_ensures (fun _ => ?_) (fun _ => rfl)
          exact planTick_relabels.mono (fun _ _ same => same.1.graph) (fun _ _ never => never)
        · exact planTick_relabels.mono (fun _ _ same => same.1.graph) (fun _ _ never => never)
      rcases exec_cases { run with ticks := run.ticks + 1, paused := false } begun with
        ⟨_, _, ran, graph⟩ | ⟨_, _, ran, graph⟩ <;> rw [ran] <;> exact graph

theorem conclude_journal {status : JobStatus} :
    Ensures (conclude status input) h (fun _ h' => h.journal <+: h'.journal)
      (fun _ h' => h.journal <+: h'.journal) := by
  simp only [conclude, ensures_bind, ensures_get]
  refine setStatus_ensures (fun _ => ?_) (fun _ => List.prefix_refl _)
  simp only [emit, ensures_modify, ensures_pure]
  exact (List.prefix_append _ _).trans (List.prefix_append _ _)

/-- A run that is not cancelled aggregates before it ends. -/
theorem finish_aggregates {spawned : Nat} : Ensures (finish false spawned input) h
    (fun _ h' => .jobStatusChanged h.job.id .aggregating none input.now ∈ h'.journal) (fun _ _ => True) := by
  simp only [finish, ensures_bind, ensures_get, ensures_modify, Bool.not_false, if_true]
  refine setStatus_ensures (fun _ => ?_) (fun _ => trivial)
  refine conclude_journal.mono ?_ (fun _ _ _ => trivial)
  intro _ h' longer
  exact longer.subset (List.mem_append_right _ (List.mem_singleton_self _))

/-- The end of a run that is not cancelled. -/
theorem step_concluding (config : CoordinatorConfig) (toposort : DiGraph TaskId → Except Nat (List Nat))
    (running : run.handle.job.status = .running) (here : run.pc = .finishing false) (input : EngineInput)
    (shared : Shared) :
    (∃ result, (step config toposort input run shared).1.pc = .returned (.ok result)) ∧
      (step config toposort input run shared).1.handle.graph = run.handle.graph ∧
      .jobStatusChanged run.handle.job.id .aggregating none
        input.now ∈ (step config toposort input run shared).1.handle.journal ∧
      (step config toposort input run shared).2.queue = shared.queue := by
  have fits : (Pc.finishing false).Suits run.paused run.handle.job.status := running
  have finishes : Succeeds (finish false run.spawned input) run.handle _ := finish_succeeds fits
  obtain ⟨pc, h, done, ⟨result, answered, _, _⟩, graph, _⟩ := finishes.ok
  have aggregates : Ensures (finish false run.spawned input) run.handle _ _ := finish_aggregates
  unfold Ensures at aggregates
  rw [done] at aggregates
  simp only [step, here, done]
  exact ⟨⟨result, answered⟩, graph, aggregates, trivial⟩

end Engine

namespace Cluster
variable {config : CoordinatorConfig} {tools : TextTools} {toposort : DiGraph TaskId → Except Nat (List Nat)}

/-- What is done for other jobs brings nothing of a job into the queue. -/
theorem lacks_apply {c : Cluster} {jobId : JobId} {event : Event} (sound : c.Sound)
    (possible : c.Possible config tools toposort event) (elsewhere : c.Elsewhere jobId event)
    (lacks : c.shared.queue.Lacks jobId) : (c.apply config tools toposort event).shared.queue.Lacks jobId := by
  obtain ⟨alive, elsewhere⟩ := elsewhere
  have acted : ∀ other work, (c.act other work).shared = c.shared := by
    intro other work
    unfold act
    split
    · rfl
    · split <;> rfl
  cases event with
  | submit submission nodes =>
    simp only [Cluster.apply, submit]
    split <;> exact lacks
  | engine other input =>
    simp only [Cluster.apply, engine]
    cases found : c.jobs.get? other with
    | none => exact lacks
    | some run =>
      have different : other ≠ jobId := fun same => elsewhere input (by rw [same])
      have stepped := sound.stepped found possible
      obtain ⟨job, tasks, id, sync⟩ := sound.synced other run found
      have sync' := sync.moves stepped.moves
      refine stepped.queue.carries (lacks_stable jobId) lacks ?_
      intro task node _ _ present
      obtain ⟨_, nodeJob⟩ := sync'.node_own present
      change node.jobId ≠ jobId
      rw [nodeJob, id]
      exact different
  | pause other => rw [Cluster.apply, acted]; exact lacks
  | resume other => rw [Cluster.apply, acted]; exact lacks
  | cancel other => rw [Cluster.apply, acted]; exact lacks
  | purge other => exact lacks.purgeJob other
  | rehash other nodes => rw [Cluster.apply, acted]; exact lacks
  | rehashLeases leases =>
    exact ⟨lacks.ready,
      fun leaseId lease found => lacks.leases leaseId lease ((Dict.Rehash.get? possible leaseId).trans found)⟩
  | restart journal => exact absurd rfl (alive journal)

theorem Runs.lacks (sorts : Sorts toposort) {first c : Cluster} (start : first.Sound) {jobId : JobId}
    (runs : Runs config tools toposort (Elsewhere jobId) first c) (lacks : first.shared.queue.Lacks jobId) :
    c.shared.queue.Lacks jobId := by
  induction runs with
  | start => exact lacks
  | next runs possible allowed ih => exact lacks_apply (runs.sound sorts start) possible allowed ih

/-- A run whose deadline has passed aggregates, whatever happens in between. No task is left
unfinished then and nothing of the job is left in the queue at its end exactly when that was so at the
tick that found the deadline past. -/
theorem Redelivers.expiry_iff (sorts : Sorts toposort) {first c : Cluster} (boots : Boots config tools toposort first)
    (runs : Redelivers config tools toposort Alive first c) {jobId : JobId} {run : JobRun}
    (found : c.jobs.get? jobId = some run) (atTop : run.pc = .top) {input : EngineInput}
    (expires : (Engine.step config toposort input run c.shared).1.pc = .finishing false) :
    (∀ later, Runs config tools toposort (Elsewhere jobId) (c.engine config toposort jobId input) later → ∀ last,
      ∃ run' result, (later.engine config toposort jobId last).jobs.get? jobId = some run' ∧
        run'.pc = .returned (.ok result) ∧ .jobStatusChanged jobId .aggregating none last.now ∈ run'.handle.journal) ∧
    ((∀ later, Runs config tools toposort (Elsewhere jobId) (c.engine config toposort jobId input) later → ∀ last,
      (∀ run', later.jobs.get? jobId = some run' → run'.handle.AllOver) ∧
        (later.engine config toposort jobId last).shared.queue.Lacks jobId) ↔
      run.handle.AllOver ∧ c.shared.queue.Lacks jobId) := by
  have start := boots.sound sorts
  have sound := runs.sound sorts start
  have lawful := runs.lawful sorts boots found
  have possible : c.Possible config tools toposort (.engine jobId input) :=
    possible_outside found (by rw [atTop]; simp) input
  obtain ⟨there, shared⟩ := engine_insert config toposort found input
  have lawful' : (Engine.step config toposort input run c.shared).1.Lawful :=
    (sound.proceeds found lawful input).lawful
  have graph : (Engine.step config toposort input run c.shared).1.handle.graph = run.handle.graph := by
    simp only [Engine.step, atTop]
    exact Engine.stepTop_graph
  have queue : (Engine.step config toposort input run c.shared).2.queue = c.shared.queue := by
    simp only [Engine.step, atTop]
  have sound' := sound.engine possible
  obtain ⟨job, tasks, id, sync⟩ := sound'.synced jobId _ there
  generalize Engine.step config toposort input run c.shared = stepped at *
  obtain ⟨run₁, shared₁⟩ := stepped
  have running : run₁.handle.job.status = .running := by
    have suits := lawful'.suits
    rwa [expires] at suits
  have ends : ∀ later, Runs config tools toposort (Elsewhere jobId) (c.engine config toposort jobId input) later →
      ∀ last,
      ∃ h, later.jobs.get? jobId = some { run₁ with handle := h } ∧ Moves run₁.handle h ∧ ∃ run',
        (later.engine config toposort jobId last).jobs.get? jobId = some run' ∧
        (∃ result, run'.pc = .returned (.ok result)) ∧
          .jobStatusChanged jobId .aggregating none last.now ∈ run'.handle.journal ∧
        (later.engine config toposort jobId last).shared.queue = later.shared.queue := by
    intro later runs' last
    obtain ⟨h, present, moves, same⟩ := runs'.redelivers.stays sorts sound' there
    obtain ⟨inserted, shared'⟩ := engine_insert config toposort present last
    let before : JobRun := { run₁ with handle := h }
    have going : before.handle.job.status = .running := by
      change h.job.status = .running
      rw [same, running]
    obtain ⟨result, _, aggregates, queue'⟩ := Engine.step_concluding config toposort going expires last later.shared
    refine ⟨h, present, moves, _, inserted, result, ?_, by rw [shared', queue']⟩
    have own : before.handle.job.id = jobId := by
      change h.job.id = jobId
      rw [same, sync.id, id]
    rwa [own] at aggregates
  refine ⟨?_, ?_, ?_⟩
  · intro later runs' last
    obtain ⟨_, _, _, run', inserted, ⟨result, answered⟩, aggregates, _⟩ := ends later runs' last
    exact ⟨run', result, inserted, answered, aggregates⟩
  · intro settles
    obtain ⟨ended, lacks⟩ := settles _ .start input
    obtain ⟨_, _, _, _, _, _, _, kept⟩ := ends _ .start input
    refine ⟨?_, ?_⟩
    · have ended' := ended _ there
      unfold JobHandle.AllOver at ended'
      rwa [graph] at ended'
    · rwa [kept, shared, queue] at lacks
  · rintro ⟨ended, lacks⟩ later runs' last
    obtain ⟨h, present, moves, _, _, _, _, kept⟩ := ends later runs' last
    refine ⟨?_, ?_⟩
    · intro run' found'
      rw [present] at found'
      cases found'
      have torn : TornDown run.handle run₁.handle :=
        ⟨fun _ => by rw [graph], fun task state found => ended task state (graph ▸ found),
          fun _ found => graph ▸ found⟩
      exact (torn.trans moves).ended
    · rw [kept]
      exact runs'.lacks sorts sound' (by rw [shared, queue]; exact lacks)

end Cluster

/-- The loop is over, and the job was not cancelled. -/
def Pc.isLeaving : Pc → Bool
  | .finishing false => true
  | _ => false

def Pc.hasResult : Pc → Bool
  | .returned (.ok _) => true
  | _ => false

theorem Pc.isLeaving_iff {pc : Pc} : pc.isLeaving = true ↔ pc = .finishing false := by
  cases pc with
  | finishing cancelled => cases cancelled <;> simp [isLeaving]
  | _ => simp [isLeaving]

theorem Pc.hasResult_iff {pc : Pc} : pc.hasResult = true ↔ ∃ result, pc = .returned (.ok result) := by
  cases pc with
  | returned answer => cases answer <;> simp [hasResult]
  | _ => simp [hasResult]

/-- The sample job with a deadline that passes during its first attempt. -/
def pressedSubmission : Submission :=
  { sampleSubmission with request := { sampleSubmission.request with deadline := some 10 } }

def pressed : Cluster := (Cluster.submitted .new pressedSubmission).drive ⟨1⟩ [1, 2, 3, 4, 5, 6, 7, 8]

/-- The attempt was not answered in time, and the engine is back at the top of its loop. -/
def outOfTime : Cluster := (pressed.engine sampleConfig DiGraph.sort ⟨1⟩ (lateInput pressed ⟨1⟩ 9)).drive ⟨1⟩ [10, 11]

theorem runs_outOfTime (kind : Cluster → Event → Prop)
    (submits : kind .new (.submit pressedSubmission (Cluster.planned pressedSubmission)))
    (steps : ∀ c input, kind c (.engine ⟨1⟩ input)) :
    Cluster.Runs sampleConfig sampleReader DiGraph.sort kind .new outOfTime := by
  refine Cluster.reach_drive ?_ ⟨1⟩ [10, 11] (fun c now => steps c _)
  have before : Cluster.Runs sampleConfig sampleReader DiGraph.sort kind .new pressed :=
    Cluster.reach_drive (Cluster.runs_submitted .start rfl (fun _ _ _ found => (by cases found)) submits) ⟨1⟩ _
      (fun c now => steps c _)
  exact .next before (possible_late 9) (steps _ _)

/-- The retry of the first task stays in the queue, and the job aggregates without either of its tasks. -/
theorem aggregates_unfinished : Cluster.Reach sampleConfig sampleReader DiGraph.sort (outOfTime.drive ⟨1⟩ [12, 13]) ∧
    (∃ run, outOfTime.jobs.get? ⟨1⟩ = some run ∧ run.pc = .top ∧ run.handle.job.isPastDeadline 12 = true) ∧
    ∃ run result entry, (outOfTime.drive ⟨1⟩ [12, 13]).jobs.get? ⟨1⟩ = some run ∧ run.pc = .returned (.ok result) ∧
      .aggregating ∈ statusesOf run.handle.journal ∧ run.handle.graph.stateOf ⟨10⟩ = some .retryScheduled ∧
      run.handle.graph.stateOf ⟨11⟩ = some .created ∧
      entry ∈ (outOfTime.drive ⟨1⟩ [12, 13]).shared.queue.ready ∧ entry.jobId = ⟨1⟩ := by
  refine ⟨Cluster.reach_drive (runs_outOfTime _ trivial (fun _ _ => trivial)) ⟨1⟩ _ (fun _ _ => trivial), ?_⟩
  have checked : (outOfTime.jobs.get? ⟨1⟩).any (fun run => run.pc.isTop &&
        run.handle.job.isPastDeadline 12) = true ∧
      ((outOfTime.drive ⟨1⟩ [12, 13]).jobs.get? ⟨1⟩).any (fun run => run.pc.hasResult &&
        decide (.aggregating ∈ statusesOf run.handle.journal) &&
          run.handle.graph.stateOf ⟨10⟩ == some .retryScheduled &&
        run.handle.graph.stateOf ⟨11⟩ == some .created) = true ∧
      (outOfTime.drive ⟨1⟩ [12, 13]).shared.queue.ready.any (fun entry => entry.jobId == ⟨1⟩) = true := by
        decide +kernel
  obtain ⟨before, after, left⟩ := checked
  obtain ⟨run, found, here⟩ := (Option.any_eq_true _ _).mp before
  obtain ⟨run', found', there⟩ := (Option.any_eq_true _ _).mp after
  obtain ⟨entry, member, own⟩ := List.any_eq_true.mp left
  simp only [Bool.and_eq_true, decide_eq_true_eq, beq_iff_eq] at here there own
  obtain ⟨⟨⟨returned, aggregates⟩, first⟩, second⟩ := there
  obtain ⟨result, answered⟩ := Pc.hasResult_iff.mp returned
  exact ⟨⟨run, found, Pc.isTop_iff.mp here.1, here.2⟩,
    run', result, entry, found', answered, aggregates, first, second, member, own⟩

theorem expiry_iff_outOfTime : ¬ ∀ later, Cluster.Runs sampleConfig sampleReader DiGraph.sort (Cluster.Elsewhere ⟨1⟩)
    (outOfTime.engine sampleConfig DiGraph.sort ⟨1⟩ (plainInput 12)) later → ∀ last,
      (∀ run, later.jobs.get? ⟨1⟩ = some run → run.handle.AllOver) ∧
        (later.engine sampleConfig DiGraph.sort ⟨1⟩ last).shared.queue.Lacks ⟨1⟩ := by
  have checked : (outOfTime.jobs.get? ⟨1⟩).any (fun run => run.pc.isTop &&
      (Engine.step sampleConfig DiGraph.sort (plainInput 12) run outOfTime.shared).1.pc.isLeaving) = true ∧
      outOfTime.shared.queue.ready.any (fun entry => entry.jobId == ⟨1⟩) = true := by decide +kernel
  have alive : ∀ c input, Cluster.Alive c (.engine ⟨1⟩ input) := fun _ _ _ same => by cases same
  have runs := (runs_outOfTime Cluster.Alive (fun _ same => by cases same) alive).redelivers
  obtain ⟨here, left⟩ := checked
  obtain ⟨run, found, there⟩ := (Option.any_eq_true _ _).mp here
  obtain ⟨entry, member, own⟩ := List.any_eq_true.mp left
  simp only [Bool.and_eq_true] at there
  obtain ⟨top, finishes⟩ := there
  have expires := Pc.isLeaving_iff.mp finishes
  rw [(Cluster.Redelivers.expiry_iff Cluster.sample_sorts .new runs found (Pc.isTop_iff.mp top) expires).2]
  rintro ⟨_, lacks⟩
  exact lacks.ready entry member (beq_iff_eq.mp own)

end Swarm
