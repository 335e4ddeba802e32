import Swarm.Coordinator.Resume

namespace Swarm
open Recovery

/-- The states that `isPromoted` is about. -/
theorem TaskState.isPromoted_iff {state : TaskState} : state.isPromoted = true ↔
    state ∈ [.queued, .leased, .running, .failed, .timedOut, .retryScheduled, .completed, .deadLettered] := by
  cases state <;> decide

namespace Cluster

/-- A task is delivered once more, under whatever key and count of attempts the entry has. -/
def redeliver (c : Cluster) (entry : QueuedTask) : Cluster :=
  { c with shared := { c.shared with queue := c.shared.queue.enqueue entry } }

/-- The runs in which the broker may also deliver any task of a job once more, at any time. -/
inductive Redelivers (config : CoordinatorConfig) (tools : TextTools)
    (toposort : DiGraph TaskId → Except Nat (List Nat)) (kind : Cluster → Event → Prop)
    (first : Cluster) : Cluster → Prop
  | start : Redelivers config tools toposort kind first first
  | next {c : Cluster} {event : Event} : Redelivers config tools toposort kind first c →
      c.Possible config tools toposort event → kind c event →
      Redelivers config tools toposort kind first (c.apply config tools toposort event)
  | redeliver {c : Cluster} {entry : QueuedTask} : Redelivers config tools toposort kind first c → c.Genuine entry →
      Redelivers config tools toposort kind first (c.redeliver entry)

section
variable {config : CoordinatorConfig} {tools : TextTools} {toposort : DiGraph TaskId → Except Nat (List Nat)}
  {kind : Cluster → Event → Prop} {first c : Cluster}

theorem Runs.redelivers (runs : Runs config tools toposort kind first c) :
    Redelivers config tools toposort kind first c := by
  induction runs with
  | start => exact .start
  | next _ possible allowed ih => exact .next ih possible allowed

theorem Sound.redeliver (sound : c.Sound) {entry : QueuedTask} (genuine : c.Genuine entry) :
    (c.redeliver entry).Sound :=
  ⟨sound.engines, sound.synced, sound.apart, sound.queue.enqueue genuine⟩

theorem Redelivers.sound (sorts : Sorts toposort) (start : first.Sound)
    (runs : Redelivers config tools toposort kind first c) : c.Sound := by
  induction runs with
  | start => exact start
  | next _ possible _ ih => exact ih.apply sorts possible
  | redeliver _ genuine ih => exact ih.redeliver genuine

/-- A task gets past its dependencies only once they are complete: in every state
that a run reaches, and after every record of the journal on the way there. -/
theorem Redelivers.dependency_order (sorts : Sorts toposort)
    (runs : Redelivers config tools toposort (fun _ _ => True) new c) {jobId : JobId} {run : JobRun}
    (found : c.jobs.get? jobId = some run) :
    (∀ task node, run.handle.graph.get task = some node →
      node.state ∈ [.queued, .leased, .running, .failed, .timedOut, .retryScheduled, .completed, .deadLettered] →
        ∀ dependency ∈ node.dependencies, run.handle.graph.stateOf dependency = some .completed) ∧
      ∀ journal, journal <+: run.handle.journal → ∀ task node state, run.handle.graph.get task = some node →
        lastState journal task = some state →
        state ∈ [.queued, .leased, .running, .failed, .timedOut, .retryScheduled, .completed, .deadLettered] →
          ∀ dependency ∈ node.dependencies, lastState journal dependency = some .completed := by
  obtain ⟨job, tasks, _, sync⟩ := (runs.sound sorts sound_new).synced jobId run found
  refine ⟨?_, ?_⟩
  · intro task node known promoted
    exact sync.promoted task node known (TaskState.isPromoted_iff.mpr promoted)
  · intro journal front task node state known last promoted
    have present : journal ≠ [] := by
      rintro rfl
      cases last
    obtain ⟨plan, ordered, order⟩ := sync.plan.ordered
    have distinct : (planIds tasks).Nodup := (order.map TaskNode.id).nodup_iff.mpr ordered.nodup
    obtain ⟨planned, member, rfl, dependencies, _⟩ := sync.planned known
    rw [← dependencies]
    exact (sync.legal.cut front present).dependencies_completed distinct member last
      (TaskState.isPromoted_iff.mpr promoted)

end

end Cluster

/-- The second task of the sample, for a delivery that comes before its time. -/
def secondTask : Option TaskNode := (completed.jobs.get? ⟨1⟩).bind (fun run => run.handle.graph.get ⟨11⟩)

def early (node : TaskNode) : QueuedTask :=
  { QueuedTask.fromTask node .normal 60000 10 with idempotencyKey := "again" }

/-- The sample job goes on after the delivery and runs its second task. -/
def overtaken : Cluster :=
  (secondTask.elim completed (fun node => completed.redeliver (early node))).drive ⟨1⟩ [11, 12, 13,
    14, 15, 16, 17, 18]

theorem redelivers_drive {first c : Cluster} {kind : Cluster → Event → Prop}
    (runs : Cluster.Redelivers sampleConfig sampleReader DiGraph.sort kind first c) (jobId : JobId) (times : List Nat)
    (allowed : ∀ c now, kind c (.engine jobId (plainInput now))) :
    Cluster.Redelivers sampleConfig sampleReader DiGraph.sort kind first (c.drive jobId times) := by
  induction times generalizing c with
  | nil => exact runs
  | cons now rest ih =>
    have step : Cluster.Redelivers sampleConfig sampleReader DiGraph.sort kind first
        (c.apply sampleConfig sampleReader DiGraph.sort (.engine jobId (plainInput now))) :=
      .next runs (fun _ _ _ _ _ answered => by cases answered) (allowed c now)
    exact ih step

theorem redelivers_overtaken {kind : Cluster → Event → Prop}
    (submits : kind .new (.submit sampleSubmission (Cluster.planned sampleSubmission)))
    (steps : ∀ c input, kind c (.engine ⟨1⟩ input)) :
    Cluster.Redelivers sampleConfig sampleReader DiGraph.sort kind .new overtaken := by
  have sound := Cluster.Runs.sound Cluster.sample_sorts Cluster.sound_new reach_completed
  have before := (runs_completed submits steps).redelivers
  refine redelivers_drive ?_ ⟨1⟩ _ (fun c now => steps c _)
  unfold secondTask
  cases found : completed.jobs.get? ⟨1⟩ with
  | none =>
    rw [Option.bind_none, Option.elim_none]
    exact before
  | some run =>
    rw [Option.bind_some]
    cases known : run.handle.graph.get ⟨11⟩ with
    | none =>
      rw [Option.elim_none]
      exact before
    | some node =>
      rw [Option.elim_some]
      obtain ⟨job, tasks, id, sync⟩ := sound.synced _ run found
      obtain ⟨nodeId, nodeJob⟩ := sync.node_own known
      refine .redeliver before ⟨rfl, run, ?_, ?_⟩
      · change completed.jobs.get? node.jobId = some run
        rw [nodeJob, id]
        exact found
      · change (run.handle.graph.get node.id).isSome = true
        rw [nodeId, known]
        rfl

/-- A task runs although it was delivered before its dependency was complete, and only after it. -/
theorem dependency_order_overtaken : ∃ run node, overtaken.jobs.get? ⟨1⟩ = some run ∧
    run.handle.graph.get ⟨11⟩ = some node ∧ node.state = .running ∧
    ∀ dependency ∈ node.dependencies, run.handle.graph.stateOf dependency = some .completed := by
  have runs : (overtaken.jobs.get? ⟨1⟩).any (fun run =>
      (run.handle.graph.get ⟨11⟩).any (fun node => node.state == .running)) = true := by decide +kernel
  obtain ⟨run, found, here⟩ := (Option.any_eq_true _ _).mp runs
  obtain ⟨node, known, running⟩ := (Option.any_eq_true _ _).mp here
  have state := beq_iff_eq.mp running
  have order := (Cluster.Redelivers.dependency_order Cluster.sample_sorts
    (redelivers_overtaken trivial (fun _ _ => trivial)) found).1
  exact ⟨run, node, found, known, state, order ⟨11⟩ node known (by rw [state]; decide)⟩

end Swarm
