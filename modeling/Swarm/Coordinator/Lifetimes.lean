import Swarm.Coordinator.Redelivery

namespace Swarm
open Recovery

namespace Cluster
variable {config : CoordinatorConfig} {tools : TextTools} {toposort : DiGraph TaskId → Except Nat (List Nat)}

/-- The process goes on. -/
def Alive (_ : Cluster) (event : Event) : Prop := ∀ journal, event ≠ .restart journal

/-- What one event can make of one job while the process goes on. -/
inductive JobStep (config : CoordinatorConfig) (tools : TextTools) (toposort : DiGraph TaskId → Except Nat (List Nat))
    (c : Cluster) (event : Event) (jobId : JobId) (run' : JobRun) : Prop
  | kept : c.jobs.get? jobId = some run' → JobStep config tools toposort c event jobId run'
  | submitted {submission : Submission} {nodes : Dict TaskId TaskNode} {job : Job} {graph : TaskGraph} :
      c.jobs.get? jobId = none → submission.plan config tools toposort = .ok (job, graph) → job.id = jobId →
      graph.nodes.Rehash nodes → run' = .new (.planned job { graph with nodes := nodes }) →
      JobStep config tools toposort c event jobId run'
  | steered {run : JobRun} {h : JobHandle} : c.jobs.get? jobId = some run → Steers run.handle h →
      run' = { run with handle := h } → JobStep config tools toposort c event jobId run'
  | engine {run : JobRun} {input : EngineInput} : event = .engine jobId input → c.jobs.get? jobId = some run →
      run' = (Engine.step config toposort input run c.shared).1 → JobStep config tools toposort c event jobId run'

theorem jobStep_steered {c c' : Cluster} {event : Event} {jobId other : JobId} {run' : JobRun}
    (steered : Steered c c' other) (found : c'.jobs.get? jobId = some run') :
    JobStep config tools toposort c event jobId run' := by
  rcases steered with rfl | ⟨run, h, known, steers, rfl⟩
  · exact .kept found
  · simp only [Dict.get?_insert] at found
    split at found
    · rename_i same
      exact .steered (same ▸ known) steers (Option.some.inj found).symm
    · exact .kept found

theorem apply_job {c : Cluster} {event : Event} (possible : c.Possible config tools toposort event)
    (alive : c.Alive event) {jobId : JobId} {run' : JobRun}
    (found : (c.apply config tools toposort event).jobs.get? jobId = some run') :
    JobStep config tools toposort c event jobId run' := by
  cases event with
  | submit submission nodes =>
    obtain ⟨fresh, _, rehash⟩ := possible
    simp only [apply, submit] at found
    split at found
    · exact .kept found
    · rename_i job graph planned
      simp only [Dict.get?_insert] at found
      split at found
      · rename_i same
        have id := (submission.plan_ok planned).1
        exact .submitted (by rw [same, id]; exact fresh) planned same.symm (rehash job graph planned)
          (Option.some.inj found).symm
      · exact .kept found
  | engine other input =>
    simp only [apply, engine] at found
    cases known : c.jobs.get? other with
    | none =>
      rw [known] at found
      exact .kept found
    | some run =>
      rw [known] at found
      simp only [Dict.get?_insert] at found
      split at found
      · rename_i same
        subst same
        exact .engine rfl known (Option.some.inj found).symm
      · exact .kept found
  | pause other => exact jobStep_steered (apply_steered possible (Or.inl rfl)) found
  | resume other => exact jobStep_steered (apply_steered possible (Or.inr (Or.inl rfl))) found
  | cancel other => exact jobStep_steered (apply_steered possible (Or.inr (Or.inr (Or.inl rfl)))) found
  | purge other => exact .kept found
  | rehash other nodes => exact jobStep_steered (apply_steered possible (Or.inr (Or.inr (Or.inr ⟨nodes, rfl⟩)))) found
  | rehashLeases leases => exact .kept found
  | restart journal => exact absurd rfl (alive journal)

/-- A property of one job that a submission establishes and every step of the given kind keeps. -/
structure Carried (config : CoordinatorConfig) (tools : TextTools) (toposort : DiGraph TaskId → Except Nat (List Nat))
    (kind : Cluster → Event → Prop) (property : JobRun → Prop) : Prop where
  alive : ∀ {c : Cluster} {event : Event}, kind c event → c.Alive event
  submitted : ∀ {submission : Submission} {job : Job} {graph : TaskGraph} {nodes : Dict TaskId TaskNode},
    submission.plan config tools toposort = .ok (job, graph) → graph.nodes.Rehash nodes →
    property (.new (.planned job { graph with nodes := nodes }))
  steered : ∀ {run : JobRun} {h : JobHandle}, run.Sound → Steers run.handle h → property run →
    property { run with handle := h }
  engine : ∀ {c : Cluster} {jobId : JobId} {run : JobRun} {input : EngineInput}, c.Sound →
    c.jobs.get? jobId = some run →
    c.Possible config tools toposort (.engine jobId input) → kind c (.engine jobId input) → property run →
    property (Engine.step config toposort input run c.shared).1

/-- Within one lifetime of the process a carried property holds of a job for good. -/
theorem Redelivers.carried {kind : Cluster → Event → Prop} {property : JobRun → Prop}
    (carried : Carried config tools toposort kind property) (sorts : Sorts toposort) {first c : Cluster}
    (start : first.Sound) {jobId : JobId} (holds : ∀ run, first.jobs.get? jobId = some run → property run)
    (runs : Redelivers config tools toposort kind first c) : ∀ run, c.jobs.get? jobId = some run → property run := by
  induction runs with
  | start => exact holds
  | redeliver _ _ ih => exact ih
  | @next c event runs possible allowed ih =>
    have sound := runs.sound sorts start
    intro run' found
    cases apply_job possible (carried.alive allowed) found with
    | kept known => exact ih run' known
    | submitted _ planned _ rehash same =>
      rw [same]
      exact carried.submitted planned rehash
    | steered known steers same =>
      rw [same]
      exact carried.steered (sound.engines jobId _ known) steers (ih _ known)
    | engine isEngine known same =>
      subst isEngine
      rw [same]
      exact carried.engine sound known possible allowed (ih _ known)

/-- A job that is there when a lifetime begins stays, and only moves. -/
theorem Redelivers.moves {kind : Cluster → Event → Prop} (alive : ∀ c event, kind c event → c.Alive event)
    (sorts : Sorts toposort) {first c : Cluster} (start : first.Sound) {jobId : JobId} {before : JobRun}
    (known : first.jobs.get? jobId = some before) (runs : Redelivers config tools toposort kind first c) :
    ∃ after, c.jobs.get? jobId = some after ∧ Moves before.handle after.handle := by
  induction runs with
  | start => exact ⟨before, known, .refl⟩
  | redeliver _ _ ih => exact ih
  | @next c event runs possible allowed ih =>
    obtain ⟨middle, found, moves⟩ := ih
    obtain ⟨after, there, more⟩ := (runs.sound sorts start).goes_on possible (alive c event allowed) found
    exact ⟨after, there, moves.trans more⟩

/-- A coordinator at the start of one of its lifetimes. -/
inductive Boots (config : CoordinatorConfig) (tools : TextTools) (toposort : DiGraph TaskId → Except Nat (List Nat)) :
    Cluster → Prop
  | new : Boots config tools toposort new
  | restart {c : Cluster} {journal : List JournalRecord} : Redelivers config tools toposort (fun _ _ => True) .new c →
      c.Leaves journal → Boots config tools toposort (.restart toposort journal)

theorem Boots.sound (sorts : Sorts toposort) {first : Cluster} (boots : Boots config tools toposort first) :
    first.Sound := by
  cases boots with
  | new => exact sound_new
  | restart history leaves => exact (history.sound sorts sound_new).restart sorts leaves

end Cluster

/-- A job that a lifetime begins with: nothing of it is in flight. -/
structure JobHandle.Begun (h : JobHandle) : Prop where
  states : ∀ task state, h.graph.stateOf task = some state → state = .created ∨ state.isTerminal = true
  status : h.job.status = .planning ∨ h.job.status.isFinished = true
  control : h.control = .running

theorem begun_planned {config : CoordinatorConfig} {tools : TextTools}
    {toposort : DiGraph TaskId → Except Nat (List Nat)} {submission : Submission} {job : Job} {graph : TaskGraph}
    {nodes : Dict TaskId TaskNode} (planned : submission.plan config tools toposort = .ok (job, graph))
    (moved : graph.nodes.Rehash nodes) :
    (JobHandle.planned job { graph with nodes := nodes }).Begun := by
  obtain ⟨_, status, untouched, _⟩ := submission.plan_ok planned
  refine ⟨?_, Or.inl status, rfl⟩
  intro task state found
  obtain ⟨node, known, rfl⟩ := Option.map_eq_some_iff.mp found
  have member := Dict.mem_values.mpr ⟨task, Dict.get?_eq_some.mp ((moved.get? task).trans known)⟩
  rw [← (untouched.tasks node member).1]
  exact Or.inl rfl

/-- Every job a lifetime begins with is idle, and nothing of it is in flight. -/
theorem Cluster.Boots.begun {config : CoordinatorConfig} {tools : TextTools}
    {toposort : DiGraph TaskId → Except Nat (List Nat)} (sorts : Sorts toposort) {first : Cluster}
    (boots : Boots config tools toposort first) {jobId : JobId} {run : JobRun}
    (found : first.jobs.get? jobId = some run) :
    ∃ h, run = .new h ∧ h.Begun := by
  cases boots with
  | new => cases found
  | restart history leaves =>
    obtain ⟨present, h, built, rfl⟩ := restart_get? found
    obtain ⟨_, job, tasks, h', current, _, rfl, _, legal, again, _, rebuilt, sync⟩ :=
      (history.sound sorts sound_new).rebuilt sorts leaves present
    rw [built] at again
    cases again
    refine ⟨h, rfl, ?_, ?_, rebuilt.control⟩
    · intro task state known
      obtain ⟨node, there, _⟩ := Option.map_eq_some_iff.mp known
      rw [rebuilt_states legal rebuilt (sync.isSome_iff.mp (by rw [there]; rfl))] at known
      cases known
      obtain ⟨_, fresh⟩ := restored_says (lastTransition _ job.id task)
      cases terminal : ((lastTransition _ job.id task).elim TaskState.created restored).isTerminal with
      | true => exact Or.inr rfl
      | false => exact Or.inl (fresh terminal)
    · obtain ⟨resumed, same⟩ := rebuilt.job
      rw [same, rewound]
      split
      · rename_i finished
        exact Or.inr finished
      · exact Or.inl rfl

end Swarm
