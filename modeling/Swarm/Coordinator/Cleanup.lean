import Swarm.Coordinator.Audit

namespace Swarm
open Recovery JobHandle

/-- Whether the next step of an engine stays clear of the ways in which a run that has
begun can fail: the cluster had no room for its agents, its ticks are used up, or a
lease it gives back is gone. -/
def JobRun.spared (config : CoordinatorConfig) (shared : Shared) (run : JobRun) : Bool :=
  match run.pc with
  | .refunding _ _ => false
  | .top => decide (run.ticks < config.maxTicks)
  | .releasing leaseId _ _ => (shared.queue.leases.get? leaseId).isSome
  | _ => true

namespace Engine
variable {config : CoordinatorConfig} {toposort : DiGraph TaskId → Except Nat (List Nat)} {input : EngineInput}
  {run : JobRun} {shared : Shared}

/-- A run that gets going has moved its job to `Running`. -/
theorem stepIdle_begins
    (fresh : run.handle.job.status.isFinished = true ∨ run.handle.job.status = .planning ∨
      run.handle.job.status = .running ∨ run.handle.job.status = .paused)
    (active : (stepIdle config toposort input run shared).1.pc.isActive = true) :
    run.handle.job.status ≠ .running ∧
      (stepIdle config toposort input run shared).1.handle.job.status = .running := by
  unfold stepIdle at active ⊢
  simp only at active ⊢
  split at active
  · split at active <;> cases active
  · rename_i unfinished
    rw [if_neg unfinished]
    rcases enter_cases (fresh.resolve_left unfinished) input.now with
      ⟨idle, target, h', entered, _, running⟩ | ⟨_, entered⟩ | ⟨node, h', _, entered, _, _⟩
    · rw [entered] at active ⊢
      simp only at active ⊢
      split at active
      · rename_i full
        rw [if_pos full]
        exact ⟨idle, running⟩
      · rename_i room
        rw [if_neg room]
        refine ⟨idle, ?_⟩
        have spawned : Act.Succeeds (do
            spawnAgents config input.agentIds target input.now
            pure Pc.top) h' (fun _ h'' => SameCore h' h'') := by
          unfold Act.Succeeds
          rw [Act.ensures_bind]
          exact spawnAgents_succeeds.mono (fun _ _ same => same) (fun _ _ never => never)
        rcases exec_cases { run with handle := h', ticks := 0, paused := false, spawned := target } spawned with
          ⟨pc, h'', ran, same⟩ | ⟨e, h'', ran, never⟩
        · rw [ran]
          change h''.job.status = .running
          rw [same.job]
          exact running
        · exact never.elim
    · rw [entered] at active
      cases active
    · rw [entered] at active
      cases active

/-- A run that is not spared fails, and its job is left in the middle. -/
theorem unspared_fails (sound : run.Sound) (unspared : run.spared config shared = false) :
    run.pc.isActive = true ∧ ∃ e, (step config toposort input run shared).1.pc = .returned (.error e) ∧
      (step config toposort input run shared).1.handle.job.status.isFinished = false := by
  cases here : run.pc with
  | refunding claimed target =>
    have live := sound.live (by rw [here]; rfl)
    simp only [step, here]
    exact ⟨rfl, _, rfl, live⟩
  | top =>
    have live := sound.live (by rw [here]; rfl)
    have spent : config.maxTicks < run.ticks + 1 := by
      simpa [JobRun.spared, here, Nat.lt_succ_iff] using unspared
    simp only [step, here, stepTop, if_pos spent]
    exact ⟨rfl, _, rfl, live⟩
  | releasing leaseId dispatches promoted =>
    have live := sound.live (by rw [here]; rfl)
    have gone : shared.queue.leases.get? leaseId = none := by
      simpa [JobRun.spared, here] using unspared
    simp only [step, here, InMemoryQueue.release, InMemoryQueue.takeLease, gone]
    exact ⟨rfl, _, rfl, live⟩
  | _ => simp [JobRun.spared, here] at unspared

end Engine

/-- A run that has begun and is spared goes on. -/
theorem Exit.unspared {config : CoordinatorConfig} {toposort : DiGraph TaskId → Except Nat (List Nat)}
    {input : EngineInput} {run : JobRun} {shared : Shared} {e : SwarmError}
    (exit : Exit config toposort input run shared e) (active : run.pc.isActive = true) :
    run.spared config shared = false := by
  cases exit with
  | unanswered inactive _ _ => rw [active] at inactive; cases inactive
  | barred inactive _ => rw [active] at inactive; cases inactive
  | cyclic inactive _ => rw [active] at inactive; cases inactive
  | refused refunding => simp [JobRun.spared, refunding]
  | exhausted atTop spent => simpa [JobRun.spared, atTop] using spent
  | lost releasing gone => simp [JobRun.spared, releasing, gone]

namespace Cluster
variable {config : CoordinatorConfig} {tools : TextTools} {toposort : DiGraph TaskId → Except Nat (List Nat)}

section
variable (config : CoordinatorConfig) (toposort : DiGraph TaskId → Except Nat (List Nat)) (jobId : JobId)

/-- Whether the latest call of `run_job` for a job has moved the job to `Running`, after
one more event. -/
def moved (c : Cluster) (event : Event) (before : Bool) : Bool :=
  match event with
  | .engine other input =>
    if other = jobId then
      match c.jobs.get? jobId with
      | none => before
      | some run =>
        if run.pc.isActive then before
        else run.handle.job.status != .running &&
          (Engine.step config toposort input run c.shared).1.handle.job.status == .running
    else before
  | _ => before

/-- What an event adds to the count of cluster agents on behalf of a job. -/
def gain (c : Cluster) (event : Event) : Int :=
  match event with
  | .engine other input =>
    if other = jobId then (c.engine config toposort jobId input).shared.clusterAgents - c.shared.clusterAgents else 0
  | _ => 0

end

/-- The runs of a lifetime with the calls of `run_job` for one job: whether the latest has
moved the job to `Running`, and how many agents the cluster counts because of it. -/
inductive Calls (config : CoordinatorConfig) (tools : TextTools) (toposort : DiGraph TaskId → Except Nat (List Nat))
    (kind : Cluster → Event → Prop) (jobId : JobId) (first : Cluster) : Cluster → Bool → Int → Prop
  | start : Calls config tools toposort kind jobId first first false 0
  | next {c : Cluster} {begun : Bool} {held : Int} {event : Event} :
      Calls config tools toposort kind jobId first c begun held →
      c.Possible config tools toposort event → kind c event →
      Calls config tools toposort kind jobId first (c.apply config tools toposort event)
        (c.moved config toposort jobId event begun) (held + c.gain config toposort jobId event)
  | redeliver {c : Cluster} {begun : Bool} {held : Int} {entry : QueuedTask} :
      Calls config tools toposort kind jobId first c begun held → c.Genuine entry →
      Calls config tools toposort kind jobId first (c.redeliver entry) begun held

theorem Calls.forget {kind : Cluster → Event → Prop} {jobId : JobId} {first c : Cluster} {begun : Bool} {held : Int}
    (calls : Calls config tools toposort kind jobId first c begun held) :
    Redelivers config tools toposort kind first c := by
  induction calls with
  | start => exact .start
  | next _ possible allowed ih => exact .next ih possible allowed
  | redeliver _ genuine ih => exact .redeliver ih genuine

/-- A run that fails once it has begun leaves a final status and no agents behind. -/
def Clean (c : Cluster) (jobId : JobId) (begun : Bool) (held : Int) : Prop :=
  ∀ run e, c.jobs.get? jobId = some run → run.pc = .returned (.error e) → begun = true →
    run.handle.job.status.isFinished = true ∧ held = 0

/-- The engine of a job is not let into one of the failing branches. -/
def Spared (config : CoordinatorConfig) (jobId : JobId) (c : Cluster) (event : Event) : Prop :=
  ∀ input run, event = .engine jobId input → c.jobs.get? jobId = some run → run.spared config c.shared = true

theorem engine_get? {c : Cluster} {jobId : JobId} {input : EngineInput} {run' : JobRun}
    (found : (c.engine config toposort jobId input).jobs.get? jobId = some run') :
    ∃ run, c.jobs.get? jobId = some run ∧ run' = (Engine.step config toposort input run c.shared).1 := by
  unfold engine at found
  cases known : c.jobs.get? jobId with
  | none =>
    rw [known] at found
    rw [known] at found
    cases found
  | some run =>
    rw [known] at found
    simp only [Dict.get?_insert_self] at found
    exact ⟨run, rfl, (Option.some.inj found).symm⟩

theorem moved_other {c : Cluster} {jobId : JobId} {event : Event} (other : ∀ input, event ≠ .engine jobId input)
    (begun : Bool) : c.moved config toposort jobId event begun = begun := by
  cases event with
  | engine acting input =>
    have different : acting ≠ jobId := fun same => other input (by rw [same])
    simp only [moved, if_neg different]
  | _ => rfl

/-- An event that is not a step of the engine of a job leaves its run where it is. -/
theorem apply_point {c : Cluster} {event : Event} (possible : c.Possible config tools toposort event)
    (alive : c.Alive event) {jobId : JobId} (other : ∀ input, event ≠ .engine jobId input) {run' : JobRun}
    (found : (c.apply config tools toposort event).jobs.get? jobId = some run') :
    run'.pc = .idle ∨ ∃ run, c.jobs.get? jobId = some run ∧ run'.pc = run.pc := by
  cases apply_job possible alive found with
  | kept known => exact Or.inr ⟨run', known, rfl⟩
  | submitted _ _ _ _ same =>
    rw [same]
    exact Or.inl rfl
  | steered known _ same =>
    rw [same]
    exact Or.inr ⟨_, known, rfl⟩
  | engine isEngine _ _ => exact absurd isEngine (other _)

/-- A graph that is in step with its journal is sorted without an error. -/
theorem Sound.sorted {c : Cluster} (sound : c.Sound) (sorts : Sorts toposort) {jobId : JobId} {run : JobRun}
    (found : c.jobs.get? jobId = some run) (node : Nat) : toposort run.handle.graph.graph ≠ .error node := by
  obtain ⟨_, _, _, sync⟩ := sound.synced jobId run found
  obtain ⟨_, _, shaped⟩ := sync.shaped
  obtain ⟨order, sorted⟩ := sorts run.handle.graph.graph shaped.valid shaped.acyclic
  rw [sorted]
  simp

/-- What is known of a job along its calls: a run that is under way has moved the job to
`Running`, and one that is always spared does not fail after that. -/
structure Tracked (spared : Prop) (run : JobRun) (begun : Bool) : Prop where
  lawful : run.Lawful
  active : run.pc.isActive = true → begun = true
  fails : spared → begun = true → ∀ e, run.pc ≠ .returned (.error e)

theorem moved_engine {c : Cluster} {jobId : JobId} {run : JobRun} (known : c.jobs.get? jobId = some run)
    (input : EngineInput) (begun : Bool) : c.moved config toposort jobId (.engine jobId input) begun =
      if run.pc.isActive then begun
      else run.handle.job.status != .running &&
        (Engine.step config toposort input run c.shared).1.handle.job.status == .running := by
  simp only [moved, if_pos, known]

theorem Tracked.engine {spared : Prop} {c : Cluster} {jobId : JobId} {run : JobRun} {begun : Bool}
    {input : EngineInput} (tracked : Tracked spared run begun) (sound : c.Sound) (sorts : Sorts toposort)
    (known : c.jobs.get? jobId = some run) (possible : c.Possible config tools toposort (.engine jobId input))
    (allowed : spared → run.spared config c.shared = true) :
    Tracked spared (Engine.step config toposort input run c.shared).1
      (c.moved config toposort jobId (.engine jobId input) begun) := by
  have proceeds : Proceeds config toposort input run c.shared _ := sound.proceeds known tracked.lawful input
  rw [moved_engine known]
  refine ⟨proceeds.lawful, ?_, ?_⟩
  · intro active
    split
    · rename_i before
      exact tracked.active before
    · rename_i before
      have inactive : run.pc.isActive = false := by simpa using before
      have same : Engine.step config toposort input run c.shared =
          Engine.stepIdle config toposort input run c.shared := by
        cases here : run.pc with
        | idle => simp only [Engine.step, here]
        | returned answer => simp only [Engine.step, here]
        | _ => rw [here] at inactive; cases inactive
      rw [same] at active ⊢
      obtain ⟨idle, running⟩ := Engine.stepIdle_begins (tracked.lawful.startable inactive) active
      simp [idle, running]
  · intro always here e failed
    have exit := proceeds.exits e failed
    split at here
    · rename_i active
      exact absurd (allowed always) (by rw [exit.unspared active]; simp)
    · simp only [Bool.and_eq_true, bne_iff_ne, ne_eq, beq_iff_eq] at here
      cases exit with
      | unanswered _ finished _ =>
        have still := finished_moves (sound.stepped known possible).moves finished
        rw [here.2] at still
        cases still
      | barred _ running => exact here.1 running
      | cyclic _ cyclic => exact sound.sorted sorts known _ cyclic
      | refused refunding => simp_all [Pc.isActive]
      | exhausted atTop _ => simp_all [Pc.isActive]
      | lost releasing _ => simp_all [Pc.isActive]

theorem Calls.tracked {spared : Prop} {kind : Cluster → Event → Prop} {jobId : JobId}
    (allowed : ∀ c event, kind c event → c.Alive event ∧ (spared → c.Spared config jobId event))
    (sorts : Sorts toposort) {first c : Cluster} (boots : Boots config tools toposort first)
    {begun : Bool} {held : Int} (calls : Calls config tools toposort kind jobId first c begun held) :
    ∀ run, c.jobs.get? jobId = some run → Tracked spared run begun := by
  have start := boots.sound sorts
  induction calls with
  | start =>
    intro run found
    obtain ⟨h, rfl, begun⟩ := boots.begun sorts found
    exact ⟨lawful_begun begun, fun active => (by cases active), fun _ absurd => (by cases absurd)⟩
  | redeliver _ _ ih => exact ih
  | @next c begun held event calls possible kinds ih =>
    have sound := calls.forget.sound sorts start
    obtain ⟨alive, clear⟩ := allowed c event kinds
    intro run' found
    by_cases acts : ∃ input, event = .engine jobId input
    · obtain ⟨input, rfl⟩ := acts
      obtain ⟨run, known, rfl⟩ := engine_get? found
      exact (ih run known).engine sound sorts known possible (fun always => clear always input run rfl known)
    · have other : ∀ input, event ≠ .engine jobId input := fun input same => acts ⟨input, same⟩
      rw [moved_other other]
      have lawful : run'.Lawful := by
        cases apply_job possible alive found with
        | kept known => exact (ih _ known).lawful
        | submitted _ planned _ rehash same =>
          rw [same]
          exact lawful_begun (begun_planned planned rehash)
        | steered known steers same =>
          rw [same]
          exact lawful_steered steers (ih _ known).lawful
        | engine isEngine _ _ => exact absurd isEngine (other _)
      rcases apply_point possible alive other found with idle | ⟨run, known, same⟩
      · refine ⟨lawful, ?_, ?_⟩
        · intro active
          rw [idle] at active
          cases active
        · intro _ _ e failed
          rw [idle] at failed
          cases failed
      · obtain ⟨_, active, fails⟩ := ih run known
        rw [← same] at active fails
        exact ⟨lawful, active, fails⟩

/-- Runs that are spared the three failing branches never fail once they have begun, and
every step into one of them leaves the job with an unfinished status. -/
theorem Calls.cleanup_exact (sorts : Sorts toposort) {first : Cluster} (boots : Boots config tools toposort first)
    (jobId : JobId) :
    (∀ c begun held, Calls config tools toposort (fun c event => c.Alive event ∧
      c.Spared config jobId event) jobId first c
      begun held → c.Clean jobId begun held) ∧
      ∀ c begun held input, Calls config tools toposort Alive jobId first c begun held →
        c.Possible config tools toposort (.engine jobId input) → ¬ c.Spared config jobId (.engine jobId input) →
        ¬ (c.apply config tools toposort (.engine jobId input)).Clean jobId
          (c.moved config toposort jobId (.engine jobId input) begun)
          (held + c.gain config toposort jobId (.engine jobId input)) := by
  refine ⟨?_, ?_⟩
  · intro c begun held calls run e found failed here
    have tracked : Tracked True run begun :=
      calls.tracked (fun _ _ kinds => ⟨kinds.1, fun _ => kinds.2⟩) sorts boots run found
    exact absurd failed (tracked.fails trivial here e)
  · intro c begun held input calls possible enters clean
    have sound := calls.forget.sound sorts (boots.sound sorts)
    have entered : ∃ run, c.jobs.get? jobId = some run ∧ run.spared config c.shared = false := by
      by_contra none
      refine enters ?_
      rintro _ run ⟨⟩ known
      by_contra unspared
      exact none ⟨run, known, by simpa using unspared⟩
    obtain ⟨run, known, unspared⟩ := entered
    obtain ⟨active, e, failed, unfinished⟩ :=
      Engine.unspared_fails (sound.engines jobId run known) unspared
    have tracked : Tracked False run begun :=
      calls.tracked (fun _ _ alive => ⟨alive, False.elim⟩) sorts boots run known
    have begun' : c.moved config toposort jobId (.engine jobId input) begun = true := by
      rw [moved_engine known, if_pos active]
      exact tracked.active active
    have there : (c.apply config tools toposort (.engine jobId input)).jobs.get? jobId =
        some (Engine.step config toposort input run c.shared).1 := by
      simp only [apply, engine, known, Dict.get?_insert_self]
    obtain ⟨finished, _⟩ := clean _ e there failed begun'
    rw [unfinished] at finished
    cases finished

end Cluster

/-- A job that may take one tick only. -/
def hurried : CoordinatorConfig := { sampleConfig with maxTicks := 1 }

/-- The engine of a job takes steps with the given inputs. -/
def Cluster.driven (config : CoordinatorConfig) (c : Cluster) (jobId : JobId) (inputs : List EngineInput) : Cluster :=
  inputs.foldl (fun c input => c.engine config DiGraph.sort jobId input) c

/-- No execution of a dispatched task ends in time. -/
def lateInput (c : Cluster) (jobId : JobId) (now : Nat) : EngineInput :=
  { plainInput now with outcomes := some ((dispatchesOf c jobId).map (fun _ => .elapsed)) }

theorem possible_late {config : CoordinatorConfig} {c : Cluster} {jobId : JobId} (now : Nat) :
    c.Possible config sampleReader DiGraph.sort (.engine jobId (lateInput c jobId now)) := by
  intro run dispatches outcomes found executing same
  cases same
  have inHand : dispatchesOf c jobId = dispatches := by
    simp only [dispatchesOf, found, executing, Option.elim_some]
    rfl
  rw [inHand, List.forall₂_map_right_iff]
  exact List.forall₂_same.mpr (fun _ _ _ absurd => by cases absurd)

/-- A run in which the sample job has the cluster for itself: every counted agent is its own. -/
def Alone (config : CoordinatorConfig) (kind : Cluster → Event → Prop) (c : Cluster) : Prop :=
  ∃ begun, Cluster.Calls config sampleReader DiGraph.sort kind ⟨1⟩ .new c begun c.shared.clusterAgents

theorem Alone.step {config : CoordinatorConfig} {kind : Cluster → Event → Prop} {c : Cluster}
    (alone : Alone config kind c) {input : EngineInput}
    (possible : c.Possible config sampleReader DiGraph.sort (.engine ⟨1⟩ input))
    (allowed : kind c (.engine ⟨1⟩ input)) : Alone config kind (c.engine config DiGraph.sort ⟨1⟩ input) := by
  obtain ⟨begun, calls⟩ := alone
  have step := Cluster.Calls.next calls possible allowed
  have gained : c.gain config DiGraph.sort ⟨1⟩ (.engine ⟨1⟩ input) =
      (c.engine config DiGraph.sort ⟨1⟩ input).shared.clusterAgents - c.shared.clusterAgents := by
    simp [Cluster.gain]
  rw [gained, add_sub_cancel] at step
  exact ⟨_, step⟩

theorem Alone.driven {config : CoordinatorConfig} {kind : Cluster → Event → Prop} {c : Cluster}
    (alone : Alone config kind c) (times : List Nat)
    (allowed : ∀ k now, times[k]? = some now →
      kind (c.driven config ⟨1⟩ ((times.take k).map plainInput)) (.engine ⟨1⟩ (plainInput now))) :
    Alone config kind (c.driven config ⟨1⟩ (times.map plainInput)) := by
  induction times generalizing c with
  | nil => exact alone
  | cons now rest ih =>
    have possible : c.Possible config sampleReader DiGraph.sort (.engine ⟨1⟩ (plainInput now)) :=
      fun _ _ _ _ _ answered => by cases answered
    exact ih (alone.step possible (allowed 0 now rfl)) (fun k now there => allowed (k + 1) now there)

/-- The sample job, whose first task is not answered in time, up to its second tick. -/
def outpaced : Cluster :=
  let c := Cluster.driven hurried (Cluster.submitted .new sampleSubmission) ⟨1⟩
    ([1, 2, 3, 4, 5, 6, 7, 8].map plainInput)
  Cluster.driven hurried (c.engine hurried DiGraph.sort ⟨1⟩ (lateInput c ⟨1⟩ 9)) ⟨1⟩ ([10, 11].map plainInput)

theorem alone_submitted {config : CoordinatorConfig} {kind : Cluster → Event → Prop}
    (same : sampleSubmission.plan config sampleReader DiGraph.sort =
      sampleSubmission.plan sampleConfig sampleReader DiGraph.sort)
    (allowed : kind .new (.submit sampleSubmission (Cluster.planned sampleSubmission))) :
    Alone config kind (Cluster.submitted .new sampleSubmission) := by
  have possible : Cluster.Possible config sampleReader DiGraph.sort .new
      (.submit sampleSubmission (Cluster.planned sampleSubmission)) := by
    refine ⟨rfl, fun _ _ _ found => (by cases found), ?_⟩
    intro job graph run
    unfold Cluster.planned
    rw [← same, run]
    exact List.Perm.refl _
  have nothing : Cluster.Calls config sampleReader DiGraph.sort kind ⟨1⟩ .new .new false 0 := .start
  have step := nothing.next possible allowed
  have again : Cluster.apply config sampleReader DiGraph.sort .new
      (.submit sampleSubmission (Cluster.planned sampleSubmission)) =
      Cluster.submitted .new sampleSubmission := by
    simp only [Cluster.apply, Cluster.submitted, Cluster.submit, same]
  have idle : (Cluster.submitted .new sampleSubmission).shared.clusterAgents = 0 := by
    unfold Cluster.submitted Cluster.submit
    split <;> rfl
  rw [again] at step
  refine ⟨false, ?_⟩
  rw [idle]
  exact step

/-- The second tick is one too many. -/
def overdue : Cluster := outpaced.driven hurried ⟨1⟩ ([12].map plainInput)

theorem alone_outpaced : Alone hurried Cluster.Alive outpaced := by
  have alive : ∀ c input, Cluster.Alive c (.engine ⟨1⟩ input) := fun _ _ _ same => by cases same
  have submitted : Alone hurried Cluster.Alive (Cluster.submitted .new sampleSubmission) :=
    alone_submitted rfl (fun _ same => by cases same)
  have started := submitted.driven [1, 2, 3, 4, 5, 6, 7, 8] (fun _ _ _ => alive _ _)
  exact (started.step (possible_late 9) (alive _ _)).driven [10, 11] (fun _ _ _ => alive _ _)

theorem Pc.hasFailed_iff {pc : Pc} : pc.hasFailed = true ↔ ∃ e, pc = .returned (.error e) := by
  constructor
  · intro failed
    unfold hasFailed at failed
    split at failed
    · exact ⟨_, rfl⟩
    · cases failed
  · rintro ⟨e, rfl⟩
    rfl

/-- The run fails after its first tick. The job is left `Running`, and its agent is counted for good. -/
theorem cleanup_overdue :
    ∃ begun held, Cluster.Calls hurried sampleReader DiGraph.sort Cluster.Alive ⟨1⟩ .new overdue begun held ∧
    held = 1 ∧ ¬ overdue.Clean ⟨1⟩ begun held := by
  have before : (outpaced.jobs.get? ⟨1⟩).any (fun run => run.pc.isActive) = true := by decide +kernel
  have after : (overdue.jobs.get? ⟨1⟩).any (fun run => run.pc.hasFailed && run.handle.job.status == .running) =
      true := by
    decide +kernel
  obtain ⟨run, known, active⟩ := (Option.any_eq_true _ _).mp before
  obtain ⟨run', found, here⟩ := (Option.any_eq_true _ _).mp after
  simp only [Bool.and_eq_true, beq_iff_eq] at here
  obtain ⟨e, failed⟩ := Pc.hasFailed_iff.mp here.1
  obtain ⟨begun, calls⟩ := alone_outpaced
  have tracked : Cluster.Tracked False run begun :=
    calls.tracked (fun _ _ alive => ⟨alive, False.elim⟩) Cluster.sample_sorts .new run known
  have possible : outpaced.Possible hurried sampleReader DiGraph.sort (.engine ⟨1⟩ (plainInput 12)) :=
    fun _ _ _ _ _ answered => by cases answered
  have step := calls.next possible (fun _ same => by cases same)
  have going : outpaced.moved hurried DiGraph.sort ⟨1⟩ (.engine ⟨1⟩ (plainInput 12)) begun = true := by
    rw [Cluster.moved_engine known, if_pos active]
    exact tracked.active active
  rw [going] at step
  refine ⟨true, _, step, by decide +kernel, ?_⟩
  intro clean
  obtain ⟨finished, _⟩ := clean run' e found failed rfl
  rw [here.2] at finished
  cases finished

/-- The sample job starts its first task, and is spared so far. -/
theorem cleanup_exact_started : ∃ begun, Cluster.Calls sampleConfig sampleReader DiGraph.sort
    (fun c event => c.Alive event ∧ c.Spared sampleConfig ⟨1⟩ event) ⟨1⟩ .new started begun 1 ∧
      started.Clean ⟨1⟩ begun 1 := by
  let times := [1, 2, 3, 4, 5, 6, 7, 8]
  let point k :=
    Cluster.driven sampleConfig (Cluster.submitted .new sampleSubmission) ⟨1⟩ ((times.take k).map plainInput)
  have spared : ∀ k < 8, ((point k).jobs.get? ⟨1⟩).all (fun run => run.spared sampleConfig (point k).shared) =
      true := by
    decide +kernel
  have submitted : Alone sampleConfig (fun c event => c.Alive event ∧ c.Spared sampleConfig ⟨1⟩ event)
      (Cluster.submitted .new sampleSubmission) :=
    alone_submitted rfl ⟨fun _ same => (by cases same), fun _ _ same => (by cases same)⟩
  obtain ⟨begun, calls⟩ := submitted.driven times (by
    intro k now there
    refine ⟨fun _ same => (by cases same), ?_⟩
    rintro _ run ⟨⟩ known
    have here := spared k (List.getElem?_eq_some_iff.mp there).1
    change (point k).jobs.get? ⟨1⟩ = some run at known
    rw [known, Option.all_some] at here
    exact here)
  have one : (Cluster.driven sampleConfig (Cluster.submitted .new sampleSubmission) ⟨1⟩
      (times.map plainInput)).shared.clusterAgents = 1 := by decide +kernel
  rw [one] at calls
  exact ⟨begun, calls, (Cluster.Calls.cleanup_exact Cluster.sample_sorts .new ⟨1⟩).1 _ _ _ calls⟩

end Swarm
