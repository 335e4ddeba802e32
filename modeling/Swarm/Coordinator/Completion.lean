import Swarm.Coordinator.Headway
import Swarm.Coordinator.Termination

namespace Swarm
open InMemoryQueue JobHandle

theorem moves_len {h h' : JobHandle} (moves : Moves h h') : h'.graph.len = h.graph.len := by
  have update : ∀ (g : TaskGraph) (task : TaskId) (change : TaskNode → TaskNode),
      (g.update task change).len = g.len := by
    intro g task change
    simp only [TaskGraph.len, TaskGraph.update, Dict.modify, List.length_map]
  induction moves with
  | refl => rfl
  | tail _ last ih =>
    cases last with
    | quiet same => rw [same.graph]; exact ih
    | attempt task attempt => exact (update _ _ _).trans ih
    | rehash moved => exact (List.Perm.length_eq moved).symm.trans ih
    | advance => exact (update _ _ _).trans ih
    | complete => exact (update _ _ _).trans ih
    | failed => exact ih
    | status => exact ih
    | finish => exact ih

theorem moves_inhabited {h h' : JobHandle} (moves : Moves h h') (inhabited : h.graph.nodes.entries ≠ []) :
    h'.graph.nodes.entries ≠ [] := by
  have size : h'.graph.nodes.entries.length = h.graph.nodes.entries.length := moves_len moves
  intro none
  rw [none] at size
  exact inhabited (List.length_eq_zero_iff.mp size.symm)

theorem moves_exact {h h' : JobHandle} (moves : Moves h h') (exact : h.graph.Exact) : h'.graph.Exact := by
  intro task node found
  obtain ⟨earlier, known, blank⟩ := (moves_extends moves).before found
  have kind : earlier.blank.kind = node.blank.kind := congrArg TaskNode.kind blank
  have needs : earlier.blank.requiredCapabilities = node.blank.requiredCapabilities :=
    congrArg TaskNode.requiredCapabilities blank
  exact needs.symm.trans ((exact task earlier known).trans (congrArg TaskKind.requiredCapabilities kind))

/-- A finished job keeps its final result. -/
theorem moves_finalResult {h h' : JobHandle} (moves : Moves h h') (finished : h.job.status.isFinished = true) :
    h'.finalResult = h.finalResult := by
  induction moves with
  | refl => rfl
  | tail before last ih =>
    have done := finished_moves before finished
    cases last with
    | quiet same => exact same.finalResult.trans ih
    | attempt => exact ih
    | rehash => exact ih
    | advance _ live => exact absurd (live.symm.trans done) (by simp)
    | complete _ live => exact absurd (live.symm.trans done) (by simp)
    | failed _ live => exact ih
    | status _ _ live => exact ih
    | finish _ _ live => exact absurd (live.symm.trans done) (by simp)

namespace JobRun.Thriving
variable {config : CoordinatorConfig} {toposort : DiGraph TaskId → Except Nat (List Nat)} {jobId : JobId} {size : Nat}
  {clock now : DateTime} {input : EngineInput} {shared shared' : Shared} {run : JobRun}

theorem later (thriving : run.Thriving config toposort jobId size clock shared) (later : clock ≤ now) :
    run.Thriving config toposort jobId size now shared :=
  { thriving with well := thriving.well.later later }

/-- Every step of its engine keeps a job thriving. -/
theorem step (thriving : run.Thriving config toposort jobId size clock shared) (affordable : size ≤ config.maxTicks)
    (onwards : clock ≤ input.now) (favours : Engine.Favours input run shared.queue) :
    (Engine.step config toposort input run shared).1.Thriving config toposort jobId size input.now
        (Engine.step config toposort input run shared).2 ∧
      Moves run.handle (Engine.step config toposort input run shared).1.handle ∧
      (Engine.step config toposort input run shared).1.pc ≠ .idle := by
  have diligent := thriving.diligent
  have goes := Engine.step_goes thriving affordable onwards favours
  have stepped : Stepped input run shared.queue (Engine.step config toposort input run shared).1
      (Engine.step config toposort input run shared).2.queue :=
    Engine.step_stepped diligent.sound diligent.navigable diligent.owned favours.answered
  have mans : Mans _ run (Engine.step config toposort input run shared).1 :=
    Engine.step_mans thriving.orderly diligent.sound favours.draws rfl favours.answered
  have orderly : (Engine.step config toposort input run shared).1.Orderly := by
    unfold JobRun.Orderly
    rw [moves_request stepped.moves]
    exact mans.manned
  have uncancelled : run.handle.control ≠ .cancelled := by
    rw [favours.running]
    simp
  refine ⟨⟨diligent.step uncancelled favours.answered favours.fresh, orderly,
    moves_exact stepped.moves thriving.exact,
    ?_, ?_, goes.well, goes.course⟩, stepped.moves, goes.begun⟩
  · exact moves_inhabited stepped.moves thriving.inhabited
  · rw [moves_len stepped.moves]
    exact thriving.within

/-- What the operator and the order of the map do does not matter to a thriving job. -/
theorem steered (thriving : run.Thriving config toposort jobId size clock shared) {h : JobHandle}
    (steers : Cluster.Steers run.handle h) :
    { run with handle := h }.Thriving config toposort jobId size clock shared where
  diligent := thriving.diligent.steered steers
  orderly := steers.orderly thriving.orderly
  exact := moves_exact steers.moves thriving.exact
  inhabited := moves_inhabited steers.moves thriving.inhabited
  within := by
    change h.graph.len ≤ size
    rw [moves_len steers.moves]
    exact thriving.within
  well :=
    { thriving.well with
      states := fun task state found => thriving.well.states task state ((steers.states task).symm.trans found)
      waiting := fun entry member => (steers.states _).trans (thriving.well.waiting entry member) }
  course := by
    have course := thriving.course
    have done : run.handle.graph.done ≤ h.graph.done :=
      thriving.diligent.navigable.done_mono (moves_navigable steers.moves thriving.diligent.navigable)
        (fun task complete => (steers.states task).trans complete)
    have undone : run.handle.graph.Undone → h.graph.Undone := by
      rintro ⟨task, state, found, incomplete⟩
      exact ⟨task, state, (steers.states task).trans found, incomplete⟩
    have stocked : run.handle.graph.Stocked → h.graph.Stocked := by
      rintro ⟨task, found⟩
      exact ⟨task, (steers.states task).trans found⟩
    have finished : run.handle.graph.Finished → h.graph.Finished :=
      fun all task state found => all task state ((steers.states task).symm.trans found)
    have spent : ∀ {ticks : Nat}, ticks ≤ run.handle.graph.done + 1 → ticks ≤ h.graph.done + 1 :=
      fun ticks => Nat.le_trans ticks (Nat.succ_le_succ done)
    cases here : run.pc with
    | idle =>
      simp only [JobRun.OnCourse, here] at course ⊢
      rw [steers.job, (moves_topology steers.moves).1]
      exact ⟨course.1, course.2.1, undone course.2.2.1, course.2.2.2⟩
    | top =>
      simp only [JobRun.OnCourse, here] at course ⊢
      exact ⟨Nat.le_trans course.1 done, course.2.1, undone course.2.2⟩
    | promoting =>
      simp only [JobRun.OnCourse, here] at course ⊢
      exact ⟨spent course.1, course.2.imp_right stocked⟩
    | maintaining | scaling | growing | reclaiming =>
      simp only [JobRun.OnCourse, here] at course ⊢
      exact ⟨spent course.1, stocked course.2⟩
    | collecting =>
      simp only [JobRun.OnCourse, here] at course ⊢
      exact ⟨spent course.1, fun none => (course.2 none).imp_right stocked⟩
    | executing =>
      simp only [JobRun.OnCourse, here] at course ⊢
      exact ⟨spent course.1, course.2⟩
    | applying =>
      simp only [JobRun.OnCourse, here] at course ⊢
      exact ⟨spent course.1, fun none => Nat.le_trans (course.2.1 none) done, course.2.2⟩
    | finishing =>
      simp only [JobRun.OnCourse, here] at course ⊢
      exact ⟨Nat.le_trans course.1 done, course.2.1, finished course.2.2⟩
    | returned =>
      simp only [JobRun.OnCourse, here] at course ⊢
      obtain ⟨ticks, all, completed, result, answer, same, final⟩ := course
      rw [steers.job, moves_finalResult steers.moves (by rw [completed]; rfl)]
      exact ⟨Nat.le_trans ticks done, finished all, completed, result, answer, same, final⟩
    | refunding | waiting | dropping | releasing | deciding | cancelling =>
      simp only [JobRun.OnCourse, here] at course

/-- The queue is the same up to the order of its leases. -/
theorem requeue (thriving : run.Thriving config toposort jobId size clock shared) {q' : InMemoryQueue}
    (diligent : run.Diligent jobId q') (ready : q'.ready = shared.queue.ready)
    (leases : ∀ leaseId, q'.leases.get? leaseId = shared.queue.leases.get? leaseId) :
    run.Thriving config toposort jobId size clock { shared with queue := q' } :=
  { thriving with
    diligent := diligent
    well :=
      { states := thriving.well.states
        visible := by
          rw [ready]
          exact thriving.well.visible
        waiting := by
          rw [ready]
          exact thriving.well.waiting
        fitted := by
          rw [ready]
          exact thriving.well.fitted
        leased := fun leaseId lease found => thriving.well.leased leaseId lease ((leases leaseId).symm.trans found)
        held := fun dispatch member => (leases _).trans (thriving.well.held dispatch member) }
    course := thriving.course }

/-- A thriving job that has finished has been completed, and its result returned. -/
theorem returns (thriving : run.Thriving config toposort jobId size clock shared)
    (finished : run.handle.job.status.isFinished = true) : ∃ result, run.pc = .returned (.ok result) ∧
      result.status = .completed ∧ run.handle.job.status = .completed ∧ run.handle.finalResult = some result ∧
      run.ticks ≤ size ∧ run.handle.graph.Finished := by
  have course := thriving.course
  have inactive : run.pc.isActive = false := by
    cases active : run.pc.isActive with
    | false => rfl
    | true => exact absurd ((thriving.diligent.sound.live active).symm.trans finished) (by simp)
  cases here : run.pc with
  | idle =>
    simp only [JobRun.OnCourse, here] at course
    rw [course.1] at finished
    cases finished
  | returned answer =>
    simp only [JobRun.OnCourse, here] at course
    obtain ⟨ticks, all, completed, result, rfl, same, final⟩ := course
    exact ⟨result, rfl, same, completed, final,
      Nat.le_trans ticks (Nat.le_trans run.handle.graph.done_le thriving.within), all⟩
  | _ =>
    rw [here] at inactive
    cases inactive

/-- A thriving job that has not finished is at its start or under way. -/
theorem active (thriving : run.Thriving config toposort jobId size clock shared)
    (unfinished : run.handle.job.status.isFinished = false) (begun : run.pc ≠ .idle) : run.pc.isActive = true := by
  have course := thriving.course
  cases here : run.pc with
  | idle => exact absurd here begun
  | returned answer =>
    simp only [JobRun.OnCourse, here] at course
    rw [course.2.2.1] at unfinished
    cases unfinished
  | _ => rfl

end JobRun.Thriving

/-- A poised job for which there is room thrives. -/
theorem JobHandle.Poised.thriving {config : CoordinatorConfig} {toposort : DiGraph TaskId → Except Nat (List Nat)}
    (detects : Detects toposort) {jobId : JobId} {h : JobHandle} (poised : h.Poised toposort jobId)
    (sane : ∀ task state, h.graph.stateOf task = some state → state.isFresh = true ∨ state = .completed)
    (undone : h.graph.Undone) (exact : h.graph.Exact) (staffless : h.agents = []) {shared : Shared}
    (unused : shared.queue = .new)
    (room : shared.clusterAgents + max 1 h.job.request.maxAgents ≤ config.maxClusterAgents) (clock : DateTime) :
    (JobRun.new h).Thriving config toposort jobId h.graph.len clock shared where
  diligent := by
    rw [unused]
    exact poised.diligent detects
  orderly := orderly_new staffless
  exact := exact
  inhabited := by
    obtain ⟨task, state, found, _⟩ := undone
    obtain ⟨node, known, _⟩ := Option.map_eq_some_iff.mp found
    exact List.ne_nil_of_mem (Dict.get?_eq_some.mp known)
  within := Nat.le_refl _
  well := by
    have states : ∀ task state, h.graph.stateOf task = some state → state.isWell = true := by
      intro task state found
      rcases sane task state found with fresh | rfl
      · cases state <;> first | rfl | cases fresh
      · rfl
    rw [unused]
    exact
      { states := states
        visible := fun _ absurd => by cases absurd
        waiting := fun _ absurd => by cases absurd
        fitted := fun _ absurd => by cases absurd
        leased := fun _ _ absurd => by cases absurd
        held := fun _ absurd => by cases absurd }
  course := by
    have agrees := poised.built.agrees detects
    obtain ⟨order, sorted⟩ := (detects _ agrees.valid).mpr agrees.acyclic
    refine ⟨poised.status, ?_, undone, room⟩
    intro node cyclic
    change toposort h.graph.graph = .error node at cyclic
    rw [sorted] at cyclic
    cases cyclic

namespace Cluster
variable {config : CoordinatorConfig} {tools : TextTools}
  {toposort : DiGraph TaskId → Except Nat (List Nat)} {jobId : JobId} {size : Nat} {clock now : DateTime}

/-- What the outside world does for a job at one event: it leaves the job its queue, its agents
names of their own and its control, and answers every execution of it in time with a valid result. -/
structure Favours (config : CoordinatorConfig) (tools : TextTools) (toposort : DiGraph TaskId → Except Nat (List Nat))
    (jobId : JobId) (now : DateTime) (c : Cluster) (event : Event) : Prop where
  possible : c.Possible config tools toposort event
  tended : c.Tended jobId event
  draws : c.Draws event
  running : ∀ input run, event = .engine jobId input → c.jobs.get? jobId = some run → run.handle.control = .running
  timed : ∀ input, event = .engine jobId input → input.now = now
  valid : ∀ input outcomes, event = .engine jobId input → input.outcomes = some outcomes →
    ∀ outcome ∈ outcomes, outcome.isValid = true
  timely : ∀ input run dispatch outcome rest, event = .engine jobId input → c.jobs.get? jobId = some run →
    run.pc = .applying ((dispatch, outcome) :: rest) → now < dispatch.lease.expiresAt

/-- The engine of the job thrives. -/
def Thrives (config : CoordinatorConfig) (toposort : DiGraph TaskId → Except Nat (List Nat))
    (jobId : JobId) (size : Nat) (clock : DateTime) (run : JobRun) (c : Cluster) : Prop :=
  c.jobs.get? jobId = some run ∧ run.Thriving config toposort jobId size clock c.shared

/-- From one state of a run of a cluster to the next, as far as one job goes. -/
structure Advances (jobId : JobId) (event : Event) (run run' : JobRun) : Prop where
  moves : Moves run.handle run'.handle
  begun : run.pc ≠ .idle → run'.pc ≠ .idle
  starts : ∀ input, event = .engine jobId input → run'.pc ≠ .idle

theorem Favours.engine {c : Cluster} {input : EngineInput} {run : JobRun}
    (favours : c.Favours config tools toposort jobId now (.engine jobId input))
    (found : c.jobs.get? jobId = some run) :
    Engine.Favours input run c.shared.queue where
  running := favours.running input run rfl found
  draws := favours.draws.2 jobId input run rfl found
  answered := answered_of_possible favours.possible found
  fresh := by
    obtain ⟨_, unused, fresh⟩ := favours.tended.sole jobId input rfl
    exact ⟨unused, fresh run found⟩
  valid := fun _ outcomes _ known => favours.valid input outcomes rfl known
  timely := by
    rw [favours.timed input rfl]
    exact fun dispatch outcome rest => favours.timely input run dispatch outcome rest rfl found

theorem Thrives.steered {c c' : Cluster} {run : JobRun} {event : Event} {other : JobId}
    (thrives : c.Thrives config toposort jobId size clock run) (steered : Steered c c' other)
    (outside : ∀ input, event ≠ .engine jobId input) :
    ∃ run', c'.Thrives config toposort jobId size clock run' ∧ Advances jobId event run run' := by
  obtain ⟨present, thriving⟩ := thrives
  have stays : Advances jobId event run run := ⟨.refl, id, fun input same => absurd same (outside input)⟩
  rcases steered with rfl | ⟨mine, h, found, steers, rfl⟩
  · exact ⟨run, ⟨present, thriving⟩, stays⟩
  · by_cases same : jobId = other
    · subst same
      rw [found] at present
      cases present
      exact ⟨_, ⟨Dict.get?_insert_self, thriving.steered steers⟩, steers.moves, id,
        fun input same => absurd same (outside input)⟩
    · refine ⟨run, ⟨?_, thriving⟩, stays⟩
      rw [Dict.get?_insert_of_ne same]
      exact present

/-- Under favourable events a job that thrives goes on to thrive. -/
theorem Thrives.apply {c : Cluster} {run : JobRun} {event : Event}
    (thrives : c.Thrives config toposort jobId size clock run) (affordable : size ≤ config.maxTicks)
    (onwards : clock ≤ now) (favours : c.Favours config tools toposort jobId now event) :
    ∃ run', (c.apply config tools toposort event).Thrives config toposort jobId size now run' ∧
      Advances jobId event run run' := by
  have possible := favours.possible
  have tended := favours.tended
  replace thrives : c.Thrives config toposort jobId size now run := ⟨thrives.1, thrives.2.later onwards⟩
  cases event with
  | engine other input =>
    obtain ⟨rfl, _⟩ := tended.sole other input rfl
    obtain ⟨found, thriving⟩ := thrives
    have timed := favours.timed input rfl
    obtain ⟨after, moves, begun⟩ := thriving.step affordable (le_of_eq timed.symm) (favours.engine found)
    rw [timed] at after
    refine ⟨(Engine.step config toposort input run c.shared).1, ⟨?_, ?_⟩, moves, fun _ => begun, fun _ _ => begun⟩
    · simp only [Cluster.apply, Cluster.engine, found]
      exact Dict.get?_insert_self
    · simp only [Cluster.apply, Cluster.engine, found]
      exact after
  | submit submission nodes =>
    obtain ⟨found, thriving⟩ := thrives
    obtain ⟨fresh, _, _⟩ := possible
    refine ⟨run, ?_, .refl, id, fun _ absurd => by cases absurd⟩
    simp only [Cluster.apply]
    unfold Cluster.submit
    split
    · exact ⟨found, thriving⟩
    · rename_i job graph planned
      rw [← (submission.plan_ok planned).1] at fresh
      refine ⟨?_, thriving⟩
      rw [Dict.get?_insert_of_ne]
      · exact found
      · rintro rfl
        rw [fresh] at found
        cases found
  | pause other => exact thrives.steered (apply_steered possible (Or.inl rfl)) (by simp)
  | resume other => exact thrives.steered (apply_steered possible (Or.inr (Or.inl rfl))) (by simp)
  | cancel other => exact thrives.steered (apply_steered possible (Or.inr (Or.inr (Or.inl rfl)))) (by simp)
  | rehash other nodes =>
      exact thrives.steered (apply_steered possible (Or.inr (Or.inr (Or.inr ⟨nodes, rfl⟩)))) (by simp)
  | purge other =>
    obtain ⟨found, thriving⟩ := thrives
    have diligent := thriving.diligent
    have different : jobId ≠ other := by
      rintro rfl
      exact tended.uncancelled run found (possible run found)
    obtain ⟨ready, leases⟩ := purgeJob_other (carries_mono diligent.queue
      (fun entry belongs same => different (belongs.1.symm.trans same)))
    refine ⟨run, ⟨found, ?_⟩, .refl, id, fun _ absurd => by cases absurd⟩
    exact thriving.requeue (diligent.requeue (diligent.solo.purgeJob diligent.sound other)
      (diligent.queue.purgeJob other) ready leases rfl) ready leases
  | rehashLeases leases =>
    obtain ⟨found, thriving⟩ := thrives
    have diligent := thriving.diligent
    have moved : c.shared.queue.leases.Rehash leases := possible
    have same : ∀ leaseId, leases.get? leaseId = c.shared.queue.leases.get? leaseId :=
      fun leaseId => (moved.get? leaseId).symm
    refine ⟨run, ⟨found, ?_⟩, .refl, id, fun _ absurd => by cases absurd⟩
    refine thriving.requeue (diligent.requeue (diligent.solo.rehash diligent.sound moved) ⟨diligent.queue.ready, ?_⟩
      rfl same rfl) rfl same
    intro leaseId lease held
    exact diligent.queue.leases leaseId lease ((same leaseId).symm.trans held)
  | restart journal => exact absurd rfl (tended.lasting journal)

/-- With every task complete, nothing is left in the queue. -/
theorem Thrives.cleared {c : Cluster} {run : JobRun} (thrives : c.Thrives config toposort jobId size clock run)
    (finished : run.handle.graph.Finished) (inHand : run.pc.dispatches = []) :
    c.shared.queue.ready = [] ∧ ∀ leaseId, c.shared.queue.leases.get? leaseId = none := by
  obtain ⟨_, thriving⟩ := thrives
  refine ⟨?_, thriving.well.unleased inHand⟩
  refine List.eq_nil_iff_forall_not_mem.mpr ?_
  intro entry member
  have complete := finished _ _ (thriving.well.waiting entry member)
  cases complete

end Cluster

end Swarm
