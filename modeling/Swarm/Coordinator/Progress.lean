import Swarm.Coordinator.Diligence

namespace Swarm
open InMemoryQueue Act

namespace JobRun.Diligent
variable {config : CoordinatorConfig} {toposort : DiGraph TaskId → Except Nat (List Nat)} {jobId : JobId}
  {input : EngineInput} {run : JobRun} {q : InMemoryQueue} {shared : Shared}

/-- With nothing in hand and nothing in the queue, only tasks that were never queued are left. -/
theorem settled (diligent : run.Diligent jobId q) (deciding : run.pc = .deciding) {now : DateTime}
    (shallow : (q.statistics now).depth = 0) {task : TaskId} {state : TaskState}
    (found : run.handle.graph.stateOf task = some state) : state.isFresh = true ∨ state.isTerminal = true := by
  have idle : ¬ q.HasReady task := by
    rintro ⟨entry, member, _⟩
    have visible := q.ready.countP_le_length (p := fun task => task.isVisible now)
    have present := List.length_pos_of_mem member
    simp only [statistics, QueueStats.depth] at shallow
    omega
  have resting := diligent.lawful.resting task state found
  have unleased : state.isLeasable = false := by
    cases leasable : state.isLeasable with
    | false => rfl
    | true =>
      refine absurd (diligent.kept.ready diligent.sound (by rw [deciding]; rfl) (by rw [deciding]; rfl) ?_) idle
      simp [TaskGraph.isLeasable, found, leasable]
  have unstarted : state ≠ .running := by
    rintro rfl
    obtain ⟨dispatch, member, _⟩ := diligent.inHand task found
    rw [deciding] at member
    cases member
  cases state <;> simp_all [TaskState.isResting, TaskState.isLeasable, TaskState.isFresh, TaskState.isTerminal]

/-- What is left then stands behind a task that was given up. -/
theorem exists_stranded (diligent : run.Diligent jobId q) (deciding : run.pc = .deciding) {now : DateTime}
    (shallow : (q.statistics now).depth = 0)
    (unfinished : ∃ task state, run.handle.graph.stateOf task = some state ∧ state.isTerminal = false) :
    run.handle.graph.blockedByAbandoned ≠ [] := by
  rcases diligent.navigable.ready_or_blocked
    (fun _ _ found => diligent.settled deciding shallow found) unfinished with
    ready | blocked
  · exact absurd (diligent.barren (by rw [deciding]; rfl)) ready
  · exact blocked

/-- `make_progress_possible` returns true as long as a task is unfinished. -/
theorem decides (diligent : run.Diligent jobId shared.queue) (deciding : run.pc = .deciding)
    (unfinished : ∃ task state, run.handle.graph.stateOf task = some state ∧ state.isTerminal = false) :
    (Engine.step config toposort input run shared).1.pc = .top := by
  simp only [Engine.step, deciding]
  split
  · rfl
  · rename_i shallow
    have stranded := diligent.exists_stranded deciding (Nat.eq_zero_of_not_pos shallow) unfinished
    have abandons : Succeeds (Engine.abandonStranded config input.now) run.handle _ :=
      Engine.abandonStranded_ends diligent.lawful.resting
    rcases Engine.exec_cases run abandons with ⟨pc, h', ran, _, next⟩ | ⟨e, h', ran, never⟩
    · rw [ran]
      exact (next.resolve_left (fun none => stranded none.1)).2
    · exact never.elim

/-- The operator and the order of the map do not touch what the engine relies on. -/
theorem steered (diligent : run.Diligent jobId q) {h : JobHandle} (steers : Cluster.Steers run.handle h) :
    { run with handle := h }.Diligent jobId q := by
  have navigable := moves_navigable steers.moves diligent.navigable
  have extends_ := moves_extends steers.moves
  exact
    { sound := steers.sound diligent.sound
      lawful := Cluster.lawful_steered steers diligent.lawful
      navigable := navigable
      own := diligent.own_moved extends_
      keys := diligent.keys_moved extends_
      unlimited := by
        unfold Job.Unlimited
        rw [steers.job]
        exact diligent.unlimited
      queue := diligent.queue
      seen := fun _ member => diligent.seen_moved steers.moves member
      solo := diligent.solo.steered steers
      kept := steers.kept diligent.kept
      calm := diligent.calm
      inHand := fun task running => diligent.inHand task ((steers.states task).symm.trans running)
      pending := diligent.pending
      drops := by
        intro leaseId left dispatches promoted lease dropping held
        unfold TaskGraph.isLeasable
        rw [steers.states]
        exact diligent.drops leaseId left dispatches promoted lease dropping held
      barren := by
        intro barren
        have before := diligent.barren barren
        refine List.eq_nil_iff_forall_not_mem.mpr ?_
        intro task member
        obtain ⟨node, found, waiting, unblocked⟩ := navigable.mem_ready.mp member
        have listed : task ∈ run.handle.graph.ready := by
          refine diligent.navigable.mem_ready.mpr ⟨node, (steers.nodes task).symm.trans found, waiting, ?_⟩
          intro dependency depends
          exact (steers.states dependency).symm.trans (unblocked dependency depends)
        rw [before] at listed
        cases listed }

/-- The queue is the same up to the order of its leases. -/
theorem requeue (diligent : run.Diligent jobId q) {q' : InMemoryQueue} (solo : run.Solo q')
    (carries : q'.Carries (QueuedTask.Belongs jobId)) (ready : q'.ready = q.ready)
    (leases : ∀ leaseId, q'.leases.get? leaseId = q.leases.get? leaseId) (seen : q'.seen = q.seen) :
    run.Diligent jobId q' :=
  { diligent with
    queue := carries
    seen := by
      rw [seen]
      exact diligent.seen
    solo := solo
    kept := diligent.kept.passes diligent.sound (Cluster.passes_of_same ready leases) (fun _ _ => id) (by simp)
    pending := by
      intro leaseId pending
      rw [leases]
      exact diligent.pending leaseId pending
    drops := by
      intro leaseId left dispatches promoted lease dropping held
      rw [leases] at held
      exact diligent.drops leaseId left dispatches promoted lease dropping held }

end JobRun.Diligent

/-- A planned job that nothing limits, over any graph that can be built: its tasks have
keys of their own, and each of them has yet to be queued or has ended before. -/
structure JobHandle.Poised (toposort : DiGraph TaskId → Except Nat (List Nat)) (jobId : JobId)
    (h : JobHandle) : Prop where
  built : h.graph.Built toposort
  own : h.graph.jobId = jobId ∧ ∀ task node, h.graph.get task = some node → node.jobId = jobId
  keys : h.graph.KeysDistinct
  untouched : ∀ task state, h.graph.stateOf task = some state → state.isFresh = true ∨ state.isTerminal = true
  status : h.job.status = .planning
  unlimited : h.job.Unlimited

theorem JobHandle.Poised.diligent {toposort : DiGraph TaskId → Except Nat (List Nat)}
    (detects : Detects toposort) {jobId : JobId} {h : JobHandle} (poised : h.Poised toposort jobId) :
    (JobRun.new h).Diligent jobId .new where
  sound := sound_idle h
  lawful := by
    refine ⟨?_, Or.inl poised.status, by simp [JobRun.new]⟩
    intro task state found
    rcases poised.untouched task state found with fresh | terminal
    · cases state <;> simp_all [TaskState.isFresh, TaskState.isResting]
    · exact TaskState.isResting_of_terminal terminal
  navigable := poised.built.navigable detects
  own := poised.own
  keys := poised.keys
  unlimited := poised.unlimited
  queue := by
    refine ⟨?_, ?_⟩
    · intro entry member
      cases member
    · intro leaseId lease found
      cases found
  seen := by
    intro key member
    cases member
  solo := .of_idle (by intro entry member; cases member) rfl h
  kept := by
    refine JobRun.kept_new ?_ _
    intro task
    cases found : h.graph.stateOf task with
    | none => simp [TaskGraph.isLeasable, found]
    | some state =>
      rcases poised.untouched task state found with fresh | terminal <;>
        cases state <;> simp_all [TaskGraph.isLeasable, TaskState.isFresh, TaskState.isTerminal, TaskState.isLeasable]
  calm := by simp [JobRun.new]
  inHand := by
    intro task running
    rcases poised.untouched task .running running with fresh | terminal
    · cases fresh
    · cases terminal
  pending := by simp [JobRun.new, Pc.pending]
  drops := by simp [JobRun.new]
  barren := by simp [JobRun.new, Pc.isBarren]

namespace Cluster
variable {config : CoordinatorConfig} {tools : TextTools}
  {toposort : DiGraph TaskId → Except Nat (List Nat)} {c : Cluster} {jobId : JobId}

/-- Only this job uses the queue, it is not cancelled, and the process goes on. -/
structure Tended (jobId : JobId) (c : Cluster) (event : Event) : Prop where
  sole : c.Sole jobId event
  uncancelled : ∀ run, c.jobs.get? jobId = some run → run.handle.control ≠ .cancelled
  lasting : ∀ journal, event ≠ .restart journal

/-- The engine of the job is diligent. -/
def Watched (c : Cluster) (jobId : JobId) : Prop :=
  ∃ run, c.jobs.get? jobId = some run ∧ run.Diligent jobId c.shared.queue

theorem Watched.steered {c' : Cluster} (watched : c.Watched jobId) {other : JobId} (steered : Steered c c' other) :
    c'.Watched jobId := by
  rcases steered with rfl | ⟨run, h, found, steers, rfl⟩
  · exact watched
  · obtain ⟨mine, present, diligent⟩ := watched
    by_cases same : jobId = other
    · subst same
      rw [found] at present
      cases present
      exact ⟨_, Dict.get?_insert_self, diligent.steered steers⟩
    · exact ⟨mine, by rw [Dict.get?_insert_of_ne same]; exact present, diligent⟩

theorem Watched.submit (watched : c.Watched jobId) {submission : Submission} {nodes : Dict TaskId TaskNode}
    (possible : c.Possible config tools toposort (.submit submission nodes)) :
    (c.submit config tools toposort submission nodes).Watched jobId := by
  obtain ⟨run, found, diligent⟩ := watched
  obtain ⟨fresh, _, _⟩ := possible
  unfold Cluster.submit
  split
  · exact ⟨run, found, diligent⟩
  · rename_i job graph planned
    rw [← (submission.plan_ok planned).1] at fresh
    refine ⟨run, ?_, diligent⟩
    rw [Dict.get?_insert_of_ne]
    · exact found
    · rintro rfl
      rw [fresh] at found
      cases found

theorem Watched.apply (watched : c.Watched jobId) {event : Event} (possible : c.Possible config tools toposort event)
    (tended : c.Tended jobId event) : (c.apply config tools toposort event).Watched jobId := by
  cases event with
  | submit submission nodes => exact watched.submit possible
  | engine other input =>
    obtain ⟨rfl, unused, fresh⟩ := tended.sole other input rfl
    obtain ⟨run, found, diligent⟩ := watched
    refine ⟨(Engine.step config toposort input run c.shared).1, ?_, ?_⟩
    · simp only [Cluster.apply, Cluster.engine, found]
      exact Dict.get?_insert_self
    · simp only [Cluster.apply, Cluster.engine, found]
      exact diligent.step (tended.uncancelled run found) (answered_of_possible possible found) ⟨unused,
        fresh run found⟩
  | pause other => exact watched.steered (apply_steered possible (Or.inl rfl))
  | resume other => exact watched.steered (apply_steered possible (Or.inr (Or.inl rfl)))
  | cancel other => exact watched.steered (apply_steered possible (Or.inr (Or.inr (Or.inl rfl))))
  | rehash other nodes => exact watched.steered (apply_steered possible (Or.inr (Or.inr (Or.inr ⟨nodes, rfl⟩))))
  | purge other =>
    obtain ⟨run, found, diligent⟩ := watched
    have different : jobId ≠ other := by
      rintro rfl
      exact tended.uncancelled run found (possible run found)
    obtain ⟨ready, leases⟩ := purgeJob_other (carries_mono diligent.queue
      (fun entry belongs same => different (belongs.1.symm.trans same)))
    exact ⟨run, found,
      diligent.requeue (diligent.solo.purgeJob diligent.sound other) (diligent.queue.purgeJob other) ready
      leases rfl⟩
  | rehashLeases leases =>
    obtain ⟨run, found, diligent⟩ := watched
    have moved : c.shared.queue.leases.Rehash leases := possible
    have same : ∀ leaseId, leases.get? leaseId = c.shared.queue.leases.get? leaseId :=
      fun leaseId => (moved.get? leaseId).symm
    refine ⟨run, found, diligent.requeue (diligent.solo.rehash diligent.sound moved) ⟨diligent.queue.ready,
      ?_⟩ rfl same rfl⟩
    intro leaseId lease held
    exact diligent.queue.leases leaseId lease ((same leaseId).symm.trans held)
  | restart journal => exact absurd rfl (tended.lasting journal)

theorem Runs.watched {first : Cluster} (start : first.Watched jobId)
    (runs : Runs config tools toposort (Tended jobId) first c) :
    c.Watched jobId := by
  induction runs with
  | start => exact start
  | next _ possible tended ih => exact ih.apply possible tended

end Cluster

/-- Two tasks, one behind the other. -/
def relay : TaskGraph :=
  ((TaskGraph.new ⟨1⟩).place (.new ⟨10⟩ ⟨1⟩ .work "draft" "write a draft" 0)).place
    { TaskNode.new ⟨11⟩ ⟨1⟩ .work "edit" "edit the draft" 1 with dependencies := [⟨10⟩] }

def relayJob : JobHandle := .planned { Job.new ⟨1⟩ ⟨0⟩ (.new "do it") 0 with status := .planning } relay

def relayed : Cluster := ⟨Dict.empty.insert ⟨1⟩ (.new relayJob), ⟨.new, 0⟩⟩

end Swarm
