import Swarm.Coordinator.Fates
import Swarm.Coordinator.Sharing
import Swarm.Coordinator.Turns
import Swarm.Domain.Navigation

namespace Swarm
open InMemoryQueue

/-- No two tasks of the graph have the same key. -/
def TaskGraph.KeysDistinct (g : TaskGraph) : Prop :=
  ∀ task task' node node', g.get task = some node → g.get task' = some node' →
    node.idempotencyKey = node'.idempotencyKey → task = task'

/-- The entry is of this job. -/
def QueuedTask.Belongs (jobId : JobId) (entry : QueuedTask) : Prop :=
  entry.jobId = jobId ∧ entry.payload.jobId = jobId

theorem QueuedTask.belongs_stable (jobId : JobId) : QueuedTask.Stable (QueuedTask.Belongs jobId) :=
  fun _ _ _ belongs => belongs

/-- What an engine that has the queue to itself keeps up: it knows of everything that
waits, runs or is leased, and a tick that found nothing to queue has left nothing to queue. -/
structure JobRun.Diligent (jobId : JobId) (q : InMemoryQueue) (run : JobRun) : Prop where
  sound : run.Sound
  lawful : run.Lawful
  navigable : run.handle.graph.Navigable
  own : run.handle.graph.jobId = jobId ∧ ∀ task node, run.handle.graph.get task = some node → node.jobId = jobId
  keys : run.handle.graph.KeysDistinct
  unlimited : run.handle.job.Unlimited
  queue : q.Carries (QueuedTask.Belongs jobId)
  seen : ∀ key ∈ q.seen, ∃ task node attempt, run.handle.graph.get task = some node ∧ node.state.isFresh = false ∧
    key = { node with attempt := attempt }.attemptKey
  solo : run.Solo q
  kept : run.Kept q
  calm : run.pc ≠ .cancelling
  inHand : ∀ task, run.handle.graph.stateOf task = some .running →
    ∃ dispatch ∈ run.pc.dispatches, dispatch.task.id = task
  pending : ∀ leaseId, run.pc.pending = some leaseId → (q.leases.get? leaseId).isSome = true
  drops : ∀ leaseId left dispatches promoted lease, run.pc = .dropping leaseId left dispatches promoted →
    q.leases.get? leaseId = some lease → run.handle.graph.isLeasable lease.task.payload.id = false
  barren : run.pc.isBarren = true → run.handle.graph.ready = []

theorem moves_topology {h h' : JobHandle} (moves : Moves h h') :
    h'.graph.graph = h.graph.graph ∧ h'.graph.index = h.graph.index := by
  induction moves with
  | refl => exact ⟨rfl, rfl⟩
  | tail _ last ih =>
    cases last with
    | quiet same => rw [same.graph]; exact ih
    | _ => exact ih

theorem moves_request {h h' : JobHandle} (moves : Moves h h') : h'.job.request = h.job.request := by
  induction moves with
  | refl => rfl
  | tail _ last ih =>
    cases last with
    | quiet same => rw [same.job]; exact ih
    | _ => exact ih

theorem moves_navigable {h h' : JobHandle} (moves : Moves h h') (navigable : h.graph.Navigable) :
    h'.graph.Navigable := by
  refine navigable.regraph ?_ (moves_extends moves).blanks
  intro task
  unfold TaskGraph.dependents
  rw [(moves_topology moves).1, (moves_topology moves).2]

/-- The task as it was before. -/
theorem JobHandle.Extends.before {h h' : JobHandle} (extends_ : Extends h h') {task : TaskId} {node' : TaskNode}
    (found : h'.graph.get task = some node') : ∃ node, h.graph.get task = some node ∧ node.blank = node'.blank := by
  have same := extends_.blanks task
  rw [found] at same
  exact Option.map_eq_some_iff.mp same.symm

namespace JobRun.Diligent
variable {config : CoordinatorConfig} {toposort : DiGraph TaskId → Except Nat (List Nat)} {jobId : JobId}
  {input : EngineInput} {run run' : JobRun} {q q' : InMemoryQueue} {shared : Shared}

theorem own_moved (diligent : run.Diligent jobId q) {h : JobHandle} (extends_ : run.handle.Extends h) :
    h.graph.jobId = jobId ∧ ∀ task node, h.graph.get task = some node → node.jobId = jobId := by
  refine ⟨extends_.jobId.trans diligent.own.1, ?_⟩
  intro task node' found
  obtain ⟨node, known, blanks⟩ := extends_.before found
  have same : node.blank.jobId = node'.blank.jobId := congrArg TaskNode.jobId blanks
  exact Eq.trans same.symm (diligent.own.2 task node known)

theorem keys_moved (diligent : run.Diligent jobId q) {h : JobHandle} (extends_ : run.handle.Extends h) :
    h.graph.KeysDistinct := by
  intro task task' node node' found found' same
  obtain ⟨old, known, blanks⟩ := extends_.before found
  obtain ⟨old', known', blanks'⟩ := extends_.before found'
  refine diligent.keys task task' old old' known known' ?_
  have left : old.blank.idempotencyKey = node.blank.idempotencyKey := congrArg TaskNode.idempotencyKey blanks
  have right : old'.blank.idempotencyKey = node'.blank.idempotencyKey := congrArg TaskNode.idempotencyKey blanks'
  exact Eq.trans left (same.trans right.symm)

theorem seen_moved (diligent : run.Diligent jobId q) {h : JobHandle} (moves : Moves run.handle h) {key : String}
    (member : key ∈ q.seen) : ∃ task node attempt, h.graph.get task = some node ∧ node.state.isFresh = false ∧
      key = { node with attempt := attempt }.attemptKey := by
  obtain ⟨task, node, attempt, found, queued, rfl⟩ := diligent.seen key member
  obtain ⟨node', known, queued', blanks⟩ := queued_moves moves found queued
  have sameKey : node'.idempotencyKey = node.idempotencyKey := by simpa using congrArg TaskNode.idempotencyKey blanks
  refine ⟨task, node', attempt, known, queued', ?_⟩
  unfold TaskNode.attemptKey
  rw [sameKey]

/-- Whatever the engine relies on to keep its entries is there. -/
theorem undisturbed (diligent : run.Diligent jobId q) (moves : Moves run.handle run'.handle)
    (fresh : q.leases.get? input.leaseId = none ∧ input.leaseId ∉ run.pc.leaseIds)
    (ended : ∀ answer, run.pc = .returned answer → run.handle.job.status = .running →
      (∃ answer, run'.pc = .returned answer) ∧ run'.handle.job.status = .running) : Undisturbed input run q run' := by
  refine ⟨diligent.solo.live, fresh, ?_, ?_, ?_, ended⟩
  · intro task rest queued node old _ found known isFresh member
    obtain ⟨task', node', attempt, there, promoted, key⟩ := diligent.seen _ member
    obtain ⟨earlier, before, blanks⟩ := (moves_extends moves).before found
    have sameKey : earlier.blank.idempotencyKey = node.blank.idempotencyKey := congrArg TaskNode.idempotencyKey blanks
    have theirs := attemptKey_inj key
    have same := diligent.keys task task' earlier node' before there (Eq.trans sameKey theirs)
    rw [← same, before] at there
    cases there
    simp only [TaskGraph.stateOf, before, Option.map_some, Option.some.injEq] at known
    rw [← known, promoted] at isFresh
    cases isFresh
  · intro left dispatches promoted entry rest _ picked
    have ready : q.HasReady entry.payload.id := ⟨entry, (pick_some picked).1.mem_iff.mpr List.mem_cons_self, rfl⟩
    cases leasable : run.handle.graph.isLeasable entry.payload.id with
    | true => exact Or.inl rfl
    | false =>
      refine Or.inr ⟨leasable, ?_⟩
      intro dispatch member same
      rcases diligent.solo.held dispatch member with held | ⟨_, gone⟩
      · rw [← same, (diligent.sound.dispatched dispatch member).2.2] at ready
        exact not_ready_of_lease diligent.solo.single held ready
      · rw [← same] at ready
        exact gone (mem_subjects.mpr (Or.inl ready))
  · intro leaseId left dispatches promoted lease dropping held
    refine ⟨diligent.drops _ _ _ _ _ dropping held, ?_⟩
    exact diligent.solo.pending leaseId lease (by rw [dropping]; rfl) held

/-- No step within a tick ends the run: a lease that is given back is still there. -/
theorem goes_on (diligent : run.Diligent jobId shared.queue) (ticking : run.pc.isTicking = true) {e : SwarmError}
    (exit : Exit config toposort input run shared e) : False := by
  cases exit with
  | unanswered inactive _ _ => cases here : run.pc <;> simp [here, Pc.isActive, Pc.isTicking] at inactive ticking
  | barred inactive _ => cases here : run.pc <;> simp [here, Pc.isActive, Pc.isTicking] at inactive ticking
  | cyclic inactive _ => cases here : run.pc <;> simp [here, Pc.isActive, Pc.isTicking] at inactive ticking
  | refused here => simp [here, Pc.isTicking] at ticking
  | exhausted here _ => simp [here, Pc.isTicking] at ticking
  | lost here gone =>
    have held := diligent.pending _ (by rw [here]; rfl)
    rw [gone] at held
    cases held

/-- What runs after a step is in hand after it. -/
theorem inHand_stepped (diligent : run.Diligent jobId q) (effect : Effect input run run' q q')
    (turns : Turns input run shared run') (unstopped : run.pc.isTicking = true → ∀ answer, run'.pc ≠ .returned answer)
    (calm : run'.pc ≠ .cancelling)
    (settled : ∀ dispatch outcome rest, run.pc = .applying ((dispatch, outcome) :: rest) →
      run'.handle.graph.stateOf dispatch.task.id ≠ some .running) {task : TaskId}
        (running : run'.handle.graph.stateOf task = some .running) :
    ∃ dispatch ∈ run'.pc.dispatches, dispatch.task.id = task := by
  have before : run'.handle.graph = run.handle.graph → run.pc.isTicking = false → False := by
    intro graph outside
    rw [graph] at running
    obtain ⟨dispatch, member, _⟩ := diligent.inHand task running
    cases here : run.pc <;> simp [here, Pc.isTicking, Pc.dispatches] at outside member
  cases ticking : run.pc.isTicking with
  | false => exact (before (turns.still ticking diligent.calm) ticking).elim
  | true =>
    have kept : run'.handle.graph = run.handle.graph → ∃ dispatch ∈ run'.pc.dispatches, dispatch.task.id = task := by
      intro graph
      rw [graph] at running
      obtain ⟨dispatch, member, same⟩ := diligent.inHand task running
      exact ⟨dispatch, turns.hand graph (unstopped ticking) calm member, same⟩
    cases effect with
    | steady _ graph => exact kept graph
    | stopped _ _ next => exact absurd next (unstopped ticking _)
    | promoted _ _ promoting next touches _ _ _ =>
      rw [touches.states] at running
      split at running
      · cases running
      · obtain ⟨dispatch, member, _⟩ := diligent.inHand task running
        rw [promoting] at member
        cases member
    | @started _ lease _ _ dispatches dispatch _ collecting _ _ touches _ next sameTask _ =>
      rw [touches.states] at running
      split at running
      · rename_i same
        refine ⟨dispatch, by rw [next]; exact List.mem_append_right _ (List.mem_singleton_self _), ?_⟩
        rw [sameTask, same]
      · obtain ⟨other, member, same⟩ := diligent.inHand task running
        rw [collecting] at member
        exact ⟨other, by rw [next]; exact List.mem_append_left _ member, same⟩
    | refused _ _ _ graph _ => exact kept graph
    | declined _ _ _ same _ => exact kept (by rw [same])
    | dropped _ same _ => exact kept (by rw [same])
    | released _ _ same _ => exact kept (by rw [same])
    | @applied dispatch _ rest _ state _ applying next _ touches _ =>
      by_cases other : task = dispatch.task.id
      · rw [other] at running
        exact absurd running (settled _ _ _ applying)
      · rw [touches.states, if_neg other] at running
        obtain ⟨found, member, same⟩ := diligent.inHand task running
        rw [applying] at member
        rcases List.mem_cons.mp member with first | later
        · exact absurd (by rw [← same, first]) other
        · exact ⟨found, by rw [next]; exact later, same⟩
    | retired deciding retires next =>
      rcases retires.states task with same | ⟨state, now, terminal⟩
      · rw [same] at running
        obtain ⟨dispatch, member, _⟩ := diligent.inHand task running
        rw [deciding] at member
        cases member
      · rw [now] at running
        cases running
        cases terminal
    | cancelled cancelling => exact absurd cancelling diligent.calm

theorem pending_stepped (diligent : run.Diligent jobId q) (effect : Effect input run run' q q') {leaseId : LeaseId}
    (pending : run'.pc.pending = some leaseId) : (q'.leases.get? leaseId).isSome = true := by
  have granted : ∀ {worker : String} {lease : TaskLease}, q.dequeueFrom worker [] [] input.now input.leaseId =
      (some lease, q') →
      lease.leaseId = leaseId → (q'.leases.get? leaseId).isSome = true := by
    intro worker lease polled same
    obtain ⟨_, _, _, _, id, _, _, leases, _⟩ := dequeueFrom_some polled
    rw [← same, id, leases, Dict.get?_insert_self]
    rfl
  cases effect with
  | steady _ _ _ _ after => rw [after] at pending; cases pending
  | stopped _ _ next => rw [next] at pending; cases pending
  | promoted _ _ _ next => rw [next] at pending; cases pending
  | started _ _ _ _ _ next => rw [next] at pending; cases pending
  | refused _ polled _ _ next =>
    rw [next] at pending
    exact granted polled (Option.some.inj pending)
  | declined _ polled _ _ next =>
    rw [next] at pending
    exact granted polled (Option.some.inj pending)
  | dropped _ _ next => rw [next] at pending; cases pending
  | @released _ dispatches promoted _ _ _ _ next =>
    rw [next, (Engine.collected_dispatches run.handle dispatches promoted).2.1] at pending
    cases pending
  | applied _ next _ _ _ => rw [next] at pending; cases pending
  | retired _ _ next => rcases next with here | here <;> rw [here] at pending <;> cases pending
  | cancelled cancelling => exact absurd cancelling diligent.calm

theorem drops_stepped (diligent : run.Diligent jobId q) (effect : Effect input run run' q q')
    {leaseId : LeaseId} {left : Nat} {dispatches : List Dispatch} {promoted : Nat} {lease : TaskLease}
    (dropping : run'.pc = .dropping leaseId left dispatches promoted) (held : q'.leases.get? leaseId = some lease) :
    run'.handle.graph.isLeasable lease.task.payload.id = false := by
  obtain ⟨worker, polledLease, _, polled, rfl, useless, same⟩ :=
    Cluster.dropping_declined effect diligent.calm dropping
  obtain ⟨_, _, _, _, id, _, _, leases, _⟩ := dequeueFrom_some polled
  rw [id, leases, Dict.get?_insert_self] at held
  cases held
  rw [same]
  exact useless

/-- As long as a tick has queued and started nothing, the graph is as it was when the tick was planned. -/
theorem barren_stepped (diligent : run.Diligent jobId q) (effect : Effect input run run' q q')
    (turns : Turns input run shared run') (barren : run'.pc.isBarren = true) : run'.handle.graph.ready = [] := by
  have kept : run'.handle.graph = run.handle.graph → run'.handle.graph.ready = [] := by
    intro graph
    rw [graph]
    rcases turns.barren barren with before | ⟨_, planned⟩
    · exact diligent.barren before
    · rw [planned] at barren
      cases todo : run.handle.graph.ready with
      | nil => rfl
      | cons _ _ =>
        rw [todo] at barren
        cases barren
  cases effect with
  | steady _ graph => exact kept graph
  | stopped _ _ next => rw [next] at barren; cases barren
  | @promoted _ rest _ _ _ _ _ _ next =>
    rw [next] at barren
    cases rest <;> cases barren
  | started _ _ _ _ _ next =>
    rw [next] at barren
    have none := (Pc.isBarren_collecting.mp barren).1
    simp at none
  | refused _ _ _ graph _ => exact kept graph
  | declined _ _ _ same _ => exact kept (by rw [same])
  | dropped _ same _ => exact kept (by rw [same])
  | released _ _ same _ => exact kept (by rw [same])
  | applied _ next _ _ _ => rw [next] at barren; cases barren
  | retired _ _ next => rcases next with here | here <;> rw [here] at barren <;> cases barren
  | cancelled cancelling => exact absurd cancelling diligent.calm

/-- Whatever is delivered to the engine and known to it is its own. -/
theorem owned (diligent : run.Diligent jobId q) : q.Carries (fun entry =>
    (run.handle.graph.get entry.payload.id).isSome = true → entry.payload.jobId = run.handle.graph.jobId) := by
  refine Cluster.carries_mono diligent.queue ?_
  intro entry belongs _
  exact belongs.2.trans diligent.own.1.symm

/-- The engine stays diligent, whatever the executions come to. -/
theorem step (diligent : run.Diligent jobId shared.queue) (uncancelled : run.handle.control ≠ .cancelled)
    (answered : Engine.Answered input run.pc)
    (fresh : shared.queue.leases.get? input.leaseId = none ∧ input.leaseId ∉ run.pc.leaseIds) :
    (Engine.step config toposort input run shared).1.Diligent jobId
      (Engine.step config toposort input run shared).2.queue := by
  have stepped : Stepped input run shared.queue (Engine.step config toposort input run shared).1
      (Engine.step config toposort input run shared).2.queue :=
    Engine.step_stepped diligent.sound diligent.navigable diligent.owned answered
  have proceeds : Proceeds config toposort input run shared (Engine.step config toposort input run shared).1 :=
    Engine.step_proceeds diligent.sound diligent.lawful diligent.navigable
  have turns : Turns input run shared (Engine.step config toposort input run shared).1 :=
    Engine.step_turns diligent.sound diligent.lawful.resting diligent.unlimited uncancelled answered
  have settled : ∀ dispatch outcome rest, run.pc = .applying ((dispatch, outcome) :: rest) →
      (Engine.step config toposort input run shared).1.handle.graph.stateOf dispatch.task.id ≠ some .running := by
    intro dispatch outcome rest applying
    obtain ⟨h', same, sets⟩ := Engine.step_applying config toposort input shared diligent.sound applying
    rw [same, show _ = _ from sets.self]
    exact fun running => settledState_ne_running _ _ _ _ (Option.some.inj running)
  have ended : ∀ answer, run.pc = .returned answer → run.handle.job.status = .running →
      (∃ answer, (Engine.step config toposort input run shared).1.pc = .returned answer) ∧
        (Engine.step config toposort input run shared).1.handle.job.status = .running :=
    fun _ here running => Engine.step_ended here running shared
  generalize Engine.step config toposort input run shared = after at stepped proceeds turns settled ended
  obtain ⟨run', shared'⟩ := after
  have extends_ := moves_extends stepped.moves
  have navigable := moves_navigable stepped.moves diligent.navigable
  have keyed : ∀ task node, run'.handle.graph.get task = some node → node.id = task :=
    fun _ _ found => navigable.keyed found
  have own := diligent.own_moved extends_
  have calm : run'.pc ≠ .cancelling := by
    intro here
    rcases stepped.cancelling here with before | cancelled
    · exact diligent.calm before
    · exact uncancelled cancelled
  have unstopped : run.pc.isTicking = true → ∀ answer, run'.pc ≠ .returned answer := by
    intro ticking answer here
    rcases turns.leaves (Pc.isLooping_of_ticking ticking) with looping | leaves
    · rw [here] at looping
      cases looping
    · cases leaves with
      | complete next => rw [here] at next; cases next
      | stuck _ _ _ next => rw [here] at next; cases next
      | failed failed => exact diligent.goes_on ticking (proceeds.exits _ failed)
  exact
    { sound := stepped.sound
      lawful := proceeds.lawful
      navigable := navigable
      own := own
      keys := diligent.keys_moved extends_
      unlimited := by
        unfold Job.Unlimited
        rw [moves_request stepped.moves]
        exact diligent.unlimited
      queue := stepped.queue.carries (QueuedTask.belongs_stable jobId) diligent.queue
        (fun task node _ _ found => ⟨own.2 task node found, own.2 task node found⟩)
      seen := by
        intro key member
        rcases stepped.queue.seen diligent.solo.live member with old | ⟨task, node, found, queued, rfl⟩
        · exact diligent.seen_moved stepped.moves old
        · exact ⟨task, node, node.attempt, found, queued, rfl⟩
      solo := diligent.solo.stepped diligent.sound stepped keyed fresh
      kept := diligent.kept.stepped diligent.sound diligent.calm stepped keyed
        (diligent.undisturbed stepped.moves fresh ended)
      calm := calm
      inHand := fun _ running => diligent.inHand_stepped stepped.effect turns unstopped calm settled running
      pending := fun _ pending => diligent.pending_stepped stepped.effect pending
      drops := fun _ _ _ _ _ dropping held => diligent.drops_stepped stepped.effect dropping held
      barren := fun barren => diligent.barren_stepped stepped.effect turns barren }

end JobRun.Diligent

end Swarm
