import Swarm.Coordinator.Isolation

namespace Swarm
open InMemoryQueue

/-- The queue has a ready entry or a live lease for the task of a job. -/
def InMemoryQueue.Holds (q : InMemoryQueue) (jobId : JobId) (task : TaskId) : Prop :=
  (∃ entry ∈ q.ready, entry.jobId = jobId ∧ entry.payload.id = task) ∨
    ∃ leaseId lease, q.leases.get? leaseId = some lease ∧ lease.state.isActive = true ∧ lease.task.jobId = jobId ∧
      lease.task.payload.id = task

namespace Cluster

/-- At every tick boundary, each task that waits for a lease is in the queue. -/
def TasksHeld (c : Cluster) : Prop :=
  ∀ jobId run task, c.jobs.get? jobId = some run → run.pc = .top → run.handle.graph.isLeasable task = true →
    c.shared.queue.Holds jobId task

/-- The job has finished. -/
def Over (c : Cluster) (jobId : JobId) : Prop :=
  ∃ run, c.jobs.get? jobId = some run ∧ run.handle.job.status.isFinished = true

/-- An entry that the next step of an engine acknowledges or rejects belongs to no other unfinished job. -/
def SettlesOwn (c : Cluster) : Prop :=
  ∀ jobId run leaseId lease, c.jobs.get? jobId = some run → run.pc.settling = some leaseId →
    c.shared.queue.leases.get? leaseId = some lease → lease.task.jobId = jobId ∨ c.Over lease.task.jobId

/-- No attempt of a task shares its key with an attempt of another task. -/
def KeysApart (c : Cluster) : Prop :=
  ∀ jobId jobId' run run' task task' node node' attempt attempt', c.jobs.get? jobId = some run →
    c.jobs.get? jobId' = some run' → run.handle.graph.get task = some node →
      run'.handle.graph.get task' = some node' →
    task ≠ task' → { node with attempt := attempt }.attemptKey ≠ { node' with attempt := attempt' }.attemptKey

/-- No job is cancelled, attempt keys are distinct and lease identifiers are fresh. -/
structure Assumed (c : Cluster) (event : Event) : Prop where
  uncancelled : ∀ jobId run, c.jobs.get? jobId = some run → run.handle.control ≠ .cancelled
  keys : c.KeysApart
  lease : ∀ jobId input, event = .engine jobId input → c.shared.queue.leases.get? input.leaseId = none ∧
    ∀ other run, c.jobs.get? other = some run → input.leaseId ∉ run.pc.leaseIds

/-- The entry an engine polls is of its own job, for a task that is not already
in flight, or of a job that has finished. -/
def PollsOwn (c : Cluster) (event : Event) : Prop :=
  ∀ jobId input run left dispatches promoted entry rest, event = .engine jobId input → c.jobs.get? jobId = some run →
    run.pc = .collecting (left + 1) dispatches promoted → c.shared.queue.pick input.now [] [] = some (entry, rest) →
    entry.jobId = jobId ∧ (run.handle.graph.stateOf entry.payload.id).any TaskState.isInFlight = false ∨
      c.Over entry.jobId

/-- The key of a task that has been queued. -/
def Enqueued (c : Cluster) (key : String) : Prop :=
  ∃ jobId run task node attempt, c.jobs.get? jobId = some run ∧ run.handle.graph.get task = some node ∧
    node.state.isFresh = false ∧ key = { node with attempt := attempt }.attemptKey

/-- Every job has what it needs in the queue, and nobody is about to take it away. -/
structure Isolated (c : Cluster) : Prop where
  sound : c.Sound
  live : c.shared.queue.LeasesLive
  seen : ∀ key ∈ c.shared.queue.seen, c.Enqueued key
  calm : ∀ jobId run, c.jobs.get? jobId = some run → run.pc ≠ .cancelling
  kept : ∀ jobId run, c.jobs.get? jobId = some run → run.Kept c.shared.queue
  drops : ∀ jobId run leaseId left dispatches promoted lease, c.jobs.get? jobId = some run →
    run.pc = .dropping leaseId left dispatches promoted → c.shared.queue.leases.get? leaseId = some lease →
    lease.task.jobId = jobId ∧ run.Spares lease.task.payload.id ∨ c.Over lease.task.jobId

variable {config : CoordinatorConfig} {tools : TextTools}
  {toposort : DiGraph TaskId → Except Nat (List Nat)} {c : Cluster}

theorem isolated_new : new.Isolated := by
  refine ⟨sound_new, ?_, ?_, ?_, ?_, ?_⟩
  · intro entry member
    cases member
  · intro key member
    cases member
  · intro _ _ found
    cases found
  · intro _ _ found
    cases found
  · intro _ _ _ _ _ _ _ found
    cases found

/-- A task of a finished job is no task of a job that goes on. -/
theorem Sound.not_over (sound : c.Sound) {jobId : JobId} {run : JobRun} (found : c.jobs.get? jobId = some run)
    (unfinished : run.handle.job.status.isFinished = false) {entry : QueuedTask} (genuine : c.Genuine entry)
    (ended : c.Over entry.jobId) : run.handle.graph.get entry.payload.id = none := by
  cases known : run.handle.graph.get entry.payload.id with
  | none => rfl
  | some node =>
    have mine := sound.owned found genuine (by rw [known]; rfl)
    obtain ⟨owner, present, finished⟩ := ended
    rw [genuine.1, mine, found] at present
    cases present
    rw [unfinished] at finished
    cases finished

theorem spares_of_unknown {run : JobRun} (sound : run.Sound) {task : TaskId}
    (unknown : run.handle.graph.get task = none) :
    run.Spares task := by
  refine ⟨by simp [TaskGraph.isLeasable, TaskGraph.stateOf, unknown], ?_⟩
  rintro dispatch member rfl
  have known := sound.known member
  rw [unknown] at known
  cases known

/-- What is settled next is an entry of the engine's own job, or of one that has finished. -/
theorem Isolated.settlesOwn (isolated : c.Isolated) : c.SettlesOwn := by
  intro jobId run leaseId lease found settling held
  have sound := isolated.sound.engines jobId run found
  cases here : run.pc with
  | dropping other left dispatches promoted =>
    rw [here] at settling
    cases settling
    exact (isolated.drops _ _ _ _ _ _ _ found here held).imp_left And.left
  | applying todo =>
    cases todo with
    | nil =>
      rw [here] at settling
      cases settling
    | cons entry rest =>
      obtain ⟨dispatch, outcome⟩ := entry
      rw [here] at settling
      cases settling
      have member : dispatch ∈ run.pc.dispatches := by
        rw [here]
        exact List.mem_cons_self
      rcases (isolated.kept jobId run found).backed dispatch member with backed | ⟨gone, _⟩
      · rw [held] at backed
        have genuine := isolated.sound.queue.leases _ _ held
        have known := sound.known member
        rw [(sound.dispatched dispatch member).2.2, ← Option.some.inj backed] at known
        exact Or.inl (genuine.1.trans (isolated.sound.owned found genuine known))
      · rw [held] at gone
        cases gone
  | _ =>
    rw [here] at settling
    cases settling

/-- Whatever a step takes out of the queue is of the engine's own job, or of one that has finished. -/
theorem Isolated.loses_own (isolated : c.Isolated) {jobId : JobId} {input : EngineInput} {run : JobRun}
    (found : c.jobs.get? jobId = some run) (polls : c.PollsOwn (.engine jobId input)) {task : TaskId}
    (loses : Loses input run c.shared.queue task) :
    ∃ entry, c.Genuine entry ∧ entry.payload.id = task ∧ (entry.jobId = jobId ∨ c.Over entry.jobId) := by
  cases loses with
  | @polled _ _ _ entry rest collecting picked =>
    have member : entry ∈ c.shared.queue.ready := (pick_some picked).1.mem_iff.mpr List.mem_cons_self
    exact ⟨entry, isolated.sound.queue.ready entry member, rfl,
      (polls _ _ _ _ _ _ _ _ rfl found collecting picked).imp_left And.left⟩
  | @settled leaseId lease settling held =>
    exact ⟨lease.task, isolated.sound.queue.leases _ _ held, rfl, isolated.settlesOwn _ _ _ _ found settling held⟩

/-- An unfinished job loses nothing through the engine of another. -/
theorem Isolated.not_lost (isolated : c.Isolated) {jobId other : JobId} {input : EngineInput} {run owner : JobRun}
    (found : c.jobs.get? jobId = some run) (polls : c.PollsOwn (.engine jobId input)) (different : other ≠ jobId)
    (present : c.jobs.get? other = some owner)
    (unfinished : owner.handle.job.status.isFinished = false) {task : TaskId}
    (known : (owner.handle.graph.get task).isSome = true) : ¬ Loses input run c.shared.queue task := by
  intro loses
  obtain ⟨entry, genuine, rfl, mine | ended⟩ := isolated.loses_own found polls loses
  · exact different ((isolated.sound.owned present genuine known).symm.trans (genuine.1.symm.trans mine))
  · rw [isolated.sound.not_over present unfinished genuine ended] at known
    cases known

/-- What the step of an engine relies on holds, as long as it polls entries of its own. -/
theorem Isolated.undisturbed (isolated : c.Isolated) {jobId : JobId} {input : EngineInput} {run : JobRun}
    (found : c.jobs.get? jobId = some run) (possible : c.Possible config tools toposort (.engine jobId input))
    (assumed : c.Assumed (.engine jobId input)) (polls : c.PollsOwn (.engine jobId input)) :
    JobRun.Undisturbed input run c.shared.queue (Engine.step config toposort input run c.shared).1 := by
  have sound := isolated.sound.engines jobId run found
  have stepped := isolated.sound.stepped found possible
  have freshLease := assumed.lease jobId input rfl
  refine ⟨isolated.live, ⟨freshLease.1, freshLease.2 jobId run found⟩, ?_, ?_, ?_, ?_⟩
  · intro task rest queued node old promoting present known fresh member
    obtain ⟨owner, other, task', node', attempt, known', present', queued', key⟩ := isolated.seen _ member
    obtain ⟨before, here, rfl⟩ := Option.map_eq_some_iff.mp known
    by_cases same : task = task'
    · subst same
      have mine :=
        isolated.sound.apart owner jobId other run task known' found (by rw [present']; rfl) (by rw [here]; rfl)
      rw [mine, found] at known'
      cases known'
      rw [here] at present'
      cases present'
      rw [fresh] at queued'
      cases queued'
    · have blanks := (moves_extends stepped.moves).blanks task
      rw [present, here] at blanks
      have sameKey : node.idempotencyKey = before.idempotencyKey := by
        simpa using congrArg TaskNode.idempotencyKey (Option.some.inj blanks)
      refine assumed.keys jobId owner run other task task' before node' node.attempt attempt found known' here
        present' same ?_
      rw [← key]
      unfold TaskNode.attemptKey
      rw [sameKey]
  · intro left dispatches promoted entry rest collecting picked
    have genuine := isolated.sound.queue.ready entry ((pick_some picked).1.mem_iff.mpr List.mem_cons_self)
    have live := sound.live (by rw [collecting]; rfl)
    rcases polls _ _ _ _ _ _ _ _ rfl found collecting picked with ⟨_, idle⟩ | ended
    · cases leasable : run.handle.graph.isLeasable entry.payload.id with
      | true => exact Or.inl rfl
      | false =>
        refine Or.inr ⟨leasable, ?_⟩
        intro dispatch member same
        rw [← same, (sound.dispatched dispatch member).1] at idle
        cases idle
    · exact Or.inr (spares_of_unknown sound (isolated.sound.not_over found live genuine ended))
  · intro leaseId left dispatches promoted lease dropping held
    have genuine := isolated.sound.queue.leases _ _ held
    have live := sound.live (by rw [dropping]; rfl)
    rcases isolated.drops _ _ _ _ _ _ _ found dropping held with ⟨_, spares⟩ | ended
    · exact spares
    · exact spares_of_unknown sound (isolated.sound.not_over found live genuine ended)
  · intro answer ended running
    exact Engine.step_ended ended running c.shared

/-- A finished job is still finished after it has gone on. -/
theorem Over.insert {shared : Shared} {jobId other : JobId} {run run' : JobRun} (found : c.jobs.get? jobId = some run)
    (moves : Moves run.handle run'.handle) (ended : c.Over other) :
    Over ⟨c.jobs.insert jobId run', shared⟩ other := by
  obtain ⟨owner, present, finished⟩ := ended
  by_cases same : other = jobId
  · rw [same, found] at present
    cases present
    exact ⟨run', by rw [same]; exact Dict.get?_insert_self, finished_moves moves finished⟩
  · exact ⟨owner, by rw [Dict.get?_insert_of_ne same]; exact present, finished⟩

theorem Enqueued.insert {shared : Shared} {jobId : JobId} {run run' : JobRun} (found : c.jobs.get? jobId = some run)
    (moves : Moves run.handle run'.handle) {key : String} (enqueued : c.Enqueued key) :
    Enqueued ⟨c.jobs.insert jobId run', shared⟩ key := by
  obtain ⟨owner, other, task, node, attempt, present, known, queued, rfl⟩ := enqueued
  by_cases same : owner = jobId
  · rw [same, found] at present
    cases present
    obtain ⟨node', known', queued', blanks⟩ := queued_moves moves known queued
    have sameKey : node'.idempotencyKey = node.idempotencyKey := by
      simpa using congrArg TaskNode.idempotencyKey blanks
    refine ⟨jobId, run', task, node', attempt, Dict.get?_insert_self, known', queued', ?_⟩
    unfold TaskNode.attemptKey
    rw [sameKey]
  · exact ⟨owner, other, task, node, attempt, by rw [Dict.get?_insert_of_ne same]; exact present, known, queued, rfl⟩

/-- Only a declined entry is dropped next, and it was polled with care. -/
theorem dropping_declined {input : EngineInput} {run run' : JobRun} {q q' : InMemoryQueue}
    (effect : Effect input run run' q q') (calm : run.pc ≠ .cancelling) {leaseId : LeaseId} {left : Nat}
    {dispatches : List Dispatch} {promoted : Nat} (dropping : run'.pc = .dropping leaseId left dispatches promoted) :
    ∃ worker lease, run.pc = .collecting (left + 1) dispatches promoted ∧
      q.dequeueFrom worker [] [] input.now input.leaseId = (some lease, q') ∧ leaseId = lease.leaseId ∧
      run.handle.graph.isLeasable lease.task.payload.id = false ∧ run'.handle = run.handle := by
  cases effect with
  | steady _ _ _ _ after =>
    rw [dropping] at after
    cases after
  | declined collecting polled useless same next =>
    rw [dropping] at next
    cases next
    exact ⟨_, _, collecting, polled, rfl, useless, same⟩
  | @released _ inHand count _ _ _ _ next =>
    have pending := (Engine.collected_dispatches run.handle inHand count).2.1
    rw [← next, dropping] at pending
    cases pending
  | retired _ _ next => rcases next with here | here <;> rw [dropping] at here <;> cases here
  | cancelled cancelling => exact absurd cancelling calm
  | stopped _ _ next => rw [dropping] at next; cases next
  | promoted _ _ _ next => rw [dropping] at next; cases next
  | started _ _ _ _ _ next => rw [dropping] at next; cases next
  | refused _ _ _ _ next => rw [dropping] at next; cases next
  | dropped _ _ next => rw [dropping] at next; cases next
  | applied _ next => rw [dropping] at next; cases next

theorem Isolated.engine (isolated : c.Isolated) {jobId : JobId} {input : EngineInput}
    (possible : c.Possible config tools toposort (.engine jobId input)) (assumed : c.Assumed (.engine jobId input))
    (polls : c.PollsOwn (.engine jobId input)) : (c.engine config toposort jobId input).Isolated := by
  have after := isolated.sound.engine possible
  unfold Cluster.engine at after ⊢
  cases found : c.jobs.get? jobId with
  | none => exact isolated
  | some run =>
    have stepped := isolated.sound.stepped found possible
    have undisturbed := isolated.undisturbed found possible assumed polls
    simp only [found] at after ⊢
    generalize Engine.step config toposort input run c.shared = next at after stepped undisturbed
    obtain ⟨run', shared⟩ := next
    have sound := isolated.sound.engines jobId run found
    have calm := isolated.calm jobId run found
    have freshLease := assumed.lease jobId input rfl
    have passes := stepped.queue.passes calm isolated.live freshLease.1
    have others : ∀ {other current}, other ≠ jobId → (c.jobs.insert jobId run').get? other = some current →
        c.jobs.get? other = some current := by
      intro other current different present
      rw [Dict.get?_insert_of_ne different] at present
      exact present
    have apart : ∀ {other current}, c.jobs.get? other = some current → ∀ leaseId ∈ current.pc.leaseIds,
        some input.leaseId ≠ some leaseId := by
      intro other current present leaseId member same
      rw [← Option.some.inj same] at member
      exact freshLease.2 other current present member
    have self : (c.jobs.insert jobId run').get? jobId = some run' := Dict.get?_insert_self
    refine ⟨after, stepped.queue.live isolated.live freshLease.1, ?_, ?_, ?_, ?_⟩
    · intro key member
      rcases stepped.queue.seen isolated.live member with old | ⟨task, node, known, queued, rfl⟩
      · exact (isolated.seen key old).insert found stepped.moves
      · exact ⟨jobId, run', task, node, node.attempt, self, known, queued, rfl⟩
    · intro other current present
      by_cases same : other = jobId
      · rw [same, self] at present
        cases present
        intro here
        rcases stepped.cancelling here with before | cancelled
        · exact calm before
        · exact assumed.uncancelled jobId run found cancelled
      · exact isolated.calm other current (others same present)
    · intro other current present
      by_cases same : other = jobId
      · rw [same, self] at present
        cases present
        obtain ⟨job, tasks, _, sync⟩ := after.synced jobId run' self
        exact (isolated.kept jobId run found).stepped sound calm stepped
          (fun task node known => (sync.node_own known).1)
          undisturbed
      · have before := others same present
        have theirs := isolated.sound.engines other current before
        cases finished : current.handle.job.status.isFinished with
        | true => exact JobRun.kept_of_finished theirs finished _
        | false =>
          exact (isolated.kept other current before).passes theirs passes
            (fun task known => isolated.not_lost found polls same before finished known) (apart before)
    · intro other current leaseId left dispatches promoted lease present dropping held
      by_cases same : other = jobId
      · rw [same, self] at present
        cases present
        obtain ⟨worker, granted, collecting, polled, rfl, useless, sameHandle⟩ :=
          dropping_declined stepped.effect calm dropping
        obtain ⟨_, id, here, _, entry, rest, picked, samePayload⟩ := undisturbed.polled polled
        rw [id, here] at held
        cases held
        obtain ⟨entry', rest', picked', _, _, task, _⟩ := dequeueFrom_some polled
        rw [picked] at picked'
        cases picked'
        have sameJob : lease.task.jobId = entry.jobId := by rw [task]
        have spared := (undisturbed.polls _ _ _ entry rest collecting picked).resolve_left (by
          rw [samePayload]
          exact fun leasable => absurd (useless.symm.trans leasable) (by simp))
        rw [samePayload] at spared
        have inHand : run'.pc.dispatches = run.pc.dispatches := by rw [dropping, collecting]; rfl
        rw [sameJob, same]
        rcases polls _ _ _ _ _ _ _ _ rfl found collecting picked with ⟨mine, _⟩ | ended
        · exact Or.inl ⟨mine, by rw [JobRun.Spares, sameHandle, inHand]; exact spared⟩
        · exact Or.inr (ended.insert found stepped.moves)
      · have before := others same present
        have pending : leaseId ∈ current.pc.leaseIds := by
          rw [dropping]
          simp [Pc.leaseIds, Pc.pending]
        have old := passes.old leaseId lease held (apart before leaseId pending)
        exact (isolated.drops _ _ _ _ _ _ _ before dropping old).imp_right
          (fun ended => ended.insert found stepped.moves)

end Cluster

end Swarm
