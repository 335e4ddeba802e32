import Swarm.Coordinator.Durability

namespace Swarm
open Recovery JobHandle

namespace Recovery

/-- The attempt that the last transition of a task in the journal was recorded with. -/
def lastAttempt (journal : List JournalRecord) (jobId : JobId) (task : TaskId) : Option Nat :=
  (journal.filterMap (fun record =>
    match record with
    | .taskTransitioned owner _ moved attempt => if owner = jobId ∧ moved = task then some attempt else none
    | _ => none)).getLast?

theorem lastAttempt_eq (journal : List JournalRecord) (jobId : JobId) (task : TaskId) :
    lastAttempt journal jobId task = (replay (own jobId journal)).attempts.get? task := by
  induction journal using List.reverseRecOn with
  | nil => rfl
  | append_singleton journal record ih =>
    unfold lastAttempt at ih ⊢
    rw [List.filterMap_append, own_snoc]
    by_cases mine : record.jobId = jobId
    · rw [if_pos mine, replay_snoc]
      cases record with
      | taskTransitioned owner transition moved attempt =>
        change owner = jobId at mine
        subst mine
        simp only [absorb, Dict.get?_insert]
        by_cases here : moved = task
        · simp [here]
        · simpa [here, Ne.symm here] using ih
      | _ =>
        rw [List.filterMap_cons_none rfl, List.filterMap_nil, List.append_nil]
        exact ih
    · rw [if_neg mine]
      cases record with
      | taskTransitioned owner transition moved attempt =>
        change owner ≠ jobId at mine
        simpa [mine] using ih
      | _ =>
        rw [List.filterMap_cons_none rfl, List.filterMap_nil, List.append_nil]
        exact ih

/-- Restoring a task changes its state and takes over the attempt that was recorded. -/
theorem restoreTask_attempt {attempts : Dict TaskId Nat} {kept kept' : TaskGraph × Nat} {entry : TaskId × TaskState}
    (run : restoreTask attempts kept entry = .ok kept') {task : TaskId} {node : TaskNode}
    (found : kept'.1.get task = some node) :
    ∃ earlier, kept.1.get task = some earlier ∧
      (node.attempt = earlier.attempt ∨ attempts.get? task = some node.attempt) := by
  simp only [restoreTask, TaskGraph.restoreState] at run
  split at run
  · cases run
  · cases run
    simp only at found
    split at found
    · rename_i attempt recorded
      rw [TaskGraph.get_update] at found
      split at found
      · rename_i same
        obtain ⟨moved, there, rfl⟩ := Option.map_eq_some_iff.mp found
        rw [TaskGraph.get_update, if_pos rfl] at there
        obtain ⟨earlier, known, rfl⟩ := Option.map_eq_some_iff.mp there
        exact ⟨earlier, same ▸ known, Or.inr (same ▸ recorded)⟩
      · rename_i other
        rw [TaskGraph.get_update, if_neg other] at found
        exact ⟨node, found, Or.inl rfl⟩
    · rw [TaskGraph.get_update] at found
      split at found
      · rename_i same
        obtain ⟨earlier, known, rfl⟩ := Option.map_eq_some_iff.mp found
        exact ⟨earlier, same ▸ known, Or.inl rfl⟩
      · exact ⟨node, found, Or.inl rfl⟩

theorem restore_attempts {attempts : Dict TaskId Nat} {entries : List (TaskId × TaskState)}
    {kept kept' : TaskGraph × Nat} (run : entries.foldlM (restoreTask attempts) kept = .ok kept') {task : TaskId}
    {node : TaskNode} (found : kept'.1.get task = some node) :
    ∃ earlier, kept.1.get task = some earlier ∧
      (node.attempt = earlier.attempt ∨ attempts.get? task = some node.attempt) := by
  induction entries generalizing kept with
  | nil =>
    cases run
    exact ⟨node, found, Or.inl rfl⟩
  | cons entry rest ih =>
    rw [List.foldlM_cons] at run
    cases first : restoreTask attempts kept entry with
    | error e =>
      rw [first] at run
      cases run
    | ok middle =>
      rw [first] at run
      obtain ⟨between, known, same⟩ := ih run
      obtain ⟨earlier, there, before⟩ := restoreTask_attempt first known
      refine ⟨earlier, there, ?_⟩
      rcases same with same | recorded
      · rw [same]
        exact before
      · exact Or.inr recorded

/-- A rebuilt task has spent the attempts that are on record. -/
theorem build_attempts {toposort : DiGraph TaskId → Except Nat (List Nat)} (sorts : Sorts toposort)
    {state : Recovering} {journal : List JournalRecord} {h : JobHandle} (built : build toposort journal state = .ok h)
    (ordered : ∃ plan, InOrder plan ∧ state.tasks.Perm plan) (blanks : ∀ node ∈ state.tasks, node.blank = node)
    {task : TaskId} {node : TaskNode} (found : h.graph.get task = some node) :
    node.attempt = 0 ∨ state.attempts.get? task = some node.attempt := by
  obtain ⟨plan, inOrder, order⟩ := ordered
  unfold build at built
  split at built
  · cases built
  · rename_i job _
    obtain ⟨graph, _, run, _, _, _, inside⟩ := rebuildGraph_ok sorts inOrder order job.id
    simp only [run, bind, Except.bind] at built
    split at built
    · cases built
    · rename_i kept restored
      cases built
      obtain ⟨earlier, known, spent⟩ := restore_attempts restored found
      have planned := order.mem_iff.mpr (inside earlier (Dict.mem_values.mpr ⟨task, Dict.get?_eq_some.mp known⟩))
      have blank : earlier.attempt = 0 := by rw [← blanks earlier planned]; rfl
      rwa [blank] at spent

/-- The task may be started again: it has an attempt left, or is over. -/
def affordable (journal : List JournalRecord) (jobId : JobId) (node : TaskNode) : Bool :=
  node.retryPolicy.maxAttempts == 0 || (lastTransition journal jobId node.id).any TaskState.isTerminal ||
    (lastAttempt journal jobId node.id).all (fun attempt => attempt < node.retryPolicy.maxAttempts)

/-- No job of the journal that goes on has a task that was in its last attempt. -/
def Affords (journal : List JournalRecord) : Prop :=
  ∀ job tasks, .jobPlanned job tasks ∈ journal →
    (lastStatus (own job.id journal)).any JobStatus.isFinished = true ∨
      ∀ node ∈ tasks, affordable journal job.id node = true

end Recovery

/-- Every task of a live job that was not queued yet has an attempt left. -/
def JobHandle.Unspent (h : JobHandle) : Prop :=
  h.Live → ∀ task node, h.graph.get task = some node → node.state.isFresh = true →
    1 ≤ node.retryPolicy.maxAttempts → node.attempt < node.retryPolicy.maxAttempts

namespace JobHandle.Unspent
variable {h h' : JobHandle}

theorem regraph (unspent : h.Unspent) (live : h'.Live → h.Live)
    (nodes : ∀ task, h'.graph.get task = h.graph.get task) :
    h'.Unspent := by
  intro running task node found
  rw [nodes] at found
  exact unspent (live running) task node found

/-- A change of one task that leaves it queued or further on. -/
theorem update (unspent : h.Unspent) (live : h'.Live → h.Live) {task : TaskId} {change : TaskNode → TaskNode}
    (graph : h'.graph = h.graph.update task change)
    (promoted : ∀ node, h.graph.get task = some node → (change node).state.isFresh = false) : h'.Unspent := by
  intro running other node found fresh
  rw [graph, TaskGraph.get_update] at found
  split at found
  · obtain ⟨earlier, known, rfl⟩ := Option.map_eq_some_iff.mp found
    rw [promoted earlier known] at fresh
    cases fresh
  · exact unspent (live running) other node found fresh

theorem move (unspent : h.Unspent) (move : Move h h') : h'.Unspent := by
  cases move with
  | quiet same =>
    refine unspent.regraph ?_ (fun _ => by rw [same.graph])
    unfold JobHandle.Live
    rw [same.job]
    exact id
  | attempt task attempt leasable =>
    refine unspent.update id rfl ?_
    intro node found
    simp only [TaskGraph.stateOf, found, Option.map_some, Option.any_some] at leasable
    cases state : node.state <;> rw [state] at leasable <;> first | rfl | cases leasable
  | rehash moved => exact unspent.regraph id (fun task => (moved.get? task).symm)
  | @advance task target node transition attempt _ found legal other same unblocked _ =>
    refine unspent.update id rfl ?_
    intro _ _
    change target.isFresh = false
    cases target with
    | created => cases state : node.state <;> rw [state] at legal <;> simp [StateMachine.allowed] at legal
    | waitingForDependency => exact absurd rfl other.2
    | _ => rfl
  | complete _ _ _ _ _ _ _ _ _ => exact unspent.update id rfl (fun _ _ => rfl)
  | failed _ _ => exact unspent.regraph id (fun _ => rfl)
  | status _ _ live _ _ => exact unspent.regraph (fun _ => live) (fun _ => rfl)
  | finish _ _ live _ _ _ => exact unspent.regraph (fun _ => live) (fun _ => rfl)

theorem moves (unspent : h.Unspent) (moves : Moves h h') : h'.Unspent := by
  induction moves with
  | refl => exact unspent
  | tail _ last ih => exact ih.move last

end JobHandle.Unspent

namespace Cluster
variable {config : CoordinatorConfig} {tools : TextTools} {toposort : DiGraph TaskId → Except Nat (List Nat)}

/-- The entry is of a task of its job, carries the budget of the task and is within it. -/
def Issued (c : Cluster) (bound : Nat → Nat → Prop) (entry : QueuedTask) : Prop :=
  ∃ run node, c.jobs.get? entry.jobId = some run ∧ run.handle.graph.get entry.taskId = some node ∧
    node.retryPolicy = entry.retry ∧ (1 ≤ entry.retry.maxAttempts → bound entry.attempt entry.retry.maxAttempts)

/-- What waits has an attempt left, what is leased has not gone beyond the last one. -/
structure Frugal (c : Cluster) : Prop where
  unspent : ∀ jobId run, c.jobs.get? jobId = some run → run.handle.Unspent
  queue : c.shared.queue.Houses (c.Issued (· < ·)) (c.Issued (· ≤ ·))

theorem issued_cycle (c : Cluster) : InMemoryQueue.Cycle (c.Issued (· < ·)) (c.Issued (· ≤ ·)) where
  lease task issued := by
    obtain ⟨run, node, found, known, same, left⟩ := issued
    refine ⟨run, node, found, known, same, ?_⟩
    intro budget
    have bound := left budget
    have wraps := Nat.mod_le (task.attempt + 1) (2 ^ 32)
    exact wraps.trans bound
  retry task availableAt issued allowed := by
    obtain ⟨run, node, found, known, same, _⟩ := issued
    exact ⟨run, node, found, known, same, fun _ => by simpa [RetryPolicy.allowsRetry] using allowed⟩
  release task availableAt issued := by
    obtain ⟨run, node, found, known, same, within⟩ := issued
    refine ⟨run, node, found, known, same, ?_⟩
    intro budget
    have bound := within budget
    change task.attempt - 1 < task.retry.maxAttempts
    change 1 ≤ task.retry.maxAttempts at budget
    omega

/-- Within one lifetime of the process every entry keeps its task. -/
theorem Sound.issued {c : Cluster} (sound : c.Sound) {event : Event}
    (possible : c.Possible config tools toposort event) (alive : c.Alive event) {bound : Nat → Nat → Prop}
    {entry : QueuedTask} (issued : c.Issued bound entry) :
    (c.apply config tools toposort event).Issued bound entry := by
  obtain ⟨run, node, found, known, same, within⟩ := issued
  obtain ⟨after, there, moves⟩ := sound.goes_on possible alive found
  have blanks := (moves_extends moves).blanks entry.taskId
  rw [known, Option.map_some] at blanks
  obtain ⟨current, present, blank⟩ := Option.map_eq_some_iff.mp blanks
  have policy : current.blank.retryPolicy = node.blank.retryPolicy := congrArg TaskNode.retryPolicy blank
  exact ⟨after, current, there, present, policy.trans same, within⟩

theorem frugal_new : new.Frugal := by
  refine ⟨?_, ?_, ?_⟩
  · intro _ _ found
    cases found
  · intro _ member
    cases member
  · intro _ _ found
    cases found

theorem unspent_planned {submission : Submission} {job : Job} {graph : TaskGraph} {nodes : Dict TaskId TaskNode}
    (planned : submission.plan config tools toposort = .ok (job, graph)) (moved : graph.nodes.Rehash nodes) :
    (JobHandle.planned job { graph with nodes := nodes }).Unspent := by
  obtain ⟨_, _, untouched, _⟩ := submission.plan_ok planned
  intro _ task node found _ budget
  have member := Dict.mem_values.mpr ⟨task, Dict.get?_eq_some.mp ((moved.get? task).trans found)⟩
  have blank : node.attempt = 0 := by rw [← (untouched.tasks node member).1]; rfl
  rw [blank]
  exact budget

/-- A recovered job goes on with what its tasks have left. -/
theorem Sound.unspent_restart {c : Cluster} (sound : c.Sound) (sorts : Sorts toposort) {journal : List JournalRecord}
    (leaves : c.Leaves journal) (affords : Affords journal) {jobId : JobId} {run : JobRun}
    (found : (Cluster.restart toposort journal).jobs.get? jobId = some run) : run.handle.Unspent := by
  obtain ⟨present, h, built, rfl⟩ := restart_get? found
  obtain ⟨_, job, tasks, h', current, _, rfl, old, legal, again, planned, rebuilt, sync⟩ :=
    sound.rebuilt sorts leaves present
  have same : build toposort (own job.id journal) (replay (own job.id journal)) = .ok h := by
    rw [rebuild_eq present] at built
    exact Option.some.inj built
  rw [built] at again
  cases again
  obtain ⟨sameTasks, _⟩ := legal.planned_job
  have plan : JournalRecord.jobPlanned job tasks ∈ journal :=
    List.mem_of_mem_filter (List.mem_of_getElem? legal.first)
  intro live task node known fresh budget
  change h.graph.get task = some node at known
  obtain ⟨original, member, id, _, blanks⟩ := sync.planned known
  have policy : original.retryPolicy = node.retryPolicy := by
    have same : original.blank.retryPolicy = node.blank.retryPolicy := congrArg TaskNode.retryPolicy blanks
    exact same
  have unfinished : (lastStatus (own job.id journal)).any JobStatus.isFinished = false := by
    obtain ⟨status, last, agree⟩ := sync.status
    rw [rebuilt.journal] at last
    rw [last, Option.any_some, agree]
    exact live
  have affordable := ((affords job tasks plan).resolve_left (by rw [unfinished]; simp)) original member
  have running : (lastTransition journal job.id task).any TaskState.isTerminal = false := by
    have state := rebuilt_states legal rebuilt (sync.isSome_iff.mp (by rw [known]; rfl))
    simp only [TaskGraph.stateOf, known, Option.map_some, Option.some.injEq] at state
    cases last : lastTransition journal job.id task with
    | none => rfl
    | some final =>
      rw [last, Option.elim_some] at state
      rw [Option.any_some]
      rcases restored_cases final with ⟨kept, terminal⟩ | ⟨_, unfinished⟩
      · rw [state, kept] at fresh
        cases final <;> simp [TaskState.isTerminal, TaskState.isFresh] at terminal fresh
      · exact unfinished
  rcases build_attempts sorts same (sameTasks.symm ▸ old.plan.ordered) (sameTasks.symm ▸ old.plan.blanks) known with
    none | recorded
  · rw [none]
    exact budget
  · rw [← lastAttempt_eq] at recorded
    rw [Recovery.affordable, id, running, recorded, policy, Option.all_some] at affordable
    have positive : (node.retryPolicy.maxAttempts == 0) = false := by
      rw [beq_eq_false_iff_ne]
      omega
    simpa [positive] using affordable

/-- The queue of a frugal coordinator after one event of the running process. -/
theorem Frugal.queue_apply {c : Cluster} (frugal : c.Frugal) (sound : c.Sound) {event : Event}
    (possible : c.Possible config tools toposort event) (alive : c.Alive event) :
    (c.apply config tools toposort event).shared.queue.Houses ((c.apply config tools toposort event).Issued (· < ·))
      ((c.apply config tools toposort event).Issued (· ≤ ·)) := by
  have carried := frugal.queue.mono (fun _ issued => sound.issued possible alive issued)
    (fun _ issued => sound.issued possible alive issued)
  have steered : ∀ {jobId : JobId}, Steered c (c.apply config tools toposort event) jobId →
      (c.apply config tools toposort event).shared.queue = c.shared.queue := by
    rintro jobId (same | ⟨_, _, _, _, same⟩) <;> rw [same]
  cases event with
  | submit submission nodes =>
    have same : (c.apply config tools toposort (.submit submission nodes)).shared.queue = c.shared.queue := by
      simp only [apply, submit]
      split <;> rfl
    rw [same]
    exact carried
  | engine jobId input =>
    cases found : c.jobs.get? jobId with
    | none =>
      simp only [apply, engine, found] at carried ⊢
      exact carried
    | some run =>
      have stepped := sound.stepped found possible
      obtain ⟨job, tasks, id, sync⟩ := sound.synced jobId run found
      have unspent := frugal.unspent jobId run found
      simp only [apply, engine, found] at carried ⊢
      generalize Engine.step config toposort input run c.shared = after at stepped carried
      obtain ⟨run', shared⟩ := after
      refine stepped.queue.holds (issued_cycle _) carried ?_
      rintro task earlier node priority leaseMs known fresh rfl there live
      obtain ⟨nodeId, nodeJob⟩ := (sync.moves stepped.moves).node_own there
      have same : (QueuedTask.fromTask { earlier with state := .queued } priority leaseMs input.now).taskId =
        task := nodeId
      refine ⟨run', { earlier with state := .queued }, ?_, by rw [same]; exact there, rfl, ?_⟩
      · change (c.jobs.insert jobId run').get? earlier.jobId = some run'
        rw [nodeJob, id]
        exact Dict.get?_insert_self
      · exact unspent live task earlier known fresh
  | pause jobId =>
    rw [steered (apply_steered possible (Or.inl rfl))]
    exact carried
  | resume jobId =>
    rw [steered (apply_steered possible (Or.inr (Or.inl rfl)))]
    exact carried
  | cancel jobId =>
    rw [steered (apply_steered possible (Or.inr (Or.inr (Or.inl rfl))))]
    exact carried
  | purge jobId => exact carried.purgeJob jobId
  | rehash jobId nodes =>
    rw [steered (apply_steered possible (Or.inr (Or.inr (Or.inr ⟨nodes, rfl⟩))))]
    exact carried
  | rehashLeases leases =>
    refine ⟨carried.ready, ?_⟩
    intro leaseId lease found
    exact carried.leases leaseId lease ((Dict.Rehash.get? possible leaseId).trans found)
  | restart journal => exact absurd rfl (alive journal)

theorem Frugal.apply {c : Cluster} (frugal : c.Frugal) (sound : c.Sound) (sorts : Sorts toposort) {event : Event}
    (possible : c.Possible config tools toposort event)
    (affords : ∀ journal, event = .restart journal → Affords journal) :
    (c.apply config tools toposort event).Frugal := by
  by_cases restarts : ∃ journal, event = .restart journal
  · obtain ⟨journal, rfl⟩ := restarts
    refine ⟨fun jobId run found => sound.unspent_restart sorts possible (affords journal rfl) found, ?_, ?_⟩
    · intro _ member
      cases member
    · intro _ _ found
      cases found
  · have alive : c.Alive event := fun journal same => restarts ⟨journal, same⟩
    refine ⟨?_, frugal.queue_apply sound possible alive⟩
    intro jobId run found
    cases apply_job possible alive found with
    | kept known => exact frugal.unspent jobId run known
    | submitted _ planned _ rehash same =>
      rw [same]
      exact unspent_planned planned rehash
    | @steered before h known steers same =>
      rw [same]
      exact (frugal.unspent jobId before known).moves steers.moves
    | @engine before input isEngine known same =>
      subst isEngine
      rw [same]
      exact (frugal.unspent jobId before known).moves (sound.stepped known possible).moves

/-- Every new process finds a journal in which no task that goes on was in its last attempt. -/
def Thrifty (_ : Cluster) (event : Event) : Prop := ∀ journal, event = .restart journal → Affords journal

/-- No lease of a task is beyond its budget, over any number of lifetimes, as long as
no process dies with a task in its last attempt. -/
theorem Runs.attempts_within (sorts : Sorts toposort) {c : Cluster} (runs : Runs config tools toposort Thrifty new c)
    {leaseId : LeaseId} {lease : TaskLease} (granted : c.shared.queue.leases.get? leaseId = some lease) {run : JobRun}
    {node : TaskNode} (found : c.jobs.get? lease.task.jobId = some run)
    (known : run.handle.graph.get lease.task.taskId = some node) (budget : 1 ≤ node.retryPolicy.maxAttempts) :
    lease.task.attempt ≤ node.retryPolicy.maxAttempts := by
  have frugal : c.Frugal := by
    clear granted found known budget
    induction runs with
    | start => exact frugal_new
    | next runs possible affords ih => exact ih.apply (runs.sound sorts sound_new) sorts possible affords
  obtain ⟨owner, task, there, present, same, within⟩ := frugal.queue.leases leaseId lease granted
  rw [found] at there
  cases there
  rw [known] at present
  cases present
  rw [same] at budget ⊢
  exact within budget

end Cluster

/-- One more lifetime of the sample job. -/
theorem runs_revived {kind : Cluster → Event → Prop} {c : Cluster}
    (runs : Cluster.Runs sampleConfig sampleReader DiGraph.sort kind .new c) (restarts : kind c (.restart c.written))
    (steps : ∀ c input, kind c (.engine ⟨1⟩ input)) :
    Cluster.Runs sampleConfig sampleReader DiGraph.sort kind .new c.revived := by
  have possible : c.Possible sampleConfig sampleReader DiGraph.sort (.restart c.written) :=
    leaves_written (runs.sound Cluster.sample_sorts Cluster.sound_new)
  exact Cluster.reach_drive (.next runs possible restarts) ⟨1⟩ _ (fun c now => steps c _)

/-- A lease of the first task of the sample job: its attempt and the budget of the task. -/
def Cluster.spent (c : Cluster) (leaseId : LeaseId) : Option (Nat × Nat) :=
  (c.shared.queue.leases.get? leaseId).bind (fun lease => (c.jobs.get? lease.task.jobId).bind (fun run =>
    (run.handle.graph.get lease.task.taskId).map (fun node => (lease.task.attempt, node.retryPolicy.maxAttempts))))

theorem spent_some {c : Cluster} {leaseId : LeaseId} {attempt budget : Nat}
    (spent : c.spent leaseId = some (attempt, budget)) :
    ∃ lease run node, c.shared.queue.leases.get? leaseId = some lease ∧ c.jobs.get? lease.task.jobId = some run ∧
      run.handle.graph.get lease.task.taskId = some node ∧ lease.task.attempt = attempt ∧
      node.retryPolicy.maxAttempts = budget := by
  obtain ⟨lease, granted, rest⟩ := Option.bind_eq_some_iff.mp spent
  obtain ⟨run, found, rest⟩ := Option.bind_eq_some_iff.mp rest
  obtain ⟨node, known, same⟩ := Option.map_eq_some_iff.mp rest
  cases same
  exact ⟨lease, run, node, granted, found, known, rfl, rfl⟩

/-- The process dies in each of the three permitted attempts of a task; the fourth lifetime starts a fourth one. -/
theorem attempts_beyond : ∃ leaseId lease run node,
    Cluster.Reach sampleConfig sampleReader DiGraph.sort started.revived.revived.revived ∧
    started.revived.revived.revived.shared.queue.leases.get? leaseId = some lease ∧
    started.revived.revived.revived.jobs.get? lease.task.jobId = some run ∧
    run.handle.graph.get lease.task.taskId = some node ∧ node.retryPolicy.maxAttempts = 3 ∧
      lease.task.attempt = 4 := by
  have beyond : started.revived.revived.revived.spent ⟨27⟩ = some (4, 3) := by decide +kernel
  obtain ⟨lease, run, node, granted, found, known, attempt, budget⟩ := spent_some beyond
  have first : Cluster.Reach sampleConfig sampleReader DiGraph.sort started :=
    runs_started _ trivial (fun _ _ => trivial)
  have reach :=
    runs_revived (runs_revived (runs_revived first trivial (fun _ _ => trivial)) trivial (fun _ _ => trivial))
    trivial (fun _ _ => trivial)
  exact ⟨⟨27⟩, lease, run, node, reach, granted, found, known, budget, attempt⟩

/-- The process dies in the first attempt, and the second one is still within the budget. -/
theorem attempts_within_revived :
    ∃ leaseId lease run node, started.revived.shared.queue.leases.get? leaseId = some lease ∧
    started.revived.jobs.get? lease.task.jobId = some run ∧ run.handle.graph.get lease.task.taskId = some node ∧
    lease.task.attempt = 2 ∧ node.retryPolicy.maxAttempts = 3 ∧
      lease.task.attempt ≤ node.retryPolicy.maxAttempts := by
  have second : started.revived.spent ⟨27⟩ = some (2, 3) := by decide +kernel
  have left : started.written.all (fun record => match record with
      | .jobPlanned job tasks => tasks.all (affordable started.written job.id)
      | _ => true) = true := by decide +kernel
  have affords : Affords started.written := by
    intro job tasks planned
    exact Or.inr (List.all_eq_true.mp (List.all_eq_true.mp left _ planned))
  have alone : ∀ c event, (∀ journal, event ≠ .restart journal) → Cluster.Thrifty c event :=
    fun _ _ alive journal same => absurd same (alive journal)
  have steps : ∀ c input, Cluster.Thrifty c (.engine ⟨1⟩ input) := fun c _ => alone c _ (fun _ same => by cases same)
  have runs := runs_revived (runs_started Cluster.Thrifty (alone _ _ (fun _ same => by cases same)) steps)
    (fun journal same => by cases same; exact affords) steps
  generalize started.revived = again at second runs ⊢
  obtain ⟨lease, run, node, granted, found, known, attempt, budget⟩ := spent_some second
  exact ⟨⟨27⟩, lease, run, node, granted, found, known, attempt, budget,
    runs.attempts_within Cluster.sample_sorts granted found known (by omega)⟩

end Swarm
