import Swarm.Coordinator.Attempts
import Swarm.Coordinator.Solo

namespace Swarm
open InMemoryQueue Recovery

namespace InMemoryQueue

theorem subjects_mono {q q' : InMemoryQueue} {task : TaskId} (member : task ∈ q'.subjects)
    (ready : ∀ task, q'.HasReady task → q.HasReady task)
    (leases : ∀ leaseId lease, q'.leases.get? leaseId = some lease → q.leases.get? leaseId = some lease)
    (dead : q'.dead = q.dead) : task ∈ q.subjects := by
  rw [mem_subjects] at member ⊢
  refine member.imp (ready task) (Or.imp ?_ ?_)
  · rintro ⟨leaseId, lease, found, same⟩
    exact ⟨leaseId, lease, leases leaseId lease found, same⟩
  · rw [dead]
    exact id

theorem purgeJob_get? {q : InMemoryQueue} {jobId : JobId} {leaseId : LeaseId} {lease : TaskLease}
    (found : (q.purgeJob jobId).2.leases.get? leaseId = some lease) :
    q.leases.get? leaseId = some lease ∧ lease.task.jobId ≠ jobId := by
  simp only [purgeJob, Dict.get?_retain, Option.filter_eq_some_iff] at found
  exact ⟨found.1, by simpa using found.2⟩

/-- A purge keeps a lease or leaves nothing of its task. -/
theorem purgeJob_lease {q : InMemoryQueue} (single : q.subjects.Nodup) (jobId : JobId) {leaseId : LeaseId}
    {lease : TaskLease} (found : q.leases.get? leaseId = some lease) :
    (q.purgeJob jobId).2.leases.get? leaseId = some lease ∨
      (q.purgeJob jobId).2.leases.get? leaseId = none ∧ lease.task.payload.id ∉ (q.purgeJob jobId).2.subjects := by
  by_cases mine : lease.task.jobId = jobId
  · have absent : (q.purgeJob jobId).2.leases.get? leaseId = none := by
      simp [purgeJob, Dict.get?_retain, found, mine]
    refine Or.inr ⟨absent, ?_⟩
    intro present
    refine alone_of_lease single found (subjects_mono present ?_ ?_ rfl)
    · rintro task ⟨entry, member, same⟩
      exact ⟨entry, List.mem_of_mem_filter member, same⟩
    · intro other held here
      rw [Dict.get?_erase, if_neg]
      · exact (purgeJob_get? here).1
      · rintro rfl
        rw [absent] at here
        cases here
  · refine Or.inl ?_
    simp only [purgeJob, Dict.get?_retain, found]
    exact Option.filter_eq_some_iff.mpr ⟨rfl, by simpa using mine⟩

end InMemoryQueue

namespace JobRun.Solo
variable {run : JobRun} {q q' : InMemoryQueue}

/-- The queue changes behind the back of the engine. -/
theorem requeue (solo : run.Solo q) (live : q'.LeasesLive) (subjects : q'.subjects.Subperm q.subjects)
    (old : ∀ leaseId lease, q'.leases.get? leaseId = some lease → q.leases.get? leaseId = some lease)
    (kept : ∀ leaseId lease, q.leases.get? leaseId = some lease → q'.leases.get? leaseId = some lease ∨
      q'.leases.get? leaseId = none ∧ lease.task.payload.id ∉ q'.subjects) (sound : run.Sound) : run.Solo q' where
  live := live
  single := by
    obtain ⟨part, same, inside⟩ := subjects
    exact same.nodup_iff.mp (inside.nodup solo.single)
  promoted task member := solo.promoted task (subjects.subset member)
  held dispatch member := by
    rcases solo.held dispatch member with held | ⟨absent, gone⟩
    · unfold Dispatch.Held
      rw [(sound.dispatched dispatch member).2.2]
      exact kept _ _ held
    · refine Or.inr ⟨?_, fun present => gone (subjects.subset present)⟩
      cases found : q'.leases.get? dispatch.lease.leaseId with
      | none => rfl
      | some lease =>
        rw [old _ _ found] at absent
        cases absent
  ids := solo.ids
  pending leaseId lease pending found := solo.pending leaseId lease pending (old leaseId lease found)

theorem purgeJob (solo : run.Solo q) (sound : run.Sound) (jobId : JobId) : run.Solo (q.purgeJob jobId).2 :=
  solo.requeue (fun entry member => solo.live entry (List.mem_of_mem_filter member))
    (subjects_purgeJob q jobId).subperm
    (fun _ _ found => (purgeJob_get? found).1) (fun _ _ found => purgeJob_lease solo.single jobId found) sound

theorem rehash (solo : run.Solo q) (sound : run.Sound) {leases : Dict LeaseId TaskLease}
    (moved : q.leases.Rehash leases) :
    run.Solo { q with leases := leases } :=
  solo.requeue ((moves_rehash moved).live solo.live) ((moves_rehash moved).labels QueuedTask.blind_subject).subperm
    (fun leaseId _ found => (moved.get? leaseId).trans found)
      (fun leaseId _ found => Or.inl ((moved.get? leaseId).symm.trans found))
    sound

theorem steered (solo : run.Solo q) {h : JobHandle} (steers : Cluster.Steers run.handle h) :
    { run with handle := h }.Solo q where
  live := solo.live
  single := solo.single
  promoted task member state found := solo.promoted task member state ((steers.states task).symm.trans found)
  held := solo.held
  ids := solo.ids
  pending := solo.pending

/-- A job that has not been started, and a queue that nobody has used. -/
theorem of_idle (live : q.LeasesLive) (empty : q.subjects = []) (h : JobHandle) : (JobRun.new h).Solo q where
  live := live
  single := by simp [empty]
  promoted := by simp [empty]
  held := by simp [JobRun.new, Pc.dispatches]
  ids := by simp [JobRun.new, Pc.dispatches]
  pending := by simp [JobRun.new, Pc.pending]

end JobRun.Solo

namespace Cluster
variable {config : CoordinatorConfig} {tools : TextTools}
  {toposort : DiGraph TaskId → Except Nat (List Nat)} {c : Cluster} {jobId : JobId}

/-- Only the engine of this job takes a step, and the lease identifier it draws is new. -/
def Sole (jobId : JobId) (c : Cluster) (event : Event) : Prop :=
  ∀ other input, event = .engine other input → other = jobId ∧ c.shared.queue.leases.get? input.leaseId = none ∧
    ∀ run, c.jobs.get? jobId = some run → input.leaseId ∉ run.pc.leaseIds

/-- The queue is used by this job only. -/
structure Private (c : Cluster) (jobId : JobId) : Prop where
  live : c.shared.queue.LeasesLive
  unused : c.jobs.get? jobId = none → c.shared.queue.subjects = []
  solo : ∀ run, c.jobs.get? jobId = some run → run.Solo c.shared.queue

theorem private_new : new.Private jobId := by
  refine ⟨?_, fun _ => rfl, ?_⟩
  · intro entry member
    cases member
  · intro run found
    cases found

theorem Private.steered {c' : Cluster} (alone : c.Private jobId) {other : JobId} (steered : Steered c c' other) :
    c'.Private jobId := by
  rcases steered with rfl | ⟨run, h, found, steers, rfl⟩
  · exact alone
  · refine ⟨alone.live, ?_, ?_⟩
    · intro absent
      rw [Dict.get?_insert] at absent
      split at absent
      · cases absent
      · exact alone.unused absent
    · intro current present
      rw [Dict.get?_insert] at present
      split at present
      · rename_i same
        cases present
        exact (alone.solo run (same ▸ found)).steered steers
      · exact alone.solo current present

theorem Private.submit (alone : c.Private jobId) {submission : Submission} {nodes : Dict TaskId TaskNode}
    (possible : c.Possible config tools toposort (.submit submission nodes)) :
    (c.submit config tools toposort submission nodes).Private jobId := by
  obtain ⟨fresh, _, _⟩ := possible
  unfold Cluster.submit
  split
  · exact alone
  · rename_i job graph planned
    rw [← (submission.plan_ok planned).1] at fresh
    refine ⟨alone.live, ?_, ?_⟩
    · intro absent
      rw [Dict.get?_insert] at absent
      split at absent
      · cases absent
      · exact alone.unused absent
    · intro run present
      rw [Dict.get?_insert] at present
      split at present
      · rename_i same
        cases present
        exact .of_idle alone.live (alone.unused (same ▸ fresh)) _
      · exact alone.solo run present

theorem Private.engine (alone : c.Private jobId) (sound : c.Sound) {other : JobId} {input : EngineInput}
    (possible : c.Possible config tools toposort (.engine other input)) (sole : c.Sole jobId (.engine other input)) :
    (c.engine config toposort other input).Private jobId := by
  obtain ⟨rfl, unused, fresh⟩ := sole other input rfl
  unfold Cluster.engine
  cases found : c.jobs.get? other with
  | none => exact alone
  | some run =>
    have stepped := sound.stepped found possible
    obtain ⟨job, tasks, _, sync⟩ := sound.synced other run found
    simp only
    generalize Engine.step config toposort input run c.shared = after at stepped
    obtain ⟨run', shared⟩ := after
    have own : ∀ task node, run'.handle.graph.get task = some node → node.id = task :=
      fun _ _ known => ((sync.moves stepped.moves).node_own known).1
    have solo := (alone.solo run found).stepped (sound.engines other run found) stepped own ⟨unused, fresh run found⟩
    refine ⟨solo.live, ?_, ?_⟩
    · intro absent
      rw [Dict.get?_insert_self] at absent
      cases absent
    · intro current present
      rw [Dict.get?_insert_self] at present
      cases present
      exact solo

theorem Private.apply (alone : c.Private jobId) (sound : c.Sound) {event : Event}
    (possible : c.Possible config tools toposort event) (sole : c.Sole jobId event) :
    (c.apply config tools toposort event).Private jobId := by
  cases event with
  | submit submission nodes => exact alone.submit possible
  | engine other input => exact alone.engine sound possible sole
  | pause other => exact alone.steered (apply_steered possible (Or.inl rfl))
  | resume other => exact alone.steered (apply_steered possible (Or.inr (Or.inl rfl)))
  | cancel other => exact alone.steered (apply_steered possible (Or.inr (Or.inr (Or.inl rfl))))
  | rehash other nodes => exact alone.steered (apply_steered possible (Or.inr (Or.inr (Or.inr ⟨nodes, rfl⟩))))
  | purge other =>
    refine ⟨fun entry member => alone.live entry (List.mem_of_mem_filter member), ?_, ?_⟩
    · intro absent
      have fewer := subjects_purgeJob c.shared.queue other
      rw [alone.unused absent] at fewer
      exact List.sublist_nil.mp fewer
    · exact fun run found => (alone.solo run found).purgeJob (sound.engines jobId run found) other
  | rehashLeases leases =>
    have moved : c.shared.queue.leases.Rehash leases := possible
    refine ⟨(moves_rehash moved).live alone.live, ?_, ?_⟩
    · intro absent
      have same := (moves_rehash moved).labels QueuedTask.blind_subject
      change List.Perm _ c.shared.queue.subjects at same
      rw [alone.unused absent] at same
      exact same.eq_nil
    · exact fun run found => (alone.solo run found).rehash (sound.engines jobId run found) moved
  | restart journal =>
    refine ⟨?_, fun _ => rfl, ?_⟩
    · intro entry member
      cases member
    · intro run found
      obtain ⟨_, h, _, rfl⟩ := restart_get? found
      exact .of_idle (fun _ member => by cases member) rfl h

theorem Runs.alone (sorts : Sorts toposort) (runs : Runs config tools toposort (Sole jobId) new c) :
    c.Private jobId := by
  induction runs with
  | start => exact private_new
  | next runs possible sole ih => exact ih.apply (runs.sound sorts sound_new) possible sole

end Cluster

/-- The attempt failed: no answer in time, an error, an invalid result, or a valid one whose lease is lost. -/
def Outcome.Fails (q : InMemoryQueue) (dispatch : Dispatch) (now : DateTime) : Outcome → Prop
  | .returned (.ok result) =>
    result.passedValidation = true → ∃ e, (q.acknowledge dispatch.lease.leaseId now).1 = .error e
  | _ => True

/-- The error, if there was one, is worth another try. -/
def Outcome.isRetryable : Outcome → Bool
  | .returned (.error e) => e.isRetryable
  | _ => true

/-- The graph and the queue agree on what becomes of a failed task. -/
def FatesAgree (h : JobHandle) (q : InMemoryQueue) (task : TaskId) : Prop :=
  (h.graph.stateOf task = some .retryScheduled ↔ q.HasReady task) ∧
    (h.graph.stateOf task = some .deadLettered ↔ ∃ letter ∈ q.dead, letter.task.payload.id = task)

/-- The engine looks at the budget and at the error. -/
theorem settledState_failing {q : InMemoryQueue} {dispatch : Dispatch} {outcome : Outcome} {now : DateTime}
    (fails : outcome.Fails q dispatch now) : settledState q dispatch outcome now =
      if dispatch.lease.task.retry.allowsRetry dispatch.lease.task.attempt && outcome.isRetryable then .retryScheduled
      else .deadLettered := by
  cases outcome with
  | elapsed => simp [settledState, Outcome.isRetryable]
  | returned answer =>
    cases answer with
    | error e => simp [settledState, Outcome.isRetryable]
    | ok result =>
      simp only [settledState, Outcome.isRetryable, Bool.and_true]
      split
      · rename_i passed
        obtain ⟨e, lost⟩ := fails passed
        simp only [lost]
      · rfl

/-- The queue looks at the budget only. -/
theorem applyOutcome_failing (config : CoordinatorConfig) {q : InMemoryQueue} (live : q.LeasesLive) (h : JobHandle)
    {dispatch : Dispatch} {outcome : Outcome} {now : DateTime} (fails : outcome.Fails q dispatch now) :
    (q.leases.get? dispatch.lease.leaseId = none ∧ (Engine.applyOutcome config q h dispatch outcome now).1 = q) ∨
      ∃ held stats reason, q.leases.get? dispatch.lease.leaseId = some held ∧
        (Engine.applyOutcome config q h dispatch outcome now).1 =
          retryOrPark { q with leases := q.leases.erase dispatch.lease.leaseId, stats := stats } held.task reason
            now := by
  have rejected : ∀ reason, (q.leases.get? dispatch.lease.leaseId = none ∧
      (q.reject dispatch.lease.leaseId reason now).2 = q) ∨
      ∃ held stats reason', q.leases.get? dispatch.lease.leaseId = some held ∧
        (q.reject dispatch.lease.leaseId reason now).2 =
          retryOrPark { q with leases := q.leases.erase dispatch.lease.leaseId, stats := stats } held.task reason'
            now := by
    intro reason
    rcases reject_cases live dispatch.lease.leaseId reason now with ⟨absent, run⟩ | ⟨held, found, run⟩
    · exact Or.inl ⟨absent, by rw [run]⟩
    · exact Or.inr ⟨held, q.stats, reason, found, by rw [run]⟩
  cases outcome with
  | elapsed => exact rejected _
  | returned answer =>
    cases answer with
    | error e => exact rejected _
    | ok result =>
      simp only [Engine.applyOutcome]
      split
      · rename_i passed
        obtain ⟨e, lost⟩ := fails passed
        rcases acknowledge_cases live dispatch.lease.leaseId now with
          ⟨absent, run⟩ | ⟨held, detail, found, _, run⟩ | ⟨held, found, _, run⟩
        · exact Or.inl ⟨absent, by rw [run]⟩
        · exact Or.inr ⟨held, _, _, found, by rw [run]⟩
        · rw [run] at lost
          cases lost
      · exact rejected _

theorem hasReady_retryOrPark {q : InMemoryQueue} {task : QueuedTask} {reason : String} {now : DateTime}
    {other : TaskId} :
    (q.retryOrPark task reason now).HasReady other ↔
      q.HasReady other ∨ task.retry.allowsRetry task.attempt = true ∧ task.payload.id = other := by
  unfold retryOrPark HasReady
  split
  · rename_i allowed
    simp [allowed, or_and_right, exists_or]
  · rename_i spent
    simp [spent]

theorem dead_retryOrPark {q : InMemoryQueue} {task : QueuedTask} {reason : String} {now : DateTime} {other : TaskId} :
    (∃ letter ∈ (q.retryOrPark task reason now).dead, letter.task.payload.id = other) ↔
      (∃ letter ∈ q.dead, letter.task.payload.id = other) ∨
        task.retry.allowsRetry task.attempt = false ∧ task.payload.id = other := by
  unfold retryOrPark
  split
  · rename_i allowed
    simp [allowed]
  · rename_i spent
    simp [spent, or_and_right, exists_or]

/-- After a failed attempt the two agree exactly when the lease was still there and
the budget alone decided. -/
theorem JobRun.Solo.agree_iff (config : CoordinatorConfig) {q : InMemoryQueue} {run : JobRun} (solo : run.Solo q)
    (sound : run.Sound) {dispatch : Dispatch} (member : dispatch ∈ run.pc.dispatches) {outcome : Outcome}
    {now : DateTime} (fails : outcome.Fails q dispatch now) {h : JobHandle}
    (sets : Sets run.handle h dispatch.task.id (settledState q dispatch outcome now)) :
    FatesAgree h (Engine.applyOutcome config q run.handle dispatch outcome now).1 dispatch.task.id ↔
      (q.leases.get? dispatch.lease.leaseId).isSome = true ∧
        (outcome.isRetryable = true ∨ dispatch.lease.task.retry.allowsRetry dispatch.lease.task.attempt = false) := by
  have sameTask := (sound.dispatched dispatch member).2.2
  unfold FatesAgree
  rw [sets.self, settledState_failing fails]
  rcases applyOutcome_failing config solo.live run.handle fails with
    ⟨absent, same⟩ | ⟨held, stats, reason, found, same⟩
  · rw [same, absent]
    rcases solo.held dispatch member with held | ⟨_, gone⟩
    · rw [absent] at held
      cases held
    · have unready : ¬ q.HasReady dispatch.task.id := fun ready => gone (mem_subjects.mpr (Or.inl ready))
      have alive : ¬ ∃ letter ∈ q.dead, letter.task.payload.id = dispatch.task.id :=
        fun dead => gone (mem_subjects.mpr (Or.inr (Or.inr dead)))
      rw [iff_false_intro unready, iff_false_intro alive]
      split <;> simp
  · have mine : held = dispatch.lease := by
      rcases solo.held dispatch member with here | ⟨absent, _⟩
      · rw [found] at here
        exact Option.some.inj here
      · rw [found] at absent
        cases absent
    subst mine
    have alone := alone_of_lease solo.single found
    rw [← sameTask] at alone
    have unready :
        ¬ HasReady { q with leases := q.leases.erase dispatch.lease.leaseId, stats := stats } dispatch.task.id :=
      fun ready => alone (mem_subjects.mpr (Or.inl ready))
    have alive : ¬ ∃ letter ∈ q.dead, letter.task.payload.id = dispatch.task.id :=
      fun dead => alone (mem_subjects.mpr (Or.inr (Or.inr dead)))
    rw [same, found, hasReady_retryOrPark, dead_retryOrPark, iff_false_intro unready, iff_false_intro alive, sameTask]
    cases dispatch.lease.task.retry.allowsRetry dispatch.lease.task.attempt <;> cases outcome.isRetryable <;> simp

/-- On a queue that one job uses alone, the graph and the queue agree on a failed
attempt exactly when the lease was not purged meanwhile, and its error is worth
another try or its budget is spent. -/
theorem Cluster.Runs.fates_agree_iff {config : CoordinatorConfig} {tools : TextTools}
    {toposort : DiGraph TaskId → Except Nat (List Nat)} (sorts : Sorts toposort) {jobId : JobId} {c : Cluster}
    (runs : Runs config tools toposort (Sole jobId) new c) {run : JobRun} (found : c.jobs.get? jobId = some run)
    {dispatch : Dispatch} {outcome : Outcome} {rest : List (Dispatch × Outcome)}
    (applying : run.pc = .applying ((dispatch, outcome) :: rest)) (input : EngineInput)
    (fails : outcome.Fails c.shared.queue dispatch input.now) :
    ∃ run', (c.apply config tools toposort (.engine jobId input)).jobs.get? jobId = some run' ∧
      (FatesAgree run'.handle (c.apply config tools toposort (.engine jobId input)).shared.queue dispatch.task.id ↔
        (c.shared.queue.leases.get? dispatch.lease.leaseId).isSome = true ∧
          (outcome.isRetryable = true ∨
            dispatch.lease.task.retry.allowsRetry dispatch.lease.task.attempt = false)) := by
  have sound := (runs.sound sorts sound_new).engines jobId run found
  have solo := (runs.alone sorts).solo run found
  have member : dispatch ∈ run.pc.dispatches := by
    rw [applying]
    exact List.mem_cons_self
  obtain ⟨h, stepped, sets⟩ := Engine.step_applying config toposort input c.shared sound applying
  have agree := solo.agree_iff config sound member fails sets
  refine ⟨{ run with handle := h, pc := .applying rest }, ?_, ?_⟩
  · simp only [apply, engine, found, stepped]
    exact Dict.get?_insert_self
  · simp only [apply, engine, found, stepped]
    exact agree

/-- The lease identifiers drawn along the steps of the sample job are new. -/
def Cluster.drawsFresh (c : Cluster) : List Nat → Bool
  | [] => true
  | now :: rest => (c.shared.queue.leases.get? ⟨now⟩).isNone &&
      (c.jobs.get? ⟨1⟩).all (fun run => !run.pc.leaseIds.contains ⟨now⟩) &&
      (c.apply sampleConfig sampleReader DiGraph.sort (.engine ⟨1⟩ (plainInput now))).drawsFresh rest

theorem Cluster.sole_of_fresh {c : Cluster} {input : EngineInput}
    (fresh : (c.shared.queue.leases.get? input.leaseId).isNone = true ∧
      (c.jobs.get? ⟨1⟩).all (fun run => !run.pc.leaseIds.contains input.leaseId) = true) :
    c.Sole ⟨1⟩ (.engine ⟨1⟩ input) := by
  intro other input' same
  cases same
  refine ⟨rfl, Option.isNone_iff_eq_none.mp fresh.1, ?_⟩
  intro run found
  have unused := fresh.2
  rw [found, Option.all_some] at unused
  simpa using unused

theorem sole_drive {c : Cluster}
    (runs : Cluster.Runs sampleConfig sampleReader DiGraph.sort (Cluster.Sole ⟨1⟩) .new c) (times : List Nat)
    (fresh : c.drawsFresh times = true) :
    Cluster.Runs sampleConfig sampleReader DiGraph.sort (Cluster.Sole ⟨1⟩) .new (c.drive ⟨1⟩ times) := by
  induction times generalizing c with
  | nil => exact runs
  | cons now rest ih =>
    simp only [Cluster.drawsFresh, Bool.and_eq_true] at fresh
    have step : Cluster.Runs sampleConfig sampleReader DiGraph.sort (Cluster.Sole ⟨1⟩) .new
        (c.apply sampleConfig sampleReader DiGraph.sort (.engine ⟨1⟩ (plainInput now))) :=
      .next runs (fun _ _ _ _ _ answered => by cases answered) (Cluster.sole_of_fresh fresh.1)
    exact ih step fresh.2

/-- The execution of the first task of the sample job comes to an end. -/
def settling (outcome : Outcome) : Cluster :=
  started.apply sampleConfig sampleReader DiGraph.sort
    (.engine ⟨1⟩ { plainInput 9 with outcomes := some ((dispatchesOf started ⟨1⟩).map (fun _ => outcome)) })

/-- The first task of the sample job is in execution, under a lease of its own. -/
theorem started_checked :
    (Cluster.submitted .new sampleSubmission).drawsFresh [1, 2, 3, 4, 5, 6, 7, 8] = true ∧
    started.drawsFresh [9] = true ∧
    (started.jobs.get? ⟨1⟩).any (fun run => match run.pc with
      | .executing (dispatch :: _) =>
        dispatch.task.id == ⟨10⟩ && (started.shared.queue.leases.get? dispatch.lease.leaseId).isSome
      | _ => false) = true := by decide +kernel

theorem runs_settling {outcome : Outcome} (answers : ∀ dispatch, Cluster.Answers sampleReader dispatch outcome) :
    Cluster.Runs sampleConfig sampleReader DiGraph.sort (Cluster.Sole ⟨1⟩) .new (settling outcome) := by
  have first : Cluster.Runs sampleConfig sampleReader DiGraph.sort (Cluster.Sole ⟨1⟩) .new
    (.submitted .new sampleSubmission) :=
    Cluster.runs_submitted .start rfl (fun _ _ _ found => (by cases found)) (fun _ _ same => by cases same)
  have runs := sole_drive first [1, 2, 3, 4, 5, 6, 7, 8] started_checked.1
  have fresh := started_checked.2.1
  simp only [Cluster.drawsFresh, Bool.and_true, Bool.and_eq_true] at fresh
  refine .next runs ?_ (Cluster.sole_of_fresh fresh)
  intro run dispatches outcomes found executing same
  cases same
  have inHand : dispatchesOf started ⟨1⟩ = dispatches := by
    simp only [dispatchesOf]
    rw [show started.jobs.get? ⟨1⟩ = some run from found]
    simp only [executing, Option.elim_some]
    rfl
  rw [inHand, List.forall₂_map_right_iff]
  exact List.forall₂_same.mpr (fun dispatch _ => answers dispatch)

/-- The first task of the sample job and the state of its engine when its outcome is applied. -/
theorem settling_get? (outcome : Outcome) : ∃ run dispatch rest, (settling outcome).jobs.get? ⟨1⟩ = some run ∧
    run.pc = .applying ((dispatch, outcome) :: rest) ∧ dispatch.task.id = ⟨10⟩ ∧
    (settling outcome).shared.queue = started.shared.queue ∧
    (started.shared.queue.leases.get? dispatch.lease.leaseId).isSome = true := by
  obtain ⟨run, found, here⟩ := (Option.any_eq_true _ _).mp started_checked.2.2
  split at here
  · rename_i dispatch rest executing
    rw [Bool.and_eq_true, beq_iff_eq] at here
    have inHand : dispatchesOf started ⟨1⟩ = dispatch :: rest := by
      simp only [dispatchesOf, found, executing, Option.elim_some]
      rfl
    refine ⟨{ run with pc := .applying ((dispatch, outcome) :: rest.zip (rest.map (fun _ => outcome))) }, dispatch,
      rest.zip (rest.map (fun _ => outcome)), ?_, rfl, here.1, ?_, here.2⟩
    · simp only [settling, Cluster.apply, Cluster.engine, found, inHand, Engine.step, executing, List.map_cons,
        List.zip_cons_cons]
      exact Dict.get?_insert_self
    · simp only [settling, Cluster.apply, Cluster.engine, found, Engine.step, executing]
  · cases here

/-- The gateway declines: its budget is spent. -/
def overBudget (now : Nat) : StepInput :=
  { gatewayInput now with completion := .error (.budgetExceeded "gateway has spent $5.0000 of its $5.0000 budget") }

/-- An execution that the gateway declines. -/
def declined (dispatch : Dispatch) : Fleet :=
  [1, 2, 3, 4].foldl (fun f now => f.advanceAt sampleReader 0 (overBudget now))
    (Fleet.new.deliver dispatch.agent.id dispatch.task)

def refusal : Outcome := .returned (.error (.budgetExceeded "gateway has spent $5.0000 of its $5.0000 budget"))

theorem refusal_answers (dispatch : Dispatch) : Cluster.Answers sampleReader dispatch refusal := by
  obtain ⟨reach, d, single, agent, task⟩ := executed_same overBudget dispatch [1, 2, 3, 4]
    ⟨⟨⟨dispatch.agent.id, dispatch.task, .lookup⟩, _⟩, rfl, rfl, rfl⟩ (.deliver .start rfl rfl)
  change (declined dispatch).deliveries = [d] at single
  have points : (declined dispatch).deliveries.map (fun d => d.execution.point) =
      [.returned (.error (.budgetExceeded "gateway has spent $5.0000 of its $5.0000 budget"))] := rfl
  intro answer returned
  cases returned
  refine ⟨_, reach, d, by rw [← declined, single]; exact List.mem_singleton_self d, agent, task, ?_⟩
  rw [single] at points
  exact List.singleton_injective points

/-- The gateway declines the first attempt of a task: the engine gives the task up, the queue keeps it for a retry. -/
theorem fates_differ : ∃ run dispatch rest run',
    Cluster.Runs sampleConfig sampleReader DiGraph.sort (Cluster.Sole ⟨1⟩) .new (settling refusal) ∧
    (settling refusal).jobs.get? ⟨1⟩ = some run ∧ run.pc = .applying ((dispatch, refusal) :: rest) ∧
    refusal.Fails (settling refusal).shared.queue dispatch (plainInput 10).now ∧
    ((settling refusal).apply sampleConfig sampleReader DiGraph.sort (.engine ⟨1⟩ (plainInput 10))).jobs.get? ⟨1⟩ =
      some run' ∧
    ¬ FatesAgree run'.handle
      ((settling refusal).apply sampleConfig sampleReader DiGraph.sort (.engine ⟨1⟩ (plainInput 10))).shared.queue
      dispatch.task.id := by
  obtain ⟨run, dispatch, rest, found, applying, task, _⟩ := settling_get? refusal
  have checked :
      (((settling refusal).apply sampleConfig sampleReader DiGraph.sort (.engine ⟨1⟩ (plainInput 10))).jobs.get?
        ⟨1⟩).any (fun run => run.handle.graph.stateOf ⟨10⟩ == some .deadLettered) = true ∧
      ((settling refusal).apply sampleConfig sampleReader DiGraph.sort
        (.engine ⟨1⟩ (plainInput 10))).shared.queue.ready.any (fun entry => entry.payload.id == ⟨10⟩) = true := by
    decide +kernel
  obtain ⟨givenUp, kept⟩ := checked
  obtain ⟨run', there, state⟩ := (Option.any_eq_true _ _).mp givenUp
  obtain ⟨entry, member, same⟩ := List.any_eq_true.mp kept
  refine ⟨run, dispatch, rest, run', runs_settling refusal_answers, found, applying, trivial, there, ?_⟩
  rw [task]
  intro agree
  have waits := agree.1.mpr ⟨entry, member, beq_iff_eq.mp same⟩
  rw [beq_iff_eq.mp state] at waits
  cases waits

/-- The first attempt times out: both keep the task for a retry. -/
theorem fates_agree_elapsed : ∃ run', ((settling .elapsed).apply sampleConfig sampleReader DiGraph.sort
      (.engine ⟨1⟩ (plainInput 10))).jobs.get? ⟨1⟩ = some run' ∧
    FatesAgree run'.handle
      ((settling .elapsed).apply sampleConfig sampleReader DiGraph.sort (.engine ⟨1⟩ (plainInput 10))).shared.queue
        ⟨10⟩ := by
  obtain ⟨run, dispatch, rest, found, applying, task, same, held⟩ := settling_get? .elapsed
  have runs : Cluster.Runs sampleConfig sampleReader DiGraph.sort (Cluster.Sole ⟨1⟩) .new (settling .elapsed) :=
    runs_settling (fun _ _ returned => by cases returned)
  rw [← same] at held
  generalize settling .elapsed = settled at found runs held ⊢
  obtain ⟨run', there, agree⟩ := runs.fates_agree_iff Cluster.sample_sorts found applying (plainInput 10) trivial
  rw [task] at agree
  exact ⟨run', there, agree.mpr ⟨held, Or.inl rfl⟩⟩

end Swarm
