import Swarm.Queue.Keys

namespace Swarm

/-- A property of entries that does not look at what redelivery changes. -/
def QueuedTask.Stable (property : QueuedTask → Prop) : Prop :=
  ∀ task attempt availableAt, property task → property { task with attempt := attempt, availableAt := availableAt }

namespace InMemoryQueue

/-- Every entry that can still be delivered has the property. -/
structure Carries (q : InMemoryQueue) (property : QueuedTask → Prop) : Prop where
  ready : ∀ task ∈ q.ready, property task
  leases : ∀ leaseId lease, q.leases.get? leaseId = some lease → property lease.task

/-- Some ready entry is for this task. -/
def HasReady (q : InMemoryQueue) (task : TaskId) : Prop := ∃ entry ∈ q.ready, entry.payload.id = task

/-- Nothing gets lost but the entries of the tasks `lost`. An expired lease may
leave without a ready entry only when its budget is spent; no lease appears
under an identifier other than `granted`. -/
structure Passes (lost : TaskId → Prop) (granted : Option LeaseId) (q q' : InMemoryQueue) : Prop where
  ready : ∀ task, ¬ lost task → q.HasReady task → q'.HasReady task
  leases : ∀ leaseId lease, q.leases.get? leaseId = some lease → ¬ lost lease.task.payload.id →
    q'.leases.get? leaseId = some lease ∨ q'.leases.get? leaseId = none ∧
      (lease.task.retry.allowsRetry lease.task.attempt = true → q'.HasReady lease.task.payload.id)
  old : ∀ leaseId lease, q'.leases.get? leaseId = some lease → granted ≠ some leaseId →
    q.leases.get? leaseId = some lease

/-- No task loses its entry. -/
def NoTask : TaskId → Prop := fun _ => False

theorem Passes.refl (q : InMemoryQueue) : Passes NoTask none q q :=
  ⟨fun _ _ has => has, fun _ _ found _ => Or.inl found, fun _ _ found _ => found⟩

theorem Passes.gone {lost : TaskId → Prop} {granted : Option LeaseId} {q q' : InMemoryQueue}
    (passes : Passes lost granted q q') {leaseId : LeaseId} (absent : q.leases.get? leaseId = none)
    (other : granted ≠ some leaseId) : q'.leases.get? leaseId = none := by
  cases found : q'.leases.get? leaseId with
  | none => rfl
  | some lease =>
    rw [passes.old leaseId lease found other] at absent
    cases absent

theorem Passes.trans {q q' q'' : InMemoryQueue} (first : Passes NoTask none q q')
    (second : Passes NoTask none q' q'') :
    Passes NoTask none q q'' where
  ready task kept has := second.ready task kept (first.ready task kept has)
  leases leaseId lease found kept := by
    rcases first.leases leaseId lease found kept with stays | ⟨absent, requeued⟩
    · exact second.leases leaseId lease stays kept
    · exact Or.inr ⟨second.gone absent (by simp), fun allowed => second.ready _ kept (requeued allowed)⟩
  old leaseId lease found other := first.old leaseId lease (second.old leaseId lease found other) other

theorem Passes.weaken {lost : TaskId → Prop} {granted : Option LeaseId} {q q' : InMemoryQueue}
    (passes : Passes NoTask none q q') : Passes lost granted q q' where
  ready task _ := passes.ready task id
  leases leaseId lease found _ := passes.leases leaseId lease found id
  old leaseId lease found _ := passes.old leaseId lease found (by simp)

theorem hasReady_append {q : InMemoryQueue} {ready : List QueuedTask} {task : TaskId} {entries : List QueuedTask}
    (grown : entries = q.ready ++ ready) (has : q.HasReady task) : ∃ entry ∈ entries, entry.payload.id = task := by
  obtain ⟨entry, member, same⟩ := has
  exact ⟨entry, by rw [grown]; exact List.mem_append_left _ member, same⟩

/-- A granted lease takes its entry from the ready ones. -/
theorem dequeueFrom_some {q q' : InMemoryQueue} {worker : String} {queues : List String}
    {capabilities : List Capability} {now : DateTime} {leaseId : LeaseId} {lease : TaskLease}
    (run : q.dequeueFrom worker queues capabilities now leaseId = (some lease, q')) :
    ∃ entry rest, q.pick now queues capabilities = some (entry, rest) ∧ q.ready.Perm (entry :: q'.ready) ∧
      lease.leaseId = leaseId ∧ lease.task = { entry with attempt := (entry.attempt + 1) % 2 ^ 32 } ∧
      lease.state = .held ∧ q'.leases = q.leases.insert leaseId lease ∧ q'.seen = q.seen := by
  unfold dequeueFrom at run
  cases picked : q.pick now queues capabilities with
  | none =>
    rw [picked] at run
    cases run
  | some answer =>
    obtain ⟨entry, rest⟩ := answer
    rw [picked] at run
    obtain ⟨taken, same⟩ := pick_some picked
    cases run
    exact ⟨entry, rest, rfl, taken, rfl, rfl, rfl, by rw [same], by rw [same]⟩

theorem dequeueFrom_none {q q' : InMemoryQueue} {worker : String} {queues : List String}
    {capabilities : List Capability} {now : DateTime} {leaseId : LeaseId}
    (run : q.dequeueFrom worker queues capabilities now leaseId = (none, q')) :
    q' = q := by
  unfold dequeueFrom at run
  split at run <;> cases run
  rfl

theorem passes_enqueue (q : InMemoryQueue) (task : QueuedTask) : Passes NoTask none q (q.enqueue task) := by
  unfold enqueue
  split
  · exact ⟨fun _ _ has => has, fun _ _ found _ => Or.inl found, fun _ _ found _ => found⟩
  · exact ⟨fun _ _ has => hasReady_append rfl has, fun _ _ found _ => Or.inl found, fun _ _ found _ => found⟩

theorem hasReady_enqueue {q : InMemoryQueue} {task : QueuedTask} (unseen : task.idempotencyKey ∉ q.seen) :
    (q.enqueue task).HasReady task.payload.id := by
  unfold enqueue
  rw [if_neg (by simpa using unseen)]
  exact ⟨task, by simp, rfl⟩

theorem passes_dequeueFrom {q q' : InMemoryQueue} {worker : String} {queues : List String}
    {capabilities : List Capability} {now : DateTime} {leaseId : LeaseId} {lease : TaskLease}
    (run : q.dequeueFrom worker queues capabilities now leaseId = (some lease, q'))
    (fresh : q.leases.get? leaseId = none) : Passes (· = lease.task.payload.id) (some leaseId) q q' := by
  obtain ⟨entry, _, _, taken, _, task, _, leases, _⟩ := dequeueFrom_some run
  refine ⟨?_, ?_, ?_⟩
  · rintro other kept ⟨found, member, rfl⟩
    rcases List.mem_cons.mp (taken.mem_iff.mp member) with rfl | stays
    · exact absurd (by rw [task]) kept
    · exact ⟨found, stays, rfl⟩
  · intro other held found _
    rw [leases, Dict.get?_insert]
    split
    · rename_i same
      rw [same, fresh] at found
      cases found
    · exact Or.inl found
  · intro other held found different
    rw [leases, Dict.get?_insert, if_neg] at found
    · exact found
    · rintro rfl
      exact different rfl

/-- A lease leaves, and its entry comes back unless its budget is spent. -/
theorem passes_retryOrPark {q : InMemoryQueue} {leaseId : LeaseId} {lease : TaskLease}
    (found : q.leases.get? leaseId = some lease) (stats : QueueStats) (reason : String) (now : DateTime) :
    Passes NoTask none q
      (retryOrPark { q with leases := q.leases.erase leaseId, stats := stats } lease.task reason now) := by
  have leases : ∀ other, (retryOrPark { q with leases := q.leases.erase leaseId, stats := stats } lease.task reason
      now).leases.get? other = if other = leaseId then none else q.leases.get? other := by
    intro other
    rw [retryOrPark_leases]
    exact Dict.get?_erase
  have ready : ∀ task, q.HasReady task →
      (retryOrPark { q with leases := q.leases.erase leaseId, stats := stats } lease.task reason now).HasReady
        task := by
    intro task has
    unfold retryOrPark
    split
    · exact hasReady_append rfl has
    · exact has
  refine ⟨fun task _ => ready task, ?_, ?_⟩
  · intro other held here _
    rw [leases]
    split
    · rename_i same
      rw [same, found] at here
      cases here
      refine Or.inr ⟨rfl, fun allowed => ?_⟩
      unfold retryOrPark
      rw [if_pos allowed]
      exact ⟨_, List.mem_append_right _ (List.mem_singleton_self _), rfl⟩
    · exact Or.inl here
  · intro other held here _
    rw [leases] at here
    split at here
    · cases here
    · exact here

theorem passes_reject {q : InMemoryQueue} (live : q.LeasesLive) (leaseId : LeaseId) (reason : String)
    (now : DateTime) :
    Passes NoTask none q (q.reject leaseId reason now).2 := by
  rcases reject_cases live leaseId reason now with ⟨_, run⟩ | ⟨held, found, run⟩
  · rw [run]
    exact .refl q
  · rw [run]
    exact passes_retryOrPark found q.stats reason now

/-- An acknowledgement that fails loses nothing. -/
theorem passes_acknowledge_error {q q' : InMemoryQueue} (live : q.LeasesLive) {leaseId : LeaseId} {now : DateTime}
    {e : SwarmError} (run : q.acknowledge leaseId now = (.error e, q')) : Passes NoTask none q q' := by
  rcases acknowledge_cases live leaseId now with ⟨_, same⟩ | ⟨held, detail, found, _, same⟩ | ⟨_, _, _, same⟩ <;>
    rw [same] at run <;> cases run
  · exact .refl q
  · exact passes_retryOrPark found _ _ now

/-- An acknowledgement loses at most the entry of its lease. -/
theorem passes_acknowledge {q : InMemoryQueue} (live : q.LeasesLive) (leaseId : LeaseId) (now : DateTime) :
    Passes (fun task => ∃ held, q.leases.get? leaseId = some held ∧ held.task.payload.id = task) none q
      (q.acknowledge leaseId now).2 := by
  rcases acknowledge_cases live leaseId now with ⟨_, same⟩ | ⟨held, detail, found, _, same⟩
    | ⟨held, found, _, same⟩ <;>
    rw [same]
  · exact (Passes.refl q).weaken
  · exact (passes_retryOrPark found _ _ now).weaken
  · refine ⟨fun _ _ has => has, ?_, ?_⟩
    · intro other lease here kept
      refine Or.inl ?_
      rw [Dict.get?_erase, if_neg]
      · exact here
      · rintro rfl
        exact kept ⟨lease, here, rfl⟩
    · intro other lease here _
      simp only [Dict.get?_erase] at here
      split at here
      · cases here
      · exact here

theorem passes_release (q : InMemoryQueue) (leaseId : LeaseId) (now : DateTime) :
    Passes NoTask none q (q.release leaseId now).2 := by
  unfold release takeLease
  cases found : q.leases.get? leaseId with
  | none => exact .refl q
  | some held =>
    refine ⟨fun _ _ has => hasReady_append rfl has, ?_, ?_⟩
    · intro other lease here _
      simp only [Dict.get?_erase]
      split
      · rename_i same
        rw [same, found] at here
        cases here
        exact Or.inr ⟨rfl, fun _ => ⟨_, List.mem_append_right _ (List.mem_singleton_self _), rfl⟩⟩
      · exact Or.inl here
    · intro other lease here _
      simp only [Dict.get?_erase] at here
      split at here
      · cases here
      · exact here

/-- Giving a lease back makes its entry ready again. -/
theorem release_ok {q q' : InMemoryQueue} {leaseId : LeaseId} {now : DateTime}
    (run : q.release leaseId now = (.ok (), q')) :
    ∃ held, q.leases.get? leaseId = some held ∧ q'.HasReady held.task.payload.id := by
  unfold release takeLease at run
  cases found : q.leases.get? leaseId with
  | none =>
    rw [found] at run
    cases run
  | some held =>
    rw [found] at run
    cases run
    exact ⟨held, rfl, _, List.mem_append_right _ (List.mem_singleton_self _), rfl⟩

theorem passes_requeueLease (now : DateTime) (q : InMemoryQueue) (leaseId : LeaseId) :
    Passes NoTask none q (requeueLease now q leaseId) := by
  unfold requeueLease
  cases found : q.leases.get? leaseId with
  | none => exact .refl q
  | some lease => exact passes_retryOrPark found _ _ now

theorem passes_requeueExpired (q : InMemoryQueue) (now : DateTime) :
    Passes NoTask none q (q.requeueExpired now).2 := by
  have sweep : ∀ (expired : List LeaseId) (q : InMemoryQueue),
      Passes NoTask none q (expired.foldl (requeueLease now) q) := by
    intro expired
    induction expired with
    | nil => exact fun q => .refl q
    | cons leaseId rest ih => exact fun q => (passes_requeueLease now q leaseId).trans (ih _)
  exact sweep _ q

/-- Two properties of entries, for the ready ones and for the leased ones, that go with the
way of an entry through the queue. -/
structure Cycle (waiting granted : QueuedTask → Prop) : Prop where
  lease : ∀ task, waiting task → granted { task with attempt := (task.attempt + 1) % 2 ^ 32 }
  retry : ∀ task availableAt, granted task → task.retry.allowsRetry task.attempt = true →
    waiting { task with availableAt := availableAt }
  release : ∀ task availableAt, granted task →
    waiting { task with attempt := task.attempt - 1, availableAt := availableAt }

/-- The ready entries have the one property, the leased ones the other. -/
structure Houses (q : InMemoryQueue) (waiting granted : QueuedTask → Prop) : Prop where
  ready : ∀ task ∈ q.ready, waiting task
  leases : ∀ leaseId lease, q.leases.get? leaseId = some lease → granted lease.task

section
variable {q : InMemoryQueue} {waiting granted : QueuedTask → Prop}

theorem Houses.mono (holds : q.Houses waiting granted) {waiting' granted' : QueuedTask → Prop}
    (readier : ∀ task, waiting task → waiting' task) (leased : ∀ task, granted task → granted' task) :
    q.Houses waiting' granted' :=
  ⟨fun task member => readier task (holds.ready task member),
    fun leaseId lease found => leased lease.task (holds.leases leaseId lease found)⟩

theorem Houses.enqueue (holds : q.Houses waiting granted) {task : QueuedTask} (waits : waiting task) :
    (q.enqueue task).Houses waiting granted := by
  unfold InMemoryQueue.enqueue
  split
  · exact ⟨holds.ready, holds.leases⟩
  · refine ⟨?_, holds.leases⟩
    intro entry member
    rcases List.mem_append.mp member with old | new
    · exact holds.ready entry old
    · rw [List.mem_singleton.mp new]
      exact waits

theorem Houses.polled (holds : q.Houses waiting granted) (cycle : Cycle waiting granted) {worker : String}
    {queues : List String} {capabilities : List Capability} {now : DateTime} {leaseId : LeaseId} {lease : TaskLease}
    {q' : InMemoryQueue} (run : q.dequeueFrom worker queues capabilities now leaseId = (some lease, q')) :
    q'.Houses waiting granted ∧ granted lease.task := by
  obtain ⟨entry, _, _, taken, _, task, _, leases, _⟩ := dequeueFrom_some run
  have given : granted lease.task := by
    rw [task]
    exact cycle.lease entry (holds.ready entry (taken.mem_iff.mpr List.mem_cons_self))
  refine ⟨⟨fun other member => holds.ready other (taken.mem_iff.mpr (List.mem_cons_of_mem _ member)), ?_⟩, given⟩
  intro other held found
  rw [leases, Dict.get?_insert] at found
  split at found
  · cases found
    exact given
  · exact holds.leases other held found

theorem Houses.erase (holds : q.Houses waiting granted) (leaseId : LeaseId) (stats : QueueStats) :
    { q with leases := q.leases.erase leaseId, stats := stats }.Houses waiting granted := by
  refine ⟨holds.ready, ?_⟩
  intro other held found
  simp only [Dict.get?_erase] at found
  split at found
  · cases found
  · exact holds.leases other held found

theorem Houses.push (holds : q.Houses waiting granted) {task : QueuedTask} (waits : waiting task)
    (stats : QueueStats) :
    { q with ready := q.ready ++ [task], stats := stats }.Houses waiting granted := by
  refine ⟨?_, holds.leases⟩
  intro entry member
  rcases List.mem_append.mp member with old | new
  · exact holds.ready entry old
  · rw [List.mem_singleton.mp new]
    exact waits

theorem Houses.retryOrPark (holds : q.Houses waiting granted) (cycle : Cycle waiting granted) {task : QueuedTask}
    (given : granted task) (reason : String) (now : DateTime) :
    (q.retryOrPark task reason now).Houses waiting granted := by
  unfold InMemoryQueue.retryOrPark
  split
  · rename_i allowed
    exact holds.push (cycle.retry task _ given allowed) _
  · exact ⟨holds.ready, holds.leases⟩

theorem Houses.acknowledge (holds : q.Houses waiting granted) (cycle : Cycle waiting granted) (leaseId : LeaseId)
    (now : DateTime) : (q.acknowledge leaseId now).2.Houses waiting granted := by
  unfold InMemoryQueue.acknowledge takeLease
  cases found : q.leases.get? leaseId with
  | none => exact holds
  | some held =>
    simp only
    split
    · exact (holds.erase leaseId _).retryOrPark cycle (holds.leases leaseId held found) _ now
    · split
      · exact holds.erase leaseId q.stats
      · exact holds.erase leaseId _

theorem Houses.reject (holds : q.Houses waiting granted) (cycle : Cycle waiting granted) (leaseId : LeaseId)
    (reason : String) (now : DateTime) : (q.reject leaseId reason now).2.Houses waiting granted := by
  unfold InMemoryQueue.reject takeLease
  cases found : q.leases.get? leaseId with
  | none => exact holds
  | some held =>
    simp only
    split
    · exact holds.erase leaseId q.stats
    · exact (holds.erase leaseId q.stats).retryOrPark cycle (holds.leases leaseId held found) reason now

theorem Houses.release (holds : q.Houses waiting granted) (cycle : Cycle waiting granted) (leaseId : LeaseId)
    (now : DateTime) : (q.release leaseId now).2.Houses waiting granted := by
  unfold InMemoryQueue.release takeLease
  cases found : q.leases.get? leaseId with
  | none => exact holds
  | some held =>
      exact (holds.erase leaseId q.stats).push (cycle.release held.task now (holds.leases leaseId held found)) _

theorem Houses.requeueExpired (holds : q.Houses waiting granted) (cycle : Cycle waiting granted) (now : DateTime) :
    (q.requeueExpired now).2.Houses waiting granted := by
  have sweep : ∀ (expired : List LeaseId) (q : InMemoryQueue), q.Houses waiting granted →
      (expired.foldl (requeueLease now) q).Houses waiting granted := by
    intro expired
    induction expired with
    | nil => exact fun _ holds => holds
    | cons leaseId rest ih =>
      intro q holds
      refine ih _ ?_
      unfold requeueLease
      cases found : q.leases.get? leaseId with
      | none => exact holds
      | some lease => exact (holds.erase leaseId _).retryOrPark cycle (holds.leases leaseId lease found) _ now
  exact sweep _ q holds

theorem Houses.purgeJob (holds : q.Houses waiting granted) (jobId : JobId) :
    (q.purgeJob jobId).2.Houses waiting granted := by
  refine ⟨fun entry member => holds.ready entry (List.mem_of_mem_filter member), ?_⟩
  intro leaseId lease found
  simp only [InMemoryQueue.purgeJob, Dict.get?_retain, Option.filter_eq_some_iff] at found
  exact holds.leases leaseId lease found.1

end

section
variable {q : InMemoryQueue} {property : QueuedTask → Prop}

theorem carries_iff : q.Carries property ↔ q.Houses property property :=
  ⟨fun carries => ⟨carries.ready, carries.leases⟩, fun holds => ⟨holds.ready, holds.leases⟩⟩

theorem cycle_of_stable (stable : QueuedTask.Stable property) : Cycle property property where
  lease task holds := stable task _ task.availableAt holds
  retry task availableAt holds _ := stable task task.attempt availableAt holds
  release task availableAt holds := stable task _ availableAt holds

theorem Carries.polled (carries : q.Carries property) (stable : QueuedTask.Stable property) {worker : String}
    {queues : List String} {capabilities : List Capability} {now : DateTime} {leaseId : LeaseId} {lease : TaskLease}
    {q' : InMemoryQueue} (run : q.dequeueFrom worker queues capabilities now leaseId = (some lease, q')) :
    q'.Carries property ∧ property lease.task := by
  obtain ⟨holds, granted⟩ := (carries_iff.mp carries).polled (cycle_of_stable stable) run
  exact ⟨carries_iff.mpr holds, granted⟩

theorem Carries.enqueue (carries : q.Carries property) {task : QueuedTask} (holds : property task) :
    (q.enqueue task).Carries property := carries_iff.mpr ((carries_iff.mp carries).enqueue holds)

theorem Carries.purgeJob (carries : q.Carries property) (jobId : JobId) : (q.purgeJob jobId).2.Carries property :=
  carries_iff.mpr ((carries_iff.mp carries).purgeJob jobId)

/-- There is nothing to purge of a job without entries. -/
theorem purgeJob_other {jobId : JobId} (other : q.Carries (fun entry => entry.jobId ≠ jobId)) :
    (q.purgeJob jobId).2.ready = q.ready ∧ ∀ leaseId, (q.purgeJob jobId).2.leases.get? leaseId =
      q.leases.get? leaseId := by
  refine ⟨List.filter_eq_self.mpr (fun entry member => bne_iff_ne.mpr (other.ready entry member)), ?_⟩
  intro leaseId
  simp only [InMemoryQueue.purgeJob, Dict.get?_retain]
  cases found : q.leases.get? leaseId with
  | none => rfl
  | some lease => exact Option.filter_eq_some_iff.mpr ⟨rfl, bne_iff_ne.mpr (other.leases leaseId lease found)⟩

end

end InMemoryQueue

end Swarm
