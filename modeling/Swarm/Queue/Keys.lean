import Swarm.Queue.Model

namespace Swarm

/-- A reading of entries that does not look at what redelivery changes. -/
def QueuedTask.Blind {β : Type} (read : QueuedTask → β) : Prop :=
  ∀ task attempt availableAt, read { task with attempt := attempt, availableAt := availableAt } = read task

theorem QueuedTask.blind_key : Blind QueuedTask.idempotencyKey := fun _ _ _ => rfl

namespace InMemoryQueue

/-- What is read off everything the queue still holds. -/
def labels {β : Type} (q : InMemoryQueue) (read : QueuedTask → β) : List β :=
  q.ready.map read ++ q.leases.values.map (fun lease => read lease.task) ++
    q.dead.map (fun letter => read letter.task)

def readyKeys (q : InMemoryQueue) : List String := q.ready.map QueuedTask.idempotencyKey

def leaseKeys (q : InMemoryQueue) : List String := q.leases.values.map (fun lease => lease.task.idempotencyKey)

def deadKeys (q : InMemoryQueue) : List String := q.dead.map (fun letter => letter.task.idempotencyKey)

/-- The attempt keys of everything the queue still holds. -/
def keys (q : InMemoryQueue) : List String := q.readyKeys ++ q.leaseKeys ++ q.deadKeys

/-- Every lease is filed under its own identifier and has not been settled. -/
def LeasesLive (q : InMemoryQueue) : Prop :=
  ∀ entry ∈ q.leases.entries, entry.2.leaseId = entry.1 ∧ entry.2.state.isActive = true

/-- An operation that only moves entries between the containers. -/
structure Moves (q q' : InMemoryQueue) : Prop where
  labels : ∀ {β : Type} {read : QueuedTask → β}, QueuedTask.Blind read → (q'.labels read).Perm (q.labels read)
  seen : q'.seen = q.seen
  acknowledged : q'.stats.acknowledgedTotal = q.stats.acknowledgedTotal
  enqueued : q'.stats.enqueuedTotal = q.stats.enqueuedTotal
  live : q.LeasesLive → q'.LeasesLive

theorem Moves.keys {q q' : InMemoryQueue} (moves : Moves q q') : q'.keys.Perm q.keys :=
  moves.labels QueuedTask.blind_key

theorem Moves.refl (q : InMemoryQueue) : Moves q q := ⟨fun _ => List.Perm.refl _, rfl, rfl, rfl, id⟩

theorem Moves.trans {q q' q'' : InMemoryQueue} (first : Moves q q') (second : Moves q' q'') : Moves q q'' where
  labels blind := (second.labels blind).trans (first.labels blind)
  seen := second.seen.trans first.seen
  acknowledged := second.acknowledged.trans first.acknowledged
  enqueued := second.enqueued.trans first.enqueued
  live := second.live ∘ first.live

theorem keys_length (q : InMemoryQueue) :
    q.keys.length = q.ready.length + q.leases.entries.length + q.dead.length := by
  simp [keys, readyKeys, leaseKeys, deadKeys, Dict.values, Nat.add_assoc]

section
variable {β : Type} {read : QueuedTask → β}

/-- Taking a lease out removes one entry and nothing else. -/
theorem labels_erase {q : InMemoryQueue} {leaseId : LeaseId} {lease : TaskLease}
    (found : q.leases.get? leaseId = some lease) :
    (q.labels read).Perm (read lease.task :: { q with leases := q.leases.erase leaseId }.labels read) := by
  have taken := Dict.erase_entries_perm (Dict.get?_eq_some.mp found)
  have leases := ((taken.map Prod.snd).map (fun lease => read lease.task)).append_left (q.ready.map read)
  exact (leases.trans List.perm_middle).append_right _

theorem labels_push (read : QueuedTask → β) {q : InMemoryQueue} (task : QueuedTask) :
    ({ q with ready := q.ready ++ [task] }.labels read).Perm (read task :: q.labels read) := by
  simp only [labels, List.map_append, List.map_cons, List.map_nil, List.append_assoc, List.singleton_append]
  exact List.perm_middle

theorem labels_retryOrPark {q : InMemoryQueue} (blind : QueuedTask.Blind read) (task : QueuedTask) (reason : String)
    (now : DateTime) : ((q.retryOrPark task reason now).labels read).Perm (read task :: q.labels read) := by
  unfold retryOrPark
  split
  · have pushed := labels_push read (q := q) { task with
      availableAt := now + milliseconds (asI64 (task.retry.backoffMs task.attempt (subsecNanos now))) }
    rw [blind task task.attempt] at pushed
    exact pushed
  · simp only [labels, List.map_append, List.map_cons, List.map_nil]
    rw [← List.append_assoc]
    exact List.perm_append_comm

theorem labels_pick {q rest : InMemoryQueue} {task : QueuedTask} (taken : q.ready.Perm (task :: rest.ready))
    (same : rest = { q with ready := rest.ready }) : (q.labels read).Perm (read task :: rest.labels read) := by
  have leases : rest.leases = q.leases := by rw [same]
  have dead : rest.dead = q.dead := by rw [same]
  simp only [labels, leases, dead]
  exact ((taken.map read).append_right _).append_right _

theorem labels_grant (read : QueuedTask → β) {q : InMemoryQueue} {leaseId : LeaseId}
    (fresh : leaseId ∉ q.leases.keys) (lease : TaskLease) (stats : QueueStats) :
    ({ q with leases := q.leases.insert leaseId lease, stats := stats }.labels read).Perm
      (read lease.task :: q.labels read) := by
  simp only [labels, Dict.values, Dict.insert_entries_of_absent fresh, List.map_append, List.map_cons, List.map_nil,
    List.append_assoc, List.singleton_append]
  rw [← List.append_assoc, ← List.append_assoc]
  exact List.perm_middle

end

theorem keys_erase {q : InMemoryQueue} {leaseId : LeaseId} {lease : TaskLease}
    (found : q.leases.get? leaseId = some lease) :
    q.keys.Perm (lease.task.idempotencyKey :: { q with leases := q.leases.erase leaseId }.keys) := labels_erase found

theorem keys_push {q : InMemoryQueue} (task : QueuedTask) :
    { q with ready := q.ready ++ [task] }.keys.Perm (task.idempotencyKey :: q.keys) := labels_push _ task

/-- Taking a letter out removes its key and no other. -/
theorem keys_eraseIdx {q : InMemoryQueue} {position : Nat} (bound : position < q.dead.length) :
    q.keys.Perm (q.dead[position].task.idempotencyKey :: { q with dead := q.dead.eraseIdx position }.keys) := by
  have taken := ((List.getElem_cons_eraseIdx_perm bound).map
    (fun letter => letter.task.idempotencyKey)).append_left (q.readyKeys ++ q.leaseKeys)
  exact taken.symm.trans List.perm_middle

@[simp] theorem retryOrPark_leases {q : InMemoryQueue} (task : QueuedTask) (reason : String) (now : DateTime) :
    (q.retryOrPark task reason now).leases = q.leases := by
  unfold retryOrPark
  split <;> rfl

@[simp] theorem retryOrPark_seen {q : InMemoryQueue} (task : QueuedTask) (reason : String) (now : DateTime) :
    (q.retryOrPark task reason now).seen = q.seen := by
  unfold retryOrPark
  split <;> rfl

theorem retryOrPark_totals {q : InMemoryQueue} (task : QueuedTask) (reason : String) (now : DateTime) :
    (q.retryOrPark task reason now).stats.acknowledgedTotal = q.stats.acknowledgedTotal ∧
      (q.retryOrPark task reason now).stats.enqueuedTotal = q.stats.enqueuedTotal := by
  unfold retryOrPark
  split <;> exact ⟨rfl, rfl⟩

theorem LeasesLive.erase {q : InMemoryQueue} (live : q.LeasesLive) (leaseId : LeaseId) :
    { q with leases := q.leases.erase leaseId }.LeasesLive :=
  fun entry member => live entry (List.mem_of_mem_filter member)

/-- A lease leaves and its entry comes back as `retry_or_park` prescribes. -/
theorem moves_retryOrPark {q : InMemoryQueue} {leaseId : LeaseId} {lease : TaskLease}
    (found : q.leases.get? leaseId = some lease) (stats : QueueStats) (reason : String) (now : DateTime)
    (acknowledged : stats.acknowledgedTotal = q.stats.acknowledgedTotal)
    (enqueued : stats.enqueuedTotal = q.stats.enqueuedTotal) :
    Moves q (retryOrPark { q with leases := q.leases.erase leaseId, stats := stats } lease.task reason now) where
  labels blind := (labels_retryOrPark blind lease.task reason now).trans (labels_erase found).symm
  seen := by rw [retryOrPark_seen]
  acknowledged := by rw [(retryOrPark_totals lease.task reason now).1, acknowledged]
  enqueued := by rw [(retryOrPark_totals lease.task reason now).2, enqueued]
  live := by
    intro live
    unfold LeasesLive
    rw [retryOrPark_leases]
    exact live.erase leaseId

theorem pick_some {q rest : InMemoryQueue} {now : DateTime} {queues : List String} {capabilities : List Capability}
    {task : QueuedTask} (run : q.pick now queues capabilities = some (task, rest)) :
    q.ready.Perm (task :: rest.ready) ∧ rest = { q with ready := rest.ready } := by
  unfold pick at run
  obtain ⟨position, _, run⟩ := Option.bind_eq_some_iff.mp run
  obtain ⟨taken, found, run⟩ := Option.bind_eq_some_iff.mp run
  cases run
  exact ⟨Vec.perm_swapRemove found, rfl⟩

theorem moves_dequeueFrom {q : InMemoryQueue} (worker : String) (queues : List String)
    (capabilities : List Capability) (now : DateTime) {leaseId : LeaseId} (fresh : leaseId ∉ q.leases.keys) :
    Moves q (q.dequeueFrom worker queues capabilities now leaseId).2 := by
  unfold dequeueFrom
  cases run : q.pick now queues capabilities with
  | none => exact Moves.refl q
  | some picked =>
    obtain ⟨task, rest⟩ := picked
    obtain ⟨taken, same⟩ := pick_some run
    have leases : rest.leases = q.leases := by rw [same]
    have absent : leaseId ∉ rest.leases.keys := leases ▸ fresh
    refine ⟨?_, by rw [same], by rw [same], by rw [same], ?_⟩
    · intro β read blind
      have granted := labels_grant read absent ⟨leaseId, { task with attempt := (task.attempt + 1) % 2 ^ 32 },
        worker, now, now + milliseconds (asI64 task.leaseDurationMs), .held⟩
        { rest.stats with dequeuedTotal := rest.stats.dequeuedTotal + 1 }
      have blindTask : read { task with attempt := (task.attempt + 1) % 2 ^ 32 } = read task :=
        blind task _ task.availableAt
      rw [blindTask] at granted
      exact granted.trans (labels_pick taken same).symm
    · intro live entry member
      rw [Dict.insert_entries_of_absent absent, List.mem_append, List.mem_singleton, leases] at member
      rcases member with old | rfl
      · exact live entry old
      · exact ⟨rfl, rfl⟩

theorem LeasesLive.of_get? {q : InMemoryQueue} (live : q.LeasesLive) {leaseId : LeaseId} {lease : TaskLease}
    (found : q.leases.get? leaseId = some lease) : lease.leaseId = leaseId ∧ lease.state.isActive = true :=
  live _ (Dict.get?_eq_some.mp found)

/-- What an acknowledgement does: it fails and changes nothing, sends an
expired entry back, or drops the entry. -/
theorem acknowledge_cases {q : InMemoryQueue} (live : q.LeasesLive) (leaseId : LeaseId) (now : DateTime) :
    (q.leases.get? leaseId = none ∧ q.acknowledge leaseId now =
        (.error (.queue s!"unknown or already-settled lease {leaseId.display}"), q)) ∨
    (∃ held detail, q.leases.get? leaseId = some held ∧ held.isExpired now = true ∧
      q.acknowledge leaseId now = (.error (.queue detail), retryOrPark
        { q with
          leases := q.leases.erase leaseId
          stats := { q.stats with expiredTotal := q.stats.expiredTotal + 1 } }
        held.task "lease expired before acknowledgement" now)) ∨
    (∃ held, q.leases.get? leaseId = some held ∧ held.isExpired now = false ∧
      q.acknowledge leaseId now = (.ok (),
        { q with
          leases := q.leases.erase leaseId
          stats := { q.stats with acknowledgedTotal := q.stats.acknowledgedTotal + 1 } })) := by
  unfold acknowledge takeLease
  cases found : q.leases.get? leaseId with
  | none => exact Or.inl ⟨rfl, rfl⟩
  | some held =>
    cases expired : held.isExpired now with
    | true => exact Or.inr (Or.inl ⟨held, _, rfl, expired, if_pos expired⟩)
    | false =>
      have moved := StateMachine.transition_of_mem
        (LeaseState.active_allows (live.of_get? found).2 (Or.inr (Or.inl rfl)))
      exact Or.inr (Or.inr ⟨held, rfl, expired, by simp [expired, moved]⟩)

/-- A rejection either finds no lease or sends the entry back. -/
theorem reject_cases {q : InMemoryQueue} (live : q.LeasesLive) (leaseId : LeaseId) (reason : String)
    (now : DateTime) :
    (q.leases.get? leaseId = none ∧ q.reject leaseId reason now =
        (.error (.queue s!"unknown or already-settled lease {leaseId.display}"), q)) ∨
    (∃ held, q.leases.get? leaseId = some held ∧ q.reject leaseId reason now =
      (.ok (), retryOrPark { q with leases := q.leases.erase leaseId } held.task reason now)) := by
  unfold reject takeLease
  cases found : q.leases.get? leaseId with
  | none => exact Or.inl ⟨rfl, rfl⟩
  | some held =>
    have moved := StateMachine.transition_of_mem
      (LeaseState.active_allows (live.of_get? found).2 (Or.inr (Or.inr rfl)))
    exact Or.inr ⟨held, rfl, by simp [moved]⟩

/-- What an extension does to a lease that runs. -/
theorem extendLease_cases {q : InMemoryQueue} (live : q.LeasesLive) {leaseId : LeaseId} {held : TaskLease}
    (found : q.leases.get? leaseId = some held) (millis : Nat) {now : DateTime}
    (running : held.isExpired now = false) :
    (2 ^ 63 ≤ millis ∧ q.extendLease leaseId millis now =
      (.error (.queue "lease extension does not fit in i64 ms"),
        { q with leases := q.leases.modify leaseId (fun lease => { lease with state := .extended }) })) ∨
    (millis < 2 ^ 63 ∧ q.extendLease leaseId millis now =
      (.ok (),
        { q with leases := q.leases.modify leaseId (fun lease =>
          { lease with state := .extended, expiresAt := now + milliseconds millis }) })) := by
  have moved := StateMachine.transition_of_mem (LeaseState.active_allows (live.of_get? found).2 (Or.inl rfl))
  unfold extendLease
  by_cases large : 2 ^ 63 ≤ millis
  · exact Or.inl ⟨large, by simp only [found, running, moved, if_pos large, Bool.false_eq_true, if_false]⟩
  · exact Or.inr ⟨by omega, by simp only [found, running, moved, if_neg large, Bool.false_eq_true, if_false]⟩

theorem moves_reject {q : InMemoryQueue} (live : q.LeasesLive) (leaseId : LeaseId) (reason : String)
    (now : DateTime) : Moves q (q.reject leaseId reason now).2 := by
  rcases reject_cases live leaseId reason now with ⟨_, run⟩ | ⟨held, found, run⟩
  · rw [run]
    exact Moves.refl q
  · rw [run]
    exact moves_retryOrPark found q.stats reason now rfl rfl

theorem moves_release (q : InMemoryQueue) (leaseId : LeaseId) (now : DateTime) :
    Moves q (q.release leaseId now).2 := by
  unfold release takeLease
  cases found : q.leases.get? leaseId with
  | none => exact Moves.refl q
  | some held =>
    refine ⟨?_, rfl, rfl, rfl, fun live => live.erase leaseId⟩
    intro β read blind
    have pushed := labels_push read (q := { q with leases := q.leases.erase leaseId })
      { held.task with attempt := held.task.attempt - 1, availableAt := now }
    rw [blind held.task] at pushed
    exact pushed.trans (labels_erase found).symm

/-- Rewriting a lease in place keeps every key, as long as the entry is left alone. -/
theorem moves_modify {q : InMemoryQueue} (leaseId : LeaseId) (change : TaskLease → TaskLease)
    (task : ∀ lease, (change lease).task = lease.task) (name : ∀ lease, (change lease).leaseId = lease.leaseId)
    (active : ∀ lease, (change lease).state.isActive = true) :
    Moves q { q with leases := q.leases.modify leaseId change } where
  labels := by
    intro β read _
    have same : (q.leases.modify leaseId change).values.map (fun lease => read lease.task) =
        q.leases.values.map (fun lease => read lease.task) := by
      simp only [Dict.values, Dict.modify, List.map_map]
      refine List.map_congr_left ?_
      intro entry _
      simp only [Function.comp_apply]
      split
      · exact congrArg read (task entry.2)
      · rfl
    unfold InMemoryQueue.labels
    rw [same]
  seen := rfl
  acknowledged := rfl
  enqueued := rfl
  live := by
    rintro live ⟨key, lease⟩ member
    obtain ⟨old, present, rfl⟩ := Dict.mem_modify.mp member
    have sound := live _ present
    simp only
    split
    · exact ⟨(name old).trans sound.1, active old⟩
    · exact sound

theorem moves_extendLease (q : InMemoryQueue) (leaseId : LeaseId) (millis : Nat) (now : DateTime) :
    Moves q (q.extendLease leaseId millis now).2 := by
  unfold extendLease
  cases found : q.leases.get? leaseId with
  | none => exact Moves.refl q
  | some held =>
    simp only
    split
    · exact Moves.refl q
    · cases moved : StateMachine.transition held.state LeaseState.extended with
      | error e => exact Moves.refl q
      | ok next =>
        obtain ⟨rfl, _⟩ := StateMachine.transition_ok moved
        simp only
        split
        · exact moves_modify leaseId _ (fun _ => rfl) (fun _ => rfl) (fun _ => rfl)
        · exact moves_modify leaseId _ (fun _ => rfl) (fun _ => rfl) (fun _ => rfl)

/-- The map of leases is iterated in another order. -/
theorem moves_rehash {q : InMemoryQueue} {leases : Dict LeaseId TaskLease} (moved : q.leases.Rehash leases) :
    Moves q { q with leases := leases } where
  labels := by
    intro β read _
    have same := ((moved.symm.map Prod.snd).map (fun lease => read lease.task)).append_left (q.ready.map read)
    exact same.append_right _
  seen := rfl
  acknowledged := rfl
  enqueued := rfl
  live live entry member := live entry (moved.mem_iff.mpr member)

/-- A replay finds no letter of the task, or puts the first one back among the ready entries. -/
theorem replayDeadLetter_cases (q : InMemoryQueue) (taskId : TaskId) (now : DateTime) :
    q.replayDeadLetter taskId now = (false, q) ∨
    (∃ position, ∃ bound : position < q.dead.length, q.replayDeadLetter taskId now =
      (true, { q with
        dead := q.dead.eraseIdx position
        ready := q.ready ++ [{ q.dead[position].task with availableAt := now }]
        stats := { q.stats with enqueuedTotal := q.stats.enqueuedTotal + 1 } })) := by
  unfold replayDeadLetter
  cases q.dead.findIdx? (fun letter => letter.task.taskId == taskId) with
  | none => exact Or.inl rfl
  | some position =>
    cases found : q.dead[position]? with
    | none => exact Or.inl (by simp only [found])
    | some letter =>
      obtain ⟨bound, rfl⟩ := List.getElem?_eq_some_iff.mp found
      exact Or.inr ⟨position, bound, by simp only [found]⟩

theorem moves_requeueLease (q : InMemoryQueue) (now : DateTime) (leaseId : LeaseId) :
    Moves q (requeueLease now q leaseId) := by
  unfold requeueLease
  cases found : q.leases.get? leaseId with
  | none => exact Moves.refl q
  | some lease => exact moves_retryOrPark found _ "lease expired" now rfl rfl

/-- The sweep, by induction on the leases it collected. -/
theorem moves_sweep (now : DateTime) (expired : List LeaseId) (q : InMemoryQueue) :
    Moves q (expired.foldl (requeueLease now) q) := by
  induction expired generalizing q with
  | nil => exact Moves.refl q
  | cons leaseId rest ih => exact (moves_requeueLease q now leaseId).trans (ih _)

theorem moves_requeueExpired (q : InMemoryQueue) (now : DateTime) : Moves q (q.requeueExpired now).2 :=
  moves_sweep now _ q

end InMemoryQueue

end Swarm
