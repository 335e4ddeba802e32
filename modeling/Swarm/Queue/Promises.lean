import Swarm.Queue.Conservation

namespace Swarm

/-- The clock reading of a call. -/
def QueueOp.reads : QueueOp → Option DateTime
  | dequeueFrom _ _ _ now _ => some now
  | acknowledge _ now => some now
  | reject _ _ now => some now
  | release _ now => some now
  | extendLease _ _ now => some now
  | requeueExpired now => some now
  | replayDeadLetter _ now => some now
  | _ => none

/-- The call neither settles the lease nor purges its job. -/
def QueueOp.Spares (lease : TaskLease) : QueueOp → Prop
  | acknowledge leaseId _ => leaseId ≠ lease.leaseId
  | reject leaseId _ _ => leaseId ≠ lease.leaseId
  | release leaseId _ => leaseId ≠ lease.leaseId
  | purgeJob jobId => jobId ≠ lease.task.jobId
  | _ => True

/-- The latest expiry the holder has been promised, after the call. -/
def QueueOp.promised (q : InMemoryQueue) (leaseId : LeaseId) (promise : DateTime) : QueueOp → DateTime
  | extendLease extended millis now =>
    if extended = leaseId then
      match (q.extendLease leaseId millis now).1 with
      | .ok () => max promise (now + milliseconds millis)
      | .error _ => promise
    else promise
  | _ => promise

/-- An extension of the lease does not bring its expiry forward. -/
def QueueOp.Prolongs (q : InMemoryQueue) (leaseId : LeaseId) : QueueOp → Prop
  | extendLease extended millis now => extended = leaseId →
    ∀ held, q.leases.get? leaseId = some held → held.expiresAt ≤ now + milliseconds millis
  | _ => True

namespace InMemoryQueue

variable {q : InMemoryQueue} {lease : TaskLease} {promise : DateTime}

/-- The holder has the lease until the promise runs out. -/
def Keeps (q : InMemoryQueue) (lease : TaskLease) (promise : DateTime) : Prop :=
  ∃ held, q.leases.get? lease.leaseId = some held ∧ held.task = lease.task ∧ held.worker = lease.worker ∧
    held.expiresAt = promise

theorem Keeps.of_same (keeps : q.Keeps lease promise) {q' : InMemoryQueue}
    (same : q'.leases.get? lease.leaseId = q.leases.get? lease.leaseId) : q'.Keeps lease promise := by
  obtain ⟨held, found, rest⟩ := keeps
  exact ⟨held, same.trans found, rest⟩

theorem Keeps.present (keeps : q.Keeps lease promise) : lease.leaseId ∈ q.leases.keys := by
  obtain ⟨held, found, _⟩ := keeps
  exact Dict.mem_keys.mpr ⟨held, Dict.get?_eq_some.mp found⟩

/-- A settlement of another lease leaves this one alone. -/
theorem get?_retryOrPark {leaseId other : LeaseId} (different : other ≠ leaseId) (stats : QueueStats)
    (task : QueuedTask) (reason : String) (now : DateTime) :
    (retryOrPark { q with leases := q.leases.erase leaseId, stats := stats } task reason now).leases.get? other =
      q.leases.get? other := by
  rw [retryOrPark_leases, Dict.get?_erase, if_neg different]

/-- The sweep leaves every lease alone that it did not collect, by induction on those it did. -/
theorem get?_sweep (now : DateTime) (expired : List LeaseId) {other : LeaseId} (spared : other ∉ expired) :
    (expired.foldl (requeueLease now) q).leases.get? other = q.leases.get? other := by
  induction expired generalizing q with
  | nil => rfl
  | cons leaseId rest ih =>
    simp only [List.mem_cons, not_or] at spared
    obtain ⟨different, later⟩ := spared
    rw [List.foldl_cons, ih later]
    unfold requeueLease
    cases found : q.leases.get? leaseId with
    | none => rfl
    | some held => exact get?_retryOrPark different _ _ _ now

theorem get?_requeueExpired (live : q.LeasesLive) {now : DateTime} {leaseId : LeaseId} {held : TaskLease}
    (found : q.leases.get? leaseId = some held) (running : held.isExpired now = false) :
    (q.requeueExpired now).2.leases.get? leaseId = q.leases.get? leaseId := by
  refine get?_sweep now _ ?_
  intro collected
  obtain ⟨other, inside, rfl⟩ := List.mem_map.mp collected
  obtain ⟨value, expired⟩ := List.mem_filter.mp inside
  obtain ⟨key, present⟩ := Dict.mem_values.mp value
  have filed : other.leaseId = key := (live _ present).1
  rw [← filed] at present
  rw [Dict.get?_eq_some.mpr present] at found
  cases found
  rw [expired] at running
  cases running

/-- A lease whose promise has not run out is not expired. -/
theorem Keeps.running (keeps : q.Keeps lease promise) {now : DateTime} (early : now < promise) :
    ∃ held, q.leases.get? lease.leaseId = some held ∧ held.task = lease.task ∧ held.worker = lease.worker ∧
      held.expiresAt = promise ∧ held.isExpired now = false := by
  obtain ⟨held, found, task, worker, expiry⟩ := keeps
  refine ⟨held, found, task, worker, expiry, ?_⟩
  unfold TaskLease.isExpired
  rw [expiry]
  exact decide_eq_false (Int.not_le.mpr early)

/-- An extension of the lease itself. -/
theorem Keeps.extendLease (keeps : q.Keeps lease promise) (live : q.LeasesLive) {millis : Nat} {now : DateTime}
    (early : now < promise) (prolongs : promise ≤ now + milliseconds millis) :
    (q.extendLease lease.leaseId millis now).2.Keeps lease
      (QueueOp.promised q lease.leaseId promise (.extendLease lease.leaseId millis now)) := by
  obtain ⟨held, found, task, worker, expiry, running⟩ := keeps.running early
  simp only [QueueOp.promised, if_true]
  rcases extendLease_cases live found millis running with ⟨_, run⟩ | ⟨_, run⟩
  · rw [run]
    refine ⟨{ held with state := .extended }, ?_, task, worker, expiry⟩
    rw [Dict.get?_modify, if_pos rfl, found, Option.map_some]
  · rw [run]
    refine ⟨{ held with state := .extended, expiresAt := now + milliseconds millis }, ?_, task, worker, ?_⟩
    · rw [Dict.get?_modify, if_pos rfl, found, Option.map_some]
    · exact (Int.max_eq_right prolongs).symm

/-- An extension of another lease. -/
theorem get?_extendLease {leaseId other : LeaseId} (different : other ≠ leaseId) (millis : Nat) (now : DateTime) :
    (q.extendLease leaseId millis now).2.leases.get? other = q.leases.get? other := by
  unfold InMemoryQueue.extendLease
  cases q.leases.get? leaseId with
  | none => rfl
  | some held =>
    simp only
    split
    · rfl
    · cases StateMachine.transition held.state LeaseState.extended with
      | error e => rfl
      | ok next =>
        simp only
        split <;> exact Dict.get?_modify.trans (if_neg different)

/-- One call of anyone, before the promise runs out. -/
theorem Keeps.step {l : QueueLedger} (keeps : l.queue.Keeps lease promise) (sound : l.Sound) {op : QueueOp}
    (fresh : op.Fresh l.queue) (early : ∀ now, op.reads = some now → now < promise) (spares : op.Spares lease)
    (prolongs : op.Prolongs l.queue lease.leaseId) :
    (l.step op).queue.Keeps lease (op.promised l.queue lease.leaseId promise) := by
  have live := sound.live
  cases op with
  | enqueue task =>
    refine keeps.of_same ?_
    simp only [QueueLedger.step, InMemoryQueue.enqueue]
    split <;> rfl
  | dequeueFrom worker queues capabilities now leaseId =>
    refine keeps.of_same ?_
    have different : lease.leaseId ≠ leaseId := fun same => fresh (same ▸ keeps.present)
    simp only [QueueLedger.step, InMemoryQueue.dequeueFrom]
    cases picked : l.queue.pick now queues capabilities with
    | none => rfl
    | some answer =>
      simp only
      rw [Dict.get?_insert_of_ne different, (pick_some picked).2]
  | acknowledge leaseId now =>
    refine keeps.of_same ?_
    have different : lease.leaseId ≠ leaseId := Ne.symm spares
    simp only [QueueLedger.step]
    rcases acknowledge_cases live leaseId now with ⟨_, run⟩ | ⟨_, _, _, _, run⟩ | ⟨_, _, _, run⟩ <;> rw [run]
    · exact get?_retryOrPark different _ _ _ now
    · exact Dict.get?_erase.trans (if_neg different)
  | reject leaseId reason now =>
    refine keeps.of_same ?_
    have different : lease.leaseId ≠ leaseId := Ne.symm spares
    simp only [QueueLedger.step]
    rcases reject_cases live leaseId reason now with ⟨_, run⟩ | ⟨_, _, run⟩ <;> rw [run]
    exact get?_retryOrPark different _ _ _ now
  | release leaseId now =>
    refine keeps.of_same ?_
    have different : lease.leaseId ≠ leaseId := Ne.symm spares
    simp only [QueueLedger.step, InMemoryQueue.release, InMemoryQueue.takeLease]
    cases l.queue.leases.get? leaseId with
    | none => rfl
    | some held => exact Dict.get?_erase.trans (if_neg different)
  | extendLease leaseId millis now =>
    by_cases same : leaseId = lease.leaseId
    · subst same
      obtain ⟨held, found, _, _, rfl⟩ := id keeps
      exact keeps.extendLease live (early now rfl) (prolongs rfl held found)
    · simp only [QueueOp.promised, if_neg same]
      exact keeps.of_same (get?_extendLease (Ne.symm same) millis now)
  | requeueExpired now =>
    obtain ⟨held, found, _, _, _, running⟩ := keeps.running (early now rfl)
    exact keeps.of_same (get?_requeueExpired live found running)
  | replayDeadLetter taskId now =>
    refine keeps.of_same ?_
    simp only [QueueLedger.step]
    rcases replayDeadLetter_cases l.queue taskId now with run | ⟨_, _, run⟩ <;> rw [run]
  | purgeJob jobId =>
    obtain ⟨held, found, task, _⟩ := id keeps
    refine keeps.of_same ?_
    simp only [QueueLedger.step, InMemoryQueue.purgeJob, Dict.get?_retain]
    rw [found, Option.filter_eq_some_iff]
    refine ⟨rfl, bne_iff_ne.mpr ?_⟩
    rw [task]
    exact Ne.symm spares

end InMemoryQueue

namespace QueueLedger

/-- A lease is granted, and then anyone makes calls at any clock readings before the promise
made to its holder runs out. The holder has not settled the lease, its job is not purged, and
every extension of it prolongs it. -/
inductive Promised (lease : TaskLease) : QueueLedger → DateTime → Prop
  | granted {l : QueueLedger} {worker : String} {queues : List String} {capabilities : List Capability}
      {now : DateTime} {leaseId : LeaseId} : l.Reach → leaseId ∉ l.queue.leases.keys →
      (l.queue.dequeueFrom worker queues capabilities now leaseId).1 = some lease →
      Promised lease (l.step (.dequeueFrom worker queues capabilities now leaseId)) lease.expiresAt
  | next {l : QueueLedger} {promise : DateTime} {op : QueueOp} : Promised lease l promise → op.Fresh l.queue →
      (∀ now, op.reads = some now → now < promise) → op.Spares lease → op.Prolongs l.queue lease.leaseId →
      Promised lease (l.step op) (op.promised l.queue lease.leaseId promise)
  | rehash {l : QueueLedger} {promise : DateTime} {leases : Dict LeaseId TaskLease} : Promised lease l promise →
      l.queue.leases.Rehash leases → Promised lease { l with queue := { l.queue with leases := leases } } promise

variable {lease : TaskLease} {l : QueueLedger} {promise : DateTime}

theorem Promised.keeps (run : Promised lease l promise) : l.Sound ∧ l.queue.Keeps lease promise := by
  induction run with
  | @granted l worker queues capabilities now leaseId reach fresh given =>
    have free : (QueueOp.dequeueFrom worker queues capabilities now leaseId).Fresh l.queue := fresh
    refine ⟨reach.sound.step free, ?_⟩
    simp only [step, InMemoryQueue.dequeueFrom] at given ⊢
    cases picked : l.queue.pick now queues capabilities with
    | none =>
      rw [picked] at given
      cases given
    | some answer =>
      rw [picked] at given
      cases given
      exact ⟨_, Dict.get?_insert_self, rfl, rfl, rfl⟩
  | next _ fresh early spares prolongs ih => exact ⟨ih.1.step fresh, ih.2.step ih.1 fresh early spares prolongs⟩
  | rehash _ moved ih => exact ⟨ih.1.rehash moved, ih.2.of_same (moved.get? _).symm⟩

/-- An acknowledgement of a lease that runs succeeds. -/
theorem acknowledge_running (sound : l.Sound) {leaseId : LeaseId} {held : TaskLease}
    (found : l.queue.leases.get? leaseId = some held) {now : DateTime} (running : held.isExpired now = false) :
    (l.queue.acknowledge leaseId now).1 = .ok () := by
  rcases InMemoryQueue.acknowledge_cases sound.live leaseId now with
    ⟨absent, _⟩ | ⟨other, _, here, expired, _⟩ | ⟨_, _, _, run⟩
  · rw [found] at absent
    cases absent
  · rw [found] at here
    cases here
    rw [running] at expired
    cases expired
  · rw [run]

/-- An acknowledgement that comes too late fails. -/
theorem acknowledge_expired (sound : l.Sound) {leaseId : LeaseId} {held : TaskLease}
    (found : l.queue.leases.get? leaseId = some held) {now : DateTime} (expired : held.isExpired now = true) :
    (l.queue.acknowledge leaseId now).1 ≠ .ok () := by
  intro settled
  rcases InMemoryQueue.acknowledge_cases sound.live leaseId now with
    ⟨_, run⟩ | ⟨_, _, _, _, run⟩ | ⟨other, here, running, _⟩
  · rw [run] at settled
    cases settled
  · rw [run] at settled
    cases settled
  · rw [found] at here
    cases here
    rw [running] at expired
    cases expired

/-- After an extension that brings the expiry forward, an acknowledgement at the new expiry
comes too late. -/
theorem acknowledge_shortened (sound : l.Sound) (keeps : l.queue.Keeps lease promise) {millis : Nat} {now : DateTime}
    (small : millis < 2 ^ 63) (early : now < promise) :
    ((l.step (.extendLease lease.leaseId millis now)).queue.acknowledge lease.leaseId (now + milliseconds millis)).1 ≠
      .ok () := by
  obtain ⟨held, found, _, _, _, running⟩ := keeps.running early
  have fresh : (QueueOp.extendLease lease.leaseId millis now).Fresh l.queue := trivial
  have after : (l.step (.extendLease lease.leaseId millis now)).queue.leases.get? lease.leaseId =
      some { held with state := .extended, expiresAt := now + milliseconds millis } := by
    rcases InMemoryQueue.extendLease_cases sound.live found millis running with ⟨large, _⟩ | ⟨_, run⟩
    · omega
    · simp only [step, run]
      rw [Dict.get?_modify, if_pos rfl, found, Option.map_some]
  refine acknowledge_expired (sound.step fresh) after ?_
  exact decide_eq_true (Int.le_refl _)

/-- Promises are kept as long as every extension prolongs the lease; one that brings the expiry
forward breaks them. -/
theorem Promised.promise_kept (run : Promised lease l promise) :
    (∃ held, l.queue.leases.get? lease.leaseId = some held ∧ held.task = lease.task ∧ held.worker = lease.worker) ∧
    (∀ worker queues capabilities now leaseId given,
      (l.queue.dequeueFrom worker queues capabilities now leaseId).1 = some given →
        given.task.idempotencyKey ≠ lease.task.idempotencyKey) ∧
    (∀ now, now < promise → (l.queue.acknowledge lease.leaseId now).1 = .ok ()) ∧
    (∀ (millis : Nat) (now : DateTime), millis < 2 ^ 63 → now + milliseconds millis < promise → now < promise →
      ((l.step (.extendLease lease.leaseId millis now)).queue.acknowledge lease.leaseId
        (now + milliseconds millis)).1 ≠
        .ok ()) := by
  obtain ⟨sound, keeps⟩ := run.keeps
  refine ⟨?_, ?_, ?_, fun millis now small _ early => acknowledge_shortened sound keeps small early⟩
  · obtain ⟨held, found, task, worker, _⟩ := keeps
    exact ⟨held, found, task, worker⟩
  · intro worker queues capabilities now leaseId given delivered same
    obtain ⟨held, found, task, _⟩ := keeps
    have value : held ∈ l.queue.leases.values := Dict.mem_values.mpr ⟨_, Dict.get?_eq_some.mp found⟩
    have leased : held.task.idempotencyKey ∈ l.queue.leaseKeys := List.mem_map.mpr ⟨held, value, rfl⟩
    rw [task, ← same] at leased
    exact (sound.delivered delivered).1 leased
  · intro now early
    obtain ⟨_, found, _, _, _, running⟩ := keeps.running early
    exact acknowledge_running sound found running

/-- An entry with a lease of a minute that waits for nothing when it comes back. -/
def minuteEntry : QueuedTask := { sampleEntry with retry := ⟨2, 0, 0, false⟩ }

def minuteLease : TaskLease := ⟨⟨3⟩, { minuteEntry with attempt := 1 }, "w", 0, milliseconds 60000, .held⟩

/-- The worker holds its lease of a minute. -/
def leasedOnce : QueueLedger := [.enqueue minuteEntry, .dequeueFrom "w" [] [] 0 ⟨3⟩].foldl step new

/-- Extended to two minutes, the lease is good for two minutes. -/
theorem promise_kept_extended :
    ((leasedOnce.step (.extendLease ⟨3⟩ 120000 0)).queue.acknowledge ⟨3⟩ (milliseconds 100000)).1 = .ok () := by
  have reach : (new.step (.enqueue minuteEntry)).Reach := .next .start trivial
  have free : (⟨3⟩ : LeaseId) ∉ (new.step (.enqueue minuteEntry)).queue.leases.keys := by decide +kernel
  have given : ((new.step (.enqueue minuteEntry)).queue.dequeueFrom "w" [] [] 0 ⟨3⟩).1 = some minuteLease := by
    decide +kernel
  have granted : Promised minuteLease leasedOnce minuteLease.expiresAt := .granted reach free given
  have early : ∀ now, (QueueOp.extendLease ⟨3⟩ 120000 0).reads = some now → now < minuteLease.expiresAt := by
    rintro now ⟨⟩
    decide
  have prolongs : (QueueOp.extendLease ⟨3⟩ 120000 0).Prolongs leasedOnce.queue ⟨3⟩ := by
    intro _ held found
    have running : leasedOnce.queue.leases.get? ⟨3⟩ = some minuteLease := by decide +kernel
    cases running.symm.trans found
    decide
  have fresh : (QueueOp.extendLease ⟨3⟩ 120000 0).Fresh leasedOnce.queue := trivial
  have spares : (QueueOp.extendLease ⟨3⟩ 120000 0).Spares minuteLease := trivial
  have run := Promised.next granted fresh early spares prolongs
  exact run.promise_kept.2.2.1 (milliseconds 100000) (by decide +kernel)

/-- The worker extends its lease by a millisecond. -/
def shortened : QueueLedger := leasedOnce.step (.extendLease ⟨3⟩ 1 0)

/-- The sweep then takes the lease well before the minute is over, another worker gets the
entry, and the holder cannot acknowledge it any more. -/
theorem promise_broken :
    ((new.step (.enqueue minuteEntry)).queue.dequeueFrom "w" [] [] 0 ⟨3⟩).1 = some minuteLease ∧
    (leasedOnce.queue.extendLease ⟨3⟩ 1 0).1.isOk = true ∧ milliseconds 2 < minuteLease.expiresAt ∧
    (shortened.step (.requeueExpired (milliseconds 2))).queue.leases.get? ⟨3⟩ = none ∧
    ((shortened.step (.requeueExpired (milliseconds 2))).queue.dequeueFrom "v" [] [] (milliseconds 2) ⟨4⟩).1.map
      (fun lease => (lease.worker, lease.task.idempotencyKey)) = some ("v", "k") ∧
    ((shortened.step (.requeueExpired (milliseconds 2))).queue.acknowledge ⟨3⟩ (milliseconds 2)).1.isOk = false := by
  decide +kernel

end QueueLedger

end Swarm
