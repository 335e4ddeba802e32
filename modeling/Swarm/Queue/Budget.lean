import Swarm.Queue.Conservation
import Swarm.Queue.Entries

namespace Swarm

/-- Calls that keep to the budget: entries come in unused and no dead letter is
replayed. `max_attempts` is a `u32`. -/
def QueueOp.Budgeted : QueueOp → Prop
  | enqueue task => task.attempt = 0 ∧ 1 ≤ task.retry.maxAttempts ∧ task.retry.maxAttempts < 2 ^ 32
  | replayDeadLetter _ _ => False
  | _ => True

/-- The keys of the leases that a call grants. -/
def QueueOp.granted (q : InMemoryQueue) : QueueOp → List String
  | dequeueFrom worker queues capabilities now leaseId =>
    ((q.dequeueFrom worker queues capabilities now leaseId).1.map (fun lease => lease.task.idempotencyKey)).toList
  | _ => []

/-- The keys of the leases that a call gives back unused. -/
def QueueOp.released (q : InMemoryQueue) : QueueOp → List String
  | release leaseId now =>
    match (q.release leaseId now).1 with
    | .ok () => ((q.leases.get? leaseId).map (fun lease => lease.task.idempotencyKey)).toList
    | .error _ => []
  | _ => []

namespace InMemoryQueue

/-- The attempts of every entry are within its budget, and are what `cost` says of its key. -/
structure Priced (q : InMemoryQueue) (cost : String → Nat → Prop) : Prop where
  ready : ∀ task ∈ q.ready, task.attempt < task.retry.maxAttempts ∧ task.retry.maxAttempts < 2 ^ 32 ∧
    cost task.idempotencyKey task.attempt
  leases : ∀ leaseId lease, q.leases.get? leaseId = some lease → 1 ≤ lease.task.attempt ∧
    lease.task.attempt ≤ lease.task.retry.maxAttempts ∧ lease.task.retry.maxAttempts < 2 ^ 32 ∧
    cost lease.task.idempotencyKey lease.task.attempt
  dead : ∀ letter ∈ q.dead, letter.attempts = letter.task.retry.maxAttempts ∧
    cost letter.task.idempotencyKey letter.attempts

variable {q q' : InMemoryQueue} {cost cost' : String → Nat → Prop}

theorem mem_keys_ready {task : QueuedTask} (member : task ∈ q.ready) : task.idempotencyKey ∈ q.keys := by
  have listed : task.idempotencyKey ∈ q.readyKeys := List.mem_map_of_mem member
  unfold keys
  exact List.mem_append_left _ (List.mem_append_left _ listed)

theorem mem_keys_lease {leaseId : LeaseId} {lease : TaskLease} (found : q.leases.get? leaseId = some lease) :
    lease.task.idempotencyKey ∈ q.keys := by
  have value : lease ∈ q.leases.values := Dict.mem_values.mpr ⟨leaseId, Dict.get?_eq_some.mp found⟩
  have listed : lease.task.idempotencyKey ∈ q.leaseKeys := List.mem_map.mpr ⟨lease, value, rfl⟩
  unfold keys
  exact List.mem_append_left _ (List.mem_append_right _ listed)

theorem mem_keys_dead {letter : DeadLetter} (member : letter ∈ q.dead) : letter.task.idempotencyKey ∈ q.keys := by
  have listed : letter.task.idempotencyKey ∈ q.deadKeys := List.mem_map.mpr ⟨letter, member, rfl⟩
  unfold keys
  exact List.mem_append_right _ listed

/-- The costs may change for keys that the queue does not hold. -/
theorem Priced.mono (priced : q.Priced cost)
    (more : ∀ key attempt, key ∈ q.keys → cost key attempt → cost' key attempt) : q.Priced cost' where
  ready task member := by
    obtain ⟨below, small, spent⟩ := priced.ready task member
    exact ⟨below, small, more _ _ (mem_keys_ready member) spent⟩
  leases leaseId lease found := by
    obtain ⟨positive, below, small, spent⟩ := priced.leases leaseId lease found
    exact ⟨positive, below, small, more _ _ (mem_keys_lease found) spent⟩
  dead letter member := by
    obtain ⟨all, spent⟩ := priced.dead letter member
    exact ⟨all, more _ _ (mem_keys_dead member) spent⟩

theorem Priced.erase (priced : q.Priced cost) (leaseId : LeaseId) (stats : QueueStats) :
    Priced { q with leases := q.leases.erase leaseId, stats := stats } cost := by
  refine ⟨priced.ready, ?_, priced.dead⟩
  intro other lease found
  rw [Dict.get?_erase] at found
  split at found
  · cases found
  · exact priced.leases other lease found

theorem Priced.push (priced : q.Priced cost) (task : QueuedTask) (below : task.attempt < task.retry.maxAttempts)
    (small : task.retry.maxAttempts < 2 ^ 32) (spent : cost task.idempotencyKey task.attempt) (seen : List String)
    (stats : QueueStats) : Priced { q with ready := q.ready ++ [task], seen := seen, stats := stats } cost := by
  refine ⟨?_, priced.leases, priced.dead⟩
  intro other member
  rcases List.mem_append.mp member with old | new
  · exact priced.ready other old
  · rw [List.mem_singleton.mp new]
    exact ⟨below, small, spent⟩

/-- An attempt that was spent is followed by another one or by the end. -/
theorem Priced.retryOrPark (priced : q.Priced cost) {task : QueuedTask}
    (below : task.attempt ≤ task.retry.maxAttempts) (small : task.retry.maxAttempts < 2 ^ 32)
    (spent : cost task.idempotencyKey task.attempt) (reason : String) (now : DateTime) :
    (q.retryOrPark task reason now).Priced cost := by
  unfold InMemoryQueue.retryOrPark
  split
  · rename_i allowed
    have left : task.attempt < task.retry.maxAttempts := by simpa [RetryPolicy.allowsRetry] using allowed
    let backoff := task.retry.backoffMs task.attempt (subsecNanos now)
    exact priced.push { task with availableAt := now + milliseconds (asI64 backoff) } left small spent _ _
  · rename_i refused
    have used : ¬ task.attempt < task.retry.maxAttempts := by simpa [RetryPolicy.allowsRetry] using refused
    refine ⟨priced.ready, priced.leases, ?_⟩
    intro letter member
    rcases List.mem_append.mp member with old | new
    · exact priced.dead letter old
    · rw [List.mem_singleton.mp new]
      exact ⟨by simp only; omega, spent⟩

theorem Priced.enqueue (priced : q.Priced cost) {task : QueuedTask} (unused : task.attempt = 0)
    (positive : 1 ≤ task.retry.maxAttempts) (small : task.retry.maxAttempts < 2 ^ 32)
    (free : task.idempotencyKey ∉ q.seen → cost task.idempotencyKey 0) : (q.enqueue task).Priced cost := by
  unfold InMemoryQueue.enqueue
  split
  · exact ⟨priced.ready, priced.leases, priced.dead⟩
  · rename_i absent
    have unseen : task.idempotencyKey ∉ q.seen := by simpa using absent
    exact priced.push task (by omega) small (unused ▸ free unseen) _ _

theorem Priced.acknowledge (priced : q.Priced cost) (live : q.LeasesLive) (leaseId : LeaseId) (now : DateTime) :
    (q.acknowledge leaseId now).2.Priced cost := by
  rcases acknowledge_cases live leaseId now with ⟨_, run⟩ | ⟨held, detail, found, _, run⟩ | ⟨held, _, _, run⟩
  · rw [run]
    exact priced
  · rw [run]
    obtain ⟨_, below, small, spent⟩ := priced.leases leaseId held found
    exact (priced.erase leaseId _).retryOrPark below small spent _ now
  · rw [run]
    exact priced.erase leaseId _

theorem Priced.reject (priced : q.Priced cost) (live : q.LeasesLive) (leaseId : LeaseId) (reason : String)
    (now : DateTime) :
    (q.reject leaseId reason now).2.Priced cost := by
  rcases reject_cases live leaseId reason now with ⟨_, run⟩ | ⟨held, found, run⟩
  · rw [run]
    exact priced
  · rw [run]
    obtain ⟨_, below, small, spent⟩ := priced.leases leaseId held found
    exact (priced.erase leaseId _).retryOrPark below small spent reason now

theorem Priced.modify (priced : q.Priced cost) (leaseId : LeaseId) (change : TaskLease → TaskLease)
    (task : ∀ lease, (change lease).task = lease.task) :
    Priced { q with leases := q.leases.modify leaseId change } cost := by
  refine ⟨priced.ready, ?_, priced.dead⟩
  intro other lease found
  rw [Dict.get?_modify] at found
  split at found
  · obtain ⟨old, present, rfl⟩ := Option.map_eq_some_iff.mp found
    rw [task]
    exact priced.leases _ old present
  · exact priced.leases other lease found

theorem Priced.extendLease (priced : q.Priced cost) (leaseId : LeaseId) (millis : Nat) (now : DateTime) :
    (q.extendLease leaseId millis now).2.Priced cost := by
  unfold InMemoryQueue.extendLease
  cases q.leases.get? leaseId with
  | none => exact priced
  | some held =>
    simp only
    split
    · exact priced
    · cases StateMachine.transition held.state LeaseState.extended with
      | error e => exact priced
      | ok next =>
        simp only
        split
        · exact priced.modify leaseId _ (fun _ => rfl)
        · exact priced.modify leaseId _ (fun _ => rfl)

theorem Priced.requeueExpired (priced : q.Priced cost) (now : DateTime) : (q.requeueExpired now).2.Priced cost := by
  have sweep : ∀ (expired : List LeaseId) (q : InMemoryQueue), q.Priced cost →
      (expired.foldl (requeueLease now) q).Priced cost := by
    intro expired
    induction expired with
    | nil => exact fun _ priced => priced
    | cons leaseId rest ih =>
      intro q priced
      refine ih _ ?_
      unfold requeueLease
      cases found : q.leases.get? leaseId with
      | none => exact priced
      | some lease =>
        obtain ⟨_, below, small, spent⟩ := priced.leases leaseId lease found
        exact (priced.erase leaseId _).retryOrPark below small spent _ now
  exact sweep _ q priced

theorem Priced.pick (priced : q.Priced cost) {now : DateTime} {queues : List String} {capabilities : List Capability}
    {task : QueuedTask} {rest : InMemoryQueue} (picked : q.pick now queues capabilities = some (task, rest)) :
    rest.Priced cost := by
  obtain ⟨taken, same⟩ := pick_some picked
  rw [same]
  refine ⟨?_, priced.leases, priced.dead⟩
  intro other member
  exact priced.ready other (taken.mem_iff.mpr (List.mem_cons_of_mem _ member))

theorem Priced.grant (priced : q.Priced cost) {leaseId : LeaseId} {lease : TaskLease}
    (positive : 1 ≤ lease.task.attempt) (below : lease.task.attempt ≤ lease.task.retry.maxAttempts)
    (small : lease.task.retry.maxAttempts < 2 ^ 32) (spent : cost lease.task.idempotencyKey lease.task.attempt)
    (stats : QueueStats) :
    Priced { q with leases := q.leases.insert leaseId lease, stats := stats } cost := by
  refine ⟨priced.ready, ?_, priced.dead⟩
  intro other held found
  rw [Dict.get?_insert] at found
  split at found
  · cases found
    exact ⟨positive, below, small, spent⟩
  · exact priced.leases other held found

/-- Picking an entry takes its key out. -/
theorem keys_pick {now : DateTime} {queues : List String} {capabilities : List Capability} {task : QueuedTask}
    {rest : InMemoryQueue} (picked : q.pick now queues capabilities = some (task, rest)) :
    q.keys.Perm (task.idempotencyKey :: rest.keys) := by
  obtain ⟨taken, same⟩ := pick_some picked
  exact labels_pick taken same

theorem Priced.purgeJob (priced : q.Priced cost) (jobId : JobId) : (q.purgeJob jobId).2.Priced cost := by
  refine ⟨fun task member => priced.ready task (List.mem_of_mem_filter member), ?_, priced.dead⟩
  intro leaseId lease found
  simp only [InMemoryQueue.purgeJob, Dict.get?_retain, Option.filter_eq_some_iff] at found
  exact priced.leases leaseId lease found.1

end InMemoryQueue

/-- A ledger together with the keys of all leases granted and given back so far. -/
structure BudgetLedger where
  ledger : QueueLedger
  granted : List String
  released : List String

namespace BudgetLedger

def new : BudgetLedger := ⟨.new, [], []⟩

def step (l : BudgetLedger) (op : QueueOp) : BudgetLedger where
  ledger := l.ledger.step op
  granted := op.granted l.ledger.queue ++ l.granted
  released := op.released l.ledger.queue ++ l.released

/-- The runs in which every call keeps to the budget. -/
inductive Reach : BudgetLedger → Prop
  | start : Reach new
  | next {l : BudgetLedger} {op : QueueOp} : Reach l → op.Fresh l.ledger.queue → op.Budgeted → Reach (l.step op)
  | rehash {l : BudgetLedger} {leases : Dict LeaseId TaskLease} : Reach l → l.ledger.queue.leases.Rehash leases →
      Reach { l with ledger := { l.ledger with queue := { l.ledger.queue with leases := leases } } }

/-- The attempts of an entry are the leases granted for it, less those given back. -/
def Cost (l : BudgetLedger) (key : String) (attempt : Nat) : Prop :=
  l.granted.count key = attempt + l.released.count key

structure Sound (l : BudgetLedger) : Prop where
  ledger : l.ledger.Sound
  priced : l.ledger.queue.Priced l.Cost
  granted : ∀ key ∈ l.granted, key ∈ l.ledger.queue.seen
  released : ∀ key ∈ l.released, key ∈ l.ledger.queue.seen

/-- A call that grants nothing and gives nothing back. -/
theorem Sound.plain {l : BudgetLedger} (sound : l.Sound) {op : QueueOp} (fresh : op.Fresh l.ledger.queue)
    (grants : op.granted l.ledger.queue = []) (releases : op.released l.ledger.queue = [])
    (priced : (l.ledger.step op).queue.Priced l.Cost) : (l.step op).Sound := by
  have same : (l.step op).Cost = l.Cost := by
    funext key attempt
    simp only [Cost, step, grants, releases, List.nil_append]
  refine ⟨sound.ledger.step fresh, by rw [same]; exact priced, ?_, ?_⟩
  · intro key member
    simp only [step, grants, List.nil_append] at member
    exact sound.ledger.seen_step (sound.granted key member) op
  · intro key member
    simp only [step, releases, List.nil_append] at member
    exact sound.ledger.seen_step (sound.released key member) op

/-- A granted lease starts an attempt of its entry and of no other. -/
theorem Sound.dequeueFrom {l : BudgetLedger} (sound : l.Sound) (worker : String) (queues : List String)
    (capabilities : List Capability) (now : DateTime) {leaseId : LeaseId}
    (fresh : leaseId ∉ l.ledger.queue.leases.keys) :
    (l.step (.dequeueFrom worker queues capabilities now leaseId)).Sound := by
  cases picked : l.ledger.queue.pick now queues capabilities with
  | none =>
    have run : l.ledger.queue.dequeueFrom worker queues capabilities now leaseId = (none, l.ledger.queue) := by
      simp only [InMemoryQueue.dequeueFrom, picked]
    refine sound.plain fresh ?_ rfl ?_
    · simp only [QueueOp.granted, run, Option.map_none, Option.toList_none]
    · simp only [QueueLedger.step, run]
      exact sound.priced
  | some answer =>
    obtain ⟨task, rest⟩ := answer
    obtain ⟨taken, same⟩ := InMemoryQueue.pick_some picked
    have member : task ∈ l.ledger.queue.ready := taken.mem_iff.mpr List.mem_cons_self
    obtain ⟨below, small, spent⟩ := sound.priced.ready task member
    have counted : (task.attempt + 1) % 2 ^ 32 = task.attempt + 1 := Nat.mod_eq_of_lt (by omega)
    have distinct := (InMemoryQueue.keys_pick picked).nodup_iff.mp sound.ledger.keys_nodup
    have alone : task.idempotencyKey ∉ rest.keys := (List.nodup_cons.mp distinct).1
    have known := sound.ledger.keys_seen (InMemoryQueue.mem_keys_ready member)
    have grants : QueueOp.granted l.ledger.queue (.dequeueFrom worker queues capabilities now leaseId) =
        [task.idempotencyKey] := by
      simp only [QueueOp.granted, InMemoryQueue.dequeueFrom, picked, Option.map_some, Option.toList_some]
    have releases : QueueOp.released l.ledger.queue (.dequeueFrom worker queues capabilities now leaseId) = [] := rfl
    have after : (l.ledger.step (.dequeueFrom worker queues capabilities now leaseId)).Sound :=
      sound.ledger.step fresh
    refine ⟨after, ?_, ?_, ?_⟩
    · have others : rest.Priced (l.step (.dequeueFrom worker queues capabilities now leaseId)).Cost := by
        refine (sound.priced.pick picked).mono ?_
        intro key attempt inside before
        have different : key ≠ task.idempotencyKey := fun equal => alone (equal ▸ inside)
        simp only [Cost, step, grants, releases, List.nil_append, List.singleton_append] at before ⊢
        rw [List.count_cons_of_ne different.symm]
        exact before
      simp only [step, QueueLedger.step, InMemoryQueue.dequeueFrom, picked]
      refine others.grant ?_ ?_ small ?_ _
      · simp only [counted]
        omega
      · simp only [counted]
        omega
      · simp only [Cost, step, grants, releases, List.nil_append, List.singleton_append, List.count_cons_self,
          counted] at spent ⊢
        omega
    · intro key inside
      simp only [step, grants, List.singleton_append] at inside
      refine sound.ledger.seen_step ?_ _
      rcases List.mem_cons.mp inside with rfl | old
      · exact known
      · exact sound.granted key old
    · intro key inside
      simp only [step, releases, List.nil_append] at inside
      exact sound.ledger.seen_step (sound.released key inside) _

/-- A lease that is given back hands its attempt back too. -/
theorem Sound.release {l : BudgetLedger} (sound : l.Sound) (leaseId : LeaseId) (now : DateTime) :
    (l.step (.release leaseId now)).Sound := by
  cases found : l.ledger.queue.leases.get? leaseId with
  | none =>
    refine sound.plain trivial rfl ?_ ?_
    · simp only [QueueOp.released, InMemoryQueue.release, InMemoryQueue.takeLease, found]
    · simp only [QueueLedger.step, InMemoryQueue.release, InMemoryQueue.takeLease, found]
      exact sound.priced
  | some held =>
    obtain ⟨positive, below, small, spent⟩ := sound.priced.leases leaseId held found
    have distinct := (InMemoryQueue.keys_erase found).nodup_iff.mp sound.ledger.keys_nodup
    have alone := (List.nodup_cons.mp distinct).1
    have known := sound.ledger.keys_seen (InMemoryQueue.mem_keys_lease found)
    have releases : QueueOp.released l.ledger.queue (.release leaseId now) = [held.task.idempotencyKey] := by
      simp only [QueueOp.released, InMemoryQueue.release, InMemoryQueue.takeLease, found, Option.map_some,
        Option.toList_some]
    have grants : QueueOp.granted l.ledger.queue (.release leaseId now) = [] := rfl
    have after : (l.ledger.step (.release leaseId now)).Sound := sound.ledger.step trivial
    refine ⟨after, ?_, ?_, ?_⟩
    · have others : { l.ledger.queue with leases := l.ledger.queue.leases.erase leaseId }.Priced
          (l.step (.release leaseId now)).Cost := by
        refine (sound.priced.erase leaseId l.ledger.queue.stats).mono ?_
        intro key attempt inside before
        have different : key ≠ held.task.idempotencyKey := fun equal => alone (equal ▸ inside)
        simp only [Cost, step, grants, releases, List.nil_append, List.singleton_append] at before ⊢
        rw [List.count_cons_of_ne different.symm]
        exact before
      simp only [step, QueueLedger.step, InMemoryQueue.release, InMemoryQueue.takeLease, found]
      refine others.push { held.task with attempt := held.task.attempt - 1, availableAt := now } ?_ small ?_ _ _
      · simp only
        omega
      · simp only [Cost, step, grants, releases, List.nil_append, List.singleton_append,
          List.count_cons_self] at spent ⊢
        omega
    · intro key inside
      simp only [step, grants, List.nil_append] at inside
      exact sound.ledger.seen_step (sound.granted key inside) _
    · intro key inside
      simp only [step, releases, List.singleton_append] at inside
      refine sound.ledger.seen_step ?_ _
      rcases List.mem_cons.mp inside with rfl | old
      · exact known
      · exact sound.released key old

/-- One call within the budget keeps every entry within it. -/
theorem Sound.step {l : BudgetLedger} (sound : l.Sound) {op : QueueOp} (fresh : op.Fresh l.ledger.queue)
    (budgeted : op.Budgeted) : (l.step op).Sound := by
  have live := sound.ledger.live
  cases op with
  | enqueue task =>
    obtain ⟨unused, positive, small⟩ := budgeted
    refine sound.plain fresh rfl rfl (sound.priced.enqueue unused positive small ?_)
    intro unseen
    have granted : task.idempotencyKey ∉ l.granted := fun member => unseen (sound.granted _ member)
    have released : task.idempotencyKey ∉ l.released := fun member => unseen (sound.released _ member)
    unfold Cost
    rw [List.count_eq_zero.mpr granted, List.count_eq_zero.mpr released]
  | dequeueFrom worker queues capabilities now leaseId => exact sound.dequeueFrom worker queues capabilities now fresh
  | acknowledge leaseId now => exact sound.plain fresh rfl rfl (sound.priced.acknowledge live leaseId now)
  | reject leaseId reason now => exact sound.plain fresh rfl rfl (sound.priced.reject live leaseId reason now)
  | release leaseId now => exact sound.release leaseId now
  | extendLease leaseId millis now => exact sound.plain fresh rfl rfl (sound.priced.extendLease leaseId millis now)
  | requeueExpired now => exact sound.plain fresh rfl rfl (sound.priced.requeueExpired now)
  | replayDeadLetter taskId now => exact budgeted.elim
  | purgeJob jobId => exact sound.plain fresh rfl rfl (sound.priced.purgeJob jobId)

theorem Reach.sound {l : BudgetLedger} (reach : l.Reach) : l.Sound := by
  induction reach with
  | start =>
    refine ⟨QueueLedger.Reach.start.sound, ⟨?_, ?_, ?_⟩, ?_, ?_⟩
    · exact fun _ member => absurd member List.not_mem_nil
    · exact fun _ _ found => by cases found
    · exact fun _ member => absurd member List.not_mem_nil
    · exact fun _ member => absurd member List.not_mem_nil
    · exact fun _ member => absurd member List.not_mem_nil
  | next _ fresh budgeted ih => exact ih.step fresh budgeted
  | @rehash l leases _ moved ih =>
    refine ⟨ih.ledger.rehash moved, ⟨ih.priced.ready, ?_, ih.priced.dead⟩, ih.granted, ih.released⟩
    intro leaseId lease found
    exact ih.priced.leases leaseId lease ((moved.get? leaseId).trans found)

/-- The retry budget: attempts stay within it wherever an entry is, and an entry
whose leases were never given back is parked after exactly as many leases as its
budget has. -/
theorem Reach.retry_budget {l : BudgetLedger} (reach : l.Reach) :
    (∀ lease ∈ l.ledger.queue.leases.values,
      1 ≤ lease.task.attempt ∧ lease.task.attempt ≤ lease.task.retry.maxAttempts) ∧
    (∀ worker queues capabilities now leaseId lease,
      (l.ledger.queue.dequeueFrom worker queues capabilities now leaseId).1 = some lease →
        1 ≤ lease.task.attempt ∧ lease.task.attempt ≤ lease.task.retry.maxAttempts) ∧
    (∀ task ∈ l.ledger.queue.ready, task.attempt < task.retry.maxAttempts) ∧
    (∀ letter ∈ l.ledger.queue.dead, letter.attempts = letter.task.retry.maxAttempts) ∧
    ∀ letter ∈ l.ledger.queue.dead, letter.task.idempotencyKey ∉ l.released →
      l.granted.count letter.task.idempotencyKey = letter.task.retry.maxAttempts := by
  have sound := reach.sound
  refine ⟨?_, ?_, fun task member => (sound.priced.ready task member).1,
    fun letter member => (sound.priced.dead letter member).1, ?_⟩
  · intro lease member
    obtain ⟨leaseId, present⟩ := Dict.mem_values.mp member
    obtain ⟨positive, below, _⟩ := sound.priced.leases leaseId lease (Dict.get?_eq_some.mpr present)
    exact ⟨positive, below⟩
  · intro worker queues capabilities now leaseId lease granted
    obtain ⟨task, rest, picked, taken, _, same, _⟩ := InMemoryQueue.dequeueFrom_some (Prod.ext granted rfl)
    have member : task ∈ l.ledger.queue.ready := taken.mem_iff.mpr List.mem_cons_self
    obtain ⟨below, small, _⟩ := sound.priced.ready task member
    have counted : (task.attempt + 1) % 2 ^ 32 = task.attempt + 1 := Nat.mod_eq_of_lt (by omega)
    rw [same]
    simp only [counted]
    omega
  · intro letter member never
    obtain ⟨all, spent⟩ := sound.priced.dead letter member
    unfold Cost at spent
    rw [List.count_eq_zero.mpr never] at spent
    omega

def twoAttempts : QueuedTask := { QueueLedger.sampleEntry with retry := ⟨2, 0, 0, false⟩ }

/-- An entry with two attempts is leased and rejected until it is parked. -/
def rejectedTwice : BudgetLedger :=
  [.enqueue twoAttempts, .dequeueFrom "w" [] [] 0 ⟨3⟩, .reject ⟨3⟩ "no" 1, .dequeueFrom "w" [] [] 2 ⟨4⟩,
    .reject ⟨4⟩ "no" 3].foldl step new

theorem retry_budget_rejected :
    rejectedTwice.ledger.queue.dead.length = 1 ∧ ∀ letter ∈ rejectedTwice.ledger.queue.dead,
      letter.attempts = 2 ∧ rejectedTwice.granted.count letter.task.idempotencyKey = 2 := by
  have unused : (QueueOp.enqueue twoAttempts).Budgeted := ⟨rfl, by decide, by decide⟩
  have reach : rejectedTwice.Reach := by
    refine .next (.next (.next (.next (.next .start trivial unused) ?_ trivial) trivial trivial) ?_ trivial) trivial
      trivial
    · show (⟨3⟩ : LeaseId) ∉ Dict.keys _
      decide +kernel
    · show (⟨4⟩ : LeaseId) ∉ Dict.keys _
      decide +kernel
  have budget := Reach.retry_budget reach
  have max : ∀ letter ∈ rejectedTwice.ledger.queue.dead, letter.task.retry.maxAttempts = 2 := by decide +kernel
  have never : rejectedTwice.released = [] := by decide +kernel
  refine ⟨by decide +kernel, ?_⟩
  intro letter member
  have attempts := budget.2.2.2.1 letter member
  have leases := budget.2.2.2.2 letter member (by rw [never]; exact List.not_mem_nil)
  rw [max letter member] at attempts leases
  exact ⟨attempts, leases⟩

end BudgetLedger

end Swarm
