import Swarm.Queue.Budget

namespace Swarm

namespace InMemoryQueue

/-- The entries of one key: the ready ones, the leased ones and the parked ones each have a
property of their own. -/
structure Shelters (q : InMemoryQueue) (key : String) (waiting granted parked : QueuedTask → Prop) : Prop where
  ready : ∀ task ∈ q.ready, task.idempotencyKey = key → waiting task
  leases : ∀ leaseId lease, q.leases.get? leaseId = some lease → lease.task.idempotencyKey = key → granted lease.task
  dead : ∀ letter ∈ q.dead, letter.task.idempotencyKey = key → parked letter.task

/-- A leased entry that fails may wait again or be parked, as its budget says. -/
structure Fails (waiting granted parked : QueuedTask → Prop) : Prop where
  retry : ∀ task availableAt, granted task → task.retry.allowsRetry task.attempt = true →
    waiting { task with availableAt := availableAt }
  park : ∀ task, granted task → task.retry.allowsRetry task.attempt = false → parked task

variable {q : InMemoryQueue} {key : String} {waiting granted parked : QueuedTask → Prop}

theorem Shelters.absent (absent : key ∉ q.keys) : q.Shelters key waiting granted parked := by
  refine ⟨?_, ?_, ?_⟩
  · rintro task member rfl
    exact absurd (mem_keys_ready member) absent
  · rintro leaseId lease found rfl
    exact absurd (mem_keys_lease found) absent
  · rintro letter member rfl
    exact absurd (mem_keys_dead member) absent

theorem Shelters.push (holds : q.Shelters key waiting granted parked) (task : QueuedTask)
    (waits : task.idempotencyKey = key → waiting task) (seen : List String) (stats : QueueStats) :
    Shelters { q with ready := q.ready ++ [task], seen := seen, stats := stats } key waiting granted parked := by
  refine ⟨?_, holds.leases, holds.dead⟩
  intro entry member
  rcases List.mem_append.mp member with old | new
  · exact holds.ready entry old
  · rw [List.mem_singleton.mp new]
    exact waits

theorem Shelters.erase (holds : q.Shelters key waiting granted parked) (leaseId : LeaseId) (stats : QueueStats) :
    Shelters { q with leases := q.leases.erase leaseId, stats := stats } key waiting granted parked := by
  refine ⟨holds.ready, ?_, holds.dead⟩
  intro other held found
  rw [Dict.get?_erase] at found
  split at found
  · cases found
  · exact holds.leases other held found

theorem Shelters.insert (holds : q.Shelters key waiting granted parked) {leaseId : LeaseId} {lease : TaskLease}
    (given : lease.task.idempotencyKey = key → granted lease.task) (stats : QueueStats) :
    Shelters { q with leases := q.leases.insert leaseId lease, stats := stats } key waiting granted parked := by
  refine ⟨holds.ready, ?_, holds.dead⟩
  intro other held found
  rw [Dict.get?_insert] at found
  split at found
  · cases found
    exact given
  · exact holds.leases other held found

theorem Shelters.pick (holds : q.Shelters key waiting granted parked) {now : DateTime} {queues : List String}
    {capabilities : List Capability} {task : QueuedTask} {rest : InMemoryQueue}
    (picked : q.pick now queues capabilities = some (task, rest)) : rest.Shelters key waiting granted parked := by
  obtain ⟨taken, same⟩ := pick_some picked
  rw [same]
  refine ⟨?_, holds.leases, holds.dead⟩
  intro other member
  exact holds.ready other (taken.mem_iff.mpr (List.mem_cons_of_mem _ member))

theorem Shelters.retryOrPark (holds : q.Shelters key waiting granted parked) (fails : Fails waiting granted parked)
    {task : QueuedTask} (given : task.idempotencyKey = key → granted task) (reason : String) (now : DateTime) :
    (q.retryOrPark task reason now).Shelters key waiting granted parked := by
  unfold InMemoryQueue.retryOrPark
  split
  · rename_i allowed
    let backoff := task.retry.backoffMs task.attempt (subsecNanos now)
    exact holds.push { task with availableAt := now + milliseconds (asI64 backoff) }
      (fun same => fails.retry task _ (given same) allowed) _ _
  · rename_i refused
    refine ⟨holds.ready, holds.leases, ?_⟩
    intro letter member
    rcases List.mem_append.mp member with old | new
    · exact holds.dead letter old
    · rw [List.mem_singleton.mp new]
      intro same
      exact fails.park task (given same) (by simpa using refused)

theorem Shelters.modify (holds : q.Shelters key waiting granted parked) (leaseId : LeaseId)
    (change : TaskLease → TaskLease) (task : ∀ lease, (change lease).task = lease.task) :
    Shelters { q with leases := q.leases.modify leaseId change } key waiting granted parked := by
  refine ⟨holds.ready, ?_, holds.dead⟩
  intro other lease found
  rw [Dict.get?_modify] at found
  split at found
  · obtain ⟨old, present, rfl⟩ := Option.map_eq_some_iff.mp found
    rw [task]
    exact holds.leases _ old present
  · exact holds.leases other lease found

theorem Shelters.extendLease (holds : q.Shelters key waiting granted parked) (leaseId : LeaseId) (millis : Nat)
    (now : DateTime) : (q.extendLease leaseId millis now).2.Shelters key waiting granted parked := by
  unfold InMemoryQueue.extendLease
  cases q.leases.get? leaseId with
  | none => exact holds
  | some held =>
    simp only
    split
    · exact holds
    · cases StateMachine.transition held.state LeaseState.extended with
      | error e => exact holds
      | ok next =>
        simp only
        split
        · exact holds.modify leaseId _ (fun _ => rfl)
        · exact holds.modify leaseId _ (fun _ => rfl)

/-- The sweep, by induction on the leases it collected. -/
theorem Shelters.sweep (fails : Fails waiting granted parked) (now : DateTime) (expired : List LeaseId)
    (holds : q.Shelters key waiting granted parked) :
    (expired.foldl (requeueLease now) q).Shelters key waiting granted parked := by
  induction expired generalizing q with
  | nil => exact holds
  | cons leaseId rest ih =>
    refine ih ?_
    unfold requeueLease
    cases found : q.leases.get? leaseId with
    | none => exact holds
    | some lease => exact (holds.erase leaseId _).retryOrPark fails (holds.leases leaseId lease found) _ now

/-- What a call brings in has the properties of where it puts it. -/
def Brings (q : InMemoryQueue) (key : String) (waiting granted : QueuedTask → Prop) : QueueOp → Prop
  | .enqueue task => task.idempotencyKey ∉ q.seen → task.idempotencyKey = key → waiting task
  | .dequeueFrom worker queues capabilities now leaseId => ∀ lease,
    (q.dequeueFrom worker queues capabilities now leaseId).1 = some lease → lease.task.idempotencyKey = key →
      granted lease.task
  | .release leaseId now => ∀ held, q.leases.get? leaseId = some held → held.task.idempotencyKey = key →
    waiting { held.task with attempt := held.task.attempt - 1, availableAt := now }
  | .replayDeadLetter _ now => ∀ letter ∈ q.dead, letter.task.idempotencyKey = key →
    waiting { letter.task with availableAt := now }
  | _ => True

/-- One call keeps the entries of a key where their properties say. -/
theorem Shelters.step {l : QueueLedger} (holds : l.queue.Shelters key waiting granted parked)
    (fails : Fails waiting granted parked) (live : l.queue.LeasesLive) {op : QueueOp}
    (brings : l.queue.Brings key waiting granted op) : (l.step op).queue.Shelters key waiting granted parked := by
  cases op with
  | enqueue task =>
    simp only [QueueLedger.step, InMemoryQueue.enqueue]
    split
    · exact ⟨holds.ready, holds.leases, holds.dead⟩
    · rename_i unseen
      exact holds.push task (brings (by simpa using unseen)) _ _
  | dequeueFrom worker queues capabilities now leaseId =>
    simp only [Brings, InMemoryQueue.dequeueFrom] at brings
    simp only [QueueLedger.step, InMemoryQueue.dequeueFrom]
    cases picked : l.queue.pick now queues capabilities with
    | none => exact holds
    | some answer =>
      rw [picked] at brings
      exact (holds.pick picked).insert (brings _ rfl) _
  | acknowledge leaseId now =>
    simp only [QueueLedger.step]
    rcases acknowledge_cases live leaseId now with ⟨_, run⟩ | ⟨held, detail, found, _, run⟩ | ⟨held, _, _, run⟩
    · rw [run]
      exact holds
    · rw [run]
      exact (holds.erase leaseId _).retryOrPark fails (holds.leases leaseId held found) _ now
    · rw [run]
      exact holds.erase leaseId _
  | reject leaseId reason now =>
    simp only [QueueLedger.step]
    rcases reject_cases live leaseId reason now with ⟨_, run⟩ | ⟨held, found, run⟩
    · rw [run]
      exact holds
    · rw [run]
      exact (holds.erase leaseId _).retryOrPark fails (holds.leases leaseId held found) reason now
  | release leaseId now =>
    simp only [QueueLedger.step, InMemoryQueue.release, InMemoryQueue.takeLease]
    cases found : l.queue.leases.get? leaseId with
    | none => exact holds
    | some held => exact (holds.erase leaseId l.queue.stats).push _ (brings held found) _ _
  | extendLease leaseId millis now => exact holds.extendLease leaseId millis now
  | requeueExpired now => exact holds.sweep fails now _
  | replayDeadLetter taskId now =>
    simp only [QueueLedger.step]
    rcases replayDeadLetter_cases l.queue taskId now with run | ⟨position, bound, run⟩
    · rw [run]
      exact holds
    · rw [run]
      have fewer : Shelters { l.queue with dead := l.queue.dead.eraseIdx position } key waiting granted parked :=
        ⟨holds.ready, holds.leases, fun letter member => holds.dead letter (List.mem_of_mem_eraseIdx member)⟩
      exact fewer.push _ (brings _ (List.getElem_mem bound)) _ _
  | purgeJob jobId =>
    refine ⟨fun task member => holds.ready task (List.mem_of_mem_filter member), ?_, holds.dead⟩
    intro leaseId lease found
    simp only [QueueLedger.step, InMemoryQueue.purgeJob, Dict.get?_retain, Option.filter_eq_some_iff] at found
    exact holds.leases leaseId lease found.1

theorem Shelters.rehash (holds : q.Shelters key waiting granted parked) {leases : Dict LeaseId TaskLease}
    (moved : q.leases.Rehash leases) : Shelters { q with leases := leases } key waiting granted parked :=
  ⟨holds.ready, fun leaseId lease found => holds.leases leaseId lease ((moved.get? leaseId).trans found), holds.dead⟩

end InMemoryQueue

namespace QueueLedger

/-- Only an entry whose budget is spent is parked. -/
theorem Reach.spent {l : QueueLedger} (reach : l.Reach) :
    ∀ letter ∈ l.queue.dead, letter.task.retry.allowsRetry letter.task.attempt = false := by
  have parked : ∀ key, l.queue.Shelters key (fun _ => True) (fun _ => True)
      (fun task => task.retry.allowsRetry task.attempt = false) := by
    intro key
    induction reach with
    | start => exact .absent List.not_mem_nil
    | @next l op before _ ih =>
      refine ih.step ⟨fun _ _ _ _ => trivial, fun _ _ refused => refused⟩ before.sound.live ?_
      cases op <;> simp [InMemoryQueue.Brings]
    | rehash _ moved ih => exact ih.rehash moved
  exact fun letter member => (parked letter.task.idempotencyKey).dead letter member rfl

/-- The calls that may follow while the entry of a key has not been parked: no lease of it is
given back. An entry that is acknowledged or purged is never parked. -/
def Failing (key : String) (q : InMemoryQueue) : QueueOp → Prop
  | .release leaseId _ => ∀ held, q.leases.get? leaseId = some held → held.task.idempotencyKey ≠ key
  | _ => True

/-- Runs up to the moment in which the entry of a key is parked, with the keys of the leases granted. -/
inductive Until (key : String) (start : QueueLedger) : List String → QueueLedger → Prop
  | rest : Until key start [] start
  | next {granted : List String} {l : QueueLedger} {op : QueueOp} :
      Until key start granted l → key ∉ l.queue.deadKeys →
      op.Fresh l.queue → Failing key l.queue op → Until key start (op.granted l.queue ++ granted) (l.step op)
  | rehash {granted : List String} {l : QueueLedger} {leases : Dict LeaseId TaskLease} : Until key start granted l →
      l.queue.leases.Rehash leases → Until key start granted { l with queue := { l.queue with leases := leases } }

/-- The attempts counted from `attempt` leave a retry until the one with number `count`. -/
def Lasts (retry : RetryPolicy) (attempt count : Nat) : Prop :=
  ∀ number, 1 ≤ number → number < count → (attempt + number) % 2 ^ 32 < retry.maxAttempts

/-- An entry that came back with `attempt` attempts and has been leased `count` times since. -/
def Used (retry : RetryPolicy) (attempt count : Nat) (task : QueuedTask) : Prop :=
  task.retry = retry ∧ task.attempt = (attempt + count) % 2 ^ 32

/-- The way of an entry that came back, after `count` leases. -/
def Comeback (key : String) (retry : RetryPolicy) (attempt count : Nat) (q : InMemoryQueue) : Prop :=
  q.Shelters key (fun task => Used retry attempt count task ∧ Lasts retry attempt (count + 1))
    (fun task => Used retry attempt count task ∧ 1 ≤ count ∧ Lasts retry attempt count)
    (fun _ => 1 ≤ count ∧ Lasts retry attempt count ∧ retry.maxAttempts ≤ (attempt + count) % 2 ^ 32)

variable {key : String} {retry : RetryPolicy} {attempt count : Nat} {l : QueueLedger}

/-- A call that grants no lease of the entry. -/
theorem comeback_other (before : Comeback key retry attempt count l.queue) (sound : l.Sound)
    (admitted : key ∈ l.queue.seen) (waits : key ∉ l.queue.deadKeys) {op : QueueOp}
    (failing : Failing key l.queue op) (other : key ∉ op.granted l.queue) :
    Comeback key retry attempt count (l.step op).queue := by
  refine InMemoryQueue.Shelters.step before ⟨?_, ?_⟩ sound.live ?_
  · rintro task availableAt ⟨used, positive, lasts⟩ allowed
    refine ⟨used, ?_⟩
    intro number started below
    have left : task.attempt < task.retry.maxAttempts := by simpa [RetryPolicy.allowsRetry] using allowed
    rw [used.1, used.2] at left
    rcases Nat.lt_succ_iff_lt_or_eq.mp below with earlier | rfl
    · exact lasts number started earlier
    · exact left
  · rintro task ⟨used, positive, lasts⟩ refused
    have none : task.retry.maxAttempts ≤ task.attempt := by simpa [RetryPolicy.allowsRetry] using refused
    rw [used.1, used.2] at none
    exact ⟨positive, lasts, none⟩
  · cases op with
    | enqueue task =>
      intro unseen same
      exact absurd (same ▸ admitted) unseen
    | dequeueFrom worker queues capabilities now leaseId =>
      rintro lease granted rfl
      exact absurd (by simp [QueueOp.granted, granted]) other
    | release leaseId now =>
      intro held found same
      exact absurd same (failing held found)
    | replayDeadLetter taskId now =>
      rintro letter member rfl
      exact absurd (List.mem_map_of_mem member) waits
    | _ => trivial

/-- A granted lease counts one attempt more. -/
theorem comeback_granted (before : Comeback key retry attempt count l.queue) (sound : l.Sound) {op : QueueOp}
    (granted : key ∈ op.granted l.queue) :
    op.granted l.queue = [key] ∧ Comeback key retry attempt (count + 1) (l.step op).queue := by
  cases op with
  | dequeueFrom worker queues capabilities now leaseId =>
    simp only [QueueOp.granted, step, InMemoryQueue.dequeueFrom] at granted ⊢
    cases picked : l.queue.pick now queues capabilities with
    | none => simp [picked] at granted
    | some answer =>
      obtain ⟨task, rest⟩ := answer
      simp only [picked, Option.map_some, Option.toList_some, List.mem_singleton] at granted ⊢
      subst granted
      obtain ⟨taken, same⟩ := InMemoryQueue.pick_some picked
      have distinct := (InMemoryQueue.keys_pick picked).nodup_iff.mp sound.keys_nodup
      have alone : task.idempotencyKey ∉ rest.keys := (List.nodup_cons.mp distinct).1
      obtain ⟨⟨policy, counted⟩, lasts⟩ := before.ready task (taken.mem_iff.mpr List.mem_cons_self) rfl
      refine ⟨rfl, InMemoryQueue.Shelters.insert (.absent alone) ?_ _⟩
      intro _
      refine ⟨⟨policy, ?_⟩, by omega, lasts⟩
      simp only [counted]
      omega
  | _ => simp [QueueOp.granted] at granted

/-- The whole way, by induction on the calls: every lease of the entry is one attempt more. -/
theorem Until.comeback {granted : List String} {l' : QueueLedger} (run : Until key l granted l') (sound : l.Sound)
    (admitted : key ∈ l.queue.seen) (start : Comeback key retry attempt 0 l.queue) :
    l'.Sound ∧ key ∈ l'.queue.seen ∧ Comeback key retry attempt (granted.count key) l'.queue := by
  induction run with
  | rest => exact ⟨sound, admitted, start⟩
  | @next granted l op _ waits fresh failing ih =>
    obtain ⟨sound, admitted, before⟩ := ih
    refine ⟨sound.step fresh, sound.seen_step admitted op, ?_⟩
    by_cases given : key ∈ op.granted l.queue
    · obtain ⟨only, after⟩ := comeback_granted before sound given
      rw [only, List.singleton_append, List.count_cons_self]
      exact after
    · rw [List.count_append, List.count_eq_zero.mpr given, Nat.zero_add]
      exact comeback_other before sound admitted waits failing given
  | rehash _ moved ih =>
    obtain ⟨sound, admitted, before⟩ := ih
    exact ⟨sound.rehash moved, admitted, before.rehash moved⟩

/-- A replay puts the first letter of the task back with the attempts it had. -/
theorem replayed (sound : l.Sound) {taskId : TaskId} {letter : DeadLetter}
    (found : l.queue.dead.find? (fun letter => letter.task.taskId == taskId) = some letter) (now : DateTime) :
    (l.queue.replayDeadLetter taskId now).1 = true ∧ (letter.task.attempt < 2 ^ 32 →
      Comeback letter.task.idempotencyKey letter.task.retry letter.task.attempt 0
        (l.step (.replayDeadLetter taskId now)).queue) := by
  rw [List.find?_eq_bind_findIdx?_getElem?] at found
  obtain ⟨position, first, here⟩ := Option.bind_eq_some_iff.mp found
  have run : l.queue.replayDeadLetter taskId now = (true, { l.queue with
      dead := l.queue.dead.eraseIdx position
      ready := l.queue.ready ++ [{ letter.task with availableAt := now }]
      stats := { l.queue.stats with enqueuedTotal := l.queue.stats.enqueuedTotal + 1 } }) := by
    simp only [InMemoryQueue.replayDeadLetter, first, here]
  refine ⟨by rw [run], fun counted => ?_⟩
  obtain ⟨bound, rfl⟩ := List.getElem?_eq_some_iff.mp here
  have distinct := (InMemoryQueue.keys_eraseIdx bound).nodup_iff.mp sound.keys_nodup
  simp only [step, run]
  refine InMemoryQueue.Shelters.push (.absent (List.nodup_cons.mp distinct).1) _ ?_ _ _
  intro _
  refine ⟨⟨rfl, ?_⟩, ?_⟩
  · simp only [Nat.add_zero]
    exact (Nat.mod_eq_of_lt counted).symm
  · intro number started below
    omega

/-- A replay does not reset the attempts: the replayed entry gets its whole budget of leases
exactly when that budget is one. -/
theorem Reach.replay_budget (reach : l.Reach) {taskId : TaskId} {now : DateTime} {letter : DeadLetter}
    (found : l.queue.dead.find? (fun letter => letter.task.taskId == taskId) = some letter)
    (positive : 1 ≤ letter.task.retry.maxAttempts) (small : letter.task.retry.maxAttempts < 2 ^ 32)
    (counted : letter.task.attempt < 2 ^ 32) {granted : List String} {l' : QueueLedger}
    (run : Until letter.task.idempotencyKey (l.step (.replayDeadLetter taskId now)) granted l')
    (parked : letter.task.idempotencyKey ∈ l'.queue.deadKeys) :
    (l.queue.replayDeadLetter taskId now).1 = true ∧
      (granted.count letter.task.idempotencyKey = letter.task.retry.maxAttempts ↔
        letter.task.retry.maxAttempts = 1 ∧ letter.task.attempt + 1 < 2 ^ 32) := by
  have sound := reach.sound
  have member : letter ∈ l.queue.dead := List.mem_of_find?_eq_some found
  have spent : letter.task.retry.maxAttempts ≤ letter.task.attempt := by
    simpa [RetryPolicy.allowsRetry] using reach.spent letter member
  obtain ⟨answer, start⟩ := replayed sound found now
  have admitted := sound.keys_seen (InMemoryQueue.mem_keys_dead member)
  obtain ⟨_, _, after⟩ := run.comeback (sound.step trivial) (sound.seen_step admitted _) (start counted)
  obtain ⟨last, inside, same⟩ := List.mem_map.mp parked
  obtain ⟨leased, lasts, beyond⟩ := after.dead last inside same
  refine ⟨answer, ?_⟩
  generalize granted.count letter.task.idempotencyKey = count at leased lasts beyond
  constructor
  · rintro rfl
    by_cases once : letter.task.retry.maxAttempts = 1
    · rw [once] at beyond
      exact ⟨once, by omega⟩
    · have first := lasts 1 (Nat.le_refl 1) (by omega)
      omega
  · rintro ⟨once, bound⟩
    by_cases more : count = 1
    · rw [more, once]
    · have first := lasts 1 (Nat.le_refl 1) (by omega)
      omega

/-- A lease that is granted and rejected. -/
def rejected (leaseId : LeaseId) (now : DateTime) (l : QueueLedger) : QueueLedger :=
  (l.step (.dequeueFrom "w" [] [] now leaseId)).step (.reject leaseId "no" (now + 1))

theorem rejected_reach {leaseId : LeaseId} (reach : l.Reach) (unused : leaseId ∉ l.queue.leases.keys)
    (now : DateTime) : (rejected leaseId now l).Reach :=
  .next (.next reach unused) trivial

theorem rejected_until {key : String} {leaseId : LeaseId} {now : DateTime} (waits : key ∉ l.queue.deadKeys)
    (unused : leaseId ∉ l.queue.leases.keys)
    (leased : QueueOp.granted l.queue (.dequeueFrom "w" [] [] now leaseId) = [key])
    (held : key ∉ (l.step (.dequeueFrom "w" [] [] now leaseId)).queue.deadKeys) :
    Until key l [key] (rejected leaseId now l) := by
  have granted : Until key l [key] (l.step (.dequeueFrom "w" [] [] now leaseId)) := by
    rw [← leased, ← List.append_nil (QueueOp.granted l.queue _)]
    exact .next .rest waits unused trivial
  have rejects : ∀ q : InMemoryQueue, (QueueOp.reject leaseId "no" (now + 1)).Fresh q ∧
      Failing key q (.reject leaseId "no" (now + 1)) := fun _ => ⟨trivial, trivial⟩
  exact .next granted held (rejects _).1 (rejects _).2

/-- The entry with two attempts, leased and rejected until it is parked. -/
def parkedTwice : QueueLedger := rejected ⟨4⟩ 2 (rejected ⟨3⟩ 0 (new.step (.enqueue BudgetLedger.twoAttempts)))

def parkedLetter : DeadLetter := ⟨{ BudgetLedger.twoAttempts with attempt := 2, availableAt := 1 }, 2, "no", 3⟩

/-- After the replay it is leased and rejected once. -/
def parkedAgain : QueueLedger := rejected ⟨5⟩ 5 (parkedTwice.step (.replayDeadLetter ⟨1⟩ 4))

theorem enqueued_reach (task : QueuedTask) : (new.step (.enqueue task)).Reach := .next .start trivial

theorem parkedTwice_reach : parkedTwice.Reach :=
  rejected_reach (rejected_reach (enqueued_reach _) (by decide +kernel) 0) (by decide +kernel) 2

theorem parkedAgain_until : Until "k" (parkedTwice.step (.replayDeadLetter ⟨1⟩ 4)) ["k"] parkedAgain :=
  rejected_until (by decide +kernel) (by decide +kernel) (by decide +kernel) (by decide +kernel)

/-- An entry with one attempt, parked after it. -/
def oneAttempt : QueuedTask :=
  { BudgetLedger.twoAttempts with retry := { BudgetLedger.twoAttempts.retry with maxAttempts := 1 } }

def parkedOnce : QueueLedger := rejected ⟨3⟩ 0 (new.step (.enqueue oneAttempt))

def onceLetter : DeadLetter := ⟨{ oneAttempt with attempt := 1 }, 1, "no", 1⟩

/-- Replayed, leased and rejected once, each of the two entries is parked again: the one has had
half of its budget, the other all of it. -/
theorem replay_budget_parked :
    ["k"].count parkedLetter.task.idempotencyKey ≠ parkedLetter.task.retry.maxAttempts ∧
      ["k"].count onceLetter.task.idempotencyKey = onceLetter.task.retry.maxAttempts := by
  constructor
  · have found : parkedTwice.queue.dead.find? (fun letter => letter.task.taskId == ⟨1⟩) = some parkedLetter := by
      decide +kernel
    have parked : "k" ∈ parkedAgain.queue.deadKeys := by decide +kernel
    obtain ⟨_, budget⟩ :=
      parkedTwice_reach.replay_budget found (by decide) (by decide) (by decide) parkedAgain_until parked
    exact fun same => absurd (budget.mp same).1 (by decide)
  · have reach : parkedOnce.Reach := rejected_reach (enqueued_reach _) (by decide +kernel) 0
    have found : parkedOnce.queue.dead.find? (fun letter => letter.task.taskId == ⟨1⟩) = some onceLetter := by
      decide +kernel
    have run : Until "k" (parkedOnce.step (.replayDeadLetter ⟨1⟩ 2)) ["k"]
        (rejected ⟨5⟩ 3 (parkedOnce.step (.replayDeadLetter ⟨1⟩ 2))) :=
      rejected_until (by decide +kernel) (by decide +kernel) (by decide +kernel) (by decide +kernel)
    have parked : "k" ∈ (rejected ⟨5⟩ 3 (parkedOnce.step (.replayDeadLetter ⟨1⟩ 2))).queue.deadKeys := by
      decide +kernel
    obtain ⟨_, budget⟩ := reach.replay_budget found (by decide) (by decide) (by decide) run parked
    exact budget.mpr ⟨rfl, by decide⟩

/-- An entry with a budget of two is parked again after one lease. -/
theorem replay_once : ¬ ∀ (l l' : QueueLedger) (taskId : TaskId) (now : DateTime) (letter : DeadLetter)
    (granted : List String), l.Reach →
    l.queue.dead.find? (fun letter => letter.task.taskId == taskId) = some letter →
      1 ≤ letter.task.retry.maxAttempts →
    Until letter.task.idempotencyKey (l.step (.replayDeadLetter taskId now)) granted l' →
    letter.task.idempotencyKey ∈ l'.queue.deadKeys →
    granted.count letter.task.idempotencyKey = letter.task.retry.maxAttempts := by
  intro claim
  have found : parkedTwice.queue.dead.find? (fun letter => letter.task.taskId == ⟨1⟩) = some parkedLetter := by
    decide +kernel
  have parked : "k" ∈ parkedAgain.queue.deadKeys := by decide +kernel
  have all := claim parkedTwice parkedAgain ⟨1⟩ 4 parkedLetter ["k"] parkedTwice_reach found
    (by decide) parkedAgain_until
    parked
  exact absurd all (by decide)

end QueueLedger

end Swarm
