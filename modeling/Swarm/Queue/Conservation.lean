import Swarm.Queue.Keys

namespace Swarm

/-- One call on the queue, with the clock reading and the lease identifier it draws. -/
inductive QueueOp where
  | enqueue (task : QueuedTask)
  | dequeueFrom (worker : String) (queues : List String) (capabilities : List Capability) (now : DateTime)
      (leaseId : LeaseId)
  | acknowledge (leaseId : LeaseId) (now : DateTime)
  | reject (leaseId : LeaseId) (reason : String) (now : DateTime)
  | release (leaseId : LeaseId) (now : DateTime)
  | extendLease (leaseId : LeaseId) (millis : Nat) (now : DateTime)
  | requeueExpired (now : DateTime)
  | replayDeadLetter (taskId : TaskId) (now : DateTime)
  | purgeJob (jobId : JobId)

/-- A lease identifier is drawn that no live lease has. -/
def QueueOp.Fresh (q : InMemoryQueue) : QueueOp → Prop
  | dequeueFrom _ _ _ _ leaseId => leaseId ∉ q.leases.keys
  | _ => True

/-- The queue together with what its answers have said so far: the keys it
acknowledged, the keys it purged, the sum of the purge counts and the number of
replays that returned true. -/
structure QueueLedger where
  queue : InMemoryQueue
  acknowledged : List String
  purged : List String
  purgedTotal : Nat
  replays : Nat

namespace QueueLedger

def new : QueueLedger := ⟨.new, [], [], 0, 0⟩

/-- The keys of a job's ready entries and leases. -/
def jobKeys (q : InMemoryQueue) (jobId : JobId) : List String :=
  (q.ready.filter (fun task => task.jobId == jobId)).map QueuedTask.idempotencyKey ++
    (q.leases.values.filter (fun lease => lease.task.jobId == jobId)).map (fun lease => lease.task.idempotencyKey)

def step (l : QueueLedger) : QueueOp → QueueLedger
  | .enqueue task => { l with queue := l.queue.enqueue task }
  | .dequeueFrom worker queues capabilities now leaseId =>
    { l with queue := (l.queue.dequeueFrom worker queues capabilities now leaseId).2 }
  | .acknowledge leaseId now =>
    let (answer, queue) := l.queue.acknowledge leaseId now
    let settled := match answer with
      | .ok () => ((l.queue.leases.get? leaseId).map (fun lease => lease.task.idempotencyKey)).toList
      | .error _ => []
    { l with queue := queue, acknowledged := settled ++ l.acknowledged }
  | .reject leaseId reason now => { l with queue := (l.queue.reject leaseId reason now).2 }
  | .release leaseId now => { l with queue := (l.queue.release leaseId now).2 }
  | .extendLease leaseId millis now => { l with queue := (l.queue.extendLease leaseId millis now).2 }
  | .requeueExpired now => { l with queue := (l.queue.requeueExpired now).2 }
  | .replayDeadLetter taskId now =>
    let (answer, queue) := l.queue.replayDeadLetter taskId now
    { l with queue := queue, replays := l.replays + (if answer then 1 else 0) }
  | .purgeJob jobId =>
    let (count, queue) := l.queue.purgeJob jobId
    { l with queue := queue, purged := jobKeys l.queue jobId ++ l.purged, purgedTotal := l.purgedTotal + count }

/-- The runs of a queue: any calls in any order at any clock readings. The map
of leases may be iterated in another order at any time. -/
inductive Reach : QueueLedger → Prop
  | start : Reach new
  | next {l : QueueLedger} {op : QueueOp} : Reach l → op.Fresh l.queue → Reach (l.step op)
  | rehash {l : QueueLedger} {leases : Dict LeaseId TaskLease} : Reach l → l.queue.leases.Rehash leases →
      Reach { l with queue := { l.queue with leases := leases } }

/-- How often a key occurs among the ready entries, the leases, the dead
letters, the acknowledged and the purged keys. -/
def occurrences (l : QueueLedger) (key : String) : Nat :=
  l.queue.readyKeys.count key + l.queue.leaseKeys.count key + l.queue.deadKeys.count key +
    l.acknowledged.count key + l.purged.count key

/-- Every admitted key is in exactly one place, and the counters agree. -/
structure Sound (l : QueueLedger) : Prop where
  placed : (l.queue.keys ++ (l.acknowledged ++ l.purged)).Perm l.queue.seen
  distinct : l.queue.seen.Nodup
  live : l.queue.LeasesLive
  acknowledged : l.queue.stats.acknowledgedTotal = l.acknowledged.length
  purged : l.purgedTotal = l.purged.length
  enqueued : l.queue.stats.enqueuedTotal = l.queue.seen.length + l.replays

theorem Sound.of_moves {l : QueueLedger} {queue : InMemoryQueue} (sound : l.Sound)
    (moves : l.queue.Moves queue) : Sound { l with queue := queue } where
  placed := by
    rw [moves.seen]
    exact (moves.keys.append_right _).trans sound.placed
  distinct := by rw [moves.seen]; exact sound.distinct
  live := moves.live sound.live
  acknowledged := moves.acknowledged.trans sound.acknowledged
  purged := sound.purged
  enqueued := by rw [moves.seen, moves.enqueued]; exact sound.enqueued

theorem Sound.enqueue {l : QueueLedger} (sound : l.Sound) (task : QueuedTask) :
    (l.step (.enqueue task)).Sound := by
  simp only [step, InMemoryQueue.enqueue]
  split
  · exact sound.of_moves ⟨fun _ => List.Perm.refl _, rfl, rfl, rfl, id⟩
  · rename_i absent
    have unseen : task.idempotencyKey ∉ l.queue.seen := by simpa using absent
    refine ⟨?_, List.nodup_cons.mpr ⟨unseen, sound.distinct⟩, sound.live, sound.acknowledged, sound.purged, ?_⟩
    · exact ((InMemoryQueue.keys_push task).append_right _).trans (sound.placed.cons _)
    · have before := sound.enqueued
      simp only [List.length_cons]
      omega

theorem Sound.acknowledge {l : QueueLedger} (sound : l.Sound) (leaseId : LeaseId) (now : DateTime) :
    (l.step (.acknowledge leaseId now)).Sound := by
  rcases InMemoryQueue.acknowledge_cases sound.live leaseId now with
    ⟨_, run⟩ | ⟨held, detail, found, _, run⟩ | ⟨held, found, _, run⟩
  · simp only [step, run, List.nil_append]
    exact sound
  · simp only [step, run, List.nil_append]
    exact sound.of_moves (InMemoryQueue.moves_retryOrPark found _ _ now rfl rfl)
  · simp only [step, run, found, Option.map_some, Option.toList_some, List.singleton_append]
    refine ⟨?_, sound.distinct, sound.live.erase leaseId, ?_, sound.purged, sound.enqueued⟩
    · -- the key moves from the leases to the acknowledged ones
      have taken := (InMemoryQueue.keys_erase found).append_right (l.acknowledged ++ l.purged)
      exact List.perm_middle.trans (taken.symm.trans sound.placed)
    · exact congrArg (· + 1) sound.acknowledged

theorem Sound.replayDeadLetter {l : QueueLedger} (sound : l.Sound) (taskId : TaskId) (now : DateTime) :
    (l.step (.replayDeadLetter taskId now)).Sound := by
  rcases InMemoryQueue.replayDeadLetter_cases l.queue taskId now with run | ⟨position, bound, run⟩
  · simp only [step, run, Bool.false_eq_true, if_false, Nat.add_zero]
    exact sound
  · simp only [step, run, if_true]
    refine ⟨?_, sound.distinct, sound.live, sound.acknowledged, sound.purged, ?_⟩
    · have pushed := InMemoryQueue.keys_push (q := { l.queue with dead := l.queue.dead.eraseIdx position })
        { l.queue.dead[position].task with availableAt := now }
      exact ((pushed.trans (InMemoryQueue.keys_eraseIdx bound).symm).append_right _).trans sound.placed
    · exact congrArg (· + 1) sound.enqueued

/-- A purge splits the keys into those of the job and the rest. -/
theorem keys_purgeJob (q : InMemoryQueue) (jobId : JobId) :
    q.keys.Perm (jobKeys q jobId ++ (q.purgeJob jobId).2.keys) := by
  have ready := (List.filter_append_perm (fun task : QueuedTask => task.jobId == jobId) q.ready).map
    QueuedTask.idempotencyKey
  have leases := ((List.filter_append_perm (fun entry : LeaseId × TaskLease => entry.2.task.jobId == jobId)
    q.leases.entries).map Prod.snd).map (fun lease => lease.task.idempotencyKey)
  have split := (ready.append leases).append_right q.deadKeys
  refine split.symm.trans ?_
  simp only [jobKeys, InMemoryQueue.purgeJob, InMemoryQueue.keys, InMemoryQueue.readyKeys, InMemoryQueue.leaseKeys,
    InMemoryQueue.deadKeys, Dict.values, Dict.retain_entries, List.map_append, List.filter_map, List.append_assoc,
    bne, Function.comp_def]
  exact (List.perm_append_comm_assoc _ _ _).append_left _

theorem Sound.purgeJob {l : QueueLedger} (sound : l.Sound) (jobId : JobId) :
    (l.step (.purgeJob jobId)).Sound := by
  have split := keys_purgeJob l.queue jobId
  refine ⟨?_, sound.distinct, ?_, sound.acknowledged, ?_, sound.enqueued⟩
  · have moved := split.append_right (l.acknowledged ++ l.purged)
    refine List.Perm.trans ?_ (moved.symm.trans sound.placed)
    rw [List.perm_iff_count]
    intro key
    simp only [step, List.count_append]
    omega
  · exact fun entry member => sound.live entry (List.mem_of_mem_filter member)
  · have lengths := split.length_eq
    have before := sound.purged
    rw [List.length_append, InMemoryQueue.keys_length, InMemoryQueue.keys_length] at lengths
    simp only [step, InMemoryQueue.purgeJob, List.length_append] at lengths ⊢
    omega

theorem Sound.rehash {l : QueueLedger} (sound : l.Sound) {leases : Dict LeaseId TaskLease}
    (moved : l.queue.leases.Rehash leases) : Sound { l with queue := { l.queue with leases := leases } } :=
  sound.of_moves (InMemoryQueue.moves_rehash moved)

/-- One call keeps the ledger sound. -/
theorem Sound.step {l : QueueLedger} (sound : l.Sound) {op : QueueOp} (fresh : op.Fresh l.queue) :
    (l.step op).Sound := by
  cases op with
  | enqueue task => exact sound.enqueue task
  | dequeueFrom worker queues capabilities now leaseId =>
    exact sound.of_moves (InMemoryQueue.moves_dequeueFrom worker queues capabilities now fresh)
  | acknowledge leaseId now => exact sound.acknowledge leaseId now
  | reject leaseId reason now => exact sound.of_moves (InMemoryQueue.moves_reject sound.live leaseId reason now)
  | release leaseId now => exact sound.of_moves (InMemoryQueue.moves_release l.queue leaseId now)
  | extendLease leaseId millis now =>
    exact sound.of_moves (InMemoryQueue.moves_extendLease l.queue leaseId millis now)
  | requeueExpired now => exact sound.of_moves (InMemoryQueue.moves_requeueExpired l.queue now)
  | replayDeadLetter taskId now => exact sound.replayDeadLetter taskId now
  | purgeJob jobId => exact sound.purgeJob jobId

theorem Reach.sound {l : QueueLedger} (reach : l.Reach) : l.Sound := by
  induction reach with
  | start =>
    exact ⟨List.Perm.refl _, List.nodup_nil, fun _ member => absurd member List.not_mem_nil, rfl, rfl, rfl⟩
  | next _ fresh ih => exact ih.step fresh
  | rehash _ moved ih => exact ih.rehash moved

theorem Sound.keys_nodup {l : QueueLedger} (sound : l.Sound) : l.queue.keys.Nodup := by
  have all := sound.placed.nodup_iff.mpr sound.distinct
  exact (List.nodup_append.mp all).1

theorem Sound.keys_seen {l : QueueLedger} (sound : l.Sound) {key : String} (member : key ∈ l.queue.keys) :
    key ∈ l.queue.seen :=
  sound.placed.mem_iff.mp (List.mem_append_left _ member)

/-- An admitted key stays admitted. -/
theorem Sound.seen_step {l : QueueLedger} (sound : l.Sound) {key : String} (admitted : key ∈ l.queue.seen)
    (op : QueueOp) :
    key ∈ (l.step op).queue.seen := by
  cases op with
  | enqueue task =>
    simp only [QueueLedger.step, InMemoryQueue.enqueue]
    split
    · exact admitted
    · exact List.mem_cons_of_mem _ admitted
  | dequeueFrom worker queues capabilities now leaseId =>
    simp only [QueueLedger.step, InMemoryQueue.dequeueFrom]
    cases picked : l.queue.pick now queues capabilities with
    | none => exact admitted
    | some answer =>
      simp only
      rw [(InMemoryQueue.pick_some picked).2]
      exact admitted
  | acknowledge leaseId now =>
    simp only [QueueLedger.step]
    rcases InMemoryQueue.acknowledge_cases sound.live leaseId now with ⟨_, run⟩ | ⟨_, _, _, _, run⟩
      | ⟨_, _, _, run⟩ <;> rw [run]
    · exact admitted
    · rw [InMemoryQueue.retryOrPark_seen]
      exact admitted
    · exact admitted
  | reject leaseId reason now =>
    simp only [QueueLedger.step]
    rw [(InMemoryQueue.moves_reject sound.live leaseId reason now).seen]
    exact admitted
  | release leaseId now =>
    simp only [QueueLedger.step]
    rw [(InMemoryQueue.moves_release l.queue leaseId now).seen]
    exact admitted
  | extendLease leaseId millis now =>
    simp only [QueueLedger.step]
    rw [(InMemoryQueue.moves_extendLease l.queue leaseId millis now).seen]
    exact admitted
  | requeueExpired now =>
    simp only [QueueLedger.step]
    rw [(InMemoryQueue.moves_requeueExpired l.queue now).seen]
    exact admitted
  | replayDeadLetter taskId now =>
    simp only [QueueLedger.step]
    rcases InMemoryQueue.replayDeadLetter_cases l.queue taskId now with run
      | ⟨_, _, run⟩ <;> rw [run] <;> exact admitted
  | purgeJob jobId => exact admitted

theorem Sound.occurrences {l : QueueLedger} (sound : l.Sound) (key : String) :
    l.occurrences key = if key ∈ l.queue.seen then 1 else 0 := by
  have total := sound.placed.count_eq key
  simp only [InMemoryQueue.keys, List.count_append] at total
  unfold QueueLedger.occurrences
  split
  · rename_i admitted
    rw [List.count_eq_one_of_mem sound.distinct admitted] at total
    omega
  · rename_i unknown
    rw [List.count_eq_zero.mpr unknown] at total
    omega

theorem Sound.enqueuedTotal {l : QueueLedger} (sound : l.Sound) :
    l.queue.stats.enqueuedTotal = l.queue.ready.length + l.queue.leases.entries.length + l.queue.dead.length +
      l.queue.stats.acknowledgedTotal + l.purgedTotal + l.replays := by
  have lengths := sound.placed.length_eq
  rw [List.length_append, List.length_append, InMemoryQueue.keys_length] at lengths
  have acknowledged := sound.acknowledged
  have purged := sound.purged
  have enqueued := sound.enqueued
  omega

theorem Sound.acknowledge_error {l : QueueLedger} (sound : l.Sound) {leaseId : LeaseId} {now : DateTime}
    {e : SwarmError} (failed : (l.queue.acknowledge leaseId now).1 = .error e) : ∃ detail, e = .queue detail := by
  rcases InMemoryQueue.acknowledge_cases sound.live leaseId now with
    ⟨_, run⟩ | ⟨_, detail, _, _, run⟩ | ⟨_, _, _, run⟩ <;> rw [run] at failed <;> cases failed
  · exact ⟨_, rfl⟩
  · exact ⟨detail, rfl⟩

theorem Sound.reject_error {l : QueueLedger} (sound : l.Sound) {leaseId : LeaseId} {reason : String}
    {now : DateTime} {e : SwarmError} (failed : (l.queue.reject leaseId reason now).1 = .error e) :
    ∃ detail, e = .queue detail := by
  rcases InMemoryQueue.reject_cases sound.live leaseId reason now with ⟨_, run⟩ | ⟨_, _, run⟩ <;>
    rw [run] at failed <;> cases failed
  exact ⟨_, rfl⟩

/-- What is delivered was ready, so it is in none of the other places. -/
theorem Sound.delivered {l : QueueLedger} (sound : l.Sound) {worker : String} {queues : List String}
    {capabilities : List Capability} {now : DateTime} {leaseId : LeaseId} {lease : TaskLease}
    (granted : (l.queue.dequeueFrom worker queues capabilities now leaseId).1 = some lease) :
    lease.task.idempotencyKey ∉ l.queue.leaseKeys ∧ lease.task.idempotencyKey ∉ l.acknowledged ∧
      lease.task.idempotencyKey ∉ l.purged := by
  have ready : lease.task.idempotencyKey ∈ l.queue.readyKeys := by
    unfold InMemoryQueue.dequeueFrom at granted
    cases run : l.queue.pick now queues capabilities with
    | none => rw [run] at granted; cases granted
    | some picked =>
      obtain ⟨task, rest⟩ := picked
      rw [run] at granted
      cases granted
      have member : task ∈ l.queue.ready := (InMemoryQueue.pick_some run).1.mem_iff.mpr List.mem_cons_self
      exact List.mem_map.mpr ⟨task, member, rfl⟩
  have once := sound.occurrences lease.task.idempotencyKey
  have positive := List.count_pos_iff.mpr ready
  unfold QueueLedger.occurrences at once
  refine ⟨?_, ?_, ?_⟩ <;> intro again <;> have positive' := List.count_pos_iff.mpr again <;> split at once <;> omega

def sampleNode : TaskNode := TaskNode.new ⟨1⟩ ⟨2⟩ .work "a" "b" 0

def sampleEntry : QueuedTask := { QueuedTask.fromTask sampleNode .normal 60000 0 with idempotencyKey := "k" }

end QueueLedger

end Swarm
