import Swarm.Queue.Conservation
import Swarm.Queue.Timed

/-!
The queue over whole runs in which instants may overrun the calendar, and counters their integers.
A call that grants or retries has taken the entry out before it reckons, so its panic loses the
entry.
-/

namespace Swarm

/-- The call loses no entry: all that it reckons for an entry in its hands can be reckoned. -/
def QueueOp.fits (overflow : Overflow) (q : InMemoryQueue) : QueueOp → Bool
  | dequeueFrom _ queues capabilities now _ =>
    (q.pick now queues capabilities).all (fun picked => picked.1.leaseFits overflow now)
  | acknowledge leaseId now =>
    (q.leases.get? leaseId).all (fun held => !held.isExpired now || held.task.retryFits now)
  | reject leaseId _ now => (q.leases.get? leaseId).all (fun held => held.task.retryFits now)
  | requeueExpired now => q.leases.values.all (fun lease => !lease.isExpired now || lease.task.retryFits now)
  | _ => true

namespace InMemoryQueue

/-- The key is gone, and no other. -/
structure Loses (key : String) (q q' : InMemoryQueue) : Prop where
  keys : q.keys.Perm (key :: q'.keys)
  seen : q'.seen = q.seen
  acknowledged : q'.stats.acknowledgedTotal = q.stats.acknowledgedTotal
  enqueued : q'.stats.enqueuedTotal = q.stats.enqueuedTotal
  live : q.LeasesLive → q'.LeasesLive

theorem Moves.loses {q q' q'' : InMemoryQueue} {key : String} (moves : Moves q q') (loses : Loses key q' q'') :
    Loses key q q'' where
  keys := moves.keys.symm.trans loses.keys
  seen := loses.seen.trans moves.seen
  acknowledged := loses.acknowledged.trans moves.acknowledged
  enqueued := loses.enqueued.trans moves.enqueued
  live := loses.live ∘ moves.live

section
variable {q : InMemoryQueue} {now : DateTime} {leaseId : LeaseId}

theorem loses_erase {held : TaskLease} (found : q.leases.get? leaseId = some held) (stats : QueueStats)
    (acknowledged : stats.acknowledgedTotal = q.stats.acknowledgedTotal)
    (enqueued : stats.enqueuedTotal = q.stats.enqueuedTotal) :
    Loses held.task.idempotencyKey q { q with leases := q.leases.erase leaseId, stats := stats } :=
  ⟨keys_erase found, rfl, acknowledged, enqueued, fun live => live.erase leaseId⟩

theorem loses_pick {queues : List String} {capabilities : List Capability} {task : QueuedTask} {rest : InMemoryQueue}
    (picked : q.pick now queues capabilities = some (task, rest)) : Loses task.idempotencyKey q rest := by
  obtain ⟨taken, same⟩ := pick_some picked
  refine ⟨labels_pick taken same, by rw [same], by rw [same], by rw [same], ?_⟩
  intro live
  rw [same]
  exact live

/-- The sweep stops in a panic at the first entry that it cannot schedule. -/
theorem timed_sweep_panics {expired : List LeaseId} {held : TaskLease} (member : leaseId ∈ expired)
    (found : q.leases.get? leaseId = some held) (outside : held.task.retryFits now = false) :
    ∃ panic q' key, Timed.sweep now expired q = .error panic q' ∧ Loses key q q' := by
  induction expired generalizing q with
  | nil => cases member
  | cons first rest ih =>
    by_cases fits : ∀ held, q.leases.get? first = some held → held.task.retryFits now = true
    · have other : leaseId ≠ first := by
        rintro rfl
        rw [fits held found] at outside
        cases outside
      have later : leaseId ∈ rest := (List.mem_cons.mp member).resolve_left other
      have kept : (requeueLease now q first).leases.get? leaseId = some held := by
        rw [requeueLease_get?, if_neg other, found]
      obtain ⟨panic, q', key, run, loses⟩ := ih later kept
      refine ⟨panic, q', key, ?_, (moves_requeueLease q now first).loses loses⟩
      rw [Timed.sweep, timed_requeueLease_fits fits]
      exact run
    · push Not at fits
      obtain ⟨taken, there, outside⟩ := fits
      obtain ⟨panic, run⟩ := timed_requeueLease_panics there (by simpa using outside)
      refine ⟨panic, _, _, ?_,
        loses_erase there { q.stats with expiredTotal := q.stats.expiredTotal + 1 } rfl rfl⟩
      rw [Timed.sweep]
      simp only [run]

theorem timed_requeueExpired_panics (live : q.LeasesLive) {lease : TaskLease} (member : lease ∈ q.leases.values)
    (expired : lease.isExpired now = true) (outside : lease.task.retryFits now = false) :
    ∃ panic q' key, Timed.requeueExpired q now = .error panic q' ∧ Loses key q q' := by
  have collected : lease.leaseId ∈ (q.leases.values.filter (fun lease => lease.isExpired now)).map
    TaskLease.leaseId :=
    List.mem_map_of_mem (List.mem_filter.mpr ⟨member, expired⟩)
  obtain ⟨panic, q', key, run, loses⟩ := timed_sweep_panics collected (expired_found live member) outside
  refine ⟨panic, q', key, ?_, loses⟩
  unfold Timed.requeueExpired
  simp only [run]

/-- An extension that panics has moved the state of the lease and nothing else. -/
theorem moves_timed_extendLease (q : InMemoryQueue) (leaseId : LeaseId) (millis : Nat) (now : DateTime) :
    Moves q (Timed.extendLease q leaseId millis now).queue := by
  unfold Timed.extendLease
  cases found : q.leases.get? leaseId with
  | none => exact Moves.refl q
  | some held =>
    simp only
    split
    · exact Moves.refl q
    · cases moved : StateMachine.transition held.state LeaseState.extended with
      | error e => exact Moves.refl q
      | ok next =>
        obtain ⟨rfl, _⟩ := StateMachine.transition_ok moved
        simp only
        split
        · exact moves_modify leaseId _ (fun _ => rfl) (fun _ => rfl) (fun _ => rfl)
        · cases addMilliseconds now millis <;>
            exact moves_modify leaseId _ (fun _ => rfl) (fun _ => rfl) (fun _ => rfl)

end

end InMemoryQueue

namespace QueueLedger
variable {overflow : Overflow}

/-- A call as the code makes it. It may end in a panic. -/
def call (overflow : Overflow) (l : QueueLedger) : QueueOp → QueueLedger
  | .dequeueFrom worker queues capabilities now leaseId =>
    let ended := InMemoryQueue.Timed.dequeueFrom overflow l.queue worker queues capabilities now leaseId
    { l with queue := ended.queue }
  | .acknowledge leaseId now =>
    let ended := InMemoryQueue.Timed.acknowledge l.queue leaseId now
    let settled := match ended.answer with
      | some (.ok ()) => ((l.queue.leases.get? leaseId).map (fun lease => lease.task.idempotencyKey)).toList
      | _ => []
    { l with queue := ended.queue, acknowledged := settled ++ l.acknowledged }
  | .reject leaseId reason now => { l with queue := (InMemoryQueue.Timed.reject l.queue leaseId reason now).queue }
  | .extendLease leaseId millis now =>
    { l with queue := (InMemoryQueue.Timed.extendLease l.queue leaseId millis now).queue }
  | .requeueExpired now => { l with queue := (InMemoryQueue.Timed.requeueExpired l.queue now).queue }
  | op => l.step op

/-- The runs of the queue: any calls in any order at any clock readings, panics included. The
flag says that no call so far has lost an entry. -/
inductive Runs (overflow : Overflow) : Bool → QueueLedger → Prop
  | start : Runs overflow true new
  | next {fits : Bool} {l : QueueLedger} {op : QueueOp} : Runs overflow fits l → op.Fresh l.queue →
      Runs overflow (fits && op.fits overflow l.queue) (l.call overflow op)
  | rehash {fits : Bool} {l : QueueLedger} {leases : Dict LeaseId TaskLease} : Runs overflow fits l →
      l.queue.leases.Rehash leases → Runs overflow fits { l with queue := { l.queue with leases := leases } }

theorem Runs.call {fits after : Bool} {l : QueueLedger} {op : QueueOp} (runs : Runs overflow fits l)
    (fresh : op.Fresh l.queue) (flag : (fits && op.fits overflow l.queue) = after) :
    Runs overflow after (l.call overflow op) :=
  flag ▸ runs.next fresh

/-- The ledger in which lost keys count as purged. -/
def haunt (l : QueueLedger) (lost : List String) : QueueLedger :=
  { l with purged := l.purged ++ lost, purgedTotal := l.purgedTotal + lost.length }

theorem haunt_nil (l : QueueLedger) : l.haunt [] = l := by
  unfold haunt
  rw [List.append_nil]
  rfl

theorem haunt_step (l : QueueLedger) (lost : List String) (op : QueueOp) :
    (l.haunt lost).step op = (l.step op).haunt lost := by
  cases op with
  | purgeJob jobId =>
    simp only [step, haunt, List.append_assoc]
    rw [Nat.add_right_comm]
  | _ => rfl

theorem Sound.loses {l : QueueLedger} {lost : List String} {key : String} {queue : InMemoryQueue}
    (sound : (l.haunt lost).Sound) (loses : InMemoryQueue.Loses key l.queue queue) :
    ({ l with queue := queue }.haunt (lost ++ [key])).Sound where
  placed := by
    have before := sound.placed
    have taken := loses.keys
    simp only [haunt] at before ⊢
    rw [loses.seen]
    refine List.Perm.trans ?_ before
    rw [List.perm_iff_count] at taken ⊢
    intro key
    have count := taken key
    simp only [List.count_append, List.count_cons, List.count_nil] at count ⊢
    omega
  distinct := by
    have before := sound.distinct
    simp only [haunt] at before ⊢
    rw [loses.seen]
    exact before
  live := loses.live sound.live
  acknowledged := loses.acknowledged.trans sound.acknowledged
  purged := by
    have before := sound.purged
    simp only [haunt, List.length_append, List.length_cons, List.length_nil] at before ⊢
    omega
  enqueued := by
    have before := sound.enqueued
    simp only [haunt] at before ⊢
    rw [loses.seen, loses.enqueued]
    exact before

/-- A call that loses no entry is the call inside the calendar, or an extension. -/
theorem call_fits {l : QueueLedger} (live : l.queue.LeasesLive) {op : QueueOp}
    (fits : op.fits overflow l.queue = true) : l.call overflow op = l.step op ∨
      ∃ queue, l.call overflow op = { l with queue := queue } ∧ l.queue.Moves queue := by
  cases op with
  | dequeueFrom worker queues capabilities now leaseId =>
    have inside : ∀ task rest, l.queue.pick now queues capabilities = some (task, rest) →
        task.leaseFits overflow now = true := by
      intro task rest picked
      rw [QueueOp.fits, picked, Option.all_some] at fits
      exact fits
    have run := InMemoryQueue.timed_dequeueFrom_fits inside worker leaseId
    exact Or.inl (congrArg (fun ended : QueueEnd _ => { l with queue := ended.queue }) run)
  | acknowledge leaseId now =>
    have inside : ∀ held, l.queue.leases.get? leaseId = some held → held.isExpired now = true →
        held.task.retryFits now = true := by
      intro held found expired
      rw [QueueOp.fits, found, Option.all_some, expired, Bool.not_true, Bool.false_or] at fits
      exact fits
    have run := InMemoryQueue.timed_acknowledge_fits inside
    refine Or.inl ?_
    simp only [call, step, run, QueueEnd.queue_ok, QueueEnd.answer_ok]
    rcases InMemoryQueue.acknowledge_cases live leaseId now with ⟨_, run⟩ | ⟨_, _, _, _, run⟩ | ⟨_, _, _, run⟩ <;>
      rw [run]
  | reject leaseId reason now =>
    have inside : ∀ held, l.queue.leases.get? leaseId = some held → held.task.retryFits now = true := by
      intro held found
      rw [QueueOp.fits, found, Option.all_some] at fits
      exact fits
    have run := InMemoryQueue.timed_reject_fits inside reason
    exact Or.inl (by simp only [call, step, run, QueueEnd.queue_ok])
  | extendLease leaseId millis now =>
    exact Or.inr ⟨_, rfl, InMemoryQueue.moves_timed_extendLease l.queue leaseId millis now⟩
  | requeueExpired now =>
    have inside : ∀ lease ∈ l.queue.leases.values, lease.isExpired now = true → lease.task.retryFits now = true := by
      intro lease member expired
      have each := List.all_eq_true.mp fits lease member
      rw [expired, Bool.not_true, Bool.false_or] at each
      exact each
    have run := InMemoryQueue.timed_requeueExpired_fits live inside
    exact Or.inl (by simp only [call, step, run, QueueEnd.queue_ok])
  | _ => exact Or.inl rfl

/-- A call that does not fit loses one entry. -/
theorem call_loses {l : QueueLedger} (live : l.queue.LeasesLive) {op : QueueOp}
    (outside : op.fits overflow l.queue = false) :
    ∃ queue key, l.call overflow op = { l with queue := queue } ∧ InMemoryQueue.Loses key l.queue queue := by
  cases op with
  | dequeueFrom worker queues capabilities now leaseId =>
    rw [QueueOp.fits, Option.all_eq_false] at outside
    obtain ⟨⟨task, rest⟩, picked, outside⟩ := outside
    obtain ⟨panic, run⟩ := InMemoryQueue.timed_dequeueFrom_panics picked outside worker leaseId
    refine ⟨rest, task.idempotencyKey, ?_, InMemoryQueue.loses_pick picked⟩
    simp only [call, run, QueueEnd.queue_error]
  | acknowledge leaseId now =>
    rw [QueueOp.fits, Option.all_eq_false] at outside
    obtain ⟨held, found, outside⟩ := outside
    simp only [Bool.or_eq_false_iff, Bool.not_eq_false'] at outside
    obtain ⟨panic, run⟩ := InMemoryQueue.timed_acknowledge_panics found outside.1 outside.2
    refine ⟨_, held.task.idempotencyKey, ?_, InMemoryQueue.loses_erase found
      { l.queue.stats with expiredTotal := l.queue.stats.expiredTotal + 1 } rfl rfl⟩
    simp only [call, run, QueueEnd.queue_error, QueueEnd.answer_error, List.nil_append]
  | reject leaseId reason now =>
    rw [QueueOp.fits, Option.all_eq_false] at outside
    obtain ⟨held, found, outside⟩ := outside
    obtain ⟨panic, run⟩ := InMemoryQueue.timed_reject_panics live found outside reason
    refine ⟨_, held.task.idempotencyKey, ?_, InMemoryQueue.loses_erase found l.queue.stats rfl rfl⟩
    simp only [call, run, QueueEnd.queue_error]
  | requeueExpired now =>
    rw [QueueOp.fits, List.all_eq_false] at outside
    obtain ⟨lease, member, outside⟩ := outside
    simp only [Bool.not_eq_true, Bool.or_eq_false_iff, Bool.not_eq_false'] at outside
    obtain ⟨panic, queue, key, run, loses⟩ :=
      InMemoryQueue.timed_requeueExpired_panics live member outside.1 outside.2
    refine ⟨queue, key, ?_, loses⟩
    simp only [call, run, QueueEnd.queue_error]
  | _ => cases outside

/-- Every state of a run is sound once its lost keys are counted, and no key is lost as long as
every call fits. -/
theorem Runs.haunted {fits : Bool} {l : QueueLedger} (runs : Runs overflow fits l) :
    ∃ lost, (l.haunt lost).Sound ∧ (fits = true ↔ lost = []) := by
  induction runs with
  | start => exact ⟨[], haunt_nil new ▸ Reach.start.sound, by simp⟩
  | @next fits l op _ fresh ih =>
    obtain ⟨lost, sound, alike⟩ := ih
    have live : l.queue.LeasesLive := sound.live
    cases inside : op.fits overflow l.queue with
    | true =>
      refine ⟨lost, ?_, by rw [Bool.and_true, alike]⟩
      rcases call_fits live inside with same | ⟨queue, same, moves⟩ <;> rw [same]
      · exact haunt_step l lost op ▸ sound.step fresh
      · exact sound.of_moves moves
    | false =>
      obtain ⟨queue, key, same, loses⟩ := call_loses live inside
      rw [same]
      exact ⟨lost ++ [key], sound.loses loses, by simp⟩
  | rehash _ moved ih =>
    obtain ⟨lost, sound, alike⟩ := ih
    exact ⟨lost, sound.rehash moved, alike⟩

/-- Conservation and single ownership. -/
structure Conserved (overflow : Overflow) (l : QueueLedger) : Prop where
  placed : ∀ key, l.occurrences key = if key ∈ l.queue.seen then 1 else 0
  live : ∀ lease ∈ l.queue.leases.values, lease.state = .held ∨ lease.state = .extended
  acknowledge : ∀ leaseId now e,
    (InMemoryQueue.Timed.acknowledge l.queue leaseId now).answer = some (.error e) → ∃ detail, e = .queue detail
  reject : ∀ leaseId reason now e,
    (InMemoryQueue.Timed.reject l.queue leaseId reason now).answer = some (.error e) → ∃ detail, e = .queue detail
  delivered : ∀ worker queues capabilities now leaseId lease,
    (InMemoryQueue.Timed.dequeueFrom overflow l.queue worker queues capabilities now leaseId).answer =
        some (some lease) →
      lease.task.idempotencyKey ∉ l.queue.leaseKeys ∧ lease.task.idempotencyKey ∉ l.acknowledged ∧
        lease.task.idempotencyKey ∉ l.purged
  enqueuedTotal : l.queue.stats.enqueuedTotal =
    l.queue.ready.length + l.queue.leases.entries.length + l.queue.dead.length +
      l.queue.stats.acknowledgedTotal + l.purgedTotal + l.replays

theorem Sound.conserved {l : QueueLedger} (sound : l.Sound) : l.Conserved overflow where
  placed := sound.occurrences
  live := by
    intro lease member
    obtain ⟨leaseId, present⟩ := Dict.mem_values.mp member
    have active := (sound.live _ present).2
    cases state : lease.state <;> simp [state, LeaseState.isActive] at active ⊢
  acknowledge _ _ _ answered := sound.acknowledge_error (InMemoryQueue.timed_acknowledge_answer answered)
  reject _ _ _ _ answered := sound.reject_error (InMemoryQueue.timed_reject_answer sound.live answered)
  delivered _ _ _ _ _ _ answered := sound.delivered (InMemoryQueue.timed_dequeueFrom_answer answered)
  enqueuedTotal := sound.enqueuedTotal

/-- In every state that any calls reach, conservation holds exactly if none of them has lost an
entry to a panic. -/
theorem Runs.conserved_iff {fits : Bool} {l : QueueLedger} (runs : Runs overflow fits l) :
    l.Conserved overflow ↔ fits = true := by
  obtain ⟨lost, sound, alike⟩ := runs.haunted
  rw [alike]
  constructor
  · intro conserved
    cases lost with
    | nil => rfl
    | cons key rest =>
      -- a lost key was admitted, and all its one place is among the lost
      have admitted : key ∈ l.queue.seen :=
        sound.placed.mem_iff.mp (by simp [haunt])
      have once := (sound.occurrences key).trans (if_pos admitted)
      have placed := (conserved.placed key).trans (if_pos admitted)
      unfold occurrences at once placed
      simp only [haunt, List.count_append, List.count_cons_self] at once
      omega
  · rintro rfl
    rw [haunt_nil] at sound
    exact sound.conserved

/-- One entry enqueued, in a release build. -/
def enqueuedRun (entry : QueuedTask) : QueueLedger := new.call .wraps (.enqueue entry)

/-- The entry leased as well, if the call gets so far. -/
def polledRun (entry : QueuedTask) : QueueLedger := (enqueuedRun entry).call .wraps (.dequeueFrom "w" [] [] 0 ⟨3⟩)

/-- And acknowledged. -/
def sampleRun : QueueLedger := (polledRun sampleEntry).call .wraps (.acknowledge ⟨3⟩ 1)

/-- Its lease ends past the calendar. -/
def longEntry : QueuedTask := { sampleEntry with leaseDurationMs := 2 ^ 62 }

theorem enqueuedRun_runs (entry : QueuedTask) : Runs .wraps true (enqueuedRun entry) := Runs.start.call trivial rfl

theorem overrun_runs : Runs .wraps false (polledRun longEntry) :=
  (enqueuedRun_runs longEntry).call List.not_mem_nil (by decide +kernel)

/-- The acknowledged key is in its one place, the key of the overrun in none. -/
theorem conserved_sample :
    sampleRun.acknowledged = ["k"] ∧ sampleRun.Conserved .wraps ∧ ¬ (polledRun longEntry).Conserved .wraps := by
  have leased : Runs .wraps true (polledRun sampleEntry) :=
    (enqueuedRun_runs sampleEntry).call List.not_mem_nil (by decide +kernel)
  have settled : Runs .wraps true sampleRun := leased.call trivial (by decide +kernel)
  refine ⟨by decide +kernel, settled.conserved_iff.mpr rfl, ?_⟩
  rw [overrun_runs.conserved_iff]
  exact Bool.false_ne_true

/-- An admitted key is nowhere, and the entry is counted while nothing accounts for it. -/
theorem overrun_loses_key : (∃ fits, Runs .wraps fits (polledRun longEntry)) ∧ ¬ (polledRun longEntry).Conserved .wraps := by
  refine ⟨⟨_, overrun_runs⟩, ?_⟩
  intro conserved
  have nowhere : (polledRun longEntry).occurrences "k" = 0 ∧ "k" ∈ (polledRun longEntry).queue.seen := by
    decide +kernel
  have once := conserved.placed "k"
  rw [nowhere.1, if_pos nowhere.2] at once
  cases once

end QueueLedger

end Swarm
