import Swarm.Domain.Calendar
import Swarm.Queue.Keys

/-!
The calls of the queue that reckon an instant, as the code makes them: past the end of the
calendar they panic, and so does the count of the attempts in a build that checks its sums. The
lock takes no notice of it, so the queue stays as the call left it.
-/

namespace Swarm

/-- How a call on the queue ends: with an answer or in a panic, and the queue it leaves. -/
abbrev QueueEnd (α : Type) := EStateM.Result Panic InMemoryQueue α

/-- The queue that is left. -/
def QueueEnd.queue {α : Type} : QueueEnd α → InMemoryQueue
  | .ok _ q => q
  | .error _ q => q

/-- The answer, if there is one. -/
def QueueEnd.answer {α : Type} : QueueEnd α → Option α
  | .ok answer _ => some answer
  | .error _ _ => none

section
variable {α : Type} (answer : α) (panic : Panic) (q : InMemoryQueue)

@[simp] theorem QueueEnd.queue_ok : queue (.ok answer q : QueueEnd α) = q := rfl

@[simp] theorem QueueEnd.queue_error : queue (.error panic q : QueueEnd α) = q := rfl

@[simp] theorem QueueEnd.answer_ok : QueueEnd.answer (.ok answer q) = some answer := rfl

@[simp] theorem QueueEnd.answer_error : QueueEnd.answer (.error panic q : QueueEnd α) = none := rfl

end

/-- A lease can be granted now: its attempt can be counted, and it ends in the calendar. -/
def QueuedTask.leaseFits (overflow : Overflow) (task : QueuedTask) (now : DateTime) : Bool :=
  fitsU32 overflow task.attempt 1 && msInCalendar now (asI64 task.leaseDurationMs)

/-- A retry scheduled now falls in the calendar. An entry without attempts left is not scheduled. -/
def QueuedTask.retryFits (task : QueuedTask) (now : DateTime) : Bool :=
  !task.retry.allowsRetry task.attempt ||
    msInCalendar now (asI64 (task.retry.backoffMs task.attempt (subsecNanos now)))

namespace InMemoryQueue

namespace Timed

/-- Send a failed task back for another attempt, or park it if the budget is spent. -/
def retryOrPark (q : InMemoryQueue) (task : QueuedTask) (reason : String) (now : DateTime) : QueueEnd Unit :=
  if task.retry.allowsRetry task.attempt then
    let backoff := task.retry.backoffMs task.attempt (subsecNanos now)
    match addMilliseconds now (asI64 backoff) with
    | .error panic => .error panic q
    | .ok availableAt =>
      .ok () { q with
        stats := { q.stats with retriedTotal := q.stats.retriedTotal + 1 }
        ready := q.ready ++ [{ task with availableAt := availableAt }] }
  else .ok () { q with dead := q.dead ++ [⟨task, task.attempt, reason, now⟩] }

/-- The attempt that a lease granted now is, and its end. -/
def reckon (overflow : Overflow) (task : QueuedTask) (now : DateTime) : Except Panic (Nat × DateTime) := do
  let attempt ← addU32 overflow task.attempt 1
  let expiresAt ← addMilliseconds now (asI64 task.leaseDurationMs)
  pure (attempt, expiresAt)

/-- The entry has been picked before anything is reckoned for it. -/
def dequeueFrom (overflow : Overflow) (q : InMemoryQueue) (worker : String) (queues : List String)
    (capabilities : List Capability) (now : DateTime) (leaseId : LeaseId) : QueueEnd (Option TaskLease) :=
  match q.pick now queues capabilities with
  | none => .ok none q
  | some (task, rest) =>
    match reckon overflow task now with
    | .error panic => .error panic rest
    | .ok (attempt, expiresAt) =>
      let lease : TaskLease := ⟨leaseId, { task with attempt := attempt }, worker, now, expiresAt, .held⟩
      .ok (some lease) { rest with
        leases := rest.leases.insert leaseId lease
        stats := { rest.stats with dequeuedTotal := rest.stats.dequeuedTotal + 1 } }

def acknowledge (q : InMemoryQueue) (leaseId : LeaseId) (now : DateTime) : QueueEnd (Except SwarmError Unit) :=
  match q.takeLease leaseId with
  | .error e => .ok (.error e) q
  | .ok (held, q) =>
    if held.isExpired now then
      let q := { q with stats := { q.stats with expiredTotal := q.stats.expiredTotal + 1 } }
      match retryOrPark q held.task "lease expired before acknowledgement" now with
      | .error panic q => .error panic q
      | .ok _ q =>
        let expiry := displayDateTime held.expiresAt
        .ok (.error (.queue s!"lease {leaseId.display} expired at {expiry}; task was requeued")) q
    else
      match StateMachine.transition held.state LeaseState.released with
      | .error e => .ok (.error e) q
      | .ok _ =>
        .ok (.ok ()) { q with stats := { q.stats with acknowledgedTotal := q.stats.acknowledgedTotal + 1 } }

def reject (q : InMemoryQueue) (leaseId : LeaseId) (reason : String) (now : DateTime) :
    QueueEnd (Except SwarmError Unit) :=
  match q.takeLease leaseId with
  | .error e => .ok (.error e) q
  | .ok (held, q) =>
    match StateMachine.transition held.state LeaseState.rejected with
    | .error e => .ok (.error e) q
    | .ok _ =>
      match retryOrPark q held.task reason now with
      | .error panic q => .error panic q
      | .ok _ q => .ok (.ok ()) q

/-- The state moves before the new end is reckoned. -/
def extendLease (q : InMemoryQueue) (leaseId : LeaseId) (millis : Nat) (now : DateTime) :
    QueueEnd (Except SwarmError Unit) :=
  match q.leases.get? leaseId with
  | none => .ok (.error (.queue s!"unknown lease {leaseId.display}")) q
  | some held =>
    if held.isExpired now then
      .ok (.error (.queue s!"lease {leaseId.display} already expired at {displayDateTime held.expiresAt}")) q
    else
      match StateMachine.transition held.state LeaseState.extended with
      | .error e => .ok (.error e) q
      | .ok next =>
        let moved := { q with leases := q.leases.modify leaseId (fun lease => { lease with state := next }) }
        if 2 ^ 63 ≤ millis then .ok (.error (.queue "lease extension does not fit in i64 ms")) moved
        else
          match addMilliseconds now millis with
          | .error panic => .error panic moved
          | .ok expiresAt =>
            .ok (.ok ()) { q with leases := q.leases.modify leaseId (fun lease =>
              { lease with state := next, expiresAt := expiresAt }) }

/-- One round of the sweep. -/
def requeueLease (now : DateTime) (q : InMemoryQueue) (leaseId : LeaseId) : QueueEnd Unit :=
  match q.leases.get? leaseId with
  | none => .ok () q
  | some lease =>
    retryOrPark
      { q with
        leases := q.leases.erase leaseId
        stats := { q.stats with expiredTotal := q.stats.expiredTotal + 1 } }
      lease.task "lease expired" now

/-- The sweep. A panic ends it. -/
def sweep (now : DateTime) : List LeaseId → InMemoryQueue → QueueEnd Unit
  | [], q => .ok () q
  | leaseId :: rest, q =>
    match requeueLease now q leaseId with
    | .error panic q => .error panic q
    | .ok _ q => sweep now rest q

def requeueExpired (q : InMemoryQueue) (now : DateTime) : QueueEnd Nat :=
  let expired := (q.leases.values.filter (fun lease => lease.isExpired now)).map TaskLease.leaseId
  match sweep now expired q with
  | .error panic q => .error panic q
  | .ok _ q => .ok expired.length q

end Timed

section
variable {overflow : Overflow} {q : InMemoryQueue} {now : DateTime} {leaseId : LeaseId}

/-- In the calendar the call does what `retryOrPark` says. -/
theorem timed_retryOrPark_fits {task : QueuedTask} (fits : task.retryFits now = true) (reason : String) :
    Timed.retryOrPark q task reason now = .ok () (q.retryOrPark task reason now) := by
  unfold Timed.retryOrPark InMemoryQueue.retryOrPark
  by_cases allowed : task.retry.allowsRetry task.attempt = true
  · simp only [QueuedTask.retryFits, allowed, Bool.not_true, Bool.false_or] at fits
    simp only [allowed, if_true, addMilliseconds_ok fits]
  · simp only [if_neg allowed]

/-- Past it the entry is in no container any more. -/
theorem timed_retryOrPark_panics {task : QueuedTask} (outside : task.retryFits now = false) (reason : String) :
    ∃ panic, Timed.retryOrPark q task reason now = .error panic q := by
  simp only [QueuedTask.retryFits, Bool.or_eq_false_iff, Bool.not_eq_false'] at outside
  obtain ⟨panic, failed⟩ := addMilliseconds_error outside.2
  refine ⟨panic, ?_⟩
  unfold Timed.retryOrPark
  simp only [outside.1, if_true, failed]

theorem reckon_fits {task : QueuedTask} (fits : task.leaseFits overflow now = true) :
    Timed.reckon overflow task now =
      .ok ((task.attempt + 1) % 2 ^ 32, now + milliseconds (asI64 task.leaseDurationMs)) := by
  obtain ⟨counted, inside⟩ := Bool.and_eq_true_iff.mp fits
  rw [Timed.reckon, addU32_ok counted, addMilliseconds_ok inside]
  rfl

theorem reckon_panics {task : QueuedTask} (outside : task.leaseFits overflow now = false) :
    ∃ panic, Timed.reckon overflow task now = .error panic := by
  unfold Timed.reckon
  rcases Bool.and_eq_false_iff.mp outside with uncounted | outside
  · rw [addU32_error uncounted]
    exact ⟨_, rfl⟩
  · obtain ⟨panic, failed⟩ := addMilliseconds_error outside
    rw [failed]
    cases addU32 overflow task.attempt 1 <;> exact ⟨_, rfl⟩

theorem timed_dequeueFrom_none {queues : List String} {capabilities : List Capability}
    (none : q.pick now queues capabilities = none) (worker : String) (leaseId : LeaseId) :
    Timed.dequeueFrom overflow q worker queues capabilities now leaseId = .ok Option.none q := by
  unfold Timed.dequeueFrom
  rw [none]

theorem timed_dequeueFrom_fits {queues : List String} {capabilities : List Capability}
    (fits : ∀ task rest, q.pick now queues capabilities = some (task, rest) → task.leaseFits overflow now = true)
    (worker : String) (leaseId : LeaseId) :
    Timed.dequeueFrom overflow q worker queues capabilities now leaseId =
      .ok (q.dequeueFrom worker queues capabilities now leaseId).1
        (q.dequeueFrom worker queues capabilities now leaseId).2 := by
  unfold Timed.dequeueFrom InMemoryQueue.dequeueFrom
  cases picked : q.pick now queues capabilities with
  | none => rfl
  | some answer =>
    obtain ⟨task, rest⟩ := answer
    simp only
    rw [reckon_fits (fits task rest picked)]

theorem timed_dequeueFrom_panics {queues : List String} {capabilities : List Capability} {task : QueuedTask}
    {rest : InMemoryQueue} (picked : q.pick now queues capabilities = some (task, rest))
    (outside : task.leaseFits overflow now = false) (worker : String) (leaseId : LeaseId) :
    ∃ panic, Timed.dequeueFrom overflow q worker queues capabilities now leaseId = .error panic rest := by
  obtain ⟨panic, failed⟩ := reckon_panics outside
  refine ⟨panic, ?_⟩
  unfold Timed.dequeueFrom
  rw [picked]
  simp only
  rw [failed]

/-- An acknowledgement reckons an instant only for an expired lease. -/
theorem timed_acknowledge_fits
    (fits : ∀ held, q.leases.get? leaseId = some held → held.isExpired now = true → held.task.retryFits now = true) :
    Timed.acknowledge q leaseId now = .ok (q.acknowledge leaseId now).1 (q.acknowledge leaseId now).2 := by
  unfold Timed.acknowledge InMemoryQueue.acknowledge takeLease
  cases found : q.leases.get? leaseId with
  | none => rfl
  | some held =>
    simp only
    by_cases expired : held.isExpired now = true
    · simp only [expired, if_true, timed_retryOrPark_fits (fits held found expired)]
    · simp only [if_neg expired]
      cases StateMachine.transition held.state LeaseState.released <;> rfl

theorem timed_acknowledge_panics {held : TaskLease} (found : q.leases.get? leaseId = some held)
    (expired : held.isExpired now = true) (outside : held.task.retryFits now = false) :
    ∃ panic, Timed.acknowledge q leaseId now = .error panic
      { q with
        leases := q.leases.erase leaseId
        stats := { q.stats with expiredTotal := q.stats.expiredTotal + 1 } } := by
  obtain ⟨panic, failed⟩ := timed_retryOrPark_panics
    (q := { q with
      leases := q.leases.erase leaseId
      stats := { q.stats with expiredTotal := q.stats.expiredTotal + 1 } })
    outside "lease expired before acknowledgement"
  refine ⟨panic, ?_⟩
  unfold Timed.acknowledge takeLease
  simp only [found, expired, if_true, failed]

theorem timed_reject_fits (fits : ∀ held, q.leases.get? leaseId = some held → held.task.retryFits now = true)
    (reason : String) : Timed.reject q leaseId reason now =
      .ok (q.reject leaseId reason now).1 (q.reject leaseId reason now).2 := by
  unfold Timed.reject InMemoryQueue.reject takeLease
  cases found : q.leases.get? leaseId with
  | none => rfl
  | some held =>
    simp only
    cases StateMachine.transition held.state LeaseState.rejected with
    | error e => rfl
    | ok next => simp only [timed_retryOrPark_fits (fits held found)]

theorem timed_reject_panics (live : q.LeasesLive) {held : TaskLease} (found : q.leases.get? leaseId = some held)
    (outside : held.task.retryFits now = false) (reason : String) :
    ∃ panic, Timed.reject q leaseId reason now = .error panic { q with leases := q.leases.erase leaseId } := by
  have moved := StateMachine.transition_of_mem
    (LeaseState.active_allows (live.of_get? found).2 (Or.inr (Or.inr rfl)))
  obtain ⟨panic, failed⟩ := timed_retryOrPark_panics (q := { q with leases := q.leases.erase leaseId }) outside reason
  refine ⟨panic, ?_⟩
  unfold Timed.reject takeLease
  simp only [found, moved, failed]

theorem timed_requeueLease_fits (fits : ∀ held, q.leases.get? leaseId = some held → held.task.retryFits now = true) :
    Timed.requeueLease now q leaseId = .ok () (requeueLease now q leaseId) := by
  unfold Timed.requeueLease InMemoryQueue.requeueLease
  cases found : q.leases.get? leaseId with
  | none => rfl
  | some held => exact timed_retryOrPark_fits (fits held found) _

theorem timed_requeueLease_panics {held : TaskLease} (found : q.leases.get? leaseId = some held)
    (outside : held.task.retryFits now = false) :
    ∃ panic, Timed.requeueLease now q leaseId = .error panic
      { q with
        leases := q.leases.erase leaseId
        stats := { q.stats with expiredTotal := q.stats.expiredTotal + 1 } } := by
  unfold Timed.requeueLease
  rw [found]
  exact timed_retryOrPark_panics outside _

/-- A round of the sweep takes away its own lease and no other. -/
theorem requeueLease_get? (now : DateTime) (q : InMemoryQueue) (leaseId other : LeaseId) :
    (requeueLease now q leaseId).leases.get? other = if other = leaseId then none else q.leases.get? other := by
  unfold requeueLease
  cases found : q.leases.get? leaseId with
  | none =>
    simp only
    split
    · rename_i same
      rw [same, found]
    · rfl
  | some lease =>
    rw [retryOrPark_leases]
    exact Dict.get?_erase

theorem timed_sweep_fits {expired : List LeaseId}
    (fits : ∀ leaseId ∈ expired, ∀ held, q.leases.get? leaseId = some held → held.task.retryFits now = true) :
    Timed.sweep now expired q = .ok () (expired.foldl (requeueLease now) q) := by
  induction expired generalizing q with
  | nil => rfl
  | cons leaseId rest ih =>
    rw [Timed.sweep, timed_requeueLease_fits (fits leaseId List.mem_cons_self)]
    refine ih ?_
    intro other member held found
    rw [requeueLease_get?] at found
    split at found
    · cases found
    · exact fits other (List.mem_cons_of_mem _ member) held found

/-- What the sweep collects is filed under its own identifier. -/
theorem expired_found (live : q.LeasesLive) {lease : TaskLease} (member : lease ∈ q.leases.values) :
    q.leases.get? lease.leaseId = some lease := by
  obtain ⟨key, present⟩ := Dict.mem_values.mp member
  have named : lease.leaseId = key := (live _ present).1
  rw [named]
  exact Dict.get?_eq_some.mpr present

theorem timed_requeueExpired_fits (live : q.LeasesLive)
    (fits : ∀ lease ∈ q.leases.values, lease.isExpired now = true → lease.task.retryFits now = true) :
    Timed.requeueExpired q now = .ok (q.requeueExpired now).1 (q.requeueExpired now).2 := by
  unfold Timed.requeueExpired InMemoryQueue.requeueExpired
  simp only
  rw [timed_sweep_fits]
  intro leaseId member held found
  obtain ⟨lease, collected, rfl⟩ := List.mem_map.mp member
  obtain ⟨present, expired⟩ := List.mem_filter.mp collected
  obtain rfl := Option.some.inj ((expired_found live present).symm.trans found)
  exact fits lease present expired

/-- An answer is the one that `acknowledge` gives. -/
theorem timed_acknowledge_answer {answer : Except SwarmError Unit}
    (answered : (Timed.acknowledge q leaseId now).answer = some answer) : (q.acknowledge leaseId now).1 = answer := by
  by_cases fits : ∀ held, q.leases.get? leaseId = some held → held.isExpired now = true →
      held.task.retryFits now = true
  · rw [timed_acknowledge_fits fits] at answered
    exact Option.some.inj answered
  · push Not at fits
    obtain ⟨held, found, expired, outside⟩ := fits
    obtain ⟨panic, run⟩ := timed_acknowledge_panics found expired (by simpa using outside)
    rw [run] at answered
    cases answered

theorem timed_reject_answer (live : q.LeasesLive) {reason : String} {answer : Except SwarmError Unit}
    (answered : (Timed.reject q leaseId reason now).answer = some answer) :
    (q.reject leaseId reason now).1 = answer := by
  by_cases fits : ∀ held, q.leases.get? leaseId = some held → held.task.retryFits now = true
  · rw [timed_reject_fits fits] at answered
    exact Option.some.inj answered
  · push Not at fits
    obtain ⟨held, found, outside⟩ := fits
    obtain ⟨panic, run⟩ := timed_reject_panics live found (by simpa using outside) reason
    rw [run] at answered
    cases answered

theorem timed_dequeueFrom_answer {worker : String} {queues : List String} {capabilities : List Capability}
    {answer : Option TaskLease}
    (answered : (Timed.dequeueFrom overflow q worker queues capabilities now leaseId).answer = some answer) :
    (q.dequeueFrom worker queues capabilities now leaseId).1 = answer := by
  by_cases fits : ∀ task rest, q.pick now queues capabilities = some (task, rest) → task.leaseFits overflow now = true
  · rw [timed_dequeueFrom_fits fits] at answered
    exact Option.some.inj answered
  · push Not at fits
    obtain ⟨task, rest, picked, outside⟩ := fits
    obtain ⟨panic, run⟩ := timed_dequeueFrom_panics picked (by simpa using outside) worker leaseId
    rw [run] at answered
    cases answered

end

end InMemoryQueue

end Swarm
