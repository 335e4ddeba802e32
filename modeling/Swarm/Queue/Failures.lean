import Swarm.Queue.Promises

namespace Swarm

namespace InMemoryQueue

variable {q : InMemoryQueue}

/-- A release fails only where there is no lease. -/
theorem release_error {leaseId : LeaseId} {now : DateTime} {e : SwarmError}
    (failed : (q.release leaseId now).1 = .error e) : (q.release leaseId now).2 = q := by
  unfold release takeLease at failed ⊢
  cases found : q.leases.get? leaseId with
  | none => rfl
  | some held =>
    rw [found] at failed
    cases failed

theorem reject_error (live : q.LeasesLive) {leaseId : LeaseId} {reason : String} {now : DateTime} {e : SwarmError}
    (failed : (q.reject leaseId reason now).1 = .error e) : (q.reject leaseId reason now).2 = q := by
  rcases reject_cases live leaseId reason now with ⟨_, run⟩ | ⟨_, _, run⟩
  · rw [run]
  · rw [run] at failed
    cases failed

/-- A fresh lease that still runs is to be extended by more than an `i64` holds. -/
def Oversized (q : InMemoryQueue) (leaseId : LeaseId) (millis : Nat) (now : DateTime) : Prop :=
  2 ^ 63 ≤ millis ∧ ∃ held, q.leases.get? leaseId = some held ∧ held.isExpired now = false ∧ held.state = .held

/-- A failed extension changes nothing, unless it is too long for a fresh lease: the state of
that lease has moved by then. -/
theorem extendLease_error (live : q.LeasesLive) (leaseId : LeaseId) (millis : Nat) (now : DateTime) :
    (∀ e, (q.extendLease leaseId millis now).1 = .error e → (q.extendLease leaseId millis now).2 = q) ↔
      ¬ q.Oversized leaseId millis now := by
  cases found : q.leases.get? leaseId with
  | none =>
    have same : (q.extendLease leaseId millis now).2 = q := by
      simp only [extendLease, found]
    refine ⟨?_, fun _ _ _ => same⟩
    rintro _ ⟨_, held, here, _⟩
    rw [found] at here
    cases here
  | some held =>
    cases running : held.isExpired now with
    | true =>
      have same : (q.extendLease leaseId millis now).2 = q := by
        simp only [extendLease, found, running, if_true]
      refine ⟨?_, fun _ _ _ => same⟩
      rintro _ ⟨_, other, here, expiry, _⟩
      rw [found] at here
      cases here
      rw [running] at expiry
      cases expiry
    | false =>
      rcases extendLease_cases live found millis running with ⟨large, run⟩ | ⟨small, run⟩
      · rw [run]
        constructor
        · rintro unchanged ⟨_, other, here, _, fresh⟩
          rw [found] at here
          cases here
          have leases := congrArg (fun q => q.leases.get? leaseId) (unchanged _ rfl)
          simp only [Dict.get?_modify, if_true, found, Option.map_some, Option.some.injEq] at leases
          have moved := congrArg TaskLease.state leases
          rw [fresh] at moved
          cases moved
        · intro fits e _
          have extended : held.state = .extended := by
            have active := (live.of_get? found).2
            cases state : held.state with
            | held => exact absurd ⟨large, held, found, running, state⟩ fits
            | extended => rfl
            | _ => simp [state, LeaseState.isActive] at active
          have same : q.leases.modify leaseId (fun lease => { lease with state := .extended }) = q.leases := by
            refine Dict.modify_of_fixed ?_
            intro lease here
            rw [found] at here
            cases here
            rw [← extended]
          rw [same]
      · rw [run]
        refine ⟨?_, ?_⟩
        · rintro _ ⟨large, _⟩
          omega
        · intro _ e failed
          cases failed

end InMemoryQueue

namespace QueueLedger

variable {l : QueueLedger}

/-- What the settling calls leave behind when they fail. -/
theorem Reach.errors_change_nothing (reach : l.Reach) :
    (∀ leaseId now e, (l.queue.acknowledge leaseId now).1 = .error e →
      l.queue.leases.get? leaseId = none ∧ (l.queue.acknowledge leaseId now).2 = l.queue ∨
      ∃ held, l.queue.leases.get? leaseId = some held ∧ held.isExpired now = true ∧
        (l.queue.acknowledge leaseId now).2 = InMemoryQueue.retryOrPark
          { l.queue with
            leases := l.queue.leases.erase leaseId
            stats := { l.queue.stats with expiredTotal := l.queue.stats.expiredTotal + 1 } }
          held.task "lease expired before acknowledgement" now) ∧
    (∀ leaseId reason now e, (l.queue.reject leaseId reason now).1 = .error e →
      (l.queue.reject leaseId reason now).2 = l.queue) ∧
    (∀ leaseId now e, (l.queue.release leaseId now).1 = .error e → (l.queue.release leaseId now).2 = l.queue) ∧
    ∀ leaseId millis now,
      (∀ e, (l.queue.extendLease leaseId millis now).1 = .error e →
        (l.queue.extendLease leaseId millis now).2 = l.queue) ↔ ¬ l.queue.Oversized leaseId millis now := by
  have live := reach.sound.live
  refine ⟨?_, fun _ _ _ _ => InMemoryQueue.reject_error live, fun _ _ _ => InMemoryQueue.release_error,
    InMemoryQueue.extendLease_error live⟩
  intro leaseId now e failed
  rcases InMemoryQueue.acknowledge_cases live leaseId now with
    ⟨absent, run⟩ | ⟨held, _, found, expired, run⟩ | ⟨_, _, _, run⟩
  · exact Or.inl ⟨absent, by rw [run]⟩
  · exact Or.inr ⟨held, found, expired, by rw [run]⟩
  · rw [run] at failed
    cases failed

theorem shortened_reach : shortened.Reach := by
  have first : (new.step (.enqueue minuteEntry)).Reach := .next .start trivial
  have free : (⟨3⟩ : LeaseId) ∉ (new.step (.enqueue minuteEntry)).queue.leases.keys := by decide +kernel
  have leased : leasedOnce.Reach := first.next (show QueueOp.Fresh _ (.dequeueFrom "w" [] [] 0 ⟨3⟩) from free)
  exact leased.next (show QueueOp.Fresh _ (.extendLease ⟨3⟩ 1 0) from trivial)

/-- A lease that has been extended stays as it is when a further extension is too long. -/
theorem errors_change_nothing_extended :
    (shortened.queue.extendLease ⟨3⟩ (2 ^ 63) 0).1 = .error (.queue "lease extension does not fit in i64 ms") ∧
    (shortened.queue.extendLease ⟨3⟩ (2 ^ 63) 0).2 = shortened.queue := by
  have fits : ¬ shortened.queue.Oversized ⟨3⟩ (2 ^ 63) 0 := by
    rintro ⟨_, held, found, _, fresh⟩
    have extended : (shortened.queue.leases.get? ⟨3⟩).map TaskLease.state = some .extended := by decide +kernel
    rw [found, Option.map_some, fresh] at extended
    cases extended
  have failed : (shortened.queue.extendLease ⟨3⟩ (2 ^ 63) 0).1 =
      .error (.queue "lease extension does not fit in i64 ms") := by decide +kernel
  exact ⟨failed, (shortened_reach.errors_change_nothing.2.2.2 ⟨3⟩ (2 ^ 63) 0).mpr fits _ failed⟩

/-- An extension by `2 ^ 63` milliseconds fails and yet moves the state of the lease. -/
theorem extension_half_done :
    (leasedOnce.queue.extendLease ⟨3⟩ (2 ^ 63) 0).1.isOk = false ∧
    (leasedOnce.queue.leases.get? ⟨3⟩).map TaskLease.state = some .held ∧
    ((leasedOnce.queue.extendLease ⟨3⟩ (2 ^ 63) 0).2.leases.get? ⟨3⟩).map TaskLease.state = some .extended := by
  decide +kernel

end QueueLedger

end Swarm
