import Swarm.Domain.Calendar
import Swarm.Memory.System
import Swarm.Memory.Trail

/-!
The writes of the store with the lifetimes that they reckon: one that ends past the calendar
panics. The record is made before anything is stored, so such a call leaves the store as it was.
-/

namespace Swarm

/-- The lifetime has an end in the calendar, if it has one at all. -/
def MemoryWrite.lifetimeFits {V : Type} (write : MemoryWrite V) (now : DateTime) : Bool :=
  write.ttl.all (fun ttl : Nat => decide ((2 ^ 63 - 1) * 1000000 < ttl) || inCalendar (now + ttl))

namespace InMemoryStore
variable {V : Type}

namespace Timed

/-- A lifetime beyond chrono's longest duration is dropped; one past the calendar is not. -/
def expiry (write : MemoryWrite V) (now : DateTime) : Except Panic (Option DateTime) :=
  match write.ttl with
  | none => .ok none
  | some ttl => if ttl ≤ (2 ^ 63 - 1) * 1000000 then (addDuration now ttl).map some else .ok none

def fresh (write : MemoryWrite V) (now : DateTime) (id : MemoryId) : Except Panic (MemoryRecord V) :=
  (expiry write now).map (fun expiresAt =>
    { id := id
      jobId := write.jobId
      agentId := write.agentId
      nspace := write.nspace
      key := write.key
      value := write.value
      version := 1
      createdAt := now
      updatedAt := now
      expiresAt := expiresAt })

def bumped (previous : MemoryRecord V) (write : MemoryWrite V) (now : DateTime) : Except Panic (MemoryRecord V) :=
  (expiry write now).map (fun expiresAt =>
    { id := previous.id
      jobId := write.jobId.or previous.jobId
      agentId := write.agentId.or previous.agentId
      nspace := previous.nspace
      key := previous.key
      value := write.value
      version := previous.version + 1
      createdAt := previous.createdAt
      updatedAt := now
      expiresAt := expiresAt.or previous.expiresAt })

def put (s : InMemoryStore V) (write : MemoryWrite V) (now : DateTime) (id : MemoryId) :
    Except Panic (MemoryRecord V × InMemoryStore V) :=
  let store record operation :=
    (record, { s with records := s.records.insert write.target record }.note record operation write.actor)
  match s.records.get? write.target with
  | some occupied =>
    (if occupied.isExpired now then fresh write now id else bumped occupied write now).map (fun record =>
      store record (if record.version = 1 then MemoryOperation.create else MemoryOperation.put))
  | none => (fresh write now id).map (fun record => store record MemoryOperation.create)

def compareAndSwap (s : InMemoryStore V) (write : MemoryWrite V) (expected : Nat) (now : DateTime) (id : MemoryId) :
    Except Panic (Except SwarmError (MemoryRecord V) × InMemoryStore V) :=
  let store operation record :=
    (.ok record, { s with records := s.records.insert write.target record }.note record operation write.actor)
  match s.records.get? write.target with
  | some occupied =>
    let current := if occupied.isExpired now then versionAbsent else occupied.version
    if current ≠ expected then .ok (.error (.versionConflict write.nspace write.key expected current), s)
    else
      (if current = versionAbsent then fresh write now id else bumped occupied write now).map
        (store MemoryOperation.compareAndSwap)
  | none =>
    if expected ≠ versionAbsent then .ok (.error (.versionConflict write.nspace write.key expected versionAbsent), s)
    else (fresh write now id).map (store MemoryOperation.create)

def claim (s : InMemoryStore V) (write : MemoryWrite V) (now : DateTime) (id : MemoryId) :
    Except Panic (Except SwarmError (Option (MemoryRecord V)) × InMemoryStore V) :=
  (compareAndSwap s write versionAbsent now id).map (fun ended =>
    match ended with
    | (.ok record, s) => (.ok (some record), s)
    | (.error (.versionConflict ..), s) => (.ok none, s)
    | (.error other, s) => (.error other, s))

/-- A call that panics leaves the store as it was. -/
def perform (s : InMemoryStore V) (call : MemoryCall V × DateTime) : InMemoryStore V :=
  match call.1 with
  | .put write id => ((put s write call.2 id).map Prod.snd).toOption.getD s
  | .compareAndSwap write expected id => ((compareAndSwap s write expected call.2 id).map Prod.snd).toOption.getD s
  | .claim write id => ((claim s write call.2 id).map Prod.snd).toOption.getD s
  | _ => s.perform call

/-- A new store after some calls. -/
def performed (calls : List (MemoryCall V × DateTime)) : InMemoryStore V := calls.foldl perform .new

end Timed

section
variable {s : InMemoryStore V} {write : MemoryWrite V} {now : DateTime} {id : MemoryId}

theorem timed_expiry_fits (fits : write.lifetimeFits now = true) :
    Timed.expiry write now = .ok (expiry write now) := by
  unfold Timed.expiry expiry
  cases lifetime : write.ttl with
  | none => rfl
  | some ttl =>
    simp only [MemoryWrite.lifetimeFits, lifetime, Option.all_some, Bool.or_eq_true, decide_eq_true_eq] at fits
    by_cases short : ttl ≤ (2 ^ 63 - 1) * 1000000
    · have inside := fits.resolve_left (Nat.not_lt.mpr short)
      simp only [if_pos short, addDuration, if_pos inside, Except.map]
    · simp only [if_neg short]

theorem timed_expiry_panics (outside : write.lifetimeFits now = false) :
    Timed.expiry write now = .error .dateTimeOverflowed := by
  unfold Timed.expiry
  cases lifetime : write.ttl with
  | none => simp [MemoryWrite.lifetimeFits, lifetime] at outside
  | some ttl =>
    simp only [MemoryWrite.lifetimeFits, lifetime, Option.all_some, Bool.or_eq_false_iff, decide_eq_false_iff_not,
      Nat.not_lt] at outside
    simp only [if_pos outside.1, addDuration, outside.2, Bool.false_eq_true, if_false, Except.map]

theorem timed_fresh_fits (fits : write.lifetimeFits now = true) (id : MemoryId) :
    Timed.fresh write now id = .ok (fresh write now id) := by
  rw [Timed.fresh, timed_expiry_fits fits]
  rfl

theorem timed_bumped_fits (fits : write.lifetimeFits now = true) (previous : MemoryRecord V) :
    Timed.bumped previous write now = .ok (bumped previous write now) := by
  rw [Timed.bumped, timed_expiry_fits fits]
  rfl

theorem timed_fresh_panics (outside : write.lifetimeFits now = false) (id : MemoryId) :
    Timed.fresh write now id = .error .dateTimeOverflowed := by
  rw [Timed.fresh, timed_expiry_panics outside]
  rfl

theorem timed_bumped_panics (outside : write.lifetimeFits now = false) (previous : MemoryRecord V) :
    Timed.bumped previous write now = .error .dateTimeOverflowed := by
  rw [Timed.bumped, timed_expiry_panics outside]
  rfl

theorem timed_put_fits (fits : write.lifetimeFits now = true) :
    Timed.put s write now id = .ok (s.put write now id) := by
  unfold Timed.put put
  cases s.records.get? write.target with
  | none => simp only [timed_fresh_fits fits, Except.map]
  | some occupied =>
    cases expired : occupied.isExpired now <;>
      simp only [expired, timed_fresh_fits fits, timed_bumped_fits fits, Except.map, if_true, if_false,
        Bool.false_eq_true]

theorem timed_put_panics (outside : write.lifetimeFits now = false) :
    Timed.put s write now id = .error .dateTimeOverflowed := by
  unfold Timed.put
  cases s.records.get? write.target with
  | none => simp only [timed_fresh_panics outside, Except.map]
  | some occupied => simp only [timed_fresh_panics outside, timed_bumped_panics outside, ite_self, Except.map]

theorem timed_compareAndSwap_fits (fits : write.lifetimeFits now = true) (expected : Nat) :
    Timed.compareAndSwap s write expected now id = .ok (s.compareAndSwap write expected now id) := by
  unfold Timed.compareAndSwap compareAndSwap
  cases s.records.get? write.target with
  | none =>
    simp only [timed_fresh_fits fits]
    split <;> rfl
  | some occupied =>
    simp only [timed_fresh_fits fits, timed_bumped_fits fits]
    by_cases different : (if occupied.isExpired now then versionAbsent else occupied.version) ≠ expected
    · simp only [if_pos different]
    · simp only [if_neg different, ← apply_ite Except.ok, Except.map]

/-- A swap against another version than the visible one reckons nothing. -/
theorem timed_compareAndSwap_conflict {expected : Nat} (different : s.visibleVersion write.target now ≠ expected) :
    Timed.compareAndSwap s write expected now id = .ok (.error (.versionConflict write.nspace write.key expected
      (s.visibleVersion write.target now)), s) := by
  unfold visibleVersion at different ⊢
  unfold Timed.compareAndSwap
  cases stored : s.records.get? write.target with
  | none =>
    rw [get_eq_none_of_absent stored] at different ⊢
    simp only [if_pos (Ne.symm different)]
  | some occupied =>
    cases expired : occupied.isExpired now with
    | true =>
      rw [get_eq_none_of_expired stored expired] at different ⊢
      simp only [expired, if_true, if_pos different]
    | false =>
      rw [get_eq_some.mpr ⟨stored, expired⟩] at different ⊢
      simp only [expired, Bool.false_eq_true, if_false, if_pos different]

theorem timed_compareAndSwap_panics (outside : write.lifetimeFits now = false) :
    Timed.compareAndSwap s write (s.visibleVersion write.target now) now id = .error .dateTimeOverflowed := by
  unfold visibleVersion Timed.compareAndSwap
  cases stored : s.records.get? write.target with
  | none =>
    rw [get_eq_none_of_absent stored]
    simp only [timed_fresh_panics outside, Except.map, ne_eq, not_true_eq_false, if_false]
  | some occupied =>
    cases expired : occupied.isExpired now with
    | true =>
      rw [get_eq_none_of_expired stored expired]
      simp only [timed_fresh_panics outside, expired, Except.map, ne_eq, not_true_eq_false, if_false, if_true]
    | false =>
      rw [get_eq_some.mpr ⟨stored, expired⟩]
      simp only [timed_fresh_panics outside, timed_bumped_panics outside, expired, Except.map, ne_eq,
        not_true_eq_false, if_false, Bool.false_eq_true, ite_self]

theorem timed_claim_fits (fits : write.lifetimeFits now = true) :
    Timed.claim s write now id = .ok (s.claim write now id) := by
  rw [Timed.claim, timed_compareAndSwap_fits fits]
  rfl

theorem timed_claim_conflict (taken : s.visibleVersion write.target now ≠ versionAbsent) :
    Timed.claim s write now id = .ok (.ok none, s) := by
  rw [Timed.claim, timed_compareAndSwap_conflict taken]
  rfl

theorem timed_claim_panics (outside : write.lifetimeFits now = false)
    (absent : s.visibleVersion write.target now = versionAbsent) :
    Timed.claim s write now id = .error .dateTimeOverflowed := by
  rw [Timed.claim, ← absent, timed_compareAndSwap_panics outside]
  rfl

/-- A call is the one inside the calendar, or nothing has happened. -/
theorem timed_perform (s : InMemoryStore V) (call : MemoryCall V × DateTime) :
    Timed.perform s call = s.perform call ∨ Timed.perform s call = s := by
  obtain ⟨call, now⟩ := call
  cases call with
  | put write id =>
    cases fits : write.lifetimeFits now with
    | true =>
      refine Or.inl ?_
      simp only [Timed.perform, timed_put_fits fits]
      rfl
    | false =>
      refine Or.inr ?_
      simp only [Timed.perform, timed_put_panics fits]
      rfl
  | compareAndSwap write expected id =>
    cases fits : write.lifetimeFits now with
    | true =>
      refine Or.inl ?_
      simp only [Timed.perform, timed_compareAndSwap_fits fits]
      rfl
    | false =>
      refine Or.inr ?_
      by_cases same : s.visibleVersion write.target now = expected
      · subst same
        simp only [Timed.perform, timed_compareAndSwap_panics fits]
        rfl
      · simp only [Timed.perform, timed_compareAndSwap_conflict same]
        rfl
  | claim write id =>
    cases fits : write.lifetimeFits now with
    | true =>
      refine Or.inl ?_
      simp only [Timed.perform, timed_claim_fits fits]
      rfl
    | false =>
      refine Or.inr ?_
      by_cases absent : s.visibleVersion write.target now = versionAbsent
      · simp only [Timed.perform, timed_claim_panics fits absent]
        rfl
      · simp only [Timed.perform, timed_claim_conflict absent]
        rfl
  | _ => exact Or.inl rfl

end

end InMemoryStore

end Swarm
