import Swarm.Domain.Task

namespace Swarm.RetryPolicy

/-- Operations on `u64` that fail where the debug build would panic. -/
def checkedAdd (a b : Nat) : Option Nat := if a + b < 2 ^ 64 then some (a + b) else none

def checkedSub (a b : Nat) : Option Nat := if b ≤ a then some (a - b) else none

def checkedDiv (a b : Nat) : Option Nat := if b = 0 then none else some (a / b)

def checkedRem (a b : Nat) : Option Nat := if b = 0 then none else some (a % b)

def checkedShl (a bits : Nat) : Option Nat := if bits < 64 then some (a * 2 ^ bits % 2 ^ 64) else none

/-- `backoff_ms` with every operation checked that the source leaves to the default arithmetic. -/
def checkedBackoffMs (policy : RetryPolicy) (attempt nonce : Nat) : Option Nat :=
  if policy.backoffBaseMs = 0 then some 0
  else do
    let shift := if attempt > 20 then 20 else attempt - 1
    let factor ← checkedShl 1 shift
    let raw := saturatingMul policy.backoffBaseMs factor
    let capped := if raw > policy.backoffMaxMs then policy.backoffMaxMs else raw
    if !policy.jitter || capped = 0 then some capped
    else
      let half ← checkedDiv capped 2
      let span ← checkedSub capped half
      let width ← checkedAdd span 1
      let offset ← checkedRem nonce width
      checkedAdd half offset

/-- The backoff before jitter, in unbounded integers. -/
def exactBackoffMs (policy : RetryPolicy) (attempt : Nat) : Nat :=
  min (policy.backoffBaseMs * 2 ^ min (max attempt 1 - 1) 20) policy.backoffMaxMs

variable {policy : RetryPolicy}

theorem shift_eq (attempt : Nat) : (if attempt > 20 then 20 else attempt - 1) = min (max attempt 1 - 1) 20 := by
  split <;> omega

/-- The product saturates above every ceiling. -/
theorem capped_eq (bounded : policy.backoffMaxMs < 2 ^ 64) (factor : Nat) :
    (if saturatingMul policy.backoffBaseMs factor > policy.backoffMaxMs then policy.backoffMaxMs
      else saturatingMul policy.backoffBaseMs factor) = min (policy.backoffBaseMs * factor) policy.backoffMaxMs := by
  unfold saturatingMul
  generalize policy.backoffBaseMs * factor = product
  split <;> omega

/-- The backoff is the exact one, or is drawn from its upper half. -/
theorem backoffMs_eq (bounded : policy.backoffMaxMs < 2 ^ 64) (attempt nonce : Nat) : policy.backoffMs attempt nonce =
    if policy.jitter = true then
      policy.exactBackoffMs attempt / 2 +
        nonce % (policy.exactBackoffMs attempt - policy.exactBackoffMs attempt / 2 + 1)
    else policy.exactBackoffMs attempt := by
  unfold backoffMs
  by_cases none : policy.backoffBaseMs = 0
  · have zero : policy.exactBackoffMs attempt = 0 := by rw [exactBackoffMs, none, Nat.zero_mul, Nat.zero_min]
    rw [if_pos none, zero]
    split
    · rw [Nat.zero_div, Nat.sub_zero, Nat.zero_add, Nat.zero_add, Nat.mod_one]
    · rfl
  · have same := capped_eq bounded (2 ^ min (max attempt 1 - 1) 20)
    simp only [none, if_false, shift_eq, same]
    change (if _ then policy.exactBackoffMs attempt else _) = _
    cases jitter : policy.jitter with
    | false => simp only [Bool.not_false, Bool.true_or, if_true, Bool.false_eq_true, if_false]
    | true =>
      simp only [Bool.not_true, Bool.false_or, decide_eq_true_eq, if_true]
      split
      · rename_i zero
        change policy.exactBackoffMs attempt = 0 at zero
        rw [zero, Nat.zero_div, Nat.sub_zero, Nat.zero_add, Nat.zero_add, Nat.mod_one]
      · rfl

/-- No operation of `backoff_ms` leaves the `u64`, and nothing is divided by zero. -/
theorem checkedBackoffMs_eq (bounded : policy.backoffMaxMs < 2 ^ 64) (attempt nonce : Nat) :
    policy.checkedBackoffMs attempt nonce = some (policy.backoffMs attempt nonce) := by
  unfold checkedBackoffMs backoffMs
  split
  · rfl
  · have small : (if attempt > 20 then 20 else attempt - 1) ≤ 20 := by
      split <;> omega
    simp only
    generalize (if attempt > 20 then 20 else attempt - 1) = shift at small
    have power : 2 ^ shift < 2 ^ 64 := Nat.pow_lt_pow_right (by decide) (by omega)
    have factor : checkedShl 1 shift = some (2 ^ shift) := by
      rw [checkedShl, if_pos (by omega), Nat.one_mul, Nat.mod_eq_of_lt power]
    simp only [factor, Option.bind_eq_bind, Option.bind_some, capped_eq bounded]
    generalize top : min (policy.backoffBaseMs * 2 ^ shift) policy.backoffMaxMs = capped
    have fits : capped < 2 ^ 64 := by omega
    split
    · rfl
    · have half : checkedDiv capped 2 = some (capped / 2) := if_neg (by decide)
      have span : checkedSub capped (capped / 2) = some (capped - capped / 2) := if_pos (by omega)
      have width : checkedAdd (capped - capped / 2) 1 = some (capped - capped / 2 + 1) := if_pos (by omega)
      have offset : checkedRem nonce (capped - capped / 2 + 1) = some (nonce % (capped - capped / 2 + 1)) :=
        if_neg (by omega)
      have below : nonce % (capped - capped / 2 + 1) < capped - capped / 2 + 1 := Nat.mod_lt _ (Nat.succ_pos _)
      simp only [half, span, width, offset, Option.bind_some]
      exact if_pos (by omega)

/-- The backoff never shrinks from one attempt to a later one. -/
theorem exactBackoffMs_mono {earlier later : Nat} (order : earlier ≤ later) :
    policy.exactBackoffMs earlier ≤ policy.exactBackoffMs later := by
  have shifts : min (max earlier 1 - 1) 20 ≤ min (max later 1 - 1) 20 := by omega
  have factors : 2 ^ min (max earlier 1 - 1) 20 ≤ 2 ^ min (max later 1 - 1) 20 :=
    Nat.pow_le_pow_right (by decide) shifts
  have products := Nat.mul_le_mul_left policy.backoffBaseMs factors
  unfold exactBackoffMs
  omega

/-- The arithmetic of `backoff_ms` is exact for every ceiling that is a `u64`. -/
theorem backoffMs_exact (policy : RetryPolicy) (bounded : policy.backoffMaxMs < 2 ^ 64) :
    (∀ attempt nonce, policy.checkedBackoffMs attempt nonce = some (policy.backoffMs attempt nonce)) ∧
    (policy.jitter = false →
      (∀ attempt nonce, policy.backoffMs attempt nonce = policy.exactBackoffMs attempt) ∧
      ∀ earlier later nonce nonce', earlier ≤ later →
        policy.backoffMs earlier nonce ≤ policy.backoffMs later nonce') ∧
    (policy.jitter = true → ∀ attempt wait,
      (∃ nonce < 2 ^ 64, policy.backoffMs attempt nonce = wait) ↔
        policy.exactBackoffMs attempt / 2 ≤ wait ∧ wait ≤ policy.exactBackoffMs attempt) := by
  refine ⟨checkedBackoffMs_eq bounded, ?_, ?_⟩
  · intro plain
    have exact' : ∀ attempt nonce, policy.backoffMs attempt nonce = policy.exactBackoffMs attempt := by
      intro attempt nonce
      rw [backoffMs_eq bounded, plain, if_neg Bool.false_ne_true]
    refine ⟨exact', ?_⟩
    intro earlier later nonce nonce' order
    rw [exact', exact']
    exact exactBackoffMs_mono order
  · intro jitter attempt wait
    have below : policy.exactBackoffMs attempt ≤ policy.backoffMaxMs := Nat.min_le_right _ _
    simp only [backoffMs_eq bounded, jitter, if_true]
    generalize policy.exactBackoffMs attempt = capped at below ⊢
    constructor
    · rintro ⟨nonce, _, rfl⟩
      have inside : nonce % (capped - capped / 2 + 1) < capped - capped / 2 + 1 := Nat.mod_lt _ (Nat.succ_pos _)
      omega
    · rintro ⟨lower, upper⟩
      refine ⟨wait - capped / 2, by omega, ?_⟩
      rw [Nat.mod_eq_of_lt (by omega)]
      omega

/-- The largest policy there is, at its largest attempt: the wait may be any from half the ceiling on. -/
theorem backoffMs_exact_largest :
    checkedBackoffMs ⟨3, 2 ^ 64 - 1, 2 ^ 64 - 1, true⟩ (2 ^ 32 - 1) 0 = some (2 ^ 63 - 1) ∧
    ∃ nonce < 2 ^ 64, backoffMs ⟨3, 2 ^ 64 - 1, 2 ^ 64 - 1, true⟩ (2 ^ 32 - 1) nonce = 2 ^ 64 - 1 := by
  obtain ⟨checked, _, reached⟩ := backoffMs_exact ⟨3, 2 ^ 64 - 1, 2 ^ 64 - 1, true⟩ (by decide)
  have ceiling : exactBackoffMs ⟨3, 2 ^ 64 - 1, 2 ^ 64 - 1, true⟩ (2 ^ 32 - 1) = 2 ^ 64 - 1 := by decide +kernel
  refine ⟨?_, (reached rfl (2 ^ 32 - 1) (2 ^ 64 - 1)).mpr ?_⟩
  · rw [checked]
    decide +kernel
  · rw [ceiling]
    decide

end Swarm.RetryPolicy
