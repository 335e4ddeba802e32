import Swarm.Domain.Basic

namespace Swarm

/-- Where a call panics. It neither answers nor fails, and what it had done to the state by then stays done. -/
inductive Panic where
  | dateTimeOverflowed
  | timeDeltaOutOfBounds
  | addWithOverflow
  | indicesExhausted
  deriving DecidableEq, Repr

/-- How a call can end without its answer. One that is endless does not end at all. -/
inductive Halt where
  | failed (e : SwarmError)
  | panicked (panic : Panic)
  | endless
  deriving DecidableEq, Repr

/-- What a build does with a sum beyond its machine integer: a release build wraps around, a debug build panics. -/
inductive Overflow where
  | wraps
  | panics
  deriving DecidableEq, Repr

/-- `+` on `i32`. -/
def addI32 (overflow : Overflow) (left right : Int) : Except Panic Int :=
  match overflow with
  | .wraps => .ok (Int.bmod (left + right) (2 ^ 32))
  | .panics =>
    if Int.bmod (left + right) (2 ^ 32) = left + right then .ok (left + right) else .error .addWithOverflow

/-- `+` on `u32`. -/
def addU32 (overflow : Overflow) (left right : Nat) : Except Panic Nat :=
  match overflow with
  | .wraps => .ok ((left + right) % 2 ^ 32)
  | .panics => if left + right < 2 ^ 32 then .ok (left + right) else .error .addWithOverflow

/-- The sum does not panic. -/
def fitsU32 (overflow : Overflow) (left right : Nat) : Bool := overflow == .wraps || left + right < 2 ^ 32

theorem addU32_ok {overflow : Overflow} {left right : Nat} (fits : fitsU32 overflow left right = true) :
    addU32 overflow left right = .ok ((left + right) % 2 ^ 32) := by
  cases overflow with
  | wraps => rfl
  | panics =>
    have small : left + right < 2 ^ 32 := of_decide_eq_true fits
    rw [addU32, if_pos small, Nat.mod_eq_of_lt small]

theorem addU32_error {overflow : Overflow} {left right : Nat} (outside : fitsU32 overflow left right = false) :
    addU32 overflow left right = .error .addWithOverflow := by
  cases overflow with
  | wraps => cases outside
  | panics => exact if_neg (of_decide_eq_false outside)

end Swarm
