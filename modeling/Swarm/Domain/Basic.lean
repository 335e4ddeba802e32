import Mathlib.Algebra.Order.Field.Rat
import Mathlib.Data.List.Basic

namespace Swarm

structure JobId where
  uuid : Nat
  deriving DecidableEq, Repr

structure TaskId where
  uuid : Nat
  deriving DecidableEq, Repr

structure AgentId where
  uuid : Nat
  deriving DecidableEq, Repr

structure NodeId where
  uuid : Nat
  deriving DecidableEq, Repr

structure LeaseId where
  uuid : Nat
  deriving DecidableEq, Repr

structure MemoryId where
  uuid : Nat
  deriving DecidableEq, Repr

structure CorrelationId where
  uuid : Nat
  deriving DecidableEq, Repr

def hexDigit (n : Nat) : Char :=
  if n % 16 < 10 then Char.ofNat ('0'.toNat + n % 16) else Char.ofNat ('a'.toNat + (n % 16 - 10))

/-- `width` lowercase hexadecimal digits of `n`, high digit first. -/
def hexText (width n : Nat) : List Char :=
  (List.range width).map (fun i => hexDigit (n / 16 ^ (width - 1 - i)))

/-- The hyphenated form of a 128-bit identifier: groups of 8, 4, 4, 4 and 12 digits. -/
def displayUuid (uuid : Nat) : String :=
  String.ofList (hexText 8 (uuid / 16 ^ 24) ++ '-' :: hexText 4 (uuid / 16 ^ 20) ++
    '-' :: hexText 4 (uuid / 16 ^ 16) ++ '-' :: hexText 4 (uuid / 16 ^ 12) ++ '-' :: hexText 12 uuid)

def JobId.display (id : JobId) : String := displayUuid id.uuid
def TaskId.display (id : TaskId) : String := displayUuid id.uuid
def AgentId.display (id : AgentId) : String := displayUuid id.uuid
def LeaseId.display (id : LeaseId) : String := displayUuid id.uuid

/-- An instant, in nanoseconds since the Unix epoch. The type has no end: the calls that reckon
an instant past chrono's calendar are apart (`Domain.Calendar`). -/
abbrev DateTime := Int

/-- `chrono::Duration::milliseconds`. -/
def milliseconds (ms : Int) : Int := ms * 1000000

/-- `as i64` on a `u64`. -/
def asI64 (n : Nat) : Int := Int.bmod n (2 ^ 64)

/-- `Duration::num_milliseconds`, truncated towards zero. -/
def numMilliseconds (duration : Int) : Int := Int.tdiv duration 1000000

def numSeconds (duration : Int) : Int := Int.tdiv duration 1000000000

/-- `DateTime::timestamp_subsec_nanos`. -/
def subsecNanos (now : DateTime) : Nat := (now % 1000000000).toNat

/-- Decimal digits of `n`, padded with zeros to `width`. -/
def padded (width n : Nat) : String :=
  let digits := toString n
  String.ofList (List.replicate (width - digits.length) '0') ++ digits

/-- Year, month and day of a day counted from the Unix epoch (proleptic Gregorian). -/
def civilFromDays (days : Int) : Int × Nat × Nat :=
  let shifted := days + 719468
  let era := shifted / 146097
  let dayOfEra := shifted - era * 146097
  let yearOfEra := (dayOfEra - dayOfEra / 1460 + dayOfEra / 36524 - dayOfEra / 146096) / 365
  let dayOfYear := dayOfEra - (365 * yearOfEra + yearOfEra / 4 - yearOfEra / 100)
  let march := (5 * dayOfYear + 2) / 153
  let day := dayOfYear - (153 * march + 2) / 5 + 1
  let month := if march < 10 then march + 3 else march - 9
  (yearOfEra + era * 400 + (if month ≤ 2 then 1 else 0), month.toNat, day.toNat)

/-- The `Display` text of a `DateTime<Utc>`: the fraction shows as many
groups of three digits as it needs. -/
def displayDateTime (time : DateTime) : String :=
  let seconds := time / 1000000000
  let (year, month, day) := civilFromDays (seconds / 86400)
  let ofDay := (seconds % 86400).toNat
  let nanos := subsecNanos time
  let yearText :=
    if 0 ≤ year ∧ year ≤ 9999 then padded 4 year.toNat
    else if year < 0 then "-" ++ padded 4 year.natAbs else "+" ++ padded 4 year.toNat
  let fraction :=
    if nanos = 0 then ""
    else if nanos % 1000000 = 0 then "." ++ padded 3 (nanos / 1000000)
    else if nanos % 1000 = 0 then "." ++ padded 6 (nanos / 1000)
    else "." ++ padded 9 nanos
  yearText ++ "-" ++ padded 2 month ++ "-" ++ padded 2 day ++ " " ++ padded 2 (ofDay / 3600) ++ ":" ++
    padded 2 (ofDay / 60 % 60) ++ ":" ++ padded 2 (ofDay % 60) ++ fraction ++ " UTC"

inductive SwarmError where
  | invalidTransition (entity source target : String)
  | cyclicGraph (task : String)
  | unknownDependency (task dependency : String)
  | notFound (what id : String)
  | invalidId (value detail : String)
  | validation (detail : String)
  | queue (detail : String)
  | versionConflict (nspace key : String) (expected actual : Nat)
  | memory (detail : String)
  | provider (name detail : String)
  | rateLimited (name : String) (retryAfterMs : Nat)
  | circuitOpen (name : String)
  | budgetExceeded (detail : String)
  | quotaExceeded (detail : String)
  | timeout (millis : Nat)
  | cancelled (detail : String)
  | config (detail : String)
  | internal (detail : String)
  deriving DecidableEq, Repr

namespace SwarmError

def isRetryable : SwarmError → Bool
  | queue _ | memory _ | versionConflict .. | provider .. | rateLimited .. | circuitOpen _ | timeout _
  | internal _ => true
  | _ => false

def kind : SwarmError → String
  | invalidTransition .. => "invalid_transition"
  | cyclicGraph _ => "cyclic_graph"
  | unknownDependency .. => "unknown_dependency"
  | notFound .. => "not_found"
  | invalidId .. => "invalid_id"
  | validation _ => "validation"
  | queue _ => "queue"
  | versionConflict .. => "version_conflict"
  | memory _ => "memory"
  | provider .. => "provider"
  | rateLimited .. => "rate_limited"
  | circuitOpen _ => "circuit_open"
  | budgetExceeded _ => "budget_exceeded"
  | quotaExceeded _ => "quota_exceeded"
  | timeout _ => "timeout"
  | cancelled _ => "cancelled"
  | config _ => "config"
  | internal _ => "internal"

/-- The `Display` text. -/
def display : SwarmError → String
  | invalidTransition entity source target => s!"invalid {entity} transition: {source} -> {target}"
  | cyclicGraph task => s!"task graph is cyclic (cycle involves task {task})"
  | unknownDependency task dependency => s!"task {task} depends on unknown task {dependency}"
  | notFound what id => s!"unknown {what} `{id}`"
  | invalidId value detail => s!"invalid identifier `{value}`: {detail}"
  | validation detail => s!"validation failed: {detail}"
  | queue detail => s!"queue error: {detail}"
  | versionConflict nspace key expected actual =>
    s!"version conflict on {nspace}/{key}: expected {expected}, found {actual}"
  | memory detail => s!"memory error: {detail}"
  | provider name detail => s!"provider `{name}` failed: {detail}"
  | rateLimited name retryAfterMs => s!"provider `{name}` rate limited (retry after {retryAfterMs}ms)"
  | circuitOpen name => s!"circuit open for provider `{name}`"
  | budgetExceeded detail => s!"budget exceeded: {detail}"
  | quotaExceeded detail => s!"quota exceeded: {detail}"
  | timeout millis => s!"timed out after {millis}ms"
  | cancelled detail => s!"cancelled: {detail}"
  | config detail => s!"configuration error: {detail}"
  | internal detail => s!"internal error: {detail}"

end SwarmError

/-- A lifecycle with its legal edges. `debug` is the `Debug` name that errors show. -/
class StateMachine (S : Type) where
  entity : String
  allowed : S → List S
  debug : S → String

namespace StateMachine
variable {S : Type} [DecidableEq S] [StateMachine S]

/-- Take the edge from `current` to `target`, or fail if it does not exist. -/
def transition (current target : S) : Except SwarmError S :=
  if target ∈ allowed current then .ok target
  else .error (.invalidTransition (entity S) (debug current) (debug target))

theorem transition_ok {current target next : S} (run : transition current target = .ok next) :
    next = target ∧ target ∈ allowed current := by
  unfold transition at run
  split at run
  · cases run
    exact ⟨rfl, ‹_›⟩
  · cases run

theorem transition_of_mem {current target : S} (legal : target ∈ allowed current) :
    transition current target = .ok target := if_pos legal

end StateMachine

/-- An accepted state change, as the audit trail keeps it. -/
structure Transition (S : Type) where
  entity : String
  source : Option S
  target : S
  actor : String
  reason : Option String
  term : Option Nat
  correlationId : CorrelationId
  time : DateTime
  deriving DecidableEq, Repr

/-- Apply a transition, giving the new state and its audit record. -/
def applyTransition {S : Type} [DecidableEq S] [StateMachine S] (current target : S) (actor : String)
    (reason : Option String) (correlationId : CorrelationId) (now : DateTime) :
    Except SwarmError (S × Transition S) := do
  let next ← StateMachine.transition current target
  pure (next, ⟨StateMachine.entity S, some current, next, actor, reason, none, correlationId, now⟩)

theorem applyTransition_ok {S : Type} [DecidableEq S] [StateMachine S] {current target next : S}
    {actor : String} {reason : Option String} {correlationId : CorrelationId} {now : DateTime} {record : Transition S}
    (run : applyTransition current target actor reason correlationId now = .ok (next, record)) :
    next = target ∧ target ∈ StateMachine.allowed current ∧ record.source = some current ∧
      record.target = target := by
  unfold applyTransition at run
  cases moved : StateMachine.transition current target with
  | error e => rw [moved] at run; cases run
  | ok value =>
    rw [moved] at run
    obtain ⟨rfl, legal⟩ := StateMachine.transition_ok moved
    cases run
    exact ⟨rfl, legal, rfl, rfl⟩

end Swarm
