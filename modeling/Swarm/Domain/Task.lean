import Swarm.Domain.State
import Swarm.Lib.Utf8

namespace Swarm

inductive Capability where
  | planning | research | coding | review | verification | summarization | toolUse | dataAnalysis
  | securityReview | merging | general
  deriving DecidableEq, Repr

inductive TaskKind where
  | plan | subplan | work | map | reduce | answer | critique | verify | judge | vote | merge | summarize
  | supervise
  deriving DecidableEq, Repr

namespace TaskKind

def requiredCapabilities : TaskKind → List Capability
  | plan | subplan | supervise => [.planning]
  | work | map | answer => [.research]
  | reduce | merge => [.merging]
  | critique => [.review]
  | verify | vote => [.verification]
  | judge => [.review, .verification]
  | summarize => [.summarization]

def asStr : TaskKind → String
  | plan => "plan"
  | subplan => "subplan"
  | work => "work"
  | map => "map"
  | reduce => "reduce"
  | answer => "answer"
  | critique => "critique"
  | verify => "verify"
  | judge => "judge"
  | vote => "vote"
  | merge => "merge"
  | summarize => "summarize"
  | supervise => "supervise"

end TaskKind

/-- `max_attempts` is a `u32`, both backoffs are `u64`. -/
structure RetryPolicy where
  maxAttempts : Nat
  backoffBaseMs : Nat
  backoffMaxMs : Nat
  jitter : Bool
  deriving DecidableEq, Repr

namespace RetryPolicy

def default : RetryPolicy := ⟨3, 500, 60000, true⟩

def allowsRetry (policy : RetryPolicy) (attemptsUsed : Nat) : Bool := attemptsUsed < policy.maxAttempts

def saturatingMul (a b : Nat) : Nat := min (a * b) (2 ^ 64 - 1)

/-- Backoff before attempt number `attempt`, capped and optionally jittered by `nonce`. -/
def backoffMs (policy : RetryPolicy) (attempt nonce : Nat) : Nat :=
  if policy.backoffBaseMs = 0 then 0
  else
    let shift := if attempt > 20 then 20 else attempt - 1
    let raw := saturatingMul policy.backoffBaseMs (2 ^ shift)
    let capped := if raw > policy.backoffMaxMs then policy.backoffMaxMs else raw
    if !policy.jitter || capped = 0 then capped
    else
      let half := capped / 2
      half + nonce % (capped - half + 1)

end RetryPolicy

inductive ValidationRule where
  | nonEmpty
  | minWords (minimum : Nat)
  | mustMention (needle : String)
  | requiredJsonKeys (keys : List String)
  deriving DecidableEq, Repr

/-- One node of a job's task graph. -/
structure TaskNode where
  id : TaskId
  jobId : JobId
  title : String
  description : String
  kind : TaskKind
  dependencies : List TaskId
  requiredCapabilities : List Capability
  estimatedComplexity : Nat
  estimatedTokens : Option Nat
  retryPolicy : RetryPolicy
  timeoutSeconds : Nat
  state : TaskState
  attempt : Nat
  stage : Nat
  idempotencyKey : String
  validation : List ValidationRule
  deriving DecidableEq, Repr

def isAsciiAlphanumeric (ch : Char) : Bool :=
  ('a' ≤ ch && ch ≤ 'z') || ('A' ≤ ch && ch ≤ 'Z') || ('0' ≤ ch && ch ≤ '9')

def toAsciiLowercase (ch : Char) : Char :=
  if 'A' ≤ ch && ch ≤ 'Z' then Char.ofNat (ch.toNat + 32) else ch

/-- The loop of `slug`: `out` is what has been written, `lastDash` whether it ends in a dash. -/
def slugLoop : List Char → List Char → Bool → List Char
  | [], out, _ => out
  | ch :: rest, out, lastDash =>
    let (next, dash) :=
      if isAsciiAlphanumeric ch then (out ++ [toAsciiLowercase ch], false)
      else if !lastDash && !out.isEmpty then (out ++ ['-'], true)
      else (out, lastDash)
    if 48 ≤ next.length then next else slugLoop rest next dash

def trimDashes (out : List Char) : List Char := (out.reverse.dropWhile (· = '-')).reverse

/-- Lowercase, hyphenated, ASCII-only form of a title, at most 48 characters long. -/
def slug (input : String) : String := String.ofList (trimDashes (slugLoop input.toList [] false))

def fnvOffset : UInt64 := 0xcbf29ce484222325

def fnv1a (hash : UInt64) (bytes : List UInt8) : UInt64 :=
  bytes.foldl (fun hash byte => (hash ^^^ byte.toUInt64) * 0x00000100000001b3) hash

def stableHash (bytes : List UInt8) : UInt64 := fnv1a fnvOffset bytes

namespace TaskNode

/-- `TaskNode::new`. The identifier is drawn by the caller. -/
def new (id : TaskId) (jobId : JobId) (kind : TaskKind) (title description : String) (stage : Nat) : TaskNode where
  id := id
  jobId := jobId
  title := title
  description := description
  kind := kind
  dependencies := []
  requiredCapabilities := kind.requiredCapabilities
  estimatedComplexity := 1
  estimatedTokens := none
  retryPolicy := .default
  timeoutSeconds := 300
  state := .created
  attempt := 0
  stage := stage
  idempotencyKey := s!"{jobId.display}:{stage}:{kind.asStr}:{slug title}:" ++
    String.ofList (hexText 16 (stableHash (Utf8.encode title.toList)).toNat)
  validation := [.nonEmpty]

def isTerminal (node : TaskNode) : Bool := node.state.isTerminal

def dependenciesSatisfied (node : TaskNode) (completed : List TaskId) : Bool :=
  node.dependencies.all (fun dependency => completed.contains dependency)

/-- Attempts get distinct keys; redeliveries of one attempt share one. -/
def attemptKey (node : TaskNode) : String := s!"{node.idempotencyKey}#{node.attempt}"

end TaskNode

/-- A `serde_json::Value`. Numbers are exact. -/
inductive Json where
  | null
  | bool (value : Bool)
  | number (value : Rat)
  | string (text : String)
  | array (items : List Json)
  | object (fields : List (String × Json))
  deriving Repr, Inhabited

structure Evidence where
  source : String
  claim : String
  support : Rat
  locator : Option String
  deriving DecidableEq, Repr

/-- The outcome of one successful attempt. Floating-point fields are exact. -/
structure TaskResult where
  taskId : TaskId
  jobId : JobId
  agentId : AgentId
  attempt : Nat
  kind : TaskKind
  title : String
  output : String
  structured : Json
  evidence : List Evidence
  reasoningSummary : String
  confidence : Rat
  validationFailures : List String
  tokensIn : Nat
  tokensOut : Nat
  costUsd : Rat
  durationMs : Nat
  deduplicated : Bool
  finishedAt : DateTime
  deriving Repr

def TaskResult.passedValidation (result : TaskResult) : Bool := result.validationFailures.isEmpty

structure TaskFailure where
  taskId : TaskId
  title : String
  attempt : Nat
  errorKind : String
  errorMessage : String
  deadLettered : Bool
  validationFailures : List String
  time : DateTime
  deriving DecidableEq, Repr

end Swarm
