import Swarm.Domain.Basic
import Swarm.Lib.Dict

namespace Swarm

/-- The version that stands for a key that must not exist yet. -/
def versionAbsent : Nat := 0

namespace Ns

def results (jobId : JobId) : String := s!"job/{jobId.display}/results"

def executions (jobId : JobId) : String := s!"job/{jobId.display}/executions"

def checkpoints (jobId : JobId) : String := s!"job/{jobId.display}/checkpoints"

end Ns

/-- A namespace and a key in it. -/
abbrev RecordKey := String × String

structure MemoryRecord (V : Type) where
  id : MemoryId
  jobId : Option JobId
  agentId : Option AgentId
  nspace : String
  key : String
  value : V
  version : Nat
  createdAt : DateTime
  updatedAt : DateTime
  expiresAt : Option DateTime
  deriving DecidableEq, Repr

def MemoryRecord.isExpired {V : Type} (record : MemoryRecord V) (now : DateTime) : Bool :=
  record.expiresAt.any (fun expiry => expiry ≤ now)

/-- `ttl` is in nanoseconds. -/
structure MemoryWrite (V : Type) where
  nspace : String
  key : String
  value : V
  jobId : Option JobId
  agentId : Option AgentId
  actor : String
  ttl : Option Nat
  deriving DecidableEq, Repr

namespace MemoryWrite
variable {V : Type}

def new (nspace key : String) (value : V) (actor : String) : MemoryWrite V :=
  ⟨nspace, key, value, none, none, actor, none⟩

def forJob (write : MemoryWrite V) (jobId : JobId) : MemoryWrite V := { write with jobId := some jobId }

def target (write : MemoryWrite V) : RecordKey := (write.nspace, write.key)

end MemoryWrite

inductive MemoryOperation where
  | create | put | compareAndSwap | delete | expire
  deriving DecidableEq, Repr

structure AuditEntry where
  nspace : String
  key : String
  version : Nat
  operation : MemoryOperation
  actor : String
  time : DateTime
  deriving DecidableEq, Repr

structure InMemoryStore (V : Type) where
  records : Dict RecordKey (MemoryRecord V)
  history : Dict RecordKey (List AuditEntry)

namespace InMemoryStore
variable {V : Type}

def new : InMemoryStore V := ⟨.empty, .empty⟩

/-- Append to the audit trail of the record's key. -/
def note (s : InMemoryStore V) (record : MemoryRecord V) (operation : MemoryOperation) (actor : String) :
    InMemoryStore V :=
  let key := (record.nspace, record.key)
  let entry : AuditEntry := ⟨record.nspace, record.key, record.version, operation, actor, record.updatedAt⟩
  { s with history := s.history.insert key ((s.history.get? key).getD [] ++ [entry]) }

/-- A lifetime beyond chrono's longest duration is dropped. One that ends past the calendar, where
`Timed.expiry` panics, is not asked of this function and of the writes below. -/
def expiry (write : MemoryWrite V) (now : DateTime) : Option DateTime :=
  match write.ttl with
  | none => none
  | some ttl => if ttl ≤ (2 ^ 63 - 1) * 1000000 then some (now + ttl) else none

def fresh (write : MemoryWrite V) (now : DateTime) (id : MemoryId) : MemoryRecord V where
  id := id
  jobId := write.jobId
  agentId := write.agentId
  nspace := write.nspace
  key := write.key
  value := write.value
  version := 1
  createdAt := now
  updatedAt := now
  expiresAt := expiry write now

def bumped (previous : MemoryRecord V) (write : MemoryWrite V) (now : DateTime) : MemoryRecord V where
  id := previous.id
  jobId := write.jobId.or previous.jobId
  agentId := write.agentId.or previous.agentId
  nspace := previous.nspace
  key := previous.key
  value := write.value
  version := previous.version + 1
  createdAt := previous.createdAt
  updatedAt := now
  expiresAt := (expiry write now).or previous.expiresAt

def get (s : InMemoryStore V) (key : RecordKey) (now : DateTime) : Option (MemoryRecord V) :=
  (s.records.get? key).filter (fun record => !record.isExpired now)

/-- An expired record counts as absent: the writer starts a new lineage at version 1. -/
def put (s : InMemoryStore V) (write : MemoryWrite V) (now : DateTime) (id : MemoryId) :
    MemoryRecord V × InMemoryStore V :=
  let (record, operation) := match s.records.get? write.target with
    | some occupied =>
      let record := if occupied.isExpired now then fresh write now id else bumped occupied write now
      (record, if record.version = 1 then MemoryOperation.create else MemoryOperation.put)
    | none => (fresh write now id, MemoryOperation.create)
  (record, { s with records := s.records.insert write.target record }.note record operation write.actor)

def compareAndSwap (s : InMemoryStore V) (write : MemoryWrite V) (expected : Nat) (now : DateTime) (id : MemoryId) :
    Except SwarmError (MemoryRecord V) × InMemoryStore V :=
  let store record operation :=
    (.ok record, { s with records := s.records.insert write.target record }.note record operation write.actor)
  match s.records.get? write.target with
  | some occupied =>
    let current := if occupied.isExpired now then versionAbsent else occupied.version
    if current ≠ expected then (.error (.versionConflict write.nspace write.key expected current), s)
    else
      store (if current = versionAbsent then fresh write now id else bumped occupied write now)
        MemoryOperation.compareAndSwap
  | none =>
    if expected ≠ versionAbsent then (.error (.versionConflict write.nspace write.key expected versionAbsent), s)
    else store (fresh write now id) MemoryOperation.create

def claim (s : InMemoryStore V) (write : MemoryWrite V) (now : DateTime) (id : MemoryId) :
    Except SwarmError (Option (MemoryRecord V)) × InMemoryStore V :=
  match s.compareAndSwap write versionAbsent now id with
  | (.ok record, s) => (.ok (some record), s)
  | (.error (.versionConflict ..), s) => (.ok none, s)
  | (.error other, s) => (.error other, s)

def delete (s : InMemoryStore V) (key : RecordKey) : Bool × InMemoryStore V :=
  match s.records.get? key with
  | none => (false, s)
  | some record => (true, { s with records := s.records.erase key }.note record .delete "unknown")

def list (s : InMemoryStore V) (nspace start : String) (now : DateTime) : List (MemoryRecord V) :=
  (s.records.values.filter (fun record =>
    record.nspace == nspace && record.key.startsWith start && !record.isExpired now)).mergeSort
      (fun left right => left.key ≤ right.key)

def audit (s : InMemoryStore V) (key : RecordKey) : List AuditEntry := (s.history.get? key).getD []

/-- The first pass of `compact`. -/
def collectExpired (s : InMemoryStore V) (now : DateTime) : List RecordKey :=
  (s.records.entries.filter (fun entry => entry.2.isExpired now)).map Prod.fst

/-- One round of the second pass of `compact`. -/
def removeExpired (s : InMemoryStore V) (key : RecordKey) : InMemoryStore V :=
  match s.records.get? key with
  | none => s
  | some record => { s with records := s.records.erase key }.note record .expire "system"

def compact (s : InMemoryStore V) (now : DateTime) : Nat × InMemoryStore V :=
  let expired := s.collectExpired now
  (expired.length, expired.foldl removeExpired s)

/-- The first pass of `purge_job`. -/
def collectOwned (s : InMemoryStore V) (jobId : JobId) : List RecordKey :=
  (s.records.entries.filter (fun entry => entry.2.jobId = some jobId)).map Prod.fst

/-- One round of the second pass of `purge_job`. -/
def removeOwned (s : InMemoryStore V) (key : RecordKey) : InMemoryStore V :=
  { s with records := s.records.erase key }

def purgeJob (s : InMemoryStore V) (jobId : JobId) : Nat × InMemoryStore V :=
  let owned := s.collectOwned jobId
  (owned.length, owned.foldl removeOwned s)

end InMemoryStore

end Swarm
