import Swarm.Agent.Execute

namespace Swarm

/-- An execution together with whether a result was already published when it started. -/
structure Delivery where
  execution : Execution
  late : Bool

/-- Any number of executions of one task over one store, with the gateway calls
made so far (by whom and under which attempt key) and the results published. -/
structure Fleet where
  store : InMemoryStore MemoryValue
  deliveries : List Delivery
  calls : List (Nat × String)
  published : List TaskResult

namespace Fleet

def new : Fleet := ⟨.new, [], [], []⟩

def deliver (f : Fleet) (agentId : AgentId) (task : TaskNode) : Fleet :=
  { f with deliveries := f.deliveries ++ [⟨⟨agentId, task, .lookup⟩, !f.published.isEmpty⟩] }

/-- One execution takes its next step. -/
def advance (tools : TextTools) (f : Fleet) (index : Nat) (d : Delivery) (input : StepInput) : Fleet :=
  let (store, point) := d.execution.step tools f.store input
  { store := store
    deliveries := f.deliveries.set index { d with execution := { d.execution with point := point } }
    calls := match d.execution.point with
      | .call => f.calls ++ [(index, d.execution.task.attemptKey)]
      | _ => f.calls
    published := match d.execution.point, point with
      | .publish result, .completed _ => f.published ++ [result]
      | _, _ => f.published }

/-- The interleavings of deliveries of one task. An execution that takes no
further step has been stopped. -/
inductive Reach (tools : TextTools) (jobId : JobId) (taskId : TaskId) : Fleet → Prop
  | start : Reach tools jobId taskId new
  | deliver {f : Fleet} {agentId : AgentId} {task : TaskNode} : Reach tools jobId taskId f → task.id = taskId →
      task.jobId = jobId → Reach tools jobId taskId (f.deliver agentId task)
  | advance {f : Fleet} {index : Nat} {d : Delivery} {input : StepInput} : Reach tools jobId taskId f →
      f.deliveries[index]? = some d → Reach tools jobId taskId (f.advance tools index d input)

end Fleet

/-- The attempt has been claimed and the gateway not been called yet. -/
def ExecutePoint.holds : ExecutePoint → Bool
  | .started | .call => true
  | _ => false

/-- What a published list of results has to say about an execution. -/
structure Delivery.Placed (d : Delivery) (published : List TaskResult) : Prop where
  own : ∀ result, d.execution.point = .publish result → result.deduplicated = false
  beaten : ∀ result, d.execution.point = .reread result → published ≠ []
  winner : ∀ result, d.execution.point = .completed result → result.passedValidation = true → published = [result]
  agrees : ∀ result, d.execution.point = .returned (.ok result) → result.passedValidation = true →
    ∃ winner, published = [winner] ∧ { result with deduplicated := false } = winner
  idle : d.late = true →
    published ≠ [] ∧ (d.execution.point = .lookup ∨ ∃ answer, d.execution.point = .returned answer)

namespace InMemoryStore
variable {V : Type}

/-- Every record is visible forever. -/
def Lasting (s : InMemoryStore V) : Prop :=
  ∀ key record, s.records.get? key = some record → record.expiresAt = none ∧ 1 ≤ record.version

theorem Lasting.get {s : InMemoryStore V} (lasting : s.Lasting) (key : RecordKey) (now : DateTime) :
    s.get key now = s.records.get? key := by
  unfold InMemoryStore.get
  cases stored : s.records.get? key with
  | none => rfl
  | some record => simp [Option.filter, MemoryRecord.isExpired, (lasting key record stored).1]

theorem Lasting.insert {s s' : InMemoryStore V} (lasting : s.Lasting) {key : RecordKey} {record : MemoryRecord V}
    (records : s'.records = s.records.insert key record) (forever : record.expiresAt = none)
    (version : 1 ≤ record.version) : s'.Lasting := by
  intro other found stored
  rw [records, Dict.get?_insert] at stored
  split at stored
  · cases stored
    exact ⟨forever, version⟩
  · exact lasting other found stored

theorem Lasting.put {s : InMemoryStore V} (lasting : s.Lasting) {write : MemoryWrite V} (forever : write.ttl = none)
    (now : DateTime) (id : MemoryId) : (s.put write now id).2.Lasting := by
  have records : (s.put write now id).2.records = s.records.insert write.target (s.put write now id).1 := rfl
  have sound : (s.put write now id).1.expiresAt = none ∧ 1 ≤ (s.put write now id).1.version := by
    unfold InMemoryStore.put
    cases stored : s.records.get? write.target with
    | none => simp [fresh, expiry, forever]
    | some old => simp [MemoryRecord.isExpired, (lasting _ _ stored).1, bumped, expiry, forever]
  exact lasting.insert records sound.1 sound.2

/-- Claiming an absent key stores the write at version 1. -/
theorem Lasting.claim_absent {s : InMemoryStore V} (lasting : s.Lasting) {write : MemoryWrite V}
    (forever : write.ttl = none) (absent : s.records.get? write.target = none) (now : DateTime) (id : MemoryId) :
    ∃ s', s.claim write now id = (.ok (some (fresh write now id)), s') ∧
      s'.records = s.records.insert write.target (fresh write now id) ∧ s'.Lasting := by
  refine ⟨_, by simp only [claim, compareAndSwap, absent]; rfl, rfl, ?_⟩
  refine lasting.insert rfl ?_ (Nat.le_refl 1)
  simp [fresh, expiry, forever]

/-- Claiming a key that is there forever changes nothing. -/
theorem Lasting.claim_present {s : InMemoryStore V} (lasting : s.Lasting) {write : MemoryWrite V}
    {record : MemoryRecord V} (present : s.records.get? write.target = some record) (now : DateTime) (id : MemoryId) :
    s.claim write now id = (.ok none, s) := by
  obtain ⟨forever, version⟩ := lasting _ _ present
  have positive : record.version ≠ versionAbsent := by
    unfold versionAbsent
    omega
  simp [claim, compareAndSwap, present, MemoryRecord.isExpired, forever, positive]

end InMemoryStore

theorem ne_of_suffix_length (start a b : String) (lengths : a.length ≠ b.length) : start ++ a ≠ start ++ b := by
  intro same
  have length := congrArg String.length same
  rw [String.length_append, String.length_append] at length
  omega

theorem Ns.results_ne_executions (jobId : JobId) : Ns.results jobId ≠ Ns.executions jobId :=
  ne_of_suffix_length s!"job/{jobId.display}" "/results" "/executions" (by decide)

theorem Ns.results_ne_checkpoints (jobId : JobId) : Ns.results jobId ≠ Ns.checkpoints jobId :=
  ne_of_suffix_length s!"job/{jobId.display}" "/results" "/checkpoints" (by decide)

theorem Ns.executions_ne_checkpoints (jobId : JobId) : Ns.executions jobId ≠ Ns.checkpoints jobId :=
  ne_of_suffix_length s!"job/{jobId.display}" "/executions" "/checkpoints" (by decide)

namespace Execution

/-- A checkpoint leaves results and claims alone. -/
theorem writeCheckpoint_frame (e : Execution) {store : InMemoryStore MemoryValue}
    (lasting : store.Lasting) (seq : Nat) (label : String) (state : Json) (input : StepInput) :
    (e.writeCheckpoint store seq label state input).Lasting ∧
      (e.writeCheckpoint store seq label state input).records.get? e.resultsKey = store.records.get? e.resultsKey ∧
      ∀ key, (e.writeCheckpoint store seq label state input).records.get? (Ns.executions e.task.jobId, key) =
        store.records.get? (Ns.executions e.task.jobId, key) := by
  refine ⟨lasting.put rfl _ _, Dict.get?_insert_of_ne ?_, fun key => Dict.get?_insert_of_ne ?_⟩
  · intro same
    exact Ns.results_ne_checkpoints e.task.jobId (congrArg Prod.fst same)
  · intro same
    exact Ns.executions_ne_checkpoints e.task.jobId (congrArg Prod.fst same)

end Execution

end Swarm
