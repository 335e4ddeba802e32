import Swarm.Agent.Lone
import Swarm.Coordinator.Cluster
import Swarm.Domain.Slugs
import Swarm.Memory.System
import Swarm.Platform.Model

namespace Swarm

/-- Identifiers are as wide as the UUIDs they are. -/
def TaskNode.Numbered (task : TaskNode) : Prop := task.id.uuid < 2 ^ 128 ∧ task.jobId.uuid < 2 ^ 128

theorem Ns.results_inj {jobId jobId' : JobId} (wide : jobId.uuid < 2 ^ 128) (wide' : jobId'.uuid < 2 ^ 128)
    (same : Ns.results jobId = Ns.results jobId') : jobId = jobId' := by
  have texts := congrArg String.toList same
  simp only [Ns.results, String.toList_append, List.append_assoc] at texts
  have display := List.append_cancel_right (List.append_cancel_left texts)
  have uuid := displayUuid_inj wide wide' (String.toList_inj.mp display)
  cases jobId
  cases jobId'
  exact congrArg JobId.mk uuid

theorem TaskId.display_inj {task task' : TaskId} (wide : task.uuid < 2 ^ 128) (wide' : task'.uuid < 2 ^ 128)
    (same : task.display = task'.display) : task = task' := by
  have uuid := displayUuid_inj wide wide' same
  cases task
  cases task'
  exact congrArg TaskId.mk uuid

/-- Every result in shared memory was written by an execution of the task that its key names. -/
def InMemoryStore.Filed (tools : TextTools) (store : InMemoryStore MemoryValue) : Prop :=
  ∀ key record result, store.records.get? key = some record → record.value = .result result →
    ∃ task : TaskNode, task.Numbered ∧ key = (Ns.results task.jobId, task.id.display) ∧
      result.Written tools task.jobId task.id

namespace InMemoryStore
variable {tools : TextTools}

theorem Filed.insert {s s' : InMemoryStore MemoryValue} (filed : s.Filed tools) {key : RecordKey}
    {record : MemoryRecord MemoryValue} (records : s'.records = s.records.insert key record)
    (own : ∀ result, record.value = .result result → ∃ task : TaskNode, task.Numbered ∧
      key = (Ns.results task.jobId, task.id.display) ∧ result.Written tools task.jobId task.id) : s'.Filed tools := by
  intro other found result stored
  rw [records, Dict.get?_insert] at stored
  split at stored
  · rename_i same
    cases stored
    rw [same]
    exact own result
  · exact filed other found result stored

/-- A checkpoint is no result. -/
theorem Filed.checkpointed {s : InMemoryStore MemoryValue} (filed : s.Filed tools) (e : Execution) (seq : Nat)
    (label : String) (state : Json) (input : StepInput) :
    (e.writeCheckpoint s seq label state input).Filed tools := by
  refine filed.insert (s.put_spec _ input.now input.id).1 ?_
  rw [put_value]
  exact fun _ absurd => by cases absurd

theorem Filed.claim {s : InMemoryStore MemoryValue} (filed : s.Filed tools) {write : MemoryWrite MemoryValue}
    (own : ∀ result, write.value = .result result → ∃ task : TaskNode, task.Numbered ∧
      write.target = (Ns.results task.jobId, task.id.display) ∧ result.Written tools task.jobId task.id)
    (now : DateTime) (id : MemoryId) : (s.claim write now id).2.Filed tools := by
  rcases s.claim_stores write now id with same | ⟨record, value, records⟩
  · rw [same]
    exact filed
  · refine filed.insert records ?_
    rw [value]
    exact own

/-- A result that an execution finds was written by one of the same task. -/
theorem Filed.found {s : InMemoryStore MemoryValue} (filed : s.Filed tools) {e : Execution}
    (numbered : e.task.Numbered) {now : DateTime} {existing : TaskResult}
    (found : e.storedResult s now = .ok (some existing)) :
    existing.Written tools e.task.jobId e.task.id := by
  unfold Execution.storedResult at found
  cases visible : s.get e.resultsKey now with
  | none =>
    simp only [visible] at found
    cases found
  | some record =>
    have stored := (get_eq_some.mp visible).1
    simp only [visible, MemoryRecord.parseResult] at found
    cases holds : record.value with
    | result result =>
      simp only [holds] at found
      cases found
      obtain ⟨task, wide, key, written⟩ := filed _ record _ stored holds
      obtain ⟨space, name⟩ := Prod.mk.inj key
      rw [Ns.results_inj numbered.2 wide.2 space, TaskId.display_inj numbered.1 wide.1 name]
      exact written
    | execution =>
      simp only [holds] at found
      cases found
    | checkpoint =>
      simp only [holds] at found
      cases found

end InMemoryStore

namespace Flight
variable {tools : TextTools} {flight : Flight}

/-- The result the execution makes of an answer. -/
def built (tools : TextTools) (flight : Flight) (response : CompletionResponse) (input : StepInput) : TaskResult :=
  flight.execution.buildResult tools response input

/-- A result that an execution of the same task left in shared memory, marked as a duplicate. -/
def Duplicate (tools : TextTools) (flight : Flight) (result : TaskResult) : Prop :=
  ∃ written : TaskResult, written.Written tools flight.dispatch.task.jobId flight.dispatch.task.id ∧
    result = { written with deduplicated := true }

/-- What an execution has in hand is a result found in shared memory, or one it has built from
the answer to its own call. -/
structure Sound (tools : TextTools) (flight : Flight) : Prop where
  numbered : flight.dispatch.task.Numbered
  responded : ∀ response, flight.point = .responded response → flight.call.answer = some (.ok response)
  publishes : ∀ result, flight.point = .publish result → result.passedValidation = true ∧ result.deduplicated = false
  inHand : ∀ result, flight.point.inHand = some result → flight.Duplicate tools result ∨
    ∃ response input, flight.call.answer = some (.ok response) ∧ result = flight.built tools response input

theorem sound_start {dispatch : Dispatch} (numbered : dispatch.task.Numbered) : (start dispatch).Sound tools :=
  ⟨numbered, fun _ absurd => (by cases absurd), fun _ absurd => (by cases absurd), fun _ absurd => (by cases absurd)⟩

/-- An execution that ends, or has nothing in hand. -/
theorem sound_of_idle (numbered : flight.dispatch.task.Numbered)
    (silent : ∀ response, flight.point ≠ .responded response) (empty : flight.point.inHand = none) :
    flight.Sound tools := by
  refine ⟨numbered, fun response here => absurd here (silent response), ?_, ?_⟩
  · intro result here
    rw [here] at empty
    cases empty
  · intro result holds
    rw [empty] at holds
    cases holds

/-- A result found in shared memory is handed on as a duplicate. -/
theorem sound_of_found (numbered : flight.dispatch.task.Numbered) {existing : TaskResult}
    (written : existing.Written tools flight.dispatch.task.jobId flight.dispatch.task.id)
    (here : flight.point = .returned (.ok { existing with deduplicated := true })) : flight.Sound tools := by
  refine ⟨numbered, fun response absurd => ?_, fun result absurd => ?_, ?_⟩
  · rw [here] at absurd
    cases absurd
  · rw [here] at absurd
    cases absurd
  · intro result holds
    rw [here] at holds
    cases holds
    exact Or.inl ⟨existing, written, rfl⟩

/-- A result in hand is kept. -/
theorem Sound.keep (sound : flight.Sound tools) {result : TaskResult} (holds : flight.point.inHand = some result)
    {point : ExecutePoint} (kept : point.inHand = some result) (silent : ∀ response, point ≠ .responded response)
    (publishes : ∀ result, point ≠ .publish result) : ({ flight with point := point } : Flight).Sound tools := by
  refine ⟨sound.numbered, fun response here => absurd here (silent response),
    fun result here => absurd here (publishes result), ?_⟩
  intro other here
  change point.inHand = some other at here
  rw [kept] at here
  cases here
  exact sound.inHand result holds

/-- What an execution publishes it has built itself. -/
theorem Sound.files (sound : flight.Sound tools) {result : TaskResult} (here : flight.point = .publish result) :
    result.Written tools flight.dispatch.task.jobId flight.dispatch.task.id := by
  obtain ⟨passed, own⟩ := sound.publishes result here
  rcases sound.inHand result (by rw [here]; rfl) with ⟨written, _, rfl⟩ | ⟨response, input, _, built⟩
  · cases own
  · exact ⟨flight.execution, response, input, ⟨rfl, rfl⟩, built, passed⟩

theorem step_sound {store : InMemoryStore MemoryValue} (sound : flight.Sound tools) (filed : store.Filed tools)
    (elsewhere : flight.point ≠ .call) (input : StepInput) :
    ({ flight with point := (flight.execution.step tools store input).2 } : Flight).Sound tools ∧
      (flight.execution.step tools store input).1.Filed tools := by
  have numbered := sound.numbered
  have point : flight.execution.point = flight.point := rfl
  unfold Execution.step
  cases here : flight.point with
  | lookup =>
    simp only [point, here]
    split
    · exact ⟨sound_of_idle numbered (by simp) rfl, filed⟩
    · rename_i existing found
      exact ⟨sound_of_found numbered (filed.found numbered found) rfl, filed⟩
    · exact ⟨sound_of_idle numbered (by simp) rfl, filed⟩
  | claimAttempt =>
    have after : (store.claim (flight.execution.claimWrite input.now) input.now input.id).2.Filed tools :=
      filed.claim (fun _ absurd => by cases absurd) _ _
    simp only [point, here]
    split <;> rename_i claimed <;> rw [claimed] at after <;> exact ⟨sound_of_idle numbered (by simp) rfl, after⟩
  | recheck =>
    simp only [point, here]
    split
    · exact ⟨sound_of_idle numbered (by simp) rfl, filed⟩
    · rename_i existing found
      exact ⟨sound_of_found numbered (filed.found numbered found) rfl, filed⟩
    · exact ⟨sound_of_idle numbered (by simp) rfl, filed⟩
  | started =>
    simp only [point, here]
    exact ⟨sound_of_idle numbered (by simp) rfl, filed.checkpointed _ _ _ _ _⟩
  | call => exact absurd here elsewhere
  | responded response =>
    have answered := sound.responded response here
    simp only [point, here]
    split
    · rename_i passed
      refine ⟨⟨numbered, by simp, ?_, ?_⟩, filed.checkpointed _ _ _ _ _⟩
      · rintro result ⟨⟩
        exact ⟨passed, rfl⟩
      · rintro result ⟨⟩
        exact Or.inr ⟨response, input, answered, rfl⟩
    · refine ⟨⟨numbered, by simp, by simp, ?_⟩, filed.checkpointed _ _ _ _ _⟩
      rintro result ⟨⟩
      exact Or.inr ⟨response, input, answered, rfl⟩
  | publish result =>
    have mine : flight.point.inHand = some result := by rw [here]; rfl
    have after : (store.claim (flight.execution.publishWrite result) input.now input.id).2.Filed tools := by
      refine filed.claim ?_ _ _
      rintro other ⟨⟩
      exact ⟨flight.dispatch.task, numbered, rfl, sound.files here⟩
    simp only [point, here]
    split <;> rename_i claimed <;> rw [claimed] at after
    · exact ⟨sound_of_idle numbered (by simp) rfl, after⟩
    · exact ⟨sound.keep mine rfl (by simp) (by simp), after⟩
    · exact ⟨sound.keep mine rfl (by simp) (by simp), after⟩
  | reread result =>
    have mine : flight.point.inHand = some result := by rw [here]; rfl
    simp only [point, here]
    split
    · exact ⟨sound_of_idle numbered (by simp) rfl, filed⟩
    · rename_i winner found
      exact ⟨sound_of_found numbered (filed.found numbered found) rfl, filed⟩
    · exact ⟨sound.keep mine rfl (by simp) (by simp), filed⟩
  | completed result =>
    have mine : flight.point.inHand = some result := by rw [here]; rfl
    simp only [point, here]
    exact ⟨sound.keep mine rfl (by simp) (by simp), filed.checkpointed _ _ _ _ _⟩
  | returned answer =>
    simp only [point, here]
    refine ⟨?_, filed⟩
    rw [← here]
    exact sound

/-- An await keeps an execution sound, and what the gateway bills for it is what it has been served. -/
theorem advance_sound {store : InMemoryStore MemoryValue} (sound : flight.Sound tools) (filed : store.Filed tools)
    (gateway : Gateway UInt64) (clock : Nat) (input : StepInput) :
    (flight.advance tools store gateway clock input).1.Sound tools ∧
      (flight.advance tools store gateway clock input).1.dispatch = flight.dispatch ∧
      (flight.advance tools store gateway clock input).2.1.Filed tools ∧
      (flight.advance tools store gateway clock input).2.2.usage.spend + flight.call.spend =
        gateway.usage.spend + (flight.advance tools store gateway clock input).1.call.spend := by
  unfold advance
  by_cases calling : flight.point = .call
  · have billed := gateway.poll_spend flight.dispatch.request flight.dispatch.request.cacheKey clock input.completion
      flight.call
    simp only [calling]
    generalize gateway.poll flight.dispatch.request flight.dispatch.request.cacheKey clock
      input.completion flight.call =
      polled at billed ⊢
    obtain ⟨gateway', call⟩ := polled
    cases answer : call.answer with
    | none =>
      simp only
      exact ⟨sound_of_idle sound.numbered (by simp) rfl, trivial, filed, billed⟩
    | some completion =>
      simp only [Execution.step, execution, calling]
      cases completion with
      | error err => exact ⟨sound_of_idle sound.numbered (by simp) rfl, trivial, filed, billed⟩
      | ok response =>
        refine ⟨⟨sound.numbered, ?_, by simp, by simp [ExecutePoint.inHand]⟩, trivial, filed, billed⟩
        rintro other ⟨⟩
        exact answer
  · obtain ⟨after, kept⟩ := step_sound sound filed calling input
    split
    · rename_i here
      exact absurd here calling
    · exact ⟨after, rfl, kept, rfl⟩

theorem outcome_returned {answer : Except SwarmError TaskResult} (brings : flight.outcome = .returned answer) :
    flight.point = .returned answer := by
  unfold outcome at brings
  split at brings
  · rename_i here
    cases brings
    exact here
  · cases brings

/-- What an execution comes to next to all others, it could have come to by itself. -/
theorem Sound.answers (sound : flight.Sound tools) : Cluster.Answers tools flight.dispatch flight.outcome := by
  intro answer brings
  have here := outcome_returned brings
  have brought : ∃ store, Fleet.Brings tools flight.dispatch.task.jobId flight.dispatch.task.id
      ⟨flight.dispatch.agent.id, flight.dispatch.task, .returned answer⟩ store := by
    cases answer with
    | error err => exact Fleet.brings_error rfl rfl err ⟨0, ⟨0⟩, 0, .error err⟩
    | ok result =>
      rcases sound.inHand result (by rw [here]; rfl) with ⟨written, wrote, rfl⟩ | ⟨response, input, _, built⟩
      · exact Fleet.brings_duplicate rfl rfl wrote
      · obtain ⟨store, returns, _⟩ := Fleet.brings_built _ rfl rfl input built
        exact ⟨store, returns⟩
  obtain ⟨_, f, reach, _, d, member, same⟩ := brought
  refine ⟨f, reach, d, member, ?_⟩
  rw [same]
  exact ⟨rfl, rfl, rfl⟩

end Flight

end Swarm
