import Swarm.Agent.Answers

namespace Swarm

/-- The result that some execution of the task has built and found valid. -/
def TaskResult.Written (tools : TextTools) (jobId : JobId) (taskId : TaskId) (result : TaskResult) : Prop :=
  ∃ (e : Execution) (response : CompletionResponse) (input : StepInput),
    (e.task.id = taskId ∧ e.task.jobId = jobId) ∧ result = e.buildResult tools response input ∧
      result.passedValidation = true

theorem TaskResult.Written.about {tools : TextTools} {jobId : JobId} {taskId : TaskId} {result : TaskResult}
    (written : result.Written tools jobId taskId) : result.About jobId taskId := by
  obtain ⟨e, response, input, own, rfl, _⟩ := written
  exact own

/-- A fresh memory serves one execution from its start: nothing of its task is published or claimed. -/
structure InMemoryStore.Clear (store : InMemoryStore MemoryValue) (e : Execution) : Prop where
  lasting : store.Lasting
  results : store.records.get? e.resultsKey = none
  executions : store.records.get? e.executionsKey = none

namespace Execution
variable {e : Execution} {store : InMemoryStore MemoryValue}

theorem storedResult_none (lasting : store.Lasting) (absent : store.records.get? e.resultsKey = none)
    (now : DateTime) :
    e.storedResult store now = .ok none := by
  unfold storedResult
  rw [lasting.get, absent]

theorem storedResult_some (lasting : store.Lasting) {record : MemoryRecord MemoryValue} {result : TaskResult}
    (stored : store.records.get? e.resultsKey = some record) (value : record.value = .result result)
    (now : DateTime) :
    e.storedResult store now = .ok (some result) := by
  unfold storedResult
  rw [lasting.get, stored]
  simp only [MemoryRecord.parseResult, value]
  rfl

end Execution

namespace Fleet
variable {tools : TextTools} {jobId : JobId} {taskId : TaskId} {e : Execution} {store : InMemoryStore MemoryValue}

/-- Some fleet has an execution at this point over this store. -/
def Brings (tools : TextTools) (jobId : JobId) (taskId : TaskId) (e : Execution) (store : InMemoryStore MemoryValue) :
    Prop :=
  ∃ f, Reach tools jobId taskId f ∧ f.store = store ∧ ∃ d ∈ f.deliveries, d.execution = e

theorem brings_start {agentId : AgentId} {task : TaskNode} (id : task.id = taskId) (job : task.jobId = jobId) :
    Brings tools jobId taskId ⟨agentId, task, .lookup⟩ .new :=
  ⟨_, .deliver .start id job, rfl, _, List.mem_singleton_self _, rfl⟩

/-- Another execution joins. -/
theorem Brings.deliver (brings : Brings tools jobId taskId e store) (agentId : AgentId) {task : TaskNode}
    (id : task.id = taskId) (job : task.jobId = jobId) :
    Brings tools jobId taskId ⟨agentId, task, .lookup⟩ store := by
  obtain ⟨f, reach, rfl, _⟩ := brings
  exact ⟨_, .deliver reach id job, rfl, _, List.mem_append_right _ (List.mem_singleton_self _), rfl⟩

/-- The execution takes its next step. -/
theorem Brings.step (brings : Brings tools jobId taskId e store) (input : StepInput)
    {store' : InMemoryStore MemoryValue} {point : ExecutePoint} (ran : e.step tools store input = (store', point)) :
    Brings tools jobId taskId { e with point := point } store' := by
  obtain ⟨f, reach, rfl, d, member, rfl⟩ := brings
  obtain ⟨index, inside, here⟩ := List.mem_iff_getElem.mp member
  have found := List.getElem?_eq_some_iff.mpr ⟨inside, here⟩
  refine ⟨f.advance tools index d input, .advance reach found, ?_,
    { d with execution := { d.execution with point := point } },
    ?_, rfl⟩
  · simp only [Fleet.advance, ran]
  · simp only [Fleet.advance, ran]
    exact List.mem_of_getElem? (List.getElem?_set_self inside)

/-- An execution that nothing stands in the way of calls the gateway. -/
theorem Brings.calls {agentId : AgentId} {task : TaskNode}
    (brings : Brings tools jobId taskId ⟨agentId, task, .lookup⟩ store) (clear : store.Clear ⟨agentId, task, .lookup⟩)
    (input : StepInput) : ∃ store', Brings tools jobId taskId ⟨agentId, task, .call⟩ store' ∧ store'.Lasting ∧
      store'.records.get? (Ns.results task.jobId, task.id.display) = none := by
  have looks : Brings tools jobId taskId ⟨agentId, task, .claimAttempt⟩ store := by
    refine brings.step input ?_
    simp only [Execution.step, Execution.storedResult_none clear.lasting clear.results]
  let claimant : Execution := ⟨agentId, task, .claimAttempt⟩
  have forever : (claimant.claimWrite input.now).ttl = none := rfl
  obtain ⟨claimed, ran, records, lasting⟩ := clear.lasting.claim_absent forever clear.executions input.now input.id
  have starts : Brings tools jobId taskId ⟨agentId, task, .started⟩ claimed := by
    refine looks.step input ?_
    simp only [Execution.step]
    rw [ran]
  let starter : Execution := ⟨agentId, task, .started⟩
  obtain ⟨after, results, _⟩ := starter.writeCheckpoint_frame lasting 0 "started"
    (.object [("agent_id", .string agentId.display)]) input
  refine ⟨_, starts.step input rfl, after, results.trans ?_⟩
  rw [records]
  refine (Dict.get?_insert_of_ne ?_).trans clear.results
  intro same
  exact Ns.results_ne_executions task.jobId (congrArg Prod.fst same)

/-- With a valid answer in hand an execution publishes it and returns it, else it just returns it. -/
theorem Brings.finishes {agentId : AgentId} {task : TaskNode}
    (brings : Brings tools jobId taskId ⟨agentId, task, .call⟩ store) (lasting : store.Lasting)
    (absent : store.records.get? (Ns.results task.jobId, task.id.display) = none) (response : CompletionResponse)
    (input : StepInput) {result : TaskResult}
    (built : result = (Execution.mk agentId task .call).buildResult tools response input) :
    ∃ store', Brings tools jobId taskId ⟨agentId, task, .returned (.ok result)⟩ store' ∧ store'.Lasting ∧
      (result.passedValidation = true → ∃ record, record.value = .result result ∧
        store'.records.get? (Ns.results task.jobId, task.id.display) = some record) := by
  have hears : Brings tools jobId taskId ⟨agentId, task, .responded response⟩ store :=
    brings.step { input with completion := .ok response } rfl
  let responder : Execution := ⟨agentId, task, .responded response⟩
  let noted :=
    responder.writeCheckpoint store 1 "model_responded" (.object [("tokens_out", .number response.tokensOut)]) input
  obtain ⟨logged, results, _⟩ := responder.writeCheckpoint_frame lasting 1 "model_responded"
    (.object [("tokens_out", .number response.tokensOut)]) input
  rw [show responder.resultsKey = (Ns.results task.jobId, task.id.display) from rfl, absent] at results
  have ends : ∀ store', store'.Lasting → Brings tools jobId taskId ⟨agentId, task, .completed result⟩ store' →
      ∃ store'', Brings tools jobId taskId ⟨agentId, task, .returned (.ok result)⟩ store'' ∧ store''.Lasting ∧
        store''.records.get? (Ns.results task.jobId, task.id.display) =
          store'.records.get? (Ns.results task.jobId, task.id.display) := by
    intro store' lasting completes
    let finisher : Execution := ⟨agentId, task, .completed result⟩
    obtain ⟨after, kept, _⟩ := finisher.writeCheckpoint_frame lasting 2 "completed"
      (.object [("validated", .bool result.passedValidation)]) input
    exact ⟨_, completes.step input rfl, after, kept⟩
  have builds : responder.buildResult tools response input = result := built.symm
  by_cases passed : result.passedValidation = true
  · have publishes : Brings tools jobId taskId ⟨agentId, task, .publish result⟩ noted := by
      refine hears.step input ?_
      simp only [Execution.step]
      rw [show (Execution.mk agentId task (.responded response)).buildResult tools response input =
        result from builds,
        if_pos passed]
    let publisher : Execution := ⟨agentId, task, .publish result⟩
    have forever : (publisher.publishWrite result).ttl = none := rfl
    obtain ⟨published, ran, records, lasting'⟩ := logged.claim_absent forever results input.now input.id
    have completes : Brings tools jobId taskId ⟨agentId, task, .completed result⟩ published := by
      refine publishes.step input ?_
      simp only [Execution.step]
      rw [ran]
    obtain ⟨store', returns, after, kept⟩ := ends _ lasting' completes
    refine ⟨store', returns, after,
      fun _ => ⟨InMemoryStore.fresh (publisher.publishWrite result) input.now input.id, rfl, ?_⟩⟩
    rw [kept, records]
    exact Dict.get?_insert_self
  · have completes : Brings tools jobId taskId ⟨agentId, task, .completed result⟩ noted := by
      refine hears.step input ?_
      simp only [Execution.step]
      rw [show (Execution.mk agentId task (.responded response)).buildResult tools response input =
        result from builds,
        if_neg passed]
    obtain ⟨store', returns, after, _⟩ := ends _ logged completes
    exact ⟨store', returns, after, fun absurd => (passed absurd).elim⟩

theorem clear_new (e : Execution) : InMemoryStore.new.Clear e :=
  ⟨fun _ _ stored => (by cases stored), rfl, rfl⟩

/-- An execution can come to whatever the gateway makes of it. -/
theorem brings_error {agentId : AgentId} {task : TaskNode} (id : task.id = taskId) (job : task.jobId = jobId)
    (err : SwarmError) (input : StepInput) :
    ∃ store, Brings tools jobId taskId ⟨agentId, task, .returned (.error err)⟩ store := by
  obtain ⟨store, calls, _⟩ := (brings_start id job).calls (clear_new _) input
  exact ⟨store, calls.step { input with completion := .error err } rfl⟩

theorem brings_built (agentId : AgentId) {task : TaskNode} (id : task.id = taskId) (job : task.jobId = jobId)
    {response : CompletionResponse} (input : StepInput) {result : TaskResult}
    (built : result = (Execution.mk agentId task .call).buildResult tools response input) :
    ∃ store, Brings tools jobId taskId ⟨agentId, task, .returned (.ok result)⟩ store ∧ store.Lasting ∧
      (result.passedValidation = true → ∃ record, record.value = .result result ∧
        store.records.get? (Ns.results jobId, taskId.display) = some record) := by
  subst id job
  obtain ⟨store, calls, lasting, absent⟩ := (brings_start rfl rfl).calls (clear_new _) input
  exact calls.finishes lasting absent response input built

/-- What an execution wrote is found by every later one. -/
theorem Brings.finds {agentId : AgentId} {task : TaskNode} (brings : Brings tools jobId taskId e store)
    (lasting : store.Lasting) {record : MemoryRecord MemoryValue} {result : TaskResult}
    (stored : store.records.get? (Ns.results jobId, taskId.display) = some record)
    (value : record.value = .result result) (id : task.id = taskId) (job : task.jobId = jobId) (input : StepInput) :
    Brings tools jobId taskId ⟨agentId, task, .returned (.ok { result with deduplicated := true })⟩ store := by
  refine (brings.deliver agentId id job).step input ?_
  subst id job
  have found := Execution.storedResult_some (e := ⟨agentId, task, .lookup⟩) lasting stored value input.now
  simp only [Execution.step, found]

theorem brings_duplicate {agentId : AgentId} {task : TaskNode} (id : task.id = taskId) (job : task.jobId = jobId)
    {result : TaskResult} (written : result.Written tools jobId taskId) :
    ∃ store, Brings tools jobId taskId ⟨agentId, task,
      .returned (.ok { result with deduplicated := true })⟩ store := by
  obtain ⟨⟨writer, task', point⟩, response, input, ⟨ownId, ownJob⟩, built, passed⟩ := written
  obtain ⟨store, returns, lasting, stored⟩ := brings_built writer ownId ownJob input built
  obtain ⟨record, value, found⟩ := stored passed
  exact ⟨store, returns.finds lasting found value id job input⟩

end Fleet

end Swarm
