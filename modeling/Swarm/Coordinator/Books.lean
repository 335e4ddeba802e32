import Swarm.Coordinator.Steps
import Swarm.Domain.Counting

namespace Swarm
open JobHandle Act

/-- The counters of two statistics that follow the outcomes of tasks are the same. -/
structure ExecutionStatistics.SameCounts (statistics statistics' : ExecutionStatistics) : Prop where
  tasksSucceeded : statistics'.tasksSucceeded = statistics.tasksSucceeded
  tasksFailed : statistics'.tasksFailed = statistics.tasksFailed
  tasksRetried : statistics'.tasksRetried = statistics.tasksRetried
  modelRequests : statistics'.modelRequests = statistics.modelRequests
  modelCacheHits : statistics'.modelCacheHits = statistics.modelCacheHits
  tokensIn : statistics'.tokensIn = statistics.tokensIn
  tokensOut : statistics'.tokensOut = statistics.tokensOut

theorem ExecutionStatistics.SameCounts.refl (statistics : ExecutionStatistics) : SameCounts statistics statistics :=
  ⟨rfl, rfl, rfl, rfl, rfl, rfl, rfl⟩

theorem ExecutionStatistics.SameCounts.trans {first second third : ExecutionStatistics}
    (same : SameCounts first second) (again : SameCounts second third) : SameCounts first third :=
  ⟨again.tasksSucceeded.trans same.tasksSucceeded, again.tasksFailed.trans same.tasksFailed,
    again.tasksRetried.trans same.tasksRetried, again.modelRequests.trans same.modelRequests,
    again.modelCacheHits.trans same.modelCacheHits, again.tokensIn.trans same.tokensIn,
    again.tokensOut.trans same.tokensOut⟩

/-- What a result adds to the counters. -/
def ExecutionStatistics.credit (statistics : ExecutionStatistics) (result : TaskResult) : ExecutionStatistics :=
  { statistics with
    tasksSucceeded := statistics.tasksSucceeded + 1
    tokensIn := statistics.tokensIn + result.tokensIn
    tokensOut := statistics.tokensOut + result.tokensOut
    modelCacheHits := statistics.modelCacheHits + (if result.deduplicated then 1 else 0)
    modelRequests := statistics.modelRequests + (if result.deduplicated then 0 else 1) }

/-- What a failure adds to the counters. -/
def ExecutionStatistics.debit (statistics : ExecutionStatistics) (failure : TaskFailure) : ExecutionStatistics :=
  { statistics with
    modelRequests := statistics.modelRequests + 1
    tasksRetried := statistics.tasksRetried + (if failure.deadLettered then 0 else 1)
    tasksFailed := statistics.tasksFailed + (if failure.deadLettered then 1 else 0) }

def JournalRecord.failureOf : JournalRecord → Option TaskFailure
  | .taskFailed _ failure => some failure
  | _ => none

/-- The failures that are on record. -/
def failuresOf (records : List JournalRecord) : List TaskFailure := records.filterMap JournalRecord.failureOf

@[simp] theorem failuresOf_append (records more : List JournalRecord) :
    failuresOf (records ++ more) = failuresOf records ++ failuresOf more := List.filterMap_append

/-- Nothing is booked: no result, no failure, nothing counted. -/
structure JobHandle.SameEntries (h h' : JobHandle) : Prop where
  results : h'.results = h.results
  failures : h'.failures = h.failures
  logged : failuresOf h'.journal = failuresOf h.journal
  counts : h.statistics.SameCounts h'.statistics

theorem JobHandle.SameEntries.refl (h : JobHandle) : SameEntries h h := ⟨rfl, rfl, rfl, .refl _⟩

theorem JobHandle.SameEntries.trans {h h' h'' : JobHandle} (first : SameEntries h h') (second : SameEntries h' h'') :
    SameEntries h h'' :=
  ⟨second.results.trans first.results, second.failures.trans first.failures, second.logged.trans first.logged,
    first.counts.trans second.counts⟩

/-- Nothing is booked and no task changes its state. -/
structure JobHandle.Silent (h h' : JobHandle) : Prop where
  tasks : ∀ wanted, (h'.graph.withState wanted).length = (h.graph.withState wanted).length
  entries : SameEntries h h'
  finalResult : h'.finalResult = h.finalResult

/-- Everything that happens to the tasks and the books of a job before it is concluded. Only where
`loses` holds can a task be given up without an entry. -/
inductive Post (loses : Prop) (h : JobHandle) : JobHandle → Prop
  | quiet {h' : JobHandle} : Silent h h' → Post loses h h'
  | moved {h' : JobHandle} {task : TaskId} {node : TaskNode} {target : TaskState} : h.graph.get task = some node →
      node.state.isTerminal = false → target.isTerminal = false ∨ loses ∧ target ≠ .completed →
      h'.graph = h.graph.update task (fun node => { node with state := target }) → SameEntries h h' →
      h'.finalResult = h.finalResult → Post loses h h'
  | succeeded {h' : JobHandle} {task : TaskId} {node : TaskNode} (result : TaskResult) :
      h.graph.get task = some node →
      node.state.isTerminal = false → h'.graph = h.graph.update task (fun node => { node with state := .completed }) →
      h'.results = h.results ++ [result] → h'.failures = h.failures → failuresOf h'.journal = failuresOf h.journal →
      (h.statistics.credit result).SameCounts h'.statistics → h'.finalResult = h.finalResult → Post loses h h'
  | failed {h' : JobHandle} {task : TaskId} {node : TaskNode} (failure : TaskFailure) : h.graph.get task = some node →
      node.state.isTerminal = false →
      h'.graph = h.graph.update task
        (fun node => { node with state := if failure.deadLettered then .deadLettered else .retryScheduled }) →
      h'.results = h.results → h'.failures = h.failures ++ [failure] →
      failuresOf h'.journal = failuresOf h.journal ++ [failure] →
      (h.statistics.debit failure).SameCounts h'.statistics → h'.finalResult = h.finalResult → Post loses h h'

/-- Any number of them. -/
abbrev Posts (loses : Prop) : JobHandle → JobHandle → Prop := Relation.ReflTransGen (Post loses)

theorem Posts.finalResult {loses : Prop} {h h' : JobHandle} (posts : Posts loses h h') :
    h'.finalResult = h.finalResult := by
  induction posts with
  | refl => rfl
  | tail _ last ih =>
    cases last with
    | quiet silent => exact silent.finalResult.trans ih
    | moved _ _ _ _ _ same => exact same.trans ih
    | succeeded _ _ _ _ _ _ _ _ same => exact same.trans ih
    | failed _ _ _ _ _ _ _ _ same => exact same.trans ih

/-- Work that does nothing else, also where it fails. -/
def Posting {α : Type} (loses : Prop) (act : HandleAct α) (h : JobHandle) : Prop :=
  Ensures act h (fun _ h' => Posts loses h h') (fun _ h' => Posts loses h h')

namespace Posting
variable {α β : Type} {loses : Prop} {h : JobHandle}

theorem bind {act : HandleAct α} {next : α → HandleAct β} (first : Posting loses act h)
    (rest : ∀ a h', Posts loses h h' → Posting loses (next a) h') : Posting loses (act >>= next) h := by
  unfold Posting
  rw [ensures_bind]
  refine Ensures.mono first ?_ (fun _ _ posts => posts)
  intro a h' posts
  exact (rest a h' posts).mono (fun _ _ more => posts.trans more) (fun _ _ more => posts.trans more)

theorem pure (a : α) : Posting loses (pure a) h := by
  simp only [Posting, ensures_pure]
  exact .refl

theorem throw (e : SwarmError) : Posting loses (throw e : HandleAct α) h := by
  simp only [Posting, ensures_throw]
  exact .refl

theorem liftExcept (answer : Except SwarmError α) : Posting loses (Act.liftExcept answer) h := by
  simp only [Posting, ensures_liftExcept]
  exact ⟨fun _ _ => .refl, fun _ _ => .refl⟩

theorem get : Posting loses (MonadState.get : HandleAct JobHandle) h := by
  unfold Posting
  exact .refl

theorem modify {change : JobHandle → JobHandle} (post : Post loses h (change h)) :
    Posting loses (modify change : HandleAct PUnit) h := by
  simp only [Posting, ensures_modify]
  exact .single post

theorem forM {items : List β} {body : β → HandleAct PUnit}
    (round : ∀ item ∈ items, ∀ h', Posting loses (body item) h') :
    Posting loses (items.forM body) h := by
  induction items generalizing h with
  | nil => exact Posting.pure _
  | cons item rest ih =>
    exact Posting.bind (round item List.mem_cons_self h)
      (fun _ _ _ => ih (fun other member => round other (List.mem_cons_of_mem _ member)))

end Posting

namespace Engine
variable {h : JobHandle} {loses : Prop} {config : CoordinatorConfig}
  {toposort : DiGraph TaskId → Except Nat (List Nat)} {input : EngineInput} {run : JobRun} {shared : Shared}

theorem emit_posts : Posting loses emit h :=
  .modify (.quiet ⟨fun _ => rfl, ⟨rfl, rfl, rfl, ⟨rfl, rfl, rfl, rfl, rfl, rfl, rfl⟩⟩, rfl⟩)

theorem releaseAgent_posts {agent : AgentDescriptor} {succeeded : Bool} {latencyMs : Nat} {now : DateTime} :
    Posting loses (releaseAgent agent succeeded latencyMs now) h :=
  .modify (.quiet ⟨fun _ => rfl, ⟨rfl, rfl, rfl, .refl _⟩, rfl⟩)

theorem setStatus_posts {target : JobStatus} {reason : Option String} {now : DateTime} :
    Posting loses (setStatus target reason now) h := by
  refine setStatus_ensures (fun _ => .single (.quiet ⟨fun _ => rfl, ⟨rfl, rfl, ?_, .refl _⟩, rfl⟩)) (fun _ => .refl)
  rw [failuresOf_append]
  exact List.append_nil _

theorem advance_posts {task : TaskId} {target : TaskState} {reason : String} {stamp : Stamp}
    (unbooked : target.isTerminal = false ∨ loses ∧ target ≠ .completed) :
    Posting loses (advance task target reason stamp) h := by
  refine advance_ensures ?_ (fun _ => .refl)
  intro node transition attempt found legal _ _
  refine .single (.moved found (TaskState.not_terminal_of_allowed legal) unbooked rfl ⟨rfl, rfl, ?_, .refl _⟩ rfl)
  rw [failuresOf_append]
  exact List.append_nil _

/-- A completed task is booked with its result. -/
theorem complete_posts {task : TaskId} {reason : String} {stamp : Stamp} {agent : AgentDescriptor}
    {result : TaskResult} {queueWaitMs : Nat} {now : DateTime} :
    Posting loses (do
      advance task .completed reason stamp
      recordSuccess agent result queueWaitMs now
      emit) h := by
  unfold Posting
  rw [ensures_bind]
  refine advance_ensures ?_ (fun _ => .refl)
  intro node transition attempt found legal _ _
  simp only [recordSuccess, releaseAgent, emit, ensures_bind, ensures_modify]
  refine .single (.succeeded result found (TaskState.not_terminal_of_allowed legal) rfl rfl rfl ?_
    ⟨rfl, rfl, rfl, rfl, rfl, rfl, rfl⟩ rfl)
  rw [failuresOf_append, failuresOf_append]
  exact (List.append_nil _).trans (List.append_nil _)

/-- A failed attempt is booked with its failure. -/
theorem failTask_posts {task : TaskNode} {failureState : TaskState} (unfinished : failureState.isTerminal = false)
    {errorKind errorMessage : String} {retryable : Bool} {validationFailures : List String} {stamp : Stamp} :
    Posting loses (failTask task failureState errorKind errorMessage retryable validationFailures stamp) h := by
  unfold failTask
  refine .bind (advance_posts (Or.inl unfinished)) ?_
  intro _ h₁ _
  unfold Posting
  simp only [ensures_bind]
  refine advance_ensures ?_ (fun _ => .refl)
  intro node transition attempt found legal _ _
  simp only [emit, ensures_modify]
  have logged : ∀ failure, failuresOf
      ((h₁.journal ++ [.taskTransitioned h₁.graph.jobId transition task.id attempt]) ++
      [.taskFailed task.jobId failure]) = failuresOf h₁.journal ++ [failure] := by
    intro failure
    rw [failuresOf_append, failuresOf_append]
    exact congrArg (· ++ [failure]) (List.append_nil _)
  cases retryable <;> exact .single (.failed _ found (TaskState.not_terminal_of_allowed legal) rfl rfl rfl (logged _)
    ⟨rfl, rfl, rfl, rfl, rfl, rfl, rfl⟩ rfl)

theorem applyOutcome_posts {queue : InMemoryQueue} {dispatch : Dispatch} {outcome : Outcome} {now : DateTime} :
    Posting loses (applyOutcome config queue h dispatch outcome now).2 h := by
  unfold applyOutcome
  split
  · split
    · dsimp only
      split
      · exact complete_posts
      · exact .bind releaseAgent_posts (fun _ _ _ => failTask_posts rfl)
    · exact .bind releaseAgent_posts (fun _ _ _ => failTask_posts rfl)
  · exact .bind releaseAgent_posts (fun _ _ _ => failTask_posts rfl)
  · exact .bind releaseAgent_posts (fun _ _ _ => failTask_posts rfl)

theorem enter_posts {now : DateTime} : Posting loses (enter toposort now) h :=
  .bind setStatus_posts (fun _ _ _ => .bind .get (fun _ _ _ => .liftExcept _))

theorem spawnAgents_posts {ids : Nat → AgentId} {target : Nat} {now : DateTime} :
    Posting loses (spawnAgents config ids target now) h :=
  .bind .get (fun _ _ _ => .bind (.liftExcept _) (fun _ _ _ =>
    .modify (.quiet ⟨fun _ => rfl, ⟨rfl, rfl, rfl, ⟨rfl, rfl, rfl, rfl, rfl, rfl, rfl⟩⟩, rfl⟩)))

theorem growPool_posts {id : AgentId} {agentType : AgentType} {now : DateTime} :
    Posting loses (growPool config id agentType now) h :=
  .bind .get (fun _ _ _ => .bind (.liftExcept _) (fun _ _ _ => .bind emit_posts (fun _ _ _ =>
    .modify (.quiet ⟨fun _ => rfl, ⟨rfl, rfl, rfl, ⟨rfl, rfl, rfl, rfl, rfl, rfl, rfl⟩⟩, rfl⟩))))

theorem beginTick_posts {paused : Bool} {now : DateTime} : Posting loses (beginTick paused now) h := by
  have plans : ∀ h', Posting loses (planTick now) h' := by
    intro h'
    refine .bind .get (fun _ _ _ => ?_)
    split
    · exact .bind emit_posts (fun _ _ _ => .pure _)
    · exact .pure _
  unfold beginTick
  cases paused with
  | true => exact .bind setStatus_posts (fun _ _ _ => plans _)
  | false => exact plans h

theorem promote_posts {task : TaskId} {now : DateTime} : Posting loses (promote config task now) h := by
  refine .bind .get (fun _ _ _ => .bind (advance_posts (Or.inl rfl)) (fun _ _ _ => .bind .get (fun _ _ _ => ?_)))
  split
  · exact .throw _
  · exact .pure _

theorem startTask_posts {lease : TaskLease} {agent : AgentDescriptor} {now : DateTime} :
    Posting loses (startTask config lease agent now) h := by
  have hands : ∀ h', Posting loses (handOver config lease agent now) h' := fun _ =>
    .bind .get (fun _ _ _ => .bind (advance_posts (Or.inl rfl)) (fun _ _ _ => .bind (advance_posts (Or.inl rfl))
      (fun _ _ _ => .bind .get (fun _ _ _ => .bind emit_posts (fun _ _ _ => .pure _)))))
  refine .bind (.modify (.quiet ⟨fun wanted => TaskGraph.count_update_attempt _ _ _ wanted,
    ⟨rfl, rfl, rfl, .refl _⟩, rfl⟩)) (fun _ _ _ => .bind .get (fun _ _ _ => ?_))
  split
  · exact .bind (advance_posts (Or.inl rfl)) (fun _ _ _ => hands _)
  · exact hands _

/-- The tasks behind an abandoned one are given up without an entry. -/
theorem abandonStranded_posts (gives : h.graph.blockedByAbandoned ≠ [] → loses) {now : DateTime} :
    Posting loses (abandonStranded config now) h := by
  unfold Posting abandonStranded
  simp only [ensures_bind, ensures_get]
  split
  · exact Posting.pure _
  · rename_i stranded
    have lost : loses := gives (fun empty => stranded (List.isEmpty_iff.mpr empty))
    exact Posting.bind (.forM (fun _ _ _ => .bind (advance_posts (Or.inr ⟨lost, by simp⟩)) (fun _ _ _ => emit_posts)))
      (fun _ _ _ => .pure _)

/-- So are the open tasks of a cancelled job. -/
theorem cancelPending_posts (gives : (∃ node ∈ h.graph.nodes.values, node.isTerminal = false) → loses)
    {now : DateTime} :
    Posting loses (cancelPending config now) h := by
  unfold Posting cancelPending
  simp only [ensures_bind, ensures_get]
  refine Posting.forM ?_
  intro task member h'
  obtain ⟨node, pending, rfl⟩ := List.mem_map.mp member
  obtain ⟨inside, isOpen⟩ := List.mem_filter.mp pending
  have lost : loses := gives ⟨node, inside, by simpa using isOpen⟩
  refine .bind .get (fun _ _ _ => ?_)
  split
  · exact .bind (advance_posts (Or.inl rfl)) (fun _ _ _ => advance_posts (Or.inr ⟨lost, by simp⟩))
  · exact advance_posts (Or.inr ⟨lost, by simp⟩)

theorem setLatencyPercentiles_counts (statistics : ExecutionStatistics) (latenciesMs : List Nat) :
    statistics.SameCounts (statistics.setLatencyPercentiles latenciesMs) ∧
      (statistics.setLatencyPercentiles latenciesMs).tasksTotal = statistics.tasksTotal := by
  unfold ExecutionStatistics.setLatencyPercentiles
  split <;> exact ⟨⟨rfl, rfl, rfl, rfl, rfl, rfl, rfl⟩, rfl⟩

/-- The final result has the counters of the books, and the number of tasks that they give. -/
theorem conclude_publishes {status : JobStatus} :
    Ensures (conclude status input) h
      (fun _ h' => h'.graph = h.graph ∧ SameEntries h h' ∧ ∃ result, h'.finalResult = some result ∧
        h.statistics.SameCounts result.executionStatistics ∧
        result.executionStatistics.tasksTotal = h.statistics.tasksTotal)
      (fun _ h' => h' = h) := by
  simp only [conclude, ensures_bind, ensures_get]
  refine setStatus_ensures ?_ (fun _ => rfl)
  intro _
  simp only [emit, ensures_modify, ensures_pure]
  refine ⟨trivial, ⟨rfl, rfl, ?_, ⟨rfl, rfl, rfl, rfl, rfl, rfl, rfl⟩⟩, _, rfl, .refl _, rfl⟩
  rw [failuresOf_append, failuresOf_append]
  exact (List.append_nil _).trans (List.append_nil _)

/-- The last step books nothing, and publishes what is in the books. -/
theorem finish_publishes {cancelled : Bool} {spawned : Nat} :
    Ensures (finish cancelled spawned input) h
      (fun _ h' => h'.graph = h.graph ∧ SameEntries h h' ∧ ∃ result, h'.finalResult = some result ∧
        h.statistics.SameCounts result.executionStatistics ∧ result.executionStatistics.tasksTotal = h.graph.len)
      (fun _ h' => h'.graph = h.graph ∧ SameEntries h h' ∧ h'.finalResult = h.finalResult) := by
  simp only [finish, ensures_bind, ensures_get, ensures_modify]
  generalize same : ({ h with statistics := _ } : JobHandle) = h₁
  obtain ⟨graph, entries, final, total⟩ : h₁.graph = h.graph ∧ SameEntries h h₁ ∧ h₁.finalResult = h.finalResult ∧
      h₁.statistics.tasksTotal = h.graph.len := by
    subst same
    let closing : ExecutionStatistics := { h.statistics with
      wallClockMs := input.elapsedMs
      tasksTotal := h.graph.counts.total
      agentsSpawned := max h.statistics.agentsSpawned spawned }
    have closes : h.statistics.SameCounts closing := ⟨rfl, rfl, rfl, rfl, rfl, rfl, rfl⟩
    obtain ⟨counts, total⟩ := setLatencyPercentiles_counts closing h.latencies
    exact ⟨rfl, ⟨rfl, rfl, rfl, closes.trans counts⟩, rfl, total.trans h.graph.total_counts⟩
  have rest : ∀ h₂, h₂.graph = h₁.graph → SameEntries h₁ h₂ → h₂.finalResult = h₁.finalResult →
      h₂.statistics = h₁.statistics → Ensures (conclude (finalStatus cancelled h.graph.counts) input) h₂
      (fun _ h' => h'.graph = h.graph ∧ SameEntries h h' ∧ ∃ result, h'.finalResult = some result ∧
        h.statistics.SameCounts result.executionStatistics ∧ result.executionStatistics.tasksTotal = h.graph.len)
      (fun _ h' => h'.graph = h.graph ∧ SameEntries h h' ∧ h'.finalResult = h.finalResult) := by
    intro h₂ graph₂ entries₂ final₂ statistics
    refine conclude_publishes.mono ?_ ?_
    · rintro _ h' ⟨graph', entries', result, present, counts, number⟩
      refine ⟨graph'.trans (graph₂.trans graph), entries.trans (entries₂.trans entries'), result, present, ?_, ?_⟩
      · exact entries.counts.trans (entries₂.counts.trans counts)
      · rw [number, statistics, total]
    · rintro _ _ rfl
      exact ⟨graph₂.trans graph, entries.trans entries₂, final₂.trans final⟩
  cases cancelled with
  | true => exact rest h₁ rfl (.refl h₁) rfl rfl
  | false =>
    simp only [Bool.not_false, if_true, ensures_bind]
    refine setStatus_ensures (fun _ => rest _ rfl ⟨rfl, rfl, ?_, .refl _⟩ rfl rfl) (fun _ => ⟨graph, entries, final⟩)
    rw [failuresOf_append]
    exact List.append_nil _

end Engine

end Swarm
