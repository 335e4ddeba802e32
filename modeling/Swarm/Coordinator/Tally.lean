import Swarm.Coordinator.Lifetimes
import Swarm.Domain.Built

namespace Swarm
open Recovery

/-- petgraph knows the dependencies of every task, each of them once. -/
structure TaskGraph.Wired (g : TaskGraph) : Prop where
  agrees : g.Agrees 0
  nodup : ∀ task node, g.get task = some node → node.dependencies.Nodup

/-- A draft whose last stage can be depended on. -/
structure Draft.Wired (draft : Draft) : Prop where
  graph : draft.graph.Wired
  nodup : draft.stage.Nodup
  known : ∀ task ∈ draft.stage, (draft.graph.get task).isSome = true

theorem TaskGraph.insert_get {g next : TaskGraph} {node : TaskNode} {id : TaskId}
    (run : g.insert node = .ok (id, next)) :
    id = node.id ∧ g.get id = none ∧ ∀ task, next.get task = if task = id then some node else g.get task := by
  unfold TaskGraph.insert at run
  split at run
  · cases run
  · rename_i fresh
    split at run
    · cases run
    · cases run
      exact ⟨rfl, Option.not_isSome_iff_eq_none.mp fresh, fun task => Dict.get?_insert⟩

section
variable {overflow : Overflow} {tools : TextTools} {complexity : Nat} {ids : Nat → TaskId} {job : Job}

theorem placeSlot_wired {topics : List String} {stageIndex : Nat} {stage : Stage} {previous : List TaskId}
    {draft draft' : Draft} {slot : Nat} (wired : draft.Wired) (distinct : previous.Nodup)
    (run : placeSlot complexity ids job topics stageIndex stage previous draft slot = .ok draft') : draft'.Wired := by
  obtain ⟨id, graph, placed, rfl⟩ := placeSlot_ok run
  have inserted := TaskGraph.insert_of_insertIndexed placed
  obtain ⟨_, fresh, get⟩ := TaskGraph.insert_get inserted
  have agrees := wired.graph.agrees.insert inserted
  rw [Nat.zero_sub] at agrees
  refine ⟨⟨agrees, ?_⟩, ?_, ?_⟩
  · intro task node found
    simp only [get] at found
    split at found
    · cases found
      exact distinct
    · exact wired.graph.nodup task node found
  · rw [List.nodup_append]
    refine ⟨wired.nodup, List.nodup_singleton _, ?_⟩
    rintro task old _ new rfl
    have known := wired.known task old
    rw [List.mem_singleton.mp new, fresh] at known
    cases known
  · intro task member
    simp only [get]
    split
    · rfl
    · rename_i other
      rcases List.mem_append.mp member with old | new
      · exact wired.known task old
      · exact absurd (List.mem_singleton.mp new) other

theorem placeStage_wired {topics : List String} {draft draft' : Draft} {stage : Stage × Nat} (wired : draft.Wired)
    (run : placeStage complexity ids job topics draft stage = .ok draft') : draft'.Wired := by
  unfold placeStage at run
  refine (foldlM_keeps Draft.Wired Draft.Wired ?_ (fun _ same => same) run ⟨wired.graph, List.nodup_nil, ?_⟩).1
  · intro _ _ _ _ here run
    exact placeSlot_wired here wired.nodup run
  · intro task member
    cases member

/-- A compiled graph lists every dependency once, on both sides. -/
theorem decompose_wired {toposort : DiGraph TaskId → Except Nat (List Nat)} {graph : TaskGraph}
    (run : decompose overflow tools ids job toposort = .ok graph) : graph.Wired := by
  obtain ⟨complexity, topics, draft, _, _, built, rfl⟩ := decompose_drafted run
  have start : Draft.Wired ⟨.new job.id, 0, []⟩ := by
    refine ⟨⟨TaskGraph.agrees_new job.id, ?_⟩, List.nodup_nil, ?_⟩
    · intro task node found
      cases found
    · intro task member
      cases member
  refine ((foldlM_keeps Draft.Wired Draft.Wired ?_ (fun _ same => same) built start).1).graph
  intro _ _ _ _ here run
  exact placeStage_wired here run

end

theorem TaskGraph.Wired.update {g : TaskGraph} (wired : g.Wired) (task : TaskId) {change : TaskNode → TaskNode}
    (keeps : ∀ node, (change node).dependencies = node.dependencies) : (g.update task change).Wired := by
  refine ⟨wired.agrees.update task keeps, ?_⟩
  intro other node found
  rw [get_update] at found
  split at found
  · obtain ⟨old, known, rfl⟩ := Option.map_eq_some_iff.mp found
    rw [keeps]
    exact wired.nodup task old known
  · exact wired.nodup other node found

theorem TaskGraph.Wired.rehash {g : TaskGraph} (wired : g.Wired) {nodes : Dict TaskId TaskNode}
    (moved : g.nodes.Rehash nodes) :
    TaskGraph.Wired { g with nodes := nodes } := by
  have get : ∀ task, TaskGraph.get { g with nodes := nodes } task = g.get task := fun task => (moved.get? task).symm
  refine ⟨⟨wired.agrees.complete, wired.agrees.named, ?_, wired.agrees.ends, ?_, wired.agrees.ordered,
    wired.agrees.acyclic⟩, ?_⟩
  · intro task
    rw [get]
    exact wired.agrees.known task
  · intro task node index found there
    rw [get] at found
    exact wired.agrees.fields found there
  · intro task node found
    rw [get] at found
    exact wired.nodup task node found

/-- Every completed task has its result, and every result was validated. -/
structure JobHandle.Tallied (h : JobHandle) : Prop where
  wired : h.graph.Wired
  recorded : ∀ task, h.graph.stateOf task = some .completed → ∃ result ∈ h.results, result.taskId = task
  validated : ∀ result ∈ h.results, result.passedValidation = true

namespace JobHandle.Tallied
variable {h h' : JobHandle}

theorem move (tallied : h.Tallied) (move : Move h h') : h'.Tallied := by
  cases move with
  | quiet same =>
    refine ⟨by rw [same.graph]; exact tallied.wired, ?_, by rw [same.results]; exact tallied.validated⟩
    rw [same.graph, same.results]
    exact tallied.recorded
  | attempt task attempt _ =>
    refine ⟨tallied.wired.update task (fun _ => rfl), ?_, tallied.validated⟩
    intro other done
    simp only [TaskGraph.stateOf_update_attempt] at done
    exact tallied.recorded other done
  | rehash moved =>
    refine ⟨tallied.wired.rehash moved, ?_, tallied.validated⟩
    intro other done
    simp only [TaskGraph.stateOf_rehash moved] at done
    exact tallied.recorded other done
  | @advance task target node transition attempt _ found _ other _ _ _ =>
    refine ⟨tallied.wired.update task (fun _ => rfl), ?_, tallied.validated⟩
    intro moved done
    simp only [TaskGraph.stateOf_update_state found] at done
    split at done
    · exact absurd (Option.some.inj done) other.1
    · exact tallied.recorded moved done
  | @complete task node transition attempt result _ found _ _ taskId _ _ passed =>
    refine ⟨tallied.wired.update task (fun _ => rfl), ?_, ?_⟩
    · intro moved done
      simp only [TaskGraph.stateOf_update_state found] at done
      split at done
      · rename_i same
        exact ⟨result, List.mem_append_right _ (List.mem_singleton_self _), taskId.trans same.symm⟩
      · obtain ⟨earlier, member, same⟩ := tallied.recorded moved done
        exact ⟨earlier, List.mem_append_left _ member, same⟩
    · intro any member
      rcases List.mem_append.mp member with old | new
      · exact tallied.validated any old
      · rw [List.mem_singleton.mp new]
        exact passed
  | failed _ _ => exact ⟨tallied.wired, tallied.recorded, tallied.validated⟩
  | status _ _ _ _ _ => exact ⟨tallied.wired, tallied.recorded, tallied.validated⟩
  | finish _ _ _ _ _ _ => exact ⟨tallied.wired, tallied.recorded, tallied.validated⟩

theorem moves (tallied : h.Tallied) (moves : Moves h h') : h'.Tallied := by
  induction moves with
  | refl => exact tallied
  | tail _ last ih => exact ih.move last

end JobHandle.Tallied

/-- Results are only ever added. -/
theorem results_moves {h h' : JobHandle} (moves : Moves h h') : h.results <+: h'.results := by
  induction moves with
  | refl => exact List.prefix_refl _
  | tail _ last ih =>
    refine ih.trans ?_
    cases last with
    | quiet same => rw [same.results]
    | complete => exact List.prefix_append _ _
    | _ => exact List.prefix_refl _

/-- The context of a dispatched task: one output for each direct dependency, the recorded one. -/
structure Dispatch.Informed (h : JobHandle) (dispatch : Dispatch) : Prop where
  complete : ∃ node, h.graph.get dispatch.task.id = some node ∧ node.dependencies.Nodup ∧
    (dispatch.context.upstream.map UpstreamOutput.taskId).Perm node.dependencies
  recorded : ∀ output ∈ dispatch.context.upstream, ∃ result ∈ h.results,
    result.taskId = output.taskId ∧ result.title = output.title ∧ result.output = output.output

theorem Dispatch.Informed.moves {h h' : JobHandle} {dispatch : Dispatch} (informed : dispatch.Informed h)
    (moves : Moves h h') :
    dispatch.Informed h' := by
  obtain ⟨node, found, distinct, outputs⟩ := informed.complete
  have blanks := (moves_extends moves).blanks dispatch.task.id
  rw [found] at blanks
  obtain ⟨current, known, same⟩ := Option.map_eq_some_iff.mp blanks
  have dependencies : current.dependencies = node.dependencies := by simpa using congrArg TaskNode.dependencies same
  refine ⟨⟨current, known, by rw [dependencies]; exact distinct, by rw [dependencies]; exact outputs⟩, ?_⟩
  intro output member
  obtain ⟨result, old, fits⟩ := informed.recorded output member
  exact ⟨result, (results_moves moves).subset old, fits⟩

/-- A task is handed over with the results of all its dependencies. -/
theorem upstream_informed {job : Job} {tasks : List TaskNode} {h : JobHandle} (sync : Sync job tasks h)
    (tallied : h.Tallied) {dispatch : Dispatch} (running : h.graph.stateOf dispatch.task.id = some .running)
    (upstream : dispatch.context.upstream = Engine.upstreamOutputs h dispatch.task) : dispatch.Informed h := by
  obtain ⟨node, found, state⟩ := Option.map_eq_some_iff.mp running
  have unblocked := sync.promoted _ node found (by rw [state]; rfl)
  obtain ⟨index, there⟩ := tallied.wired.agrees.index_of_get (by rw [found]; rfl)
  have dependencies := (tallied.wired.agrees.dependencies_perm there).trans (tallied.wired.agrees.fields found there)
  have present : ∀ dependency ∈ h.graph.dependencies dispatch.task.id,
      ∃ result, h.results.find? (fun result => result.taskId == dependency) = some result := by
    intro dependency depends
    obtain ⟨result, member, same⟩ := tallied.recorded _ (unblocked dependency (dependencies.mem_iff.mp depends))
    refine Option.isSome_iff_exists.mp (List.find?_isSome.mpr ⟨result, member, ?_⟩)
    rw [same, beq_self_eq_true]
  have named : dispatch.context.upstream.map UpstreamOutput.taskId = h.graph.dependencies dispatch.task.id := by
    rw [upstream, Engine.upstreamOutputs, List.map_filterMap]
    refine (List.filterMap_congr ?_).trans List.filterMap_some
    intro dependency depends
    obtain ⟨result, here⟩ := present dependency depends
    have same := List.find?_some here
    rw [here]
    exact congrArg some (beq_iff_eq.mp same)
  refine ⟨⟨node, found, tallied.wired.nodup _ node found, by rw [named]; exact dependencies⟩, ?_⟩
  intro output member
  rw [upstream, Engine.upstreamOutputs] at member
  obtain ⟨dependency, _, here⟩ := List.mem_filterMap.mp member
  obtain ⟨result, known, rfl⟩ := Option.map_eq_some_iff.mp here
  exact ⟨result, List.mem_of_find?_eq_some known, rfl, rfl, rfl⟩

/-- A job with its results in order, and its dispatched tasks informed of them. -/
structure JobRun.Tallied (run : JobRun) : Prop where
  handle : run.handle.Tallied
  informed : ∀ dispatch ∈ run.pc.dispatches, dispatch.Informed run.handle

/-- What an engine has in hand was in hand before, but for a task that it has just started. -/
theorem Effect.dispatches {input : EngineInput} {run run' : JobRun} {q q' : InMemoryQueue}
    (effect : Effect input run run' q q') {dispatch : Dispatch} (member : dispatch ∈ run'.pc.dispatches) :
    dispatch ∈ run.pc.dispatches ∨ dispatch.context.upstream = Engine.upstreamOutputs run'.handle dispatch.task := by
  cases effect with
  | steady _ _ fewer _ _ => exact Or.inl (fewer.subset member)
  | stopped _ _ ended =>
    rw [ended] at member
    cases member
  | promoted _ _ _ next _ _ _ _ =>
    rw [next] at member
    cases member
  | started collecting _ _ _ _ next _ upstream =>
    rw [next] at member
    rcases List.mem_append.mp member with old | new
    · rw [collecting]
      exact Or.inl old
    · rw [List.mem_singleton.mp new]
      exact Or.inr upstream
  | refused collecting _ _ _ next =>
    rw [next] at member
    rw [collecting]
    exact Or.inl member
  | declined collecting _ _ _ next =>
    rw [next] at member
    rw [collecting]
    exact Or.inl member
  | dropped dropping _ next =>
    rw [next] at member
    rw [dropping]
    exact Or.inl member
  | released releasing _ _ next =>
    rw [next, (Engine.collected_dispatches run.handle _ _).1] at member
    rw [releasing]
    exact Or.inl member
  | applied applying next _ _ _ =>
    rw [next] at member
    rw [applying]
    exact Or.inl (List.mem_cons_of_mem _ member)
  | retired _ _ next =>
    rcases next with next | next <;> rw [next] at member <;> cases member
  | cancelled _ empty =>
    rw [empty] at member
    cases member

namespace Cluster
variable {config : CoordinatorConfig} {tools : TextTools} {toposort : DiGraph TaskId → Except Nat (List Nat)}

theorem tallied_planned {submission : Submission} {job : Job} {graph : TaskGraph} {nodes : Dict TaskId TaskNode}
    (planned : submission.plan config tools toposort = .ok (job, graph)) (moved : graph.nodes.Rehash nodes) :
    (JobRun.new (.planned job { graph with nodes := nodes })).Tallied := by
  obtain ⟨id, status, untouched, inhabited⟩ := submission.plan_ok planned
  have sync := sync_planned status untouched inhabited moved
  have wired := (decompose_wired (submission.plan_decompose planned).2.2).rehash moved
  refine ⟨⟨wired, ?_, ?_⟩, ?_⟩
  · intro task done
    obtain ⟨node, found, state⟩ := Option.map_eq_some_iff.mp done
    have member := Dict.mem_values.mpr ⟨task, Dict.get?_eq_some.mp ((moved.get? task).trans found)⟩
    rw [← (untouched.tasks node member).1] at state
    cases state
  · intro result member
    cases member
  · intro dispatch member
    cases member

/-- The results of a job that is submitted in this lifetime stay in order. -/
theorem carried_tallied : Carried config tools toposort Alive JobRun.Tallied where
  alive := id
  submitted := tallied_planned
  steered := by
    intro run h _ steers tallied
    exact ⟨tallied.handle.moves steers.moves,
      fun dispatch member => (tallied.informed dispatch member).moves steers.moves⟩
  engine := by
    intro c jobId run input sound found possible _ tallied
    obtain ⟨job, tasks, _, sync⟩ := sound.synced jobId run found
    have stepped := sound.stepped found possible
    have sync' := sync.moves stepped.moves
    have tallied' := tallied.handle.moves stepped.moves
    refine ⟨tallied', ?_⟩
    intro dispatch member
    rcases stepped.effect.dispatches member with old | new
    · exact (tallied.informed dispatch old).moves stepped.moves
    · exact upstream_informed sync' tallied' (stepped.sound.dispatched dispatch member).1 new

/-- A job that is submitted has exactly one validated result for each completed
task, and every task it dispatches gets the recorded outputs of its dependencies. -/
theorem Redelivers.results_exact (sorts : Sorts toposort) {first c : Cluster}
    (history : Redelivers config tools toposort (fun _ _ => True) new first) {jobId : JobId}
    (fresh : first.jobs.get? jobId = none) (runs : Redelivers config tools toposort Alive first c) {run : JobRun}
    (found : c.jobs.get? jobId = some run) :
    (run.handle.results.map TaskResult.taskId).Nodup ∧
      (∀ task, (∃ result ∈ run.handle.results, result.taskId = task) ↔
        run.handle.graph.stateOf task = some .completed) ∧
      (∀ result ∈ run.handle.results, result.passedValidation = true) ∧
      ∀ dispatch ∈ run.pc.dispatches, dispatch.Informed run.handle := by
  have start := history.sound sorts sound_new
  obtain ⟨job, tasks, _, sync⟩ := (runs.sound sorts start).synced jobId run found
  have tallied :=
    runs.carried carried_tallied sorts start (fun _ known => by rw [fresh] at known; cases known) run found
  have results := sync.results
  refine ⟨?_, ?_, tallied.handle.validated, tallied.informed⟩
  · rw [← results]
    exact sync.legal.results_nodup
  · intro task
    constructor
    · rintro ⟨result, member, rfl⟩
      rw [← results] at member
      have last := sync.legal.results_completed result member
      obtain ⟨node, known⟩ := Option.isSome_iff_exists.mp (sync.isSome_iff.mpr (sync.legal.lastState_planned last))
      have state : run.handle.graph.stateOf result.taskId = some node.state := by simp [TaskGraph.stateOf, known]
      have agrees := sync.states _ _ state
      unfold Agrees at agrees
      rw [last] at agrees
      split at agrees
      · rw [state, ← Option.some.inj agrees]
      · cases agrees _ rfl
    · intro done
      exact tallied.handle.recorded task done

end Cluster

/-- The second task is dispatched with the recorded output of the first one. -/
theorem results_exact_overtaken : ∃ run, overtaken.jobs.get? ⟨1⟩ = some run ∧
    run.handle.results.map TaskResult.taskId = [⟨10⟩] ∧ run.handle.graph.stateOf ⟨10⟩ = some .completed ∧
    (∀ result ∈ run.handle.results, result.passedValidation = true) ∧
    run.pc.dispatches.map (fun dispatch => dispatch.task.id) = [⟨11⟩] ∧
    ∀ dispatch ∈ run.pc.dispatches, dispatch.Informed run.handle := by
  have there : (overtaken.jobs.get? ⟨1⟩).any (fun run => run.handle.results.map TaskResult.taskId == [⟨10⟩] &&
      run.pc.dispatches.map (fun dispatch => dispatch.task.id) == [⟨11⟩]) = true := by decide +kernel
  obtain ⟨run, found, here⟩ := (Option.any_eq_true _ _).mp there
  simp only [Bool.and_eq_true, beq_iff_eq] at here
  have history : Cluster.Redelivers sampleConfig sampleReader DiGraph.sort (fun _ _ => True) .new .new := .start
  have runs : Cluster.Redelivers sampleConfig sampleReader DiGraph.sort Cluster.Alive .new overtaken :=
    redelivers_overtaken (fun _ same => by cases same) (fun _ _ _ same => by cases same)
  obtain ⟨_, exactly, validated, informed⟩ :=
    Cluster.Redelivers.results_exact Cluster.sample_sorts history rfl runs found
  have first : ⟨10⟩ ∈ run.handle.results.map TaskResult.taskId := by
    rw [here.1]
    exact List.mem_singleton_self _
  obtain ⟨result, member, same⟩ := List.mem_map.mp first
  exact ⟨run, found, here.1, (exactly ⟨10⟩).mp ⟨result, member, same⟩, validated, here.2, informed⟩

end Swarm
