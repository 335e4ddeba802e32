import Mathlib.Data.List.GetD
import Swarm.Coordinator.Stages

namespace Swarm
variable {complexity : Nat} {ids : Nat → TaskId} {job : Job} {topics : List String}

/-- No stage is wider than the number of agents asked for. -/
theorem fanout_le {strategy : ExecutionStrategy} {fanout : Nat} (positive : 1 ≤ fanout) :
    ∀ stage ∈ stages strategy fanout, stage.fanout ≤ fanout := by
  intro stage member
  cases strategy <;> simp only [stages, Stage.new, List.mem_cons, List.mem_append, List.mem_map, List.not_mem_nil,
    or_false] at member
  case sequential =>
    rcases member with (rfl | ⟨_, _, rfl⟩) | rfl <;> exact positive
  all_goals
    rcases member with rfl | rfl | rfl | rfl | rfl <;> dsimp only <;> omega

theorem nodup_titles (unique : topics.Nodup) (stage : Stage × Nat) (enough : stage.1.fanout ≤ topics.length)
    (previous : List TaskId) (drawn : Nat) :
    ((slotTasks complexity ids job topics stage previous drawn stage.1.fanout).map TaskNode.title).Nodup := by
  unfold slotTasks
  rw [List.map_map]
  refine List.Nodup.map_on ?_ List.nodup_range
  intro left first right second same
  have inside := List.mem_range.mp first
  have inside' := List.mem_range.mp second
  by_cases single : stage.1.fanout = 1
  · omega
  · simp only [Function.comp_apply, slotTask, TaskNode.new, if_neg single, String.append_right_inj] at same
    rw [Nat.mod_eq_of_lt (Nat.lt_of_lt_of_le inside enough), Nat.mod_eq_of_lt (Nat.lt_of_lt_of_le inside' enough),
      List.getD_eq_getElem _ _ (Nat.lt_of_lt_of_le inside enough),
      List.getD_eq_getElem _ _ (Nat.lt_of_lt_of_le inside' enough)] at same
    exact (List.Nodup.getElem_inj_iff unique).mp same

theorem pipeline_key {plan : List (Stage × Nat)} {previous : List TaskId} {drawn : Nat} {node : TaskNode}
    (member : node ∈ pipeline complexity ids job topics plan previous drawn) :
    node.idempotencyKey = taskKey job.id node.kind node.title node.stage := by
  obtain ⟨_, _, _, _, _, rfl⟩ := mem_pipeline member
  rfl

theorem widest_le {plan : List Stage} {stage : Stage} (member : stage ∈ plan) :
    stage.fanout ≤ ((plan.map Stage.fanout).max?).getD 1 := by
  have listed := List.mem_map_of_mem (f := Stage.fanout) member
  cases found : (plan.map Stage.fanout).max? with
  | none =>
    rw [List.max?_eq_none_iff.mp found] at listed
    cases listed
  | some widest => exact (List.max?_eq_some_iff.mp found).2 _ listed

section
variable {graph : TaskGraph} {plan : List Stage}
  (holds : graph.Holds (pipeline complexity ids job topics plan.zipIdx [] 0))
include holds

theorem titles_ofStage (unique : topics.Nodup) (enough : ∀ stage ∈ plan, stage.fanout ≤ topics.length) (index : Nat) :
    ((graph.ofStage index).map TaskNode.title).Nodup := by
  cases planned : plan[index]? with
  | none =>
    have empty : graph.ofStage index = [] := by
      refine List.eq_nil_iff_forall_not_mem.mpr fun node listed => ?_
      obtain ⟨found, rfl⟩ := (mem_ofStage holds).mp listed
      exact absurd (stage_lt holds found) (Nat.not_lt.mpr (List.getElem?_eq_none_iff.mp planned))
    rw [empty]
    exact List.nodup_nil
  | some stage =>
    obtain ⟨before, count, part⟩ := ofStage_eq holds planned
    rw [part]
    exact nodup_titles unique (stage, index) (enough stage (List.mem_of_getElem? planned)) before count

/-- As long as the hash tells the titles of a stage apart, no two tasks have the same key. -/
theorem nodup_keys (titles : ∀ index, ((graph.ofStage index).map TaskNode.title).Nodup)
    (apart : ∀ left ∈ graph.nodes.values, ∀ right ∈ graph.nodes.values, left.stage = right.stage →
      stableHash (Utf8.encode left.title.toList) = stableHash (Utf8.encode right.title.toList) →
        left.title = right.title) :
    (graph.nodes.values.map TaskNode.idempotencyKey).Nodup := by
  rw [holds.values] at apart ⊢
  refine List.Nodup.map_on ?_ (List.Nodup.of_map _ holds.shaped.ordered.nodup)
  intro left first right second same
  rw [pipeline_key first, pipeline_key second] at same
  obtain ⟨level, hashes⟩ := taskKey_inj same
  have here : ∀ node ∈ pipeline complexity ids job topics plan.zipIdx [] 0, node ∈ graph.ofStage node.stage :=
    fun node member => (mem_ofStage holds).mpr ⟨holds.get_iff.mpr ⟨member, rfl⟩, rfl⟩
  exact List.inj_on_of_nodup_map (titles right.stage) (level ▸ here left first) (here right second)
    (apart left first right second level hashes)

end

/-- A pipeline has a task for every slot. -/
theorem pipeline_length (complexity : Nat) (ids : Nat → TaskId) (job : Job) (topics : List String) (plan : List Stage)
    (index : Nat) (previous : List TaskId) (drawn : Nat) :
    (pipeline complexity ids job topics (plan.zipIdx index) previous drawn).length = (plan.map Stage.fanout).sum := by
  induction plan generalizing index previous drawn with
  | nil => rfl
  | cons stage rest ih =>
    rw [List.zipIdx_cons, pipeline, List.length_append, ih, slotTasks, List.length_map, List.length_range]
    rfl

/-- How many dependencies the tasks of some stages have, where the stage before them has `width` tasks. -/
def stageEdges (width : Nat) : List Stage → Nat
  | [] => 0
  | stage :: rest => width * stage.fanout + stageEdges stage.fanout rest

theorem planEdges_pipeline (complexity : Nat) (ids : Nat → TaskId) (job : Job) (topics : List String)
    (plan : List Stage) (index : Nat) (previous : List TaskId) (drawn : Nat) :
    planEdges (pipeline complexity ids job topics (plan.zipIdx index) previous drawn) =
      stageEdges previous.length plan := by
  induction plan generalizing index previous drawn with
  | nil => rfl
  | cons stage rest ih =>
    have here : planEdges (slotTasks complexity ids job topics (stage, index) previous drawn stage.fanout) =
        previous.length * stage.fanout := by
      simp only [planEdges, slotTasks, List.map_map, Function.comp_def, slotTask, List.map_const', List.length_range,
        List.sum_replicate_nat]
      exact Nat.mul_comm _ _
    rw [List.zipIdx_cons, pipeline, planEdges_append, here, ih, stageEdges]
    simp [planIds, slotTasks]

/-- The job can be compiled: the counter of the padding loop has enough values for its widest stage, a
checked sum takes the measures of its text, and petgraph has indices for its tasks and their dependencies. -/
structure Job.Compilable (overflow : Overflow) (tools : TextTools) (job : Job) : Prop where
  topics : TopicsFit overflow tools job.request.objective
    ((((stages job.request.executionStrategy (max job.request.maxAgents 1)).map Stage.fanout).max?).getD 1)
  measured : overflow = .panics → 2 + fromLength job.request.objective +
    fromStructure tools job.request.objective < 2 ^ 32
  tasks : ((stages job.request.executionStrategy (max job.request.maxAgents 1)).map Stage.fanout).sum ≤ indexEnd
  edges : stageEdges 0 (stages job.request.executionStrategy (max job.request.maxAgents 1)) ≤ indexEnd

theorem estimateComplexity_ok {overflow : Overflow} {tools : TextTools} {objective : String} :
    (∃ complexity, estimateComplexity overflow tools objective = .ok complexity) ↔
      (overflow = .panics → 2 + fromLength objective + fromStructure tools objective < 2 ^ 32) := by
  unfold estimateComplexity
  cases overflow with
  | wraps => exact ⟨fun _ wrong => (by cases wrong), fun _ => ⟨_, rfl⟩⟩
  | panics =>
    simp only [addU32, forall_const, bind, Except.bind]
    by_cases first : 2 + fromLength objective < 2 ^ 32
    · simp only [first, if_true]
      by_cases second : 2 + fromLength objective + fromStructure tools objective < 2 ^ 32
      · simp only [second, if_true, iff_true]
        exact ⟨_, rfl⟩
      · simp only [second, if_false, iff_false]
        rintro ⟨_, run⟩
        cases run
    · simp only [first, if_false]
      constructor
      · rintro ⟨_, run⟩
        cases run
      · intro small
        omega

section
variable {overflow : Overflow} {tools : TextTools} {toposort : DiGraph TaskId → Except Nat (List Nat)}

/-- What `decompose` returns, if it returns: a graph with the tasks of all stages. -/
theorem decompose_holds {graph : TaskGraph} (run : decompose overflow tools ids job toposort = .ok graph) :
    job.Compilable overflow tools ∧ ∃ complexity topics, topics.Nodup ∧
      (∀ stage ∈ stages job.request.executionStrategy (max job.request.maxAgents 1), stage.fanout ≤ topics.length) ∧
      graph.Holds (pipeline complexity ids job topics
        (stages job.request.executionStrategy (max job.request.maxAgents 1)).zipIdx [] 0) := by
  obtain ⟨complexity, topics, draft, measured, split, built, rfl⟩ := decompose_drafted run
  obtain ⟨first, inside⟩ := List.exists_mem_of_ne_nil _
    (stages_ne_nil job.request.executionStrategy (max job.request.maxAgents 1))
  have positive := Nat.le_trans (one_le_fanout first inside) (widest_le inside)
  have fit := fit_of_subtopics positive split
  obtain ⟨_, _, _, again, length, unique⟩ := subtopics_of_fit positive fit
  obtain rfl := Except.ok.inj (split.symm.trans again)
  have drafts := placeStages_drafts (TaskGraph.Drafts.new job.id) built
  rw [List.nil_append] at drafts
  obtain ⟨tasks, edges⟩ := drafts.indexable
  rw [pipeline_length] at tasks
  rw [planEdges_pipeline] at edges
  refine ⟨⟨fit, estimateComplexity_ok.mp ⟨complexity, measured⟩, tasks, edges⟩, complexity, topics, unique, ?_,
    drafts.holds⟩
  intro stage member
  rw [length]
  exact widest_le member

/-- A job that can be compiled is. -/
theorem decompose_ok (detects : Detects toposort) (injective : Function.Injective ids)
    (compilable : job.Compilable overflow tools) :
    ∃ graph, decompose overflow tools ids job toposort = .ok graph := by
  obtain ⟨first, inside⟩ := List.exists_mem_of_ne_nil _
    (stages_ne_nil job.request.executionStrategy (max job.request.maxAgents 1))
  have positive := Nat.le_trans (one_le_fanout first inside) (widest_le inside)
  obtain ⟨complexity, measured⟩ := estimateComplexity_ok.mpr compilable.measured
  obtain ⟨topics, _, _, split, _⟩ := subtopics_of_fit positive compilable.topics
  have indexable : Indexable ([] ++ pipeline complexity ids job topics
      (stages job.request.executionStrategy (max job.request.maxAgents 1)).zipIdx [] 0) := by
    unfold Indexable
    rw [List.nil_append, pipeline_length, planEdges_pipeline]
    exact ⟨compilable.tasks, compilable.edges⟩
  obtain ⟨draft, built⟩ := placeStages_ok complexity job topics injective _ ⟨.new job.id, 0, []⟩
    (TaskGraph.Drafts.new job.id) (by simp [Drawn]) (by simp) indexable
  have drafts := placeStages_drafts (TaskGraph.Drafts.new job.id) built
  obtain ⟨order, sorted⟩ := (detects draft.graph.graph drafts.holds.shaped.valid).mpr drafts.holds.shaped.acyclic
  refine ⟨draft.graph, ?_⟩
  unfold decompose
  simp only [measured, Except.mapError, split, built, TaskGraph.assertAcyclic, sorted, bind, Except.bind]
  rfl

theorem stageEdges_le {bound : Nat} {plan : List Stage} (narrow : ∀ stage ∈ plan, stage.fanout ≤ bound) {width : Nat}
    (before : width ≤ bound) : stageEdges width plan ≤ plan.length * (bound * bound) := by
  induction plan generalizing width with
  | nil => exact Nat.zero_le _
  | cons stage rest ih =>
    have here := narrow stage List.mem_cons_self
    have later := ih (fun stage member => narrow stage (List.mem_cons_of_mem _ member)) here
    have now : width * stage.fanout ≤ bound * bound := Nat.mul_le_mul before here
    rw [stageEdges, List.length_cons, Nat.succ_mul]
    omega

theorem stageTasks_le {bound : Nat} {plan : List Stage} (narrow : ∀ stage ∈ plan, stage.fanout ≤ bound) :
    (plan.map Stage.fanout).sum ≤ plan.length * bound := by
  induction plan with
  | nil => exact Nat.zero_le _
  | cons stage rest ih =>
    have here := narrow stage List.mem_cons_self
    have later := ih (fun stage member => narrow stage (List.mem_cons_of_mem _ member))
    rw [List.map_cons, List.sum_cons, List.length_cons, Nat.succ_mul]
    omega

theorem stages_length_le (strategy : ExecutionStrategy) (fanout : Nat) : (stages strategy fanout).length ≤ 6 := by
  cases strategy <;>
    simp only [stages, List.length_cons, List.length_append, List.length_map, List.length_range, List.length_nil] <;>
    omega

theorem widest_mem {plan : List Stage} (inhabited : plan ≠ []) : ∃ stage ∈ plan,
    ((plan.map Stage.fanout).max?).getD 1 = stage.fanout := by
  cases found : (plan.map Stage.fanout).max? with
  | none => exact absurd (List.map_eq_nil_iff.mp (List.max?_eq_none_iff.mp found)) inhabited
  | some widest =>
    obtain ⟨stage, member, same⟩ := List.mem_map.mp (List.max?_eq_some_iff.mp found).1
    exact ⟨stage, member, same.symm⟩

/-- As many agents as a request may ask for can be served. -/
theorem Job.compilable_of_few (asked : 1 ≤ job.request.maxAgents) (few : job.request.maxAgents ≤ maxAgentsPerJob)
    (measured : overflow = .panics →
      2 + fromLength job.request.objective + fromStructure tools job.request.objective < 2 ^ 32) :
    job.Compilable overflow tools := by
  have narrow : ∀ stage ∈ stages job.request.executionStrategy (max job.request.maxAgents 1),
      stage.fanout ≤ maxAgentsPerJob := by
    rw [Nat.max_eq_left asked]
    exact fun stage member => Nat.le_trans (fanout_le asked stage member) few
  have size := stages_length_le job.request.executionStrategy (max job.request.maxAgents 1)
  obtain ⟨stage, member, widest⟩ :=
    widest_mem (stages_ne_nil job.request.executionStrategy (max job.request.maxAgents 1))
  refine ⟨topicsFit_of_le tools job.request.objective ?_, measured, ?_, ?_⟩
  · have least : maxAgentsPerJob ≤ overflow.rounds := by cases overflow <;> decide
    rw [widest]
    exact Nat.le_trans (narrow stage member) least
  · refine Nat.le_trans (stageTasks_le narrow) (Nat.le_trans (Nat.mul_le_mul_right _ size) ?_)
    decide
  · refine Nat.le_trans (stageEdges_le narrow (Nat.zero_le _)) (Nat.le_trans (Nat.mul_le_mul_right _ size) ?_)
    decide

/-- The tasks of each stage are a layer of the graph, no wider than asked for, and each waits for exactly the tasks of
the stage before. Their titles differ, and so do their keys, as long as the hash tells the titles of a stage apart. -/
theorem decompose_pipeline (overflow : Overflow) (tools : TextTools) (job : Job) (linearizes : Linearizes toposort)
    (injective : Function.Injective ids) (asked : 1 ≤ job.request.maxAgents)
    (compilable : job.Compilable overflow tools) :
    ∃ graph layers,
      decompose overflow tools ids job toposort = .ok graph ∧ graph.layers toposort = .ok layers ∧
      layers.length = (stages job.request.executionStrategy job.request.maxAgents).length ∧
      (∀ (index : Nat) stage, (stages job.request.executionStrategy job.request.maxAgents)[index]? = some stage →
        (∃ layer, layers[index]? = some layer ∧ layer.Perm (planIds (graph.ofStage index))) ∧
        (graph.ofStage index).map TaskNode.kind = List.replicate stage.fanout stage.kind ∧
        (graph.ofStage index).length ≤ job.request.maxAgents ∧ ((graph.ofStage index).map TaskNode.title).Nodup) ∧
      (∀ task node, graph.get task = some node → ∀ dependency,
        (dependency ∈ graph.dependencies task ↔ dependency ∈ node.dependencies) ∧
        (dependency ∈ node.dependencies ↔
          ∃ upstream, graph.get dependency = some upstream ∧ upstream.stage + 1 = node.stage)) ∧
      ((∀ left ∈ graph.nodes.values, ∀ right ∈ graph.nodes.values, left.stage = right.stage →
          stableHash (Utf8.encode left.title.toList) = stableHash (Utf8.encode right.title.toList) →
            left.title = right.title) →
        (graph.nodes.values.map TaskNode.idempotencyKey).Nodup) := by
  obtain ⟨graph, run⟩ := decompose_ok linearizes.detects injective compilable
  obtain ⟨_, complexity, topics, distinct, enough, holds⟩ := decompose_holds run
  rw [Nat.max_eq_left asked] at enough holds
  obtain ⟨layers, layered, length, stages⟩ := layers_stages holds linearizes one_le_fanout
  refine ⟨graph, layers, run, layered, length, ?_, ?_, ?_⟩
  · intro index stage planned
    have member := List.mem_of_getElem? planned
    obtain ⟨before, count, part⟩ := ofStage_eq holds planned
    refine ⟨stages index (List.getElem?_eq_some_iff.mp planned).1, ?_, ?_, titles_ofStage holds distinct enough index⟩
    · rw [part, slotTasks, List.map_map]
      change (List.range stage.fanout).map (fun _ => stage.kind) = _
      rw [List.map_const', List.length_range]
    · rw [part, slotTasks, List.length_map, List.length_range]
      exact fanout_le asked stage member
  · intro task node found dependency
    obtain ⟨member, rfl⟩ := holds.get_iff.mp found
    exact ⟨(holds.dependencies_perm member).mem_iff, dependencies_iff holds found dependency⟩
  · exact nodup_keys holds (titles_ofStage holds distinct enough)

def shortJob : Job := Job.new ⟨0⟩ ⟨0⟩ { JobRequest.new "do it" with maxAgents := 3, executionStrategy := .debate } 0

/-- The topics of a short text are padded. -/
theorem decompose_short : ∃ graph layers, decompose .panics plainTools TaskId.mk shortJob DiGraph.sort = .ok graph ∧
    graph.layers DiGraph.sort = .ok layers ∧ layers.length = 3 := by
  have injective : Function.Injective TaskId.mk := fun _ _ same => TaskId.mk.inj same
  have compilable : shortJob.Compilable .panics plainTools :=
    Job.compilable_of_few (by decide) (by decide) (fun _ => by decide +kernel)
  obtain ⟨graph, layers, run, layered, length, _⟩ :=
    decompose_pipeline .panics plainTools shortJob linearizes_sort injective (by decide) compilable
  exact ⟨graph, layers, run, layered, length⟩

def crowdedJob : Job :=
  Job.new ⟨0⟩ ⟨0⟩ { JobRequest.new "x" with maxAgents := 2 ^ 33, executionStrategy := .parallel } 0

/-- No build compiles a stage wider than the counter of the padding loop has values. -/
theorem decompose_crowded :
    (¬ ∃ graph, decompose .wraps plainTools TaskId.mk crowdedJob DiGraph.sort = .ok graph) ∧
    ¬ ∃ graph, decompose .panics plainTools TaskId.mk crowdedJob DiGraph.sort = .ok graph := by
  have widest : (((stages .parallel (max (2 ^ 33) 1)).map Stage.fanout).max?).getD 1 = 2 ^ 33 := by decide +kernel
  have bare : clauseTopics "x" = [] := by decide +kernel
  constructor <;> rintro ⟨graph, run⟩ <;>
    exact not_topicsFit bare (by decide) (widest ▸ (decompose_holds run).1.topics)

end

end Swarm
