import Swarm.Coordinator.Accepted
import Swarm.Coordinator.Topics
import Swarm.Domain.Layers

namespace Swarm

/-- The number of edges that a plan asks for. -/
def planEdges (plan : List TaskNode) : Nat := (plan.map (fun node => node.dependencies.length)).sum

@[simp] theorem planEdges_append (left right : List TaskNode) :
    planEdges (left ++ right) = planEdges left + planEdges right := by
  simp [planEdges]

/-- petgraph has an index for every task and every edge of the plan. -/
def Indexable (plan : List TaskNode) : Prop := plan.length ≤ indexEnd ∧ planEdges plan ≤ indexEnd

theorem Indexable.left {left right : List TaskNode} (indexable : Indexable (left ++ right)) : Indexable left := by
  obtain ⟨tasks, edges⟩ := indexable
  rw [List.length_append] at tasks
  rw [planEdges_append] at edges
  exact ⟨by omega, by omega⟩

/-- A graph under construction holds its plan, with one edge for each dependency, and has had indices for all. -/
structure TaskGraph.Drafts (g : TaskGraph) (plan : List TaskNode) : Prop where
  holds : g.Holds plan
  edges : g.graph.edges.length = planEdges plan
  indexable : Indexable plan

theorem TaskGraph.addEdges_length {index : Dict TaskId Nat} (nodeIndex : Nat) (graph : DiGraph TaskId)
    {dependencies : List TaskId} (known : ∀ dependency ∈ dependencies, (index.get? dependency).isSome) :
    (addEdges index nodeIndex graph dependencies).edges.length = graph.edges.length + dependencies.length := by
  unfold addEdges
  induction dependencies generalizing graph with
  | nil => rfl
  | cons first rest ih =>
    obtain ⟨i, found⟩ := Option.isSome_iff_exists.mp (known first List.mem_cons_self)
    rw [List.foldl_cons, ih _ fun dependency member => known dependency (List.mem_cons_of_mem _ member)]
    simp only [found, DiGraph.addEdge, List.length_append, List.length_cons, List.length_nil]
    omega

namespace TaskGraph.Drafts
variable {g : TaskGraph} {plan : List TaskNode}

theorem new (jobId : JobId) : (TaskGraph.new jobId).Drafts [] := ⟨Holds.new jobId, rfl, Nat.zero_le _, Nat.zero_le _⟩

theorem weights (drafts : g.Drafts plan) : g.graph.weights.length = plan.length := by
  rw [drafts.holds.shaped.weights, planIds, List.length_map]

theorem insert (drafts : g.Drafts plan) {node : TaskNode} {id : TaskId} {next : TaskGraph}
    (run : g.insertIndexed node = .ok (id, next)) : id = node.id ∧ next.Drafts (plan ++ [node]) := by
  have inserted := insert_of_insertIndexed run
  obtain ⟨own, placed, fresh, known⟩ := drafts.holds.shaped.of_insert inserted
  have indexed : ∀ dependency ∈ node.dependencies,
      ((g.index.insert node.id g.graph.weights.length).get? dependency).isSome := by
    intro dependency member
    obtain ⟨i, found, _⟩ := drafts.holds.shaped.index_isSome (known dependency member)
    have other : dependency ≠ node.id := fun same => fresh (same ▸ known dependency member)
    rw [Dict.get?_insert_of_ne other, found]
    rfl
  have edges := addEdges_length g.graph.weights.length (g.graph.addNode node.id).2 indexed
  refine ⟨own, drafts.holds.insert inserted, ?_, ?_⟩
  · rw [planEdges_append, ← drafts.edges, placed]
    exact edges
  · unfold insertIndexed at run
    rw [inserted] at run
    simp only at run
    split at run
    · rename_i room
      unfold Indexable
      rw [List.length_append, List.length_singleton, ← drafts.weights, planEdges_append, ← drafts.edges]
      exact ⟨room.1, by simpa [planEdges] using room.2⟩
    · cases run

/-- A new task whose dependencies are there goes in, as long as there are indices. -/
theorem insertIndexed_ok (drafts : g.Drafts plan) (node : TaskNode) (fresh : node.id ∉ planIds plan)
    (known : ∀ dependency ∈ node.dependencies, dependency ∈ planIds plan) (indexable : Indexable (plan ++ [node])) :
    ∃ next, g.insertIndexed node = .ok (node.id, next) := by
  obtain ⟨tasks, edges⟩ := indexable
  rw [List.length_append, List.length_singleton, ← drafts.weights] at tasks
  rw [planEdges_append, ← drafts.edges] at edges
  have room : g.graph.weights.length < indexEnd ∧ g.graph.edges.length + node.dependencies.length ≤ indexEnd := by
    refine ⟨by omega, ?_⟩
    simpa [planEdges] using edges
  refine ⟨g.place node, ?_⟩
  unfold insertIndexed
  rw [drafts.holds.shaped.insert_eq fresh known]
  exact if_pos room

end TaskGraph.Drafts

section
variable (complexity : Nat) (ids : Nat → TaskId) (job : Job) (topics : List String)

/-- The tasks for the first slots of a stage, with the number of ids that were drawn before. -/
def slotTasks (stage : Stage × Nat) (previous : List TaskId) (drawn width : Nat) : List TaskNode :=
  (List.range width).map (fun slot => slotTask complexity job topics stage.2 stage.1 previous slot
    (ids (drawn + slot)))

/-- The tasks of all stages. -/
def pipeline : List (Stage × Nat) → List TaskId → Nat → List TaskNode
  | [], _, _ => []
  | stage :: rest, previous, drawn =>
    let tasks := slotTasks complexity ids job topics stage previous drawn stage.1.fanout
    tasks ++ pipeline rest (planIds tasks) (drawn + stage.1.fanout)

end

section
variable {complexity : Nat} {ids : Nat → TaskId} {job : Job} {topics : List String}

theorem slotTasks_succ (stage : Stage × Nat) (previous : List TaskId) (drawn width : Nat) :
    slotTasks complexity ids job topics stage previous drawn (width + 1) =
      slotTasks complexity ids job topics stage previous drawn width ++
        [slotTask complexity job topics stage.2 stage.1 previous width (ids (drawn + width))] := by
  unfold slotTasks
  rw [List.range_succ, List.map_append]
  rfl

/-- The ids of a plan are among those that were drawn. -/
def Drawn (ids : Nat → TaskId) (drawn : Nat) (plan : List TaskNode) : Prop :=
  ∀ node ∈ plan, ∃ k < drawn, node.id = ids k

theorem Drawn.slotTasks (complexity : Nat) (job : Job) (topics : List String) {drawn : Nat} {plan : List TaskNode}
    (old : Drawn ids drawn plan) (stage : Stage × Nat) (previous : List TaskId) (width : Nat) :
    Drawn ids (drawn + width) (plan ++ slotTasks complexity ids job topics stage previous drawn width) := by
  intro node member
  rcases List.mem_append.mp member with before | new
  · obtain ⟨k, bound, drew⟩ := old node before
    exact ⟨k, by omega, drew⟩
  · obtain ⟨slot, inside, rfl⟩ := List.mem_map.mp new
    have bound := List.mem_range.mp inside
    exact ⟨drawn + slot, by omega, rfl⟩

theorem Drawn.fresh (injective : Function.Injective ids) {drawn : Nat} {plan : List TaskNode}
    (old : Drawn ids drawn plan) : ids drawn ∉ planIds plan := by
  intro inside
  obtain ⟨node, member, same⟩ := List.mem_map.mp inside
  obtain ⟨k, before, drew⟩ := old node member
  exact absurd (injective (drew.symm.trans same)) (Nat.ne_of_lt before)

/-- A draft that has its plan, and the ids of the stage in progress. -/
structure Draft.Follows (draft : Draft) (plan : List TaskNode) (drawn : Nat) (stage : List TaskId) : Prop where
  drafts : draft.graph.Drafts plan
  drawn : draft.drawn = drawn
  stage : draft.stage = stage

/-- What the slots of a stage leave, if they all return, by induction on their number. -/
theorem placeSlots_follows {stage : Stage × Nat} {previous : List TaskId} {plan : List TaskNode} {draft next : Draft}
    {width : Nat} (follows : draft.Follows plan draft.drawn [])
    (run : (List.range width).foldlM (placeSlot complexity ids job topics stage.2 stage.1 previous) draft =
      .ok next) :
    next.Follows (plan ++ slotTasks complexity ids job topics stage previous draft.drawn width) (draft.drawn + width)
      (planIds (slotTasks complexity ids job topics stage previous draft.drawn width)) := by
  induction width generalizing next with
  | zero =>
    cases run
    rw [slotTasks, List.range_zero, List.map_nil, List.append_nil]
    exact follows
  | succ width ih =>
    rw [List.range_succ, List.foldlM_append] at run
    cases before : (List.range width).foldlM (placeSlot complexity ids job topics stage.2 stage.1 previous) draft with
    | error halt => rw [before] at run; cases run
    | ok middle =>
      rw [before] at run
      change [width].foldlM (placeSlot complexity ids job topics stage.2 stage.1 previous) middle = _ at run
      rw [List.foldlM_cons] at run
      cases placed : placeSlot complexity ids job topics stage.2 stage.1 previous middle width with
      | error halt => rw [placed] at run; cases run
      | ok last =>
        rw [placed] at run
        cases run
        obtain ⟨drafts, count, listed⟩ := ih before
        obtain ⟨id, graph, inserted, rfl⟩ := placeSlot_ok placed
        obtain ⟨rfl, filled⟩ := drafts.insert inserted
        rw [count] at filled
        refine ⟨?_, by simp only [count, Nat.add_assoc], ?_⟩
        · rw [slotTasks_succ, ← List.append_assoc]
          exact filled
        · rw [slotTasks_succ, planIds, List.map_append, ← planIds, ← listed, count]
          rfl

/-- What the stages leave, if they all return, by induction on them. -/
theorem placeStages_drafts {stages : List (Stage × Nat)} {plan : List TaskNode} {draft next : Draft}
    (drafts : draft.graph.Drafts plan) (run : stages.foldlM (placeStage complexity ids job topics) draft = .ok next) :
    next.graph.Drafts (plan ++ pipeline complexity ids job topics stages draft.stage draft.drawn) := by
  induction stages generalizing plan draft with
  | nil =>
    cases run
    rw [pipeline, List.append_nil]
    exact drafts
  | cons stage rest ih =>
    rw [List.foldlM_cons] at run
    cases placed : placeStage complexity ids job topics draft stage with
    | error halt => rw [placed] at run; cases run
    | ok middle =>
      rw [placed] at run
      have follows : Draft.Follows { draft with stage := [] } plan draft.drawn [] := ⟨drafts, rfl, rfl⟩
      obtain ⟨filled, count, listed⟩ := placeSlots_follows follows placed
      have whole := ih filled run
      rw [listed, count, List.append_assoc] at whole
      exact whole

/-- The slots of a stage all go in, as long as there are indices for them. -/
theorem placeSlots_ok (complexity : Nat) (job : Job) (topics : List String) (injective : Function.Injective ids)
    (stage : Stage × Nat) {previous : List TaskId} {plan : List TaskNode}
    (known : ∀ task ∈ previous, task ∈ planIds plan) {draft : Draft} (follows : draft.Follows plan draft.drawn [])
    (old : Drawn ids draft.drawn plan) {width : Nat}
    (indexable : Indexable (plan ++ slotTasks complexity ids job topics stage previous draft.drawn width)) :
    ∃ next, (List.range width).foldlM (placeSlot complexity ids job topics stage.2 stage.1 previous) draft =
      .ok next := by
  induction width with
  | zero => exact ⟨draft, rfl⟩
  | succ width ih =>
    rw [slotTasks_succ, ← List.append_assoc] at indexable
    obtain ⟨next, run⟩ := ih indexable.left
    obtain ⟨drafts, count, listed⟩ := placeSlots_follows follows run
    have drawn := old.slotTasks complexity job topics stage previous width
    rw [← count] at indexable drawn
    obtain ⟨last, inserted⟩ := drafts.insertIndexed_ok (slotTask complexity job topics stage.2 stage.1 previous width
      (ids next.drawn)) (drawn.fresh injective) (by
        intro dependency depends
        rw [planIds, List.map_append]
        exact List.mem_append_left _ (known dependency depends)) indexable
    refine ⟨⟨last, next.drawn + 1, next.stage ++ [ids next.drawn]⟩, ?_⟩
    have step : placeSlot complexity ids job topics stage.2 stage.1 previous next width =
        .ok ⟨last, next.drawn + 1, next.stage ++ [ids next.drawn]⟩ := by
      rw [placeSlot, inserted]
      rfl
    rw [List.range_succ, List.foldlM_append, run]
    change [width].foldlM (placeSlot complexity ids job topics stage.2 stage.1 previous) next = _
    rw [List.foldlM_cons, step]
    rfl

/-- The stages all go in, as long as there are indices for their tasks and edges. -/
theorem placeStages_ok (complexity : Nat) (job : Job) (topics : List String) (injective : Function.Injective ids)
    (stages : List (Stage × Nat)) {plan : List TaskNode} (draft : Draft) (drafts : draft.graph.Drafts plan)
    (old : Drawn ids draft.drawn plan) (known : ∀ task ∈ draft.stage, task ∈ planIds plan)
    (indexable : Indexable (plan ++ pipeline complexity ids job topics stages draft.stage draft.drawn)) :
    ∃ next, stages.foldlM (placeStage complexity ids job topics) draft = .ok next := by
  induction stages generalizing plan draft with
  | nil => exact ⟨draft, rfl⟩
  | cons stage rest ih =>
    rw [pipeline, ← List.append_assoc] at indexable
    have follows : Draft.Follows { draft with stage := [] } plan draft.drawn [] := ⟨drafts, rfl, rfl⟩
    obtain ⟨next, run⟩ := placeSlots_ok complexity job topics injective stage known follows old indexable.left
    obtain ⟨filled, count, listed⟩ := placeSlots_follows follows run
    simp only at filled count listed
    obtain ⟨last, later⟩ := ih next filled (by
      rw [count]
      exact old.slotTasks complexity job topics stage draft.stage stage.1.fanout) (by
      intro task inside
      rw [listed] at inside
      rw [planIds, List.map_append]
      exact List.mem_append_right _ inside) (by
      rw [listed, count]
      exact indexable)
    refine ⟨last, ?_⟩
    rw [List.foldlM_cons, placeStage, run]
    exact later

end

end Swarm
