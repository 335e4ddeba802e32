import Swarm.Coordinator.Pipeline

namespace Swarm
variable {complexity : Nat} {ids : Nat → TaskId} {job : Job} {topics : List String}

/-- The tasks of a graph that stand in one stage. -/
def TaskGraph.ofStage (g : TaskGraph) (index : Nat) : List TaskNode :=
  g.nodes.values.filter (fun node => node.stage = index)

/-- Where each task waits for the whole stage before its own, the stage is the depth. -/
theorem TaskGraph.Holds.depth {g : TaskGraph} {tasks : List TaskNode} (holds : g.Holds tasks)
    (depends : ∀ node ∈ tasks, ∀ dependency, dependency ∈ node.dependencies ↔
      ∃ upstream ∈ tasks, upstream.id = dependency ∧ upstream.stage + 1 = node.stage)
    (filled : ∀ node ∈ tasks, ∀ level, level + 1 = node.stage → ∃ upstream ∈ tasks, upstream.stage = level) :
    ∀ node ∈ tasks, Depth g.Feeds node.stage node.id := by
  have feeds : ∀ node ∈ tasks, ∀ dependency, g.Feeds dependency node.id ↔
      ∃ upstream ∈ tasks, upstream.id = dependency ∧ upstream.stage + 1 = node.stage :=
    fun node member dependency => (holds.dependencies_perm member).mem_iff.trans (depends node member dependency)
  have climbs : ∀ level, ∀ node ∈ tasks, node.stage = level → Chain g.Feeds level node.id := by
    intro level
    induction level with
    | zero => exact fun node _ _ => .single node.id
    | succ level ih =>
      intro node member here
      obtain ⟨upstream, there, below⟩ := filled node member level here.symm
      exact .step (ih upstream there below) ((feeds node member upstream.id).mpr ⟨upstream, there, rfl, by omega⟩)
  have bounded : ∀ m task, Chain g.Feeds m task → ∀ node ∈ tasks, node.id = task → m ≤ node.stage := by
    intro m task chain
    induction chain with
    | single _ => exact fun _ _ _ => Nat.zero_le _
    | step _ step ih =>
      rintro node member rfl
      obtain ⟨upstream, there, same, next⟩ := (feeds node member _).mp step
      have below := ih upstream there same
      omega
  exact fun node member => ⟨climbs node.stage node member rfl, fun m chain => bounded m node.id chain node member rfl⟩

section
variable {graph : TaskGraph} {plan : List Stage}
  (holds : graph.Holds (pipeline complexity ids job topics plan.zipIdx [] 0))
include holds

theorem ofStage_eq {index : Nat} {stage : Stage} (planned : plan[index]? = some stage) : ∃ before count,
    graph.ofStage index = slotTasks complexity ids job topics (stage, index) before count stage.fanout := by
  obtain ⟨before, count, part⟩ := filter_pipeline complexity ids job topics plan 0 [] 0 planned
  simp only [Nat.zero_add] at part
  exact ⟨before, count, by rw [TaskGraph.ofStage, holds.values, part]⟩

theorem mem_ofStage {index : Nat} {node : TaskNode} :
    node ∈ graph.ofStage index ↔ graph.get node.id = some node ∧ node.stage = index := by
  rw [TaskGraph.ofStage, List.mem_filter, holds.values, decide_eq_true_eq, holds.get_iff]
  simp

theorem exists_ofStage (wide : ∀ stage ∈ plan, 1 ≤ stage.fanout) (index : Nat) (inside : index < plan.length) :
    ∃ node, node ∈ graph.ofStage index := by
  obtain ⟨before, count, part⟩ := ofStage_eq holds (List.getElem?_eq_getElem inside)
  have positive := wide _ (List.getElem_mem inside)
  rw [part]
  exact ⟨_, List.mem_map.mpr ⟨0, List.mem_range.mpr positive, rfl⟩⟩

theorem stage_lt {node : TaskNode} (found : graph.get node.id = some node) : node.stage < plan.length := by
  obtain ⟨stage, inside, _, _, _, rfl⟩ := mem_pipeline (holds.get_iff.mp found).1
  have bound := (List.mem_zipIdx inside).2.1
  rw [Nat.zero_add] at bound
  exact bound

/-- A task waits for exactly the tasks of the stage before its own. -/
theorem dependencies_iff {task : TaskId} {node : TaskNode} (found : graph.get task = some node)
    (dependency : TaskId) :
    dependency ∈ node.dependencies ↔ ∃ upstream, graph.get dependency = some upstream ∧
      upstream.stage + 1 = node.stage := by
  rw [dependencies_pipeline plan 0 [] 0 (holds.get_iff.mp found).1]
  constructor
  · rintro (⟨_, none⟩ | ⟨upstream, member, same, next⟩)
    · cases none
    · exact ⟨upstream, holds.get_iff.mpr ⟨member, same⟩, next⟩
  · rintro ⟨upstream, there, next⟩
    obtain ⟨member, same⟩ := holds.get_iff.mp there
    exact Or.inr ⟨upstream, member, same, next⟩

theorem depth_eq_stage (wide : ∀ stage ∈ plan, 1 ≤ stage.fanout) {task : TaskId} {node : TaskNode}
    (found : graph.get task = some node) (n : Nat) : Depth graph.Feeds n task ↔ node.stage = n := by
  obtain ⟨member, rfl⟩ := holds.get_iff.mp found
  have deep : Depth graph.Feeds node.stage node.id := by
    refine holds.depth ?_ ?_ node member
    · intro node member dependency
      rw [dependencies_iff holds (holds.get_iff.mpr ⟨member, rfl⟩)]
      simp only [holds.get_iff, and_assoc]
    · intro node member level next
      have bound := stage_lt holds (holds.get_iff.mpr ⟨member, rfl⟩)
      obtain ⟨upstream, listed⟩ := exists_ofStage holds wide level (by omega)
      obtain ⟨there, same⟩ := (mem_ofStage holds).mp listed
      exact ⟨upstream, (holds.get_iff.mp there).1, same⟩
  exact ⟨fun depth => deep.unique depth, fun same => same ▸ deep⟩

/-- The layers of the graph are the stages of the plan. -/
theorem layers_stages {toposort : DiGraph TaskId → Except Nat (List Nat)} (linearizes : Linearizes toposort)
    (wide : ∀ stage ∈ plan, 1 ≤ stage.fanout) :
    ∃ layers, graph.layers toposort = .ok layers ∧ layers.length = plan.length ∧
      ∀ index < plan.length, ∃ layer, layers[index]? = some layer ∧ layer.Perm (planIds (graph.ofStage index)) := by
  obtain ⟨layers, run, unique, known, filled, exact⟩ := (holds.built.agrees detects_sort).layers_ok linearizes
    (holds.built.tight detects_sort)
  have stage_of : ∀ n task, (∃ layer, layers[n]? = some layer ∧ task ∈ layer) ↔
      ∃ node, graph.get task = some node ∧ node.stage = n := by
    intro n task
    constructor
    · rintro ⟨layer, there, inside⟩
      have present := (known task).mp (List.mem_flatten.mpr ⟨layer, List.mem_of_getElem? there, inside⟩)
      obtain ⟨node, found⟩ := Option.isSome_iff_exists.mp present
      exact ⟨node, found, (depth_eq_stage holds wide found n).mp ((exact n task present).mp ⟨layer, there, inside⟩)⟩
    · rintro ⟨node, found, same⟩
      exact (exact n task (by rw [found]; rfl)).mpr ((depth_eq_stage holds wide found n).mpr same)
  have reached : ∀ index < plan.length, ∃ layer, layers[index]? = some layer := by
    intro index inside
    obtain ⟨node, listed⟩ := exists_ofStage holds wide index inside
    obtain ⟨layer, there, _⟩ := (stage_of index node.id).mpr ⟨node, (mem_ofStage holds).mp listed⟩
    exact ⟨layer, there⟩
  refine ⟨layers, run, ?_, ?_⟩
  · refine Nat.le_antisymm ?_ ?_
    · by_contra longer
      have there := List.getElem?_eq_getElem (Nat.lt_of_not_le longer)
      obtain ⟨task, inside⟩ := List.exists_mem_of_ne_nil _ (filled _ (List.mem_of_getElem? there))
      obtain ⟨node, found, same⟩ := (stage_of plan.length task).mp ⟨_, there, inside⟩
      obtain ⟨member, rfl⟩ := holds.get_iff.mp found
      exact absurd (stage_lt holds found) (by omega)
    · by_contra shorter
      obtain ⟨layer, there⟩ := reached layers.length (Nat.lt_of_not_le shorter)
      exact absurd (List.getElem?_eq_some_iff.mp there).1 (Nat.lt_irrefl _)
  · intro index inside
    obtain ⟨layer, there⟩ := reached index inside
    refine ⟨layer, there, (List.perm_ext_iff_of_nodup ?_ ?_).mpr ?_⟩
    · exact (List.nodup_flatten.mp unique).1 layer (List.mem_of_getElem? there)
    · refine holds.shaped.ordered.nodup.sublist (List.Sublist.map _ ?_)
      rw [TaskGraph.ofStage, holds.values]
      exact List.filter_sublist
    · intro task
      have members := stage_of index task
      rw [there] at members
      simp only [Option.some.injEq, exists_eq_left'] at members
      rw [members, planIds, List.mem_map]
      constructor
      · rintro ⟨node, found, same⟩
        obtain ⟨_, rfl⟩ := holds.get_iff.mp found
        exact ⟨node, (mem_ofStage holds).mpr ⟨found, same⟩, rfl⟩
      · rintro ⟨node, listed, rfl⟩
        exact ⟨node, (mem_ofStage holds).mp listed⟩

end

end Swarm
