import Swarm.Coordinator.Distinct
import Swarm.Coordinator.Findings

namespace Swarm.Aggregate

section
variable {graph compiled : TaskGraph}

/-- A map that is filled from tasks under their ids gives each id the last stage that was put there. -/
theorem stages_foldl (nodes : List TaskNode) (stages : Dict TaskId Nat) (task : TaskId)
    (agree : ∀ left ∈ nodes, ∀ right ∈ nodes, left.id = right.id → left = right) :
    (nodes.foldl (fun stages node => stages.insert node.id node.stage) stages).get? task =
      ((nodes.find? (fun node => node.id == task)).map TaskNode.stage).or (stages.get? task) := by
  induction nodes generalizing stages with
  | nil => rfl
  | cons node rest ih =>
    have agree' : ∀ left ∈ rest, ∀ right ∈ rest, left.id = right.id → left = right :=
      fun left first right second => agree left (List.mem_cons_of_mem _ first) right (List.mem_cons_of_mem _ second)
    rw [List.foldl_cons, ih _ agree', Dict.get?_insert, List.find?_cons]
    by_cases same : node.id = task
    · rw [if_pos same.symm, beq_iff_eq.mpr same]
      cases found : rest.find? (fun node => node.id == task) with
      | none => rfl
      | some later =>
        have listed := List.mem_of_find?_eq_some found
        have hit := List.find?_some found
        have equal :=
          agree later (List.mem_cons_of_mem _ listed) node List.mem_cons_self ((beq_iff_eq.mp hit).trans same.symm)
        rw [equal]
        rfl
    · rw [if_neg (Ne.symm same), beq_eq_false_iff_ne.mpr same]

/-- The stage that is looked up is the stage of the task. -/
theorem stageOf_get? (keyed : ∀ task node, graph.get task = some node → node.id = task) {task : TaskId}
    {node : TaskNode} (found : graph.get task = some node) : (stageOf graph).get? task = some node.stage := by
  have listed : ∀ node ∈ graph.nodes.values, graph.get node.id = some node := by
    intro node member
    obtain ⟨key, present⟩ := Dict.mem_values.mp member
    have known := Dict.get?_eq_some.mpr present
    rw [keyed key node known]
    exact known
  have agree : ∀ left ∈ graph.nodes.values, ∀ right ∈ graph.nodes.values, left.id = right.id → left = right := by
    intro left first right second same
    have there := listed left first
    rw [same, listed right second] at there
    exact (Option.some.inj there).symm
  have member : node ∈ graph.nodes.values := Dict.mem_values.mpr ⟨task, Dict.get?_eq_some.mp found⟩
  rw [stageOf, stages_foldl _ _ _ agree]
  cases first : graph.nodes.values.find? (fun node => node.id == task) with
  | none => exact absurd (beq_iff_eq.mpr (keyed task node found)) (List.find?_eq_none.mp first node member)
  | some other =>
    have hit := List.find?_some first
    have own : other.id = node.id := (beq_iff_eq.mp hit).trans (keyed task node found).symm
    rw [agree other (List.mem_of_find?_eq_some first) node member own]
    rfl

/-- Two orders of the same results are sorted into one, where no two of them have the same place. -/
theorem ordered_congr {results results' : List TaskResult} (reordered : results.Perm results')
    (apart : ∀ left ∈ results, ∀ right ∈ results, stageRank graph left = stageRank graph right →
      left.title = right.title →
      left = right) : ordered graph results = ordered graph results' := by
  have perm : (ordered graph results).Perm (ordered graph results') :=
    (ordered_perm graph results).trans ((reordered.filter _).trans (ordered_perm graph results').symm)
  refine List.Perm.eq_of_pairwise ?_ (ordered_pairwise graph results) (ordered_pairwise graph results') perm
  intro left right first second forth back
  have inside : ∀ {result}, result ∈ ordered graph results → result ∈ results := fun member =>
    List.mem_of_mem_filter ((ordered_perm graph results).mem_iff.mp member)
  refine apart left (inside first) right (inside (perm.mem_iff.mpr second)) ?_ ?_
  · rcases comesBefore_iff.mp forth with earlier | ⟨same, _⟩
    · rcases comesBefore_iff.mp back with later | ⟨same, _⟩ <;> omega
    · exact same
  · rcases comesBefore_iff.mp forth with earlier | ⟨same, order⟩
    · rcases comesBefore_iff.mp back with later | ⟨same, _⟩ <;> omega
    · rcases comesBefore_iff.mp back with later | ⟨_, order'⟩
      · omega
      · exact le_antisymm order order'

end

section
variable {overflow : Overflow} {tools : TextTools} {ids : Nat → TaskId}
  {toposort : DiGraph TaskId → Except Nat (List Nat)}

/-- No two tasks of a compiled job have both their stage and their title in common. -/
theorem decompose_titles {job : Job} {compiled : TaskGraph}
    (compiles : decompose overflow tools ids job toposort = .ok compiled) :
    (∀ task node, compiled.get task = some node → node.id = task) ∧
    ∀ task task' node node', compiled.get task = some node → compiled.get task' = some node' →
      node.stage = node'.stage → node.title = node'.title → task = task' := by
  obtain ⟨_, complexity, topics, unique, enough, holds⟩ := decompose_holds compiles
  have keyed : ∀ task node, compiled.get task = some node → node.id = task := fun task node found =>
    (holds.get_iff.mp found).2
  refine ⟨keyed, ?_⟩
  intro task task' node node' found found' level title
  have here : ∀ {task node}, compiled.get task = some node → node ∈ compiled.ofStage node.stage := by
    intro task node found
    refine (mem_ofStage holds).mpr ⟨?_, rfl⟩
    rw [keyed task node found]
    exact found
  have same :=
    List.inj_on_of_nodup_map (titles_ofStage holds unique enough node'.stage) (level ▸ here found) (here found') title
  rw [← keyed task node found, ← keyed task' node' found', same]

/-- The final result of a compiled job does not depend on the order in which its tasks were completed. -/
theorem aggregate_perm (tests : Comparison) {job : Job} {compiled : TaskGraph}
    (compiles : decompose overflow tools ids job toposort = .ok compiled) {graph : TaskGraph}
    (tasks : ∀ task, (graph.get task).map TaskNode.blank = (compiled.get task).map TaskNode.blank)
    {results results' : List TaskResult}
    (own : ∀ result ∈ results, ∃ node, graph.get result.taskId = some node ∧ node.title = result.title)
    (once : (results.map TaskResult.taskId).Nodup) (reordered : results.Perm results') (status : JobStatus)
    (statistics : ExecutionStatistics) :
    aggregate tests job graph results status statistics = aggregate tests job graph results' status statistics := by
  obtain ⟨keyed, titles⟩ := decompose_titles compiles
  have planned : ∀ task node, graph.get task = some node → ∃ twin, compiled.get task = some twin ∧
      twin.blank = node.blank := by
    intro task node found
    have same := tasks task
    rw [found, Option.map_some] at same
    exact Option.map_eq_some_iff.mp same.symm
  have keyed' : ∀ task node, graph.get task = some node → node.id = task := by
    intro task node found
    obtain ⟨twin, known, same⟩ := planned task node found
    have equal := congrArg TaskNode.id same
    exact equal.symm.trans (keyed task twin known)
  have places : ∀ left ∈ results, ∀ right ∈ results, stageRank graph left = stageRank graph right →
      left.title = right.title →
      left = right := by
    intro left first right second level title
    obtain ⟨node, found, named⟩ := own left first
    obtain ⟨node', found', named'⟩ := own right second
    obtain ⟨twin, known, same⟩ := planned left.taskId node found
    obtain ⟨twin', known', same'⟩ := planned right.taskId node' found'
    rw [stageRank, stageRank, stageOf_get? keyed' found, stageOf_get? keyed' found'] at level
    have stages : node.stage = node'.stage := Nat.succ.inj level
    have equal : left.taskId = right.taskId := by
      refine titles _ _ twin twin' known known' ?_ ?_
      · exact (congrArg TaskNode.stage same).trans (stages.trans (congrArg TaskNode.stage same').symm)
      · exact (congrArg TaskNode.title same).trans
          ((named.trans (title.trans named'.symm)).trans (congrArg TaskNode.title same').symm)
    exact List.inj_on_of_nodup_map once first second equal
  have one := ordered_congr reordered places
  unfold aggregate
  rw [one]

end

def debate : Job := Job.new ⟨0⟩ ⟨0⟩ { JobRequest.new "do it" with maxAgents := 2, executionStrategy := .debate } 0

/-- Every task says what it is called. -/
def recited (graph : TaskGraph) : List TaskResult :=
  graph.nodes.values.map (fun node => resultOf node.id.uuid node.kind node.title node.title (1 / 2))

theorem aggregate_perm_debate : ∃ graph, decompose .wraps plainTools TaskId.mk debate DiGraph.sort = .ok graph ∧
    aggregate literal debate graph (recited graph) .completed {} =
      aggregate literal debate graph (recited graph).reverse .completed {} := by
  have injective : Function.Injective TaskId.mk := fun _ _ same => TaskId.mk.inj same
  have compilable : debate.Compilable .wraps plainTools :=
    Job.compilable_of_few (by decide) (by decide) (fun wrong => by cases wrong)
  obtain ⟨graph, compiles⟩ := decompose_ok detects_sort injective compilable
  obtain ⟨keyed, _⟩ := decompose_titles compiles
  have entries : ∀ entry ∈ graph.nodes.entries, entry.2.id = entry.1 := fun entry member =>
    keyed entry.1 entry.2 (Dict.get?_eq_some.mpr member)
  refine ⟨graph, compiles,
    aggregate_perm literal compiles (fun _ => rfl) ?_ ?_ (List.reverse_perm _).symm .completed {}⟩
  · intro result member
    obtain ⟨node, listed, rfl⟩ := List.mem_map.mp member
    obtain ⟨key, present⟩ := Dict.mem_values.mp listed
    have known : graph.get key = some node := Dict.get?_eq_some.mpr present
    refine ⟨node, ?_, rfl⟩
    change graph.get node.id = some node
    rw [keyed key node known]
    exact known
  · have ids : (recited graph).map TaskResult.taskId = graph.nodes.keys := by
      rw [recited, List.map_map, Dict.values, List.map_map, Dict.keys]
      exact List.map_congr_left entries
    rw [ids]
    exact graph.nodes.nodup

end Swarm.Aggregate
