import Swarm.Coordinator.Rebuild
import Swarm.Domain.Paths

namespace Swarm
open Relation

/-- A task of the plan lists the dependency. -/
def Lists (plan : List TaskNode) (dependency task : TaskId) : Prop :=
  ∃ node ∈ plan, node.id = task ∧ dependency ∈ node.dependencies

/-- A plan that some order of its tasks can be inserted in. -/
structure WellFormed (plan : List TaskNode) : Prop where
  distinct : (planIds plan).Nodup
  closed : ∀ node ∈ plan, ∀ dependency ∈ node.dependencies, dependency ∈ planIds plan
  acyclic : ∀ task, ¬ TransGen (Lists plan) task task

theorem InOrder.wellFormed {plan : List TaskNode} (ordered : InOrder plan) : WellFormed plan := by
  refine ⟨ordered.nodup, fun node member dependency depends => ordered.closed member depends, ?_⟩
  intro task cycle
  obtain ⟨_, _, node, member, rfl, _⟩ := TransGen.tail'_iff.mp cycle
  obtain ⟨first, there, inside, free⟩ :=
    ordered.exists_first (fun task => TransGen (Lists plan) task task) ⟨node, member, cycle⟩
  obtain ⟨before, back, step⟩ := TransGen.tail'_iff.mp inside
  obtain ⟨twin, also, same, depends⟩ := step
  have equal : twin = first := List.inj_on_of_nodup_map ordered.nodup also there same
  subst equal
  exact free before depends (TransGen.head' ⟨twin, there, rfl, depends⟩ back)

namespace WellFormed
variable {plan : List TaskNode}

theorem perm (formed : WellFormed plan) {other : List TaskNode} (same : plan.Perm other) : WellFormed other := by
  have ids : ∀ task, task ∈ planIds other ↔ task ∈ planIds plan := fun task => (same.map TaskNode.id).mem_iff.symm
  refine ⟨(same.map TaskNode.id).nodup_iff.mp formed.distinct, ?_, ?_⟩
  · intro node member dependency depends
    exact (ids dependency).mpr (formed.closed node (same.mem_iff.mpr member) dependency depends)
  · intro task cycle
    refine formed.acyclic task (TransGen.mono ?_ _ _ cycle)
    rintro dependency task ⟨node, member, key, depends⟩
    exact ⟨node, same.mem_iff.mpr member, key, depends⟩

/-- What is left of a plan has a task that only needs what is done. -/
theorem exists_next (formed : WellFormed plan) {done pending : List TaskNode} (parts : (done ++ pending).Perm plan)
    (inhabited : pending ≠ []) : ∃ node ∈ pending, ∀ dependency ∈ node.dependencies, dependency ∈ planIds done := by
  have some : planIds pending ≠ [] := fun none => inhabited (List.map_eq_nil_iff.mp none)
  obtain ⟨task, member, free⟩ := first_of_acyclic formed.acyclic some
  obtain ⟨node, waits, rfl⟩ := List.mem_map.mp member
  have here : node ∈ plan := parts.mem_iff.mp (List.mem_append_right _ waits)
  refine ⟨node, waits, ?_⟩
  intro dependency depends
  have somewhere := (Recovery.planIds_perm parts).mpr (formed.closed node here dependency depends)
  rw [planIds, List.map_append, List.mem_append] at somewhere
  exact somewhere.resolve_right fun inside => free dependency inside ⟨node, here, rfl, depends⟩

theorem inOrder (formed : WellFormed plan) : ∃ order, InOrder order ∧ plan.Perm order := by
  have run : ∀ left done pending, pending.length = left → InOrder done → (done ++ pending).Perm plan →
      ∃ order, InOrder order ∧ plan.Perm order := by
    intro left
    induction left with
    | zero =>
      intro done pending empty ordered parts
      rw [List.length_eq_zero_iff.mp empty, List.append_nil] at parts
      exact ⟨done, ordered, parts.symm⟩
    | succ left ih =>
      intro done pending size ordered parts
      obtain ⟨node, waits, complete⟩ := formed.exists_next parts (fun none => by simp [none] at size)
      have split : (done ++ [node] ++ pending.erase node).Perm plan := by
        rw [List.append_assoc, List.singleton_append]
        exact ((List.perm_cons_erase waits).symm.append_left done).trans parts
      have fresh : node.id ∉ planIds done := by
        have distinct := (split.map TaskNode.id).nodup_iff.mpr formed.distinct
        rw [List.map_append, List.map_append] at distinct
        exact fun old => (List.nodup_append.mp (List.nodup_append.mp distinct).1).2.2 _ old _ (by simp) rfl
      refine ih (done ++ [node]) (pending.erase node) ?_ (.snoc ordered fresh complete) split
      rw [List.length_erase_of_mem waits, size]
      rfl
  exact run plan.length [] plan rfl .nil (List.Perm.refl _)

end WellFormed

/-- The graph holds exactly the given tasks, as they are. -/
structure TaskGraph.Holds (g : TaskGraph) (plan : List TaskNode) : Prop where
  shaped : g.Shaped plan
  built : Built DiGraph.sort g
  entries : g.nodes.entries = plan.map (fun node => (node.id, node))

namespace TaskGraph.Holds
variable {g : TaskGraph} {plan : List TaskNode}

theorem new (jobId : JobId) : (TaskGraph.new jobId).Holds [] := ⟨shaped_new jobId, .new jobId, rfl⟩

theorem insert (holds : g.Holds plan) {node : TaskNode} {id : TaskId} {next : TaskGraph}
    (run : g.insert node = .ok (id, next)) :
    next.Holds (plan ++ [node]) := by
  obtain ⟨_, placed, fresh, known⟩ := holds.shaped.of_insert run
  have absent : node.id ∉ g.nodes.keys := by
    rw [Dict.keys, holds.entries, List.map_map]
    exact fresh
  refine ⟨placed ▸ holds.shaped.place fresh known, holds.built.insert run, ?_⟩
  rw [placed, List.map_append, ← holds.entries]
  exact Dict.insert_entries_of_absent absent

theorem get_iff (holds : g.Holds plan) {task : TaskId} {node : TaskNode} :
    g.get task = some node ↔ node ∈ plan ∧ node.id = task := by
  rw [get, Dict.get?_eq_some, holds.entries, List.mem_map]
  constructor
  · rintro ⟨twin, member, same⟩
    cases same
    exact ⟨member, rfl⟩
  · rintro ⟨member, rfl⟩
    exact ⟨node, member, rfl⟩

theorem values (holds : g.Holds plan) : g.nodes.values = plan := by
  rw [Dict.values, holds.entries, List.map_map]
  exact List.map_id plan

theorem dependencies_perm (holds : g.Holds plan) {node : TaskNode} (member : node ∈ plan) :
    (g.dependencies node.id).Perm node.dependencies := by
  have agrees := holds.built.agrees detects_sort
  have found := holds.get_iff.mpr ⟨member, rfl⟩
  obtain ⟨index, there⟩ := agrees.index_of_get (by rw [found]; rfl)
  exact (agrees.dependencies_perm there).trans (agrees.fields found there)

theorem dependencies_unknown (holds : g.Holds plan) {task : TaskId} (absent : g.get task = none) :
    g.dependencies task = [] := by
  have unknown := (holds.built.agrees detects_sort).known task
  rw [absent] at unknown
  have none : g.index.get? task = none := by simpa using unknown
  unfold dependencies
  rw [none]

end TaskGraph.Holds

namespace Recovery
variable {jobId : JobId}

/-- One task of a round goes into the graph or among the deferred ones. -/
theorem insertOrDefer_ok {graph : TaskGraph} {deferred done : List TaskNode} {task : TaskNode}
    {kept : TaskGraph × List TaskNode} (run : insertOrDefer (graph, deferred) task = .ok kept)
    (holds : graph.Holds done) :
    (kept.1.Holds (done ++ [task]) ∧ kept.2 = deferred) ∨ (kept.1.Holds done ∧ kept.2 = deferred ++ [task]) := by
  unfold insertOrDefer at run
  split at run
  · cases inserted : graph.insert task with
    | error err => simp [inserted, bind, Except.bind] at run
    | ok result =>
      simp only [inserted, bind, Except.bind, pure, Except.pure] at run
      cases run
      exact Or.inl ⟨holds.insert inserted, rfl⟩
  · cases run
    exact Or.inr ⟨holds, rfl⟩

/-- A round keeps every task. -/
theorem round_keeps (pending : List TaskNode) {graph : TaskGraph} (deferred : List TaskNode) {done : List TaskNode}
    {kept : TaskGraph × List TaskNode} (run : pending.foldlM insertOrDefer (graph, deferred) = .ok kept)
    (holds : graph.Holds done) :
    ∃ done', kept.1.Holds done' ∧ (done' ++ kept.2).Perm (done ++ (deferred ++ pending)) ∧
      kept.2.length ≤ deferred.length + pending.length := by
  induction pending generalizing graph deferred done with
  | nil =>
    cases run
    exact ⟨done, holds, by simp, Nat.le_refl _⟩
  | cons task rest ih =>
    rw [List.foldlM_cons] at run
    cases step : insertOrDefer (graph, deferred) task with
    | error err => simp [step, bind, Except.bind] at run
    | ok next =>
      rw [step] at run
      rcases insertOrDefer_ok step holds with ⟨inserted, same⟩ | ⟨kept, same⟩
      · obtain ⟨done', last, parts, bound⟩ := ih next.2 run inserted
        refine ⟨done', last, parts.trans ?_, ?_⟩
        · rw [same, List.append_assoc, List.singleton_append]
          exact List.perm_middle.symm.append_left done
        · rw [same] at bound
          exact bound.trans (Nat.add_le_add_left (Nat.le_succ _) _)
      · obtain ⟨done', last, parts, bound⟩ := ih next.2 run kept
        refine ⟨done', last, ?_, ?_⟩
        · rw [same, List.append_assoc] at parts
          exact parts
        · rw [same, List.length_append, List.length_singleton] at bound
          rw [List.length_cons]
          omega

/-- What comes out of the rounds holds every task. -/
theorem insertRounds_holds (fuel : Nat) {graph : TaskGraph} {pending done : List TaskNode} {result : TaskGraph}
    (run : insertRounds jobId fuel graph pending = .ok result) (holds : graph.Holds done) :
    ∃ plan, result.Holds plan ∧ plan.Perm (done ++ pending) := by
  induction fuel generalizing graph pending done with
  | zero =>
    cases pending with
    | nil =>
      cases run
      exact ⟨done, holds, by simp⟩
    | cons task rest => cases run
  | succ fuel ih =>
    cases pending with
    | nil =>
      cases run
      exact ⟨done, holds, by simp⟩
    | cons task rest =>
      unfold insertRounds at run
      cases round : (task :: rest).foldlM insertOrDefer (graph, []) with
      | error err => simp [round, bind, Except.bind] at run
      | ok kept =>
        simp only [round, bind, Except.bind] at run
        split at run
        · cases run
        · obtain ⟨done', next, parts, _⟩ := round_keeps _ [] round holds
          obtain ⟨plan, last, whole⟩ := ih run next
          exact ⟨plan, last, whole.trans parts⟩

/-- The rounds end by themselves: more fuel than there are tasks changes nothing. -/
theorem insertRounds_fuel (fuel fuel' : Nat) {graph : TaskGraph} {pending done : List TaskNode}
    (holds : graph.Holds done) (enough : pending.length ≤ fuel) (enough' : pending.length ≤ fuel') :
    insertRounds jobId fuel graph pending = insertRounds jobId fuel' graph pending := by
  induction fuel generalizing fuel' graph pending done with
  | zero =>
    rw [List.length_eq_zero_iff.mp (Nat.le_zero.mp enough)]
    cases fuel' <;> rfl
  | succ fuel ih =>
    cases pending with
    | nil => cases fuel' <;> rfl
    | cons task rest =>
      cases fuel' with
      | zero => cases enough'
      | succ fuel' =>
        unfold insertRounds
        cases round : (task :: rest).foldlM insertOrDefer (graph, []) with
        | error err => rfl
        | ok kept =>
          simp only [bind, Except.bind]
          obtain ⟨done', next, _, bound⟩ := round_keeps _ [] round holds
          by_cases stuck : kept.2.length = (task :: rest).length
          · rw [if_pos stuck, if_pos stuck]
            rfl
          · rw [if_neg stuck, if_neg stuck]
            simp only [List.length_nil, List.length_cons] at bound stuck enough enough'
            have fewer : kept.2.length ≤ fuel := by omega
            have fewer' : kept.2.length ≤ fuel' := by omega
            exact ih fuel' next fewer fewer'

variable {toposort : DiGraph TaskId → Except Nat (List Nat)}

theorem rebuildGraph_holds {tasks : List TaskNode} {graph : TaskGraph}
    (run : rebuildGraph toposort jobId tasks = .ok graph) :
    ∃ plan, graph.Holds plan ∧ plan.Perm tasks := by
  unfold rebuildGraph at run
  cases rounds : insertRounds jobId tasks.length (.new jobId) tasks with
  | error err => simp [rounds, bind, Except.bind] at run
  | ok result =>
    rw [rounds] at run
    cases checked : result.assertAcyclic toposort with
    | error err => simp [checked, bind, Except.bind] at run
    | ok _ =>
      simp only [checked, bind, Except.bind, pure, Except.pure] at run
      cases run
      obtain ⟨plan, holds, whole⟩ := insertRounds_holds _ rounds (TaskGraph.Holds.new jobId)
      exact ⟨plan, holds, by simpa using whole⟩

theorem rebuildGraph_iff (sorts : Sorts toposort) (jobId : JobId) (tasks : List TaskNode) :
    (∃ graph, rebuildGraph toposort jobId tasks = .ok graph) ↔ WellFormed tasks := by
  constructor
  · rintro ⟨graph, run⟩
    obtain ⟨plan, holds, whole⟩ := rebuildGraph_holds run
    exact holds.shaped.ordered.wellFormed.perm whole
  · intro formed
    obtain ⟨order, ordered, same⟩ := formed.inOrder
    obtain ⟨graph, _, run, _⟩ := rebuildGraph_ok sorts ordered same jobId
    exact ⟨graph, run⟩

/-- A plan is accepted exactly if it is well formed, the graph then holds its tasks as they are, and the order of
the plan does not matter. -/
theorem rebuildGraph_exact (sorts : Sorts toposort) (jobId : JobId) (tasks : List TaskNode) :
    (∀ fuel, tasks.length ≤ fuel →
      insertRounds jobId fuel (.new jobId) tasks = insertRounds jobId tasks.length (.new jobId) tasks) ∧
    ((∃ graph, rebuildGraph toposort jobId tasks = .ok graph) ↔ WellFormed tasks) ∧
    (∀ graph, rebuildGraph toposort jobId tasks = .ok graph → graph.nodes.values.Perm tasks ∧
      (∀ task node, graph.get task = some node ↔ node ∈ tasks ∧ node.id = task) ∧
      ∀ node ∈ tasks, (graph.dependencies node.id).Perm node.dependencies) ∧
    ∀ shuffled : List TaskNode, tasks.Perm shuffled →
      ((∃ graph, rebuildGraph toposort jobId tasks = .ok graph) ↔
        ∃ graph, rebuildGraph toposort jobId shuffled = .ok graph) ∧
      ∀ graph graph', rebuildGraph toposort jobId tasks = .ok graph →
        rebuildGraph toposort jobId shuffled = .ok graph' →
        ∀ task, graph.get task = graph'.get task ∧ (graph.dependencies task).Perm (graph'.dependencies task) := by
  refine ⟨fun fuel enough => insertRounds_fuel fuel _ (TaskGraph.Holds.new jobId) enough (Nat.le_refl _),
    rebuildGraph_iff sorts jobId tasks, ?_, ?_⟩
  · intro graph run
    obtain ⟨plan, holds, whole⟩ := rebuildGraph_holds run
    refine ⟨?_, ?_, fun node member => holds.dependencies_perm (whole.mem_iff.mpr member)⟩
    · rw [holds.values]
      exact whole
    · intro task node
      rw [holds.get_iff, whole.mem_iff]
  · intro shuffled same
    constructor
    · rw [rebuildGraph_iff sorts, rebuildGraph_iff sorts]
      exact ⟨fun formed => formed.perm same, fun formed => formed.perm same.symm⟩
    · intro graph graph' run run' task
      obtain ⟨plan, holds, whole⟩ := rebuildGraph_holds run
      obtain ⟨plan', holds', whole'⟩ := rebuildGraph_holds run'
      have equal : graph.get task = graph'.get task := by
        refine Option.ext fun node => ?_
        rw [holds.get_iff, holds'.get_iff, whole.mem_iff, whole'.mem_iff, same.mem_iff]
      refine ⟨equal, ?_⟩
      cases found : graph.get task with
      | none => rw [holds.dependencies_unknown found, holds'.dependencies_unknown (equal.symm.trans found)]
      | some node =>
        obtain ⟨member, rfl⟩ := holds.get_iff.mp found
        obtain ⟨member', _⟩ := holds'.get_iff.mp (equal.symm.trans found)
        exact (holds.dependencies_perm member).trans (holds'.dependencies_perm member').symm

/-- Three tasks, the last of which comes first. -/
theorem rebuildGraph_shuffled : ∃ graph, rebuildGraph DiGraph.sort ⟨0⟩ [TaskGraph.Built.joining ⟨0⟩ 3 [⟨1⟩, ⟨2⟩],
    TaskGraph.Built.joining ⟨0⟩ 2 [⟨1⟩], TaskGraph.Built.joining ⟨0⟩ 1 []] = .ok graph := by
  have sorts : Sorts DiGraph.sort := fun g valid acyclic => (detects_sort g valid).mpr acyclic
  have run : rebuildGraph DiGraph.sort ⟨0⟩ [TaskGraph.Built.joining ⟨0⟩ 1 [], TaskGraph.Built.joining ⟨0⟩ 2 [⟨1⟩],
      TaskGraph.Built.joining ⟨0⟩ 3 [⟨1⟩, ⟨2⟩]] = .ok TaskGraph.Built.joined := rfl
  exact ((rebuildGraph_exact sorts ⟨0⟩ _).2.2.2 _ (List.reverse_perm _).symm).1.mp ⟨_, run⟩

end Recovery

end Swarm
