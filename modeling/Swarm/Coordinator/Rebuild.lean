import Swarm.Coordinator.Recovery

namespace Swarm.Recovery

theorem mem_planIds {plan : List TaskNode} {task : TaskId} : task ∈ planIds plan ↔ ∃ node ∈ plan, node.id = task :=
  List.mem_map

theorem planIds_perm {plan plan' : List TaskNode} (same : plan.Perm plan') {task : TaskId} :
    task ∈ planIds plan ↔ task ∈ planIds plan' := (same.map TaskNode.id).mem_iff

/-- One round inserts what it can and loses nothing. -/
theorem round_ok {plan : List TaskNode} (ordered : InOrder plan) (pending : List TaskNode) {graph : TaskGraph}
    {deferred done : List TaskNode} (shaped : graph.Shaped done) (parts : (done ++ (deferred ++ pending)).Perm plan)
    (known : ∀ node ∈ graph.nodes.values, node ∈ plan) :
    ∃ graph' deferred' done', pending.foldlM insertOrDefer (graph, deferred) = .ok (graph', deferred') ∧
      graph'.Shaped done' ∧ (done' ++ deferred').Perm plan ∧ graph'.jobId = graph.jobId ∧
      (∀ node ∈ graph'.nodes.values, node ∈ plan) ∧ deferred'.length ≤ deferred.length + pending.length ∧
      ((∃ node ∈ pending, ∀ dependency ∈ node.dependencies, dependency ∈ planIds done) →
        deferred'.length < deferred.length + pending.length) := by
  induction pending generalizing graph deferred done with
  | nil => exact ⟨graph, deferred, done, rfl, shaped, by simpa using parts, rfl, known, by simp, by simp⟩
  | cons task rest ih =>
    have member : task ∈ plan := parts.mem_iff.mp (by simp)
    by_cases ready : task.dependencies.all (fun dependency => (graph.get dependency).isSome) = true
    · have complete : ∀ dependency ∈ task.dependencies, dependency ∈ planIds done := by
        intro dependency depends
        exact shaped.get_isSome.mp (List.all_eq_true.mp ready dependency depends)
      have fresh : task.id ∉ planIds done := by
        have distinct := (parts.map TaskNode.id).nodup_iff.mpr ordered.nodup
        rw [List.map_append, List.nodup_append] at distinct
        intro present
        exact distinct.2.2 _ present _ (by simp) rfl
      have split : ((done ++ [task]) ++ (deferred ++ rest)).Perm plan := by
        refine List.Perm.trans ?_ parts
        rw [List.append_assoc, List.singleton_append]
        exact List.Perm.append_left _ List.perm_middle.symm
      have stays : ∀ node ∈ (graph.place task).nodes.values, node ∈ plan := by
        intro node inside
        obtain ⟨key, present⟩ := Dict.mem_values.mp inside
        rcases Dict.mem_insert.mp present with ⟨old, _⟩ | new
        · exact known node (Dict.mem_values.mpr ⟨key, old⟩)
        · cases new
          exact member
      obtain ⟨graph', deferred', done', run, more⟩ := ih (shaped.place fresh complete) split stays
      refine ⟨graph', deferred', done', ?_, more.1, more.2.1, more.2.2.1, more.2.2.2.1, ?_, fun _ => ?_⟩
      · rw [List.foldlM_cons, insertOrDefer, if_pos ready, shaped.insert_eq fresh complete]
        exact run
      · have bound := more.2.2.2.2.1
        simp only [List.length_cons]
        omega
      · have bound := more.2.2.2.2.1
        simp only [List.length_cons]
        omega
    · have split : (done ++ ((deferred ++ [task]) ++ rest)).Perm plan := by
        simpa using parts
      obtain ⟨graph', deferred', done', run, more⟩ := ih shaped split known
      refine ⟨graph', deferred', done', ?_, more.1, more.2.1, more.2.2.1, more.2.2.2.1, ?_, ?_⟩
      · rw [List.foldlM_cons, insertOrDefer, if_neg ready]
        exact run
      · have bound := more.2.2.2.2.1
        simp only [List.length_append, List.length_cons, List.length_nil] at bound ⊢
        omega
      · rintro ⟨node, inside, complete⟩
        rcases List.mem_cons.mp inside with rfl | later
        · refine absurd (List.all_eq_true.mpr ?_) ready
          exact fun dependency depends => shaped.get_isSome.mpr (complete dependency depends)
        · have bound := more.2.2.2.2.2 ⟨node, later, complete⟩
          simp only [List.length_append, List.length_cons, List.length_nil] at bound ⊢
          omega

/-- As long as tasks are pending, one of them can be inserted. -/
theorem exists_insertable {plan : List TaskNode} (ordered : InOrder plan) {done pending : List TaskNode}
    (parts : (done ++ pending).Perm plan) (inhabited : pending ≠ []) :
    ∃ node ∈ pending, ∀ dependency ∈ node.dependencies, dependency ∈ planIds done := by
  obtain ⟨some, here⟩ := List.exists_mem_of_ne_nil pending inhabited
  obtain ⟨node, member, inside, free⟩ := ordered.exists_first (fun task => task ∈ planIds pending)
    ⟨some, parts.mem_iff.mp (List.mem_append_right _ here), List.mem_map_of_mem here⟩
  obtain ⟨twin, waits, same⟩ := mem_planIds.mp inside
  have equal : twin = node :=
    List.inj_on_of_nodup_map ordered.nodup (parts.mem_iff.mp (List.mem_append_right _ waits)) member same
  subst equal
  refine ⟨twin, waits, ?_⟩
  intro dependency depends
  have somewhere := (planIds_perm parts).mpr (ordered.closed member depends)
  rw [planIds, List.map_append, List.mem_append] at somewhere
  exact somewhere.resolve_right (free dependency depends)

theorem insertRounds_ok {plan : List TaskNode} (ordered : InOrder plan) (jobId : JobId) (fuel : Nat)
    {graph : TaskGraph} {pending done : List TaskNode} (shaped : graph.Shaped done)
    (parts : (done ++ pending).Perm plan) (known : ∀ node ∈ graph.nodes.values, node ∈ plan)
    (enough : pending.length ≤ fuel) :
    ∃ graph' plan', insertRounds jobId fuel graph pending = .ok graph' ∧ graph'.Shaped plan' ∧ plan'.Perm plan ∧
      graph'.jobId = graph.jobId ∧ ∀ node ∈ graph'.nodes.values, node ∈ plan := by
  induction fuel generalizing graph pending done with
  | zero =>
    rw [List.length_eq_zero_iff.mp (Nat.le_zero.mp enough)] at parts ⊢
    exact ⟨graph, done, rfl, shaped, by simpa using parts, rfl, known⟩
  | succ fuel ih =>
    cases pending with
    | nil => exact ⟨graph, done, rfl, shaped, by simpa using parts, rfl, known⟩
    | cons task rest =>
      have whole : (done ++ ([] ++ (task :: rest))).Perm plan := by simpa using parts
      obtain ⟨graph', deferred, done', run, shaped', parts', same, known', _, progress⟩ :=
        round_ok ordered (task :: rest) shaped whole known
      have shorter := progress (exists_insertable ordered parts (List.cons_ne_nil _ _))
      rw [List.length_nil, Nat.zero_add] at shorter
      obtain ⟨graph'', plan', rest, more⟩ := ih shaped' parts' known' (by omega)
      refine ⟨graph'', plan', ?_, more.1, more.2.1, more.2.2.1.trans same, more.2.2.2⟩
      rw [insertRounds, run]
      · simp only [bind, Except.bind]
        rw [if_neg (by omega)]
        exact rest
      · simp

/-- petgraph's `toposort` succeeds on every acyclic graph. -/
def Sorts (toposort : DiGraph TaskId → Except Nat (List Nat)) : Prop :=
  ∀ g : DiGraph TaskId, g.Valid → g.Acyclic → ∃ order, toposort g = .ok order

theorem rebuildGraph_ok {toposort : DiGraph TaskId → Except Nat (List Nat)} (sorts : Sorts toposort)
    {plan tasks : List TaskNode} (ordered : InOrder plan) (order : tasks.Perm plan) (jobId : JobId) :
    ∃ graph plan', rebuildGraph toposort jobId tasks = .ok graph ∧ graph.Shaped plan' ∧ plan'.Perm plan ∧
      graph.jobId = jobId ∧ ∀ node ∈ graph.nodes.values, node ∈ plan := by
  obtain ⟨graph, plan', run, shaped, same, own, known⟩ := insertRounds_ok ordered jobId tasks.length
    (TaskGraph.shaped_new jobId) (by simpa using order) (by simp [TaskGraph.new, Dict.values]) (Nat.le_refl _)
  obtain ⟨sorted, found⟩ := sorts graph.graph shaped.valid shaped.acyclic
  refine ⟨graph, plan', ?_, shaped, same, own, known⟩
  simp only [rebuildGraph, run, TaskGraph.assertAcyclic, found, bind, Except.bind]
  rfl

/-- Restoring one task of the plan sets its state, and moves no other. -/
theorem restoreTask_ok (attempts : Dict TaskId Nat) {graph : TaskGraph} {plan : List TaskNode}
    (shaped : graph.Shaped plan) {task : TaskId} (known : task ∈ planIds plan) (state : TaskState) (resumed : Nat) :
    ∃ graph', restoreTask attempts (graph, resumed) (task, state) =
        .ok (graph', if state.isTerminal then resumed else resumed + 1) ∧
      graph'.Shaped plan ∧ graph'.jobId = graph.jobId ∧
      ∀ other, graph'.stateOf other = if other = task then some (restored state) else graph.stateOf other := by
  obtain ⟨node, found⟩ := Option.isSome_iff_exists.mp (shaped.get_isSome.mpr known)
  let moved := graph.update task (fun node => { node with state := restored state })
  have shapedMoved : moved.Shaped plan := shaped.update task (fun _ => rfl)
  have movedStates : ∀ other, moved.stateOf other = if other = task then some (restored state)
    else graph.stateOf other :=
    fun other => TaskGraph.stateOf_update_state found (restored state)
  rw [restoreTask, TaskGraph.restoreState, found]
  cases attempts.get? task with
  | none => exact ⟨moved, rfl, shapedMoved, rfl, movedStates⟩
  | some attempt =>
    exact ⟨moved.update task (fun node => { node with attempt := attempt }), rfl,
      shapedMoved.update task (fun _ => rfl), rfl,
      fun other => (TaskGraph.stateOf_update_attempt _).trans (movedStates other)⟩

/-- The loop over the journaled states sets each task to what its entry says. -/
theorem restore_ok (attempts : Dict TaskId Nat) (entries : List (TaskId × TaskState))
    (distinct : (entries.map Prod.fst).Nodup) {graph : TaskGraph} {plan : List TaskNode} (shaped : graph.Shaped plan)
    (known : ∀ entry ∈ entries, entry.1 ∈ planIds plan) (resumed : Nat) :
    ∃ graph' resumed', entries.foldlM (restoreTask attempts) (graph, resumed) = .ok (graph', resumed') ∧
      graph'.Shaped plan ∧ graph'.jobId = graph.jobId ∧
      ∀ task, graph'.stateOf task = match entries.lookup task with
        | some state => some (restored state)
        | none => graph.stateOf task := by
  induction entries generalizing graph resumed with
  | nil => exact ⟨graph, resumed, rfl, shaped, rfl, fun _ => rfl⟩
  | cons entry rest ih =>
    obtain ⟨task, state⟩ := entry
    rw [List.map_cons, List.nodup_cons] at distinct
    obtain ⟨attempted, first, shaped', own', moves⟩ :=
      restoreTask_ok attempts shaped (known _ List.mem_cons_self) state resumed
    obtain ⟨graph', resumed', run, shaped, own, states⟩ := ih distinct.2 shaped'
      (fun entry member => known entry (List.mem_cons_of_mem _ member))
        (if state.isTerminal then resumed else resumed + 1)
    refine ⟨graph', resumed', ?_, shaped, own.trans own', ?_⟩
    · rw [List.foldlM_cons, first]
      exact run
    · intro other
      rw [states, List.lookup_cons]
      by_cases same : other = task
      · subst same
        have absent : rest.lookup other = none := by
          cases later : rest.lookup other with
          | none => rfl
          | some state =>
            exact absurd (List.mem_map_of_mem (f := Prod.fst) (Dict.lookup_mem later)) distinct.1
        simp [absent, moves]
      · rw [beq_eq_false_iff_ne.mpr same, moves, if_neg same]

/-- What is known of a rebuilt job. -/
structure Rebuilt (state : Recovering) (job : Job) (journal : List JournalRecord) (h : JobHandle) : Prop where
  shaped : ∃ plan, plan.Perm state.tasks ∧ h.graph.Shaped plan
  jobId : h.graph.jobId = job.id
  states : ∀ task ∈ planIds state.tasks, h.graph.stateOf task =
    some ((state.taskStates.get? task).elim .created restored)
  job : ∃ resumed, h.job = rewound job resumed
  results : h.results = state.results
  finalResult : h.finalResult = state.finalResult
  control : h.control = .running
  journal : h.journal = journal

theorem build_ok {toposort : DiGraph TaskId → Except Nat (List Nat)} (sorts : Sorts toposort) {state : Recovering}
    {job : Job} (planned : state.job = some job) (ordered : ∃ plan, InOrder plan ∧ state.tasks.Perm plan)
    (blanks : ∀ node ∈ state.tasks, node.state = .created)
    (known : ∀ task ∈ state.taskStates.keys, task ∈ planIds state.tasks) (journal : List JournalRecord) :
    ∃ h, build toposort journal state = .ok h ∧ Rebuilt state job journal h := by
  obtain ⟨plan, ordered, order⟩ := ordered
  obtain ⟨graph, plan', run, shaped, same, own, inside⟩ := rebuildGraph_ok sorts ordered order job.id
  have listed : ∀ entry ∈ state.taskStates.entries, entry.1 ∈ planIds plan' := by
    intro entry member
    exact (planIds_perm (same.trans order.symm)).mpr (known entry.1 (List.mem_map_of_mem member))
  obtain ⟨graph', resumed, restore, shaped', own', states⟩ :=
    restore_ok state.attempts _ state.taskStates.nodup shaped listed 0
  refine ⟨_, by simp only [build, planned, run, restore, bind, Except.bind]; rfl,
    ⟨plan', same.trans order.symm, shaped'⟩, own'.trans own, ?_, ⟨resumed, rfl⟩, rfl, rfl, rfl, rfl⟩
  intro task member
  change graph'.stateOf task = _
  rw [states]
  change
    (match state.taskStates.get? task with | some state => some (restored state) | none => graph.stateOf task) = _
  cases state.taskStates.get? task with
  | some last => rfl
  | none =>
    have present := shaped.get_isSome.mpr ((planIds_perm (same.trans order.symm)).mpr member)
    obtain ⟨node, found⟩ := Option.isSome_iff_exists.mp present
    have planned := order.mem_iff.mpr (inside node (Dict.mem_values.mpr ⟨task, Dict.get?_eq_some.mp found⟩))
    simp [TaskGraph.stateOf, found, blanks node planned]

end Swarm.Recovery
