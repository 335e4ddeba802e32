import Swarm.Coordinator.Discipline
import Swarm.Coordinator.Progress
import Swarm.Domain.Counting
import Swarm.Queue.Draining

namespace Swarm
open InMemoryQueue JobHandle Act

/-- The states of a task with which nothing has gone wrong. -/
def TaskState.isWell : TaskState → Bool
  | created | waitingForDependency | queued | running | completed => true
  | _ => false

theorem TaskState.isWell_cases {state : TaskState} (well : state.isWell = true) :
    (state = .created ∨ state = .waitingForDependency) ∨ state = .queued ∨ state = .running ∨ state = .completed := by
  cases state <;> simp_all [isWell]

/-- The attempt was answered in time with a result that passed validation. -/
def Outcome.isValid : Outcome → Bool
  | .returned (.ok result) => result.passedValidation
  | _ => false

namespace TaskGraph
variable {g g' : TaskGraph}

/-- How many tasks are complete. -/
def done (g : TaskGraph) : Nat := (g.withState (· == .completed)).length

/-- Some task is not complete. -/
def Undone (g : TaskGraph) : Prop := ∃ task state, g.stateOf task = some state ∧ state ≠ .completed

/-- Every task is complete. -/
def Finished (g : TaskGraph) : Prop := ∀ task state, g.stateOf task = some state → state = .completed

/-- Some task waits to be leased. -/
def Stocked (g : TaskGraph) : Prop := ∃ task, g.stateOf task = some .queued

theorem Navigable.nodup_withState (navigable : g.Navigable) (wanted : TaskState → Bool) :
    (g.withState wanted).Nodup :=
  navigable.nodup_ids.sublist (List.filter_sublist.map TaskNode.id)

theorem Navigable.mem_completed (navigable : g.Navigable) {task : TaskId} :
    task ∈ g.withState (· == .completed) ↔ g.stateOf task = some .completed := by
  rw [navigable.mem_withState]
  constructor
  · rintro ⟨state, found, same⟩
    rw [found, eq_of_beq same]
  · intro found
    exact ⟨_, found, rfl⟩

/-- What is complete stays complete, so the count does not fall. -/
theorem Navigable.done_mono (navigable : g.Navigable) (navigable' : g'.Navigable)
    (stays : ∀ task, g.stateOf task = some .completed → g'.stateOf task = some .completed) : g.done ≤ g'.done := by
  refine (List.subperm_of_subset (navigable.nodup_withState _) ?_).length_le
  exact fun task member => navigable'.mem_completed.mpr (stays task (navigable.mem_completed.mp member))

/-- A task that completes is counted once more. -/
theorem Navigable.done_succ (navigable : g.Navigable) (navigable' : g'.Navigable) {task : TaskId}
    (before : g.stateOf task ≠ some .completed)
    (states : ∀ other, g'.stateOf other = if other = task then some .completed else g.stateOf other) :
    g.done + 1 ≤ g'.done := by
  have distinct : (task :: g.withState (· == .completed)).Nodup :=
    List.nodup_cons.mpr ⟨fun member => before (navigable.mem_completed.mp member), navigable.nodup_withState _⟩
  refine (List.subperm_of_subset distinct ?_).length_le
  intro other member
  refine navigable'.mem_completed.mpr ?_
  rw [states]
  split
  · rfl
  · rename_i different
    exact navigable.mem_completed.mp ((List.mem_cons.mp member).resolve_left different)

/-- As long as a task is not complete, fewer are complete than there are. -/
theorem Navigable.done_lt (navigable : g.Navigable) (undone : g.Undone) : g.done < g.len := by
  obtain ⟨task, state, found, incomplete⟩ := undone
  have distinct : (task :: g.withState (· == .completed)).Nodup := by
    refine List.nodup_cons.mpr ⟨?_, navigable.nodup_withState _⟩
    intro member
    rw [navigable.mem_completed.mp member] at found
    exact incomplete (Option.some.inj found).symm
  rw [← count_all g]
  refine (List.subperm_of_subset distinct ?_).length_le
  intro other member
  refine navigable.mem_withState.mpr ?_
  rcases List.mem_cons.mp member with rfl | complete
  · exact ⟨state, found, rfl⟩
  · exact ⟨_, navigable.mem_completed.mp complete, rfl⟩

theorem done_le (g : TaskGraph) : g.done ≤ g.len := by
  rw [done, ← count_all g, length_withState, length_withState]
  exact List.countP_mono_left (fun _ _ _ => rfl)

/-- With nothing in flight, the first task that is not complete can be queued or is queued. -/
theorem Navigable.workable (navigable : g.Navigable)
    (well : ∀ task state, g.stateOf task = some state → state.isWell = true)
    (rests : ∀ task, g.stateOf task ≠ some .running) (undone : g.Undone) : g.ready ≠ [] ∨ g.Stocked := by
  have starts : ∃ task node, g.get task = some node ∧ g.stateOf task ≠ some .completed := by
    obtain ⟨task, state, found, incomplete⟩ := undone
    obtain ⟨node, known, _⟩ := Option.map_eq_some_iff.mp found
    exact ⟨task, node, known, by rw [found]; simpa using incomplete⟩
  obtain ⟨task, node, found, incomplete, free⟩ :=
    navigable.first (fun task => g.stateOf task ≠ some .completed) starts
  have unblocked : g.Unblocked node := fun dependency depends => not_not.mp (free dependency depends)
  have stands : g.stateOf task = some node.state := by rw [stateOf, found, Option.map_some]
  have fine := well task node.state stands
  have still := rests task
  rw [stands] at incomplete still
  rcases TaskState.isWell_cases fine with waiting | queued | running | completed
  · exact Or.inl (List.ne_nil_of_mem (navigable.mem_ready.mpr ⟨node, found, waiting, unblocked⟩))
  · exact Or.inr ⟨task, by rw [stands, queued]⟩
  · exact absurd (by rw [running]) still
  · exact absurd (by rw [completed]) incomplete

/-- Where every task is complete, the counts say so. -/
theorem Finished.counts (finished : g.Finished) : g.counts.abandoned = 0 ∧ g.counts.completed = g.counts.total := by
  have complete : ∀ node ∈ g.nodes.values, node.state = .completed := by
    intro node member
    obtain ⟨task, present⟩ := Dict.mem_values.mp member
    have found : g.get task = some node := Dict.get?_eq_some.mpr present
    exact finished task node.state (by rw [stateOf, found, Option.map_some])
  have folds : ∀ (nodes : List TaskNode) (counts : GraphCounts), (∀ node ∈ nodes, node.state = .completed) →
      (nodes.foldl countTask counts).abandoned = counts.abandoned ∧
        (nodes.foldl countTask counts).completed = counts.completed + nodes.length := by
    intro nodes
    induction nodes with
    | nil => exact fun _ _ => ⟨rfl, rfl⟩
    | cons node rest ih =>
      intro counts all
      have step : countTask counts node = { counts with completed := counts.completed + 1 } := by
        rw [countTask, all node List.mem_cons_self]
      obtain ⟨abandoned, completed⟩ := ih { counts with completed := counts.completed + 1 }
        (fun node member => all node (List.mem_cons_of_mem _ member))
      rw [List.foldl_cons, step, List.length_cons]
      exact ⟨abandoned, completed.trans (by simp only; omega)⟩
  obtain ⟨abandoned, completed⟩ := folds g.nodes.values { total := g.len } complete
  refine ⟨abandoned, ?_⟩
  rw [total_counts, TaskGraph.counts, completed]
  simp [len, Dict.values]

end TaskGraph

/-- In a queue without leases nothing expires. -/
theorem InMemoryQueue.requeueExpired_of_none {q : InMemoryQueue} (none : ∀ leaseId, q.leases.get? leaseId = none)
    (now : DateTime) : (q.requeueExpired now).2 = q := by
  have empty : q.leases.values = [] := by
    refine List.eq_nil_iff_forall_not_mem.mpr ?_
    intro lease member
    obtain ⟨leaseId, present⟩ := Dict.mem_values.mp member
    have found := Dict.get?_eq_some.mpr present
    rw [none] at found
    cases found
  simp only [requeueExpired, empty, List.filter_nil, List.map_nil, List.foldl_nil]

/-- An entry that is ready and visible is picked sooner or later: a poll without filters comes to something. -/
theorem InMemoryQueue.polls_ready {q : InMemoryQueue} {task : TaskId} {now : DateTime} (ready : q.HasReady task)
    (visible : ∀ entry ∈ q.ready, entry.availableAt ≤ now) (worker : String) (leaseId : LeaseId) :
    (q.dequeueFrom worker [] [] now leaseId).1 ≠ none := by
  obtain ⟨entry, member, _⟩ := ready
  intro none
  have empty := dequeueFrom_eq_none.mp none
  have listed : entry ∈ q.ready.filter (eligible now [] []) := by
    refine List.mem_filter.mpr ⟨member, ?_⟩
    simp [eligible, QueuedTask.isVisible, QueuedTask.matchesCapabilities, visible entry member]
  rw [empty] at listed
  cases listed

/-- Nothing has gone wrong with a task of the job: what the queue holds ready is queued, visible
and can be placed, and what it holds leased is in hand. -/
structure JobRun.Well (clock : DateTime) (q : InMemoryQueue) (run : JobRun) : Prop where
  states : ∀ task state, run.handle.graph.stateOf task = some state → state.isWell = true
  visible : ∀ entry ∈ q.ready, entry.availableAt ≤ clock
  waiting : ∀ entry ∈ q.ready, run.handle.graph.stateOf entry.payload.id = some .queued
  fitted : ∀ entry ∈ q.ready, entry.payload.requiredCapabilities = entry.payload.kind.requiredCapabilities
  leased : ∀ leaseId lease, q.leases.get? leaseId = some lease →
    ∃ dispatch ∈ run.pc.dispatches, dispatch.lease.leaseId = leaseId
  held : ∀ dispatch ∈ run.pc.dispatches, q.leases.get? dispatch.lease.leaseId = some dispatch.lease

/-- Every tick but the one that runs has brought a task to completion, and the one that runs will. -/
def JobRun.OnCourse (config : CoordinatorConfig) (toposort : DiGraph TaskId → Except Nat (List Nat)) (shared : Shared)
    (run : JobRun) : Prop :=
  let g := run.handle.graph
  match run.pc with
  | .idle => run.handle.job.status = .planning ∧ (∀ node, toposort g.graph ≠ .error node) ∧ g.Undone ∧
      shared.clusterAgents + max 1 run.handle.job.request.maxAgents ≤ config.maxClusterAgents
  | .top => run.ticks ≤ g.done ∧ run.paused = false ∧ g.Undone
  | .promoting todo _ => run.ticks ≤ g.done + 1 ∧ (todo ≠ [] ∨ g.Stocked)
  | .maintaining _ | .scaling .. | .growing .. | .reclaiming .. => run.ticks ≤ g.done + 1 ∧ g.Stocked
  | .collecting left dispatches _ => run.ticks ≤ g.done + 1 ∧ (dispatches = [] → 0 < left ∧ g.Stocked)
  | .executing dispatches => run.ticks ≤ g.done + 1 ∧ dispatches ≠ []
  | .applying todo => run.ticks ≤ g.done + 1 ∧ (todo = [] → run.ticks ≤ g.done) ∧
      ∀ entry ∈ todo, entry.2.isValid = true
  | .finishing cancelled => run.ticks ≤ g.done ∧ cancelled = false ∧ g.Finished
  | .returned answer => run.ticks ≤ g.done ∧ g.Finished ∧ run.handle.job.status = .completed ∧
      ∃ result, answer = .ok result ∧ result.status = .completed ∧ run.handle.finalResult = some result
  | _ => False

namespace JobRun.Well
variable {clock now : DateTime} {q q' : InMemoryQueue} {run run' : JobRun}

theorem later (well : run.Well clock q) (later : clock ≤ now) : run.Well now q :=
  { well with visible := fun entry member => le_trans (well.visible entry member) later }

/-- A step that leaves the tasks, the queue and what is in hand alone. -/
theorem calm (well : run.Well clock q) (graph : run'.handle.graph = run.handle.graph)
    (same : run'.pc.dispatches = run.pc.dispatches) : run'.Well clock q where
  states := by
    rw [graph]
    exact well.states
  visible := well.visible
  waiting := by
    rw [graph]
    exact well.waiting
  fitted := well.fitted
  leased := by
    rw [same]
    exact well.leased
  held := by
    rw [same]
    exact well.held

/-- With nothing in hand nothing is leased. -/
theorem unleased (well : run.Well clock q) (empty : run.pc.dispatches = []) (leaseId : LeaseId) :
    q.leases.get? leaseId = none := by
  cases found : q.leases.get? leaseId with
  | none => rfl
  | some lease =>
    obtain ⟨dispatch, member, _⟩ := well.leased leaseId lease found
    rw [empty] at member
    cases member

/-- A task in a well state leaves all tasks in well states. -/
theorem states_set (well : run.Well clock q) {task : TaskId} {state : TaskState} (fine : state.isWell = true)
    (states : ∀ other, run'.handle.graph.stateOf other =
      if other = task then some state else run.handle.graph.stateOf other)
    (other : TaskId) (current : TaskState) (found : run'.handle.graph.stateOf other = some current) :
    current.isWell = true := by
  rw [states] at found
  split at found
  · cases found
    exact fine
  · exact well.states other current found

/-- A task is queued. -/
theorem promoted (well : run.Well clock q) (empty : run.pc.dispatches = []) (empty' : run'.pc.dispatches = [])
    {task : TaskId} {node : TaskNode} (same : node.id = task)
    (exact : node.requiredCapabilities = node.kind.requiredCapabilities)
    (states : ∀ other, run'.handle.graph.stateOf other =
      if other = task then some .queued else run.handle.graph.stateOf other)
    (priority : Priority) (leaseMs : Nat) : run'.Well clock (q.enqueue (.fromTask node priority leaseMs clock)) := by
  have inside : ∀ entry ∈ (q.enqueue (.fromTask node priority leaseMs clock)).ready,
      entry ∈ q.ready ∨ entry = .fromTask node priority leaseMs clock := by
    intro entry member
    unfold enqueue at member
    split at member
    · exact Or.inl member
    · simpa using member
  have leases : (q.enqueue (.fromTask node priority leaseMs clock)).leases = q.leases := by
    unfold enqueue
    split <;> rfl
  refine ⟨well.states_set rfl states, ?_, ?_, ?_, ?_, ?_⟩
  · intro entry member
    rcases inside entry member with old | rfl
    · exact well.visible entry old
    · exact le_refl clock
  · intro entry member
    rw [states]
    split
    · rfl
    · rename_i different
      rcases inside entry member with old | rfl
      · exact well.waiting entry old
      · exact absurd same different
  · intro entry member
    rcases inside entry member with old | rfl
    · exact well.fitted entry old
    · exact exact
  · intro leaseId lease found
    rw [leases, well.unleased empty] at found
    cases found
  · rw [empty']
    exact fun _ absurd => by cases absurd

/-- A polled entry goes to an agent. -/
theorem started (well : run.Well clock q) (single : q.subjects.Nodup) {worker : String} {leaseId : LeaseId}
    {lease : TaskLease}
    (polled : q.dequeueFrom worker [] [] clock leaseId = (some lease, q'))
    (fresh : leaseId ∉ run.pc.dispatches.map (fun dispatch => dispatch.lease.leaseId)) {dispatch : Dispatch}
    (sameLease : dispatch.lease = lease) (inHand : run'.pc.dispatches = run.pc.dispatches ++ [dispatch])
    (states : ∀ other, run'.handle.graph.stateOf other =
      if other = lease.task.payload.id then some .running
        else run.handle.graph.stateOf other) : run'.Well clock q' := by
  obtain ⟨entry, _, _, taken, id, task, _, leases, _⟩ := dequeueFrom_some polled
  have payload : lease.task.payload = entry.payload := by rw [task]
  have ready : ∀ other ∈ q'.ready, other ∈ q.ready :=
    fun other member => taken.mem_iff.mpr (List.mem_cons_of_mem _ member)
  have others : ∀ other ∈ q'.ready, other.payload.id ≠ lease.task.payload.id := by
    have distinct : ((entry :: q'.ready).map QueuedTask.subject).Nodup := by
      refine ((taken.map QueuedTask.subject).nodup_iff).mp ?_
      exact single.sublist ((List.sublist_append_left _ _).trans (List.sublist_append_left _ _))
    intro other member same
    refine (List.nodup_cons.mp distinct).1 (List.mem_map.mpr ⟨other, member, ?_⟩)
    exact same.trans (congrArg TaskNode.id payload)
  refine ⟨well.states_set rfl states, fun other member => well.visible other (ready other member), ?_,
    fun other member => well.fitted other (ready other member), ?_, ?_⟩
  · intro other member
    rw [states, if_neg (others other member)]
    exact well.waiting other (ready other member)
  · intro held current found
    rw [leases, Dict.get?_insert] at found
    rw [inHand]
    split at found
    · rename_i same
      refine ⟨dispatch, List.mem_append_right _ (List.mem_singleton_self _), ?_⟩
      rw [sameLease, id, same]
    · obtain ⟨earlier, member, same⟩ := well.leased held current found
      exact ⟨earlier, List.mem_append_left _ member, same⟩
  · intro any member
    rw [inHand] at member
    rw [leases]
    rcases List.mem_append.mp member with earlier | new
    · rw [Dict.get?_insert_of_ne]
      · exact well.held any earlier
      · exact fun same => fresh (List.mem_map.mpr ⟨any, earlier, same⟩)
    · rw [List.mem_singleton.mp new, sameLease, id]
      exact Dict.get?_insert_self

/-- The first task in hand is complete, and its lease is gone. -/
theorem settled (well : run.Well clock q) {dispatch : Dispatch} {rest : List Dispatch}
    (inHand : run.pc.dispatches = dispatch :: rest) (inHand' : run'.pc.dispatches = rest)
    (ids : (run.pc.dispatches.map (fun dispatch => dispatch.lease.leaseId)).Nodup)
    (running : run.handle.graph.stateOf dispatch.task.id = some .running)
    (ready : q'.ready = q.ready) (leases : q'.leases = q.leases.erase dispatch.lease.leaseId)
    (states : ∀ other, run'.handle.graph.stateOf other =
      if other = dispatch.task.id then some .completed else run.handle.graph.stateOf other) : run'.Well clock q' := by
  have different : ∀ other ∈ rest, other.lease.leaseId ≠ dispatch.lease.leaseId := by
    rw [inHand] at ids
    intro other member same
    exact (List.nodup_cons.mp ids).1 (List.mem_map.mpr ⟨other, member, same⟩)
  refine ⟨well.states_set rfl states, ?_, ?_, ?_, ?_, ?_⟩
  · rw [ready]
    exact well.visible
  · intro entry member
    rw [ready] at member
    have queued := well.waiting entry member
    rw [states, if_neg]
    · exact queued
    · intro same
      rw [same, running] at queued
      cases queued
  · rw [ready]
    exact well.fitted
  · intro leaseId lease found
    rw [leases, Dict.get?_erase] at found
    split at found
    · cases found
    · rename_i other
      obtain ⟨holder, member, same⟩ := well.leased leaseId lease found
      rw [inHand] at member
      rw [inHand']
      rcases List.mem_cons.mp member with rfl | later
      · exact absurd same.symm other
      · exact ⟨holder, later, same⟩
  · intro any member
    rw [inHand'] at member
    rw [leases, Dict.get?_erase, if_neg (different any member)]
    exact well.held any (by rw [inHand]; exact List.mem_cons_of_mem _ member)

end JobRun.Well

end Swarm
