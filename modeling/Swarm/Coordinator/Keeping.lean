import Swarm.Coordinator.Holdings

namespace Swarm
open InMemoryQueue

namespace JobRun

/-- Losing an entry of the task does the job no harm. -/
def Spares (run : JobRun) (task : TaskId) : Prop :=
  run.handle.graph.isLeasable task = false ∧ ∀ dispatch ∈ run.pc.dispatches, dispatch.task.id ≠ task

/-- What an engine relies on to keep its entries in one step. -/
structure Undisturbed (input : EngineInput) (run : JobRun) (q : InMemoryQueue) (run' : JobRun) : Prop where
  live : q.LeasesLive
  lease : q.leases.get? input.leaseId = none ∧ input.leaseId ∉ run.pc.leaseIds
  unseen : ∀ task rest queued node old, run.pc = .promoting (task :: rest) queued →
    run'.handle.graph.get task = some node →
    run.handle.graph.stateOf task = some old → old.isFresh = true → node.attemptKey ∉ q.seen
  polls : ∀ left dispatches promoted entry rest, run.pc = .collecting (left + 1) dispatches promoted →
    q.pick input.now [] [] = some (entry, rest) → run.handle.graph.isLeasable entry.payload.id = true ∨
      run.Spares entry.payload.id
  drops : ∀ leaseId left dispatches promoted lease, run.pc = .dropping leaseId left dispatches promoted →
    q.leases.get? leaseId = some lease → run.Spares lease.task.payload.id
  ended : ∀ answer, run.pc = .returned answer → run.handle.job.status = .running →
    (∃ answer, run'.pc = .returned answer) ∧ run'.handle.job.status = .running

variable {input : EngineInput} {run run' : JobRun} {q q' : InMemoryQueue}

theorem Sound.other {run : JobRun} (sound : run.Sound) {dispatch : Dispatch} (member : dispatch ∈ run.pc.dispatches)
    {task : TaskId} (leasable : run.handle.graph.isLeasable task = true) : dispatch.task.id ≠ task := by
  rintro rfl
  rw [sound.not_leasable member] at leasable
  cases leasable

theorem isLeasable_touched {h h' : JobHandle} {task other : TaskId} {state : TaskState}
    (touches : Touches h h' task state) (leasable : h'.graph.isLeasable other = true) :
    other = task ∧ state.isLeasable = true ∨ other ≠ task ∧ h.graph.isLeasable other = true := by
  unfold TaskGraph.isLeasable at leasable ⊢
  rw [touches.states] at leasable
  split at leasable
  · rename_i same
    exact Or.inl ⟨same, leasable⟩
  · rename_i different
    exact Or.inr ⟨different, leasable⟩

theorem mem_leaseIds {pc : Pc} {dispatch : Dispatch} (member : dispatch ∈ pc.dispatches) :
    dispatch.lease.leaseId ∈ pc.leaseIds :=
  List.mem_append_left _ (List.mem_map.mpr ⟨dispatch, member, rfl⟩)

/-- The tasks in hand stay backed as long as none of them loses its entry. -/
theorem Kept.backed_passes (kept : run.Kept q) (sound : run.Sound) {lost : TaskId → Prop} {granted : Option LeaseId}
    (passes : Passes lost granted q q') (other : ∀ leaseId ∈ run.pc.leaseIds, granted ≠ some leaseId)
    {dispatch : Dispatch} (member : dispatch ∈ run.pc.dispatches) (spared : ¬ lost dispatch.task.id) :
    dispatch.Backed q' :=
  (kept.backed dispatch member).passes passes (sound.dispatched dispatch member).2.2 spared
    (other _ (mem_leaseIds member))

/-- Polling the queue takes one entry and grants the fresh lease. -/
theorem Undisturbed.polled (undisturbed : Undisturbed input run q run') {worker : String} {lease : TaskLease}
    (polled : q.dequeueFrom worker [] [] input.now input.leaseId = (some lease, q')) :
    Passes (· = lease.task.payload.id) (some input.leaseId) q q' ∧ lease.leaseId = input.leaseId ∧
      q'.leases.get? input.leaseId = some lease ∧ (∀ leaseId ∈ run.pc.leaseIds, some input.leaseId ≠ some leaseId) ∧
      ∃ entry rest, q.pick input.now [] [] = some (entry, rest) ∧ entry.payload = lease.task.payload := by
  obtain ⟨entry, rest, picked, _, id, task, _, leases, _⟩ := dequeueFrom_some polled
  refine ⟨passes_dequeueFrom polled undisturbed.lease.1, id,
    by rw [leases]; exact Dict.get?_insert_self, ?_, entry, rest,
    picked, by rw [task]⟩
  intro leaseId member same
  rw [← Option.some.inj same] at member
  exact undisturbed.lease.2 member

theorem kept_promoted (kept : run.Kept q) (sound : run.Sound) {task : TaskId} {rest : List TaskId} {queued : Nat}
    (promoting : run.pc = .promoting (task :: rest) queued) (next : run'.pc = .promoting rest (queued + 1))
    (touches : Touches run.handle run'.handle task .queued) {node : TaskNode} (same : node.id = task)
    (unseen : node.attemptKey ∉ q.seen) (priority : Priority) (leaseMs : Nat) (now : DateTime) :
    run'.Kept (q.enqueue (.fromTask node priority leaseMs now)) := by
  refine ⟨Or.inr ?_, by simp [next, Pc.dispatches]⟩
  intro other leasable
  refine Or.inl ?_
  rcases isLeasable_touched touches leasable with ⟨rfl, _⟩ | ⟨_, before⟩
  · have ready : (q.enqueue (.fromTask node priority leaseMs now)).HasReady node.id := hasReady_enqueue unseen
    rw [← same]
    exact ready
  · have ready := kept.ready sound (by rw [promoting]; rfl) (by rw [promoting]; rfl) before
    exact (passes_enqueue q _).ready other id ready

theorem kept_steady (kept : run.Kept q) (sound : run.Sound) (moves : Moves run.handle run'.handle)
    (swept : q' = q ∨ q' = (q.requeueExpired input.now).2 ∧ run'.pc.dispatches = [])
    (graph : run'.handle.graph = run.handle.graph) (fewer : run'.pc.dispatches.Sublist run.pc.dispatches)
    (before : run.pc.pending = none)
    (ended : ∀ answer, run.pc = .returned answer → run.handle.job.status = .running → run'.Excused q') :
    run'.Kept q' := by
  have passes : Passes NoTask none q q' := by
    rcases swept with rfl | ⟨rfl, _⟩
    · exact .refl q'
    · exact passes_requeueExpired q _
  have plain : run.pc.returning = none := by
    cases returning : run.pc.returning with
    | none => rfl
    | some leaseId =>
      rw [pending_of_returning returning] at before
      cases before
  refine ⟨?_, ?_⟩
  · rcases kept.covered with excused | covers
    · refine Or.inl ?_
      cases excused with
      | finished done => exact .finished (finished_moves moves done)
      | ended here running => exact ended _ here running
      | ending returning _ =>
        rw [plain] at returning
        cases returning
    · refine Or.inr ?_
      intro task leasable
      rw [graph] at leasable
      rcases covers task leasable with ready | ⟨_, _, returning, _⟩
      · exact Or.inl (passes.ready task id ready)
      · rw [plain] at returning
        cases returning
  · intro dispatch member
    exact kept.backed_passes sound passes (by simp) (fewer.subset member) id

theorem kept_started (kept : run.Kept q) (sound : run.Sound) (undisturbed : Undisturbed input run q run') {left : Nat}
    {dispatches : List Dispatch} {promoted : Nat} (collecting : run.pc = .collecting (left + 1) dispatches promoted)
    {worker : String} {lease : TaskLease}
    (polled : q.dequeueFrom worker [] [] input.now input.leaseId = (some lease, q'))
    (leasable : run.handle.graph.isLeasable lease.task.payload.id = true)
    (touches : Touches run.handle run'.handle lease.task.payload.id .running) {dispatch : Dispatch}
    (sameLease : dispatch.lease = lease) (next : run'.pc = .collecting left (dispatches ++ [dispatch]) promoted) :
    run'.Kept q' := by
  obtain ⟨passes, id, held, other, _⟩ := undisturbed.polled polled
  have inHand : run.pc.dispatches = dispatches := by rw [collecting]; rfl
  refine ⟨Or.inr ?_, ?_⟩
  · intro task waits
    rcases isLeasable_touched touches waits with ⟨_, impossible⟩ | ⟨different, before⟩
    · cases impossible
    · exact Or.inl
        (passes.ready task different (kept.ready sound (by rw [collecting]; rfl) (by rw [collecting]; rfl) before))
  · intro any member
    rw [next] at member
    rcases List.mem_append.mp member with earlier | new
    · rw [← inHand] at earlier
      exact kept.backed_passes sound passes other earlier (sound.other earlier leasable)
    · refine Or.inl ?_
      rw [List.mem_singleton.mp new, sameLease, id]
      exact held

/-- A granted lease that is given back or dropped next. -/
theorem kept_declined (kept : run.Kept q) (sound : run.Sound)
    (undisturbed : Undisturbed input run q run') {left : Nat} {dispatches : List Dispatch} {promoted : Nat}
    (collecting : run.pc = .collecting (left + 1) dispatches promoted) {worker : String} {lease : TaskLease}
    (polled : q.dequeueFrom worker [] [] input.now input.leaseId = (some lease, q'))
    (graph : run'.handle.graph = run.handle.graph) (same : run'.pc.dispatches = dispatches)
    (spared : ∀ dispatch ∈ run.pc.dispatches, dispatch.task.id ≠ lease.task.payload.id)
    (rest : run.handle.graph.isLeasable lease.task.payload.id = true → run'.pc.returning = some lease.leaseId) :
    run'.Kept q' := by
  obtain ⟨passes, id, held, other, _⟩ := undisturbed.polled polled
  have inHand : run.pc.dispatches = dispatches := by rw [collecting]; rfl
  refine ⟨Or.inr ?_, ?_⟩
  · intro task leasable
    rw [graph] at leasable
    by_cases here : task = lease.task.payload.id
    · subst here
      exact Or.inr ⟨lease.leaseId, lease, rest leasable, by rw [id]; exact held, rfl⟩
    · exact Or.inl
        (passes.ready task here (kept.ready sound (by rw [collecting]; rfl) (by rw [collecting]; rfl) leasable))
  · intro any member
    rw [same, ← inHand] at member
    exact kept.backed_passes sound passes other member (spared any member)

theorem kept_dropped (kept : run.Kept q) (sound : run.Sound) (undisturbed : Undisturbed input run q run') {left : Nat}
    {leaseId : LeaseId} {dispatches : List Dispatch} {promoted : Nat}
    (dropping : run.pc = .dropping leaseId left dispatches promoted) (same : run'.handle = run.handle)
    (next : run'.pc = .collecting left dispatches promoted) : run'.Kept (q.acknowledge leaseId input.now).2 := by
  have passes := passes_acknowledge undisturbed.live leaseId input.now
  refine ⟨Or.inr ?_, ?_⟩
  · intro task leasable
    rw [same] at leasable
    refine Or.inl (passes.ready task ?_ (kept.ready sound (by rw [dropping]; rfl) (by rw [dropping]; rfl) leasable))
    rintro ⟨held, found, rfl⟩
    rw [(undisturbed.drops _ _ _ _ held dropping found).1] at leasable
    cases leasable
  · intro any member
    have before : any ∈ run.pc.dispatches := by
      rw [next] at member
      rw [dropping]
      exact member
    refine kept.backed_passes sound passes (by simp) before ?_
    rintro ⟨held, found, here⟩
    exact (undisturbed.drops _ _ _ _ held dropping found).2 any before here.symm

theorem kept_released (kept : run.Kept q) (sound : run.Sound) {leaseId : LeaseId} {dispatches : List Dispatch}
    {promoted : Nat} (releasing : run.pc = .releasing leaseId dispatches promoted)
    (released : q.release leaseId input.now = (.ok (), q')) (same : run'.handle = run.handle)
    (next : run'.pc = Engine.collected run.handle dispatches promoted) : run'.Kept q' := by
  obtain ⟨held, found, back⟩ := release_ok released
  have passes := passes_release q leaseId input.now
  rw [released] at passes
  refine ⟨Or.inr ?_, ?_⟩
  · intro task leasable
    rw [same] at leasable
    refine Or.inl ?_
    rcases kept.covered with excused | covers
    · cases excused with
      | finished done => exact absurd ((sound.live (by rw [releasing]; rfl)).symm.trans done) (by simp)
      | ended here _ =>
        rw [releasing] at here
        cases here
      | ending returning gone =>
        rw [releasing] at returning
        cases returning
        rw [found] at gone
        cases gone
    · rcases covers task leasable with ready | ⟨other, lease, returning, here, rfl⟩
      · exact passes.ready task id ready
      · rw [releasing] at returning
        cases returning
        rw [found] at here
        cases here
        exact back
  · intro any member
    rw [next, (Engine.collected_dispatches run.handle dispatches promoted).1] at member
    exact kept.backed_passes sound passes (by simp) (by rw [releasing]; exact member) id

theorem kept_applied (kept : run.Kept q) (sound : run.Sound) (live : q.LeasesLive) {dispatch : Dispatch}
    {outcome : Outcome} {rest : List (Dispatch × Outcome)} {acknowledged : Bool} {state : TaskState}
    (applying : run.pc = .applying ((dispatch, outcome) :: rest)) (next : run'.pc = .applying rest)
    (settles : Settles q dispatch.lease.leaseId input.now acknowledged q')
    (touches : Touches run.handle run'.handle dispatch.task.id state)
    (again : state.isLeasable = true → acknowledged = false ∧
      dispatch.lease.task.retry.allowsRetry dispatch.lease.task.attempt = true) : run'.Kept q' := by
  have first : dispatch ∈ run.pc.dispatches := by
    rw [applying]
    exact List.mem_cons_self
  have passes := settles.passes live
  have backed := kept.backed dispatch first
  have sameTask := (sound.dispatched dispatch first).2.2
  -- the only entry that may be lost is the one of the settled task
  have onlyMine : ∀ task, (∃ held, q.leases.get? dispatch.lease.leaseId = some held ∧ held.task.payload.id = task) →
      task = dispatch.task.id := by
    rintro task ⟨held, found, rfl⟩
    rcases backed with here | ⟨gone, _⟩
    · rw [here] at found
      cases found
      exact sameTask.symm
    · rw [gone] at found
      cases found
  refine ⟨Or.inr ?_, ?_⟩
  · intro task leasable
    refine Or.inl ?_
    rcases isLeasable_touched touches leasable with ⟨rfl, waits⟩ | ⟨different, before⟩
    · obtain ⟨rfl, allowed⟩ := again waits
      rcases backed with here | ⟨gone, requeued⟩
      · rw [sameTask]
        exact settles.requeued live here allowed
      · refine passes.ready _ ?_ (requeued allowed)
        rintro ⟨held, found, _⟩
        rw [gone] at found
        cases found
    · exact passes.ready task (fun lost => different (onlyMine task lost))
        (kept.ready sound (by rw [applying]; rfl) (by rw [applying]; rfl) before)
  · intro any member
    have later : any ∈ rest.map Prod.fst := by
      rw [next] at member
      exact member
    refine kept.backed_passes sound passes (by simp) (by rw [applying]; exact List.mem_cons_of_mem _ later) ?_
    intro lost
    have distinct := sound.distinct
    rw [applying] at distinct
    refine (List.nodup_cons.mp distinct).1 ?_
    change dispatch.task.id ∈ _
    rw [← onlyMine _ lost]
    exact List.mem_map.mpr ⟨any, later, rfl⟩

theorem kept_retired (kept : run.Kept q) (sound : run.Sound) (deciding : run.pc = .deciding)
    (retires : Retires run.handle run'.handle) (next : run'.pc = .finishing false ∨ run'.pc = .top) :
    run'.Kept q := by
  refine ⟨Or.inr ?_, ?_⟩
  · intro task leasable
    refine Or.inl (kept.ready sound (by rw [deciding]; rfl) (by rw [deciding]; rfl) ?_)
    rcases retires.states task with same | ⟨state, now, terminal⟩
    · unfold TaskGraph.isLeasable at leasable ⊢
      rw [← same]
      exact leasable
    · unfold TaskGraph.isLeasable at leasable
      rw [now] at leasable
      cases state <;> simp [TaskState.isLeasable, TaskState.isTerminal] at leasable terminal
  · rcases next with here | here <;> simp [here, Pc.dispatches]

/-- Whatever an engine does next, the queue holds what its job needs. -/
theorem Kept.stepped (kept : run.Kept q) (sound : run.Sound) (calm : run.pc ≠ .cancelling)
    (stepped : Stepped input run q run' q')
    (own : ∀ task node, run'.handle.graph.get task = some node → node.id = task)
    (undisturbed : Undisturbed input run q run') : run'.Kept q' := by
  cases stepped.effect with
  | steady swept graph fewer before after =>
    refine kept_steady kept sound stepped.moves swept graph fewer before ?_
    intro answer here running
    obtain ⟨⟨_, still⟩, status⟩ := undisturbed.ended answer here running
    exact .ended still status
  | stopped running job here =>
      exact ⟨Or.inl (.ended here (by rw [job]; exact running)), by simp [here, Pc.dispatches]⟩
  | promoted priority leaseMs promoting next touches found known fresh =>
    exact kept_promoted kept sound promoting next touches (own _ _ found)
      (undisturbed.unseen _ _ _ _ _ promoting found known fresh) priority leaseMs input.now
  | started collecting polled leasable touches sameLease next =>
    exact kept_started kept sound undisturbed collecting polled leasable touches sameLease next
  | refused collecting polled leasable graph next =>
    exact kept_declined kept sound undisturbed collecting polled graph (by rw [next]; rfl)
      (fun dispatch member => sound.other member leasable) (fun _ => by rw [next]; rfl)
  | declined collecting polled useless same next =>
    obtain ⟨_, _, _, _, entry, rest, picked, samePayload⟩ := undisturbed.polled polled
    refine kept_declined kept sound undisturbed collecting polled (by rw [same]) (by rw [next]; rfl) ?_ ?_
    · have spared := (undisturbed.polls _ _ _ entry rest collecting picked).resolve_left (by
        rw [samePayload]
        exact fun leasable => absurd (useless.symm.trans leasable) (by simp))
      rw [← samePayload]
      exact spared.2
    · exact fun leasable => absurd (useless.symm.trans leasable) (by simp)
  | dropped dropping same next => exact kept_dropped kept sound undisturbed dropping same next
  | released releasing released same next => exact kept_released kept sound releasing released same next
  | applied applying next settles touches again =>
    exact kept_applied kept sound undisturbed.live applying next settles touches again
  | retired deciding retires next => exact kept_retired kept sound deciding retires next
  | cancelled cancelling => exact absurd cancelling calm

end JobRun

end Swarm
