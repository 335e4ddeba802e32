import Swarm.Coordinator.Isolation

namespace Swarm
open InMemoryQueue

/-- The task that an entry is for. -/
def QueuedTask.subject (entry : QueuedTask) : TaskId := entry.payload.id

theorem QueuedTask.blind_subject : Blind QueuedTask.subject := fun _ _ _ => rfl

namespace InMemoryQueue

/-- The tasks of everything the queue still holds. -/
def subjects (q : InMemoryQueue) : List TaskId := q.labels QueuedTask.subject

section
variable {q q' : InMemoryQueue}

theorem mem_subjects {task : TaskId} : task ∈ q.subjects ↔ q.HasReady task ∨
    (∃ leaseId lease, q.leases.get? leaseId = some lease ∧ lease.task.payload.id = task) ∨
    ∃ letter ∈ q.dead, letter.task.payload.id = task := by
  simp only [subjects, labels, List.mem_append, List.mem_map, QueuedTask.subject, or_assoc]
  refine or_congr Iff.rfl (or_congr ?_ Iff.rfl)
  constructor
  · rintro ⟨lease, member, same⟩
    obtain ⟨leaseId, present⟩ := Dict.mem_values.mp member
    exact ⟨leaseId, lease, Dict.get?_eq_some.mpr present, same⟩
  · rintro ⟨leaseId, lease, found, same⟩
    exact ⟨lease, Dict.mem_values.mpr ⟨leaseId, Dict.get?_eq_some.mp found⟩, same⟩

theorem subjects_erase {leaseId : LeaseId} {lease : TaskLease} (found : q.leases.get? leaseId = some lease)
    (stats : QueueStats) :
    q.subjects.Perm (lease.task.payload.id :: { q with leases := q.leases.erase leaseId, stats := stats }.subjects) :=
  labels_erase found

/-- The task of a lease has no other entry. -/
theorem alone_of_lease (single : q.subjects.Nodup) {leaseId : LeaseId} {lease : TaskLease}
    (found : q.leases.get? leaseId = some lease) :
    lease.task.payload.id ∉ { q with leases := q.leases.erase leaseId }.subjects := by
  have taken := (subjects_erase found q.stats).nodup_iff.mp single
  exact (List.nodup_cons.mp taken).1

theorem not_ready_of_lease (single : q.subjects.Nodup) {leaseId : LeaseId} {lease : TaskLease}
    (found : q.leases.get? leaseId = some lease) : ¬ q.HasReady lease.task.payload.id := by
  intro ready
  exact alone_of_lease single found (mem_subjects.mpr (Or.inl ready))

/-- An operation that takes a lease away, and at most its entry with it. -/
structure Sheds (leaseId : LeaseId) (q q' : InMemoryQueue) : Prop where
  subjects : q'.subjects.Subperm q.subjects
  leases : ∀ other, q'.leases.get? other = if other = leaseId then none else q.leases.get? other

theorem Sheds.of_absent {leaseId : LeaseId} (absent : q.leases.get? leaseId = none) : Sheds leaseId q q where
  subjects := List.Subperm.refl _
  leases other := by
    split
    · rename_i same
      rw [same]
      exact absent
    · rfl

theorem sheds_erase {leaseId : LeaseId} {lease : TaskLease} (found : q.leases.get? leaseId = some lease)
    (stats : QueueStats) :
    Sheds leaseId q { q with leases := q.leases.erase leaseId, stats := stats } where
  subjects := (List.sublist_cons_self _ _).subperm.trans (subjects_erase found stats).symm.subperm
  leases _ := Dict.get?_erase

theorem sheds_retryOrPark {leaseId : LeaseId} {lease : TaskLease} (found : q.leases.get? leaseId = some lease)
    (stats : QueueStats) (reason : String) (now : DateTime) :
    Sheds leaseId q
      (retryOrPark { q with leases := q.leases.erase leaseId, stats := stats } lease.task reason now) where
  subjects := by
    have back := labels_retryOrPark (q := { q with leases := q.leases.erase leaseId, stats := stats })
      QueuedTask.blind_subject lease.task reason now
    exact (back.trans (subjects_erase found stats).symm).subperm
  leases _ := by
    rw [retryOrPark_leases]
    exact Dict.get?_erase

theorem sheds_acknowledge (live : q.LeasesLive) (leaseId : LeaseId) (now : DateTime) :
    Sheds leaseId q (q.acknowledge leaseId now).2 := by
  rcases acknowledge_cases live leaseId now with ⟨absent, same⟩ | ⟨held, detail, found, _, same⟩
    | ⟨held, found, _, same⟩ <;>
    rw [same]
  · exact .of_absent absent
  · exact sheds_retryOrPark found _ _ now
  · exact sheds_erase found _

theorem sheds_reject (live : q.LeasesLive) (leaseId : LeaseId) (reason : String) (now : DateTime) :
    Sheds leaseId q (q.reject leaseId reason now).2 := by
  rcases reject_cases live leaseId reason now with ⟨absent, same⟩ | ⟨held, found, same⟩ <;> rw [same]
  · exact .of_absent absent
  · exact sheds_retryOrPark found q.stats reason now

theorem sheds_release (q : InMemoryQueue) (leaseId : LeaseId) (now : DateTime) :
    Sheds leaseId q (q.release leaseId now).2 where
  subjects := ((moves_release q leaseId now).labels QueuedTask.blind_subject).subperm
  leases other := by
    unfold release takeLease
    cases found : q.leases.get? leaseId with
    | none => exact (Sheds.of_absent found).leases other
    | some held => exact Dict.get?_erase

theorem subjects_purgeJob (q : InMemoryQueue) (jobId : JobId) : (q.purgeJob jobId).2.subjects.Sublist q.subjects := by
  refine List.Sublist.append (List.Sublist.append ?_ ?_) (List.Sublist.refl _)
  · exact List.filter_sublist.map _
  · exact (List.filter_sublist.map _).map _

end

end InMemoryQueue

theorem Settles.sheds {q q' : InMemoryQueue} {leaseId : LeaseId} {now : DateTime} {acknowledged : Bool}
    (settles : Settles q leaseId now acknowledged q') (live : q.LeasesLive) : Sheds leaseId q q' := by
  have acknowledge := sheds_acknowledge live leaseId now
  cases settles with
  | acknowledged run =>
    rw [run] at acknowledge
    exact acknowledge
  | lost run =>
    rw [run] at acknowledge
    exact acknowledge
  | rejected reason => exact sheds_reject live leaseId reason now

/-- The entry of a task in hand is leased, or has been purged. -/
def Dispatch.Held (q : InMemoryQueue) (dispatch : Dispatch) : Prop :=
  q.leases.get? dispatch.lease.leaseId = some dispatch.lease ∨
    q.leases.get? dispatch.lease.leaseId = none ∧ dispatch.task.id ∉ q.subjects

/-- A queue that only one job uses: each task has at most one entry, none before it
is queued, and what is in hand is leased unless it has been purged. -/
structure JobRun.Solo (q : InMemoryQueue) (run : JobRun) : Prop where
  live : q.LeasesLive
  single : q.subjects.Nodup
  promoted : ∀ task ∈ q.subjects, ∀ state, run.handle.graph.stateOf task = some state → state.isFresh = false
  held : ∀ dispatch ∈ run.pc.dispatches, dispatch.Held q
  ids : (run.pc.dispatches.map (fun dispatch => dispatch.lease.leaseId)).Nodup
  pending : ∀ leaseId lease, run.pc.pending = some leaseId → q.leases.get? leaseId = some lease →
    ∀ dispatch ∈ run.pc.dispatches, dispatch.task.id ≠ lease.task.payload.id

section
variable {input : EngineInput} {run run' : JobRun} {q q' : InMemoryQueue}

/-- A step takes entries out of the queue, or adds one for a task that was never queued before. -/
theorem QueueStep.subjects (step : QueueStep input run run' q q') (live : q.LeasesLive)
    (fresh : q.leases.get? input.leaseId = none) : q'.subjects.Subperm q.subjects ∨
    ∃ task earlier node, run.handle.graph.get task = some earlier ∧ earlier.state.isFresh = true ∧
      run'.handle.graph.get task = some node ∧ node.state.isFresh = false ∧
        q'.subjects.Subperm (node.id :: q.subjects) := by
  cases step with
  | same => exact Or.inl (List.Subperm.refl _)
  | @enqueued task earlier node priority leaseMs found queued known was _ _ =>
    unfold enqueue
    split
    · exact Or.inl (List.Subperm.refl _)
    · have pushed := labels_push (q := q) QueuedTask.subject (.fromTask node priority leaseMs input.now)
      exact Or.inr ⟨task, earlier, node, known, was, found, queued, pushed.subperm⟩
  | swept => exact Or.inl ((moves_requeueExpired q _).labels QueuedTask.blind_subject).subperm
  | @polled worker lease _ _ _ _ _ polled =>
    have moves := moves_dequeueFrom (q := q) worker [] [] input.now (Dict.get?_eq_none.mp fresh)
    rw [polled] at moves
    exact Or.inl (moves.labels QueuedTask.blind_subject).subperm
  | dropped => exact Or.inl (sheds_acknowledge live _ _).subjects
  | released => exact Or.inl (sheds_release q _ _).subjects
  | settled _ settles => exact Or.inl (settles.sheds live).subjects
  | purged => exact Or.inl (subjects_purgeJob q _).subperm

namespace JobRun.Solo

theorem single_stepped (solo : run.Solo q) (step : QueueStep input run run' q q')
    (own : ∀ task node, run'.handle.graph.get task = some node → node.id = task)
    (fresh : q.leases.get? input.leaseId = none) : q'.subjects.Nodup := by
  have shorter : ∀ {tasks : List TaskId}, tasks.Nodup → q'.subjects.Subperm tasks → q'.subjects.Nodup := by
    rintro tasks distinct ⟨part, same, inside⟩
    exact same.nodup_iff.mp (inside.nodup distinct)
  rcases step.subjects solo.live fresh with fewer | ⟨task, earlier, node, known, was, found, _, fewer⟩
  · exact shorter solo.single fewer
  · refine shorter (List.nodup_cons.mpr ⟨?_, solo.single⟩) fewer
    intro present
    rw [own task node found] at present
    have queued := solo.promoted task present earlier.state (by simp [TaskGraph.stateOf, known])
    rw [was] at queued
    cases queued

theorem promoted_stepped (solo : run.Solo q) (moves : Moves run.handle run'.handle)
    (step : QueueStep input run run' q q')
    (own : ∀ task node, run'.handle.graph.get task = some node → node.id = task)
    (fresh : q.leases.get? input.leaseId = none) {task : TaskId} (member : task ∈ q'.subjects) {state : TaskState}
    (found : run'.handle.graph.stateOf task = some state) : state.isFresh = false := by
  obtain ⟨node', there, rfl⟩ := Option.map_eq_some_iff.mp found
  have before : task ∈ q.subjects → node'.state.isFresh = false := by
    intro present
    have known : (run.handle.graph.get task).isSome = true := by
      rw [← (moves_extends moves).isSome, there]
      rfl
    obtain ⟨node, known⟩ := Option.isSome_iff_exists.mp known
    have queued := solo.promoted task present node.state (by simp [TaskGraph.stateOf, known])
    obtain ⟨later, here, still, _⟩ := queued_moves moves known queued
    rw [there] at here
    cases here
    exact still
  rcases step.subjects solo.live fresh with fewer | ⟨other, earlier, node, known, was, present, queued, fewer⟩
  · exact before (fewer.subset member)
  · rcases List.mem_cons.mp (fewer.subset member) with same | old
    · rw [same, own other node present, present] at there
      cases there
      exact queued
    · exact before old

/-- Something in hand that the step does not settle. -/
theorem held_sheds (solo : run.Solo q) {leaseId : LeaseId} (sheds : Sheds leaseId q q') {dispatch : Dispatch}
    (member : dispatch ∈ run.pc.dispatches)
    (other : q.leases.get? leaseId = some dispatch.lease → dispatch.lease.leaseId ≠ leaseId) : dispatch.Held q' := by
  unfold Dispatch.Held
  rw [sheds.leases]
  rcases solo.held dispatch member with held | ⟨absent, gone⟩
  · refine Or.inl ?_
    rw [if_neg]
    · exact held
    · intro same
      exact other (same ▸ held) same
  · refine Or.inr ⟨?_, fun present => gone (sheds.subjects.subset present)⟩
    rw [absent, ite_self]

/-- The lease that is given away is of nothing in hand. -/
theorem pending_other (solo : run.Solo q) (sound : run.Sound) {leaseId : LeaseId}
    (pending : run.pc.pending = some leaseId) {dispatch : Dispatch} (member : dispatch ∈ run.pc.dispatches)
    (found : q.leases.get? leaseId = some dispatch.lease) :
    dispatch.lease.leaseId ≠ leaseId := by
  intro _
  exact solo.pending leaseId dispatch.lease pending found dispatch member (sound.dispatched dispatch member).2.2

/-- A poll grants one lease and leaves the others alone. -/
theorem held_polled (solo : run.Solo q) {worker : String} {lease : TaskLease}
    (polled : q.dequeueFrom worker [] [] input.now input.leaseId = (some lease, q'))
    (fresh : q.leases.get? input.leaseId = none ∧ input.leaseId ∉ run.pc.leaseIds) {dispatch : Dispatch}
    (member : dispatch ∈ run.pc.dispatches) : dispatch.Held q' := by
  obtain ⟨_, _, _, _, _, _, _, leases, _⟩ := dequeueFrom_some polled
  have moves := moves_dequeueFrom (q := q) worker [] [] input.now (Dict.get?_eq_none.mp fresh.1)
  rw [polled] at moves
  have other : dispatch.lease.leaseId ≠ input.leaseId := fun same => fresh.2 (same ▸ mem_leaseIds member)
  unfold Dispatch.Held
  rw [leases, Dict.get?_insert_of_ne other]
  refine (solo.held dispatch member).imp_right ?_
  rintro ⟨absent, gone⟩
  exact ⟨absent, fun present => gone ((moves.labels QueuedTask.blind_subject).mem_iff.mp present)⟩

theorem held_stepped (solo : run.Solo q) (sound : run.Sound) (effect : Effect input run run' q q')
    (fresh : q.leases.get? input.leaseId = none ∧ input.leaseId ∉ run.pc.leaseIds) {dispatch : Dispatch}
    (member : dispatch ∈ run'.pc.dispatches) : dispatch.Held q' := by
  cases effect with
  | steady swept graph fewer before after =>
    rcases swept with rfl | ⟨_, empty⟩
    · exact solo.held dispatch (fewer.subset member)
    · rw [empty] at member
      cases member
  | stopped _ _ next => rw [next] at member; cases member
  | promoted _ _ _ next => rw [next] at member; cases member
  | started collecting polled leasable touches sameLease next =>
    rw [next] at member
    rcases List.mem_append.mp member with earlier | new
    · exact solo.held_polled polled fresh (by rw [collecting]; exact earlier)
    · obtain ⟨_, _, _, _, id, _, _, leases, _⟩ := dequeueFrom_some polled
      refine Or.inl ?_
      rw [List.mem_singleton.mp new, sameLease, id, leases]
      exact Dict.get?_insert_self
  | refused collecting polled _ _ next =>
    rw [next] at member
    exact solo.held_polled polled fresh (by rw [collecting]; exact member)
  | declined collecting polled _ _ next =>
    rw [next] at member
    exact solo.held_polled polled fresh (by rw [collecting]; exact member)
  | @dropped leaseId _ _ _ dropping _ next =>
    have before : dispatch ∈ run.pc.dispatches := by
      rw [next] at member
      rw [dropping]
      exact member
    exact solo.held_sheds (sheds_acknowledge solo.live leaseId input.now) before
      (solo.pending_other sound (by rw [dropping]; rfl) before)
  | @released leaseId inHand count _ releasing released _ next =>
    have before : dispatch ∈ run.pc.dispatches := by
      rw [next, (Engine.collected_dispatches run.handle inHand count).1] at member
      rw [releasing]
      exact member
    have sheds := sheds_release q leaseId input.now
    rw [released] at sheds
    exact solo.held_sheds sheds before (solo.pending_other sound (by rw [releasing]; rfl) before)
  | @applied first outcome rest _ _ _ applying next settles _ _ =>
    have later : dispatch ∈ rest.map Prod.fst := by
      rw [next] at member
      exact member
    have distinct := solo.ids
    rw [applying] at distinct
    refine solo.held_sheds (settles.sheds solo.live) (by rw [applying]; exact List.mem_cons_of_mem _ later) ?_
    intro _ same
    refine (List.nodup_cons.mp distinct).1 ?_
    change first.lease.leaseId ∈ _
    rw [← same]
    exact List.mem_map.mpr ⟨dispatch, later, rfl⟩
  | retired _ _ next => rcases next with here | here <;> rw [here] at member <;> cases member
  | cancelled _ empty => rw [empty] at member; cases member

theorem ids_stepped (solo : run.Solo q) (effect : Effect input run run' q q')
    (fresh : input.leaseId ∉ run.pc.leaseIds) :
    (run'.pc.dispatches.map (fun dispatch => dispatch.lease.leaseId)).Nodup := by
  have ids := solo.ids
  cases effect with
  | steady _ _ fewer _ _ => exact (fewer.map _).nodup ids
  | stopped _ _ next => simp [next, Pc.dispatches]
  | promoted _ _ _ next => simp [next, Pc.dispatches]
  | started collecting polled leasable touches sameLease next =>
    obtain ⟨_, _, _, _, id, _⟩ := dequeueFrom_some polled
    rw [collecting] at ids fresh
    rw [next]
    simp only [Pc.dispatches, Pc.leaseIds, Pc.pending, Option.toList_none, List.append_nil] at ids fresh ⊢
    rw [List.map_append, List.nodup_append]
    refine ⟨ids, List.nodup_singleton _, ?_⟩
    rintro other before _ new rfl
    rw [List.map_singleton, List.mem_singleton, sameLease, id] at new
    exact fresh (new ▸ before)
  | refused collecting _ _ _ next =>
    rw [collecting] at ids
    rw [next]
    exact ids
  | declined collecting _ _ _ next =>
    rw [collecting] at ids
    rw [next]
    exact ids
  | dropped dropping _ next =>
    rw [dropping] at ids
    rw [next]
    exact ids
  | @released _ inHand count _ releasing _ _ next =>
    rw [releasing] at ids
    rw [next, (Engine.collected_dispatches run.handle inHand count).1]
    exact ids
  | applied applying next _ _ _ =>
    rw [applying] at ids
    rw [next]
    exact (List.nodup_cons.mp ids).2
  | retired _ _ next => rcases next with here | here <;> simp [here, Pc.dispatches]
  | cancelled _ empty => simp [empty]

theorem pending_stepped (solo : run.Solo q) (sound : run.Sound) (effect : Effect input run run' q q')
    {leaseId : LeaseId} {lease : TaskLease} (pending : run'.pc.pending = some leaseId)
    (found : q'.leases.get? leaseId = some lease) {dispatch : Dispatch} (member : dispatch ∈ run'.pc.dispatches) :
    dispatch.task.id ≠ lease.task.payload.id := by
  have granted : ∀ {worker : String} {polledLease : TaskLease},
      q.dequeueFrom worker [] [] input.now input.leaseId = (some polledLease, q') → polledLease.leaseId = leaseId →
      lease = polledLease ∧ q.HasReady polledLease.task.payload.id := by
    intro worker polledLease polled same
    obtain ⟨entry, _, _, taken, id, task, _, leases, _⟩ := dequeueFrom_some polled
    rw [← same, id, leases, Dict.get?_insert_self] at found
    cases found
    exact ⟨rfl, entry, taken.mem_iff.mpr List.mem_cons_self, by rw [task]⟩
  cases effect with
  | steady _ _ _ _ after => rw [after] at pending; cases pending
  | stopped _ _ next => rw [next] at pending; cases pending
  | promoted _ _ _ next => rw [next] at pending; cases pending
  | started _ _ _ _ _ next => rw [next] at pending; cases pending
  | refused collecting polled leasable _ next =>
    rw [next] at pending member
    obtain ⟨rfl, _⟩ := granted polled (Option.some.inj pending)
    exact sound.other (by rw [collecting]; exact member) leasable
  | declined collecting polled _ _ next =>
    rw [next] at pending member
    obtain ⟨rfl, ready⟩ := granted polled (Option.some.inj pending)
    have before : dispatch ∈ run.pc.dispatches := by rw [collecting]; exact member
    intro same
    rw [← same] at ready
    rcases solo.held dispatch before with held | ⟨_, gone⟩
    · rw [(sound.dispatched dispatch before).2.2] at ready
      exact not_ready_of_lease solo.single held ready
    · exact gone (mem_subjects.mpr (Or.inl ready))
  | dropped _ _ next => rw [next] at pending; cases pending
  | @released _ inHand count _ _ _ _ next =>
    rw [next, (Engine.collected_dispatches run.handle inHand count).2.1] at pending
    cases pending
  | applied _ next _ _ _ => rw [next] at pending; cases pending
  | retired _ _ next => rcases next with here | here <;> rw [here] at pending <;> cases pending
  | cancelled _ empty => rw [empty] at member; cases member

/-- A step of the one engine that uses the queue. -/
theorem stepped (solo : run.Solo q) (sound : run.Sound) (stepped : Stepped input run q run' q')
    (own : ∀ task node, run'.handle.graph.get task = some node → node.id = task)
    (fresh : q.leases.get? input.leaseId = none ∧ input.leaseId ∉ run.pc.leaseIds) : run'.Solo q' where
  live := stepped.queue.live solo.live fresh.1
  single := solo.single_stepped stepped.queue own fresh.1
  promoted _ member _ found := solo.promoted_stepped stepped.moves stepped.queue own fresh.1 member found
  held _ member := solo.held_stepped sound stepped.effect fresh member
  ids := solo.ids_stepped stepped.effect fresh.2
  pending _ _ pending found _ member := solo.pending_stepped sound stepped.effect pending found member

end JobRun.Solo

end

end Swarm
