import Swarm.Coordinator.Interference
import Swarm.Coordinator.Resume
import Swarm.Domain.Identity

namespace Swarm
open InMemoryQueue Recovery

/-- The number of an attempt has no `#`, so the key of the task is read back from the last one. -/
theorem attemptKey_inj {node node' : TaskNode} (same : node.attemptKey = node'.attemptKey) :
    node.idempotencyKey = node'.idempotencyKey := by
  have backwards : ∀ node : TaskNode, node.attemptKey.toList.reverse =
      (toString node.attempt).toList.reverse ++ '#' :: node.idempotencyKey.toList.reverse := by
    intro node
    have text : node.attemptKey.toList = node.idempotencyKey.toList ++ '#' :: (toString node.attempt).toList := by
      simp only [TaskNode.attemptKey, String.toList_append, List.append_assoc]
      rfl
    rw [text, List.reverse_append, List.reverse_cons, List.append_assoc]
    rfl
  have digits : ∀ n : Nat, '#' ∉ (toString n).toList.reverse := by
    intro n member
    exact not_mem_decimal (by decide) n (List.mem_reverse.mp member)
  have texts := backwards node
  rw [same, backwards node'] at texts
  have keys := (append_separator_inj (digits _) (digits _) texts).2
  exact (String.toList_injective (List.reverse_inj.mp keys)).symm

/-- A job that has not been started and has nothing queued. -/
theorem JobRun.kept_new {h : JobHandle} (nothing : ∀ task, h.graph.isLeasable task = false) (q : InMemoryQueue) :
    (JobRun.new h).Kept q := by
  refine ⟨Or.inr ?_, by simp [JobRun.new, Pc.dispatches]⟩
  intro task leasable
  rw [JobRun.new, nothing task] at leasable
  cases leasable

namespace Cluster
variable {config : CoordinatorConfig} {tools : TextTools}
  {toposort : DiGraph TaskId → Except Nat (List Nat)} {c : Cluster}

theorem Steers.kept {run : JobRun} {h : JobHandle} (steers : Steers run.handle h) {q : InMemoryQueue}
    (kept : run.Kept q) :
    { run with handle := h }.Kept q := by
  refine ⟨?_, kept.backed⟩
  rcases kept.covered with excused | covers
  · refine Or.inl ?_
    cases excused with
    | finished done => exact .finished (by rw [steers.job]; exact done)
    | ended here running => exact .ended here (by rw [steers.job]; exact running)
    | ending returning gone => exact .ending returning gone
  · refine Or.inr ?_
    intro task leasable
    refine covers task ?_
    unfold TaskGraph.isLeasable at leasable ⊢
    rw [← steers.states]
    exact leasable

theorem Steers.spares {run : JobRun} {h : JobHandle} (steers : Steers run.handle h) {task : TaskId}
    (spares : run.Spares task) :
    { run with handle := h }.Spares task := by
  refine ⟨?_, spares.2⟩
  unfold TaskGraph.isLeasable
  rw [steers.states]
  exact spares.1

theorem Isolated.steered {c' : Cluster} (isolated : c.Isolated) {jobId : JobId} (steered : Steered c c' jobId) :
    c'.Isolated := by
  have after := isolated.sound.steered steered
  rcases steered with rfl | ⟨run, h, found, steers, rfl⟩
  · exact isolated
  · have lookup : ∀ other current, (c.jobs.insert jobId { run with handle := h }).get? other = some current →
        ∃ before, c.jobs.get? other = some before ∧ Steers before.handle current.handle ∧
          current = { before with handle := current.handle } := by
      intro other current present
      rw [Dict.get?_insert] at present
      split at present
      · rename_i same
        cases present
        exact ⟨run, same ▸ found, steers, rfl⟩
      · exact ⟨current, present, ⟨.refl, rfl, rfl, fun _ => rfl, rfl⟩, rfl⟩
    refine ⟨after, isolated.live, ?_, ?_, ?_, ?_⟩
    · exact fun key member => (isolated.seen key member).insert found steers.moves
    · intro other current present
      obtain ⟨before, known, _, same⟩ := lookup other current present
      rw [same]
      exact isolated.calm other before known
    · intro other current present
      obtain ⟨before, known, steers, same⟩ := lookup other current present
      rw [same]
      exact steers.kept (isolated.kept other before known)
    · intro other current leaseId left dispatches promoted lease present dropping held
      obtain ⟨before, known, steers', same⟩ := lookup other current present
      rw [same] at dropping
      rcases isolated.drops _ _ _ _ _ _ _ known dropping held with ⟨mine, spares⟩ | ended
      · exact Or.inl ⟨mine, by rw [same]; exact steers'.spares spares⟩
      · exact Or.inr (ended.insert found steers.moves)

theorem Isolated.submit (isolated : c.Isolated) {submission : Submission} {nodes : Dict TaskId TaskNode}
    (possible : c.Possible config tools toposort (.submit submission nodes)) :
    (c.submit config tools toposort submission nodes).Isolated := by
  have after := isolated.sound.submit possible
  obtain ⟨fresh, _, rehash⟩ := possible
  unfold Cluster.submit at after ⊢
  split at after
  · exact isolated
  · rename_i job graph planned
    obtain ⟨id, status, untouched, inhabited⟩ := submission.plan_ok planned
    have moved := rehash job graph planned
    rw [← id] at fresh
    have nothing : ∀ task, TaskGraph.isLeasable { graph with nodes := nodes } task = false := by
      intro task
      unfold TaskGraph.isLeasable
      rw [TaskGraph.stateOf_rehash moved]
      unfold TaskGraph.stateOf
      cases found : graph.get task with
      | none => rfl
      | some node =>
        have blank := (untouched.tasks node (Dict.mem_values.mpr ⟨task, Dict.get?_eq_some.mp found⟩)).1
        rw [← blank]
        rfl
    have different : ∀ other run, c.jobs.get? other = some run → other ≠ job.id := by
      rintro other run present rfl
      rw [fresh] at present
      cases present
    have still : ∀ other run, c.jobs.get? other = some run →
        (c.jobs.insert job.id (.new (.planned job { graph with nodes := nodes }))).get? other = some run := by
      intro other run present
      rw [Dict.get?_insert_of_ne (different other run present)]
      exact present
    have lookup : ∀ other run, (c.jobs.insert job.id (.new (.planned job { graph with nodes := nodes }))).get? other =
        some run → run = .new (.planned job { graph with nodes := nodes }) ∨ c.jobs.get? other = some run := by
      intro other run present
      rw [Dict.get?_insert] at present
      split at present
      · cases present
        exact Or.inl rfl
      · exact Or.inr present
    refine ⟨after, isolated.live, ?_, ?_, ?_, ?_⟩
    · intro key member
      obtain ⟨owner, run, task, node, attempt, present, rest⟩ := isolated.seen key member
      exact ⟨owner, run, task, node, attempt, still owner run present, rest⟩
    · intro other run present
      rcases lookup other run present with rfl | before
      · simp [JobRun.new]
      · exact isolated.calm other run before
    · intro other run present
      rcases lookup other run present with rfl | before
      · exact JobRun.kept_new nothing _
      · exact isolated.kept other run before
    · intro other run leaseId left dispatches promoted lease present dropping held
      rcases lookup other run present with rfl | before
      · cases dropping
      · refine (isolated.drops _ _ _ _ _ _ _ before dropping held).imp_right ?_
        rintro ⟨owner, known, finished⟩
        exact ⟨owner, still _ owner known, finished⟩

/-- The queue is rearranged without loss. -/
theorem Isolated.requeue (isolated : c.Isolated) {q : InMemoryQueue} (carries : q.Carries c.Genuine)
    (live : q.LeasesLive) (seen : q.seen = c.shared.queue.seen) (passes : Passes NoTask none c.shared.queue q) :
    Isolated { c with shared := { c.shared with queue := q } } := by
  have sound := isolated.sound
  refine ⟨⟨sound.engines, sound.synced, sound.apart, carries⟩, live, ?_, isolated.calm, ?_, ?_⟩
  · intro key member
    exact isolated.seen key (seen ▸ member)
  · intro jobId run found
    exact (isolated.kept jobId run found).passes (sound.engines jobId run found) passes (fun _ _ => id) (by simp)
  · intro jobId run leaseId left dispatches promoted lease found dropping held
    exact isolated.drops _ _ _ _ _ _ _ found dropping (passes.old leaseId lease held (by simp))

/-- There is nothing to purge of an unknown job. -/
theorem purgeJob_unknown (sound : c.Sound) {jobId : JobId} (unknown : c.jobs.get? jobId = none) :
    (c.shared.queue.purgeJob jobId).2.ready = c.shared.queue.ready ∧
      ∀ leaseId, (c.shared.queue.purgeJob jobId).2.leases.get? leaseId = c.shared.queue.leases.get? leaseId := by
  refine purgeJob_other (carries_mono sound.queue ?_)
  rintro entry ⟨own, run, present, _⟩ same
  rw [← own, same, unknown] at present
  cases present

theorem passes_of_same {q q' : InMemoryQueue} (ready : q'.ready = q.ready)
    (leases : ∀ leaseId, q'.leases.get? leaseId = q.leases.get? leaseId) : Passes NoTask none q q' := by
  refine ⟨?_, ?_, ?_⟩
  · rintro task _ ⟨entry, member, same⟩
    exact ⟨entry, by rw [ready]; exact member, same⟩
  · intro leaseId lease found _
    exact Or.inl ((leases leaseId).trans found)
  · intro leaseId lease found _
    exact (leases leaseId).symm.trans found

theorem Isolated.restart (isolated : c.Isolated) (sorts : Sorts toposort) {journal : List JournalRecord}
    (leaves : c.Leaves journal) : (restart toposort journal).Isolated := by
  have idle : ∀ jobId run, (Cluster.restart toposort journal).jobs.get? jobId = some run → ∃ h, run = .new h ∧
      ∀ task, h.graph.isLeasable task = false := by
    intro jobId run found
    obtain ⟨present, h, rebuilt, rfl⟩ := restart_get? found
    obtain ⟨old, job, tasks, h', current, _, rfl, _, legal, again, _, remains, synced⟩ :=
      isolated.sound.rebuilt sorts leaves present
    rw [rebuilt] at again
    cases again
    refine ⟨h, rfl, ?_⟩
    intro task
    unfold TaskGraph.isLeasable
    cases known : h.graph.stateOf task with
    | none => rfl
    | some state =>
      obtain ⟨node, got, _⟩ := Option.map_eq_some_iff.mp known
      rw [rebuilt_states legal remains (synced.isSome_iff.mp (by rw [got]; rfl))] at known
      cases known
      cases lastTransition journal job.id task with
      | none => rfl
      | some last => cases last <;> rfl
  refine ⟨isolated.sound.restart sorts leaves, ?_, ?_, ?_, ?_, ?_⟩
  · intro entry member
    cases member
  · intro key member
    cases member
  · intro jobId run found
    obtain ⟨h, rfl, _⟩ := idle jobId run found
    simp [JobRun.new]
  · intro jobId run found
    obtain ⟨h, rfl, nothing⟩ := idle jobId run found
    exact JobRun.kept_new nothing _
  · intro jobId run leaseId left dispatches promoted lease found dropping
    obtain ⟨h, rfl, _⟩ := idle jobId run found
    cases dropping

/-- Every event keeps the jobs apart, as long as engines poll entries of their own. -/
theorem Isolated.apply (isolated : c.Isolated) (sorts : Sorts toposort) {event : Event}
    (possible : c.Possible config tools toposort event) (assumed : c.Assumed event) (polls : c.PollsOwn event) :
    (c.apply config tools toposort event).Isolated := by
  cases event with
  | submit submission nodes => exact isolated.submit possible
  | engine jobId input => exact isolated.engine possible assumed polls
  | pause jobId => exact isolated.steered (apply_steered possible (Or.inl rfl))
  | resume jobId => exact isolated.steered (apply_steered possible (Or.inr (Or.inl rfl)))
  | cancel jobId => exact isolated.steered (apply_steered possible (Or.inr (Or.inr (Or.inl rfl))))
  | rehash jobId nodes => exact isolated.steered (apply_steered possible (Or.inr (Or.inr (Or.inr ⟨nodes, rfl⟩))))
  | purge jobId =>
    have unknown : c.jobs.get? jobId = none := by
      cases found : c.jobs.get? jobId with
      | none => rfl
      | some run => exact absurd (possible run found) (assumed.uncancelled jobId run found)
    obtain ⟨ready, leases⟩ := purgeJob_unknown isolated.sound unknown
    exact isolated.requeue (isolated.sound.queue.purgeJob jobId)
      (fun entry member => isolated.live entry (List.mem_of_mem_filter member)) rfl (passes_of_same ready leases)
  | rehashLeases leases =>
    have same : ∀ leaseId, leases.get? leaseId = c.shared.queue.leases.get? leaseId :=
      fun leaseId => (Dict.Rehash.get? possible leaseId).symm
    refine isolated.requeue ⟨isolated.sound.queue.ready, ?_⟩ ?_ rfl (passes_of_same rfl same)
    · intro leaseId lease found
      exact isolated.sound.queue.leases leaseId lease ((same leaseId).symm.trans found)
    · intro entry member
      exact isolated.live entry ((List.Perm.mem_iff possible).mpr member)
  | restart journal => exact isolated.restart sorts possible

end Cluster

end Swarm
