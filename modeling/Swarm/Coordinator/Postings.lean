import Swarm.Coordinator.Books
import Swarm.Coordinator.Lifetimes

namespace Swarm
open JobHandle Act

/-- The engine is about to give tasks up without an entry: those behind an abandoned one, when the
queue is empty, or the open ones of a cancelled job. -/
def JobRun.GivesUp (run : JobRun) (queue : InMemoryQueue) (now : DateTime) : Prop :=
  run.pc = .deciding ∧ (queue.statistics now).depth = 0 ∧ run.handle.graph.blockedByAbandoned ≠ [] ∨
    run.pc = .cancelling ∧ ∃ node ∈ run.handle.graph.nodes.values, node.isTerminal = false

namespace Engine
variable {loses : Prop} {config : CoordinatorConfig} {toposort : DiGraph TaskId → Except Nat (List Nat)}
  {input : EngineInput} {run : JobRun} {shared : Shared}

theorem exec_posts (run : JobRun) {work : HandleAct Pc} (posting : Posting loses work run.handle) :
    Posts loses run.handle (exec run work).handle := by
  rcases exec_cases run posting with ⟨pc, h, ran, posts⟩ | ⟨e, h, ran, posts⟩ <;> rw [ran] <;> exact posts

theorem stepIdle_posts : Posts loses run.handle (stepIdle config toposort input run shared).1.handle := by
  unfold stepIdle
  simp only
  split
  · split <;> exact .refl
  · have entered : Posting loses (enter toposort input.now) run.handle := enter_posts
    rcases entered.cases with ⟨target, h, done, posts⟩ | ⟨e, h, failed, posts⟩
    · rw [done]
      simp only
      split
      · exact posts
      · exact posts.trans (exec_posts { run with handle := h, ticks := 0, paused := false, spawned := target }
          (.bind spawnAgents_posts (fun _ _ _ => .pure _)))
    · rw [failed]
      exact posts

theorem stepTop_posts : Posts loses run.handle (stepTop config input run).handle := by
  unfold stepTop
  simp only
  split
  · exact .refl
  · split
    · exact .refl
    · split
      · exact .refl
      · exact exec_posts { run with ticks := run.ticks + 1, paused := true }
          (.bind setStatus_posts (fun _ _ _ => .pure _))
    · exact exec_posts { run with ticks := run.ticks + 1, paused := false } beginTick_posts

theorem receive_posts {lease : TaskLease} {left : Nat} {dispatches : List Dispatch} {promoted : Nat} :
    Posts loses run.handle (receive config input run lease left dispatches promoted).handle := by
  have pooled : ∀ agents, Post loses run.handle { run.handle with agents := agents } :=
    fun _ => .quiet ⟨fun _ => rfl, ⟨rfl, rfl, rfl, .refl _⟩, rfl⟩
  unfold receive
  simp only
  split
  · split
    · exact .single (pooled _)
    · rename_i agents _
      exact .head (pooled agents) (exec_posts { run with handle := { run.handle with agents := agents } }
        (.bind startTask_posts (fun _ _ _ => .pure _)))
  · exact .refl

/-- Every step but the last only posts to the books, and gives tasks up without an entry only where it is about to. -/
theorem step_posts (unfinished : ∀ cancelled, run.pc ≠ .finishing cancelled) :
    Posts (run.GivesUp shared.queue input.now) run.handle (step config toposort input run shared).1.handle := by
  cases here : run.pc with
  | idle =>
    simp only [step, here]
    exact stepIdle_posts
  | returned answer =>
    simp only [step, here]
    exact stepIdle_posts
  | top =>
    simp only [step, here]
    exact stepTop_posts
  | waiting =>
    simp only [step, here]
    split <;> exact .refl
  | promoting todo queued =>
    cases todo with
    | nil =>
      simp only [step, here]
      exact .refl
    | cons task rest =>
      simp only [step, here]
      have promotes : Posting (run.GivesUp shared.queue input.now) (promote config task input.now) run.handle :=
        promote_posts
      rcases promotes.cases with ⟨node, h, done, posts⟩ | ⟨e, h, failed, posts⟩
      · rw [done]
        exact posts.trans (exec_posts { run with handle := h } (.bind emit_posts (fun _ _ _ => .pure _)))
      · rw [failed]
        exact posts
  | maintaining promoted =>
    simp only [step, here]
    split <;> exact .refl
  | scaling promoted depth =>
    simp only [step, here]
    split
    · split <;> exact .refl
    · exact .refl
  | growing agentType promoted depth =>
    simp only [step, here]
    exact exec_posts run (.bind growPool_posts (fun _ _ _ => .pure _))
  | reclaiming promoted depth =>
    simp only [step, here]
    generalize (if depth = 0 then reclaim _ _ run.handle.agents else (run.handle.agents, 0)) = pool
    have pooled : Post (run.GivesUp shared.queue input.now) run.handle { run.handle with agents := pool.1 } :=
      .quiet ⟨fun _ => rfl, ⟨rfl, rfl, rfl, .refl _⟩, rfl⟩
    refine .head pooled (exec_posts { run with handle := { run.handle with agents := pool.1 } } ?_)
    split
    · exact .bind emit_posts (fun _ _ _ => .pure _)
    · exact .pure _
  | collecting left dispatches promoted =>
    cases left with
    | zero =>
      simp only [step, here]
      exact .refl
    | succ left =>
      simp only [step, here]
      split
      · exact .refl
      · exact receive_posts
  | dropping leaseId left dispatches promoted =>
    simp only [step, here]
    exact .refl
  | releasing leaseId dispatches promoted =>
    simp only [step, here]
    split <;> exact .refl
  | deciding =>
    simp only [step, here]
    split
    · exact .refl
    · rename_i empty
      exact exec_posts run
        (abandonStranded_posts (fun stranded => Or.inl ⟨here, Nat.eq_zero_of_not_pos empty, stranded⟩))
  | executing dispatches =>
    simp only [step, here]
    split
    · exact .refl
    · split <;> exact .refl
  | applying todo =>
    cases todo with
    | nil =>
      simp only [step, here]
      exact .refl
    | cons first rest =>
      simp only [step, here]
      exact exec_posts run (.bind applyOutcome_posts (fun _ _ _ => .pure _))
  | refunding claimed target =>
    simp only [step, here]
    exact .refl
  | cancelling =>
    simp only [step, here]
    have cancels : Posting (run.GivesUp shared.queue input.now) (cancelPending config input.now) run.handle :=
      cancelPending_posts (fun pending => Or.inr ⟨here, pending⟩)
    rcases cancels.cases with ⟨_, h, done, posts⟩ | ⟨e, h, failed, posts⟩
    · rw [done]
      exact posts
    · rw [failed]
      exact posts
  | finishing cancelled => exact absurd here (unfinished cancelled)

end Engine

/-- The steering of a job and the order of its map are none of the books' concern. -/
theorem steer_silent {h : JobHandle} (target : Control) :
    Ensures (steer target) h (fun _ h' => Silent h h') (fun _ h' => Silent h h') := by
  simp only [steer, ensures_bind, ensures_get]
  split
  · simp only [ensures_bind, ensures_throw]
    exact ⟨fun _ => rfl, .refl h, rfl⟩
  · simp only [ensures_bind, ensures_set, emit, ensures_modify]
    exact ⟨fun _ => rfl, ⟨rfl, rfl, rfl, ⟨rfl, rfl, rfl, rfl, rfl, rfl, rfl⟩⟩, rfl⟩

theorem cancel_silent {h : JobHandle} :
    Ensures JobHandle.cancel h (fun _ h' => Silent h h') (fun _ h' => Silent h h') := by
  simp only [JobHandle.cancel, emit, ensures_bind, ensures_modify]
  exact ⟨fun _ => rfl, ⟨rfl, rfl, rfl, ⟨rfl, rfl, rfl, rfl, rfl, rfl, rfl⟩⟩, rfl⟩

theorem rehash_silent {h : JobHandle} {nodes : Dict TaskId TaskNode} (moved : h.graph.nodes.Rehash nodes) :
    Ensures (modify (fun h : JobHandle => { h with graph := { h.graph with nodes := nodes } }) : HandleAct Unit) h
      (fun _ h' => Silent h h') (fun _ h' => Silent h h') := by
  simp only [ensures_modify]
  exact ⟨fun wanted => TaskGraph.count_rehash moved wanted, ⟨rfl, rfl, rfl, .refl _⟩, rfl⟩

namespace Cluster
variable {config : CoordinatorConfig} {tools : TextTools} {toposort : DiGraph TaskId → Except Nat (List Nat)}

theorem act_silent {c : Cluster} {other jobId : JobId} {work : HandleAct Unit}
    (silent : ∀ run, c.jobs.get? other = some run →
      Ensures work run.handle (fun _ h => Silent run.handle h) (fun _ h => Silent run.handle h))
    {run run' : JobRun} (known : c.jobs.get? jobId = some run)
    (found : (c.act other work).jobs.get? jobId = some run') : Silent run.handle run'.handle := by
  have same : run' = run → Silent run.handle run'.handle := by
    rintro rfl
    exact ⟨fun _ => rfl, .refl _, rfl⟩
  unfold Cluster.act at found
  cases there : c.jobs.get? other with
  | none =>
    rw [there] at found
    exact same (Option.some.inj (found.symm.trans known))
  | some steered =>
    rw [there] at found
    rcases (silent steered there).cases with ⟨_, h, done, quiet⟩ | ⟨_, h, failed, quiet⟩
    · simp only [done, Dict.get?_insert] at found
      split at found
      · rename_i equal
        rw [equal, there] at known
        cases known
        cases found
        exact quiet
      · exact same (Option.some.inj (found.symm.trans known))
    · simp only [failed, Dict.get?_insert] at found
      split at found
      · rename_i equal
        rw [equal, there] at known
        cases known
        cases found
        exact quiet
      · exact same (Option.some.inj (found.symm.trans known))

/-- What one event makes of the books of a job. -/
inductive Booking (c : Cluster) (event : Event) (jobId : JobId) (run run' : JobRun) : Prop
  | posted (loses : Prop) :
      (loses → ∃ input, event = .engine jobId input ∧ run.GivesUp c.shared.queue input.now) →
      Posts loses run.handle run'.handle → (run.handle.finalResult ≠ none → Silent run.handle run'.handle) →
      Booking c event jobId run run'
  | closed {result : FinalResult} : run'.handle.graph = run.handle.graph → SameEntries run.handle run'.handle →
      run'.handle.finalResult = some result → run.handle.statistics.SameCounts result.executionStatistics →
      result.executionStatistics.tasksTotal = run.handle.graph.len → Booking c event jobId run run'

theorem Booking.silent {c : Cluster} {event : Event} {jobId : JobId} {run run' : JobRun}
    (silent : Silent run.handle run'.handle) : Booking c event jobId run run' :=
  .posted False False.elim (.single (.quiet silent)) (fun _ => silent)

/-- A job that has its final result is finished. -/
theorem Sound.finished_of_result {c : Cluster} (sound : c.Sound) {jobId : JobId} {run : JobRun}
    (found : c.jobs.get? jobId = some run) (present : run.handle.finalResult ≠ none) :
    run.handle.job.status.isFinished = true := by
  obtain ⟨job, tasks, _, sync⟩ := sound.synced jobId run found
  rw [← sync.finalResult] at present
  obtain ⟨status, last, finished⟩ := sync.legal.finished_of_finalResult present
  obtain ⟨status', last', same⟩ := sync.status
  rw [last] at last'
  cases last'
  rw [← same]
  exact finished

/-- The step of an engine is booked. -/
theorem Sound.books_engine {c : Cluster} (sound : c.Sound) {jobId : JobId} {run : JobRun} {input : EngineInput}
    (found : c.jobs.get? jobId = some run) :
    Booking c (.engine jobId input) jobId run (Engine.step config toposort input run c.shared).1 := by
  by_cases last : ∃ cancelled, run.pc = .finishing cancelled
  · obtain ⟨cancelled, here⟩ := last
    have finishes : Ensures (Engine.finish cancelled run.spawned input) run.handle _ _ := Engine.finish_publishes
    simp only [Engine.step, here]
    rcases finishes.cases with ⟨pc, h, done, graph, entries, result, present, counts, total⟩
      | ⟨e, h, failed, graph, entries, same⟩
    · rw [done]
      exact .closed graph entries present counts total
    · rw [failed]
      exact .silent ⟨fun wanted => congrArg (fun g : TaskGraph => (g.withState wanted).length) graph, entries, same⟩
  · refine .posted _ (fun gives => ⟨input, rfl, gives⟩)
      (Engine.step_posts (fun cancelled here => last ⟨cancelled, here⟩)) ?_
    intro present
    have finished := sound.finished_of_result found present
    have idle : Engine.step config toposort input run c.shared =
        Engine.stepIdle config toposort input run c.shared := by
      have inactive : run.pc.isActive = false := by
        by_contra active
        exact absurd ((sound.engines jobId run found).live (by simpa using active))
          (by simp [JobHandle.Live, finished])
      cases here : run.pc <;> simp [here, Pc.isActive] at inactive <;> simp only [Engine.step, here]
    rw [idle, Engine.stepIdle, if_pos finished]
    split <;> exact ⟨fun _ => rfl, .refl _, rfl⟩

/-- Whatever happens to a job while the process goes on is booked. -/
theorem Sound.books {c : Cluster} (sound : c.Sound) {event : Event}
    (possible : c.Possible config tools toposort event) (alive : c.Alive event) {jobId : JobId} {run run' : JobRun}
    (known : c.jobs.get? jobId = some run)
    (found : (c.apply config tools toposort event).jobs.get? jobId = some run') : Booking c event jobId run run' := by
  have kept : c.jobs.get? jobId = some run' → Booking c event jobId run run' := by
    intro same
    rw [known] at same
    cases same
    exact .silent ⟨fun _ => rfl, .refl _, rfl⟩
  cases event with
  | submit submission nodes =>
    obtain ⟨fresh, _, _⟩ := possible
    simp only [Cluster.apply, Cluster.submit] at found
    split at found
    · exact kept found
    · rename_i job graph planned
      have other : jobId ≠ job.id := by
        intro same
        rw [same, (submission.plan_ok planned).1, fresh] at known
        cases known
      rw [Dict.get?_insert_of_ne other] at found
      exact kept found
  | engine other input =>
    by_cases same : jobId = other
    · subst same
      simp only [Cluster.apply, Cluster.engine, known, Dict.get?_insert_self] at found
      cases found
      exact sound.books_engine known
    · simp only [Cluster.apply, Cluster.engine] at found
      split at found
      · exact kept found
      · rw [Dict.get?_insert_of_ne same] at found
        exact kept found
  | pause other => exact .silent (act_silent (fun _ _ => steer_silent _) known found)
  | resume other => exact .silent (act_silent (fun _ _ => steer_silent _) known found)
  | cancel other => exact .silent (act_silent (fun _ _ => cancel_silent) known found)
  | purge other => exact kept found
  | rehash other nodes => exact .silent (act_silent (fun run there => rehash_silent (possible run there)) known found)
  | rehashLeases leases => exact kept found
  | restart journal => exact absurd rfl (alive journal)

end Cluster

end Swarm
