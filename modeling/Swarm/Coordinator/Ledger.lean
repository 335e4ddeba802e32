import Swarm.Coordinator.Charges
import Swarm.Coordinator.Lawful

namespace Swarm
open JobHandle Act

namespace Outcome

/-- The result an attempt has brought, if it passed validation. -/
def accepted : Outcome → Option TaskResult
  | .returned (.ok result) => if result.passedValidation then some result else none
  | _ => none

def due (outcome : Outcome) : Spend := outcome.accepted.elim 0 TaskResult.spend

theorem accepted_some {outcome : Outcome} {result : TaskResult} (accepted : outcome.accepted = some result) :
    outcome = .returned (.ok result) ∧ result.passedValidation = true := by
  unfold Outcome.accepted at accepted
  split at accepted
  · split at accepted
    · rename_i passed
      cases accepted
      exact ⟨rfl, passed⟩
    · cases accepted
  · cases accepted

end Outcome

/-- What a job is still to be billed for. -/
def Pc.due : Pc → Spend
  | .applying todo => (todo.map (fun entry => entry.2.due)).sum
  | _ => 0

theorem Pc.due_of_ne {pc : Pc} (other : ∀ todo, pc ≠ .applying todo) : pc.due = 0 := by
  cases pc with
  | applying todo => exact absurd rfl (other todo)
  | _ => rfl

/-- What a job has been billed for and what it is still to be billed for. -/
def JobRun.ledger (run : JobRun) : Spend := run.handle.statistics.spend + run.pc.due

namespace InMemoryQueue

/-- The lease is still held: it is there, active and not expired. -/
def holds (q : InMemoryQueue) (leaseId : LeaseId) (now : DateTime) : Bool :=
  (q.leases.get? leaseId).any (fun held => held.state.isActive && !held.isExpired now)

/-- A lease is acknowledged as long as it is held. -/
theorem acknowledge_ok_iff {q : InMemoryQueue} {leaseId : LeaseId} {now : DateTime} :
    (q.acknowledge leaseId now).1 = .ok () ↔ q.holds leaseId now = true := by
  unfold acknowledge takeLease InMemoryQueue.holds
  cases q.leases.get? leaseId with
  | none => simp
  | some held =>
    have moves : (StateMachine.transition held.state LeaseState.released).isOk = held.state.isActive := by
      cases held.state <;> rfl
    cases expired : held.isExpired now with
    | true => simp [expired]
    | false =>
      simp only [Option.any_some, expired, Bool.not_false, Bool.and_true, ← moves, Bool.false_eq_true, if_false]
      cases StateMachine.transition held.state LeaseState.released <;> simp [Except.isOk, Except.toBool]

end InMemoryQueue

namespace Engine
variable {config : CoordinatorConfig} {toposort : DiGraph TaskId → Except Nat (List Nat)} {input : EngineInput}
  {run run' : JobRun} {shared : Shared}

/-- An outcome adds what is due for it, if the lease of what it brings is held. -/
theorem applyOutcome_spend {queue : InMemoryQueue} {h : JobHandle} {dispatch : Dispatch} {outcome : Outcome}
    {now : DateTime} :
    Ensures (applyOutcome config queue h dispatch outcome now).2 h
      (fun _ h' => h'.statistics.spend = h.statistics.spend +
        if queue.holds dispatch.lease.leaseId now then outcome.due else 0) (fun _ _ => True) := by
  have failing : ∀ (latencyMs : Nat) (failureState : TaskState) (errorKind errorMessage : String) (retryable : Bool)
      (validationFailures : List String) (stamp : Stamp),
      Ensures (do
          releaseAgent dispatch.agent false latencyMs now
          failTask dispatch.task failureState errorKind errorMessage retryable validationFailures stamp) h
        (fun _ h' => h'.statistics.spend = h.statistics.spend) (fun _ _ => True) := by
    intro latencyMs failureState errorKind errorMessage retryable validationFailures stamp
    rw [ensures_bind, releaseAgent, ensures_modify]
    exact (failTask_keeps spend_aside _ _ _ _ _ _ _ _).mono (fun _ _ same => same) (fun _ _ _ => trivial)
  have nothing : outcome.accepted = none → ∀ held : Bool, (if held then outcome.due else 0) = 0 := by
    intro none held
    rw [Outcome.due, none]
    exact ite_self _
  unfold applyOutcome
  split
  · rename_i result
    dsimp only
    split
    · rename_i passed
      have brought : (Outcome.returned (.ok result)).accepted = some result := if_pos passed
      split
      · rename_i done
        have held := InMemoryQueue.acknowledge_ok_iff.mp (congrArg Prod.fst done)
        rw [ensures_bind]
        refine (advance_keeps spend_aside _ _ _ _ h).mono ?_ (fun _ _ _ => trivial)
        intro _ h' same
        simp only [recordSuccess, releaseAgent, emit, ensures_bind, ensures_modify]
        rw [if_pos held, Outcome.due, brought, ← same]
        rfl
      · rename_i lost
        have gone : ¬ queue.holds dispatch.lease.leaseId now = true := by
          rw [← InMemoryQueue.acknowledge_ok_iff, lost]
          exact fun absurd => by cases absurd
        rw [if_neg gone, add_zero]
        exact failing _ _ _ _ _ _ _
    · rename_i failed
      rw [nothing (if_neg failed), add_zero]
      exact failing _ _ _ _ _ _ _
  · rw [nothing rfl, add_zero]
    exact failing _ _ _ _ _ _ _
  · rw [nothing rfl, add_zero]
    exact failing _ _ _ _ _ _ _

/-- What a step leaves unbilled for good: what is due for a task whose lease has been lost. -/
def forgone (input : EngineInput) (run : JobRun) (queue : InMemoryQueue) : Spend :=
  match run.pc with
  | .applying ((dispatch, outcome) :: _) => if queue.holds dispatch.lease.leaseId input.now then 0 else outcome.due
  | _ => 0

theorem forgone_of_ne {queue : InMemoryQueue} (settled : ∀ entry rest, run.pc ≠ .applying (entry :: rest)) :
    forgone input run queue = 0 := by
  unfold forgone
  split
  · rename_i here
    exact absurd here (settled _ _)
  · rfl

/-- The next outcome is billed. -/
theorem step_applying_ledger (sound : run.Sound) {dispatch : Dispatch} {outcome : Outcome}
    {rest : List (Dispatch × Outcome)} (applying : run.pc = .applying ((dispatch, outcome) :: rest)) :
    (step config toposort input run shared).1.ledger + forgone input run shared.queue = run.ledger := by
  obtain ⟨h', stepped, _⟩ := step_applying config toposort input shared sound applying
  have billed : Ensures (do
      (applyOutcome config shared.queue run.handle dispatch outcome input.now).2
      pure (Pc.applying rest)) run.handle
      (fun _ h => h.statistics.spend = run.handle.statistics.spend +
        if shared.queue.holds dispatch.lease.leaseId input.now then outcome.due else 0) (fun _ _ => True) := by
    rw [ensures_bind]
    exact applyOutcome_spend
  have ran : exec run (do
      (applyOutcome config shared.queue run.handle dispatch outcome input.now).2
      pure (Pc.applying rest)) = { run with handle := h', pc := .applying rest } := by
    rw [← (Prod.mk.inj stepped).1]
    simp only [applying]
  rw [stepped]
  simp only [JobRun.ledger, forgone, applying, Pc.due, List.map_cons, List.sum_cons]
  rcases exec_cases run billed with ⟨pc, h, done, spend⟩ | ⟨e, h, failed, _⟩
  · rw [ran] at done
    cases done
    rw [spend]
    split
    · rw [add_zero, add_assoc]
    · rw [add_zero, add_assoc, add_comm outcome.due]
  · rw [ran] at failed
    cases failed

/-- A step that bills nothing. -/
theorem ledger_quiet (rests : run.pc.due = 0) (spend : run'.handle.statistics.spend = run.handle.statistics.spend)
    (plain : run'.pc.due = 0) : run'.ledger = run.ledger := by
  rw [JobRun.ledger, JobRun.ledger, spend, plain, rests]

/-- Local work that bills nothing. -/
theorem ledger_exec (rests : run.pc.due = 0) {work : HandleAct Pc} (start : JobRun)
    (same : start.handle.statistics.spend = run.handle.statistics.spend)
    (spend : Keeps (fun h => h.statistics.spend) work)
    (plain : Ensures work start.handle (fun pc _ => pc.due = 0) (fun _ _ => True)) :
    (exec start work).ledger = run.ledger := by
  rcases exec_cases start ((spend start.handle).and plain) with ⟨pc, h, ran, kept, due⟩ | ⟨e, h, ran, kept, _⟩
  · rw [ran]
    exact ledger_quiet rests (kept.trans same) due
  · rw [ran]
    exact ledger_quiet rests (kept.trans same) rfl

theorem spawnAgents_spend (ids : Nat → AgentId) (target : Nat) (now : DateTime) :
    Keeps (fun h => h.statistics.spend) (spawnAgents config ids target now) :=
  .bind .get (fun _ => .bind (.liftExcept _) (fun _ => .modify (fun _ => rfl)))

theorem growPool_spend (id : AgentId) (agentType : AgentType) (now : DateTime) :
    Keeps (fun h => h.statistics.spend) (growPool config id agentType now) :=
  .bind .get (fun _ => .bind (.liftExcept _)
    (fun _ => (emit_keeps spend_aside).bind (fun _ => .modify (fun _ => rfl))))

theorem stepIdle_ledger (rests : run.pc.due = 0) :
    (stepIdle config toposort input run shared).1.ledger = run.ledger := by
  unfold stepIdle
  simp only
  split
  · split <;> exact ledger_quiet rests rfl rfl
  · have entered : Ensures (enter toposort input.now) run.handle _ _ :=
      enter_keeps spend_aside toposort input.now run.handle
    rcases entered.cases with ⟨target, h, done, same⟩ | ⟨e, h, failed, same⟩
    · rw [done]
      simp only
      split
      · exact ledger_quiet rests same rfl
      · refine ledger_exec rests { run with handle := h, ticks := 0, paused := false, spawned := target } same
          ((spawnAgents_spend _ _ _).bind (fun _ => .pure _)) ?_
        rw [ensures_bind]
        exact spawnAgents_ensures.mono (fun _ _ _ => rfl) (fun _ _ _ => trivial)
    · rw [failed]
      exact ledger_quiet rests same rfl

theorem stepTop_ledger (rests : run.pc.due = 0) : (stepTop config input run).ledger = run.ledger := by
  have plans : ∀ h, Ensures (planTick input.now) h (fun pc _ => pc.due = 0) (fun _ _ => True) := by
    intro h
    refine planTick_relabels.mono ?_ (fun _ _ same => same)
    rintro pc _ ⟨_, rfl | rfl⟩ <;> rfl
  unfold stepTop
  simp only
  split
  · exact ledger_quiet rests rfl rfl
  · split
    · exact ledger_quiet rests rfl rfl
    · split
      · exact ledger_quiet rests rfl rfl
      · refine ledger_exec rests { run with ticks := run.ticks + 1, paused := true } rfl
          ((setStatus_keeps spend_aside _ _ _).bind (fun _ => .pure _)) ?_
        rw [ensures_bind]
        exact setStatus_ensures (fun _ => rfl) (fun _ => trivial)
    · refine ledger_exec rests { run with ticks := run.ticks + 1, paused := false } rfl
        (beginTick_keeps spend_aside _ _) ?_
      unfold beginTick
      split
      · rw [ensures_bind]
        exact setStatus_ensures (fun _ => plans _) (fun _ => trivial)
      · exact plans _

theorem collected_due (h : JobHandle) (dispatches : List Dispatch) (promoted : Nat) :
    (collected h dispatches promoted).due = 0 :=
  Pc.due_of_ne (collected_dispatches h dispatches promoted).2.2.2.2.1

theorem receive_ledger (rests : run.pc.due = 0) {lease : TaskLease} {left : Nat} {dispatches : List Dispatch}
    {promoted : Nat} : (receive config input run lease left dispatches promoted).ledger = run.ledger := by
  unfold receive
  simp only
  split
  · split
    · exact ledger_quiet rests rfl rfl
    · rename_i agent agents _
      have starts : Keeps (fun h => h.statistics.spend) (startTask config lease agent input.now) :=
        startTask_keeps spend_aside lease agent input.now
      refine ledger_exec rests { run with handle := { run.handle with agents := agents } } rfl
        (starts.bind (fun _ => .pure _)) ?_
      rw [ensures_bind]
      exact (starts _).mono (fun _ _ _ => rfl) (fun _ _ _ => trivial)
  · exact ledger_quiet rests rfl rfl

/-- Where no attempts are under way and none to be settled, a step bills nothing. -/
theorem step_settled_ledger (sound : run.Sound) (grounded : ∀ dispatches, run.pc ≠ .executing dispatches)
    (settled : ∀ entry rest, run.pc ≠ .applying (entry :: rest)) :
    (step config toposort input run shared).1.ledger = run.ledger := by
  cases here : run.pc with
  | applying todo =>
    cases todo with
    | cons entry rest => exact absurd here (settled entry rest)
    | nil =>
      simp only [step, here]
      refine ledger_quiet (by rw [here]; rfl) rfl (Pc.due_of_ne ?_)
      intro todo
      simp only
      split <;> exact fun absurd => by cases absurd
  | executing dispatches => exact absurd here (grounded dispatches)
  | idle =>
    simp only [step, here]
    exact stepIdle_ledger (by rw [here]; rfl)
  | returned answer =>
    simp only [step, here]
    exact stepIdle_ledger (by rw [here]; rfl)
  | refunding claimed target =>
    simp only [step, here]
    exact ledger_quiet (by rw [here]; rfl) rfl rfl
  | top =>
    simp only [step, here]
    exact stepTop_ledger (by rw [here]; rfl)
  | waiting =>
    simp only [step, here]
    split
    · rfl
    · exact ledger_quiet (by rw [here]; rfl) rfl rfl
    · exact ledger_quiet (by rw [here]; rfl) rfl rfl
  | promoting todo queued =>
    have rests : run.pc.due = 0 := by rw [here]; rfl
    cases todo with
    | nil =>
      simp only [step, here]
      exact ledger_quiet rests rfl rfl
    | cons task rest =>
      simp only [step, here]
      have promotes : Keeps (fun h => h.statistics.spend) (promote config task input.now) :=
        promote_keeps spend_aside task input.now
      rcases (promotes run.handle).cases with ⟨node, h, done, same⟩ | ⟨e, h, failed, same⟩
      · rw [done]
        simp only
        refine ledger_exec rests { run with handle := h } same ((emit_keeps spend_aside).bind (fun _ => .pure _)) ?_
        simp only [emit, ensures_bind, ensures_modify, ensures_pure]
        rfl
      · rw [failed]
        exact ledger_quiet rests same rfl
  | maintaining promoted =>
    simp only [step, here]
    split <;> exact ledger_quiet (by rw [here]; rfl) rfl rfl
  | scaling promoted depth =>
    simp only [step, here]
    split
    · split <;> exact ledger_quiet (by rw [here]; rfl) rfl rfl
    · exact ledger_quiet (by rw [here]; rfl) rfl rfl
  | growing agentType promoted depth =>
    simp only [step, here]
    refine ledger_exec (by rw [here]; rfl) run rfl ((growPool_spend _ _ _).bind (fun _ => .pure _)) ?_
    rw [ensures_bind]
    exact growPool_ensures.mono (fun _ _ _ => rfl) (fun _ _ _ => trivial)
  | reclaiming promoted depth =>
    simp only [step, here]
    generalize (if depth = 0 then reclaim _ _ run.handle.agents else (run.handle.agents, 0)) = pool
    obtain ⟨agents, reclaimed⟩ := pool
    have told := announced reclaimed { run.handle with agents := agents }
      (.collecting (agents.countP AgentDescriptor.isAvailable) [] promoted)
    refine ledger_exec (by rw [here]; rfl) { run with handle := { run.handle with agents := agents }, pc := _ } rfl
      (.ite ((emit_keeps spend_aside).bind (fun _ => .pure _)) (.pure _)) ?_
    exact told.mono (fun _ _ next => by rw [next.2]; rfl) (fun _ _ never => never.elim)
  | collecting left dispatches promoted =>
    have rests : run.pc.due = 0 := by rw [here]; rfl
    cases left with
    | zero =>
      simp only [step, here]
      exact ledger_quiet rests rfl (collected_due _ _ _)
    | succ left =>
      simp only [step, here]
      split
      · exact ledger_quiet rests rfl (collected_due _ _ _)
      · exact receive_ledger rests
  | dropping leaseId left dispatches promoted =>
    simp only [step, here]
    exact ledger_quiet (by rw [here]; rfl) rfl rfl
  | releasing leaseId dispatches promoted =>
    simp only [step, here]
    split
    · exact ledger_quiet (by rw [here]; rfl) rfl rfl
    · exact ledger_quiet (by rw [here]; rfl) rfl (collected_due _ _ _)
  | deciding =>
    simp only [step, here]
    split
    · exact ledger_quiet (by rw [here]; rfl) rfl rfl
    · refine ledger_exec (by rw [here]; rfl) run rfl (abandonStranded_keeps spend_aside _) ?_
      exact abandonStranded_next.mono (fun _ _ next => by rcases next with rfl | rfl <;> rfl) (fun _ _ _ => trivial)
  | cancelling =>
    have rests : run.pc.due = 0 := by rw [here]; rfl
    simp only [step, here]
    have cancels : Keeps (fun h => h.statistics.spend) (cancelPending config input.now) :=
      cancelPending_keeps spend_aside input.now
    rcases (cancels run.handle).cases with ⟨_, h, done, same⟩ | ⟨e, h, failed, same⟩
    · rw [done]
      exact ledger_quiet rests same rfl
    · rw [failed]
      exact ledger_quiet rests same rfl
  | finishing cancelled =>
    have rests : run.pc.due = 0 := by rw [here]; rfl
    have finishes : Ensures (finish cancelled run.spawned input) run.handle _ _ :=
      (finish_keeps spend_aside cancelled run.spawned input run.handle).and
        (finish_relabels (sound.live (by rw [here]; rfl)))
    simp only [step, here]
    rcases finishes.cases with ⟨pc, h, done, same, _, _, result, rfl⟩ | ⟨e, h, failed, same, _⟩
    · rw [done]
      exact ledger_quiet rests same rfl
    · rw [failed]
      exact ledger_quiet rests same rfl

/-- Where no attempts are under way, a step only bills what was due. -/
theorem step_ledger (config : CoordinatorConfig) (toposort : DiGraph TaskId → Except Nat (List Nat))
    (input : EngineInput) (shared : Shared) (sound : run.Sound)
    (grounded : ∀ dispatches, run.pc ≠ .executing dispatches) :
    (step config toposort input run shared).1.ledger + forgone input run shared.queue = run.ledger := by
  by_cases applies : ∃ entry rest, run.pc = .applying (entry :: rest)
  · obtain ⟨entry, rest, here⟩ := applies
    exact step_applying_ledger sound here
  · have settled : ∀ entry rest, run.pc ≠ .applying (entry :: rest) :=
      fun entry rest here => applies ⟨entry, rest, here⟩
    rw [forgone_of_ne settled, add_zero]
    exact step_settled_ledger sound grounded settled

end Engine

end Swarm
