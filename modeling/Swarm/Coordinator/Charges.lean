import Swarm.Coordinator.Staffing
import Swarm.Coordinator.Teardown

namespace Swarm
open Recovery JobHandle Act

/-- What a refused run has claimed and not given back yet. -/
def Pc.claim : Pc → Nat
  | .refunding _ target => target
  | _ => 0

/-- The agents in the pool of a job; a finished job has given its agents back. -/
def JobRun.staff (run : JobRun) : Nat := if run.handle.job.status.isFinished then 0 else run.handle.agents.length

theorem JobRun.staff_live {run : JobRun} (live : run.handle.Live) : run.staff = run.handle.agents.length := by
  rw [staff, if_neg (by simpa [JobHandle.Live] using live)]

theorem JobRun.staff_le (run : JobRun) : run.staff ≤ run.handle.agents.length := by
  unfold staff
  split
  · exact Nat.zero_le _
  · exact Nat.le_refl _

/-- A step of an engine counts every agent it takes in, and takes one in only where the cluster has room. -/
structure Charges (config : CoordinatorConfig) (run : JobRun) (shared : Shared) (run' : JobRun)
    (shared' : Shared) : Prop where
  counted : run'.staff + run'.pc.claim + shared.clusterAgents ≤ shared'.clusterAgents + (run.staff + run.pc.claim)
  within : run'.staff ≤ run.staff ∨ shared'.clusterAgents ≤ config.maxClusterAgents

namespace Engine
variable {config : CoordinatorConfig} {toposort : DiGraph TaskId → Except Nat (List Nat)} {input : EngineInput}
  {run run' : JobRun} {shared shared' : Shared}

theorem fetchAdd_eq {counter amount : Nat} (fits : counter + amount < 2 ^ 64) :
    fetchAdd counter amount = counter + amount :=
  Nat.mod_eq_of_lt fits

theorem fetchSub_eq {counter amount : Nat} (fits : counter < 2 ^ 64) (covered : amount ≤ counter) :
    fetchSub counter amount = counter - amount := by
  have split : counter + 2 ^ 64 - amount = counter - amount + 2 ^ 64 := by omega
  rw [fetchSub, split, Nat.add_mod_right, Nat.mod_eq_of_lt (by omega)]

/-- A step that leaves the pool and the count alone. -/
theorem charges_quiet (live : run.handle.Live) (agents : run'.handle.agents.length ≤ run.handle.agents.length)
    (claim : run'.pc.claim = 0) (count : shared'.clusterAgents = shared.clusterAgents) :
    Charges config run shared run' shared' := by
  have fewer : run'.staff ≤ run.staff := by
    rw [JobRun.staff_live live]
    exact Nat.le_trans run'.staff_le agents
  exact ⟨by rw [claim, count]; omega, Or.inl fewer⟩

/-- Local work that leaves the pool alone. -/
theorem charges_exec (live : run.handle.Live) {work : HandleAct Pc} (start : JobRun)
    (same : start.handle.agents = run.handle.agents) (agents : KeepsAgents work)
    (claim : Ensures work start.handle (fun pc _ => pc.claim = 0) (fun _ _ => True))
    (count : shared'.clusterAgents = shared.clusterAgents) : Charges config run shared (exec start work) shared' := by
  rcases exec_cases start ((agents start.handle).and claim) with ⟨pc, h, ran, kept, plain⟩ | ⟨e, h, ran, kept, _⟩
  · rw [ran]
    exact charges_quiet live (by rw [kept, same]) plain count
  · rw [ran]
    exact charges_quiet live (by rw [kept, same]) rfl count

theorem stepIdle_charges (fits : shared.clusterAgents + max 1 run.handle.job.request.maxAgents < 2 ^ 64)
    (inactive : run.pc.isActive = false) :
    Charges config run shared (stepIdle config toposort input run shared).1
      (stepIdle config toposort input run shared).2 := by
  have plain : run.pc.claim = 0 := by cases here : run.pc <;> simp_all [Pc.isActive, Pc.claim]
  unfold stepIdle
  simp only
  split
  · split <;> exact ⟨by rw [plain]; simp [JobRun.staff, Pc.claim]; omega, Or.inl (Nat.le_refl _)⟩
  · rename_i unfinished
    have live : run.handle.Live := by simpa [JobHandle.Live] using unfinished
    have entered : Ensures (enter toposort input.now) run.handle _ _ :=
      ((enter_keeps agents_aside toposort input.now) run.handle).and (enter_target toposort input.now)
    rcases entered.cases with ⟨target, h, done, same, _, limit⟩ | ⟨e, h, failed, same, _⟩
    · have counted : fetchAdd shared.clusterAgents target = shared.clusterAgents + target := fetchAdd_eq (by omega)
      have before := JobRun.staff_live live
      rw [done]
      simp only
      split
      · have fewer :
          ({ run with handle := h, pc := .refunding shared.clusterAgents target } : JobRun).staff ≤ run.staff := by
          rw [before, ← same]
          exact JobRun.staff_le _
        refine ⟨?_, Or.inl fewer⟩
        simp only [counted, Pc.claim]
        omega
      · rename_i room
        have spawned : Succeeds (do
            spawnAgents config input.agentIds target input.now
            pure Pc.top) h (fun pc h' => pc = .top ∧ h'.agents.length = target) := by
          unfold Succeeds
          rw [ensures_bind]
          refine spawnAgents_pool.mono ?_ (fun _ _ never => never)
          rintro _ h' ⟨_, agents⟩
          exact ⟨rfl, by rw [agents, List.length_map, List.length_range]⟩
        rcases exec_cases { run with handle := h, ticks := 0, paused := false, spawned := target } spawned with
          ⟨pc, h', ran, rfl, size⟩ | ⟨e, h', ran, never⟩
        · rw [ran]
          have most :
              ({ run with handle := h', pc := .top, ticks := 0, paused := false, spawned := target } : JobRun).staff ≤
                target := by
            rw [← size]
            exact JobRun.staff_le _
          refine ⟨?_, Or.inr ?_⟩
          · simp only [counted, Pc.claim]
            omega
          · simp only [counted]
            omega
        · exact never.elim
    · rw [failed]
      exact charges_quiet live (by rw [same]) rfl rfl

theorem planTick_claim {h : JobHandle} {now : DateTime} :
    Ensures (planTick now) h (fun pc _ => pc.claim = 0) (fun _ _ => True) := by
  refine planTick_relabels.mono ?_ (fun _ _ same => same)
  rintro pc _ ⟨_, rfl | rfl⟩ <;> rfl

theorem abandonStranded_next {h : JobHandle} {now : DateTime} :
    Ensures (abandonStranded config now) h (fun pc _ => pc = .finishing false ∨ pc = .top) (fun _ _ => True) := by
  simp only [abandonStranded, ensures_bind, ensures_get]
  split
  · exact Or.inl rfl
  · rw [ensures_bind]
    unfold Ensures
    split
    · exact Or.inr rfl
    · trivial

theorem stepTop_charges (live : run.handle.Live) : Charges config run shared (stepTop config input run) shared := by
  unfold stepTop
  simp only
  split
  · exact charges_quiet live (Nat.le_refl _) rfl rfl
  · split
    · exact charges_quiet live (Nat.le_refl _) rfl rfl
    · split
      · exact charges_quiet live (Nat.le_refl _) rfl rfl
      · refine charges_exec live { run with ticks := run.ticks + 1, paused := true } rfl
          ((setStatus_keeps agents_aside _ _ _).bind (fun _ => .pure _)) ?_ rfl
        rw [ensures_bind]
        exact setStatus_ensures (fun _ => rfl) (fun _ => trivial)
    · refine charges_exec live { run with ticks := run.ticks + 1, paused := false } rfl
        (beginTick_keeps agents_aside _ _) ?_ rfl
      unfold beginTick
      split
      · rw [ensures_bind]
        exact setStatus_ensures (fun _ => planTick_claim) (fun _ => trivial)
      · exact planTick_claim

theorem collected_claim (h : JobHandle) (dispatches : List Dispatch) (promoted : Nat) :
    (collected h dispatches promoted).claim = 0 := by
  unfold collected
  repeat' split
  all_goals rfl

theorem receive_charges (live : run.handle.Live) {lease : TaskLease} {left : Nat} {dispatches : List Dispatch}
    {promoted : Nat} (count : shared'.clusterAgents = shared.clusterAgents) :
    Charges config run shared (receive config input run lease left dispatches promoted) shared' := by
  have size := acquireAgent_length config input.preference (input.agentIds 0) input.now run.handle.job.id
    lease.task.payload run.handle.agents
  unfold receive
  simp only
  split
  · generalize acquireAgent config input.preference (input.agentIds 0) input.now run.handle.job.id lease.task.payload
      run.handle.agents = acquired at size ⊢
    obtain ⟨agent, agents⟩ := acquired
    cases agent with
    | none => exact charges_quiet live (Nat.le_of_eq size) rfl count
    | some agent =>
      have starts : KeepsAgents (do
          let dispatch ← startTask config lease agent input.now
          pure (Pc.collecting left (dispatches ++ [dispatch]) promoted)) :=
        (startTask_keeps agents_aside lease agent input.now).bind (fun _ => .pure _)
      have plain : Ensures (do
          let dispatch ← startTask config lease agent input.now
          pure (Pc.collecting left (dispatches ++ [dispatch]) promoted)) { run.handle with agents := agents }
          (fun pc _ => pc.claim = 0) (fun _ _ => True) := by
        rw [ensures_bind]
        exact (startTask_keeps agents_aside lease agent input.now _).mono (fun _ _ _ => rfl) (fun _ _ _ => trivial)
      rcases exec_cases { run with handle := { run.handle with agents := agents } } ((starts _).and plain) with
        ⟨pc, h, ran, kept, claim⟩ | ⟨e, h, ran, kept, _⟩
      · simp only [ran]
        exact charges_quiet live (Nat.le_of_eq ((congrArg List.length kept).trans size)) claim count
      · simp only [ran]
        exact charges_quiet live (Nat.le_of_eq ((congrArg List.length kept).trans size)) rfl count
  · exact charges_quiet live (Nat.le_refl _) rfl count

theorem announced (gone : Nat) (h : JobHandle) (pc : Pc) :
    Succeeds (do
      if 0 < gone then emit
      pure pc) h (fun pc' h' => (h'.agents = h.agents ∧ h'.graph = h.graph) ∧ pc' = pc) := by
  unfold Succeeds
  by_cases any : 0 < gone
  · rw [if_pos any, ensures_bind]
    simp only [emit, ensures_modify, ensures_pure, and_self]
  · rw [if_neg any]
    exact ⟨⟨rfl, rfl⟩, rfl⟩

/-- Every step of an engine charges the cluster for its agents. -/
theorem step_charges (sound : run.Sound)
    (fits : shared.clusterAgents + max 1 run.handle.job.request.maxAgents < 2 ^ 64)
    (owned : run.staff + run.pc.claim ≤ shared.clusterAgents)
    (room : ∀ agentType promoted depth, run.pc = .growing agentType promoted depth →
      shared.clusterAgents < config.maxClusterAgents) :
    Charges config run shared (step config toposort input run shared).1
      (step config toposort input run shared).2 := by
  have live : run.pc.isActive = true → run.handle.Live := sound.live
  unfold step
  cases here : run.pc with
  | idle => exact stepIdle_charges fits (by rw [here]; rfl)
  | returned answer => exact stepIdle_charges fits (by rw [here]; rfl)
  | refunding claimed target =>
    rw [here] at owned
    have back : fetchSub shared.clusterAgents target = shared.clusterAgents - target :=
      fetchSub_eq (by omega) (by simp only [Pc.claim] at owned; omega)
    refine ⟨?_, Or.inl (Nat.le_refl _)⟩
    simp only [Pc.claim, back, here] at owned ⊢
    change run.staff + 0 + _ ≤ _
    omega
  | top => exact stepTop_charges (live (by rw [here]; rfl))
  | waiting =>
    have live := live (by rw [here]; rfl)
    simp only
    split
    · exact charges_quiet live (Nat.le_refl _) (by rw [here]; rfl) rfl
    · exact charges_quiet live (Nat.le_refl _) rfl rfl
    · exact charges_quiet live (Nat.le_refl _) rfl rfl
  | promoting todo queued =>
    have live := live (by rw [here]; rfl)
    cases todo with
    | nil => exact charges_quiet live (Nat.le_refl _) rfl rfl
    | cons task rest =>
      simp only
      have promoted : KeepsAgents (promote config task input.now) := promote_keeps agents_aside task input.now
      rcases (promoted run.handle).cases with ⟨node, h, done, same⟩ | ⟨e, h, failed, same⟩
      · rw [done]
        simp only
        refine charges_exec live { run with handle := h } same
          ((emit_keeps agents_aside).bind (fun _ => .pure _)) ?_ rfl
        simp only [emit, ensures_bind, ensures_modify, ensures_pure]
        rfl
      · rw [failed]
        exact charges_quiet live (by rw [same]) rfl rfl
  | maintaining promoted =>
    have live := live (by rw [here]; rfl)
    simp only
    split <;> exact charges_quiet live (Nat.le_refl _) rfl rfl
  | scaling promoted depth =>
    have live := live (by rw [here]; rfl)
    simp only
    split
    · split <;> exact charges_quiet live (Nat.le_refl _) rfl rfl
    · exact charges_quiet live (Nat.le_refl _) rfl rfl
  | growing agentType promoted depth =>
    have live := live (by rw [here]; rfl)
    have size := JobRun.staff_live live
    have vacant := room agentType promoted depth here
    have counted : fetchAdd shared.clusterAgents 1 = shared.clusterAgents + 1 := fetchAdd_eq (by omega)
    have grows : Succeeds (do
        growPool config (input.agentIds 0) agentType input.now
        pure (Pc.reclaiming promoted depth)) run.handle
        (fun pc h => pc = .reclaiming promoted depth ∧ h.agents.length = run.handle.agents.length + 1) := by
      unfold Succeeds
      rw [ensures_bind]
      refine growPool_pool.mono ?_ (fun _ _ never => never)
      intro _ h agents
      exact ⟨rfl, by rw [agents, List.length_append, List.length_singleton]⟩
    rcases exec_cases run grows with ⟨pc, h, ran, rfl, longer⟩ | ⟨e, h, ran, never⟩
    · have most : ({ run with handle := h, pc := .reclaiming promoted depth } : JobRun).staff ≤ h.agents.length :=
        JobRun.staff_le _
      have plain : run.pc.claim = 0 := by rw [here]; rfl
      simp only [ran, counted]
      refine ⟨?_, Or.inr vacant⟩
      rw [plain]
      change JobRun.staff _ + 0 + _ ≤ shared.clusterAgents + 1 + _
      omega
    · exact never.elim
  | reclaiming promoted depth =>
    have live := live (by rw [here]; rfl)
    have size := JobRun.staff_live live
    simp only
    generalize same : (if depth = 0 then
      reclaim (input.now - milliseconds (asI64 config.agentIdleTimeoutMs)) run.handle.agents.length run.handle.agents
      else (run.handle.agents, 0)) = reclaimed
    have left : reclaimed.1.length + reclaimed.2 = run.handle.agents.length := by
      rw [← same]
      split
      · exact reclaim_length _ _ _
      · rfl
    obtain ⟨agents, gone⟩ := reclaimed
    have back : fetchSub shared.clusterAgents gone = shared.clusterAgents - gone := by
      simp only at left
      exact fetchSub_eq (by omega) (by omega)
    have plain : run.pc.claim = 0 := by rw [here]; rfl
    rcases exec_cases { run with handle := { run.handle with agents := agents }, pc := .reclaiming promoted depth }
        (announced gone { run.handle with agents := agents }
          (.collecting (agents.countP AgentDescriptor.isAvailable) [] promoted)) with
      ⟨pc, h, ran, ⟨kept, _⟩, rfl⟩ | ⟨e, h, ran, never⟩
    · have most := JobRun.staff_le
        { run with handle := h, pc := .collecting (agents.countP AgentDescriptor.isAvailable) [] promoted }
      simp only [kept] at most
      simp only [ran, back]
      simp only at left
      refine ⟨?_, Or.inl (by omega)⟩
      rw [plain]
      change JobRun.staff _ + 0 + _ ≤ shared.clusterAgents - gone + _
      omega
    · exact never.elim
  | collecting left dispatches promoted =>
    have live := live (by rw [here]; rfl)
    cases left with
    | zero => exact charges_quiet live (Nat.le_refl _) (collected_claim _ _ _) rfl
    | succ left =>
      simp only
      split
      · exact charges_quiet live (Nat.le_refl _) (collected_claim _ _ _) rfl
      · exact receive_charges live rfl
  | dropping leaseId left dispatches promoted =>
      exact charges_quiet (live (by rw [here]; rfl)) (Nat.le_refl _) rfl rfl
  | releasing leaseId dispatches promoted =>
    have live := live (by rw [here]; rfl)
    simp only
    split
    · exact charges_quiet live (Nat.le_refl _) rfl rfl
    · exact charges_quiet live (Nat.le_refl _) (collected_claim _ _ _) rfl
  | deciding =>
    have live := live (by rw [here]; rfl)
    simp only
    split
    · exact charges_quiet live (Nat.le_refl _) rfl rfl
    · refine charges_exec live run rfl (abandonStranded_keeps agents_aside _) ?_ rfl
      exact abandonStranded_next.mono (fun _ _ next => by rcases next with rfl | rfl <;> rfl) (fun _ _ _ => trivial)
  | executing dispatches =>
    have live := live (by rw [here]; rfl)
    simp only
    split
    · exact charges_quiet live (Nat.le_refl _) rfl rfl
    · split
      · exact charges_quiet live (Nat.le_refl _) rfl rfl
      · exact charges_quiet live (Nat.le_refl _) (by rw [here]; rfl) rfl
  | applying todo =>
    have live := live (by rw [here]; rfl)
    cases todo with
    | nil =>
      simp only
      refine charges_quiet live (Nat.le_refl _) ?_ rfl
      change (if run.handle.graph.isComplete = true then Pc.finishing false else .top).claim = 0
      split <;> rfl
    | cons entry rest =>
      obtain ⟨dispatch, outcome⟩ := entry
      have applied : Ensures (do
          (applyOutcome config shared.queue run.handle dispatch outcome input.now).2
          pure (Pc.applying rest)) run.handle
          (fun pc h => pc.claim = 0 ∧ h.agents.length = run.handle.agents.length)
          (fun _ h => h.agents.length = run.handle.agents.length) := by
        rw [ensures_bind]
        refine (applyOutcome_agents shared.queue run.handle dispatch outcome input.now).mono ?_ ?_
        · rintro _ h ⟨succeeded, latencyMs, agents⟩
          exact ⟨rfl, by rw [agents, Vec.length_modifyFirst]⟩
        · rintro e h (same | ⟨succeeded, latencyMs, agents⟩)
          · rw [same]
          · rw [agents, Vec.length_modifyFirst]
      simp only
      rcases exec_cases run applied with ⟨pc, h, ran, claim, size⟩ | ⟨e, h, ran, size⟩
      · rw [ran]
        exact charges_quiet live (Nat.le_of_eq size) claim rfl
      · rw [ran]
        exact charges_quiet live (Nat.le_of_eq size) rfl rfl
  | cancelling =>
    have live := live (by rw [here]; rfl)
    simp only
    have settled : KeepsAgents (cancelPending config input.now) := cancelPending_keeps agents_aside input.now
    rcases (settled run.handle).cases with ⟨_, h, done, same⟩ | ⟨e, h, failed, same⟩
    · rw [done]
      exact charges_quiet live (by rw [same]) rfl rfl
    · rw [failed]
      exact charges_quiet live (by rw [same]) rfl rfl
  | finishing cancelled =>
    have live := live (by rw [here]; rfl)
    have size := JobRun.staff_live live
    have finishes : Ensures (finish cancelled run.spawned input) run.handle _ _ :=
      ((finish_keeps agents_aside cancelled run.spawned input) run.handle).and (finish_relabels live)
    simp only
    rcases finishes.cases with ⟨pc, h, done, same, _, finished, result, rfl⟩ | ⟨e, h, failed, same, _⟩
    · rw [done]
      have given : ({ run with handle := h, pc := .returned (.ok result) } : JobRun).staff = 0 := if_pos finished
      refine ⟨?_, Or.inl (by rw [given]; exact Nat.zero_le _)⟩
      simp only [given, Pc.claim, same]
      omega
    · rw [failed]
      exact charges_quiet live (by rw [same]) rfl rfl

end Engine

end Swarm
