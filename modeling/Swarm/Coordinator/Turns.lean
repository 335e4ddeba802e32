import Swarm.Coordinator.Lawful

namespace Swarm
open JobHandle Act

/-- Neither a deadline nor a runtime limit. -/
def Job.Unlimited (job : Job) : Prop := job.request.deadline = none ∧ job.request.maxRuntimeSeconds = none

theorem Job.Unlimited.not_past {job : Job} (unlimited : job.Unlimited) (now : DateTime) :
    job.isPastDeadline now = false := by
  simp [isPastDeadline, unlimited.1, unlimited.2]

/-- Inside the loop of `run_job`. -/
def Pc.isLooping : Pc → Bool
  | .top | .waiting => true
  | pc => pc.isTicking

theorem Pc.isLooping_of_ticking {pc : Pc} (ticking : pc.isTicking = true) : pc.isLooping = true := by
  cases pc <;> first | rfl | cases ticking

/-- The tick has queued nothing and started nothing so far. -/
def Pc.isBarren : Pc → Bool
  | .promoting [] 0 | .maintaining 0 | .scaling 0 _ | .growing _ 0 _ | .reclaiming 0 _ | .collecting _ [] 0
  | .dropping _ _ [] 0 | .releasing _ [] 0 | .deciding => true
  | _ => false

theorem Pc.isBarren_collecting {left : Nat} {dispatches : List Dispatch} {promoted : Nat} :
    (Pc.collecting left dispatches promoted).isBarren = true ↔ dispatches = [] ∧ promoted = 0 := by
  cases dispatches <;> cases promoted <;> simp [isBarren]

theorem Pc.isBarren_dropping {leaseId : LeaseId} {left : Nat} {dispatches : List Dispatch} {promoted : Nat} :
    (Pc.dropping leaseId left dispatches promoted).isBarren = true ↔ dispatches = [] ∧ promoted = 0 := by
  cases dispatches <;> cases promoted <;> simp [isBarren]

theorem Pc.isBarren_releasing {leaseId : LeaseId} {dispatches : List Dispatch} {promoted : Nat} :
    (Pc.releasing leaseId dispatches promoted).isBarren = true ↔ dispatches = [] ∧ promoted = 0 := by
  cases dispatches <;> cases promoted <;> simp [isBarren]

/-- The ways out of the loop for a job that is not cancelled and has no limit. -/
inductive Leaves (input : EngineInput) (run : JobRun) (shared : Shared) (run' : JobRun) : Prop
  | complete : run'.pc = .finishing false → run'.handle.graph = run.handle.graph →
      run.handle.graph.isComplete = true →
      Leaves input run shared run'
  | stuck : run.pc = .deciding → (shared.queue.statistics input.now).depth = 0 →
      run.handle.graph.blockedByAbandoned = [] →
      run'.pc = .finishing false → Engine.Ends run.handle run'.handle → Leaves input run shared run'
  | failed {e : SwarmError} : run'.pc = .returned (.error e) → Leaves input run shared run'

/-- Where a step leads, and what it keeps of what the engine has in hand. -/
structure Turns (input : EngineInput) (run : JobRun) (shared : Shared) (run' : JobRun) : Prop where
  barren : run'.pc.isBarren = true →
    run.pc.isBarren = true ∨ run.pc = .top ∧ run'.pc = .promoting run.handle.graph.ready 0
  leaves : run.pc.isLooping = true → run'.pc.isLooping = true ∨ Leaves input run shared run'
  hand : run'.handle.graph = run.handle.graph → (∀ answer, run'.pc ≠ .returned answer) → run'.pc ≠ .cancelling →
    run.pc.dispatches ⊆ run'.pc.dispatches
  still : run.pc.isTicking = false → run.pc ≠ .cancelling → run'.handle.graph = run.handle.graph

namespace Engine
variable {config : CoordinatorConfig} {toposort : DiGraph TaskId → Except Nat (List Nat)} {input : EngineInput}
  {run run' : JobRun} {shared : Shared} {h : JobHandle}

/-- A step that ends the run, or goes on outside of the loop. -/
theorem turns_outside (empty : run.pc.dispatches = []) (plain : run'.pc.isBarren = false)
    (leaves : run.pc.isLooping = true → run'.pc.isLooping = true ∨ Leaves input run shared run')
    (still : run.pc.isTicking = false → run.pc ≠ .cancelling → run'.handle.graph = run.handle.graph) :
    Turns input run shared run' where
  barren here := absurd (plain.symm.trans here) (by simp)
  leaves := leaves
  hand := by simp [empty]
  still := still

theorem turns_failed {e : SwarmError} (failed : run'.pc = .returned (.error e))
    (still : run.pc.isTicking = false → run.pc ≠ .cancelling → run'.handle.graph = run.handle.graph) :
    Turns input run shared run' where
  barren := by simp [failed, Pc.isBarren]
  leaves _ := Or.inr (.failed failed)
  hand := by simp [failed]
  still := still

/-- A step within a tick. -/
theorem turns_ticking (ticking : run.pc.isTicking = true) (barren : run'.pc.isBarren = true → run.pc.isBarren = true)
    (looping : run'.pc.isLooping = true) (hand : run.pc.dispatches ⊆ run'.pc.dispatches) :
    Turns input run shared run' where
  barren here := Or.inl (barren here)
  leaves _ := Or.inl looping
  hand _ _ _ := hand
  still outside := absurd (outside.symm.trans ticking) (by simp)

theorem turns_collected {dispatches : List Dispatch} {promoted : Nat} (ticking : run.pc.isTicking = true)
    (inHand : run.pc.dispatches = dispatches) (barren : dispatches = [] → promoted = 0 → run.pc.isBarren = true) :
    Turns input run shared { run with pc := collected run.handle dispatches promoted } where
  barren here := by
    refine Or.inl ?_
    simp only [collected] at here
    split at here
    · rename_i empty
      split at here
      · cases here
      · split at here
        · rename_i nothing
          exact barren (List.isEmpty_iff.mp empty) nothing
        · cases here
    · cases here
  leaves _ := by
    unfold collected
    split
    · split
      · rename_i complete
        exact Or.inr (.complete rfl rfl complete)
      · split <;> exact Or.inl rfl
    · exact Or.inl rfl
  hand _ _ _ := by
    rw [inHand, (collected_dispatches run.handle dispatches promoted).1]
    exact List.Subset.refl _
  still outside := absurd (outside.symm.trans ticking) (by simp)

theorem planTick_plans (unlimited : h.job.Unlimited) {now : DateTime} :
    Ensures (planTick now) h (fun pc h' => h'.graph = h.graph ∧ pc = .promoting h.graph.ready 0)
      (fun _ _ => False) := by
  simp only [planTick, ensures_bind, ensures_get, unlimited.not_past now, Bool.false_eq_true, if_false,
    ensures_pure, and_self]

/-- Without a limit every tick is planned. -/
theorem beginTick_plans (unlimited : h.job.Unlimited) {paused : Bool} {now : DateTime} :
    Ensures (beginTick paused now) h (fun pc h' => h'.graph = h.graph ∧ pc = .promoting h.graph.ready 0)
      (fun _ h' => h'.graph = h.graph) := by
  unfold beginTick
  cases paused with
  | true =>
    simp only [if_true, ensures_bind]
    refine setStatus_ensures ?_ (fun _ => rfl)
    intro _
    refine (planTick_plans ?_).mono (fun _ _ done => done) (fun _ _ never => never.elim)
    exact unlimited
  | false => exact (planTick_plans unlimited).mono (fun _ _ done => done) (fun _ _ never => never.elim)

theorem stepIdle_turns (inactive : run.pc.isActive = false) :
    Turns input run shared (stepIdle config toposort input run shared).1 := by
  have empty : run.pc.dispatches = [] := by cases here : run.pc <;> simp_all [Pc.isActive, Pc.dispatches]
  have outside : run.pc.isLooping = false := by
    cases here : run.pc <;> simp_all [Pc.isActive, Pc.isLooping, Pc.isTicking]
  have away : ∀ {run'}, run'.pc.isBarren = false → run'.handle.graph = run.handle.graph →
      Turns input run shared run' := by
    intro run' plain graph
    exact turns_outside empty plain (fun looping => absurd (outside.symm.trans looping) (by simp)) (fun _ _ => graph)
  unfold stepIdle
  simp only
  split
  · split <;> exact away rfl rfl
  · rename_i unfinished
    have live : run.handle.Live := by simpa [JobHandle.Live] using unfinished
    have entered : Ensures (enter toposort input.now) run.handle _ _ := enter_relabels live
    rcases entered.cases with ⟨target, h, done, relabels, running⟩ | ⟨e, h, failed, stays⟩
    · rw [done]
      simp only
      split
      · exact away rfl relabels.graph
      · have spawned : Ensures (do
            spawnAgents config input.agentIds target input.now
            pure Pc.top) h (fun pc h' => pc = .top ∧ SameCore h h') (fun _ h' => h' = h) := by
          rw [ensures_bind]
          exact spawnAgents_ensures.mono (fun _ _ same => ⟨rfl, same⟩) (fun _ _ same => same)
        rcases exec_cases { run with handle := h, ticks := 0, paused := false, spawned := target } spawned with
          ⟨pc, h', ran, rfl, same⟩ | ⟨e, h', ran, rfl⟩
        · rw [ran]
          exact away rfl (same.graph.trans relabels.graph)
        · rw [ran]
          exact away rfl relabels.graph
    · rw [failed]
      rcases stays with rfl | ⟨relabels, _⟩
      · exact away rfl rfl
      · exact away rfl relabels.graph

theorem stepTop_turns (atTop : run.pc = .top) (unlimited : run.handle.job.Unlimited)
    (uncancelled : run.handle.control ≠ .cancelled) : Turns input run shared (stepTop config input run) := by
  have empty : run.pc.dispatches = [] := by rw [atTop]; rfl
  unfold stepTop
  simp only
  split
  · exact turns_failed rfl (fun _ _ => rfl)
  · split
    · rename_i cancelled
      exact absurd cancelled uncancelled
    · split
      · exact turns_outside empty rfl (fun _ => Or.inl rfl) (fun _ _ => rfl)
      · have paused : Ensures (do
            setStatus .paused (some "operator paused") input.now
            pure Pc.waiting) run.handle (fun pc h' => pc = .waiting ∧ h'.graph = run.handle.graph)
            (fun _ h' => h'.graph = run.handle.graph) := by
          rw [ensures_bind]
          exact setStatus_ensures (fun _ => ⟨rfl, rfl⟩) (fun _ => rfl)
        rcases exec_cases { run with ticks := run.ticks + 1, paused := true } paused with
          ⟨pc, h', ran, rfl, graph⟩ | ⟨e, h', ran, graph⟩
        · rw [ran]
          exact turns_outside empty rfl (fun _ => Or.inl rfl) (fun _ _ => graph)
        · rw [ran]
          exact turns_failed rfl (fun _ _ => graph)
    · have begun : Ensures (beginTick run.paused input.now) run.handle _ _ := beginTick_plans unlimited
      rcases exec_cases { run with ticks := run.ticks + 1, paused := false } begun with
        ⟨pc, h', ran, graph, rfl⟩ | ⟨e, h', ran, graph⟩
      · rw [ran]
        exact ⟨fun _ => Or.inr ⟨atTop, rfl⟩, fun _ => Or.inl rfl, by simp [empty], fun _ _ => graph⟩
      · rw [ran]
        exact turns_failed rfl (fun _ _ => graph)

theorem receive_turns {lease : TaskLease} {left : Nat} {dispatches : List Dispatch} {promoted : Nat}
    (collecting : run.pc = .collecting (left + 1) dispatches promoted) :
    Turns input run shared (receive config input run lease left dispatches promoted) := by
  have ticking : run.pc.isTicking = true := by rw [collecting]; rfl
  have inHand : run.pc.dispatches = dispatches := by rw [collecting]; rfl
  have barren : dispatches = [] → promoted = 0 → run.pc.isBarren = true := by
    intro nothing none
    rw [collecting]
    exact Pc.isBarren_collecting.mpr ⟨nothing, none⟩
  unfold receive
  simp only
  split
  · split
    · refine turns_ticking ticking ?_ rfl (by rw [inHand]; exact List.Subset.refl _)
      intro here
      obtain ⟨nothing, none⟩ := Pc.isBarren_releasing.mp here
      exact barren nothing none
    · rename_i agent agents _
      have starts : Ensures (do
          let dispatch ← startTask config lease agent input.now
          pure (Pc.collecting left (dispatches ++ [dispatch]) promoted)) { run.handle with agents := agents }
          (fun pc _ => ∃ dispatch, pc = .collecting left (dispatches ++ [dispatch]) promoted) (fun _ _ => True) := by
        rw [ensures_bind]
        unfold Ensures
        split
        · exact ⟨_, rfl⟩
        · trivial
      rcases exec_cases { run with handle := { run.handle with agents := agents } } starts with
        ⟨pc, h', ran, dispatch, rfl⟩ | ⟨e, h', ran, _⟩
      · rw [ran]
        refine turns_ticking ticking ?_ rfl ?_
        · intro here
          cases dispatches <;> cases here
        · rw [inHand]
          exact List.subset_append_left _ _
      · rw [ran]
        exact turns_failed rfl (fun outside => absurd (outside.symm.trans ticking) (by simp))
  · refine turns_ticking ticking ?_ rfl (by rw [inHand]; exact List.Subset.refl _)
    intro here
    obtain ⟨nothing, none⟩ := Pc.isBarren_dropping.mp here
    exact barren nothing none

/-- Where a step leads when the job is not cancelled and has no limit. -/
theorem step_turns (sound : run.Sound) (resting : run.handle.graph.Resting) (unlimited : run.handle.job.Unlimited)
    (uncancelled : run.handle.control ≠ .cancelled) (answered : Answered input run.pc) :
    Turns input run shared (step config toposort input run shared).1 := by
  cases here : run.pc with
  | idle =>
    simp only [step, here]
    exact stepIdle_turns (by rw [here]; rfl)
  | returned answer =>
    simp only [step, here]
    exact stepIdle_turns (by rw [here]; rfl)
  | refunding claimed target =>
    simp only [step, here]
    exact turns_failed rfl (fun _ _ => rfl)
  | top =>
    simp only [step, here]
    exact stepTop_turns here unlimited uncancelled
  | waiting =>
    have empty : run.pc.dispatches = [] := by rw [here]; rfl
    simp only [step, here]
    split
    · exact turns_outside empty (by rw [here]; rfl) (fun looping => Or.inl looping) (fun _ _ => rfl)
    · exact turns_outside empty rfl (fun _ => Or.inl rfl) (fun _ _ => rfl)
    · rename_i cancelled
      exact absurd cancelled uncancelled
  | promoting todo queued =>
    have ticking : run.pc.isTicking = true := by rw [here]; rfl
    have empty : run.pc.dispatches ⊆ [] := by rw [here]; exact List.Subset.refl _
    cases todo with
    | nil =>
      simp only [step, here]
      refine turns_ticking ticking ?_ rfl empty
      intro barren
      cases queued with
      | zero => rw [here]; rfl
      | succ _ => cases barren
    | cons task rest =>
      simp only [step, here]
      split
      · exact turns_failed rfl (fun outside => absurd (outside.symm.trans ticking) (by simp))
      · rename_i node h _
        have emits : Ensures (do
            emit
            pure (Pc.promoting rest (queued + 1))) h (fun pc _ => pc = .promoting rest (queued + 1))
              (fun _ _ => False) := rfl
        rcases exec_cases { run with handle := h, pc := .promoting (task :: rest) queued } emits with
          ⟨pc, h', ran, rfl⟩ | ⟨e, h', ran, never⟩
        · rw [ran]
          refine turns_ticking ticking ?_ rfl empty
          intro barren
          cases rest <;> cases barren
        · exact never.elim
  | maintaining promoted =>
    have ticking : run.pc.isTicking = true := by rw [here]; rfl
    simp only [step, here]
    split <;> refine turns_ticking ticking ?_ rfl (by rw [here]; exact List.Subset.refl _) <;> intro barren <;>
      cases promoted <;> simp_all [Pc.isBarren]
  | scaling promoted depth =>
    have ticking : run.pc.isTicking = true := by rw [here]; rfl
    have on : ∀ {pc : Pc}, pc.isTicking = true → pc.isLooping = true → (pc.isBarren = true → promoted = 0) →
        Turns input run shared { run with pc := pc } := by
      intro pc _ looping barren
      refine turns_ticking ticking ?_ looping (by rw [here]; exact List.nil_subset _)
      intro now
      rw [here, barren now]
      rfl
    simp only [step, here]
    split
    · split <;> exact on rfl rfl (fun now => by cases promoted <;> simp_all [Pc.isBarren])
    · exact on rfl rfl (fun now => by cases promoted <;> simp_all [Pc.isBarren])
  | growing agentType promoted depth =>
    have ticking : run.pc.isTicking = true := by rw [here]; rfl
    have grows : Ensures (do
        growPool config (input.agentIds 0) agentType input.now
        pure (Pc.reclaiming promoted depth)) run.handle (fun pc _ => pc = .reclaiming promoted depth)
          (fun _ _ => True) := by
      rw [ensures_bind]
      exact growPool_ensures.mono (fun _ _ _ => rfl) (fun _ _ _ => trivial)
    simp only [step, here]
    rcases exec_cases run grows with ⟨pc, h', ran, rfl⟩ | ⟨e, h', ran, _⟩
    · rw [ran]
      refine turns_ticking ticking ?_ rfl (by rw [here]; exact List.nil_subset _)
      intro barren
      cases promoted <;> simp_all [Pc.isBarren]
    · rw [ran]
      exact turns_failed rfl (fun outside => absurd (outside.symm.trans ticking) (by simp))
  | reclaiming promoted depth =>
    have ticking : run.pc.isTicking = true := by rw [here]; rfl
    simp only [step, here]
    generalize (if depth = 0 then reclaim _ _ run.handle.agents else (run.handle.agents, 0)) = pool
    obtain ⟨agents, reclaimed⟩ := pool
    let work : HandleAct Pc := do
      if 0 < reclaimed then emit
      pure (.collecting (agents.countP AgentDescriptor.isAvailable) [] promoted)
    have quiet : Ensures work { run.handle with agents := agents }
      (fun pc _ => ∃ left, pc = .collecting left [] promoted)
        (fun _ _ => False) := by
      simp only [work]
      split <;> simp only [emit, ensures_bind, ensures_modify, ensures_pure] <;> exact ⟨_, rfl⟩
    rcases exec_cases
      { run with handle := { run.handle with agents := agents }, pc := .reclaiming promoted depth } quiet with
      ⟨pc, h', ran, left, rfl⟩ | ⟨e, h', ran, never⟩
    · change Turns input run shared (exec _ work)
      rw [ran]
      refine turns_ticking ticking ?_ rfl (by rw [here]; exact List.nil_subset _)
      intro barren
      cases promoted <;> simp_all [Pc.isBarren]
    · exact never.elim
  | collecting left dispatches promoted =>
    have ticking : run.pc.isTicking = true := by rw [here]; rfl
    have ended : Turns input run shared { run with pc := collected run.handle dispatches promoted } := by
      refine turns_collected ticking (by rw [here]; rfl) ?_
      intro nothing none
      rw [here]
      exact Pc.isBarren_collecting.mpr ⟨nothing, none⟩
    cases left with
    | zero =>
      simp only [step, here]
      exact ended
    | succ left =>
      simp only [step, here]
      split
      · exact ended
      · exact receive_turns here
  | dropping leaseId left dispatches promoted =>
    simp only [step, here]
    refine turns_ticking (by rw [here]; rfl) ?_ rfl (by rw [here]; exact List.Subset.refl _)
    intro barren
    rw [here]
    exact Pc.isBarren_dropping.mpr (Pc.isBarren_collecting.mp barren)
  | releasing leaseId dispatches promoted =>
    have ticking : run.pc.isTicking = true := by rw [here]; rfl
    simp only [step, here]
    split
    · exact turns_failed rfl (fun outside => absurd (outside.symm.trans ticking) (by simp))
    · refine turns_collected ticking (by rw [here]; rfl) ?_
      intro nothing none
      rw [here]
      exact Pc.isBarren_releasing.mpr ⟨nothing, none⟩
  | deciding =>
    have ticking : run.pc.isTicking = true := by rw [here]; rfl
    have empty : run.pc.dispatches = [] := by rw [here]; rfl
    simp only [step, here]
    split
    · exact turns_outside empty rfl (fun _ => Or.inl rfl)
        (fun outside => absurd (outside.symm.trans ticking) (by simp))
    · rename_i shallow
      have abandons : Succeeds (abandonStranded config input.now) run.handle _ := abandonStranded_ends resting
      rcases exec_cases run abandons with ⟨pc, h', ran, ends, next⟩ | ⟨e, h', ran, never⟩
      · rw [ran]
        refine turns_outside empty ?_ ?_ (fun outside => absurd (outside.symm.trans ticking) (by simp)) <;>
          rcases next with ⟨none, rfl⟩ | ⟨_, rfl⟩
        · rfl
        · rfl
        · exact fun _ => Or.inr (.stuck here (Nat.eq_zero_of_not_pos shallow) none rfl ends)
        · exact fun _ => Or.inl rfl
      · exact never.elim
  | executing dispatches =>
    have ticking : run.pc.isTicking = true := by rw [here]; rfl
    simp only [step, here]
    split
    · rename_i outcomes known
      obtain ⟨same, _⟩ := zip_fst (answered dispatches outcomes here known)
      refine turns_ticking ticking (by simp [Pc.isBarren]) rfl ?_
      change run.pc.dispatches ⊆ (dispatches.zip outcomes).map Prod.fst
      rw [same, here]
      exact List.Subset.refl _
    · rw [if_neg uncancelled]
      exact turns_ticking ticking id (by rw [here]; rfl) (List.Subset.refl _)
  | applying todo =>
    have ticking : run.pc.isTicking = true := by rw [here]; rfl
    cases todo with
    | nil =>
      simp only [step, here]
      refine turns_outside (by rw [here]; rfl) ?_ ?_ (fun outside => absurd (outside.symm.trans ticking) (by simp))
      · split <;> rfl
      · intro _
        split
        · rename_i complete
          exact Or.inr (.complete rfl rfl complete)
        · exact Or.inl rfl
    | cons first rest =>
      obtain ⟨dispatch, outcome⟩ := first
      have before := (sound.dispatched dispatch (by rw [here]; exact List.mem_cons_self)).1
      obtain ⟨h', stepped, sets⟩ := step_applying config toposort input shared sound here
      rw [stepped]
      refine ⟨by simp [Pc.isBarren], fun _ => Or.inl rfl, ?_,
        fun outside => absurd (outside.symm.trans ticking) (by simp)⟩
      -- the settled task is not running any more, so the graph has changed
      intro same
      have after := sets.self
      rw [show h'.graph = run.handle.graph from same, before] at after
      exact absurd (Option.some.inj after).symm (settledState_ne_running _ _ _ _)
  | cancelling =>
    refine turns_outside (by rw [here]; rfl) ?_ (by simp [here, Pc.isLooping, Pc.isTicking])
      (fun _ away => absurd here away)
    simp only [step, here]
    split <;> rfl
  | finishing cancelled =>
    have finishes : Ensures (finish cancelled run.spawned input) run.handle _ _ :=
      finish_relabels (sound.live (by rw [here]; rfl))
    have outside : run.pc.isLooping = true → False := by simp [here, Pc.isLooping, Pc.isTicking]
    simp only [step, here]
    rcases finishes.cases with ⟨pc, h', done, relabels, _, result, rfl⟩ | ⟨e, h', failed, relabels⟩
    · rw [done]
      exact turns_outside (by rw [here]; rfl) rfl (fun looping => (outside looping).elim) (fun _ _ => relabels.graph)
    · rw [failed]
      exact turns_outside (by rw [here]; rfl) rfl (fun looping => (outside looping).elim) (fun _ _ => relabels.graph)

end Engine

end Swarm
