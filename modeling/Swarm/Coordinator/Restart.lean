import Swarm.Coordinator.Sync

namespace Swarm.Recovery

theorem own_own (jobId : JobId) (journal : List JournalRecord) :
    own jobId (own jobId journal) = own jobId journal := by
  simp [own, List.filter_filter]

theorem own_snoc (jobId : JobId) (journal : List JournalRecord) (record : JournalRecord) :
    own jobId (journal ++ [record]) =
      if record.jobId = jobId then own jobId journal ++ [record] else own jobId journal := by
  by_cases mine : record.jobId = jobId <;> simp [own, mine]

/-- The accumulators of different jobs do not mix: each is the replay of the job's own records. -/
theorem accumulated (journal : List JournalRecord) (jobId : JobId) :
    (journal.foldl apply .empty).get? jobId =
      if own jobId journal = [] then none else some (replay (own jobId journal)) := by
  induction journal using List.reverseRecOn with
  | nil => rfl
  | append_singleton journal record ih =>
    rw [List.foldl_append, List.foldl_cons, List.foldl_nil, apply, Dict.get?_insert, own_snoc]
    by_cases mine : record.jobId = jobId
    · have previous : ((journal.foldl apply .empty).get? record.jobId).getD {} = replay (own jobId journal) := by
        rw [mine, ih]
        split
        · rename_i nothing
          rw [nothing]
          rfl
        · rfl
      rw [if_pos mine.symm, if_pos mine, if_neg (by simp), previous, replay_snoc]
    · rw [if_neg (Ne.symm mine), if_neg mine, ih]

/-- A job is rebuilt from its own records alone. -/
theorem rebuild_own (toposort : DiGraph TaskId → Except Nat (List Nat)) (journal : List JournalRecord)
    (jobId : JobId) :
    rebuild toposort (own jobId journal) jobId = rebuild toposort journal jobId := by
  unfold rebuild
  rw [accumulated, accumulated, own_own]

theorem rebuild_eq {toposort : DiGraph TaskId → Except Nat (List Nat)} {journal : List JournalRecord} {jobId : JobId}
    (present : own jobId journal ≠ []) :
    rebuild toposort journal jobId = some (build toposort (own jobId journal) (replay (own jobId journal))) := by
  unfold rebuild
  rw [accumulated, if_neg present]
  rfl

theorem adopt_get? (toposort : DiGraph TaskId → Except Nat (List Nat)) (journal : List JournalRecord) (jobId : JobId)
    (entries : List (JobId × Recovering)) (distinct : (entries.map Prod.fst).Nodup) (jobs : Dict JobId JobHandle) :
    (entries.foldl (adopt toposort journal) jobs).get? jobId =
      (((entries.lookup jobId).map (build toposort (own jobId journal))).bind Except.toOption).or
        (jobs.get? jobId) := by
  induction entries generalizing jobs with
  | nil => simp
  | cons entry rest ih =>
    obtain ⟨key, state⟩ := entry
    rw [List.map_cons, List.nodup_cons] at distinct
    rw [List.foldl_cons, ih distinct.2, List.lookup_cons]
    by_cases same : jobId = key
    · subst same
      have absent : rest.lookup jobId = none := by
        cases later : rest.lookup jobId with
        | none => rfl
        | some other => exact absurd (List.mem_map_of_mem (f := Prod.fst) (Dict.lookup_mem later)) distinct.1
      rw [absent, adopt]
      cases built : build toposort (own jobId journal) state <;> simp [built, Except.toOption]
    · have unchanged : (adopt toposort journal jobs (key, state)).get? jobId = jobs.get? jobId := by
        unfold adopt
        split
        · exact Dict.get?_insert_of_ne same
        · rfl
      rw [beq_eq_false_iff_ne.mpr same, unchanged]

/-- A job is among the recovered ones exactly when it can be rebuilt. -/
theorem recover_get? (toposort : DiGraph TaskId → Except Nat (List Nat)) (journal : List JournalRecord)
    (jobId : JobId) :
    (recover toposort journal).get? jobId = (rebuild toposort journal jobId).bind Except.toOption := by
  rw [recover, adopt_get? _ _ _ _ (journal.foldl apply .empty).nodup, Dict.get?_empty, Option.or_none]
  rfl

theorem restored_cases (state : TaskState) :
    restored state = state ∧ state.isTerminal = true ∨ restored state = .created ∧ state.isTerminal = false := by
  unfold restored
  cases terminal : state.isTerminal <;> simp

/-- A finished task is restored to what its last transition says, any other one starts over. -/
theorem restored_says (last : Option TaskState) :
    (∀ final, final.isTerminal = true → (last.elim .created restored = final ↔ last = some final)) ∧
      ((last.elim .created restored).isTerminal = false → last.elim .created restored = .created) := by
  cases last with
  | none =>
    refine ⟨?_, fun _ => rfl⟩
    intro final terminal
    refine ⟨?_, fun impossible => by cases impossible⟩
    rintro rfl
    cases terminal
  | some last =>
    rw [Option.elim_some]
    rcases restored_cases last with ⟨kept, terminal⟩ | ⟨reset, unfinished⟩
    · rw [kept]
      exact ⟨fun final _ => by simp, fun running => absurd (terminal.symm.trans running) (by simp)⟩
    · rw [reset]
      refine ⟨?_, fun _ => rfl⟩
      intro final terminal
      constructor
      · rintro rfl
        cases terminal
      · intro same
        cases same
        rw [unfinished] at terminal
        cases terminal

/-- A legal log is rebuilt, and what comes out is in step with the log. -/
theorem Legal.rebuilt {toposort : DiGraph TaskId → Except Nat (List Nat)} (sorts : Sorts toposort) {job : Job}
    {tasks : List TaskNode} {log : List JournalRecord} (legal : Legal job tasks log) (plan : PlanOk job tasks) :
    ∃ h current, build toposort log (replay log) = .ok h ∧ (replay log).job = some current ∧
      Rebuilt (replay log) current log h ∧ Sync job tasks h := by
  obtain ⟨sameTasks, current, planned, id⟩ := legal.planned_job
  have known : ∀ task ∈ (replay log).taskStates.keys, task ∈ planIds (replay log).tasks := by
    intro task member
    rw [sameTasks]
    obtain ⟨state, present⟩ := Dict.mem_keys.mp member
    exact legal.lastState_planned (Dict.get?_eq_some.mpr present)
  obtain ⟨h, built, rebuilt⟩ := build_ok sorts planned (by rw [sameTasks]; exact plan.ordered)
    (by
      intro node member
      rw [sameTasks] at member
      rw [← plan.blanks node member]
      rfl) known log
  refine ⟨h, current, built, planned, rebuilt, ?_⟩
  have shaped := rebuilt.shaped
  rw [sameTasks] at shaped
  obtain ⟨order, same, shape⟩ := shaped
  have inPlan : ∀ task node, h.graph.get task = some node → task ∈ planIds tasks := by
    intro task node found
    exact (planIds_perm same).mp (shape.get_isSome.mp (by rw [found]; rfl))
  have states : ∀ task ∈ planIds tasks, h.graph.stateOf task =
      some ((lastState log task).elim .created restored) := by
    intro task member
    exact rebuilt.states task (by rw [sameTasks]; exact member)
  have distinct : (planIds tasks).Nodup := by
    obtain ⟨ordered, inOrder, perm⟩ := plan.ordered
    exact (perm.map TaskNode.id).nodup_iff.mpr inOrder.nodup
  obtain ⟨resumed, sameJob⟩ := rebuilt.job
  refine ⟨plan,
    by rw [rebuilt.journal]; exact legal, ?_, rebuilt.jobId.trans id, ⟨order, same, shape⟩, ?_, ?_, ?_, ?_, ?_⟩
  · rw [sameJob, ← id]
    unfold rewound
    split <;> rfl
  · intro task state found
    rw [rebuilt.journal]
    obtain ⟨node, got, _⟩ := Option.map_eq_some_iff.mp found
    rw [states task (inPlan task node got)] at found
    cases last : lastState log task with
    | none =>
      rw [last] at found
      cases found
      exact fun before impossible => by cases impossible
    | some before =>
      rw [last] at found
      cases found
      rcases restored_cases before with ⟨kept, _⟩ | ⟨reset, unfinished⟩
      · simp only [Option.elim_some, kept]
        exact agrees_self before
      · simp only [Option.elim_some, reset]
        intro state same
        cases same
        exact unfinished
  · intro task node found promoted dependency depends
    have member := inPlan task node found
    have state : h.graph.stateOf task = some node.state := by simp [TaskGraph.stateOf, found]
    rw [states task member] at state
    cases last : lastState log task with
    | none =>
      rw [last] at state
      rw [← Option.some.inj state] at promoted
      cases promoted
    | some before =>
      rw [last, Option.elim_some] at state
      rw [← Option.some.inj state] at promoted
      rcases restored_cases before with ⟨kept, _⟩ | ⟨reset, _⟩
      · rw [kept] at promoted
        obtain ⟨rfl, planned, inside, blanks⟩ := shape.get_some found
        have sameId : planned.id = node.id := by simpa using congrArg TaskNode.id blanks
        have dependencies : planned.dependencies = node.dependencies := by
          simpa using congrArg TaskNode.dependencies blanks
        have done :=
          legal.dependencies_completed distinct (same.mem_iff.mp inside) (by rw [sameId]; exact last) promoted
          dependency (dependencies ▸ depends)
        rw [states dependency (legal.lastState_planned done), done]
        rfl
      · rw [reset] at promoted
        cases promoted
  · refine ⟨current.status, by rw [rebuilt.journal, lastStatus, planned]; rfl, ?_⟩
    rw [sameJob]
    unfold rewound
    cases finished : current.status.isFinished <;> simp [finished]
    rfl
  · rw [rebuilt.journal, rebuilt.results]
  · rw [rebuilt.journal, rebuilt.finalResult]

end Swarm.Recovery
