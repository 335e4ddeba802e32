import Mathlib.Algebra.Order.BigOperators.Group.List
import Mathlib.Algebra.Order.Group.Nat
import Swarm.Coordinator.Charges

namespace Swarm
open Recovery JobHandle

namespace Cluster
variable {config : CoordinatorConfig} {tools : TextTools} {toposort : DiGraph TaskId → Except Nat (List Nat)}

/-- The agents in the pools of all jobs. -/
def employed (c : Cluster) : Nat := (c.jobs.values.map JobRun.staff).sum

/-- What all jobs have claimed of the cluster. -/
def claimed (c : Cluster) : Nat := (c.jobs.values.map (fun run => run.staff + run.pc.claim)).sum

/-- The count is at least what is claimed, and the cluster is not overbooked. -/
structure Booked (config : CoordinatorConfig) (c : Cluster) : Prop where
  counted : c.claimed ≤ c.shared.clusterAgents
  within : c.employed ≤ config.maxClusterAgents

/-- An engine that scales up finds that no other job has taken the room since it looked, and the
count of agents stays within its 64 bits. -/
def Roomy (config : CoordinatorConfig) (c : Cluster) (event : Event) : Prop :=
  ∀ jobId input run, event = .engine jobId input → c.jobs.get? jobId = some run →
    c.shared.clusterAgents + max 1 run.handle.job.request.maxAgents < 2 ^ 64 ∧
    ∀ agentType promoted depth, run.pc = .growing agentType promoted depth →
      c.shared.clusterAgents < config.maxClusterAgents

theorem employed_le_claimed (c : Cluster) : c.employed ≤ c.claimed :=
  List.sum_le_sum (fun _ _ => Nat.le_add_right _ _)

theorem claim_le_claimed {c : Cluster} {jobId : JobId} {run : JobRun} (found : c.jobs.get? jobId = some run) :
    run.staff + run.pc.claim ≤ c.claimed := by
  have member : run ∈ c.jobs.values := Dict.mem_values.mpr ⟨jobId, Dict.get?_eq_some.mp found⟩
  exact List.single_le_sum (fun _ _ => Nat.zero_le _) _ (List.mem_map_of_mem member)

/-- A job whose engine has charged the cluster takes the place of the job. -/
theorem Booked.charge {c : Cluster} (booked : c.Booked config) {jobId : JobId} {run run' : JobRun} {shared' : Shared}
    (found : c.jobs.get? jobId = some run) (charges : Charges config run c.shared run' shared') :
    Booked config ⟨c.jobs.insert jobId run', shared'⟩ := by
  have claims := Dict.sum_insert found run' (fun run => run.staff + run.pc.claim)
  have pools := Dict.sum_insert found run' JobRun.staff
  have owned := claim_le_claimed found
  obtain ⟨counted, within⟩ := booked
  have covered : claimed ⟨c.jobs.insert jobId run', shared'⟩ ≤ shared'.clusterAgents := by
    have added := charges.counted
    simp only [claimed] at claims owned counted ⊢
    omega
  refine ⟨covered, ?_⟩
  rcases charges.within with fewer | room
  · simp only [employed] at within ⊢
    omega
  · exact Nat.le_trans (employed_le_claimed _) (Nat.le_trans covered room)

theorem Booked.steered {c c' : Cluster} {jobId : JobId} (booked : c.Booked config) (steered : Steered c c' jobId) :
    c'.Booked config := by
  rcases steered with rfl | ⟨run, h, found, steers, rfl⟩
  · exact booked
  · have same : ({ run with handle := h } : JobRun).staff = run.staff := by
      simp only [JobRun.staff, steers.job, steers.agents]
    refine booked.charge found ⟨?_, Or.inl (Nat.le_of_eq same)⟩
    rw [same]
    exact Nat.le_of_eq (Nat.add_comm _ _)

theorem build_agents {journal : List JournalRecord} {state : Recovering} {h : JobHandle}
    (built : build toposort journal state = .ok h) : h.agents = [] := by
  unfold build at built
  split at built
  · cases built
  · simp only [bind, Except.bind] at built
    split at built
    · cases built
    · split at built
      · cases built
      · cases built
        rfl

/-- A new process has no agents. -/
theorem booked_restart (config : CoordinatorConfig) (journal : List JournalRecord) :
    (restart toposort journal).Booked config := by
  have unstaffed : ∀ run ∈ (restart toposort journal).jobs.values, run.staff = 0 ∧ run.pc.claim = 0 := by
    intro run member
    obtain ⟨jobId, present⟩ := Dict.mem_values.mp member
    obtain ⟨_, h, rebuilt, rfl⟩ := restart_get? (Dict.get?_eq_some.mpr present)
    obtain ⟨state, _, built⟩ := Option.map_eq_some_iff.mp rebuilt
    have empty := JobRun.staff_le (.new h)
    have none : h.agents = [] := build_agents built
    refine ⟨Nat.le_zero.mp ?_, rfl⟩
    change (JobRun.new h).staff ≤ h.agents.length at empty
    rwa [none] at empty
  have nothing : (restart toposort journal).claimed = 0 := by
    refine List.sum_eq_zero ?_
    intro amount listed
    obtain ⟨run, member, rfl⟩ := List.mem_map.mp listed
    obtain ⟨staff, claim⟩ := unstaffed run member
    rw [staff, claim, Nat.add_zero]
  refine ⟨by rw [nothing]; exact Nat.zero_le _, ?_⟩
  have less := employed_le_claimed (restart toposort journal)
  rw [nothing] at less
  exact Nat.le_trans less (Nat.zero_le _)

theorem booked_new (config : CoordinatorConfig) : new.Booked config := ⟨Nat.zero_le _, Nat.zero_le _⟩

/-- Whatever happens, as long as a job that scales up has the room, the books stay in order. -/
theorem Booked.apply (sound : c.Sound) {event : Event} (possible : c.Possible config tools toposort event)
    (roomy : Roomy config c event) (booked : c.Booked config) :
    (c.apply config tools toposort event).Booked config := by
  cases event with
  | submit submission nodes =>
    simp only [Cluster.apply, submit]
    split
    · exact booked
    · rename_i job graph planned
      obtain ⟨fresh, _, _⟩ := possible
      obtain ⟨id, _, _⟩ := submission.plan_ok planned
      rw [← id] at fresh
      let run : JobRun := .new (.planned job { graph with nodes := nodes })
      have empty : run.staff = 0 := Nat.le_zero.mp run.staff_le
      have claims := Dict.sum_insert_absent fresh run (fun run => run.staff + run.pc.claim)
      have pools := Dict.sum_insert_absent fresh run JobRun.staff
      obtain ⟨counted, within⟩ := booked
      refine ⟨?_, ?_⟩
      · unfold claimed at counted ⊢
        rw [claims, empty]
        exact counted
      · unfold employed at within ⊢
        rw [pools, empty]
        exact within
  | engine jobId input =>
    simp only [Cluster.apply, engine]
    cases found : c.jobs.get? jobId with
    | none => exact booked
    | some run =>
      obtain ⟨fits, room⟩ := roomy jobId input run rfl found
      have owned := Nat.le_trans (claim_le_claimed found) booked.counted
      exact booked.charge found (Engine.step_charges (sound.engines jobId run found) fits owned room)
  | pause jobId => exact booked.steered (apply_steered possible (Or.inl rfl))
  | resume jobId => exact booked.steered (apply_steered possible (Or.inr (Or.inl rfl)))
  | cancel jobId => exact booked.steered (apply_steered possible (Or.inr (Or.inr (Or.inl rfl))))
  | purge jobId => exact ⟨booked.counted, booked.within⟩
  | rehash jobId nodes => exact booked.steered (apply_steered possible (Or.inr (Or.inr (Or.inr ⟨nodes, rfl⟩))))
  | rehashLeases leases => exact ⟨booked.counted, booked.within⟩
  | restart journal => exact booked_restart config journal

theorem Redelivers.books_agents (sorts : Sorts toposort) {c : Cluster}
    (runs : Redelivers config tools toposort (Roomy config) new c) : c.Booked config := by
  induction runs with
  | start => exact booked_new config
  | next runs possible roomy ih => exact ih.apply (runs.sound sorts sound_new) possible roomy
  | redeliver _ _ ih => exact ⟨ih.counted, ih.within⟩

/-- The pools of all jobs together stay within the cluster as long as no scale-up comes too late. -/
theorem Redelivers.ceiling (sorts : Sorts toposort) {c : Cluster}
    (runs : Redelivers config tools toposort (Roomy config) new c) : c.employed ≤ config.maxClusterAgents :=
  (runs.books_agents sorts).within

end Cluster

/-- A small cluster, with a job that fills the queue and two that may grow by one agent. -/
def crowdedConfig : CoordinatorConfig := { sampleConfig with maxClusterAgents := 10 }

def crowdedSubmission (jobId maxAgents : Nat) (strategy : ExecutionStrategy) : Submission where
  request := { JobRequest.new "do it" with maxAgents := maxAgents, executionStrategy := strategy }
  jobId := ⟨jobId⟩
  correlationId := ⟨0⟩
  taskIds k := ⟨100 * jobId + k⟩
  now := 0

def crowdedInput (now : Nat) : EngineInput := { plainInput now with agentIds := fun k => ⟨100 * now + k⟩ }

namespace Cluster

/-- The tasks of a plan for the small cluster. -/
def seats (submission : Submission) : Dict TaskId TaskNode :=
  match submission.plan crowdedConfig sampleReader DiGraph.sort with
  | .ok plan => plan.2.nodes
  | .error _ => .empty

def seated (c : Cluster) (submission : Submission) : Cluster :=
  c.submit crowdedConfig sampleReader DiGraph.sort submission (seats submission)

/-- The engines of jobs take steps, each turn naming the job and the time. -/
def turns (c : Cluster) (schedule : List (Nat × Nat)) : Cluster :=
  schedule.foldl (fun c turn => c.engine crowdedConfig DiGraph.sort ⟨turn.1⟩ (crowdedInput turn.2)) c

/-- A test that holds before every turn. -/
def allows (check : Cluster → JobId → Bool) : Cluster → List (Nat × Nat) → Bool
  | _, [] => true
  | c, turn :: rest => check c ⟨turn.1⟩ && (c.turns [turn]).allows check rest

theorem runs_turns {kind : Cluster → Event → Prop} (check : Cluster → JobId → Bool)
    (allowed : ∀ c jobId input, check c jobId = true → kind c (.engine jobId input)) {c : Cluster}
    (runs : Runs crowdedConfig sampleReader DiGraph.sort kind new c) (schedule : List (Nat × Nat))
    (checked : c.allows check schedule = true) :
    Runs crowdedConfig sampleReader DiGraph.sort kind new (c.turns schedule) := by
  induction schedule generalizing c with
  | nil => exact runs
  | cons turn rest ih =>
    simp only [allows, Bool.and_eq_true] at checked
    have step : Runs crowdedConfig sampleReader DiGraph.sort kind new
        (c.apply crowdedConfig sampleReader DiGraph.sort (.engine ⟨turn.1⟩ (crowdedInput turn.2))) :=
      .next runs (fun _ _ _ _ _ answered => by cases answered) (allowed c _ _ checked.1)
    exact ih step checked.2

/-- The job and the tasks of a submission are new. -/
def admits (c : Cluster) (jobId : Nat) : Bool :=
  (c.jobs.get? ⟨jobId⟩).isNone &&
    c.jobs.values.all (fun run => run.handle.graph.nodes.keys.all (fun task => task.uuid < 100 * jobId))

theorem runs_seated {kind : Cluster → Event → Prop}
    (submits : ∀ c submission nodes, kind c (.submit submission nodes)) {c : Cluster}
    (runs : Runs crowdedConfig sampleReader DiGraph.sort kind new c) {jobId : Nat}
    (admitted : c.admits jobId = true) (maxAgents : Nat) (strategy : ExecutionStrategy) :
    Runs crowdedConfig sampleReader DiGraph.sort kind new
      (c.seated (crowdedSubmission jobId maxAgents strategy)) := by
  simp only [admits, Bool.and_eq_true, Option.isNone_iff_eq_none, List.all_eq_true, decide_eq_true_eq] at admitted
  obtain ⟨fresh, below⟩ := admitted
  have possible : c.Possible crowdedConfig sampleReader DiGraph.sort
      (.submit (crowdedSubmission jobId maxAgents strategy)
        (seats (crowdedSubmission jobId maxAgents strategy))) := by
    refine ⟨fresh, ?_, ?_⟩
    · intro other run k found
      cases known : run.handle.graph.get ((crowdedSubmission jobId maxAgents strategy).taskIds k) with
      | none => rfl
      | some node =>
        have present : (⟨100 * jobId + k⟩ : TaskId) ∈ run.handle.graph.nodes.keys :=
          Dict.mem_keys.mpr ⟨node, Dict.get?_eq_some.mp known⟩
        have small := below run (Dict.mem_values.mpr ⟨other, Dict.get?_eq_some.mp found⟩) _ present
        simp only at small
        omega
    · intro job graph planned
      unfold seats
      rw [planned]
      exact List.Perm.refl _
  exact .next runs possible (submits _ _ _)

def openedFirst : Cluster := new.seated (crowdedSubmission 1 4 .adaptive)

def openedSecond : Cluster := openedFirst.seated (crowdedSubmission 2 4 .adaptive)

def opened : Cluster := openedSecond.seated (crowdedSubmission 3 3 .consensus)

theorem runs_opened {kind : Cluster → Event → Prop}
    (submits : ∀ c submission nodes, kind c (.submit submission nodes)) :
    Runs crowdedConfig sampleReader DiGraph.sort kind new opened := by
  have admitted : new.admits 1 = true ∧ openedFirst.admits 2 = true ∧
    openedSecond.admits 3 = true := by decide +kernel
  obtain ⟨first, second, third⟩ := admitted
  exact runs_seated submits (runs_seated submits (runs_seated submits .start first 4 .adaptive) second 4 .adaptive)
    third 3 .consensus

/-- The third job queues its tasks; then the other two look for room, both of them before either has grown. -/
def rush : List (Nat × Nat) :=
  [(3, 1), (3, 2), (3, 3), (3, 4), (3, 5), (1, 6), (1, 7), (1, 8), (1, 9), (1, 10), (1, 11),
    (2, 12), (2, 13), (2, 14), (2, 15), (2, 16), (2, 17)]

/-- Two jobs have seen the last free place, and each of them takes it. -/
theorem overbooked : Reach crowdedConfig sampleReader DiGraph.sort (opened.turns (rush ++ [(1, 18), (2, 19)])) ∧
    (opened.turns (rush ++ [(1, 18), (2, 19)])).employed = 11 ∧ crowdedConfig.maxClusterAgents = 10 := by
  have full : (opened.turns (rush ++ [(1, 18), (2, 19)])).employed = 11 ∧
      opened.allows (fun _ _ => true) (rush ++ [(1, 18), (2, 19)]) = true := by decide +kernel
  exact ⟨runs_turns (fun _ _ => true) (fun _ _ _ _ => trivial) (runs_opened (fun _ _ _ => trivial)) _ full.2,
    full.1, rfl⟩

/-- `Roomy` as a test. -/
def hasRoom (c : Cluster) (jobId : JobId) : Bool :=
  (c.jobs.get? jobId).all (fun run =>
    decide (c.shared.clusterAgents + max 1 run.handle.job.request.maxAgents < 2 ^ 64) &&
    match run.pc with
    | .growing _ _ _ => decide (c.shared.clusterAgents < crowdedConfig.maxClusterAgents)
    | _ => true)

theorem roomy_of_hasRoom {c : Cluster} {jobId : JobId} {input : EngineInput} (checked : c.hasRoom jobId = true) :
    Roomy crowdedConfig c (.engine jobId input) := by
  rintro _ _ run ⟨⟩ found
  simp only [hasRoom, found, Option.all_some, Bool.and_eq_true, decide_eq_true_eq] at checked
  refine ⟨checked.1, ?_⟩
  intro agentType promoted depth here
  have room := checked.2
  rw [here] at room
  exact of_decide_eq_true room

/-- With one of the two jobs the last place is taken once. -/
theorem ceiling_reached : (opened.turns (rush ++ [(1, 18)])).employed ≤ crowdedConfig.maxClusterAgents ∧
    (opened.turns (rush ++ [(1, 18)])).employed = 10 := by
  have full : (opened.turns (rush ++ [(1, 18)])).employed = 10 ∧
      opened.allows hasRoom (rush ++ [(1, 18)]) = true := by decide +kernel
  have launched : Runs crowdedConfig sampleReader DiGraph.sort (Roomy crowdedConfig) new opened :=
    runs_opened (fun _ _ _ _ _ _ same => by cases same)
  have runs := runs_turns hasRoom (fun _ _ _ => roomy_of_hasRoom) launched _ full.2
  exact ⟨runs.redelivers.ceiling sample_sorts, full.1⟩

end Cluster

end Swarm
