import Swarm.Platform.Balance

namespace Swarm
open JobHandle Act Recovery

/-- No attempt of the job is under way or to be settled. -/
def Pc.isSettled : Pc → Bool
  | .executing _ | .applying _ => false
  | _ => true

namespace Platform
variable {config : CoordinatorConfig} {tools : TextTools} {toposort : DiGraph TaskId → Except Nat (List Nat)}
  {limits : GatewayConfig} {providers : List Provider} {p : Platform}

/-- What was paid for all executions under way. -/
def airborne (p : Platform) : Spend := (p.flights.values.map aloft).sum

/-- What the jobs have been billed for, as their statistics have it. -/
def billed (p : Platform) : Spend := (p.cluster.jobs.values.map (fun run => run.handle.statistics.spend)).sum

/-- What an activity wastes of what was paid for. -/
def waste (p : Platform) : Activity → Spend
  | .cluster (.engine jobId input) => (p.cluster.jobs.get? jobId).elim 0 (p.wasted jobId input)
  | _ => 0

/-- What an activity puts on a bill that nothing was paid for. -/
def gift (p : Platform) : Activity → Spend
  | .cluster (.engine jobId input) => (p.cluster.jobs.get? jobId).elim 0 (p.given jobId input)
  | _ => 0

/-- The process goes on. -/
def Alive : Activity → Prop
  | .cluster (.restart _) => False
  | _ => True

/-- The runs of one lifetime, with all that was wasted in them and all that was given. -/
inductive Audited (config : CoordinatorConfig) (tools : TextTools) (toposort : DiGraph TaskId → Except Nat (List Nat))
    (limits : GatewayConfig) (providers : List Provider) : Platform → Spend → Spend → Prop
  | start : Audited config tools toposort limits providers (new limits providers) 0 0
  | next {p : Platform} {activity : Activity} {wasted given : Spend} :
      Audited config tools toposort limits providers p wasted given → p.Possible config tools toposort activity →
      Alive activity → Audited config tools toposort limits providers (p.apply config tools toposort activity)
        (wasted + p.waste activity) (given + p.gift activity)

theorem Audited.reach {wasted given : Spend}
    (audited : Audited config tools toposort limits providers p wasted given) :
    Reach config tools toposort limits providers p := by
  induction audited with
  | start => exact .start
  | next _ possible _ ih => exact .next ih possible trivial

/-- A job's executions are replaced. -/
theorem airborne_insert (p : Platform) (cluster : Cluster) (store : InMemoryStore MemoryValue)
    (gateway : Gateway UInt64) (jobId : JobId) (flights : List Flight) :
    (Platform.airborne ⟨cluster, store, gateway, p.flights.insert jobId flights⟩) + aloft (p.flightsOf jobId) =
      p.airborne + aloft flights := by
  have parts := p.flights.sum_put jobId flights aloft
  have before : aloft (p.flightsOf jobId) = (p.flights.get? jobId).elim 0 aloft := by
    unfold flightsOf
    cases p.flights.get? jobId <;> rfl
  rw [before]
  exact parts

/-- What the gateway has billed and what was given are what the jobs are billed for, what was
paid for executions under way, and what was wasted. -/
def Balanced (p : Platform) (wasted given : Spend) : Prop :=
  p.gateway.usage.spend + given = p.cluster.ledgers + p.airborne + wasted

theorem balanced_new (limits : GatewayConfig) (providers : List Provider) : (new limits providers).Balanced 0 0 := by
  have usage := (Gateway.fresh_withProviders (κ := UInt64) limits providers).usage
  change (Gateway.withProviders limits providers : Gateway UInt64).usage.spend + 0 = 0 + 0 + 0
  rw [usage, add_zero, add_zero, add_zero]
  rfl

theorem Balanced.engine {wasted given : Spend} (balanced : p.Balanced wasted given)
    (sound : p.Sound tools) (jobId : JobId) (input : EngineInput) : (p.engine config toposort jobId input).Balanced
      (wasted + p.waste (.cluster (.engine jobId input))) (given + p.gift (.cluster (.engine jobId input))) := by
  unfold Platform.engine
  simp only [waste, gift]
  cases found : p.cluster.jobs.get? jobId with
  | none =>
    simp only [Option.elim_none, add_zero]
    exact balanced
  | some run =>
    simp only [Option.elim_some]
    generalize stepped : Engine.step config toposort (p.joined jobId input) run p.cluster.shared = next
    obtain ⟨run', shared⟩ := next
    have moved := step_balances (sound.grounds found) (sound.cluster.engines jobId run found) stepped
    have ledgers := p.cluster.ledgers_insert jobId run' shared
    rw [found, Option.elim_some] at ledgers
    have planes := p.airborne_insert ⟨p.cluster.jobs.insert jobId run', shared⟩ p.store p.gateway jobId
      (run.pc.manifest run'.pc (p.flightsOf jobId))
    have total := Vec.sum_transfer ledgers planes moved
    unfold Balanced at balanced ⊢
    rw [← add_assoc, balanced, add_right_comm, ← total, add_right_comm, add_assoc]

/-- What the gateway bills for an execution is what is paid for those under way. -/
theorem Balanced.execute {wasted given : Spend} (balanced : p.Balanced wasted given) (sound : p.Sound tools)
    (jobId : JobId) (index clock : Nat) (input : StepInput) :
    (p.execute tools jobId index clock input).Balanced wasted given := by
  unfold Platform.execute
  cases here : (p.flightsOf jobId)[index]? with
  | none => exact balanced
  | some flight =>
    have member := List.mem_of_getElem? here
    obtain ⟨_, _, _, paid⟩ :=
      Flight.advance_sound ((sound.mans jobId).sound flight member) sound.store p.gateway clock input
    simp only
    generalize flight.advance tools p.store p.gateway clock input = next at paid ⊢
    obtain ⟨flight', store, gateway⟩ := next
    have flights : aloft ((p.flightsOf jobId).set index flight') + flight.call.spend =
        aloft (p.flightsOf jobId) + flight'.call.spend := Vec.sum_set here flight' (fun flight => flight.call.spend)
    have planes := p.airborne_insert p.cluster store gateway jobId ((p.flightsOf jobId).set index flight')
    unfold Balanced at balanced ⊢
    simp only at paid planes ⊢
    refine add_right_cancel (b := flight.call.spend + aloft (p.flightsOf jobId)) ?_
    calc gateway.usage.spend + given + (flight.call.spend + aloft (p.flightsOf jobId))
        = gateway.usage.spend + flight.call.spend + given + aloft (p.flightsOf jobId) := by abel
      _ = p.gateway.usage.spend + given + (aloft (p.flightsOf jobId) + flight'.call.spend) := by rw [paid]; abel
      _ = p.cluster.ledgers + p.airborne + wasted +
          (aloft ((p.flightsOf jobId).set index flight') + flight.call.spend) := by rw [balanced, flights]
      _ = p.cluster.ledgers + (p.airborne + aloft ((p.flightsOf jobId).set index flight')) + wasted +
          flight.call.spend := by abel
      _ = _ := by rw [← planes]; abel

theorem Balanced.apply {wasted given : Spend} (balanced : p.Balanced wasted given) (sound : p.Sound tools)
    {activity : Activity} (possible : p.Possible config tools toposort activity) (alive : Alive activity) :
    (p.apply config tools toposort activity).Balanced (wasted + p.waste activity) (given + p.gift activity) := by
  have quiet : ∀ event, (∀ jobId input, event ≠ .engine jobId input) → (∀ journal, event ≠ .restart journal) →
      p.cluster.Possible config tools toposort event →
      Balanced { p with cluster := p.cluster.apply config tools toposort event } (wasted + 0) (given + 0) := by
    intro event still live may
    have same := (Cluster.apply_undisturbed may still live).ledgers
    simp only [add_zero]
    unfold Balanced at balanced ⊢
    rw [same]
    exact balanced
  cases activity with
  | execute jobId index clock input =>
    simp only [waste, gift, add_zero]
    exact balanced.execute sound jobId index clock input
  | cluster event =>
    cases event with
    | engine jobId input => exact balanced.engine sound jobId input
    | restart journal => exact alive.elim
    | submit submission nodes =>
        exact quiet _ (fun _ _ absurd => by cases absurd) (fun _ absurd => by cases absurd) possible.1
    | _ => exact quiet _ (fun _ _ absurd => by cases absurd) (fun _ absurd => by cases absurd) possible

/-- Every cent is accounted for at every moment of a lifetime. -/
theorem Audited.balanced (sorts : Sorts toposort) {wasted given : Spend}
    (audited : Audited config tools toposort limits providers p wasted given) : p.Balanced wasted given := by
  induction audited with
  | start => exact balanced_new limits providers
  | next audited possible alive ih =>
    exact ih.apply (audited.reach.sound sorts (sound_new limits providers)) possible alive

theorem Runs.audited (runs : Runs config tools toposort (fun _ activity => Alive activity) (new limits providers) p) :
    ∃ wasted given, Audited config tools toposort limits providers p wasted given := by
  induction runs with
  | start => exact ⟨0, 0, .start⟩
  | next _ possible alive ih =>
    obtain ⟨wasted, given, audited⟩ := ih
    exact ⟨_, _, .next audited possible alive⟩

theorem sample_audited (steps : List Activity) (plain : ∀ activity ∈ steps, activity.isStep = true) :
    ∃ wasted given, Audited sampleConfig sampleReader DiGraph.sort {} [sampleProvider]
      (opened.perform steps) wasted given := by
  refine Runs.audited (runs_perform (runs_opened trivial) steps plain ?_)
  intro _ activity step
  unfold Activity.isStep at step
  split at step
  · trivial
  · trivial
  · cases step

/-- The execution of the first task of the sample has been paid for. -/
theorem balanced_sample : ∃ wasted given, (opened.perform takeoff).Balanced wasted given ∧
    (opened.perform takeoff).airborne = (3, 4, 0) := by
  obtain ⟨wasted, given, audited⟩ := sample_audited takeoff (by decide)
  exact ⟨wasted, given, audited.balanced Cluster.sample_sorts, by decide +kernel⟩

/-- Once no attempt is under way, jobs and gateway agree on what was spent exactly if as much was
wasted as was given. -/
theorem Audited.ledgers_meet_iff (sorts : Sorts toposort) {wasted given : Spend}
    (audited : Audited config tools toposort limits providers p wasted given)
    (settled : ∀ jobId, (p.cluster.pcOf jobId).isSettled = true) :
    p.gateway.usage.spend + given = p.billed + wasted ∧ (p.gateway.usage.spend = p.billed ↔ wasted = given) := by
  have sound := audited.reach.sound sorts (sound_new limits providers)
  have due : p.cluster.ledgers = p.billed := by
    refine congrArg List.sum (List.map_congr_left ?_)
    intro run member
    obtain ⟨jobId, present⟩ := Dict.mem_values.mp member
    have rests := settled jobId
    rw [Cluster.pcOf, Dict.get?_eq_some.mpr present] at rests
    rw [JobRun.ledger,
      Pc.due_of_ne (fun todo here => by rw [Option.map_some, Option.getD_some, here] at rests; cases rests)]
    exact add_zero _
  have empty : p.airborne = 0 := by
    refine List.sum_eq_zero ?_
    intro amount member
    obtain ⟨flights, inside, rfl⟩ := List.mem_map.mp member
    obtain ⟨jobId, present⟩ := Dict.mem_values.mp inside
    have none : p.flightsOf jobId = [] := by
      refine (sound.mans jobId).grounded ?_
      intro dispatches here
      have rests := settled jobId
      rw [here] at rests
      cases rests
    rw [flightsOf, Dict.get?_eq_some.mpr present, Option.getD_some] at none
    rw [none]
    rfl
  have total := audited.balanced sorts
  rw [Balanced, due, empty, add_zero] at total
  refine ⟨total, ?_⟩
  constructor
  · intro agree
    rw [agree] at total
    exact (add_left_cancel total).symm
  · rintro rfl
    exact add_right_cancel total

/-- The first task of the sample is settled, and the next one not started. -/
theorem ledgers_meet_iff_sample : ∃ wasted given, (opened.perform (takeoff ++ landing)).gateway.usage.spend + given =
      (opened.perform (takeoff ++ landing)).billed + wasted ∧
    (opened.perform (takeoff ++ landing)).billed = (3, 4, 0) := by
  obtain ⟨wasted, given, audited⟩ := sample_audited (takeoff ++ landing) (by decide)
  refine ⟨wasted, given, (audited.ledgers_meet_iff Cluster.sample_sorts ?_).1, by decide +kernel⟩
  have ends : (opened.perform (takeoff ++ landing)).cluster.jobs.values.all (fun run => run.pc.isSettled) = true := by
    decide +kernel
  intro jobId
  unfold Cluster.pcOf
  cases found : (opened.perform (takeoff ++ landing)).cluster.jobs.get? jobId with
  | none => rfl
  | some run => exact List.all_eq_true.mp ends run (Dict.mem_values.mpr ⟨jobId, Dict.get?_eq_some.mp found⟩)

end Platform

end Swarm
