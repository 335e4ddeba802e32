import Swarm.Coordinator.Ledger
import Swarm.Platform.Refinement

namespace Swarm
open JobHandle Act

theorem CompletePoint.paid_some {point : CompletePoint} {response : CompletionResponse}
    (paid : point.paid = some response) : point = .served response := by
  cases point with
  | served other =>
    cases paid
    rfl
  | _ => cases paid

namespace Flight
variable {tools : TextTools} {flight : Flight}

/-- An execution brings a validated result of its own, for which a provider was paid. -/
def earns (flight : Flight) : Bool :=
  flight.outcome.accepted.any (fun result => !result.deduplicated) && flight.call.paid.isSome

/-- What was paid for an execution that brings nothing of its own. -/
def wasted (flight : Flight) : Spend := if flight.earns then 0 else flight.call.spend

/-- What an execution brings that nothing was paid for: a duplicate, or an answer from the cache. -/
def given (flight : Flight) : Spend := if flight.earns then 0 else flight.outcome.due

/-- What a provider is paid for an execution that earns it is what the job is to be billed for it. -/
theorem Sound.due (sound : flight.Sound tools) (earns : flight.earns = true) :
    flight.outcome.due = flight.call.spend := by
  simp only [Flight.earns, Bool.and_eq_true, Option.any_eq_true, Bool.not_eq_true'] at earns
  obtain ⟨⟨result, accepted, own⟩, paid⟩ := earns
  obtain ⟨response, served⟩ := Option.isSome_iff_exists.mp paid
  have here := outcome_returned (Outcome.accepted_some accepted).1
  have pays : flight.call.answer = some (.ok response) := by
    rw [CompletePoint.paid_some served]
    rfl
  rw [Outcome.due, CompletePoint.spend, accepted, served]
  rcases sound.inHand result (by rw [here]; rfl) with ⟨written, _, rfl⟩ | ⟨other, input, answered, rfl⟩
  · cases own
  · rw [pays] at answered
    cases answered
    rfl

/-- What is due for an execution is what was paid for it, but for what was wasted and what was given. -/
theorem Sound.evens (sound : flight.Sound tools) :
    flight.outcome.due + flight.wasted = flight.call.spend + flight.given := by
  unfold Flight.wasted Flight.given
  cases earns : flight.earns with
  | true => exact congrArg (· + 0) (sound.due earns)
  | false => exact add_comm _ _

end Flight

/-- What the providers were paid for the executions under way. -/
def aloft (flights : List Flight) : Spend := (flights.map (fun flight => flight.call.spend)).sum

theorem aloft_nil : aloft [] = 0 := rfl

theorem aloft_start (dispatches : List Dispatch) : aloft (dispatches.map Flight.start) = 0 := by
  unfold aloft
  refine List.sum_eq_zero ?_
  intro amount member
  simp only [List.map_map, List.mem_map] at member
  obtain ⟨dispatch, _, rfl⟩ := member
  rfl

namespace Platform
variable {config : CoordinatorConfig} {tools : TextTools} {toposort : DiGraph TaskId → Except Nat (List Nat)}
  {p : Platform} {jobId : JobId} {input : EngineInput} {run : JobRun}

/-- What was paid for and is lost at a step of an engine: with executions that bring nothing of their own,
or are dropped, or whose task has lost its lease. -/
def wasted (p : Platform) (jobId : JobId) (input : EngineInput) (run : JobRun) : Spend :=
  match run.pc with
  | .executing _ =>
    if input.outcomes.isSome then ((p.flightsOf jobId).map Flight.wasted).sum
    else if run.handle.control = .cancelled then aloft (p.flightsOf jobId) else 0
  | _ => Engine.forgone input run p.cluster.shared.queue

/-- What is to be billed at a step of an engine though nothing was paid for it. -/
def given (p : Platform) (jobId : JobId) (input : EngineInput) (run : JobRun) : Spend :=
  match run.pc with
  | .executing _ => if input.outcomes.isSome then ((p.flightsOf jobId).map Flight.given).sum else 0
  | _ => 0

/-- The outcomes of executions are to be billed at what was paid for them, but for waste and gifts. -/
theorem zip_due {dispatches : List Dispatch} {flights : List Flight}
    (manifest : flights.map Flight.dispatch = dispatches) (sound : ∀ flight ∈ flights, flight.Sound tools) :
    (Pc.applying (dispatches.zip (flights.map Flight.outcome))).due + (flights.map Flight.wasted).sum =
      aloft flights + (flights.map Flight.given).sum := by
  subst manifest
  rw [List.zip_map', Pc.due, aloft, List.map_map, ← List.sum_map_add, ← List.sum_map_add]
  exact congrArg List.sum (List.map_congr_left (fun flight member => (sound flight member).evens))

/-- A step of an engine moves what was paid for its executions to the bill of the job. -/
theorem step_balances (mans : run.pc.Mans tools (p.flightsOf jobId)) (sound : run.Sound) {run' : JobRun}
    {shared : Shared}
    (stepped : Engine.step config toposort (p.joined jobId input) run p.cluster.shared = (run', shared)) :
    run'.ledger + aloft (run.pc.manifest run'.pc (p.flightsOf jobId)) + p.wasted jobId input run =
      run.ledger + aloft (p.flightsOf jobId) + p.given jobId input run := by
  by_cases waits : ∃ dispatches, run.pc = .executing dispatches
  · obtain ⟨dispatches, here⟩ := waits
    have manifest := mans.manifest
    rw [here, Pc.awaited] at manifest
    have rests : run.ledger = run.handle.statistics.spend := by rw [JobRun.ledger, here]; exact add_zero _
    simp only [Platform.wasted, Platform.given, here]
    cases known : input.outcomes with
    | some outcomes =>
      simp only [Engine.step, here, joined, known, Option.map_some] at stepped
      cases stepped
      obtain ⟨empty, _⟩ :=
        run.pc.manifest_landed (.applying (dispatches.zip ((p.flightsOf jobId).map Flight.outcome)))
        (by simp) (p.flightsOf jobId)
      rw [here] at empty
      simp only [Option.isSome_some, if_true]
      rw [empty, rests, JobRun.ledger]
      simp only [aloft_nil, add_zero, add_assoc]
      rw [zip_due manifest mans.sound]
    | none =>
      simp only [Engine.step, here, joined, known, Option.map_none] at stepped
      simp only [Option.isSome_none, Bool.false_eq_true, if_false]
      split at stepped
      · rename_i cancelled
        cases stepped
        obtain ⟨empty, _⟩ := run.pc.manifest_landed .cancelling (by simp) (p.flightsOf jobId)
        rw [here] at empty
        rw [if_pos cancelled, empty, rests, JobRun.ledger]
        simp only [aloft_nil, Pc.due, add_zero]
      · rename_i running
        cases stepped
        rw [if_neg running, here]
        rfl
  · have grounded : ∀ dispatches, run.pc ≠ .executing dispatches := fun dispatches here => waits ⟨dispatches, here⟩
    have billed := Engine.step_ledger config toposort (p.joined jobId input) p.cluster.shared sound grounded
    rw [stepped] at billed
    have plain : p.wasted jobId input run = Engine.forgone (p.joined jobId input) run p.cluster.shared.queue ∧
        p.given jobId input run = 0 := by
      unfold Platform.wasted Platform.given
      cases here : run.pc with
      | executing dispatches => exact absurd here (grounded dispatches)
      | _ => exact ⟨rfl, rfl⟩
    rw [Pc.manifest_fresh grounded, aloft_start, mans.grounded grounded, plain.1, plain.2, aloft_nil]
    simp only [add_zero]
    exact billed

end Platform

end Swarm
