import Swarm.Agent.EffectivelyOnce

namespace Swarm

/-- The result an execution has in hand. -/
def ExecutePoint.inHand : ExecutePoint → Option TaskResult
  | .publish result | .reread result | .completed result | .returned (.ok result) => some result
  | _ => none

/-- A result that is about this task of this job. -/
def TaskResult.About (result : TaskResult) (jobId : JobId) (taskId : TaskId) : Prop :=
  result.taskId = taskId ∧ result.jobId = jobId

namespace Fleet
variable {jobId : JobId} {taskId : TaskId} {f : Fleet} {index : Nat} {d : Delivery}

/-- Every result in the fleet is about its task. -/
structure Own (jobId : JobId) (taskId : TaskId) (f : Fleet) : Prop where
  published : ∀ result ∈ f.published, result.About jobId taskId
  inHand : ∀ d ∈ f.deliveries, ∀ result, d.execution.point.inHand = some result → result.About jobId taskId

/-- What an execution has in hand after a step it built itself, had before or found published. -/
theorem Sound.inHand_step (tools : TextTools) (sound : f.Sound jobId taskId) (own : f.Own jobId taskId)
    (here : f.deliveries[index]? = some d) (input : StepInput) {result : TaskResult}
    (holds : (d.execution.step tools f.store input).2.inHand = some result) : result.About jobId taskId := by
  have inside := List.mem_of_getElem? here
  have before := own.inHand d inside
  have found : ∀ winner, f.published = [winner] → ({ winner with deduplicated := true }).About jobId taskId :=
    fun winner published => own.published winner (by simp [published])
  unfold Execution.step at holds
  cases stands : d.execution.point with
  | lookup =>
    rcases sound.storedResult here input.now with ⟨_, run⟩ | ⟨winner, published, _, run⟩ <;>
      simp only [stands, run, ExecutePoint.inHand] at holds
    · cases holds
    · cases holds
      exact found winner published
  | claimAttempt =>
    simp only [stands] at holds
    split at holds <;> cases holds
  | recheck =>
    rcases sound.storedResult here input.now with ⟨_, run⟩ | ⟨winner, published, _, run⟩ <;>
      simp only [stands, run, ExecutePoint.inHand] at holds
    · cases holds
    · cases holds
      exact found winner published
  | started =>
    simp only [stands] at holds
    cases holds
  | call =>
    simp only [stands] at holds
    split at holds <;> cases holds
  | responded response =>
    have built : (d.execution.buildResult tools response input).About jobId taskId := sound.fits d inside
    simp only [stands] at holds
    split at holds <;> cases holds <;> exact built
  | publish kept =>
    have mine := before kept (by rw [stands]; rfl)
    simp only [stands] at holds
    split at holds <;> cases holds <;> exact mine
  | reread kept =>
    have mine := before kept (by rw [stands]; rfl)
    rcases sound.storedResult here input.now with ⟨_, run⟩ | ⟨winner, published, _, run⟩ <;>
      simp only [stands, run, ExecutePoint.inHand] at holds
    · cases holds
      exact mine
    · cases holds
      exact found winner published
  | completed kept =>
    have mine := before kept (by rw [stands]; rfl)
    simp only [stands] at holds
    cases holds
    exact mine
  | returned answer =>
    simp only [stands] at holds
    exact before result (by rw [stands]; exact holds)

theorem Own.advance (tools : TextTools) (own : f.Own jobId taskId) (sound : f.Sound jobId taskId)
    (here : f.deliveries[index]? = some d) (input : StepInput) :
    (f.advance tools index d input).Own jobId taskId where
  published result member := by
    unfold Fleet.advance at member
    simp only at member
    split at member
    · rename_i kept _ stands _
      rcases List.mem_append.mp member with old | new
      · exact own.published result old
      · rw [List.mem_singleton.mp new]
        exact own.inHand d (List.mem_of_getElem? here) kept (by rw [stands]; rfl)
    · exact own.published result member
  inHand other member result holds := by
    rcases mem_set_cases member with rfl | old
    · exact sound.inHand_step tools own here input holds
    · exact own.inHand other old result holds

theorem Reach.own {tools : TextTools} (reach : Reach tools jobId taskId f) : f.Own jobId taskId := by
  induction reach with
  | start => exact ⟨by simp [new], by simp [new]⟩
  | deliver _ _ _ ih =>
    refine ⟨ih.published, ?_⟩
    intro other member result holds
    rcases List.mem_append.mp member with old | fresh
    · exact ih.inHand other old result holds
    · rw [List.mem_singleton.mp fresh] at holds
      cases holds
  | advance reach here ih => exact ih.advance tools reach.sound here _

/-- An agent answers about the task it was given. -/
theorem Reach.answer_about {tools : TextTools} (reach : Reach tools jobId taskId f) (member : d ∈ f.deliveries)
    {result : TaskResult} (answered : d.execution.point = .returned (.ok result)) : result.About jobId taskId :=
  reach.own.inHand d member result (by rw [answered]; rfl)

end Fleet

end Swarm
