import Swarm.Coordinator.Log

namespace Swarm.Recovery

/-- The log does not end in the record of a final status. -/
def Concluded (log : List JournalRecord) : Prop :=
  ∀ jobId status reason time, log.getLast? = some (JournalRecord.jobStatusChanged jobId status reason time) →
    status.isFinished = false

/-- Every completion in the log is immediately followed by its result. -/
def Paired (log : List JournalRecord) : Prop :=
  ∀ i jobId transition task attempt,
    log[i]? = some (JournalRecord.taskTransitioned jobId transition task attempt) → transition.target = .completed →
      ∃ jobId' result, log[i + 1]? = some (JournalRecord.taskCompleted jobId' result) ∧ result.taskId = task

/-- A finished job has its final result. -/
def HasFinal (log : List JournalRecord) : Prop :=
  ∀ status, lastStatus log = some status → status.isFinished = true → (replay log).finalResult ≠ none

theorem Legal.silent {job : Job} {tasks : List TaskNode} {log : List JournalRecord} (legal : Legal job tasks log)
    (isOpen : Open log) : (replay log).finalResult = none := by
  by_contra present
  obtain ⟨status, found, finished⟩ := legal.finished_of_finalResult present
  rw [isOpen status found] at finished
  cases finished

theorem Open.hasFinal {log : List JournalRecord} {record : JournalRecord} (isOpen : Open log)
    (same : lastStatus (log ++ [record]) = lastStatus log) : HasFinal (log ++ [record]) := by
  intro status found finished
  rw [same] at found
  rw [isOpen status found] at finished
  cases finished

/-- A log shows a finished job without its final result exactly when it ends in
the record of the final status. -/
theorem Legal.hasFinal_iff {job : Job} {tasks : List TaskNode} {log : List JournalRecord}
    (legal : Legal job tasks log) (planned : job.status.isFinished = false) : HasFinal log ↔ Concluded log := by
  cases legal with
  | planned =>
    refine ⟨fun _ _ _ _ _ last => absurd last (by simp), fun _ status found finished => ?_⟩
    cases found
    rw [planned] at finished
    cases finished
  | @next log record legal follows =>
    unfold Concluded
    rw [List.getLast?_concat]
    cases follows with
    | status status reason time isOpen =>
      have here := lastStatus_snoc log (.jobStatusChanged job.id status reason time)
      obtain ⟨_, current, known, _⟩ := legal.planned_job
      simp only [lastStatus, known, Option.map_some] at here
      constructor
      · intro hasFinal jobId status' reason' time' last
        cases last
        by_contra finished
        refine hasFinal status here (by simpa using finished) ?_
        rw [replay_snoc]
        exact legal.silent isOpen
      · intro unfinished status' found finished
        have same : status' = status := Option.some.inj (found.symm.trans here)
        rw [same, unfinished _ _ _ _ rfl] at finished
        cases finished
    | transition attempt isOpen =>
      exact ⟨fun _ _ _ _ _ last => (by cases last), fun _ => isOpen.hasFinal (by rw [lastStatus_snoc])⟩
    | completed isOpen =>
      exact ⟨fun _ _ _ _ _ last => (by cases last), fun _ => isOpen.hasFinal (by rw [lastStatus_snoc])⟩
    | failed failure isOpen =>
      exact ⟨fun _ _ _ _ _ last => (by cases last), fun _ => isOpen.hasFinal (by rw [lastStatus_snoc])⟩
    | finished result last isFinished =>
      refine ⟨fun _ _ _ _ _ last => (by cases last), fun _ _ _ _ => ?_⟩
      rw [replay_snoc]
      simp [absorb]

theorem exists_transition (log : List JournalRecord) {task : TaskId} {state : TaskState}
    (found : lastState log task = some state) :
    ∃ (i : Nat) (jobId : JobId) (transition : Transition TaskState) (attempt : Nat),
      log[i]? = some (.taskTransitioned jobId transition task attempt) ∧ transition.target = state := by
  induction log using List.reverseRecOn with
  | nil => simp [lastState, replay] at found
  | append_singleton log record ih =>
    have later : lastState log task = some state →
        ∃ (i : Nat) (jobId : JobId) (transition : Transition TaskState) (attempt : Nat),
          (log ++ [record])[i]? = some (.taskTransitioned jobId transition task attempt) ∧
            transition.target = state := by
      intro before
      obtain ⟨i, jobId, transition, attempt, here, target⟩ := ih before
      have bound := (List.getElem?_eq_some_iff.mp here).1
      exact ⟨i, jobId, transition, attempt, by rw [List.getElem?_append_left bound]; exact here, target⟩
    rw [lastState_snoc] at found
    cases record with
    | taskTransitioned jobId transition moved attempt =>
      simp only at found
      split at found
      · rename_i same
        subst same
        cases found
        exact ⟨log.length, jobId, transition, attempt, by simp, rfl⟩
      · exact later found
    | _ => exact later found

theorem mem_results {log : List JournalRecord} {result : TaskResult} :
    result ∈ (replay log).results ↔ ∃ jobId, JournalRecord.taskCompleted jobId result ∈ log := by
  induction log using List.reverseRecOn with
  | nil => simp [replay]
  | append_singleton log record ih =>
    simp only [List.mem_append, List.mem_singleton, exists_or, ← ih]
    rw [replay_snoc]
    cases record <;> simp [absorb, eq_comm]

namespace Legal
variable {job : Job} {tasks : List TaskNode} {log : List JournalRecord}

/-- A journaled completion is the last word on its task. -/
theorem lastState_of_completed (legal : Legal job tasks log) {i : Nat} {jobId : JobId}
    {transition : Transition TaskState} {task : TaskId} {attempt : Nat}
    (here : log[i]? = some (.taskTransitioned jobId transition task attempt))
    (target : transition.target = .completed) :
    lastState log task = some .completed := by
  have bound := (List.getElem?_eq_some_iff.mp here).1
  have upTo : lastState (log.take (i + 1)) task = some .completed := by
    rw [List.take_add_one, here, Option.toList_some, lastState_snoc]
    simp [target]
  refine legal.terminal_persists (List.take_prefix _ _) ?_ upTo rfl
  simp [legal.ne_nil]

/-- A task is completed once. -/
theorem completed_once (legal : Legal job tasks log) {i k : Nat} {jobId jobId' : JobId}
    {transition transition' : Transition TaskState} {task : TaskId} {attempt attempt' : Nat}
    (first : log[i]? = some (.taskTransitioned jobId transition task attempt)) (done : transition.target = .completed)
    (second : log[k]? = some (.taskTransitioned jobId' transition' task attempt')) : ¬ i < k := by
  intro earlier
  obtain ⟨k, rfl⟩ := Nat.exists_eq_succ_of_ne_zero (Nat.ne_zero_of_lt earlier)
  obtain ⟨legalBefore, follows⟩ := legal.follows_at second
  have before : lastState (log.take (k + 1)) task = some .completed := by
    have cut : (log.take (k + 1))[i]? = some (.taskTransitioned jobId transition task attempt) := by
      rw [List.getElem?_take_of_lt earlier]
      exact first
    exact legalBefore.lastState_of_completed cut done
  generalize log.take (k + 1) = front at follows before
  cases follows with
  | transition _ _ _ fresh _ => exact absurd (fresh _ before) (by decide)

/-- A result stands right behind the completion it belongs to. -/
theorem completed_before (legal : Legal job tasks log) {k : Nat} {jobId : JobId} {result : TaskResult}
    (here : log[k]? = some (.taskCompleted jobId result)) :
    ∃ i jobId transition attempt, k = i + 1 ∧
      log[i]? = some (JournalRecord.taskTransitioned jobId transition result.taskId attempt) ∧
      transition.target = .completed := by
  cases k with
  | zero =>
    rw [legal.first] at here
    cases here
  | succ k =>
    obtain ⟨_, follows⟩ := legal.follows_at here
    generalize cut : log.take (k + 1) = front at follows
    cases follows with
    | @completed transition attempt _ _ last target =>
      refine ⟨k, job.id, transition, attempt, rfl, ?_, target⟩
      have bound := (List.getElem?_eq_some_iff.mp here).1
      rw [← cut, List.take_add_one, List.getElem?_eq_getElem (by omega), Option.toList_some,
        List.getLast?_concat] at last
      rw [List.getElem?_eq_getElem (by omega)]
      exact last

/-- Every completed task of a log has a result exactly when every completion is
followed by its result. -/
theorem results_iff (legal : Legal job tasks log) :
    (∀ task, lastState log task = some .completed → ∃ result ∈ (replay log).results, result.taskId = task) ↔
      Paired log := by
  constructor
  · intro complete i jobId transition task attempt here target
    obtain ⟨result, member, rfl⟩ := complete task (legal.lastState_of_completed here target)
    obtain ⟨jobId', present⟩ := mem_results.mp member
    obtain ⟨k, found⟩ := List.mem_iff_getElem?.mp present
    obtain ⟨k, _, transition', attempt', rfl, behind, done⟩ := legal.completed_before found
    have notBefore := legal.completed_once here target behind
    have notAfter := legal.completed_once behind done here
    have same : i = k := by omega
    subst same
    exact ⟨jobId', result, found, rfl⟩
  · intro paired task completed
    obtain ⟨i, jobId, transition, attempt, here, target⟩ := exists_transition log completed
    obtain ⟨jobId', result, found, same⟩ := paired i jobId transition task attempt here target
    exact ⟨result, mem_results.mpr ⟨jobId', List.mem_of_getElem? found⟩, same⟩

end Legal

end Swarm.Recovery
