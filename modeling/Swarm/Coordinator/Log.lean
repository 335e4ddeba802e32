import Swarm.Coordinator.Rebuild

namespace Swarm.Recovery

/-- What replay makes of the records of one job. -/
def replay (log : List JournalRecord) : Recovering := log.foldl absorb {}

/-- The state that the last journaled transition of a task leads to. -/
def lastState (log : List JournalRecord) (task : TaskId) : Option TaskState := (replay log).taskStates.get? task

def lastStatus (log : List JournalRecord) : Option JobStatus := (replay log).job.map Job.status

/-- The job has not finished. -/
def Open (log : List JournalRecord) : Prop := ∀ status, lastStatus log = some status → status.isFinished = false

theorem replay_snoc (log : List JournalRecord) (record : JournalRecord) :
    replay (log ++ [record]) = absorb (replay log) record := by
  simp [replay]

theorem lastState_snoc (log : List JournalRecord) (record : JournalRecord) (task : TaskId) :
    lastState (log ++ [record]) task = match record with
      | .taskTransitioned _ transition moved _ => if task = moved then some transition.target else lastState log task
      | _ => lastState log task := by
  unfold lastState
  rw [replay_snoc]
  cases record with
  | taskTransitioned _ transition moved _ => exact Dict.get?_insert
  | _ => rfl

theorem lastStatus_snoc (log : List JournalRecord) (record : JournalRecord) :
    lastStatus (log ++ [record]) = match record with
      | .jobPlanned job _ => some job.status
      | .jobStatusChanged _ status _ _ => (lastStatus log).map (fun _ => status)
      | _ => lastStatus log := by
  unfold lastStatus
  rw [replay_snoc]
  cases record with
  | jobStatusChanged =>
    simp only [absorb]
    cases (replay log).job <;> rfl
  | _ => rfl

/-- When a record may be appended to the log of a job. -/
inductive Follows (jobId : JobId) (tasks : List TaskNode) (log : List JournalRecord) : JournalRecord → Prop
  | status (status : JobStatus) (reason : Option String) (time : DateTime) : Open log →
      Follows jobId tasks log (.jobStatusChanged jobId status reason time)
  | transition {transition : Transition TaskState} {node : TaskNode} (attempt : Nat) : Open log → node ∈ tasks →
      (∀ state, lastState log node.id = some state → state.isTerminal = false) →
      (transition.target.isPromoted = true → ∀ dependency ∈ node.dependencies,
        lastState log dependency = some .completed) →
      Follows jobId tasks log (.taskTransitioned jobId transition node.id attempt)
  | completed {transition : Transition TaskState} {attempt : Nat} {result : TaskResult} : Open log →
      log.getLast? = some (.taskTransitioned jobId transition result.taskId attempt) →
        transition.target = .completed →
      Follows jobId tasks log (.taskCompleted jobId result)
  | failed (failure : TaskFailure) : Open log → Follows jobId tasks log (.taskFailed jobId failure)
  | finished {status : JobStatus} {reason : Option String} {time : DateTime} (result : FinalResult) :
      log.getLast? = some (.jobStatusChanged jobId status reason time) → status.isFinished = true →
      Follows jobId tasks log (.jobFinished jobId result)

/-- A terminal state is never left. -/
theorem Follows.terminal_stays {jobId : JobId} {tasks : List TaskNode} {log : List JournalRecord}
    {record : JournalRecord} (follows : Follows jobId tasks log record) {task : TaskId} {state : TaskState}
    (found : lastState log task = some state) (terminal : state.isTerminal = true) :
    lastState (log ++ [record]) task = some state := by
  rw [lastState_snoc]
  cases follows with
  | transition attempt _ _ fresh _ =>
    simp only
    split
    · rename_i same
      have unfinished := fresh state (same ▸ found)
      rw [terminal] at unfinished
      cases unfinished
    · exact found
  | _ => exact found

/-- The logs a job can leave behind: its plan, and then what may follow. -/
inductive Legal (job : Job) (tasks : List TaskNode) : List JournalRecord → Prop
  | planned : Legal job tasks [.jobPlanned job tasks]
  | next {log : List JournalRecord} {record : JournalRecord} : Legal job tasks log →
      Follows job.id tasks log record → Legal job tasks (log ++ [record])

namespace Legal
variable {job : Job} {tasks : List TaskNode} {log : List JournalRecord}

theorem ne_nil (legal : Legal job tasks log) : log ≠ [] := by
  cases legal <;> simp

/-- Cutting the tail off a legal log leaves a legal log. -/
theorem cut (legal : Legal job tasks log) {front : List JournalRecord} (start : front <+: log)
    (inhabited : front ≠ []) :
    Legal job tasks front := by
  induction legal with
  | planned =>
    have whole : front = [.jobPlanned job tasks] := by
      obtain ⟨rest, split⟩ := start
      cases front with
      | nil => exact absurd rfl inhabited
      | cons first more =>
        simp only [List.cons_append, List.cons.injEq, List.append_eq_nil_iff] at split
        rw [split.1, split.2.1]
    rw [whole]
    exact .planned
  | next legal follows ih =>
    rcases List.prefix_concat_iff.mp start with whole | shorter
    · rw [whole]
      exact .next legal follows
    · exact ih shorter

/-- Every record but the first follows the records before it. -/
theorem follows_at (legal : Legal job tasks log) {i : Nat} {record : JournalRecord}
    (found : log[i + 1]? = some record) :
    Legal job tasks (log.take (i + 1)) ∧ Follows job.id tasks (log.take (i + 1)) record := by
  induction legal with
  | planned => simp at found
  | @next log last legal follows ih =>
    by_cases inside : i + 1 < log.length
    · rw [List.getElem?_append_left inside] at found
      rw [List.take_append_of_le_length (Nat.le_of_lt inside)]
      exact ih found
    · have bound := (List.getElem?_eq_some_iff.mp found).1
      rw [List.length_append, List.length_singleton] at bound
      have whole : i + 1 = log.length := by omega
      rw [whole, List.getElem?_concat_length] at found
      cases found
      rw [whole, List.take_append_of_le_length (Nat.le_refl _), List.take_length]
      exact ⟨legal, follows⟩

theorem first (legal : Legal job tasks log) : log[0]? = some (.jobPlanned job tasks) := by
  induction legal with
  | planned => rfl
  | next legal _ ih =>
    rw [List.getElem?_append_left (List.length_pos_iff.mpr legal.ne_nil)]
    exact ih

theorem planned_job (legal : Legal job tasks log) :
    (replay log).tasks = tasks ∧ ∃ current, (replay log).job = some current ∧ current.id = job.id := by
  induction legal with
  | planned => exact ⟨rfl, job, rfl, rfl⟩
  | next _ follows ih =>
    obtain ⟨same, current, found, id⟩ := ih
    rw [replay_snoc]
    cases follows <;> simp only [absorb, found, Option.map_some]
    case status => exact ⟨same, _, rfl, id⟩
    all_goals exact ⟨same, current, rfl, id⟩

theorem jobId_eq (legal : Legal job tasks log) : ∀ record ∈ log, record.jobId = job.id := by
  induction legal with
  | planned =>
    intro record member
    rw [List.mem_singleton.mp member]
    rfl
  | next _ follows ih =>
    intro record member
    rcases List.mem_append.mp member with old | new
    · exact ih record old
    · rw [List.mem_singleton.mp new]
      cases follows <;> rfl

/-- Only planned tasks are journaled. -/
theorem lastState_planned (legal : Legal job tasks log) {task : TaskId} {state : TaskState}
    (found : lastState log task = some state) : task ∈ planIds tasks := by
  induction legal generalizing state with
  | planned => simp [lastState, replay, absorb] at found
  | next _ follows ih =>
    rw [lastState_snoc] at found
    cases follows with
    | transition attempt _ member _ _ =>
      simp only at found
      split at found
      · rename_i same
        rw [same]
        exact List.mem_map_of_mem member
      · exact ih found
    | _ => exact ih found

theorem terminal_persists (legal : Legal job tasks log) {front : List JournalRecord} (start : front <+: log)
    (inhabited : front ≠ []) {task : TaskId} {state : TaskState} (found : lastState front task = some state)
    (terminal : state.isTerminal = true) : lastState log task = some state := by
  induction legal with
  | planned =>
    have whole := List.prefix_concat_iff.mp (List.nil_append [JournalRecord.jobPlanned job tasks] ▸ start)
    rcases whole with whole | empty
    · rw [List.nil_append] at whole
      rw [← whole]
      exact found
    · exact absurd (List.prefix_nil.mp empty) inhabited
  | next _ follows ih =>
    rcases List.prefix_concat_iff.mp start with whole | shorter
    · rw [← whole]
      exact found
    · exact follows.terminal_stays (ih shorter) terminal

/-- Promoted tasks come after their dependencies. -/
theorem dependencies_completed (legal : Legal job tasks log) (distinct : (planIds tasks).Nodup) {node : TaskNode}
    (member : node ∈ tasks) {state : TaskState} (found : lastState log node.id = some state)
    (promoted : state.isPromoted = true) :
    ∀ dependency ∈ node.dependencies, lastState log dependency = some .completed := by
  induction legal generalizing state with
  | planned => simp [lastState, replay, absorb] at found
  | next _ follows ih =>
    intro dependency depends
    have stays : lastState _ dependency = some TaskState.completed → _ := fun before =>
      follows.terminal_stays before rfl
    rw [lastState_snoc] at found
    cases follows with
    | @transition transition moved attempt _ inside _ unblocked =>
      simp only at found
      split at found
      · rename_i same
        have equal : node = moved := List.inj_on_of_nodup_map distinct member inside same
        subst equal
        cases found
        exact stays (unblocked promoted dependency depends)
      · exact stays (ih found promoted dependency depends)
    | _ => exact stays (ih found promoted dependency depends)

/-- A record that is a transition is the last word on its task. -/
theorem last_transition (legal : Legal job tasks log) {jobId : JobId}
    {transition : Transition TaskState} {task : TaskId} {attempt : Nat}
    (last : log.getLast? = some (.taskTransitioned jobId transition task attempt)) :
    ∃ before, log = before ++ [.taskTransitioned jobId transition task attempt] ∧ Legal job tasks before ∧
      ∀ state, lastState before task = some state → state.isTerminal = false := by
  cases legal with
  | planned => simp at last
  | @next before record legal follows =>
    rw [List.getLast?_concat] at last
    cases last
    refine ⟨before, rfl, legal, ?_⟩
    cases follows with
    | transition _ _ _ fresh _ => exact fresh

/-- Every recovered result belongs to a completed task. -/
theorem results_completed (legal : Legal job tasks log) :
    ∀ result ∈ (replay log).results, lastState log result.taskId = some .completed := by
  induction legal with
  | planned => simp [replay, absorb]
  | @next log record legal follows ih =>
    intro result member
    have older : result ∈ (replay log).results → lastState (log ++ [record]) result.taskId = some .completed :=
      fun member => follows.terminal_stays (ih result member) rfl
    rw [replay_snoc] at member
    cases follows with
    | @completed transition attempt fresh _ last target =>
      rcases List.mem_append.mp member with old | new
      · exact older old
      · rw [List.mem_singleton.mp new, lastState_snoc]
        obtain ⟨before, rfl, _⟩ := legal.last_transition last
        rw [lastState_snoc]
        simp [target]
    | _ => exact older member

/-- No task has two recovered results. -/
theorem results_nodup (legal : Legal job tasks log) : ((replay log).results.map TaskResult.taskId).Nodup := by
  induction legal with
  | planned => simp [replay, absorb]
  | next legal follows ih =>
    rw [replay_snoc]
    cases follows with
    | @completed transition attempt result _ last _ =>
      obtain ⟨before, rfl, legalBefore, fresh⟩ := legal.last_transition last
      have same : (replay (before ++ [.taskTransitioned job.id transition result.taskId attempt])).results =
          (replay before).results := by
        rw [replay_snoc]
        rfl
      simp only [absorb, List.map_append, List.map_cons, List.map_nil]
      rw [List.nodup_append]
      refine ⟨ih, List.nodup_singleton _, ?_⟩
      rintro task old _ new rfl
      rw [List.mem_singleton.mp new, same] at old
      obtain ⟨earlier, member, equal⟩ := List.mem_map.mp old
      have done := legalBefore.results_completed earlier member
      rw [equal] at done
      exact absurd (fresh _ done) (by decide)
    | _ => exact ih

theorem last_status (legal : Legal job tasks log) {jobId : JobId} {status : JobStatus} {reason : Option String}
    {time : DateTime} (last : log.getLast? = some (.jobStatusChanged jobId status reason time)) :
    lastStatus log = some status := by
  cases legal with
  | planned => simp at last
  | @next before record legal _ =>
    rw [List.getLast?_concat] at last
    cases last
    obtain ⟨_, earlier, known, _⟩ := legal.planned_job
    rw [lastStatus_snoc]
    simp [lastStatus, known]

/-- A final result is only journaled for a job that has finished. -/
theorem finished_of_finalResult (legal : Legal job tasks log) (present : (replay log).finalResult ≠ none) :
    ∃ status, lastStatus log = some status ∧ status.isFinished = true := by
  induction legal with
  | planned => exact absurd rfl present
  | @next log record legal follows ih =>
    rw [replay_snoc] at present
    rw [lastStatus_snoc]
    have older : Open log → (replay log).finalResult = none := by
      intro isOpen
      by_contra some
      obtain ⟨status, found, finished⟩ := ih some
      rw [isOpen status found] at finished
      cases finished
    cases follows with
    | @finished status _ _ _ last isFinished => exact ⟨status, legal.last_status last, isFinished⟩
    | status _ _ _ isOpen => exact absurd (older isOpen) present
    | transition _ isOpen => exact absurd (older isOpen) present
    | completed isOpen => exact absurd (older isOpen) present
    | failed _ isOpen => exact absurd (older isOpen) present

end Legal

end Swarm.Recovery
