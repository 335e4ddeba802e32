import Swarm.Coordinator.Resume
import Swarm.Coordinator.Undisturbed
import Swarm.Platform.Flight

namespace Swarm
open JobHandle Recovery

namespace Cluster
variable {config : CoordinatorConfig} {tools : TextTools}
  {toposort : DiGraph TaskId → Except Nat (List Nat)} {c : Cluster}

/-- Jobs and tasks go by UUIDs. -/
def Numbered (c : Cluster) : Prop :=
  ∀ jobId run, c.jobs.get? jobId = some run → jobId.uuid < 2 ^ 128 ∧
    ∀ task, (run.handle.graph.get task).isSome = true → task.uuid < 2 ^ 128

theorem Numbered.moved (numbered : c.Numbered) {jobId : JobId} {run run' : JobRun}
    (found : c.jobs.get? jobId = some run) (moves : Moves run.handle run'.handle) {shared : Shared} :
    Numbered ⟨c.jobs.insert jobId run', shared⟩ := by
  intro other current present
  simp only [Dict.get?_insert] at present
  split at present
  · rename_i same
    cases present
    rw [same]
    refine ⟨(numbered jobId run found).1, fun task known => ?_⟩
    rw [(moves_extends moves).isSome] at known
    exact (numbered jobId run found).2 task known
  · exact numbered other current present

theorem Numbered.steered {c' : Cluster} (numbered : c.Numbered) {jobId : JobId} (steered : Steered c c' jobId) :
    c'.Numbered := by
  rcases steered with rfl | ⟨run, h, found, steers, rfl⟩
  · exact numbered
  · exact numbered.moved found steers.moves

theorem Numbered.submit (numbered : c.Numbered) {submission : Submission} {nodes : Dict TaskId TaskNode}
    (possible : c.Possible config tools toposort (.submit submission nodes)) (wide : submission.Numbered) :
    (c.submit config tools toposort submission nodes).Numbered := by
  unfold Cluster.submit
  split
  · exact numbered
  · rename_i job graph planned
    obtain ⟨id, status, untouched, inhabited⟩ := submission.plan_ok planned
    have moved := possible.2.2 job graph planned
    intro other run present
    simp only [Dict.get?_insert] at present
    split at present
    · rename_i same
      cases present
      rw [same, id]
      refine ⟨wide.1, fun task known => ?_⟩
      obtain ⟨node, found⟩ := Option.isSome_iff_exists.mp known
      have member := Dict.mem_values.mpr ⟨task, Dict.get?_eq_some.mp ((moved.get? task).trans found)⟩
      obtain ⟨_, _, k, drawn⟩ := untouched.tasks node member
      rw [← ((sync_planned status untouched inhabited moved).node_own found).1, drawn]
      exact wide.2 k
    · exact numbered other run present

theorem Numbered.apply (numbered : c.Numbered) (sound : c.Sound) (sorts : Sorts toposort) {event : Event}
    (possible : c.Possible config tools toposort event)
    (wide : ∀ submission nodes, event = .submit submission nodes → submission.Numbered) :
    (c.apply config tools toposort event).Numbered := by
  cases event with
  | submit submission nodes => exact numbered.submit possible (wide submission nodes rfl)
  | engine jobId input =>
    simp only [Cluster.apply, Cluster.engine]
    cases found : c.jobs.get? jobId with
    | none => exact numbered
    | some run => exact numbered.moved found (sound.stepped found possible).moves
  | pause jobId => exact numbered.steered (apply_steered possible (Or.inl rfl))
  | resume jobId => exact numbered.steered (apply_steered possible (Or.inr (Or.inl rfl)))
  | cancel jobId => exact numbered.steered (apply_steered possible (Or.inr (Or.inr (Or.inl rfl))))
  | purge jobId => exact numbered
  | rehash jobId nodes => exact numbered.steered (apply_steered possible (Or.inr (Or.inr (Or.inr ⟨nodes, rfl⟩))))
  | rehashLeases leases => exact numbered
  | restart journal =>
    intro jobId run found
    obtain ⟨old, job, tasks, h, known, _, sync, synced, rfl⟩ := sound.back sorts possible found
    exact ⟨(numbered jobId old known).1,
      fun task holds => (numbered jobId old known).2 task (sync.isSome_iff.mpr (synced.isSome_iff.mp holds))⟩

/-- What an engine has handed out is numbered. -/
theorem Numbered.dispatched (numbered : c.Numbered) (sound : c.Sound) {jobId : JobId} {run : JobRun}
    (found : c.jobs.get? jobId = some run) {dispatch : Dispatch} (member : dispatch ∈ run.pc.dispatches) :
    dispatch.task.Numbered := by
  obtain ⟨job, tasks, id, sync⟩ := sound.synced jobId run found
  obtain ⟨running, own, _⟩ := (sound.engines jobId run found).dispatched dispatch member
  obtain ⟨node, known, _⟩ := Option.map_eq_some_iff.mp running
  refine ⟨(numbered jobId run found).2 dispatch.task.id (by rw [known]; rfl), ?_⟩
  rw [own, sync.jobId, id]
  exact (numbered jobId run found).1

end Cluster

/-- The executions that the engine waits for at a point. -/
def Pc.awaited : Pc → List Dispatch
  | .executing dispatches => dispatches
  | _ => []

theorem Pc.awaited_dispatches (pc : Pc) : pc.awaited ⊆ pc.dispatches := by
  intro dispatch member
  cases pc with
  | executing dispatches => exact member
  | _ => cases member

/-- What holds of the executions of a job at a point of its engine. -/
structure Pc.Mans (tools : TextTools) (pc : Pc) (flights : List Flight) : Prop where
  manifest : flights.map Flight.dispatch = pc.awaited
  sound : ∀ flight ∈ flights, flight.Sound tools

namespace Pc
variable {tools : TextTools}

theorem Mans.grounded {pc : Pc} {flights : List Flight} (mans : pc.Mans tools flights)
    (grounded : ∀ dispatches, pc ≠ .executing dispatches) : flights = [] := by
  have manifest := mans.manifest
  cases pc with
  | executing dispatches => exact absurd rfl (grounded dispatches)
  | _ => exact List.map_eq_nil_iff.mp manifest

/-- The executions that an engine begins to wait for are new. -/
theorem manifest_fresh {pc : Pc} (grounded : ∀ dispatches, pc ≠ .executing dispatches) (after : Pc)
    (flights : List Flight) : pc.manifest after flights = after.awaited.map Flight.start := by
  cases pc with
  | executing dispatches => exact absurd rfl (grounded dispatches)
  | _ => cases after <;> rfl

theorem manifest_landed (pc after : Pc) (landed : ∀ dispatches, after ≠ .executing dispatches)
    (flights : List Flight) : pc.manifest after flights = [] ∧ after.awaited = [] := by
  cases after with
  | executing dispatches => exact absurd rfl (landed dispatches)
  | _ => cases pc <;> exact ⟨rfl, rfl⟩

theorem mans_takeoff {pc : Pc} (grounded : ∀ dispatches, pc ≠ .executing dispatches) {after : Pc}
    (flights : List Flight) (numbered : ∀ dispatch ∈ after.awaited, dispatch.task.Numbered) :
    after.Mans tools (pc.manifest after flights) := by
  rw [manifest_fresh grounded]
  refine ⟨?_, ?_⟩
  · rw [List.map_map]
    exact List.map_id _
  · intro flight member
    obtain ⟨dispatch, inside, rfl⟩ := List.mem_map.mp member
    exact Flight.sound_start (numbered dispatch inside)

theorem mans_landed (pc : Pc) {after : Pc} (landed : ∀ dispatches, after ≠ .executing dispatches)
    (flights : List Flight) : after.Mans tools (pc.manifest after flights) := by
  obtain ⟨empty, awaits⟩ := pc.manifest_landed _ landed flights
  rw [empty]
  exact ⟨awaits.symm, fun _ absurd => by cases absurd⟩

end Pc

/-- An engine that waits goes on waiting for the same executions, or for none. -/
theorem Engine.step_awaited (config : CoordinatorConfig) (toposort : DiGraph TaskId → Except Nat (List Nat))
    (input : EngineInput) {run : JobRun} (shared : Shared) {dispatches : List Dispatch}
    (here : run.pc = .executing dispatches) : Engine.step config toposort input run shared = (run, shared) ∨
      ∀ waited, (Engine.step config toposort input run shared).1.pc ≠ .executing waited := by
  simp only [step, here]
  split
  · exact Or.inr (fun _ absurd => by cases absurd)
  · split
    · exact Or.inr (fun _ absurd => by cases absurd)
    · exact Or.inl rfl

namespace Platform
variable {config : CoordinatorConfig} {tools : TextTools} {toposort : DiGraph TaskId → Except Nat (List Nat)}
  {p : Platform}

/-- What holds of a platform in every run: its coordinator is sound, what shared memory holds was
written by executions, and the executions under way are those the engines wait for. -/
structure Sound (tools : TextTools) (p : Platform) : Prop where
  cluster : p.cluster.Sound
  numbered : p.cluster.Numbered
  store : p.store.Filed tools
  mans : ∀ jobId, (p.cluster.pcOf jobId).Mans tools (p.flightsOf jobId)

theorem sound_new (limits : GatewayConfig) (providers : List Provider) : (new limits providers).Sound tools where
  cluster := Cluster.sound_new
  numbered _ _ found := by cases found
  store _ _ _ stored := by cases stored
  mans _ := ⟨rfl, fun _ absurd => by cases absurd⟩

theorem flightsOf_insert {cluster : Cluster} {store : InMemoryStore MemoryValue} {gateway : Gateway UInt64}
    {jobId : JobId} {flights : List Flight} (other : JobId) :
    (Platform.flightsOf ⟨cluster, store, gateway, p.flights.insert jobId flights⟩ other) =
      if other = jobId then flights else p.flightsOf other := by
  unfold flightsOf
  rw [Dict.get?_insert]
  split <;> rfl

/-- What an activity is to the coordinator. -/
def event (p : Platform) : Activity → Option Event
  | .cluster (.engine jobId input) => some (.engine jobId (p.joined jobId input))
  | .cluster event => some event
  | .execute _ _ _ _ => none

theorem apply_cluster (activity : Activity) : (p.apply config tools toposort activity).cluster =
    (p.event activity).elim p.cluster (p.cluster.apply config tools toposort) := by
  cases activity with
  | execute jobId index clock input =>
    simp only [apply, execute, event, Option.elim_none]
    split <;> rfl
  | cluster step =>
    cases step with
    | engine jobId input =>
      simp only [apply, engine, event, Option.elim_some, Cluster.apply, Cluster.engine]
      cases p.cluster.jobs.get? jobId <;> rfl
    | _ => rfl

theorem Sound.grounds (sound : p.Sound tools) {jobId : JobId} {run : JobRun}
    (found : p.cluster.jobs.get? jobId = some run) : run.pc.Mans tools (p.flightsOf jobId) := by
  have mans := sound.mans jobId
  rw [Cluster.pcOf, found] at mans
  exact mans

/-- Whatever the platform does, the coordinator may see. -/
theorem Sound.possible (sound : p.Sound tools) {activity : Activity}
    (possible : p.Possible config tools toposort activity) {event : Event} (seen : p.event activity = some event) :
    p.cluster.Possible config tools toposort event := by
  cases activity with
  | execute jobId index clock input => cases seen
  | cluster step =>
    cases step with
    | engine jobId input =>
      cases seen
      intro run dispatches outcomes found here known
      have mans := sound.grounds found
      obtain ⟨_, _, rfl⟩ := Option.map_eq_some_iff.mp known
      have manifest := mans.manifest
      rw [here, Pc.awaited] at manifest
      subst manifest
      rw [List.forall₂_map_left_iff, List.forall₂_map_right_iff, List.forall₂_same]
      exact fun flight member => (mans.sound flight member).answers
    | submit submission nodes =>
      cases seen
      exact possible.1
    | _ =>
      cases seen
      exact possible

/-- The coordinator of a sound platform stays sound. -/
theorem Sound.coordinates (sound : p.Sound tools) (sorts : Sorts toposort) {activity : Activity}
    (possible : p.Possible config tools toposort activity) :
    (p.apply config tools toposort activity).cluster.Sound ∧
      (p.apply config tools toposort activity).cluster.Numbered := by
  rw [apply_cluster]
  cases seen : p.event activity with
  | none => exact ⟨sound.cluster, sound.numbered⟩
  | some event =>
    have may := sound.possible possible seen
    refine ⟨sound.cluster.apply sorts may, sound.numbered.apply sound.cluster sorts may ?_⟩
    rintro submission nodes rfl
    cases activity with
    | execute jobId index clock input => cases seen
    | cluster step =>
      cases step with
      | submit submission' nodes' =>
        cases seen
        exact possible.2
      | _ => cases seen

/-- An engine takes its executions along. -/
theorem Sound.boards (sound : p.Sound tools) {jobId : JobId} {run : JobRun}
    (found : p.cluster.jobs.get? jobId = some run) {input : EngineInput} {run' : JobRun} {shared : Shared}
    (stepped : Engine.step config toposort input run p.cluster.shared = (run', shared))
    (numbered : ∀ dispatch ∈ run'.pc.awaited, dispatch.task.Numbered) :
    run'.pc.Mans tools (run.pc.manifest run'.pc (p.flightsOf jobId)) := by
  have mans := sound.grounds found
  by_cases waits : ∃ dispatches, run.pc = .executing dispatches
  · obtain ⟨dispatches, here⟩ := waits
    rcases Engine.step_awaited config toposort input p.cluster.shared here with same | landed
    · rw [stepped] at same
      obtain ⟨rfl, rfl⟩ := Prod.mk.inj same
      have kept : run'.pc.manifest run'.pc (p.flightsOf jobId) = p.flightsOf jobId := by rw [here]; rfl
      rw [kept]
      exact mans
    · rw [stepped] at landed
      exact Pc.mans_landed _ landed _
  · exact Pc.mans_takeoff (fun dispatches here => waits ⟨dispatches, here⟩) _ numbered

theorem Sound.execute (sound : p.Sound tools) (jobId : JobId) (index clock : Nat) (input : StepInput) :
    (p.execute tools jobId index clock input).Sound tools := by
  unfold Platform.execute
  cases here : (p.flightsOf jobId)[index]? with
  | none => exact sound
  | some flight =>
    have mans := sound.mans jobId
    obtain ⟨flies, dispatch, filed, _⟩ :=
      Flight.advance_sound (mans.sound flight (List.mem_of_getElem? here)) sound.store
      p.gateway clock input
    simp only
    generalize flight.advance tools p.store p.gateway clock input = next at flies dispatch filed ⊢
    obtain ⟨flight', store, gateway⟩ := next
    refine ⟨sound.cluster, sound.numbered, filed, ?_⟩
    intro other
    rw [flightsOf_insert]
    split
    · rename_i same
      rw [same]
      refine ⟨?_, ?_⟩
      · obtain ⟨inside, rfl⟩ := List.getElem?_eq_some_iff.mp here
        rw [List.map_set, dispatch, ← mans.manifest]
        refine List.ext_getElem (List.length_set) (fun place _ _ => ?_)
        rw [List.getElem_set]
        split
        · rename_i same
          subst same
          rw [List.getElem_map]
        · rfl
      · intro other inside
        rcases List.mem_or_eq_of_mem_set inside with old | rfl
        · exact mans.sound other old
        · exact flies
    · exact sound.mans other

theorem Sound.engine (sound : p.Sound tools) (sorts : Sorts toposort) (jobId : JobId) (input : EngineInput) :
    (p.engine config toposort jobId input).Sound tools := by
  have possible : p.Possible config tools toposort (.cluster (.engine jobId input)) := trivial
  obtain ⟨after, numbered⟩ := sound.coordinates sorts possible
  simp only [Platform.apply] at after numbered
  unfold Platform.engine at after numbered ⊢
  cases found : p.cluster.jobs.get? jobId with
  | none => exact sound
  | some run =>
    simp only [found] at after numbered ⊢
    generalize stepped : Engine.step config toposort (p.joined jobId input) run p.cluster.shared =
      next at after numbered ⊢
    obtain ⟨run', shared⟩ := next
    refine ⟨after, numbered, sound.store, ?_⟩
    intro other
    rw [Cluster.pcOf_insert, flightsOf_insert]
    split
    · exact sound.boards found stepped (fun _ member =>
        numbered.dispatched after Dict.get?_insert_self (Pc.awaited_dispatches _ member))
    · exact sound.mans other

/-- Every activity keeps a platform sound. -/
theorem Sound.apply (sound : p.Sound tools) (sorts : Sorts toposort) {activity : Activity}
    (possible : p.Possible config tools toposort activity) :
    (p.apply config tools toposort activity).Sound tools := by
  obtain ⟨after, numbered⟩ := sound.coordinates sorts possible
  cases activity with
  | execute jobId index clock input => exact sound.execute jobId index clock input
  | cluster event =>
    have quiet : (∀ jobId input, event ≠ .engine jobId input) → (∀ journal, event ≠ .restart journal) →
        (p.apply config tools toposort (.cluster event)) =
          { p with cluster := p.cluster.apply config tools toposort event } →
        (p.apply config tools toposort (.cluster event)).Sound tools := by
      intro still alive same
      have may : p.cluster.Possible config tools toposort event := by
        refine sound.possible possible ?_
        cases event with
        | engine jobId input => exact absurd rfl (still jobId input)
        | _ => rfl
      rw [same] at after numbered ⊢
      refine ⟨after, numbered, sound.store, fun jobId => ?_⟩
      rw [(Cluster.apply_undisturbed may still alive).pcs]
      exact sound.mans jobId
    cases event with
    | engine jobId input => exact sound.engine sorts jobId input
    | restart journal =>
      refine ⟨after, numbered,
        fun _ _ _ stored => by (cases stored), fun jobId => ⟨?_, fun _ absurd => by (cases absurd)⟩⟩
      have idle : (Cluster.restart toposort journal).pcOf jobId = .idle := by
        unfold Cluster.pcOf
        cases found : (Cluster.restart toposort journal).jobs.get? jobId with
        | none => rfl
        | some run =>
          obtain ⟨_, h, _, rfl⟩ := Cluster.restart_get? found
          rfl
      change [] = ((Cluster.restart toposort journal).pcOf jobId).awaited
      rw [idle]
      rfl
    | _ => exact quiet (fun _ _ absurd => by cases absurd) (fun _ absurd => by cases absurd) rfl

theorem Runs.sound {kind : Platform → Activity → Prop} {first : Platform} (sorts : Sorts toposort)
    (start : first.Sound tools) (runs : Runs config tools toposort kind first p) : p.Sound tools := by
  induction runs with
  | start => exact start
  | next _ possible _ ih => exact ih.apply sorts possible

/-- A run of the platform is a run of its coordinator, of the kind that the activities make it. -/
theorem Runs.coordinator {kind : Platform → Activity → Prop} {events : Cluster → Event → Prop} {first : Platform}
    (sorts : Sorts toposort) (start : first.Sound tools)
    (kinds : ∀ p activity event, kind p activity → p.event activity = some event → events p.cluster event)
    (runs : Runs config tools toposort kind first p) :
    Cluster.Runs config tools toposort events first.cluster p.cluster := by
  induction runs with
  | start => exact .start
  | @next p activity runs possible allowed ih =>
    rw [apply_cluster]
    cases seen : p.event activity with
    | none => exact ih
    | some event =>
      exact .next ih ((runs.sound sorts start).possible possible seen) (kinds p activity event allowed seen)

variable {limits : GatewayConfig} {providers : List Provider}

/-- With its agents, their memory and their gateway, a coordinator reaches no state that it
does not reach when every task is answered by an execution of its own. -/
theorem Reach.refines (sorts : Sorts toposort) (reach : Reach config tools toposort limits providers p) :
    Cluster.Reach config tools toposort p.cluster :=
  Runs.coordinator sorts (sound_new limits providers) (fun _ _ _ _ _ => trivial) reach

def sampleProvider : Provider := ⟨"mock", fun _ => true⟩

/-- The engines and the executions take their steps in this order. -/
def perform (p : Platform) (steps : List Activity) : Platform :=
  steps.foldl (fun p activity => p.apply sampleConfig sampleReader DiGraph.sort activity) p

theorem runs_perform {kind : Platform → Activity → Prop}
    (runs : Runs sampleConfig sampleReader DiGraph.sort kind (new {} [sampleProvider]) p) (steps : List Activity)
    (plain : ∀ activity ∈ steps, activity.isStep = true)
    (allowed : ∀ p activity, activity.isStep = true → kind p activity) :
    Runs sampleConfig sampleReader DiGraph.sort kind (new {} [sampleProvider]) (p.perform steps) := by
  induction steps generalizing p with
  | nil => exact runs
  | cons activity rest ih =>
    have step := plain activity List.mem_cons_self
    refine ih (.next runs ?_ (allowed p activity step))
      (fun other member => plain other (List.mem_cons_of_mem _ member))
    unfold Activity.isStep at step
    split at step
    · trivial
    · trivial
    · cases step

/-- The sample request, with UUIDs drawn for its tasks. -/
def numberedSubmission : Submission := { sampleSubmission with taskIds := fun k => ⟨10 + k % 2 ^ 64⟩ }

def opening : Activity := .cluster (.submit numberedSubmission (Cluster.planned numberedSubmission))

def opened : Platform := (new {} [sampleProvider]).apply sampleConfig sampleReader DiGraph.sort opening

theorem runs_opened {kind : Platform → Activity → Prop} (allowed : kind (new {} [sampleProvider]) opening) :
    Runs sampleConfig sampleReader DiGraph.sort kind (new {} [sampleProvider]) opened := by
  refine .next .start ⟨⟨rfl, fun _ _ _ found => (by cases found), ?_⟩, by decide, fun k => ?_⟩ allowed
  · intro job graph run
    unfold Cluster.planned
    rw [run]
    exact List.Perm.refl _
  · have short := Nat.mod_lt k (show 0 < 2 ^ 64 by decide)
    simp only [numberedSubmission]
    omega

/-- The engine starts the first task, and the execution of it runs to its end. -/
def takeoff : List Activity :=
  [1, 2, 3, 4, 5, 6, 7, 8].map (fun now => .cluster (.engine ⟨1⟩ (plainInput now))) ++
    [9, 10, 11, 12, 13, 14, 15, 16, 17, 18].map (fun now => .execute ⟨1⟩ 0 now (gatewayInput now))

/-- The engine collects and applies what it came to. -/
def landing : List Activity :=
  [.cluster (.engine ⟨1⟩ { plainInput 19 with outcomes := some [] }), .cluster (.engine ⟨1⟩ (plainInput 20)),
    .cluster (.engine ⟨1⟩ (plainInput 21))]

theorem reach_sample (steps : List Activity) (plain : ∀ activity ∈ steps, activity.isStep = true) :
    Reach sampleConfig sampleReader DiGraph.sort {} [sampleProvider] (opened.perform steps) :=
  runs_perform (runs_opened trivial) steps plain (fun _ _ _ => trivial)

/-- The first task of the sample is completed. -/
theorem refines_sample :
    Cluster.Reach sampleConfig sampleReader DiGraph.sort (opened.perform (takeoff ++ landing)).cluster ∧
    ((opened.perform (takeoff ++ landing)).cluster.jobs.get? ⟨1⟩).any (fun run =>
      run.handle.graph.stateOf ⟨10⟩ == some .completed) = true :=
  ⟨Reach.refines Cluster.sample_sorts (reach_sample _ (by decide)), by decide +kernel⟩

/-- The result of an execution is about the task it was started for. -/
theorem Sound.about (sound : p.Sound tools) {jobId : JobId} {flight : Flight} (member : flight ∈ p.flightsOf jobId)
    {result : TaskResult} (returned : flight.point = .returned (.ok result)) :
    result.About flight.dispatch.task.jobId flight.dispatch.task.id := by
  rcases ((sound.mans jobId).sound flight member).inHand result (by rw [returned]; rfl) with
    ⟨written, wrote, rfl⟩ | ⟨response, input, _, rfl⟩
  · exact wrote.about
  · exact ⟨rfl, rfl⟩

/-- An execution is under way only for a task that its job knows to be running. -/
theorem Sound.under_way (sound : p.Sound tools) {jobId : JobId} {flight : Flight}
    (member : flight ∈ p.flightsOf jobId) :
    ∃ run, p.cluster.jobs.get? jobId = some run ∧ run.pc.awaited = (p.flightsOf jobId).map Flight.dispatch ∧
      run.handle.graph.stateOf flight.dispatch.task.id = some .running ∧ flight.dispatch.task.jobId = jobId := by
  cases found : p.cluster.jobs.get? jobId with
  | none =>
    have mans := sound.mans jobId
    rw [Cluster.pcOf, found] at mans
    have nothing : p.flightsOf jobId = [] := mans.grounded (fun _ absurd => by cases absurd)
    rw [nothing] at member
    cases member
  | some run =>
    have mans := sound.grounds found
    have waits : flight.dispatch ∈ run.pc.awaited := by
      rw [← mans.manifest]
      exact List.mem_map_of_mem member
    obtain ⟨running, own, _⟩ := (sound.cluster.engines jobId run found).dispatched _ (Pc.awaited_dispatches _ waits)
    obtain ⟨job, tasks, id, sync⟩ := sound.cluster.synced jobId run found
    exact ⟨run, rfl, mans.manifest.symm, running, own.trans (sync.jobId.trans id)⟩

/-- Over all jobs each task is executed at most once at a time, while it is running, and answered about itself. -/
theorem Reach.executions_apart (sorts : Sorts toposort) (reach : Reach config tools toposort limits providers p) :
    (∀ jobId, ∀ flight ∈ p.flightsOf jobId,
      (∃ run, p.cluster.jobs.get? jobId = some run ∧ run.handle.graph.stateOf flight.dispatch.task.id =
        some .running) ∧
      ∀ result, flight.point = .returned (.ok result) → result.About jobId flight.dispatch.task.id) ∧
    ∀ (jobId jobId' : JobId) (index index' : Nat) (flight flight' : Flight),
      (p.flightsOf jobId)[index]? = some flight →
      (p.flightsOf jobId')[index']? = some flight' → flight.dispatch.task.id = flight'.dispatch.task.id →
      jobId = jobId' ∧ index = index' := by
  have sound := reach.sound sorts (sound_new limits providers)
  refine ⟨?_, ?_⟩
  · intro jobId flight member
    obtain ⟨run, found, _, running, own⟩ := sound.under_way member
    refine ⟨⟨run, found, running⟩, fun result returned => ?_⟩
    rw [← own]
    exact sound.about member returned
  · intro jobId jobId' index index' flight flight' here there same
    obtain ⟨run, found, awaits, running, _⟩ := sound.under_way (List.mem_of_getElem? here)
    obtain ⟨run', found', _, running', _⟩ := sound.under_way (List.mem_of_getElem? there)
    have known : ∀ {run : JobRun} {task : TaskId}, run.handle.graph.stateOf task = some .running →
        (run.handle.graph.get task).isSome = true := by
      intro run task running
      obtain ⟨node, got, _⟩ := Option.map_eq_some_iff.mp running
      rw [got]
      rfl
    rw [← same] at running'
    have one := sound.cluster.apart jobId jobId' run run' _ found found' (known running) (known running')
    subst one
    refine ⟨rfl, ?_⟩
    have distinct := (sound.cluster.engines jobId run found).distinct
    have waits : ∃ dispatches, run.pc = .executing dispatches := by
      by_contra grounded
      have nothing := (sound.grounds found).grounded (fun dispatches here => grounded ⟨dispatches, here⟩)
      rw [nothing] at here
      cases here
    obtain ⟨dispatches, executing⟩ := waits
    rw [executing] at awaits distinct
    change dispatches = _ at awaits
    change (dispatches.map _).Nodup at distinct
    rw [awaits, List.map_map] at distinct
    have place : ∀ {place : Nat} {flight : Flight}, (p.flightsOf jobId)[place]? = some flight →
        ((p.flightsOf jobId).map ((fun dispatch => dispatch.task.id) ∘ Flight.dispatch))[place]? =
          some flight.dispatch.task.id := by
      intro place flight here
      rw [List.getElem?_map, here]
      rfl
    have short := (List.getElem?_eq_some_iff.mp (place here)).1
    exact (List.getElem?_inj short distinct).mp ((place here).trans ((place there).trans (by rw [same])).symm)

/-- The execution of the first task of the sample has come to an answer about it. -/
theorem executions_apart_sample : ∃ flight result, (opened.perform takeoff).flightsOf ⟨1⟩ = [flight] ∧
    flight.point = .returned (.ok result) ∧ result.About ⟨1⟩ flight.dispatch.task.id ∧
    ∃ run, (opened.perform takeoff).cluster.jobs.get? ⟨1⟩ = some run ∧
      run.handle.graph.stateOf flight.dispatch.task.id = some .running := by
  obtain ⟨about, _⟩ := Reach.executions_apart Cluster.sample_sorts (reach_sample takeoff (by decide))
  have brings : ((opened.perform takeoff).flightsOf ⟨1⟩).map (fun flight => flight.outcome.accepted.isSome) =
      [true] := by
    decide +kernel
  obtain ⟨flight, one, accepts⟩ := List.map_eq_singleton_iff.mp brings
  obtain ⟨result, accepted⟩ := Option.isSome_iff_exists.mp accepts
  have here := Flight.outcome_returned (Outcome.accepted_some accepted).1
  have member : flight ∈ (opened.perform takeoff).flightsOf ⟨1⟩ := by rw [one]; exact List.mem_singleton_self _
  obtain ⟨running, answers⟩ := about ⟨1⟩ flight member
  exact ⟨flight, result, one, here, answers result here, running⟩

end Platform

end Swarm
