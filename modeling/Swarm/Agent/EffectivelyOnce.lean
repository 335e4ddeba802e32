import Swarm.Agent.Fleet

namespace Swarm.Fleet

/-- What every interleaving keeps. The store has a result exactly when one was
published; an attempt key is held by at most one execution, and by none once the
gateway has been called under it. -/
structure Sound (jobId : JobId) (taskId : TaskId) (f : Fleet) : Prop where
  fits : ∀ d ∈ f.deliveries, d.execution.task.id = taskId ∧ d.execution.task.jobId = jobId
  lasting : f.store.Lasting
  absent : f.store.records.get? (Ns.results jobId, taskId.display) = none → f.published = []
  present : ∀ record, f.store.records.get? (Ns.results jobId, taskId.display) = some record →
    ∃ winner, record.value = .result winner ∧ f.published = [winner] ∧ winner.deduplicated = false
  distinct : (f.calls.map Prod.snd).Nodup
  exclusive : ∀ (i j : Nat) (d d' : Delivery), f.deliveries[i]? = some d → f.deliveries[j]? = some d' →
    d.execution.point.holds = true →
    d'.execution.point.holds = true → d.execution.task.attemptKey = d'.execution.task.attemptKey → i = j
  unspent : ∀ d ∈ f.deliveries, d.execution.point.holds = true →
    d.execution.task.attemptKey ∉ f.calls.map Prod.snd
  held : ∀ d ∈ f.deliveries, d.execution.point.holds = true →
    (f.store.records.get? (Ns.executions jobId, d.execution.task.attemptKey)).isSome = true
  spent : ∀ key ∈ f.calls.map Prod.snd, (f.store.records.get? (Ns.executions jobId, key)).isSome = true
  placed : ∀ d ∈ f.deliveries, d.Placed f.published
  early : ∀ call ∈ f.calls, ∃ d, f.deliveries[call.1]? = some d ∧ d.late = false

variable {jobId : JobId} {taskId : TaskId} {f : Fleet} {index : Nat} {d : Delivery}

/-- The delivery `d` after its execution moved to `point`. -/
def moved (d : Delivery) (point : ExecutePoint) : Delivery :=
  { d with execution := { d.execution with point := point } }

theorem mem_set_cases {other : Delivery} {point : ExecutePoint}
    (member : other ∈ f.deliveries.set index (moved d point)) : other = moved d point ∨ other ∈ f.deliveries :=
  (List.mem_or_eq_of_mem_set member).symm

/-- After a step, position `i` holds the moved delivery or what it held before. -/
theorem getElem?_set_cases {i : Nat} {other : Delivery} {point : ExecutePoint}
    (found : (f.deliveries.set index (moved d point))[i]? = some other) :
    (i = index ∧ other = moved d point) ∨ (i ≠ index ∧ f.deliveries[i]? = some other) := by
  rw [List.getElem?_set] at found
  split at found
  · rename_i same
    split at found
    · cases found
      exact Or.inl ⟨same.symm, rfl⟩
    · cases found
  · rename_i different
    exact Or.inr ⟨Ne.symm different, found⟩

/-- The calls made so far stay attributed to the same executions. -/
theorem Sound.early_set (sound : f.Sound jobId taskId) (here : f.deliveries[index]? = some d) (point : ExecutePoint) :
    ∀ call ∈ f.calls, ∃ d', (f.deliveries.set index (moved d point))[call.1]? = some d' ∧ d'.late = false := by
  intro call member
  obtain ⟨caller, found, late⟩ := sound.early call member
  by_cases same : call.1 = index
  · rw [same, here] at found
    cases found
    refine ⟨moved d point, ?_, late⟩
    rw [same, List.getElem?_set_self (List.getElem?_eq_some_iff.mp here).1]
  · exact ⟨caller, by rw [List.getElem?_set_ne (Ne.symm same)]; exact found, late⟩

/-- A step that claims no attempt and calls nobody. What it says about results
is left to the caller. -/
theorem Sound.frame (sound : f.Sound jobId taskId) (here : f.deliveries[index]? = some d) {point : ExecutePoint}
    {store : InMemoryStore MemoryValue} {published : List TaskResult} (lasting : store.Lasting)
    (absent : store.records.get? (Ns.results jobId, taskId.display) = none → published = [])
    (present : ∀ record, store.records.get? (Ns.results jobId, taskId.display) = some record →
      ∃ winner, record.value = .result winner ∧ published = [winner] ∧ winner.deduplicated = false)
    (executions : ∀ key, store.records.get? (Ns.executions jobId, key) =
      f.store.records.get? (Ns.executions jobId, key))
    (holds : point.holds = true → d.execution.point.holds = true) (placed : (moved d point).Placed published)
    (others : ∀ other ∈ f.deliveries, other.Placed published) :
    Sound jobId taskId { f with
      store := store, deliveries := f.deliveries.set index (moved d point), published := published } := by
  have inside := List.mem_of_getElem? here
  refine ⟨?_, lasting, absent, present, sound.distinct, ?_, ?_, ?_, ?_, ?_, sound.early_set here point⟩
  · intro other member
    rcases mem_set_cases member with rfl | old
    · exact sound.fits d inside
    · exact sound.fits other old
  · intro i j left right foundLeft foundRight leftHolds rightHolds same
    rcases getElem?_set_cases foundLeft with ⟨rfl, rfl⟩ | ⟨_, oldLeft⟩ <;>
      rcases getElem?_set_cases foundRight with ⟨rfl, rfl⟩ | ⟨_, oldRight⟩
    · rfl
    · exact sound.exclusive _ _ _ _ here oldRight (holds leftHolds) rightHolds same
    · exact sound.exclusive _ _ _ _ oldLeft here leftHolds (holds rightHolds) same
    · exact sound.exclusive _ _ _ _ oldLeft oldRight leftHolds rightHolds same
  · intro other member otherHolds
    rcases mem_set_cases member with rfl | old
    · exact sound.unspent d inside (holds otherHolds)
    · exact sound.unspent other old otherHolds
  · intro other member otherHolds
    rw [executions]
    rcases mem_set_cases member with rfl | old
    · exact sound.held d inside (holds otherHolds)
    · exact sound.held other old otherHolds
  · intro key member
    rw [executions]
    exact sound.spent key member
  · intro other member
    rcases mem_set_cases member with rfl | old
    · exact placed
    · exact others other old

/-- A step that claims nothing, calls nobody and publishes nothing. -/
theorem Sound.quiet (sound : f.Sound jobId taskId) (here : f.deliveries[index]? = some d) {point : ExecutePoint}
    {store : InMemoryStore MemoryValue} (lasting : store.Lasting)
    (results : store.records.get? (Ns.results jobId, taskId.display) =
      f.store.records.get? (Ns.results jobId, taskId.display))
    (executions : ∀ key, store.records.get? (Ns.executions jobId, key) =
      f.store.records.get? (Ns.executions jobId, key))
    (holds : point.holds = true → d.execution.point.holds = true) (placed : (moved d point).Placed f.published) :
    Sound jobId taskId { f with store := store, deliveries := f.deliveries.set index (moved d point) } :=
  sound.frame here lasting (by rw [results]; exact sound.absent) (by rw [results]; exact sound.present) executions
    holds placed sound.placed

/-- The points at which an execution has no result in hand. -/
def plain : ExecutePoint → Bool
  | .lookup | .claimAttempt | .recheck | .started | .call | .responded _ => true
  | _ => false

theorem placed_plain {point : ExecutePoint} {published : List TaskResult} (plainPoint : plain point = true)
    (early : d.late = false) : (moved d point).Placed published := by
  refine ⟨?_, ?_, ?_, ?_, fun late => absurd late (by simp [moved, early])⟩ <;> intro result same <;>
    rw [show point = _ from same] at plainPoint <;> cases plainPoint

/-- The execution won the claim on its attempt, so nobody held or spent that key. -/
theorem Sound.claimed (sound : f.Sound jobId taskId) (here : f.deliveries[index]? = some d)
    {store : InMemoryStore MemoryValue} {record : MemoryRecord MemoryValue}
    (free : f.store.records.get? (Ns.executions jobId, d.execution.task.attemptKey) = none) (lasting : store.Lasting)
    (records : store.records = f.store.records.insert (Ns.executions jobId, d.execution.task.attemptKey) record)
    (early : d.late = false) :
    Sound jobId taskId { f with store := store, deliveries := f.deliveries.set index (moved d .started) } := by
  have inside := List.mem_of_getElem? here
  have results : store.records.get? (Ns.results jobId, taskId.display) =
      f.store.records.get? (Ns.results jobId, taskId.display) := by
    rw [records]
    refine Dict.get?_insert_of_ne ?_
    intro same
    exact Ns.results_ne_executions jobId (congrArg Prod.fst same)
  have grows : ∀ key, (f.store.records.get? (Ns.executions jobId, key)).isSome = true →
      (store.records.get? (Ns.executions jobId, key)).isSome = true := by
    intro key some
    rw [records, Dict.get?_insert]
    split
    · rfl
    · exact some
  have unheld : ∀ other ∈ f.deliveries, other.execution.point.holds = true →
      other.execution.task.attemptKey ≠ d.execution.task.attemptKey := by
    intro other member holds same
    have taken := sound.held other member holds
    rw [same, free] at taken
    cases taken
  refine ⟨?_, lasting, ?_, ?_, sound.distinct, ?_, ?_, ?_, ?_, ?_, sound.early_set here _⟩
  · intro other member
    rcases mem_set_cases member with rfl | old
    · exact sound.fits d inside
    · exact sound.fits other old
  · rw [results]
    exact sound.absent
  · rw [results]
    exact sound.present
  · intro i j left right foundLeft foundRight leftHolds rightHolds same
    rcases getElem?_set_cases foundLeft with ⟨rfl, rfl⟩ | ⟨_, oldLeft⟩ <;>
      rcases getElem?_set_cases foundRight with ⟨rfl, rfl⟩ | ⟨_, oldRight⟩
    · rfl
    · exact absurd same.symm (unheld right (List.mem_of_getElem? oldRight) rightHolds)
    · exact absurd same (unheld left (List.mem_of_getElem? oldLeft) leftHolds)
    · exact sound.exclusive _ _ _ _ oldLeft oldRight leftHolds rightHolds same
  · intro other member otherHolds
    rcases mem_set_cases member with rfl | old
    · intro again
      have taken := sound.spent _ again
      rw [show (moved d .started).execution.task.attemptKey = d.execution.task.attemptKey from rfl, free] at taken
      cases taken
    · exact sound.unspent other old otherHolds
  · intro other member otherHolds
    rcases mem_set_cases member with rfl | old
    · rw [records]
      exact congrArg Option.isSome Dict.get?_insert_self
    · exact grows _ (sound.held other old otherHolds)
  · exact fun key member => grows key (sound.spent key member)
  · intro other member
    rcases mem_set_cases member with rfl | old
    · exact placed_plain rfl early
    · exact sound.placed other old

/-- The execution that holds the attempt calls the gateway. -/
theorem Sound.called (sound : f.Sound jobId taskId) (here : f.deliveries[index]? = some d)
    (calling : d.execution.point = .call) {point : ExecutePoint} (done : point.holds = false)
    (placed : (moved d point).Placed f.published) :
    Sound jobId taskId { f with
      deliveries := f.deliveries.set index (moved d point)
      calls := f.calls ++ [(index, d.execution.task.attemptKey)] } := by
  have inside := List.mem_of_getElem? here
  have holding : d.execution.point.holds = true := by rw [calling]; rfl
  have others : ∀ i other, (f.deliveries.set index (moved d point))[i]? = some other →
      other.execution.point.holds = true → i ≠ index ∧ f.deliveries[i]? = some other := by
    intro i other found holds
    rcases getElem?_set_cases found with ⟨_, rfl⟩ | old
    · exact absurd holds (by simp [moved, done])
    · exact old
  refine ⟨?_, sound.lasting, sound.absent, sound.present, ?_, ?_, ?_, ?_, ?_, ?_, ?_⟩
  · intro other member
    rcases mem_set_cases member with rfl | old
    · exact sound.fits d inside
    · exact sound.fits other old
  · rw [List.map_append, List.nodup_append]
    refine ⟨sound.distinct, List.nodup_singleton _, ?_⟩
    rintro key member _ single rfl
    rw [List.map_singleton, List.mem_singleton] at single
    rw [single] at member
    exact sound.unspent d inside holding member
  · intro i j left right foundLeft foundRight leftHolds rightHolds same
    exact sound.exclusive _ _ _ _ (others i left foundLeft leftHolds).2 (others j right foundRight rightHolds).2
      leftHolds rightHolds same
  · intro other member holds
    obtain ⟨i, found⟩ := List.mem_iff_getElem?.mp member
    obtain ⟨different, old⟩ := others i other found holds
    rw [List.map_append, List.mem_append, List.map_singleton, List.mem_singleton]
    rintro (spent | same)
    · exact sound.unspent other (List.mem_of_getElem? old) holds spent
    · exact different (sound.exclusive _ _ _ _ old here holds holding same)
  · intro other member holds
    obtain ⟨i, found⟩ := List.mem_iff_getElem?.mp member
    exact sound.held other (List.mem_of_getElem? (others i other found holds).2) holds
  · intro key member
    rw [List.map_append, List.mem_append, List.map_singleton, List.mem_singleton] at member
    rcases member with old | rfl
    · exact sound.spent key old
    · exact sound.held d inside holding
  · intro other member
    rcases mem_set_cases member with rfl | old
    · exact placed
    · exact sound.placed other old
  · intro call member
    rcases List.mem_append.mp member with old | new
    · exact sound.early_set here point call old
    · rw [List.mem_singleton.mp new]
      refine ⟨moved d point, List.getElem?_set_self (List.getElem?_eq_some_iff.mp here).1, ?_⟩
      cases late : d.late with
      | false => exact late
      | true =>
        rcases ((sound.placed d inside).idle late).2 with at_lookup | ⟨_, at_return⟩
        · rw [calling] at at_lookup
          cases at_lookup
        · rw [calling] at at_return
          cases at_return

theorem Placed.first {result : TaskResult} (placed : d.Placed []) : d.Placed [result] where
  own := placed.own
  beaten _ _ := List.cons_ne_nil _ _
  winner other at_end valid := absurd (placed.winner other at_end valid) (by simp)
  agrees other at_end valid := by
    obtain ⟨_, none, _⟩ := placed.agrees other at_end valid
    cases none
  idle late := absurd rfl (placed.idle late).1

/-- The first validated result is published. Before that nobody has one to
show, so it is everybody's. -/
theorem Sound.publishes (sound : f.Sound jobId taskId) (here : f.deliveries[index]? = some d) {result : TaskResult}
    (publishing : d.execution.point = .publish result) {store : InMemoryStore MemoryValue}
    {record : MemoryRecord MemoryValue} (free : f.store.records.get? (Ns.results jobId, taskId.display) = none)
    (lasting : store.Lasting) (value : record.value = .result result)
    (records : store.records = f.store.records.insert (Ns.results jobId, taskId.display) record) :
    Sound jobId taskId { f with
      store := store
      deliveries := f.deliveries.set index (moved d (.completed result))
      published := f.published ++ [result] } := by
  have inside := List.mem_of_getElem? here
  have unpublished := sound.absent free
  have executions : ∀ key, store.records.get? (Ns.executions jobId, key) =
      f.store.records.get? (Ns.executions jobId, key) := by
    intro key
    rw [records]
    refine Dict.get?_insert_of_ne ?_
    intro same
    exact Ns.results_ne_executions jobId (congrArg Prod.fst same).symm
  have stored : store.records.get? (Ns.results jobId, taskId.display) = some record := by
    rw [records]
    exact Dict.get?_insert_self
  have placed : (moved d (.completed result)).Placed [result] := by
    refine ⟨?_, ?_, ?_, ?_, fun late => absurd unpublished ((sound.placed d inside).idle late).1⟩ <;>
      intro other same <;> cases same
    exact fun _ => rfl
  refine sound.frame here lasting ?_ ?_ executions ?_ ?_ ?_
  · intro none
    rw [stored] at none
    cases none
  · intro found same
    rw [stored] at same
    cases same
    exact ⟨result, value, by rw [unpublished]; rfl, (sound.placed d inside).own result publishing⟩
  · exact fun holds => Bool.noConfusion holds
  · rw [unpublished]
    exact placed
  · intro other member
    have before := sound.placed other member
    rw [unpublished] at before ⊢
    exact Placed.first before

theorem Sound.resultsKey (sound : f.Sound jobId taskId) (here : f.deliveries[index]? = some d) :
    d.execution.resultsKey = (Ns.results jobId, taskId.display) := by
  obtain ⟨id, job⟩ := sound.fits d (List.mem_of_getElem? here)
  rw [Execution.resultsKey, id, job]

/-- Looking a result up finds what was published. -/
theorem Sound.storedResult (sound : f.Sound jobId taskId) (here : f.deliveries[index]? = some d) (now : DateTime) :
    (f.published = [] ∧ d.execution.storedResult f.store now = .ok none) ∨
    (∃ winner, f.published = [winner] ∧ winner.deduplicated = false ∧
      d.execution.storedResult f.store now = .ok (some winner)) := by
  unfold Execution.storedResult
  rw [sound.resultsKey here, sound.lasting.get]
  cases stored : f.store.records.get? (Ns.results jobId, taskId.display) with
  | none => exact Or.inl ⟨sound.absent stored, rfl⟩
  | some record =>
    obtain ⟨winner, value, published, own⟩ := sound.present record stored
    refine Or.inr ⟨winner, published, own, ?_⟩
    simp only [MemoryRecord.parseResult, value]
    rfl

/-- Returning the published result, marked as deduplicated. -/
theorem placed_winner {winner : TaskResult} (own : winner.deduplicated = false) (published : f.published = [winner]) :
    (moved d (.returned (.ok { winner with deduplicated := true }))).Placed f.published := by
  refine ⟨?_, ?_, ?_, ?_, fun _ => ⟨by simp [published], Or.inr ⟨_, rfl⟩⟩⟩ <;> intro result same <;> cases same
  intro _
  refine ⟨winner, published, ?_⟩
  cases winner
  cases own
  rfl

theorem placed_error {e : SwarmError} (early : d.late = false) :
    (moved d (.returned (.error e))).Placed f.published := by
  refine ⟨?_, ?_, ?_, ?_, fun late => absurd late (by simp [moved, early])⟩ <;> intro result same <;> cases same

/-- An execution that has got past the lookup did not start after a publication. -/
theorem Sound.not_late (sound : f.Sound jobId taskId) (here : f.deliveries[index]? = some d)
    (busy : d.execution.point ≠ .lookup ∧ ∀ answer, d.execution.point ≠ .returned answer) : d.late = false := by
  cases late : d.late with
  | false => rfl
  | true =>
    rcases ((sound.placed d (List.mem_of_getElem? here)).idle late).2 with looking | ⟨answer, done⟩
    · exact absurd looking busy.1
    · exact absurd done (busy.2 answer)

theorem Sound.checkpointed (sound : f.Sound jobId taskId) (here : f.deliveries[index]? = some d) (seq : Nat)
    (label : String) (state : Json) (input : StepInput) {point : ExecutePoint}
    (holds : point.holds = true → d.execution.point.holds = true) (placed : (moved d point).Placed f.published) :
    Sound jobId taskId { f with
      store := d.execution.writeCheckpoint f.store seq label state input
      deliveries := f.deliveries.set index (moved d point) } := by
  obtain ⟨lasting, results, executions⟩ := d.execution.writeCheckpoint_frame sound.lasting seq label state input
  rw [sound.resultsKey here] at results
  rw [(sound.fits d (List.mem_of_getElem? here)).2] at executions
  exact sound.quiet here lasting results executions holds placed

/-- One step of one execution, one case for each await of `Agent::execute`. -/
theorem Sound.advance (tools : TextTools) (sound : f.Sound jobId taskId) (here : f.deliveries[index]? = some d)
    (input : StepInput) : (f.advance tools index d input).Sound jobId taskId := by
  have inside := List.mem_of_getElem? here
  have unchanged : ∀ {point : ExecutePoint}, (point.holds = true → d.execution.point.holds = true) →
      (moved d point).Placed f.published →
      Sound jobId taskId { f with deliveries := f.deliveries.set index (moved d point) } :=
    fun holds placed => sound.quiet here sound.lasting rfl (fun _ => rfl) holds placed
  obtain ⟨_, job⟩ := sound.fits d inside
  unfold Fleet.advance Execution.step
  cases stands : d.execution.point with
  | lookup =>
    rcases sound.storedResult here input.now with ⟨unpublished, run⟩ | ⟨winner, published, own, run⟩
    · simp only [run]
      have early : d.late = false := by
        cases late : d.late with
        | false => rfl
        | true => exact absurd unpublished ((sound.placed d inside).idle late).1
      exact unchanged (fun holds => Bool.noConfusion holds) (placed_plain rfl early)
    · simp only [run]
      exact unchanged (fun holds => Bool.noConfusion holds) (placed_winner own published)
  | claimAttempt =>
    have early := sound.not_late here (by simp [stands])
    have target : (d.execution.claimWrite input.now).target = (Ns.executions jobId, d.execution.task.attemptKey) := by
      rw [← job]
      rfl
    cases stored : f.store.records.get? (d.execution.claimWrite input.now).target with
    | none =>
      obtain ⟨store, run, records, lasting⟩ := sound.lasting.claim_absent rfl stored input.now input.id
      simp only [run]
      rw [target] at stored records
      exact sound.claimed here stored lasting records early
    | some record =>
      have run := sound.lasting.claim_present stored input.now input.id
      simp only [run]
      exact unchanged (fun holds => Bool.noConfusion holds) (placed_plain rfl early)
  | recheck =>
    have early := sound.not_late here (by simp [stands])
    rcases sound.storedResult here input.now with ⟨_, run⟩ | ⟨winner, published, own, run⟩
    · simp only [run]
      exact unchanged (fun holds => Bool.noConfusion holds) (placed_error early)
    · simp only [run]
      exact unchanged (fun holds => Bool.noConfusion holds) (placed_winner own published)
  | started =>
    have early := sound.not_late here (by simp [stands])
    exact sound.checkpointed here _ _ _ input (fun _ => by rw [stands]; rfl) (placed_plain rfl early)
  | call =>
    have early := sound.not_late here (by simp [stands])
    cases answer : input.completion with
    | error e => exact sound.called here stands rfl (placed_error early)
    | ok response => exact sound.called here stands rfl (placed_plain rfl early)
  | responded response =>
    have early := sound.not_late here (by simp [stands])
    simp only
    split
    · rename_i valid
      refine sound.checkpointed here _ _ _ input (fun holds => Bool.noConfusion holds) ?_
      refine ⟨?_, ?_, ?_, ?_, fun late => absurd late (by simp [moved, early])⟩ <;> intro result same <;> cases same
      rfl
    · rename_i invalid
      refine sound.checkpointed here _ _ _ input (fun holds => Bool.noConfusion holds) ?_
      refine ⟨?_, ?_, ?_, ?_, fun late => absurd late (by simp [moved, early])⟩ <;> intro result same <;> cases same
      exact fun valid => absurd valid invalid
  | publish result =>
    have early := sound.not_late here (by simp [stands])
    have target : (d.execution.publishWrite result).target = (Ns.results jobId, taskId.display) :=
      sound.resultsKey here
    cases stored : f.store.records.get? (d.execution.publishWrite result).target with
    | none =>
      obtain ⟨store, run, records, lasting⟩ := sound.lasting.claim_absent rfl stored input.now input.id
      simp only [run]
      rw [target] at stored records
      exact sound.publishes here stands stored lasting rfl records
    | some record =>
      have run := sound.lasting.claim_present stored input.now input.id
      simp only [run]
      rw [target] at stored
      obtain ⟨winner, _, published, _⟩ := sound.present record stored
      refine unchanged (fun holds => Bool.noConfusion holds) ?_
      refine ⟨?_, ?_, ?_, ?_, fun late => absurd late (by simp [moved, early])⟩ <;> intro result same <;> cases same
      simp [published]
  | reread result =>
    have beaten := (sound.placed d inside).beaten result stands
    rcases sound.storedResult here input.now with ⟨unpublished, _⟩ | ⟨winner, published, own, run⟩
    · exact absurd unpublished beaten
    · simp only [run]
      exact unchanged (fun holds => Bool.noConfusion holds) (placed_winner own published)
  | completed result =>
    have early := sound.not_late here (by simp [stands])
    have wins := (sound.placed d inside).winner result stands
    refine sound.checkpointed here _ _ _ input (fun holds => Bool.noConfusion holds) ?_
    refine ⟨?_, ?_, ?_, ?_, fun late => absurd late (by simp [moved, early])⟩ <;> intro other same <;> cases same
    intro valid
    rcases sound.storedResult here input.now with ⟨unpublished, _⟩ | ⟨winner, published, own, _⟩
    · rw [wins valid] at unpublished
      cases unpublished
    · rw [wins valid] at published
      cases published
      refine ⟨result, wins valid, ?_⟩
      rw [← own]
  | returned answer =>
    have same : moved d (.returned answer) = d := by
      rw [← stands]
      rfl
    exact unchanged (fun holds => Bool.noConfusion holds) (by rw [same]; exact sound.placed d inside)

theorem Sound.deliver (sound : f.Sound jobId taskId) (agentId : AgentId) {task : TaskNode} (id : task.id = taskId)
    (job : task.jobId = jobId) : (f.deliver agentId task).Sound jobId taskId := by
  have old : ∀ {other : Delivery}, other ∈ (f.deliver agentId task).deliveries →
      other ∈ f.deliveries ∨ other = ⟨⟨agentId, task, .lookup⟩, !f.published.isEmpty⟩ := by
    intro other member
    rcases List.mem_append.mp member with old | new
    · exact Or.inl old
    · exact Or.inr (List.mem_singleton.mp new)
  have holding : ∀ {i : Nat} {other : Delivery}, (f.deliver agentId task).deliveries[i]? = some other →
      other.execution.point.holds = true → f.deliveries[i]? = some other := by
    intro i other found holds
    simp only [Fleet.deliver, List.getElem?_append] at found
    split at found
    · exact found
    · rw [List.mem_singleton.mp (List.mem_of_getElem? found)] at holds
      cases holds
  refine ⟨?_, sound.lasting, sound.absent, sound.present, sound.distinct, ?_, ?_, ?_, sound.spent, ?_, ?_⟩
  · intro other member
    rcases old member with before | rfl
    · exact sound.fits other before
    · exact ⟨id, job⟩
  · intro i j left right foundLeft foundRight leftHolds rightHolds same
    exact sound.exclusive i j left right (holding foundLeft leftHolds) (holding foundRight rightHolds) leftHolds
      rightHolds same
  · intro other member holds
    rcases old member with before | rfl
    · exact sound.unspent other before holds
    · cases holds
  · intro other member holds
    rcases old member with before | rfl
    · exact sound.held other before holds
    · cases holds
  · intro other member
    rcases old member with before | rfl
    · exact sound.placed other before
    · refine ⟨?_, ?_, ?_, ?_, fun late => ⟨by simpa [Fleet.deliver] using late, Or.inl rfl⟩⟩ <;>
        intro result same <;> cases same
  · intro call member
    obtain ⟨caller, found, late⟩ := sound.early call member
    refine ⟨caller, ?_, late⟩
    simp only [Fleet.deliver, List.getElem?_append_left (List.getElem?_eq_some_iff.mp found).1]
    exact found

theorem Reach.sound {tools : TextTools} (reach : Reach tools jobId taskId f) : f.Sound jobId taskId := by
  induction reach with
  | start =>
    have empty : ∀ key record, new.store.records.get? key ≠ some record := by
      intro _ _ stored
      cases stored
    refine ⟨?_, fun key record stored => absurd stored (empty key record), fun _ => rfl,
      fun record stored => absurd stored (empty _ record), List.nodup_nil, ?_, ?_, ?_, ?_, ?_, ?_⟩ <;> simp [new]
  | deliver _ id job ih => exact ih.deliver _ id job
  | advance _ here ih => exact ih.advance tools here _

/-- Effectively-once execution, over every interleaving: at most one gateway
call under each attempt key, at most one published result, the published result
as the content of every validated answer, and no call by an execution that
started after the publication. -/
theorem Reach.effectively_once {tools : TextTools} (reach : Reach tools jobId taskId f) :
    (f.calls.map Prod.snd).Nodup ∧
    f.published.length ≤ 1 ∧
    (∀ d ∈ f.deliveries, ∀ result, d.execution.point = .returned (.ok result) → result.passedValidation = true →
      ∃ winner record, f.published = [winner] ∧
        f.store.records.get? (Ns.results jobId, taskId.display) = some record ∧ record.value = .result winner ∧
        { result with deduplicated := false } = winner) ∧
    (∀ (i : Nat) (d : Delivery), f.deliveries[i]? = some d → d.late = true → ∀ call ∈ f.calls, call.1 ≠ i) := by
  have sound := reach.sound
  refine ⟨sound.distinct, ?_, ?_, ?_⟩
  · cases stored : f.store.records.get? (Ns.results jobId, taskId.display) with
    | none => simp [sound.absent stored]
    | some record =>
      obtain ⟨winner, _, published, _⟩ := sound.present record stored
      simp [published]
  · intro d member result answered valid
    obtain ⟨winner, published, same⟩ := (sound.placed d member).agrees result answered valid
    cases stored : f.store.records.get? (Ns.results jobId, taskId.display) with
    | none =>
      rw [sound.absent stored] at published
      cases published
    | some record =>
      obtain ⟨stays, value, again, _⟩ := sound.present record stored
      rw [published] at again
      cases again
      exact ⟨winner, record, published, rfl, value, same⟩
  · rintro i d found late call member rfl
    obtain ⟨caller, there, early⟩ := sound.early call member
    rw [found] at there
    cases there
    rw [late] at early
    cases early

/-- The execution at `index` takes a step, if there is one. -/
def advanceAt (tools : TextTools) (index : Nat) (f : Fleet) (input : StepInput) : Fleet :=
  match f.deliveries[index]? with
  | none => f
  | some d => f.advance tools index d input

theorem Reach.advanceAt {tools : TextTools} (reach : Reach tools jobId taskId f) (index : Nat) (input : StepInput) :
    Reach tools jobId taskId (f.advanceAt tools index input) := by
  unfold Fleet.advanceAt
  cases found : f.deliveries[index]? with
  | none => exact reach
  | some d => exact .advance reach found

def sampleTools : TextTools := ⟨fun _ => .error "expected value at line 1 column 1", id⟩

def sampleTask : TaskNode := TaskNode.new ⟨1⟩ ⟨2⟩ .work "a" "b" 0

def sampleInput (now : DateTime) : StepInput :=
  ⟨now, ⟨now.toNat⟩, 5, .ok ⟨"ok", "mock", "mock-small", 3, 4, 0, 1, false, "stop"⟩⟩

/-- Two deliveries of one attempt: the first runs to its end, then the second one looks its result up. -/
def sampleFleet : Fleet :=
  ((((new.deliver ⟨7⟩ sampleTask).deliver ⟨8⟩ sampleTask).advanceAt sampleTools 0 (sampleInput 1)
    |>.advanceAt sampleTools 0 (sampleInput 2) |>.advanceAt sampleTools 0 (sampleInput 3)
    |>.advanceAt sampleTools 0 (sampleInput 4) |>.advanceAt sampleTools 0 (sampleInput 5)
    |>.advanceAt sampleTools 0 (sampleInput 6) |>.advanceAt sampleTools 0 (sampleInput 7)).advanceAt sampleTools 1
      (sampleInput 8))

theorem effectively_once_duplicate :
    sampleFleet.calls.length = 1 ∧ sampleFleet.published.length = 1 ∧ (sampleFleet.calls.map Prod.snd).Nodup := by
  have reach : Reach sampleTools ⟨2⟩ ⟨1⟩ sampleFleet := by
    refine Reach.advanceAt ?_ 1 _
    iterate 7 refine Reach.advanceAt ?_ 0 _
    exact .deliver (.deliver .start rfl rfl) rfl rfl
  refine ⟨by decide +kernel, by decide +kernel, ?_⟩
  exact (Reach.effectively_once reach).1

end Swarm.Fleet
