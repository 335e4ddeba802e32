import Mathlib.Data.List.Induction
import Swarm.Memory.Store

namespace Swarm

/-- A call that changes a store, executed as a whole. -/
inductive MemoryCall (V : Type) where
  | put (write : MemoryWrite V) (id : MemoryId)
  | compareAndSwap (write : MemoryWrite V) (expected : Nat) (id : MemoryId)
  | claim (write : MemoryWrite V) (id : MemoryId)
  | delete (key : RecordKey)
  | compact
  | purgeJob (jobId : JobId)
  deriving DecidableEq

/-- The operations that leave a record behind. -/
def MemoryOperation.isWrite : MemoryOperation → Bool
  | create | put | compareAndSwap => true
  | delete | expire => false

namespace InMemoryStore
variable {V : Type}

def perform (s : InMemoryStore V) (call : MemoryCall V × DateTime) : InMemoryStore V :=
  match call.1 with
  | .put write id => (s.put write call.2 id).2
  | .compareAndSwap write expected id => (s.compareAndSwap write expected call.2 id).2
  | .claim write id => (s.claim write call.2 id).2
  | .delete key => (s.delete key).2
  | .compact => (s.compact call.2).2
  | .purgeJob jobId => (s.purgeJob jobId).2

/-- A new store after some calls. -/
def performed (calls : List (MemoryCall V × DateTime)) : InMemoryStore V := calls.foldl perform .new

/-- The audit trail of a key tells whether there is a record, and in which version. -/
def Told (s : InMemoryStore V) (key : RecordKey) : Prop :=
  ((s.records.get? key).isSome = true ↔ ∃ entry, (s.audit key).getLast? = some entry ∧
    entry.operation.isWrite = true) ∧
    ∀ record entry, s.records.get? key = some record → (s.audit key).getLast? = some entry →
      entry.version = record.version

/-- A call that removes no record behind the back of the audit trail. -/
def Harmless (s : InMemoryStore V) (call : MemoryCall V × DateTime) : Prop :=
  ∀ jobId, call.1 = .purgeJob jobId → ∀ key record, s.records.get? key = some record → record.jobId ≠ some jobId

/-- Records stand under their keys, and all trails are complete. -/
structure Trailed (s : InMemoryStore V) : Prop where
  keyed : ∀ key record, s.records.get? key = some record → (record.nspace, record.key) = key
  told : ∀ key, s.Told key

variable {s : InMemoryStore V}

theorem trailed_new : (new : InMemoryStore V).Trailed := by
  refine ⟨fun key record found => (by cases found),
    fun key => ⟨⟨fun present => (by cases present), ?_⟩, fun _ _ found => (by cases found)⟩⟩
  rintro ⟨entry, last, _⟩
  cases last

theorem audit_note (record : MemoryRecord V) (operation : MemoryOperation) (actor : String) (key : RecordKey) :
    (s.note record operation actor).audit key = if key = (record.nspace, record.key) then
      s.audit key ++
        [⟨record.nspace, record.key, record.version, operation, actor, record.updatedAt⟩] else s.audit key := by
  unfold audit note
  dsimp only
  rw [Dict.get?_insert]
  split
  · rename_i same
    rw [same]
    rfl
  · rfl

/-- A record is stored and the write is noted. -/
theorem Trailed.store (trailed : s.Trailed) {key : RecordKey} {record : MemoryRecord V}
    (own : (record.nspace, record.key) = key) {operation : MemoryOperation} (write : operation.isWrite = true)
    (actor : String) :
    ({ s with records := s.records.insert key record }.note record operation actor).Trailed := by
  have audit :=
    fun other => audit_note (s := { s with records := s.records.insert key record }) record operation actor other
  have records : ∀ other,
    ({ s with records := s.records.insert key record }.note record operation actor).records.get? other =
      if other = key then some record else s.records.get? other := fun other => Dict.get?_insert
  constructor
  · intro other found there
    rw [records] at there
    split at there
    · rename_i same
      cases there
      exact own.trans same.symm
    · exact trailed.keyed other found there
  · intro other
    unfold Told
    rw [records, audit, own]
    by_cases same : other = key
    · rw [if_pos same, if_pos same, List.getLast?_append_cons]
      refine ⟨⟨fun _ => ⟨_, rfl, write⟩, fun _ => rfl⟩, ?_⟩
      rintro _ _ ⟨⟩ ⟨⟩
      rfl
    · rw [if_neg same, if_neg same]
      exact trailed.told other

/-- A record is removed and that is noted. -/
theorem Trailed.remove (trailed : s.Trailed) {key : RecordKey} {record : MemoryRecord V}
    (found : s.records.get? key = some record) {operation : MemoryOperation} (ends : operation.isWrite = false)
    (actor : String) :
    ({ s with records := s.records.erase key }.note record operation actor).Trailed := by
  have own := trailed.keyed key record found
  have audit := fun other => audit_note (s := { s with records := s.records.erase key }) record operation actor other
  have records : ∀ other, ({ s with records := s.records.erase key }.note record operation actor).records.get? other =
      if other = key then none else s.records.get? other := fun other => Dict.get?_erase
  constructor
  · intro other kept there
    rw [records] at there
    split at there
    · cases there
    · exact trailed.keyed other kept there
  · intro other
    unfold Told
    rw [records, audit, own]
    by_cases same : other = key
    · rw [if_pos same, if_pos same, List.getLast?_append_cons]
      refine ⟨⟨fun none => (by cases none), ?_⟩, fun _ _ there => (by cases there)⟩
      rintro ⟨_, ⟨⟩, write⟩
      exact absurd (ends.symm.trans write) (by decide)
    · rw [if_neg same, if_neg same]
      exact trailed.told other

/-- A write over an old record stays under its key. -/
theorem Trailed.bumped_key (trailed : s.Trailed) {write : MemoryWrite V} {occupied : MemoryRecord V}
    (found : s.records.get? write.target = some occupied) (now : DateTime) :
    ((bumped occupied write now).nspace, (bumped occupied write now).key) = write.target :=
  trailed.keyed _ occupied found

theorem fresh_key (write : MemoryWrite V) (now : DateTime) (id : MemoryId) :
    ((fresh write now id).nspace, (fresh write now id).key) = write.target := rfl

theorem Trailed.put (trailed : s.Trailed) (write : MemoryWrite V) (now : DateTime) (id : MemoryId) :
    (s.put write now id).2.Trailed := by
  have created : MemoryOperation.create.isWrite = true := rfl
  have operation : ∀ version : Nat, (if version = 1 then MemoryOperation.create else MemoryOperation.put).isWrite =
      true := by
    intro version
    split <;> rfl
  unfold InMemoryStore.put
  cases found : s.records.get? write.target with
  | none => exact trailed.store (fresh_key write now id) created write.actor
  | some occupied =>
    dsimp only
    by_cases expired : occupied.isExpired now = true
    · rw [if_pos expired]
      exact trailed.store (fresh_key write now id) (operation _) write.actor
    · rw [if_neg expired]
      exact trailed.store (trailed.bumped_key found now) (operation _) write.actor

theorem Trailed.compareAndSwap (trailed : s.Trailed) (write : MemoryWrite V) (expected : Nat) (now : DateTime)
    (id : MemoryId) :
    (s.compareAndSwap write expected now id).2.Trailed := by
  have created : MemoryOperation.create.isWrite = true := rfl
  have swapped : MemoryOperation.compareAndSwap.isWrite = true := rfl
  unfold InMemoryStore.compareAndSwap
  cases found : s.records.get? write.target with
  | none =>
    dsimp only
    by_cases conflict : expected ≠ versionAbsent
    · rw [if_pos conflict]
      exact trailed
    · rw [if_neg conflict]
      exact trailed.store (fresh_key write now id) created write.actor
  | some occupied =>
    dsimp only
    generalize (if occupied.isExpired now = true then versionAbsent else occupied.version) = current
    by_cases conflict : current ≠ expected
    · rw [if_pos conflict]
      exact trailed
    · rw [if_neg conflict]
      by_cases absent : current = versionAbsent
      · rw [if_pos absent]
        exact trailed.store (fresh_key write now id) swapped write.actor
      · rw [if_neg absent]
        exact trailed.store (trailed.bumped_key found now) swapped write.actor

theorem Trailed.claim (trailed : s.Trailed) (write : MemoryWrite V) (now : DateTime) (id : MemoryId) :
    (s.claim write now id).2.Trailed := by
  have swapped := trailed.compareAndSwap write versionAbsent now id
  unfold InMemoryStore.claim
  split <;> rename_i run <;> rw [run] at swapped <;> exact swapped

theorem Trailed.delete (trailed : s.Trailed) (key : RecordKey) : (s.delete key).2.Trailed := by
  unfold InMemoryStore.delete
  cases found : s.records.get? key with
  | none => exact trailed
  | some record => exact trailed.remove found rfl "unknown"

theorem Trailed.compact (trailed : s.Trailed) (now : DateTime) : (s.compact now).2.Trailed := by
  have rounds : ∀ keys : List RecordKey, ∀ s : InMemoryStore V, s.Trailed → (keys.foldl removeExpired s).Trailed := by
    intro keys
    induction keys with
    | nil => exact fun _ trailed => trailed
    | cons key rest ih =>
      intro s trailed
      refine ih _ ?_
      unfold removeExpired
      cases found : s.records.get? key with
      | none => exact trailed
      | some record => exact trailed.remove found rfl "system"
  exact rounds _ s trailed

theorem mem_collectOwned {jobId : JobId} {key : RecordKey} :
    key ∈ s.collectOwned jobId ↔ ∃ record, s.records.get? key = some record ∧ record.jobId = some jobId := by
  simp only [collectOwned, List.mem_map, List.mem_filter, decide_eq_true_eq]
  constructor
  · rintro ⟨⟨_, record⟩, ⟨entry, own⟩, rfl⟩
    exact ⟨record, Dict.get?_eq_some.mpr entry, own⟩
  · rintro ⟨record, found, own⟩
    exact ⟨(key, record), ⟨Dict.get?_eq_some.mp found, own⟩, rfl⟩

/-- A purge takes records away and leaves the trails alone. -/
theorem removeOwned_rounds (keys : List RecordKey) (s : InMemoryStore V) :
    (keys.foldl removeOwned s).history = s.history ∧
      ∀ key, (keys.foldl removeOwned s).records.get? key = if key ∈ keys then none else s.records.get? key := by
  induction keys generalizing s with
  | nil => exact ⟨rfl, fun key => by simp⟩
  | cons first rest ih =>
    obtain ⟨history, records⟩ := ih (s.removeOwned first)
    refine ⟨history, ?_⟩
    intro key
    have once : (s.removeOwned first).records.get? key = if key = first then none
      else s.records.get? key := Dict.get?_erase
    rw [List.foldl_cons, records, once]
    by_cases same : key = first <;> by_cases later : key ∈ rest <;> simp [same, later]

/-- Each call keeps the trails complete, unless it purges a record. -/
theorem Trailed.perform (trailed : s.Trailed) {call : MemoryCall V × DateTime} (harmless : s.Harmless call) :
    (s.perform call).Trailed := by
  obtain ⟨call, now⟩ := call
  cases call with
  | put write id => exact trailed.put write now id
  | compareAndSwap write expected id => exact trailed.compareAndSwap write expected now id
  | claim write id => exact trailed.claim write now id
  | delete key => exact trailed.delete key
  | compact => exact trailed.compact now
  | purgeJob jobId =>
    have nothing : s.collectOwned jobId = [] := by
      refine List.eq_nil_iff_forall_not_mem.mpr fun key listed => ?_
      obtain ⟨record, found, own⟩ := mem_collectOwned.mp listed
      exact harmless jobId rfl key record found own
    have same : s.perform (.purgeJob jobId, now) = s := by
      change (s.collectOwned jobId).foldl removeOwned s = s
      rw [nothing]
      rfl
    rw [same]
    exact trailed

/-- A record that was purged is still told of. -/
theorem Trailed.harmless_of_told (trailed : s.Trailed) {call : MemoryCall V × DateTime}
    (told : ∀ key, (s.perform call).Told key) : s.Harmless call := by
  obtain ⟨call, now⟩ := call
  rintro jobId ⟨⟩ key record found own
  obtain ⟨history, records⟩ := removeOwned_rounds (s.collectOwned jobId) s
  have gone : (s.perform (.purgeJob jobId, now)).records.get? key = none :=
    (records key).trans (if_pos (mem_collectOwned.mpr ⟨record, found, own⟩))
  have trail : (s.perform (.purgeJob jobId, now)).audit key = s.audit key := by
    unfold audit
    exact congrArg (fun history => (Dict.get? history key).getD []) history
  have before := (trailed.told key).1.mp (by rw [found]; rfl)
  rw [← trail] at before
  have after := (told key).1.mpr before
  rw [gone] at after
  cases after

/-- The trails are complete in every state of a run exactly if no purge of the run finds a record to remove. -/
theorem trail_complete_iff (calls : List (MemoryCall V × DateTime)) :
    (∀ front, front <+: calls → ∀ key, (performed front).Told key) ↔
      ∀ front call rest, calls = front ++ call :: rest → (performed front).Harmless call := by
  have along : ∀ calls : List (MemoryCall V × DateTime), (∀ front call rest, calls = front ++ call :: rest →
      (performed front).Harmless call) → (performed calls).Trailed := by
    intro calls
    induction calls using List.reverseRecOn with
    | nil => exact fun _ => trailed_new
    | append_singleton calls call ih =>
      intro harmless
      have before := ih (fun front other rest split => harmless front other (rest ++ [call]) (by rw [split]; simp))
      rw [performed, List.foldl_append]
      exact before.perform (harmless calls call [] rfl)
  constructor
  · intro told
    have trailed : ∀ front, front <+: calls → (performed front).Trailed := by
      intro front
      induction front using List.reverseRecOn with
      | nil => exact fun _ => trailed_new
      | append_singleton front call ih =>
        intro part
        have before := ih ((List.prefix_append front [call]).trans part)
        have step : performed (front ++ [call]) = (performed front).perform call := List.foldl_append
        have after := told _ part
        rw [step] at after ⊢
        exact before.perform (before.harmless_of_told after)
    rintro front call rest rfl
    have step : performed (front ++ [call]) = (performed front).perform call := List.foldl_append
    have after := told (front ++ [call]) ⟨rest, by simp⟩
    rw [step] at after
    exact (trailed front ⟨call :: rest, rfl⟩).harmless_of_told after
  · rintro harmless front ⟨rest, whole⟩ key
    refine (along front ?_).told key
    intro before call after split
    exact harmless before call (after ++ rest) (by rw [← whole, split]; simp)

/-- A job writes one record, and then it is purged. -/
theorem trail_purged :
    ¬ (performed [(.put ((MemoryWrite.new "plan" "k" 1 "agent").forJob ⟨0⟩) ⟨0⟩, 0), (.purgeJob ⟨0⟩, 0)] :
    InMemoryStore Nat).Told ("plan", "k") := by
  intro told
  have present := told.1.mpr ⟨⟨"plan", "k", 1, .create, "agent", 0⟩, by decide, rfl⟩
  revert present
  decide

end InMemoryStore

end Swarm
