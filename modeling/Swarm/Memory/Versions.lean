import Swarm.Memory.Compaction
import Swarm.Memory.Timed

namespace Swarm

namespace InMemoryStore
variable {V : Type} {s : InMemoryStore V} {write : MemoryWrite V} {now : DateTime} {id : MemoryId}

/-- A blind write only looks at what is visible. -/
theorem put_answer (s : InMemoryStore V) (write : MemoryWrite V) (now : DateTime) (id : MemoryId) :
    (s.put write now id).1 = match s.get write.target now with
      | some old => bumped old write now
      | none => fresh write now id := by
  cases stored : s.records.get? write.target with
  | none => simp only [put, stored, get_eq_none_of_absent stored]
  | some occupied =>
    cases expired : occupied.isExpired now with
    | true => simp only [put, stored, expired, if_true, get_eq_none_of_expired stored expired]
    | false =>
      simp only [put, stored, expired, Bool.false_eq_true, if_false, get_eq_some.mpr ⟨stored, expired⟩]

/-- So does a swap. -/
theorem compareAndSwap_answer (s : InMemoryStore V) (write : MemoryWrite V) (expected : Nat) (now : DateTime)
    (id : MemoryId) :
    (s.compareAndSwap write expected now id).1 =
      if s.visibleVersion write.target now ≠ expected then
        .error (.versionConflict write.nspace write.key expected (s.visibleVersion write.target now))
      else .ok (match s.get write.target now with
        | some old => if old.version = versionAbsent then fresh write now id else bumped old write now
        | none => fresh write now id) := by
  unfold visibleVersion
  cases stored : s.records.get? write.target with
  | none =>
    rw [get_eq_none_of_absent stored]
    by_cases conflict : expected = versionAbsent
    · simp [compareAndSwap, stored, conflict]
    · simp [compareAndSwap, stored, conflict, Ne.symm conflict]
  | some occupied =>
    cases expired : occupied.isExpired now with
    | true =>
      rw [get_eq_none_of_expired stored expired]
      by_cases conflict : versionAbsent = expected <;> simp [compareAndSwap, stored, expired, conflict]
    | false =>
      rw [get_eq_some.mpr ⟨stored, expired⟩]
      by_cases conflict : occupied.version = expected <;> simp [compareAndSwap, stored, expired, conflict]

/-- What is stored under the key is not removed and does not expire by this call. -/
def Survives (s : InMemoryStore V) (key : RecordKey) (call : MemoryCall V × DateTime) : Prop :=
  call.1 ≠ .delete key ∧ ∀ record, s.records.get? key = some record →
    record.isExpired call.2 = false ∧ ∀ jobId, call.1 = .purgeJob jobId → record.jobId ≠ some jobId

/-- The same of each call of a sequence. -/
def SurvivesAll (key : RecordKey) : InMemoryStore V → List (MemoryCall V × DateTime) → Prop
  | _, [] => True
  | s, call :: rest => s.Survives key call ∧ SurvivesAll key (Timed.perform s call) rest

/-- There is a record of the key, and its version is not that of an absent one. -/
def Occupied (s : InMemoryStore V) (key : RecordKey) : Prop :=
  ∃ record, s.records.get? key = some record ∧ 1 ≤ record.version

theorem Occupied.of_same {key : RecordKey} (occupied : s.Occupied key) {s' : InMemoryStore V}
    (same : s'.records.get? key = s.records.get? key) : s'.Occupied key := by
  obtain ⟨record, found, positive⟩ := occupied
  exact ⟨record, same.trans found, positive⟩

theorem Occupied.insert {key target : RecordKey} (occupied : s.Occupied key) {s' : InMemoryStore V}
    {record : MemoryRecord V} (stored : s'.records = s.records.insert target record)
    (positive : 1 ≤ record.version) : s'.Occupied key := by
  by_cases same : key = target
  · refine ⟨record, ?_, positive⟩
    rw [stored, same]
    exact Dict.get?_insert_self
  · refine occupied.of_same ?_
    rw [stored]
    exact Dict.get?_insert_of_ne same

/-- The second pass of a compaction, by induction on the keys it has collected. -/
theorem removeExpired_entries (keys : List RecordKey) (s : InMemoryStore V) :
    (keys.foldl removeExpired s).records.entries =
      s.records.entries.filter (fun entry => decide (entry.1 ∉ keys)) := by
  induction keys generalizing s with
  | nil => simp
  | cons first rest ih =>
    have once : (s.removeExpired first).records.entries =
        s.records.entries.filter (fun entry => decide (entry.1 ≠ first)) := by
      unfold removeExpired
      cases stored : s.records.get? first with
      | none =>
        symm
        rw [List.filter_eq_self]
        intro entry member
        have absent := Dict.get?_eq_none.mp stored
        exact decide_eq_true (fun same => absent (same ▸ List.mem_map_of_mem member))
      | some record =>
        simp only [note_records, Dict.erase, Dict.retain_entries]
        refine List.filter_congr ?_
        intro entry _
        by_cases same : entry.1 = first <;> simp [bne, same]
    rw [List.foldl_cons, ih, once, List.filter_filter]
    refine List.filter_congr ?_
    intro entry _
    by_cases same : entry.1 = first <;> simp [same]

/-- A compaction takes the expired records away and no others. -/
theorem compact_entries (s : InMemoryStore V) (now : DateTime) :
    (s.compact now).2.records.entries = s.records.entries.filter (fun entry => !entry.2.isExpired now) := by
  refine (removeExpired_entries _ s).trans (List.filter_congr ?_)
  rintro ⟨key, record⟩ member
  have stored := Dict.get?_eq_some.mpr member
  cases expired : record.isExpired now with
  | true =>
    have collected : key ∈ s.collectExpired now :=
      List.mem_map.mpr ⟨(key, record), List.mem_filter.mpr ⟨member, expired⟩, rfl⟩
    simp [collected]
  | false =>
    have spared : key ∉ s.collectExpired now := by
      intro collected
      rw [MemorySystem.mem_collectExpired collected stored] at expired
      cases expired
    simp [spared]

theorem compact_get? (s : InMemoryStore V) (key : RecordKey) (now : DateTime) :
    (s.compact now).2.records.get? key = s.get key now := by
  ext record
  rw [Dict.get?_eq_some, compact_entries, List.mem_filter, get_eq_some, Dict.get?_eq_some]
  simp

/-- One call that the record of the key survives. -/
theorem Occupied.perform {key : RecordKey} (occupied : s.Occupied key) {call : MemoryCall V × DateTime}
    (survives : s.Survives key call) : (s.perform call).Occupied key := by
  obtain ⟨call, now⟩ := call
  cases call with
  | put write id =>
    obtain ⟨stored, version⟩ := put_spec s write now id
    exact occupied.insert stored (by omega)
  | compareAndSwap write expected id =>
    rcases compareAndSwap_cases s write expected now id with ⟨_, record, _, version, stored⟩ | ⟨_, lost⟩
    · exact occupied.insert stored (by omega)
    · exact occupied.of_same (by simp only [InMemoryStore.perform, lost])
  | claim write id =>
    rcases claim_cases s write now id with ⟨_, record, _, version, stored⟩ | ⟨_, lost⟩
    · exact occupied.insert stored (by omega)
    · exact occupied.of_same (by simp only [InMemoryStore.perform, lost])
  | delete target =>
    have different : key ≠ target := fun same => survives.1 (by rw [same])
    exact occupied.of_same (delete_other s different)
  | compact =>
    obtain ⟨record, found, positive⟩ := occupied
    refine ⟨record, ?_, positive⟩
    exact (compact_get? s key now).trans (get_eq_some.mpr ⟨found, (survives.2 record found).1⟩)
  | purgeJob jobId =>
    obtain ⟨record, found, _⟩ := id occupied
    have spared : key ∉ s.collectOwned jobId := by
      intro collected
      obtain ⟨other, there, own⟩ := mem_collectOwned.mp collected
      cases found.symm.trans there
      exact (survives.2 record found).2 jobId rfl own
    exact occupied.of_same (((removeOwned_rounds _ s).2 key).trans (if_neg spared))

/-- A sequence of calls that the record of the key survives, by induction on the calls. -/
theorem Occupied.performed {key : RecordKey} (calls : List (MemoryCall V × DateTime)) (occupied : s.Occupied key)
    (last : MemoryCall V × DateTime) (survives : SurvivesAll key s (calls ++ [last])) :
    (calls.foldl Timed.perform s).Occupied key ∧ (calls.foldl Timed.perform s).Survives key last := by
  induction calls generalizing s with
  | nil => exact ⟨occupied, survives.1⟩
  | cons call rest ih =>
    refine ih ?_ survives.2
    rcases timed_perform s call with same | same <;> rw [same]
    · exact occupied.perform survives.1
    · exact occupied

/-- A key with a record that has not expired cannot be claimed, whatever lifetime the claim asks for. -/
theorem Occupied.claim {write : MemoryWrite V} (occupied : s.Occupied write.target) (now : DateTime) (id : MemoryId)
    (survives : s.Survives write.target (.claim write id, now)) : Timed.claim s write now id = .ok (.ok none, s) := by
  obtain ⟨record, found, positive⟩ := occupied
  refine timed_claim_conflict ?_
  unfold visibleVersion versionAbsent
  rw [get_eq_some.mpr ⟨found, (survives.2 record found).1⟩]
  simp only
  omega

end InMemoryStore

end Swarm
