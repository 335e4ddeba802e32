import Swarm.Memory.Versions

namespace Swarm

/-- A single operation of a client. -/
inductive MemoryRequest (V : Type) where
  | get (key : RecordKey)
  | list (nspace start : String)
  | put (write : MemoryWrite V) (id : MemoryId)
  | compareAndSwap (write : MemoryWrite V) (expected : Nat) (id : MemoryId)
  | claim (write : MemoryWrite V) (id : MemoryId)
  | delete (key : RecordKey)

inductive MemoryAnswer (V : Type) where
  | found (record : Option (MemoryRecord V))
  | listed (records : List (MemoryRecord V))
  | written (record : Except SwarmError (MemoryRecord V))
  | claimed (record : Except SwarmError (Option (MemoryRecord V)))
  | deleted (existed : Bool)

namespace InMemoryStore
variable {V : Type}

/-- The answer to an operation, and the store after it. -/
def serve (s : InMemoryStore V) (request : MemoryRequest V) (now : DateTime) : MemoryAnswer V × InMemoryStore V :=
  match request with
  | .get key => (.found (s.get key now), s)
  | .list nspace start => (.listed (s.list nspace start now), s)
  | .put write id => (.written (.ok (s.put write now id).1), (s.put write now id).2)
  | .compareAndSwap write expected id =>
    (.written (s.compareAndSwap write expected now id).1, (s.compareAndSwap write expected now id).2)
  | .claim write id => (.claimed (s.claim write now id).1, (s.claim write now id).2)
  | .delete key => (.deleted (s.delete key).1, (s.delete key).2)

/-- From the instant on, readers find the same records in both stores. -/
def Alike (s s' : InMemoryStore V) (now : DateTime) : Prop :=
  ∀ key later, now ≤ later → s.get key later = s'.get key later

variable {s s' : InMemoryStore V} {now : DateTime}

theorem Alike.version (alike : s.Alike s' now) (key : RecordKey) :
    s.visibleVersion key now = s'.visibleVersion key now := by
  unfold visibleVersion
  rw [alike key now (Int.le_refl now)]

/-- The same record is stored in both. -/
theorem Alike.insert (alike : s.Alike s' now) {t t' : InMemoryStore V} {key : RecordKey} {record : MemoryRecord V}
    (stored : t.records = s.records.insert key record) (stored' : t'.records = s'.records.insert key record) :
    t.Alike t' now := by
  intro other later order
  unfold get
  rw [stored, stored', Dict.get?_insert, Dict.get?_insert]
  by_cases same : other = key
  · rw [if_pos same, if_pos same]
  · rw [if_neg same, if_neg same]
    exact alike other later order

theorem Alike.put (alike : s.Alike s' now) (write : MemoryWrite V) (id : MemoryId) :
    (s.put write now id).1 = (s'.put write now id).1 ∧ (s.put write now id).2.Alike (s'.put write now id).2 now := by
  have answer : (s.put write now id).1 = (s'.put write now id).1 := by
    rw [put_answer, put_answer, alike write.target now (Int.le_refl now)]
  refine ⟨answer, alike.insert (put_spec s write now id).1 ?_⟩
  rw [answer]
  exact (put_spec s' write now id).1

theorem Alike.compareAndSwap (alike : s.Alike s' now) (write : MemoryWrite V) (expected : Nat) (id : MemoryId) :
    (s.compareAndSwap write expected now id).1 = (s'.compareAndSwap write expected now id).1 ∧
      (s.compareAndSwap write expected now id).2.Alike (s'.compareAndSwap write expected now id).2 now := by
  have answer : (s.compareAndSwap write expected now id).1 = (s'.compareAndSwap write expected now id).1 := by
    rw [compareAndSwap_answer, compareAndSwap_answer, alike.version, alike write.target now (Int.le_refl now)]
  refine ⟨answer, ?_⟩
  rcases compareAndSwap_cases s write expected now id with ⟨visible, record, won, _, stored⟩ | ⟨visible, lost⟩
  · rcases compareAndSwap_cases s' write expected now id with ⟨_, record', won', _, stored'⟩ | ⟨visible', _⟩
    · rw [won, won'] at answer
      cases answer
      exact alike.insert stored stored'
    · exact absurd ((alike.version write.target).symm.trans visible) visible'
  · rcases compareAndSwap_cases s' write expected now id with ⟨visible', _⟩ | ⟨_, lost'⟩
    · exact absurd ((alike.version write.target).trans visible') visible
    · rw [lost, lost']
      exact alike

theorem claim_eq (s : InMemoryStore V) (write : MemoryWrite V) (now : DateTime) (id : MemoryId) :
    (s.claim write now id).2 = (s.compareAndSwap write versionAbsent now id).2 ∧
      (s.claim write now id).1 = match (s.compareAndSwap write versionAbsent now id).1 with
        | .ok record => .ok (some record)
        | .error (.versionConflict ..) => .ok none
        | .error other => .error other := by
  unfold claim
  split <;> rename_i run <;> simp only [run, and_self]

theorem Alike.claim (alike : s.Alike s' now) (write : MemoryWrite V) (id : MemoryId) :
    (s.claim write now id).1 = (s'.claim write now id).1 ∧
      (s.claim write now id).2.Alike (s'.claim write now id).2 now := by
  obtain ⟨answer, after⟩ := alike.compareAndSwap write versionAbsent id
  rw [(claim_eq s write now id).1, (claim_eq s' write now id).1, (claim_eq s write now id).2,
    (claim_eq s' write now id).2,
    answer]
  exact ⟨rfl, after⟩

theorem Alike.delete (alike : s.Alike s' now) (key : RecordKey) : (s.delete key).2.Alike (s'.delete key).2 now := by
  intro other later order
  by_cases same : other = key
  · rw [same, get_eq_none_of_absent (delete_records s key), get_eq_none_of_absent (delete_records s' key)]
  · rw [get_congr (delete_other s same), get_congr (delete_other s' same)]
    exact alike other later order

theorem compact_alike (s : InMemoryStore V) (now : DateTime) : (s.compact now).2.Alike s now := by
  intro key later order
  ext record
  rw [get_eq_some, get_eq_some, compact_get?, get_eq_some]
  refine ⟨fun ⟨⟨stored, _⟩, alive⟩ => ⟨stored, alive⟩, fun ⟨stored, alive⟩ => ⟨⟨stored, ?_⟩, alive⟩⟩
  exact (get_eq_some.mp (get_earlier order (get_eq_some.mpr ⟨stored, alive⟩))).2

theorem list_compact (s : InMemoryStore V) (nspace start : String) (now : DateTime) :
    (s.compact now).2.list nspace start now = s.list nspace start now := by
  unfold list
  congr 1
  simp only [Dict.values, compact_entries, List.filter_map, List.filter_filter]
  congr 1
  refine List.filter_congr ?_
  intro entry _
  simp only [Function.comp_apply]
  cases entry.2.isExpired now <;> simp

/-- Deleting tells a stored record from none, expired or not. -/
theorem delete_answer (s : InMemoryStore V) (key : RecordKey) : (s.delete key).1 = (s.records.get? key).isSome := by
  unfold delete
  cases s.records.get? key <;> rfl

/-- A compaction is invisible to every operation but the deletion of an expired record. -/
theorem compaction_invisible_iff (s : InMemoryStore V) (now : DateTime) (request : MemoryRequest V) :
    (((s.compact now).2.serve request now).1 = (s.serve request now).1 ∧
      ((s.compact now).2.serve request now).2.Alike (s.serve request now).2 now) ↔
    ∀ key record, request = .delete key → s.records.get? key = some record → record.isExpired now = false := by
  have alike := compact_alike s now
  cases request with
  | get key =>
    refine ⟨fun _ _ _ other => (by cases other), fun _ => ⟨?_, alike⟩⟩
    simp only [serve]
    rw [alike key now (Int.le_refl now)]
  | list nspace start =>
    refine ⟨fun _ _ _ other => (by cases other), fun _ => ⟨?_, alike⟩⟩
    simp only [serve]
    rw [list_compact]
  | put write id =>
    obtain ⟨answer, after⟩ := alike.put write id
    refine ⟨fun _ _ _ other => (by cases other), fun _ => ⟨?_, after⟩⟩
    simp only [serve]
    rw [answer]
  | compareAndSwap write expected id =>
    obtain ⟨answer, after⟩ := alike.compareAndSwap write expected id
    refine ⟨fun _ _ _ other => (by cases other), fun _ => ⟨?_, after⟩⟩
    simp only [serve]
    rw [answer]
  | claim write id =>
    obtain ⟨answer, after⟩ := alike.claim write id
    refine ⟨fun _ _ _ other => (by cases other), fun _ => ⟨?_, after⟩⟩
    simp only [serve]
    rw [answer]
  | delete key =>
    have answers : ((s.compact now).2.serve (.delete key) now).1 = (s.serve (.delete key) now).1 ↔
        (s.get key now).isSome = (s.records.get? key).isSome := by
      simp only [serve, delete_answer, compact_get?, MemoryAnswer.deleted.injEq]
    constructor
    · rintro ⟨same, _⟩ _ record ⟨⟩ stored
      have agree := answers.mp same
      cases expired : record.isExpired now with
      | false => rfl
      | true =>
        rw [get_eq_none_of_expired stored expired, stored] at agree
        cases agree
    · intro alive
      refine ⟨answers.mpr ?_, alike.delete key⟩
      cases stored : s.records.get? key with
      | none => rw [get_eq_none_of_absent stored]
      | some record => rw [get_eq_some.mpr ⟨stored, alive key record rfl stored⟩]

/-- A record with a lifetime of one nanosecond has expired after two. -/
def expiredStore : InMemoryStore Nat :=
  performed [(.put { MemoryWrite.new "test" "k" 1 "agent" with ttl := some 1 } ⟨1⟩, 0)]

/-- Deleting it succeeds, and after a compaction it does not. -/
theorem compaction_visible :
    (expiredStore.serve (.delete ("test", "k")) 2).1 = .deleted true ∧
      ((expiredStore.compact 2).2.serve (.delete ("test", "k")) 2).1 = .deleted false ∧
      (expiredStore.serve (.get ("test", "k")) 2).1 = .found none := by
  refine ⟨?_, ?_, ?_⟩ <;> rfl

end InMemoryStore

end Swarm
