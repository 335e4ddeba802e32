import Swarm.Memory.Store

namespace Swarm

/-- One atomic step of a client. `compact` and `purge_job` collect keys in one
step and then remove them one step at a time, in the order the map iterates. -/
inductive MemoryOp (V : Type) where
  | get (key : RecordKey)
  | put (write : MemoryWrite V) (id : MemoryId)
  | compareAndSwap (write : MemoryWrite V) (expected : Nat) (id : MemoryId)
  | claim (write : MemoryWrite V) (id : MemoryId)
  | delete (key : RecordKey)
  | compactCollect
  | compactRemove (sweep : Nat) (key : RecordKey)
  | purgeCollect (jobId : JobId)
  | purgeRemove (sweep : Nat) (key : RecordKey)

/-- A store with the compactions and purges in progress: for each of them the
keys it has collected and not yet removed. `clock` is the last reading. -/
structure MemorySystem (V : Type) where
  store : InMemoryStore V
  clock : DateTime
  compacting : List (List RecordKey)
  purging : List (List RecordKey)

namespace InMemoryStore
variable {V : Type} {s : InMemoryStore V} {write : MemoryWrite V} {now : DateTime} {id : MemoryId}

/-- The version a reader finds, with the absent version for no record. -/
def visibleVersion (s : InMemoryStore V) (key : RecordKey) (now : DateTime) : Nat :=
  match s.get key now with
  | none => versionAbsent
  | some record => record.version

@[simp] theorem note_records (record : MemoryRecord V) (operation : MemoryOperation) (actor : String) :
    (s.note record operation actor).records = s.records := rfl

theorem get_eq_some {key : RecordKey} {record : MemoryRecord V} :
    s.get key now = some record ↔ s.records.get? key = some record ∧ record.isExpired now = false := by
  simp [get, Option.filter_eq_some_iff]

theorem get_eq_none_of_absent {key : RecordKey} (absent : s.records.get? key = none) : s.get key now = none := by
  rw [get, absent]
  rfl

theorem get_eq_none_of_expired {key : RecordKey} {record : MemoryRecord V}
    (stored : s.records.get? key = some record) (expired : record.isExpired now = true) : s.get key now = none := by
  simp [get, stored, Option.filter, expired]

theorem get_congr {s' : InMemoryStore V} {key : RecordKey} (same : s'.records.get? key = s.records.get? key) :
    s'.get key now = s.get key now := by
  rw [get, get, same]

theorem isExpired_mono {record : MemoryRecord V} {earlier later : DateTime} (order : earlier ≤ later)
    (expired : record.isExpired earlier = true) : record.isExpired later = true := by
  simp only [MemoryRecord.isExpired, Option.any_eq_true, decide_eq_true_eq] at expired ⊢
  obtain ⟨expiry, stored, passed⟩ := expired
  exact ⟨expiry, stored, Int.le_trans passed order⟩

/-- A record that is visible was visible before, as long as nobody touched the key. -/
theorem get_earlier {key : RecordKey} {record : MemoryRecord V} {earlier later : DateTime} (order : earlier ≤ later)
    (visible : s.get key later = some record) : s.get key earlier = some record := by
  obtain ⟨stored, alive⟩ := get_eq_some.mp visible
  refine get_eq_some.mpr ⟨stored, ?_⟩
  cases expired : record.isExpired earlier with
  | false => rfl
  | true => rw [isExpired_mono order expired] at alive; cases alive

/-- A blind write stores a record one version above the visible one. -/
theorem put_spec (s : InMemoryStore V) (write : MemoryWrite V) (now : DateTime) (id : MemoryId) :
    (s.put write now id).2.records = s.records.insert write.target (s.put write now id).1 ∧
      (s.put write now id).1.version = s.visibleVersion write.target now + 1 := by
  refine ⟨rfl, ?_⟩
  unfold put visibleVersion
  cases stored : s.records.get? write.target with
  | none =>
    rw [get_eq_none_of_absent stored]
    rfl
  | some occupied =>
    cases expired : occupied.isExpired now with
    | true =>
      rw [get_eq_none_of_expired stored expired]
      simp [expired, fresh, versionAbsent]
    | false =>
      rw [get_eq_some.mpr ⟨stored, expired⟩]
      simp [expired, bumped]

/-- A swap succeeds exactly at the visible version, and then stores a record one above it. -/
theorem compareAndSwap_cases (s : InMemoryStore V) (write : MemoryWrite V) (expected : Nat) (now : DateTime)
    (id : MemoryId) :
    (s.visibleVersion write.target now = expected ∧ ∃ record,
      (s.compareAndSwap write expected now id).1 = .ok record ∧ record.version = expected + 1 ∧
      (s.compareAndSwap write expected now id).2.records = s.records.insert write.target record) ∨
    (s.visibleVersion write.target now ≠ expected ∧ s.compareAndSwap write expected now id =
      (.error (.versionConflict write.nspace write.key expected (s.visibleVersion write.target now)), s)) := by
  unfold compareAndSwap visibleVersion
  cases stored : s.records.get? write.target with
  | none =>
    rw [get_eq_none_of_absent stored]
    by_cases same : expected = versionAbsent
    · subst same
      exact Or.inl ⟨rfl, fresh write now id, rfl, rfl, rfl⟩
    · exact Or.inr ⟨Ne.symm same, by simp [same]⟩
  | some occupied =>
    cases expired : occupied.isExpired now with
    | true =>
      rw [get_eq_none_of_expired stored expired]
      by_cases same : expected = versionAbsent
      · subst same
        refine Or.inl ⟨rfl, fresh write now id, ?_⟩
        simp [expired, fresh, versionAbsent]
      · exact Or.inr ⟨Ne.symm same, by simp [expired, Ne.symm same]⟩
    | false =>
      rw [get_eq_some.mpr ⟨stored, expired⟩]
      by_cases same : occupied.version = expected
      · subst same
        by_cases zero : occupied.version = versionAbsent
        · refine Or.inl ⟨rfl, fresh write now id, ?_⟩
          simp [expired, zero, fresh, versionAbsent]
        · refine Or.inl ⟨rfl, bumped occupied write now, ?_⟩
          simp [expired, zero, bumped]
      · exact Or.inr ⟨same, by simp [expired, same]⟩

theorem claim_cases (s : InMemoryStore V) (write : MemoryWrite V) (now : DateTime) (id : MemoryId) :
    (s.visibleVersion write.target now = versionAbsent ∧ ∃ record,
      (s.claim write now id).1 = .ok (some record) ∧ record.version = 1 ∧
      (s.claim write now id).2.records = s.records.insert write.target record) ∨
    (s.visibleVersion write.target now ≠ versionAbsent ∧ s.claim write now id = (.ok none, s)) := by
  unfold claim
  rcases compareAndSwap_cases s write versionAbsent now id with ⟨visible, record, won, version, stored⟩
    | ⟨visible, lost⟩
  · refine Or.inl ⟨visible, record, ?_⟩
    cases run : s.compareAndSwap write versionAbsent now id with
    | mk answer store =>
      rw [run] at won stored
      cases won
      exact ⟨rfl, version, stored⟩
  · exact Or.inr ⟨visible, by rw [lost]⟩

theorem put_value (s : InMemoryStore V) (write : MemoryWrite V) (now : DateTime) (id : MemoryId) :
    (s.put write now id).1.value = write.value := by
  unfold put
  cases s.records.get? write.target with
  | none => rfl
  | some occupied =>
    dsimp only
    split <;> rfl

/-- A claim changes nothing, or stores what it writes. -/
theorem claim_stores (s : InMemoryStore V) (write : MemoryWrite V) (now : DateTime) (id : MemoryId) :
    (s.claim write now id).2 = s ∨ ∃ record, record.value = write.value ∧
      (s.claim write now id).2.records = s.records.insert write.target record := by
  unfold claim compareAndSwap
  cases s.records.get? write.target with
  | none => exact Or.inr ⟨fresh write now id, rfl, rfl⟩
  | some occupied =>
    by_cases taken : (if occupied.isExpired now then versionAbsent else occupied.version) ≠ versionAbsent
    · simp only [if_pos taken]
      exact Or.inl trivial
    · simp only [if_neg taken, if_pos (Decidable.not_not.mp taken)]
      exact Or.inr ⟨fresh write now id, rfl, rfl⟩

theorem delete_records (s : InMemoryStore V) (key : RecordKey) : (s.delete key).2.records.get? key = none := by
  unfold delete
  cases stored : s.records.get? key with
  | none => exact stored
  | some record => exact Dict.get?_erase_self

theorem delete_other (s : InMemoryStore V) {key other : RecordKey} (different : other ≠ key) :
    (s.delete key).2.records.get? other = s.records.get? other := by
  unfold delete
  cases s.records.get? key with
  | none => rfl
  | some record => exact Dict.get?_erase.trans (if_neg different)

theorem removeExpired_records (s : InMemoryStore V) (key other : RecordKey) :
    (s.removeExpired key).records.get? other = if other = key then none else s.records.get? other := by
  unfold removeExpired
  cases stored : s.records.get? key with
  | none =>
    by_cases same : other = key
    · rw [if_pos same, same]
      exact stored
    · rw [if_neg same]
  | some record => exact Dict.get?_erase

end InMemoryStore

namespace MemorySystem
variable {V : Type}

def new (clock : DateTime) : MemorySystem V := ⟨.new, clock, [], []⟩

/-- Take one key out of a sweep in progress. -/
def drop (sweeps : List (List RecordKey)) (sweep : Nat) (key : RecordKey) : List (List RecordKey) :=
  sweeps.modify sweep (fun keys => keys.erase key)

/-- The sweep has collected the key and not removed it yet. -/
def pending (sweeps : List (List RecordKey)) (sweep : Nat) (key : RecordKey) : Bool :=
  (sweeps[sweep]?.getD []).contains key

def apply (m : MemorySystem V) (op : MemoryOp V) (now : DateTime) : MemorySystem V :=
  let m := { m with clock := now }
  match op with
  | .get _ => m
  | .put write id => { m with store := (m.store.put write now id).2 }
  | .compareAndSwap write expected id => { m with store := (m.store.compareAndSwap write expected now id).2 }
  | .claim write id => { m with store := (m.store.claim write now id).2 }
  | .delete key => { m with store := (m.store.delete key).2 }
  | .compactCollect => { m with compacting := m.compacting ++ [m.store.collectExpired now] }
  | .compactRemove sweep key =>
    if pending m.compacting sweep key then
      { m with store := m.store.removeExpired key, compacting := drop m.compacting sweep key }
    else m
  | .purgeCollect jobId => { m with purging := m.purging ++ [m.store.collectOwned jobId] }
  | .purgeRemove sweep key =>
    if pending m.purging sweep key then
      { m with store := m.store.removeOwned key, purging := drop m.purging sweep key }
    else m

def run (m : MemorySystem V) (steps : List (MemoryOp V × DateTime)) : MemorySystem V :=
  steps.foldl (fun m step => m.apply step.1 step.2) m

/-- The clock never runs backwards. -/
def Advances (clock : DateTime) : List (MemoryOp V × DateTime) → Prop
  | [] => True
  | step :: rest => clock ≤ step.2 ∧ Advances step.2 rest

instance decidableAdvances (clock : DateTime) :
    (steps : List (MemoryOp V × DateTime)) → Decidable (Advances clock steps)
  | [] => inferInstanceAs (Decidable True)
  | step :: rest =>
    have : Decidable (Advances step.2 rest) := decidableAdvances step.2 rest
    inferInstanceAs (Decidable (clock ≤ step.2 ∧ Advances step.2 rest))

/-- The step is a write to the key and succeeds. -/
def writes (m : MemorySystem V) (step : MemoryOp V × DateTime) (key : RecordKey) : Bool :=
  match step.1 with
  | .put write _ => write.target = key
  | .compareAndSwap write expected id =>
    write.target = key && (m.store.compareAndSwap write expected step.2 id).1.isOk
  | .claim write id =>
    write.target = key && match (m.store.claim write step.2 id).1 with
      | .ok (some _) => true
      | _ => false
  | _ => false

@[simp] theorem apply_clock (m : MemorySystem V) (op : MemoryOp V) (now : DateTime) :
    (m.apply op now).clock = now := by
  cases op <;> simp only [apply] <;> split <;> rfl

theorem advances_append {clock : DateTime} {steps rest : List (MemoryOp V × DateTime)} {m : MemorySystem V}
    (same : m.clock = clock) (advances : Advances clock (steps ++ rest)) :
    Advances clock steps ∧ Advances (m.run steps).clock rest := by
  induction steps generalizing clock m with
  | nil => exact ⟨trivial, same ▸ advances⟩
  | cons step more ih =>
    obtain ⟨first, second⟩ := ih (apply_clock m step.1 step.2) advances.2
    exact ⟨⟨advances.1, first⟩, second⟩

/-- A successful write leaves a record of the key, one version above the visible one. -/
theorem apply_write {m : MemorySystem V} {op : MemoryOp V} {now : DateTime} {key : RecordKey}
    (writes : m.writes (op, now) key = true) : ∃ record,
      (m.apply op now).store.records.get? key = some record ∧
      record.version = m.store.visibleVersion key now + 1 := by
  cases op with
  | put write id =>
    have target : write.target = key := by simpa [MemorySystem.writes] using writes
    subst target
    obtain ⟨stored, version⟩ := InMemoryStore.put_spec m.store write now id
    exact ⟨_, by simp only [apply, stored, Dict.get?_insert_self], version⟩
  | compareAndSwap write expected id =>
    simp only [MemorySystem.writes, Bool.and_eq_true, decide_eq_true_eq] at writes
    obtain ⟨rfl, won⟩ := writes
    rcases InMemoryStore.compareAndSwap_cases m.store write expected now id with
      ⟨visible, record, _, version, stored⟩ | ⟨_, lost⟩
    · exact ⟨record, by simp only [apply, stored, Dict.get?_insert_self], by rw [version, visible]⟩
    · rw [lost] at won
      cases won
  | claim write id =>
    simp only [MemorySystem.writes, Bool.and_eq_true, decide_eq_true_eq] at writes
    obtain ⟨rfl, won⟩ := writes
    rcases InMemoryStore.claim_cases m.store write now id with ⟨visible, record, _, version, stored⟩ | ⟨_, lost⟩
    · exact ⟨record, by simp only [apply, stored, Dict.get?_insert_self], by rw [version, visible]; rfl⟩
    · rw [lost] at won
      cases won
  | _ => simp [MemorySystem.writes] at writes

/-- The step removes whatever is stored under the key. -/
def removes (m : MemorySystem V) (op : MemoryOp V) (key : RecordKey) : Bool :=
  match op with
  | .delete target => target = key
  | .compactRemove sweep target => target = key && pending m.compacting sweep target
  | .purgeRemove sweep target => target = key && pending m.purging sweep target
  | _ => false

/-- A step that does not write the key leaves its record alone or removes it. -/
theorem apply_frame {m : MemorySystem V} {op : MemoryOp V} {now : DateTime} {key : RecordKey}
    (silent : m.writes (op, now) key = false) :
    (m.apply op now).store.records.get? key =
      if m.removes op key then none else m.store.records.get? key := by
  have insert_other : ∀ (target : RecordKey) (record : MemoryRecord V), target ≠ key →
      (m.store.records.insert target record).get? key = m.store.records.get? key :=
    fun target record different => Dict.get?_insert_of_ne (Ne.symm different)
  cases op with
  | get _ => rfl
  | put write id =>
    have different : write.target ≠ key := by simpa [MemorySystem.writes] using silent
    simp only [apply, removes, (InMemoryStore.put_spec m.store write now id).1]
    exact insert_other _ _ different
  | compareAndSwap write expected id =>
    rcases InMemoryStore.compareAndSwap_cases m.store write expected now id with
      ⟨_, record, won, _, stored⟩ | ⟨_, lost⟩
    · have different : write.target ≠ key := by
        rintro rfl
        simp [MemorySystem.writes, won, Except.isOk, Except.toBool] at silent
      simp only [apply, removes, stored]
      exact insert_other _ _ different
    · simp only [apply, removes, lost]
      rfl
  | claim write id =>
    rcases InMemoryStore.claim_cases m.store write now id with ⟨_, record, won, _, stored⟩ | ⟨_, lost⟩
    · have different : write.target ≠ key := by
        rintro rfl
        simp [MemorySystem.writes, won] at silent
      simp only [apply, removes, stored]
      exact insert_other _ _ different
    · simp only [apply, removes, lost]
      rfl
  | delete target =>
    simp only [apply, removes, decide_eq_true_eq]
    split
    · rename_i same
      rw [← same]
      exact InMemoryStore.delete_records m.store target
    · rename_i different
      exact InMemoryStore.delete_other m.store (Ne.symm different)
  | compactCollect => rfl
  | compactRemove sweep target =>
    simp only [apply, removes]
    by_cases member : pending m.compacting sweep target = true
    · simp [member, InMemoryStore.removeExpired_records, eq_comm]
    · simp [member]
  | purgeCollect jobId => rfl
  | purgeRemove sweep target =>
    simp only [apply, removes]
    by_cases member : pending m.purging sweep target = true
    · simp [member, InMemoryStore.removeOwned, Dict.get?_erase, eq_comm]
    · simp [member]

end MemorySystem

end Swarm
