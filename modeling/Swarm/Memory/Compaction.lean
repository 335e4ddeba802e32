import Swarm.Memory.System

namespace Swarm.MemorySystem
variable {V : Type}

/-- No write succeeds on a key that a compaction in progress has collected and
not yet removed. -/
def Undisturbed (m : MemorySystem V) : List (MemoryOp V × DateTime) → Prop
  | [] => True
  | step :: rest =>
    (∀ key, m.writes step key = true → ∀ keys ∈ m.compacting, key ∉ keys) ∧
      (m.apply step.1 step.2).Undisturbed rest

/-- Whatever a compaction still has to remove is expired. -/
def Stale (m : MemorySystem V) : Prop :=
  ∀ keys ∈ m.compacting, ∀ key ∈ keys, ∀ record, m.store.records.get? key = some record →
    record.isExpired m.clock = true

theorem mem_collectExpired {s : InMemoryStore V} {now : DateTime} {key : RecordKey} {record : MemoryRecord V}
    (member : key ∈ s.collectExpired now) (stored : s.records.get? key = some record) :
    record.isExpired now = true := by
  obtain ⟨⟨_, found⟩, entry, rfl⟩ := List.mem_map.mp member
  obtain ⟨present, expired⟩ := List.mem_filter.mp entry
  rw [Dict.value_unique (Dict.get?_eq_some.mp stored) present]
  exact expired

theorem mem_drop {sweeps : List (List RecordKey)} {sweep : Nat} {target : RecordKey} {keys : List RecordKey}
    (member : keys ∈ drop sweeps sweep target) : ∃ old ∈ sweeps, keys ⊆ old := by
  obtain ⟨index, found⟩ := List.mem_iff_getElem?.mp member
  rw [drop, List.getElem?_modify] at found
  split at found
  · obtain ⟨old, present, rfl⟩ := Option.map_eq_some_iff.mp found
    exact ⟨old, List.mem_of_getElem? present, List.erase_subset⟩
  · rw [id_map'] at found
    exact ⟨keys, List.mem_of_getElem? found, fun _ member => member⟩

theorem pending_mem {sweeps : List (List RecordKey)} {sweep : Nat} {key : RecordKey}
    (member : pending sweeps sweep key = true) : ∃ keys ∈ sweeps, key ∈ keys := by
  unfold pending at member
  cases found : sweeps[sweep]? with
  | none => simp [found] at member
  | some keys => exact ⟨keys, List.mem_of_getElem? found, by simpa [found] using member⟩

/-- Where the keys of a sweep come from: an older sweep, or a collection just made. -/
theorem apply_compacting {m : MemorySystem V} {op : MemoryOp V} {now : DateTime} {keys : List RecordKey}
    (member : keys ∈ (m.apply op now).compacting) :
    (∃ old ∈ m.compacting, keys ⊆ old) ∨ (op = .compactCollect ∧ keys = m.store.collectExpired now) := by
  have same : keys ∈ m.compacting → ∃ old ∈ m.compacting, keys ⊆ old :=
    fun member => ⟨keys, member, fun _ inside => inside⟩
  cases op with
  | compactCollect =>
    simp only [apply, List.mem_append, List.mem_singleton] at member
    rcases member with old | new
    · exact Or.inl (same old)
    · exact Or.inr ⟨rfl, new⟩
  | compactRemove sweep key =>
    simp only [apply] at member
    split at member
    · exact Or.inl (mem_drop member)
    · exact Or.inl (same member)
  | purgeRemove sweep key =>
    simp only [apply] at member
    split at member <;> exact Or.inl (same member)
  | _ => exact Or.inl (same member)

theorem Stale.apply {m : MemorySystem V} (stale : m.Stale) {step : MemoryOp V × DateTime} (order : m.clock ≤ step.2)
    (spared : ∀ key, m.writes step key = true → ∀ keys ∈ m.compacting, key ∉ keys) :
    (m.apply step.1 step.2).Stale := by
  intro keys member key inside record stored
  rw [apply_clock]
  rcases apply_compacting member with ⟨old, present, subset⟩ | ⟨collect, rfl⟩
  · cases writes : m.writes step key with
    | true => exact absurd (subset inside) (spared key writes old present)
    | false =>
      rw [apply_frame writes] at stored
      split at stored
      · cases stored
      · exact InMemoryStore.isExpired_mono order (stale old present key (subset inside) record stored)
  · rw [collect] at stored
    exact mem_collectExpired inside stored

theorem Stale.run (steps : List (MemoryOp V × DateTime)) {m : MemorySystem V} (stale : m.Stale)
    (clock : Advances m.clock steps) (undisturbed : m.Undisturbed steps) : (m.run steps).Stale := by
  induction steps generalizing m with
  | nil => exact stale
  | cons step rest ih =>
    exact ih (stale.apply clock.1 undisturbed.1) (by rw [apply_clock]; exact clock.2) undisturbed.2

theorem undisturbed_append {steps rest : List (MemoryOp V × DateTime)} {m : MemorySystem V}
    (undisturbed : m.Undisturbed (steps ++ rest)) : m.Undisturbed steps ∧ (m.run steps).Undisturbed rest := by
  induction steps generalizing m with
  | nil => exact ⟨trivial, undisturbed⟩
  | cons step more ih =>
    obtain ⟨first, second⟩ := ih undisturbed.2
    exact ⟨⟨undisturbed.1, first⟩, second⟩

/-- No step writes, deletes or purges the key. -/
def Untouched (m : MemorySystem V) (key : RecordKey) : List (MemoryOp V × DateTime) → Prop
  | [] => True
  | step :: rest =>
    (m.writes step key = false ∧ step.1 ≠ .delete key ∧ ∀ sweep, step.1 ≠ .purgeRemove sweep key) ∧
      (m.apply step.1 step.2).Untouched key rest

theorem never_expires {record : MemoryRecord V} (forever : record.expiresAt = none) (now : DateTime) :
    record.isExpired now = false := by
  rw [MemoryRecord.isExpired, forever]
  rfl

/-- A record without an expiry survives every step that is not aimed at its key. -/
theorem Stale.keeps {key : RecordKey} {record : MemoryRecord V} (forever : record.expiresAt = none)
    (steps : List (MemoryOp V × DateTime)) {m : MemorySystem V} (stale : m.Stale) (clock : Advances m.clock steps)
    (undisturbed : m.Undisturbed steps) (untouched : m.Untouched key steps)
    (stored : m.store.records.get? key = some record) : (m.run steps).store.records.get? key = some record := by
  induction steps generalizing m with
  | nil => exact stored
  | cons step rest ih =>
    obtain ⟨⟨silent, kept, owned⟩, later⟩ := untouched
    refine ih (stale.apply clock.1 undisturbed.1) (by rw [apply_clock]; exact clock.2) undisturbed.2 later ?_
    rw [apply_frame silent, if_neg]
    · exact stored
    · intro removes
      obtain ⟨op, now⟩ := step
      cases op with
      | delete target =>
        have same : target = key := of_decide_eq_true removes
        exact kept (by rw [same])
      | compactRemove sweep target =>
        simp only [MemorySystem.removes, Bool.and_eq_true, decide_eq_true_eq] at removes
        obtain ⟨rfl, member⟩ := removes
        obtain ⟨keys, present, inside⟩ := pending_mem member
        have expired := stale keys present target inside record stored
        rw [never_expires forever] at expired
        cases expired
      | purgeRemove sweep target =>
        simp only [MemorySystem.removes, Bool.and_eq_true, decide_eq_true_eq] at removes
        exact owned sweep (by rw [removes.1])
      | _ => cases removes

/-- In every run in which the clock never goes back and no write lands on a key
that a compaction has collected and not yet removed, compaction only removes
expired records, and a record without an expiry stays readable until a write, a
delete or a purge touches its key. -/
theorem compact_spares_live {start : DateTime} {steps : List (MemoryOp V × DateTime)} (clock : Advances start steps)
    (undisturbed : (new start).Undisturbed steps) :
    (∀ before sweep key now after record, steps = before ++ (.compactRemove sweep key, now) :: after →
      pending ((new start).run before).compacting sweep key = true →
      ((new start).run before).store.records.get? key = some record → record.isExpired now = true) ∧
    (∀ before middle after key record now, steps = before ++ (middle ++ after) →
      ((new start).run before).store.records.get? key = some record → record.expiresAt = none →
      ((new start).run before).Untouched key middle →
      ((new start).run (before ++ middle)).store.get key now = some record) := by
  have empty : (new start : MemorySystem V).Stale := fun keys member => absurd member List.not_mem_nil
  constructor
  · rintro before sweep key now after record rfl member stored
    obtain ⟨first, order, _⟩ := advances_append (m := new start) rfl clock
    have stale := empty.run before first (undisturbed_append undisturbed).1
    obtain ⟨keys, present, inside⟩ := pending_mem member
    exact InMemoryStore.isExpired_mono order (stale keys present key inside record stored)
  · rintro before middle after key record now rfl stored forever untouched
    obtain ⟨first, second⟩ := advances_append (m := new start) rfl clock
    obtain ⟨calm, later⟩ := undisturbed_append undisturbed
    have stale := empty.run before first calm
    have kept := stale.keeps forever middle (advances_append (m := (new start).run before) rfl second).1
      (undisturbed_append later).1 untouched stored
    have joined : (new start).run (before ++ middle) = ((new start).run before).run middle := List.foldl_append
    rw [joined]
    exact InMemoryStore.get_eq_some.mpr ⟨kept, never_expires forever now⟩

def sampleShort : MemoryWrite Nat := { MemoryWrite.new "n" "k" 1 "agent" with ttl := some 5 }

def sampleLasting : MemoryWrite Nat := MemoryWrite.new "n" "k" 2 "agent"

def sampleSweep : List (MemoryOp Nat × DateTime) :=
  [(.put sampleShort ⟨1⟩, 0), (.compactCollect, 10), (.compactRemove 0 ("n", "k"), 20)]

theorem compact_spares_live_expired : ∃ record : MemoryRecord Nat,
    ((new 0).run [(.put sampleShort ⟨1⟩, 0), (.compactCollect, 10)]).store.records.get? ("n", "k") = some record ∧
      record.isExpired 20 = true := by
  have calm : (new 0).Undisturbed sampleSweep := by
    refine ⟨?_, ?_, ?_, trivial⟩
    · exact fun _ _ keys member => absurd member List.not_mem_nil
    · exact fun _ writes => Bool.noConfusion writes
    · exact fun _ writes => Bool.noConfusion writes
  exact ⟨_, rfl, (compact_spares_live (by decide) calm).1
    [(.put sampleShort ⟨1⟩, 0), (.compactCollect, 10)] 0 ("n", "k") 20 [] _ rfl rfl rfl⟩

/-- A writer revives an expired key between the two passes, and the second pass
removes the new record although it never expires. -/
theorem compact_removes_live :
    ¬ ∀ (steps : List (MemoryOp Nat × DateTime)), Advances 0 steps → ∀ before sweep key now after record,
      steps = before ++ (.compactRemove sweep key, now) :: after →
      pending ((new 0).run before).compacting sweep key = true →
      ((new 0).run before).store.records.get? key = some record → record.isExpired now = true := by
  intro spares
  have expired := spares
    [(.put sampleShort ⟨1⟩, 0), (.compactCollect, 10), (.put sampleLasting ⟨2⟩, 11),
      (.compactRemove 0 ("n", "k"), 12)]
    (by decide) [(.put sampleShort ⟨1⟩, 0), (.compactCollect, 10), (.put sampleLasting ⟨2⟩, 11)] 0 ("n", "k") 12 []
    _ rfl rfl rfl
  exact absurd expired (by decide)

end Swarm.MemorySystem
