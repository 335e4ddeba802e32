import Swarm.Memory.System

namespace Swarm.MemorySystem
variable {V : Type}

/-- How many writes to the key succeed along the steps. -/
def writeCount (m : MemorySystem V) (key : RecordKey) : List (MemoryOp V × DateTime) → Nat
  | [] => 0
  | step :: rest => (if m.writes step key then 1 else 0) + (m.apply step.1 step.2).writeCount key rest

/-- No write starts a new lineage of the key over one that has ended. `live`
says that a record of the key has been there since the window began; a later
write must then still find a visible one. -/
def Unbroken (m : MemorySystem V) (key : RecordKey) (live : Bool) : List (MemoryOp V × DateTime) → Prop
  | [] => True
  | step :: rest =>
    (m.writes step key = true → live = true → (m.store.get key step.2).isSome = true) ∧
      (m.apply step.1 step.2).Unbroken key (live || m.writes step key) rest

/-- The lineage the reader saw at `version`, `count` successful writes later:
what is visible of the key has moved on by exactly those writes. -/
structure Tracks (m : MemorySystem V) (key : RecordKey) (version : Nat) (live : Bool) (count : Nat) : Prop where
  moved : ∀ now, m.clock ≤ now → ∀ record, m.store.get key now = some record → record.version = version + count
  dead : live = false → version = versionAbsent ∧ count = 0 ∧ ∀ now, m.clock ≤ now → m.store.get key now = none

theorem Tracks.silent {m : MemorySystem V} {key : RecordKey} {version count : Nat} {live : Bool}
    {step : MemoryOp V × DateTime} (tracks : m.Tracks key version live count) (order : m.clock ≤ step.2)
    (silent : m.writes step key = false) : (m.apply step.1 step.2).Tracks key version live count := by
  have frame := apply_frame silent
  have later : ∀ now, step.2 ≤ now → ∀ record, (m.apply step.1 step.2).store.get key now = some record →
      m.store.get key now = some record := by
    intro now _ record visible
    obtain ⟨stored, alive⟩ := InMemoryStore.get_eq_some.mp visible
    rw [frame] at stored
    split at stored
    · cases stored
    · exact InMemoryStore.get_eq_some.mpr ⟨stored, alive⟩
  constructor
  · intro now bound record visible
    rw [apply_clock] at bound
    exact tracks.moved now (Int.le_trans order bound) record (later now bound record visible)
  · intro notLive
    obtain ⟨absent, zero, gone⟩ := tracks.dead notLive
    refine ⟨absent, zero, ?_⟩
    intro now bound
    rw [apply_clock] at bound
    cases visible : (m.apply step.1 step.2).store.get key now with
    | none => rfl
    | some record =>
      have before := later now bound record visible
      rw [gone now (Int.le_trans order bound)] at before
      cases before

theorem Tracks.write {m : MemorySystem V} {key : RecordKey} {version count : Nat} {live : Bool}
    {step : MemoryOp V × DateTime} (tracks : m.Tracks key version live count) (order : m.clock ≤ step.2)
    (writes : m.writes step key = true) (unbroken : live = true → (m.store.get key step.2).isSome = true) :
    (m.apply step.1 step.2).Tracks key version true (count + 1) := by
  obtain ⟨record, stored, next⟩ := apply_write writes
  have before : m.store.visibleVersion key step.2 = version + count := by
    unfold InMemoryStore.visibleVersion
    cases live with
    | true =>
      obtain ⟨old, visible⟩ := Option.isSome_iff_exists.mp (unbroken rfl)
      rw [visible]
      exact tracks.moved step.2 order old visible
    | false =>
      obtain ⟨absent, zero, gone⟩ := tracks.dead rfl
      rw [gone step.2 order, absent, zero]
      rfl
  refine ⟨?_, fun dead => Bool.noConfusion dead⟩
  intro now _ found visible
  obtain ⟨same, _⟩ := InMemoryStore.get_eq_some.mp visible
  rw [stored] at same
  cases same
  omega

/-- Along an unbroken window the visible version counts the writes. -/
theorem Tracks.run {key : RecordKey} {version : Nat} (steps : List (MemoryOp V × DateTime)) {m : MemorySystem V}
    {live : Bool} {count : Nat} (tracks : m.Tracks key version live count) (clock : Advances m.clock steps)
    (last : MemoryOp V × DateTime) (unbroken : m.Unbroken key live (steps ++ [last])) :
    ∃ live', (m.run steps).Tracks key version live' (count + m.writeCount key steps) ∧
      ((m.run steps).writes last key = true → live' = true → ((m.run steps).store.get key last.2).isSome = true) := by
  induction steps generalizing m live count with
  | nil => exact ⟨live, tracks, unbroken.1⟩
  | cons step rest ih =>
    obtain ⟨order, later⟩ := clock
    obtain ⟨here, after⟩ := unbroken
    cases writes : m.writes step key with
    | false =>
      rw [writes, Bool.or_false] at after
      obtain ⟨live', result⟩ := ih (tracks.silent order writes) (by rw [apply_clock]; exact later) after
      refine ⟨live', ?_⟩
      simpa only [writeCount, writes, Bool.false_eq_true, if_false, Nat.zero_add, MemorySystem.run, List.foldl_cons]
        using result
    | true =>
      rw [writes, Bool.or_true] at after
      obtain ⟨live', result⟩ :=
        ih (tracks.write order writes (here writes)) (by rw [apply_clock]; exact later) after
      refine ⟨live', ?_⟩
      simpa only [writeCount, writes, if_true, Nat.add_assoc, MemorySystem.run, List.foldl_cons] using result

/-- The states of the runs from an empty store. -/
def Reach (m : MemorySystem V) : Prop :=
  ∃ start steps, Advances start steps ∧ m = (new start).run steps

/-- Version 0 is never stored. -/
theorem run_versioned (steps : List (MemoryOp V × DateTime)) {m : MemorySystem V}
    (versioned : ∀ key record, m.store.records.get? key = some record → 1 ≤ record.version) :
    ∀ key record, (m.run steps).store.records.get? key = some record → 1 ≤ record.version := by
  induction steps generalizing m with
  | nil => exact versioned
  | cons step rest ih =>
    refine ih ?_
    intro key record stored
    cases writes : m.writes step key with
    | true =>
      obtain ⟨written, same, version⟩ := apply_write writes
      rw [same] at stored
      cases stored
      omega
    | false =>
      rw [apply_frame writes] at stored
      split at stored
      · cases stored
      · exact versioned key record stored

theorem Reach.versioned {m : MemorySystem V} (reach : m.Reach) {key : RecordKey} {record : MemoryRecord V}
    (stored : m.store.records.get? key = some record) : 1 ≤ record.version := by
  obtain ⟨start, steps, _, rfl⟩ := reach
  exact run_versioned steps (fun _ _ absent => by cases absent) key record stored

/-- With no write in between, only the swap itself can restart a lineage. -/
theorem unbroken_of_silent {key : RecordKey} {live : Bool} (steps : List (MemoryOp V × DateTime))
    {m : MemorySystem V} (last : MemoryOp V × DateTime) (silent : m.writeCount key steps = 0)
    (final : (m.run steps).writes last key = true → live = true →
      ((m.run steps).store.get key last.2).isSome = true) :
    m.Unbroken key live (steps ++ [last]) := by
  induction steps generalizing m with
  | nil => exact ⟨final, trivial⟩
  | cons step rest ih =>
    simp only [writeCount, Nat.add_eq_zero_iff, ite_eq_right_iff, Nat.one_ne_zero, imp_false, Bool.not_eq_true]
      at silent
    refine ⟨fun writes => absurd writes (by simp [silent.1]), ?_⟩
    rw [silent.1, Bool.or_false]
    exact ih silent.2 final

/-- A swap that succeeds at the version its client read has overwritten nothing
unseen exactly when no write since the read, the swap itself included, started
a new lineage of the key over one that had ended. -/
theorem swap_unseen_iff {m : MemorySystem V} (reach : m.Reach) {key : RecordKey} {read time : DateTime}
    {between : List (MemoryOp V × DateTime)} {write : MemoryWrite V} {version : Nat} {id : MemoryId}
    {record : MemoryRecord V} (target : write.target = key)
    (clock : Advances m.clock ((.get key, read) :: (between ++ [(.compareAndSwap write version id, time)])))
    (seen : m.store.visibleVersion key read = version)
    (swapped : (((m.apply (.get key) read).run between).store.compareAndSwap write version time id).1 = .ok record) :
    (m.apply (.get key) read).writeCount key between = 0 ↔
      (m.apply (.get key) read).Unbroken key (m.store.get key read).isSome
        (between ++ [(.compareAndSwap write version id, time)]) := by
  obtain ⟨_, later⟩ := clock
  obtain ⟨inside, ⟨order, _⟩⟩ := advances_append (m := m.apply (.get key) read) (apply_clock m _ _) later
  subst target
  have final : ((m.apply (.get write.target) read).run between).store.visibleVersion write.target time = version := by
    rcases InMemoryStore.compareAndSwap_cases _ write version time id with ⟨visible, _⟩ | ⟨_, lost⟩
    · exact visible
    · rw [lost] at swapped
      cases swapped
  have wins : ((m.apply (.get write.target) read).run between).writes
      (.compareAndSwap write version id, time) write.target = true := by
    simp [MemorySystem.writes, swapped, Except.isOk, Except.toBool]
  have start : (m.apply (.get write.target) read).Tracks write.target version
      (m.store.get write.target read).isSome 0 := by
    constructor
    · intro now bound found visible
      have before := InMemoryStore.get_earlier bound visible
      rw [← seen, InMemoryStore.visibleVersion]
      simp only [apply] at before
      rw [before, Nat.add_zero]
    · intro notLive
      have absent : m.store.get write.target read = none := by simpa using notLive
      refine ⟨by rw [← seen, InMemoryStore.visibleVersion, absent], rfl, ?_⟩
      intro now bound
      cases visible : (m.apply (.get write.target) read).store.get write.target now with
      | none => rfl
      | some found =>
        have before := InMemoryStore.get_earlier bound visible
        simp only [apply] at before
        rw [absent] at before
        cases before
  constructor
  · intro silent
    refine unbroken_of_silent between _ silent ?_
    intro _ live
    obtain ⟨old, visible⟩ := Option.isSome_iff_exists.mp live
    -- the version that was read is not the absent one, so the swap still found it
    have positive := reach.versioned (InMemoryStore.get_eq_some.mp visible).1
    rw [InMemoryStore.visibleVersion, visible] at seen
    rw [InMemoryStore.visibleVersion] at final
    cases found : ((m.apply (.get write.target) read).run between).store.get write.target time with
    | some _ => rfl
    | none =>
      rw [found] at final
      simp only [versionAbsent] at final seen
      omega
  · intro unbroken
    obtain ⟨live, tracks, restart⟩ := start.run between inside _ unbroken
    cases live with
    | false => simpa using (tracks.dead rfl).2.1
    | true =>
      obtain ⟨old, visible⟩ := Option.isSome_iff_exists.mp (restart wins rfl)
      have moved := tracks.moved time order old visible
      rw [InMemoryStore.visibleVersion, visible] at final
      simp only at final
      omega

def sampleWrite (value : Nat) : MemoryWrite Nat := MemoryWrite.new "n" "k" value "agent"

/-- A store that holds one record, at version 1. -/
def sampleStored : MemorySystem Nat := (new 0).run [(.put (sampleWrite 10) ⟨1⟩, 0)]

theorem sampleStored_reach : sampleStored.Reach := ⟨0, [(.put (sampleWrite 10) ⟨1⟩, 0)], by decide, rfl⟩

/-- Nothing happens between the read and the swap. -/
theorem swap_unseen_quiet : (sampleStored.apply (.get ("n", "k")) 1).writeCount ("n", "k") [] = 0 ∧
    (sampleStored.apply (.get ("n", "k")) 1).Unbroken ("n", "k") true
      [(.compareAndSwap (sampleWrite 30) 1 ⟨3⟩, 2)] := by
  have clock : Advances sampleStored.clock
      ((.get ("n", "k"), 1) :: ([] ++ [(.compareAndSwap (sampleWrite 30) 1 ⟨3⟩, 2)])) := by decide
  have seen : sampleStored.store.visibleVersion ("n", "k") 1 = 1 := by decide
  exact ⟨rfl, (swap_unseen_iff sampleStored_reach rfl clock seen rfl).mp rfl⟩

/-- The key is deleted and written anew between the read and the swap. The new
lineage starts at version 1 again, so the swap overwrites a value nobody saw. -/
theorem swap_overwrites_unseen :
    ¬ ∀ (m : MemorySystem Nat), m.Reach → ∀ (key : RecordKey) (read time : DateTime)
      (between : List (MemoryOp Nat × DateTime)) (write : MemoryWrite Nat) (version : Nat) (id : MemoryId)
      (record : MemoryRecord Nat), write.target = key →
      Advances m.clock ((.get key, read) :: (between ++ [(.compareAndSwap write version id, time)])) →
      m.store.visibleVersion key read = version →
      (((m.apply (.get key) read).run between).store.compareAndSwap write version time id).1 = .ok record →
      (m.apply (.get key) read).writeCount key between = 0 := by
  intro lossless
  have none := lossless sampleStored sampleStored_reach ("n", "k") 1 4
    [(.delete ("n", "k"), 2), (.put (sampleWrite 20) ⟨2⟩, 3)] (sampleWrite 30) 1 ⟨3⟩ _ rfl (by decide) (by decide) rfl
  exact absurd none (by decide)

end Swarm.MemorySystem
