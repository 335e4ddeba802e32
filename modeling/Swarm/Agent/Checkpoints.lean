import Mathlib.Data.String.Basic
import Swarm.Agent.Execute
import Swarm.Lib.Decimal
import Swarm.Memory.System

namespace Swarm

/-- `MemoryRecord::parse::<Checkpoint>`. Neither of the other objects has a sequence number. -/
def MemoryRecord.parseCheckpoint (record : MemoryRecord MemoryValue) : Except SwarmError Checkpoint :=
  match record.value with
  | .checkpoint checkpoint => .ok checkpoint
  | _ => .error (.memory s!"record {record.nspace}/{record.key} does not deserialize: missing field `seq`")

/-- What the keys of all checkpoints of a task start with. -/
def TaskId.checkpoints (taskId : TaskId) : String := s!"{taskId.display}/"

/-- The key of a checkpoint. -/
def Checkpoint.name (checkpoint : Checkpoint) : String :=
  s!"{checkpoint.taskId.display}/{checkpoint.attempt}/{checkpoint.seq}"

namespace InMemoryStore

/-- `Agent::latest_checkpoint`. -/
def latestCheckpoint (s : InMemoryStore MemoryValue) (jobId : JobId) (taskId : TaskId) (now : DateTime) :
    Except SwarmError (Option Checkpoint) :=
  match (s.list (Ns.checkpoints jobId) taskId.checkpoints now).getLast? with
  | none => .ok none
  | some record => record.parseCheckpoint.map some

variable {V : Type} {s : InMemoryStore V}

/-- Every record stands under its own key. -/
def Keyed (s : InMemoryStore V) : Prop :=
  ∀ key record, s.records.get? key = some record → (record.nspace, record.key) = key

theorem mem_list (keyed : s.Keyed) {nspace start : String} {now : DateTime} {record : MemoryRecord V} :
    record ∈ s.list nspace start now ↔ record.nspace = nspace ∧ record.key.startsWith start = true ∧
      s.get (nspace, record.key) now = some record := by
  simp only [list, List.mem_mergeSort, List.mem_filter, Bool.and_eq_true, Bool.not_eq_true', beq_iff_eq, get_eq_some,
    Dict.mem_values]
  constructor
  · rintro ⟨⟨key, entry⟩, ⟨rfl, starts⟩, alive⟩
    have stored := Dict.get?_eq_some.mpr entry
    rw [keyed key record stored]
    exact ⟨rfl, starts, stored, alive⟩
  · rintro ⟨rfl, starts, stored, alive⟩
    exact ⟨⟨_, Dict.get?_eq_some.mp stored⟩, ⟨rfl, starts⟩, alive⟩

/-- The last record of a listing has the greatest key. -/
theorem list_last {nspace start : String} {now : DateTime} {last : MemoryRecord V}
    (found : (s.list nspace start now).getLast? = some last) :
    last ∈ s.list nspace start now ∧ ∀ record ∈ s.list nspace start now, record.key ≤ last.key := by
  obtain ⟨front, whole⟩ := List.getLast?_eq_some_iff.mp found
  have sorted : (s.list nspace start now).Pairwise (fun left right => decide (left.key ≤ right.key) = true) := by
    unfold list
    refine List.pairwise_mergeSort ?_ ?_ _
    · intro a b c first second
      simp only [decide_eq_true_eq] at first second ⊢
      exact String.le_trans first second
    · intro a b
      simp only [Bool.or_eq_true, decide_eq_true_eq]
      exact String.le_total a.key b.key
  refine ⟨by rw [whole]; simp, ?_⟩
  intro record member
  rw [whole] at member sorted
  rcases List.mem_append.mp member with earlier | same
  · have order := (List.pairwise_append.mp sorted).2.2 record earlier last (List.mem_singleton_self last)
    simpa using order
  · rw [List.mem_singleton.mp same]

end InMemoryStore

theorem Checkpoint.toList_name (checkpoint : Checkpoint) : checkpoint.name.toList =
    checkpoint.taskId.checkpoints.toList ++
      (Nat.toDigits 10 checkpoint.attempt ++ '/' :: Nat.toDigits 10 checkpoint.seq) := by
  simp [name, TaskId.checkpoints]
  rfl

theorem Checkpoint.name_starts (checkpoint : Checkpoint) :
    checkpoint.name.startsWith checkpoint.taskId.checkpoints = true := by
  rw [String.startsWith_string_iff, toList_name]
  exact List.prefix_append _ _

/-- What the keys of two checkpoints of a task say about their numbers. -/
theorem Checkpoint.name_le_iff {left right : Checkpoint} (task : left.taskId = right.taskId) :
    left.name ≤ right.name ↔ Nat.toDigits 10 left.attempt ≤ Nat.toDigits 10 right.attempt ∧
      (left.attempt = right.attempt → Nat.toDigits 10 left.seq ≤ Nat.toDigits 10 right.seq) := by
  have order : left.name ≤ right.name ↔ left.name.toList ≤ right.name.toList := String.le_iff_toList_le
  have numbers : Nat.toDigits 10 left.attempt = Nat.toDigits 10 right.attempt ↔ left.attempt = right.attempt := by
    refine ⟨fun same => ?_, fun same => by rw [same]⟩
    have values := congrArg (fun digits => Nat.ofDigitChars 10 digits 0) same
    simpa using values
  rw [order, toList_name, toList_name, task, Decimal.append_le_append_iff,
    Decimal.separated_le_iff Decimal.isDigit_toDigits Decimal.isDigit_toDigits (by decide), numbers]

/-- Two checkpoints of a task share a key only if they share their numbers. -/
theorem Checkpoint.name_inj {left right : Checkpoint} (task : left.taskId = right.taskId)
    (same : left.name = right.name) :
    left.attempt = right.attempt ∧ left.seq = right.seq := by
  have digits : ∀ {a b : Nat}, Nat.toDigits 10 a ≤ Nat.toDigits 10 b →
      Nat.toDigits 10 b ≤ Nat.toDigits 10 a → a = b := by
    intro a b first second
    have values := congrArg (fun digits => Nat.ofDigitChars 10 digits 0) (le_antisymm first second)
    simpa using values
  have order : left.name ≤ right.name := by rw [same]
  have order' : right.name ≤ left.name := by rw [same]
  obtain ⟨attempt, seq⟩ := (name_le_iff task).mp order
  obtain ⟨attempt', seq'⟩ := (name_le_iff task.symm).mp order'
  have equal := digits attempt attempt'
  exact ⟨equal, digits (seq equal) (seq' equal.symm)⟩

/-- The checkpoints written for a task, newest first, and a store that has them. Whatever else
happens to the store leaves the keys of these checkpoints alone. -/
inductive Wrote (jobId : JobId) (taskId : TaskId) : List Checkpoint → InMemoryStore MemoryValue → Prop
  | start {s : InMemoryStore MemoryValue} : s.Keyed → (∀ key : String, key.startsWith taskId.checkpoints = true →
      s.records.get? (Ns.checkpoints jobId, key) = none) → Wrote jobId taskId [] s
  | write {written : List Checkpoint} {s : InMemoryStore MemoryValue} (e : Execution) (seq : Nat) (label : String)
      (state : Json) (input : StepInput) : Wrote jobId taskId written s → e.task.jobId = jobId → e.task.id = taskId →
      Wrote jobId taskId (⟨taskId, e.task.attempt, seq, label, state, input.now⟩ :: written)
        (e.writeCheckpoint s seq label state input)
  | other {written : List Checkpoint} {s s' : InMemoryStore MemoryValue} : Wrote jobId taskId written s → s'.Keyed →
      (∀ key : String, key.startsWith taskId.checkpoints = true →
        s'.records.get? (Ns.checkpoints jobId, key) = s.records.get? (Ns.checkpoints jobId, key)) →
      Wrote jobId taskId written s'

/-- The numbers of two checkpoints are the same. -/
def Checkpoint.at (attempt seq : Nat) (checkpoint : Checkpoint) : Bool :=
  checkpoint.attempt == attempt && checkpoint.seq == seq

/-- The store has the newest checkpoint of each number and no others. -/
structure Filed (jobId : JobId) (taskId : TaskId) (written : List Checkpoint)
    (s : InMemoryStore MemoryValue) : Prop where
  keyed : s.Keyed
  task : ∀ checkpoint ∈ written, checkpoint.taskId = taskId
  stored : ∀ checkpoint ∈ written, ∃ record, s.records.get? (Ns.checkpoints jobId, checkpoint.name) = some record
  newest : ∀ key record, key.startsWith taskId.checkpoints = true →
    s.records.get? (Ns.checkpoints jobId, key) = some record →
    record.expiresAt = none ∧ ∃ checkpoint, record.value = .checkpoint checkpoint ∧ key = checkpoint.name ∧
      written.find? (Checkpoint.at checkpoint.attempt checkpoint.seq) = some checkpoint

variable {jobId : JobId} {taskId : TaskId} {written : List Checkpoint} {s : InMemoryStore MemoryValue}

/-- A write stores a checkpoint that does not expire under its key. -/
theorem writeCheckpoint_records (keyed : s.Keyed) (e : Execution) (seq : Nat) (label : String) (state : Json)
    (input : StepInput) (forever : ∀ record, s.records.get? (Ns.checkpoints e.task.jobId,
      Checkpoint.name ⟨e.task.id, e.task.attempt, seq, label, state, input.now⟩) = some record →
        record.expiresAt = none) :
    ∃ record, (e.writeCheckpoint s seq label state input).records = s.records.insert (Ns.checkpoints e.task.jobId,
        Checkpoint.name ⟨e.task.id, e.task.attempt, seq, label, state, input.now⟩) record ∧ record.expiresAt = none ∧
      record.value = .checkpoint ⟨e.task.id, e.task.attempt, seq, label, state, input.now⟩ ∧
      (record.nspace, record.key) = (Ns.checkpoints e.task.jobId,
        Checkpoint.name ⟨e.task.id, e.task.attempt, seq, label, state, input.now⟩) := by
  generalize target : (Ns.checkpoints e.task.jobId,
    Checkpoint.name ⟨e.task.id, e.task.attempt, seq, label, state, input.now⟩) = key at forever
  let write : MemoryWrite MemoryValue := (MemoryWrite.new (Ns.checkpoints e.task.jobId)
    (Checkpoint.name ⟨e.task.id, e.task.attempt, seq, label, state, input.now⟩)
    (.checkpoint ⟨e.task.id, e.task.attempt, seq, label, state, input.now⟩) e.actor).forJob e.task.jobId
  have own : write.target = key := target
  have written : (e.writeCheckpoint s seq label state input).records =
      s.records.insert write.target (s.put write input.now input.id).1 := rfl
  refine ⟨(s.put write input.now input.id).1, by rw [written, own], ?_⟩
  unfold InMemoryStore.put
  cases stored : s.records.get? write.target with
  | none => exact ⟨rfl, rfl, target⟩
  | some old =>
    have endless := forever old (own ▸ stored)
    have alive : old.isExpired input.now = false := by
      unfold MemoryRecord.isExpired
      rw [endless]
      rfl
    simp only [alive, Bool.false_eq_true, if_false]
    exact ⟨endless, rfl, (keyed _ old stored).trans own⟩

theorem Wrote.filed (run : Wrote jobId taskId written s) : Filed jobId taskId written s := by
  induction run with
  | start keyed empty =>
    refine ⟨keyed, fun _ member => absurd member List.not_mem_nil, fun _ member => absurd member List.not_mem_nil, ?_⟩
    intro key record starts stored
    rw [empty key starts] at stored
    cases stored
  | @write written s e seq label state input _ job task ih =>
    subst job task
    let made : Checkpoint := ⟨e.task.id, e.task.attempt, seq, label, state, input.now⟩
    obtain ⟨record, records, endless, value, own⟩ := writeCheckpoint_records ih.keyed e seq label state input
      (fun record stored => (ih.newest _ record (Checkpoint.name_starts made) stored).1)
    constructor
    · intro key found stored
      rw [records, Dict.get?_insert] at stored
      split at stored
      · rename_i same
        cases stored
        rw [same]
        exact own
      · exact ih.keyed key found stored
    · intro checkpoint member
      rcases List.mem_cons.mp member with rfl | old
      · rfl
      · exact ih.task checkpoint old
    · intro checkpoint member
      rw [records, Dict.get?_insert]
      split
      · exact ⟨record, rfl⟩
      · rename_i different
        rcases List.mem_cons.mp member with rfl | old
        · exact absurd rfl different
        · exact ih.stored checkpoint old
    · intro key found starts stored
      rw [records, Dict.get?_insert] at stored
      split at stored
      · rename_i same
        cases stored
        refine ⟨endless, made, value, congrArg Prod.snd same, ?_⟩
        rw [List.find?_cons_of_pos (by simp [Checkpoint.at, made])]
      · rename_i different
        obtain ⟨forever, checkpoint, holds, name, first⟩ := ih.newest key found starts stored
        refine ⟨forever, checkpoint, holds, name, ?_⟩
        rw [List.find?_cons_of_neg, first]
        intro same
        simp only [Checkpoint.at, Bool.and_eq_true, beq_iff_eq] at same
        have task := ih.task checkpoint (List.mem_of_find?_eq_some first)
        refine different ?_
        rw [name]
        unfold Checkpoint.name
        rw [task, ← same.1, ← same.2]
  | other _ keyed same ih =>
    refine ⟨keyed, ih.task, ?_, ?_⟩
    · intro checkpoint member
      rw [same _ (ih.task checkpoint member ▸ checkpoint.name_starts)]
      exact ih.stored checkpoint member
    · intro key record starts stored
      rw [same key starts] at stored
      exact ih.newest key record starts stored

/-- What is listed for the task are its checkpoints. -/
theorem Filed.listed (filed : Filed jobId taskId written s) {now : DateTime} {record : MemoryRecord MemoryValue}
    (member : record ∈ s.list (Ns.checkpoints jobId) taskId.checkpoints now) :
    ∃ checkpoint, record.value = .checkpoint checkpoint ∧ record.key = checkpoint.name ∧
      written.find? (Checkpoint.at checkpoint.attempt checkpoint.seq) = some checkpoint := by
  obtain ⟨_, starts, visible⟩ := (InMemoryStore.mem_list filed.keyed).mp member
  obtain ⟨_, checkpoint, holds, name, first⟩ :=
    filed.newest record.key record starts (InMemoryStore.get_eq_some.mp visible).1
  exact ⟨checkpoint, holds, name, first⟩

/-- Every checkpoint that was written is listed under its key. -/
theorem Filed.lists (filed : Filed jobId taskId written s) (now : DateTime) {checkpoint : Checkpoint}
    (member : checkpoint ∈ written) :
    ∃ record ∈ s.list (Ns.checkpoints jobId) taskId.checkpoints now, record.key = checkpoint.name := by
  obtain ⟨record, stored⟩ := filed.stored checkpoint member
  have starts : checkpoint.name.startsWith taskId.checkpoints = true :=
    filed.task checkpoint member ▸ checkpoint.name_starts
  have alive : record.isExpired now = false := by
    unfold MemoryRecord.isExpired
    rw [(filed.newest _ record starts stored).1]
    rfl
  have own := filed.keyed _ record stored
  have name : record.key = checkpoint.name := congrArg Prod.snd own
  refine ⟨record, (InMemoryStore.mem_list filed.keyed).mpr ⟨congrArg Prod.fst own, by rw [name]; exact starts, ?_⟩,
    name⟩
  rw [name]
  exact InMemoryStore.get_eq_some.mpr ⟨stored, alive⟩

/-- The latest checkpoint is the newest one under the greatest key. -/
theorem Filed.latest (filed : Filed jobId taskId written s) (now : DateTime) :
    (written = [] ∧ s.latestCheckpoint jobId taskId now = .ok none) ∨
    ∃ checkpoint, s.latestCheckpoint jobId taskId now = .ok (some checkpoint) ∧
      written.find? (Checkpoint.at checkpoint.attempt checkpoint.seq) = some checkpoint ∧
      ∀ other ∈ written, other.name ≤ checkpoint.name := by
  unfold InMemoryStore.latestCheckpoint
  cases found : (s.list (Ns.checkpoints jobId) taskId.checkpoints now).getLast? with
  | none =>
    refine Or.inl ⟨?_, rfl⟩
    cases written with
    | nil => rfl
    | cons checkpoint rest =>
      obtain ⟨record, member, _⟩ := filed.lists now List.mem_cons_self
      rw [List.getLast?_eq_none_iff.mp found] at member
      cases member
  | some last =>
    obtain ⟨member, greatest⟩ := InMemoryStore.list_last found
    obtain ⟨checkpoint, holds, name, first⟩ := filed.listed member
    refine Or.inr ⟨checkpoint, ?_, first, ?_⟩
    · simp only [MemoryRecord.parseCheckpoint, holds]
      rfl
    · intro other written
      obtain ⟨record, listed, own⟩ := filed.lists now written
      rw [← own, ← name]
      exact greatest record listed

/-- The latest checkpoint has the greatest numbers exactly if the decimal text of every other
number sorts before theirs. -/
theorem Wrote.latest_iff (run : Wrote jobId taskId written s) (now : DateTime) :
    (s.latestCheckpoint jobId taskId now = .ok none ↔ written = []) ∧
    ∀ greatest ∈ written, (∀ checkpoint ∈ written, checkpoint.attempt < greatest.attempt ∨
        checkpoint.attempt = greatest.attempt ∧ checkpoint.seq ≤ greatest.seq) →
      ((∃ checkpoint, s.latestCheckpoint jobId taskId now = .ok (some checkpoint) ∧
          written.find? (Checkpoint.at greatest.attempt greatest.seq) = some checkpoint) ↔
        ∀ checkpoint ∈ written, Decimal.Sorts checkpoint.attempt greatest.attempt ∧
          (checkpoint.attempt = greatest.attempt → Decimal.Sorts checkpoint.seq greatest.seq)) := by
  have filed := run.filed
  rcases filed.latest now with ⟨rfl, answer⟩ | ⟨latest, answer, first, last⟩
  · exact ⟨⟨fun _ => rfl, fun _ => answer⟩, fun _ member => absurd member List.not_mem_nil⟩
  have inside := List.mem_of_find?_eq_some first
  refine ⟨⟨fun none => (by rw [answer] at none; cases none), fun empty => (by rw [empty] at inside; cases inside)⟩,
    ?_⟩
  intro greatest member above
  have task : ∀ checkpoint ∈ written, checkpoint.taskId = greatest.taskId :=
    fun checkpoint written => (filed.task checkpoint written).trans (filed.task greatest member).symm
  have sorts : ∀ checkpoint ∈ written, checkpoint.name ≤ greatest.name ↔
      Decimal.Sorts checkpoint.attempt greatest.attempt ∧
      (checkpoint.attempt = greatest.attempt → Decimal.Sorts checkpoint.seq greatest.seq) := by
    intro checkpoint written
    rw [Checkpoint.name_le_iff (task checkpoint written)]
    rcases above checkpoint written with less | ⟨same, order⟩
    · rw [Decimal.toDigits_le_iff (Nat.le_of_lt less)]
      exact and_congr_right fun _ => ⟨fun _ same => by omega, fun _ same => by omega⟩
    · rw [Decimal.toDigits_le_iff (Nat.le_of_eq same), Decimal.toDigits_le_iff order]
  constructor
  · rintro ⟨checkpoint, answered, found⟩ other written
    rw [answer] at answered
    cases answered
    have numbers := List.find?_some found
    simp only [Checkpoint.at, Bool.and_eq_true, beq_iff_eq] at numbers
    refine (sorts other written).mp ?_
    have name : latest.name = greatest.name := by
      unfold Checkpoint.name
      rw [task latest inside, numbers.1, numbers.2]
    rw [← name]
    exact last other written
  · intro condition
    refine ⟨latest, answer, ?_⟩
    have name := String.le_antisymm ((sorts latest inside).mpr (condition latest inside)) (last greatest member)
    obtain ⟨attempt, seq⟩ := Checkpoint.name_inj (task latest inside) name
    rw [← attempt, ← seq]
    exact first

/-- An attempt at a task that starts. -/
def startedAttempt (attempt : Nat) : Checkpoint := ⟨⟨1⟩, attempt, 0, "started", .null, 0⟩

theorem wrote_attempts (first second : Nat) : ∃ s, Wrote ⟨2⟩ ⟨1⟩ [startedAttempt second, startedAttempt first] s := by
  let execution (attempt : Nat) : Execution :=
    ⟨⟨0⟩, { TaskNode.new ⟨1⟩ ⟨2⟩ .work "a" "b" 0 with attempt := attempt }, .started⟩
  let input : StepInput := ⟨0, ⟨0⟩, 0, .error (.internal "")⟩
  have new : Wrote ⟨2⟩ ⟨1⟩ [] .new := .start (fun _ _ stored => (by cases stored)) (fun _ _ => rfl)
  exact ⟨_, .write (execution second) 0 "started" .null input
    (.write (execution first) 0 "started" .null input new rfl rfl) rfl rfl⟩

/-- Of the first two attempts the second is the latest. -/
theorem latest_second : ∃ s, Wrote ⟨2⟩ ⟨1⟩ [startedAttempt 2, startedAttempt 1] s ∧
    s.latestCheckpoint ⟨2⟩ ⟨1⟩ 0 = .ok (some (startedAttempt 2)) := by
  obtain ⟨s, run⟩ := wrote_attempts 1 2
  obtain ⟨checkpoint, answer, found⟩ :=
    ((run.latest_iff 0).2 (startedAttempt 2) List.mem_cons_self (by decide)).mpr (by decide)
  cases found
  exact ⟨s, run, answer⟩

/-- Of the ninth and the tenth the ninth is. -/
theorem latest_ninth : ∃ s, Wrote ⟨2⟩ ⟨1⟩ [startedAttempt 10, startedAttempt 9] s ∧
    s.latestCheckpoint ⟨2⟩ ⟨1⟩ 0 = .ok (some (startedAttempt 9)) := by
  obtain ⟨s, run⟩ := wrote_attempts 9 10
  refine ⟨s, run, ?_⟩
  rcases run.filed.latest 0 with ⟨empty, _⟩ | ⟨latest, answer, first, last⟩
  · cases empty
  rcases List.mem_cons.mp (List.mem_of_find?_eq_some first) with rfl | second
  · have task : (startedAttempt 9).taskId = (startedAttempt 10).taskId := rfl
    have below := last (startedAttempt 9) (List.mem_cons_of_mem _ List.mem_cons_self)
    obtain ⟨digits, _⟩ := (Checkpoint.name_le_iff task).mp below
    have sorts : Decimal.Sorts 9 10 := (Decimal.toDigits_le_iff (by decide)).mp digits
    exact absurd sorts (by decide)
  · rw [List.mem_singleton.mp second] at answer
    exact answer

end Swarm
