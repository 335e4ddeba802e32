import Swarm.Coordinator.Decompose
import Swarm.Domain.Identity

namespace Swarm

theorem distinctTopics_spec (tools : TextTools) (count : Nat) (topics : List String) {seen : List String}
    (unique : seen.Nodup) (short : seen.length < count) :
    (distinctTopics tools count seen topics).Nodup ∧ (distinctTopics tools count seen topics).length ≤ count := by
  induction topics generalizing seen with
  | nil => exact ⟨unique, Nat.le_of_lt short⟩
  | cons topic rest ih =>
    unfold distinctTopics
    by_cases known : seen.any (fun existing => tools.toLowercase existing == tools.toLowercase topic) = true
    · simp only [known, if_true]
      rw [if_neg (Nat.ne_of_lt short)]
      exact ih unique short
    · have new : topic ∉ seen := fun inside => known (List.any_eq_true.mpr ⟨topic, inside, beq_self_eq_true _⟩)
      have longer : (seen ++ [topic]).Nodup :=
        (List.perm_append_singleton topic seen).nodup_iff.mpr (List.nodup_cons.mpr ⟨new, unique⟩)
      have size : (seen ++ [topic]).length = seen.length + 1 := List.length_append
      simp only [Bool.not_eq_true] at known
      simp only [known, Bool.false_eq_true, if_false]
      split
      · rename_i full
        exact ⟨longer, Nat.le_of_eq full⟩
      · rename_i room
        exact ih longer (by omega)

/-- A run of the padding loop: how many rounds it takes from a value of the counter and the topics so
far, and the topics at its end. It has no bound on its rounds: only the test of the loop ends it. -/
inductive Pads (overflow : Overflow) (stem : String) (count : Nat) : Nat → Int → List String → List String → Prop
  | ended {aspect : Int} {seen : List String} : ¬ seen.length < count → Pads overflow stem count 0 aspect seen seen
  | round {rounds : Nat} {aspect next : Int} {seen topics : List String} : seen.length < count →
      addI32 overflow aspect 1 = .ok next →
      Pads overflow stem count rounds next
        (if seen.contains s!"{stem} — aspect {aspect}" then seen else seen ++ [s!"{stem} — aspect {aspect}"]) topics →
      Pads overflow stem count (rounds + 1) aspect seen topics

/-- As many rounds of fuel as the loop takes are enough. -/
theorem Pads.padTopics {overflow : Overflow} {stem : String} {count rounds fuel : Nat} {aspect : Int}
    {seen topics : List String} (pads : Pads overflow stem count rounds aspect seen topics) (enough : rounds ≤ fuel) :
    padTopics overflow stem count fuel aspect seen = .ok topics := by
  induction pads generalizing fuel with
  | ended full =>
    cases fuel <;> simp only [Swarm.padTopics, if_neg full]
  | round room counted _ ih =>
    cases fuel with
    | zero => omega
    | succ fuel =>
      simp only [Swarm.padTopics, if_pos room, counted]
      exact ih (by omega)

/-- Fuel that was enough has not cut the loop short. -/
theorem pads_of_padTopics {overflow : Overflow} {stem : String} {count fuel : Nat} {aspect : Int}
    {seen topics : List String} (run : padTopics overflow stem count fuel aspect seen = .ok topics) :
    ∃ rounds, Pads overflow stem count rounds aspect seen topics := by
  induction fuel generalizing aspect seen with
  | zero =>
    unfold padTopics at run
    split at run
    · cases run
    · rename_i full
      cases run
      exact ⟨0, .ended full⟩
  | succ fuel ih =>
    unfold padTopics at run
    by_cases room : seen.length < count
    · simp only [if_pos room] at run
      cases counted : addI32 overflow aspect 1 with
      | error halt =>
        rw [counted] at run
        cases run
      | ok next =>
        rw [counted] at run
        obtain ⟨rounds, pads⟩ := ih run
        exact ⟨rounds + 1, .round room counted pads⟩
    · simp only [if_neg room] at run
      cases run
      exact ⟨0, .ended room⟩

/-- The counter of the loop in its rounds, the first of which is round 0. -/
def aspectAt (round : Nat) : Int := Int.bmod (round + 1) (2 ^ 32)

/-- The text that a round of the loop makes up. -/
def aspectName (stem : String) (round : Nat) : String := s!"{stem} — aspect {aspectAt round}"

/-- How many rounds the counter allows: a release build makes up the same texts again after as many,
a debug build panics at the end of the next. -/
def Overflow.rounds : Overflow → Nat
  | wraps => 2 ^ 32
  | panics => 2 ^ 31 - 2

theorem turn_rounds (overflow : Overflow) : overflow.rounds ≤ 2 ^ 32 := by
  cases overflow <;> decide

theorem integer_inj {left right : Int} (same : toString left = toString right) : left = right := by
  have minus : ∀ m n : Nat, toString (m : Int) ≠ toString (Int.negSucc n) := by
    intro m n same
    have inside : '-' ∈ (toString m).toList := by
      have texts := congrArg String.toList same
      change (toString m).toList = ("-" ++ toString (n + 1)).toList at texts
      rw [texts, String.toList_append]
      exact List.mem_append_left _ (by decide)
    exact not_mem_decimal (by decide) m inside
  cases left with
  | ofNat m =>
    cases right with
    | ofNat n => exact congrArg Int.ofNat (decimal_inj same)
    | negSucc n => exact absurd same (minus m n)
  | negSucc m =>
    cases right with
    | ofNat n => exact absurd same.symm (minus n m)
    | negSucc n =>
      change "-" ++ toString (m + 1) = "-" ++ toString (n + 1) at same
      have equal := decimal_inj ((String.append_right_inj _).mp same)
      rw [Nat.succ.inj equal]

theorem aspectName_inj {stem : String} {left right : Nat} (small : left < 2 ^ 32) (small' : right < 2 ^ 32)
    (same : aspectName stem left = aspectName stem right) : left = right := by
  unfold aspectName at same
  simp only [String.append_assoc, String.append_right_inj] at same
  have counters := integer_inj same
  unfold aspectAt at counters
  rw [Int.bmod_def, Int.bmod_def] at counters
  omega

/-- The counter goes on exactly as long as the build allows. A release build has it go on for ever. -/
theorem addI32_aspectAt (overflow : Overflow) {round : Nat} (allowed : overflow = .panics → round < 2 ^ 31 - 2) :
    addI32 overflow (aspectAt round) 1 = .ok (aspectAt (round + 1)) := by
  have counted : Int.bmod (aspectAt round + 1) (2 ^ 32) = aspectAt (round + 1) := by
    unfold aspectAt
    rw [Int.bmod_def, Int.bmod_def, Int.bmod_def]
    omega
  cases overflow with
  | wraps => exact congrArg Except.ok counted
  | panics =>
    have small := allowed rfl
    have plain : aspectAt (round + 1) = aspectAt round + 1 := by
      unfold aspectAt
      rw [Int.bmod_def, Int.bmod_def]
      omega
    simp only [addI32, counted, plain, if_true]

theorem allowed_of_addI32 {round : Nat} {next : Int} (before : round ≤ 2 ^ 31 - 2)
    (counted : addI32 .panics (aspectAt round) 1 = .ok next) : round < 2 ^ 31 - 2 := by
  unfold addI32 at counted
  simp only at counted
  split at counted
  · rename_i plain
    unfold aspectAt at plain
    rw [Int.bmod_def, Int.bmod_def] at plain
    omega
  · cases counted

section
variable (stem : String) (authored : List String)

/-- The topics after some rounds. -/
def paddedTopics : Nat → List String
  | 0 => authored
  | round + 1 =>
    if (paddedTopics round).contains (aspectName stem round) then paddedTopics round
    else paddedTopics round ++ [aspectName stem round]

/-- How many of the texts that the first rounds make up the author wrote already. -/
def collisions (rounds : Nat) : Nat := (List.range rounds).countP (fun round => aspectName stem round ∈ authored)

variable {stem authored}

theorem mem_paddedTopics {topic : String} (rounds : Nat) :
    topic ∈ paddedTopics stem authored rounds ↔ topic ∈ authored ∨
      ∃ round < rounds, topic = aspectName stem round := by
  induction rounds with
  | zero => simp [paddedTopics]
  | succ rounds ih =>
    have split : (∃ round < rounds + 1, topic = aspectName stem round) ↔
        (∃ round < rounds, topic = aspectName stem round) ∨ topic = aspectName stem rounds := by
      simp only [Nat.lt_succ_iff_lt_or_eq, or_and_right, exists_or, exists_eq_left]
    rw [split, ← or_assoc, ← ih, paddedTopics]
    split
    · rename_i known
      refine ⟨Or.inl, fun either => either.elim id ?_⟩
      rintro rfl
      exact List.contains_iff_mem.mp known
    · rw [List.mem_append, List.mem_singleton]

theorem paddedTopics_nodup (unique : authored.Nodup) (rounds : Nat) : (paddedTopics stem authored rounds).Nodup := by
  induction rounds with
  | zero => exact unique
  | succ rounds ih =>
    unfold paddedTopics
    split
    · exact ih
    · rename_i absent
      have new : aspectName stem rounds ∉ paddedTopics stem authored rounds := by simpa using absent
      exact (List.perm_append_singleton _ _).nodup_iff.mpr (List.nodup_cons.mpr ⟨new, ih⟩)

theorem paddedTopics_succ_length (stem : String) (authored : List String) (rounds : Nat) :
    (paddedTopics stem authored rounds).length ≤ (paddedTopics stem authored (rounds + 1)).length ∧
      (paddedTopics stem authored (rounds + 1)).length ≤ (paddedTopics stem authored rounds).length + 1 := by
  rw [paddedTopics]
  split
  · omega
  · rw [List.length_append, List.length_singleton]
    omega

theorem paddedTopics_mono {first last : Nat} (order : first ≤ last) :
    (paddedTopics stem authored first).length ≤ (paddedTopics stem authored last).length := by
  induction last, order using Nat.le_induction with
  | base => exact Nat.le_refl _
  | succ last _ ih => exact Nat.le_trans ih (paddedTopics_succ_length stem authored last).1

/-- Within one turn of the counter only what the author wrote can collide. -/
theorem paddedTopics_length (stem : String) (authored : List String) {rounds : Nat} (turn : rounds ≤ 2 ^ 32) :
    (paddedTopics stem authored rounds).length + collisions stem authored rounds = authored.length + rounds := by
  induction rounds with
  | zero => rfl
  | succ rounds ih =>
    have before := ih (by omega)
    have known : aspectName stem rounds ∈ paddedTopics stem authored rounds ↔ aspectName stem rounds ∈ authored := by
      rw [mem_paddedTopics]
      refine ⟨fun either => either.elim id ?_, Or.inl⟩
      rintro ⟨round, earlier, same⟩
      have equal := aspectName_inj (by omega) (by omega) same
      omega
    have count : collisions stem authored (rounds + 1) =
        collisions stem authored rounds + if aspectName stem rounds ∈ authored then 1 else 0 := by
      simp only [collisions, List.range_succ, List.countP_append, List.countP_singleton, decide_eq_true_eq]
    rw [count, paddedTopics]
    by_cases inside : aspectName stem rounds ∈ authored
    · rw [if_pos (List.contains_iff_mem.mpr (known.mpr inside)), if_pos inside]
      omega
    · have absent : (paddedTopics stem authored rounds).contains (aspectName stem rounds) ≠ true :=
        fun listed => inside (known.mp (List.contains_iff_mem.mp listed))
      rw [if_neg absent, if_neg inside, List.length_append, List.length_singleton]
      omega

/-- After one turn of the counter there is nothing new. -/
theorem paddedTopics_turn (rounds : Nat) :
    (paddedTopics stem authored rounds).length ≤ (paddedTopics stem authored (2 ^ 32)).length := by
  rcases Nat.le_total rounds (2 ^ 32) with within | beyond
  · exact paddedTopics_mono within
  · induction rounds, beyond using Nat.le_induction with
    | base => exact Nat.le_refl _
    | succ rounds beyond ih =>
      have again : aspectName stem rounds = aspectName stem (rounds % 2 ^ 32) := by
        have same : aspectAt rounds = aspectAt (rounds % 2 ^ 32) := by
          unfold aspectAt
          rw [Int.bmod_def, Int.bmod_def]
          omega
        unfold aspectName
        rw [same]
      have known : (paddedTopics stem authored rounds).contains (aspectName stem rounds) = true :=
        List.contains_iff_mem.mpr ((mem_paddedTopics rounds).mpr (Or.inr ⟨rounds % 2 ^ 32,
          Nat.lt_of_lt_of_le (Nat.mod_lt _ (by decide)) beyond, again⟩))
      rw [paddedTopics, if_pos known]
      exact ih

/-- What the author wrote is hit at most once each. -/
theorem collisions_le (stem : String) (authored : List String) {rounds : Nat} (turn : rounds ≤ 2 ^ 32) :
    collisions stem authored rounds ≤ authored.length := by
  have sub : ((List.range rounds).map (aspectName stem)).filter (fun topic => topic ∈ authored) ⊆ authored := by
    intro topic member
    simpa using (List.mem_filter.mp member).2
  have distinct : (((List.range rounds).map (aspectName stem)).filter (fun topic => topic ∈ authored)).Nodup := by
    refine List.Nodup.filter _ (List.Nodup.map_on ?_ List.nodup_range)
    intro left first right second same
    have first := List.mem_range.mp first
    have second := List.mem_range.mp second
    exact aspectName_inj (by omega) (by omega) same
  have bound := (List.subperm_of_subset distinct sub).length_le
  rw [← List.countP_eq_length_filter, List.countP_map] at bound
  exact bound

section
variable {overflow : Overflow} {count : Nat}

/-- A run of the loop goes through the padded topics, by induction on its rounds. -/
theorem pads_paddedTopics {first last : Nat} (order : first ≤ last) (allowed : overflow = .panics → last ≤ 2 ^ 31 - 2)
    (short : ∀ round < last, (paddedTopics stem authored round).length < count)
    (full : count ≤ (paddedTopics stem authored last).length) :
    Pads overflow stem count (last - first) (aspectAt first) (paddedTopics stem authored first)
      (paddedTopics stem authored last) := by
  obtain ⟨rounds, rfl⟩ := Nat.exists_eq_add_of_le order
  rw [Nat.add_sub_cancel_left]
  induction rounds generalizing first with
  | zero => exact .ended (Nat.not_lt.mpr full)
  | succ rounds ih =>
    refine .round (short first (by omega)) (addI32_aspectAt overflow fun panics => ?_) ?_
    · have := allowed panics
      omega
    · have shifted : first + (rounds + 1) = first + 1 + rounds := by omega
      rw [shifted] at allowed short full ⊢
      exact ih (by omega) allowed short full

/-- Whatever run the loop has, it goes through the padded topics, and no further than the counter allows. -/
theorem Pads.paddedTopics {rounds first : Nat} {topics : List String}
    (pads : Pads overflow stem count rounds (aspectAt first) (Swarm.paddedTopics stem authored first) topics)
    (before : overflow = .panics → first ≤ 2 ^ 31 - 2) :
    topics = Swarm.paddedTopics stem authored (first + rounds) ∧ count ≤ topics.length ∧
      (overflow = .panics → first + rounds ≤ 2 ^ 31 - 2) := by
  induction rounds generalizing first with
  | zero =>
    cases pads with
    | ended full => exact ⟨rfl, Nat.not_lt.mp full, before⟩
  | succ rounds ih =>
    cases pads with
    | round room counted rest =>
      have here : overflow = .panics → first < 2 ^ 31 - 2 := by
        rintro rfl
        exact allowed_of_addI32 (before rfl) counted
      rw [addI32_aspectAt overflow here] at counted
      obtain rfl := Except.ok.inj counted
      have ended := ih rest fun panics => Nat.succ_le_of_lt (here panics)
      rw [show first + (rounds + 1) = first + 1 + rounds by omega]
      exact ended

/-- A loop that ends has had enough values of its counter. -/
theorem Pads.room {rounds : Nat} {topics : List String} (pads : Pads overflow stem count rounds 1 authored topics) :
    count + collisions stem authored overflow.rounds ≤ authored.length + overflow.rounds := by
  have start : Pads overflow stem count rounds (aspectAt 0) (Swarm.paddedTopics stem authored 0) topics := by
    rw [show aspectAt 0 = 1 by decide]
    exact pads
  obtain ⟨rfl, full, allowed⟩ := start.paddedTopics (fun _ => Nat.zero_le _)
  rw [Nat.zero_add] at full allowed
  have bound : (Swarm.paddedTopics stem authored rounds).length ≤
      (Swarm.paddedTopics stem authored overflow.rounds).length := by
    cases overflow with
    | wraps => exact paddedTopics_turn rounds
    | panics => exact paddedTopics_mono (allowed rfl)
  have length := paddedTopics_length stem authored (turn_rounds overflow)
  omega

/-- With enough values of the counter the loop makes up what is missing, and then it stops. -/
theorem pads_of_room (short : authored.length ≤ count)
    (room : count + collisions stem authored overflow.rounds ≤ authored.length + overflow.rounds) :
    ∃ rounds ≤ count, Pads overflow stem count rounds 1 authored (paddedTopics stem authored rounds) ∧
      (paddedTopics stem authored rounds).length = count := by
  have whole := paddedTopics_length stem authored (turn_rounds overflow)
  have reached : ∃ last, count ≤ (paddedTopics stem authored last).length := ⟨overflow.rounds, by omega⟩
  obtain ⟨last, full, least⟩ : ∃ last, count ≤ (paddedTopics stem authored last).length ∧
      ∀ round < last, (paddedTopics stem authored round).length < count :=
    ⟨Nat.find reached, Nat.find_spec reached, fun _ before => Nat.lt_of_not_le (Nat.find_min reached before)⟩
  have within : last ≤ overflow.rounds := by
    rw [← Nat.not_lt]
    intro beyond
    have := least overflow.rounds beyond
    omega
  have turn := Nat.le_trans within (turn_rounds overflow)
  have exact : (paddedTopics stem authored last).length = count := by
    cases last with
    | zero => exact Nat.le_antisymm short full
    | succ last =>
      have before := least last (by omega)
      have grown := (paddedTopics_succ_length stem authored last).2
      omega
  have length := paddedTopics_length stem authored turn
  have hits := collisions_le stem authored turn
  have allowed : overflow = .panics → last ≤ 2 ^ 31 - 2 := by
    rintro rfl
    exact within
  have run := pads_paddedTopics (Nat.zero_le last) allowed least full
  exact ⟨last, by omega, run, exact⟩

end

end

/-- The topics that the author wrote, each once up to case. -/
def writtenTopics (tools : TextTools) (seen : List String) : List String → List String
  | [] => seen
  | topic :: rest =>
    let known := seen.any (fun existing => tools.toLowercase existing == tools.toLowercase topic)
    writtenTopics tools (if known then seen else seen ++ [topic]) rest

theorem prefix_writtenTopics (tools : TextTools) (topics seen : List String) :
    seen <+: writtenTopics tools seen topics := by
  induction topics generalizing seen with
  | nil => exact List.prefix_refl seen
  | cons topic rest ih =>
    refine List.IsPrefix.trans ?_ (ih _)
    split
    · exact List.prefix_refl seen
    · exact List.prefix_append seen _

/-- The early return leaves the first of them. -/
theorem distinctTopics_eq_take (tools : TextTools) {count : Nat} (topics : List String) {seen : List String}
    (short : seen.length < count) :
    distinctTopics tools count seen topics = (writtenTopics tools seen topics).take count := by
  induction topics generalizing seen with
  | nil => exact (List.take_of_length_le (Nat.le_of_lt short)).symm
  | cons topic rest ih =>
    unfold distinctTopics writtenTopics
    simp only
    generalize longer : (if seen.any (fun existing => tools.toLowercase existing == tools.toLowercase topic) = true
      then seen else seen ++ [topic]) = grown
    have size : grown.length ≤ seen.length + 1 := by
      rw [← longer]
      split
      · omega
      · rw [List.length_append, List.length_singleton]
    split
    · rename_i full
      rw [← full]
      exact (List.prefix_iff_eq_take.mp (prefix_writtenTopics tools rest grown))
    · exact ih (by omega)

/-- The counter of the padding loop has enough values for the topics that the author did not write. -/
def TopicsFit (overflow : Overflow) (tools : TextTools) (objective : String) (count : Nat) : Prop :=
  count + collisions (shorten objective.toList 6) (writtenTopics tools [] (clauseTopics objective)) overflow.rounds ≤
    (writtenTopics tools [] (clauseTopics objective)).length + overflow.rounds

theorem collisions_le_rounds (stem : String) (authored : List String) (rounds : Nat) :
    collisions stem authored rounds ≤ rounds := by
  have bound :=
    List.countP_le_length (p := fun round => decide (aspectName stem round ∈ authored)) (l := List.range rounds)
  rw [List.length_range] at bound
  exact bound

/-- Whether there is room does not depend on where the early return stops. -/
theorem topicsFit_iff {overflow : Overflow} {tools : TextTools} {objective : String} {count : Nat}
    (positive : 1 ≤ count) :
    TopicsFit overflow tools objective count ↔
      count + collisions (shorten objective.toList 6) (distinctTopics tools count [] (clauseTopics objective))
        overflow.rounds ≤ (distinctTopics tools count [] (clauseTopics objective)).length + overflow.rounds := by
  unfold TopicsFit
  rw [distinctTopics_eq_take tools _ positive]
  generalize writtenTopics tools [] (clauseTopics objective) = written
  rcases Nat.le_total written.length count with few | many
  · rw [List.take_of_length_le few]
  · have all := collisions_le_rounds (shorten objective.toList 6) written overflow.rounds
    have part := collisions_le_rounds (shorten objective.toList 6) (written.take count) overflow.rounds
    rw [List.length_take, Nat.min_eq_left many]
    omega

/-- What the author wrote takes no more values of the counter than it saves. -/
theorem topicsFit_of_le {overflow : Overflow} (tools : TextTools) (objective : String) {count : Nat}
    (few : count ≤ overflow.rounds) : TopicsFit overflow tools objective count := by
  have hits := collisions_le (shorten objective.toList 6) (writtenTopics tools [] (clauseTopics objective))
    (turn_rounds overflow)
  unfold TopicsFit
  omega

/-- With room for them there are as many topics as asked for, no two the same. -/
theorem subtopics_of_fit {overflow : Overflow} {tools : TextTools} {objective : String} {count : Nat}
    (positive : 1 ≤ count) (fit : TopicsFit overflow tools objective count) : ∃ topics rounds,
    Pads overflow (shorten objective.toList 6) count rounds 1 (distinctTopics tools count [] (clauseTopics objective))
      topics ∧
    subtopics overflow tools objective count = .ok topics ∧ topics.length = count ∧ topics.Nodup := by
  obtain ⟨unique, short⟩ := distinctTopics_spec tools count (clauseTopics objective) List.nodup_nil positive
  obtain ⟨rounds, few, pads, length⟩ := pads_of_room short ((topicsFit_iff positive).mp fit)
  exact ⟨_, rounds, pads, pads.padTopics (by omega), length, paddedTopics_nodup unique rounds⟩

/-- Topics that come out have had room. -/
theorem fit_of_subtopics {overflow : Overflow} {tools : TextTools} {objective : String} {count : Nat}
    (positive : 1 ≤ count) {topics : List String} (run : subtopics overflow tools objective count = .ok topics) :
    TopicsFit overflow tools objective count := by
  obtain ⟨rounds, pads⟩ := pads_of_padTopics run
  exact (topicsFit_iff positive).mpr pads.room

/-- The loop comes to an end with exactly as many topics as asked for, no two the same, exactly if its
counter has enough values. -/
theorem subtopics_terminates_iff (overflow : Overflow) (tools : TextTools) (objective : String) {count : Nat}
    (positive : 1 ≤ count) :
    (∃ topics rounds,
      Pads overflow (shorten objective.toList 6) count rounds 1
        (distinctTopics tools count [] (clauseTopics objective))
        topics ∧
      subtopics overflow tools objective count = .ok topics ∧ topics.length = count ∧ topics.Nodup) ↔
    TopicsFit overflow tools objective count := by
  constructor
  · rintro ⟨topics, rounds, pads, _⟩
    exact (topicsFit_iff positive).mpr pads.room
  · exact subtopics_of_fit positive

/-- Texts that hold no JSON and no upper case. -/
def plainTools : TextTools := ⟨fun _ => .error "expected value at line 1 column 1", id⟩

/-- An objective that already has the first name that the loop would make up. -/
theorem subtopics_terminates_collision : TopicsFit .panics plainTools "a b c d e f\na b c d e f — aspect 1" 3 ∧
    ∃ topics, subtopics .panics plainTools "a b c d e f\na b c d e f — aspect 1" 3 = .ok topics ∧
      topics.length = 3 := by
  have fit : TopicsFit .panics plainTools "a b c d e f\na b c d e f — aspect 1" 3 :=
    topicsFit_of_le plainTools "a b c d e f\na b c d e f — aspect 1" (by decide)
  obtain ⟨topics, _, _, run, length, _⟩ := (subtopics_terminates_iff .panics plainTools
    "a b c d e f\na b c d e f — aspect 1" (by decide)).mpr fit
  exact ⟨fit, topics, run, length⟩

/-- No count beyond one turn of the counter fits a text without topics of its own. -/
theorem not_topicsFit {overflow : Overflow} {tools : TextTools} {objective : String} {count : Nat}
    (bare : clauseTopics objective = []) (many : 2 ^ 32 < count) : ¬ TopicsFit overflow tools objective count := by
  intro fit
  unfold TopicsFit at fit
  rw [bare, writtenTopics, List.length_nil] at fit
  have turn := turn_rounds overflow
  omega

/-- More topics than the counter has values: no build makes them up. -/
theorem subtopics_unending :
    (¬ ∃ topics, subtopics .wraps plainTools "x" (2 ^ 33) = .ok topics) ∧
    ¬ ∃ topics, subtopics .panics plainTools "x" (2 ^ 33) = .ok topics := by
  have bare : clauseTopics "x" = [] := by decide +kernel
  constructor <;> rintro ⟨topics, run⟩ <;>
    exact not_topicsFit bare (by decide) (fit_of_subtopics (by decide) run)

end Swarm
