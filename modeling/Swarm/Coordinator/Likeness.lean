import Swarm.Coordinator.Consensus

namespace Swarm.Aggregate

/-- The alphanumeric words of a text. -/
def words (alphabet : Alphabet) (text : String) : List (List Char) :=
  (splitChars (fun c => !alphabet.isAlphanumeric c) [] text.toList).filter (fun word => !word.isEmpty)

/-- Two texts have no word in common, whatever its case. -/
def NothingShared (alphabet : Alphabet) (left right : String) : Prop :=
  ∀ word ∈ words alphabet left, ∀ word' ∈ words alphabet right,
    alphabet.toLowercase (String.ofList word) ≠ alphabet.toLowercase (String.ofList word')

/-- A text has a word that its tokens show. -/
def Telling (alphabet : Alphabet) (text : String) : Prop :=
  ∃ word ∈ words alphabet text, 3 < (Utf8.encode word).length

section
variable {alphabet : Alphabet} {tests : Comparison} {left right : TaskResult}

theorem mem_tokens {text token : String} : token ∈ tokens alphabet text ↔
    ∃ word ∈ words alphabet text, 3 < (Utf8.encode word).length ∧
      alphabet.toLowercase (String.ofList word) = token := by
  simp only [tokens, words, List.mem_toFinset, List.mem_map, List.mem_filter, decide_eq_true_eq]
  constructor
  · rintro ⟨word, ⟨piece, long⟩, lower⟩
    refine ⟨word, ⟨piece, ?_⟩, long, lower⟩
    cases word with
    | nil => exact absurd long (by decide)
    | cons _ _ => rfl
  · rintro ⟨word, ⟨piece, _⟩, long, lower⟩
    exact ⟨word, ⟨piece, long⟩, lower⟩

theorem tokens_eq_empty {text : String} : tokens alphabet text = ∅ ↔ ¬ Telling alphabet text := by
  rw [Finset.eq_empty_iff_forall_notMem]
  constructor
  · rintro none ⟨word, member, long⟩
    exact none _ (mem_tokens.mpr ⟨word, member, long, rfl⟩)
  · intro blank token member
    obtain ⟨word, inside, long, _⟩ := mem_tokens.mp member
    exact blank ⟨word, inside, long⟩

theorem tokens_inter_eq_empty {left right : String} (nothing : NothingShared alphabet left right) :
    tokens alphabet left ∩ tokens alphabet right = ∅ := by
  rw [Finset.eq_empty_iff_forall_notMem]
  intro token member
  obtain ⟨inLeft, inRight⟩ := Finset.mem_inter.mp member
  obtain ⟨word, listed, _, lower⟩ := mem_tokens.mp inLeft
  obtain ⟨word', listed', _, lower'⟩ := mem_tokens.mp inRight
  exact nothing word listed word' listed' (lower.trans lower'.symm)

theorem similarity_disjoint {left right : Finset String} (apart : left ∩ right = ∅) :
    similarity left right = if left = ∅ ∧ right = ∅ then 1 else 0 := by
  unfold similarity
  split
  · rfl
  · simp only [apart, Finset.card_empty, Nat.cast_zero, zero_div, ite_self]

/-- Two texts with nothing in common look the same only where nothing of either is looked at. -/
theorem similarity_tokens {left right : String}
    (nothing : NothingShared alphabet left right) [Decidable (Telling alphabet left)]
    [Decidable (Telling alphabet right)] : similarity (tokens alphabet left) (tokens alphabet right) =
      if Telling alphabet left ∨ Telling alphabet right then 0 else 1 := by
  rw [similarity_disjoint (tokens_inter_eq_empty nothing)]
  by_cases telling : Telling alphabet left ∨ Telling alphabet right
  · rw [if_pos telling, if_neg]
    rintro ⟨none, none'⟩
    rcases telling with told | told
    · exact tokens_eq_empty.mp none told
    · exact tokens_eq_empty.mp none' told
  · rw [if_neg telling, if_pos]
    rw [not_or] at telling
    exact ⟨tokens_eq_empty.mpr telling.1, tokens_eq_empty.mpr telling.2⟩

theorem cluster_pair (tests : Comparison) (left right : TaskResult) :
    cluster tests [left, right] = if tests.sameAnswer left right = true then [[0, 1]] else [[0], [1]] := by
  have close : atPlaces tests.sameAnswer [left, right] 0 1 = tests.sameAnswer left right := rfl
  unfold cluster Greedy.group
  simp only [List.length_cons, List.length_nil, Nat.zero_add, Nat.reduceAdd, List.range_succ, List.range_zero,
    List.nil_append,
    List.cons_append, List.foldl_cons, List.foldl_nil, Greedy.joinFirst, List.any_cons, List.any_nil,
      Bool.or_false, close]

theorem dropRedundant_pair (tests : Comparison) (left right : TaskResult) :
    dropRedundant tests [left, right] = if tests.redundant left right = true then [left] else [left, right] := by
  simp only [dropRedundant, Greedy.keep, List.any_nil, Bool.false_eq_true, if_false, List.nil_append, List.any_cons,
    Bool.or_false]
  split <;> rfl

/-- Every report counts the clusters. -/
theorem consensus_positions (tests : Comparison) {results : List TaskResult} (enough : 2 ≤ results.length)
    (mode : ConsensusMode) :
    ∃ report, consensus tests results mode = some report ∧ report.distinctPositions =
      (cluster tests results).length := by
  have elected : ∃ members rate, elect results (cluster tests results) mode = some (members, rate) ∧
      members ∈ cluster tests results := by
    cases mode with
    | majority =>
      obtain ⟨members, listed, elected, _⟩ := elect_majority tests enough
      exact ⟨members, _, elected, listed⟩
    | confidenceWeighted =>
      obtain ⟨members, listed, elected, _⟩ := elect_confidenceWeighted tests enough
      exact ⟨members, _, elected, listed⟩
  obtain ⟨members, rate, elected, listed⟩ := elected
  obtain ⟨best, _, result, _, _, report⟩ := consensus_of_elect enough elected listed
  exact ⟨_, report, rfl⟩

/-- Two answers with nothing in common are told apart exactly when one of them has a word of more than three bytes. -/
theorem told_apart_iff (alphabet : Alphabet) {left right : TaskResult}
    (nothing : NothingShared alphabet left.output right.output) :
    (similarity (tokens alphabet left.output) (tokens alphabet right.output) < sameAnswer ∧
      (∀ mode, ∃ report, consensus (comparison alphabet) [left, right] mode = some report ∧
        report.distinctPositions = 2) ∧
      dropRedundant (comparison alphabet) [left, right] = [left, right]) ↔
    Telling alphabet left.output ∨ Telling alphabet right.output := by
  classical
  have alike := similarity_tokens nothing
  constructor
  · rintro ⟨below, _⟩
    by_contra untold
    rw [alike, if_neg untold] at below
    exact absurd below (by decide +kernel)
  · intro telling
    rw [if_pos telling] at alike
    have different : (comparison alphabet).sameAnswer left right = false := by
      simp only [comparison, alike]
      decide +kernel
    have fresh : (comparison alphabet).redundant left right = false := by
      simp only [comparison, alike]
      decide +kernel
    refine ⟨by rw [alike]; decide +kernel, ?_, ?_⟩
    · intro mode
      have enough : 2 ≤ [left, right].length := Nat.le_refl _
      obtain ⟨report, run, positions⟩ := consensus_positions (comparison alphabet) enough mode
      rw [cluster_pair, different, if_neg Bool.false_ne_true] at positions
      exact ⟨report, run, positions⟩
    · rw [dropRedundant_pair, fresh, if_neg Bool.false_ne_true]

end

/-- English letters and digits. -/
def english : Alphabet := ⟨Char.isAlphanum, fun text => String.ofList (text.toList.map Char.toLower)⟩

def refusal : TaskResult :=
  resultOf 1 .answer "no" "No, it is not so: we do not see how or why it can go on now." (1 / 2)

def assent : TaskResult :=
  resultOf 2 .answer "yes" "Yes, you get far too big a sum for one man and his old dog." (1 / 2)

/-- Two answers of fifteen words and more, with none in common: one position, and one of them is dropped. -/
theorem refusal_is_assent : 15 ≤ (words english refusal.output).length ∧ 15 ≤ (words english assent.output).length ∧
    (∀ word ∈ words english refusal.output, ∀ word' ∈ words english assent.output,
      english.toLowercase (String.ofList word) ≠ english.toLowercase (String.ofList word')) ∧
    similarity (tokens english refusal.output) (tokens english assent.output) = 1 ∧
    ¬ similarity (tokens english refusal.output) (tokens english assent.output) < sameAnswer ∧
    (consensus (comparison english) [refusal, assent] .majority).map ConsensusReport.distinctPositions = some 1 ∧
    (dropRedundant (comparison english) [refusal, assent]).length = 1 := by decide +kernel

def proposal : TaskResult := resultOf 3 .answer "maybe" "Perhaps." (1 / 2)

theorem told_apart_proposal : dropRedundant (comparison english) [refusal, proposal] = [refusal, proposal] := by
  have nothing : ∀ word ∈ words english refusal.output, ∀ word' ∈ words english proposal.output,
      english.toLowercase (String.ofList word) ≠ english.toLowercase (String.ofList word') := by decide +kernel
  have telling : ∃ word ∈ words english proposal.output, 3 < (Utf8.encode word).length := by decide +kernel
  exact ((told_apart_iff english nothing).mpr (Or.inr telling)).2.2

end Swarm.Aggregate
