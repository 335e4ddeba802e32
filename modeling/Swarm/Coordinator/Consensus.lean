import Mathlib.Algebra.Order.BigOperators.Group.List
import Mathlib.Algebra.Order.Field.Rat
import Swarm.Coordinator.Aggregate

namespace Swarm.Aggregate

section
variable {tests : Comparison} {results : List TaskResult}

theorem cluster_grouping (tests : Comparison) (results : List TaskResult) :
    Greedy.Grouping (atPlaces tests.sameAnswer results) results.length (cluster tests results) :=
  Greedy.grouping_group _ _

theorem cluster_nonempty (tests : Comparison) (enough : 2 ≤ results.length) : cluster tests results ≠ [] := by
  intro none
  have size := (cluster_grouping tests results).partition.length_eq
  rw [none, List.flatten_nil, List.length_nil, List.length_range] at size
  omega

/-- The share of a part of a sum that has no negative part. -/
theorem share_bounds {part total : Rat} (positive : 0 ≤ part) (most : part ≤ total) :
    0 ≤ part / total ∧ part / total ≤ 1 := by
  have whole : 0 ≤ total := le_trans positive most
  exact ⟨div_nonneg positive whole, div_le_one_of_le₀ most whole⟩

theorem confidenceAt_nonneg (confident : ∀ result ∈ results, 0 ≤ result.confidence) (index : Nat) :
    0 ≤ confidenceAt results index := by
  unfold confidenceAt
  cases found : results[index]? with
  | none => exact le_refl _
  | some result => exact confident result (List.mem_of_getElem? found)

theorem weight_nonneg (confident : ∀ result ∈ results, 0 ≤ result.confidence) (members : List Nat) :
    0 ≤ weight results members := by
  refine List.sum_nonneg ?_
  intro share listed
  obtain ⟨index, _, rfl⟩ := List.mem_map.mp listed
  exact confidenceAt_nonneg confident index

/-- The clusters share the total confidence among them. -/
theorem sum_weights (tests : Comparison) (results : List TaskResult) :
    ((cluster tests results).map (weight results)).sum = (results.map TaskResult.confidence).sum := by
  have places : results.map TaskResult.confidence = (List.range results.length).map (confidenceAt results) := by
    refine List.ext_getElem? ?_
    intro index
    rw [List.getElem?_map, List.getElem?_map]
    cases found : results[index]? with
    | none =>
      rw [List.getElem?_eq_none (by rw [List.length_range]; exact List.getElem?_eq_none_iff.mp found)]
      rfl
    | some result =>
      obtain ⟨inside, _⟩ := List.getElem?_eq_some_iff.mp found
      rw [List.getElem?_range inside, Option.map_some, Option.map_some, confidenceAt, found, Option.elim_some]
  rw [places, ← ((cluster_grouping tests results).partition.map (confidenceAt results)).sum_eq, List.map_flatten,
    List.sum_flatten, List.map_map]
  rfl

theorem weight_le_total (confident : ∀ result ∈ results, 0 ≤ result.confidence) {members : List Nat}
    (listed : members ∈ cluster tests results) :
    weight results members ≤ (results.map TaskResult.confidence).sum := by
  rw [← sum_weights tests results]
  refine List.single_le_sum ?_ _ (List.mem_map_of_mem listed)
  intro share shares
  obtain ⟨other, _, rfl⟩ := List.mem_map.mp shares
  exact weight_nonneg confident other

theorem length_le_votes {members : List Nat} (listed : members ∈ cluster tests results) :
    members.length ≤ results.length := by
  have size := (cluster_grouping tests results).partition.length_eq
  rw [List.length_range, List.length_flatten] at size
  rw [← size]
  exact List.single_le_sum (fun _ _ => Nat.zero_le _) _ (List.mem_map_of_mem listed)

/-- The report names a largest position, by the measure of its mode, and a most confident member of it. -/
structure Elects (tests : Comparison) (results : List TaskResult) (mode : ConsensusMode) (report : ConsensusReport)
    (members : List Nat) (best : Nat) : Prop where
  position : members ∈ cluster tests results
  largest : mode = .majority → ∀ other ∈ cluster tests results, other.length ≤ members.length
  majority : mode = .majority → report.agreementRate = members.length / results.length
  heaviest : mode = .confidenceWeighted →
    ∀ other ∈ cluster tests results, weight results other ≤ weight results members
  share : mode = .confidenceWeighted → report.agreementRate =
    if (results.map TaskResult.confidence).sum = 0 then 0
    else weight results members / (results.map TaskResult.confidence).sum
  bounds : 0 ≤ report.agreementRate ∧ report.agreementRate ≤ 1
  member : best ∈ members
  strongest : ∀ index ∈ members, confidenceAt results index ≤ confidenceAt results best
  representative : ∃ result, results[best]? = some result ∧ report.winner = result.output ∧
    report.winningTask = result.taskId
  mode : report.mode = mode
  votes : report.votes = results.length
  positions : report.distinctPositions = (cluster tests results).length

/-- Nothing measures more than the element `maxBy` returns. -/
theorem maxBy_most {α β : Type} [LinearOrder β] (measure : α → β) {items : List α} (nonempty : items ≠ []) :
    ∃ best ∈ items, Vec.maxBy (fun left right => decide (measure right < measure left)) items = some best ∧
      ∀ item ∈ items, measure item ≤ measure best := by
  cases run : Vec.maxBy (fun left right => decide (measure right < measure left)) items with
  | none => exact absurd (Vec.maxBy_eq_none.mp run) nonempty
  | some best =>
    have asymm : ∀ a b, decide (measure b < measure a) = true → decide (measure a < measure b) = false :=
      fun a b above => decide_eq_false (not_lt.mpr (le_of_lt (of_decide_eq_true above)))
    have negative : ∀ a b c, decide (measure b < measure a) = false → decide (measure c < measure b) = false →
        decide (measure c < measure a) = false := by
      intro a b c first second
      exact decide_eq_false (not_lt.mpr
        (le_trans (not_lt.mp (of_decide_eq_false first)) (not_lt.mp (of_decide_eq_false second))))
    refine ⟨best, Vec.maxBy_mem run, rfl, ?_⟩
    intro item member
    exact not_lt.mp (of_decide_eq_false (Vec.maxBy_greatest asymm negative run item member))

theorem elect_majority (tests : Comparison) {results : List TaskResult} (enough : 2 ≤ results.length) :
    ∃ members ∈ cluster tests results,
      elect results (cluster tests results) .majority = some (members, (members.length : Rat) / results.length) ∧
      ∀ other ∈ cluster tests results, other.length ≤ members.length := by
  obtain ⟨members, listed, run, largest⟩ := maxBy_most List.length (cluster_nonempty tests enough)
  refine ⟨members, listed, ?_, largest⟩
  simp only [elect, run, Option.bind_eq_bind, Option.bind_some, Option.pure_def]

theorem elect_confidenceWeighted (tests : Comparison) {results : List TaskResult} (enough : 2 ≤ results.length) :
    ∃ members ∈ cluster tests results,
      elect results (cluster tests results) .confidenceWeighted = some (members,
        if 0 < (results.map TaskResult.confidence).sum then weight results
          members / (results.map TaskResult.confidence).sum
        else 0) ∧
      ∀ other ∈ cluster tests results, weight results other ≤ weight results members := by
  obtain ⟨members, listed, run, heaviest⟩ := maxBy_most (weight results) (cluster_nonempty tests enough)
  refine ⟨members, listed, ?_, heaviest⟩
  simp only [elect, run, Option.bind_eq_bind, Option.bind_some, Option.pure_def]

/-- What a report is made of once a cluster has been elected. -/
theorem consensus_of_elect {mode : ConsensusMode} (enough : 2 ≤ results.length) {members : List Nat} {rate : Rat}
    (elected : elect results (cluster tests results) mode = some (members, rate))
    (listed : members ∈ cluster tests results) :
    ∃ best ∈ members, ∃ result, results[best]? = some result ∧
      (∀ index ∈ members, confidenceAt results index ≤ confidenceAt results best) ∧
      consensus tests results mode =
        some ⟨mode, result.output, result.taskId, rate, results.length, (cluster tests results).length⟩ := by
  have grouping := cluster_grouping tests results
  obtain ⟨best, member, run, strongest⟩ := maxBy_most (confidenceAt results) (grouping.inhabited members listed)
  have inside := grouping.below listed member
  refine ⟨best, member, results[best], List.getElem?_eq_getElem inside, strongest, ?_⟩
  unfold consensus
  rw [if_neg (by omega)]
  simp only [elected, run, List.getElem?_eq_getElem inside, Option.bind_eq_bind, Option.bind_some, Option.pure_def]

/-- Whatever test tells answers apart: the clusters are what a greedy pass makes of the answers, and
both ways to weigh them elect a largest one. -/
theorem consensus_elects (tests : Comparison) {results : List TaskResult} (enough : 2 ≤ results.length)
    (confident : ∀ result ∈ results, 0 ≤ result.confidence) :
    Greedy.Grouping (atPlaces tests.sameAnswer results) results.length (cluster tests results) ∧
    ∀ mode, ∃ report members best, consensus tests results mode = some report ∧
      Elects tests results mode report members best := by
  refine ⟨cluster_grouping tests results, ?_⟩
  intro mode
  cases mode with
  | majority =>
    obtain ⟨members, listed, elected, largest⟩ := elect_majority tests enough
    obtain ⟨best, member, result, found, strongest, report⟩ := consensus_of_elect enough elected listed
    have part : (members.length : Rat) ≤ results.length := Nat.cast_le.mpr (length_le_votes listed)
    exact ⟨_, members, best, report, listed, fun _ => largest, fun _ => rfl, fun other => (by cases other),
      fun other => (by cases other), share_bounds (Nat.cast_nonneg _) part, member, strongest,
      ⟨result, found, rfl, rfl⟩, rfl, rfl, rfl⟩
  | confidenceWeighted =>
    obtain ⟨members, listed, elected, heaviest⟩ := elect_confidenceWeighted tests enough
    obtain ⟨best, member, result, found, strongest, report⟩ := consensus_of_elect enough elected listed
    have positive := weight_nonneg confident members
    have most := weight_le_total confident listed
    generalize total : (results.map TaskResult.confidence).sum = whole at most report
    have share : (if 0 < whole then weight results members / whole else 0) =
        if whole = 0 then 0 else weight results members / whole := by
      rcases lt_or_eq_of_le (le_trans positive most) with some | none
      · rw [if_pos some, if_neg (ne_of_gt some)]
      · rw [if_neg (by rw [← none]; exact lt_irrefl _), if_pos none.symm]
    have bounds : 0 ≤ (if 0 < whole then weight results members / whole else 0) ∧
        (if 0 < whole then weight results members / whole else 0) ≤ 1 := by
      split
      · exact share_bounds positive most
      · exact ⟨le_refl _, zero_le_one⟩
    exact ⟨_, members, best, report, listed, fun other => (by cases other), fun other => (by cases other),
      fun _ => heaviest, fun _ => by
        rw [total]; exact share, bounds, member, strongest, ⟨result, found, rfl, rfl⟩, rfl, rfl, rfl⟩

end

/-- A valid result of some task. -/
def resultOf (task : Nat) (kind : TaskKind) (title output : String) (confidence : Rat) : TaskResult where
  taskId := ⟨task⟩
  jobId := ⟨1⟩
  agentId := ⟨1⟩
  attempt := 1
  kind := kind
  title := title
  output := output
  structured := .null
  evidence := []
  reasoningSummary := ""
  confidence := confidence
  validationFailures := []
  tokensIn := 0
  tokensOut := 0
  costUsd := 0
  durationMs := 0
  deduplicated := false
  finishedAt := 0

/-- Texts that are told apart letter by letter. -/
def literal : Comparison :=
  ⟨fun left right => left.output == right.output, fun left right => left.output == right.output, fun _ _ => false⟩

/-- Two hesitant votes for one position and a confident one for another. -/
def divided : List TaskResult :=
  [resultOf 1 .answer "a" "raft" (1 / 5), resultOf 2 .answer "b" "raft" (1 / 5),
    resultOf 3 .answer "c" "paxos" (99 / 100)]

theorem consensus_elects_divided :
    ∃ report members best, consensus literal divided .confidenceWeighted = some report ∧
    Elects literal divided .confidenceWeighted report members best ∧ report.winner = "paxos" := by
  have confident : ∀ result ∈ divided, 0 ≤ result.confidence := by decide +kernel
  obtain ⟨report, members, best, run, elects⟩ :=
    (consensus_elects literal (by decide) confident).2 .confidenceWeighted
  refine ⟨report, members, best, run, elects, ?_⟩
  have winner : (consensus literal divided .confidenceWeighted).map ConsensusReport.winner = some "paxos" := by
    decide +kernel
  rw [run] at winner
  exact Option.some.inj winner

end Swarm.Aggregate
