import Swarm.Coordinator.Consensus

namespace Swarm.Aggregate

section
variable {graph : TaskGraph} {tests : Comparison}

theorem comesBefore_iff {left right : TaskResult} : comesBefore graph left right = true ↔
    stageRank graph left < stageRank graph right ∨
      stageRank graph left = stageRank graph right ∧ left.title ≤ right.title := by
  simp only [comesBefore, Bool.or_eq_true, Bool.and_eq_true, decide_eq_true_eq, beq_iff_eq]

theorem comesBefore_total (left right : TaskResult) :
    comesBefore graph left right = true ∨ comesBefore graph right left = true := by
  simp only [comesBefore_iff]
  rcases Nat.lt_trichotomy (stageRank graph left) (stageRank graph right) with earlier | same | later
  · exact Or.inl (Or.inl earlier)
  · rcases le_total left.title right.title with order | order
    · exact Or.inl (Or.inr ⟨same, order⟩)
    · exact Or.inr (Or.inr ⟨same.symm, order⟩)
  · exact Or.inr (Or.inl later)

theorem comesBefore_trans {first second third : TaskResult} (left : comesBefore graph first second = true)
    (right : comesBefore graph second third = true) : comesBefore graph first third = true := by
  rw [comesBefore_iff] at left right ⊢
  rcases left with earlier | ⟨same, order⟩
  · rcases right with later | ⟨same, _⟩
    · exact Or.inl (Nat.lt_trans earlier later)
    · exact Or.inl (same ▸ earlier)
  · rcases right with later | ⟨same', order'⟩
    · exact Or.inl (same ▸ later)
    · exact Or.inr ⟨same.trans same', le_trans order order'⟩

/-- The results that count, each as often as it was reported. -/
theorem ordered_perm (graph : TaskGraph) (results : List TaskResult) : (ordered graph results).Perm
    (results.filter (fun result => result.passedValidation && result.kind.isReportable)) :=
      List.perm_insertionSort _ _

theorem ordered_pairwise (graph : TaskGraph) (results : List TaskResult) :
    (ordered graph results).Pairwise (fun left right => comesBefore graph left right = true) := by
  have total : Std.Total (fun left right => comesBefore graph left right = true) := ⟨comesBefore_total⟩
  have trans : IsTrans TaskResult (fun left right => comesBefore graph left right = true) :=
    ⟨fun _ _ _ left right => comesBefore_trans left right⟩
  exact List.pairwise_insertionSort _ _

/-- What is reported are validated results by stage and title, none of which restates another;
and a result that is left out restates one that was kept before it. -/
theorem outputs_account (tests : Comparison)
    (symmetric : ∀ left right, tests.redundant left right = tests.redundant right left) (job : Job)
    (graph : TaskGraph) (results : List TaskResult) (status : JobStatus) (statistics : ExecutionStatistics) :
    ∃ kept, (aggregate tests job graph results status statistics).outputs = kept.map structuredOutput ∧
      kept.Sublist (ordered graph results) ∧
      (ordered graph results).Perm
        (results.filter (fun result => result.passedValidation && result.kind.isReportable)) ∧
      (ordered graph results).Pairwise (fun left right => stageRank graph left < stageRank graph right ∨
        stageRank graph left = stageRank graph right ∧ left.title ≤ right.title) ∧
      kept.Pairwise (fun left right => tests.redundant left right = false ∧ tests.redundant right left = false) ∧
      ∀ before result after, ordered graph results = before ++ result :: after →
        ∃ front, front.Sublist before ∧ front <+: kept ∧
          (front ++ [result] <+: kept ∨ ∃ earlier ∈ front, tests.redundant earlier result = true) := by
  refine ⟨dropRedundant tests (ordered graph results), rfl, Greedy.keep_sublist,
    ordered_perm graph results, ?_, ?_, ?_⟩
  · exact (ordered_pairwise graph results).imp (fun order => comesBefore_iff.mp order)
  · refine (Greedy.keep_pairwise List.Pairwise.nil).imp ?_
    intro left right apart
    exact ⟨apart, (symmetric right left).trans apart⟩
  · intro before result after parts
    obtain ⟨front, place⟩ := Greedy.keep_at tests.redundant before result after
    rw [← parts] at front place
    exact ⟨dropRedundant tests before, Greedy.keep_sublist, front, place⟩

end

def sampleJob : Job := Job.new ⟨1⟩ ⟨0⟩ (JobRequest.new "do it") 0

/-- Two findings that say the same, one that does not, and one that was not validated. -/
def findings : List TaskResult :=
  [resultOf 3 .work "third" "paxos" (9 / 10),
    { resultOf 4 .work "bad" "no" 1 with validationFailures := ["too short"] },
    resultOf 2 .work "second" "raft" (7 / 10), resultOf 1 .work "first" "raft" (8 / 10)]

theorem outputs_account_findings :
    (aggregate literal sampleJob (.new ⟨1⟩) findings .completed {}).outputs.map StructuredOutput.title =
      ["first", "third"] ∧
    ∃ kept : List TaskResult, (aggregate literal sampleJob (.new ⟨1⟩) findings .completed {}).outputs =
      kept.map structuredOutput ∧
      kept.Sublist (ordered (.new ⟨1⟩) findings) := by
  have symmetric : ∀ left right : TaskResult, literal.redundant left right = literal.redundant right left :=
    fun left right => Bool.beq_comm
  obtain ⟨kept, outputs, part, _⟩ := outputs_account literal symmetric sampleJob (.new ⟨1⟩) findings .completed {}
  exact ⟨by decide +kernel, kept, outputs, part⟩

end Swarm.Aggregate
