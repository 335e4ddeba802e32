import Swarm.Coordinator.Compiled

namespace Swarm
variable {complexity : Nat} {ids : Nat → TaskId} {job : Job} {topics : List String}

theorem mem_pipeline {stages : List (Stage × Nat)} {previous : List TaskId} {drawn : Nat} {node : TaskNode}
    (member : node ∈ pipeline complexity ids job topics stages previous drawn) :
    ∃ stage ∈ stages, ∃ before slot id, slotTask complexity job topics stage.2 stage.1 before slot id = node := by
  induction stages generalizing previous drawn with
  | nil => cases member
  | cons stage rest ih =>
    rcases List.mem_append.mp member with here | later
    · obtain ⟨slot, _, rfl⟩ := List.mem_map.mp here
      exact ⟨stage, List.mem_cons_self, previous, slot, _, rfl⟩
    · obtain ⟨other, inside, more⟩ := ih later
      exact ⟨other, List.mem_cons_of_mem _ inside, more⟩

theorem stage_slotTasks {stage : Stage × Nat} {previous : List TaskId} {drawn width : Nat} {node : TaskNode}
    (member : node ∈ slotTasks complexity ids job topics stage previous drawn width) :
    node.stage = stage.2 ∧ node.dependencies = previous := by
  obtain ⟨_, _, rfl⟩ := List.mem_map.mp member
  exact ⟨rfl, rfl⟩

theorem stage_pipeline {plan : List Stage} {index : Nat} {previous : List TaskId} {drawn : Nat} {node : TaskNode}
    (member : node ∈ pipeline complexity ids job topics (plan.zipIdx index) previous drawn) : index ≤ node.stage := by
  obtain ⟨stage, inside, _, _, _, rfl⟩ := mem_pipeline member
  exact (List.mem_zipIdx inside).1

/-- The tasks of one stage of the pipeline. -/
theorem filter_pipeline (complexity : Nat) (ids : Nat → TaskId) (job : Job) (topics : List String) (plan : List Stage)
    (index : Nat) (previous : List TaskId) (drawn : Nat) {offset : Nat} {stage : Stage}
    (planned : plan[offset]? = some stage) : ∃ before count,
      (pipeline complexity ids job topics (plan.zipIdx index) previous drawn).filter
        (fun node => node.stage = index + offset) =
        slotTasks complexity ids job topics (stage, index + offset) before count stage.fanout := by
  induction plan generalizing index previous drawn offset with
  | nil => cases planned
  | cons first rest ih =>
    rw [List.zipIdx_cons]
    unfold pipeline
    rw [List.filter_append]
    cases offset with
    | zero =>
      cases planned
      refine ⟨previous, drawn, ?_⟩
      rw [List.filter_eq_self.mpr, List.filter_eq_nil_iff.mpr, List.append_nil]
      · rfl
      · intro node member
        have later := stage_pipeline member
        simp only [decide_eq_true_eq]
        omega
      · intro node member
        exact decide_eq_true (stage_slotTasks member).1
    | succ offset =>
      have shifted : index + (offset + 1) = index + 1 + offset := by omega
      rw [List.filter_eq_nil_iff.mpr, List.nil_append, shifted]
      · exact ih (index + 1) _ _ planned
      · intro node member
        have here : node.stage = index := (stage_slotTasks member).1
        simp only [decide_eq_true_eq]
        omega

/-- The tasks of one stage wait for those of the stage before. -/
theorem dependencies_pipeline (plan : List Stage) (index : Nat) (previous : List TaskId) (drawn : Nat)
    {node : TaskNode} (member : node ∈ pipeline complexity ids job topics (plan.zipIdx index) previous drawn)
    (dependency : TaskId) :
    dependency ∈ node.dependencies ↔ (node.stage = index ∧ dependency ∈ previous) ∨
      ∃ upstream ∈ pipeline complexity ids job topics (plan.zipIdx index) previous drawn,
        upstream.id = dependency ∧ upstream.stage + 1 = node.stage := by
  induction plan generalizing index previous drawn with
  | nil => cases member
  | cons first rest ih =>
    rw [List.zipIdx_cons] at member ⊢
    unfold pipeline at member ⊢
    rcases List.mem_append.mp member with here | later
    · obtain ⟨same, depends⟩ := stage_slotTasks here
      have level : node.stage = index := same
      rw [depends]
      refine ⟨fun inside => Or.inl ⟨level, inside⟩, ?_⟩
      rintro (⟨_, inside⟩ | ⟨upstream, inside, _, next⟩)
      · exact inside
      · have above : index ≤ upstream.stage := by
          rcases List.mem_append.mp inside with first | rest
          · exact Nat.le_of_eq (stage_slotTasks first).1.symm
          · exact Nat.le_of_succ_le (stage_pipeline rest)
        omega
    · have above := stage_pipeline later
      rw [ih _ _ _ later]
      constructor
      · rintro (⟨level, inside⟩ | ⟨upstream, there, more⟩)
        · obtain ⟨upstream, there, same⟩ := List.mem_map.mp inside
          have here : upstream.stage = index := (stage_slotTasks there).1
          exact Or.inr ⟨upstream, List.mem_append_left _ there, same, by omega⟩
        · exact Or.inr ⟨upstream, List.mem_append_right _ there, more⟩
      · rintro (⟨level, _⟩ | ⟨upstream, inside, same, next⟩)
        · omega
        · rcases List.mem_append.mp inside with there | there
          · have here : upstream.stage = index := (stage_slotTasks there).1
            exact Or.inl ⟨by omega, List.mem_map.mpr ⟨upstream, there, same⟩⟩
          · exact Or.inr ⟨upstream, there, same, next⟩

end Swarm
