import Swarm.Domain.Paths

namespace Swarm.TaskGraph
open Relation

/-- The record of `task` lists `dependency`. -/
def Precedes (g : TaskGraph) (dependency task : TaskId) : Prop :=
  ∃ node, g.get task = some node ∧ dependency ∈ node.dependencies

/-- A graph without cycles whose records and topology list the same dependencies. -/
structure Coherent (g : TaskGraph) : Prop where
  keyed : g.Keyed
  known : ∀ task, (g.index.get? task).isSome = (g.get task).isSome
  mirrored : ∀ dependency task, task ∈ g.dependents dependency ↔ g.Precedes dependency task
  acyclic : ∀ task, ¬ TransGen g.Precedes task task

def Abandoned (g : TaskGraph) (task : TaskId) : Prop :=
  ∃ state, g.stateOf task = some state ∧ isAbandoned state = true

def Unfinished (g : TaskGraph) (task : TaskId) : Prop := ∃ node, g.get task = some node ∧ node.isTerminal = false

/-- A dependency of a task that is not terminal. -/
def Strands (g : TaskGraph) (dependency task : TaskId) : Prop := g.Precedes dependency task ∧ g.Unfinished task

/-- A path leads from an abandoned task to this one, through tasks that are not terminal. -/
def Stranded (g : TaskGraph) (task : TaskId) : Prop := ∃ origin, g.Abandoned origin ∧ TransGen g.Strands origin task

variable {g : TaskGraph}

theorem Built.coherent {toposort : DiGraph TaskId → Except Nat (List Nat)} (detects : Detects toposort)
    (built : Built toposort g) : g.Coherent := by
  have agrees := built.agrees detects
  have same : ∀ dependency task, g.Precedes dependency task → g.Feeds dependency task := by
    rintro dependency task ⟨node, found, depends⟩
    exact (agrees.feeds_record found).mpr depends
  exact ⟨built.keyed, agrees.known, fun _ _ => agrees.mem_dependents,
    fun task path => agrees.acyclic_feeds task (TransGen.mono same _ _ path)⟩

namespace Coherent

theorem navigable (coherent : g.Coherent) : g.Navigable := by
  refine ⟨fun found => coherent.keyed _ _ found, ?_, ?_, ?_⟩
  · intro task node dependency found depends
    have listed := (coherent.mirrored dependency task).mpr ⟨node, found, depends⟩
    rw [← coherent.known]
    cases there : g.index.get? dependency with
    | none =>
      simp only [TaskGraph.dependents, there] at listed
      cases listed
    | some index => rfl
  · exact fun found depends => (coherent.mirrored _ _).mpr ⟨_, found, depends⟩
  · classical
    rintro part ⟨task, node, found, inside⟩
    let members := (g.nodes.entries.map Prod.fst).filter (fun task => part task)
    have mem_members : ∀ {task node}, g.get task = some node → part task → task ∈ members := by
      intro task node found inside
      exact List.mem_filter.mpr ⟨List.mem_map.mpr ⟨(task, node), Dict.get?_eq_some.mp found, rfl⟩,
        decide_eq_true inside⟩
    obtain ⟨first, member, free⟩ := first_of_acyclic coherent.acyclic (List.ne_nil_of_mem (mem_members found inside))
    obtain ⟨listed, holds⟩ := List.mem_filter.mp member
    obtain ⟨⟨_, current⟩, entry, rfl⟩ := List.mem_map.mp listed
    have here : g.get _ = some current := Dict.get?_eq_some.mpr entry
    refine ⟨_, current, here, of_decide_eq_true holds, ?_⟩
    intro dependency depends within
    have step : g.Precedes dependency _ := ⟨current, here, depends⟩
    have listed := (coherent.mirrored _ _).mpr step
    cases there : g.index.get? dependency with
    | none =>
      simp only [TaskGraph.dependents, there] at listed
      cases listed
    | some index =>
      have present := coherent.known dependency
      rw [there] at present
      obtain ⟨upstream, known⟩ := Option.isSome_iff_exists.mp present.symm
      exact free dependency (mem_members known within) step

end Coherent

/-- What holds of the walk before every round. -/
structure Walking (g : TaskGraph) (walk : Walk) : Prop where
  unique : walk.blocked.Nodup
  met : ∀ task, g.Unfinished task → (task ∈ walk.seen ↔ task ∈ walk.blocked)
  stranded : ∀ task ∈ walk.blocked, g.Unfinished task ∧ g.Stranded task
  origin : ∀ task ∈ walk.frontier, g.Abandoned task ∨ g.Stranded task

def unmet (g : TaskGraph) (seen : List TaskId) : List TaskId :=
  (g.nodes.entries.map Prod.fst).filter (fun task => task ∉ seen)

/-- The rounds left to do, with a task that is still to be met counted as one. -/
def budget (g : TaskGraph) (walk : Walk) : Nat := walk.frontier.length + (g.unmet walk.seen).length

/-- Nothing is forgotten, and what is new waits for its round. -/
structure Grown (g : TaskGraph) (walk next : Walk) : Prop where
  blocked : ∀ task ∈ walk.blocked, task ∈ next.blocked
  frontier : ∀ task ∈ walk.frontier, task ∈ next.frontier
  waits : ∀ task ∈ next.blocked, task ∈ walk.blocked ∨ task ∈ next.frontier
  budget : g.budget next ≤ g.budget walk

theorem Grown.refl (walk : Walk) : g.Grown walk walk :=
  ⟨fun _ inside => inside, fun _ inside => inside, fun _ inside => Or.inl inside, Nat.le_refl _⟩

theorem Grown.trans {walk next last : Walk} (first : g.Grown walk next) (second : g.Grown next last) :
    g.Grown walk last := by
  refine ⟨fun task inside => second.blocked task (first.blocked task inside),
    fun task inside => second.frontier task (first.frontier task inside), ?_, second.budget.trans first.budget⟩
  intro task inside
  rcases second.waits task inside with old | new
  · exact (first.waits task old).imp_right (second.frontier task)
  · exact Or.inr new

theorem unmet_cons (task : TaskId) (seen : List TaskId) :
    g.unmet (task :: seen) = (g.unmet seen).filter (fun other => other ≠ task) := by
  unfold unmet
  rw [List.filter_filter]
  exact List.filter_congr fun other _ => by simp [List.mem_cons, not_or]

theorem mem_unmet {task : TaskId} {seen : List TaskId} (known : (g.get task).isSome = true) (unseen : task ∉ seen) :
    task ∈ g.unmet seen := by
  obtain ⟨node, found⟩ := Option.isSome_iff_exists.mp known
  exact List.mem_filter.mpr ⟨List.mem_map.mpr ⟨(task, node), Dict.get?_eq_some.mp found, rfl⟩, decide_eq_true unseen⟩

theorem any_unfinished {task : TaskId} :
    (g.get task).any (fun node => !node.isTerminal) = true ↔ g.Unfinished task := by
  unfold Unfinished
  cases g.get task <;> simp

section
variable {walk : Walk} (walking : g.Walking walk) {dependency : TaskId}
  (origin : g.Abandoned dependency ∨ g.Stranded dependency)
include walking origin

/-- One dependent of a task in the walk. -/
theorem Walking.visit {dependent : TaskId} (step : g.Precedes dependency dependent) :
    g.Walking (g.visit walk dependent) ∧ g.Grown walk (g.visit walk dependent) ∧
      (g.Unfinished dependent → dependent ∈ (g.visit walk dependent).blocked) := by
  by_cases seen : dependent ∈ walk.seen
  · have same : g.visit walk dependent = walk := if_pos seen
    rw [same]
    exact ⟨walking, Grown.refl walk, fun unfinished => (walking.met dependent unfinished).mp seen⟩
  by_cases unfinished : g.Unfinished dependent
  · have next : g.visit walk dependent =
        ⟨walk.blocked ++ [dependent], dependent :: walk.frontier, dependent :: walk.seen⟩ := by
      rw [TaskGraph.visit, if_neg seen, if_pos (any_unfinished.mpr unfinished)]
    have stranded : g.Stranded dependent := by
      rcases origin with gone | ⟨first, gone, path⟩
      · exact ⟨dependency, gone, .single ⟨step, unfinished⟩⟩
      · exact ⟨first, gone, .tail path ⟨step, unfinished⟩⟩
    have new : dependent ∉ walk.blocked := fun inside => seen ((walking.met dependent unfinished).mpr inside)
    have known : (g.get dependent).isSome = true := by
      obtain ⟨node, found, _⟩ := unfinished
      rw [found]
      rfl
    -- the task is known, so one fewer is left to meet
    have fewer : (g.unmet (dependent :: walk.seen)).length < (g.unmet walk.seen).length := by
      rw [unmet_cons]
      exact List.length_filter_lt_length_iff_exists.mpr ⟨dependent, mem_unmet known seen, by simp⟩
    rw [next]
    refine ⟨⟨?_, ?_, ?_, ?_⟩, ⟨?_, ?_, ?_, ?_⟩, fun _ => List.mem_append_right _ (List.mem_singleton_self _)⟩
    · exact (List.perm_append_singleton dependent walk.blocked).nodup_iff.mpr
        (List.nodup_cons.mpr ⟨new, walking.unique⟩)
    · intro task isOpen
      rw [List.mem_cons, List.mem_append, List.mem_singleton, walking.met task isOpen]
      exact or_comm
    · intro task inside
      rcases List.mem_append.mp inside with old | last
      · exact walking.stranded task old
      · exact List.mem_singleton.mp last ▸ ⟨unfinished, stranded⟩
    · intro task inside
      rcases List.mem_cons.mp inside with rfl | old
      · exact Or.inr stranded
      · exact walking.origin task old
    · exact fun task inside => List.mem_append_left _ inside
    · exact fun task inside => List.mem_cons_of_mem _ inside
    · intro task inside
      rcases List.mem_append.mp inside with old | last
      · exact Or.inl old
      · exact Or.inr (List.mem_singleton.mp last ▸ List.mem_cons_self)
    · unfold budget
      simp only [List.length_cons]
      omega
  · have next : g.visit walk dependent = { walk with seen := dependent :: walk.seen } := by
      rw [TaskGraph.visit, if_neg seen, if_neg (fun waits => unfinished (any_unfinished.mp waits))]
    rw [next]
    refine ⟨⟨walking.unique, ?_, walking.stranded, walking.origin⟩,
      ⟨fun _ inside => inside, fun _ inside => inside, fun _ inside => Or.inl inside, ?_⟩, fun isOpen =>
        absurd isOpen unfinished⟩
    · intro task isOpen
      have different : task ≠ dependent := fun same => unfinished (same ▸ isOpen)
      rw [List.mem_cons, or_iff_right different]
      exact walking.met task isOpen
    · refine Nat.add_le_add_left ?_ _
      rw [unmet_cons]
      exact List.length_filter_le _ _

/-- All dependents of a task in the walk. -/
theorem Walking.visits (dependents : List TaskId)
    (steps : ∀ dependent ∈ dependents, g.Precedes dependency dependent) :
    g.Walking (dependents.foldl g.visit walk) ∧ g.Grown walk (dependents.foldl g.visit walk) ∧
      ∀ dependent ∈ dependents, g.Unfinished dependent → dependent ∈ (dependents.foldl g.visit walk).blocked := by
  induction dependents generalizing walk with
  | nil => exact ⟨walking, Grown.refl walk, by simp⟩
  | cons dependent rest ih =>
    obtain ⟨here, grown, met⟩ := walking.visit origin (steps dependent List.mem_cons_self)
    obtain ⟨last, more, all⟩ := ih here (fun other inside => steps other (List.mem_cons_of_mem _ inside))
    refine ⟨last, grown.trans more, ?_⟩
    intro other inside unfinished
    rcases List.mem_cons.mp inside with rfl | later
    · exact more.blocked other (met unfinished)
    · exact all other later unfinished

end

/-- The dependents of a task that has had its round are in the walk. -/
def Covered (g : TaskGraph) (walk : Walk) : Prop :=
  ∀ task, g.Abandoned task ∨ task ∈ walk.blocked →
    task ∈ walk.frontier ∨ ∀ dependent, g.Strands task dependent → dependent ∈ walk.blocked

/-- As many rounds as the budget says are enough. -/
theorem Coherent.walkForward_done (coherent : g.Coherent) (fuel : Nat) {walk : Walk} (walking : g.Walking walk)
    (covered : g.Covered walk) (enough : g.budget walk ≤ fuel) : g.Walking (g.walkForward fuel walk) ∧
      g.Covered (g.walkForward fuel walk) ∧ (g.walkForward fuel walk).frontier = [] := by
  induction fuel generalizing walk with
  | zero =>
    refine ⟨walking, covered, List.length_eq_zero_iff.mp (Nat.le_zero.mp ?_)⟩
    exact (Nat.le_add_right _ _).trans enough
  | succ fuel ih =>
    unfold walkForward
    split
    · rename_i empty
      exact ⟨walking, covered, empty⟩
    · rename_i task rest split
      have origin := walking.origin task (split ▸ List.mem_cons_self)
      have before : g.Walking { walk with frontier := rest } :=
        ⟨walking.unique, walking.met, walking.stranded,
          fun other inside => walking.origin other (split ▸ List.mem_cons_of_mem _ inside)⟩
      obtain ⟨after, grown, all⟩ := before.visits origin (g.dependents task)
        (fun dependent listed => (coherent.mirrored task dependent).mp listed)
      refine ih after ?_ ?_
      · intro other inside
        have old : other ∈ walk.frontier ∨ (∀ dependent, g.Strands other dependent → dependent ∈ walk.blocked) ∨
            other ∈ ((g.dependents task).foldl g.visit { walk with frontier := rest }).frontier := by
          rcases inside with gone | blocked
          · exact (covered other (Or.inl gone)).imp_right Or.inl
          · rcases grown.waits other blocked with there | new
            · exact (covered other (Or.inr there)).imp_right Or.inl
            · exact Or.inr (Or.inr new)
        rcases old with waiting | closed | new
        · rcases List.mem_cons.mp (split ▸ waiting) with rfl | later
          · refine Or.inr fun dependent strands => all dependent ?_ strands.2
            exact (coherent.mirrored _ dependent).mpr strands.1
          · exact Or.inl (grown.frontier other later)
        · exact Or.inr fun dependent strands => grown.blocked dependent (closed dependent strands)
        · exact Or.inl new
      · have fewer : _ ≤ rest.length + (g.unmet walk.seen).length := grown.budget
        unfold budget at enough
        rw [split, List.length_cons] at enough
        omega

end Swarm.TaskGraph
