import Swarm.Domain.Orders
import Swarm.Lib.Depth

namespace Swarm
namespace TaskGraph
variable {g : TaskGraph} {front : List TaskId} {filed : Dict TaskId Nat × List (List TaskId)}

/-- What `layers` has filed once it has gone through the tasks of `front`. -/
structure Filed (g : TaskGraph) (front : List TaskId) (filed : Dict TaskId Nat × List (List TaskId)) : Prop where
  every : ∀ task ∈ front, ∃ n, Depth g.Feeds n task
  depth : ∀ task n, filed.1.get? task = some n ↔ task ∈ front ∧ Depth g.Feeds n task
  layer : ∀ n task, (∃ layer, filed.2[n]? = some layer ∧ task ∈ layer) ↔ task ∈ front ∧ Depth g.Feeds n task
  filled : ∀ layer ∈ filed.2, layer ≠ []
  perm : filed.2.flatten.Perm front

namespace Filed

theorem nothing : g.Filed [] (.empty, []) where
  every := by simp
  depth := by simp
  layer := by simp
  filled := by simp
  perm := List.Perm.refl _

/-- The depth that `layer_task` computes. -/
theorem depth_next (state : g.Filed front filed) {task : TaskId}
    (waits : ∀ dependency, g.Feeds dependency task → dependency ∈ front) :
    Depth g.Feeds ((((g.dependencies task).filterMap filed.1.get?).max?).elim 0 (· + 1)) task := by
  refine depth_of_sources ?_ ?_
  · intro dependency feeds
    obtain ⟨n, depth⟩ := state.every dependency (waits dependency feeds)
    have recorded := (state.depth dependency n).mpr ⟨waits dependency feeds, depth⟩
    exact ⟨n, List.mem_filterMap.mpr ⟨dependency, feeds, recorded⟩, depth⟩
  · intro n member
    obtain ⟨dependency, feeds, recorded⟩ := List.mem_filterMap.mp member
    exact ⟨dependency, feeds, ((state.depth dependency n).mp recorded).2⟩

/-- The layers reach up to the depth of the next task. -/
theorem reach (state : g.Filed front filed) (task : TaskId) :
    (((g.dependencies task).filterMap filed.1.get?).max?).elim 0 (· + 1) ≤ filed.2.length := by
  cases found : ((g.dependencies task).filterMap filed.1.get?).max? with
  | none => exact Nat.zero_le _
  | some n =>
    obtain ⟨dependency, _, recorded⟩ := List.mem_filterMap.mp (List.max?_eq_some_iff.mp found).1
    obtain ⟨layer, there, _⟩ := (state.layer n dependency).mpr ((state.depth dependency n).mp recorded)
    exact (List.getElem?_eq_some_iff.mp there).1

theorem step (state : g.Filed front filed) {task : TaskId} (new : task ∉ front)
    (waits : ∀ dependency, g.Feeds dependency task → dependency ∈ front) :
    g.Filed (front ++ [task]) (g.layerTask filed task) := by
  have deep := state.depth_next waits
  have reach := state.reach task
  unfold layerTask
  dsimp only
  generalize (((g.dependencies task).filterMap filed.1.get?).max?).elim 0 (· + 1) = taskDepth at deep reach ⊢
  have member : ∀ other n, (other ∈ front ++ [task] ∧ Depth g.Feeds n other ↔
      (other ∈ front ∧ Depth g.Feeds n other) ∨ (other = task ∧ n = taskDepth)) := by
    intro other n
    rw [List.mem_append, List.mem_singleton, or_and_right]
    refine or_congr Iff.rfl ⟨?_, ?_⟩
    · rintro ⟨rfl, depth⟩
      exact ⟨rfl, depth.unique deep⟩
    · rintro ⟨rfl, rfl⟩
      exact ⟨rfl, deep⟩
  constructor
  · intro other inside
    rcases List.mem_append.mp inside with old | last
    · exact state.every other old
    · exact List.mem_singleton.mp last ▸ ⟨taskDepth, deep⟩
  · intro other n
    rw [member, Dict.get?_insert, ← state.depth]
    by_cases same : other = task
    · subst same
      have unfiled : filed.1.get? other ≠ some n := fun recorded => new ((state.depth other n).mp recorded).1
      simp [unfiled, eq_comm]
    · simp [same]
  · intro n other
    rw [member, ← state.layer]
    have shown := file_getElem? reach task n
    by_cases same : n = taskDepth
    · subst same
      rw [if_pos rfl] at shown
      rw [shown]
      cases there : filed.2[n]? with
      | none => simp
      | some layer => simp
    · rw [if_neg same] at shown
      rw [shown]
      simp [same]
  · intro layer inside
    obtain ⟨n, there⟩ := List.mem_iff_getElem?.mp inside
    rw [file_getElem? reach] at there
    split at there
    · cases there
      exact List.append_ne_nil_of_right_ne_nil _ (List.cons_ne_nil _ _)
    · exact state.filled layer (List.mem_of_getElem? there)
  · refine (file_perm task).trans ?_
    exact (state.perm.cons task).trans (List.perm_append_singleton task front).symm

end Filed

/-- Going through the tasks in an order that respects the dependencies files all of them. -/
theorem filed_order (order : List TaskId) (unique : order.Nodup)
    (forward : ∀ front task rest, order = front ++ task :: rest → ∀ dependency, g.Feeds dependency task →
      dependency ∈ front) :
    g.Filed order (order.foldl g.layerTask (.empty, [])) := by
  have run : ∀ rest front filed, order = front ++ rest → g.Filed front filed →
      g.Filed order (rest.foldl g.layerTask filed) := by
    intro rest
    induction rest with
    | nil =>
      intro front filed whole state
      rw [whole, List.append_nil]
      exact state
    | cons task rest ih =>
      intro front filed whole state
      have new : task ∉ front := by
        rw [whole] at unique
        exact fun inside => (List.nodup_append.mp unique).2.2 task inside task List.mem_cons_self rfl
      refine ih (front ++ [task]) _ ?_ (state.step new (forward front task rest whole))
      rw [whole, List.append_assoc]
      rfl
  exact run order [] _ rfl Filed.nothing

variable {toposort : DiGraph TaskId → Except Nat (List Nat)}

theorem Agrees.layers_ok (linearizes : Linearizes toposort) {slack : Nat} (agrees : g.Agrees slack)
    (tight : g.Tight) :
    ∃ layers, g.layers toposort = .ok layers ∧ layers.flatten.Nodup ∧
      (∀ task, task ∈ layers.flatten ↔ (g.get task).isSome = true) ∧ (∀ layer ∈ layers, layer ≠ []) ∧
      (∀ n task, (g.get task).isSome = true →
        ((∃ layer, layers[n]? = some layer ∧ task ∈ layer) ↔ Depth g.Feeds n task)) := by
  obtain ⟨order, run, unique, known, forward⟩ := topologicalOrder_ok linearizes agrees tight
  have state := filed_order order unique forward
  refine ⟨(order.foldl g.layerTask (.empty, [])).2, ?_, state.perm.nodup_iff.mpr unique, ?_, state.filled, ?_⟩
  · unfold layers
    rw [run]
    rfl
  · exact fun task => state.perm.mem_iff.trans (known task)
  · intro n task present
    exact (state.layer n task).trans (and_iff_right ((known task).mpr present))

/-- Each task of the graph is in one layer, by the length of the longest chain of dependencies that ends at it. -/
theorem Built.layers_depth (linearizes : Linearizes toposort) (built : Built toposort g) :
    ∃ layers, g.layers toposort = .ok layers ∧ layers.flatten.Nodup ∧
      (∀ task, task ∈ layers.flatten ↔ (g.get task).isSome = true) ∧ (∀ layer ∈ layers, layer ≠ []) ∧
      (∀ n task, (g.get task).isSome = true →
        ((∃ layer, layers[n]? = some layer ∧ task ∈ layer) ↔ Depth g.Feeds n task)) ∧
      ∀ layer ∈ layers, ∀ left ∈ layer, ∀ right ∈ layer, ¬ Relation.TransGen g.Feeds left right := by
  obtain ⟨layers, run, unique, known, filled, exact⟩ :=
    (built.agrees linearizes.detects).layers_ok linearizes (built.tight linearizes.detects)
  refine ⟨layers, run, unique, known, filled, exact, ?_⟩
  intro layer inside left first right second path
  obtain ⟨n, there⟩ := List.mem_iff_getElem?.mp inside
  have present : ∀ task ∈ layer, (g.get task).isSome = true :=
    fun task member => (known task).mp (List.mem_flatten.mpr ⟨layer, inside, member⟩)
  have low := (exact n left (present left first)).mp ⟨layer, there, first⟩
  have high := (exact n right (present right second)).mp ⟨layer, there, second⟩
  exact Nat.lt_irrefl n (low.lt_of_path high path)

/-- Of three tasks in a row, the last is in the third layer. -/
theorem layers_joined : ∃ layers, Built.joined.layers DiGraph.sort = .ok layers ∧
    ((∃ layer, layers[2]? = some layer ∧ ⟨3⟩ ∈ layer) ↔ Depth Built.joined.Feeds 2 ⟨3⟩) := by
  obtain ⟨layers, run, _, _, _, exact, _⟩ := Built.layers_depth linearizes_sort (Built.built_joined DiGraph.sort)
  exact ⟨layers, run, exact 2 ⟨3⟩ rfl⟩

end TaskGraph

end Swarm
