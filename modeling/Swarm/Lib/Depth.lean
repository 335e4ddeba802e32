import Mathlib.Logic.Relation

/-!
The length of the longest chain of a relation that ends at a point.
-/

namespace Swarm
open Relation
variable {α : Type} {r : α → α → Prop}

/-- A chain of so many steps that ends at a point. -/
inductive Chain (r : α → α → Prop) : Nat → α → Prop
  | single (a : α) : Chain r 0 a
  | step {n : Nat} {a b : α} : Chain r n a → r a b → Chain r (n + 1) b

/-- The longest chain that ends at a point has so many steps. -/
def Depth (r : α → α → Prop) (n : Nat) (a : α) : Prop := Chain r n a ∧ ∀ m, Chain r m a → m ≤ n

theorem Depth.unique {n m : Nat} {a : α} (first : Depth r n a) (second : Depth r m a) : n = m :=
  Nat.le_antisymm (second.2 n first.1) (first.2 m second.1)

/-- One more than the deepest predecessor. -/
theorem depth_of_sources {a : α} {depths : List Nat} (deep : ∀ b, r b a → ∃ n ∈ depths, Depth r n b)
    (there : ∀ n ∈ depths, ∃ b, r b a ∧ Depth r n b) : Depth r (depths.max?.elim 0 (· + 1)) a := by
  cases found : depths.max? with
  | none =>
    have none : depths = [] := List.max?_eq_none_iff.mp found
    refine ⟨.single a, ?_⟩
    rintro m (_ | ⟨chain, step⟩)
    · exact Nat.le_refl 0
    · obtain ⟨n, member, _⟩ := deep _ step
      rw [none] at member
      cases member
  | some deepest =>
    obtain ⟨member, least⟩ := List.max?_eq_some_iff.mp found
    obtain ⟨b, step, depth⟩ := there deepest member
    refine ⟨.step depth.1 step, ?_⟩
    rintro m (_ | ⟨chain, step⟩)
    · exact Nat.zero_le _
    · obtain ⟨n, member, depth⟩ := deep _ step
      exact Nat.succ_le_succ (Nat.le_trans (depth.2 _ chain) (least n member))

/-- A path climbs. -/
theorem Depth.lt_of_path {n m : Nat} {a b : α} (low : Depth r n a) (high : Depth r m b)
    (path : TransGen r a b) : n < m := by
  have longer : ∀ b, TransGen r a b → ∃ k, n < k ∧ Chain r k b := by
    intro b path
    induction path with
    | single step => exact ⟨n + 1, Nat.lt_succ_self n, .step low.1 step⟩
    | tail _ step ih =>
      obtain ⟨k, more, chain⟩ := ih
      exact ⟨k + 1, Nat.lt_succ_of_lt more, .step chain step⟩
  obtain ⟨k, more, chain⟩ := longer b path
  exact Nat.lt_of_lt_of_le more (high.2 k chain)

theorem flatten_modify_perm {layers : List (List α)} {index : Nat} (inside : index < layers.length) (item : α) :
    (layers.modify index (· ++ [item])).flatten.Perm (item :: layers.flatten) := by
  induction layers generalizing index with
  | nil => cases inside
  | cons layer rest ih =>
    cases index with
    | zero =>
      change (layer ++ [item] ++ rest.flatten).Perm (item :: (layer ++ rest.flatten))
      rw [List.append_assoc]
      exact List.perm_middle
    | succ index =>
      change (layer ++ (rest.modify index (· ++ [item])).flatten).Perm (item :: (layer ++ rest.flatten))
      exact ((ih (Nat.lt_of_succ_lt_succ inside)).append_left layer).trans List.perm_middle

section
variable {layers : List (List α)} {depth : Nat}

/-- An item is filed at the end of one of the lists, or in a new one behind the last. -/
theorem file_getElem? (reach : depth ≤ layers.length) (item : α) (n : Nat) :
    ((layers ++ List.replicate (depth + 1 - layers.length) []).modify depth (· ++ [item]))[n]? =
      if n = depth then some ((layers[depth]?).getD [] ++ [item]) else layers[n]? := by
  rw [List.getElem?_modify]
  rcases Nat.lt_or_eq_of_le reach with inside | last
  · have full : depth + 1 - layers.length = 0 := Nat.sub_eq_zero_of_le inside
    rw [full, List.replicate_zero, List.append_nil]
    by_cases same : n = depth
    · subst same
      simp [inside]
    · simp [same, Ne.symm same]
  · subst last
    rw [Nat.add_sub_cancel_left]
    by_cases same : n = layers.length
    · subst same
      simp
    · have grown : (layers ++ List.replicate 1 [])[n]? = layers[n]? := by
        by_cases inside : n < layers.length
        · exact List.getElem?_append_left inside
        · have beyond : layers.length + 1 ≤ n := by omega
          rw [List.getElem?_eq_none (by simpa using beyond), List.getElem?_eq_none (Nat.le_of_succ_le beyond)]
      rw [if_neg same, grown]
      simp [Ne.symm same]

theorem file_perm (item : α) :
    ((layers ++ List.replicate (depth + 1 - layers.length) []).modify depth (· ++ [item])).flatten.Perm
    (item :: layers.flatten) := by
  have longer : depth < (layers ++ List.replicate (depth + 1 - layers.length) ([] : List α)).length := by
    rw [List.length_append, List.length_replicate]
    omega
  have same : (layers ++ List.replicate (depth + 1 - layers.length) ([] : List α)).flatten = layers.flatten := by
    rw [List.flatten_append, List.flatten_replicate_nil, List.append_nil]
  rw [← same]
  exact flatten_modify_perm longer item

end

end Swarm
