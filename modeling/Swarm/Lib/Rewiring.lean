import Mathlib.Logic.Relation

/-!
Paths of a relation under small changes of its steps.
-/

namespace Swarm.Rewiring
open Relation
variable {α : Type} {r r' : α → α → Prop}

/-- With one new step, a path either stays in the old ones or passes over the new one. -/
theorem transGen_add {source target : α} (new : ∀ a b, r' a b → r a b ∨ (a = source ∧ b = target)) {a b : α}
    (path : TransGen r' a b) : TransGen r a b ∨ (ReflTransGen r a source ∧ ReflTransGen r target b) := by
  induction path with
  | single step =>
    rcases new _ _ step with old | ⟨rfl, rfl⟩
    · exact Or.inl (.single old)
    · exact Or.inr ⟨.refl, .refl⟩
  | tail _ step ih =>
    rcases new _ _ step with old | ⟨rfl, rfl⟩
    · exact ih.imp (fun path => .tail path old) (fun both => ⟨both.1, .tail both.2 old⟩)
    · refine Or.inr ⟨?_, .refl⟩
      rcases ih with path | both
      · exact path.to_reflTransGen
      · exact both.1

/-- Steps into an end that none leaves are the last of their paths. -/
theorem transGen_sink {sink : α} (new : ∀ a b, r' a b → r a b ∨ b = sink) (last : ∀ a b, r' a b → a ≠ sink) {a b : α}
    (path : TransGen r' a b) (inner : b ≠ sink) : TransGen r a b := by
  induction path with
  | single step => exact .single ((new _ _ step).resolve_right inner)
  | tail _ step ih => exact .tail (ih (last _ _ step)) ((new _ _ step).resolve_right inner)

/-- The steps into `join` are led through fresh points, each of which takes all of them over. -/
structure Subdivides (r r' : α → α → Prop) (join : α) (fresh : α → Prop) : Prop where
  inhabited : ∃ point, fresh point
  unused : ∀ a b, r a b → ¬ fresh a ∧ ¬ fresh b
  joins : ∀ a, r' a join ↔ fresh a
  takes : ∀ a point, fresh point → (r' a point ↔ r a join)
  keeps : ∀ a b, b ≠ join → ¬ fresh b → (r' a b ↔ r a b)
  outside : ¬ fresh join

/-- Between the points that were there before nothing changes. -/
theorem Subdivides.transGen_iff {join : α} {fresh : α → Prop} (sub : Subdivides r r' join fresh) {a b : α}
    (start : ¬ fresh a) (goal : ¬ fresh b) : TransGen r' a b ↔ TransGen r a b := by
  constructor
  · intro path
    have behind : ∀ b, TransGen r' a b → (fresh b → TransGen r a join) ∧ (¬ fresh b → TransGen r a b) := by
      intro b path
      induction path with
      | @single b step =>
        refine ⟨fun new => .single ((sub.takes _ _ new).mp step), fun old => ?_⟩
        by_cases same : b = join
        · subst same
          exact absurd ((sub.joins _).mp step) start
        · exact .single ((sub.keeps _ _ same old).mp step)
      | @tail b c _ step ih =>
        refine ⟨fun new => ?_, fun old => ?_⟩
        · have through := (sub.takes _ _ new).mp step
          exact .tail (ih.2 (sub.unused _ _ through).1) through
        · by_cases same : c = join
          · subst same
            exact ih.1 ((sub.joins _).mp step)
          · have through := (sub.keeps _ _ same old).mp step
            exact .tail (ih.2 (sub.unused _ _ through).1) through
    exact (behind b path).2 goal
  · obtain ⟨point, new⟩ := sub.inhabited
    have simulates : ∀ a b, r a b → TransGen r' a b := by
      intro a b step
      by_cases same : b = join
      · subst same
        exact .tail (.single ((sub.takes _ _ new).mpr step)) ((sub.joins _).mpr new)
      · exact .single ((sub.keeps _ _ same (sub.unused _ _ step).2).mpr step)
    intro path
    induction path with
    | single step => exact simulates _ _ step
    | tail _ step ih => exact (ih (sub.unused _ _ step).1).trans (simulates _ _ step)

end Swarm.Rewiring
