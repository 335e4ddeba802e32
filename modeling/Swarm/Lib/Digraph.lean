import Mathlib.Data.Fintype.Pigeonhole
import Mathlib.Data.Set.Finite.Basic
import Mathlib.Order.WellFounded
import Swarm.Lib.Vec

namespace Swarm

/-- Where no point is before itself, any non-empty part has a first point. -/
theorem first_of_acyclic {α : Type} {before : α → α → Prop}
    (acyclic : ∀ a, ¬ Relation.TransGen before a a) {part : List α} (inhabited : part ≠ []) :
    ∃ v ∈ part, ∀ u ∈ part, ¬ before u v := by
  let inside : {v // v ∈ part} → {v // v ∈ part} → Prop := fun u v => Relation.TransGen before u.1 v.1
  have : IsTrans {v // v ∈ part} inside := ⟨fun _ _ _ first second => first.trans second⟩
  have : Std.Irrefl inside := ⟨fun v => acyclic v.1⟩
  have : Finite {v // v ∈ part} := List.finite_toSet part
  have founded : WellFounded inside := Finite.wellFounded_of_trans_of_irrefl inside
  obtain ⟨first, member⟩ := List.exists_mem_of_ne_nil part inhabited
  obtain ⟨v, _, least⟩ := founded.has_min Set.univ ⟨⟨first, member⟩, trivial⟩
  exact ⟨v.1, v.2, fun u there step => least ⟨u, there⟩ trivial (.single step)⟩

/-- A petgraph `DiGraph` with weights on its nodes only. `recent` lists the
edges newest first, which is the order the edges of a node are visited in. -/
structure DiGraph (W : Type) where
  weights : List W
  edges : List (Nat × Nat)
  recent : List Nat

namespace DiGraph
variable {W : Type}

def new : DiGraph W := ⟨[], [], []⟩

def addNode (g : DiGraph W) (weight : W) : Nat × DiGraph W :=
  (g.weights.length, { g with weights := g.weights ++ [weight] })

def addEdge (g : DiGraph W) (source target : Nat) : Nat × DiGraph W :=
  (g.edges.length, { g with edges := g.edges ++ [(source, target)], recent := g.edges.length :: g.recent })

/-- The edges in the order they are visited. -/
def visited (g : DiGraph W) : List (Nat × Nat) := g.recent.filterMap (fun index => g.edges[index]?)

/-- `neighbors_directed(node, Incoming)`. -/
def incoming (g : DiGraph W) (node : Nat) : List Nat :=
  (g.visited.filter (fun edge => edge.2 == node)).map Prod.fst

/-- `neighbors_directed(node, Outgoing)`. -/
def outgoing (g : DiGraph W) (node : Nat) : List Nat :=
  (g.visited.filter (fun edge => edge.1 == node)).map Prod.snd

/-- `recent` lists every edge. -/
def Indexed (g : DiGraph W) : Prop := g.recent = (List.range g.edges.length).reverse

theorem indexed_new : (new : DiGraph W).Indexed := rfl

theorem Indexed.addEdge {g : DiGraph W} (indexed : g.Indexed) (source target : Nat) :
    (g.addEdge source target).2.Indexed := by
  unfold Indexed at indexed ⊢
  simp [DiGraph.addEdge, indexed, List.range_succ]

theorem Indexed.mem_visited {g : DiGraph W} (indexed : g.Indexed) {edge : Nat × Nat} :
    edge ∈ g.visited ↔ edge ∈ g.edges := by
  unfold visited
  rw [indexed, List.mem_filterMap]
  constructor
  · rintro ⟨index, _, found⟩
    exact List.mem_of_getElem? found
  · intro member
    obtain ⟨index, bound, found⟩ := List.getElem_of_mem member
    exact ⟨index, by simpa using bound, by rw [List.getElem?_eq_getElem bound, found]⟩

theorem Indexed.mem_outgoing {g : DiGraph W} (indexed : g.Indexed) {node target : Nat} :
    target ∈ g.outgoing node ↔ (node, target) ∈ g.edges := by
  simp only [outgoing, List.mem_map, List.mem_filter, indexed.mem_visited, beq_iff_eq]
  constructor
  · rintro ⟨⟨a, b⟩, ⟨member, rfl⟩, rfl⟩
    exact member
  · intro member
    exact ⟨_, ⟨member, rfl⟩, rfl⟩

/-- Every edge joins two nodes of the graph. -/
def Valid (g : DiGraph W) : Prop := ∀ edge ∈ g.edges, edge.1 < g.weights.length ∧ edge.2 < g.weights.length

def Adjacent (g : DiGraph W) (source target : Nat) : Prop := (source, target) ∈ g.edges

/-- No node is reachable from itself along the edges. -/
def Acyclic (g : DiGraph W) : Prop := ∀ node, ¬ Relation.TransGen g.Adjacent node node

/-- Nodes that can be numbered upwards along the edges form no cycle. -/
theorem acyclic_of_rank {g : DiGraph W} (rank : Nat → Nat) (up : ∀ edge ∈ g.edges, rank edge.1 < rank edge.2) :
    g.Acyclic := by
  have climbs : ∀ source target, Relation.TransGen g.Adjacent source target → rank source < rank target := by
    intro source target path
    induction path with
    | single edge => exact up _ edge
    | tail _ edge ih => exact Nat.lt_trans ih (up _ edge)
  intro node path
  exact Nat.lt_irrefl _ (climbs node node path)

theorem Acyclic.of_subset {g g' : DiGraph W} (acyclic : g.Acyclic) (old : ∀ edge ∈ g'.edges, edge ∈ g.edges) :
    g'.Acyclic := by
  intro node path
  have within : ∀ a b, g'.Adjacent a b → g.Adjacent a b := fun a b edge => old (a, b) edge
  exact acyclic node (Relation.TransGen.mono within node node path)

/-- Edges into a node that none leaves close no cycle. -/
theorem Acyclic.sink {g g' : DiGraph W} {node : Nat} (acyclic : g.Acyclic)
    (new : ∀ edge ∈ g'.edges, edge ∈ g.edges ∨ edge.2 = node) (last : ∀ edge ∈ g'.edges, edge.1 ≠ node) :
    g'.Acyclic := by
  have ends : ∀ a b, Relation.TransGen g'.Adjacent a b → b ≠ node → Relation.TransGen g.Adjacent a b := by
    intro a b path
    induction path with
    | single edge =>
      intro other
      exact .single ((new _ edge).resolve_right other)
    | tail _ edge ih =>
      intro other
      exact .tail (ih (last _ edge)) ((new _ edge).resolve_right other)
  intro start path
  obtain ⟨_, first, _⟩ := Relation.TransGen.head'_iff.mp path
  exact acyclic start (ends start start path (last _ first))

/-- One node after another whose predecessors are all out. -/
def sortFrom (edges : List (Nat × Nat)) : Nat → List Nat → List Nat → Except Nat (List Nat)
  | _, [], out => .ok out.reverse
  | 0, node :: _, _ => .error node
  | fuel + 1, node :: rest, out =>
    match (node :: rest).find? (fun v => edges.all (fun edge => edge.2 != v || !(node :: rest).contains edge.1)) with
    | none => .error node
    | some v => sortFrom edges fuel ((node :: rest).erase v) (v :: out)

/-- A topological sort: an order, or a node that is stuck behind a cycle. -/
def sort (g : DiGraph W) : Except Nat (List Nat) :=
  sortFrom g.edges g.weights.length (List.range g.weights.length) []

/-- In an acyclic graph some node of any non-empty part has no predecessor in that part. -/
theorem exists_source {edges : List (Nat × Nat)}
    (acyclic : ∀ node, ¬ Relation.TransGen (fun a b => (a, b) ∈ edges) node node) {part : List Nat}
    (inhabited : part ≠ []) : ∃ v ∈ part, ∀ u ∈ part, (u, v) ∉ edges :=
  first_of_acyclic acyclic inhabited

theorem sortFrom_ok {edges : List (Nat × Nat)}
    (acyclic : ∀ node, ¬ Relation.TransGen (fun a b => (a, b) ∈ edges) node node) (fuel : Nat) (left out : List Nat)
    (enough : left.length ≤ fuel) : ∃ order, sortFrom edges fuel left out = .ok order := by
  induction fuel generalizing left out with
  | zero =>
    cases left with
    | nil => exact ⟨_, rfl⟩
    | cons node rest => simp at enough
  | succ fuel ih =>
    cases left with
    | nil => exact ⟨_, rfl⟩
    | cons node rest =>
      obtain ⟨v, member, free⟩ := exists_source acyclic (List.cons_ne_nil node rest)
      unfold sortFrom
      cases found : (node :: rest).find?
        (fun v => edges.all (fun edge => edge.2 != v || !(node :: rest).contains edge.1)) with
      | none =>
        have stuck := List.find?_eq_none.mp found v member
        refine absurd ?_ stuck
        rw [List.all_eq_true]
        rintro ⟨a, b⟩ edge
        by_cases same : b = v
        · subst same
          have outside : a ∉ node :: rest := fun inside => free a inside edge
          simp [outside]
        · simp [same]
      | some u =>
        refine ih _ _ ?_
        rw [List.length_erase_of_mem (List.mem_of_find?_eq_some found)]
        simp only [List.length_cons] at enough ⊢
        omega

/-- The sort never fails on an acyclic graph. -/
theorem sort_ok {g : DiGraph W} (acyclic : g.Acyclic) : ∃ order, g.sort = .ok order :=
  sortFrom_ok acyclic _ _ _ (by simp)

/-- What the sort puts out next has no predecessor among what is left, so no cycle is left out. -/
theorem sortFrom_acyclic {edges : List (Nat × Nat)} (fuel : Nat) (left out : List Nat) {order : List Nat}
    (run : sortFrom edges fuel left out = .ok order) (node : Nat) :
    ¬ Relation.TransGen (fun a b => (a, b) ∈ edges ∧ a ∈ left ∧ b ∈ left) node node := by
  induction fuel generalizing left out with
  | zero =>
    cases left with
    | nil =>
      intro path
      obtain ⟨_, step, _⟩ := Relation.TransGen.head'_iff.mp path
      cases step.2.1
    | cons first rest => cases run
  | succ fuel ih =>
    cases left with
    | nil =>
      intro path
      obtain ⟨_, step, _⟩ := Relation.TransGen.head'_iff.mp path
      cases step.2.1
    | cons first rest =>
      unfold sortFrom at run
      cases found : (first :: rest).find?
        (fun v => edges.all (fun edge => edge.2 != v || !(first :: rest).contains edge.1)) with
      | none =>
        rw [found] at run
        cases run
      | some v =>
        rw [found] at run
        have free := List.find?_some found
        rw [List.all_eq_true] at free
        have sink : ∀ a, (a, v) ∈ edges → a ∉ first :: rest := by
          intro a edge inside
          have clear := free (a, v) edge
          simp [inside] at clear
        intro path
        have avoids : ∀ a b, Relation.TransGen (fun a b => (a, b) ∈ edges ∧ a ∈ first :: rest ∧
            b ∈ first :: rest) a b →
            b ≠ v := by
          intro a b path
          obtain ⟨c, _, step⟩ := Relation.TransGen.tail'_iff.mp path
          rintro rfl
          exact sink c step.1 step.2.1
        have shorter : ∀ a b, a ≠ v →
            Relation.TransGen (fun a b => (a, b) ∈ edges ∧ a ∈ first :: rest ∧ b ∈ first :: rest) a b →
            Relation.TransGen (fun a b => (a, b) ∈ edges ∧ a ∈ (first :: rest).erase v ∧
              b ∈ (first :: rest).erase v) a b := by
          intro a b start path
          induction path with
          | single step =>
            have target := avoids _ _ (.single step)
            exact .single ⟨step.1, (List.mem_erase_of_ne start).mpr step.2.1,
              (List.mem_erase_of_ne target).mpr step.2.2⟩
          | tail before step ih =>
            have middle := avoids _ _ before
            have target := avoids _ _ (before.tail step)
            exact .tail ih ⟨step.1, (List.mem_erase_of_ne middle).mpr step.2.1,
              (List.mem_erase_of_ne target).mpr step.2.2⟩
        exact ih _ _ run (shorter node node (avoids node node path) path)

/-- The sort succeeds on acyclic graphs only. -/
theorem sort_acyclic {g : DiGraph W} (valid : g.Valid) {order : List Nat} (run : g.sort = .ok order) : g.Acyclic := by
  have inside : ∀ a b, g.Adjacent a b →
      (a, b) ∈ g.edges ∧ a ∈ List.range g.weights.length ∧ b ∈ List.range g.weights.length := by
    intro a b edge
    obtain ⟨source, target⟩ := valid _ edge
    exact ⟨edge, List.mem_range.mpr source, List.mem_range.mpr target⟩
  intro node path
  exact sortFrom_acyclic _ _ _ run node (Relation.TransGen.mono inside _ _ path)

end DiGraph

end Swarm
