import Mathlib.Data.List.NodupEquivFin
import Swarm.Lib.Digraph

namespace Swarm

namespace Vec
variable {α : Type}

theorem length_swapRemove (items : List α) (position : Nat) :
    (swapRemove items position).length = items.length - 1 := by
  unfold swapRemove
  cases last : items.getLast? with
  | none =>
    rw [List.getLast?_eq_none_iff.mp last]
    rfl
  | some item => simp

/-- Every element but the removed one is still there; the last one has moved. -/
theorem getElem?_swapRemove {items : List α} {position index : Nat} (inside : position < items.length)
    (bound : index < items.length) (different : index ≠ position) :
    (swapRemove items position)[if index = items.length - 1 then position else index]? = items[index]? := by
  obtain ⟨last, atEnd⟩ : ∃ last, items.getLast? = some last := by
    cases found : items.getLast? with
    | none =>
      rw [List.getLast?_eq_none_iff.mp found] at bound
      cases bound
    | some last => exact ⟨last, rfl⟩
  have lastItem : items[items.length - 1]? = some last := by rw [← List.getLast?_eq_getElem?, atEnd]
  simp only [swapRemove, atEnd, List.getElem?_dropLast, List.length_set, List.getElem?_set]
  split
  · rename_i moved
    rw [if_pos (by omega), if_pos rfl, moved, lastItem]
  · rename_i stays
    rw [if_pos (by omega), if_neg (by omega)]

end Vec

theorem filterMap_range {α : Type} (items : List α) :
    (List.range items.length).filterMap (fun index => items[index]?) = items := by
  induction items using List.reverseRecOn with
  | nil => rfl
  | append_singleton items item ih =>
    have front : (List.range items.length).filterMap (fun index => (items ++ [item])[index]?) = items := by
      refine Eq.trans (List.filterMap_congr ?_) ih
      intro index member
      exact List.getElem?_append_left (List.mem_range.mp member)
    rw [List.length_append, List.length_singleton, List.range_succ, List.filterMap_append, front]
    simp

/-- In a sublist everything stands at most as far from the head. -/
theorem sublist_position {α : Type} {short long : List α} (sub : short.Sublist long) {m : Nat} {item : α}
    (found : short[m]? = some item) : ∃ n, m ≤ n ∧ long[n]? = some item := by
  obtain ⟨place, same⟩ := List.sublist_iff_exists_orderEmbedding_getElem?_eq.mp sub
  refine ⟨place m, place.strictMono.le_apply, ?_⟩
  rw [← same]
  exact found

namespace DiGraph
variable {W : Type}

/-- The edges of `edges_directed(node, Incoming)`, in the order they are visited. -/
def incomingEdges (g : DiGraph W) (node : Nat) : List Nat :=
  g.recent.filter (fun index => (g.edges[index]?).any (fun edge => edge.2 == node))

def findEdge (g : DiGraph W) (source target : Nat) : Option Nat :=
  g.recent.find? (fun index => g.edges[index]? == some (source, target))

/-- The index an edge has after the removal of another one. -/
def relabel (g : DiGraph W) (edge index : Nat) : Nat := if index = g.edges.length - 1 then edge else index

/-- `remove_edge`: the last edge takes the index of the removed one, and keeps
its place in the order of visits. -/
def removeEdge (g : DiGraph W) (edge : Nat) : DiGraph W :=
  if edge < g.edges.length then
    { g with
      edges := Vec.swapRemove g.edges edge
      recent := (g.recent.erase edge).map (g.relabel edge) }
  else g

/-- Every edge is visited once. -/
def Complete (g : DiGraph W) : Prop := g.recent.Perm (List.range g.edges.length)

theorem complete_new : (new : DiGraph W).Complete := List.Perm.refl _

namespace Complete
variable {g : DiGraph W}

theorem nodup (complete : g.Complete) : g.recent.Nodup := complete.nodup_iff.mpr List.nodup_range

theorem mem_iff (complete : g.Complete) {index : Nat} : index ∈ g.recent ↔ index < g.edges.length := by
  rw [List.Perm.mem_iff complete, List.mem_range]

theorem mem_incomingEdges (complete : g.Complete) {node index : Nat} :
    index ∈ g.incomingEdges node ↔ ∃ source, g.edges[index]? = some (source, node) := by
  simp only [incomingEdges, List.mem_filter, complete.mem_iff, Option.any_eq_true, beq_iff_eq]
  constructor
  · rintro ⟨_, ⟨source, target⟩, found, rfl⟩
    exact ⟨source, found⟩
  · rintro ⟨source, found⟩
    exact ⟨(List.getElem?_eq_some_iff.mp found).1, _, found, rfl⟩

theorem visited_perm (complete : g.Complete) : g.visited.Perm g.edges := by
  have visits := List.Perm.filterMap (fun index => g.edges[index]?) complete
  rw [filterMap_range] at visits
  exact visits

theorem addEdge (complete : g.Complete) (source target : Nat) : (g.addEdge source target).2.Complete := by
  unfold Complete at complete ⊢
  simp only [DiGraph.addEdge, List.length_append, List.length_singleton, List.range_succ]
  exact (complete.cons _).trans (List.perm_append_singleton _ _).symm

/-- What is visited after a removal: the removed edge is gone, the last one has its new index. -/
theorem incomingEdges_removeEdge (complete : g.Complete) {edge : Nat} (inside : edge < g.edges.length) (node : Nat) :
    (g.removeEdge edge).incomingEdges node = ((g.incomingEdges node).erase edge).map (g.relabel edge) := by
  have nodup := complete.nodup
  simp only [incomingEdges, removeEdge, if_pos inside, List.filter_map]
  rw [nodup.erase_eq_filter, List.Nodup.erase_eq_filter (nodup.filter _), List.filter_filter, List.filter_filter]
  refine congrArg (List.map (g.relabel edge)) (List.filter_congr ?_)
  intro index member
  by_cases same : index = edge
  · simp [same]
  · have kept := Vec.getElem?_swapRemove inside (complete.mem_iff.mp member) same
    simp only [Function.comp_apply, relabel, kept, Bool.and_comm]

theorem removeEdge (complete : g.Complete) {edge : Nat} (inside : edge < g.edges.length) :
    (g.removeEdge edge).Complete := by
  have nodup := complete.nodup
  unfold Complete
  simp only [DiGraph.removeEdge, if_pos inside, Vec.length_swapRemove]
  have distinct : ((g.recent.erase edge).map (g.relabel edge)).Nodup := by
    refine List.Nodup.map_on ?_ (nodup.erase edge)
    intro left memberLeft right memberRight same
    have leftKept := (nodup.mem_erase_iff.mp memberLeft).1
    have rightKept := (nodup.mem_erase_iff.mp memberRight).1
    unfold relabel at same
    split at same <;> split at same <;> omega
  refine (List.perm_ext_iff_of_nodup distinct List.nodup_range).mpr ?_
  intro index
  simp only [List.mem_map, nodup.mem_erase_iff, complete.mem_iff, List.mem_range, relabel]
  constructor
  · rintro ⟨old, ⟨different, bound⟩, rfl⟩
    split <;> omega
  · intro bound
    by_cases here : index = edge
    · refine ⟨g.edges.length - 1, ⟨by omega, by omega⟩, ?_⟩
      rw [if_pos rfl, here]
    · exact ⟨index, ⟨here, by omega⟩, if_neg (by omega)⟩

end Complete

/-- The edges that come into a node stand low enough: the one visited after `m`
others has at least `m` edges above it, up to some `slack`. -/
def OrderedAt (g : DiGraph W) (slack node : Nat) : Prop :=
  ∀ m index, (g.incomingEdges node)[m]? = some index → index + m < g.edges.length + slack

theorem OrderedAt.mono {g : DiGraph W} {slack more node : Nat} (ordered : g.OrderedAt slack node)
    (le : slack ≤ more) :
    g.OrderedAt more node := by
  intro m index found
  have bound := ordered m index found
  omega

theorem ordered_new (node : Nat) : (new : DiGraph W).OrderedAt 0 node := by
  intro m index found
  cases found

section
variable {g : DiGraph W}

/-- A new edge is visited first by its target, and not at all by other nodes. -/
theorem incomingEdges_addEdge (complete : g.Complete) (source target node : Nat) :
    (g.addEdge source target).2.incomingEdges node =
      if node = target then g.edges.length :: g.incomingEdges node else g.incomingEdges node := by
  have old : g.recent.filter
      (fun index => ((g.edges ++ [(source, target)])[index]?).any (fun edge => edge.2 == node)) =
      g.incomingEdges node := by
    refine List.filter_congr ?_
    intro index member
    rw [List.getElem?_append_left (complete.mem_iff.mp member)]
  have new : (g.edges ++ [(source, target)])[g.edges.length]? = some (source, target) := by simp
  simp only [incomingEdges, DiGraph.addEdge, List.filter_cons, new, Option.any_some, old]
  by_cases same : node = target
  · simp [same]
  · simp [same, Ne.symm same]

theorem OrderedAt.addEdge {slack node : Nat} (ordered : g.OrderedAt slack node) (complete : g.Complete)
    (source target : Nat) :
    (g.addEdge source target).2.OrderedAt slack node := by
  intro m index found
  have length : (g.addEdge source target).2.edges.length = g.edges.length + 1 := by simp [DiGraph.addEdge]
  rw [incomingEdges_addEdge complete] at found
  rw [length]
  split at found
  · cases m with
    | zero =>
      have first : g.edges.length = index := by simpa using found
      omega
    | succ m =>
      have bound := ordered m index (by simpa using found)
      omega
  · have bound := ordered m index found
    omega

/-- An edge into another node makes up for one that was removed. -/
theorem OrderedAt.addEdge_other {slack node : Nat} (ordered : g.OrderedAt slack node)
    (complete : g.Complete) (source : Nat) {target : Nat} (other : node ≠ target) :
    (g.addEdge source target).2.OrderedAt (slack - 1) node := by
  intro m index found
  have length : (g.addEdge source target).2.edges.length = g.edges.length + 1 := by simp [DiGraph.addEdge]
  rw [incomingEdges_addEdge complete, if_neg other] at found
  have bound := ordered m index found
  omega

theorem OrderedAt.removeEdge {slack node : Nat} (ordered : g.OrderedAt slack node)
    (complete : g.Complete) {edge : Nat} (inside : edge < g.edges.length) :
    (g.removeEdge edge).OrderedAt (slack + 1) node := by
  intro m index found
  have length : (g.removeEdge edge).edges.length = g.edges.length - 1 := by
    simp only [DiGraph.removeEdge, if_pos inside, Vec.length_swapRemove]
  rw [complete.incomingEdges_removeEdge inside, List.getElem?_map] at found
  obtain ⟨old, stays, rfl⟩ := Option.map_eq_some_iff.mp found
  obtain ⟨n, later, before⟩ := sublist_position List.erase_sublist stays
  have bound := ordered n old before
  have lower : g.relabel edge old ≤ old := by
    unfold relabel
    split <;> omega
  omega

theorem removeEdge_edges {edge : Nat} {ends : Nat × Nat} (found : g.edges[edge]? = some ends) :
    g.edges.Perm (ends :: (g.removeEdge edge).edges) := by
  have inside := (List.getElem?_eq_some_iff.mp found).1
  simp only [removeEdge, if_pos inside]
  exact Vec.perm_swapRemove found

theorem removeEdge_weights (edge : Nat) : (g.removeEdge edge).weights = g.weights := by
  unfold removeEdge
  split <;> rfl

/-- The edge added last can be taken back. -/
theorem removeEdge_addEdge (complete : g.Complete) (source target : Nat) :
    (g.addEdge source target).2.removeEdge g.edges.length = g := by
  have last : (g.edges ++ [(source, target)]).getLast? = some (source, target) := by simp
  have edges : Vec.swapRemove (g.edges ++ [(source, target)]) g.edges.length = g.edges := by
    simp [Vec.swapRemove, last]
  have recent : ((g.edges.length :: g.recent).erase g.edges.length).map
      ((g.addEdge source target).2.relabel g.edges.length) = g.recent := by
    rw [List.erase_cons_head]
    refine (List.map_congr_left ?_).trans (List.map_id g.recent)
    intro index member
    have below := complete.mem_iff.mp member
    simp only [relabel, DiGraph.addEdge, List.length_append, List.length_singleton, Nat.add_sub_cancel]
    rw [if_neg (by omega)]
    rfl
  simp only [removeEdge, DiGraph.addEdge, List.length_append, List.length_singleton, Nat.lt_succ_self,
    if_true] at recent ⊢
  rw [edges, recent]

theorem visited_incoming (node : Nat) :
    g.visited.filter (fun edge => edge.2 == node) =
      (g.incomingEdges node).filterMap (fun index => g.edges[index]?) := by
  rw [visited, incomingEdges, List.filter_filterMap, List.filterMap_filter]
  refine List.filterMap_congr ?_
  intro index _
  cases g.edges[index]? <;> rfl

/-- A node is visited from as many edges as come into it. -/
theorem Complete.length_incoming (complete : g.Complete) (node : Nat) :
    (g.incoming node).length = (g.incomingEdges node).length := by
  rw [incoming, List.length_map, visited_incoming, List.filterMap_length_eq_length]
  intro index member
  obtain ⟨source, found⟩ := complete.mem_incomingEdges.mp member
  rw [found]
  rfl

/-- Taking the edges into a node out one by one, by the indices they had at the
start: none of them is renumbered before its turn. -/
theorem detach (node : Nat) (incoming : List Nat) {slack : Nat} (complete : g.Complete)
    (all : g.incomingEdges node = incoming) (here : g.OrderedAt 0 node) (ordered : ∀ other, g.OrderedAt slack other) :
    (incoming.foldl removeEdge g).Complete ∧ (incoming.foldl removeEdge g).weights = g.weights ∧
      (incoming.foldl removeEdge g).edges.Perm (g.edges.filter (fun edge => edge.2 != node)) ∧
      ∀ other, (incoming.foldl removeEdge g).OrderedAt (slack + incoming.length) other := by
  induction incoming generalizing g slack with
  | nil =>
    refine ⟨complete, rfl, ?_, ordered⟩
    have rest : g.edges.filter (fun edge => edge.2 != node) = g.edges := by
      refine List.filter_eq_self.mpr ?_
      rintro ⟨source, target⟩ member
      obtain ⟨index, bound, found⟩ := List.getElem_of_mem member
      rw [bne_iff_ne]
      rintro rfl
      have visited : index ∈ g.incomingEdges target :=
        complete.mem_incomingEdges.mpr ⟨source, by rw [List.getElem?_eq_getElem bound, found]⟩
      rw [all] at visited
      cases visited
    rw [rest]
    exact List.Perm.refl _
  | cons edge rest ih =>
    have first : edge ∈ g.incomingEdges node := by
      rw [all]
      exact List.mem_cons_self
    obtain ⟨source, found⟩ := complete.mem_incomingEdges.mp first
    have inside := (List.getElem?_eq_some_iff.mp found).1
    have length : (g.removeEdge edge).edges.length = g.edges.length - 1 := by
      simp only [removeEdge, if_pos inside, Vec.length_swapRemove]
    -- what is still to be removed lies below the last edge
    have low : ∀ m index, rest[m]? = some index → index + m + 1 < g.edges.length := by
      intro m index here'
      have bound := here (m + 1) index (by rw [all]; simpa using here')
      omega
    have remaining : (g.removeEdge edge).incomingEdges node = rest := by
      rw [complete.incomingEdges_removeEdge inside, all, List.erase_cons_head]
      refine (List.map_congr_left ?_).trans (List.map_id rest)
      intro index member
      obtain ⟨m, bound, same⟩ := List.getElem_of_mem member
      have below := low m index (by rw [List.getElem?_eq_getElem bound, same])
      unfold relabel
      rw [if_neg (by omega)]
      rfl
    have stillHere : (g.removeEdge edge).OrderedAt 0 node := by
      intro m index found'
      rw [remaining] at found'
      have below := low m index found'
      omega
    obtain ⟨complete', weights, edges, ordered'⟩ := ih (complete.removeEdge inside) remaining stillHere
      (fun other => (ordered other).removeEdge complete inside)
    refine ⟨complete', weights.trans (removeEdge_weights edge), ?_, ?_⟩
    · have taken := (removeEdge_edges found).filter (fun edge => edge.2 != node)
      simp only [List.filter_cons, bne_self_eq_false, Bool.false_eq_true, if_false] at taken
      exact edges.trans taken.symm
    · intro other
      have result := ordered' other
      rw [List.length_cons]
      refine result.mono ?_
      omega

end

end DiGraph

end Swarm
