import Mathlib.Data.List.Sort

namespace Swarm.Ranking
variable {α β : Type} [LinearOrder β] (rank : α → β) [DecidableRel (fun left right : α => rank right ≤ rank left)]

/-- The items from the highest rank to the lowest, equal ranks in the order they came. -/
abbrev ranked (items : List α) : List α := items.insertionSort (fun left right => rank right ≤ rank left)

/-- How many items are ranked before the one between `front` and `back`. -/
def standing (front : List α) (item : α) (back : List α) : Nat :=
  front.countP (fun other => rank item ≤ rank other) + back.countP (fun other => rank item < rank other)

theorem ranked_pairwise (items : List α) :
    (ranked rank items).Pairwise (fun left right => rank right ≤ rank left) := by
  have total : Std.Total (fun left right : α => rank right ≤ rank left) :=
    ⟨fun left right => le_total (rank right) (rank left)⟩
  have trans : IsTrans α (fun left right : α => rank right ≤ rank left) :=
    ⟨fun _ _ _ first second => le_trans second first⟩
  exact List.pairwise_insertionSort _ items

theorem mem_ranked {items : List α} {item : α} : item ∈ ranked rank items ↔ item ∈ items := List.mem_insertionSort _

variable {rank}

/-- What stands before an item that is listed once. -/
theorem mem_front_of_pair {pre post : List α} {first item : α} (unique : (pre ++ item :: post).Nodup)
    (pair : [first, item].Sublist (pre ++ item :: post)) : first ∈ pre := by
  obtain ⟨_, ends, apart⟩ := List.nodup_append.mp unique
  obtain ⟨alone, _⟩ := List.nodup_cons.mp ends
  obtain ⟨left, right, parts, inPre, inPost⟩ := List.sublist_append_iff.mp pair
  cases left with
  | nil =>
    rw [List.nil_append] at parts
    rw [← parts] at inPost
    exact absurd (List.singleton_sublist.mp inPost.tail) alone
  | cons head tail =>
    rw [List.cons_append, List.cons.injEq] at parts
    rw [parts.1]
    exact inPre.subset List.mem_cons_self

theorem mem_back_of_pair {pre post : List α} {item last : α} (unique : (pre ++ item :: post).Nodup)
    (pair : [item, last].Sublist (pre ++ item :: post)) : last ∈ post := by
  obtain ⟨_, _, apart⟩ := List.nodup_append.mp unique
  obtain ⟨left, right, parts, inPre, inPost⟩ := List.sublist_append_iff.mp pair
  cases left with
  | nil =>
    rw [List.nil_append] at parts
    rw [← parts] at inPost
    exact List.singleton_sublist.mp inPost.tail
  | cons head tail =>
    rw [List.cons_append, List.cons.injEq] at parts
    have inside : item ∈ pre := parts.1 ▸ inPre.subset List.mem_cons_self
    exact absurd rfl (apart item inside item List.mem_cons_self)

/-- An item takes its place among the ranked ones after those that are ranked before it. -/
theorem length_of_ranked {front back pre post : List α} {item : α} (unique : (front ++ item :: back).Nodup)
    (place : ranked rank (front ++ item :: back) = pre ++ item :: post) :
    pre.length = standing rank front item back := by
  have perm : (pre ++ item :: post).Perm (front ++ item :: back) := place ▸ List.perm_insertionSort _ _
  have unique' : (pre ++ item :: post).Nodup := perm.nodup_iff.mpr unique
  have sorted : (pre ++ item :: post).Pairwise (fun left right => rank right ≤ rank left) :=
    place ▸ ranked_pairwise rank _
  obtain ⟨_, ends, above⟩ := List.pairwise_append.mp sorted
  obtain ⟨below, _⟩ := List.pairwise_cons.mp ends
  obtain ⟨single, _, apart⟩ := List.nodup_append.mp unique'
  obtain ⟨fronts, ends', separate⟩ := List.nodup_append.mp unique
  obtain ⟨outside, backs⟩ := List.nodup_cons.mp ends'
  let ahead := front.filter (fun other => rank item ≤ rank other) ++ back.filter (fun other => rank item < rank other)
  have distinct : ahead.Nodup := by
    refine List.nodup_append.mpr ⟨fronts.filter _, backs.filter _, ?_⟩
    intro first inFront second inBack
    exact separate first (List.mem_filter.mp inFront).1 second (List.mem_cons_of_mem _ (List.mem_filter.mp inBack).1)
  have stable : ∀ first second : α, [first, second].Sublist (front ++ item :: back) → rank second ≤ rank first →
      [first, second].Sublist (pre ++ item :: post) := fun first second pair order =>
    place ▸ List.pair_sublist_insertionSort order pair
  have members : ∀ other, other ∈ pre ↔ other ∈ ahead := by
    intro other
    simp only [ahead, List.mem_append, List.mem_filter, decide_eq_true_eq]
    constructor
    · intro inside
      have order : rank item ≤ rank other := above other inside item List.mem_cons_self
      have listed : other ∈ front ++ item :: back := perm.mem_iff.mp (List.mem_append_left _ inside)
      have different : other ≠ item := apart other inside item List.mem_cons_self
      rcases List.mem_append.mp listed with early | late
      · exact Or.inl ⟨early, order⟩
      · have behind := (List.mem_cons.mp late).resolve_left different
        refine Or.inr ⟨behind, lt_of_le_of_ne order ?_⟩
        -- of two equal ranks the earlier one stays first
        intro equal
        have pair : [item, other].Sublist (front ++ item :: back) :=
          ((List.singleton_sublist.mpr behind).cons_cons item).trans (List.sublist_append_right _ _)
        have after := mem_back_of_pair unique' (stable item other pair (le_of_eq equal.symm))
        exact apart other inside other (List.mem_cons_of_mem _ after) rfl
    · rintro (⟨early, order⟩ | ⟨late, order⟩)
      · have pair : [other, item].Sublist (front ++ item :: back) :=
          (List.singleton_sublist.mpr early).append (List.singleton_sublist.mpr List.mem_cons_self)
        exact mem_front_of_pair unique' (stable other item pair order)
      · have listed : other ∈ pre ++ item :: post :=
          perm.mem_iff.mpr (List.mem_append_right _ (List.mem_cons_of_mem _ late))
        rcases List.mem_append.mp listed with inside | behind
        · exact inside
        · rcases List.mem_cons.mp behind with rfl | behind
          · exact absurd order (lt_irrefl _)
          · exact absurd (below other behind) (not_le.mpr order)
  have same := ((List.perm_ext_iff_of_nodup single distinct).mpr members).length_eq
  rw [same, List.length_append, standing, List.countP_eq_length_filter, List.countP_eq_length_filter]

/-- An item is among the first ones exactly when fewer are ranked before it. -/
theorem mem_take_ranked {front back : List α} {item : α} (unique : (front ++ item :: back).Nodup) (count : Nat) :
    item ∈ (ranked rank (front ++ item :: back)).take count ↔ standing rank front item back < count := by
  have listed : item ∈ ranked rank (front ++ item :: back) :=
    (mem_ranked rank).mpr (List.mem_append_right _ List.mem_cons_self)
  obtain ⟨pre, post, place⟩ := List.append_of_mem listed
  have unique' : (pre ++ item :: post).Nodup := place ▸ (List.perm_insertionSort _ _).nodup_iff.mpr unique
  obtain ⟨_, ends, apart⟩ := List.nodup_append.mp unique'
  rw [← length_of_ranked unique place, place]
  constructor
  · intro inside
    by_contra late
    rw [List.take_append_of_le_length (by omega)] at inside
    exact apart item (List.mem_of_mem_take inside) item List.mem_cons_self rfl
  · intro early
    obtain ⟨rest, same⟩ := Nat.exists_eq_add_of_lt early
    rw [List.take_append, same, Nat.add_assoc, Nat.add_sub_cancel_left, List.take_succ_cons]
    exact List.mem_append_right _ List.mem_cons_self

/-- The first ones all reach a level exactly when enough items do. -/
theorem level_le_take_ranked {items : List α} (level : β) (count : Nat) :
    (∀ shown ∈ (ranked rank items).take count, level ≤ rank shown) ↔
      min count items.length ≤ items.countP (fun item => level ≤ rank item) := by
  have perm : (ranked rank items).Perm items := List.perm_insertionSort _ _
  have sorted := ranked_pairwise rank items
  rw [← perm.countP_eq, ← perm.length_eq]
  generalize ranked rank items = sort at sorted ⊢
  constructor
  · intro high
    have all := List.countP_eq_length.mpr (fun shown member => decide_eq_true (high shown member))
    have part := (List.take_sublist count sort).countP_le (p := fun item => decide (level ≤ rank item))
    rw [all, List.length_take] at part
    exact part
  · intro enough shown member
    obtain ⟨place, inside, same⟩ := List.mem_take_iff_getElem.mp member
    have bound : place < sort.length := Nat.lt_of_lt_of_le inside (Nat.min_le_right _ _)
    by_contra low
    have parts : sort = sort.take place ++ sort.drop place := (List.take_append_drop place sort).symm
    have behind : ∀ item ∈ sort.drop place, ¬ decide (level ≤ rank item) = true := by
      have tail := sorted.sublist (List.drop_sublist place sort)
      rw [List.drop_eq_getElem_cons bound, same, List.pairwise_cons] at tail
      intro item inTail high
      rw [List.drop_eq_getElem_cons bound, same] at inTail
      have reached := of_decide_eq_true high
      rcases List.mem_cons.mp inTail with rfl | later
      · exact low reached
      · exact low (le_trans reached (tail.1 item later))
    have few : sort.countP (fun item => level ≤ rank item) ≤ place := by
      rw [parts, List.countP_append, List.countP_eq_zero.mpr behind, Nat.add_zero]
      exact Nat.le_trans List.countP_le_length (List.length_take_le place sort)
    omega

end Swarm.Ranking
