import Mathlib.Algebra.BigOperators.Group.List.Basic
import Mathlib.Tactic.Abel
import Mathlib.Data.List.Nodup
import Mathlib.Data.List.Perm.Basic

namespace Swarm.Vec
variable {α : Type}

/-- `Vec::swap_remove`: the last element takes the place of the removed one. -/
def swapRemove (items : List α) (position : Nat) : List α :=
  match items.getLast? with
  | none => items
  | some last => (items.set position last).dropLast

/-- Change the first element that `wanted` accepts. -/
def modifyFirst (wanted : α → Bool) (change : α → α) : List α → List α
  | [] => []
  | item :: rest => if wanted item then change item :: rest else item :: modifyFirst wanted change rest

@[simp] theorem length_modifyFirst (wanted : α → Bool) (change : α → α) (items : List α) :
    (modifyFirst wanted change items).length = items.length := by
  induction items with
  | nil => rfl
  | cons item rest ih =>
    unfold modifyFirst
    split
    · rfl
    · rw [List.length_cons, ih, List.length_cons]

theorem map_modifyFirst {β : Type} {key : α → β} {wanted : α → Bool} {change : α → α}
    (kept : ∀ item, wanted item = true → key (change item) = key item) (items : List α) :
    (modifyFirst wanted change items).map key = items.map key := by
  induction items with
  | nil => rfl
  | cons item rest ih =>
    unfold modifyFirst
    split
    · rename_i chosen
      rw [List.map_cons, List.map_cons, kept item chosen]
    · rw [List.map_cons, List.map_cons, ih]

theorem countP_le_modifyFirst (test wanted : α → Bool) (change : α → α) (items : List α) :
    items.countP test ≤ (modifyFirst wanted change items).countP test + 1 := by
  induction items with
  | nil => exact Nat.zero_le _
  | cons item rest ih =>
    unfold modifyFirst
    split
    · simp only [List.countP_cons]
      split <;> omega
    · simp only [List.countP_cons]
      omega

section
variable {κ : Type} [DecidableEq κ] {key : α → κ} {items : List α} {item : α}

/-- Where keys are distinct, the first item with the key of a given one is that item. -/
theorem find?_key (distinct : (items.map key).Nodup) (member : item ∈ items) :
    items.find? (fun other => key other == key item) = some item := by
  induction items with
  | nil => cases member
  | cons head rest ih =>
    rw [List.map_cons, List.nodup_cons] at distinct
    rcases List.mem_cons.mp member with rfl | later
    · exact List.find?_cons_of_pos (beq_self_eq_true _)
    · have different : key head ≠ key item := fun same => distinct.1 (same ▸ List.mem_map_of_mem later)
      rw [List.find?_cons_of_neg (by simpa using different)]
      exact ih distinct.2 later

/-- Where keys are distinct, the items with other keys stay. -/
theorem mem_modifyFirst_key (distinct : (items.map key).Nodup) (member : item ∈ items) {change : α → α} {other : α} :
    other ∈ modifyFirst (fun other => key other == key item) change items ↔
      other = change item ∨ other ∈ items ∧ key other ≠ key item := by
  induction items with
  | nil => cases member
  | cons head rest ih =>
    rw [List.map_cons, List.nodup_cons] at distinct
    unfold modifyFirst
    rcases List.mem_cons.mp member with rfl | later
    · have apart : ∀ other ∈ rest, key other ≠ key item := fun other inside same =>
        distinct.1 (same ▸ List.mem_map_of_mem inside)
      rw [if_pos (beq_self_eq_true _), List.mem_cons, List.mem_cons]
      constructor
      · rintro (changed | inside)
        · exact Or.inl changed
        · exact Or.inr ⟨Or.inr inside, apart other inside⟩
      · rintro (changed | ⟨rfl | inside, different⟩)
        · exact Or.inl changed
        · exact absurd rfl different
        · exact Or.inr inside
    · have different : key head ≠ key item := fun same => distinct.1 (same ▸ List.mem_map_of_mem later)
      rw [if_neg (by simpa using different), List.mem_cons, ih distinct.2 later, List.mem_cons]
      constructor
      · rintro (rfl | changed | ⟨inside, other⟩)
        · exact Or.inr ⟨Or.inl rfl, different⟩
        · exact Or.inl changed
        · exact Or.inr ⟨Or.inr inside, other⟩
      · rintro (changed | ⟨rfl | inside, other⟩)
        · exact Or.inr (Or.inl changed)
        · exact Or.inl rfl
        · exact Or.inr (Or.inr ⟨inside, other⟩)

end

/-- `Iterator::max_by`, where `greater x y` says that `x` compares greater than
`y`. Among equal elements the last one is returned. -/
def maxBy (greater : α → α → Bool) : List α → Option α
  | [] => none
  | first :: rest => some (rest.foldl (fun best item => if greater best item then best else item) first)

/-- `Iterator::min_by`. Among equal elements the first one is returned. -/
def minBy (greater : α → α → Bool) : List α → Option α
  | [] => none
  | first :: rest => some (rest.foldl (fun best item => if greater best item then item else best) first)

/-- A fold that keeps one of two elements ends at an element. -/
theorem foldl_pick_mem {pick : α → α → α}
    (either : ∀ best item, pick best item = best ∨ pick best item = item) (first : α) (rest : List α) :
    rest.foldl pick first ∈ first :: rest := by
  induction rest generalizing first with
  | nil => exact List.mem_singleton.mpr rfl
  | cons item rest ih =>
    rw [List.foldl_cons]
    rcases either first item with same | same
    · rw [same]
      rcases List.mem_cons.mp (ih first) with here | old
      · rw [here]
        exact List.mem_cons_self
      · exact List.mem_cons_of_mem _ (List.mem_cons_of_mem _ old)
    · rw [same]
      exact List.mem_cons_of_mem _ (ih item)

theorem maxBy_mem {greater : α → α → Bool} {items : List α} {best : α}
    (run : maxBy greater items = some best) : best ∈ items := by
  cases items with
  | nil => simp [maxBy] at run
  | cons first rest =>
    cases run
    exact foldl_pick_mem (fun best item => by cases greater best item <;> simp) first rest

theorem minBy_mem {greater : α → α → Bool} {items : List α} {best : α}
    (run : minBy greater items = some best) : best ∈ items := by
  cases items with
  | nil => simp [minBy] at run
  | cons first rest =>
    cases run
    exact foldl_pick_mem (fun best item => by cases greater best item <;> simp) first rest

theorem minBy_eq_none {greater : α → α → Bool} {items : List α} : minBy greater items = none ↔ items = [] := by
  cases items <;> simp [minBy]

theorem maxBy_eq_none {greater : α → α → Bool} {items : List α} : maxBy greater items = none ↔ items = [] := by
  cases items <;> simp [maxBy]

/-- Nothing compares greater than the element that is returned. -/
theorem maxBy_greatest {greater : α → α → Bool} (asymm : ∀ a b, greater a b = true → greater b a = false)
    (negative : ∀ a b c, greater a b = false → greater b c = false → greater a c = false) {items : List α} {best : α}
    (run : maxBy greater items = some best) : ∀ item ∈ items, greater item best = false := by
  have irrefl : ∀ a, greater a a = false := by
    intro a
    by_contra reflexive
    have same := asymm a a (by simpa using reflexive)
    exact reflexive same
  have climbs : ∀ (rest seen : List α) (first : α), (∀ item ∈ seen, greater item first = false) →
      ∀ item ∈ seen ++ rest,
      greater item (rest.foldl (fun best item => if greater best item then best else item) first) = false := by
    intro rest
    induction rest with
    | nil => exact fun seen first below item member => below item (by simpa using member)
    | cons next rest ih =>
      intro seen first below item member
      have longer : item ∈ (seen ++ [next]) ++ rest := by simpa using member
      rw [List.foldl_cons]
      refine ih (seen ++ [next]) _ ?_ item longer
      intro other inside
      split
      · rename_i kept
        rcases List.mem_append.mp inside with old | last
        · exact below other old
        · exact List.mem_singleton.mp last ▸ asymm _ _ kept
      · rename_i passed
        have above : greater first next = false := by simpa using passed
        rcases List.mem_append.mp inside with old | last
        · exact negative _ _ _ (below other old) above
        · exact List.mem_singleton.mp last ▸ irrefl next
  cases items with
  | nil => cases run
  | cons first rest =>
    cases run
    refine climbs rest [first] first ?_
    intro item member
    exact List.mem_singleton.mp member ▸ irrefl first

/-- Nothing but the element at `position` is lost. -/
theorem perm_swapRemove {items : List α} {position : Nat} {item : α} (found : items[position]? = some item) :
    items.Perm (item :: swapRemove items position) := by
  rcases List.eq_nil_or_concat items with rfl | ⟨front, last, rfl⟩
  · simp at found
  rw [List.concat_eq_append] at found ⊢
  simp only [swapRemove, List.getLast?_concat]
  rcases Nat.lt_or_ge position front.length with inside | atEnd
  · rw [List.getElem?_append_left inside] at found
    obtain ⟨_, rfl⟩ := List.getElem?_eq_some_iff.mp found
    rw [List.set_append_left _ _ inside, List.dropLast_concat]
    have kept := List.set_perm_cons_eraseIdx inside last
    have taken := List.getElem_cons_eraseIdx_perm inside
    calc (front ++ [last]).Perm (last :: front) := List.perm_append_comm
      _ |>.Perm (last :: front[position] :: front.eraseIdx position) := taken.symm.cons last
      _ |>.Perm (front[position] :: last :: front.eraseIdx position) := List.Perm.swap _ _ _
      _ |>.Perm (front[position] :: front.set position last) := kept.symm.cons _
  · rw [List.getElem?_append_right atEnd] at found
    obtain ⟨bound, value⟩ := List.getElem?_eq_some_iff.mp found
    have here : position - front.length = 0 := by
      simp only [List.length_singleton] at bound
      omega
    simp only [here, List.getElem_singleton] at value
    rw [List.set_append_right _ _ atEnd, here, List.set_cons_zero, List.dropLast_concat, ← value]
    exact List.perm_append_comm

/-- Where keys are distinct, one item has the key of a given one. -/
theorem length_filter_key {α κ : Type} [DecidableEq κ] {items : List α} {key : α → κ}
    (distinct : (items.map key).Nodup) {item : α} (member : item ∈ items) :
    (items.filter (fun other => key other = key item)).length = 1 := by
  have once := List.count_eq_one_of_mem distinct (List.mem_map_of_mem member)
  rw [List.count, List.countP_map] at once
  rw [← List.countP_eq_length_filter, ← once]
  rfl

/-- A new item in the place of an old one changes a sum by the difference. -/
theorem sum_set {M : Type} [AddCommMonoid M] {items : List α} {index : Nat} {old : α}
    (here : items[index]? = some old) (new : α) (figure : α → M) :
    ((items.set index new).map figure).sum + figure old = (items.map figure).sum + figure new := by
  induction items generalizing index with
  | nil => cases here
  | cons item rest ih =>
    cases index with
    | zero =>
      cases here
      simp only [List.set_cons_zero, List.map_cons, List.sum_cons]
      rw [add_right_comm, add_comm (figure new), add_right_comm]
    | succ index =>
      simp only [List.set_cons_succ, List.map_cons, List.sum_cons, add_assoc]
      rw [ih here]

/-- What goes from one sum into another leaves their total as it is, but for what gets lost and what turns up. -/
theorem sum_transfer {M : Type} [AddCancelCommMonoid M] {left left' right right' gone came went here lost found : M}
    (first : left' + gone = left + came) (second : right' + went = right + here)
    (same : came + here + lost = gone + went + found) : left' + right' + lost = left + right + found := by
  refine add_right_cancel (b := gone + went) ?_
  calc left' + right' + lost + (gone + went) = (left' + gone) + (right' + went) + lost := by abel
    _ = (left + came) + (right + here) + lost := by rw [first, second]
    _ = left + right + (came + here + lost) := by abel
    _ = left + right + (gone + went + found) := by rw [same]
    _ = left + right + found + (gone + went) := by abel

end Swarm.Vec
