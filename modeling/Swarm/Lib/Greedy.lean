import Mathlib.Data.List.Perm.Basic
import Mathlib.Data.List.Range

namespace Swarm.Greedy

section
variable {α : Type} {covers : α → α → Bool} {kept items : List α}

/-- One pass that keeps an item unless one kept before it covers it. -/
def keep (covers : α → α → Bool) (kept : List α) : List α → List α
  | [] => kept
  | item :: rest => keep covers (if kept.any (fun earlier => covers earlier item) then kept else kept ++ [item]) rest

theorem keep_append (front back : List α) :
    keep covers kept (front ++ back) = keep covers (keep covers kept front) back := by
  induction front generalizing kept with
  | nil => rfl
  | cons item rest ih => exact ih

theorem keep_cons (item : α) (rest : List α) : keep covers kept (item :: rest) =
    keep covers (if kept.any (fun earlier => covers earlier item) then kept else kept ++ [item]) rest := rfl

theorem keep_extends : kept <+: keep covers kept items := by
  induction items generalizing kept with
  | nil => exact List.prefix_refl _
  | cons item rest ih =>
    refine List.IsPrefix.trans ?_ ih
    split
    · exact List.prefix_refl _
    · exact List.prefix_append _ _

theorem keep_sublist : (keep covers kept items).Sublist (kept ++ items) := by
  induction items generalizing kept with
  | nil => rw [List.append_nil]; exact List.Sublist.refl _
  | cons item rest ih =>
    refine List.Sublist.trans ih ?_
    split
    · exact (List.sublist_cons_self item rest).append_left kept
    · rw [List.append_assoc]
      exact List.Sublist.refl _

/-- No item that is kept covers a later one. -/
theorem keep_pairwise (apart : kept.Pairwise (fun earlier later => covers earlier later = false)) :
    (keep covers kept items).Pairwise (fun earlier later => covers earlier later = false) := by
  induction items generalizing kept with
  | nil => exact apart
  | cons item rest ih =>
    refine ih ?_
    by_cases covered : kept.any (fun earlier => covers earlier item) = true
    · rw [if_pos covered]
      exact apart
    · rw [if_neg covered, List.pairwise_append]
      refine ⟨apart, List.pairwise_singleton _ _, ?_⟩
      intro earlier member later new
      rw [List.mem_singleton.mp new]
      rw [Bool.not_eq_true, List.any_eq_false] at covered
      exact Bool.not_eq_true _ ▸ covered earlier member

/-- What is kept of the items up to one of them: that item comes last in it, or is covered by what was kept before. -/
theorem keep_at (covers : α → α → Bool) (before : List α) (item : α) (after : List α) :
    keep covers [] before <+: keep covers [] (before ++ item :: after) ∧
      (keep covers [] before ++ [item] <+: keep covers [] (before ++ item :: after) ∨
        ∃ earlier ∈ keep covers [] before, covers earlier item = true) := by
  rw [keep_append]
  refine ⟨keep_extends, ?_⟩
  rw [keep_cons]
  by_cases covered : (keep covers [] before).any (fun earlier => covers earlier item) = true
  · exact Or.inr (List.any_eq_true.mp covered)
  · rw [if_neg covered]
    exact Or.inl keep_extends

end

/-- Put an index into the first group it joins, or into a new one at the end. -/
def joinFirst (joins : List Nat → Bool) (index : Nat) : List (List Nat) → List (List Nat)
  | [] => [[index]]
  | group :: rest => if joins group then (group ++ [index]) :: rest else group :: joinFirst joins index rest

/-- One pass over the indices below `count`. An index joins a group that has a member similar to it. -/
def group (similar : Nat → Nat → Bool) (count : Nat) : List (List Nat) :=
  (List.range count).foldl (fun groups index =>
    joinFirst (fun members => members.any (fun member => similar member index)) index groups) []

/-- What such a pass comes to. -/
structure Grouping (similar : Nat → Nat → Bool) (count : Nat) (groups : List (List Nat)) : Prop where
  partition : groups.flatten.Perm (List.range count)
  inhabited : ∀ members ∈ groups, members ≠ []
  ascending : ∀ members ∈ groups, members.Pairwise (· < ·)
  joined : ∀ members ∈ groups, ∀ before index after, members = before ++ index :: after → before ≠ [] →
    ∃ member ∈ before, similar member index = true
  apart : groups.Pairwise (fun earlier later => ∀ first rest, later = first :: rest →
    ∀ member ∈ earlier, member < first → similar member first = false)

section
variable {similar : Nat → Nat → Bool} {count : Nat} {groups : List (List Nat)}

theorem joinFirst_cases (joins : List Nat → Bool) (index : Nat) (groups : List (List Nat)) :
    ((∀ members ∈ groups, joins members = false) ∧ joinFirst joins index groups = groups ++ [[index]]) ∨
    ∃ front members back, groups = front ++ members :: back ∧ joins members = true ∧
      joinFirst joins index groups = front ++ (members ++ [index]) :: back := by
  induction groups with
  | nil => exact Or.inl ⟨fun _ none => (by cases none), rfl⟩
  | cons first rest ih =>
    unfold joinFirst
    cases joined : joins first with
    | true => exact Or.inr ⟨[], first, rest, rfl, joined, rfl⟩
    | false =>
      rw [if_neg Bool.false_ne_true]
      rcases ih with ⟨none, same⟩ | ⟨front, members, back, rfl, joins', same⟩
      · refine Or.inl ⟨?_, by rw [same]; rfl⟩
        intro members member
        rcases List.mem_cons.mp member with rfl | member
        · exact joined
        · exact none members member
      · exact Or.inr ⟨first :: front, members, back, rfl, joins', by rw [same]; rfl⟩

theorem Grouping.below (grouping : Grouping similar count groups) {members : List Nat}
    (listed : members ∈ groups) {index : Nat} (member : index ∈ members) : index < count := by
  have present : index ∈ groups.flatten := List.mem_flatten.mpr ⟨members, listed, member⟩
  exact List.mem_range.mp (grouping.partition.mem_iff.mp present)

/-- No group joins the next index: it starts one of its own. -/
theorem Grouping.alone (grouping : Grouping similar count groups)
    (dissimilar : ∀ members ∈ groups, members.any (fun member => similar member count) = false) :
    Grouping similar (count + 1) (groups ++ [[count]]) where
  partition := by
    rw [List.flatten_append, List.flatten_singleton, List.range_succ]
    exact grouping.partition.append_right [count]
  inhabited members listed := by
    rcases List.mem_append.mp listed with old | new
    · exact grouping.inhabited members old
    · rw [List.mem_singleton.mp new]
      exact List.cons_ne_nil _ _
  ascending members listed := by
    rcases List.mem_append.mp listed with old | new
    · exact grouping.ascending members old
    · rw [List.mem_singleton.mp new]
      exact List.pairwise_singleton _ _
  joined members listed before index after parts later := by
    rcases List.mem_append.mp listed with old | new
    · exact grouping.joined members old before index after parts later
    · rw [List.mem_singleton.mp new] at parts
      have size := congrArg List.length parts
      rw [List.length_singleton, List.length_append, List.length_cons] at size
      have some := List.length_pos_iff.mpr later
      omega
  apart := by
    rw [List.pairwise_append]
    refine ⟨grouping.apart, List.pairwise_singleton _ _, ?_⟩
    intro earlier listed later new first rest parts member inside _
    rw [List.mem_singleton.mp new] at parts
    cases parts
    exact Bool.not_eq_true _ ▸ List.any_eq_false.mp (dissimilar earlier listed) member inside

/-- A group joins the next index. -/
theorem Grouping.joins {front back : List (List Nat)} {members : List Nat}
    (grouping : Grouping similar count (front ++ members :: back))
    (close : members.any (fun member => similar member count) = true) :
    Grouping similar (count + 1) (front ++ (members ++ [count]) :: back) where
  partition := by
    have same : (front ++ (members ++ [count]) :: back).flatten.Perm
        ((front ++ members :: back).flatten ++ [count]) := by
      simp only [List.flatten_append, List.flatten_cons, List.append_assoc]
      exact (List.perm_append_comm.append_left members).append_left front.flatten
    rw [List.range_succ]
    exact same.trans (grouping.partition.append_right [count])
  inhabited other listed := by
    rcases List.mem_append.mp listed with old | new
    · exact grouping.inhabited other (List.mem_append_left _ old)
    · rcases List.mem_cons.mp new with rfl | old
      · exact List.append_ne_nil_of_right_ne_nil _ (List.cons_ne_nil _ _)
      · exact grouping.inhabited other (List.mem_append_right _ (List.mem_cons_of_mem _ old))
  ascending other listed := by
    rcases List.mem_append.mp listed with old | new
    · exact grouping.ascending other (List.mem_append_left _ old)
    · rcases List.mem_cons.mp new with rfl | old
      · have here : members ∈ front ++ members :: back := List.mem_append_right _ List.mem_cons_self
        rw [List.pairwise_append]
        refine ⟨grouping.ascending members here, List.pairwise_singleton _ _, ?_⟩
        intro member inside last new
        rw [List.mem_singleton.mp new]
        exact grouping.below here inside
      · exact grouping.ascending other (List.mem_append_right _ (List.mem_cons_of_mem _ old))
  joined other listed before index after parts later := by
    rcases List.mem_append.mp listed with old | new
    · exact grouping.joined other (List.mem_append_left _ old) before index after parts later
    · rcases List.mem_cons.mp new with rfl | old
      · have here : members ∈ front ++ members :: back := List.mem_append_right _ List.mem_cons_self
        rcases List.eq_nil_or_concat after with rfl | ⟨middle, last, rfl⟩
        · obtain ⟨rfl, same⟩ := List.append_inj' parts rfl
          cases same
          exact List.any_eq_true.mp close
        · rw [List.concat_eq_append, ← List.cons_append, ← List.append_assoc] at parts
          obtain ⟨rfl, _⟩ := List.append_inj' parts rfl
          exact grouping.joined _ here before index middle rfl later
      · exact grouping.joined other (List.mem_append_right _ (List.mem_cons_of_mem _ old)) before index
          after parts later
  apart := by
    have here : members ∈ front ++ members :: back := List.mem_append_right _ List.mem_cons_self
    have apart := grouping.apart
    rw [List.pairwise_append, List.pairwise_cons] at apart ⊢
    obtain ⟨fronts, ⟨heads, backs⟩, across⟩ := apart
    refine ⟨fronts, ⟨?_, backs⟩, ?_⟩
    · intro later listed first rest parts member inside earlier
      rcases List.mem_append.mp inside with old | new
      · exact heads later listed first rest parts member old earlier
      · -- the first of an older group comes before the new index
        have small := grouping.below (List.mem_append_right _ (List.mem_cons_of_mem _ listed))
          (show first ∈ later by rw [parts]; exact List.mem_cons_self)
        rw [List.mem_singleton.mp new] at earlier
        omega
    · intro other listed later new first rest parts
      rcases List.mem_cons.mp new with rfl | old
      · obtain ⟨head, tail, rfl⟩ := List.exists_cons_of_ne_nil (grouping.inhabited members here)
        rw [List.cons_append, List.cons.injEq] at parts
        rw [← parts.1]
        exact across other listed _ List.mem_cons_self head tail rfl
      · exact across other listed later (List.mem_cons_of_mem _ old) first rest parts

theorem grouping_group (similar : Nat → Nat → Bool) (count : Nat) : Grouping similar count (group similar count) := by
  induction count with
  | zero =>
    refine ⟨List.Perm.refl _, ?_, ?_, ?_, List.Pairwise.nil⟩
    · exact fun _ none => (by cases none)
    · exact fun _ none => (by cases none)
    · exact fun _ none => (by cases none)
  | succ count ih =>
    unfold group
    rw [List.range_succ, List.foldl_append, List.foldl_cons, List.foldl_nil]
    change Grouping similar (count + 1) (joinFirst _ count (group similar count))
    rcases joinFirst_cases (fun members => members.any (fun member => similar member count)) count
      (group similar count) with
      ⟨none, same⟩ | ⟨front, members, back, parts, joins, same⟩
    · rw [same]
      exact ih.alone none
    · rw [same]
      rw [parts] at ih
      exact ih.joins joins

end

end Swarm.Greedy
