import Mathlib.Algebra.BigOperators.Group.List.Basic
import Mathlib.Algebra.Order.Ring.Nat
import Mathlib.Data.List.Nodup
import Mathlib.Data.List.Perm.Basic

namespace Swarm

/-- A finite map. `entries` lists each key once, in the order the map is
iterated; that order carries no meaning (see `Rehash`). -/
structure Dict (κ ν : Type) where
  entries : List (κ × ν)
  nodup : (entries.map Prod.fst).Nodup

namespace Dict
variable {κ ν : Type}

def empty : Dict κ ν := ⟨[], List.nodup_nil⟩

def keys (d : Dict κ ν) : List κ := d.entries.map Prod.fst

def values (d : Dict κ ν) : List ν := d.entries.map Prod.snd

def retain (d : Dict κ ν) (keep : κ → ν → Bool) : Dict κ ν :=
  ⟨d.entries.filter (fun entry => keep entry.1 entry.2),
    d.nodup.sublist (List.filter_sublist.map Prod.fst)⟩

def mapValues {μ : Type} (d : Dict κ ν) (change : ν → μ) : Dict κ μ :=
  ⟨d.entries.map (fun entry => (entry.1, change entry.2)), by rw [List.map_map]; exact d.nodup⟩

/-- The same map iterated in another order. -/
def Rehash (d d' : Dict κ ν) : Prop := d.entries.Perm d'.entries

section
variable [DecidableEq κ]

def get? (d : Dict κ ν) (key : κ) : Option ν := d.entries.lookup key

def erase (d : Dict κ ν) (key : κ) : Dict κ ν := d.retain (fun k _ => k != key)

def insert (d : Dict κ ν) (key : κ) (value : ν) : Dict κ ν :=
  ⟨(d.erase key).entries ++ [(key, value)], by
    rw [List.map_append, List.nodup_append]
    refine ⟨(d.erase key).nodup, List.nodup_singleton _, ?_⟩
    simp only [erase, retain, List.mem_map, List.mem_filter, List.map_cons, List.map_nil, List.mem_singleton]
    rintro _ ⟨entry, ⟨_, different⟩, rfl⟩ _ rfl
    exact bne_iff_ne.mp different⟩

def modify (d : Dict κ ν) (key : κ) (change : ν → ν) : Dict κ ν :=
  ⟨d.entries.map (fun entry => if entry.1 = key then (entry.1, change entry.2) else entry), by
    have same : (d.entries.map (fun entry => if entry.1 = key then (entry.1, change entry.2) else entry)).map
        Prod.fst = d.entries.map Prod.fst := by
      rw [List.map_map]
      refine List.map_congr_left ?_
      intro entry _
      simp only [Function.comp_apply]
      split <;> rfl
    rw [same]
    exact d.nodup⟩

end

@[simp] theorem empty_entries : (empty : Dict κ ν).entries = [] := rfl

theorem ext {d d' : Dict κ ν} (same : d.entries = d'.entries) : d = d' := by
  cases d
  cases d'
  simpa using same

@[simp] theorem retain_entries (d : Dict κ ν) (keep : κ → ν → Bool) :
    (d.retain keep).entries = d.entries.filter (fun entry => keep entry.1 entry.2) := rfl

theorem mem_values {d : Dict κ ν} {value : ν} : value ∈ d.values ↔ ∃ key, (key, value) ∈ d.entries := by
  simp [values]

theorem mem_keys {d : Dict κ ν} {key : κ} : key ∈ d.keys ↔ ∃ value, (key, value) ∈ d.entries := by
  simp [keys]

/-- A key determines its value. -/
theorem value_unique {d : Dict κ ν} {key : κ} {v w : ν}
    (left : (key, v) ∈ d.entries) (right : (key, w) ∈ d.entries) : v = w := by
  have inj := List.inj_on_of_nodup_map d.nodup left right rfl
  exact congrArg Prod.snd inj

section
variable [DecidableEq κ]

theorem lookup_mem {entries : List (κ × ν)} {key : κ} {value : ν}
    (found : entries.lookup key = some value) : (key, value) ∈ entries := by
  induction entries with
  | nil => simp at found
  | cons entry rest ih =>
    obtain ⟨k, v⟩ := entry
    rw [List.lookup_cons] at found
    by_cases same : key = k
    · subst same
      simp only [beq_self_eq_true] at found
      cases Option.some.inj found
      exact List.mem_cons_self
    · rw [beq_eq_false_iff_ne.mpr same] at found
      exact List.mem_cons_of_mem _ (ih found)

theorem lookup_none {entries : List (κ × ν)} {key : κ}
    (absent : entries.lookup key = none) (value : ν) : (key, value) ∉ entries := by
  intro member
  induction entries with
  | nil => simp at member
  | cons entry rest ih =>
    obtain ⟨k, v⟩ := entry
    rw [List.lookup_cons] at absent
    by_cases same : key = k
    · subst same
      simp at absent
    · rw [beq_eq_false_iff_ne.mpr same] at absent
      rcases List.mem_cons.mp member with equal | old
      · exact same (congrArg Prod.fst equal)
      · exact ih absent old

theorem get?_eq_some {d : Dict κ ν} {key : κ} {value : ν} :
    d.get? key = some value ↔ (key, value) ∈ d.entries := by
  constructor
  · exact lookup_mem
  · intro member
    cases found : d.get? key with
    | none => exact absurd member (lookup_none found value)
    | some other => rw [value_unique member (lookup_mem found)]

theorem get?_eq_none {d : Dict κ ν} {key : κ} : d.get? key = none ↔ key ∉ d.keys := by
  rw [Option.eq_none_iff_forall_ne_some, mem_keys]
  simp only [ne_eq, get?_eq_some, not_exists]

/-- Two maps with the same answers agree on every membership. -/
theorem get?_congr {d d' : Dict κ ν} (same : ∀ entry, entry ∈ d.entries ↔ entry ∈ d'.entries) (key : κ) :
    d.get? key = d'.get? key := by
  ext value
  rw [get?_eq_some, get?_eq_some, same]

theorem Rehash.get? {d d' : Dict κ ν} (moved : d.Rehash d') (key : κ) : d.get? key = d'.get? key :=
  get?_congr (fun _ => List.Perm.mem_iff moved) key

@[simp] theorem get?_empty (key : κ) : (empty : Dict κ ν).get? key = none := rfl

theorem get?_retain {d : Dict κ ν} {keep : κ → ν → Bool} {key : κ} :
    (d.retain keep).get? key = (d.get? key).filter (keep key) := by
  ext value
  simp only [get?_eq_some, retain_entries, List.mem_filter, Option.filter_eq_some_iff]

theorem get?_erase {d : Dict κ ν} {key other : κ} :
    (d.erase key).get? other = if other = key then none else d.get? other := by
  rw [erase, get?_retain]
  by_cases same : other = key
  · simp [same]
  · simp only [if_neg same]
    cases d.get? other <;> simp [Option.filter, same]

@[simp] theorem get?_erase_self {d : Dict κ ν} {key : κ} : (d.erase key).get? key = none := by
  rw [get?_erase, if_pos rfl]

theorem mem_insert {d : Dict κ ν} {key : κ} {value : ν} {entry : κ × ν} :
    entry ∈ (d.insert key value).entries ↔ entry ∈ d.entries ∧ entry.1 ≠ key ∨ entry = (key, value) := by
  simp [insert, erase]

theorem get?_insert {d : Dict κ ν} {key other : κ} {value : ν} :
    (d.insert key value).get? other = if other = key then some value else d.get? other := by
  ext found
  rw [get?_eq_some, mem_insert]
  by_cases same : other = key
  · subst same
    simp [eq_comm]
  · simp [same, get?_eq_some]

@[simp] theorem get?_insert_self {d : Dict κ ν} {key : κ} {value : ν} :
    (d.insert key value).get? key = some value := by
  rw [get?_insert, if_pos rfl]

theorem get?_insert_of_ne {d : Dict κ ν} {key other : κ} {value : ν} (different : other ≠ key) :
    (d.insert key value).get? other = d.get? other := by
  rw [get?_insert, if_neg different]

theorem mem_modify {d : Dict κ ν} {key : κ} {change : ν → ν} {k : κ} {v : ν} :
    (k, v) ∈ (d.modify key change).entries ↔
      ∃ old, (k, old) ∈ d.entries ∧ v = if k = key then change old else old := by
  simp only [modify, List.mem_map, Prod.exists]
  constructor
  · rintro ⟨k', old, member, equal⟩
    split at equal
    · rename_i same
      cases equal
      exact ⟨old, member, by rw [if_pos same]⟩
    · rename_i same
      cases equal
      exact ⟨v, member, by rw [if_neg same]⟩
  · rintro ⟨old, member, value⟩
    refine ⟨k, old, member, ?_⟩
    by_cases same : k = key <;> simp [same, value]

theorem get?_modify {d : Dict κ ν} {key other : κ} {change : ν → ν} :
    (d.modify key change).get? other = if other = key then (d.get? key).map change else d.get? other := by
  ext found
  rw [get?_eq_some, mem_modify]
  by_cases same : other = key
  · subst same
    simp only [if_true, ← get?_eq_some, Option.map_eq_some_iff]
    exact exists_congr (fun old => and_congr_right fun _ => eq_comm)
  · simp [same, get?_eq_some]

theorem modify_of_fixed {d : Dict κ ν} {key : κ} {change : ν → ν}
    (fixed : ∀ value, d.get? key = some value → change value = value) : d.modify key change = d := by
  refine ext ?_
  have same : ∀ entry ∈ d.entries, (if entry.1 = key then (entry.1, change entry.2) else entry) = entry := by
    rintro ⟨other, value⟩ member
    simp only
    split
    · rename_i here
      subst here
      rw [fixed value (get?_eq_some.mpr member)]
    · rfl
  exact (List.map_congr_left same).trans (List.map_id _)

/-- Changing one value changes a count by what the old and the new value count for. -/
theorem countP_modify {d : Dict κ ν} {key : κ} {value : ν} (found : d.get? key = some value) (change : ν → ν)
    (wanted : ν → Bool) : (d.modify key change).values.countP wanted + (wanted value).toNat =
      d.values.countP wanted + (wanted (change value)).toNat := by
  obtain ⟨front, back, split⟩ := List.append_of_mem (get?_eq_some.mp found)
  have distinct := d.nodup
  rw [split, List.map_append, List.map_cons, List.nodup_append, List.nodup_cons] at distinct
  obtain ⟨_, ⟨notBack, _⟩, apart⟩ := distinct
  have others : ∀ entries : List (κ × ν), key ∉ entries.map Prod.fst →
      entries.map (fun entry => if entry.1 = key then (entry.1, change entry.2) else entry) = entries := by
    intro entries absent
    refine (List.map_congr_left ?_).trans (List.map_id _)
    intro entry member
    exact if_neg (fun same => absent (List.mem_map.mpr ⟨entry, member, same⟩))
  have front' := others front (fun member => apart key member key List.mem_cons_self rfl)
  have back' := others back notBack
  simp only [values, modify, split, List.map_append, List.map_cons, front', back', if_pos, List.countP_append,
    List.countP_cons]
  cases wanted value <;> cases wanted (change value) <;> simp <;> omega

theorem get?_mapValues {μ : Type} {d : Dict κ ν} {change : ν → μ} {key : κ} :
    (d.mapValues change).get? key = (d.get? key).map change := by
  ext value
  rw [get?_eq_some, Option.map_eq_some_iff]
  simp only [mapValues, List.mem_map, Prod.mk.injEq, Prod.exists, get?_eq_some]
  constructor
  · rintro ⟨k, old, member, rfl, same⟩
    exact ⟨old, member, same⟩
  · rintro ⟨old, member, same⟩
    exact ⟨key, old, member, rfl, same⟩

/-- An absent key is appended, so the old entries are a prefix. -/
theorem insert_entries_of_absent {d : Dict κ ν} {key : κ} {value : ν} (absent : key ∉ d.keys) :
    (d.insert key value).entries = d.entries ++ [(key, value)] := by
  simp only [insert, erase, retain, List.append_cancel_right_eq, List.filter_eq_self]
  intro entry member
  simp only [bne_iff_ne]
  rintro rfl
  exact absent (List.mem_map_of_mem member)

/-- Removing a present key removes exactly its entry. -/
theorem erase_entries_perm {d : Dict κ ν} {key : κ} {value : ν} (present : (key, value) ∈ d.entries) :
    d.entries.Perm ((key, value) :: (d.erase key).entries) := by
  obtain ⟨front, back, split⟩ := List.append_of_mem present
  have nodup := d.nodup
  rw [split, List.map_append, List.map_cons, List.nodup_middle, List.nodup_cons, List.mem_append] at nodup
  have keepAll : ∀ part : List (κ × ν), key ∉ part.map Prod.fst →
      part.filter (fun entry => entry.1 != key) = part := by
    intro part absent
    rw [List.filter_eq_self]
    intro entry member
    rw [bne_iff_ne]
    rintro rfl
    exact absent (List.mem_map_of_mem member)
  have frontSame := keepAll front (fun member => nodup.1 (Or.inl member))
  have backSame := keepAll back (fun member => nodup.1 (Or.inr member))
  have rest : (d.erase key).entries = front ++ back := by
    rw [erase, retain_entries, split, List.filter_append, List.filter_cons, frontSame, backSame]
    simp
  rw [rest, split]
  exact List.perm_middle

/-- A new value for a key changes a sum by what it adds to the old one, if there was one. -/
theorem sum_put {M : Type} [AddCommMonoid M] (d : Dict κ ν) (key : κ) (value : ν) (figure : ν → M) :
    ((d.insert key value).values.map figure).sum + (d.get? key).elim 0 figure = (d.values.map figure).sum +
      figure value := by
  cases found : d.get? key with
  | none =>
    simp only [values, insert_entries_of_absent (get?_eq_none.mp found), List.map_append, List.map_cons, List.map_nil,
      List.sum_append, List.sum_cons, List.sum_nil, add_zero, Option.elim_none]
  | some old =>
    have parts := (((erase_entries_perm (get?_eq_some.mp found)).map Prod.snd).map figure).sum_eq
    simp only [List.map_cons, List.sum_cons] at parts
    simp only [values, insert, List.map_append, List.map_cons, List.map_nil, List.sum_append,
      List.sum_cons, List.sum_nil,
      add_zero, Option.elim_some, parts]
    rw [add_right_comm, add_comm (figure old)]

theorem sum_insert {d : Dict κ ν} {key : κ} {old : ν} (found : d.get? key = some old) (value : ν) (figure : ν → Nat) :
    ((d.insert key value).values.map figure).sum + figure old = (d.values.map figure).sum + figure value := by
  have parts := d.sum_put key value figure
  rw [found] at parts
  exact parts

theorem sum_insert_absent {d : Dict κ ν} {key : κ} (absent : d.get? key = none) (value : ν) (figure : ν → Nat) :
    ((d.insert key value).values.map figure).sum = (d.values.map figure).sum + figure value := by
  have parts := d.sum_put key value figure
  rw [absent] at parts
  exact parts

end

end Dict

end Swarm
