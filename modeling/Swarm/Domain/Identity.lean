import Mathlib.Data.Nat.Digits.Defs
import Swarm.Domain.Task

namespace Swarm

theorem decimal_inj {left right : Nat} (same : toString left = toString right) : left = right := by
  have digits := congrArg (fun text : String => Nat.ofDigitChars 10 text.toList 0) same
  simpa [Nat.toString_eq_ofList_toDigits] using digits

theorem not_mem_decimal {separator : Char} (other : separator.isDigit = false) (n : Nat) :
    separator ∉ (toString n).toList := by
  intro member
  rw [Nat.toString_eq_repr, Nat.toList_repr] at member
  have digit := Nat.isDigit_of_mem_toDigits (by decide) (by decide) member
  rw [other] at digit
  cases digit

theorem hexDigit_inj {left right : Nat} (same : hexDigit left = hexDigit right) : left % 16 = right % 16 := by
  have all : ∀ a b : Fin 16, hexDigit a = hexDigit b → a = b := by decide
  have reduced : ∀ n, hexDigit (n % 16) = hexDigit n := fun n => by simp only [hexDigit, Nat.mod_mod]
  have bound : ∀ n, n % 16 < 16 := fun n => Nat.mod_lt n (by decide)
  have equal := all ⟨left % 16, bound left⟩ ⟨right % 16, bound right⟩ (by
    rw [reduced, reduced]
    exact same)
  exact congrArg Fin.val equal

theorem hexText_inj {width left right : Nat} (same : hexText width left = hexText width right) :
    left % 16 ^ width = right % 16 ^ width := by
  have digits : ∀ k < width, left / 16 ^ k % 16 = right / 16 ^ k % 16 := by
    intro k inside
    have place : width - 1 - k < width := by omega
    have back : width - 1 - (width - 1 - k) = k := by omega
    have equal := List.map_inj_left.mp same (width - 1 - k) (List.mem_range.mpr place)
    rw [back] at equal
    exact hexDigit_inj equal
  have agree : ∀ k ≤ width, left % 16 ^ k = right % 16 ^ k := by
    intro k inside
    induction k with
    | zero => rw [Nat.pow_zero, Nat.mod_one, Nat.mod_one]
    | succ k ih => rw [Nat.mod_pow_succ, Nat.mod_pow_succ, ih (Nat.le_of_succ_le inside), digits k inside]
  exact agree width (Nat.le_refl _)

/-- A field that has no separator ends at the first one. -/
theorem append_separator_inj {separator : Char} {left right rest rest' : List Char} (clean : separator ∉ left)
    (clean' : separator ∉ right) (same : left ++ separator :: rest = right ++ separator :: rest') :
    left = right ∧ rest = rest' := by
  induction left generalizing right with
  | nil =>
    cases right with
    | nil => exact ⟨rfl, (List.cons.inj same).2⟩
    | cons head tail => exact absurd ((List.cons.inj same).1 ▸ List.mem_cons_self) clean'
  | cons head tail ih =>
    cases right with
    | nil => exact absurd ((List.cons.inj same).1 ▸ List.mem_cons_self) clean
    | cons head' tail' =>
      obtain ⟨heads, tails⟩ := List.cons.inj same
      obtain ⟨rfl, rests⟩ := ih (fun member => clean (List.mem_cons_of_mem _ member))
        (fun member => clean' (List.mem_cons_of_mem _ member)) tails
      exact ⟨by rw [heads], rests⟩

/-- The key of a new task, which does not depend on its id. -/
def taskKey (jobId : JobId) (kind : TaskKind) (title : String) (stage : Nat) : String :=
  s!"{jobId.display}:{stage}:{kind.asStr}:{slug title}:" ++
    String.ofList (hexText 16 (stableHash (Utf8.encode title.toList)).toNat)

/-- Neither the number of the stage nor the hash of the title is lost in a key. -/
theorem taskKey_inj {jobId : JobId} {kind kind' : TaskKind} {title title' : String} {stage stage' : Nat}
    (same : taskKey jobId kind title stage = taskKey jobId kind' title' stage') :
    stage = stage' ∧ stableHash (Utf8.encode title.toList) = stableHash (Utf8.encode title'.toList) := by
  have texts := congrArg String.toList same
  simp only [taskKey, String.toList_append, String.toList_ofList] at texts
  constructor
  · -- the digits of the stage end at the next colon
    simp only [List.append_assoc] at texts
    have tails := List.append_cancel_left (List.append_cancel_left texts)
    change (toString stage).toList ++ ':' :: _ = (toString stage').toList ++ ':' :: _ at tails
    have digits : ∀ n : Nat, ':' ∉ (toString n).toList := not_mem_decimal (by decide)
    exact decimal_inj (String.toList_injective (append_separator_inj (digits _) (digits _) tails).1)
  · have widths : ∀ n, (hexText 16 n).length = 16 := fun n => by simp [hexText]
    have tails := (List.append_inj' texts ((widths _).trans (widths _).symm)).2
    have hashes := hexText_inj tails
    have bound : ∀ hash : UInt64, hash.toNat % 16 ^ 16 = hash.toNat := fun hash => Nat.mod_eq_of_lt hash.toNat_lt
    rw [bound, bound] at hashes
    exact UInt64.toNat_inj.mp hashes

end Swarm
