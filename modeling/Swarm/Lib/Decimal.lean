import Mathlib.Data.Char
import Mathlib.Data.List.Lex
import Mathlib.Data.Nat.Digits.Defs

namespace Swarm.Decimal

/-- How many digits the decimal text of a number has. -/
def width (n : Nat) : Nat := (Nat.toDigits 10 n).length

/-- The value of a digit, as `Nat.ofDigitChars` reads it. -/
def digit (ch : Char) : Nat := ch.toNat - '0'.toNat

theorem isDigit_toDigits {n : Nat} : ∀ ch ∈ Nat.toDigits 10 n, ch.isDigit = true :=
  fun _ member => Nat.isDigit_of_mem_toDigits (by decide) (by decide) member

theorem digit_bounds {ch : Char} (decimal : ch.isDigit = true) : '0'.toNat ≤ ch.toNat ∧ ch.toNat ≤ '9'.toNat := by
  simp only [Char.isDigit, Bool.and_eq_true, decide_eq_true_eq, ge_iff_le] at decimal
  exact ⟨decimal.1, decimal.2⟩

theorem digit_lt_ten {ch : Char} (decimal : ch.isDigit = true) : digit ch < 10 := by
  obtain ⟨lower, upper⟩ := digit_bounds decimal
  unfold digit
  have zero : '0'.toNat = 48 := rfl
  have nine : '9'.toNat = 57 := rfl
  omega

theorem digit_lt_iff {left right : Char} (decimal : left.isDigit = true) (decimal' : right.isDigit = true) :
    left < right ↔ digit left < digit right := by
  obtain ⟨lower, _⟩ := digit_bounds decimal
  obtain ⟨lower', _⟩ := digit_bounds decimal'
  have order : left < right ↔ left.toNat < right.toNat := Iff.rfl
  rw [order]
  unfold digit
  omega

theorem digit_inj {left right : Char} (decimal : left.isDigit = true) (decimal' : right.isDigit = true)
    (same : digit left = digit right) : left = right := by
  obtain ⟨lower, _⟩ := digit_bounds decimal
  obtain ⟨lower', _⟩ := digit_bounds decimal'
  refine Char.toNat_inj.mp ?_
  unfold digit at same
  omega

theorem value_cons (ch : Char) (rest : List Char) :
    Nat.ofDigitChars 10 (ch :: rest) 0 = 10 ^ rest.length * digit ch + Nat.ofDigitChars 10 rest 0 := by
  rw [Nat.ofDigitChars_cons, Nat.ofDigitChars_eq_ofDigitChars_zero, Nat.mul_zero, Nat.zero_add]
  rfl

theorem value_lt {digits : List Char} (decimal : ∀ ch ∈ digits, ch.isDigit = true) :
    Nat.ofDigitChars 10 digits 0 < 10 ^ digits.length := by
  induction digits with
  | nil => exact Nat.one_pos
  | cons ch rest ih =>
    have first := digit_lt_ten (decimal ch List.mem_cons_self)
    have later := ih (fun other member => decimal other (List.mem_cons_of_mem _ member))
    rw [value_cons, List.length_cons, Nat.pow_succ]
    calc 10 ^ rest.length * digit ch + Nat.ofDigitChars 10 rest 0
        < 10 ^ rest.length * digit ch + 10 ^ rest.length := Nat.add_lt_add_left later _
      _ = 10 ^ rest.length * (digit ch + 1) := (Nat.mul_succ _ _).symm
      _ ≤ 10 ^ rest.length * 10 := Nat.mul_le_mul_left _ first

theorem cons_le_cons_iff {ch ch' : Char} {rest rest' : List Char} :
    ch :: rest ≤ ch' :: rest' ↔ ch < ch' ∨ ch = ch' ∧ rest ≤ rest' := by
  rw [← not_lt, List.cons_lt_cons_iff, not_or, not_and, not_lt, le_iff_lt_or_eq]
  constructor
  · rintro ⟨less | same, rests⟩
    · exact Or.inl less
    · exact Or.inr ⟨same, not_lt.mp (rests same.symm)⟩
  · rintro (less | ⟨same, order⟩)
    · exact ⟨Or.inl less, fun same => absurd less (same ▸ lt_irrefl _)⟩
    · exact ⟨Or.inr same, fun _ => not_lt.mpr order⟩

theorem nil_le (digits : List Char) : [] ≤ digits := not_lt.mp (List.not_lt_nil digits)

/-- Texts of digits are in order exactly if their values are, once the shorter one is filled up
with zeros. -/
theorem le_iff_value {left right : List Char} (decimal : ∀ ch ∈ left, ch.isDigit = true)
    (decimal' : ∀ ch ∈ right, ch.isDigit = true) (shorter : left.length ≤ right.length) :
    left ≤ right ↔
      Nat.ofDigitChars 10 left 0 * 10 ^ (right.length - left.length) ≤ Nat.ofDigitChars 10 right 0 := by
  induction left generalizing right with
  | nil => simp [nil_le]
  | cons ch rest ih =>
    cases right with
    | nil => simp at shorter
    | cons ch' rest' =>
      have first := decimal ch List.mem_cons_self
      have first' := decimal' ch' List.mem_cons_self
      have tail : ∀ other ∈ rest, other.isDigit = true :=
        fun other member => decimal other (List.mem_cons_of_mem _ member)
      have tail' : ∀ other ∈ rest', other.isDigit = true :=
        fun other member => decimal' other (List.mem_cons_of_mem _ member)
      have lengths : rest.length ≤ rest'.length := Nat.le_of_succ_le_succ shorter
      have small := value_lt tail
      have small' := value_lt tail'
      rw [cons_le_cons_iff, ih tail tail' lengths, value_cons, value_cons, List.length_cons, List.length_cons,
        Nat.add_sub_add_right, Nat.add_mul, digit_lt_iff first first']
      have places : 10 ^ rest.length * 10 ^ (rest'.length - rest.length) = 10 ^ rest'.length := by
        rw [← Nat.pow_add, Nat.add_sub_cancel' lengths]
      have filled : Nat.ofDigitChars 10 rest 0 * 10 ^ (rest'.length - rest.length) < 10 ^ rest'.length := by
        rw [← places]
        exact Nat.mul_lt_mul_of_pos_right small (Nat.pow_pos (by decide))
      have leading : 10 ^ rest.length * digit ch * 10 ^ (rest'.length - rest.length) =
          10 ^ rest'.length * digit ch := by
        rw [Nat.mul_right_comm, places]
      rw [leading]
      generalize Nat.ofDigitChars 10 rest 0 * 10 ^ (rest'.length - rest.length) = value at filled
      generalize Nat.ofDigitChars 10 rest' 0 = value' at small'
      generalize 10 ^ rest'.length = place at filled small'
      rcases Nat.lt_trichotomy (digit ch) (digit ch') with less | same | more
      · refine ⟨fun _ => ?_, fun _ => Or.inl less⟩
        have next := Nat.mul_le_mul_left place less
        rw [Nat.mul_succ] at next
        omega
      · have equal := digit_inj first first' same
        rw [same]
        refine ⟨?_, fun order => Or.inr ⟨equal, by omega⟩⟩
        rintro (less | ⟨_, order⟩) <;> omega
      · have next := Nat.mul_le_mul_left place more
        rw [Nat.mul_succ] at next
        refine ⟨?_, fun order => by omega⟩
        rintro (less | ⟨equal, _⟩)
        · omega
        · rw [equal] at more
          omega

/-- A number put down before one that is at least as great: its text sorts first exactly if it
stays below the greater one when filled up with zeros. -/
def Sorts (n greatest : Nat) : Prop := n * 10 ^ (width greatest - width n) ≤ greatest

instance (n greatest : Nat) : Decidable (Sorts n greatest) := inferInstanceAs (Decidable (_ ≤ _))

theorem width_mono {n m : Nat} (order : n ≤ m) : width n ≤ width m := by
  have positive : 0 < width m := Nat.length_toDigits_pos
  have bound : m < 10 ^ width m := (Nat.length_toDigits_le_iff (by decide) positive).mp (Nat.le_refl _)
  exact (Nat.length_toDigits_le_iff (by decide) positive).mpr (Nat.lt_of_le_of_lt order bound)

theorem toDigits_le_iff {n m : Nat} (order : n ≤ m) : Nat.toDigits 10 n ≤ Nat.toDigits 10 m ↔ Sorts n m := by
  rw [le_iff_value isDigit_toDigits isDigit_toDigits (width_mono order), Nat.ofDigitChars_ten_toDigits,
    Nat.ofDigitChars_ten_toDigits]
  exact Iff.rfl

/-- A separator below all digits ends a number. -/
theorem separated_le_iff {left right : List Char} (decimal : ∀ ch ∈ left, ch.isDigit = true)
    (decimal' : ∀ ch ∈ right, ch.isDigit = true) {separator : Char} (below : separator < '0')
    {rest rest' : List Char} :
    left ++ separator :: rest ≤ right ++ separator :: rest' ↔ left ≤ right ∧ (left = right → rest ≤ rest') := by
  have digits : ∀ ch : Char, ch.isDigit = true → separator < ch := by
    intro ch decimal
    have order : '0'.toNat ≤ ch.toNat := (digit_bounds decimal).1
    have start : separator.toNat < '0'.toNat := below
    exact Nat.lt_of_lt_of_le start order
  induction left generalizing right with
  | nil =>
    cases right with
    | nil => simp [cons_le_cons_iff]
    | cons ch more =>
      have first := digits ch (decimal' ch List.mem_cons_self)
      simp [cons_le_cons_iff, first, nil_le]
  | cons ch more ih =>
    have first := decimal ch List.mem_cons_self
    cases right with
    | nil =>
      have above := digits ch first
      have different : ch ≠ separator := fun same => Char.lt_irrefl _ (same ▸ above)
      have notBelow : ¬ ch < separator := fun less => Char.lt_irrefl _ (Char.lt_trans less above)
      have beyond : ¬ ch :: more ≤ [] := not_le.mpr (List.nil_lt_cons ch more)
      simp [cons_le_cons_iff, different, notBelow, beyond]
    | cons ch' more' =>
      have tail : ∀ other ∈ more, other.isDigit = true :=
        fun other member => decimal other (List.mem_cons_of_mem _ member)
      have tail' : ∀ other ∈ more', other.isDigit = true :=
        fun other member => decimal' other (List.mem_cons_of_mem _ member)
      have step : more ++ separator :: rest ≤ more' ++ separator :: rest' ↔
        more ≤ more' ∧ (more = more' → rest ≤ rest') :=
        ih tail tail'
      rw [List.cons_append, List.cons_append, cons_le_cons_iff, cons_le_cons_iff, step, List.cons.injEq]
      constructor
      · rintro (less | ⟨rfl, order, rests⟩)
        · exact ⟨Or.inl less, fun ⟨same, _⟩ => absurd less (same ▸ Char.lt_irrefl _)⟩
        · exact ⟨Or.inr ⟨rfl, order⟩, fun ⟨_, same⟩ => rests same⟩
      · rintro ⟨less | ⟨rfl, order⟩, rests⟩
        · exact Or.inl less
        · exact Or.inr ⟨rfl, order, fun same => rests ⟨rfl, same⟩⟩

theorem append_le_append_iff {start left right : List Char} : start ++ left ≤ start ++ right ↔ left ≤ right := by
  induction start with
  | nil => rfl
  | cons ch rest ih =>
    rw [List.cons_append, List.cons_append, cons_le_cons_iff, ih]
    simp

end Swarm.Decimal
