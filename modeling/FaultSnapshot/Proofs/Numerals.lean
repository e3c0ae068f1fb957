import FaultSnapshot.Text.Blank
import FaultSnapshot.Text.Numeral
import Mathlib.Algebra.Order.Ring.Nat
import Mathlib.Data.List.TakeWhile

/-!
# Rows of digits

What rows of digits stand for, and where they end in a longer text.
-/

namespace FaultSnapshot.Text

/-- One or more digits and nothing else. -/
def IsDigits (ds : List Char) : Prop := ds ≠ [] ∧ ∀ d ∈ ds, d.isDigit = true

instance (ds : List Char) : Decidable (IsDigits ds) :=
  decidable_of_iff (ds ≠ [] ∧ ds.all Char.isDigit = true) (by simp [IsDigits])

theorem digitsValue_eq (ds : List Char) : digitsValue ds = Nat.ofDigitChars 10 ds 0 :=
  Nat.ofDigitChars_eq_foldl.symm

theorem digitsValue_append (ds es : List Char) :
    digitsValue (ds ++ es) = 10 ^ es.length * digitsValue ds + digitsValue es := by
  simp only [digitsValue_eq, Nat.ofDigitChars_append]
  exact Nat.ofDigitChars_eq_ofDigitChars_zero

theorem digitsValue_zeros (k : Nat) : digitsValue (List.replicate k '0') = 0 := by
  rw [digitsValue_eq, Nat.ofDigitChars_replicate_zero, Nat.mul_zero]

/-! ### Decimal digits of a number -/

theorem isDigit_digitChar : ∀ d < 10, (Nat.digitChar d).isDigit = true := by decide

theorem digitsValue_digitChar : ∀ d < 10, digitsValue [Nat.digitChar d] = d := by decide

theorem digitsValue_toDigits (n : Nat) : digitsValue (Nat.toDigits 10 n) = n := by
  rw [digitsValue_eq, Nat.ofDigitChars_ten_toDigits]

theorem isDigit_toDigits {n : Nat} {c : Char} (member : c ∈ Nat.toDigits 10 n) : c.isDigit = true :=
  Nat.isDigit_of_mem_toDigits (by decide) (by decide) member

theorem isDigits_toDigits (n : Nat) : IsDigits (Nat.toDigits 10 n) :=
  ⟨Nat.toDigits_ne_nil, fun _ member => isDigit_toDigits member⟩

/-- Only the digits of zero begin with a zero. -/
theorem toDigits_zero_of_head {n : Nat} (zero : (Nat.toDigits 10 n).head? = some '0') : n = 0 := by
  induction n using Nat.strongRecOn with
  | ind n ih =>
    by_cases small : n < 10
    · rw [Nat.toDigits_of_lt_base small] at zero
      have only : ∀ d < 10, Nat.digitChar d = '0' → d = 0 := by decide
      exact only n small (by simpa using zero)
    · have many : 10 ≤ n := Nat.not_lt.mp small
      rw [Nat.toDigits_of_base_le (by decide) many] at zero
      have first : (Nat.toDigits 10 (n / 10)).head? = some '0' := by
        cases digits : Nat.toDigits 10 (n / 10) with
        | nil => exact absurd digits Nat.toDigits_ne_nil
        | cons d tail => simpa [digits] using zero
      have none := ih (n / 10) (by omega) first
      omega

/-! ### Rows in a text -/

section
variable {ds rest : List Char} {n bound : Nat}

theorem span_digits (digits : ∀ d ∈ ds, d.isDigit = true) (ends : ∀ c ∈ rest.head?, c.isDigit = false) :
    (ds ++ rest).takeWhile Char.isDigit = ds ∧ (ds ++ rest).dropWhile Char.isDigit = rest := by
  rw [List.takeWhile_append_of_pos digits, List.dropWhile_append_of_pos digits]
  cases rest with
  | nil => simp
  | cons c rest => simp [ends c rfl]

theorem readDigits?_digits (digits : ∀ d ∈ ds, d.isDigit = true) (filled : ds ≠ []) :
    readDigits? ds = some (digitsValue ds) :=
  if_pos ⟨filled, List.all_eq_true.mpr digits⟩

theorem readDigits?_eq_some_iff : readDigits? ds = some n ↔ IsDigits ds ∧ digitsValue ds = n := by
  simp [readDigits?, IsDigits]

/-- What is read of a row of digits with a bound. -/
theorem bounded_eq_some_iff :
    (match readDigits? ds with
      | some n => if n ≤ bound then some n else none
      | none => none) = some n ↔ (IsDigits ds ∧ digitsValue ds = n) ∧ n ≤ bound := by
  rw [← readDigits?_eq_some_iff]
  cases read : readDigits? ds with
  | none => simp
  | some m =>
    simp only [Option.ite_none_right_eq_some, Option.some.injEq]
    constructor
    · rintro ⟨small, rfl⟩
      exact ⟨rfl, small⟩
    · rintro ⟨rfl, small⟩
      exact ⟨small, rfl⟩

end

theorem isBlank_digit {c : Char} (digit : c.isDigit = true) : isBlank c = false := by
  simp only [Char.isDigit, Bool.and_eq_true, decide_eq_true_eq, UInt32.le_iff_toNat_le] at digit
  have low : 48 ≤ c.toNat := digit.1
  have high : c.toNat ≤ 57 := digit.2
  simp only [isBlank, Bool.or_eq_false_iff, Bool.and_eq_false_iff, decide_eq_false_iff_not, beq_eq_false_iff_ne]
  omega

end FaultSnapshot.Text
