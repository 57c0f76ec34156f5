import Mathlib.Algebra.Order.Field.Power
import Mathlib.Algebra.Order.Field.Rat
import Mathlib.Tactic.FieldSimp
import Mathlib.Tactic.Positivity
import Mathlib.Tactic.Ring
import RecordFilter.Proofs.Numeral.Spelling

/-! What digits and numerals are worth. The value of a numeral is the exact rational number, whatever
number of bits it is read into. -/

namespace RecordFilter

namespace Text

theorem isDigit_iff {c : Char} : isDigit c = true ↔ c.isDigit = true := by
  simp [isDigit, Char.isDigit, Char.le_def]

theorem digits_ofNat (n : Nat) : Digits (ofNat n) := fun _ member =>
  isDigit_iff.mpr (Nat.isDigit_of_mem_toDigits (by decide) (by decide) member)

theorem digits_zeros (count : Nat) : Digits (List.replicate count '0') := by
  intro c member
  rw [List.eq_of_mem_replicate member]
  rfl

theorem digitsValue_ofNat (n : Nat) : digitsValue (ofNat n) = n := Nat.ofDigitChars_ten_toDigits

theorem digitsValue_append (a b : Text) :
    digitsValue (a ++ b) = 10 ^ b.length * digitsValue a + digitsValue b := by
  rw [digitsValue, Nat.ofDigitChars_append, Nat.ofDigitChars_eq_ofDigitChars_zero]
  rfl

theorem digitsValue_cons (c : Char) (digits : Text) :
    digitsValue (c :: digits) = 10 ^ digits.length * digitsValue [c] + digitsValue digits :=
  digitsValue_append [c] digits

theorem digitsValue_zeros (count : Nat) : digitsValue (List.replicate count '0') = 0 := by
  rw [digitsValue, Nat.ofDigitChars_replicate_zero, Nat.mul_zero]

theorem digitsValue_singleton_le {c : Char} (digit : isDigit c = true) : digitsValue [c] ≤ 9 := by
  simp only [isDigit, Bool.and_eq_true, decide_eq_true_eq, Char.le_def, UInt32.le_iff_toNat_le] at digit
  have upper : c.toNat ≤ 57 := digit.2
  simp only [digitsValue, Nat.ofDigitChars_cons, Nat.ofDigitChars_nil]
  have zero : '0'.toNat = 48 := rfl
  omega

theorem digitsValue_lt {digits : Text} (all : Digits digits) :
    digitsValue digits < 10 ^ digits.length := by
  induction digits with
  | nil => decide
  | cons c digits ih =>
    obtain ⟨digit, all⟩ := digits_cons_iff.mp all
    have first := digitsValue_singleton_le digit
    have rest := ih all
    have bound : 10 ^ digits.length * digitsValue [c] ≤ 10 ^ digits.length * 9 :=
      Nat.mul_le_mul_left _ first
    rw [digitsValue_cons, List.length_cons, Nat.pow_succ]
    omega

end Text

namespace Numeral

def magnitude (n : Numeral) : ℚ := n.coefficient * (10 : ℚ) ^ n.power

def value (n : Numeral) : ℚ := if n.negative then -n.magnitude else n.magnitude

theorem coefficient_eq (n : Numeral) :
    n.coefficient =
      10 ^ n.fraction.length * Text.digitsValue n.whole + Text.digitsValue n.fraction :=
  Text.digitsValue_append n.whole n.fraction

theorem coefficient_eq_zero_of_magnitude {n : Numeral} (h : n.magnitude = 0) : n.coefficient = 0 := by
  obtain zero | zero := mul_eq_zero.mp h
  · exact_mod_cast zero
  · exact absurd zero (zpow_ne_zero _ (by norm_num))

theorem magnitude_nonneg (n : Numeral) : 0 ≤ n.magnitude :=
  mul_nonneg (Nat.cast_nonneg n.coefficient) (zpow_nonneg (by norm_num) n.power)

end Numeral
end RecordFilter
