import Mathlib.Data.Rat.Cast.Order
import Mathlib.Order.Compare
import RecordFilter.LooseOrder
import RecordFilter.Proofs.Numeral.Value

/-! Numerals within the reach of decimals are read without rounding, so they are ordered by their
exact values however they are spelled. -/

namespace RecordFilter

namespace Decimal

theorem cast_steps {d : Decimal} (scale : d.scale ≤ maxScale) :
    (d.steps : ℚ) =
      (if d.negative then -(d.mantissa / 10 ^ d.scale : ℚ) else d.mantissa / 10 ^ d.scale)
        * 10 ^ maxScale := by
  have split : (10 : ℚ) ^ maxScale = 10 ^ (maxScale - d.scale) * 10 ^ d.scale := by
    rw [← pow_add, Nat.sub_add_cancel scale]
  rw [split, steps]
  split_ifs <;> push_cast [Nat.pow_eq] <;> field_simp

theorem appendFraction_eq {digits : Text} (all : Text.Digits digits) (mantissa scale : Nat)
    (places : scale + digits.length ≤ maxScale)
    (fits : 10 ^ digits.length * mantissa + Text.digitsValue digits ≤ maxMantissa) :
    appendFraction (mantissa, scale) digits =
      some (10 ^ digits.length * mantissa + Text.digitsValue digits, scale + digits.length) := by
  induction digits generalizing mantissa scale with
  | nil => simp [appendFraction, Text.digitsValue]
  | cons digit digits ih =>
    obtain ⟨-, all⟩ := Text.digits_cons_iff.mp all
    rw [List.length_cons] at places
    have whole : 10 ^ (digit :: digits).length * mantissa + Text.digitsValue (digit :: digits) =
        10 ^ digits.length * (10 * mantissa + Text.digitsValue [digit])
          + Text.digitsValue digits := by
      rw [Text.digitsValue_cons, List.length_cons]
      ring
    rw [whole] at fits ⊢
    have room : 10 * mantissa + Text.digitsValue [digit] ≤ maxMantissa := by
      have grown := Nat.le_mul_of_pos_left (10 * mantissa + Text.digitsValue [digit])
        (Nat.pow_pos (n := digits.length) (by decide : 0 < 10))
      omega
    rw [appendFraction, if_pos ⟨by omega, room⟩, ih all _ _ (by omega) fits, List.length_cons]
    congr 2
    omega

/-- A numeral that a decimal can hold: its digits together make a mantissa of 96 bits, and neither
the digits nor the exponent take the point too far. -/
structure Reaches (n : Numeral) : Prop where
  mantissa : n.coefficient ≤ 2 ^ 96 - 1
  places : n.fraction.length ≤ 28
  exponent_ge : -28 ≤ n.exponent
  exponent_le : n.exponent ≤ 28
  scale : n.fraction.length - n.exponent ≤ 28
  grown : n.coefficient * 10 ^ (n.exponent - n.fraction.length).toNat ≤ 2 ^ 96 - 1

theorem reaches_of_plain {n : Numeral} (plain : n.exponent = 0) (mantissa : n.coefficient ≤ 2 ^ 96 - 1)
    (places : n.fraction.length ≤ 28) : Reaches n := by
  have grown : n.coefficient * 10 ^ ((0 : Int) - n.fraction.length).toNat = n.coefficient := by
    have none : ((0 : Int) - n.fraction.length).toNat = 0 := by omega
    rw [none, Nat.pow_zero, Nat.mul_one]
  refine ⟨mantissa, places, ?_, ?_, ?_, ?_⟩ <;> rw [plain]
  · decide
  · decide
  · omega
  · rwa [grown]

theorem readDigits_eq {n : Numeral} (all : Text.Digits n.fraction) (fits : Reaches n) :
    readDigits n.whole n.fraction = some (n.coefficient, n.fraction.length) := by
  have mantissa : 10 ^ n.fraction.length * Text.digitsValue n.whole + Text.digitsValue n.fraction ≤
      maxMantissa := by
    rw [← n.coefficient_eq]
    exact fits.mantissa
  have whole : Text.digitsValue n.whole ≤ maxMantissa := by
    have grown := Nat.le_mul_of_pos_left (Text.digitsValue n.whole)
      (Nat.pow_pos (n := n.fraction.length) (by decide : 0 < 10))
    omega
  have places : 0 + n.fraction.length ≤ maxScale := by
    rw [Nat.zero_add]
    exact fits.places
  rw [readDigits, if_pos whole, appendFraction_eq all _ _ places mantissa, n.coefficient_eq,
    Nat.zero_add]

theorem exists_shift_eq {n : Numeral} (fits : Reaches n) :
    ∃ mantissa scale, shift n.exponent (n.coefficient, n.fraction.length) = some (mantissa, scale) ∧
      scale ≤ maxScale ∧ (mantissa / 10 ^ scale : ℚ) = n.magnitude := by
  have moved (scale : Nat) (power : -(scale : Int) = n.power) :
      (n.coefficient / 10 ^ scale : ℚ) = n.magnitude := by
    rw [Numeral.magnitude, ← power, zpow_neg, zpow_natCast, div_eq_mul_inv]
  have power : n.power = n.exponent - n.fraction.length := rfl
  obtain ⟨-, places, lower, upper, scale, grown⟩ := fits
  cases exponent : n.exponent with
  | ofNat up =>
    rw [exponent] at power upper grown
    simp only [Int.ofNat_eq_natCast] at power upper grown
    by_cases within : up ≤ n.fraction.length
    · refine ⟨_, _, if_pos within, ?_, moved _ (by omega)⟩
      simp only [maxScale]
      omega
    · have digits : ((up : Int) - n.fraction.length).toNat = up - n.fraction.length := by omega
      rw [digits] at grown
      refine ⟨n.coefficient * 10 ^ (up - n.fraction.length), 0, ?_, Nat.zero_le _, ?_⟩
      · rw [shift, shiftUp, if_neg within, if_neg (by simp only [maxScale]; omega)]
        exact if_pos grown
      · have up : n.power = (up - n.fraction.length : Nat) := by omega
        rw [Numeral.magnitude, up, zpow_natCast]
        push_cast
        ring
  | negSucc down =>
    rw [exponent] at power lower scale
    have room : n.fraction.length + (down + 1) ≤ maxScale := by
      simp only [maxScale]
      omega
    refine ⟨n.coefficient, n.fraction.length + (down + 1), ?_, room, moved _ (by omega)⟩
    rw [shift, shiftDown, if_neg (by omega), if_pos room]

theorem exists_ofNumeral?_eq {n : Numeral} (all : Text.Digits n.fraction) (fits : Reaches n) :
    ∃ d, ofNumeral? n = some d ∧ (d.steps : ℚ) = n.value * 10 ^ maxScale := by
  obtain ⟨mantissa, scale, shifted, bound, value⟩ := exists_shift_eq fits
  refine ⟨⟨n.negative, mantissa, scale⟩, ?_, ?_⟩
  · simp [ofNumeral?, readDigits_eq all fits, shifted]
  · rw [cast_steps bound, value, Numeral.value]

theorem order_eq_compare {d e : Decimal} {x y : ℚ} (first : (d.steps : ℚ) = x * 10 ^ maxScale)
    (second : (e.steps : ℚ) = y * 10 ^ maxScale) : d.order e = compare x y := by
  have casts : cmp (d.steps : ℚ) (e.steps : ℚ) = cmp d.steps e.steps :=
    Int.cast_strictMono.cmp_map_eq d.steps e.steps
  have unit : (0 : ℚ) < 10 ^ maxScale := pow_pos (by norm_num) maxScale
  rw [order, ← cmp_eq_compare, ← cmp_eq_compare, ← casts, first, second, cmp_mul_pos_right unit]

end Decimal

namespace LooseOrder

theorem decimal?_of_spells {text : Text} {n : Numeral} (spells : n.Spells (Text.trim text)) :
    decimal? text = Decimal.ofNumeral? n := by
  rw [decimal?, numeral?, spells.ofText?_eq, Option.bind_some]

theorem exists_decimal?_eq {text : Text} {n : Numeral} (spells : n.Spells (Text.trim text))
    (reaches : Decimal.Reaches n) :
    ∃ d, decimal? text = some d ∧ (d.steps : ℚ) = n.value * 10 ^ Decimal.maxScale := by
  rw [decimal?_of_spells spells]
  exact Decimal.exists_ofNumeral?_eq spells.digits_fraction reaches

end LooseOrder

/-- Within the reach of decimals the order of texts is the order of the numbers they spell, blanks
around them aside. -/
theorem looseOrder_eq_compare_value {a b : Text} {m n : Numeral} (first : m.Spells (Text.trim a))
    (second : n.Spells (Text.trim b)) (reaches : Decimal.Reaches m) (reaches' : Decimal.Reaches n) :
    looseOrder a b = compare m.value n.value := by
  obtain ⟨d, readA, stepsA⟩ := LooseOrder.exists_decimal?_eq first reaches
  obtain ⟨e, readB, stepsB⟩ := LooseOrder.exists_decimal?_eq second reaches'
  rw [looseOrder, readA, readB]
  exact Decimal.order_eq_compare stepsA stepsB

theorem looseOrder_spellings_of_three_halves :
    let first : Numeral := ⟨false, ['0', '1'], ['5', '0'], 0⟩
    let second : Numeral := ⟨false, ['1', '5'], [], -1⟩
    first.Spells (Text.trim ['\xa0', '+', '0', '1', '.', '5', '0']) ∧
      second.Spells (Text.trim ['1', '5', '.', 'E', '-', '1', '\n']) ∧
      Decimal.Reaches first ∧ Decimal.Reaches second ∧ first.value = 3 / 2 ∧
      looseOrder ['\xa0', '+', '0', '1', '.', '5', '0'] ['1', '5', '.', 'E', '-', '1', '\n'] =
        compare first.value second.value := by
  intro first second
  have spells : first.Spells (Text.trim ['\xa0', '+', '0', '1', '.', '5', '0']) :=
    Numeral.ofText?_eq_some_iff.mp (by decide)
  have spells' : second.Spells (Text.trim ['1', '5', '.', 'E', '-', '1', '\n']) :=
    Numeral.ofText?_eq_some_iff.mp (by decide)
  have reaches : Decimal.Reaches first := by constructor <;> decide
  have reaches' : Decimal.Reaches second := by constructor <;> decide
  have value : first.value = 3 / 2 := by
    have coefficient : first.coefficient = 150 := by decide
    have power : first.power = -2 := by decide
    simp only [Numeral.value, Numeral.magnitude, coefficient, power, first]
    norm_num
  exact ⟨spells, spells', reaches, reaches', value,
    looseOrder_eq_compare_value spells spells' reaches reaches'⟩

end RecordFilter
