import RecordFilter.Binary64.Text
import RecordFilter.Proofs.Binary64.Precision

/-! The digits written for a finite number read back as that number, and positional notation spells
what the digits say; so the text of a field holds the number exactly. -/

namespace RecordFilter

namespace Significand

def value (s : Significand) : ℚ :=
  Text.digitsValue s.digits * (10 : ℚ) ^ (s.point - s.digits.length)

theorem exists_append_zeros (digits : Text) :
    ∃ count, digits = trimZeros digits ++ List.replicate count '0' := by
  have split := List.takeWhile_append_dropWhile (p := (· == '0')) (l := digits.reverse)
  have zeros : digits.reverse.takeWhile (· == '0') =
      List.replicate (digits.reverse.takeWhile (· == '0')).length '0' := by
    refine List.eq_replicate_of_mem fun c member => ?_
    have zero := List.mem_takeWhile_imp member
    exact beq_iff_eq.mp zero
  refine ⟨(digits.reverse.takeWhile (· == '0')).length, ?_⟩
  rw [trimZeros, ← List.reverse_replicate, ← zeros, ← List.reverse_append, split,
    List.reverse_reverse]

theorem digits_ofScientific (coefficient : Nat) (power : Int) :
    Text.Digits (ofScientific coefficient power).digits := by
  obtain ⟨count, split⟩ := exists_append_zeros (Text.ofNat coefficient)
  have all := Text.digits_ofNat coefficient
  rw [split] at all
  exact (Text.digits_append_iff.mp all).1

theorem exists_ofScientific_eq (coefficient : Nat) (power : Int) :
    ∃ count : Nat, coefficient = 10 ^ count * Text.digitsValue (ofScientific coefficient power).digits ∧
      (ofScientific coefficient power).point - (ofScientific coefficient power).digits.length =
        power + count := by
  obtain ⟨count, split⟩ := exists_append_zeros (Text.ofNat coefficient)
  have length := congrArg List.length split
  have digits := congrArg Text.digitsValue split
  rw [Text.digitsValue_ofNat, Text.digitsValue_append, Text.digitsValue_zeros, Nat.add_zero,
    List.length_replicate] at digits
  rw [List.length_append, List.length_replicate] at length
  refine ⟨count, digits, ?_⟩
  simp only [ofScientific]
  omega

theorem value_ofScientific (coefficient : Nat) (power : Int) :
    (ofScientific coefficient power).value = coefficient * (10 : ℚ) ^ power := by
  obtain ⟨count, digits, exponent⟩ := exists_ofScientific_eq coefficient power
  rw [value, exponent, zpow_add₀ (by norm_num), zpow_natCast]
  generalize Text.digitsValue (ofScientific coefficient power).digits = trimmed at digits
  rw [digits]
  push_cast
  ring

def numeral (negative : Bool) (s : Significand) : Numeral := ⟨negative, s.whole, s.fraction, 0⟩

theorem coefficient_numeral (negative : Bool) (s : Significand) :
    (s.numeral negative).coefficient =
      10 ^ (s.point - s.digits.length).toNat * Text.digitsValue s.digits := by
  have coefficient : (s.numeral negative).coefficient = Text.digitsValue (s.whole ++ s.fraction) :=
    rfl
  have parts : Text.digitsValue s.digits =
      10 ^ (s.digits.drop s.point.toNat).length * Text.digitsValue (s.digits.take s.point.toNat)
        + Text.digitsValue (s.digits.drop s.point.toNat) := by
    rw [← Text.digitsValue_append, List.take_append_drop]
  rw [coefficient, Text.digitsValue_append, fraction, Text.digitsValue_append, zeros,
    Text.digitsValue_zeros, whole, parts]
  split
  · rename_i before
    have start : s.point.toNat = 0 := by omega
    have short : (s.point - s.digits.length).toNat = 0 := by omega
    have zero : Text.digitsValue ['0'] = 0 := Text.digitsValue_zeros 1
    rw [start, short, zero]
    simp [Text.digitsValue]
  · rename_i inside
    have none : (-s.point).toNat = 0 := by omega
    rw [Text.digitsValue_append, zeros, Text.digitsValue_zeros, none]
    obtain within | beyond := Nat.le_total s.point.toNat s.digits.length
    · have short : (s.point - s.digits.length).toNat = 0 := by omega
      simp [short]
    · simp [List.drop_eq_nil_of_le beyond, Text.digitsValue]

theorem length_fraction (s : Significand) :
    (s.fraction.length : Int) =
      (s.point - s.digits.length).toNat - (s.point - s.digits.length) := by
  simp only [fraction, zeros, List.length_append, List.length_replicate, List.length_drop]
  omega

theorem magnitude_numeral (negative : Bool) (s : Significand) :
    (s.numeral negative).magnitude = s.value := by
  have power : (s.numeral negative).power = 0 - s.fraction.length := rfl
  rw [Numeral.magnitude, coefficient_numeral, power, length_fraction, value]
  generalize s.point - s.digits.length = exponent
  have moved : (10 : ℚ) ^ exponent.toNat * 10 ^ (0 - (exponent.toNat - exponent)) = 10 ^ exponent := by
    rw [← zpow_natCast, ← zpow_add₀ (by norm_num)]
    congr 1
    omega
  rw [← moved]
  push_cast
  ring

theorem digits_whole {s : Significand} (all : Text.Digits s.digits) : Text.Digits s.whole := by
  unfold whole
  split
  · exact Text.digits_zeros 1
  · exact Text.digits_append_iff.mpr
      ⟨fun c member => all c (List.mem_of_mem_take member), Text.digits_zeros _⟩

theorem digits_fraction {s : Significand} (all : Text.Digits s.digits) : Text.Digits s.fraction :=
  Text.digits_append_iff.mpr ⟨Text.digits_zeros _, fun c member => all c (List.mem_of_mem_drop member)⟩

theorem whole_ne_nil (s : Significand) : s.whole ≠ [] := by
  unfold whole
  split
  · exact List.cons_ne_nil _ _
  · intro empty
    have length := congrArg List.length empty
    simp only [zeros, List.length_append, List.length_take, List.length_replicate,
      List.length_nil] at length
    omega

theorem spells_positional {s : Significand} (all : Text.Digits s.digits) {negative : Bool}
    {sign : Text} (signs : Numeral.SpellsSign negative sign) :
    (s.numeral negative).Spells (sign ++ s.positional) := by
  have nonempty : ¬(s.whole = [] ∧ s.fraction = []) := fun both => s.whole_ne_nil both.1
  have whole := digits_whole all
  have spells {fraction : Text} (fractions : Numeral.SpellsFraction s.fraction fraction) :
      (s.numeral negative).Spells (sign ++ (s.whole ++ (fraction ++ []))) :=
    .intro signs whole fractions nonempty .absent
  unfold positional
  split
  · rename_i empty
    rw [List.isEmpty_iff.mp empty] at spells
    simpa only [List.append_nil] using spells .absent
  · simpa only [List.append_nil] using spells (.point (digits_fraction all))

end Significand

namespace Finite64

def fieldDigits (x : Finite64) : Significand :=
  if x.rank = 0 then ⟨['0'], 1⟩ else x.shortest .upward

def fieldNumeral (x : Finite64) : Numeral := x.fieldDigits.numeral x.negative

theorem fieldText_eq (x : Finite64) : x.fieldText = x.signed x.fieldDigits.positional := by
  unfold fieldText fieldDigits
  split <;> rfl

theorem digits_fieldDigits (x : Finite64) : Text.Digits x.fieldDigits.digits := by
  unfold fieldDigits
  split
  · exact Text.digits_zeros 1
  · rename_i nonzero
    obtain ⟨coefficient, power, written, -⟩ := exists_shortest_eq nonzero .upward
    rw [written]
    exact Significand.digits_ofScientific coefficient power

theorem rank_eq_of_fieldDigits (x : Finite64) : x.rank = nearestPlace x.fieldDigits.value := by
  unfold fieldDigits
  split
  · rename_i zero
    have value : (⟨['0'], 1⟩ : Significand).value = 0 := by
      have digits : Text.digitsValue ['0'] = 0 := Text.digitsValue_zeros 1
      rw [Significand.value, digits, Nat.cast_zero, zero_mul]
    rw [zero, value, nearestPlace_zero]
  · rename_i nonzero
    obtain ⟨coefficient, power, written, place, -⟩ := exists_shortest_eq nonzero .upward
    rw [written, Significand.value_ofScientific]
    exact place

theorem spells_fieldText (x : Finite64) : x.fieldNumeral.Spells x.fieldText := by
  rw [fieldText_eq, fieldNumeral, signed]
  cases x.negative with
  | true => exact Significand.spells_positional x.digits_fieldDigits .minus
  | false => exact Significand.spells_positional x.digits_fieldDigits .absent

/-- The text of a field reads back as the number it was written for. -/
theorem ofNumeral?_fieldNumeral (x : Finite64) : ofNumeral? x.fieldNumeral = some x := by
  rw [ofNumeral?_eq_some_iff, fieldNumeral, Significand.magnitude_numeral]
  exact ⟨rfl, x.rank_eq_of_fieldDigits⟩

end Finite64

end RecordFilter
