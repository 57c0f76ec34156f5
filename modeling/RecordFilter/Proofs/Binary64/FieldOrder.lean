import RecordFilter.Proofs.Binary64.ReadBack
import RecordFilter.Proofs.LooseOrder.Plain

/-! The order of float fields and float literals. Both texts hold their numbers exactly, but decimals
keep only 28 places, so that tiny neighbours may count as equal. They never change places. -/

namespace RecordFilter

namespace Finite64

theorem spells_trim_fieldText (x : Finite64) : x.fieldNumeral.Spells (Text.trim x.fieldText) :=
  x.spells_fieldText.trim

theorem looseOrder_fieldText_of_floats {x y : Finite64}
    (h : Decimal.ofNumeral? x.fieldNumeral = none ∨ Decimal.ofNumeral? y.fieldNumeral = none) :
    looseOrder x.fieldText y.fieldText = x.order y := by
  have float (x : Finite64) : LooseOrder.float? x.fieldText = some x := by
    rw [LooseOrder.float?_of_spells x.spells_trim_fieldText, ofNumeral?_fieldNumeral]
  rw [← LooseOrder.decimal?_of_spells x.spells_trim_fieldText,
    ← LooseOrder.decimal?_of_spells y.spells_trim_fieldText] at h
  exact LooseOrder.looseOrder_of_floats h (float x) (float y)

theorem value_fieldNumeral_of_rank_eq_zero {x : Finite64} (zero : x.rank = 0) :
    x.fieldNumeral.value = 0 := by
  have magnitude : x.fieldNumeral.magnitude = 0 := by
    have digits : Text.digitsValue ['0'] = 0 := Text.digitsValue_zeros 1
    rw [fieldNumeral, Significand.magnitude_numeral, fieldDigits, if_pos zero, Significand.value,
      digits, Nat.cast_zero, zero_mul]
  rw [Numeral.value, magnitude, neg_zero, ite_self]

theorem unitsAt_injective : Function.Injective unitsAt := fun a b same => by
  obtain less | equal | greater := Nat.lt_trichotomy a b
  · exact absurd same (unitsAt_lt less).ne
  · exact equal
  · exact absurd same (unitsAt_lt greater).ne'

theorem value_fieldNumeral_congr {x y : Finite64} (h : x.units = y.units) :
    x.fieldNumeral.value = y.fieldNumeral.value := by
  by_cases signs : x.negative = y.negative
  · have magnitudes : unitsAt x.rank = unitsAt y.rank := by
      rw [units, units, signs] at h
      unfold magnitude at h
      split at h <;> omega
    obtain ⟨negative, rank, bound⟩ := x
    obtain ⟨negative', rank', bound'⟩ := y
    obtain rfl : negative = negative' := signs
    obtain rfl : rank = rank' := unitsAt_injective magnitudes
    rfl
  · -- Only the zeros have the same size and different signs.
    have zeros : unitsAt x.rank = unitsAt 0 ∧ unitsAt y.rank = unitsAt 0 := by
      rw [units, units] at h
      unfold magnitude at h
      rw [unitsAt_zero]
      split at h <;> split at h
      · exact absurd (by simp_all) signs
      · omega
      · omega
      · exact absurd (by simp_all) signs
    rw [value_fieldNumeral_of_rank_eq_zero (unitsAt_injective zeros.1),
      value_fieldNumeral_of_rank_eq_zero (unitsAt_injective zeros.2)]

theorem value_fieldNumeral_lt {x y : Finite64} (h : x.units < y.units) :
    x.fieldNumeral.value < y.fieldNumeral.value := by
  by_contra reversed
  have units := units_le_of_ofNumeral? y.ofNumeral?_fieldNumeral x.ofNumeral?_fieldNumeral
    (le_of_not_gt reversed)
  omega

theorem compare_value_fieldNumeral (x y : Finite64) :
    compare x.fieldNumeral.value y.fieldNumeral.value = x.order y := by
  rw [order]
  obtain less | same | greater := Int.lt_trichotomy x.units y.units
  · rw [compare_lt_iff_lt.mpr less, compare_lt_iff_lt.mpr (value_fieldNumeral_lt less)]
  · rw [compare_eq_iff_eq.mpr same, compare_eq_iff_eq.mpr (value_fieldNumeral_congr same)]
  · rw [compare_gt_iff_gt.mpr greater, compare_gt_iff_gt.mpr (value_fieldNumeral_lt greater)]

theorem looseOrder_fieldText_weak (x y : Finite64) :
    looseOrder x.fieldText y.fieldText = x.order y ∨ looseOrder x.fieldText y.fieldText = .eq := by
  have spells := x.spells_trim_fieldText
  have spells' := y.spells_trim_fieldText
  have finite (x : Finite64) : (ofNumeral? x.fieldNumeral).isSome := by
    rw [ofNumeral?_fieldNumeral, Option.isSome_some]
  rw [← compare_value_fieldNumeral]
  cases order : looseOrder x.fieldText y.fieldText with
  | lt =>
    have less := LooseOrder.value_lt_of_looseOrder_eq_lt spells spells' rfl rfl (finite x) (finite y) order
    exact .inl (compare_lt_iff_lt.mpr less).symm
  | eq => exact .inr rfl
  | gt =>
    have greater :=
      LooseOrder.value_lt_of_looseOrder_eq_gt spells spells' rfl rfl (finite x) (finite y) order
    exact .inl (compare_gt_iff_gt.mpr greater).symm

theorem gridBelow_lt {x : Finite64} (nonzero : x.rank ≠ 0) {power : Int}
    (grid : x.leading - 17 ≤ power) : x.gridBelow power < 10 ^ 17 := by
  have bound : (x.gridBelow power : ℚ) * 10 ^ power < 10 ^ 17 * 10 ^ power := calc
    (x.gridBelow power : ℚ) * 10 ^ power ≤ x.absolute := x.gridBelow_le power
    _ < 10 ^ x.leading := absolute_lt_pow_leading nonzero
    _ ≤ 10 ^ (17 + power) := zpow_le_zpow_right₀ (by norm_num) (by omega)
    _ = 10 ^ 17 * 10 ^ power := zpow_add₀ (by norm_num) 17 power
  have cast := lt_of_mul_lt_mul_right bound (by positivity)
  exact_mod_cast cast

theorem exists_fieldDigits_eq {x : Finite64} (nonzero : x.rank ≠ 0) :
    ∃ (power : Int) (count : Nat), x.leading - 17 ≤ power ∧
      x.fieldDigits.point - x.fieldDigits.digits.length = power + count ∧
      10 ^ count * Text.digitsValue x.fieldDigits.digits ≤ 10 ^ 17 := by
  obtain ⟨coefficient, power, written, -, grid, -, near⟩ := exists_shortest_eq nonzero .upward
  obtain ⟨count, digits, exponent⟩ := Significand.exists_ofScientific_eq coefficient power
  have below := gridBelow_lt nonzero grid
  have shortest : x.fieldDigits = .ofScientific coefficient power := by
    rw [fieldDigits, if_neg nonzero, written]
  rw [shortest]
  exact ⟨power, count, grid, exponent, by omega⟩

theorem length_fraction_fieldNumeral_le {x : Finite64} (nonzero : x.rank ≠ 0) :
    (x.fieldNumeral.fraction.length : Int) ≤ max 0 (17 - x.leading) := by
  obtain ⟨power, count, grid, exponent, -⟩ := exists_fieldDigits_eq nonzero
  have length := x.fieldDigits.length_fraction
  have fraction : x.fieldNumeral.fraction = x.fieldDigits.fraction := rfl
  rw [exponent] at length
  rw [fraction]
  omega

theorem coefficient_fieldNumeral_le {x : Finite64} (nonzero : x.rank ≠ 0) :
    x.fieldNumeral.coefficient ≤ max (Text.digitsValue x.fieldNumeral.whole) (10 ^ 17) := by
  obtain ⟨power, count, -, exponent, seventeen⟩ := exists_fieldDigits_eq nonzero
  obtain inside | outside := le_or_gt (power + count) 0
  · have none : (power + count).toNat = 0 := by omega
    have trimmed := Nat.le_mul_of_pos_left (Text.digitsValue x.fieldDigits.digits)
      (Nat.pow_pos (n := count) (by decide : 0 < 10))
    rw [fieldNumeral, Significand.coefficient_numeral, exponent, none, Nat.pow_zero, Nat.one_mul]
    exact le_max_of_le_right (trimmed.trans seventeen)
  · have length := x.fieldDigits.length_fraction
    rw [exponent] at length
    have nothing : x.fieldNumeral.fraction = [] :=
      List.eq_nil_of_length_eq_zero (show x.fieldDigits.fraction.length = 0 by omega)
    rw [x.fieldNumeral.coefficient_eq, nothing, List.length_nil, Nat.pow_zero, Nat.one_mul]
    exact le_max_left _ _

/-- A number whose digits do not go beyond the places of decimals: zero, or one from `1e-12` up. -/
def Resolved (x : Finite64) : Prop := x.rank = 0 ∨ (10 : ℚ) ^ (-12 : Int) ≤ x.absolute

theorem resolved_of_magnitude {x : Finite64} (h : unit ≤ 10 ^ 12 * x.magnitude) : x.Resolved := by
  refine .inr ?_
  have bound : (unit : ℚ) ≤ 10 ^ 12 * x.magnitude := by exact_mod_cast h
  rw [absolute, le_div_iff₀ unit_cast_pos, zpow_neg, inv_mul_le_iff₀ (by norm_num)]
  exact bound

theorem Resolved.reaches_or_unread {x : Finite64} (h : x.Resolved) :
    Decimal.Reaches x.fieldNumeral ∨ Decimal.ofNumeral? x.fieldNumeral = none := by
  by_cases whole : Text.digitsValue x.fieldNumeral.whole ≤ Decimal.maxMantissa
  · left
    by_cases zero : x.rank = 0
    · rw [fieldNumeral, fieldDigits, if_pos zero]
      exact Decimal.reaches_of_plain rfl (show 0 ≤ 2 ^ 96 - 1 by decide) (show 0 ≤ 28 by decide)
    · have mantissa := coefficient_fieldNumeral_le zero
      have places := length_fraction_fieldNumeral_le zero
      have leads : (-12 : Int) < x.leading := by
        have bound := (h.resolve_left zero).trans_lt (absolute_lt_pow_leading zero)
        exact (zpow_lt_zpow_iff_right₀ (by norm_num)).mp bound
      refine Decimal.reaches_of_plain rfl ?_ (by omega)
      rw [Decimal.maxMantissa_eq] at whole
      omega
  · refine .inr ?_
    rw [Decimal.ofNumeral?, Decimal.readDigits, if_neg whole]
    rfl

theorem looseOrder_fieldText_of_resolved {x y : Finite64} (first : x.Resolved) (second : y.Resolved) :
    looseOrder x.fieldText y.fieldText = x.order y := by
  obtain reaches | unread := first.reaches_or_unread
  · obtain reaches' | unread := second.reaches_or_unread
    · obtain ⟨d, read, steps⟩ := LooseOrder.exists_decimal?_eq x.spells_trim_fieldText reaches
      obtain ⟨e, read', steps'⟩ := LooseOrder.exists_decimal?_eq y.spells_trim_fieldText reaches'
      rw [LooseOrder.looseOrder_of_decimals read read', ← compare_value_fieldNumeral]
      exact Decimal.order_eq_compare steps steps'
    · exact looseOrder_fieldText_of_floats (.inr unread)
  · exact looseOrder_fieldText_of_floats (.inl unread)

/-- Float fields meet float literals in the order of their numbers, except that two numbers may count
as equal of which one is smaller than `1e-12`. -/
theorem looseOrder_fieldText (x y : Finite64) :
    (x.Resolved → y.Resolved → looseOrder x.fieldText y.fieldText = x.order y) ∧
      (looseOrder x.fieldText y.fieldText = x.order y ∨
        looseOrder x.fieldText y.fieldText = .eq) :=
  ⟨looseOrder_fieldText_of_resolved, looseOrder_fieldText_weak x y⟩

theorem looseOrder_fieldText_of_neighbours :
    let x : Finite64 := ⟨false, 4427486594234968594, by decide +kernel⟩
    let y : Finite64 := ⟨false, 4427486594234968595, by decide +kernel⟩
    let great : Finite64 := ⟨true, 9094988921128908188, by decide +kernel⟩
    x.fieldText = "0.0000000000010000000000000002".toList ∧
      y.fieldText = "0.0000000000010000000000000004".toList ∧
      x.Resolved ∧ y.Resolved ∧ great.Resolved ∧
      looseOrder x.fieldText y.fieldText = .lt ∧ looseOrder great.fieldText x.fieldText = .lt := by
  intro x y great
  have first : x.Resolved := resolved_of_magnitude (by decide +kernel)
  have second : y.Resolved := resolved_of_magnitude (by decide +kernel)
  have beyond : great.Resolved := resolved_of_magnitude (by decide +kernel)
  have next : x.order y = .lt := by decide +kernel
  have less : great.order x = .lt := by decide +kernel
  refine ⟨by decide +kernel, by decide +kernel, first, second, beyond, ?_, ?_⟩
  · exact ((looseOrder_fieldText x y).1 first second).trans next
  · exact ((looseOrder_fieldText great x).1 beyond first).trans less

/-- The numbers `1e-29` and `2e-29` are read as one decimal. -/
theorem looseOrder_joins_tiny_fields :
    ¬ ∀ x y : Finite64, looseOrder x.fieldText y.fieldText = x.order y := by
  have joined : ∃ x y : Finite64, looseOrder x.fieldText y.fieldText = .eq ∧ x.order y = .lt :=
    ⟨⟨false, 4172965893781238599, by decide +kernel⟩, ⟨false, 4177469493408609095, by decide +kernel⟩,
      by decide +kernel⟩
  intro always
  obtain ⟨x, y, equal, less⟩ := joined
  rw [always, less] at equal
  cases equal

end Finite64

end RecordFilter
