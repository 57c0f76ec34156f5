import RecordFilter.Proofs.Binary64.Reading
import RecordFilter.Proofs.Decimal.Exact
import RecordFilter.Proofs.Decimal.Rounding

/-! The order of numerals without an exponent, however many digits they have. Both ways of reading
round without changing the order of values, and both sides of a comparison are read the same way. So
unequal numbers may count as equal, but they are never reversed. -/

namespace RecordFilter

namespace LooseOrder

theorem float?_of_spells {text : Text} {n : Numeral} (spells : n.Spells (Text.trim text)) :
    float? text = Finite64.ofNumeral? n := by
  rw [float?, numeral?, spells.ofText?_eq, Option.bind_some]

theorem looseOrder_of_decimals {a b : Text} {d e : Decimal} (first : decimal? a = some d)
    (second : decimal? b = some e) : looseOrder a b = d.order e := by
  rw [looseOrder, first, second]

theorem looseOrder_of_floats {a b : Text} {x y : Finite64}
    (unread : decimal? a = none ∨ decimal? b = none) (first : float? a = some x)
    (second : float? b = some y) : looseOrder a b = x.order y := by
  rw [looseOrder, first, second]
  obtain unread | unread := unread
  · rw [unread]
  · rw [unread]
    cases decimal? a <;> rfl

theorem exists_compare_eq {a b : Text} {m n : Numeral} (first : m.Spells (Text.trim a))
    (second : n.Spells (Text.trim b)) (plain : m.exponent = 0) (plain' : n.exponent = 0)
    (finite : (Finite64.ofNumeral? m).isSome) (finite' : (Finite64.ofNumeral? n).isSome) :
    ∃ i j : Int, looseOrder a b = compare i j ∧ (m.value ≤ n.value → i ≤ j) ∧
      (n.value ≤ m.value → j ≤ i) := by
  obtain ⟨x, float⟩ := Option.isSome_iff_exists.mp finite
  obtain ⟨y, float'⟩ := Option.isSome_iff_exists.mp finite'
  have floats (unread : decimal? a = none ∨ decimal? b = none) : looseOrder a b = x.order y :=
    looseOrder_of_floats unread ((float?_of_spells first).trans float)
      ((float?_of_spells second).trans float')
  have forward := Finite64.units_le_of_ofNumeral? float float'
  have reversed := Finite64.units_le_of_ofNumeral? float' float
  cases read : decimal? a with
  | none => exact ⟨x.units, y.units, floats (.inl read), forward, reversed⟩
  | some d =>
    cases read' : decimal? b with
    | none => exact ⟨x.units, y.units, floats (.inr read'), forward, reversed⟩
    | some e =>
      have order := looseOrder_of_decimals read read'
      rw [decimal?_of_spells first] at read
      rw [decimal?_of_spells second] at read'
      have all := first.digits_fraction
      have all' := second.digits_fraction
      exact ⟨d.steps, e.steps, order, Decimal.steps_le_of_value_le plain plain' all all' read read',
        Decimal.steps_le_of_value_le plain' plain all' all read' read⟩

section
variable {a b : Text} {m n : Numeral} (first : m.Spells (Text.trim a))
  (second : n.Spells (Text.trim b)) (plain : m.exponent = 0) (plain' : n.exponent = 0)
  (finite : (Finite64.ofNumeral? m).isSome) (finite' : (Finite64.ofNumeral? n).isSome)
include first second plain plain' finite finite'

theorem value_lt_of_looseOrder_eq_lt (h : looseOrder a b = .lt) : m.value < n.value := by
  obtain ⟨i, j, same, -, reversed⟩ := exists_compare_eq first second plain plain' finite finite'
  rw [same, compare_lt_iff_lt] at h
  by_contra above
  exact absurd (reversed (le_of_not_gt above)) (not_le_of_gt h)

theorem value_lt_of_looseOrder_eq_gt (h : looseOrder a b = .gt) : n.value < m.value := by
  obtain ⟨i, j, same, forward, -⟩ := exists_compare_eq first second plain plain' finite finite'
  rw [same, compare_gt_iff_gt] at h
  by_contra below
  exact absurd (forward (le_of_not_gt below)) (not_le_of_gt h)

end
end LooseOrder

/-- Two numerals without an exponent, of which each has a nearest finite floating-point number, are
put in an order only if their exact values are in that order. -/
theorem looseOrder_never_reverses {a b : Text} {m n : Numeral} (first : m.Spells (Text.trim a))
    (second : n.Spells (Text.trim b)) (plain : m.exponent = 0) (plain' : n.exponent = 0)
    (finite : (Finite64.ofNumeral? m).isSome) (finite' : (Finite64.ofNumeral? n).isSome) :
    (looseOrder a b = .lt → m.value < n.value) ∧ (looseOrder a b = .gt → n.value < m.value) :=
  ⟨LooseOrder.value_lt_of_looseOrder_eq_lt first second plain plain' finite finite',
    LooseOrder.value_lt_of_looseOrder_eq_gt first second plain plain' finite finite'⟩

theorem looseOrder_never_reverses_beyond_decimals :
    let great : Text := ' ' :: '-' :: '8' :: List.replicate 28 '0' ++ ['.', '5']
    let decimal : Text := '-' :: '7' :: List.replicate 28 '0' ++ '.' :: List.replicate 30 '0'
    let first : Numeral := ⟨true, '8' :: List.replicate 28 '0', ['5'], 0⟩
    let second : Numeral := ⟨true, '7' :: List.replicate 28 '0', List.replicate 30 '0', 0⟩
    first.Spells (Text.trim great) ∧ second.Spells (Text.trim decimal) ∧
      (LooseOrder.decimal? great).isNone ∧ (LooseOrder.decimal? decimal).isSome ∧
      (Finite64.ofNumeral? first).isSome ∧ (Finite64.ofNumeral? second).isSome ∧
      looseOrder great decimal = .lt ∧ first.value < second.value := by
  intro great decimal first second
  have spells : first.Spells (Text.trim great) := Numeral.ofText?_eq_some_iff.mp (by decide)
  have spells' : second.Spells (Text.trim decimal) := Numeral.ofText?_eq_some_iff.mp (by decide)
  have finite : (Finite64.ofNumeral? first).isSome := by decide +kernel
  have finite' : (Finite64.ofNumeral? second).isSome := by decide +kernel
  have less : looseOrder great decimal = .lt := by decide +kernel
  exact ⟨spells, spells', by decide +kernel, by decide +kernel, finite, finite', less,
    (looseOrder_never_reverses spells spells' rfl rfl finite finite').1 less⟩

end RecordFilter
