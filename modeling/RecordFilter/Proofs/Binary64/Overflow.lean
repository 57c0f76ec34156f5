import RecordFilter.Proofs.Binary64.Precision

/-! Where the finite numbers end. A numeral is read as a finite number if and only if it lies below the
middle between the greatest of them and the next power of two. -/

namespace RecordFilter

namespace Finite64

def threshold : Nat := Nat.pow 2 1024 - Nat.pow 2 970

theorem cast_threshold : (threshold : ℚ) = 2 ^ 1024 - 2 ^ 970 := by
  -- The exponents are variables, so that the powers are never computed.
  obtain ⟨high, low, less, first, second⟩ : ∃ high low, low ≤ high ∧ high = 1024 ∧ low = 970 :=
    ⟨1024, 970, by decide, rfl, rfl⟩
  have order : Nat.pow 2 low ≤ Nat.pow 2 high := Nat.pow_le_pow_right (by decide) less
  rw [threshold, ← first, ← second, Nat.cast_sub order, cast_pow, cast_pow]

theorem middle_last : 2 * unitsAt (places - 1) + spacing (places - 1) = 2 * (threshold * unit) := by
  decide +kernel

theorem nearestRank_threshold : nearestRank (threshold * unit) 1 = places := by decide +kernel

-- Nothing below depends on how long these numerals are.
attribute [local irreducible] unit threshold

theorem nearestPlace_threshold : nearestPlace threshold = places := by
  have place := nearestRank_eq_nearestPlace threshold Nat.one_pos
  rw [Nat.cast_one, div_one, nearestRank_threshold] at place
  exact place.symm

theorem nearestPlace_lt_places {value : ℚ} (nonneg : 0 ≤ value) (h : value < threshold) :
    nearestPlace value < places := by
  have positive : (0 : ℚ) < value.den := by exact_mod_cast value.pos
  have below : value.num.natAbs < threshold * value.den := by
    rw [← natAbs_num_div_den nonneg, div_lt_iff₀ positive] at h
    exact_mod_cast h
  have bound : nearestPlace value ≤ places - 1 := by
    refine nearestRank_le_of_lt value.pos ?_
    rw [middle_last]
    calc 2 * (value.num.natAbs * unit) < 2 * (threshold * value.den * unit) :=
          (Nat.mul_lt_mul_left (by decide)).mpr ((Nat.mul_lt_mul_right unit_pos).mpr below)
      _ = 2 * (threshold * unit) * value.den := by ring
  have some : 0 < places := by decide
  omega

theorem places_le_nearestPlace_iff {value : ℚ} (nonneg : 0 ≤ value) :
    places ≤ nearestPlace value ↔ threshold ≤ value := by
  constructor
  · intro beyond
    by_contra below
    exact absurd (nearestPlace_lt_places nonneg (lt_of_not_ge below)) (Nat.not_lt_of_le beyond)
  · intro beyond
    rw [← nearestPlace_threshold]
    exact nearestPlace_mono (Nat.cast_nonneg _) beyond

theorem ofNumeral?_eq_none_iff {n : Numeral} :
    ofNumeral? n = none ↔ (2 : ℚ) ^ 1024 - 2 ^ 970 ≤ n.magnitude := by
  have read : ofNumeral? n = ofRank? n.negative (nearestPlace n.magnitude) := ofScientific?_eq _ _ _
  rw [read, ← cast_threshold, ← places_le_nearestPlace_iff n.magnitude_nonneg]
  refine ⟨fun none => ?_, fun beyond => ofRank?_eq_none beyond _⟩
  by_contra within
  rw [ofRank?, dif_pos (Nat.lt_of_not_le within)] at none
  cases none

end Finite64
end RecordFilter
