import Mathlib.Data.Rat.Cast.Order
import Mathlib.Tactic.Linarith
import RecordFilter.Binary64.Shortest
import RecordFilter.Proofs.Binary64.Nearest
import RecordFilter.Proofs.Numeral.Value

/-! Numerals read as floating-point numbers. What is read depends on the value of a numeral alone,
not on how it is spelled, and greater values are never read as lesser numbers. -/

namespace RecordFilter

namespace Finite64

def nearestPlace (value : ℚ) : Nat := nearestRank (value.num.natAbs * unit) value.den

theorem natAbs_num_div_den {value : ℚ} (nonneg : 0 ≤ value) :
    (value.num.natAbs / value.den : ℚ) = value := by
  have num : (value.num.natAbs : ℚ) = value.num := by
    rw [Nat.cast_natAbs, abs_of_nonneg (Rat.num_nonneg.mpr nonneg)]
  rw [num, Rat.num_div_den]

theorem scaled_le_of_div_le {a b n d : Nat} (positive : 0 < b) (positive' : 0 < d)
    (h : (a / b : ℚ) ≤ n / d) (scale : Nat) : a * scale * d ≤ n * scale * b := by
  rw [div_le_div_iff₀ (by exact_mod_cast positive) (by exact_mod_cast positive')] at h
  have cross : a * d ≤ n * b := by exact_mod_cast h
  rw [Nat.mul_right_comm, Nat.mul_right_comm n]
  exact Nat.mul_le_mul_right scale cross

theorem nearestPlace_mono {v w : ℚ} (nonneg : 0 ≤ v) (h : v ≤ w) :
    nearestPlace v ≤ nearestPlace w := by
  refine nearestRank_mono v.pos w.pos (scaled_le_of_div_le v.pos w.pos ?_ _)
  rwa [natAbs_num_div_den nonneg, natAbs_num_div_den (nonneg.trans h)]

theorem nearestRank_eq_nearestPlace (n : Nat) {d : Nat} (positive : 0 < d) :
    nearestRank (n * unit) d = nearestPlace (n / d) := by
  have nonneg : (0 : ℚ) ≤ n / d := div_nonneg n.cast_nonneg d.cast_nonneg
  have same := natAbs_num_div_den nonneg
  have den := (n / d : ℚ).pos
  exact Nat.le_antisymm
    (nearestRank_mono positive den (scaled_le_of_div_le positive den same.ge _))
    (nearestRank_mono den positive (scaled_le_of_div_le den positive same.le _))

theorem unit_pos : 0 < unit := by decide +kernel

theorem ofRatio?_eq (negative : Bool) (numerator : Nat) {denominator : Nat}
    (positive : 0 < denominator) :
    ofRatio? negative numerator denominator =
      ofRank? negative (nearestPlace (numerator / denominator)) := by
  rw [← nearestRank_eq_nearestPlace numerator positive]
  delta ofRatio? unit
  with_reducible rfl

-- Nothing below depends on how long the numeral for the unit is.
attribute [local irreducible] unit

theorem nearestPlace_unitsAt (rank : Nat) :
    nearestPlace ((unitsAt rank : ℚ) / (unit : ℚ)) = rank :=
  (nearestRank_eq_nearestPlace (unitsAt rank) unit_pos).symm.trans
    (nearestRank_unitsAt rank unit_pos)

theorem unitsAt_zero : unitsAt 0 = 0 := by rw [unitsAt, Nat.zero_sub, Nat.zero_mul]

theorem nearestPlace_zero : nearestPlace 0 = 0 := by
  simpa only [unitsAt_zero, Nat.cast_zero, zero_div] using nearestPlace_unitsAt 0

theorem ofRank?_zero (negative : Bool) : ofRank? negative 0 = some (zero negative) := rfl

theorem ofRank?_eq_none {rank : Nat} (h : places ≤ rank) (negative : Bool) :
    ofRank? negative rank = none := dif_neg (by omega)

theorem ofRank?_eq_some_iff {negative : Bool} {rank : Nat} {x : Finite64} :
    ofRank? negative rank = some x ↔ x.negative = negative ∧ x.rank = rank := by
  obtain ⟨n, r, bound⟩ := x
  unfold ofRank?
  split
  · simp [eq_comm]
  · simp only [reduceCtorEq, false_iff]
    rintro ⟨-, rfl⟩
    contradiction

theorem cast_pow (base exponent : Nat) [base.AtLeastTwo] :
    (Nat.pow (OfNat.ofNat base) exponent : ℚ) = (OfNat.ofNat base : ℚ) ^ exponent := by
  rw [Nat.pow_eq, Nat.cast_pow, Nat.cast_ofNat]

theorem places_le_nearestPlace {value : ℚ} {exponent : Nat} (beyond : 311 ≤ exponent)
    (h : (10 : ℚ) ^ exponent ≤ value) : places ≤ nearestPlace value := by
  obtain ⟨top, units, digits, count, bound⟩ :
      ∃ top, unitsAt places = top * unit ∧ ∃ digits, digits = 311 ∧ top ≤ Nat.pow 10 digits :=
    ⟨Nat.pow 2 1024, by decide +kernel, 311, rfl, by decide +kernel⟩
  have power : (top : ℚ) ≤ value := calc
    (top : ℚ) ≤ (Nat.pow 10 digits : Nat) := Nat.cast_le.mpr bound
    _ = 10 ^ digits := cast_pow 10 digits
    _ ≤ 10 ^ exponent := pow_le_pow_right₀ (by norm_num) (by omega)
    _ ≤ value := h
  have first := nearestPlace_unitsAt places
  have cast : (unit : ℚ) ≠ 0 := by exact_mod_cast unit_pos.ne'
  rw [units, Nat.cast_mul, mul_div_cancel_right₀ _ cast] at first
  exact first.ge.trans (nearestPlace_mono (Nat.cast_nonneg _) power)

theorem nearestPlace_eq_zero {numerator denominator : Nat} (h : 2 * (numerator * unit) < denominator) :
    nearestPlace (numerator / denominator) = 0 := by
  rw [← nearestRank_eq_nearestPlace numerator (by omega), nearestRank_eq]
  have quotient : numerator * unit / denominator = 0 := Nat.div_eq_of_lt (by omega)
  have shift : shiftOf 0 = 0 := by decide
  rw [quotient, shift, Nat.zero_mul, Nat.zero_add, Nat.pow_zero, Nat.mul_one]
  exact Nat.le_zero.mp ((roundHalfEven_le_iff (by omega) 0).mpr (.inl (by omega)))

theorem tiny_of_log2 {coefficient down : Nat} (h : coefficient.log2 + 325 ≤ down) :
    2 * (coefficient * unit) < 10 ^ down := by
  have units : 4 * unit ≤ 10 ^ 325 := by decide +kernel
  have digits : coefficient < 2 ^ (coefficient.log2 + 1) := Nat.lt_log2_self
  calc 2 * (coefficient * unit) = coefficient * (2 * unit) := by ring
    _ < 2 ^ (coefficient.log2 + 1) * (2 * unit) :=
      (Nat.mul_lt_mul_right (Nat.mul_pos (by decide) unit_pos)).mpr digits
    _ = 2 ^ coefficient.log2 * (4 * unit) := by ring
    _ ≤ 10 ^ coefficient.log2 * 10 ^ 325 :=
      Nat.mul_le_mul (Nat.pow_le_pow_left (by decide) _) units
    _ = 10 ^ (coefficient.log2 + 325) := by rw [Nat.pow_add]
    _ ≤ 10 ^ down := Nat.pow_le_pow_right (by decide) h

theorem ofScientific?_eq (negative : Bool) (coefficient : Nat) (power : Int) :
    ofScientific? negative coefficient power =
      ofRank? negative (nearestPlace (coefficient * (10 : ℚ) ^ power)) := by
  unfold ofScientific?
  split
  · rename_i zero
    rw [zero, Nat.cast_zero, zero_mul, nearestPlace_zero, ofRank?_zero]
  rename_i nonzero
  have one : (1 : ℚ) ≤ coefficient := by exact_mod_cast Nat.one_le_iff_ne_zero.mpr nonzero
  cases power with
  | ofNat up =>
    have value : ((coefficient * 10 ^ up : Nat) / (1 : Nat) : ℚ) =
        coefficient * (10 : ℚ) ^ Int.ofNat up := by
      rw [Int.ofNat_eq_natCast, zpow_natCast, Nat.cast_one, div_one]
      push_cast
      rfl
    simp only
    split
    · rename_i beyond
      rw [ofRank?_eq_none (places_le_nearestPlace beyond ?_)]
      rw [Int.ofNat_eq_natCast, zpow_natCast]
      exact le_mul_of_one_le_left (pow_nonneg (by norm_num) up) one
    · rw [Nat.pow_eq, ofRatio?_eq _ _ Nat.one_pos, value]
  | negSucc down =>
    have value : (coefficient / (10 ^ (down + 1) : Nat) : ℚ) =
        coefficient * (10 : ℚ) ^ Int.negSucc down := by
      rw [zpow_negSucc, div_eq_mul_inv]
      push_cast
      rfl
    have positive : 0 < 10 ^ (down + 1) := Nat.pow_pos (by decide)
    simp only [Nat.pow_eq]
    split
    · rename_i tiny
      rw [← value, nearestPlace_eq_zero (tiny_of_log2 tiny), ofRank?_zero]
    · rw [ofRatio?_eq _ _ positive, value]

theorem ofNumeral?_eq_some_iff {n : Numeral} {x : Finite64} :
    ofNumeral? n = some x ↔ x.negative = n.negative ∧ x.rank = nearestPlace n.magnitude := by
  rw [ofNumeral?, ofScientific?_eq, ofRank?_eq_some_iff]
  rfl

theorem unitsAt_le {a b : Nat} (h : a ≤ b) : unitsAt a ≤ unitsAt b := by
  obtain less | rfl := h.lt_or_eq
  · exact (unitsAt_lt less).le
  · exact le_rfl

theorem magnitude_le_of_ofNumeral? {m n : Numeral} {x y : Finite64} (first : ofNumeral? m = some x)
    (second : ofNumeral? n = some y) (h : m.magnitude ≤ n.magnitude) : x.magnitude ≤ y.magnitude := by
  rw [magnitude, magnitude, (ofNumeral?_eq_some_iff.mp first).2, (ofNumeral?_eq_some_iff.mp second).2]
  exact unitsAt_le (nearestPlace_mono m.magnitude_nonneg h)

theorem magnitude_eq_zero_of_ofNumeral? {n : Numeral} {x : Finite64} (read : ofNumeral? n = some x)
    (h : n.magnitude = 0) : x.magnitude = 0 := by
  rw [magnitude, (ofNumeral?_eq_some_iff.mp read).2, h, nearestPlace_zero, unitsAt_zero]

theorem units_le_of_ofNumeral? {m n : Numeral} {x y : Finite64} (first : ofNumeral? m = some x)
    (second : ofNumeral? n = some y) (h : m.value ≤ n.value) : x.units ≤ y.units := by
  have signs := (ofNumeral?_eq_some_iff.mp first).1
  have signs' := (ofNumeral?_eq_some_iff.mp second).1
  have nonneg := m.magnitude_nonneg
  have nonneg' := n.magnitude_nonneg
  rw [Numeral.value, Numeral.value] at h
  rw [units, units, signs, signs']
  cases negative : m.negative <;> cases negative' : n.negative <;>
    simp only [negative, negative', Bool.false_eq_true, if_true, if_false] at h ⊢
  · exact_mod_cast magnitude_le_of_ofNumeral? first second h
  · have zero : x.magnitude = 0 := magnitude_eq_zero_of_ofNumeral? first (by linarith)
    have zero' : y.magnitude = 0 := magnitude_eq_zero_of_ofNumeral? second (by linarith)
    omega
  · omega
  · have reversed := magnitude_le_of_ofNumeral? second first (neg_le_neg_iff.mp h)
    omega

end Finite64
end RecordFilter
