import Mathlib.Data.Rat.Cast.Order
import Mathlib.Tactic.Linarith
import RecordFilter.Decimal
import RecordFilter.Proofs.Numeral.Value

/-! Rounding in the reading of plain numerals. The digits that no longer fit move the result within
the last place that was read, so a greater numeral is never read as a lesser decimal. -/

namespace RecordFilter

namespace Decimal

theorem maxMantissa_eq : maxMantissa = 79228162514264337593543950335 := rfl

def Magnitude.steps (magnitude : Magnitude) : Nat := magnitude.1 * 10 ^ (maxScale - magnitude.2)

/-- The most that a mantissa becomes by rounding, in its own last place. The greatest one gives up
that place, and rounds to a ten. -/
def ceiling (mantissa : Nat) : Nat := if mantissa < maxMantissa then mantissa + 1 else mantissa + 5

theorem le_ceiling (mantissa : Nat) : mantissa ≤ ceiling mantissa := by
  unfold ceiling
  split <;> omega

theorem steps_increment {mantissa scale : Nat} {result : Magnitude} (fits : mantissa ≤ maxMantissa)
    (places : scale ≤ maxScale) (h : increment (mantissa, scale) = some result) :
    result.steps = ceiling mantissa * 10 ^ (maxScale - scale) := by
  simp only [increment] at h
  unfold ceiling
  split at h
  · rename_i below
    cases h
    rw [if_pos below, Magnitude.steps]
  · rename_i full
    split at h
    · cases h
    · cases h
      obtain rfl : mantissa = maxMantissa := by omega
      have place : maxScale - (scale - 1) = maxScale - scale + 1 := by omega
      have ten : (maxMantissa + 5) / 10 * 10 = maxMantissa + 5 := by rw [maxMantissa_eq]
      rw [if_neg full, Magnitude.steps, place, Nat.pow_succ, Nat.mul_comm _ 10, ← Nat.mul_assoc, ten]

theorem ceiling_append {mantissa digit : Nat} (value : digit ≤ 9)
    (fits : 10 * mantissa + digit ≤ maxMantissa) :
    ceiling (10 * mantissa + digit) ≤ 10 * ceiling mantissa := by
  unfold ceiling
  rw [maxMantissa_eq] at *
  split <;> split <;> omega

theorem steps_appendFraction {digits : Text} (all : Text.Digits digits) {mantissa scale : Nat}
    {result : Magnitude} (fits : mantissa ≤ maxMantissa) (places : scale ≤ maxScale)
    (h : appendFraction (mantissa, scale) digits = some result) :
    mantissa * 10 ^ (maxScale - scale) ≤ result.steps ∧
      result.steps ≤ ceiling mantissa * 10 ^ (maxScale - scale) := by
  induction digits generalizing mantissa scale with
  | nil =>
    cases h
    exact ⟨le_rfl, Nat.mul_le_mul_right _ (le_ceiling mantissa)⟩
  | cons c digits ih =>
    obtain ⟨digit, all⟩ := Text.digits_cons_iff.mp all
    have value := Text.digitsValue_singleton_le digit
    rw [appendFraction] at h
    split at h
    · rename_i room
      obtain ⟨lower, upper⟩ := ih all room.2 room.1 h
      have place : maxScale - scale = maxScale - (scale + 1) + 1 := by omega
      rw [place, Nat.pow_succ, Nat.mul_comm _ 10, ← Nat.mul_assoc, ← Nat.mul_assoc]
      constructor
      · refine le_trans (Nat.mul_le_mul_right _ ?_) lower
        omega
      · refine upper.trans (Nat.mul_le_mul_right _ ?_)
        rw [Nat.mul_comm _ 10]
        exact ceiling_append value room.2
    · split at h
      · have steps := steps_increment fits places h
        rw [steps]
        exact ⟨Nat.mul_le_mul_right _ (le_ceiling mantissa), le_rfl⟩
      · cases h
        exact ⟨le_rfl, Nat.mul_le_mul_right _ (le_ceiling mantissa)⟩

theorem steps_le_of_lt {ds es : Text} (all : Text.Digits ds) (all' : Text.Digits es)
    {m n scale : Nat} {r q : Magnitude} (less : m < n) (fits : n ≤ maxMantissa)
    (places : scale ≤ maxScale) (first : appendFraction (m, scale) ds = some r)
    (second : appendFraction (n, scale) es = some q) : r.steps ≤ q.steps := by
  have upper := (steps_appendFraction all (by omega) places first).2
  have lower := (steps_appendFraction all' fits places second).1
  rw [ceiling, if_pos (by omega)] at upper
  exact upper.trans ((Nat.mul_le_mul_right _ less).trans lower)

theorem digits_le_of_append_le {v w a b k : Nat} (bound : b < 10 ^ k)
    (h : 10 ^ k * v + a ≤ 10 ^ k * w + b) : v < w ∨ (v = w ∧ a ≤ b) := by
  obtain less | rfl | greater := Nat.lt_trichotomy v w
  · exact .inl less
  · exact .inr ⟨rfl, by omega⟩
  · have room := Nat.mul_le_mul_left (10 ^ k) greater
    rw [Nat.mul_succ] at room
    omega

theorem steps_le_of_same {ds es : Text} (all : Text.Digits ds) (all' : Text.Digits es)
    (length : ds.length = es.length) {m scale : Nat} {r q : Magnitude} (fits : m ≤ maxMantissa)
    (places : scale ≤ maxScale) (first : appendFraction (m, scale) ds = some r)
    (second : appendFraction (m, scale) es = some q)
    (h : Text.digitsValue ds ≤ Text.digitsValue es) : r.steps ≤ q.steps := by
  induction ds generalizing es m scale with
  | nil =>
    obtain rfl := List.eq_nil_of_length_eq_zero length.symm
    cases first.symm.trans second
    exact le_rfl
  | cons c ds ih =>
    obtain ⟨e, es, rfl⟩ := List.exists_cons_of_length_eq_add_one length.symm
    rw [List.length_cons, List.length_cons, Nat.add_right_cancel_iff] at length
    have bounds := steps_appendFraction all fits places first
    have bounds' := steps_appendFraction all' fits places second
    obtain ⟨digit, all⟩ := Text.digits_cons_iff.mp all
    obtain ⟨digit', all'⟩ := Text.digits_cons_iff.mp all'
    have value' := Text.digitsValue_singleton_le digit'
    rw [Text.digitsValue_cons, Text.digitsValue_cons e, length] at h
    have order := digits_le_of_append_le (Text.digitsValue_lt all') h
    rw [appendFraction] at first second
    split at first
    · rename_i room
      split at second
      · rename_i room'
        obtain less | ⟨same, behind⟩ := order
        · exact steps_le_of_lt all all' (by omega) room'.2 room.1 first second
        · rw [same] at first
          exact ih all all' length room'.2 room.1 first second behind
      · -- Only a digit of at least six overruns a mantissa that a lesser digit does not.
        rename_i overrun
        rw [maxMantissa_eq] at room overrun fits
        rw [if_pos (by omega)] at second
        rw [steps_increment fits places second]
        exact bounds.2
    · rename_i overrun
      rw [if_neg (by omega)] at second
      split at first
      · rw [if_pos (by omega)] at second
        cases first.symm.trans second
        exact le_rfl
      · cases first
        exact bounds'.1

theorem steps_appendFraction_le {ds es : Text} (all : Text.Digits ds) (all' : Text.Digits es)
    (length : ds.length = es.length) {m n scale : Nat} {r q : Magnitude} (fits : n ≤ maxMantissa)
    (places : scale ≤ maxScale) (first : appendFraction (m, scale) ds = some r)
    (second : appendFraction (n, scale) es = some q)
    (h : 10 ^ ds.length * m + Text.digitsValue ds ≤ 10 ^ es.length * n + Text.digitsValue es) :
    r.steps ≤ q.steps := by
  rw [length] at h
  obtain less | ⟨rfl, behind⟩ := digits_le_of_append_le (Text.digitsValue_lt all') h
  · exact steps_le_of_lt all all' less fits places first second
  · exact steps_le_of_same all all' length fits places first second behind

theorem exists_appendFraction_zeros {digits : Text} {mantissa scale : Nat} {r : Magnitude}
    (h : appendFraction (mantissa, scale) digits = some r) (count : Nat) :
    ∃ q, appendFraction (mantissa, scale) (digits ++ List.replicate count '0') = some q ∧
      q.steps = r.steps := by
  induction digits generalizing mantissa scale with
  | nil =>
    cases h
    rw [List.nil_append]
    induction count generalizing mantissa scale with
    | zero => exact ⟨_, rfl, rfl⟩
    | succ count ih =>
      have zero : Text.digitsValue ['0'] = 0 := Text.digitsValue_zeros 1
      rw [List.replicate_succ, appendFraction, zero]
      split
      · rename_i room
        obtain ⟨q, read, steps⟩ := @ih (10 * mantissa + 0) (scale + 1)
        have place : maxScale - scale = maxScale - (scale + 1) + 1 := by omega
        refine ⟨q, read, steps.trans ?_⟩
        simp only [Magnitude.steps]
        rw [place, Nat.pow_succ]
        ring
      · exact ⟨_, rfl, rfl⟩
  | cons c digits ih =>
    rw [appendFraction] at h
    rw [List.cons_append, appendFraction]
    split at h
    · rename_i room
      rw [if_pos room]
      exact ih h
    · rename_i overrun
      rw [if_neg overrun]
      split at h
      · rename_i up
        rw [if_pos up]
        exact ⟨r, h, rfl⟩
      · rename_i down
        rw [if_neg down]
        exact ⟨r, h, rfl⟩

theorem exists_magnitude_of_ofNumeral? {n : Numeral} {d : Decimal} (plain : n.exponent = 0)
    (h : ofNumeral? n = some d) :
    ∃ r : Magnitude, Text.digitsValue n.whole ≤ maxMantissa ∧
      appendFraction (Text.digitsValue n.whole, 0) n.fraction = some r ∧
      d.steps = if n.negative then -(r.steps : Int) else r.steps := by
  unfold ofNumeral? at h
  rw [plain] at h
  obtain ⟨r, read, h⟩ := Option.bind_eq_some_iff.mp h
  obtain ⟨q, moved, h⟩ := Option.bind_eq_some_iff.mp h
  cases h
  unfold readDigits at read
  simp only at read
  split at read
  · rename_i fits
    obtain ⟨mantissa, scale⟩ := r
    have still : shift 0 (mantissa, scale) = some (mantissa, scale) := rfl
    cases still.symm.trans moved
    refine ⟨(mantissa, scale), fits, read, ?_⟩
    simp only [steps, Magnitude.steps, Nat.pow_eq]
    push_cast
    rfl
  · cases read

theorem scaled_coefficient_le {m n : Numeral} (plain : m.exponent = 0) (plain' : n.exponent = 0)
    (h : m.magnitude ≤ n.magnitude) :
    10 ^ n.fraction.length * m.coefficient ≤ 10 ^ m.fraction.length * n.coefficient := by
  have power (n : Numeral) (plain : n.exponent = 0) :
      n.magnitude = n.coefficient / 10 ^ n.fraction.length := by
    rw [Numeral.magnitude, Numeral.power, plain, Int.zero_sub, zpow_neg, zpow_natCast,
      div_eq_mul_inv]
  rw [power m plain, power n plain', div_le_div_iff₀ (by positivity) (by positivity)] at h
  have cross : m.coefficient * 10 ^ n.fraction.length ≤ n.coefficient * 10 ^ m.fraction.length := by
    exact_mod_cast h
  rw [Nat.mul_comm, Nat.mul_comm (10 ^ m.fraction.length)]
  exact cross

theorem steps_magnitude_le {m n : Numeral} (all : Text.Digits m.fraction)
    (all' : Text.Digits n.fraction) {r q : Magnitude}
    (fits : Text.digitsValue n.whole ≤ maxMantissa)
    (first : appendFraction (Text.digitsValue m.whole, 0) m.fraction = some r)
    (second : appendFraction (Text.digitsValue n.whole, 0) n.fraction = some q)
    (h : 10 ^ n.fraction.length * m.coefficient ≤ 10 ^ m.fraction.length * n.coefficient) :
    r.steps ≤ q.steps := by
  -- Zeros make both fractions equally long.
  obtain ⟨r', first', same⟩ := exists_appendFraction_zeros first n.fraction.length
  obtain ⟨q', second', same'⟩ := exists_appendFraction_zeros second m.fraction.length
  rw [← same, ← same']
  refine steps_appendFraction_le (Text.digits_append_iff.mpr ⟨all, Text.digits_zeros _⟩)
    (Text.digits_append_iff.mpr ⟨all', Text.digits_zeros _⟩) ?_ fits (Nat.zero_le _) first' second' ?_
  · rw [List.length_append, List.length_append, List.length_replicate, List.length_replicate,
      Nat.add_comm]
  · rw [m.coefficient_eq, n.coefficient_eq] at h
    rw [Text.digitsValue_append, Text.digitsValue_append, Text.digitsValue_zeros,
      Text.digitsValue_zeros, List.length_append, List.length_append, List.length_replicate,
      List.length_replicate, Nat.pow_add, Nat.pow_add]
    calc _ = 10 ^ n.fraction.length * (10 ^ m.fraction.length * Text.digitsValue m.whole
            + Text.digitsValue m.fraction) := by ring
      _ ≤ _ := h
      _ = _ := by ring

theorem steps_eq_zero {n : Numeral} (all : Text.Digits n.fraction) {r : Magnitude}
    (read : appendFraction (Text.digitsValue n.whole, 0) n.fraction = some r)
    (zero : n.magnitude = 0) : r.steps = 0 := by
  have nothing : (⟨false, [], [], 0⟩ : Numeral).coefficient = 0 := rfl
  have bound := steps_magnitude_le (n := ⟨false, [], [], 0⟩) (q := (0, 0)) all Text.digits_nil
    (Nat.zero_le _) read rfl
    (by rw [Numeral.coefficient_eq_zero_of_magnitude zero, nothing, Nat.mul_zero, Nat.mul_zero])
  have none : Magnitude.steps (0, 0) = 0 := Nat.zero_mul _
  omega

theorem steps_le_of_value_le {m n : Numeral} (plain : m.exponent = 0) (plain' : n.exponent = 0)
    (all : Text.Digits m.fraction) (all' : Text.Digits n.fraction) {d e : Decimal}
    (first : ofNumeral? m = some d) (second : ofNumeral? n = some e) (h : m.value ≤ n.value) :
    d.steps ≤ e.steps := by
  obtain ⟨r, fits, read, steps⟩ := exists_magnitude_of_ofNumeral? plain first
  obtain ⟨q, fits', read', steps'⟩ := exists_magnitude_of_ofNumeral? plain' second
  have nonneg := m.magnitude_nonneg
  have nonneg' := n.magnitude_nonneg
  rw [steps, steps']
  unfold Numeral.value at h
  cases negative : m.negative <;> cases negative' : n.negative <;>
    simp only [negative, negative', Bool.false_eq_true, if_true, if_false] at h ⊢
  · have order := steps_magnitude_le all all' fits' read read' (scaled_coefficient_le plain plain' h)
    exact_mod_cast order
  · have zero := steps_eq_zero all read (by linarith)
    have zero' := steps_eq_zero all' read' (by linarith)
    omega
  · omega
  · have order := steps_magnitude_le all' all fits read' read
      (scaled_coefficient_le plain' plain (neg_le_neg_iff.mp h))
    omega

end Decimal
end RecordFilter
