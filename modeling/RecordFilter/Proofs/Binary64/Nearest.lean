import Mathlib.Data.Nat.Log
import Mathlib.Tactic.Ring
import RecordFilter.Binary64

/-! Rounding to the nearest place. It keeps the order of quotients, however they are written, and
finds the place of every number that has one; so the places are in the order of their numbers. -/

namespace RecordFilter

namespace Finite64

theorem roundHalfEven_le_iff {n d : Nat} (positive : 0 < d) (r : Nat) :
    roundHalfEven n d ≤ r ↔ 2 * n < (2 * r + 1) * d ∨ (2 * n = (2 * r + 1) * d ∧ r % 2 = 0) := by
  have division := Nat.div_add_mod n d
  have remainder := Nat.mod_lt n positive
  have middle : (2 * r + 1) * d = 2 * (d * r) + d := by ring
  rw [middle]
  unfold roundHalfEven
  simp only
  obtain below | rfl | above := Nat.lt_trichotomy r (n / d)
  · have room : d * r + d ≤ d * (n / d) := Nat.mul_le_mul_left d below
    split <;> omega
  · split <;> omega
  · have room : d * (n / d) + d ≤ d * r := Nat.mul_le_mul_left d above
    split <;> omega

theorem roundHalfEven_le {n d r : Nat} (positive : 0 < d) (h : n ≤ r * d) :
    roundHalfEven n d ≤ r := by
  refine (roundHalfEven_le_iff positive r).mpr (.inl ?_)
  have middle : (2 * r + 1) * d = 2 * (r * d) + d := by ring
  omega

theorem le_roundHalfEven {n d r : Nat} (positive : 0 < d) (h : r * d ≤ n) :
    r ≤ roundHalfEven n d := by
  by_contra less
  obtain ⟨r, rfl⟩ := Nat.exists_eq_succ_of_ne_zero (show r ≠ 0 by omega)
  have middle : (2 * r + 1) * d + d = 2 * (r.succ * d) := by
    rw [Nat.succ_eq_add_one]
    ring
  have upper : roundHalfEven n d ≤ r := by omega
  obtain below | tie := (roundHalfEven_le_iff positive r).mp upper <;> omega

theorem roundHalfEven_mul {d : Nat} (positive : 0 < d) (r : Nat) : roundHalfEven (r * d) d = r :=
  Nat.le_antisymm (roundHalfEven_le positive le_rfl) (le_roundHalfEven positive le_rfl)

theorem roundHalfEven_mono {n d m e : Nat} (positive : 0 < d) (positive' : 0 < e)
    (h : n * e ≤ m * d) : roundHalfEven n d ≤ roundHalfEven m e := by
  generalize nearest : roundHalfEven m e = r
  have upper := (roundHalfEven_le_iff positive' r).mp nearest.le
  rw [roundHalfEven_le_iff positive]
  have scaled : 2 * n * e ≤ 2 * m * d := by
    rw [Nat.mul_assoc, Nat.mul_assoc]
    exact Nat.mul_le_mul_left 2 h
  have swap : (2 * r + 1) * e * d = (2 * r + 1) * d * e := by ring
  obtain below | ⟨tie, even⟩ := upper
  · have strict := (Nat.mul_lt_mul_right positive).mpr below
    exact .inl (Nat.lt_of_mul_lt_mul_right (scaled.trans_lt (strict.trans_eq swap)))
  · rw [tie, swap] at scaled
    obtain strict | same := (Nat.le_of_mul_le_mul_right scaled positive').lt_or_eq
    · exact .inl strict
    · exact .inr ⟨same, even⟩

def shiftOf (quotient : Nat) : Nat := quotient.log2 - 52

theorem nearestRank_eq (n d : Nat) :
    nearestRank n d = shiftOf (n / d) * binade + roundHalfEven n (d * 2 ^ shiftOf (n / d)) := rfl

theorem binade_eq : binade = 2 ^ 52 := rfl

theorem step_pos {d : Nat} (positive : 0 < d) (shift : Nat) : 0 < d * 2 ^ shift :=
  Nat.mul_pos positive (Nat.pow_pos (by decide))

theorem lt_of_shiftOf (quotient : Nat) : quotient < 2 ^ (53 + shiftOf quotient) := by
  have digits : quotient.log2 + 1 ≤ 53 + shiftOf quotient := by
    unfold shiftOf
    omega
  exact Nat.lt_log2_self.trans_le (Nat.pow_le_pow_right (by decide) digits)

theorem le_of_shiftOf {quotient : Nat} (shifted : 0 < shiftOf quotient) :
    2 ^ (52 + shiftOf quotient) ≤ quotient := by
  have digits : 52 + shiftOf quotient = quotient.log2 := by
    unfold shiftOf at shifted ⊢
    omega
  have nonzero : quotient ≠ 0 := by
    rintro rfl
    cases shifted
  rw [digits]
  exact Nat.log2_self_le nonzero

theorem shiftOf_mono {a b : Nat} (h : a ≤ b) : shiftOf a ≤ shiftOf b := by
  have logs : a.log2 ≤ b.log2 := by
    rw [Nat.log2_eq_log_two, Nat.log2_eq_log_two]
    exact Nat.log_mono_right h
  unfold shiftOf
  omega

theorem nearestRank_le (n : Nat) {d : Nat} (positive : 0 < d) :
    nearestRank n d ≤ shiftOf (n / d) * binade + 2 * binade := by
  have bound : n ≤ 2 * binade * (d * 2 ^ shiftOf (n / d)) := by
    have quotient := (Nat.div_lt_iff_lt_mul positive).mp (lt_of_shiftOf (n / d))
    have factor : 2 ^ (53 + shiftOf (n / d)) * d = 2 * binade * (d * 2 ^ shiftOf (n / d)) := by
      rw [binade_eq, Nat.pow_add]
      ring
    omega
  rw [nearestRank_eq]
  exact Nat.add_le_add_left (roundHalfEven_le (step_pos positive _) bound) _

theorem le_nearestRank {n d : Nat} (positive : 0 < d) (shifted : 0 < shiftOf (n / d)) :
    shiftOf (n / d) * binade + binade ≤ nearestRank n d := by
  have bound : binade * (d * 2 ^ shiftOf (n / d)) ≤ n := by
    have quotient := (Nat.le_div_iff_mul_le positive).mp (le_of_shiftOf shifted)
    have factor : 2 ^ (52 + shiftOf (n / d)) * d = binade * (d * 2 ^ shiftOf (n / d)) := by
      rw [binade_eq, Nat.pow_add]
      ring
    omega
  rw [nearestRank_eq]
  exact Nat.add_le_add_left (le_roundHalfEven (step_pos positive _) bound) _

theorem nearestRank_mono {n d m e : Nat} (positive : 0 < d) (positive' : 0 < e)
    (h : n * e ≤ m * d) : nearestRank n d ≤ nearestRank m e := by
  have quotients : n / d ≤ m / e := by
    rw [Nat.le_div_iff_mul_le positive']
    refine Nat.le_of_mul_le_mul_right ?_ positive
    calc n / d * e * d = n / d * d * e := by ring
      _ ≤ n * e := Nat.mul_le_mul_right e (Nat.div_mul_le_self n d)
      _ ≤ m * d := h
  obtain less | same := (shiftOf_mono quotients).lt_or_eq
  · -- Numbers of different binades are kept apart by the start of the higher one.
    have upper := nearestRank_le n positive
    have lower := le_nearestRank positive' (Nat.zero_lt_of_lt less)
    have runs : shiftOf (n / d) * binade + binade ≤ shiftOf (m / e) * binade := by
      rw [← Nat.succ_mul]
      exact Nat.mul_le_mul_right binade less
    omega
  · rw [nearestRank_eq, nearestRank_eq, same]
    refine Nat.add_le_add_left
      (roundHalfEven_mono (step_pos positive _) (step_pos positive' _) ?_) _
    calc n * (e * 2 ^ shiftOf (m / e)) = n * e * 2 ^ shiftOf (m / e) := by ring
      _ ≤ m * d * 2 ^ shiftOf (m / e) := Nat.mul_le_mul_right _ h
      _ = m * (d * 2 ^ shiftOf (m / e)) := by ring

theorem shiftOf_eq_zero {quotient : Nat} (h : quotient < 2 ^ 53) : shiftOf quotient = 0 := by
  by_contra shifted
  have lower := le_of_shiftOf (Nat.pos_of_ne_zero shifted)
  have power : 2 ^ 53 ≤ 2 ^ (52 + shiftOf quotient) := Nat.pow_le_pow_right (by decide) (by omega)
  omega

theorem shiftOf_mul_pow {m : Nat} (lower : 2 ^ 52 ≤ m) (upper : m < 2 ^ 53) (shift : Nat) :
    shiftOf (m * 2 ^ shift) = shift := by
  have power : 0 < 2 ^ shift := Nat.pow_pos (by decide)
  have nonzero : m * 2 ^ shift ≠ 0 := (Nat.mul_pos (by omega) power).ne'
  have log : (m * 2 ^ shift).log2 = 52 + shift := by
    rw [Nat.log2_eq_iff nonzero, Nat.add_right_comm, Nat.pow_add, Nat.pow_add]
    exact ⟨Nat.mul_le_mul_right _ lower, (Nat.mul_lt_mul_right power).mpr upper⟩
  rw [shiftOf, log, Nat.add_sub_cancel_left]

theorem shiftOf_unitsAt (rank : Nat) : shiftOf (unitsAt rank) = rank / binade - 1 := by
  have value : unitsAt rank = (rank - (rank / binade - 1) * binade) * 2 ^ (rank / binade - 1) := rfl
  have division := Nat.div_add_mod rank binade
  have remainder := Nat.mod_lt rank (show 0 < binade by decide)
  rw [value]
  obtain low | ⟨shift, run⟩ : rank / binade ≤ 1 ∨ ∃ shift, rank / binade = shift + 1 :=
    (Nat.lt_or_ge 1 (rank / binade)).symm.imp_right fun more => ⟨rank / binade - 1, by omega⟩
  · have bound : binade * (rank / binade) ≤ binade * 1 := Nat.mul_le_mul_left binade low
    rw [Nat.sub_eq_zero_of_le low, Nat.zero_mul, Nat.sub_zero, Nat.pow_zero, Nat.mul_one]
    refine shiftOf_eq_zero ?_
    rw [binade_eq] at bound remainder division
    omega
  · rw [run] at division ⊢
    have digits : rank - shift * binade = binade + rank % binade := by
      rw [Nat.mul_succ, Nat.mul_comm binade shift] at division
      omega
    rw [Nat.add_sub_cancel, digits]
    rw [binade_eq] at remainder ⊢
    exact shiftOf_mul_pow (Nat.le_add_right _ _) (by omega) shift

theorem nearestRank_unitsAt (rank : Nat) {d : Nat} (positive : 0 < d) :
    nearestRank (unitsAt rank * d) d = rank := by
  have shift := shiftOf_unitsAt rank
  have value : unitsAt rank * d =
      (rank - (rank / binade - 1) * binade) * (d * 2 ^ (rank / binade - 1)) := by
    rw [unitsAt, Nat.pow_eq]
    ring
  have within : (rank / binade - 1) * binade ≤ rank :=
    (Nat.mul_le_mul_right binade (Nat.sub_le _ 1)).trans (Nat.div_mul_le_self rank binade)
  rw [nearestRank_eq, Nat.mul_div_cancel _ positive, shift, value,
    roundHalfEven_mul (step_pos positive _), Nat.add_sub_cancel' within]

theorem unitsAt_lt {a b : Nat} (h : a < b) : unitsAt a < unitsAt b := by
  by_contra reversed
  have ranks : nearestRank (unitsAt b * 1) 1 ≤ nearestRank (unitsAt a * 1) 1 :=
    nearestRank_mono Nat.one_pos Nat.one_pos (by omega)
  rw [nearestRank_unitsAt b Nat.one_pos, nearestRank_unitsAt a Nat.one_pos] at ranks
  omega

end Finite64
end RecordFilter
