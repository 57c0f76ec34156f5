import RecordFilter.Proofs.Binary64.Reading

/-! Seventeen digits tell a finite number from its neighbours, so the search for the shortest digits
that read back ends within seventeen. -/

namespace RecordFilter

namespace Text

theorem lt_pow_length_ofNat (n : Nat) : n < 10 ^ (ofNat n).length := by
  have bound := digitsValue_lt (digits_ofNat n)
  rwa [digitsValue_ofNat] at bound

theorem pow_length_ofNat_le {n : Nat} (positive : 0 < n) : 10 ^ ((ofNat n).length - 1) ≤ n := by
  by_contra less
  obtain single | several := Nat.eq_zero_or_pos ((ofNat n).length - 1)
  · rw [single] at less
    omega
  · have short := (Nat.length_toDigits_le_iff (by decide) several).mpr (Nat.lt_of_not_le less)
    have length : (ofNat n).length = (Nat.toDigits 10 n).length := rfl
    omega

end Text

namespace Finite64

-- Nothing below depends on how long the numeral for the unit is.
attribute [local irreducible] unit

theorem unitsAt_run {shift digits : Nat} (lower : 0 < shift → binade ≤ digits)
    (upper : digits ≤ 2 * binade) : unitsAt (shift * binade + digits) = digits * 2 ^ shift := by
  have positive : 0 < binade := by decide
  rw [unitsAt, Nat.pow_eq, Nat.mul_comm shift, Nat.mul_add_div positive]
  obtain subnormal | normal := Nat.lt_or_ge digits binade
  · obtain rfl : shift = 0 := by
      by_contra shifted
      exact absurd (lower (Nat.pos_of_ne_zero shifted)) (Nat.not_le_of_lt subnormal)
    rw [Nat.div_eq_of_lt subnormal]
    simp
  obtain rfl | within := upper.eq_or_lt
  · have next : 2 * binade / binade = 2 := Nat.mul_div_cancel _ positive
    have start : shift + 2 - 1 = shift + 1 := rfl
    have first : binade * shift + 2 * binade - (shift + 1) * binade = binade := by
      rw [Nat.add_mul, Nat.mul_comm]
      omega
    rw [next, start, first, Nat.pow_succ]
    ring
  · have run : digits / binade = 1 := Nat.div_eq_of_lt_le (by omega) (by omega)
    rw [run, Nat.add_sub_cancel, Nat.mul_comm shift, Nat.add_sub_cancel_left]

theorem exists_unit_eq : ∃ exponent, exponent = 1074 ∧ unit = 2 ^ exponent := by
  -- The exponent is a variable, so that the power is never computed.
  obtain ⟨exponent, count, unit_eq⟩ : ∃ exponent, exponent = 1074 ∧ unit = Nat.pow 2 exponent :=
    ⟨1074, rfl, by delta unit; with_reducible rfl⟩
  exact ⟨exponent, count, unit_eq.trans Nat.pow_eq⟩

theorem nearestPlace_two_pow (exponent : Nat) :
    nearestPlace (2 ^ exponent) = (exponent + 1023) * binade := by
  obtain ⟨digits, count, unit_eq⟩ := exists_unit_eq
  have units : unitsAt ((exponent + 1022) * binade + binade) = 2 ^ exponent * unit := by
    rw [unitsAt_run (fun _ => le_rfl) (by omega), unit_eq, binade_eq, ← Nat.pow_add, ← Nat.pow_add]
    exact congrArg (2 ^ ·) (by omega)
  have place := nearestPlace_unitsAt ((exponent + 1022) * binade + binade)
  have cast : (unit : ℚ) ≠ 0 := by exact_mod_cast unit_pos.ne'
  rw [units, Nat.cast_mul, mul_div_cancel_right₀ _ cast, Nat.cast_pow, Nat.cast_ofNat] at place
  rw [place, ← Nat.succ_mul]

theorem exists_run (rank : Nat) :
    ∃ shift digits, rank = shift * binade + digits ∧ (0 < shift → binade ≤ digits) ∧
      digits < 2 * binade ∧ shiftOf (unitsAt rank) = shift := by
  have division := Nat.div_add_mod rank binade
  have remainder := Nat.mod_lt rank (show 0 < binade by decide)
  refine ⟨rank / binade - 1, rank - (rank / binade - 1) * binade, ?_, ?_, ?_, shiftOf_unitsAt rank⟩
  all_goals
    cases run : rank / binade with
    | zero =>
      rw [run] at division
      omega
    | succ shift =>
      rw [run, Nat.mul_succ, Nat.mul_comm] at division
      rw [Nat.add_sub_cancel]
      omega

def spacing (rank : Nat) : Nat := 2 ^ shiftOf (unitsAt rank)

theorem unitsAt_succ (rank : Nat) : unitsAt (rank + 1) = unitsAt rank + spacing rank := by
  obtain ⟨shift, digits, place, lower, upper, run⟩ := exists_run rank
  have next : rank + 1 = shift * binade + (digits + 1) := by omega
  rw [spacing, run, next, place, unitsAt_run lower upper.le,
    unitsAt_run (fun shifted => (lower shifted).trans (Nat.le_succ digits)) upper, Nat.succ_mul]

theorem unitsAt_add_spacing_le (rank : Nat) :
    unitsAt rank + spacing rank ≤ 2 ^ 53 * spacing rank := by
  obtain ⟨shift, digits, place, lower, upper, run⟩ := exists_run rank
  rw [spacing, run, place, unitsAt_run lower upper.le, ← Nat.succ_mul]
  refine Nat.mul_le_mul_right _ ?_
  rw [binade_eq] at upper
  omega

theorem nearestRank_le_of_lt {n d rank : Nat} (positive : 0 < d)
    (h : 2 * n < (2 * unitsAt rank + spacing rank) * d) : nearestRank n d ≤ rank := by
  obtain ⟨shift, digits, place, lower, upper, run⟩ := exists_run rank
  obtain less | same | greater := Nat.lt_trichotomy (shiftOf (n / d)) shift
  · have bound := nearestRank_le n positive
    have start := lower (Nat.zero_lt_of_lt less)
    have runs : (shiftOf (n / d) + 1) * binade ≤ shift * binade := Nat.mul_le_mul_right binade less
    rw [Nat.succ_mul] at runs
    omega
  · have middle : (2 * unitsAt rank + spacing rank) * d = (2 * digits + 1) * (d * 2 ^ shift) := by
      rw [spacing, run, place, unitsAt_run lower upper.le]
      ring
    rw [middle] at h
    rw [nearestRank_eq, same, place]
    exact Nat.add_le_add_left ((roundHalfEven_le_iff (step_pos positive _) digits).mpr (.inl h)) _
  · -- The quotient reaches the next run, which starts at the upper neighbour or beyond it.
    have quotient : 2 ^ (52 + shiftOf (n / d)) * d ≤ n :=
      (Nat.le_div_iff_mul_le positive).mp (le_of_shiftOf (Nat.zero_lt_of_lt greater))
    have reach := unitsAt_add_spacing_le rank
    have power : 2 ^ 53 * spacing rank ≤ 2 ^ (52 + shiftOf (n / d)) := by
      rw [spacing, run, ← Nat.pow_add]
      exact Nat.pow_le_pow_right (by decide) (by omega)
    have scaled := Nat.mul_le_mul_right d (reach.trans power)
    have halves : (2 * unitsAt rank + spacing rank) * d ≤ 2 * ((unitsAt rank + spacing rank) * d) := by
      rw [← Nat.mul_assoc]
      exact Nat.mul_le_mul_right d (by omega)
    omega

theorem lt_nearestRank_of_lt {n d rank : Nat} (positive : 0 < d)
    (h : (2 * unitsAt rank + spacing rank) * d < 2 * n) : rank < nearestRank n d := by
  obtain ⟨shift, digits, place, lower, upper, run⟩ := exists_run rank
  obtain less | same | greater := Nat.lt_trichotomy (shiftOf (n / d)) shift
  · -- The quotient stays in an earlier run, below the place itself.
    have quotient := (Nat.div_lt_iff_lt_mul positive).mp (lt_of_shiftOf (n / d))
    have start : 2 ^ (52 + shiftOf (unitsAt rank)) ≤ unitsAt rank := le_of_shiftOf (by omega)
    have power : 2 ^ (53 + shiftOf (n / d)) ≤ 2 ^ (52 + shiftOf (unitsAt rank)) :=
      Nat.pow_le_pow_right (by decide) (by omega)
    have scaled := Nat.mul_le_mul_right d (power.trans start)
    have halves : 2 * (unitsAt rank * d) ≤ (2 * unitsAt rank + spacing rank) * d := by
      rw [← Nat.mul_assoc]
      exact Nat.mul_le_mul_right d (Nat.le_add_right _ _)
    omega
  · have middle : (2 * unitsAt rank + spacing rank) * d = (2 * digits + 1) * (d * 2 ^ shift) := by
      rw [spacing, run, place, unitsAt_run lower upper.le]
      ring
    rw [middle] at h
    rw [nearestRank_eq, same, place, Nat.add_lt_add_iff_left, ← Nat.not_le,
      roundHalfEven_le_iff (step_pos positive _)]
    omega
  · have bound := le_nearestRank positive (Nat.zero_lt_of_lt greater)
    have runs : (shift + 1) * binade ≤ shiftOf (n / d) * binade := Nat.mul_le_mul_right binade greater
    rw [Nat.succ_mul] at runs
    omega

theorem nearestRank_of_close {n d rank : Nat} (positive : 0 < d)
    (upper : 2 ^ 54 * n < 2 ^ 54 * (unitsAt rank * d) + unitsAt rank * d)
    (lower : 2 ^ 54 * (unitsAt rank * d) < 2 ^ 54 * n + unitsAt rank * d) :
    nearestRank n d = rank := by
  refine Nat.le_antisymm (nearestRank_le_of_lt positive ?_) ?_
  · have gap := Nat.mul_le_mul_right d (unitsAt_add_spacing_le rank)
    rw [Nat.add_mul, Nat.mul_assoc] at gap
    rw [Nat.add_mul, Nat.mul_assoc]
    omega
  · cases rank with
    | zero => exact Nat.zero_le _
    | succ rank =>
      have gap := Nat.mul_le_mul_right d (unitsAt_add_spacing_le rank)
      rw [unitsAt_succ] at lower
      rw [Nat.add_mul, Nat.mul_assoc] at gap
      rw [Nat.add_mul] at lower
      refine lt_nearestRank_of_lt positive ?_
      rw [Nat.add_mul, Nat.mul_assoc]
      omega

def absolute (x : Finite64) : ℚ := x.magnitude / unit

theorem unit_cast_pos : (0 : ℚ) < unit := by exact_mod_cast unit_pos

theorem magnitude_pos {x : Finite64} (nonzero : x.rank ≠ 0) : 0 < x.magnitude := by
  have less := unitsAt_lt (Nat.pos_of_ne_zero nonzero)
  rwa [unitsAt_zero] at less

theorem nearestPlace_of_close {x : Finite64} {w : ℚ} (nonneg : 0 ≤ w)
    (h : 2 ^ 54 * |w - x.absolute| < x.absolute) : nearestPlace w = x.rank := by
  have positive : (0 : ℚ) < w.den := by exact_mod_cast w.pos
  have scale := mul_pos positive unit_cast_pos
  have numerator : (w.num.natAbs : ℚ) = w * w.den :=
    (div_eq_iff positive.ne').mp (natAbs_num_div_den nonneg)
  have magnitude : (unitsAt x.rank : ℚ) = x.absolute * unit :=
    (div_eq_iff unit_cast_pos.ne').mp rfl
  have above : 2 ^ 54 * (w - x.absolute) < x.absolute :=
    (mul_le_mul_of_nonneg_left (le_abs_self _) (by norm_num)).trans_lt h
  have below : 2 ^ 54 * (x.absolute - w) < x.absolute := by
    rw [abs_sub_comm] at h
    exact (mul_le_mul_of_nonneg_left (le_abs_self _) (by norm_num)).trans_lt h
  have above := mul_lt_mul_of_pos_right above scale
  have below := mul_lt_mul_of_pos_right below scale
  have upper : (2 ^ 54 * (w.num.natAbs * unit) : ℚ) <
      2 ^ 54 * (unitsAt x.rank * w.den) + unitsAt x.rank * w.den := by
    rw [numerator, magnitude]
    linarith
  have lower : (2 ^ 54 * (unitsAt x.rank * w.den) : ℚ) <
      2 ^ 54 * (w.num.natAbs * unit) + unitsAt x.rank * w.den := by
    rw [numerator, magnitude]
    linarith
  exact nearestRank_of_close w.pos (by exact_mod_cast upper) (by exact_mod_cast lower)

theorem pow_leading_le {x : Finite64} (nonzero : x.rank ≠ 0) :
    (10 : ℚ) ^ (x.leading - 1) ≤ x.absolute := by
  have positive := magnitude_pos nonzero
  rw [leading, absolute, le_div_iff₀ unit_cast_pos]
  split
  · rename_i large
    have quotient : 0 < x.magnitude / unit := Nat.div_pos large unit_pos
    have digits := (Nat.le_div_iff_mul_le unit_pos).mp (Text.pow_length_ofNat_le quotient)
    have length : 0 < (Text.ofNat (x.magnitude / unit)).length := Nat.length_toDigits_pos
    have exponent : ((Text.ofNat (x.magnitude / unit)).length : Int) - 1 =
        ((Text.ofNat (x.magnitude / unit)).length - 1 : Nat) := by omega
    rw [exponent, zpow_natCast]
    exact_mod_cast digits
  · have digits := Text.lt_pow_length_ofNat ((unit - 1) / x.magnitude)
    generalize (Text.ofNat ((unit - 1) / x.magnitude)).length = length at digits
    have whole := (Nat.div_lt_iff_lt_mul positive).mp digits
    have covers : unit ≤ x.magnitude * 10 ^ length := by
      rw [Nat.mul_comm]
      omega
    have exponent : (1 - (length : Int) - 1) = -length := by omega
    rw [exponent, zpow_neg, zpow_natCast, inv_mul_le_iff₀ (by positivity), mul_comm]
    exact_mod_cast covers

theorem absolute_lt_pow_leading {x : Finite64} (nonzero : x.rank ≠ 0) :
    x.absolute < (10 : ℚ) ^ x.leading := by
  have positive := magnitude_pos nonzero
  rw [leading, absolute, div_lt_iff₀ unit_cast_pos]
  split
  · have digits := Text.lt_pow_length_ofNat (x.magnitude / unit)
    rw [zpow_natCast]
    exact_mod_cast (Nat.div_lt_iff_lt_mul unit_pos).mp digits
  · rename_i small
    have length : 0 < (Text.ofNat ((unit - 1) / x.magnitude)).length := Nat.length_toDigits_pos
    have short : x.magnitude * 10 ^ ((Text.ofNat ((unit - 1) / x.magnitude)).length - 1) < unit := by
      obtain below | above := Nat.eq_zero_or_pos ((unit - 1) / x.magnitude)
      · rw [below]
        have single : (Text.ofNat 0).length - 1 = 0 := rfl
        rw [single, Nat.pow_zero, Nat.mul_one]
        omega
      · have digits := (Nat.le_div_iff_mul_le positive).mp (Text.pow_length_ofNat_le above)
        rw [Nat.mul_comm]
        omega
    have exponent : (1 - ((Text.ofNat ((unit - 1) / x.magnitude)).length : Int)) =
        -((Text.ofNat ((unit - 1) / x.magnitude)).length - 1 : Nat) := by omega
    rw [exponent, zpow_neg, zpow_natCast, inv_mul_eq_div, lt_div_iff₀ (by positivity)]
    exact_mod_cast short

theorem inSteps_pos (x : Finite64) (power : Int) : 0 < (x.inSteps power).2 := by
  cases power with
  | ofNat up => exact Nat.mul_pos unit_pos (Nat.pow_pos (by decide))
  | negSucc down => exact unit_pos

theorem inSteps_eq (x : Finite64) (power : Int) :
    ((x.inSteps power).1 / (x.inSteps power).2 : ℚ) = x.absolute / 10 ^ power := by
  cases power with
  | ofNat up =>
    rw [inSteps, absolute, Int.ofNat_eq_natCast, zpow_natCast, div_div, Nat.cast_mul, Nat.pow_eq,
      Nat.cast_pow, Nat.cast_ofNat]
  | negSucc down =>
    rw [inSteps, absolute, zpow_negSucc, div_inv_eq_mul, Nat.cast_mul, Nat.pow_eq, Nat.cast_pow,
      Nat.cast_ofNat, mul_div_right_comm]

def gridBelow (x : Finite64) (power : Int) : Nat := (x.inSteps power).1 / (x.inSteps power).2

theorem gridBelow_le (x : Finite64) (power : Int) :
    (x.gridBelow power : ℚ) * 10 ^ power ≤ x.absolute := by
  have positive := x.inSteps_pos power
  rw [← le_div_iff₀ (by positivity), ← inSteps_eq, le_div_iff₀ (by exact_mod_cast positive),
    ← Nat.cast_mul, Nat.cast_le]
  exact Nat.div_mul_le_self _ _

theorem lt_gridBelow (x : Finite64) (power : Int) :
    x.absolute < (x.gridBelow power + 1 : Nat) * 10 ^ power := by
  have positive := x.inSteps_pos power
  rw [← div_lt_iff₀ (by positivity), ← inSteps_eq, div_lt_iff₀ (by exact_mod_cast positive),
    ← Nat.cast_mul, Nat.cast_lt]
  exact (Nat.div_lt_iff_lt_mul positive).mp (Nat.lt_succ_self _)

theorem readsBack_iff {x : Finite64} {coefficient : Nat} {power : Int} :
    x.readsBack coefficient power = true ↔
      x.rank = nearestPlace (coefficient * (10 : ℚ) ^ power) := by
  rw [readsBack, beq_iff_eq, ofScientific?_eq, ofRank?_eq_some_iff]
  simp

theorem readsBack_of_neighbour? {x : Finite64} {tie : Tie} {power : Int} {coefficient : Nat}
    (h : x.neighbour? tie power = some coefficient) :
    x.readsBack coefficient power = true ∧ coefficient ≤ x.gridBelow power + 1 := by
  unfold neighbour? at h
  simp only at h
  split at h
  · rename_i below above
    cases h
    split
    · exact ⟨below, Nat.le_succ _⟩
    · exact ⟨above, le_rfl⟩
  · rename_i below _
    cases h
    exact ⟨below, Nat.le_succ _⟩
  · rename_i _ above
    cases h
    exact ⟨above, le_rfl⟩
  · cases h

theorem exists_neighbour? {x : Finite64} {power : Int} (tie : Tie)
    (h : x.readsBack (x.gridBelow power) power = true ∨
      x.readsBack (x.gridBelow power + 1) power = true) :
    ∃ coefficient, x.neighbour? tie power = some coefficient := by
  unfold gridBelow at h
  unfold neighbour?
  simp only
  obtain below | above := h
  · rw [below]
    split <;> simp_all
  · rw [above]
    split <;> simp_all

theorem exists_neighbour?_seventeen {x : Finite64} (nonzero : x.rank ≠ 0) (tie : Tie) :
    ∃ coefficient, x.neighbour? tie (x.leading - 17) = some coefficient := by
  have leads := pow_leading_le nonzero
  have below := x.gridBelow_le (x.leading - 17)
  have above := x.lt_gridBelow (x.leading - 17)
  have positive : (0 : ℚ) < 10 ^ (x.leading - 17) := by positivity
  have split : (10 : ℚ) ^ (x.leading - 1) = 10 ^ (x.leading - 17) * 10 ^ 16 := by
    rw [← zpow_natCast, ← zpow_add₀ (by norm_num)]
    congr 1
    omega
  refine exists_neighbour? tie ?_
  rw [readsBack_iff, readsBack_iff]
  generalize x.gridBelow (x.leading - 17) = coefficient at below above
  rw [split] at leads
  generalize (10 : ℚ) ^ (x.leading - 17) = step at *
  push_cast at above
  obtain near | far := le_or_gt (2 * (x.absolute - coefficient * step)) step
  · refine .inl (nearestPlace_of_close (by positivity) ?_).symm
    rw [abs_of_nonpos (by linarith)]
    linarith
  · refine .inr (nearestPlace_of_close (by positivity) ?_).symm
    push_cast
    rw [abs_of_nonneg (by linarith)]
    linarith

theorem exists_shortest_eq {x : Finite64} (nonzero : x.rank ≠ 0) (tie : Tie) :
    ∃ coefficient power, x.shortest tie = .ofScientific coefficient power ∧
      x.rank = nearestPlace (coefficient * (10 : ℚ) ^ power) ∧ x.leading - 17 ≤ power ∧
      power < x.leading ∧ coefficient ≤ x.gridBelow power + 1 := by
  unfold shortest
  simp only
  generalize grids_eq : List.map _ (List.range 17) = grids
  cases found : grids.findSome? fun power =>
      (x.neighbour? tie power).map fun coefficient => Significand.ofScientific coefficient power with
  | some s =>
    obtain ⟨power, member, hit⟩ := List.exists_of_findSome?_eq_some found
    obtain ⟨coefficient, near, rfl⟩ := Option.map_eq_some_iff.mp hit
    obtain ⟨reads, bound⟩ := readsBack_of_neighbour? near
    rw [← grids_eq] at member
    obtain ⟨count, within, rfl⟩ := List.mem_map.mp member
    rw [List.mem_range] at within
    exact ⟨coefficient, _, rfl, readsBack_iff.mp reads, by omega, by omega, bound⟩
  | none =>
    obtain ⟨coefficient, near⟩ := exists_neighbour?_seventeen nonzero tie
    have last : x.leading - 17 ∈ grids := by
      rw [← grids_eq]
      exact List.mem_map.mpr ⟨16, by decide, by omega⟩
    have missing := List.findSome?_eq_none_iff.mp found _ last
    rw [near] at missing
    cases missing

end Finite64
end RecordFilter
