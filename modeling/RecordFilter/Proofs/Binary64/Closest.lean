import RecordFilter.Proofs.Binary64.Precision

/-! Whole numbers as floating-point numbers. The one that is chosen is not farther from the whole number
than any other, and of two equally near ones it is the one at an even place. -/

namespace RecordFilter.Finite64

theorem roundHalfEven_of_half {n d r : Nat} (positive : 0 < d) (half : 2 * n = (2 * r + 1) * d) :
    roundHalfEven n d % 2 = 0 := by
  have middle : (2 * r + 1) * d = 2 * (r * d) + d := by ring
  have lower : r ≤ roundHalfEven n d := le_roundHalfEven positive (by omega)
  have upper : roundHalfEven n d ≤ r + 1 := roundHalfEven_le positive (by rw [Nat.succ_mul]; omega)
  have tie : roundHalfEven n d ≤ r ↔ r % 2 = 0 := by
    rw [roundHalfEven_le_iff positive, half]
    simp
  omega

theorem nearestRank_of_middle {n d rank : Nat} (positive : 0 < d)
    (middle : 2 * n = (2 * unitsAt rank + spacing rank) * d) : nearestRank n d % 2 = 0 := by
  obtain ⟨shift, digits, place, lower, upper, run⟩ := exists_run rank
  have half : 2 * n = (2 * digits + 1) * (d * 2 ^ shift) := by
    rw [middle, spacing, run, place, unitsAt_run lower upper.le]
    ring
  have same : shiftOf (n / d) = shift := by
    have step : 0 < spacing rank * d := Nat.mul_pos (Nat.pow_pos (by decide)) positive
    rw [Nat.add_mul, Nat.mul_assoc] at middle
    have least : unitsAt rank ≤ n / d := (Nat.le_div_iff_mul_le positive).mpr (by omega)
    have most : n / d < unitsAt rank + spacing rank := by
      rw [Nat.div_lt_iff_lt_mul positive, Nat.add_mul]
      omega
    refine Nat.le_antisymm ?_ (run ▸ shiftOf_mono least)
    by_contra beyond
    -- A later run starts at the upper neighbour or beyond it.
    have start := le_of_shiftOf (Nat.zero_lt_of_lt (Nat.lt_of_not_le beyond))
    have power : 2 ^ 53 * spacing rank ≤ 2 ^ (52 + shiftOf (n / d)) := by
      rw [spacing, run, ← Nat.pow_add]
      exact Nat.pow_le_pow_right (by decide) (by omega)
    have reach := unitsAt_add_spacing_le rank
    omega
  have even := roundHalfEven_of_half (step_pos positive shift) half
  have runs : shift * binade = 2 * (shift * 2 ^ 51) := by
    rw [binade_eq]
    ring
  rw [nearestRank_eq, same, runs]
  omega

section
variable {a rank : Nat} (nearest : nearestRank a 1 = rank)
include nearest

theorem before_middle_above : 2 * a ≤ unitsAt rank + unitsAt (rank + 1) ∧
    (2 * a = unitsAt rank + unitsAt (rank + 1) → rank % 2 = 0) := by
  have next := unitsAt_succ rank
  constructor
  · by_contra beyond
    have bound : rank < nearestRank a 1 := lt_nearestRank_of_lt Nat.one_pos (by omega)
    omega
  · intro middle
    have half : 2 * a = (2 * unitsAt rank + spacing rank) * 1 := by omega
    rw [← nearest]
    exact nearestRank_of_middle Nat.one_pos half

theorem behind_middle_below (positive : 0 < rank) : unitsAt (rank - 1) + unitsAt rank ≤ 2 * a ∧
    (2 * a = unitsAt (rank - 1) + unitsAt rank → rank % 2 = 0) := by
  have next := unitsAt_succ (rank - 1)
  rw [Nat.sub_add_cancel positive] at next
  constructor
  · by_contra before
    have bound : nearestRank a 1 ≤ rank - 1 := nearestRank_le_of_lt Nat.one_pos (by omega)
    omega
  · intro middle
    have half : 2 * a = (2 * unitsAt (rank - 1) + spacing (rank - 1)) * 1 := by omega
    rw [← nearest]
    exact nearestRank_of_middle Nat.one_pos half

theorem natAbs_sub_nearestRank {other : Nat} (apart : other ≠ rank) :
    Int.natAbs (a - unitsAt rank) < Int.natAbs (a - unitsAt other) ∨
      Int.natAbs (a - unitsAt rank) = Int.natAbs (a - unitsAt other) ∧ rank % 2 = 0 := by
  obtain below | above := Nat.lt_or_gt_of_ne apart
  · obtain ⟨middle, even⟩ := behind_middle_below nearest (Nat.zero_lt_of_lt below)
    have order := unitsAt_le (show other ≤ rank - 1 by omega)
    have less := unitsAt_lt below
    omega
  · obtain ⟨middle, even⟩ := before_middle_above nearest
    have order := unitsAt_le (show rank + 1 ≤ other from above)
    have less := unitsAt_lt above
    omega

end

-- Nothing below depends on how long the numeral for the unit is.
attribute [local irreducible] unit

def distance (x : Finite64) (n : Int) : Nat := (n * unit - x.units).natAbs

/-- No other number is nearer to the whole one, and one that is just as near leaves it to the number at
an even place. -/
structure IsNearest (x : Finite64) (n : Int) : Prop where
  least : ∀ y : Finite64, x.distance n ≤ y.distance n
  even : ∀ y : Finite64, y.distance n = x.distance n → y.units ≠ x.units → x.rank % 2 = 0

theorem ofInt?_eq_some_iff {n : Int} {x : Finite64} :
    ofInt? n = some x ↔ x.negative = decide (n < 0) ∧ nearestRank (n.natAbs * unit) 1 = x.rank := by
  rw [ofInt?, ofScientific?_eq, zpow_zero, mul_one, ofRank?_eq_some_iff,
    nearestRank_eq_nearestPlace _ Nat.one_pos, Nat.cast_one, div_one, eq_comm (a := x.rank)]

theorem distance_eq (x : Finite64) (n : Int) :
    x.distance n = if x.negative = decide (n < 0) then Int.natAbs ((n.natAbs * unit : Nat) - x.magnitude)
      else n.natAbs * unit + x.magnitude := by
  rw [distance, units]
  generalize unit = unit
  have size : n * unit = if n < 0 then -((n.natAbs * unit : Nat) : Int) else (n.natAbs * unit : Nat) := by
    split
    · rw [Int.natCast_mul, ← Int.neg_mul, Int.ofNat_natAbs_of_nonpos (by omega), Int.neg_neg]
    · rw [Int.natCast_mul, Int.natAbs_of_nonneg (by omega)]
  rw [size]
  generalize n.natAbs * unit = a
  cases x.negative <;> by_cases below : n < 0 <;> simp [below] <;> omega

theorem isNearest_of_ofInt? {n : Int} {x : Finite64} (chosen : ofInt? n = some x) : x.IsNearest n := by
  obtain ⟨sign, place⟩ := ofInt?_eq_some_iff.mp chosen
  have others (y : Finite64) : y.magnitude = x.magnitude ∨
      Int.natAbs ((n.natAbs * unit : Nat) - x.magnitude) <
        Int.natAbs ((n.natAbs * unit : Nat) - y.magnitude) ∨
      Int.natAbs ((n.natAbs * unit : Nat) - x.magnitude) =
        Int.natAbs ((n.natAbs * unit : Nat) - y.magnitude) ∧ x.rank % 2 = 0 := by
    by_cases same : y.rank = x.rank
    · exact .inl (congrArg unitsAt same)
    · exact .inr (natAbs_sub_nearestRank place same)
  -- Zero is one of the others, so a number of the other sign is never nearer.
  have origin := others (zero false)
  have none : (zero false).magnitude = 0 := unitsAt_zero
  constructor <;> intro y
  · have other := others y
    rw [distance_eq, distance_eq, if_pos sign]
    generalize n.natAbs * unit = a at *
    split <;> omega
  · have other := others y
    rw [distance_eq, distance_eq, if_pos sign, units, units, sign]
    generalize n.natAbs * unit = a at *
    cases y.negative <;> cases decide (n < 0) <;> simp <;> omega

end RecordFilter.Finite64
