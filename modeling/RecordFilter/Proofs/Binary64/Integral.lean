import RecordFilter.Proofs.Binary64.ReadBack
import RecordFilter.Proofs.Json.NumberText

/-! Whole numbers among the floating-point ones. Up to `2 ^ 53` every whole number has a place of its
own, and no shorter decimal reads back as it than its own digits; so it is written as a whole number. -/

namespace RecordFilter

namespace Text

theorem ofNat_mul_pow {n : Nat} (positive : 0 < n) (count : Nat) :
    ofNat (n * 10 ^ count) = ofNat n ++ List.replicate count '0' := by
  induction count with
  | zero => rw [Nat.pow_zero, Nat.mul_one, List.replicate_zero, List.append_nil]
  | succ count ih =>
    have grown : 0 < n * 10 ^ count := Nat.mul_pos positive (Nat.pow_pos (by decide))
    have ten : n * 10 ^ (count + 1) = 10 * (n * 10 ^ count) + 0 := by ring
    have zero : ['0'] = Nat.toDigits 10 0 := rfl
    rw [List.replicate_succ', ← List.append_assoc, ← ih, ofNat, ofNat, ten, zero]
    exact (Nat.toDigits_append_toDigits (by decide) grown (by decide)).symm

end Text

namespace Significand

theorem positional_of_length_le {s : Significand} (positive : 0 < s.point)
    (behind : (s.digits.length : Int) ≤ s.point) :
    s.positional = s.digits ++ zeros (s.point - s.digits.length) := by
  have fraction : s.fraction = [] := by
    have none : (-s.point).toNat = 0 := by omega
    rw [Significand.fraction, zeros, none, List.drop_eq_nil_of_le (by omega)]
    rfl
  rw [positional, fraction, List.isEmpty_nil, if_pos rfl, whole, if_neg (by omega),
    List.take_of_length_le (by omega)]

theorem positional_ofScientific {coefficient : Nat} (positive : 0 < coefficient) (count : Nat) :
    (ofScientific coefficient count).positional = Text.ofNat (coefficient * 10 ^ count) := by
  obtain ⟨dropped, split⟩ := exists_append_zeros (Text.ofNat coefficient)
  have length := congrArg List.length split
  rw [List.length_append, List.length_replicate] at length
  have nonempty := List.length_pos_iff.mpr (Text.ofNat_ne_nil coefficient)
  have digits : (ofScientific coefficient count).digits = trimZeros (Text.ofNat coefficient) := rfl
  have point : (ofScientific coefficient count).point = count + (Text.ofNat coefficient).length := rfl
  have inside : 0 < (ofScientific coefficient count).point := by omega
  have behind : ((ofScientific coefficient count).digits.length : Int) ≤
      (ofScientific coefficient count).point := by
    rw [point, digits]
    omega
  have places : ((ofScientific coefficient count).point -
      (ofScientific coefficient count).digits.length).toNat = dropped + count := by
    rw [point, digits]
    omega
  rw [positional_of_length_le inside behind, zeros, places, digits, List.replicate_add,
    ← List.append_assoc, ← split, Text.ofNat_mul_pow positive]

end Significand

namespace Finite64

-- Nothing below depends on how long the numeral for the unit is.
attribute [local irreducible] unit

theorem exists_unitsAt_eq {k : Nat} (bound : k ≤ 2 ^ 53) (shift : Nat) :
    ∃ rank, unitsAt rank = k * 2 ^ shift * unit := by
  obtain rfl | positive := Nat.eq_zero_or_pos k
  · exact ⟨0, by rw [unitsAt_zero, Nat.zero_mul, Nat.zero_mul]⟩
  obtain ⟨exponent, large, unit_eq⟩ := exists_unit_eq
  have least := Nat.log2_self_le positive.ne'
  have most := @Nat.lt_log2_self k
  -- The digits fill a run of places.
  have lower : 2 ^ 52 ≤ k * 2 ^ (52 - k.log2) := calc
    2 ^ 52 ≤ 2 ^ (k.log2 + (52 - k.log2)) := Nat.pow_le_pow_right (by decide) (by omega)
    _ = 2 ^ k.log2 * 2 ^ (52 - k.log2) := Nat.pow_add _ _ _
    _ ≤ k * 2 ^ (52 - k.log2) := Nat.mul_le_mul_right _ least
  have upper : k * 2 ^ (52 - k.log2) ≤ 2 ^ 53 := by
    obtain short | long := Nat.le_total k.log2 52
    · calc k * 2 ^ (52 - k.log2) ≤ 2 ^ (k.log2 + 1) * 2 ^ (52 - k.log2) := Nat.mul_le_mul_right _ most.le
        _ = 2 ^ 53 := by rw [← Nat.pow_add]; congr 1; omega
    · rw [Nat.sub_eq_zero_of_le long, Nat.pow_zero, Nat.mul_one]
      exact bound
  have split : 2 ^ (52 - k.log2) * 2 ^ (exponent + shift - (52 - k.log2)) = 2 ^ shift * 2 ^ exponent := by
    rw [← Nat.pow_add, ← Nat.pow_add]
    congr 1
    omega
  refine ⟨(exponent + shift - (52 - k.log2)) * binade + k * 2 ^ (52 - k.log2), ?_⟩
  rw [unitsAt_run (fun _ => lower) upper, unit_eq, Nat.mul_assoc, split, Nat.mul_assoc]

theorem unitsAt_nearestPlace {k : Nat} (bound : k ≤ 2 ^ 53) (shift : Nat) :
    unitsAt (nearestPlace (k * 2 ^ shift : Nat)) = k * 2 ^ shift * unit := by
  obtain ⟨rank, units⟩ := exists_unitsAt_eq bound shift
  have place := nearestPlace_unitsAt rank
  rw [units, Nat.cast_mul, mul_div_cancel_right₀ _ unit_cast_pos.ne'] at place
  rw [place, units]

theorem eq_of_nearestPlace_eq {c m : Nat} (bound : m ≤ 2 ^ 53) (apart : c ≤ 2 ^ 53 ∨ 2 ∣ c)
    (same : nearestPlace c = nearestPlace m) : c = m := by
  have units := unitsAt_nearestPlace bound 0
  rw [Nat.pow_zero, Nat.mul_one, ← same] at units
  obtain within | beyond := Nat.lt_or_ge (2 ^ 53) c |>.symm
  · have units' := unitsAt_nearestPlace within 0
    rw [Nat.pow_zero, Nat.mul_one, units] at units'
    exact (Nat.mul_right_cancel unit_pos units').symm
  · have next : (2 ^ 52 + 1) * 2 ^ 1 ≤ c := by omega
    have places := nearestPlace_mono (Nat.cast_nonneg _) (Nat.cast_le (α := ℚ).mpr next)
    have above := unitsAt_le places
    rw [unitsAt_nearestPlace (by decide), units] at above
    have order := Nat.le_of_mul_le_mul_right above unit_pos
    omega

theorem neighbour?_of_grid {x : Finite64} {power : Int} {m : Nat} (tie : Tie)
    (grid : (x.inSteps power).1 = m * (x.inSteps power).2) (reads : x.readsBack m power = true) :
    x.neighbour? tie power = some m := by
  have positive := x.inSteps_pos power
  unfold neighbour?
  simp only [grid, Nat.mul_div_cancel _ positive, Nat.mul_mod_left, Nat.mul_zero, positive, true_or,
    if_true, reads]
  cases x.readsBack (m + 1) power <;> rfl

theorem exists_findSome?_eq_of_decreasing {α : Type} {f : Int → Option α} {grids : List Int}
    (decreasing : grids.Pairwise (· > ·)) {grid : Int} (member : grid ∈ grids) {a : α}
    (hit : f grid = some a) : ∃ power ≥ grid, ∃ b, f power = some b ∧ grids.findSome? f = some b := by
  induction grids with
  | nil => cases member
  | cons first grids ih =>
    obtain ⟨greatest, decreasing⟩ := List.pairwise_cons.mp decreasing
    rw [List.findSome?_cons]
    cases found : f first with
    | some b =>
      obtain rfl | later := List.mem_cons.mp member
      · exact ⟨grid, le_rfl, b, found, rfl⟩
      · exact ⟨first, (greatest grid later).le, b, found, rfl⟩
    | none =>
      obtain rfl | later := List.mem_cons.mp member
      · rw [found] at hit
        cases hit
      · exact ih decreasing later

section
variable {x : Finite64} {m : Nat} (whole : x.magnitude = m * unit)
include whole

theorem absolute_of_whole : x.absolute = m := by
  rw [absolute, whole, Nat.cast_mul, mul_div_cancel_right₀ _ unit_cast_pos.ne']

theorem rank_eq_nearestPlace_of_whole : x.rank = nearestPlace m := by
  rw [← absolute_of_whole whole]
  exact (nearestPlace_unitsAt x.rank).symm

theorem leading_of_whole (positive : 0 < m) : x.leading = (Text.ofNat m).length := by
  rw [leading, whole, if_pos (Nat.le_mul_of_pos_left unit positive), Nat.mul_div_cancel _ unit_pos]

theorem neighbour?_zero_of_whole (tie : Tie) : x.neighbour? tie 0 = some m := by
  apply neighbour?_of_grid
  · have quotient := x.inSteps_eq 0
    have cast : ((x.inSteps 0).2 : ℚ) ≠ 0 := by exact_mod_cast (x.inSteps_pos 0).ne'
    rw [zpow_zero, div_one, absolute_of_whole whole, div_eq_iff cast] at quotient
    exact_mod_cast quotient
  · rw [readsBack_iff, zpow_zero, mul_one]
    exact rank_eq_nearestPlace_of_whole whole

theorem mul_pow_eq_of_neighbour? (bound : m ≤ 2 ^ 53) {tie : Tie} {up coefficient : Nat}
    (h : x.neighbour? tie up = some coefficient) : coefficient * 10 ^ up = m := by
  cases up with
  | zero =>
    obtain rfl := Option.some_inj.mp ((neighbour?_zero_of_whole whole tie).symm.trans h)
    rw [Nat.pow_zero, Nat.mul_one]
  | succ up =>
    have even : 2 ∣ coefficient * 10 ^ (up + 1) :=
      (dvd_pow (by decide : 2 ∣ 10) (Nat.succ_ne_zero up)).mul_left coefficient
    have reads := readsBack_iff.mp (readsBack_of_neighbour? h).1
    rw [rank_eq_nearestPlace_of_whole whole, zpow_natCast] at reads
    apply eq_of_nearestPlace_eq bound (.inr even)
    rw [reads, Nat.cast_mul, Nat.cast_pow, Nat.cast_ofNat]

theorem exists_shortest_eq_of_whole (positive : 0 < m) (bound : m ≤ 2 ^ 53) (tie : Tie) :
    ∃ coefficient count : Nat, x.shortest tie = .ofScientific coefficient count ∧
      coefficient * 10 ^ count = m := by
  have leads := leading_of_whole whole positive
  have some := List.length_pos_iff.mpr (Text.ofNat_ne_nil m)
  have short : (Text.ofNat m).length ≤ 16 :=
    (Nat.length_toDigits_le_iff (by decide) (by decide)).mpr (bound.trans_lt (by decide))
  unfold shortest
  simp only
  generalize grids_eq : List.map _ (List.range 17) = grids
  have decreasing : grids.Pairwise (· > ·) := by
    rw [← grids_eq, List.pairwise_map]
    exact List.pairwise_lt_range.imp fun less => by omega
  have member : (0 : Int) ∈ grids := by
    rw [← grids_eq]
    exact List.mem_map.mpr ⟨(Text.ofNat m).length - 1, List.mem_range.mpr (by omega), by omega⟩
  obtain ⟨power, reached, s, hit, found⟩ :=
    exists_findSome?_eq_of_decreasing decreasing member
      (f := fun power => (x.neighbour? tie power).map fun c => Significand.ofScientific c power)
      (congrArg _ (neighbour?_zero_of_whole whole tie))
  obtain ⟨coefficient, near, rfl⟩ := Option.map_eq_some_iff.mp hit
  obtain ⟨count, rfl⟩ := Int.eq_ofNat_of_zero_le reached
  rw [found]
  exact ⟨coefficient, count, rfl, mul_pow_eq_of_neighbour? whole bound near⟩

end

theorem rank_eq_zero_of_magnitude {x : Finite64} (h : x.magnitude = 0) : x.rank = 0 := by
  by_contra nonzero
  exact absurd h (magnitude_pos nonzero).ne'

theorem eq_zero_of_rank {x : Finite64} (h : x.rank = 0) : x = zero x.negative := by
  obtain ⟨negative, rank, bound⟩ := x
  obtain rfl : rank = 0 := h
  rfl

section
variable {x : Finite64} {z : Int} (same : x.units = z * unit)
include same

theorem magnitude_of_units : x.magnitude = z.natAbs * unit := by
  have size := congrArg Int.natAbs same
  rw [Int.natAbs_mul, Int.natAbs_natCast] at size
  rw [← size, units]
  split <;> omega

theorem negative_of_units (nonzero : z ≠ 0) : x.negative = decide (z < 0) := by
  have cast : (unit : Int) ≠ 0 := by exact_mod_cast unit_pos.ne'
  have value := same
  rw [units, magnitude_of_units same, Nat.cast_mul] at value
  cases negative : x.negative with
  | true =>
    rw [negative, if_pos rfl, ← Int.neg_mul] at value
    have sign := Int.eq_of_mul_eq_mul_right cast value
    exact (decide_eq_true (by omega)).symm
  | false =>
    rw [negative, if_neg Bool.false_ne_true] at value
    have sign := Int.eq_of_mul_eq_mul_right cast value
    exact (decide_eq_false (by omega)).symm

theorem fieldText_of_whole (bound : z.natAbs ≤ 2 ^ 53) (unlike : x ≠ zero true) :
    x.fieldText = Text.ofInt z := by
  have whole := magnitude_of_units same
  obtain rfl | nonzero := eq_or_ne z 0
  · rw [Int.natAbs_zero, Nat.zero_mul] at whole
    have rank := rank_eq_zero_of_magnitude whole
    have positive : x.negative = false := by
      by_contra negative
      rw [Bool.not_eq_false] at negative
      exact unlike (negative ▸ eq_zero_of_rank rank)
    rw [fieldText, if_pos rank, signed, positive]
    rfl
  · have some : 0 < z.natAbs := Int.natAbs_pos.mpr nonzero
    have rank : x.rank ≠ 0 := by
      intro zero
      rw [magnitude, zero, unitsAt_zero] at whole
      exact absurd whole (Nat.mul_pos some unit_pos).ne
    obtain ⟨coefficient, count, shortest, value⟩ := exists_shortest_eq_of_whole whole some bound .upward
    have positive : 0 < coefficient := Nat.pos_of_mul_pos_right (value ▸ some)
    rw [fieldText, if_neg rank, shortest, Significand.positional_ofScientific positive, value, signed_eq,
      negative_of_units same nonzero, ← Text.ofInt_eq]

end
end Finite64
end RecordFilter
