import RecordFilter.Proofs.Binary64.ReadBack
import RecordFilter.Proofs.Filter.Leaves
import RecordFilter.Proofs.Json.Compact
import RecordFilter.Proofs.Record.Paths

/-! The same record as a JSON document and as a value. Conversion keeps every node that a path leads
to; only whole numbers beyond the signed 64-bit ones are replaced, and only there texts may differ. -/

namespace RecordFilter

open Document (replaceNumbers)

namespace Finite64

-- Nothing below depends on how long the numeral for the unit is.
attribute [local irreducible] unit

theorem plus_mem_jsonText {x : Finite64} (large : nearestPlace (2 ^ 54) < x.rank) :
    '+' ∈ x.jsonText := by
  have nonzero : x.rank ≠ 0 := by omega
  obtain ⟨coefficient, power, written, place, -⟩ := exists_shortest_eq nonzero .even
  rw [← Significand.value_ofScientific, ← written] at place
  have all := Significand.digits_ofScientific coefficient power
  rw [← written] at all
  have beyond : 16 < (x.shortest .even).point := by
    by_contra within
    have digits : (Text.digitsValue (x.shortest .even).digits : ℚ) ≤
        10 ^ (x.shortest .even).digits.length := by
      exact_mod_cast (Text.digitsValue_lt all).le
    have small : (x.shortest .even).value ≤ 2 ^ 54 := calc
      (x.shortest .even).value ≤ 10 ^ (x.shortest .even).digits.length
          * 10 ^ ((x.shortest .even).point - (x.shortest .even).digits.length) :=
        mul_le_mul_of_nonneg_right digits (by positivity)
      _ = 10 ^ (x.shortest .even).point := by
        rw [← zpow_natCast, ← zpow_add₀ (by norm_num), add_sub_cancel]
      _ ≤ 10 ^ (16 : Int) := zpow_le_zpow_right₀ (by norm_num) (by omega)
      _ ≤ 2 ^ 54 := by norm_num
    have nonneg : 0 ≤ (x.shortest .even).value :=
      mul_nonneg (Nat.cast_nonneg _) (zpow_nonneg (by norm_num) _)
    have bound := nearestPlace_mono nonneg small
    omega
  have mark : '+' ∈ (x.shortest .even).scientific := by
    have sign : ¬(x.shortest .even).point - 1 < 0 := by omega
    rw [Significand.scientific]
    simp only [if_neg sign]
    exact List.mem_append_right _ (List.mem_cons_of_mem _ List.mem_cons_self)
  rw [jsonText, if_neg nonzero, if_neg (by omega), signed]
  split
  · exact List.mem_cons_of_mem _ mark
  · exact mark

end Finite64

namespace Json.Number

def IsWide : Number → Prop
  | integer n _ => 2 ^ 63 ≤ n
  | float _ => False

instance : DecidablePred IsWide
  | integer n _ => inferInstanceAs (Decidable (2 ^ 63 ≤ n))
  | float _ => inferInstanceAs (Decidable False)

end Json.Number

namespace Value

def kept (n : Json.Number) : Json := ((Number.ofJson n).toJson?).elim .null .number

theorem toJson_ofJson (j : Json) : Record.toJson (ofJson j) = replaceNumbers kept j :=
  Document.replaceNumbers_replaceNumbers _ _ j

theorem ofJson_of_not_isWide {n : Json.Number} (h : ¬n.IsWide) :
    RecordNumber.fieldText (Number.ofJson n) = RecordNumber.fieldText n ∧ kept n = .number n := by
  cases n with
  | integer n range =>
    have narrow : -9223372036854775808 ≤ n ∧ n < 9223372036854775808 := by
      have below : ¬ (2 ^ 63 ≤ n) := h
      exact ⟨range.1, by omega⟩
    have same : Number.ofJson (.integer n range) = .integer n narrow := by
      rw [Number.ofJson, Number.ofInt?, dif_pos narrow]
      rfl
    rw [kept, same]
    exact ⟨rfl, rfl⟩
  | float x => exact ⟨rfl, rfl⟩

theorem exists_ofJson_of_isWide {n : Json.Number} (h : n.IsWide) :
    ∃ x : Finite64, Number.ofJson n = .float (.finite x) ∧
      Finite64.nearestPlace (2 ^ 54) < x.rank := by
  cases n with
  | float x => exact h.elim
  | integer n range =>
    have wide : 2 ^ 63 ≤ n := h
    have lower : (2 : ℚ) ^ 63 ≤ n.natAbs := by
      have size : 2 ^ 63 ≤ n.natAbs := by omega
      exact_mod_cast size
    have upper : (n.natAbs : ℚ) ≤ 2 ^ 64 := by
      have size : n.natAbs ≤ 2 ^ 64 := by omega
      exact_mod_cast size
    have least := Finite64.nearestPlace_mono (by norm_num) lower
    have most := Finite64.nearestPlace_mono (by positivity) upper
    have separate : Finite64.nearestPlace (2 ^ 54) < Finite64.nearestPlace (2 ^ 63) := by
      rw [Finite64.nearestPlace_two_pow, Finite64.nearestPlace_two_pow]
      decide
    have finite : Finite64.nearestPlace (2 ^ 64) < Finite64.places := by
      rw [Finite64.nearestPlace_two_pow]
      decide
    have bound : Finite64.nearestPlace n.natAbs < Finite64.places := by omega
    refine ⟨⟨decide (n < 0), Finite64.nearestPlace n.natAbs, bound⟩, ?_, by simp only; omega⟩
    have read : Finite64.ofInt? n = some ⟨decide (n < 0), Finite64.nearestPlace n.natAbs, bound⟩ := by
      rw [Finite64.ofInt?, Finite64.ofScientific?_eq, zpow_zero, mul_one, Finite64.ofRank?, dif_pos bound]
    have beyond : ¬(-9223372036854775808 ≤ n ∧ n < 9223372036854775808) := by omega
    rw [Number.ofJson, Number.ofInt?, dif_neg beyond, Option.getD_none, Number.nearestFloat, read]

theorem not_plus_mem_text {n : Json.Number} (h : n.IsWide) : n.text.count '+' = 0 := by
  cases n with
  | float x => exact h.elim
  | integer n range =>
    obtain ⟨n, rfl⟩ : ∃ m : Nat, n = m := Int.eq_ofNat_of_zero_le (by
      have wide : 2 ^ 63 ≤ n := h
      omega)
    refine List.count_eq_zero.mpr fun member => ?_
    have digit := Text.digits_ofNat n '+' member
    cases digit

theorem count_plus_kept (n : Json.Number) :
    n.text.count '+' ≤ (Json.compact (kept n)).count '+' ∧
      (n.IsWide → n.text.count '+' < (Json.compact (kept n)).count '+') := by
  by_cases wide : n.IsWide
  · obtain ⟨x, replaced, large⟩ := exists_ofJson_of_isWide wide
    have text : Json.compact (kept n) = x.jsonText := by
      rw [kept, replaced]
      rfl
    have plus := List.count_pos_iff.mpr (Finite64.plus_mem_jsonText large)
    rw [text, not_plus_mem_text wide]
    exact ⟨plus.le, fun _ => plus⟩
  · rw [(ofJson_of_not_isWide wide).2]
    exact ⟨le_rfl, fun h => absurd h wide⟩

theorem compact_replaceNumbers_kept_iff (d : Json) :
    Json.compact (replaceNumbers kept d) = Json.compact d ↔ ∀ n ∈ d.numbers, ¬n.IsWide := by
  constructor
  · intro same n inside wide
    have gains := Json.count_compact_replaceNumbers '+'
      (fun n => (Nat.add_sub_cancel' (count_plus_kept n).1).symm) d
    rw [same] at gains
    have none := List.sum_eq_zero_iff.mp (Nat.left_eq_add.mp gains) _ (List.mem_map_of_mem inside)
    have gain := (count_plus_kept n).2 wide
    omega
  · intro narrow
    rw [Document.replaceNumbers_congr fun n inside => (ofJson_of_not_isWide (narrow n inside)).2,
      Document.replaceNumbers_number]

end Value

namespace Record

/-- Nodes that conversion leaves with the same text: no wide number inside, or a wide number that is
written like the floating-point number nearest to it. -/
def Keeps : Json → Prop
  | .number n =>
    n.IsWide → RecordNumber.fieldText (Value.Number.ofJson n) = RecordNumber.fieldText n
  | node => ∀ n ∈ node.numbers, ¬n.IsWide

theorem text?_ofJson_iff (node : Json) :
    text? (Value.ofJson node) = text? node ↔ Keeps node := by
  cases node with
  | number n =>
    have text : text? (Value.ofJson (.number n)) =
        some (RecordNumber.fieldText (Value.Number.ofJson n)) := rfl
    rw [text, text?, Option.some_inj, Keeps]
    refine ⟨fun same _ => same, fun keeps => ?_⟩
    by_cases wide : n.IsWide
    · exact keeps wide
    · exact (Value.ofJson_of_not_isWide wide).1
  | array items =>
    have text : text? (.array items : Json) = some (toJson (.array items : Json)).compact := rfl
    rw [Value.ofJson, text?_replaceNumbers_array, ← Value.ofJson, text, Option.some_inj,
      Value.toJson_ofJson, toJson_json]
    exact Value.compact_replaceNumbers_kept_iff _
  | object members =>
    have text : text? (.object members : Json) = some (toJson (.object members : Json)).compact := rfl
    rw [Value.ofJson, text?_replaceNumbers_object, ← Value.ofJson, text, Option.some_inj,
      Value.toJson_ofJson, toJson_json]
    exact Value.compact_replaceNumbers_kept_iff _
  | _ => exact ⟨fun _ n inside => absurd inside List.not_mem_nil, fun _ => rfl⟩

theorem foldlM_child?_ofJson (segments : List Text) (j : Json) :
    segments.foldlM child? (Value.ofJson j) = (segments.foldlM child? j).map Value.ofJson :=
  foldlM_child?_replaceNumbers (fun _ _ => rfl) segments j

theorem Keeps.of_numbers {node : Json} (h : ∀ n ∈ node.numbers, ¬n.IsWide) : Keeps node := by
  cases node with
  | number n => exact fun wide => absurd wide (h n (List.mem_singleton_self n))
  | _ => exact h

theorem lookup_ofJson_iff (j : Json) (path : Text) (separator : Char) :
    lookup (Value.ofJson j) path separator = lookup j path separator ↔
      ∀ node, (path.splitOn separator).foldlM child? j = some node → Keeps node := by
  rw [lookup, lookup, foldlM_child?_ofJson]
  cases (path.splitOn separator).foldlM child? j with
  | none => simp
  | some node => simpa using text?_ofJson_iff node

end Record

/-- The two records answer alike at every path that does not lead to a wide whole number, or to a
container of one; so filters that look nowhere else give one verdict on both, and without wide numbers
the records agree throughout. -/
theorem Record.ofJson_agrees (j : Json) (separator : Char) :
    (∀ path, lookup (Value.ofJson j) path separator = lookup j path separator ↔
      ∀ node, (path.splitOn separator).foldlM child? j = some node → Keeps node) ∧
    (∀ f : Filter,
      (∀ p ∈ f.leaves, ∀ node, (p.field.splitOn separator).foldlM child? j = some node → Keeps node) →
        f.holds (Value.ofJson j) separator = f.holds j separator) ∧
    ((∀ n ∈ j.numbers, ¬n.IsWide) →
      ∀ path, lookup (Value.ofJson j) path separator = lookup j path separator) := by
  refine ⟨fun path => lookup_ofJson_iff j path separator, fun f keeps => Filter.eval_congr ?_, ?_⟩
  · intro p member
    rw [Predicate.holds, Predicate.holds, (lookup_ofJson_iff j p.field separator).mpr (keeps p member)]
  · intro narrow path
    refine (lookup_ofJson_iff j path separator).mpr fun node found => .of_numbers fun n inside => ?_
    exact narrow n (numbers_foldlM_child? found n inside)

/-- The greatest whole number of all does not keep its text. -/
theorem Record.lookup_ofJson_greatest :
    ¬∀ (j : Json) (path : Text) (separator : Char),
      lookup (Value.ofJson j) path separator = lookup j path separator := by
  intro always
  have same := always (.object [(['a'], .number (.integer 18446744073709551615 (by decide)))]) ['a'] '.'
  revert same
  decide +kernel

theorem Record.ofJson_agrees_beside_wide :
    let record : Json := .object [(['a'], .array [.number (.integer 1 (by decide))]),
      (['b'], .number (.integer 18446744073709551615 (by decide)))]
    let first : Predicate := ⟨['a', '.', '0'], .atLeast, ['1'], nofun⟩
    (∃ n ∈ record.numbers, n.IsWide) ∧
      (Filter.leaf first).holds (Value.ofJson record) '.' = (Filter.leaf first).holds record '.' := by
  intro record first
  refine ⟨⟨.integer 18446744073709551615 (by decide), by decide +kernel, by decide⟩, ?_⟩
  refine (Record.ofJson_agrees record '.').2.1 (.leaf first) fun p member node found => ?_
  obtain rfl := List.mem_singleton.mp member
  have one : (first.field.splitOn '.').foldlM child? record =
      some (.number (.integer 1 (by decide))) := rfl
  obtain rfl := Option.some_inj.mp (one.symm.trans found)
  exact fun wide => absurd wide (by decide)

end RecordFilter
