import RecordFilter.Proofs.Binary64.Closest
import RecordFilter.Proofs.Record.Conversion
import RecordFilter.Proofs.Record.NonFinite

/-! From JSON to values and back, and the other way round. On the first way only wide whole numbers are
lost, each to the floating-point number nearest to it, on the second only the numbers that JSON lacks. -/

namespace RecordFilter.Value

open Document (replaceNumbers Replaced)

namespace Number

theorem nearestFloat_eq_finite_iff {n : Int} {x : Finite64} :
    nearestFloat n = .finite x ↔ Finite64.ofInt? n = some x := by
  unfold nearestFloat
  cases Finite64.ofInt? n <;> simp

theorem exists_ofJson_eq_nearest {n : Int} (range : -9223372036854775808 ≤ n ∧ n < 18446744073709551616)
    (wide : 2 ^ 63 ≤ n) : ∃ x : Finite64, ofJson (.integer n range) = .float (.finite x) ∧ x.IsNearest n := by
  obtain ⟨x, replaced, -⟩ := exists_ofJson_of_isWide (n := .integer n range) wide
  refine ⟨x, replaced, Finite64.isNearest_of_ofInt? (nearestFloat_eq_finite_iff.mp ?_)⟩
  have beyond : ¬(-9223372036854775808 ≤ n ∧ n < 9223372036854775808) := by omega
  rw [ofJson, ofInt?, dif_neg beyond, Option.getD_none] at replaced
  exact float.inj replaced

end Number

inductive Narrows : Json.Number → Json → Prop where
  | kept {n : Json.Number} (narrow : ¬n.IsWide) : Narrows n (.number n)
  | rounded {n : Int} {range : -9223372036854775808 ≤ n ∧ n < 18446744073709551616} {x : Finite64}
      (wide : 2 ^ 63 ≤ n) (nearest : x.IsNearest n) : Narrows (.integer n range) (.number (.float x))

theorem narrows_kept (n : Json.Number) : Narrows n (kept n) := by
  by_cases wide : n.IsWide
  · cases n with
    | float x => exact wide.elim
    | integer n range =>
      obtain ⟨x, replaced, nearest⟩ := Number.exists_ofJson_eq_nearest range wide
      rw [kept, replaced]
      exact .rounded wide nearest
  · rw [(ofJson_of_not_isWide wide).2]
    exact .kept wide

theorem kept_eq_self_iff {n : Json.Number} : kept n = .number n ↔ ¬n.IsWide := by
  refine ⟨fun same wide => ?_, fun narrow => (ofJson_of_not_isWide narrow).2⟩
  have narrows := narrows_kept n
  rw [same] at narrows
  cases narrows with
  | kept narrow => exact narrow wide

/-- A JSON document that becomes a value and a JSON document again is the same if none of its whole
numbers is wide; each of those, and nothing else, has become the floating-point number nearest to it. -/
theorem toJson_ofJson_replaced (j : Json) :
    (toJson (ofJson j) = j ↔ ∀ n ∈ j.numbers, ¬n.IsWide) ∧ Replaced Narrows j (toJson (ofJson j)) := by
  have back : toJson (ofJson j) = replaceNumbers kept j := toJson_ofJson j
  rw [back]
  refine ⟨?_, Document.replaced_replaceNumbers narrows_kept j⟩
  simp only [Document.replaceNumbers_eq_self_iff, kept_eq_self_iff]

inductive Settles : Number → Value → Prop where
  | kept {n : Number} (finite : n.IsFinite) : Settles n (.number n)
  | dropped {n : Number} (infinite : ¬n.IsFinite) : Settles n .null

def settled (n : Number) : Value := ofJson (n.toJson?.elim .null .number)

theorem ofJson_toJson (v : Value) : ofJson (toJson v) = replaceNumbers settled v :=
  Document.replaceNumbers_replaceNumbers _ _ v

theorem settles_settled (n : Number) : Settles n (settled n) := by
  cases n with
  | integer n range =>
    have back : settled (.integer n range) = .number (.integer n range) := by
      have whole : Number.ofJson (.integer n ⟨range.1, Int.lt_trans range.2 (by decide)⟩) =
          .integer n range := by
        rw [Number.ofJson, Number.ofInt?, dif_pos range, Option.getD_some]
      exact congrArg Document.number whole
    rw [back]
    exact .kept trivial
  | float x =>
    cases x with
    | finite x => exact .kept trivial
    | infinite negative => exact .dropped id
    | nan => exact .dropped id

theorem settled_eq_self_iff {n : Number} : settled n = .number n ↔ n.IsFinite := by
  have settles := settles_settled n
  refine ⟨fun same => ?_, fun finite => ?_⟩
  · rw [same] at settles
    cases settles with
    | kept finite => exact finite
  · generalize settled n = v at settles ⊢
    cases settles with
    | kept => rfl
    | dropped infinite => exact absurd finite infinite

theorem toJson_settled (n : Number) : toJson (settled n) = n.toJson?.elim .null .number := by
  have settles := settles_settled n
  generalize settled n = v at settles ⊢
  cases settles with
  | kept => rfl
  | dropped infinite =>
    cases n with
    | integer n range => exact absurd trivial infinite
    | float x =>
      cases x with
      | finite x => exact absurd trivial infinite
      | _ => rfl

/-- A value that becomes JSON and a value again has null for each infinity and NaN, at any depth, and is
the same otherwise; the JSON does not change any more. -/
theorem ofJson_toJson_replaced (v : Value) :
    Replaced Settles v (ofJson (toJson v)) ∧
      (ofJson (toJson v) = v ↔ ∀ n ∈ v.numbers, n.IsFinite) ∧
      toJson (ofJson (toJson v)) = toJson v := by
  rw [ofJson_toJson]
  refine ⟨Document.replaced_replaceNumbers settles_settled v, ?_, ?_⟩
  · simp only [Document.replaceNumbers_eq_self_iff, settled_eq_self_iff]
  · have again : toJson (replaceNumbers settled v) = replaceNumbers (fun n => toJson (settled n)) v :=
      Document.replaceNumbers_replaceNumbers _ _ v
    rw [again, toJson]
    exact Document.replaceNumbers_congr fun n _ => toJson_settled n

end RecordFilter.Value
