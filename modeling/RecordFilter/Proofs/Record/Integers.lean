import RecordFilter.Proofs.Binary64.Integral
import RecordFilter.Proofs.Filter.Unmarked
import RecordFilter.Proofs.Json.ReadBack
import RecordFilter.Proofs.LooseOrder.Plain
import RecordFilter.Proofs.Record.NonFinite

/-! Whole numbers in fields and in literals. They are written by their digits, read as decimals without
loss and so compared as numbers; a floating-point field that holds a whole number takes part in this. -/

namespace RecordFilter

namespace Numeral

theorem spells_ofInt (z : Int) : (ofInt z).Spells (Text.ofInt z) := (jsonSpells_ofInt z).spells

theorem value_ofInt (z : Int) : (ofInt z).value = z := by
  have magnitude : (ofInt z).magnitude = z.natAbs := by
    have power : (ofInt z).power = 0 := rfl
    rw [Numeral.magnitude, coefficient_ofInt, power, zpow_zero, mul_one]
  have sign : (ofInt z).negative = decide (z < 0) := rfl
  rw [value, magnitude, sign, Nat.cast_natAbs]
  by_cases negative : z < 0
  · rw [decide_eq_true negative, if_pos rfl, abs_of_neg negative, Int.cast_neg, neg_neg]
  · rw [decide_eq_false negative, if_neg Bool.false_ne_true, abs_of_nonneg (by omega)]

theorem reaches_ofInt {z : Int} (bound : z.natAbs ≤ 2 ^ 96 - 1) : Decimal.Reaches (ofInt z) := by
  apply Decimal.reaches_of_plain rfl
  · rwa [coefficient_ofInt]
  · exact Nat.zero_le _

end Numeral

namespace Text

theorem ofInt_injective : Function.Injective ofInt := by
  intro z w same
  have spells := Numeral.spells_ofInt z
  rw [same] at spells
  have numerals := Option.some_inj.mp (spells.ofText?_eq.symm.trans (Numeral.spells_ofInt w).ofText?_eq)
  have values := congrArg Numeral.value numerals
  rw [Numeral.value_ofInt, Numeral.value_ofInt] at values
  exact_mod_cast values

theorem eq_minus_or_isDigit {c : Char} {z : Int} (h : c ∈ ofInt z) : c = '-' ∨ isDigit c = true := by
  rw [ofInt_eq, List.mem_append] at h
  obtain sign | digit := h
  · unfold Numeral.minus at sign
    split at sign
    · exact .inl (List.mem_singleton.mp sign)
    · cases sign
  · exact .inr (digits_ofNat _ c digit)

theorem unmarked_ofInt (z : Int) : (ofInt z).Unmarked := by
  intro c member mark
  obtain rfl | digit := eq_minus_or_isDigit member
  · revert mark
    decide
  · have others : marks.all (!isDigit ·) = true := rfl
    have other := List.all_eq_true.mp others c mark
    rw [digit] at other
    cases other

end Text

theorem looseOrder_ofInt {z w : Int} (first : z.natAbs ≤ 2 ^ 96 - 1) (second : w.natAbs ≤ 2 ^ 96 - 1) :
    looseOrder (Text.ofInt z) (Text.ofInt w) = compare z w := by
  obtain ⟨d, read, steps⟩ :=
    LooseOrder.exists_decimal?_eq (Numeral.spells_ofInt z).trim (Numeral.reaches_ofInt first)
  obtain ⟨e, read', steps'⟩ :=
    LooseOrder.exists_decimal?_eq (Numeral.spells_ofInt w).trim (Numeral.reaches_ofInt second)
  rw [Numeral.value_ofInt] at steps steps'
  rw [LooseOrder.looseOrder_of_decimals read read', Decimal.order_eq_compare steps steps',
    ← cmp_eq_compare, ← cmp_eq_compare]
  exact Int.cast_strictMono.cmp_map_eq z w

namespace Comparison

/-- The relation between numbers that a comparison stands for. A comparison with a pattern has none. -/
def Relates : Comparison → Int → Int → Prop
  | equal, z, w => z = w
  | notEqual, z, w => z ≠ w
  | atLeast, z, w => w ≤ z
  | atMost, z, w => z ≤ w
  | above, z, w => w < z
  | below, z, w => z < w
  | like, _, _ | notLike, _, _ => False

end Comparison

namespace Predicate

def ofInt (field : Text) (comparison : Comparison) (ordered : comparison.isPattern = false) (w : Int) :
    Predicate where
  field := field
  comparison := comparison
  literal := Text.ofInt w
  literal_fits pattern := nomatch ordered.symm.trans pattern

variable {field : Text} {comparison : Comparison} (ordered : comparison.isPattern = false)

theorem accepts_ofInt_iff {z w : Int} (first : z.natAbs ≤ 2 ^ 96 - 1) (second : w.natAbs ≤ 2 ^ 96 - 1) :
    (ofInt field comparison ordered w).accepts (Text.ofInt z) = true ↔ comparison.Relates z w := by
  -- Equality is that of the texts, and order is that of the decimals.
  have order := looseOrder_ofInt first second
  have same : Text.ofInt z = Text.ofInt w ↔ z = w := Text.ofInt_injective.eq_iff
  cases comparison with
  | equal => simp only [accepts, ofInt, beq_iff_eq, same, Comparison.Relates]
  | notEqual => simp only [accepts, ofInt, bne_iff_ne, ne_eq, same, Comparison.Relates]
  | atLeast => simp only [accepts, ofInt, order, Std.isGE_compare, Comparison.Relates]
  | atMost => simp only [accepts, ofInt, order, Std.isLE_compare, Comparison.Relates]
  | above =>
    simp only [accepts, ofInt, order, Ordering.isGT_iff_eq_gt, compare_gt_iff_gt, Comparison.Relates]
  | below =>
    simp only [accepts, ofInt, order, Ordering.isLT_iff_eq_lt, compare_lt_iff_lt, Comparison.Relates]
  | like => cases ordered
  | notLike => cases ordered

end Predicate

/-! ### Records of one number -/

namespace Record

variable {ν : Type} [RecordNumber ν] {key : Text} {separator : Char}

def ofNumber (key : Text) (n : ν) : Document ν := .object [(key, .number n)]

theorem lookup_ofNumber (unsplit : separator ∉ key) (n : ν) :
    lookup (ofNumber key n) key separator = some (RecordNumber.fieldText n) := by
  have reached : (key.splitOn separator).foldlM child? (ofNumber key n) = some (.number n) := by
    rw [List.splitOn_eq_singleton unsplit, List.foldlM_cons, ofNumber, child?, List.lookup_cons_self]
    rfl
  exact lookup_of_foldlM reached

theorem holds_leaf_ofNumber {p : Predicate} (named : p.field = key) (unsplit : separator ∉ key) (n : ν) :
    (Filter.leaf p).holds (ofNumber key n) separator = p.accepts (RecordNumber.fieldText n) := by
  show p.holds (ofNumber key n) separator = _
  rw [Predicate.holds, named, lookup_ofNumber unsplit]
  rfl

theorem compact_ofNumber (key : Text) (n : Json.Number) :
    Json.compact (ofNumber key n) = '\x7b' :: Json.quote key ++ ':' :: n.text ++ ['\x7d'] := by
  have members : List.intercalate [','] [Json.quote key ++ ':' :: n.text] =
      Json.quote key ++ ':' :: n.text := List.intercalate_singleton
  rw [ofNumber, Json.compact_object]
  exact congrArg (fun members => '\x7b' :: members ++ ['\x7d']) members

theorem parse_ofNumber (key : Text) (n : Json.Number) :
    Json.parse ('\x7b' :: Json.quote key ++ ':' :: n.text ++ ['\x7d']) = .ok (ofNumber key n) := by
  have regular : Document.Regular Json.Reader.maxDepth (ofNumber key n) :=
    .object (List.pairwise_singleton _ _) (List.forall_mem_singleton.mpr (.number n))
  rw [← compact_ofNumber]
  exact Json.parse_compact regular

end Record

namespace Predicate

variable {key : Text} {comparison : Comparison} (ordered : comparison.isPattern = false) {z w : Int}

theorem parse_text_ofInt (unmarked : key.Unmarked) :
    Filter.parse (key ++ comparison.symbol ++ Text.ofInt w) =
      .ok (.leaf (ofInt key comparison ordered w)) := by
  have operand : (ofInt key comparison ordered w).IsOperand :=
    isOperand_of_unmarked unmarked (Text.unmarked_ofInt w)
  exact Filter.parse_text_of_isOperand operand

theorem holds_ofInt_iff {ν : Type} [RecordNumber ν] {n : ν} {separator : Char} (unsplit : separator ∉ key)
    (text : RecordNumber.fieldText n = Text.ofInt z) (first : z.natAbs ≤ 2 ^ 96 - 1)
    (second : w.natAbs ≤ 2 ^ 96 - 1) :
    (Filter.leaf (ofInt key comparison ordered w)).holds (Record.ofNumber key n) separator = true ↔
      comparison.Relates z w := by
  have named : (ofInt key comparison ordered w).field = key := rfl
  rw [← accepts_ofInt_iff ordered first second, ← text, Record.holds_leaf_ofNumber named unsplit]

end Predicate

namespace Record

/-- A field that holds a 64-bit whole number, signed or not, is compared with another one as a number,
from the texts of filter and record on. A value with the signed number is compared alike. -/
theorem holds_integer_field_iff {comparison : Comparison} (ordered : comparison.isPattern = false)
    {key : Text} (unmarked : key.Unmarked) {separator : Char} (unsplit : separator ∉ key) {z w : Int}
    (first : -9223372036854775808 ≤ z ∧ z < 18446744073709551616)
    (second : -9223372036854775808 ≤ w ∧ w < 18446744073709551616) :
    ∃ filter record,
      Filter.parse (key ++ comparison.symbol ++ Text.ofInt w) = .ok filter ∧
      Json.parse ('\x7b' :: Json.quote key ++ ':' :: Text.ofInt z ++ ['\x7d']) = .ok record ∧
      (filter.holds record separator = true ↔ comparison.Relates z w) ∧
      ∀ signed : -9223372036854775808 ≤ z ∧ z < 9223372036854775808,
        filter.holds (ofNumber key (Value.Number.integer z signed)) separator = true ↔
          comparison.Relates z w := by
  refine ⟨.leaf (.ofInt key comparison ordered w), ofNumber key (.integer z first),
    Predicate.parse_text_ofInt ordered unmarked, parse_ofNumber key (.integer z first), ?_, ?_⟩
  · exact Predicate.holds_ofInt_iff ordered unsplit rfl (by omega) (by omega)
  · intro signed
    exact Predicate.holds_ofInt_iff ordered unsplit rfl (by omega) (by omega)

theorem holds_integer_field_at_least :
    ∃ filter record,
      Filter.parse "a<-9223372036854775807".toList = .ok filter ∧
      Json.parse "\x7b\"a\":-9223372036854775808\x7d".toList = .ok record ∧
      filter.holds record '.' = true ∧
      filter.holds (ofNumber ['a'] (Value.Number.integer (-9223372036854775808) (by decide))) '.' = true := by
  obtain ⟨filter, record, parsed, read, json, value⟩ :=
    @holds_integer_field_iff .below rfl ['a'] (by decide) '.' (by decide)
      (-9223372036854775808) (-9223372036854775807) (by decide) (by decide)
  have less : Comparison.below.Relates (-9223372036854775808) (-9223372036854775807) :=
    show (-9223372036854775808 : Int) < -9223372036854775807 by decide
  exact ⟨filter, record, parsed, read, json.mpr less, (value (by decide)).mpr less⟩

/-- A floating-point number equal to a whole one up to `2 ^ 53` has the text of that one, and a filter
for that text finds either. Only negative zero differs from its whole number, by its sign. -/
theorem whole_float_field {x : Finite64} {z : Int} (same : x.units = z * Finite64.unit)
    (bound : z.natAbs ≤ 2 ^ 53) {key : Text} (unmarked : key.Unmarked) {separator : Char}
    (unsplit : separator ∉ key) :
    (x ≠ .zero true →
      text? (.number (.float x) : Json) = some (Text.ofInt z) ∧
      text? (.number (.float (.finite x)) : Value) = some (Text.ofInt z) ∧
      ∃ filter, Filter.parse (key ++ ['=', '='] ++ Text.ofInt z) = .ok filter ∧
        filter.holds (ofNumber key (Json.Number.float x)) separator = true ∧
        filter.holds (ofNumber key (Value.Number.float (.finite x))) separator = true ∧
        (∃ wide, filter.holds (ofNumber key (Json.Number.integer z wide)) separator = true) ∧
        ∃ narrow, filter.holds (ofNumber key (Value.Number.integer z narrow)) separator = true) ∧
    (x = .zero true →
      text? (.number (.float x) : Json) = some ['-', '0'] ∧
      text? (.number (.float (.finite x)) : Value) = some ['-', '0'] ∧
      ∃ filter, Filter.parse (key ++ ['=', '='] ++ ['0']) = .ok filter ∧
        filter.holds (ofNumber key (Json.Number.float x)) separator = false ∧
        filter.holds (ofNumber key (Value.Number.float (.finite x))) separator = false) := by
  have parsed (w : Int) : Filter.parse (key ++ ['=', '='] ++ Text.ofInt w) =
      .ok (.leaf (.ofInt key .equal rfl w)) := @Predicate.parse_text_ofInt key .equal rfl w unmarked
  constructor
  · intro unlike
    have text : x.fieldText = Text.ofInt z := Finite64.fieldText_of_whole same bound unlike
    have found {ν : Type} [RecordNumber ν] {n : ν} (text : RecordNumber.fieldText n = Text.ofInt z) :
        (Filter.leaf (.ofInt key .equal rfl z)).holds (ofNumber key n) separator = true :=
      (Predicate.holds_ofInt_iff rfl unsplit text (by omega) (by omega)).mpr rfl
    exact ⟨congrArg some text, congrArg some text, _, parsed z, found text, found text,
      ⟨by omega, found rfl⟩, ⟨by omega, found rfl⟩⟩
  · rintro rfl
    have missed {ν : Type} [RecordNumber ν] {n : ν} (text : RecordNumber.fieldText n = ['-', '0']) :
        (Filter.leaf (.ofInt key .equal rfl 0)).holds (ofNumber key n) separator = false := by
      have named : (Predicate.ofInt key .equal rfl 0).field = key := rfl
      refine (holds_leaf_ofNumber named unsplit n).trans ?_
      rw [text]
      rfl
    exact ⟨rfl, rfl, _, parsed 0, missed rfl, missed rfl⟩

theorem whole_float_field_at_greatest :
    let x : Finite64 := ⟨true, 1076 * 2 ^ 52, by decide⟩
    x.units = -9007199254740992 * Finite64.unit ∧ x ≠ .zero true ∧
      text? (.number (.float x) : Json) = some "-9007199254740992".toList ∧
      ∃ filter, Filter.parse "a==-9007199254740992".toList = .ok filter ∧
        filter.holds (ofNumber ['a'] (Json.Number.float x)) '.' = true ∧
        ∃ narrow,
          filter.holds (ofNumber ['a'] (Value.Number.integer (-9007199254740992) narrow)) '.' = true := by
  intro x
  have same : x.units = -9007199254740992 * Finite64.unit := by decide +kernel
  have unlike : x ≠ .zero true := by decide +kernel
  obtain ⟨text, -, filter, parsed, json, -, -, value⟩ :=
    (@whole_float_field x (-9007199254740992) same (by decide) ['a'] (by decide) '.' (by decide)).1 unlike
  exact ⟨same, unlike, text, filter, parsed, json, value⟩

theorem negative_zero_keeps_sign :
    ¬∀ (x : Finite64) (z : Int), x.units = z * Finite64.unit → z.natAbs ≤ 2 ^ 53 →
      text? (.number (.float x) : Json) = some (Text.ofInt z) ∧
        text? (.number (.float (.finite x)) : Value) = some (Text.ofInt z) := by
  intro all
  have texts := (all (.zero true) 0 (by decide +kernel) (by decide)).1
  exact absurd texts (by decide)

end Record
end RecordFilter
