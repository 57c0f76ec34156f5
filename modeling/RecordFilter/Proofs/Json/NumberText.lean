import RecordFilter.Json.Reader
import RecordFilter.Proofs.Binary64.ReadBack

/-! The texts of numbers. JSON spells a numeral without idle zeros and with digits on both sides of a
point; every number is written like that, and a reader gets the same number back. -/

namespace RecordFilter

namespace Text

structure Leading (text : Text) : Prop where
  digits : Digits text
  nonempty : text ≠ []
  single_zero : ∀ rest, text = '0' :: rest → rest = []

theorem leading_zero : Leading ['0'] :=
  ⟨digits_zeros 1, List.cons_ne_nil _ _, fun _ same => (List.cons.inj same).2.symm⟩

theorem leading_cons {c : Char} {rest : Text} (all : Digits (c :: rest)) (nonzero : c ≠ '0') :
    Leading (c :: rest) :=
  ⟨all, List.cons_ne_nil _ _, fun _ same => absurd (List.cons.inj same).1 nonzero⟩

theorem ofNat_ne_nil (n : Nat) : ofNat n ≠ [] := by
  intro empty
  have bound := lt_pow_length_ofNat n
  have value := digitsValue_ofNat n
  rw [empty] at bound value
  cases value
  exact absurd empty (by decide)

theorem ofNat_ne_zero_cons {n : Nat} (positive : 0 < n) (rest : Text) : ofNat n ≠ '0' :: rest := by
  intro same
  have least := pow_length_ofNat_le positive
  have value := digitsValue_ofNat n
  have digits := digits_ofNat n
  rw [same] at least value digits
  have zero : digitsValue ['0'] = 0 := digitsValue_zeros 1
  have bound := digitsValue_lt (digits_cons_iff.mp digits).2
  rw [digitsValue_cons, zero, Nat.mul_zero, Nat.zero_add] at value
  rw [List.length_cons, Nat.add_sub_cancel] at least
  omega

theorem leading_ofNat (n : Nat) : Leading (ofNat n) := by
  obtain rfl | positive := Nat.eq_zero_or_pos n
  · exact leading_zero
  · exact ⟨digits_ofNat n, ofNat_ne_nil n, fun rest same => absurd same (ofNat_ne_zero_cons positive rest)⟩

end Text

namespace Numeral

def minus (negative : Bool) : Text := if negative then ['-'] else []

theorem spellsSign_minus (negative : Bool) : SpellsSign negative (minus negative) := by
  cases negative with
  | true => exact .minus
  | false => exact .absent

/-- The spellings of JSON. They are plain where they have neither point nor exponent. -/
inductive JsonSpells (n : Numeral) : Text → Bool → Prop where
  | intro {fraction exponent : Text} (whole : n.whole.Leading)
      (fractions : SpellsFraction n.fraction fraction) (filled : fraction ≠ [] → n.fraction ≠ [])
      (exponents : SpellsExponent n.exponent exponent) :
      JsonSpells n (minus n.negative ++ (n.whole ++ (fraction ++ exponent)))
        (fraction.isEmpty && exponent.isEmpty)

theorem JsonSpells.spells {n : Numeral} {text : Text} {plain : Bool} (h : n.JsonSpells text plain) :
    n.Spells text := by
  cases h with
  | intro whole fractions filled exponents =>
    exact .intro (spellsSign_minus _) whole.digits fractions (fun empty => whole.nonempty empty.1)
      exponents

end Numeral

namespace Json.Reader.NumberPlace

theorem foldlM_digits {place : NumberPlace}
    (stays : ∀ c, Text.isDigit c = true → place.next? c = some place) {digits : Text}
    (all : Text.Digits digits) : digits.foldlM next? place = some place := by
  induction digits with
  | nil => rfl
  | cons c digits ih =>
    obtain ⟨digit, all⟩ := Text.digits_cons_iff.mp all
    rw [List.foldlM_cons, stays c digit]
    exact ih all

theorem whole_stays (c : Char) (digit : Text.isDigit c = true) : whole.next? c = some whole := by
  simp [next?, digit]

theorem fraction_stays (c : Char) (digit : Text.isDigit c = true) :
    fraction.next? c = some fraction := by
  simp [next?, digit]

theorem exponent_stays (c : Char) (digit : Text.isDigit c = true) :
    exponent.next? c = some exponent := by
  simp [next?, digit]

theorem next?_point {place : NumberPlace} (plain : place.isPlain = true) :
    place.next? '.' = some point := by
  cases place with
  | zero | whole => rfl
  | _ => cases plain

theorem next?_exponentMark {place : NumberPlace} (complete : place.isComplete = true)
    (unmarked : place ≠ exponent) {mark : Char} (letter : mark = 'e' ∨ mark = 'E') :
    place.next? mark = some exponentMark := by
  cases place with
  | zero | whole | fraction => obtain rfl | rfl := letter <;> rfl
  | exponent => exact absurd rfl unmarked
  | _ => cases complete

theorem isComplete_of_isPlain {place : NumberPlace} (plain : place.isPlain = true) :
    place.isComplete = true ∧ place ≠ exponent := by
  cases place with
  | zero | whole => exact ⟨rfl, by decide⟩
  | _ => cases plain

theorem exists_foldlM_whole {text : Text} (leading : text.Leading) :
    ∃ place, text.foldlM next? minus = some place ∧ place.isPlain = true := by
  obtain ⟨c, rest, rfl⟩ := List.exists_cons_of_ne_nil leading.nonempty
  obtain ⟨digit, all⟩ := Text.digits_cons_iff.mp leading.digits
  by_cases first : c = '0'
  · subst first
    obtain rfl := leading.single_zero rest rfl
    exact ⟨zero, rfl, rfl⟩
  · refine ⟨whole, ?_, rfl⟩
    have next : minus.next? c = some whole := by simp [next?, first, digit]
    rw [List.foldlM_cons, next]
    exact foldlM_digits whole_stays all

theorem exists_foldlM_fraction {place : NumberPlace} (plain : place.isPlain = true)
    {digits text : Text} (spells : Numeral.SpellsFraction digits text)
    (filled : text ≠ [] → digits ≠ []) :
    ∃ next, text.foldlM next? place = some next ∧ next.isComplete = true ∧ next ≠ exponent ∧
      next.isPlain = text.isEmpty := by
  cases spells with
  | absent =>
    obtain ⟨complete, unmarked⟩ := isComplete_of_isPlain plain
    exact ⟨place, rfl, complete, unmarked, plain⟩
  | point all =>
    obtain ⟨c, rest, rfl⟩ := List.exists_cons_of_ne_nil (filled (List.cons_ne_nil _ _))
    obtain ⟨digit, all⟩ := Text.digits_cons_iff.mp all
    refine ⟨fraction, ?_, rfl, by decide, rfl⟩
    have first : point.next? c = some fraction := by simp [next?, digit]
    rw [List.foldlM_cons, next?_point plain]
    show (point.next? c).bind (rest.foldlM next?) = _
    rw [first]
    exact foldlM_digits fraction_stays all

theorem exists_foldlM_exponent {place : NumberPlace} (complete : place.isComplete = true)
    (unmarked : place ≠ exponent) {e : Int} {text : Text} (spells : Numeral.SpellsExponent e text) :
    ∃ next, text.foldlM next? place = some next ∧ next.isComplete = true ∧
      next.isPlain = (place.isPlain && text.isEmpty) := by
  cases spells with
  | absent => exact ⟨place, rfl, complete, by simp⟩
  | @marked _ mark negative sign digits letter signs all nonempty value =>
    obtain ⟨c, rest, rfl⟩ := List.exists_cons_of_ne_nil nonempty
    obtain ⟨digit, all⟩ := Text.digits_cons_iff.mp all
    have behind : (sign ++ c :: rest).foldlM next? exponentMark = some exponent := by
      have unsigned : exponentMark.next? c = some exponent := by simp [next?, digit]
      have signed : exponentSign.next? c = some exponent := by simp [next?, digit]
      have stays := foldlM_digits exponent_stays all
      cases signs with
      | absent =>
        rw [List.nil_append, List.foldlM_cons, unsigned]
        exact stays
      | plus | minus =>
        show (exponentSign.next? c).bind (rest.foldlM next?) = _
        rw [signed]
        exact stays
    refine ⟨exponent, ?_, rfl, by simp [isPlain]⟩
    rw [List.foldlM_cons, next?_exponentMark complete unmarked letter]
    exact behind

theorem exists_foldlM_of_jsonSpells {n : Numeral} {text : Text} {plain : Bool}
    (h : n.JsonSpells text plain) :
    ∃ body place, text = Numeral.minus n.negative ++ body ∧ body.foldlM next? minus = some place ∧
      place.isComplete = true ∧ place.isPlain = plain := by
  cases h with
  | @intro fraction exponent whole fractions filled exponents =>
    obtain ⟨first, ahead, plain⟩ := exists_foldlM_whole whole
    obtain ⟨second, between, complete, unmarked, pointless⟩ :=
      exists_foldlM_fraction plain fractions filled
    obtain ⟨last, behind, complete, plain⟩ := exists_foldlM_exponent complete unmarked exponents
    refine ⟨_, last, rfl, ?_, complete, by rw [plain, pointless]⟩
    rw [List.foldlM_append, ahead]
    show (fraction ++ exponent).foldlM next? first = some last
    rw [List.foldlM_append, between]
    exact behind

end Json.Reader.NumberPlace

namespace Significand

theorem exists_digits_eq_cons {coefficient : Nat} (positive : 0 < coefficient) (power : Int) :
    ∃ c rest, (ofScientific coefficient power).digits = c :: rest ∧ c ≠ '0' := by
  obtain ⟨count, split⟩ := exists_append_zeros (Text.ofNat coefficient)
  show ∃ c rest, trimZeros (Text.ofNat coefficient) = c :: rest ∧ c ≠ '0'
  cases trimmed : trimZeros (Text.ofNat coefficient) with
  | nil =>
    have value := Text.digitsValue_ofNat coefficient
    rw [split, trimmed, List.nil_append, Text.digitsValue_zeros] at value
    exact absurd value positive.ne
  | cons c rest =>
    refine ⟨c, rest, rfl, ?_⟩
    rintro rfl
    rw [trimmed, List.cons_append] at split
    exact Text.ofNat_ne_zero_cons positive _ split

def pointedNumeral (negative : Bool) (s : Significand) : Numeral :=
  ⟨negative, s.whole, if s.fraction.isEmpty then ['0'] else s.fraction, 0⟩

def scientificNumeral (negative : Bool) (s : Significand) : Numeral :=
  ⟨negative, s.digits.take 1, s.digits.drop 1, s.point - 1⟩

theorem magnitude_pointedNumeral (negative : Bool) (s : Significand) :
    (s.pointedNumeral negative).magnitude = s.value := by
  rw [← magnitude_numeral negative]
  unfold pointedNumeral numeral
  split
  · rename_i empty
    have zero : Text.digitsValue ['0'] = 0 := Text.digitsValue_zeros 1
    rw [List.isEmpty_iff.mp empty, Numeral.magnitude, Numeral.magnitude, Numeral.coefficient_eq,
      Numeral.coefficient_eq]
    simp only [Numeral.power, List.length_singleton, List.length_nil, zero]
    norm_num [Text.digitsValue]
    ring
  · rfl

theorem magnitude_scientificNumeral (negative : Bool) {s : Significand} (nonempty : s.digits ≠ []) :
    (s.scientificNumeral negative).magnitude = s.value := by
  have coefficient : (s.scientificNumeral negative).coefficient = Text.digitsValue s.digits := by
    show Text.digitsValue (s.digits.take 1 ++ s.digits.drop 1) = _
    rw [List.take_append_drop]
  have power : (s.scientificNumeral negative).power = s.point - s.digits.length := by
    show s.point - 1 - ((s.digits.drop 1).length : Int) = _
    have positive := List.length_pos_iff.mpr nonempty
    rw [List.length_drop]
    omega
  rw [Numeral.magnitude, coefficient, power, value]

theorem leading_whole {s : Significand} (all : Text.Digits s.digits) {c : Char} {rest : Text}
    (digits : s.digits = c :: rest) (nonzero : c ≠ '0') : s.whole.Leading := by
  have all := digits_whole all
  unfold whole at all ⊢
  split
  · exact Text.leading_zero
  · rename_i positive
    rw [if_neg positive] at all
    obtain ⟨count, size⟩ : ∃ count, s.point.toNat = count + 1 := ⟨s.point.toNat - 1, by omega⟩
    rw [digits, size, List.take_succ_cons, List.cons_append] at all ⊢
    exact Text.leading_cons all nonzero

theorem jsonSpells_pointed {s : Significand} (all : Text.Digits s.digits) {c : Char} {rest : Text}
    (digits : s.digits = c :: rest) (nonzero : c ≠ '0') (negative : Bool) :
    (s.pointedNumeral negative).JsonSpells (Numeral.minus negative ++ s.pointed) false := by
  have whole := leading_whole all digits nonzero
  have filled : (if s.fraction.isEmpty then ['0'] else s.fraction) ≠ [] := by
    split
    · exact List.cons_ne_nil _ _
    · rename_i nonempty
      exact fun empty => nonempty (List.isEmpty_iff.mpr empty)
  have fraction : Text.Digits (if s.fraction.isEmpty then ['0'] else s.fraction) := by
    split
    · exact Text.digits_zeros 1
    · exact digits_fraction all
  have spells : (s.pointedNumeral negative).JsonSpells _ _ :=
    .intro whole (.point fraction) (fun _ => filled) .absent
  rwa [List.append_nil] at spells

theorem spellsExponent_signed (e : Int) :
    Numeral.SpellsExponent e ('e' :: (if e < 0 then '-' else '+') :: Text.ofNat e.natAbs) := by
  have digits := Text.digits_ofNat e.natAbs
  have nonempty := Text.ofNat_ne_nil e.natAbs
  have value := Text.digitsValue_ofNat e.natAbs
  split
  · have exponent : e = Numeral.signed true (Text.digitsValue (Text.ofNat e.natAbs)) := by
      rw [value, Numeral.signed]
      omega
    exact .marked (.inl rfl) .minus digits nonempty exponent
  · have exponent : e = Numeral.signed false (Text.digitsValue (Text.ofNat e.natAbs)) := by
      rw [value, Numeral.signed]
      omega
    exact .marked (.inl rfl) .plus digits nonempty exponent

theorem jsonSpells_scientific {s : Significand} (all : Text.Digits s.digits) {c : Char} {rest : Text}
    (digits : s.digits = c :: rest) (nonzero : c ≠ '0') (negative : Bool) :
    (s.scientificNumeral negative).JsonSpells (Numeral.minus negative ++ s.scientific) false := by
  have exponent := spellsExponent_signed (s.point - 1)
  unfold scientificNumeral scientific
  rw [digits] at all ⊢
  obtain ⟨digit, behind⟩ := Text.digits_cons_iff.mp all
  have whole : Text.Leading [c] :=
    Text.leading_cons (Text.digits_cons_iff.mpr ⟨digit, Text.digits_nil⟩) nonzero
  cases rest with
  | nil => exact .intro whole .absent (fun filled => filled) exponent
  | cons next rest =>
    exact .intro whole (.point behind) (fun _ => List.cons_ne_nil _ _) exponent

end Significand

namespace Finite64

theorem signed_eq (x : Finite64) (text : Text) : x.signed text = Numeral.minus x.negative ++ text := by
  unfold signed Numeral.minus
  cases x.negative <;> rfl

theorem exists_jsonSpells_jsonText (x : Finite64) :
    ∃ n : Numeral, n.JsonSpells x.jsonText false ∧ ofNumeral? n = some x := by
  unfold jsonText
  rw [signed_eq]
  split
  · rename_i zero
    refine ⟨⟨x.negative, ['0'], ['0'], 0⟩, ?_, ?_⟩
    · exact .intro Text.leading_zero (.point (Text.digits_zeros 1)) (fun _ => List.cons_ne_nil _ _)
        .absent
    · have coefficient : (⟨x.negative, ['0'], ['0'], 0⟩ : Numeral).coefficient = 0 :=
        Text.digitsValue_zeros 2
      rw [ofNumeral?_eq_some_iff, Numeral.magnitude, coefficient, Nat.cast_zero, zero_mul,
        nearestPlace_zero]
      exact ⟨rfl, zero⟩
  · rename_i nonzero
    obtain ⟨coefficient, power, written, place, -⟩ := exists_shortest_eq nonzero .even
    have positive : 0 < coefficient := by
      refine Nat.pos_of_ne_zero ?_
      rintro rfl
      rw [Nat.cast_zero, zero_mul, nearestPlace_zero] at place
      exact nonzero place
    obtain ⟨c, rest, digits, first⟩ := Significand.exists_digits_eq_cons positive power
    have all := Significand.digits_ofScientific coefficient power
    rw [← Significand.value_ofScientific] at place
    rw [written]
    generalize Significand.ofScientific coefficient power = s at digits all place
    simp only
    -- Both notations spell the same digits, so they are worth the same.
    split
    · refine ⟨s.pointedNumeral x.negative, Significand.jsonSpells_pointed all digits first _, ?_⟩
      rw [ofNumeral?_eq_some_iff, Significand.magnitude_pointedNumeral]
      exact ⟨rfl, place⟩
    · have nonempty : s.digits ≠ [] := by
        rw [digits]
        exact List.cons_ne_nil c rest
      refine ⟨s.scientificNumeral x.negative, Significand.jsonSpells_scientific all digits first _, ?_⟩
      rw [ofNumeral?_eq_some_iff, Significand.magnitude_scientificNumeral _ nonempty]
      exact ⟨rfl, place⟩

end Finite64

theorem Text.ofInt_eq (z : Int) :
    ofInt z = Numeral.minus (decide (z < 0)) ++ ofNat z.natAbs := by
  cases z with
  | ofNat n => rfl
  | negSucc n =>
    have sign : decide (Int.negSucc n < 0) = true := decide_eq_true (Int.negSucc_lt_zero n)
    rw [sign]
    rfl

namespace Numeral

def ofInt (z : Int) : Numeral := ⟨decide (z < 0), Text.ofNat z.natAbs, [], 0⟩

theorem coefficient_ofInt (z : Int) : (ofInt z).coefficient = z.natAbs := by
  rw [coefficient, ofInt, List.append_nil, Text.digitsValue_ofNat]

theorem jsonSpells_ofInt (z : Int) : (ofInt z).JsonSpells (Text.ofInt z) true := by
  have spells : (ofInt z).JsonSpells _ _ :=
    .intro (Text.leading_ofNat _) .absent (fun filled => filled) .absent
  rw [Text.ofInt_eq]
  rwa [List.append_nil, List.append_nil] at spells

end Numeral

namespace Json.Number

theorem ofNumeral?_ofInt {value : Int}
    (in_range : -9223372036854775808 ≤ value ∧ value < 18446744073709551616) :
    ofNumeral? true (.ofInt value) = some (integer value in_range) := by
  have sign : (Numeral.ofInt value).negative = decide (value < 0) := rfl
  have whole : (if decide (value < 0) then -(value.natAbs : Int) else value.natAbs) = value := by
    simp only [decide_eq_true_eq]
    omega
  have proper : (!(decide (value < 0) && value.natAbs == 0)) = true := by
    simp only [Bool.not_eq_true', Bool.and_eq_false_iff, decide_eq_false_iff_not, beq_eq_false_iff_ne]
    omega
  simp only [ofNumeral?, Numeral.coefficient_ofInt, sign, whole, proper, ofInt?, in_range]
  rfl

theorem exists_jsonSpells_text (n : Number) :
    ∃ (numeral : Numeral) (plain : Bool), numeral.JsonSpells n.text plain ∧
      ofNumeral? plain numeral = some n := by
  cases n with
  | integer value in_range =>
    exact ⟨.ofInt value, true, Numeral.jsonSpells_ofInt value, ofNumeral?_ofInt in_range⟩
  | float x =>
    obtain ⟨numeral, spells, back⟩ := x.exists_jsonSpells_jsonText
    refine ⟨numeral, false, spells, ?_⟩
    simp only [ofNumeral?, back, Bool.false_and]
    rfl

end Json.Number
end RecordFilter
