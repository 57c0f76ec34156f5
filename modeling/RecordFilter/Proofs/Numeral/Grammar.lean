import Mathlib.Computability.RegularExpressions
import Mathlib.Tactic.IntervalCases
import RecordFilter.Proofs.Numeral.Spelling

/-! Two more accounts of numerals. One is a regular expression, the other a recognizer that drops signs
and cuts a text at its first exponent mark and its first point. Both take exactly the texts that the
scanner reads. -/

namespace RecordFilter

namespace Text

def cutAt (kind : Char → Bool) : Text → Text × Option Text
  | [] => ([], none)
  | c :: rest =>
    if kind c then ([], some rest)
    else
      let (front, behind) := cutAt kind rest
      (c :: front, behind)

theorem cutAt_append {kind : Char → Bool} {front : Text} (free : ∀ c ∈ front, kind c = false)
    (rest : Text) : cutAt kind (front ++ rest) = (front ++ (cutAt kind rest).1, (cutAt kind rest).2) := by
  induction front with
  | nil => rfl
  | cons c front ih =>
    obtain ⟨other, free⟩ := List.forall_mem_cons.mp free
    rw [List.cons_append, cutAt, if_neg (by rw [other]; decide), ih free]
    rfl

theorem cutAt_of_free {kind : Char → Bool} {text : Text} (free : ∀ c ∈ text, kind c = false) :
    cutAt kind text = (text, none) := by
  have cut := cutAt_append free []
  rwa [List.append_nil, cutAt, List.append_nil] at cut

theorem cutAt_mark {kind : Char → Bool} {front : Text} {mark : Char}
    (free : ∀ c ∈ front, kind c = false) (hit : kind mark = true) (rest : Text) :
    cutAt kind (front ++ mark :: rest) = (front, some rest) := by
  rw [cutAt_append free, cutAt, if_pos hit, List.append_nil]

theorem eq_of_cutAt {kind : Char → Bool} {text front : Text} {behind : Option Text}
    (h : cutAt kind text = (front, behind)) :
    (behind = none ∧ text = front) ∨
      ∃ mark rest, behind = some rest ∧ kind mark = true ∧ text = front ++ mark :: rest := by
  induction text generalizing front with
  | nil =>
    cases h
    exact .inl ⟨rfl, rfl⟩
  | cons c text ih =>
    rw [cutAt] at h
    split at h
    · rename_i hit
      cases h
      exact .inr ⟨c, text, rfl, hit, rfl⟩
    · cases h
      obtain ⟨none, same⟩ | ⟨mark, rest, some, hit, same⟩ := ih rfl
      · exact .inl ⟨none, congrArg (c :: ·) same⟩
      · exact .inr ⟨mark, rest, some, hit, congrArg (c :: ·) same⟩

theorem digits_iff_all {text : Text} : text.all isDigit = true ↔ Digits text := List.all_eq_true

end Text

namespace Numeral

def isExponentMark (c : Char) : Bool := c == 'e' || c == 'E'

theorem isExponentMark_iff {c : Char} : isExponentMark c = true ↔ c = 'e' ∨ c = 'E' := by
  rw [isExponentMark, Bool.or_eq_true, beq_iff_eq, beq_iff_eq]

def recognizesExponent : Option Text → Bool
  | none => true
  | some text =>
    let digits := (splitSign text).2
    !digits.isEmpty && digits.all Text.isDigit

def recognizes (text : Text) : Bool :=
  let (mantissa, exponent) := Text.cutAt isExponentMark (splitSign text).2
  let (whole, fraction) := Text.cutAt (· == '.') mantissa
  let fraction := fraction.getD []
  if (whole.isEmpty && fraction.isEmpty) || !whole.all Text.isDigit || !fraction.all Text.isDigit then
    false
  else recognizesExponent exponent

theorem exists_spellsFraction_of_cutAt {mantissa whole : Text} {fraction : Option Text}
    (cut : Text.cutAt (· == '.') mantissa = (whole, fraction)) (all : Text.Digits (fraction.getD [])) :
    ∃ text, SpellsFraction (fraction.getD []) text ∧ mantissa = whole ++ text := by
  obtain ⟨rfl, rfl⟩ | ⟨mark, rest, rfl, hit, rfl⟩ := Text.eq_of_cutAt cut
  · exact ⟨[], .absent, (List.append_nil _).symm⟩
  · rw [beq_iff_eq.mp hit]
    exact ⟨'.' :: rest, .point all, rfl⟩

theorem exists_spellsExponent_of_cutAt {text mantissa : Text} {exponent : Option Text}
    (cut : Text.cutAt isExponentMark text = (mantissa, exponent))
    (fits : recognizesExponent exponent = true) :
    ∃ e rest, SpellsExponent e rest ∧ text = mantissa ++ rest := by
  obtain ⟨rfl, rfl⟩ | ⟨mark, rest, rfl, letter, rfl⟩ := Text.eq_of_cutAt cut
  · exact ⟨0, [], .absent, (List.append_nil _).symm⟩
  · cases front : splitSign rest with
    | mk negative digits =>
      obtain ⟨sign, signs, rfl⟩ := spellsSign_of_splitSign front
      rw [recognizesExponent, front, Bool.and_eq_true, Text.digits_iff_all] at fits
      obtain ⟨filled, all⟩ := fits
      have nonempty : digits ≠ [] := by
        rintro rfl
        cases filled
      exact ⟨_, _, .marked (isExponentMark_iff.mp letter) signs all nonempty rfl, rfl⟩

theorem exists_spells_of_recognizes {text : Text} (h : recognizes text = true) :
    ∃ n : Numeral, n.Spells text := by
  cases first : splitSign text with
  | mk negative unsigned =>
  cases second : Text.cutAt isExponentMark unsigned with
  | mk mantissa exponent =>
  cases third : Text.cutAt (· == '.') mantissa with
  | mk whole fraction =>
    simp only [recognizes, first, second, third] at h
    split at h
    · cases h
    · rename_i proper
      simp only [Bool.or_eq_true, Bool.not_eq_true', Bool.and_eq_true, List.isEmpty_iff, not_or,
        Bool.not_eq_false, Text.digits_iff_all] at proper
      obtain ⟨⟨nonempty, all⟩, all'⟩ := proper
      obtain ⟨sign, signs, rfl⟩ := spellsSign_of_splitSign first
      obtain ⟨e, marked, exponents, rfl⟩ := exists_spellsExponent_of_cutAt second h
      obtain ⟨pointed, fractions, rfl⟩ := exists_spellsFraction_of_cutAt third all'
      rw [List.append_assoc]
      exact ⟨⟨negative, whole, fraction.getD [], e⟩, .intro signs all fractions nonempty exponents⟩

theorem isExponentMark_of_isDigit {c : Char} (digit : Text.isDigit c = true) :
    isExponentMark c = false := by
  rw [← Bool.not_eq_true, isExponentMark_iff]
  rintro (rfl | rfl) <;> cases digit

theorem point_of_isDigit {c : Char} (digit : Text.isDigit c = true) : (c == '.') = false := by
  rw [beq_eq_false_iff_ne]
  rintro rfl
  cases digit

theorem SpellsFraction.cutAt_append {digits fraction : Text} (h : SpellsFraction digits fraction)
    {whole : Text} (all : Text.Digits whole) :
    ∃ behind, Text.cutAt (· == '.') (whole ++ fraction) = (whole, behind) ∧ behind.getD [] = digits := by
  have free : ∀ c ∈ whole, (c == '.') = false := fun c member => point_of_isDigit (all c member)
  cases h with
  | absent =>
    rw [List.append_nil]
    exact ⟨none, Text.cutAt_of_free free, rfl⟩
  | point => exact ⟨some digits, Text.cutAt_mark free rfl digits, rfl⟩

theorem SpellsFraction.free {digits fraction : Text} (h : SpellsFraction digits fraction) :
    ∀ c ∈ fraction, isExponentMark c = false := by
  cases h with
  | absent => nofun
  | point all =>
    exact List.forall_mem_cons.mpr ⟨rfl, fun c member => isExponentMark_of_isDigit (all c member)⟩

theorem SpellsExponent.cutAt_append {e : Int} {exponent : Text} (h : SpellsExponent e exponent)
    {mantissa : Text} (free : ∀ c ∈ mantissa, isExponentMark c = false) :
    ∃ behind, Text.cutAt isExponentMark (mantissa ++ exponent) = (mantissa, behind) ∧
      recognizesExponent behind = true := by
  cases h with
  | absent =>
    rw [List.append_nil]
    exact ⟨none, Text.cutAt_of_free free, rfl⟩
  | @marked _ mark negative sign digits letter signs all nonempty value =>
    obtain ⟨c, rest, rfl⟩ := List.exists_cons_of_ne_nil nonempty
    have unsigned := splitSign_of_isDigit (Text.digits_cons_iff.mp all).1 rest
    refine ⟨_, Text.cutAt_mark free (isExponentMark_iff.mpr letter) _, ?_⟩
    rw [recognizesExponent, signs.splitSign_append unsigned, Text.digits_iff_all.mpr all]
    rfl

theorem Spells.recognizes_eq {n : Numeral} {text : Text} (h : n.Spells text) :
    recognizes text = true := by
  obtain ⟨negative, whole, digits, power⟩ := n
  obtain @⟨sign, fraction, exponent, signs, all, fractions, nonempty, exponents⟩ := h
  simp only at signs all fractions nonempty exponents
  have free : ∀ c ∈ whole ++ fraction, isExponentMark c = false :=
    List.forall_mem_append.mpr ⟨fun c member => isExponentMark_of_isDigit (all c member), fractions.free⟩
  have first := signs.splitSign_append (splitSign_unsigned all fractions nonempty exponent)
  obtain ⟨marked, second, fits⟩ := exponents.cutAt_append free
  obtain ⟨pointed, third, rfl⟩ := fractions.cutAt_append all
  rw [List.append_assoc] at second
  have proper : ¬((whole.isEmpty && (pointed.getD []).isEmpty || !whole.all Text.isDigit ||
      !(pointed.getD []).all Text.isDigit) = true) := by
    simp only [Bool.or_eq_true, Bool.not_eq_true', Bool.and_eq_true, List.isEmpty_iff, not_or,
      Bool.not_eq_false, Text.digits_iff_all]
    exact ⟨⟨nonempty, all⟩, fractions.digits⟩
  simp only [recognizes, first, second, third]
  rw [if_neg proper]
  exact fits

theorem recognizes_iff {text : Text} : recognizes text = true ↔ ∃ n : Numeral, n.Spells text :=
  ⟨exists_spells_of_recognizes, fun ⟨_, spells⟩ => spells.recognizes_eq⟩

theorem isSome_ofText?_eq (text : Text) : (ofText? text).isSome = recognizes text := by
  rw [Bool.eq_iff_iff, recognizes_iff, Option.isSome_iff_exists]
  exact exists_congr fun n => ofText?_eq_some_iff

namespace Grammar

open RegularExpression

def oneOf (chars : Text) : RegularExpression Char := chars.foldr (fun c r => char c + r) 0

def optional (r : RegularExpression Char) : RegularExpression Char := 1 + r

def digit : RegularExpression Char := oneOf ['0', '1', '2', '3', '4', '5', '6', '7', '8', '9']

def digits : RegularExpression Char := digit * star digit

def sign : RegularExpression Char := optional (oneOf ['+', '-'])

def mantissa : RegularExpression Char :=
  digits * optional (char '.' * star digit) + char '.' * digits

def exponent : RegularExpression Char := optional (oneOf ['e', 'E'] * (sign * digits))

end Grammar

def grammar : RegularExpression Char := Grammar.sign * (Grammar.mantissa * Grammar.exponent)

namespace Grammar

open RegularExpression

theorem mem_char_iff {c : Char} {text : Text} : text ∈ (char c).matches' ↔ text = [c] := Iff.rfl

theorem mem_oneOf_iff {chars text : Text} :
    text ∈ (oneOf chars).matches' ↔ ∃ c ∈ chars, text = [c] := by
  induction chars with
  | nil => simp [oneOf]
  | cons c chars ih =>
    rw [oneOf, List.foldr_cons, ← oneOf, matches'_add, Language.mem_add, ih, mem_char_iff]
    simp

theorem mem_optional_iff {r : RegularExpression Char} {text : Text} :
    text ∈ (optional r).matches' ↔ text = [] ∨ text ∈ r.matches' := by
  rw [optional, matches'_add, Language.mem_add, matches'_epsilon, Language.mem_one]

theorem mem_char_mul_iff {c : Char} {r : RegularExpression Char} {text : Text} :
    text ∈ (char c * r).matches' ↔ ∃ rest ∈ r.matches', text = c :: rest := by
  rw [matches'_mul, Language.mem_mul]
  constructor
  · rintro ⟨front, first, rest, others, rfl⟩
    rw [mem_char_iff.mp first]
    exact ⟨rest, others, rfl⟩
  · rintro ⟨rest, others, rfl⟩
    exact ⟨[c], mem_char_iff.mpr rfl, rest, others, rfl⟩

theorem isDigit_iff_mem {c : Char} :
    Text.isDigit c = true ↔ c ∈ ['0', '1', '2', '3', '4', '5', '6', '7', '8', '9'] := by
  constructor
  · intro digit
    simp only [Text.isDigit, Bool.and_eq_true, decide_eq_true_eq, Char.le_def,
      UInt32.le_iff_toNat_le] at digit
    have lower : 48 ≤ c.toNat := digit.1
    have upper : c.toNat ≤ 57 := digit.2
    rw [← Char.ofNat_toNat c]
    generalize c.toNat = code at lower upper
    interval_cases code <;> decide
  · have all : ['0', '1', '2', '3', '4', '5', '6', '7', '8', '9'].all Text.isDigit = true := rfl
    exact List.all_eq_true.mp all c

theorem mem_digit_iff {text : Text} :
    text ∈ digit.matches' ↔ ∃ c, Text.isDigit c = true ∧ text = [c] := by
  simp only [digit, mem_oneOf_iff, isDigit_iff_mem]

theorem mem_star_digit_iff {text : Text} : text ∈ (star digit).matches' ↔ Text.Digits text := by
  rw [matches'_star, Language.mem_kstar]
  constructor
  · rintro ⟨words, rfl, all⟩ c member
    obtain ⟨word, inside, within⟩ := List.mem_flatten.mp member
    obtain ⟨d, isDigit, rfl⟩ := mem_digit_iff.mp (all word inside)
    rwa [List.mem_singleton.mp within]
  · intro all
    refine ⟨text.map fun c => [c], ?_, fun word member => ?_⟩
    · rw [← List.flatMap_def, List.flatMap_singleton']
    · obtain ⟨c, inside, rfl⟩ := List.mem_map.mp member
      exact mem_digit_iff.mpr ⟨c, all c inside, rfl⟩

theorem mem_digits_iff {text : Text} : text ∈ digits.matches' ↔ Text.Digits text ∧ text ≠ [] := by
  rw [digits, matches'_mul, Language.mem_mul]
  constructor
  · rintro ⟨front, first, rest, others, rfl⟩
    obtain ⟨c, isDigit, rfl⟩ := mem_digit_iff.mp first
    exact ⟨Text.digits_cons_iff.mpr ⟨isDigit, mem_star_digit_iff.mp others⟩, List.cons_ne_nil _ _⟩
  · rintro ⟨all, nonempty⟩
    obtain ⟨c, rest, rfl⟩ := List.exists_cons_of_ne_nil nonempty
    obtain ⟨isDigit, others⟩ := Text.digits_cons_iff.mp all
    exact ⟨[c], mem_digit_iff.mpr ⟨c, isDigit, rfl⟩, rest, mem_star_digit_iff.mpr others, rfl⟩

theorem mem_sign_iff {text : Text} : text ∈ sign.matches' ↔ ∃ negative, SpellsSign negative text := by
  rw [sign, mem_optional_iff, mem_oneOf_iff]
  constructor
  · rintro (rfl | ⟨c, member, rfl⟩)
    · exact ⟨false, .absent⟩
    · obtain rfl | rfl := List.mem_pair.mp member
      · exact ⟨false, .plus⟩
      · exact ⟨true, .minus⟩
  · rintro ⟨negative, signs⟩
    cases signs with
    | absent => exact .inl rfl
    | plus => exact .inr ⟨'+', by decide, rfl⟩
    | minus => exact .inr ⟨'-', by decide, rfl⟩

theorem mem_mantissa_iff {text : Text} :
    text ∈ mantissa.matches' ↔ ∃ whole fraction pointed, Text.Digits whole ∧
      SpellsFraction fraction pointed ∧ ¬(whole = [] ∧ fraction = []) ∧ text = whole ++ pointed := by
  rw [mantissa, matches'_add, Language.mem_add, mem_char_mul_iff, matches'_mul, Language.mem_mul]
  simp only [mem_digits_iff, mem_optional_iff, mem_char_mul_iff, mem_star_digit_iff]
  constructor
  · rintro (⟨whole, ⟨all, nonempty⟩, pointed, fractions, rfl⟩ | ⟨fraction, ⟨all, nonempty⟩, rfl⟩)
    · obtain rfl | ⟨fraction, all', rfl⟩ := fractions
      · exact ⟨whole, [], [], all, .absent, fun empty => nonempty empty.1, rfl⟩
      · exact ⟨whole, fraction, _, all, .point all', fun empty => nonempty empty.1, rfl⟩
    · exact ⟨[], fraction, _, Text.digits_nil, .point all, fun empty => nonempty empty.2, rfl⟩
  · rintro ⟨whole, fraction, pointed, all, fractions, nonempty, rfl⟩
    by_cases empty : whole = []
    · -- Without digits before it there is a point, and digits behind it.
      subst empty
      cases fractions with
      | absent => exact absurd ⟨rfl, rfl⟩ nonempty
      | point all' => exact .inr ⟨fraction, ⟨all', fun none => nonempty ⟨rfl, none⟩⟩, rfl⟩
    · refine .inl ⟨whole, ⟨all, empty⟩, pointed, ?_, rfl⟩
      cases fractions with
      | absent => exact .inl rfl
      | point all' => exact .inr ⟨fraction, all', rfl⟩

theorem mem_exponent_iff {text : Text} : text ∈ exponent.matches' ↔ ∃ e, SpellsExponent e text := by
  rw [exponent, mem_optional_iff, matches'_mul, matches'_mul, Language.mem_mul]
  simp only [mem_oneOf_iff, Language.mem_mul, mem_sign_iff, mem_digits_iff]
  constructor
  · rintro (rfl | ⟨_, ⟨mark, letter, rfl⟩, _, ⟨sign, ⟨negative, signs⟩, digits, ⟨all, nonempty⟩, rfl⟩, rfl⟩)
    · exact ⟨0, .absent⟩
    · exact ⟨_, @SpellsExponent.marked _ mark negative sign digits (List.mem_pair.mp letter) signs all
        nonempty rfl⟩
  · rintro ⟨e, exponents⟩
    cases exponents with
    | absent => exact .inl rfl
    | @marked _ mark negative sign digits letter signs all nonempty =>
      exact .inr ⟨[mark], ⟨mark, List.mem_pair.mpr letter, rfl⟩, sign ++ digits,
        ⟨sign, ⟨negative, signs⟩, digits, ⟨all, nonempty⟩, rfl⟩, rfl⟩

end Grammar

theorem mem_grammar_iff {text : Text} : text ∈ grammar.matches' ↔ ∃ n : Numeral, n.Spells text := by
  rw [grammar, RegularExpression.matches'_mul, RegularExpression.matches'_mul, Language.mem_mul]
  simp only [Language.mem_mul, Grammar.mem_sign_iff, Grammar.mem_mantissa_iff, Grammar.mem_exponent_iff]
  constructor
  · rintro ⟨sign, ⟨negative, signs⟩, _, ⟨_, ⟨whole, fraction, pointed, all, fractions, nonempty, rfl⟩,
      exponent, ⟨e, exponents⟩, rfl⟩, rfl⟩
    rw [List.append_assoc]
    exact ⟨⟨negative, whole, fraction, e⟩, .intro signs all fractions nonempty exponents⟩
  · rintro ⟨n, @⟨sign, pointed, exponent, signs, all, fractions, nonempty, exponents⟩⟩
    refine ⟨sign, ⟨_, signs⟩, _, ⟨n.whole ++ pointed, ?_, exponent, ⟨_, exponents⟩, rfl⟩, ?_⟩
    · exact ⟨n.whole, n.fraction, pointed, all, fractions, nonempty, rfl⟩
    · rw [List.append_assoc]

theorem recognizes_iff_mem_grammar {text : Text} :
    recognizes text = true ↔ text ∈ grammar.matches' := by
  rw [recognizes_iff, mem_grammar_iff]

end Numeral
end RecordFilter
