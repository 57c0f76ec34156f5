import Mathlib.Data.List.TakeWhile
import RecordFilter.Numeral
import RecordFilter.Text.Blank

/-! The grammar of numerals, stated without the scanner. A text is read as a numeral exactly where
it spells that numeral. -/

namespace RecordFilter

namespace Text

def Digits (text : Text) : Prop := ∀ c ∈ text, isDigit c = true

theorem digits_nil : Digits [] := fun _ => nofun

theorem digits_cons_iff {c : Char} {text : Text} :
    Digits (c :: text) ↔ isDigit c = true ∧ Digits text := by
  simp [Digits]

theorem digits_append_iff {a b : Text} : Digits (a ++ b) ↔ Digits a ∧ Digits b := by
  simp [Digits, or_imp, forall_and]

theorem not_isBlank_of_isDigit {c : Char} (h : isDigit c = true) : isBlank c = false := by
  simp only [isDigit, Bool.and_eq_true, decide_eq_true_eq, Char.le_def, UInt32.le_iff_toNat_le] at h
  have lower : 48 ≤ c.toNat := h.1
  have upper : c.toNat ≤ 57 := h.2
  rw [← Bool.not_eq_true]
  simp only [isBlank, blankRanges, List.any_cons, List.any_nil, Bool.or_eq_true, Bool.and_eq_true,
    decide_eq_true_eq, Bool.false_eq_true, or_false]
  omega

theorem trim_eq_self {text : Text} (h : ∀ c ∈ text, isBlank c = false) : trim text = text := by
  have keeps (text : Text) (h : ∀ c ∈ text, isBlank c = false) : text.dropWhile isBlank = text := by
    cases text with
    | nil => rfl
    | cons c rest => exact List.dropWhile_cons_of_neg (by simp [h c List.mem_cons_self])
  rw [trim, trimEnd, keeps text h, keeps text.reverse fun c member => h c (List.mem_reverse.mp member),
    List.reverse_reverse]

end Text

namespace Numeral

inductive SpellsSign : Bool → Text → Prop where
  | absent : SpellsSign false []
  | plus : SpellsSign false ['+']
  | minus : SpellsSign true ['-']

inductive SpellsFraction : Text → Text → Prop where
  | absent : SpellsFraction [] []
  | point {digits : Text} (all : Text.Digits digits) : SpellsFraction digits ('.' :: digits)

def signed : Bool → Nat → Int
  | true, magnitude => -(magnitude : Int)
  | false, magnitude => magnitude

inductive SpellsExponent : Int → Text → Prop where
  | absent : SpellsExponent 0 []
  | marked {exponent : Int} {mark : Char} {negative : Bool} {sign digits : Text}
      (letter : mark = 'e' ∨ mark = 'E') (signs : SpellsSign negative sign)
      (all : Text.Digits digits) (nonempty : digits ≠ [])
      (value : exponent = signed negative (Text.digitsValue digits)) :
      SpellsExponent exponent (mark :: (sign ++ digits))

theorem SpellsFraction.digits {digits text : Text} (h : SpellsFraction digits text) :
    Text.Digits digits := by
  cases h with
  | absent => exact Text.digits_nil
  | point all => exact all

/-- A sign, digits with a point anywhere among or around them, and an exponent. -/
inductive Spells (n : Numeral) : Text → Prop where
  | intro {sign fraction exponent : Text} (signs : SpellsSign n.negative sign)
      (whole : Text.Digits n.whole) (fractions : SpellsFraction n.fraction fraction)
      (nonempty : ¬(n.whole = [] ∧ n.fraction = [])) (exponents : SpellsExponent n.exponent exponent) :
      Spells n (sign ++ (n.whole ++ (fraction ++ exponent)))

theorem Spells.digits_fraction {n : Numeral} {text : Text} (h : n.Spells text) :
    Text.Digits n.fraction := by
  obtain ⟨-, -, fractions, -, -⟩ := h
  exact fractions.digits

theorem SpellsSign.not_isBlank {negative : Bool} {sign : Text} (h : SpellsSign negative sign) :
    ∀ c ∈ sign, Text.isBlank c = false := by
  cases h with
  | absent => nofun
  | plus => exact List.forall_mem_singleton.mpr rfl
  | minus => exact List.forall_mem_singleton.mpr rfl

theorem Spells.trim_eq {n : Numeral} {text : Text} (h : n.Spells text) : Text.trim text = text := by
  obtain ⟨negative, whole, digits, exponent⟩ := n
  obtain ⟨signs, all, fractions, -, exponents⟩ := h
  simp only at signs all fractions exponents
  have plain {digits : Text} (all : Text.Digits digits) : ∀ c ∈ digits, Text.isBlank c = false :=
    fun c member => Text.not_isBlank_of_isDigit (all c member)
  refine Text.trim_eq_self ?_
  simp only [List.forall_mem_append]
  refine ⟨signs.not_isBlank, plain all, ?_, ?_⟩
  · cases fractions with
    | absent => nofun
    | point all => exact List.forall_mem_cons.mpr ⟨rfl, plain all⟩
  · cases exponents with
    | absent => nofun
    | marked letter signs all =>
      refine List.forall_mem_cons.mpr ⟨?_, List.forall_mem_append.mpr ⟨signs.not_isBlank, plain all⟩⟩
      obtain rfl | rfl := letter <;> rfl

theorem Spells.trim {n : Numeral} {text : Text} (h : n.Spells text) : n.Spells (Text.trim text) := by
  rwa [h.trim_eq]

theorem spellsSign_of_splitSign {text rest : Text} {negative : Bool}
    (h : splitSign text = (negative, rest)) :
    ∃ sign, SpellsSign negative sign ∧ text = sign ++ rest := by
  unfold splitSign at h
  split at h <;> cases h
  · exact ⟨['-'], .minus, rfl⟩
  · exact ⟨['+'], .plus, rfl⟩
  · exact ⟨[], .absent, rfl⟩

theorem SpellsSign.splitSign_append {negative : Bool} {sign rest : Text}
    (h : SpellsSign negative sign) (unsigned : splitSign rest = (false, rest)) :
    splitSign (sign ++ rest) = (negative, rest) := by
  cases h with
  | absent => exact unsigned
  | plus => rfl
  | minus => rfl

theorem splitSign_of_isDigit {c : Char} (digit : Text.isDigit c = true) (rest : Text) :
    splitSign (c :: rest) = (false, c :: rest) := by
  unfold splitSign
  split
  · rename_i same
    cases same
    cases digit
  · rename_i same
    cases same
    cases digit
  · rfl

theorem digits_of_splitDigits {text digits rest : Text} (h : splitDigits text = (digits, rest)) :
    Text.Digits digits ∧ text = digits ++ rest := by
  cases h
  exact ⟨fun c member => List.mem_takeWhile_imp member, List.takeWhile_append_dropWhile.symm⟩

theorem splitDigits_append {digits rest : Text} (all : Text.Digits digits)
    (stops : splitDigits rest = ([], rest)) : splitDigits (digits ++ rest) = (digits, rest) := by
  obtain ⟨front, back⟩ := Prod.mk.inj stops
  rw [splitDigits, List.takeWhile_append_of_pos all, List.dropWhile_append_of_pos all, front, back,
    List.append_nil]

theorem splitDigits_of_digits {digits : Text} (all : Text.Digits digits) :
    splitDigits digits = (digits, []) := by
  have split : splitDigits (digits ++ []) = (digits, []) := splitDigits_append all rfl
  rwa [List.append_nil] at split

theorem spellsFraction_of_splitFraction {text digits rest : Text}
    (h : splitFraction text = (digits, rest)) :
    ∃ fraction, SpellsFraction digits fraction ∧ text = fraction ++ rest := by
  unfold splitFraction at h
  split at h
  · rename_i behind
    obtain ⟨all, rfl⟩ := digits_of_splitDigits h
    exact ⟨'.' :: digits, .point all, rfl⟩
  · cases h
    exact ⟨[], .absent, rfl⟩

theorem SpellsExponent.splitDigits_eq {e : Int} {text : Text} (h : SpellsExponent e text) :
    splitDigits text = ([], text) := by
  cases h with
  | absent => rfl
  | marked letter => obtain rfl | rfl := letter <;> rfl

theorem SpellsExponent.splitFraction_eq {e : Int} {text : Text} (h : SpellsExponent e text) :
    splitFraction text = ([], text) := by
  cases h with
  | absent => rfl
  | marked letter => obtain rfl | rfl := letter <;> rfl

theorem SpellsFraction.splitFraction_append {digits fraction rest : Text} {e : Int}
    (h : SpellsFraction digits fraction) (behind : SpellsExponent e rest) :
    splitFraction (fraction ++ rest) = (digits, rest) := by
  cases h with
  | absent => exact behind.splitFraction_eq
  | point all => exact splitDigits_append all behind.splitDigits_eq

theorem SpellsFraction.splitDigits_append_eq {digits fraction rest : Text} {e : Int}
    (h : SpellsFraction digits fraction) (behind : SpellsExponent e rest) :
    splitDigits (fraction ++ rest) = ([], fraction ++ rest) := by
  cases h with
  | absent => exact behind.splitDigits_eq
  | point => rfl

theorem exponentOfText?_eq_some_iff {text : Text} {e : Int} :
    exponentOfText? text = some e ↔ ∃ negative sign digits, SpellsSign negative sign ∧
      Text.Digits digits ∧ digits ≠ [] ∧ e = signed negative (Text.digitsValue digits) ∧
        text = sign ++ digits := by
  constructor
  · intro h
    cases front : splitSign text with
    | mk negative unsigned =>
      cases back : splitDigits unsigned with
      | mk digits rest =>
        obtain ⟨sign, signs, rfl⟩ := spellsSign_of_splitSign front
        obtain ⟨all, rfl⟩ := digits_of_splitDigits back
        simp only [exponentOfText?, front, back] at h
        split at h
        · cases h
        · rename_i proper
          simp only [Bool.or_eq_true, List.isEmpty_iff, Bool.not_eq_true', not_or,
            Bool.not_eq_false] at proper
          obtain ⟨nonempty, rfl⟩ := proper
          refine ⟨negative, sign, digits, signs, all, nonempty, ?_, by rw [List.append_nil]⟩
          cases negative <;> cases h <;> rfl
  · rintro ⟨negative, sign, digits, signs, all, nonempty, rfl, rfl⟩
    obtain ⟨c, digits, rfl⟩ := List.exists_cons_of_ne_nil nonempty
    have unsigned := splitSign_of_isDigit (Text.digits_cons_iff.mp all).1 digits
    simp only [exponentOfText?, signs.splitSign_append unsigned, splitDigits_of_digits all]
    cases negative <;> rfl

theorem splitSign_unsigned {whole digits fraction : Text} (all : Text.Digits whole)
    (fractions : SpellsFraction digits fraction) (nonempty : ¬(whole = [] ∧ digits = []))
    (exponent : Text) :
    splitSign (whole ++ (fraction ++ exponent)) = (false, whole ++ (fraction ++ exponent)) := by
  cases whole with
  | cons c rest => exact splitSign_of_isDigit (Text.digits_cons_iff.mp all).1 _
  | nil =>
    cases fractions with
    | absent => exact absurd ⟨rfl, rfl⟩ nonempty
    | point => rfl

theorem spells_of_ofText? {text : Text} {n : Numeral} (h : ofText? text = some n) :
    n.Spells text := by
  cases first : splitSign text with
  | mk negative unsigned =>
  cases second : splitDigits unsigned with
  | mk whole pointed =>
  cases third : splitFraction pointed with
  | mk fraction marked =>
    obtain ⟨sign, signs, rfl⟩ := spellsSign_of_splitSign first
    obtain ⟨all, rfl⟩ := digits_of_splitDigits second
    obtain ⟨point, fractions, rfl⟩ := spellsFraction_of_splitFraction third
    simp only [ofText?, first, second, third] at h
    split at h
    · cases h
    · rename_i nonempty
      simp only [Bool.and_eq_true, List.isEmpty_iff] at nonempty
      split at h
      · cases h
        exact .intro signs all fractions nonempty .absent
      · rename_i mark rest
        split at h
        · rename_i letter
          simp only [Bool.or_eq_true, beq_iff_eq] at letter
          obtain ⟨exponent, read, rfl⟩ := Option.map_eq_some_iff.mp h
          obtain ⟨_, sign', digits, signs', all', some', value, rfl⟩ :=
            exponentOfText?_eq_some_iff.mp read
          exact .intro signs all fractions nonempty (.marked letter signs' all' some' value)
        · cases h

theorem Spells.ofText?_eq {text : Text} {n : Numeral} (h : n.Spells text) :
    ofText? text = some n := by
  obtain ⟨negative, whole, digits, power⟩ := n
  obtain @⟨sign, fraction, exponent, signs, all, fractions, nonempty, exponents⟩ := h
  have first := signs.splitSign_append (splitSign_unsigned all fractions nonempty exponent)
  have second := splitDigits_append all (fractions.splitDigits_append_eq exponents)
  have third := fractions.splitFraction_append exponents
  have proper : (whole.isEmpty && digits.isEmpty) = false := by
    simpa only [← Bool.not_eq_true, Bool.and_eq_true, List.isEmpty_iff] using nonempty
  simp only at first second third
  simp only [ofText?, first, second, third, proper]
  cases exponents with
  | absent => rfl
  | marked letter signs' all' some' value =>
    have read := exponentOfText?_eq_some_iff.mpr ⟨_, _, _, signs', all', some', value, rfl⟩
    obtain rfl | rfl := letter <;> simp [read]

/-- The scanner accepts exactly the grammar, and takes a numeral apart as it is spelled. -/
theorem ofText?_eq_some_iff {text : Text} {n : Numeral} : ofText? text = some n ↔ n.Spells text :=
  ⟨spells_of_ofText?, Spells.ofText?_eq⟩

end Numeral
end RecordFilter
