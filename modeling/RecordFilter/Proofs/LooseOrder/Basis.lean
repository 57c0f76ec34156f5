import RecordFilter.Predicate
import RecordFilter.Proofs.Binary64.Overflow
import RecordFilter.Proofs.LooseOrder.Plain
import RecordFilter.Proofs.Numeral.Grammar

/-! What two texts are compared by: two decimals, two floating-point numbers, or the texts themselves.
Both sides have a say in the choice, so exchanging them exchanges what is compared and nothing else. -/

namespace RecordFilter

namespace LooseOrder

inductive Basis where
  | decimals (x y : Decimal)
  | floats (x y : Finite64)
  | texts (a b : Text)
  deriving DecidableEq

namespace Basis

def order : Basis → Ordering
  | decimals x y => x.order y
  | floats x y => x.order y
  | texts a b => compare a b

def swap : Basis → Basis
  | decimals x y => decimals y x
  | floats x y => floats y x
  | texts a b => texts b a

theorem order_swap (basis : Basis) : basis.swap.order = basis.order.swap := by
  cases basis with
  | decimals x y => exact Std.OrientedOrd.eq_swap (a := y.steps)
  | floats x y => exact Std.OrientedOrd.eq_swap (a := y.units)
  | texts a b => exact Std.OrientedOrd.eq_swap (a := b)

end Basis

/-- Decimals come first, then floating-point numbers; one side that cannot be read keeps both out. -/
def basis (a b : Text) : Basis :=
  match decimal? a, decimal? b with
  | some x, some y => .decimals x y
  | _, _ =>
    match float? a, float? b with
    | some x, some y => .floats x y
    | _, _ => .texts a b

theorem looseOrder_eq_order (a b : Text) : looseOrder a b = (basis a b).order := by
  unfold looseOrder basis
  cases decimal? a <;> cases decimal? b <;> cases float? a <;> cases float? b <;> rfl

theorem basis_swap (a b : Text) : basis b a = (basis a b).swap := by
  unfold basis
  cases decimal? a <;> cases decimal? b <;> cases float? a <;> cases float? b <;> rfl

section
variable {a b : Text}

theorem basis_eq_decimals_iff {x y : Decimal} :
    basis a b = .decimals x y ↔ decimal? a = some x ∧ decimal? b = some y := by
  unfold basis
  cases decimal? a <;> cases decimal? b <;> cases float? a <;> cases float? b <;> simp

theorem basis_eq_floats_iff {x y : Finite64} :
    basis a b = .floats x y ↔
      (decimal? a = none ∨ decimal? b = none) ∧ float? a = some x ∧ float? b = some y := by
  unfold basis
  cases decimal? a <;> cases decimal? b <;> cases float? a <;> cases float? b <;> simp

theorem basis_eq_texts_iff :
    basis a b = .texts a b ↔
      (decimal? a = none ∨ decimal? b = none) ∧ (float? a = none ∨ float? b = none) := by
  unfold basis
  cases decimal? a <;> cases decimal? b <;> cases float? a <;> cases float? b <;> simp

end

instance : Std.OrientedCmp looseOrder where
  eq_swap {a b} := by rw [looseOrder_eq_order, looseOrder_eq_order, basis_swap, Basis.order_swap]

/-- A text that spells a number beyond the finite floating-point ones: one from the middle on between
the greatest of them and `2 ^ 1024`. -/
def Overflows (text : Text) : Prop :=
  ∃ n : Numeral, n.Spells (Text.trim text) ∧ (2 : ℚ) ^ 1024 - 2 ^ 970 ≤ n.magnitude

theorem numeral?_eq_none {text : Text} (h : Text.trim text ∉ Numeral.grammar.matches') :
    numeral? text = none := by
  rw [numeral?, Option.eq_none_iff_forall_ne_some]
  intro n read
  exact h (Numeral.mem_grammar_iff.mpr ⟨n, Numeral.ofText?_eq_some_iff.mp read⟩)

theorem basis_eq_texts {a b : Text} (h : numeral? a = none ∨ numeral? b = none) :
    basis a b = .texts a b := by
  rw [basis_eq_texts_iff, decimal?, decimal?, float?, float?]
  obtain none | none := h
  · rw [none]
    exact ⟨.inl rfl, .inl rfl⟩
  · rw [none]
    exact ⟨.inr rfl, .inr rfl⟩

theorem float?_eq_none_iff {text : Text} (h : Text.trim text ∈ Numeral.grammar.matches') :
    float? text = none ↔ Overflows text := by
  obtain ⟨n, spells⟩ := Numeral.mem_grammar_iff.mp h
  rw [float?_of_spells spells, Finite64.ofNumeral?_eq_none_iff]
  constructor
  · intro beyond
    exact ⟨n, spells, beyond⟩
  · rintro ⟨m, same, beyond⟩
    obtain rfl := Option.some_inj.mp (spells.ofText?_eq.symm.trans same.ofText?_eq)
    exact beyond

end LooseOrder

open LooseOrder

/-- Exchanging two texts reverses their order, whatever it rests on, and no text is before or behind
itself. So "below" from one side is "above" from the other, and "at most" with "at least" is equality. -/
theorem looseOrder_swap (v l : Text) :
    looseOrder l v = (looseOrder v l).swap ∧ looseOrder v v = .eq ∧ ∀ field field' : Text,
      (Predicate.mk field .below l nofun).accepts v = (Predicate.mk field' .above v nofun).accepts l ∧
      ((Predicate.mk field .atMost l nofun).accepts v = true ∧
        (Predicate.mk field' .atLeast l nofun).accepts v = true ↔ looseOrder v l = .eq) := by
  have swapped : looseOrder l v = (looseOrder v l).swap := Std.OrientedCmp.eq_swap
  refine ⟨swapped, Std.ReflCmp.compare_self, fun field field' => ⟨?_, ?_⟩⟩
  · show (looseOrder v l).isLT = (looseOrder l v).isGT
    rw [swapped, Ordering.isGT_swap]
  · show (looseOrder v l).isLE = true ∧ (looseOrder v l).isGE = true ↔ looseOrder v l = .eq
    cases looseOrder v l <;> decide

/-- Numerals are the texts of a regular expression. If both texts are numerals, blanks around them
aside, their decimals are compared where both have one, else their floating-point numbers where neither
overflows. In all other cases the texts are compared as they stand. -/
theorem looseOrder_basis :
    (∀ text, (Numeral.ofText? text).isSome = Numeral.recognizes text ∧
      (Numeral.recognizes text = true ↔ text ∈ Numeral.grammar.matches')) ∧
    ∀ a b, looseOrder a b = (basis a b).order ∧
      (¬(Text.trim a ∈ Numeral.grammar.matches' ∧ Text.trim b ∈ Numeral.grammar.matches') →
        basis a b = .texts a b) ∧
      (Text.trim a ∈ Numeral.grammar.matches' → Text.trim b ∈ Numeral.grammar.matches' →
        (∀ x y, basis a b = .decimals x y ↔ decimal? a = some x ∧ decimal? b = some y) ∧
        (∀ x y, basis a b = .floats x y ↔
          (decimal? a = none ∨ decimal? b = none) ∧ float? a = some x ∧ float? b = some y) ∧
        (basis a b = .texts a b ↔
          (decimal? a = none ∨ decimal? b = none) ∧ (Overflows a ∨ Overflows b))) := by
  refine ⟨fun text => ⟨Numeral.isSome_ofText?_eq text, Numeral.recognizes_iff_mem_grammar⟩, fun a b => ?_⟩
  refine ⟨looseOrder_eq_order a b, fun outside => ?_, fun first second => ?_⟩
  · apply basis_eq_texts
    exact (not_and_or.mp outside).imp numeral?_eq_none numeral?_eq_none
  · refine ⟨fun x y => basis_eq_decimals_iff, fun x y => basis_eq_floats_iff, ?_⟩
    rw [basis_eq_texts_iff, float?_eq_none_iff first, float?_eq_none_iff second]

theorem looseOrder_basis_of_great_number :
    let apart : Text := ['1', '_', '0', '0', '0']
    let great : Text := [' ', '1', '.', 'E', '4', '0', '0']
    let small : Text := ['-', '.', '5']
    ¬(Text.trim apart ∈ Numeral.grammar.matches' ∧ Text.trim small ∈ Numeral.grammar.matches') ∧
      basis apart small = .texts apart small ∧
      Text.trim great ∈ Numeral.grammar.matches' ∧ Text.trim small ∈ Numeral.grammar.matches' ∧
      (decimal? great = none ∨ decimal? small = none) ∧ (Overflows great ∨ Overflows small) ∧
      looseOrder great small = compare great small := by
  intro apart great small
  obtain ⟨grammar, choice⟩ := looseOrder_basis
  have inside {text : Text} (h : Numeral.recognizes (Text.trim text) = true) :
      Text.trim text ∈ Numeral.grammar.matches' := (grammar _).2.mp h
  have outside : ¬(Text.trim apart ∈ Numeral.grammar.matches' ∧
      Text.trim small ∈ Numeral.grammar.matches') := by
    intro both
    exact absurd ((grammar _).2.mpr both.1) (by decide)
  have first : Text.trim great ∈ Numeral.grammar.matches' := inside (by decide)
  have second : Text.trim small ∈ Numeral.grammar.matches' := inside (by decide)
  have texts : basis great small = .texts great small := by decide +kernel
  obtain ⟨unread, beyond⟩ := ((choice great small).2.2 first second).2.2.mp texts
  refine ⟨outside, (choice apart small).2.1 outside, first, second, unread, beyond, ?_⟩
  rw [(choice great small).1, texts]
  rfl

end RecordFilter
