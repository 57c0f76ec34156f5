import RecordFilter.Record

/-! The negation of a filter: the connectives change places and every comparison turns into its
opposite. It holds of exactly the records of which the filter does not. -/

namespace RecordFilter

namespace Connective

def dual : Connective → Connective
  | and => or
  | or => and

end Connective

namespace Comparison

def opposite : Comparison → Comparison
  | equal => notEqual
  | notEqual => equal
  | atLeast => below
  | below => atLeast
  | atMost => above
  | above => atMost
  | like => notLike
  | notLike => like

theorem isPattern_opposite (comparison : Comparison) :
    comparison.opposite.isPattern = comparison.isPattern := by
  cases comparison <;> rfl

end Comparison

namespace Predicate

def opposite (p : Predicate) : Predicate where
  field := p.field
  comparison := p.comparison.opposite
  literal := p.literal
  literal_fits pattern := p.literal_fits (p.comparison.isPattern_opposite ▸ pattern)

theorem accepts_opposite (p : Predicate) (value : Text) : p.opposite.accepts value = !p.accepts value := by
  obtain ⟨field, comparison, literal, fits⟩ := p
  cases comparison with
  | equal | like => rfl
  | notEqual | notLike => exact (Bool.not_not _).symm
  | atLeast | atMost | above | below =>
    -- The order has one of three outcomes, by numbers or by characters.
    simp only [accepts, opposite, Comparison.opposite]
    cases looseOrder value literal <;> rfl

theorem holds_opposite {ν : Type} [RecordNumber ν] (p : Predicate) (record : Document ν)
    (separator : Char) : p.opposite.holds record separator = !p.holds record separator :=
  p.accepts_opposite _

end Predicate

namespace Filter

def negation : Filter → Filter
  | leaf p => leaf p.opposite
  | join connective l r => join connective.dual l.negation r.negation

theorem eval_negation {verdict : Predicate → Bool} (opposed : ∀ p, verdict p.opposite = !verdict p)
    (f : Filter) : f.negation.eval verdict = !f.eval verdict := by
  induction f with
  | leaf p => exact opposed p
  | join connective l r ihl ihr =>
    cases connective with
    | and => rw [negation, Connective.dual, eval_or, eval_and, ihl, ihr, Bool.not_and]
    | or => rw [negation, Connective.dual, eval_and, eval_or, ihl, ihr, Bool.not_or]

/-- The negation of a filter holds of a record exactly where the filter does not, whatever the fields of
the record hold and whether they are there. -/
theorem holds_negation {ν : Type} [RecordNumber ν] (f : Filter) (record : Document ν)
    (separator : Char) : f.negation.holds record separator = !f.holds record separator := by
  apply eval_negation
  intro p
  exact p.holds_opposite record separator

end Filter
end RecordFilter
