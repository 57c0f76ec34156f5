import RecordFilter.Connective
import RecordFilter.Predicate

/-! The parts of predicates. A symbol that was found stands where it was found, and a predicate that
was made has the parts it was made from. -/

namespace RecordFilter

namespace Comparison

theorem eq_append_of_pairAt? {text rest : Text} {comparison : Comparison}
    (h : pairAt? text = some (comparison, rest)) : text = comparison.symbol ++ rest := by
  unfold pairAt? at h
  split at h <;> cases h <;> rfl

theorem eq_append_of_singleAt? {text rest : Text} {comparison : Comparison}
    (h : singleAt? text = some (comparison, rest)) : text = comparison.symbol ++ rest := by
  unfold singleAt? at h
  split at h <;> cases h <;> rfl

theorem symbol_ne_nil (comparison : Comparison) : comparison.symbol ≠ [] := by
  cases comparison <;> decide

theorem char_not_mem_symbol (comparison : Comparison) (connective : Connective) :
    connective.char ∉ comparison.symbol := by
  cases comparison <;> cases connective <;> decide

end Comparison

namespace Predicate

theorem make_eq_ok_iff {field literal : Text} {comparison : Comparison} {p : Predicate} :
    make field comparison literal = .ok p ↔
      p.field = field ∧ p.comparison = comparison ∧ p.literal = literal := by
  obtain ⟨f, c, l, fits⟩ := p
  unfold make
  split
  · simp [eq_comm]
  · rename_i unfit
    simp only [reduceCtorEq, false_iff]
    rintro ⟨rfl, rfl, rfl⟩
    exact unfit fits

theorem text_ne_nil (p : Predicate) : p.text ≠ [] := by
  simp [text, p.comparison.symbol_ne_nil]

end Predicate
end RecordFilter
