import RecordFilter.Proofs.Filter.Reading
import RecordFilter.Proofs.Predicate.Legible

/-! Fields and literals without the characters that symbols and connectives are made of. A predicate
between two of them is read back from its text, whatever its comparison, and alone makes a filter. -/

namespace RecordFilter

namespace Text

def marks : List Char := ['=', '!', '~', '>', '<', '&', '|']

def Unmarked (text : Text) : Prop := ∀ c ∈ text, c ∉ marks

instance (text : Text) : Decidable text.Unmarked :=
  List.decidableBAll _ text

theorem Unmarked.not_mem {text : Text} (unmarked : text.Unmarked) {c : Char} (mark : c ∈ marks) :
    c ∉ text :=
  fun member => unmarked c member mark

theorem Unmarked.plain {text : Text} (unmarked : text.Unmarked) : text.Plain := by
  intro connective
  cases connective with
  | and => exact unmarked.not_mem (by decide)
  | or => exact unmarked.not_mem (by decide)

end Text

namespace Comparison

theorem isPair_iff_mem_symbol {comparison : Comparison} :
    comparison.IsPair ↔ '=' ∈ comparison.symbol ∨ '~' ∈ comparison.symbol := by
  cases comparison <;> decide

end Comparison

namespace Predicate

variable {p : Predicate}

theorem isLegible_of_unmarked (field : p.field.Unmarked) (literal : p.literal.Unmarked) :
    p.IsLegible := by
  have last {c : Char} (member : c ∈ p.field.getLast?) : c ∈ p.field :=
    List.mem_of_getLast? member
  have free {text : Text} (equals : '=' ∉ text) (tilde : '~' ∉ text) (other : Comparison)
      (pair : other.IsPair) : ¬other.symbol <:+: text := by
    intro inside
    obtain member | member := Comparison.isPair_iff_mem_symbol.mp pair
    · exact equals (inside.subset member)
    · exact tilde (inside.subset member)
  refine ⟨fun _ => ⟨?_, fun _ c member mark => ?_, fun _ c member mark => ?_⟩,
    fun single => ⟨field.not_mem (by decide), field.not_mem (by decide), ?_⟩⟩
  · exact free (field.not_mem (by decide)) (field.not_mem (by decide))
  · have marks : ['=', '!', '>', '<'] ⊆ Text.marks := by decide
    exact field c (last member) (marks mark)
  · have marks : ['~', '!'] ⊆ Text.marks := by decide
    exact field c (last member) (marks mark)
  · obtain ⟨equals, tilde⟩ := not_or.mp (Comparison.isPair_iff_mem_symbol.not.mp single)
    have parts {c : Char} (mark : c ∈ Text.marks) (other : c ∉ p.comparison.symbol) : c ∉ p.text := by
      rw [text, List.mem_append, List.mem_append, not_or, not_or]
      exact ⟨⟨field.not_mem mark, other⟩, literal.not_mem mark⟩
    exact free (parts (by decide) equals) (parts (by decide) tilde)

theorem isOperand_of_unmarked (field : p.field.Unmarked) (literal : p.literal.Unmarked) :
    p.IsOperand where
  field_plain := field.plain
  literal_plain := literal.plain
  parse_text := parse_text_eq_ok_iff.mpr (isLegible_of_unmarked field literal)

end Predicate

theorem Filter.parse_text_of_isOperand {p : Predicate} (operand : p.IsOperand) :
    parse p.text = .ok (leaf p) :=
  parse_eq_ok_iff.mpr ⟨.last p, List.flatten_singleton, List.forall_mem_singleton.mpr operand, rfl⟩

end RecordFilter
