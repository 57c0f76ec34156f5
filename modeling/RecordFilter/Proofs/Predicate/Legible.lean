import RecordFilter.Proofs.Predicate.Division

/-! Which predicates are read back from their texts. The characters in front of a symbol must form no
other one that is found before it, alone or together with the start of the symbol. -/

namespace RecordFilter

namespace Comparison

theorem exists_symbol_eq_iff {first second : Char} :
    (∃ comparison : Comparison, comparison.symbol = [first, second]) ↔
      second = '=' ∧ first ∈ ['=', '!', '>', '<'] ∨ second = '~' ∧ first ∈ ['~', '!'] := by
  constructor
  · rintro ⟨comparison, symbol⟩
    cases comparison <;> cases symbol <;> decide
  · simp only [List.mem_cons, List.not_mem_nil, or_false]
    rintro (⟨rfl, rfl | rfl | rfl | rfl⟩ | ⟨rfl, rfl | rfl⟩)
    · exact ⟨equal, rfl⟩
    · exact ⟨notEqual, rfl⟩
    · exact ⟨atLeast, rfl⟩
    · exact ⟨atMost, rfl⟩
    · exact ⟨like, rfl⟩
    · exact ⟨notLike, rfl⟩

end Comparison

namespace Predicate

theorem clear_isPair_iff {front rest : Text} {c : Char} :
    Clear Comparison.IsPair front (c :: rest) ↔
      ∀ comparison : Comparison, comparison.IsPair → ¬comparison.symbol <:+: front ++ [c] := by
  have longer (back : Text) : back ++ [c] <+: back ++ c :: rest := ⟨rest, by simp⟩
  constructor
  · intro clear comparison pair inside
    obtain ⟨text, start, behind⟩ := List.infix_iff_prefix_suffix.mp inside
    obtain rfl | ⟨back, rfl, within⟩ := List.suffix_concat_iff.mp behind
    · exact comparison.symbol_ne_nil (List.eq_nil_of_prefix_nil start)
    · have nonempty : back ≠ [] := by
        rintro rfl
        have length := start.length_le
        rw [pair, List.length_append] at length
        simp at length
      exact clear back within nonempty comparison pair (start.trans (longer back))
  · rintro absent back ⟨before, rfl⟩ nonempty comparison pair start
    have length : comparison.symbol.length ≤ (back ++ [c]).length := by
      have some := List.length_pos_iff.mpr nonempty
      rw [pair, List.length_append, List.length_singleton]
      omega
    refine absent comparison pair (List.infix_iff_prefix_suffix.mpr ⟨back ++ [c], ?_, before, by simp⟩)
    exact List.prefix_of_prefix_length_le start (longer back) length

theorem infix_concat_iff {comparison : Comparison} (pair : comparison.IsPair) {front : Text} {c : Char} :
    comparison.symbol <:+: front ++ [c] ↔
      (∃ last ∈ front.getLast?, comparison.symbol = [last, c]) ∨ comparison.symbol <:+: front := by
  rw [List.infix_concat_iff]
  refine or_congr_left ?_
  simp only [Option.mem_def, List.getLast?_eq_some_iff]
  constructor
  · intro behind
    obtain empty | ⟨start, same, front, rfl⟩ := List.suffix_concat_iff.mp behind
    · exact absurd empty comparison.symbol_ne_nil
    · have length := congrArg List.length same
      rw [pair, List.length_append, List.length_singleton] at length
      obtain ⟨last, rfl⟩ := List.length_eq_one_iff.mp (Nat.succ.inj length).symm
      exact ⟨last, ⟨front, rfl⟩, same⟩
  · rintro ⟨last, ⟨before, rfl⟩, same⟩
    exact ⟨before, by simp [same]⟩

theorem clear_cons_isPair_iff {front rest : Text} {c : Char} :
    Clear Comparison.IsPair front (c :: rest) ↔
      (∀ comparison : Comparison, comparison.IsPair → ¬comparison.symbol <:+: front) ∧
        ∀ last ∈ front.getLast?, ¬∃ comparison : Comparison, comparison.symbol = [last, c] := by
  rw [clear_isPair_iff]
  constructor
  · intro absent
    refine ⟨fun comparison pair inside => ?_, ?_⟩
    · exact absent comparison pair ((infix_concat_iff pair).mpr (.inr inside))
    · rintro last member ⟨comparison, symbol⟩
      have pair : comparison.IsPair := by
        rw [Comparison.IsPair, symbol]
        rfl
      exact absent comparison pair ((infix_concat_iff pair).mpr (.inl ⟨last, member, symbol⟩))
  · rintro ⟨apart, straddle⟩ comparison pair inside
    obtain ⟨last, member, symbol⟩ | inside := (infix_concat_iff pair).mp inside
    · exact straddle last member ⟨comparison, symbol⟩
    · exact apart comparison pair inside

theorem single_not_prefix_iff {c : Char} {text : Text} :
    (∀ comparison : Comparison, ¬comparison.IsPair → ¬comparison.symbol <+: c :: text) ↔
      '>' ≠ c ∧ '<' ≠ c := by
  constructor
  · intro absent
    refine ⟨?_, ?_⟩
    · rintro rfl
      exact absent .above (by decide) ⟨text, rfl⟩
    · rintro rfl
      exact absent .below (by decide) ⟨text, rfl⟩
  · rintro ⟨above, below⟩ comparison single ⟨rest, same⟩
    cases comparison <;> cases same <;> first | exact single rfl | contradiction

theorem clear_single_iff {front rest : Text} :
    Clear (¬Comparison.IsPair ·) front rest ↔ '>' ∉ front ∧ '<' ∉ front := by
  induction front with
  | nil => exact iff_of_true (clear_nil _ _) ⟨List.not_mem_nil, List.not_mem_nil⟩
  | cons c front ih =>
    rw [clear_cons_iff, single_not_prefix_iff, ih, List.mem_cons, List.mem_cons, not_or, not_or,
      and_and_and_comm]

/-- Predicates that are read back from their texts. A symbol of two characters has no such symbol in
front of it, neither in the field nor begun by its last character. A symbol of one character is the
first of its kind and has no other kind around. -/
def IsLegible (p : Predicate) : Prop :=
  (p.comparison.IsPair →
    (∀ comparison : Comparison, comparison.IsPair → ¬comparison.symbol <:+: p.field) ∧
    (p.comparison = .equal → ∀ last ∈ p.field.getLast?, last ∉ ['=', '!', '>', '<']) ∧
    (p.comparison = .like → ∀ last ∈ p.field.getLast?, last ∉ ['~', '!'])) ∧
  (¬p.comparison.IsPair →
    '>' ∉ p.field ∧ '<' ∉ p.field ∧
      ∀ comparison : Comparison, comparison.IsPair → ¬comparison.symbol <:+: p.text)

theorem clear_symbol_iff {p : Predicate} (pair : p.comparison.IsPair) :
    Clear Comparison.IsPair p.field (p.comparison.symbol ++ p.literal) ↔
      (∀ comparison : Comparison, comparison.IsPair → ¬comparison.symbol <:+: p.field) ∧
        (p.comparison = .equal → ∀ last ∈ p.field.getLast?, last ∉ ['=', '!', '>', '<']) ∧
        (p.comparison = .like → ∀ last ∈ p.field.getLast?, last ∉ ['~', '!']) := by
  cases kind : p.comparison <;> rw [kind] at pair
  case above => cases pair
  case below => cases pair
  all_goals
    rw [Comparison.symbol, List.cons_append, clear_cons_isPair_iff]
    simp [Comparison.exists_symbol_eq_iff]

theorem parse_text_eq_ok_iff {p : Predicate} : parse p.text = .ok p ↔ p.IsLegible := by
  rw [parse_eq_ok_iff, divide?_eq_some_iff, clear_single_iff, IsLegible]
  by_cases pair : p.comparison.IsPair
  · simp [pair, clear_symbol_iff pair, text]
  · simp [pair, text, and_assoc]

/-- What is read is the whole fragment, and the second search always finds the symbol that the first
one chose. Only a fragment without any symbol is refused for want of one. A predicate is read back
exactly where it is legible. -/
theorem parse_iff_isLegible :
    (∀ fragment p, parse fragment = .ok p → p.text = fragment) ∧
    (∀ fragment, parse fragment = searchTwice fragment ∧
      ∀ comparison, chosen? fragment = some comparison →
        (fragment.dropInfix? comparison.symbol).isSome) ∧
    (∀ fragment echo, parse fragment = .error (.unknownOperator echo) ↔
      echo = fragment ∧ ∀ comparison : Comparison, ¬comparison.symbol <:+: fragment) ∧
    ∀ p : Predicate, parse p.text = .ok p ↔ p.IsLegible :=
  ⟨fun _ _ => text_of_parse,
    fun fragment => ⟨parse_eq_searchTwice fragment, fun _ => isSome_dropInfix?_of_chosen?⟩,
    fun _ _ => parse_eq_unknownOperator_iff, fun _ => parse_text_eq_ok_iff⟩

theorem parse_of_straddling_symbols :
    let fragment : Text := ['a', '>', 'b', '=', '=', '=', 'c']
    let p : Predicate := ⟨['a', '>', 'b'], .equal, ['=', 'c'], nofun⟩
    let q : Predicate := ⟨['a', '>', 'b', '='], .equal, ['c'], nofun⟩
    parse fragment = .ok p ∧ p.text = fragment ∧ q.text = fragment ∧
      chosen? fragment = some .equal ∧ (fragment.dropInfix? Comparison.equal.symbol).isSome ∧
      p.IsLegible ∧ ¬q.IsLegible := by
  intro fragment p q
  have read : parse fragment = .ok p := rfl
  have chosen : chosen? fragment = some .equal := by decide
  obtain ⟨whole, searches, -, legible⟩ := parse_iff_isLegible
  refine ⟨read, whole fragment p read, rfl, chosen, (searches fragment).2 _ chosen, ?_, fun other => ?_⟩
  · exact (legible p).mp read
  · exact other.1 rfl |>.2.1 rfl '=' rfl (by decide)

end Predicate
end RecordFilter
