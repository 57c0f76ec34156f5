import RecordFilter.Proofs.Filter.Reading
import RecordFilter.Proofs.Outline.Lines
import RecordFilter.Proofs.Predicate.Legible

/-! The filter behind an outline. A line shows where its field ends, since the first symbol of the line is
the one of its predicate; the kinds of the lines show the shape of the tree, and with it the depths. -/

namespace RecordFilter

open Text.Quoted (encode encodeChar IsEscaping)

namespace Text

section
variable {inner front behind : Text} {c : Char}

theorem infix_of_infix_cons (nonempty : inner ≠ []) (absent : c ∉ inner)
    (h : inner <:+: c :: behind) : inner <:+: behind := by
  obtain leading | within := List.infix_cons_iff.mp h
  · obtain rfl | ⟨rest, rfl, -⟩ := List.prefix_cons_iff.mp leading
    · exact absurd rfl nonempty
    · exact absurd List.mem_cons_self absent
  · exact within

theorem infix_of_infix_append (nonempty : inner ≠ []) (free : ∀ c ∈ front, c ∉ inner)
    (h : inner <:+: front ++ behind) : inner <:+: behind := by
  induction front with
  | nil => exact h
  | cons c front ih =>
    obtain ⟨absent, free⟩ := List.forall_mem_cons.mp free
    exact ih free (infix_of_infix_cons nonempty absent h)

theorem infix_append_cons (absent : c ∉ inner) (h : inner <:+: front ++ c :: behind) :
    inner <:+: front ∨ inner <:+: behind := by
  by_cases empty : inner = []
  · rw [empty]
    exact .inl List.nil_infix
  · obtain within | within | ⟨start, rest, rfl, ending, leading⟩ := List.infix_append_iff.mp h
    · exact .inl within
    · exact .inr (infix_of_infix_cons empty absent within)
    · obtain rfl | ⟨rest, rfl, -⟩ := List.prefix_cons_iff.mp leading
      · rw [List.append_nil]
        exact .inl ending.isInfix
      · exact absurd (List.mem_append_right start List.mem_cons_self) absent

end

theorem line_cons_inj {line other rest behind : Text} (whole : '\n' ∉ line) (otherWhole : '\n' ∉ other)
    (same : line ++ '\n' :: rest = other ++ '\n' :: behind) : line = other ∧ rest = behind := by
  have split := congrArg (List.splitOn '\n') same
  rw [List.splitOn_append_cons_self_of_not_mem whole,
    List.splitOn_append_cons_self_of_not_mem otherWhole] at split
  obtain rfl := (List.cons.inj split).1
  exact ⟨rfl, (List.cons.inj (List.append_cancel_left same)).2⟩

end Text

namespace Comparison

theorem not_isEscaping_of_mem_symbol {comparison : Comparison} {c : Char}
    (member : c ∈ comparison.symbol) : ¬IsEscaping c := by
  have all : comparison.symbol.all fun c => ¬IsEscaping c := by cases comparison <;> decide
  exact of_decide_eq_true (List.all_eq_true.mp all c member)

theorem space_not_mem_symbol (comparison : Comparison) : ' ' ∉ comparison.symbol := by
  cases comparison <;> decide

theorem infix_of_infix_flatMap_encodeChar {comparison : Comparison} (pair : comparison.IsPair)
    {text : Text} (h : comparison.symbol <:+: text.flatMap encodeChar) : comparison.symbol <:+: text := by
  induction text with
  | nil => exact h
  | cons c text ih =>
    rw [List.flatMap_cons] at h
    obtain ⟨same, -⟩ | ⟨escape, same, escaping⟩ := Text.Quoted.encodeChar_cases c
    · rw [same, List.singleton_append] at h
      obtain leading | within := List.infix_cons_iff.mp h
      · -- The second character of the symbol begins what is written for the next one.
        obtain ⟨first, second, symbol⟩ := List.length_eq_two.mp pair
        have member : second ∈ comparison.symbol := by simp [symbol]
        rw [symbol] at leading ⊢
        obtain ⟨rfl, next⟩ := List.cons_prefix_cons.mp leading
        have start := Text.Quoted.prefix_of_prefix_flatMap_encodeChar
          (not_isEscaping_of_mem_symbol member) next
        exact (List.cons_prefix_cons.mpr ⟨rfl, start⟩).isInfix
      · exact List.infix_cons (ih within)
    · rw [same] at h
      have free : ∀ d ∈ '\\' :: escape, d ∉ comparison.symbol := by
        refine List.forall_mem_cons.mpr ⟨fun member => ?_, fun d inside member => ?_⟩
        · exact absurd (by decide) (not_isEscaping_of_mem_symbol member)
        · exact not_isEscaping_of_mem_symbol member (escaping d inside)
      exact List.infix_cons (ih (Text.infix_of_infix_append comparison.symbol_ne_nil free h))

theorem infix_of_infix_encode {comparison : Comparison} (pair : comparison.IsPair) {text : Text}
    (h : comparison.symbol <:+: encode text) : comparison.symbol <:+: text := by
  have mark : '"' ∉ comparison.symbol := fun member =>
    absurd (by decide) (not_isEscaping_of_mem_symbol member)
  have empty : ¬comparison.symbol <:+: [] := fun within =>
    comparison.symbol_ne_nil (List.eq_nil_of_infix_nil within)
  have inner := Text.infix_of_infix_cons comparison.symbol_ne_nil mark h
  exact infix_of_infix_flatMap_encodeChar pair ((Text.infix_append_cons mark inner).resolve_right empty)

end Comparison

namespace Predicate

theorem infix_text_of_infix_outline {p : Predicate} {other : Comparison} (pair : other.IsPair)
    (h : other.symbol <:+: p.outline) : other.symbol <:+: p.text := by
  have space := other.space_not_mem_symbol
  obtain front | quoted := Text.infix_append_cons space h
  · obtain field | symbol := Text.infix_append_cons space front
    · exact List.infix_append_of_infix_left (List.infix_append_of_infix_left field)
    · exact symbol.trans (List.infix_append _ _ _)
  · exact (Comparison.infix_of_infix_encode pair quoted).trans (List.suffix_append _ _).isInfix

theorem divide?_outline {p : Predicate} (legible : p.IsLegible) :
    divide? p.outline = some (p.field ++ [' '], p.comparison, ' ' :: encode p.literal) := by
  rw [divide?_eq_some_iff]
  refine ⟨by simp [outline], ?_⟩
  by_cases pair : p.comparison.IsPair
  · refine .inl ⟨pair, ?_⟩
    obtain ⟨first, rest, symbol⟩ := List.exists_cons_of_ne_nil p.comparison.symbol_ne_nil
    rw [symbol, List.cons_append, clear_cons_isPair_iff]
    refine ⟨fun other otherPair within => ?_, fun last member straddles => ?_⟩
    · obtain inside | empty := Text.infix_append_cons other.space_not_mem_symbol within
      · exact (legible.1 pair).1 other otherPair inside
      · exact other.symbol_ne_nil (List.eq_nil_of_infix_nil empty)
    · obtain ⟨other, straddling⟩ := straddles
      rw [List.getLast?_concat] at member
      cases member
      exact other.space_not_mem_symbol (by simp [straddling])
  · obtain ⟨above, below, absent⟩ := legible.2 pair
    refine .inr ⟨pair, clear_single_iff.mpr ?_, fun other otherPair within => ?_⟩
    · simp [above, below]
    · exact absent other otherPair (infix_text_of_infix_outline otherPair within)

theorem outline_inj {p q : Predicate} (legible : p.IsLegible) (otherLegible : q.IsLegible)
    (same : p.outline = q.outline) : p = q := by
  have divided := (divide?_outline legible).symm.trans (congrArg divide? same)
  rw [divide?_outline otherLegible] at divided
  obtain ⟨field, comparison, literal⟩ : p.field ++ [' '] = q.field ++ [' '] ∧
      p.comparison = q.comparison ∧ ' ' :: encode p.literal = ' ' :: encode q.literal := by
    simpa using divided
  obtain ⟨pField, pComparison, pLiteral, pFits⟩ := p
  obtain ⟨qField, qComparison, qLiteral, qFits⟩ := q
  obtain rfl : pField = qField := List.append_cancel_right field
  obtain rfl : pComparison = qComparison := comparison
  obtain rfl : pLiteral = qLiteral := Text.Quoted.encode_injective (List.cons.inj literal).2
  rfl

theorem outline_ne_word {p : Predicate} (legible : p.IsLegible) (connective : Connective) :
    p.outline ≠ connective.word := by
  intro same
  have divided := (congrArg divide? same).symm.trans (divide?_outline legible)
  cases connective <;> cases divided

structure IsShown (p : Predicate) : Prop where
  legible : p.IsLegible
  whole : '\n' ∉ p.outline

end Predicate

theorem Connective.word_injective {connective other : Connective}
    (same : connective.word = other.word) : connective = other := by
  cases connective <;> cases other <;> trivial

namespace Filter

theorem outlineLine_append_inj {depth : Nat} {node other rest behind : Text} (whole : '\n' ∉ node)
    (otherWhole : '\n' ∉ other)
    (same : outlineLine depth node ++ rest = outlineLine depth other ++ behind) :
    node = other ∧ rest = behind := by
  simp only [outlineLine, List.append_assoc, List.singleton_append] at same
  exact Text.line_cons_inj whole otherWhole (List.append_cancel_left same)

theorem outlineAt_append_inj {f g : Filter} (shown : ∀ p ∈ f.leaves, p.IsShown)
    (otherShown : ∀ p ∈ g.leaves, p.IsShown) {depth : Nat} {rest behind : Text}
    (same : f.outlineAt depth ++ rest = g.outlineAt depth ++ behind) : f = g ∧ rest = behind := by
  -- The rest is arbitrary, so the left subtree tells where the right one starts.
  induction f generalizing g depth rest behind with
  | leaf p =>
    have shown := List.forall_mem_singleton.mp shown
    cases g with
    | leaf q =>
      have otherShown := List.forall_mem_singleton.mp otherShown
      obtain ⟨line, same⟩ := outlineLine_append_inj shown.whole otherShown.whole same
      exact ⟨congrArg leaf (Predicate.outline_inj shown.legible otherShown.legible line), same⟩
    | join connective l r =>
      rw [outlineAt, outlineAt, List.append_assoc] at same
      have line := (outlineLine_append_inj shown.whole connective.line_break_not_mem_word same).1
      exact absurd line (Predicate.outline_ne_word shown.legible connective)
  | join connective l r ihl ihr =>
    obtain ⟨left, right⟩ := List.forall_mem_append.mp shown
    have whole := connective.line_break_not_mem_word
    cases g with
    | leaf q =>
      have otherShown := List.forall_mem_singleton.mp otherShown
      rw [outlineAt, outlineAt, List.append_assoc] at same
      have line := (outlineLine_append_inj whole otherShown.whole same).1
      exact absurd line.symm (Predicate.outline_ne_word otherShown.legible connective)
    | join other m s =>
      obtain ⟨otherLeft, otherRight⟩ := List.forall_mem_append.mp otherShown
      simp only [outlineAt, List.append_assoc] at same
      obtain ⟨word, subtrees⟩ := outlineLine_append_inj whole other.line_break_not_mem_word same
      obtain rfl := Connective.word_injective word
      obtain ⟨rfl, subtree⟩ := ihl left otherLeft subtrees
      obtain ⟨rfl, after⟩ := ihr right otherRight subtree
      exact ⟨rfl, after⟩

theorem isShown_of_parse {text : Text} {f : Filter} (read : parse text = .ok f)
    (whole : ∀ p ∈ f.leaves, '\n' ∉ p.field) : ∀ p ∈ f.leaves, p.IsShown := by
  obtain ⟨chain, -, operands, rfl⟩ := parse_eq_ok_iff.mp read
  intro p member
  have operand : p.IsOperand := operands p (chain.leaves_filter ▸ member)
  refine ⟨Predicate.parse_text_eq_ok_iff.mp operand.parse_text, ?_⟩
  rw [p.line_break_not_mem_outline_iff]
  exact whole p member

/-- Where no field has a line break, an outline determines the filter and the text it was read from. -/
theorem eq_of_outline_eq {text other : Text} {f g : Filter} (read : parse text = .ok f)
    (otherRead : parse other = .ok g) (whole : ∀ p ∈ f.leaves, '\n' ∉ p.field)
    (otherWhole : ∀ p ∈ g.leaves, '\n' ∉ p.field) (same : f.outline = g.outline) :
    text = other ∧ f = g := by
  have shown := isShown_of_parse read whole
  have otherShown := isShown_of_parse otherRead otherWhole
  obtain ⟨rfl, -⟩ := outlineAt_append_inj shown otherShown (congrArg (· ++ []) same)
  exact ⟨(text_of_parse read).symm.trans (text_of_parse otherRead), rfl⟩

theorem eq_of_outline_eq_of_misleading_fields :
    let p : Predicate := ⟨[' ', ' ', 'x', '"'], .equal, ['"', '\\', '\n', '\x07'], nofun⟩
    let q : Predicate := ⟨['A', 'N', 'D'], .equal, [], nofun⟩
    let r : Predicate := ⟨[' ', ' ', 'O', 'R'], .above, ['1'], nofun⟩
    let text : Text :=
      [' ', ' ', 'x', '"', '=', '=', '"', '\\', '\n', '\x07', '&', 'A', 'N', 'D', '=', '=', '|',
        ' ', ' ', 'O', 'R', '>', '1']
    let chain : Chain := .link p .and (.link q .or (.last r))
    let f : Filter := join .or (join .and (leaf p) (leaf q)) (leaf r)
    parse text = .ok f ∧ parse chain.text = .ok chain.filter ∧ (∀ p ∈ f.leaves, '\n' ∉ p.field) ∧
      f.outline = chain.filter.outline ∧ text = chain.text ∧ f = chain.filter := by
  intro p q r text chain f
  have read : parse text = .ok f := rfl
  have otherRead : parse chain.text = .ok chain.filter := rfl
  have whole : ∀ p ∈ f.leaves, '\n' ∉ p.field := by decide
  have same : f.outline = chain.filter.outline := rfl
  exact ⟨read, otherRead, whole, same, eq_of_outline_eq read otherRead whole whole same⟩

example :
    let p : Predicate := ⟨['A', 'N', 'D', '\n', ' ', ' ', 'a', ' ', '>', ' ', '"', '"', '\n', ' ', ' ', 'b'],
      .equal, [], nofun⟩
    let left : Predicate := ⟨['a'], .above, [], nofun⟩
    let right : Predicate := ⟨['b'], .equal, [], nofun⟩
    parse p.text = .ok (leaf p) ∧
      (leaf p).outline = (join .and (leaf left) (leaf right)).outline :=
  ⟨rfl, rfl⟩

end Filter
end RecordFilter
