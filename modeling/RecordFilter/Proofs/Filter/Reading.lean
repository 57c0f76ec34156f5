import RecordFilter.Proofs.Filter.Chain
import RecordFilter.Proofs.Filter.Tokens
import RecordFilter.Proofs.Predicate.Division

/-! What is read as a filter. A token list is read exactly where it is the token list of a chain
whose predicates are read back from their texts, and a text where these predicates are plain too. -/

namespace RecordFilter

structure Predicate.IsOperand (p : Predicate) : Prop where
  field_plain : p.field.Plain
  literal_plain : p.literal.Plain
  parse_text : Predicate.parse p.text = .ok p

theorem Predicate.isOperand_iff {p : Predicate} :
    p.IsOperand ↔ p.text.Plain ∧ Predicate.parse p.text = .ok p := by
  have symbol : Text.Plain p.comparison.symbol := fun connective =>
    p.comparison.char_not_mem_symbol connective
  have text : p.text.Plain ↔ p.field.Plain ∧ p.literal.Plain := by
    simp [Predicate.text, Text.plain_append_iff, symbol]
  rw [text]
  constructor
  · intro operand
    exact ⟨⟨operand.field_plain, operand.literal_plain⟩, operand.parse_text⟩
  · rintro ⟨⟨field, literal⟩, parse⟩
    exact ⟨field, literal, parse⟩

theorem Predicate.IsOperand.text_plain {p : Predicate} (operand : p.IsOperand) : p.text.Plain :=
  (isOperand_iff.mp operand).1

namespace Chain

def Readable (chain : Chain) : Prop := ∀ p ∈ chain.predicates, Predicate.parse p.text = .ok p

theorem readable_last {p : Predicate} : (last p).Readable ↔ Predicate.parse p.text = .ok p := by
  simp [Readable, predicates]

theorem readable_link {p : Predicate} {connective : Connective} {rest : Chain} :
    (link p connective rest).Readable ↔ Predicate.parse p.text = .ok p ∧ rest.Readable := by
  simp [Readable, predicates]

theorem alternates_tokens_iff (chain : Chain) :
    Filter.Alternates chain.tokens ↔ ∀ p ∈ chain.predicates, p.text.Plain := by
  induction chain with
  | last p => simp [tokens, predicates, Filter.alternates_singleton_iff]
  | link p connective rest ih =>
    rw [tokens, predicates, List.forall_mem_cons, ← ih]
    refine ⟨Filter.Alternates.of_cons, ?_⟩
    rintro ⟨plain, alternates⟩
    exact .cons plain alternates

end Chain

namespace Filter

section Sequencing
variable {α β : Type}

theorem bind_eq_ok_iff {x : Except FilterError α} {f : α → Except FilterError β} {b : β} :
    (x >>= f) = .ok b ↔ ∃ a, x = .ok a ∧ f a = .ok b := by
  cases x <;> simp [bind, Except.bind]

theorem mapM_cons_eq_ok_iff {f : α → Except FilterError β} {x : α} {xs : List α} {ys : List β} :
    (x :: xs).mapM f = .ok ys ↔
      ∃ y rest, f x = .ok y ∧ xs.mapM f = .ok rest ∧ ys = y :: rest := by
  simp only [List.mapM_cons, bind_eq_ok_iff, pure, Except.pure, Except.ok.injEq]
  constructor
  · rintro ⟨y, hy, rest, hrest, rfl⟩
    exact ⟨y, rest, hy, hrest, rfl⟩
  · rintro ⟨y, rest, hy, hrest, rfl⟩
    exact ⟨y, hy, rest, hrest, rfl⟩

end Sequencing

theorem parseConnective_eq_ok_iff {token : Text} {connective : Connective} :
    parseConnective token = .ok connective ↔ token = connective.symbol := by
  constructor
  · unfold parseConnective Connective.ofSymbol?
    intro h
    split at h
    · rename_i found
      split at found
      · cases h
        rw [Connective.eq_char_of_ofChar? found, Connective.symbol]
      · cases found
    · cases h
  · rintro rfl
    rw [parseConnective, Connective.ofSymbol?_symbol]

theorem parseOperand_eq_ok_iff {fragment : Text} {f : Filter} :
    parseOperand fragment = .ok f ↔ ∃ p, Predicate.parse fragment = .ok p ∧ f = leaf p := by
  unfold parseOperand
  cases Predicate.parse fragment <;> simp [Except.map, eq_comm]

theorem exists_chain_of_pairs {tokens : List Text} {pairs : List (Text × Text)} {last : Text}
    {connectives : List Connective} {operands : List Filter} {p : Predicate}
    (paired : pairTokens tokens = some (pairs, last))
    (hc : (pairs.mapM fun pair => parseConnective pair.2) = .ok connectives)
    (ho : (pairs.mapM fun pair => parseOperand pair.1) = .ok operands)
    (hl : Predicate.parse last = .ok p) :
    ∃ chain : Chain, chain.tokens = tokens ∧ chain.Readable ∧
      chain.tail = (operands.zip connectives).foldr Tail.push ⟨leaf p, none⟩ := by
  -- The pairs are made from the front, so the chain grows by a link where the fold pushes.
  fun_induction pairTokens tokens generalizing pairs connectives operands with
  | case1 => cases paired
  | case2 last =>
    cases paired
    cases hc
    cases ho
    have text := Predicate.text_of_parse hl
    exact ⟨.last p, by rw [Chain.tokens, text], by rwa [Chain.readable_last, text], rfl⟩
  | case3 operand token rest ih =>
    obtain ⟨⟨pairs, last⟩, found, same⟩ := Option.map_eq_some_iff.mp paired
    cases same
    obtain ⟨connective, connectives, hconnective, hcs, rfl⟩ := mapM_cons_eq_ok_iff.mp hc
    obtain ⟨_, operands, hoperand, hos, rfl⟩ := mapM_cons_eq_ok_iff.mp ho
    obtain ⟨q, hq, rfl⟩ := parseOperand_eq_ok_iff.mp hoperand
    obtain ⟨chain, rfl, readable, tail⟩ := ih found hcs hos
    obtain rfl : token = connective.symbol := parseConnective_eq_ok_iff.mp hconnective
    obtain rfl : q.text = operand := Predicate.text_of_parse hq
    refine ⟨.link q connective chain, rfl, Chain.readable_link.mpr ⟨hq, readable⟩, ?_⟩
    rw [Chain.tail, tail, List.zip_cons_cons, List.foldr_cons]

theorem exists_pairs_of_chain {chain : Chain} (readable : chain.Readable) :
    ∃ pairs operands, ∃ p : Predicate, pairTokens chain.tokens = some (pairs, p.text) ∧
      (pairs.mapM fun pair => parseConnective pair.2) = .ok chain.connectives ∧
      (∀ pair ∈ pairs, pair.1 ≠ []) ∧
      (pairs.mapM fun pair => parseOperand pair.1) = .ok operands ∧
      Predicate.parse p.text = .ok p ∧
      chain.tail = (operands.zip chain.connectives).foldr Tail.push ⟨leaf p, none⟩ := by
  induction chain with
  | last p => exact ⟨[], [], p, rfl, rfl, by simp, rfl, Chain.readable_last.mp readable, rfl⟩
  | link p connective chain ih =>
    obtain ⟨hp, readable⟩ := Chain.readable_link.mp readable
    obtain ⟨pairs, operands, last, paired, hc, nonempty, ho, hl, tail⟩ := ih readable
    refine ⟨(p.text, connective.symbol) :: pairs, leaf p :: operands, last, ?_, ?_, ?_, ?_, hl, ?_⟩
    · rw [Chain.tokens, pairTokens, paired, Option.map_some]
    · exact mapM_cons_eq_ok_iff.mpr ⟨_, _, parseConnective_eq_ok_iff.mpr rfl, hc, rfl⟩
    · exact List.forall_mem_cons.mpr ⟨p.text_ne_nil, nonempty⟩
    · exact mapM_cons_eq_ok_iff.mpr ⟨_, _, parseOperand_eq_ok_iff.mpr ⟨p, hp, rfl⟩, ho, rfl⟩
    · rw [Chain.tail, tail, Chain.connectives, List.zip_cons_cons, List.foldr_cons]

theorem exists_chain_of_ofTokens {tokens : List Text} {f : Filter} (h : ofTokens tokens = .ok f) :
    ∃ chain : Chain, chain.tokens = tokens ∧ chain.Readable ∧ chain.filter = f := by
  have close {chain : Chain} {t : Tail} (tail : chain.tail = t) : chain.filter = t.close := by
    rw [Chain.filter, tail]
  unfold ofTokens at h
  split at h
  · cases h
  · rename_i last paired
    obtain ⟨p, hl, rfl⟩ := parseOperand_eq_ok_iff.mp h
    obtain ⟨chain, same, readable, tail⟩ := exists_chain_of_pairs paired rfl rfl hl
    exact ⟨chain, same, readable, close tail⟩
  · rename_i pairs last nonempty paired
    obtain ⟨connectives, hc, h⟩ := bind_eq_ok_iff.mp h
    split at h
    · cases h
    obtain ⟨operands, ho, h⟩ := bind_eq_ok_iff.mp h
    obtain ⟨_, hlast, h⟩ := bind_eq_ok_iff.mp h
    obtain ⟨p, hl, rfl⟩ := parseOperand_eq_ok_iff.mp hlast
    obtain ⟨chain, same, readable, tail⟩ := exists_chain_of_pairs paired hc ho hl
    cases h
    exact ⟨chain, same, readable, close tail⟩

theorem ofTokens_tokens {chain : Chain} (readable : chain.Readable) :
    ofTokens chain.tokens = .ok chain.filter := by
  obtain ⟨pairs, operands, p, paired, hc, nonempty, ho, hl, tail⟩ := exists_pairs_of_chain readable
  have hleaf : parseOperand p.text = .ok (leaf p) := parseOperand_eq_ok_iff.mpr ⟨p, hl, rfl⟩
  have filter : chain.filter = ofChain (operands.zip chain.connectives) (leaf p) := by
    rw [Chain.filter, tail, ofChain]
  unfold ofTokens
  rw [paired, filter]
  split
  · rename_i h
    cases h
  · rename_i h
    cases h
    cases ho
    exact hleaf
  · rename_i h
    cases h
    have present : (pairs.any (fun pair => pair.1.isEmpty) || p.text.isEmpty) = false := by
      simpa [p.text_ne_nil] using nonempty
    simp [hc, ho, hleaf, present, bind, Except.bind, pure, Except.pure]

theorem ofTokens_eq_ok_iff {tokens : List Text} {f : Filter} :
    ofTokens tokens = .ok f ↔
      ∃ chain : Chain, chain.tokens = tokens ∧ chain.Readable ∧ chain.filter = f := by
  refine ⟨exists_chain_of_ofTokens, ?_⟩
  rintro ⟨chain, rfl, readable, rfl⟩
  exact ofTokens_tokens readable

theorem parse_eq_ok_iff {text : Text} {f : Filter} :
    parse text = .ok f ↔
      ∃ chain : Chain, chain.text = text ∧ (∀ p ∈ chain.predicates, p.IsOperand) ∧
        chain.filter = f := by
  rw [parse, ofTokens_eq_ok_iff]
  constructor
  · rintro ⟨chain, same, readable, rfl⟩
    have plain := chain.alternates_tokens_iff.mp (same ▸ alternates_tokens text)
    refine ⟨chain, ?_, fun p member => ?_, rfl⟩
    · rw [Chain.text, same, flatten_tokens]
    · exact Predicate.isOperand_iff.mpr ⟨plain p member, readable p member⟩
  · rintro ⟨chain, rfl, operands, rfl⟩
    have alternates : Alternates chain.tokens :=
      chain.alternates_tokens_iff.mpr fun p member => (operands p member).text_plain
    exact ⟨chain, alternates.tokens_flatten.symm, fun p member => (operands p member).parse_text,
      rfl⟩

theorem text_of_parse {text : Text} {f : Filter} (read : parse text = .ok f) : f.text = text := by
  obtain ⟨chain, rfl, -, rfl⟩ := parse_eq_ok_iff.mp read
  exact chain.text_filter

end Filter
end RecordFilter
