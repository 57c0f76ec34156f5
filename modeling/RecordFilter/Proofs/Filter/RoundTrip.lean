import RecordFilter.Proofs.Filter.Reading

/-! Writing and reading back. A filter that was read writes the text it was read from; of the trees
put together by hand, those are read back from their text that have the shape reading gives. -/

namespace RecordFilter

namespace Filter

def chain : Filter → Chain
  | leaf p => .last p
  | join connective l r => l.chain.append connective r.chain

def hasOr : Filter → Bool
  | leaf _ => false
  | join .or _ _ => true
  | join .and l r => l.hasOr || r.hasOr

/-- The trees that reading gives: no `|` lies below an `&` or left of a `|`, left of an `&` lies a
single predicate, and every predicate is an operand. -/
def IsCanonical : Filter → Prop
  | leaf p => p.IsOperand
  | join .or l r => l.hasOr = false ∧ l.IsCanonical ∧ r.IsCanonical
  | join .and l r =>
    l.hasOr = false ∧ r.hasOr = false ∧ l.leaf?.isSome ∧ l.IsCanonical ∧ r.IsCanonical

theorem text_chain (f : Filter) : f.chain.text = f.text := by
  induction f with
  | leaf p => rw [chain, text_leaf, Chain.text, Chain.tokens, List.flatten_singleton]
  | join connective l r ihl ihr => rw [chain, Chain.text_append, ihl, ihr, text_join]

theorem hasOr_eq_false_iff {f : Filter} : f.hasOr = false ↔ .or ∉ f.chain.connectives := by
  induction f with
  | leaf p => simp [hasOr, chain, Chain.connectives]
  | join connective l r ihl ihr =>
    cases connective <;> simp [hasOr, chain, Chain.connectives_append, ihl, ihr]

theorem IsCanonical.filter_chain {f : Filter} (canonical : f.IsCanonical) : f.chain.filter = f := by
  induction f with
  | leaf p => rfl
  | join connective l r ihl ihr =>
    cases connective with
    | or =>
      obtain ⟨noOr, left, right⟩ := canonical
      rw [chain, Chain.filter_append_or (hasOr_eq_false_iff.mp noOr), ihl left, ihr right]
    | and =>
      obtain ⟨-, noOr, single, -, right⟩ := canonical
      cases l with
      | leaf p =>
        have absent : .or ∉ r.chain.connectives := hasOr_eq_false_iff.mp noOr
        rw [chain, chain, Chain.append, Chain.filter_link_and absent, ihr right]
      | join => cases single

theorem IsCanonical.isOperand {f : Filter} (canonical : f.IsCanonical) :
    ∀ p ∈ f.chain.predicates, p.IsOperand := by
  induction f with
  | leaf p => exact List.forall_mem_singleton.mpr canonical
  | join connective l r ihl ihr =>
    have parts : l.IsCanonical ∧ r.IsCanonical := by
      cases connective with
      | or => exact canonical.2
      | and => exact canonical.2.2.2
    rw [chain, Chain.predicates_append, List.forall_mem_append]
    exact ⟨ihl parts.1, ihr parts.2⟩

structure Tail.IsCanonical (t : Tail) : Prop where
  run_hasOr : t.run.hasOr = false
  run : t.run.IsCanonical
  behind : ∀ f, t.behind = some f → f.IsCanonical

theorem Tail.IsCanonical.close {t : Tail} (canonical : t.IsCanonical) : t.close.IsCanonical := by
  obtain ⟨run, behind⟩ := t
  cases behind with
  | none => exact canonical.run
  | some f => exact ⟨canonical.run_hasOr, canonical.run, canonical.behind f rfl⟩

theorem Tail.IsCanonical.push {t : Tail} (canonical : t.IsCanonical) {p : Predicate}
    (operand : p.IsOperand) (connective : Connective) :
    (Tail.push (leaf p, connective) t).IsCanonical := by
  cases connective with
  | and =>
    refine ⟨?_, ⟨rfl, canonical.run_hasOr, rfl, operand, canonical.run⟩, canonical.behind⟩
    simpa [Tail.push, hasOr] using canonical.run_hasOr
  | or =>
    refine ⟨rfl, operand, fun f same => ?_⟩
    cases same
    exact canonical.close

end Filter

namespace Chain
open RecordFilter.Filter

theorem isCanonical_tail {chain : Chain} (operands : ∀ p ∈ chain.predicates, p.IsOperand) :
    chain.tail.IsCanonical := by
  induction chain with
  | last p => exact ⟨rfl, operands p (List.mem_singleton_self p), nofun⟩
  | link p connective rest ih =>
    obtain ⟨operand, operands⟩ := List.forall_mem_cons.mp operands
    exact (ih operands).push operand connective

theorem count_text_of_plain {text : Text} (plain : text.Plain) :
    text.count '&' + text.count '|' = 0 := by
  rw [List.count_eq_zero_of_not_mem plain.and_not_mem,
    List.count_eq_zero_of_not_mem plain.or_not_mem]

theorem count_text {chain : Chain} (plain : ∀ p ∈ chain.predicates, p.text.Plain) :
    chain.text.count '&' + chain.text.count '|' = chain.connectives.length := by
  induction chain with
  | last p =>
    have plain : p.text.Plain := plain p (List.mem_singleton_self p)
    rw [text, tokens, List.flatten_singleton, count_text_of_plain plain]
    rfl
  | link p connective rest ih =>
    obtain ⟨plain, plains⟩ := List.forall_mem_cons.mp plain
    have counted := count_text_of_plain plain
    have symbol : List.count '&' connective.symbol + List.count '|' connective.symbol = 1 := by
      cases connective <;> rfl
    have rest := ih plains
    simp only [text_link, List.count_append, connectives, List.length_cons]
    omega

end Chain

namespace Filter

/-- What is read is written as it was, with one predicate more than connectives. A tree is read back
from its text exactly where it is canonical. -/
theorem parse_text_iff_isCanonical :
    (∀ text f, parse text = .ok f →
      f.text = text ∧ f.predicateCount = 1 + (text.count '&' + text.count '|')) ∧
    ∀ f : Filter, parse f.text = .ok f ↔ f.IsCanonical := by
  refine ⟨fun text f h => ?_, fun f => ⟨fun h => ?_, fun canonical => ?_⟩⟩
  · obtain ⟨chain, rfl, operands, rfl⟩ := parse_eq_ok_iff.mp h
    have plain : ∀ p ∈ chain.predicates, p.text.Plain := by
      intro p member
      exact (operands p member).text_plain
    refine ⟨chain.text_filter, ?_⟩
    rw [chain.predicateCount_filter, chain.length_predicates, Chain.count_text plain, Nat.add_comm]
  · obtain ⟨chain, -, operands, rfl⟩ := parse_eq_ok_iff.mp h
    exact (Chain.isCanonical_tail operands).close
  · exact parse_eq_ok_iff.mpr ⟨f.chain, f.text_chain, canonical.isOperand, canonical.filter_chain⟩

theorem left_nested_and_not_read_back :
    parse ['a', '>', '&', 'b', '<'] =
        .ok (join .and (leaf ⟨['a'], .above, [], nofun⟩) (leaf ⟨['b'], .below, [], nofun⟩)) ∧
      (join .and (leaf ⟨['a'], .above, [], nofun⟩)
        (leaf ⟨['b'], .below, [], nofun⟩)).predicateCount = 2 ∧
      parse (join .and
          (join .and (leaf ⟨['a'], .above, [], nofun⟩) (leaf ⟨['b'], .below, [], nofun⟩))
          (leaf ⟨['c'], .above, [], nofun⟩)).text ≠
        .ok (join .and
          (join .and (leaf ⟨['a'], .above, [], nofun⟩) (leaf ⟨['b'], .below, [], nofun⟩))
          (leaf ⟨['c'], .above, [], nofun⟩)) := by
  have read : parse ['a', '>', '&', 'b', '<'] =
      .ok (join .and (leaf ⟨['a'], .above, [], nofun⟩) (leaf ⟨['b'], .below, [], nofun⟩)) := rfl
  refine ⟨read, (parse_text_iff_isCanonical.1 _ _ read).2, fun readBack => ?_⟩
  obtain ⟨-, -, single, -⟩ := (parse_text_iff_isCanonical.2 _).mp readBack
  cases single

end Filter
end RecordFilter
