import RecordFilter.Filter.Parser
import RecordFilter.Proofs.Filter.Leaves

/-! Chains: predicates in a row with connectives between them, the flat form behind every tree that
is read. `Chain.filter` builds the tree in the order in which the reader pushes operands, and the
lemmas here say what becomes of the run and of what lies behind its `|`. -/

namespace RecordFilter

inductive Chain where
  | last (p : Predicate)
  | link (p : Predicate) (connective : Connective) (rest : Chain)

namespace Chain
open RecordFilter.Filter

def predicates : Chain → List Predicate
  | last p => [p]
  | link p _ rest => p :: rest.predicates

def connectives : Chain → List Connective
  | last _ => []
  | link _ connective rest => connective :: rest.connectives

def tokens : Chain → List Text
  | last p => [p.text]
  | link p connective rest => p.text :: connective.symbol :: rest.tokens

def text (chain : Chain) : Text := chain.tokens.flatten

def tail : Chain → Tail
  | last p => ⟨leaf p, none⟩
  | link p connective rest => Tail.push (leaf p, connective) rest.tail

def filter (chain : Chain) : Filter := chain.tail.close

def append : Chain → Connective → Chain → Chain
  | last p, connective, right => link p connective right
  | link p between rest, connective, right => link p between (rest.append connective right)

theorem text_link (p : Predicate) (connective : Connective) (rest : Chain) :
    (link p connective rest).text = p.text ++ connective.symbol ++ rest.text := by
  simp [text, tokens]

theorem length_predicates (chain : Chain) :
    chain.predicates.length = chain.connectives.length + 1 := by
  induction chain with
  | last p => rfl
  | link p connective rest ih => simp [predicates, connectives, ih]

theorem length_tokens (chain : Chain) : chain.tokens.length = 2 * chain.connectives.length + 1 := by
  induction chain with
  | last p => rfl
  | link p connective rest ih =>
    simp only [tokens, connectives, List.length_cons, ih]
    omega

theorem predicates_append (left right : Chain) (connective : Connective) :
    (left.append connective right).predicates = left.predicates ++ right.predicates := by
  induction left with
  | last p => rfl
  | link p between rest ih => rw [append, predicates, ih, predicates, List.cons_append]

theorem connectives_append (left right : Chain) (connective : Connective) :
    (left.append connective right).connectives =
      left.connectives ++ connective :: right.connectives := by
  induction left with
  | last p => rfl
  | link p between rest ih => rw [append, connectives, ih, connectives, List.cons_append]

theorem tokens_append (left right : Chain) (connective : Connective) :
    (left.append connective right).tokens = left.tokens ++ connective.symbol :: right.tokens := by
  induction left with
  | last p => rfl
  | link p between rest ih => simp only [append, tokens, ih, List.cons_append]

theorem text_append (left right : Chain) (connective : Connective) :
    (left.append connective right).text = left.text ++ connective.symbol ++ right.text := by
  simp [text, tokens_append]

/-! ### What is pushed in front of a tail -/

theorem text_close_push (f : Filter) (connective : Connective) (t : Tail) :
    (Tail.push (f, connective) t).close.text = f.text ++ connective.symbol ++ t.close.text := by
  obtain ⟨run, behind⟩ := t
  cases connective <;> cases behind <;> simp [Tail.push, Tail.close, text_join]

theorem leaves_close_push (f : Filter) (connective : Connective) (t : Tail) :
    (Tail.push (f, connective) t).close.leaves = f.leaves ++ t.close.leaves := by
  obtain ⟨run, behind⟩ := t
  cases connective <;> cases behind <;> simp [Tail.push, Tail.close, leaves]

theorem text_filter (chain : Chain) : chain.filter.text = chain.text := by
  induction chain with
  | last p => simp [filter, tail, Tail.close, text, tokens, text_leaf]
  | link p connective rest ih =>
    rw [filter, tail, text_close_push, ← filter, ih, text_leaf, text_link]

theorem leaves_filter (chain : Chain) : chain.filter.leaves = chain.predicates := by
  induction chain with
  | last p => rfl
  | link p connective rest ih => rw [filter, tail, leaves_close_push, ← filter, ih]; rfl

theorem predicateCount_filter (chain : Chain) :
    chain.filter.predicateCount = chain.predicates.length := by
  rw [predicateCount_eq_length_leaves, leaves_filter]

/-! ### Where `|` stands -/

theorem behind_tail {chain : Chain} (noOr : .or ∉ chain.connectives) :
    chain.tail.behind = none := by
  induction chain with
  | last p => rfl
  | link p connective rest ih =>
    rw [connectives, List.mem_cons, not_or] at noOr
    cases connective with
    | and => exact ih noOr.2
    | or => exact absurd rfl noOr.1

theorem run_tail {chain : Chain} (noOr : .or ∉ chain.connectives) :
    chain.tail.run = chain.filter := by
  rw [filter, Tail.close, behind_tail noOr]

theorem filter_link_and {rest : Chain} (noOr : .or ∉ rest.connectives) (p : Predicate) :
    (link p .and rest).filter = join .and (leaf p) rest.filter := by
  rw [filter, tail, Tail.push, Tail.close, behind_tail noOr, run_tail noOr]

theorem tail_append_or {left : Chain} (noOr : .or ∉ left.connectives) (right : Chain) :
    (left.append .or right).tail = ⟨left.filter, some right.filter⟩ := by
  induction left with
  | last p => rfl
  | link p connective rest ih =>
    rw [connectives, List.mem_cons, not_or] at noOr
    cases connective with
    | and => rw [append, tail, ih noOr.2, filter_link_and noOr.2, Tail.push]
    | or => exact absurd rfl noOr.1

theorem filter_append_or {left : Chain} (noOr : .or ∉ left.connectives) (right : Chain) :
    (left.append .or right).filter = join .or left.filter right.filter := by
  rw [filter, tail_append_or noOr, Tail.close]

end Chain
end RecordFilter
