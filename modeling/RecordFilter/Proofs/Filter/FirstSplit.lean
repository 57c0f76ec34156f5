import Mathlib.Data.List.Basic
import RecordFilter.Proofs.Filter.Reading

/-! Reading by division. The grammar divides a token list at its first `|`, or at its first `&`
where there is no `|`, and reads both parts by the same rule. Building the tree in one pass from the
end accepts the same lists and gives the same trees. -/

namespace RecordFilter

theorem Connective.symbol_inj {connective other : Connective} :
    connective.symbol = other.symbol ↔ connective = other := by
  cases connective <;> cases other <;> decide

namespace Filter

def position? (symbol : Text) (tokens : List Text) : Option Nat :=
  (List.range tokens.length).find? fun i => i % 2 == 1 && tokens[i]? == some symbol

theorem position?_eq_some_iff {symbol : Text} {tokens : List Text} {i : Nat} :
    position? symbol tokens = some i ↔
      i % 2 = 1 ∧ tokens[i]? = some symbol ∧ ∀ j < i, j % 2 = 1 → tokens[j]? ≠ some symbol := by
  simp only [position?, List.find?_range_eq_some, Bool.and_eq_true, beq_iff_eq, List.mem_range,
    Bool.not_eq_true', Bool.and_eq_false_imp, beq_eq_false_iff_ne]
  constructor
  · rintro ⟨⟨odd, found⟩, -, before⟩
    exact ⟨odd, found, before⟩
  · rintro ⟨odd, found, before⟩
    exact ⟨⟨odd, found⟩, (List.getElem?_eq_some_iff.mp found).1, before⟩

theorem position?_eq_none_iff {symbol : Text} {tokens : List Text} :
    position? symbol tokens = none ↔ ∀ i, i % 2 = 1 → tokens[i]? ≠ some symbol := by
  simp only [position?, List.find?_eq_none, Bool.and_eq_true, beq_iff_eq, List.mem_range, not_and]
  refine ⟨fun h i odd found => ?_, fun h i _ odd => h i odd⟩
  exact h i (List.getElem?_eq_some_iff.mp found).1 odd found

def division? (tokens : List Text) : Option (Connective × Nat) :=
  match position? Connective.or.symbol tokens with
  | some i => some (.or, i)
  | none => (position? Connective.and.symbol tokens).map fun i => (.and, i)

theorem position?_of_division? {tokens : List Text} {connective : Connective} {i : Nat}
    (h : division? tokens = some (connective, i)) :
    position? connective.symbol tokens = some i ∧
      (connective = .and → position? Connective.or.symbol tokens = none) := by
  unfold division? at h
  split at h
  · rename_i found
    cases h
    exact ⟨found, nofun⟩
  · rename_i noOr
    obtain ⟨j, found, same⟩ := Option.map_eq_some_iff.mp h
    cases same
    exact ⟨found, fun _ => noOr⟩

theorem lt_length_of_division? {tokens : List Text} {connective : Connective} {i : Nat}
    (h : division? tokens = some (connective, i)) : i < tokens.length :=
  (List.getElem?_eq_some_iff.mp (position?_eq_some_iff.mp (position?_of_division? h).1).2.1).1

/-- Reading by division, as the grammar describes it. -/
def ofDivisions (tokens : List Text) : Option Filter :=
  if tokens.length % 2 = 0 then none
  else match tokens with
    | [fragment] => (parseOperand fragment).toOption
    | tokens => match h : division? tokens with
      | none => none
      | some (connective, i) => do
        let left ← ofDivisions (tokens.take i)
        let right ← ofDivisions (tokens.drop (i + 1))
        return join connective left right
  termination_by tokens.length
  decreasing_by
    · have := lt_length_of_division? h
      simp
      omega
    · have := lt_length_of_division? h
      simp
      omega

end Filter

namespace Chain
open RecordFilter.Filter

theorem readable_append {left right : Chain} {connective : Connective} :
    (left.append connective right).Readable ↔ left.Readable ∧ right.Readable := by
  simp only [Readable, predicates_append, List.forall_mem_append]

theorem getElem?_tokens_last {p : Predicate} {i : Nat} (odd : i % 2 = 1) :
    (last p).tokens[i]? = none := by
  rw [tokens, List.getElem?_eq_none_iff, List.length_singleton]
  omega

theorem getElem?_tokens_link {p : Predicate} {between connective : Connective} {rest : Chain}
    {i : Nat} (odd : i % 2 = 1) :
    (link p between rest).tokens[i]? = some connective.symbol ↔
      i = 1 ∧ between = connective ∨
        ∃ j, i = j + 2 ∧ j % 2 = 1 ∧ rest.tokens[j]? = some connective.symbol := by
  obtain rfl | ⟨j, rfl⟩ : i = 1 ∨ ∃ j, i = j + 2 := by
    by_cases first : i = 1
    · exact .inl first
    · exact .inr ⟨i - 2, by omega⟩
  · simp [tokens, Connective.symbol_inj]
  · have odd : j % 2 = 1 := by omega
    simp [tokens, odd]

theorem mem_connectives_iff {chain : Chain} {connective : Connective} :
    connective ∈ chain.connectives ↔
      ∃ i, i % 2 = 1 ∧ chain.tokens[i]? = some connective.symbol := by
  induction chain with
  | last p =>
    refine ⟨fun h => absurd h List.not_mem_nil, ?_⟩
    rintro ⟨i, odd, found⟩
    rw [getElem?_tokens_last odd] at found
    cases found
  | link p between rest ih =>
    rw [connectives, List.mem_cons, ih]
    constructor
    · rintro (rfl | ⟨j, odd, found⟩)
      · exact ⟨1, rfl, rfl⟩
      · exact ⟨j + 2, by omega, found⟩
    · rintro ⟨i, odd, found⟩
      obtain ⟨-, rfl⟩ | ⟨j, -, odd, found⟩ := (getElem?_tokens_link odd).mp found
      · exact .inl rfl
      · exact .inr ⟨j, odd, found⟩

theorem exists_append_of_getElem? {chain : Chain} {connective : Connective} {i : Nat}
    (odd : i % 2 = 1) (found : chain.tokens[i]? = some connective.symbol) :
    ∃ left right : Chain, chain = left.append connective right ∧ left.tokens.length = i := by
  induction chain generalizing i with
  | last p =>
    rw [getElem?_tokens_last odd] at found
    cases found
  | link p between rest ih =>
    obtain ⟨rfl, rfl⟩ | ⟨j, rfl, odd, found⟩ := (getElem?_tokens_link odd).mp found
    · exact ⟨last p, rest, rfl, rfl⟩
    · obtain ⟨left, right, rfl, length⟩ := ih odd found
      exact ⟨link p between left, right, rfl, by simp [tokens, length]⟩

theorem filter_append_of_division? {left right : Chain} {connective : Connective}
    (h : division? (left.append connective right).tokens = some (connective, left.tokens.length)) :
    (left.append connective right).filter = join connective left.filter right.filter := by
  obtain ⟨first, noOr⟩ := position?_of_division? h
  obtain ⟨-, -, before⟩ := position?_eq_some_iff.mp first
  -- A connective left of the division would stand at an earlier odd position.
  have absent : connective ∉ left.connectives := by
    intro member
    obtain ⟨j, odd, found⟩ := mem_connectives_iff.mp member
    have bound := (List.getElem?_eq_some_iff.mp found).1
    apply before j bound odd
    rw [tokens_append, List.getElem?_append_left bound, found]
  cases connective with
  | or => exact filter_append_or absent right
  | and =>
    have noOr : .or ∉ (left.append .and right).connectives := by
      rw [mem_connectives_iff]
      rintro ⟨j, odd, found⟩
      exact position?_eq_none_iff.mp (noOr rfl) j odd found
    rw [connectives_append, List.mem_append, not_or, List.mem_cons, not_or] at noOr
    cases left with
    | last p => exact filter_link_and noOr.2.2 p
    | link p between rest =>
      cases between with
      | and => exact absurd (List.mem_cons_self ..) absent
      | or => exact absurd (List.mem_cons_self ..) noOr.1

end Chain

namespace Filter

theorem division?_tokens_link (p : Predicate) (connective : Connective) (rest : Chain) :
    division? (Chain.link p connective rest).tokens ≠ none := by
  have absent : position? connective.symbol (Chain.link p connective rest).tokens ≠ none :=
    fun absent => position?_eq_none_iff.mp absent 1 rfl rfl
  unfold division?
  cases connective with
  | or =>
    split
    · simp
    · contradiction
  | and =>
    split
    · simp
    · simpa using absent

theorem ofDivisions_eq_some_iff_exists_chain {tokens : List Text} {f : Filter} :
    ofDivisions tokens = some f ↔
      ∃ chain : Chain, chain.tokens = tokens ∧ chain.Readable ∧ chain.filter = f := by
  fun_induction ofDivisions tokens generalizing f with
  | case1 tokens even =>
    refine ⟨nofun, ?_⟩
    rintro ⟨chain, rfl, -⟩
    rw [chain.length_tokens] at even
    omega
  | case2 fragment odd =>
    have single : ofTokens [fragment] = parseOperand fragment := rfl
    rw [← ofTokens_eq_ok_iff, single]
    cases parseOperand fragment <;> simp [Except.toOption]
  | case3 tokens single undivided odd =>
    refine ⟨nofun, ?_⟩
    rintro ⟨chain, rfl, -⟩
    cases chain with
    | last p => exact absurd rfl (single p.text)
    | link p connective rest => exact absurd undivided (division?_tokens_link p connective rest)
  | case4 tokens single connective i divided odd ihl ihr =>
    obtain ⟨oddPosition, found, -⟩ := position?_eq_some_iff.mp (position?_of_division? divided).1
    obtain ⟨bound, symbol⟩ := List.getElem?_eq_some_iff.mp found
    constructor
    · intro h
      obtain ⟨l, hl, h⟩ := Option.bind_eq_some_iff.mp h
      obtain ⟨r, hr, h⟩ := Option.bind_eq_some_iff.mp h
      obtain ⟨left, leftTokens, leftReadable, rfl⟩ := ihl.mp hl
      obtain ⟨right, rightTokens, rightReadable, rfl⟩ := ihr.mp hr
      have whole : (left.append connective right).tokens = tokens := by
        rw [Chain.tokens_append, leftTokens, rightTokens, ← symbol,
          ← List.drop_eq_getElem_cons bound, List.take_append_drop]
      have length : left.tokens.length = i := by
        rw [leftTokens, List.length_take_of_le (Nat.le_of_lt bound)]
      have divided : division? (left.append connective right).tokens =
          some (connective, left.tokens.length) := by
        rw [whole, length, divided]
      cases h
      refine ⟨left.append connective right, whole, ?_, ?_⟩
      · exact Chain.readable_append.mpr ⟨leftReadable, rightReadable⟩
      · exact Chain.filter_append_of_division? divided
    · rintro ⟨chain, rfl, readable, rfl⟩
      -- The chain itself falls apart at the division, so both parts are read from its halves.
      obtain ⟨left, right, rfl, rfl⟩ := Chain.exists_append_of_getElem? oddPosition found
      obtain ⟨leftReadable, rightReadable⟩ := Chain.readable_append.mp readable
      rw [Chain.filter_append_of_division? divided]
      rw [ihl.mpr ⟨left, by simp [Chain.tokens_append], leftReadable, rfl⟩]
      rw [ihr.mpr ⟨right, by simp [Chain.tokens_append], rightReadable, rfl⟩]
      rfl

/-- Reading in one pass agrees with reading by division, on every token list. -/
theorem ofTokens_eq_ok_iff_ofDivisions {tokens : List Text} {f : Filter} :
    ofTokens tokens = .ok f ↔ ofDivisions tokens = some f :=
  ofTokens_eq_ok_iff.trans ofDivisions_eq_some_iff_exists_chain.symm

end Filter
end RecordFilter
