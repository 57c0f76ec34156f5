import RecordFilter.Proofs.Filter.Defects

/-! Cutting a text from front to back. A cursor reads a fragment, then connective and fragment in turn, and
arrives at the tokens that cutting gives; cutting and joining are inverse to each other between texts and
lists of operands and connectives in turn. -/

namespace RecordFilter

structure Cursor where
  input : Text
  position : Nat

namespace Cursor
open RecordFilter.Filter (tokens foldr_pushToken_of_plain tokens_cons_of_isSome)

def current? (cursor : Cursor) : Option Char := cursor.input[cursor.position]?

def advance (cursor : Cursor) : Cursor := { cursor with position := cursor.position + 1 }

def unread (cursor : Cursor) : Text := cursor.input.drop cursor.position

theorem unread_eq_nil {cursor : Cursor} (h : cursor.current? = none) : cursor.unread = [] :=
  List.drop_eq_nil_of_le (List.getElem?_eq_none_iff.mp h)

theorem unread_eq_cons {cursor : Cursor} {c : Char} (h : cursor.current? = some c) :
    cursor.unread = c :: cursor.advance.unread := by
  obtain ⟨bound, rfl⟩ := List.getElem?_eq_some_iff.mp h
  exact List.drop_eq_getElem_cons bound

def readFragment (cursor : Cursor) (read : Text) : Text × Cursor :=
  match _ : cursor.current? with
  | none => (read, cursor)
  | some c =>
    if (Connective.ofChar? c).isSome then (read, cursor)
    else cursor.advance.readFragment (read ++ [c])
  termination_by cursor.unread.length
  decreasing_by
    rename_i found _
    rw [unread_eq_cons found]
    exact Nat.lt_succ_self _

def AtMark (cursor : Cursor) : Prop := ∀ c, cursor.current? = some c → (Connective.ofChar? c).isSome

theorem exists_readFragment_eq (cursor : Cursor) (read : Text) :
    ∃ (fragment : Text) (next : Cursor), cursor.readFragment read = (read ++ fragment, next) ∧
      cursor.unread = fragment ++ next.unread ∧ fragment.Plain ∧ next.AtMark := by
  fun_induction readFragment cursor read with
  | case1 cursor read h =>
    refine ⟨[], cursor, by rw [List.append_nil], rfl, fun _ => List.not_mem_nil, fun c same => ?_⟩
    rw [h] at same
    cases same
  | case2 cursor read c h known =>
    refine ⟨[], cursor, by rw [List.append_nil], rfl, fun _ => List.not_mem_nil, fun d same => ?_⟩
    cases h.symm.trans same
    exact known
  | case3 cursor read c h unknown ih =>
    obtain ⟨fragment, next, result, split, plain, stops⟩ := ih
    refine ⟨c :: fragment, next, ?_, ?_, ?_, stops⟩
    · rw [result, List.append_assoc, List.singleton_append]
    · rw [unread_eq_cons h, split, List.cons_append]
    · exact Text.plain_cons_iff.mpr ⟨by simpa using unknown, plain⟩

theorem length_unread_readFragment (cursor : Cursor) (read : Text) :
    (cursor.readFragment read).2.unread.length ≤ cursor.unread.length := by
  obtain ⟨fragment, next, result, split, -⟩ := cursor.exists_readFragment_eq read
  rw [result, split, List.length_append]
  exact Nat.le_add_left _ _

def readTokens (cursor : Cursor) (emitted : List Text) : List Text :=
  match _ : cursor.current? with
  | none => emitted
  | some c =>
    let fragment := cursor.advance.readFragment []
    fragment.2.readTokens (emitted ++ [[c], fragment.1])
  termination_by cursor.unread.length
  decreasing_by
    rename_i found
    rw [unread_eq_cons found]
    exact Nat.lt_succ_of_le (cursor.advance.length_unread_readFragment [])

def scan (text : Text) : List Text :=
  let fragment := readFragment ⟨text, 0⟩ []
  fragment.2.readTokens [fragment.1]

theorem AtMark.tokens_append {cursor : Cursor} (stops : cursor.AtMark) {fragment : Text}
    (plain : fragment.Plain) :
    tokens (fragment ++ cursor.unread) = fragment :: (tokens cursor.unread).tail := by
  have empty : tokens cursor.unread = [] :: (tokens cursor.unread).tail := by
    cases h : cursor.current? with
    | none =>
      rw [unread_eq_nil h]
      rfl
    | some c =>
      rw [unread_eq_cons h, tokens_cons_of_isSome (stops c h)]
      rfl
  rw [tokens, List.foldr_append, ← tokens, empty, foldr_pushToken_of_plain plain, List.append_nil,
    List.tail_cons]

theorem readTokens_eq {cursor : Cursor} (stops : cursor.AtMark) (emitted : List Text) :
    cursor.readTokens emitted = emitted ++ (tokens cursor.unread).tail := by
  -- What is emitted and the tokens of the unread text are all tokens, but for the fragment just read.
  fun_induction readTokens cursor emitted with
  | case1 cursor emitted h =>
    rw [unread_eq_nil h]
    exact (List.append_nil emitted).symm
  | case2 cursor emitted c h fragment ih =>
    obtain ⟨read, next, result, split, plain, after⟩ := cursor.advance.exists_readFragment_eq []
    change fragment = (read, next) at result
    clear_value fragment
    subst result
    have cut : tokens cursor.unread = [] :: [c] :: read :: (tokens next.unread).tail := by
      rw [unread_eq_cons h, tokens_cons_of_isSome (stops c h), split, after.tokens_append plain]
    rw [ih after, cut]
    simp

theorem scan_eq_tokens (text : Text) : scan text = tokens text := by
  obtain ⟨fragment, next, result, split, plain, stops⟩ := exists_readFragment_eq ⟨text, 0⟩ []
  have whole : text = fragment ++ next.unread := split
  rw [scan, result]
  show next.readTokens [[] ++ fragment] = _
  rw [readTokens_eq stops, whole, stops.tokens_append plain]
  rfl

end Cursor

namespace Filter

/-- Lists of odd length with connectives at odd places, and at even places texts without any. -/
structure InTurn (tokens : List Text) : Prop where
  odd : tokens.length % 2 = 1
  connective : ∀ i token, tokens[2 * i + 1]? = some token → token = ['&'] ∨ token = ['|']
  operand : ∀ i token, tokens[2 * i]? = some token → '&' ∉ token ∧ '|' ∉ token

theorem Alternates.plain_of_mem_operands {tokens : List Text} (h : Alternates tokens) :
    ∀ operand ∈ operands tokens, operand.Plain := by
  induction h with
  | single plain => exact List.forall_mem_singleton.mpr plain
  | cons plain alternates ih => exact List.forall_mem_cons.mpr ⟨plain, ih⟩

theorem Alternates.inTurn {tokens : List Text} (h : Alternates tokens) : InTurn tokens := by
  refine ⟨h.odd, fun i token found => ?_, fun i token found => ?_⟩
  · have mark : token ∈ marks tokens := List.mem_of_getElem? ((getElem?_marks tokens i).trans found)
    have known := List.find?_eq_none.mp h.marks_known token mark
    simp only [isForeign_eq_true_iff, not_forall, ne_eq, not_not] at known
    obtain ⟨_ | _, same⟩ := known
    · exact .inl same
    · exact .inr same
  · have operand : token ∈ operands tokens :=
      List.mem_of_getElem? ((getElem?_operands tokens i).trans found)
    have plain := h.plain_of_mem_operands token operand
    exact ⟨plain.and_not_mem, plain.or_not_mem⟩

theorem InTurn.plain_head {front : Text} {rest : List Text} (inTurn : InTurn (front :: rest)) :
    front.Plain := by
  obtain ⟨noAnd, noOr⟩ := inTurn.operand 0 front rfl
  rintro (_ | _)
  · exact noAnd
  · exact noOr

theorem InTurn.alternates {tokens : List Text} (inTurn : InTurn tokens) : Alternates tokens := by
  fun_induction marks tokens with
  | case1 => cases inTurn.odd
  | case2 front => exact .single inTurn.plain_head
  | case3 front mark rest ih =>
    have odd : rest.length % 2 = 1 := by
      have whole : (rest.length + 1 + 1) % 2 = 1 := inTurn.odd
      omega
    have behind : Alternates rest :=
      ih ⟨odd, fun i => inTurn.connective (i + 1), fun i => inTurn.operand (i + 1)⟩
    obtain ⟨connective, rfl⟩ : ∃ connective : Connective, mark = connective.symbol := by
      obtain rfl | rfl := inTurn.connective 0 mark rfl
      · exact ⟨.and, rfl⟩
      · exact ⟨.or, rfl⟩
    exact .cons inTurn.plain_head behind

/-- Cutting and joining are inverse to each other between texts and lists of tokens in turn, empty operands
included, and the cursor reads what is cut. So such a list and the text it joins to are read alike. -/
theorem tokens_inverse_flatten :
    (∀ text, Cursor.scan text = tokens text ∧ InTurn (tokens text) ∧ (tokens text).flatten = text) ∧
      ∀ list, InTurn list → tokens list.flatten = list ∧ parse list.flatten = ofTokens list := by
  refine ⟨fun text => ⟨Cursor.scan_eq_tokens text, ?_, flatten_tokens text⟩, fun list inTurn => ?_⟩
  · exact (alternates_tokens text).inTurn
  · have cut : tokens list.flatten = list := inTurn.alternates.tokens_flatten
    exact ⟨cut, by rw [parse, cut]⟩

theorem tokens_inverse_flatten_of_missing_operands :
    let list : List Text := [[], ['&'], ['a', '<', '1'], ['|'], []]
    InTurn list ∧ tokens list.flatten = list ∧ parse list.flatten = ofTokens list ∧
      ofTokens list = .error (.unbalanced list.flatten) := by
  intro list
  have none : Text.Plain [] := fun _ => List.not_mem_nil
  have plain : Text.Plain ['a', '<', '1'] := by rintro (_ | _) <;> decide
  have behind : Alternates [['a', '<', '1'], ['|'], []] := @Alternates.cons _ .or _ plain (.single none)
  have inTurn : InTurn list := (@Alternates.cons _ .and _ none behind).inTurn
  obtain ⟨cut, read⟩ := tokens_inverse_flatten.2 list inTurn
  exact ⟨inTurn, cut, read, rfl⟩

end Filter
end RecordFilter
