import RecordFilter.Proofs.Filter.Precedence

/-! Why a token list is refused: the first defect of a fixed order decides, and a list without a defect
is read. Of these defects only missing operands and what predicates lack can come from a text. -/

namespace RecordFilter

namespace Filter

section Refusal
variable {α β : Type}

def refusal? : Except FilterError α → Option FilterError
  | .ok _ => none
  | .error e => some e

theorem refusal?_eq_some_iff {x : Except FilterError α} {e : FilterError} :
    refusal? x = some e ↔ x = .error e := by
  cases x <;> simp [refusal?]

theorem refusal?_eq_none_iff {x : Except FilterError α} : refusal? x = none ↔ ∃ a, x = .ok a := by
  cases x <;> simp [refusal?]

theorem refusal?_map (f : α → β) (x : Except FilterError α) : refusal? (x.map f) = refusal? x := by
  cases x <;> rfl

theorem refusal?_mapM (f : α → Except FilterError β) (xs : List α) :
    refusal? (xs.mapM f) = xs.findSome? fun x => refusal? (f x) := by
  induction xs with
  | nil => rfl
  | cons x xs ih =>
    rw [List.mapM_cons, List.findSome?_cons, ← ih]
    cases f x with
    | error e => rfl
    | ok y => cases xs.mapM f <;> rfl

end Refusal

def operands : List Text → List Text
  | [] => []
  | [operand] => [operand]
  | operand :: _ :: rest => operand :: operands rest

def marks : List Text → List Text
  | [] => []
  | [_] => []
  | _ :: mark :: rest => mark :: marks rest

theorem getElem?_operands (tokens : List Text) (i : Nat) : (operands tokens)[i]? = tokens[2 * i]? := by
  fun_induction operands tokens generalizing i with
  | case1 => rfl
  | case2 operand => cases i <;> rfl
  | case3 operand mark rest ih =>
    cases i with
    | zero => rfl
    | succ i => exact ih i

theorem getElem?_marks (tokens : List Text) (i : Nat) : (marks tokens)[i]? = tokens[2 * i + 1]? := by
  fun_induction marks tokens generalizing i with
  | case1 => rfl
  | case2 operand => rfl
  | case3 operand mark rest ih =>
    cases i with
    | zero => rfl
    | succ i => exact ih i

def isForeign (mark : Text) : Bool := mark != ['&'] && mark != ['|']

/-- The first defect of a token list: of an even length it has no operand at one end; a lone token
must be a predicate; otherwise all tokens at odd places must be connectives, then no operand may be
missing, and then all of them must be predicates. -/
def defect? (tokens : List Text) : Option FilterError :=
  if tokens.length % 2 = 0 then some (.unbalanced tokens.flatten)
  else match tokens with
    | [fragment] => refusal? (Predicate.parse fragment)
    | tokens =>
      match (marks tokens).find? isForeign with
      | some mark => some (.unknownConnective mark)
      | none =>
        if [] ∈ operands tokens then some (.unbalanced tokens.flatten)
        else (operands tokens).findSome? fun operand => refusal? (Predicate.parse operand)

theorem isForeign_eq_true_iff {mark : Text} :
    isForeign mark = true ↔ ∀ connective : Connective, mark ≠ connective.symbol := by
  have symbols : (∀ connective : Connective, mark ≠ connective.symbol) ↔ mark ≠ ['&'] ∧ mark ≠ ['|'] :=
    ⟨fun other => ⟨other .and, other .or⟩, fun ⟨noAnd, noOr⟩ connective => by
      cases connective
      · exact noAnd
      · exact noOr⟩
  rw [symbols, isForeign, Bool.and_eq_true, bne_iff_ne, bne_iff_ne]

theorem refusal?_parseConnective (mark : Text) :
    refusal? (parseConnective mark) = if isForeign mark then some (.unknownConnective mark) else none := by
  split
  · rename_i foreign
    rw [isForeign_eq_true_iff] at foreign
    rw [parseConnective]
    cases known : Connective.ofSymbol? mark with
    | none => rfl
    | some connective =>
      have read : parseConnective mark = .ok connective := by rw [parseConnective, known]
      exact absurd (parseConnective_eq_ok_iff.mp read) (foreign connective)
  · rename_i foreign
    simp only [isForeign_eq_true_iff, Classical.not_forall, ne_eq, Classical.not_not] at foreign
    obtain ⟨connective, same⟩ := foreign
    rw [parseConnective_eq_ok_iff.mpr same, refusal?]

theorem findSome?_parseConnective (marks : List Text) :
    (marks.findSome? fun mark => refusal? (parseConnective mark)) =
      (marks.find? isForeign).map .unknownConnective := by
  induction marks with
  | nil => rfl
  | cons mark marks ih =>
    rw [List.findSome?_cons, refusal?_parseConnective, List.find?_cons, ih]
    cases isForeign mark <;> rfl

theorem pairTokens_eq_none_iff {tokens : List Text} :
    pairTokens tokens = none ↔ tokens.length % 2 = 0 := by
  fun_induction pairTokens tokens with
  | case1 => simp
  | case2 last => simp
  | case3 operand mark rest ih =>
    rw [Option.map_eq_none_iff, ih, List.length_cons, List.length_cons]
    omega

theorem operands_marks_of_pairTokens {tokens : List Text} {pairs : List (Text × Text)} {last : Text}
    (h : pairTokens tokens = some (pairs, last)) :
    operands tokens = pairs.map Prod.fst ++ [last] ∧ marks tokens = pairs.map Prod.snd := by
  fun_induction pairTokens tokens generalizing pairs with
  | case1 => cases h
  | case2 last =>
    cases h
    exact ⟨rfl, rfl⟩
  | case3 operand mark rest ih =>
    obtain ⟨⟨pairs, last⟩, found, same⟩ := Option.map_eq_some_iff.mp h
    cases same
    obtain ⟨fronts, seconds⟩ := ih found
    exact ⟨by rw [operands, fronts]; rfl, by rw [marks, seconds]; rfl⟩

/-! The three checks of a token list in pairs, each as what it says of the tokens. -/

section Checks
variable {tokens : List Text} {pairs : List (Text × Text)} {last : Text}
  (paired : pairTokens tokens = some (pairs, last))
include paired

theorem refusal?_connectives :
    refusal? (pairs.mapM fun pair => parseConnective pair.2) =
      ((marks tokens).find? isForeign).map .unknownConnective := by
  rw [refusal?_mapM, (operands_marks_of_pairTokens paired).2, ← findSome?_parseConnective,
    List.findSome?_map]
  rfl

theorem lacks_operand_iff :
    (pairs.any (fun pair => pair.1.isEmpty) || last.isEmpty) = true ↔ [] ∈ operands tokens := by
  rw [(operands_marks_of_pairTokens paired).1, Bool.or_eq_true, List.any_eq_true, List.mem_append,
    List.mem_map, List.mem_singleton]
  refine or_congr (exists_congr fun pair => and_congr_right fun _ => ?_) ?_
  · exact List.isEmpty_iff
  · exact List.isEmpty_iff.trans eq_comm

theorem refusal?_operands :
    (refusal? (pairs.mapM fun pair => parseOperand pair.1)).or (refusal? (parseOperand last)) =
      (operands tokens).findSome? fun operand => refusal? (Predicate.parse operand) := by
  simp only [(operands_marks_of_pairTokens paired).1, List.findSome?_append, List.findSome?_map,
    refusal?_mapM, parseOperand, refusal?_map, List.findSome?_singleton, Function.comp_def]

end Checks

theorem ofTokens_singleton (fragment : Text) :
    ofTokens [fragment] = (Predicate.parse fragment).map leaf := rfl

theorem refusal?_ofTokens_of_pairs {tokens : List Text} {pair : Text × Text}
    {pairs : List (Text × Text)} {last : Text} (paired : pairTokens tokens = some (pair :: pairs, last)) :
    refusal? (ofTokens tokens) =
      match (marks tokens).find? isForeign with
      | some mark => some (.unknownConnective mark)
      | none =>
        if [] ∈ operands tokens then some (.unbalanced tokens.flatten)
        else (operands tokens).findSome? fun operand => refusal? (Predicate.parse operand) := by
  have connectives := refusal?_connectives paired
  have lacks := lacks_operand_iff paired
  rw [← refusal?_operands paired]
  simp only [ofTokens, paired]
  cases known : (pair :: pairs).mapM fun pair => parseConnective pair.2 with
  | error e =>
    rw [known] at connectives
    obtain ⟨mark, found, rfl⟩ := Option.map_eq_some_iff.mp connectives.symm
    rw [found]
    rfl
  | ok =>
    rw [known] at connectives
    rw [Option.map_eq_none_iff.mp connectives.symm]
    by_cases missing : [] ∈ operands tokens
    · simp only [lacks.mpr missing, if_pos missing]
      rfl
    · simp only [mt lacks.mp missing, if_neg missing]
      cases (pair :: pairs).mapM fun pair => parseOperand pair.1 with
      | error e => rfl
      | ok => cases parseOperand last <;> rfl

theorem refusal?_ofTokens (tokens : List Text) : refusal? (ofTokens tokens) = defect? tokens := by
  match tokens with
  | [] => rfl
  | [fragment] => exact refusal?_map leaf _
  | operand :: mark :: rest =>
    unfold defect?
    cases paired : pairTokens (operand :: mark :: rest) with
    | none => rw [if_pos (pairTokens_eq_none_iff.mp paired), ofTokens, paired, refusal?]
    | some parts =>
      have odd : ¬(operand :: mark :: rest).length % 2 = 0 := fun even => by
        rw [pairTokens_eq_none_iff.mpr even] at paired
        cases paired
      rw [if_neg odd]
      obtain ⟨⟨pairs, last⟩, -, same⟩ := Option.map_eq_some_iff.mp paired
      rw [← same] at paired
      exact refusal?_ofTokens_of_pairs paired

theorem ofTokens_eq_error_iff {tokens : List Text} {e : FilterError} :
    ofTokens tokens = .error e ↔ defect? tokens = some e := by
  rw [← refusal?_eq_some_iff, refusal?_ofTokens]

/-! ### The tokens of a text -/

theorem operands_cons_front (c : Char) (fragment : Text) (rest : List Text) :
    operands ((c :: fragment) :: rest) = (operands (fragment :: rest)).modifyHead (c :: ·) := by
  cases rest <;> rfl

theorem isSome_ofChar?_iff {c : Char} :
    (Connective.ofChar? c).isSome = true ↔ (c == '&' || c == '|') = true := by
  rw [Bool.or_eq_true, beq_iff_eq, beq_iff_eq]
  constructor
  · intro known
    obtain ⟨connective, found⟩ := Option.isSome_iff_exists.mp known
    rw [Connective.eq_char_of_ofChar? found]
    cases connective
    · exact .inl rfl
    · exact .inr rfl
  · rintro (rfl | rfl) <;> rfl

theorem operands_tokens (text : Text) :
    operands (tokens text) = text.splitOnP fun c => c == '&' || c == '|' := by
  induction text with
  | nil => rfl
  | cons c text ih =>
    obtain ⟨fragment, rest, cut⟩ := List.exists_cons_of_ne_nil (alternates_tokens text).ne_nil
    rw [List.splitOnP_cons_eq_if_modifyHead, ← ih, tokens, List.foldr_cons, ← tokens, cut, pushToken]
    simp only [isSome_ofChar?_iff]
    split
    · rw [operands]
    · exact operands_cons_front c fragment rest

theorem Alternates.odd {tokens : List Text} (h : Alternates tokens) : tokens.length % 2 = 1 := by
  induction h with
  | single => rfl
  | cons plain alternates ih =>
    rw [List.length_cons, List.length_cons]
    omega

theorem Alternates.marks_known {tokens : List Text} (h : Alternates tokens) :
    (marks tokens).find? isForeign = none := by
  induction h with
  | single => rfl
  | @cons operand connective rest plain alternates ih =>
    have known : isForeign connective.symbol = false := by cases connective <;> rfl
    rw [marks, List.find?_cons, known, ih]

theorem Alternates.defect?_eq {tokens : List Text} (h : Alternates tokens) :
    defect? tokens =
      if tokens.length ≠ 1 ∧ [] ∈ operands tokens then some (.unbalanced tokens.flatten)
      else (operands tokens).findSome? fun operand => refusal? (Predicate.parse operand) := by
  have odd : ¬tokens.length % 2 = 0 := by
    rw [h.odd]
    decide
  have known := h.marks_known
  unfold defect?
  rw [if_neg odd]
  cases h with
  | single => simp [operands]
  | cons plain alternates =>
    simp only [known]
    simp

theorem refusal_of_findSome? {operands : List Text} {e : FilterError}
    (h : (operands.findSome? fun operand => refusal? (Predicate.parse operand)) = some e) :
    (∃ operand, e = .unknownOperator operand) ∨ e = .patternTooLarge := by
  obtain ⟨operand, -, refused⟩ := List.exists_of_findSome?_eq_some h
  exact (Predicate.parse_eq_error (refusal?_eq_some_iff.mp refused)).imp_left fun known => ⟨_, known.1⟩

theorem parse_ne_unknownConnective (text token : Text) :
    parse text ≠ .error (.unknownConnective token) := by
  intro refused
  have defect := ofTokens_eq_error_iff.mp refused
  rw [(alternates_tokens text).defect?_eq] at defect
  split at defect
  · cases defect
  · obtain ⟨operand, other⟩ | other := refusal_of_findSome? defect <;> cases other

theorem Alternates.length_ne_one_iff {tokens : List Text} (h : Alternates tokens) :
    tokens.length ≠ 1 ↔ '&' ∈ tokens.flatten ∨ '|' ∈ tokens.flatten := by
  cases h with
  | single plain => simp [plain.and_not_mem, plain.or_not_mem]
  | @cons operand connective rest plain alternates =>
    cases connective <;> simp [Connective.symbol, Connective.char]

theorem parse_eq_unbalanced_iff {text expression : Text} :
    parse text = .error (.unbalanced expression) ↔
      expression = text ∧ ('&' ∈ text ∨ '|' ∈ text) ∧
        [] ∈ text.splitOnP fun c => c == '&' || c == '|' := by
  have connectives := (alternates_tokens text).length_ne_one_iff
  rw [flatten_tokens] at connectives
  rw [parse, ofTokens_eq_error_iff, (alternates_tokens text).defect?_eq, flatten_tokens]
  simp only [connectives, operands_tokens]
  split
  · rename_i missing
    simp [missing, eq_comm]
  · rename_i complete
    refine iff_of_false (fun refused => ?_) fun unbalanced => complete unbalanced.2
    obtain ⟨operand, other⟩ | other := refusal_of_findSome? refused <;> cases other

/-- A token list is refused for its first defect and read where it has none, and joining its runs never
fails. A text has no unknown connective, and it is unbalanced exactly where it has a connective with an
empty operand beside one. -/
theorem ofTokens_first_defect :
    (∀ tokens e, ofTokens tokens = .error e ↔ defect? tokens = some e) ∧
      (∀ tokens, defect? tokens = none →
        ∃ chain : Chain, chain.tokens = tokens ∧ joinRuns? chain.runs = some chain.filter ∧
          ofTokens tokens = .ok chain.filter) ∧
      (∀ fragment, ofTokens [fragment] = (Predicate.parse fragment).map leaf) ∧
      ∀ text, (∀ token, parse text ≠ .error (.unknownConnective token)) ∧
        ∀ expression, parse text = .error (.unbalanced expression) ↔
          expression = text ∧ ('&' ∈ text ∨ '|' ∈ text) ∧
            [] ∈ text.splitOnP fun c => c == '&' || c == '|' := by
  refine ⟨fun tokens e => ofTokens_eq_error_iff, fun tokens sound => ?_, ofTokens_singleton,
    fun text => ⟨parse_ne_unknownConnective text, fun expression => parse_eq_unbalanced_iff⟩⟩
  rw [← refusal?_ofTokens, refusal?_eq_none_iff] at sound
  obtain ⟨f, read⟩ := sound
  obtain ⟨chain, spelled, -, rfl⟩ := ofTokens_eq_ok_iff.mp read
  exact ⟨chain, spelled, chain.joinRuns?_runs, read⟩

theorem first_defect_of_several :
    defect? [['a', '<', '1'], ['&'], [], ['+'], ['b']] = some (.unknownConnective ['+']) ∧
      ofTokens [['a', '<', '1'], ['&'], [], ['+'], ['b']] = .error (.unknownConnective ['+']) ∧
      defect? [['a', '<', '1'], ['|'], ['b', '<', '2']] = none ∧
      ∃ chain : Chain, chain.tokens = [['a', '<', '1'], ['|'], ['b', '<', '2']] ∧
        joinRuns? chain.runs = some chain.filter ∧
        ofTokens [['a', '<', '1'], ['|'], ['b', '<', '2']] = .ok chain.filter :=
  ⟨rfl, (ofTokens_first_defect.1 _ _).mpr rfl, rfl, ofTokens_first_defect.2.1 _ rfl⟩

end Filter
end RecordFilter
