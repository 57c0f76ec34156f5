import RecordFilter.Filter.Parser

/-! The shape of token lists. Cutting a text gives plain operands and connectives in turn, and every
list of that shape is what its concatenation is cut into. -/

namespace RecordFilter

def Text.Plain (text : Text) : Prop := ∀ connective : Connective, connective.char ∉ text

namespace Text

theorem Plain.and_not_mem {text : Text} (plain : text.Plain) : '&' ∉ text := plain .and

theorem Plain.or_not_mem {text : Text} (plain : text.Plain) : '|' ∉ text := plain .or

theorem plain_append_iff {left right : Text} :
    Text.Plain (left ++ right) ↔ left.Plain ∧ right.Plain := by
  simp only [Plain, List.mem_append, not_or, forall_and]

theorem plain_cons_iff {c : Char} {text : Text} :
    Text.Plain (c :: text) ↔ Connective.ofChar? c = none ∧ text.Plain := by
  have head : Text.Plain [c] ↔ Connective.ofChar? c = none := by
    constructor
    · intro plain
      cases found : Connective.ofChar? c with
      | none => rfl
      | some connective =>
        exact absurd (List.mem_singleton.mpr (Connective.eq_char_of_ofChar? found).symm)
          (plain connective)
    · intro unknown connective member
      rw [← List.mem_singleton.mp member, Connective.ofChar?_char] at unknown
      cases unknown
  rw [← head, ← plain_append_iff, List.singleton_append]

end Text

namespace Filter

inductive Alternates : List Text → Prop where
  | single {operand : Text} (plain : operand.Plain) : Alternates [operand]
  | cons {operand : Text} {connective : Connective} {rest : List Text} (plain : operand.Plain)
      (alternates : Alternates rest) : Alternates (operand :: connective.symbol :: rest)

theorem Alternates.ne_nil {tokens : List Text} (h : Alternates tokens) : tokens ≠ [] := by
  cases h <;> simp

theorem alternates_singleton_iff {operand : Text} : Alternates [operand] ↔ operand.Plain := by
  refine ⟨fun h => ?_, .single⟩
  cases h
  assumption

theorem Alternates.of_cons {operand token : Text} {rest : List Text}
    (h : Alternates (operand :: token :: rest)) : operand.Plain ∧ Alternates rest := by
  cases h with
  | cons plain alternates => exact ⟨plain, alternates⟩

theorem Alternates.pushToken {tokens : List Text} (h : Alternates tokens) (c : Char) :
    Alternates (pushToken c tokens) := by
  obtain ⟨fragment, rest, rfl⟩ := List.exists_cons_of_ne_nil h.ne_nil
  unfold Filter.pushToken
  cases found : Connective.ofChar? c with
  | some connective =>
    rw [Connective.eq_char_of_ofChar? found]
    exact .cons (fun _ => List.not_mem_nil) h
  | none =>
    cases h with
    | single plain => exact .single (Text.plain_cons_iff.mpr ⟨found, plain⟩)
    | cons plain alternates => exact .cons (Text.plain_cons_iff.mpr ⟨found, plain⟩) alternates

theorem alternates_tokens (text : Text) : Alternates (tokens text) := by
  induction text with
  | nil => exact .single fun _ => List.not_mem_nil
  | cons c text ih => exact ih.pushToken c

theorem foldr_pushToken_of_plain {operand : Text} (plain : operand.Plain) (fragment : Text)
    (rest : List Text) :
    operand.foldr Filter.pushToken (fragment :: rest) = (operand ++ fragment) :: rest := by
  induction operand with
  | nil => rfl
  | cons c operand ih =>
    obtain ⟨unknown, plain⟩ := Text.plain_cons_iff.mp plain
    rw [List.foldr_cons, ih plain]
    simp [Filter.pushToken, unknown]

theorem tokens_cons_of_isSome {c : Char} (known : (Connective.ofChar? c).isSome) (text : Text) :
    tokens (c :: text) = [] :: [c] :: tokens text := by
  obtain ⟨fragment, rest, cut⟩ := List.exists_cons_of_ne_nil (alternates_tokens text).ne_nil
  rw [tokens, List.foldr_cons, ← tokens, cut, Filter.pushToken, if_pos known]

theorem Alternates.tokens_flatten {tokens : List Text} (h : Alternates tokens) :
    Filter.tokens tokens.flatten = tokens := by
  induction h with
  | single plain => simpa [Filter.tokens] using foldr_pushToken_of_plain plain [] []
  | @cons operand connective rest plain alternates ih =>
    have known : (Connective.ofChar? connective.char).isSome := by
      rw [Connective.ofChar?_char]
      rfl
    have cut : Filter.tokens (connective.symbol ++ rest.flatten) = [] :: connective.symbol :: rest :=
      (tokens_cons_of_isSome known rest.flatten).trans (by rw [ih]; rfl)
    rw [List.flatten_cons, List.flatten_cons, Filter.tokens, List.foldr_append, ← Filter.tokens]
    rw [cut, foldr_pushToken_of_plain plain, List.append_nil]

end Filter
end RecordFilter
