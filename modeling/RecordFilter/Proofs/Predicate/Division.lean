import Mathlib.Data.List.Infix
import RecordFilter.Proofs.Predicate.Fragment

/-! Where a fragment is divided: at the first symbol of two characters, and where there is none, at the
first symbol of one. A fragment without any symbol is refused. -/

namespace RecordFilter

namespace Comparison

def IsPair (comparison : Comparison) : Prop := comparison.symbol.length = 2

instance : DecidablePred IsPair := fun comparison =>
  inferInstanceAs (Decidable (comparison.symbol.length = 2))

def pairs : List Comparison := [equal, notEqual, atLeast, atMost, like, notLike]

def singles : List Comparison := [above, below]

theorem mem_pairs_iff {comparison : Comparison} : comparison ∈ pairs ↔ comparison.IsPair := by
  cases comparison <;> decide

theorem mem_singles_iff {comparison : Comparison} : comparison ∈ singles ↔ ¬comparison.IsPair := by
  cases comparison <;> decide

theorem pairAt?_eq_some_iff {text rest : Text} {comparison : Comparison} :
    pairAt? text = some (comparison, rest) ↔ comparison.IsPair ∧ text = comparison.symbol ++ rest := by
  constructor
  · intro found
    refine ⟨?_, eq_append_of_pairAt? found⟩
    unfold pairAt? at found
    split at found <;> cases found <;> rfl
  · rintro ⟨pair, rfl⟩
    cases comparison <;> first | rfl | cases pair

theorem singleAt?_eq_some_iff {text rest : Text} {comparison : Comparison} :
    singleAt? text = some (comparison, rest) ↔
      ¬comparison.IsPair ∧ text = comparison.symbol ++ rest := by
  constructor
  · intro found
    refine ⟨?_, eq_append_of_singleAt? found⟩
    unfold singleAt? at found
    split at found <;> cases found <;> exact nofun
  · rintro ⟨single, rfl⟩
    cases comparison <;> first | rfl | exact absurd rfl single

end Comparison

namespace Predicate

/-- No symbol of the given kind starts inside the front of a text that goes on with the rest. -/
def Clear (kind : Comparison → Prop) (front rest : Text) : Prop :=
  ∀ back, back <:+ front → back ≠ [] → ∀ comparison, kind comparison →
    ¬comparison.symbol <+: back ++ rest

theorem clear_nil (kind : Comparison → Prop) (rest : Text) : Clear kind [] rest :=
  fun _ behind nonempty => absurd (List.eq_nil_of_suffix_nil behind) nonempty

theorem clear_cons_iff {kind : Comparison → Prop} {c : Char} {front rest : Text} :
    Clear kind (c :: front) rest ↔
      (∀ comparison, kind comparison → ¬comparison.symbol <+: c :: (front ++ rest)) ∧
        Clear kind front rest := by
  constructor
  · intro clear
    refine ⟨clear _ (List.suffix_refl _) nofun, fun back behind => clear back ?_⟩
    exact behind.trans (List.suffix_cons c front)
  · rintro ⟨first, clear⟩ back behind nonempty
    obtain rfl | behind := List.suffix_cons_iff.mp behind
    · exact first
    · exact clear back behind nonempty

theorem Clear.eq_nil {kind : Comparison → Prop} {front rest : Text} {comparison : Comparison}
    (clear : Clear kind front rest) (accepted : kind comparison)
    (start : comparison.symbol <+: front ++ rest) : front = [] := by
  cases front with
  | nil => rfl
  | cons c front => exact absurd start ((clear_cons_iff.mp clear).1 comparison accepted)

theorem Clear.length_le {kind : Comparison → Prop} {front rest before after : Text}
    {comparison : Comparison} (clear : Clear kind front (comparison.symbol ++ rest))
    (accepted : kind comparison)
    (same : front ++ (comparison.symbol ++ rest) = before ++ (comparison.symbol ++ after)) :
    front.length ≤ before.length := by
  refine Nat.le_of_not_lt fun shorter => ?_
  obtain ⟨back, rfl⟩ : before <+: front :=
    List.prefix_of_prefix_length_le ⟨_, same.symm⟩ (List.prefix_append front _) (Nat.le_of_lt shorter)
  have nonempty : back ≠ [] := by
    rintro rfl
    simp at shorter
  rw [List.append_assoc] at same
  exact clear back (List.suffix_append before back) nonempty comparison accepted
    ⟨after, (List.append_cancel_left same).symm⟩

def leading? (candidates : List Comparison) (fragment : Text) : Option Comparison :=
  fragment.tails.findSome? fun rest =>
    candidates.find? fun comparison => comparison.symbol.isPrefixOf rest

section
variable {symbolAt? : Text → Option (Comparison × Text)} {kind : Comparison → Prop}
  (exact : ∀ {text rest comparison}, symbolAt? text = some (comparison, rest) ↔
    kind comparison ∧ text = comparison.symbol ++ rest)
include exact

theorem symbolAt?_eq_none_iff {text : Text} :
    symbolAt? text = none ↔ ∀ comparison, kind comparison → ¬comparison.symbol <+: text := by
  constructor
  · rintro missing comparison accepted ⟨rest, same⟩
    rw [exact.mpr ⟨accepted, same.symm⟩] at missing
    cases missing
  · intro absent
    cases found : symbolAt? text with
    | none => rfl
    | some result =>
      obtain ⟨comparison, rest⟩ := result
      obtain ⟨accepted, rfl⟩ := exact.mp found
      exact absurd (List.prefix_append _ _) (absent comparison accepted)

theorem splitAtSymbol_eq_none_iff {passed text : Text} :
    splitAtSymbol symbolAt? passed text = none ↔
      ∀ comparison, kind comparison → ¬comparison.symbol <:+: text := by
  induction text generalizing passed with
  | nil =>
    refine ⟨fun _ comparison _ inside => ?_, fun _ => rfl⟩
    exact comparison.symbol_ne_nil (List.eq_nil_of_infix_nil inside)
  | cons c text ih =>
    have behind : splitAtSymbol symbolAt? (c :: passed) text = none ↔
      ∀ comparison, kind comparison → ¬comparison.symbol <:+: text := ih
    simp only [List.infix_cons_iff, not_or, forall_and, ← behind]
    rw [← symbolAt?_eq_none_iff exact, splitAtSymbol]
    cases symbolAt? (c :: text) with
    | none => simp
    | some => simp

theorem find?_isPrefixOf_eq {candidates : List Comparison}
    (members : ∀ {comparison}, comparison ∈ candidates ↔ kind comparison) (text : Text) :
    (candidates.find? fun comparison => comparison.symbol.isPrefixOf text) =
      (symbolAt? text).map Prod.fst := by
  cases found : candidates.find? fun comparison => comparison.symbol.isPrefixOf text with
  | none =>
    have absent : symbolAt? text = none := by
      refine (symbolAt?_eq_none_iff exact).mpr fun comparison accepted start => ?_
      have unlike := List.find?_eq_none.mp found comparison (members.mpr accepted)
      exact unlike (List.isPrefixOf_iff_prefix.mpr start)
    rw [absent, Option.map_none]
  | some comparison =>
    have start : comparison.symbol.isPrefixOf text = true :=
      by simpa using List.find?_some found
    obtain ⟨rest, same⟩ := List.isPrefixOf_iff_prefix.mp start
    have accepted := members.mp (List.mem_of_find?_eq_some found)
    rw [exact.mpr ⟨accepted, same.symm⟩, Option.map_some]

theorem leading?_eq_map_splitAtSymbol {candidates : List Comparison}
    (members : ∀ {comparison}, comparison ∈ candidates ↔ kind comparison) (passed text : Text) :
    leading? candidates text = (splitAtSymbol symbolAt? passed text).map fun parts => parts.2.1 := by
  induction text generalizing passed with
  | nil =>
    have absent : symbolAt? [] = none :=
      (symbolAt?_eq_none_iff exact).mpr fun comparison _ start =>
        comparison.symbol_ne_nil (List.eq_nil_of_prefix_nil start)
    rw [leading?, List.tails, List.findSome?_singleton, find?_isPrefixOf_eq exact members, absent]
    rfl
  | cons c text ih =>
    rw [leading?, List.tails_cons, List.findSome?_cons, find?_isPrefixOf_eq exact members, ← leading?,
      splitAtSymbol]
    cases symbolAt? (c :: text) with
    | none => exact ih (c :: passed)
    | some result => rfl

theorem splitAtSymbol_eq_some_iff {passed text field literal : Text} {comparison : Comparison} :
    splitAtSymbol symbolAt? passed text = some (field, comparison, literal) ↔
      kind comparison ∧ ∃ front, field = passed.reverse ++ front ∧
        text = front ++ (comparison.symbol ++ literal) ∧
        Clear kind front (comparison.symbol ++ literal) := by
  induction text generalizing passed with
  | nil =>
    refine ⟨nofun, ?_⟩
    rintro ⟨-, front, -, empty, -⟩
    simp [comparison.symbol_ne_nil] at empty
  | cons c text ih =>
    rw [splitAtSymbol]
    cases found : symbolAt? (c :: text) with
    | some result =>
      obtain ⟨leading, rest⟩ := result
      obtain ⟨accepted, same⟩ := exact.mp found
      constructor
      · intro split
        cases split
        exact ⟨accepted, [], by simp, same, clear_nil _ _⟩
      · rintro ⟨wanted, front, rfl, split, clear⟩
        obtain rfl : front = [] := clear.eq_nil accepted ⟨rest, by rw [← same, split]⟩
        cases found.symm.trans (exact.mpr ⟨wanted, split⟩)
        simp
    | none =>
      have first := (symbolAt?_eq_none_iff exact).mp found
      rw [ih]
      refine and_congr_right fun accepted => ⟨?_, ?_⟩
      · rintro ⟨front, rfl, rfl, clear⟩
        exact ⟨c :: front, by simp, rfl, clear_cons_iff.mpr ⟨first, clear⟩⟩
      · rintro ⟨front, rfl, split, clear⟩
        have nonempty : front ≠ [] := by
          rintro rfl
          exact first comparison accepted ⟨literal, split.symm⟩
        obtain ⟨d, front, rfl⟩ := List.exists_cons_of_ne_nil nonempty
        cases split
        exact ⟨front, by simp, rfl, (clear_cons_iff.mp clear).2⟩

theorem splitAtSymbol_nil_eq_some_iff {text field literal : Text} {comparison : Comparison} :
    splitAtSymbol symbolAt? [] text = some (field, comparison, literal) ↔
      kind comparison ∧ text = field ++ (comparison.symbol ++ literal) ∧
        Clear kind field (comparison.symbol ++ literal) := by
  simp [splitAtSymbol_eq_some_iff exact]

end

def divide? (fragment : Text) : Option (Text × Comparison × Text) :=
  (splitAtSymbol Comparison.pairAt? [] fragment).or (splitAtSymbol Comparison.singleAt? [] fragment)

theorem divide?_eq_some_iff {fragment field literal : Text} {comparison : Comparison} :
    divide? fragment = some (field, comparison, literal) ↔
      fragment = field ++ (comparison.symbol ++ literal) ∧
        (comparison.IsPair ∧ Clear Comparison.IsPair field (comparison.symbol ++ literal) ∨
          ¬comparison.IsPair ∧ Clear (¬Comparison.IsPair ·) field (comparison.symbol ++ literal) ∧
            ∀ other : Comparison, other.IsPair → ¬other.symbol <:+: fragment) := by
  rw [divide?, Option.or_eq_some_iff, splitAtSymbol_nil_eq_some_iff Comparison.pairAt?_eq_some_iff,
    splitAtSymbol_nil_eq_some_iff Comparison.singleAt?_eq_some_iff,
    splitAtSymbol_eq_none_iff Comparison.pairAt?_eq_some_iff]
  constructor
  · rintro (⟨pair, same, clear⟩ | ⟨absent, single, same, clear⟩)
    · exact ⟨same, .inl ⟨pair, clear⟩⟩
    · exact ⟨same, .inr ⟨single, clear, absent⟩⟩
  · rintro ⟨same, ⟨pair, clear⟩ | ⟨single, clear, absent⟩⟩
    · exact .inl ⟨pair, same, clear⟩
    · exact .inr ⟨absent, single, same, clear⟩

theorem divide?_eq_none_iff {fragment : Text} :
    divide? fragment = none ↔ ∀ comparison : Comparison, ¬comparison.symbol <:+: fragment := by
  rw [divide?, Option.or_eq_none_iff, splitAtSymbol_eq_none_iff Comparison.pairAt?_eq_some_iff,
    splitAtSymbol_eq_none_iff Comparison.singleAt?_eq_some_iff]
  constructor
  · rintro ⟨pairs, singles⟩ comparison
    exact (Decidable.em comparison.IsPair).elim (pairs comparison) (singles comparison)
  · intro absent
    exact ⟨fun comparison _ => absent comparison, fun comparison _ => absent comparison⟩

def chosen? (fragment : Text) : Option Comparison :=
  (leading? Comparison.pairs fragment).or (leading? Comparison.singles fragment)

theorem chosen?_eq_map_divide? (fragment : Text) :
    chosen? fragment = (divide? fragment).map fun parts => parts.2.1 := by
  rw [chosen?, divide?, Option.map_or,
    leading?_eq_map_splitAtSymbol Comparison.pairAt?_eq_some_iff Comparison.mem_pairs_iff [],
    leading?_eq_map_splitAtSymbol Comparison.singleAt?_eq_some_iff Comparison.mem_singles_iff []]

theorem dropInfix?_of_divide? {fragment field literal : Text} {comparison : Comparison}
    (h : divide? fragment = some (field, comparison, literal)) :
    fragment.dropInfix? comparison.symbol = some (field, literal) := by
  obtain ⟨rfl, kinds⟩ := divide?_eq_some_iff.mp h
  rw [List.dropInfix?_eq_some_iff]
  refine ⟨⟨comparison.symbol, by simp, by simp⟩, fun before symbol after split same => ?_⟩
  obtain rfl := eq_of_beq same
  rw [List.append_assoc] at split
  obtain ⟨pair, clear⟩ | ⟨single, clear, -⟩ := kinds
  · exact clear.length_le pair split
  · exact clear.length_le single split

/-- Reading in two searches: one for the comparison, and one for the place of its symbol. -/
def searchTwice (fragment : Text) : Except FilterError Predicate :=
  match chosen? fragment with
  | none => .error (.unknownOperator fragment)
  | some comparison =>
    match fragment.dropInfix? comparison.symbol with
    | none => .error (.unknownOperator fragment)
    | some (field, literal) => make field comparison literal

theorem isSome_dropInfix?_of_chosen? {fragment : Text} {comparison : Comparison}
    (h : chosen? fragment = some comparison) : (fragment.dropInfix? comparison.symbol).isSome := by
  rw [chosen?_eq_map_divide?] at h
  obtain ⟨⟨field, comparison, literal⟩, divided, rfl⟩ := Option.map_eq_some_iff.mp h
  rw [dropInfix?_of_divide? divided]
  rfl

theorem parse_eq_divide? (fragment : Text) :
    parse fragment =
      match divide? fragment with
      | some (field, comparison, literal) => make field comparison literal
      | none => .error (.unknownOperator fragment) := by
  rw [parse, divide?]
  cases splitAtSymbol Comparison.pairAt? [] fragment <;> rfl

theorem parse_eq_searchTwice (fragment : Text) : parse fragment = searchTwice fragment := by
  rw [parse_eq_divide?, searchTwice, chosen?_eq_map_divide?]
  cases divided : divide? fragment with
  | none => rfl
  | some parts =>
    simp only [Option.map_some, dropInfix?_of_divide? divided]

theorem parse_eq_ok_iff {fragment : Text} {p : Predicate} :
    parse fragment = .ok p ↔ divide? fragment = some (p.field, p.comparison, p.literal) := by
  rw [parse_eq_divide?]
  cases divide? fragment with
  | none => simp
  | some parts =>
    obtain ⟨field, comparison, literal⟩ := parts
    exact make_eq_ok_iff.trans (by simp [eq_comm])

theorem text_of_parse {fragment : Text} {p : Predicate} (h : parse fragment = .ok p) :
    p.text = fragment := by
  rw [(divide?_eq_some_iff.mp (parse_eq_ok_iff.mp h)).1, text, List.append_assoc]

theorem make_eq_error {field literal : Text} {comparison : Comparison} {e : FilterError}
    (h : make field comparison literal = .error e) : e = .patternTooLarge := by
  unfold make at h
  split at h <;> cases h
  rfl

theorem parse_eq_error {fragment : Text} {e : FilterError} (h : parse fragment = .error e) :
    e = .unknownOperator fragment ∧ divide? fragment = none ∨ e = .patternTooLarge := by
  rw [parse_eq_divide?] at h
  cases parts : divide? fragment with
  | none =>
    rw [parts] at h
    cases h
    exact .inl ⟨rfl, rfl⟩
  | some =>
    rw [parts] at h
    exact .inr (make_eq_error h)

theorem parse_eq_unknownOperator_iff {fragment echo : Text} :
    parse fragment = .error (.unknownOperator echo) ↔
      echo = fragment ∧ ∀ comparison : Comparison, ¬comparison.symbol <:+: fragment := by
  rw [← divide?_eq_none_iff]
  constructor
  · intro h
    obtain ⟨same, none⟩ | large := parse_eq_error h
    · cases same
      exact ⟨rfl, none⟩
    · cases large
  · rintro ⟨rfl, none⟩
    rw [parse_eq_divide?, none]

end Predicate
end RecordFilter
