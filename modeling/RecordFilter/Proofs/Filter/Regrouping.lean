import Mathlib.Data.List.Forall2
import RecordFilter.Proofs.Filter.Precedence
import RecordFilter.Proofs.Filter.RoundTrip

/-! Grouping and order. The text of a tree does not show how its chains nest, and branches and
fragments may stand in any order; what is read means the same. -/

namespace RecordFilter

namespace Chain

theorem runs_append_or (left right : Chain) :
    (left.append .or right).runs = left.runs ++ right.runs := by
  fun_induction runs left with
  | case1 p => rfl
  | case2 p rest ih =>
    obtain ⟨run, others, split⟩ := List.exists_cons_of_ne_nil rest.runs_ne_nil
    rw [append, runs, ih, split, List.cons_append, List.modifyHead_cons, List.modifyHead_cons,
      List.cons_append]
  | case3 p rest ih => rw [append, runs, ih, List.cons_append]

theorem runs_of_noOr {chain : Chain} (noOr : .or ∉ chain.connectives) :
    chain.runs = [chain.predicates] := by
  induction chain with
  | last p => rfl
  | link p connective rest ih =>
    rw [connectives, List.mem_cons, not_or] at noOr
    cases connective with
    | and => rw [runs, ih noOr.2, List.modifyHead_cons, predicates]
    | or => exact absurd rfl noOr.1

end Chain

namespace Filter

/-- No `|` lies below an `&`. -/
def IsLayered : Filter → Prop
  | leaf _ => True
  | join .or l r => l.IsLayered ∧ r.IsLayered
  | join .and l r => l.hasOr = false ∧ r.hasOr = false

theorem length_predicates_chain (f : Filter) : f.chain.predicates.length = f.predicateCount := by
  induction f with
  | leaf p => rw [predicateCount_leaf, chain, Chain.predicates, List.length_singleton]
  | join connective l r ihl ihr =>
    rw [chain, Chain.predicates_append, List.length_append, ihl, ihr, predicateCount_join]

theorem eval_of_hasOr {f : Filter} (noOr : f.hasOr = false) (verdict : Predicate → Bool) :
    f.eval verdict = f.chain.predicates.all verdict := by
  induction f with
  | leaf p => simp [eval, chain, Chain.predicates]
  | join connective l r ihl ihr =>
    cases connective with
    | or => cases noOr
    | and =>
      obtain ⟨left, right⟩ := Bool.or_eq_false_iff.mp noOr
      rw [eval_and, ihl left, ihr right, chain, Chain.predicates_append, List.all_append]

theorem IsLayered.eval_chain {f : Filter} (layered : f.IsLayered) (verdict : Predicate → Bool) :
    f.chain.filter.eval verdict = f.eval verdict := by
  rw [Chain.eval_filter]
  induction f with
  | leaf p => simp [eval, chain, Chain.runs]
  | join connective l r ihl ihr =>
    cases connective with
    | or => rw [chain, Chain.runs_append_or, List.any_append, ihl layered.1, ihr layered.2, eval_or]
    | and =>
      have noOr : (join .and l r).hasOr = false := Bool.or_eq_false_iff.mpr layered
      rw [Chain.runs_of_noOr (hasOr_eq_false_iff.mp noOr), eval_of_hasOr noOr]
      simp

/-- What a layered tree of operands writes is read, though it may be as another tree; that one writes
the same text, has as many predicates and holds of the same records. -/
theorem parse_text_of_isLayered {f : Filter} (layered : f.IsLayered)
    (operands : ∀ p ∈ f.chain.predicates, p.IsOperand) :
    ∃ read, parse f.text = .ok read ∧ read.text = f.text ∧
      read.predicateCount = f.predicateCount ∧
      ∀ (ν : Type) [RecordNumber ν] (record : Document ν) (separator : Char),
        read.holds record separator = f.holds record separator := by
  refine ⟨f.chain.filter, ?_, ?_, ?_, ?_⟩
  · exact parse_eq_ok_iff.mpr ⟨f.chain, f.text_chain, operands, rfl⟩
  · rw [Chain.text_filter, text_chain]
  · rw [Chain.predicateCount_filter, length_predicates_chain]
  · intro ν _ record separator
    exact layered.eval_chain _

theorem parse_text_of_left_nested :
    let below : Predicate := ⟨['a'], .below, [], nofun⟩
    let above : Predicate := ⟨['b'], .above, ['c'], nofun⟩
    let f : Filter := join .or (join .or (leaf above) (leaf below))
      (join .and (join .and (leaf below) (leaf above)) (leaf below))
    f.IsLayered ∧ (∀ p ∈ f.chain.predicates, p.IsOperand) ∧
      ∃ read, parse f.text = .ok read ∧ read.predicateCount = f.predicateCount := by
  intro below above f
  have layered : f.IsLayered := ⟨⟨trivial, trivial⟩, rfl, rfl⟩
  have operands : ∀ p ∈ f.chain.predicates, p.IsOperand := by
    have first : below.IsOperand := ⟨by rintro (_ | _) <;> decide, fun _ => nofun, rfl⟩
    have second : above.IsOperand :=
      ⟨by rintro (_ | _) <;> decide, by rintro (_ | _) <;> decide, rfl⟩
    simp [f, chain, Chain.append, Chain.predicates, first, second]
  obtain ⟨read, parsed, -, count, -⟩ := parse_text_of_isLayered layered operands
  exact ⟨layered, operands, read, parsed, count⟩

/-! ### Branches and fragments in another order -/

def ofBranches (branches : List (List Text)) : Text :=
  List.intercalate ['|'] (branches.map (List.intercalate ['&']))

def Shuffled {α : Type} (lists others : List (List α)) : Prop :=
  ∃ reordered, lists.Perm reordered ∧ List.Forall₂ List.Perm reordered others

namespace Shuffled
variable {α : Type} {lists others : List (List α)}

theorem flatten_perm (h : Shuffled lists others) : lists.flatten.Perm others.flatten := by
  obtain ⟨reordered, outer, inner⟩ := h
  refine outer.flatten.trans ?_
  clear outer
  induction inner with
  | nil => exact .nil
  | cons first _ ih =>
    rw [List.flatten_cons, List.flatten_cons]
    exact first.append ih

theorem length_eq (h : Shuffled lists others) : lists.length = others.length := by
  obtain ⟨reordered, outer, inner⟩ := h
  rw [outer.length_eq, inner.length_eq]

theorem ne_nil (h : Shuffled lists others) (nonempty : ∀ list ∈ lists, list ≠ []) :
    ∀ list ∈ others, list ≠ [] := by
  obtain ⟨reordered, outer, inner⟩ := h
  have nonempty : ∀ list ∈ reordered, list ≠ [] := fun list member =>
    nonempty list (outer.mem_iff.mpr member)
  clear outer
  induction inner with
  | nil => exact fun _ => nofun
  | cons first _ ih =>
    obtain ⟨head, tail⟩ := List.forall_mem_cons.mp nonempty
    refine List.forall_mem_cons.mpr ⟨?_, ih tail⟩
    rintro rfl
    exact head first.eq_nil

theorem any_all (h : Shuffled lists others) (test : α → Bool) :
    (lists.any fun list => list.all test) = others.any fun list => list.all test := by
  obtain ⟨reordered, outer, inner⟩ := h
  rw [outer.any_eq]
  clear outer
  induction inner with
  | nil => rfl
  | cons first _ ih => rw [List.any_cons, List.any_cons, first.all_eq, ih]

end Shuffled

theorem branches_ne_nil (text : Text) : branches text ≠ [] ∧ ∀ branch ∈ branches text, branch ≠ [] := by
  constructor
  · simp [branches, List.splitOn_ne_nil]
  · intro branch member
    obtain ⟨piece, -, rfl⟩ := List.mem_map.mp member
    exact List.splitOn_ne_nil '&' piece

theorem flatten_branches_append {fragment : Text} (plain : fragment.Plain) (connective : Connective)
    (text : Text) :
    (branches (fragment ++ (connective.symbol ++ text))).flatten =
      fragment :: (branches text).flatten := by
  cases connective with
  | and =>
    obtain ⟨branch, others, split⟩ := List.exists_cons_of_ne_nil (branches_ne_nil text).1
    show (branches (fragment ++ '&' :: text)).flatten = _
    rw [branches_append_and plain, split, List.modifyHead_cons, List.flatten_cons, List.flatten_cons,
      List.cons_append]
  | or =>
    show (branches (fragment ++ '|' :: text)).flatten = _
    rw [branches_append_or plain, List.flatten_cons, List.singleton_append]

theorem Alternates.plain_of_mem_branches {tokens : List Text} (alternates : Alternates tokens) :
    ∀ fragment ∈ (branches tokens.flatten).flatten, fragment.Plain := by
  induction alternates with
  | single plain =>
    rw [List.flatten_singleton, branches_of_plain plain]
    exact List.forall_mem_singleton.mpr plain
  | cons plain _ ih =>
    rw [List.flatten_cons, List.flatten_cons, flatten_branches_append plain]
    exact List.forall_mem_cons.mpr ⟨plain, ih⟩

theorem plain_of_mem_branches {text fragment : Text} (member : fragment ∈ (branches text).flatten) :
    fragment.Plain := by
  have plain := (alternates_tokens text).plain_of_mem_branches
  rw [flatten_tokens] at plain
  exact plain fragment member

theorem branches_ofBranches {parts : List (List Text)} (nonempty : parts ≠ [])
    (filled : ∀ part ∈ parts, part ≠ []) (plain : ∀ fragment ∈ parts.flatten, fragment.Plain) :
    branches (ofBranches parts) = parts := by
  have plain : ∀ part ∈ parts, ∀ fragment ∈ part, fragment.Plain := fun part member fragment inside =>
    plain fragment (List.mem_flatten_of_mem member inside)
  have outer : (ofBranches parts).splitOn '|' = parts.map (List.intercalate ['&']) := by
    apply List.splitOn_intercalate
    · intro branch member bar
      obtain ⟨part, inParts, rfl⟩ := List.mem_map.mp member
      obtain bar | ⟨fragment, inPart, bar⟩ := Text.mem_intercalate bar
      · cases List.mem_singleton.mp bar
      · exact (plain part inParts fragment inPart).or_not_mem bar
    · simp [nonempty]
  rw [branches, outer, List.map_map]
  refine (List.map_congr_left fun part member => ?_).trans (List.map_id parts)
  apply List.splitOn_intercalate
  · exact fun fragment inside => (plain part member fragment inside).and_not_mem
  · exact filled part member

theorem exists_parse_eq_ok_iff {text : Text} :
    (∃ f, parse text = .ok f) ↔
      ∀ fragment ∈ (branches text).flatten, ∃ p, Predicate.parse fragment = .ok p := by
  constructor
  · rintro ⟨f, h⟩ fragment member
    obtain ⟨chain, rfl, operands, rfl⟩ := parse_eq_ok_iff.mp h
    rw [branches_text fun p member => (operands p member).text_plain, ← List.map_flatten,
      chain.flatten_runs] at member
    obtain ⟨p, inChain, rfl⟩ := List.mem_map.mp member
    exact ⟨p, (operands p inChain).parse_text⟩
  · intro read
    have chained {tokens : List Text} (alternates : Alternates tokens)
        (read : ∀ fragment ∈ (branches tokens.flatten).flatten, ∃ p, Predicate.parse fragment = .ok p) :
        ∃ chain : Chain, chain.tokens = tokens ∧ chain.Readable := by
      induction alternates with
      | single plain =>
        rw [List.flatten_singleton, branches_of_plain plain] at read
        obtain ⟨p, read⟩ := List.forall_mem_singleton.mp read
        obtain rfl := Predicate.text_of_parse read
        exact ⟨.last p, rfl, Chain.readable_last.mpr read⟩
      | @cons operand connective rest plain _ ih =>
        rw [List.flatten_cons, List.flatten_cons, flatten_branches_append plain] at read
        obtain ⟨⟨p, first⟩, others⟩ := List.forall_mem_cons.mp read
        obtain ⟨chain, rfl, readable⟩ := ih others
        obtain rfl := Predicate.text_of_parse first
        exact ⟨.link p connective chain, rfl, Chain.readable_link.mpr ⟨first, readable⟩⟩
    obtain ⟨chain, same, readable⟩ := chained (alternates_tokens text) (by rwa [flatten_tokens])
    exact ⟨chain.filter, ofTokens_eq_ok_iff.mpr ⟨chain, same, readable, rfl⟩⟩

def fragmentVerdict (verdict : Predicate → Bool) (fragment : Text) : Bool :=
  match Predicate.parse fragment with
  | .ok p => verdict p
  | .error _ => false

theorem eval_of_parse {text : Text} {f : Filter} (h : parse text = .ok f)
    (verdict : Predicate → Bool) :
    f.eval verdict =
      (branches text).any fun branch => branch.all (fragmentVerdict verdict) := by
  obtain ⟨chain, rfl, operands, rfl⟩ := parse_eq_ok_iff.mp h
  have read : ∀ run ∈ chain.runs, ∀ p ∈ run, fragmentVerdict verdict p.text = verdict p := by
    intro run inRuns p inRun
    have member : p ∈ chain.predicates := by
      rw [← chain.flatten_runs]
      exact List.mem_flatten_of_mem inRuns inRun
    rw [fragmentVerdict, (operands p member).parse_text]
  rw [Chain.eval_filter, branches_text fun p member => (operands p member).text_plain, Bool.eq_iff_iff]
  simp only [List.any_map, List.any_eq_true, Function.comp_apply, List.all_map, List.all_eq_true]
  refine exists_congr fun run => and_congr_right fun inRuns => forall₂_congr fun p inRun => ?_
  rw [read run inRuns p inRun]

/-- A text with the branches of another one, and in each the fragments, in another order. -/
def IsReordering (other text : Text) : Prop :=
  ∃ parts, Shuffled (branches text) parts ∧ other = ofBranches parts

theorem IsReordering.shuffled {text other : Text} (h : IsReordering other text) :
    Shuffled (branches text) (branches other) := by
  obtain ⟨parts, shuffled, rfl⟩ := h
  obtain ⟨nonempty, filled⟩ := branches_ne_nil text
  have nonempty : parts ≠ [] := by
    rw [← List.length_pos_iff, ← shuffled.length_eq]
    exact List.length_pos_iff.mpr nonempty
  rw [branches_ofBranches nonempty (shuffled.ne_nil filled)]
  · exact shuffled
  · intro fragment member
    exact plain_of_mem_branches (shuffled.flatten_perm.mem_iff.mpr member)

/-- A reordered text is read where the text itself is, and both hold of the same records. -/
theorem holds_of_isReordering {text other : Text} (reordering : IsReordering other text) :
    ((∃ f, parse text = .ok f) ↔ ∃ g, parse other = .ok g) ∧
      ∀ f g, parse text = .ok f → parse other = .ok g →
        ∀ (ν : Type) [RecordNumber ν] (record : Document ν) (separator : Char),
          f.holds record separator = g.holds record separator := by
  have shuffled := reordering.shuffled
  constructor
  · rw [exists_parse_eq_ok_iff, exists_parse_eq_ok_iff]
    exact forall_congr' fun fragment => by rw [shuffled.flatten_perm.mem_iff]
  · intro f g first second ν _ record separator
    rw [holds, holds, eval_of_parse first, eval_of_parse second]
    exact shuffled.any_all _

theorem holds_of_reversed_branches :
    let text : Text := ['a', '>', '|', 'b', '<', '&', 'c', '=', '=', '1']
    let other : Text := ['c', '=', '=', '1', '&', 'b', '<', '|', 'a', '>']
    IsReordering other text ∧ ∃ f g, parse text = .ok f ∧ parse other = .ok g ∧
      ∀ record : Json, f.holds record '.' = g.holds record '.' := by
  intro text other
  have reordering : IsReordering other text :=
    ⟨[[['c', '=', '=', '1'], ['b', '<']], [['a', '>']]],
      ⟨[[['b', '<'], ['c', '=', '=', '1']], [['a', '>']]], .swap _ _ _,
        .cons (.swap _ _ _) (.cons (.refl _) .nil)⟩, rfl⟩
  obtain ⟨accepted, same⟩ := holds_of_isReordering reordering
  obtain ⟨f, first⟩ : ∃ f, parse text = .ok f := ⟨_, rfl⟩
  obtain ⟨g, second⟩ := accepted.mp ⟨f, first⟩
  exact ⟨reordering, f, g, first, second, fun record => same f g first second _ record '.'⟩

end Filter
end RecordFilter
