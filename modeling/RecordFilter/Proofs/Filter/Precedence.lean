import Mathlib.Data.List.Basic
import RecordFilter.Proofs.Filter.Reading
import RecordFilter.Record

/-! The meaning of the connectives: `&` joins the predicates of a branch and `|` joins branches,
whatever their number and order. -/

namespace RecordFilter

namespace Chain
open RecordFilter.Filter

def runs : Chain → List (List Predicate)
  | last p => [[p]]
  | link p .and rest => rest.runs.modifyHead (p :: ·)
  | link p .or rest => [p] :: rest.runs

theorem runs_ne_nil (chain : Chain) : chain.runs ≠ [] := by
  fun_induction runs chain with
  | case1 p => simp
  | case2 p rest ih => simpa using ih
  | case3 p rest ih => simp

theorem flatten_runs (chain : Chain) : chain.runs.flatten = chain.predicates := by
  fun_induction runs chain with
  | case1 p => rfl
  | case2 p rest ih =>
    obtain ⟨run, runs, split⟩ := List.exists_cons_of_ne_nil rest.runs_ne_nil
    rw [split] at ih ⊢
    simpa [predicates] using ih
  | case3 p rest ih => rw [predicates, ← ih, List.flatten_cons, List.singleton_append]

theorem eval_close (verdict : Predicate → Bool) (t : Tail) :
    t.close.eval verdict = (t.run.eval verdict || t.behind.any fun f => f.eval verdict) := by
  obtain ⟨run, behind⟩ := t
  cases behind with
  | none => simp [Tail.close]
  | some f => rw [Tail.close, eval_or, Option.any_some]

theorem eval_tail (verdict : Predicate → Bool) (chain : Chain) :
    ∃ run runs, chain.runs = run :: runs ∧ chain.tail.run.eval verdict = run.all verdict ∧
      chain.tail.behind.any (fun f => f.eval verdict) = runs.any fun run => run.all verdict := by
  -- The tree of the open run goes with the first run, the tree behind it with all the others.
  fun_induction runs chain with
  | case1 p => exact ⟨[p], [], rfl, by simp [tail, eval], rfl⟩
  | case2 p rest ih =>
    obtain ⟨run, runs, split, first, others⟩ := ih
    refine ⟨p :: run, runs, by rw [split, List.modifyHead_cons], ?_, others⟩
    rw [tail, Tail.push, eval_and, first, eval, List.all_cons]
  | case3 p rest ih =>
    obtain ⟨run, runs, split, first, others⟩ := ih
    refine ⟨[p], rest.runs, rfl, by simp [tail, Tail.push, eval], ?_⟩
    rw [tail, Tail.push, Option.any_some, eval_close, first, others, split, List.any_cons]

theorem eval_filter (verdict : Predicate → Bool) (chain : Chain) :
    chain.filter.eval verdict = chain.runs.any fun run => run.all verdict := by
  obtain ⟨run, runs, split, first, others⟩ := eval_tail verdict chain
  rw [filter, eval_close, first, others, split, List.any_cons]

end Chain

namespace Filter

def joinRight? (connective : Connective) : List Filter → Option Filter
  | [] => none
  | [f] => some f
  | f :: next :: fs => (joinRight? connective (next :: fs)).map (join connective f)

theorem joinRight?_cons {connective : Connective} {fs : List Filter} {g : Filter}
    (h : joinRight? connective fs = some g) (f : Filter) :
    joinRight? connective (f :: fs) = some (join connective f g) := by
  cases fs with
  | nil => cases h
  | cons => rw [joinRight?, h, Option.map_some]

def joinRuns? (runs : List (List Predicate)) : Option Filter := do
  let branches ← runs.mapM fun run => joinRight? .and (run.map leaf)
  joinRight? .or branches

theorem joinRuns?_close {run : List Predicate} {runs : List (List Predicate)} {t : Tail}
    (first : joinRight? .and (run.map leaf) = some t.run) (alone : t.behind = none → runs = [])
    (others : ∀ f, t.behind = some f → joinRuns? runs = some f) :
    joinRuns? (run :: runs) = some t.close := by
  obtain ⟨f, behind⟩ := t
  cases behind with
  | none =>
    obtain rfl := alone rfl
    simp [joinRuns?, first, joinRight?, Tail.close]
  | some g =>
    obtain ⟨branches, joined, root⟩ := Option.bind_eq_some_iff.mp (others g rfl)
    simp [joinRuns?, first, joined, joinRight?_cons root, Tail.close]

end Filter

namespace Chain
open RecordFilter.Filter

theorem joinRuns?_tail (chain : Chain) :
    ∃ run runs, chain.runs = run :: runs ∧ joinRight? .and (run.map leaf) = some chain.tail.run ∧
      (chain.tail.behind = none → runs = []) ∧
      ∀ f, chain.tail.behind = some f → joinRuns? runs = some f := by
  fun_induction runs chain with
  | case1 p => exact ⟨[p], [], rfl, rfl, fun _ => rfl, nofun⟩
  | case2 p rest ih =>
    obtain ⟨run, runs, split, first, alone, others⟩ := ih
    refine ⟨p :: run, runs, by rw [split, List.modifyHead_cons], ?_, alone, others⟩
    exact joinRight?_cons first (leaf p)
  | case3 p rest ih =>
    obtain ⟨run, runs, split, first, alone, others⟩ := ih
    refine ⟨[p], rest.runs, rfl, rfl, nofun, fun f same => ?_⟩
    cases same
    rw [split]
    exact joinRuns?_close first alone others

theorem joinRuns?_runs (chain : Chain) : joinRuns? chain.runs = some chain.filter := by
  obtain ⟨run, runs, split, first, alone, others⟩ := joinRuns?_tail chain
  rw [split]
  exact joinRuns?_close first alone others

end Chain

namespace Filter

def branches (text : Text) : List (List Text) :=
  (text.splitOn '|').map fun branch => branch.splitOn '&'

theorem branches_of_plain {fragment : Text} (plain : fragment.Plain) :
    branches fragment = [[fragment]] := by
  rw [branches, List.splitOn_eq_singleton plain.or_not_mem, List.map_singleton,
    List.splitOn_eq_singleton plain.and_not_mem]

theorem branches_append_or {fragment : Text} (plain : fragment.Plain) (text : Text) :
    branches (fragment ++ '|' :: text) = [fragment] :: branches text := by
  rw [branches, List.splitOn_append_cons_self_of_not_mem plain.or_not_mem, List.map_cons,
    List.splitOn_eq_singleton plain.and_not_mem, branches]

theorem splitOn_append_of_not_mem {separator : Char} {front : Text} (absent : separator ∉ front)
    (text : Text) :
    (front ++ text).splitOn separator = (text.splitOn separator).modifyHead (front ++ ·) := by
  induction front with
  | nil =>
    obtain ⟨head, rest, split⟩ := List.exists_cons_of_ne_nil (List.splitOn_ne_nil separator text)
    rw [List.nil_append, split, List.modifyHead_cons, List.nil_append]
  | cons c front ih =>
    rw [List.mem_cons, not_or] at absent
    rw [List.cons_append, List.splitOn_cons_eq_if_modifyHead, ih absent.2,
      if_neg (by simpa using Ne.symm absent.1), List.modifyHead_modifyHead]
    rfl

theorem branches_append_and {fragment : Text} (plain : fragment.Plain) (text : Text) :
    branches (fragment ++ '&' :: text) = (branches text).modifyHead (fragment :: ·) := by
  have absent : '|' ∉ fragment ++ ['&'] := by simpa using plain.or_not_mem
  have front (rest : Text) : fragment ++ '&' :: rest = fragment ++ ['&'] ++ rest := by simp
  obtain ⟨branch, others, split⟩ := List.exists_cons_of_ne_nil (List.splitOn_ne_nil '|' text)
  have outer : (fragment ++ '&' :: text).splitOn '|' = (fragment ++ '&' :: branch) :: others := by
    rw [front, splitOn_append_of_not_mem absent, split, List.modifyHead_cons, ← front]
  have inner : (fragment ++ '&' :: branch).splitOn '&' = fragment :: branch.splitOn '&' :=
    List.splitOn_append_cons_self_of_not_mem plain.and_not_mem branch
  rw [branches, outer, List.map_cons, inner, branches, split, List.map_cons, List.modifyHead_cons]

theorem branches_text {chain : Chain} (plain : ∀ p ∈ chain.predicates, p.text.Plain) :
    branches chain.text = chain.runs.map fun run => run.map Predicate.text := by
  fun_induction Chain.runs chain with
  | case1 p =>
    have plain : p.text.Plain := plain p (List.mem_singleton_self p)
    rw [Chain.text, Chain.tokens, List.flatten_singleton, branches_of_plain plain]
    rfl
  | case2 p rest ih =>
    obtain ⟨plain, plains⟩ := List.forall_mem_cons.mp plain
    obtain ⟨run, runs, split⟩ := List.exists_cons_of_ne_nil rest.runs_ne_nil
    rw [Chain.text_link, List.append_assoc, Connective.symbol, List.singleton_append]
    rw [Connective.char, branches_append_and plain, ih plains, split]
    rfl
  | case3 p rest ih =>
    obtain ⟨plain, plains⟩ := List.forall_mem_cons.mp plain
    rw [Chain.text_link, List.append_assoc, Connective.symbol, List.singleton_append]
    rw [Connective.char, branches_append_or plain, ih plains]
    rfl

/-- A filter holds where every fragment of some branch of its text is a predicate that holds. -/
theorem holds_iff_exists_branch {ν : Type} [RecordNumber ν] {text : Text} {f : Filter}
    (h : parse text = .ok f) (record : Document ν) (separator : Char) :
    f.holds record separator = true ↔
      ∃ branch ∈ text.splitOn '|', ∀ fragment ∈ branch.splitOn '&',
        ∃ p, Predicate.parse fragment = .ok p ∧ p.holds record separator = true := by
  obtain ⟨chain, rfl, operands, rfl⟩ := parse_eq_ok_iff.mp h
  have plain : ∀ p ∈ chain.predicates, p.text.Plain := by
    intro p member
    exact (operands p member).text_plain
  have read : ∀ run ∈ chain.runs, ∀ p ∈ run, Predicate.parse p.text = .ok p := by
    intro run inRuns p inRun
    have member : p ∈ chain.predicates := by
      rw [← chain.flatten_runs]
      exact List.mem_flatten_of_mem inRuns inRun
    exact (operands p member).parse_text
  calc
    _ ↔ ∃ run ∈ chain.runs, ∀ p ∈ run, p.holds record separator = true := by
      rw [Filter.holds, Chain.eval_filter]
      simp
    _ ↔ ∃ fragments ∈ branches chain.text, ∀ fragment ∈ fragments,
        ∃ p, Predicate.parse fragment = .ok p ∧ p.holds record separator = true := by
      simp only [branches_text plain, List.mem_map, exists_exists_and_eq_and, forall_exists_index,
        and_imp, forall_apply_eq_imp_iff₂]
      refine exists_congr fun run => and_congr_right fun inRuns => forall₂_congr fun p inRun => ?_
      simp [read run inRuns p inRun]
    _ ↔ _ := by simp only [branches, List.mem_map, exists_exists_and_eq_and]

theorem exists_branch_of_mixed_connectives :
    parse ['a', '=', '=', '1', '|', 'b', '=', '=', '2', '&', 'c', '!', '=', '3'] =
        .ok (join .or (leaf ⟨['a'], .equal, ['1'], nofun⟩)
          (join .and (leaf ⟨['b'], .equal, ['2'], nofun⟩)
            (leaf ⟨['c'], .notEqual, ['3'], nofun⟩))) ∧
      ∃ branch ∈ List.splitOn '|'
          ['a', '=', '=', '1', '|', 'b', '=', '=', '2', '&', 'c', '!', '=', '3'],
        ∀ fragment ∈ branch.splitOn '&', ∃ p, Predicate.parse fragment = .ok p ∧
          p.holds (.object [(['b'], .string ['2'])] : Json) '.' = true :=
  ⟨rfl, (holds_iff_exists_branch rfl _ _).mp rfl⟩

end Filter
end RecordFilter
