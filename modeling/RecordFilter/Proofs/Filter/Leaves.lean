import RecordFilter.Filter

/-! The leaves of a tree. They are what is counted, whatever the order in which pending subtrees are taken
up, and all that the verdict on a tree depends on besides its shape. -/

namespace RecordFilter.Filter

def leaves : Filter → List Predicate
  | leaf p => [p]
  | join _ l r => l.leaves ++ r.leaves

theorem countPending_eq (count : Nat) (pending : List Filter) :
    countPending count pending = count + (pending.flatMap leaves).length := by
  -- At every turn the count and the leaves still pending make up the whole.
  fun_induction countPending count pending with
  | case1 count => rfl
  | case2 count p pending ih =>
    rw [ih, List.flatMap_cons, leaves, List.length_append, List.length_singleton, Nat.add_assoc]
  | case3 count c l r pending ih =>
    rw [ih, List.flatMap_cons, List.flatMap_cons, List.flatMap_cons, leaves, List.append_assoc]

theorem predicateCount_eq_length_leaves (f : Filter) : f.predicateCount = f.leaves.length := by
  rw [predicateCount, countPending_eq, List.flatMap_singleton, Nat.zero_add]

theorem eval_congr {verdict other : Predicate → Bool} {f : Filter}
    (h : ∀ p ∈ f.leaves, verdict p = other p) : f.eval verdict = f.eval other := by
  induction f with
  | leaf p => exact h p (List.mem_singleton_self p)
  | join c l r ihl ihr =>
    obtain ⟨left, right⟩ := List.forall_mem_append.mp h
    cases c with
    | and => rw [eval_and, eval_and, ihl left, ihr right]
    | or => rw [eval_or, eval_or, ihl left, ihr right]

end RecordFilter.Filter
