import RecordFilter.Proofs.Filter.Leaves
import RecordFilter.Record

/-! The walks over a tree. Counting takes pending subtrees from a list, and writing and judging go down
the right spine in a loop; each of them gives what recursion over the tree gives, whatever its shape. -/

namespace RecordFilter

namespace Connective

def combine : Connective → Bool → Bool → Bool
  | and, left, right => left && right
  | or, left, right => left || right

def settled? : Connective → Bool → Option Bool
  | and, false => some false
  | or, true => some true
  | _, _ => none

theorem combine_eq_getD (connective : Connective) (left right : Bool) :
    connective.combine left right = (connective.settled? left).getD right := by
  cases connective <;> cases left <;> rfl

end Connective

namespace Filter

def inOrder : Filter → Text
  | leaf p => p.text
  | join connective l r => l.inOrder ++ connective.symbol ++ r.inOrder

def value (verdict : Predicate → Bool) : Filter → Bool
  | leaf p => verdict p
  | join connective l r => connective.combine (l.value verdict) (r.value verdict)

def spine : Filter → List (Filter × Connective)
  | leaf _ => []
  | join connective l r => (l, connective) :: r.spine

def lastLeaf : Filter → Predicate
  | leaf p => p
  | join _ _ r => r.lastLeaf

theorem flatten_writeAfter (f : Filter) (written : List Text) :
    (f.writeAfter written).reverse.flatten = written.reverse.flatten ++ f.inOrder := by
  induction f generalizing written with
  | leaf p => simp [writeAfter, inOrder]
  | join connective l r ihl ihr =>
    rw [writeAfter, ihr, List.reverse_cons, List.flatten_append, ihl, List.flatten_singleton, inOrder,
      List.append_assoc, List.append_assoc, List.append_assoc]

theorem text_eq_inOrder (f : Filter) : f.text = f.inOrder := by
  rw [text, flatten_writeAfter]
  rfl

theorem text_eq_spine (f : Filter) :
    f.text = (f.spine.flatMap fun side => side.1.text ++ side.2.symbol) ++ f.lastLeaf.text := by
  induction f with
  | leaf p => rw [text_leaf, spine, List.flatMap_nil, List.nil_append, lastLeaf]
  | join connective l r ihl ihr =>
    rw [text_join, ihr, spine, List.flatMap_cons, lastLeaf, List.append_assoc _ _ r.lastLeaf.text]

section
variable (verdict : Predicate → Bool)

theorem eval_join (connective : Connective) (l r : Filter) :
    (join connective l r).eval verdict = connective.combine (l.eval verdict) (r.eval verdict) := by
  cases connective with
  | and => exact eval_and verdict l r
  | or => exact eval_or verdict l r

theorem eval_eq_value (f : Filter) : f.eval verdict = f.value verdict := by
  induction f with
  | leaf p => rfl
  | join connective l r ihl ihr => rw [eval_join, ihl, ihr, value]

theorem eval_eq_spine (f : Filter) :
    f.eval verdict =
      (f.spine.findSome? fun side => side.2.settled? (side.1.eval verdict)).getD
        (verdict f.lastLeaf) := by
  induction f with
  | leaf p => rfl
  | join connective l r ihl ihr =>
    rw [eval_join, Connective.combine_eq_getD, ihr, spine, List.findSome?_cons, lastLeaf]
    cases connective.settled? (l.eval verdict) <;> rfl

end

/-- Each walk is its loop and agrees with the recursion over the tree: the count is the number of leaves,
the text is the one in order, and the verdict is the boolean value of the tree, for whatever judges the
predicates and so for every record. -/
theorem walks_eq_recursion (f : Filter) :
    f.predicateCount = f.leaves.length ∧
    f.text = (f.spine.flatMap fun side => side.1.text ++ side.2.symbol) ++ f.lastLeaf.text ∧
    f.text = f.inOrder ∧
    (∀ verdict : Predicate → Bool,
      f.eval verdict =
        (f.spine.findSome? fun side => side.2.settled? (side.1.eval verdict)).getD
          (verdict f.lastLeaf) ∧
      f.eval verdict = f.value verdict) ∧
    ∀ {ν : Type} [RecordNumber ν] (record : Document ν) (separator : Char),
      f.holds record separator = f.value fun p => p.holds record separator := by
  refine ⟨f.predicateCount_eq_length_leaves, f.text_eq_spine, f.text_eq_inOrder, ?_, ?_⟩
  · intro verdict
    exact ⟨eval_eq_spine verdict f, eval_eq_value verdict f⟩
  · intro ν _ record separator
    exact eval_eq_value (fun p => p.holds record separator) f

end Filter
end RecordFilter
