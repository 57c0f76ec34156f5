import Mathlib.Data.List.Basic
import RecordFilter.Filter.Outline
import RecordFilter.Filter.Parser
import RecordFilter.Proofs.Filter.Leaves
import RecordFilter.Proofs.Text.Quoted

/-! The lines of an outline. Each node of the tree is written on a line, a node before its subtrees; what
is written for a node stays on that line, but for the line breaks of a predicate's field. -/

namespace RecordFilter

theorem Comparison.line_break_not_mem_symbol (comparison : Comparison) : '\n' ∉ comparison.symbol := by
  cases comparison <;> decide

theorem Connective.line_break_not_mem_word (connective : Connective) : '\n' ∉ connective.word := by
  cases connective <;> decide

theorem Predicate.count_outline (p : Predicate) : p.outline.count '\n' = p.field.count '\n' := by
  have symbol : p.comparison.symbol.count '\n' = 0 :=
    List.count_eq_zero_of_not_mem p.comparison.line_break_not_mem_symbol
  have literal : (Text.Quoted.encode p.literal).count '\n' = 0 :=
    List.count_eq_zero_of_not_mem (Text.Quoted.line_break_not_mem_encode p.literal)
  simp [outline, symbol, literal]

theorem Predicate.line_break_not_mem_outline_iff (p : Predicate) : '\n' ∉ p.outline ↔ '\n' ∉ p.field := by
  rw [← List.count_eq_zero, p.count_outline, List.count_eq_zero]

namespace Filter

def label : Filter → Text
  | leaf p => p.outline
  | join connective _ _ => connective.word

/-- The nodes of a tree, each by the tree below it and with its depth, a node before its subtrees and
the left subtree before the right one. -/
def preorder (depth : Nat) : Filter → List (Nat × Filter)
  | leaf p => [(depth, leaf p)]
  | join connective l r =>
    (depth, join connective l r) :: (l.preorder (depth + 1) ++ r.preorder (depth + 1))

def line (node : Nat × Filter) : Text := List.replicate (2 * node.1) ' ' ++ node.2.label

theorem length_preorder (depth : Nat) (f : Filter) :
    (f.preorder depth).length + 1 = 2 * f.predicateCount := by
  induction f generalizing depth with
  | leaf p => rw [preorder, predicateCount_leaf, List.length_singleton]
  | join connective l r ihl ihr =>
    have left := ihl (depth + 1)
    have right := ihr (depth + 1)
    rw [preorder, predicateCount_join, List.length_cons, List.length_append]
    omega

theorem outlineAt_eq_flatMap (depth : Nat) (f : Filter) :
    f.outlineAt depth = (f.preorder depth).flatMap fun node => line node ++ ['\n'] := by
  induction f generalizing depth with
  | leaf p => rw [outlineAt, preorder, List.flatMap_singleton]; rfl
  | join connective l r ihl ihr =>
    rw [outlineAt, preorder, List.flatMap_cons, List.flatMap_append, ihl, ihr]
    rfl

theorem count_outlineAt (depth : Nat) (f : Filter) :
    (f.outlineAt depth).count '\n' =
      (f.preorder depth).length + (f.leaves.map fun p => p.field.count '\n').sum := by
  have ended (depth : Nat) (node : Text) :
      (outlineLine depth node).count '\n' = node.count '\n' + 1 := by
    simp [outlineLine, List.count_replicate]
  induction f generalizing depth with
  | leaf p =>
    rw [outlineAt, ended, p.count_outline, Nat.add_comm]
    rfl
  | join connective l r ihl ihr =>
    have word : connective.word.count '\n' = 0 :=
      List.count_eq_zero_of_not_mem connective.line_break_not_mem_word
    rw [outlineAt, List.count_append, List.count_append, ended, word, ihl, ihr, preorder, leaves,
      List.length_cons, List.length_append, List.map_append, List.sum_append]
    omega

theorem line_break_not_mem_lines_iff (depth : Nat) (f : Filter) :
    (∀ text ∈ (f.preorder depth).map line, '\n' ∉ text) ↔ ∀ p ∈ f.leaves, '\n' ∉ p.field := by
  have shown (node : Nat × Filter) : '\n' ∉ line node ↔ '\n' ∉ node.2.label := by
    simp [line, List.mem_replicate]
  induction f generalizing depth with
  | leaf p => simp [preorder, leaves, shown, label, p.line_break_not_mem_outline_iff]
  | join connective l r ihl ihr =>
    have word : '\n' ∉ (join connective l r).label := connective.line_break_not_mem_word
    rw [preorder, List.map_cons, List.forall_mem_cons, shown, List.map_append, List.forall_mem_append,
      leaves, List.forall_mem_append]
    exact (and_iff_right word).trans (and_congr (ihl (depth + 1)) (ihr (depth + 1)))

theorem splitOn_flatMap_iff (lines : List Text) :
    (lines.flatMap fun text => text ++ ['\n']).splitOn '\n' = lines ++ [[]] ↔
      ∀ text ∈ lines, '\n' ∉ text := by
  constructor
  · intro split text member
    exact Text.not_mem_of_mem_splitOn (split ▸ List.mem_append_left _ member)
  · intro free
    induction lines with
    | nil => rfl
    | cons text lines ih =>
      obtain ⟨first, others⟩ := List.forall_mem_cons.mp free
      rw [List.flatMap_cons, List.append_assoc, List.singleton_append,
        List.splitOn_append_cons_self_of_not_mem first, ih others, List.cons_append]

/-- An outline has a line for each node, in the order of the tree and indented by depth, and each line has
its line break. Line breaks in fields come on top of these, so that cutting the outline at line breaks gives
the lines of the nodes exactly where no field has one. -/
theorem outline_lines (f : Filter) :
    (f.preorder 0).length = 2 * f.predicateCount - 1 ∧
    (f.outline = (f.preorder 0).flatMap fun node => line node ++ ['\n']) ∧
    f.outline.count '\n' =
      2 * f.predicateCount - 1 + (f.leaves.map fun p => p.field.count '\n').sum ∧
    (f.outline.splitOn '\n' = (f.preorder 0).map line ++ [[]] ↔ ∀ p ∈ f.leaves, '\n' ∉ p.field) := by
  have length : (f.preorder 0).length = 2 * f.predicateCount - 1 := by
    rw [← length_preorder 0 f, Nat.add_sub_cancel]
  have lines := f.outlineAt_eq_flatMap 0
  refine ⟨length, lines, by rw [outline, count_outlineAt, length], ?_⟩
  rw [← line_break_not_mem_lines_iff 0 f, ← splitOn_flatMap_iff, outline, lines, List.flatMap_map]

/-- A line break in a field is not escaped. -/
theorem outline_breaks_line :
    ¬∀ text f, parse text = .ok f → f.outline.count '\n' = 2 * f.predicateCount - 1 := by
  intro always
  have counted := always ['a', '\n', 'b', '=', '=', '1']
    (leaf ⟨['a', '\n', 'b'], .equal, ['1'], nofun⟩) rfl
  rw [predicateCount_leaf, outline, count_outlineAt] at counted
  revert counted
  decide

end Filter
end RecordFilter
