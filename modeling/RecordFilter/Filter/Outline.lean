import RecordFilter.Filter
import RecordFilter.Text.Quoted

/-! The outline of a filter: a line for each node of the tree, a node before its subtrees, indented
by two spaces for each level. -/

namespace RecordFilter

def Predicate.outline (p : Predicate) : Text :=
  p.field ++ ' ' :: p.comparison.symbol ++ ' ' :: Text.Quoted.encode p.literal

namespace Filter

def outlineLine (depth : Nat) (node : Text) : Text :=
  List.replicate (2 * depth) ' ' ++ node ++ ['\n']

def outlineAt (depth : Nat) : Filter → Text
  | leaf p => outlineLine depth p.outline
  | join c l r =>
    outlineLine depth c.word ++ (l.outlineAt (depth + 1) ++ r.outlineAt (depth + 1))

def outline (f : Filter) : Text := f.outlineAt 0

end Filter
end RecordFilter
